import EarningsLedger.Calendar.Stamp
import EarningsLedger.Proofs.CivilDates
import Mathlib.Data.List.TakeWhile
import Mathlib.Tactic.IntervalCases
import Mathlib.Tactic.Ring

/-!
# Stored stamps read back

The ledger writes the stamp of a row as text and reads it again whenever the row is
handed out.  `Moment.readStamp_storedText` says that nothing is lost on the way, for
every instant of the calendar; so two instants with one text are one instant.

A stored stamp has one shape only, while the reader also knows weeks, missing parts
and distances from universal time.  The lemmas below follow the reader through its
parts and show at each fork that a stored stamp takes the plain way.  The stamps of log
lines take another way at the end, where they say that they are in universal time
(`Moment.readStamp_isoText`).
-/

namespace EarningsLedger

/-! ## Digits -/

namespace Text

theorem toNat_digitChar (n : Nat) : (digitChar n).toNat = 48 + n % 10 := by
  have small : n % 10 < 10 := Nat.mod_lt n (by decide)
  unfold digitChar
  generalize n % 10 = d at small
  interval_cases d <;> rfl

@[simp] theorem isDigit_digitChar (n : Nat) : isDigit (digitChar n) = true := by
  simp only [isDigit, toNat_digitChar, Bool.and_eq_true, decide_eq_true_eq]
  omega

@[simp] theorem digitValue_digitChar (n : Nat) : digitValue (digitChar n) = n % 10 := by
  simp only [digitValue, toNat_digitChar]
  omega

/-- A digit is none of the marks that divide the parts of a stamp. -/
theorem digitChar_ne (mark : Char) (other : isDigit mark = false) (n : Nat) :
    digitChar n ≠ mark := by
  rintro rfl
  simp at other

theorem all_isDigit_padDigits (places n : Nat) : (padDigits places n).all isDigit = true := by
  induction places generalizing n with
  | zero => rfl
  | succ places ih => simp [padDigits, ih]

theorem length_padDigits (places n : Nat) : (padDigits places n).length = places := by
  induction places generalizing n with
  | zero => rfl
  | succ places ih => simp [padDigits, ih]

/-- Digits of a fixed number of places denote the remainder of the number. -/
theorem foldDigits_padDigits (places n start : Nat) :
    foldDigits start (padDigits places n) = start * 10 ^ places + n % 10 ^ places := by
  induction places generalizing n with
  | zero => simp [padDigits, foldDigits, Nat.mod_one]
  | succ places ih =>
    have split : n % 10 ^ (places + 1) = n % 10 + 10 * (n / 10 % 10 ^ places) := by
      rw [Nat.pow_succ, Nat.mul_comm, Nat.mod_mul]
    have outer : foldDigits start (padDigits places (n / 10) ++ [digitChar n]) =
        10 * foldDigits start (padDigits places (n / 10)) + digitValue (digitChar n) := by
      simp only [foldDigits, List.foldl_append, List.foldl_cons, List.foldl_nil]
    rw [padDigits, outer, ih, digitValue_digitChar, split, Nat.pow_succ]
    ring

end Text

namespace Calendar

open Text

theorem twoDigits_padDigits (n : Nat) (rest : List Char) :
    twoDigits (padDigits 2 n ++ rest) = some (n % 100, rest) := by
  simp only [padDigits, List.nil_append, List.cons_append, twoDigits, isDigit_digitChar,
    Bool.and_self, if_true, digitValue_digitChar, Option.some.injEq, Prod.mk.injEq, and_true]
  omega

theorem fourDigits_padDigits (n : Nat) (rest : List Char) :
    fourDigits (padDigits 4 n ++ rest) = some (n % 10000, rest) := by
  have halves : padDigits 4 n ++ rest = padDigits 2 (n / 100) ++ (padDigits 2 n ++ rest) := by
    simp [padDigits, Nat.div_div_eq_div_mul]
  rw [halves, fourDigits, twoDigits_padDigits, Option.bind_some, twoDigits_padDigits,
    Option.map_some]
  simp only [Option.some.injEq, Prod.mk.injEq, and_true]
  omega

/-! ## The date in front -/

/-- A written date takes ten characters, and the reader cuts it off there. -/
theorem dateLength_chars (date : Date) (rest : List Char) :
    dateLength (date.chars ++ rest) = 10 := by
  have noWeek : digitChar (date.month / 10) ≠ 'W' := digitChar_ne 'W' (by decide) _
  simp only [dateLength, Date.chars, padDigits, List.nil_append, List.cons_append,
    List.length_cons, List.getElem?_cons_succ, List.getElem?_cons_zero,
    Option.some.injEq, noWeek, if_true, if_false]
  rw [if_neg (by omega)]

theorem length_dateChars (date : Date) : date.chars.length = 10 := by
  simp [Date.chars, length_padDigits]

/-- Reading a written date gives the date, when its parts have no more digits than
their places. -/
theorem readDate_chars {date : Date} (year : date.year < 10000) (month : date.month < 100)
    (day : date.day < 100) : readDate date.chars = some date := by
  have noWeek : digitChar (date.month / 10) ≠ 'W' := digitChar_ne 'W' (by decide) _
  have written : date.chars =
      padDigits 4 date.year ++ '-' :: (padDigits 2 date.month ++
        '-' :: (padDigits 2 date.day ++ [])) := by
    simp [Date.chars]
  rw [readDate, written, fourDigits_padDigits, Option.bind_some]
  simp only [List.head?_cons, beq_self_eq_true, if_true, List.drop_succ_cons, List.drop_zero]
  split
  · next week found =>
    simp only [padDigits, List.nil_append, List.cons_append, List.cons.injEq] at found
    exact absurd found.1 noWeek
  · rw [twoDigits_padDigits, Option.bind_some]
    simp only [behindHyphen, if_true, Option.bind_some]
    rw [twoDigits_padDigits]
    simp [Nat.mod_eq_of_lt year, Nat.mod_eq_of_lt month, Nat.mod_eq_of_lt day]

/-! ## The time of day behind it -/

/-- Whether a character starts a distance from universal time. -/
def isOffsetMark (c : Char) : Bool := c == '+' || c == '-' || c == 'Z'

/-- The reader cuts off what stands in front of the first mark. -/
theorem takeWhile_clock {clock : List Char} (rest : List Char) (plain : ∀ c ∈ clock, isOffsetMark c = false)
    (stops : ∀ c ∈ rest.head?, isOffsetMark c = true) :
    (clock ++ rest).takeWhile (fun c => c != '+' && c != '-' && c != 'Z') = clock := by
  have marks : (fun c : Char => c != '+' && c != '-' && c != 'Z') = fun c => !isOffsetMark c := by
    funext c
    simp only [isOffsetMark, bne, Bool.not_or]
  rw [marks, List.takeWhile_append_of_pos fun c member => by simp [plain c member]]
  cases rest with
  | nil => exact List.append_nil _
  | cons mark rest =>
    have here : isOffsetMark mark = true := stops mark rfl
    rw [List.takeWhile_cons_of_neg (by simp [here]), List.append_nil]

theorem splitOffset_plain {clock : List Char} (plain : ∀ c ∈ clock, isOffsetMark c = false) :
    splitOffset clock = (clock, none) := by
  have whole := takeWhile_clock [] plain fun _ same => nomatch same
  rw [List.append_nil] at whole
  simp only [splitOffset, whole, List.drop_length]

theorem splitOffset_append {clock rest : List Char} {mark : Char}
    (plain : ∀ c ∈ clock, isOffsetMark c = false) (marks : isOffsetMark mark = true) :
    splitOffset (clock ++ mark :: rest) = (clock, some (mark, rest)) := by
  have whole := takeWhile_clock (mark :: rest) plain fun c same => by
    rw [← Option.some.inj same]
    exact marks
  simp only [splitOffset, whole, List.drop_left]

/-- A digit is no mark, and neither are the dividers of a time of day. -/
theorem isOffsetMark_digitChar (n : Nat) : isOffsetMark (digitChar n) = false := by
  simp [isOffsetMark, digitChar_ne '+' (by decide) n, digitChar_ne '-' (by decide) n,
    digitChar_ne 'Z' (by decide) n]

theorem plain_padDigits (places n : Nat) : ∀ c ∈ padDigits places n, isOffsetMark c = false := by
  induction places generalizing n with
  | zero => exact List.forall_mem_nil _
  | succ places ih =>
    exact List.forall_mem_append.mpr
      ⟨ih _, List.forall_mem_singleton.mpr (isOffsetMark_digitChar n)⟩

theorem plain_secondChars (time : TimeOfDay) :
    ∀ c ∈ time.secondChars, isOffsetMark c = false := by
  have digits := fun n => plain_padDigits 2 n
  simp only [TimeOfDay.secondChars, List.forall_mem_append, List.forall_mem_cons]
  exact ⟨⟨digits _, rfl, digits _⟩, rfl, digits _⟩

theorem plain_decimals (micro : Nat) : ∀ c ∈ decimals micro, isOffsetMark c = false := by
  unfold decimals
  split
  · exact List.forall_mem_nil _
  · exact List.forall_mem_cons.mpr ⟨rfl, plain_padDigits 6 micro⟩

/-- Six written decimals are the microseconds, and all of them. -/
theorem readDecimals_padDigits {micro : Nat} (small : micro < 1000000) :
    readDecimals (padDigits 6 micro) = some (micro, true) := by
  have six : (padDigits 6 micro).take 6 = padDigits 6 micro :=
    List.take_of_length_le (length_padDigits 6 micro).le
  have none : (padDigits 6 micro).drop 6 = [] :=
    List.drop_of_length_le (length_padDigits 6 micro).le
  simp only [readDecimals, six, none, all_isDigit_padDigits, if_true, microsOf, padRight,
    length_padDigits, Nat.sub_self,
    List.replicate_zero, List.append_nil, foldDigits_padDigits, List.dropWhile_nil]
  simp [Nat.mod_eq_of_lt small]

/-- Two digits before a colon are one part; the parts behind are read divided. -/
theorem readParts_colon {left n : Nat} {colons : Option Bool} {rest : List Char}
    (divided : colons.getD true = true) (more : rest ≠ []) :
    readParts (left + 1) colons (padDigits 2 n ++ ':' :: rest) =
      (readParts left (some true) rest).map fun found => (n % 100 :: found.1, found.2) := by
  obtain ⟨c, cs, rfl⟩ := List.exists_cons_of_ne_nil more
  cases colons with
  | none => simp [readParts, twoDigits_padDigits]
  | some flag =>
    obtain rfl : flag = true := divided
    simp [readParts, twoDigits_padDigits]

/-- Two digits before a point are the last part; the decimals are behind it. -/
theorem readParts_point {left n : Nat} {colons : Option Bool} {rest : List Char}
    (more : rest ≠ []) :
    readParts (left + 1) colons (padDigits 2 n ++ '.' :: rest) =
      (readDecimals rest).map fun found => ([n % 100], found) := by
  obtain ⟨c, cs, rfl⟩ := List.exists_cons_of_ne_nil more
  simp [readParts, twoDigits_padDigits, Function.comp_def]

/-- Hours, minutes and seconds are read as they are written, with what the seconds end in. -/
theorem readParts_secondChars {time : TimeOfDay} (possible : time.exists? = true)
    {rest : List Char} {ending : Nat × Bool}
    (last : readParts 1 (some true) (padDigits 2 time.second ++ rest) =
      some ([time.second % 100], ending)) :
    readParts 3 none (time.secondChars ++ rest) =
      some ([time.hour, time.minute, time.second], ending) := by
  obtain ⟨hour, minute, second, -⟩ := TimeOfDay.exists?_iff.mp possible
  have written : time.secondChars ++ rest = padDigits 2 time.hour ++
      (':' :: (padDigits 2 time.minute ++ (':' :: (padDigits 2 time.second ++ rest)))) := by
    simp [TimeOfDay.secondChars]
  have hours : time.hour % 100 = time.hour := Nat.mod_eq_of_lt (by omega)
  have minutes : time.minute % 100 = time.minute := Nat.mod_eq_of_lt (by omega)
  have seconds : time.second % 100 = time.second := Nat.mod_eq_of_lt (by omega)
  rw [written, readParts_colon rfl (by simp [padDigits]), readParts_colon rfl (by simp [padDigits]),
    last]
  simp [hours, minutes, seconds]

/-- A written time of day reads back, decimals and all. -/
theorem readClock_stored {time : TimeOfDay} (possible : time.exists? = true) :
    readClock (time.secondChars ++ '.' :: padDigits 6 time.micro) = some (time, true) := by
  obtain ⟨-, -, -, micro⟩ := TimeOfDay.exists?_iff.mp possible
  have last : readParts 1 (some true) (padDigits 2 time.second ++ '.' :: padDigits 6 time.micro) =
      some ([time.second % 100], time.micro, true) := by
    rw [readParts_point (by simp [padDigits]), readDecimals_padDigits micro]
    rfl
  rw [readClock, readParts_secondChars possible last]
  rfl

/-- A time of day whose decimals are left out where they are zero reads back as well. -/
theorem readClock_iso {time : TimeOfDay} (possible : time.exists? = true) :
    readClock (time.secondChars ++ decimals time.micro) = some (time, true) := by
  unfold decimals
  split
  · next zero =>
    have last : readParts 1 (some true) (padDigits 2 time.second ++ []) =
        some ([time.second % 100], 0, true) := by
      rw [readParts, twoDigits_padDigits]
      rfl
    have whole : time = ⟨time.hour, time.minute, time.second, 0⟩ := by rw [← zero]
    rw [readClock, readParts_secondChars possible last, whole]
    rfl
  · exact readClock_stored possible

/-- A written time of day has no distance behind it. -/
theorem readTime_stored {time : TimeOfDay} (possible : time.exists? = true) :
    readTime (time.secondChars ++ '.' :: padDigits 6 time.micro) = some (time, none) := by
  have plain : ∀ c ∈ time.secondChars ++ '.' :: padDigits 6 time.micro,
      isOffsetMark c = false :=
    List.forall_mem_append.mpr ⟨plain_secondChars time,
      List.forall_mem_cons.mpr ⟨rfl, plain_padDigits 6 _⟩⟩
  simp [readTime, splitOffset_plain plain, readClock_stored possible]

/-- A time of day in universal time says so behind it. -/
theorem readTime_universal {time : TimeOfDay} (possible : time.exists? = true) :
    readTime (time.secondChars ++ decimals time.micro ++ offsetChars 0) =
      some (time, some 0) := by
  have mark : offsetChars 0 = '+' :: "00:00".toList := by decide
  have zero : readOffset "00:00".toList = some 0 := by decide
  have plain : ∀ c ∈ time.secondChars ++ decimals time.micro, isOffsetMark c = false :=
    List.forall_mem_append.mpr ⟨plain_secondChars time, plain_decimals _⟩
  rw [mark, readTime, splitOffset_append plain rfl]
  simp only [readClock_iso possible, Option.bind_some]
  show (readOffset "00:00".toList).map _ = _
  rw [zero]
  rfl

/-! ## Whole stamps -/

/-- Behind the date and one character the rest of a stamp is read as a time of day. -/
theorem stampParts_dateChars (t : Instant) (middle : Char) (rest : List Char) :
    stampParts (t.date.chars ++ middle :: rest) =
      (readTime rest).map fun time => (t.date, time) := by
  obtain ⟨possible, _, late⟩ := t.date_exists
  obtain ⟨_, year, _, day⟩ := Date.exists?_iff.mp possible
  have short : t.date.day < 100 := Nat.lt_of_le_of_lt (day.trans (monthLength_le _ _)) (by decide)
  have front : (t.date.chars ++ middle :: rest).take 10 = t.date.chars := by
    rw [List.take_append_of_le_length (by simp [length_dateChars]),
      List.take_of_length_le (by simp [length_dateChars])]
  have behind : (t.date.chars ++ middle :: rest).drop 10 = middle :: rest := by
    rw [← length_dateChars t.date, List.drop_left]
  have read : readDate t.date.chars = some t.date := readDate_chars (by omega) (by omega) short
  simp only [stampParts, dateLength_chars, front, behind, read, Option.bind_some]

/-- A stamp with the parts of an instant is read as that instant, at the distance from
universal time that it says. -/
theorem Moment.readStamp_of_parts {text : String} {t : Instant} {offset : Option Int}
    (parts : stampParts text.toList = some (t.date, t.timeOfDay, offset))
    (possible : offsetTrouble? offset = none) : Moment.readStamp text = .ok ⟨t, offset⟩ := by
  obtain ⟨there, first, last⟩ := t.date_exists
  obtain ⟨early, late, low, high⟩ := Date.exists?_iff.mp there
  obtain ⟨hour, minute, second, _⟩ := TimeOfDay.exists?_iff.mp t.timeOfDay_exists
  have goodDate : t.date.trouble? = none := by
    unfold Date.trouble?
    rw [if_neg (by omega), if_neg (by omega), if_neg (by omega)]
  have goodTime : t.timeOfDay.trouble? = none := by
    unfold TimeOfDay.trouble?
    rw [if_neg (by omega), if_neg (by omega), if_neg (by omega)]
  simp only [readStamp, parts, possible, Option.none_or, goodDate, goodTime,
    Instant.ofParts?_date_timeOfDay]

/-- **A stored stamp reads back as its instant**, without a distance from universal
time. -/
theorem Moment.readStamp_storedText (t : Instant) :
    Moment.readStamp t.storedText = .ok (.plain t) := by
  have written : t.storedText.toList =
      t.date.chars ++ ' ' :: (t.timeOfDay.secondChars ++ '.' :: padDigits 6 t.timeOfDay.micro) := by
    simp [Instant.storedText, Instant.storedChars]
  refine Moment.readStamp_of_parts ?_ rfl
  rw [written, stampParts_dateChars, readTime_stored t.timeOfDay_exists]
  rfl

/-- **The stamp of an instant in universal time reads back**, and so does that it is in
universal time. -/
theorem Moment.readStamp_isoText (t : Instant) :
    Moment.readStamp (Moment.mk t (some 0)).isoText = .ok ⟨t, some 0⟩ := by
  have written : (Moment.mk t (some 0)).isoText.toList = t.date.chars ++ 'T' ::
      (t.timeOfDay.secondChars ++ decimals t.timeOfDay.micro ++ offsetChars 0) := by
    simp [Moment.isoText, Moment.chars, Instant.isoChars]
  refine Moment.readStamp_of_parts ?_ rfl
  rw [written, stampParts_dateChars, readTime_universal t.timeOfDay_exists]
  rfl

/-- Instants that are stored as one text are one instant. -/
theorem Instant.storedText_injective {s t : Instant} (same : s.storedText = t.storedText) :
    s = t := by
  have read := Moment.readStamp_storedText s
  rw [same, Moment.readStamp_storedText t] at read
  injection read with moments
  exact (congrArg Moment.reading moments).symm

end Calendar

end EarningsLedger
