import EarningsLedger.Json.Parser
import EarningsLedger.Json.Printer
import EarningsLedger.Proofs.StoredStamps
import Mathlib.Data.List.TakeWhile

/-!
# Trees read back from their print

A tree is printed on one line and can be read again.  `Json.parse_line` says that nothing is
lost or made up on the way, whatever texts stand in the tree and however deep it goes: the
print is read back as the tree, with the members of every object in their order and none of
them merged.  `Json.Exact.visible` says that the print has no control character, and so no end
of a line.

The reader takes a bound on its steps.  Every constructor has a lemma that reads its print in
as many steps as the print is long, so that the bound is never met.  Trees with fractions are
left out: their print is rounded.
-/

namespace EarningsLedger

open Text

/-! ## Digits -/

namespace Text

theorem natDigits_ne_nil (n : Nat) : natDigits n ≠ [] := by
  unfold natDigits
  split <;> simp

theorem isDigit_of_mem_natDigits {n : Nat} {c : Char} (member : c ∈ natDigits n) :
    isDigit c = true := by
  induction n using natDigits.induct with
  | case1 n small =>
    rw [natDigits, if_pos small] at member
    obtain rfl := List.mem_singleton.mp member
    exact isDigit_digitChar n
  | case2 n large ih =>
    rw [natDigits, if_neg large] at member
    rcases List.mem_append.mp member with front | last
    · exact ih front
    · obtain rfl := List.mem_singleton.mp last
      exact isDigit_digitChar n

theorem foldDigits_natDigits (n : Nat) : foldDigits 0 (natDigits n) = n := by
  induction n using natDigits.induct with
  | case1 n small =>
    rw [natDigits, if_pos small]
    simp only [foldDigits, List.foldl_cons, List.foldl_nil, digitValue_digitChar]
    omega
  | case2 n large ih =>
    have last : foldDigits 0 (natDigits (n / 10) ++ [digitChar n]) =
        10 * foldDigits 0 (natDigits (n / 10)) + digitValue (digitChar n) := by
      simp only [foldDigits, List.foldl_append, List.foldl_cons, List.foldl_nil]
    rw [natDigits, if_neg large, last, ih, digitValue_digitChar]
    omega

/-- A number is read back from its digits. -/
theorem readNat_natDigits (n : Nat) : readNat (natDigits n) = some n := by
  have digits : (natDigits n).all isDigit = true :=
    List.all_eq_true.mpr fun _ member => isDigit_of_mem_natDigits member
  simp [readNat, natDigits_ne_nil, digits, foldDigits_natDigits]

/-- A digit of base sixteen is read back from its character. -/
theorem hexValue?_baseChar {digit : Nat} (small : digit < 16) :
    hexValue? (baseChar digit) = some digit := by
  interval_cases digit <;> rfl

end Text

namespace Json

/-! ## Texts -/

/-- Four places of base sixteen are read back. -/
theorem fourHex_padHex (n : Nat) (rest : List Char) (small : n < 65536) :
    fourHex (padHex 4 n ++ rest) = some (n, rest) := by
  have place : ∀ m, hexValue? (baseChar (m % 16)) = some (m % 16) :=
    fun m => hexValue?_baseChar (Nat.mod_lt m (by decide))
  simp only [padHex, List.nil_append, List.cons_append, fourHex, place, Option.bind_eq_bind,
    Option.bind_some, Option.pure_def, Option.some.injEq, Prod.mk.injEq, and_true]
  omega

/-- A unit below the halves of pairs names a character on its own. -/
theorem unitChar_of_small {unit : Nat} (small : unit < 55296) (rest : List Char) :
    unitChar unit rest = (Char.ofNat unit, rest) := by
  unfold unitChar
  rw [if_neg (by omega), if_neg (by omega)]

/-- A character that shows on a line: it is no control character. -/
def Visible (c : Char) : Prop := 32 ≤ c.toNat

instance (c : Char) : Decidable (Visible c) := inferInstanceAs (Decidable (_ ≤ _))

/-- How a character is escaped: by a mark that stands for it, by its number when it is a control
character, or not at all. -/
inductive Escaped (c : Char) : List Char → Prop
  | short {mark : Char} (plain : mark ≠ 'u') (stands : shortEscape? mark = some c)
    (shows : Visible mark) : Escaped c ['\\', mark]
  | number (control : c.toNat < 32) : Escaped c ('\\' :: 'u' :: padHex 4 c.toNat)
  | itself (quote : c ≠ '"') (slash : c ≠ '\\') (shows : Visible c) : Escaped c [c]

/-- Every character is escaped in one of these ways. -/
theorem escaped_escapedChar (c : Char) : Escaped c (escapedChar c) := by
  unfold escapedChar
  by_cases quote : c = '"'
  · rw [if_pos quote, quote]
    exact .short (by decide) rfl (by decide)
  rw [if_neg quote]
  by_cases slash : c = '\\'
  · rw [if_pos slash, slash]
    exact .short (by decide) rfl (by decide)
  rw [if_neg slash]
  by_cases newline : c = '\n'
  · rw [if_pos newline, newline]
    exact .short (by decide) rfl (by decide)
  rw [if_neg newline]
  by_cases home : c = '\r'
  · rw [if_pos home, home]
    exact .short (by decide) rfl (by decide)
  rw [if_neg home]
  by_cases tab : c = '\t'
  · rw [if_pos tab, tab]
    exact .short (by decide) rfl (by decide)
  rw [if_neg tab]
  by_cases backspace : c.toNat = 8
  · obtain rfl : c = Char.ofNat 8 := by rw [← backspace, Char.ofNat_toNat]
    exact .short (by decide) rfl (by decide)
  rw [if_neg backspace]
  by_cases feed : c.toNat = 12
  · obtain rfl : c = Char.ofNat 12 := by rw [← feed, Char.ofNat_toNat]
    exact .short (by decide) rfl (by decide)
  rw [if_neg feed]
  by_cases control : c.toNat < 32
  · rw [if_pos control]
    exact .number control
  · rw [if_neg control]
    exact .itself quote slash (Nat.le_of_not_lt control)

/-- A backslash is read together with the mark behind it. -/
theorem textBody_of_mark {mark : Char} (plain : mark ≠ 'u') (steps : Nat) (behind : List Char) :
    textBody (steps + 1) ('\\' :: mark :: behind) =
      (shortEscape? mark).bind fun found =>
        (textBody steps behind).map fun body => (found :: body.1, body.2) := by
  rw [textBody.eq_def]
  dsimp only
  rw [if_neg (by decide), if_pos rfl]
  split
  · next same => exact absurd (List.cons.inj same).1 plain
  · next same =>
    obtain ⟨rfl, rfl⟩ := List.cons.inj same
    rfl
  · next same => cases same

theorem textBody_of_itself {c : Char} (quote : c ≠ '"') (slash : c ≠ '\\') (steps : Nat)
    (behind : List Char) :
    textBody (steps + 1) (c :: behind) =
      (textBody steps behind).map fun body => (c :: body.1, body.2) := by
  rw [textBody.eq_def]
  dsimp only
  rw [if_neg quote, if_neg slash]

/-- **A character is read back from its escape** in one step, and nothing behind it is. -/
theorem textBody_escapedChar (c : Char) (steps : Nat) (behind : List Char) :
    textBody (steps + 1) (escapedChar c ++ behind) =
      (textBody steps behind).map fun body => (c :: body.1, body.2) := by
  have escaped := escaped_escapedChar c
  generalize escapedChar c = escape at escaped
  cases escaped with
  | short plain stands shows =>
    rw [List.cons_append, List.singleton_append, textBody_of_mark plain, stands]
    rfl
  | number control =>
    rw [List.cons_append, List.cons_append]
    show (fourHex (padHex 4 c.toNat ++ behind)).bind _ = _
    rw [fourHex_padHex _ _ (by omega), Option.bind_some]
    dsimp only
    rw [unitChar_of_small (by omega), Char.ofNat_toNat]
  | itself quote slash shows =>
    rw [List.singleton_append, textBody_of_itself quote slash]

theorem textBody_escaped (cs behind : List Char) (steps : Nat) (enough : cs.length < steps) :
    textBody steps (cs.flatMap escapedChar ++ '"' :: behind) = some (cs, behind) := by
  induction cs generalizing steps with
  | nil =>
    cases steps with
    | zero => cases enough
    | succ steps => rfl
  | cons c cs ih =>
    cases steps with
    | zero => cases enough
    | succ steps =>
      rw [List.flatMap_cons, List.append_assoc, textBody_escapedChar,
        ih steps (Nat.lt_of_succ_lt_succ enough)]
      rfl

theorem escapedChar_ne_nil (c : Char) : escapedChar c ≠ [] := by
  have escaped := escaped_escapedChar c
  intro empty
  rw [empty] at escaped
  cases escaped

theorem length_le_flatMap_escapedChar (cs : List Char) :
    cs.length ≤ (cs.flatMap escapedChar).length := by
  induction cs with
  | nil => exact Nat.le_refl 0
  | cons c cs ih =>
    have here : 0 < (escapedChar c).length := List.length_pos_iff.mpr (escapedChar_ne_nil c)
    rw [List.flatMap_cons, List.length_append, List.length_cons]
    omega

/-- **A text is read back from its quoted form.** -/
theorem textAfterQuote_escaped (s : String) (behind : List Char) :
    textAfterQuote (s.toList.flatMap escapedChar ++ '"' :: behind) = some (s, behind) := by
  unfold textAfterQuote
  rw [textBody_escaped]
  · rw [Option.map_some, String.ofList_toList]
  · have short := length_le_flatMap_escapedChar s.toList
    rw [List.length_append]
    omega

/-! ## Trees -/

/-- A tree whose print is exact: one without fractions. -/
inductive Exact : Json → Prop
  | null : Exact null
  | bool (b : Bool) : Exact (bool b)
  | int (n : Int) : Exact (int n)
  | text (s : String) : Exact (text s)
  | array {items : List Json} (each : ∀ item ∈ items, Exact item) : Exact (array items)
  | object {members : List (String × Json)} (each : ∀ member ∈ members, Exact member.2) :
    Exact (object members)

/-- Characters that no number goes on with. -/
def Ends (behind : List Char) : Prop := ∀ c ∈ behind.head?, isNumberChar c = false

/-- A tree that is read back from its print, whatever comes behind it. -/
def ReadsBack (tree : Json) : Prop :=
  ∀ (steps : Nat) (behind : List Char), tree.print.length ≤ steps → Ends behind →
    value steps (tree.print ++ behind) = some (tree, behind)

/-- A character that a tree begins with. -/
def Begins (c : Char) : Prop := isGap c = false ∧ c ≠ ']' ∧ c ≠ '\x7d'

instance (c : Char) : Decidable (Begins c) := inferInstanceAs (Decidable (_ ∧ _ ∧ _))

/-! ## Numbers and words -/

theorem value_blank (steps : Nat) (cs : List Char) : value steps (' ' :: cs) = value steps cs := by
  cases steps <;> rfl

theorem skipGap_of_begins {c : Char} (begins : Begins c) (cs : List Char) :
    skipGap (c :: cs) = c :: cs := by
  simp [skipGap, begins.1]

/-- What begins neither a text nor a list nor an object is an atom. -/
theorem value_of_atom {c : Char} (begins : Begins c) (quote : c ≠ '"') (bracket : c ≠ '[')
    (brace : c ≠ '\x7b') (steps : Nat) (cs : List Char) :
    value (steps + 1) (c :: cs) = atom (c :: cs) := by
  unfold value
  rw [skipGap_of_begins begins]
  split
  · next same => exact absurd (List.cons.inj same).1 quote
  · next same => exact absurd (List.cons.inj same).1 bracket
  · next same => exact absurd (List.cons.inj same).1 brace
  · rfl

theorem ne_of_isDigit {c : Char} (digit : isDigit c = true) (mark : Char)
    (other : isDigit mark = false) : c ≠ mark := by
  rintro rfl
  rw [digit] at other
  cases other

theorem begins_of_isDigit {c : Char} (digit : isDigit c = true) : Begins c := by
  have ne := ne_of_isDigit digit
  refine ⟨?_, ne _ rfl, ne _ rfl⟩
  simp [isGap, ne ' ' rfl, ne '\n' rfl, ne '\r' rfl, ne '\t' rfl]

/-- The print of a whole number: its digits, or those of its opposite behind a minus. -/
inductive PrintedInt : Int → List Char → Prop
  | digits {m : Nat} {d : Char} {ds : List Char} (each : ∀ c ∈ d :: ds, isDigit c = true)
    (read : readNat (d :: ds) = some m) : PrintedInt (Int.ofNat m) (d :: ds)
  | minus {m : Nat} {d : Char} {ds : List Char} (each : ∀ c ∈ d :: ds, isDigit c = true)
    (read : readNat (d :: ds) = some m) : PrintedInt (-Int.ofNat m) ('-' :: d :: ds)

theorem printedInt_intDigits (n : Int) : PrintedInt n (intDigits n) := by
  have digits : ∀ m, ∃ d ds, natDigits m = d :: ds ∧ (∀ c ∈ d :: ds, isDigit c = true) ∧
      readNat (d :: ds) = some m := by
    intro m
    obtain ⟨d, ds, whole⟩ := List.exists_cons_of_ne_nil (natDigits_ne_nil m)
    refine ⟨d, ds, whole, ?_⟩
    rw [← whole]
    exact ⟨fun _ => isDigit_of_mem_natDigits, readNat_natDigits m⟩
  cases n with
  | ofNat m =>
    obtain ⟨d, ds, whole, each, read⟩ := digits m
    rw [intDigits, whole]
    exact .digits each read
  | negSucc m =>
    obtain ⟨d, ds, whole, each, read⟩ := digits (m + 1)
    rw [intDigits, whole]
    exact .minus each read

theorem word?_of_digit {d : Char} (digit : isDigit d = true) (cs : List Char) :
    word? (d :: cs) = none := by
  have ne := fun mark other => (ne_of_isDigit digit mark other).symm
  simp [word?, words, List.isPrefixOf, ne 'n' rfl, ne 't' rfl, ne 'f' rfl, ne 'N' rfl, ne 'I' rfl,
    ne '-' rfl]

theorem word?_of_minus {d : Char} (digit : isDigit d = true) (cs : List Char) :
    word? ('-' :: d :: cs) = none := by
  have ne : 'I' ≠ d := (ne_of_isDigit digit 'I' rfl).symm
  simp [word?, words, List.isPrefixOf, ne]

/-- Characters of a number are read up to where it ends. -/
theorem atom_of_number {cs behind : List Char} {tree : Json}
    (each : ∀ c ∈ cs, isNumberChar c = true) (ends : Ends behind)
    (other : word? (cs ++ behind) = none) (read : numberOf cs = some tree) :
    atom (cs ++ behind) = some (tree, behind) := by
  have front : (cs ++ behind).takeWhile isNumberChar = cs := by
    rw [List.takeWhile_append_of_pos each]
    cases behind with
    | nil => simp
    | cons c cs => simp [ends c rfl]
  have back : (cs ++ behind).dropWhile isNumberChar = behind := by
    rw [List.dropWhile_append_of_pos each]
    cases behind with
    | nil => rfl
    | cons c cs => simp [ends c rfl]
  simp only [atom, other, front, back, read, Option.map_some]

/-- **A whole number is read back from its print**, where no number goes on behind it. -/
theorem PrintedInt.atom_append {n : Int} {cs behind : List Char} (printed : PrintedInt n cs)
    (ends : Ends behind) : atom (cs ++ behind) = some (.int n, behind) := by
  have ofDigit : ∀ {c}, isDigit c = true →
      isNumberChar c = true ∧ (isDigit c || c == '-') = true := by
    intro c digit
    simp [isNumberChar, digit]
  cases printed with
  | @digits m d ds each read =>
    have first := each d List.mem_cons_self
    refine atom_of_number (fun c member => (ofDigit (each c member)).1) ends
      (word?_of_digit first _) ?_
    unfold numberOf
    rw [if_pos (List.all_eq_true.mpr fun c member => (ofDigit (each c member)).2)]
    split
    · next same => exact absurd (List.cons.inj same).1 (ne_of_isDigit first '-' rfl)
    · rw [read]
      rfl
  | @minus m d ds each read =>
    have whole : ∀ c ∈ '-' :: d :: ds,
        isNumberChar c = true ∧ (isDigit c || c == '-') = true :=
      List.forall_mem_cons.mpr ⟨⟨rfl, rfl⟩, fun c member => ofDigit (each c member)⟩
    refine atom_of_number (fun c member => (whole c member).1) ends
      (word?_of_minus (each d List.mem_cons_self) _) ?_
    unfold numberOf
    rw [if_pos (List.all_eq_true.mpr fun c member => (whole c member).2)]
    show (readNat (d :: ds)).map _ = _
    rw [read]
    rfl

/-- A whole number is read back from its print by the reader of trees. -/
theorem PrintedInt.value_append {n : Int} {cs behind : List Char} (printed : PrintedInt n cs)
    (ends : Ends behind) (steps : Nat) : value (steps + 1) (cs ++ behind) = some (.int n, behind) := by
  rw [← printed.atom_append ends]
  cases printed with
  | @digits m d ds each read =>
    have digit := each d List.mem_cons_self
    have ne := ne_of_isDigit digit
    exact value_of_atom (begins_of_isDigit digit) (ne _ rfl) (ne _ rfl) (ne _ rfl) steps _
  | minus each read =>
    exact value_of_atom (by decide) (by decide) (by decide) (by decide) steps _

/-! ## Lists and objects -/

/-- Every print of an exact tree has a first character, which no gap and no closing mark is. -/
theorem Exact.print_begins {tree : Json} (exact : tree.Exact) :
    ∃ c cs, tree.print = c :: cs ∧ Begins c := by
  cases exact with
  | null => exact ⟨'n', _, rfl, by decide⟩
  | bool b => cases b <;> exact ⟨_, _, rfl, by decide⟩
  | int n =>
    have printed := printedInt_intDigits n
    rw [print]
    generalize intDigits n = cs at printed
    cases printed with
    | digits each read => exact ⟨_, _, rfl, begins_of_isDigit (each _ List.mem_cons_self)⟩
    | minus each read => exact ⟨'-', _, rfl, by decide⟩
  | text s => exact ⟨'"', _, rfl, by decide⟩
  | @array items each => cases items <;> exact ⟨'[', _, rfl, by decide⟩
  | @object members each => cases members <;> exact ⟨'\x7b', _, rfl, by decide⟩

theorem ends_printItems (items : List Json) (behind : List Char) :
    Ends (printItems items ++ behind) := by
  intro c first
  cases items <;> cases first <;> rfl

theorem ends_printMembers (members : List (String × Json)) (behind : List Char) :
    Ends (printMembers members ++ behind) := by
  intro c first
  cases members <;> cases first <;> rfl

/-- A list that does not close at once is read item by item. -/
theorem value_of_list {c : Char} {front cs : List Char} (whole : front = c :: cs)
    (begins : Begins c) (steps : Nat) (behind : List Char) :
    value (steps + 1) ('[' :: (front ++ behind)) =
      (valueList steps (front ++ behind)).map fun found => (.array found.1, found.2) := by
  have opened : skipGap ('[' :: (front ++ behind)) = '[' :: (front ++ behind) := rfl
  have inside : skipGap (front ++ behind) = c :: (cs ++ behind) := by
    rw [whole, List.cons_append, skipGap_of_begins begins]
  unfold value
  rw [opened]
  simp only [inside]
  split
  · next same => exact absurd (List.cons.inj same).1 begins.2.1
  · rw [whole]
    rfl

/-- An object that begins with a name is read member by member. -/
theorem value_of_object (name : String) (steps : Nat) (behind : List Char) :
    value (steps + 1) ('\x7b' :: (quotedText name ++ behind)) =
      (memberList steps (quotedText name ++ behind)).map fun found => (.object found.1, found.2) :=
  rfl

theorem valueList_blank (steps : Nat) (cs : List Char) :
    valueList steps (' ' :: cs) = valueList steps cs := by
  cases steps with
  | zero => rfl
  | succ steps => rw [valueList, valueList, value_blank]

theorem memberList_blank (steps : Nat) (cs : List Char) :
    memberList steps (' ' :: cs) = memberList steps cs := by
  cases steps <;> rfl

/-- Items that are read back one by one are read back as a list. -/
theorem valueList_print {first : Json} {others : List Json} (here : first.ReadsBack)
    (each : ∀ item ∈ others, item.ReadsBack) (behind : List Char) (steps : Nat)
    (enough : first.print.length + (printItems others).length ≤ steps) :
    valueList steps (first.print ++ (printItems others ++ behind)) =
      some (first :: others, behind) := by
  induction others generalizing first steps with
  | nil =>
    have closing : (printItems []).length = 1 := rfl
    rw [closing] at enough
    obtain ⟨steps, rfl⟩ := Nat.exists_eq_add_one.mpr (Nat.lt_of_lt_of_le (by omega) enough)
    have read := here steps (printItems [] ++ behind) (by omega) (ends_printItems [] behind)
    rw [valueList, read]
    rfl
  | cons second others ih =>
    obtain ⟨next, each⟩ := List.forall_mem_cons.mp each
    have length : (printItems (second :: others)).length =
        2 + (second.print.length + (printItems others).length) := by
      simp only [printItems, List.length_append, List.length_cons]
      omega
    rw [length] at enough
    obtain ⟨steps, rfl⟩ := Nat.exists_eq_add_one.mpr (Nat.lt_of_lt_of_le (by omega) enough)
    have read := here steps (printItems (second :: others) ++ behind) (by omega)
      (ends_printItems _ behind)
    have rest : valueList steps (' ' :: (second.print ++ printItems others) ++ behind) =
        some (second :: others, behind) := by
      rw [List.cons_append, valueList_blank, List.append_assoc]
      exact ih next each steps (by omega)
    rw [valueList, read, Option.bind_some]
    show (valueList steps (' ' :: (second.print ++ printItems others) ++ behind)).map _ = _
    rw [rest]
    rfl

/-- A quoted text, with what comes behind its closing quote. -/
theorem quotedText_append (s : String) (behind : List Char) :
    quotedText s ++ behind = '"' :: (s.toList.flatMap escapedChar ++ '"' :: behind) := by
  simp [quotedText]

/-- A member is read by its name first. -/
theorem memberList_member (name : String) (steps : Nat) (cs : List Char) :
    memberList (steps + 1) (quotedText name ++ ':' :: ' ' :: cs) =
      (value steps cs).bind fun first =>
        match skipGap first.2 with
        | '\x7d' :: rest => some ([(name, first.1)], rest)
        | ',' :: rest =>
          (memberList steps rest).map fun found => ((name, first.1) :: found.1, found.2)
        | _ => none := by
  rw [quotedText_append, ← value_blank steps cs]
  show (textAfterQuote (name.toList.flatMap escapedChar ++ '"' :: (':' :: ' ' :: cs))).bind _ = _
  rw [textAfterQuote_escaped]
  rfl

/-- Members that are read back one by one are read back as an object. -/
theorem memberList_print (name : String) (first : Json) {others : List (String × Json)}
    (here : first.ReadsBack) (each : ∀ member ∈ others, member.2.ReadsBack) (behind : List Char)
    (steps : Nat) (enough : first.print.length + (printMembers others).length ≤ steps) :
    memberList steps
        (quotedText name ++ ':' :: ' ' :: (first.print ++ (printMembers others ++ behind))) =
      some ((name, first) :: others, behind) := by
  induction others generalizing name first steps with
  | nil =>
    have closing : (printMembers []).length = 1 := rfl
    rw [closing] at enough
    obtain ⟨steps, rfl⟩ := Nat.exists_eq_add_one.mpr (Nat.lt_of_lt_of_le (by omega) enough)
    have read := here steps (printMembers [] ++ behind) (by omega) (ends_printMembers [] behind)
    rw [memberList_member, read]
    rfl
  | cons second others ih =>
    obtain ⟨other, tree⟩ := second
    obtain ⟨next, each⟩ := List.forall_mem_cons.mp each
    have length : tree.print.length + (printMembers others).length <
        (printMembers ((other, tree) :: others)).length := by
      simp only [printMembers, List.length_append, List.length_cons]
      omega
    obtain ⟨steps, rfl⟩ := Nat.exists_eq_add_one.mpr (Nat.lt_of_lt_of_le (by omega) enough)
    have read := here steps (printMembers ((other, tree) :: others) ++ behind) (by omega)
      (ends_printMembers _ behind)
    have printed : printMembers ((other, tree) :: others) ++ behind = ',' :: ' ' ::
        (quotedText other ++ ':' :: ' ' :: (tree.print ++ (printMembers others ++ behind))) := by
      simp [printMembers]
    have rest := ih other tree next each steps (by omega)
    rw [memberList_member, read, Option.bind_some, printed]
    show (memberList steps (' ' :: _)).map _ = _
    rw [memberList_blank, rest]
    rfl

/-! ## Whole trees -/

/-- A print takes a step, so the first one can be made. -/
theorem readsBack_of_succ {tree : Json} (nonempty : tree.print ≠ [])
    (reads : ∀ steps behind, tree.print.length ≤ steps + 1 → Ends behind →
      value (steps + 1) (tree.print ++ behind) = some (tree, behind)) : tree.ReadsBack := by
  intro steps behind enough ends
  cases steps with
  | zero => exact absurd (List.length_eq_zero_iff.mp (Nat.le_zero.mp enough)) nonempty
  | succ steps => exact reads steps behind enough ends

/-- **An exact tree is read back from its print**, whatever comes behind it. -/
theorem Exact.readsBack {tree : Json} (exact : tree.Exact) : tree.ReadsBack := by
  -- the induction is on the tree; a list or an object is opened with one step less than its
  -- print is long, which is enough for the prints of its parts
  induction exact with
  | null => exact readsBack_of_succ nofun fun _ _ _ _ => rfl
  | bool b => cases b <;> exact readsBack_of_succ nofun fun _ _ _ _ => rfl
  | int n =>
    have printed := printedInt_intDigits n
    refine readsBack_of_succ ?_ fun steps behind _ ends => printed.value_append ends steps
    rw [print]
    intro empty
    rw [empty] at printed
    cases printed
  | text s =>
    refine readsBack_of_succ (by rw [print, quotedText]; nofun) fun steps behind _ _ => ?_
    rw [print, quotedText_append]
    show (textAfterQuote (s.toList.flatMap escapedChar ++ '"' :: behind)).map _ = _
    rw [textAfterQuote_escaped]
    rfl
  | @array items each ih =>
    cases items with
    | nil => exact readsBack_of_succ nofun fun _ _ _ _ => rfl
    | cons first others =>
      obtain ⟨c, cs, whole, begins⟩ := (List.forall_mem_cons.mp each).1.print_begins
      obtain ⟨here, each⟩ := List.forall_mem_cons.mp ih
      refine readsBack_of_succ (by rw [print]; nofun) fun steps behind enough _ => ?_
      have inside := valueList_print here each behind steps (by
        simp only [print, List.length_append, List.length_cons] at enough
        omega)
      rw [print, List.cons_append, List.cons_append, List.append_assoc,
        value_of_list whole begins, inside]
      rfl
  | @object members each ih =>
    cases members with
    | nil => exact readsBack_of_succ nofun fun _ _ _ _ => rfl
    | cons first others =>
      obtain ⟨name, tree⟩ := first
      obtain ⟨here, each⟩ := List.forall_mem_cons.mp ih
      refine readsBack_of_succ (by rw [print]; nofun) fun steps behind enough _ => ?_
      have inside := memberList_print name tree here each behind steps (by
        simp only [print, List.length_append, List.length_cons] at enough
        omega)
      have printed : print (.object ((name, tree) :: others)) ++ behind = '\x7b' ::
          (quotedText name ++ ':' :: ' ' :: (tree.print ++ (printMembers others ++ behind))) := by
        simp [print]
      rw [printed, value_of_object, inside]
      rfl

/-- **A line is read back as the tree it was printed from.** -/
theorem parse_line {tree : Json} (exact : tree.Exact) : parse tree.line = some tree := by
  have read := exact.readsBack (tree.print.length + 1) [] (Nat.le_succ _) nofun
  rw [List.append_nil] at read
  rw [parse, line, String.toList_ofList, parseChars, read]
  rfl

/-! ## Visible characters -/

theorem visible_of_all {cs : List Char} (each : cs.all (Visible ·) = true) :
    ∀ c ∈ cs, Visible c := by
  simpa using each

theorem visible_of_isDigit {c : Char} (digit : isDigit c = true) : Visible c := by
  unfold Visible
  simp only [isDigit, Bool.and_eq_true, decide_eq_true_eq] at digit
  omega

theorem visible_of_mem_intDigits {n : Int} {c : Char} (member : c ∈ intDigits n) : Visible c := by
  cases n with
  | ofNat m => exact visible_of_isDigit (isDigit_of_mem_natDigits member)
  | negSucc m =>
    rcases List.mem_cons.mp member with rfl | digit
    · decide
    · exact visible_of_isDigit (isDigit_of_mem_natDigits digit)

theorem visible_of_mem_padHex {places n : Nat} {c : Char} (member : c ∈ padHex places n) :
    Visible c := by
  have shown : ∀ digit, digit < 16 → Visible (baseChar digit) := by decide
  induction places generalizing n with
  | zero => cases member
  | succ places ih =>
    rcases List.mem_append.mp member with front | last
    · exact ih front
    · obtain rfl := List.mem_singleton.mp last
      exact shown _ (Nat.mod_lt n (by decide))

/-- **An escape shows**, also of a character that does not. -/
theorem visible_of_mem_escapedChar {shown c : Char} (member : shown ∈ escapedChar c) :
    Visible shown := by
  have escaped := escaped_escapedChar c
  generalize escapedChar c = escape at escaped member
  cases escaped with
  | @short mark plain stands shows =>
    rcases List.mem_cons.mp member with rfl | member
    · decide
    · obtain rfl := List.mem_singleton.mp member
      exact shows
  | number control =>
    rcases List.mem_cons.mp member with rfl | member
    · decide
    · rcases List.mem_cons.mp member with rfl | digit
      · decide
      · exact visible_of_mem_padHex digit
  | itself quote slash shows =>
    obtain rfl := List.mem_singleton.mp member
    exact shows

theorem visible_of_mem_quotedText {s : String} {c : Char} (member : c ∈ quotedText s) :
    Visible c := by
  rcases List.mem_cons.mp member with rfl | member
  · decide
  · rcases List.mem_append.mp member with inside | last
    · obtain ⟨source, -, escape⟩ := List.mem_flatMap.mp inside
      exact visible_of_mem_escapedChar escape
    · obtain rfl := List.mem_singleton.mp last
      decide

theorem visible_printItems {items : List Json}
    (each : ∀ item ∈ items, ∀ c ∈ item.print, Visible c) : ∀ c ∈ printItems items, Visible c := by
  induction items with
  | nil => exact visible_of_all rfl
  | cons item rest ih =>
    obtain ⟨here, each⟩ := List.forall_mem_cons.mp each
    simp only [printItems, List.cons_append, List.forall_mem_cons, List.forall_mem_append]
    exact ⟨by decide, by decide, here, ih each⟩

theorem visible_printMembers {members : List (String × Json)}
    (each : ∀ member ∈ members, ∀ c ∈ member.2.print, Visible c) :
    ∀ c ∈ printMembers members, Visible c := by
  induction members with
  | nil => exact visible_of_all rfl
  | cons member rest ih =>
    obtain ⟨name, tree⟩ := member
    obtain ⟨here, each⟩ := List.forall_mem_cons.mp each
    simp only [printMembers, List.cons_append, List.forall_mem_cons, List.forall_mem_append]
    exact ⟨by decide, by decide, ⟨fun c => visible_of_mem_quotedText, by decide, by decide, here⟩,
      ih each⟩

/-- **A line shows as a whole**: the print of an exact tree has no control character. -/
theorem Exact.visible {tree : Json} (exact : tree.Exact) : ∀ c ∈ tree.print, Visible c := by
  induction exact with
  | null => exact visible_of_all rfl
  | bool b => cases b <;> exact visible_of_all rfl
  | int n => exact fun c => visible_of_mem_intDigits
  | text s => exact fun c => visible_of_mem_quotedText
  | @array items each ih =>
    cases items with
    | nil => exact visible_of_all rfl
    | cons first others =>
      obtain ⟨here, ih⟩ := List.forall_mem_cons.mp ih
      simp only [print, List.cons_append, List.forall_mem_cons, List.forall_mem_append]
      exact ⟨by decide, here, visible_printItems ih⟩
  | @object members each ih =>
    cases members with
    | nil => exact visible_of_all rfl
    | cons first others =>
      obtain ⟨name, tree⟩ := first
      obtain ⟨here, ih⟩ := List.forall_mem_cons.mp ih
      simp only [print, List.cons_append, List.forall_mem_cons, List.forall_mem_append]
      exact ⟨by decide, ⟨fun c => visible_of_mem_quotedText, by decide, by decide, here⟩,
        visible_printMembers ih⟩

end Json

end EarningsLedger
