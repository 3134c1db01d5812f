import EarningsLedger.Log.Desk
import EarningsLedger.Proofs.ComposedFilters
import EarningsLedger.Proofs.FaithfulLines

/-!
# Records of journals

An outlet that cannot put a record on a line writes nothing, so whoever wants to know what an
outlet was given has to know first that there is a line.  This module shows that there always
is one for what a journal lets through, in either layout, when its named values can be shown
where the outlet stands (`JournalCall.exists_line_of_passed`), and that the lines of one record
in two files differ in their stamps alone (`Record.Journaled.exists_members`).

A record may come to a line from elsewhere, with arguments that do not fit its message, without
a level or at no time.  What a record needs is collected in `Record.Journaled`, and a journal's
records have it: they carry no arguments, their level has a name, and their extra fields are the
named values of the call.  `JournalCall.Fits` says what is asked of these, for one outlet.
-/

namespace EarningsLedger

/-! ## Values that have a tree -/

/-- A value that a line can show: its integers have texts and the keys of its dictionaries have
names, at any depth. -/
inductive Value.Writable : Value → Prop
  | null : Writable .null
  | bool (b : Bool) : Writable (.bool b)
  | int {n : Int} (short : Text.isShort n = true) : Writable (.int n)
  | float (x : Number.Binary64) : Writable (.float x)
  | decimal (d : Number.Decimal) : Writable (.decimal d)
  | text (s : String) : Writable (.text s)
  | bytes (data : List UInt8) : Writable (.bytes data)
  | moment (m : Calendar.Moment) : Writable (.moment m)
  | draft (d : Draft) : Writable (.draft d)
  | list {items : List Value} (each : ∀ item ∈ items, Writable item) : Writable (.list items)
  | dict {entries : List (Value × Value)}
      (names : ∀ entry ∈ entries, ∃ name, Log.keyText entry.1 = .ok name)
      (each : ∀ entry ∈ entries, Writable entry.2) : Writable (.dict entries)

theorem Value.isShort_of_keyText {key : Value} {name : String} (named : Log.keyText key = .ok name) :
    key.isShort = true := by
  cases key with
  | int n =>
    rw [Log.keyText] at named
    split at named
    · next short => exact short
    · cases named
  | list items => cases named
  | dict entries => cases named
  | _ => rfl

theorem Value.itemsShort_of_each {items : List Value} (each : ∀ item ∈ items, item.isShort = true) :
    itemsShort items = true := by
  induction items with
  | nil => rfl
  | cons item rest ih =>
    obtain ⟨here, each⟩ := List.forall_mem_cons.mp each
    rw [itemsShort, here, ih each]
    rfl

theorem Value.entriesShort_of_each {entries : List (Value × Value)}
    (each : ∀ entry ∈ entries, entry.1.isShort = true ∧ entry.2.isShort = true) :
    entriesShort entries = true := by
  induction entries with
  | nil => rfl
  | cons entry rest ih =>
    obtain ⟨here, each⟩ := List.forall_mem_cons.mp each
    rw [entriesShort, here.1, here.2, ih each]
    rfl

/-- What a line can show, a message can show. -/
theorem Value.Writable.isShort {v : Value} (writable : v.Writable) : v.isShort = true := by
  induction writable with
  | int short => exact short
  | list each ih => exact itemsShort_of_each ih
  | dict names each ih =>
    refine entriesShort_of_each fun entry member => ⟨?_, ih entry member⟩
    obtain ⟨name, named⟩ := names entry member
    exact isShort_of_keyText named
  | _ => rfl

namespace Fields

theorem forall_put {P : String × Value → Prop} {fields : Fields} (each : ∀ field ∈ fields, P field)
    {name : String} {value : Value} (new : P (name, value)) :
    ∀ field ∈ fields.put name value, P field := by
  intro field member
  unfold put at member
  split at member
  · obtain ⟨old, there, rfl⟩ := List.mem_map.mp member
    split
    · exact new
    · exact each old there
  · rcases List.mem_append.mp member with there | here
    · exact each field there
    · rw [List.mem_singleton.mp here]
      exact new

/-- What holds of fields and of more fields holds when these are put over those. -/
theorem forall_putAll {P : String × Value → Prop} {fields more : Fields}
    (each : ∀ field ∈ fields, P field) (others : ∀ field ∈ more, P field) :
    ∀ field ∈ fields.putAll more, P field := by
  induction more generalizing fields with
  | nil => exact each
  | cons first rest ih =>
    obtain ⟨here, others⟩ := List.forall_mem_cons.mp others
    exact ih (forall_put each here) others

end Fields

namespace Log

open Calendar

/-- A value has a tree when its integers have texts and the keys of its dictionaries names. -/
theorem exists_writtenAs_of_writable {v : Value} (writable : v.Writable) :
    ∃ tree, WrittenAs v tree := by
  induction writable with
  | @int n short =>
    refine ⟨.int n, fun levels _ => ?_⟩
    rw [treeOf, if_pos short]
  | list each ih =>
    obtain ⟨trees, written, -⟩ := exists_treesOf (P := fun _ _ => True) fun item member =>
      (ih item member).imp fun tree here => ⟨here, trivial⟩
    exact ⟨.array trees, fun levels room => treeOf_list room written⟩
  | @dict entries names each ih =>
    have each : ∀ entry ∈ entries, ∃ tree, WrittenAs entry.2 tree ∧ True := fun entry member =>
      (ih entry member).imp fun tree here => ⟨here, trivial⟩
    obtain ⟨members, written, -⟩ := exists_memberTrees (P := fun _ _ => True) names each
    exact ⟨.object members, fun levels room => treeOf_dict room written⟩
  | _ => exact ⟨_, fun _ _ => rfl⟩

theorem exists_fieldTrees_of_writable {fields : Fields}
    (each : ∀ field ∈ fields, field.2.Writable) :
    ∃ members, ∀ levels, (∀ field ∈ fields, field.2.depth ≤ levels) →
      fieldTrees levels fields = .ok members := by
  have each : ∀ field ∈ fields, ∃ tree, WrittenAs field.2 tree ∧ True := fun field member =>
    (exists_writtenAs_of_writable (each field member)).imp fun tree here => ⟨here, trivial⟩
  obtain ⟨members, written, -⟩ := exists_fieldTrees (P := fun _ _ => True) each
  exact ⟨members, written⟩

/-! ## Records that have a line -/

/-- What a journal's record is like when it reaches the outlets: it is simple, its level is
named, and a line can show all of it. -/
structure Record.Journaled (record : Record) : Prop extends record.Simple where
  level : ∃ name, record.get "levelname" = .text name
  own : ∀ name ∈ ["levelname", "name", "module", "funcName", "lineno"],
    (record.get name).Writable
  extras : ∀ field ∈ record.extras, field.2.Writable

namespace Record.Journaled

variable {record : Record}

/-- **The lines of a journal's record differ in their stamps alone**, wherever there is room for
its values. -/
theorem exists_members (journaled : record.Journaled) :
    ∃ members, ∀ occasion : Occasion, record.Shallow occasion.levels →
      jsonLine occasion record =
        .ok (Json.line (.object (("timestamp", .text (lineStamp occasion.now)) :: members))) := by
  -- what stands behind the stamp
  let others := (record.own "").tail ++ record.shown
  have whole (stamp : String) :
      record.own stamp ++ record.shown = ("timestamp", .text stamp) :: others := rfl
  have writable : ∀ field ∈ others, field.2.Writable := by
    have own := journaled.own
    simp only [List.forall_mem_cons] at own
    obtain ⟨level, logger, place, function, line, -⟩ := own
    refine List.forall_mem_append.mpr ⟨?_, fun field member =>
      journaled.extras field (mem_shown_iff.mp member).1⟩
    simp only [Record.own, List.tail_cons, List.forall_mem_cons]
    exact ⟨level, logger, .text _, place, function, line, List.forall_mem_nil _⟩
  obtain ⟨members, written⟩ := exists_fieldTrees_of_writable writable
  refine ⟨members, fun occasion shallow => ?_⟩
  have room := shallow.of_mem (lineStamp occasion.now)
  rw [whole] at room
  have trees := written occasion.levels (List.forall_mem_cons.mp room).2
  have said := journaled.sentence_eq (shallow.own "msg" List.mem_cons_self)
  unfold jsonLine jsonTree
  rw [said]
  show Except.map _ (fieldTrees _ (lineFields _ record _ _) >>= _) = _
  rw [journaled.lineFields_eq, whole, fieldTrees, trees]
  rfl

end Record.Journaled

/-! ## The sentence in a template -/

theorem plainFormat_pieces :
    Message.Piece.ofChars plainFormat.toList =
      [.directive ⟨some "message", ⟨false, false, false, false, false⟩, .none, .none, some 's',
        10⟩] := by
  decide

/-- A text without a width is shown as it is. -/
theorem pad_ofText (cs : List Char) (flags : Message.Flags) :
    (Message.Shown.ofText cs).pad flags 0 = cs := by
  simp only [Message.Shown.pad, Message.Shown.ofText, List.nil_append, Nat.zero_sub,
    List.replicate_zero, List.append_nil, Bool.false_and, Bool.false_eq_true, ite_self]

/-- A name of a dictionary is looked up like a named field. -/
theorem find?_same_text (fields : Fields) (name : String) :
    ((fields.map fun field => (Value.text field.1, field.2)).find? fun entry =>
        entry.1.same (.text name)) =
      (fields.get? name).map fun value => (.text name, value) := by
  have names : ((fun entry : Value × Value => entry.1.same (.text name)) ∘
      fun field : String × Value => (Value.text field.1, field.2)) =
      fun field => field.1 == name := by
    funext field
    rw [Function.comp_apply, Value.same]
  rw [List.find?_map, names, Fields.get?]
  cases found : fields.find? fun field => field.1 == name with
  | none => rfl
  | some field =>
    have here := List.find?_some found
    rw [Option.map_some, Option.map_some, Option.map_some, beq_iff_eq.mp here]

/-- A directive with a key looks its value up among the named fields. -/
theorem supply_at_ofFields {fields : Fields} {name : String} {value : Value}
    (there : fields.get? name = some value) :
    (Message.Supply.of (.single (Value.ofFields fields))).at (some name) =
      .ok ⟨[value], some (fields.map fun field => (.text field.1, field.2))⟩ := by
  have held := find?_same_text fields name
  rw [there, Option.map_some] at held
  simp only [Message.Supply.of, Value.ofFields, Message.Supply.at, held]

/-- The template of the sentence alone shows what stands under its name. -/
theorem fill_plainFormat {fields : Fields} {sentence : String}
    (there : fields.get? "message" = some (.text sentence)) :
    Message.fill plainFormat.toList (.single (Value.ofFields fields)) = .ok sentence.toList := by
  rw [Message.fill, plainFormat_pieces, Message.fillPieces, Message.fillDirective]
  dsimp only
  rw [supply_at_ofFields there]
  show Except.map ((Message.Shown.ofText sentence.toList).pad
    ⟨false, false, false, false, false⟩ 0 ++ ·) (Except.ok []) = _
  rw [pad_ofText]
  exact congrArg Except.ok (List.append_nil _)

namespace Record.Journaled

variable {record : Record}

theorem setInto_eq (journaled : record.Journaled) {levels : Nat} (shallow : record.Shallow levels)
    (stamp : String) :
    setInto levels plainFormat record stamp = .ok (record.get "msg").display := by
  have said := journaled.sentence_eq (shallow.own "msg" List.mem_cons_self)
  have there : (attributeFields record (record.get "msg").display stamp).get? "message" =
      some (.text (record.get "msg").display) := by
    rw [attributeFields, Fields.get?_put, if_neg (by decide), Fields.get?_put, if_pos rfl]
  have filled := fill_plainFormat there
  have asked : looksUp plainFormat.toList = true := by decide
  simp only [setInto, asked, said, bind, Except.bind, filled]
  exact congrArg Except.ok (String.ofList_toList ..)

theorem exists_withEvent (journaled : record.Journaled) {levels : Nat}
    (shallow : record.Shallow levels) (sentence : String) :
    ∃ text, withEvent levels record sentence = .ok text := by
  unfold withEvent
  split
  · next event found =>
    obtain ⟨field, member, rfl⟩ := Option.map_eq_some_iff.mp found
    have member := List.mem_of_find?_eq_some member
    have shown := told_eq_ok (journaled.extras field member).isShort (shallow.extras field member)
    rw [shown]
    split
    · exact ⟨_, rfl⟩
    · exact ⟨_, rfl⟩
  · exact ⟨_, rfl⟩

theorem exists_colorLine (journaled : record.Journaled) {occasion : Occasion}
    (shallow : record.Shallow occasion.levels)
    (made : ∃ t, createdInstant occasion.ahead (record.get "created") = .ok t) :
    ∃ line, colorLine plainFormat occasion record = .ok line := by
  obtain ⟨name, level⟩ := journaled.level
  obtain ⟨t, made⟩ := made
  obtain ⟨message, told⟩ := journaled.exists_withEvent shallow
    (withTail occasion.levels record (record.get "msg").display)
  have logger := told_eq_ok (journaled.own "name" (by decide)).isShort
    (shallow.own "name" (by decide))
  unfold colorLine
  rw [if_neg (by decide), made]
  show ∃ line, (setInto _ plainFormat record (stampText t) >>= _) = Except.ok line
  rw [journaled.setInto_eq shallow]
  show ∃ line, (withEvent _ record _ >>= _) = Except.ok line
  rw [told, level]
  show ∃ line, (Log.told _ _ >>= _) = Except.ok line
  rw [logger]
  exact ⟨_, rfl⟩

end Record.Journaled

/-! ## Records of journals -/

/-- The seconds up to an instant, counted from 1970, make an instant of universal time again. -/
theorem exists_createdInstant (made : Instant) :
    ∃ t, createdInstant (fun _ => 0) (.int (Desk.secondsOf made)) = .ok t := by
  have inside := made.inCalendar
  have seconds : Desk.secondsOf made = ((made.micros : Int) - epochMicros) / 1000000 :=
    Int.fdiv_eq_ediv_of_nonneg _ (by decide)
  have micros : createdMicros (.int (Desk.secondsOf made)) + 0 * 1000000 =
      (made.micros : Int) / 1000000 * 1000000 := by
    simp only [createdMicros, seconds, epochMicros]
    omega
  have early : (made.micros / 1000000 * 1000000) < calendarMicros := by omega
  refine ⟨⟨made.micros / 1000000 * 1000000, early⟩, ?_⟩
  have found : Instant.ofMicros? (createdMicros (.int (Desk.secondsOf made)) + 0 * 1000000) =
      some ⟨made.micros / 1000000 * 1000000, early⟩ := by
    rw [micros, Instant.ofMicros?_eq_some_iff]
    push_cast
    rfl
  simp only [createdInstant, found]

namespace Written

variable {written : Written} {logger : String} {record : Record}

/-- What can be said at all: texts can be made of a sentence and its named values, and no named
value is called like what a record is asked for its sentence by. -/
structure Sayable (written : Written) : Prop where
  message : written.message.isShort = true
  callable : ∀ field ∈ written.extras, field.1 ≠ Record.sentenceName
  values : ∀ field ∈ written.extras, field.2.Writable

/-- What is nested no deeper than the stack has room for. -/
structure Shallow (written : Written) (levels : Nat) : Prop where
  message : written.message.depth ≤ levels
  values : ∀ field ∈ written.extras, field.2.depth ≤ levels

/-- The record of what a journal wrote holds its named values as extra fields; none is called
like an attribute. -/
theorem record_eq_ok (found : written.record logger = .ok record) :
    record = { Record.make (.text logger) written.level.number (.text "") (.int 0)
      written.message [] .null none (.int 0) with extras := Fields.putAll [] written.extras } ∧
    ∀ field ∈ written.extras, field.1 ∉ Record.reservedNames := by
  unfold Written.record at found
  split at found
  · cases found
  · next none =>
    have free : ∀ field ∈ written.extras, field.1 ∉ Record.reservedNames := by
      intro field member reserved
      exact List.find?_eq_none.mp none field member (by simpa using reserved)
    rw [Record.setAll_of_free _ free] at found
    exact ⟨(Except.ok.inj found).symm, free⟩

/-- A record of a journal is fit for every outlet once it is stamped, when it can be said. -/
theorem journaled (found : written.record logger = .ok record) (sayable : written.Sayable)
    (created : Int) : (record.set "created" (.int created)).Journaled := by
  obtain ⟨rfl, free⟩ := record_eq_ok found
  rw [Record.set, if_neg (by decide), if_pos (by decide)]
  refine ⟨⟨rfl, rfl, sayable.message, ?_⟩, ⟨_, rfl⟩, ?_, ?_⟩
  · exact Fields.forall_putAll (List.forall_mem_nil _) fun field member =>
      ⟨free field member, sayable.callable field member⟩
  · simp only [List.forall_mem_cons]
    exact ⟨.text _, .text _, .text _, .null, .int (by decide), List.forall_mem_nil _⟩
  · exact Fields.forall_putAll (List.forall_mem_nil _) sayable.values

theorem shallow {levels : Nat} (found : written.record logger = .ok record)
    (shallow : written.Shallow levels) (created : Int) :
    (record.set "created" (.int created)).Shallow levels := by
  obtain ⟨rfl, -⟩ := record_eq_ok found
  rw [Record.set, if_neg (by decide), if_pos (by decide)]
  refine ⟨?_, Fields.forall_putAll (List.forall_mem_nil _) shallow.values⟩
  simp only [List.forall_mem_cons]
  exact ⟨shallow.message, Nat.zero_le _, Nat.zero_le _, Nat.zero_le _, Nat.zero_le _, Nat.zero_le _,
    List.forall_mem_nil _⟩

end Written

/-! ## Calls of journals -/

/-- The level that a method writes at. -/
def Method.level : Method → Level
  | «at» level => level
  | created | updated | batchCreated => .info

theorem writtenAt_eq_ok {level : Level} {message : Value} {extras : Fields} {written : Written}
    (found : writtenAt level message extras = .ok written) : written = ⟨level, message, extras⟩ := by
  unfold writtenAt at found
  split at found
  · cases found
  · exact (Except.ok.inj found).symm

theorem level_of_readyMade {before after event subject : String}
    {given extras : Fields} {written : Written}
    (found : readyMade before after event subject given extras = .ok written) :
    written.level = .info := by
  unfold readyMade at found
  split at found
  · cases found
  · split at found
    · cases found
    · rw [writtenAt_eq_ok found]

/-- What a method writes is at its level. -/
theorem Method.level_of_written {levels : Nat} {method : Method} {positional : List Value}
    {named : Fields} {written : Written}
    (found : method.written levels positional named = .ok written) :
    written.level = method.level := by
  obtain ⟨bound, -, found⟩ := bind_eq_ok_iff.mp found
  cases method with
  | «at» level => rw [writtenAt_eq_ok found]; rfl
  | created | updated | batchCreated =>
    obtain ⟨subject, -, found⟩ := bind_eq_ok_iff.mp found
    exact level_of_readyMade found

/-- A call of a journal's method, and what it meets on its way. -/
structure JournalCall where
  situation : Situation
  journal : String
  method : Method
  positional : List Value
  named : Fields

/-- A record that was let through: on what way, at which level, and as it reaches the outlets. -/
structure Passed where
  situation : Situation
  level : Level
  record : Record

/-- The line of what was let through, in an outlet. -/
def Passed.lineIn (outlet : Outlet) (passed : Passed) : Except LineTrouble String :=
  outlet.line (passed.situation.found outlet.place) passed.record

/-- The level from which a journal is heard under a setup: a library's journal, and whatever
belongs to it, from warnings on, any other one from the least level of the setup on. -/
def Setup.leastFor (setup : Setup) (name : String) : Level :=
  if Desk.libraries.any fun family => Desk.belongsTo family name then .warning else setup.least

/-- The clock of an outlet shows the time: a colored line needs a date of the calendar, where
the outlet stands. -/
def Outlet.TellsTime (outlet : Outlet) (situation : Situation) : Prop :=
  outlet.layout = .colored →
    ∃ t, createdInstant (situation.found outlet.place).ahead
      (.int (Desk.secondsOf situation.made)) = .ok t

namespace JournalCall

/-- What a call writes, or why it does not. -/
def written (call : JournalCall) : Except JournalTrouble Written :=
  call.method.written call.situation.levels call.positional call.named

/-- How a call ends under a setup: in a complaint, or with its record if that is let through. -/
def outcome (setup : Setup) (call : JournalCall) : Except JournalTrouble (Option Record) :=
  Log.journal call.situation.levels call.journal
    (setup.leastFor (journalName call.journal)).number call.method call.positional call.named

/-- What a call lets through under a setup. -/
def passed? (setup : Setup) (call : JournalCall) : Option Passed :=
  match call.outcome setup with
  | .ok (some record) =>
    some ⟨call.situation, call.method.level,
      record.set "created" (.int (Desk.secondsOf call.situation.made))⟩
  | _ => none

/-- What an outlet asks of a call: that the time can be told, and that what is written can be
said and is not nested too deep, where the outlet stands. -/
structure Fits (call : JournalCall) (outlet : Outlet) : Prop where
  time : outlet.TellsTime call.situation
  sayable : ∀ written, call.written = .ok written → written.Sayable
  shallow : ∀ written, call.written = .ok written →
    written.Shallow (call.situation.found outlet.place).levels

variable {setup : Setup} {call : JournalCall}

theorem passed?_of_error {trouble : JournalTrouble} (fails : call.outcome setup = .error trouble) :
    call.passed? setup = none := by
  unfold passed?
  rw [fails]

/-- What is let through is the stamped record of what was written. -/
theorem written_of_passed {passed : Passed} (found : call.passed? setup = some passed) :
    ∃ written record, call.written = .ok written ∧
      written.record (journalName call.journal) = .ok record ∧
      passed = ⟨call.situation, call.method.level,
        record.set "created" (.int (Desk.secondsOf call.situation.made))⟩ := by
  unfold passed? at found
  split at found
  · next record ended =>
    obtain ⟨written, asked, ended⟩ := bind_eq_ok_iff.mp ended
    split at ended
    · obtain ⟨held, made, same⟩ := map_eq_ok_iff.mp ended
      obtain rfl := Option.some.inj same
      exact ⟨written, held, asked, made, (Option.some.inj found).symm⟩
    · cases ended
  · cases found

/-- What a call lets through has lines that differ in their stamps alone, where it fits. -/
theorem exists_members_of_passed {passed : Passed} (found : call.passed? setup = some passed)
    (sayable : ∀ written, call.written = .ok written → written.Sayable) :
    ∃ members, ∀ outlet, call.Fits outlet →
      jsonLine (passed.situation.found outlet.place) passed.record =
        .ok (Json.line (.object (("timestamp",
          .text (lineStamp (passed.situation.found outlet.place).now)) :: members))) := by
  obtain ⟨written, record, asked, made, rfl⟩ := written_of_passed found
  obtain ⟨members, lines⟩ := (Written.journaled made (sayable written asked)
    (Desk.secondsOf call.situation.made)).exists_members
  exact ⟨members, fun outlet fits => lines _ (Written.shallow made (fits.shallow written asked) _)⟩

/-- **What a call lets through has a line in every outlet that the call fits.** -/
theorem exists_line_of_passed {passed : Passed} (found : call.passed? setup = some passed)
    {outlet : Outlet} (fits : call.Fits outlet) : ∃ line, passed.lineIn outlet = .ok line := by
  unfold Passed.lineIn Outlet.line
  cases layout : outlet.layout with
  | colored =>
    obtain ⟨written, record, asked, made, rfl⟩ := written_of_passed found
    have journaled := Written.journaled made (fits.sayable written asked)
      (Desk.secondsOf call.situation.made)
    refine journaled.exists_colorLine (Written.shallow made (fits.shallow written asked) _) ?_
    obtain ⟨rfl, -⟩ := Written.record_eq_ok made
    exact fits.time layout
  | json =>
    obtain ⟨members, lines⟩ := exists_members_of_passed found fits.sayable
    exact ⟨_, lines outlet fits⟩

end JournalCall

end Log

end EarningsLedger
