import EarningsLedger.Log.JsonLine
import EarningsLedger.Proofs.JsonRoundTrip
import EarningsLedger.Proofs.AdmittedFilters
import EarningsLedger.Proofs.StoredStamps

/-!
# Lines that tell what was logged

Whoever reads a log reads lines.  `Log.line_tells_record` says that the line of a record is
one line indeed, and that reading it gives the record back: its own seven members as they are,
whatever the extra fields are called, and every extra field that is neither called like one of
them nor hidden, with exactly its value.  Nothing else stands on the line, and no name twice,
so no message, name or value can pass for another member or another line.

The values are those that JSON has a form for: numbers without fractions that a text can show,
texts, and lists and dictionaries of such values, as deep as the stack has room for.  A record
with others may have no line at all (`Log.not_every_record_has_a_line`).
-/

namespace EarningsLedger

open Log

/-! ## Plain values -/

/-- A value that JSON has an exact form for. -/
inductive Value.Plain : Value → Prop
  | null : Plain .null
  | bool (b : Bool) : Plain (.bool b)
  | int {n : Int} (short : Text.isShort n = true) : Plain (.int n)
  | text (s : String) : Plain (.text s)
  | list {items : List Value} (each : ∀ item ∈ items, Plain item) : Plain (.list items)
  | dict {entries : Fields} (each : ∀ entry ∈ entries, Plain entry.2) : Plain (.ofFields entries)

theorem Value.plain_ofText? (s : Option String) : (Value.ofText? s).Plain := by
  cases s with
  | none => exact .null
  | some s => exact .text s

namespace Value

/-- What is in a collection is nested less deep than the collection. -/
theorem depth_le_itemsDepth {items : List Value} {item : Value} (member : item ∈ items) :
    item.depth ≤ itemsDepth items := by
  induction items with
  | nil => cases member
  | cons first rest ih =>
    rw [itemsDepth]
    rcases List.mem_cons.mp member with rfl | later
    · exact Nat.le_max_left _ _
    · exact (ih later).trans (Nat.le_max_right _ _)

theorem depth_le_entriesDepth {entries : List (Value × Value)} {entry : Value × Value}
    (member : entry ∈ entries) : entry.2.depth ≤ entriesDepth entries := by
  induction entries with
  | nil => cases member
  | cons first rest ih =>
    rw [entriesDepth]
    rcases List.mem_cons.mp member with rfl | later
    · exact (Nat.le_max_right _ _).trans (Nat.le_max_left _ _)
    · exact (ih later).trans (Nat.le_max_right _ _)

end Value

/-! ## Named fields -/

namespace Fields

/-- A name that stands once has the value that it stands with. -/
theorem get?_of_mem {fields : Fields} (once : (fields.map Prod.fst).Nodup)
    {field : String × Value} (member : field ∈ fields) : fields.get? field.1 = some field.2 := by
  induction fields with
  | nil => cases member
  | cons first rest ih =>
    obtain ⟨alone, once⟩ := List.nodup_cons.mp once
    rcases List.mem_cons.mp member with rfl | member
    · simp [get?]
    · have other : (first.1 == field.1) = false :=
        beq_false_of_ne fun same => alone (same ▸ List.mem_map_of_mem member)
      have behind : get? (first :: rest) field.1 = get? rest field.1 := by
        simp [get?, other]
      rw [behind, ih once member]

/-- Names that are not there are put at the end. -/
theorem putAll_of_fresh {fields more : Fields} (once : (more.map Prod.fst).Nodup)
    (fresh : ∀ field ∈ more, fields.has field.1 = false) : fields.putAll more = fields ++ more := by
  induction more generalizing fields with
  | nil => exact (List.append_nil fields).symm
  | cons first rest ih =>
    obtain ⟨alone, once⟩ := List.nodup_cons.mp once
    obtain ⟨new, fresh⟩ := List.forall_mem_cons.mp fresh
    have placed : fields.put first.1 first.2 = fields ++ [first] := by
      rw [put, new]
      rfl
    have apart : ∀ field ∈ rest, (fields ++ [first]).has field.1 = false := by
      intro field member
      have other : first.1 ≠ field.1 := fun same => alone (same ▸ List.mem_map_of_mem member)
      rw [has_append, fresh field member]
      simpa [has] using other
    have step : fields.putAll (first :: rest) = (fields.put first.1 first.2).putAll rest := rfl
    rw [step, placed, ih once apart, List.append_assoc, List.singleton_append]

end Fields

/-! ## Trees of values -/

namespace Json

mutual

/-- What a tree tells, as a value. -/
def told : Json → Value
  | null => .null
  | bool b => .bool b
  | int n => .int n
  | real x => .float x
  | text s => .text s
  | array items => .list (toldItems items)
  | object members => .ofFields (toldMembers members)

def toldItems : List Json → List Value
  | [] => []
  | item :: rest => item.told :: toldItems rest

/-- What the members of an object tell, under their names. -/
def toldMembers : List (String × Json) → Fields
  | [] => []
  | (name, tree) :: rest => (name, tree.told) :: toldMembers rest

end

theorem names_toldMembers (members : List (String × Json)) :
    (toldMembers members).map Prod.fst = members.map Prod.fst := by
  induction members with
  | nil => rfl
  | cons member rest ih => rw [toldMembers, List.map_cons, List.map_cons, ih]

end Json

namespace Json

/-- A tree that is printed exactly and tells a value. -/
def Tells (v : Value) (tree : Json) : Prop := tree.Exact ∧ tree.told = v

theorem toldItems_of_tells {items : List Value} {trees : List Json}
    (each : List.Forall₂ Tells items trees) :
    (∀ tree ∈ trees, tree.Exact) ∧ toldItems trees = items := by
  induction each with
  | nil => exact ⟨List.forall_mem_nil _, rfl⟩
  | cons here _ ih =>
    exact ⟨List.forall_mem_cons.mpr ⟨here.1, ih.1⟩, by rw [toldItems, here.2, ih.2]⟩

theorem toldMembers_of_tells {fields : Fields} {members : List (String × Json)}
    (each : List.Forall₂ (fun field member => member.1 = field.1 ∧ Tells field.2 member.2) fields
      members) :
    (∀ member ∈ members, member.2.Exact) ∧ toldMembers members = fields := by
  induction each with
  | nil => exact ⟨List.forall_mem_nil _, rfl⟩
  | @cons field member _ _ here _ ih =>
    obtain ⟨name, exact, told⟩ := here
    exact ⟨List.forall_mem_cons.mpr ⟨exact, ih.1⟩, by rw [toldMembers, name, told, ih.2]⟩

end Json

namespace Log

/-- A value is written as a tree wherever there is room for it. -/
def WrittenAs (v : Value) (tree : Json) : Prop :=
  ∀ levels, v.depth ≤ levels → treeOf levels v = .ok tree

section Trees

variable {P : Value → Json → Prop}

/-- The trees of items, and what is known of each. -/
theorem exists_treesOf {items : List Value}
    (each : ∀ item ∈ items, ∃ tree, WrittenAs item tree ∧ P item tree) :
    ∃ trees, (∀ levels, (∀ item ∈ items, item.depth ≤ levels) →
      treesOf levels items = .ok trees) ∧ List.Forall₂ P items trees := by
  induction items with
  | nil => exact ⟨[], fun _ _ => rfl, .nil⟩
  | cons item rest ih =>
    obtain ⟨⟨tree, written, known⟩, each⟩ := List.forall_mem_cons.mp each
    obtain ⟨trees, others, all⟩ := ih each
    refine ⟨tree :: trees, fun levels room => ?_, .cons known all⟩
    obtain ⟨here, room⟩ := List.forall_mem_cons.mp room
    rw [treesOf, written levels here, others levels room]
    rfl

theorem exists_memberTrees {entries : List (Value × Value)}
    (names : ∀ entry ∈ entries, ∃ name, keyText entry.1 = .ok name)
    (each : ∀ entry ∈ entries, ∃ tree, WrittenAs entry.2 tree ∧ P entry.2 tree) :
    ∃ members, (∀ levels, (∀ entry ∈ entries, entry.2.depth ≤ levels) →
      memberTrees levels entries = .ok members) ∧
      List.Forall₂ (fun entry member => keyText entry.1 = .ok member.1 ∧ P entry.2 member.2) entries
        members := by
  induction entries with
  | nil => exact ⟨[], fun _ _ => rfl, .nil⟩
  | cons entry rest ih =>
    obtain ⟨key, value⟩ := entry
    obtain ⟨⟨name, named⟩, names⟩ := List.forall_mem_cons.mp names
    obtain ⟨⟨tree, written, known⟩, each⟩ := List.forall_mem_cons.mp each
    obtain ⟨members, others, all⟩ := ih names each
    refine ⟨(name, tree) :: members, fun levels room => ?_, .cons ⟨named, known⟩ all⟩
    obtain ⟨here, room⟩ := List.forall_mem_cons.mp room
    have named : keyText key = .ok name := named
    have written : treeOf levels value = .ok tree := written levels here
    rw [memberTrees, named, written, others levels room]
    rfl

/-- Entries under texts are written as fields are. -/
theorem memberTrees_texts (levels : Nat) (fields : Fields) :
    memberTrees levels (fields.map fun field => (.text field.1, field.2)) =
      fieldTrees levels fields := by
  induction fields with
  | nil => rfl
  | cons field rest ih => rw [List.map_cons, memberTrees, fieldTrees, ih]; rfl

theorem exists_fieldTrees {fields : Fields}
    (each : ∀ field ∈ fields, ∃ tree, WrittenAs field.2 tree ∧ P field.2 tree) :
    ∃ members, (∀ levels, (∀ field ∈ fields, field.2.depth ≤ levels) →
      fieldTrees levels fields = .ok members) ∧
      List.Forall₂ (fun field member => member.1 = field.1 ∧ P field.2 member.2) fields members := by
  let entries : List (Value × Value) := fields.map fun field => (.text field.1, field.2)
  have names : ∀ entry ∈ entries, ∃ name, keyText entry.1 = .ok name :=
    List.forall_mem_map.mpr fun field _ => ⟨field.1, rfl⟩
  have each : ∀ entry ∈ entries, ∃ tree, WrittenAs entry.2 tree ∧ P entry.2 tree :=
    List.forall_mem_map.mpr each
  obtain ⟨members, written, all⟩ := exists_memberTrees names each
  refine ⟨members, fun levels room => ?_, ?_⟩
  · rw [← memberTrees_texts]
    exact written levels (List.forall_mem_map.mpr room)
  · refine (List.forall₂_map_left_iff.mp all).imp fun field member known => ?_
    exact ⟨(Except.ok.inj known.1).symm, known.2⟩

end Trees

/-- A collection is written where there is room for one level more than its parts take. -/
theorem treeOf_list {items : List Value} {levels : Nat} {trees : List Json}
    (room : (Value.list items).depth ≤ levels)
    (each : ∀ inner, (∀ item ∈ items, item.depth ≤ inner) → treesOf inner items = .ok trees) :
    treeOf levels (.list items) = .ok (.array trees) := by
  rw [Value.depth] at room
  obtain ⟨inner, rfl⟩ := Nat.exists_eq_add_of_le' (Nat.le_trans (Nat.le_add_left 1 _) room)
  have below : ∀ item ∈ items, item.depth ≤ inner := fun item member =>
    (Value.depth_le_itemsDepth member).trans (Nat.le_of_add_le_add_right room)
  show (treesOf inner items).map Json.array = _
  rw [each inner below]
  rfl

theorem treeOf_dict {entries : List (Value × Value)} {levels : Nat}
    {members : List (String × Json)} (room : (Value.dict entries).depth ≤ levels)
    (each : ∀ inner, (∀ entry ∈ entries, entry.2.depth ≤ inner) →
      memberTrees inner entries = .ok members) :
    treeOf levels (.dict entries) = .ok (.object members) := by
  rw [Value.depth] at room
  obtain ⟨inner, rfl⟩ := Nat.exists_eq_add_of_le' (Nat.le_trans (Nat.le_add_left 1 _) room)
  have below : ∀ entry ∈ entries, entry.2.depth ≤ inner := fun entry member =>
    (Value.depth_le_entriesDepth member).trans (Nat.le_of_add_le_add_right room)
  show (memberTrees inner entries).map Json.object = _
  rw [each inner below]
  rfl

/-- **A plain value is written as a tree that tells it**, as deep as it goes. -/
theorem exists_writtenAs {v : Value} (plain : v.Plain) :
    ∃ tree, WrittenAs v tree ∧ Json.Tells v tree := by
  induction plain with
  | null => exact ⟨_, fun _ _ => rfl, .null, rfl⟩
  | bool b => exact ⟨_, fun _ _ => rfl, .bool b, rfl⟩
  | @int n short =>
    refine ⟨.int n, fun levels _ => ?_, .int n, rfl⟩
    rw [treeOf, if_pos short]
  | text s => exact ⟨_, fun _ _ => rfl, .text s, rfl⟩
  | list each ih =>
    obtain ⟨trees, written, tells⟩ := exists_treesOf ih
    obtain ⟨exacts, told⟩ := Json.toldItems_of_tells tells
    exact ⟨.array trees, fun levels room => treeOf_list room written, .array exacts,
      by rw [Json.told, told]⟩
  | @dict entries each ih =>
    obtain ⟨members, written, tells⟩ := exists_fieldTrees ih
    obtain ⟨exacts, told⟩ := Json.toldMembers_of_tells tells
    refine ⟨.object members, fun levels room => treeOf_dict room fun inner below => ?_,
      .object exacts, by rw [Json.told, told]⟩
    rw [memberTrees_texts]
    exact written inner fun field member => below _ (List.mem_map_of_mem member)

/-! ## The sentence of a record -/

theorem told_eq_ok {levels : Nat} {v : Value} (short : v.isShort = true)
    (room : v.depth ≤ levels) : told levels v = .ok v.display := by
  rw [told, if_neg (Nat.not_lt.mpr room), if_pos short]

/-- A record without arguments and exception, whose message can be said.  Its extra fields are
called like no attribute, nor like what a record is asked for its sentence by. -/
structure Record.Simple (record : Record) : Prop where
  bare : record.arguments = .several []
  calm : record.exception = none
  message : (record.get "msg").isShort = true
  free : ∀ field ∈ record.extras, field.1 ∉ Record.reservedNames ∧ field.1 ≠ sentenceName

/-- A simple record says its message. -/
theorem Record.Simple.sentence_eq {record : Record} (simple : record.Simple) {levels : Nat}
    (room : (record.get "msg").depth ≤ levels) :
    record.sentence levels = .ok (record.get "msg").display := by
  have absent : record.extras.get? sentenceName = none := by
    rw [Fields.get?, Option.map_eq_none_iff, List.find?_eq_none]
    exact fun field member same => (simple.free field member).2 (beq_iff_eq.mp same)
  unfold sentence
  rw [absent]
  dsimp only
  rw [told_eq_ok simple.message room, simple.bare]
  rfl

/-! ## Members of a line -/

/-- A simple record of which all that a line shows is plain. -/
structure Record.Plain (record : Record) : Prop extends record.Simple where
  own : ∀ name ∈ ["levelname", "name", "module", "funcName", "lineno"], (record.get name).Plain
  once : (record.extras.map Prod.fst).Nodup
  extras : ∀ field ∈ record.extras, field.2.Plain

/-- A record that is nested no deeper than the stack has room for. -/
structure Record.Shallow (record : Record) (levels : Nat) : Prop where
  own : ∀ name ∈ ["msg", "levelname", "name", "module", "funcName", "lineno"],
    (record.get name).depth ≤ levels
  extras : ∀ field ∈ record.extras, field.2.depth ≤ levels

/-- The members of a record's own, in a line with the given stamp. -/
def Record.own (record : Record) (stamp : String) : Fields :=
  [("timestamp", .text stamp), ("level", record.get "levelname"),
   ("logger", record.get "name"), ("message", .text (record.get "msg").display),
   ("module", record.get "module"), ("function", record.get "funcName"),
   ("line", record.get "lineno")]

/-- The names of the members of a record's own. -/
def ownNames : List String :=
  ["timestamp", "level", "logger", "message", "module", "function", "line"]

/-- Whether a name has a leading underscore. -/
def isHidden (name : String) : Bool := name.toList.head? == some '_'

namespace Record

variable {record : Record}

/-- The extra fields that a line shows. -/
def shown (record : Record) : Fields :=
  record.extras.filter fun field => !ownNames.contains field.1 && !isHidden field.1

theorem mem_shown_iff {field : String × Value} :
    field ∈ record.shown ↔
      field ∈ record.extras ∧ field.1 ∉ ownNames ∧ isHidden field.1 = false := by
  simp [shown]

theorem names_own (record : Record) (stamp : String) :
    (record.own stamp).map Prod.fst = ownNames := rfl

/-- The line of a simple record shows its own members, then the extra fields. -/
theorem Simple.lineFields_eq (simple : record.Simple) (levels : Nat) (stamp : String) :
    lineFields levels record stamp (record.get "msg").display =
      record.own stamp ++ record.shown := by
  have core : coreFields levels record stamp (record.get "msg").display = record.own stamp := by
    unfold coreFields
    rw [simple.calm]
    rfl
  unfold lineFields shown
  rw [core]
  refine congrArg (record.own stamp ++ ·) (List.filter_congr fun field member => ?_)
  have extra : reservedNames.contains field.1 = false := by
    simpa using (simple.free field member).1
  have own : (record.own stamp).has field.1 = ownNames.contains field.1 := by
    rw [← record.names_own stamp, Fields.has, List.contains_eq_any_beq, List.any_map]
    exact congrArg (List.any (record.own stamp)) (funext fun other => Bool.beq_comm)
  rw [isShown, own, extra, isHidden]
  simp [bne]

namespace Plain

/-- No member of a line has the name of another. -/
theorem nodup_members (plain : record.Plain) (stamp : String) :
    ((record.own stamp ++ record.shown).map Prod.fst).Nodup := by
  rw [List.map_append, names_own, List.nodup_append]
  refine ⟨by decide, plain.once.sublist (List.filter_sublist.map Prod.fst), ?_⟩
  rintro name own _ member rfl
  obtain ⟨field, shown, rfl⟩ := List.mem_map.mp member
  exact (mem_shown_iff.mp shown).2.1 own

theorem plain_of_mem (plain : record.Plain) (stamp : String) :
    ∀ field ∈ record.own stamp ++ record.shown, field.2.Plain := by
  refine List.forall_mem_append.mpr ⟨?_, fun field member =>
    plain.extras field (mem_shown_iff.mp member).1⟩
  have own := plain.own
  simp only [List.forall_mem_cons] at own
  obtain ⟨level, logger, place, function, line, -⟩ := own
  simp only [Record.own, List.forall_mem_cons]
  exact ⟨.text _, level, logger, .text _, place, function, line, List.forall_mem_nil _⟩

end Plain

/-- There is room for the members of the line of a shallow record. -/
theorem Shallow.of_mem {levels : Nat} (shallow : record.Shallow levels) (stamp : String) :
    ∀ field ∈ record.own stamp ++ record.shown, field.2.depth ≤ levels := by
  refine List.forall_mem_append.mpr ⟨?_, fun field member =>
    shallow.extras field (mem_shown_iff.mp member).1⟩
  have own := shallow.own
  simp only [List.forall_mem_cons] at own
  obtain ⟨-, level, logger, place, function, line, -⟩ := own
  simp only [Record.own, List.forall_mem_cons]
  exact ⟨Nat.zero_le _, level, logger, Nat.zero_le _, place, function, line,
    List.forall_mem_nil _⟩

/-- A field that is not called like an attribute becomes an extra field. -/
theorem set_of_free (record : Record) {name : String} (free : name ∉ reservedNames)
    (value : Value) :
    record.set name value = { record with extras := record.extras.put name value } := by
  have other : name ≠ "args" := by
    rintro rfl
    exact free (by decide)
  rw [set, if_neg other, if_neg (by simpa using free)]

theorem setAll_of_free (record : Record) {fields : Fields}
    (free : ∀ field ∈ fields, field.1 ∉ reservedNames) :
    record.setAll fields = { record with extras := record.extras.putAll fields } := by
  induction fields generalizing record with
  | nil => rfl
  | cons field rest ih =>
    obtain ⟨here, free⟩ := List.forall_mem_cons.mp free
    have step : record.setAll (field :: rest) = (record.set field.1 field.2).setAll rest := rfl
    rw [step, set_of_free record here, ih _ free]
    rfl

/-- The record of a message without arguments and exception holds its extra fields as they
are, when they are not called like an attribute. -/
theorem setAll_make {name path line message function created : Value} {level : Int}
    {extras : Fields} (once : (extras.map Prod.fst).Nodup)
    (free : ∀ field ∈ extras, field.1 ∉ reservedNames) :
    (make name level path line message [] function none created).setAll extras =
      { make name level path line message [] function none created with extras := extras } := by
  rw [setAll_of_free _ free]
  exact congrArg (fun held => ({ make name level path line message [] function none created with
    extras := held } : Record)) (Fields.putAll_of_fresh once fun _ _ => rfl)

/-- **Records without arguments and exception are plain** when their extra fields are. -/
theorem plain_setAll_make (name path : String) (level : Int) {line : Int} {message : Value}
    (created : Value) (function : Option String) {extras : Fields}
    (short : Text.isShort line = true) (sayable : message.isShort = true)
    (once : (extras.map Prod.fst).Nodup)
    (free : ∀ field ∈ extras, field.1 ∉ reservedNames ∧ field.1 ≠ sentenceName)
    (plain : ∀ field ∈ extras, field.2.Plain) :
    ((make (.text name) level (.text path) (.int line) message [] (.ofText? function) none
      created).setAll extras).Plain := by
  rw [setAll_make once fun field member => (free field member).1]
  refine ⟨⟨rfl, rfl, sayable, free⟩, ?_, once, plain⟩
  simp only [List.forall_mem_cons]
  exact ⟨.text _, .text _, .text _, Value.plain_ofText? function, .int short,
    List.forall_mem_nil _⟩

end Record

/-! ## Whole lines -/

/-- **A line tells its record and nothing else.**  Where there is room for its values, the line
of a plain record has no control character, and is read as an object in which no name stands
twice: its stamp is the instant of the occasion, the other members of the record's own have its
own values, also when an extra field is called like one, every other extra field that is not
hidden has exactly its value, and there are no other names. -/
theorem line_tells_record {record : Record} (plain : record.Plain) {occasion : Occasion}
    (shallow : record.Shallow occasion.levels) :
    ∃ line members stamp, jsonLine occasion record = .ok line ∧
      (∀ c ∈ line.toList, 32 ≤ c.toNat) ∧
      Json.parse line = some (.object members) ∧
      (members.map Prod.fst).Nodup ∧
      Calendar.Moment.readStamp stamp = .ok ⟨occasion.now, some 0⟩ ∧
      (∀ field ∈ record.own stamp, (Json.toldMembers members).get? field.1 = some field.2) ∧
      (∀ field ∈ record.extras, field.1 ∉ ownNames → isHidden field.1 = false →
        (Json.toldMembers members).get? field.1 = some field.2) ∧
      ∀ name ∈ members.map Prod.fst,
        name ∈ ownNames ∨ isHidden name = false ∧ record.extras.has name = true := by
  let stamp := lineStamp occasion.now
  obtain ⟨members, written, tells⟩ := exists_fieldTrees fun field member =>
    exists_writtenAs (plain.plain_of_mem stamp field member)
  obtain ⟨exacts, told⟩ := Json.toldMembers_of_tells tells
  have exact : (Json.object members).Exact := .object exacts
  have once := plain.nodup_members stamp
  have names : members.map Prod.fst = (record.own stamp ++ record.shown).map Prod.fst := by
    rw [← told, Json.names_toldMembers]
  refine ⟨Json.line (.object members), members, stamp, ?_, ?_, Json.parse_line exact, ?_,
    Calendar.Moment.readStamp_isoText occasion.now, ?_, ?_, ?_⟩
  · have said := plain.sentence_eq (shallow.own "msg" List.mem_cons_self)
    unfold jsonLine jsonTree
    rw [said]
    show Except.map _ (fieldTrees _ (lineFields _ record _ _) >>= _) = _
    rw [plain.lineFields_eq, written _ (shallow.of_mem stamp)]
    rfl
  · rw [Json.line, String.toList_ofList]
    exact exact.visible
  · rw [names]
    exact once
  · intro field member
    rw [told]
    exact Fields.get?_of_mem once (List.mem_append_left _ member)
  · intro field member other open_
    rw [told]
    exact Fields.get?_of_mem once
      (List.mem_append_right _ (Record.mem_shown_iff.mpr ⟨member, other, open_⟩))
  · rw [names, List.map_append, record.names_own]
    intro name member
    rcases List.mem_append.mp member with own | extra
    · exact .inl own
    · obtain ⟨field, shown, rfl⟩ := List.mem_map.mp extra
      obtain ⟨there, -, open_⟩ := Record.mem_shown_iff.mp shown
      exact .inr ⟨open_, List.any_eq_true.mpr ⟨field, there, beq_self_eq_true _⟩⟩

/-- A line with extra fields called like members of its own and with marks of JSON in a message,
a name and a text: the stamp, the level and the message are the record's, the other fields are
as they were given, and the hidden one stays out. -/
theorem forged_members_stay_out :
    let occasion : Occasion := ⟨⟨0, by decide⟩, fun _ => 0, 2⟩
    let deep : Value := .list [.text "\n\"level\": \x7b", .ofFields [("", .null)], .int (-5)]
    let extras : Fields :=
      [("timestamp", .text "never"), ("level", .bool true), ("_hidden", .int 1), ("a\n\"b", deep)]
    let record := (Record.make (.text "earnings") 20 (.text "/srv/service.py") (.int 7)
      (.text "said \"no\"\n\x7d") [] (.ofText? none) none (.int 0)).setAll extras
    record.Plain ∧ record.Shallow occasion.levels ∧
      ∃ line members stamp, jsonLine occasion record = .ok line ∧
        Json.parse line = some (.object members) ∧
        Calendar.Moment.readStamp stamp = .ok ⟨occasion.now, some 0⟩ ∧
        (Json.toldMembers members).get? "timestamp" = some (.text stamp) ∧
        (Json.toldMembers members).get? "level" = some (.text "INFO") ∧
        (Json.toldMembers members).get? "message" = some (.text "said \"no\"\n\x7d") ∧
        (Json.toldMembers members).get? "a\n\"b" = some deep ∧
        "_hidden" ∉ members.map Prod.fst := by
  intro occasion deep extras record
  have once : (extras.map Prod.fst).Nodup := by decide
  have free : ∀ field ∈ extras,
      field.1 ∉ Record.reservedNames ∧ field.1 ≠ Record.sentenceName := by
    decide
  have nested : deep.Plain := by
    refine .list ?_
    simp only [List.forall_mem_cons]
    refine ⟨.text _, .dict ?_, .int (by decide), List.forall_mem_nil _⟩
    simp only [List.forall_mem_cons]
    exact ⟨.null, List.forall_mem_nil _⟩
  have plain : record.Plain := by
    refine Record.plain_setAll_make _ _ _ _ none (by decide) rfl once free ?_
    simp only [List.forall_mem_cons, extras]
    exact ⟨.text _, .bool _, .int (by decide), nested, List.forall_mem_nil _⟩
  have held : record = { Record.make (.text "earnings") 20 (.text "/srv/service.py") (.int 7)
      (.text "said \"no\"\n\x7d") [] (.ofText? none) none (.int 0) with extras := extras } :=
    Record.setAll_make once fun field member => (free field member).1
  have shallow : record.Shallow occasion.levels := by
    rw [held]
    constructor
    · simp only [List.forall_mem_cons]
      decide
    · simp only [List.forall_mem_cons, extras]
      decide
  obtain ⟨line, members, stamp, written, -, read, -, clock, own, other, only⟩ :=
    line_tells_record plain shallow
  rw [held] at own other only
  simp only [Record.own, List.forall_mem_cons] at own
  obtain ⟨stamped, level, -, message, -⟩ := own
  refine ⟨plain, shallow, line, members, stamp, written, read, clock, stamped, level, message,
    ?_, fun hidden => ?_⟩
  · exact other ("a\n\"b", deep) (List.mem_of_getElem? (i := 3) rfl) (by decide) (by decide)
  · rcases only _ hidden with own | ⟨shown, -⟩
    · exact absurd own (by decide)
    · cases shown

/-- Trees of more fields stand behind those of fewer. -/
theorem fieldTrees_append (levels : Nat) (fields more : Fields) :
    fieldTrees levels (fields ++ more) =
      (fieldTrees levels fields).bind fun members =>
        (fieldTrees levels more).map (members ++ ·) := by
  induction fields with
  | nil =>
    cases h : fieldTrees levels more <;> simp [fieldTrees, Except.bind, Except.map, h]
  | cons field rest ih =>
    rw [List.cons_append, fieldTrees, ih, fieldTrees]
    cases treeOf levels field.2 <;> cases fieldTrees levels rest <;>
      cases fieldTrees levels more <;> rfl

/-- Not every record has a line: an extra field that stands in the way of the sentence, an
integer that is too long for a text, and a list that is nested deeper than the stack has room
for, each keep their record from it. -/
theorem not_every_record_has_a_line :
    let occasion : Occasion := ⟨⟨0, by decide⟩, fun _ => 0, 2⟩
    let record (extras : Fields) : Record :=
      (Record.make (.text "earnings") 20 (.text "/srv/service.py") (.int 7) (.text "stored") []
        .null none (.int 0)).setAll extras
    jsonLine occasion (record [("getMessage", .text "boom")]) = .error (.notCallable "str") ∧
      jsonLine occasion (record [("digits", .int Text.leastLong)]) = .error .tooManyDigits ∧
      jsonLine occasion (record [("nest", .list [.list [.list []]])]) = .error tooDeepForLine := by
  intro occasion record
  have refused : ∀ n, Text.isShort n = false →
      jsonLine occasion (record [("digits", .int n)]) = .error .tooManyDigits := by
    intro n long
    have tree : fieldTrees 2 [("digits", .int n)] = .error .tooManyDigits := by
      rw [fieldTrees, treeOf, long]
      rfl
    have fields (stamp : String) : lineFields 2 (record [("digits", .int n)]) stamp "stored" =
        coreFields 2 (record []) stamp "stored" ++ [("digits", .int n)] := by
      have core : coreFields 2 (record [("digits", .int n)]) stamp "stored" =
        coreFields 2 (record []) stamp "stored" := rfl
      have held : (record [("digits", .int n)]).extras = [("digits", .int n)] := rfl
      have seen : isShown (coreFields 2 (record []) stamp "stored") "digits" = true := rfl
      rw [lineFields, core, held, List.filter_cons, if_pos seen, List.filter_nil]
    show (fieldTrees 2 (lineFields 2 (record [("digits", .int n)]) _ "stored") >>= _).map _ = _
    rw [fields, fieldTrees_append, tree]
    rfl
  exact ⟨rfl, refused _ Text.isShort_leastLong, rfl⟩

end Log

end EarningsLedger
