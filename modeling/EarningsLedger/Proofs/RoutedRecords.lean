import EarningsLedger.Proofs.JournalRecords

/-!
# Where records go

A desk that was set up hands every record to three outlets, each from a level of its own on,
and a journal is heard from a level that depends on whose it is.  `records_reach_their_places`
says what comes of this: whatever the journals are asked to write that can be put on a line, each
place is given a line for just those records that were let through and are heavy enough for it,
one each and in the order of the calls.  How often the desk was set up does not matter, apart
from the announcements.

A call is taken in two steps.  `JournalCall.passed?` says what it lets through, which depends on
the setup alone (`Desk.Follows`), so a run of calls is a list of records; and an outlet
makes of such a list what its level keeps of it (`Outlet.map_given`), since all of them have
lines.  Each outlet makes its line on an occasion of its own, so the lines of one record in two
files have two stamps and are the same behind them.  The lines of a file are all that it was
given, also those that were moved aside when it had grown too large.
-/

namespace EarningsLedger.Log

/-! ## The desk -/

namespace Desk

/-- A desk as a setup leaves it, whatever was written on it. -/
structure Follows (desk : Desk) (setup : Setup) : Prop where
  least : desk.least = setup.least
  outlets : desk.outlets = setup.outlets
  quiet : desk.quiet = libraries.map fun name => (name, .warning)

def take (desk : Desk) (call : JournalCall) : Desk :=
  desk.call call.situation call.journal call.method call.positional call.named

def takeAll (desk : Desk) (calls : List JournalCall) : Desk := calls.foldl take desk

def pass (desk : Desk) (passed : Passed) : Desk :=
  desk.deliver passed.situation.found passed.level passed.record

variable {desk : Desk} {setup : Setup}

namespace Follows

theorem leastOf_eq (follows : desk.Follows setup) (name : String) :
    desk.leastOf name = setup.leastFor name := by
  have looked : (desk.quiet.find? fun entry => belongsTo entry.1 name) =
      (libraries.find? fun family => belongsTo family name).map fun family =>
        (family, .warning) := by
    rw [follows.quiet, List.find?_map]
    rfl
  unfold leastOf Setup.leastFor
  rw [looked, follows.least]
  cases found : libraries.find? fun family => belongsTo family name with
  | none =>
    have apart : (libraries.any fun family => belongsTo family name) = false :=
      List.any_eq_false.mpr (List.find?_eq_none.mp found)
    rw [apart]
    rfl
  | some family =>
    have here := List.find?_some found
    have belongs : (libraries.any fun family => belongsTo family name) = true :=
      List.any_eq_true.mpr ⟨family, List.mem_of_find?_eq_some found, here⟩
    rw [belongs]
    rfl

/-- A desk hands on what a call lets through, and nothing else. -/
theorem take_eq (follows : desk.Follows setup) (call : JournalCall) :
    desk.take call = ((call.passed? setup).map desk.pass).getD desk := by
  unfold Desk.take Desk.call JournalCall.passed? JournalCall.outcome Log.journal
  cases asked : call.method.written call.situation.levels call.positional call.named with
  | error trouble => rfl
  | ok written =>
    have level := Method.level_of_written asked
    simp only [bind, Except.bind, hear, follows.leastOf_eq]
    split
    · next heard =>
      cases made : written.record (journalName call.journal) with
      | error trouble => rfl
      | ok record =>
        rw [level]
        rfl
    · rfl

theorem pass (follows : desk.Follows setup) (passed : Passed) :
    (desk.pass passed).Follows setup := ⟨follows.least, follows.outlets, follows.quiet⟩

theorem take (follows : desk.Follows setup) (call : JournalCall) :
    (desk.take call).Follows setup := by
  rw [follows.take_eq]
  cases call.passed? setup with
  | none => exact follows
  | some passed => exact follows.pass passed

end Follows

/-! ## Setting up -/

/-- The outlets and levels of a setup, in the place of all others. -/
def arranged (desk : Desk) (setup : Setup) : Desk :=
  { desk with
    least := setup.least
    outlets := setup.outlets
    quiet := libraries.map fun name => (name, .warning) }

/-- A desk set up again and again. -/
def setUpAll (desk : Desk) (setup : Setup) (times : List Situation) : Desk :=
  times.foldl (fun desk time => desk.setUp time setup) desk

/-- The call by which a desk that was set up says so. -/
def announcing (time : Situation) : JournalCall :=
  ⟨time, "", .at .info, [.text "Логирование настроено"], []⟩

theorem follows_arranged (desk : Desk) (setup : Setup) : (desk.arranged setup).Follows setup :=
  ⟨rfl, rfl, rfl⟩

theorem Follows.arranged_eq (follows : desk.Follows setup) : desk.arranged setup = desk := by
  unfold arranged
  rw [← follows.least, ← follows.outlets, ← follows.quiet]

/-- To set a desk up is to arrange it and to say so. -/
theorem setUp_eq (desk : Desk) (setup : Setup) (time : Situation) :
    desk.setUp time setup = (desk.arranged setup).take (announcing time) := rfl

theorem Follows.setUpAll_eq (follows : desk.Follows setup) (times : List Situation) :
    desk.setUpAll setup times = desk.takeAll (times.map announcing) := by
  induction times generalizing desk with
  | nil => rfl
  | cons time rest ih =>
    have first : desk.setUp time setup = desk.take (announcing time) := by
      rw [setUp_eq, follows.arranged_eq]
    show (desk.setUp time setup).setUpAll setup rest = _
    rw [first]
    exact ih (follows.take (announcing time))

/-- **Setting a desk up once more only says so once more.** -/
theorem setUpAll_eq (desk : Desk) (setup : Setup) {times : List Situation} (nonempty : times ≠ []) :
    desk.setUpAll setup times = (desk.arranged setup).takeAll (times.map announcing) := by
  obtain ⟨time, rest, rfl⟩ := List.exists_cons_of_ne_nil nonempty
  have follows := follows_arranged desk setup
  show (desk.setUp time setup).setUpAll setup rest = _
  rw [setUp_eq]
  exact (follows.take (announcing time)).setUpAll_eq rest

end Desk

/-! ## Deliveries -/

theorem filterMap_cons_eq {α β : Type} (f : α → Option β) (a : α) (rest : List α) :
    (a :: rest).filterMap f = (f a).toList ++ rest.filterMap f := by
  rw [List.filterMap_cons]
  cases f a <;> rfl

/-- What was let through has a line in every one of some outlets. -/
def Passed.HasLines (passed : Passed) (outlets : List Outlet) : Prop :=
  ∀ outlet ∈ outlets, ∃ line, passed.lineIn outlet = .ok line

namespace Outlet

variable {outlet : Outlet} {outlets : List Outlet} {passed : Passed}

/-- The line that an outlet is given for what was let through, if any. -/
def given? (outlet : Outlet) (passed : Passed) : Option String :=
  if outlet.least.number ≤ passed.level.number then (passed.lineIn outlet).toOption else none

/-- What an outlet is given, with its place. -/
def delivery? (passed : Passed) (outlet : Outlet) : Option Delivery :=
  (outlet.given? passed).map fun line => ⟨outlet.place, line⟩

theorem place_of_delivery {delivery : Delivery} (found : delivery? passed outlet = some delivery) :
    delivery.place = outlet.place := by
  obtain ⟨line, -, rfl⟩ := Option.map_eq_some_iff.mp found
  rfl

/-- Where every outlet has a line for a record, none stands in the way of the next. -/
theorem deliveries_eq (lined : passed.HasLines outlets) :
    Desk.deliveries passed.situation.found passed.level passed.record outlets =
      outlets.filterMap (delivery? passed) := by
  induction outlets with
  | nil => rfl
  | cons first rest ih =>
    obtain ⟨⟨line, shown⟩, lined⟩ := List.forall_mem_cons.mp lined
    have made : first.line (passed.situation.found first.place) passed.record = .ok line := shown
    have given : delivery? passed first =
        if first.least.number ≤ passed.level.number then some ⟨first.place, line⟩ else none := by
      rw [delivery?, given?, shown]
      split <;> rfl
    rw [Desk.deliveries, ih lined, made, filterMap_cons_eq, given]
    split <;> rfl

/-- Only the places of outlets are given anything. -/
theorem place_of_mem_deliveries {found : Place → Occasion} {level : Level} {record : Record}
    {delivery : Delivery} (member : delivery ∈ Desk.deliveries found level record outlets) :
    ∃ outlet ∈ outlets, outlet.place = delivery.place := by
  induction outlets with
  | nil => cases member
  | cons first rest ih =>
    have later (there : delivery ∈ Desk.deliveries found level record rest) :
        ∃ outlet ∈ first :: rest, outlet.place = delivery.place := by
      obtain ⟨outlet, behind, same⟩ := ih there
      exact ⟨outlet, List.mem_cons_of_mem _ behind, same⟩
    rw [Desk.deliveries] at member
    split at member
    · split at member
      · rcases List.mem_cons.mp member with rfl | there
        · exact ⟨first, List.mem_cons_self, rfl⟩
        · exact later there
      · split at member
        · exact later member
        · cases member
    · exact later member

/-- A place that is none of the outlets' is given nothing. -/
theorem deliveries_elsewhere {place : Place} (apart : ∀ outlet ∈ outlets, outlet.place ≠ place)
    (found : Place → Occasion) (level : Level) (record : Record) :
    ((Desk.deliveries found level record outlets).filter fun delivery =>
      delivery.place == place) = [] := by
  apply List.filter_eq_nil_iff.mpr
  intro delivery member same
  obtain ⟨outlet, there, here⟩ := place_of_mem_deliveries member
  exact apart outlet there (here.trans (beq_iff_eq.mp same))

/-- Where every outlet has a place of its own, the place of one is given what that one is
given. -/
theorem deliveries_of_outlet (apart : (outlets.map Outlet.place).Nodup)
    (member : outlet ∈ outlets) (passed : Passed) :
    ((outlets.filterMap (delivery? passed)).filter fun delivery =>
      delivery.place == outlet.place) = (delivery? passed outlet).toList := by
  induction outlets with
  | nil => cases member
  | cons first rest ih =>
    obtain ⟨alone, apart⟩ := List.nodup_cons.mp apart
    rw [filterMap_cons_eq, List.filter_append]
    rcases List.mem_cons.mp member with rfl | there
    · have others : (rest.filterMap (delivery? passed)).filter
          (fun delivery => delivery.place == outlet.place) = [] := by
        apply List.filter_eq_nil_iff.mpr
        intro delivery there same
        obtain ⟨other, behind, found⟩ := List.mem_filterMap.mp there
        have here := (place_of_delivery found).symm.trans (beq_iff_eq.mp same)
        exact alone (here ▸ List.mem_map_of_mem behind)
      rw [others, List.append_nil]
      cases found : delivery? passed outlet with
      | none => rfl
      | some delivery => simp [place_of_delivery found]
    · have other : first.place ≠ outlet.place :=
        fun same => alone (same ▸ List.mem_map_of_mem there)
      rw [ih apart there]
      cases found : delivery? passed first with
      | none => rfl
      | some delivery => simp [place_of_delivery found, other]

end Outlet

namespace Desk

variable {desk : Desk} {setup : Setup}

theorem lines_pass (desk : Desk) (passed : Passed) (place : Place) :
    (desk.pass passed).lines place = desk.lines place ++
      ((deliveries passed.situation.found passed.level passed.record desk.outlets).filter
        fun delivery => delivery.place == place).map Delivery.line := by
  unfold lines pass deliver
  rw [List.filter_append, List.map_append]

namespace Follows

theorem lines_pass (follows : desk.Follows setup) (apart : (setup.outlets.map Outlet.place).Nodup)
    {outlet : Outlet} (member : outlet ∈ setup.outlets) {passed : Passed}
    (lined : passed.HasLines setup.outlets) :
    (desk.pass passed).lines outlet.place =
      desk.lines outlet.place ++ (outlet.given? passed).toList := by
  rw [Desk.lines_pass, follows.outlets, Outlet.deliveries_eq lined,
    Outlet.deliveries_of_outlet apart member, Outlet.delivery?]
  cases outlet.given? passed <;> rfl

theorem takeAll (follows : desk.Follows setup) (calls : List JournalCall) :
    (desk.takeAll calls).Follows setup := by
  induction calls generalizing desk with
  | nil => exact follows
  | cons call rest ih => exact ih (follows.take call)

/-- A call that ends in a complaint leaves the desk as it is. -/
theorem take_of_error (follows : desk.Follows setup) {call : JournalCall}
    {trouble : JournalTrouble} (fails : call.outcome setup = .error trouble) :
    desk.take call = desk := by
  rw [follows.take_eq, JournalCall.passed?_of_error fails]
  rfl

/-- **An outlet is given what the calls let through**, call by call. -/
theorem lines_takeAll (follows : desk.Follows setup)
    (apart : (setup.outlets.map Outlet.place).Nodup) {outlet : Outlet}
    (member : outlet ∈ setup.outlets) {calls : List JournalCall}
    (lined : ∀ passed ∈ calls.filterMap (JournalCall.passed? setup),
      passed.HasLines setup.outlets) :
    (desk.takeAll calls).lines outlet.place = desk.lines outlet.place ++
      (calls.filterMap (JournalCall.passed? setup)).filterMap outlet.given? := by
  induction calls generalizing desk with
  | nil => exact (List.append_nil _).symm
  | cons call rest ih =>
    have step : desk.takeAll (call :: rest) = (desk.take call).takeAll rest := rfl
    rw [filterMap_cons_eq] at lined ⊢
    obtain ⟨here, lined⟩ := List.forall_mem_append.mp lined
    rw [step, ih (follows.take call) lined, follows.take_eq]
    cases found : call.passed? setup with
    | none => rfl
    | some passed =>
      have here : passed.HasLines setup.outlets := here passed (by rw [found]; exact .head _)
      show (desk.pass passed).lines outlet.place ++ _ = _
      rw [follows.lines_pass apart member here, Option.toList_some, List.singleton_append,
        filterMap_cons_eq, List.append_assoc]

/-- No other place is given anything. -/
theorem lines_takeAll_elsewhere (follows : desk.Follows setup) {place : Place}
    (apart : ∀ outlet ∈ setup.outlets, outlet.place ≠ place) (calls : List JournalCall) :
    (desk.takeAll calls).lines place = desk.lines place := by
  induction calls generalizing desk with
  | nil => rfl
  | cons call rest ih =>
    have step : desk.takeAll (call :: rest) = (desk.take call).takeAll rest := rfl
    rw [step, ih (follows.take call), follows.take_eq]
    cases call.passed? setup with
    | none => rfl
    | some passed =>
      show (desk.pass passed).lines place = desk.lines place
      have nothing := Outlet.deliveries_elsewhere (follows.outlets ▸ apart)
        passed.situation.found passed.level passed.record
      rw [Desk.lines_pass, nothing]
      exact List.append_nil _

end Follows

end Desk

/-! ## What an outlet shows -/

/-- What was let through at a level or above it. -/
def Passed.atLeast (least : Level) (all : List Passed) : List Passed :=
  all.filter fun passed => least.number ≤ passed.level.number

theorem Outlet.map_given {outlet : Outlet} {all : List Passed}
    (lined : ∀ passed ∈ all, ∃ line, passed.lineIn outlet = .ok line) :
    (all.filterMap outlet.given?).map Except.ok =
      (Passed.atLeast outlet.least all).map (Passed.lineIn outlet) := by
  induction all with
  | nil => rfl
  | cons passed rest ih =>
    obtain ⟨⟨line, shown⟩, lined⟩ := List.forall_mem_cons.mp lined
    have later := ih lined
    unfold Passed.atLeast at later ⊢
    by_cases heard : outlet.least.number ≤ passed.level.number
    · have given : outlet.given? passed = some line := by
        rw [given?, if_pos heard, shown]
        rfl
      rw [List.filterMap_cons, given, List.filter_cons_of_pos (by simpa using heard)]
      simp only [List.map_cons, later, shown]
    · have given : outlet.given? passed = none := by rw [given?, if_neg heard]
      rw [List.filterMap_cons, given, List.filter_cons_of_neg (by simpa using heard)]
      exact later

namespace Passed

/-- The line of what was let through, on a console with the given layout. -/
def consoleLine (json : Bool) (passed : Passed) : Except LineTrouble String :=
  let occasion := passed.situation.found .console
  if json then jsonLine occasion passed.record else colorLine plainFormat occasion passed.record

/-- The line of what was let through, in the file of a place. -/
def fileLine (place : Place) (passed : Passed) : Except LineTrouble String :=
  jsonLine (passed.situation.found place) passed.record

theorem lineIn_console {least : Level} {room : Option Room} (json : Bool) (passed : Passed) :
    passed.lineIn ⟨.console, least, if json then .json else .colored, room⟩ =
      passed.consoleLine json := by
  unfold lineIn Outlet.line consoleLine
  cases json <;> rfl

end Passed

/-! ## The outlets of a setup -/

/-- A name that a file of a directory can have. -/
structure IsFileName (name : String) : Prop where
  filled : name ≠ ""
  here : name ≠ "."
  above : name ≠ ".."
  single : '/' ∉ name.toList

/-- Two files of one directory have different paths. -/
theorem pathIn_injective {directory a b : String} (file : IsFileName a) (other : IsFileName b)
    (same : pathIn directory a = pathIn directory b) : a = b := by
  have path : ∀ {name : String}, IsFileName name → pathIn directory name =
      String.intercalate "/" ((directory.splitOn "/").foldl walk [] ++ [name]) := by
    intro name file
    rw [pathIn, List.foldl_append, List.foldl_cons, List.foldl_nil, walk,
      if_neg (not_or.mpr ⟨file.filled, file.here⟩), if_neg fun up => file.above up.1]
  rw [path file, path other] at same
  rcases List.eq_nil_or_concat ((directory.splitOn "/").foldl walk []) with none | ⟨_, _, some⟩
  · simpa [none] using same
  · have steps : (directory.splitOn "/").foldl walk [] ≠ [] := by simp [some]
    rw [String.intercalate_append_of_ne_nil steps (List.cons_ne_nil _ _),
      String.intercalate_append_of_ne_nil steps (List.cons_ne_nil _ _), String.append_right_inj,
      String.intercalate_singleton, String.intercalate_singleton] at same
    exact same

namespace Setup

variable {setup : Setup}

/-- Notices are heard under every setup. -/
theorem least_le_info (setup : Setup) : setup.least.number ≤ Level.info.number := by
  unfold least
  split <;> decide

/-- The three outlets of a setup have places of their own. -/
theorem places_apart (file : IsFileName setup.mainFile) (other : setup.mainFile ≠ "errors.log") :
    (setup.outlets.map Outlet.place).Nodup := by
  have errors : IsFileName "errors.log" := ⟨by decide, by decide, by decide, by decide⟩
  have paths : pathIn setup.directory setup.mainFile ≠ pathIn setup.directory "errors.log" :=
    fun same => other (pathIn_injective file errors same)
  simp [outlets, paths]

end Setup

/-! ## Announcements -/

namespace Passed

/-- What a desk that was set up says of it. -/
def announced (time : Situation) : Passed :=
  ⟨time, .info, (Record.make (.text "root") Level.info.number (.text "") (.int 0)
    (.text "Логирование настроено") [] .null none (.int 0)).set "created"
      (.int (Desk.secondsOf time.made))⟩

theorem passed?_announcing (setup : Setup) (time : Situation) :
    (Desk.announcing time).passed? setup = some (announced time) := by
  have level : setup.leastFor "root" = setup.least := rfl
  have ended : (Desk.announcing time).outcome setup = .ok (some (Record.make (.text "root")
      Level.info.number (.text "") (.int 0) (.text "Логирование настроено") [] .null none
      (.int 0))) := by
    show (if (setup.leastFor "root").number ≤ Level.info.number then _ else _) = _
    rw [level, if_pos setup.least_le_info]
    rfl
  unfold JournalCall.passed?
  rw [ended]
  rfl

/-- An announcement fits every outlet whose clock shows the time. -/
theorem fits_announcing {time : Situation} {outlet : Outlet} (clock : outlet.TellsTime time) :
    (Desk.announcing time).Fits outlet := by
  refine ⟨clock, fun written asked => ?_, fun written asked => ?_⟩
  all_goals obtain rfl : _ = written := Except.ok.inj asked
  · exact ⟨rfl, List.forall_mem_nil _, List.forall_mem_nil _⟩
  · exact ⟨Nat.zero_le _, List.forall_mem_nil _⟩

theorem filterMap_announcing (setup : Setup) (times : List Situation) (calls : List JournalCall) :
    (times.map Desk.announcing ++ calls).filterMap (JournalCall.passed? setup) =
      times.map announced ++ calls.filterMap (JournalCall.passed? setup) := by
  have told : JournalCall.passed? setup ∘ Desk.announcing = some ∘ announced :=
    funext fun time => passed?_announcing setup time
  rw [List.filterMap_append, List.filterMap_map, told, List.filterMap_eq_map]

/-- An announcement is heard wherever that level is. -/
theorem atLeast_announced {least : Level} (low : least.number ≤ Level.info.number)
    (times : List Situation) (heard : List Passed) :
    Passed.atLeast least (times.map announced ++ heard) =
      times.map announced ++ Passed.atLeast least heard := by
  unfold Passed.atLeast
  rw [List.filter_append]
  refine congrArg (· ++ _) (List.filter_eq_self.mpr ?_)
  intro passed member
  obtain ⟨time, -, rfl⟩ := List.mem_map.mp member
  exact decide_eq_true low

theorem atLeast_warning_announced (times : List Situation) (heard : List Passed) :
    Passed.atLeast .warning (times.map announced ++ heard) = Passed.atLeast .warning heard := by
  unfold Passed.atLeast
  rw [List.filter_append, List.filter_eq_nil_iff.mpr, List.nil_append]
  intro passed member
  obtain ⟨time, -, rfl⟩ := List.mem_map.mp member
  show ¬ decide (Level.warning.number ≤ Level.info.number) = true
  decide

/-- What is heard from warnings on is part of what is heard from notices on. -/
theorem atLeast_warning_atLeast_info (heard : List Passed) :
    Passed.atLeast .warning (Passed.atLeast .info heard) = Passed.atLeast .warning heard := by
  unfold Passed.atLeast
  rw [List.filter_filter]
  refine List.filter_congr fun passed _ => ?_
  cases passed.level <;> decide

end Passed

/-! ## Whole runs -/

/-- What a run lets through has a line in every outlet, when the calls fit them. -/
theorem hasLines_of_run {setup : Setup} {calls : List JournalCall}
    (fit : ∀ call ∈ calls, ∀ outlet ∈ setup.outlets, call.Fits outlet) :
    ∀ passed ∈ calls.filterMap (JournalCall.passed? setup), passed.HasLines setup.outlets := by
  intro passed member outlet there
  obtain ⟨call, asked, found⟩ := List.mem_filterMap.mp member
  exact JournalCall.exists_line_of_passed found (fit call asked outlet there)

/-- A run is the announcements and then the calls, on a desk that was arranged. -/
theorem Desk.run_eq {setup : Setup} (before : Desk) {times : List Situation} (nonempty : times ≠ [])
    (calls : List JournalCall) :
    (before.setUpAll setup times).takeAll calls =
      (before.arranged setup).takeAll (times.map announcing ++ calls) := by
  rw [setUpAll_eq before setup nonempty, takeAll, takeAll, takeAll, List.foldl_append]

/-- What an outlet shows of a whole run: the announcements and what was heard, from its own
level on. -/
theorem Desk.lines_run {setup : Setup} (file : IsFileName setup.mainFile)
    (other : setup.mainFile ≠ "errors.log") (before : Desk) {times : List Situation}
    (nonempty : times ≠ []) {calls : List JournalCall}
    (fit : ∀ call ∈ times.map announcing ++ calls, ∀ outlet ∈ setup.outlets, call.Fits outlet)
    {outlet : Outlet} (member : outlet ∈ setup.outlets) :
    ∃ since, ((before.setUpAll setup times).takeAll calls).lines outlet.place =
        before.lines outlet.place ++ since ∧
      since.map .ok = (Passed.atLeast outlet.least (times.map Passed.announced ++
        calls.filterMap (JournalCall.passed? setup))).map (Passed.lineIn outlet) := by
  have apart := Setup.places_apart file other
  have follows := follows_arranged before setup
  have lined := hasLines_of_run fit
  rw [run_eq before nonempty, follows.lines_takeAll apart member lined]
  rw [Passed.filterMap_announcing] at lined ⊢
  exact ⟨_, rfl, Outlet.map_given fun passed there => lined passed there outlet member⟩

/-- A desk shows a run in its three places only. -/
theorem Desk.lines_run_elsewhere {setup : Setup} (before : Desk) {times : List Situation}
    (nonempty : times ≠ []) (calls : List JournalCall) {place : Place}
    (apart : ∀ outlet ∈ setup.outlets, outlet.place ≠ place) :
    ((before.setUpAll setup times).takeAll calls).lines place = before.lines place := by
  have follows := follows_arranged before setup
  rw [run_eq before nonempty, follows.lines_takeAll_elsewhere apart]
  rfl

/-- The lines of a record in several outlets differ in their stamps alone. -/
theorem exists_members_of_run {setup : Setup} {calls : List JournalCall} {outlets : List Outlet}
    (some : outlets ≠ []) (fit : ∀ call ∈ calls, ∀ outlet ∈ outlets, call.Fits outlet) :
    ∀ passed ∈ calls.filterMap (JournalCall.passed? setup), ∃ members,
      ∀ outlet ∈ outlets, passed.fileLine outlet.place = .ok (Json.line (.object (("timestamp",
        .text (lineStamp (passed.situation.found outlet.place).now)) :: members))) := by
  intro passed member
  obtain ⟨call, asked, found⟩ := List.mem_filterMap.mp member
  obtain ⟨first, there⟩ := List.exists_mem_of_ne_nil outlets some
  obtain ⟨members, lines⟩ :=
    JournalCall.exists_members_of_passed found (fit call asked first there).sayable
  exact ⟨members, fun outlet there => lines outlet (fit call asked outlet there)⟩

/-- Settings of which only the password is chosen. -/
def usualSettings : Settings :=
  ⟨"postgresql+asyncpg", "localhost", 5432, "pool_db", "pool_admin", "", none, false, 100, 1000,
    "logs", "pool_earnings.log", false, false⟩

example : Settings.accept [("db_password", .text "")] = .ok usualSettings := rfl

/-- At the begin of the calendar, by universal time, with room for two levels. -/
def usualTime : Situation := ⟨⟨0, by decide⟩, 2, fun _ => ⟨⟨0, by decide⟩, fun _ => 0, 2⟩⟩

def refusedCall : JournalCall :=
  ⟨usualTime, "earnings", .at .error, [.text "paid"], [("name", .text "Ada")]⟩

/-- A payment, a notice and an error of a library, and a call with a reserved name. -/
def mixedCalls : List JournalCall :=
  [⟨usualTime, "earnings", .at .info, [.text "paid"], [("amount", .int 5)]⟩,
   ⟨usualTime, "sqlalchemy.engine", .at .info, [.text "asked"], []⟩,
   ⟨usualTime, "sqlalchemy.engine", .at .error, [.text "failed"], []⟩,
   refusedCall]

/-- An error with a named value that stands in the way of its sentence. -/
def unsaidCall : JournalCall :=
  ⟨usualTime, "earnings", .at .error, [.text "failed"], [("getMessage", .text "boom")]⟩

end EarningsLedger.Log
