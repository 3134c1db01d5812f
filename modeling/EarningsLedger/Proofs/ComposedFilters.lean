import EarningsLedger.Proofs.PageLengthSettings
import EarningsLedger.Proofs.ToldEarnings
import Mathlib.Data.List.Nodup

/-!
# Filters built on filters

A filter that was built is handed over again: a page is queried and counted with the filter
that its request made.  `building_filters_composes` says that this changes nothing.  To build
a filter on one that was built is to build it at once, with the later names put over the
earlier ones; and to name the parts of a filter is to name them on top of the filter that the
settings alone make.

A part that is not named again was checked before, and the check reads back what it wrote,
whatever looseness the part came in with.  The page length alone comes back changed: it was
lowered to the maximum, and is lowered to the same maximum again.
-/

namespace EarningsLedger

open Check

/-! ## Names put over names -/

namespace Fields

theorem get?_put (fields : Fields) (name other : String) (value : Value) :
    (fields.put name value).get? other =
      if name = other then some value else fields.get? other := by
  unfold put
  split
  · next present =>
    have names : ((fun field : String × Value => field.1 == other) ∘
        fun field => if field.1 == name then (name, value) else field) =
        fun field => field.1 == other := by
      funext field
      dsimp only [Function.comp]
      split
      · next same => rw [beq_iff_eq.mp same]
      · rfl
    rw [get?, List.find?_map, names]
    by_cases same : name = other
    · subst same
      obtain ⟨old, held⟩ := exists_get?_of_has present
      obtain ⟨field, found, -⟩ := Option.map_eq_some_iff.mp held
      have here := List.find?_some found
      simp [found, beq_iff_eq.mp here]
    · rw [if_neg same, get?]
      cases found : fields.find? fun field => field.1 == other with
      | none => rfl
      | some field =>
        have here := List.find?_some found
        have apart : ¬ field.1 = name := fun again => same (again.symm.trans (beq_iff_eq.mp here))
        simp [apart]
  · next absent =>
    have absent : fields.get? name = none := get?_of_has (Bool.eq_false_iff.mpr absent)
    rw [get?_append, get?_cons]
    by_cases same : name = other
    · subst same
      rw [absent, if_pos rfl, if_pos rfl]
      rfl
    · rw [if_neg same, if_neg same]
      exact Option.or_none

/-- Putting a value under a name brings in no name twice. -/
theorem nodup_put {fields : Fields} (once : (fields.map Prod.fst).Nodup) (name : String)
    (value : Value) : ((fields.put name value).map Prod.fst).Nodup := by
  unfold put
  split
  · have names : (Prod.fst ∘ fun field : String × Value =>
        if field.1 == name then (name, value) else field) = Prod.fst := by
      funext field
      dsimp only [Function.comp]
      split
      · next same => exact (beq_iff_eq.mp same).symm
      · rfl
    rwa [List.map_map, names]
  · next absent =>
    have new : name ∉ fields.map Prod.fst := by
      intro there
      obtain ⟨field, member, same⟩ := List.mem_map.mp there
      exact absent (List.any_eq_true.mpr ⟨field, member, beq_iff_eq.mpr same⟩)
    rw [List.map_append, List.nodup_append]
    refine ⟨once, List.nodup_singleton name, ?_⟩
    rintro a there b here rfl
    obtain rfl := List.mem_singleton.mp here
    exact new there

theorem nodup_putAll {fields : Fields} (once : (fields.map Prod.fst).Nodup) (more : Fields) :
    ((fields.putAll more).map Prod.fst).Nodup := by
  induction more generalizing fields with
  | nil => exact once
  | cons field rest ih => exact ih (nodup_put once field.1 field.2)

/-- Names that are put over others hide them. -/
theorem get?_putAll (fields : Fields) {more : Fields} (once : (more.map Prod.fst).Nodup)
    (name : String) : (fields.putAll more).get? name = (more.get? name).or (fields.get? name) := by
  induction more generalizing fields with
  | nil => rfl
  | cons field rest ih =>
    obtain ⟨new, once⟩ := List.nodup_cons.mp once
    have step : fields.putAll (field :: rest) = (fields.put field.1 field.2).putAll rest := rfl
    rw [step, ih _ once, get?_put, get?_cons]
    by_cases here : field.1 = name
    · have absent : get? rest name = none := by
        refine Option.map_eq_none_iff.mpr (List.find?_eq_none.mpr fun other member same => new ?_)
        exact List.mem_map.mpr ⟨other, member, (beq_iff_eq.mp same).trans here.symm⟩
      rw [absent, if_pos here, if_pos here]
      rfl
    · rw [if_neg here, if_neg here]

/-- Names that are put over others one after another may be put over them together. -/
theorem get?_putAll_putAll (fields : Fields) {first second : Fields}
    (once : (first.map Prod.fst).Nodup) (once' : (second.map Prod.fst).Nodup) (name : String) :
    ((fields.putAll first).putAll second).get? name =
      (fields.putAll (first.putAll second)).get? name := by
  rw [get?_putAll _ once', get?_putAll _ once, get?_putAll _ (nodup_putAll once second),
    get?_putAll _ once', Option.or_assoc]

/-- Names that parts of a filter are told by: each comes once, and none of them is one that
the building of a filter uses itself. -/
structure TellFilter (names : Fields) : Prop where
  once : (names.map Prod.fst).Nodup
  free : ∀ name ∈ ["self", "earning_filter", "schema", "event"], names.has name = false

namespace TellFilter

variable {first second names : Fields}

theorem clear (tell : names.TellFilter) : clashing names = false := by
  rw [clashing, tell.free "schema" (by decide), tell.free "event" (by decide)]
  rfl

theorem empty : TellFilter [] := ⟨List.nodup_nil, fun _ _ => rfl⟩

theorem putAll (tell : first.TellFilter) (tell' : second.TellFilter) :
    (first.putAll second).TellFilter := by
  refine ⟨nodup_putAll tell.once second, fun name own => ?_⟩
  rw [has_putAll, tell.free name own, tell'.free name own]
  rfl

end TellFilter

end Fields

/-- An operation that gathers names gathers all that are not its own. -/
theorem Binding.Signature.foldlM_bindName_of_foreign {sig : Signature}
    (gathers : sig.gathers = true) {named : Fields} {start : Bound}
    (foreign : ∀ field ∈ named, (sig.receiver == some field.1) = false ∧
      start.given.has field.1 = false ∧
      (sig.parameters.any fun p => p.name == field.1) = false) :
    named.foldlM sig.bindName start = .ok ⟨start.given, start.extras ++ named⟩ := by
  induction named generalizing start with
  | nil => simp [pure, Except.pure]
  | cons field rest ih =>
    obtain ⟨⟨receiver, given, parameter⟩, foreign⟩ := List.forall_mem_cons.mp foreign
    have step : sig.bindName start field = .ok ⟨start.given, start.extras ++ [field]⟩ := by
      simp [bindName, receiver, given, parameter, gathers]
    have whole : start.extras ++ field :: rest = start.extras ++ [field] ++ rest := by simp
    rw [List.foldlM_cons, step, whole]
    exact ih foreign

/-- Building a filter hands the names that tell its parts on. -/
theorem filterOf_names (limits : Limits) (ready : Option Filter) {names : Fields}
    (tell : names.TellFilter) :
    filterOf limits ready (.ofFields names) = buildFilter limits ready names := by
  have foreign : ∀ field ∈ names,
      ((filterSignature "_build_filter" []).receiver == some field.1) = false ∧
      Fields.has [("earning_filter", .null)] field.1 = false ∧
      ((filterSignature "_build_filter" []).parameters.any fun p => p.name == field.1) = false := by
    intro field member
    have other : ∀ name ∈ ["self", "earning_filter", "schema", "event"], name ≠ field.1 := by
      rintro name own rfl
      have there : names.has field.1 = true :=
        List.any_eq_true.mpr ⟨field, member, beq_self_eq_true field.1⟩
      rw [tell.free field.1 own] at there
      cases there
    have unread : ("earning_filter" == field.1) = false :=
      beq_false_of_ne (other "earning_filter" (by decide))
    refine ⟨beq_false_of_ne fun same => other "self" (by decide) (Option.some.inj same), ?_, ?_⟩
    · exact (Bool.or_false _).trans unread
    · exact (Bool.or_false _).trans unread
  have bound : (filterSignature "_build_filter" []).bind [.null] names =
      .ok ⟨[("earning_filter", .null)], names⟩ := by
    refine Binding.Signature.bind_eq_ok_iff.mpr
      ⟨Binding.Signature.foldlM_bindName_of_foreign rfl foreign, Nat.le_refl 1, ?_⟩
    intro p member needed
    obtain rfl := List.mem_singleton.mp member
    cases needed
  have read : filterNames "_build_filter" [] (.ofFields names) =
      pure ⟨[("earning_filter", .null)], names⟩ := by
    show Audited.ofExcept (Except.mapError Failure.misuse
      (Binding.namesOf (names.map fun field => (.text field.1, field.2)) >>= fun found =>
        (filterSignature "_build_filter" []).bind [.null] found)) = _
    rw [namesOf_texts]
    exact congrArg (fun found => Audited.ofExcept (Except.mapError Failure.misuse found)) bound
  rw [filterOf, read]
  rfl

/-! ## Parts that are checked again -/

namespace Check

variable {α : Type}

/-- A field with a default is checked by the value under its name. -/
theorem field_congr {data other : Fields} {name : String} (same : data.get? name = other.get? name)
    (given : α) (rule : Rule α) :
    field data name (some given) rule = field other name (some given) rule := by
  unfold field
  rw [same]

/-- A field with a default is checked by the value that is put over it, if there is one. -/
theorem field_putAll (fields : Fields) {named : Fields} (once : (named.map Prod.fst).Nodup)
    (name : String) (given : α) (rule : Rule α) :
    field (fields.putAll named) name (some given) rule =
      match named.get? name with
      | some input => (rule input).under (.name name)
      | none => field fields name (some given) rule := by
  have read := Fields.get?_putAll fields once name
  cases told : named.get? name with
  | some input =>
    rw [told] at read
    unfold field
    rw [read]
    rfl
  | none =>
    rw [told] at read
    exact field_congr read given rule

/-- A field that passed is checked alike when the value that its rule reads back has taken
its place, whatever names are put over it. -/
theorem field_putAll_of_passed {base dumped named : Fields} {name : String} {given a : α}
    {rule : Rule α} {value : Value} (once : (named.map Prod.fst).Nodup)
    (passed : field base name (some given) rule = .ok a) (held : dumped.get? name = some value)
    (reads : rule value = .ok a) :
    field (dumped.putAll named) name (some given) rule =
      field (base.putAll named) name (some given) rule := by
  have kept : field dumped name (some given) rule = .ok a :=
    field_eq_ok_iff.mpr (.inr ⟨value, held, reads⟩)
  rw [field_putAll _ once, field_putAll _ once, passed, kept]

/-! ## What the rules read back -/

theorem count_ofNat (n : Nat) : count (.int n) = .ok n := by
  have low : ¬ (n : Int) < 0 := by omega
  simp [count, looseInt, low]

theorem optional_key_ofInt? (k : Option Key) : optional key (.ofInt? (k.map Key.val)) = .ok k := by
  cases k with
  | none => rfl
  | some k => exact map_eq_ok_iff.mpr ⟨k, key_eq_ok_iff.mpr rfl, rfl⟩

theorem optional_count_ofInt? (n : Option Nat) :
    optional count (.ofInt? (n.map Int.ofNat)) = .ok n := by
  cases n with
  | none => rfl
  | some n => exact map_eq_ok_iff.mpr ⟨n, count_ofNat n, rfl⟩

end Check

namespace Filter

/-- The rule for the length of a page. -/
abbrev lengthRule : Rule Int := bounded looseInt (some 1) (some PageBounds.longestLimit)

/-- A filter passes exactly when each of its parts does. -/
theorem check_eq_ok_iff {data : Fields} {f : Filter} :
    check data = .ok f ↔
      (field data "skip" (some 0) count = .ok f.skip ∧
        field data "limit" (some PageBounds.usualLimit) lengthRule = .ok f.limit) ∧
      ownerNumber data "miner_id" = .ok f.miner ∧ ownerNumber data "pool_id" = .ok f.pool ∧
        ownerNumber data "challenge_id" = .ok f.challenge ∧
        field data "after_id" (some none) (optional count) = .ok f.after := by
  constructor
  · intro passed
    obtain ⟨⟨bounds, miner, pool, challenge, after⟩, parts, rfl⟩ := map_eq_ok_iff.mp passed
    obtain ⟨paged, owner⟩ := Verdict.both_eq_ok.mp parts
    obtain ⟨⟨skip, limit⟩, page, rfl⟩ := map_eq_ok_iff.mp paged
    obtain ⟨first, owner⟩ := Verdict.both_eq_ok.mp owner
    obtain ⟨second, owner⟩ := Verdict.both_eq_ok.mp owner
    exact ⟨Verdict.both_eq_ok.mp page, first, second, Verdict.both_eq_ok.mp owner⟩
  · intro parts
    obtain ⟨page, miner, pool, challenge, after⟩ := parts
    have paged : PageBounds.check data = .ok ⟨f.skip, f.limit⟩ :=
      map_eq_ok_iff.mpr ⟨(f.skip, f.limit), Verdict.both_eq_ok.mpr page, rfl⟩
    exact map_eq_ok_iff.mpr ⟨(_, f.miner, f.pool, f.challenge, f.after),
      Verdict.both_eq_ok.mpr ⟨paged, Verdict.both_eq_ok.mpr ⟨miner, Verdict.both_eq_ok.mpr
        ⟨pool, Verdict.both_eq_ok.mpr ⟨challenge, after⟩⟩⟩⟩, rfl⟩

/-- A filter passes its own check, unless its page has a length that cannot be asked for. -/
theorem check_fields {f : Filter} (measured : f.Measured) : check f.fields = .ok f := by
  have held : ∀ {α : Type} {name : String} {given a : α} {rule : Rule α} {value : Value},
      f.fields.get? name = some value → rule value = .ok a →
      field f.fields name (some given) rule = .ok a :=
    fun there reads => field_eq_ok_iff.mpr (.inr ⟨_, there, reads⟩)
  have length : lengthRule (.int f.limit) = .ok f.limit :=
    bounded_eq_ok_iff.mpr ⟨rfl, measured⟩
  exact check_eq_ok_iff.mpr ⟨⟨held rfl (count_ofNat f.skip), held rfl length⟩,
    held rfl (optional_key_ofInt? f.miner), held rfl (optional_key_ofInt? f.pool),
    held rfl (optional_key_ofInt? f.challenge), held rfl (optional_count_ofInt? f.after)⟩

theorem check_congr {data other : Fields}
    (skip : field data "skip" (some 0) count = field other "skip" (some 0) count)
    (length : field data "limit" (some PageBounds.usualLimit) lengthRule =
      field other "limit" (some PageBounds.usualLimit) lengthRule)
    (miner : ownerNumber data "miner_id" = ownerNumber other "miner_id")
    (pool : ownerNumber data "pool_id" = ownerNumber other "pool_id")
    (challenge : ownerNumber data "challenge_id" = ownerNumber other "challenge_id")
    (after : field data "after_id" (some none) (optional count) =
      field other "after_id" (some none) (optional count)) : check data = check other := by
  unfold check PageBounds.check
  rw [skip, length, miner, pool, challenge, after]

/-- A check looks at the values under the names, however they came there. -/
theorem check_of_get?_eq {data other : Fields} (same : ∀ name, data.get? name = other.get? name) :
    check data = check other :=
  check_congr (field_congr (same _) _ _) (field_congr (same _) _ _) (field_congr (same _) _ _)
    (field_congr (same _) _ _) (field_congr (same _) _ _) (field_congr (same _) _ _)

/-- **What passed is checked alike when it is checked again**, whatever names are put over
it: the filter that it made takes its place. -/
theorem check_putAll_of_passed {base named : Fields} {f : Filter} (passed : check base = .ok f)
    (once : (named.map Prod.fst).Nodup) :
    check (f.fields.putAll named) = check (base.putAll named) := by
  obtain ⟨⟨skip, length⟩, miner, pool, challenge, after⟩ := check_eq_ok_iff.mp passed
  have again : ∀ {α : Type} {name : String} {given a : α} {rule : Rule α} {value : Value},
      field base name (some given) rule = .ok a → f.fields.get? name = some value →
      rule value = .ok a → field (f.fields.putAll named) name (some given) rule =
        field (base.putAll named) name (some given) rule :=
    fun before held reads => field_putAll_of_passed once before held reads
  have long : lengthRule (.int f.limit) = .ok f.limit :=
    bounded_eq_ok_iff.mpr ⟨rfl, measured_of_check passed⟩
  exact check_congr (again skip rfl (count_ofNat f.skip)) (again length rfl long)
    (again miner rfl (optional_key_ofInt? f.miner)) (again pool rfl (optional_key_ofInt? f.pool))
    (again challenge rfl (optional_key_ofInt? f.challenge))
    (again after rfl (optional_count_ofInt? f.after))

/-- Two requests that differ in the page length make filters that differ in it, or have the
same issues. -/
theorem check_map_withLength {data other : Fields} {a b : Int}
    (length : field data "limit" (some PageBounds.usualLimit) lengthRule = .ok a)
    (length' : field other "limit" (some PageBounds.usualLimit) lengthRule = .ok b)
    (same : ∀ name, name ≠ "limit" → data.get? name = other.get? name) :
    check data = (check other).map (·.withLength a) := by
  unfold check PageBounds.check ownerNumber
  rw [length, length', field_congr (same "skip" (by decide)),
    field_congr (same "miner_id" (by decide)), field_congr (same "pool_id" (by decide)),
    field_congr (same "challenge_id" (by decide)), field_congr (same "after_id" (by decide))]
  -- the issues of the position and of the owner are the same with either length
  generalize field other "skip" (some 0) count = skip
  generalize Verdict.both (field other "miner_id" (some none) (optional key)) _ = owner
  cases skip <;> cases owner <;> rfl

/-- A page length that the maximum lowers is lowered to the same one when it is checked
again, whatever names are put over it. -/
theorem check_putAll_capped {f : Filter} {maximum : Int} (long : 1 ≤ maximum) {named : Fields}
    (measured : f.Measured) (once : (named.map Prod.fst).Nodup) :
    (check ((f.capped maximum).fields.putAll named)).map (·.capped maximum) =
      (check (f.fields.putAll named)).map (·.capped maximum) := by
  have read := fun fields : Fields => Fields.get?_putAll fields once
  have others : ∀ name, name ≠ "limit" →
      ((f.capped maximum).fields.putAll named).get? name = (f.fields.putAll named).get? name := by
    intro name other
    rw [read, read, capped_eq]
    simp only [fields, Fields.get?_cons, Ne.symm other, if_false]
  cases told : named.get? "limit" with
  | some input =>
    refine congrArg _ (check_of_get?_eq fun name => ?_)
    by_cases limit : name = "limit"
    · rw [limit, read, read, told]
      rfl
    · exact others name limit
  | none =>
    have length : ∀ g : Filter, g.Measured →
        field (g.fields.putAll named) "limit" (some PageBounds.usualLimit) lengthRule =
          .ok g.limit := by
      intro g measured
      rw [field_putAll _ once, told]
      exact field_eq_ok_iff.mpr (.inr ⟨_, rfl, bounded_eq_ok_iff.mpr ⟨rfl, measured⟩⟩)
    have lowered := length (f.capped maximum) (measured_capped measured long)
    rw [check_map_withLength lowered (length f measured) others]
    cases checked : check (f.fields.putAll named) with
    | error issues => rfl
    | ok g =>
      have same := (check_eq_ok_iff.mp checked).1.2
      rw [length f measured, Except.ok.injEq] at same
      simp only [Except.map, capped_eq, withLength, same, Int.min_assoc, Int.min_self]

end Filter

/-! ## Checks with a result that is looked at from afar -/

/-- What a request comes to whose data have a verdict. -/
def Check.Verdict.answered {α : Type} (event : String) : Verdict α → Audited α
  | .ok a => pure a
  | .error issues => reject "Некорректные данные начисления" event
      [("field", (errorOfIssues issues).field?.getD .null)] (errorOfIssues issues)

/-- Names that are not the check's own are answered by the verdict on the data. -/
theorem approve_of_free {α : Type} {check : Fields → Verdict α} {event : String} {data : Fields}
    (free : clashing data = false) :
    approve check event data = (check data).answered event := by
  rcases checkSignature_bind_cases data with ⟨-, bound, fits⟩ | ⟨taken, -⟩
  · unfold approve
    rw [fits]
    cases check data <;> rfl
  · rw [free] at taken
    cases taken

/-- Two requests are approved alike when their checks come to results that look alike. -/
theorem map_approve_congr {α β : Type} {check : Fields → Verdict α} {event : String}
    {data other : Fields} {look : α → β} (free : clashing data = false)
    (free' : clashing other = false) (same : (check data).map look = (check other).map look) :
    look <$> approve check event data = look <$> approve check event other := by
  have looked : ∀ verdict : Verdict α,
      look <$> verdict.answered event = Verdict.answered event (verdict.map look) := by
    intro verdict
    cases verdict with
    | ok a => rfl
    | error issues => exact map_reject look _ _ _ _
  rw [approve_of_free free, approve_of_free free', looked, looked, same]

/-- A request that passes its check leaves no word in the log. -/
theorem approve_of_ok {α : Type} {check : Fields → Verdict α} {event : String} {data : Fields}
    {a : α} (approved : (approve check event data).outcome = .ok a) :
    approve check event data = pure a := by
  obtain ⟨⟨bound, fits⟩, passed⟩ := outcome_approve_eq_ok_iff.mp approved
  unfold approve
  rw [fits, passed]

/-! ## Filters that are built again -/

section Building

variable {limits : Limits} {f g : Filter} {first second names : Fields}

/-- A filter with names is built by checking its parts with the names put over them, also
where there are no names. -/
theorem buildFilter_ready (measured : f.Measured) (names : Fields) :
    buildFilter limits (some f) names =
      (·.capped limits.maximum) <$> approve Filter.check filterEvent (f.fields.putAll names) := by
  cases names with
  | cons first rest => rfl
  | nil =>
    have approved : approve Filter.check filterEvent (f.fields.putAll []) = pure f := by
      show approve Filter.check filterEvent f.fields = pure f
      unfold approve
      rw [Filter.check_fields measured]
      rfl
    rw [approved]
    rfl

/-- A filter that is built passed its check, and is shortened by the maximum. -/
theorem check_of_buildFilter (measured : f.Measured)
    (built : (buildFilter limits (some f) names).outcome = .ok g) :
    ∃ passed, Filter.check (f.fields.putAll names) = .ok passed ∧
      g = passed.capped limits.maximum := by
  rw [buildFilter_ready measured, Audited.outcome_map] at built
  obtain ⟨passed, approved, rfl⟩ := map_eq_ok_iff.mp built
  exact ⟨passed, (outcome_approve_eq_ok_iff.mp approved).2, rfl⟩

theorem buildFilter_of_ok (measured : f.Measured)
    (built : (buildFilter limits (some f) names).outcome = .ok g) :
    buildFilter limits (some f) names = pure g := by
  rw [buildFilter_ready measured] at built ⊢
  obtain ⟨passed, approved, rfl⟩ := map_eq_ok_iff.mp ((Audited.outcome_map _ _).symm.trans built)
  rw [approve_of_ok approved]
  rfl

/-- A filter that was built has a page length that can be asked for. -/
theorem measured_of_buildFilter (long : 1 ≤ limits.maximum) (measured : f.Measured)
    (built : (buildFilter limits (some f) names).outcome = .ok g) : g.Measured := by
  obtain ⟨passed, checked, rfl⟩ := check_of_buildFilter measured built
  exact Filter.measured_capped (Filter.measured_of_check checked) long

/-- **To build on a filter that was built** is to build at once, with the later names put
over the earlier ones. -/
theorem buildFilter_buildFilter (long : 1 ≤ limits.maximum) (measured : f.Measured)
    (tell : first.TellFilter) (tell' : second.TellFilter)
    (built : (buildFilter limits (some f) first).outcome = .ok g) :
    buildFilter limits (some g) second =
      buildFilter limits (some f) (first.putAll second) := by
  rw [buildFilter_ready (measured_of_buildFilter long measured built), buildFilter_ready measured]
  obtain ⟨passed, checked, rfl⟩ := check_of_buildFilter measured built
  have merged := Fields.get?_putAll_putAll f.fields tell.once tell'.once
  refine map_approve_congr ?_ ?_ ?_
  · rw [clashing_putAll_fields, tell'.clear]
  · rw [clashing_putAll_fields, (tell.putAll tell').clear]
  · calc (Filter.check ((passed.capped limits.maximum).fields.putAll second)).map
          (·.capped limits.maximum)
      _ = (Filter.check (passed.fields.putAll second)).map (·.capped limits.maximum) :=
        Filter.check_putAll_capped long (Filter.measured_of_check checked) tell'.once
      _ = (Filter.check ((f.fields.putAll first).putAll second)).map (·.capped limits.maximum) := by
        rw [Filter.check_putAll_of_passed checked tell'.once]
      _ = (Filter.check (f.fields.putAll (first.putAll second))).map
          (·.capped limits.maximum) := by
        rw [Filter.check_of_get?_eq merged]

/-- A filter that was built is built again as it is, with the names that it was built with
and without any. -/
theorem buildFilter_again (long : 1 ≤ limits.maximum) (measured : f.Measured)
    (tell : names.TellFilter) (built : (buildFilter limits (some f) names).outcome = .ok g) :
    buildFilter limits (some g) names = pure g ∧ buildFilter limits (some g) [] = pure g := by
  have whole : buildFilter limits (some f) names = pure g := buildFilter_of_ok measured built
  have doubled : ∀ name, (f.fields.putAll (names.putAll names)).get? name =
      (f.fields.putAll names).get? name := by
    intro name
    rw [Fields.get?_putAll _ (Fields.nodup_putAll tell.once names),
      Fields.get?_putAll _ tell.once, Fields.get?_putAll _ tell.once, Option.or_self]
  constructor
  · rw [buildFilter_buildFilter long measured tell tell built, ← whole,
      buildFilter_ready measured, buildFilter_ready measured]
    refine map_approve_congr ?_ ?_ (by rw [Filter.check_of_get?_eq doubled])
    · rw [clashing_putAll_fields, (tell.putAll tell).clear]
    · rw [clashing_putAll_fields, tell.clear]
  · exact (buildFilter_buildFilter long measured tell .empty built).trans whole

/-- The filter of the settings alone, when no part of it is named. -/
theorem check_usual (usable : limits.Usable) :
    Filter.check [("limit", .int limits.usual)] =
      .ok ⟨0, limits.usual, none, none, none, none⟩ :=
  Filter.check_eq_ok_iff.mpr ⟨⟨rfl, field_eq_ok_iff.mpr
    (.inr ⟨_, rfl, bounded_eq_ok_iff.mpr ⟨rfl, usable⟩⟩)⟩, rfl, rfl, rfl, rfl⟩

/-- **To name the parts of a filter** is to name them on top of the filter that the settings
make when no part is named. -/
theorem buildFilter_none (tell : names.TellFilter) (told : ∀ field ∈ names, field.2.isNull = false)
    (passed : Filter.check [("limit", .int limits.usual)] = .ok f) :
    buildFilter limits none names = buildFilter limits (some f) names := by
  have present : names.present = names :=
    List.filter_eq_self.mpr fun field member => by rw [told field member]; rfl
  have named : ∀ name, (namedFilter limits names).get? name =
      (Fields.putAll [("limit", .int limits.usual)] names).get? name := by
    intro name
    rw [Fields.get?_putAll _ tell.once]
    unfold namedFilter
    dsimp only
    rw [present]
    split
    · next held =>
      by_cases limit : name = "limit"
      · obtain ⟨value, there⟩ := Fields.exists_get?_of_has held
        rw [limit, there]
        rfl
      · rw [Fields.get?_cons, if_neg (Ne.symm limit)]
        exact Option.or_none.symm
    · exact Fields.get?_append names _ name
  rw [buildFilter_ready (Filter.measured_of_check passed)]
  refine map_approve_congr ?_ ?_ ?_
  · rw [clashing_namedFilter, present, tell.clear]
  · rw [clashing_putAll_fields, tell.clear]
  · rw [Filter.check_putAll_of_passed passed tell.once, Filter.check_of_get?_eq named]

end Building

/-- **Building filters composes.**  Under a maximum of at least one, whatever the names and
their values are: a filter that was built on another with some names, and is built on with
more, is the filter that is built on the first one with the later names put over the earlier;
or both are refused with the same error, and with the same words in the log.  So a filter
that was built is built again as it is, without names and with the ones it was built with.
Where the usual page length can be asked for, it makes a filter, and names that have a value
make the same filter with it as on their own. -/
theorem building_filters_composes {limits : Limits} (long : 1 ≤ limits.maximum) :
    (∀ (f g : Filter) (first second : Fields), f.Measured → first.TellFilter →
      second.TellFilter → (filterOf limits (some f) (.ofFields first)).outcome = .ok g →
        filterOf limits (some g) (.ofFields second) =
            filterOf limits (some f) (.ofFields (first.putAll second)) ∧
          filterOf limits (some g) (.ofFields first) = pure g ∧
          filterOf limits (some g) (.ofFields []) = pure g) ∧
    (limits.Usable → ∃ usual, Filter.check [("limit", .int limits.usual)] = .ok usual ∧
      ∀ names : Fields, names.TellFilter → (∀ field ∈ names, field.2.isNull = false) →
        filterOf limits none (.ofFields names) =
          filterOf limits (some usual) (.ofFields names)) := by
  refine ⟨fun f g first second measured tell tell' built => ?_, fun usable => ?_⟩
  · rw [filterOf_names _ _ tell] at built
    rw [filterOf_names _ _ tell', filterOf_names _ _ (tell.putAll tell'), filterOf_names _ _ tell,
      filterOf_names _ _ .empty]
    exact ⟨buildFilter_buildFilter long measured tell tell' built,
      buildFilter_again long measured tell built⟩
  · refine ⟨_, check_usual usable, fun names tell told => ?_⟩
    rw [filterOf_names _ _ tell, filterOf_names _ _ tell]
    exact buildFilter_none tell told (check_usual usable)

/-- A filter for the pages of a miner, told in two turns under a maximum of four: first to
skip three earnings, which comes as a text and beside a name that is no part, and then to look
at every miner, with pages of a length that is too long.  Without a ready-made filter, a
position told as a truth value is put into the filter of the usual length. -/
theorem filter_told_in_two_turns :
    let limits : Limits := ⟨100, 4⟩
    let f : Filter := ⟨0, 9, some ⟨1, by decide⟩, none, none, none⟩
    let g : Filter := ⟨3, 4, some ⟨1, by decide⟩, none, none, none⟩
    let first : Fields := [("skip", .text " 3"), ("page", .bool true)]
    let second : Fields := [("miner_id", .null), ("limit", .int 7)]
    let place : Fields := [("skip", .bool true)]
    1 ≤ limits.maximum ∧ f.Measured ∧ first.TellFilter ∧ second.TellFilter ∧
      (filterOf limits (some f) (.ofFields first)).outcome = .ok g ∧
      (filterOf limits (some g) (.ofFields second)).outcome =
        .ok ⟨3, 4, none, none, none, none⟩ ∧
      filterOf limits (some g) (.ofFields first) = pure g ∧
      limits.Usable ∧ place.TellFilter ∧ (∀ field ∈ place, field.2.isNull = false) ∧
      (filterOf limits none (.ofFields place)).outcome = .ok ⟨1, 4, none, none, none, none⟩ := by
  intro limits f g first second place
  have long : 1 ≤ limits.maximum := by decide
  have measured : f.Measured := ⟨by decide, by decide⟩
  have tell : first.TellFilter := ⟨by decide, by decide⟩
  have tell' : second.TellFilter := ⟨by decide, by decide⟩
  have built : (filterOf limits (some f) (.ofFields first)).outcome = .ok g := rfl
  obtain ⟨again, usual⟩ := building_filters_composes long
  obtain ⟨together, same, -⟩ := again f g first second measured tell tell' built
  have usable : limits.Usable := by decide
  obtain ⟨standard, made, named⟩ := usual usable
  obtain rfl : (⟨0, 100, none, none, none, none⟩ : Filter) = standard :=
    Except.ok.inj ((rfl : _ = Except.ok _).symm.trans made)
  have here : place.TellFilter := ⟨by decide, by decide⟩
  have told : ∀ field ∈ place, field.2.isNull = false := by decide
  refine ⟨long, measured, tell, tell', built, ?_, same, usable, here, told, ?_⟩
  · rw [together]
    rfl
  · rw [named place here told]
    rfl

end EarningsLedger
