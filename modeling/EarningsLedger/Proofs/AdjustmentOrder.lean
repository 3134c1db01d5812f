import EarningsLedger.Proofs.ComputedAmounts
import EarningsLedger.Proofs.RowFrames
import Mathlib.Algebra.BigOperators.Group.List.Basic

/-!
# Adjustments in any order

Differences are added to amounts one call after another, and each call reads what the calls
before it have left: the amount it adds to, and the stamp that it must get behind.  A row
nevertheless remembers no more of them than how many there were and what they add up to.
`Row.Adjusted` says so of one row, and `Table.AdjustedBy` of all rows of a table behind a list
of requests.

Which of the calls are answered does depend on their order, since no amount may become
negative on the way.  `adjustments_in_any_order` is about two orders in which all of them are:
they leave the same table.
-/

namespace EarningsLedger

open Calendar Storage Writing

/-! ## Requests -/

/-- The turns of calls that each add to an amount, all made in one environment; a request
is the identifier and the difference that are handed over. -/
def adding (env : Environment) (requests : List (Value × Value)) : List Turn :=
  requests.map fun request => ⟨env, .addAmount request.1 request.2⟩

/-- The difference that a request has for an identifier, if it has one. -/
def deltaFor? (id : Int) : Value × Value → Option Int
  | (.int asked, .int delta) => if asked = id then some delta else none
  | _ => none

/-- The differences that requests have for an identifier. -/
def deltasFor (id : Int) (requests : List (Value × Value)) : List Int :=
  requests.filterMap (deltaFor? id)

/-- Every call of some turns is answered, when they are made one after another. -/
def AllAnswered (store : Store) (turns : List Turn) : Prop :=
  ∀ event ∈ history store turns, ∃ answer, event.outcome = .ok answer

theorem allAnswered_of_all {store : Store} {turns : List Turn}
    (all : (history store turns).all (fun event => event.outcome.isOk) = true) :
    AllAnswered store turns := by
  intro event member
  have answered := List.all_eq_true.mp all event member
  cases ended : event.outcome with
  | error failure =>
    rw [ended] at answered
    cases answered
  | ok answer => exact ⟨answer, rfl⟩

theorem deltasFor_singleton (id asked delta : Int) :
    deltasFor id [(.int asked, .int delta)] = if asked = id then [delta] else [] := by
  by_cases here : asked = id <;> simp [deltasFor, deltaFor?, here]

theorem deltasFor_append (id : Int) (early late : List (Value × Value)) :
    deltasFor id (early ++ late) = deltasFor id early ++ deltasFor id late :=
  List.filterMap_append

/-! ## One row -/

/-- An earning's later states differ in the amount and the stamp of the last change only. -/
theorem Storage.Row.Became.unique {row later other : Row} (first : row.Became later)
    (second : row.Became other) (amount : later.cells.amount = other.cells.amount)
    (updated : later.cells.updated = other.cells.updated) : later = other := by
  obtain ⟨_, _, _, _, _, _, _⟩ := later
  obtain ⟨_, _, _, _, _, _, _⟩ := other
  obtain ⟨rfl, rfl, rfl, rfl, rfl⟩ := first
  obtain ⟨rfl, rfl, rfl, rfl, rfl⟩ := second
  cases amount
  cases updated
  rfl

/-- The microseconds of a stamp that was moved a number of times by a clock that stood
still. -/
def stampBehind (now stamp : Nat) : Nat → Nat
  | 0 => stamp
  | times + 1 => max now (stamp + 1) + times

theorem stampBehind_add (now stamp early late : Nat) :
    stampBehind now (stampBehind now stamp early) late = stampBehind now stamp (early + late) := by
  cases early with
  | zero => rw [Nat.zero_add, stampBehind]
  | succ early =>
    cases late with
    | zero => rfl
    | succ late =>
      rw [Nat.add_right_comm]
      show max now (max now (stamp + 1) + early + 1) + late =
        max now (stamp + 1) + (early + (late + 1))
      omega

/-- A row to whose amount a number of differences were added by one clock, together so
much. -/
structure Storage.Row.Adjusted (row later : Row) (now : Instant) (times : Nat) (total : Int) :
    Prop where
  became : row.Became later
  amount : later.cells.amount = row.cells.amount + total
  stamp : ∃ old new : Instant, row.cells.updated = old.storedText ∧
    later.cells.updated = new.storedText ∧
    new.micros = stampBehind now.micros old.micros times

namespace Storage.Row.Adjusted

variable {row middle later other : Row} {now : Instant} {early late : Nat} {some more : Int}

/-- A row to which nothing was added. -/
theorem none {updated : Instant} (stamp : row.cells.updated = updated.storedText) :
    row.Adjusted row now 0 0 :=
  ⟨.refl row, (Int.add_zero _).symm, updated, updated, stamp, stamp, rfl⟩

/-- A row to which one difference was added. -/
theorem once {updated moved : Instant} {delta : Int}
    (stamp : row.cells.updated = updated.storedText)
    (moves : moved.micros = max now.micros (updated.micros + 1)) :
    row.Adjusted (row.restamped (row.cells.amount + delta) moved) now 1 delta :=
  ⟨.restamped row _ _, rfl, updated, moved, stamp, rfl, moves⟩

theorem trans (first : row.Adjusted middle now early some)
    (second : middle.Adjusted later now late more) :
    row.Adjusted later now (early + late) (some + more) := by
  obtain ⟨old, between, was, is, one⟩ := first.stamp
  obtain ⟨again, new, same, last, two⟩ := second.stamp
  obtain rfl := Instant.storedText_injective (is.symm.trans same)
  refine ⟨first.became.trans second.became, ?_, old, new, was, last, ?_⟩
  · rw [second.amount, first.amount, Int.add_assoc]
  · rw [two, one, stampBehind_add]

/-- The number and the sum of the differences settle what becomes of a row. -/
theorem unique (first : row.Adjusted later now early some)
    (second : row.Adjusted other now early some) : later = other := by
  obtain ⟨old, new, was, is, one⟩ := first.stamp
  obtain ⟨again, last, same, ends, two⟩ := second.stamp
  obtain rfl := Instant.storedText_injective (was.symm.trans same)
  obtain rfl := Instant.ext_micros (one.trans two.symm)
  exact first.became.unique second.became (first.amount.trans second.amount.symm)
    (is.trans ends.symm)

end Storage.Row.Adjusted

/-! ## All rows -/

/-- Two relations between the items of lists, one after the other. -/
theorem forall₂_trans {α β γ : Type} {R : α → β → Prop} {S : β → γ → Prop} {T : α → γ → Prop}
    (joins : ∀ {a b c}, R a b → S b c → T a c) {as : List α} {bs : List β} {cs : List γ}
    (first : List.Forall₂ R as bs) (second : List.Forall₂ S bs cs) : List.Forall₂ T as cs := by
  induction first generalizing cs with
  | nil =>
    cases second
    exact .nil
  | cons here _ ih =>
    cases second with
    | cons there rest => exact .cons (joins here there) (ih rest)

namespace Storage.Table

/-- A table behind calls that added to amounts by one clock: of each row it remembers how
many there were for it, and their sum. -/
structure AdjustedBy (before after : Table) (now : Instant) (requests : List (Value × Value)) :
    Prop where
  rows : List.Forall₂ (fun row later => row.Adjusted later now
    (deltasFor row.id requests).length (deltasFor row.id requests).sum) before.rows after.rows
  counter : after.counter = before.counter
  trigger : after.trigger = before.trigger

namespace AdjustedBy

variable {before middle after other : Table} {now : Instant}
  {early late requests others : List (Value × Value)}

/-- A sound table to which no request was made. -/
theorem refl (sound : before.Sound) (now : Instant) : before.AdjustedBy before now [] where
  rows := List.forall₂_same.mpr fun row member => by
    obtain ⟨_, updated, -, -, last⟩ := (sound.cells row member).stamps
    exact .none last
  counter := rfl
  trigger := rfl

theorem trans (first : before.AdjustedBy middle now early)
    (second : middle.AdjustedBy after now late) : before.AdjustedBy after now (early ++ late) where
  rows := forall₂_trans (fun {row middle later} one two => by
    rw [deltasFor_append, List.length_append, List.sum_append]
    rw [one.became.id] at two
    exact one.trans two) first.rows second.rows
  counter := second.counter.trans first.counter
  trigger := second.trigger.trans first.trigger

/-- The order of the requests makes no difference. -/
theorem unique (same : requests.Perm others) (first : before.AdjustedBy after now requests)
    (second : before.AdjustedBy other now others) : after = other := by
  have deltas : ∀ id, (deltasFor id requests).Perm (deltasFor id others) :=
    fun id => same.filterMap (deltaFor? id)
  refine eq_of_parts ?_ (first.counter.trans second.counter.symm)
    (first.trigger.trans second.trigger.symm)
  refine List.right_unique_forall₂' (fun row later other one two => one.unique two) first.rows ?_
  refine second.rows.imp fun row later adjusted => ?_
  rw [(deltas row.id).length_eq, (deltas row.id).sum_eq]
  exact adjusted

end AdjustedBy

end Storage.Table

/-! ## Calls -/

/-- **An answered call for an adjustment** adds its difference to the row it is for. -/
theorem Call.Effect.adjustedBy {env : Environment} {before after : Table} {id delta : Value}
    {answer : Answer} (sound : before.Sound)
    (effect : Call.Effect env before (.addAmount id delta) answer after) :
    before.AdjustedBy after env.now [(id, delta)] := by
  cases effect with
  | read reads => cases reads
  | @amended _ n compute made _ asks key amends =>
    cases asks with
    | add _ d low high =>
      have kept : after.counter = before.counter ∧ after.trigger = before.trigger := by
        cases amends
        exact ⟨rfl, rfl⟩
      obtain ⟨row, created, updated, stamp, ⟨held, rfl⟩, ⟨-, last⟩, -, rfl, rows, -⟩ :=
        sound.of_amends amends
      have found := Table.find?_eq_some_iff.mpr ⟨held, rfl⟩
      have moves : stamp.micros = max env.now.micros (updated.micros + 1) :=
        micros_of_amends amends sound found last
      refine ⟨?_, kept.1, kept.2⟩
      rw [rows, List.forall₂_map_right_iff, List.forall₂_same]
      intro other member
      rw [deltasFor_singleton]
      by_cases here : other.id = row.id
      · obtain rfl := Table.row_unique member held here
        rw [if_pos rfl, if_pos rfl, List.sum_singleton]
        exact .once last moves
      · obtain ⟨_, stamped, -, -, text⟩ := (sound.cells other member).stamps
        rw [if_neg here, if_neg (Ne.symm here)]
        exact .none text

/-- **Adjustments that are all answered** leave every row with what they add up to for it. -/
theorem adjustedBy_of_allAnswered {env : Environment} {requests : List (Value × Value)}
    {before : Table} (sound : before.Sound)
    (answered : AllAnswered (some before) (adding env requests)) :
    ∃ after, storeAfter (some before) (adding env requests) = some after ∧
      before.AdjustedBy after env.now requests := by
  induction requests generalizing before with
  | nil => exact ⟨before, rfl, .refl sound env.now⟩
  | cons request rest ih =>
    let turn : Turn := ⟨env, .addAmount request.1 request.2⟩
    obtain ⟨⟨answer, done⟩, others⟩ := List.forall_mem_cons.mp answered
    have done : (turn.call.run env (some before)).outcome = .ok answer := done
    obtain ⟨middle, stored, effect⟩ := Call.effect_of_ok done
    have stored : (turn.reply (some before)).store = some middle := stored
    rw [stored] at others
    obtain ⟨after, left, adjusted⟩ := ih (sound.effect effect) others
    refine ⟨after, ?_, (effect.adjustedBy sound).trans adjusted⟩
    show storeAfter (turn.reply (some before)).store (adding env rest) = some after
    rw [stored, left]

/-- **Adjustments in any order.**  Behind any run, by any clock that stands still: a list of
calls that add to amounts, of any earnings and as often as one likes, and the same calls in
another order leave the same table to the last field, provided that all calls are answered in
both orders.  Every row has then the amount that it had and all that was added to it, and the
stamp that so many changes give it. -/
theorem adjustments_in_any_order (trigger : Bool) (turns : List Turn) (env : Environment)
    {requests others : List (Value × Value)} (same : requests.Perm others) :
    ∃ before, storeAfter (freshStore trigger) turns = some before ∧
      (AllAnswered (some before) (adding env requests) →
        AllAnswered (some before) (adding env others) →
        ∃ after, storeAfter (some before) (adding env requests) = some after ∧
          storeAfter (some before) (adding env others) = some after ∧
          List.Forall₂ (fun row later => row.Adjusted later env.now
            (deltasFor row.id requests).length (deltasFor row.id requests).sum)
            before.rows after.rows) := by
  obtain ⟨before, left, sound⟩ := sound_after trigger turns
  refine ⟨before, left, fun answered answered' => ?_⟩
  obtain ⟨after, first, adjusted⟩ := adjustedBy_of_allAnswered sound answered
  obtain ⟨other, second, adjusted'⟩ := adjustedBy_of_allAnswered sound answered'
  obtain rfl := adjusted.unique same adjusted'
  exact ⟨after, first, second, adjusted.rows⟩

/-- Two earnings of five: two is taken from the first twice and then four added to it, or
once and then the same again behind the four; the second is raised in between. -/
theorem two_earnings_adjusted_in_two_orders :
    let now : Instant := ⟨10, by decide⟩
    let env : Environment := .usual now
    let item : Value := .ofFields fiveAsked
    let turns : List Turn := [⟨env, .createBatch (.list [item, item])⟩]
    let take : Value × Value := (.int 1, .int (-2))
    let give : Value × Value := (.int 1, .int 4)
    let raise : Value × Value := (.int 2, .int 9)
    [take, take, give, raise].Perm [take, raise, give, take] ∧
      ∃ before after, storeAfter (freshStore true) turns = some before ∧
        AllAnswered (some before) (adding env [take, take, give, raise]) ∧
        AllAnswered (some before) (adding env [take, raise, give, take]) ∧
        storeAfter (some before) (adding env [take, take, give, raise]) = some after ∧
        storeAfter (some before) (adding env [take, raise, give, take]) = some after ∧
        after.rows.map (fun row => row.cells.amount) = [5, 14] := by
  intro now env item turns take give raise
  have same : [take, take, give, raise].Perm [take, raise, give, take] :=
    (List.reverse_perm [take, give, raise]).symm.cons take
  obtain ⟨before, left, settles⟩ := adjustments_in_any_order true turns env same
  have first : AllAnswered (some before) (adding env [take, take, give, raise]) := by
    rw [← left]
    exact allAnswered_of_all (by decide +kernel)
  have second : AllAnswered (some before) (adding env [take, raise, give, take]) := by
    rw [← left]
    exact allAnswered_of_all (by decide +kernel)
  obtain ⟨after, one, two, rows⟩ := settles first second
  refine ⟨same, before, after, left, first, second, one, two, ?_⟩
  have held : before.rows = [fiveRow now, ⟨2, (fiveRow now).cells⟩] := by
    obtain rfl := Option.some.inj left
    rfl
  have amounts : after.rows.map (fun row => row.cells.amount) = before.rows.map fun row =>
      row.cells.amount + (deltasFor row.id [take, take, give, raise]).sum := by
    rw [eq_comm, ← List.forall₂_eq_eq_eq, List.forall₂_map_left_iff, List.forall₂_map_right_iff]
    exact rows.imp fun row later adjusted => adjusted.amount.symm
  rw [amounts, held]
  rfl

end EarningsLedger
