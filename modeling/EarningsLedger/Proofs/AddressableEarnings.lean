import EarningsLedger.Proofs.ComputedAmounts
import EarningsLedger.Proofs.FittingIdentifiers
import EarningsLedger.Proofs.LedgerRefinement

/-!
# Which earnings can be asked for again

A call that opens earnings or lists them hands out what stands in the table, under the
identifiers that the table has given.  A later call names an earning by a number, and looks
at no row unless the number can be a key.

So what was handed out can be asked for again as long as its identifier is a key, whatever
was done to the table before.  Behind the largest key the table goes on counting, and what is
opened there cannot be found.
-/

namespace EarningsLedger

open Calendar Storage Writing

/-! ## Earnings in answers -/

/-- The earnings in an answer. -/
def Answer.shown : Answer → List Earning
  | earning one => [one]
  | earnings many => many
  | _ => []

/-- The calls that open earnings or list them. -/
def Call.handsOut : Call → Bool
  | create _ => true
  | createBatch _ => true
  | query _ _ => true
  | _ => false

/-- An earning that a table shows under its identifier. -/
def Storage.Table.Shows (table : Table) (earning : Earning) : Prop :=
  ∃ row, table.find? earning.id = some row ∧ Earning.ofRow row = .ok earning

variable {env : Environment} {before after table : Table} {earning : Earning}

/-- Every row of a table is shown. -/
theorem Storage.Table.Shows.of_mem {row : Row} (member : row ∈ table.rows)
    (read : Earning.ofRow row = .ok earning) : table.Shows earning := by
  obtain ⟨created, first, rest⟩ := bind_eq_ok_iff.mp read
  obtain ⟨updated, last, whole⟩ := bind_eq_ok_iff.mp rest
  obtain rfl := Except.ok.inj whole
  exact ⟨row, Table.find?_eq_some_iff.mpr ⟨member, rfl⟩, read⟩

/-- The rows that are stored for drafts make the earnings of the drafts. -/
theorem Writing.mapM_ofRow_numbered (now : Instant) (next : Int) (drafts : List Draft) :
    (numbered next (cellsAt now drafts)).mapM Earning.ofRow =
      .ok (earningsFrom now next drafts) := by
  induction drafts generalizing next with
  | nil => rfl
  | cons draft rest ih =>
    have first : Earning.ofRow ⟨next, Earning.cellsOf draft now⟩ =
        .ok (Earning.ofDraft draft now next) := Earning.ofRow_eq_ok rfl rfl
    show List.mapM _ (_ :: numbered (next + 1) (cellsAt now rest)) = _
    rw [List.mapM_cons, first, ih (next + 1)]
    rfl

/-- Earnings that were just opened are shown. -/
theorem Writing.Stores.shows {drafts : List Draft} (stores : Stores env drafts before after)
    (opened : earning ∈ earningsFrom env.now (before.highest + 1) drafts) :
    after.Shows earning := by
  have read := mapM_eq_ok_iff.mp (mapM_ofRow_numbered env.now (before.highest + 1) drafts)
  obtain ⟨row, stored, here⟩ := exists_of_forall₂_right read opened
  refine .of_mem ?_ here
  rw [stores.grown]
  exact List.mem_append_right _ stored

/-- Earnings on a page are shown. -/
theorem Reading.shows_of_pageRows {f : Filter} {listed : List Earning}
    (read : pageRows env (some table) f = .ok listed) (member : earning ∈ listed) :
    table.Shows earning := by
  obtain ⟨row, picked, here⟩ :=
    exists_of_forall₂_right (mapM_eq_ok_iff.mp (pageRows_of_ok read)) member
  exact .of_mem (mem_of_mem_page picked) here

/-- **What a call hands out stands in the table that it leaves.** -/
theorem Call.shows_of_handsOut {call : Call} (hands : call.handsOut = true) {answer : Answer}
    (done : (call.run env (some before)).outcome = .ok answer) :
    ∃ after, (call.run env (some before)).store = some after ∧
      ∀ earning ∈ answer.shown, after.Shows earning := by
  obtain ⟨after, stored, effect⟩ := effect_of_ok done
  refine ⟨after, stored, fun earning given => ?_⟩
  cases effect with
  | read reads =>
    cases call with
    | query ready named =>
      obtain ⟨f, listed, -, read, rfl⟩ := page_of_query done
      exact Reading.shows_of_pageRows read given
    | create arguments => cases reads
    | createBatch batch => cases reads
    | _ => cases hands
  | created admitted stores => exact stores.shows given
  | createdNone admitted => cases given
  | createdMany admitted some stores => exact stores.shows given
  | amended asks key amends => cases asks <;> cases hands

/-! ## Asking for them again -/

/-- An earning that calls find in a store: what is read under its identifier is the earning
itself, and a change of its amount does not miss it. -/
structure Earning.Found (earning : Earning) (env : Environment) (store : Store) : Prop where
  read : ((Call.get (.int earning.id)).run env store).outcome = .ok (.earning earning)
  set : ∀ amount : Amount,
    ((Call.updateAmount (.int earning.id) (.int amount.val)).run env store).outcome ≠
      .error (.ledger (.notFound (.int earning.id)))

/-- An earning that no call can find in a store: nothing is read under its identifier, and a
change of its amount raises that it is not there. -/
structure Earning.Lost (earning : Earning) (env : Environment) (store : Store) : Prop where
  read : ((Call.get (.int earning.id)).run env store).outcome = .ok .nothing
  set : ∀ amount : Amount,
    ((Call.updateAmount (.int earning.id) (.int amount.val)).run env store).outcome =
      .error (.ledger (.notFound (.int earning.id)))

/-- What a table shows under a key is found. -/
theorem Storage.Table.Shows.found (stands : table.Shows earning) (calm : env.injection = none)
    (key : isKey earning.id = true) : earning.Found env (some table) := by
  obtain ⟨row, found, read⟩ := stands
  have calmly := strike_of_calm calm
  constructor
  · have looked : Reading.earningAt env (some table) earning.id = .ok (some earning) := by
      rw [Reading.earningAt_of_calm table (calmly .get), found, Option.elim_some, read]
      rfl
    exact (Call.outcome_get (Reading.outcome_get_of_key key looked)).1
  · intro amount missing
    have gone := (Call.updateAmount_notFound_iff table (calmly .execute) key amount).mp missing
    rw [found] at gone
    cases gone

/-- What a table with identifiers that fit shows has an identifier that a text can show. -/
theorem Storage.Table.Shows.isShort (stands : table.Shows earning) (fitting : table.Fitting) :
    Text.isShort earning.id = true := by
  obtain ⟨row, found, -⟩ := stands
  obtain ⟨member, same⟩ := Table.find?_eq_some_iff.mp found
  have bounds := fitting.ids row member
  simp only [storedLow, storedHigh] at bounds
  exact isShort_of_small (by omega)

/-- Under a number that is no key nothing is found, whatever the store holds. -/
theorem Earning.lost_of_no_key (beyond : isKey earning.id = false)
    (short : Text.isShort earning.id = true) (env : Environment) (store : Store) :
    earning.Lost env store := by
  have plain : ¬ isKey earning.id = true := Bool.eq_false_iff.mp beyond
  constructor
  · have looked : (Reading.get env store (.int earning.id)).outcome = .ok none := by
      refine Audited.outcome_bind_eq_ok_iff.mpr ⟨earning.id, rfl, ?_⟩
      rw [if_neg plain]
      rfl
    exact (Call.outcome_get looked).1
  · intro amount
    have missed := Call.outcome_of_asks_of_no_key (.update earning.id amount) beyond env store
    rw [LedgerError.raised_of_worded ((LedgerError.isWorded_notFound _).trans short)] at missed
    exact missed

/-- A new earning can be found as long as no row has ever had the last key, or a number
behind it: the rows that are gone count as well. -/
theorem Earning.key_of_opened_iff (trigger : Bool) (acts : List Act)
    (keeps : ∀ act ∈ acts, act.keepsIds = true) {turn : Turn} {arguments : Fields}
    (asked : turn.call = .create arguments)
    (done : (turn.reply (storeLeft (freshStore trigger) acts)).outcome = .ok (.earning earning)) :
    isKey earning.id = true ↔ ∀ id ∈ everUsed (freshStore trigger) acts, id < keyHigh := by
  have fresh : (Table.empty trigger).Remembers [] :=
    ⟨fun row member => absurd member List.not_mem_nil, rfl⟩
  obtain ⟨before, left, remembers⟩ := remembers_after acts keeps fresh
  rw [show storeLeft (freshStore trigger) acts = some before from left] at done
  obtain ⟨after, -, effect⟩ := Call.effect_of_ok done
  rw [asked] at effect
  obtain ⟨opened, same, behind⟩ := effect.single
  obtain rfl := Answer.earning.inj same
  rw [List.nil_append] at remembers
  have number : earning.id = largest (everUsed (freshStore trigger) acts) + 1 := by
    rw [behind, remembers.counted.highest_eq, remembers.counter]
    rfl
  have floor : 0 ≤ largest (everUsed (freshStore trigger) acts) :=
    (foldl_max_le_iff.mp (Int.le_refl _)).1
  rw [isKey_iff, number]
  simp only [keyLow, keyHigh]
  constructor
  · intro bounds id used
    have below := le_largest used
    omega
  · intro below
    have last : largest (everUsed (freshStore trigger) acts) ≤ 2147483646 :=
      foldl_max_le_iff.mpr ⟨by decide, fun id used => Int.le_of_lt_add_one (below id used)⟩
    omega

/-- **What was handed out can be asked for again.**  Behind any run of calls and plain
statements, an earning that a call opens or lists is found in the table that the call leaves, by
every reader that no fault strikes, if its identifier is a key: what is read is the same earning
to the last field, and no amount that is set for it misses it.  If its identifier is no key,
it is not found at all. -/
theorem shown_earnings_found_again (trigger : Bool) (acts : List Act) (turn : Turn)
    (hands : turn.call.handsOut = true) {answer : Answer}
    (done : (turn.reply (storeLeft (freshStore trigger) acts)).outcome = .ok answer)
    {reader : Environment} (calm : reader.injection = none) :
    let left := (turn.reply (storeLeft (freshStore trigger) acts)).store
    ∀ earning ∈ answer.shown,
      (isKey earning.id = true → earning.Found reader left) ∧
      (isKey earning.id = false → earning.Lost reader left) := by
  intro left earning given
  obtain ⟨before, behind, early⟩ := fitting_after acts (Table.fitting_empty trigger)
  have behind : storeLeft (freshStore trigger) acts = some before := behind
  rw [behind] at done
  obtain ⟨after, stored, standing⟩ := Call.shows_of_handsOut hands done
  obtain ⟨_, same, fitting⟩ := (Act.call turn).fitting early
  cases stored.symm.trans same
  have stored : left = some after := (congrArg (fun store => (turn.reply store).store) behind).trans stored
  have stands := standing earning given
  rw [stored]
  exact ⟨stands.found calm, fun beyond =>
    Earning.lost_of_no_key beyond (stands.isShort fitting) reader _⟩

/-- A row put in by hand in front of the last key: of two earnings opened behind it, the first
gets the last key and is found, and the second gets a number that is no key and is lost. -/
theorem batch_across_last_key :
    let now : Instant := ⟨10, by decide⟩
    let env : Environment := .usual now
    let told : Fields := [("miner_id", .int 1), ("pool_id", .int 2), ("challenge_id", .int 3)]
    let item : Value := .ofFields told
    let acts : List Act := [.plain now (.insert (("id", .int 2147483646) :: told))]
    let turn : Turn := ⟨env, .createBatch (.list [item, item])⟩
    let earning (id : Int) : Earning := ⟨id, 1, 2, 3, 0, .plain now, .plain now⟩
    turn.call.handsOut = true ∧ env.injection = none ∧
    ∃ before, storeLeft (freshStore true) acts = some before ∧
      (turn.reply (some before)).outcome =
        .ok (.earnings [earning 2147483647, earning 2147483648]) ∧
      (earning 2147483647).Found env (turn.reply (some before)).store ∧
      (earning 2147483648).Lost env (turn.reply (some before)).store := by
  intro now env told item acts turn earning
  obtain ⟨before, left⟩ : ∃ before, storeLeft (freshStore true) acts = some before := ⟨_, rfl⟩
  have done : (turn.reply (some before)).outcome =
      .ok (.earnings [earning 2147483647, earning 2147483648]) := by
    rw [← left]
    rfl
  rw [← left] at done
  have again := shown_earnings_found_again true acts turn rfl done (rfl : env.injection = none)
  rw [left] at done again
  refine ⟨rfl, rfl, before, left, done, ?_, ?_⟩
  · exact (again _ List.mem_cons_self).1 (by decide)
  · exact (again _ (List.mem_cons_of_mem _ List.mem_cons_self)).2 (by decide)

/-- The last key was given by hand: the next earning that is opened is handed out with the
number behind it, and the ledger that has just handed it out knows nothing of it. -/
theorem earning_behind_last_key :
    let now : Instant := ⟨10, by decide⟩
    let env : Environment := .usual now
    let told : Fields := [("miner_id", .int 1), ("pool_id", .int 2), ("challenge_id", .int 3)]
    let acts : List Act := [.plain now (.insert (("id", .int 2147483647) :: told))]
    let turn : Turn := ⟨env, .create told⟩
    let store := storeLeft (freshStore true) acts
    let after := (turn.reply store).store
    ∃ earning, (turn.reply store).outcome = .ok (.earning earning) ∧ earning.id = 2147483648 ∧
      ((Call.get (.int earning.id)).run env after).outcome = .ok .nothing ∧
      ((Call.updateAmount (.int earning.id) (.int 7)).run env after).outcome =
        .error (.ledger (.notFound (.int earning.id))) := by
  intro now env told acts turn store after
  let earning : Earning := ⟨2147483648, 1, 2, 3, 0, .plain now, .plain now⟩
  have short : Text.isShort earning.id = true := by decide
  have lost : earning.Lost env after := Earning.lost_of_no_key rfl short env after
  exact ⟨earning, rfl, rfl, lost.read, lost.set ⟨7, rfl⟩⟩

end EarningsLedger
