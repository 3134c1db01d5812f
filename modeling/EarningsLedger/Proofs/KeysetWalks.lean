import EarningsLedger.Proofs.OwnerPages
import EarningsLedger.Proofs.TableLineage
import Mathlib.Data.List.Nodup

/-!
# Walks from page to page

A caller walks through the earnings of an owner: a page from the beginning, and then each
time a page behind the last identifier that was shown.  Between two pages anything may be
done to the ledger, and rows may be deleted behind its back.  `walk` is such a walk.

`Stands` says how far a walk has come: what was shown ascends, and holds every row of the
beginning that is not behind the last identifier seen and is still there.  A page keeps
this (`Stands.page`), and so does whatever is done behind it (`Stands.moves`), because the
tables of a walk descend from each other.  `walk_shows_what_stays` draws the conclusion:
nothing is shown twice, and behind a page that is not full nothing that stayed is missing.
-/

namespace EarningsLedger

open Storage

/-! ## Walks -/

/-- A leg of a walk: a page of some length, asked for by names or with a ready-made filter,
and what is done to the ledger behind it. -/
structure Leg where
  env : Environment
  ready : Bool
  limit : Int
  moves : List Move

namespace Leg

/-- How many earnings the page of a leg holds at most. -/
def room (leg : Leg) : Nat := (min leg.limit leg.env.limits.maximum).toNat

/-- A page of a length that may be asked for, whose statement is not struck. -/
structure Fair (leg : Leg) : Prop where
  low : 1 ≤ leg.limit
  high : leg.limit ≤ PageBounds.longestLimit
  long : 1 ≤ leg.env.limits.maximum
  calm : strike leg.env.injection .execute = .ok ()

end Leg

/-- The last identifier seen behind a reply: that of the last earning it shows, if any. -/
def lastSeen (seen : Option Int) : Except Failure Answer → Option Int
  | .ok (.earnings page) => (page.map Earning.id).getLast?.or seen
  | _ => seen

/-- What a walk is replied leg by leg, and the store that it leaves behind. -/
def walk (wanted : Wanted) : Store → Option Int → List Leg → List (Except Failure Answer) × Store
  | store, _, [] => ([], store)
  | store, seen, leg :: rest =>
    let reply := (wanted.request leg.ready leg.limit seen).run leg.env store
    let later := walk wanted (storeBehind reply.store leg.moves) (lastSeen seen reply.outcome) rest
    (reply.outcome :: later.1, later.2)

/-! ## Ascending identifiers -/

/-- The last of ascending numbers is the largest. -/
theorem le_of_getLast? {ids : List Int} (sorted : ids.Pairwise (· < ·)) {top : Int}
    (last : ids.getLast? = some top) {id : Int} (member : id ∈ ids) : id ≤ top := by
  obtain ⟨front, rfl⟩ := List.getLast?_eq_some_iff.mp last
  rcases List.mem_append.mp member with inside | here
  · have below := (List.pairwise_append.mp sorted).2.2 id inside top List.mem_cons_self
    omega
  · rw [List.mem_singleton.mp here]

theorem pairwise_ids {rows : List Row} (sorted : Ascending rows) :
    (rows.map Row.id).Pairwise (· < ·) :=
  List.pairwise_map.mpr sorted

/-- What is not behind the last row of a first part belongs to that part. -/
theorem mem_take_of_le {rows : List Row} (sorted : Ascending rows) {n : Nat} {top : Int}
    (last : ((rows.take n).map Row.id).getLast? = some top) {row : Row} (member : row ∈ rows)
    (low : row.id ≤ top) : row ∈ rows.take n := by
  rw [← List.take_append_drop n rows] at member sorted
  rcases List.mem_append.mp member with inside | later
  · exact inside
  · obtain ⟨other, drawn, rfl⟩ := List.mem_map.mp (List.mem_of_getLast? last)
    have above := (List.pairwise_append.mp sorted).2.2 other drawn row later
    omega

/-! ## How far a walk has come -/

/-- A row of the same owner is the owner's later as well. -/
theorem Wanted.Owns.became {wanted : Wanted} {row later : Row} (owns : wanted.Owns row)
    (became : row.Became later) : wanted.Owns later := by
  obtain ⟨miner, pool, challenge⟩ := owns
  refine ⟨fun key asked => ?_, fun key asked => ?_, fun key asked => ?_⟩
  · rw [became.miner, miner key asked]
  · rw [became.pool, pool key asked]
  · rw [became.challenge, challenge key asked]

/-- Everything of the owner that was there at the beginning and still is was shown. -/
def Complete (wanted : Wanted) (start now : Table) (shown : List Int) : Prop :=
  ∀ row ∈ start.rows, wanted.Owns row → (∃ later ∈ now.rows, later.id = row.id) → row.id ∈ shown

/-- How far a walk has come that began on one table and now looks at another. -/
structure Stands (wanted : Wanted) (start now : Table) (seen : Option Int) (shown : List Int) :
    Prop where
  roomy : now.Roomy
  descends : start.Descends now
  ascending : shown.Pairwise (· < ·)
  within : ∀ id ∈ shown, ∃ top, seen = some top ∧ id ≤ top
  bounds : ∀ top, seen = some top → 0 ≤ top ∧ top ≤ now.highest
  covered : ∀ row ∈ start.rows, wanted.Owns row → (∃ later ∈ now.rows, later.id = row.id) →
    (∃ top, seen = some top ∧ row.id ≤ top) → row.id ∈ shown

variable {wanted : Wanted} {start now after : Table} {seen : Option Int} {shown : List Int}

theorem Stands.begin (wanted : Wanted) (roomy : start.Roomy) : Stands wanted start start none [] where
  roomy := roomy
  descends := .refl start
  ascending := .nil
  within _ member := nomatch member
  bounds _ same := nomatch same
  covered _ _ _ _ whole := by
    obtain ⟨_, same, -⟩ := whole
    cases same

/-- What is there behind some moves was there before them. -/
theorem still_there (descends : start.Descends now) (moved : now.Descends after) {row : Row}
    (member : row ∈ start.rows) (there : ∃ later ∈ after.rows, later.id = row.id) :
    ∃ later ∈ now.rows, later.id = row.id := by
  obtain ⟨later, held, same⟩ := there
  have low : later.id ≤ now.highest := by
    have below := Table.id_le_highest member
    have top := descends.top
    omega
  obtain ⟨old, before, became⟩ := moved.rows later held low
  exact ⟨old, before, became.id.symm.trans same⟩

/-- Whatever is done behind a page, the walk stands where it stood. -/
theorem Stands.moves (stands : Stands wanted start now seen shown) (roomy : after.Roomy)
    (moved : now.Descends after) : Stands wanted start after seen shown where
  roomy := roomy
  descends := stands.descends.trans moved
  ascending := stands.ascending
  within := stands.within
  bounds top same := by
    have bounds := stands.bounds top same
    have top := moved.top
    omega
  covered row member owns there low :=
    stands.covered row member owns (still_there stands.descends moved member there) low

theorem Complete.moves (complete : Complete wanted start now shown)
    (descends : start.Descends now) (moved : now.Descends after) :
    Complete wanted start after shown :=
  fun row member owns there => complete row member owns (still_there descends moved member there)

theorem Complete.append (complete : Complete wanted start now shown) (ids : List Int) :
    Complete wanted start now (shown ++ ids) :=
  fun row member owns there => List.mem_append_left ids (complete row member owns there)

/-- What was there at the beginning and still is was shown, or is behind the last
identifier seen. -/
theorem Stands.shown_or_behind (stands : Stands wanted start now seen shown) {row later : Row}
    (member : row ∈ start.rows) (owns : wanted.Owns row) (there : later ∈ now.rows)
    (same : later.id = row.id) :
    row.id ∈ shown ∨ (later ∈ wanted.behind now seen ∧ ∀ top, seen = some top → top < row.id) := by
  by_cases low : ∃ top, seen = some top ∧ row.id ≤ top
  · exact .inl (stands.covered row member owns ⟨later, there, same⟩ low)
  · have above : ∀ top, seen = some top → top < row.id := by
      intro top last
      by_contra high
      exact low ⟨top, last, Int.not_lt.mp high⟩
    have old : later.id ≤ start.highest := by
      have below := Table.id_le_highest member
      omega
    obtain ⟨first, held, became⟩ := stands.descends.rows later there old
    obtain rfl := Table.row_unique held member (became.id.symm.trans same)
    refine .inr ⟨(Wanted.mem_behind fun id last => (stands.bounds id last).1).mpr
      ⟨there, owns.became became, ?_⟩, above⟩
    rw [same]
    exact above

/-- Where every row behind the last identifier seen is shown, nothing is missing. -/
theorem Stands.complete (stands : Stands wanted start now seen shown) {ids : List Int}
    (whole : ∀ row ∈ wanted.behind now seen, row.id ∈ ids) :
    Complete wanted start now (shown ++ ids) := by
  rintro row member owns ⟨later, there, same⟩
  rcases stands.shown_or_behind member owns there same with earlier | ⟨behind, -⟩
  · exact List.mem_append_left _ earlier
  · have drawn := whole later behind
    rw [same] at drawn
    exact List.mem_append_right _ drawn

/-- **A page takes a walk further**, and completes it when it is not full. -/
theorem Stands.page (stands : Stands wanted start now seen shown) {n : Nat} {ids : List Int}
    (page : ids = ((wanted.behind now seen).take n).map Row.id) :
    Stands wanted start now (ids.getLast?.or seen) (shown ++ ids) ∧
      (ids.length < n → Complete wanted start now (shown ++ ids)) := by
  have positive : ∀ id, seen = some id → 0 ≤ id := fun id last => (stands.bounds id last).1
  have sorted := wanted.ascending_behind now seen
  have ascending : ids.Pairwise (· < ·) := by
    rw [page]
    exact pairwise_ids (sorted.sublist (List.take_sublist n _))
  have drawn : ∀ id ∈ ids, (0 < id ∧ id ≤ now.highest) ∧ ∀ top, seen = some top → top < id := by
    intro id member
    rw [page] at member
    obtain ⟨row, taken, rfl⟩ := List.mem_map.mp member
    obtain ⟨held, -, above⟩ := (Wanted.mem_behind positive).mp (List.mem_of_mem_take taken)
    exact ⟨⟨(stands.roomy.sound.ids row held).1, Table.id_le_highest held⟩, above⟩
  constructor
  · cases last : ids.getLast? with
    | none =>
      have empty : ids = [] := List.getLast?_eq_none_iff.mp last
      rw [empty, List.append_nil]
      exact stands
    | some top =>
      have here : top ∈ ids := List.mem_of_getLast? last
      refine ⟨stands.roomy, stands.descends, ?_, ?_, ?_, ?_⟩
      · refine List.pairwise_append.mpr ⟨stands.ascending, ascending, fun id before other new => ?_⟩
        obtain ⟨old, was, low⟩ := stands.within id before
        have above := (drawn other new).2 old was
        omega
      · intro id member
        refine ⟨top, rfl, ?_⟩
        rcases List.mem_append.mp member with before | new
        · obtain ⟨old, was, low⟩ := stands.within id before
          have above := (drawn top here).2 old was
          omega
        · exact le_of_getLast? ascending last new
      · rintro _ ⟨⟩
        have bounds := (drawn top here).1
        omega
      · rintro row member owns ⟨later, there, same⟩ ⟨_, ⟨⟩, low⟩
        rcases stands.shown_or_behind member owns there same with earlier | ⟨behind, -⟩
        · exact List.mem_append_left _ earlier
        · rw [page] at last
          have taken : later ∈ (wanted.behind now seen).take n :=
            mem_take_of_le sorted last behind (by omega)
          refine List.mem_append_right _ ?_
          rw [page, ← same]
          exact List.mem_map_of_mem taken
  · intro short
    have all : (wanted.behind now seen).take n = wanted.behind now seen := by
      rw [page, List.length_map, List.length_take] at short
      exact List.take_of_length_le (by omega)
    refine stands.complete fun row behind => ?_
    rw [page, all]
    exact List.mem_map_of_mem behind

/-! ## Whole walks -/

theorem Wanted.store_request (wanted : Wanted) (env : Environment) (store : Store) (ready : Bool)
    (limit : Int) (seen : Option Int) :
    ((wanted.request ready limit seen).run env store).store = store := by
  cases ready <;> rfl

/-- A page that is not full, at some leg of a walk. -/
def FallsShort (legs : List Leg) (pages : List (List Earning)) : Prop :=
  ∃ leg page, (leg, page) ∈ legs.zip pages ∧ page.length < leg.room

/-- The identifiers on pages, in the order in which they were shown. -/
def idsOf (pages : List (List Earning)) : List Int := pages.flatten.map Earning.id

theorem idsOf_nil : idsOf [] = [] := rfl

theorem idsOf_cons (page : List Earning) (pages : List (List Earning)) :
    idsOf (page :: pages) = page.map Earning.id ++ idsOf pages := by
  rw [idsOf, List.flatten_cons, List.map_append]
  rfl

/-- **A walk goes on as far as its legs take it**: every request is answered with a page,
and where nothing was missing before, or a page is not full, nothing is missing behind it. -/
theorem Stands.walk (stands : Stands wanted start now seen shown) {legs : List Leg}
    (fair : ∀ leg ∈ legs, leg.Fair) :
    ∃ last pages top, EarningsLedger.walk wanted (some now) seen legs =
        (pages.map fun page => .ok (.earnings page), some last) ∧
      Stands wanted start last top (shown ++ idsOf pages) ∧
      (Complete wanted start now shown ∨ FallsShort legs pages →
        Complete wanted start last (shown ++ idsOf pages)) := by
  induction legs generalizing now seen shown with
  | nil =>
    refine ⟨now, [], seen, rfl, ?_, ?_⟩
    · rw [idsOf_nil, List.append_nil]
      exact stands
    · rw [idsOf_nil, List.append_nil]
      rintro (complete | ⟨leg, page, member, -⟩)
      · exact complete
      · cases member
  | cons leg rest ih =>
    have here : leg.Fair := fair leg List.mem_cons_self
    have fits : ∀ id, seen = some id → 0 ≤ id ∧ id ≤ storedHigh := fun id same =>
      ⟨(stands.bounds id same).1, Int.le_trans (stands.bounds id same).2 stands.roomy.room⟩
    obtain ⟨page, answered, ids⟩ := wanted.outcome_request stands.roomy.sound here.calm leg.ready
      here.low here.high here.long fits
    obtain ⟨further, full⟩ := stands.page ids
    obtain ⟨after, left, roomy, moved⟩ := lineage leg.moves stands.roomy
    obtain ⟨last, pages, top, walked, still, completes⟩ :=
      ih (further.moves roomy moved) fun other member => fair other (List.mem_cons_of_mem _ member)
    have whole : shown ++ idsOf (page :: pages) = shown ++ page.map Earning.id ++ idsOf pages := by
      rw [idsOf_cons, List.append_assoc]
    refine ⟨last, page :: pages, top, ?_, whole ▸ still, fun either => whole ▸ completes ?_⟩
    · rw [EarningsLedger.walk, answered, wanted.store_request, left]
      exact congrArg (fun later => (.ok (.earnings page) :: later.1, later.2)) walked
    · rcases either with complete | ⟨other, shorter, member, short⟩
      · exact .inl ((complete.append _).moves stands.descends moved)
      · rw [List.zip_cons_cons] at member
        rcases List.mem_cons.mp member with same | later
        · cases same
          refine .inl ((full ?_).moves stands.descends moved)
          rw [List.length_map]
          exact short
        · exact .inr ⟨other, shorter, later, short⟩

/-- **A walk shows what stays, and shows it once.**  A walk that begins behind any run, on
a table that others go on working with, is answered page by page; the identifiers that it
shows ascend.  When a page is not full, every row of the owner that was there when the walk
began, and still is when it ends, was shown exactly once. -/
theorem walk_shows_what_stays (trigger : Bool) (turns : List Turn) (wanted : Wanted)
    (legs : List Leg) (fair : ∀ leg ∈ legs, leg.Fair) :
    ∃ start last pages, storeAfter (freshStore trigger) turns = some start ∧
      walk wanted (some start) none legs =
        (pages.map fun page => .ok (.earnings page), some last) ∧
      (idsOf pages).Pairwise (· < ·) ∧
      (FallsShort legs pages → ∀ row ∈ start.rows, wanted.Owns row →
        (∃ later ∈ last.rows, later.id = row.id) → (idsOf pages).count row.id = 1) := by
  obtain ⟨start, left, roomy⟩ := roomy_after trigger turns
  obtain ⟨last, pages, top, walked, stands, completes⟩ := (Stands.begin wanted roomy).walk fair
  have ascending : (idsOf pages).Pairwise (· < ·) := stands.ascending
  refine ⟨start, last, pages, left, walked, ascending, fun short row member owns there => ?_⟩
  have shown : row.id ∈ idsOf pages := completes (.inr short) row member owns there
  have once : (idsOf pages).Nodup := ascending.imp fun lower => Int.ne_of_lt lower
  exact List.count_eq_one_of_mem once shown

/-- Two pages of a miner with three earnings among four: the row that ended the first page
is deleted behind it, and another earning is opened.  The second page goes on behind that
row and is not full. -/
theorem walk_past_deleted_row :
    let calm : Environment := .usual ⟨0, by decide⟩
    let item (miner : Int) : Value := .dict [(.text "miner_id", .int miner),
      (.text "pool_id", .int 1), (.text "challenge_id", .int 1), (.text "amount", .int 2)]
    let turns : List Turn :=
      [⟨calm, .createBatch (.list [item 5, item 6, item 5, item 5])⟩]
    let wanted : Wanted := ⟨some ⟨5, by decide⟩, none, none⟩
    let legs : List Leg :=
      [⟨calm, false, 2, [.delete calm.now (.int 3), .call ⟨calm, .createBatch (.list [item 5])⟩]⟩,
        ⟨calm, true, 3, []⟩]
    (∀ leg ∈ legs, leg.Fair) ∧
      ∃ start last pages, storeAfter (freshStore true) turns = some start ∧
        walk wanted (some start) none legs =
          (pages.map fun page => .ok (.earnings page), some last) ∧
        pages.map (List.map Earning.id) = [[1, 3], [4, 5]] ∧ FallsShort legs pages ∧
        ∀ row ∈ start.rows, wanted.Owns row → (∃ later ∈ last.rows, later.id = row.id) →
          (idsOf pages).count row.id = 1 := by
  intro calm item turns wanted legs
  have fair : ∀ leg ∈ legs, leg.Fair := by
    intro leg member
    rcases List.mem_cons.mp member with rfl | member
    · exact ⟨by decide, by decide, by decide, rfl⟩
    · cases List.mem_singleton.mp member
      exact ⟨by decide, by decide, by decide, rfl⟩
  obtain ⟨start, last, pages, left, walked, -, shows⟩ :=
    walk_shows_what_stays true turns wanted legs fair
  have ids : (walk wanted (storeAfter (freshStore true) turns) none legs).1.map (fun reply =>
      match reply with
      | .ok (.earnings page) => page.map Earning.id
      | _ => []) = [[1, 3], [4, 5]] := by
    decide +kernel
  rw [left, walked] at ids
  have ids : pages.map (List.map Earning.id) = [[1, 3], [4, 5]] := by
    rw [← ids, List.map_map]
    rfl
  have short : FallsShort legs pages := by
    have two : pages.length = 2 := by
      have same := congrArg List.length ids
      rwa [List.length_map] at same
    obtain ⟨first, second, rfl⟩ := List.length_eq_two.mp two
    have shown : second.map Earning.id = [4, 5] := (List.cons.inj (List.cons.inj ids).2).1
    have held : second.length = 2 := by
      have same := congrArg List.length shown
      rwa [List.length_map] at same
    refine ⟨_, second, List.mem_cons_of_mem _ List.mem_cons_self, ?_⟩
    rw [held]
    decide
  exact ⟨fair, start, last, pages, left, walked, ids, short, shows short⟩

end EarningsLedger
