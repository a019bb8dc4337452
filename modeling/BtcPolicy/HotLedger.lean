import BtcPolicy.Lib.FiniteMap
import BtcPolicy.Lib.Word
import BtcPolicy.Lib.Runs

/-! The velocity half of the Hot budget: a rolling-window ledger of accepted hot outflow, keyed by
commitment id. A reservation ages on the monotonic clock and on the wall clock at once and is
forgotten only when both have retired it, inside `reserve` and nowhere else. -/

namespace BtcPolicy.HotLedger
open FiniteMap Word Runs

structure HotBudget where
  maxPerTxSat : Nat
  maxPerWindowSat : Nat
  windowSecs : Nat
  deriving DecidableEq, Repr

/-- One accepted hot spend's claim. `reservedAt` is a monotonic reading, `expiry` a wall instant. -/
structure HotReservation where
  outflowSat : Nat
  reservedAt : Nat
  expiry : Nat
  deriving DecidableEq, Repr

def maxHotReservations : Nat := 4096

inductive HotReserveRefusal where
  | window (sum : Nat)
  | capacity
  deriving DecidableEq, Repr

structure HotBudgetLedger where
  budget : HotBudget
  reservations : Map String HotReservation

namespace HotBudgetLedger

def new (budget : HotBudget) : HotBudgetLedger := ⟨budget, ∅⟩

def floor (ledger : HotBudgetLedger) (now : Nat) : Nat := now - ledger.budget.windowSecs

def isLive (r : HotReservation) (floor wallNow : Nat) : Bool :=
  decide (floor ≤ r.reservedAt) || decide (wallNow ≤ r.expiry)

def windowSum (ledger : HotBudgetLedger) (now wallNow : Nat) : Nat :=
  (((vals ledger.reservations).filter (fun r => isLive r (ledger.floor now) wallNow)).map
    HotReservation.outflowSat).foldl satAdd 0

def prune (ledger : HotBudgetLedger) (now wallNow : Nat) : HotBudgetLedger :=
  { ledger with
    reservations := retain (fun _ r => isLive r (ledger.floor now) wallNow) ledger.reservations }

def reserve (ledger : HotBudgetLedger) (commitmentId : String) (outflowSat now wallNow expiry : Nat) :
    HotBudgetLedger × Except HotReserveRefusal Bool :=
  let ledger := ledger.prune now wallNow
  if (ledger.reservations.lookup commitmentId).isSome then
    (ledger, .ok false)
  else
    let sum := ledger.windowSum now wallNow
    if ledger.budget.maxPerWindowSat < satAdd sum outflowSat then
      (ledger, .error (.window sum))
    else if maxHotReservations ≤ size ledger.reservations then
      (ledger, .error .capacity)
    else
      ({ ledger with
          reservations := ledger.reservations.insert commitmentId ⟨outflowSat, now, expiry⟩ },
        .ok true)

def release (ledger : HotBudgetLedger) (commitmentId : String) : HotBudgetLedger :=
  { ledger with reservations := ledger.reservations.erase commitmentId }

/-- The exact sum of everything the ledger holds. -/
def held (ledger : HotBudgetLedger) : Nat := total HotReservation.outflowSat ledger.reservations

end HotBudgetLedger

open HotBudgetLedger

theorem prune_budget (ledger : HotBudgetLedger) (now wallNow : Nat) :
    (ledger.prune now wallNow).budget = ledger.budget := rfl

theorem lookup_prune {ledger : HotBudgetLedger} {now wallNow : Nat} {id : String} {r : HotReservation} :
    (ledger.prune now wallNow).reservations.lookup id = some r ↔
      ledger.reservations.lookup id = some r ∧ isLive r (ledger.floor now) wallNow = true :=
  lookup_retain_some

/-- After its own prune the window sum runs over every reservation, with saturation. -/
theorem windowSum_prune (ledger : HotBudgetLedger) (now wallNow : Nat) :
    (ledger.prune now wallNow).windowSum now wallNow =
      ((vals (ledger.prune now wallNow).reservations).map HotReservation.outflowSat).foldl satAdd 0 := by
  have live : (vals (ledger.prune now wallNow).reservations).filter
      (fun r => isLive r ((ledger.prune now wallNow).floor now) wallNow) =
      vals (ledger.prune now wallNow).reservations := by
    apply List.filter_eq_self.mpr
    intro r member
    obtain ⟨id, found⟩ := mem_vals.mp member
    exact (lookup_prune.mp found).2
  rw [windowSum, live]

/-- What one `reserve` does: it prunes, and then hits, refuses, or inserts exactly one reservation that
the exact sum of the pruned ledger leaves room for. -/
theorem reserve_cases (ledger : HotBudgetLedger) (id : String) (outflow now wallNow expiry : Nat) :
    (∃ r, (ledger.prune now wallNow).reservations.lookup id = some r ∧
        ledger.reserve id outflow now wallNow expiry = (ledger.prune now wallNow, .ok false)) ∨
      (∃ refusal, ledger.reserve id outflow now wallNow expiry =
        (ledger.prune now wallNow, .error refusal)) ∨
      ((ledger.prune now wallNow).reservations.lookup id = none ∧
        satAdd ((ledger.prune now wallNow).windowSum now wallNow) outflow ≤
          ledger.budget.maxPerWindowSat ∧
        size (ledger.prune now wallNow).reservations < maxHotReservations ∧
        ledger.reserve id outflow now wallNow expiry =
          ({ ledger.prune now wallNow with
              reservations := (ledger.prune now wallNow).reservations.insert id ⟨outflow, now, expiry⟩ },
            .ok true)) := by
  unfold reserve
  simp only
  split_ifs with hit exceeded full
  · obtain ⟨r, found⟩ := Option.isSome_iff_exists.mp hit
    exact Or.inl ⟨r, found, rfl⟩
  · exact Or.inr (Or.inl ⟨_, rfl⟩)
  · exact Or.inr (Or.inl ⟨_, rfl⟩)
  · have absent : (ledger.prune now wallNow).reservations.lookup id = none := by simpa using hit
    exact Or.inr (Or.inr ⟨absent, Nat.le_of_not_lt exceeded, Nat.lt_of_not_le full, rfl⟩)

theorem reserve_budget (ledger : HotBudgetLedger) (id : String) (outflow now wallNow expiry : Nat) :
    (ledger.reserve id outflow now wallNow expiry).1.budget = ledger.budget := by
  obtain ⟨_, _, same⟩ | ⟨_, same⟩ | ⟨_, _, _, same⟩ := reserve_cases ledger id outflow now wallNow expiry
  all_goals rw [same]; rfl

/-- A reservation that either clock keeps alive survives any `reserve`, its own included. -/
theorem reserve_keeps_live {ledger : HotBudgetLedger} {held : String} {r : HotReservation}
    (id : String) (outflow now wallNow expiry : Nat)
    (found : ledger.reservations.lookup held = some r)
    (live : isLive r (ledger.floor now) wallNow = true) :
    (ledger.reserve id outflow now wallNow expiry).1.reservations.lookup held = some r := by
  have kept : (ledger.prune now wallNow).reservations.lookup held = some r := lookup_prune.mpr ⟨found, live⟩
  obtain ⟨_, _, same⟩ | ⟨_, same⟩ | ⟨absent, _, _, same⟩ :=
    reserve_cases ledger id outflow now wallNow expiry
  · rw [same]
    exact kept
  · rw [same]
    exact kept
  · have different : held ≠ id := by
      intro equal
      rw [equal, absent] at kept
      cases kept
    rw [same]
    exact (AList.lookup_insert_ne different).trans kept

/-- What a `reserve` leaves in the ledger was there before and live, or is the reservation it made. -/
theorem reserve_lookup {ledger : HotBudgetLedger} {id held : String} {outflow now wallNow expiry : Nat}
    {r : HotReservation}
    (found : (ledger.reserve id outflow now wallNow expiry).1.reservations.lookup held = some r) :
    ledger.reservations.lookup held = some r ∧ isLive r (ledger.floor now) wallNow = true ∨
      (ledger.reserve id outflow now wallNow expiry).2 = .ok true ∧ held = id ∧
        r = ⟨outflow, now, expiry⟩ := by
  obtain ⟨_, _, same⟩ | ⟨_, same⟩ | ⟨_, _, _, same⟩ := reserve_cases ledger id outflow now wallNow expiry
  · rw [same] at found
    exact Or.inl (lookup_prune.mp found)
  · rw [same] at found
    exact Or.inl (lookup_prune.mp found)
  · rw [same] at found
    simp only [lookup_insert_eq] at found
    split_ifs at found with equal
    · exact Or.inr ⟨by rw [same], equal, (Option.some.inj found).symm⟩
    · exact Or.inl (lookup_prune.mp found)

/-- A reservation an accepted claim needs is in the ledger after the call. -/
theorem reserve_ok_present {ledger : HotBudgetLedger} {id : String} {outflow now wallNow expiry : Nat}
    {created : Bool} (ok : (ledger.reserve id outflow now wallNow expiry).2 = .ok created) :
    ∃ r, (ledger.reserve id outflow now wallNow expiry).1.reservations.lookup id = some r := by
  obtain ⟨r, found, same⟩ | ⟨_, same⟩ | ⟨_, _, _, same⟩ :=
    reserve_cases ledger id outflow now wallNow expiry
  · exact ⟨r, by rw [same]; exact found⟩
  · rw [same] at ok
    cases ok
  · exact ⟨⟨outflow, now, expiry⟩, by rw [same]; exact AList.lookup_insert _⟩

/-! ### Bounds over runs -/

/-- A call on the ledger. -/
inductive LedgerCall where
  | reserve (commitmentId : String) (outflowSat now wallNow expiry : Nat)
  | release (commitmentId : String)
  deriving DecidableEq, Repr

def LedgerCall.now? : LedgerCall → Option Nat
  | .reserve _ _ now _ _ => some now
  | .release _ => none

def ledgerStep (ledger : HotBudgetLedger) :
    LedgerCall → HotBudgetLedger × Option (Except HotReserveRefusal Bool)
  | .reserve id outflow now wallNow expiry =>
    let answer := ledger.reserve id outflow now wallNow expiry
    (answer.1, some answer.2)
  | .release id => (ledger.release id, none)

def ledgerAfter (budget : HotBudget) (calls : List LedgerCall) : HotBudgetLedger :=
  exec ledgerStep (HotBudgetLedger.new budget) calls

/-- The monotonic readings of a run, in order. -/
def readings (calls : List LedgerCall) : List Nat := calls.filterMap LedgerCall.now?

/-- The ledger holds no more than the window cap, in no more than `maxHotReservations` entries. -/
structure Within (ledger : HotBudgetLedger) : Prop where
  sum : ledger.held ≤ ledger.budget.maxPerWindowSat
  count : size ledger.reservations ≤ maxHotReservations

theorem within_prune {ledger : HotBudgetLedger} (within : Within ledger) (now wallNow : Nat) :
    Within (ledger.prune now wallNow) :=
  ⟨(total_retain_le _ _ _).trans within.sum, (size_retain_le _ _).trans within.count⟩

theorem within_reserve {ledger : HotBudgetLedger} (small : ledger.budget.maxPerWindowSat < maxWord)
    (within : Within ledger) (id : String) (outflow now wallNow expiry : Nat) :
    Within (ledger.reserve id outflow now wallNow expiry).1 := by
  have pruned := within_prune within now wallNow
  obtain ⟨_, _, same⟩ | ⟨_, same⟩ | ⟨absent, room, free, same⟩ :=
    reserve_cases ledger id outflow now wallNow expiry
  · rw [same]
    exact pruned
  · rw [same]
    exact pruned
  · -- Below the cap the saturating window sum is the exact one, so the room it reports is real.
    have exactSum : (ledger.prune now wallNow).windowSum now wallNow = (ledger.prune now wallNow).held := by
      rw [windowSum_prune, foldl_satAdd_exact]
      · exact Nat.zero_add _
      · have bound := pruned.sum
        simp only [prune_budget] at bound
        simp only [held, total] at bound
        omega
    have exactRoom := satAdd_eq_of_lt (lt_of_le_of_lt room small)
    rw [exactRoom, exactSum] at room
    rw [same]
    constructor
    · show total HotReservation.outflowSat (AList.insert id _ _) ≤ ledger.budget.maxPerWindowSat
      rw [total_insert_absent absent]
      show outflow + (ledger.prune now wallNow).held ≤ ledger.budget.maxPerWindowSat
      omega
    · show size (AList.insert id _ _) ≤ maxHotReservations
      rw [size_insert_absent absent]
      omega

theorem within_release {ledger : HotBudgetLedger} (within : Within ledger) (id : String) :
    Within (ledger.release id) :=
  ⟨(total_erase_le _ _ _).trans within.sum, (size_erase_le _ _).trans within.count⟩

theorem ledgerStep_budget (ledger : HotBudgetLedger) (call : LedgerCall) :
    (ledgerStep ledger call).1.budget = ledger.budget := by
  cases call with
  | reserve id outflow now wallNow expiry => exact reserve_budget ledger id outflow now wallNow expiry
  | release id => rfl

theorem ledgerAfter_budget (budget : HotBudget) (calls : List LedgerCall) :
    (ledgerAfter budget calls).budget = budget :=
  exec_invariant ledgerStep (fun ledger => ledger.budget = budget)
    (fun ledger call same => (ledgerStep_budget ledger call).trans same) _ rfl calls

theorem ledgerAfter_within (budget : HotBudget) (small : budget.maxPerWindowSat < maxWord)
    (calls : List LedgerCall) : Within (ledgerAfter budget calls) := by
  induction calls using List.reverseRecOn with
  | nil => exact ⟨Nat.zero_le _, Nat.zero_le _⟩
  | append_singleton calls call ih =>
    rw [ledgerAfter, exec_snoc]
    cases call with
    | reserve id outflow now wallNow expiry =>
      apply within_reserve _ ih
      rw [ledgerAfter_budget]
      exact small
    | release id => exact within_release ih id

/-! ### The rolling window

The book lists the reservations a run has created and not released since. Pruning never touches it. -/

/-- A reservation as the run created it. -/
structure Created where
  commitmentId : String
  outflowSat : Nat
  createdAt : Nat
  deriving DecidableEq, Repr

def bookAfter (answer : Option (Except HotReserveRefusal Bool)) (book : List Created) :
    LedgerCall → List Created
  | .reserve id outflow now _ _ => if answer = some (.ok true) then book ++ [⟨id, outflow, now⟩] else book
  | .release id => book.filter (fun entry => entry.commitmentId ≠ id)

def book (budget : HotBudget) (calls : List LedgerCall) : List Created :=
  (calls.foldl (fun s call => ((ledgerStep s.1 call).1, bookAfter (ledgerStep s.1 call).2 s.2 call))
    (HotBudgetLedger.new budget, [])).2

theorem book_ledger (budget : HotBudget) (calls : List LedgerCall) :
    (calls.foldl (fun s call => ((ledgerStep s.1 call).1, bookAfter (ledgerStep s.1 call).2 s.2 call))
      (HotBudgetLedger.new budget, ([] : List Created))).1 = ledgerAfter budget calls := by
  induction calls using List.reverseRecOn with
  | nil => rfl
  | append_singleton calls call ih =>
    rw [List.foldl_append, ledgerAfter, exec_snoc]
    simp only [List.foldl_cons, List.foldl_nil]
    rw [ih]
    rfl

theorem book_snoc (budget : HotBudget) (calls : List LedgerCall) (call : LedgerCall) :
    book budget (calls ++ [call]) =
      bookAfter (ledgerStep (ledgerAfter budget calls) call).2 (book budget calls) call := by
  unfold book
  rw [List.foldl_append]
  simp only [List.foldl_cons, List.foldl_nil]
  rw [book_ledger]

/-- The entries created in the closed interval `[start, start + width]`. -/
def createdWithin (start width : Nat) (entries : List Created) : List Created :=
  entries.filter (fun entry => start ≤ entry.createdAt ∧ entry.createdAt ≤ start + width)

def outflowWithin (start width : Nat) (entries : List Created) : Nat :=
  ((createdWithin start width entries).map Created.outflowSat).sum

/-- Every entry the monotonic window still covers at `now` is held as it was created, once. -/
structure Covered (ledger : HotBudgetLedger) (now : Nat) (entries : List Created) : Prop where
  past : ∀ entry ∈ entries, entry.createdAt ≤ now
  held : ∀ entry ∈ entries, ledger.floor now ≤ entry.createdAt →
    ∃ r, ledger.reservations.lookup entry.commitmentId = some r ∧
      r.outflowSat = entry.outflowSat ∧ r.reservedAt = entry.createdAt
  distinct : ((entries.filter (fun entry => ledger.floor now ≤ entry.createdAt)).map
    Created.commitmentId).Nodup

theorem Covered.later {ledger : HotBudgetLedger} {now later : Nat} {entries : List Created}
    (covered : Covered ledger now entries) (order : now ≤ later) : Covered ledger later entries := by
  have floors : ledger.floor now ≤ ledger.floor later := Nat.sub_le_sub_right order _
  refine ⟨fun entry member => (covered.past entry member).trans order,
    fun entry member inside => covered.held entry member (floors.trans inside), ?_⟩
  refine List.Nodup.sublist ?_ covered.distinct
  apply List.Sublist.map
  apply List.monotone_filter_right
  intro entry inside
  simp only [decide_eq_true_eq] at inside ⊢
  omega

theorem Covered.release {ledger : HotBudgetLedger} {now : Nat} {entries : List Created}
    (covered : Covered ledger now entries) (id : String) :
    Covered (ledger.release id) now (entries.filter (fun entry => entry.commitmentId ≠ id)) := by
  refine ⟨fun entry member => covered.past entry (List.mem_of_mem_filter member), ?_, ?_⟩
  · intro entry member inside
    obtain ⟨present, different⟩ := List.mem_filter.mp member
    have kept : (ledger.release id).reservations.lookup entry.commitmentId =
        ledger.reservations.lookup entry.commitmentId :=
      AList.lookup_erase_ne (by simpa using different)
    rw [kept]
    exact covered.held entry present inside
  · refine List.Nodup.sublist ?_ covered.distinct
    exact (List.filter_sublist.filter _).map _

/-- A covered entry inside the window stays held through a reserve. -/
theorem Covered.held_after {ledger : HotBudgetLedger} {now : Nat} {entries : List Created}
    (covered : Covered ledger now entries) (id : String) (outflow wallNow expiry : Nat) {entry : Created}
    (member : entry ∈ entries) (inside : ledger.floor now ≤ entry.createdAt) :
    ∃ r, (ledger.reserve id outflow now wallNow expiry).1.reservations.lookup entry.commitmentId = some r ∧
      r.outflowSat = entry.outflowSat ∧ r.reservedAt = entry.createdAt := by
  obtain ⟨r, found, sameOutflow, sameTime⟩ := covered.held entry member inside
  refine ⟨r, ?_, sameOutflow, sameTime⟩
  apply reserve_keeps_live id outflow now wallNow expiry found
  simp [isLive, sameTime, inside]

/-- An id the pruned ledger does not hold is no covered entry's inside the window. -/
theorem Covered.absent {ledger : HotBudgetLedger} {now : Nat} {entries : List Created}
    (covered : Covered ledger now entries) {id : String} {wallNow : Nat}
    (absent : (ledger.prune now wallNow).reservations.lookup id = none) {entry : Created}
    (member : entry ∈ entries) (inside : ledger.floor now ≤ entry.createdAt) : entry.commitmentId ≠ id := by
  intro equal
  obtain ⟨r, found, _, sameTime⟩ := covered.held entry member inside
  have kept : (ledger.prune now wallNow).reservations.lookup id = some r :=
    lookup_prune.mpr ⟨equal ▸ found, by simp [isLive, sameTime, inside]⟩
  rw [absent] at kept
  cases kept

theorem Covered.reserve {ledger : HotBudgetLedger} {now : Nat} {entries : List Created}
    (covered : Covered ledger now entries) (id : String) (outflow wallNow expiry : Nat) :
    Covered (ledger.reserve id outflow now wallNow expiry).1 now
      (bookAfter (some (ledger.reserve id outflow now wallNow expiry).2) entries
        (.reserve id outflow now wallNow expiry)) := by
  have floors : (ledger.reserve id outflow now wallNow expiry).1.floor now = ledger.floor now := by
    simp only [HotBudgetLedger.floor, reserve_budget]
  by_cases made : (ledger.reserve id outflow now wallNow expiry).2 = .ok true
  · -- A created entry is new to the pruned ledger, so no covered entry shares its id.
    obtain ⟨_, _, same⟩ | ⟨_, same⟩ | ⟨absent, _, _, same⟩ :=
      reserve_cases ledger id outflow now wallNow expiry
    · rw [same] at made
      cases made
    · rw [same] at made
      cases made
    · have stored : (ledger.reserve id outflow now wallNow expiry).1.reservations.lookup id =
          some ⟨outflow, now, expiry⟩ := by
        rw [same]
        exact AList.lookup_insert _
      have current : ledger.floor now ≤ now := Nat.sub_le _ _
      simp only [bookAfter, made, if_true]
      refine ⟨?_, ?_, ?_⟩
      · intro entry member
        rcases List.mem_append.mp member with old | new
        · exact covered.past entry old
        · rw [List.mem_singleton.mp new]
      · intro entry member inside
        rw [floors] at inside
        rcases List.mem_append.mp member with old | new
        · exact covered.held_after id outflow wallNow expiry old inside
        · rw [List.mem_singleton.mp new]
          exact ⟨_, stored, rfl, rfl⟩
      · rw [floors, List.filter_append, List.filter_singleton]
        simp only [current, decide_true, List.map_append]
        apply List.Nodup.append covered.distinct (List.nodup_singleton _)
        rw [List.disjoint_singleton]
        intro member
        obtain ⟨entry, present, equal⟩ := List.mem_map.mp member
        obtain ⟨old, inside⟩ := List.mem_filter.mp present
        exact covered.absent absent old (by simpa using inside) equal
  · have unchanged : bookAfter (some (ledger.reserve id outflow now wallNow expiry).2) entries
        (.reserve id outflow now wallNow expiry) = entries := by
      simp only [bookAfter, Option.some.injEq, made, if_false]
    rw [unchanged]
    refine ⟨covered.past, ?_, ?_⟩
    · intro entry member inside
      exact covered.held_after id outflow wallNow expiry member (floors ▸ inside)
    · rw [floors]
      exact covered.distinct

/-- The latest reading of a run. -/
def lastReading (calls : List LedgerCall) : Nat := (readings calls).getLastD 0

theorem lastReading_reserve (calls : List LedgerCall) (id : String) (outflow now wallNow expiry : Nat) :
    lastReading (calls ++ [.reserve id outflow now wallNow expiry]) = now := by
  simp [lastReading, readings, LedgerCall.now?]

theorem lastReading_release (calls : List LedgerCall) (id : String) :
    lastReading (calls ++ [.release id]) = lastReading calls := by
  simp [lastReading, readings, LedgerCall.now?]

theorem lastReading_le {calls : List LedgerCall} {id : String} {outflow now wallNow expiry : Nat}
    (ordered : (readings (calls ++ [.reserve id outflow now wallNow expiry])).Pairwise (· ≤ ·)) :
    lastReading calls ≤ now := by
  rw [readings, List.filterMap_append, List.pairwise_append] at ordered
  cases last : (readings calls).getLast? with
  | none => simp [lastReading, List.getLastD_eq_getLast?, last]
  | some time =>
    have member : time ∈ readings calls := List.mem_of_getLast? last
    have bound := ordered.2.2 time member now (by simp [LedgerCall.now?])
    simpa [lastReading, List.getLastD_eq_getLast?, last] using bound

theorem ordered_front {calls : List LedgerCall} {call : LedgerCall}
    (ordered : (readings (calls ++ [call])).Pairwise (· ≤ ·)) : (readings calls).Pairwise (· ≤ ·) := by
  rw [readings, List.filterMap_append, List.pairwise_append] at ordered
  exact ordered.1

theorem book_covered (budget : HotBudget) (calls : List LedgerCall)
    (ordered : (readings calls).Pairwise (· ≤ ·)) :
    Covered (ledgerAfter budget calls) (lastReading calls) (book budget calls) := by
  induction calls using List.reverseRecOn with
  | nil => exact ⟨by simp [book], by simp [book], by simp [book]⟩
  | append_singleton calls call ih =>
    have before := ih (ordered_front ordered)
    rw [book_snoc, ledgerAfter, exec_snoc]
    cases call with
    | reserve id outflow now wallNow expiry =>
      rw [lastReading_reserve]
      exact (before.later (lastReading_le ordered)).reserve id outflow wallNow expiry
    | release id =>
      rw [lastReading_release]
      exact before.release id

/-- Entries that all lie in the window ending at `now` weigh no more than the ledger holds. -/
theorem outflowWithin_le_held {ledger : HotBudgetLedger} {now start : Nat} {entries : List Created}
    (covered : Covered ledger now entries) (inside : ledger.floor now ≤ start) :
    outflowWithin start ledger.budget.windowSecs entries ≤ ledger.held := by
  have recent : ∀ entry ∈ createdWithin start ledger.budget.windowSecs entries,
      entry ∈ entries ∧ ledger.floor now ≤ entry.createdAt := by
    intro entry member
    obtain ⟨present, window⟩ := List.mem_filter.mp member
    simp only [Bool.decide_and, Bool.and_eq_true, decide_eq_true_eq] at window
    exact ⟨present, inside.trans window.1⟩
  apply sum_le_total Created.commitmentId Created.outflowSat HotReservation.outflowSat
  · refine List.Nodup.sublist ?_ covered.distinct
    apply List.Sublist.map
    apply List.monotone_filter_right
    intro entry window
    simp only [Bool.decide_and, Bool.and_eq_true, decide_eq_true_eq] at window
    simpa using inside.trans window.1
  · intro entry member
    obtain ⟨present, covers⟩ := recent entry member
    obtain ⟨r, found, sameOutflow, _⟩ := covered.held entry present covers
    exact ⟨r, found, sameOutflow⟩

theorem outflowWithin_filter_le (start width : Nat) (keep : Created → Bool) (entries : List Created) :
    outflowWithin start width (entries.filter keep) ≤ outflowWithin start width entries :=
  ((List.filter_sublist.filter _).map _).sum_le_sum (fun _ _ => Nat.zero_le _)

theorem outflowWithin_outside {start width now : Nat} {id : String} {outflow : Nat}
    (entries : List Created) (outside : ¬(start ≤ now ∧ now ≤ start + width)) :
    outflowWithin start width (entries ++ [⟨id, outflow, now⟩]) = outflowWithin start width entries := by
  have dropped : createdWithin start width (entries ++ [⟨id, outflow, now⟩]) =
      createdWithin start width entries := by
    simp only [createdWithin, List.filter_append, List.filter_singleton, outside, decide_false,
      cond_false, List.append_nil]
  rw [outflowWithin, dropped]
  rfl

/-- In every interval of one window width, what a run created and did not release stays within the cap. -/
theorem outflowWithin_le (budget : HotBudget) (small : budget.maxPerWindowSat < maxWord)
    (calls : List LedgerCall) (ordered : (readings calls).Pairwise (· ≤ ·)) (start : Nat) :
    outflowWithin start budget.windowSecs (book budget calls) ≤ budget.maxPerWindowSat := by
  induction calls using List.reverseRecOn with
  | nil => simp [book, outflowWithin, createdWithin]
  | append_singleton calls call ih =>
    have before := ih (ordered_front ordered)
    have covered := book_covered budget (calls ++ [call]) ordered
    have within := ledgerAfter_within budget small (calls ++ [call])
    cases call with
    | release id =>
      rw [book_snoc]
      exact (outflowWithin_filter_le _ _ _ _).trans before
    | reserve id outflow now wallNow expiry =>
      by_cases reached : start ≤ now ∧ now ≤ start + budget.windowSecs
      · rw [lastReading_reserve] at covered
        have inside : (ledgerAfter budget (calls ++ [.reserve id outflow now wallNow expiry])).floor now ≤
            start := by
          simp only [HotBudgetLedger.floor, ledgerAfter_budget]
          omega
        have bound := outflowWithin_le_held covered inside
        have cap := within.sum
        rw [ledgerAfter_budget] at bound cap
        exact bound.trans cap
      · rw [book_snoc]
        simp only [bookAfter]
        split_ifs with made
        · rw [outflowWithin_outside _ reached]
          exact before
        · exact before

theorem reserve_refused_inserts_nothing {ledger : HotBudgetLedger} {id : String}
    {outflow now wallNow expiry : Nat} {refusal : HotReserveRefusal}
    (refused : (ledger.reserve id outflow now wallNow expiry).2 = .error refusal) (held : String)
    (r : HotReservation)
    (found : (ledger.reserve id outflow now wallNow expiry).1.reservations.lookup held = some r) :
    ledger.reservations.lookup held = some r := by
  rcases reserve_lookup found with ⟨old, _⟩ | ⟨made, _⟩
  · exact old
  · rw [refused] at made
    cases made

theorem reserve_live_hit {ledger : HotBudgetLedger} {id : String} {r : HotReservation}
    (outflow now wallNow expiry : Nat) (found : ledger.reservations.lookup id = some r)
    (live : isLive r (ledger.floor now) wallNow = true) :
    (ledger.reserve id outflow now wallNow expiry).2 = .ok false ∧
      (ledger.reserve id outflow now wallNow expiry).1.reservations.lookup id = some r := by
  have kept := reserve_keeps_live id outflow now wallNow expiry found live
  have hit : (ledger.prune now wallNow).reservations.lookup id = some r := lookup_prune.mpr ⟨found, live⟩
  refine ⟨?_, kept⟩
  simp only [reserve, hit, Option.isSome_some, if_true]

/-- A reservation that both clocks have retired is dropped by the prune of the call that finds it, so that the call
goes as if it had been released before. -/
theorem reserve_retired {ledger : HotBudgetLedger} {id : String} {r : HotReservation}
    (outflow now wallNow expiry : Nat) (found : ledger.reservations.lookup id = some r)
    (retired : isLive r (ledger.floor now) wallNow = false) :
    (ledger.reserve id outflow now wallNow expiry).2 ≠ .ok false ∧
      ledger.reserve id outflow now wallNow expiry = (ledger.release id).reserve id outflow now wallNow expiry := by
  constructor
  · intro hit
    obtain ⟨r', present, _⟩ | ⟨_, same⟩ | ⟨_, _, _, same⟩ := reserve_cases ledger id outflow now wallNow expiry
    · obtain ⟨old, live⟩ := lookup_prune.mp present
      cases found.symm.trans old
      exact Bool.noConfusion (retired.symm.trans live)
    · rw [same] at hit
      cases hit
    · rw [same] at hit
      cases hit
  · have pruned : (ledger.release id).prune now wallNow = ledger.prune now wallNow := by
      unfold prune release
      simp only
      congr 1
      exact retain_erase found retired
    unfold reserve
    rw [pruned]

/-- The ledger bound over every run with a nondecreasing monotonic clock and arbitrary wall readings. A
reservation both clocks have retired is forgotten by the call that finds it, which goes as if it had been released. -/
theorem hot_ledger_bound (budget : HotBudget) (small : budget.maxPerWindowSat < maxWord)
    (calls : List LedgerCall) (ordered : (readings calls).Pairwise (· ≤ ·)) :
    (ledgerAfter budget calls).held ≤ budget.maxPerWindowSat ∧
      size (ledgerAfter budget calls).reservations ≤ 4096 ∧
      (∀ id outflow now wallNow expiry refusal,
        ((ledgerAfter budget calls).reserve id outflow now wallNow expiry).2 = .error refusal →
        ∀ held r,
          ((ledgerAfter budget calls).reserve id outflow now wallNow expiry).1.reservations.lookup held =
            some r →
          (ledgerAfter budget calls).reservations.lookup held = some r) ∧
      (∀ id r outflow now wallNow expiry,
        (ledgerAfter budget calls).reservations.lookup id = some r →
        isLive r ((ledgerAfter budget calls).floor now) wallNow = true →
        ((ledgerAfter budget calls).reserve id outflow now wallNow expiry).2 = .ok false ∧
          ((ledgerAfter budget calls).reserve id outflow now wallNow expiry).1.reservations.lookup id =
            some r) ∧
      (∀ id r outflow now wallNow expiry,
        (ledgerAfter budget calls).reservations.lookup id = some r →
        isLive r ((ledgerAfter budget calls).floor now) wallNow = false →
        ((ledgerAfter budget calls).reserve id outflow now wallNow expiry).2 ≠ .ok false ∧
          (ledgerAfter budget calls).reserve id outflow now wallNow expiry =
            ((ledgerAfter budget calls).release id).reserve id outflow now wallNow expiry) ∧
      ∀ start, outflowWithin start budget.windowSecs (book budget calls) ≤ budget.maxPerWindowSat := by
  have within := ledgerAfter_within budget small calls
  have cap := within.sum
  rw [ledgerAfter_budget] at cap
  refine ⟨cap, within.count, ?_, ?_, ?_, outflowWithin_le budget small calls ordered⟩
  · intro id outflow now wallNow expiry refusal refused held r found
    exact reserve_refused_inserts_nothing refused held r found
  · intro id r outflow now wallNow expiry found live
    exact reserve_live_hit outflow now wallNow expiry found live
  · intro id r outflow now wallNow expiry found retired
    exact reserve_retired outflow now wallNow expiry found retired

/-- Two reservations of 60 under a cap of 100: the second is refused inside the window. -/
theorem hot_ledger_bound_refusal :
    (ledgerAfter ⟨100, 100, 10⟩
      [.reserve "a" 60 0 0 5, .reserve "b" 60 10 0 5, .release "c"]).held ≤ 100 :=
  (hot_ledger_bound ⟨100, 100, 10⟩ (by decide)
    [.reserve "a" 60 0 0 5, .reserve "b" 60 10 0 5, .release "c"] (by decide)).1

/-- An id the ledger still lists, retired on both clocks, is reserved anew: the call that finds it prunes it
first. -/
theorem retired_id_reserved_again :
    ¬∀ (budget : HotBudget) (calls : List LedgerCall) (id : String) (r : HotReservation)
        (outflow now wallNow expiry : Nat), budget.maxPerWindowSat < maxWord →
      (readings (calls ++ [.reserve id outflow now wallNow expiry])).Pairwise (· ≤ ·) →
      (ledgerAfter budget calls).reservations.lookup id = some r →
      ((ledgerAfter budget calls).reserve id outflow now wallNow expiry).2 = .ok false ∧
        ((ledgerAfter budget calls).reserve id outflow now wallNow expiry).1.reservations.lookup id = some r := by
  intro held
  have hit := (held ⟨100, 100, 10⟩ [.reserve "a" 5 0 0 0] "a" ⟨5, 0, 0⟩ 7 11 1 20 (by decide) (by decide)
    (by decide)).1
  revert hit
  decide

end BtcPolicy.HotLedger
