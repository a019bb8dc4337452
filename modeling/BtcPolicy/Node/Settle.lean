import BtcPolicy.Node.Budget

/-! Settlement. A settled transaction defeats the hot candidates that spend a coin of its own: the store section refunds
and marks them, and the pending-log section, behind the other lock, drops their timers. -/

namespace BtcPolicy.Channel
open FiniteMap Bitcoin HotLedger HotBudgetLedger PartialStore

/-- `c` is a resident hot candidate of another name that spends a coin the candidate under `spenderId` spends. -/
structure Defeated (s : PartialStore) (spenderId id : String) (c : Candidate) : Prop where
  other : id ≠ spenderId
  resident : s.candidates.lookup id = some c
  hot : c.hot = true
  shares : ∃ spender, s.candidates.lookup spenderId = some spender ∧ ∃ input ∈ c.spentInputs, input ∈ spender.spentInputs

/-- The mark of a settlement. -/
def Candidate.marked (c : Candidate) : Candidate := { c with broadcast := true }

theorem mem_hotConflicts {s : PartialStore} {spenderId id : String} :
    id ∈ s.hotConflicts spenderId ↔ ∃ c, Defeated s spenderId id c := by
  unfold hotConflicts
  simp only [List.mem_map, List.mem_filter, Bool.and_eq_true, decide_eq_true_eq, List.any_eq_true]
  constructor
  · rintro ⟨⟨_, c⟩, ⟨member, ⟨other, hot⟩, input, spends, spent⟩, rfl⟩
    cases found : s.candidates.lookup spenderId with
    | none => simp [found] at spent
    | some spender =>
      rw [found] at spent
      exact ⟨c, other, AList.mem_lookup_iff.mpr member, hot, spender, found, input, spends, spent⟩
  · rintro ⟨c, other, resident, hot, spender, found, input, spends, spent⟩
    rw [found]
    exact ⟨⟨id, c⟩, ⟨AList.mem_lookup_iff.mp resident, ⟨other, hot⟩, input, spends, spent⟩, rfl⟩

/-! ### One mark, and all of them -/

theorem terminalize_lookup (s : PartialStore) (target id : String) :
    (s.terminalize target).candidates.lookup id =
      if id = target then (s.candidates.lookup id).map Candidate.marked else s.candidates.lookup id := by
  unfold terminalize
  cases found : s.candidates.lookup target with
  | none =>
    split_ifs with here
    · rw [here, found]
      rfl
    · rfl
  | some c => exact lookup_adjust target id _ s.candidates

/-- Of the whole fold: the listed residents are marked. -/
theorem foldl_terminalize_lookup (ids : List String) (s : PartialStore) (id : String) :
    (ids.foldl terminalize s).candidates.lookup id =
      if id ∈ ids then (s.candidates.lookup id).map Candidate.marked else s.candidates.lookup id := by
  induction ids generalizing s with
  | nil => rfl
  | cons first rest ih =>
    rw [List.foldl_cons, ih, terminalize_lookup]
    by_cases here : id = first
    · subst here
      have twice : Candidate.marked ∘ Candidate.marked = Candidate.marked := rfl
      simp [Option.map_map, twice]
    · simp [here]

theorem terminalize_reservation {s : PartialStore} (keyed : Keyed s) (target id : String) :
    reservationOf id (s.terminalize target) =
      if id = target ∧ (s.candidates.lookup id).any Candidate.isUnexposedHot then none else reservationOf id s := by
  unfold terminalize
  cases found : s.candidates.lookup target with
  | none =>
    rw [if_neg]
    rintro ⟨rfl, unexposed⟩
    simp [found] at unexposed
  | some c =>
    simp only [reservationOf, releaseIfUnexposed]
    by_cases unexposed : c.isUnexposedHot = true
    · rw [if_pos unexposed, release_lookup, keyed target c found]
      by_cases here : id = target
      · subst here
        simp [found, unexposed]
      · simp [here]
    · rw [if_neg unexposed, if_neg]
      rintro ⟨rfl, contrary⟩
      simp [found, unexposed] at contrary

/-- And those whose share never left are refunded: a mark already set refunds nothing. -/
theorem foldl_terminalize_reservation (ids : List String) {s : PartialStore} (keyed : Keyed s) (id : String) :
    reservationOf id (ids.foldl terminalize s) =
      if id ∈ ids ∧ (s.candidates.lookup id).any Candidate.isUnexposedHot then none else reservationOf id s := by
  induction ids generalizing s with
  | nil => simp
  | cons first rest ih =>
    rw [List.foldl_cons, ih (keyed_of_kept (kept_terminalize s first) keyed), terminalize_lookup,
      terminalize_reservation keyed]
    by_cases here : id = first
    · subst here
      have spent : ((s.candidates.lookup id).map Candidate.marked).any Candidate.isUnexposedHot = false := by
        cases s.candidates.lookup id with
        | none => rfl
        | some c => simp [Candidate.isUnexposedHot, Candidate.marked]
      simp [spent]
    · simp [here]

theorem foldl_terminalize_armed (ids : List String) (s : PartialStore) :
    (ids.foldl terminalize s).armed = s.armed := by
  induction ids generalizing s with
  | nil => rfl
  | cons first rest ih =>
    rw [List.foldl_cons, ih]
    unfold terminalize
    cases s.candidates.lookup first with
    | none => rfl
    | some c => rfl

theorem foldl_terminalize_budget (ids : List String) (s : PartialStore) :
    (ids.foldl terminalize s).hotBudget.budget = s.hotBudget.budget := by
  induction ids generalizing s with
  | nil => rfl
  | cons first rest ih =>
    rw [List.foldl_cons, ih]
    unfold terminalize releaseIfUnexposed
    cases s.candidates.lookup first with
    | none => rfl
    | some c =>
      simp only
      split_ifs <;> rfl

/-- Where every listed resident is marked already, nothing changes. -/
theorem foldl_terminalize_fixed {ids : List String} {s : PartialStore}
    (marked : ∀ id ∈ ids, ∀ c, s.candidates.lookup id = some c → c.broadcast = true) : ids.foldl terminalize s = s := by
  induction ids with
  | nil => rfl
  | cons first rest ih =>
    have same : s.terminalize first = s := by
      unfold terminalize
      cases found : s.candidates.lookup first with
      | none => rfl
      | some c =>
        have latched := marked first List.mem_cons_self c found
        have kept : adjust first (fun c => { c with broadcast := true }) s.candidates = s.candidates := by
          apply adjust_fixed
          intro other here
          cases found.symm.trans here
          rw [← latched]
        simp only [kept, releaseIfUnexposed, Candidate.isUnexposedHot, latched, Bool.not_true, Bool.and_false,
          Bool.false_eq_true, if_false]
    rw [List.foldl_cons, same]
    exact ih (fun id member => marked id (List.mem_cons_of_mem first member))

end BtcPolicy.Channel

namespace BtcPolicy.Node
open FiniteMap Bitcoin HotLedger HotBudgetLedger Replay Channel Pin Policy Runs PartialStore NodeConfig

/-- The sections of a settlement in a row. With `armedEscape` they are those of the confirmed branch. -/
def settle (armedEscape : Bool) (commitmentId : String) (s : NodeState) : NodeState :=
  let paired := (s.store.pairing commitmentId).map Prod.snd
  let marked := settleStore commitmentId armedEscape s.store
  { s with
    store := marked.1
    sign := { s.sign with
      pending := (settledIds commitmentId paired marked.2).foldl PendingLog.remove s.sign.pending } }

/-- The machine takes them one by one. -/
theorem exec_settle (node : NodeConfig) (w : World) (key : Nat) (commitmentId : String) (armedEscape : Bool)
    (idle : w.settlements.lookup key = none) :
    (exec node.nodeStep w [.settleRead key commitmentId, .settleMark key armedEscape, .settleRelease key]).node =
      settle armedEscape commitmentId w.node := by
  simp [exec, nodeStep, idle, settle]

/-- All the projections of a settlement: every defeated candidate is marked, off the timers, and refunded exactly when its
share never left; the spender and its sibling are off the timers; nothing else moves but what becomes of the spender. -/
structure Projects (id : String) (spender : Candidate → Candidate) (s t : NodeState) : Prop where
  defeated : ∀ cid c, Defeated s.store id cid c →
    t.store.candidates.lookup cid = some c.marked ∧ t.sign.pending.lookup cid = none ∧
      reservationOf cid t.store = if c.isUnexposedHot then none else reservationOf cid s.store
  others : ∀ cid, (∀ c, ¬Defeated s.store id cid c) →
    reservationOf cid t.store = reservationOf cid s.store ∧
      (cid ≠ id → t.store.candidates.lookup cid = s.store.candidates.lookup cid)
  spender : t.store.candidates.lookup id = (s.store.candidates.lookup id).map spender
  settled : t.sign.pending.lookup id = none
  sibling : ∀ c, s.store.candidates.lookup id = some c → t.sign.pending.lookup c.pairedCommitmentId = none
  timers : ∀ cid, cid ≠ id → (∀ c, ¬Defeated s.store id cid c) →
    (∀ c, s.store.candidates.lookup id = some c → cid ≠ c.pairedCommitmentId) →
    t.sign.pending.lookup cid = s.sign.pending.lookup cid

theorem lookup_foldl_removed {id : String} {ids : List String} (inside : id ∈ ids) (pending : PendingLog) :
    (ids.foldl PendingLog.remove pending).lookup id = none := by
  induction ids generalizing pending with
  | nil => cases inside
  | cons first rest ih =>
    rw [List.foldl_cons]
    by_cases later : id ∈ rest
    · exact ih later _
    · rw [lookup_foldl_remove later]
      rcases List.mem_cons.mp inside with rfl | contrary
      · exact AList.lookup_erase _ _
      · exact absurd contrary later

theorem mem_settledIds {id cid : String} {paired : Option String} {invalidated : List String} :
    cid ∈ settledIds id paired invalidated ↔ cid = id ∨ paired = some cid ∨ cid ∈ invalidated := by
  simp [settledIds, Option.mem_toList]

theorem pairing_eq_some {s : PartialStore} {id cid : String} :
    (s.pairing id).map Prod.snd = some cid ↔ ∃ c, s.candidates.lookup id = some c ∧ c.pairedCommitmentId = cid := by
  unfold pairing
  cases s.candidates.lookup id with
  | none => simp
  | some c => simp

section Sections

variable {id : String} {s : PartialStore}

theorem settleStore_true (id : String) (s : PartialStore) :
    settleStore id true s = ((s.hotConflicts id).foldl terminalize s, s.hotConflicts id) := rfl

theorem settleStore_false (calm : s.isArmedEscape id = false) :
    settleStore id false s = (((s.hotConflicts id).foldl terminalize s).setBroadcast id, s.hotConflicts id) := by
  have still : ((s.hotConflicts id).foldl terminalize s).isArmedEscape id = false := by
    rw [← calm]
    simp only [isArmedEscape, foldl_terminalize_armed]
  simp only [settleStore, markBroadcast, invalidateHotConflicts, still, Bool.false_eq_true, if_false]

end Sections

/-- The store section decides all of it but the timers. -/
theorem projects_of_sections {id : String} {armedEscape : Bool} {spender : Candidate → Candidate} {s : NodeState}
    (keyed : Keyed s.store) (invalidated : (settleStore id armedEscape s.store).2 = s.store.hotConflicts id)
    (budget : (settleStore id armedEscape s.store).1.hotBudget =
      ((s.store.hotConflicts id).foldl terminalize s.store).hotBudget)
    (others : ∀ cid, cid ≠ id → (settleStore id armedEscape s.store).1.candidates.lookup cid =
      ((s.store.hotConflicts id).foldl terminalize s.store).candidates.lookup cid)
    (own : (settleStore id armedEscape s.store).1.candidates.lookup id =
      (((s.store.hotConflicts id).foldl terminalize s.store).candidates.lookup id).map spender) :
    Projects id spender s (settle armedEscape id s) := by
  have ledger : ∀ cid, reservationOf cid (settle armedEscape id s).store =
      if cid ∈ s.store.hotConflicts id ∧ (s.store.candidates.lookup cid).any Candidate.isUnexposedHot then none
      else reservationOf cid s.store := by
    intro cid
    rw [← foldl_terminalize_reservation _ keyed]
    simp only [reservationOf, settle, budget]
  have pending : (settle armedEscape id s).sign.pending = (settledIds id ((s.store.pairing id).map Prod.snd)
      (s.store.hotConflicts id)).foldl PendingLog.remove s.sign.pending := by
    simp only [settle, invalidated]
  constructor
  case defeated =>
    intro cid c defeated
    refine ⟨?_, ?_, ?_⟩
    · rw [show (settle armedEscape id s).store = (settleStore id armedEscape s.store).1 from rfl,
        others cid defeated.other, foldl_terminalize_lookup, if_pos (mem_hotConflicts.mpr ⟨c, defeated⟩),
        defeated.resident]
      rfl
    · rw [pending]
      exact lookup_foldl_removed (mem_settledIds.mpr (.inr (.inr (mem_hotConflicts.mpr ⟨c, defeated⟩)))) _
    · rw [ledger, defeated.resident]
      simp [mem_hotConflicts.mpr ⟨c, defeated⟩]
  case others =>
    intro cid undefeated
    refine ⟨?_, fun other => ?_⟩
    · rw [ledger, if_neg]
      rintro ⟨member, _⟩
      obtain ⟨c, defeated⟩ := mem_hotConflicts.mp member
      exact undefeated c defeated
    · rw [show (settle armedEscape id s).store = (settleStore id armedEscape s.store).1 from rfl, others cid other,
        foldl_terminalize_lookup, if_neg]
      intro member
      obtain ⟨c, defeated⟩ := mem_hotConflicts.mp member
      exact undefeated c defeated
  case spender =>
    rw [show (settle armedEscape id s).store = (settleStore id armedEscape s.store).1 from rfl, own,
      foldl_terminalize_lookup, if_neg]
    intro member
    obtain ⟨c, defeated⟩ := mem_hotConflicts.mp member
    exact defeated.other rfl
  case settled =>
    rw [pending]
    exact lookup_foldl_removed (mem_settledIds.mpr (.inl rfl)) _
  case sibling =>
    intro c found
    rw [pending]
    exact lookup_foldl_removed (mem_settledIds.mpr (.inr (.inl (pairing_eq_some.mpr ⟨c, found, rfl⟩)))) _
  case timers =>
    intro cid other undefeated unpaired
    rw [pending]
    apply lookup_foldl_remove
    rw [mem_settledIds]
    rintro (same | sibling | member)
    · exact other same
    · obtain ⟨c, found, named⟩ := pairing_eq_some.mp sibling
      exact unpaired c found named.symm
    · obtain ⟨c, defeated⟩ := mem_hotConflicts.mp member
      exact undefeated c defeated

/-- `settle_candidate`, for anything but a live armed escape. -/
theorem projects_settle_candidate {id : String} {s : NodeState} (keyed : Keyed s.store)
    (calm : s.store.isArmedEscape id = false) : Projects id Candidate.marked s (settle false id s) := by
  have sections := settleStore_false calm
  refine projects_of_sections keyed (by rw [sections]) (by rw [sections]; rfl) ?_ ?_
  · intro cid other
    rw [sections]
    exact lookup_adjust_ne other _ _
  · rw [sections]
    exact lookup_adjust_self _ _ _

/-- The confirmed branch, for any spender. -/
theorem projects_settle_confirmed {id : String} {s : NodeState} (keyed : Keyed s.store) :
    Projects id (fun c => c) s (settle true id s) := by
  refine projects_of_sections keyed rfl rfl (fun _ _ => rfl) ?_
  rw [settleStore_true]
  simp

/-! ### Settling again -/

/-- A candidate of the later store is one of the earlier store, marked at most. -/
theorem Projects.origin {id : String} {spender : Candidate → Candidate} {s t : NodeState}
    (projects : Projects id spender s t) (marks : ∀ c, spender c = c ∨ spender c = c.marked) {cid : String}
    {later : Candidate} (found : t.store.candidates.lookup cid = some later) :
    ∃ c, s.store.candidates.lookup cid = some c ∧ (later = c ∨ later = c.marked) := by
  by_cases defeated : ∃ c, Defeated s.store id cid c
  · obtain ⟨c, defeated⟩ := defeated
    rw [(projects.defeated cid c defeated).1, Option.some.injEq] at found
    exact ⟨c, defeated.resident, .inr found.symm⟩
  · have undefeated : ∀ c, ¬Defeated s.store id cid c := not_exists.mp defeated
    by_cases own : cid = id
    · rw [own, projects.spender, Option.map_eq_some_iff] at found
      obtain ⟨c, present, rfl⟩ := found
      exact ⟨c, own ▸ present, marks c⟩
    · rw [(projects.others cid undefeated).2 own] at found
      exact ⟨later, found, .inl rfl⟩

/-- A second scan defeats nobody new. -/
theorem Projects.defeated_again {id : String} {spender : Candidate → Candidate} {s t : NodeState}
    (projects : Projects id spender s t) (marks : ∀ c, spender c = c ∨ spender c = c.marked) {cid : String}
    {later : Candidate} (again : Defeated t.store id cid later) : ∃ c, Defeated s.store id cid c := by
  obtain ⟨c, resident, same⟩ := projects.origin marks again.resident
  obtain ⟨other, found, input, spends, spent⟩ := again.shares
  obtain ⟨own, present, same'⟩ := projects.origin marks found
  have hot : c.hot = true := by
    have flag := again.hot
    rcases same with rfl | rfl
    · exact flag
    · exact flag
  have inputs : later.spentInputs = c.spentInputs := by rcases same with rfl | rfl <;> rfl
  have inputs' : other.spentInputs = own.spentInputs := by rcases same' with rfl | rfl <;> rfl
  exact ⟨c, again.other, resident, hot, own, present, input, inputs ▸ spends, inputs' ▸ spent⟩

theorem foldl_remove_fixed {ids : List String} {pending : PendingLog} (absent : ∀ id ∈ ids, pending.lookup id = none) :
    ids.foldl PendingLog.remove pending = pending := by
  induction ids with
  | nil => rfl
  | cons first rest ih =>
    have same : PendingLog.remove pending first = pending := erase_absent (absent first List.mem_cons_self)
    rw [List.foldl_cons, same]
    exact ih (fun id member => absent id (List.mem_cons_of_mem first member))

/-- The step again changes nothing. -/
theorem settle_again {id : String} {armedEscape : Bool} {spender : Candidate → Candidate} {s : NodeState}
    (projects : Projects id spender s (settle armedEscape id s)) (marks : ∀ c, spender c = c ∨ spender c = c.marked)
    (store : ∀ t : PartialStore, (t.hotConflicts id).foldl terminalize t = t →
      t.candidates.lookup id = (s.store.candidates.lookup id).map spender → t.armed = s.store.armed →
      settleStore id armedEscape t = (t, t.hotConflicts id))
    (armed : (settle armedEscape id s).store.armed = s.store.armed) :
    settle armedEscape id (settle armedEscape id s) = settle armedEscape id s := by
  generalize settle armedEscape id s = t at projects armed ⊢
  have fixed : (t.store.hotConflicts id).foldl terminalize t.store = t.store := by
    apply foldl_terminalize_fixed
    intro cid member later found
    obtain ⟨again, defeated⟩ := mem_hotConflicts.mp member
    obtain ⟨c, before⟩ := projects.defeated_again marks defeated
    rw [(projects.defeated cid c before).1, Option.some.injEq] at found
    exact found ▸ rfl
  have same := store t.store fixed projects.spender armed
  have cleared : (settledIds id ((t.store.pairing id).map Prod.snd) (t.store.hotConflicts id)).foldl PendingLog.remove
      t.sign.pending = t.sign.pending := by
    apply foldl_remove_fixed
    intro cid member
    rcases mem_settledIds.mp member with rfl | paired | conflict
    · exact projects.settled
    · obtain ⟨later, found, named⟩ := pairing_eq_some.mp paired
      obtain ⟨c, present, same | same⟩ := projects.origin marks found
      · rw [← named, same]
        exact projects.sibling c present
      · rw [← named, same]
        exact projects.sibling c present
    · obtain ⟨again, defeated⟩ := mem_hotConflicts.mp conflict
      obtain ⟨c, before⟩ := projects.defeated_again marks defeated
      exact (projects.defeated cid c before).2.1
  simp only [settle, same, cleared]

theorem settle_candidate_again {id : String} {s : NodeState} (keyed : Keyed s.store)
    (calm : s.store.isArmedEscape id = false) : settle false id (settle false id s) = settle false id s := by
  apply settle_again (projects_settle_candidate keyed calm) (fun _ => .inr rfl)
  · intro t fixed own armed
    have still : t.isArmedEscape id = false := by
      rw [← calm]
      simp only [isArmedEscape, armed]
    have latched : t.setBroadcast id = t := by
      have kept : adjust id (fun c => { c with broadcast := true }) t.candidates = t.candidates := by
        apply adjust_fixed
        intro c found
        rw [own, Option.map_eq_some_iff] at found
        obtain ⟨_, _, rfl⟩ := found
        rfl
      simp only [setBroadcast, updateCandidate, kept]
    rw [settleStore_false still, fixed, latched]
  · show (settleStore id false s.store).1.armed = s.store.armed
    rw [settleStore_false calm]
    exact foldl_terminalize_armed _ _

theorem settle_confirmed_again {id : String} {s : NodeState} (keyed : Keyed s.store) :
    settle true id (settle true id s) = settle true id s := by
  apply settle_again (projects_settle_confirmed keyed) (fun _ => .inl rfl)
  · intro t fixed _ _
    rw [settleStore_true, fixed]
  · exact foldl_terminalize_armed _ _

/-! ### A registration between the two sections -/

/-- What a handler may do to a candidate it does not name: it evolves or goes, nothing is reserved for it, and the
reservation of one that has nothing to refund stays unless it is in `gone`. -/
structure Bystander (gone : HotReservation → Prop) (id : String) (s t : PartialStore) : Prop where
  budget : t.hotBudget.budget = s.hotBudget.budget
  evolves : ∀ later, t.candidates.lookup id = some later →
    ∃ earlier, s.candidates.lookup id = some earlier ∧ earlier.Later later
  adds : ∀ r, reservationOf id t = some r → reservationOf id s = some r
  keeps : NothingToRefund id s → ∀ r, reservationOf id s = some r → ¬gone r → reservationOf id t = some r

namespace Bystander

variable {gone : HotReservation → Prop} {id : String} {s t u : PartialStore}

theorem of_same (candidates : t.candidates = s.candidates) (hotBudget : t.hotBudget = s.hotBudget) :
    Bystander gone id s t := by
  have held : reservationOf id t = reservationOf id s := by
    rw [reservationOf, hotBudget]
    rfl
  refine ⟨congrArg _ hotBudget, ?_, fun r found => held ▸ found, fun _ r found _ => held.trans found⟩
  intro later found
  rw [candidates] at found
  exact ⟨later, found, (Candidate.Steady.refl later).toLater⟩

theorem trans (first : Bystander gone id s t) (second : Bystander gone id t u) : Bystander gone id s u := by
  refine ⟨second.budget.trans first.budget, ?_, fun r found => first.adds r (second.adds r found), ?_⟩
  · intro last found
    obtain ⟨middle, atMiddle, later⟩ := second.evolves last found
    obtain ⟨earlier, atEarlier, before⟩ := first.evolves middle atMiddle
    exact ⟨earlier, atEarlier, before.trans later⟩
  · intro spent r found kept
    have still : NothingToRefund id t := by
      intro middle atMiddle
      obtain ⟨earlier, atEarlier, before⟩ := first.evolves middle atMiddle
      by_contra unexposed
      have contrary := unexposed_earlier before (by simpa using unexposed)
      rw [spent earlier atEarlier] at contrary
      cases contrary
    exact second.keeps still r (first.keeps spent r found kept) kept

theorem of_follows (follows : Follows id s t) (budget : t.hotBudget.budget = s.hotBudget.budget) :
    Bystander gone id s t := by
  refine ⟨budget, follows.evolves, ?_, ?_⟩
  · intro r found
    rcases follows.ledger with same | ⟨empty, _⟩
    · exact same.symm.trans found
    · rw [empty] at found
      cases found
  · intro spent r found _
    rcases follows.ledger with same | ⟨_, ⟨c, resident, unexposed⟩, _⟩
    · exact same.trans found
    · rw [spent c resident] at unexposed
      cases unexposed

/-- A reservation of another name, taken or handed back. -/
theorem of_release {other : String} (different : id ≠ other) :
    Bystander gone id s { s with hotBudget := s.hotBudget.release other } := by
  have held : reservationOf id { s with hotBudget := s.hotBudget.release other } = reservationOf id s :=
    (release_lookup s.hotBudget other id).trans (if_neg different)
  refine ⟨rfl, fun later found => ⟨later, found, (Candidate.Steady.refl later).toLater⟩,
    fun r found => held.symm.trans found, fun _ r found _ => held.trans found⟩

theorem of_reserve {other : String} (different : id ≠ other) (outflow mono wall expiry : Nat)
    (aged : ∀ r, Aged s.hotBudget.budget mono wall r → gone r) :
    Bystander gone id s { s with hotBudget := (s.hotBudget.reserve other outflow mono wall expiry).1 } := by
  refine ⟨reserve_budget _ _ _ _ _ _, fun later found => ⟨later, found, (Candidate.Steady.refl later).toLater⟩, ?_, ?_⟩
  · intro r found
    rcases reserve_lookup found with ⟨old, _⟩ | ⟨_, here, _⟩
    · exact old
    · exact absurd here different
  · intro _ r found kept
    apply reserve_keeps_live _ _ _ _ _ found
    by_contra dead
    exact kept (aged r (by simpa [Aged, HotBudgetLedger.floor] using dead))

end Bystander

section Handler

variable {node : NodeConfig} {ch : ChannelState} (mounted : node.channel = some ch) {id : String}
include mounted

theorem bystander_stage {gone : HotReservation → Prop} (request : TaggedRequest) (carrier : String) (s : NodeState) :
    Bystander gone id s.store (node.stageSpendCarrier request carrier s).store :=
  .of_same (sameBooks_stageSpendCarrier mounted s request carrier).candidates
    (sameBooks_stageSpendCarrier mounted s request carrier).hotBudget

theorem bystander_unwind {gone : HotReservation → Prop} (created : Bool) {other : String} (different : id ≠ other)
    (s : NodeState) : Bystander gone id s.store (node.unwindHotReservation created other s).store := by
  cases created with
  | false => exact .of_same rfl rfl
  | true =>
    simp only [unwindHotReservation, onStore, mounted]
    exact .of_release different

theorem bystander_pruneLogs {gone : HotReservation → Prop} (now pruneMono : Nat) (s : NodeState) :
    Bystander gone id s.store (node.pruneLogs now pruneMono s).store := by
  have swept := thins_pruneLogs mounted s now pruneMono
  have budget := swept.budget
  simp only [pruneLogs, onStore, mounted] at budget ⊢
  have carriers : Bystander gone id s.store (s.store.pruneCarriers pruneMono) := .of_same rfl rfl
  exact carriers.trans (.of_follows (follows_prune _ now) budget)

theorem bystander_registerPair {gone : HotReservation → Prop} {pair : RegisterPair} (monoNow : Nat)
    (spend : id ≠ pair.spendCommitmentId) (escape : id ≠ pair.escapeCommitmentId)
    (claim : ∀ spec, pair.hotReserve = some spec → id ≠ spec.commitmentId) (s : NodeState)
    (aged : ∀ spec, pair.hotReserve = some spec → ∀ r, Aged s.store.hotBudget.budget monoNow spec.wallNow r → gone r) :
    Bystander gone id s.store (node.registerPair pair monoNow s).1.store := by
  unfold registerPair
  simp only [mounted]
  cases built : buildCandidates ch.lib node.keys pair.specs with
  | error refused => exact .of_same rfl rfl
  | ok candidates =>
    have whole := buildAll_of_buildCandidates built
    have registers : Bystander gone id s.store
        (registerCandidates ch s.store candidates (node.armDirective pair) pair.hotReserve monoNow).1 := by
      refine ⟨registerCandidates_budget _ _ _ _ _ _, ?_, ?_, ?_⟩
      · intro later found
        rcases registerCandidates_lookup whole found with ⟨earlier, present, steady⟩ | ⟨_, request, asked, _, named⟩
        · exact ⟨earlier, present, steady.toLater⟩
        · obtain ⟨spec, member, rfl⟩ := List.mem_map.mp asked
          rcases specs_ids member with same | same
          · exact absurd (named.symm.trans same) spend
          · exact absurd (named.symm.trans same) escape
      · intro r found
        rcases registerCandidates_origin (pair.specs.map (fun spec => ⟨spec, node.keys⟩)) found with
          ⟨old, _⟩ | ⟨spec, own, named, _⟩
        · exact old
        · exact absurd named.symm (claim spec own)
      · intro _ r found kept
        apply @registerCandidates_keeps _ _ (pair.specs.map (fun spec => ⟨spec, node.keys⟩)) _ _ _ _ _ candidates found
        rintro ⟨mono, wall, reading, dead⟩
        cases own : pair.hotReserve with
        | none =>
          rw [own] at reading
          cases reading
        | some spec =>
          rw [own] at reading
          cases reading
          exact kept (aged spec own r dead)
    simp only
    split
    · exact registers
    · exact registers

variable (s : NodeState) (flight : Flight) (verdict : PinVerdict) (carrier : String) {pair : SpendPair}
  (spend : id ≠ pair.commitmentId) (escape : id ≠ pair.escapeCommitmentId) (clock : RegistrationClock)
include spend escape

theorem bystander_admitPair (txClass : TxClass) (outflow fireAt now : Nat) (created : Bool) :
    Bystander (Retired s.store.hotBudget.budget clock) id s.store
      (node.admitPair flight verdict carrier pair txClass outflow fireAt now created clock s).1.store := by
  have staged := @bystander_stage node ch mounted id (Retired s.store.hotBudget.budget clock) (.spend flight.request)
    carrier s
  unfold admitPair
  simp only
  generalize pairing : RegisterPair.mk _ _ _ _ _ _ _ _ _ _ _ _ _ = registering
  have registers : Bystander (Retired s.store.hotBudget.budget clock) id
      (node.stageSpendCarrier (.spend flight.request) carrier s).store
      (node.registerPair registering clock.register (node.stageSpendCarrier (.spend flight.request) carrier s)).1.store := by
    subst pairing
    apply bystander_registerPair mounted clock.register spend escape
    · intro spec own
      simp only at own
      split_ifs at own
      cases own
      exact spend
    · intro spec own r aged
      simp only at own
      split_ifs at own
      cases own
      rw [staged.budget] at aged
      exact .inr aged
  split
  next u refused registered =>
    rw [registered] at registers
    exact (staged.trans registers).trans (bystander_unwind mounted created spend u)
  next u _ registered =>
    rw [registered] at registers
    exact (staged.trans registers).trans (.of_same rfl rfl)

theorem bystander_admitReserved (classified : Classification) (now : Nat) (escapePrevouts : Option PrevoutFetch)
    (created : Bool) :
    Bystander (Retired s.store.hotBudget.budget clock) id s.store
      (node.admitReserved flight verdict carrier pair classified now escapePrevouts created clock s).1.store := by
  unfold admitReserved
  split
  next refused _ =>
    have unwound := @bystander_unwind node ch mounted id (Retired s.store.hotBudget.budget clock) created _ spend s
    simp only
    split_ifs
    · exact unwound.trans (bystander_stage mounted _ _ _)
    · exact unwound
  next signed fireAt valid =>
    obtain ⟨sameSpend, sameEscape, _⟩ := validatePair_names node valid
    apply bystander_admitPair mounted
    · rwa [sameSpend]
    · rwa [sameEscape]

theorem bystander_meterSpend (classified : Classification) (now : Nat) (escapePrevouts : Option PrevoutFetch) :
    Bystander (Retired s.store.hotBudget.budget clock) id s.store
      (node.meterSpend flight verdict carrier pair classified now escapePrevouts clock s).1.store := by
  have reserves := @Bystander.of_reserve (Retired s.store.hotBudget.budget clock) id s.store _ spend
    classified.hotOutflow clock.reserve clock.wall flight.request.expiry (fun _ aged => .inl aged)
  have budget := reserves.budget
  unfold meterSpend
  simp only [mounted, Option.isSome_some, and_true]
  by_cases hot : classified.txClass = .hot
  · simp only [hot, if_true]
    generalize s.store.hotBudget.reserve pair.commitmentId classified.hotOutflow clock.reserve clock.wall
      flight.request.expiry = answer at reserves budget ⊢
    split
    · exact reserves.trans (bystander_stage mounted (.spend flight.request) carrier
        { s with store := { s.store with hotBudget := answer.1 } })
    · have admits := bystander_admitReserved mounted { s with store := { s.store with hotBudget := answer.1 } } flight
        verdict carrier spend escape clock classified now escapePrevouts
      simp only at admits budget
      rw [budget] at admits
      exact reserves.trans (admits _)
  · simp only [hot, if_false]
    exact bystander_admitReserved mounted s flight verdict carrier spend escape clock classified now escapePrevouts _

theorem bystander_judgeSpend (now : Nat) (spendPrevouts escapePrevouts : Option PrevoutFetch) :
    Bystander (Retired s.store.hotBudget.budget clock) id s.store
      (node.judgeSpend flight verdict carrier pair now spendPrevouts escapePrevouts clock s).1.store := by
  unfold judgeSpend
  simp only
  split
  · split_ifs
    · exact (bystander_stage mounted (.spend flight.request) carrier s).trans (.of_same rfl rfl)
    · exact .of_same rfl rfl
  · split
    · exact .of_same rfl rfl
    · split_ifs
      · exact .of_same rfl rfl
      · exact bystander_meterSpend mounted s flight verdict carrier spend escape clock _ now escapePrevouts

omit spend escape in
theorem bystander_replayAccepted {gone : HotReservation → Prop} (pair : SpendPair) (now : Nat) :
    Bystander gone id s.store (node.replayAccepted flight verdict carrier pair now s).store := by
  have scheduled : Bystander gone id s.store
      (s.store.applyCachedSchedule pair.escapeCommitmentId (decide (verdict = .duress)) now node.epsilonSecs) := by
    apply Bystander.of_follows
    · exact Follows.of_kept (kept_applyArmDirective _ _ _) (applyArmDirective_hotBudget _ _ _)
    · exact congrArg _ (applyArmDirective_hotBudget _ _ _)
  have attached := scheduled.trans (u := (s.store.applyCachedSchedule pair.escapeCommitmentId
    (decide (verdict = .duress)) now node.epsilonSecs).recordIntentPair carrier pair.commitmentId
    pair.escapeCommitmentId) (.of_same rfl rfl)
  unfold replayAccepted
  simp only [onStore, mounted]
  exact attached.trans (bystander_stage mounted (.spend flight.request) carrier { s with store := _ })

theorem bystander_answerPair (now : Nat) (spendPrevouts escapePrevouts : Option PrevoutFetch) :
    Bystander (Retired s.store.hotBudget.budget clock) id s.store
      (node.answerPair flight verdict carrier pair now spendPrevouts escapePrevouts clock s).1.store := by
  unfold answerPair
  simp only
  split
  · exact bystander_replayAccepted mounted
      { s with sign := { s.sign with replay := ReplayLog.prune s.sign.replay now } } flight verdict carrier pair now
  · split
    · exact .of_same rfl rfl
    · split
      · exact bystander_stage mounted _ _ { s with sign := { s.sign with replay := ReplayLog.prune s.sign.replay now } }
      · have swept := @bystander_pruneLogs node ch mounted id (Retired s.store.hotBudget.budget clock) now clock.prune
          { s with sign := { s.sign with replay := ReplayLog.prune s.sign.replay now } }
        have judged := bystander_judgeSpend mounted (node.pruneLogs now clock.prune
          { s with sign := { s.sign with replay := ReplayLog.prune s.sign.replay now } }) flight verdict carrier spend
          escape clock now spendPrevouts escapePrevouts
        rw [swept.budget] at judged
        exact swept.trans judged

omit spend escape in
/-- The whole hold, for a name the request does not carry. -/
theorem bystander_registrationHold (spendPrevouts escapePrevouts : Option PrevoutFetch)
    (unnamed : ∀ pair, node.decodePair flight.request = .ok pair → id ≠ pair.commitmentId ∧ id ≠ pair.escapeCommitmentId) :
    Bystander (Retired s.store.hotBudget.budget clock) id s.store
      (node.registrationHold flight verdict carrier spendPrevouts escapePrevouts clock s).1.store := by
  unfold registrationHold
  split_ifs
  · exact .of_same rfl rfl
  · simp only
    split
    · exact bystander_stage mounted _ _ s
    · split
      · exact .of_same rfl rfl
      next pair decoded =>
        obtain ⟨spend, escape⟩ := unnamed pair decoded
        exact bystander_answerPair mounted s flight verdict carrier spend escape clock _ spendPrevouts escapePrevouts

end Handler

/-- A settlement with something else between its store section and its pending-log section. -/
def settleAround (between : NodeState → NodeState) (armedEscape : Bool) (commitmentId : String) (s : NodeState) :
    NodeState :=
  let paired := (s.store.pairing commitmentId).map Prod.snd
  let marked := settleStore commitmentId armedEscape s.store
  let t := between { s with store := marked.1 }
  { t with
    sign := { t.sign with
      pending := (settledIds commitmentId paired marked.2).foldl PendingLog.remove t.sign.pending } }

/-- The machine's own interleaving: a thread takes its registration hold between the two sections. -/
theorem exec_settleAround (node : NodeConfig) (w : World) (key thread : Nat) (commitmentId : String) (armedEscape : Bool)
    (idle : w.settlements.lookup key = none) {held : Thread} (waiting : w.threads.lookup thread = some held)
    {flight : Flight} (window : held.phase = .windowB flight) (replies : Option (ChainReply × ChainReply))
    (clock : RegistrationClock) :
    (exec node.nodeStep w [.settleRead key commitmentId, .settleMark key armedEscape,
        .advance thread (.register replies clock), .settleRelease key]).node =
      settleAround (fun t => (node.registerSection flight replies clock t).1) armedEscape commitmentId w.node := by
  have holds : ∀ s, node.advance held s (.register replies clock) = some (node.registerSection flight replies clock s) := by
    intro s
    unfold advance
    rw [window]
  simp [exec, nodeStep, idle, waiting, holds, settleAround]

/-- What a registration between the sections leaves of the settlement. The candidates its store section has found are off
the timers; those the request does not name stay marked while they are resident, nothing is reserved for them again,
and a kept reservation goes only by ageing out at the hold's readings. Of everything else, a candidate the hold
itself has registered included, the pending-log section changes nothing. -/
structure Interleaves (node : NodeConfig) (armedEscape : Bool) (id : String) (request : SignRequest)
    (clock : RegistrationClock) (hold : NodeState → NodeState) (s : NodeState) : Prop where
  timers : ∀ cid c, Defeated s.store id cid c → (settleAround hold armedEscape id s).sign.pending.lookup cid = none
  defeated : ∀ cid c, Defeated s.store id cid c →
    (∀ pair, node.decodePair request = .ok pair → cid ≠ pair.commitmentId ∧ cid ≠ pair.escapeCommitmentId) →
    (∀ later, (settleAround hold armedEscape id s).store.candidates.lookup cid = some later → later.broadcast = true) ∧
      (∀ r, reservationOf cid (settleAround hold armedEscape id s).store = some r →
        c.isUnexposedHot = false ∧ reservationOf cid s.store = some r) ∧
      (c.isUnexposedHot = false → ∀ r, reservationOf cid s.store = some r →
        ¬Retired s.store.hotBudget.budget clock r → reservationOf cid (settleAround hold armedEscape id s).store = some r)
  others : (settleAround hold armedEscape id s).store =
      (hold { s with store := (settleStore id armedEscape s.store).1 }).store ∧
    ∀ cid, cid ≠ id → (∀ c, ¬Defeated s.store id cid c) →
      (∀ c, s.store.candidates.lookup id = some c → cid ≠ c.pairedCommitmentId) →
      (settleAround hold armedEscape id s).sign.pending.lookup cid =
        (hold { s with store := (settleStore id armedEscape s.store).1 }).sign.pending.lookup cid

theorem interleaves_registration {node : NodeConfig} {ch : ChannelState} (mounted : node.channel = some ch)
    {armedEscape : Bool} {id : String} {spender : Candidate → Candidate} {s : NodeState}
    (invalidated : (settleStore id armedEscape s.store).2 = s.store.hotConflicts id)
    (budget : (settleStore id armedEscape s.store).1.hotBudget.budget = s.store.hotBudget.budget)
    (projects : Projects id spender s (settle armedEscape id s)) (flight : Flight)
    (replies : Option (ChainReply × ChainReply)) (clock : RegistrationClock) :
    Interleaves node armedEscape id flight.request clock (fun t => (node.registerSection flight replies clock t).1) s := by
  have removed : ∀ cid, cid ∈ settledIds id ((s.store.pairing id).map Prod.snd) (settleStore id armedEscape s.store).2 ↔
      cid = id ∨ (s.store.pairing id).map Prod.snd = some cid ∨ ∃ c, Defeated s.store id cid c := by
    intro cid
    rw [mem_settledIds, invalidated, mem_hotConflicts]
  refine ⟨?_, ?_, rfl, ?_⟩
  · intro cid c defeated
    exact lookup_foldl_removed ((removed cid).mpr (.inr (.inr ⟨c, defeated⟩))) _
  · intro cid c defeated unnamed
    obtain ⟨marked, _, refunded⟩ := projects.defeated cid c defeated
    have stands := bystander_registrationHold mounted { s with store := (settleStore id armedEscape s.store).1 } flight
      (pinVerdict (node.rules.verifyPin flight.request.pin) flight.request) (node.carrierOf flight.request) clock
      (node.prefetchSpendEscapePrevouts flight.request replies).1
      (node.prefetchSpendEscapePrevouts flight.request replies).2 unnamed
    have spent : NothingToRefund cid (settleStore id armedEscape s.store).1 := by
      intro other found
      cases marked.symm.trans found
      simp [Candidate.isUnexposedHot, Candidate.marked]
    refine ⟨?_, ?_, ?_⟩
    · intro later found
      obtain ⟨earlier, present, evolved⟩ := stands.evolves later found
      cases marked.symm.trans present
      exact evolved.broadcast rfl
    · intro r found
      have before := stands.adds r found
      have kept := refunded.symm.trans before
      split_ifs at kept with unexposed
      exact ⟨by simpa using unexposed, kept⟩
    · intro exposed r found live
      rw [exposed, if_neg Bool.false_ne_true] at refunded
      apply stands.keeps spent r (refunded.trans found)
      rwa [show ({ s with store := (settleStore id armedEscape s.store).1 } : NodeState).store =
        (settleStore id armedEscape s.store).1 from rfl, budget]
  · intro cid other undefeated unpaired
    apply lookup_foldl_remove
    rw [removed]
    rintro (same | sibling | ⟨c, defeated⟩)
    · exact other same
    · obtain ⟨c, found, named⟩ := pairing_eq_some.mp sibling
      exact unpaired c found named.symm
    · exact undefeated c defeated

theorem nodeStep_keyed {node : NodeConfig} {ch : ChannelState} (mounted : node.channel = some ch) (w : World)
    (op : NodeOp) (keyed : Keyed w.node.store) : Keyed (node.nodeStep w op).1.node.store := by
  by_cases background : ∃ store, op = .background store
  · obtain ⟨store, rfl⟩ := background
    simp only [nodeStep, onStore, mounted]
    exact keyed_step ch w.node.store store keyed
  · have moves := moves_nodeStep mounted w op (fun store same => absurd ⟨store, same⟩ background)
    exact Reaches.invariant moves Keyed (fun s op _ keyed => keyed_step ch s op keyed) keyed

theorem nodeAfter_keyed {node : NodeConfig} {ch : ChannelState} (mounted : node.channel = some ch) {config : StoreConfig}
    {start : NodeState} (fresh : start.store = initialStore config) (run : List NodeOp) :
    Keyed (node.nodeAfter start run).node.store := by
  apply exec_invariant node.nodeStep (fun w => Keyed w.node.store) (nodeStep_keyed mounted)
  intro id c found
  rw [show (⟨{ start with spendPreflight := 0 }, ∅, ∅⟩ : World).node.store = initialStore config from fresh] at found
  cases found

/-- Settlement in every state a run reaches: a candidate that is no live armed escape, a confirmed spender of any kind, and
either of them with a registration between the two sections. -/
theorem settlement_moves_projections_together {node : NodeConfig} {ch : ChannelState}
    (mounted : node.channel = some ch) {config : StoreConfig} {start : NodeState}
    (fresh : start.store = initialStore config) (run : List NodeOp) (id : String) :
    let s := (node.nodeAfter start run).node
    (s.store.isArmedEscape id = false →
        Projects id Candidate.marked s (settle false id s) ∧ settle false id (settle false id s) = settle false id s) ∧
      (Projects id (fun c => c) s (settle true id s) ∧ settle true id (settle true id s) = settle true id s) ∧
      ∀ armedEscape, (armedEscape = false → s.store.isArmedEscape id = false) →
        ∀ (flight : Flight) (replies : Option (ChainReply × ChainReply)) (clock : RegistrationClock),
          Interleaves node armedEscape id flight.request clock
            (fun t => (node.registerSection flight replies clock t).1) s := by
  intro s
  have keyed : Keyed s.store := nodeAfter_keyed mounted fresh run
  refine ⟨fun calm => ⟨projects_settle_candidate keyed calm, settle_candidate_again keyed calm⟩,
    ⟨projects_settle_confirmed keyed, settle_confirmed_again keyed⟩, ?_⟩
  intro armedEscape calm flight replies clock
  cases armedEscape with
  | true =>
    have budget : (settleStore id true s.store).1.hotBudget.budget = s.store.hotBudget.budget :=
      foldl_terminalize_budget _ _
    exact interleaves_registration mounted rfl budget (projects_settle_confirmed keyed) flight replies clock
  | false =>
    have sections := settleStore_false (calm rfl)
    refine interleaves_registration mounted (by rw [sections]) ?_ (projects_settle_candidate keyed (calm rfl)) flight
      replies clock
    rw [sections]
    exact foldl_terminalize_budget _ _

namespace Sample
open Channel.Sample

/-- The escape of the first request, and the spend that a second request makes of the same coin. -/
def sweepId : String := rules.commitmentId (psbt 1 11) 5000

def paidSpendId : String := rules.commitmentId (psbt 1 10) 5000

def newcomerId : String := rules.commitmentId (psbt 1 10) 6000

/-- The second request waits in front of its registration. -/
def crossing : List NodeOp :=
  spendEntry 0 (spendRequest "nonce-a" 5000) 100 ++ [registration 0 100] ++
    spendEntry 1 (spendRequest "nonce-b" 6000) 110

def crossingState : NodeState := (node.nodeAfter start crossing).node

/-- It registers between the sections of the escape's settlement. -/
def crossed : World :=
  exec node.nodeStep (node.nodeAfter start crossing)
    [.settleRead 7 sweepId, .settleMark 7 false, registration 1 120, .settleRelease 7]

/-- A live armed escape with its pair. -/
def armedState : NodeState := { start with store := storeAfter channel config (confirmedRun true) }

/-- `id` is a hot resident that shares a coin with the resident `spenderId`, and unmarked or not, as `mark` says. -/
def sharesCoin (s : PartialStore) (spenderId id : String) (mark : Bool) : Bool :=
  decide (id ≠ spenderId) && (s.candidates.lookup id).any (fun c => c.hot && (c.broadcast == mark) &&
    (s.candidates.lookup spenderId).any (fun spender =>
      c.spentInputs.any (fun input => decide (input ∈ spender.spentInputs))))

theorem defeated_of_sharesCoin {s : PartialStore} {spenderId id : String} {mark : Bool}
    (shared : sharesCoin s spenderId id mark = true) : ∃ c, Defeated s spenderId id c ∧ c.broadcast = mark := by
  simp only [sharesCoin, Bool.and_eq_true, decide_eq_true_eq, Option.any_eq_true, List.any_eq_true, beq_iff_eq] at shared
  obtain ⟨other, c, resident, ⟨hot, flag⟩, spender, found, input, spends, spent⟩ := shared
  exact ⟨c, ⟨other, resident, hot, spender, found, input, spends, spent⟩, flag⟩

end Sample

/-- Settling the sample's escape marks the spend of the same coin, refunds it and takes it off the timers, and settling
again changes nothing. -/
theorem settlement_moves_projections_together_sample :
    (∃ c, (settle false Sample.sweepId Sample.crossingState).store.candidates.lookup Sample.paidSpendId =
        some (Candidate.marked c)) ∧
      (settle false Sample.sweepId Sample.crossingState).sign.pending.lookup Sample.paidSpendId = none ∧
      reservationOf Sample.paidSpendId (settle false Sample.sweepId Sample.crossingState).store = none ∧
      settle false Sample.sweepId (settle false Sample.sweepId Sample.crossingState) =
        settle false Sample.sweepId Sample.crossingState := by
  have settles := @settlement_moves_projections_together Sample.node _ rfl Channel.Sample.config Sample.start rfl
    Sample.crossing Sample.sweepId
  obtain ⟨projects, again⟩ := settles.1 (by decide +kernel)
  have shared : Sample.sharesCoin Sample.crossingState.store Sample.sweepId Sample.paidSpendId false = true := by
    decide +kernel
  have unexposed : (Sample.crossingState.store.candidates.lookup Sample.paidSpendId).all Candidate.isUnexposedHot = true := by
    decide +kernel
  obtain ⟨c, defeated, _⟩ := Sample.defeated_of_sharesCoin shared
  obtain ⟨marked, off, refunded⟩ := projects.defeated _ c defeated
  rw [defeated.resident] at unexposed
  rw [show c.isUnexposedHot = true from unexposed, if_pos rfl] at refunded
  exact ⟨⟨c, marked⟩, off, refunded, again⟩

/-- A live armed escape is removed, not marked; and a hot candidate that registers between the sections of a settlement
stays resident beside its defeated twin, unmarked, on the timers and reserved. -/
theorem settlement_leaves_escape_and_newcomer :
    ¬Projects "a-escape" Candidate.marked Sample.armedState (settle false "a-escape" Sample.armedState) ∧
      ∃ c, Defeated Sample.crossed.node.store Sample.sweepId Sample.newcomerId c ∧ c.broadcast = false ∧
        Sample.crossed.node.sign.pending.lookup Sample.newcomerId = some 6000 ∧
        (reservationOf Sample.newcomerId Sample.crossed.node.store).isSome = true := by
  constructor
  · intro projects
    have gone : (settle false "a-escape" Sample.armedState).store.candidates.lookup "a-escape" = none := by
      have removed : ((settle false "a-escape" Sample.armedState).store.candidates.lookup "a-escape").isNone = true := by
        decide +kernel
      exact Option.isNone_iff_eq_none.mp removed
    have resident : (Sample.armedState.store.candidates.lookup "a-escape").isSome = true := by decide +kernel
    have own := projects.spender
    rw [gone] at own
    rw [← Option.isSome_map (f := Candidate.marked), ← own] at resident
    cases resident
  · have shared : Sample.sharesCoin Sample.crossed.node.store Sample.sweepId Sample.newcomerId false = true := by
      decide +kernel
    obtain ⟨c, defeated, unmarked⟩ := Sample.defeated_of_sharesCoin shared
    exact ⟨c, defeated, unmarked, by decide +kernel, by decide +kernel⟩

end BtcPolicy.Node
