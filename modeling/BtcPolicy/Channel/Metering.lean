import BtcPolicy.Channel.Release

/-! Hot exposure against the Hot-budget ledger. One commitment is followed through a run: what every
operation can do to its reservation, when a released share is metered, and when a reservation whose share
has left is kept. -/

namespace BtcPolicy.Channel
open FiniteMap Word Bitcoin HotLedger HotBudgetLedger Runs PartialStore

/-- The reservation the ledger holds for `id`. -/
def reservationOf (id : String) (s : PartialStore) : Option HotReservation :=
  s.hotBudget.reservations.lookup id

/-! ### Candidate writes -/

/-- A write that follows a commitment: its candidate evolves or goes, and its reservation is untouched, or
refunded because its share never left, and then the candidate is gone or broadcast. -/
structure Follows (id : String) (before after : PartialStore) : Prop where
  evolves : ∀ later, after.candidates.lookup id = some later →
    ∃ earlier, before.candidates.lookup id = some earlier ∧ earlier.Later later
  ledger : reservationOf id after = reservationOf id before ∨
    reservationOf id after = none ∧
      (∃ c, before.candidates.lookup id = some c ∧ c.isUnexposedHot = true) ∧
      ∀ later, after.candidates.lookup id = some later → later.broadcast = true

theorem unexposed_earlier {earlier later : Candidate} (evolved : earlier.Later later)
    (unexposed : later.isUnexposedHot = true) : earlier.isUnexposedHot = true := by
  simp only [Candidate.isUnexposedHot, Bool.and_eq_true, Bool.not_eq_true'] at unexposed ⊢
  exact ⟨⟨evolved.hot.symm.trans unexposed.1.1, evolved.withheld unexposed.1.2⟩, evolved.unsettled unexposed.2⟩

theorem Follows.trans {id : String} {a b c : PartialStore} (first : Follows id a b) (second : Follows id b c) :
    Follows id a c := by
  constructor
  · intro last found
    obtain ⟨middle, atMiddle, later⟩ := second.evolves last found
    obtain ⟨earlier, atEarlier, before⟩ := first.evolves middle atMiddle
    exact ⟨earlier, atEarlier, before.trans later⟩
  · rcases second.ledger with same | ⟨empty, ⟨middle, atMiddle, unexposed⟩, gone⟩
    · rcases first.ledger with same' | ⟨empty, refunded, gone⟩
      · exact Or.inl (same.trans same')
      · refine Or.inr ⟨same.trans empty, refunded, ?_⟩
        intro last found
        obtain ⟨middle, atMiddle, later⟩ := second.evolves last found
        exact later.broadcast (gone middle atMiddle)
    · obtain ⟨earlier, atEarlier, before⟩ := first.evolves middle atMiddle
      exact Or.inr ⟨empty, ⟨earlier, atEarlier, unexposed_earlier before unexposed⟩, gone⟩

theorem Follows.of_kept {id : String} {before after : PartialStore} (kept : Kept before after)
    (same : after.hotBudget = before.hotBudget) : Follows id before after := by
  refine ⟨?_, Or.inl (by rw [reservationOf, same]; rfl)⟩
  intro later found
  obtain ⟨earlier, present, steady⟩ := kept id later found
  exact ⟨earlier, present, steady.toLater⟩

theorem Follows.foldl {ι : Type} {id : String} {write : PartialStore → ι → PartialStore}
    (each : ∀ s i, Keyed s → Follows id s (write s i)) (keeps : ∀ s i, Keyed s → Keyed (write s i))
    (items : List ι) (s : PartialStore) (keyed : Keyed s) : Follows id s (items.foldl write s) := by
  induction items generalizing s with
  | nil => exact Follows.of_kept (Kept.of_same rfl) rfl
  | cons i rest ih => exact (each s i keyed).trans (ih (write s i) (keeps s i keyed))

theorem keyed_of_kept {before after : PartialStore} (kept : Kept before after) (keyed : Keyed before) :
    Keyed after := by
  intro id later found
  obtain ⟨earlier, present, steady⟩ := kept id later found
  exact steady.commitmentId.trans (keyed id earlier present)

theorem release_lookup (ledger : HotBudgetLedger) (released id : String) :
    (ledger.release released).reservations.lookup id =
      if id = released then none else ledger.reservations.lookup id :=
  lookup_erase_eq released id ledger.reservations

theorem follows_terminalize {id : String} (s : PartialStore) (target : String) (keyed : Keyed s) :
    Follows id s (s.terminalize target) := by
  refine ⟨fun later found => ?_, ?_⟩
  · obtain ⟨earlier, present, steady⟩ := kept_terminalize s target id later found
    exact ⟨earlier, present, steady.toLater⟩
  · unfold terminalize
    cases found : s.candidates.lookup target with
    | none => exact Or.inl rfl
    | some c =>
      simp only [reservationOf, releaseIfUnexposed]
      split_ifs with unexposed
      · rw [keyed target c found, release_lookup]
        by_cases same : id = target
        · subst same
          refine Or.inr ⟨if_pos rfl, ⟨c, found, unexposed⟩, ?_⟩
          intro later present
          rw [lookup_adjust_self, found] at present
          cases present
          rfl
        · exact Or.inl (if_neg same)
      · exact Or.inl rfl

theorem follows_evict {id : String} (s : PartialStore) (target : String) (keyed : Keyed s) :
    Follows id s (s.evict target) := by
  refine ⟨fun later found => ?_, ?_⟩
  · obtain ⟨earlier, present, steady⟩ := kept_evict s target id later found
    exact ⟨earlier, present, steady.toLater⟩
  · unfold evict
    cases found : s.candidates.lookup target with
    | none => exact Or.inl rfl
    | some c =>
      simp only [reservationOf, releaseIfUnexposed]
      split_ifs with unexposed
      · rw [keyed target c found, release_lookup]
        by_cases same : id = target
        · subst same
          refine Or.inr ⟨if_pos rfl, ⟨c, found, unexposed⟩, ?_⟩
          intro later present
          rw [AList.lookup_erase] at present
          cases present
        · exact Or.inl (if_neg same)
      · exact Or.inl rfl

theorem foldl_release_lookup (freed : List String) (ledger : HotBudgetLedger) (id : String) :
    (freed.foldl HotBudgetLedger.release ledger).reservations.lookup id =
      if id ∈ freed then none else ledger.reservations.lookup id := by
  induction freed generalizing ledger with
  | nil => simp
  | cons first rest ih =>
    rw [List.foldl_cons, ih, release_lookup]
    by_cases here : id = first
    · simp [here]
    · simp [here]

theorem follows_prune {id : String} (s : PartialStore) (now : Nat) : Follows id s (s.prune now) := by
  refine ⟨fun later found => ?_, ?_⟩
  · obtain ⟨earlier, present, steady⟩ := kept_prune s now id later found
    exact ⟨earlier, present, steady.toLater⟩
  · simp only [PartialStore.prune, reservationOf, foldl_release_lookup]
    split_ifs with freed
    · -- Freed ids are those of dropped entries, so nothing of the id is left.
      obtain ⟨entry, member, same⟩ := List.mem_map.mp freed
      obtain ⟨dropped, unexposed⟩ := List.mem_filter.mp member
      obtain ⟨present, rejected⟩ := List.mem_filter.mp dropped
      subst same
      have found : s.candidates.lookup entry.1 = some entry.2 := AList.mem_lookup_iff.mpr present
      refine Or.inr ⟨rfl, ⟨entry.2, found, unexposed⟩, ?_⟩
      intro later kept
      obtain ⟨same, survives⟩ := lookup_retain_some.mp kept
      rw [found] at same
      cases same
      simp [survives] at rejected
    · exact Or.inl rfl

theorem follows_markBroadcast {id : String} (s : PartialStore) (target : String) (keyed : Keyed s) :
    Follows id s (s.markBroadcast target).1 := by
  have conflicts : Follows id s (s.invalidateHotConflicts target).1 :=
    Follows.foldl (fun s i keyed => follows_terminalize s i keyed)
      (fun s i keyed => keyed_of_kept (kept_terminalize s i) keyed) _ s keyed
  have still : Keyed (s.invalidateHotConflicts target).1 :=
    keyed_of_kept (kept_invalidateHotConflicts s target) keyed
  unfold markBroadcast
  simp only
  split
  · exact conflicts.trans (Follows.foldl (fun s i keyed => follows_evict s i keyed)
      (fun s i keyed => keyed_of_kept (kept_evict s i) keyed) _ _ still)
  · exact conflicts.trans (Follows.of_kept (kept_setBroadcast target _) rfl)

theorem follows_acceptPartial {id : String} (lib : Library) (s : PartialStore) (p : ParsedPartial)
    (nodes : List ManifestNode) (now : Nat) (keyed : Keyed s) :
    Follows id s (acceptPartial lib s p nodes now).1 := by
  by_cases same : (acceptPartial lib s p nodes now).1.hotBudget = s.hotBudget
  · exact Follows.of_kept (kept_acceptPartial lib s p nodes now) same
  · -- Only the lookup eviction touches the ledger.
    have evicts : (acceptPartial lib s p nodes now).1 = s.evict p.commitmentId := by
      revert same
      unfold acceptPartial
      split
      · exact fun changed => absurd rfl changed
      · split
        · exact fun _ => rfl
        · split
          · exact fun changed => absurd rfl changed
          · split
            · exact fun changed => absurd rfl changed
            · exact fun changed => absurd rfl changed
    rw [evicts]
    exact follows_evict s p.commitmentId keyed

theorem follows_releasePartials {id : String} (ch : ChannelState) (s : PartialStore) (target : String)
    (now : Nat) : Follows id s (s.releasePartials ch target now).1 := by
  refine Follows.of_kept (kept_releasePartials ch s target now) ?_
  obtain same | ⟨_, _, _, _, _, _, same⟩ := releasePartials_cases ch s target now
  · rw [same]
  · rw [same]
    rfl

/-! ### The safety writes leave the ledger alone -/

theorem refreshEscapeWindow_hotBudget (id : String) (s : PartialStore) :
    (s.refreshEscapeWindow id).hotBudget = s.hotBudget := by
  unfold refreshEscapeWindow
  split <;> rfl

theorem applyArmDirective_hotBudget (arm : ArmDirective) (holds : List Nat) (s : PartialStore) :
    (s.applyArmDirective arm holds).hotBudget = s.hotBudget := by
  simp only [applyArmDirective, refreshEscapeWindow_hotBudget]

theorem recordArmIntent_hotBudget (s : PartialStore) (duress : Bool) (carrier nonce : String)
    (generation : MemoGeneration) (firstSeen now : Nat) (timing : DuressTiming) :
    (s.recordArmIntent duress carrier nonce generation firstSeen now timing).1.hotBudget = s.hotBudget := by
  unfold recordArmIntent upgradeMemo
  simp only
  split
  · split_ifs <;> rfl
  · rfl

theorem confirmCarrier_hotBudget (s : PartialStore) (sender : Nat) (carrier : String) (threshold now : Nat)
    (timing : DuressTiming) (monoNow : Nat) :
    (s.confirmCarrier sender carrier threshold now timing monoNow).1.hotBudget = s.hotBudget := by
  obtain ⟨_, same | same⟩ | ⟨intent, _, same⟩ :=
    confirmCarrier_cases s sender carrier threshold now timing monoNow
  · rw [same]
  · rw [same]
    rfl
  · rw [same]
    simp only [applyWrites, confirmWrites, List.foldl_cons, List.foldl_nil, retireCarrier,
      refreshEscapeWindow_hotBudget]
    rfl

theorem follows_confirmCarrier {id : String} (s : PartialStore) (sender : Nat) (carrier : String)
    (threshold now : Nat) (timing : DuressTiming) (monoNow : Nat) :
    Follows id s (s.confirmCarrier sender carrier threshold now timing monoNow).1 := by
  refine ⟨?_, Or.inl ?_⟩
  · intro later found
    obtain ⟨earlier, present, evolved, _⟩ := confirmCarrier_lookup found
    exact ⟨earlier, present, evolved⟩
  · rw [reservationOf, confirmCarrier_hotBudget]
    rfl

/-- The operations that call the ledger themselves. -/
def StoreOp.callsLedger : StoreOp → Bool
  | .registerCandidates .. | .reserveHotBudget .. | .releaseHotBudget .. => true
  | _ => false

/-- Every other operation follows every commitment. -/
theorem follows_step {id : String} {ch : ChannelState} {s : PartialStore} {op : StoreOp} (keyed : Keyed s)
    (other : op.callsLedger = false) : Follows id s (storeStep ch s op).1 := by
  by_cases quiet : op.quiet = true
  · have same := sameCore_of_quiet ch s op quiet
    exact Follows.of_kept (Kept.of_same same.candidates) same.hotBudget
  · cases op with
    | recordArmIntent duress carrier nonce generation firstSeen now timing =>
      exact Follows.of_kept (kept_recordArmIntent s duress carrier nonce generation firstSeen now timing)
        (recordArmIntent_hotBudget s duress carrier nonce generation firstSeen now timing)
    | registerCandidates requests arm hotReserve monoNow => cases other
    | applyCachedSchedule escape duress now epsilon =>
      exact Follows.of_kept (kept_applyArmDirective _ _ s) (applyArmDirective_hotBudget _ _ s)
    | confirmCarrier sender carrier threshold now timing monoNow =>
      exact follows_confirmCarrier s sender carrier threshold now timing monoNow
    | pruneStore now monoNow =>
      have carriers : Follows id s (s.pruneCarriers monoNow) := Follows.of_kept (Kept.of_same rfl) rfl
      exact carriers.trans (follows_prune _ now)
    | acceptPartial p now => exact follows_acceptPartial ch.lib s p ch.nodes now keyed
    | reserveHotBudget target outflow wallNow expiry monoNow => cases other
    | releaseHotBudget target => cases other
    | releasePartials target now => exact follows_releasePartials ch s target now
    | latchEscapeRung target rung lowest =>
      exact Follows.of_kept (kept_updateCandidate (fun c _ => steady_latchRung rung lowest c)) rfl
    | invalidateHotConflictsInStore target =>
      exact Follows.foldl (fun s i keyed => follows_terminalize s i keyed)
        (fun s i keyed => keyed_of_kept (kept_terminalize s i) keyed) _ s keyed
    | markBroadcast target => exact follows_markBroadcast s target keyed
    | _ => exact absurd rfl quiet

/-! ### Reserving steps -/

/-- The monotonic and the wall reading at which a step prunes the ledger. -/
def reserveReading : StoreOp → Option (Nat × Nat)
  | .reserveHotBudget _ _ wallNow _ monoNow => some (monoNow, wallNow)
  | .registerCandidates _ _ (some spec) monoNow => some (monoNow, spec.wallNow)
  | _ => none

/-- Both clocks have retired `r` at the readings of `op`. -/
def AgesOut (s : PartialStore) (op : StoreOp) (r : HotReservation) : Prop :=
  ∃ monoNow wallNow, reserveReading op = some (monoNow, wallNow) ∧
    isLive r (s.hotBudget.floor monoNow) wallNow = false

section Registration

variable {ch : ChannelState} {s : PartialStore} {requests : List CandidateRequest} {arm : ArmDirective}
  {hotReserve : Option HotReserveSpec} {monoNow : Nat} {id : String} {r : HotReservation}

theorem live_of_not_agesOut {spec : HotReserveSpec}
    (live : ¬AgesOut s (.registerCandidates requests arm (some spec) monoNow) r) :
    isLive r (s.hotBudget.floor monoNow) spec.wallNow = true := by
  by_contra dead
  exact live ⟨monoNow, spec.wallNow, rfl, by simpa using dead⟩

theorem revalidate_keeps (held : reservationOf id s = some r)
    (live : ¬AgesOut s (.registerCandidates requests arm hotReserve monoNow) r) :
    reservationOf id (s.revalidate hotReserve monoNow).1 = some r := by
  cases hotReserve with
  | none => exact held
  | some spec => exact reserve_keeps_live _ _ _ _ _ held (live_of_not_agesOut live)

theorem revalidate_origin (requests : List CandidateRequest) (arm : ArmDirective)
    (held : reservationOf id (s.revalidate hotReserve monoNow).1 = some r) :
    reservationOf id s = some r ∧ ¬AgesOut s (.registerCandidates requests arm hotReserve monoNow) r ∨
      ∃ spec, hotReserve = some spec ∧ spec.commitmentId = id ∧ r.outflowSat = spec.outflowSat ∧
        r.reservedAt = monoNow := by
  cases hotReserve with
  | none =>
    refine Or.inl ⟨held, ?_⟩
    rintro ⟨_, _, reading, _⟩
    cases reading
  | some spec =>
    rcases reserve_lookup held with ⟨old, live⟩ | ⟨_, same, new⟩
    · refine Or.inl ⟨old, ?_⟩
      rintro ⟨mono, wall, reading, dead⟩
      cases reading
      rw [live] at dead
      cases dead
    · exact Or.inr ⟨spec, rfl, same.symm, by rw [new], by rw [new]⟩

/-- A live reservation is hit, so the call creates none for its commitment. -/
theorem revalidate_hit {spec : HotReserveSpec} (held : reservationOf spec.commitmentId s = some r)
    (live : ¬AgesOut s (.registerCandidates requests arm (some spec) monoNow) r) :
    (s.revalidate (some spec) monoNow).2 = .ok false :=
  (reserve_live_hit _ _ _ _ held (live_of_not_agesOut live)).1

theorem unwindReserve_ne (created : Bool) (different : ∀ spec, hotReserve = some spec → spec.commitmentId ≠ id)
    (s : PartialStore) : reservationOf id (s.unwindReserve created hotReserve) = reservationOf id s := by
  unfold unwindReserve
  cases hotReserve with
  | none => rfl
  | some spec =>
    simp only [reservationOf]
    split_ifs
    · rw [release_lookup, if_neg (different spec rfl).symm]
    · rfl

theorem enroll_hotBudget (arm : ArmDirective) (candidates : List Candidate) (s : PartialStore) :
    (s.enroll arm candidates).1.hotBudget = s.hotBudget := by
  have registered : ∀ (candidates : List Candidate) (s : PartialStore),
      (s.registerAll candidates).1.hotBudget = s.hotBudget := by
    intro candidates
    induction candidates with
    | nil => exact fun _ => rfl
    | cons c rest ih =>
      intro s
      refine (ih (s.register c).1).trans ?_
      unfold register
      split
      · split_ifs <;> rfl
      · split_ifs <;> rfl
  simp only [enroll, attachPair, updateIntent, applyArmDirective_hotBudget, registered]

theorem enroll_reservation (candidates : List Candidate) (s : PartialStore) :
    reservationOf id (s.enroll arm candidates).1 = reservationOf id s := by
  rw [reservationOf, enroll_hotBudget]
  rfl

/-- A registration keeps every reservation that a clock keeps. -/
theorem registerCandidates_keeps (candidates : List Candidate) (held : reservationOf id s = some r)
    (live : ¬AgesOut s (.registerCandidates requests arm hotReserve monoNow) r) :
    reservationOf id (registerCandidates ch s candidates arm hotReserve monoNow).1 = some r := by
  have kept := revalidate_keeps held live
  obtain ⟨_, _, same⟩ | ⟨created, _, answer, same⟩ | ⟨_, _, same⟩ :=
    registerCandidates_cases ch s candidates arm hotReserve monoNow
  · rw [same]
    exact kept
  · rw [same]
    cases created with
    | true =>
      rw [unwindReserve_ne]
      · exact kept
      · rintro spec rfl equal
        subst equal
        rw [revalidate_hit held live] at answer
        cases answer
    | false =>
      cases hotReserve <;> exact kept
  · rw [same, enroll_reservation]
    exact kept

/-- What a registration leaves for a commitment was there and live, or is its own claim. -/
theorem registerCandidates_origin {candidates : List Candidate} (requests : List CandidateRequest)
    (held : reservationOf id (registerCandidates ch s candidates arm hotReserve monoNow).1 = some r) :
    reservationOf id s = some r ∧ ¬AgesOut s (.registerCandidates requests arm hotReserve monoNow) r ∨
      ∃ spec, hotReserve = some spec ∧ spec.commitmentId = id ∧ r.outflowSat = spec.outflowSat ∧
        r.reservedAt = monoNow := by
  apply revalidate_origin
  obtain ⟨_, _, same⟩ | ⟨created, _, _, same⟩ | ⟨_, _, same⟩ :=
    registerCandidates_cases ch s candidates arm hotReserve monoNow
  · rw [same] at held
    exact held
  · rw [same] at held
    revert held
    unfold unwindReserve
    cases hotReserve with
    | none => exact fun held => held
    | some spec =>
      simp only
      split_ifs
      · intro held
        simp only [reservationOf, release_lookup] at held
        split_ifs at held
        exact held
      · exact fun held => held
  · rw [same, enroll_reservation] at held
    exact held

/-- A commitment that a registration inserts with its own claim is metered from then on. -/
theorem registerCandidates_metered {candidates : List Candidate} {spec : HotReserveSpec}
    (own : hotReserve = some spec) (named : spec.commitmentId = id)
    (absent : s.candidates.lookup id = none)
    (present : (registerCandidates ch s candidates arm hotReserve monoNow).1.candidates.lookup id ≠ none) :
    ∃ r, reservationOf id (registerCandidates ch s candidates arm hotReserve monoNow).1 = some r := by
  obtain ⟨_, _, same⟩ | ⟨_, _, _, same⟩ | ⟨created, answer, same⟩ :=
    registerCandidates_cases ch s candidates arm hotReserve monoNow
  · rw [same, revalidate_candidates] at present
    exact absurd absent present
  · rw [same, unwindReserve_candidates, revalidate_candidates] at present
    exact absurd absent present
  · subst own named
    rw [same, enroll_reservation]
    exact reserve_ok_present answer

end Registration

/-! ### Metering over a run -/

/-- The runs the ledger is built for: `id` enters as a hot candidate only together with its own claim of
`outflow`, and the two ledger calls are for other commitments. -/
def MeteredStep (id : String) (outflow : Nat) : StoreOp → Prop
  | .registerCandidates requests _ hotReserve _ =>
    (∀ request ∈ requests, request.spec.commitmentId = id → request.spec.hot = true →
      ∃ spec, hotReserve = some spec ∧ spec.commitmentId = id) ∧
      ∀ spec, hotReserve = some spec → spec.commitmentId = id → spec.outflowSat = outflow
  | .reserveHotBudget target _ _ _ _ => target ≠ id
  | .releaseHotBudget target => target ≠ id
  | _ => True

/-- The reservation dominates its commitment at this step: a reserving call does not retire it while its hot
candidate is resident and unsettled, and the commitment does not enter anew under a reservation that an
earlier residency left behind. -/
structure Dominates (id : String) (s : PartialStore) (op : StoreOp) : Prop where
  pending : ∀ c r, s.candidates.lookup id = some c → c.hot = true → c.broadcast = false →
    reservationOf id s = some r → ¬AgesOut s op r
  anew : ∀ requests arm hotReserve monoNow request r,
    op = .registerCandidates requests arm hotReserve monoNow → request ∈ requests →
    request.spec.commitmentId = id → request.spec.hot = true → s.candidates.lookup id = none →
    reservationOf id s = some r → AgesOut s op r

/-- The commitment's reservation carries its outflow, and is there while it is hot and unsettled. -/
structure Metered (id : String) (outflow : Nat) (s : PartialStore) : Prop where
  outflow : ∀ r, reservationOf id s = some r → r.outflowSat = outflow
  held : ∀ c, s.candidates.lookup id = some c → c.hot = true → c.broadcast = false →
    ∃ r, reservationOf id s = some r

theorem Metered.follow {id : String} {outflow : Nat} {before after : PartialStore}
    (metered : Metered id outflow before) (follows : Follows id before after) : Metered id outflow after := by
  rcases follows.ledger with same | ⟨empty, _, gone⟩
  · refine ⟨fun r found => metered.outflow r (same ▸ found), ?_⟩
    intro later found hot unsettled
    obtain ⟨earlier, present, evolved⟩ := follows.evolves later found
    rw [same]
    exact metered.held earlier present (evolved.hot.symm.trans hot) (evolved.unsettled unsettled)
  · constructor
    · intro r found
      rw [empty] at found
      cases found
    · intro later found _ unsettled
      rw [gone later found] at unsettled
      cases unsettled

theorem metered_register {id : String} {outflow : Nat} {ch : ChannelState} {s : PartialStore}
    {requests : List CandidateRequest} {arm : ArmDirective} {hotReserve : Option HotReserveSpec} {monoNow : Nat}
    (metered : Metered id outflow s)
    (well : MeteredStep id outflow (.registerCandidates requests arm hotReserve monoNow))
    (dominates : Dominates id s (.registerCandidates requests arm hotReserve monoNow)) :
    Metered id outflow (storeStep ch s (.registerCandidates requests arm hotReserve monoNow)).1 := by
  simp only [storeStep]
  cases built : buildAll ch.lib requests with
  | error message => exact metered
  | ok candidates =>
    simp only
    constructor
    · intro r found
      rcases registerCandidates_origin requests found with ⟨old, _⟩ | ⟨spec, own, named, same, _⟩
      · exact metered.outflow r old
      · exact same.trans (well.2 spec own named)
    · intro later found hot unsettled
      rcases registerCandidates_lookup built found with ⟨earlier, present, steady⟩ |
        ⟨absent, request, asked, fresh, named⟩
      · have before := steady.toLater.unsettled unsettled
        have same := steady.hot.symm.trans hot
        obtain ⟨r, held⟩ := metered.held earlier present same before
        exact ⟨r, registerCandidates_keeps candidates held (dominates.pending earlier r present same before held)⟩
      · obtain ⟨spec, own, claimed⟩ := well.1 request asked named (fresh.hot.symm.trans hot)
        exact registerCandidates_metered own claimed absent (by rw [found]; exact Option.some_ne_none later)

theorem metered_step {id : String} {outflow : Nat} {ch : ChannelState} {s : PartialStore} {op : StoreOp}
    (keyed : Keyed s) (metered : Metered id outflow s) (well : MeteredStep id outflow op)
    (dominates : Dominates id s op) : Metered id outflow (storeStep ch s op).1 := by
  by_cases other : op.callsLedger = false
  · exact metered.follow (follows_step keyed other)
  cases op with
  | registerCandidates requests arm hotReserve monoNow => exact metered_register metered well dominates
  | reserveHotBudget target amount wallNow expiry monoNow =>
    have other : target ≠ id := well
    constructor
    · intro r found
      rcases reserve_lookup found with ⟨old, _⟩ | ⟨_, same, _⟩
      · exact metered.outflow r old
      · exact absurd same.symm other
    · intro c found hot unsettled
      obtain ⟨r, held⟩ := metered.held c found hot unsettled
      refine ⟨r, reserve_keeps_live _ _ _ _ _ held ?_⟩
      by_contra dead
      exact dominates.pending c r found hot unsettled held ⟨monoNow, wallNow, rfl, by simpa using dead⟩
  | releaseHotBudget target =>
    have other : target ≠ id := well
    have same : reservationOf id (storeStep ch s (.releaseHotBudget target)).1 = reservationOf id s := by
      show (s.hotBudget.release target).reservations.lookup id = _
      rw [release_lookup, if_neg other.symm]
      rfl
    refine ⟨fun r found => metered.outflow r (same ▸ found), ?_⟩
    intro c found hot unsettled
    rw [same]
    exact metered.held c found hot unsettled
  | _ => exact absurd rfl other

theorem storeAfter_metered {ch : ChannelState} {config : StoreConfig} {id : String} {outflow : Nat}
    {ops : List StoreOp} (well : ∀ op ∈ ops, MeteredStep id outflow op)
    (dominates : Allowed (storeStep ch) (Dominates id) (initialStore config) ops) :
    Metered id outflow (storeAfter ch config ops) := by
  induction ops using List.reverseRecOn with
  | nil =>
    constructor
    · intro r found
      cases found
    · intro c found
      cases found
  | append_singleton ops op ih =>
    rw [allowed_append] at dominates
    rw [storeAfter_snoc]
    exact metered_step (storeAfter_keyed ch config ops)
      (ih (fun op member => well op (List.mem_append_left _ member)) dominates.1) (well op (by simp))
      dominates.2.1

/-! ### Exposed reservations -/

/-- `r` has been held without interruption since a state in which the node had released or broadcast the
commitment's candidate. -/
def ExposedSince (ch : ChannelState) (config : StoreConfig) (id : String) (r : HotReservation)
    (ops : List StoreOp) : Prop :=
  ∃ before after, ops = before ++ after ∧
    (∀ front, front <+: after → reservationOf id (storeAfter ch config (before ++ front)) = some r) ∧
    ∃ c, (storeAfter ch config before).candidates.lookup id = some c ∧ (c.released = true ∨ c.broadcast = true)

/-- Whatever of the commitment is resident is not a hot candidate whose share never left. -/
def NothingToRefund (id : String) (s : PartialStore) : Prop :=
  ∀ c, s.candidates.lookup id = some c → c.isUnexposedHot = false

theorem nothingToRefund_step {id : String} {outflow : Nat} {ch : ChannelState} {s : PartialStore}
    {op : StoreOp} {r : HotReservation} (spent : NothingToRefund id s) (well : MeteredStep id outflow op)
    (dominates : Dominates id s op) (held : reservationOf id s = some r)
    (still : reservationOf id (storeStep ch s op).1 = some r) : NothingToRefund id (storeStep ch s op).1 := by
  intro later found
  rcases storeStep_lookup found with ⟨earlier, present, evolved, _⟩ |
    ⟨absent, requests, arm, hotReserve, monoNow, rfl, request, asked, fresh, named⟩
  · by_contra unexposed
    have before := unexposed_earlier evolved (by simpa using unexposed)
    rw [spent earlier present] at before
    cases before
  · by_cases hot : request.spec.hot = true
    · -- The commitment enters anew, so its old reservation was retired by this very call.
      have retired := dominates.anew requests arm hotReserve monoNow request r rfl asked named hot absent held
      simp only [storeStep] at still found
      cases built : buildAll ch.lib requests with
      | error message =>
        simp only [built] at found
        rw [absent] at found
        cases found
      | ok candidates =>
        simp only [built] at still
        rcases registerCandidates_origin requests still with ⟨_, live⟩ | ⟨spec, own, _, _, now⟩
        · exact absurd retired live
        · obtain ⟨mono, wall, reading, dead⟩ := retired
          subst own
          cases reading
          simp only [isLive, HotBudgetLedger.floor, now, Bool.or_eq_false_iff, decide_eq_false_iff_not] at dead
          omega
    · simp [Candidate.isUnexposedHot, fresh.hot, hot]

theorem nothingToRefund_of_exposed {ch : ChannelState} {config : StoreConfig} {id : String} {outflow : Nat}
    {r : HotReservation} {ops : List StoreOp} (well : ∀ op ∈ ops, MeteredStep id outflow op)
    (dominates : Allowed (storeStep ch) (Dominates id) (initialStore config) ops)
    (exposed : ExposedSince ch config id r ops) : NothingToRefund id (storeAfter ch config ops) := by
  obtain ⟨before, after, rfl, held, c, found, left⟩ := exposed
  -- By induction on the steps since the exposure.
  induction after using List.reverseRecOn with
  | nil =>
    intro other present
    rw [List.append_nil, found] at present
    cases present
    rcases left with released | broadcast
    · simp [Candidate.isUnexposedHot, released]
    · simp [Candidate.isUnexposedHot, broadcast]
  | append_singleton after op ih =>
    rw [← List.append_assoc] at well dominates ⊢
    rw [allowed_append] at dominates
    have spent := ih (fun op member => well op (List.mem_append_left _ member)) dominates.1
      (fun front shorter => held front (shorter.trans (List.prefix_append _ _)))
    have now := held (after ++ [op]) (List.prefix_refl _)
    rw [← List.append_assoc, storeAfter_snoc] at now
    rw [storeAfter_snoc]
    exact nothingToRefund_step spent (well op (by simp)) dominates.2.1
      (held after (List.prefix_append _ _)) now

/-- Outside the reserving steps a reservation goes only by the refund of a share that never left. -/
theorem reservation_kept {id : String} {outflow : Nat} {ch : ChannelState} {s : PartialStore} {op : StoreOp}
    {r : HotReservation} (keyed : Keyed s) (spent : NothingToRefund id s) (well : MeteredStep id outflow op)
    (held : reservationOf id s = some r) :
    reservationOf id (storeStep ch s op).1 = some r ∨ AgesOut s op r := by
  by_cases aged : AgesOut s op r
  · exact Or.inr aged
  left
  by_cases calm : op.callsLedger = false
  · have follows : Follows id s (storeStep ch s op).1 := follows_step keyed calm
    rcases follows.ledger with same | ⟨_, ⟨c, found, unexposed⟩, _⟩
    · exact same.trans held
    · rw [spent c found] at unexposed
      cases unexposed
  cases op with
  | registerCandidates requests arm hotReserve monoNow =>
    simp only [storeStep]
    split
    · exact held
    · exact registerCandidates_keeps _ held aged
  | reserveHotBudget target amount wallNow expiry monoNow =>
    refine reserve_keeps_live _ _ _ _ _ held ?_
    by_contra dead
    exact aged ⟨monoNow, wallNow, rfl, by simpa using dead⟩
  | releaseHotBudget target =>
    have other : target ≠ id := well
    show (s.hotBudget.release target).reservations.lookup id = _
    rw [release_lookup, if_neg other.symm]
    exact held
  | _ => exact absurd rfl calm

/-- Every released share of the unsettled hot commitment is metered with its outflow, and a reservation whose
share has left goes only by ageing out on both clocks. -/
structure ExposureMetered (ch : ChannelState) (config : StoreConfig) (id : String) (outflow : Nat)
    (ops : List StoreOp) : Prop where
  released : ∀ before now after release c, ops = before ++ .releasePartials id now :: after →
    replyAfter ch config before (.releasePartials id now) = .released (some release) →
    (storeAfter ch config before).candidates.lookup id = some c → c.hot = true → c.broadcast = false →
    ∃ r, reservationOf id (storeAfter ch config before) = some r ∧ r.outflowSat = outflow
  kept : ∀ before op after r, ops = before ++ op :: after → ExposedSince ch config id r before →
    reservationOf id (storeAfter ch config (before ++ [op])) = some r ∨ AgesOut (storeAfter ch config before) op r

/-- Exposure is metered in every run whose steps all let the reservation dominate its commitment. -/
theorem hot_exposure_metered (ch : ChannelState) (config : StoreConfig) (ops : List StoreOp) (id : String)
    (outflow : Nat) (well : ∀ op ∈ ops, MeteredStep id outflow op)
    (dominates : Allowed (storeStep ch) (Dominates id) (initialStore config) ops) :
    ExposureMetered ch config id outflow ops := by
  have front : ∀ before after, ops = before ++ after → (∀ op ∈ before, MeteredStep id outflow op) ∧
      Allowed (storeStep ch) (Dominates id) (initialStore config) before := by
    rintro before after rfl
    exact ⟨fun op member => well op (List.mem_append_left _ member), ((allowed_append _ _ _ _ _).mp dominates).1⟩
  constructor
  · intro before now after release c same _ found hot unsettled
    obtain ⟨calls, allowed⟩ := front before _ same
    have here := storeAfter_metered calls allowed
    obtain ⟨r, held⟩ := here.held c found hot unsettled
    exact ⟨r, held, here.outflow r held⟩
  · intro before op after r same exposed
    obtain ⟨calls, allowed⟩ := front before _ same
    have spent := nothingToRefund_of_exposed calls allowed exposed
    obtain ⟨first, last, split, held, _⟩ := exposed
    have now : reservationOf id (storeAfter ch config before) = some r := by
      rw [split]
      exact held last (List.prefix_refl _)
    rw [storeAfter_snoc]
    exact reservation_kept (storeAfter_keyed ch config before) spent (well op (by rw [same]; simp)) now

theorem Dominates.of_calm (id : String) (s : PartialStore) {op : StoreOp} (calm : op.callsLedger = false) :
    Dominates id s op := by
  constructor
  · rintro _ r _ _ _ _ ⟨_, _, reading, _⟩
    cases op <;> simp_all [reserveReading, StoreOp.callsLedger]
  · rintro _ _ _ _ _ _ rfl
    cases calm

theorem Dominates.of_unreserved {id : String} {s : PartialStore} (none : reservationOf id s = none)
    (op : StoreOp) : Dominates id s op := by
  constructor
  · intro _ r _ _ _ held
    rw [none] at held
    cases held
  · intro _ _ _ _ _ r _ _ _ _ _ held
    rw [none] at held
    cases held

/-- The sample's confirmed hot spend releases its share metered. -/
theorem hot_exposure_metered_sample :
    ExposureMetered Sample.channel Sample.config "a" 40000
      (Sample.confirmedRun false ++ [.releasePartials "a" 100]) := by
  apply hot_exposure_metered
  · intro op member
    simp only [Sample.confirmedRun, List.cons_append, List.nil_append, List.mem_cons, List.not_mem_nil,
      or_false] at member
    rcases member with rfl | rfl | rfl | rfl | rfl
    · trivial
    · refine ⟨fun _ _ _ _ => ⟨_, rfl, rfl⟩, ?_⟩
      rintro spec same _
      cases same
      rfl
    · trivial
    · trivial
    · trivial
  · refine ⟨.of_calm _ _ rfl, .of_unreserved (by decide) _, .of_calm _ _ rfl, .of_calm _ _ rfl,
      .of_calm _ _ rfl, trivial⟩

namespace Sample

/-- A spend and its escape, with a hold of 100 and a slack of 120 from `wall` on. -/
def meteredPair (carrier : String) (bumps : List Psbt) (expiry wall mono : Nat) : StoreOp :=
  let sweep := escape "a-escape" "a" 1 11 expiry
  .registerCandidates
    [spend "a" "a-escape" 1 10 true (some ⟨wall + 100, wall + 220⟩) expiry,
      { sweep with spec := { sweep.spec with escapeBumps := bumps } }]
    ⟨"a-escape", "a", carrier, false, 5, wall⟩ (some ⟨"a", 40000, wall, expiry⟩) mono

/-- The escape, confirmed late, keeps both resident past their expiry at 3600, the largest age of a commitment. Another
reservation is made when both clocks have retired the spend's own. -/
def outlivedRun : List StoreOp :=
  [.recordArmIntent false "carrier-a" "nonce-a" (generation 3600 3600) 0 0 timing, meteredPair "carrier-a" [] 3600 0 0,
    .markCarrierPropagated "carrier-a", .confirmCarrier 1 "carrier-a" 2 3500 timing 3500, .pruneStore 3601 3601,
    .reserveHotBudget "b" 40000 3601 7000 3601]

/-- A spend that expires at 300 is confirmed, and its share leaves. -/
def exposedRun : List StoreOp :=
  [.recordArmIntent false "carrier-a" "nonce-a" (generation 300 300) 0 0 timing, meteredPair "carrier-a" [] 300 0 0,
    .markCarrierPropagated "carrier-a", .confirmCarrier 1 "carrier-a" 2 10 timing 10, .releasePartials "a" 100]

/-- The wall clock is at 800 for a moment, where the pair is pruned. Then the coordinator signs the same commitments
again, with a bump. -/
def reenteredRun : List StoreOp :=
  [.pruneStore 800 110, .recordArmIntent false "carrier-b" "nonce-b" (generation 300 400) 20 120 timing,
    meteredPair "carrier-b" [psbt 1 12] 300 20 120]

theorem meteredPair_metered (carrier : String) (bumps : List Psbt) (expiry wall mono : Nat) :
    MeteredStep "a" 40000 (meteredPair carrier bumps expiry wall mono) := by
  refine ⟨fun _ _ _ _ => ⟨_, rfl, rfl⟩, ?_⟩
  rintro spec same _
  cases same
  rfl

end Sample

/-- The share leaves with no reservation behind it, once the wall clock steps back into its window. -/
theorem outlived_share :
    ¬ExposureMetered Sample.channel Sample.config "a" 40000 (Sample.outlivedRun ++ [.releasePartials "a" 150]) := by
  intro metered
  have answers : ((storeAfter Sample.channel Sample.config Sample.outlivedRun).releasePartials Sample.channel
      "a" 150).2.isSome = true := by decide
  have pending : ((storeAfter Sample.channel Sample.config Sample.outlivedRun).candidates.lookup "a").any
      (fun c => c.hot && !c.broadcast) = true := by decide
  have unmetered : reservationOf "a" (storeAfter Sample.channel Sample.config Sample.outlivedRun) = none := by
    decide
  obtain ⟨release, out⟩ := Option.isSome_iff_exists.mp answers
  obtain ⟨c, found, flags⟩ := (Option.any_eq_true _ _).mp pending
  simp only [Bool.and_eq_true, Bool.not_eq_true'] at flags
  obtain ⟨r, held, _⟩ := metered.released Sample.outlivedRun 150 [] release c rfl
    (congrArg StoreReply.released out) found flags.1 flags.2
  rw [unmetered] at held
  cases held

/-- The second residency is evicted unexposed, and the refund takes the reservation of the share that has left. -/
theorem refunded_exposure :
    ¬ExposureMetered Sample.channel Sample.config "a" 40000
      (Sample.exposedRun ++ Sample.reenteredRun ++ [.pruneStore 741 841]) := by
  intro metered
  have exposed : ExposedSince Sample.channel Sample.config "a" ⟨40000, 0, 300⟩
      (Sample.exposedRun ++ Sample.reenteredRun) := by
    have held : ∀ front ∈ Sample.reenteredRun.inits,
        reservationOf "a" (storeAfter Sample.channel Sample.config (Sample.exposedRun ++ front)) = some ⟨40000, 0, 300⟩ := by
      decide
    have left : ((storeAfter Sample.channel Sample.config Sample.exposedRun).candidates.lookup "a").any
        Candidate.released = true := by decide
    obtain ⟨c, found, released⟩ := (Option.any_eq_true _ _).mp left
    exact ⟨Sample.exposedRun, Sample.reenteredRun, rfl, fun front shorter => held front ((List.mem_inits _ _).mpr shorter),
      c, found, .inl released⟩
  have refunded : reservationOf "a" (storeAfter Sample.channel Sample.config
      (Sample.exposedRun ++ Sample.reenteredRun ++ [.pruneStore 741 841])) = none := by decide
  rcases metered.kept (Sample.exposedRun ++ Sample.reenteredRun) (.pruneStore 741 841) [] _ rfl exposed with
    held | ⟨_, _, reading, _⟩
  · rw [refunded] at held
    cases held
  · cases reading

/-- Both ways in which the exposure of a spend that the node accepts goes unmetered. -/
theorem outlived_share_unmetered :
    ((∀ op ∈ Sample.outlivedRun ++ [.releasePartials "a" 150], MeteredStep "a" 40000 op) ∧
        MonoOrdered (Sample.outlivedRun ++ [.releasePartials "a" 150]) ∧
        ¬ExposureMetered Sample.channel Sample.config "a" 40000 (Sample.outlivedRun ++ [.releasePartials "a" 150])) ∧
      (∀ op ∈ Sample.exposedRun ++ Sample.reenteredRun ++ [.pruneStore 741 841], MeteredStep "a" 40000 op) ∧
        MonoOrdered (Sample.exposedRun ++ Sample.reenteredRun ++ [.pruneStore 741 841]) ∧
        ¬ExposureMetered Sample.channel Sample.config "a" 40000
          (Sample.exposedRun ++ Sample.reenteredRun ++ [.pruneStore 741 841]) := by
  refine ⟨⟨?_, by decide, outlived_share⟩, ?_, by decide +kernel, refunded_exposure⟩
  · intro op member
    simp only [Sample.outlivedRun, List.cons_append, List.nil_append, List.mem_cons, List.not_mem_nil,
      or_false] at member
    rcases member with rfl | rfl | rfl | rfl | rfl | rfl | rfl
    case inr.inl => exact Sample.meteredPair_metered "carrier-a" [] 3600 0 0
    case inr.inr.inr.inr.inr.inl => exact (by decide : "b" ≠ "a")
    all_goals trivial
  · intro op member
    simp only [Sample.exposedRun, Sample.reenteredRun, List.cons_append, List.nil_append, List.mem_cons,
      List.not_mem_nil, or_false] at member
    rcases member with rfl | rfl | rfl | rfl | rfl | rfl | rfl | rfl | rfl
    case inr.inl => exact Sample.meteredPair_metered "carrier-a" [] 300 0 0
    case inr.inr.inr.inr.inr.inr.inr.inl => exact Sample.meteredPair_metered "carrier-b" [Sample.psbt 1 12] 300 20 120
    all_goals trivial

end BtcPolicy.Channel
