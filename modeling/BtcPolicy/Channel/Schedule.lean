import BtcPolicy.Channel.Arming

/-! The delayed slots over one run. A step writes the windows of the slots it schedules, the request's own and the
selected one, and writes them at the overlay's `T`; no other step moves a window. -/

namespace BtcPolicy.Channel
open FiniteMap Word Bitcoin HotLedger Runs PartialStore

/-! ### Delayed slots -/

/-- A request's candidates, as its handler builds them: an escape is the slot of its own directive and never hot,
and a hot Hold is over by the request's expiry. -/
def StoreOp.Paired : StoreOp → Prop
  | .registerCandidates requests arm _ _ => ∀ request ∈ requests,
      (request.spec.role = .escape → request.spec.commitmentId = arm.sweepEscape ∧
        request.spec.commitmentId ≠ "" ∧ request.spec.hot = false) ∧
      ∀ window, request.spec.hot = true → request.spec.fire = some window → window.deadline ≤ request.spec.expiry
  | _ => True

/-- What `Paired` requests leave in the registry. -/
structure Candidate.Regular (id : String) (c : Candidate) : Prop where
  named : c.role = .escape → id ≠ ""
  cold : c.role = .escape → c.hot = false
  hold : ∀ window, c.hot = true → c.fire = some window → window.deadline ≤ c.expiry

def Regular (s : PartialStore) : Prop := Every Candidate.Regular s.candidates

theorem spend_of_not_escape {role : CandidateRole} (other : role ≠ .escape) : role = .spend := by
  cases role with
  | spend => rfl
  | escape => exact absurd rfl other

theorem regular_step {ch : ChannelState} {s : PartialStore} {op : StoreOp} (regular : Regular s)
    (paired : op.Paired) : Regular (storeStep ch s op).1 := by
  intro id later found
  rcases storeStep_lookup found with ⟨earlier, present, evolved, _⟩ |
    ⟨_, requests, arm, hotReserve, monoNow, rfl, request, asked, fresh, named⟩
  · have old := regular id earlier present
    refine ⟨fun escape => old.named (evolved.role.symm.trans escape), ?_, ?_⟩
    · intro escape
      rw [evolved.hot]
      exact old.cold (evolved.role.symm.trans escape)
    · intro window hot scheduled
      have spend : earlier.role = .spend := by
        apply spend_of_not_escape
        intro escape
        have cold := old.cold escape
        rw [← evolved.hot, hot] at cold
        cases cold
      rw [evolved.expiry]
      exact old.hold window (evolved.hot.symm.trans hot) ((evolved.hold spend).symm.trans scheduled)
  · obtain ⟨slot, hold⟩ := paired request asked
    refine ⟨?_, ?_, ?_⟩
    · intro escape
      rw [← named]
      exact (slot (fresh.role.symm.trans escape)).2.1
    · intro escape
      rw [fresh.hot]
      exact (slot (fresh.role.symm.trans escape)).2.2
    · intro window hot scheduled
      have spend : request.spec.role = .spend := by
        apply spend_of_not_escape
        intro escape
        have cold := (slot escape).2.2
        rw [← fresh.hot, hot] at cold
        cases cold
      rw [fresh.expiry]
      exact hold window (fresh.hot.symm.trans hot) ((fresh.hold spend).symm.trans scheduled)

/-- The write of `slots`: each of them has the window of the overlay `after`, every other slot the one it had. -/
def Reslots (slots : List String) (before after : PartialStore) : Prop :=
  ∀ id later, after.candidates.lookup id = some later → later.role = .escape →
    id ∈ slots ∧ later.fire = some after.armed.escapeWindow ∨
      id ∉ slots ∧ ∃ earlier, before.candidates.lookup id = some earlier ∧ earlier.role = .escape ∧
        earlier.fire = later.fire

/-- No escape is filed under the empty id, which no refresh writes. -/
def Named (s : PartialStore) : Prop := ∀ c, s.candidates.lookup "" = some c → c.role ≠ .escape

theorem Regular.nameable {s : PartialStore} (regular : Regular s) : Named s :=
  fun c found escape => (regular "" c found).named escape rfl

theorem refreshEscapeWindow_fire {s : PartialStore} (named : Named s) {slot id : String} {later : Candidate}
    (found : (s.refreshEscapeWindow slot).candidates.lookup id = some later) (escape : later.role = .escape) :
    id = slot ∧ later.fire = some s.armed.escapeWindow ∨
      id ≠ slot ∧ s.candidates.lookup id = some later := by
  unfold refreshEscapeWindow at found
  split_ifs at found with empty
  · right
    refine ⟨?_, found⟩
    intro same
    subst empty same
    exact named later found escape
  · rw [updateCandidate, lookup_adjust] at found
    split_ifs at found with same
    · left
      obtain ⟨earlier, _, rewritten⟩ := Option.map_eq_some_iff.mp found
      refine ⟨same, ?_⟩
      rw [← rewritten] at escape ⊢
      unfold reschedule at escape ⊢
      split
      next => rfl
      next other =>
        rw [if_neg other] at escape
        exact absurd escape other
    · exact Or.inr ⟨same, found⟩

theorem Named.refreshed {s : PartialStore} (named : Named s) (slot : String) :
    Named (s.refreshEscapeWindow slot) := by
  intro later found
  obtain ⟨earlier, present, evolved⟩ := kept_refreshEscapeWindow slot s "" later found
  rw [evolved.role]
  exact named earlier present

/-- The two refreshes every schedule write ends with. -/
theorem reslots_refresh {s : PartialStore} (named : Named s) (slot : String) :
    Reslots [slot, s.armed.escapeCommitmentId] s
      ((s.refreshEscapeWindow slot).refreshEscapeWindow s.armed.escapeCommitmentId) := by
  intro id later found escape
  have overlay : ((s.refreshEscapeWindow slot).refreshEscapeWindow s.armed.escapeCommitmentId).armed = s.armed := by
    simp
  rw [overlay]
  rcases refreshEscapeWindow_fire (named.refreshed slot) found escape with ⟨selected, written⟩ | ⟨other, before⟩
  · left
    rw [refreshEscapeWindow_armed] at written
    exact ⟨by simp [selected], written⟩
  · rcases refreshEscapeWindow_fire named before escape with ⟨first, written⟩ | ⟨different, present⟩
    · exact Or.inl ⟨by simp [first], written⟩
    · exact Or.inr ⟨by simp [other, different], later, present, escape, rfl⟩

theorem reslots_applyArmDirective {s : PartialStore} (named : Named s) (arm : ArmDirective) (holds : List Nat) :
    Reslots [arm.sweepEscape, (s.applyArmDirective arm holds).armed.escapeCommitmentId] s
      (s.applyArmDirective arm holds) := by
  have overlay := applyArmDirective_armed arm holds s
  have scheduled := reslots_refresh (s := { s with armed := (s.applyArmDirective arm holds).armed }) named
    arm.sweepEscape
  rw [overlay] at scheduled ⊢
  exact scheduled

/-- The whole request fits and agrees with what is resident. -/
def admits (ch : ChannelState) (s : PartialStore) (candidates : List Candidate)
    (hotReserve : Option HotReserveSpec) (monoNow : Nat) : Bool :=
  let candidates := candidates.map (fun c => c.reservePartialCapacity ch.nodes ch.nodeId)
  match s.revalidate hotReserve monoNow with
  | (_, .error _) => false
  | (r, .ok _) => !r.anyConflict candidates && !r.overCapacity candidates

theorem registerCandidates_admitted {ch : ChannelState} {s : PartialStore} {candidates : List Candidate}
    {hotReserve : Option HotReserveSpec} {monoNow : Nat} (arm : ArmDirective)
    (admitted : admits ch s candidates hotReserve monoNow = true) :
    (registerCandidates ch s candidates arm hotReserve monoNow).1 =
      ((s.revalidate hotReserve monoNow).1.enroll arm
        (candidates.map (fun c => c.reservePartialCapacity ch.nodes ch.nodeId))).1 := by
  unfold admits at admitted
  unfold registerCandidates
  rcases answer : s.revalidate hotReserve monoNow with ⟨r, refusal | created⟩
  · rw [answer] at admitted
    cases admitted
  · rw [answer] at admitted
    simp only [Bool.and_eq_true, Bool.not_eq_true'] at admitted
    simp [admitted.1, admitted.2]

theorem registerCandidates_turned {ch : ChannelState} {s : PartialStore} {candidates : List Candidate}
    {hotReserve : Option HotReserveSpec} {monoNow : Nat} (arm : ArmDirective)
    (turned : admits ch s candidates hotReserve monoNow = false) :
    (registerCandidates ch s candidates arm hotReserve monoNow).1.candidates = s.candidates ∧
      (registerCandidates ch s candidates arm hotReserve monoNow).1.armed = s.armed := by
  have candidatesSame := revalidate_candidates s hotReserve monoNow
  have armedSame := revalidate_armed s hotReserve monoNow
  unfold admits at turned
  unfold registerCandidates
  rcases answer : s.revalidate hotReserve monoNow with ⟨r, refusal | created⟩
  · rw [answer] at candidatesSame armedSame
    exact ⟨candidatesSame, armedSame⟩
  · rw [answer] at candidatesSame armedSame turned
    simp only at candidatesSame armedSame turned ⊢
    split_ifs with conflict full
    · exact ⟨(unwindReserve_candidates _ _ _).trans candidatesSame, (unwindReserve_armed _ _ _).trans armedSame⟩
    · exact ⟨(unwindReserve_candidates _ _ _).trans candidatesSame, (unwindReserve_armed _ _ _).trans armedSame⟩
    · simp [conflict, full] at turned

/-- The directive a step applies, with the hot Holds it brings. -/
def directive (ch : ChannelState) (s : PartialStore) : StoreOp → Option (ArmDirective × List Nat)
  | .registerCandidates requests arm hotReserve monoNow =>
    match buildAll ch.lib requests with
    | .error _ => none
    | .ok candidates =>
      if admits ch s candidates hotReserve monoNow then some (arm, hotHolds candidates) else none
  | .applyCachedSchedule escape duress now epsilon => some (⟨escape, "", "", duress, epsilon, now⟩, [])
  | _ => none

/-- The intent a step commits. -/
def committedIntent (s : PartialStore) : StoreOp → Option ArmIntent
  | .confirmCarrier sender carrier threshold now timing monoNow =>
    if (s.confirmCarrier sender carrier threshold now timing monoNow).2.committed then s.intents.lookup carrier
    else none
  | _ => none

/-- The slot a step schedules besides the selected one. -/
def scheduledSlot (ch : ChannelState) (s : PartialStore) (op : StoreOp) : Option String :=
  ((directive ch s op).map (fun given => given.1.sweepEscape)).or
    ((committedIntent s op).map ArmIntent.escapeCommitmentId)

/-- Every slot a step schedules. -/
def scheduledSlots (ch : ChannelState) (s : PartialStore) (op : StoreOp) : List String :=
  match scheduledSlot ch s op with
  | none => []
  | some slot => [slot, (storeStep ch s op).1.armed.escapeCommitmentId]

/-! ### Steps that schedule nothing -/

/-- Whatever is resident in `after` was resident in `before` with the same window. -/
def Unmoved (before after : PartialStore) : Prop :=
  ∀ id later, after.candidates.lookup id = some later →
    ∃ earlier, before.candidates.lookup id = some earlier ∧ earlier.role = later.role ∧ earlier.fire = later.fire

theorem Unmoved.of_same {before after : PartialStore} (same : after.candidates = before.candidates) :
    Unmoved before after := by
  intro id later found
  exact ⟨later, same ▸ found, rfl, rfl⟩

theorem Unmoved.trans {a b c : PartialStore} (first : Unmoved a b) (second : Unmoved b c) : Unmoved a c := by
  intro id last found
  obtain ⟨middle, atMiddle, role, fire⟩ := second id last found
  obtain ⟨earlier, present, role', fire'⟩ := first id middle atMiddle
  exact ⟨earlier, present, role'.trans role, fire'.trans fire⟩

theorem Unmoved.foldl {ι : Type} {write : PartialStore → ι → PartialStore}
    (each : ∀ s i, Unmoved s (write s i)) (items : List ι) (s : PartialStore) :
    Unmoved s (items.foldl write s) := by
  induction items generalizing s with
  | nil => exact Unmoved.of_same rfl
  | cons i rest ih => exact (each s i).trans (ih (write s i))

theorem unmoved_updateCandidate {f : Candidate → Candidate} (role : ∀ c, (f c).role = c.role)
    (fire : ∀ c, (f c).fire = c.fire) (s : PartialStore) (id : String) : Unmoved s (s.updateCandidate id f) := by
  intro other later found
  obtain ⟨old, present, same | ⟨_, rewritten⟩⟩ := lookup_adjust_some found
  · exact ⟨old, present, by rw [same], by rw [same]⟩
  · exact ⟨old, present, by rw [rewritten, role], by rw [rewritten, fire]⟩

theorem unmoved_terminalize (s : PartialStore) (id : String) : Unmoved s (s.terminalize id) := by
  unfold terminalize
  split
  · exact unmoved_updateCandidate (f := fun c => { c with broadcast := true }) (fun _ => rfl) (fun _ => rfl) s id
  · exact Unmoved.of_same rfl

theorem unmoved_evict (s : PartialStore) (id : String) : Unmoved s (s.evict id) := by
  unfold evict
  split
  · intro other later found
    simp only [lookup_erase_eq] at found
    split at found
    · cases found
    · exact ⟨later, found, rfl, rfl⟩
  · exact Unmoved.of_same rfl

theorem unmoved_markBroadcast (s : PartialStore) (id : String) : Unmoved s (s.markBroadcast id).1 := by
  have conflicts : Unmoved s (s.invalidateHotConflicts id).1 := Unmoved.foldl unmoved_terminalize _ s
  unfold markBroadcast
  simp only
  split
  · exact conflicts.trans (Unmoved.foldl unmoved_evict _ _)
  · exact conflicts.trans (unmoved_updateCandidate (f := fun c => { c with broadcast := true }) (fun _ => rfl)
      (fun _ => rfl) _ id)

theorem unmoved_acceptPartial (lib : Library) (s : PartialStore) (p : ParsedPartial) (nodes : List ManifestNode)
    (now : Nat) : Unmoved s (acceptPartial lib s p nodes now).1 := by
  unfold acceptPartial
  split
  · exact Unmoved.of_same rfl
  · split
    · exact unmoved_evict s _
    · split
      · exact Unmoved.of_same rfl
      · split
        · exact Unmoved.of_same rfl
        · next rung _ _ _ _ _ =>
          apply unmoved_updateCandidate
          · intro c
            cases rung <;> rfl
          · intro c
            cases rung <;> rfl

theorem unmoved_releasePartials (ch : ChannelState) (s : PartialStore) (id : String) (now : Nat) :
    Unmoved s (s.releasePartials ch id now).1 := by
  obtain same | ⟨_, _, _, _, _, _, same⟩ := releasePartials_cases ch s id now
  · rw [same]
    exact Unmoved.of_same rfl
  · rw [same]
    exact unmoved_updateCandidate (f := markReleased ch) (fun _ => rfl) (fun _ => rfl) s id

theorem recordArmIntent_candidates (s : PartialStore) (duress : Bool) (carrier nonce : String)
    (generation : MemoGeneration) (firstSeen now : Nat) (timing : DuressTiming) :
    (s.recordArmIntent duress carrier nonce generation firstSeen now timing).1.candidates = s.candidates := by
  unfold recordArmIntent upgradeMemo
  simp only
  split
  · split_ifs <;> rfl
  · rfl

/-- A receipt that commits nothing writes at most its holder. -/
theorem confirmCarrier_uncommitted {s : PartialStore} {sender : Nat} {carrier : String} {threshold now : Nat}
    {timing : DuressTiming} {monoNow : Nat}
    (short : (s.confirmCarrier sender carrier threshold now timing monoNow).2.committed = false) :
    (s.confirmCarrier sender carrier threshold now timing monoNow).1.candidates = s.candidates ∧
      (s.confirmCarrier sender carrier threshold now timing monoNow).1.armed = s.armed := by
  obtain ⟨_, same | same⟩ | ⟨_, _, same⟩ := confirmCarrier_cases s sender carrier threshold now timing monoNow
  · rw [same]
    exact ⟨rfl, rfl⟩
  · rw [same]
    exact ⟨rfl, rfl⟩
  · rw [same] at short
    cases short

theorem confirmCarrier_committed {s : PartialStore} {sender : Nat} {carrier : String} {threshold now : Nat}
    {timing : DuressTiming} {monoNow : Nat}
    (committed : (s.confirmCarrier sender carrier threshold now timing monoNow).2.committed = true) :
    ∃ intent, Crossing s sender carrier threshold now monoNow intent := by
  obtain ⟨short, _⟩ | ⟨intent, crossing, _⟩ := confirmCarrier_cases s sender carrier threshold now timing monoNow
  · rw [committed] at short
    cases short
  · exact ⟨intent, crossing⟩

theorem unmoved_step {ch : ChannelState} {s : PartialStore} {op : StoreOp}
    (nothing : scheduledSlot ch s op = none) : Unmoved s (storeStep ch s op).1 := by
  by_cases quiet : op.quiet = true
  · exact Unmoved.of_same (sameCore_of_quiet ch s op quiet).candidates
  cases op with
  | recordArmIntent duress carrier nonce generation firstSeen now timing =>
    exact Unmoved.of_same (recordArmIntent_candidates s duress carrier nonce generation firstSeen now timing)
  | registerCandidates requests arm hotReserve monoNow =>
    apply Unmoved.of_same
    simp only [storeStep]
    cases built : buildAll ch.lib requests with
    | error message => rfl
    | ok candidates =>
      cases admitted : admits ch s candidates hotReserve monoNow with
      | true => simp [scheduledSlot, directive, built, admitted] at nothing
      | false => exact (registerCandidates_turned arm admitted).1
  | applyCachedSchedule escape duress now epsilon => cases nothing
  | confirmCarrier sender carrier threshold now timing monoNow =>
    apply Unmoved.of_same
    apply And.left
    apply confirmCarrier_uncommitted
    by_contra committed
    rw [Bool.not_eq_false] at committed
    obtain ⟨intent, crossing⟩ := confirmCarrier_committed committed
    simp [scheduledSlot, directive, committedIntent, committed, crossing.found] at nothing
  | pruneStore now monoNow =>
    intro id later found
    exact ⟨later, (lookup_retain_some.mp found).1, rfl, rfl⟩
  | acceptPartial p now => exact unmoved_acceptPartial ch.lib s p ch.nodes now
  | reserveHotBudget id outflow wallNow expiry monoNow => exact Unmoved.of_same rfl
  | releaseHotBudget id => exact Unmoved.of_same rfl
  | releasePartials id now => exact unmoved_releasePartials ch s id now
  | latchEscapeRung id rung lowest =>
    exact unmoved_updateCandidate (f := latchRung rung lowest) (fun _ => rfl) (fun _ => rfl) s id
  | invalidateHotConflictsInStore id => exact Unmoved.foldl unmoved_terminalize _ s
  | markBroadcast id => exact unmoved_markBroadcast s id
  | _ => exact absurd rfl quiet

/-! ### Steps that schedule -/

/-- The store a committing receipt schedules from: the overlay is written, both gates are open and the sweep is
selected. -/
def confirmed (carrier : String) (intent : ArmIntent) (now : Nat) (timing : DuressTiming) (s : PartialStore) :
    PartialStore :=
  (((((s.markCommitted carrier).writeSafetyOverlay intent.duress intent.firstSeen now timing).openGate
    intent.spendCommitmentId).openGate intent.escapeCommitmentId).selectSweep intent.duress
    intent.escapeCommitmentId)

theorem applyWrites_confirmWrites (carrier : String) (intent : ArmIntent) (now : Nat) (timing : DuressTiming)
    (s : PartialStore) :
    applyWrites (confirmWrites carrier intent now timing) s =
      (((confirmed carrier intent now timing s).refreshEscapeWindow
        intent.escapeCommitmentId).refreshEscapeWindow
        (confirmed carrier intent now timing s).armed.escapeCommitmentId).retireCarrier carrier := by
  simp only [applyWrites, confirmWrites, List.foldl_cons, List.foldl_nil, refreshEscapeWindow_armed]
  rfl

theorem unmoved_confirmed (carrier : String) (intent : ArmIntent) (now : Nat) (timing : DuressTiming)
    (s : PartialStore) : Unmoved s (confirmed carrier intent now timing s) := by
  have opened : ∀ (id : String) (r : PartialStore), Unmoved r (r.openGate id) :=
    fun id r => unmoved_updateCandidate (f := fun c => { c with holderQuorumReached := true }) (fun _ => rfl)
      (fun _ => rfl) r id
  exact (opened intent.spendCommitmentId
    ((s.markCommitted carrier).writeSafetyOverlay intent.duress intent.firstSeen now timing)).trans
    (opened intent.escapeCommitmentId _)

theorem reslots_confirmCarrier {s : PartialStore} (named : Named s) {sender : Nat} {carrier : String}
    {threshold now monoNow : Nat} {intent : ArmIntent} (timing : DuressTiming)
    (crossing : Crossing s sender carrier threshold now monoNow intent) :
    Reslots [intent.escapeCommitmentId,
        (s.confirmCarrier sender carrier threshold now timing monoNow).1.armed.escapeCommitmentId] s
      (s.confirmCarrier sender carrier threshold now timing monoNow).1 := by
  have named' : Named (confirmed carrier intent now timing (s.addHolder sender carrier)) := by
    intro later found
    obtain ⟨earlier, present, role, _⟩ := unmoved_confirmed _ _ _ _ _ _ later found
    rw [← role]
    exact named earlier present
  have scheduled := reslots_refresh named' intent.escapeCommitmentId
  rw [confirmCarrier_crossing crossing]
  simp only [applyWrites_confirmWrites]
  have overlay : ((((confirmed carrier intent now timing (s.addHolder sender carrier)).refreshEscapeWindow
      intent.escapeCommitmentId).refreshEscapeWindow
      (confirmed carrier intent now timing (s.addHolder sender carrier)).armed.escapeCommitmentId).retireCarrier
      carrier).armed = (confirmed carrier intent now timing (s.addHolder sender carrier)).armed := by
    simp [retireCarrier]
  rw [overlay]
  intro id later found escape
  rcases scheduled id later found escape with ⟨listed, written⟩ | ⟨unlisted, middle, atMiddle, role, fire⟩
  · left
    refine ⟨listed, ?_⟩
    rw [written, overlay]
    simp
  · obtain ⟨earlier, present, role', fire'⟩ := unmoved_confirmed _ _ _ _ _ _ middle atMiddle
    exact Or.inr ⟨unlisted, earlier, present, role'.trans role, fire'.trans fire⟩

/-- The one escape a request can add is its directive's own slot. -/
theorem reslots_enroll {ch : ChannelState} {s : PartialStore} {requests : List CandidateRequest}
    {candidates : List Candidate} {arm : ArmDirective} {hotReserve : Option HotReserveSpec} {monoNow : Nat}
    (regular : Regular s) (built : buildAll ch.lib requests = .ok candidates)
    (paired : (StoreOp.registerCandidates requests arm hotReserve monoNow).Paired) :
    Reslots [arm.sweepEscape, ((s.revalidate hotReserve monoNow).1.enroll arm
        (candidates.map (fun c => c.reservePartialCapacity ch.nodes ch.nodeId))).1.armed.escapeCommitmentId] s
      ((s.revalidate hotReserve monoNow).1.enroll arm
        (candidates.map (fun c => c.reservePartialCapacity ch.nodes ch.nodeId))).1 := by
  let registered := ((s.revalidate hotReserve monoNow).1.registerAll
    (candidates.map (fun c => c.reservePartialCapacity ch.nodes ch.nodeId))).1
  have origin : ∀ id c, registered.candidates.lookup id = some c → c.role = .escape →
      s.candidates.lookup id = some c ∨ id = arm.sweepEscape ∧ id ≠ "" := by
    intro id c found escape
    rcases registerAll_lookup found with old | ⟨_, member, named⟩
    · rw [revalidate_candidates] at old
      exact Or.inl old
    · right
      obtain ⟨original, present, reserved⟩ := List.mem_map.mp member
      obtain ⟨request, asked, made⟩ := buildAll_fresh built original present
      have fresh : c.Fresh request.spec := reserved ▸ fresh_reservePartialCapacity made _ _
      obtain ⟨slot, nonempty, _⟩ := (paired request asked).1 (fresh.role.symm.trans escape)
      have same : id = request.spec.commitmentId := named.symm.trans fresh.commitmentId
      exact ⟨same.trans slot, same ▸ nonempty⟩
  have nameable : Named registered := by
    intro c found escape
    rcases origin "" c found escape with old | ⟨_, nonempty⟩
    · exact (regular "" c old).named escape rfl
    · exact nonempty rfl
  intro id later found escape
  rcases reslots_applyArmDirective nameable arm
      (hotHolds (candidates.map (fun c : Candidate => c.reservePartialCapacity ch.nodes ch.nodeId))) id later found
      escape with
    written | ⟨unlisted, c, atId, role, fire⟩
  · exact Or.inl written
  · rcases origin id c atId role with old | ⟨slot, _⟩
    · exact Or.inr ⟨unlisted, c, old, role, fire⟩
    · exact absurd (by simp [slot]) unlisted

/-- A step moves the windows of the slots it schedules, and no other. -/
theorem reslots_step {ch : ChannelState} {s : PartialStore} {op : StoreOp} (regular : Regular s)
    (paired : op.Paired) : Reslots (scheduledSlots ch s op) s (storeStep ch s op).1 := by
  cases scheduled : scheduledSlot ch s op with
  | none =>
    intro id later found escape
    obtain ⟨earlier, present, role, fire⟩ := unmoved_step scheduled id later found
    exact Or.inr ⟨by simp [scheduledSlots, scheduled], earlier, present, role.trans escape, fire⟩
  | some slot =>
    simp only [scheduledSlots, scheduled]
    cases op with
    | registerCandidates requests arm hotReserve monoNow =>
      cases built : buildAll ch.lib requests with
      | error message => simp [scheduledSlot, directive, committedIntent, built] at scheduled
      | ok candidates =>
        cases admitted : admits ch s candidates hotReserve monoNow with
        | false => simp [scheduledSlot, directive, committedIntent, built, admitted] at scheduled
        | true =>
          simp only [scheduledSlot, directive, built, admitted, if_true, Option.map_some, Option.some_or,
            Option.some.injEq] at scheduled
          subst scheduled
          simp only [storeStep, built, registerCandidates_admitted arm admitted]
          exact reslots_enroll regular built paired
    | applyCachedSchedule escape duress now epsilon =>
      cases scheduled
      exact reslots_applyArmDirective regular.nameable _ _
    | confirmCarrier sender carrier threshold now timing monoNow =>
      cases committed : (s.confirmCarrier sender carrier threshold now timing monoNow).2.committed with
      | false => simp [scheduledSlot, directive, committedIntent, committed] at scheduled
      | true =>
        obtain ⟨intent, crossing⟩ := confirmCarrier_committed committed
        simp only [scheduledSlot, directive, committedIntent, committed, crossing.found, if_true, Option.map_none,
          Option.map_some, Option.none_or, Option.some.injEq] at scheduled
        subst scheduled
        exact reslots_confirmCarrier regular.nameable timing crossing
    | _ => cases scheduled

/-! ### The overlay over one step -/

theorem hotHolds_reserved (ch : ChannelState) (candidates : List Candidate) :
    hotHolds (candidates.map (fun c => c.reservePartialCapacity ch.nodes ch.nodeId)) = hotHolds candidates := by
  unfold hotHolds
  rw [List.filter_map, List.filterMap_map]
  rfl

/-- The first sight, the instant and the timing with which an intent is recorded. -/
def recording : StoreOp → Option (Nat × Nat × DuressTiming)
  | .recordArmIntent _ _ _ _ firstSeen now timing => some (firstSeen, now, timing)
  | _ => none

theorem recording_eq {op : StoreOp} {firstSeen now : Nat} {timing : DuressTiming}
    (request : recording op = some (firstSeen, now, timing)) :
    ∃ duress carrier nonce generation,
      op = .recordArmIntent duress carrier nonce generation firstSeen now timing := by
  cases op with
  | recordArmIntent duress carrier nonce generation seen instant given =>
    cases request
    exact ⟨duress, carrier, nonce, generation, rfl⟩
  | _ => cases request

/-- What a step does to the overlay: it applies a directive, commits an intent, or schedules nothing. -/
inductive OverlayStep (ch : ChannelState) (s : PartialStore) (op : StoreOp) (after : Armed) : Prop where
  | directed (arm : ArmDirective) (holds : List Nat) (live : Bool) (given : directive ch s op = some (arm, holds))
      (written : after = adoptSweep arm live (holds.foldl (shrinkToHold arm.epsilonSecs arm.now) s.armed))
  | committed (sender : Nat) (carrier : String) (threshold now : Nat) (timing : DuressTiming) (monoNow : Nat)
      (intent : ArmIntent) (receipt : op = .confirmCarrier sender carrier threshold now timing monoNow)
      (crossing : Crossing s sender carrier threshold now monoNow intent)
      (written : after = ((s.writeSafetyOverlay intent.duress intent.firstSeen now timing).selectSweep
        intent.duress intent.escapeCommitmentId).armed)
  | recorded (firstSeen now : Nat) (timing : DuressTiming) (request : recording op = some (firstSeen, now, timing))
      (written : after = (s.writeSafetyOverlay false firstSeen now timing).armed)
  | unwritten (nothing : scheduledSlot ch s op = none) (unasked : recording op = none) (written : after = s.armed)

theorem committed_overlay (ch : ChannelState) {s : PartialStore} {sender : Nat} {carrier : String}
    {threshold now monoNow : Nat} {intent : ArmIntent} (timing : DuressTiming)
    (crossing : Crossing s sender carrier threshold now monoNow intent) :
    (storeStep ch s (.confirmCarrier sender carrier threshold now timing monoNow)).1.armed =
      ((s.writeSafetyOverlay intent.duress intent.firstSeen now timing).selectSweep intent.duress
        intent.escapeCommitmentId).armed := by
  show (s.confirmCarrier sender carrier threshold now timing monoNow).1.armed = _
  rw [confirmCarrier_crossing crossing, confirmed_armed]
  rfl

theorem overlay_step (ch : ChannelState) (s : PartialStore) (op : StoreOp) :
    OverlayStep ch s op (storeStep ch s op).1.armed := by
  by_cases quiet : op.quiet = true
  · have same := (sameCore_of_quiet ch s op quiet).armed
    cases op with
    | recordArmIntent duress carrier nonce generation firstSeen now timing => cases quiet
    | registerCandidates requests arm hotReserve monoNow => cases quiet
    | applyCachedSchedule escape duress now epsilon => cases quiet
    | confirmCarrier sender carrier threshold now timing monoNow => cases quiet
    | _ => exact .unwritten rfl rfl same
  by_cases only : op.registryOnly = true
  · have same := (sameSafety_of_registryOnly ch s op only).armed
    cases op with
    | recordArmIntent duress carrier nonce generation firstSeen now timing => cases only
    | registerCandidates requests arm hotReserve monoNow => cases only
    | applyCachedSchedule escape duress now epsilon => cases only
    | confirmCarrier sender carrier threshold now timing monoNow => cases only
    | _ => exact .unwritten rfl rfl same
  cases op with
  | recordArmIntent duress carrier nonce generation firstSeen now timing =>
    exact .recorded firstSeen now timing rfl
      (recordArmIntent_armed s duress carrier nonce generation firstSeen now timing)
  | registerCandidates requests arm hotReserve monoNow =>
    cases built : buildAll ch.lib requests with
    | error message =>
      apply OverlayStep.unwritten
      · simp [scheduledSlot, directive, committedIntent, built]
      · rfl
      · simp [storeStep, built]
    | ok candidates =>
      cases admitted : admits ch s candidates hotReserve monoNow with
      | false =>
        apply OverlayStep.unwritten
        · simp [scheduledSlot, directive, committedIntent, built, admitted]
        · rfl
        · simp only [storeStep, built]
          exact (registerCandidates_turned arm admitted).2
      | true =>
        have overlay := enroll_armed arm (candidates.map (fun c => c.reservePartialCapacity ch.nodes ch.nodeId))
          (s.revalidate hotReserve monoNow).1
        rw [applyArmDirective_armed, registerAll_armed, revalidate_armed, hotHolds_reserved] at overlay
        apply OverlayStep.directed arm (hotHolds candidates)
        · simp [directive, built, admitted]
        · simp only [storeStep, built, registerCandidates_admitted arm admitted]
          exact overlay
  | applyCachedSchedule escape duress now epsilon =>
    exact .directed _ _ _ rfl (applyArmDirective_armed _ _ s)
  | confirmCarrier sender carrier threshold now timing monoNow =>
    cases committed : (s.confirmCarrier sender carrier threshold now timing monoNow).2.committed with
    | false =>
      apply OverlayStep.unwritten
      · simp [scheduledSlot, directive, committedIntent, committed]
      · rfl
      · exact (confirmCarrier_uncommitted committed).2
    | true =>
      obtain ⟨intent, crossing⟩ := confirmCarrier_committed committed
      exact .committed sender carrier threshold now timing monoNow intent rfl crossing
        (committed_overlay ch timing crossing)
  | pruneStore now monoNow => exact .unwritten rfl rfl rfl
  | _ => first | exact absurd rfl quiet | exact absurd rfl only

theorem committedIntent_crossing {s : PartialStore} {sender : Nat} {carrier : String} {threshold now monoNow : Nat}
    {intent : ArmIntent} (timing : DuressTiming)
    (crossing : Crossing s sender carrier threshold now monoNow intent) :
    committedIntent s (.confirmCarrier sender carrier threshold now timing monoNow) = some intent := by
  simp [committedIntent, confirmCarrier_crossing crossing, crossing.found]

theorem directed_overlay {ch : ChannelState} {s : PartialStore} {op : StoreOp} {arm : ArmDirective}
    {holds : List Nat} (given : directive ch s op = some (arm, holds)) :
    ∃ live, (storeStep ch s op).1.armed =
      adoptSweep arm live (holds.foldl (shrinkToHold arm.epsilonSecs arm.now) s.armed) := by
  cases overlay_step ch s op with
  | directed other others live here written =>
    rw [given] at here
    cases here
    exact ⟨live, written⟩
  | committed sender carrier threshold now timing monoNow intent receipt crossing written =>
    subst receipt
    cases given
  | recorded firstSeen now timing request written =>
    obtain ⟨_, _, _, _, rfl⟩ := recording_eq request
    cases given
  | unwritten nothing unasked written => simp [scheduledSlot, given] at nothing

theorem foldl_shrinkToHold_unarmed {armed : Armed} (unarmed : armed.active = false) (epsilon now : Nat)
    (holds : List Nat) : holds.foldl (shrinkToHold epsilon now) armed = armed := by
  have same : ∀ hold, shrinkToHold epsilon now armed hold = armed := by
    intro hold
    unfold shrinkToHold
    rw [if_neg (by simp [unarmed])]
  induction holds with
  | nil => rfl
  | cons hold rest ih => rw [List.foldl_cons, same, ih]

theorem foldl_shrinkToHold_selector (epsilon now : Nat) (holds : List Nat) (armed : Armed) :
    (holds.foldl (shrinkToHold epsilon now) armed).escapeCommitmentId = armed.escapeCommitmentId ∧
      (holds.foldl (shrinkToHold epsilon now) armed).sweepActive = armed.sweepActive := by
  induction holds generalizing armed with
  | nil => exact ⟨rfl, rfl⟩
  | cons hold rest ih => exact ih (shrinkToHold epsilon now armed hold)

/-- An unarmed store selects the slot of every directive. -/
theorem directed_selected {ch : ChannelState} {s : PartialStore} {op : StoreOp} {arm : ArmDirective}
    {holds : List Nat} (given : directive ch s op = some (arm, holds)) (unarmed : s.armed.active = false)
    (idle : s.armed.sweepActive = false) :
    (storeStep ch s op).1.armed.escapeCommitmentId = arm.sweepEscape := by
  obtain ⟨live, written⟩ := directed_overlay given
  rw [written, foldl_shrinkToHold_unarmed unarmed]
  simp [adoptSweep, idle]

theorem selectSweep_selector (commitArm : Bool) (escape : String) (s : PartialStore) :
    (s.selectSweep commitArm escape).armed.escapeCommitmentId = s.armed.escapeCommitmentId ∨
      (s.selectSweep commitArm escape).armed.escapeCommitmentId = escape ∧ commitArm = true ∧
        s.armed.sweepActive = false ∧ escape ≠ "" := by
  unfold selectSweep
  simp only
  split_ifs with selects
  · right
    simpa [and_assoc] using selects
  · exact Or.inl rfl

/-- The selected slot changes only to the slot the step schedules. -/
theorem selected_step (ch : ChannelState) (s : PartialStore) (op : StoreOp) :
    (storeStep ch s op).1.armed.escapeCommitmentId = s.armed.escapeCommitmentId ∨
      scheduledSlot ch s op = some (storeStep ch s op).1.armed.escapeCommitmentId := by
  cases overlay_step ch s op with
  | directed arm holds live given written =>
    rw [written]
    simp only [adoptSweep, scheduledSlot, given]
    split_ifs
    · exact Or.inl (foldl_shrinkToHold_selector _ _ holds s.armed).1
    · exact Or.inr rfl
  | committed sender carrier threshold now timing monoNow intent receipt crossing written =>
    subst receipt
    rw [written]
    rcases selectSweep_selector intent.duress intent.escapeCommitmentId
        (s.writeSafetyOverlay intent.duress intent.firstSeen now timing) with same | ⟨selected, _⟩
    · exact Or.inl same
    · right
      rw [selected]
      simp [scheduledSlot, directive, committedIntent_crossing timing crossing]
  | recorded firstSeen now timing request written =>
    rw [written]
    exact Or.inl rfl
  | unwritten nothing unasked written =>
    rw [written]
    exact Or.inl rfl

/-- A step that schedules nothing leaves the arm bit, the selection and a live `T`. -/
theorem unscheduled_overlay {ch : ChannelState} {s : PartialStore} {op : StoreOp}
    (nothing : scheduledSlot ch s op = none) :
    (storeStep ch s op).1.armed.active = s.armed.active ∧
      (storeStep ch s op).1.armed.escapeCommitmentId = s.armed.escapeCommitmentId ∧
      (s.armed.active = true → (storeStep ch s op).1.armed.fireAt = s.armed.fireAt) := by
  cases overlay_step ch s op with
  | directed arm holds live given written => simp [scheduledSlot, given] at nothing
  | committed sender carrier threshold now timing monoNow intent receipt crossing written =>
    subst receipt
    simp [scheduledSlot, directive, committedIntent_crossing timing crossing] at nothing
  | recorded firstSeen now timing request written =>
    rw [written]
    simp only [writeSafetyOverlay, Bool.or_false, true_and]
    intro armed
    simp [armed]
  | unwritten nothing unasked written =>
    rw [written]
    exact ⟨rfl, rfl, fun _ => rfl⟩

/-! ### Every run -/

theorem effectiveT_fits (s : PartialStore) (firstSeen : Nat) {now : Nat} (timing : DuressTiming)
    (fits : now ≤ maxWord) : s.effectiveT firstSeen now timing ≤ maxWord := by
  have delay : satAdd firstSeen timing.duressDelaySecs ≤ maxWord := by
    unfold satAdd
    omega
  unfold effectiveT
  cases s.earliestHot now with
  | none =>
    simp only
    omega
  | some hotFire =>
    simp only
    omega

theorem writeSafetyOverlay_fits {s : PartialStore} (before : s.armed.fireAt ≤ maxWord) (arm : Bool)
    (firstSeen : Nat) {now : Nat} (timing : DuressTiming) (fits : now ≤ maxWord) :
    (s.writeSafetyOverlay arm firstSeen now timing).armed.fireAt ≤ maxWord := by
  have bound := effectiveT_fits s firstSeen timing fits
  unfold writeSafetyOverlay
  simp only
  split_ifs <;> omega

/-- What holds of the store after every run of paired requests. -/
structure Sound (s : PartialStore) : Prop where
  regular : Regular s
  keyed : Keyed s
  idle : s.armed.active = false → s.armed.sweepActive = false
  slot : s.armed.active = true → ∀ c window, s.candidates.lookup s.armed.escapeCommitmentId = some c →
    c.role = .escape → c.fire = some window → s.armed.fireAt ≤ window.fireAt
  fits : s.armed.fireAt ≤ maxWord

theorem unarmed_before {ch : ChannelState} {s : PartialStore} {op : StoreOp}
    (unarmed : (storeStep ch s op).1.armed.active = false) : s.armed.active = false := by
  by_contra armed
  have still := (advances_step ch s op).active (by simpa using armed)
  rw [unarmed] at still
  cases still

theorem idle_step {ch : ChannelState} {s : PartialStore} {op : StoreOp}
    (idle : s.armed.active = false → s.armed.sweepActive = false)
    (unarmed : (storeStep ch s op).1.armed.active = false) : (storeStep ch s op).1.armed.sweepActive = false := by
  have before := unarmed_before unarmed
  cases overlay_step ch s op with
  | directed arm holds live given written =>
    rw [written, foldl_shrinkToHold_unarmed before]
    simp [adoptSweep, before, idle before]
  | committed sender carrier threshold now timing monoNow intent receipt crossing written =>
    rw [written] at unarmed ⊢
    have normal : intent.duress = false := by
      simp only [selectSweep, writeSafetyOverlay, Bool.or_eq_false_iff] at unarmed
      exact unarmed.2
    simp [selectSweep, writeSafetyOverlay, normal, idle before]
  | recorded firstSeen now timing request written =>
    rw [written]
    exact idle before
  | unwritten nothing unasked written =>
    rw [written]
    exact idle before

theorem slot_step {ch : ChannelState} {s : PartialStore} {op : StoreOp} (sound : Sound s) (paired : op.Paired)
    (armed : (storeStep ch s op).1.armed.active = true) {c : Candidate} {window : FireWindow}
    (found : (storeStep ch s op).1.candidates.lookup (storeStep ch s op).1.armed.escapeCommitmentId = some c)
    (escape : c.role = .escape) (scheduled : c.fire = some window) :
    (storeStep ch s op).1.armed.fireAt ≤ window.fireAt := by
  rcases reslots_step sound.regular paired _ c found escape with
    ⟨_, written⟩ | ⟨unlisted, earlier, present, role, fire⟩
  · rw [scheduled] at written
    cases written
    exact le_rfl
  · -- The selected slot was not written, so the step scheduled nothing.
    cases nothing : scheduledSlot ch s op with
    | some slot => simp [scheduledSlots, nothing] at unlisted
    | none =>
      obtain ⟨active, selected, deadline⟩ := unscheduled_overlay nothing
      rw [active] at armed
      rw [selected] at present
      rw [deadline armed]
      exact sound.slot armed earlier window present role (fire.trans scheduled)

theorem fits_step {ch : ChannelState} {s : PartialStore} {op : StoreOp} (before : s.armed.fireAt ≤ maxWord)
    (readings : ∀ now, op.wallReading = some now → now ≤ maxWord) :
    (storeStep ch s op).1.armed.fireAt ≤ maxWord := by
  cases overlay_step ch s op with
  | directed arm holds live given written =>
    rw [written]
    cases armed : s.armed.active with
    | true => exact ((advances_foldl_shrinkToHold _ _ holds s.armed).fireAt armed).trans before
    | false =>
      rw [foldl_shrinkToHold_unarmed armed]
      exact before
  | committed sender carrier threshold now timing monoNow intent receipt crossing written =>
    subst receipt
    rw [written]
    exact writeSafetyOverlay_fits before intent.duress intent.firstSeen timing (readings now rfl)
  | recorded firstSeen now timing request written =>
    obtain ⟨_, _, _, _, rfl⟩ := recording_eq request
    rw [written]
    exact writeSafetyOverlay_fits before false firstSeen timing (readings now rfl)
  | unwritten nothing unasked written =>
    rw [written]
    exact before

theorem sound_step {ch : ChannelState} {s : PartialStore} {op : StoreOp} (sound : Sound s) (paired : op.Paired)
    (readings : ∀ now, op.wallReading = some now → now ≤ maxWord) : Sound (storeStep ch s op).1 where
  regular := regular_step sound.regular paired
  keyed := keyed_step ch s op sound.keyed
  idle := idle_step sound.idle
  slot := fun armed _ _ found escape scheduled => slot_step sound paired armed found escape scheduled
  fits := fits_step sound.fits readings

theorem storeAfter_sound (ch : ChannelState) (config : StoreConfig) {ops : List StoreOp}
    (paired : ∀ op ∈ ops, op.Paired) (readings : ∀ op ∈ ops, ∀ now, op.wallReading = some now → now ≤ maxWord) :
    Sound (storeAfter ch config ops) := by
  induction ops using List.reverseRecOn with
  | nil =>
    refine ⟨Every.empty _, ?_, fun _ => rfl, ?_, Nat.zero_le _⟩
    · intro id c found
      cases found
    · intro _ c window found
      cases found
  | append_singleton ops op ih =>
    rw [storeAfter_snoc]
    apply sound_step
    · exact ih (fun op member => paired op (List.mem_append_left _ member))
        (fun op member => readings op (List.mem_append_left _ member))
    · exact paired op (by simp)
    · exact readings op (by simp)

end BtcPolicy.Channel
