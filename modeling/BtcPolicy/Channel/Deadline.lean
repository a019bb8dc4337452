import BtcPolicy.Channel.Arming

/-! The duress deadline. `T` is at most the intent's first sight plus the delay and at most every pending hot
Hold minus ε, except where that instant had already passed when the step ran. -/

namespace BtcPolicy.Channel
open FiniteMap Word Bitcoin HotLedger Runs PartialStore

/-- A hot spend that is still to settle and has not expired at `now`. -/
structure PendingHot (s : PartialStore) (now : Nat) (id : String) (c : Candidate) (window : FireWindow) :
    Prop where
  found : s.candidates.lookup id = some c
  hot : c.hot = true
  unsettled : c.broadcast = false
  live : now ≤ c.expiry
  scheduled : c.fire = some window

theorem effectiveT_le_delay (s : PartialStore) (firstSeen now : Nat) (timing : DuressTiming) :
    s.effectiveT firstSeen now timing ≤ max now (firstSeen + timing.duressDelaySecs) := by
  have delay : satAdd firstSeen timing.duressDelaySecs ≤ firstSeen + timing.duressDelaySecs := by
    unfold satAdd
    exact min_le_left _ _
  unfold effectiveT
  cases s.earliestHot now with
  | none =>
    simp only
    omega
  | some hotFire =>
    simp only
    omega

theorem effectiveT_le_hold {s : PartialStore} {now : Nat} {id : String} {c : Candidate} {window : FireWindow}
    (pending : PendingHot s now id c window) (firstSeen : Nat) (timing : DuressTiming) :
    s.effectiveT firstSeen now timing ≤ max now (window.fireAt - timing.epsilonSecs) := by
  have listed : window.fireAt ∈ ((vals s.candidates).filter
      (fun c => c.hot && !c.broadcast && decide (now ≤ c.expiry))).filterMap
      (fun c => c.fire.map FireWindow.fireAt) := by
    apply List.mem_filterMap.mpr
    refine ⟨c, List.mem_filter.mpr ⟨mem_vals.mpr ⟨id, pending.found⟩, ?_⟩, ?_⟩
    · simp [pending.hot, pending.unsettled, pending.live]
    · simp [pending.scheduled]
  unfold effectiveT
  cases earliest : s.earliestHot now with
  | none =>
    rw [earliestHot, List.min?_eq_none_iff] at earliest
    rw [earliest] at listed
    cases listed
  | some hotFire =>
    have least : hotFire ≤ window.fireAt := (List.min?_eq_some_iff.mp earliest).2 _ listed
    simp only
    omega

/-- A committed duress receipt leaves `T` at most where its own overlay puts it. -/
theorem confirmed_fireAt_le {s : PartialStore} {sender : Nat} {carrier : String} {threshold now : Nat}
    {monoNow : Nat} {intent : ArmIntent} (timing : DuressTiming)
    (crossing : Crossing s sender carrier threshold now monoNow intent) (duress : intent.duress = true) :
    (s.confirmCarrier sender carrier threshold now timing monoNow).1.armed.active = true ∧
      (s.confirmCarrier sender carrier threshold now timing monoNow).1.armed.fireAt ≤
        s.effectiveT intent.firstSeen now timing := by
  rw [confirmCarrier_crossing crossing, confirmed_armed]
  have scan : ((s.addHolder sender carrier).markCommitted carrier).effectiveT intent.firstSeen now timing =
      s.effectiveT intent.firstSeen now timing := rfl
  simp only [selectSweep, writeSafetyOverlay, duress, Bool.and_true, Bool.or_true, scan, true_and]
  split
  · exact min_le_right _ _
  · exact le_rfl

/-- While armed, an enrolled hot Hold pulls `T` down to its own instant minus ε, or to now. -/
theorem foldl_shrinkToHold_le {epsilon now hold : Nat} {holds : List Nat} (member : hold ∈ holds)
    {armed : Armed} (active : armed.active = true) :
    (holds.foldl (shrinkToHold epsilon now) armed).fireAt ≤ max now (hold - epsilon) := by
  induction holds generalizing armed with
  | nil => cases member
  | cons first rest ih =>
    rcases List.mem_cons.mp member with here | later
    · have shrunk : (shrinkToHold epsilon now armed first).fireAt ≤ max now (hold - epsilon) := by
        simp only [shrinkToHold, active, if_true, here]
        omega
      have still : (shrinkToHold epsilon now armed first).active = true := active
      exact ((advances_foldl_shrinkToHold epsilon now rest _).fireAt still).trans shrunk
    · exact ih later active

theorem registered_fireAt_le {ch : ChannelState} {s : PartialStore} {requests : List CandidateRequest}
    {arm : ArmDirective} {hotReserve : Option HotReserveSpec} {monoNow : Nat} {request : CandidateRequest}
    {window : FireWindow} (active : s.armed.active = true) (member : request ∈ requests)
    (hot : request.spec.hot = true) (scheduled : request.spec.fire = some window)
    (absent : s.candidates.lookup request.spec.commitmentId = none)
    (present : (storeStep ch s (.registerCandidates requests arm hotReserve monoNow)).1.candidates.lookup
      request.spec.commitmentId ≠ none) :
    (storeStep ch s (.registerCandidates requests arm hotReserve monoNow)).1.armed.fireAt ≤
      max arm.now (window.fireAt - arm.epsilonSecs) := by
  simp only [storeStep] at present ⊢
  cases built : buildAll ch.lib requests with
  | error message =>
    simp only [built] at present
    exact absurd absent present
  | ok candidates =>
    simp only [built] at present ⊢
    obtain ⟨_, _, same⟩ | ⟨_, _, _, same⟩ | ⟨_, _, same⟩ :=
      registerCandidates_cases ch s candidates arm hotReserve monoNow
    · rw [same, revalidate_candidates] at present
      exact absurd absent present
    · rw [same, unwindReserve_candidates, revalidate_candidates] at present
      exact absurd absent present
    · obtain ⟨c, listed, fresh, fire⟩ := buildAll_built built request member
      have hold : window.fireAt ∈
          hotHolds (candidates.map (fun c => c.reservePartialCapacity ch.nodes ch.nodeId)) := by
        refine List.mem_filterMap.mpr ⟨c.reservePartialCapacity ch.nodes ch.nodeId,
          List.mem_filter.mpr ⟨List.mem_map_of_mem listed, fresh.hot.trans hot⟩, ?_⟩
        show c.fire.map FireWindow.fireAt = some window.fireAt
        rw [fire, scheduled]
        rfl
      rw [same, enroll_armed, applyArmDirective_armed]
      apply foldl_shrinkToHold_le hold
      rw [registerAll_armed, revalidate_armed]
      exact active

/-! ### Pending Holds over a run -/

/-- The instant and the ε with which a step can move `T` below a Hold. -/
def deadlineStep : StoreOp → Option (Nat × Nat)
  | .confirmCarrier _ _ _ now timing _ => some (now, timing.epsilonSecs)
  | .registerCandidates _ arm _ _ => some (arm.now, arm.epsilonSecs)
  | _ => none

/-- Some step of `ops` put `T` at or before the Hold minus ε, or at its own instant, or found it expired. -/
def Accounted (ops : List StoreOp) (fireAt hold expiry : Nat) : Prop :=
  ∃ op ∈ ops, ∃ now epsilon, deadlineStep op = some (now, epsilon) ∧
    (fireAt ≤ max now (hold - epsilon) ∨ expiry < now)

theorem Accounted.shrink {ops : List StoreOp} {fireAt lower hold expiry : Nat}
    (accounted : Accounted ops fireAt hold expiry) (less : lower ≤ fireAt) (op : StoreOp) :
    Accounted (ops ++ [op]) lower hold expiry := by
  obtain ⟨step, member, now, epsilon, timed, bound⟩ := accounted
  exact ⟨step, List.mem_append_left _ member, now, epsilon, timed, bound.imp_left less.trans⟩

/-- Every hot spend that is still to settle has its Hold accounted for. -/
def HoldsAccounted (s : PartialStore) (ops : List StoreOp) : Prop :=
  ∀ id c window, s.candidates.lookup id = some c → c.hot = true → c.role = .spend → c.broadcast = false →
    c.fire = some window → Accounted ops s.armed.fireAt window.fireAt c.expiry

theorem holdsAccounted_of_arming {ch : ChannelState} {s : PartialStore} {op : StoreOp} (ops : List StoreOp)
    (unarmed : s.armed.active = false) (armed : (storeStep ch s op).1.armed.active = true) :
    HoldsAccounted (storeStep ch s op).1 (ops ++ [op]) := by
  obtain ⟨sender, carrier, threshold, now, timing, monoNow, intent, rfl, crossing, duress⟩ :=
    arms_of_step unarmed armed
  intro id later window found hot spend unsettled scheduled
  refine ⟨_, List.mem_append_right _ (List.mem_singleton.mpr rfl), now, timing.epsilonSecs, rfl, ?_⟩
  obtain ⟨c, present, evolved, _⟩ := confirmCarrier_lookup found
  by_cases live : now ≤ c.expiry
  · left
    have role : c.role = .spend := evolved.role.symm.trans spend
    have before : c.broadcast = false := evolved.unsettled unsettled
    have pending : PendingHot s now id c window :=
      ⟨present, evolved.hot.symm.trans hot, before, live, (evolved.hold role).symm.trans scheduled⟩
    exact (confirmed_fireAt_le timing crossing duress).2.trans (effectiveT_le_hold pending _ _)
  · right
    rw [evolved.expiry]
    omega

theorem holdsAccounted_step {ch : ChannelState} {s : PartialStore} {op : StoreOp} {ops : List StoreOp}
    (armed : s.armed.active = true) (accounted : HoldsAccounted s ops) :
    HoldsAccounted (storeStep ch s op).1 (ops ++ [op]) := by
  intro id later window found hot spend unsettled scheduled
  rcases storeStep_lookup found with ⟨c, present, evolved, _⟩ |
    ⟨absent, requests, arm, hotReserve, monoNow, rfl, request, asked, fresh, named⟩
  · have role : c.role = .spend := evolved.role.symm.trans spend
    have before : c.broadcast = false := evolved.unsettled unsettled
    rw [evolved.expiry]
    exact (accounted id c window present (evolved.hot.symm.trans hot) role before
      ((evolved.hold role).symm.trans scheduled)).shrink ((advances_step ch s op).fireAt armed) op
  · refine ⟨_, List.mem_append_right _ (List.mem_singleton.mpr rfl), arm.now, arm.epsilonSecs, rfl, Or.inl ?_⟩
    have role : request.spec.role = .spend := fresh.role.symm.trans spend
    subst named
    apply registered_fireAt_le armed asked (fresh.hot.symm.trans hot) ((fresh.hold role).symm.trans scheduled)
      absent
    rw [found]
    exact Option.some_ne_none later

theorem storeAfter_holdsAccounted (ch : ChannelState) (config : StoreConfig) (ops : List StoreOp)
    (armed : (storeAfter ch config ops).armed.active = true) :
    HoldsAccounted (storeAfter ch config ops) ops := by
  induction ops using List.reverseRecOn with
  | nil => simp [storeAfter, initialStore, PartialStore.new] at armed
  | append_singleton ops op ih =>
    rw [storeAfter_snoc] at armed ⊢
    by_cases before : (storeAfter ch config ops).armed.active = true
    · exact holdsAccounted_step before (ih before)
    · exact holdsAccounted_of_arming ops (by simpa using before) armed

/-- The deadline over every run. An armed store was armed by a duress receipt; every duress receipt, and every
hot registration while armed, bounds `T` from its own step on; nothing raises `T`; and every hot spend still to
settle has its Hold accounted for. -/
theorem duress_deadline (ch : ChannelState) (config : StoreConfig) (ops : List StoreOp) :
    ((storeAfter ch config ops).armed.active = true →
        ∃ before after sender carrier threshold now timing monoNow intent,
          ops = before ++ .confirmCarrier sender carrier threshold now timing monoNow :: after ∧
            (storeAfter ch config before).armed.active = false ∧
            Crossing (storeAfter ch config before) sender carrier threshold now monoNow intent ∧
            intent.duress = true) ∧
      (∀ before after sender carrier threshold now timing monoNow intent,
        ops = before ++ .confirmCarrier sender carrier threshold now timing monoNow :: after →
        Crossing (storeAfter ch config before) sender carrier threshold now monoNow intent →
        intent.duress = true →
        (storeAfter ch config ops).armed.fireAt ≤ max now (intent.firstSeen + timing.duressDelaySecs) ∧
          ∀ id c window, PendingHot (storeAfter ch config before) now id c window →
            (storeAfter ch config ops).armed.fireAt ≤ max now (window.fireAt - timing.epsilonSecs)) ∧
      (∀ before after requests arm hotReserve monoNow request window,
        ops = before ++ .registerCandidates requests arm hotReserve monoNow :: after →
        (storeAfter ch config before).armed.active = true → request ∈ requests →
        request.spec.hot = true → request.spec.fire = some window →
        (storeAfter ch config before).candidates.lookup request.spec.commitmentId = none →
        (storeAfter ch config (before ++ [.registerCandidates requests arm hotReserve monoNow])).candidates.lookup
          request.spec.commitmentId ≠ none →
        (storeAfter ch config ops).armed.fireAt ≤ max arm.now (window.fireAt - arm.epsilonSecs)) ∧
      (∀ later, (storeAfter ch config ops).armed.active = true →
        (storeAfter ch config (ops ++ later)).armed.fireAt ≤ (storeAfter ch config ops).armed.fireAt) ∧
      ((storeAfter ch config ops).armed.active = true → HoldsAccounted (storeAfter ch config ops) ops) := by
  have split : ∀ {before after : List StoreOp} {op : StoreOp}, ops = before ++ op :: after →
      storeAfter ch config ops =
        exec (storeStep ch) (storeStep ch (storeAfter ch config before) op).1 after := by
    intro before after op same
    rw [same, storeAfter_append]
    rfl
  refine ⟨?_, ?_, ?_, ?_, storeAfter_holdsAccounted ch config ops⟩
  · intro armed
    obtain ⟨before, op, after, same, unarmed, arming⟩ :=
      (happenedSince_of_established (storeStep ch) (fun _ => True) (fun s => s.armed.active = true)
        (fun s op => s.armed.active = false ∧ (storeStep ch s op).1.armed.active = true)
        (fun _ _ _ => trivial) (fun s op _ unarmed armed => ⟨by simpa using unarmed, armed⟩) _ trivial
        (by simp [initialStore, PartialStore.new]) ops armed).happened
    obtain ⟨sender, carrier, threshold, now, timing, monoNow, intent, rfl, crossing, duress⟩ :=
      arms_of_step unarmed arming
    exact ⟨before, after, sender, carrier, threshold, now, timing, monoNow, intent, same, unarmed, crossing, duress⟩
  · intro before after sender carrier threshold now timing monoNow intent same crossing duress
    obtain ⟨active, bound⟩ := confirmed_fireAt_le timing crossing duress
    have kept : (storeAfter ch config ops).armed.fireAt ≤
        (storeAfter ch config before).effectiveT intent.firstSeen now timing := by
      rw [split same]
      exact ((advances_run ch _ after).fireAt active).trans bound
    refine ⟨kept.trans (effectiveT_le_delay _ _ _ _), ?_⟩
    intro id c window pending
    exact kept.trans (effectiveT_le_hold pending _ _)
  · intro before after requests arm hotReserve monoNow request window same active member hot scheduled absent
      present
    rw [storeAfter_snoc] at present
    have bound := registered_fireAt_le active member hot scheduled absent present
    rw [split same]
    exact ((advances_run ch _ after).fireAt ((advances_step ch _ _).active active)).trans bound
  · intro later active
    rw [storeAfter_append]
    exact (advances_run ch _ later).fireAt active

/-- In the sample federation the pending Hold at 100 puts `T` at 95. -/
theorem duress_deadline_sample :
    (storeAfter Sample.channel Sample.config (Sample.confirmedRun true)).armed.fireAt = 95 ∧
      HoldsAccounted (storeAfter Sample.channel Sample.config (Sample.confirmedRun true))
        (Sample.confirmedRun true) :=
  ⟨by decide,
    (duress_deadline Sample.channel Sample.config (Sample.confirmedRun true)).2.2.2.2 (by decide)⟩

end BtcPolicy.Channel
