import BtcPolicy.Channel.Evolution

/-! Arming. The overlay is armed only by a receipt that completes the holder set of a duress intent; once
armed it stays armed, `T` only shrinks, and the first live sweep keeps its slot. -/

namespace BtcPolicy.Channel
open FiniteMap Word Bitcoin HotLedger Runs PartialStore

/-! ### The overlay never steps back -/

/-- `after` is what the overlay `before` can have become. -/
structure Armed.Advances (before after : Armed) : Prop where
  active : before.active = true → after.active = true
  fireAt : before.active = true → after.fireAt ≤ before.fireAt
  sweepActive : before.sweepActive = true → after.sweepActive = true
  escape : before.sweepActive = true → after.escapeCommitmentId = before.escapeCommitmentId

theorem Armed.Advances.refl (armed : Armed) : armed.Advances armed :=
  ⟨id, fun _ => le_rfl, id, fun _ => rfl⟩

theorem Armed.Advances.of_same {before after : Armed} (same : after = before) : before.Advances after := by
  rw [same]
  exact Armed.Advances.refl before

theorem Armed.Advances.trans {a b c : Armed} (first : a.Advances b) (second : b.Advances c) :
    a.Advances c := by
  refine ⟨fun active => second.active (first.active active), ?_,
    fun sweep => second.sweepActive (first.sweepActive sweep), ?_⟩
  · intro active
    exact (second.fireAt (first.active active)).trans (first.fireAt active)
  · intro sweep
    exact (second.escape (first.sweepActive sweep)).trans (first.escape sweep)

theorem advances_writeSafetyOverlay (arm : Bool) (firstSeen now : Nat) (timing : DuressTiming)
    (s : PartialStore) : s.armed.Advances (s.writeSafetyOverlay arm firstSeen now timing).armed := by
  unfold writeSafetyOverlay
  refine ⟨fun active => by simp [active], ?_, id, fun _ => rfl⟩
  intro active
  simp only [active, if_true, Bool.true_and]
  split
  · exact min_le_left _ _
  · exact le_rfl

theorem advances_shrinkToHold (epsilon now : Nat) (armed : Armed) (hold : Nat) :
    armed.Advances (shrinkToHold epsilon now armed hold) := by
  refine ⟨id, ?_, id, fun _ => rfl⟩
  intro active
  simp only [shrinkToHold, active, if_true]
  exact min_le_left _ _

theorem advances_foldl_shrinkToHold (epsilon now : Nat) (holds : List Nat) (armed : Armed) :
    armed.Advances (holds.foldl (shrinkToHold epsilon now) armed) := by
  induction holds generalizing armed with
  | nil => exact Armed.Advances.refl armed
  | cons hold rest ih => exact (advances_shrinkToHold epsilon now armed hold).trans (ih _)

theorem advances_adoptSweep (arm : ArmDirective) (live : Bool) (armed : Armed) :
    armed.Advances (adoptSweep arm live armed) := by
  refine ⟨id, fun _ => le_rfl, ?_, ?_⟩
  · intro sweep
    simp [adoptSweep, sweep]
  · intro sweep
    simp [adoptSweep, sweep]

theorem advances_selectSweep (commitArm : Bool) (escape : String) (s : PartialStore) :
    s.armed.Advances (s.selectSweep commitArm escape).armed := by
  refine ⟨id, fun _ => le_rfl, ?_, ?_⟩
  · intro sweep
    simp [selectSweep, sweep]
  · intro sweep
    simp [selectSweep, sweep]

@[simp] theorem refreshEscapeWindow_armed (id : String) (s : PartialStore) :
    (s.refreshEscapeWindow id).armed = s.armed := by
  unfold refreshEscapeWindow
  split <;> rfl

theorem applyArmDirective_armed (arm : ArmDirective) (holds : List Nat) (s : PartialStore) :
    (s.applyArmDirective arm holds).armed =
      adoptSweep arm ((s.candidates.lookup arm.sweepEscape).any Candidate.holderQuorumReached)
        (holds.foldl (shrinkToHold arm.epsilonSecs arm.now) s.armed) := by
  simp [applyArmDirective]

theorem advances_applyArmDirective (arm : ArmDirective) (holds : List Nat) (s : PartialStore) :
    s.armed.Advances (s.applyArmDirective arm holds).armed := by
  rw [applyArmDirective_armed]
  exact (advances_foldl_shrinkToHold _ _ holds s.armed).trans (advances_adoptSweep _ _ _)

/-- Only the overlay write and the sweep selection of a committing receipt touch the overlay. -/
theorem confirmed_armed (carrier : String) (intent : ArmIntent) (now : Nat) (timing : DuressTiming)
    (s : PartialStore) :
    (applyWrites (confirmWrites carrier intent now timing) s).armed =
      (((s.markCommitted carrier).writeSafetyOverlay intent.duress intent.firstSeen now timing).selectSweep
        intent.duress intent.escapeCommitmentId).armed := by
  simp only [applyWrites, confirmWrites, List.foldl_cons, List.foldl_nil]
  simp only [retireCarrier, refreshEscapeWindow_armed]
  rfl

theorem advances_confirmCarrier (s : PartialStore) (sender : Nat) (carrier : String) (threshold now : Nat)
    (timing : DuressTiming) (monoNow : Nat) :
    s.armed.Advances (s.confirmCarrier sender carrier threshold now timing monoNow).1.armed := by
  obtain ⟨_, same | same⟩ | ⟨intent, _, same⟩ :=
    confirmCarrier_cases s sender carrier threshold now timing monoNow
  · rw [same]
    exact Armed.Advances.refl s.armed
  · rw [same]
    exact Armed.Advances.refl s.armed
  · rw [same, confirmed_armed]
    have overlay := advances_writeSafetyOverlay intent.duress intent.firstSeen now timing
      ((s.addHolder sender carrier).markCommitted carrier)
    exact overlay.trans (advances_selectSweep _ _ _)

theorem registerAll_armed (candidates : List Candidate) (s : PartialStore) :
    (s.registerAll candidates).1.armed = s.armed := by
  induction candidates generalizing s with
  | nil => rfl
  | cons c rest ih =>
    have first : (s.register c).1.armed = s.armed := by
      unfold register
      split
      · split_ifs <;> rfl
      · split_ifs <;> rfl
    exact (ih (s.register c).1).trans first

theorem revalidate_armed (s : PartialStore) (hotReserve : Option HotReserveSpec) (monoNow : Nat) :
    (s.revalidate hotReserve monoNow).1.armed = s.armed := by
  cases hotReserve <;> rfl

theorem unwindReserve_armed (created : Bool) (hotReserve : Option HotReserveSpec) (s : PartialStore) :
    (s.unwindReserve created hotReserve).armed = s.armed := by
  unfold unwindReserve
  split
  · split_ifs <;> rfl
  · rfl

theorem enroll_armed (arm : ArmDirective) (candidates : List Candidate) (s : PartialStore) :
    (s.enroll arm candidates).1.armed =
      ((s.registerAll candidates).1.applyArmDirective arm (hotHolds candidates)).armed := rfl

theorem advances_registerCandidates (ch : ChannelState) (s : PartialStore) (candidates : List Candidate)
    (arm : ArmDirective) (hotReserve : Option HotReserveSpec) (monoNow : Nat) :
    s.armed.Advances (registerCandidates ch s candidates arm hotReserve monoNow).1.armed := by
  obtain ⟨_, _, same⟩ | ⟨_, _, _, same⟩ | ⟨_, _, same⟩ :=
    registerCandidates_cases ch s candidates arm hotReserve monoNow
  · rw [same, revalidate_armed]
    exact Armed.Advances.refl s.armed
  · rw [same, unwindReserve_armed, revalidate_armed]
    exact Armed.Advances.refl s.armed
  · rw [same, enroll_armed]
    have directive := advances_applyArmDirective arm
      (hotHolds (candidates.map (fun c => c.reservePartialCapacity ch.nodes ch.nodeId)))
      ((s.revalidate hotReserve monoNow).1.registerAll
        (candidates.map (fun c => c.reservePartialCapacity ch.nodes ch.nodeId))).1
    rw [registerAll_armed, revalidate_armed] at directive
    exact directive

theorem recordArmIntent_armed (s : PartialStore) (duress : Bool) (carrier nonce : String)
    (generation : MemoGeneration) (firstSeen now : Nat) (timing : DuressTiming) :
    (s.recordArmIntent duress carrier nonce generation firstSeen now timing).1.armed =
      (s.writeSafetyOverlay false firstSeen now timing).armed := by
  unfold recordArmIntent upgradeMemo
  simp only
  split
  · split_ifs <;> rfl
  · rfl

theorem advances_step (ch : ChannelState) (s : PartialStore) (op : StoreOp) :
    s.armed.Advances (storeStep ch s op).1.armed := by
  by_cases quiet : op.quiet = true
  · exact Armed.Advances.of_same (sameCore_of_quiet ch s op quiet).armed
  by_cases only : op.registryOnly = true
  · exact Armed.Advances.of_same (sameSafety_of_registryOnly ch s op only).armed
  cases op with
  | recordArmIntent duress carrier nonce generation firstSeen now timing =>
    show s.armed.Advances (s.recordArmIntent duress carrier nonce generation firstSeen now timing).1.armed
    rw [recordArmIntent_armed]
    exact advances_writeSafetyOverlay false firstSeen now timing s
  | registerCandidates requests arm hotReserve monoNow =>
    simp only [storeStep]
    split
    · exact Armed.Advances.refl s.armed
    · exact advances_registerCandidates ch s _ arm hotReserve monoNow
  | applyCachedSchedule escape duress now epsilon => exact advances_applyArmDirective _ _ s
  | confirmCarrier sender carrier threshold now timing monoNow =>
    exact advances_confirmCarrier s sender carrier threshold now timing monoNow
  | pruneStore now monoNow => exact Armed.Advances.of_same rfl
  | _ => first | exact absurd rfl quiet | exact absurd rfl only

theorem advances_run (ch : ChannelState) (s : PartialStore) (ops : List StoreOp) :
    s.armed.Advances (exec (storeStep ch) s ops).armed := by
  induction ops generalizing s with
  | nil => exact Armed.Advances.refl s.armed
  | cons op rest ih => exact (advances_step ch s op).trans (ih _)

/-! ### Who holds a staged carrier -/

/-- A carrier staged for fan-out counts this node among its holders. -/
def SelfHolding (ch : ChannelState) (intents : Map String ArmIntent) : Prop :=
  Every (fun _ intent => intent.readyToPropagate = true → ch.nodeId ∈ intent.holders) intents

theorem selfHolding_retireCarrier {ch : ChannelState} {s : PartialStore} (holding : SelfHolding ch s.intents)
    (carrier : String) : SelfHolding ch (s.retireCarrier carrier).intents := holding.erase carrier

theorem selfHolding_addHolder {ch : ChannelState} {s : PartialStore} (holding : SelfHolding ch s.intents)
    (sender : Nat) (carrier : String) : SelfHolding ch (s.addHolder sender carrier).intents :=
  holding.adjust carrier _ (fun _ known ready => Finset.mem_insert_of_mem (known ready))

theorem confirmed_intents (carrier : String) (intent : ArmIntent) (now : Nat) (timing : DuressTiming)
    (s : PartialStore) :
    (applyWrites (confirmWrites carrier intent now timing) s).intents =
      (s.markCommitted carrier).intents.erase carrier := by
  have refreshed : ∀ (id : String) (s : PartialStore), (s.refreshEscapeWindow id).intents = s.intents := by
    intro id s
    unfold refreshEscapeWindow
    split <;> rfl
  simp only [applyWrites, confirmWrites, List.foldl_cons, List.foldl_nil]
  simp only [retireCarrier, refreshed]
  rfl

theorem selfHolding_confirmCarrier {ch : ChannelState} {s : PartialStore}
    (holding : SelfHolding ch s.intents) (sender : Nat) (carrier : String) (threshold now : Nat)
    (timing : DuressTiming) (monoNow : Nat) :
    SelfHolding ch (s.confirmCarrier sender carrier threshold now timing monoNow).1.intents := by
  obtain ⟨_, same | same⟩ | ⟨intent, _, same⟩ :=
    confirmCarrier_cases s sender carrier threshold now timing monoNow
  · rw [same]
    exact holding
  · rw [same]
    exact selfHolding_addHolder holding sender carrier
  · rw [same, confirmed_intents]
    have committed : SelfHolding ch ((s.addHolder sender carrier).markCommitted carrier).intents :=
      (selfHolding_addHolder holding sender carrier).adjust carrier _ (fun _ known => known)
    exact committed.erase carrier

theorem selfHolding_recordArmIntent {ch : ChannelState} {s : PartialStore}
    (holding : SelfHolding ch s.intents) (duress : Bool) (carrier nonce : String)
    (generation : MemoGeneration) (firstSeen now : Nat) (timing : DuressTiming) :
    SelfHolding ch (s.recordArmIntent duress carrier nonce generation firstSeen now timing).1.intents := by
  have recorded : SelfHolding ch
      ((s.writeSafetyOverlay false firstSeen now timing).recordIntent duress carrier generation
        firstSeen).intents := by
    apply Every.insert holding
    intro ready
    cases found : s.intents.lookup carrier with
    | none => simp [writeSafetyOverlay, found, freshIntent] at ready
    | some intent =>
      simp only [writeSafetyOverlay, found, Option.getD_some] at ready ⊢
      exact holding carrier intent found ready
  unfold recordArmIntent upgradeMemo
  simp only
  split
  · split_ifs <;> exact recorded
  · exact recorded

theorem selfHolding_endCarrierRuling {ch : ChannelState} {s : PartialStore}
    (holding : SelfHolding ch s.intents) (carrier : String) (monoNow : Nat) :
    SelfHolding ch (s.endCarrierRuling carrier monoNow).intents := by
  have ended : SelfHolding ch
      (s.updateIntent carrier (fun intent => { intent with ownerRuling := false })).intents :=
    holding.adjust carrier _ (fun _ known => known)
  unfold endCarrierRuling
  simp only
  split
  · split_ifs
    · exact selfHolding_retireCarrier ended carrier
    · exact ended
  · exact holding

theorem selfHolding_attachPair {ch : ChannelState} {s : PartialStore} (holding : SelfHolding ch s.intents)
    (carrier spend escape : String) : SelfHolding ch (s.attachPair carrier spend escape).intents :=
  holding.adjust carrier _ (fun _ known => known)

theorem registerAll_intents (candidates : List Candidate) (s : PartialStore) :
    (s.registerAll candidates).1.intents = s.intents := by
  induction candidates generalizing s with
  | nil => rfl
  | cons c rest ih =>
    have first : (s.register c).1.intents = s.intents := by
      unfold register
      split
      · split_ifs <;> rfl
      · split_ifs <;> rfl
    exact (ih (s.register c).1).trans first

theorem applyArmDirective_intents (arm : ArmDirective) (holds : List Nat) (s : PartialStore) :
    (s.applyArmDirective arm holds).intents = s.intents := by
  unfold applyArmDirective refreshEscapeWindow
  simp only
  split_ifs <;> rfl

/-- Registration changes the intents only where it attaches the pair. -/
theorem registerCandidates_intents (ch : ChannelState) (s : PartialStore) (candidates : List Candidate)
    (arm : ArmDirective) (hotReserve : Option HotReserveSpec) (monoNow : Nat) :
    (registerCandidates ch s candidates arm hotReserve monoNow).1.intents = s.intents ∨
      (registerCandidates ch s candidates arm hotReserve monoNow).1.intents =
        (s.attachPair arm.carrier arm.spendCommitmentId arm.sweepEscape).intents := by
  have revalidated : (s.revalidate hotReserve monoNow).1.intents = s.intents := by
    cases hotReserve <;> rfl
  obtain ⟨_, _, same⟩ | ⟨_, _, _, same⟩ | ⟨_, _, same⟩ :=
    registerCandidates_cases ch s candidates arm hotReserve monoNow
  · rw [same]
    exact Or.inl revalidated
  · refine Or.inl ?_
    rw [same]
    unfold unwindReserve
    split
    · split_ifs <;> exact revalidated
    · exact revalidated
  · refine Or.inr ?_
    rw [same]
    simp only [enroll, attachPair, updateIntent, applyArmDirective_intents, registerAll_intents, revalidated]

theorem selfHolding_step (ch : ChannelState) (s : PartialStore) (op : StoreOp)
    (holding : SelfHolding ch s.intents) : SelfHolding ch (storeStep ch s op).1.intents := by
  by_cases only : op.registryOnly = true
  · rw [(sameSafety_of_registryOnly ch s op only).intents]
    exact holding
  have ofMemos : ∀ {after : PartialStore}, MemoOnly s after → SelfHolding ch after.intents := by
    intro after memos
    rw [memos.intents]
    exact holding
  cases op with
  | claimNonceInFlight nonce generation monoNow => exact holding.retain _
  | releaseNonceClaim nonce generation => exact ofMemos (memoOnly_releaseNonceClaim s nonce generation)
  | recordArmIntent duress carrier nonce generation firstSeen now timing =>
    exact selfHolding_recordArmIntent holding duress carrier nonce generation firstSeen now timing
  | endCarrierRuling carrier monoNow => exact selfHolding_endCarrierRuling holding carrier monoNow
  | markCarrierPropagated carrier =>
    exact holding.adjust carrier _ (fun _ _ _ => Finset.mem_insert_self _ _)
  | outerStaleCarrier nonce tag expiry deadline sender now step monoNow =>
    exact ofMemos (memoOnly_outerStaleCarrier ch s nonce tag expiry deadline sender now step monoNow)
  | claimCarrierDerivation nonce sender carrier =>
    exact ofMemos (memoOnly_claimCarrierDerivation s nonce sender carrier)
  | recordCarrierDerivationResult nonce sender tag generation carrier =>
    exact ofMemos (memoOnly_recordCarrierDerivationResult s nonce sender tag generation carrier)
  | recordIntentPair carrier spend escape => exact selfHolding_attachPair holding carrier spend escape
  | registerCandidates requests arm hotReserve monoNow =>
    simp only [storeStep]
    split
    · exact holding
    next candidates _ =>
      rcases registerCandidates_intents ch s candidates arm hotReserve monoNow with same | same
      · rw [same]
        exact holding
      · rw [same]
        exact selfHolding_attachPair holding _ _ _
  | applyCachedSchedule escape duress now epsilon =>
    simp only [storeStep, applyCachedSchedule, applyArmDirective, refreshEscapeWindow]
    split_ifs <;> exact holding
  | confirmCarrier sender carrier threshold now timing monoNow =>
    exact selfHolding_confirmCarrier holding sender carrier threshold now timing monoNow
  | pruneStore now monoNow => exact holding.retain _
  | carrierMemoLookup => exact holding
  | dueForFire => exact holding
  | fireSettlementPollable => exact holding
  | tryFinalize => exact holding
  | withBroadcastAuthorization => exact holding
  | lockdownDue => exact holding
  | _ => exact absurd rfl only

/-! ### Arm safety -/

/-- `op` is a receipt that completes a duress intent's holder set before both of its clocks run out. -/
def ArmingReceipt (ch : ChannelState) (s : PartialStore) (op : StoreOp) : Prop :=
  ∃ sender carrier threshold now timing monoNow intent,
    op = .confirmCarrier sender carrier threshold now timing monoNow ∧
      s.intents.lookup carrier = some intent ∧ intent.duress = true ∧
      threshold ≤ (insert sender intent.holders).card ∧ ch.nodeId ∈ insert sender intent.holders ∧
      now < intent.expiry ∧ monoNow < intent.deadline

theorem active_of_foldl_shrinkToHold (epsilon now : Nat) (holds : List Nat) (armed : Armed) :
    (holds.foldl (shrinkToHold epsilon now) armed).active = armed.active := by
  induction holds generalizing armed with
  | nil => rfl
  | cons hold rest ih => exact ih _

theorem applyArmDirective_active (arm : ArmDirective) (holds : List Nat) (s : PartialStore) :
    (s.applyArmDirective arm holds).armed.active = s.armed.active := by
  rw [applyArmDirective_armed]
  exact active_of_foldl_shrinkToHold _ _ holds s.armed

theorem registerCandidates_active (ch : ChannelState) (s : PartialStore) (candidates : List Candidate)
    (arm : ArmDirective) (hotReserve : Option HotReserveSpec) (monoNow : Nat) :
    (registerCandidates ch s candidates arm hotReserve monoNow).1.armed.active = s.armed.active := by
  obtain ⟨_, _, same⟩ | ⟨_, _, _, same⟩ | ⟨_, _, same⟩ :=
    registerCandidates_cases ch s candidates arm hotReserve monoNow
  · rw [same, revalidate_armed]
  · rw [same, unwindReserve_armed, revalidate_armed]
  · rw [same, enroll_armed, applyArmDirective_active, registerAll_armed, revalidate_armed]

/-- The one step that can set the arm bit. -/
theorem arms_of_step {ch : ChannelState} {s : PartialStore} {op : StoreOp}
    (unarmed : s.armed.active = false) (armed : (storeStep ch s op).1.armed.active = true) :
    ∃ sender carrier threshold now timing monoNow intent,
      op = .confirmCarrier sender carrier threshold now timing monoNow ∧
        Crossing s sender carrier threshold now monoNow intent ∧ intent.duress = true := by
  have unchanged : (storeStep ch s op).1.armed.active ≠ s.armed.active := by
    rw [armed, unarmed]
    decide
  by_cases quiet : op.quiet = true
  · exact absurd (congrArg Armed.active (sameCore_of_quiet ch s op quiet).armed) unchanged
  by_cases only : op.registryOnly = true
  · exact absurd (congrArg Armed.active (sameSafety_of_registryOnly ch s op only).armed) unchanged
  cases op with
  | recordArmIntent duress carrier nonce generation firstSeen now timing =>
    refine absurd ?_ unchanged
    show (s.recordArmIntent duress carrier nonce generation firstSeen now timing).1.armed.active = _
    rw [recordArmIntent_armed]
    simp [writeSafetyOverlay]
  | registerCandidates requests arm hotReserve monoNow =>
    refine absurd ?_ unchanged
    simp only [storeStep]
    split
    · rfl
    · exact registerCandidates_active ch s _ arm hotReserve monoNow
  | applyCachedSchedule escape duress now epsilon => exact absurd (applyArmDirective_active _ _ s) unchanged
  | pruneStore now monoNow => exact absurd rfl unchanged
  | confirmCarrier sender carrier threshold now timing monoNow =>
    obtain ⟨_, same | same⟩ | ⟨intent, crossing, same⟩ :=
      confirmCarrier_cases s sender carrier threshold now timing monoNow
    · exact absurd (congrArg (fun s => s.armed.active) same) unchanged
    · exact absurd (congrArg (fun s => s.armed.active) same) unchanged
    · refine ⟨sender, carrier, threshold, now, timing, monoNow, intent, rfl, crossing, ?_⟩
      simp only [storeStep, same, confirmed_armed] at armed
      have bit : (s.armed.active || intent.duress) = true := armed
      simpa [unarmed] using bit
  | _ => first | exact absurd rfl quiet | exact absurd rfl only

/-- Over every run from the initial store: the node is armed only by a receipt that completed the holder set
of a duress intent in time, and once armed, or once a sweep is live, it stays so with the same slot and a
`T` that only shrinks. -/
theorem arm_safety (ch : ChannelState) (config : StoreConfig) (ops : List StoreOp) :
    ((storeAfter ch config ops).armed.active = true →
        Happened (storeStep ch) (ArmingReceipt ch) (initialStore config) ops) ∧
      (∀ later, (storeAfter ch config ops).armed.active = true →
        (storeAfter ch config (ops ++ later)).armed.active = true ∧
          (storeAfter ch config (ops ++ later)).armed.fireAt ≤ (storeAfter ch config ops).armed.fireAt) ∧
      ∀ later, (storeAfter ch config ops).armed.sweepActive = true →
        (storeAfter ch config (ops ++ later)).armed.sweepActive = true ∧
          (storeAfter ch config (ops ++ later)).armed.escapeCommitmentId =
            (storeAfter ch config ops).armed.escapeCommitmentId := by
  have advances : ∀ later, (storeAfter ch config ops).armed.Advances
      (storeAfter ch config (ops ++ later)).armed := by
    intro later
    simp only [storeAfter, exec_append]
    exact advances_run ch _ later
  refine ⟨?_, fun later active => ⟨(advances later).active active, (advances later).fireAt active⟩,
    fun later sweep => ⟨(advances later).sweepActive sweep, (advances later).escape sweep⟩⟩
  intro armed
  apply HappenedSince.happened (storeStep ch)
  refine happenedSince_of_established (storeStep ch) (fun s => SelfHolding ch s.intents)
    (fun s => s.armed.active = true) (ArmingReceipt ch) (selfHolding_step ch) ?_ _ ?_ ?_ ops
    armed
  · intro s op holding unarmed armed
    obtain ⟨sender, carrier, threshold, now, timing, monoNow, intent, same, crossing, duress⟩ :=
      arms_of_step (by simpa using unarmed) armed
    have own : ch.nodeId ∈ intent.holders := holding carrier intent crossing.found crossing.ready
    exact ⟨sender, carrier, threshold, now, timing, monoNow, intent, same, crossing.found, duress,
      crossing.holders, Finset.mem_insert_of_mem own, crossing.expiry, crossing.deadline⟩
  · exact Every.empty _
  · simp [initialStore, PartialStore.new]

/-- The duress request of the sample federation arms it. -/
theorem arm_safety_sample :
    (storeAfter Sample.channel Sample.config (Sample.confirmedRun true)).armed.active = true ∧
      Happened (storeStep Sample.channel) (ArmingReceipt Sample.channel) (initialStore Sample.config)
        (Sample.confirmedRun true) :=
  ⟨by decide, (arm_safety Sample.channel Sample.config (Sample.confirmedRun true)).1 (by decide +kernel)⟩

end BtcPolicy.Channel
