import BtcPolicy.Channel.Evolution

/-! The store with everything the pin decides taken out: the overlay is idle, no intent carries a verdict, and no
escape has a delayed window. An operation that does not read what is taken out does the same to the store and
to its hushed image. -/

namespace BtcPolicy.Channel
open FiniteMap Word Bitcoin HotLedger Runs PartialStore

def Candidate.hush (c : Candidate) : Candidate := { c with fire := if c.role = .escape then none else c.fire }

def ArmIntent.hush (intent : ArmIntent) : ArmIntent := { intent with duress := false }

/-- The overlay a store starts with. -/
def Armed.idle : Armed := ⟨false, 0, "", false, 0⟩

def PartialStore.hush (s : PartialStore) : PartialStore :=
  { s with
    candidates := mapVals Candidate.hush s.candidates
    armed := Armed.idle
    intents := mapVals ArmIntent.hush s.intents }

/-- The operation with the verdict `duress` in place of its own, where it takes one. -/
def StoreOp.withDuress (duress : Bool) : StoreOp → StoreOp
  | .recordArmIntent _ carrier nonce generation firstSeen now timing =>
    .recordArmIntent duress carrier nonce generation firstSeen now timing
  | .registerCandidates requests arm hotReserve monoNow =>
    .registerCandidates requests { arm with duress := duress } hotReserve monoNow
  | .applyCachedSchedule escape _ now epsilon => .applyCachedSchedule escape duress now epsilon
  | op => op

/-- The reply without the verdict of a receipt, and without the replies of the settlement poll, of the final
broadcast steps and of the lockdown timer. -/
def StoreReply.observed : StoreReply → StoreReply
  | .confirmation result => .confirmation { result with armed := false }
  | .flag _ => .done
  | .finalized _ => .done
  | .authorized _ => .done
  | reply => reply

section Fields

variable (c : Candidate) (s : PartialStore)

@[simp] theorem hush_commitmentId : c.hush.commitmentId = c.commitmentId := rfl

@[simp] theorem hush_capacityBytes : c.hush.capacityBytes = c.capacityBytes := rfl

@[simp] theorem hush_reservedBytes : s.hush.reservedBytes = s.reservedBytes := rfl

@[simp] theorem hush_maxActiveCandidates : s.hush.maxActiveCandidates = s.maxActiveCandidates := rfl

@[simp] theorem hush_maxBytes : s.hush.maxBytes = s.maxBytes := rfl

@[simp] theorem hush_hotBudget : s.hush.hotBudget = s.hotBudget := rfl

@[simp] theorem hush_carriersByNonce : s.hush.carriersByNonce = s.carriersByNonce := rfl

@[simp] theorem hush_size : size s.hush.candidates = size s.candidates := size_mapVals _ _

end Fields

/-- What hushing does not change is equal in candidates of one image. -/
theorem of_image {α : Type} {f : Candidate → α} (blind : ∀ c : Candidate, f c.hush = f c) {c d : Candidate}
    (same : c.hush = d.hush) : f c = f d := by
  rw [← blind c, same, blind d]

/-- So are the fields of two intents of one image, their verdicts apart. -/
theorem intent_of_image {α : Type} {f : ArmIntent → α} (blind : ∀ intent : ArmIntent, f intent.hush = f intent)
    {intent other : ArmIntent} (same : intent.hush = other.hush) : f intent = f other := by
  rw [← blind intent, same, blind other]

/-! ### Elementary writes -/

theorem hush_escape {c : Candidate} (escape : c.role = .escape) : c.hush = { c with fire := none } := by
  simp [Candidate.hush, escape]

theorem hush_spend {c : Candidate} (spend : c.role ≠ .escape) : c.hush = c := by
  simp [Candidate.hush, spend]

@[simp] theorem candidate_hush_hush (c : Candidate) : c.hush.hush = c.hush := by
  by_cases escape : c.role = .escape
  · simp [Candidate.hush, escape]
  · rw [hush_spend escape, hush_spend escape]

@[simp] theorem intent_hush_hush (intent : ArmIntent) : intent.hush.hush = intent.hush := rfl

@[simp] theorem hush_hush (s : PartialStore) : s.hush.hush = s.hush := by
  simp [PartialStore.hush]

theorem hush_lookup (s : PartialStore) (id : String) :
    s.hush.candidates.lookup id = (s.candidates.lookup id).map Candidate.hush := lookup_mapVals _ _ _

theorem hush_intent (s : PartialStore) (carrier : String) :
    s.hush.intents.lookup carrier = (s.intents.lookup carrier).map ArmIntent.hush := lookup_mapVals _ _ _

theorem hush_candidates_eq {s t : PartialStore} (same : s.hush = t.hush) :
    mapVals Candidate.hush s.candidates = mapVals Candidate.hush t.candidates :=
  congrArg PartialStore.candidates same

/-- What one store holds, a store of the same image holds up to its window. -/
theorem twin_lookup {s t : PartialStore} (same : s.hush = t.hush) {id : String} {c : Candidate}
    (found : s.candidates.lookup id = some c) : ∃ d, t.candidates.lookup id = some d ∧ d.hush = c.hush :=
  lookup_of_mapVals_eq (hush_candidates_eq same) found

theorem hush_updateCandidate {f : Candidate → Candidate} (same : ∀ c, (f c).hush = f c.hush)
    (s : PartialStore) (id : String) : (s.updateCandidate id f).hush = s.hush.updateCandidate id f := by
  simp only [PartialStore.hush, updateCandidate, mapVals_adjust same]

theorem hush_updateIntent {f : ArmIntent → ArmIntent} (same : ∀ intent, (f intent).hush = f intent.hush)
    (s : PartialStore) (carrier : String) : (s.updateIntent carrier f).hush = s.hush.updateIntent carrier f := by
  simp only [PartialStore.hush, updateIntent, mapVals_adjust same]

theorem hush_reschedule (window : FireWindow) (c : Candidate) : (reschedule window c).hush = c.hush := by
  unfold reschedule
  split
  next escape => simp [Candidate.hush, escape]
  next => rfl

@[simp] theorem hush_refreshEscapeWindow (id : String) (s : PartialStore) :
    (s.refreshEscapeWindow id).hush = s.hush := by
  unfold refreshEscapeWindow
  split
  · rfl
  · simp only [PartialStore.hush, updateCandidate, mapVals_adjust_forget (hush_reschedule _)]

@[simp] theorem hush_applyArmDirective (arm : ArmDirective) (holds : List Nat) (s : PartialStore) :
    (s.applyArmDirective arm holds).hush = s.hush := by
  unfold applyArmDirective
  simp only [hush_refreshEscapeWindow]
  rfl

@[simp] theorem hush_writeSafetyOverlay (arm : Bool) (firstSeen now : Nat) (timing : DuressTiming)
    (s : PartialStore) : (s.writeSafetyOverlay arm firstSeen now timing).hush = s.hush := rfl

@[simp] theorem hush_selectSweep (commitArm : Bool) (escape : String) (s : PartialStore) :
    (s.selectSweep commitArm escape).hush = s.hush := rfl

@[simp] theorem hush_openGate (id : String) (s : PartialStore) : (s.openGate id).hush = s.hush.openGate id := by
  unfold openGate
  apply hush_updateCandidate
  intro c
  rfl

@[simp] theorem hush_setBroadcast (id : String) (s : PartialStore) :
    (s.setBroadcast id).hush = s.hush.setBroadcast id := by
  unfold setBroadcast
  apply hush_updateCandidate
  intro c
  rfl

@[simp] theorem hush_addHolder (sender : Nat) (carrier : String) (s : PartialStore) :
    (s.addHolder sender carrier).hush = s.hush.addHolder sender carrier := by
  unfold addHolder
  apply hush_updateIntent
  intro intent
  rfl

@[simp] theorem hush_markCommitted (carrier : String) (s : PartialStore) :
    (s.markCommitted carrier).hush = s.hush.markCommitted carrier := by
  unfold markCommitted
  apply hush_updateIntent
  intro intent
  rfl

@[simp] theorem hush_attachPair (carrier spend escape : String) (s : PartialStore) :
    (s.attachPair carrier spend escape).hush = s.hush.attachPair carrier spend escape := by
  unfold attachPair
  apply hush_updateIntent
  intro intent
  rfl

@[simp] theorem hush_retireCarrier (s : PartialStore) (carrier : String) :
    (s.retireCarrier carrier).hush = s.hush.retireCarrier carrier := by
  simp [PartialStore.hush, retireCarrier]

theorem hush_ownerStillRuling (intents : Map String ArmIntent) (memo : CarrierMemo) :
    ownerStillRuling (mapVals ArmIntent.hush intents) memo = ownerStillRuling intents memo := by
  unfold ownerStillRuling
  cases memo.outcome with
  | inFlight tag => rfl
  | derived carrier tag resolved =>
    simp only [lookup_mapVals]
    cases intents.lookup carrier <;> rfl

@[simp] theorem hush_pruneCarriers (s : PartialStore) (monoNow : Nat) :
    (s.pruneCarriers monoNow).hush = s.hush.pruneCarriers monoNow := by
  have kept : ∀ intents : Map String ArmIntent,
      mapVals ArmIntent.hush (retain (fun _ intent => decide (monoNow < intent.deadline) || intent.ownerRuling)
        intents) =
      retain (fun _ intent => decide (monoNow < intent.deadline) || intent.ownerRuling)
        (mapVals ArmIntent.hush intents) := fun _ => mapVals_retain (fun _ _ => rfl)
  simp only [PartialStore.hush, pruneCarriers]
  rw [← kept]
  simp only [hush_ownerStillRuling]

/-! ### Carriers -/

theorem hush_any {p : ArmIntent → Bool} (same : ∀ intent, p intent.hush = p intent) (s : PartialStore)
    (carrier : String) : (s.hush.intents.lookup carrier).any p = (s.intents.lookup carrier).any p := by
  rw [hush_intent]
  cases s.intents.lookup carrier with
  | none => rfl
  | some intent => exact same intent

@[simp] theorem hush_claimNonceInFlight (s : PartialStore) (nonce : String) (generation : MemoGeneration)
    (monoNow : Nat) :
    (s.claimNonceInFlight nonce generation monoNow).hush = s.hush.claimNonceInFlight nonce generation monoNow := by
  unfold claimNonceInFlight
  simp only [← hush_pruneCarriers]
  rfl

@[simp] theorem hush_releaseNonceClaim (s : PartialStore) (nonce : String) (generation : MemoGeneration) :
    (s.releaseNonceClaim nonce generation).hush = s.hush.releaseNonceClaim nonce generation := by
  unfold releaseNonceClaim
  rw [apply_ite PartialStore.hush]
  rfl

@[simp] theorem hush_endCarrierRuling (s : PartialStore) (carrier : String) (monoNow : Nat) :
    (s.endCarrierRuling carrier monoNow).hush = s.hush.endCarrierRuling carrier monoNow := by
  have ended : (s.updateIntent carrier (fun intent => { intent with ownerRuling := false })).hush =
      s.hush.updateIntent carrier (fun intent => { intent with ownerRuling := false }) := by
    apply hush_updateIntent
    intro intent
    rfl
  unfold endCarrierRuling
  simp only [hush_intent]
  cases s.intents.lookup carrier with
  | none => rfl
  | some intent =>
    simp only [Option.map_some, ArmIntent.hush]
    split_ifs
    · rw [hush_retireCarrier, ended]
    · exact ended

@[simp] theorem hush_markCarrierPropagated (ch : ChannelState) (s : PartialStore) (carrier : String) :
    (s.markCarrierPropagated ch carrier).hush = s.hush.markCarrierPropagated ch carrier := by
  unfold markCarrierPropagated
  apply hush_updateIntent
  intro intent
  rfl

@[simp] theorem hush_resolveSignature (nonce : String) (sender : Nat) (tag : Bytes) (s : PartialStore) :
    (s.resolveSignature nonce sender tag).hush = s.hush.resolveSignature nonce sender tag := rfl

@[simp] theorem hush_carrierMemoLookup (ch : ChannelState) (s : PartialStore) (nonce : String) (tag : Bytes)
    (requestExpiry sender now monoNow : Nat) :
    s.hush.carrierMemoLookup ch nonce tag requestExpiry sender now monoNow =
      s.carrierMemoLookup ch nonce tag requestExpiry sender now monoNow := by
  have retry : ∀ carrier, s.hush.rawExpiredRetry carrier sender = s.rawExpiredRetry carrier sender := by
    intro carrier
    unfold rawExpiredRetry
    rw [hush_intent]
    cases s.intents.lookup carrier <;> rfl
  have ruling : ∀ carrier, (s.hush.intents.lookup carrier).any
      (fun intent => intent.ownerRuling && !intent.readyToPropagate) =
        (s.intents.lookup carrier).any (fun intent => intent.ownerRuling && !intent.readyToPropagate) := by
    intro carrier
    apply hush_any
    intro intent
    rfl
  have counted : ∀ carrier, (s.hush.intents.lookup carrier).any
      (fun intent => intent.committed || decide (sender ∈ intent.holders)) =
        (s.intents.lookup carrier).any (fun intent => intent.committed || decide (sender ∈ intent.holders)) := by
    intro carrier
    apply hush_any
    intro intent
    rfl
  unfold carrierMemoLookup derivedLookup
  simp only [hush_carriersByNonce, retry, ruling, counted]

@[simp] theorem hush_outerStaleVerdict (s : PartialStore) (nonce carrier : String) (generation : MemoGeneration)
    (resolved : Option Bytes) (tag claimTag : Bytes) (sender now : Nat) (step : OuterStaleStep)
    (finished : Option Bool) :
    s.hush.outerStaleVerdict nonce carrier generation resolved tag claimTag sender now step finished =
      ((s.outerStaleVerdict nonce carrier generation resolved tag claimTag sender now step finished).1.hush,
        (s.outerStaleVerdict nonce carrier generation resolved tag claimTag sender now step finished).2) := by
  unfold outerStaleVerdict
  rw [hush_intent]
  cases s.intents.lookup carrier with
  | none => split_ifs <;> rfl
  | some intent =>
    simp only [Option.map_some, ArmIntent.hush]
    cases step with
    | inspect claim => cases claim <;> simp only <;> split_ifs <;> rfl
    | finish memoized claimed matched => simp only; split_ifs <;> rfl

@[simp] theorem hush_outerStaleCarrier (ch : ChannelState) (s : PartialStore) (nonce : String) (tag : Bytes)
    (expiry deadline sender now : Nat) (step : OuterStaleStep) (monoNow : Nat) :
    s.hush.outerStaleCarrier ch nonce tag expiry deadline sender now step monoNow =
      ((s.outerStaleCarrier ch nonce tag expiry deadline sender now step monoNow).1.hush,
        (s.outerStaleCarrier ch nonce tag expiry deadline sender now step monoNow).2) := by
  unfold outerStaleCarrier
  simp only [hush_carriersByNonce]
  cases s.carriersByNonce.lookup nonce with
  | none => rfl
  | some memo =>
    by_cases other : deadline ≤ monoNow ∨ (memo.expiry, memo.deadline) ≠ (expiry, deadline)
    · simp only [if_pos other]
    · simp only [if_neg other]
      cases memo.outcome with
      | inFlight claimed => rfl
      | derived carrier remembered resolved =>
        simp only
        cases finishedStep step carrier ⟨remembered, memo.expiry, memo.deadline⟩ (resolved.lookup sender)
            (ch.lib.taggedHash outerStaleClaimTag tag) with
        | none => exact hush_outerStaleVerdict _ _ _ _ _ _ _ _ _ _ _
        | some matched =>
          simp only [← hush_resolveSignature]
          exact hush_outerStaleVerdict _ _ _ _ _ _ _ _ _ _ _

@[simp] theorem hush_claimCarrierDerivation (s : PartialStore) (nonce : String) (sender : Nat)
    (carrier : String) :
    s.hush.claimCarrierDerivation nonce sender carrier =
      ((s.claimCarrierDerivation nonce sender carrier).1.hush,
        (s.claimCarrierDerivation nonce sender carrier).2) := by
  unfold claimCarrierDerivation
  rw [hush_any]
  swap
  · intro intent
    rfl
  simp only [hush_carriersByNonce]
  split_ifs
  · cases s.carriersByNonce.lookup nonce with
    | none => rfl
    | some memo =>
      simp only
      cases memo.outcome with
      | inFlight tag => rfl
      | derived named tag resolved => simp only; split_ifs <;> rfl
  · rfl

@[simp] theorem hush_recordCarrierDerivationResult (s : PartialStore) (nonce : String) (sender : Nat)
    (tag : Bytes) (generation : MemoGeneration) (carrier : String) :
    s.hush.recordCarrierDerivationResult nonce sender tag generation carrier =
      ((s.recordCarrierDerivationResult nonce sender tag generation carrier).1.hush,
        (s.recordCarrierDerivationResult nonce sender tag generation carrier).2) := by
  unfold recordCarrierDerivationResult
  simp only [hush_carriersByNonce]
  cases s.carriersByNonce.lookup nonce with
  | none => rfl
  | some memo =>
    simp only
    cases memo.outcome with
    | inFlight claimed => rfl
    | derived named remembered resolved => simp only; split_ifs <;> rfl

theorem hush_recordIntent (duress : Bool) (carrier : String) (generation : MemoGeneration) (firstSeen : Nat)
    (s : PartialStore) :
    (s.recordIntent duress carrier generation firstSeen).hush =
      s.hush.recordIntent false carrier generation firstSeen := by
  simp only [recordIntent, PartialStore.hush, mapVals_insert, lookup_mapVals]
  cases s.intents.lookup carrier <;> rfl

theorem hush_upgradeMemo (carrier nonce : String) (generation : MemoGeneration) (s : PartialStore) :
    s.hush.upgradeMemo carrier nonce generation =
      ((s.upgradeMemo carrier nonce generation).1.hush, (s.upgradeMemo carrier nonce generation).2) := by
  unfold upgradeMemo
  simp only [hush_carriersByNonce]
  cases s.carriersByNonce.lookup nonce with
  | none => rfl
  | some memo => simp only; split_ifs <;> rfl

/-- Recording an intent leaves the image that recording it in the image leaves, whatever its verdict. -/
theorem hush_recordArmIntent (s : PartialStore) (duress : Bool) (carrier nonce : String)
    (generation : MemoGeneration) (firstSeen now : Nat) (timing : DuressTiming) :
    ((s.recordArmIntent duress carrier nonce generation firstSeen now timing).1.hush,
        (s.recordArmIntent duress carrier nonce generation firstSeen now timing).2) =
      (s.hush.recordIntent false carrier generation firstSeen).upgradeMemo carrier nonce generation := by
  unfold recordArmIntent
  rw [← hush_upgradeMemo, hush_recordIntent, hush_writeSafetyOverlay]

/-- The receipt does to the image what it does to the store; only its verdict may differ. -/
theorem hush_confirmCarrier (s : PartialStore) (sender : Nat) (carrier : String) (threshold now : Nat)
    (timing : DuressTiming) (monoNow : Nat) :
    (s.confirmCarrier sender carrier threshold now timing monoNow).1.hush =
        (s.hush.confirmCarrier sender carrier threshold now timing monoNow).1.hush ∧
      (StoreReply.confirmation (s.confirmCarrier sender carrier threshold now timing monoNow).2).observed =
        (StoreReply.confirmation
          (s.hush.confirmCarrier sender carrier threshold now timing monoNow).2).observed := by
  unfold confirmCarrier
  rw [hush_intent]
  cases s.intents.lookup carrier with
  | none => simp
  | some intent =>
    simp only [Option.map_some, ArmIntent.hush]
    split_ifs
    · simp
    · simp
    · simp
    · simp
    · simp [applyWrites, confirmWrites, StoreReply.observed]

/-! ### The registry -/

theorem hush_register (s : PartialStore) (c : Candidate) :
    s.hush.register c.hush = ((s.register c).1.hush, (s.register c).2) := by
  have same : ∀ resident : Candidate, resident.hush.matchesRegistration c.hush =
      resident.matchesRegistration c := fun _ => rfl
  unfold register
  simp only [hush_lookup, hush_commitmentId, hush_capacityBytes, hush_reservedBytes, hush_maxBytes,
    hush_maxActiveCandidates, hush_size]
  cases s.candidates.lookup c.commitmentId with
  | none =>
    simp only [Option.map_none]
    split_ifs
    · rfl
    · simp only [PartialStore.hush, mapVals_insert]
  | some resident =>
    simp only [Option.map_some, same]
    split_ifs <;> rfl

theorem hush_registerAll (candidates : List Candidate) (s : PartialStore) :
    s.hush.registerAll (candidates.map Candidate.hush) =
      ((s.registerAll candidates).1.hush, (s.registerAll candidates).2) := by
  induction candidates generalizing s with
  | nil => rfl
  | cons c rest ih =>
    simp only [List.map_cons, registerAll, hush_register, ih]

theorem hush_anyConflict (s : PartialStore) (candidates : List Candidate) :
    s.hush.anyConflict (candidates.map Candidate.hush) = s.anyConflict candidates := by
  unfold anyConflict
  rw [List.any_map]
  congr 1
  funext c
  simp only [Function.comp_apply, hush_lookup, Option.any_map]
  rfl

theorem hush_overCapacity (s : PartialStore) (candidates : List Candidate) :
    s.hush.overCapacity (candidates.map Candidate.hush) = s.overCapacity candidates := by
  have new : (candidates.map Candidate.hush).filter
      (fun c => (s.hush.candidates.lookup c.commitmentId).isNone) =
      (candidates.filter (fun c => (s.candidates.lookup c.commitmentId).isNone)).map Candidate.hush := by
    rw [List.filter_map]
    congr 2
    funext c
    simp only [Function.comp_apply, hush_lookup, Option.isNone_map]
    rfl
  unfold overCapacity
  simp only [new, hush_size, List.map_map, List.length_map]
  rfl

theorem hush_revalidate (s : PartialStore) (hotReserve : Option HotReserveSpec) (monoNow : Nat) :
    s.hush.revalidate hotReserve monoNow =
      ((s.revalidate hotReserve monoNow).1.hush, (s.revalidate hotReserve monoNow).2) := by
  cases hotReserve <;> rfl

theorem hush_unwindReserve (created : Bool) (hotReserve : Option HotReserveSpec) (s : PartialStore) :
    (s.unwindReserve created hotReserve).hush = s.hush.unwindReserve created hotReserve := by
  unfold unwindReserve
  cases hotReserve with
  | none => rfl
  | some spec => cases created <;> rfl

theorem hush_enroll (arm : ArmDirective) (candidates : List Candidate) (s : PartialStore) :
    ((s.enroll arm candidates).1.hush, (s.enroll arm candidates).2) =
      ((s.hush.registerAll (candidates.map Candidate.hush)).1.attachPair arm.carrier arm.spendCommitmentId
        arm.sweepEscape, (s.hush.registerAll (candidates.map Candidate.hush)).2) := by
  unfold enroll
  simp only [hush_attachPair, hush_applyArmDirective, hush_registerAll]

/-- Registration does to the image what it does to the store, whatever the directive's verdict. -/
theorem hush_registerCandidates (ch : ChannelState) (s : PartialStore) (candidates : List Candidate)
    (arm : ArmDirective) (duress : Bool) (hotReserve : Option HotReserveSpec) (monoNow : Nat) :
    (registerCandidates ch s candidates arm hotReserve monoNow).1.hush =
        (registerCandidates ch s.hush (candidates.map Candidate.hush) { arm with duress := duress } hotReserve
          monoNow).1.hush ∧
      (registerCandidates ch s candidates arm hotReserve monoNow).2 =
        (registerCandidates ch s.hush (candidates.map Candidate.hush) { arm with duress := duress } hotReserve
          monoNow).2 := by
  have reserved : (candidates.map Candidate.hush).map (fun c => c.reservePartialCapacity ch.nodes ch.nodeId) =
      (candidates.map (fun c => c.reservePartialCapacity ch.nodes ch.nodeId)).map Candidate.hush := by
    simp only [List.map_map]
    rfl
  unfold registerCandidates
  rw [hush_revalidate, reserved]
  rcases s.revalidate hotReserve monoNow with ⟨r, refusal | created⟩
  · simp
  · simp only [hush_anyConflict, hush_overCapacity]
    generalize candidates.map (fun c => c.reservePartialCapacity ch.nodes ch.nodeId) = reserved
    split_ifs
    · simp only [hush_unwindReserve, hush_hush, List.map_map, Function.comp_def, and_self]
    · simp only [hush_unwindReserve, hush_hush, List.map_map, Function.comp_def, hush_commitmentId, hush_lookup,
        Option.isSome_map]
      exact ⟨trivial, rfl⟩
    · have enrolled := hush_enroll arm reserved r
      have image := hush_enroll { arm with duress := duress } (reserved.map Candidate.hush) r.hush
      have twice : (reserved.map Candidate.hush).map Candidate.hush = reserved.map Candidate.hush := by
        simp only [List.map_map, Function.comp_def, candidate_hush_hush]
      rw [hush_hush, twice, ← enrolled] at image
      exact ⟨(congrArg Prod.fst image).symm, congrArg Except.ok (congrArg Prod.snd image).symm⟩

theorem hush_terminalize (s : PartialStore) (id : String) : (s.terminalize id).hush = s.hush.terminalize id := by
  have marked : mapVals Candidate.hush (adjust id (fun c => { c with broadcast := true }) s.candidates) =
      adjust id (fun c => { c with broadcast := true }) (mapVals Candidate.hush s.candidates) := by
    apply mapVals_adjust
    intro c
    rfl
  unfold terminalize
  rw [hush_lookup]
  cases s.candidates.lookup id with
  | none => rfl
  | some c =>
    simp only [Option.map_some, PartialStore.hush, marked]
    rfl

theorem hush_evict (s : PartialStore) (id : String) : (s.evict id).hush = s.hush.evict id := by
  unfold evict
  rw [hush_lookup]
  cases s.candidates.lookup id with
  | none => rfl
  | some c =>
    simp only [Option.map_some, PartialStore.hush, mapVals_erase]
    rfl

/-- Writes that commute with hushing commute with it one after the other. -/
theorem hush_foldl {ι : Type} {write : PartialStore → ι → PartialStore}
    (each : ∀ s i, (write s i).hush = write s.hush i) (items : List ι) (s : PartialStore) :
    (items.foldl write s).hush = items.foldl write s.hush := by
  induction items generalizing s with
  | nil => rfl
  | cons i rest ih => rw [List.foldl_cons, List.foldl_cons, ih, each]

theorem hush_hotConflicts (s : PartialStore) (id : String) : s.hush.hotConflicts id = s.hotConflicts id := by
  unfold hotConflicts
  simp only [hush_lookup]
  cases s.candidates.lookup id with
  | none =>
    simp only [Option.map_none, PartialStore.hush, mapVals, List.filter_map, List.map_map]
    rfl
  | some c =>
    simp only [Option.map_some, PartialStore.hush, mapVals, List.filter_map, List.map_map]
    rfl

theorem hush_invalidateHotConflicts (s : PartialStore) (id : String) :
    s.hush.invalidateHotConflicts id =
      ((s.invalidateHotConflicts id).1.hush, (s.invalidateHotConflicts id).2) := by
  unfold invalidateHotConflicts
  simp only [hush_hotConflicts, hush_foldl hush_terminalize]

theorem hush_latchEscapeRung (s : PartialStore) (id : String) (rung lowest : Nat) :
    s.hush.latchEscapeRung id rung lowest =
      ((s.latchEscapeRung id rung lowest).1.hush, (s.latchEscapeRung id rung lowest).2) := by
  have latched : (s.updateCandidate id (latchRung rung lowest)).hush =
      s.hush.updateCandidate id (latchRung rung lowest) := by
    apply hush_updateCandidate
    intro c
    rfl
  unfold latchEscapeRung
  simp only [latched, hush_lookup]
  cases s.candidates.lookup id <;> rfl

/-! ### Steps that read nothing the pin decides -/

/-- The operations whose outcome rests on a window or on the overlay. -/
def StoreOp.watchful : StoreOp → Bool
  | .pruneStore .. | .acceptPartial .. | .dueForFire .. | .releasePartials .. | .markBroadcast .. => true
  | _ => false

/-- The steps `op` of `s` and `op'` of `t` leave one image and are answered alike. -/
structure Alike (ch : ChannelState) (s t : PartialStore) (op op' : StoreOp) : Prop where
  store : (storeStep ch s op).1.hush = (storeStep ch t op').1.hush
  reply : (storeStep ch s op).2.observed = (storeStep ch t op').2.observed

/-- Any other step of a store is alike to the same step, with a normal verdict, of its image. -/
theorem alike_image (ch : ChannelState) (s : PartialStore) (duress : Bool) {op : StoreOp}
    (free : op.watchful = false) : Alike ch s s.hush (op.withDuress duress) (op.withDuress false) := by
  cases op with
  | claimNonceInFlight nonce generation monoNow =>
    exact ⟨by simp [StoreOp.withDuress, storeStep], rfl⟩
  | releaseNonceClaim nonce generation => exact ⟨by simp [StoreOp.withDuress, storeStep], rfl⟩
  | recordArmIntent verdict carrier nonce generation firstSeen now timing =>
    have here := hush_recordArmIntent s duress carrier nonce generation firstSeen now timing
    have image := hush_recordArmIntent s.hush false carrier nonce generation firstSeen now timing
    rw [hush_hush, ← here] at image
    exact ⟨(congrArg Prod.fst image).symm, congrArg StoreReply.memo (congrArg Prod.snd image).symm⟩
  | endCarrierRuling carrier monoNow => exact ⟨by simp [StoreOp.withDuress, storeStep], rfl⟩
  | markCarrierPropagated carrier => exact ⟨by simp [StoreOp.withDuress, storeStep], rfl⟩
  | carrierMemoLookup nonce tag requestExpiry sender now monoNow =>
    exact ⟨(hush_hush s).symm, by simp [StoreOp.withDuress, storeStep]⟩
  | outerStaleCarrier nonce tag expiry deadline sender now step monoNow =>
    exact ⟨by simp [StoreOp.withDuress, storeStep], by simp [StoreOp.withDuress, storeStep]⟩
  | claimCarrierDerivation nonce sender carrier => exact ⟨by simp [StoreOp.withDuress, storeStep], rfl⟩
  | recordCarrierDerivationResult nonce sender tag generation carrier =>
    exact ⟨by simp [StoreOp.withDuress, storeStep], rfl⟩
  | recordIntentPair carrier spend escape =>
    exact ⟨by simp [StoreOp.withDuress, storeStep, recordIntentPair], rfl⟩
  | registerCandidates requests arm hotReserve monoNow =>
    simp only [StoreOp.withDuress]
    cases built : buildAll ch.lib requests with
    | error message => exact ⟨by simp [storeStep, built], by simp [storeStep, built]⟩
    | ok candidates =>
      have here := hush_registerCandidates ch s candidates { arm with duress := duress } false hotReserve monoNow
      have image := hush_registerCandidates ch s.hush candidates { arm with duress := false } false hotReserve
        monoNow
      rw [hush_hush] at image
      exact ⟨by simp only [storeStep, built]; exact here.1.trans image.1.symm,
        by simp only [storeStep, built]; rw [here.2, image.2]⟩
  | applyCachedSchedule escape verdict now epsilon =>
    exact ⟨by simp [StoreOp.withDuress, storeStep, applyCachedSchedule], rfl⟩
  | confirmCarrier sender carrier threshold now timing monoNow =>
    obtain ⟨store, reply⟩ := hush_confirmCarrier s sender carrier threshold now timing monoNow
    exact ⟨store, reply⟩
  | reserveHotBudget id outflow wallNow expiry monoNow =>
    exact ⟨(hush_hush { s with hotBudget := _ }).symm, rfl⟩
  | releaseHotBudget id => exact ⟨(hush_hush { s with hotBudget := _ }).symm, rfl⟩
  | fireSettlementPollable id now => exact ⟨(hush_hush s).symm, rfl⟩
  | tryFinalize id threshold now => exact ⟨(hush_hush s).symm, rfl⟩
  | withBroadcastAuthorization id now => exact ⟨(hush_hush s).symm, rfl⟩
  | latchEscapeRung id rung lowest =>
    exact ⟨by simp [StoreOp.withDuress, storeStep, hush_latchEscapeRung],
      by simp [StoreOp.withDuress, storeStep, hush_latchEscapeRung]⟩
  | invalidateHotConflictsInStore id =>
    exact ⟨by simp [StoreOp.withDuress, storeStep, hush_invalidateHotConflicts],
      by simp [StoreOp.withDuress, storeStep, hush_invalidateHotConflicts]⟩
  | lockdownDue now => exact ⟨(hush_hush s).symm, rfl⟩
  | _ => cases free

/-- Such steps are alike in any two stores of one image, whatever their verdicts. -/
theorem alike_of_free (ch : ChannelState) {s t : PartialStore} (same : s.hush = t.hush) (duress duress' : Bool)
    {op : StoreOp} (free : op.watchful = false) :
    Alike ch s t (op.withDuress duress) (op.withDuress duress') := by
  have first := alike_image ch s duress free
  have second := alike_image ch t duress' free
  rw [same] at first
  exact ⟨first.store.trans second.store.symm, first.reply.trans second.reply.symm⟩

end BtcPolicy.Channel
