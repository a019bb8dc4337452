import BtcPolicy.Channel.Veil
import BtcPolicy.Node.Sign

/-! Ingress does not show which enrolled pin it was given. Two calls that differ in the evaluator's answer only
are followed hold by hold: they agree behind the veil after each of them, and answer alike. -/

namespace BtcPolicy.Node
open FiniteMap Word Bitcoin HotLedger Replay Channel Pin Policy PartialStore NodeConfig

def NodeState.veil (f : Armed → Armed) (s : NodeState) : NodeState :=
  { s with
    store := s.store.veil f
    duressArm := 0 }

/-- Two calls answered alike and left the same node behind the veil. -/
structure Alike (a b : NodeState × SignResult) : Prop where
  state : a.1.veil Armed.unswept = b.1.veil Armed.unswept
  answer : a.2 = b.2

section Veil

variable (node : NodeConfig) (f : Armed → Armed) (s : NodeState)

theorem state_veil_veil (g : Armed → Armed) : (s.veil g).veil f = s.veil (f ∘ g) := by
  simp [NodeState.veil, veil_veil]

/-- What is equal under a thin veil is equal under a thicker one. -/
theorem state_veil_of_veil {s t : NodeState} (same : s.veil id = t.veil id) : s.veil f = t.veil f := by
  have thick := congrArg (fun u => NodeState.veil f u) same
  simp only [state_veil_veil, Function.comp_id] at thick
  exact thick

theorem veil_onStore {op : ChannelState → PartialStore → PartialStore}
    (same : ∀ ch store, (op ch store).veil f = op ch (store.veil f)) :
    (node.onStore op s).veil f = node.onStore op (s.veil f) := by
  unfold onStore
  cases node.channel with
  | none => rfl
  | some ch => simp only [NodeState.veil, same]

theorem veil_stageSpendCarrier (request : TaggedRequest) (carrier : String) :
    (node.stageSpendCarrier request carrier s).veil f = node.stageSpendCarrier request carrier (s.veil f) := by
  unfold stageSpendCarrier
  rw [veil_onStore]
  · rfl
  · intro ch store
    exact veil_markCarrierPropagated f store ch carrier

theorem veil_unwindHotReservation (created : Bool) (commitmentId : String) :
    (node.unwindHotReservation created commitmentId s).veil f =
      node.unwindHotReservation created commitmentId (s.veil f) := by
  unfold unwindHotReservation
  split_ifs
  · apply veil_onStore
    intro ch store
    rfl
  · rfl

theorem veil_recordAcceptance (pair : SpendPair) (hot : Bool) (expiry : Nat) (response : SignResponse) :
    (node.recordAcceptance pair hot expiry response s).veil f =
      node.recordAcceptance pair hot expiry response (s.veil f) := rfl

/-- The sweep reads the overlay, so it is seen through the thin veil only. -/
theorem veil_pruneLogs (now pruneMono : Nat) :
    (node.pruneLogs now pruneMono s).veil id = node.pruneLogs now pruneMono (s.veil id) := by
  unfold pruneLogs
  rw [veil_onStore]
  · rfl
  · intro ch store
    exact veil_pruneStore store now pruneMono

theorem veil_dropClaim (claim : Option MemoGuard) (mono : Nat) :
    (dropClaim claim mono s).veil f = dropClaim claim mono (s.veil f) := by
  cases claim with
  | none => rfl
  | some guard =>
    obtain ⟨nonce, generation, ownsMemo, rulingCarrier⟩ := guard
    have released : (if ownsMemo then s.store.releaseNonceClaim nonce generation else s.store).veil f =
        if ownsMemo then (s.store.veil f).releaseNonceClaim nonce generation else s.store.veil f := by
      split_ifs
      · exact veil_releaseNonceClaim f s.store nonce generation
      · rfl
    cases rulingCarrier with
    | none => simp only [dropClaim, NodeState.veil, released]
    | some carrier => simp only [dropClaim, NodeState.veil, veil_endCarrierRuling, released]

end Veil

/-- What does not read the pin does alike to two nodes that are alike. -/
theorem veil_congr {f : Armed → Armed} {g : NodeState → NodeState} (same : ∀ s, (g s).veil f = g (s.veil f))
    {s t : NodeState} (alike : s.veil f = t.veil f) : (g s).veil f = (g t).veil f := by
  rw [same, same, alike]

/-- What does not read the pin does to the veiled node what it does to the node. -/
theorem alike_of_veil {g : NodeState → NodeState} (same : ∀ s, (g s).veil id = g (s.veil id)) (s : NodeState)
    (answer : SignResult) : Alike (g s, answer) (g (s.veil id), answer) := by
  refine ⟨?_, rfl⟩
  show (g s).veil Armed.unswept = (g (s.veil id)).veil Armed.unswept
  rw [← same, state_veil_veil]
  rfl

/-! ### Registration -/

section Registration

variable (node : NodeConfig) (s : NodeState) (flight : Flight) (verdict : PinVerdict) (carrier : String)

theorem registerPair_alike (pair : RegisterPair) (duress : Bool) (monoNow : Nat) :
    (node.registerPair { pair with duress := duress } monoNow s).1.veil Armed.unswept =
        (node.registerPair { pair with duress := false } monoNow (s.veil id)).1.veil Armed.unswept ∧
      (node.registerPair { pair with duress := duress } monoNow s).2 =
        (node.registerPair { pair with duress := false } monoNow (s.veil id)).2 := by
  have through : (s.veil id).veil Armed.unswept = s.veil Armed.unswept := state_veil_veil Armed.unswept s id
  unfold registerPair
  cases node.channel with
  | none => exact ⟨through.symm, rfl⟩
  | some ch =>
    simp only [RegisterPair.specs, armDirective]
    cases buildCandidates ch.lib node.keys _ with
    | error refused => exact ⟨through.symm, rfl⟩
    | ok candidates =>
      obtain ⟨store, answer⟩ := veil_registerCandidates ch s.store candidates
        ⟨pair.escapeCommitmentId, pair.spendCommitmentId, pair.carrier, pair.duress, node.epsilonSecs, pair.now⟩
        duress pair.hotReserve monoNow
      simp only [NodeState.veil] at store answer ⊢
      rw [answer]
      have refusals : ∀ outcome, node.registrationRefusal { pair with duress := duress } outcome =
          node.registrationRefusal { pair with duress := false } outcome := fun _ => rfl
      rw [refusals]
      split
      · exact ⟨by simp only [store], rfl⟩
      · exact ⟨by simp only [store], rfl⟩

theorem admitPair_alike (pair : SpendPair) (txClass : TxClass) (outflow fireAt now : Nat) (created : Bool)
    (clock : RegistrationClock) :
    Alike (node.admitPair flight verdict carrier pair txClass outflow fireAt now created clock s)
      (node.admitPair flight .normal carrier pair txClass outflow fireAt now created clock (s.veil id)) := by
  unfold admitPair
  simp only [← veil_stageSpendCarrier]
  generalize node.stageSpendCarrier (.spend flight.request) carrier s = staged
  obtain ⟨state, answer⟩ := registerPair_alike node staged
    ⟨pair.spend, pair.commitmentId, decide (txClass = .hot), false, true, pair.escape, pair.escapeBumps,
      pair.escapeCommitmentId, ⟨fireAt, min flight.request.expiry (satAdd fireAt node.combineSlackSecs)⟩,
      flight.request.expiry, now,
      if decide (txClass = .hot) then some ⟨pair.commitmentId, outflow, clock.wall, flight.request.expiry⟩ else none,
      carrier⟩ (decide (verdict = .duress)) clock.register
  simp only [reduceCtorEq, decide_false] at state answer ⊢
  generalize node.registerPair _ clock.register staged = mine at state answer ⊢
  generalize node.registerPair _ clock.register (staged.veil id) = theirs at state answer ⊢
  obtain ⟨s₁, result⟩ := mine
  obtain ⟨s₂, result'⟩ := theirs
  simp only at state answer
  subst answer
  cases result with
  | error refused =>
    exact ⟨veil_congr (veil_unwindHotReservation node Armed.unswept · created pair.commitmentId) state, rfl⟩
  | ok _ =>
    exact ⟨veil_congr (veil_recordAcceptance node Armed.unswept · pair (decide (txClass = .hot)) flight.request.expiry
      (.accepted ⟨pair.commitmentId, now, fireAt - now⟩)) state, rfl⟩

theorem admitReserved_alike (pair : SpendPair) (classified : Classification) (now : Nat)
    (escapePrevouts : Option PrevoutFetch) (created : Bool) (clock : RegistrationClock) :
    Alike (node.admitReserved flight verdict carrier pair classified now escapePrevouts created clock s)
      (node.admitReserved flight .normal carrier pair classified now escapePrevouts created clock (s.veil id)) := by
  unfold admitReserved
  cases node.validatePair pair classified.txClass flight.request.expiry now escapePrevouts with
  | error refused =>
    obtain ⟨refused, stages⟩ := refused
    cases stages with
    | false =>
      exact alike_of_veil (veil_unwindHotReservation node id · created pair.commitmentId) s (.ok (.refusal refused))
    | true =>
      refine alike_of_veil (g := fun s => node.stageSpendCarrier (.spend flight.request) carrier
        (node.unwindHotReservation created pair.commitmentId s)) ?_ s (.ok (.refusal refused))
      intro s
      rw [veil_stageSpendCarrier, veil_unwindHotReservation]
  | ok validated =>
    exact admitPair_alike node s flight verdict carrier validated.1 classified.txClass classified.hotOutflow
      validated.2 now created clock

theorem meterSpend_alike (pair : SpendPair) (classified : Classification) (now : Nat)
    (escapePrevouts : Option PrevoutFetch) (clock : RegistrationClock) :
    Alike (node.meterSpend flight verdict carrier pair classified now escapePrevouts clock s)
      (node.meterSpend flight .normal carrier pair classified now escapePrevouts clock (s.veil id)) := by
  have budget : (s.veil id).store.hotBudget = s.store.hotBudget := rfl
  unfold meterSpend
  simp only [budget]
  generalize s.store.hotBudget.reserve pair.commitmentId classified.hotOutflow clock.reserve clock.wall
    flight.request.expiry = answer
  obtain ⟨ledger, reserved⟩ := answer
  split_ifs with metered
  · cases reserved with
    | error refused =>
      exact alike_of_veil (veil_stageSpendCarrier node id · (.spend flight.request) carrier)
        { s with store := { s.store with hotBudget := ledger } } _
    | ok created =>
      exact admitReserved_alike node { s with store := { s.store with hotBudget := ledger } } flight verdict carrier
        pair classified now escapePrevouts created clock
  · exact admitReserved_alike node s flight verdict carrier pair classified now escapePrevouts false clock

theorem judgeSpend_alike (pair : SpendPair) (now : Nat) (spendPrevouts escapePrevouts : Option PrevoutFetch)
    (clock : RegistrationClock) :
    Alike (node.judgeSpend flight verdict carrier pair now spendPrevouts escapePrevouts clock s)
      (node.judgeSpend flight .normal carrier pair now spendPrevouts escapePrevouts clock (s.veil id)) := by
  have recorded : ∀ refused s, Alike (recordRefusal pair flight.request.expiry refused s)
      (recordRefusal pair flight.request.expiry refused (s.veil id)) := fun refused s =>
    alike_of_veil (g := fun s => (recordRefusal pair flight.request.expiry refused s).1) (fun _ => rfl) s (.ok (.refusal refused))
  unfold judgeSpend
  split
  · simp only [← veil_stageSpendCarrier]
    split_ifs
    · exact recorded _ _
    · exact recorded _ _
  · split
    · exact recorded _ _
    · split_ifs
      · exact recorded _ _
      · exact meterSpend_alike node s flight verdict carrier pair _ now escapePrevouts clock

theorem replayAccepted_alike (pair : SpendPair) (now : Nat) :
    (node.replayAccepted flight verdict carrier pair now s).veil Armed.unswept =
      (node.replayAccepted flight .normal carrier pair now (s.veil id)).veil Armed.unswept := by
  unfold replayAccepted onStore
  simp only [veil_stageSpendCarrier]
  cases node.channel with
  | none =>
    rw [state_veil_veil]
    rfl
  | some ch =>
    have scheduled := veil_applyArmDirective s.store ⟨pair.escapeCommitmentId, "", "", false, node.epsilonSecs, now⟩
      (decide (verdict = .duress)) []
    simp only [NodeState.veil, applyCachedSchedule, recordIntentPair, veil_attachPair, reduceCtorEq, decide_false]
      at scheduled ⊢
    rw [scheduled]

theorem answerPair_alike (pair : SpendPair) (now : Nat) (spendPrevouts escapePrevouts : Option PrevoutFetch)
    (clock : RegistrationClock) :
    Alike (node.answerPair flight verdict carrier pair now spendPrevouts escapePrevouts clock s)
      (node.answerPair flight .normal carrier pair now spendPrevouts escapePrevouts clock (s.veil id)) := by
  have sign : (s.veil id).sign = s.sign := rfl
  unfold answerPair
  simp only [sign]
  split
  · exact ⟨replayAccepted_alike node _ flight verdict carrier pair now, rfl⟩
  · split
    · exact alike_of_veil (g := fun s => { s with
        sign := { s.sign with replay := ReplayLog.prune s.sign.replay now } }) (fun _ => rfl) s _
    · split
      · exact alike_of_veil (veil_stageSpendCarrier node id · (.spend flight.request) carrier) _ _
      · have judged := judgeSpend_alike node (node.pruneLogs now clock.prune
          { s with sign := { s.sign with replay := ReplayLog.prune s.sign.replay now } })
          flight verdict carrier pair now spendPrevouts escapePrevouts clock
        rw [veil_pruneLogs] at judged
        exact judged

theorem registrationHold_alike (spendPrevouts escapePrevouts : Option PrevoutFetch) (clock : RegistrationClock) :
    Alike (node.registrationHold flight verdict carrier spendPrevouts escapePrevouts clock s)
      (node.registrationHold flight .normal carrier spendPrevouts escapePrevouts clock (s.veil id)) := by
  have locked : (s.veil id).lockdown = s.lockdown := rfl
  have sign : (s.veil id).sign = s.sign := rfl
  have unchanged : ∀ answer, Alike (s, answer) (s.veil id, answer) := alike_of_veil (g := id) (fun _ => rfl) s
  unfold registrationHold
  simp only [locked, sign]
  split_ifs
  · exact unchanged _
  · split
    · exact alike_of_veil (veil_stageSpendCarrier node id · (.spend flight.request) carrier) s _
    · split
      · exact unchanged _
      · exact answerPair_alike node s flight verdict carrier _ _ spendPrevouts escapePrevouts clock

end Registration

/-! ### Commit -/

section Commit

variable (node : NodeConfig) (s : NodeState) (flight : Flight) (carrier : String)

/-- The hook's verdict goes into its delta and the intent's bit. -/
theorem fireArmHook_alike (verdict : PinVerdict) (now : Nat) :
    (node.fireArmHook verdict carrier flight now s).1.veil id =
        (node.fireArmHook .normal carrier flight now s).1.veil id ∧
      (node.fireArmHook verdict carrier flight now s).2 = (node.fireArmHook .normal carrier flight now s).2 := by
  unfold fireArmHook
  cases flight.generation with
  | none => exact ⟨rfl, rfl⟩
  | some generation =>
    obtain ⟨store, upgrade⟩ := veil_recordArmIntent id s.store (decide (verdict = .duress)) carrier
      flight.request.nonce generation flight.now now node.duressTiming
    simp only [NodeState.veil, reduceCtorEq, decide_false]
    exact ⟨by rw [store], by rw [upgrade]⟩

theorem commitHold_alike {verdict : PinVerdict} (enrolled : verdict ≠ .wrong) (wall : Nat) :
    (node.commitHold flight verdict carrier wall s).1.veil id =
        (node.commitHold flight .normal carrier wall s).1.veil id ∧
      (node.commitHold flight verdict carrier wall s).2 = (node.commitHold flight .normal carrier wall s).2 := by
  unfold commitHold
  split_ifs
  · exact ⟨rfl, rfl⟩
  · obtain ⟨state, upgrade⟩ := fireArmHook_alike node s flight carrier verdict (s.sign.coordNonces.effectiveNow wall)
    simp only
    rw [upgrade]
    generalize (node.fireArmHook verdict carrier flight (s.sign.coordNonces.effectiveNow wall) s).1 = mine at state ⊢
    generalize node.fireArmHook .normal carrier flight (s.sign.coordNonces.effectiveNow wall) s = theirs at state ⊢
    have staged : ∀ s, (node.stageSpendCarrier (.spend flight.request) carrier s).veil id =
        node.stageSpendCarrier (.spend flight.request) carrier (s.veil id) :=
      fun s => veil_stageSpendCarrier node id s (.spend flight.request) carrier
    have sign : mine.sign = theirs.1.sign := (congrArg NodeState.sign state :)
    split
    · exact ⟨veil_congr staged state, rfl⟩
    · rw [sign, AttemptBudget.charge_enrolled _ _ _ enrolled]
      generalize theirs.1.sign.pinBudget.charge .normal _ node.pinBudgetConfig = charged
      have budgeted : NodeState.veil id { mine with sign := { theirs.1.sign with pinBudget := charged.1 } } =
          NodeState.veil id { theirs.1 with sign := { theirs.1.sign with pinBudget := charged.1 } } :=
        congrArg (fun t : NodeState => { t with sign := { theirs.1.sign with pinBudget := charged.1 } }) state
      split_ifs
      · exact ⟨veil_congr staged budgeted, rfl⟩
      · exact ⟨budgeted, rfl⟩

end Commit

/-! ### The handler -/

section Handler

variable (node : NodeConfig) (request : SignRequest) (inputs : SignInputs)

theorem veil_exitSpendPreflight (f : Armed → Armed) (s : NodeState) :
    (exitSpendPreflight s).veil f = exitSpendPreflight (s.veil f) := rfl

/-- An empty or over-long pin is wrong whatever the evaluator answers; any other verdict is its answer. -/
theorem pinVerdict_eq_or_enrolled :
    pinVerdict .duress request = pinVerdict .normal request ∨
      pinVerdict .duress request ≠ .wrong ∧ pinVerdict .normal request = .normal := by
  unfold pinVerdict
  split_ifs
  · exact .inl rfl
  · exact .inr ⟨by decide, rfl⟩

theorem handleSign_alike (s : NodeState) :
    Alike (node.handleSign request .duress inputs s) (node.handleSign request .normal inputs s) := by
  unfold handleSign
  split
  · exact ⟨rfl, rfl⟩
  · exact ⟨rfl, rfl⟩
  · rename_i entered flight _
    simp only
    obtain same | ⟨enrolled, normal⟩ := pinVerdict_eq_or_enrolled request
    · rw [same]
      exact ⟨rfl, rfl⟩
    · rw [normal]
      generalize pinVerdict .duress request = verdict at enrolled
      obtain ⟨state, outcome⟩ := commitHold_alike node entered flight (node.carrierOf request) enrolled inputs.commitWall
      generalize node.commitHold flight verdict (node.carrierOf request) inputs.commitWall entered = mine
        at state outcome ⊢
      generalize node.commitHold flight .normal (node.carrierOf request) inputs.commitWall entered = theirs
        at state outcome ⊢
      obtain ⟨s₁, left⟩ := mine
      obtain ⟨s₂, left'⟩ := theirs
      simp only at state outcome
      subst outcome
      have leaves : ∀ claim t, (exitSpendPreflight (dropClaim claim inputs.exitMono t)).veil Armed.unswept =
          exitSpendPreflight (dropClaim claim inputs.exitMono (t.veil Armed.unswept)) := fun claim t => by
        rw [veil_exitSpendPreflight, veil_dropClaim]
      have thick : s₁.veil Armed.unswept = s₂.veil Armed.unswept := state_veil_of_veil Armed.unswept state
      cases left with
      | leaving response claim => exact ⟨veil_congr (leaves claim) thick, rfl⟩
      | backoff response claim secs =>
        have slotGone := veil_congr (veil_exitSpendPreflight Armed.unswept) thick
        exact ⟨veil_congr (veil_dropClaim Armed.unswept · claim inputs.exitMono) slotGone, rfl⟩
      | windowB flight =>
        simp only
        generalize node.prefetchSpendEscapePrevouts request inputs.replies = fetched
        have mine := registrationHold_alike node s₁ flight verdict (node.carrierOf request) fetched.1 fetched.2
          inputs.registration
        have theirs := registrationHold_alike node s₂ flight .normal (node.carrierOf request) fetched.1 fetched.2
          inputs.registration
        rw [state] at mine
        exact ⟨veil_congr (leaves flight.claim) (mine.state.trans theirs.state.symm),
          mine.answer.trans theirs.answer.symm⟩

/-- Two runs of the handler that only the bit of an intent, the sweep selector and the hook's own counter may tell
apart. -/
structure Indistinct (a b : NodeState × SignResult) : Prop where
  response : a.2 = b.2
  outbox : a.1.outbox = b.1.outbox
  nonces : a.1.sign.coordNonces = b.1.sign.coordNonces
  verdicts : a.1.sign.replay = b.1.sign.replay
  pending : a.1.sign.pending = b.1.sign.pending
  refreshes : a.1.sign.refreshes = b.1.sign.refreshes
  attempts : a.1.sign.pinBudget = b.1.sign.pinBudget
  hotLedger : a.1.store.hotBudget = b.1.store.hotBudget
  authorized : a.1.authorized = b.1.authorized
  candidates : a.1.store.candidates = b.1.store.candidates
  memos : a.1.store.carriersByNonce = b.1.store.carriersByNonce
  intents : mapVals ArmIntent.hush a.1.store.intents = mapVals ArmIntent.hush b.1.store.intents
  overlay : a.1.store.armed.unswept = b.1.store.armed.unswept
  slots : a.1.spendPreflight = b.1.spendPreflight

theorem Alike.indistinct {a b : NodeState × SignResult} (alike : Alike a b) : Indistinct a b where
  response := alike.answer
  outbox := (congrArg NodeState.outbox alike.state :)
  nonces := (congrArg (fun s => s.sign.coordNonces) alike.state :)
  verdicts := (congrArg (fun s => s.sign.replay) alike.state :)
  pending := (congrArg (fun s => s.sign.pending) alike.state :)
  refreshes := (congrArg (fun s => s.sign.refreshes) alike.state :)
  attempts := (congrArg (fun s => s.sign.pinBudget) alike.state :)
  hotLedger := (congrArg (fun s => s.store.hotBudget) alike.state :)
  authorized := (congrArg NodeState.authorized alike.state :)
  candidates := (congrArg (fun s => s.store.candidates) alike.state :)
  memos := (congrArg (fun s => s.store.carriersByNonce) alike.state :)
  intents := (congrArg (fun s => s.store.intents) alike.state :)
  overlay := (congrArg (fun s => s.store.armed) alike.state :)
  slots := (congrArg NodeState.spendPreflight alike.state :)

/-- From any state of the node, on any request, under any clocks and chain replies: the run whose evaluator answers
duress and the run whose evaluator answers normal cannot be told apart. -/
theorem ingress_blind_to_verdict (s : NodeState) :
    Indistinct (node.handleSign request .duress inputs s) (node.handleSign request .normal inputs s) :=
  (handleSign_alike node request inputs s).indistinct

end Handler

end BtcPolicy.Node
