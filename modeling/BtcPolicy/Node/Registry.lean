import BtcPolicy.Node.Holds
import BtcPolicy.Node.Machine

/-! The registry under the node. What a section of a request does to the store is a run of the store's own
operations, and a reservation it asks for is the outflow of a spend the node has read. -/

namespace BtcPolicy.Node
open FiniteMap Word Bitcoin HotLedger Replay Channel Pin Policy Runs PartialStore NodeConfig

/-- The commitment and the outflow an operation reserves for. -/
def asks : StoreOp → Option (String × Nat)
  | .reserveHotBudget commitmentId outflowSat _ _ _ => some (commitmentId, outflowSat)
  | .registerCandidates _ _ (some spec) _ => some (spec.commitmentId, spec.outflowSat)
  | _ => none

/-- The outflow is the one `classify` gives a hot spend with this commitment. -/
def PricedAt (node : NodeConfig) (commitmentId : String) (outflow : Nat) : Prop :=
  ∃ text psbt expiry, node.rules.parsePsbt text = .ok psbt ∧ node.rules.commitmentId psbt expiry = commitmentId ∧
    node.rules.classify psbt = .ok ⟨.hot, outflow⟩

def Priced (node : NodeConfig) (op : StoreOp) : Prop :=
  ∀ asked, asks op = some asked → PricedAt node asked.1 asked.2

theorem priced_of_silent {node : NodeConfig} {op : StoreOp} (silent : asks op = none) : Priced node op := by
  intro asked here
  rw [silent] at here
  cases here

/-- The store of `t` comes from that of `s` by operations of the store. -/
def StoreMoves (node : NodeConfig) (ch : ChannelState) (s t : NodeState) : Prop :=
  Reaches (storeStep ch) (Priced node) s.store t.store

namespace StoreMoves

variable {node : NodeConfig} {ch : ChannelState} {s t u : NodeState}

theorem of_same (same : t.store = s.store) : StoreMoves node ch s t := by
  unfold StoreMoves
  rw [same]
  exact Reaches.refl _ _ _

theorem trans (first : StoreMoves node ch s t) (second : StoreMoves node ch t u) : StoreMoves node ch s u :=
  Reaches.trans first second

theorem of_step (op : StoreOp) (priced : Priced node op) (same : t.store = (storeStep ch s.store op).1) :
    StoreMoves node ch s t := by
  unfold StoreMoves
  rw [same]
  exact Reaches.single _ priced _

/-- An operation that reserves nothing. -/
theorem silent (op : StoreOp) (none : asks op = none) (same : t.store = (storeStep ch s.store op).1) :
    StoreMoves node ch s t :=
  of_step op (priced_of_silent none) same

/-- Read off a call whose answer has been split. -/
theorem of_call {ρ : Type} {call : NodeState × ρ} {answer : ρ} (same : call = (t, answer))
    (moved : StoreMoves node ch s call.1) : StoreMoves node ch s t := by
  rw [same] at moved
  exact moved

end StoreMoves

theorem buildAll_of_buildCandidates {lib : Library} {keys : CandidateKeys} {specs : List CandidateSpec}
    {candidates : List Candidate} (built : buildCandidates lib keys specs = .ok candidates) :
    buildAll lib (specs.map (fun spec => ⟨spec, keys⟩)) = .ok candidates := by
  induction specs generalizing candidates with
  | nil =>
    cases built
    rfl
  | cons spec rest ih =>
    unfold buildCandidates at built
    cases first : Candidate.build lib spec keys with
    | error e => simp [first] at built
    | ok candidate =>
      cases others : buildCandidates lib keys rest with
      | error refused => simp [first, others] at built
      | ok tail =>
        simp only [first, others] at built
        cases built
        have later := ih others
        unfold buildAll at later ⊢
        rw [List.map_cons, List.mapM_cons, later, first]
        rfl

/-- What a decoded request spends, and the name it has. -/
theorem decodePair_spend {node : NodeConfig} {request : SignRequest} {pair : SpendPair}
    (decoded : node.decodePair request = .ok pair) :
    node.rules.parsePsbt request.psbt = .ok pair.spend ∧
      pair.commitmentId = node.rules.commitmentId pair.spend request.expiry := by
  unfold decodePair at decoded
  cases parsed : node.rules.parsePsbt request.psbt with
  | error e => simp [decodePsbt, parsed] at decoded
  | ok spend =>
    simp only [decodePsbt, parsed] at decoded
    split at decoded
    · cases decoded
    · split_ifs at decoded
      split at decoded
      · cases decoded
      · cases decoded
        exact ⟨rfl, rfl⟩

section Sections

variable {node : NodeConfig} {ch : ChannelState} (mounted : node.channel = some ch) (s : NodeState)

theorem moves_fireArmHook (verdict : PinVerdict) (carrier : String) (flight : Flight) (now : Nat) :
    StoreMoves node ch s (node.fireArmHook verdict carrier flight now s).1 := by
  unfold fireArmHook
  cases flight.generation with
  | none => exact .of_same rfl
  | some generation => exact .silent (.recordArmIntent _ _ _ _ _ _ _) rfl rfl

theorem moves_dropClaim (claim : Option MemoGuard) (mono : Nat) :
    StoreMoves node ch s (dropClaim claim mono s) := by
  unfold dropClaim
  cases claim with
  | none => exact .of_same rfl
  | some guard =>
    simp only
    have released : StoreMoves node ch s { s with store :=
        if guard.ownsMemo then s.store.releaseNonceClaim guard.nonce guard.generation else s.store } := by
      split_ifs
      · exact .silent (.releaseNonceClaim guard.nonce guard.generation) rfl rfl
      · exact .of_same rfl
    cases guard.rulingCarrier with
    | none => exact released
    | some carrier => exact released.trans (.silent (.endCarrierRuling carrier mono) rfl rfl)

theorem moves_outerStaleClassify (request : SignRequest) (sender now mono : Nat) (step : OuterStaleStep) :
    StoreMoves node ch s (node.outerStaleClassify ch request sender now mono step s).1 := by
  unfold outerStaleClassify
  split_ifs
  · exact .of_same rfl
  · split
    · exact .of_same rfl
    · exact .silent (.outerStaleCarrier _ _ _ _ _ _ _ _) rfl rfl

theorem moves_staleInspectSection (request : TaggedRequest) (sender : Nat) (reserved : Bool)
    (now mono nowAgain monoAgain : Nat) :
    StoreMoves node ch s (node.staleInspectSection ch request sender reserved now mono nowAgain monoAgain s).1 := by
  cases request with
  | refresh request => exact .of_same rfl
  | spend request =>
    have inspected : StoreMoves node ch s _ := moves_outerStaleClassify s request sender now mono (.inspect false)
    unfold staleInspectSection
    simp only
    by_cases guarded : node.receiptGuarded request = true
    · rw [if_pos guarded]
      split
      · cases reserved with
        | true => exact inspected.trans (moves_outerStaleClassify _ request sender nowAgain monoAgain (.inspect true))
        | false => exact inspected
      · exact inspected
    · rw [if_neg guarded]
      exact .of_same rfl

theorem moves_claimDerivationSection (request : SignRequest) (sender : Nat) (result : SignResult) (carrier : String)
    (generation : MemoGeneration) (reserved : Bool) :
    StoreMoves node ch s (claimDerivationSection request sender result carrier generation reserved s).1 := by
  unfold claimDerivationSection
  cases reserved with
  | true => exact .silent (.claimCarrierDerivation _ _ _) rfl rfl
  | false => exact .of_same rfl

theorem moves_recordDerivationSection (request : SignRequest) (sender : Nat) (result : SignResult) (carrier : String)
    (generation : MemoGeneration) :
    StoreMoves node ch s (node.recordDerivationSection request sender result carrier generation s).1 := by
  unfold recordDerivationSection
  split_ifs
  · exact .silent (.recordCarrierDerivationResult _ _ _ _ _) rfl rfl
  · exact .of_same rfl

theorem settleStore_eq (commitmentId : String) (armedEscape : Bool) (store : PartialStore) :
    (settleStore commitmentId armedEscape store).1 = (storeStep ch store
      (if armedEscape then .invalidateHotConflictsInStore commitmentId else .markBroadcast commitmentId)).1 := by
  cases armedEscape with
  | true => rfl
  | false => rfl

/-! ### The sections that need the channel -/

include mounted

theorem moves_stageSpendCarrier (request : TaggedRequest) (carrier : String) :
    StoreMoves node ch s (node.stageSpendCarrier request carrier s) :=
  .silent (.markCarrierPropagated carrier) rfl (by simp [stageSpendCarrier, onStore, mounted, storeStep])

theorem moves_unwindHotReservation (created : Bool) (commitmentId : String) :
    StoreMoves node ch s (node.unwindHotReservation created commitmentId s) := by
  cases created with
  | false => exact .of_same rfl
  | true =>
    exact .silent (.releaseHotBudget commitmentId) rfl (by simp [unwindHotReservation, onStore, mounted, storeStep])

theorem moves_pruneLogs (now pruneMono : Nat) : StoreMoves node ch s (node.pruneLogs now pruneMono s) :=
  .silent (.pruneStore now pruneMono) rfl (by simp [pruneLogs, onStore, mounted, storeStep])

theorem moves_registerPair (pair : RegisterPair) (monoNow : Nat)
    (priced : ∀ spec ∈ pair.hotReserve, PricedAt node spec.commitmentId spec.outflowSat) :
    StoreMoves node ch s (node.registerPair pair monoNow s).1 := by
  unfold registerPair
  simp only [mounted]
  cases built : buildCandidates ch.lib node.keys pair.specs with
  | error refused => exact .of_same rfl
  | ok candidates =>
    have registers : StoreMoves node ch s { s with
        store := (registerCandidates ch s.store candidates (node.armDirective pair) pair.hotReserve monoNow).1 } := by
      apply StoreMoves.of_step (.registerCandidates (pair.specs.map (fun spec => ⟨spec, node.keys⟩))
        (node.armDirective pair) pair.hotReserve monoNow)
      · intro asked here
        cases reserve : pair.hotReserve with
        | none => simp [asks, reserve] at here
        | some spec =>
          simp only [asks, reserve, Option.some.injEq] at here
          subst here
          exact priced spec reserve
      · simp only [storeStep, buildAll_of_buildCandidates built]
    simp only
    split
    · exact registers
    · exact registers

/-! ### The registration of a spend -/

theorem moves_admitPair (flight : Flight) (verdict : PinVerdict) (carrier : String) (pair : SpendPair) (txClass : TxClass)
    (outflow fireAt now : Nat) (created : Bool) (clock : RegistrationClock)
    (priced : txClass = .hot → PricedAt node pair.commitmentId outflow) :
    StoreMoves node ch s
      (node.admitPair flight verdict carrier pair txClass outflow fireAt now created clock s).1 := by
  have staged := moves_stageSpendCarrier mounted s (.spend flight.request) carrier
  have reserved : ∀ spec ∈ (if decide (txClass = .hot) = true then
      some (⟨pair.commitmentId, outflow, clock.wall, flight.request.expiry⟩ : HotReserveSpec) else none),
      PricedAt node spec.commitmentId spec.outflowSat := by
    intro spec here
    by_cases hot : txClass = .hot
    · simp only [hot, decide_true, if_true, Option.mem_def, Option.some.injEq] at here
      subst here
      exact priced hot
    · simp [hot] at here
  unfold admitPair
  simp only
  split
  next t refused registered =>
    have registers := StoreMoves.of_call registered (moves_registerPair mounted _ _ _ reserved)
    exact (staged.trans registers).trans (moves_unwindHotReservation mounted t created pair.commitmentId)
  next t _ registered =>
    have registers := StoreMoves.of_call registered (moves_registerPair mounted _ _ _ reserved)
    exact (staged.trans registers).trans (.of_same rfl)

theorem moves_admitReserved (flight : Flight) (verdict : PinVerdict) (carrier : String) (pair : SpendPair)
    (classified : Classification) (now : Nat) (escapePrevouts : Option PrevoutFetch) (created : Bool)
    (clock : RegistrationClock) (priced : classified.txClass = .hot → PricedAt node pair.commitmentId classified.hotOutflow) :
    StoreMoves node ch s
      (node.admitReserved flight verdict carrier pair classified now escapePrevouts created clock s).1 := by
  unfold admitReserved
  split
  next refused valid =>
    have unwound := moves_unwindHotReservation mounted s created pair.commitmentId
    simp only
    split_ifs
    · exact unwound.trans (moves_stageSpendCarrier mounted _ _ _)
    · exact unwound
  next signed fireAt valid =>
    apply moves_admitPair mounted
    rw [(validatePair_names node valid).1]
    exact priced

theorem moves_meterSpend (flight : Flight) (verdict : PinVerdict) (carrier : String) (pair : SpendPair)
    (classified : Classification) (now : Nat) (escapePrevouts : Option PrevoutFetch) (clock : RegistrationClock)
    (priced : classified.txClass = .hot → PricedAt node pair.commitmentId classified.hotOutflow) :
    StoreMoves node ch s (node.meterSpend flight verdict carrier pair classified now escapePrevouts clock s).1 := by
  have reserves : classified.txClass = .hot → StoreMoves node ch s { s with store := { s.store with
      hotBudget := (s.store.hotBudget.reserve pair.commitmentId classified.hotOutflow clock.reserve clock.wall
        flight.request.expiry).1 } } := by
    intro hot
    apply StoreMoves.of_step (.reserveHotBudget pair.commitmentId classified.hotOutflow clock.wall flight.request.expiry
      clock.reserve)
    · intro asked here
      cases here
      exact priced hot
    · rfl
  unfold meterSpend
  simp only [mounted, Option.isSome_some, and_true]
  by_cases hot : classified.txClass = .hot
  · simp only [hot, if_true]
    split
    · exact (reserves hot).trans (moves_stageSpendCarrier mounted _ _ _)
    · exact (reserves hot).trans (moves_admitReserved mounted _ _ _ _ _ _ _ _ _ _ priced)
  · simp only [hot, if_false]
    exact moves_admitReserved mounted _ _ _ _ _ _ _ _ _ _ priced

theorem moves_judgeSpend (flight : Flight) (verdict : PinVerdict) (carrier : String) (pair : SpendPair) (now : Nat)
    (spendPrevouts escapePrevouts : Option PrevoutFetch) (clock : RegistrationClock)
    (priced : ∀ outflow, node.rules.classify pair.spend = .ok ⟨.hot, outflow⟩ →
      PricedAt node pair.commitmentId outflow) :
    StoreMoves node ch s (node.judgeSpend flight verdict carrier pair now spendPrevouts escapePrevouts clock s).1 := by
  unfold judgeSpend
  simp only
  split
  · split_ifs
    · exact (moves_stageSpendCarrier mounted s _ _).trans (.of_same rfl)
    · exact .of_same rfl
  · split
    · exact .of_same rfl
    next classified known =>
      split_ifs
      · exact .of_same rfl
      · apply moves_meterSpend mounted
        intro hot
        apply priced
        rw [known, ← hot]

theorem moves_replayAccepted (flight : Flight) (verdict : PinVerdict) (carrier : String) (pair : SpendPair) (now : Nat) :
    StoreMoves node ch s (node.replayAccepted flight verdict carrier pair now s) := by
  have scheduled : Reaches (storeStep ch) (Priced node) s.store (s.store.applyCachedSchedule pair.escapeCommitmentId
      (decide (verdict = .duress)) now node.epsilonSecs) :=
    Reaches.single (storeStep ch) (a := .applyCachedSchedule pair.escapeCommitmentId (decide (verdict = .duress)) now
      node.epsilonSecs) (priced_of_silent rfl) s.store
  have attached := scheduled.trans (Reaches.single (storeStep ch)
    (a := .recordIntentPair carrier pair.commitmentId pair.escapeCommitmentId) (priced_of_silent rfl) _)
  apply StoreMoves.trans _ (moves_stageSpendCarrier mounted _ _ _)
  unfold StoreMoves onStore
  simp only [mounted]
  exact attached

theorem moves_answerPair (flight : Flight) (verdict : PinVerdict) (carrier : String) (pair : SpendPair) (now : Nat)
    (spendPrevouts escapePrevouts : Option PrevoutFetch) (clock : RegistrationClock)
    (priced : ∀ outflow, node.rules.classify pair.spend = .ok ⟨.hot, outflow⟩ →
      PricedAt node pair.commitmentId outflow) :
    StoreMoves node ch s (node.answerPair flight verdict carrier pair now spendPrevouts escapePrevouts clock s).1 := by
  have pruned : StoreMoves node ch s { s with sign := { s.sign with replay := ReplayLog.prune s.sign.replay now } } :=
    .of_same rfl
  unfold answerPair
  simp only
  split
  · exact pruned.trans (moves_replayAccepted mounted _ _ _ _ _ _)
  · split
    · exact pruned
    · split
      · exact pruned.trans (moves_stageSpendCarrier mounted _ _ _)
      · exact (pruned.trans (moves_pruneLogs mounted _ _ _)).trans
          (moves_judgeSpend mounted _ _ _ _ _ _ _ _ _ priced)

theorem moves_registrationHold (flight : Flight) (verdict : PinVerdict) (carrier : String)
    (spendPrevouts escapePrevouts : Option PrevoutFetch) (clock : RegistrationClock) :
    StoreMoves node ch s (node.registrationHold flight verdict carrier spendPrevouts escapePrevouts clock s).1 := by
  unfold registrationHold
  split_ifs
  · exact .of_same rfl
  · simp only
    split
    · exact moves_stageSpendCarrier mounted s _ _
    · split
      · exact .of_same rfl
      next pair decoded =>
        apply moves_answerPair mounted
        intro outflow hot
        obtain ⟨parsed, named⟩ := decodePair_spend decoded
        exact ⟨flight.request.psbt, pair.spend, flight.request.expiry, parsed, named.symm, hot⟩

/-! ### The other sections -/

theorem moves_ingressSection (request : TaggedRequest) (wall mono : Nat) :
    StoreMoves node ch s (node.ingressSection request wall mono s).1 := by
  cases request with
  | spend request =>
    unfold ingressSection ingressHold
    simp only [mounted, Option.map_some]
    split_ifs
    · exact .of_same rfl
    · split
      · exact .of_same rfl
      · split
        · exact .of_same rfl
        · split
          · exact .of_same rfl
          · exact .silent (.claimNonceInFlight _ _ _) rfl rfl
  | refresh request =>
    unfold ingressSection refreshIngressHold
    simp only
    split_ifs
    · exact .of_same rfl
    · split
      · exact .of_same rfl
      · split
        · exact .of_same rfl
        · exact .of_same rfl

theorem moves_commitHold (flight : Flight) (verdict : PinVerdict) (carrier : String) (wall : Nat) :
    StoreMoves node ch s (node.commitHold flight verdict carrier wall s).1 := by
  unfold commitHold
  by_cases locked : s.lockdown = true
  · rw [if_pos locked]
    exact .of_same rfl
  rw [if_neg locked]
  have hooked : StoreMoves node ch s _ :=
    moves_fireArmHook s verdict carrier flight (s.sign.coordNonces.effectiveNow wall)
  simp only
  cases node.clockRefusal "post-pin" flight.request.expiry wall (s.sign.coordNonces.effectiveNow wall) with
  | some refused => exact hooked.trans (moves_stageSpendCarrier mounted _ _ _)
  | none =>
    generalize node.fireArmHook verdict carrier flight (s.sign.coordNonces.effectiveNow wall) s = hook at hooked ⊢
    generalize hook.1.sign.pinBudget.charge verdict _ node.pinBudgetConfig = charged
    simp only
    by_cases refuse : charged.2.refuse = true
    · rw [if_pos refuse]
      refine hooked.trans (.trans (.of_same ?_) (moves_stageSpendCarrier mounted _ _ _))
      rfl
    · rw [if_neg refuse]
      exact hooked.trans (.of_same rfl)

theorem moves_admitRefresh (request : RefreshRequest) (candidate : RefreshCandidate) (now registerMono : Nat) :
    StoreMoves node ch s (node.admitRefresh request candidate now registerMono s).1 := by
  unfold admitRefresh
  split
  · exact .of_same rfl
  · simp only
    split
    next registered => exact StoreMoves.of_call registered (moves_registerPair mounted _ _ _ (by simp))
    next registered =>
      exact (StoreMoves.of_call registered (moves_registerPair mounted _ _ _ (by simp))).trans (.of_same rfl)

theorem moves_judgeRefresh (request : RefreshRequest) (candidate : RefreshCandidate) (now : Nat)
    (prevouts : Option PrevoutFetch) (registerMono : Nat) :
    StoreMoves node ch s (node.judgeRefresh request candidate now prevouts registerMono s).1 := by
  unfold judgeRefresh
  split
  · exact .of_same rfl
  · split
    · exact .of_same rfl
    · split_ifs
      · unfold boundRefresh
        split_ifs
        · exact .of_same rfl
        · split
          · exact .of_same rfl
          · split
            · exact .of_same rfl
            · exact moves_admitRefresh mounted s request candidate now registerMono
      · exact .of_same rfl

theorem moves_refreshRegisterSection (request : RefreshRequest) (reply : Option ChainReply) (clock : RegistrationClock) :
    StoreMoves node ch s (node.refreshRegisterSection request reply clock s).1 := by
  unfold refreshRegisterSection refreshRegistrationHold
  simp only
  split_ifs
  · exact .of_same rfl
  · exact .of_same rfl
  · split
    · exact .of_same rfl
    · unfold answerRefresh
      simp only
      split
      · exact .of_same rfl
      · split
        · exact .of_same rfl
        · exact (StoreMoves.of_same rfl).trans ((moves_pruneLogs mounted { s with
            sign := { s.sign with replay := ReplayLog.prune s.sign.replay _ } } _ _).trans
              (moves_judgeRefresh mounted _ _ _ _ _ _))

/-- Every section of every request. -/
theorem moves_advance {thread : Thread} {t : NodeState} {step : Section} {phase : Phase}
    (taken : node.advance thread s step = some (t, phase)) : StoreMoves node ch s t := by
  cases advanced_of_advance taken with
  | ingress origin request wall mono fresh => exact moves_ingressSection mounted s request wall mono
  | commit origin request flight wall => exact moves_commitHold mounted s _ _ _ wall
  | register origin request flight replies clock => exact moves_registrationHold mounted s _ _ _ _ _ clock
  | refreshRegister origin request reply clock => exact moves_refreshRegisterSection mounted s request reply clock
  | dropClaim origin request result claim mono | wake origin request response claim mono =>
    exact moves_dropClaim s claim mono
  | claimDerivation sender request result carrier generation reserved =>
    exact moves_claimDerivationSection s request sender result carrier generation reserved
  | recordDerivation sender request result carrier generation =>
    exact moves_recordDerivationSection s request sender result carrier generation
  | confirm sender request result carrier now mono => exact .silent (.confirmCarrier _ _ _ _ _ _) rfl rfl
  | staleInspect ch' known sender request reserved now mono nowAgain monoAgain =>
    cases mounted.symm.trans known
    exact moves_staleInspectSection s request sender reserved now mono nowAgain monoAgain
  | staleFinish ch' known sender request carrier generation now mono =>
    cases mounted.symm.trans known
    exact moves_outerStaleClassify s request sender now mono _
  | push | dropSlot | sleep | receiptGuard | refreshReply | receiptLookup | recordedLookup => exact .of_same rfl

/-- Every step of the machine: a background operation is priced by whoever runs it. -/
theorem moves_nodeStep (w : World) (op : NodeOp) (priced : ∀ store, op = .background store → Priced node store) :
    StoreMoves node ch w.node (node.nodeStep w op).1.node := by
  cases op with
  | arrive thread origin request =>
    simp only [nodeStep]
    split_ifs
    · exact .of_same rfl
    · exact .of_same rfl
  | advance thread step =>
    simp only [nodeStep]
    split
    · exact .of_same rfl
    next t phase taken =>
      obtain ⟨held, _, taken⟩ := Option.bind_eq_some_iff.mp taken
      exact moves_advance mounted w.node taken
  | enterLockdown => exact .of_same rfl
  | settleRead key commitmentId =>
    simp only [nodeStep]
    split_ifs
    · exact .of_same rfl
    · exact .of_same rfl
  | settleMark key armedEscape =>
    simp only [nodeStep]
    split
    next commitmentId paired _ =>
      apply StoreMoves.silent _ _ (settleStore_eq commitmentId armedEscape w.node.store)
      cases armedEscape with
      | true => rfl
      | false => rfl
    · exact .of_same rfl
  | settleRelease key =>
    simp only [nodeStep]
    split
    · exact .of_same rfl
    · exact .of_same rfl
  | background op => exact .of_step op (priced op rfl) (by simp [nodeStep, onStore, mounted])

end Sections

end BtcPolicy.Node
