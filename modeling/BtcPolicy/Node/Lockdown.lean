import BtcPolicy.Channel.Accounting
import BtcPolicy.Channel.Lifecycle
import BtcPolicy.Node.Subordination

/-! Lockdown is terminal for ingress. Every hold looks at the flag under the lock that sets it, so a locked-down node
is left to the exits of the requests that had passed an earlier hold. -/

namespace BtcPolicy.Node
open FiniteMap Word Bitcoin HotLedger Replay Channel Pin Policy Runs PartialStore NodeConfig

/-! ### The registry -/

/-- The same memo, up to the senders whose signature a derivation has settled. -/
def SameMemo (earlier later : CarrierMemo) : Prop :=
  later = earlier ∨ ∃ carrier tag resolved more, earlier.outcome = .derived carrier tag resolved ∧
    later = { earlier with outcome := .derived carrier tag more }

/-- The same intent, up to who holds its carrier, whether it is committed and whether its handler still rules. -/
def SameIntent (earlier later : ArmIntent) : Prop :=
  later = { earlier with
    holders := later.holders
    committed := later.committed
    ownerRuling := later.ownerRuling }

/-- No reservation, no candidate, no memo and no intent that was not there before. -/
structure Subdued (s t : PartialStore) : Prop where
  hotBudget : t.hotBudget = s.hotBudget
  candidates : ∀ id later, t.candidates.lookup id = some later →
    ∃ earlier, s.candidates.lookup id = some earlier ∧ earlier.SameStock later
  memos : ∀ nonce later, t.carriersByNonce.lookup nonce = some later →
    ∃ earlier, s.carriersByNonce.lookup nonce = some earlier ∧ SameMemo earlier later
  intents : ∀ carrier later, t.intents.lookup carrier = some later →
    ∃ earlier, s.intents.lookup carrier = some earlier ∧ SameIntent earlier later

theorem SameMemo.trans {a b c : CarrierMemo} (first : SameMemo a b) (second : SameMemo b c) : SameMemo a c := by
  rcases first with rfl | ⟨carrier, tag, resolved, more, outcome, rfl⟩
  · exact second
  · rcases second with rfl | ⟨_, _, _, last, same, rfl⟩
    · exact .inr ⟨carrier, tag, resolved, more, outcome, rfl⟩
    · cases same
      exact .inr ⟨carrier, tag, resolved, last, outcome, rfl⟩

theorem SameIntent.trans {a b c : ArmIntent} (first : SameIntent a b) (second : SameIntent b c) : SameIntent a c := by
  unfold SameIntent at first second ⊢
  rw [second, first]

namespace Subdued

theorem refl (s : PartialStore) : Subdued s s where
  hotBudget := rfl
  candidates := fun _ later found => ⟨later, found, Candidate.SameStock.refl later⟩
  memos := fun _ later found => ⟨later, found, .inl rfl⟩
  intents := fun _ later found => ⟨later, found, rfl⟩

theorem trans {a b c : PartialStore} (first : Subdued a b) (second : Subdued b c) : Subdued a c where
  hotBudget := second.hotBudget.trans first.hotBudget
  candidates := by
    intro id last found
    obtain ⟨middle, atMiddle, later⟩ := second.candidates id last found
    obtain ⟨earlier, atEarlier, before⟩ := first.candidates id middle atMiddle
    exact ⟨earlier, atEarlier, before.trans later⟩
  memos := by
    intro nonce last found
    obtain ⟨middle, atMiddle, later⟩ := second.memos nonce last found
    obtain ⟨earlier, atEarlier, before⟩ := first.memos nonce middle atMiddle
    exact ⟨earlier, atEarlier, before.trans later⟩
  intents := by
    intro carrier last found
    obtain ⟨middle, atMiddle, later⟩ := second.intents carrier last found
    obtain ⟨earlier, atEarlier, before⟩ := first.intents carrier middle atMiddle
    exact ⟨earlier, atEarlier, before.trans later⟩

variable (s : PartialStore)

theorem releaseNonceClaim (nonce : String) (generation : MemoGeneration) :
    Subdued s (s.releaseNonceClaim nonce generation) := by
  unfold PartialStore.releaseNonceClaim
  split_ifs
  · exact { refl s with memos := fun _ later found => ⟨later, (lookup_erase_some.mp found).2, .inl rfl⟩ }
  · exact refl s

theorem updateIntent {f : ArmIntent → ArmIntent} (same : ∀ intent, SameIntent intent (f intent)) (carrier : String) :
    Subdued s (s.updateIntent carrier f) :=
  { refl s with
    intents := by
      intro other later found
      obtain ⟨earlier, present, rfl | ⟨_, rfl⟩⟩ := lookup_adjust_some found
      · exact ⟨later, present, rfl⟩
      · exact ⟨earlier, present, same earlier⟩ }

theorem retireCarrier (carrier : String) : Subdued s (s.retireCarrier carrier) :=
  { refl s with
    memos := fun _ later found => ⟨later, (lookup_retain_some.mp found).1, .inl rfl⟩
    intents := fun _ later found => ⟨later, (lookup_erase_some.mp found).2, rfl⟩ }

theorem endCarrierRuling (carrier : String) (monoNow : Nat) : Subdued s (s.endCarrierRuling carrier monoNow) := by
  have ended : Subdued s (s.updateIntent carrier (fun intent => { intent with ownerRuling := false })) := by
    apply updateIntent
    intro intent
    rfl
  unfold PartialStore.endCarrierRuling
  split
  · simp only
    split_ifs
    · exact ended.trans (retireCarrier _ carrier)
    · exact ended
  · exact refl s

theorem resolveSignature (nonce : String) (sender : Nat) (tag : Bytes) :
    Subdued s (s.resolveSignature nonce sender tag) :=
  { refl s with
    memos := by
      intro other later found
      obtain ⟨earlier, present, rfl | ⟨_, rfl⟩⟩ := lookup_adjust_some found
      · exact ⟨later, present, .inl rfl⟩
      · refine ⟨earlier, present, ?_⟩
        cases outcome : earlier.outcome with
        | inFlight own => exact .inl rfl
        | derived carrier own resolved => exact .inr ⟨carrier, own, resolved, _, outcome, rfl⟩ }

theorem claimCarrierDerivation (nonce : String) (sender : Nat) (carrier : String) :
    Subdued s (s.claimCarrierDerivation nonce sender carrier).1 := by
  unfold PartialStore.claimCarrierDerivation
  split_ifs
  · split
    · exact refl s
    · split
      · split_ifs
        · exact resolveSignature s nonce sender _
        · exact refl s
      · exact refl s
  · exact refl s

theorem recordCarrierDerivationResult (nonce : String) (sender : Nat) (tag : Bytes) (generation : MemoGeneration)
    (carrier : String) : Subdued s (s.recordCarrierDerivationResult nonce sender tag generation carrier).1 := by
  unfold PartialStore.recordCarrierDerivationResult
  split
  · exact refl s
  · split
    · split_ifs
      · exact resolveSignature s nonce sender tag
      · exact refl s
    · exact refl s

/-- A receipt counts a holder of an intent that is there, and at most commits it. -/
theorem confirmCarrier (sender : Nat) (carrier : String) (threshold now : Nat) (timing : DuressTiming)
    (monoNow : Nat) : Subdued s (s.confirmCarrier sender carrier threshold now timing monoNow).1 := by
  have counted : Subdued s (s.addHolder sender carrier) := by
    apply updateIntent
    intro intent
    rfl
  have conserved := conserved_confirmCarrier s sender carrier threshold now timing monoNow
  obtain ⟨_, same | same⟩ | ⟨intent, _, same⟩ := confirmCarrier_cases s sender carrier threshold now timing monoNow
  · rw [same]
    exact refl s
  · rw [same]
    exact counted
  · have budget : ∀ (id : String) (s : PartialStore), (s.refreshEscapeWindow id).hotBudget = s.hotBudget := by
      intro id s
      unfold refreshEscapeWindow
      split <;> rfl
    have committed : Subdued s ((s.addHolder sender carrier).markCommitted carrier) := by
      apply counted.trans
      apply updateIntent
      intro intent
      rfl
    have retired := committed.trans (retireCarrier _ carrier)
    refine ⟨?_, conserved.stock, ?_, ?_⟩
    · rw [same]
      simp only [applyWrites, confirmWrites, List.foldl_cons, List.foldl_nil]
      simp only [PartialStore.retireCarrier, budget]
      rfl
    · rw [same, confirmed_carriersByNonce]
      exact retired.memos
    · rw [same, confirmed_intents]
      exact retired.intents

end Subdued

/-! ### One section -/

/-- A write of a receipt that had passed the flag before the transition. -/
inductive ReceiptWrite (node : NodeConfig) (s : NodeState) : PartialStore → Prop where
  | looked : ReceiptWrite node s s.store
  | claimed (nonce : String) (sender : Nat) (carrier : String) :
      ReceiptWrite node s (s.store.claimCarrierDerivation nonce sender carrier).1
  | recorded (nonce : String) (sender : Nat) (tag : Bytes) (generation : MemoGeneration) (carrier : String) :
      ReceiptWrite node s (s.store.recordCarrierDerivationResult nonce sender tag generation carrier).1
  | confirmed (sender : Nat) (carrier : String) (now mono : Nat) :
      ReceiptWrite node s
        (s.store.confirmCarrier sender carrier node.threshold (s.sign.coordNonces.effectiveNow now) node.duressTiming
          mono).1

/-- The handler of the request has a hold ahead of it. -/
def Thread.awaits (thread : Thread) : Bool :=
  match thread.origin, thread.request, thread.phase with
  | .outerStale _, _, .arrived => false
  | _, _, .arrived | _, _, .windowA _ | _, _, .windowB _ => true
  | _, .refresh _, .refreshWindow => true
  | _, _, _ => false

/-- Everything a section can do on a node that is locked down. -/
inductive Locked (node : NodeConfig) (s : NodeState) (thread : Thread) : NodeState → Phase → Prop where
  | refused (awaits : thread.awaits = true) (phase : Phase)
      (answer : phase = .answered (.ok fraudSuspected) ∨ ∃ claim, phase = .leaving (.ok fraudSuspected) claim) :
      Locked node s thread s phase
  | replied (handled : thread.awaits = false) (reply : ChannelReply) : Locked node s thread s (.replied reply)
  | pushed (response : SignResponse) (unsent : thread.phase = .unsent response) :
      Locked node s thread { s with outbox := s.outbox ++ [thread.request] } (.answered (.ok response))
  | unclaimed (claim : Option MemoGuard) (mono : Nat) (result : SignResult)
      (leaving : thread.phase = .leaving result claim) :
      Locked node s thread (dropClaim claim mono s) (.unclaimed result)
  | woken (claim : Option MemoGuard) (mono : Nat) (response : SignResponse)
      (sleeping : thread.phase = .sleeping response claim) :
      Locked node s thread (dropClaim claim mono s) (.answered (.ok response))
  | returned (result : SignResult) (unclaimed : thread.phase = .unclaimed result) :
      Locked node s thread (exitSpendPreflight s) (.answered result)
  | slept (response : SignResponse) (claim : Option MemoGuard) (backoff : thread.phase = .backoff response claim) :
      Locked node s thread (exitSpendPreflight s) (.sleeping response claim)
  | receipt (result : SignResult) (standing : Receipt) (past : thread.phase = .receipt result standing)
      (store : PartialStore) (write : ReceiptWrite node s store) (phase : Phase)
      (next : (∃ later, phase = .receipt result later) ∨ ∃ reply, phase = .replied reply) :
      Locked node s thread { s with store := store } phase

theorem receiptPhase_next (result : SignResult) (found : CarrierMemoLookup) :
    (∃ later, receiptPhase result found = .receipt result later) ∨
      ∃ reply, receiptPhase result found = .replied reply := by
  cases found with
  | exact carrier => exact .inl ⟨_, rfl⟩
  | deriveForConfirmation carrier generation => exact .inl ⟨_, rfl⟩
  | vacant | skip | inFlight | awaitingPropagation | clockRefused => exact .inr ⟨_, rfl⟩

theorem recordedPhase_next (result : SignResult) (found : CarrierMemoLookup) :
    (∃ later, recordedPhase result found = .receipt result later) ∨
      ∃ reply, recordedPhase result found = .replied reply := by
  cases found with
  | exact carrier => exact .inl ⟨_, rfl⟩
  | deriveForConfirmation carrier generation => exact .inr ⟨_, rfl⟩
  | vacant | skip | inFlight | awaitingPropagation | clockRefused => exact .inr ⟨_, rfl⟩

section Sections

variable {node : NodeConfig} {s : NodeState} (locked : s.lockdown = true)

include locked

theorem ingressSection_locked (request : TaggedRequest) (wall mono : Nat) :
    node.ingressSection request wall mono s = (s, .answered (.ok fraudSuspected)) := by
  cases request with
  | spend request => simp [ingressSection, ingressHold, locked]
  | refresh request => simp [ingressSection, refreshIngressHold, locked]

theorem commitSection_locked (flight : Flight) (wall : Nat) :
    node.commitSection flight wall s = (s, .leaving (.ok fraudSuspected) flight.claim) := by
  simp [commitSection, commitHold, locked]

theorem registerSection_locked (flight : Flight) (replies : Option (ChainReply × ChainReply))
    (clock : RegistrationClock) :
    node.registerSection flight replies clock s = (s, .leaving (.ok fraudSuspected) flight.claim) := by
  simp [registerSection, registrationHold, locked]

theorem refreshRegisterSection_locked (request : RefreshRequest) (reply : Option ChainReply)
    (clock : RegistrationClock) :
    node.refreshRegisterSection request reply clock s = (s, .answered (.ok fraudSuspected)) := by
  simp [refreshRegisterSection, refreshRegistrationHold, locked]

theorem outerStaleClassify_locked (ch : ChannelState) (request : SignRequest) (sender now mono : Nat)
    (step : OuterStaleStep) : node.outerStaleClassify ch request sender now mono step s = (s, .terminal) := by
  simp [outerStaleClassify, locked]

theorem staleInspectSection_locked (ch : ChannelState) (request : TaggedRequest) (sender : Nat) (reserved : Bool)
    (now mono nowAgain monoAgain : Nat) :
    node.staleInspectSection ch request sender reserved now mono nowAgain monoAgain s =
      (s, .replied (.rejected .staleTimestamp)) := by
  cases request with
  | refresh request => rfl
  | spend request => simp [staleInspectSection, outerStaleClassify_locked locked, staleReply]

/-- Every section of every request, under the flag. -/
theorem advance_locked {thread : Thread} {step : Section} {t : NodeState} {phase : Phase}
    (taken : node.advance thread s step = some (t, phase)) : Locked node s thread t phase := by
  cases advanced_of_advance taken with
  | ingress origin request wall mono fresh =>
    rw [ingressSection_locked locked]
    refine .refused ?_ _ (.inl rfl)
    cases origin with
    | outerStale sender => exact absurd rfl (fresh sender)
    | direct | relayed sender => rfl
  | push origin request response => exact .pushed _ rfl
  | commit origin request flight wall =>
    rw [commitSection_locked locked]
    exact .refused (by cases origin <;> rfl) _ (.inr ⟨_, rfl⟩)
  | register origin request flight replies clock =>
    rw [registerSection_locked locked]
    exact .refused (by cases origin <;> rfl) _ (.inr ⟨_, rfl⟩)
  | refreshRegister origin request reply clock =>
    rw [refreshRegisterSection_locked locked]
    exact .refused (by cases origin <;> rfl) _ (.inl rfl)
  | dropClaim origin request result claim mono => exact .unclaimed _ mono _ rfl
  | wake origin request response claim mono => exact .woken _ mono _ rfl
  | dropSlot origin request result => exact .returned _ rfl
  | sleep origin request response claim => exact .slept _ _ rfl
  | receiptGuard sender request result =>
    simp only [locked, Bool.not_true, Bool.false_and, Bool.false_eq_true, if_false]
    exact .replied rfl _
  | refreshReply sender request result => exact .replied rfl _
  | receiptLookup ch mounted sender request result now mono =>
    exact .receipt _ _ rfl _ .looked _ (receiptPhase_next _ _)
  | recordedLookup ch mounted sender request result now mono =>
    exact .receipt _ _ rfl _ .looked _ (recordedPhase_next _ _)
  | claimDerivation sender request result carrier generation reserved =>
    unfold claimDerivationSection
    split_ifs
    · simp only
      split_ifs
      · exact .receipt _ _ rfl _ (.claimed _ _ _) _ (.inl ⟨_, rfl⟩)
      · exact .receipt _ _ rfl _ (.claimed _ _ _) _ (.inr ⟨_, rfl⟩)
    · exact .receipt _ _ rfl _ .looked _ (.inr ⟨_, rfl⟩)
  | recordDerivation sender request result carrier generation =>
    unfold recordDerivationSection
    split_ifs
    · simp only
      split_ifs
      · exact .receipt _ _ rfl _ (.recorded _ _ _ _ _) _ (.inl ⟨_, rfl⟩)
      · exact .receipt _ _ rfl _ (.recorded _ _ _ _ _) _ (.inr ⟨_, rfl⟩)
    · exact .receipt _ _ rfl _ .looked _ (.inr ⟨_, rfl⟩)
  | confirm sender request result carrier now mono =>
    unfold confirmSection
    simp only
    split_ifs
    · exact .receipt _ _ rfl _ (.confirmed _ _ now mono) _ (.inr ⟨_, rfl⟩)
    · exact .receipt _ _ rfl _ (.confirmed _ _ now mono) _ (.inr ⟨_, rfl⟩)
  | staleInspect ch mounted sender request reserved now mono nowAgain monoAgain =>
    rw [staleInspectSection_locked locked]
    exact .replied rfl _
  | staleFinish ch mounted sender request carrier generation now mono =>
    unfold staleFinishSection
    simp only [outerStaleClassify_locked locked]
    exact .replied rfl _

end Sections

/-! ### What a locked-down node still lets through -/

/-- No nonce, verdict, timer, interval clock or attempt is written, nothing is authorized, no hook fires, and the
registry is subdued. -/
structure Quiet (s t : NodeState) : Prop where
  sign : t.sign = s.sign
  authorized : t.authorized = s.authorized
  duressArm : t.duressArm = s.duressArm
  store : Subdued s.store t.store

theorem Quiet.refl (s : NodeState) : Quiet s s := ⟨rfl, rfl, rfl, Subdued.refl s.store⟩

theorem ReceiptWrite.subdued {node : NodeConfig} {s : NodeState} {store : PartialStore}
    (write : ReceiptWrite node s store) : Subdued s.store store := by
  cases write with
  | looked => exact Subdued.refl s.store
  | claimed nonce sender carrier => exact Subdued.claimCarrierDerivation s.store nonce sender carrier
  | recorded nonce sender tag generation carrier =>
    exact Subdued.recordCarrierDerivationResult s.store nonce sender tag generation carrier
  | confirmed sender carrier now mono => exact Subdued.confirmCarrier s.store sender carrier _ _ _ mono

theorem quiet_dropClaim (claim : Option MemoGuard) (mono : Nat) (s : NodeState) : Quiet s (dropClaim claim mono s) := by
  cases claim with
  | none => exact Quiet.refl s
  | some guard =>
    refine ⟨rfl, rfl, rfl, ?_⟩
    have released : Subdued s.store
        (if guard.ownsMemo then s.store.releaseNonceClaim guard.nonce guard.generation else s.store) := by
      split_ifs
      · exact Subdued.releaseNonceClaim s.store guard.nonce guard.generation
      · exact Subdued.refl s.store
    unfold dropClaim
    simp only
    cases guard.rulingCarrier with
    | none => exact released
    | some carrier => exact released.trans (Subdued.endCarrierRuling _ carrier mono)

section Locked

variable {node : NodeConfig} {s t : NodeState} {thread : Thread} {phase : Phase}

theorem Locked.quiet (moved : Locked node s thread t phase) : Quiet s t := by
  cases moved with
  | refused | replied => exact Quiet.refl s
  | pushed | returned | slept => exact ⟨rfl, rfl, rfl, Subdued.refl s.store⟩
  | unclaimed claim mono | woken claim mono => exact quiet_dropClaim claim mono s
  | receipt result standing past store write => exact ⟨rfl, rfl, rfl, write.subdued⟩

/-- Only a refusal on the delivery horizon that was decided before still owes the outbox its carrier. -/
theorem Locked.outbox (moved : Locked node s thread t phase) :
    t.outbox = s.outbox ∨
      (∃ response, thread.phase = .unsent response) ∧ t.outbox = s.outbox ++ [thread.request] := by
  cases moved with
  | refused | replied | returned | slept | receipt => exact .inl rfl
  | pushed response unsent => exact .inr ⟨⟨response, unsent⟩, rfl⟩
  | unclaimed claim | woken claim =>
    cases claim with
    | none => exact .inl rfl
    | some guard => exact .inl rfl

/-- The registry is written by the request's own guard and by a receipt past the flag only. -/
theorem Locked.store (moved : Locked node s thread t phase) :
    t.store = s.store ∨
      (∃ claim mono, ((∃ result, thread.phase = .leaving result claim) ∨
        ∃ response, thread.phase = .sleeping response claim) ∧ t = dropClaim claim mono s) ∨
      ∃ result standing, thread.phase = .receipt result standing := by
  cases moved with
  | refused | replied | pushed | returned | slept => exact .inl rfl
  | unclaimed claim mono result leaving => exact .inr (.inl ⟨claim, mono, .inl ⟨result, leaving⟩, rfl⟩)
  | woken claim mono response sleeping => exact .inr (.inl ⟨claim, mono, .inr ⟨response, sleeping⟩, rfl⟩)
  | receipt result standing past => exact .inr (.inr ⟨result, standing, past⟩)

/-- What the phase of a request says about where it stood at the transition. -/
structure Traces (standing : Option Phase) (phase : Phase) : Prop where
  decided : ∀ result, phase.decided = some result → result = .ok fraudSuspected ∨
    ∃ earlier, standing = some earlier ∧ earlier.decided = some result
  unsent : ∀ response, phase = .unsent response → standing = some (.unsent response)
  receipt : ∀ result later, phase = .receipt result later → ∃ first earlier, standing = some (.receipt first earlier)

theorem traces_self (phase : Phase) : Traces (some phase) phase where
  decided := fun _ answer => .inr ⟨phase, rfl, answer⟩
  unsent := fun _ same => congrArg some same
  receipt := fun result later same => ⟨result, later, congrArg some same⟩

/-- A phase that has an answer only if the phase before it had the same one. -/
theorem Traces.carry {standing : Option Phase} {before after : Phase} (traces : Traces standing before)
    (answer : after.decided = before.decided) (sent : ∀ response, after ≠ .unsent response)
    (handled : ∀ result later, after ≠ .receipt result later) : Traces standing after where
  decided := fun result here => traces.decided result (answer ▸ here)
  unsent := fun response same => absurd same (sent response)
  receipt := fun result later same => absurd same (handled result later)

theorem traces_of_undecided {standing : Option Phase} {phase : Phase} (undecided : phase.decided = none) :
    Traces standing phase := by
  refine ⟨?_, ?_, ?_⟩
  · intro result answer
    rw [undecided] at answer
    cases answer
  · rintro response rfl
    cases undecided
  · rintro result later rfl
    cases undecided

theorem traces_fraud {standing : Option Phase} {phase : Phase}
    (answer : phase = .answered (.ok fraudSuspected) ∨ ∃ claim, phase = .leaving (.ok fraudSuspected) claim) :
    Traces standing phase := by
  rcases answer with rfl | ⟨claim, rfl⟩
  · exact ⟨fun _ same => .inl (Option.some.inj same).symm, nofun, fun _ _ same => nomatch same⟩
  · exact ⟨fun _ same => .inl (Option.some.inj same).symm, nofun, fun _ _ same => nomatch same⟩

theorem Locked.traces {standing : Option Phase} (moved : Locked node s thread t phase)
    (traces : Traces standing thread.phase) : Traces standing phase := by
  cases moved with
  | refused awaits phase answer => exact traces_fraud answer
  | replied handled reply => exact traces_of_undecided rfl
  | pushed response unsent => exact traces.carry (by rw [unsent]; rfl) nofun (fun _ _ same => nomatch same)
  | unclaimed claim mono result leaving => exact traces.carry (by rw [leaving]; rfl) nofun (fun _ _ same => nomatch same)
  | woken claim mono response sleeping => exact traces.carry (by rw [sleeping]; rfl) nofun (fun _ _ same => nomatch same)
  | returned result unclaimed => exact traces.carry (by rw [unclaimed]; rfl) nofun (fun _ _ same => nomatch same)
  | slept response claim backoff => exact traces.carry (by rw [backoff]; rfl) nofun (fun _ _ same => nomatch same)
  | receipt result standing past store write phase next =>
    rcases next with ⟨later, rfl⟩ | ⟨reply, rfl⟩
    · refine ⟨?_, nofun, fun _ _ _ => traces.receipt result standing past⟩
      intro answer same
      exact traces.decided answer (by rw [past]; exact same)
    · exact traces_of_undecided rfl

end Locked

/-! ### Every interleaving -/

section Machine

variable (node : NodeConfig)

/-- The flag is set, and every request traces back to where it stood in `w`. -/
structure Sealed (w later : World) : Prop where
  lockdown : later.node.lockdown = true
  traces : ∀ thread phase, later.phaseOf thread = some phase → Traces (w.phaseOf thread) phase

/-- A request that arrives later is answered before it takes the lock, or is not a request to the handler. -/
theorem arrival_traces {s : NodeState} (locked : s.lockdown = true) (origin : Origin) (standing : Option Phase) :
    Traces standing (node.arrival origin s) := by
  unfold arrival
  simp only [locked, if_true]
  cases origin with
  | direct => exact traces_fraud (.inl rfl)
  | relayed sender =>
    simp only
    split_ifs
    · exact traces_of_undecided rfl
    · exact traces_fraud (.inl rfl)
  | outerStale sender =>
    simp only
    split_ifs
    · exact traces_of_undecided rfl
    · exact traces_of_undecided rfl

theorem nodeStep_sealed {w later : World} (op : NodeOp) (closed : Sealed w later) :
    Sealed w (node.nodeStep later op).1 := by
  obtain ⟨threads, _, lockdown⟩ | ⟨thread, origin, request, _, absent, after⟩ |
    ⟨thread, step, held, s, phase, _, known, taken, after⟩ := nodeStep_cases node later op
  · refine ⟨lockdown closed.lockdown, ?_⟩
    intro t phase here
    apply closed.traces t phase
    rwa [World.phaseOf, threads] at here
  · rw [after]
    refine ⟨closed.lockdown, ?_⟩
    intro t phase here
    simp only [World.phaseOf, lookup_insert_eq] at here
    split_ifs at here with same
    · cases here
      exact arrival_traces node closed.lockdown origin _
    · exact closed.traces t phase here
  · have moved := advance_locked closed.lockdown taken
    rw [after]
    refine ⟨(advance_moves taken).lockdown.trans closed.lockdown, ?_⟩
    intro t later here
    simp only [World.phaseOf, lookup_adjust] at here
    split_ifs at here with same
    · subst same
      rw [known] at here
      cases here
      exact moved.traces (closed.traces t held.phase (by simp [World.phaseOf, known]))
    · exact closed.traces t later here

/-- Everything after the transition. -/
theorem nodeAfter_sealed (s : NodeState) (before after : List NodeOp) :
    Sealed (node.nodeAfter s (before ++ [.enterLockdown])) (node.nodeAfter s (before ++ .enterLockdown :: after)) := by
  have split : before ++ .enterLockdown :: after = (before ++ [.enterLockdown]) ++ after := by simp
  rw [split, nodeAfter_append node s (before ++ [NodeOp.enterLockdown]) after]
  apply exec_invariant node.nodeStep (Sealed (node.nodeAfter s (before ++ [NodeOp.enterLockdown])))
    (fun later op closed => nodeStep_sealed node op closed)
  refine ⟨?_, fun thread phase here => ?_⟩
  · rw [nodeAfter_append]
    rfl
  · rw [here]
    exact traces_self phase

/-- A request with a hold ahead of it can take it, and what it gets there is the refusal. -/
theorem awaits_refused {s : NodeState} (locked : s.lockdown = true) {held : Thread} (awaits : held.awaits = true) :
    (∃ step out, node.advance held s step = some out) ∧
      ∀ step t phase, node.advance held s step = some (t, phase) →
        t = s ∧ phase.decided = some (.ok fraudSuspected) := by
  constructor
  · obtain ⟨origin, request, phase⟩ := held
    cases phase with
    | arrived =>
      cases origin with
      | outerStale sender => cases awaits
      | direct | relayed sender => exact ⟨.ingress 0 0, _, rfl⟩
    | windowA flight => exact ⟨.commit 0, _, rfl⟩
    | windowB flight => exact ⟨.register none ⟨0, 0, 0, 0⟩, _, rfl⟩
    | refreshWindow =>
      cases request with
      | spend request => cases origin <;> cases awaits
      | refresh request => exact ⟨.refreshRegister none ⟨0, 0, 0, 0⟩, _, rfl⟩
    | unsent | leaving | unclaimed | backoff | sleeping | answered | receipt | staleDeriving | replied =>
      cases origin <;> cases request <;> cases awaits
  · intro step t phase taken
    have undecided : ∀ {phase : Phase}, held.phase = phase → phase.decided = none ∨ held.awaits = false := by
      intro phase same
      obtain ⟨origin, request, here⟩ := held
      cases same
      cases here <;> first
        | exact .inl rfl
        | (right; cases origin <;> cases request <;> rfl)
    have waiting : ∀ {phase : Phase}, held.phase = phase → phase.decided ≠ none → False := by
      intro phase same decided
      rcases undecided same with none | calm
      · exact decided none
      · rw [awaits] at calm
        cases calm
    cases advance_locked locked taken with
    | refused _ phase answer =>
      rcases answer with rfl | ⟨claim, rfl⟩
      · exact ⟨rfl, rfl⟩
      · exact ⟨rfl, rfl⟩
    | replied handled reply =>
      rw [awaits] at handled
      cases handled
    | pushed response unsent => exact (waiting unsent nofun).elim
    | unclaimed claim mono result leaving => exact (waiting leaving nofun).elim
    | woken claim mono response sleeping => exact (waiting sleeping nofun).elim
    | returned result unclaimed => exact (waiting unclaimed nofun).elim
    | slept response claim backoff => exact (waiting backoff nofun).elim
    | receipt result standing past => exact (waiting past nofun).elim

/-- After the terminal transition, in every interleaving: no section of a request writes the signing logs or the
authorized set, reserves, registers, claims, upgrades or records anything; the outbox grows only by a carrier whose
refusal on the delivery horizon was decided before; the registry is touched only by a request's own exit guard and
by a receipt that had passed the flag before; and every request still ahead of a hold is answered with the fraud
refusal there. -/
theorem lockdown_terminal_for_ingress (s : NodeState) (before after : List NodeOp) :
    let locked := node.nodeAfter s (before ++ [.enterLockdown])
    let w := node.nodeAfter s (before ++ .enterLockdown :: after)
    (∀ thread origin request, (node.nodeStep w (.arrive thread origin request)).1.node = w.node) ∧
    (∀ thread held step, w.threads.lookup thread = some held →
      let next := (node.nodeStep w (.advance thread step)).1.node
      Quiet w.node next ∧
      (next.outbox = w.node.outbox ∨ (∃ response, locked.phaseOf thread = some (.unsent response)) ∧
        next.outbox = w.node.outbox ++ [held.request]) ∧
      (next.store = w.node.store ∨
        (∃ claim mono, ((∃ result, held.phase = .leaving result claim) ∨
          ∃ response, held.phase = .sleeping response claim) ∧ next = dropClaim claim mono w.node) ∨
        ∃ result standing, locked.phaseOf thread = some (.receipt result standing))) ∧
    (∀ thread held, w.threads.lookup thread = some held → held.awaits = true →
      (∃ step out, node.advance held w.node step = some out) ∧
        ∀ step t phase, node.advance held w.node step = some (t, phase) →
          t = w.node ∧ phase.decided = some (.ok fraudSuspected)) ∧
    ∀ thread phase result, w.phaseOf thread = some phase → phase.decided = some result →
      result = .ok fraudSuspected ∨
        ∃ earlier, locked.phaseOf thread = some earlier ∧ earlier.decided = some result := by
  intro locked w
  have closed : Sealed locked w := nodeAfter_sealed node s before after
  refine ⟨?_, ?_, ?_, ?_⟩
  · intro thread origin request
    simp only [nodeStep]
    split_ifs <;> rfl
  · intro thread held step known
    cases taken : node.advance held w.node step with
    | none =>
      have same : (node.nodeStep w (.advance thread step)).1 = w := by simp [nodeStep, known, taken]
      rw [same]
      exact ⟨Quiet.refl _, .inl rfl, .inl rfl⟩
    | some out =>
      obtain ⟨t, phase⟩ := out
      have stepped : (node.nodeStep w (.advance thread step)).1.node = t := by simp [nodeStep, known, taken]
      have moved := advance_locked closed.lockdown taken
      have traced := closed.traces thread held.phase (by simp [World.phaseOf, known])
      rw [stepped]
      refine ⟨moved.quiet, ?_, ?_⟩
      · rcases moved.outbox with same | ⟨⟨response, unsent⟩, pushed⟩
        · exact .inl same
        · exact .inr ⟨⟨response, traced.unsent response unsent⟩, pushed⟩
      · rcases moved.store with same | exits | ⟨result, standing, past⟩
        · exact .inl same
        · exact .inr (.inl exits)
        · exact .inr (.inr (traced.receipt result standing past))
  · intro thread held known awaits
    exact awaits_refused node closed.lockdown awaits
  · intro thread phase result here decided
    exact (closed.traces thread phase here).decided result decided

end Machine

namespace Sample
open Channel.Sample

/-- A spend in its first window when the node locks down. -/
def overtakenEntry : List NodeOp :=
  [.arrive 1 .direct (.spend (spendRequest "nonce-a" 5000)), .advance 1 (.ingress 110 110)]

theorem lockdown_terminal_for_overtaken :
    Quiet (node.nodeAfter start (overtakenEntry ++ [.enterLockdown])).node
        (node.nodeStep (node.nodeAfter start (overtakenEntry ++ [.enterLockdown])) (.advance 1 (.commit 120))).1.node ∧
      (∃ step out, node.advance ⟨.direct, .spend (spendRequest "nonce-a" 5000),
          .windowA ⟨spendRequest "nonce-a" 5000, 110, some ⟨leBytes 32 1, 5000, 5000⟩,
            some ⟨"nonce-a", ⟨leBytes 32 1, 5000, 5000⟩, true, none⟩⟩⟩
          (node.nodeAfter start (overtakenEntry ++ [.enterLockdown])).node step = some out) ∧
      ((.ok fraudSuspected : SignResult) = .ok fraudSuspected ∨
        ∃ earlier, (node.nodeAfter start (overtakenEntry ++ [.enterLockdown])).phaseOf 1 = some earlier ∧
          earlier.decided = some (.ok fraudSuspected)) := by
  obtain ⟨_, quiet, refused, _⟩ := lockdown_terminal_for_ingress node start overtakenEntry []
  obtain ⟨_, _, _, answered⟩ := lockdown_terminal_for_ingress node start overtakenEntry [.advance 1 (.commit 120)]
  exact ⟨(quiet 1 _ (.commit 120) rfl).1, (refused 1 _ rfl rfl).1,
    answered 1 (.leaving (.ok fraudSuspected) _) (.ok fraudSuspected) rfl rfl⟩

/-- A spend too close to its expiry is refused at 110 and the node locks down before the carrier is pushed. -/
def lateEntry : List NodeOp :=
  [.arrive 1 .direct (.spend (spendRequest "nonce-a" 130)), .advance 1 (.ingress 110 110), .enterLockdown]

/-- After the transition the outbox is written, and the answer is not the fraud refusal. -/
theorem horizon_push_after_lockdown :
    (node.nodeAfter start lateEntry).node.lockdown = true ∧
      (node.nodeAfter start lateEntry).node.outbox = [] ∧
      (node.nodeAfter start (lateEntry ++ [.advance 1 .push])).node.outbox = [.spend (spendRequest "nonce-a" 130)] ∧
      ((node.nodeAfter start (lateEntry ++ [.advance 1 .push])).phaseOf 1).bind Phase.decided =
        some (.ok (.refusal ⟨.expiryTooShort, "delivery_horizon",
          "expiry 130 is before 170 (now 110 + delivery_horizon_secs 60), so the coordinator-signed carrier could " ++
            "expire before peer propagation completes"⟩)) := by
  decide +kernel

end Sample

end BtcPolicy.Node
