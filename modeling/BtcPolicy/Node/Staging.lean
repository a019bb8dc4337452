import BtcPolicy.Channel.Arming
import BtcPolicy.Node.Verdicts

/-! Which exits of the spend handler stage the carrier. A refusal of this node alone must still reach the peers, and
one that every honest node reaches by itself must not. -/

namespace BtcPolicy.Node
open FiniteMap Word Bitcoin HotLedger Replay Channel Pin Policy Results Runs PartialStore NodeConfig

/-! ### The exits -/

/-- Why a call of the spend handler returns. `clock` is one of the three clock predicates of a later hold, `spend` a
refusal of the spend's signature, prevouts or policy, `escape` one of the escape or its ladder, and `admission`
whatever the registry answers to the validated pair. -/
inductive Exit where
  | beforePin
  | lockdown
  | clock
  | attempts
  | undecoded
  | cachedAcceptance
  | cachedRefusal
  | fetch
  | hotPerTx
  | spend
  | txClass
  | hotVelocity
  | escape
  | expiryTooShort
  | signing
  | admission
  deriving DecidableEq, Repr

/-- The refusals that are this node's own. -/
def Exit.nodeLocal : Exit → Bool
  | .clock | .attempts | .fetch | .hotPerTx | .hotVelocity | .expiryTooShort => true
  | _ => false

/-- The refusals that every honest node reaches by itself, and the cached ones. -/
def Exit.uniform : Exit → Bool
  | .cachedRefusal | .spend | .txClass | .escape => true
  | _ => false

/-- The exits behind the arm hook that stage the carrier. -/
def Exit.stages (exit : Exit) : Bool :=
  exit.nodeLocal || decide (exit = .cachedAcceptance) || decide (exit = .admission)

namespace NodeConfig

variable (node : NodeConfig)

/-- The checks between the reservation and the admission, in their order. -/
def pairExit (pair : SpendPair) (txClass : TxClass) (expiry now : Nat) (escapePrevouts : Option PrevoutFetch) : Exit :=
  match node.rules.verifyEscape pair.escape escapePrevouts,
    node.rules.ensureEscapeLadder pair.escape pair.escapeBumps (decide (pair.escapeCommitmentId = pair.commitmentId)),
    firstRefusal (fun bump => node.rules.verifyEscape bump escapePrevouts) pair.escapeBumps with
  | .ok _, .ok _, .ok _ =>
    if txClass = .escape ∧ pair.escapeCommitmentId = pair.commitmentId then .txClass
    else
      match node.fireAt txClass now with
      | .error _ => .txClass
      | .ok fire =>
        if (node.holdRefusal txClass expiry now fire).isSome then .expiryTooShort
        else if (pair.spend :: pair.escape :: pair.escapeBumps).all (fun psbt => (node.signPsbt psbt).isOk) then
          .admission
        else .signing
  | _, _, _ => .escape

def judgeExit (request : SignRequest) (pair : SpendPair) (now : Nat)
    (spendPrevouts escapePrevouts : Option PrevoutFetch) (clock : RegistrationClock) (s : NodeState) : Exit :=
  match node.rules.verifySpend pair.spend spendPrevouts with
  | .error refused => if refused.code = .hotBudgetExceeded then .hotPerTx else .spend
  | .ok _ =>
    match node.rules.classify pair.spend with
    | .error _ => .txClass
    | .ok classified =>
      if classified.txClass = .refresh then .txClass
      else if classified.txClass = .hot ∧ node.channel.isSome ∧ (s.store.hotBudget.reserve pair.commitmentId
          classified.hotOutflow clock.reserve clock.wall request.expiry).2.isOk = false then .hotVelocity
      else node.pairExit pair classified.txClass request.expiry now escapePrevouts

def answerExit (request : SignRequest) (pair : SpendPair) (now : Nat)
    (spendPrevouts escapePrevouts : Option PrevoutFetch) (clock : RegistrationClock) (s : NodeState) : Exit :=
  if (ReplayLog.get s.sign.replay pair.acceptedReplayKey now).isSome then .cachedAcceptance
  else if (ReplayLog.get s.sign.replay pair.commitmentId now).isSome then .cachedRefusal
  else if (nodeLocalPrevoutFetchFailure spendPrevouts escapePrevouts).isSome then .fetch
  else node.judgeExit request pair now spendPrevouts escapePrevouts clock (node.pruneLogs now clock.prune s)

def registrationExit (request : SignRequest) (spendPrevouts escapePrevouts : Option PrevoutFetch)
    (clock : RegistrationClock) (s : NodeState) : Exit :=
  let now := s.sign.coordNonces.effectiveNow clock.wall
  if s.lockdown then .lockdown
  else if (node.clockRefusal "post-preflight" request.expiry clock.wall now).isSome then .clock
  else
    match node.decodePair request with
    | .error _ => .undecoded
    | .ok pair => node.answerExit request pair now spendPrevouts escapePrevouts clock s

/-- The exit a call takes. -/
def signExit (request : SignRequest) (compared : PinVerdict) (inputs : SignInputs) (s : NodeState) : Exit :=
  match node.ingressHold request inputs.ingressWall inputs.ingressMono s with
  | (s, .windowA flight) =>
    match node.commitHold flight (pinVerdict compared request) (node.carrierOf request) inputs.commitWall s with
    | (_, .leaving _ _) => if s.lockdown then .lockdown else .clock
    | (_, .backoff _ _ _) => .attempts
    | (s, .windowB _) =>
      let fetched := node.prefetchSpendEscapePrevouts request inputs.replies
      node.registrationExit request fetched.1 fetched.2 inputs.registration s
  | _ => .beforePin

end NodeConfig

/-- The call refuses, with one of these codes. -/
def Refuses (codes : List RefusalCode) (result : SignResult) : Prop :=
  ∃ refused, result = .ok (.refusal refused) ∧ refused.code ∈ codes

theorem refuses_of_code {codes : List RefusalCode} {refused : Refusal} (listed : refused.code ∈ codes) :
    Refuses codes (.ok (.refusal refused)) :=
  ⟨refused, rfl, listed⟩

/-- What a call answers at an exit; `log` is the verdict cache it came to. -/
def Exit.Answers (node : NodeConfig) (request : SignRequest) (log : ReplayLog) (result : SignResult) : Exit → Prop
  | .beforePin => (∃ bad, result = .error bad) ∨
      Refuses [.fraudSuspected, .coordAuthInvalid, .commitmentExpired, .nonceReplayed, .coordNonceCapacity,
        .expiryTooShort] result
  | .lockdown => result = .ok fraudSuspected
  | .clock => Refuses [.commitmentExpired, .expiryTooShort] result
  | .attempts => ∃ locked, result = .ok (pinRefusal locked)
  | .undecoded => (∃ bad, result = .error bad) ∨ Refuses [.psbtInconsistent] result
  | .cachedAcceptance => ∃ pair now recorded, node.decodePair request = .ok pair ∧
      ReplayLog.get log pair.acceptedReplayKey now = some recorded ∧ result = .ok recorded
  | .cachedRefusal => ∃ pair now recorded, node.decodePair request = .ok pair ∧
      ReplayLog.get log pair.commitmentId now = some recorded ∧ result = .ok recorded
  | .fetch => Refuses [.psbtInconsistent] result
  | .hotPerTx => Refuses [.hotBudgetExceeded] result
  | .spend => ∃ refused, result = .ok (.refusal refused) ∧ refused.code ≠ .hotBudgetExceeded ∧
      ∃ psbt prevouts, node.rules.verifySpend psbt prevouts = .error refused
  | .txClass => Refuses [.psbtInconsistent] result ∨
      ∃ psbt violation, node.rules.classify psbt = .error violation ∧ result = .ok (.refusal (policyRefusal violation))
  | .hotVelocity => Refuses [.hotVelocityExceeded] result
  | .escape => ∃ refused, result = .ok (.refusal refused) ∧
      ((∃ psbt prevouts, node.rules.verifyEscape psbt prevouts = .error refused) ∨
        ∃ escape bumps same, node.rules.ensureEscapeLadder escape bumps same = .error refused)
  | .expiryTooShort => Refuses [.expiryTooShort] result
  | .signing => Refuses [.psbtInconsistent] result
  | .admission => (∃ accepted, result = .ok (.accepted accepted)) ∨
      Refuses [.hotVelocityExceeded, .psbtInconsistent, .candidateCapacity] result

/-! ### What an exit does to the intents -/

/-- What the sweep at `mono` may do to an intent: drop it at its deadline. -/
def Swept (mono : Nat) (before after : Option ArmIntent) : Prop :=
  after = before ∨ after = none ∧ ∃ i, before = some i ∧ i.deadline ≤ mono

/-- From one store to the next the carrier's own intent changes by `f` as long as its handler rules it, and another
one is dropped only by the sweep. -/
structure Effect (carrier : String) (mono : Nat) (f : ArmIntent → ArmIntent) (s t : PartialStore) : Prop where
  own : ∀ i, s.intents.lookup carrier = some i → i.ownerRuling = true → t.intents.lookup carrier = some (f i)
  others : ∀ c, c ≠ carrier → Swept mono (s.intents.lookup c) (t.intents.lookup c)

/-- The node counts itself among the holders of the carrier; only the names of the pair may change beside it. -/
def Marks (ch : ChannelState) (f : ArmIntent → ArmIntent) : Prop :=
  ∀ i, (f i).holders = insert ch.nodeId i.holders ∧ (f i).readyToPropagate = true ∧ (f i).deadline = i.deadline ∧
    (f i).ownerRuling = i.ownerRuling

/-- A hold pushes the request and marks the carrier, or it does neither. -/
structure Disciplined (ch : ChannelState) (request : SignRequest) (carrier : String) (mono : Nat) (stages : Bool)
    (s t : NodeState) : Prop where
  outbox : t.outbox = s.outbox ++ if stages then [.spend request] else []
  change : ∃ f, Effect carrier mono f s.store t.store ∧ if stages then Marks ch f else f = id

section Effects

variable {ch : ChannelState} {request : SignRequest} {carrier : String} {mono : Nat} {stages : Bool} {s t u : NodeState}

theorem Swept.trans {a b c : Option ArmIntent} (first : Swept mono a b) (second : Swept mono b c) : Swept mono a c := by
  obtain rfl | ⟨rfl, dead⟩ := first
  · exact second
  · obtain rfl | ⟨rfl, _⟩ := second
    · exact .inr ⟨rfl, dead⟩
    · exact .inr ⟨rfl, dead⟩

theorem Swept.later {a b : Option ArmIntent} (swept : Swept mono a b) {later : Nat} (le : mono ≤ later) :
    Swept later a b := by
  obtain same | ⟨gone, i, here, dead⟩ := swept
  · exact .inl same
  · exact .inr ⟨gone, i, here, dead.trans le⟩

theorem swept_pruneCarriers (a : PartialStore) (c : String) :
    Swept mono (a.intents.lookup c) ((a.pruneCarriers mono).intents.lookup c) := by
  simp only [pruneCarriers, lookup_retain]
  cases a.intents.lookup c with
  | none => exact .inl rfl
  | some i =>
    by_cases kept : (decide (mono < i.deadline) || i.ownerRuling) = true
    · exact .inl (by simp only [Option.filter, kept, if_true])
    · refine .inr ⟨by simp only [Option.filter, kept, Bool.false_eq_true, if_false], i, rfl, ?_⟩
      simp only [Bool.or_eq_true, decide_eq_true_eq, not_or, not_lt] at kept
      exact kept.1

theorem Effect.trans {f g : ArmIntent → ArmIntent} {a b c : PartialStore} (first : Effect carrier mono f a b)
    (second : Effect carrier mono g b c) (rules : ∀ i, (f i).ownerRuling = i.ownerRuling) :
    Effect carrier mono (fun i => g (f i)) a c where
  own i here ruled := second.own (f i) (first.own i here ruled) ((rules i).trans ruled)
  others other different := (first.others other different).trans (second.others other different)

theorem effect_of_same {a b : PartialStore} (same : b.intents = a.intents) : Effect carrier mono id a b where
  own i here _ := by rw [same]; exact here
  others _ _ := .inl (by rw [same])

theorem effect_adjust {a b : PartialStore} {f : ArmIntent → ArmIntent}
    (same : b.intents = adjust carrier f a.intents) : Effect carrier mono f a b where
  own i here _ := by rw [same, lookup_adjust_self, here]; rfl
  others c different := .inl (by rw [same, lookup_adjust_ne different])

/-- The sweep keeps a ruled intent past its deadline. -/
theorem effect_pruneCarriers (a : PartialStore) : Effect carrier mono id a (a.pruneCarriers mono) where
  own i here ruled := by simp [pruneCarriers, here, ruled, Option.filter]
  others c _ := swept_pruneCarriers a c

theorem disciplined_of_same (outbox : t.outbox = s.outbox) (intents : t.store.intents = s.store.intents) :
    Disciplined ch request carrier mono false s t :=
  ⟨by simp [outbox], id, effect_of_same intents, rfl⟩

/-- Steps that stage nothing in front of the exit. -/
theorem Disciplined.after (quiet : Disciplined ch request carrier mono false s t)
    (held : Disciplined ch request carrier mono stages t u) : Disciplined ch request carrier mono stages s u := by
  obtain ⟨outbox, f, effect, rfl⟩ := quiet
  obtain ⟨outbox', g, effect', marks⟩ := held
  refine ⟨?_, g, effect.trans effect' (fun _ => rfl), marks⟩
  rw [outbox', outbox]
  simp

theorem Disciplined.later (held : Disciplined ch request carrier mono stages s t) {later : Nat} (le : mono ≤ later) :
    Disciplined ch request carrier later stages s t := by
  obtain ⟨outbox, f, effect, marks⟩ := held
  exact ⟨outbox, f, ⟨effect.own, fun c different => (effect.others c different).later le⟩, marks⟩

/-- Steps behind it that touch neither the outbox nor the intents. -/
theorem Disciplined.before (held : Disciplined ch request carrier mono stages s t) (outbox : u.outbox = t.outbox)
    (intents : u.store.intents = t.store.intents) : Disciplined ch request carrier mono stages s u := by
  obtain ⟨pushed, f, effect, marks⟩ := held
  refine ⟨outbox.trans pushed, f, ?_, marks⟩
  exact ⟨fun i here ruled => intents ▸ effect.own i here ruled, fun c different => intents ▸ effect.others c different⟩

/-- The pair's names, before or after the mark. -/
theorem Disciplined.named (held : Disciplined ch request carrier mono true s t) {spend escape : String}
    (outbox : u.outbox = t.outbox) (intents : u.store.intents = (t.store.attachPair carrier spend escape).intents) :
    Disciplined ch request carrier mono true s u := by
  obtain ⟨pushed, f, effect, marks⟩ := held
  have naming : Effect carrier mono _ t.store u.store := effect_adjust intents
  exact ⟨outbox.trans pushed, _, effect.trans naming (fun i => (marks i).2.2.2), marks⟩

end Effects

/-- The flag and the answer of a refused pair are those of its exit, and a pair that passes is offered to the
registry. -/
def Agrees (node : NodeConfig) (checked : Except PairRefusal (SpendPair × Nat)) (exit : Exit) : Prop :=
  match checked with
  | .error refused => refused.stages = exit.stages ∧ exit ≠ .admission ∧
      ∀ request log, exit.Answers node request log (.ok (.refusal refused.refusal))
  | .ok _ => exit = .admission

theorem signPsbt_agrees {node : NodeConfig} {psbt : Psbt} {refused : PairRefusal}
    (failed : node.signPsbt psbt = .error refused) : Agrees node (.error refused) .signing := by
  unfold signPsbt at failed
  split at failed
  · cases failed
  · cases failed
    exact ⟨rfl, by decide, fun _ _ => refuses_of_code (List.mem_singleton_self _)⟩

/-- Signing refuses quietly, and exactly where one of the signatures fails. -/
theorem signing_agrees (node : NodeConfig) (pair : SpendPair) (fire : Nat) :
    Agrees node (do
        let spend ← node.signPsbt pair.spend
        let escape ← node.signPsbt pair.escape
        let bumps ← pair.escapeBumps.mapM node.signPsbt
        pure ({ pair with spend := spend, escape := escape, escapeBumps := bumps }, fire))
      (if (pair.spend :: pair.escape :: pair.escapeBumps).all (fun psbt => (node.signPsbt psbt).isOk) then .admission
        else .signing) := by
  rw [List.all_cons, List.all_cons, ← isOk_mapM]
  cases spend : node.signPsbt pair.spend with
  | error refused => exact signPsbt_agrees spend
  | ok _ =>
    cases escape : node.signPsbt pair.escape with
    | error refused => exact signPsbt_agrees escape
    | ok _ =>
      cases bumps : pair.escapeBumps.mapM node.signPsbt with
      | error refused =>
        obtain ⟨psbt, failed⟩ := mapM_error bumps
        exact signPsbt_agrees failed
      | ok _ => rfl

theorem firstRefusal_error {check : Psbt → Except Refusal Unit} {psbts : List Psbt} {refused : Refusal}
    (failed : firstRefusal check psbts = .error refused) : ∃ psbt, check psbt = .error refused := by
  induction psbts with
  | nil => cases failed
  | cons psbt rest ih =>
    unfold firstRefusal at failed
    split at failed
    · rename_i e first
      cases failed
      exact ⟨psbt, first⟩
    · exact ih failed

theorem validatePair_agrees (node : NodeConfig) (pair : SpendPair) (txClass : TxClass) (expiry now : Nat)
    (escapePrevouts : Option PrevoutFetch) :
    Agrees node (node.validatePair pair txClass expiry now escapePrevouts)
      (node.pairExit pair txClass expiry now escapePrevouts) := by
  have escape : ∀ refused, ((∃ psbt prevouts, node.rules.verifyEscape psbt prevouts = .error refused) ∨
      ∃ base bumps same, node.rules.ensureEscapeLadder base bumps same = .error refused) →
      Agrees node (.error ⟨refused, false⟩) .escape :=
    fun refused failed => ⟨rfl, by decide, fun _ _ => ⟨refused, rfl, failed⟩⟩
  unfold validatePair pairExit
  cases base : node.rules.verifyEscape pair.escape escapePrevouts with
  | error e => exact escape e (.inl ⟨_, _, base⟩)
  | ok _ =>
    cases ladder : node.rules.ensureEscapeLadder pair.escape pair.escapeBumps
        (decide (pair.escapeCommitmentId = pair.commitmentId)) with
    | error e => exact escape e (.inr ⟨_, _, _, ladder⟩)
    | ok _ =>
      cases rungs : firstRefusal (fun bump => node.rules.verifyEscape bump escapePrevouts) pair.escapeBumps with
      | error e =>
        obtain ⟨bump, failed⟩ := firstRefusal_error rungs
        exact escape e (.inl ⟨bump, _, failed⟩)
      | ok _ =>
        by_cases residual : txClass = .escape ∧ pair.escapeCommitmentId = pair.commitmentId
        · simp only [if_pos residual]
          exact ⟨rfl, by decide, fun _ _ => .inl (refuses_of_code (List.mem_singleton_self _))⟩
        · simp only [if_neg residual]
          cases fired : node.fireAt txClass now with
          | error refused =>
            have left : Agrees node (.error refused) .txClass := by
              unfold fireAt at fired
              cases txClass <;> cases fired
              exact ⟨rfl, by decide, fun _ _ => .inl (refuses_of_code (List.mem_singleton_self _))⟩
            exact left
          | ok fire =>
            cases held : node.holdRefusal txClass expiry now fire with
            | some refused =>
              have left : Agrees node (.error refused) .expiryTooShort := by
                unfold holdRefusal at held
                simp only at held
                split_ifs at held
                cases held
                exact ⟨rfl, by decide, fun _ _ => refuses_of_code (List.mem_singleton_self _)⟩
              simp only [Except.mapError, bind, Except.bind, held, Option.isSome_some, if_true]
              exact left
            | none =>
              have signed := signing_agrees node pair fire
              simpa [Except.mapError, bind, Except.bind, pure, Except.pure, held] using signed

section Steps

variable {node : NodeConfig} {ch : ChannelState} (mounted : node.channel = some ch) {request : SignRequest}
  (carrier : String) (mono : Nat) (s : NodeState)
include mounted

theorem disciplined_stage :
    Disciplined ch request carrier mono true s (node.stageSpendCarrier (.spend request) carrier s) := by
  unfold stageSpendCarrier onStore
  rw [mounted]
  exact ⟨rfl, _, effect_adjust rfl, fun _ => ⟨rfl, rfl, rfl, rfl⟩⟩

theorem disciplined_pruneLogs (now : Nat) :
    Disciplined ch request carrier mono false s (node.pruneLogs now mono s) := by
  unfold pruneLogs onStore
  rw [mounted]
  have swept : Effect carrier mono _ s.store (s.store.pruneStore now mono) :=
    (effect_pruneCarriers s.store).trans (effect_of_same rfl) (fun _ => rfl)
  exact ⟨by simp, id, swept, rfl⟩

theorem unwind_same (created : Bool) (commitmentId : String) :
    (node.unwindHotReservation created commitmentId s).outbox = s.outbox ∧
      (node.unwindHotReservation created commitmentId s).store.intents = s.store.intents := by
  unfold unwindHotReservation onStore
  split_ifs
  · rw [mounted]
    exact ⟨rfl, rfl⟩
  · exact ⟨rfl, rfl⟩

/-- The registry leaves the intents alone, or it names the pair in the carrier's. -/
theorem registerPair_intents (pair : RegisterPair) (monoNow : Nat) :
    (node.registerPair pair monoNow s).1.outbox = s.outbox ∧
      ((node.registerPair pair monoNow s).1.store.intents = s.store.intents ∨
        (node.registerPair pair monoNow s).1.store.intents =
          (s.store.attachPair pair.carrier pair.spendCommitmentId pair.escapeCommitmentId).intents) := by
  unfold registerPair
  rw [mounted]
  simp only
  split
  · exact ⟨rfl, .inl rfl⟩
  · rename_i candidates _
    have intents := registerCandidates_intents ch s.store candidates (node.armDirective pair) pair.hotReserve monoNow
    split <;> exact ⟨rfl, intents⟩

/-- The sweep of the verdict cache does not touch what the judgement reads. -/
theorem judgeExit_pruned (request : SignRequest) (pair : SpendPair) (now : Nat)
    (spendPrevouts escapePrevouts : Option PrevoutFetch) (clock : RegistrationClock) :
    node.judgeExit request pair now spendPrevouts escapePrevouts clock (node.pruneLogs now clock.prune { s with
        sign := { s.sign with replay := ReplayLog.prune s.sign.replay now } }) =
      node.judgeExit request pair now spendPrevouts escapePrevouts clock (node.pruneLogs now clock.prune s) := by
  simp only [judgeExit, pruneLogs, onStore, mounted]

section Registration

variable (flight : Flight) (verdict : PinVerdict)

theorem admitPair_disciplined (pair : SpendPair) (txClass : TxClass) (outflow fireAt now : Nat) (created : Bool)
    (clock : RegistrationClock) :
    Disciplined ch flight.request carrier mono true s
      (node.admitPair flight verdict carrier pair txClass outflow fireAt now created clock s).1 := by
  have staged : Disciplined ch flight.request carrier mono true s
      (node.stageSpendCarrier (.spend flight.request) carrier s) := disciplined_stage mounted carrier mono s
  have registered : ∀ registering u result, registering.carrier = carrier →
      node.registerPair registering clock.register (node.stageSpendCarrier (.spend flight.request) carrier s) =
        (u, result) → Disciplined ch flight.request carrier mono true s u := by
    intro registering u result named same
    obtain ⟨outbox, intents | intents⟩ := registerPair_intents mounted
      (node.stageSpendCarrier (.spend flight.request) carrier s) registering clock.register
    all_goals rw [same] at outbox intents
    · exact staged.before outbox intents
    · rw [named] at intents
      exact staged.named outbox intents
  unfold admitPair
  simp only
  split
  · rename_i u refused same
    obtain ⟨outbox, intents⟩ := unwind_same mounted u created pair.commitmentId
    exact (registered _ _ _ rfl same).before outbox intents
  · rename_i u _ same
    exact (registered _ _ _ rfl same).before rfl rfl

theorem admitReserved_disciplined (pair : SpendPair) (classified : Classification) (now : Nat)
    (escapePrevouts : Option PrevoutFetch) (created : Bool) (clock : RegistrationClock) :
    Disciplined ch flight.request carrier mono
      (node.pairExit pair classified.txClass flight.request.expiry now escapePrevouts).stages s
      (node.admitReserved flight verdict carrier pair classified now escapePrevouts created clock s).1 := by
  have agrees := validatePair_agrees node pair classified.txClass flight.request.expiry now escapePrevouts
  unfold admitReserved
  split
  · rename_i refused failed
    rw [failed] at agrees
    rw [← agrees.1]
    obtain ⟨outbox, intents⟩ := unwind_same mounted s created pair.commitmentId
    simp only
    cases refused.stages with
    | false => exact disciplined_of_same outbox intents
    | true => exact (disciplined_of_same outbox intents).after (disciplined_stage mounted carrier mono _)
  · rename_i signed fireAt valid
    rw [valid] at agrees
    rw [show node.pairExit pair classified.txClass flight.request.expiry now escapePrevouts = .admission from agrees]
    exact admitPair_disciplined mounted carrier mono s flight verdict signed _ _ fireAt now created clock

theorem meterSpend_disciplined (pair : SpendPair) (classified : Classification) (now : Nat)
    (escapePrevouts : Option PrevoutFetch) (clock : RegistrationClock) :
    Disciplined ch flight.request carrier mono
      (if classified.txClass = .hot ∧ node.channel.isSome ∧ (s.store.hotBudget.reserve pair.commitmentId
          classified.hotOutflow clock.reserve clock.wall flight.request.expiry).2.isOk = false then Exit.hotVelocity
        else node.pairExit pair classified.txClass flight.request.expiry now escapePrevouts).stages s
      (node.meterSpend flight verdict carrier pair classified now escapePrevouts clock s).1 := by
  unfold meterSpend
  simp only [mounted, Option.isSome_some, and_true, true_and]
  by_cases hot : classified.txClass = .hot
  · simp only [hot, if_true, true_and]
    generalize s.store.hotBudget.reserve pair.commitmentId classified.hotOutflow clock.reserve clock.wall
      flight.request.expiry = answer
    have written : Disciplined ch flight.request carrier mono false s
        { s with store := { s.store with hotBudget := answer.1 } } := disciplined_of_same rfl rfl
    cases verdictOf : answer.2 with
    | error refused => exact written.after (disciplined_stage mounted carrier mono _)
    | ok created =>
      have reserved := admitReserved_disciplined mounted carrier mono { s with
        store := { s.store with hotBudget := answer.1 } } flight verdict pair classified now escapePrevouts created clock
      rw [hot] at reserved
      simp only [Except.isOk, Except.toBool, Bool.true_eq_false, if_false]
      exact written.after reserved
  · simp only [hot, if_false, false_and]
    exact admitReserved_disciplined mounted carrier mono s flight verdict pair classified now escapePrevouts false clock

theorem judgeSpend_disciplined (pair : SpendPair) (now : Nat) (spendPrevouts escapePrevouts : Option PrevoutFetch)
    (clock : RegistrationClock) :
    Disciplined ch flight.request carrier mono
      (node.judgeExit flight.request pair now spendPrevouts escapePrevouts clock s).stages s
      (node.judgeSpend flight verdict carrier pair now spendPrevouts escapePrevouts clock s).1 := by
  unfold judgeSpend judgeExit
  simp only
  cases node.rules.verifySpend pair.spend spendPrevouts with
  | error refused =>
    by_cases perTx : refused.code = .hotBudgetExceeded
    · simp only [if_pos perTx]
      exact (disciplined_stage mounted carrier mono s).before rfl rfl
    · simp only [if_neg perTx]
      exact disciplined_of_same rfl rfl
  | ok _ =>
    cases node.rules.classify pair.spend with
    | error violation => exact disciplined_of_same rfl rfl
    | ok classified =>
      by_cases refresh : classified.txClass = .refresh
      · simp only [if_pos refresh]
        exact disciplined_of_same rfl rfl
      · simp only [if_neg refresh]
        exact meterSpend_disciplined mounted carrier mono s flight verdict pair classified now escapePrevouts clock

theorem replayAccepted_disciplined (pair : SpendPair) (now : Nat) :
    Disciplined ch flight.request carrier mono true s (node.replayAccepted flight verdict carrier pair now s) := by
  unfold replayAccepted stageSpendCarrier onStore
  simp only [mounted]
  have scheduled : Effect carrier mono (fun intent => { intent with
      spendCommitmentId := pair.commitmentId, escapeCommitmentId := pair.escapeCommitmentId }) s.store
      ((s.store.applyCachedSchedule pair.escapeCommitmentId (decide (verdict = .duress)) now
        node.epsilonSecs).recordIntentPair carrier pair.commitmentId pair.escapeCommitmentId) := by
    apply effect_adjust
    simp only [recordIntentPair, attachPair, updateIntent, applyCachedSchedule, applyArmDirective_intents]
  exact ⟨rfl, _, scheduled.trans (effect_adjust rfl) (fun _ => rfl), fun _ => ⟨rfl, rfl, rfl, rfl⟩⟩

theorem answerPair_disciplined (pair : SpendPair) (now : Nat) (spendPrevouts escapePrevouts : Option PrevoutFetch)
    (clock : RegistrationClock) :
    Disciplined ch flight.request carrier clock.prune
      (node.answerExit flight.request pair now spendPrevouts escapePrevouts clock s).stages s
      (node.answerPair flight verdict carrier pair now spendPrevouts escapePrevouts clock s).1 := by
  have pruned : Disciplined ch flight.request carrier clock.prune false s
      { s with sign := { s.sign with replay := ReplayLog.prune s.sign.replay now } } := disciplined_of_same rfl rfl
  unfold answerPair answerExit
  simp only [get_prune]
  cases ReplayLog.get s.sign.replay pair.acceptedReplayKey now with
  | some recorded => exact pruned.after (replayAccepted_disciplined mounted carrier clock.prune _ flight verdict pair now)
  | none =>
    cases ReplayLog.get s.sign.replay pair.commitmentId now with
    | some recorded => exact pruned
    | none =>
      cases nodeLocalPrevoutFetchFailure spendPrevouts escapePrevouts with
      | some refused => exact pruned.after (disciplined_stage mounted carrier clock.prune _)
      | none =>
        have judged := judgeSpend_disciplined mounted carrier clock.prune (node.pruneLogs now clock.prune { s with
          sign := { s.sign with replay := ReplayLog.prune s.sign.replay now } }) flight verdict pair now spendPrevouts
          escapePrevouts clock
        rw [judgeExit_pruned mounted] at judged
        exact (pruned.after (disciplined_pruneLogs mounted carrier clock.prune _ now)).after judged

theorem registrationHold_disciplined (spendPrevouts escapePrevouts : Option PrevoutFetch)
    (clock : RegistrationClock) :
    Disciplined ch flight.request carrier clock.prune
      (node.registrationExit flight.request spendPrevouts escapePrevouts clock s).stages s
      (node.registrationHold flight verdict carrier spendPrevouts escapePrevouts clock s).1 := by
  unfold registrationHold registrationExit
  cases locked : s.lockdown with
  | true => exact disciplined_of_same rfl rfl
  | false =>
    simp only [Bool.false_eq_true, if_false]
    cases node.clockRefusal "post-preflight" flight.request.expiry clock.wall
        (s.sign.coordNonces.effectiveNow clock.wall) with
    | some refused => exact disciplined_stage mounted carrier clock.prune s
    | none =>
      simp only [Option.isSome_none, Bool.false_eq_true, if_false]
      cases node.decodePair flight.request with
      | error result => exact disciplined_of_same rfl rfl
      | ok pair => exact answerPair_disciplined mounted carrier s flight verdict pair _ spendPrevouts escapePrevouts clock

end Registration

end Steps

/-! ### Registration -/

/-- The carrier's intent, where there is one, names the pair. -/
def Names (carrier spend escape : String) (t : NodeState) : Prop :=
  ∀ i, t.store.intents.lookup carrier = some i → i.spendCommitmentId = spend ∧ i.escapeCommitmentId = escape

/-- The residents do not exceed the registry's bounds. -/
def InBounds (s : PartialStore) : Prop := size s.candidates ≤ s.maxActiveCandidates ∧ s.reservedBytes ≤ s.maxBytes

/-- A step that may register the pair: a candidate it adds is of the pair and comes by way of the admission, and the
intent then names the pair. So it does when an admission is accepted that finds the pair resident. -/
structure Registers (exit : Exit) (carrier spend escape : String) (s : NodeState) (out : NodeState × SignResult) : Prop where
  registered : ∀ id, s.store.candidates.lookup id = none → out.1.store.candidates.lookup id ≠ none →
    exit = .admission ∧ (id = spend ∨ id = escape) ∧ Names carrier spend escape out.1
  accepted : exit = .admission → InBounds s.store → ∀ a, out.2 = .ok (.accepted a) → Names carrier spend escape out.1

/-- A step after which the registry holds nothing new and is no fuller. -/
structure Shrinks (s t : NodeState) : Prop where
  absent : ∀ id, s.store.candidates.lookup id = none → t.store.candidates.lookup id = none
  fits : InBounds s.store → InBounds t.store

theorem shrinks_of_same {s t : NodeState} (candidates : t.store.candidates = s.store.candidates)
    (active : t.store.maxActiveCandidates = s.store.maxActiveCandidates)
    (reserved : t.store.reservedBytes = s.store.reservedBytes) (bytes : t.store.maxBytes = s.store.maxBytes) :
    Shrinks s t := by
  constructor
  · intro id absent
    rwa [candidates]
  · intro fits
    unfold InBounds
    rwa [candidates, active, reserved, bytes]

theorem Shrinks.trans {s t u : NodeState} (first : Shrinks s t) (second : Shrinks t u) : Shrinks s u :=
  ⟨fun id absent => second.absent id (first.absent id absent), fun fits => second.fits (first.fits fits)⟩

theorem Shrinks.registers {exit : Exit} {carrier spend escape : String} {s : NodeState} {out : NodeState × SignResult}
    (shrinks : Shrinks s out.1) (other : exit ≠ .admission) : Registers exit carrier spend escape s out :=
  ⟨fun id absent present => absurd (shrinks.absent id absent) present, fun admission => absurd admission other⟩

theorem Registers.after {exit : Exit} {carrier spend escape : String} {s t : NodeState} {out : NodeState × SignResult}
    (registers : Registers exit carrier spend escape t out) (shrinks : Shrinks s t) :
    Registers exit carrier spend escape s out :=
  ⟨fun id absent => registers.registered id (shrinks.absent id absent),
    fun admission fits => registers.accepted admission (shrinks.fits fits)⟩

theorem buildCandidates_ids {lib : Library} {keys : CandidateKeys} {specs : List CandidateSpec}
    {candidates : List Candidate} (built : buildCandidates lib keys specs = .ok candidates) :
    ∀ c ∈ candidates, ∃ spec ∈ specs, c.commitmentId = spec.commitmentId := by
  induction specs generalizing candidates with
  | nil =>
    cases built
    simp
  | cons spec rest ih =>
    unfold buildCandidates at built
    split at built
    · cases built
    · rename_i candidate first
      split at built
      · cases built
      · rename_i others later
        cases built
        intro c member
        rcases List.mem_cons.mp member with rfl | inside
        · exact ⟨spec, List.mem_cons_self, (build_fresh first).1.commitmentId⟩
        · obtain ⟨other, listed, named⟩ := ih later c inside
          exact ⟨other, List.mem_cons_of_mem _ listed, named⟩

theorem specs_ids {pair : RegisterPair} {spec : CandidateSpec} (member : spec ∈ pair.specs) :
    spec.commitmentId = pair.spendCommitmentId ∨ spec.commitmentId = pair.escapeCommitmentId := by
  unfold RegisterPair.specs at member
  simp only at member
  split_ifs at member
  · rcases List.mem_pair.mp member with rfl | rfl
    · exact .inl rfl
    · exact .inr rfl
  · rw [List.mem_singleton.mp member]
    exact .inl rfl

theorem revalidate_hotBudget (s : PartialStore) (hotReserve : Option HotReserveSpec) (monoNow : Nat) :
    ∃ budget, (s.revalidate hotReserve monoNow).1 = { s with hotBudget := budget } := by
  cases hotReserve with
  | none => exact ⟨s.hotBudget, rfl⟩
  | some spec => exact ⟨_, rfl⟩

/-- Within its bounds the registry is over capacity only by a candidate it does not hold. -/
theorem exists_new_of_overCapacity {s : PartialStore} (fits : InBounds s) {candidates : List Candidate}
    (full : s.overCapacity candidates = true) : ∃ c ∈ candidates, s.candidates.lookup c.commitmentId = none := by
  by_contra! resident
  have none_new : candidates.filter (fun c => (s.candidates.lookup c.commitmentId).isNone) = [] := by
    rw [List.filter_eq_nil_iff]
    intro c member isNew
    exact resident c member (Option.isNone_iff_eq_none.mp isNew)
  unfold overCapacity at full
  simp only [none_new, List.map_nil, List.foldl_nil, List.length_nil, Bool.or_eq_true, decide_eq_true_eq] at full
  have bytes : satAdd s.reservedBytes 0 ≤ s.reservedBytes := min_le_left _ _
  have active : satAdd (size s.candidates) 0 ≤ size s.candidates := min_le_left _ _
  obtain many | large := full
  · exact absurd (lt_of_lt_of_le many active) (not_lt_of_ge fits.1)
  · exact absurd (lt_of_lt_of_le large bytes) (not_lt_of_ge fits.2)

/-- The registry enrols the pair, or it adds nothing and says why. -/
theorem registerCandidates_enrols (ch : ChannelState) (s : PartialStore) (candidates : List Candidate)
    (arm : ArmDirective) (hotReserve : Option HotReserveSpec) (monoNow : Nat) :
    let out := registerCandidates ch s candidates arm hotReserve monoNow
    out.1 = ((s.revalidate hotReserve monoNow).1.enroll arm
        (candidates.map (fun c => c.reservePartialCapacity ch.nodes ch.nodeId))).1 ∨
      out.1.candidates = s.candidates ∧
        (InBounds s → ∀ outcomes, out.2 = .ok outcomes → .conflict ∈ outcomes ∨ .atCapacity ∈ outcomes) := by
  obtain ⟨budget, revalidated⟩ := revalidate_hotBudget s hotReserve monoNow
  unfold registerCandidates
  simp only
  generalize candidates.map (fun c => c.reservePartialCapacity ch.nodes ch.nodeId) = incoming
  generalize s.revalidate hotReserve monoNow = answer at revalidated ⊢
  obtain ⟨u, verdict⟩ := answer
  simp only at revalidated
  cases verdict with
  | error refused => exact .inr ⟨by rw [revalidated], fun _ outcomes same => by cases same⟩
  | ok created =>
    simp only
    by_cases conflict : u.anyConflict incoming = true
    · simp only [if_pos conflict]
      refine .inr ⟨by rw [unwindReserve_candidates, revalidated], ?_⟩
      rintro _ _ ⟨⟩
      obtain ⟨c, member, _⟩ := List.any_eq_true.mp conflict
      exact .inl (List.mem_map.mpr ⟨c, member, rfl⟩)
    · simp only [if_neg conflict]
      by_cases full : u.overCapacity incoming = true
      · simp only [if_pos full]
        refine .inr ⟨by rw [unwindReserve_candidates, revalidated], ?_⟩
        rintro fits _ ⟨⟩
        have same : InBounds u := by rw [revalidated]; exact fits
        obtain ⟨c, member, isNew⟩ := exists_new_of_overCapacity same full
        exact .inr (List.mem_map.mpr ⟨c, member, by simp [isNew]⟩)
      · simp only [if_neg full]
        exact .inl trivial

section Registering

variable {node : NodeConfig} {ch : ChannelState} (mounted : node.channel = some ch) {s : NodeState}

theorem registrationRefusal_of_mem {pair : RegisterPair} {outcomes : List RegisterOutcome}
    (refused : .conflict ∈ outcomes ∨ .atCapacity ∈ outcomes) :
    node.registrationRefusal pair (.ok outcomes) ≠ none := by
  unfold registrationRefusal
  simp only
  by_cases conflict : outcomes.contains .conflict = true
  · rw [if_pos conflict]
    exact Option.some_ne_none _
  · have full : outcomes.contains .atCapacity = true := by
      obtain clash | full := refused
      · exact absurd (List.contains_iff_mem.mpr clash) conflict
      · exact List.contains_iff_mem.mpr full
    rw [if_neg conflict, if_pos full]
    exact Option.some_ne_none _

include mounted

/-- The pair is enrolled and named in the same step, or nothing is added and the request is refused. -/
theorem registerPair_cases (pair : RegisterPair) (monoNow : Nat) :
    let out := node.registerPair pair monoNow s
    Names pair.carrier pair.spendCommitmentId pair.escapeCommitmentId out.1 ∧
        (∀ id, s.store.candidates.lookup id = none → out.1.store.candidates.lookup id ≠ none →
          id = pair.spendCommitmentId ∨ id = pair.escapeCommitmentId) ∨
      out.1.store.candidates = s.store.candidates ∧ (InBounds s.store → out.2 ≠ .ok ()) := by
  unfold registerPair
  simp only [mounted]
  cases built : buildCandidates ch.lib node.keys pair.specs with
  | error refused => exact .inr ⟨rfl, fun _ same => by cases same⟩
  | ok candidates =>
    simp only
    obtain enrolled | ⟨unchanged, refuses⟩ :=
      registerCandidates_enrols ch s.store candidates (node.armDirective pair) pair.hotReserve monoNow
    · left
      generalize registerCandidates ch s.store candidates (node.armDirective pair) pair.hotReserve monoNow = answer
        at enrolled ⊢
      have named : Names pair.carrier pair.spendCommitmentId pair.escapeCommitmentId { s with store := answer.1 } := by
        intro i here
        simp only [enrolled, enroll, attachPair, updateIntent, armDirective, lookup_adjust_self,
          Option.map_eq_some_iff] at here
        obtain ⟨_, _, rfl⟩ := here
        exact ⟨rfl, rfl⟩
      have added : ∀ id, s.store.candidates.lookup id = none → answer.1.candidates.lookup id ≠ none →
          id = pair.spendCommitmentId ∨ id = pair.escapeCommitmentId := by
        intro id absent present
        rw [enrolled] at present
        obtain ⟨later, found⟩ := Option.ne_none_iff_exists'.mp present
        obtain ⟨earlier, atEarlier, _⟩ := applyArmDirective_lookup found
        obtain old | ⟨_, member, rfl⟩ := registerAll_lookup atEarlier
        · rw [revalidate_candidates, absent] at old
          cases old
        · obtain ⟨c, listed, rfl⟩ := List.mem_map.mp member
          obtain ⟨spec, asked, same⟩ := buildCandidates_ids built c listed
          exact (specs_ids asked).imp (fun equal => same.trans equal) (fun equal => same.trans equal)
      split <;> exact ⟨named, added⟩
    · right
      generalize registerCandidates ch s.store candidates (node.armDirective pair) pair.hotReserve monoNow = answer
        at unchanged refuses ⊢
      refine ⟨by split <;> exact unchanged, fun fits => ?_⟩
      obtain ⟨store, verdict⟩ := answer
      have refused : node.registrationRefusal pair verdict ≠ none := by
        cases verdict with
        | error refused =>
          unfold registrationRefusal
          cases pair.hotReserve <;> exact Option.some_ne_none _
        | ok outcomes => exact registrationRefusal_of_mem (refuses fits outcomes rfl)
      cases answered : node.registrationRefusal pair verdict with
      | none => exact absurd answered refused
      | some refused => exact fun same => by cases same

theorem shrinks_stage (request : TaggedRequest) (carrier : String) :
    Shrinks s (node.stageSpendCarrier request carrier s) := by
  unfold stageSpendCarrier onStore
  rw [mounted]
  exact shrinks_of_same rfl rfl rfl rfl

theorem shrinks_unwind (created : Bool) (commitmentId : String) :
    Shrinks s (node.unwindHotReservation created commitmentId s) := by
  unfold unwindHotReservation onStore
  split_ifs
  · rw [mounted]
    exact shrinks_of_same rfl rfl rfl rfl
  · exact shrinks_of_same rfl rfl rfl rfl

theorem shrinks_pruneLogs (now mono : Nat) : Shrinks s (node.pruneLogs now mono s) := by
  unfold pruneLogs onStore
  rw [mounted]
  constructor
  · intro id absent
    simp [pruneStore, PartialStore.prune, pruneCarriers, absent]
  · rintro ⟨active, bytes⟩
    exact ⟨(size_retain_le _ _).trans active, (Nat.sub_le _ _).trans bytes⟩

section Registration

variable (flight : Flight) (verdict : PinVerdict) (carrier : String)

theorem admitPair_registers (pair : SpendPair) (txClass : TxClass) (outflow fireAt now : Nat) (created : Bool)
    (clock : RegistrationClock) :
    Registers .admission carrier pair.commitmentId pair.escapeCommitmentId s
      (node.admitPair flight verdict carrier pair txClass outflow fireAt now created clock s) := by
  have staged := shrinks_stage mounted (.spend flight.request) carrier (s := s)
  refine Registers.after ?_ staged
  generalize same : node.stageSpendCarrier (.spend flight.request) carrier s = u
  unfold admitPair
  simp only [same]
  split
  · rename_i t refused answer
    refine ⟨fun id absent present => ?_, fun _ _ a accepted => by cases accepted⟩
    have unwound := shrinks_unwind mounted created pair.commitmentId (s := t)
    have added : t.store.candidates.lookup id ≠ none := fun gone => present (unwound.absent id gone)
    obtain ⟨names, member⟩ | ⟨unchanged, _⟩ := answer ▸ registerPair_cases mounted (s := u) _ clock.register
    · refine ⟨rfl, member id absent added, ?_⟩
      intro i here
      rw [(unwind_same mounted t created pair.commitmentId).2] at here
      exact names i here
    · rw [unchanged] at added
      exact absurd absent added
  · rename_i t _ answer
    obtain ⟨names, member⟩ | ⟨unchanged, refuses⟩ := answer ▸ registerPair_cases mounted (s := u) _ clock.register
    · exact ⟨fun id absent present => ⟨rfl, member id absent present, names⟩, fun _ _ _ _ => names⟩
    · refine ⟨fun id absent present => ?_, fun _ bounds => absurd rfl (refuses bounds)⟩
      simp only [recordAcceptance] at present
      rw [unchanged] at present
      exact absurd absent present

theorem admitReserved_registers (pair : SpendPair) (classified : Classification) (now : Nat)
    (escapePrevouts : Option PrevoutFetch) (created : Bool) (clock : RegistrationClock) :
    Registers (node.pairExit pair classified.txClass flight.request.expiry now escapePrevouts) carrier pair.commitmentId
      pair.escapeCommitmentId s
      (node.admitReserved flight verdict carrier pair classified now escapePrevouts created clock s) := by
  have agrees := validatePair_agrees node pair classified.txClass flight.request.expiry now escapePrevouts
  unfold admitReserved
  split
  · rename_i refused failed
    rw [failed] at agrees
    have unwound := shrinks_unwind mounted created pair.commitmentId (s := s)
    refine Shrinks.registers ?_ agrees.2.1
    simp only
    split_ifs
    · exact unwound.trans (shrinks_stage mounted _ carrier)
    · exact unwound
  · rename_i signed fireAt valid
    rw [valid] at agrees
    obtain ⟨id, escapeId, _⟩ := validatePair_names node valid
    rw [← id, ← escapeId,
      show node.pairExit pair classified.txClass flight.request.expiry now escapePrevouts = .admission from agrees]
    exact admitPair_registers mounted flight verdict carrier signed _ _ fireAt now created clock

theorem meterSpend_registers (pair : SpendPair) (classified : Classification) (now : Nat)
    (escapePrevouts : Option PrevoutFetch) (clock : RegistrationClock) :
    Registers (if classified.txClass = .hot ∧ node.channel.isSome ∧ (s.store.hotBudget.reserve pair.commitmentId
          classified.hotOutflow clock.reserve clock.wall flight.request.expiry).2.isOk = false then Exit.hotVelocity
        else node.pairExit pair classified.txClass flight.request.expiry now escapePrevouts) carrier pair.commitmentId
      pair.escapeCommitmentId s
      (node.meterSpend flight verdict carrier pair classified now escapePrevouts clock s) := by
  unfold meterSpend
  simp only [mounted, Option.isSome_some, and_true, true_and]
  by_cases hot : classified.txClass = .hot
  · simp only [hot, if_true, true_and]
    generalize s.store.hotBudget.reserve pair.commitmentId classified.hotOutflow clock.reserve clock.wall
      flight.request.expiry = answer
    have written : Shrinks s { s with store := { s.store with hotBudget := answer.1 } } :=
      shrinks_of_same rfl rfl rfl rfl
    cases verdictOf : answer.2 with
    | error refused => exact Shrinks.registers (written.trans (shrinks_stage mounted _ carrier)) (by simp [Except.isOk, Except.toBool])
    | ok created =>
      have reserved := admitReserved_registers mounted (s := { s with
        store := { s.store with hotBudget := answer.1 } }) flight verdict carrier pair classified now escapePrevouts
        created clock
      rw [hot] at reserved
      simp only [Except.isOk, Except.toBool, Bool.true_eq_false, if_false]
      exact reserved.after written
  · simp only [hot, if_false, false_and]
    exact admitReserved_registers mounted flight verdict carrier pair classified now escapePrevouts false clock

theorem judgeSpend_registers (pair : SpendPair) (now : Nat) (spendPrevouts escapePrevouts : Option PrevoutFetch)
    (clock : RegistrationClock) :
    Registers (node.judgeExit flight.request pair now spendPrevouts escapePrevouts clock s) carrier pair.commitmentId
      pair.escapeCommitmentId s
      (node.judgeSpend flight verdict carrier pair now spendPrevouts escapePrevouts clock s) := by
  have recorded : ∀ {refused exit} {u : NodeState}, Shrinks s u → exit ≠ Exit.admission →
      Registers exit carrier pair.commitmentId pair.escapeCommitmentId s
        (recordRefusal pair flight.request.expiry refused u) :=
    fun shrinks other => Shrinks.registers (shrinks.trans (shrinks_of_same rfl rfl rfl rfl)) other
  have unmoved : Shrinks s s := shrinks_of_same rfl rfl rfl rfl
  unfold judgeSpend judgeExit
  simp only
  cases node.rules.verifySpend pair.spend spendPrevouts with
  | error refused =>
    by_cases perTx : refused.code = .hotBudgetExceeded
    · simp only [if_pos perTx]
      exact recorded (shrinks_stage mounted _ carrier) (by simp)
    · simp only [if_neg perTx]
      exact recorded unmoved (by simp)
  | ok _ =>
    cases node.rules.classify pair.spend with
    | error violation => exact recorded unmoved (by simp)
    | ok classified =>
      by_cases refresh : classified.txClass = .refresh
      · simp only [if_pos refresh]
        exact recorded unmoved (by simp)
      · simp only [if_neg refresh]
        exact meterSpend_registers mounted flight verdict carrier pair classified now escapePrevouts clock

theorem answerPair_registers (pair : SpendPair) (now : Nat) (spendPrevouts escapePrevouts : Option PrevoutFetch)
    (clock : RegistrationClock) :
    Registers (node.answerExit flight.request pair now spendPrevouts escapePrevouts clock s) carrier pair.commitmentId
      pair.escapeCommitmentId s
      (node.answerPair flight verdict carrier pair now spendPrevouts escapePrevouts clock s) := by
  have pruned : Shrinks s { s with sign := { s.sign with replay := ReplayLog.prune s.sign.replay now } } :=
    shrinks_of_same rfl rfl rfl rfl
  unfold answerPair answerExit
  simp only [get_prune]
  cases ReplayLog.get s.sign.replay pair.acceptedReplayKey now with
  | some recorded =>
    refine ⟨fun id absent present => ?_, fun admission => by cases admission⟩
    simp only [replayAccepted, stageSpendCarrier, onStore, mounted] at present
    obtain ⟨later, found⟩ := Option.ne_none_iff_exists'.mp present
    obtain ⟨earlier, before, _⟩ := applyArmDirective_lookup found
    rw [absent] at before
    cases before
  | none =>
    cases ReplayLog.get s.sign.replay pair.commitmentId now with
    | some recorded => exact pruned.registers (by simp)
    | none =>
      cases nodeLocalPrevoutFetchFailure spendPrevouts escapePrevouts with
      | some refused => exact Shrinks.registers (pruned.trans (shrinks_stage mounted _ carrier)) (by simp)
      | none =>
        have judged := judgeSpend_registers mounted (s := node.pruneLogs now clock.prune { s with
          sign := { s.sign with replay := ReplayLog.prune s.sign.replay now } }) flight verdict carrier pair now
          spendPrevouts escapePrevouts clock
        rw [judgeExit_pruned mounted] at judged
        exact judged.after (pruned.trans (shrinks_pruneLogs mounted now clock.prune))

/-- The pair that a hold may register is the one the request decodes to. -/
theorem registrationHold_registers (spendPrevouts escapePrevouts : Option PrevoutFetch) (clock : RegistrationClock) :
    let exit := node.registrationExit flight.request spendPrevouts escapePrevouts clock s
    let out := node.registrationHold flight verdict carrier spendPrevouts escapePrevouts clock s
    Shrinks s out.1 ∧ exit ≠ .admission ∨
      ∃ pair, node.decodePair flight.request = .ok pair ∧
        Registers exit carrier pair.commitmentId pair.escapeCommitmentId s out := by
  have unmoved : Shrinks s s := shrinks_of_same rfl rfl rfl rfl
  unfold registrationHold registrationExit
  simp only
  cases s.lockdown with
  | true => exact .inl ⟨unmoved, by simp⟩
  | false =>
    simp only [Bool.false_eq_true, if_false]
    cases node.clockRefusal "post-preflight" flight.request.expiry clock.wall
        (s.sign.coordNonces.effectiveNow clock.wall) with
    | some refused => exact .inl ⟨shrinks_stage mounted _ carrier, by simp⟩
    | none =>
      simp only [Option.isSome_none, Bool.false_eq_true, if_false]
      cases node.decodePair flight.request with
      | error result => exact .inl ⟨unmoved, by simp⟩
      | ok pair =>
        exact .inr ⟨pair, rfl, answerPair_registers mounted flight verdict carrier pair _ spendPrevouts escapePrevouts
          clock⟩

end Registration

end Registering

/-! ### The holds in front of the registration -/

/-- The arm hook puts the carrier's intent under its handler and leaves its holders and its readiness, which a new
intent has none of. -/
structure Hooked (carrier : String) (s t : NodeState) : Prop where
  outbox : t.outbox = s.outbox
  shrinks : Shrinks s t
  own : ∃ i old, t.store.intents.lookup carrier = some i ∧ i.ownerRuling = true ∧ i.holders = old.holders ∧
    i.readyToPropagate = old.readyToPropagate ∧ i.deadline = old.deadline ∧
    (s.store.intents.lookup carrier = some old ∨
      s.store.intents.lookup carrier = none ∧ old.readyToPropagate = false)
  others : ∀ c, c ≠ carrier → t.store.intents.lookup c = s.store.intents.lookup c

theorem recordArmIntent_intents (s : PartialStore) (duress : Bool) (carrier nonce : String)
    (generation : MemoGeneration) (firstSeen now : Nat) (timing : DuressTiming) :
    let intent := (s.intents.lookup carrier).getD (freshIntent generation firstSeen)
    (s.recordArmIntent duress carrier nonce generation firstSeen now timing).1.intents =
      s.intents.insert carrier { intent with duress := intent.duress || duress, ownerRuling := true } := by
  unfold recordArmIntent upgradeMemo
  simp only
  split
  · split_ifs <;> rfl
  · rfl

theorem fireArmHook_hooked (node : NodeConfig) (verdict : PinVerdict) (carrier : String) {flight : Flight}
    {generation : MemoGeneration} (claimed : flight.generation = some generation) (now : Nat) (s : NodeState) :
    Hooked carrier s (node.fireArmHook verdict carrier flight now s).1 := by
  unfold fireArmHook
  simp only [claimed]
  have intents := recordArmIntent_intents s.store (decide (verdict = .duress)) carrier flight.request.nonce generation
    flight.now now node.duressTiming
  refine ⟨rfl, ?_, ?_, ?_⟩
  · unfold recordArmIntent upgradeMemo
    simp only
    split
    · split_ifs <;> exact shrinks_of_same rfl rfl rfl rfl
    · exact shrinks_of_same rfl rfl rfl rfl
  · simp only [intents, AList.lookup_insert]
    cases found : s.store.intents.lookup carrier with
    | none => exact ⟨_, freshIntent generation flight.now, rfl, rfl, rfl, rfl, rfl, .inr ⟨rfl, rfl⟩⟩
    | some old => exact ⟨_, old, rfl, rfl, rfl, rfl, rfl, .inl rfl⟩
  · intro c different
    simp only [intents]
    exact AList.lookup_insert_ne different

/-- The guard that the commit hold hands on. -/
theorem guardAfter_ruling {claim : Option MemoGuard} {guard : MemoGuard} (owned : claim = some guard)
    (upgrade : MemoUpgrade) (carrier : String) :
    ∃ ruling, guardAfter claim (some upgrade) carrier = some ruling ∧ ruling.rulingCarrier = some carrier := by
  rw [owned]
  exact ⟨_, rfl, rfl⟩

/-- The commit hold behind the flag: the hook, and then a refusal of this node or the way to window B. -/
theorem commitHold_cases {node : NodeConfig} {ch : ChannelState} (mounted : node.channel = some ch) {flight : Flight}
    {generation : MemoGeneration} {guard : MemoGuard} (claimed : flight.generation = some generation)
    (owned : flight.claim = some guard) (verdict : PinVerdict) (carrier : String) (wall mono : Nat) {s : NodeState}
    (unlocked : s.lockdown = false) :
    let out := node.commitHold flight verdict carrier wall s
    ∃ hooked ruling, Hooked carrier s hooked ∧ ruling.rulingCarrier = some carrier ∧
      Shrinks s out.1 ∧
      (Disciplined ch flight.request carrier mono true hooked out.1 ∧
          ((∃ response, out.2 = .leaving response (some ruling)) ∨
            ∃ response secs, out.2 = .backoff response (some ruling) secs) ∨
        out.2 = .windowB { flight with claim := some ruling } ∧ out.1.outbox = hooked.outbox ∧
          out.1.store = hooked.store) := by
  have hooked := fireArmHook_hooked node verdict carrier claimed (s.sign.coordNonces.effectiveNow wall) s
  obtain ⟨upgrade, upgraded⟩ : ∃ upgrade, (node.fireArmHook verdict carrier flight
      (s.sign.coordNonces.effectiveNow wall) s).2 = some upgrade := by
    unfold fireArmHook
    rw [claimed]
    exact ⟨_, rfl⟩
  obtain ⟨ruling, handed, rules⟩ := guardAfter_ruling owned upgrade carrier
  unfold commitHold
  simp only [unlocked, Bool.false_eq_true, if_false, upgraded, handed]
  generalize (node.fireArmHook verdict carrier flight (s.sign.coordNonces.effectiveNow wall) s).1 = h at hooked ⊢
  have staged : ∀ u : NodeState, Shrinks h u →
      Shrinks s (node.stageSpendCarrier (.spend flight.request) carrier u) :=
    fun u same => (hooked.shrinks.trans same).trans (shrinks_stage mounted _ carrier)
  refine ⟨h, ruling, hooked, rules, ?_⟩
  cases node.clockRefusal "post-pin" flight.request.expiry wall (s.sign.coordNonces.effectiveNow wall) with
  | some refused => exact ⟨staged h (shrinks_of_same rfl rfl rfl rfl), .inl ⟨disciplined_stage mounted carrier mono h, .inl ⟨_, rfl⟩⟩⟩
  | none =>
    generalize h.sign.pinBudget.charge verdict (s.sign.coordNonces.effectiveNow wall) node.pinBudgetConfig = charged
    have spent : Shrinks h { h with sign := { h.sign with pinBudget := charged.1 } } := shrinks_of_same rfl rfl rfl rfl
    have charging : Disciplined ch flight.request carrier mono false h
        { h with sign := { h.sign with pinBudget := charged.1 } } := disciplined_of_same rfl rfl
    cases charged.2.refuse with
    | true =>
      exact ⟨staged _ spent, .inl ⟨charging.after (disciplined_stage mounted carrier mono _), .inr ⟨_, _, rfl⟩⟩⟩
    | false => exact ⟨hooked.shrinks.trans spent, .inr ⟨rfl, rfl, rfl⟩⟩

/-- Ingress answers with the store as it was, or it claims the nonce behind its sweep. -/
theorem ingressHold_cases {node : NodeConfig} {ch : ChannelState} (mounted : node.channel = some ch)
    (request : SignRequest) (wall mono : Nat) (s : NodeState) :
    let out := node.ingressHold request wall mono s
    out.1.outbox = s.outbox ∧
      (out.1.store = s.store ∧ ((∃ result, out.2 = .answered result) ∨ ∃ response, out.2 = .unsent response) ∨
        ∃ now generation guard, out.2 = .windowA ⟨request, now, some generation, some guard⟩ ∧
          out.1.store = s.store.claimNonceInFlight request.nonce generation mono) := by
  unfold ingressHold
  simp only [mounted, Option.map_some]
  cases s.lockdown with
  | true => exact ⟨rfl, .inl ⟨rfl, .inl ⟨_, rfl⟩⟩⟩
  | false =>
    obtain ⟨nonces, checked⟩ := node.verifyCoordAuth request.coordRequest request.coordSig wall s.sign.coordNonces
      (some mono)
    cases checked with
    | error refused => exact ⟨rfl, .inl ⟨rfl, .inl ⟨_, rfl⟩⟩⟩
    | ok fresh =>
      simp only [Bool.false_eq_true, if_false]
      cases node.ensureRequestPropagatable (.spend request) with
      | error bad => exact ⟨rfl, .inl ⟨rfl, .inl ⟨_, rfl⟩⟩⟩
      | ok _ =>
        cases node.ensureDeliveryHorizon request.expiry fresh.1 with
        | some refused => exact ⟨rfl, .inl ⟨rfl, .inr ⟨_, rfl⟩⟩⟩
        | none => exact ⟨rfl, .inr ⟨_, _, _, rfl, rfl⟩⟩

/-! ### The whole call -/

/-- A call up to the release of its guard: what its last hold leaves and answers, and the guard. -/
structure HeldCall where
  state : NodeState
  result : SignResult
  claim : Option MemoGuard

def NodeConfig.heldSign (node : NodeConfig) (request : SignRequest) (compared : PinVerdict) (inputs : SignInputs)
    (s : NodeState) : HeldCall :=
  match node.ingressHold request inputs.ingressWall inputs.ingressMono s with
  | (s, .answered result) => ⟨s, result, none⟩
  | (s, .unsent response) => ⟨{ s with outbox := s.outbox ++ [.spend request] }, .ok response, none⟩
  | (s, .windowA flight) =>
    let verdict := pinVerdict compared request
    let carrier := node.carrierOf request
    match node.commitHold flight verdict carrier inputs.commitWall s with
    | (s, .leaving response claim) => ⟨s, .ok response, claim⟩
    | (s, .backoff response claim _) => ⟨s, .ok response, claim⟩
    | (s, .windowB flight) =>
      let fetched := node.prefetchSpendEscapePrevouts request inputs.replies
      let registered := node.registrationHold flight verdict carrier fetched.1 fetched.2 inputs.registration s
      ⟨registered.1, registered.2, flight.claim⟩

/-- The call returns what its last hold left, less the guard. -/
theorem handleSign_returns (node : NodeConfig) (request : SignRequest) (compared : PinVerdict) (inputs : SignInputs)
    (s : NodeState) :
    let held := node.heldSign request compared inputs s
    let out := node.handleSign request compared inputs s
    out.1.outbox = held.state.outbox ∧ out.1.store = (dropClaim held.claim inputs.exitMono held.state).store ∧
      out.2 = held.result := by
  have dropped : ∀ claim (u : NodeState), (dropClaim claim inputs.exitMono u).outbox = u.outbox := by
    intro claim u
    cases claim <;> rfl
  have slotless : ∀ claim (u : NodeState), (dropClaim claim inputs.exitMono (exitSpendPreflight u)).store =
      (dropClaim claim inputs.exitMono u).store := by
    intro claim u
    cases claim <;> rfl
  unfold handleSign heldSign
  simp only
  obtain ⟨entered, outcome⟩ := node.ingressHold request inputs.ingressWall inputs.ingressMono s
  cases outcome with
  | answered result => exact ⟨rfl, rfl, rfl⟩
  | unsent response => exact ⟨rfl, rfl, rfl⟩
  | windowA flight =>
    simp only
    obtain ⟨committed, outcome⟩ := node.commitHold flight (pinVerdict compared request) (node.carrierOf request)
      inputs.commitWall entered
    cases outcome with
    | leaving response claim => exact ⟨dropped _ _, rfl, rfl⟩
    | backoff response claim secs => exact ⟨dropped _ _, slotless _ _, rfl⟩
    | windowB flight => exact ⟨dropped _ _, rfl, rfl⟩

/-- What a call past the hook has done when its last hold ends: the request is pushed and the carrier marked, or
neither, and the intents of the others are swept at most. -/
structure Ruled (ch : ChannelState) (request : SignRequest) (carrier : String) (mono : Nat) (stages : Bool)
    (s t : NodeState) : Prop where
  outbox : t.outbox = s.outbox ++ if stages then [.spend request] else []
  own : ∃ i old, t.store.intents.lookup carrier = some i ∧ i.deadline = old.deadline ∧
    (if stages then ch.nodeId ∈ i.holders ∧ i.readyToPropagate = true
      else i.holders = old.holders ∧ i.readyToPropagate = old.readyToPropagate) ∧
    (s.store.intents.lookup carrier = some old ∨
      old.readyToPropagate = false ∧ ∀ i, s.store.intents.lookup carrier = some i → i.deadline ≤ mono)
  others : ∀ c, c ≠ carrier → Swept mono (s.store.intents.lookup c) (t.store.intents.lookup c)

/-- The sweep of the ingress hold, the hook and the holds behind it, in this order. -/
theorem ruled_of_holds {ch : ChannelState} {request : SignRequest} {carrier : String} {mono : Nat} {stages : Bool}
    {s entered hooked t : NodeState} (outbox : entered.outbox = s.outbox)
    (swept : ∀ c, Swept mono (s.store.intents.lookup c) (entered.store.intents.lookup c))
    (hook : Hooked carrier entered hooked) (held : Disciplined ch request carrier mono stages hooked t) :
    Ruled ch request carrier mono stages s t := by
  obtain ⟨pushed, f, effect, marks⟩ := held
  refine ⟨by rw [pushed, hook.outbox, outbox], ?_, ?_⟩
  · obtain ⟨i, old, here, ruled, holders, ready, deadline, origin⟩ := hook.own
    have before : s.store.intents.lookup carrier = some old ∨
        old.readyToPropagate = false ∧ ∀ i, s.store.intents.lookup carrier = some i → i.deadline ≤ mono := by
      obtain same | ⟨gone, i, was, dead⟩ := swept carrier
      · rw [← same]
        refine origin.imp id ?_
        rintro ⟨absent, unready⟩
        exact ⟨unready, by simp [absent]⟩
      · rw [gone] at origin
        obtain present | ⟨_, unready⟩ := origin
        · cases present
        · refine .inr ⟨unready, fun j found => ?_⟩
          rw [was] at found
          cases found
          exact dead
    refine ⟨f i, old, effect.own i here ruled, ?_⟩
    cases stages with
    | true =>
      obtain ⟨held, staged, kept, _⟩ := marks i
      refine ⟨kept.trans deadline, ?_, before⟩
      rw [if_pos rfl, held]
      exact ⟨Finset.mem_insert_self _ _, staged⟩
    | false =>
      have unchanged : f = id := marks
      rw [unchanged]
      exact ⟨deadline, ⟨holders, ready⟩, before⟩
  · intro c different
    have later := effect.others c different
    rw [hook.others c different] at later
    exact (swept c).trans later

theorem pairExit_ne_beforePin (node : NodeConfig) (pair : SpendPair) (txClass : TxClass) (expiry now : Nat)
    (escapePrevouts : Option PrevoutFetch) : node.pairExit pair txClass expiry now escapePrevouts ≠ .beforePin := by
  unfold pairExit
  repeat' split
  all_goals decide

theorem registrationExit_ne_beforePin (node : NodeConfig) (request : SignRequest)
    (spendPrevouts escapePrevouts : Option PrevoutFetch) (clock : RegistrationClock) (s : NodeState) :
    node.registrationExit request spendPrevouts escapePrevouts clock s ≠ .beforePin := by
  unfold registrationExit answerExit judgeExit
  simp only
  repeat' split
  all_goals first | decide | exact pairExit_ne_beforePin _ _ _ _ _ _

/-- The last reading of the monotonic clock before the guard is released. -/
def SignInputs.swept (inputs : SignInputs) : Nat := max inputs.ingressMono inputs.registration.prune

/-- A call is refused before the pin, or leaves by the flag in front of the hook, or is ruled by its exit. -/
theorem heldSign_cases {node : NodeConfig} {ch : ChannelState} (mounted : node.channel = some ch)
    (request : SignRequest) (compared : PinVerdict) (inputs : SignInputs) (s : NodeState) :
    let exit := node.signExit request compared inputs s
    let held := node.heldSign request compared inputs s
    exit = .beforePin ∧ held.state.store = s.store ∧ held.claim = none ∨
      exit = .lockdown ∧ Shrinks s held.state ∨
      exit ≠ .beforePin ∧ (∃ ruling, held.claim = some ruling ∧ ruling.rulingCarrier = some (node.carrierOf request)) ∧
        Ruled ch request (node.carrierOf request) inputs.swept exit.stages s held.state ∧
        (Shrinks s held.state ∧ exit ≠ .admission ∨
          ∃ pair, node.decodePair request = .ok pair ∧ Registers exit (node.carrierOf request) pair.commitmentId
            pair.escapeCommitmentId s (held.state, held.result)) := by
  obtain ⟨outbox, entry⟩ := ingressHold_cases mounted request inputs.ingressWall inputs.ingressMono s
  unfold signExit heldSign
  simp only
  generalize node.ingressHold request inputs.ingressWall inputs.ingressMono s = ingress at outbox entry ⊢
  obtain ⟨entered, outcome⟩ := ingress
  obtain ⟨store, ⟨result, answered⟩ | ⟨response, unsent⟩⟩ | ⟨now, generation, guard, flown, store⟩ := entry
  · cases answered
    exact .inl ⟨rfl, store, rfl⟩
  · cases unsent
    exact .inl ⟨rfl, store, rfl⟩
  · cases flown
    simp only at outbox store ⊢
    have entrySwept : ∀ c, Swept inputs.swept (s.store.intents.lookup c) (entered.store.intents.lookup c) := by
      intro c
      rw [store]
      exact (swept_pruneCarriers s.store c).later (le_max_left _ _)
    have shrinks : Shrinks s entered := by
      constructor
      · rw [store]
        exact fun _ absent => absent
      · rw [store]
        exact fun bounds => bounds
    generalize taken : (⟨request, now, some generation, some guard⟩ : Flight) = flight
    have same : flight.request = request := by rw [← taken]
    have claimed : flight.generation = some generation := by rw [← taken]
    have owned : flight.claim = some guard := by rw [← taken]
    cases locked : entered.lockdown with
    | true =>
      refine .inr (.inl ?_)
      unfold commitHold
      simp only [locked, if_true]
      exact ⟨trivial, shrinks⟩
    | false =>
      refine .inr (.inr ?_)
      obtain ⟨hooked, ruling, hook, rules, kept, commit⟩ := commitHold_cases mounted claimed owned
        (pinVerdict compared request) (node.carrierOf request) inputs.commitWall inputs.swept locked
      rw [same] at commit
      generalize node.commitHold flight (pinVerdict compared request) (node.carrierOf request) inputs.commitWall
        entered = committed at kept commit ⊢
      obtain ⟨t, outcome⟩ := committed
      obtain ⟨held, ⟨response, left⟩ | ⟨response, secs, left⟩⟩ | ⟨flown, outbox', store'⟩ := commit
      · cases left
        simp only [Bool.false_eq_true, if_false]
        exact ⟨by decide, ⟨ruling, rfl, rules⟩, ruled_of_holds outbox entrySwept hook held,
          .inl ⟨shrinks.trans kept, by decide⟩⟩
      · cases left
        exact ⟨by simp, ⟨ruling, rfl, rules⟩, ruled_of_holds outbox entrySwept hook held,
          .inl ⟨shrinks.trans kept, by simp⟩⟩
      · cases flown
        simp only at outbox' store' kept ⊢
        generalize node.prefetchSpendEscapePrevouts request inputs.replies = fetched
        have held := registrationHold_disciplined mounted (node.carrierOf request) t
          { flight with claim := some ruling } (pinVerdict compared request) fetched.1 fetched.2 inputs.registration
        have registers := registrationHold_registers mounted (s := t) { flight with claim := some ruling }
          (pinVerdict compared request) (node.carrierOf request) fetched.1 fetched.2 inputs.registration
        simp only [same] at held registers
        refine ⟨registrationExit_ne_beforePin node _ _ _ _ _, ⟨ruling, rfl, rules⟩, ?_, ?_⟩
        · have quiet : Disciplined ch request (node.carrierOf request) inputs.swept false hooked t :=
            disciplined_of_same outbox' (by rw [store'])
          exact ruled_of_holds outbox entrySwept hook (quiet.after (held.later (le_max_right _ _)))
        · obtain ⟨shrunk, other⟩ | ⟨pair, decoded, registers⟩ := registers
          · exact .inl ⟨(shrinks.trans kept).trans shrunk, other⟩
          · exact .inr ⟨pair, decoded, registers.after (shrinks.trans kept)⟩

/-- What the release of the guard leaves of the intents: the ruling ends, and an intent that was never staged or is
past its deadline goes with it. -/
theorem dropClaim_intents {guard : MemoGuard} {carrier : String} (rules : guard.rulingCarrier = some carrier)
    (mono : Nat) (s : NodeState) :
    let out := dropClaim (some guard) mono s
    out.store.candidates = s.store.candidates ∧
      (∀ c, c ≠ carrier → out.store.intents.lookup c = s.store.intents.lookup c) ∧
      ∀ i, s.store.intents.lookup carrier = some i → out.store.intents.lookup carrier =
        if i.readyToPropagate = true ∧ mono < i.deadline then some { i with ownerRuling := false } else none := by
  obtain ⟨released, dropped, candidates, intents⟩ : ∃ released : PartialStore,
      (dropClaim (some guard) mono s).store = released.endCarrierRuling carrier mono ∧
        released.candidates = s.store.candidates ∧ released.intents = s.store.intents := by
    unfold dropClaim
    simp only [rules]
    refine ⟨_, rfl, ?_⟩
    unfold releaseNonceClaim
    split_ifs <;> exact ⟨rfl, rfl⟩
  simp only [dropped]
  rw [← candidates, ← intents]
  unfold endCarrierRuling
  cases found : released.intents.lookup carrier with
  | none => exact ⟨rfl, fun _ _ => rfl, by simp⟩
  | some i =>
    simp only
    by_cases lapsed : (!i.readyToPropagate || decide (i.deadline ≤ mono)) = true
    · simp only [if_pos lapsed]
      refine ⟨rfl, fun c different => ?_, ?_⟩
      · simp [retireCarrier, updateIntent, different, lookup_adjust_ne different]
      · rintro _ ⟨⟩
        have ended : ¬(i.readyToPropagate = true ∧ mono < i.deadline) := by
          rintro ⟨ready, alive⟩
          simp only [ready, Bool.not_true, Bool.false_or, decide_eq_true_eq] at lapsed
          omega
        simp [retireCarrier, if_neg ended]
    · simp only [if_neg lapsed]
      refine ⟨rfl, fun c different => lookup_adjust_ne different _ _, ?_⟩
      rintro _ ⟨⟩
      simp only [Bool.or_eq_true, Bool.not_eq_true', decide_eq_true_eq, not_or, Bool.not_eq_false, not_le] at lapsed
      simp [updateIntent, lookup_adjust_self, found, lapsed]

theorem candidates_dropClaim (claim : Option MemoGuard) (mono : Nat) (s : NodeState) :
    (dropClaim claim mono s).store.candidates = s.store.candidates := by
  cases claim with
  | none => rfl
  | some guard =>
    obtain ⟨nonce, generation, ownsMemo, rulingCarrier⟩ := guard
    unfold dropClaim
    simp only
    generalize released : (if ownsMemo then s.store.releaseNonceClaim nonce generation else s.store) = store
    have kept : store.candidates = s.store.candidates := by
      rw [← released]
      unfold releaseNonceClaim
      split_ifs <;> rfl
    cases rulingCarrier with
    | none => exact kept
    | some carrier =>
      unfold endCarrierRuling
      simp only
      split
      · split_ifs <;> exact kept
      · exact kept

/-- The request is in the outbox and, when the last hold ends, the node among the holders of its own carrier: ready to
propagate, with an intent as `named` asks. At the return this still stands, unless the carrier's deadline has come. -/
def NodeConfig.Staged (node : NodeConfig) (ch : ChannelState) (request : SignRequest) (compared : PinVerdict)
    (inputs : SignInputs) (s : NodeState) (named : ArmIntent → Prop) : Prop :=
  let held := node.heldSign request compared inputs s
  let out := node.handleSign request compared inputs s
  out.1.outbox = s.outbox ++ [.spend request] ∧
    ∃ i, held.state.store.intents.lookup (node.carrierOf request) = some i ∧ ch.nodeId ∈ i.holders ∧
      i.readyToPropagate = true ∧ named i ∧ out.1.store.intents.lookup (node.carrierOf request) =
        if inputs.exitMono < i.deadline then some { i with ownerRuling := false } else none

/-- No holder comes or goes: every intent is one of before with the holders of before, and one that is lost was past
its deadline or is the carrier's own, never staged. -/
structure HoldersKept (carrier : String) (mono : Nat) (s t : PartialStore) : Prop where
  kept : ∀ c j, t.intents.lookup c = some j → ∃ i, s.intents.lookup c = some i ∧ j.holders = i.holders
  lost : ∀ c i, s.intents.lookup c = some i → t.intents.lookup c = none →
    c = carrier ∧ i.readyToPropagate = false ∨ i.deadline ≤ mono

section Call

variable {node : NodeConfig} {ch : ChannelState} {request : SignRequest} {compared : PinVerdict}
  {inputs : SignInputs} {s : NodeState}

theorem Ruled.staged {ruling : MemoGuard}
    (claimed : (node.heldSign request compared inputs s).claim = some ruling)
    (rules : ruling.rulingCarrier = some (node.carrierOf request)) {mono : Nat}
    (ruled : Ruled ch request (node.carrierOf request) mono true s (node.heldSign request compared inputs s).state)
    {named : ArmIntent → Prop}
    (names : ∀ i, (node.heldSign request compared inputs s).state.store.intents.lookup (node.carrierOf request) = some i →
      named i) :
    node.Staged ch request compared inputs s named := by
  obtain ⟨outbox, store, _⟩ := handleSign_returns node request compared inputs s
  obtain ⟨i, old, here, _, ⟨holder, ready⟩, _⟩ := ruled.own
  refine ⟨outbox.trans ruled.outbox, i, here, holder, ready, names i here, ?_⟩
  obtain ⟨_, _, own⟩ := dropClaim_intents rules inputs.exitMono (node.heldSign request compared inputs s).state
  rw [store, claimed, own i here]
  simp only [ready, true_and]

theorem Ruled.holdersKept {ruling : MemoGuard}
    (claimed : (node.heldSign request compared inputs s).claim = some ruling)
    (rules : ruling.rulingCarrier = some (node.carrierOf request)) {mono : Nat}
    (ruled : Ruled ch request (node.carrierOf request) mono false s (node.heldSign request compared inputs s).state) :
    HoldersKept (node.carrierOf request) (max mono inputs.exitMono) s.store
      (node.handleSign request compared inputs s).1.store := by
  obtain ⟨_, store, _⟩ := handleSign_returns node request compared inputs s
  obtain ⟨_, others, own⟩ := dropClaim_intents rules inputs.exitMono (node.heldSign request compared inputs s).state
  rw [store, claimed]
  obtain ⟨i, old, here, deadline, ⟨holders, ready⟩, origin⟩ := ruled.own
  have left := own i here
  constructor
  · intro c j found
    by_cases mine : c = node.carrierOf request
    · rw [mine, left] at found
      split_ifs at found with alive
      cases found
      obtain present | ⟨unready, _⟩ := origin
      · exact ⟨old, mine ▸ present, holders⟩
      · rw [ready, unready] at alive
        exact absurd alive.1 Bool.false_ne_true
    · rw [others c mine] at found
      obtain same | ⟨gone, _⟩ := ruled.others c mine
      · exact ⟨j, same ▸ found, rfl⟩
      · rw [gone] at found
        cases found
  · intro c k before gone
    by_cases mine : c = node.carrierOf request
    · subst mine
      obtain present | ⟨_, dead⟩ := origin
      · rw [before] at present
        cases present
        rw [left] at gone
        split_ifs at gone with alive
        rw [ready, deadline] at alive
        cases staged : old.readyToPropagate with
        | false => exact .inl ⟨rfl, rfl⟩
        | true =>
          refine .inr (le_max_of_le_right ?_)
          rw [staged] at alive
          exact not_lt.mp fun early => alive ⟨rfl, early⟩
      · exact .inr (le_max_of_le_left (dead k before))
    · rw [others c mine] at gone
      obtain same | ⟨_, i, was, dead⟩ := ruled.others c mine
      · rw [same, before] at gone
        cases gone
      · rw [before] at was
        cases was
        exact .inr (le_max_of_le_left dead)

end Call

/-- Whatever the state, the request, the clocks and the chain's replies are: a call that registers the pair, and one
that leaves past the hook with a refusal of this node alone, has staged its carrier, which names the pair it
registers; a refusal that is cached or that every honest node reaches by itself changes neither the outbox nor a
holder; and one before the pin leaves the intents and the memos as they were. -/
theorem staging_discipline {node : NodeConfig} {ch : ChannelState} (mounted : node.channel = some ch)
    (request : SignRequest) (compared : PinVerdict) (inputs : SignInputs) (s : NodeState) :
    let exit := node.signExit request compared inputs s
    let out := node.handleSign request compared inputs s
    (∀ id, s.store.candidates.lookup id = none → out.1.store.candidates.lookup id ≠ none →
        exit = .admission ∧ ∃ pair, node.decodePair request = .ok pair ∧
          (id = pair.commitmentId ∨ id = pair.escapeCommitmentId) ∧
          node.Staged ch request compared inputs s (fun i =>
            i.spendCommitmentId = pair.commitmentId ∧ i.escapeCommitmentId = pair.escapeCommitmentId)) ∧
      (exit = .admission → InBounds s.store → ∀ a, out.2 = .ok (.accepted a) →
        ∃ pair, node.decodePair request = .ok pair ∧ node.Staged ch request compared inputs s (fun i =>
          i.spendCommitmentId = pair.commitmentId ∧ i.escapeCommitmentId = pair.escapeCommitmentId)) ∧
      (exit.stages = true → node.Staged ch request compared inputs s (fun _ => True)) ∧
      (exit.uniform = true → out.1.outbox = s.outbox ∧
        HoldersKept (node.carrierOf request) (max inputs.swept inputs.exitMono) s.store out.1.store) ∧
      (exit = .beforePin → out.1.store.intents = s.store.intents ∧
        out.1.store.carriersByNonce = s.store.carriersByNonce) := by
  obtain ⟨outbox, store, answer⟩ := handleSign_returns node request compared inputs s
  have kept : (node.handleSign request compared inputs s).1.store.candidates =
      (node.heldSign request compared inputs s).state.store.candidates := by
    rw [store, candidates_dropClaim]
  have cases := heldSign_cases mounted request compared inputs s
  simp only at cases ⊢
  rw [kept, answer]
  generalize node.signExit request compared inputs s = exit at cases ⊢
  obtain ⟨rfl, unchanged, unclaimed⟩ | ⟨rfl, shrinks⟩ | ⟨behind, ⟨ruling, claimed, rules⟩, ruled, registers⟩ := cases
  · rw [unchanged]
    refine ⟨fun id absent present => absurd absent present, by simp, by simp [Exit.stages, Exit.nodeLocal],
      by simp [Exit.uniform], fun _ => ?_⟩
    rw [store, unclaimed]
    simp only [dropClaim, unchanged, and_self]
  · exact ⟨fun id absent present => absurd (shrinks.absent id absent) present, by simp,
      by simp [Exit.stages, Exit.nodeLocal], by simp [Exit.uniform], by simp⟩
  · refine ⟨?_, ?_, ?_, ?_, fun before => absurd before behind⟩
    · intro id absent present
      obtain ⟨shrinks, _⟩ | ⟨pair, decoded, registers⟩ := registers
      · exact absurd (shrinks.absent id absent) present
      · obtain ⟨rfl, member, names⟩ := registers.registered id absent present
        exact ⟨rfl, pair, decoded, member, ruled.staged claimed rules names⟩
    · rintro rfl bounds a accepted
      obtain ⟨_, other⟩ | ⟨pair, decoded, registers⟩ := registers
      · exact absurd rfl other
      · exact ⟨pair, decoded, ruled.staged claimed rules (registers.accepted rfl bounds a accepted)⟩
    · intro stages
      rw [stages] at ruled
      exact ruled.staged claimed rules (fun _ _ => trivial)
    · intro uniform
      have quiet : exit.stages = false := by cases exit <;> first | rfl | cases uniform
      rw [quiet] at ruled
      refine ⟨?_, ruled.holdersKept claimed rules⟩
      rw [outbox, ruled.outbox]
      simp

/-! ### What a call answers -/

section Answers

variable {node : NodeConfig}

theorem clockRefusal_code {label : String} {expiry rawNow now : Nat} {refused : Refusal}
    (stale : node.clockRefusal label expiry rawNow now = some refused) :
    refused.code ∈ [RefusalCode.commitmentExpired, .expiryTooShort] := by
  unfold clockRefusal ensureDeliveryHorizon at stale
  simp only at stale
  split_ifs at stale <;> cases stale <;> simp

theorem buildCandidates_code {lib : Library} {keys : CandidateKeys} {specs : List CandidateSpec} {refused : Refusal}
    (failed : buildCandidates lib keys specs = .error refused) : refused.code = .psbtInconsistent := by
  induction specs with
  | nil => cases failed
  | cons spec rest ih =>
    unfold buildCandidates at failed
    split at failed
    · cases failed
      rfl
    · split at failed
      · rename_i later
        cases failed
        exact ih later
      · cases failed

theorem registerPair_code {pair : RegisterPair} {monoNow : Nat} {s t : NodeState} {refused : Refusal}
    (failed : node.registerPair pair monoNow s = (t, .error refused)) :
    refused.code ∈ [RefusalCode.hotVelocityExceeded, .psbtInconsistent, .candidateCapacity] := by
  unfold registerPair at failed
  split at failed
  · cases failed
  · split at failed
    · rename_i built
      cases failed
      simp [buildCandidates_code built]
    · simp only at failed
      split at failed
      · rename_i answered
        cases failed
        unfold registrationRefusal at answered
        split at answered
        · split at answered <;> cases answered <;> simp [hotVelocityRefusal]
        · simp only at answered
          split_ifs at answered <;> cases answered <;> simp
      · cases failed

theorem decodePair_answers {request : SignRequest} {result : SignResult}
    (failed : node.decodePair request = .error result) (log : ReplayLog) :
    Exit.undecoded.Answers node request log result := by
  unfold decodePair at failed
  split at failed
  · cases failed
    exact .inl ⟨_, rfl⟩
  · split at failed
    · cases failed
      exact .inl ⟨_, rfl⟩
    · simp only at failed
      split_ifs at failed
      · cases failed
        exact .inr (refuses_of_code (List.mem_singleton_self _))
      · split at failed
        · cases failed
          exact .inl ⟨_, rfl⟩
        · cases failed

/-- A failed fetch has the one code of a prevout that cannot be verified. -/
theorem fetchPrevouts_error {psbt : Psbt} {reply : ChainReply} {response : SignResponse}
    (failed : fetchPrevouts psbt reply = .error response) :
    ∃ refused, response = .refusal refused ∧ refused.code = .psbtInconsistent := by
  unfold fetchPrevouts at failed
  split at failed
  · cases failed
    exact ⟨_, rfl, rfl⟩
  · simp only at failed
    split_ifs at failed
    cases failed
    exact ⟨_, rfl, rfl⟩

theorem prefetch_answers {request : SignRequest} {replies : Option (ChainReply × ChainReply)} {response : SignResponse}
    (failed : nodeLocalPrevoutFetchFailure (node.prefetchSpendEscapePrevouts request replies).1
      (node.prefetchSpendEscapePrevouts request replies).2 = some response) :
    Refuses [.psbtInconsistent] (.ok response) := by
  have coded : ∀ {psbts : Option Psbt} {reply response}, psbts.map (fun psbt => fetchPrevouts psbt reply) =
      some (.error response) → ∃ refused, response = .refusal refused ∧ refused.code = .psbtInconsistent := by
    intro psbts reply response mapped
    obtain ⟨psbt, _, fetched⟩ := Option.map_eq_some_iff.mp mapped
    exact fetchPrevouts_error fetched
  cases replies with
  | none => cases failed
  | some replies =>
    unfold nodeLocalPrevoutFetchFailure at failed
    split at failed
    · rename_i spend
      cases failed
      obtain ⟨refused, rfl, code⟩ := coded spend
      exact ⟨refused, rfl, by simp [code]⟩
    · rename_i escape _
      cases failed
      obtain ⟨refused, same, code⟩ := coded escape
      cases same
      exact ⟨_, rfl, by simp [code]⟩
    · rename_i other escape _
      obtain ⟨refused, same, _⟩ := coded escape
      exact absurd same (other refused)
    · cases failed

variable {ch : ChannelState} (mounted : node.channel = some ch) (flight : Flight) (verdict : PinVerdict)
  (carrier : String) (s : NodeState) (log : ReplayLog)

theorem admitPair_answers (pair : SpendPair) (txClass : TxClass) (outflow fireAt now : Nat) (created : Bool)
    (clock : RegistrationClock) :
    Exit.admission.Answers node flight.request log
      (node.admitPair flight verdict carrier pair txClass outflow fireAt now created clock s).2 := by
  unfold admitPair
  simp only
  split
  · rename_i failed
    exact .inr (refuses_of_code (registerPair_code failed))
  · exact .inl ⟨_, rfl⟩

theorem admitReserved_answers (pair : SpendPair) (classified : Classification) (now : Nat)
    (escapePrevouts : Option PrevoutFetch) (created : Bool) (clock : RegistrationClock) :
    (node.pairExit pair classified.txClass flight.request.expiry now escapePrevouts).Answers node flight.request log
      (node.admitReserved flight verdict carrier pair classified now escapePrevouts created clock s).2 := by
  have agrees := validatePair_agrees node pair classified.txClass flight.request.expiry now escapePrevouts
  unfold admitReserved
  split
  · rename_i refused failed
    rw [failed] at agrees
    exact agrees.2.2 flight.request log
  · rename_i signed fireAt valid
    rw [valid] at agrees
    rw [show node.pairExit pair classified.txClass flight.request.expiry now escapePrevouts = .admission from agrees]
    exact admitPair_answers flight verdict carrier s log signed _ _ fireAt now created clock

theorem meterSpend_answers (pair : SpendPair) (classified : Classification) (now : Nat)
    (escapePrevouts : Option PrevoutFetch) (clock : RegistrationClock) :
    (if classified.txClass = .hot ∧ node.channel.isSome ∧ (s.store.hotBudget.reserve pair.commitmentId
          classified.hotOutflow clock.reserve clock.wall flight.request.expiry).2.isOk = false then Exit.hotVelocity
        else node.pairExit pair classified.txClass flight.request.expiry now escapePrevouts).Answers node flight.request
      log (node.meterSpend flight verdict carrier pair classified now escapePrevouts clock s).2 := by
  unfold meterSpend
  simp only [← and_assoc]
  by_cases metered : classified.txClass = .hot ∧ node.channel.isSome = true
  · simp only [metered, true_and]
    generalize s.store.hotBudget.reserve pair.commitmentId classified.hotOutflow clock.reserve clock.wall
      flight.request.expiry = answer
    cases verdictOf : answer.2 with
    | error refused => exact refuses_of_code (List.mem_singleton_self _)
    | ok created =>
      simp only [Except.isOk, Except.toBool, Bool.true_eq_false, if_false]
      exact metered.1 ▸ admitReserved_answers flight verdict carrier _ log pair classified now escapePrevouts created
        clock
  · simp only [metered, false_and, if_false]
    exact admitReserved_answers flight verdict carrier s log pair classified now escapePrevouts false clock

theorem judgeSpend_answers (pair : SpendPair) (now : Nat) (spendPrevouts escapePrevouts : Option PrevoutFetch)
    (clock : RegistrationClock) :
    (node.judgeExit flight.request pair now spendPrevouts escapePrevouts clock s).Answers node flight.request log
      (node.judgeSpend flight verdict carrier pair now spendPrevouts escapePrevouts clock s).2 := by
  unfold judgeSpend judgeExit
  simp only
  cases checked : node.rules.verifySpend pair.spend spendPrevouts with
  | error refused =>
    by_cases perTx : refused.code = .hotBudgetExceeded
    · simp only [if_pos perTx]
      exact refuses_of_code (by simp [perTx])
    · simp only [if_neg perTx]
      exact ⟨refused, rfl, perTx, _, _, checked⟩
  | ok _ =>
    cases judged : node.rules.classify pair.spend with
    | error violation => exact .inr ⟨_, violation, judged, rfl⟩
    | ok classified =>
      by_cases refresh : classified.txClass = .refresh
      · simp only [if_pos refresh]
        exact .inl (refuses_of_code (List.mem_singleton_self _))
      · simp only [if_neg refresh]
        exact meterSpend_answers flight verdict carrier s log pair classified now escapePrevouts clock

theorem verifyCoordAuth_code {request : CoordRequest} {coordSig : String} {wall : Nat} {monoNow : Option Nat}
    {nonces nonces' : NonceLog} {response : SignResponse}
    (failed : node.verifyCoordAuth request coordSig wall nonces monoNow = (nonces', .error response)) :
    Refuses [.coordAuthInvalid, .commitmentExpired, .nonceReplayed, .coordNonceCapacity] (.ok response) := by
  unfold verifyCoordAuth at failed
  split at failed
  · rename_i unsigned
    cases failed
    unfold verifyCoordSignature at unsigned
    split at unsigned
    · cases unsigned
      exact refuses_of_code (by simp)
    · split at unsigned
      · cases unsigned
        exact refuses_of_code (by simp)
      · split_ifs at unsigned
        cases unsigned
        exact refuses_of_code (by simp)
  · simp only at failed
    split at failed
    · rename_i stale
      cases failed
      unfold nonceRefusal at stale
      split at stale <;> cases stale <;> exact refuses_of_code (by simp)
    · cases failed

/-- The first hold answers before the pin, or leaves the verdict cache to the next. -/
theorem ingressHold_exit (request : SignRequest) (wall mono : Nat) :
    match node.ingressHold request wall mono s with
    | (_, .answered result) => Exit.beforePin.Answers node request log result
    | (_, .unsent response) => Exit.beforePin.Answers node request log (.ok response)
    | (t, .windowA flight) => t.sign.replay = s.sign.replay ∧ flight.request = request := by
  unfold ingressHold
  cases s.lockdown with
  | true => exact .inr (refuses_of_code (by simp))
  | false =>
    simp only [Bool.false_eq_true, if_false]
    cases checked : node.verifyCoordAuth request.coordRequest request.coordSig wall s.sign.coordNonces
        (node.channel.map (fun _ => mono)) with
    | mk nonces decided =>
      cases decided with
      | error response =>
        obtain ⟨refused, answer, code⟩ := verifyCoordAuth_code checked
        exact .inr ⟨refused, answer, by simp only [List.mem_cons] at code ⊢; tauto⟩
      | ok fresh =>
        simp only
        cases node.ensureRequestPropagatable (.spend request) with
        | error bad => exact .inl ⟨bad, rfl⟩
        | ok _ =>
          cases late : node.ensureDeliveryHorizon request.expiry fresh.1 with
          | some refused =>
            unfold ensureDeliveryHorizon at late
            simp only at late
            split_ifs at late
            cases late
            exact .inr (refuses_of_code (by simp))
          | none => cases node.channel <;> exact ⟨rfl, rfl⟩

theorem commitHold_exit (wall : Nat) :
    match node.commitHold flight verdict carrier wall s with
    | (_, .leaving response _) =>
      (if s.lockdown then Exit.lockdown else .clock).Answers node flight.request log (.ok response)
    | (_, .backoff response _ _) => Exit.attempts.Answers node flight.request log (.ok response)
    | (t, .windowB next) => t.sign.replay = s.sign.replay ∧ next.request = flight.request := by
  have hooked : ∀ now, (node.fireArmHook verdict carrier flight now s).1.sign = s.sign := by
    intro now
    unfold fireArmHook
    cases flight.generation <;> rfl
  unfold commitHold
  cases s.lockdown with
  | true => exact rfl
  | false =>
    simp only [Bool.false_eq_true, if_false]
    cases stale : node.clockRefusal "post-pin" flight.request.expiry wall (s.sign.coordNonces.effectiveNow wall) with
    | some refused => exact refuses_of_code (clockRefusal_code stale)
    | none =>
      simp only [hooked]
      generalize s.sign.pinBudget.charge verdict (s.sign.coordNonces.effectiveNow wall) node.pinBudgetConfig = charged
      cases charged.2.refuse with
      | true => exact ⟨_, rfl⟩
      | false => exact ⟨rfl, rfl⟩

include mounted

theorem registrationHold_answers (spendPrevouts escapePrevouts : Option PrevoutFetch) (clock : RegistrationClock)
    (fetching : ∀ response, nodeLocalPrevoutFetchFailure spendPrevouts escapePrevouts = some response →
      Refuses [.psbtInconsistent] (.ok response)) :
    (node.registrationExit flight.request spendPrevouts escapePrevouts clock s).Answers node flight.request
      s.sign.replay (node.registrationHold flight verdict carrier spendPrevouts escapePrevouts clock s).2 := by
  unfold registrationHold registrationExit
  cases locked : s.lockdown with
  | true => exact rfl
  | false =>
    simp only [Bool.false_eq_true, if_false]
    cases stale : node.clockRefusal "post-preflight" flight.request.expiry clock.wall
        (s.sign.coordNonces.effectiveNow clock.wall) with
    | some refused => exact refuses_of_code (clockRefusal_code stale)
    | none =>
      simp only [Option.isSome_none, Bool.false_eq_true, if_false]
      cases decoded : node.decodePair flight.request with
      | error result => exact decodePair_answers decoded _
      | ok pair =>
        simp only
        unfold answerPair answerExit
        simp only [get_prune]
        cases accepted : ReplayLog.get s.sign.replay pair.acceptedReplayKey
            (s.sign.coordNonces.effectiveNow clock.wall) with
        | some recorded => exact ⟨pair, _, recorded, decoded, accepted, rfl⟩
        | none =>
          cases refused : ReplayLog.get s.sign.replay pair.commitmentId
              (s.sign.coordNonces.effectiveNow clock.wall) with
          | some recorded => exact ⟨pair, _, recorded, decoded, refused, rfl⟩
          | none =>
            cases failed : nodeLocalPrevoutFetchFailure spendPrevouts escapePrevouts with
            | some response => exact fetching response failed
            | none =>
              rw [← judgeExit_pruned mounted]
              exact judgeSpend_answers flight verdict carrier _ _ pair _ spendPrevouts escapePrevouts clock

end Answers

/-- The exits are the handler's: whatever the state, the request, the clocks and the replies are, the answer is that of
the exit. -/
theorem signExit_answers {node : NodeConfig} {ch : ChannelState} (mounted : node.channel = some ch)
    (request : SignRequest) (compared : PinVerdict) (inputs : SignInputs) (s : NodeState) :
    (node.signExit request compared inputs s).Answers node request s.sign.replay
      (node.handleSign request compared inputs s).2 := by
  have entry := @ingressHold_exit node s s.sign.replay request inputs.ingressWall inputs.ingressMono
  unfold signExit handleSign
  generalize node.ingressHold request inputs.ingressWall inputs.ingressMono s = ingress at entry ⊢
  obtain ⟨entered, outcome⟩ := ingress
  cases outcome with
  | answered result => exact entry
  | unsent response => exact entry
  | windowA flight =>
    obtain ⟨kept, same⟩ := entry
    have commit := @commitHold_exit node flight (pinVerdict compared request) (node.carrierOf request) entered
      s.sign.replay inputs.commitWall
    simp only
    generalize node.commitHold flight (pinVerdict compared request) (node.carrierOf request) inputs.commitWall
      entered = committed at commit ⊢
    obtain ⟨t, outcome⟩ := committed
    rw [same] at commit
    cases outcome with
    | leaving response claim => exact commit
    | backoff response claim secs => exact commit
    | windowB next =>
      obtain ⟨log, again⟩ := commit
      have held := registrationHold_answers mounted next (pinVerdict compared request) (node.carrierOf request) t
        (node.prefetchSpendEscapePrevouts request inputs.replies).1
        (node.prefetchSpendEscapePrevouts request inputs.replies).2 inputs.registration
        (fun _ failed => prefetch_answers failed)
      rw [log, kept, again] at held
      exact held

namespace Sample
open Channel.Sample

/-- A call at one instant with both chain replies. -/
def callInputs (now : Nat) : SignInputs :=
  ⟨now, now, now, ⟨now, now, now, now⟩, some (.ok [some coin], .ok [some coin]), now⟩

theorem staging_discipline_sample :
    node.signExit (spendRequest "n1" 5000) .normal (callInputs 1000) start = .admission ∧
      node.Staged channel (spendRequest "n1" 5000) .normal (callInputs 1000) start (fun _ => True) := by
  have admitted : node.signExit (spendRequest "n1" 5000) .normal (callInputs 1000) start = .admission := by
    decide
  refine ⟨admitted, (staging_discipline rfl _ _ _ _).2.2.1 ?_⟩
  rw [admitted]
  rfl

end Sample

end BtcPolicy.Node
