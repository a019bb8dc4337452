import BtcPolicy.Node.State

/-! The spend handler: three holds of the signing lock around two windows without it. Every hold is one
function from the node's state to the next; what a hold hands to the next one is the handler's own. -/

namespace BtcPolicy.Node
open FiniteMap Word Bitcoin HotLedger Replay Channel Pin Policy

/-- `InFlightMemoGuard`: what the handler owes the memo map and its carrier when it leaves. -/
structure MemoGuard where
  nonce : String
  generation : MemoGeneration
  ownsMemo : Bool
  rulingCarrier : Option String
  deriving DecidableEq, Repr

/-- A request between its holds. `now` is the effective clock of the ingress hold. -/
structure Flight where
  request : SignRequest
  now : Nat
  generation : Option MemoGeneration
  claim : Option MemoGuard
  deriving DecidableEq, Repr

/-- `unsent` has dropped the lock and still owes the outbox its push. -/
inductive IngressOutcome where
  | answered (result : SignResult)
  | unsent (response : SignResponse)
  | windowA (flight : Flight)

/-- `backoff` gives its preflight slot back before it sleeps; `leaving` gives it back on return. -/
inductive CommitOutcome where
  | leaving (response : SignResponse) (claim : Option MemoGuard)
  | backoff (response : SignResponse) (claim : Option MemoGuard) (secs : Nat)
  | windowB (flight : Flight)

/-- The clock readings of one registration hold: the wall clock, and the monotonic one at each of the three
registry operations that read it. -/
structure RegistrationClock where
  wall : Nat
  prune : Nat
  reserve : Nat
  register : Nat
  deriving DecidableEq, Repr

structure SpendPair where
  spend : Psbt
  escape : Psbt
  escapeBumps : List Psbt
  commitmentId : String
  escapeCommitmentId : String
  acceptedReplayKey : String

structure RegisterPair where
  spend : Psbt
  spendCommitmentId : String
  spendHot : Bool
  duress : Bool
  confirmationRequired : Bool
  escape : Psbt
  escapeBumps : List Psbt
  escapeCommitmentId : String
  fire : FireWindow
  expiry : Nat
  now : Nat
  hotReserve : Option HotReserveSpec
  carrier : String

/-- A refusal between the reservation and the admission, and whether it stages the carrier. -/
structure PairRefusal where
  refusal : Refusal
  stages : Bool

namespace RegisterPair

/-- The spend, and the escape where it is a transaction of its own. -/
def specs (pair : RegisterPair) : List CandidateSpec :=
  let spend : CandidateSpec :=
    ⟨pair.spend, [], pair.spendCommitmentId, pair.escapeCommitmentId, !pair.confirmationRequired, .spend,
      pair.spendHot, some pair.fire, pair.expiry⟩
  let escape : CandidateSpec :=
    ⟨pair.escape, pair.escapeBumps, pair.escapeCommitmentId, pair.spendCommitmentId, !pair.confirmationRequired,
      .escape, false, none, pair.expiry⟩
  if pair.escapeCommitmentId ≠ pair.spendCommitmentId then [spend, escape] else [spend]

end RegisterPair

/-- Build the candidates in order; the first that fails names itself. -/
def buildCandidates (lib : Library) (keys : CandidateKeys) : List CandidateSpec → Except Refusal (List Candidate)
  | [] => .ok []
  | spec :: rest =>
    match Candidate.build lib spec keys with
    | .error e =>
      let id := spec.commitmentId
      .error ⟨.psbtInconsistent, "candidate_registration", s!"cannot build candidate {id}: {e}"⟩
    | .ok candidate =>
      match buildCandidates lib keys rest with
      | .error refused => .error refused
      | .ok others => .ok (candidate :: others)

namespace NodeConfig

variable (node : NodeConfig)

/-! ### The shared registration -/

/-- The refusal of what the registry answered. -/
def registrationRefusal (pair : RegisterPair) :
    Except HotReserveRefusal (List RegisterOutcome) → Option Refusal
  | .error refused =>
    match pair.hotReserve with
    | some reserve => some (node.hotVelocityRefusal reserve.outflowSat refused)
    | none =>
      some ⟨.psbtInconsistent, "candidate_registration",
        "a non-hot candidate unexpectedly reached the hot-budget refusal path"⟩
  | .ok outcomes =>
    if outcomes.contains .conflict then
      some ⟨.psbtInconsistent, "candidate_identity",
        "this commitment is already registered under a different user-signature instance, sighash, or paired " ++
          "candidate"⟩
    else if outcomes.contains .atCapacity then
      let ids := ", ".intercalate (pair.specs.map CandidateSpec.commitmentId)
      some ⟨.candidateCapacity, "candidate_registry_capacity",
        s!"the bounded candidate registry cannot atomically retain request candidates: {ids}"⟩
    else none

def armDirective (pair : RegisterPair) : ArmDirective :=
  ⟨pair.escapeCommitmentId, pair.spendCommitmentId, pair.carrier, pair.duress, node.epsilonSecs, pair.now⟩

/-- Admit the whole pair or refuse the request. -/
def registerPair (pair : RegisterPair) (monoNow : Nat) (s : NodeState) : NodeState × Except Refusal Unit :=
  match node.channel with
  | none => (s, .ok ())
  | some ch =>
    match buildCandidates ch.lib node.keys pair.specs with
    | .error refused => (s, .error refused)
    | .ok candidates =>
      let registered := registerCandidates ch s.store candidates (node.armDirective pair) pair.hotReserve monoNow
      let s := { s with store := registered.1 }
      match node.registrationRefusal pair registered.2 with
      | some refused => (s, .error refused)
      | none => (s, .ok ())

/-! ### Ingress -/

/-- Coordinator auth and the nonce, the gates that do not read the pin, the slot and the claim. -/
def ingressHold (request : SignRequest) (wall mono : Nat) (s : NodeState) : NodeState × IngressOutcome :=
  if s.lockdown then (s, .answered (.ok fraudSuspected))
  else
    let monoNow := node.channel.map (fun _ => mono)
    match node.verifyCoordAuth request.coordRequest request.coordSig wall s.sign.coordNonces monoNow with
    | (nonces, .error refused) => ({ s with sign := { s.sign with coordNonces := nonces } }, .answered (.ok refused))
    | (nonces, .ok (effectiveNow, deadline)) =>
      let s := { s with sign := { s.sign with coordNonces := nonces } }
      match node.ensureRequestPropagatable (.spend request) with
      | .error bad => (s, .answered (.error bad))
      | .ok _ =>
        match node.ensureDeliveryHorizon request.expiry effectiveNow with
        | some refused => (s, .unsent (.refusal refused))
        | none =>
          let generation := node.channel.map (fun _ : ChannelState =>
            (⟨armSignatureTag node.lib request.coordSig, request.expiry, deadline.getD 0⟩ : MemoGeneration))
          let claim := generation.map (fun generation => (⟨request.nonce, generation, true, none⟩ : MemoGuard))
          let s := { s with spendPreflight := s.spendPreflight + 1 }
          let s := match generation with
            | some generation => { s with store := s.store.claimNonceInFlight request.nonce generation mono }
            | none => s
          (s, .windowA ⟨request, effectiveNow, generation, claim⟩)

/-! ### Window A -/

/-- Both digests are always computed and `compared` is what they say; an empty or over-long pin is forced wrong
afterwards. -/
def pinVerdict (compared : PinVerdict) (request : SignRequest) : PinVerdict :=
  if request.pin.isEmpty || decide (maxPinBytes < request.pin.utf8ByteSize) then .wrong else compared

def carrierOf (request : SignRequest) : String :=
  if node.channel.isSome then node.armCarrierId request.coordRequest else ""

/-! ### Commit -/

/-- The hook fires for every verdict; only the delta and the intent's bit differ. -/
def fireArmHook (verdict : PinVerdict) (carrier : String) (flight : Flight) (now : Nat) (s : NodeState) :
    NodeState × Option MemoUpgrade :=
  let duress := decide (verdict = .duress)
  let s := { s with duressArm := s.duressArm + if duress then 1 else 0 }
  match flight.generation with
  | none => (s, none)
  | some generation =>
    let recorded := s.store.recordArmIntent duress carrier flight.request.nonce generation flight.now now
      node.duressTiming
    ({ s with store := recorded.1 }, some recorded.2)

/-- The carrier is ruled in all three cases; a derived memo takes the memo over. -/
def guardAfter (claim : Option MemoGuard) (upgrade : Option MemoUpgrade) (carrier : String) : Option MemoGuard :=
  match claim, upgrade with
  | some claim, some upgrade =>
    let ownsMemo := match upgrade with
      | .upgraded | .reinstalled => false
      | .superseded => claim.ownsMemo
    some { claim with ownsMemo := ownsMemo, rulingCarrier := some carrier }
  | claim, _ => claim

/-- The three clock predicates of a hold. `label` names the window that has passed. -/
def clockRefusal (label : String) (expiry rawNow now : Nat) : Option Refusal :=
  let maxAge := node.maxCommitmentAgeSecs
  if expiry ≤ now then
    some ⟨.commitmentExpired, "commitment_expiry",
      s!"expiry {expiry} is at or before this node's {label} clock (now {now}); forwarded but not signed"⟩
  else if satAdd rawNow maxAge < expiry then
    some ⟨.commitmentExpired, "commitment_expiry",
      s!"expiry {expiry} exceeds now + max age {maxAge}s (raw clock; a backward step forwarded but did not " ++
        "sign)"⟩
  else node.ensureDeliveryHorizon expiry now

def commitHold (flight : Flight) (verdict : PinVerdict) (carrier : String) (wall : Nat) (s : NodeState) :
    NodeState × CommitOutcome :=
  if s.lockdown then (s, .leaving fraudSuspected flight.claim)
  else
    let now := s.sign.coordNonces.effectiveNow wall
    let hooked := node.fireArmHook verdict carrier flight now s
    let claim := guardAfter flight.claim hooked.2 carrier
    let s := hooked.1
    let staged := node.stageSpendCarrier (.spend flight.request) carrier
    match node.clockRefusal "post-pin" flight.request.expiry wall now with
    | some refused => (staged s, .leaving (.refusal refused) claim)
    | none =>
      let charged := s.sign.pinBudget.charge verdict now node.pinBudgetConfig
      let s := { s with sign := { s.sign with pinBudget := charged.1 } }
      if charged.2.refuse then (staged s, .backoff (pinRefusal charged.2.locked) claim charged.2.backoff)
      else (s, .windowB { flight with claim := claim })

/-! ### Registration -/

/-- Decode both PSBTs, bound the ladder, decode it, and name the pair. -/
def decodePair (request : SignRequest) : Except SignResult SpendPair :=
  match node.decodePsbt request.psbt "spend" with
  | .error bad => .error (.error bad)
  | .ok spend =>
    match node.decodePsbt request.escapePsbt "escape" with
    | .error bad => .error (.error bad)
    | .ok escape =>
      let rungs := request.escapeBumps.length
      if maxEscapeBumps < rungs then
        .error (.ok (refusal .psbtInconsistent "escape:bump_ladder"
          (s!"the escape fee-bump ladder has {rungs} rungs, more than the {maxEscapeBumps} a request may " ++
            "authorize")))
      else
        match request.escapeBumps.mapM (fun bump => node.decodePsbt bump "escape_bump") with
        | .error bad => .error (.error bad)
        | .ok bumps =>
          let id := node.rules.commitmentId spend request.expiry
          let escapeId := node.rules.commitmentId escape request.expiry
          let rungs := bumps.zipIdx.map (fun bump => (s!"escape_bump:{bump.2}", bump.1))
          .ok ⟨spend, escape, bumps, id, escapeId,
            node.acceptanceReplayKey ((id, spend) :: (escapeId, escape) :: rungs)⟩

def firstRefusal (check : Psbt → Except Refusal Unit) : List Psbt → Except Refusal Unit
  | [] => .ok ()
  | psbt :: rest =>
    match check psbt with
    | .error refused => .error refused
    | .ok _ => firstRefusal check rest

/-- When the spend may fire, by its class. -/
def fireAt (txClass : TxClass) (now : Nat) : Except PairRefusal Nat :=
  match txClass with
  | .hot => .ok (satAdd now node.holdSecs)
  | .escape => .ok now
  | .refresh =>
    .error ⟨⟨.psbtInconsistent, "transaction_class",
      "a RefreshRequest must use the pin-less refresh request variant"⟩, false⟩

/-- A hot spend must outlive its Hold and the combine window after it. -/
def holdRefusal (txClass : TxClass) (expiry now fireAt : Nat) : Option PairRefusal :=
  let hold := node.holdSecs
  let slack := node.combineSlackSecs
  let floor := satAdd fireAt slack
  if txClass = .hot ∧ expiry < floor then
    some ⟨⟨.expiryTooShort, "commitment_expiry",
      s!"expiry {expiry} is before {floor} (now {now} + hold_secs {hold} + combine_slack_secs {slack}), so the " ++
        "spend could not finish combining before it expired"⟩, true⟩
  else none

def signPsbt (psbt : Psbt) : Except PairRefusal Psbt :=
  match node.rules.addNodeSignatures psbt with
  | .ok signed => .ok signed
  | .error detail => .error ⟨⟨.psbtInconsistent, "signing", detail⟩, false⟩

/-- Everything between the reservation and the admission, in order. It reads the transactions and the clock
and writes nothing. -/
def validatePair (pair : SpendPair) (txClass : TxClass) (expiry now : Nat) (escapePrevouts : Option PrevoutFetch) :
    Except PairRefusal (SpendPair × Nat) := do
  let plain := fun (checked : Except Refusal Unit) => checked.mapError (fun refused => PairRefusal.mk refused false)
  plain (node.rules.verifyEscape pair.escape escapePrevouts)
  plain (node.rules.ensureEscapeLadder pair.escape pair.escapeBumps
    (decide (pair.escapeCommitmentId = pair.commitmentId)))
  plain (firstRefusal (fun bump => node.rules.verifyEscape bump escapePrevouts) pair.escapeBumps)
  if txClass = .escape ∧ pair.escapeCommitmentId = pair.commitmentId then
    throw ⟨⟨.psbtInconsistent, "escape_class_residual",
      "an escape-class spend completes immediately, so its mandatory escape must be a distinct disjoint residual " ++
        "candidate for the T-time sweep"⟩, false⟩
  let fire ← node.fireAt txClass now
  match node.holdRefusal txClass expiry now fire with
  | some refused => throw refused
  | none =>
    let spend ← node.signPsbt pair.spend
    let escape ← node.signPsbt pair.escape
    let bumps ← pair.escapeBumps.mapM node.signPsbt
    pure ({ pair with spend := spend, escape := escape, escapeBumps := bumps }, fire)

/-- Hand back the reservation this call created. -/
def unwindHotReservation (created : Bool) (commitmentId : String) (s : NodeState) : NodeState :=
  if created then
    node.onStore (fun _ store => { store with hotBudget := store.hotBudget.release commitmentId }) s
  else s

/-- The authorized set, the Hold timer of a hot spend, the verdict cache. -/
def recordAcceptance (pair : SpendPair) (hot : Bool) (expiry : Nat) (response : SignResponse) (s : NodeState) :
    NodeState :=
  let txids := (pair.spend :: pair.escape :: pair.escapeBumps).map (fun psbt => node.lib.computeTxid psbt.unsignedTx)
  let pending := if hot then PendingLog.record s.sign.pending pair.commitmentId expiry else s.sign.pending
  { s with
    authorized := s.authorized ∪ txids.toFinset
    sign := { s.sign with
      pending := pending
      replay := recordVerdict s.sign.replay pair.acceptedReplayKey expiry response } }

/-- Stage, register, and write what an acceptance writes. -/
def admitPair (flight : Flight) (verdict : PinVerdict) (carrier : String) (pair : SpendPair) (txClass : TxClass)
    (outflow fireAt now : Nat) (created : Bool) (clock : RegistrationClock) (s : NodeState) :
    NodeState × SignResult :=
  let request := flight.request
  let hot := decide (txClass = .hot)
  let staged := node.stageSpendCarrier (.spend request) carrier s
  let registered := node.registerPair
    { spend := pair.spend
      spendCommitmentId := pair.commitmentId
      spendHot := hot
      duress := decide (verdict = .duress)
      confirmationRequired := true
      escape := pair.escape
      escapeBumps := pair.escapeBumps
      escapeCommitmentId := pair.escapeCommitmentId
      fire := ⟨fireAt, min request.expiry (satAdd fireAt node.combineSlackSecs)⟩
      expiry := request.expiry
      now := now
      hotReserve := if hot then some ⟨pair.commitmentId, outflow, clock.wall, request.expiry⟩ else none
      carrier := carrier } clock.register staged
  match registered with
  | (s, .error refused) => (node.unwindHotReservation created pair.commitmentId s, .ok (.refusal refused))
  | (s, .ok _) =>
    let response : SignResponse := .accepted ⟨pair.commitmentId, now, fireAt - now⟩
    (node.recordAcceptance pair hot request.expiry response s, .ok response)

/-- Behind the reservation: the escape, the ladder and the admission. A refusal hands back what was reserved. -/
def admitReserved (flight : Flight) (verdict : PinVerdict) (carrier : String) (pair : SpendPair)
    (classified : Classification) (now : Nat) (escapePrevouts : Option PrevoutFetch) (created : Bool)
    (clock : RegistrationClock) (s : NodeState) : NodeState × SignResult :=
  match node.validatePair pair classified.txClass flight.request.expiry now escapePrevouts with
  | .error refused =>
    let s := node.unwindHotReservation created pair.commitmentId s
    (if refused.stages then node.stageSpendCarrier (.spend flight.request) carrier s else s, .ok (.refusal refused.refusal))
  | .ok (signed, fireAt) =>
    node.admitPair flight verdict carrier signed classified.txClass classified.hotOutflow fireAt now created clock s

/-- The velocity half of the Hot budget, before the escape is looked at. -/
def meterSpend (flight : Flight) (verdict : PinVerdict) (carrier : String) (pair : SpendPair)
    (classified : Classification) (now : Nat) (escapePrevouts : Option PrevoutFetch) (clock : RegistrationClock)
    (s : NodeState) : NodeState × SignResult :=
  let reserved : PartialStore × Except HotReserveRefusal Bool :=
    if classified.txClass = .hot ∧ node.channel.isSome then
      let answer := s.store.hotBudget.reserve pair.commitmentId classified.hotOutflow clock.reserve clock.wall
        flight.request.expiry
      ({ s.store with hotBudget := answer.1 }, answer.2)
    else (s.store, .ok false)
  let s := { s with store := reserved.1 }
  match reserved.2 with
  | .error refused =>
    (node.stageSpendCarrier (.spend flight.request) carrier s,
      .ok (.refusal (node.hotVelocityRefusal classified.hotOutflow refused)))
  | .ok created => node.admitReserved flight verdict carrier pair classified now escapePrevouts created clock s

/-- Record a refusal of the spend under its commitment. -/
def recordRefusal (pair : SpendPair) (expiry : Nat) (refused : Refusal) (s : NodeState) : NodeState × SignResult :=
  ({ s with sign := { s.sign with replay := recordVerdict s.sign.replay pair.commitmentId expiry (.refusal refused) } },
    .ok (.refusal refused))

/-- The spend's own validity and class. -/
def judgeSpend (flight : Flight) (verdict : PinVerdict) (carrier : String) (pair : SpendPair) (now : Nat)
    (spendPrevouts escapePrevouts : Option PrevoutFetch) (clock : RegistrationClock) (s : NodeState) :
    NodeState × SignResult :=
  let request := flight.request
  match node.rules.verifySpend pair.spend spendPrevouts with
  | .error refused =>
    let s := if refused.code = .hotBudgetExceeded then node.stageSpendCarrier (.spend request) carrier s else s
    recordRefusal pair request.expiry refused s
  | .ok _ =>
    match node.rules.classify pair.spend with
    | .error violation => recordRefusal pair request.expiry (policyRefusal violation) s
    | .ok classified =>
      if classified.txClass = .refresh then
        recordRefusal pair request.expiry ⟨.psbtInconsistent, "transaction_class",
          "every output pays the vault: a refresh must be submitted as a pin-less RefreshRequest, not a " ++
            "SpendRequest"⟩ s
      else node.meterSpend flight verdict carrier pair classified now escapePrevouts clock s

/-- An identical request that was accepted before: the cover overlay and the carrier's slots again. -/
def replayAccepted (flight : Flight) (verdict : PinVerdict) (carrier : String) (pair : SpendPair) (now : Nat)
    (s : NodeState) : NodeState :=
  let scheduled := node.onStore (fun _ store =>
    (store.applyCachedSchedule pair.escapeCommitmentId (decide (verdict = .duress)) now
      node.epsilonSecs).recordIntentPair carrier pair.commitmentId pair.escapeCommitmentId) s
  node.stageSpendCarrier (.spend flight.request) carrier scheduled

/-- The pruning sweep of both registration holds: the Hold timers, the interval clocks, the registry. -/
def pruneLogs (now pruneMono : Nat) (s : NodeState) : NodeState :=
  node.onStore (fun _ store => store.pruneStore now pruneMono) { s with
    sign := { s.sign with
      pending := PendingLog.prune s.sign.pending now
      refreshes := RefreshLog.prune s.sign.refreshes now node.refreshMinIntervalSecs } }

/-- The verdict cache, then the fetch, then the pruning sweep and the judgement. -/
def answerPair (flight : Flight) (verdict : PinVerdict) (carrier : String) (pair : SpendPair) (now : Nat)
    (spendPrevouts escapePrevouts : Option PrevoutFetch) (clock : RegistrationClock) (s : NodeState) :
    NodeState × SignResult :=
  let replay := ReplayLog.prune s.sign.replay now
  let s := { s with sign := { s.sign with replay := replay } }
  match ReplayLog.get replay pair.acceptedReplayKey now with
  | some recorded => (node.replayAccepted flight verdict carrier pair now s, .ok recorded)
  | none =>
    match ReplayLog.get replay pair.commitmentId now with
    | some recorded => (s, .ok recorded)
    | none =>
      match nodeLocalPrevoutFetchFailure spendPrevouts escapePrevouts with
      | some refused => (node.stageSpendCarrier (.spend flight.request) carrier s, .ok refused)
      | none =>
        node.judgeSpend flight verdict carrier pair now spendPrevouts escapePrevouts clock
          (node.pruneLogs now clock.prune s)

def registrationHold (flight : Flight) (verdict : PinVerdict) (carrier : String)
    (spendPrevouts escapePrevouts : Option PrevoutFetch) (clock : RegistrationClock) (s : NodeState) :
    NodeState × SignResult :=
  if s.lockdown then (s, .ok fraudSuspected)
  else
    let now := s.sign.coordNonces.effectiveNow clock.wall
    match node.clockRefusal "post-preflight" flight.request.expiry clock.wall now with
    | some refused => (node.stageSpendCarrier (.spend flight.request) carrier s, .ok (.refusal refused))
    | none =>
      match node.decodePair flight.request with
      | .error result => (s, result)
      | .ok pair => node.answerPair flight verdict carrier pair now spendPrevouts escapePrevouts clock s

/-- The two batches of window B; a PSBT that does not decode is not fetched. -/
def prefetchSpendEscapePrevouts (request : SignRequest) (replies : Option (ChainReply × ChainReply)) :
    Option PrevoutFetch × Option PrevoutFetch :=
  match replies with
  | none => (none, none)
  | some (spend, escape) =>
    ((node.decodePsbt request.psbt "spend").toOption.map (fun psbt => fetchPrevouts psbt spend),
      (node.decodePsbt request.escapePsbt "escape").toOption.map (fun psbt => fetchPrevouts psbt escape))

/-! ### Leaving -/

/-- The guard's two releases, neither conditional on the other. -/
def dropClaim (claim : Option MemoGuard) (mono : Nat) (s : NodeState) : NodeState :=
  match claim with
  | none => s
  | some guard =>
    let released := if guard.ownsMemo then s.store.releaseNonceClaim guard.nonce guard.generation else s.store
    let ended := match guard.rulingCarrier with
      | some carrier => released.endCarrierRuling carrier mono
      | none => released
    { s with store := ended }

def exitSpendPreflight (s : NodeState) : NodeState := { s with spendPreflight := s.spendPreflight - 1 }

end NodeConfig

/-- What one call of the handler reads from outside: the clocks of its holds and the chain's replies. -/
structure SignInputs where
  ingressWall : Nat
  ingressMono : Nat
  commitWall : Nat
  registration : RegistrationClock
  replies : Option (ChainReply × ChainReply)
  exitMono : Nat

/-- The handler from its call to its return, with nothing else running in its windows. `compared` is what the
pin evaluator answers. -/
def NodeConfig.handleSign (node : NodeConfig) (request : SignRequest) (compared : PinVerdict) (inputs : SignInputs)
    (s : NodeState) : NodeState × SignResult :=
  match node.ingressHold request inputs.ingressWall inputs.ingressMono s with
  | (s, .answered result) => (s, result)
  | (s, .unsent response) => ({ s with outbox := s.outbox ++ [.spend request] }, .ok response)
  | (s, .windowA flight) =>
    let verdict := pinVerdict compared request
    let carrier := node.carrierOf request
    match node.commitHold flight verdict carrier inputs.commitWall s with
    | (s, .leaving response claim) =>
      (exitSpendPreflight (dropClaim claim inputs.exitMono s), .ok response)
    | (s, .backoff response claim _) =>
      (dropClaim claim inputs.exitMono (exitSpendPreflight s), .ok response)
    | (s, .windowB flight) =>
      let fetched := node.prefetchSpendEscapePrevouts request inputs.replies
      let registered := node.registrationHold flight verdict carrier fetched.1 fetched.2 inputs.registration s
      (exitSpendPreflight (dropClaim flight.claim inputs.exitMono registered.1), registered.2)

end BtcPolicy.Node
