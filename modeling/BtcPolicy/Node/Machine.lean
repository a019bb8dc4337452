import BtcPolicy.Channel.Machine
import BtcPolicy.Node.Refresh

/-! The node with any number of requests in flight. A request is a thread that moves from one atomic section to
the next; between two sections of one thread every other thread, a settlement, the rest of the channel and the
terminal transition may take theirs. -/

namespace BtcPolicy.Node
open FiniteMap Word Bitcoin Hex HotLedger Replay Channel Pin Policy Runs PartialStore

/-- How the request came: submitted to this node, relayed by a member, or relayed in an envelope that is stale. -/
inductive Origin where
  | direct
  | relayed (sender : Nat)
  | outerStale (sender : Nat)
  deriving DecidableEq, Repr

/-- Where the receipt of a relayed spend stands. -/
inductive Receipt where
  | guarded
  | deriving (carrier : String) (generation : MemoGeneration)
  | derived (carrier : String) (generation : MemoGeneration)
  | recorded
  | resolved (carrier : String)

/-- Where a request stands between two of its sections. From `windowA` to `backoff` it holds a preflight slot. -/
inductive Phase where
  | arrived
  | unsent (response : SignResponse)
  | windowA (flight : Flight)
  | windowB (flight : Flight)
  | leaving (result : SignResult) (claim : Option MemoGuard)
  | unclaimed (result : SignResult)
  | backoff (response : SignResponse) (claim : Option MemoGuard)
  | sleeping (response : SignResponse) (claim : Option MemoGuard)
  | refreshWindow
  | answered (result : SignResult)
  | receipt (result : SignResult) (receipt : Receipt)
  | staleDeriving (carrier : String) (generation : MemoGeneration)
  | replied (reply : ChannelReply)

/-- The answer of the handler, once a hold has decided it. -/
def Phase.decided : Phase → Option SignResult
  | .unsent response => some (.ok response)
  | .leaving result _ | .unclaimed result | .answered result | .receipt result _ => some result
  | .backoff response _ | .sleeping response _ => some (.ok response)
  | _ => none

structure Thread where
  origin : Origin
  request : TaggedRequest
  phase : Phase

/-- A settled candidate between the sections of its settlement: its pairing is read, and then the hot candidates
its transaction defeats are known. -/
inductive Settlement where
  | read (commitmentId : String) (paired : Option String)
  | marked (ids : List String)
  deriving DecidableEq, Repr

structure World where
  node : NodeState
  threads : Map Nat Thread
  settlements : Map Nat Settlement

/-- One section of a request, with the clocks and replies it reads. `reserved` is whether the derivation slot
was free. -/
inductive Section where
  | ingress (wall mono : Nat)
  | push
  | commit (wall : Nat)
  | register (replies : Option (ChainReply × ChainReply)) (clock : RegistrationClock)
  | refreshRegister (reply : Option ChainReply) (clock : RegistrationClock)
  | dropClaim (mono : Nat)
  | dropSlot
  | receiptGuard
  | receiptLookup (now mono : Nat)
  | claimDerivation (reserved : Bool)
  | recordDerivation
  | confirm (now mono : Nat)
  | staleInspect (reserved : Bool) (now mono nowAgain monoAgain : Nat)
  | staleFinish (now mono : Nat)

inductive NodeOp where
  | arrive (thread : Nat) (origin : Origin) (request : TaggedRequest)
  | advance (thread : Nat) (step : Section)
  | enterLockdown
  | settleRead (key : Nat) (commitmentId : String)
  | settleMark (key : Nat) (armedEscape : Bool)
  | settleRelease (key : Nat)
  | background (op : StoreOp)

/-- What a relaying member is told of the handler's answer: only that the request was processed. -/
def replyOf : SignResult → ChannelReply
  | .ok _ => .accepted
  | .error _ => .rejected .malformedPayload

/-- What it is told of an outer-stale receipt. -/
def staleReply : OuterStaleCarrier → ChannelReply
  | .retry secs => .rateLimited secs
  | .terminal => .rejected .staleTimestamp
  | .derive _ _ => .rateLimited 1

namespace NodeConfig

variable (node : NodeConfig)

/-! ### The request handlers, one section at a time -/

def ingressSection (request : TaggedRequest) (wall mono : Nat) (s : NodeState) : NodeState × Phase :=
  match request with
  | .spend request =>
    let held := node.ingressHold request wall mono s
    (held.1, match held.2 with
      | .answered result => .answered result
      | .unsent response => .unsent response
      | .windowA flight => .windowA flight)
  | .refresh request =>
    let held := node.refreshIngressHold request wall mono s
    (held.1, match held.2 with
      | .answered result => .answered result
      | .window => .refreshWindow)

/-- The pin and the carrier are computed in window A, from the request alone. -/
def commitSection (flight : Flight) (wall : Nat) (s : NodeState) : NodeState × Phase :=
  let request := flight.request
  let held := node.commitHold flight (pinVerdict (node.rules.verifyPin request.pin) request) (node.carrierOf request)
    wall s
  (held.1, match held.2 with
    | .leaving response claim => .leaving (.ok response) claim
    | .backoff response claim _ => .backoff response claim
    | .windowB flight => .windowB flight)

def registerSection (flight : Flight) (replies : Option (ChainReply × ChainReply)) (clock : RegistrationClock)
    (s : NodeState) : NodeState × Phase :=
  let request := flight.request
  let fetched := node.prefetchSpendEscapePrevouts request replies
  let held := node.registrationHold flight (pinVerdict (node.rules.verifyPin request.pin) request)
    (node.carrierOf request) fetched.1 fetched.2 clock s
  (held.1, .leaving held.2 flight.claim)

def refreshRegisterSection (request : RefreshRequest) (reply : Option ChainReply) (clock : RegistrationClock)
    (s : NodeState) : NodeState × Phase :=
  let held := node.refreshRegistrationHold request (node.prefetchRefreshPrevouts request reply) clock s
  (held.1, .answered held.2)

/-! ### The receipt of a relayed spend -/

/-- The checks in front of the memo lookup, the lockdown flag among them. -/
def receiptGuarded (request : SignRequest) : Bool :=
  !request.nonce.isEmpty && decide (request.nonce.utf8ByteSize ≤ maxCoordNonceBytes) &&
    (node.ensureRequestPropagatable (.spend request)).isOk &&
    (node.verifyCoordSignature request.coordRequest request.coordSig).isOk

def receiptPhase (result : SignResult) : CarrierMemoLookup → Phase
  | .exact carrier => .receipt result (.resolved carrier)
  | .vacant | .skip => .replied (replyOf result)
  | .inFlight | .awaitingPropagation => .replied (.rateLimited 1)
  | .clockRefused => .replied (.rateLimited carrierClockRetrySecs)
  | .deriveForConfirmation carrier generation => .receipt result (.deriving carrier generation)

/-- The second lookup of a derived receipt: what does not name the carrier is nothing to confirm. -/
def recordedPhase (result : SignResult) : CarrierMemoLookup → Phase
  | .exact carrier => .receipt result (.resolved carrier)
  | .awaitingPropagation => .replied (.rateLimited 1)
  | .clockRefused => .replied (.rateLimited carrierClockRetrySecs)
  | _ => .replied (replyOf result)

def claimDerivationSection (request : SignRequest) (sender : Nat) (result : SignResult) (carrier : String)
    (generation : MemoGeneration) (reserved : Bool) (s : NodeState) : NodeState × Phase :=
  if reserved then
    let claimed := s.store.claimCarrierDerivation request.nonce sender carrier
    ({ s with store := claimed.1 },
      if claimed.2 then .receipt result (.derived carrier generation) else .replied (.rateLimited 1))
  else (s, .replied (.rateLimited 1))

def recordDerivationSection (request : SignRequest) (sender : Nat) (result : SignResult) (carrier : String)
    (generation : MemoGeneration) (s : NodeState) : NodeState × Phase :=
  if node.armCarrierId request.coordRequest = carrier then
    let recorded := s.store.recordCarrierDerivationResult request.nonce sender
      (armSignatureTag node.lib request.coordSig) generation carrier
    ({ s with store := recorded.1 },
      if recorded.2 then .receipt result .recorded else .replied (replyOf result))
  else (s, .replied (replyOf result))

/-- The one site that commits an arm. It takes the signing lock for the effective clock and reads no flag. -/
def confirmSection (sender : Nat) (result : SignResult) (carrier : String) (now mono : Nat) (s : NodeState) :
    NodeState × Phase :=
  let confirmed := s.store.confirmCarrier sender carrier node.threshold (s.sign.coordNonces.effectiveNow now)
    node.duressTiming mono
  ({ s with store := confirmed.1 },
    if confirmed.2.clockRefused then .replied (.rateLimited carrierClockRetrySecs) else .replied (replyOf result))

/-! ### A spend in a stale envelope -/

/-- One classification under the signing lock, behind the flag. -/
def outerStaleClassify (ch : ChannelState) (request : SignRequest) (sender now mono : Nat) (step : OuterStaleStep)
    (s : NodeState) : NodeState × OuterStaleCarrier :=
  if s.lockdown then (s, .terminal)
  else
    match s.sign.coordNonces.outerStaleCarrierDeadline request.nonce request.expiry with
    | none => (s, .terminal)
    | some deadline =>
      let classified := s.store.outerStaleCarrier ch request.nonce (armSignatureTag node.lib request.coordSig)
        request.expiry deadline sender now step mono
      ({ s with store := classified.1 }, classified.2)

/-- Inspect, reserve the derivation slot, and inspect again with the claim. -/
def staleInspectSection (ch : ChannelState) (request : TaggedRequest) (sender : Nat) (reserved : Bool)
    (now mono nowAgain monoAgain : Nat) (s : NodeState) : NodeState × Phase :=
  match request with
  | .refresh _ => (s, .replied (.rejected .staleTimestamp))
  | .spend request =>
    if node.receiptGuarded request then
      let inspected := node.outerStaleClassify ch request sender now mono (.inspect false) s
      match inspected.2 with
      | .derive carrier generation =>
        if reserved then
          let claimed := node.outerStaleClassify ch request sender nowAgain monoAgain (.inspect true) inspected.1
          (claimed.1, match claimed.2 with
            | .derive carrier generation => .staleDeriving carrier generation
            | other => .replied (staleReply other))
        else (inspected.1, .replied (staleReply (.derive carrier generation)))
      | other => (inspected.1, .replied (staleReply other))
    else (s, .replied (.rejected .staleTimestamp))

def staleFinishSection (ch : ChannelState) (request : SignRequest) (sender : Nat) (carrier : String)
    (generation : MemoGeneration) (now mono : Nat) (s : NodeState) : NodeState × Phase :=
  let matched := decide (node.armCarrierId request.coordRequest = carrier)
  let finished := node.outerStaleClassify ch request sender now mono (.finish carrier generation matched) s
  (finished.1, .replied (staleReply finished.2))

/-! ### The machine -/

/-- The next section of a thread: `none` when it is not the thread's turn to take it. -/
def advance (thread : Thread) (s : NodeState) : Section → Option (NodeState × Phase)
  | .ingress wall mono =>
    match thread.origin, thread.phase with
    | .outerStale _, _ => none
    | _, .arrived => some (node.ingressSection thread.request wall mono s)
    | _, _ => none
  | .push =>
    match thread.phase with
    | .unsent response => some ({ s with outbox := s.outbox ++ [thread.request] }, .answered (.ok response))
    | _ => none
  | .commit wall =>
    match thread.phase with
    | .windowA flight => some (node.commitSection flight wall s)
    | _ => none
  | .register replies clock =>
    match thread.phase with
    | .windowB flight => some (node.registerSection flight replies clock s)
    | _ => none
  | .refreshRegister reply clock =>
    match thread.phase, thread.request with
    | .refreshWindow, .refresh request => some (node.refreshRegisterSection request reply clock s)
    | _, _ => none
  | .dropClaim mono =>
    match thread.phase with
    | .leaving result claim => some (dropClaim claim mono s, .unclaimed result)
    | .sleeping response claim => some (dropClaim claim mono s, .answered (.ok response))
    | _ => none
  | .dropSlot =>
    match thread.phase with
    | .unclaimed result => some (exitSpendPreflight s, .answered result)
    | .backoff response claim => some (exitSpendPreflight s, .sleeping response claim)
    | _ => none
  | .receiptGuard =>
    match thread.origin, thread.request, thread.phase with
    | .relayed _, .spend request, .answered result =>
      some (s, if !s.lockdown && node.receiptGuarded request then .receipt result .guarded
        else .replied (replyOf result))
    | .relayed _, .refresh _, .answered result => some (s, .replied (replyOf result))
    | _, _, _ => none
  | .receiptLookup now mono =>
    match node.channel, thread.origin, thread.request, thread.phase with
    | some ch, .relayed sender, .spend request, .receipt result .guarded =>
      some (s, receiptPhase result (s.store.carrierMemoLookup ch request.nonce
        (armSignatureTag node.lib request.coordSig) request.expiry sender now mono))
    | some ch, .relayed sender, .spend request, .receipt result .recorded =>
      some (s, recordedPhase result (s.store.carrierMemoLookup ch request.nonce
        (armSignatureTag node.lib request.coordSig) request.expiry sender now mono))
    | _, _, _, _ => none
  | .claimDerivation reserved =>
    match thread.origin, thread.request, thread.phase with
    | .relayed sender, .spend request, .receipt result (.deriving carrier generation) =>
      some (claimDerivationSection request sender result carrier generation reserved s)
    | _, _, _ => none
  | .recordDerivation =>
    match thread.origin, thread.request, thread.phase with
    | .relayed sender, .spend request, .receipt result (.derived carrier generation) =>
      some (node.recordDerivationSection request sender result carrier generation s)
    | _, _, _ => none
  | .confirm now mono =>
    match thread.origin, thread.phase with
    | .relayed sender, .receipt result (.resolved carrier) =>
      some (node.confirmSection sender result carrier now mono s)
    | _, _ => none
  | .staleInspect reserved now mono nowAgain monoAgain =>
    match node.channel, thread.origin, thread.phase with
    | some ch, .outerStale sender, .arrived =>
      some (node.staleInspectSection ch thread.request sender reserved now mono nowAgain monoAgain s)
    | _, _, _ => none
  | .staleFinish now mono =>
    match node.channel, thread.origin, thread.request, thread.phase with
    | some ch, .outerStale sender, .spend request, .staleDeriving carrier generation =>
      some (node.staleFinishSection ch request sender carrier generation now mono s)
    | _, _, _, _ => none

/-- A section a thread takes: the thread at its turn, and the node and the phase it is left with. -/
inductive Advanced (s : NodeState) : Thread → Section → NodeState → Phase → Prop
  | ingress (origin : Origin) (request : TaggedRequest) (wall mono : Nat)
      (fresh : ∀ sender, origin ≠ .outerStale sender) :
    Advanced s ⟨origin, request, .arrived⟩ (.ingress wall mono) (node.ingressSection request wall mono s).1
      (node.ingressSection request wall mono s).2
  | push (origin : Origin) (request : TaggedRequest) (response : SignResponse) :
    Advanced s ⟨origin, request, .unsent response⟩ .push { s with outbox := s.outbox ++ [request] }
      (.answered (.ok response))
  | commit (origin : Origin) (request : TaggedRequest) (flight : Flight) (wall : Nat) :
    Advanced s ⟨origin, request, .windowA flight⟩ (.commit wall) (node.commitSection flight wall s).1
      (node.commitSection flight wall s).2
  | register (origin : Origin) (request : TaggedRequest) (flight : Flight)
      (replies : Option (ChainReply × ChainReply)) (clock : RegistrationClock) :
    Advanced s ⟨origin, request, .windowB flight⟩ (.register replies clock)
      (node.registerSection flight replies clock s).1 (node.registerSection flight replies clock s).2
  | refreshRegister (origin : Origin) (request : RefreshRequest) (reply : Option ChainReply)
      (clock : RegistrationClock) :
    Advanced s ⟨origin, .refresh request, .refreshWindow⟩ (.refreshRegister reply clock)
      (node.refreshRegisterSection request reply clock s).1 (node.refreshRegisterSection request reply clock s).2
  | dropClaim (origin : Origin) (request : TaggedRequest) (result : SignResult) (claim : Option MemoGuard)
      (mono : Nat) :
    Advanced s ⟨origin, request, .leaving result claim⟩ (.dropClaim mono) (dropClaim claim mono s) (.unclaimed result)
  | wake (origin : Origin) (request : TaggedRequest) (response : SignResponse) (claim : Option MemoGuard)
      (mono : Nat) :
    Advanced s ⟨origin, request, .sleeping response claim⟩ (.dropClaim mono) (dropClaim claim mono s)
      (.answered (.ok response))
  | dropSlot (origin : Origin) (request : TaggedRequest) (result : SignResult) :
    Advanced s ⟨origin, request, .unclaimed result⟩ .dropSlot (exitSpendPreflight s) (.answered result)
  | sleep (origin : Origin) (request : TaggedRequest) (response : SignResponse) (claim : Option MemoGuard) :
    Advanced s ⟨origin, request, .backoff response claim⟩ .dropSlot (exitSpendPreflight s) (.sleeping response claim)
  | receiptGuard (sender : Nat) (request : SignRequest) (result : SignResult) :
    Advanced s ⟨.relayed sender, .spend request, .answered result⟩ .receiptGuard s
      (if !s.lockdown && node.receiptGuarded request then .receipt result .guarded else .replied (replyOf result))
  | refreshReply (sender : Nat) (request : RefreshRequest) (result : SignResult) :
    Advanced s ⟨.relayed sender, .refresh request, .answered result⟩ .receiptGuard s (.replied (replyOf result))
  | receiptLookup (ch : ChannelState) (mounted : node.channel = some ch) (sender : Nat) (request : SignRequest)
      (result : SignResult) (now mono : Nat) :
    Advanced s ⟨.relayed sender, .spend request, .receipt result .guarded⟩ (.receiptLookup now mono) s
      (receiptPhase result (s.store.carrierMemoLookup ch request.nonce (armSignatureTag node.lib request.coordSig)
        request.expiry sender now mono))
  | recordedLookup (ch : ChannelState) (mounted : node.channel = some ch) (sender : Nat) (request : SignRequest)
      (result : SignResult) (now mono : Nat) :
    Advanced s ⟨.relayed sender, .spend request, .receipt result .recorded⟩ (.receiptLookup now mono) s
      (recordedPhase result (s.store.carrierMemoLookup ch request.nonce (armSignatureTag node.lib request.coordSig)
        request.expiry sender now mono))
  | claimDerivation (sender : Nat) (request : SignRequest) (result : SignResult) (carrier : String)
      (generation : MemoGeneration) (reserved : Bool) :
    Advanced s ⟨.relayed sender, .spend request, .receipt result (.deriving carrier generation)⟩
      (.claimDerivation reserved) (claimDerivationSection request sender result carrier generation reserved s).1
      (claimDerivationSection request sender result carrier generation reserved s).2
  | recordDerivation (sender : Nat) (request : SignRequest) (result : SignResult) (carrier : String)
      (generation : MemoGeneration) :
    Advanced s ⟨.relayed sender, .spend request, .receipt result (.derived carrier generation)⟩ .recordDerivation
      (node.recordDerivationSection request sender result carrier generation s).1
      (node.recordDerivationSection request sender result carrier generation s).2
  | confirm (sender : Nat) (request : TaggedRequest) (result : SignResult) (carrier : String) (now mono : Nat) :
    Advanced s ⟨.relayed sender, request, .receipt result (.resolved carrier)⟩ (.confirm now mono)
      (node.confirmSection sender result carrier now mono s).1 (node.confirmSection sender result carrier now mono s).2
  | staleInspect (ch : ChannelState) (mounted : node.channel = some ch) (sender : Nat) (request : TaggedRequest)
      (reserved : Bool) (now mono nowAgain monoAgain : Nat) :
    Advanced s ⟨.outerStale sender, request, .arrived⟩ (.staleInspect reserved now mono nowAgain monoAgain)
      (node.staleInspectSection ch request sender reserved now mono nowAgain monoAgain s).1
      (node.staleInspectSection ch request sender reserved now mono nowAgain monoAgain s).2
  | staleFinish (ch : ChannelState) (mounted : node.channel = some ch) (sender : Nat) (request : SignRequest)
      (carrier : String) (generation : MemoGeneration) (now mono : Nat) :
    Advanced s ⟨.outerStale sender, .spend request, .staleDeriving carrier generation⟩ (.staleFinish now mono)
      (node.staleFinishSection ch request sender carrier generation now mono s).1
      (node.staleFinishSection ch request sender carrier generation now mono s).2

theorem advanced_of_advance {node : NodeConfig} {held : Thread} {s t : NodeState} {step : Section} {phase : Phase}
    (taken : node.advance held s step = some (t, phase)) : node.Advanced s held step t phase := by
  obtain ⟨origin, request, before⟩ := held
  cases step with
  | ingress wall mono =>
    simp only [advance] at taken
    split at taken
    · cases taken
    next fresh =>
      obtain ⟨rfl, rfl⟩ := Prod.ext_iff.mp (Option.some.inj taken)
      exact .ingress origin request wall mono fresh
    · cases taken
  | push =>
    simp only [advance] at taken
    split at taken
    next response =>
      cases taken
      exact .push origin request response
    · cases taken
  | commit wall =>
    simp only [advance] at taken
    split at taken
    next flight =>
      obtain ⟨rfl, rfl⟩ := Prod.ext_iff.mp (Option.some.inj taken)
      exact .commit origin request flight wall
    · cases taken
  | register replies clock =>
    simp only [advance] at taken
    split at taken
    next flight =>
      obtain ⟨rfl, rfl⟩ := Prod.ext_iff.mp (Option.some.inj taken)
      exact .register origin request flight replies clock
    · cases taken
  | refreshRegister reply clock =>
    simp only [advance] at taken
    split at taken
    next refresh =>
      obtain ⟨rfl, rfl⟩ := Prod.ext_iff.mp (Option.some.inj taken)
      exact .refreshRegister origin refresh reply clock
    · cases taken
  | dropClaim mono =>
    simp only [advance] at taken
    split at taken
    next result claim =>
      cases taken
      exact .dropClaim origin request result claim mono
    next response claim =>
      cases taken
      exact .wake origin request response claim mono
    · cases taken
  | dropSlot =>
    simp only [advance] at taken
    split at taken
    next result =>
      cases taken
      exact .dropSlot origin request result
    next response claim =>
      cases taken
      exact .sleep origin request response claim
    · cases taken
  | receiptGuard =>
    simp only [advance] at taken
    split at taken
    next sender request result =>
      cases taken
      exact .receiptGuard sender request result
    next sender request result =>
      cases taken
      exact .refreshReply sender request result
    · cases taken
  | receiptLookup now mono =>
    simp only [advance] at taken
    split at taken
    next ch sender request result mounted =>
      cases taken
      exact .receiptLookup ch mounted sender request result now mono
    next ch sender request result mounted =>
      cases taken
      exact .recordedLookup ch mounted sender request result now mono
    · cases taken
  | claimDerivation reserved =>
    simp only [advance] at taken
    split at taken
    next sender request result carrier generation =>
      obtain ⟨rfl, rfl⟩ := Prod.ext_iff.mp (Option.some.inj taken)
      exact .claimDerivation sender request result carrier generation reserved
    · cases taken
  | recordDerivation =>
    simp only [advance] at taken
    split at taken
    next sender request result carrier generation =>
      obtain ⟨rfl, rfl⟩ := Prod.ext_iff.mp (Option.some.inj taken)
      exact .recordDerivation sender request result carrier generation
    · cases taken
  | confirm now mono =>
    simp only [advance] at taken
    split at taken
    next sender result carrier =>
      obtain ⟨rfl, rfl⟩ := Prod.ext_iff.mp (Option.some.inj taken)
      exact .confirm sender request result carrier now mono
    · cases taken
  | staleInspect reserved now mono nowAgain monoAgain =>
    simp only [advance] at taken
    split at taken
    next ch sender mounted =>
      obtain ⟨rfl, rfl⟩ := Prod.ext_iff.mp (Option.some.inj taken)
      exact .staleInspect ch mounted sender request reserved now mono nowAgain monoAgain
    · cases taken
  | staleFinish now mono =>
    simp only [advance] at taken
    split at taken
    next ch sender request carrier generation mounted =>
      obtain ⟨rfl, rfl⟩ := Prod.ext_iff.mp (Option.some.inj taken)
      exact .staleFinish ch mounted sender request carrier generation now mono
    · cases taken

/-- A request before its first section: the lock-free look at the flag, and the channel that must be mounted. -/
def arrival (origin : Origin) (s : NodeState) : Phase :=
  match origin with
  | .direct => if s.lockdown then .answered (.ok fraudSuspected) else .arrived
  | .relayed _ =>
    if node.channel.isNone then .replied (.rejected .unknownMsgType)
    else if s.lockdown then .answered (.ok fraudSuspected)
    else .arrived
  | .outerStale _ => if node.channel.isNone then .replied (.rejected .unknownMsgType) else .arrived

/-- The candidates a settlement releases: the settled one, its sibling, and the defeated hot ones. -/
def settledIds (commitmentId : String) (paired : Option String) (invalidated : List String) : List String :=
  commitmentId :: paired.toList ++ invalidated

/-- The conflict scan of a settlement. A confirmed armed escape is kept resident; anything else is marked. -/
def settleStore (commitmentId : String) (armedEscape : Bool) (store : PartialStore) : PartialStore × List String :=
  if armedEscape then store.invalidateHotConflicts commitmentId else store.markBroadcast commitmentId

def nodeStep (w : World) : NodeOp → World × Unit
  | .arrive thread origin request =>
    if (w.threads.lookup thread).isSome then (w, ())
    else ({ w with threads := w.threads.insert thread ⟨origin, request, node.arrival origin w.node⟩ }, ())
  | .advance thread step =>
    match (w.threads.lookup thread).bind (fun held => node.advance held w.node step) with
    | none => (w, ())
    | some (s, phase) =>
      ({ w with node := s, threads := adjust thread (fun held => { held with phase := phase }) w.threads }, ())
  | .enterLockdown => ({ w with node := { w.node with lockdown := true } }, ())
  | .settleRead key commitmentId =>
    if (w.settlements.lookup key).isSome then (w, ())
    else
      let paired := (w.node.store.pairing commitmentId).map Prod.snd
      ({ w with settlements := w.settlements.insert key (.read commitmentId paired) }, ())
  | .settleMark key armedEscape =>
    match w.settlements.lookup key with
    | some (.read commitmentId paired) =>
      let marked := settleStore commitmentId armedEscape w.node.store
      ({ w with
          node := { w.node with store := marked.1 }
          settlements := w.settlements.insert key (.marked (settledIds commitmentId paired marked.2)) }, ())
    | _ => (w, ())
  | .settleRelease key =>
    match w.settlements.lookup key with
    | some (.marked ids) =>
      ({ w with
          node := { w.node with sign := { w.node.sign with pending := ids.foldl PendingLog.remove w.node.sign.pending } }
          settlements := w.settlements.erase key }, ())
    | _ => (w, ())
  | .background op => ({ w with node := node.onStore (fun ch store => (storeStep ch store op).1) w.node }, ())

/-- The node after a run that starts with `s` and no request in flight. -/
def nodeAfter (s : NodeState) (run : List NodeOp) : World :=
  exec node.nodeStep ⟨{ s with spendPreflight := 0 }, ∅, ∅⟩ run

end NodeConfig

/-! ### A node of three -/

namespace Sample
open Channel.Sample

/-- One spend with its escape, and one refresh, told apart by their lock times. -/
def rules : Rules :=
  { authDigest := fun request _ => request.nonce.toUTF8.toList
    stretch := fun digest => digest
    verifyPin := fun pin => if pin = "1111" then .normal else if pin = "9999" then .duress else .wrong
    requestFitsChannelBody := fun _ _ => true
    parsePsbt := fun text =>
      if text = "spend" then .ok (psbt 1 10)
      else if text = "escape" then .ok (psbt 1 11)
      else if text = "refresh" then .ok (psbt 2 12)
      else .error "not a PSBT"
    serialize := fun psbt => leBytes 4 psbt.unsignedTx.lockTime
    sha256 := fun bytes => bytes
    commitmentId := fun psbt expiry => toHex (leBytes 4 psbt.unsignedTx.lockTime ++ leBytes 4 expiry)
    verifySpend := fun _ _ => .ok ()
    classify := fun psbt => .ok (if psbt.unsignedTx.lockTime = 12 then ⟨.refresh, 0⟩ else ⟨.hot, 10000⟩)
    verifyEscape := fun _ _ => .ok ()
    ensureEscapeLadder := fun _ _ _ => .ok ()
    addNodeSignatures := fun psbt => .ok psbt
    vsize := fun _ => 100 }

def node : NodeConfig :=
  { lib := library
    rules := rules
    channel := some channel
    walletId := [7]
    coordinatorAuth := [9]
    keys := keys
    threshold := 2
    maxMsgBytes := 65536
    maxCommitmentAgeSecs := 86400
    deliveryHorizonSecs := 60
    holdSecs := 600
    combineSlackSecs := 120
    duressDelaySecs := 600
    epsilonSecs := 5
    refreshMinIntervalSecs := 3600
    refreshMaxFeerate := 200
    hotBudget := config.hotBudget
    pinBudgetConfig := ⟨5, 3600, [0], 600⟩ }

def start : NodeState :=
  { sign := ⟨∅, ∅, NonceLog.empty, ∅, AttemptBudget.new 5⟩
    store := initialStore config
    authorized := ∅
    outbox := []
    lockdown := false
    spendPreflight := 0
    duressArm := 0 }

def spendRequest (nonce : String) (expiry : Nat) : SignRequest :=
  { psbt := "spend"
    escapePsbt := "escape"
    escapeBumps := []
    pin := "1111"
    nonce := nonce
    expiry := expiry
    policyVersion := 1
    coordSig := "30" }

def refreshRequest (nonce : String) (expiry : Nat) : RefreshRequest := ⟨"refresh", nonce, expiry, 1, "30"⟩

def coin : Prevout := ⟨⟨100000, [0, 32]⟩, true⟩

/-- A refresh from its arrival to its answer, all at one instant. -/
def refreshRun (thread : Nat) (request : RefreshRequest) (now : Nat) : List NodeOp :=
  [.arrive thread .direct (.refresh request), .advance thread (.ingress now now),
    .advance thread (.refreshRegister (some (.ok [some coin])) ⟨now, now, now, now⟩)]

/-- A spend up to its registration, and then to its return. -/
def spendEntry (thread : Nat) (request : SignRequest) (now : Nat) : List NodeOp :=
  [.arrive thread .direct (.spend request), .advance thread (.ingress now now), .advance thread (.commit now)]

def registration (thread now : Nat) : NodeOp :=
  .advance thread (.register (some (.ok [some coin], .ok [some coin])) ⟨now, now, now, now⟩)

def spendExit (thread now : Nat) : List NodeOp := [.advance thread (.dropClaim now), .advance thread .dropSlot]

end Sample

end BtcPolicy.Node
