import BtcPolicy.Channel.Fire

/-! The store as one machine: every operation of the channel state, with its arguments and its clock
readings, is an action, and a run is any finite sequence of them from the store the node starts with. -/

namespace BtcPolicy.Channel
open FiniteMap Word Bitcoin HotLedger Runs PartialStore

/-- What `Candidate::build` is given for one candidate of a request. -/
structure CandidateRequest where
  spec : CandidateSpec
  keys : CandidateKeys

def buildAll (lib : Library) (requests : List CandidateRequest) : Except String (List Candidate) :=
  requests.mapM (fun request => Candidate.build lib request.spec request.keys)

inductive StoreOp where
  | claimNonceInFlight (nonce : String) (generation : MemoGeneration) (monoNow : Nat)
  | releaseNonceClaim (nonce : String) (generation : MemoGeneration)
  | recordArmIntent (duress : Bool) (carrier nonce : String) (generation : MemoGeneration)
      (firstSeen now : Nat) (timing : DuressTiming)
  | endCarrierRuling (carrier : String) (monoNow : Nat)
  | markCarrierPropagated (carrier : String)
  | carrierMemoLookup (nonce : String) (signatureTag : Bytes) (requestExpiry sender now monoNow : Nat)
  | outerStaleCarrier (nonce : String) (signatureTag : Bytes) (expiry deadline sender now : Nat)
      (step : OuterStaleStep) (monoNow : Nat)
  | claimCarrierDerivation (nonce : String) (sender : Nat) (memoizedCarrier : String)
  | recordCarrierDerivationResult (nonce : String) (sender : Nat) (signatureTag : Bytes)
      (generation : MemoGeneration) (memoizedCarrier : String)
  | recordIntentPair (carrier spendCommitmentId escapeCommitmentId : String)
  | registerCandidates (requests : List CandidateRequest) (arm : ArmDirective)
      (hotReserve : Option HotReserveSpec) (monoNow : Nat)
  | applyCachedSchedule (escapeCommitmentId : String) (duress : Bool) (now epsilonSecs : Nat)
  | confirmCarrier (sender : Nat) (carrier : String) (threshold now : Nat) (timing : DuressTiming)
      (monoNow : Nat)
  | pruneStore (now monoNow : Nat)
  | acceptPartial (p : ParsedPartial) (now : Nat)
  | reserveHotBudget (commitmentId : String) (outflowSat wallNow expiry monoNow : Nat)
  | releaseHotBudget (commitmentId : String)
  | dueForFire (now : Nat)
  | fireSettlementPollable (commitmentId : String) (now : Nat)
  | releasePartials (commitmentId : String) (now : Nat)
  | tryFinalize (commitmentId : String) (threshold now : Nat)
  | withBroadcastAuthorization (commitmentId : String) (now : Nat)
  | latchEscapeRung (commitmentId : String) (rung lowestAdmissible : Nat)
  | invalidateHotConflictsInStore (spenderId : String)
  | markBroadcast (commitmentId : String)
  | lockdownDue (now : Nat)

inductive StoreReply where
  | done
  | memo (upgrade : MemoUpgrade)
  | lookup (found : CarrierMemoLookup)
  | outerStale (verdict : OuterStaleCarrier)
  | flag (value : Bool)
  | buildFailed (message : String)
  | registered (outcome : Except HotReserveRefusal (List RegisterOutcome))
  | confirmation (result : CarrierConfirmation)
  | channel (reply : ChannelReply)
  | reserved (outcome : Except HotReserveRefusal Bool)
  | ids (list : List String)
  | released (release : Option Release)
  | finalized (candidate : Option FinalizedCandidate)
  | authorized (verdict : Except String Unit)
  | rung (latched : Option Nat)

/-- One operation. -/
def storeStep (ch : ChannelState) (s : PartialStore) : StoreOp → PartialStore × StoreReply
  | .claimNonceInFlight nonce generation monoNow => (s.claimNonceInFlight nonce generation monoNow, .done)
  | .releaseNonceClaim nonce generation => (s.releaseNonceClaim nonce generation, .done)
  | .recordArmIntent duress carrier nonce generation firstSeen now timing =>
    let result := s.recordArmIntent duress carrier nonce generation firstSeen now timing
    (result.1, .memo result.2)
  | .endCarrierRuling carrier monoNow => (s.endCarrierRuling carrier monoNow, .done)
  | .markCarrierPropagated carrier => (s.markCarrierPropagated ch carrier, .done)
  | .carrierMemoLookup nonce tag requestExpiry sender now monoNow =>
    (s, .lookup (s.carrierMemoLookup ch nonce tag requestExpiry sender now monoNow))
  | .outerStaleCarrier nonce tag expiry deadline sender now step monoNow =>
    let result := s.outerStaleCarrier ch nonce tag expiry deadline sender now step monoNow
    (result.1, .outerStale result.2)
  | .claimCarrierDerivation nonce sender carrier =>
    let result := s.claimCarrierDerivation nonce sender carrier
    (result.1, .flag result.2)
  | .recordCarrierDerivationResult nonce sender tag generation carrier =>
    let result := s.recordCarrierDerivationResult nonce sender tag generation carrier
    (result.1, .flag result.2)
  | .recordIntentPair carrier spend escape => (s.recordIntentPair carrier spend escape, .done)
  | .registerCandidates requests arm hotReserve monoNow =>
    match buildAll ch.lib requests with
    | .error message => (s, .buildFailed message)
    | .ok candidates =>
      let result := registerCandidates ch s candidates arm hotReserve monoNow
      (result.1, .registered result.2)
  | .applyCachedSchedule escape duress now epsilon =>
    (s.applyCachedSchedule escape duress now epsilon, .done)
  | .confirmCarrier sender carrier threshold now timing monoNow =>
    let result := s.confirmCarrier sender carrier threshold now timing monoNow
    (result.1, .confirmation result.2)
  | .pruneStore now monoNow => (s.pruneStore now monoNow, .done)
  | .acceptPartial p now =>
    let result := acceptPartial ch.lib s p ch.nodes now
    (result.1, .channel result.2)
  | .reserveHotBudget id outflow wallNow expiry monoNow =>
    let answer := s.hotBudget.reserve id outflow monoNow wallNow expiry
    ({ s with hotBudget := answer.1 }, .reserved answer.2)
  | .releaseHotBudget id => ({ s with hotBudget := s.hotBudget.release id }, .done)
  | .dueForFire now => (s, .ids (s.dueForFire now))
  | .fireSettlementPollable id now => (s, .flag (s.fireSettlementPollable id now))
  | .releasePartials id now =>
    let result := s.releasePartials ch id now
    (result.1, .released result.2)
  | .tryFinalize id threshold now => (s, .finalized (s.tryFinalize ch id threshold now))
  | .withBroadcastAuthorization id now => (s, .authorized (s.withBroadcastAuthorization id now))
  | .latchEscapeRung id rung lowest =>
    let result := s.latchEscapeRung id rung lowest
    (result.1, .rung result.2)
  | .invalidateHotConflictsInStore id =>
    let result := s.invalidateHotConflicts id
    (result.1, .ids result.2)
  | .markBroadcast id =>
    let result := s.markBroadcast id
    (result.1, .ids result.2)
  | .lockdownDue now => (s, .flag (s.lockdownDue now))

/-- The `HotClock` reading an operation takes. -/
def StoreOp.monoReading : StoreOp → Option Nat
  | .claimNonceInFlight _ _ monoNow => some monoNow
  | .endCarrierRuling _ monoNow => some monoNow
  | .carrierMemoLookup _ _ _ _ _ monoNow => some monoNow
  | .outerStaleCarrier _ _ _ _ _ _ _ monoNow => some monoNow
  | .registerCandidates _ _ hotReserve monoNow => if hotReserve.isSome then some monoNow else none
  | .confirmCarrier _ _ _ _ _ monoNow => some monoNow
  | .pruneStore _ monoNow => some monoNow
  | .reserveHotBudget _ _ _ _ monoNow => some monoNow
  | _ => none

/-- The wall-clock reading an operation takes for itself. -/
def StoreOp.wallReading : StoreOp → Option Nat
  | .recordArmIntent _ _ _ _ _ now _ => some now
  | .carrierMemoLookup _ _ _ _ now _ => some now
  | .outerStaleCarrier _ _ _ _ _ now _ _ => some now
  | .registerCandidates _ arm _ _ => some arm.now
  | .applyCachedSchedule _ _ now _ => some now
  | .confirmCarrier _ _ _ now _ _ => some now
  | .pruneStore now _ => some now
  | .acceptPartial _ now => some now
  | .reserveHotBudget _ _ wallNow _ _ => some wallNow
  | .dueForFire now => some now
  | .fireSettlementPollable _ now => some now
  | .releasePartials _ now => some now
  | .tryFinalize _ _ now => some now
  | .withBroadcastAuthorization _ now => some now
  | .lockdownDue now => some now
  | _ => none

/-- The monotonic clock never runs backwards over the operations. -/
def MonoOrdered (ops : List StoreOp) : Prop := (ops.filterMap StoreOp.monoReading).Pairwise (· ≤ ·)

instance (ops : List StoreOp) : Decidable (MonoOrdered ops) :=
  inferInstanceAs (Decidable ((ops.filterMap StoreOp.monoReading).Pairwise (· ≤ ·)))

/-- The limits and the budget the node starts with. -/
structure StoreConfig where
  maxActiveCandidates : Nat
  maxBytes : Nat
  hotBudget : HotBudget

def initialStore (config : StoreConfig) : PartialStore :=
  PartialStore.new config.maxActiveCandidates config.maxBytes config.hotBudget

/-- The store after a run. -/
def storeAfter (ch : ChannelState) (config : StoreConfig) (ops : List StoreOp) : PartialStore :=
  exec (storeStep ch) (initialStore config) ops

theorem storeAfter_snoc (ch : ChannelState) (config : StoreConfig) (ops : List StoreOp) (op : StoreOp) :
    storeAfter ch config (ops ++ [op]) = (storeStep ch (storeAfter ch config ops) op).1 :=
  exec_snoc (storeStep ch) (initialStore config) ops op

theorem storeAfter_append (ch : ChannelState) (config : StoreConfig) (before after : List StoreOp) :
    storeAfter ch config (before ++ after) = exec (storeStep ch) (storeAfter ch config before) after :=
  exec_append (storeStep ch) (initialStore config) before after

/-- What the store answers to `op` after a run. -/
def replyAfter (ch : ChannelState) (config : StoreConfig) (ops : List StoreOp) (op : StoreOp) : StoreReply :=
  (storeStep ch (storeAfter ch config ops) op).2

/-! ### A federation of three for concrete runs -/

namespace Sample

def userKey : PublicKey := [2]

def nodeKey (id : Nat) : PublicKey := [3, UInt8.ofNat id]

/-- Digests that separate transactions by their lock time. -/
def library : Library :=
  { computeTxid := fun tx => leBytes 32 tx.lockTime
    p2wshSignatureHash := fun tx index _ _ => .ok (leBytes 32 (256 * tx.lockTime + index))
    taggedHash := fun _ bytes => leBytes 32 bytes.length
    fromDer := some
    verifyEcdsa := fun _ _ _ => true
    serializedLen := fun psbt => 100 * psbt.inputs.length
    finalize := fun psbt => some psbt.unsignedTx }

/-- Node 0 of three. -/
def channel : ChannelState :=
  { lib := library
    nodeId := 0
    walletId := [7]
    nodes := [⟨0, nodeKey 0⟩, ⟨1, nodeKey 1⟩, ⟨2, nodeKey 2⟩]
    perPeerQuotaPerMin := 60 }

def config : StoreConfig := ⟨16, 1000000, ⟨100000, 100000, 3600⟩⟩

def keys : CandidateKeys := ⟨[81], userKey, nodeKey 0⟩

/-- A PSBT that spends one coin, signed by the user and by node 0. -/
def psbt (coin lockTime : Nat) : Psbt :=
  { unsignedTx := ⟨2, lockTime, [⟨⟨leBytes 32 coin, 0⟩, 0⟩], [⟨90000, [0, 20]⟩]⟩
    inputs :=
      [{ witnessUtxo := some ⟨100000, [0, 32]⟩
         partialSigs := ((∅ : Map PublicKey EcdsaSignature).insert userKey ⟨[48, 1], sighashAll⟩).insert
           (nodeKey 0) ⟨[48, 2], sighashAll⟩
         witnessScript := none
         redeemScript := none
         sighashType := none
         finalScriptSig := none
         finalScriptWitness := none }]
    outputs := [⟨∅⟩] }

def spend (id escape : String) (coin lockTime : Nat) (hot : Bool) (fire : Option FireWindow) (expiry : Nat) :
    CandidateRequest :=
  ⟨⟨psbt coin lockTime, [], id, escape, false, .spend, hot, fire, expiry⟩, keys⟩

def escape (id spend : String) (coin lockTime expiry : Nat) : CandidateRequest :=
  ⟨⟨psbt coin lockTime, [], id, spend, false, .escape, false, none, expiry⟩, keys⟩

def timing : DuressTiming := ⟨600, 5, 120⟩

def generation (expiry deadline : Nat) : MemoGeneration := ⟨[1], expiry, deadline⟩

/-- A hot spend and its escape enter with their carrier, which reaches two holders at 10. -/
def confirmedRun (duress : Bool) : List StoreOp :=
  [.recordArmIntent duress "carrier-a" "nonce-a" (generation 900 900) 0 0 timing,
    .registerCandidates [spend "a" "a-escape" 1 10 true (some ⟨100, 300⟩) 900, escape "a-escape" "a" 1 11 900]
      ⟨"a-escape", "a", "carrier-a", duress, 5, 0⟩ (some ⟨"a", 40000, 0, 900⟩) 0,
    .markCarrierPropagated "carrier-a",
    .confirmCarrier 1 "carrier-a" 2 10 timing 10]

end Sample

end BtcPolicy.Channel
