import BtcPolicy.Channel.Carrier
import BtcPolicy.Node.Wire
import BtcPolicy.Pin
import BtcPolicy.Policy
import BtcPolicy.Replay

/-! The node: its sealed configuration, the logs under the one signing lock, and the checks every handler
shares. What the policy crate and the libraries compute are pure functions of the configuration. -/

namespace BtcPolicy.Node
open FiniteMap Word Bitcoin Hex HotLedger Replay Channel Pin Policy

/-! ### The logs under the signing lock -/

structure ReplayEntry where
  expiry : Nat
  verdict : SignResponse
  deriving DecidableEq, Repr

abbrev ReplayLog := Map String ReplayEntry

namespace ReplayLog

def get (log : ReplayLog) (key : String) (now : Nat) : Option SignResponse :=
  ((log.lookup key).filter (fun entry => decide (now < entry.expiry))).map ReplayEntry.verdict

def record (log : ReplayLog) (key : String) (expiry : Nat) (verdict : SignResponse) : ReplayLog :=
  log.insert key ⟨expiry, verdict⟩

def prune (log : ReplayLog) (now : Nat) : ReplayLog := retain (fun _ entry => decide (now < entry.expiry)) log

end ReplayLog

/-- The Hold timers: the expiry of each accepted hot spend, by commitment id. -/
abbrev PendingLog := Map String Nat

namespace PendingLog

def record (log : PendingLog) (commitmentId : String) (expiry : Nat) : PendingLog := log.insert commitmentId expiry

def remove (log : PendingLog) (commitmentId : String) : PendingLog := log.erase commitmentId

def prune (log : PendingLog) (now : Nat) : PendingLog := retain (fun _ expiry => decide (now ≤ expiry)) log

def hasAny (log : PendingLog) (now : Nat) : Bool := (vals log).any (fun expiry => decide (now ≤ expiry))

end PendingLog

/-- When each coin was last refreshed. -/
abbrev RefreshLog := Map OutPoint Nat

namespace RefreshLog

/-- The inputs of the refresh, and then the coins it creates. -/
def record (lib : Library) (log : RefreshLog) (refresh : Psbt) (now : Nat) : RefreshLog :=
  let spent := refresh.unsignedTx.input.foldl (fun log input => log.insert input.previousOutput now) log
  let txid := lib.computeTxid refresh.unsignedTx
  (List.range refresh.unsignedTx.output.length).foldl (fun log vout => log.insert ⟨txid, vout⟩ now) spent

def prune (log : RefreshLog) (now minIntervalSecs : Nat) : RefreshLog :=
  retain (fun _ since => decide (now - since < minIntervalSecs)) log

end RefreshLog

structure SignState where
  replay : ReplayLog
  pending : PendingLog
  coordNonces : NonceLog
  refreshes : RefreshLog
  pinBudget : AttemptBudget

/-! ### The node -/

structure Prevout where
  txout : TxOut
  confirmed : Bool
  deriving DecidableEq, Repr

/-- What the chain backend answered to one batch. -/
abbrev ChainReply := Except String (List (Option Prevout))

/-- `Err` is the refusal of a failed fetch. -/
abbrev PrevoutFetch := Except SignResponse (List (Option Prevout))

/-- The pure functions a handler calls: canonical request bytes and the memory-hard stretch of their digest,
the pin compare, the PSBT codec and its identities, and the policy crate on the sealed descriptors. -/
structure Rules where
  authDigest : CoordRequest → Bytes → Bytes
  stretch : Bytes → Bytes
  verifyPin : String → PinVerdict
  requestFitsChannelBody : TaggedRequest → Nat → Bool
  parsePsbt : String → Except String Psbt
  serialize : Psbt → Bytes
  sha256 : Bytes → Bytes
  commitmentId : Psbt → Nat → String
  verifySpend : Psbt → Option PrevoutFetch → Except Refusal Unit
  classify : Psbt → Except Violation Classification
  verifyEscape : Psbt → Option PrevoutFetch → Except Refusal Unit
  ensureEscapeLadder : Psbt → List Psbt → Bool → Except Refusal Unit
  addNodeSignatures : Psbt → Except String Psbt
  vsize : Transaction → Nat

structure NodeConfig where
  lib : Library
  rules : Rules
  channel : Option ChannelState
  walletId : Bytes
  coordinatorAuth : PublicKey
  keys : CandidateKeys
  threshold : Nat
  maxMsgBytes : Nat
  maxCommitmentAgeSecs : Nat
  deliveryHorizonSecs : Nat
  holdSecs : Nat
  combineSlackSecs : Nat
  duressDelaySecs : Nat
  epsilonSecs : Nat
  refreshMinIntervalSecs : Nat
  refreshMaxFeerate : Nat
  hotBudget : HotBudget
  pinBudgetConfig : PinBudgetConfig

/-- `store` is the registry of channel mode and idle without one. -/
structure NodeState where
  sign : SignState
  store : PartialStore
  authorized : Finset Txid
  outbox : List TaggedRequest
  lockdown : Bool
  spendPreflight : Nat
  duressArm : Nat

def mapPolicyCode : ViolationCode → RefusalCode
  | .unknownInput => .unknownInput
  | .destNotAllowed => .destNotAllowed
  | .changeNotDerivable => .changeNotDerivable
  | .feeExceedsCap => .feeExceedsCap
  | .psbtInconsistent => .psbtInconsistent
  | .hotBudgetExceeded => .hotBudgetExceeded

def policyRefusal (violation : Violation) : Refusal :=
  ⟨mapPolicyCode violation.code, violation.check, violation.detail⟩

def recordVerdict (log : ReplayLog) (key : String) (expiry : Nat) (verdict : SignResponse) : ReplayLog :=
  if isRecordableVerdict verdict then log.record key expiry verdict else log

def armSignatureTag (lib : Library) (coordSig : String) : Bytes :=
  lib.taggedHash "btc-policy/vault-node/arm-signature/v0" (((fromHex coordSig).bind lib.fromDer).getD [])

def fetchPrevouts (psbt : Psbt) (reply : ChainReply) : PrevoutFetch :=
  match reply with
  | .error e =>
    .error (refusal .psbtInconsistent "prevout_ground_truth"
      ("cannot verify PSBT prevouts against this node's chain view; refusing fail-closed before policy " ++
        s!"evaluation: {e}"))
  | .ok prevouts =>
    let wanted := psbt.unsignedTx.input.length
    if prevouts.length ≠ wanted then
      let returned := prevouts.length
      .error (refusal .psbtInconsistent "prevout_ground_truth"
        s!"chain backend returned {returned} prevout results for {wanted} PSBT inputs")
    else .ok prevouts

/-- A failed fetch is this node's own; a mismatch is not decided here. -/
def nodeLocalPrevoutFetchFailure (spendPrevouts escapePrevouts : Option PrevoutFetch) : Option SignResponse :=
  match spendPrevouts, escapePrevouts with
  | some (.error refused), _ => some refused
  | _, some (.error (.refusal refused)) => some (refusal refused.code ("escape:" ++ refused.check) refused.detail)
  | _, some (.error other) => some other
  | _, _ => none

namespace NodeConfig

variable (node : NodeConfig)

def duressTiming : DuressTiming := ⟨node.duressDelaySecs, node.epsilonSecs, node.combineSlackSecs⟩

def decodePsbt (text field : String) : Except BadRequest Psbt :=
  match node.rules.parsePsbt text with
  | .ok psbt => .ok psbt
  | .error e => .error ⟨s!"cannot decode {field}: {e}"⟩

/-- Each entry binds the commitment id and the whole serialized PSBT, both length-prefixed. -/
def acceptanceReplayKey (candidates : List (String × Psbt)) : String :=
  let entry := fun (id : String) (psbt : Psbt) =>
    let id := id.toUTF8.toList
    let psbt := node.rules.serialize psbt
    leBytes 8 id.length ++ id ++ leBytes 8 psbt.length ++ psbt
  "accepted:" ++ toHex (node.rules.sha256
    ("vault-policy/accepted-request/v0".toUTF8.toList ++ candidates.flatMap (fun c => entry c.1 c.2)))

def armCarrierId (request : CoordRequest) : String :=
  let digest := node.rules.authDigest request node.walletId
  let stretched := if request.isSpend then node.rules.stretch digest else digest
  toHex (node.lib.taggedHash "btc-policy/vault-node/arm-carrier/v0" stretched)

def ensureRequestPropagatable (request : TaggedRequest) : Except BadRequest Unit :=
  let limit := node.maxMsgBytes
  if node.channel.isNone || node.rules.requestFitsChannelBody request limit then .ok ()
  else .error ⟨s!"request expands beyond the federation-uniform channel max_msg_bytes ({limit})"⟩

/-- `none` is no refusal; without a channel there is no window to protect. -/
def ensureDeliveryHorizon (expiry now : Nat) : Option Refusal :=
  let horizon := node.deliveryHorizonSecs
  let floor := satAdd now horizon
  if node.channel.isNone || decide (floor ≤ expiry) then none
  else
    some ⟨.expiryTooShort, "delivery_horizon",
      s!"expiry {expiry} is before {floor} (now {now} + delivery_horizon_secs {horizon}), so the " ++
        "coordinator-signed carrier could expire before peer propagation completes"⟩

def verifyCoordSignature (request : CoordRequest) (coordSig : String) : Except SignResponse Unit :=
  match fromHex coordSig with
  | none => .error (refusal .coordAuthInvalid "coord_sig" "coord_sig is not hex")
  | some der =>
    match node.lib.fromDer der with
    | none => .error (refusal .coordAuthInvalid "coord_sig" "coord_sig is not a DER ECDSA signature")
    | some sig =>
      if node.lib.verifyEcdsa (node.rules.authDigest request node.walletId) sig node.coordinatorAuth then .ok ()
      else
        .error (refusal .coordAuthInvalid "coord_sig"
          "coord_sig does not verify against the pinned coordinator_auth_pubkey")

/-- The refusal of a nonce decision. -/
def nonceRefusal (expiry : Nat) : NonceDecision → Option SignResponse
  | .accepted => none
  | .invalidLength =>
    some (refusal .coordAuthInvalid "coord_nonce" s!"request nonce must be 1..={maxCoordNonceBytes} bytes")
  | .outsideWindow now =>
    let maxAge := node.maxCommitmentAgeSecs
    some (refusal .commitmentExpired "commitment_expiry"
      s!"expiry {expiry} is outside the acceptance window (now {now}, max age {maxAge}s)")
  | .replayed => some (refusal .nonceReplayed "coord_nonce" "request nonce has already been seen by this node")
  | .atCapacity => some (refusal .coordNonceCapacity "coord_nonce_capacity" "coordinator nonce cache is at capacity")

/-- The signature first: freshness state changes only behind it. -/
def verifyCoordAuth (request : CoordRequest) (coordSig : String) (now : Nat) (nonces : NonceLog)
    (monoNow : Option Nat) : NonceLog × Except SignResponse (Nat × Option Nat) :=
  match node.verifyCoordSignature request coordSig with
  | .error refused => (nonces, .error refused)
  | .ok _ =>
    let checked := nonces.checkAndRecord
      ⟨request.nonce, request.expiry, now, node.maxCommitmentAgeSecs, monoNow, request.isSpend && monoNow.isSome⟩
    match node.nonceRefusal request.expiry checked.2 with
    | some refused => (checked.1, .error refused)
    | none => (checked.1, .ok (checked.1.effectiveNow now, checked.1.carrierDeadline request.nonce))

def hotVelocityRefusal (outflowSat : Nat) (refused : HotReserveRefusal) : Refusal :=
  let window := node.hotBudget.windowSecs
  let detail := match refused with
    | .window windowSum =>
      let reached := satAdd windowSum outflowSat
      let budget := node.hotBudget.maxPerWindowSat
      s!"hot outflow {outflowSat} sat would put this node's {window}-second rolling hot outflow at {reached} sat, " ++
        s!"past the Hot budget of {budget} sat"
    | .capacity =>
      s!"this node's hot-budget ledger is at capacity for the current {window}-second window; " ++
        "no further hot spend is metered until reservations age out"
  ⟨.hotVelocityExceeded, "hot_budget_velocity", detail⟩

/-- An operation on the registry, in channel mode. -/
def onStore (op : ChannelState → PartialStore → PartialStore) (s : NodeState) : NodeState :=
  match node.channel with
  | some ch => { s with store := op ch s.store }
  | none => s

/-- Push the carrier to the outbox, then count this node among its holders. -/
def stageSpendCarrier (request : TaggedRequest) (carrier : String) (s : NodeState) : NodeState :=
  node.onStore (fun ch store => store.markCarrierPropagated ch carrier) { s with outbox := s.outbox ++ [request] }

end NodeConfig

end BtcPolicy.Node
