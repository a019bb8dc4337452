import BtcPolicy.Bitcoin
import BtcPolicy.HotLedger

/-! The registered candidate: one spend or one escape of a request's pair, with its fee ladder, its fire
window, and the partial signatures collected for it. -/

namespace BtcPolicy.Channel
open FiniteMap Word Bitcoin

/-- `[fireAt, deadline]`, both ends inclusive. -/
structure FireWindow where
  fireAt : Nat
  deadline : Nat
  deriving DecidableEq, Repr

def FireWindow.isOpen (window : FireWindow) (now : Nat) : Bool :=
  decide (window.fireAt ≤ now) && decide (now ≤ window.deadline)

inductive CandidateRole where
  | spend
  | escape
  deriving DecidableEq, Repr

structure ManifestNode where
  nodeId : Nat
  signingPubkey : PublicKey
  deriving DecidableEq, Repr

structure SigningVariant where
  unsignedTxid : Txid
  psbt : Psbt
  sighashes : List Bytes
  userSigHash : Bytes
  partials : Map (Nat × Nat) Bytes

structure CandidateKeys where
  witnessScript : Script
  userPubkey : PublicKey
  selfSigningPubkey : PublicKey

def userSigHashTag : String := "btc-policy/user-sig-hash/v0"

namespace SigningVariant

/-- Pin the descriptor's fields and strip every partial signature but the user's and this node's own. -/
def canonicalInput (keys : CandidateKeys) (input : PsbtInput) : PsbtInput :=
  { input with
    witnessScript := some keys.witnessScript
    redeemScript := none
    sighashType := some sighashAll
    finalScriptSig := none
    finalScriptWitness := none
    partialSigs := retain (fun pk _ => decide (pk = keys.userPubkey) || decide (pk = keys.selfSigningPubkey))
      input.partialSigs }

/-- The sighash and the user-signature bytes of one input. -/
def inputDigest (lib : Library) (keys : CandidateKeys) (tx : Transaction) (i : Nat) (input : PsbtInput) :
    Except String (Bytes × Bytes) := do
  let utxo ← match input.witnessUtxo with
    | some utxo => pure utxo
    | none => throw s!"input {i} has no witness_utxo"
  let sighash ← match lib.p2wshSignatureHash tx i keys.witnessScript utxo.value with
    | .ok sighash => pure sighash
    | .error e => throw s!"sighash for input {i}: {e}"
  match input.partialSigs.lookup keys.userPubkey with
  | some sig => pure (sighash, pushVar sig.der ++ [UInt8.ofNat sig.sighashType])
  | none => throw s!"input {i} missing the user partial signature"

def inputDigests (lib : Library) (keys : CandidateKeys) (tx : Transaction) :
    Nat → List PsbtInput → Except String (List (Bytes × Bytes))
  | _, [] => pure []
  | i, input :: rest => do
    let digest ← inputDigest lib keys tx i input
    let digests ← inputDigests lib keys tx (i + 1) rest
    pure (digest :: digests)

def build (lib : Library) (psbt : Psbt) (keys : CandidateKeys) : Except String SigningVariant := do
  let psbt := { psbt with inputs := psbt.inputs.map (canonicalInput keys) }
  let digests ← inputDigests lib keys psbt.unsignedTx 0 psbt.inputs
  pure
    { unsignedTxid := lib.computeTxid psbt.unsignedTx
      psbt := psbt
      sighashes := digests.map Prod.fst
      userSigHash := lib.taggedHash userSigHashTag (digests.flatMap Prod.snd)
      partials := ∅ }

def bytes (lib : Library) (variant : SigningVariant) : Nat :=
  lib.serializedLen variant.psbt + variant.sighashes.length * 32 + 32

def signatureCount (variant : SigningVariant) (input : Nat) (nodes : List ManifestNode) : Nat :=
  match variant.psbt.inputs[input]? with
  | none => 0
  | some psbtInput =>
    (nodes.filter (fun node => (psbtInput.partialSigs.lookup node.signingPubkey).isSome)).length

def hasQuorum (variant : SigningVariant) (threshold : Nat) (nodes : List ManifestNode) : Bool :=
  !variant.psbt.inputs.isEmpty &&
    (List.range variant.psbt.inputs.length).all (fun i => threshold ≤ variant.signatureCount i nodes)

end SigningVariant

/-- One registered candidate. `bumps` is the escape fee ladder above `base`, `rung` the latched rung,
`releaseFloor` the lowest rung that may leave this node, and `releasedThrough` the highest that has. -/
structure Candidate where
  commitmentId : String
  role : CandidateRole
  hot : Bool
  pairedCommitmentId : String
  holderQuorumReached : Bool
  base : SigningVariant
  bumps : List SigningVariant
  rung : Nat
  releaseFloor : Nat
  expiry : Nat
  fire : Option FireWindow
  released : Bool
  releasedThrough : Option Nat
  broadcast : Bool
  bytes : Nat
  capacityBytes : Nat

structure CandidateSpec where
  psbt : Psbt
  escapeBumps : List Psbt
  commitmentId : String
  pairedCommitmentId : String
  holderQuorumReached : Bool
  role : CandidateRole
  hot : Bool
  fire : Option FireWindow
  expiry : Nat

def maxEcdsaDerBytes : Nat := 72

def psbtPartialSigFixedBytes : Nat := 37

namespace Candidate

def build (lib : Library) (spec : CandidateSpec) (keys : CandidateKeys) : Except String Candidate := do
  let base ← SigningVariant.build lib spec.psbt keys
  let bumps ← spec.escapeBumps.mapM (fun bump => SigningVariant.build lib bump keys)
  let bytes := ((base :: bumps).map (SigningVariant.bytes lib)).foldl satAdd 0
  pure
    { commitmentId := spec.commitmentId
      role := spec.role
      hot := spec.hot
      pairedCommitmentId := spec.pairedCommitmentId
      holderQuorumReached := spec.holderQuorumReached
      base := base
      bumps := bumps
      rung := 0
      releaseFloor := 0
      expiry := spec.expiry
      fire := spec.fire
      released := false
      releasedThrough := none
      broadcast := false
      bytes := bytes
      capacityBytes := bytes }

def variants (c : Candidate) : List SigningVariant := c.base :: c.bumps

def variant (c : Candidate) : Nat → Option SigningVariant
  | 0 => some c.base
  | bump + 1 => c.bumps[bump]?

def setVariant (c : Candidate) (rung : Nat) (v : SigningVariant) : Candidate :=
  match rung with
  | 0 => { c with base := v }
  | bump + 1 => { c with bumps := c.bumps.set bump v }

def rungOfTxid (c : Candidate) (txid : Txid) : Option Nat :=
  c.variants.findIdx? (fun variant => variant.unsignedTxid = txid)

def authorizedRung (c : Candidate) : Nat := min c.rung c.bumps.length

def clampedFloor (c : Candidate) : Nat := min c.releaseFloor c.bumps.length

def sameVariant (mine theirs : SigningVariant) : Bool :=
  decide (mine.unsignedTxid = theirs.unsignedTxid) && decide (mine.sighashes = theirs.sighashes) &&
    decide (mine.userSigHash = theirs.userSigHash)

def matchesRegistration (c other : Candidate) : Bool :=
  decide (c.role = other.role) && decide (c.pairedCommitmentId = other.pairedCommitmentId) &&
    decide (c.expiry = other.expiry) && decide (c.bumps.length = other.bumps.length) &&
    (c.variants.zip other.variants).all (fun pair => sameVariant pair.1 pair.2)

/-- The growth one node's entry on one input can still cause. -/
def entryReserve (selfNodeId : Nat) (input : PsbtInput) (node : ManifestNode) (capacity : Nat) : Nat :=
  let existing := match input.partialSigs.lookup node.signingPubkey with
    | some sig => psbtPartialSigFixedBytes + sig.der.length
    | none => 0
  let capacity := satAdd capacity (psbtPartialSigFixedBytes + maxEcdsaDerBytes - existing)
  if node.nodeId ≠ selfNodeId then satAdd capacity maxEcdsaDerBytes else capacity

def reservePartialCapacity (c : Candidate) (nodes : List ManifestNode) (selfNodeId : Nat) : Candidate :=
  { c with
    capacityBytes := c.variants.foldl (fun capacity variant =>
      variant.psbt.inputs.foldl (fun capacity input =>
        nodes.foldl (fun capacity node => entryReserve selfNodeId input node capacity) capacity)
        capacity) c.bytes }

/-- The outpoints the candidate's own transaction spends. -/
def spentInputs (c : Candidate) : List OutPoint :=
  c.base.psbt.unsignedTx.input.map TxIn.previousOutput

/-- A hot candidate whose share has neither left this node nor been broadcast. -/
def isUnexposedHot (c : Candidate) : Bool := c.hot && !c.released && !c.broadcast

end Candidate

end BtcPolicy.Channel
