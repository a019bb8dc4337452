import BtcPolicy.Channel.Candidate

/-! The candidate registry with everything that lives under its lock: the armed overlay, the arm intents,
the nonce memos and the Hot-budget ledger. Functions here are the ones the source hangs on the store
itself; each takes the store and returns the next one. -/

namespace BtcPolicy.Channel
open FiniteMap Word Bitcoin HotLedger

/-- The fixed-shape safety overlay. `fireAt` is `T`. -/
structure Armed where
  active : Bool
  fireAt : Nat
  escapeCommitmentId : String
  sweepActive : Bool
  combineSlackSecs : Nat
  deriving DecidableEq, Repr

/-- `[T, T + combine_slack_secs]`, not capped by any commitment expiry. -/
def Armed.escapeWindow (armed : Armed) : FireWindow :=
  ⟨armed.fireAt, satAdd armed.fireAt armed.combineSlackSecs⟩

structure DuressTiming where
  duressDelaySecs : Nat
  epsilonSecs : Nat
  combineSlackSecs : Nat
  deriving DecidableEq, Repr

/-- Confirmation-gated arming state of one carrier. -/
structure ArmIntent where
  holders : Finset Nat
  readyToPropagate : Bool
  ownerRuling : Bool
  duress : Bool
  firstSeen : Nat
  spendCommitmentId : String
  escapeCommitmentId : String
  expiry : Nat
  deadline : Nat
  committed : Bool
  deriving DecidableEq

inductive MemoOutcome where
  | inFlight (signatureTag : Bytes)
  | derived (carrier : String) (signatureTag : Bytes) (resolvedSenders : Map Nat Bytes)
  deriving DecidableEq

structure CarrierMemo where
  outcome : MemoOutcome
  expiry : Nat
  deadline : Nat
  deriving DecidableEq

structure MemoGeneration where
  signatureTag : Bytes
  expiry : Nat
  deadline : Nat
  deriving DecidableEq, Repr

/-- Whether the memo is the in-flight claim of `generation`. A derived memo never is. -/
def CarrierMemo.matchesGeneration (memo : CarrierMemo) (generation : MemoGeneration) : Bool :=
  decide (memo.expiry = generation.expiry) && decide (memo.deadline = generation.deadline) &&
    match memo.outcome with
    | .inFlight tag => decide (tag = generation.signatureTag)
    | .derived _ _ _ => false

structure PartialStore where
  candidates : Map String Candidate
  reservedBytes : Nat
  maxActiveCandidates : Nat
  maxBytes : Nat
  armed : Armed
  intents : Map String ArmIntent
  carriersByNonce : Map String CarrierMemo
  hotBudget : HotBudgetLedger

inductive RegisterOutcome where
  | inserted
  | alreadyPresent
  | conflict
  | atCapacity
  deriving DecidableEq, Repr

inductive RejectReason where
  | malformedJson
  | oversizedBody
  | badProtocolVersion
  | wrongWallet
  | wrongManifest
  | wrongRecipient
  | unknownSender
  | badChannelSig
  | staleTimestamp
  | replayedNonce
  | malformedPayload
  | unknownMsgType
  | payloadWalletMismatch
  | signerMismatch
  | wrongTxid
  | wrongUserSigHash
  | wrongInput
  | wrongSighashType
  | badPartialSig
  deriving DecidableEq, Repr

inductive ChannelReply where
  | accepted
  | rejected (reason : RejectReason)
  | unknownCandidate
  | rateLimited (retryAfterSecs : Nat)
  deriving DecidableEq, Repr

structure ParsedPartial where
  commitmentId : String
  txid : Txid
  userSigHash : Bytes
  input : Nat
  signer : Nat
  der : Bytes
  deriving DecidableEq, Repr

namespace PartialStore

/-- Rewrite one resident candidate (`candidates.get_mut`). -/
def updateCandidate (s : PartialStore) (id : String) (f : Candidate → Candidate) : PartialStore :=
  { s with candidates := adjust id f s.candidates }

def updateIntent (s : PartialStore) (carrier : String) (f : ArmIntent → ArmIntent) : PartialStore :=
  { s with intents := adjust carrier f s.intents }

def releaseIfUnexposed (hotBudget : HotBudgetLedger) (c : Candidate) : HotBudgetLedger :=
  if c.isUnexposedHot then hotBudget.release c.commitmentId else hotBudget

/-- The resident hot candidates that `spenderId`'s transaction defeats by spending one of their inputs. -/
def hotConflicts (s : PartialStore) (spenderId : String) : List String :=
  let spent := match s.candidates.lookup spenderId with
    | some c => c.spentInputs
    | none => []
  (s.candidates.entries.filter (fun e =>
    decide (e.1 ≠ spenderId) && e.2.hot && e.2.spentInputs.any (fun input => decide (input ∈ spent)))).map
    (fun e => e.1)

/-- Refund first, then mark: the refund reads the flag the mark sets. -/
def terminalize (s : PartialStore) (id : String) : PartialStore :=
  match s.candidates.lookup id with
  | some c =>
    { s with
      hotBudget := releaseIfUnexposed s.hotBudget c
      candidates := adjust id (fun c => { c with broadcast := true }) s.candidates }
  | none => s

def invalidateHotConflicts (s : PartialStore) (spenderId : String) : PartialStore × List String :=
  let invalidated := s.hotConflicts spenderId
  (invalidated.foldl terminalize s, invalidated)

def ownerStillRuling (intents : Map String ArmIntent) (memo : CarrierMemo) : Bool :=
  match memo.outcome with
  | .inFlight _ => true
  | .derived carrier _ _ => (intents.lookup carrier).any (fun intent => intent.ownerRuling)

def pruneCarriers (s : PartialStore) (monoNow : Nat) : PartialStore :=
  let intents := retain (fun _ intent => decide (monoNow < intent.deadline) || intent.ownerRuling) s.intents
  { s with
    intents := intents
    carriersByNonce := retain
      (fun _ memo => decide (monoNow < memo.deadline) || ownerStillRuling intents memo)
      s.carriersByNonce }

def CarrierMemo.names (memo : CarrierMemo) (carrier : String) : Bool :=
  match memo.outcome with
  | .derived c _ _ => decide (c = carrier)
  | .inFlight _ => false

/-- Remove the intent and exactly the derived memo that names it. -/
def retireCarrier (s : PartialStore) (carrier : String) : PartialStore :=
  { s with
    intents := s.intents.erase carrier
    carriersByNonce := retain (fun _ memo => !CarrierMemo.names memo carrier) s.carriersByNonce }

def slotActive (s : PartialStore) (c : Candidate) : Bool :=
  let selectedEscape := s.armed.active && s.armed.sweepActive &&
    decide (s.armed.escapeCommitmentId = c.commitmentId)
  c.holderQuorumReached && (decide (c.role ≠ .escape) || selectedEscape)

def register (s : PartialStore) (c : Candidate) : PartialStore × RegisterOutcome :=
  match s.candidates.lookup c.commitmentId with
  | some resident => if resident.matchesRegistration c then (s, .alreadyPresent) else (s, .conflict)
  | none =>
    if s.maxActiveCandidates ≤ size s.candidates ∨ s.maxBytes < satAdd s.reservedBytes c.capacityBytes then
      (s, .atCapacity)
    else
      ({ s with
          reservedBytes := satAdd s.reservedBytes c.capacityBytes
          candidates := s.candidates.insert c.commitmentId c },
        .inserted)

/-- An unbroadcast escape whose delayed window has not closed yet. -/
def openDelayedSlot (c : Candidate) (now : Nat) : Bool :=
  decide (c.role = .escape) && !c.broadcast && c.fire.any (fun window => decide (now ≤ window.deadline))

def delayedSlotContextExempt (s : PartialStore) (commitmentId : String) (now : Nat) : Bool :=
  (vals s.candidates).any (fun escape =>
    openDelayedSlot escape now &&
      (decide (escape.commitmentId = commitmentId) || decide (escape.pairedCommitmentId = commitmentId)))

/-- The ids that are deleted because the armed escape's combine window is over. -/
def fireComplete (s : PartialStore) (now : Nat) : List String :=
  if s.armed.active && s.armed.sweepActive && decide (s.armed.escapeWindow.deadline < now) then
    s.armed.escapeCommitmentId ::
      ((s.candidates.lookup s.armed.escapeCommitmentId).map Candidate.pairedCommitmentId).toList
  else []

/-- The predicate `prune` retains by. -/
def survivesPrune (s : PartialStore) (now : Nat) (id : String) (c : Candidate) : Bool :=
  !(decide (id ∈ s.fireComplete now)) && (decide (now ≤ c.expiry) || s.delayedSlotContextExempt id now)

def prune (s : PartialStore) (now : Nat) : PartialStore :=
  let dropped := s.candidates.entries.filter (fun e => !s.survivesPrune now e.1 e.2)
  let removed := (dropped.map (fun e => e.2.capacityBytes)).foldl satAdd 0
  let freed := (dropped.filter (fun e => e.2.isUnexposedHot)).map (fun e => e.1)
  { s with
    candidates := retain (s.survivesPrune now) s.candidates
    reservedBytes := s.reservedBytes - removed
    hotBudget := freed.foldl HotBudgetLedger.release s.hotBudget }

/-- Remove one candidate, give back its charge, and refund it if its share never left. -/
def evict (s : PartialStore) (id : String) : PartialStore :=
  match s.candidates.lookup id with
  | some c =>
    { s with
      candidates := s.candidates.erase id
      reservedBytes := s.reservedBytes - c.capacityBytes
      hotBudget := releaseIfUnexposed s.hotBudget c }
  | none => s

/-- The checks on a partial, in order, against the rung its txid names. -/
def checkPartial (lib : Library) (c : Candidate) (p : ParsedPartial) (nodes : List ManifestNode) :
    Except RejectReason (Nat × SigningVariant × PublicKey × Bytes) :=
  match c.rungOfTxid p.txid with
  | none => .error .wrongTxid
  | some rung =>
    match c.variant rung with
    | none => .error .wrongTxid
    | some variant =>
      if p.userSigHash ≠ variant.userSigHash then .error .wrongUserSigHash
      else
        match variant.sighashes[p.input]?, variant.psbt.inputs[p.input]? with
        | some sighash, some _ =>
          match nodes[p.signer]? with
          | none => .error .signerMismatch
          | some node =>
            match lib.fromDer p.der with
            | none => .error .badPartialSig
            | some sig =>
              if lib.verifyEcdsa sighash sig node.signingPubkey then
                .ok (rung, variant, node.signingPubkey, sig)
              else .error .badPartialSig
        | _, _ => .error .wrongInput

/-- Import one verified signature into the rung's canonical PSBT and partial set. -/
def importPartial (lib : Library) (c : Candidate) (p : ParsedPartial) (rung : Nat)
    (variant : SigningVariant) (expected : PublicKey) (sig : Bytes) : Candidate :=
  let psbt := { variant.psbt with
    inputs := variant.psbt.inputs.modify p.input (fun input =>
      { input with partialSigs := input.partialSigs.insert expected ⟨sig, sighashAll⟩ }) }
  let next := { variant with
    psbt := psbt
    partials := variant.partials.insert (p.input, p.signer) sig }
  { c.setVariant rung next with
    bytes := satAdd (satAdd (c.bytes - lib.serializedLen variant.psbt) (lib.serializedLen psbt)) sig.length }

def acceptPartial (lib : Library) (s : PartialStore) (p : ParsedPartial) (nodes : List ManifestNode)
    (now : Nat) : PartialStore × ChannelReply :=
  match s.candidates.lookup p.commitmentId with
  | none => (s, .unknownCandidate)
  | some c =>
    if c.expiry < now ∧ s.delayedSlotContextExempt p.commitmentId now = false then
      (s.evict p.commitmentId, .unknownCandidate)
    else
      match checkPartial lib c p nodes with
      | .error reason => (s, .rejected reason)
      | .ok (rung, variant, expected, sig) =>
        if (variant.partials.lookup (p.input, p.signer)).isSome then (s, .accepted)
        else
          (s.updateCandidate p.commitmentId (fun c => importPartial lib c p rung variant expected sig),
            .accepted)

end PartialStore

end BtcPolicy.Channel
