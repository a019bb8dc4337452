import BtcPolicy.Channel.Ingress

/-! Carriers: the nonce memo of a request, the ruling of its handler, and the confirmation-gated arm
commit. -/

namespace BtcPolicy.Channel
open FiniteMap Word Bitcoin HotLedger

inductive CarrierMemoLookup where
  | vacant
  | inFlight
  | awaitingPropagation
  | clockRefused
  | exact (carrier : String)
  | deriveForConfirmation (memoizedCarrier : String) (generation : MemoGeneration)
  | skip
  deriving DecidableEq, Repr

inductive OuterStaleCarrier where
  | terminal
  | retry (secs : Nat)
  | derive (carrier : String) (generation : MemoGeneration)
  deriving DecidableEq, Repr

inductive OuterStaleStep where
  | inspect (claim : Bool)
  | finish (memoizedCarrier : String) (generation : MemoGeneration) (matched : Bool)
  deriving DecidableEq, Repr

structure CarrierConfirmation where
  committed : Bool
  armed : Bool
  clockRefused : Bool
  deriving DecidableEq, Repr

def CarrierConfirmation.none : CarrierConfirmation := ⟨false, false, false⟩

def CarrierConfirmation.refusedByClock : CarrierConfirmation := ⟨false, false, true⟩

def outerStaleClaimTag : String := "btc-policy/outer-stale-claim/v0"

def carrierClockRetrySecs : Nat := 30

namespace PartialStore

/-! ### Nonce memos -/

def claimNonceInFlight (s : PartialStore) (nonce : String) (generation : MemoGeneration) (monoNow : Nat) :
    PartialStore :=
  let s := s.pruneCarriers monoNow
  { s with
    carriersByNonce := s.carriersByNonce.insert nonce
      ⟨.inFlight generation.signatureTag, generation.expiry, generation.deadline⟩ }

/-- Remove only the in-flight claim of exactly this generation. -/
def releaseNonceClaim (s : PartialStore) (nonce : String) (generation : MemoGeneration) : PartialStore :=
  if (s.carriersByNonce.lookup nonce).any (fun memo => memo.matchesGeneration generation) then
    { s with carriersByNonce := s.carriersByNonce.erase nonce }
  else s

/-- A staged carrier stays until its deadline; one that was never staged is retired here. -/
def endCarrierRuling (s : PartialStore) (carrier : String) (monoNow : Nat) : PartialStore :=
  let ended := s.updateIntent carrier (fun intent => { intent with ownerRuling := false })
  match s.intents.lookup carrier with
  | some intent =>
    if !intent.readyToPropagate || decide (intent.deadline ≤ monoNow) then ended.retireCarrier carrier
    else ended
  | none => s

def markCarrierPropagated (ch : ChannelState) (s : PartialStore) (carrier : String) : PartialStore :=
  s.updateIntent carrier (fun intent =>
    { intent with
      readyToPropagate := true
      holders := insert ch.nodeId intent.holders })

/-- `resolve_signature`. -/
def resolveSignature (nonce : String) (sender : Nat) (signatureTag : Bytes) (s : PartialStore) :
    PartialStore :=
  { s with
    carriersByNonce := adjust nonce (fun memo =>
      match memo.outcome with
      | .derived carrier tag resolved =>
        { memo with outcome := .derived carrier tag (resolved.insert sender signatureTag) }
      | .inFlight _ => memo) s.carriersByNonce }

def rawExpiredRetry (s : PartialStore) (carrier : String) (sender : Nat) : CarrierMemoLookup :=
  match s.intents.lookup carrier with
  | none => .vacant
  | some intent =>
    if intent.committed || decide (sender ∈ intent.holders) then .vacant
    else if intent.ownerRuling && !intent.readyToPropagate then .awaitingPropagation
    else if intent.readyToPropagate then .clockRefused
    else .vacant

/-- The derived half of the lookup: an exact tag first, then the sender's one derivation. -/
def derivedLookup (ch : ChannelState) (s : PartialStore) (memo : CarrierMemo) (carrier : String)
    (remembered : Bytes) (resolvedSenders : Map Nat Bytes) (signatureTag : Bytes) (sender : Nat)
    (rawExpired : Bool) : CarrierMemoLookup :=
  let resolved := resolvedSenders.lookup sender
  if remembered = signatureTag ∨ resolved = some signatureTag then
    if rawExpired then s.rawExpiredRetry carrier sender else .exact carrier
  else if (s.intents.lookup carrier).any (fun intent =>
      intent.committed || decide (sender ∈ intent.holders)) then .skip
  else if resolved = some (ch.lib.taggedHash outerStaleClaimTag signatureTag) then .inFlight
  else if resolved.isSome then .skip
  else .deriveForConfirmation carrier ⟨remembered, memo.expiry, memo.deadline⟩

def carrierMemoLookup (ch : ChannelState) (s : PartialStore) (nonce : String) (signatureTag : Bytes)
    (requestExpiry sender now monoNow : Nat) : CarrierMemoLookup :=
  match s.carriersByNonce.lookup nonce with
  | none => .vacant
  | some memo =>
    if memo.deadline ≤ monoNow then .vacant
    else if memo.expiry ≠ requestExpiry then .vacant
    else
      let rawExpired := decide (memo.expiry ≤ now)
      match memo.outcome with
      | .inFlight _ => .inFlight
      | .derived carrier remembered resolvedSenders =>
        if !rawExpired && (s.intents.lookup carrier).any (fun intent =>
            intent.ownerRuling && !intent.readyToPropagate) then .awaitingPropagation
        else s.derivedLookup ch memo carrier remembered resolvedSenders signatureTag sender rawExpired

/-- Whether the step finishes the claimed derivation, and with which verdict. -/
def finishedStep (step : OuterStaleStep) (carrier : String) (generation : MemoGeneration)
    (resolved : Option Bytes) (claimTag : Bytes) : Option Bool :=
  match step with
  | .finish memoizedCarrier claimed matched =>
    if memoizedCarrier = carrier ∧ claimed = generation ∧ resolved = some claimTag then some matched
    else none
  | .inspect _ => none

/-- The verdict on a derived memo, after a finished derivation has been written back. -/
def outerStaleVerdict (s : PartialStore) (nonce carrier : String) (generation : MemoGeneration)
    (resolved : Option Bytes) (signatureTag claimTag : Bytes) (sender now : Nat) (step : OuterStaleStep)
    (finished : Option Bool) : PartialStore × OuterStaleCarrier :=
  if generation.expiry ≤ now then (s, .terminal)
  else
    match s.intents.lookup carrier with
    | none => (s, .terminal)
    | some intent =>
      if (intent.expiry, intent.deadline) ≠ (generation.expiry, generation.deadline) ∨
          intent.committed = true ∨ sender ∈ intent.holders ∨
          (intent.ownerRuling || intent.readyToPropagate) = false then (s, .terminal)
      else if intent.ownerRuling && !intent.readyToPropagate then (s, .retry 1)
      else if generation.signatureTag = signatureTag ∨ resolved = some signatureTag then
        (s, .retry carrierClockRetrySecs)
      else
        match step with
        | .inspect claim =>
          if resolved = some claimTag then (s, .retry 1)
          else if resolved.isNone then
            (if claim then s.resolveSignature nonce sender claimTag else s, .derive carrier generation)
          else (s, .terminal)
        | .finish _ _ _ =>
          if finished = some true then (s, .retry carrierClockRetrySecs) else (s, .terminal)

def outerStaleCarrier (ch : ChannelState) (s : PartialStore) (nonce : String) (signatureTag : Bytes)
    (expiry deadline sender now : Nat) (step : OuterStaleStep) (monoNow : Nat) :
    PartialStore × OuterStaleCarrier :=
  match s.carriersByNonce.lookup nonce with
  | none => (s, .terminal)
  | some memo =>
    if deadline ≤ monoNow ∨ (memo.expiry, memo.deadline) ≠ (expiry, deadline) then (s, .terminal)
    else
      match memo.outcome with
      | .inFlight _ => (s, if now < expiry then .retry 1 else .terminal)
      | .derived carrier remembered resolvedSenders =>
        let resolved := resolvedSenders.lookup sender
        let claimTag := ch.lib.taggedHash outerStaleClaimTag signatureTag
        let generation : MemoGeneration := ⟨remembered, memo.expiry, memo.deadline⟩
        let finished := finishedStep step carrier generation resolved claimTag
        let s := match finished with
          | some matched => s.resolveSignature nonce sender (if matched then signatureTag else remembered)
          | none => s
        s.outerStaleVerdict nonce carrier generation resolved signatureTag claimTag sender now step finished

def claimCarrierDerivation (s : PartialStore) (nonce : String) (sender : Nat) (memoizedCarrier : String) :
    PartialStore × Bool :=
  if (s.intents.lookup memoizedCarrier).any (fun intent =>
      !intent.committed && !decide (sender ∈ intent.holders)) then
    match s.carriersByNonce.lookup nonce with
    | none => (s, false)
    | some memo =>
      match memo.outcome with
      | .derived carrier signatureTag resolvedSenders =>
        if carrier = memoizedCarrier ∧ (resolvedSenders.lookup sender).isNone then
          (s.resolveSignature nonce sender signatureTag, true)
        else (s, false)
      | .inFlight _ => (s, false)
  else (s, false)

def recordCarrierDerivationResult (s : PartialStore) (nonce : String) (sender : Nat) (signatureTag : Bytes)
    (generation : MemoGeneration) (memoizedCarrier : String) : PartialStore × Bool :=
  match s.carriersByNonce.lookup nonce with
  | none => (s, false)
  | some memo =>
    match memo.outcome with
    | .derived carrier remembered resolvedSenders =>
      if carrier = memoizedCarrier ∧ remembered = generation.signatureTag ∧
          memo.expiry = generation.expiry ∧ memo.deadline = generation.deadline ∧
          resolvedSenders.lookup sender = some generation.signatureTag then
        (s.resolveSignature nonce sender signatureTag, true)
      else (s, false)
    | .inFlight _ => (s, false)

/-! ### The arm commit -/

/-- Count `sender` as a holder of `carrier`. -/
def addHolder (sender : Nat) (carrier : String) (s : PartialStore) : PartialStore :=
  s.updateIntent carrier (fun intent => { intent with holders := insert sender intent.holders })

def markCommitted (carrier : String) (s : PartialStore) : PartialStore :=
  s.updateIntent carrier (fun intent => { intent with committed := true })

/-- Open one candidate's holder gate. -/
def openGate (commitmentId : String) (s : PartialStore) : PartialStore :=
  s.updateCandidate commitmentId (fun c => { c with holderQuorumReached := true })

/-- Pin this carrier's escape as the live sweep, unless one is live or the carrier has none. -/
def selectSweep (commitArm : Bool) (escapeCommitmentId : String) (s : PartialStore) : PartialStore :=
  let selectRequest := commitArm && !s.armed.sweepActive && decide (escapeCommitmentId ≠ "")
  { s with
    armed := { s.armed with
      escapeCommitmentId := if selectRequest then escapeCommitmentId else s.armed.escapeCommitmentId
      sweepActive := s.armed.sweepActive || selectRequest } }

/-- The writes of the receipt that crosses the threshold, in the order they are made under the store
lock. The overlay comes before either gate opens. -/
def confirmWrites (carrier : String) (intent : ArmIntent) (now : Nat) (timing : DuressTiming) :
    List (PartialStore → PartialStore) :=
  [markCommitted carrier,
    writeSafetyOverlay intent.duress intent.firstSeen now timing,
    openGate intent.spendCommitmentId,
    openGate intent.escapeCommitmentId,
    selectSweep intent.duress intent.escapeCommitmentId,
    refreshEscapeWindow intent.escapeCommitmentId,
    fun s => s.refreshEscapeWindow s.armed.escapeCommitmentId,
    fun s => s.retireCarrier carrier]

/-- Apply a list of writes in order. -/
def applyWrites (writes : List (PartialStore → PartialStore)) (s : PartialStore) : PartialStore :=
  writes.foldl (fun s write => write s) s

def confirmCarrier (s : PartialStore) (sender : Nat) (carrier : String) (threshold now : Nat)
    (timing : DuressTiming) (monoNow : Nat) : PartialStore × CarrierConfirmation :=
  match s.intents.lookup carrier with
  | none => (s, .none)
  | some intent =>
    if intent.readyToPropagate = false ∨ intent.committed = true ∨ sender ∈ intent.holders then (s, .none)
    else if intent.deadline ≤ monoNow then (s, .none)
    else if intent.expiry ≤ now then (s, .refusedByClock)
    else
      let counted := s.addHolder sender carrier
      if (insert sender intent.holders).card < threshold then (counted, .none)
      else
        (applyWrites (confirmWrites carrier intent now timing) counted, ⟨true, intent.duress, false⟩)

def lockdownDue (s : PartialStore) (now : Nat) : Bool := s.armed.active && decide (s.armed.fireAt ≤ now)

/-- `prune_store`: carriers by the monotonic clock, candidates by the wall clock. -/
def pruneStore (s : PartialStore) (now monoNow : Nat) : PartialStore :=
  (s.pruneCarriers monoNow).prune now

end PartialStore

end BtcPolicy.Channel
