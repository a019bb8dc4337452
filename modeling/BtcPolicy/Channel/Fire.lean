import BtcPolicy.Channel.Carrier

/-! The fire path: which candidates are due, the partial-release gate, finalization, the final send
authorization, and settlement. -/

namespace BtcPolicy.Channel
open FiniteMap Word Bitcoin Hex HotLedger

structure PartialPayload where
  commitmentId : String
  walletId : String
  txid : String
  input : Nat
  signerNodeId : Nat
  sighashType : Nat
  spendPurpose : String
  userSigHash : String
  partialSig : String
  deriving DecidableEq, Repr

/-- One payload with the rung and the input it signs. -/
structure ReleaseItem where
  rung : Nat
  input : Nat
  payload : PartialPayload
  deriving DecidableEq, Repr

structure Release where
  items : List ReleaseItem
  deadline : Nat
  deriving DecidableEq, Repr

def Release.payloads (release : Release) : List PartialPayload := release.items.map ReleaseItem.payload

structure FinalizedCandidate where
  tx : Transaction
  rung : Nat
  deadline : Nat
  deriving DecidableEq, Repr

/-- `FRESHNESS_PAST_SECS + FRESHNESS_FUTURE_SECS`. -/
def settlementObserveGraceSecs : Nat := 300 + 60

def releaseQuotaHeadroom : Nat := 2

namespace PartialStore

/-- The duress freeze: no hot candidate leaves an armed store. -/
def frozen (s : PartialStore) (c : Candidate) : Bool := s.armed.active && c.hot

def isDue (s : PartialStore) (now : Nat) (c : Candidate) : Bool :=
  !c.broadcast && !s.frozen c && s.slotActive c && c.fire.any (fun window => window.isOpen now)

def dueForFire (s : PartialStore) (now : Nat) : List String :=
  (((vals s.candidates).filter (s.isDue now)).map Candidate.commitmentId).insertionSort (· ≤ ·)

def fireSettlementPollable (s : PartialStore) (commitmentId : String) (now : Nat) : Bool :=
  ((s.candidates.lookup commitmentId).bind Candidate.fire).any (fun window =>
    decide (window.fireAt ≤ now) && decide (now ≤ satAdd window.deadline settlementObserveGraceSecs))

/-- The top rung whose whole prefix fits the per-peer quota, anchored at the release floor. -/
def quotaRungCap (ch : ChannelState) (c : Candidate) : Nat :=
  let inputsPerVariant := max c.base.psbt.inputs.length 1
  let partialBudget := max (ch.perPeerQuotaPerMin - releaseQuotaHeadroom) 1
  satAdd c.clampedFloor (partialBudget / inputsPerVariant - 1)

/-- The highest rung that may leave now. -/
def releaseThrough (ch : ChannelState) (c : Candidate) : Nat := min c.authorizedRung (quotaRungCap ch c)

def firstUnreleased (c : Candidate) : Nat :=
  match c.releasedThrough with
  | none => 0
  | some released => released + 1

/-- The lowest rung that may leave now. -/
def releaseFrom (c : Candidate) : Nat := max (firstUnreleased c) c.clampedFloor

def spendPurpose : CandidateRole → String
  | .spend => "spend"
  | .escape => "escape"

/-- This node's own partials of one rung, one for each input it signed. -/
def variantItems (ch : ChannelState) (commitmentId : String) (role : CandidateRole) (signer : PublicKey)
    (rung : Nat) (variant : SigningVariant) : List ReleaseItem :=
  (variant.psbt.inputs.zipIdx).filterMap (fun entry =>
    (entry.1.partialSigs.lookup signer).map (fun sig =>
      { rung := rung
        input := entry.2
        payload :=
          { commitmentId := commitmentId
            walletId := toHex ch.walletId
            txid := txidToString variant.unsignedTxid
            input := entry.2 % 2 ^ 32
            signerNodeId := ch.nodeId
            sighashType := sighashAll
            spendPurpose := spendPurpose role
            userSigHash := toHex variant.userSigHash
            partialSig := toHex sig.der } }))

/-- The payloads of the rungs `first ..= last`. -/
def releaseItems (ch : ChannelState) (commitmentId : String) (c : Candidate) (signer : PublicKey)
    (first last : Nat) : List ReleaseItem :=
  (((c.variants.zipIdx).take (last + 1)).drop first).flatMap (fun entry =>
    variantItems ch commitmentId c.role signer entry.2 entry.1)

/-- The gate: the slot is live, the candidate is not frozen, its window is open, and a rung is left. -/
def releasable (ch : ChannelState) (s : PartialStore) (c : Candidate) (now : Nat) : Option FireWindow :=
  if !s.slotActive c then none
  else if s.armed.active && c.hot then none
  else
    match c.fire with
    | none => none
    | some window =>
      if !window.isOpen now then none
      else if releaseThrough ch c < releaseFrom c then none
      else some window

def releasePartials (ch : ChannelState) (s : PartialStore) (commitmentId : String) (now : Nat) :
    PartialStore × Option Release :=
  match ch.nodes[ch.nodeId]?, s.candidates.lookup commitmentId with
  | some node, some c =>
    match releasable ch s c now with
    | none => (s, none)
    | some window =>
      (s.updateCandidate commitmentId (fun c =>
          { c with released := true, releasedThrough := some (releaseThrough ch c) }),
        some ⟨releaseItems ch commitmentId c node.signingPubkey (releaseFrom c) (releaseThrough ch c),
          window.deadline⟩)
  | _, _ => (s, none)

/-- The highest rung at or below `rung` that has its quorum and finalizes. -/
def finalizeFrom (ch : ChannelState) (c : Candidate) (threshold deadline : Nat) :
    Nat → Option FinalizedCandidate
  | 0 =>
    match c.variant 0 with
    | none => none
    | some variant =>
      if variant.hasQuorum threshold ch.nodes then
        (ch.lib.finalize variant.psbt).map (fun tx => ⟨tx, 0, deadline⟩)
      else none
  | rung + 1 =>
    match c.variant (rung + 1) with
    | none => none
    | some variant =>
      if variant.hasQuorum threshold ch.nodes then
        match ch.lib.finalize variant.psbt with
        | some tx => some ⟨tx, rung + 1, deadline⟩
        | none => finalizeFrom ch c threshold deadline rung
      else finalizeFrom ch c threshold deadline rung

def tryFinalize (ch : ChannelState) (s : PartialStore) (commitmentId : String) (threshold now : Nat) :
    Option FinalizedCandidate :=
  match s.candidates.lookup commitmentId with
  | none => none
  | some c =>
    if !s.slotActive c || s.frozen c then none
    else
      match c.fire with
      | none => none
      | some window =>
        if !window.isOpen now || c.broadcast then none
        else finalizeFrom ch c threshold window.deadline c.authorizedRung

/-- `ok` is the case in which the send closure runs. -/
def withBroadcastAuthorization (s : PartialStore) (commitmentId : String) (now : Nat) :
    Except String Unit :=
  match s.candidates.lookup commitmentId with
  | none => .error s!"candidate {commitmentId} disappeared before broadcast"
  | some c =>
    if !s.slotActive c then .error s!"candidate {commitmentId} slot is no longer authorized at broadcast"
    else if s.frozen c then .error s!"candidate {commitmentId} was frozen by duress before broadcast"
    else
      match c.fire with
      | none => .error s!"candidate {commitmentId} has no authorized fire event"
      | some window =>
        if !window.isOpen now || c.broadcast then
          .error s!"candidate {commitmentId} is outside its broadcast window at {now}"
        else .ok ()

/-- Raise the rung, never lower it, and record the cheapest rung the caller's predicate accepted. -/
def latchRung (rung lowestAdmissible : Nat) (c : Candidate) : Candidate :=
  let bounded := min rung c.bumps.length
  { c with
    rung := if c.rung < bounded then bounded else c.rung
    releaseFloor := min lowestAdmissible bounded }

def latchEscapeRung (s : PartialStore) (commitmentId : String) (rung lowestAdmissible : Nat) :
    PartialStore × Option Nat :=
  (s.updateCandidate commitmentId (latchRung rung lowestAdmissible),
    (s.candidates.lookup commitmentId).map (fun c => (latchRung rung lowestAdmissible c).authorizedRung))

def isArmedEscape (s : PartialStore) (commitmentId : String) : Bool :=
  s.armed.active && s.armed.sweepActive && decide (s.armed.escapeCommitmentId = commitmentId)

def setBroadcast (commitmentId : String) (s : PartialStore) : PartialStore :=
  s.updateCandidate commitmentId (fun c => { c with broadcast := true })

/-- A live armed escape is removed with its pair; anything else is latched broadcast. -/
def markBroadcast (s : PartialStore) (commitmentId : String) : PartialStore × List String :=
  let conflicts := s.invalidateHotConflicts commitmentId
  let s := conflicts.1
  if s.isArmedEscape commitmentId then
    let paired := ((s.candidates.lookup commitmentId).map Candidate.pairedCommitmentId).toList
    ((paired ++ [commitmentId]).foldl evict s, conflicts.2)
  else (s.setBroadcast commitmentId, conflicts.2)

/-- A resident candidate's role and the commitment id of its sibling. -/
def pairing (s : PartialStore) (commitmentId : String) : Option (CandidateRole × String) :=
  (s.candidates.lookup commitmentId).map (fun c => (c.role, c.pairedCommitmentId))

end PartialStore

end BtcPolicy.Channel
