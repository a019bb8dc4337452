import BtcPolicy.Channel.Store

/-! The ingress half of the two-track machine: the safety overlay, the delayed-slot schedule, arm intents
and the registration of a request's candidates. The store is passed explicitly; every clock reading is
an argument. -/

namespace BtcPolicy.Channel
open FiniteMap Word Bitcoin HotLedger

/-- The part of the channel state that no operation writes. -/
structure ChannelState where
  lib : Library
  nodeId : Nat
  walletId : Bytes
  nodes : List ManifestNode
  perPeerQuotaPerMin : Nat

structure ArmDirective where
  sweepEscape : String
  spendCommitmentId : String
  carrier : String
  duress : Bool
  epsilonSecs : Nat
  now : Nat
  deriving DecidableEq, Repr

structure HotReserveSpec where
  commitmentId : String
  outflowSat : Nat
  wallNow : Nat
  expiry : Nat
  deriving DecidableEq, Repr

inductive MemoUpgrade where
  | upgraded
  | superseded
  | reinstalled
  deriving DecidableEq, Repr

/-- The store `ChannelState::build` creates. -/
def PartialStore.new (maxActiveCandidates maxBytes : Nat) (hotBudget : HotBudget) : PartialStore :=
  { candidates := ∅
    reservedBytes := 0
    maxActiveCandidates := maxActiveCandidates
    maxBytes := maxBytes
    armed := ⟨false, 0, "", false, 0⟩
    intents := ∅
    carriersByNonce := ∅
    hotBudget := HotBudgetLedger.new hotBudget }

namespace PartialStore

/-- The smallest `fireAt` over live hot spends. -/
def earliestHot (s : PartialStore) (now : Nat) : Option Nat :=
  (((vals s.candidates).filter (fun c => c.hot && !c.broadcast && decide (now ≤ c.expiry))).filterMap
    (fun c => c.fire.map FireWindow.fireAt)).min?

/-- `T` before any shrink, clamped to `now`: a `T` already past fires now. -/
def effectiveT (s : PartialStore) (firstSeen now : Nat) (timing : DuressTiming) : Nat :=
  let t := satAdd firstSeen timing.duressDelaySecs
  let t := match s.earliestHot now with
    | some hotFire => min t (hotFire - timing.epsilonSecs)
    | none => t
  max t now

def writeSafetyOverlay (arm : Bool) (firstSeen now : Nat) (timing : DuressTiming) (s : PartialStore) :
    PartialStore :=
  let effectiveT := s.effectiveT firstSeen now timing
  let wasActive := s.armed.active
  let retainedOrInitial := if wasActive then s.armed.fireAt else effectiveT
  let shrunk := min retainedOrInitial effectiveT
  { s with
    armed := { s.armed with
      fireAt := if wasActive && arm then shrunk else retainedOrInitial
      combineSlackSecs := timing.combineSlackSecs
      active := wasActive || arm } }

/-- Only an escape has a delayed window. -/
def reschedule (window : FireWindow) (c : Candidate) : Candidate :=
  if c.role = .escape then { c with fire := some window } else c

/-- Install `[T, T + combine_slack_secs]` on one delayed escape slot. -/
def refreshEscapeWindow (escapeId : String) (s : PartialStore) : PartialStore :=
  if escapeId = "" then s else s.updateCandidate escapeId (reschedule s.armed.escapeWindow)

/-- One accepted hot Hold. Only the armed bit decides whether the shrunk value is committed. -/
def shrinkToHold (epsilonSecs now : Nat) (armed : Armed) (hold : Nat) : Armed :=
  { armed with
    fireAt := if armed.active then min armed.fireAt (max (hold - epsilonSecs) now) else armed.fireAt }

/-- The first live sweep wins; before one is live every request writes the delayed-slot id. -/
def adoptSweep (arm : ArmDirective) (escapeLive : Bool) (armed : Armed) : Armed :=
  { armed with
    escapeCommitmentId := if armed.sweepActive then armed.escapeCommitmentId else arm.sweepEscape
    sweepActive := armed.sweepActive || (armed.active && arm.duress && escapeLive) }

def applyArmDirective (arm : ArmDirective) (hotHolds : List Nat) (s : PartialStore) : PartialStore :=
  let escapeLive := (s.candidates.lookup arm.sweepEscape).any Candidate.holderQuorumReached
  let armed := adoptSweep arm escapeLive (hotHolds.foldl (shrinkToHold arm.epsilonSecs arm.now) s.armed)
  (({ s with armed := armed }).refreshEscapeWindow arm.sweepEscape).refreshEscapeWindow
    armed.escapeCommitmentId

def applyCachedSchedule (s : PartialStore) (escapeCommitmentId : String) (duress : Bool)
    (now epsilonSecs : Nat) : PartialStore :=
  s.applyArmDirective ⟨escapeCommitmentId, "", "", duress, epsilonSecs, now⟩ []

def attachPair (carrier spendCommitmentId escapeCommitmentId : String) (s : PartialStore) : PartialStore :=
  s.updateIntent carrier (fun intent =>
    { intent with
      spendCommitmentId := spendCommitmentId
      escapeCommitmentId := escapeCommitmentId })

def recordIntentPair (s : PartialStore) (carrier spendCommitmentId escapeCommitmentId : String) :
    PartialStore :=
  s.attachPair carrier spendCommitmentId escapeCommitmentId

/-- The intent `record_arm_intent` installs when the carrier has none. -/
def freshIntent (generation : MemoGeneration) (firstSeen : Nat) : ArmIntent :=
  { holders := ∅
    readyToPropagate := false
    ownerRuling := false
    duress := false
    firstSeen := firstSeen
    spendCommitmentId := ""
    escapeCommitmentId := ""
    expiry := generation.expiry
    deadline := generation.deadline
    committed := false }

def recordIntent (duress : Bool) (carrier : String) (generation : MemoGeneration) (firstSeen : Nat)
    (s : PartialStore) : PartialStore :=
  let intent := (s.intents.lookup carrier).getD (freshIntent generation firstSeen)
  { s with
    intents := s.intents.insert carrier { intent with
      duress := intent.duress || duress
      ownerRuling := true } }

/-- The memo half of `record_arm_intent`: upgrade the handler's own claim, leave a newer generation's,
reinstall a missing one. -/
def upgradeMemo (carrier nonce : String) (generation : MemoGeneration) (s : PartialStore) :
    PartialStore × MemoUpgrade :=
  let derived : CarrierMemo :=
    ⟨.derived carrier generation.signatureTag ∅, generation.expiry, generation.deadline⟩
  let install := { s with carriersByNonce := s.carriersByNonce.insert nonce derived }
  match s.carriersByNonce.lookup nonce with
  | some memo => if memo.matchesGeneration generation then (install, .upgraded) else (s, .superseded)
  | none => (install, .reinstalled)

def recordArmIntent (s : PartialStore) (duress : Bool) (carrier nonce : String)
    (generation : MemoGeneration) (firstSeen now : Nat) (timing : DuressTiming) :
    PartialStore × MemoUpgrade :=
  ((s.writeSafetyOverlay false firstSeen now timing).recordIntent duress carrier generation
    firstSeen).upgradeMemo carrier nonce generation

/-- Register the candidates one after the other, collecting the outcomes. -/
def registerAll : PartialStore → List Candidate → PartialStore × List RegisterOutcome
  | s, [] => (s, [])
  | s, c :: rest =>
    let first := s.register c
    let others := registerAll first.1 rest
    (others.1, first.2 :: others.2)

/-- The Hold-expiries of the hot candidates among `candidates`. -/
def hotHolds (candidates : List Candidate) : List Nat :=
  (candidates.filter Candidate.hot).filterMap (fun c => c.fire.map FireWindow.fireAt)

/-- Some incoming candidate disagrees with the resident one of its id. -/
def anyConflict (s : PartialStore) (candidates : List Candidate) : Bool :=
  candidates.any (fun c => (s.candidates.lookup c.commitmentId).any (fun resident =>
    !resident.matchesRegistration c))

/-- The incoming candidates do not all fit. -/
def overCapacity (s : PartialStore) (candidates : List Candidate) : Bool :=
  let newCandidates := candidates.filter (fun c => (s.candidates.lookup c.commitmentId).isNone)
  let addedBytes := (newCandidates.map Candidate.capacityBytes).foldl satAdd 0
  decide (s.maxActiveCandidates < satAdd (size s.candidates) newCandidates.length) ||
    decide (s.maxBytes < satAdd s.reservedBytes addedBytes)

/-- Undo a reservation that this registration itself created. -/
def unwindReserve (created : Bool) (hotReserve : Option HotReserveSpec) (s : PartialStore) : PartialStore :=
  match hotReserve with
  | some spec => if created then { s with hotBudget := s.hotBudget.release spec.commitmentId } else s
  | none => s

/-- The registration-time revalidation of the Hot reservation. -/
def revalidate (s : PartialStore) (hotReserve : Option HotReserveSpec) (monoNow : Nat) :
    PartialStore × Except HotReserveRefusal Bool :=
  match hotReserve with
  | some spec =>
    let answer := s.hotBudget.reserve spec.commitmentId spec.outflowSat monoNow spec.wallNow spec.expiry
    ({ s with hotBudget := answer.1 }, answer.2)
  | none => (s, .ok false)

/-- Admit the whole request or none of it. -/
def enroll (arm : ArmDirective) (candidates : List Candidate) (s : PartialStore) :
    PartialStore × List RegisterOutcome :=
  let registered := s.registerAll candidates
  ((registered.1.applyArmDirective arm (hotHolds candidates)).attachPair arm.carrier
    arm.spendCommitmentId arm.sweepEscape, registered.2)

end PartialStore

open PartialStore

def registerCandidates (ch : ChannelState) (s : PartialStore) (candidates : List Candidate)
    (arm : ArmDirective) (hotReserve : Option HotReserveSpec) (monoNow : Nat) :
    PartialStore × Except HotReserveRefusal (List RegisterOutcome) :=
  let candidates := candidates.map (fun c => c.reservePartialCapacity ch.nodes ch.nodeId)
  match s.revalidate hotReserve monoNow with
  | (s, .error refusal) => (s, .error refusal)
  | (s, .ok created) =>
    if s.anyConflict candidates then
      (s.unwindReserve created hotReserve, .ok (candidates.map (fun _ => .conflict)))
    else if s.overCapacity candidates then
      (s.unwindReserve created hotReserve,
        .ok (candidates.map (fun c =>
          if (s.candidates.lookup c.commitmentId).isSome then .alreadyPresent else .atCapacity)))
    else
      let enrolled := s.enroll arm candidates
      (enrolled.1, .ok enrolled.2)

end BtcPolicy.Channel
