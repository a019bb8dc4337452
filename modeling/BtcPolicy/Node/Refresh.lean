import BtcPolicy.Node.Sign

/-! The refresh handler: two holds of the signing lock around the chain preflight, and the bounds a pin-less,
immediate request has instead of a pin and a Hold. -/

namespace BtcPolicy.Node
open FiniteMap Word Bitcoin HotLedger Replay Channel Pin Policy

inductive RefreshOutcome where
  | answered (result : SignResult)
  | window

/-- What the second hold has decided on its own transaction before it looks at the spends. -/
structure RefreshCandidate where
  refresh : Psbt
  commitmentId : String
  acceptedReplayKey : String

def subordinated : SignResponse :=
  refusal .refreshSubordinated "refresh_subordination"
    ("a spend is pending on this node; refreshes are subordinate to pending spends (retry once it settles)")

namespace NodeConfig

variable (node : NodeConfig)

def refreshIngressHold (request : RefreshRequest) (wall mono : Nat) (s : NodeState) : NodeState × RefreshOutcome :=
  if s.lockdown then (s, .answered (.ok fraudSuspected))
  else
    let monoNow := node.channel.map (fun _ => mono)
    match node.verifyCoordAuth request.coordRequest request.coordSig wall s.sign.coordNonces monoNow with
    | (nonces, .error refused) => ({ s with sign := { s.sign with coordNonces := nonces } }, .answered (.ok refused))
    | (nonces, .ok _) =>
      let s := { s with sign := { s.sign with coordNonces := nonces } }
      match node.ensureRequestPropagatable (.refresh request) with
      | .error bad => (s, .answered (.error bad))
      | .ok _ => (s, .window)

def prefetchRefreshPrevouts (request : RefreshRequest) (reply : Option ChainReply) : Option PrevoutFetch :=
  match reply with
  | none => none
  | some reply => (node.decodePsbt request.refreshPsbt "refresh").toOption.map (fun psbt => fetchPrevouts psbt reply)

/-- The first of the coins that was refreshed too recently. -/
def checkRefreshInterval (log : RefreshLog) (refresh : Psbt) (now : Nat) : Option Refusal :=
  refresh.unsignedTx.input.findSome? (fun input =>
    match log.lookup input.previousOutput with
    | none => none
    | some last =>
      let elapsed := now - last
      let interval := node.refreshMinIntervalSecs
      if elapsed < interval then
        let txid := txidToString input.previousOutput.txid
        let vout := input.previousOutput.vout
        some ⟨.refreshTooSoon, "refresh_min_interval",
          s!"coin {txid}:{vout} was refreshed {elapsed}s ago, inside the {interval}s minimum refresh interval"⟩
      else none)

/-- The fee against the cap over the unsigned size, without rounding. -/
def checkRefreshFeerate (refresh : Psbt) : Option Refusal :=
  let totalIn := (refresh.inputs.filterMap PsbtInput.witnessUtxo).foldl (fun acc utxo => satAdd acc utxo.value) 0
  let totalOut := refresh.unsignedTx.output.foldl (fun acc txout => satAdd acc txout.value) 0
  let fee := totalIn - totalOut
  let vsize := node.rules.vsize refresh.unsignedTx
  let rate := node.refreshMaxFeerate
  let cap := rate * vsize
  if vsize = 0 then none
  else if cap < fee then
    some ⟨.refreshFeeExceedsCap, "refresh_fee_cap",
      s!"refresh pays {fee} sat over {vsize} vB, above the {rate} sat/vB refresh cap ({cap} sat)"⟩
  else none

/-- The interval clocks, the authorized set, the outbox, the verdict cache. -/
def recordRefresh (request : RefreshRequest) (candidate : RefreshCandidate) (refresh : Psbt) (now : Nat)
    (response : SignResponse) (s : NodeState) : NodeState :=
  { s with
    authorized := insert (node.lib.computeTxid refresh.unsignedTx) s.authorized
    outbox := s.outbox ++ [.refresh request]
    sign := { s.sign with
      refreshes := RefreshLog.record node.lib s.sign.refreshes refresh now
      replay := recordVerdict s.sign.replay candidate.acceptedReplayKey request.expiry response } }

/-- Sign, register as a candidate of its own, and write what an acceptance writes. -/
def admitRefresh (request : RefreshRequest) (candidate : RefreshCandidate) (now registerMono : Nat) (s : NodeState) :
    NodeState × SignResult :=
  match node.rules.addNodeSignatures candidate.refresh with
  | .error detail => (s, .ok (refusal .psbtInconsistent "signing" detail))
  | .ok refresh =>
    let registered := node.registerPair
      { spend := refresh
        spendCommitmentId := candidate.commitmentId
        spendHot := false
        duress := false
        confirmationRequired := false
        escape := refresh
        escapeBumps := []
        escapeCommitmentId := candidate.commitmentId
        fire := ⟨now, min request.expiry (satAdd now node.combineSlackSecs)⟩
        expiry := request.expiry
        now := now
        hotReserve := none
        carrier := node.armCarrierId request.coordRequest } registerMono s
    match registered with
    | (s, .error refused) => (s, .ok (.refusal refused))
    | (s, .ok _) =>
      let response : SignResponse := .accepted ⟨candidate.commitmentId, now, 0⟩
      (node.recordRefresh request candidate refresh now response s, .ok response)

/-- Subordination first, then the two burn bounds. -/
def boundRefresh (request : RefreshRequest) (candidate : RefreshCandidate) (now registerMono : Nat) (s : NodeState) :
    NodeState × SignResult :=
  if PendingLog.hasAny s.sign.pending now || decide (0 < s.spendPreflight) then (s, .ok subordinated)
  else
    match node.checkRefreshInterval s.sign.refreshes candidate.refresh now with
    | some refused => (s, .ok (.refusal refused))
    | none =>
      match node.checkRefreshFeerate candidate.refresh with
      | some refused => (s, .ok (.refusal refused))
      | none => node.admitRefresh request candidate now registerMono s

def recordRefreshRefusal (request : RefreshRequest) (candidate : RefreshCandidate) (refused : Refusal)
    (s : NodeState) : NodeState × SignResult :=
  ({ s with
      sign := { s.sign with
        replay := recordVerdict s.sign.replay candidate.commitmentId request.expiry (.refusal refused) } },
    .ok (.refusal refused))

/-- A refresh must be one. -/
def judgeRefresh (request : RefreshRequest) (candidate : RefreshCandidate) (now : Nat)
    (prevouts : Option PrevoutFetch) (registerMono : Nat) (s : NodeState) : NodeState × SignResult :=
  match node.rules.verifySpend candidate.refresh prevouts with
  | .error refused => recordRefreshRefusal request candidate refused s
  | .ok _ =>
    match node.rules.classify candidate.refresh with
    | .error violation => recordRefreshRefusal request candidate (policyRefusal violation) s
    | .ok classified =>
      if classified.txClass = .refresh then node.boundRefresh request candidate now registerMono s
      else
        let other := classified.txClass.name
        recordRefreshRefusal request candidate ⟨.psbtInconsistent, "transaction_class",
          s!"a RefreshRequest must be a pure self-spend, but this is {other}-class: every output must pay the " ++
            "vault descriptor"⟩ s

/-- The verdict cache, the pruning sweep, the judgement. -/
def answerRefresh (request : RefreshRequest) (candidate : RefreshCandidate) (now : Nat)
    (prevouts : Option PrevoutFetch) (clock : RegistrationClock) (s : NodeState) : NodeState × SignResult :=
  let replay := ReplayLog.prune s.sign.replay now
  let s := { s with sign := { s.sign with replay := replay } }
  match ReplayLog.get replay candidate.acceptedReplayKey now with
  | some recorded => (s, .ok recorded)
  | none =>
    match ReplayLog.get replay candidate.commitmentId now with
    | some recorded => (s, .ok recorded)
    | none =>
      node.judgeRefresh request candidate now prevouts clock.register (node.pruneLogs now clock.prune s)

def refreshRegistrationHold (request : RefreshRequest) (prevouts : Option PrevoutFetch) (clock : RegistrationClock)
    (s : NodeState) : NodeState × SignResult :=
  if s.lockdown then (s, .ok fraudSuspected)
  else
    let now := s.sign.coordNonces.effectiveNow clock.wall
    let maxAge := node.maxCommitmentAgeSecs
    let expiry := request.expiry
    if expiry ≤ now ∨ satAdd clock.wall maxAge < expiry then
      (s, .ok (refusal .commitmentExpired "commitment_expiry"
        (s!"expiry {expiry} is outside the acceptance window after chain preflight (now {now}, max age {maxAge}s)")))
    else
      match node.decodePsbt request.refreshPsbt "refresh" with
      | .error bad => (s, .error bad)
      | .ok refresh =>
        let id := node.rules.commitmentId refresh expiry
        node.answerRefresh request ⟨refresh, id, node.acceptanceReplayKey [(id, refresh)]⟩ now prevouts clock s

end NodeConfig

end BtcPolicy.Node
