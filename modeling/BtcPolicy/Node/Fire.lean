import BtcPolicy.Lib.Tasks
import BtcPolicy.Node.Advance
import BtcPolicy.Node.Package
import BtcPolicy.Node.Protected
import BtcPolicy.Node.Sweep

/-! The fire driver. One pass prunes, enters the terminal state where it is due, and then for every candidate that is
due releases this node's shares and puts the transaction on the network once its signatures are there. Its calls to
the chain take long: between any two of them requests are handled, shares arrive and candidates are armed. -/

namespace BtcPolicy.Fire
open FiniteMap Bitcoin Channel Node Policy Programs PartialStore Runs Tasks Word

inductive PackageVerdict where
  | accepted
  | rejected (reason : String)
  deriving DecidableEq, Repr

/-- What the chain backend answers at one moment. -/
structure ChainBackend extends CoverageReadings, ChainView, FeeReadings where
  mempoolResident : List Txid → Except String (Option (Txid × Bytes))
  testPackageAccept : List Bytes → Except String PackageVerdict
  broadcast : Bytes → Except String Txid

/-- What a pass is shown at one moment: its two clocks, and the chain. -/
structure Outside where
  now : Nat
  mono : Nat
  backend : ChainBackend

/-- The steps of the node that only the fire driver takes. -/
def driverOnly : NodeOp → Bool
  | .settleRead _ _ | .settleMark _ _ | .settleRelease _ => true
  | .background (.releasePartials _ _) | .background (.latchEscapeRung _ _ _) => true
  | .background (.invalidateHotConflictsInStore _) | .background (.markBroadcast _) => true
  | .background (.withBroadcastAuthorization _ _) => true
  | _ => false

def Foreign (op : NodeOp) : Prop := driverOnly op = false

/-- The handlers, the other drivers and the chain around the fire driver. -/
abbrev Surroundings := Tasks.Surroundings NodeOp Outside Foreign

/-- A finalized candidate with its witnesses. -/
structure Finalized where
  tx : RawTransaction
  rung : Nat
  deadline : Nat

/-- What leaves the node in a pass, with the clock read at its gate and the point it leaves at. -/
inductive Emission where
  | shares (commitmentId : String) (release : Release) (now : Nat) (gate : Point NodeOp)
  | transaction (commitmentId : String) (finalized : Finalized) (now : Nat) (gate : Point NodeOp)

inductive BroadcastOutcome where
  | sent (txid : Txid)
  | alreadySettled (txid : Txid)
  deriving DecidableEq, Repr

/-- Where the armed escape stands, across its ladder. -/
inductive ArmedEscapeState where
  | confirmed (txid : Txid)
  | inMempoolAtOrAboveLatch
  | absent
  deriving DecidableEq, Repr

structure EscapeSweepTickContext where
  residentRung : Option RawTransaction
  env : SweepEnv

/-- The node as its fire driver reads it. The extractor fills in the witnesses the store leaves out. -/
structure Driver where
  node : NodeConfig
  channel : ChannelState
  mounted : node.channel = some channel
  policy : SweepPolicy
  maxVaultSatisfactionWeight : Nat
  vaultScripts : List Script
  consensus : Consensus
  extract : Psbt → Option RawTransaction
  extracts : ∀ psbt, channel.lib.finalize psbt = (extract psbt).map RawTransaction.unsigned

/-- `PendingLog::ids`. -/
def pendingIds (log : PendingLog) (now : Nat) : List String :=
  (log.entries.filter (fun entry => decide (now ≤ entry.2))).map Sigma.fst

/-- `ChannelState::is_armed_escape`: the scheduled escape, where it is resident as one. -/
def isArmedEscape (s : PartialStore) (commitmentId : String) : Bool :=
  s.isArmedEscape commitmentId && (s.candidates.lookup commitmentId).any (fun c => decide (c.role = .escape))

def candidateTxid (s : PartialStore) (commitmentId : String) : Option Txid :=
  (s.candidates.lookup commitmentId).map (fun c => c.base.unsignedTxid)

def candidateRungTxids (s : PartialStore) (commitmentId : String) : Option (List Txid) :=
  (s.candidates.lookup commitmentId).map (fun c => c.variants.map SigningVariant.unsignedTxid)

def candidateRungTxs (s : PartialStore) (commitmentId : String) : Option (List Transaction) :=
  (s.candidates.lookup commitmentId).map Node.candidateRungTxs

def escapeRung (s : PartialStore) (commitmentId : String) : Option Nat :=
  (s.candidates.lookup commitmentId).map Candidate.authorizedRung

/-- What the driver's programs act on. -/
abbrev Pass (d : Driver) (start : NodeState) := Shared d.node.nodeStep ⟨{ start with spendPreflight := 0 }, ∅, ∅⟩ Emission

abbrev Firing (d : Driver) (start : NodeState) (β : Type) :=
  Task d.node.nodeStep ⟨{ start with spendPreflight := 0 }, ∅, ∅⟩ Emission String β

namespace Driver

/-- `try_finalize`, with the witnesses. -/
def tryFinalize (d : Driver) (s : PartialStore) (commitmentId : String) (now : Nat) : Option Finalized :=
  (s.tryFinalize d.channel commitmentId d.node.threshold now).bind (fun finalized =>
    ((s.candidates.lookup commitmentId).bind (fun c => c.variant finalized.rung)).bind (fun variant =>
      (d.extract variant.psbt).map (fun tx => ⟨tx, finalized.rung, finalized.deadline⟩)))

variable (d : Driver) (env : Surroundings) {start : NodeState}

/-! ### The chain -/

def transactionIsSettled (txid : Txid) : Firing d start Bool := do
  let resident ← ask env (fun outside => outside.backend.mempoolTransaction txid)
  match resident with
  | some _ => pure true
  | none => ask env (fun outside => outside.backend.transactionConfirmed txid)

/-- The first rung that is confirmed. -/
def confirmedRung : List Txid → Firing d start (Option Txid)
  | [] => pure none
  | txid :: rest => do
    let confirmed ← ask env (fun outside => outside.backend.transactionConfirmed txid)
    if confirmed then pure (some txid) else confirmedRung rest

def armedEscapeNetworkState (rungTxids : List Txid) (latched : Nat) (residentRung : Option RawTransaction) :
    Firing d start ArmedEscapeState := do
  let confirmed ← confirmedRung d env rungTxids
  match confirmed with
  | some txid => pure (.confirmed txid)
  | none =>
    match residentRung with
    | none => pure .absent
    | some resident =>
      let residentTxid := d.consensus.computeTxid resident
      if (rungTxids.findIdx? (fun txid => decide (txid = residentTxid))).any (fun rung => decide (latched ≤ rung))
      then pure .inMempoolAtOrAboveLatch
      else pure .absent

def mempoolEscapeRung (commitmentId : String) : Firing d start (Option RawTransaction) := do
  let rungs ← read env (fun w => candidateRungTxs w.node.store commitmentId)
  match rungs with
  | none => pure none
  | some rungs =>
    let txids := rungs.map d.channel.lib.computeTxid
    let answer ← ask env (fun outside => outside.backend.mempoolResident txids)
    match answer with
    | none => pure none
    | some (expected, raw) =>
      let named := txidToString expected
      if expected ∉ txids then
        Prog.fail s!"mempool lookup returned {named}, which is not a rung of this escape's ladder"
      else
        match d.consensus.deserialize raw with
        | .error e => Prog.fail s!"mempool escape rung {named} is malformed: {e}"
        | .ok resident =>
          if d.consensus.computeTxid resident ≠ expected then
            let returned := txidToString (d.consensus.computeTxid resident)
            Prog.fail s!"mempool lookup for escape rung {named} returned transaction {returned}"
          else pure (some resident)

/-- What a walk through the ancestors of a candidate reads. -/
def ancestry (authorized : Finset Txid) (outside : Outside) : Ancestry :=
  ⟨outside.backend.toChainView, d.consensus, authorized⟩

def assembleEscapePackage (tx : RawTransaction) (residentRung : Option RawTransaction) (authorized : Finset Txid)
    (outside : Outside) : Except String (List Bytes) :=
  match residentRung with
  | some resident => (d.ancestry authorized outside).assembleReplacementPackage tx resident
  | none => (d.ancestry authorized outside).assemblePackage tx

/-! ### Before a share of the armed escape leaves -/

/-- The store is read three times and the chain three times. -/
def sweepEnv (commitmentId : String) (laddered : Bool) (residentRung : Option RawTransaction) :
    Firing d start SweepEnv := do
  let atStart ← read env (fun w => w.node.store)
  let first ← look env
  let authorized ← read env (fun w => w.node.authorized)
  let second ← look env
  let atPairing ← read env (fun w => w.node.store)
  let atSpend ← read env (fun w => w.node.store)
  let third ← look env
  Prog.lift (Node.sweepEnv d.channel.lib d.policy.checkParams d.vaultScripts authorized
    ⟨first.backend.prevouts, second.backend.vaultUnspent, third.backend.transactionConfirmed⟩ commitmentId laddered
    (residentRung.map RawTransaction.unsigned) atStart atPairing atSpend)

def sizing : Sizing := vaultSizing d.maxVaultSatisfactionWeight

/-- Everything that can be checked without the missing signatures: the context, the rung to latch and the lowest rung
that may be released. -/
def escapeSweepChecks (commitmentId : String) : Firing d start (EscapeSweepTickContext × Nat × Nat) := do
  let known ← read env (fun w => candidateRungTxs w.node.store commitmentId)
  let rungs ← Prog.lift (okOr (known.filter (fun rungs => !rungs.isEmpty))
    "armed escape candidate context is unavailable")
  let looked ← attempt (d.mempoolEscapeRung env commitmentId)
  let residentRung ← Prog.lift (looked.mapError (fun e => s!"cannot inspect the escape ladder in the mempool: {e}"))
  let sweep ← d.sweepEnv env commitmentId (decide (1 < rungs.length)) residentRung
  let ladder ← Prog.lift (scoreLadder d.policy d.sizing sweep rungs)
  let tip ← look env
  let fees ← look env
  let latch ← read env (fun w => (escapeRung w.node.store commitmentId).getD 0)
  let selected ← Prog.lift (selectEscapeRung d.policy.escapeFeerateFloor
    ⟨tip.backend.tipHeight, fees.backend.blockMedianFeerate⟩ latch ladder)
  let tx ← Prog.lift (okOr rungs[selected.1]? "rung index out of range")
  let authorized ← read env (fun w => w.node.authorized)
  let walked ← look env
  let _ ← Prog.lift ((d.assembleEscapePackage (bare tx) residentRung authorized walked).mapError
    (fun e => s!"escape package ancestry is inadmissible before release: {e}"))
  pure (⟨residentRung, sweep⟩, selected.1, lowestAdmissible ladder selected.1)

/-- The latch comes after every check that may fail. -/
def escapeSweepPreReleaseAdmissible (commitmentId : String) : Firing d start EscapeSweepTickContext := do
  let checked ← d.escapeSweepChecks env commitmentId
  let latched ← act env (fun _ => .background (.latchEscapeRung commitmentId checked.2.1 checked.2.2))
    (fun _ w => (w.node.store.latchEscapeRung commitmentId checked.2.1 checked.2.2).2)
  let _ ← Prog.lift (okOr latched "armed escape disappeared while latching its fee rung")
  pure checked.1

/-- The contexts of the armed escapes among the candidates that are due. -/
def sweepContexts : List String → Firing d start (Map String EscapeSweepTickContext)
  | [] => pure ∅
  | commitmentId :: rest => do
    let armed ← read env (fun w => isArmedEscape w.node.store commitmentId)
    if armed then
      let checked ← attempt (d.escapeSweepPreReleaseAdmissible env commitmentId)
      let contexts ← sweepContexts rest
      match checked with
      | .ok context => pure (contexts.insert commitmentId context)
      | .error _ => pure contexts
    else sweepContexts rest

/-! ### Release -/

/-- An armed escape without a context of this pass keeps its shares; anything else is for the gate to decide. -/
def releaseDue (contexts : Map String EscapeSweepTickContext) (now : Nat) : List String → Firing d start Unit
  | [] => pure ()
  | commitmentId :: rest => do
    let armed ← read env (fun w => isArmedEscape w.node.store commitmentId)
    if armed && (contexts.lookup commitmentId).isNone then releaseDue contexts now rest
    else
      let release ← act env (fun _ => .background (.releasePartials commitmentId now))
        (fun _ w => (w.node.store.releasePartials d.channel commitmentId now).2)
      match release with
      | none => releaseDue contexts now rest
      | some release => do
        emit (Emission.shares commitmentId release now)
        releaseDue contexts now rest

/-- The signing lock is held from before the clock is read to the last share. -/
def releaseHalf (contexts : Map String EscapeSweepTickContext) (ids : List String) : Firing d start Unit := do
  read env (fun _ => ())
  let held ← look (env.within lockFree)
  d.releaseDue (env.within lockFree) contexts held.now ids

/-! ### Combine and broadcast -/

/-- The three sections of a settlement. `armedEscape` is the confirmed branch. -/
def settleCandidate (commitmentId : String) (armedEscape : Bool) : Firing d start Unit := do
  act env (fun _ => .settleRead 0 commitmentId) (fun _ _ => ())
  act env (fun _ => .settleMark 0 armedEscape) (fun _ _ => ())
  act env (fun _ => .settleRelease 0) (fun _ _ => ())

/-- The armed escape is sent again until it is confirmed. -/
def settleUnlessArmed (commitmentId : String) (armed : Bool) : Firing d start Unit :=
  if armed then pure () else d.settleCandidate env commitmentId false

/-- The last gate is taken under the store lock, and the call is made behind it. -/
def send (commitmentId : String) (finalized : Finalized) : Firing d start (Except String Txid) := do
  let checked ← act env (fun outside => .background (.withBroadcastAuthorization commitmentId outside.now))
    (fun outside w => (w.node.store.withBroadcastAuthorization commitmentId outside.now).map (fun _ => outside.now))
  match checked with
  | .error reason =>
    let closed := s!"broadcast authorization closed for candidate {commitmentId}"
    Prog.fail s!"{closed} (deadline {finalized.deadline}): {reason}"
  | .ok now => do
    emit (Emission.transaction commitmentId finalized now)
    attempt (ask env (fun outside => outside.backend.broadcast (d.consensus.serialize finalized.tx)))

def broadcastPackage (commitmentId : String) (finalized : Finalized) (residentRung : Option RawTransaction) :
    Firing d start BroadcastOutcome := do
  let txid := d.consensus.computeTxid finalized.tx
  let settled ← d.transactionIsSettled env txid
  if settled then pure (.alreadySettled txid)
  else
    let authorized ← read env (fun w => w.node.authorized)
    let armed ← read env (fun w => isArmedEscape w.node.store commitmentId)
    let package ← ask env (fun outside =>
      if armed then d.assembleEscapePackage finalized.tx residentRung authorized outside
      else (d.ancestry authorized outside).assemblePackage finalized.tx)
    let verdict ← ask env (fun outside => outside.backend.testPackageAccept package)
    match verdict with
    | .rejected reason => Prog.fail s!"package mempool-acceptance failed: {reason}"
    | .accepted => do
      let reply ← d.send env commitmentId finalized
      match reply with
      | .ok sent => pure (.sent sent)
      | .error e => do
        let again ← attempt (d.transactionIsSettled env txid)
        match again with
        | .ok true => pure (.alreadySettled txid)
        | _ => Prog.fail e

/-- Whether the candidate is still to be sent; one that is on the network is settled here. -/
def stillToSend (commitmentId : String) (txid : Txid) (armed : Bool) (context : Option EscapeSweepTickContext) :
    Firing d start Bool :=
  if armed then do
    let rungTxids ← read env (fun w => (candidateRungTxids w.node.store commitmentId).getD [txid])
    let latched ← read env (fun w => (escapeRung w.node.store commitmentId).getD 0)
    let standing ← attempt (d.armedEscapeNetworkState env rungTxids latched
      (context.bind EscapeSweepTickContext.residentRung))
    match standing with
    | .ok (.confirmed _) => do
      d.settleCandidate env commitmentId true
      pure false
    | .ok .inMempoolAtOrAboveLatch => pure false
    | .ok .absent => pure true
    | .error _ => pure false
  else do
    let settled ← attempt (d.transactionIsSettled env txid)
    match settled with
    | .ok true => do
      d.settleCandidate env commitmentId false
      pure false
    | .ok false => pure true
    | .error _ => pure false

/-- The context of the release half, or one of its own for an armed escape that has none. -/
def combineContext (commitmentId : String) (armed : Bool) (context : Option EscapeSweepTickContext) :
    Firing d start (Option EscapeSweepTickContext) :=
  match context with
  | some context => pure (some context)
  | none =>
    if armed then do
      let context ← d.escapeSweepPreReleaseAdmissible env commitmentId
      pure (some context)
    else pure none

/-- The full predicate, for the armed escape alone. -/
def finalGate (armed : Bool) (context : Option EscapeSweepTickContext) (tx : RawTransaction) : Except String Unit :=
  if armed then
    match context with
    | none => .error "no preflight context"
    | some context => sweepRungAdmissible d.policy context.env tx.unsigned (vsize tx)
  else .ok ()

/-- One candidate that is due: how many transactions this node sent for it. -/
def combineOne (contexts : Map String EscapeSweepTickContext) (commitmentId : String) : Firing d start Nat := do
  let known ← read env (fun w => candidateTxid w.node.store commitmentId)
  match known with
  | none => pure 0
  | some txid => do
    let armed ← read env (fun w => isArmedEscape w.node.store commitmentId)
    let unsent ← d.stillToSend env commitmentId txid armed (contexts.lookup commitmentId)
    if unsent then
      let context ← d.combineContext env commitmentId armed (contexts.lookup commitmentId)
      let outside ← look env
      let finalized ← act env (fun _ => .background (.tryFinalize commitmentId d.node.threshold outside.now))
        (fun _ w => d.tryFinalize w.node.store commitmentId outside.now)
      match finalized with
      | none => pure 0
      | some finalized => do
        Prog.lift (d.finalGate armed context finalized.tx)
        let outcome ← d.broadcastPackage env commitmentId finalized
          (context.bind EscapeSweepTickContext.residentRung)
        d.settleUnlessArmed env commitmentId armed
        match outcome with
        | .sent _ => pure 1
        | .alreadySettled _ => pure 0
    else pure 0

/-- A candidate that fails is logged, and the next one has its turn. -/
def combineAndBroadcast (contexts : Map String EscapeSweepTickContext) : List String → Firing d start Nat
  | [] => pure 0
  | commitmentId :: rest => do
    let outcome ← attempt (d.combineOne env contexts commitmentId)
    let later ← combineAndBroadcast contexts rest
    match outcome with
    | .ok sent => pure (sent + later)
    | .error _ => pure later

/-! ### The pass -/

def lockdownTick (now : Nat) : Firing d start Unit := do
  let due ← act env (fun _ => .background (.lockdownDue now)) (fun _ w => w.node.store.lockdownDue now)
  let locked ← read env (fun w => w.node.lockdown)
  if due && !locked then act env (fun _ => .enterLockdown) (fun _ _ => ()) else pure ()

/-- The pending spends whose settlement may still be observed. -/
def settlementPollable (now : Nat) : List String → Firing d start (List String)
  | [] => pure []
  | commitmentId :: rest => do
    let polled ← act env (fun _ => .background (.fireSettlementPollable commitmentId now))
      (fun _ w => w.node.store.fireSettlementPollable commitmentId now)
    let later ← settlementPollable now rest
    pure (if polled then commitmentId :: later else later)

/-- `sort` and `dedup`. -/
def sortDedup (ids : List String) : List String := (ids.insertionSort (· ≤ ·)).destutter (· ≠ ·)

def fireTick : Firing d start Nat := do
  let started ← look env
  act env (fun outside => .background (.pruneStore started.now outside.mono)) (fun _ _ => ())
  d.lockdownTick env started.now
  let due ← act env (fun _ => .background (.dueForFire started.now)) (fun _ w => w.node.store.dueForFire started.now)
  let pending ← read env (fun w => pendingIds w.node.sign.pending started.now)
  let polled ← d.settlementPollable env started.now pending
  let ids := sortDedup (due ++ polled)
  if ids.isEmpty then pure 0
  else
    let contexts ← d.sweepContexts env ids
    d.releaseHalf env contexts ids
    d.combineAndBroadcast env contexts ids

/-- The driver's loop: the node after so many passes, and what left it. -/
def passes (start : NodeState) : Nat → Pass d start
  | 0 => Shared.initial _ _ _
  | n + 1 => (d.fireTick env (passes start n)).2

end Driver

end BtcPolicy.Fire
