import BtcPolicy.Signer.Authorize
import BtcPolicy.Node.Snapshot
import BtcPolicy.Node.Weight

/-! The confirmed coins of the vault, read through a Core whose answers may change from call to call. A bracket of
reads is accepted when no tip moved in it and every coin is proved by its full parent. -/

namespace BtcPolicy.Inventory
open FiniteMap Word Bitcoin Results Programs Manifest Node Signer
open Watchtower (BlockHash)

/-! ### The Core view -/

/-- The string members that the identity check reads of `getblockchaininfo`. -/
structure ChainIdentity where
  chain : Option String
  signetChallenge : Option String

structure ChainInfo where
  identity : ChainIdentity
  initialBlockDownload : Bool
  bestBlock : BlockHash

structure ScanCoin where
  outpoint : OutPoint
  value : Nat
  script : Script
  height : Nat

structure Scan where
  bestBlock : BlockHash
  coins : List ScanCoin

structure TxOutView where
  bestBlock : BlockHash
  confirmations : Nat
  value : Nat
  script : Script
  coinbase : Bool

structure Floors where
  incrementalRelay : Nat
  mempoolMin : Nat

/-- The eight reads. Each may fail, and answers from a state that it may change: nothing ties one answer to another. -/
structure CoreView (σ : Type) where
  chainInfo : Prog σ String ChainInfo
  bestBlockHash : Prog σ String BlockHash
  scanVaultScript : Script → Prog σ String Scan
  txout : OutPoint → Prog σ String (Option TxOutView)
  blockHash : Nat → Prog σ String (Option BlockHash)
  blockTransaction : Txid → BlockHash → Prog σ String (Option RawTransaction)
  feeEstimate : Prog σ String (Option Nat)
  feeFloors : Prog σ String Floors

/-! ### The identity of the chain -/

def vaultNetworkName : Network → String
  | .bitcoin => "bitcoin"
  | .signet => "signet"
  | .regtest => "regtest"
  | _ => "unsupported"

/-- `Network::from_core_arg`. -/
def fromCoreArg (chain : String) : Option Network :=
  if chain = "main" then some .bitcoin
  else if chain = "test" then some .testnet
  else if chain = "testnet4" then some .testnet4
  else if chain = "signet" then some .signet
  else if chain = "regtest" then some .regtest
  else none

/-- `char::is_whitespace`. -/
def isWhitespace (c : Char) : Bool :=
  let n := c.toNat
  decide (9 ≤ n ∧ n ≤ 13 ∨ n = 32 ∨ n = 0x85 ∨ n = 0xa0 ∨ n = 0x1680 ∨ 0x2000 ≤ n ∧ n ≤ 0x200a ∨ n = 0x2028 ∨
    n = 0x2029 ∨ n = 0x202f ∨ n = 0x205f ∨ n = 0x3000)

/-- `str::trim`. -/
def trim (text : String) : List Char :=
  ((text.toList.dropWhile isWhitespace).reverse.dropWhile isWhitespace).reverse

def publicSignetChallenge : String :=
  "512103ad5e0edad18cb1f0fc0d28a3d4f1f3e445640337489abb10404f2d1e086be430210359ef5021964fe22d6f8e05b2463c9540ce96883" ++
    "fe3b278760f048f5189f2e6c452ae"

/-- The verdict alone: the refusals carry the peer's own text, which this caller withholds. -/
def verifyChainIdentity (identity : ChainIdentity) (sealed : Network) : Bool :=
  match identity.chain.bind fromCoreArg with
  | none => false
  | some observed =>
    if observed ≠ sealed then false
    else
      let challenge := (identity.signetChallenge.map trim).filter (fun text => !text.isEmpty)
      match sealed, challenge with
      | .signet, some text => decide (text.map Char.toLower = publicSignetChallenge.toList)
      | .signet, none => false
      | _, some _ => false
      | _, none => true

/-! ### The two shapes -/

structure Utxo where
  outpoint : OutPoint
  txout : TxOut

/-- The scripts paid: the destination, the vault change and the base escape. -/
structure Scripts where
  destination : Script
  change : Script
  escape : Script

structure ShapeInputs where
  utxos : List Utxo
  witnessScript : Script
  scripts : Scripts

/-- What a shape pays to each of its scripts. -/
structure Amounts where
  paid : Nat
  kept : Nat
  swept : Nat

/-- `Psbt::from_unsigned_tx`: empty maps, and no input that carries a script or a witness. -/
def fromUnsignedTx (tx : RawTransaction) : Except String RawPsbt :=
  match tx.input.find? (fun input => !input.scriptSig.isEmpty || !input.witness.isEmpty) with
  | some input =>
    .error (if !input.scriptSig.isEmpty then "the unsigned transaction has script sigs"
      else "the unsigned transaction has script witnesses")
  | none =>
    .ok ⟨tx, tx.input.map (fun _ => ⟨⟨none, ∅, none, none, none, none, none⟩, none⟩), tx.output.map (fun _ => ⟨∅⟩)⟩

def spendInput (utxo : Utxo) : RawInput := ⟨⟨utxo.outpoint, sequenceMax⟩, [], []⟩

def spendMap (witnessScript : Script) (utxo : Utxo) (map : RawMap) : RawMap :=
  { map with map := { map.map with witnessUtxo := some utxo.txout, witnessScript := some witnessScript } }

def buildSpendN (utxos : List Utxo) (witnessScript : Script) (outputs : List (Script × Nat)) :
    Except String RawPsbt := do
  let psbt ← fromUnsignedTx ⟨2, 0, utxos.map spendInput, outputs.map (fun output => ⟨output.2, output.1⟩)⟩
  pure { psbt with inputs := utxos.zipWith (spendMap witnessScript) psbt.inputs }

/-- The pinned unsigned form of both shapes. -/
def checkShape (tx : RawTransaction) : Except String Unit :=
  let unsigned := tx.input.all (fun input =>
    decide (input.txIn.sequence = sequenceMax) && input.scriptSig.isEmpty && input.witness.isEmpty)
  if tx.input.isEmpty || !unsigned || decide (tx.version ≠ 2) || decide (tx.lockTime ≠ 0) then
    .error ("a composed shape is not the pinned version 2, lock 0, final unsigned form over a nonempty input set")
  else .ok ()

def buildPair (shape : ShapeInputs) (amounts : Amounts) : Except String (RawPsbt × RawPsbt) := do
  let primary := [(shape.scripts.destination, amounts.paid), (shape.scripts.change, amounts.kept)]
  let first ← buildSpendN shape.utxos shape.witnessScript primary
  let second ← buildSpendN shape.utxos shape.witnessScript [(shape.scripts.escape, amounts.swept)]
  checkShape first.unsignedTx
  checkShape second.unsignedTx
  pure (first, second)

def maxComposerVsize : Nat := 100000

def finalizedVsize (functions : TxFunctions) (weight : Nat) (tx : RawTransaction) : Except String Nat := do
  let vsize ← maximumFinalizedVsizeFor ⟨functions.weight, weight⟩ tx.unsigned
  if maxComposerVsize < vsize then
    throw s!"a composed shape reaches {vsize} vB finalized, over the {maxComposerVsize} vB bound"
  pure vsize

theorem finalizedVsize_ok {functions : TxFunctions} {weight vsize : Nat} {tx : RawTransaction}
    (sized : finalizedVsize functions weight tx = .ok vsize) :
    maximumFinalizedVsizeFor ⟨functions.weight, weight⟩ tx.unsigned = .ok vsize := by
  unfold finalizedVsize at sized
  obtain ⟨reached, bounded, sized⟩ := ok_of_bind sized
  simp only at sized
  split at sized
  · cases sized
  · cases sized
    exact bounded

/-! ### One bracket -/

def sortedUnique (coins : List ScanCoin) (vaultSpk : Script) : Except String (List ScanCoin) :=
  let coins := coins.insertionSort (fun a b => a.outpoint ≤ b.outpoint)
  if ¬coins.IsChain (fun a b => a.outpoint ≠ b.outpoint) then .error "scantxoutset reported one outpoint twice"
  else if coins.any (fun coin => decide (coin.script ≠ vaultSpk)) then
    .error "scantxoutset returned a record that does not pay the definite vault script"
  else if coins.isEmpty then .error "the sealed vault holds no confirmed coin to spend"
  else .ok coins

def coinbaseMaturity : Nat := 100

def unavailable : String :=
  "a scanned confirmed vault coin is absent from the UTXO set at the same tip: it is spent in the mempool or " ++
    "otherwise unavailable. This composer spends every confirmed vault coin, so the whole command is refused rather " ++
    "than composing an under-covered escape from the remainder. Do not reissue until independent chain " ++
    "reconciliation accounts for that coin."

section Reads

variable {σ : Type} (functions : TxFunctions) (core : CoreView σ)

/-- The opening reads, with the tips seen so far. The inner error is a contradiction that a moved tip would explain. -/
def openingReads : List ScanCoin → List BlockHash → Prog σ String (List BlockHash × Except String (List TxOutView))
  | [], tips => pure (tips, .ok [])
  | coin :: rest, tips => do
    match ← core.txout coin.outpoint with
    | none => pure (tips, .error unavailable)
    | some view =>
      let confirmations := view.confirmations
      if view.coinbase && decide (confirmations < coinbaseMaturity) then
        Prog.fail (s!"a scanned vault coin is an immature coinbase at {confirmations} of {coinbaseMaturity} " ++
          "confirmations")
      else if confirmations = 0 ∨ view.value ≠ coin.value ∨ view.script ≠ coin.script then
        pure (tips ++ [view.bestBlock], .error "a gettxout read contradicts its scan record")
      else do
        let (tips, opening) ← openingReads rest (tips ++ [view.bestBlock])
        pure (tips, opening.map (view :: ·))

/-- The coins by parent, the parents in the order of their ids. -/
def groupsOf (coins : List ScanCoin) : List (Txid × List ScanCoin) :=
  let txids := (coins.map (fun coin => coin.outpoint.txid)).dedup
  (txids.insertionSort (fun a b => a.map UInt8.toNat ≤ b.map UInt8.toNat)).map (fun txid =>
    (txid, coins.filter (fun coin => decide (coin.outpoint.txid = txid))))

def maxComposerFullPrevtxBytes : Nat := 64 * 1024 * 1024

/-- The bytes of a parent count once for each member in each of the two PSBTs. -/
def project (projected members : Nat) (parent : RawTransaction) : Except String Nat :=
  match (checkedMul (totalSize parent) (2 * members)).bind (checkedAdd projected) with
  | none => .error "projected full-prevtx bytes overflow"
  | some bytes =>
    if maxComposerFullPrevtxBytes < bytes then
      .error (s!"the selected coins project {bytes} gross full-prevtx bytes across both PSBT sets, over the " ++
        s!"{maxComposerFullPrevtxBytes} byte bound")
    else .ok bytes

def agrees (parent : RawTransaction) (coin : ScanCoin) : Bool :=
  parent.output[coin.outpoint.vout]?.any (fun out => decide (out.value = coin.value ∧ out.scriptPubkey = coin.script))

/-- A parent hashes to its id and has every member among its outputs. -/
def checkParent (txid : Txid) (members : List ScanCoin) (parent : RawTransaction) : Except String Unit :=
  if functions.computeTxid parent ≠ txid then .error "a fetched full transaction hashes elsewhere"
  else
    match members.find? (fun coin => !agrees parent coin) with
    | some coin =>
      let vout := coin.outpoint.vout
      .error s!"a fetched full transaction contradicts vout {vout}"
    | none => .ok ()

/-- A group is not empty, and its first member gives the height. -/
def fetchParents : List (Txid × List ScanCoin) → Nat → Map Txid RawTransaction →
    Prog σ String (Except String (Map Txid RawTransaction))
  | [], _, parents => pure (.ok parents)
  | (txid, members) :: rest, projected, parents => do
    let height := members.head?.elim 0 ScanCoin.height
    match ← core.blockHash height with
    | none => pure (.error s!"no block at scanned height {height}")
    | some block =>
      match ← core.blockTransaction txid block with
      | none => pure (.error "a scanned parent is absent from the block at its scanned height")
      | some parent => do
        let projected ← Prog.lift (project projected members.length parent)
        match checkParent functions txid members parent with
        | .error contradiction => pure (.error contradiction)
        | .ok _ => fetchParents rest projected (parents.insert txid parent)

def closingReads : List (ScanCoin × TxOutView) → List BlockHash → Prog σ String (List BlockHash × Except String Unit)
  | [], tips => pure (tips, .ok ())
  | (coin, opened) :: rest, tips => do
    match ← core.txout coin.outpoint with
    | none => pure (tips, .error unavailable)
    | some view =>
      if view.value ≠ opened.value ∨ view.script ≠ opened.script then
        pure (tips ++ [view.bestBlock], .error "a vault coin changed between its opening and closing read")
      else closingReads rest (tips ++ [view.bestBlock])

def candidates (coins : List ScanCoin) :
    Prog σ String (List BlockHash × Except String (Map Txid RawTransaction)) := do
  match ← openingReads core coins [] with
  | (tips, .error contradiction) => pure (tips, .error contradiction)
  | (tips, .ok opening) =>
    match ← fetchParents functions core (groupsOf coins) 0 ∅ with
    | .error contradiction => pure (tips, .error contradiction)
    | .ok parents => do
      let (tips, closed) ← closingReads core (coins.zip opening) tips
      pure (tips, closed.map (fun _ => parents))

structure Bracket where
  shape : ShapeInputs
  parents : Map Txid RawTransaction
  primaryVsize : Nat
  escapeVsize : Nat

def utxoOf (coin : ScanCoin) : Utxo := ⟨coin.outpoint, ⟨coin.value, coin.script⟩⟩

/-- One bracket; `none` where a tip moved, which outranks every contradiction that was held back. -/
def pass (network : Network) (witnessScript : Script) (scripts : Scripts) (weight : Nat) :
    Prog σ String (Option Bracket) := do
  let info ← core.chainInfo
  let name := vaultNetworkName network
  if !verifyChainIdentity info.identity network then
    Prog.fail s!"this Core is not the sealed {name}; its own text is withheld"
  else if info.initialBlockDownload then
    Prog.fail ("bitcoind is in initial block download: its confirmed vault view is stale, so no spend is prepared " ++
      "against it")
  else do
    let before := info.bestBlock
    let scan ← core.scanVaultScript scripts.change
    if scan.bestBlock ≠ before then pure none
    else do
      let coins ← Prog.lift (sortedUnique scan.coins scripts.change)
      let shape : ShapeInputs := ⟨coins.map utxoOf, witnessScript, scripts⟩
      let (primary, escape) ← Prog.lift (buildPair shape ⟨0, 0, 0⟩)
      let primaryVsize ← Prog.lift (finalizedVsize functions weight primary.unsignedTx)
      let escapeVsize ← Prog.lift (finalizedVsize functions weight escape.unsignedTx)
      let (tips, held) ← candidates functions core coins
      let closing ← core.bestBlockHash
      if (tips ++ [closing]).any (fun tip => decide (tip ≠ before)) then pure none
      else
        match held with
        | .error stable => Prog.fail stable
        | .ok parents => pure (some ⟨shape, parents, primaryVsize, escapeVsize⟩)

/-! ### The prepared view -/

def inventoryPasses : Nat := 3

def passes (network : Network) (witnessScript : Script) (scripts : Scripts) (weight : Nat) :
    Nat → Prog σ String (Option Bracket)
  | 0 => pure none
  | left + 1 => do
    match ← pass functions core network witnessScript scripts weight with
    | some bracket => pure (some bracket)
    | none => passes network witnessScript scripts weight left

/-- The sealed definite descriptor. -/
structure DefiniteDescriptor where
  scriptPubkey : Script
  explicitScript : Except String Script
  maxWeightToSatisfy : Except String Nat

structure PreparedView where
  bracket : Bracket
  weight : Nat
  satVb : Nat

def PreparedView.utxos (prepared : PreparedView) : List Utxo := prepared.bracket.shape.utxos

def PreparedView.scripts (prepared : PreparedView) : Scripts := prepared.bracket.shape.scripts

/-- `div_ceil` by a thousand. -/
def satPerVb (estimate : Option Nat) (floors : Floors) : Nat :=
  let floor := max floors.incrementalRelay floors.mempoolMin
  (estimate.elim floor (fun estimate => max estimate floor) + 999) / 1000

/-- The change handed in is compared with the descriptor's own script and dropped. -/
def prepareView (network : Network) (descriptor : DefiniteDescriptor) (scripts : Scripts) :
    Prog σ String PreparedView := do
  let vaultSpk := descriptor.scriptPubkey
  let witnessScript ← Prog.lift descriptor.explicitScript
  let weight ← Prog.lift descriptor.maxWeightToSatisfy
  if scripts.change ≠ vaultSpk then
    Prog.fail ("the supplied vault change script is not the one this sealed descriptor derives, so no Core read is " ++
      "issued")
  else do
    let canonical := { scripts with change := vaultSpk }
    match ← passes functions core network witnessScript canonical weight inventoryPasses with
    | none =>
      Prog.fail (s!"the Core view did not hold still for {inventoryPasses} passes: the tip moved during every " ++
        "inventory bracket")
    | some bracket => do
      let estimate ← core.feeEstimate
      let floors ← core.feeFloors
      pure ⟨bracket, weight, satPerVb estimate floors⟩

end Reads

/-! ### What an accepted bracket holds -/

/-- The parent of the coins with its id: it hashes to the id and has each of them among its outputs. -/
structure Backs (functions : TxFunctions) (coins : List ScanCoin) (txid : Txid) (parent : RawTransaction) : Prop where
  hashes : functions.computeTxid parent = txid
  pays : ∀ coin ∈ coins, coin.outpoint.txid = txid →
    parent.output[coin.outpoint.vout]? = some ⟨coin.value, coin.script⟩

/-- The coin is an output of the parent that is held under its id. -/
def Parented (functions : TxFunctions) (parents : Map Txid RawTransaction) (utxo : Utxo) : Prop :=
  ∃ parent, parents.lookup utxo.outpoint.txid = some parent ∧ functions.computeTxid parent = utxo.outpoint.txid ∧
    parent.output[utxo.outpoint.vout]? = some utxo.txout

/-- A nonempty set of coins of the vault in the order of their outpoints, each with its parent. -/
structure Accepted (functions : TxFunctions) (witnessScript : Script) (scripts : Scripts) (bracket : Bracket) :
    Prop where
  witnessScript : bracket.shape.witnessScript = witnessScript
  scripts : bracket.shape.scripts = scripts
  nonempty : bracket.shape.utxos ≠ []
  ordered : bracket.shape.utxos.Pairwise (fun a b => a.outpoint < b.outpoint)
  own : ∀ utxo ∈ bracket.shape.utxos, utxo.txout.scriptPubkey = bracket.shape.scripts.change
  parented : ∀ utxo ∈ bracket.shape.utxos, Parented functions bracket.parents utxo

theorem Accepted.distinct {functions : TxFunctions} {witnessScript : Script} {scripts : Scripts} {bracket : Bracket}
    (accepted : Accepted functions witnessScript scripts bracket) :
    (bracket.shape.utxos.map Utxo.outpoint).Nodup := by
  rw [List.nodup_iff_pairwise_ne, List.pairwise_map]
  exact accepted.ordered.imp (fun below => ne_of_lt below)

theorem sortedUnique_ok {coins sorted : List ScanCoin} {vaultSpk : Script}
    (passed : sortedUnique coins vaultSpk = .ok sorted) :
    sorted ≠ [] ∧ sorted.Pairwise (fun a b => a.outpoint < b.outpoint) ∧ ∀ coin ∈ sorted, coin.script = vaultSpk := by
  have weakly := List.pairwise_insertionSort (fun a b : ScanCoin => a.outpoint ≤ b.outpoint) coins
  unfold sortedUnique at passed
  simp only at passed
  generalize coins.insertionSort (fun a b => a.outpoint ≤ b.outpoint) = ranked at passed weakly
  split at passed
  · cases passed
  · next distinct =>
    split at passed
    · cases passed
    · next foreign =>
      split at passed
      · cases passed
      · next filled =>
        cases passed
        have strictly : sorted.IsChain (fun a b => a.outpoint < b.outpoint) :=
          isChain_of_pairwise (not_not.mp distinct) (weakly.imp (fun below differs => lt_of_le_of_ne below differs))
        refine ⟨by simpa using filled, ?_, by simpa using foreign⟩
        have : IsTrans ScanCoin (fun a b => a.outpoint < b.outpoint) := ⟨fun _ _ _ first second => lt_trans first second⟩
        exact List.isChain_iff_pairwise.mp strictly

theorem output_of_agrees {parent : RawTransaction} {coin : ScanCoin} (agree : agrees parent coin = true) :
    parent.output[coin.outpoint.vout]? = some ⟨coin.value, coin.script⟩ := by
  unfold agrees at agree
  cases found : parent.output[coin.outpoint.vout]? with
  | none => simp [found] at agree
  | some out =>
    rw [found] at agree
    obtain ⟨value, script⟩ := of_decide_eq_true agree
    cases out
    simp only at value script
    rw [value, script]

theorem checkParent_ok {functions : TxFunctions} {coins : List ScanCoin} {txid : Txid} {parent : RawTransaction}
    {passed : Unit} (checked : checkParent functions txid
      (coins.filter (fun coin => decide (coin.outpoint.txid = txid))) parent = .ok passed) :
    Backs functions coins txid parent := by
  unfold checkParent at checked
  split at checked
  · cases checked
  · next hashes =>
    split at checked
    · cases checked
    · next none_differs =>
      refine ⟨not_not.mp hashes, ?_⟩
      intro coin member own
      have listed := List.find?_eq_none.mp none_differs coin (List.mem_filter.mpr ⟨member, decide_eq_true own⟩)
      exact output_of_agrees (by simpa using listed)

section Answers

variable {σ : Type} {functions : TxFunctions} {core : CoreView σ} {s s' : σ}

/-- The loop over the groups keeps only parents that back their coins, and one for each group. -/
theorem fetchParents_answered {coins : List ScanCoin} {groups : List (Txid × List ScanCoin)} {projected : Nat}
    {parents fetched : Map Txid RawTransaction}
    (grouped : ∀ group ∈ groups, group.2 = coins.filter (fun coin => decide (coin.outpoint.txid = group.1)))
    (held : ∀ txid parent, parents.lookup txid = some parent → Backs functions coins txid parent)
    (answered : fetchParents functions core groups projected parents s = (.ok (.ok fetched), s')) :
    (∀ txid parent, fetched.lookup txid = some parent → Backs functions coins txid parent) ∧
      ∀ txid, txid ∈ groups.map Prod.fst ∨ (parents.lookup txid).isSome → (fetched.lookup txid).isSome := by
  induction groups generalizing projected parents s with
  | nil =>
    cases answered
    exact ⟨held, by simp⟩
  | cons group rest ih =>
    obtain ⟨txid, members⟩ := group
    have own : members = coins.filter (fun coin => decide (coin.outpoint.txid = txid)) :=
      grouped _ List.mem_cons_self
    rw [fetchParents] at answered
    obtain ⟨block, s₁, _, answered⟩ := answered_bind answered
    cases block with
    | none => cases answered
    | some block =>
      obtain ⟨parent, s₂, _, answered⟩ := answered_bind answered
      cases parent with
      | none => cases answered
      | some parent =>
        obtain ⟨bytes, s₃, _, answered⟩ := answered_bind answered
        cases checked : checkParent functions txid members parent with
        | error contradiction =>
          rw [checked] at answered
          cases answered
        | ok _ =>
          rw [checked] at answered
          rw [own] at checked
          have backs := checkParent_ok checked
          have inserted : ∀ other tx, (parents.insert txid parent).lookup other = some tx →
              Backs functions coins other tx := by
            intro other tx found
            rw [lookup_insert_eq] at found
            split_ifs at found with same
            · obtain rfl := Option.some.inj found
              rw [same]
              exact backs
            · exact held other tx found
          obtain ⟨backed, kept⟩ := ih (fun group member => grouped group (List.mem_cons_of_mem _ member)) inserted answered
          refine ⟨backed, ?_⟩
          intro other known
          apply kept
          rw [lookup_insert_eq]
          split_ifs with same
          · exact Or.inr rfl
          · rcases known with listed | present
            · exact Or.inl ((List.mem_cons.mp listed).resolve_left same)
            · exact Or.inr present

theorem mem_groupsOf {coins : List ScanCoin} {coin : ScanCoin} (member : coin ∈ coins) :
    coin.outpoint.txid ∈ (groupsOf coins).map Prod.fst := by
  unfold groupsOf
  simp only [List.map_map, List.mem_map, List.mem_insertionSort, List.mem_dedup]
  exact ⟨coin.outpoint.txid, ⟨coin, member, rfl⟩, rfl⟩

theorem grouped_groupsOf (coins : List ScanCoin) :
    ∀ group ∈ groupsOf coins, group.2 = coins.filter (fun coin => decide (coin.outpoint.txid = group.1)) := by
  intro group member
  obtain ⟨txid, _, rfl⟩ := List.mem_map.mp member
  rfl

theorem candidates_answered {coins : List ScanCoin} {tips : List BlockHash} {parents : Map Txid RawTransaction}
    (answered : candidates functions core coins s = (.ok (tips, .ok parents), s')) :
    ∀ coin ∈ coins, Parented functions parents (utxoOf coin) := by
  unfold candidates at answered
  obtain ⟨⟨opened, opening⟩, s₁, _, answered⟩ := answered_bind answered
  cases opening with
  | error contradiction => cases answered
  | ok opening =>
    obtain ⟨fetched, s₂, ran, answered⟩ := answered_bind answered
    cases fetched with
    | error contradiction => cases answered
    | ok fetched =>
      obtain ⟨⟨closing, closed⟩, s₃, _, answered⟩ := answered_bind answered
      cases closed with
      | error contradiction => cases answered
      | ok _ =>
        cases answered
        obtain ⟨backed, present⟩ := fetchParents_answered (grouped_groupsOf coins) (by simp) ran
        intro coin member
        obtain ⟨parent, found⟩ := Option.isSome_iff_exists.mp (present _ (Or.inl (mem_groupsOf member)))
        have backs := backed _ parent found
        exact ⟨parent, found, backs.hashes, backs.pays coin member rfl⟩

theorem pass_answered {network : Network} {witnessScript : Script} {scripts : Scripts} {weight : Nat}
    {bracket : Bracket}
    (answered : pass functions core network witnessScript scripts weight s = (.ok (some bracket), s')) :
    Accepted functions witnessScript scripts bracket := by
  unfold pass at answered
  obtain ⟨info, s₁, _, answered⟩ := answered_bind answered
  simp only at answered
  split at answered
  · cases answered
  split at answered
  · cases answered
  obtain ⟨scan, s₂, _, answered⟩ := answered_bind answered
  split at answered
  · cases answered
  obtain ⟨coins, s₃, sorted, answered⟩ := answered_bind answered
  obtain ⟨⟨primary, escape⟩, s₄, _, answered⟩ := answered_bind answered
  obtain ⟨primaryVsize, s₅, _, answered⟩ := answered_bind answered
  obtain ⟨escapeVsize, s₆, _, answered⟩ := answered_bind answered
  obtain ⟨⟨tips, held⟩, s₇, read, answered⟩ := answered_bind answered
  obtain ⟨closing, s₈, _, answered⟩ := answered_bind answered
  simp only at answered
  split at answered
  · cases answered
  cases held with
  | error stable => cases answered
  | ok parents =>
    cases answered
    obtain ⟨filled, ordered, own⟩ := sortedUnique_ok (answered_lift sorted).1
    have parented := candidates_answered read
    exact
      { witnessScript := rfl
        scripts := rfl
        nonempty := by simpa using filled
        ordered := List.pairwise_map.mpr ordered
        own := List.forall_mem_map.mpr own
        parented := List.forall_mem_map.mpr parented }

theorem passes_answered {network : Network} {witnessScript : Script} {scripts : Scripts} {weight left : Nat}
    {bracket : Bracket}
    (answered : passes functions core network witnessScript scripts weight left s = (.ok (some bracket), s')) :
    Accepted functions witnessScript scripts bracket := by
  induction left generalizing s with
  | zero => cases answered
  | succ left ih =>
    rw [passes] at answered
    obtain ⟨outcome, s₁, ran, answered⟩ := answered_bind answered
    cases outcome with
    | none => exact ih answered
    | some found =>
      cases answered
      exact pass_answered ran

/-- The prepared view is an accepted bracket over the descriptor's own scripts and weight. -/
theorem prepareView_answered {network : Network} {descriptor : DefiniteDescriptor} {scripts : Scripts}
    {prepared : PreparedView}
    (answered : prepareView functions core network descriptor scripts s = (.ok prepared, s')) :
    ∃ witnessScript, descriptor.explicitScript = .ok witnessScript ∧
      descriptor.maxWeightToSatisfy = .ok prepared.weight ∧ scripts.change = descriptor.scriptPubkey ∧
      Accepted functions witnessScript scripts prepared.bracket := by
  unfold prepareView at answered
  obtain ⟨witnessScript, s₁, script, answered⟩ := answered_bind answered
  obtain ⟨weight, s₂, weighed, answered⟩ := answered_bind answered
  split at answered
  · cases answered
  next own =>
  rw [not_not] at own
  obtain ⟨outcome, s₃, ran, answered⟩ := answered_bind answered
  cases outcome with
  | none => cases answered
  | some bracket =>
    obtain ⟨estimate, s₄, _, answered⟩ := answered_bind answered
    obtain ⟨floors, s₅, _, answered⟩ := answered_bind answered
    cases answered
    rw [← own] at ran
    exact ⟨witnessScript, (answered_lift script).1, (answered_lift weighed).1, own, passes_answered ran⟩

end Answers

end BtcPolicy.Inventory
