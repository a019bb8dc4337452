import BtcPolicy.Coverage.Core
import BtcPolicy.Lib.Runs
import Mathlib.Data.Finset.Basic
import Mathlib.Data.List.Sort

/-! The upkeep of the vault's cached outputs: the cold scan, the wallet's build and repair, the read of the
wallet, the advance by blocks, and the pass that chooses among them. -/

namespace BtcPolicy.Coverage
open Bitcoin Hex HashChain Programs

variable {ledger : Ledger}

/-- `BlockHash::to_string`. -/
def blockHashToString (hash : BlockHash) : String := toHex hash.reverse

/-! ## Reading the chain -/

def bestBlockHash (now : Call ledger) : Rpc ledger BlockHash := call now (fun _ => .ok now.chain.tip)

def tipHeight (now : Call ledger) : Rpc ledger Nat := call now (fun _ => .ok ((now.chain.hashes.length - 1) % 2 ^ 32))

/-- A height above the tip is `None`, not an error. -/
def blockHashAt (now : Call ledger) (height : Nat) : Rpc ledger (Option BlockHash) :=
  call now (fun _ => .ok now.chain.hashes[height]?)

/-- `getblock` reads the block store, which keeps the blocks of every fork. -/
def getblock (now : Call ledger) (hash : BlockHash) : Rpc ledger Block := call now (fun _ => .ok (ledger.block hash))

def headerHeight (now : Call ledger) (block : BlockHash) : Rpc ledger Nat := call now (fun backend =>
  match backend.heightOf block with
  | none => .error "bitcoind getblockheader: \x7b\"code\":-5,\"message\":\"Block not found\"\x7d"
  | some height => if height < 2 ^ 32 then .ok height else .error "getblockheader: block height exceeds u32")

/-- The height of the block, if it is still active there. -/
def confirmActiveHeight (header active : Call ledger) (block : BlockHash) : Rpc ledger Nat := do
  let height ← headerHeight header block
  let found ← blockHashAt active height
  if found = some block then pure height
  else
    let shown := blockHashToString block
    Prog.fail (s!"block {shown} is no longer active at height {height}; discarding the vault UTXO snapshot "
      ++ "anchored to it")

def blockTimeAt (hashAt header : Call ledger) (height : Nat) : Rpc ledger Nat := do
  match ← blockHashAt hashAt height with
  | none => Prog.fail s!"no active block at height {height} for the wallet birthday"
  | some hash => call header (fun _ => .ok (ledger.block hash).time)

/-! ## The cold scan -/

/-- The unspent outputs paying `scripts`, each with the height of its block. -/
def scantxoutset (ledger : Ledger) (scripts : List Script) (hashes : List BlockHash) : List (OutPoint × Nat) :=
  (numbered 0 hashes).flatMap (fun entry =>
    let outpoints := (ledger.block entry.2).tx.flatMap ledger.outputs
    (outpoints.filter (fun outpoint => decide (ledger.Unspent scripts hashes outpoint))).map
      (fun outpoint => (outpoint, entry.1)))

structure ScanCalls (ledger : Ledger) where
  scan : Call ledger
  header : Call ledger
  active : Call ledger

section Scripts

variable (walletOwner : Bytes) (scripts : List Script)

def fullConfirmedScan (calls : ScanCalls ledger) : Rpc ledger ColdScan := do
  Prog.modify (fun backend => { backend with fullScans := backend.fullScans + 1 })
  let unspents ← call calls.scan (fun _ => .ok (scantxoutset ledger scripts calls.scan.chain.hashes))
  let bestblock := calls.scan.chain.tip
  let oldest := unspents.foldl (fun oldest entry => some (oldest.elim entry.2 (min entry.2))) (none : Option Nat)
  let height ← confirmActiveHeight calls.header calls.active bestblock
  -- With no live output, the tip is the earliest birthday that is needed.
  pure {
    oldestUnspentHeight := oldest.getD height
    cache := {
      bestblock := bestblock
      height := height
      scripts := scripts
      candidates := (unspents.map Prod.fst).toFinset } }

/-! ## The wallet's build and repair -/

/-- `vault_wallet_marker`: an `OP_RETURN` of the owner, the height and the hash as it is printed. -/
def vaultWalletMarker (height : Nat) (hash : BlockHash) : Script :=
  [0x6a, 0x4c, 0x44] ++ walletOwner ++ (leBytes 4 height).reverse ++ hash.reverse

def parseVaultWalletMarker (descriptor : Script) : Option (Nat × BlockHash) :=
  let start := [0x6a, 0x4c, 0x44] ++ walletOwner
  let payload := descriptor.drop start.length
  if descriptor.take start.length = start ∧ payload.length = 36 then
    some ((payload.take 4).foldl (fun value byte => 256 * value + byte.toNat) 0, (payload.drop 4).reverse)
  else none

/-- The time an import is to rescan from; `now` rescans nothing. -/
inductive Timestamp
  | since (time : Nat)
  | now

def importInto (file : WalletFile) (rescanned : Bool) (requests : List (Script × Timestamp)) : WalletFile where
  privateKeysEnabled := file.privateKeysEnabled
  descriptors := file.descriptors ++ requests.map Prod.fst
  watches := file.watches ++ if rescanned then requests.filterMap (fun request =>
    match request.2 with
    | .since time => some (request.1, time)
    | .now => none) else []

def Backend.imported (backend : Backend ledger) (rescanned : Bool) (requests : List (Script × Timestamp)) :
    Backend ledger :=
  { backend with wallet := backend.wallet.map (fun file => importInto file rescanned requests) }

/-- `import_descriptors`, which fails too where the wallet is not there. -/
def importDescriptors (now : Call ledger) (requests : List (Script × Timestamp)) : Rpc ledger Unit := fun backend =>
  match now.failure, backend.wallet with
  | some failure, _ => (.error failure.error,
      if failure.kept then (backend.sees now).imported failure.rescanned requests else backend.sees now)
  | none, none => (.error "bitcoind importdescriptors: Requested wallet does not exist or is not loaded",
      backend.sees now)
  | none, some _ => (.ok (), (backend.sees now).imported true requests)

/-- The calls that ask Core for the checksum of each descriptor. -/
def checksummedDescriptors (calls : Nat → Call ledger) : List Script → Nat → Rpc ledger (List Script)
  | [], _ => pure []
  | script :: rest, i => do
    let descriptor ← call (calls i) (fun _ => .ok script)
    let later ← checksummedDescriptors calls rest (i + 1)
    pure (descriptor :: later)

structure ImportCalls (ledger : Ledger) where
  birthday : Call ledger
  birthdayHeader : Call ledger
  anchor : Call ledger
  checksums : Nat → Call ledger
  vault : Call ledger
  markerChecksum : Call ledger
  marker : Call ledger

def importVaultDescriptors (calls : ImportCalls ledger) (coldScan : ColdScan) : Rpc ledger Unit := do
  let timestamp ← blockTimeAt calls.birthday calls.birthdayHeader coldScan.oldestUnspentHeight
  let active ← blockHashAt calls.anchor coldScan.cache.height
  if active = some coldScan.cache.bestblock then
    let descriptors ← checksummedDescriptors calls.checksums scripts 0
    importDescriptors calls.vault (descriptors.map (fun descriptor => (descriptor, .since timestamp)))
    let marker ← call calls.markerChecksum (fun _ =>
      .ok (vaultWalletMarker walletOwner coldScan.cache.height coldScan.cache.bestblock))
    importDescriptors calls.marker [(marker, .now)]
  else
    let shown := blockHashToString coldScan.cache.bestblock
    Prog.fail (s!"the cold scan's anchor {shown} at height {coldScan.cache.height} left the active chain before "
      ++ "its birthday could be imported: the descriptor birthday would come from a different branch, so a vault "
      ++ "output could be left permanently unwatched and the coverage denominator understated. Re-scan.")

/-- The loop over the markers for one that is active. -/
def activeMarker (calls : Nat → Call ledger) : List (Nat × BlockHash) → Nat → Rpc ledger (Option (Nat × BlockHash))
  | [], _ => pure none
  | (height, hash) :: rest, i => do
    let found ← blockHashAt (calls i) height
    if found = some hash then pure (some (height, hash)) else activeMarker calls rest (i + 1)

/-- A wallet call that reads the file; it fails where the wallet is not there. -/
def walletCall {α : Type} (now : Call ledger) (answer : WalletFile → α) : Rpc ledger α := call now (fun backend =>
  match backend.wallet with
  | some file => .ok (answer file)
  | none => .error "bitcoind wallet call: Requested wallet does not exist or is not loaded")

/-- The descriptors come out of a hash set, so `order` stands for the order they are looked at in. -/
structure VerifyCalls (ledger : Ledger) where
  info : Call ledger
  descriptors : Call ledger
  order : List Script → List Script
  reordered : ∀ descriptors, (order descriptors).Perm descriptors
  markers : Nat → Call ledger
  repair : ImportCalls ledger
  repaired : Call ledger

/-- `only_owned_descriptors` and the markers: every descriptor beyond the vault's own is one of them. -/
def markersOf (descriptors : List Script) : Option (List (Nat × BlockHash)) :=
  (descriptors.filter (fun descriptor => decide (descriptor ∉ scripts))).mapM (parseVaultWalletMarker walletOwner)

/-- Only a watch-only wallet is asked for its markers. -/
def activeAnchor (calls : Nat → Call ledger) (watchOnly : Bool) (anchors : Option (List (Nat × BlockHash))) :
    Rpc ledger (Option (Nat × BlockHash)) :=
  if watchOnly then activeMarker calls (anchors.getD []) 0 else pure none

def verifyVaultWallet (calls : VerifyCalls ledger) (coldScan : Option ColdScan) : Rpc ledger (Nat × BlockHash) := do
  let watchOnly ← walletCall calls.info (fun file => !file.privateKeysEnabled)
  let found ← walletCall calls.descriptors (fun file => file.descriptors)
  let scriptsComplete := scripts.all (fun script => decide (script ∈ found))
  let anchors := markersOf walletOwner scripts (calls.order found)
  let active ← activeAnchor calls.markers watchOnly anchors
  match active.filter (fun _ => scriptsComplete && anchors.isSome) with
  | some anchor => pure anchor
  | none =>
    match coldScan.filter (fun _ => watchOnly && anchors.isSome) with
    | none =>
      Prog.fail (s!"wallet is not a complete node-owned vault wallet (watch-only: {watchOnly}, vault descriptors "
        ++ s!"complete: {scriptsComplete}, active completion anchor: {active.isSome}); refusing to read the vault "
        ++ "balance from it")
    | some coldScan => do
      importVaultDescriptors walletOwner scripts calls.repair coldScan
      let repaired ← walletCall calls.repaired (fun file => file.descriptors)
      let marker := vaultWalletMarker walletOwner coldScan.cache.height coldScan.cache.bestblock
      if scripts.all (fun script => decide (script ∈ repaired)) && decide (marker ∈ repaired) then do
        -- The caller holds the same scan, so the latch is cleared here and nothing is imported twice.
        Prog.modify (fun backend => { backend with walletReimportPending := false })
        pure (coldScan.cache.height, coldScan.cache.bestblock)
      else Prog.fail "wallet is still incomplete after finishing its build"

structure EnsureCalls (ledger : Ledger) where
  load : Call ledger
  create : Call ledger
  createImport : ImportCalls ledger
  verify : VerifyCalls ledger

/-- A blank watch-only wallet; its answer too may be lost after it took effect. -/
def createwallet (now : Call ledger) : Rpc ledger Unit := fun backend =>
  let blank : WalletFile := ⟨false, [], []⟩
  match now.failure, backend.wallet with
  | some failure, none => (.error failure.error,
      if failure.kept then { backend.sees now with wallet := some blank } else backend.sees now)
  | some failure, some _ => (.error failure.error, backend.sees now)
  | none, some _ => (.error "bitcoind createwallet: Database already exists.", backend.sees now)
  | none, none => (.ok (), { backend.sees now with wallet := some blank })

def createVaultWallet (calls : EnsureCalls ledger) (coldScan : ColdScan) : Rpc ledger Unit := do
  createwallet calls.create
  importVaultDescriptors walletOwner scripts calls.createImport coldScan

/-- `loadwallet`: a wallet that is not there is created, where there is a cold scan to create it from. -/
def loadVaultWallet (calls : EnsureCalls ledger) (coldScan : Option ColdScan) : Rpc ledger Unit := do
  let loaded ← call calls.load (fun backend => .ok backend.wallet.isSome)
  if loaded then pure ()
  else match coldScan with
    | none => Prog.fail "this backend has no node-owned vault wallet yet; the scantxoutset fallback creates it"
    | some coldScan => createVaultWallet walletOwner scripts calls coldScan

/-- The anchor of the wallet, which only a cold scan may create or repair. -/
def ensureVaultWallet (calls : EnsureCalls ledger) (coldScan : Option ColdScan) : Rpc ledger (Nat × BlockHash) := do
  let backend ← Prog.get
  match backend.vaultWallet.filter (fun wallet => decide (wallet.scripts = scripts)) with
  | some wallet => pure wallet.anchor
  | none => do
    loadVaultWallet walletOwner scripts calls coldScan
    let anchor ← verifyVaultWallet walletOwner scripts calls.verify coldScan
    Prog.modify (fun backend => { backend with vaultWallet := some ⟨scripts, anchor⟩ })
    pure anchor

/-- A repaired wallet rests on the block of the scan it was repaired from. -/
def Backend.anchored (backend : Backend ledger) (coldScan : ColdScan) : Backend ledger :=
  { backend with vaultWallet := backend.vaultWallet.map (fun wallet =>
      { wallet with anchor := (coldScan.cache.height, coldScan.cache.bestblock) }) }

structure SeedCalls (ledger : Ledger) where
  ensure : EnsureCalls ledger
  reimport : ImportCalls ledger

/-- A failed repair leaves the latch set. -/
def seedVaultWallet (calls : SeedCalls ledger) (coldScan : ColdScan) : Rpc ledger Unit := do
  let _ ← ensureVaultWallet walletOwner scripts calls.ensure (some coldScan)
  let backend ← Prog.get
  if backend.walletReimportPending then
    importVaultDescriptors walletOwner scripts calls.reimport coldScan
    Prog.modify (fun backend => backend.anchored coldScan)
    Prog.modify (fun backend => { backend with walletReimportPending := false })
  else pure ()

/-! ## The read of the wallet -/

structure AttemptCalls (ledger : Ledger) where
  tip : Call ledger
  listunspent : Call ledger
  listsinceblock : Call ledger
  gettransaction : Txid → Call ledger
  tipAgain : Call ledger
  header : Call ledger
  active : Call ledger

def listunspent (now : Call ledger) : Rpc ledger (List (OutPoint × Option Script)) := call now (fun backend =>
  .ok ((backend.walletUnspent now).map (fun outpoint => (outpoint, ledger.script outpoint))))

/-- The wallet's block and its entries above the fork point of `since`, both of one moment. -/
def listsinceblock (now : Call ledger) (since : Option BlockHash) : Rpc ledger (BlockHash × List Entry) :=
  call now (fun backend => match since with
    | none => .ok (now.processed.tip, backend.entries now 0)
    | some hash => match backend.chainOf hash with
      | none => .error "bitcoind listsinceblock: \x7b\"code\":-5,\"message\":\"Block not found\"\x7d"
      | some hashes => .ok (now.processed.tip, backend.entries now (forkLength hashes now.processed.hashes)))

def gettransaction (now : Call ledger) (txid : Txid) : Rpc ledger (List OutPoint) := call now (fun backend =>
  if txid ∈ backend.known now then .ok (ledger.inputs txid)
  else .error "bitcoind gettransaction: \x7b\"code\":-5,\"message\":\"Invalid or non-wallet transaction id\"\x7d")

/-- The credits of these kinds are left alone while they are unconfirmed. -/
def creditOnly : Category → Bool
  | .credit .receive | .credit .generate | .credit .immature | .credit .orphan => true
  | .credit .other | .send => false

/-- The confirmed debits, whose inputs are to be dropped. -/
def confirmedDebits (entries : List Entry) : List Txid :=
  ((entries.filter (fun entry => decide (0 < entry.confirmations) && decide (entry.category = .send))).map
    (fun entry => entry.outpoint.txid)).dedup

/-- The confirmed entries of any other kind are candidates. -/
def confirmedCredits (entries : List Entry) : List OutPoint :=
  (entries.filter (fun entry => decide (0 < entry.confirmations) && decide (entry.category ≠ .send))).map Entry.outpoint

/-- The unconfirmed transactions that may hide an output, whose inputs are to be added. -/
def pendingTxids (entries : List Entry) : List Txid :=
  ((entries.filter (fun entry => decide (entry.confirmations ≤ 0) && !creditOnly entry.category)).map
    (fun entry => entry.outpoint.txid)).dedup

/-- The order of `Txid`, and `false` before `true`. -/
def expandOrder (a b : Txid × Bool) : Prop := a.1 < b.1 ∨ a.1 = b.1 ∧ a.2 ≤ b.2

instance : DecidableRel expandOrder := fun a b => inferInstanceAs (Decidable (a.1 < b.1 ∨ a.1 = b.1 ∧ a.2 ≤ b.2))

/-- The inputs of each transaction to expand, marked as the transaction is. -/
def expandInputs (calls : Txid → Call ledger) : List (Txid × Bool) → Rpc ledger (List (OutPoint × Bool))
  | [] => pure []
  | (txid, confirmed) :: rest => do
    let inputs ← gettransaction (calls txid) txid
    let later ← expandInputs calls rest
    pure (inputs.map (fun outpoint => (outpoint, confirmed)) ++ later)

/-- One attempt; `none` where the tip has moved over it. -/
def walletAttempt (calls : AttemptCalls ledger) (cached : Option VaultUnspentCache) :
    Rpc ledger (Option VaultUnspentCache) := do
  let bestblock ← bestBlockHash calls.tip
  let unspents ← listunspent calls.listunspent
  let listed := (unspents.filter (fun entry => entry.2.any (fun script => decide (script ∈ scripts)))).map Prod.fst
  let carried := cached.elim ∅ VaultUnspentCache.candidates
  let (walletBlock, entries) ← listsinceblock calls.listsinceblock (cached.map VaultUnspentCache.bestblock)
  let expand := ((pendingTxids entries).map (fun txid => (txid, false)) ++
    (confirmedDebits entries).map (fun txid => (txid, true))).insertionSort expandOrder
  let inputs ← expandInputs calls.gettransaction expand
  let hidden := (inputs.filter (fun input => !input.2)).map Prod.fst
  let spent := (inputs.filter (fun input => input.2)).map Prod.fst
  let candidates := listed.toFinset ∪ carried ∪ (confirmedCredits entries).toFinset ∪ hidden.toFinset
  let again ← bestBlockHash calls.tipAgain
  if again = bestblock then do
    let height ← confirmActiveHeight calls.header calls.active walletBlock
    pure (some {
      bestblock := walletBlock
      height := height
      scripts := scripts
      -- A confirmed spend overrides every other source.
      candidates := candidates.filter (fun outpoint => outpoint ∉ spent) })
  else pure none

structure ReadCalls (ledger : Ledger) where
  ensure : EnsureCalls ledger
  first : AttemptCalls ledger
  second : AttemptCalls ledger

def walletConfirmedScan (calls : ReadCalls ledger) (cached : Option VaultUnspentCache) :
    Rpc ledger VaultUnspentCache := do
  let _ ← ensureVaultWallet walletOwner scripts calls.ensure none
  match ← walletAttempt scripts calls.first cached with
  | some cache => pure cache
  | none => match ← walletAttempt scripts calls.second cached with
    | some cache => pure cache
    | none => Prog.fail "the chain tip moved again while reading the vault wallet's unspent view"

end Scripts

/-! ## The advance by blocks -/

def maxVaultScanDeltaBlocks : Nat := 32

/-- The spent outpoints go and the watched outputs come. -/
def applyTx (ledger : Ledger) (watched : List Script) (candidates : Finset OutPoint) (txid : Txid) : Finset OutPoint :=
  candidates.filter (fun outpoint => outpoint ∉ ledger.inputs txid) ∪
    ((ledger.outputs txid).filter (fun outpoint =>
      (ledger.script outpoint).any (fun script => decide (script ∈ watched)))).toFinset

structure DeltaCalls (ledger : Ledger) where
  tip : Call ledger
  hash : Nat → Call ledger
  block : Nat → Call ledger
  last : Call ledger

/-- The loop over `count` heights from `height` on, each block chaining to the one before. -/
def deltaBlocks (calls : DeltaCalls ledger) (watched : List Script) :
    (count height : Nat) → BlockHash → Finset OutPoint → Rpc ledger (BlockHash × Finset OutPoint)
  | 0, _, parent, candidates => pure (parent, candidates)
  | count + 1, height, parent, candidates => do
    match ← blockHashAt (calls.hash height) height with
    | none => Prog.fail s!"vault scan delta: active block at height {height} vanished"
    | some hash => do
      let block ← getblock (calls.block height) hash
      if block.previousblockhash = some parent then
        deltaBlocks calls watched count (height + 1) hash (block.tx.foldl (applyTx ledger watched) candidates)
      else
        let shown := blockHashToString hash
        let cachedParent := blockHashToString parent
        Prog.fail (s!"vault scan delta: block {shown} at height {height} does not chain to cached parent "
          ++ s!"{cachedParent}; discarding the raced update")

def advanceConfirmedScan (calls : DeltaCalls ledger) (cache : VaultUnspentCache) : Rpc ledger VaultUnspentCache := do
  let tip ← tipHeight calls.tip
  if tip ≤ cache.height then pure cache
  else
    let through := min tip (min (cache.height + maxVaultScanDeltaBlocks) (2 ^ 32 - 1))
    let (parent, candidates) ← deltaBlocks calls cache.scripts (through - cache.height) (cache.height + 1)
      cache.bestblock cache.candidates
    let found ← blockHashAt calls.last through
    if found = some parent then pure { cache with bestblock := parent, height := through, candidates := candidates }
    else
      let shown := blockHashToString parent
      Prog.fail s!"vault scan delta: terminal block {shown} at height {through} is no longer active"

/-! ## The pass -/

/-- Where a pass stands. Between two of its steps the background repair may take one of its own. -/
inductive Foreground
  | idle
  | checking (cached : Option VaultUnspentCache) (anchor : Option (Nat × BlockHash))
  | latching (cached : Option VaultUnspentCache) (reorged : Bool)
  | loading (cached : Option VaultUnspentCache) (repairPending : Bool)
  | reading (cached : Option VaultUnspentCache)
  | reproving (cached : Option VaultUnspentCache) (cache : VaultUnspentCache)
  | falling (cached : Option VaultUnspentCache) (repairPending repairInProgress : Bool)
  | seeding (coldScan : ColdScan)
  | finishing (refreshed : VaultUnspentCache)

/-- Where the thread of `spawn_vault_wallet_seed` stands in `seed_vault_wallet`. -/
inductive Repair
  | ensuring (coldScan : ColdScan)
  | reimporting (coldScan : ColdScan)
  | anchoring (coldScan : ColdScan)
  | clearing
  | closing

structure Machine (ledger : Ledger) where
  backend : Backend ledger
  foreground : Foreground
  repair : Option Repair

/-- `seed_in_background` of the pass; a thread may fail to start. -/
inductive SeedMode (ledger : Ledger)
  | background (started : Bool)
  | synchronous (calls : SeedCalls ledger)

inductive Step (ledger : Ledger)
  | begin
  | check (now : Call ledger)
  | latch
  | load
  | read (calls : ReadCalls ledger)
  | reprove (now : Call ledger)
  | fall (base : Call ledger) (delta : DeltaCalls ledger) (scan : ScanCalls ledger)
  | seed (mode : SeedMode ledger)
  | finish
  | ensure (calls : EnsureCalls ledger)
  | reimport (calls : ImportCalls ledger)
  | anchor
  | clear
  | close
  | restart

/-- What a pass that ends returns. -/
abbrev Reply := Option (Except Error Unit)

def initialBackend : Backend ledger := ⟨none, none, false, false, 0, [], none⟩

def initialMachine : Machine ledger := ⟨initialBackend, .idle, none⟩

/-- A new process: Core keeps its blocks and the wallet. -/
def Backend.restarted (backend : Backend ledger) : Backend ledger :=
  { (initialBackend : Backend ledger) with seen := backend.seen, wallet := backend.wallet }

/-- Whether the anchor of the handle has left the active chain. -/
def anchorReorged (now : Call ledger) : Option (Nat × BlockHash) → Rpc ledger Bool
  | none => pure false
  | some (height, hash) => do
    let found ← blockHashAt now height
    pure (decide (found ≠ some hash))

def walletReadAnchorHeld (now : Call ledger) : Rpc ledger Bool := do
  let backend ← Prog.get
  match backend.vaultWallet with
  | none => pure false
  | some wallet => do
    let found ← blockHashAt now wallet.anchor.1
    pure (decide (found = some wallet.anchor.2))

section Passes

variable (walletOwner : Bytes) (scripts : List Script)

/-- The fallback: the cache advanced where its block is still active and no repair asks for a scan, else a scan. -/
def fallBack (base : Call ledger) (delta : DeltaCalls ledger) (scan : ScanCalls ledger)
    (cached : Option VaultUnspentCache) (repairPending repairInProgress : Bool) :
    Rpc ledger (VaultUnspentCache ⊕ ColdScan) :=
  let cold : Rpc ledger (VaultUnspentCache ⊕ ColdScan) := do
    let coldScan ← fullConfirmedScan scripts scan
    pure (.inr coldScan)
  match cached with
  | none => cold
  | some cache =>
    if !repairPending || repairInProgress then do
      let found ← blockHashAt base cache.height
      if found = some cache.bestblock then do
        let refreshed ← advanceConfirmedScan delta cache
        pure (.inl refreshed)
      else cold
    else cold

namespace Machine

def ends (backend : Backend ledger) (repair : Option Repair) (result : Except Error Unit) : Machine ledger × Reply :=
  (⟨backend, .idle, repair⟩, some result)

/-- One step of `refresh_vault_unspent_cache_mode`, in the order of its reads and writes. -/
def foregroundStep (m : Machine ledger) : Foreground → Step ledger → Machine ledger × Reply
  | .idle, .begin =>
    let cached := m.backend.scanCache.filter (fun cache => decide (cache.scripts = scripts))
    ({ m with foreground := .checking cached (m.backend.vaultWallet.map VaultWallet.anchor) }, none)
  | .checking cached anchor, .check now =>
    match anchorReorged now anchor m.backend with
    | (.ok reorged, backend) => (⟨backend, .latching cached reorged, m.repair⟩, none)
    | (.error error, backend) => ends backend m.repair (.error error)
  | .latching cached reorged, .latch =>
    let pending := m.backend.walletReimportPending || reorged
    (⟨{ m.backend with walletReimportPending := pending }, .loading cached pending, m.repair⟩, none)
  | .loading cached repairPending, .load =>
    -- A wallet read must not race a descriptor import this process started.
    if !repairPending && !m.backend.walletReimportInProgress then ({ m with foreground := .reading cached }, none)
    else ({ m with foreground := .falling cached repairPending m.backend.walletReimportInProgress }, none)
  | .reading cached, .read calls =>
    match walletConfirmedScan walletOwner scripts calls cached m.backend with
    | (.ok cache, backend) => (⟨backend, .reproving cached cache, m.repair⟩, none)
    | (.error _, backend) => (⟨{ backend with vaultWallet := none }, .falling cached false false, m.repair⟩, none)
  | .reproving cached cache, .reprove now =>
    match walletReadAnchorHeld now m.backend with
    | (.ok true, backend) => ends { backend with scanCache := some cache } m.repair (.ok ())
    | (.ok false, backend) =>
      (⟨{ backend with walletReimportPending := true }, .falling cached true false, m.repair⟩, none)
    | (.error error, backend) => ends backend m.repair (.error error)
  | .falling cached repairPending repairInProgress, .fall base delta scan =>
    match fallBack scripts base delta scan cached repairPending repairInProgress m.backend with
    | (.ok (.inl refreshed), backend) => (⟨backend, .finishing refreshed, m.repair⟩, none)
    | (.ok (.inr coldScan), backend) =>
      -- The scan is published before the wallet is built from it.
      (⟨{ backend with scanCache := some coldScan.cache }, .seeding coldScan, m.repair⟩, none)
    | (.error error, backend) => ends backend m.repair (.error error)
  | .seeding coldScan, .seed (.synchronous calls) =>
    let (_, backend) := seedVaultWallet walletOwner scripts calls coldScan m.backend
    (⟨backend, .finishing coldScan.cache, m.repair⟩, none)
  | .seeding coldScan, .seed (.background started) =>
    if !m.backend.walletReimportInProgress && started then
      (⟨{ m.backend with walletReimportInProgress := true }, .finishing coldScan.cache, some (.ensuring coldScan)⟩, none)
    else ({ m with foreground := .finishing coldScan.cache }, none)
  | .finishing refreshed, .finish => ends { m.backend with scanCache := some refreshed } m.repair (.ok ())
  | _, _ => (m, none)

/-- One step of the background thread; a failure of any of its parts only closes it. -/
def repairStep (m : Machine ledger) : Repair → Step ledger → Machine ledger
  | .ensuring coldScan, .ensure calls =>
    match ensureVaultWallet walletOwner scripts calls (some coldScan) m.backend with
    | (.ok _, backend) => ⟨backend, m.foreground, some (.reimporting coldScan)⟩
    | (.error _, backend) => ⟨backend, m.foreground, some .closing⟩
  | .reimporting coldScan, .reimport calls =>
    if m.backend.walletReimportPending then
      match importVaultDescriptors walletOwner scripts calls coldScan m.backend with
      | (.ok _, backend) => ⟨backend, m.foreground, some (.anchoring coldScan)⟩
      | (.error _, backend) => ⟨backend, m.foreground, some .closing⟩
    else { m with repair := some .closing }
  | .anchoring coldScan, .anchor => ⟨m.backend.anchored coldScan, m.foreground, some .clearing⟩
  | .clearing, .clear => ⟨{ m.backend with walletReimportPending := false }, m.foreground, some .closing⟩
  | .closing, .close => ⟨{ m.backend with walletReimportInProgress := false }, m.foreground, none⟩
  | _, _ => m

/-- A step belongs to the pass, to the background thread, or to neither; out of turn it changes nothing. -/
def step (m : Machine ledger) (action : Step ledger) : Machine ledger × Reply :=
  match action with
  | .restart => (⟨m.backend.restarted, .idle, none⟩, none)
  | .ensure _ | .reimport _ | .anchor | .clear | .close =>
    (match m.repair with
    | some repair => repairStep walletOwner scripts m repair action
    | none => m, none)
  | _ => foregroundStep walletOwner scripts m m.foreground action

end Machine

end Passes

end BtcPolicy.Coverage
