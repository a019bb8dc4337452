import BtcPolicy.Bitcoin
import BtcPolicy.Lib.HashChain
import BtcPolicy.Lib.Programs

/-! Bitcoin Core as the cache of the vault's outputs finds it: the blocks and transactions a hash commits
to, the chain that is active at a call, and the watch-only wallet, which may stand at another block than
the active tip. A reorg may fall between any two calls. -/

namespace BtcPolicy.Coverage
open Bitcoin HashChain Programs

abbrev BlockHash := Bytes
abbrev Error := String

/-- An input is `none` in a coinbase, which spends nothing. -/
structure Tx where
  vin : List (Option OutPoint)
  vout : List Script

structure Block where
  previousblockhash : Option BlockHash
  time : Nat
  tx : List Txid

/-- What each block hash and each txid commits to. -/
structure Ledger where
  block : BlockHash → Block
  tx : Txid → Tx

namespace Ledger

variable (ledger : Ledger)

def parent (hash : BlockHash) : Option BlockHash := (ledger.block hash).previousblockhash

/-- The transactions of a list of blocks. -/
def txids (hashes : List BlockHash) : List Txid := hashes.flatMap (fun hash => (ledger.block hash).tx)

def script (outpoint : OutPoint) : Option Script := (ledger.tx outpoint.txid).vout[outpoint.vout]?

def outputs (txid : Txid) : List OutPoint :=
  (List.range (ledger.tx txid).vout.length).map (OutPoint.mk txid)

def inputs (txid : Txid) : List OutPoint := (ledger.tx txid).vin.reduceOption

/-- Some transaction of the chain spends the output. -/
def Spent (hashes : List BlockHash) (outpoint : OutPoint) : Prop :=
  ∃ txid ∈ ledger.txids hashes, outpoint ∈ ledger.inputs txid

instance (hashes : List BlockHash) (outpoint : OutPoint) : Decidable (ledger.Spent hashes outpoint) :=
  inferInstanceAs (Decidable (∃ txid ∈ ledger.txids hashes, outpoint ∈ ledger.inputs txid))

/-- An output of the chain that pays one of `scripts` and that no transaction of the chain spends. -/
structure Unspent (scripts : List Script) (hashes : List BlockHash) (outpoint : OutPoint) : Prop where
  watched : ∃ script ∈ scripts, ledger.script outpoint = some script
  confirmed : outpoint.txid ∈ ledger.txids hashes
  unspent : ¬ ledger.Spent hashes outpoint

theorem unspent_iff (scripts : List Script) (hashes : List BlockHash) (outpoint : OutPoint) :
    ledger.Unspent scripts hashes outpoint ↔ (∃ script ∈ scripts, ledger.script outpoint = some script) ∧
      outpoint.txid ∈ ledger.txids hashes ∧ ¬ ledger.Spent hashes outpoint := by
  constructor
  · rintro ⟨watched, confirmed, unspent⟩
    exact ⟨watched, confirmed, unspent⟩
  · rintro ⟨watched, confirmed, unspent⟩
    exact ⟨watched, confirmed, unspent⟩

instance (scripts : List Script) (hashes : List BlockHash) (outpoint : OutPoint) :
    Decidable (ledger.Unspent scripts hashes outpoint) :=
  decidable_of_iff' _ (ledger.unspent_iff scripts hashes outpoint)

end Ledger

/-- The chain below a block, the genesis first. -/
structure Chain (ledger : Ledger) where
  hashes : List BlockHash
  rooted : Rooted ledger.parent hashes
  nonempty : hashes ≠ []

def Chain.tip {ledger : Ledger} (chain : Chain ledger) : BlockHash := chain.hashes.getLast chain.nonempty

/-- `importdescriptors` starts its rescan this much before the time it is given. -/
def timestampWindow : Nat := 7200

/-- The node's wallet as Core keeps it. A descriptor is held as the script inside its `raw(..)`; `watches`
has each script whose rescan is done, with the time it was imported from. -/
structure WalletFile where
  privateKeysEnabled : Bool
  descriptors : List Script
  watches : List (Script × Nat)

/-- The kinds of entry of `listsinceblock` that are not `send`. -/
inductive Credit
  | receive
  | generate
  | immature
  | orphan
  | other
  deriving DecidableEq, Repr

inductive Category
  | send
  | credit (kind : Credit)
  deriving DecidableEq, Repr

/-- What a failed call leaves behind: an import may have kept its descriptors, and even finished its
rescan, although its answer is lost. -/
structure Failure where
  error : Error
  kept : Bool
  rescanned : Bool

/-- One call: the chain active at it, the chain up to the block the wallet has processed, the transactions
the wallet knows beyond those it is bound to know, how it lists a credit and how deep a conflicted
transaction lies, and whether the call fails. -/
structure Call (ledger : Ledger) where
  chain : Chain ledger
  processed : Chain ledger
  extra : List Txid
  credit : OutPoint → Credit
  conflicted : Txid → Nat
  failure : Option Failure

/-- The confirmed outputs paying `scripts` at a block. -/
structure VaultUnspentCache where
  bestblock : BlockHash
  height : Nat
  scripts : List Script
  candidates : Finset OutPoint

/-- A scan of the whole set of unspent outputs. -/
structure ColdScan where
  cache : VaultUnspentCache
  oldestUnspentHeight : Nat

/-- A wallet that was located and verified, with the block its history was proved to rest on. -/
structure VaultWallet where
  scripts : List Script
  anchor : Nat × BlockHash

/-- The fields of the backend, and Core behind it: the chains its blocks have been on, and the wallet. -/
structure Backend (ledger : Ledger) where
  scanCache : Option VaultUnspentCache
  vaultWallet : Option VaultWallet
  walletReimportPending : Bool
  walletReimportInProgress : Bool
  fullScans : Nat
  seen : List (Chain ledger)
  wallet : Option WalletFile

abbrev Rpc (ledger : Ledger) (α : Type) := Prog (Backend ledger) Error α

section Calls

variable {ledger : Ledger}

def Backend.sees (backend : Backend ledger) (now : Call ledger) : Backend ledger :=
  { backend with seen := now.processed :: now.chain :: backend.seen }

/-- A call that only reads: the chains of this moment are on record before it answers. -/
def call {α : Type} (now : Call ledger) (answer : Backend ledger → Except Error α) : Rpc ledger α := fun backend =>
  match now.failure with
  | some failure => (.error failure.error, backend.sees now)
  | none => (answer (backend.sees now), backend.sees now)

/-- The blocks of a chain from the first one on that is not older than `birthday`, the grace included. -/
def sinceBirthday (ledger : Ledger) (birthday : Nat) (hashes : List BlockHash) : List BlockHash :=
  hashes.dropWhile (fun hash => decide ((ledger.block hash).time + timestampWindow < birthday))

/-- The output pays a script the wallet watches, in a block at or after that script's birthday. -/
def owns (ledger : Ledger) (watches : List (Script × Nat)) (hashes : List BlockHash) (outpoint : OutPoint) : Bool :=
  watches.any (fun watch => decide (ledger.script outpoint = some watch.1) &&
    decide (outpoint.txid ∈ ledger.txids (sinceBirthday ledger watch.2 hashes)))

/-- The transaction pays the wallet an output or spends one of those. -/
def concerns (ledger : Ledger) (watches : List (Script × Nat)) (hashes : List BlockHash) (txid : Txid) : Bool :=
  (ledger.outputs txid ++ ledger.inputs txid).any (owns ledger watches hashes)

namespace Backend

def watches (backend : Backend ledger) : List (Script × Nat) :=
  match backend.wallet with
  | some file => file.watches
  | none => []

/-- What the wallet knows: every transaction of a chain Core has followed that concerns it, and whatever else
it has heard of. -/
def known (backend : Backend ledger) (now : Call ledger) : List Txid :=
  now.extra ++ backend.seen.flatMap (fun chain =>
    (ledger.txids chain.hashes).filter (concerns ledger backend.watches chain.hashes))

/-- The script is one the wallet has been told to watch. -/
def watching (backend : Backend ledger) (script : Script) : Bool := decide (script ∈ backend.watches.map Prod.fst)

/-- The outpoint is an output of a known transaction that pays a watched script. -/
def knows (backend : Backend ledger) (now : Call ledger) (outpoint : OutPoint) : Bool :=
  decide (outpoint.txid ∈ backend.known now) && (ledger.script outpoint).any backend.watching

/-- The height of a block Core has stored. -/
def heightOf (backend : Backend ledger) (hash : BlockHash) : Option Nat :=
  backend.seen.findSome? (fun chain => chain.hashes.idxOf? hash)

/-- The chain below a block Core has stored. -/
def chainOf (backend : Backend ledger) (hash : BlockHash) : Option (List BlockHash) :=
  backend.seen.findSome? (fun chain => (chain.hashes.idxOf? hash).map (fun height => chain.hashes.take (height + 1)))

end Backend

/-- The length of the common start of two chains. -/
def forkLength : List BlockHash → List BlockHash → Nat
  | hash :: rest, other :: rest' => if hash = other then forkLength rest rest' + 1 else 0
  | _, _ => 0

/-- An entry of `listsinceblock`; a `send` entry names only its transaction here. -/
structure Entry where
  category : Category
  outpoint : OutPoint
  confirmations : Int
  deriving DecidableEq

/-- The blocks from the one that confirms the transaction up to the wallet's. -/
def confirmations (ledger : Ledger) (hashes : List BlockHash) (txid : Txid) : Nat :=
  (hashes.dropWhile (fun hash => decide (txid ∉ (ledger.block hash).tx))).length

namespace Backend

/-- The entries of one transaction: a credit for each watched output, a `send` where it spends one. -/
def entriesOf (backend : Backend ledger) (now : Call ledger) (txid : Txid) : List Entry :=
  let depth : Int := if txid ∈ ledger.txids now.processed.hashes then
      (confirmations ledger now.processed.hashes txid : Int) else -(now.conflicted txid : Int)
  let credits := (ledger.outputs txid).filter (fun outpoint => (ledger.script outpoint).any backend.watching)
  let sends := if (ledger.inputs txid).any (backend.knows now) then [⟨.send, ⟨txid, 0⟩, depth⟩] else []
  credits.map (fun outpoint => ⟨.credit (now.credit outpoint), outpoint, depth⟩) ++ sends

/-- The known transactions that are unconfirmed at the wallet's block or confirmed above the fork point. -/
def entries (backend : Backend ledger) (now : Call ledger) (fork : Nat) : List Entry :=
  let recent := (backend.known now).filter (fun txid =>
    decide (txid ∉ ledger.txids now.processed.hashes) || decide (txid ∈ ledger.txids (now.processed.hashes.drop fork)))
  recent.flatMap (backend.entriesOf now)

/-- The watched outputs confirmed at the wallet's block that no known transaction spends. -/
def walletUnspent (backend : Backend ledger) (now : Call ledger) : List OutPoint :=
  let outpoints := (backend.known now).flatMap ledger.outputs
  outpoints.filter (fun outpoint => backend.knows now outpoint && decide (outpoint.txid ∈ ledger.txids now.processed.hashes) &&
    (backend.known now).all (fun txid => decide (outpoint ∉ ledger.inputs txid)))

end Backend

end Calls

end BtcPolicy.Coverage
