import BtcPolicy.Bitcoin
import BtcPolicy.Lib.HashChain
import BtcPolicy.Lib.Runs

/-! The watchtower's scan of the chain: the cursor it carries between passes, the traversal of the
blocks, and the queue of alerts. Every call to the backend is answered from the chain that is active
at that call, so a reorg may fall between any two calls of one pass. -/

namespace BtcPolicy.Watchtower
open Bitcoin Hex FiniteMap HashChain

abbrev BlockHash := Bytes
abbrev Error := String

def maxU32 : Nat := 2 ^ 32 - 1

/-- `BlockHash::to_string`. -/
def blockHashToString (hash : BlockHash) : String := toHex hash.reverse

/-- An input as `getblock` lists it at verbosity 3. -/
structure Vin where
  coinbase : Bool
  prevout : Option Script
  txid : Txid
  vout : Nat
  txinwitness : List Bytes

structure BlockTx where
  txid : Txid
  vin : List Vin

structure Block where
  previousblockhash : Option BlockHash
  tx : List BlockTx

/-- The parent a hash commits to, given what each hash stands for. -/
def parentOf (block : BlockHash → Block) (hash : BlockHash) : Option BlockHash := (block hash).previousblockhash

/-- A chain of the backend: the block at height `i` is entry `i`. Core numbers its blocks with a 32-bit
signed integer; all that is asked here is that the height one past the tip is still a `u32`. -/
structure Chain (block : BlockHash → Block) where
  hashes : List BlockHash
  rooted : Rooted (parentOf block) hashes
  nonempty : hashes ≠ []
  bounded : hashes.length ≤ maxU32

/-- The backend of one pass: the chain that is active at each of its calls, or the error the call
returns. -/
abbrev Backend (block : BlockHash → Block) := Nat → Except Error (Chain block)

/-- Code that calls the backend: it counts the calls made so far, and the first error ends it. -/
abbrev Rpc (α : Type) := Nat → Except Error (α × Nat)

namespace Rpc

def pure {α : Type} (value : α) : Rpc α := fun calls => .ok (value, calls)

def fail {α : Type} (error : Error) : Rpc α := fun _ => .error error

def bind {α β : Type} (first : Rpc α) (next : α → Rpc β) : Rpc β := fun calls =>
  match first calls with
  | .error error => .error error
  | .ok (value, calls) => next value calls

def ofExcept {α : Type} : Except Error α → Rpc α
  | .ok value => pure value
  | .error error => fail error

end Rpc

instance : Monad Rpc where
  pure := Rpc.pure
  bind := Rpc.bind

section Calls

variable {block : BlockHash → Block} (backend : Backend block)

/-- One call, answered from the chain active at it. -/
def call {α : Type} (answer : Chain block → α) : Rpc α := fun calls =>
  match backend calls with
  | .error error => .error error
  | .ok chain => .ok (answer chain, calls + 1)

def tipHeight : Rpc Nat := call backend (fun chain => (chain.hashes.length - 1) % 2 ^ 32)

/-- A height above the tip is `None`, not an error. -/
def blockHashAt (height : Nat) : Rpc (Option BlockHash) := call backend (fun chain => chain.hashes[height]?)

/-- `getblockhash` as the traversal calls it: a height above the tip is the RPC's own error. -/
def getblockhash (height : Nat) : Rpc BlockHash := do
  match ← call backend (fun chain => chain.hashes[height]?) with
  | some hash => pure hash
  | none => Rpc.fail "bitcoind getblockhash: \x7b\"code\":-8,\"message\":\"Block height out of range\"\x7d"

/-- `getblock` reads the block store, which keeps the blocks of every fork. -/
def getblock (hash : BlockHash) : Rpc Block := call backend (fun _ => block hash)

end Calls

structure SpendSeen where
  spendTxid : Txid
  outpoint : OutPoint
  script : Script
  witness : List Bytes
  deriving DecidableEq, Repr

structure ScanTraversal where
  spends : List SpendSeen
  blocks : List (Nat × BlockHash)

/-- The watched spends among the inputs of a block, each with the transaction it is in. -/
def spendsIn (watched : List Script) : List (Txid × Vin) → Except Error (List SpendSeen)
  | [] => .ok []
  | (spendTxid, vin) :: rest =>
    -- A coinbase input spends nothing; any other input must show its prevout.
    if vin.coinbase then spendsIn watched rest
    else match vin.prevout with
      | none => .error "getblock: non-coinbase input has no prevout (verbosity 3 required)"
      | some script =>
        if script ∈ watched then do
          let later ← spendsIn watched rest
          .ok (⟨spendTxid, ⟨vin.txid, vin.vout % 2 ^ 32⟩, script, vin.txinwitness⟩ :: later)
        else spendsIn watched rest

def Block.inputs (block : Block) : List (Txid × Vin) :=
  block.tx.flatMap (fun tx => tx.vin.map (fun vin => (tx.txid, vin)))

section SpendsOf

variable {block : BlockHash → Block} (backend : Backend block) (watched : List Script)
  (expectedParent : Option BlockHash)

/-- The first block must name `expectedParent`, if there is one, and each later block the one before. -/
def checkParent (height : Nat) (required parent : Option BlockHash) : Except Error Unit :=
  match required with
  | none => .ok ()
  | some required => match parent with
    | none => .error "getblock: block has no previousblockhash (verbosity 3 required)"
    | some parent =>
      if parent = required then .ok ()
      else
        let shown := blockHashToString required
        .error (s!"getblock: block at height {height} does not chain onto the expected parent {shown} "
          ++ "(a reorg raced the scan); refusing to bind a mixed-fork or unrooted scan and re-scanning next pass")

/-- The loop of `spends_of` over `count` heights from `height` on. The last block scanned is the last
entry of `blocks`. -/
def scanHeights : (count height : Nat) → ScanTraversal → Rpc ScanTraversal
  | 0, _, done => pure done
  | count + 1, height, done => do
    let hash ← getblockhash backend height
    let contents ← getblock backend hash
    let required := match done.blocks.getLast? with
      | some (_, previous) => some previous
      | none => expectedParent
    Rpc.ofExcept (checkParent height required contents.previousblockhash)
    let seen ← Rpc.ofExcept (spendsIn watched contents.inputs)
    scanHeights count (height + 1) ⟨done.spends ++ seen, done.blocks ++ [(height, hash)]⟩

def spendsOf (fromHeight throughHeight : Nat) : Rpc ScanTraversal := do
  let traversal ← scanHeights backend watched expectedParent (throughHeight + 1 - fromHeight) fromHeight ⟨[], []⟩
  match traversal.blocks.getLast? with
  | none => pure traversal
  | some (height, hash) =>
    let active ← getblockhash backend height
    if active = hash then pure traversal
    else
      let shown := blockHashToString hash
      Rpc.fail (s!"getblockhash: block {shown} scanned at height {height} is no longer the active block "
        ++ "there (a reorg raced the scan); refusing to bind an abandoned fork's spends and re-scanning next pass")

end SpendsOf

inductive AlertKind
  | recoveryPathSpend
  | unrecognizedSpend
  deriving DecidableEq, Repr

structure Alert where
  kind : AlertKind
  spendTxid : String
  outpoint : String
  script : String
  deriving DecidableEq, Repr

def outPointToString (outpoint : OutPoint) : String := s!"{txidToString outpoint.txid}:{outpoint.vout}"

def Alert.fromSpend (kind : AlertKind) (spend : SpendSeen) : Alert where
  kind := kind
  spendTxid := txidToString spend.spendTxid
  outpoint := outPointToString spend.outpoint
  script := toHex spend.script

/-- The element before the witness script selects the branch; an empty one is the recovery branch. -/
def isRecoveryBranch (witness : List Bytes) : Bool :=
  match witness.reverse with
  | _ :: selector :: _ => selector.isEmpty
  | _ => false

def classifySpend (authorized : List Txid) (spend : SpendSeen) : Option Alert :=
  if isRecoveryBranch spend.witness then some (Alert.fromSpend .recoveryPathSpend spend)
  else if spend.spendTxid ∈ authorized then none
  else some (Alert.fromSpend .unrecognizedSpend spend)

def classify (spends : List SpendSeen) (authorized : List Txid) : List Alert :=
  spends.filterMap (classifySpend authorized)

structure FreshnessEvent where
  peerNodeId : Nat
  rejectCount : Nat
  skewSecs : Int
  deriving DecidableEq, Repr

/-- The queue is shared with the channel's freshness diagnostics. -/
inductive QueuedEvent
  | watchtower (alert : Alert)
  | channelFreshness (event : FreshnessEvent)
  deriving DecidableEq, Repr

structure QueueEntry where
  sequence : Nat
  key : String
  event : QueuedEvent
  deriving DecidableEq, Repr

/-- What was last published for a peer, kept apart from the entries, which may be evicted. -/
structure PublishedFreshness where
  ingressHighWater : Nat
  rejectCount : Nat
  deriving DecidableEq, Repr

/-- Oldest entry first. -/
structure AlertQueue where
  entries : List QueueEntry
  nextSeq : Nat
  seen : Finset String
  publishedFreshness : Map Nat PublishedFreshness
  cap : Nat

def AlertQueue.new (cap : Nat) : AlertQueue := ⟨[], 1, ∅, ∅, cap⟩

/-- Over the cap the oldest entries go, and their keys with them. -/
def evictOldest (cap : Nat) : List QueueEntry → Finset String → List QueueEntry × Finset String
  | [], seen => ([], seen)
  | entry :: rest, seen =>
    if cap < rest.length + 1 then evictOldest cap rest (seen.erase entry.key) else (entry :: rest, seen)

def AlertQueue.append (queue : AlertQueue) (key : String) (event : QueuedEvent) : AlertQueue :=
  let kept := evictOldest queue.cap (queue.entries ++ [⟨queue.nextSeq, key, event⟩]) queue.seen
  { queue with entries := kept.1, seen := kept.2, nextSeq := queue.nextSeq + 1 }

/-- A spend already alerted is dropped; the flag says whether the alert is new. -/
def AlertQueue.push (queue : AlertQueue) (alert : Alert) : AlertQueue × Bool :=
  let key := s!"{alert.spendTxid}:{alert.outpoint}"
  if key ∈ queue.seen then (queue, false)
  else (AlertQueue.append { queue with seen := insert key queue.seen } key (.watchtower alert), true)

/-- The loop at the end of a pass, and how many alerts it queued. -/
def queueAlerts (queue : AlertQueue) (alerts : List Alert) : AlertQueue × Nat :=
  alerts.foldl
    (fun (queue, queued) alert =>
      let (queue, fresh) := queue.push alert
      (queue, if fresh then queued + 1 else queued))
    (queue, 0)

def maxReorgDepth : Nat := 100

/-- `anchors` is oldest first. -/
structure ScanCursor where
  anchors : List (Nat × BlockHash)
  nextFrom : Nat
  deriving DecidableEq, Repr

def ScanCursor.startingAt (fromHeight : Nat) : ScanCursor := ⟨[], fromHeight⟩

def ScanCursor.new : ScanCursor := ScanCursor.startingAt 0

section Pass

variable {block : BlockHash → Block} (backend : Backend block)

/-- The walk over the anchors, newest first, for one whose block is still active. Every anchor costs a
call, the newest one a second call. -/
def findFork : List (Nat × BlockHash) → Rpc (Option Nat)
  | [] => pure none
  | (height, hash) :: older => do
    let active ← blockHashAt backend height
    if active = some hash then pure (some height) else findFork older

/-- The cursor is written only after the last call, so an error leaves it as it was. -/
def reconcileCursor (cursor : ScanCursor) : Rpc ScanCursor := do
  match cursor.anchors.getLast? with
  | none => pure cursor
  | some (anchorHeight, anchorHash) =>
    let active ← blockHashAt backend anchorHeight
    if active = some anchorHash then pure cursor
    else
      match ← findFork backend cursor.anchors.reverse with
      | some forkHeight =>
        pure ⟨cursor.anchors.rdropWhile (fun anchor => decide (forkHeight < anchor.1)), forkHeight + 1⟩
      | none => pure ⟨[], 0⟩

/-- The push loop of `extend_anchors`, which refuses a gap. -/
def pushAnchors : List (Nat × BlockHash) → List (Nat × BlockHash) → Except Error (List (Nat × BlockHash))
  | anchors, [] => .ok anchors
  | anchors, (height, hash) :: rest =>
    match anchors.getLast? with
    | none => pushAnchors (anchors ++ [(height, hash)]) rest
    | some (back, _) =>
      if height = back + 1 then pushAnchors (anchors ++ [(height, hash)]) rest
      else .error (s!"watchtower: validated block at height {height} is not contiguous with the "
        ++ s!"retained anchor at {back}; refusing to record a gapped cursor")

def extendAnchors (cursor : ScanCursor) (blocks : List (Nat × BlockHash)) (fromHeight tip : Nat) :
    Except Error ScanCursor :=
  if tip < fromHeight then .ok cursor
  else do
    let lo := max fromHeight (tip - maxReorgDepth)
    -- A jump of more than a window would leave a gap, so the older anchors go.
    let retained := match cursor.anchors.getLast? with
      | some (height, _) => if height + 1 < lo then [] else cursor.anchors
      | none => cursor.anchors
    let start := match retained.getLast? with
      | some (height, _) => max (height + 1) lo
      | none => lo
    let pushed ← pushAnchors retained (blocks.filter (fun entry => decide (start ≤ entry.1)))
    .ok { cursor with anchors := pushed.drop (pushed.length - (maxReorgDepth + 1)) }

/-- How a pass ends. A committed pass carries the traversal its alerts come from, and the number of
alerts that were new. -/
inductive PassEnd
  | failed (error : Error)
  | shorter
  | committed (traversal : ScanTraversal) (newAlerts : Nat)

/-- The `Result<ScanOutcome, Error>` of `scan_pass`. -/
def PassEnd.result : PassEnd → Except Error Nat
  | .failed error => .error error
  | .shorter => .ok 0
  | .committed _ newAlerts => .ok newAlerts

/-- What a pass reads besides the cursor and the backend. -/
structure Shared where
  vaultScripts : List Script
  authorized : List Txid
  alerts : AlertQueue

structure Pass where
  finish : PassEnd
  cursor : ScanCursor
  alerts : AlertQueue

/-- The part of `scan_pass` between the reconciled cursor and the queue: `none` when the chain is
shorter than the newest anchor, else the traversal and the advanced cursor. -/
def scanFrom (vaultScripts : List Script) (cursor : ScanCursor) : Rpc (Option (ScanTraversal × ScanCursor)) := do
  let tip ← tipHeight backend
  if (cursor.anchors.getLast?).any (fun anchor => decide (tip < anchor.1)) then pure none
  else
    match ← blockHashAt backend tip with
    | none => Rpc.fail s!"watchtower: active tip at height {tip} vanished before the scan; refusing to advance"
    | some tipHash =>
      let expectedParent := cursor.anchors.getLast?.map (fun anchor => anchor.2)
      let traversal ← spendsOf backend vaultScripts expectedParent cursor.nextFrom tip
      let advanced ← Rpc.ofExcept (extendAnchors cursor traversal.blocks cursor.nextFrom tip)
      let active ← blockHashAt backend tip
      if active = some tipHash then
        pure (some (traversal, { advanced with nextFrom := min (tip + 1) maxU32 }))
      else Rpc.fail (s!"watchtower: active block hash at captured tip height {tip} changed while scanning; "
        ++ "refusing to bind scan results to a different fork or advance the cursor")

/-- The cursor keeps what `reconcile_cursor` did to it even when the pass fails later. -/
def scanPass (shared : Shared) (cursor : ScanCursor) : Pass :=
  match reconcileCursor backend cursor 0 with
  | .error error => ⟨.failed error, cursor, shared.alerts⟩
  | .ok (cursor, calls) =>
    match scanFrom backend shared.vaultScripts cursor calls with
    | .error error => ⟨.failed error, cursor, shared.alerts⟩
    | .ok (none, _) => ⟨.shorter, cursor, shared.alerts⟩
    | .ok (some (traversal, advanced), _) =>
      let (alerts, queued) := queueAlerts shared.alerts (classify traversal.spends shared.authorized)
      ⟨.committed traversal queued, advanced, alerts⟩

end Pass

section Inversion

theorem bind_eq_ok {α β : Type} {first : Rpc α} {next : α → Rpc β} {calls : Nat} {result : β × Nat} :
    (first >>= next) calls = .ok result ↔
      ∃ value later, first calls = .ok (value, later) ∧ next value later = .ok result := by
  change Rpc.bind first next calls = _ ↔ _
  unfold Rpc.bind
  cases first calls with
  | error error => simp
  | ok reply =>
    obtain ⟨value, later⟩ := reply
    simp

theorem pure_eq_ok {α : Type} {value : α} {calls : Nat} {result : α × Nat} :
    (pure value : Rpc α) calls = .ok result ↔ result = (value, calls) := by
  change Except.ok (value, calls) = _ ↔ _
  rw [Except.ok.injEq]
  exact eq_comm

theorem ofExcept_eq_ok {α : Type} {outcome : Except Error α} {calls : Nat} {result : α × Nat} :
    Rpc.ofExcept outcome calls = .ok result ↔ ∃ value, outcome = .ok value ∧ result = (value, calls) := by
  cases outcome with
  | error error => simp [Rpc.ofExcept, Rpc.fail]
  | ok value =>
    change (pure value : Rpc α) calls = _ ↔ _
    simp [pure_eq_ok]

theorem fail_ne_ok {α : Type} {error : Error} {calls : Nat} {result : α × Nat} :
    ¬(Rpc.fail error : Rpc α) calls = .ok result := by simp [Rpc.fail]

variable {block : BlockHash → Block} {backend : Backend block} {calls : Nat}

theorem call_eq_ok {α : Type} {answer : Chain block → α} {result : α × Nat}
    (done : call backend answer calls = .ok result) : ∃ chain, result.1 = answer chain := by
  unfold call at done
  cases reply : backend calls with
  | error error => simp [reply] at done
  | ok chain =>
    rw [reply, Except.ok.injEq] at done
    exact ⟨chain, done ▸ rfl⟩

theorem getblockhash_ok {height : Nat} {result : BlockHash × Nat}
    (done : getblockhash backend height calls = .ok result) :
    ∃ chain : Chain block, chain.hashes[height]? = some result.1 := by
  obtain ⟨found, later, asked, rest⟩ := bind_eq_ok.mp done
  obtain ⟨chain, answer⟩ := call_eq_ok asked
  cases found with
  | none => exact absurd rest fail_ne_ok
  | some hash =>
    rw [pure_eq_ok.mp rest]
    exact ⟨chain, answer.symm⟩

theorem getblock_ok {hash : BlockHash} {result : Block × Nat} (done : getblock backend hash calls = .ok result) :
    result.1 = block hash := by
  obtain ⟨_, answer⟩ := call_eq_ok done
  exact answer

theorem tipHeight_ok {result : Nat × Nat} (done : tipHeight backend calls = .ok result) :
    result.1 + 1 ≤ maxU32 := by
  obtain ⟨chain, answer⟩ := call_eq_ok done
  have size := chain.bounded
  have positive := List.length_pos_iff.mpr chain.nonempty
  simp only [maxU32] at size ⊢
  omega

/-- The block at height zero has no parent, on any chain. -/
theorem parentOf_genesis (chain : Chain block) {hash : BlockHash} (first : chain.hashes[0]? = some hash) :
    parentOf block hash = none :=
  chain.rooted.root hash (by rw [List.head?_eq_getElem?]; exact first)

theorem checkParent_ok {height : Nat} {required parent : Option BlockHash}
    (passed : checkParent height required parent = .ok ()) : ∀ hash, required = some hash → parent = some hash := by
  rintro hash rfl
  cases parent with
  | none => simp [checkParent] at passed
  | some parent =>
    by_cases same : parent = hash
    · rw [same]
    · simp [checkParent, same] at passed

end Inversion

section Traversal

variable {block : BlockHash → Block} {backend : Backend block} {watched : List Script}
  {expectedParent : Option BlockHash}

/-- The spends a block shows of the watched scripts; an input without its prevout shows none. -/
def spendsShown (watched : List Script) (block : Block) : List SpendSeen :=
  match spendsIn watched block.inputs with
  | .ok spends => spends
  | .error _ => []

/-- What the loop adds: blocks at the next heights, each the child of the one before, with the spends
they show. -/
structure Traversed (block : BlockHash → Block) (watched : List Script) (expectedParent : Option BlockHash)
    (height : Nat) (before after : ScanTraversal) (hashes : List BlockHash) : Prop where
  blocks : after.blocks = before.blocks ++ numbered height hashes
  linked : Linked (parentOf block)
    ((((before.blocks.getLast?).map Prod.snd).or expectedParent).toList ++ hashes)
  genesis : height = 0 → ∀ hash, hashes.head? = some hash → parentOf block hash = none
  spends : after.spends = before.spends ++ hashes.flatMap (fun hash => spendsShown watched (block hash))

theorem scanHeights_ok {count height calls : Nat} {before : ScanTraversal} {result : ScanTraversal × Nat}
    (done : scanHeights backend watched expectedParent count height before calls = .ok result) :
    ∃ hashes, hashes.length = count ∧
      Traversed block watched expectedParent height before result.1 hashes := by
  induction count generalizing height calls before with
  | zero =>
    rw [scanHeights, pure_eq_ok] at done
    refine ⟨[], rfl, ?_, ?_, by simp, ?_⟩
    · simp [done]
    · rw [List.append_nil]
      cases ((before.blocks.getLast?).map Prod.snd).or expectedParent with
      | none => exact List.isChain_nil
      | some hash => exact List.isChain_singleton hash
    · simp [done]
  | succ count ih =>
    rw [scanHeights] at done
    obtain ⟨hash, _, asked, hashed⟩ := bind_eq_ok.mp done
    obtain ⟨contents, _, read, fetched⟩ := bind_eq_ok.mp hashed
    obtain ⟨_, _, checked, rooted⟩ := bind_eq_ok.mp fetched
    obtain ⟨seen, _, listed, looped⟩ := bind_eq_ok.mp rooted
    obtain ⟨chain, active⟩ := getblockhash_ok asked
    have contentsEq : contents = block hash := getblock_ok read
    subst contentsEq
    obtain ⟨_, passed, _⟩ := ofExcept_eq_ok.mp checked
    obtain ⟨_, spends, sameSeen⟩ := ofExcept_eq_ok.mp listed
    simp only [Prod.mk.injEq] at sameSeen
    obtain ⟨rfl, _⟩ := sameSeen
    obtain ⟨hashes, length, rest⟩ := ih looped
    have child := checkParent_ok passed
    refine ⟨hash :: hashes, by simp [length], ?_, ?_, ?_, ?_⟩
    · rw [rest.blocks, numbered_cons]
      simp
    · have tail : Linked (parentOf block) (hash :: hashes) := by simpa using rest.linked
      cases required : ((before.blocks.getLast?).map Prod.snd).or expectedParent with
      | none => exact tail
      | some parent =>
        refine List.IsChain.cons_cons ?_ tail
        apply child
        rw [← required]
        cases before.blocks.getLast? with
        | none => simp
        | some last => simp
    · intro bottom first same
      simp only [List.head?_cons, Option.some.injEq] at same
      subst same
      subst bottom
      exact parentOf_genesis chain active
    · rw [rest.spends, List.flatMap_cons, List.append_assoc]
      simp [spendsShown, spends]

theorem spendsOf_ok {fromHeight throughHeight calls : Nat} {result : ScanTraversal × Nat}
    (done : spendsOf backend watched expectedParent fromHeight throughHeight calls = .ok result) :
    ∃ hashes, hashes.length = throughHeight + 1 - fromHeight ∧
      Traversed block watched expectedParent fromHeight ⟨[], []⟩ result.1 hashes := by
  obtain ⟨traversal, later, scanned, done⟩ := bind_eq_ok.mp done
  have same : result.1 = traversal := by
    cases last : traversal.blocks.getLast? with
    | none =>
      rw [last] at done
      rw [pure_eq_ok.mp done]
    | some entry =>
      rw [last] at done
      obtain ⟨active, _, _, done⟩ := bind_eq_ok.mp done
      split at done
      · rw [pure_eq_ok.mp done]
      · exact absurd done fail_ne_ok
  rw [same]
  exact scanHeights_ok scanned

end Traversal

section Cursor

variable {block : BlockHash → Block}

/-- The cursor stands for a chain that has been scanned from its first block on: its anchors are the
top of that chain, and the next height is one past it. -/
structure Follows (block : BlockHash → Block) (scanned : Nat → BlockHash → Prop) (cursor : ScanCursor)
    (chain : List BlockHash) : Prop where
  rooted : Rooted (parentOf block) chain
  next : cursor.nextFrom = chain.length
  anchors : ∃ oldest, cursor.anchors = (numbered 0 chain).drop oldest
  short : cursor.anchors.length ≤ maxReorgDepth + 1
  anchored : cursor.anchors = [] → chain = []
  covered : ∀ height hash, chain[height]? = some hash → scanned height hash

variable {scanned : Nat → BlockHash → Prop} {cursor : ScanCursor} {chain : List BlockHash}

theorem follows_new : Follows block scanned ScanCursor.new [] where
  rooted := rooted_nil
  next := rfl
  anchors := ⟨0, rfl⟩
  short := Nat.zero_le _
  anchored := fun _ => rfl
  covered := by simp

theorem Follows.newest (follows : Follows block scanned cursor chain) {height : Nat} {hash : BlockHash}
    (last : cursor.anchors.getLast? = some (height, hash)) :
    chain.getLast? = some hash ∧ height + 1 = chain.length := by
  obtain ⟨oldest, anchors⟩ := follows.anchors
  rw [anchors, List.getLast?_drop] at last
  split at last
  · simp at last
  · obtain ⟨top, height⟩ := getLast_numbered last
    exact ⟨top, by simpa using height⟩

theorem Follows.mono {scanned' : Nat → BlockHash → Prop} (follows : Follows block scanned cursor chain)
    (more : ∀ height hash, scanned height hash → scanned' height hash) : Follows block scanned' cursor chain :=
  { follows with covered := fun height hash here => more _ _ (follows.covered height hash here) }

theorem findFork_ok {backend : Backend block} {anchors : List (Nat × BlockHash)} {calls : Nat}
    {result : Option Nat × Nat} (done : findFork backend anchors calls = .ok result) :
    ∀ fork, result.1 = some fork → ∃ hash, (fork, hash) ∈ anchors := by
  induction anchors generalizing calls with
  | nil =>
    rw [findFork, pure_eq_ok] at done
    simp [done]
  | cons anchor older ih =>
    obtain ⟨height, hash⟩ := anchor
    rw [findFork] at done
    obtain ⟨active, _, _, rest⟩ := bind_eq_ok.mp done
    intro fork found
    split at rest
    · rw [pure_eq_ok.mp rest, Option.some.injEq] at found
      exact ⟨hash, by simp [found]⟩
    · obtain ⟨hash, member⟩ := ih rest fork found
      exact ⟨hash, List.mem_cons_of_mem _ member⟩

/-- Rewinding to a retained anchor leaves the chain up to it. -/
theorem Follows.rewind (follows : Follows block scanned cursor chain) {fork : Nat} {hash : BlockHash}
    (member : (fork, hash) ∈ cursor.anchors) :
    Follows block scanned ⟨cursor.anchors.rdropWhile (fun anchor => decide (fork < anchor.1)), fork + 1⟩
      (chain.take (fork + 1)) ∧ fork + 1 ≤ cursor.nextFrom := by
  obtain ⟨oldest, anchors⟩ := follows.anchors
  rw [anchors, numbered_drop, Nat.zero_add] at member
  obtain ⟨i, found, height⟩ := mem_numbered.mp member
  have inside : oldest + i < chain.length := by
    have bound := (List.getElem?_eq_some_iff.mp found).1
    rw [List.length_drop] at bound
    omega
  simp only at height
  have kept : cursor.anchors.rdropWhile (fun anchor => decide (fork < anchor.1)) =
      (numbered 0 (chain.take (fork + 1))).drop oldest := by
    rw [anchors, numbered_drop, numbered_drop, Nat.zero_add, rdropWhile_numbered _ _ _ (by omega), List.drop_take]
  refine ⟨⟨follows.rooted.take _, ?_, ⟨oldest, kept⟩, ?_, ?_, ?_⟩, ?_⟩
  · rw [List.length_take]
    simp only
    omega
  · exact (List.IsPrefix.length_le (List.rdropWhile_prefix _ _)).trans follows.short
  · intro empty
    rw [kept, List.drop_eq_nil_iff, length_numbered, List.length_take] at empty
    omega
  · intro height hash here
    rw [List.getElem?_take] at here
    split at here
    · exact follows.covered height hash here
    · simp at here
  · rw [follows.next]
    omega

/-- Reconciling only shortens the chain the cursor stands for. -/
theorem Follows.reconcile (follows : Follows block scanned cursor chain) {backend : Backend block}
    {calls : Nat} {result : ScanCursor × Nat} (done : reconcileCursor backend cursor calls = .ok result) :
    (∃ shorter, Follows block scanned result.1 shorter) ∧ result.1.nextFrom ≤ cursor.nextFrom ∧
      result.1.anchors <+: cursor.anchors := by
  have same : ∀ {later : Nat}, result = (cursor, later) → (∃ shorter, Follows block scanned result.1 shorter) ∧
      result.1.nextFrom ≤ cursor.nextFrom ∧ result.1.anchors <+: cursor.anchors := by
    rintro later rfl
    exact ⟨⟨chain, follows⟩, Nat.le_refl _, List.prefix_rfl⟩
  cases last : cursor.anchors.getLast? with
  | none =>
    simp only [reconcileCursor, last] at done
    exact same (pure_eq_ok.mp done)
  | some newest =>
    simp only [reconcileCursor, last] at done
    obtain ⟨active, _, _, checked⟩ := bind_eq_ok.mp done
    split at checked
    · exact same (pure_eq_ok.mp checked)
    · obtain ⟨fork, _, walked, rest⟩ := bind_eq_ok.mp checked
      cases fork with
      | none =>
        rw [pure_eq_ok.mp rest]
        exact ⟨⟨[], follows_new⟩, Nat.zero_le _, List.nil_prefix⟩
      | some fork =>
        obtain ⟨hash, member⟩ := findFork_ok walked fork rfl
        obtain ⟨rewound, lower⟩ := follows.rewind (List.mem_reverse.mp member)
        rw [pure_eq_ok.mp rest]
        exact ⟨⟨_, rewound⟩, lower, List.rdropWhile_prefix _ _⟩

theorem pushAnchors_ok (anchors blocks : List (Nat × BlockHash)) (consecutive : Consecutive (anchors ++ blocks)) :
    pushAnchors anchors blocks = .ok (anchors ++ blocks) := by
  induction blocks generalizing anchors with
  | nil => rw [pushAnchors, List.append_nil]
  | cons entry rest ih =>
    obtain ⟨height, hash⟩ := entry
    have grown : pushAnchors (anchors ++ [(height, hash)]) rest = .ok (anchors ++ (height, hash) :: rest) := by
      have moved : anchors ++ (height, hash) :: rest = anchors ++ [(height, hash)] ++ rest := by simp
      rw [moved] at consecutive ⊢
      exact ih _ consecutive
    cases last : anchors.getLast? with
    | none => simp only [pushAnchors, last, grown]
    | some back =>
      have above : height = back.1 + 1 := (List.isChain_append.mp consecutive).2.2 back last (height, hash) rfl
      simp only [pushAnchors, last, if_pos above, grown]

/-- The anchors kept and the blocks pushed are together the top of the longer chain. -/
theorem Follows.retained (follows : Follows block scanned cursor chain) {hashes : List BlockHash} {tip lo : Nat}
    (top : tip + 1 = chain.length + hashes.length) (low : lo = max chain.length (tip - maxReorgDepth)) :
    let retained := match cursor.anchors.getLast? with
      | some (height, _) => if height + 1 < lo then [] else cursor.anchors
      | none => cursor.anchors
    let start := match retained.getLast? with
      | some (height, _) => max (height + 1) lo
      | none => lo
    ∃ oldest, retained ++ (numbered chain.length hashes).filter (fun entry => decide (start ≤ entry.1)) =
      (numbered 0 (chain ++ hashes)).drop oldest ∧ (hashes ≠ [] → oldest ≤ tip) := by
  have tail : ∀ bound, chain.length ≤ bound → (numbered chain.length hashes).filter
      (fun entry => decide (bound ≤ entry.1)) = (numbered 0 (chain ++ hashes)).drop bound := by
    intro bound inside
    have past : (numbered 0 chain).drop bound = [] :=
      List.drop_eq_nil_of_le (by rw [length_numbered]; exact inside)
    rw [filter_numbered, numbered_append, Nat.zero_add, List.drop_append, length_numbered, past, List.nil_append]
  have nonempty : hashes ≠ [] → lo ≤ tip := by
    intro some
    have positive := List.length_pos_iff.mpr some
    omega
  cases last : cursor.anchors.getLast? with
  | none =>
    rw [List.getLast?_eq_none_iff] at last
    simp only [last, List.getLast?_nil, List.nil_append]
    exact ⟨lo, tail lo (by omega), nonempty⟩
  | some newest =>
    obtain ⟨_, height⟩ := follows.newest last
    by_cases gap : newest.1 + 1 < lo
    · simp only [if_pos gap, List.getLast?_nil, List.nil_append]
      exact ⟨lo, tail lo (by omega), nonempty⟩
    · simp only [if_neg gap, last]
      have start : max (newest.1 + 1) lo = chain.length := by omega
      obtain ⟨oldest, anchors⟩ := follows.anchors
      have inside : oldest < chain.length := by
        by_contra outside
        rw [anchors, List.drop_eq_nil_of_le (by rw [length_numbered]; omega)] at last
        simp at last
      refine ⟨oldest, ?_, by omega⟩
      have all : (numbered chain.length hashes).filter (fun entry => decide (chain.length ≤ entry.1)) =
          numbered chain.length hashes := by rw [filter_numbered, Nat.sub_self, List.drop_zero]
      rw [start, all, anchors, numbered_append, Nat.zero_add,
        List.drop_append_of_le_length (by rw [length_numbered]; omega)]

/-- Extending over a traversal that starts at the next height never meets a gap. -/
theorem Follows.extendAnchors (follows : Follows block scanned cursor chain) {hashes : List BlockHash} {tip : Nat}
    (some : hashes ≠ []) (top : tip + 1 = chain.length + hashes.length) :
    ∃ oldest, extendAnchors cursor (numbered chain.length hashes) chain.length tip =
        .ok { cursor with anchors := (numbered 0 (chain ++ hashes)).drop oldest } ∧ oldest ≤ tip ∧
      ((numbered 0 (chain ++ hashes)).drop oldest).length ≤ maxReorgDepth + 1 := by
  obtain ⟨oldest, pushed, inside⟩ := follows.retained top rfl
  have positive := List.length_pos_iff.mpr some
  have long : ¬tip < chain.length := by omega
  have consecutive : Consecutive ((numbered 0 (chain ++ hashes)).drop oldest) := by
    rw [numbered_drop]
    exact consecutive_numbered _ _
  have size : ((numbered 0 (chain ++ hashes)).drop oldest).length = chain.length + hashes.length - oldest := by
    rw [List.length_drop, length_numbered, List.length_append]
  rw [← pushed] at consecutive
  have grown := pushAnchors_ok _ _ consecutive
  rw [pushed] at grown
  refine ⟨oldest + (chain.length + hashes.length - oldest - (maxReorgDepth + 1)), ?_, ?_, ?_⟩
  · unfold Watchtower.extendAnchors
    rw [if_neg long]
    simp only [grown, bind, Except.bind, List.drop_drop, size]
  · have bound := inside some
    simp only [maxReorgDepth]
    omega
  · rw [List.length_drop, length_numbered, List.length_append]
    omega

/-- A traversal from the next height on, rooted on the newest anchor, continues the scanned chain. -/
theorem Follows.rooted_append (follows : Follows block scanned cursor chain) {watched : List Script}
    {traversal : ScanTraversal} {hashes : List BlockHash}
    (traversed : Traversed block watched (cursor.anchors.getLast?.map (fun anchor => anchor.2)) chain.length
      ⟨[], []⟩ traversal hashes) : Rooted (parentOf block) (chain ++ hashes) := by
  have linked := traversed.linked
  simp only [List.getLast?_nil, Option.map_none, Option.none_or] at linked
  constructor
  · refine List.isChain_append.mpr ⟨follows.rooted.linked, (List.isChain_append.mp linked).2.1, ?_⟩
    intro lower last upper first
    cases newest : cursor.anchors.getLast? with
    | none =>
      rw [follows.anchored (List.getLast?_eq_none_iff.mp newest)] at last
      simp at last
    | some anchor =>
      obtain ⟨top, _⟩ := follows.newest newest
      have same : lower = anchor.2 := Option.some.inj (last.symm.trans top)
      rw [newest] at linked
      exact (List.isChain_append.mp linked).2.2 lower (by simp [same]) upper first
  · intro hash first
    cases chain with
    | nil => exact traversed.genesis rfl hash first
    | cons bottom rest => exact follows.rooted.root hash first

/-- What `scan_pass` does after reconciling: a committed traversal continues the chain, and the cursor
stands for the longer chain. -/
theorem Follows.scanFrom (follows : Follows block scanned cursor chain) {backend : Backend block}
    {vaultScripts : List Script} {calls later : Nat} {traversal : ScanTraversal} {advanced : ScanCursor}
    (done : scanFrom backend vaultScripts cursor calls = .ok (some (traversal, advanced), later)) :
    ∃ hashes, Traversed block vaultScripts (cursor.anchors.getLast?.map (fun anchor => anchor.2)) chain.length
        ⟨[], []⟩ traversal hashes ∧
      Follows block (fun height hash => scanned height hash ∨ (height, hash) ∈ traversal.blocks) advanced
        (chain ++ hashes) := by
  obtain ⟨tip, _, read, tipped⟩ := bind_eq_ok.mp done
  have fits := tipHeight_ok read
  simp only at fits
  split at tipped
  · simpa using pure_eq_ok.mp tipped
  · rename_i taller
    obtain ⟨tipHash, _, _, hashed⟩ := bind_eq_ok.mp tipped
    cases tipHash with
    | none => exact absurd hashed fail_ne_ok
    | some tipHash =>
      obtain ⟨found, _, scan, scannedBlocks⟩ := bind_eq_ok.mp hashed
      obtain ⟨longer, _, extended, rechecked⟩ := bind_eq_ok.mp scannedBlocks
      obtain ⟨active, _, _, decided⟩ := bind_eq_ok.mp rechecked
      split at decided
      · have ends := pure_eq_ok.mp decided
        simp only [Prod.mk.injEq, Option.some.injEq] at ends
        obtain ⟨⟨rfl, rfl⟩, _⟩ := ends
        obtain ⟨hashes, length, traversed⟩ := spendsOf_ok scan
        rw [follows.next] at traversed length
        have blocks : traversal.blocks = numbered chain.length hashes := by simpa using traversed.blocks
        obtain ⟨_, extension, same⟩ := ofExcept_eq_ok.mp extended
        simp only [Prod.mk.injEq] at same
        obtain ⟨rfl, _⟩ := same
        rw [follows.next, blocks] at extension
        have next : min (tip + 1) maxU32 = tip + 1 := Nat.min_eq_left fits
        have rooted := follows.rooted_append traversed
        have covered : ∀ height hash, (chain ++ hashes)[height]? = some hash →
            scanned height hash ∨ (height, hash) ∈ traversal.blocks := by
          intro height hash here
          rw [List.getElem?_append] at here
          split at here
          · exact Or.inl (follows.covered height hash here)
          · right
            rw [blocks]
            exact mem_numbered.mpr ⟨height - chain.length, here, by simp only; omega⟩
        refine ⟨hashes, traversed, ?_⟩
        by_cases caught : hashes = []
        · -- Nothing new: the newest anchor is at the tip already.
          have short : tip < chain.length := by
            simp only [caught, List.length_nil] at length
            omega
          have equal : tip + 1 = chain.length := by
            cases newest : cursor.anchors.getLast? with
            | none => simp [follows.anchored (List.getLast?_eq_none_iff.mp newest)] at short
            | some anchor =>
              obtain ⟨_, height⟩ := follows.newest newest
              simp only [newest, Option.any_some, decide_eq_true_eq] at taller
              omega
          unfold Watchtower.extendAnchors at extension
          rw [if_pos short, Except.ok.injEq] at extension
          subst extension
          subst caught
          rw [List.append_nil] at rooted covered ⊢
          exact ⟨rooted, next.trans equal, follows.anchors, follows.short, follows.anchored, covered⟩
        · have top : tip + 1 = chain.length + hashes.length := by
            have positive := List.length_pos_iff.mpr caught
            omega
          obtain ⟨oldest, result, inside, short⟩ := follows.extendAnchors caught top
          rw [result, Except.ok.injEq] at extension
          subst extension
          refine ⟨rooted, ?_, ⟨oldest, rfl⟩, short, ?_, covered⟩
          · rw [List.length_append]
            exact next.trans top
          · intro empty
            simp only [List.drop_eq_nil_iff, length_numbered, List.length_append] at empty
            omega
      · exact absurd decided fail_ne_ok

end Cursor

section Run

/-- What one pass of the driver meets: the backend's answers, the node's authorized set and the queue as
the rest of the node left them. -/
structure PassInput (block : BlockHash → Block) where
  backend : Backend block
  shared : Shared

variable {block : BlockHash → Block}

def passStep (cursor : ScanCursor) (input : PassInput block) : ScanCursor × Pass :=
  let pass := scanPass input.backend input.shared cursor
  (pass.cursor, pass)

/-- The cursor after a list of passes, failed ones included. -/
def cursorAfter (passes : List (PassInput block)) : ScanCursor := Runs.exec passStep ScanCursor.new passes

/-- Some pass of the run committed a traversal that holds the block. -/
def Scanned (passes : List (PassInput block)) (height : Nat) (hash : BlockHash) : Prop :=
  ∃ event ∈ Runs.trace passStep ScanCursor.new passes, ∃ traversal newAlerts,
    event.reply.finish = .committed traversal newAlerts ∧ (height, hash) ∈ traversal.blocks

/-- A pass that ends without committing changes no alert and moves the cursor back at most; one that
commits queues the alerts of its own traversal. -/
def PassEnd.Honest (input : PassInput block) (before : ScanCursor) (pass : Pass) : PassEnd → Prop
  | .committed traversal newAlerts =>
    queueAlerts input.shared.alerts (classify traversal.spends input.shared.authorized) = (pass.alerts, newAlerts) ∧
      traversal.spends =
        traversal.blocks.flatMap (fun entry => spendsShown input.shared.vaultScripts (block entry.2))
  | _ => pass.alerts = input.shared.alerts ∧ pass.cursor.nextFrom ≤ before.nextFrom ∧
      pass.cursor.anchors <+: before.anchors

/-- One pass over a cursor that stands for a scanned chain. -/
theorem Follows.scanPass {scanned : Nat → BlockHash → Prop} {cursor : ScanCursor} {chain : List BlockHash}
    (follows : Follows block scanned cursor chain) (input : PassInput block) :
    let pass := scanPass input.backend input.shared cursor
    pass.finish.Honest input cursor pass ∧
      ∃ chain, Follows block (fun height hash => scanned height hash ∨ ∃ traversal newAlerts,
        pass.finish = .committed traversal newAlerts ∧ (height, hash) ∈ traversal.blocks) pass.cursor chain := by
  unfold Watchtower.scanPass
  cases reconciled : reconcileCursor input.backend cursor 0 with
  | error error =>
    exact ⟨⟨rfl, Nat.le_refl _, List.prefix_rfl⟩, chain, follows.mono (fun _ _ => Or.inl)⟩
  | ok result =>
    obtain ⟨rewound, calls⟩ := result
    obtain ⟨⟨shorter, behind⟩, lower, front⟩ := follows.reconcile reconciled
    simp only
    cases scan : Watchtower.scanFrom input.backend input.shared.vaultScripts rewound calls with
    | error error => exact ⟨⟨rfl, lower, front⟩, shorter, behind.mono (fun _ _ => Or.inl)⟩
    | ok result =>
      obtain ⟨found, later⟩ := result
      cases found with
      | none => exact ⟨⟨rfl, lower, front⟩, shorter, behind.mono (fun _ _ => Or.inl)⟩
      | some found =>
        obtain ⟨traversal, advanced⟩ := found
        obtain ⟨hashes, traversed, ahead⟩ := behind.scanFrom scan
        refine ⟨⟨rfl, ?_⟩, _, ahead.mono ?_⟩
        · have blocks := traversed.blocks
          rw [List.nil_append] at blocks
          rw [traversed.spends, List.nil_append, blocks, ← map_snd_numbered shorter.length hashes, List.flatMap_map,
            map_snd_numbered]
        · rintro height hash (old | fresh)
          · exact Or.inl old
          · exact Or.inr ⟨traversal, _, rfl, fresh⟩

/-- After any run of passes the cursor stands for a chain that committed passes scanned whole. -/
theorem follows_after (passes : List (PassInput block)) :
    ∃ chain, Follows block (Scanned passes) (cursorAfter passes) chain := by
  induction passes using List.reverseRecOn with
  | nil => exact ⟨[], follows_new⟩
  | append_singleton passes input ih =>
    obtain ⟨chain, follows⟩ := ih
    obtain ⟨_, longer, ahead⟩ := follows.scanPass input
    refine ⟨longer, ?_⟩
    have after : cursorAfter (passes ++ [input]) =
        (scanPass input.backend input.shared (cursorAfter passes)).cursor := Runs.exec_snoc _ _ _ _
    rw [after]
    apply ahead.mono
    rintro height hash (⟨event, member, seen⟩ | seen)
    · exact ⟨event, by rw [Runs.trace_snoc]; exact List.mem_append_left _ member, seen⟩
    · refine ⟨_, by rw [Runs.trace_snoc]; exact List.mem_append_right _ (List.mem_singleton_self _), seen⟩

/-- The watchtower never skips a block: whatever chain each call of each pass is answered from, the
anchors are the top of a chain whose every block was scanned by a committed pass, and a pass that does
not commit changes no alert and never moves the cursor forward. -/
theorem scan_never_skips (passes : List (PassInput block)) :
    let cursor := cursorAfter passes
    Consecutive cursor.anchors ∧ Linked (parentOf block) (cursor.anchors.map Prod.snd) ∧
      cursor.anchors.length ≤ maxReorgDepth + 1 ∧ (cursor.anchors = [] → cursor.nextFrom = 0) ∧
      (∀ height hash, cursor.anchors.getLast? = some (height, hash) →
        cursor.nextFrom = height + 1 ∧
          ∃ chain, Rooted (parentOf block) chain ∧ chain.getLast? = some hash ∧ chain.length = height + 1 ∧
            (∀ other, Rooted (parentOf block) other → other.getLast? = some hash → other = chain) ∧
            ∀ below ancestor, chain[below]? = some ancestor → Scanned passes below ancestor) ∧
      ∀ input : PassInput block,
        let pass := scanPass input.backend input.shared cursor
        pass.finish.Honest input cursor pass := by
  obtain ⟨chain, follows⟩ := follows_after passes
  obtain ⟨oldest, anchors⟩ := follows.anchors
  rw [numbered_drop] at anchors
  refine ⟨?_, ?_, follows.short, ?_, ?_, fun input => (follows.scanPass input).1⟩
  · rw [anchors]
    exact consecutive_numbered _ _
  · rw [anchors, map_snd_numbered]
    exact follows.rooted.linked.drop oldest
  · intro empty
    rw [follows.next, follows.anchored empty]
    rfl
  · intro height hash newest
    obtain ⟨last, top⟩ := follows.newest newest
    refine ⟨follows.next.trans top.symm, chain, follows.rooted, last, top.symm, ?_, follows.covered⟩
    intro other rooted ends
    exact rooted.unique follows.rooted ends last

namespace Sample

/-- Blocks `0 ← 1 ← 2` and a fork `0 ← 9`. -/
def forkBlock (hash : BlockHash) : Block :=
  match hash with
  | [1] => ⟨some [0], []⟩
  | [2] => ⟨some [1], []⟩
  | [9] => ⟨some [0], []⟩
  | _ => ⟨none, []⟩

def longChain : Chain forkBlock where
  hashes := [[0], [1], [2]]
  rooted := ⟨by simp [Linked, parentOf, forkBlock], by simp [parentOf, forkBlock]⟩
  nonempty := by simp
  bounded := by simp [maxU32]

def shortChain : Chain forkBlock where
  hashes := [[0], [9]]
  rooted := ⟨by simp [Linked, parentOf, forkBlock], by simp [parentOf, forkBlock]⟩
  nonempty := by simp
  bounded := by simp [maxU32]

def passOver (backend : Backend forkBlock) : PassInput forkBlock := ⟨backend, [], [], AlertQueue.new 4⟩

/-- A shorter fork between two passes: the second pass rewinds to the first block and scans the fork. -/
example : cursorAfter [passOver (fun _ => .ok longChain), passOver (fun _ => .ok shortChain)] =
    ⟨[(0, [0]), (1, [9])], 2⟩ := by decide

/-- A fork that lands after the tip was read: the pass fails and the cursor stays. -/
example : cursorAfter [passOver (fun _ => .ok longChain),
    passOver (fun calls => .ok (if calls < 2 then longChain else shortChain))] =
    ⟨[(0, [0]), (1, [1]), (2, [2])], 3⟩ := by decide

end Sample

end Run

end BtcPolicy.Watchtower
