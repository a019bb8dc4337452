import BtcPolicy.Lib.Counting
import BtcPolicy.Signer.Compose

/-! The bracket of reads against an honest Core that moves between any two of them: what is accepted is one snapshot,
and a contradiction is reported only where no tip moved. -/

namespace BtcPolicy.Inventory
open FiniteMap Counting Word Bitcoin Results Programs Manifest Node Signer
open Watchtower (BlockHash)

/-! ### An honest Core -/

/-- A confirmed output, with the height of its block. -/
structure Coin where
  value : Nat
  script : Script
  height : Nat
  coinbase : Bool

/-- Where Core stands at one call: its tip, and the outputs its mempool spends. -/
structure World where
  tip : BlockHash
  spent : Finset OutPoint

inductive Call where
  | chainInfo
  | bestBlockHash
  | scanVaultScript (script : Script)
  | txout (outpoint : OutPoint)
  | blockHash (height : Nat)
  | blockTransaction (txid : Txid) (block : BlockHash)
  | feeEstimate
  | feeFloors
  deriving DecidableEq

/-- A Core that stands anywhere at each call: the chain below each tip is one, a scan reports the coins of its tip in
any order and any number of times, and any call may fail. What it says of its identity, its blocks and its fees is
not relied on. -/
structure HonestCore where
  height : BlockHash → Nat
  confirmed : BlockHash → OutPoint → Option Coin
  world : Nat → World
  failure : Nat → Option String
  scanned : Nat → Script → List ScanCoin
  scans : ∀ k script coin, coin ∈ scanned k script ↔ coin.script = script ∧
    ∃ coinbase, confirmed (world k).tip coin.outpoint = some ⟨coin.value, coin.script, coin.height, coinbase⟩
  identity : Nat → ChainIdentity
  initialBlockDownload : Nat → Bool
  block : Nat → Nat → Option BlockHash
  transaction : Nat → Txid → BlockHash → Option RawTransaction
  estimate : Nat → Option Nat
  floors : Nat → Floors

namespace HonestCore

variable (core : HonestCore)

def confirmations (tip : BlockHash) (coin : Coin) : Nat := core.height tip + 1 - coin.height

/-- What is confirmed at the tip and no transaction of the mempool spends. -/
def shown (k : Nat) (outpoint : OutPoint) : Option TxOutView :=
  let tip := (core.world k).tip
  if outpoint ∈ (core.world k).spent then none
  else (core.confirmed tip outpoint).map (fun coin =>
    ⟨tip, core.confirmations tip coin, coin.value, coin.script, coin.coinbase⟩)

/-- The state of a run is the calls it has made, and each call is answered from where Core stands at it. -/
def ask {α : Type} (call : Call) (answer : Nat → α) : Prog (List Call) String α := fun calls =>
  (match core.failure calls.length with
    | some error => .error error
    | none => .ok (answer calls.length), calls ++ [call])

def view : CoreView (List Call) where
  chainInfo := core.ask .chainInfo (fun k =>
    ⟨core.identity k, core.initialBlockDownload k, (core.world k).tip⟩)
  bestBlockHash := core.ask .bestBlockHash (fun k => (core.world k).tip)
  scanVaultScript script := core.ask (.scanVaultScript script) (fun k => ⟨(core.world k).tip, core.scanned k script⟩)
  txout outpoint := core.ask (.txout outpoint) (fun k => core.shown k outpoint)
  blockHash height := core.ask (.blockHash height) (fun k => core.block k height)
  blockTransaction txid block := core.ask (.blockTransaction txid block) (fun k => core.transaction k txid block)
  feeEstimate := core.ask .feeEstimate core.estimate
  feeFloors := core.ask .feeFloors core.floors

/-- The tip that the answer to a call names. -/
def observed (k : Nat) : Call → Option BlockHash
  | .chainInfo | .bestBlockHash | .scanVaultScript _ => some (core.world k).tip
  | .txout outpoint => (core.shown k outpoint).map TxOutView.bestBlock
  | _ => none

end HonestCore

/-! ### The contradictions -/

/-- The refusals of one read by another, which a moved tip would explain. -/
inductive Contradiction : String → Prop where
  | unavailable : Contradiction unavailable
  | record : Contradiction "a gettxout read contradicts its scan record"
  | block (height : Nat) : Contradiction s!"no block at scanned height {height}"
  | absent : Contradiction "a scanned parent is absent from the block at its scanned height"
  | elsewhere : Contradiction "a fetched full transaction hashes elsewhere"
  | output (vout : Nat) : Contradiction s!"a fetched full transaction contradicts vout {vout}"
  | changed : Contradiction "a vault coin changed between its opening and closing read"

/-- How the refusals begin. -/
def opening (text : String) : List Char := text.toList.take 11

def contradictionOpenings : List String :=
  ["a scanned c", "a gettxout ", "no block at", "a scanned p", "a fetched f", "a vault coi"]

theorem toList_contradictionOpenings : contradictionOpenings.map String.toList =
    [['a', ' ', 's', 'c', 'a', 'n', 'n', 'e', 'd', ' ', 'c'], ['a', ' ', 'g', 'e', 't', 't', 'x', 'o', 'u', 't', ' '],
      ['n', 'o', ' ', 'b', 'l', 'o', 'c', 'k', ' ', 'a', 't'], ['a', ' ', 's', 'c', 'a', 'n', 'n', 'e', 'd', ' ', 'p'],
      ['a', ' ', 'f', 'e', 't', 'c', 'h', 'e', 'd', ' ', 'f'], ['a', ' ', 'v', 'a', 'u', 'l', 't', ' ', 'c', 'o', 'i']] := by
  simp [contradictionOpenings]

theorem opening_append {first : String} (rest : String) (long : 11 ≤ first.toList.length) :
    opening (first ++ rest) = opening first := by
  unfold opening
  rw [String.toList_append, List.take_append_of_le_length long]

theorem Contradiction.opens {text : String} (contradicts : Contradiction text) :
    opening text ∈ contradictionOpenings.map String.toList := by
  cases contradicts with
  | unavailable =>
    unfold Inventory.unavailable
    simp only [String.append_assoc]
    rw [opening_append _ (by simp)]
    simp [opening, toList_contradictionOpenings]
  | record => simp [opening, toList_contradictionOpenings]
  | block height =>
    simp [opening, toList_contradictionOpenings, toString]
  | absent => simp [opening, toList_contradictionOpenings]
  | elsewhere => simp [opening, toList_contradictionOpenings]
  | output vout =>
    simp [opening, toList_contradictionOpenings, toString]
  | changed => simp [opening, toList_contradictionOpenings]

/-! ### What a run of calls has seen -/

/-- More calls, none of which opens a bracket. -/
def Continues (calls calls' : List Call) : Prop := ∃ reads, calls' = calls ++ reads ∧ .chainInfo ∉ reads

theorem Continues.refl (calls : List Call) : Continues calls calls := ⟨[], by simp, by simp⟩

theorem Continues.trans {first second third : List Call} (below : Continues first second)
    (above : Continues second third) : Continues first third := by
  obtain ⟨reads, rfl, plain⟩ := below
  obtain ⟨more, rfl, plain'⟩ := above
  exact ⟨reads ++ more, List.append_assoc _ _ _, by simp [plain, plain']⟩

theorem Continues.call (calls : List Call) {call : Call} (other : call ≠ .chainInfo) : Continues calls (calls ++ [call]) :=
  ⟨[call], rfl, by simpa using other.symm⟩

theorem Continues.getElem? {calls calls' : List Call} (continues : Continues calls calls') {k : Nat} {call : Call}
    (made : calls[k]? = some call) : calls'[k]? = some call := by
  obtain ⟨reads, rfl, _⟩ := continues
  obtain ⟨inside, _⟩ := List.getElem?_eq_some_iff.mp made
  rw [List.getElem?_append_left inside, made]

theorem Continues.length_le {calls calls' : List Call} (continues : Continues calls calls') :
    calls.length ≤ calls'.length := by
  obtain ⟨reads, rfl, _⟩ := continues
  simp

theorem Continues.count {calls calls' : List Call} (continues : Continues calls calls') :
    calls'.count .chainInfo = calls.count .chainInfo := by
  obtain ⟨reads, rfl, plain⟩ := continues
  rw [List.count_append, List.count_eq_zero.mpr plain, Nat.add_zero]

section Seen

variable (core : HonestCore)

/-- The tips named from some call on are among the given ones. -/
def Saw (start : Nat) (calls : List Call) (tips : List BlockHash) : Prop :=
  ∀ k call tip, start ≤ k → calls[k]? = some call → core.observed k call = some tip → tip ∈ tips

/-- The text is no contradiction, unless it is what the last call failed with. -/
def Uncontradicted (text : String) (calls : List Call) : Prop :=
  Contradiction text → ∃ k, calls.length = k + 1 ∧ core.failure k = some text

variable {core}

theorem uncontradicted_of_opening {text : String} {calls : List Call}
    (other : opening text ∉ contradictionOpenings.map String.toList) : Uncontradicted core text calls :=
  fun contradicts => absurd contradicts.opens other

theorem Saw.call {start : Nat} {calls : List Call} {tips tips' : List BlockHash} (saw : Saw core start calls tips)
    (call : Call) (more : tips ⊆ tips') (here : ∀ tip, core.observed calls.length call = some tip → tip ∈ tips') :
    Saw core start (calls ++ [call]) tips' := by
  intro k made tip above found named
  rcases Nat.lt_or_ge k calls.length with before | after
  · rw [List.getElem?_append_left before] at found
    exact more (saw k made tip above found named)
  · rw [List.getElem?_append_right after] at found
    obtain ⟨inside, rfl⟩ := List.getElem?_eq_some_iff.mp found
    simp only [List.length_cons, List.length_nil, Nat.zero_add, Nat.lt_one_iff] at inside
    have last : k = calls.length := by omega
    subst last
    simp only [List.getElem_singleton] at named
    exact here tip named

/-- A call whose answer names no tip. -/
theorem Saw.unnamed {start : Nat} {calls : List Call} {tips : List BlockHash} (saw : Saw core start calls tips)
    {call : Call} (unnamed : core.observed calls.length call = none) : Saw core start (calls ++ [call]) tips := by
  refine saw.call _ (List.Subset.refl _) ?_
  intro tip named
  rw [unnamed] at named
  cases named

/-- A call goes on with its answer, or fails with Core's own words. -/
theorem leaves_call {α β : Type} {call : Call} {answer : Nat → α} {next : α → Prog (List Call) String β}
    {calls : List Call} {post : Except String β → List Call → Prop}
    (later : Leaves (next (answer calls.length)) (calls ++ [call]) post)
    (failed : ∀ text, Uncontradicted core text (calls ++ [call]) → post (.error text) (calls ++ [call])) :
    Leaves (core.ask call answer >>= next) calls post := by
  have asked : Leaves (core.ask call answer) calls (fun outcome calls' => calls' = calls ++ [call] ∧ match outcome with
      | .ok value => value = answer calls.length
      | .error text => core.failure calls.length = some text) := by
    unfold HonestCore.ask Leaves
    simp only [true_and]
    cases core.failure calls.length with
    | none => rfl
    | some text => rfl
  refine leaves_bind asked ?_ ?_
  · rintro text _ ⟨rfl, refused⟩
    exact failed text (fun _ => ⟨calls.length, by simp, refused⟩)
  · rintro _ _ ⟨rfl, rfl⟩
    exact later

end Seen

/-! ### The reads of the coins -/

section Reads

variable {core : HonestCore} {functions : TxFunctions}

/-- The call is a read of the coin, and the answer shows it as asked. -/
def Shows (core : HonestCore) (asks : TxOutView → Prop) (calls : List Call) (k : Nat) (outpoint : OutPoint) : Prop :=
  calls[k]? = some (.txout outpoint) ∧ ∃ view, core.shown k outpoint = some view ∧ asks view

theorem Shows.mono {asks : TxOutView → Prop} {calls calls' : List Call} {k : Nat} {outpoint : OutPoint}
    (shows : Shows core asks calls k outpoint) (continues : Continues calls calls') :
    Shows core asks calls' k outpoint :=
  ⟨continues.getElem? shows.1, shows.2⟩

/-- Consecutive calls read the coins in order. -/
def ShowsAll (core : HonestCore) (asks : TxOutView → Prop) (calls : List Call) (start : Nat) (coins : List ScanCoin) :
    Prop :=
  ∀ i coin, coins[i]? = some coin → Shows core asks calls (start + i) coin.outpoint

theorem ShowsAll.cons {asks : TxOutView → Prop} {calls : List Call} {start : Nat} {coin : ScanCoin}
    {rest : List ScanCoin} (first : Shows core asks calls start coin.outpoint)
    (later : ShowsAll core asks calls (start + 1) rest) : ShowsAll core asks calls start (coin :: rest) := by
  intro i other found
  cases i with
  | zero =>
    cases found
    exact first
  | succ i =>
    have shows := later i other found
    rw [Nat.add_assoc, Nat.add_comm 1 i] at shows
    exact shows

/-- What reads with held contradictions leave: a terminal refusal is no contradiction, and every tip they named is
reported. -/
def Reported {α : Type} (core : HonestCore) (calls : List Call) (tips : List BlockHash) (good : α → List Call → Prop)
    (outcome : Except String (List BlockHash × Except String α)) (calls' : List Call) : Prop :=
  Continues calls calls' ∧ match outcome with
    | .error text => Uncontradicted core text calls'
    | .ok (tips', held) => (∀ start, Saw core start calls tips → Saw core start calls' tips') ∧ match held with
      | .error text => Contradiction text
      | .ok value => good value calls'

/-- What later calls report holds of the earlier ones before them as well. -/
theorem Reported.after {α : Type} {calls calls₁ calls' : List Call} {tips tips₁ : List BlockHash}
    {good good₁ : α → List Call → Prop} {outcome : Except String (List BlockHash × Except String α)}
    (reported : Reported core calls₁ tips₁ good₁ outcome calls') (made : Continues calls calls₁)
    (named : ∀ start, Saw core start calls tips → Saw core start calls₁ tips₁)
    (holds : ∀ value, Continues calls₁ calls' → good₁ value calls' → good value calls') :
    Reported core calls tips good outcome calls' := by
  obtain ⟨continues, read⟩ := reported
  refine ⟨made.trans continues, ?_⟩
  cases outcome with
  | error text => exact read
  | ok answer =>
    obtain ⟨tips', held⟩ := answer
    obtain ⟨saw, read⟩ := read
    refine ⟨fun start before => saw start (named start before), ?_⟩
    cases held with
    | error text => exact read
    | ok value => exact holds value continues read

/-- A coinbase is old enough. -/
def Mature (view : TxOutView) : Prop := view.coinbase = true → coinbaseMaturity ≤ view.confirmations

theorem observed_txout {k : Nat} {outpoint : OutPoint} {view : TxOutView} (shown : core.shown k outpoint = some view) :
    core.observed k (.txout outpoint) = some view.bestBlock := by
  unfold HonestCore.observed
  simp only [shown, Option.map_some]

theorem observed_txout_none {k : Nat} {outpoint : OutPoint} (shown : core.shown k outpoint = none) :
    core.observed k (.txout outpoint) = none := by
  unfold HonestCore.observed
  simp only [shown, Option.map_none]

/-- A read that shows the coin adds the tip it names. -/
theorem Saw.txout {start : Nat} {calls : List Call} {tips : List BlockHash} (saw : Saw core start calls tips)
    {outpoint : OutPoint} {view : TxOutView} (shown : core.shown calls.length outpoint = some view) :
    Saw core start (calls ++ [.txout outpoint]) (tips ++ [view.bestBlock]) := by
  refine saw.call _ (List.subset_append_left _ _) ?_
  intro tip named
  rw [observed_txout shown] at named
  cases named
  simp

theorem leaves_openingReads (coins : List ScanCoin) (tips : List BlockHash) (calls : List Call) :
    Leaves (openingReads core.view coins tips) calls (Reported core calls tips (fun opening calls' =>
      opening.length = coins.length ∧ calls'.length = calls.length + coins.length ∧
        ShowsAll core Mature calls' calls.length coins)) := by
  induction coins generalizing tips calls with
  | nil => exact ⟨Continues.refl calls, fun _ saw => saw, rfl, rfl, by simp [ShowsAll]⟩
  | cons coin rest ih =>
    have called : Continues calls (calls ++ [.txout coin.outpoint]) := Continues.call calls nofun
    rw [openingReads]
    change Leaves (core.ask (.txout coin.outpoint) (fun k => core.shown k coin.outpoint) >>= _) calls _
    refine leaves_call ?_ (fun text failed => ⟨called, failed⟩)
    cases shown : core.shown calls.length coin.outpoint with
    | none =>
      exact leaves_pure ⟨called, fun start saw => saw.unnamed (observed_txout_none shown), Contradiction.unavailable⟩
    | some view =>
      simp only
      split_ifs with immature differs
      · refine leaves_fail ⟨called, uncontradicted_of_opening ?_⟩
        simp [opening, toList_contradictionOpenings, toString]
      · exact leaves_pure ⟨called, fun start saw => saw.txout shown, Contradiction.record⟩
      · have mature : Mature view := by
          intro coinbase
          simpa [coinbase] using immature
        have made : (calls ++ [Call.txout coin.outpoint])[calls.length]? = some (.txout coin.outpoint) := by simp
        refine leaves_bind (ih (tips ++ [view.bestBlock]) (calls ++ [.txout coin.outpoint])) ?_ ?_
        · intro text calls' reported
          exact ⟨called.trans reported.1, reported.2⟩
        · rintro ⟨tips', held⟩ calls' ⟨continues, saw, read⟩
          refine leaves_pure ⟨called.trans continues, fun start before => saw start (before.txout shown), ?_⟩
          cases held with
          | error text => exact read
          | ok opening =>
            obtain ⟨counted, length, shows⟩ := read
            rw [List.length_append, List.length_singleton] at length shows
            refine ⟨by simp [counted], by rw [length, List.length_cons]; omega, ShowsAll.cons ?_ shows⟩
            exact ⟨continues.getElem? made, view, shown, mature⟩

theorem leaves_closingReads (pairs : List (ScanCoin × TxOutView)) (tips : List BlockHash) (calls : List Call) :
    Leaves (closingReads core.view pairs tips) calls (Reported core calls tips (fun _ calls' =>
      ShowsAll core (fun _ => True) calls' calls.length (pairs.map Prod.fst))) := by
  induction pairs generalizing tips calls with
  | nil => exact ⟨Continues.refl calls, fun _ saw => saw, by simp [ShowsAll]⟩
  | cons pair rest ih =>
    obtain ⟨coin, opened⟩ := pair
    have called : Continues calls (calls ++ [.txout coin.outpoint]) := Continues.call calls nofun
    rw [closingReads]
    change Leaves (core.ask (.txout coin.outpoint) (fun k => core.shown k coin.outpoint) >>= _) calls _
    refine leaves_call ?_ (fun text failed => ⟨called, failed⟩)
    cases shown : core.shown calls.length coin.outpoint with
    | none =>
      exact leaves_pure ⟨called, fun start saw => saw.unnamed (observed_txout_none shown), Contradiction.unavailable⟩
    | some view =>
      simp only
      split_ifs with differs
      · exact leaves_pure ⟨called, fun start saw => saw.txout shown, Contradiction.changed⟩
      · have made : (calls ++ [Call.txout coin.outpoint])[calls.length]? = some (.txout coin.outpoint) := by simp
        refine leaves_weaken (ih (tips ++ [view.bestBlock]) (calls ++ [.txout coin.outpoint])) ?_
        intro outcome calls' reported
        refine reported.after called (fun start before => before.txout shown) ?_
        intro _ continues shows
        rw [List.length_append, List.length_singleton] at shows
        exact ShowsAll.cons ⟨continues.getElem? made, view, shown, trivial⟩ shows

/-! ### The parents -/

/-- What a parent adds for its members. -/
def grossBytes (parents : Map Txid RawTransaction) (group : Txid × List ScanCoin) : Nat :=
  (parents.lookup group.1).elim 0 totalSize * (2 * group.2.length)

theorem project_ok {projected members bytes : Nat} {parent : RawTransaction}
    (passed : project projected members parent = .ok bytes) :
    bytes = projected + totalSize parent * (2 * members) ∧ bytes ≤ maxComposerFullPrevtxBytes := by
  unfold project at passed
  cases summed : (checkedMul (totalSize parent) (2 * members)).bind (checkedAdd projected) with
  | none =>
    rw [summed] at passed
    cases passed
  | some total =>
    rw [summed] at passed
    simp only at passed
    split_ifs at passed with above
    cases passed
    obtain ⟨gross, first, second⟩ := Option.bind_eq_some_iff.mp summed
    rw [(checkedMul_some first).1] at second
    exact ⟨(checkedAdd_some second).1, Nat.le_of_not_lt above⟩

theorem project_opening {projected members : Nat} {parent : RawTransaction} {text : String}
    (failed : project projected members parent = .error text) :
    opening text ∉ contradictionOpenings.map String.toList := by
  unfold project at failed
  split at failed
  · cases failed
    simp [opening, toList_contradictionOpenings]
  · split_ifs at failed
    cases failed
    simp [opening, toList_contradictionOpenings, toString]

theorem checkParent_error {txid : Txid} {members : List ScanCoin} {parent : RawTransaction} {text : String}
    (failed : checkParent functions txid members parent = .error text) : Contradiction text := by
  unfold checkParent at failed
  split_ifs at failed
  · cases failed
    exact Contradiction.elsewhere
  · split at failed
    · cases failed
      exact Contradiction.output _
    · cases failed

/-- The loop over the groups keeps the bytes of all that it keeps within the bound. -/
theorem leaves_fetchParents (groups : List (Txid × List ScanCoin)) (once : (groups.map Prod.fst).Nodup)
    (projected : Nat) (parents : Map Txid RawTransaction) (within : projected ≤ maxComposerFullPrevtxBytes)
    (tips : List BlockHash) (calls : List Call) :
    Leaves (fetchParents functions core.view groups projected parents) calls (fun outcome calls' =>
      Reported core calls tips (fun fetched _ =>
        (∀ txid, txid ∉ groups.map Prod.fst → fetched.lookup txid = parents.lookup txid) ∧
          projected + (groups.map (grossBytes fetched)).sum ≤ maxComposerFullPrevtxBytes)
        (outcome.map (fun held => (tips, held))) calls') := by
  induction groups generalizing projected parents calls with
  | nil => exact ⟨Continues.refl calls, fun _ saw => saw, fun _ _ => rfl, within⟩
  | cons group rest ih =>
    obtain ⟨txid, members⟩ := group
    rw [List.map_cons, List.nodup_cons] at once
    rw [fetchParents]
    generalize members.head?.elim 0 ScanCoin.height = height
    have called : Continues calls (calls ++ [.blockHash height]) := Continues.call calls (by simp)
    change Leaves (core.ask (.blockHash height) (fun k => core.block k height) >>= _) calls _
    refine leaves_call ?_ (fun text failed => ⟨called, failed⟩)
    cases core.block calls.length height with
    | none => exact leaves_pure ⟨called, fun start saw => saw.unnamed rfl, Contradiction.block height⟩
    | some block =>
      simp only
      have asked : Continues calls (calls ++ [.blockHash height] ++ [.blockTransaction txid block]) :=
        called.trans (Continues.call _ (by simp))
      have named : ∀ start, Saw core start calls tips →
          Saw core start (calls ++ [.blockHash height] ++ [.blockTransaction txid block]) tips :=
        fun start saw => (saw.unnamed rfl).unnamed rfl
      change Leaves (core.ask (.blockTransaction txid block) (fun k => core.transaction k txid block) >>= _) _ _
      refine leaves_call ?_ (fun text failed => ⟨asked, failed⟩)
      cases core.transaction (calls ++ [Call.blockHash height]).length txid block with
      | none => exact leaves_pure ⟨asked, named, Contradiction.absent⟩
      | some parent =>
        simp only
        refine leaves_lift_bind ?_ ?_
        · intro text weighed
          exact ⟨asked, uncontradicted_of_opening (project_opening weighed)⟩
        · intro bytes weighed
          obtain ⟨exact_bytes, bounded⟩ := project_ok weighed
          cases checked : checkParent functions txid members parent with
          | error text => exact leaves_pure ⟨asked, named, checkParent_error checked⟩
          | ok _ =>
            simp only
            refine leaves_weaken (ih once.2 bytes (parents.insert txid parent) bounded _) ?_
            intro outcome calls' reported
            refine reported.after asked named ?_
            intro fetched _ read
            obtain ⟨kept, total⟩ := read
            have own : fetched.lookup txid = some parent := by
              rw [kept txid once.1, lookup_insert_eq, if_pos rfl]
            constructor
            · intro other absent
              rw [List.map_cons, List.mem_cons, not_or] at absent
              rw [kept other absent.2, lookup_insert_eq, if_neg absent.1]
            · rw [List.map_cons, List.sum_cons, grossBytes, own]
              simp only [Option.elim_some]
              omega

theorem nodup_groupsOf (coins : List ScanCoin) : ((groupsOf coins).map Prod.fst).Nodup := by
  have keys : (groupsOf coins).map Prod.fst =
      (coins.map (fun coin => coin.outpoint.txid)).dedup.insertionSort
        (fun a b => a.map UInt8.toNat ≤ b.map UInt8.toNat) := by
    unfold groupsOf
    simp only [List.map_map]
    exact List.map_id _
  rw [keys, (List.perm_insertionSort _ _).nodup_iff]
  exact List.nodup_dedup _

/-- Counted by parent or by coin, the bytes are the same. -/
theorem grossBytes_groupsOf (coins : List ScanCoin) (parents : Map Txid RawTransaction) :
    ((groupsOf coins).map (grossBytes parents)).sum =
      (coins.map (fun coin => 2 * (parents.lookup coin.outpoint.txid).elim 0 totalSize)).sum := by
  rw [← sum_by_key (fun coin : ScanCoin => coin.outpoint.txid)
    (fun txid => 2 * (parents.lookup txid).elim 0 totalSize)]
  unfold groupsOf
  simp only [List.map_map]
  rw [((List.perm_insertionSort _ _).map _).sum_eq]
  congr 1
  apply List.map_congr_left
  intro txid _
  rw [Function.comp_apply, grossBytes]
  ring

/-! ### One bracket -/

/-- Two rounds of reads show every coin, and the parents are within the bound. -/
structure Read (core : HonestCore) (coins : List ScanCoin) (parents : Map Txid RawTransaction) (start : Nat)
    (calls : List Call) : Prop where
  opened : ShowsAll core Mature calls start coins
  closed : ∃ closing, start + coins.length ≤ closing ∧ ShowsAll core (fun _ => True) calls closing coins
  bytes : (coins.map (fun coin => 2 * (parents.lookup coin.outpoint.txid).elim 0 totalSize)).sum ≤
    maxComposerFullPrevtxBytes

theorem ShowsAll.mono {asks : TxOutView → Prop} {calls calls' : List Call} {start : Nat} {coins : List ScanCoin}
    (shows : ShowsAll core asks calls start coins) (continues : Continues calls calls') :
    ShowsAll core asks calls' start coins :=
  fun i coin found => (shows i coin found).mono continues

theorem Read.mono {coins : List ScanCoin} {parents : Map Txid RawTransaction} {start : Nat} {calls calls' : List Call}
    (read : Read core coins parents start calls) (continues : Continues calls calls') :
    Read core coins parents start calls' := by
  obtain ⟨closing, after, closed⟩ := read.closed
  exact ⟨read.opened.mono continues, ⟨closing, after, closed.mono continues⟩, read.bytes⟩

theorem leaves_candidates (coins : List ScanCoin) (calls : List Call) :
    Leaves (candidates functions core.view coins) calls
      (Reported core calls [] (fun parents calls' => Read core coins parents calls.length calls')) := by
  unfold candidates
  refine leaves_bind (leaves_openingReads coins [] calls) (fun _ _ reported => reported) ?_
  rintro ⟨tips, opening⟩ calls₁ ⟨continues₁, saw₁, read₁⟩
  cases opening with
  | error text => exact leaves_pure ⟨continues₁, saw₁, read₁⟩
  | ok opening =>
    obtain ⟨counted, length, opened⟩ := read₁
    refine leaves_bind (leaves_fetchParents (groupsOf coins) (nodup_groupsOf coins) 0 ∅
      (Nat.zero_le _) tips calls₁) (fun _ _ reported => ⟨continues₁.trans reported.1, reported.2⟩) ?_
    rintro held calls₂ ⟨continues₂, saw₂, read₂⟩
    cases held with
    | error text => exact leaves_pure ⟨continues₁.trans continues₂, fun start saw => saw₂ start (saw₁ start saw), read₂⟩
    | ok parents =>
      have before := continues₁.trans continues₂
      refine leaves_bind (leaves_closingReads (coins.zip opening) tips calls₂)
        (fun _ _ reported => ⟨before.trans reported.1, reported.2⟩) ?_
      rintro ⟨tips', closed⟩ calls₃ ⟨continues₃, saw₃, read₃⟩
      refine leaves_pure ⟨before.trans continues₃, fun start saw => saw₃ start (saw₂ start (saw₁ start saw)), ?_⟩
      cases closed with
      | error text => exact read₃
      | ok _ =>
        rw [List.map_fst_zip counted.ge] at read₃
        refine ⟨opened.mono (continues₂.trans continues₃), ⟨calls₂.length, ?_, read₃⟩, ?_⟩
        · rw [← length]
          exact continues₂.length_le
        · rw [← grossBytes_groupsOf]
          have total := read₂.2
          rw [Nat.zero_add] at total
          exact total

/-! ### The refusals that are no contradiction -/

theorem sortedUnique_opening {coins : List ScanCoin} {script : Script} {text : String}
    (failed : sortedUnique coins script = .error text) : opening text ∉ contradictionOpenings.map String.toList := by
  unfold sortedUnique at failed
  simp only at failed
  split_ifs at failed
  · cases failed
    simp [opening, toList_contradictionOpenings]
  · cases failed
    simp [opening, toList_contradictionOpenings]
  · cases failed
    simp [opening, toList_contradictionOpenings]

theorem buildPair_opening {shape : ShapeInputs} {amounts : Amounts} {text : String}
    (failed : buildPair shape amounts = .error text) : opening text ∉ contradictionOpenings.map String.toList := by
  have checked : ∀ {tx : RawTransaction}, checkShape tx = .error text →
      opening text ∉ contradictionOpenings.map String.toList := by
    intro tx refused
    unfold checkShape at refused
    simp only at refused
    split_ifs at refused
    cases refused
    simp [opening, toList_contradictionOpenings]
  unfold buildPair at failed
  simp only [Compose.buildSpendN_eq, bind, Except.bind, pure, Except.pure] at failed
  split at failed
  · next refused =>
    cases failed
    exact checked refused
  · split at failed
    · next refused =>
      cases failed
      exact checked refused
    · cases failed

theorem finalizedVsize_opening {weight : Nat} {tx : RawTransaction} {text : String}
    (failed : finalizedVsize functions weight tx = .error text) :
    opening text ∉ contradictionOpenings.map String.toList := by
  unfold finalizedVsize at failed
  cases bounded : maximumFinalizedVsizeFor ⟨functions.weight, weight⟩ tx.unsigned with
  | error e =>
    rw [bounded] at failed
    cases failed
    unfold maximumFinalizedVsizeFor at bounded
    simp only at bounded
    split at bounded
    · cases bounded
      simp [opening, toList_contradictionOpenings]
    · split at bounded
      · cases bounded
        simp [opening, toList_contradictionOpenings]
      · split at bounded
        · cases bounded
          simp [opening, toList_contradictionOpenings]
        · split at bounded
          · cases bounded
            simp [opening, toList_contradictionOpenings]
          · split at bounded
            · cases bounded
              simp [opening, toList_contradictionOpenings]
            · cases bounded
  | ok vsize =>
    rw [bounded] at failed
    simp only [bind, Except.bind] at failed
    split_ifs at failed
    · cases failed
      simp [opening, toList_contradictionOpenings, toString]
    · cases failed

theorem finalizedVsize_le {weight vsize : Nat} {tx : RawTransaction}
    (sized : finalizedVsize functions weight tx = .ok vsize) : vsize ≤ maxComposerVsize := by
  unfold finalizedVsize at sized
  obtain ⟨reached, _, sized⟩ := ok_of_bind sized
  simp only at sized
  split at sized
  · cases sized
  · next within =>
    cases sized
    exact Nat.le_of_not_lt within

/-! ### What a pass leaves -/

/-- The coins of one tip, each shown twice by Core and still there. -/
structure Snapshot (core : HonestCore) (script : Script) (bracket : Bracket) (calls : List Call) (tip : BlockHash) :
    Prop where
  exact : ∀ utxo, utxo ∈ bracket.shape.utxos ↔ utxo.txout.scriptPubkey = script ∧
    ∃ coin, core.confirmed tip utxo.outpoint = some coin ∧ utxo.txout = ⟨coin.value, coin.script⟩
  unspent : ∃ earlier rest closing, calls = earlier ++ .chainInfo :: .scanVaultScript script :: rest ∧
    .chainInfo ∉ rest ∧ earlier.length + 2 + bracket.shape.utxos.length ≤ closing ∧
    ∀ start ∈ [earlier.length + 2, closing], ∀ i utxo, bracket.shape.utxos[i]? = some utxo →
      calls[start + i]? = some (.txout utxo.outpoint) ∧ (core.world (start + i)).tip = tip ∧
        utxo.outpoint ∉ (core.world (start + i)).spent
  mature : ∀ utxo ∈ bracket.shape.utxos, ∀ coin, core.confirmed tip utxo.outpoint = some coin →
    coin.coinbase = true → coinbaseMaturity ≤ core.confirmations tip coin
  bytes : (bracket.shape.utxos.map (fun utxo =>
    2 * (bracket.parents.lookup utxo.outpoint.txid).elim 0 totalSize)).sum ≤ maxComposerFullPrevtxBytes

/-- From the call at `start` on, every tip that is named is `tip`. -/
def Still (core : HonestCore) (start : Nat) (calls : List Call) (tip : BlockHash) : Prop :=
  ∀ k call seen, start ≤ k → calls[k]? = some call → core.observed k call = some seen → seen = tip

/-- Every tip that was named since the last bracket was opened is one. -/
def Steady (core : HonestCore) (calls : List Call) : Prop :=
  ∃ earlier rest tip, calls = earlier ++ .chainInfo :: rest ∧ .chainInfo ∉ rest ∧ Still core earlier.length calls tip

theorem shown_some {k : Nat} {outpoint : OutPoint} {view : TxOutView} (shown : core.shown k outpoint = some view) :
    outpoint ∉ (core.world k).spent ∧ view.bestBlock = (core.world k).tip ∧
      ∃ coin, core.confirmed (core.world k).tip outpoint = some coin ∧
        view.confirmations = core.confirmations (core.world k).tip coin ∧ view.coinbase = coin.coinbase := by
  unfold HonestCore.shown at shown
  simp only at shown
  split_ifs at shown with spent
  obtain ⟨coin, found, rfl⟩ := Option.map_eq_some_iff.mp shown
  exact ⟨spent, rfl, coin, found, rfl, rfl⟩

theorem mem_sortedUnique {coins sorted : List ScanCoin} {script : Script}
    (passed : sortedUnique coins script = .ok sorted) (coin : ScanCoin) : coin ∈ sorted ↔ coin ∈ coins := by
  unfold sortedUnique at passed
  simp only at passed
  split_ifs at passed
  cases passed
  exact List.mem_insertionSort _

/-- The sizes are those of the shapes that pay nothing. -/
structure Sized (functions : TxFunctions) (weight : Nat) (bracket : Bracket) : Prop where
  built : ∃ primary escape, buildPair bracket.shape ⟨0, 0, 0⟩ = .ok (primary, escape) ∧
    finalizedVsize functions weight primary.unsignedTx = .ok bracket.primaryVsize ∧
    finalizedVsize functions weight escape.unsignedTx = .ok bracket.escapeVsize

/-- What is asked of the outcome of some passes. -/
def Judged (functions : TxFunctions) (core : HonestCore) (script : Script) (weight : Nat) (calls : List Call) :
    Except String (Option Bracket) → Prop
  | .ok none => True
  | .ok (some bracket) => Sized functions weight bracket ∧ ∃ tip, Snapshot core script bracket calls tip
  | .error text => Contradiction text → (∃ k, calls.length = k + 1 ∧ core.failure k = some text) ∨ Steady core calls

/-- What one pass leaves: the calls of one bracket. -/
def Passed (functions : TxFunctions) (core : HonestCore) (script : Script) (weight : Nat) (calls : List Call)
    (outcome : Except String (Option Bracket)) (calls' : List Call) : Prop :=
  Continues (calls ++ [.chainInfo]) calls' ∧ Judged functions core script weight calls' outcome

theorem still_of_saw {calls calls' : List Call} {script : Script} {tips : List BlockHash} {tip : BlockHash}
    (continues : Continues (calls ++ [.chainInfo] ++ [.scanVaultScript script]) calls')
    (saw : Saw core (calls.length + 2) calls' tips) (same : ∀ seen ∈ tips, seen = tip)
    (info : (core.world calls.length).tip = tip) (scan : (core.world (calls.length + 1)).tip = tip) :
    Still core calls.length calls' tip := by
  obtain ⟨reads, rfl, plain⟩ := continues
  intro k call seen above made named
  rcases Nat.lt_or_ge k (calls.length + 2) with early | late
  · rw [List.append_assoc, List.append_assoc, List.getElem?_append_right above] at made
    have places : k = calls.length ∨ k = calls.length + 1 := by omega
    rcases places with rfl | rfl
    · simp only [Nat.sub_self, List.cons_append, List.getElem?_cons_zero, Option.some.injEq] at made
      subst made
      exact (Option.some.inj named).symm.trans info
    · simp only [Nat.add_sub_cancel_left, List.cons_append, List.nil_append, List.getElem?_cons_succ,
        List.getElem?_cons_zero, Option.some.injEq] at made
      subst made
      exact (Option.some.inj named).symm.trans scan
  · exact same seen (saw k call seen late made named)

/-- The coins that were read twice while no tip moved are those of the tip. -/
theorem snapshot_of_read {calls calls' : List Call} {script witnessScript : Script} {scripts : Scripts}
    {coins : List ScanCoin} {parents : Map Txid RawTransaction} {tip : BlockHash} {primaryVsize escapeVsize : Nat}
    (continues : Continues (calls ++ [.chainInfo] ++ [.scanVaultScript script]) calls')
    (sorted : sortedUnique (core.scanned (calls.length + 1) script) script = .ok coins)
    (scan : (core.world (calls.length + 1)).tip = tip) (read : Read core coins parents (calls.length + 2) calls')
    (still : Still core calls.length calls' tip) :
    Snapshot core script ⟨⟨coins.map utxoOf, witnessScript, scripts⟩, parents, primaryVsize, escapeVsize⟩ calls' tip := by
  have at_tip : ∀ {asks : TxOutView → Prop} {k : Nat} {outpoint : OutPoint}, calls.length ≤ k →
      Shows core asks calls' k outpoint → (core.world k).tip = tip := by
    intro asks k outpoint above shows
    obtain ⟨made, view, shown, _⟩ := shows
    rw [← (shown_some shown).2.1]
    exact still k _ _ above made (observed_txout shown)
  refine ⟨?_, ?_, ?_, ?_⟩
  · intro utxo
    have scanned : ∀ coin, coin ∈ coins ↔ coin.script = script ∧ ∃ coinbase,
        core.confirmed tip coin.outpoint = some ⟨coin.value, coin.script, coin.height, coinbase⟩ := by
      intro coin
      rw [mem_sortedUnique sorted, core.scans, scan]
    constructor
    · intro member
      obtain ⟨coin, listed, rfl⟩ := List.mem_map.mp member
      obtain ⟨own, coinbase, found⟩ := (scanned coin).mp listed
      exact ⟨own, _, found, rfl⟩
    · rintro ⟨own, coin, found, pays⟩
      obtain ⟨outpoint, txout⟩ := utxo
      simp only at own found pays
      subst pays
      have listed := (scanned ⟨outpoint, coin.value, coin.script, coin.height⟩).mpr ⟨own, coin.coinbase, found⟩
      exact List.mem_map.mpr ⟨_, listed, rfl⟩
  · obtain ⟨closing, after, closed⟩ := read.closed
    obtain ⟨reads, same, plain⟩ := continues
    refine ⟨calls, reads, closing, by rw [same]; simp, plain, by simpa using after, ?_⟩
    intro start either i utxo found
    have shows : ∃ asks, Shows core asks calls' (start + i) utxo.outpoint := by
      simp only [List.getElem?_map, Option.map_eq_some_iff] at found
      obtain ⟨coin, listed, rfl⟩ := found
      simp only [List.mem_cons, List.not_mem_nil, or_false] at either
      rcases either with rfl | rfl
      · exact ⟨_, read.opened i coin listed⟩
      · exact ⟨_, closed i coin listed⟩
    obtain ⟨asks, made, view, shown, asked⟩ := shows
    have above : calls.length ≤ start + i := by
      simp only [List.mem_cons, List.not_mem_nil, or_false] at either
      rcases either with rfl | rfl
      · omega
      · omega
    exact ⟨made, at_tip above ⟨made, view, shown, asked⟩, (shown_some shown).1⟩
  · intro utxo member coin found coinbase
    obtain ⟨scanned, listed, rfl⟩ := List.mem_map.mp member
    obtain ⟨i, inside, rfl⟩ := List.getElem_of_mem listed
    have shows := read.opened i _ (List.getElem?_eq_getElem inside)
    have here := at_tip (by omega) shows
    obtain ⟨_, view, shown, mature⟩ := shows
    obtain ⟨_, _, other, confirmed, aged, marked⟩ := shown_some shown
    rw [here] at confirmed aged
    cases confirmed.symm.trans found
    rw [← aged]
    exact mature (marked.trans coinbase)
  · rw [List.map_map]
    exact read.bytes

theorem leaves_pass {network : Network} {witnessScript : Script} {scripts : Scripts} {weight : Nat}
    (calls : List Call) :
    Leaves (pass functions core.view network witnessScript scripts weight) calls
      (Passed functions core scripts.change weight calls) := by
  have opened : Continues (calls ++ [.chainInfo]) (calls ++ [.chainInfo]) := Continues.refl _
  have scanned : Continues (calls ++ [.chainInfo])
      (calls ++ [.chainInfo] ++ [.scanVaultScript scripts.change]) := Continues.call _ nofun
  unfold pass
  change Leaves (core.ask .chainInfo (fun k =>
    ChainInfo.mk (core.identity k) (core.initialBlockDownload k) (core.world k).tip) >>= _) calls _
  refine leaves_call ?_ (fun text failed => ⟨opened, fun contradicts => Or.inl (failed contradicts)⟩)
  simp only
  split_ifs with foreign behind
  · refine leaves_fail ⟨opened, fun contradicts => absurd contradicts.opens ?_⟩
    simp [opening, toList_contradictionOpenings, toString]
  · exact leaves_fail ⟨opened, fun contradicts => absurd contradicts.opens (by simp [opening, toList_contradictionOpenings])⟩
  change Leaves (core.ask (.scanVaultScript scripts.change) (fun k =>
    Scan.mk (core.world k).tip (core.scanned k scripts.change)) >>= _) _ _
  refine leaves_call ?_ (fun text failed => ⟨scanned, fun contradicts => Or.inl (failed contradicts)⟩)
  have place : (calls ++ [Call.chainInfo]).length = calls.length + 1 := by simp
  rw [place]
  simp only
  split_ifs with moved
  · exact leaves_pure ⟨scanned, trivial⟩
  rw [not_not] at moved
  have refused : ∀ {text : String}, opening text ∉ contradictionOpenings.map String.toList →
      Passed functions core scripts.change weight calls (.error text) (calls ++ [.chainInfo] ++ [.scanVaultScript scripts.change]) :=
    fun other => ⟨scanned, fun contradicts => absurd contradicts.opens other⟩
  refine leaves_lift_bind (fun _ failed => refused (sortedUnique_opening failed)) (fun coins sorted => ?_)
  refine leaves_lift_bind (fun _ failed => refused (buildPair_opening failed)) (fun pair built => ?_)
  refine leaves_lift_bind (fun _ failed => refused (finalizedVsize_opening failed)) (fun primaryVsize primary => ?_)
  refine leaves_lift_bind (fun _ failed => refused (finalizedVsize_opening failed)) (fun escapeVsize escape => ?_)
  refine leaves_bind (leaves_candidates coins _)
    (fun _ _ reported => ⟨scanned.trans reported.1, fun contradicts => Or.inl (reported.2 contradicts)⟩) ?_
  rintro ⟨tips, held⟩ calls₁ ⟨continues, saw, read⟩
  have closed : Continues (calls ++ [.chainInfo] ++ [.scanVaultScript scripts.change]) (calls₁ ++ [.bestBlockHash]) :=
    continues.trans (Continues.call _ nofun)
  change Leaves (core.ask .bestBlockHash (fun k => (core.world k).tip) >>= _) _ _
  refine leaves_call ?_ (fun text failed => ⟨scanned.trans closed, fun contradicts => Or.inl (failed contradicts)⟩)
  split_ifs with moves
  · exact leaves_pure ⟨scanned.trans closed, trivial⟩
  have same : ∀ seen ∈ tips ++ [(core.world calls₁.length).tip], seen = (core.world calls.length).tip := by
    simpa [or_imp, forall_and] using moves
  have length : (calls ++ [Call.chainInfo] ++ [Call.scanVaultScript scripts.change]).length = calls.length + 2 := by simp
  have nothing : Saw core (calls.length + 2) (calls ++ [.chainInfo] ++ [.scanVaultScript scripts.change]) [] := by
    intro k call tip above found
    rw [List.getElem?_eq_none (by omega)] at found
    cases found
  have all : Saw core (calls.length + 2) (calls₁ ++ [.bestBlockHash]) (tips ++ [(core.world calls₁.length).tip]) := by
    refine (saw _ nothing).call _ (List.subset_append_left _ _) ?_
    intro tip named
    cases named
    simp
  have still := still_of_saw closed all same rfl moved
  cases held with
  | error text =>
    obtain ⟨reads, shape, plain⟩ := closed
    refine leaves_fail ⟨scanned.trans ⟨reads, shape, plain⟩, fun _ => Or.inr ?_⟩
    exact ⟨calls, .scanVaultScript scripts.change :: reads, _, by rw [shape]; simp, by simp [plain], still⟩
  | ok parents =>
    rw [length] at read
    have kept : Read core coins parents (calls.length + 2) (calls₁ ++ [.bestBlockHash]) := read.mono (Continues.call _ nofun)
    exact leaves_pure ⟨scanned.trans closed, ⟨pair.1, pair.2, built, primary, escape⟩, _,
      snapshot_of_read closed sorted moved kept still⟩

theorem count_of_continues {calls calls' : List Call} (continues : Continues (calls ++ [.chainInfo]) calls') :
    calls'.count .chainInfo = calls.count .chainInfo + 1 := by
  rw [continues.count, List.count_append, List.count_singleton_self]

theorem leaves_passes {network : Network} {witnessScript : Script} {scripts : Scripts} {weight : Nat} (left : Nat)
    (calls : List Call) :
    Leaves (passes functions core.view network witnessScript scripts weight left) calls (fun outcome calls' =>
      calls'.count .chainInfo ≤ calls.count .chainInfo + left ∧
        Judged functions core scripts.change weight calls' outcome) := by
  induction left generalizing calls with
  | zero => exact leaves_pure ⟨le_rfl, trivial⟩
  | succ left ih =>
    rw [passes]
    refine leaves_bind (leaves_pass calls) ?_ ?_
    · rintro text calls' ⟨continues, judged⟩
      exact ⟨by rw [count_of_continues continues]; omega, judged⟩
    · rintro outcome calls' ⟨continues, judged⟩
      have once := count_of_continues continues
      cases outcome with
      | some bracket => exact leaves_pure ⟨by omega, judged⟩
      | none =>
        refine leaves_weaken (ih calls') ?_
        rintro outcome calls'' ⟨counted, judged'⟩
        exact ⟨by omega, judged'⟩

theorem Snapshot.mono {script : Script} {bracket : Bracket} {calls calls' : List Call} {tip : BlockHash}
    (snapshot : Snapshot core script bracket calls tip) (continues : Continues calls calls') :
    Snapshot core script bracket calls' tip := by
  obtain ⟨earlier, rest, closing, shape, plain, after, reads⟩ := snapshot.unspent
  refine ⟨snapshot.exact, ?_, snapshot.mature, snapshot.bytes⟩
  obtain ⟨more, same, plain'⟩ := id continues
  refine ⟨earlier, rest ++ more, closing, ?_, by simp [plain, plain'], after, ?_⟩
  · rw [same, shape]
    simp
  · intro start either i utxo found
    obtain ⟨made, there⟩ := reads start either i utxo found
    exact ⟨continues.getElem? made, there⟩

/-! ### The prepared view -/

/-- The two shapes over the prepared inputs, at final amounts. -/
def pair (prepared : PreparedView) (amounts : Amounts) : Except String (RawPsbt × RawPsbt) :=
  buildPair prepared.bracket.shape amounts

def PreparedView.finalizedVsize (functions : TxFunctions) (prepared : PreparedView) (tx : RawTransaction) :
    Except String Nat :=
  Inventory.finalizedVsize functions prepared.weight tx

theorem leaves_prepareView {network : Network} {descriptor : DefiniteDescriptor} {scripts : Scripts} :
    Leaves (prepareView functions core.view network descriptor scripts) [] (fun outcome calls =>
      calls.count .chainInfo ≤ inventoryPasses ∧ match outcome with
        | .ok prepared => Sized functions prepared.weight prepared.bracket ∧
            ∃ tip, Snapshot core descriptor.scriptPubkey prepared.bracket calls tip
        | .error text => Contradiction text →
            calls = [] ∨ (∃ k, calls.length = k + 1 ∧ core.failure k = some text) ∨ Steady core calls) := by
  have early : ∀ text, List.count Call.chainInfo [] ≤ inventoryPasses ∧ (Contradiction text →
      ([] : List Call) = [] ∨ (∃ k, ([] : List Call).length = k + 1 ∧ core.failure k = some text) ∨ Steady core []) :=
    fun _ => ⟨Nat.zero_le _, fun _ => Or.inl rfl⟩
  unfold prepareView
  refine leaves_lift_bind (fun text _ => early text) (fun witnessScript _ => ?_)
  refine leaves_lift_bind (fun text _ => early text) (fun weight _ => ?_)
  split_ifs with other
  · exact leaves_fail (early _)
  simp only
  refine leaves_bind (leaves_passes inventoryPasses []) ?_ ?_
  · rintro text calls ⟨counted, judged⟩
    exact ⟨by simpa using counted, fun contradicts => Or.inr (judged contradicts)⟩
  · rintro outcome calls ⟨counted, judged⟩
    rw [List.count_nil, Nat.zero_add] at counted
    cases outcome with
    | none =>
      refine leaves_fail ⟨counted, fun contradicts => absurd contradicts.opens ?_⟩
      simp [opening, toList_contradictionOpenings, toString]
    | some bracket =>
      obtain ⟨sized, tip, snapshot⟩ := judged
      have estimated : Continues calls (calls ++ [.feeEstimate]) := Continues.call _ nofun
      have floored : Continues calls (calls ++ [.feeEstimate] ++ [.feeFloors]) := estimated.trans (Continues.call _ nofun)
      change Leaves (core.ask .feeEstimate core.estimate >>= _) _ _
      refine leaves_call ?_ (fun text failed =>
        ⟨estimated.count ▸ counted, fun contradicts => Or.inr (Or.inl (failed contradicts))⟩)
      change Leaves (core.ask .feeFloors core.floors >>= _) _ _
      refine leaves_call ?_ (fun text failed =>
        ⟨floored.count ▸ counted, fun contradicts => Or.inr (Or.inl (failed contradicts))⟩)
      exact leaves_pure ⟨floored.count ▸ counted, sized, tip, snapshot.mono floored⟩

end Reads

/-- The library's weight, beside a hash. -/
def libraryFunctions (computeTxid : RawTransaction → Txid) : TxFunctions := ⟨computeTxid, fun tx => weight (bare tx)⟩

/-- A prepared view is the vault at one tip, as Core showed it twice: its coins, their parents, and the sizes of all
that is built of it. It takes three passes at most, and one read contradicts another only where no tip moved. -/
theorem prepared_view_is_a_snapshot (computeTxid : RawTransaction → Txid) (core : HonestCore) (network : Network)
    (descriptor : DefiniteDescriptor) (scripts : Scripts) (outcome : Except String PreparedView) (calls : List Call)
    (ran : prepareView (libraryFunctions computeTxid) core.view network descriptor scripts [] = (outcome, calls)) :
    calls.count .chainInfo ≤ inventoryPasses ∧
      (∀ prepared, outcome = .ok prepared → ∃ tip witnessScript,
        Accepted (libraryFunctions computeTxid) witnessScript scripts prepared.bracket ∧
        scripts.change = descriptor.scriptPubkey ∧ (prepared.utxos.map Utxo.outpoint).Nodup ∧
        Snapshot core descriptor.scriptPubkey prepared.bracket calls tip ∧
        prepared.bracket.primaryVsize ≤ maxComposerVsize ∧ prepared.bracket.escapeVsize ≤ maxComposerVsize ∧
        ∀ amounts primary escape, pair prepared amounts = .ok (primary, escape) →
          prepared.finalizedVsize (libraryFunctions computeTxid) primary.unsignedTx =
              .ok prepared.bracket.primaryVsize ∧
            prepared.finalizedVsize (libraryFunctions computeTxid) escape.unsignedTx =
              .ok prepared.bracket.escapeVsize) ∧
      ∀ text, outcome = .error text → Contradiction text →
        (∃ k, calls.length = k + 1 ∧ core.failure k = none) → Steady core calls := by
  have leaves : Leaves (prepareView (libraryFunctions computeTxid) core.view network descriptor scripts) [] _ :=
    leaves_prepareView
  unfold Leaves at leaves
  rw [ran] at leaves
  obtain ⟨counted, judged⟩ := leaves
  refine ⟨counted, ?_, ?_⟩
  · rintro prepared rfl
    obtain ⟨⟨primary, escape, built, primarySize, escapeSize⟩, tip, snapshot⟩ := judged
    obtain ⟨witnessScript, _, _, own, accepted⟩ := prepareView_answered ran
    refine ⟨tip, witnessScript, accepted, own, accepted.distinct, snapshot, finalizedVsize_le primarySize,
      finalizedVsize_le escapeSize, ?_⟩
    intro amounts primary' escape' built'
    obtain ⟨first, second⟩ := Compose.finalizedVsize_built (show (libraryFunctions computeTxid).weight = _ from rfl)
      prepared.weight built built'
    exact ⟨first.symm.trans primarySize, second.symm.trans escapeSize⟩
  · rintro text rfl contradicts ⟨last, length, answered⟩
    rcases judged contradicts with rfl | ⟨k, length', failed⟩ | steady
    · cases length
    · have same : k = last := Nat.succ.inj (length'.symm.trans length)
      rw [same, answered] at failed
      cases failed
    · exact steady

namespace BracketSample

def deposit : ScanCoin := ⟨⟨[9], 0⟩, 100000, Signer.Sample.vaultScript, 5⟩

/-- One coin, and a Core that finds a block right after it is first asked. -/
def core : HonestCore where
  height tip := 9 + tip.length
  confirmed _ outpoint :=
    if outpoint = deposit.outpoint then some ⟨deposit.value, deposit.script, deposit.height, false⟩ else none
  world k := ⟨if k = 0 then [1] else [1, 1], ∅⟩
  failure _ := none
  scanned _ script := if script = deposit.script then [deposit] else []
  scans := by
    intro k script coin
    constructor
    · intro member
      split_ifs at member with own
      · rw [List.mem_singleton] at member
        subst member
        exact ⟨own.symm, false, if_pos rfl⟩
      · cases member
    · rintro ⟨own, coinbase, found⟩
      split_ifs at found with same
      obtain ⟨outpoint, value, paid, height⟩ := coin
      simp only at own same found
      cases found
      rw [if_pos own.symm, same]
      exact List.mem_singleton_self _
  identity _ := ⟨some "regtest", none⟩
  initialBlockDownload _ := false
  block _ _ := some [1]
  transaction _ _ _ := some Signer.Sample.deposit
  estimate _ := none
  floors _ := ⟨1000, 1000⟩

def descriptor : DefiniteDescriptor := ⟨deposit.script, .ok [81], .ok 100⟩

def scripts : Scripts := ⟨Signer.Sample.hotScript, deposit.script, Signer.Sample.escapeScript⟩

def computeTxid (tx : RawTransaction) : Txid := [UInt8.ofNat tx.lockTime]

end BracketSample

theorem prepared_view_is_a_snapshot_sample :
    ∃ prepared calls, prepareView (libraryFunctions BracketSample.computeTxid) BracketSample.core.view .regtest
        BracketSample.descriptor BracketSample.scripts [] = (.ok prepared, calls) ∧
      calls.count .chainInfo ≤ inventoryPasses ∧ (prepared.utxos.map Utxo.outpoint).Nodup := by
  have prepares : (prepareView (libraryFunctions BracketSample.computeTxid) BracketSample.core.view .regtest
      BracketSample.descriptor BracketSample.scripts []).1.isOk = true := by decide
  cases ran : prepareView (libraryFunctions BracketSample.computeTxid) BracketSample.core.view .regtest
      BracketSample.descriptor BracketSample.scripts [] with
  | mk outcome calls =>
    cases outcome with
    | error text =>
      rw [ran] at prepares
      cases prepares
    | ok prepared =>
      obtain ⟨counted, holds, _⟩ := prepared_view_is_a_snapshot BracketSample.computeTxid BracketSample.core .regtest
        BracketSample.descriptor BracketSample.scripts (.ok prepared) calls ran
      obtain ⟨_, _, _, _, distinct, _⟩ := holds prepared rfl
      exact ⟨prepared, calls, rfl, counted, distinct⟩

end BtcPolicy.Inventory
