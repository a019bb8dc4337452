import BtcPolicy.Coverage.Denominator

/-! The advance by blocks against a scan of the whole set: what the blocks in between do to the unspent outputs, they
do to the watched ones among them. -/

namespace BtcPolicy.Coverage
open Bitcoin HashChain Programs

variable {ledger : Ledger}

/-! ### The unspent outputs -/

namespace Ledger

variable (ledger)

/-- The inputs of a transaction that is connected go, and its outputs come. -/
def connect (unspents : Finset OutPoint) (txid : Txid) : Finset OutPoint :=
  unspents.filter (fun outpoint => outpoint ∉ ledger.inputs txid) ∪ (ledger.outputs txid).toFinset

/-- The unspent outputs after the blocks of a chain, one transaction after the other. -/
def utxos (hashes : List BlockHash) : Finset OutPoint := (ledger.txids hashes).foldl ledger.connect ∅

/-- Those that pay one of `scripts`. -/
def paying (scripts : List Script) (unspents : Finset OutPoint) : Finset OutPoint :=
  unspents.filter (fun outpoint => (ledger.script outpoint).any (fun script => decide (script ∈ scripts)))

/-- No transaction comes twice, and none spends an output of itself or of a later one. -/
def Ordered (txids : List Txid) : Prop :=
  txids.Pairwise (fun earlier later => earlier ≠ later ∧ ∀ outpoint ∈ ledger.inputs earlier, outpoint.txid ≠ later) ∧
    ∀ txid ∈ txids, ∀ outpoint ∈ ledger.inputs txid, outpoint.txid ≠ txid

variable {ledger} {scripts : List Script} {unspents : Finset OutPoint} {txid : Txid} {outpoint : OutPoint}

theorem mem_connect : outpoint ∈ ledger.connect unspents txid ↔
    outpoint ∈ unspents ∧ outpoint ∉ ledger.inputs txid ∨ outpoint ∈ ledger.outputs txid := by
  unfold connect
  rw [Finset.mem_union, Finset.mem_filter, List.mem_toFinset]

theorem mem_paying : outpoint ∈ ledger.paying scripts unspents ↔
    outpoint ∈ unspents ∧ (ledger.script outpoint).any (fun script => decide (script ∈ scripts)) = true :=
  Finset.mem_filter

theorem utxos_append (front added : List BlockHash) :
    ledger.utxos (front ++ added) = (ledger.txids added).foldl ledger.connect (ledger.utxos front) := by
  unfold utxos
  rw [txids_append, List.foldl_append]

theorem txid_of_mem_outputs (created : outpoint ∈ ledger.outputs txid) : outpoint.txid = txid := by
  obtain ⟨vout, _, rfl⟩ := List.mem_map.mp created
  rfl

/-- In a chain in order, what is left after the last transaction is what some transaction created and none spends. -/
theorem mem_foldl_connect {txids : List Txid} (ordered : ledger.Ordered txids) :
    outpoint ∈ txids.foldl ledger.connect unspents ↔
      (outpoint ∈ unspents ∨ ∃ txid ∈ txids, outpoint ∈ ledger.outputs txid) ∧
        ∀ txid ∈ txids, outpoint ∉ ledger.inputs txid := by
  induction txids generalizing unspents with
  | nil => simp
  | cons txid rest ih =>
    obtain ⟨pairwise, own⟩ := ordered
    obtain ⟨first, later⟩ := List.pairwise_cons.mp pairwise
    obtain ⟨self, others⟩ := List.forall_mem_cons.mp own
    rw [List.foldl_cons, ih ⟨later, others⟩, mem_connect]
    simp only [List.exists_mem_cons_iff, List.forall_mem_cons]
    constructor
    · rintro ⟨(⟨held, kept⟩ | created) | ⟨creator, listed, created⟩, unspent⟩
      · exact ⟨.inl held, kept, unspent⟩
      · exact ⟨.inr (.inl created), fun spends => self _ spends (txid_of_mem_outputs created), unspent⟩
      · exact ⟨.inr (.inr ⟨creator, listed, created⟩),
          fun spends => (first creator listed).2 _ spends (txid_of_mem_outputs created), unspent⟩
    · rintro ⟨held | created | ⟨creator, listed, created⟩, kept, unspent⟩
      · exact ⟨.inl (.inl ⟨held, kept⟩), unspent⟩
      · exact ⟨.inl (.inr created), unspent⟩
      · exact ⟨.inr ⟨creator, listed, created⟩, unspent⟩

/-- So the set of unspent outputs is the one a scan goes through. -/
theorem mem_paying_utxos {hashes : List BlockHash} (ordered : ledger.Ordered (ledger.txids hashes)) :
    outpoint ∈ ledger.paying scripts (ledger.utxos hashes) ↔ ledger.Unspent scripts hashes outpoint := by
  rw [mem_paying, utxos, mem_foldl_connect ordered]
  constructor
  · rintro ⟨⟨absent | ⟨txid, listed, created⟩, unspent⟩, pays⟩
    · cases absent
    · rw [Option.any_eq_true] at pays
      obtain ⟨script, found, watched⟩ := pays
      refine ⟨⟨script, of_decide_eq_true watched, found⟩, txid_of_mem_outputs created ▸ listed, ?_⟩
      rintro ⟨spender, member, spends⟩
      exact unspent spender member spends
  · rintro ⟨⟨script, watched, found⟩, confirmed, unspent⟩
    refine ⟨⟨.inr ⟨outpoint.txid, confirmed, mem_outputs found⟩, fun spender member spends => ?_⟩, ?_⟩
    · exact unspent ⟨spender, member, spends⟩
    · rw [found, Option.any_some, decide_eq_true watched]

end Ledger

/-- And a scan finds those that pay its scripts. -/
theorem scantxoutset_of_ordered {scripts : List Script} {hashes : List BlockHash}
    (ordered : ledger.Ordered (ledger.txids hashes)) :
    ((scantxoutset ledger scripts hashes).map Prod.fst).toFinset = ledger.paying scripts (ledger.utxos hashes) := by
  ext outpoint
  rw [Ledger.mem_paying_utxos ordered, List.mem_toFinset, List.mem_map]
  constructor
  · rintro ⟨⟨_, height⟩, listed, rfl⟩
    exact (mem_scantxoutset.mp listed).1
  · intro unspent
    obtain ⟨height, listed⟩ := exists_scanned unspent
    exact ⟨(outpoint, height), listed, rfl⟩

/-! ### The advance -/

section Delta

variable {scripts : List Script}

theorem applyTx_paying (unspents : Finset OutPoint) (txid : Txid) :
    applyTx ledger scripts (ledger.paying scripts unspents) txid = ledger.paying scripts (ledger.connect unspents txid) := by
  ext outpoint
  rw [applyTx, Finset.mem_union, Finset.mem_filter, List.mem_toFinset, List.mem_filter, Ledger.mem_paying,
    Ledger.mem_paying, Ledger.mem_connect]
  tauto

theorem foldl_applyTx_paying (txids : List Txid) (unspents : Finset OutPoint) :
    txids.foldl (applyTx ledger scripts) (ledger.paying scripts unspents) =
      ledger.paying scripts (txids.foldl ledger.connect unspents) := by
  induction txids generalizing unspents with
  | nil => rfl
  | cons txid rest ih => rw [List.foldl_cons, List.foldl_cons, applyTx_paying, ih]

theorem applyTx_mono {fewer more : Finset OutPoint} (subset : fewer ⊆ more) (txid : Txid) :
    applyTx ledger scripts fewer txid ⊆ applyTx ledger scripts more txid :=
  Finset.union_subset_union_left (Finset.filter_subset_filter _ subset)

theorem foldl_applyTx_mono {fewer more : Finset OutPoint} (subset : fewer ⊆ more) (txids : List Txid) :
    txids.foldl (applyTx ledger scripts) fewer ⊆ txids.foldl (applyTx ledger scripts) more := by
  induction txids generalizing fewer more with
  | nil => exact subset
  | cons txid rest ih => exact ih (applyTx_mono subset txid)

end Delta

/-- Blocks that follow one another from the tip extend the chain, up to the last of them. -/
theorem exists_extension (chain : Chain ledger) {tip : BlockHash} (ends : chain.tip = tip) {added : List BlockHash}
    (linked : Linked ledger.parent (tip :: added)) :
    ∃ grown : Chain ledger, grown.hashes = chain.hashes ++ added ∧
      grown.tip = (tip :: added).getLast (List.cons_ne_nil _ _) := by
  have split : chain.hashes.dropLast ++ [tip] = chain.hashes := by
    rw [← ends]
    exact List.dropLast_append_getLast chain.nonempty
  have joined : chain.hashes ++ added = chain.hashes.dropLast ++ tip :: added := by
    nth_rewrite 1 [← split]
    rw [List.append_assoc, List.singleton_append]
  have lower : Rooted ledger.parent (chain.hashes.dropLast ++ [tip]) := by
    rw [split]
    exact chain.rooted
  have rooted : Rooted ledger.parent (chain.hashes.dropLast ++ tip :: added) := lower.extend linked
  refine ⟨⟨chain.hashes ++ added, joined ▸ rooted, List.append_ne_nil_of_left_ne_nil chain.nonempty _⟩, rfl, ?_⟩
  simp only [Chain.tip, joined]
  exact List.getLast_append_of_ne_nil _ (List.cons_ne_nil _ _)

/-- Whatever chain is active at each read, an advance that returns extends the chain of the cache by at most 32 blocks
and ends at a block of the active chain. Where the cache held the watched unspent outputs of its own block, it then
holds those of the new one, which a scan at that block finds; and where it held more, it holds no less. -/
theorem advance_equals_a_full_scan (calls : DeltaCalls ledger) (cache : VaultUnspentCache) (chain : Chain ledger)
    (tip : chain.tip = cache.bestblock) (height : chain.hashes.length = cache.height + 1) (backend : Backend ledger)
    (refreshed : VaultUnspentCache) (after : Backend ledger)
    (returned : advanceConfirmedScan calls cache backend = (.ok refreshed, after)) :
    ∃ (added : List BlockHash) (grown : Chain ledger), grown.hashes = chain.hashes ++ added ∧
      added.length ≤ maxVaultScanDeltaBlocks ∧ grown.hashes.length = refreshed.height + 1 ∧
      grown.tip = refreshed.bestblock ∧ refreshed.scripts = cache.scripts ∧
      (added ≠ [] → calls.last.chain.hashes[refreshed.height]? = some refreshed.bestblock) ∧
      (cache.candidates = ledger.paying cache.scripts (ledger.utxos chain.hashes) →
        refreshed.candidates = ledger.paying cache.scripts (ledger.utxos grown.hashes) ∧
          (ledger.Ordered (ledger.txids grown.hashes) →
            refreshed.candidates = ((scantxoutset ledger cache.scripts grown.hashes).map Prod.fst).toFinset)) ∧
      (ledger.paying cache.scripts (ledger.utxos chain.hashes) ⊆ cache.candidates →
        ledger.paying cache.scripts (ledger.utxos grown.hashes) ⊆ refreshed.candidates) := by
  have steady : Steady (fun _ : Backend ledger => True) := fun _ _ holds => holds
  obtain ⟨⟨added, advanced⟩, _⟩ := (triple_advanceConfirmedScan steady calls cache).run trivial returned
  obtain ⟨grown, appended, ends⟩ := exists_extension chain tip advanced.spans.linked
  have applied := advanced.spans.applied
  have scanned : ledger.paying cache.scripts (ledger.utxos grown.hashes) = (ledger.txids added).foldl
      (applyTx ledger cache.scripts) (ledger.paying cache.scripts (ledger.utxos chain.hashes)) := by
    rw [appended, Ledger.utxos_append, foldl_applyTx_paying]
  refine ⟨added, grown, appended, advanced.bounded, ?_, ?_, advanced.scripts, advanced.active, ?_, ?_⟩
  · rw [appended, List.length_append, height, advanced.height]
    omega
  · rw [ends]
    exact advanced.spans.last.symm
  · intro precise
    have same : refreshed.candidates = ledger.paying cache.scripts (ledger.utxos grown.hashes) := by
      rw [scanned, ← precise]
      exact applied
    exact ⟨same, fun ordered => same.trans (scantxoutset_of_ordered ordered).symm⟩
  · intro superset
    rw [scanned]
    exact (foldl_applyTx_mono superset _).trans (le_of_eq applied.symm)

/-- The cache at block 1, while block 3 is the tip. -/
def Sample.cachedEarly : VaultUnspentCache := ⟨hash 1, 1, vaultScripts, {⟨[21], 0⟩}⟩

def Sample.deltaCalls : DeltaCalls sampleLedger :=
  ⟨moment main main, fun _ => moment main main, fun _ => moment main main, moment main main⟩

/-- Block 2 spends the output, so that nothing is left at block 3. -/
theorem Sample.advanced_early :
    (advanceConfirmedScan Sample.deltaCalls Sample.cachedEarly initialBackend).1.toOption.map
      (fun cache => (cache.bestblock, cache.height, cache.candidates)) = some (hash 3, 3, ∅) := by
  decide

theorem advance_equals_a_full_scan_sample :
    ∃ refreshed after, advanceConfirmedScan Sample.deltaCalls Sample.cachedEarly initialBackend = (.ok refreshed, after) ∧
      ∃ (added : List BlockHash) (grown : Chain Sample.sampleLedger), grown.hashes = Sample.early.hashes ++ added ∧
        grown.tip = refreshed.bestblock := by
  cases returned : advanceConfirmedScan Sample.deltaCalls Sample.cachedEarly initialBackend with
  | mk outcome after =>
    cases outcome with
    | error e =>
      have advanced := Sample.advanced_early
      rw [returned] at advanced
      cases advanced
    | ok refreshed =>
      obtain ⟨added, grown, appended, _, _, ends, _⟩ := advance_equals_a_full_scan Sample.deltaCalls Sample.cachedEarly
        Sample.early rfl rfl initialBackend refreshed after returned
      exact ⟨refreshed, after, rfl, added, grown, appended, ends⟩

end BtcPolicy.Coverage
