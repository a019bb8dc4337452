import BtcPolicy.Coverage.Refresh

/-! No cache the passes install leaves out an output that is unspent at its block. The wallet is blind to
what was spent before its birthday, so a read of it counts only above the block it was proved at. -/

namespace BtcPolicy.Coverage
open Bitcoin HashChain Programs

variable {ledger : Ledger}

/-! ## Outputs along a chain -/

theorem Chain.getLast_hashes (chain : Chain ledger) : chain.hashes.getLast? = some chain.tip :=
  List.getLast?_eq_some_getLast chain.nonempty

/-- The chain up to one of its blocks. -/
theorem Chain.exists_below (chain : Chain ledger) {height : Nat} {hash : BlockHash}
    (found : chain.hashes[height]? = some hash) :
    ∃ lower : Chain ledger, lower.tip = hash ∧ lower.hashes = chain.hashes.take (height + 1) := by
  have last : (chain.hashes.take (height + 1)).getLast? = some hash := by
    rw [List.take_add_one, found]
    simp
  have nonempty : chain.hashes.take (height + 1) ≠ [] := by
    intro empty
    rw [empty] at last
    cases last
  let lower : Chain ledger := ⟨chain.hashes.take (height + 1), chain.rooted.take _, nonempty⟩
  exact ⟨lower, Option.some.inj (lower.getLast_hashes.symm.trans last), rfl⟩

namespace Ledger

@[simp] theorem txids_append (front rest : List BlockHash) :
    ledger.txids (front ++ rest) = ledger.txids front ++ ledger.txids rest := List.flatMap_append

@[simp] theorem txids_cons (hash : BlockHash) (rest : List BlockHash) :
    ledger.txids (hash :: rest) = (ledger.block hash).tx ++ ledger.txids rest := List.flatMap_cons

@[simp] theorem txids_nil : ledger.txids [] = [] := rfl

theorem mem_outputs {outpoint : OutPoint} {script : Script} (pays : ledger.script outpoint = some script) :
    outpoint ∈ ledger.outputs outpoint.txid := by
  have inside : outpoint.vout < (ledger.tx outpoint.txid).vout.length := (List.getElem?_eq_some_iff.mp pays).1
  exact List.mem_map.mpr ⟨outpoint.vout, List.mem_range.mpr inside, rfl⟩

theorem spent_append {front rest : List BlockHash} {outpoint : OutPoint} :
    ledger.Spent (front ++ rest) outpoint ↔ ledger.Spent front outpoint ∨ ledger.Spent rest outpoint := by
  simp only [Spent, txids_append, List.mem_append, or_and_right, exists_or]

/-- What is unspent at a block and stands on a chain below it is unspent there. -/
theorem Unspent.below {scripts : List Script} {front rest : List BlockHash} {outpoint : OutPoint}
    (unspent : ledger.Unspent scripts (front ++ rest) outpoint) (confirmed : outpoint.txid ∈ ledger.txids front) :
    ledger.Unspent scripts front outpoint where
  watched := unspent.watched
  confirmed := confirmed
  unspent := by
    intro spent
    exact unspent.unspent (spent_append.mpr (Or.inl spent))

end Ledger

/-- The candidates hold every watched output that is unspent at the block. -/
def Holds (ledger : Ledger) (scripts : List Script) (block : BlockHash) (candidates : Finset OutPoint) : Prop :=
  ∀ chain : Chain ledger, chain.tip = block →
    ∀ outpoint, ledger.Unspent scripts chain.hashes outpoint → outpoint ∈ candidates

/-- The cache holds every output paying its scripts that is unspent at its block. -/
def Complete (ledger : Ledger) (cache : VaultUnspentCache) : Prop :=
  Holds ledger cache.scripts cache.bestblock cache.candidates

/-! ## The advance by blocks -/

theorem mem_applyTx {watched : List Script} {candidates : Finset OutPoint} {txid : Txid} {outpoint : OutPoint}
    (pays : ∃ script ∈ watched, ledger.script outpoint = some script)
    (held : outpoint ∈ candidates ∧ outpoint ∉ ledger.inputs txid ∨ outpoint.txid = txid) :
    outpoint ∈ applyTx ledger watched candidates txid := by
  rw [applyTx, Finset.mem_union]
  obtain ⟨carried, kept⟩ | rfl := held
  · left
    exact Finset.mem_filter.mpr ⟨carried, kept⟩
  · right
    obtain ⟨script, listed, pays⟩ := pays
    have told : (ledger.script outpoint).any (fun script => decide (script ∈ watched)) = true := by
      rw [pays, Option.any_some, decide_eq_true listed]
    exact List.mem_toFinset.mpr (List.mem_filter.mpr ⟨Ledger.mem_outputs pays, told⟩)

theorem mem_foldl_applyTx {watched : List Script} {txids : List Txid} {candidates : Finset OutPoint}
    {outpoint : OutPoint} (pays : ∃ script ∈ watched, ledger.script outpoint = some script)
    (unspent : ∀ txid ∈ txids, outpoint ∉ ledger.inputs txid) (held : outpoint ∈ candidates ∨ outpoint.txid ∈ txids) :
    outpoint ∈ txids.foldl (applyTx ledger watched) candidates := by
  induction txids generalizing candidates with
  | nil => simpa using held
  | cons txid txids ih =>
    have first : outpoint ∉ ledger.inputs txid := unspent txid List.mem_cons_self
    apply ih (fun later member => unspent later (List.mem_cons_of_mem _ member))
    obtain carried | created := held
    · exact Or.inl (mem_applyTx pays (Or.inl ⟨carried, first⟩))
    · obtain here | later := List.mem_cons.mp created
      · exact Or.inl (mem_applyTx pays (Or.inr here))
      · exact Or.inr later

/-- One block more: the parent's outputs go on unless the block spends them, and its own come in. -/
theorem holds_child {scripts : List Script} {parent hash : BlockHash} {candidates : Finset OutPoint}
    (complete : Holds ledger scripts parent candidates) (linked : (ledger.block hash).previousblockhash = some parent) :
    Holds ledger scripts hash ((ledger.block hash).tx.foldl (applyTx ledger scripts) candidates) := by
  intro chain ends outpoint unspent
  obtain ⟨front, split⟩ : ∃ front, chain.hashes = front ++ [hash] := by
    refine ⟨chain.hashes.dropLast, (List.dropLast_append_getLast? hash ?_).symm⟩
    rw [chain.getLast_hashes, ends]
    rfl
  rw [split] at unspent
  have rooted : Rooted ledger.parent (front ++ [hash]) := split ▸ chain.rooted
  have last : front.getLast? = some parent := rooted.below_last linked
  have nonempty : front ≠ [] := by
    rintro rfl
    cases last
  let lower : Chain ledger := ⟨front, by simpa using rooted.take front.length, nonempty⟩
  have tip : lower.tip = parent := Option.some.inj (lower.getLast_hashes.symm.trans last)
  apply mem_foldl_applyTx unspent.watched
  · intro txid listed spends
    exact unspent.unspent (Ledger.spent_append.mpr (Or.inr ⟨txid, by simpa using listed, spends⟩))
  · have confirmed := unspent.confirmed
    rw [Ledger.txids_append, List.mem_append] at confirmed
    obtain earlier | here := confirmed
    · exact Or.inl (complete lower tip outpoint (unspent.below earlier))
    · exact Or.inr (by simpa using here)

/-! ## The cold scan -/

theorem mem_scantxoutset {scripts : List Script} {hashes : List BlockHash} {outpoint : OutPoint} {height : Nat} :
    (outpoint, height) ∈ scantxoutset ledger scripts hashes ↔ ledger.Unspent scripts hashes outpoint ∧
      ∃ hash, hashes[height]? = some hash ∧ outpoint.txid ∈ (ledger.block hash).tx := by
  simp only [scantxoutset, List.mem_flatMap, List.mem_map, List.mem_filter, decide_eq_true_eq, Prod.mk.injEq]
  constructor
  · rintro ⟨⟨height, hash⟩, entry, outpoint, ⟨⟨txid, listed, output⟩, unspent⟩, rfl, rfl⟩
    obtain ⟨i, found, same⟩ := mem_numbered.mp entry
    obtain ⟨vout, _, rfl⟩ := List.mem_map.mp output
    refine ⟨unspent, hash, ?_, listed⟩
    rw [show height = i by simpa using same]
    exact found
  · rintro ⟨unspent, hash, found, listed⟩
    obtain ⟨script, _, pays⟩ := unspent.watched
    exact ⟨(height, hash), mem_numbered.mpr ⟨height, found, by simp⟩, outpoint,
      ⟨⟨outpoint.txid, listed, Ledger.mem_outputs pays⟩, unspent⟩, rfl, rfl⟩

/-- Every unspent output of a chain is in its scan. -/
theorem exists_scanned {scripts : List Script} {hashes : List BlockHash} {outpoint : OutPoint}
    (unspent : ledger.Unspent scripts hashes outpoint) :
    ∃ height, (outpoint, height) ∈ scantxoutset ledger scripts hashes := by
  obtain ⟨hash, listed, confirmed⟩ := List.mem_flatMap.mp unspent.confirmed
  obtain ⟨height, found⟩ := List.mem_iff_getElem?.mp listed
  exact ⟨height, mem_scantxoutset.mpr ⟨unspent, hash, found, confirmed⟩⟩

/-- The fold over the scan's heights finds the least of them, if there is one. -/
theorem oldest_spec (entries : List (OutPoint × Nat)) (start : Option Nat) :
    match entries.foldl (fun oldest entry => some (oldest.elim entry.2 (min entry.2))) start with
    | none => start = none ∧ entries = []
    | some oldest => (∀ entry ∈ entries, oldest ≤ entry.2) ∧ (∀ first, start = some first → oldest ≤ first) ∧
        (start = some oldest ∨ ∃ entry ∈ entries, entry.2 = oldest) := by
  induction entries generalizing start with
  | nil => cases start <;> simp
  | cons entry entries ih =>
    have rest := ih (some (start.elim entry.2 (min entry.2)))
    rw [List.foldl_cons]
    cases folded : entries.foldl (fun oldest entry => some (oldest.elim entry.2 (min entry.2)))
        (some (start.elim entry.2 (min entry.2))) with
    | none =>
      rw [folded] at rest
      cases rest.1
    | some oldest =>
      rw [folded] at rest
      obtain ⟨below, first, attained⟩ := rest
      have here : oldest ≤ start.elim entry.2 (min entry.2) := first _ rfl
      cases start with
      | none =>
        simp only [Option.elim_none, Option.some.injEq] at here attained
        refine ⟨?_, by simp, Or.inr ?_⟩
        · simpa [here] using below
        · obtain same | ⟨later, member, same⟩ := attained
          · exact ⟨entry, List.mem_cons_self, same⟩
          · exact ⟨later, List.mem_cons_of_mem _ member, same⟩
      | some value =>
        simp only [Option.elim_some, Option.some.injEq] at here attained
        refine ⟨?_, ?_, ?_⟩
        · intro other member
          obtain rfl | later := List.mem_cons.mp member
          · omega
          · exact below other later
        · rintro _ ⟨⟩
          omega
        · obtain same | ⟨later, member, same⟩ := attained
          · by_cases less : entry.2 ≤ value
            · exact Or.inr ⟨entry, List.mem_cons_self, by omega⟩
            · left
              congr 1
              omega
          · exact Or.inr ⟨later, List.mem_cons_of_mem _ member, same⟩

/-- A scan that is complete at its block, and whose oldest height is at or below every unspent output. -/
structure Dated (ledger : Ledger) (scripts : List Script) (coldScan : ColdScan) : Prop where
  complete : Complete ledger coldScan.cache
  scripts_eq : coldScan.cache.scripts = scripts
  height_eq : ∀ chain : Chain ledger, chain.tip = coldScan.cache.bestblock →
    chain.hashes.length = coldScan.cache.height + 1
  oldest_le : coldScan.oldestUnspentHeight ≤ coldScan.cache.height
  oldest_spec : ∀ chain : Chain ledger, chain.tip = coldScan.cache.bestblock → ∀ outpoint,
    ledger.Unspent scripts chain.hashes outpoint →
      outpoint.txid ∈ ledger.txids (chain.hashes.drop coldScan.oldestUnspentHeight)

/-- A transaction of the block at a height is among those from any lower height on. -/
theorem mem_txids_drop {hashes : List BlockHash} {height low : Nat} {hash : BlockHash} {txid : Txid}
    (found : hashes[height]? = some hash) (listed : txid ∈ (ledger.block hash).tx) (le : low ≤ height) :
    txid ∈ ledger.txids (hashes.drop low) := by
  apply List.mem_flatMap.mpr ⟨hash, ?_, listed⟩
  apply List.mem_of_getElem? (i := height - low)
  rw [List.getElem?_drop, Nat.add_sub_cancel' le]
  exact found

/-- The chain of the scan's block is the one the scan read, as far as the height it was confirmed at. -/
theorem dated_scan {scripts : List Script} (scanned active : Chain ledger) {height : Nat}
    (confirmed : active.hashes[height]? = some scanned.tip) :
    Dated ledger scripts {
      oldestUnspentHeight := ((scantxoutset ledger scripts scanned.hashes).foldl
        (fun oldest entry => some (oldest.elim entry.2 (min entry.2))) (none : Option Nat)).getD height
      cache := {
        bestblock := scanned.tip
        height := height
        scripts := scripts
        candidates := ((scantxoutset ledger scripts scanned.hashes).map Prod.fst).toFinset } } := by
  have inside : height < active.hashes.length := (List.getElem?_eq_some_iff.mp confirmed).1
  have same : ∀ chain : Chain ledger, chain.tip = scanned.tip → chain.hashes = scanned.hashes := by
    intro chain tip
    apply chain.rooted.unique scanned.rooted chain.getLast_hashes
    rw [scanned.getLast_hashes, tip]
  have length : scanned.hashes.length = height + 1 := by
    have taken := active.rooted.eq_take scanned.rooted confirmed scanned.getLast_hashes
    rw [taken, List.length_take]
    omega
  have spec := oldest_spec (scantxoutset ledger scripts scanned.hashes) none
  cases folded : (scantxoutset ledger scripts scanned.hashes).foldl
      (fun oldest entry => some (oldest.elim entry.2 (min entry.2))) (none : Option Nat) with
  | none =>
    rw [folded] at spec
    have nothing : ∀ outpoint, ¬ ledger.Unspent scripts scanned.hashes outpoint := by
      intro outpoint unspent
      obtain ⟨height, member⟩ := exists_scanned unspent
      rw [spec.2] at member
      cases member
    constructor
    · intro chain tip outpoint unspent
      exact absurd (same chain tip ▸ unspent) (nothing outpoint)
    · rfl
    · intro chain tip
      rw [same chain tip]
      exact length
    · exact le_rfl
    · intro chain tip outpoint unspent
      exact absurd (same chain tip ▸ unspent) (nothing outpoint)
  | some oldest =>
    rw [folded] at spec
    obtain ⟨below, _, attained⟩ := spec
    constructor
    · intro chain tip outpoint unspent
      rw [same chain tip] at unspent
      obtain ⟨height, member⟩ := exists_scanned unspent
      exact List.mem_toFinset.mpr (List.mem_map.mpr ⟨_, member, rfl⟩)
    · rfl
    · intro chain tip
      rw [same chain tip]
      exact length
    · obtain ⟨⟨⟩⟩ | ⟨⟨outpoint, lowest⟩, member, rfl⟩ := attained
      obtain ⟨_, hash, found, _⟩ := mem_scantxoutset.mp member
      have inside := (List.getElem?_eq_some_iff.mp found).1
      simp only [Option.getD_some]
      omega
    · intro chain tip outpoint unspent
      rw [same chain tip] at unspent ⊢
      obtain ⟨height, member⟩ := exists_scanned unspent
      obtain ⟨_, hash, found, listed⟩ := mem_scantxoutset.mp member
      exact mem_txids_drop found listed (below _ member)

/-! ## What the wallet knows -/

/-- The wallet's rescan starts at a block of the chain below `block`, and every output unspent at `block` was
created from that block on. -/
def Covered (ledger : Ledger) (scripts : List Script) (watches : List (Script × Nat)) (block : BlockHash) : Prop :=
  ∀ chain : Chain ledger, chain.tip = block → ∃ below first rest, chain.hashes = below ++ first :: rest ∧
    (∀ script ∈ scripts, ∃ birthday, (script, birthday) ∈ watches ∧
      birthday ≤ (ledger.block first).time + timestampWindow) ∧
    ∀ outpoint, ledger.Unspent scripts chain.hashes outpoint → outpoint.txid ∈ ledger.txids (first :: rest)

theorem Covered.mono {scripts : List Script} {watches more : List (Script × Nat)} {block : BlockHash}
    (covered : Covered ledger scripts watches block) (grown : watches ⊆ more) : Covered ledger scripts more block := by
  intro chain tip
  obtain ⟨below, first, rest, split, born, created⟩ := covered chain tip
  refine ⟨below, first, rest, split, ?_, created⟩
  intro script listed
  obtain ⟨birthday, watched, early⟩ := born script listed
  exact ⟨birthday, grown watched, early⟩

/-- An import whose birthday is the time of the scan's own block at the oldest height covers the scan. -/
theorem covered_import {scripts : List Script} {watches : List (Script × Nat)} {coldScan : ColdScan}
    (dated : Dated ledger scripts coldScan) (active : Chain ledger) {first : BlockHash}
    (held : active.hashes[coldScan.cache.height]? = some coldScan.cache.bestblock)
    (found : active.hashes[coldScan.oldestUnspentHeight]? = some first)
    (watched : ∀ script ∈ scripts, (script, (ledger.block first).time) ∈ watches) :
    Covered ledger scripts watches coldScan.cache.bestblock := by
  intro chain tip
  have taken : chain.hashes = active.hashes.take (coldScan.cache.height + 1) := by
    apply active.rooted.eq_take chain.rooted held
    rw [chain.getLast_hashes, tip]
  have here : chain.hashes[coldScan.oldestUnspentHeight]? = some first := by
    have low := dated.oldest_le
    rw [taken, List.getElem?_take_of_lt (by omega), found]
  obtain ⟨inside, same⟩ := List.getElem?_eq_some_iff.mp here
  have dropped : chain.hashes.drop coldScan.oldestUnspentHeight =
      first :: chain.hashes.drop (coldScan.oldestUnspentHeight + 1) := by
    rw [List.drop_eq_getElem_cons inside, same]
  refine ⟨chain.hashes.take coldScan.oldestUnspentHeight, first,
    chain.hashes.drop (coldScan.oldestUnspentHeight + 1), ?_, ?_, ?_⟩
  · rw [← dropped, List.take_append_drop]
  · intro script listed
    exact ⟨_, watched script listed, Nat.le_add_right _ _⟩
  · intro outpoint unspent
    rw [← dropped]
    exact dated.oldest_spec chain tip outpoint unspent

theorem mem_sinceBirthday {birthday : Nat} {below rest : List BlockHash} {first : BlockHash} {txid : Txid}
    (early : birthday ≤ (ledger.block first).time + timestampWindow) (listed : txid ∈ ledger.txids (first :: rest)) :
    txid ∈ ledger.txids (sinceBirthday ledger birthday (below ++ first :: rest)) := by
  induction below with
  | nil =>
    rw [sinceBirthday, List.nil_append, List.dropWhile_cons_of_neg]
    · exact listed
    · simpa using early
  | cons hash below ih =>
    rw [sinceBirthday, List.cons_append, List.dropWhile_cons]
    split
    · exact ih
    · rw [← List.cons_append, Ledger.txids_append]
      exact List.mem_append_right _ listed

/-- The output is one the wallet was bound to see: its script was imported from a block at or below the one
that created it. -/
structure Visible (ledger : Ledger) (watches : List (Script × Nat)) (hashes : List BlockHash) (outpoint : OutPoint)
    (below : List BlockHash) (first : BlockHash) (rest : List BlockHash) (script : Script) (birthday : Nat) : Prop where
  split : hashes = below ++ first :: rest
  pays : ledger.script outpoint = some script
  watched : (script, birthday) ∈ watches
  early : birthday ≤ (ledger.block first).time + timestampWindow
  created : outpoint.txid ∈ ledger.txids (first :: rest)

namespace Visible

variable {watches : List (Script × Nat)} {hashes below rest : List BlockHash} {outpoint : OutPoint}
  {first : BlockHash} {script : Script} {birthday : Nat}

theorem owned (visible : Visible ledger watches hashes outpoint below first rest script birthday) :
    owns ledger watches hashes outpoint = true := by
  apply List.any_eq_true.mpr ⟨_, visible.watched, ?_⟩
  rw [visible.split]
  simp only [visible.pays, decide_true, Bool.true_and, decide_eq_true_eq]
  exact mem_sinceBirthday visible.early visible.created

theorem confirmed (visible : Visible ledger watches hashes outpoint below first rest script birthday) :
    outpoint.txid ∈ ledger.txids hashes := by
  rw [visible.split, Ledger.txids_append]
  exact List.mem_append_right _ visible.created

/-- An output that is not above a point of the chain is visible on what is below it. -/
theorem below_fork (visible : Visible ledger watches hashes outpoint below first rest script birthday) {fork : Nat}
    (old : outpoint.txid ∉ ledger.txids (hashes.drop fork)) :
    ∃ shared, Visible ledger watches (hashes.take fork) outpoint below first shared script birthday := by
  have low : below.length < fork := by
    by_contra high
    apply old
    rw [visible.split, List.drop_append_of_le_length (by omega), Ledger.txids_append]
    exact List.mem_append_right _ visible.created
  obtain ⟨more, rfl⟩ : ∃ more, fork = below.length + (more + 1) := ⟨fork - below.length - 1, by omega⟩
  have split : hashes.take (below.length + (more + 1)) = below ++ first :: rest.take more := by
    rw [visible.split, List.take_length_add_append, List.take_succ_cons]
  refine ⟨rest.take more, split, visible.pays, visible.watched, visible.early, ?_⟩
  have created := visible.created
  rw [← List.take_append_drop more rest, ← List.cons_append, Ledger.txids_append, List.mem_append] at created
  apply created.resolve_right
  rwa [visible.split, List.drop_length_add_append, List.drop_succ_cons] at old

/-- What is visible on a chain is visible on every longer one. -/
theorem extend (visible : Visible ledger watches hashes outpoint below first rest script birthday)
    {longer : List BlockHash} (front : hashes <+: longer) :
    ∃ more, Visible ledger watches longer outpoint below first more script birthday := by
  obtain ⟨after, rfl⟩ := front
  refine ⟨rest ++ after, ?_, visible.pays, visible.watched, visible.early, ?_⟩
  · rw [visible.split, List.append_assoc, List.cons_append]
  · rw [← List.cons_append, Ledger.txids_append]
    exact List.mem_append_left _ visible.created

end Visible

/-- What is unspent at a block above a covered one is visible to the wallet. -/
theorem visible_of_covered {scripts : List Script} {watches : List (Script × Nat)} {anchor : BlockHash}
    (covered : Covered ledger scripts watches anchor) (chain : Chain ledger) (above : anchor ∈ chain.hashes)
    {outpoint : OutPoint} (unspent : ledger.Unspent scripts chain.hashes outpoint) :
    ∃ below first rest script birthday,
      Visible ledger watches chain.hashes outpoint below first rest script birthday := by
  obtain ⟨height, found⟩ := List.mem_iff_getElem?.mp above
  obtain ⟨lower, tip, taken⟩ := chain.exists_below found
  obtain ⟨below, first, rest, split, born, created⟩ := covered lower tip
  have whole : chain.hashes = below ++ first :: (rest ++ chain.hashes.drop (height + 1)) := by
    calc chain.hashes = lower.hashes ++ chain.hashes.drop (height + 1) := by rw [taken, List.take_append_drop]
      _ = below ++ first :: (rest ++ chain.hashes.drop (height + 1)) := by rw [split]; simp
  obtain ⟨script, listed, pays⟩ := unspent.watched
  obtain ⟨birthday, watched, early⟩ := born script listed
  refine ⟨below, first, rest ++ chain.hashes.drop (height + 1), script, birthday, whole, pays, watched, early, ?_⟩
  rw [← List.cons_append, Ledger.txids_append, List.mem_append]
  have unspent' : ledger.Unspent scripts (lower.hashes ++ chain.hashes.drop (height + 1)) outpoint := by
    rw [taken, List.take_append_drop]
    exact unspent
  have confirmed := unspent'.confirmed
  rw [Ledger.txids_append, List.mem_append] at confirmed
  obtain earlier | later := confirmed
  · exact Or.inl (created outpoint (unspent'.below earlier))
  · exact Or.inr later

/-! ## The wallet's listing -/

theorem take_forkLength (l other : List BlockHash) : l.take (forkLength l other) = other.take (forkLength l other) := by
  induction l generalizing other with
  | nil => simp [forkLength]
  | cons hash l ih =>
    cases other with
    | nil => simp [forkLength]
    | cons hash' other =>
      by_cases same : hash = hash'
      · rw [forkLength, if_pos same, List.take_succ_cons, List.take_succ_cons, same, ih]
      · rw [forkLength, if_neg same, List.take_zero, List.take_zero]

namespace Backend

variable {backend : Backend ledger} {now : Call ledger}

theorem mem_known {chain : Chain ledger} {txid : Txid} {outpoint : OutPoint} (seen : chain ∈ backend.seen)
    (listed : txid ∈ ledger.txids chain.hashes) (touched : outpoint ∈ ledger.outputs txid ++ ledger.inputs txid)
    (owned : owns ledger backend.watches chain.hashes outpoint = true) : txid ∈ backend.known now := by
  have concerned : concerns ledger backend.watches chain.hashes txid = true :=
    List.any_eq_true.mpr ⟨outpoint, touched, owned⟩
  apply List.mem_append_right
  exact List.mem_flatMap.mpr ⟨chain, seen, List.mem_filter.mpr ⟨listed, concerned⟩⟩

theorem chainOf_spec {hash : BlockHash} {hashes : List BlockHash} (found : backend.chainOf hash = some hashes) :
    ∃ chain ∈ backend.seen, ∃ height, chain.hashes[height]? = some hash ∧ hashes = chain.hashes.take (height + 1) := by
  obtain ⟨chain, seen, taken⟩ := List.exists_of_findSome?_eq_some found
  obtain ⟨height, at_height, same⟩ := Option.map_eq_some_iff.mp taken
  refine ⟨chain, seen, height, ?_, same.symm⟩
  obtain ⟨inside, value, _⟩ := List.idxOf?_eq_some_iff.mp at_height
  rw [List.getElem?_eq_getElem inside, value]

theorem mem_entriesOf {entry : Entry} {txid : Txid} (listed : entry ∈ backend.entriesOf now txid) :
    entry.outpoint.txid = txid ∧ (0 < entry.confirmations → txid ∈ ledger.txids now.processed.hashes) := by
  have deep : ∀ depth : Int, depth = (if txid ∈ ledger.txids now.processed.hashes then
      (confirmations ledger now.processed.hashes txid : Int) else -(now.conflicted txid : Int)) → 0 < depth →
      txid ∈ ledger.txids now.processed.hashes := by
    rintro _ rfl positive
    by_contra absent
    rw [if_neg absent] at positive
    omega
  obtain credit | send := List.mem_append.mp listed
  · obtain ⟨outpoint, output, rfl⟩ := List.mem_map.mp credit
    obtain ⟨vout, _, rfl⟩ := List.mem_map.mp (List.mem_of_mem_filter output)
    exact ⟨rfl, deep _ rfl⟩
  · split at send
    · obtain rfl := List.mem_singleton.mp send
      exact ⟨rfl, deep _ rfl⟩
    · cases send

/-- A confirmed debit is confirmed at the wallet's block. -/
theorem mem_confirmedDebits {fork : Nat} {txid : Txid} (debit : txid ∈ confirmedDebits (backend.entries now fork)) :
    txid ∈ ledger.txids now.processed.hashes := by
  obtain ⟨entry, kept, rfl⟩ := List.mem_map.mp (List.mem_dedup.mp debit)
  obtain ⟨listed, tests⟩ := List.mem_filter.mp kept
  rw [Bool.and_eq_true, decide_eq_true_eq, decide_eq_true_eq] at tests
  obtain ⟨txid, _, listed⟩ := List.mem_flatMap.mp listed
  obtain ⟨same, confirmed⟩ := mem_entriesOf listed
  rw [same]
  exact confirmed tests.1

variable {scripts : List Script} {outpoint : OutPoint}

theorem watching_of_watches {script : Script} {birthday : Nat} (watched : (script, birthday) ∈ backend.watches) :
    backend.watching script = true := decide_eq_true (List.mem_map.mpr ⟨_, watched, rfl⟩)

theorem confirmations_pos {hashes : List BlockHash} {txid : Txid} (listed : txid ∈ ledger.txids hashes) :
    0 < confirmations ledger hashes txid := by
  obtain ⟨hash, member, inside⟩ := List.mem_flatMap.mp listed
  rw [confirmations, List.length_pos_iff, Ne, List.dropWhile_eq_nil_iff]
  intro every
  simpa [inside] using every hash member

/-- A known output above the fork point is listed as a confirmed credit. -/
theorem mem_confirmedCredits {fork : Nat} {script : Script} {birthday : Nat} (known : outpoint.txid ∈ backend.known now)
    (pays : ledger.script outpoint = some script) (watched : (script, birthday) ∈ backend.watches)
    (recent : outpoint.txid ∈ ledger.txids (now.processed.hashes.drop fork)) :
    outpoint ∈ confirmedCredits (backend.entries now fork) := by
  have confirmed : outpoint.txid ∈ ledger.txids now.processed.hashes := by
    rw [← List.take_append_drop fork now.processed.hashes, Ledger.txids_append]
    exact List.mem_append_right _ recent
  have output : outpoint ∈ (ledger.outputs outpoint.txid).filter
      (fun outpoint => (ledger.script outpoint).any backend.watching) := by
    refine List.mem_filter.mpr ⟨Ledger.mem_outputs pays, ?_⟩
    rw [pays, Option.any_some]
    exact watching_of_watches watched
  refine List.mem_map.mpr ⟨⟨.credit (now.credit outpoint), outpoint,
    (confirmations ledger now.processed.hashes outpoint.txid : Int)⟩, List.mem_filter.mpr ⟨?_, ?_⟩, rfl⟩
  · refine List.mem_flatMap.mpr ⟨outpoint.txid, List.mem_filter.mpr ⟨known, ?_⟩, ?_⟩
    · simp [recent]
    · apply List.mem_append_left
      refine List.mem_map.mpr ⟨outpoint, output, ?_⟩
      rw [if_pos confirmed]
  · simpa using confirmations_pos confirmed

/-- A known unconfirmed transaction that spends a known output is expanded. -/
theorem mem_pendingTxids {fork : Nat} {txid : Txid} (known : txid ∈ backend.known now)
    (unconfirmed : txid ∉ ledger.txids now.processed.hashes) (spends : outpoint ∈ ledger.inputs txid)
    (parent : backend.knows now outpoint = true) : txid ∈ pendingTxids (backend.entries now fork) := by
  have debit : (ledger.inputs txid).any (backend.knows now) = true := List.any_eq_true.mpr ⟨outpoint, spends, parent⟩
  refine List.mem_dedup.mpr (List.mem_map.mpr ⟨⟨.send, ⟨txid, 0⟩, -(now.conflicted txid : Int)⟩,
    List.mem_filter.mpr ⟨?_, ?_⟩, rfl⟩)
  · refine List.mem_flatMap.mpr ⟨txid, List.mem_filter.mpr ⟨known, ?_⟩, ?_⟩
    · simp [unconfirmed]
    · apply List.mem_append_right
      rw [if_pos debit, if_neg unconfirmed]
      exact List.mem_singleton_self _
  · simp [creditOnly]

/-- Every output unspent at the wallet's block, above a covered one, is a confirmed credit when the whole history
is listed. -/
theorem listed_of_covered {anchor : BlockHash} (covered : Covered ledger scripts backend.watches anchor)
    (seen : now.processed ∈ backend.seen) (above : anchor ∈ now.processed.hashes)
    (unspent : ledger.Unspent scripts now.processed.hashes outpoint) :
    outpoint ∈ confirmedCredits (backend.entries now 0) := by
  obtain ⟨below, first, rest, script, birthday, visible⟩ := visible_of_covered covered now.processed above unspent
  have known : outpoint.txid ∈ backend.known now :=
    mem_known seen unspent.confirmed (List.mem_append_left _ (Ledger.mem_outputs visible.pays)) visible.owned
  exact mem_confirmedCredits known visible.pays visible.watched unspent.confirmed

/-- Above the fork point of a complete cache the wallet lists what is new, and what the abandoned branch spent
comes back through the spender, which is unconfirmed now. -/
theorem listed_since {anchor : BlockHash} (covered : Covered ledger scripts backend.watches anchor)
    (seen : now.processed ∈ backend.seen) (above : anchor ∈ now.processed.hashes) {hash : BlockHash}
    {candidates : Finset OutPoint} (complete : Holds ledger scripts hash candidates) {hashes : List BlockHash}
    (stored : backend.chainOf hash = some hashes)
    (unspent : ledger.Unspent scripts now.processed.hashes outpoint) :
    outpoint ∈ candidates ∨
      outpoint ∈ confirmedCredits (backend.entries now (forkLength hashes now.processed.hashes)) ∨
      ∃ txid ∈ pendingTxids (backend.entries now (forkLength hashes now.processed.hashes)),
        outpoint ∈ ledger.inputs txid := by
  obtain ⟨below, first, rest, script, birthday, visible⟩ := visible_of_covered covered now.processed above unspent
  have known : outpoint.txid ∈ backend.known now :=
    mem_known seen unspent.confirmed (List.mem_append_left _ (Ledger.mem_outputs visible.pays)) visible.owned
  generalize fork_eq : forkLength hashes now.processed.hashes = fork
  by_cases recent : outpoint.txid ∈ ledger.txids (now.processed.hashes.drop fork)
  · exact Or.inr (Or.inl (mem_confirmedCredits known visible.pays visible.watched recent))
  -- The output is at or below the fork point, so its block and the birthday's are on both chains.
  obtain ⟨shared, old⟩ := visible.below_fork recent
  have common : hashes.take fork = now.processed.hashes.take fork := by
    rw [← fork_eq]
    exact take_forkLength _ _
  rw [← common] at old
  obtain ⟨chain, followed, height, found, rfl⟩ := chainOf_spec stored
  obtain ⟨lower, tip, taken⟩ := chain.exists_below found
  obtain ⟨_, held⟩ := old.extend (List.take_prefix _ _)
  obtain ⟨_, whole⟩ := held.extend (List.take_prefix _ _)
  have confirmed : outpoint.txid ∈ ledger.txids lower.hashes := by
    rw [taken]
    exact held.confirmed
  by_cases spent : ledger.Spent lower.hashes outpoint
  · obtain ⟨txid, listed, spends⟩ := spent
    have inside : txid ∈ ledger.txids chain.hashes := by
      rw [← List.take_append_drop (height + 1) chain.hashes, Ledger.txids_append, ← taken]
      exact List.mem_append_left _ listed
    have spender : txid ∈ backend.known now := mem_known followed inside (List.mem_append_right _ spends) whole.owned
    have unconfirmed : txid ∉ ledger.txids now.processed.hashes := by
      intro confirmed
      exact unspent.unspent ⟨txid, confirmed, spends⟩
    have parent : backend.knows now outpoint = true := by
      rw [knows, decide_eq_true known, visible.pays, Option.any_some, watching_of_watches visible.watched]
      rfl
    exact Or.inr (Or.inr ⟨txid, mem_pendingTxids spender unconfirmed spends parent, spends⟩)
  · exact Or.inl (complete lower tip outpoint ⟨unspent.watched, confirmed, spent⟩)

end Backend

end BtcPolicy.Coverage
