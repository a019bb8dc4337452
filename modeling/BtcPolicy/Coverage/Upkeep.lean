import BtcPolicy.Coverage.Complete
import BtcPolicy.Lib.Results

/-! What every program of the upkeep keeps, one rule for each: the cache complete, and the wallet covering the
blocks its handle and its markers name. -/

namespace BtcPolicy.Coverage
open Bitcoin HashChain Programs Results

variable {ledger : Ledger} (walletOwner : Bytes) (scripts : List Script)

/-- The cache is complete, and the wallet covers the block of its handle, that of each of its markers and those
of `also`. -/
structure Kept (also : BlockHash → Prop) (flag : Bool) (backend : Backend ledger) : Prop where
  cached : ∀ cache, backend.scanCache = some cache → Complete ledger cache
  handle : ∀ wallet, backend.vaultWallet = some wallet → Covered ledger scripts backend.watches wallet.anchor.2
  markers : ∀ file, backend.wallet = some file → ∀ descriptor ∈ file.descriptors, descriptor ∉ scripts →
    ∀ anchor, parseVaultWalletMarker walletOwner descriptor = some anchor →
      Covered ledger scripts file.watches anchor.2
  others : ∀ block, also block → Covered ledger scripts backend.watches block
  flagged : backend.walletReimportInProgress = flag

variable {walletOwner scripts} {also : BlockHash → Prop} {flag : Bool}

namespace Kept

variable {backend : Backend ledger}

theorem sees (kept : Kept walletOwner scripts also flag backend) (now : Call ledger) :
    Kept walletOwner scripts also flag (backend.sees now) :=
  ⟨kept.cached, kept.handle, kept.markers, kept.others, kept.flagged⟩

/-- One more block is covered. -/
theorem insert {block : BlockHash} (kept : Kept walletOwner scripts also flag backend)
    (covered : Covered ledger scripts backend.watches block) :
    Kept walletOwner scripts (fun other => other = block ∨ also other) flag backend where
  cached := kept.cached
  handle := kept.handle
  markers := kept.markers
  others := by
    rintro other (rfl | old)
    · exact covered
    · exact kept.others other old
  flagged := kept.flagged

theorem weaken {fewer : BlockHash → Prop} (kept : Kept walletOwner scripts also flag backend)
    (fewer_also : ∀ block, fewer block → also block) : Kept walletOwner scripts fewer flag backend where
  cached := kept.cached
  handle := kept.handle
  markers := kept.markers
  others := fun block holds => kept.others block (fewer_also block holds)
  flagged := kept.flagged

end Kept

/-! ## Calls that only read -/

/-- A condition that does not speak of the chains Core has followed. -/
def Steady (pre : Backend ledger → Prop) : Prop := ∀ backend now, pre backend → pre (backend.sees now)

theorem steady_kept : Steady (fun backend : Backend ledger => Kept walletOwner scripts also flag backend) :=
  fun _ now kept => kept.sees now

variable {pre : Backend ledger → Prop}

theorem triple_call {α : Type} (steady : Steady pre) (now : Call ledger) (answer : Backend ledger → Except Error α) :
    Triple pre (call now answer)
      (fun value backend => pre backend ∧ now.processed ∈ backend.seen ∧ answer backend = .ok value) pre := by
  intro backend start
  unfold call
  cases failed : now.failure with
  | some failure => exact steady backend now start
  | none =>
    cases answered : answer (backend.sees now) with
    | error error => exact steady backend now start
    | ok value => exact ⟨steady backend now start, List.mem_cons_self, answered⟩

theorem triple_blockHashAt (steady : Steady pre) (now : Call ledger) (height : Nat) :
    Triple pre (blockHashAt now height)
      (fun found backend => found = now.chain.hashes[height]? ∧ pre backend) pre := by
  apply triple_weaken (triple_call steady now _) (fun _ holds => holds) ?_ (fun _ holds => holds)
  rintro found backend ⟨holds, _, answered⟩
  exact ⟨(Except.ok.inj answered).symm, holds⟩

theorem triple_confirmActiveHeight (steady : Steady pre) (header active : Call ledger) (block : BlockHash) :
    Triple pre (confirmActiveHeight header active block)
      (fun height backend => active.chain.hashes[height]? = some block ∧ pre backend) pre := by
  unfold confirmActiveHeight
  apply triple_bind (fun _ => pre)
  · exact triple_weaken (triple_call steady header _) (fun _ holds => holds) (fun _ _ holds => holds.1) (fun _ holds => holds)
  intro height
  apply triple_bind _ (triple_blockHashAt steady active height)
  intro found
  apply triple_given
  rintro rfl
  split
  next same => exact triple_pure height (fun backend holds => ⟨same, holds⟩)
  next _ => exact triple_fail _ (fun backend holds => holds)

theorem triple_blockTimeAt (steady : Steady pre) (hashAt header : Call ledger) (height : Nat) :
    Triple pre (blockTimeAt hashAt header height)
      (fun time backend => (∃ hash, hashAt.chain.hashes[height]? = some hash ∧ time = (ledger.block hash).time) ∧
        pre backend) pre := by
  unfold blockTimeAt
  apply triple_bind _ (triple_blockHashAt steady hashAt height)
  intro found
  apply triple_given
  intro same
  cases found with
  | none => exact triple_fail _ (fun backend holds => holds)
  | some hash =>
    apply triple_weaken (triple_call steady header _) (fun _ holds => holds) ?_ (fun _ holds => holds)
    rintro time backend ⟨holds, _, answered⟩
    exact ⟨⟨hash, same.symm, (Except.ok.inj answered).symm⟩, holds⟩

theorem triple_walletCall {α : Type} (steady : Steady pre) (now : Call ledger) (answer : WalletFile → α) :
    Triple pre (walletCall now answer)
      (fun value backend => pre backend ∧ ∃ file, backend.wallet = some file ∧ value = answer file) pre := by
  apply triple_weaken (triple_call steady now _) (fun _ holds => holds) ?_ (fun _ holds => holds)
  rintro value backend ⟨holds, _, answered⟩
  refine ⟨holds, ?_⟩
  cases found : backend.wallet with
  | none =>
    rw [found] at answered
    cases answered
  | some file =>
    rw [found] at answered
    exact ⟨file, rfl, (Except.ok.inj answered).symm⟩

/-! ## The cold scan and the advance -/

theorem triple_fullConfirmedScan (calls : ScanCalls ledger) :
    Triple (fun backend => Kept walletOwner scripts also flag backend) (fullConfirmedScan scripts calls)
      (fun coldScan backend => Dated ledger scripts coldScan ∧ Kept walletOwner scripts also flag backend)
      (fun backend => Kept walletOwner scripts also flag backend) := by
  unfold fullConfirmedScan
  apply triple_bind (fun _ backend => Kept walletOwner scripts also flag backend)
  · apply triple_modify
    intro backend kept
    exact ⟨kept.cached, kept.handle, kept.markers, kept.others, kept.flagged⟩
  intro _
  apply triple_bind _ (triple_call steady_kept calls.scan _)
  intro unspents
  apply triple_having (fun backend start => Except.ok.inj start.2.2)
  rintro rfl
  apply triple_bind _ (triple_strengthen (triple_confirmActiveHeight steady_kept calls.header calls.active _)
    (fun backend start => start.1))
  intro height
  apply triple_given
  intro confirmed
  exact triple_pure _ (fun backend kept => ⟨dated_scan calls.scan.chain calls.active.chain confirmed, kept⟩)

/-- The blocks `added` lead from a parent to the block of the result, and their transactions to its candidates. -/
structure Spans (ledger : Ledger) (scripts : List Script) (parent : BlockHash) (candidates : Finset OutPoint)
    (result : BlockHash × Finset OutPoint) (added : List BlockHash) : Prop where
  linked : Linked ledger.parent (parent :: added)
  last : result.1 = (parent :: added).getLast (List.cons_ne_nil _ _)
  applied : result.2 = (ledger.txids added).foldl (applyTx ledger scripts) candidates

/-- What covers the parent covers the block of the result. -/
theorem holds_of_spans {watched : List Script} {parent : BlockHash} {candidates : Finset OutPoint}
    {result : BlockHash × Finset OutPoint} {added : List BlockHash} (holds : Holds ledger watched parent candidates)
    (spans : Spans ledger watched parent candidates result added) : Holds ledger watched result.1 result.2 := by
  obtain ⟨linked, last, applied⟩ := spans
  rw [last, applied]
  clear last applied
  induction added generalizing parent candidates with
  | nil => exact holds
  | cons hash rest ih =>
    obtain ⟨child, linked⟩ := List.isChain_cons_cons.mp linked
    rw [Ledger.txids_cons, List.foldl_append, List.getLast_cons (List.cons_ne_nil _ _)]
    exact ih (holds_child holds child) linked

theorem triple_deltaBlocks (steady : Steady pre) (calls : DeltaCalls ledger) (watched : List Script)
    (count height : Nat) (parent : BlockHash) (candidates : Finset OutPoint) :
    Triple pre (deltaBlocks calls watched count height parent candidates)
      (fun result backend => (∃ added, added.length = count ∧ Spans ledger watched parent candidates result added) ∧
        pre backend) pre := by
  induction count generalizing height parent candidates with
  | zero =>
    exact triple_pure _ (fun backend start => ⟨⟨[], rfl, List.isChain_singleton _, rfl, rfl⟩, start⟩)
  | succ count ih =>
    unfold deltaBlocks
    apply triple_bind _ (triple_blockHashAt steady (calls.hash height) height)
    intro found
    apply triple_given
    intro _
    cases found with
    | none => exact triple_fail _ (fun backend start => start)
    | some hash =>
      apply triple_bind (fun block backend => block = ledger.block hash ∧ pre backend)
      · apply triple_weaken (triple_call steady (calls.block height) _) (fun _ start => start) ?_ (fun _ start => start)
        rintro block backend ⟨start, _, answered⟩
        exact ⟨(Except.ok.inj answered).symm, start⟩
      intro block
      apply triple_given
      rintro rfl
      split
      next linked =>
        apply triple_weaken (ih (height + 1) hash _) (fun _ start => start) ?_ (fun _ start => start)
        rintro result backend ⟨⟨added, length, spans⟩, start⟩
        refine ⟨⟨hash :: added, by rw [List.length_cons, length], ?_, ?_, ?_⟩, start⟩
        · exact List.IsChain.cons_cons linked spans.linked
        · rw [spans.last, List.getLast_cons (List.cons_ne_nil hash added)]
        · rw [spans.applied, Ledger.txids_cons, List.foldl_append]
      next _ => exact triple_fail _ (fun backend start => start)

/-- What an advance returns: its blocks lead from the cache's own to the one active at the new height. -/
structure Advanced (last : Call ledger) (cache refreshed : VaultUnspentCache) (added : List BlockHash) : Prop where
  scripts : refreshed.scripts = cache.scripts
  bounded : added.length ≤ maxVaultScanDeltaBlocks
  height : refreshed.height = cache.height + added.length
  spans : Spans ledger cache.scripts cache.bestblock cache.candidates (refreshed.bestblock, refreshed.candidates) added
  active : added ≠ [] → last.chain.hashes[refreshed.height]? = some refreshed.bestblock

theorem triple_advanceConfirmedScan (steady : Steady pre) (calls : DeltaCalls ledger) (cache : VaultUnspentCache) :
    Triple pre (advanceConfirmedScan calls cache)
      (fun refreshed backend => (∃ added, Advanced calls.last cache refreshed added) ∧ pre backend) pre := by
  unfold advanceConfirmedScan
  apply triple_bind (fun tip backend => tip < 2 ^ 32 ∧ pre backend)
  · apply triple_weaken (triple_call steady calls.tip _) (fun _ start => start) ?_ (fun _ start => start)
    rintro tip backend ⟨start, _, answered⟩
    rw [← Except.ok.inj answered]
    exact ⟨Nat.mod_lt _ (by decide), start⟩
  intro tip
  apply triple_given
  intro word
  split
  next _ =>
    refine triple_pure cache (fun backend start => ⟨⟨[], rfl, Nat.zero_le _, rfl, ?_, fun grown => absurd rfl grown⟩, start⟩)
    exact ⟨List.isChain_singleton _, rfl, rfl⟩
  next ahead =>
    generalize reach : min tip (min (cache.height + maxVaultScanDeltaBlocks) (2 ^ 32 - 1)) = through
    apply triple_bind _ (triple_deltaBlocks steady calls _ _ _ _ _)
    rintro ⟨parent, candidates⟩
    apply triple_given
    rintro ⟨added, length, spans⟩
    apply triple_bind _ (triple_blockHashAt steady calls.last _)
    intro found
    apply triple_given
    intro read
    split
    next same =>
      have through_eq : through = cache.height + added.length := by omega
      have bounded : added.length ≤ maxVaultScanDeltaBlocks := by omega
      exact triple_pure _ (fun backend start =>
        ⟨⟨added, rfl, bounded, through_eq, spans, fun _ => read.symm.trans same⟩, start⟩)
    next _ => exact triple_fail _ (fun backend start => start)

theorem complete_of_advanced {last : Call ledger} {cache refreshed : VaultUnspentCache} {added : List BlockHash}
    (complete : Complete ledger cache) (advanced : Advanced last cache refreshed added) : Complete ledger refreshed := by
  unfold Complete
  rw [advanced.scripts]
  exact holds_of_spans complete advanced.spans

/-! ## Building and repairing the wallet -/

theorem watches_imported (backend : Backend ledger) (rescanned : Bool) (requests : List (Script × Timestamp)) :
    backend.watches ⊆ (backend.imported rescanned requests).watches := by
  unfold Backend.watches Backend.imported
  cases backend.wallet with
  | none => exact List.Subset.refl _
  | some file => exact List.subset_append_left _ _

/-- An import whose markers, if it has any, name covered blocks. -/
theorem Kept.imported {backend : Backend ledger} (kept : Kept walletOwner scripts also flag backend) (rescanned : Bool)
    {requests : List (Script × Timestamp)}
    (marked : ∀ request ∈ requests, request.1 ∉ scripts → ∀ anchor,
      parseVaultWalletMarker walletOwner request.1 = some anchor → Covered ledger scripts backend.watches anchor.2) :
    Kept walletOwner scripts also flag (backend.imported rescanned requests) where
  cached := kept.cached
  handle := fun wallet found => (kept.handle wallet found).mono (watches_imported backend rescanned requests)
  markers := by
    intro after imported descriptor listed foreign anchor parsed
    obtain ⟨file, found, rfl⟩ := Option.map_eq_some_iff.mp imported
    have before : file.watches = backend.watches := by rw [Backend.watches, found]
    have grown : backend.watches ⊆ (importInto file rescanned requests).watches := by
      rw [← before]
      exact List.subset_append_left _ _
    obtain old | new := List.mem_append.mp listed
    · have covered := kept.markers file found descriptor old foreign anchor parsed
      rw [before] at covered
      exact covered.mono grown
    · obtain ⟨request, member, rfl⟩ := List.mem_map.mp new
      exact (marked request member foreign anchor parsed).mono grown
  others := fun block holds => (kept.others block holds).mono (watches_imported backend rescanned requests)
  flagged := kept.flagged

theorem triple_importDescriptors (now : Call ledger) {requests : List (Script × Timestamp)}
    (start : ∀ backend, pre backend → Kept walletOwner scripts also flag backend)
    (marked : ∀ backend, pre backend → ∀ request ∈ requests, request.1 ∉ scripts → ∀ anchor,
      parseVaultWalletMarker walletOwner request.1 = some anchor → Covered ledger scripts backend.watches anchor.2) :
    Triple pre (importDescriptors now requests)
      (fun _ backend => Kept walletOwner scripts also flag backend ∧ ∃ before file, pre before ∧
        before.wallet = some file ∧ backend = (before.sees now).imported true requests)
      (fun backend => Kept walletOwner scripts also flag backend) := by
  intro backend holds
  have kept := (start backend holds).sees now
  have marked' := marked backend holds
  unfold importDescriptors
  cases failed : now.failure with
  | some failure =>
    by_cases applied : failure.kept
    · simp only [if_pos applied]
      exact kept.imported failure.rescanned marked'
    · simp only [if_neg applied]
      exact kept
  | none =>
    cases found : backend.wallet with
    | none => exact kept
    | some file => exact ⟨kept.imported true marked', backend, file, holds, found, rfl⟩

theorem triple_checksummedDescriptors (steady : Steady pre) (calls : Nat → Call ledger) (descriptors : List Script)
    (i : Nat) :
    Triple pre (checksummedDescriptors calls descriptors i) (fun result backend => result = descriptors ∧ pre backend)
      pre := by
  induction descriptors generalizing i with
  | nil => exact triple_pure _ (fun backend start => ⟨rfl, start⟩)
  | cons descriptor rest ih =>
    unfold checksummedDescriptors
    apply triple_bind _ (triple_call steady (calls i) _)
    intro first
    apply triple_having (fun backend start => Except.ok.inj start.2.2)
    rintro rfl
    apply triple_bind _ (triple_strengthen (ih (i + 1)) (fun backend start => start.1))
    intro later
    apply triple_given
    rintro rfl
    exact triple_pure _ (fun backend start => ⟨rfl, start⟩)

/-- A marker parses to the block it was written for. -/
theorem parse_vaultWalletMarker {height : Nat} {hash : BlockHash} {anchor : Nat × BlockHash}
    (parsed : parseVaultWalletMarker walletOwner (vaultWalletMarker walletOwner height hash) = some anchor) :
    anchor.2 = hash := by
  have size : (leBytes 4 height).length = 4 := rfl
  have dropped : (vaultWalletMarker walletOwner height hash).drop ([0x6a, 0x4c, 0x44] ++ walletOwner).length =
      (leBytes 4 height).reverse ++ hash.reverse := by
    rw [vaultWalletMarker, List.append_assoc ([0x6a, 0x4c, 0x44] ++ walletOwner)]
    exact List.drop_left
  simp only [parseVaultWalletMarker, dropped, Option.ite_none_right_eq_some, Option.some.injEq] at parsed
  rw [← parsed.2]
  have rest : ((leBytes 4 height).reverse ++ hash.reverse).drop 4 = hash.reverse := by
    have front : (leBytes 4 height).reverse.length = 4 := by rw [List.length_reverse, size]
    rw [← front]
    exact List.drop_left
  simp [rest]

/-- If the scan's block is active where the import checks it, the birthday was read from the block the checked
chain has at that height. -/
def BirthdayHeld (calls : ImportCalls ledger) (coldScan : ColdScan) : Prop :=
  calls.anchor.chain.hashes[coldScan.cache.height]? = some coldScan.cache.bestblock →
    calls.birthday.chain.hashes[coldScan.oldestUnspentHeight]? =
      calls.anchor.chain.hashes[coldScan.oldestUnspentHeight]?

theorem triple_importVaultDescriptors (calls : ImportCalls ledger) {coldScan : ColdScan}
    (dated : Dated ledger scripts coldScan) (held : BirthdayHeld calls coldScan) :
    Triple (fun backend => Kept walletOwner scripts also flag backend)
      (importVaultDescriptors walletOwner scripts calls coldScan)
      (fun _ backend => Kept walletOwner scripts also flag backend ∧
        Covered ledger scripts backend.watches coldScan.cache.bestblock)
      (fun backend => Kept walletOwner scripts also flag backend) := by
  unfold importVaultDescriptors
  apply triple_bind _ (triple_blockTimeAt steady_kept calls.birthday calls.birthdayHeader _)
  intro timestamp
  apply triple_given
  rintro ⟨first, found, rfl⟩
  apply triple_bind _ (triple_blockHashAt steady_kept calls.anchor _)
  intro active
  apply triple_given
  rintro rfl
  split
  next anchored =>
    rw [held anchored] at found
    apply triple_bind _ (triple_checksummedDescriptors steady_kept calls.checksums scripts 0)
    intro descriptors
    apply triple_given
    rintro rfl
    -- The vault's own descriptors are no markers; once they are in, the scan's block is covered.
    apply triple_bind (fun _ backend => Kept walletOwner descriptors also flag backend ∧
      Covered ledger descriptors backend.watches coldScan.cache.bestblock)
    · apply triple_weaken (triple_importDescriptors calls.vault (fun backend kept => kept) ?_) (fun _ kept => kept) ?_
        (fun _ kept => kept)
      · intro backend _ request listed foreign
        obtain ⟨script, member, rfl⟩ := List.mem_map.mp listed
        exact absurd member foreign
      · rintro _ backend ⟨kept, before, file, _, present, rfl⟩
        refine ⟨kept, covered_import dated calls.anchor.chain anchored found ?_⟩
        intro script listed
        have watches : ((before.sees calls.vault).imported true (descriptors.map
            (fun descriptor => (descriptor, Timestamp.since (ledger.block first).time)))).watches =
            file.watches ++ descriptors.map (fun descriptor => (descriptor, (ledger.block first).time)) := by
          simp [Backend.watches, Backend.imported, Backend.sees, present, importInto, List.filterMap_map,
            Function.comp_def, List.filterMap_eq_map']
        rw [watches]
        exact List.mem_append_right _ (List.mem_map.mpr ⟨script, listed, rfl⟩)
    intro _
    apply triple_bind (fun marker backend =>
      marker = vaultWalletMarker walletOwner coldScan.cache.height coldScan.cache.bestblock ∧
      Kept walletOwner descriptors also flag backend ∧
      Covered ledger descriptors backend.watches coldScan.cache.bestblock)
    · have steady : Steady (fun backend : Backend ledger => Kept walletOwner descriptors also flag backend ∧
          Covered ledger descriptors backend.watches coldScan.cache.bestblock) :=
        fun _ now start => ⟨start.1.sees now, start.2⟩
      apply triple_weaken (triple_call steady calls.markerChecksum _) (fun _ start => start) ?_
        (fun _ start => start.1)
      rintro marker backend ⟨start, _, answered⟩
      exact ⟨(Except.ok.inj answered).symm, start⟩
    intro marker
    apply triple_given
    rintro rfl
    apply triple_weaken (triple_importDescriptors calls.marker (fun backend start => start.1) ?_) (fun _ start => start)
      ?_ (fun _ kept => kept)
    · intro backend start request listed _ anchor parsed
      obtain rfl := List.mem_singleton.mp listed
      rw [parse_vaultWalletMarker parsed]
      exact start.2
    · rintro _ backend ⟨kept, before, file, start, _, rfl⟩
      exact ⟨kept, start.2.mono (watches_imported (before.sees calls.marker) true _)⟩
  next _ => exact triple_fail _ (fun backend kept => kept)

theorem triple_activeMarker (steady : Steady pre) (calls : Nat → Call ledger) (markers : List (Nat × BlockHash)) (i : Nat) :
    Triple pre (activeMarker calls markers i)
      (fun active backend => (∀ anchor, active = some anchor → anchor ∈ markers) ∧ pre backend) pre := by
  induction markers generalizing i with
  | nil => exact triple_pure _ (fun backend start => ⟨nofun, start⟩)
  | cons marker rest ih =>
    unfold activeMarker
    apply triple_bind _ (triple_blockHashAt steady (calls i) marker.1)
    intro found
    apply triple_given
    intro _
    split
    next _ =>
      apply triple_pure
      intro backend start
      refine ⟨?_, start⟩
      rintro anchor ⟨⟩
      exact List.mem_cons_self
    next _ =>
      apply triple_weaken (ih (i + 1)) (fun _ start => start) ?_ (fun _ start => start)
      rintro active backend ⟨listed, start⟩
      exact ⟨fun anchor same => List.mem_cons_of_mem _ (listed anchor same), start⟩

/-- The markers of a kept wallet name covered blocks, in whatever order its descriptors are looked at. -/
theorem covered_markers {backend : Backend ledger} (kept : Kept walletOwner scripts also flag backend) {file : WalletFile}
    (found : backend.wallet = some file) {order : List Script} (reordered : order.Perm file.descriptors)
    {anchor : Nat × BlockHash} (listed : anchor ∈ (markersOf walletOwner scripts order).getD []) :
    Covered ledger scripts backend.watches anchor.2 := by
  cases parsed : markersOf walletOwner scripts order with
  | none =>
    rw [parsed] at listed
    cases listed
  | some markers =>
    rw [parsed] at listed
    obtain ⟨descriptor, member, same⟩ := mem_of_mapM_some parsed listed
    obtain ⟨inside, foreign⟩ := List.mem_filter.mp member
    have covered := kept.markers file found descriptor (reordered.mem_iff.mp inside) (by simpa using foreign) anchor same
    rw [Backend.watches, found]
    exact covered

/-- A cold scan given to the build of the wallet, with the calls of an import from it. -/
def Ready (ledger : Ledger) (scripts : List Script) (coldScan : Option ColdScan) (calls : ImportCalls ledger) : Prop :=
  ∀ scan, coldScan = some scan → Dated ledger scripts scan ∧ BirthdayHeld calls scan

theorem triple_verifyVaultWallet (calls : VerifyCalls ledger) {coldScan : Option ColdScan}
    (ready : Ready ledger scripts coldScan calls.repair) :
    Triple (fun backend => Kept walletOwner scripts also flag backend)
      (verifyVaultWallet walletOwner scripts calls coldScan)
      (fun anchor backend => Kept walletOwner scripts also flag backend ∧
        Covered ledger scripts backend.watches anchor.2)
      (fun backend => Kept walletOwner scripts also flag backend) := by
  unfold verifyVaultWallet
  apply triple_bind _ (triple_weaken (triple_walletCall steady_kept calls.info _) (fun _ kept => kept)
    (fun _ _ start => start.1) (fun _ kept => kept))
  intro watchOnly
  apply triple_bind _ (triple_walletCall steady_kept calls.descriptors _)
  intro found
  -- The markers are covered from here on, whatever is read next.
  apply triple_strengthen ?_ (fun backend start => (⟨start.1, by
    obtain ⟨kept, file, present, rfl⟩ := start
    exact fun anchor listed => covered_markers kept present (calls.reordered _) listed⟩ :
      Kept walletOwner scripts also flag backend ∧
        ∀ anchor ∈ (markersOf walletOwner scripts (calls.order found)).getD [],
          Covered ledger scripts backend.watches anchor.2))
  apply triple_bind (fun active backend =>
    (∀ anchor, active = some anchor → Covered ledger scripts backend.watches anchor.2) ∧
      Kept walletOwner scripts also flag backend)
  · unfold activeAnchor
    split
    next _ =>
      have steady : Steady (fun backend : Backend ledger => Kept walletOwner scripts also flag backend ∧
          ∀ anchor ∈ (markersOf walletOwner scripts (calls.order found)).getD [],
            Covered ledger scripts backend.watches anchor.2) :=
        fun _ now start => ⟨start.1.sees now, start.2⟩
      apply triple_weaken (triple_activeMarker steady calls.markers _ 0) (fun _ start => start) ?_ (fun _ start => start.1)
      rintro active backend ⟨listed, kept, covered⟩
      exact ⟨fun anchor same => covered anchor (listed anchor same), kept⟩
    next _ => exact triple_pure _ (fun backend start => ⟨nofun, start.1⟩)
  intro active
  split
  next anchor chosen =>
    apply triple_pure
    intro backend start
    exact ⟨start.2, start.1 anchor (Option.filter_eq_some_iff.mp chosen).1⟩
  next _ =>
    split
    next _ => exact triple_fail _ (fun backend start => start.2)
    next scan chosen =>
      obtain ⟨dated, held⟩ := ready scan (Option.filter_eq_some_iff.mp chosen).1
      apply triple_bind _ (triple_strengthen (triple_importVaultDescriptors calls.repair dated held)
        (fun backend start => start.2))
      intro _
      have steady : Steady (fun backend : Backend ledger => Kept walletOwner scripts also flag backend ∧
          Covered ledger scripts backend.watches scan.cache.bestblock) :=
        fun _ now start => ⟨start.1.sees now, start.2⟩
      apply triple_bind _ (triple_weaken (triple_walletCall steady calls.repaired _) (fun _ start => start)
        (fun _ _ start => start.1) (fun _ start => start.1))
      intro repaired
      dsimp only
      split
      next _ =>
        apply triple_bind (fun _ backend => Kept walletOwner scripts also flag backend ∧
          Covered ledger scripts backend.watches scan.cache.bestblock)
        · apply triple_modify
          rintro backend ⟨kept, covered⟩
          exact ⟨⟨kept.cached, kept.handle, kept.markers, kept.others, kept.flagged⟩, covered⟩
        intro _
        exact triple_pure _ (fun backend start => start)
      next _ => exact triple_fail _ (fun backend start => start.1)

theorem triple_createwallet (now : Call ledger) :
    Triple (fun backend => Kept walletOwner scripts also flag backend) (createwallet now)
      (fun _ backend => Kept walletOwner scripts also flag backend)
      (fun backend => Kept walletOwner scripts also flag backend) := by
  intro backend kept
  -- A wallet that is not there watches nothing, and neither does a blank one.
  have blank : backend.wallet = none →
      Kept walletOwner scripts also flag { backend.sees now with wallet := some ⟨false, [], []⟩ } := by
    intro absent
    have nothing : backend.watches = [] := by rw [Backend.watches, absent]
    constructor
    · exact kept.cached
    · intro wallet found
      have covered := kept.handle wallet found
      rw [nothing] at covered
      exact covered
    · rintro file ⟨⟩ descriptor ⟨⟩
    · intro block holds
      have covered := kept.others block holds
      rw [nothing] at covered
      exact covered
    · exact kept.flagged
  unfold createwallet
  cases failed : now.failure with
  | some failure =>
    cases found : backend.wallet with
    | some file => exact kept.sees now
    | none =>
      by_cases applied : failure.kept
      · simp only [if_pos applied]
        exact blank found
      · simp only [if_neg applied]
        exact kept.sees now
  | none =>
    cases found : backend.wallet with
    | some file => exact kept.sees now
    | none => exact blank found

theorem triple_loadVaultWallet (calls : EnsureCalls ledger) {coldScan : Option ColdScan}
    (created : Ready ledger scripts coldScan calls.createImport) :
    Triple (fun backend => Kept walletOwner scripts also flag backend)
      (loadVaultWallet walletOwner scripts calls coldScan)
      (fun _ backend => Kept walletOwner scripts also flag backend)
      (fun backend => Kept walletOwner scripts also flag backend) := by
  unfold loadVaultWallet
  apply triple_bind _ (triple_weaken (triple_call steady_kept calls.load _) (fun _ kept => kept)
    (fun _ _ start => start.1) (fun _ kept => kept))
  intro loaded
  split
  next _ => exact triple_pure _ (fun backend kept => kept)
  next _ =>
    cases coldScan with
    | none => exact triple_fail _ (fun backend kept => kept)
    | some scan =>
      obtain ⟨dated, held⟩ := created scan rfl
      apply triple_bind _ (triple_createwallet calls.create)
      intro _
      exact triple_weaken (triple_importVaultDescriptors calls.createImport dated held) (fun _ kept => kept)
        (fun _ _ start => start.1) (fun _ kept => kept)

theorem triple_ensureVaultWallet (calls : EnsureCalls ledger) {coldScan : Option ColdScan}
    (created : Ready ledger scripts coldScan calls.createImport)
    (repaired : Ready ledger scripts coldScan calls.verify.repair) :
    Triple (fun backend => Kept walletOwner scripts also flag backend)
      (ensureVaultWallet walletOwner scripts calls coldScan)
      (fun _ backend => Kept walletOwner scripts also flag backend ∧ ∃ wallet, backend.vaultWallet = some wallet)
      (fun backend => Kept walletOwner scripts also flag backend) := by
  unfold ensureVaultWallet
  apply triple_bind (fun before backend => backend = before ∧ Kept walletOwner scripts also flag before)
  · exact triple_get (fun backend kept => ⟨rfl, kept⟩)
  intro before
  split
  next wallet chosen =>
    apply triple_pure
    rintro backend ⟨rfl, kept⟩
    exact ⟨kept, wallet, (Option.filter_eq_some_iff.mp chosen).1⟩
  next _ =>
    apply triple_strengthen ?_ (fun backend (start : backend = before ∧ Kept walletOwner scripts also flag before) =>
      (start.1 ▸ start.2 : Kept walletOwner scripts also flag backend))
    apply triple_bind _ (triple_loadVaultWallet calls created)
    intro _
    apply triple_bind _ (triple_verifyVaultWallet calls.verify repaired)
    intro anchor
    apply triple_bind (fun _ backend => Kept walletOwner scripts also flag backend ∧
      ∃ wallet, backend.vaultWallet = some wallet)
    · apply triple_modify
      rintro backend ⟨kept, covered⟩
      refine ⟨⟨kept.cached, ?_, kept.markers, kept.others, kept.flagged⟩, _, rfl⟩
      rintro wallet ⟨⟩
      exact covered
    intro _
    exact triple_pure _ (fun backend start => start)

/-- The handle may be anchored at a block the wallet covers. -/
theorem Kept.anchored {backend : Backend ledger} {coldScan : ColdScan}
    (kept : Kept walletOwner scripts also flag backend)
    (covered : Covered ledger scripts backend.watches coldScan.cache.bestblock) :
    Kept walletOwner scripts also flag (backend.anchored coldScan) where
  cached := kept.cached
  handle := by
    intro wallet found
    obtain ⟨before, _, rfl⟩ := Option.map_eq_some_iff.mp found
    exact covered
  markers := kept.markers
  others := kept.others
  flagged := kept.flagged

theorem triple_seedVaultWallet (calls : SeedCalls ledger) {coldScan : ColdScan}
    (created : Ready ledger scripts (some coldScan) calls.ensure.createImport)
    (repaired : Ready ledger scripts (some coldScan) calls.ensure.verify.repair)
    (reimported : Ready ledger scripts (some coldScan) calls.reimport) :
    Triple (fun backend => Kept walletOwner scripts also flag backend)
      (seedVaultWallet walletOwner scripts calls coldScan)
      (fun _ backend => Kept walletOwner scripts also flag backend)
      (fun backend => Kept walletOwner scripts also flag backend) := by
  unfold seedVaultWallet
  apply triple_bind _ (triple_weaken (triple_ensureVaultWallet calls.ensure created repaired) (fun _ kept => kept)
    (fun _ _ start => start.1) (fun _ kept => kept))
  intro _
  apply triple_bind (fun _ backend => Kept walletOwner scripts also flag backend)
  · exact triple_get (fun backend kept => kept)
  intro before
  split
  next _ =>
    obtain ⟨dated, held⟩ := reimported coldScan rfl
    apply triple_bind _ (triple_importVaultDescriptors calls.reimport dated held)
    intro _
    apply triple_bind (fun _ backend => Kept walletOwner scripts also flag backend)
    · apply triple_modify
      rintro backend ⟨kept, covered⟩
      exact kept.anchored covered
    intro _
    apply triple_modify
    intro backend kept
    exact ⟨kept.cached, kept.handle, kept.markers, kept.others, kept.flagged⟩
  next _ => exact triple_pure _ (fun backend kept => kept)

/-! ## The read of the wallet -/

theorem triple_expandInputs (steady : Steady pre) (calls : Txid → Call ledger) (expand : List (Txid × Bool)) :
    Triple pre (expandInputs calls expand)
      (fun inputs backend => (∀ outpoint confirmed, (outpoint, confirmed) ∈ inputs ↔
        ∃ txid, (txid, confirmed) ∈ expand ∧ outpoint ∈ ledger.inputs txid) ∧ pre backend) pre := by
  induction expand with
  | nil => exact triple_pure _ (fun backend start => ⟨by simp, start⟩)
  | cons entry rest ih =>
    obtain ⟨txid, confirmed⟩ := entry
    unfold expandInputs
    apply triple_bind (fun inputs backend => inputs = ledger.inputs txid ∧ pre backend)
    · apply triple_weaken (triple_call steady (calls txid) _) (fun _ start => start) ?_ (fun _ start => start)
      rintro inputs backend ⟨start, _, answered⟩
      refine ⟨?_, start⟩
      split at answered
      · exact (Except.ok.inj answered).symm
      · cases answered
    intro inputs
    apply triple_given
    rintro rfl
    apply triple_bind _ ih
    intro later
    apply triple_given
    intro member
    apply triple_pure
    intro backend start
    refine ⟨?_, start⟩
    intro outpoint flag
    simp only [List.mem_append, List.mem_map, Prod.mk.injEq, member, List.mem_cons]
    constructor
    · rintro (⟨_, listed, rfl, rfl⟩ | ⟨other, listed, spends⟩)
      · exact ⟨txid, Or.inl ⟨rfl, rfl⟩, listed⟩
      · exact ⟨other, Or.inr listed, spends⟩
    · rintro ⟨other, (⟨rfl, rfl⟩ | listed), spends⟩
      · exact Or.inl ⟨outpoint, spends, rfl, rfl⟩
      · exact Or.inr ⟨other, listed, spends⟩

/-- A cache a pass starts from: complete, and of the scripts it watches. -/
def Carried (ledger : Ledger) (scripts : List Script) (cached : Option VaultUnspentCache) : Prop :=
  ∀ cache, cached = some cache → Complete ledger cache ∧ cache.scripts = scripts

/-- What a read is worth: its cache is complete, provided its block stands above the anchor. -/
def Provisional (ledger : Ledger) (scripts : List Script) (anchor : BlockHash) (cache : VaultUnspentCache) : Prop :=
  cache.scripts = scripts ∧ ∀ chain : Chain ledger, chain.tip = cache.bestblock → anchor ∈ chain.hashes →
    ∀ outpoint, ledger.Unspent scripts chain.hashes outpoint → outpoint ∈ cache.candidates

theorem triple_listsinceblock (steady : Steady pre) (now : Call ledger) {cached : Option VaultUnspentCache}
    (carried : Carried ledger scripts cached) {anchor : BlockHash}
    (covered : ∀ backend, pre backend → Covered ledger scripts backend.watches anchor) :
    Triple pre (listsinceblock now (cached.map VaultUnspentCache.bestblock))
      (fun answer backend => (answer.1 = now.processed.tip ∧
        (∀ txid ∈ confirmedDebits answer.2, txid ∈ ledger.txids now.processed.hashes) ∧
        (anchor ∈ now.processed.hashes → ∀ outpoint, ledger.Unspent scripts now.processed.hashes outpoint →
          outpoint ∈ cached.elim ∅ VaultUnspentCache.candidates ∨ outpoint ∈ confirmedCredits answer.2 ∨
          ∃ txid ∈ pendingTxids answer.2, outpoint ∈ ledger.inputs txid)) ∧ pre backend) pre := by
  apply triple_weaken (triple_call steady now _) (fun _ start => start) ?_ (fun _ start => start)
  rintro answer backend ⟨start, seen, answered⟩
  refine ⟨?_, start⟩
  cases cached with
  | none =>
    obtain rfl := Except.ok.inj answered
    refine ⟨rfl, fun txid debit => Backend.mem_confirmedDebits debit, ?_⟩
    intro above outpoint unspent
    exact Or.inr (Or.inl (Backend.listed_of_covered (covered backend start) seen above unspent))
  | some cache =>
    obtain ⟨complete, same⟩ := carried cache rfl
    simp only [Option.map_some] at answered
    cases stored : backend.chainOf cache.bestblock with
    | none =>
      rw [stored] at answered
      cases answered
    | some hashes =>
      rw [stored] at answered
      obtain rfl := Except.ok.inj answered
      refine ⟨rfl, fun txid debit => Backend.mem_confirmedDebits debit, ?_⟩
      intro above outpoint unspent
      have holds : Holds ledger scripts cache.bestblock cache.candidates := same ▸ complete
      exact Backend.listed_since (covered backend start) seen above holds stored unspent

theorem triple_walletAttempt (steady : Steady pre) (calls : AttemptCalls ledger) {cached : Option VaultUnspentCache}
    (carried : Carried ledger scripts cached) {anchor : BlockHash}
    (covered : ∀ backend, pre backend → Covered ledger scripts backend.watches anchor) :
    Triple pre (walletAttempt scripts calls cached)
      (fun result backend => (∀ cache, result = some cache → Provisional ledger scripts anchor cache) ∧ pre backend)
      pre := by
  have reads : ∀ {α : Type} (now : Call ledger) (answer : Backend ledger → Except Error α),
      Triple pre (call now answer) (fun _ => pre) pre := by
    intro α now answer
    exact triple_weaken (triple_call steady now answer) (fun _ start => start) (fun _ _ start => start.1)
      (fun _ start => start)
  unfold walletAttempt
  apply triple_bind _ (reads calls.tip _)
  intro bestblock
  apply triple_bind _ (reads calls.listunspent _)
  intro unspents
  apply triple_bind _ (triple_listsinceblock steady calls.listsinceblock carried covered)
  rintro ⟨walletBlock, entries⟩
  apply triple_given
  rintro ⟨rfl, debits, listed⟩
  apply triple_bind _ (triple_expandInputs steady calls.gettransaction _)
  intro inputs
  apply triple_given
  intro expanded
  apply triple_bind _ (reads calls.tipAgain _)
  intro again
  split
  next _ =>
    apply triple_bind _ (triple_confirmActiveHeight steady calls.header calls.active _)
    intro height
    apply triple_given
    intro _
    apply triple_pure
    intro backend start
    refine ⟨?_, start⟩
    rintro cache ⟨⟩
    refine ⟨rfl, ?_⟩
    intro chain tip above outpoint unspent
    have same : chain.hashes = calls.listsinceblock.processed.hashes := by
      apply chain.rooted.unique calls.listsinceblock.processed.rooted chain.getLast_hashes
      rw [Chain.getLast_hashes, tip]
    rw [same] at above unspent
    have sorted : ∀ entry, entry ∈ ((pendingTxids entries).map (fun txid => (txid, false)) ++
        (confirmedDebits entries).map (fun txid => (txid, true))).insertionSort expandOrder ↔
        entry ∈ (pendingTxids entries).map (fun txid => (txid, false)) ++
        (confirmedDebits entries).map (fun txid => (txid, true)) :=
      fun entry => (List.perm_insertionSort expandOrder _).mem_iff
    apply Finset.mem_filter.mpr
    constructor
    · obtain old | credit | ⟨txid, pending, spends⟩ := listed above outpoint unspent
      · simp [old]
      · simp [credit]
      · have input : (outpoint, false) ∈ inputs :=
          (expanded outpoint false).mpr ⟨txid, (sorted _).mpr (by simp [pending]), spends⟩
        have hidden : outpoint ∈ (inputs.filter (fun input => !input.2)).map Prod.fst :=
          List.mem_map.mpr ⟨_, List.mem_filter.mpr ⟨input, rfl⟩, rfl⟩
        exact Finset.mem_union_right _ (List.mem_toFinset.mpr hidden)
    · intro spent
      obtain ⟨⟨_, confirmed⟩, kept, rfl⟩ := List.mem_map.mp spent
      obtain ⟨input, rfl⟩ := List.mem_filter.mp kept
      obtain ⟨txid, entry, spends⟩ := (expanded _ true).mp input
      have debit : txid ∈ confirmedDebits entries := by simpa using (sorted _).mp entry
      exact unspent.unspent ⟨txid, debits txid debit, spends⟩
  next _ => exact triple_pure _ (fun backend start => ⟨nofun, start⟩)

theorem triple_walletConfirmedScan (calls : ReadCalls ledger) {cached : Option VaultUnspentCache}
    (carried : Carried ledger scripts cached) :
    Triple (fun backend => Kept walletOwner scripts also flag backend)
      (walletConfirmedScan walletOwner scripts calls cached)
      (fun cache backend => Kept walletOwner scripts also flag backend ∧
        ∃ wallet, backend.vaultWallet = some wallet ∧ Provisional ledger scripts wallet.anchor.2 cache)
      (fun backend => Kept walletOwner scripts also flag backend) := by
  unfold walletConfirmedScan
  have nothing : ∀ imports, Ready ledger scripts none imports := fun _ => nofun
  apply triple_bind _ (triple_ensureVaultWallet calls.ensure (nothing _) (nothing _))
  intro _
  apply triple_strengthen ?_ (fun backend start => (start.2.imp (fun wallet held => ⟨start.1, held⟩) :
    ∃ wallet, Kept walletOwner scripts also flag backend ∧ backend.vaultWallet = some wallet))
  apply triple_exists
  intro wallet
  have steady : Steady (fun backend : Backend ledger => Kept walletOwner scripts also flag backend ∧
      backend.vaultWallet = some wallet) := fun _ now start => ⟨start.1.sees now, start.2⟩
  have covered : ∀ backend : Backend ledger, Kept walletOwner scripts also flag backend ∧
      backend.vaultWallet = some wallet → Covered ledger scripts backend.watches wallet.anchor.2 :=
    fun backend start => start.1.handle wallet start.2
  have attempt : ∀ calls : AttemptCalls ledger, Triple _ (walletAttempt scripts calls cached) _ _ :=
    fun calls => triple_weaken (triple_walletAttempt steady calls carried covered) (fun _ start => start)
      (fun _ _ done => done) (fun _ start => start.1)
  apply triple_bind _ (attempt calls.first)
  intro first
  apply triple_given
  intro provisional
  cases first with
  | some cache => exact triple_pure cache (fun backend start => ⟨start.1, wallet, start.2, provisional cache rfl⟩)
  | none =>
    apply triple_bind _ (attempt calls.second)
    intro second
    apply triple_given
    intro provisional
    cases second with
    | some cache => exact triple_pure cache (fun backend start => ⟨start.1, wallet, start.2, provisional cache rfl⟩)
    | none => exact triple_fail _ (fun backend start => start.1)

theorem triple_anchorReorged (steady : Steady pre) (now : Call ledger) (anchor : Option (Nat × BlockHash)) :
    Triple pre (anchorReorged now anchor) (fun _ => pre) pre := by
  cases anchor with
  | none => exact triple_pure _ (fun backend start => start)
  | some anchor =>
    unfold anchorReorged
    apply triple_bind _ (triple_blockHashAt steady now anchor.1)
    intro found
    exact triple_pure _ (fun backend start => start.2)

/-- A read is confirmed only where its anchor is active. -/
theorem triple_walletReadAnchorHeld (steady : Steady pre) (now : Call ledger) {handle : Option VaultWallet}
    (held : ∀ backend, pre backend → backend.vaultWallet = handle) :
    Triple pre (walletReadAnchorHeld now)
      (fun active backend => (active = true → ∃ wallet, handle = some wallet ∧
        now.chain.hashes[wallet.anchor.1]? = some wallet.anchor.2) ∧ pre backend) pre := by
  unfold walletReadAnchorHeld
  apply triple_bind (fun before backend => before.vaultWallet = handle ∧ pre backend)
  · exact triple_get (fun backend start => ⟨held backend start, start⟩)
  intro before
  apply triple_given
  intro same
  cases found : before.vaultWallet with
  | none => exact triple_pure _ (fun backend start => ⟨nofun, start⟩)
  | some wallet =>
    apply triple_bind _ (triple_blockHashAt steady now wallet.anchor.1)
    intro hash
    apply triple_given
    rintro rfl
    apply triple_pure
    intro backend start
    refine ⟨?_, start⟩
    intro active
    exact ⟨wallet, same.symm.trans found, of_decide_eq_true active⟩

theorem triple_fallBack (base : Call ledger) (delta : DeltaCalls ledger) (scan : ScanCalls ledger)
    {cached : Option VaultUnspentCache} (carried : Carried ledger scripts cached) (repairPending repairInProgress : Bool) :
    Triple (fun backend => Kept walletOwner scripts also flag backend)
      (fallBack scripts base delta scan cached repairPending repairInProgress)
      (fun result backend => (match result with
        | .inl refreshed => Complete ledger refreshed
        | .inr coldScan => Dated ledger scripts coldScan) ∧ Kept walletOwner scripts also flag backend)
      (fun backend => Kept walletOwner scripts also flag backend) := by
  have cold : Triple (fun backend => Kept walletOwner scripts also flag backend)
      (do let coldScan ← fullConfirmedScan scripts scan
          pure (.inr coldScan) : Rpc ledger (VaultUnspentCache ⊕ ColdScan))
      (fun result backend => (match result with
        | .inl refreshed => Complete ledger refreshed
        | .inr coldScan => Dated ledger scripts coldScan) ∧ Kept walletOwner scripts also flag backend)
      (fun backend => Kept walletOwner scripts also flag backend) := by
    apply triple_bind _ (triple_fullConfirmedScan scan)
    intro coldScan
    exact triple_pure _ (fun backend start => start)
  unfold fallBack
  cases cached with
  | none => exact cold
  | some cache =>
    dsimp only
    split
    next _ =>
      apply triple_bind _ (triple_blockHashAt steady_kept base cache.height)
      intro found
      apply triple_given
      intro _
      split
      next _ =>
        apply triple_bind _ (triple_advanceConfirmedScan steady_kept delta cache)
        intro refreshed
        apply triple_given
        rintro ⟨added, advanced⟩
        exact triple_pure _ (fun backend start => ⟨complete_of_advanced (carried cache rfl).1 advanced, start⟩)
      next _ => exact cold
    next _ => exact cold

end BtcPolicy.Coverage
