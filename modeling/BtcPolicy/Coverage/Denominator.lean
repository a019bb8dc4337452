import BtcPolicy.Coverage.Upkeep
import BtcPolicy.Lib.Runs

/-! Whole runs of the passes and the background repair: every cache they install is complete at its block,
as long as no check of an anchor is answered by a chain that has come back. -/

namespace BtcPolicy.Coverage
open Bitcoin HashChain Programs Runs

variable {ledger : Ledger} (walletOwner : Bytes) (scripts : List Script)

/-- The block a repair is about to anchor the handle at. -/
def pinned : Option Repair → BlockHash → Prop
  | some (.anchoring coldScan), block => block = coldScan.cache.bestblock
  | _, _ => False

def ForegroundSound (backend : Backend ledger) : Foreground → Prop
  | .idle => True
  | .checking cached _ | .latching cached _ | .loading cached _ | .reading cached | .falling cached _ _ =>
    Carried ledger scripts cached
  | .reproving cached cache => Carried ledger scripts cached ∧
      ∃ wallet, backend.vaultWallet = some wallet ∧ Provisional ledger scripts wallet.anchor.2 cache
  | .seeding coldScan => Dated ledger scripts coldScan
  | .finishing refreshed => Complete ledger refreshed

def RepairSound (ledger : Ledger) : Repair → Prop
  | .ensuring coldScan | .reimporting coldScan | .anchoring coldScan => Dated ledger scripts coldScan
  | .clearing | .closing => True

/-- The pass is reading the wallet, or has a read to confirm. -/
def Foreground.usesWallet : Foreground → Bool
  | .reading _ | .reproving _ _ => true
  | _ => false

structure Sound (m : Machine ledger) : Prop where
  kept : Kept walletOwner scripts (pinned m.repair) m.backend.walletReimportInProgress m.backend
  foreground : ForegroundSound scripts m.backend m.foreground
  repair : ∀ repair, m.repair = some repair → RepairSound scripts ledger repair
  running : m.repair ≠ none → m.backend.walletReimportInProgress = true
  alone : m.foreground.usesWallet = true → m.repair = none

/-- If the anchor of the handle is active where a read is confirmed, the block the wallet answered from is at or
above it. -/
def AnchorBelow (now : Call ledger) (anchor : Nat × BlockHash) (cache : VaultUnspentCache) : Prop :=
  now.chain.hashes[anchor.1]? = some anchor.2 →
    ∀ chain : Chain ledger, chain.tip = cache.bestblock → anchor.2 ∈ chain.hashes

/-- No check of an anchor is passed by a chain that is back after another one was read. -/
def Meets (m : Machine ledger) : Step ledger → Prop
  | .reprove now => ∀ cached cache wallet, m.foreground = .reproving cached cache →
      m.backend.vaultWallet = some wallet → AnchorBelow now wallet.anchor cache
  | .seed (.synchronous calls) => ∀ coldScan, m.foreground = .seeding coldScan →
      BirthdayHeld calls.ensure.createImport coldScan ∧ BirthdayHeld calls.ensure.verify.repair coldScan ∧
      BirthdayHeld calls.reimport coldScan
  | .ensure calls => ∀ coldScan, m.repair = some (.ensuring coldScan) →
      BirthdayHeld calls.createImport coldScan ∧ BirthdayHeld calls.verify.repair coldScan
  | .reimport calls => ∀ coldScan, m.repair = some (.reimporting coldScan) → BirthdayHeld calls coldScan
  | _ => True

variable {walletOwner scripts} {m : Machine ledger}

theorem sound_initial : Sound walletOwner scripts (initialMachine : Machine ledger) where
  kept := ⟨nofun, nofun, nofun, nofun, rfl⟩
  foreground := trivial
  repair := nofun
  running := fun started => absurd rfl started
  alone := fun _ => rfl

/-- A foreground step that leaves the repair and its flag alone. -/
theorem Sound.foreground_moves (sound : Sound walletOwner scripts m) {backend : Backend ledger} {foreground : Foreground}
    (kept : Kept walletOwner scripts (pinned m.repair) m.backend.walletReimportInProgress backend)
    (foregroundSound : ForegroundSound scripts backend foreground)
    (alone : foreground.usesWallet = true → m.repair = none) :
    Sound walletOwner scripts ⟨backend, foreground, m.repair⟩ where
  kept := by
    rw [kept.flagged]
    exact kept
  foreground := foregroundSound
  repair := sound.repair
  running := by
    rw [kept.flagged]
    exact sound.running
  alone := alone

theorem Sound.begins (sound : Sound walletOwner scripts m) :
    Carried ledger scripts (m.backend.scanCache.filter (fun cache => decide (cache.scripts = scripts))) := by
  intro cache found
  obtain ⟨held, same⟩ := Option.filter_eq_some_iff.mp found
  exact ⟨sound.kept.cached cache held, of_decide_eq_true same⟩

theorem Kept.caching {also : BlockHash → Prop} {flag : Bool} {backend : Backend ledger} {cache : VaultUnspentCache}
    (kept : Kept walletOwner scripts also flag backend) (complete : Complete ledger cache) :
    Kept walletOwner scripts also flag { backend with scanCache := some cache } where
  cached := by
    rintro _ ⟨⟩
    exact complete
  handle := kept.handle
  markers := kept.markers
  others := kept.others
  flagged := kept.flagged

theorem Kept.latched {also : BlockHash → Prop} {flag : Bool} {backend : Backend ledger}
    (kept : Kept walletOwner scripts also flag backend) (pending : Bool) :
    Kept walletOwner scripts also flag { backend with walletReimportPending := pending } :=
  ⟨kept.cached, kept.handle, kept.markers, kept.others, kept.flagged⟩

theorem Kept.dropped {also : BlockHash → Prop} {flag : Bool} {backend : Backend ledger}
    (kept : Kept walletOwner scripts also flag backend) :
    Kept walletOwner scripts also flag { backend with vaultWallet := none } :=
  ⟨kept.cached, nofun, kept.markers, kept.others, kept.flagged⟩

/-- A read that is confirmed by an anchor below its block is complete. -/
theorem complete_of_provisional {anchor : BlockHash} {cache : VaultUnspentCache}
    (provisional : Provisional ledger scripts anchor cache)
    (below : ∀ chain : Chain ledger, chain.tip = cache.bestblock → anchor ∈ chain.hashes) : Complete ledger cache := by
  obtain ⟨same, holds⟩ := provisional
  intro chain tip outpoint unspent
  rw [same] at unspent
  exact holds chain tip (below chain tip) outpoint unspent

-- The lemmas on the single steps all unfold these two.
attribute [local simp] Machine.foregroundStep Machine.repairStep

theorem sound_check (sound : Sound walletOwner scripts m) {cached : Option VaultUnspentCache}
    {anchor : Option (Nat × BlockHash)} (here : m.foreground = .checking cached anchor) (now : Call ledger) :
    Sound walletOwner scripts (Machine.foregroundStep walletOwner scripts m (.checking cached anchor) (.check now)).1 := by
  have carried : Carried ledger scripts cached := by
    have holds := sound.foreground
    rw [here] at holds
    exact holds
  simp only [Machine.foregroundStep]
  cases ran : anchorReorged now anchor m.backend with
  | mk outcome backend =>
    have kept := (triple_anchorReorged steady_kept now anchor).run sound.kept ran
    cases outcome with
    | ok reorged => exact sound.foreground_moves kept carried nofun
    | error error => exact sound.foreground_moves kept trivial nofun

theorem sound_read (sound : Sound walletOwner scripts m) {cached : Option VaultUnspentCache}
    (here : m.foreground = .reading cached) (calls : ReadCalls ledger) :
    Sound walletOwner scripts (Machine.foregroundStep walletOwner scripts m (.reading cached) (.read calls)).1 := by
  have carried : Carried ledger scripts cached := by
    have holds := sound.foreground
    rw [here] at holds
    exact holds
  have alone : m.repair = none := sound.alone (by rw [here]; rfl)
  simp only [Machine.foregroundStep]
  cases ran : walletConfirmedScan walletOwner scripts calls cached m.backend with
  | mk outcome backend =>
    have reached := (triple_walletConfirmedScan calls carried).run sound.kept ran
    cases outcome with
    | ok cache => exact sound.foreground_moves reached.1 ⟨carried, reached.2⟩ (fun _ => alone)
    | error error => exact sound.foreground_moves reached.dropped carried nofun

theorem sound_reprove (sound : Sound walletOwner scripts m) {cached : Option VaultUnspentCache}
    {cache : VaultUnspentCache} (here : m.foreground = .reproving cached cache) (now : Call ledger)
    (meets : Meets m (.reprove now)) :
    Sound walletOwner scripts
      (Machine.foregroundStep walletOwner scripts m (.reproving cached cache) (.reprove now)).1 := by
  have holds := sound.foreground
  rw [here] at holds
  obtain ⟨carried, wallet, held, provisional⟩ := holds
  have steady : Steady (fun backend : Backend ledger =>
      Kept walletOwner scripts (pinned m.repair) m.backend.walletReimportInProgress backend ∧
      backend.vaultWallet = some wallet) := fun _ now start => ⟨start.1.sees now, start.2⟩
  have rule := triple_walletReadAnchorHeld steady now (fun backend start => start.2)
  simp only [Machine.foregroundStep]
  cases ran : walletReadAnchorHeld now m.backend with
  | mk outcome backend =>
    have reached := rule.run ⟨sound.kept, held⟩ ran
    cases outcome with
    | error error => exact sound.foreground_moves reached.1 trivial nofun
    | ok active =>
      obtain ⟨confirmed, kept, _⟩ := reached
      cases active with
      | false => exact sound.foreground_moves (kept.latched true) carried nofun
      | true =>
        obtain ⟨_, ⟨⟩, active⟩ := confirmed rfl
        have below := meets cached cache wallet here held active
        exact sound.foreground_moves (kept.caching (complete_of_provisional provisional below)) trivial nofun

theorem sound_fall (sound : Sound walletOwner scripts m) {cached : Option VaultUnspentCache}
    {repairPending repairInProgress : Bool} (here : m.foreground = .falling cached repairPending repairInProgress)
    (base : Call ledger) (delta : DeltaCalls ledger) (scan : ScanCalls ledger) :
    Sound walletOwner scripts (Machine.foregroundStep walletOwner scripts m
      (.falling cached repairPending repairInProgress) (.fall base delta scan)).1 := by
  have carried : Carried ledger scripts cached := by
    have holds := sound.foreground
    rw [here] at holds
    exact holds
  simp only [Machine.foregroundStep]
  cases ran : fallBack scripts base delta scan cached repairPending repairInProgress m.backend with
  | mk outcome backend =>
    have reached := (triple_fallBack base delta scan carried repairPending repairInProgress).run sound.kept ran
    cases outcome with
    | error error => exact sound.foreground_moves reached trivial nofun
    | ok result =>
      cases result with
      | inl refreshed => exact sound.foreground_moves reached.2 reached.1 nofun
      | inr coldScan => exact sound.foreground_moves (reached.2.caching reached.1.complete) reached.1 nofun

theorem sound_seed (sound : Sound walletOwner scripts m) {coldScan : ColdScan}
    (here : m.foreground = .seeding coldScan) (mode : SeedMode ledger) (meets : Meets m (.seed mode)) :
    Sound walletOwner scripts (Machine.foregroundStep walletOwner scripts m (.seeding coldScan) (.seed mode)).1 := by
  have dated : Dated ledger scripts coldScan := by
    have holds := sound.foreground
    rw [here] at holds
    exact holds
  cases mode with
  | synchronous calls =>
    obtain ⟨created, repaired, reimported⟩ := meets coldScan here
    have ready : ∀ imports, BirthdayHeld imports coldScan → Ready ledger scripts (some coldScan) imports := by
      rintro imports held _ ⟨⟩
      exact ⟨dated, held⟩
    simp only [Machine.foregroundStep]
    cases ran : seedVaultWallet walletOwner scripts calls coldScan m.backend with
    | mk outcome backend =>
      have reached := (triple_seedVaultWallet calls (ready _ created) (ready _ repaired) (ready _ reimported)).run
        sound.kept ran
      cases outcome with
      | ok done => exact sound.foreground_moves reached dated.complete nofun
      | error error => exact sound.foreground_moves reached dated.complete nofun
  | background started =>
    simp only [Machine.foregroundStep]
    split
    next free =>
      constructor
      · exact ⟨sound.kept.cached, sound.kept.handle, sound.kept.markers, nofun, rfl⟩
      · exact dated.complete
      · rintro _ ⟨⟩
        exact dated
      · exact fun _ => rfl
      · nofun
    next _ => exact sound.foreground_moves sound.kept dated.complete nofun

/-- While a repair runs the pass is not at the wallet, so what it holds does not depend on the handle. -/
theorem Sound.foreground_apart (sound : Sound walletOwner scripts m) {repair : Repair} (started : m.repair = some repair)
    (backend : Backend ledger) : ForegroundSound scripts backend m.foreground := by
  have holds := sound.foreground
  have apart := sound.alone
  cases phase : m.foreground with
  | reproving cached cache =>
    rw [phase] at apart
    rw [apart rfl] at started
    cases started
  | idle => trivial
  | checking | latching | loading | reading | falling | seeding | finishing =>
    rw [phase] at holds
    exact holds

theorem Sound.kept_running (sound : Sound walletOwner scripts m) {repair : Repair} (started : m.repair = some repair) :
    Kept walletOwner scripts (pinned m.repair) true m.backend := by
  have flag := sound.running (by simp [started])
  have kept := sound.kept
  rw [flag] at kept
  exact kept

theorem Sound.repair_moves (sound : Sound walletOwner scripts m) {before : Repair} (started : m.repair = some before)
    {backend : Backend ledger} {after : Repair}
    (kept : Kept walletOwner scripts (pinned (some after)) true backend) (repairSound : RepairSound scripts ledger after) :
    Sound walletOwner scripts ⟨backend, m.foreground, some after⟩ where
  kept := by
    rw [kept.flagged]
    exact kept
  foreground := sound.foreground_apart started backend
  repair := by
    rintro _ ⟨⟩
    exact repairSound
  running := fun _ => kept.flagged
  alone := by
    intro uses
    have absent := sound.alone uses
    rw [started] at absent
    cases absent

theorem sound_ensure (sound : Sound walletOwner scripts m) {coldScan : ColdScan}
    (here : m.repair = some (.ensuring coldScan)) (calls : EnsureCalls ledger) (meets : Meets m (.ensure calls)) :
    Sound walletOwner scripts (Machine.repairStep walletOwner scripts m (.ensuring coldScan) (.ensure calls)) := by
  have dated : Dated ledger scripts coldScan := sound.repair _ here
  have kept : Kept walletOwner scripts (fun _ => False) true m.backend := (sound.kept_running here).weaken nofun
  obtain ⟨created, repaired⟩ := meets coldScan here
  have ready : ∀ imports, BirthdayHeld imports coldScan → Ready ledger scripts (some coldScan) imports := by
    rintro imports held _ ⟨⟩
    exact ⟨dated, held⟩
  simp only [Machine.repairStep]
  cases ran : ensureVaultWallet walletOwner scripts calls (some coldScan) m.backend with
  | mk outcome backend =>
    have reached := (triple_ensureVaultWallet calls (ready _ created) (ready _ repaired)).run kept ran
    cases outcome with
    | ok anchor => exact sound.repair_moves here (reached.1.weaken nofun) dated
    | error error => exact sound.repair_moves here (reached.weaken nofun) trivial

theorem sound_reimport (sound : Sound walletOwner scripts m) {coldScan : ColdScan}
    (here : m.repair = some (.reimporting coldScan)) (calls : ImportCalls ledger) (meets : Meets m (.reimport calls)) :
    Sound walletOwner scripts (Machine.repairStep walletOwner scripts m (.reimporting coldScan) (.reimport calls)) := by
  have dated : Dated ledger scripts coldScan := sound.repair _ here
  have kept : Kept walletOwner scripts (fun _ => False) true m.backend := (sound.kept_running here).weaken nofun
  simp only [Machine.repairStep]
  split
  next _ =>
    cases ran : importVaultDescriptors walletOwner scripts calls coldScan m.backend with
    | mk outcome backend =>
      have reached := (triple_importVaultDescriptors calls dated (meets coldScan here)).run kept ran
      cases outcome with
      | ok done =>
        have covered := reached.1.insert reached.2
        exact sound.repair_moves here (covered.weaken (fun block same => Or.inl same)) dated
      | error error => exact sound.repair_moves here (reached.weaken nofun) trivial
  next _ => exact sound.repair_moves here (kept.weaken nofun) trivial

theorem sound_anchor (sound : Sound walletOwner scripts m) {coldScan : ColdScan}
    (here : m.repair = some (.anchoring coldScan)) :
    Sound walletOwner scripts (Machine.repairStep walletOwner scripts m (.anchoring coldScan) .anchor) := by
  have kept := sound.kept_running here
  rw [here] at kept
  have covered := kept.others coldScan.cache.bestblock rfl
  exact sound.repair_moves here ((kept.anchored covered).weaken nofun) trivial

theorem sound_clear (sound : Sound walletOwner scripts m) (here : m.repair = some .clearing) :
    Sound walletOwner scripts (Machine.repairStep walletOwner scripts m .clearing .clear) := by
  have kept := sound.kept_running here
  exact sound.repair_moves here ((kept.latched false).weaken nofun) trivial

theorem sound_close (sound : Sound walletOwner scripts m) (here : m.repair = some .closing) :
    Sound walletOwner scripts (Machine.repairStep walletOwner scripts m .closing .close) := by
  constructor
  · exact ⟨sound.kept.cached, sound.kept.handle, sound.kept.markers, nofun, rfl⟩
  · exact sound.foreground_apart here _
  · nofun
  · exact fun started => absurd rfl started
  · exact fun _ => rfl

theorem sound_foregroundStep (sound : Sound walletOwner scripts m) {phase : Foreground} (here : m.foreground = phase)
    (action : Step ledger) (meets : Meets m action) :
    Sound walletOwner scripts (Machine.foregroundStep walletOwner scripts m phase action).1 := by
  unfold Machine.foregroundStep
  split
  next => exact sound.foreground_moves sound.kept sound.begins nofun
  next cached anchor now => exact sound_check sound here now
  next cached reorged =>
    have holds := sound.foreground
    rw [here] at holds
    exact sound.foreground_moves (sound.kept.latched _) holds nofun
  next cached repairPending =>
    have holds := sound.foreground
    rw [here] at holds
    split
    next free =>
      -- No flag, so no repair is running and none can start before this pass gets to it.
      have idle : m.repair = none := by
        by_contra started
        rw [sound.running started] at free
        simp at free
      exact sound.foreground_moves sound.kept holds (fun _ => idle)
    next _ => exact sound.foreground_moves sound.kept holds nofun
  next cached calls => exact sound_read sound here calls
  next cached cache now => exact sound_reprove sound here now meets
  next cached repairPending repairInProgress base delta scan => exact sound_fall sound here base delta scan
  next coldScan calls => exact sound_seed sound here (.synchronous calls) meets
  next coldScan started => exact sound_seed sound here (.background started) meets
  next refreshed =>
    have holds := sound.foreground
    rw [here] at holds
    exact sound.foreground_moves (sound.kept.caching holds) trivial nofun
  next => exact sound

theorem sound_repairStep (sound : Sound walletOwner scripts m) {repair : Repair} (here : m.repair = some repair)
    (action : Step ledger) (meets : Meets m action) :
    Sound walletOwner scripts (Machine.repairStep walletOwner scripts m repair action) := by
  unfold Machine.repairStep
  split
  next coldScan calls => exact sound_ensure sound here calls meets
  next coldScan calls => exact sound_reimport sound here calls meets
  next coldScan => exact sound_anchor sound here
  next => exact sound_clear sound here
  next => exact sound_close sound here
  next => exact sound

theorem sound_step (sound : Sound walletOwner scripts m) (action : Step ledger) (meets : Meets m action) :
    Sound walletOwner scripts (Machine.step walletOwner scripts m action).1 := by
  cases action with
  | restart =>
    have dropped : Kept walletOwner scripts (pinned none) false m.backend.restarted := by
      refine ⟨?_, ?_, sound.kept.markers, ?_, rfl⟩
      · intro cache found
        cases found
      · intro wallet found
        cases found
      · intro block held
        cases held
    constructor
    · exact dropped
    · trivial
    · intro repair found
      cases found
    · exact fun started => absurd rfl started
    · intro uses
      cases uses
  | ensure | reimport | anchor | clear | close =>
    cases here : m.repair with
    | none =>
      simp only [Machine.step, here]
      exact sound
    | some repair =>
      simp only [Machine.step, here]
      exact sound_repairStep sound here _ meets
  | begin | check | latch | load | read | reprove | fall | seed | finish => exact sound_foregroundStep sound rfl _ meets

/-- In every run whose anchor checks are not answered by a chain that has come back, every cache installed holds
every watched output that is unspent at its block. -/
theorem cached_denominator_complete (walletOwner : Bytes) (scripts : List Script) (steps : List (Step ledger))
    (allowed : Allowed (Machine.step walletOwner scripts) Meets initialMachine steps) (cache : VaultUnspentCache)
    (installed : (exec (Machine.step walletOwner scripts) initialMachine steps).backend.scanCache = some cache) :
    Complete ledger cache := by
  have sound := exec_invariant_allowed (Machine.step walletOwner scripts) Meets (Sound walletOwner scripts)
    (fun m action meets sound => sound_step sound action meets) initialMachine sound_initial steps allowed
  exact sound.kept.cached cache installed

namespace Sample

def hash (n : UInt8) : BlockHash := n :: List.replicate 31 0

/-- Block 1 pays the vault and block 2 spends it; block 3 is far later. Block 11 is a rival of block 1 with a
late time, and 12 its child. -/
def sampleLedger : Ledger where
  block
    | 1 :: _ => ⟨some (hash 0), 1000, [[21]]⟩
    | 2 :: _ => ⟨some (hash 1), 2000, [[22]]⟩
    | 3 :: _ => ⟨some (hash 2), 100000, []⟩
    | 11 :: _ => ⟨some (hash 0), 100000, []⟩
    | 12 :: _ => ⟨some (hash 11), 100001, []⟩
    | _ => ⟨none, 0, []⟩
  tx
    | [21] => ⟨[none], [[7]]⟩
    | [22] => ⟨[some ⟨[21], 0⟩], [[8]]⟩
    | _ => ⟨[], []⟩

def owner : Bytes := [9]

def vaultScripts : List Script := [[7]]

def main : Chain sampleLedger :=
  ⟨[hash 0, hash 1, hash 2, hash 3], ⟨by simp [Linked, Ledger.parent, sampleLedger, hash], by simp [Ledger.parent, sampleLedger, hash]⟩,
    by simp⟩

def early : Chain sampleLedger :=
  ⟨[hash 0, hash 1], ⟨by simp [Linked, Ledger.parent, sampleLedger, hash], by simp [Ledger.parent, sampleLedger, hash]⟩, by simp⟩

def rival : Chain sampleLedger :=
  ⟨[hash 0, hash 11, hash 12], ⟨by simp [Linked, Ledger.parent, sampleLedger, hash], by simp [Ledger.parent, sampleLedger, hash]⟩,
    by simp⟩

/-- A call at a moment when `chain` is active and the wallet stands at the tip of `processed`. -/
def moment (chain processed : Chain sampleLedger) : Call sampleLedger := ⟨chain, processed, [], fun _ => .receive, fun _ => 0, none⟩

def importCalls (birthday now : Call sampleLedger) : ImportCalls sampleLedger := ⟨birthday, now, now, fun _ => now, now, now, now⟩

def ensureCalls (birthday now : Call sampleLedger) : EnsureCalls sampleLedger :=
  ⟨now, now, importCalls birthday now,
    ⟨now, now, id, fun _ => .refl _, fun _ => now, importCalls birthday now, now⟩⟩

def attemptCalls (since now : Call sampleLedger) : AttemptCalls sampleLedger := ⟨now, now, since, fun _ => now, now, now, now⟩

def readCalls (since now : Call sampleLedger) : ReadCalls sampleLedger :=
  ⟨ensureCalls now now, attemptCalls since now, attemptCalls since now⟩

/-- A pass that finds no wallet, scans, and builds one, its birthday read at `birthday`. -/
def coldPass (birthday now : Call sampleLedger) : List (Step sampleLedger) :=
  [.begin, .check now, .latch, .load, .read (readCalls now now),
    .fall now ⟨now, fun _ => now, fun _ => now, now⟩ ⟨now, now, now⟩,
    .seed (.synchronous ⟨ensureCalls birthday now, importCalls birthday now⟩), .finish]

/-- A pass that is served by the wallet, which lists its history at `since`. -/
def walletPass (since now : Call sampleLedger) : List (Step sampleLedger) :=
  [.begin, .check now, .latch, .load, .read (readCalls since now), .reprove now]

/-- The cache a run leaves: its block, its scripts and its candidates. -/
def lastCache (steps : List (Step sampleLedger)) : Option (BlockHash × List Script × Finset OutPoint) :=
  (exec (Machine.step owner vaultScripts) initialMachine steps).backend.scanCache.map
    (fun cache => (cache.bestblock, cache.scripts, cache.candidates))

/-- The vault's output is unspent at block 1. -/
theorem unspent_early : sampleLedger.Unspent vaultScripts early.hashes ⟨[21], 0⟩ := by decide

/-- A cache at block 1 without the vault's output is not complete. -/
theorem not_complete_early {steps : List (Step sampleLedger)} (final : lastCache steps = some (hash 1, vaultScripts, ∅)) :
    ∃ cache, (exec (Machine.step owner vaultScripts) initialMachine steps).backend.scanCache = some cache ∧
      ¬ Complete sampleLedger cache := by
  obtain ⟨cache, installed, same⟩ := Option.map_eq_some_iff.mp final
  simp only [Prod.mk.injEq] at same
  obtain ⟨block, watched, candidates⟩ := same
  refine ⟨cache, installed, ?_⟩
  intro complete
  have held : (⟨[21], 0⟩ : OutPoint) ∈ cache.candidates := by
    apply complete early block.symm
    rw [watched]
    exact unspent_early
  rw [candidates] at held
  exact Finset.notMem_empty _ held

/-- A run whose wallet answers from the tip throughout. -/
def steadyRun : List (Step sampleLedger) :=
  coldPass (moment early early) (moment early early) ++ walletPass (moment early early) (moment early early)

/-- The block of the read a pass has to confirm. -/
def readBlock : Foreground → Option BlockHash
  | .reproving _ cache => some cache.bestblock
  | _ => none

/-- The state before the last step of the run: a read at block 1, and the wallet anchored there. -/
theorem before_reprove : let m := exec (Machine.step owner vaultScripts) initialMachine steadyRun.dropLast
    readBlock m.foreground = some (hash 1) ∧ m.backend.vaultWallet.map VaultWallet.anchor = some (1, hash 1) := by
  decide

theorem allowed_steadyRun : Allowed (Machine.step owner vaultScripts) Meets initialMachine steadyRun := by
  refine ⟨trivial, trivial, trivial, trivial, trivial, trivial, ?_, trivial, trivial, trivial, trivial, trivial, trivial,
    ?_, trivial⟩
  · intro coldScan _
    exact ⟨fun _ => rfl, fun _ => rfl, fun _ => rfl⟩
  · intro cached cache wallet reading held active chain tip
    obtain ⟨block, anchored⟩ := before_reprove
    have read : cache.bestblock = hash 1 := Option.some.inj ((congrArg readBlock reading).symm.trans block)
    have anchor : wallet.anchor = (1, hash 1) :=
      Option.some.inj ((congrArg (Option.map VaultWallet.anchor) held).symm.trans anchored)
    rw [anchor, ← read, ← tip]
    exact List.getLast_mem chain.nonempty

end Sample

theorem cached_denominator_complete_sample :
    ∃ cache, (exec (Machine.step Sample.owner Sample.vaultScripts) initialMachine Sample.steadyRun).backend.scanCache =
      some cache ∧ cache.candidates = {⟨[21], 0⟩} ∧ Complete Sample.sampleLedger cache := by
  have final : Sample.lastCache Sample.steadyRun = some (Sample.hash 1, Sample.vaultScripts, {⟨[21], 0⟩}) := by
    decide
  obtain ⟨cache, installed, same⟩ := Option.map_eq_some_iff.mp final
  simp only [Prod.mk.injEq] at same
  exact ⟨cache, installed, same.2.2,
    cached_denominator_complete Sample.owner Sample.vaultScripts Sample.steadyRun Sample.allowed_steadyRun cache installed⟩

/-- A wallet that answers from a block below its anchor, while the anchor is active, under-reports: the output of
block 1 was spent in block 2, before the birthday at block 3, and is unspent at block 1. -/
theorem lagging_wallet_under_reports :
    ¬ ∀ (ledger : Ledger) (walletOwner : Bytes) (scripts : List Script) (steps : List (Step ledger))
      (cache : VaultUnspentCache),
      (exec (Machine.step walletOwner scripts) initialMachine steps).backend.scanCache = some cache →
        Complete ledger cache := by
  intro claim
  have final : Sample.lastCache (Sample.coldPass (Sample.moment Sample.main Sample.main)
      (Sample.moment Sample.main Sample.main) ++ Sample.walletPass (Sample.moment Sample.main Sample.early)
      (Sample.moment Sample.main Sample.main)) = some (Sample.hash 1, Sample.vaultScripts, ∅) := by
    decide
  obtain ⟨cache, installed, incomplete⟩ := Sample.not_complete_early final
  exact incomplete (claim _ _ _ _ cache installed)

/-- So does a wallet whose birthday was read on a rival chain between two looks at the scan's own. -/
theorem late_birthday_under_reports :
    ∃ cache, (exec (Machine.step Sample.owner Sample.vaultScripts) initialMachine
      (Sample.coldPass (Sample.moment Sample.rival Sample.early) (Sample.moment Sample.early Sample.early) ++ .restart ::
        Sample.walletPass (Sample.moment Sample.early Sample.early)
          (Sample.moment Sample.early Sample.early))).backend.scanCache = some cache ∧
      ¬ Complete Sample.sampleLedger cache := by
  apply Sample.not_complete_early
  decide

end BtcPolicy.Coverage
