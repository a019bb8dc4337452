import BtcPolicy.Coverage.Core
import BtcPolicy.Node.Package

/-! The unspent outputs of the vault as `vault_unspent` stitches them together from a cache and single reads, while
the chain and the mempool move. An unchanged tip and an unchanged mempool sequence around the reads make them one
snapshot. -/

namespace BtcPolicy.Node
open FiniteMap Bitcoin Coverage Programs

/-! ### Core over time -/

/-- One state of Core. What is unspent on its chain is not created in its mempool. -/
structure CoreState where
  tip : BlockHash
  utxo : OutPoint → Option TxOut
  mempool : Finset Txid
  sequence : Nat
  confirmed : ∀ outpoint, (utxo outpoint).isSome → outpoint.txid ∉ mempool

/-- Core and the node's cache around the calls of one thread: the states Core goes through, the one each call finds
and the call's failure, the cache as it stands after so many calls, and what the transaction index answers. -/
structure Session where
  consensus : Consensus
  tx : Txid → RawTransaction
  raw : Txid → Bytes
  world : Nat → CoreState
  instant : Nat → Nat
  ordered : Monotone instant
  failure : Nat → Option String
  cache : Nat → Option VaultUnspentCache
  index : Nat → Txid → Option Bytes
  enumerate : Finset Txid → List Txid
  enumerates : ∀ t, ∀ txids ⊆ (world t).mempool, ∀ txid, txid ∈ enumerate txids ↔ txid ∈ txids
  decodes : ∀ t, ∀ txid ∈ (world t).mempool, consensus.deserialize (raw txid) = .ok (tx txid)

/-- The order of `OutPoint`: by the bytes of the txid, then by the output. -/
def outPointKey (outpoint : OutPoint) : List Nat ×ₗ Nat := toLex (outpoint.txid.map UInt8.toNat, outpoint.vout)

theorem outPointKey_injective : Function.Injective outPointKey := by
  intro a b same
  obtain ⟨txids, vouts⟩ := Prod.mk.inj (toLex_inj.mp same)
  have bytes : a.txid = b.txid := List.map_injective_iff.mpr (fun _ _ => UInt8.toNat_inj.mp) txids
  cases a
  cases b
  cases bytes
  cases vouts
  rfl

instance : LinearOrder OutPoint := LinearOrder.lift' outPointKey outPointKey_injective

namespace Session

variable (s : Session)

/-- The state the `k`-th call finds. -/
def state (k : Nat) : CoreState := s.world (s.instant k)

abbrev Rpc (α : Type) := Prog Nat String α

def ask {α : Type} (answer : Nat → CoreState → Except String α) : Rpc α := fun n =>
  (match s.failure n with
    | some error => .error error
    | none => answer n (s.state n), n + 1)

/-- Some transaction of the mempool spends the output. -/
def Spent (mempool : Finset Txid) (outpoint : OutPoint) : Prop :=
  ∃ txid ∈ mempool, outpoint ∈ (s.tx txid).input.map (fun input => input.txIn.previousOutput)

instance (mempool : Finset Txid) (outpoint : OutPoint) : Decidable (s.Spent mempool outpoint) :=
  inferInstanceAs (Decidable (∃ txid ∈ mempool, _ ∈ (s.tx txid).input.map _))

/-- `gettxout` with `include_mempool`: an output a transaction of the mempool spends is hidden, and one of the
mempool's own is shown as unconfirmed. -/
def getTxOut (state : CoreState) (outpoint : OutPoint) : Option Prevout :=
  if s.Spent state.mempool outpoint then none
  else if outpoint.txid ∈ state.mempool then
    (s.tx outpoint.txid).output[outpoint.vout]?.map (fun txout => ⟨txout, false⟩)
  else (state.utxo outpoint).map (fun txout => ⟨txout, true⟩)

def mempoolSnapshot : Rpc (Finset Txid × Nat) := s.ask (fun _ state => .ok (state.mempool, state.sequence))

def bestBlockHash : Rpc BlockHash := s.ask (fun _ state => .ok state.tip)

def prevout (outpoint : OutPoint) : Rpc (Option Prevout) := s.ask (fun _ state => .ok (s.getTxOut state outpoint))

/-- One batch, each item of which Core answers on its own. -/
def prevouts : List OutPoint → Rpc (List (Option Prevout))
  | [] => pure []
  | outpoint :: rest => do
    let first ← s.prevout outpoint
    let later ← prevouts rest
    pure (first :: later)

/-- `getrawtransaction` finds what is in the mempool, and beyond it what the index has. -/
def rawTransactionIfAvailable (txid : Txid) : Rpc (Option Bytes) :=
  s.ask (fun k state => .ok (if txid ∈ state.mempool then some (s.raw txid) else s.index k txid))

/-- The tip and the candidates of a cache that stands at it. -/
def confirmedCandidates (scripts : List Script) : Rpc (BlockHash × List OutPoint) := do
  let tip ← s.bestBlockHash
  let now ← Prog.get
  match (s.cache now).filter (fun cache => decide (cache.scripts = scripts ∧ cache.bestblock = tip)) with
  | none => Prog.fail ("confirmed vault cache is cold or behind the active tip; refusing the fire-time coverage " ++
      "check without running scantxoutset on the combine path")
  | some cached => pure (tip, cached.candidates.sort (· ≤ ·))

def keepConfirmed (scripts : List Script) (found : Map OutPoint Prevout) (entry : OutPoint × Option Prevout) :
    Map OutPoint Prevout :=
  match entry.2 with
  | none => found
  | some prevout =>
    if prevout.txout.scriptPubkey ∈ scripts ∧ prevout.confirmed = true then found.insert entry.1 prevout else found

/-- The watched outputs of one authorized transaction, from the given ones on. -/
def collectOutputs (scripts : List Script) (txid : Txid) :
    List (TxOut × Nat) → Map OutPoint Prevout → Rpc (Map OutPoint Prevout)
  | [], found => pure found
  | (output, vout) :: rest, found =>
    if output.scriptPubkey ∉ scripts then collectOutputs scripts txid rest found
    else if 2 ^ 32 ≤ vout then
      let named := txidToString txid
      Prog.fail s!"authorized transaction {named} has too many outputs"
    else do
      match ← s.prevout ⟨txid, vout⟩ with
      | none => collectOutputs scripts txid rest found
      | some prevout =>
        collectOutputs scripts txid rest (if prevout.confirmed then found else found.insert ⟨txid, vout⟩ prevout)

def collectAuthorized (scripts : List Script) : List Txid → Map OutPoint Prevout → Rpc (Map OutPoint Prevout)
  | [], found => pure found
  | txid :: rest, found => do
    match ← s.rawTransactionIfAvailable txid with
    | none => collectAuthorized scripts rest found
    | some raw =>
      match s.consensus.deserialize raw with
      | .error e =>
        let named := txidToString txid
        Prog.fail s!"authorized mempool transaction {named} is malformed: {e}"
      | .ok tx => do
        let found ← s.collectOutputs scripts txid tx.output.zipIdx found
        collectAuthorized scripts rest found

/-- The entries of a map by their keys. -/
def sortedEntries (found : Map OutPoint Prevout) : List (OutPoint × Prevout) :=
  (found.entries.map (fun entry => (entry.1, entry.2))).mergeSort (fun a b => decide (a.1 ≤ b.1))

/-- One pass; `none` where the tip or the mempool has moved. -/
def attempt (scripts : List Script) (authorized : Finset Txid) : Rpc (Option (List (OutPoint × Prevout))) := do
  let (mempoolBefore, sequenceBefore) ← s.mempoolSnapshot
  let (scanTip, candidates) ← s.confirmedCandidates scripts
  let confirmedPrevouts ← s.prevouts candidates
  if confirmedPrevouts.length ≠ candidates.length then
    let returned := confirmedPrevouts.length
    let wanted := candidates.length
    Prog.fail s!"chain backend returned {returned} confirmed-candidate prevouts for {wanted} outpoints"
  else do
    let confirmed := (candidates.zip confirmedPrevouts).foldl (keepConfirmed scripts) ∅
    let found ← s.collectAuthorized scripts (s.enumerate (mempoolBefore ∩ authorized)) confirmed
    let tipAfter ← s.bestBlockHash
    let (_, sequenceAfter) ← s.mempoolSnapshot
    if scanTip = tipAfter ∧ sequenceBefore = sequenceAfter then pure (some (sortedEntries found)) else pure none

def vaultUnspent (scripts : List Script) (authorized : Finset Txid) : Rpc (List (OutPoint × Prevout)) := do
  match ← s.attempt scripts authorized with
  | some found => pure found
  | none =>
    match ← s.attempt scripts authorized with
    | some found => pure found
    | none =>
      Prog.fail "chain tip or mempool membership changed again while reconciling the vault UTXO snapshot"

/-! ### What a pass reads while the world holds still -/

/-- The call finds the chain and the mempool of `now`. -/
structure Still (now : CoreState) (k : Nat) : Prop where
  utxo : (s.state k).utxo = now.utxo
  mempool : (s.state k).mempool = now.mempool

section Reads

variable {s} {now : CoreState} {scripts : List Script}

theorem reads_ask {α : Type} {still : Nat → Prop} {answer : Nat → CoreState → Except String α} {post : α → Prop}
    (holds : ∀ k value, still k → answer k (s.state k) = .ok value → post value) : Reads still (s.ask answer) post := by
  refine reads_call (fun k value steady answered => ?_)
  cases failed : s.failure k with
  | some error =>
    rw [failed] at answered
    cases answered
  | none =>
    rw [failed] at answered
    exact holds k value steady answered

theorem getTxOut_still {k : Nat} (still : s.Still now k) (outpoint : OutPoint) :
    s.getTxOut (s.state k) outpoint = s.getTxOut now outpoint := by
  unfold getTxOut
  simp only [still.mempool, still.utxo]

theorem reads_prevout (outpoint : OutPoint) :
    Reads (s.Still now) (s.prevout outpoint) (fun found => found = s.getTxOut now outpoint) :=
  reads_ask (fun _ _ still answered => (Except.ok.inj answered).symm.trans (getTxOut_still still outpoint))

theorem reads_prevouts (outpoints : List OutPoint) :
    Reads (s.Still now) (s.prevouts outpoints) (fun found => found = outpoints.map (s.getTxOut now)) := by
  induction outpoints with
  | nil => exact reads_pure rfl
  | cons outpoint rest ih =>
    unfold prevouts
    refine reads_bind _ (reads_prevout outpoint) (fun first => reads_bind _ ih (fun later => reads_pure ?_))
    rintro rfl rfl
    rfl

/-- A map that holds exactly what Core shows of the wanted outputs. -/
def Collected (s : Session) (now : CoreState) (wanted : OutPoint → Prop) (found : Map OutPoint Prevout) : Prop :=
  ∀ outpoint prevout, found.lookup outpoint = some prevout ↔ s.getTxOut now outpoint = some prevout ∧ wanted outpoint

namespace Collected

variable {wanted : OutPoint → Prop} {found : Map OutPoint Prevout}

theorem empty : s.Collected now (fun _ => False) ∅ := by
  intro outpoint prevout
  simp

theorem insert (collected : s.Collected now wanted found) {outpoint : OutPoint} {prevout : Prevout}
    (shown : s.getTxOut now outpoint = some prevout) :
    s.Collected now (fun other => wanted other ∨ other = outpoint) (found.insert outpoint prevout) := by
  intro other value
  rw [lookup_insert_eq]
  by_cases same : other = outpoint
  · subst same
    rw [if_pos rfl, shown]
    simp
  · rw [if_neg same, collected other value]
    simp [same]

theorem congr {more : OutPoint → Prop} (collected : s.Collected now wanted found)
    (same : ∀ outpoint prevout, s.getTxOut now outpoint = some prevout → (wanted outpoint ↔ more outpoint)) :
    s.Collected now more found := by
  intro outpoint prevout
  rw [collected outpoint prevout]
  exact and_congr_right (fun shown => same outpoint prevout shown)

end Collected

/-- The outputs of the cache that are kept: the watched ones that Core shows as confirmed. -/
def Kept (s : Session) (now : CoreState) (scripts : List Script) (outpoint : OutPoint) : Prop :=
  ∃ prevout, s.getTxOut now outpoint = some prevout ∧ prevout.txout.scriptPubkey ∈ scripts ∧ prevout.confirmed = true

theorem collected_keepConfirmed (candidates : List OutPoint) {wanted : OutPoint → Prop} {found : Map OutPoint Prevout}
    (collected : s.Collected now wanted found) :
    s.Collected now (fun outpoint => wanted outpoint ∨ outpoint ∈ candidates ∧ s.Kept now scripts outpoint)
      ((candidates.zip (candidates.map (s.getTxOut now))).foldl (keepConfirmed scripts) found) := by
  induction candidates generalizing wanted found with
  | nil => exact collected.congr (by simp)
  | cons candidate rest ih =>
    rw [List.map_cons, List.zip_cons_cons, List.foldl_cons]
    have step : s.Collected now (fun outpoint => wanted outpoint ∨ outpoint = candidate ∧ s.Kept now scripts outpoint)
        (keepConfirmed scripts found (candidate, s.getTxOut now candidate)) := by
      unfold keepConfirmed
      cases shown : s.getTxOut now candidate with
      | none =>
        apply collected.congr
        rintro outpoint prevout found'
        have different : outpoint ≠ candidate := by
          rintro rfl
          rw [shown] at found'
          cases found'
        simp [different]
      | some prevout =>
        simp only
        by_cases keeps : prevout.txout.scriptPubkey ∈ scripts ∧ prevout.confirmed = true
        · rw [if_pos keeps]
          apply (collected.insert shown).congr
          intro outpoint _ _
          refine or_congr_right ⟨fun same => ⟨same, ?_⟩, And.left⟩
          exact same ▸ ⟨prevout, shown, keeps⟩
        · rw [if_neg keeps]
          apply collected.congr
          intro outpoint _ _
          refine ⟨Or.inl, fun held => held.elim id ?_⟩
          rintro ⟨rfl, other, shown', kept⟩
          cases shown.symm.trans shown'
          exact absurd kept keeps
    apply (ih step).congr
    intro outpoint _ _
    rw [List.mem_cons]
    tauto

/-- Core shows the output as unconfirmed. -/
def Unmined (s : Session) (now : CoreState) (outpoint : OutPoint) : Prop :=
  ∃ prevout, s.getTxOut now outpoint = some prevout ∧ prevout.confirmed = false

/-- Among the numbered outputs of a transaction, the watched ones. -/
def Pays (scripts : List Script) (outputs : List (TxOut × Nat)) (vout : Nat) : Prop :=
  ∃ output, (output, vout) ∈ outputs ∧ output.scriptPubkey ∈ scripts

theorem pays_cons {output : TxOut} {vout vout' : Nat} {rest : List (TxOut × Nat)} :
    Pays scripts ((output, vout) :: rest) vout' ↔
      vout' = vout ∧ output.scriptPubkey ∈ scripts ∨ Pays scripts rest vout' := by
  unfold Pays
  simp only [List.mem_cons, Prod.mk.injEq]
  constructor
  · rintro ⟨other, ⟨rfl, same⟩ | later, pays⟩
    · exact .inl ⟨same, pays⟩
    · exact .inr ⟨other, later, pays⟩
  · rintro (⟨same, pays⟩ | ⟨other, later, pays⟩)
    · exact ⟨output, .inl ⟨rfl, same⟩, pays⟩
    · exact ⟨other, .inr later, pays⟩

/-- What the outputs after the first add to what the first has added. -/
theorem collected_cons {txid : Txid} {output : TxOut} {vout : Nat} {rest : List (TxOut × Nat)}
    {wanted added : OutPoint → Prop} {result : Map OutPoint Prevout}
    (adds : ∀ outpoint prevout, s.getTxOut now outpoint = some prevout → (added outpoint ↔
      wanted outpoint ∨ outpoint = ⟨txid, vout⟩ ∧ output.scriptPubkey ∈ scripts ∧ s.Unmined now outpoint))
    (later : s.Collected now (fun outpoint =>
      added outpoint ∨ outpoint.txid = txid ∧ Pays scripts rest outpoint.vout ∧ s.Unmined now outpoint) result) :
    s.Collected now (fun outpoint => wanted outpoint ∨ outpoint.txid = txid ∧
      Pays scripts ((output, vout) :: rest) outpoint.vout ∧ s.Unmined now outpoint) result := by
  apply later.congr
  intro outpoint prevout shown
  have split : outpoint = ⟨txid, vout⟩ ↔ outpoint.txid = txid ∧ outpoint.vout = vout := by
    cases outpoint
    simp
  rw [adds outpoint prevout shown, pays_cons, split]
  tauto

theorem reads_collectOutputs (txid : Txid) (outputs : List (TxOut × Nat)) (wanted : OutPoint → Prop)
    (found : Map OutPoint Prevout) :
    Reads (s.Still now) (s.collectOutputs scripts txid outputs found) (fun result =>
      s.Collected now wanted found → s.Collected now (fun outpoint =>
        wanted outpoint ∨ outpoint.txid = txid ∧ Pays scripts outputs outpoint.vout ∧ s.Unmined now outpoint) result) := by
  induction outputs generalizing wanted found with
  | nil => exact reads_pure (fun collected => collected.congr (by simp [Pays]))
  | cons entry rest ih =>
    obtain ⟨output, vout⟩ := entry
    unfold collectOutputs
    by_cases foreign : output.scriptPubkey ∉ scripts
    · rw [if_pos foreign]
      exact reads_weaken (ih wanted found)
        (fun result later collected => collected_cons (fun _ _ _ => by tauto) (later collected))
    · rw [if_neg foreign]
      by_cases long : 2 ^ 32 ≤ vout
      · rw [if_pos long]
        exact reads_fail _
      · rw [if_neg long]
        refine reads_bind _ (reads_prevout ⟨txid, vout⟩) (fun shown => ?_)
        cases shown with
        | none =>
          refine reads_weaken (ih wanted found) (fun result later hidden collected => ?_)
          refine collected_cons (fun outpoint prevout shown => ⟨Or.inl, fun held => held.elim id ?_⟩) (later collected)
          rintro ⟨rfl, _⟩
          rw [← hidden] at shown
          cases shown
        | some prevout =>
          cases mined : prevout.confirmed with
          | true =>
            simp only [mined, if_true]
            refine reads_weaken (ih wanted found) (fun result later shown collected => ?_)
            refine collected_cons (fun outpoint _ _ => ⟨Or.inl, fun held => held.elim id ?_⟩) (later collected)
            rintro ⟨rfl, _, other, shown', unmined⟩
            cases shown.trans shown'
            rw [mined] at unmined
            cases unmined
          | false =>
            simp only [mined, Bool.false_eq_true, if_false]
            refine reads_weaken (ih (fun outpoint => wanted outpoint ∨ outpoint = ⟨txid, vout⟩)
              (found.insert ⟨txid, vout⟩ prevout)) (fun result later shown collected => ?_)
            refine collected_cons (fun outpoint _ _ => or_congr_right ⟨fun same => ⟨same, not_not.mp foreign, ?_⟩, And.left⟩)
              (later (collected.insert shown.symm))
            exact same ▸ ⟨prevout, shown.symm, mined⟩

theorem reads_collectAuthorized (txids : List Txid) (wanted : OutPoint → Prop) (found : Map OutPoint Prevout)
    (decodes : ∀ txid ∈ now.mempool, s.consensus.deserialize (s.raw txid) = .ok (s.tx txid)) :
    Reads (s.Still now) (s.collectAuthorized scripts txids found) (fun result =>
      (∀ txid ∈ txids, txid ∈ now.mempool) → s.Collected now wanted found →
        s.Collected now (fun outpoint => wanted outpoint ∨ outpoint.txid ∈ txids ∧
          Pays scripts (s.tx outpoint.txid).output.zipIdx outpoint.vout ∧ s.Unmined now outpoint) result) := by
  induction txids generalizing wanted found with
  | nil => exact reads_pure (fun _ collected => collected.congr (by simp))
  | cons txid rest ih =>
    unfold collectAuthorized
    refine reads_bind (fun raw => txid ∈ now.mempool → raw = some (s.raw txid)) ?_ (fun raw => ?_)
    · apply reads_ask
      intro k value still answered here
      rw [still.mempool, if_pos here] at answered
      exact (Except.ok.inj answered).symm
    · cases raw with
      | none =>
        exact reads_weaken (ih wanted found) (fun _ _ absent inside => nomatch absent (inside txid List.mem_cons_self))
      | some raw =>
        simp only
        cases decoded : s.consensus.deserialize raw with
        | error e => exact reads_fail _
        | ok tx =>
          refine reads_bind _ (reads_collectOutputs txid tx.output.zipIdx wanted found) (fun more => ?_)
          refine reads_weaken (ih (fun outpoint => wanted outpoint ∨ outpoint.txid = txid ∧
            Pays scripts tx.output.zipIdx outpoint.vout ∧ s.Unmined now outpoint) more)
            (fun result later first same inside collected => ?_)
          obtain ⟨here, others⟩ := List.forall_mem_cons.mp inside
          cases Option.some.inj (same here)
          cases Except.ok.inj (decoded.symm.trans (decodes txid here))
          apply (later others (first collected)).congr
          intro outpoint _ _
          rw [List.mem_cons]
          constructor
          · rintro ((held | ⟨rfl, kept⟩) | ⟨listed, kept⟩)
            · exact .inl held
            · exact .inr ⟨.inl rfl, kept⟩
            · exact .inr ⟨.inr listed, kept⟩
          · rintro (held | ⟨rfl | listed, kept⟩)
            · exact .inl (.inl held)
            · exact .inl (.inr ⟨rfl, kept⟩)
            · exact .inr ⟨listed, kept⟩

/-! ### One snapshot -/

/-- What the list holds of a state: the watched outputs of its chain, and those of the authorized transactions of its
mempool, that its mempool does not spend. -/
def Holds (s : Session) (now : CoreState) (scripts : List Script) (authorized : Finset Txid) (outpoint : OutPoint)
    (prevout : Prevout) : Prop :=
  prevout.txout.scriptPubkey ∈ scripts ∧ ¬s.Spent now.mempool outpoint ∧
    (prevout.confirmed = true ∧ now.utxo outpoint = some prevout.txout ∨
      prevout.confirmed = false ∧ outpoint.txid ∈ now.mempool ∧ outpoint.txid ∈ authorized ∧
        (s.tx outpoint.txid).output[outpoint.vout]? = some prevout.txout)

/-- What Core shows of an output. -/
theorem getTxOut_iff {outpoint : OutPoint} {prevout : Prevout} : s.getTxOut now outpoint = some prevout ↔
    ¬s.Spent now.mempool outpoint ∧ (prevout.confirmed = true ∧ now.utxo outpoint = some prevout.txout ∨
      prevout.confirmed = false ∧ outpoint.txid ∈ now.mempool ∧
        (s.tx outpoint.txid).output[outpoint.vout]? = some prevout.txout) := by
  obtain ⟨txout, confirmed⟩ := prevout
  unfold getTxOut
  by_cases spent : s.Spent now.mempool outpoint
  · simp [spent]
  · rw [if_neg spent]
    by_cases pooled : outpoint.txid ∈ now.mempool
    · have absent : now.utxo outpoint = none := by
        by_contra held
        exact now.confirmed outpoint (Option.isSome_iff_ne_none.mpr held) pooled
      rw [if_pos pooled]
      simp only [Option.map_eq_some_iff, Prevout.mk.injEq, absent]
      aesop
    · rw [if_neg pooled]
      simp only [Option.map_eq_some_iff, Prevout.mk.injEq]
      aesop

/-- What is collected from the candidates and the authorized transactions is what the state holds. -/
theorem holds_of_collected {authorized : Finset Txid} {candidates : List OutPoint}
    (enumerates : ∀ txids ⊆ now.mempool, ∀ txid, txid ∈ s.enumerate txids ↔ txid ∈ txids)
    (superset : ∀ outpoint txout, now.utxo outpoint = some txout → txout.scriptPubkey ∈ scripts → outpoint ∈ candidates)
    {outpoint : OutPoint} {prevout : Prevout} :
    s.getTxOut now outpoint = some prevout ∧ ((False ∨ outpoint ∈ candidates ∧ s.Kept now scripts outpoint) ∨
        outpoint.txid ∈ s.enumerate (now.mempool ∩ authorized) ∧
          Pays scripts (s.tx outpoint.txid).output.zipIdx outpoint.vout ∧ s.Unmined now outpoint) ↔
      s.Holds now scripts authorized outpoint prevout := by
  rw [enumerates _ Finset.inter_subset_left, Finset.mem_inter]
  constructor
  · rintro ⟨shown, (nothing | ⟨_, other, shown', watched, mined⟩) |
      ⟨⟨_, accepted⟩, ⟨output, listed, watched⟩, other, shown', unmined⟩⟩
    · exact nothing.elim
    · cases shown.symm.trans shown'
      obtain ⟨unspent, ⟨_, held⟩ | ⟨unmined, _⟩⟩ := getTxOut_iff.mp shown
      · exact ⟨watched, unspent, .inl ⟨mined, held⟩⟩
      · rw [mined] at unmined
        cases unmined
    · cases shown.symm.trans shown'
      obtain ⟨unspent, ⟨mined, _⟩ | ⟨_, pooled, paid⟩⟩ := getTxOut_iff.mp shown
      · rw [mined] at unmined
        cases unmined
      · have same := List.mem_zipIdx_iff_getElem?.mp listed
        cases Option.some.inj (same.symm.trans paid)
        exact ⟨watched, unspent, .inr ⟨unmined, pooled, accepted, paid⟩⟩
  · rintro ⟨watched, unspent, ⟨mined, held⟩ | ⟨unmined, pooled, accepted, paid⟩⟩
    · have shown := getTxOut_iff.mpr ⟨unspent, .inl ⟨mined, held⟩⟩
      exact ⟨shown, .inl (.inr ⟨superset outpoint _ held watched, prevout, shown, watched, mined⟩)⟩
    · have shown := getTxOut_iff.mpr ⟨unspent, .inr ⟨unmined, pooled, paid⟩⟩
      exact ⟨shown, .inr ⟨⟨pooled, accepted⟩,
        ⟨prevout.txout, List.mem_zipIdx_iff_getElem?.mpr paid, watched⟩, prevout, shown, unmined⟩⟩

theorem mem_sortedEntries {found : Map OutPoint Prevout} {outpoint : OutPoint} {prevout : Prevout} :
    (outpoint, prevout) ∈ sortedEntries found ↔ found.lookup outpoint = some prevout := by
  unfold sortedEntries
  rw [List.mem_mergeSort, List.mem_map]
  constructor
  · rintro ⟨⟨key, value⟩, listed, same⟩
    cases same
    exact AList.mem_lookup_iff.mpr listed
  · intro held
    exact ⟨⟨outpoint, prevout⟩, AList.mem_lookup_iff.mp held, rfl⟩

/-- Sorted, with every output once. -/
theorem sortedEntries_sorted (found : Map OutPoint Prevout) :
    ((sortedEntries found).map Prod.fst).Pairwise (· < ·) := by
  have sorted : ((sortedEntries found).map Prod.fst).Pairwise (· ≤ ·) := by
    rw [List.pairwise_map]
    have merged := @List.pairwise_mergeSort (OutPoint × Prevout) (fun a b => decide (a.1 ≤ b.1))
      (by simpa using fun a _ b _ c _ => @le_trans OutPoint _ a b c) (by simpa using fun a _ b _ => le_total a b)
      (found.entries.map (fun entry => (entry.1, entry.2)))
    exact merged.imp of_decide_eq_true
  have keys : ((sortedEntries found).map Prod.fst).Perm found.keys := by
    have same : (found.entries.map (fun entry => (entry.1, entry.2))).map Prod.fst = found.keys := by
      rw [List.map_map]
      rfl
    rw [← same]
    exact (List.mergeSort_perm _ _).map Prod.fst
  have once : ((sortedEntries found).map Prod.fst).Nodup := keys.nodup_iff.mpr found.keys_nodup
  exact (sorted.and once).imp (fun both => lt_of_le_of_ne both.1 both.2)

end Reads

/-! ### The bracket -/

/-- The mempool sequence never falls, and rises with every change of the mempool. -/
structure Sequenced (s : Session) : Prop where
  rises : ∀ t, (s.world t).sequence ≤ (s.world (t + 1)).sequence
  changes : ∀ t, (s.world (t + 1)).mempool ≠ (s.world t).mempool → (s.world t).sequence < (s.world (t + 1)).sequence

/-- The hash of the tip stands for the set of unspent outputs. -/
def Identified (s : Session) : Prop := ∀ t t', (s.world t).tip = (s.world t').tip → (s.world t).utxo = (s.world t').utxo

/-- A cache the node holds has every watched output that is unspent on the chain of its block. -/
def Covering (s : Session) : Prop :=
  ∀ k cache, s.cache k = some cache → ∀ t, (s.world t).tip = cache.bestblock →
    ∀ outpoint txout, (s.world t).utxo outpoint = some txout → txout.scriptPubkey ∈ cache.scripts →
      outpoint ∈ cache.candidates

/-- The tip does not leave a block and come back to it between two instants. -/
def NoReturn (s : Session) (first last : Nat) : Prop :=
  ∀ t, first ≤ t → t ≤ last → (s.world first).tip = (s.world last).tip → (s.world t).tip = (s.world first).tip

variable {s}

/-- An unchanged sequence is an unchanged mempool all the way. -/
theorem Sequenced.mempool_eq (sequenced : s.Sequenced) {first last : Nat}
    (same : (s.world first).sequence = (s.world last).sequence) {t : Nat} (after : first ≤ t) (before : t ≤ last) :
    (s.world t).mempool = (s.world first).mempool := by
  have rises : Monotone (fun t => (s.world t).sequence) := monotone_nat_of_le_succ sequenced.rises
  induction t, after using Nat.le_induction with
  | base => rfl
  | succ t after ih =>
    by_contra moved
    have here := ih (Nat.le_of_succ_le before)
    have jump := sequenced.changes t (fun still => moved (still.trans here))
    have low : (s.world first).sequence ≤ (s.world t).sequence := rises after
    have high : (s.world (t + 1)).sequence ≤ (s.world last).sequence := rises before
    omega

theorem answered_ask {α : Type} {answer : Nat → CoreState → Except String α} {n n' : Nat} {value : α}
    (answered : s.ask answer n = (.ok value, n')) : answer n (s.state n) = .ok value ∧ n' = n + 1 := by
  obtain ⟨result, rfl⟩ := Prod.mk.inj answered
  cases failed : s.failure n with
  | some error =>
    rw [failed] at result
    cases result
  | none =>
    rw [failed] at result
    exact ⟨result, rfl⟩

/-- A cache that answers stands at the tip. -/
theorem answered_confirmedCandidates {scripts : List Script} {n n' : Nat} {tip : BlockHash} {candidates : List OutPoint}
    (answered : s.confirmedCandidates scripts n = (.ok (tip, candidates), n')) :
    n' = n + 1 ∧ tip = (s.state n).tip ∧ ∃ cache, s.cache (n + 1) = some cache ∧ cache.scripts = scripts ∧
      cache.bestblock = tip ∧ candidates = cache.candidates.sort (· ≤ ·) := by
  unfold confirmedCandidates at answered
  obtain ⟨read, m, asked, rest⟩ := answered_bind answered
  obtain ⟨result, rfl⟩ := answered_ask asked
  cases Except.ok.inj result
  obtain ⟨now, m, got, rest⟩ := answered_bind rest
  cases got
  cases held : (s.cache (n + 1)).filter (fun cache =>
      decide (cache.scripts = scripts ∧ cache.bestblock = (s.state n).tip)) with
  | none =>
    rw [held] at rest
    cases rest
  | some cache =>
    rw [held] at rest
    cases rest
    obtain ⟨found, current⟩ := Option.filter_eq_some_iff.mp held
    obtain ⟨watched, stands⟩ := of_decide_eq_true current
    exact ⟨rfl, rfl, cache, found, watched, stands, rfl⟩

/-- A pass that returns is bracketed by an unchanged tip and an unchanged sequence, and its list is what the state in
between holds. -/
theorem attempt_exact (sequenced : s.Sequenced) (identified : s.Identified) (covering : s.Covering)
    {scripts : List Script} {authorized : Finset Txid} {n n' : Nat} {list : List (OutPoint × Prevout)}
    (returned : s.attempt scripts authorized n = (.ok (some list), n'))
    (straight : s.NoReturn (s.instant (n + 1)) (s.instant (n' - 2))) :
    n + 1 < n' ∧ (∀ outpoint prevout, (outpoint, prevout) ∈ list ↔
        s.Holds (s.state (n + 1)) scripts authorized outpoint prevout) ∧
      (list.map Prod.fst).Pairwise (· < ·) := by
  unfold attempt at returned
  obtain ⟨⟨mempoolBefore, sequenceBefore⟩, _, before, rest⟩ := answered_bind returned
  obtain ⟨began, rfl⟩ := answered_ask before
  obtain ⟨rfl, rfl⟩ := Prod.mk.inj (Except.ok.inj began)
  obtain ⟨⟨scanTip, candidates⟩, _, scanned, rest⟩ := answered_bind rest
  obtain ⟨rfl, tip, cache, held, watched, stands, rfl⟩ := answered_confirmedCandidates scanned
  obtain ⟨prevouts, m, fetched, rest⟩ := answered_bind rest
  simp only at rest
  split at rest
  · cases rest
  · obtain ⟨found, last, gathered, rest⟩ := answered_bind rest
    obtain ⟨tipAfter, _, asked, rest⟩ := answered_bind rest
    obtain ⟨ended, rfl⟩ := answered_ask asked
    cases Except.ok.inj ended
    obtain ⟨⟨_, sequenceAfter⟩, _, after, rest⟩ := answered_bind rest
    obtain ⟨closed, rfl⟩ := answered_ask after
    obtain ⟨_, rfl⟩ := Prod.mk.inj (Except.ok.inj closed)
    simp only at rest
    split at rest
    · rename_i stable
      cases rest
      obtain ⟨sameTip, sameSequence⟩ := stable
      obtain ⟨fetches, prevoutsOf⟩ := @reads_prevouts s (s.state (n + 1)) _ _ _ _ fetched
      obtain ⟨gathers, collects⟩ := @reads_collectAuthorized s (s.state (n + 1)) scripts _
        (fun outpoint => False ∨ outpoint ∈ cache.candidates.sort (· ≤ ·) ∧ s.Kept (s.state (n + 1)) scripts outpoint) _
        (s.decodes _) _ _ _ gathered
      -- Between the two snapshots the mempool stands, and between the two tips the chain.
      have pooled : ∀ k, n ≤ k → k ≤ last + 1 → (s.state k).mempool = (s.state n).mempool :=
        fun k low high => sequenced.mempool_eq sameSequence (s.ordered low) (s.ordered high)
      have still : ∀ k, n + 1 ≤ k → k ≤ last → s.Still (s.state (n + 1)) k := by
        intro k low high
        refine ⟨identified _ _ ?_, ?_⟩
        · exact straight _ (s.ordered low) (s.ordered high) (tip.symm.trans sameTip)
        · rw [pooled k (by omega) (by omega), pooled (n + 1) (by omega) (by omega)]
      have mempool : (s.state (n + 1)).mempool = (s.state n).mempool := pooled (n + 1) (by omega) (by omega)
      have listed : ∀ txid ∈ s.enumerate ((s.state n).mempool ∩ authorized), txid ∈ (s.state (n + 1)).mempool := by
        intro txid member
        rw [mempool]
        exact (Finset.mem_inter.mp ((s.enumerates (s.instant n) _ Finset.inter_subset_left txid).mp member)).1
      have kept := @collected_keepConfirmed s (s.state (n + 1)) scripts (cache.candidates.sort (· ≤ ·)) _ _ .empty
      rw [← prevoutsOf (fun k low high => still k (by omega) (by omega))] at kept
      have collected := collects (fun k low high => still k (by omega) (by omega)) listed kept
      rw [← mempool] at collected
      have superset : ∀ outpoint txout, (s.state (n + 1)).utxo outpoint = some txout → txout.scriptPubkey ∈ scripts →
          outpoint ∈ cache.candidates.sort (· ≤ ·) := by
        intro outpoint txout unspent pays
        rw [Finset.mem_sort]
        exact covering _ cache held _ (tip.symm.trans stands.symm) outpoint txout unspent (watched ▸ pays)
      refine ⟨by omega, fun outpoint prevout => ?_, sortedEntries_sorted found⟩
      rw [mem_sortedEntries, collected outpoint prevout]
      exact holds_of_collected (s.enumerates _) superset
    · cases rest

theorem attempt_order {scripts : List Script} {authorized : Finset Txid} {n n' : Nat}
    {found : Option (List (OutPoint × Prevout))} (answered : s.attempt scripts authorized n = (.ok found, n')) :
    n ≤ n' := by
  unfold attempt at answered
  obtain ⟨_, _, before, rest⟩ := answered_bind answered
  obtain ⟨_, rfl⟩ := answered_ask before
  obtain ⟨⟨_, candidates⟩, _, scanned, rest⟩ := answered_bind rest
  obtain ⟨rfl, _⟩ := answered_confirmedCandidates scanned
  obtain ⟨prevouts, m, fetched, rest⟩ := answered_bind rest
  have fetches := (@reads_prevouts s (s.state n) _ _ _ _ fetched).1
  simp only at rest
  split at rest
  · cases rest
  · obtain ⟨_, last, gathered, rest⟩ := answered_bind rest
    have gathers := (@reads_collectAuthorized s (s.state n) scripts _ (fun _ => True) _ (s.decodes _) _ _ _ gathered).1
    obtain ⟨_, _, asked, rest⟩ := answered_bind rest
    obtain ⟨_, rfl⟩ := answered_ask asked
    obtain ⟨_, _, after, rest⟩ := answered_bind rest
    obtain ⟨_, rfl⟩ := answered_ask after
    split at rest <;> cases rest <;> omega

end Session

/-- Whatever the chain and the mempool do between its calls, a list that is returned is what one state in between
holds, in order and without a coin twice, as long as the tip does not come back to a block it left between the two
readings of the pass that returned. -/
theorem vault_unspent_is_one_snapshot (s : Session) (sequenced : s.Sequenced) (identified : s.Identified)
    (covering : s.Covering) (scripts : List Script) (authorized : Finset Txid) (n n' : Nat)
    (list : List (OutPoint × Prevout)) (returned : s.vaultUnspent scripts authorized n = (.ok list, n')) :
    ∃ first, n ≤ first ∧ s.attempt scripts authorized first = (.ok (some list), n') ∧
      (s.NoReturn (s.instant (first + 1)) (s.instant (n' - 2)) →
        ∃ k, n ≤ k ∧ k < n' ∧
          (∀ outpoint prevout, (outpoint, prevout) ∈ list ↔ s.Holds (s.state k) scripts authorized outpoint prevout) ∧
          (list.map Prod.fst).Pairwise (· < ·)) := by
  have stitched : ∀ first, n ≤ first → s.attempt scripts authorized first = (.ok (some list), n') →
      s.NoReturn (s.instant (first + 1)) (s.instant (n' - 2)) →
      ∃ k, n ≤ k ∧ k < n' ∧
        (∀ outpoint prevout, (outpoint, prevout) ∈ list ↔ s.Holds (s.state k) scripts authorized outpoint prevout) ∧
        (list.map Prod.fst).Pairwise (· < ·) := by
    intro first after passed straight
    obtain ⟨inside, holds, sorted⟩ := Session.attempt_exact sequenced identified covering passed straight
    exact ⟨first + 1, after.trans (Nat.le_succ first), inside, holds, sorted⟩
  unfold Session.vaultUnspent at returned
  obtain ⟨found, m, passed, rest⟩ := answered_bind returned
  cases found with
  | some entries =>
    cases rest
    exact ⟨n, le_rfl, passed, stitched n le_rfl passed⟩
  | none =>
    obtain ⟨found', m', passed', rest⟩ := answered_bind rest
    cases found' with
    | some entries =>
      cases rest
      have after := Session.attempt_order passed
      exact ⟨m, after, passed', stitched m after passed'⟩
    | none => cases rest

namespace Sample

/-- A confirmed coin of the vault, and an authorized transaction in the mempool that pays it another. -/
def coreState : CoreState where
  tip := [1]
  utxo := fun outpoint => if outpoint = ⟨[5], 0⟩ then some ⟨1000, [7]⟩ else none
  mempool := {[6]}
  sequence := 3
  confirmed := by
    intro outpoint held pooled
    split at held
    next same =>
      subst same
      simp at pooled
    next => cases held

def pooledTx : RawTransaction := ⟨2, 0, [⟨⟨⟨[4], 1⟩, 0⟩, [], []⟩], [⟨500, [7]⟩, ⟨1, [8]⟩]⟩

def session : Session where
  consensus := ⟨fun _ => .ok pooledTx, fun _ => [], fun _ => [6]⟩
  tx := fun _ => pooledTx
  raw := fun _ => []
  world := fun _ => coreState
  instant := id
  ordered := monotone_id
  failure := fun _ => none
  cache := fun _ => some ⟨[1], 9, [[7]], {⟨[5], 0⟩}⟩
  index := fun _ _ => none
  enumerate := fun txids => if [6] ∈ txids then [[6]] else []
  enumerates := by
    intro _ txids inside txid
    by_cases listed : [6] ∈ txids
    · rw [if_pos listed, List.mem_singleton]
      exact ⟨fun same => same ▸ listed, fun member => Finset.mem_singleton.mp (inside member)⟩
    · rw [if_neg listed]
      exact ⟨nofun, fun member => absurd (Finset.mem_singleton.mp (inside member) ▸ member) listed⟩
  decodes := fun _ _ _ => rfl

theorem confirmedCandidates_session : session.confirmedCandidates [[7]] 1 = (.ok ([1], [⟨[5], 0⟩]), 2) := by
  have read : session.confirmedCandidates [[7]] 1 = (.ok ([1], ({⟨[5], 0⟩} : Finset OutPoint).sort (· ≤ ·)), 2) := rfl
  rw [read, Finset.sort_singleton]

theorem vaultUnspent_session : ∃ list, session.vaultUnspent [[7]] {[6]} 0 = (.ok list, 7) := by
  have passed : ∃ list, session.attempt [[7]] {[6]} 0 = (.ok (some list), 7) := by
    unfold Session.attempt
    rw [run_bind (show session.mempoolSnapshot 0 = (.ok ({[6]}, 3), 1) from rfl)]
    simp only
    rw [run_bind confirmedCandidates_session]
    exact ⟨_, rfl⟩
  obtain ⟨list, passed⟩ := passed
  exact ⟨list, run_bind passed⟩

end Sample

theorem vault_unspent_is_one_snapshot_sample : ∃ list, Sample.session.vaultUnspent [[7]] {[6]} 0 = (.ok list, 7) ∧
    ∃ k < 7, ∀ outpoint prevout, (outpoint, prevout) ∈ list ↔
      Sample.session.Holds (Sample.session.state k) [[7]] {[6]} outpoint prevout := by
  obtain ⟨list, returned⟩ := Sample.vaultUnspent_session
  have covering : Sample.session.Covering := by
    intro k cache held t _ outpoint txout unspent _
    cases held
    change (if outpoint = ⟨[5], 0⟩ then some (TxOut.mk 1000 [7]) else none) = some txout at unspent
    split at unspent
    · rename_i same
      exact Finset.mem_singleton.mpr same
    · cases unspent
  obtain ⟨first, _, _, bracketed⟩ := vault_unspent_is_one_snapshot Sample.session
    ⟨fun _ => le_rfl, fun _ moved => absurd rfl moved⟩ (fun _ _ _ => rfl) covering [[7]] {[6]} 0 7 list returned
  obtain ⟨k, _, before, holds, _⟩ := bracketed (fun _ _ _ _ => rfl)
  exact ⟨list, returned, k, before, holds⟩

end BtcPolicy.Node
