import BtcPolicy.Channel.Machine
import BtcPolicy.Lib.Counting
import BtcPolicy.Lib.Results
import BtcPolicy.Node.Ladder
import BtcPolicy.Node.State
import BtcPolicy.Watchtower

/-! What a sweep is measured against: the coins it protects, each counted once, whether the chain shows them or a rung
in the mempool hides them, and what its paired spend has already moved. -/

namespace BtcPolicy.Channel
open FiniteMap Bitcoin

/-- What the coverage check reads of a candidate: its base transaction, with the declared value of each input. -/
structure CandidateCoverageContext where
  hot : Bool
  inputs : List (OutPoint × Nat)
  tx : Transaction

def declaredInput (input : TxIn × PsbtInput) : Option (OutPoint × Nat) :=
  input.2.witnessUtxo.map (fun utxo => (input.1.previousOutput, utxo.value))

/-- `None` where an input has no `witness_utxo`. -/
def Candidate.coverageContext (c : Candidate) : Option CandidateCoverageContext :=
  let psbt := c.base.psbt
  ((psbt.unsignedTx.input.zip psbt.inputs).mapM declaredInput).map (fun inputs => ⟨c.hot, inputs, psbt.unsignedTx⟩)

def PartialStore.candidateCoverageContext (s : PartialStore) (commitmentId : String) :
    Option CandidateCoverageContext :=
  (s.candidates.lookup commitmentId).bind Candidate.coverageContext

end BtcPolicy.Channel

namespace BtcPolicy.Node
open FiniteMap Word Bitcoin Policy Channel Results Counting Watchtower

/-- `ok_or_else`. -/
def okOr {α : Type} (value : Option α) (error : String) : Except String α :=
  match value with
  | some value => .ok value
  | none => .error error

/-- What the pass asks its chain backend. -/
structure CoverageReadings where
  prevouts : List OutPoint → Except String (List (Option Prevout))
  vaultUnspent : List Script → Finset Txid → Except String (List (OutPoint × Prevout))
  transactionConfirmed : Txid → Except String Bool

/-- One input of the sweep: a coin the chain does not show counts as declared behind a resident rung, and is an error
without one. -/
def sweepInput (resident : Bool) (total : Nat) (entry : (OutPoint × Option Prevout) × (OutPoint × Nat)) :
    Except String Nat :=
  if entry.1.1 ≠ entry.2.1 then .error "armed escape input context does not match its transaction"
  else
    match entry.1.2 with
    | some prevout => .ok (satAdd total prevout.txout.value)
    | none =>
      if resident then .ok (satAdd total entry.2.2)
      else
        let outpoint := outPointToString entry.1.1
        .error s!"escape prevout {outpoint} is unknown to this node (spent or missing)"

def sweptTotal (resident : Bool) (outpoints : List OutPoint) (prevouts : List (Option Prevout))
    (inputs : List (OutPoint × Nat)) : Except String Nat :=
  if prevouts.length ≠ outpoints.length then
    let returned := prevouts.length
    let wanted := outpoints.length
    .error s!"chain backend returned {returned} escape prevouts for {wanted} inputs"
  else ((outpoints.zip prevouts).zip inputs).foldlM (sweepInput resident) 0

/-- The vault's unspent coins but for the outputs of the resident rung, whose inputs are put back where the chain
hides them. -/
def protectedBalance (residentTxid : Option Txid) (vaultUnspent : List (OutPoint × Prevout))
    (inputs : List (OutPoint × Nat)) : Nat :=
  let shown := (vaultUnspent.filter (fun coin => decide (some coin.1.txid ≠ residentTxid))).foldl
    (fun total coin => satAdd total coin.2.txout.value) 0
  if residentTxid.isSome then
    let visible := (vaultUnspent.map Prod.fst).toFinset
    inputs.foldl (fun total input => if input.1 ∈ visible then total else satAdd total input.2) shown
  else shown

def checkProtected (protectedValue : Nat) : Except String Unit :=
  if protectedValue = 0 then .error "protected confirmed + authorized-unconfirmed vault balance is empty" else .ok ()

/-- The value that comes back to the vault. -/
def vaultChange (vaultScripts : List Script) (tx : Transaction) : Nat :=
  (tx.output.filter (fun output => decide (output.scriptPubkey ∈ vaultScripts))).foldl
    (fun total output => satAdd total output.value) 0

/-- The protected value and what is already delivered: a hot spend is superseded and adds nothing, and any other has
to be confirmed and apart from the sweep. -/
def withPairedSpend (lib : Library) (params : CheckParams) (escape : Descriptor) (vaultScripts : List Script)
    (chain : CoverageReadings) (tx : Transaction) (paired : CandidateCoverageContext) (protectedValue : Nat) :
    Except String (Nat × Nat) :=
  if paired.hot then .ok (protectedValue, 0)
  else
    match paired.inputs.find? (fun input => decide (input.1 ∈ outpointsOf tx)) with
    | some shared =>
      let outpoint := outPointToString shared.1
      .error (s!"residual escape shares input {outpoint} with its completed escape-class spend — not disjoint " ++
        "(ADR-0012 class-aware coverage)")
    | none =>
      let txid := lib.computeTxid paired.tx
      let name := txidToString txid
      match chain.transactionConfirmed txid with
      | .error e => .error s!"cannot confirm paired escape-class spend {name}: {e}"
      | .ok false =>
        .error (s!"paired escape-class spend {name} is not confirmed, so its outputs cannot count as delivered in union " ++
          "coverage")
      | .ok true =>
        let inputValue := paired.inputs.foldl (fun total input => satAdd total input.2) 0
        let change := vaultChange vaultScripts paired.tx
        if inputValue < change then
          .error "paired escape-class spend returns more value to the vault than its inputs"
        else
          let delivered := (paired.tx.output.filter (fun output =>
            derivesWithin escape output.scriptPubkey params.maxDerivationIndex)).foldl
              (fun total output => satAdd total output.value) 0
          .ok (satAdd protectedValue (inputValue - change), delivered)

/-- The store is read three times, under a lock of its own each time. -/
def sweepEnv (lib : Library) (params : CheckParams) (vaultScripts : List Script) (authorized : Finset Txid)
    (chain : CoverageReadings) (commitmentId : String) (laddered : Bool) (residentRung : Option Transaction)
    (atStart atPairing atSpend : PartialStore) : Except String SweepEnv := do
  let candidate ← okOr (atStart.candidateCoverageContext commitmentId) "armed escape candidate context is unavailable"
  let outpoints := outpointsOf candidate.tx
  let prevouts ← (chain.prevouts outpoints).mapError (fun e => s!"cannot read escape prevouts: {e}")
  let totalIn ← sweptTotal residentRung.isSome outpoints prevouts candidate.inputs
  let escape ← okOr params.escape "no escape descriptor configured"
  let vaultUnspent ← (chain.vaultUnspent vaultScripts authorized).mapError
    (fun e => s!"cannot enumerate the protected vault balance: {e}")
  let balance := protectedBalance (residentRung.map lib.computeTxid) vaultUnspent candidate.inputs
  checkProtected balance
  let pairing ← okOr (atPairing.pairing commitmentId) "armed escape has no registered paired spend"
  let paired ← okOr (atSpend.candidateCoverageContext pairing.2) "armed escape's paired spend context is unavailable"
  let (protectedValue, pairedDelivered) ←
    withPairedSpend lib params escape vaultScripts chain candidate.tx paired balance
  pure ⟨totalIn, protectedValue, pairedDelivered, laddered⟩

/-! ### The context of a candidate -/

/-- The declared inputs of a PSBT, in order. -/
def declaredInputs (psbt : Psbt) : List (OutPoint × Nat) :=
  (psbt.unsignedTx.input.zip psbt.inputs).filterMap declaredInput

section Context

variable {c : Candidate} {context : CandidateCoverageContext}

theorem coverageContext_some (known : c.coverageContext = some context) :
    context = ⟨c.hot, declaredInputs c.base.psbt, c.base.psbt.unsignedTx⟩ ∧
      List.Forall₂ (fun input declared => declaredInput input = some declared)
        (c.base.psbt.unsignedTx.input.zip c.base.psbt.inputs) (declaredInputs c.base.psbt) := by
  unfold Candidate.coverageContext at known
  obtain ⟨inputs, mapped, rfl⟩ := Option.map_eq_some_iff.mp known
  have each := forall₂_of_mapM_some mapped
  rw [declaredInputs, filterMap_of_forall₂ each]
  exact ⟨rfl, each⟩

/-- With a map for each input, every coin of the transaction is declared. -/
theorem declaredInputs_fst (known : c.coverageContext = some context)
    (mapped : c.base.psbt.inputs.length = c.base.psbt.unsignedTx.input.length) :
    (declaredInputs c.base.psbt).map Prod.fst = outpointsOf c.base.psbt.unsignedTx := by
  have each := (coverageContext_some known).2
  have coins : (c.base.psbt.unsignedTx.input.zip c.base.psbt.inputs).map (fun input => input.1.previousOutput) =
      (declaredInputs c.base.psbt).map Prod.fst := by
    rw [← List.forall₂_eq_eq_eq, List.forall₂_map_left_iff, List.forall₂_map_right_iff]
    refine each.imp (fun input declared found => ?_)
    obtain ⟨utxo, _, rfl⟩ := Option.map_eq_some_iff.mp found
    rfl
  rw [← coins, outpointsOf]
  conv_rhs => rw [← List.map_fst_zip mapped.ge, List.map_map]
  rfl

/-- And they add up to the declared input value. -/
theorem declaredInputs_sum (mapped : c.base.psbt.inputs.length = c.base.psbt.unsignedTx.input.length) :
    ((declaredInputs c.base.psbt).map Prod.snd).sum = inputSum c.base.psbt := by
  unfold declaredInputs inputSum
  conv_rhs => rw [← List.map_snd_zip mapped.le]
  rw [List.filterMap_map, List.map_filterMap, List.map_filterMap]
  congr 2
  funext input
  rw [declaredInput, Option.map_map]
  rfl

end Context

/-! ### The protected coins -/

/-- What a coin is worth: as the chain lists it, and otherwise as the sweep declares it. -/
def coinValue (vaultUnspent : List (OutPoint × Prevout)) (inputs : List (OutPoint × Nat)) (coin : OutPoint) : Nat :=
  match vaultUnspent.find? (fun entry => decide (entry.1 = coin)) with
  | some entry => entry.2.txout.value
  | none => ((inputs.find? (fun entry => decide (entry.1 = coin))).map Prod.snd).getD 0

/-- The coins the chain lists, less the outputs of the resident rung, and with one the inputs of the sweep. -/
def protectedCoins (residentTxid : Option Txid) (vaultUnspent : List (OutPoint × Prevout))
    (inputs : List (OutPoint × Nat)) : Finset OutPoint :=
  ((vaultUnspent.map Prod.fst).filter (fun coin => decide (some coin.txid ≠ residentTxid))).toFinset ∪
    (if residentTxid.isSome then inputs.map Prod.fst else []).toFinset

section Coins

variable {residentTxid : Option Txid} {vaultUnspent : List (OutPoint × Prevout)} {inputs : List (OutPoint × Nat)}

theorem coinValue_listed (once : (vaultUnspent.map Prod.fst).Nodup) {entry : OutPoint × Prevout}
    (member : entry ∈ vaultUnspent) : coinValue vaultUnspent inputs entry.1 = entry.2.txout.value := by
  unfold coinValue
  rw [find?_of_nodup once member]

theorem coinValue_declared (once : (inputs.map Prod.fst).Nodup) {input : OutPoint × Nat} (member : input ∈ inputs)
    (hidden : input.1 ∉ vaultUnspent.map Prod.fst) : coinValue vaultUnspent inputs input.1 = input.2 := by
  have absent : vaultUnspent.find? (fun entry => decide (entry.1 = input.1)) = none := by
    rw [List.find?_eq_none]
    intro entry listed same
    rw [decide_eq_true_eq] at same
    exact hidden (same ▸ List.mem_map_of_mem listed)
  unfold coinValue
  rw [absent, find?_of_nodup once member]
  rfl

theorem listedValue_eq (once : (vaultUnspent.map Prod.fst).Nodup) (kept : OutPoint → Bool) :
    (((vaultUnspent.map Prod.fst).filter kept).map (coinValue vaultUnspent inputs)).sum =
      ((vaultUnspent.filter (fun coin => kept coin.1)).map (fun coin => coin.2.txout.value)).sum := by
  rw [List.filter_map, List.map_map]
  congr 1
  apply List.map_congr_left
  intro entry member
  exact coinValue_listed once (List.mem_of_mem_filter member)

/-- An input is put back where the chain hides it. -/
theorem restoredValue_eq (once : (inputs.map Prod.fst).Nodup) {kept : List OutPoint}
    (same : ∀ input ∈ inputs, input.1 ∈ kept ↔ input.1 ∈ vaultUnspent.map Prod.fst) :
    (((inputs.map Prod.fst).filter (fun coin => decide (coin ∉ kept))).map (coinValue vaultUnspent inputs)).sum =
      ((inputs.filter (fun input => decide (input.1 ∉ vaultUnspent.map Prod.fst))).map Prod.snd).sum := by
  have hidden : inputs.filter ((fun coin => decide (coin ∉ kept)) ∘ Prod.fst) =
      inputs.filter (fun input => decide (input.1 ∉ vaultUnspent.map Prod.fst)) := by
    apply List.filter_congr
    intro input member
    simp [same input member]
  rw [List.filter_map, List.map_map, hidden]
  congr 1
  apply List.map_congr_left
  intro input member
  rw [List.mem_filter, decide_eq_true_eq] at member
  exact coinValue_declared once member.1 member.2

/-- Every protected coin is counted once; no input of the sweep is an output of the rung that spends it. -/
theorem protectedBalance_eq (once : (vaultUnspent.map Prod.fst).Nodup) (once' : (inputs.map Prod.fst).Nodup)
    (apart : ∀ txid, residentTxid = some txid → ∀ input ∈ inputs, input.1.txid ≠ txid) :
    protectedBalance residentTxid vaultUnspent inputs =
      satAdd 0 (∑ coin ∈ protectedCoins residentTxid vaultUnspent inputs, coinValue vaultUnspent inputs coin) := by
  have counted : (if residentTxid.isSome then inputs.map Prod.fst else []).Nodup := by
    split_ifs
    · exact once'
    · exact List.nodup_nil
  unfold protectedCoins
  rw [sum_union_listed _ (once.filter _) counted, listedValue_eq once]
  unfold protectedBalance
  simp only [foldl_satAdd_eq (fun coin : OutPoint × Prevout => coin.2.txout.value)]
  cases residentTxid with
  | none => simp
  | some txid =>
    have same : ∀ input ∈ inputs, input.1 ∈ (vaultUnspent.map Prod.fst).filter
        (fun coin => decide (some coin.txid ≠ some txid)) ↔ input.1 ∈ vaultUnspent.map Prod.fst := by
      intro input member
      rw [List.mem_filter, decide_eq_true_eq, ne_eq, Option.some.injEq]
      exact and_iff_left (apart txid rfl input member)
    have restored : ∀ shown ≤ maxWord, inputs.foldl (fun total input =>
        if input.1 ∈ (vaultUnspent.map Prod.fst).toFinset then total else satAdd total input.2) shown =
        satAdd shown ((inputs.filter (fun input => decide (input.1 ∉ vaultUnspent.map Prod.fst))).map Prod.snd).sum := by
      intro shown word
      apply foldl_filter_eq_satAdd
      · intro total input
        rw [ite_not]
        simp only [List.mem_toFinset]
      · exact word
    simp only [Option.isSome_some, if_true]
    rw [restoredValue_eq once' same, restored _ (satAdd_le_maxWord _ _), satAdd_satAdd]

end Coins

/-! ### The swept value and the paired spend -/

theorem sweepInput_ok {resident : Bool} {entry : (OutPoint × Option Prevout) × (OutPoint × Nat)} {start next : Nat}
    (swept : sweepInput resident start entry = .ok next) :
    next = satAdd start ((entry.1.2.map (fun prevout => prevout.txout.value)).getD entry.2.2) := by
  unfold sweepInput at swept
  by_cases same : entry.1.1 = entry.2.1
  swap
  · rw [if_pos same] at swept
    cases swept
  rw [if_neg (not_not_intro same)] at swept
  cases shown : entry.1.2 with
  | some prevout =>
    rw [shown] at swept
    cases swept
    rfl
  | none =>
    rw [shown] at swept
    cases resident with
    | true =>
      cases swept
      rfl
    | false => cases swept

theorem foldlM_sweepInput {resident : Bool} {entries : List ((OutPoint × Option Prevout) × (OutPoint × Nat))}
    {start total : Nat} (word : start ≤ maxWord) (swept : entries.foldlM (sweepInput resident) start = .ok total) :
    total = satAdd start (entries.map (fun entry =>
      (entry.1.2.map (fun prevout => prevout.txout.value)).getD entry.2.2)).sum := by
  induction entries generalizing start with
  | nil =>
    cases swept
    exact (Nat.min_eq_left word).symm
  | cons entry rest ih =>
    rw [List.foldlM_cons] at swept
    obtain ⟨next, first, swept⟩ := ok_of_bind swept
    have added := sweepInput_ok first
    have later := ih (added ▸ satAdd_le_maxWord _ _) swept
    rw [later, added, satAdd_satAdd, List.map_cons, List.sum_cons]

/-- What the sweep spends: each input as the chain shows it, and otherwise as it is declared. -/
def sweptValue (prevouts : List (Option Prevout)) (inputs : List (OutPoint × Nat)) : Nat :=
  (List.zipWith (fun prevout input => (prevout.map (fun prevout => prevout.txout.value)).getD input.2)
    prevouts inputs).sum

theorem sweptTotal_ok {resident : Bool} {outpoints : List OutPoint} {prevouts : List (Option Prevout)}
    {inputs : List (OutPoint × Nat)} {total : Nat} (swept : sweptTotal resident outpoints prevouts inputs = .ok total) :
    total = satAdd 0 (sweptValue prevouts inputs) := by
  unfold sweptTotal at swept
  simp only at swept
  split_ifs at swept with counted
  have shown : (outpoints.zip prevouts).map Prod.snd = prevouts := List.map_snd_zip (not_not.mp counted).le
  rw [foldlM_sweepInput (Nat.zero_le _) swept]
  unfold sweptValue
  conv_rhs => rw [← shown, List.zipWith_map_left]
  rw [← List.map_uncurry_zip_eq_zipWith]
  rfl

/-- A spend that is not hot is counted where it is confirmed and spends nothing of the sweep. -/
theorem withPairedSpend_ok {lib : Library} {params : CheckParams} {escape : Descriptor} {vaultScripts : List Script}
    {chain : CoverageReadings} {tx : Transaction} {paired : CandidateCoverageContext} {balance protectedValue delivered : Nat}
    (counted : withPairedSpend lib params escape vaultScripts chain tx paired balance =
      .ok (protectedValue, delivered)) :
    (paired.hot = true ∧ protectedValue = balance ∧ delivered = 0) ∨
      (paired.hot = false ∧ chain.transactionConfirmed (lib.computeTxid paired.tx) = .ok true ∧
        (∀ input ∈ paired.inputs, input.1 ∉ outpointsOf tx) ∧
        vaultChange vaultScripts paired.tx ≤ satAdd 0 (paired.inputs.map Prod.snd).sum ∧
        protectedValue =
          satAdd balance (satAdd 0 (paired.inputs.map Prod.snd).sum - vaultChange vaultScripts paired.tx)) := by
  unfold withPairedSpend at counted
  cases hot : paired.hot with
  | true =>
    rw [hot] at counted
    cases counted
    exact Or.inl ⟨rfl, rfl, rfl⟩
  | false =>
    simp only [hot, Bool.false_eq_true, if_false] at counted
    cases shared : paired.inputs.find? (fun input => decide (input.1 ∈ outpointsOf tx)) with
    | some input =>
      rw [shared] at counted
      cases counted
    | none =>
      cases confirmed : chain.transactionConfirmed (lib.computeTxid paired.tx) with
      | error e => simp [shared, confirmed] at counted
      | ok known =>
        cases known with
        | false => simp [shared, confirmed] at counted
        | true =>
          simp only [shared, confirmed, foldl_satAdd_eq (fun input : OutPoint × Nat => input.2)] at counted
          split_ifs at counted with short
          cases counted
          refine Or.inr ⟨rfl, rfl, ?_, Nat.le_of_not_lt short, rfl⟩
          intro input member
          simpa using List.find?_eq_none.mp shared input member

/-! ### The environment of the sweep -/

/-- What a spend returns to the vault, without a bound. -/
def returned (vaultScripts : List Script) (tx : Transaction) : Nat :=
  ((tx.output.filter (fun output => decide (output.scriptPubkey ∈ vaultScripts))).map TxOut.value).sum

/-- What a completed spend has taken out of the vault; a hot one is superseded. -/
def departed (vaultScripts : List Script) (spend : Candidate) : Nat :=
  if spend.hot then 0 else inputSum spend.base.psbt - returned vaultScripts spend.base.psbt.unsignedTx

theorem okOr_ok {α : Type} {value : Option α} {error : String} {a : α} (ok : okOr value error = .ok a) :
    value = some a := by
  cases value with
  | none => cases ok
  | some b =>
    cases ok
    rfl

section Environment

variable {lib : Library} {params : CheckParams} {vaultScripts : List Script} {authorized : Finset Txid}
  {chain : CoverageReadings} {commitmentId : String} {laddered : Bool} {residentRung : Option Transaction}
  {atStart atPairing atSpend : PartialStore} {env : SweepEnv}

/-- What an environment that is read has been read from. -/
theorem sweepEnv_ok
    (ok : sweepEnv lib params vaultScripts authorized chain commitmentId laddered residentRung atStart atPairing atSpend =
      .ok env) :
    ∃ candidate escape prevouts vaultUnspent pairing paired,
      atStart.candidateCoverageContext commitmentId = some candidate ∧
      chain.prevouts (outpointsOf candidate.tx) = .ok prevouts ∧
      sweptTotal residentRung.isSome (outpointsOf candidate.tx) prevouts candidate.inputs = .ok env.totalIn ∧
      chain.vaultUnspent vaultScripts authorized = .ok vaultUnspent ∧
      atPairing.pairing commitmentId = some pairing ∧
      atSpend.candidateCoverageContext pairing.2 = some paired ∧
      withPairedSpend lib params escape vaultScripts chain candidate.tx paired
        (protectedBalance (residentRung.map lib.computeTxid) vaultUnspent candidate.inputs) =
          .ok (env.protectedValue, env.pairedDelivered) := by
  unfold sweepEnv at ok
  obtain ⟨candidate, found, ok⟩ := ok_of_bind ok
  obtain ⟨prevouts, shown, ok⟩ := ok_of_bind ok
  obtain ⟨totalIn, swept, ok⟩ := ok_of_bind ok
  obtain ⟨escape, _, ok⟩ := ok_of_bind ok
  obtain ⟨vaultUnspent, listed, ok⟩ := ok_of_bind ok
  obtain ⟨_, _, ok⟩ := ok_of_bind ok
  obtain ⟨pairing, paired, ok⟩ := ok_of_bind ok
  obtain ⟨spend, foundSpend, ok⟩ := ok_of_bind ok
  obtain ⟨⟨protectedValue, delivered⟩, counted, ok⟩ := ok_of_bind ok
  cases ok
  exact ⟨candidate, escape, prevouts, vaultUnspent, pairing, spend, okOr_ok found, mapError_ok shown, swept,
    mapError_ok listed, okOr_ok paired, okOr_ok foundSpend, counted⟩

end Environment

/-- The protected value counts every coin once and adds what the completed spend took out; the swept value is that of
the inputs; and a paired spend counts as delivered only where it is confirmed and apart from the sweep. -/
theorem sweep_env_exact (lib : Library) (params : CheckParams) (vaultScripts : List Script) (authorized : Finset Txid)
    (chain : CoverageReadings) (commitmentId : String) (laddered : Bool) (residentRung : Option Transaction)
    (atStart atPairing atSpend : PartialStore) (env : SweepEnv)
    (ok : sweepEnv lib params vaultScripts authorized chain commitmentId laddered residentRung atStart atPairing atSpend =
      .ok env)
    (escape spend : Candidate) (pairing : CandidateRole × String) (prevouts : List (Option Prevout))
    (vaultUnspent : List (OutPoint × Prevout)) (held : atStart.candidates.lookup commitmentId = some escape)
    (paired : atPairing.pairing commitmentId = some pairing) (heldSpend : atSpend.candidates.lookup pairing.2 = some spend)
    (shown : chain.prevouts (outpointsOf escape.base.psbt.unsignedTx) = .ok prevouts)
    (listed : chain.vaultUnspent vaultScripts authorized = .ok vaultUnspent)
    (mapped : escape.base.psbt.inputs.length = escape.base.psbt.unsignedTx.input.length)
    (mappedSpend : spend.base.psbt.inputs.length = spend.base.psbt.unsignedTx.input.length)
    (distinct : (outpointsOf escape.base.psbt.unsignedTx).Nodup) (distinctCoins : (vaultUnspent.map Prod.fst).Nodup)
    (spends : ∀ rung ∈ residentRung, outpointsOf rung = outpointsOf escape.base.psbt.unsignedTx)
    (acyclic : ∀ rung ∈ residentRung, ∀ coin ∈ outpointsOf rung, coin.txid ≠ lib.computeTxid rung)
    (sweptFits : sweptValue prevouts (declaredInputs escape.base.psbt) ≤ maxWord)
    (protectedFits : ∑ coin ∈ protectedCoins (residentRung.map lib.computeTxid) vaultUnspent
        (declaredInputs escape.base.psbt), coinValue vaultUnspent (declaredInputs escape.base.psbt) coin +
      departed vaultScripts spend ≤ maxWord)
    (spendFits : spend.hot = false → inputSum spend.base.psbt ≤ maxWord ∧
      returned vaultScripts spend.base.psbt.unsignedTx ≤ maxWord) :
    env.protectedValue =
        ∑ coin ∈ protectedCoins (residentRung.map lib.computeTxid) vaultUnspent (declaredInputs escape.base.psbt),
          coinValue vaultUnspent (declaredInputs escape.base.psbt) coin + departed vaultScripts spend ∧
      (spend.hot = false → returned vaultScripts spend.base.psbt.unsignedTx ≤ inputSum spend.base.psbt) ∧
      env.totalIn = sweptValue prevouts (declaredInputs escape.base.psbt) ∧
      (env.pairedDelivered ≠ 0 →
        chain.transactionConfirmed (lib.computeTxid spend.base.psbt.unsignedTx) = .ok true ∧
          ∀ coin ∈ outpointsOf spend.base.psbt.unsignedTx, coin ∉ outpointsOf escape.base.psbt.unsignedTx) := by
  obtain ⟨candidate, descriptor, _, _, _, context, found, fetched, swept, unspent, known, foundSpend, counted⟩ :=
    sweepEnv_ok ok
  rw [PartialStore.candidateCoverageContext, held, Option.bind_some] at found
  obtain rfl := (coverageContext_some found).1
  cases shown.symm.trans fetched
  cases listed.symm.trans unspent
  cases paired.symm.trans known
  rw [PartialStore.candidateCoverageContext, heldSpend, Option.bind_some] at foundSpend
  obtain rfl := (coverageContext_some foundSpend).1
  have coins := declaredInputs_fst found mapped
  have spendCoins := declaredInputs_fst foundSpend mappedSpend
  have apart : ∀ txid, residentRung.map lib.computeTxid = some txid →
      ∀ input ∈ declaredInputs escape.base.psbt, input.1.txid ≠ txid := by
    intro txid resident input member
    obtain ⟨rung, here, rfl⟩ := Option.map_eq_some_iff.mp resident
    apply acyclic rung here
    rw [spends rung here, ← coins]
    exact List.mem_map_of_mem member
  have balance := protectedBalance_eq distinctCoins (coins ▸ distinct) apart
  have change : vaultChange vaultScripts spend.base.psbt.unsignedTx =
      satAdd 0 (returned vaultScripts spend.base.psbt.unsignedTx) := foldl_satAdd_eq TxOut.value _
  have total := sweptTotal_ok swept
  rw [satAdd_zero sweptFits] at total
  rcases withPairedSpend_ok counted with ⟨hot, value, nothing⟩ | ⟨cold, confirmed, disjoint, covers, value⟩
  · have hot : spend.hot = true := hot
    have stays : departed vaultScripts spend = 0 := if_pos hot
    refine ⟨?_, ?_, total, fun delivered => absurd nothing delivered⟩
    · rw [value, balance, satAdd_zero (by omega), stays, Nat.add_zero]
    · intro cold
      rw [hot] at cold
      cases cold
  · have cold : spend.hot = false := cold
    obtain ⟨inputFits, returnFits⟩ := spendFits cold
    have leaves : departed vaultScripts spend =
        inputSum spend.base.psbt - returned vaultScripts spend.base.psbt.unsignedTx := by
      rw [departed, cold]
      rfl
    rw [satAdd_zero returnFits] at change
    simp only [change, declaredInputs_sum mappedSpend, satAdd_zero inputFits] at covers value
    refine ⟨?_, fun _ => covers, total, fun _ => ⟨confirmed, ?_⟩⟩
    · rw [value, balance, satAdd_zero (by omega), ← leaves, satAdd_eq_of_le protectedFits]
    · intro coin member
      rw [← spendCoins] at member
      obtain ⟨input, listed, rfl⟩ := List.mem_map.mp member
      exact disjoint input listed

namespace ProtectedSample

def library : Library := { Channel.Sample.library with computeTxid := fun tx => leBytes 32 (outputSum tx) }

def descriptor (spk : Script) : Descriptor := ⟨some [⟨false, fun _ => some spk⟩]⟩

def params : CheckParams := ⟨descriptor [1], [descriptor [3]], some (descriptor [3]), 10, 500⟩

def input (value : Nat) : PsbtInput := ⟨some ⟨value, [1]⟩, ∅, none, none, none, none, none⟩

def candidate (id paired : String) (role : CandidateRole) (psbt : Psbt) : Candidate :=
  { commitmentId := id
    role := role
    hot := false
    pairedCommitmentId := paired
    holderQuorumReached := true
    base := ⟨[], psbt, [], [], ∅⟩
    bumps := []
    rung := 0
    releaseFloor := 0
    expiry := 900
    fire := none
    released := false
    releasedThrough := none
    broadcast := false
    bytes := 0
    capacityBytes := 0 }

/-- A rung that sweeps two coins and leaves 500 in the vault. -/
def rung (paid : Nat) : Transaction :=
  ⟨2, 0, [⟨⟨[7], 0⟩, escapeRbfSequence⟩, ⟨⟨[8], 0⟩, escapeRbfSequence⟩], [⟨paid, [3]⟩, ⟨500, [1]⟩]⟩

def escape : Candidate := candidate "e" "s" .escape ⟨rung 9000, [input 6000, input 4000], [⟨∅⟩, ⟨∅⟩]⟩

/-- A completed spend of 3000 that returned 1000. -/
def spend : Candidate :=
  candidate "s" "e" .spend ⟨⟨2, 0, [⟨⟨[9], 0⟩, 0⟩], [⟨1900, [3]⟩, ⟨1000, [1]⟩]⟩, [input 3000], [⟨∅⟩, ⟨∅⟩]⟩

def store : PartialStore :=
  { initialStore Channel.Sample.config with
    candidates := ((∅ : Map String Candidate).insert "s" spend).insert "e" escape }

/-- The change of the spend and that of the resident rung: the chain hides what the rung spends. -/
def vaultUnspent : List (OutPoint × Prevout) :=
  [(⟨leBytes 32 2900, 1⟩, ⟨⟨1000, [1]⟩, true⟩), (⟨leBytes 32 9400, 1⟩, ⟨⟨500, [1]⟩, false⟩)]

def chain : CoverageReadings := ⟨fun _ => .ok [none, none], fun _ _ => .ok vaultUnspent, fun _ => .ok true⟩

end ProtectedSample

theorem sweep_env_exact_hidden :
    13000 = ∑ coin ∈ protectedCoins (some (leBytes 32 9400)) ProtectedSample.vaultUnspent
          (declaredInputs ProtectedSample.escape.base.psbt),
        coinValue ProtectedSample.vaultUnspent (declaredInputs ProtectedSample.escape.base.psbt) coin +
      departed [[1]] ProtectedSample.spend :=
  (sweep_env_exact ProtectedSample.library ProtectedSample.params [[1]] ∅ ProtectedSample.chain "e" true
    (some (ProtectedSample.rung 8900)) ProtectedSample.store ProtectedSample.store ProtectedSample.store
    ⟨10000, 13000, 1900, true⟩ rfl ProtectedSample.escape ProtectedSample.spend (.escape, "s") [none, none]
    ProtectedSample.vaultUnspent rfl rfl rfl rfl rfl rfl rfl (by decide) (by decide)
    (fun _ here => by cases here; rfl) (fun _ here => by cases here; decide) (by decide) (by decide +kernel)
    (fun _ => by decide)).1

end BtcPolicy.Node
