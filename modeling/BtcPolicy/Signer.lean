import BtcPolicy.Lib.Results
import BtcPolicy.Node.Ladder

/-! The user's signer: a group of transactions is validated whole against the sealed vault before the first signature
exists. What it authorizes the nodes accept. -/

namespace BtcPolicy.Signer
open FiniteMap Word Bitcoin Policy Results Node

/-! ### What a caller hands over -/

/-- An input map with the full previous transaction, which only the signer reads. -/
structure RawMap where
  map : PsbtInput
  nonWitnessUtxo : Option RawTransaction

structure RawPsbt where
  unsignedTx : RawTransaction
  inputs : List RawMap
  outputs : List PsbtOutput

structure SpendAuthorization where
  spend : RawPsbt
  escape : RawPsbt
  escapeBumps : List RawPsbt

inductive UserAuthorization where
  | spend (walletId : Bytes) (authorization : SpendAuthorization)
  | refresh (walletId : Bytes) (refresh : RawPsbt)

/-- The sealed state the signer reads; the three descriptor functions are the library's. -/
structure LiveVault where
  explicitScript : Except String Script
  scriptPubkey : Script
  maxWeightToSatisfy : Except String Nat
  checkParams : CheckParams
  escapeBumpMaxFeePct : Nat

/-- The library functions of the signer: `compute_txid` and `Transaction::weight`. -/
structure TxFunctions where
  computeTxid : RawTransaction → Txid
  weight : Transaction → Nat

structure Member where
  psbt : Psbt
  txClass : TxClass
  totalIn : Nat
  fee : Nat
  outflow : Nat
  outpoints : List OutPoint

structure Group where
  hint : Bytes
  members : List (String × Member)

/-! ### One member -/

/-- What the inputs of one member prove: their maps with the canonical prevouts, the outpoints and the total. -/
structure Prevouts where
  inputs : List PsbtInput
  outpoints : List OutPoint
  totalIn : Nat

/-- The prevout an input really spends, and its map with that prevout and the sealed script. `seen` are the outpoints
of the inputs before it. -/
def canonicalInput (functions : TxFunctions) (witnessScript : Script) (index : Nat) (seen : List OutPoint)
    (input : RawInput) (map : RawMap) : Except String (TxOut × PsbtInput) :=
  let outpoint := input.txIn.previousOutput
  if !input.scriptSig.isEmpty then .error s!"input {index} carries a script_sig"
  else if !input.witness.isEmpty then .error s!"input {index} carries a witness"
  else if seen.contains outpoint then
    let named := txidToString outpoint.txid
    let vout := outpoint.vout
    .error s!"input {index} spends {named}:{vout} a second time"
  else if map.map.sighashType.any (fun declared => decide (declared ≠ sighashAll)) then
    .error s!"input {index} declares a sighash beyond ALL"
  else
    match map.nonWitnessUtxo with
    | none => .error s!"input {index} has no full previous transaction"
    | some prevtx =>
      let computed := functions.computeTxid prevtx
      let vout := outpoint.vout
      if computed ≠ outpoint.txid then
        let named := txidToString computed
        .error s!"input {index} prevtx hashes to {named}"
      else
        match prevtx.output[vout]? with
        | none => .error s!"input {index} spends vout {vout} past its prevtx"
        | some canonical =>
          if map.map.witnessUtxo.any (fun declared => decide (declared ≠ canonical)) then
            .error s!"input {index} witness_utxo disagrees with prevtx"
          else if map.map.witnessScript.any (fun declared => decide (declared ≠ witnessScript)) then
            .error s!"input {index} names a foreign witness script"
          else .ok (canonical, { map.map with witnessUtxo := some canonical, witnessScript := some witnessScript })

def canonicalInputs (functions : TxFunctions) (witnessScript : Script) :
    Nat → List OutPoint → Nat → List (RawInput × RawMap) → Except String Prevouts
  | _, _, totalIn, [] => .ok ⟨[], [], totalIn⟩
  | index, seen, totalIn, (input, map) :: rest =>
    match canonicalInput functions witnessScript index seen input map with
    | .error e => .error e
    | .ok (canonical, normalized) =>
      match checkedAdd totalIn canonical.value with
      | none => .error "input value overflow"
      | some totalIn =>
        let outpoint := input.txIn.previousOutput
        match canonicalInputs functions witnessScript (index + 1) (outpoint :: seen) totalIn rest with
        | .error e => .error e
        | .ok later => .ok ⟨normalized :: later.inputs, outpoint :: later.outpoints, later.totalIn⟩

/-- `try_fold(0, checked_add)`. -/
def checkedSum (values : List Nat) : Option Nat := values.foldlM checkedAdd 0

def memberRefusal (violation : Violation) : String :=
  let check := violation.check
  let detail := violation.detail
  s!"{check}: {detail}"

/-- Prevout authority, the fee, and the sealed policy, over a clone of the caller's PSBT. -/
def member (functions : TxFunctions) (vault : LiveVault) (witnessScript : Script) (psbt : RawPsbt) :
    Except String Member :=
  let tx := psbt.unsignedTx
  let ins := tx.input.length
  let outs := tx.output.length
  if psbt.inputs.length ≠ ins ∨ psbt.outputs.length ≠ outs then
    .error s!"PSBT maps do not fit {ins} in and {outs} out"
  else
    match canonicalInputs functions witnessScript 0 [] 0 (tx.input.zip psbt.inputs) with
    | .error e => .error e
    | .ok prevouts =>
      match checkedSum (tx.output.map TxOut.value) with
      | none => .error "output value overflow"
      | some totalOut =>
        let totalIn := prevouts.totalIn
        if totalIn < totalOut then .error s!"outputs {totalOut} exceed {totalIn} held sat"
        else
          let kept := (tx.output.filter (fun o => decide (o.scriptPubkey = vault.scriptPubkey))).map TxOut.value
          let normalized : Psbt := ⟨tx.unsigned, prevouts.inputs, psbt.outputs⟩
          match evaluate normalized vault.checkParams with
          | .error violation => .error (memberRefusal violation)
          | .ok _ =>
            match classify normalized vault.checkParams with
            | .error violation => .error (memberRefusal violation)
            | .ok classified =>
              .ok ⟨normalized, classified.txClass, totalIn, totalIn - totalOut, totalOut - kept.sum, prevouts.outpoints⟩

/-! ### The group -/

/-- The two shapes a node can combine. -/
def pairLabels (spend escape : Member) : Except String (String × String) :=
  let a := spend.outpoints.toFinset
  let b := escape.outpoints.toFinset
  let filled := a.Nonempty ∧ b.Nonempty
  let refused : Except String (String × String) :=
    let primary := spend.txClass.name
    let mandatory := escape.txClass.name
    let held := a.card
    let swept := b.card
    .error (s!"a {primary} over {held} input(s) with a {mandatory} over {swept} is not a group a node can combine")
  match spend.txClass, escape.txClass with
  | .hot, .escape =>
    if filled ∧ a = b then .ok ("primary hot-destination transaction", "escape-destination transaction") else refused
  | .escape, .escape =>
    if filled ∧ Disjoint a b then .ok ("escape-destination transaction 1", "escape-destination transaction 2")
    else refused
  | _, _ => refused

/-- An escape without a ladder must be final through its sequences. -/
def unladdered (escape : Member) : Except String Unit :=
  match escape.psbt.unsignedTx.input.findIdx? (fun input => decide (input.sequence ≠ sequenceMax)) with
  | some i => .error s!"ladder-less escape input {i} is not final at T"
  | none => .ok ()

/-- The rules that bind the base too. -/
def rungShape (base : Member) (index : Nat) (rung : Member) : Except String Unit :=
  let tx := rung.psbt.unsignedTx
  if tx.version ≠ base.psbt.unsignedTx.version ∨ tx.lockTime ≠ 0 then
    .error s!"rung {index} breaks base version or lock 0"
  else if tx.input.any (fun input => decide (input.sequence ≠ escapeRbfSequence)) then
    .error s!"rung {index} has input not signalling BIP125"
  else .ok ()

/-- The rules of a replacement, and the sealed ceiling over its whole fee, in 128 bits. -/
def rungRises (sizing : Sizing) (ceiling : Nat) (base : Member) (index previousFee : Nat) (previousValues : List Nat)
    (rung : Member) : Except String Unit :=
  let tx := rung.psbt.unsignedTx
  let fee := rung.fee
  let delta := fee - previousFee
  if rung.outpoints ≠ base.outpoints ∨ scriptsOf tx ≠ scriptsOf base.psbt.unsignedTx then
    .error s!"rung {index} lacks base inputs or scripts"
  else if raisesValue (valuesOf tx) previousValues then
    .error s!"rung {index} raises an output above the one below"
  else if fee < previousFee ∨ delta = 0 then .error s!"rung {index} pays {fee}, not over {previousFee}"
  else
    match escapeReplacementMinFeeDelta sizing tx with
    | .error e => .error e
    | .ok minimum =>
      if delta < minimum then .error s!"rung {index} adds {delta}, under {minimum} to relay"
      else if rung.totalIn * ceiling < fee * 100 then
        let held := rung.totalIn
        .error s!"rung {index} pays {fee} over sealed {ceiling}% of {held}"
      else .ok ()

def checkRungs (sizing : Sizing) (ceiling : Nat) (base : Member) :
    Nat → Nat → List Nat → List Member → Except String Unit
  | _, _, _, [] => .ok ()
  | index, previousFee, previousValues, rung :: rest =>
    match rungShape base index rung with
    | .error e => .error e
    | .ok _ =>
      match rungRises sizing ceiling base index previousFee previousValues rung with
      | .error e => .error e
      | .ok _ => checkRungs sizing ceiling base (index + 1) rung.fee (valuesOf rung.psbt.unsignedTx) rest

def checkLadder (functions : TxFunctions) (vault : LiveVault) (base : Member) (rungs : List Member) :
    Except String Unit :=
  if rungs.isEmpty then unladdered base
  else
    match vault.maxWeightToSatisfy with
    | .error e => .error e
    | .ok weight =>
      match rungShape base 0 base with
      | .error e => .error e
      | .ok _ =>
        checkRungs ⟨functions.weight, weight⟩ vault.escapeBumpMaxFeePct base 1 base.fee (valuesOf base.psbt.unsignedTx)
          rungs

/-- The rungs are named for the leg they replace. -/
def labelRungs (leg : String) (rungs : List Member) : List (String × Member) :=
  rungs.zipIdx.map (fun rung =>
    let n := rung.2 + 1
    (s!"{leg} fee-bump {n}", rung.1))

/-- The members of a spend group, each with the label of its derived role. -/
def prepareSpend (functions : TxFunctions) (vault : LiveVault) (witnessScript hint : Bytes)
    (authorization : SpendAuthorization) : Except String Group := do
  let offered := authorization.escapeBumps.length
  if maxEscapeBumps < offered then throw s!"{offered} rungs beat the {maxEscapeBumps} a node takes"
  let spend ← member functions vault witnessScript authorization.spend
  let escape ← member functions vault witnessScript authorization.escape
  let rungs ← authorization.escapeBumps.mapM (member functions vault witnessScript)
  let pair ← pairLabels spend escape
  if spend.txClass = .escape then unladdered spend
  checkLadder functions vault escape rungs
  pure ⟨hint, (pair.1, spend) :: (pair.2, escape) :: labelRungs pair.2 rungs⟩

def prepareRefresh (functions : TxFunctions) (vault : LiveVault) (witnessScript hint : Bytes) (refresh : RawPsbt) :
    Except String Group := do
  let refresh ← member functions vault witnessScript refresh
  let name := refresh.txClass.name
  if refresh.txClass ≠ .refresh then throw s!"the refresh arm classifies as {name}"
  pure ⟨hint, [("vault-refresh transaction", refresh)]⟩

/-- Validate the whole group; nothing here signs. -/
def prepare (functions : TxFunctions) (vault : LiveVault) (request : UserAuthorization) : Except String Group := do
  let witnessScript ← vault.explicitScript
  match request with
  | .refresh walletId refresh => prepareRefresh functions vault witnessScript walletId refresh
  | .spend walletId authorization => prepareSpend functions vault witnessScript walletId authorization

/-! ### What a member that passes has proved -/

/-- The value of the output an input spends, read from its full previous transaction. -/
def authenticatedValue (input : RawInput × RawMap) : Nat :=
  (input.2.nonWitnessUtxo.bind (fun prevtx => prevtx.output[input.1.txIn.previousOutput.vout]?)).elim 0 TxOut.value

def RawPsbt.authenticatedTotal (psbt : RawPsbt) : Nat :=
  ((psbt.unsignedTx.input.zip psbt.inputs).map authenticatedValue).sum

/-- The prevouts that the inputs prove, their total no overflow. -/
structure Proved (start : Nat) (inputs : List (RawInput × RawMap)) (prevouts : Prevouts) : Prop where
  total : prevouts.totalIn = start + (inputs.map authenticatedValue).sum
  word : start ≤ maxWord → prevouts.totalIn ≤ maxWord
  outpoints : prevouts.outpoints = inputs.map (fun input => input.1.txIn.previousOutput)
  values : (prevouts.inputs.map (fun input => input.witnessUtxo.map TxOut.value)) =
    inputs.map (fun input => some (authenticatedValue input))

theorem canonicalInput_ok {functions : TxFunctions} {witnessScript : Script} {index : Nat} {seen : List OutPoint}
    {input : RawInput} {map : RawMap} {canonical : TxOut} {normalized : PsbtInput}
    (passed : canonicalInput functions witnessScript index seen input map = .ok (canonical, normalized)) :
    authenticatedValue (input, map) = canonical.value ∧ normalized.witnessUtxo = some canonical := by
  unfold canonicalInput at passed
  simp only at passed
  repeat' split at passed
  all_goals cases passed
  rename_i prevtx held _ _ _ found _
  exact ⟨by simp [authenticatedValue, held, found], rfl⟩

theorem canonicalInputs_ok {functions : TxFunctions} {witnessScript : Script} {index : Nat} {seen : List OutPoint}
    {start : Nat} {inputs : List (RawInput × RawMap)} {prevouts : Prevouts}
    (passed : canonicalInputs functions witnessScript index seen start inputs = .ok prevouts) :
    Proved start inputs prevouts := by
  induction inputs generalizing index seen start prevouts with
  | nil =>
    cases passed
    exact ⟨rfl, fun word => word, rfl, rfl⟩
  | cons head rest ih =>
    obtain ⟨input, map⟩ := head
    unfold canonicalInputs at passed
    split at passed
    · cases passed
    · rename_i canonical normalized first
      split at passed
      · cases passed
      · rename_i totalIn added
        simp only at passed
        split at passed
        · cases passed
        · rename_i later others
          cases passed
          obtain ⟨value, witness⟩ := canonicalInput_ok first
          obtain ⟨total, word, outpoints, values⟩ := ih others
          obtain ⟨rfl, fits⟩ := checkedAdd_some added
          refine ⟨?_, fun _ => word fits, ?_, ?_⟩
          · simp only [List.map_cons, List.sum_cons, value]
            omega
          · simp [outpoints]
          · simp [values, witness, value]

theorem foldlM_checkedAdd {values : List Nat} {start total : Nat} (word : start ≤ maxWord)
    (summed : values.foldlM checkedAdd start = some total) : total = start + values.sum ∧ total ≤ maxWord := by
  induction values generalizing start with
  | nil =>
    cases summed
    exact ⟨rfl, word⟩
  | cons value rest ih =>
    rw [List.foldlM_cons] at summed
    obtain ⟨next, added, later⟩ := Option.bind_eq_some_iff.mp summed
    obtain ⟨rfl, fits⟩ := checkedAdd_some added
    obtain ⟨total, bounded⟩ := ih fits later
    rw [List.sum_cons]
    exact ⟨by omega, bounded⟩

/-- The declared prevouts of a normalized member are all there, and their saturating sum is exact. -/
theorem foldlM_witnessUtxo {inputs : List PsbtInput} {values : List Nat} {start : Nat}
    (declared : inputs.map (fun input => input.witnessUtxo.map TxOut.value) = values.map some)
    (fits : start + values.sum ≤ maxWord) :
    inputs.foldlM (fun total input => input.witnessUtxo.map (fun utxo => satAdd total utxo.value)) start =
      some (start + values.sum) := by
  induction inputs generalizing values start with
  | nil =>
    cases values with
    | nil => rfl
    | cons value rest => cases declared
  | cons input others ih =>
    cases values with
    | nil => cases declared
    | cons value rest =>
      simp only [List.map_cons, List.cons.injEq] at declared
      obtain ⟨first, later⟩ := declared
      obtain ⟨utxo, held, rfl⟩ := Option.map_eq_some_iff.mp first
      rw [List.sum_cons] at fits ⊢
      have head : satAdd start utxo.value = start + utxo.value := satAdd_eq_of_le (by omega)
      rw [List.foldlM_cons, held, Option.map_some, head]
      show List.foldlM _ (start + utxo.value) others = _
      rw [ih later (by omega)]
      congr 1
      omega

theorem psbtFee_eq {psbt : Psbt} (values : List Nat)
    (declared : psbt.inputs.map (fun input => input.witnessUtxo.map TxOut.value) = values.map some)
    (fits : values.sum ≤ maxWord) (outputs : outputSum psbt.unsignedTx ≤ maxWord) :
    psbtFee psbt = some (values.sum - outputSum psbt.unsignedTx) := by
  have summed : psbt.unsignedTx.output.foldl (fun total output => satAdd total output.value) 0 =
      outputSum psbt.unsignedTx := by
    have exact := foldl_satAdd_exact (psbt.unsignedTx.output.map TxOut.value) 0 (by rw [Nat.zero_add]; exact outputs)
    rw [List.foldl_map, Nat.zero_add] at exact
    exact exact
  unfold psbtFee
  rw [foldlM_witnessUtxo declared (by rw [Nat.zero_add]; exact fits), summed, Nat.zero_add]
  rfl

/-- What the later checks read of a member is what its own transaction and the previous ones say. -/
structure Authentic (params : CheckParams) (psbt : RawPsbt) (m : Member) : Prop where
  transaction : m.psbt.unsignedTx = psbt.unsignedTx.unsigned
  outpoints : m.outpoints = outpointsOf m.psbt.unsignedTx
  declaredFee : psbtFee m.psbt = some m.fee
  totalIn : m.totalIn = psbt.authenticatedTotal
  fee : m.fee = m.totalIn - outputSum m.psbt.unsignedTx
  covered : outputSum m.psbt.unsignedTx ≤ m.totalIn
  evaluated : evaluate m.psbt params = .ok ()
  classified : ∃ hotOutflow, classify m.psbt params = .ok ⟨m.txClass, hotOutflow⟩

theorem member_ok {functions : TxFunctions} {vault : LiveVault} {witnessScript : Script} {psbt : RawPsbt} {m : Member}
    (passed : member functions vault witnessScript psbt = .ok m) : Authentic vault.checkParams psbt m := by
  unfold member at passed
  simp only at passed
  split at passed
  · cases passed
  · rename_i shape
    split at passed
    · cases passed
    · rename_i prevouts inputs
      split at passed
      · cases passed
      · rename_i totalOut outputs
        split at passed
        · cases passed
        · rename_i enough
          split at passed
          · cases passed
          · rename_i evaluated
            split at passed
            · cases passed
            · rename_i classified classes
              cases passed
              obtain ⟨total, word, outpoints, values⟩ := canonicalInputs_ok inputs
              obtain ⟨summed, bounded⟩ := foldlM_checkedAdd (Nat.zero_le _) outputs
              rw [Nat.zero_add] at total summed
              have held : prevouts.totalIn ≤ maxWord := word (Nat.zero_le _)
              have firsts : (psbt.unsignedTx.input.zip psbt.inputs).map Prod.fst = psbt.unsignedTx.input :=
                List.map_fst_zip (by omega)
              have spends : prevouts.outpoints = outpointsOf psbt.unsignedTx.unsigned := calc
                prevouts.outpoints = ((psbt.unsignedTx.input.zip psbt.inputs).map Prod.fst).map
                    (fun input => input.txIn.previousOutput) := by rw [outpoints, List.map_map]; rfl
                _ = outpointsOf psbt.unsignedTx.unsigned := by
                  rw [firsts, outpointsOf, RawTransaction.unsigned, List.map_map]; rfl
              have outSum : outputSum psbt.unsignedTx.unsigned = totalOut := summed.symm
              have declared : psbtFee ⟨psbt.unsignedTx.unsigned, prevouts.inputs, psbt.outputs⟩ =
                  some (prevouts.totalIn - totalOut) := by
                rw [psbtFee_eq ((psbt.unsignedTx.input.zip psbt.inputs).map authenticatedValue), ← total, outSum]
                · rw [values, List.map_map]
                  rfl
                · rw [← total]
                  exact held
                · rw [outSum]
                  exact bounded
              exact ⟨rfl, spends, declared, total, by rw [outSum], by rw [outSum]; exact not_lt.mp enough,
                evaluated, _, classes⟩

/-! ### The two ladder validators -/

/-- Final through its sequences. -/
def Final (tx : Transaction) : Prop := ∀ input ∈ tx.input, input.sequence = sequenceMax

theorem unladdered_ok_iff (escape : Member) : unladdered escape = .ok () ↔ Final escape.psbt.unsignedTx := by
  unfold unladdered Final
  split
  · rename_i found
    constructor
    · nofun
    · intro final
      obtain ⟨bound, differs, _⟩ := List.findIdx?_eq_some_iff_getElem.mp found
      exact absurd (final _ (List.getElem_mem bound)) (of_decide_eq_true differs)
  · rename_i found
    refine ⟨fun _ input member => ?_, fun _ => rfl⟩
    have same := List.findIdx?_eq_none_iff.mp found input member
    exact not_not.mp (of_decide_eq_false same)

theorem rungShape_ok_iff (base : Member) (index : Nat) (rung : Member) :
    rungShape base index rung = .ok () ↔ Shaped base.psbt.unsignedTx rung.psbt.unsignedTx := by
  unfold rungShape
  simp only
  split_ifs with version signals
  · refine ⟨nofun, fun shaped => ?_⟩
    obtain other | locked := version
    · exact absurd shaped.version other
    · exact absurd shaped.lockTime locked
  · refine ⟨nofun, fun shaped => ?_⟩
    obtain ⟨input, member, differs⟩ := List.any_eq_true.mp signals
    exact absurd (shaped.signals input member) (of_decide_eq_true differs)
  · refine ⟨fun _ => ?_, fun _ => rfl⟩
    push Not at version
    refine ⟨version.1, version.2, fun input member => ?_⟩
    by_contra differs
    exact signals (List.any_eq_true.mpr ⟨input, member, decide_eq_true differs⟩)

/-- One rung: the signer asks what the node asks, and the ceiling. Its two rules on the fee are one, because the
relay minimum is positive. -/
theorem rungRises_ok_iff (sizing : Sizing) (ceiling : Nat) {base rung : Member} (index previousFee : Nat)
    (previousValues : List Nat) (baseSpends : base.outpoints = outpointsOf base.psbt.unsignedTx)
    (spends : rung.outpoints = outpointsOf rung.psbt.unsignedTx) (declared : psbtFee rung.psbt = some rung.fee) :
    rungRises sizing ceiling base index previousFee previousValues rung = .ok () ↔
      rung.fee * 100 ≤ rung.totalIn * ceiling ∧
        checkBump sizing base.psbt.unsignedTx index previousFee previousValues rung.psbt = .ok rung.fee := by
  unfold rungRises checkBump escapeReplacementMinFeeDelta
  simp only [declared, spends, baseSpends]
  by_cases inputs : outpointsOf rung.psbt.unsignedTx = outpointsOf base.psbt.unsignedTx
  · by_cases scripts : scriptsOf rung.psbt.unsignedTx = scriptsOf base.psbt.unsignedTx
    · by_cases raised : raisesValue (valuesOf rung.psbt.unsignedTx) previousValues = true
      · simp [inputs, scripts, raised]
      · simp only [inputs, scripts, raised, ne_eq, not_true_eq_false, or_self, if_false, Bool.false_eq_true]
        cases bounded : maximumFinalizedVsizeFor sizing rung.psbt.unsignedTx with
        | error detail =>
          simp only [Except.map]
          split_ifs <;> simp
        | ok vsize =>
          have positive : 0 < satMul vsize escapeRbfIncrementalRelaySatVb := by
            have pos := (maximumFinalizedVsizeFor_range bounded).1
            simp only [satMul, escapeRbfIncrementalRelaySatVb, maxSupportedIncrementalRelaySatKvb, maxWord]
            omega
          simp only [Except.map]
          split_ifs <;> simp <;> omega
    · simp [inputs, scripts]
  · simp [inputs]

/-- The climb from any rung on: the signer's loop does the node's two at once. -/
theorem checkRungs_ok_iff (sizing : Sizing) (ceiling : Nat) {base : Member}
    (baseSpends : base.outpoints = outpointsOf base.psbt.unsignedTx) {rungs : List Member}
    (spends : ∀ rung ∈ rungs, rung.outpoints = outpointsOf rung.psbt.unsignedTx)
    (declared : ∀ rung ∈ rungs, psbtFee rung.psbt = some rung.fee) (index previousFee : Nat)
    (previousValues : List Nat) :
    checkRungs sizing ceiling base index previousFee previousValues rungs = .ok () ↔
      (∀ rung ∈ rungs, Shaped base.psbt.unsignedTx rung.psbt.unsignedTx ∧
          rung.fee * 100 ≤ rung.totalIn * ceiling) ∧
        checkBumps sizing base.psbt.unsignedTx index previousFee previousValues (rungs.map Member.psbt) = .ok () := by
  induction rungs generalizing index previousFee previousValues with
  | nil => simp [checkRungs, checkBumps]
  | cons rung rest ih =>
    have shape := rungShape_ok_iff base index rung
    have rises := rungRises_ok_iff sizing ceiling index previousFee previousValues baseSpends
      (spends rung List.mem_cons_self) (declared rung List.mem_cons_self)
    have later := ih (fun r member => spends r (List.mem_cons_of_mem _ member))
      (fun r member => declared r (List.mem_cons_of_mem _ member)) (index + 1) rung.fee (valuesOf rung.psbt.unsignedTx)
    rw [checkRungs, List.map_cons, checkBumps, List.forall_mem_cons, ← shape]
    cases shaped : rungShape base index rung with
    | error e => simp
    | ok _ =>
      simp only [true_and]
      cases bumped : checkBump sizing base.psbt.unsignedTx index previousFee previousValues rung.psbt with
      | error refused =>
        rw [bumped] at rises
        cases climbed : rungRises sizing ceiling base index previousFee previousValues rung with
        | error e => simp
        | ok _ => simp [climbed] at rises
      | ok fee =>
        have same : fee = rung.fee :=
          Option.some.inj ((checkBump_ok bumped).known.symm.trans (declared rung List.mem_cons_self))
        rw [bumped, same] at rises
        simp only [and_true] at rises
        rw [← rises, same]
        cases climbed : rungRises sizing ceiling base index previousFee previousValues rung with
        | error e => simp
        | ok _ => simp [later]

/-- What the node and the sealed ceiling ask of a ladder, and of an escape without one. -/
theorem checkLadder_ok_iff {functions : TxFunctions} {vault : LiveVault} {weight : Nat}
    (weighed : vault.maxWeightToSatisfy = .ok weight) {params : CheckParams} {offered : List RawPsbt} {base : Member}
    {rungs : List Member} (authentic : List.Forall₂ (Authentic params) offered (base :: rungs)) :
    checkLadder functions vault base rungs = .ok () ↔
      (rungs = [] → Final base.psbt.unsignedTx) ∧
        ensureEscapeLadder ⟨functions.weight, weight⟩ base.psbt (rungs.map Member.psbt) false = .ok () ∧
        ∀ rung ∈ rungs, rung.fee * 100 ≤ rung.totalIn * vault.escapeBumpMaxFeePct := by
  have spends : ∀ rung ∈ base :: rungs, rung.outpoints = outpointsOf rung.psbt.unsignedTx := fun rung member =>
    (exists_of_forall₂ authentic member).choose_spec.2.outpoints
  have declared : ∀ rung ∈ base :: rungs, psbtFee rung.psbt = some rung.fee := fun rung member =>
    (exists_of_forall₂ authentic member).choose_spec.2.declaredFee
  cases rungs with
  | nil => simp [checkLadder, unladdered_ok_iff, ensureEscapeLadder]
  | cons first rest =>
    have climbed := checkRungs_ok_iff ⟨functions.weight, weight⟩ vault.escapeBumpMaxFeePct
      (spends base List.mem_cons_self) (fun rung member => spends rung (List.mem_cons_of_mem _ member))
      (fun rung member => declared rung (List.mem_cons_of_mem _ member)) 1 base.fee (valuesOf base.psbt.unsignedTx)
    have shape := rungShape_ok_iff base 0 base
    rw [ensureEscapeLadder_ok_iff _ (by simp) (declared base List.mem_cons_self), List.forall_mem_cons, ← shape]
    unfold checkLadder
    simp only [List.isEmpty_cons, Bool.false_eq_true, if_false, weighed]
    cases rungShape base 0 base with
    | error e => simp
    | ok _ =>
      simp only [climbed, List.forall_mem_map]
      constructor
      · rintro ⟨each, climbs⟩
        exact ⟨nofun, ⟨⟨trivial, fun rung member => (each rung member).1⟩, climbs⟩,
          fun rung member => (each rung member).2⟩
      · rintro ⟨_, ⟨⟨_, shaped⟩, climbs⟩, ceiling⟩
        exact ⟨fun rung member => ⟨shaped rung member, ceiling rung member⟩, climbs⟩

/-! ### The group at a node -/

def HasClass (params : CheckParams) (psbt : Psbt) (txClass : TxClass) : Prop :=
  ∃ hotOutflow, classify psbt params = .ok ⟨txClass, hotOutflow⟩

/-- The two shapes a node can combine: a hot spend and its escape over the same coins, or two escapes over disjoint
ones. -/
def Combinable (params : CheckParams) (spend escape : Psbt) : Prop :=
  let a := (outpointsOf spend.unsignedTx).toFinset
  let b := (outpointsOf escape.unsignedTx).toFinset
  HasClass params spend .hot ∧ HasClass params escape .escape ∧ a = b ∨
    HasClass params spend .escape ∧ HasClass params escape .escape ∧ Disjoint a b

/-- What a node with the sealed parameters asks of a group, at ingress and of the sequences at fire time. -/
structure NodeAccepts (params : CheckParams) (sizing : Sizing) (spend escape : Psbt) (bumps : List Psbt) : Prop where
  evaluated : ∀ psbt ∈ spend :: escape :: bumps, evaluate psbt params = .ok ()
  combinable : Combinable params spend escape
  escapes : ∀ bump ∈ bumps, HasClass params bump .escape
  count : bumps.length ≤ maxEscapeBumps
  ladder : ensureEscapeLadder sizing escape bumps false = .ok ()
  sequences : ∀ psbt ∈ escape :: bumps, checkSweepSequence (!bumps.isEmpty) psbt.unsignedTx = .ok ()

/-- The whole fee of a rung against the sealed ceiling, over the input total that the previous transactions prove. -/
def UnderCeiling (pct : Nat) (bump : RawPsbt) : Prop :=
  outputSum bump.unsignedTx.unsigned ≤ bump.authenticatedTotal ∧
    (bump.authenticatedTotal - outputSum bump.unsignedTx.unsigned) * 100 ≤ bump.authenticatedTotal * pct

theorem Authentic.hasClass_iff {params : CheckParams} {psbt : RawPsbt} {m : Member} (authentic : Authentic params psbt m)
    (txClass : TxClass) : HasClass params m.psbt txClass ↔ m.txClass = txClass := by
  obtain ⟨outflow, classified⟩ := authentic.classified
  constructor
  · rintro ⟨other, same⟩
    rw [classified] at same
    cases same
    rfl
  · rintro rfl
    exact ⟨outflow, classified⟩

theorem Authentic.filled {params : CheckParams} {psbt : RawPsbt} {m : Member} (authentic : Authentic params psbt m) :
    m.outpoints.toFinset.Nonempty := by
  rw [authentic.outpoints, List.toFinset_nonempty_iff, outpointsOf, ne_eq, List.map_eq_nil_iff]
  exact input_ne_nil_of_evaluate authentic.evaluated

theorem Authentic.underCeiling_iff {params : CheckParams} {psbt : RawPsbt} {m : Member}
    (authentic : Authentic params psbt m) (pct : Nat) :
    UnderCeiling pct psbt ↔ m.fee * 100 ≤ m.totalIn * pct := by
  have covered := authentic.covered
  unfold UnderCeiling
  rw [authentic.fee, authentic.totalIn, authentic.transaction] at *
  exact and_iff_right covered

/-- The labels are given out to the two shapes and to nothing else. -/
theorem pairLabels_ok_iff {params : CheckParams} {rawSpend rawEscape : RawPsbt} {spend escape : Member}
    (spends : Authentic params rawSpend spend) (escapes : Authentic params rawEscape escape) :
    (∃ labels, pairLabels spend escape = .ok labels) ↔ Combinable params spend.psbt escape.psbt := by
  unfold Combinable
  simp only [spends.hasClass_iff, escapes.hasClass_iff, ← spends.outpoints, ← escapes.outpoints]
  unfold pairLabels
  simp only [spends.filled, escapes.filled, true_and, and_self]
  split
  · rename_i hot escape
    simp only [hot, escape, true_and, reduceCtorEq, false_and, or_false]
    split_ifs with same
    · exact ⟨fun _ => same, fun _ => ⟨_, rfl⟩⟩
    · exact ⟨nofun, fun equal => absurd equal same⟩
  · rename_i first second
    simp only [first, second, true_and, reduceCtorEq, false_and, false_or]
    split_ifs with apart
    · exact ⟨fun _ => apart, fun _ => ⟨_, rfl⟩⟩
    · exact ⟨nofun, fun disjoint => absurd disjoint apart⟩
  · rename_i neitherHot neitherEscape
    refine ⟨nofun, ?_⟩
    rintro (⟨hot, escape, _⟩ | ⟨first, second, _⟩)
    · exact absurd escape (neitherHot hot)
    · exact absurd second (neitherEscape first)

theorem map_snd_labelRungs (leg : String) (rungs : List Member) : (labelRungs leg rungs).map Prod.snd = rungs := by
  unfold labelRungs
  rw [List.map_map]
  exact List.zipIdx_map_fst 0 rungs

section Prepare

variable {functions : TxFunctions} {vault : LiveVault} {witnessScript : Bytes} (hint : Bytes)
  {authorization : SpendAuthorization} {group : Group}

/-- What a spend group has passed. -/
theorem prepareSpend_ok (passed : prepareSpend functions vault witnessScript hint authorization = .ok group) :
    authorization.escapeBumps.length ≤ maxEscapeBumps ∧ ∃ spend escape rungs labels,
      member functions vault witnessScript authorization.spend = .ok spend ∧
      member functions vault witnessScript authorization.escape = .ok escape ∧
      authorization.escapeBumps.mapM (member functions vault witnessScript) = .ok rungs ∧
      pairLabels spend escape = .ok labels ∧ (spend.txClass = .escape → unladdered spend = .ok ()) ∧
      checkLadder functions vault escape rungs = .ok () ∧ group.members.map Prod.snd = spend :: escape :: rungs := by
  unfold prepareSpend at passed
  simp only at passed
  split at passed
  · cases passed
  · rename_i few
    obtain ⟨spend, spent, passed⟩ := ok_of_bind passed
    obtain ⟨escape, escaped, passed⟩ := ok_of_bind passed
    obtain ⟨rungs, climbed, passed⟩ := ok_of_bind passed
    obtain ⟨labels, labelled, passed⟩ := ok_of_bind passed
    refine ⟨not_lt.mp few, spend, escape, rungs, labels, spent, escaped, climbed, labelled, ?_⟩
    split at passed
    · rename_i isEscape
      obtain ⟨_, final, passed⟩ := ok_of_bind passed
      obtain ⟨_, ladder, passed⟩ := ok_of_bind passed
      cases passed
      exact ⟨fun _ => final, ladder, by simp [map_snd_labelRungs]⟩
    · rename_i other
      obtain ⟨_, ladder, passed⟩ := ok_of_bind passed
      cases passed
      exact ⟨fun isEscape => absurd isEscape other, ladder, by simp [map_snd_labelRungs]⟩

/-- And all it has to pass. -/
theorem prepareSpend_of_checks {spend escape : Member} {rungs : List Member} {labels : String × String}
    (few : authorization.escapeBumps.length ≤ maxEscapeBumps)
    (spent : member functions vault witnessScript authorization.spend = .ok spend)
    (escaped : member functions vault witnessScript authorization.escape = .ok escape)
    (climbed : authorization.escapeBumps.mapM (member functions vault witnessScript) = .ok rungs)
    (labelled : pairLabels spend escape = .ok labels) (final : spend.txClass = .escape → unladdered spend = .ok ())
    (ladder : checkLadder functions vault escape rungs = .ok ()) :
    ∃ group, prepareSpend functions vault witnessScript hint authorization = .ok group := by
  unfold prepareSpend
  simp only [if_neg (not_lt.mpr few), spent, escaped, climbed, bind, Except.bind, labelled]
  by_cases isEscape : spend.txClass = .escape
  · refine ⟨⟨hint, (labels.1, spend) :: (labels.2, escape) :: labelRungs labels.2 rungs⟩, ?_⟩
    simp [isEscape, final isEscape, ladder, pure, Except.pure]
  · refine ⟨⟨hint, (labels.1, spend) :: (labels.2, escape) :: labelRungs labels.2 rungs⟩, ?_⟩
    simp [isEscape, ladder, pure, Except.pure]

/-- The rungs of the members are authentic one by one. -/
theorem authentic_rungs {rungs : List Member}
    (climbed : authorization.escapeBumps.mapM (member functions vault witnessScript) = .ok rungs) :
    List.Forall₂ (Authentic vault.checkParams) authorization.escapeBumps rungs :=
  (forall₂_of_mapM climbed).imp (fun _ _ passed => member_ok passed)

end Prepare

/-- A ladder the node takes: its rungs are of the base's class, and its sequences are those of the fire-time gate. -/
theorem ladder_admissible {params : CheckParams} {sizing : Sizing} {rawEscape : RawPsbt} {rawBumps : List RawPsbt}
    {escape : Member} {rungs : List Member} (authentic : Authentic params rawEscape escape)
    (each : List.Forall₂ (Authentic params) rawBumps rungs)
    (ladder : ensureEscapeLadder sizing escape.psbt (rungs.map Member.psbt) false = .ok ())
    (isEscape : HasClass params escape.psbt .escape) (final : rungs = [] → Final escape.psbt.unsignedTx) :
    (∀ bump ∈ rungs.map Member.psbt, HasClass params bump .escape) ∧
      ∀ psbt ∈ escape.psbt :: rungs.map Member.psbt,
        checkSweepSequence (!(rungs.map Member.psbt).isEmpty) psbt.unsignedTx = .ok () := by
  by_cases bare : rungs = []
  · subst bare
    refine ⟨by simp, ?_⟩
    intro psbt member
    obtain rfl := List.mem_singleton.mp member
    exact (checkSweepSequence_ok_iff _ _).mpr (final rfl)
  · rw [ensureEscapeLadder_ok_iff sizing (by simpa using bare) authentic.declaredFee] at ladder
    obtain ⟨shaped, climbs⟩ := ladder
    have laddered : (!(rungs.map Member.psbt).isEmpty) = true := by simpa using bare
    constructor
    · intro bump member
      obtain ⟨_, _, _, climbed⟩ := climbed_of_checkBumps climbs bump member
      have scripts := climbed.scripts
      obtain ⟨rung, listed, rfl⟩ := List.mem_map.mp member
      obtain ⟨raw, _, own⟩ := exists_of_forall₂ each listed
      obtain ⟨outflow, base⟩ := isEscape
      obtain ⟨_, classified⟩ := own.classified
      have same := classify_txClass_eq scripts classified base
      simp only at same
      rw [same] at classified
      exact ⟨_, classified⟩
    · intro psbt member
      rw [laddered]
      exact (checkSweepSequence_ok_iff _ _).mpr (shaped psbt member).signals

/-- What the signer authorizes a node with the same parameters accepts, every rung under the sealed ceiling. And a
group that its member check passes, of one of the two shapes, with a ladder the node takes under the ceiling and
final sequences where there is no ladder, is authorized. -/
theorem signer_agrees_with_node {functions : TxFunctions} {vault : LiveVault} {weight : Nat}
    (weighed : vault.maxWeightToSatisfy = .ok weight) (walletId : Bytes) (authorization : SpendAuthorization) :
    (∀ group, prepare functions vault (.spend walletId authorization) = .ok group →
      ∃ spend escape bumps, group.members.map (fun m => m.2.psbt) = spend :: escape :: bumps ∧
        (spend :: escape :: bumps).map Psbt.unsignedTx =
          (authorization.spend :: authorization.escape :: authorization.escapeBumps).map
            (fun psbt => psbt.unsignedTx.unsigned) ∧
        NodeAccepts vault.checkParams ⟨functions.weight, weight⟩ spend escape bumps ∧
        ∀ bump ∈ authorization.escapeBumps, UnderCeiling vault.escapeBumpMaxFeePct bump) ∧
      ∀ witnessScript spend escape rungs, vault.explicitScript = .ok witnessScript →
        member functions vault witnessScript authorization.spend = .ok spend →
        member functions vault witnessScript authorization.escape = .ok escape →
        authorization.escapeBumps.mapM (member functions vault witnessScript) = .ok rungs →
        Combinable vault.checkParams spend.psbt escape.psbt →
        authorization.escapeBumps.length ≤ maxEscapeBumps →
        ensureEscapeLadder ⟨functions.weight, weight⟩ escape.psbt (rungs.map Member.psbt) false = .ok () →
        (∀ bump ∈ authorization.escapeBumps, UnderCeiling vault.escapeBumpMaxFeePct bump) →
        (HasClass vault.checkParams spend.psbt .escape → Final spend.psbt.unsignedTx) →
        (authorization.escapeBumps = [] → Final escape.psbt.unsignedTx) →
        ∃ group, prepare functions vault (.spend walletId authorization) = .ok group := by
  constructor
  · intro group passed
    obtain ⟨witnessScript, _, passed⟩ := ok_of_bind passed
    obtain ⟨few, spend, escape, rungs, labels, spent, escaped, climbed, labelled, final, ladder, members⟩ :=
      prepareSpend_ok walletId passed
    have spends := member_ok spent
    have escapes := member_ok escaped
    have each := authentic_rungs climbed
    have combinable := (pairLabels_ok_iff spends escapes).mp ⟨labels, labelled⟩
    have isEscape : HasClass vault.checkParams escape.psbt .escape := by
      obtain ⟨_, known, _⟩ | ⟨_, known, _⟩ := combinable <;> exact known
    obtain ⟨bare, taken, ceiling⟩ := (checkLadder_ok_iff weighed (.cons escapes each)).mp ladder
    obtain ⟨classes, sequences⟩ := ladder_admissible escapes each taken isEscape bare
    refine ⟨spend.psbt, escape.psbt, rungs.map Member.psbt, ?_, ?_, ⟨?_, combinable, classes, ?_, taken, sequences⟩, ?_⟩
    · have psbts := congrArg (List.map Member.psbt) members
      rw [List.map_map] at psbts
      exact psbts
    · have same : List.Forall₂ (fun (m : Member) (psbt : RawPsbt) => m.psbt.unsignedTx = psbt.unsignedTx.unsigned)
          (spend :: escape :: rungs) (authorization.spend :: authorization.escape :: authorization.escapeBumps) :=
        (List.Forall₂.cons spends (.cons escapes each)).flip.imp (fun _ _ own => own.transaction)
      rw [← List.forall₂_map_right_iff (f := fun psbt : RawPsbt => psbt.unsignedTx.unsigned),
        ← List.forall₂_map_left_iff (f := fun m : Member => m.psbt.unsignedTx), List.forall₂_eq_eq_eq] at same
      rw [← same]
      simp
    · intro psbt member
      have every : List.Forall₂ (Authentic vault.checkParams) (authorization.spend :: authorization.escape ::
          authorization.escapeBumps) (spend :: escape :: rungs) := .cons spends (.cons escapes each)
      obtain ⟨m, listed, rfl⟩ : ∃ m ∈ spend :: escape :: rungs, m.psbt = psbt := by
        simpa [or_assoc, eq_comm] using member
      obtain ⟨_, _, own⟩ := exists_of_forall₂ every listed
      exact own.evaluated
    · rw [List.length_map, ← each.length_eq]
      exact few
    · intro bump member
      obtain ⟨rung, listed, own⟩ := exists_of_forall₂ each.flip member
      exact (own.underCeiling_iff _).mpr (ceiling rung listed)
  · intro witnessScript spend escape rungs sealed spent escaped climbed combinable few taken ceiling final bare
    have spends := member_ok spent
    have escapes := member_ok escaped
    have each := authentic_rungs climbed
    obtain ⟨labels, labelled⟩ := (pairLabels_ok_iff spends escapes).mpr combinable
    have ladder : checkLadder functions vault escape rungs = .ok () := by
      refine (checkLadder_ok_iff weighed (.cons escapes each)).mpr ⟨?_, taken, ?_⟩
      · intro none_climb
        subst none_climb
        exact bare (List.forall₂_nil_right_iff.mp each)
      · intro rung member
        obtain ⟨raw, listed, own⟩ := exists_of_forall₂ each member
        exact (own.underCeiling_iff _).mp (ceiling raw listed)
    have finals : spend.txClass = .escape → unladdered spend = .ok () := fun isEscape =>
      (unladdered_ok_iff spend).mpr (final ((spends.hasClass_iff _).mpr isEscape))
    obtain ⟨group, prepared⟩ := prepareSpend_of_checks walletId few spent escaped climbed labelled finals ladder
    exact ⟨group, by rw [prepare, sealed]; exact prepared⟩

/-! ### A hot spend with its laddered escape -/

namespace Sample

def vaultScript : Script := [0, 32, 1]
def hotScript : Script := [0, 32, 2]
def escapeScript : Script := [0, 32, 3]

def definite (script : Script) : Descriptor := ⟨some [⟨false, fun _ => some script⟩]⟩

def vault : LiveVault :=
  { explicitScript := .ok [82]
    scriptPubkey := vaultScript
    maxWeightToSatisfy := .ok 300
    checkParams := ⟨definite vaultScript, [definite hotScript, definite escapeScript], some (definite escapeScript),
      10, 60000⟩
    escapeBumpMaxFeePct := 5 }

def functions : TxFunctions := ⟨fun tx => [UInt8.ofNat tx.lockTime], fun tx => 400 + 128 * tx.output.length⟩

def deposit : RawTransaction := ⟨2, 9, [], [⟨100000, vaultScript⟩]⟩

/-- A PSBT over the deposit's only output. -/
def offer (sequence : Nat) (outputs : List TxOut) : RawPsbt :=
  { unsignedTx := ⟨2, 0, [⟨⟨⟨[9], 0⟩, sequence⟩, [], []⟩], outputs⟩
    inputs := [⟨⟨none, ∅, none, none, none, none, none⟩, some deposit⟩]
    outputs := outputs.map (fun _ => ⟨∅⟩) }

def authorization : SpendAuthorization :=
  { spend := offer sequenceMax [⟨50000, hotScript⟩, ⟨49000, vaultScript⟩]
    escape := offer escapeRbfSequence [⟨98000, escapeScript⟩]
    escapeBumps := [offer escapeRbfSequence [⟨96000, escapeScript⟩]] }

theorem signer_agrees_with_node_sample :
    ∃ group, prepare functions vault (.spend [1] authorization) = .ok group ∧
      ∃ spend escape bumps, group.members.map (fun m => m.2.psbt) = spend :: escape :: bumps ∧
        NodeAccepts vault.checkParams ⟨functions.weight, 300⟩ spend escape bumps := by
  have prepared : (prepare functions vault (.spend [1] authorization)).isOk = true := by decide
  cases passed : prepare functions vault (.spend [1] authorization) with
  | error e =>
    rw [passed] at prepared
    cases prepared
  | ok group =>
    obtain ⟨spend, escape, bumps, members, _, accepts, _⟩ := (signer_agrees_with_node rfl [1] authorization).1 group passed
    exact ⟨group, rfl, spend, escape, bumps, members, accepts⟩

end Sample

end BtcPolicy.Signer
