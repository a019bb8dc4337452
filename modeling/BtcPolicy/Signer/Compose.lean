import BtcPolicy.Node.Protected
import BtcPolicy.Signer.Inventory

/-! The composer of a spend: a hot primary that pays the exact amount, with change, and a base escape that sweeps the
same coins. Both fees are priced before the amounts are known, from the sizes of shapes without amounts. -/

namespace BtcPolicy.Compose
open FiniteMap Word Bitcoin Policy Results Programs Manifest Node Signer Inventory

/-- The sealed state with what the composer alone reads. -/
structure ComposerVault extends SealedVault where
  walletId : Bytes
  escapeFeerateFloor : Nat
  escapeCoveragePct : Nat

/-- The library's own. An address is known by the script it pays on each network that it is good for; the last two
are the texts of the miniscript errors. -/
structure ComposerFunctions extends TxFunctions where
  parseAddress : String → Except String (Network → Option Script)
  minimalNonDust : Script → Nat
  expansionError : Descriptor → String
  derivationError : Descriptor → String

def ComposerVault.descriptor (vault : ComposerVault) : DefiniteDescriptor :=
  ⟨vault.scriptPubkey, vault.explicitScript, vault.maxWeightToSatisfy⟩

section Compose

variable (functions : ComposerFunctions) (vault : ComposerVault)

/-! ### The scripts -/

/-- Index 0 of the first branch. An expansion without a branch is a panic. -/
def baseEscapeScript (escape : Descriptor) : Except String Script :=
  match escape.intoSingleDescriptors with
  | none => .error ("the sealed escape descriptor does not expand: " ++ functions.expansionError escape)
  | some [] => .error "successful descriptor expansion returns at least one branch"
  | some (base :: _) =>
    match base.derivedScript 0 with
    | none => .error ("the sealed escape descriptor has no index 0: " ++ functions.derivationError escape)
    | some script => .ok script

/-- What is settled before the first read of Core. -/
def composeScripts (destinationText : String) : Except String Scripts := do
  let network := vault.network.name
  let parsed ← (functions.parseAddress destinationText).mapError ("the destination address does not parse: " ++ ·)
  let destination ← okOr (parsed vault.network) s!"that is not an address on the sealed {network} network"
  let sealedEscape ← okOr vault.checkParams.escape "the sealed vault configures no escape wallet"
  let escape ← baseEscapeScript functions sealedEscape
  pure ⟨destination, vault.scriptPubkey, escape⟩

/-! ### The amounts -/

/-- Each output against the dust minimum of its own script. -/
def checkDust (outputs : List (String × Script × Nat)) : Except String Unit :=
  match outputs.find? (fun output => decide (output.2.2 < functions.minimalNonDust output.2.1)) with
  | some output =>
    let name := output.1
    .error s!"the {name} output is under its script's dust minimum"
  | none => .ok ()

def checkCoverage (total sweep : Nat) : Except String Unit :=
  if sweep * 100 < total * vault.escapeCoveragePct then
    .error "the base escape output is under the sealed coverage requirement"
  else .ok ()

/-- The change and the sweep are what the fees leave: each shape is priced at its own size, and the escape at the
sealed floor where the rate is under it. -/
def price (prepared : PreparedView) (amount : Nat) : Except String Amounts := do
  let total ← okOr (checkedSum (prepared.utxos.map (fun utxo => utxo.txout.value)))
    "the prepared input values overflow a u64 of satoshi"
  let rate := prepared.satVb
  let primaryFee ← okOr (checkedMul rate prepared.bracket.primaryVsize)
    "the primary fee overflows at this rate and size"
  let escapeRate := max rate vault.escapeFeerateFloor
  let escapeFee ← okOr (checkedMul escapeRate prepared.bracket.escapeVsize)
    "the base escape fee overflows at this rate and size"
  let change ← okOr ((checkedSub total amount).bind (checkedSub · primaryFee))
    "the vault does not hold the requested amount and its primary fee"
  let sweep ← okOr (checkedSub total escapeFee) "the vault does not hold the base escape's own fee"
  let scripts := prepared.scripts
  checkDust functions [("destination", scripts.destination, amount), ("vault change", scripts.change, change),
    ("base escape", scripts.escape, sweep)]
  checkCoverage vault total sweep
  pure ⟨amount, change, sweep⟩

/-! ### The final bytes -/

def checkFinalized (prepared : PreparedView) (psbt : RawPsbt) (priced : Nat) : Except String Unit := do
  let reached ← finalizedVsize functions.toTxFunctions prepared.weight psbt.unsignedTx
  if reached ≠ priced then
    throw s!"a composed shape finalizes at {reached} vB, not the {priced} vB it was priced at"

/-- The full previous transaction and the sighash, which the map of an input gets last. -/
def attachParent (parents : Map Txid RawTransaction) (input : RawInput × RawMap) : Except String RawMap := do
  let parent ← okOr (parents.lookup input.1.txIn.previousOutput.txid)
    "a prepared input has no verified full previous transaction"
  pure ⟨{ input.2.map with sighashType := some sighashAll }, some parent⟩

def attachParents (parents : Map Txid RawTransaction) (psbt : RawPsbt) : Except String RawPsbt := do
  let inputs ← (psbt.unsignedTx.input.zip psbt.inputs).mapM (attachParent parents)
  pure { psbt with inputs := inputs }

/-- What the policy reads of a PSBT. -/
def policyView (psbt : RawPsbt) : Psbt := ⟨psbt.unsignedTx.unsigned, psbt.inputs.map RawMap.map, psbt.outputs⟩

def finalRefusal (violation : Violation) : String :=
  let check := violation.check
  s!"final policy refusal: {check}"

def checkFinal (params : CheckParams) (psbt : RawPsbt) (expected : TxClass) : Except String Unit := do
  (evaluate (policyView psbt) params).mapError finalRefusal
  let classified ← (classify (policyView psbt) params).mapError finalRefusal
  let name := classified.txClass.name
  let wanted := expected.name
  if classified.txClass ≠ expected then throw s!"a composed transaction classifies as {name}, not {wanted}"

/-- Everything after the last read of Core. -/
def composePair (prepared : PreparedView) (amount : Nat) : Except String SpendAuthorization := do
  let amounts ← price functions vault prepared amount
  let (primary, escape) ← buildPair prepared.bracket.shape amounts
  checkFinalized functions prepared primary prepared.bracket.primaryVsize
  checkFinalized functions prepared escape prepared.bracket.escapeVsize
  let primary ← attachParents prepared.bracket.parents primary
  let escape ← attachParents prepared.bracket.parents escape
  checkFinal vault.checkParams primary .hot
  checkFinal vault.checkParams escape .escape
  pure ⟨primary, escape, []⟩

def composeSpend {σ : Type} (core : CoreView σ) (destinationText : String) (amount : Nat) :
    Prog σ String UserAuthorization := do
  let scripts ← Prog.lift (composeScripts functions vault destinationText)
  let prepared ← prepareView functions.toTxFunctions core vault.network vault.descriptor scripts
  let authorization ← Prog.lift (composePair functions vault prepared amount)
  pure (.spend vault.walletId authorization)

end Compose

/-! ### What is built -/

/-- The map of an input as it is built, and as it is handed out. -/
def builtMap (witnessScript : Script) (utxo : Utxo) : RawMap :=
  ⟨⟨some utxo.txout, ∅, some witnessScript, none, none, none, none⟩, none⟩

/-- A shape over the coins. -/
def built (utxos : List Utxo) (witnessScript : Script) (outputs : List TxOut) : RawPsbt :=
  ⟨⟨2, 0, utxos.map spendInput, outputs⟩, utxos.map (builtMap witnessScript), outputs.map (fun _ => ⟨∅⟩)⟩

theorem buildSpendN_eq (utxos : List Utxo) (witnessScript : Script) (outputs : List (Script × Nat)) :
    buildSpendN utxos witnessScript outputs =
      .ok (built utxos witnessScript (outputs.map (fun output => ⟨output.2, output.1⟩))) := by
  have plain : (utxos.map spendInput).find? (fun input => !input.scriptSig.isEmpty || !input.witness.isEmpty) = none := by
    rw [List.find?_eq_none]
    intro input member
    obtain ⟨utxo, _, rfl⟩ := List.mem_map.mp member
    simp [spendInput]
  unfold buildSpendN fromUnsignedTx
  simp only [plain, bind, Except.bind, pure, Except.pure]
  congr 1
  simp only [built, List.map_map, List.zipWith_map_right, List.zipWith_self]
  rfl

theorem buildPair_ok {shape : ShapeInputs} {amounts : Amounts} {primary escape : RawPsbt}
    (passed : buildPair shape amounts = .ok (primary, escape)) :
    primary = built shape.utxos shape.witnessScript
        [⟨amounts.paid, shape.scripts.destination⟩, ⟨amounts.kept, shape.scripts.change⟩] ∧
      escape = built shape.utxos shape.witnessScript [⟨amounts.swept, shape.scripts.escape⟩] := by
  unfold buildPair at passed
  obtain ⟨first, builtFirst, passed⟩ := ok_of_bind passed
  obtain ⟨second, builtSecond, passed⟩ := ok_of_bind passed
  obtain ⟨_, _, passed⟩ := ok_of_bind passed
  obtain ⟨_, _, passed⟩ := ok_of_bind passed
  rw [buildSpendN_eq] at builtFirst builtSecond
  cases builtFirst
  cases builtSecond
  cases passed
  exact ⟨rfl, rfl⟩

/-- The library's weight reads the scripts of the outputs and not their values. -/
theorem weight_bare_scripts {a b : Transaction} (inputs : a.input = b.input) (scripts : scriptsOf a = scriptsOf b) :
    weight (bare a) = weight (bare b) := by
  have sizes : a.output.map outputSize = b.output.map outputSize := by
    have measured := congrArg (List.map (fun script : Script => 8 + (varIntSize script.length + script.length))) scripts
    simp only [scriptsOf, List.map_map] at measured
    exact measured
  have counts : a.output.length = b.output.length := by simpa [scriptsOf] using congrArg List.length scripts
  obtain ⟨_, _, _, _⟩ := a
  obtain ⟨_, _, _, _⟩ := b
  simp only at inputs sizes counts
  subst inputs
  simp only [weight, baseSize, totalSize, usesSegwitSerialization, bare, sizes, counts]
  rfl

/-- A shape finalizes at the size it was priced at: the bound does not turn on the amounts. -/
theorem finalizedVsize_built {functions : TxFunctions} (weighs : functions.weight = fun tx => weight (bare tx))
    (maxWeight : Nat) {shape : ShapeInputs} {first second : Amounts} {primary primary' escape escape' : RawPsbt}
    (before : buildPair shape first = .ok (primary, escape)) (after : buildPair shape second = .ok (primary', escape')) :
    finalizedVsize functions maxWeight primary.unsignedTx = finalizedVsize functions maxWeight primary'.unsignedTx ∧
      finalizedVsize functions maxWeight escape.unsignedTx = finalizedVsize functions maxWeight escape'.unsignedTx := by
  obtain ⟨rfl, rfl⟩ := buildPair_ok before
  obtain ⟨rfl, rfl⟩ := buildPair_ok after
  have same : ∀ outputs outputs' : List TxOut, outputs.map TxOut.scriptPubkey = outputs'.map TxOut.scriptPubkey →
      finalizedVsize functions maxWeight (built shape.utxos shape.witnessScript outputs).unsignedTx =
        finalizedVsize functions maxWeight (built shape.utxos shape.witnessScript outputs').unsignedTx := by
    intro outputs outputs' scripts
    have weights : weight (bare (built shape.utxos shape.witnessScript outputs).unsignedTx.unsigned) =
        weight (bare (built shape.utxos shape.witnessScript outputs').unsignedTx.unsigned) :=
      weight_bare_scripts rfl scripts
    simp only [finalizedVsize, maximumFinalizedVsizeFor, weighs, weights]
    rfl
  exact ⟨same _ _ rfl, same _ _ rfl⟩

/-! ### What is priced -/

/-- What the priced amounts leave over is the fees, to the satoshi. -/
structure Priced (vault : ComposerVault) (prepared : PreparedView) (amounts : Amounts) : Prop where
  word : (prepared.utxos.map (fun utxo => utxo.txout.value)).sum ≤ maxWord
  primary : (prepared.utxos.map (fun utxo => utxo.txout.value)).sum =
    amounts.paid + amounts.kept + prepared.satVb * prepared.bracket.primaryVsize
  escape : (prepared.utxos.map (fun utxo => utxo.txout.value)).sum =
    amounts.swept + max prepared.satVb vault.escapeFeerateFloor * prepared.bracket.escapeVsize
  coverage : (prepared.utxos.map (fun utxo => utxo.txout.value)).sum * vault.escapeCoveragePct ≤ amounts.swept * 100

theorem price_ok {functions : ComposerFunctions} {vault : ComposerVault} {prepared : PreparedView} {amount : Nat}
    {amounts : Amounts} (passed : price functions vault prepared amount = .ok amounts) :
    amounts.paid = amount ∧ Priced vault prepared amounts := by
  unfold price at passed
  obtain ⟨total, summed, passed⟩ := ok_of_bind passed
  obtain ⟨primaryFee, primaryPriced, passed⟩ := ok_of_bind passed
  obtain ⟨escapeFee, escapePriced, passed⟩ := ok_of_bind passed
  obtain ⟨change, kept, passed⟩ := ok_of_bind passed
  obtain ⟨sweep, swept, passed⟩ := ok_of_bind passed
  obtain ⟨_, _, passed⟩ := ok_of_bind passed
  obtain ⟨_, covered, passed⟩ := ok_of_bind passed
  cases passed
  obtain ⟨exact, word⟩ := foldlM_checkedAdd (Nat.zero_le _) (okOr_ok summed)
  rw [Nat.zero_add] at exact
  obtain ⟨primaryExact, _⟩ := checkedMul_some (okOr_ok primaryPriced)
  obtain ⟨escapeExact, _⟩ := checkedMul_some (okOr_ok escapePriced)
  obtain ⟨rest, first, second⟩ := Option.bind_eq_some_iff.mp (okOr_ok kept)
  have spent := checkedSub_some first
  have changed := checkedSub_some second
  have sweeps := checkedSub_some (okOr_ok swept)
  have coverage : total * vault.escapeCoveragePct ≤ sweep * 100 := by
    unfold checkCoverage at covered
    split_ifs at covered with short
    exact Nat.le_of_not_lt short
  refine ⟨rfl, ⟨exact ▸ word, ?_, ?_, exact ▸ coverage⟩⟩
  · simp only
    omega
  · simp only
    omega

theorem checkFinalized_ok {functions : ComposerFunctions} {prepared : PreparedView} {psbt : RawPsbt} {priced : Nat}
    {passed : Unit} (checked : checkFinalized functions prepared psbt priced = .ok passed) :
    maximumFinalizedVsizeFor ⟨functions.weight, prepared.weight⟩ psbt.unsignedTx.unsigned = .ok priced := by
  unfold checkFinalized at checked
  obtain ⟨reached, sized, checked⟩ := ok_of_bind checked
  split_ifs at checked with differs
  rw [finalizedVsize_ok sized, not_not.mp differs]

/-- The map of an input as it is handed out. -/
def attachedMap (witnessScript : Script) (utxo : Utxo) (parent : RawTransaction) : RawMap :=
  ⟨⟨some utxo.txout, ∅, some witnessScript, none, some sighashAll, none, none⟩, some parent⟩

/-- Each coin's input with its map, the full parent that proves the coin included. -/
def Attached (functions : TxFunctions) (witnessScript : Script) (utxo : Utxo) (input : RawInput × RawMap) : Prop :=
  ∃ parent, input = (spendInput utxo, attachedMap witnessScript utxo parent) ∧
    functions.computeTxid parent = utxo.outpoint.txid ∧ parent.output[utxo.outpoint.vout]? = some utxo.txout

/-- A shape over the coins whose every input proves its coin. -/
structure Handed (functions : TxFunctions) (witnessScript : Script) (utxos : List Utxo) (outputs : List TxOut)
    (psbt : RawPsbt) : Prop where
  transaction : psbt.unsignedTx = ⟨2, 0, utxos.map spendInput, outputs⟩
  outputMaps : psbt.outputs.length = outputs.length
  inputMaps : psbt.inputs.length = utxos.length
  attached : List.Forall₂ (Attached functions witnessScript) utxos (psbt.unsignedTx.input.zip psbt.inputs)

theorem attachParents_ok {functions : TxFunctions} {parents : Map Txid RawTransaction} {utxos : List Utxo}
    {witnessScript : Script} {outputs : List TxOut} {psbt : RawPsbt}
    (parented : ∀ utxo ∈ utxos, Parented functions parents utxo)
    (passed : attachParents parents (built utxos witnessScript outputs) = .ok psbt) :
    Handed functions witnessScript utxos outputs psbt := by
  unfold attachParents at passed
  obtain ⟨inputs, attached, passed⟩ := ok_of_bind passed
  cases passed
  have pairs : (utxos.map spendInput).zip (utxos.map (builtMap witnessScript)) =
      utxos.map (fun utxo => (spendInput utxo, builtMap witnessScript utxo)) := List.zip_map'
  have each := forall₂_of_mapM attached
  simp only [built, pairs, List.forall₂_map_left_iff] at each
  have proved : List.Forall₂ (fun utxo map => Attached functions witnessScript utxo (spendInput utxo, map)) utxos inputs := by
    refine forall₂_imp_of_mem each ?_
    intro utxo member map _ given
    obtain ⟨parent, held, hashes, pays⟩ := parented utxo member
    obtain ⟨found, looked, given⟩ := ok_of_bind given
    cases given
    have same : found = parent := Option.some.inj ((okOr_ok looked).symm.trans held)
    exact ⟨parent, by rw [same]; rfl, hashes, pays⟩
  refine ⟨rfl, List.length_map _, each.length_eq.symm, ?_⟩
  simp only [built]
  clear pairs each attached parented passed
  induction proved with
  | nil => exact .nil
  | cons first _ ih => exact .cons first ih

/-! ### What the signer finds -/

theorem checkFinal_ok {params : CheckParams} {psbt : RawPsbt} {expected : TxClass} {passed : Unit}
    (checked : checkFinal params psbt expected = .ok passed) :
    evaluate (policyView psbt) params = .ok () ∧
      ∃ hotOutflow, classify (policyView psbt) params = .ok ⟨expected, hotOutflow⟩ := by
  unfold checkFinal at checked
  obtain ⟨_, evaluated, checked⟩ := ok_of_bind checked
  obtain ⟨classified, classes, checked⟩ := ok_of_bind checked
  simp only at checked
  split at checked
  · cases checked
  · next same =>
    rw [← not_not.mp same]
    exact ⟨mapError_ok evaluated, classified.hotOutflow, mapError_ok classes⟩

theorem checkedSum_of_le {values : List Nat} {start : Nat} (fits : start + values.sum ≤ maxWord) :
    values.foldlM checkedAdd start = some (start + values.sum) := by
  induction values generalizing start with
  | nil => rfl
  | cons value rest ih =>
    rw [List.sum_cons, ← Nat.add_assoc] at fits
    have head : checkedAdd start value = some (start + value) := if_pos (by omega)
    rw [List.foldlM_cons, head, List.sum_cons, ← Nat.add_assoc]
    exact ih fits

theorem canonicalInput_attached {functions : TxFunctions} {witnessScript : Script} {index : Nat} {seen : List OutPoint}
    {utxo : Utxo} {input : RawInput × RawMap} (attached : Attached functions witnessScript utxo input)
    (fresh : utxo.outpoint ∉ seen) :
    canonicalInput functions witnessScript index seen input.1 input.2 = .ok (utxo.txout, input.2.map) := by
  obtain ⟨parent, rfl, hashes, pays⟩ := attached
  simp [canonicalInput, spendInput, attachedMap, fresh, hashes, pays]

/-- The inputs of the coins prove their outpoints and their total. -/
theorem canonicalInputs_attached {functions : TxFunctions} {witnessScript : Script} {utxos : List Utxo}
    {inputs : List (RawInput × RawMap)} (each : List.Forall₂ (Attached functions witnessScript) utxos inputs)
    {index start : Nat} {seen : List OutPoint} (fresh : ∀ utxo ∈ utxos, utxo.outpoint ∉ seen)
    (distinct : (utxos.map Utxo.outpoint).Nodup)
    (fits : start + (utxos.map (fun utxo => utxo.txout.value)).sum ≤ maxWord) :
    canonicalInputs functions witnessScript index seen start inputs =
      .ok ⟨inputs.map (fun input => input.2.map), utxos.map Utxo.outpoint,
        start + (utxos.map (fun utxo => utxo.txout.value)).sum⟩ := by
  induction each generalizing index start seen with
  | nil => rfl
  | @cons utxo input utxos inputs first rest ih =>
    rw [List.map_cons, List.nodup_cons] at distinct
    rw [List.map_cons, List.sum_cons, ← Nat.add_assoc] at fits
    have canonical : canonicalInput functions witnessScript index seen input.1 input.2 = .ok (utxo.txout, input.2.map) :=
      canonicalInput_attached first (fresh utxo List.mem_cons_self)
    have spends : input.1.txIn.previousOutput = utxo.outpoint := by
      obtain ⟨_, rfl, _⟩ := first
      rfl
    have head : checkedAdd start utxo.txout.value = some (start + utxo.txout.value) := if_pos (by omega)
    have later : ∀ other ∈ utxos, other.outpoint ∉ utxo.outpoint :: seen := by
      intro other member
      rw [List.mem_cons, not_or]
      refine ⟨?_, fresh other (List.mem_cons_of_mem _ member)⟩
      intro same
      exact distinct.1 (same ▸ List.mem_map_of_mem member)
    rw [canonicalInputs, canonical]
    simp only [head, spends, ih later distinct.2 fits, List.map_cons, List.sum_cons, Nat.add_assoc]

/-- The signer's own check passes a shape whose outputs its coins cover and which the sealed policy has passed. -/
theorem member_handed {functions : TxFunctions} {vault : LiveVault} {witnessScript : Script} {utxos : List Utxo}
    {outputs : List TxOut} {psbt : RawPsbt} {expected : TxClass}
    (handed : Handed functions witnessScript utxos outputs psbt) (distinct : (utxos.map Utxo.outpoint).Nodup)
    (fits : (utxos.map (fun utxo => utxo.txout.value)).sum ≤ maxWord)
    (covered : (outputs.map TxOut.value).sum ≤ (utxos.map (fun utxo => utxo.txout.value)).sum)
    (final : evaluate (policyView psbt) vault.checkParams = .ok () ∧
      ∃ hotOutflow, classify (policyView psbt) vault.checkParams = .ok ⟨expected, hotOutflow⟩) :
    ∃ m, member functions vault witnessScript psbt = .ok m ∧ m.txClass = expected := by
  obtain ⟨evaluated, hotOutflow, classified⟩ := final
  have inputs : psbt.unsignedTx.input.length = utxos.length := by
    rw [handed.transaction]
    exact List.length_map _
  have shape : ¬(psbt.inputs.length ≠ psbt.unsignedTx.input.length ∨
      psbt.outputs.length ≠ psbt.unsignedTx.output.length) := by
    rw [inputs, handed.inputMaps, handed.outputMaps, handed.transaction]
    simp
  have proved : canonicalInputs functions witnessScript 0 [] 0 (psbt.unsignedTx.input.zip psbt.inputs) = .ok _ :=
    canonicalInputs_attached handed.attached (by simp) distinct (by rwa [Nat.zero_add])
  have maps : (psbt.unsignedTx.input.zip psbt.inputs).map (fun input => input.2.map) = psbt.inputs.map RawMap.map := by
    have snds : (psbt.unsignedTx.input.zip psbt.inputs).map Prod.snd = psbt.inputs :=
      List.map_snd_zip (by rw [inputs, handed.inputMaps])
    conv_rhs => rw [← snds]
    rw [List.map_map]
    rfl
  have outs : checkedSum (psbt.unsignedTx.output.map TxOut.value) = some (outputs.map TxOut.value).sum := by
    have summed : (outputs.map TxOut.value).foldlM checkedAdd 0 = some (0 + (outputs.map TxOut.value).sum) :=
      checkedSum_of_le (by omega)
    rw [Nat.zero_add] at summed
    rw [handed.transaction]
    exact summed
  rw [maps, Nat.zero_add] at proved
  unfold policyView at evaluated classified
  unfold member
  simp only [if_neg shape, proved, outs, if_neg (Nat.not_lt_of_le covered), evaluated, classified]
  exact ⟨_, rfl, rfl⟩

theorem Handed.spends {functions : TxFunctions} {witnessScript : Script} {utxos : List Utxo} {outputs : List TxOut}
    {psbt : RawPsbt} (handed : Handed functions witnessScript utxos outputs psbt) :
    outpointsOf psbt.unsignedTx.unsigned = utxos.map Utxo.outpoint := by
  rw [handed.transaction]
  simp only [outpointsOf, RawTransaction.unsigned, List.map_map]
  rfl

theorem Handed.final {functions : TxFunctions} {witnessScript : Script} {utxos : List Utxo} {outputs : List TxOut}
    {psbt : RawPsbt} (handed : Handed functions witnessScript utxos outputs psbt) :
    Final psbt.unsignedTx.unsigned := by
  rw [handed.transaction]
  intro input member
  simp only [RawTransaction.unsigned, List.map_map, List.mem_map] at member
  obtain ⟨utxo, _, rfl⟩ := member
  rfl

/-- A hot spend and its escape over the same coins, each passed by the sealed policy: the signer prepares the group. -/
theorem prepare_handed {functions : TxFunctions} {vault : LiveVault} {witnessScript : Script} {utxos : List Utxo}
    {spendOutputs escapeOutputs : List TxOut} {primary escape : RawPsbt}
    (script : vault.explicitScript = .ok witnessScript)
    (spendHanded : Handed functions witnessScript utxos spendOutputs primary)
    (escapeHanded : Handed functions witnessScript utxos escapeOutputs escape)
    (spent : ∃ m, member functions vault witnessScript primary = .ok m ∧ m.txClass = .hot)
    (escaped : ∃ m, member functions vault witnessScript escape = .ok m ∧ m.txClass = .escape) (hint : Bytes) :
    ∃ group, prepare functions vault (.spend hint ⟨primary, escape, []⟩) = .ok group := by
  obtain ⟨spendMember, spent, hot⟩ := spent
  obtain ⟨escapeMember, escaped, isEscape⟩ := escaped
  have spends := member_ok spent
  have escapes := member_ok escaped
  have combinable : Combinable vault.checkParams spendMember.psbt escapeMember.psbt := by
    refine Or.inl ⟨(spends.hasClass_iff _).mpr hot, (escapes.hasClass_iff _).mpr isEscape, ?_⟩
    rw [spends.transaction, escapes.transaction, spendHanded.spends, escapeHanded.spends]
  obtain ⟨labels, labelled⟩ := (pairLabels_ok_iff spends escapes).mpr combinable
  have ladder : checkLadder functions vault escapeMember [] = .ok () := by
    refine (unladdered_ok_iff escapeMember).mpr ?_
    rw [escapes.transaction]
    exact escapeHanded.final
  have neverEscape : spendMember.txClass = .escape → unladdered spendMember = .ok () := by
    intro other
    rw [hot] at other
    cases other
  obtain ⟨group, prepared⟩ : ∃ group, prepareSpend functions vault witnessScript hint ⟨primary, escape, []⟩ = .ok group :=
    prepareSpend_of_checks hint (Nat.zero_le _) spent escaped rfl labelled neverEscape ladder
  exact ⟨group, by rw [prepare, script]; exact prepared⟩

/-! ### What the gate finds -/

theorem derivesWithin_base {escape : Descriptor} {base : SingleDescriptor} {others : List SingleDescriptor}
    {script : Script} (expanded : escape.intoSingleDescriptors = some (base :: others))
    (derived : base.derivedScript 0 = some script) (max : Nat) : derivesWithin escape script max = true := by
  unfold derivesWithin
  rw [expanded]
  simp only [List.any_cons, Bool.or_eq_true]
  left
  rw [List.any_eq_true]
  exact ⟨0, List.mem_range.mpr (Nat.succ_pos _), decide_eq_true derived⟩

/-- A sweep of one output that pays the fee it is priced at passes the gate at that price. -/
theorem sweep_admissible {policy : SweepPolicy} {env : SweepEnv} {tx : Transaction} {sealedEscape : Descriptor}
    {script : Script} {sweep rate vsize : Nat} (final : Final tx) (outputs : tx.output = [⟨sweep, script⟩])
    (sealedParams : policy.checkParams.escape = some sealedEscape)
    (pays : derivesWithin sealedEscape script policy.checkParams.maxDerivationIndex = true)
    (word : env.totalIn ≤ maxWord) (sized : 0 < vsize) (floor : policy.escapeFeerateFloor ≤ rate)
    (priced : env.totalIn = sweep + rate * vsize)
    (covered : env.protectedValue * policy.escapeCoveragePct ≤ sweep * 100) (fresh : env.pairedDelivered = 0)
    (unladdered : env.laddered = false) : sweepRungAdmissible policy env tx vsize = .ok () := by
  have fits : satAdd 0 sweep = sweep := satAdd_zero (by omega)
  have paid : satOutputs tx = sweep := by
    rw [satOutputs, outputs]
    exact fits
  have delivered : deliveredValue policy env sealedEscape tx = sweep := by
    rw [deliveredValue, outputs, List.foldl_cons, List.foldl_nil, if_pos pays, fresh]
    exact fits
  refine (sweepRungAdmissible_ok_iff policy env tx vsize).mpr ⟨?_, sized.ne', ?_, sealedEscape, sealedParams, ?_⟩
  · intro input member
    rw [unladdered]
    exact final input member
  · have above : policy.escapeFeerateFloor * vsize ≤ rate * vsize := Nat.mul_le_mul_right _ floor
    rw [paid]
    omega
  · rw [delivered]
    exact covered

/-! ### The composed spend -/

theorem composeScripts_ok {functions : ComposerFunctions} {vault : ComposerVault} {destinationText : String}
    {scripts : Scripts} (passed : composeScripts functions vault destinationText = .ok scripts) :
    (∃ address, functions.parseAddress destinationText = .ok address ∧
      address vault.network = some scripts.destination) ∧
      scripts.change = vault.scriptPubkey ∧
      ∃ sealedEscape base others, vault.checkParams.escape = some sealedEscape ∧
        sealedEscape.intoSingleDescriptors = some (base :: others) ∧ base.derivedScript 0 = some scripts.escape := by
  unfold composeScripts at passed
  obtain ⟨address, parsed, passed⟩ := ok_of_bind passed
  obtain ⟨destination, bound, passed⟩ := ok_of_bind passed
  obtain ⟨sealedEscape, configured, passed⟩ := ok_of_bind passed
  obtain ⟨escape, based, passed⟩ := ok_of_bind passed
  cases passed
  refine ⟨⟨address, mapError_ok parsed, okOr_ok bound⟩, rfl, sealedEscape, ?_⟩
  unfold baseEscapeScript at based
  split at based
  · cases based
  · cases based
  · next base others expanded =>
    split at based
    · cases based
    · next derived =>
      cases based
      exact ⟨base, others, okOr_ok configured, expanded, derived⟩

/-- A spend over the prepared coins that accounts for every satoshi: what it pays, what it keeps and the fees. -/
structure Exact (functions : ComposerFunctions) (vault : ComposerVault) (scripts : Scripts) (prepared : PreparedView)
    (amount change sweep primaryVsize escapeVsize : Nat) (primary escape : RawPsbt) : Prop where
  primarySpends : outpointsOf primary.unsignedTx.unsigned = prepared.utxos.map Utxo.outpoint
  escapeSpends : outpointsOf escape.unsignedTx.unsigned = prepared.utxos.map Utxo.outpoint
  primaryPays : primary.unsignedTx.output = [⟨amount, scripts.destination⟩, ⟨change, vault.scriptPubkey⟩]
  escapePays : escape.unsignedTx.output = [⟨sweep, scripts.escape⟩]
  primarySize : maximumFinalizedVsizeFor ⟨functions.weight, prepared.weight⟩ primary.unsignedTx.unsigned =
    .ok primaryVsize
  escapeSize : maximumFinalizedVsizeFor ⟨functions.weight, prepared.weight⟩ escape.unsignedTx.unsigned =
    .ok escapeVsize
  primaryTotal : (prepared.utxos.map (fun utxo => utxo.txout.value)).sum =
    amount + change + prepared.satVb * primaryVsize
  escapeTotal : (prepared.utxos.map (fun utxo => utxo.txout.value)).sum =
    sweep + max prepared.satVb vault.escapeFeerateFloor * escapeVsize

/-- What the composer hands out over a prepared view. -/
theorem composePair_ok {functions : ComposerFunctions} {vault : ComposerVault} {scripts : Scripts}
    {prepared : PreparedView} {witnessScript : Script} {amount : Nat} {authorization : SpendAuthorization}
    (accepted : Accepted functions.toTxFunctions witnessScript scripts prepared.bracket)
    (own : scripts.change = vault.scriptPubkey)
    (passed : composePair functions vault prepared amount = .ok authorization) :
    ∃ primary escape change sweep, authorization = ⟨primary, escape, []⟩ ∧
      Exact functions vault scripts prepared amount change sweep prepared.bracket.primaryVsize
        prepared.bracket.escapeVsize primary escape ∧
      Priced vault prepared ⟨amount, change, sweep⟩ ∧
      Handed functions.toTxFunctions witnessScript prepared.utxos
        [⟨amount, scripts.destination⟩, ⟨change, vault.scriptPubkey⟩] primary ∧
      Handed functions.toTxFunctions witnessScript prepared.utxos [⟨sweep, scripts.escape⟩] escape ∧
      (∃ m, member functions.toTxFunctions vault.toLiveVault witnessScript primary = .ok m ∧ m.txClass = .hot) ∧
      ∃ m, member functions.toTxFunctions vault.toLiveVault witnessScript escape = .ok m ∧ m.txClass = .escape := by
  unfold composePair at passed
  obtain ⟨amounts, priced, passed⟩ := ok_of_bind passed
  obtain ⟨⟨first, second⟩, shaped, passed⟩ := ok_of_bind passed
  obtain ⟨_, primarySized, passed⟩ := ok_of_bind passed
  obtain ⟨_, escapeSized, passed⟩ := ok_of_bind passed
  obtain ⟨primary, primaryAttached, passed⟩ := ok_of_bind passed
  obtain ⟨escape, escapeAttached, passed⟩ := ok_of_bind passed
  obtain ⟨_, primaryFinal, passed⟩ := ok_of_bind passed
  obtain ⟨_, escapeFinal, passed⟩ := ok_of_bind passed
  cases passed
  obtain ⟨paid, leaves⟩ := price_ok priced
  obtain ⟨rfl, rfl⟩ := buildPair_ok shaped
  obtain ⟨_, change, sweep⟩ := amounts
  obtain rfl := paid.symm
  rw [accepted.witnessScript, accepted.scripts, own] at primaryAttached
  rw [accepted.witnessScript, accepted.scripts] at escapeAttached
  have primaryHanded := attachParents_ok accepted.parented primaryAttached
  have escapeHanded := attachParents_ok accepted.parented escapeAttached
  have primaryBound := checkFinalized_ok primarySized
  have escapeBound := checkFinalized_ok escapeSized
  have primaryCovered : ([⟨amount, scripts.destination⟩, ⟨change, vault.scriptPubkey⟩].map TxOut.value).sum ≤
      (prepared.utxos.map (fun utxo => utxo.txout.value)).sum := by
    have total := leaves.primary
    simp only [List.map_cons, List.map_nil, List.sum_cons, List.sum_nil]
    simp only at total
    omega
  have escapeCovered : ([⟨sweep, scripts.escape⟩].map TxOut.value).sum ≤
      (prepared.utxos.map (fun utxo => utxo.txout.value)).sum := by
    have total := leaves.escape
    simp only [List.map_cons, List.map_nil, List.sum_cons, List.sum_nil]
    simp only at total
    omega
  refine ⟨primary, escape, change, sweep, rfl, ?_, leaves, primaryHanded, escapeHanded,
    member_handed primaryHanded accepted.distinct leaves.word primaryCovered (checkFinal_ok primaryFinal),
    member_handed escapeHanded accepted.distinct leaves.word escapeCovered (checkFinal_ok escapeFinal)⟩
  exact
    { primarySpends := primaryHanded.spends
      escapeSpends := escapeHanded.spends
      primaryPays := congrArg RawTransaction.output primaryHanded.transaction
      escapePays := congrArg RawTransaction.output escapeHanded.transaction
      primarySize := by
        rw [primaryHanded.transaction, ← own, ← accepted.scripts]
        exact primaryBound
      escapeSize := by
        rw [escapeHanded.transaction, ← accepted.scripts]
        exact escapeBound
      primaryTotal := leaves.primary
      escapeTotal := leaves.escape }

/-- A composed spend is exact, the signer prepares it, and the gate lets its escape fire. -/
theorem composed_spend_is_exact {σ : Type} (functions : ComposerFunctions) (vault : ComposerVault) (core : CoreView σ)
    (destinationText : String) (amount : Nat) {s s' : σ} {request : UserAuthorization}
    (composed : composeSpend functions vault core destinationText amount s = (.ok request, s')) :
    ∃ scripts prepared primary escape change sweep primaryVsize escapeVsize,
      request = .spend vault.walletId ⟨primary, escape, []⟩ ∧
      (∃ address, functions.parseAddress destinationText = .ok address ∧
        address vault.network = some scripts.destination) ∧
      (∃ sealedEscape base others, vault.checkParams.escape = some sealedEscape ∧
        sealedEscape.intoSingleDescriptors = some (base :: others) ∧ base.derivedScript 0 = some scripts.escape) ∧
      prepareView functions.toTxFunctions core vault.network vault.descriptor scripts s = (.ok prepared, s') ∧
      vault.maxWeightToSatisfy = .ok prepared.weight ∧
      Exact functions vault scripts prepared amount change sweep primaryVsize escapeVsize primary escape ∧
      (∃ group, prepare functions.toTxFunctions vault.toLiveVault request = .ok group) ∧
      ∀ env : SweepEnv, env.laddered = false → env.pairedDelivered = 0 →
        env.totalIn = (prepared.utxos.map (fun utxo => utxo.txout.value)).sum → env.protectedValue = env.totalIn →
        sweepRungAdmissible ⟨vault.checkParams, vault.escapeFeerateFloor, vault.escapeCoveragePct⟩ env
          escape.unsignedTx.unsigned escapeVsize = .ok () := by
  unfold composeSpend at composed
  obtain ⟨scripts, s₁, scripted, composed⟩ := answered_bind composed
  obtain ⟨prepared, s₂, viewed, composed⟩ := answered_bind composed
  obtain ⟨authorization, s₃, paired, composed⟩ := answered_bind composed
  obtain ⟨scriptsPassed, same₁⟩ := answered_lift scripted
  obtain ⟨pairPassed, same₂⟩ := answered_lift paired
  cases composed
  rw [same₁] at viewed
  obtain ⟨destination, own, sealedEscape, base, others, configured, expanded, derived⟩ := composeScripts_ok scriptsPassed
  obtain ⟨witnessScript, script, weighed, _, accepted⟩ := prepareView_answered viewed
  obtain ⟨primary, escape, change, sweep, rfl, exact, leaves, primaryHanded, escapeHanded, spent, escaped⟩ :=
    composePair_ok accepted own pairPassed
  refine ⟨scripts, prepared, primary, escape, change, sweep, _, _, rfl, destination,
    ⟨sealedEscape, base, others, configured, expanded, derived⟩, same₂ ▸ viewed, weighed, exact,
    prepare_handed script primaryHanded escapeHanded spent escaped vault.walletId, ?_⟩
  intro env unladdered fresh totalIn protectedAll
  have sized := (maximumFinalizedVsizeFor_range exact.escapeSize).1
  have covered : env.protectedValue * vault.escapeCoveragePct ≤ sweep * 100 := by
    rw [protectedAll, totalIn]
    exact leaves.coverage
  exact sweep_admissible escapeHanded.final exact.escapePays configured (derivesWithin_base expanded derived _)
    (totalIn ▸ leaves.word) sized (le_max_right _ _) (totalIn ▸ exact.escapeTotal) covered fresh unladdered

/-! ### One coin, spent at one satoshi for each vbyte -/

namespace Sample

def vault : ComposerVault :=
  { Signer.Sample.vault with
    userKey := []
    network := .regtest
    walletId := [1]
    escapeFeerateFloor := 1
    escapeCoveragePct := 90 }

def functions : ComposerFunctions :=
  { Signer.Sample.functions with
    parseAddress := fun _ => .ok (fun _ => some Signer.Sample.hotScript)
    minimalNonDust := fun _ => 294
    expansionError := fun _ => ""
    derivationError := fun _ => "" }

/-- A Core that stands still. -/
def core : CoreView Unit :=
  { chainInfo := pure ⟨⟨some "regtest", none⟩, false, [1]⟩
    bestBlockHash := pure [1]
    scanVaultScript := fun script => pure ⟨[1], [⟨⟨[9], 0⟩, 100000, script, 5⟩]⟩
    txout := fun _ => pure (some ⟨[1], 6, 100000, Signer.Sample.vaultScript, false⟩)
    blockHash := fun _ => pure (some [1])
    blockTransaction := fun _ _ => pure (some Signer.Sample.deposit)
    feeEstimate := pure none
    feeFloors := pure ⟨1000, 1000⟩ }

theorem composed_spend_is_exact_sample :
    ∃ request, composeSpend functions vault core "" 50000 () = (.ok request, ()) ∧
      ∃ group, prepare functions.toTxFunctions vault.toLiveVault request = .ok group := by
  have composed : (composeSpend functions vault core "" 50000 ()).1.isOk = true := by decide
  cases ran : composeSpend functions vault core "" 50000 () with
  | mk outcome s' =>
    cases outcome with
    | error e =>
      rw [ran] at composed
      cases composed
    | ok request =>
      obtain ⟨_, _, _, _, _, _, _, _, _, _, _, _, _, _, prepares, _⟩ :=
        composed_spend_is_exact functions vault core "" 50000 ran
      exact ⟨request, rfl, prepares⟩

end Sample

end BtcPolicy.Compose
