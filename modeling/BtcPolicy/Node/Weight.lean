import BtcPolicy.Node.Ladder

/-! The weight of a transaction, signed and unsigned, and the bound a node puts on the size of a sweep before the
missing signatures are there. -/

namespace BtcPolicy.Node
open FiniteMap Word Bitcoin Policy

/-! ### Serialized sizes -/

/-- `VarInt::size`. -/
def varIntSize (value : Nat) : Nat :=
  if value ≤ 0xfc then 1 else if value ≤ 0xffff then 3 else if value ≤ 0xffffffff then 5 else 9

/-- `Witness::size`: the count, and each item behind its length. -/
def witnessSize (witness : List Bytes) : Nat :=
  varIntSize witness.length + (witness.map (fun item => varIntSize item.length + item.length)).sum

/-- `TxIn::base_size`. -/
def inputBaseSize (input : RawInput) : Nat := 36 + (varIntSize input.scriptSig.length + input.scriptSig.length) + 4

/-- `TxOut::size`. -/
def outputSize (output : TxOut) : Nat := 8 + (varIntSize output.scriptPubkey.length + output.scriptPubkey.length)

/-- `uses_segwit_serialization`: a transaction without inputs has it too. -/
def usesSegwitSerialization (tx : RawTransaction) : Bool :=
  tx.input.any (fun input => !input.witness.isEmpty) || tx.input.isEmpty

def baseSize (tx : RawTransaction) : Nat :=
  4 + varIntSize tx.input.length + (tx.input.map inputBaseSize).sum + varIntSize tx.output.length +
    (tx.output.map outputSize).sum + 4

/-- The marker and the flag, and the witness of each input, where the serialization has them. -/
def totalSize (tx : RawTransaction) : Nat :=
  let segwit := usesSegwitSerialization tx
  4 + (if segwit then 2 else 0) + varIntSize tx.input.length +
    (tx.input.map (fun input => inputBaseSize input + if segwit then witnessSize input.witness else 0)).sum +
    varIntSize tx.output.length + (tx.output.map outputSize).sum + 4

def weight (tx : RawTransaction) : Nat := baseSize tx * 3 + totalSize tx

/-- `Weight::to_vbytes_ceil`. -/
def vsize (tx : RawTransaction) : Nat := (weight tx + 3) / 4

/-- The transaction of a PSBT as the library holds it: without scripts and witnesses. -/
def bare (tx : Transaction) : RawTransaction :=
  ⟨tx.version, tx.lockTime, tx.input.map (fun input => ⟨input, [], []⟩), tx.output⟩

def withoutWitness (tx : RawTransaction) : RawTransaction :=
  { tx with input := tx.input.map (fun input => { input with witness := [] }) }

theorem unsigned_bare (tx : Transaction) : (bare tx).unsigned = tx := by
  have inputs : (tx.input.map (fun input => RawInput.mk input [] [])).map RawInput.txIn = tx.input := by
    rw [List.map_map]
    exact List.map_id _
  unfold bare RawTransaction.unsigned
  simp only [inputs]

theorem unsigned_withoutWitness (tx : RawTransaction) : (withoutWitness tx).unsigned = tx.unsigned := by
  unfold withoutWitness RawTransaction.unsigned
  simp only [List.map_map]
  rfl

/-- The sizing of a vault by the library's own weight. -/
def vaultSizing (maxVaultSatisfactionWeight : Nat) : Sizing := ⟨fun tx => weight (bare tx), maxVaultSatisfactionWeight⟩

/-! ### The bound -/

theorem four_baseSize_le_weight (tx : RawTransaction) : 4 * baseSize tx ≤ weight tx := by
  have each : (tx.input.map inputBaseSize).sum ≤ (tx.input.map (fun input =>
      inputBaseSize input + if usesSegwitSerialization tx then witnessSize input.witness else 0)).sum := by
    apply List.sum_le_sum
    intro input _
    omega
  unfold weight totalSize
  simp only
  unfold baseSize
  omega

/-- A witness adds the marker, the flag and its own bytes, and no more. -/
theorem weight_le (tx : RawTransaction) :
    weight tx ≤ 4 * baseSize tx + 2 + (tx.input.map (fun input => witnessSize input.witness)).sum := by
  have each : (tx.input.map (fun input =>
      inputBaseSize input + if usesSegwitSerialization tx then witnessSize input.witness else 0)).sum ≤
      (tx.input.map inputBaseSize).sum + (tx.input.map (fun input => witnessSize input.witness)).sum := by
    rw [← List.sum_map_add]
    apply List.sum_le_sum
    intro input _
    split_ifs
    · exact le_rfl
    · exact Nat.add_le_add_left (Nat.zero_le _) _
  have marker : (if usesSegwitSerialization tx then 2 else 0) ≤ 2 := by split_ifs <;> decide
  unfold weight totalSize
  simp only
  unfold baseSize
  omega

theorem baseSize_withoutWitness (tx : RawTransaction) : baseSize (withoutWitness tx) = baseSize tx := by
  have inputs : ((withoutWitness tx).input.map inputBaseSize) = tx.input.map inputBaseSize := by
    unfold withoutWitness
    rw [List.map_map]
    rfl
  unfold baseSize
  rw [inputs]
  simp [withoutWitness]

/-- What the bound is where nothing overflows, and that it is refused only where something does. -/
theorem maximumFinalizedVsizeFor_cases (sizing : Sizing) (tx : Transaction) :
    maximumFinalizedVsizeFor sizing tx =
        .ok ((sizing.weight tx + 2 + (sizing.maxVaultSatisfactionWeight + 1) * tx.input.length + 3) / 4) ∨
      ((maxWord < tx.input.length ∨ maxWord < sizing.maxVaultSatisfactionWeight + 1 ∨
          maxWord < (sizing.maxVaultSatisfactionWeight + 1) * tx.input.length ∨
          maxWord < sizing.weight tx + 2 + (sizing.maxVaultSatisfactionWeight + 1) * tx.input.length + 3) ∧
        ∃ detail, maximumFinalizedVsizeFor sizing tx = .error detail) := by
  unfold maximumFinalizedVsizeFor
  simp only
  by_cases count : maxWord < tx.input.length
  · exact Or.inr ⟨Or.inl count, _, if_pos count⟩
  rw [if_neg count]
  by_cases single : sizing.maxVaultSatisfactionWeight + 1 ≤ maxWord
  swap
  · have fails : checkedAdd sizing.maxVaultSatisfactionWeight 1 = none := if_neg single
    exact Or.inr ⟨Or.inr (Or.inl (Nat.lt_of_not_le single)), _, by rw [fails]⟩
  have perInput : checkedAdd sizing.maxVaultSatisfactionWeight 1 = some (sizing.maxVaultSatisfactionWeight + 1) :=
    if_pos single
  simp only [perInput]
  generalize sizing.maxVaultSatisfactionWeight + 1 = each
  by_cases product : each * tx.input.length ≤ maxWord
  swap
  · have fails : checkedMul each tx.input.length = none := if_neg product
    exact Or.inr ⟨Or.inr (Or.inr (Or.inl (Nat.lt_of_not_le product))), _, by rw [fails]⟩
  have witness : checkedMul each tx.input.length = some (each * tx.input.length) := if_pos product
  simp only [witness]
  generalize each * tx.input.length = witnesses
  by_cases whole : sizing.weight tx + 2 + witnesses + 3 ≤ maxWord
  · left
    have first : sizing.weight tx + 2 ≤ maxWord := by omega
    have second : sizing.weight tx + 2 + witnesses ≤ maxWord := by omega
    simp [checkedAdd, first, second, whole]
  · refine Or.inr ⟨Or.inr (Or.inr (Or.inr (Nat.lt_of_not_le whole))), ?_⟩
    by_cases first : sizing.weight tx + 2 ≤ maxWord
    · by_cases second : sizing.weight tx + 2 + witnesses ≤ maxWord
      · simp [checkedAdd, first, second, whole]
      · simp [checkedAdd, first, second]
    · simp [checkedAdd, first]

theorem maximumFinalizedVsizeFor_eq {sizing : Sizing} {tx : Transaction} {bound : Nat}
    (bounded : maximumFinalizedVsizeFor sizing tx = .ok bound) :
    bound = (sizing.weight tx + 2 + (sizing.maxVaultSatisfactionWeight + 1) * tx.input.length + 3) / 4 := by
  rcases maximumFinalizedVsizeFor_cases sizing tx with exact | ⟨_, detail, failed⟩
  · rw [exact] at bounded
    exact (Except.ok.inj bounded).symm
  · rw [failed] at bounded
    cases bounded

/-- A signed transaction is no larger than its unsigned form with the witnesses at their bound. -/
theorem vsize_le_bound {maxWeight : Nat} {tx : Transaction} {final : RawTransaction}
    (same : withoutWitness final = bare tx)
    (bounded : ∀ input ∈ final.input, witnessSize input.witness ≤ maxWeight + 1) :
    vsize final ≤ (weight (bare tx) + 2 + (maxWeight + 1) * tx.input.length + 3) / 4 := by
  have inputs : final.input.length = tx.input.length := by
    have lengths := congrArg (fun raw : RawTransaction => raw.input.length) same
    simpa [withoutWitness, bare] using lengths
  have witnesses : (final.input.map (fun input => witnessSize input.witness)).sum ≤
      (maxWeight + 1) * tx.input.length := by
    have each := List.sum_le_card_nsmul (final.input.map (fun input => witnessSize input.witness)) (maxWeight + 1)
      (List.forall_mem_map.mpr bounded)
    rw [List.length_map, inputs, smul_eq_mul, Nat.mul_comm] at each
    exact each
  have bases : baseSize final = baseSize (bare tx) := by rw [← baseSize_withoutWitness, same]
  have signed := weight_le final
  have unsigned := four_baseSize_le_weight (bare tx)
  unfold vsize
  apply Nat.div_le_div_right
  omega

theorem vsize_pos (tx : RawTransaction) : 0 < vsize tx := by
  have base : 8 ≤ baseSize tx := by
    unfold baseSize
    omega
  have heavy := four_baseSize_le_weight tx
  unfold vsize
  omega

/-! ### The gate at a smaller size -/

def satOutputs (tx : Transaction) : Nat := tx.output.foldl (fun acc o => satAdd acc o.value) 0

/-- What reaches the escape wallet, on top of what its paired spend delivered. -/
def deliveredValue (policy : SweepPolicy) (env : SweepEnv) (escape : Descriptor) (tx : Transaction) : Nat :=
  tx.output.foldl (fun acc o =>
    if derivesWithin escape o.scriptPubkey policy.checkParams.maxDerivationIndex then satAdd acc o.value
    else acc) env.pairedDelivered

/-- What the gate asks of a rung. -/
structure Admissible (policy : SweepPolicy) (env : SweepEnv) (tx : Transaction) (feerateVsize : Nat) : Prop where
  sequence : ∀ input ∈ tx.input, input.sequence = expectedEscapeSequence env.laddered
  size : feerateVsize ≠ 0
  feerate : policy.escapeFeerateFloor * feerateVsize ≤ env.totalIn - satOutputs tx
  coverage : ∃ escape, policy.checkParams.escape = some escape ∧
    env.protectedValue * policy.escapeCoveragePct ≤ deliveredValue policy env escape tx * 100

theorem sweepRungAdmissible_ok_iff (policy : SweepPolicy) (env : SweepEnv) (tx : Transaction) (feerateVsize : Nat) :
    sweepRungAdmissible policy env tx feerateVsize = .ok () ↔ Admissible policy env tx feerateVsize := by
  have asked := checkSweepSequence_ok_iff env.laddered tx
  unfold sweepRungAdmissible
  cases checked : checkSweepSequence env.laddered tx with
  | error e =>
    rw [checked] at asked
    exact ⟨nofun, fun admissible => nomatch asked.mpr admissible.sequence⟩
  | ok _ =>
    have sequence := asked.mp checked
    simp only [bind, Except.bind, pure, Except.pure, throw, throwThe, MonadExceptOf.throw]
    by_cases size : feerateVsize = 0
    · rw [if_pos size]
      exact ⟨nofun, fun admissible => absurd size admissible.size⟩
    rw [if_neg size]
    change (if env.totalIn - satOutputs tx < policy.escapeFeerateFloor * feerateVsize then _ else _) = _ ↔ _
    by_cases low : env.totalIn - satOutputs tx < policy.escapeFeerateFloor * feerateVsize
    · rw [if_pos low]
      exact ⟨nofun, fun admissible => absurd low (Nat.not_lt_of_le admissible.feerate)⟩
    rw [if_neg low]
    cases configured : policy.checkParams.escape with
    | none => exact ⟨nofun, fun ⟨_, _, _, _, known, _⟩ => nomatch configured.symm.trans known⟩
    | some escape =>
      change (if deliveredValue policy env escape tx * 100 < env.protectedValue * policy.escapeCoveragePct then _
        else _) = _ ↔ _
      by_cases short : deliveredValue policy env escape tx * 100 < env.protectedValue * policy.escapeCoveragePct
      · rw [if_pos short]
        refine ⟨nofun, fun ⟨_, _, _, other, known, covered⟩ => ?_⟩
        cases configured.symm.trans known
        exact absurd short (Nat.not_lt_of_le covered)
      · rw [if_neg short]
        exact ⟨fun _ => ⟨sequence, size, Nat.le_of_not_lt low, escape, configured, Nat.le_of_not_lt short⟩,
          fun _ => rfl⟩

/-- A smaller size only raises the feerate. -/
theorem Admissible.shrink {policy : SweepPolicy} {env : SweepEnv} {tx : Transaction} {size bound : Nat}
    (admissible : Admissible policy env tx bound) (smaller : size ≤ bound) (positive : 0 < size) :
    Admissible policy env tx size :=
  { admissible with
    size := Nat.ne_of_gt positive
    feerate := (Nat.mul_le_mul_left _ smaller).trans admissible.feerate }

/-- What may fire before its signatures are there may fire with them: the bound holds for every witness within the
vault's satisfaction weight, and it is refused only where a word overflows. -/
theorem final_admissible_of_pre_release (maxWeight : Nat) (tx : Transaction) (final : RawTransaction)
    (same : withoutWitness final = bare tx)
    (bounded : ∀ input ∈ final.input, witnessSize input.witness ≤ maxWeight + 1) :
    (∀ bound, maximumFinalizedVsizeFor (vaultSizing maxWeight) tx = .ok bound →
        vsize final ≤ bound ∧ ∀ policy env, sweepRungAdmissible policy env tx bound = .ok () →
          sweepRungAdmissible policy env final.unsigned (vsize final) = .ok ()) ∧
      ∀ detail, maximumFinalizedVsizeFor (vaultSizing maxWeight) tx = .error detail →
        maxWord < tx.input.length ∨ maxWord < maxWeight + 1 ∨ maxWord < (maxWeight + 1) * tx.input.length ∨
          maxWord < weight (bare tx) + 2 + (maxWeight + 1) * tx.input.length + 3 := by
  have stripped : final.unsigned = tx := by rw [← unsigned_withoutWitness, same, unsigned_bare]
  constructor
  · intro bound accepted
    have fits : vsize final ≤ bound := by
      rw [maximumFinalizedVsizeFor_eq accepted]
      exact vsize_le_bound same bounded
    refine ⟨fits, ?_⟩
    intro policy env
    rw [stripped, sweepRungAdmissible_ok_iff, sweepRungAdmissible_ok_iff]
    intro admissible
    exact admissible.shrink fits (vsize_pos final)
  · intro detail refused
    rcases maximumFinalizedVsizeFor_cases (vaultSizing maxWeight) tx with accepted | ⟨overflow, _⟩
    · rw [accepted] at refused
      cases refused
    · exact overflow

namespace SweepSample

def descriptor (spk : Script) : Descriptor := ⟨some [⟨false, fun _ => some spk⟩]⟩

/-- A floor of one satoshi for each vbyte and a coverage of 90 percent. -/
def policy : SweepPolicy := ⟨⟨descriptor [1], [descriptor [3]], some (descriptor [3]), 10, 500⟩, 1, 90⟩

def sweep : Transaction := ⟨2, 0, [⟨⟨[7], 0⟩, sequenceMax⟩], [⟨9500, [3]⟩]⟩

/-- The sweep with a witness of one item of three bytes. -/
def signed : RawTransaction := ⟨2, 0, [⟨⟨⟨[7], 0⟩, sequenceMax⟩, [], [[1, 2, 3]]⟩], [⟨9500, [3]⟩]⟩

def env : SweepEnv := ⟨10000, 10000, 0, false⟩

end SweepSample

theorem final_admissible_of_pre_release_sample :
    sweepRungAdmissible SweepSample.policy SweepSample.env SweepSample.signed.unsigned (vsize SweepSample.signed) =
      .ok () :=
  ((final_admissible_of_pre_release 10 SweepSample.sweep SweepSample.signed rfl (by decide)).1 65 (by rfl)).2
    SweepSample.policy SweepSample.env (by rfl)

end BtcPolicy.Node
