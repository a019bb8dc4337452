import BtcPolicy.Lib.Counting
import BtcPolicy.Node.Climb

/-! The fee-bump ladder as the coordinator composes it: rungs that pay a higher fee out of the largest output, kept
only where the node takes them. -/

namespace BtcPolicy.Client
open FiniteMap Word Bitcoin Policy Counting Node Checks

/-! ### The composer -/

def escapeBumpMultipliers : List Nat := [4, 16, 64]

def escapeBumpMaxFeePct : Nat := 1

def escapeBumpMinOutputSat : Nat := 10000

/-- One step of `max_by_key` over `(value, Reverse(index))`: the later one is taken unless its key is lower. -/
def larger (best : Option (TxOut × Nat)) (output : TxOut × Nat) : Option (TxOut × Nat) :=
  match best with
  | none => some output
  | some held =>
    if held.1.value < output.1.value ∨ (held.1.value = output.1.value ∧ output.2 ≤ held.2) then some output
    else some held

/-- The output that funds the bumps, with its index. -/
def fundOutput (outputs : List TxOut) : Option (TxOut × Nat) := outputs.zipIdx.foldl larger none

/-- Every input signals replacement. -/
def signalling (psbt : Psbt) : Psbt :=
  { psbt with unsignedTx :=
    { psbt.unsignedTx with input :=
      psbt.unsignedTx.input.map (fun input => { input with sequence := escapeRbfSequence }) } }

/-- One output at another value. -/
def atValue (psbt : Psbt) (index value : Nat) : Psbt :=
  { psbt with unsignedTx :=
    { psbt.unsignedTx with output :=
      psbt.unsignedTx.output.modify index (fun output => { output with value := value }) } }

/-- What the loop over the multipliers reads. -/
structure Funding where
  baseFee : Nat
  feeCeiling : Nat
  minimumDelta : Nat
  fundIndex : Nat
  fundValue : Nat

/-- The loop, with the fee of the last rung that was kept. -/
def composeRungs (base : Psbt) (funding : Funding) : Nat → List Nat → List Psbt
  | _, [] => []
  | lastKeptFee, multiplier :: rest =>
    let fee := satMul funding.baseFee multiplier
    let extra := fee - funding.baseFee
    if fee ≤ funding.baseFee ∨ funding.feeCeiling < fee then composeRungs base funding lastKeptFee rest
    else if fee - lastKeptFee < funding.minimumDelta then composeRungs base funding lastKeptFee rest
    else
      match checkedSub funding.fundValue extra with
      | none => composeRungs base funding lastKeptFee rest
      | some reduced =>
        if reduced < escapeBumpMinOutputSat then composeRungs base funding lastKeptFee rest
        else atValue base funding.fundIndex reduced :: composeRungs base funding fee rest

def escapeFeeLadder (escape : Psbt) (maxVaultSatisfactionWeight : Nat) : Except String (Psbt × List Psbt) :=
  match escape.inputs.foldlM (fun total input => input.witnessUtxo.map (fun utxo => satAdd total utxo.value)) 0 with
  | none => .ok (escape, [])
  | some totalIn =>
    match fundOutput escape.unsignedTx.output with
    | none => .ok (escape, [])
    | some (fund, fundIndex) =>
      let totalOut := escape.unsignedTx.output.foldl (fun total output => satAdd total output.value) 0
      let baseFee := totalIn - totalOut
      let base := signalling escape
      let feeCeiling := satMul totalIn escapeBumpMaxFeePct / 100
      match escapeReplacementMinFeeDelta (vaultSizing maxVaultSatisfactionWeight) base.unsignedTx with
      | .error e => .error e
      | .ok minimumDelta =>
        let rungs := composeRungs base ⟨baseFee, feeCeiling, minimumDelta, fundIndex, fund.value⟩ baseFee
          escapeBumpMultipliers
        if rungs.isEmpty then .ok (escape, []) else .ok (base, rungs)

/-! ### The largest output -/

/-- The first of the outputs with the highest value. -/
structure Largest (outputs : List TxOut) (index : Nat) (output : TxOut) : Prop where
  found : outputs[index]? = some output
  highest : ∀ (place : Nat) (other : TxOut), outputs[place]? = some other → other.value ≤ output.value
  first : ∀ (place : Nat) (other : TxOut), outputs[place]? = some other → other.value = output.value → index ≤ place

theorem Largest.head {head : TxOut} {rest : List TxOut} (below : ∀ other ∈ rest, other.value ≤ head.value) :
    Largest (head :: rest) 0 head := by
  have each : ∀ other ∈ head :: rest, other.value ≤ head.value := List.forall_mem_cons.mpr ⟨le_rfl, below⟩
  exact ⟨rfl, fun _ other found => each other (List.mem_of_getElem? found), fun _ _ _ _ => Nat.zero_le _⟩

theorem Largest.tail {head output : TxOut} {rest : List TxOut} {place : Nat} (largest : Largest rest place output)
    (above : head.value < output.value) : Largest (head :: rest) (place + 1) output := by
  refine ⟨largest.found, ?_, ?_⟩
  · intro place' other found
    cases place' with
    | zero =>
      cases found
      exact above.le
    | succ place' => exact largest.highest place' other found
  · intro place' other found equal
    cases place' with
    | zero =>
      cases found
      exact absurd equal above.ne
    | succ place' => exact Nat.succ_le_succ (largest.first place' other found equal)

/-- What the scan finds in the rest of the list: what it held, or the first of the highest there. -/
theorem foldl_larger {rest : List TxOut} {start : Nat} {held best : TxOut × Nat} (earlier : held.2 < start)
    (scanned : (rest.zipIdx start).foldl larger (some held) = some best) :
    (best = held ∧ ∀ other ∈ rest, other.value ≤ held.1.value) ∨
      (held.1.value < best.1.value ∧ ∃ place, best.2 = start + place ∧ Largest rest place best.1) := by
  induction rest generalizing start held with
  | nil =>
    cases scanned
    exact Or.inl ⟨rfl, by simp⟩
  | cons head rest ih =>
    rw [List.zipIdx_cons, List.foldl_cons] at scanned
    by_cases higher : held.1.value < head.value
    · have taken : larger (some held) (head, start) = some (head, start) := if_pos (Or.inl higher)
      rw [taken] at scanned
      right
      rcases ih (Nat.lt_succ_self start) scanned with ⟨rfl, below⟩ | ⟨above, place, same, largest⟩
      · exact ⟨higher, 0, rfl, Largest.head below⟩
      · exact ⟨higher.trans above, place + 1, by rw [same]; omega, largest.tail above⟩
    · have kept : larger (some held) (head, start) = some held := by
        apply if_neg
        simp only
        omega
      rw [kept] at scanned
      rcases ih (Nat.lt_succ_of_lt earlier) scanned with ⟨rfl, below⟩ | ⟨above, place, same, largest⟩
      · exact Or.inl ⟨rfl, List.forall_mem_cons.mpr ⟨Nat.le_of_not_lt higher, below⟩⟩
      · exact Or.inr ⟨above, place + 1, by rw [same]; omega, largest.tail ((Nat.le_of_not_lt higher).trans_lt above)⟩

theorem fundOutput_some {outputs : List TxOut} {output : TxOut} {index : Nat}
    (found : fundOutput outputs = some (output, index)) : Largest outputs index output := by
  cases outputs with
  | nil => cases found
  | cons head rest =>
    rw [fundOutput, List.zipIdx_cons, List.foldl_cons] at found
    have first : larger none (head, 0) = some (head, 0) := rfl
    rw [first] at found
    rcases foldl_larger (Nat.lt_succ_self 0) found with ⟨same, below⟩ | ⟨above, place, same, largest⟩
    · cases same
      exact Largest.head below
    · simp only [Nat.zero_add] at same above
      rw [same, Nat.add_comm]
      exact largest.tail above

/-! ### One output at another value -/

theorem atValue_self {psbt : Psbt} {index : Nat} {output : TxOut} (found : psbt.unsignedTx.output[index]? = some output) :
    atValue psbt index output.value = psbt := by
  have same : psbt.unsignedTx.output.modify index (fun other => { other with value := output.value }) =
      psbt.unsignedTx.output := by
    apply List.ext_getElem?
    intro place
    rw [List.getElem?_modify]
    split_ifs with here
    · rw [← here, found]
      rfl
    · exact Option.map_id'
  unfold atValue
  rw [same]

theorem outputSum_atValue {psbt : Psbt} {index : Nat} {output : TxOut}
    (found : psbt.unsignedTx.output[index]? = some output) (value : Nat) :
    outputSum (atValue psbt index value).unsignedTx + output.value = outputSum psbt.unsignedTx + value :=
  sum_map_modify TxOut.value (fun other => { other with value := value }) found

/-- A lower value of one output lowers that output and keeps the rest. -/
theorem lowers_atValue (psbt : Psbt) (index : Nat) {reduced held : Nat} (less : reduced ≤ held) :
    Lowers (atValue psbt index held).unsignedTx (atValue psbt index reduced).unsignedTx := by
  refine ⟨rfl, ?_⟩
  unfold atValue
  simp only
  generalize psbt.unsignedTx.output = outputs
  induction outputs generalizing index with
  | nil => cases index <;> exact List.Forall₂.nil
  | cons head rest ih =>
    cases index with
    | zero => exact List.Forall₂.cons ⟨rfl, less⟩ (List.forall₂_same.mpr (fun _ _ => ⟨rfl, le_rfl⟩))
    | succ index => exact List.Forall₂.cons ⟨rfl, le_rfl⟩ (ih index)

theorem raisesValue_of_lowers {lower higher : Transaction} (lowers : Lowers lower higher) :
    raisesValue (valuesOf higher) (valuesOf lower) = false := by
  unfold raisesValue valuesOf
  have each := lowers.outputs
  generalize higher.output = outputs at *
  generalize lower.output = below at *
  induction each with
  | nil => rfl
  | cons first _ ih =>
    rw [List.map_cons, List.map_cons, List.zip_cons_cons, List.any_cons, ih, Bool.or_false]
    exact decide_eq_false (Nat.not_lt_of_le first.2)

theorem scriptsOf_eq {tx held : Transaction} (outputs : List.Forall₂ (fun (out below : TxOut) =>
      out.scriptPubkey = below.scriptPubkey ∧ out.value ≤ below.value) tx.output held.output) :
    scriptsOf tx = scriptsOf held := by
  unfold scriptsOf
  rw [← List.forall₂_eq_eq_eq, List.forall₂_map_left_iff, List.forall₂_map_right_iff]
  exact outputs.imp (fun _ _ both => both.1)

/-! ### A PSBT that pays more in fees -/

/-- The same maps over the same coins, and the same scripts with no value higher. -/
structure Dearer (psbt dearer : Psbt) : Prop where
  inputs : dearer.inputs = psbt.inputs
  maps : dearer.outputs = psbt.outputs
  spends : dearer.unsignedTx.input.length = psbt.unsignedTx.input.length
  outputs : List.Forall₂ (fun out held => out.scriptPubkey = held.scriptPubkey ∧ out.value ≤ held.value)
    dearer.unsignedTx.output psbt.unsignedTx.output

theorem Dearer.outputSum_le {psbt dearer : Psbt} (pays : Dearer psbt dearer) :
    outputSum dearer.unsignedTx ≤ outputSum psbt.unsignedTx := by
  apply List.Forall₂.sum_le_sum
  rw [List.forall₂_map_left_iff, List.forall₂_map_right_iff]
  exact pays.outputs.imp (fun _ _ both => both.2)

theorem Dearer.hotOutflow_le {psbt dearer : Psbt} (pays : Dearer psbt dearer) (params : CheckParams) :
    hotOutflow dearer params ≤ hotOutflow psbt params := by
  have metered : ∀ psbt : Psbt, hotOutflow psbt params =
      psbt.unsignedTx.output.foldl (fun acc o =>
        if (!params.paysVault o.scriptPubkey && !params.paysEscape o.scriptPubkey) = true then satAdd acc o.value
        else acc) 0 := by
    intro psbt
    unfold hotOutflow
    congr 1
    funext sat txout
    cases params.paysVault txout.scriptPubkey <;> cases params.paysEscape txout.scriptPubkey <;> rfl
  rw [metered, metered]
  exact foldl_le_of_lowers (fun spk => !params.paysVault spk && !params.paysEscape spk) pays.outputs le_rfl

/-- Of all that `evaluate` asks, only the cap on the fee is not kept. -/
theorem Dearer.evaluate {psbt dearer : Psbt} (pays : Dearer psbt dearer) {params : CheckParams}
    (passed : evaluate psbt params = .ok ())
    (capped : 100 * (inputSum psbt - outputSum dearer.unsignedTx) ≤ maxFeePercent * inputSum psbt) :
    Policy.evaluate dearer params = .ok () := by
  obtain ⟨consistent, owned, recognized, budget, fee⟩ := (evaluate_ok_iff psbt params).mp passed
  have lengths := pays.outputs.length_eq
  have total : inputSum dearer = inputSum psbt := by
    unfold inputSum
    rw [pays.inputs]
  have mapped := outputs_of_consistent consistent
  refine (evaluate_ok_iff dearer params).mpr ⟨?_, ?_, ?_, ?_, ?_⟩
  · unfold checkPsbtConsistency at consistent ⊢
    rw [pays.inputs, pays.maps, pays.spends, lengths]
    exact consistent
  · unfold checkInputs at owned ⊢
    rw [pays.inputs]
    exact owned
  · rw [checkDestinations_ok_iff psbt params mapped] at recognized
    rw [checkDestinations_ok_iff dearer params (by rw [pays.maps, lengths, mapped])]
    intro txout member
    obtain ⟨held, held_member, same⟩ : ∃ held ∈ psbt.unsignedTx.output, held.scriptPubkey = txout.scriptPubkey := by
      have listed : txout.scriptPubkey ∈ scriptsOf dearer.unsignedTx := List.mem_map_of_mem member
      rw [scriptsOf_eq pays.outputs] at listed
      exact List.mem_map.mp listed
    have known := recognized held held_member
    unfold Recognized at known ⊢
    rw [← same]
    exact known
  · unfold checkHotBudget at budget ⊢
    simp only at budget ⊢
    split_ifs at budget with exceeds
    rw [if_neg (Nat.not_lt_of_le ((pays.hotOutflow_le params).trans (Nat.le_of_not_lt exceeds)))]
  · rw [(decides_checkFee dearer).ok_iff, pass_cons, pass_cons]
    rw [(decides_checkFee psbt).ok_iff, pass_cons] at fee
    rw [total]
    exact ⟨pays.outputSum_le.trans fee.1, capped, pass_nil⟩

/-- The class is in the scripts. -/
theorem Dearer.classify {psbt dearer : Psbt} (pays : Dearer psbt dearer) {params : CheckParams}
    {classified : Classification} (passed : classify psbt params = .ok classified) :
    ∃ flow, Policy.classify dearer params = .ok ⟨classified.txClass, flow⟩ := by
  obtain ⟨flags, _⟩ := (classify_ok_iff psbt params classified).mp passed
  refine ⟨_, (classify_ok_iff dearer params ⟨classified.txClass, _⟩).mpr ⟨?_, rfl⟩⟩
  rw [flags_sortOutputs] at flags ⊢
  have scripts := scriptsOf_eq pays.outputs
  unfold scriptsOf at scripts
  rw [scripts]
  exact flags

/-! ### The rungs that are kept -/

/-- What a rung has cleared when it is kept over the last one. -/
structure Keeps (funding : Funding) (lastKeptFee fee reduced : Nat) : Prop where
  raises : funding.baseFee < fee
  capped : fee ≤ funding.feeCeiling
  relays : funding.minimumDelta ≤ fee - lastKeptFee
  pays : reduced + (fee - funding.baseFee) = funding.fundValue
  floor : escapeBumpMinOutputSat ≤ reduced

/-- A multiplier is passed over, or its rung is kept and the next ones climb over it. -/
theorem composeRungs_cons (base : Psbt) (funding : Funding) (lastKeptFee multiplier : Nat) (rest : List Nat) :
    composeRungs base funding lastKeptFee (multiplier :: rest) = composeRungs base funding lastKeptFee rest ∨
      ∃ fee reduced, Keeps funding lastKeptFee fee reduced ∧
        composeRungs base funding lastKeptFee (multiplier :: rest) =
          atValue base funding.fundIndex reduced :: composeRungs base funding fee rest := by
  rw [composeRungs]
  split_ifs with outside close
  · exact Or.inl rfl
  · exact Or.inl rfl
  · cases spent : checkedSub funding.fundValue (satMul funding.baseFee multiplier - funding.baseFee) with
    | none => exact Or.inl rfl
    | some reduced =>
      simp only
      split_ifs with small
      · exact Or.inl rfl
      · have exact_split := checkedSub_some spent
        refine Or.inr ⟨_, reduced, ⟨?_, ?_, Nat.le_of_not_lt close, ?_, Nat.le_of_not_lt small⟩, rfl⟩
        · omega
        · omega
        · omega

theorem length_composeRungs (base : Psbt) (funding : Funding) (lastKeptFee : Nat) (multipliers : List Nat) :
    (composeRungs base funding lastKeptFee multipliers).length ≤ multipliers.length := by
  induction multipliers generalizing lastKeptFee with
  | nil => exact le_rfl
  | cons multiplier rest ih =>
    rcases composeRungs_cons base funding lastKeptFee multiplier rest with skipped | ⟨fee, reduced, _, kept⟩
    · rw [skipped]
      exact (ih lastKeptFee).trans (Nat.le_succ _)
    · rw [kept]
      exact Nat.succ_le_succ (ih fee)

theorem mem_composeRungs {base : Psbt} {funding : Funding} {lastKeptFee : Nat} {multipliers : List Nat} {rung : Psbt}
    (member : rung ∈ composeRungs base funding lastKeptFee multipliers) :
    ∃ below fee reduced, Keeps funding below fee reduced ∧ rung = atValue base funding.fundIndex reduced := by
  induction multipliers generalizing lastKeptFee with
  | nil => cases member
  | cons multiplier rest ih =>
    rcases composeRungs_cons base funding lastKeptFee multiplier rest with skipped | ⟨fee, reduced, keeps, kept⟩
    · rw [skipped] at member
      exact ih member
    · rw [kept] at member
      rcases List.mem_cons.mp member with rfl | later
      · exact ⟨lastKeptFee, fee, reduced, keeps, rfl⟩
      · exact ih later

/-- What the composer has measured of its base, where nothing has saturated. -/
structure Measured (sizing : Sizing) (base : Psbt) (funding : Funding) : Prop where
  complete : ∀ input ∈ base.inputs, ∃ utxo, input.witnessUtxo = some utxo
  fund : ∃ output, base.unsignedTx.output[funding.fundIndex]? = some output ∧ output.value = funding.fundValue
  exchanged : outputSum base.unsignedTx + funding.baseFee = inputSum base
  word : inputSum base ≤ maxWord
  ceiling : funding.feeCeiling = inputSum base / 100
  relay : ∃ vsize, maximumFinalizedVsizeFor sizing base.unsignedTx = .ok vsize ∧
    funding.minimumDelta = satMul vsize escapeRbfIncrementalRelaySatVb ∧ 0 < funding.minimumDelta

section Measured

variable {maxWeight : Nat} {base : Psbt} {funding : Funding} {lastKeptFee fee reduced : Nat}

/-- A rung pays its fee exactly. -/
theorem Measured.exchanged_at (measured : Measured (vaultSizing maxWeight) base funding)
    (keeps : Keeps funding lastKeptFee fee reduced) :
    outputSum (atValue base funding.fundIndex reduced).unsignedTx + fee = inputSum base := by
  obtain ⟨output, found, value⟩ := measured.fund
  have moved := outputSum_atValue found reduced
  have exchanged := measured.exchanged
  have raises := keeps.raises
  have pays := keeps.pays
  omega

/-- The node reads off a rung the fee that the composer gave it. -/
theorem Measured.psbtFee_at (measured : Measured (vaultSizing maxWeight) base funding)
    (keeps : Keeps funding lastKeptFee fee reduced) :
    psbtFee (atValue base funding.fundIndex reduced) = some fee := by
  have exchanged := measured.exchanged_at keeps
  have word := measured.word
  have complete : ∀ input ∈ (atValue base funding.fundIndex reduced).inputs, ∃ utxo, input.witnessUtxo = some utxo :=
    measured.complete
  have declared : ((atValue base funding.fundIndex reduced).inputs.filterMap PsbtInput.witnessUtxo |>.map
      TxOut.value).sum = inputSum base := rfl
  unfold psbtFee
  rw [foldlM_declared complete 0 (Nat.zero_le _), declared, satAdd_zero word]
  simp only [Option.map_some, Option.some.injEq]
  have paid := satOutputs_eq (atValue base funding.fundIndex reduced).unsignedTx
  rw [satAdd_zero (by omega)] at paid
  unfold satOutputs at paid
  rw [paid]
  omega

theorem Measured.lowers (measured : Measured (vaultSizing maxWeight) base funding)
    (keeps : Keeps funding lastKeptFee fee reduced) :
    Lowers base.unsignedTx (atValue base funding.fundIndex reduced).unsignedTx := by
  obtain ⟨output, found, value⟩ := measured.fund
  have pays := keeps.pays
  have lowers := lowers_atValue base funding.fundIndex (show reduced ≤ output.value by omega)
  rw [atValue_self found] at lowers
  exact lowers

/-- A kept rung pays more than the base, and no more than the policy's cap. -/
theorem Measured.dearer (measured : Measured (vaultSizing maxWeight) base funding)
    (keeps : Keeps funding lastKeptFee fee reduced) :
    Dearer base (atValue base funding.fundIndex reduced) ∧
      100 * (inputSum base - outputSum (atValue base funding.fundIndex reduced).unsignedTx) ≤
        maxFeePercent * inputSum base := by
  refine ⟨⟨rfl, rfl, rfl, (measured.lowers keeps).outputs⟩, ?_⟩
  have exchanged := measured.exchanged_at keeps
  have under := keeps.capped
  rw [measured.ceiling] at under
  have percent : maxFeePercent = 10 := rfl
  rw [percent]
  omega

/-- The node takes each kept rung over the one kept before it, whose fund output holds `held`. -/
theorem Measured.checkBumps (measured : Measured (vaultSizing maxWeight) base funding) (rung : Nat)
    (multipliers : List Nat) {held : Nat} (reached : funding.baseFee ≤ lastKeptFee)
    (left : held + (lastKeptFee - funding.baseFee) = funding.fundValue) :
    Node.checkBumps (vaultSizing maxWeight) base.unsignedTx rung lastKeptFee
      (valuesOf (atValue base funding.fundIndex held).unsignedTx)
      (composeRungs base funding lastKeptFee multipliers) = .ok () := by
  induction multipliers generalizing rung lastKeptFee held with
  | nil => rfl
  | cons multiplier rest ih =>
    rcases composeRungs_cons base funding lastKeptFee multiplier rest with skipped | ⟨fee, reduced, keeps, kept⟩
    · rw [skipped]
      exact ih rung reached left
    · obtain ⟨vsize, bounded, minimum, positive⟩ := measured.relay
      have relays := keeps.relays
      have raises := keeps.raises
      have pays := keeps.pays
      have lowers : Lowers (atValue base funding.fundIndex held).unsignedTx
          (atValue base funding.fundIndex reduced).unsignedTx :=
        lowers_atValue base funding.fundIndex (by omega)
      have under := measured.lowers keeps
      have climbs : Climbed (vaultSizing maxWeight) base.unsignedTx lastKeptFee
          (valuesOf (atValue base funding.fundIndex held).unsignedTx) (atValue base funding.fundIndex reduced) fee := by
        refine ⟨rfl, scriptsOf_eq under.outputs, raisesValue_of_lowers lowers, measured.psbtFee_at keeps, vsize, ?_, ?_⟩
        · exact (under.bound_eq maxWeight).trans bounded
        · omega
      have first := checkBump_of_climbed rung climbs
      rw [kept, Node.checkBumps, first]
      exact ih (rung + 1) raises.le pays

end Measured

/-! ### The ladder -/

/-- What the composer has run on when it hands on a ladder. -/
theorem escapeFeeLadder_ok {escape base : Psbt} {rungs : List Psbt} {maxWeight : Nat}
    (complete : ∀ input ∈ escape.inputs, ∃ utxo, input.witnessUtxo = some utxo) (fits : inputSum escape ≤ maxWord)
    (covers : outputSum escape.unsignedTx ≤ inputSum escape)
    (composed : escapeFeeLadder escape maxWeight = .ok (base, rungs)) :
    (rungs = [] ∧ base = escape) ∨
      (rungs ≠ [] ∧ base = signalling escape ∧ ∃ funding output,
        Largest base.unsignedTx.output funding.fundIndex output ∧ output.value = funding.fundValue ∧
          Measured (vaultSizing maxWeight) base funding ∧
          rungs = composeRungs base funding funding.baseFee escapeBumpMultipliers) := by
  have declared : ((escape.inputs.filterMap PsbtInput.witnessUtxo).map TxOut.value).sum = inputSum escape := rfl
  have paid := satOutputs_eq escape.unsignedTx
  rw [satAdd_zero (covers.trans fits)] at paid
  unfold satOutputs at paid
  unfold escapeFeeLadder at composed
  rw [foldlM_declared complete 0 (Nat.zero_le _), declared, satAdd_zero fits] at composed
  simp only at composed
  cases funds : fundOutput escape.unsignedTx.output with
  | none =>
    rw [funds] at composed
    cases composed
    exact Or.inl ⟨rfl, rfl⟩
  | some found =>
    obtain ⟨fund, index⟩ := found
    rw [funds] at composed
    simp only [paid] at composed
    cases measured : escapeReplacementMinFeeDelta (vaultSizing maxWeight) (signalling escape).unsignedTx with
    | error e =>
      rw [measured] at composed
      cases composed
    | ok minimumDelta =>
      rw [measured] at composed
      simp only at composed
      split_ifs at composed with none_kept
      · cases composed
        exact Or.inl ⟨rfl, rfl⟩
      · cases composed
        have largest : Largest (signalling escape).unsignedTx.output index fund := fundOutput_some funds
        obtain ⟨vsize, bounded, minimum⟩ := escapeReplacementMinFeeDelta_ok measured
        have positive : 0 < minimumDelta := by
          rw [minimum, relayCost_eq bounded]
          exact Nat.mul_pos (maximumFinalizedVsizeFor_range bounded).1 (by decide)
        refine Or.inr ⟨by simpa using none_kept, rfl, ⟨_, _, minimumDelta, index, fund.value⟩, fund, largest, rfl, ?_, rfl⟩
        refine ⟨complete, ⟨fund, largest.found, rfl⟩, ?_, fits, ?_, vsize, bounded, minimum, positive⟩
        · exact Nat.add_sub_of_le covers
        · have percent : satMul (inputSum escape) escapeBumpMaxFeePct = inputSum escape := by
            have rate : escapeBumpMaxFeePct = 1 := rfl
            unfold satMul
            rw [rate]
            omega
          rw [percent]
          rfl

/-- A ladder the composer hands on: what the node asks of it, and what it costs. -/
structure Composed (params : CheckParams) (sizing : Sizing) (escape base : Psbt) (rungs : List Psbt) : Prop where
  signals : base = signalling escape
  accepted : ensureEscapeLadder sizing base rungs false = .ok ()
  few : rungs.length ≤ maxEscapeBumps
  lowered : ∃ index output, Largest base.unsignedTx.output index output ∧ ∀ rung ∈ rungs, ∃ value,
    escapeBumpMinOutputSat ≤ value ∧ value < output.value ∧ rung = atValue base index value
  fees : ∀ rung ∈ rungs, ∃ fee, psbtFee rung = some fee ∧ outputSum rung.unsignedTx + fee = inputSum escape ∧
    100 * fee ≤ escapeBumpMaxFeePct * inputSum escape
  evaluated : ∀ rung ∈ base :: rungs, evaluate rung params = .ok ()
  escapes : ∀ rung ∈ base :: rungs, ∃ flow, classify rung params = .ok ⟨.escape, flow⟩

theorem shaped_signalling {escape : Psbt} (final : escape.unsignedTx.lockTime = 0) {tx : Transaction}
    (version : tx.version = escape.unsignedTx.version) (lockTime : tx.lockTime = escape.unsignedTx.lockTime)
    (inputs : tx.input = (signalling escape).unsignedTx.input) : Shaped (signalling escape).unsignedTx tx := by
  refine ⟨version, lockTime.trans final, ?_⟩
  intro input member
  rw [inputs] at member
  obtain ⟨_, _, rfl⟩ := List.mem_map.mp member
  rfl

theorem dearer_signalling (escape : Psbt) : Dearer escape (signalling escape) :=
  ⟨rfl, rfl, List.length_map _, List.forall₂_same.mpr (fun _ _ => ⟨rfl, le_rfl⟩)⟩

/-- Every ladder the composer hands on is one that a node of the same weight accepts, rung by rung; with no rung the
escape is handed on as it came. -/
theorem composed_ladder_is_accepted (escape : Psbt) (params : CheckParams) (maxWeight flow : Nat)
    (passed : evaluate escape params = .ok ()) (classed : classify escape params = .ok ⟨.escape, flow⟩)
    (final : escape.unsignedTx.lockTime = 0) (fits : inputSum escape < 2 ^ 64) (base : Psbt) (rungs : List Psbt)
    (composed : escapeFeeLadder escape maxWeight = .ok (base, rungs)) :
    (rungs = [] → base = escape) ∧ (rungs ≠ [] → Composed params (vaultSizing maxWeight) escape base rungs) := by
  obtain ⟨consistent, _, _, _, fee⟩ := (evaluate_ok_iff _ _).mp passed
  have complete : ∀ input ∈ escape.inputs, ∃ utxo, input.witnessUtxo = some utxo := by
    have pass := (decides_checkPsbtConsistency escape).ok_iff.mp consistent
    simp only [consistencyConditions, pass_cons] at pass
    exact pass.2.2.2.2.1
  have sums := (decides_checkFee escape).ok_iff.mp fee
  simp only [pass_cons] at sums
  obtain ⟨covers, capped, _⟩ := sums
  have word : inputSum escape ≤ maxWord := Nat.le_of_lt_succ fits
  rcases escapeFeeLadder_ok complete word covers composed with ⟨rfl, unchanged⟩ | ⟨kept, rfl, funding, fund, largest,
    value, measured, rfl⟩
  · exact ⟨fun _ => unchanged, fun absent => absurd rfl absent⟩
  refine ⟨fun absent => absurd absent kept, fun _ => ?_⟩
  have base_passed : evaluate (signalling escape) params = .ok () :=
    (dearer_signalling escape).evaluate passed capped
  have base_fee : psbtFee (signalling escape) = some funding.baseFee := by
    rw [(psbtFee_of_evaluate base_passed).1, satOutputs_eq, declaredTotal, satAdd_zero measured.word, satAdd_zero]
    · have exchanged := measured.exchanged
      rw [Option.some.injEq]
      omega
    · exact (Nat.le_add_right _ _).trans (measured.exchanged.trans_le measured.word)
  have dearer : ∀ rung ∈ composeRungs (signalling escape) funding funding.baseFee escapeBumpMultipliers,
      Dearer (signalling escape) rung ∧ 100 * (inputSum (signalling escape) - outputSum rung.unsignedTx) ≤
        maxFeePercent * inputSum (signalling escape) := by
    intro rung member
    obtain ⟨_, _, _, keeps, rfl⟩ := mem_composeRungs member
    exact measured.dearer keeps
  refine ⟨rfl, ?_, length_composeRungs _ _ _ _, ⟨funding.fundIndex, fund, largest, ?_⟩, ?_, ?_, ?_⟩
  · rw [ensureEscapeLadder_ok_iff _ kept base_fee]
    constructor
    · rw [List.forall_mem_cons]
      refine ⟨shaped_signalling final rfl rfl rfl, ?_⟩
      intro rung member
      obtain ⟨_, _, _, _, rfl⟩ := mem_composeRungs member
      exact shaped_signalling final rfl rfl rfl
    · have climbs := measured.checkBumps 1 escapeBumpMultipliers (le_refl funding.baseFee)
        (show fund.value + _ = _ by omega)
      rw [atValue_self largest.found] at climbs
      exact climbs
  · intro rung member
    obtain ⟨_, _, reduced, keeps, rfl⟩ := mem_composeRungs member
    have raises := keeps.raises
    have pays := keeps.pays
    exact ⟨reduced, keeps.floor, by omega, rfl⟩
  · intro rung member
    obtain ⟨_, fee, reduced, keeps, rfl⟩ := mem_composeRungs member
    have under := keeps.capped
    rw [measured.ceiling] at under
    have total : inputSum (signalling escape) = inputSum escape := rfl
    have rate : escapeBumpMaxFeePct = 1 := rfl
    refine ⟨fee, measured.psbtFee_at keeps, measured.exchanged_at keeps, ?_⟩
    rw [rate]
    omega
  · rw [List.forall_mem_cons]
    exact ⟨base_passed, fun rung member => (dearer rung member).1.evaluate base_passed (dearer rung member).2⟩
  · obtain ⟨_, base_classed⟩ := (dearer_signalling escape).classify classed
    rw [List.forall_mem_cons]
    exact ⟨⟨_, base_classed⟩, fun rung member => (dearer rung member).1.classify base_classed⟩

namespace LadderSample

/-- One coin of the vault, swept to the escape wallet but for 10,000 sat. -/
def escape : Psbt :=
  { unsignedTx := ⟨2, 0, [⟨⟨[], 0⟩, sequenceMax⟩], [⟨99990000, [3]⟩]⟩
    inputs := [⟨some ⟨100000000, [1]⟩, ∅, none, none, none, none, none⟩]
    outputs := [⟨∅⟩] }

def base : Psbt := signalling escape

/-- Four, sixteen and sixty-four times the fee. -/
def rungs : List Psbt := [atValue base 0 99960000, atValue base 0 99840000, atValue base 0 99360000]

end LadderSample

theorem composed_ladder_is_accepted_sample :
    Composed Policy.Sample.params (vaultSizing 100) LadderSample.escape LadderSample.base LadderSample.rungs :=
  (composed_ladder_is_accepted LadderSample.escape Policy.Sample.params 100 0 rfl rfl rfl (by decide) LadderSample.base
    LadderSample.rungs rfl).2 (by decide)

end BtcPolicy.Client
