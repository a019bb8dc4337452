import BtcPolicy.Policy
import BtcPolicy.Lib.Checks
import BtcPolicy.Lib.Results

/-! What the pure checks decide, said over descriptors and unbounded sums: the conditions of `evaluate` in the order
in which they are checked, and the class of a transaction by the outputs outside the vault. -/

namespace BtcPolicy.Policy
open FiniteMap Word Bitcoin Checks Results

/-! ### Derivation -/

/-- Some chain of the descriptor derives the script at an index within the bound. -/
def Derives (descriptor : Descriptor) (max : Nat) (spk : Script) : Prop :=
  ∃ singles, descriptor.intoSingleDescriptors = some singles ∧
    ∃ single ∈ singles, ∃ index ≤ (if single.hasWildcard then max else 0), single.derivedScript index = some spk

theorem derivesWithin_iff (descriptor : Descriptor) (spk : Script) (max : Nat) :
    derivesWithin descriptor spk max = true ↔ Derives descriptor max spk := by
  unfold derivesWithin Derives
  cases descriptor.intoSingleDescriptors with
  | none => simp
  | some singles => simp

instance (descriptor : Descriptor) (max : Nat) (spk : Script) : Decidable (Derives descriptor max spk) :=
  decidable_of_iff _ (derivesWithin_iff descriptor spk max)

section

variable (params : CheckParams)

def DerivesVault (spk : Script) : Prop := Derives params.vault params.maxDerivationIndex spk

def DerivesEscape (spk : Script) : Prop :=
  ∃ escape ∈ params.escape, Derives escape params.maxDerivationIndex spk

def DerivesAllowed (spk : Script) : Prop :=
  ∃ descriptor ∈ params.allowed, Derives descriptor params.maxDerivationIndex spk

theorem paysVault_iff (spk : Script) : params.paysVault spk = true ↔ DerivesVault params spk :=
  derivesWithin_iff _ _ _

theorem paysEscape_iff (spk : Script) : params.paysEscape spk = true ↔ DerivesEscape params spk := by
  unfold CheckParams.paysEscape DerivesEscape
  cases params.escape with
  | none => simp
  | some escape => simp [derivesWithin_iff]

theorem paysAllowed_iff (spk : Script) : params.paysAllowed spk = true ↔ DerivesAllowed params spk := by
  unfold CheckParams.paysAllowed DerivesAllowed
  simp [derivesWithin_iff]

instance (spk : Script) : Decidable (DerivesVault params spk) := decidable_of_iff _ (paysVault_iff params spk)

instance (spk : Script) : Decidable (DerivesEscape params spk) := decidable_of_iff _ (paysEscape_iff params spk)

end

/-! ### The conditions of `evaluate` -/

/-- The exact sum of the outputs that derive from neither the vault nor the escape wallet. -/
def exactHotOutflow (psbt : Psbt) (params : CheckParams) : Nat :=
  ((psbt.unsignedTx.output.filter (fun txout =>
    decide (¬DerivesVault params txout.scriptPubkey ∧ ¬DerivesEscape params txout.scriptPubkey))).map TxOut.value).sum

def Recognized (params : CheckParams) (txout : TxOut) : Prop :=
  DerivesAllowed params txout.scriptPubkey ∨ DerivesVault params txout.scriptPubkey

/-- The code for the first output that is not recognized: what its map labels as change is reported as such. -/
def UnrecognizedCode (psbt : Psbt) (params : CheckParams) (code : ViolationCode) : Prop :=
  ∃ before txout map after, psbt.unsignedTx.output.zip psbt.outputs = before ++ (txout, map) :: after ∧
    (∀ earlier ∈ before, Recognized params earlier.1) ∧ ¬Recognized params txout ∧
    code = if map.bip32Derivation.keys = [] then .destNotAllowed else .changeNotDerivable

/-- A condition that is refused with one code. -/
def coded (asks : Prop) (code : ViolationCode) : Check Violation := ⟨asks, fun violation => violation.code = code⟩

def consistencyConditions (psbt : Psbt) : List (Check Violation) :=
  [coded (psbt.unsignedTx.input ≠ []) .psbtInconsistent,
    coded (psbt.unsignedTx.output ≠ []) .psbtInconsistent,
    coded (psbt.inputs.length = psbt.unsignedTx.input.length) .psbtInconsistent,
    coded (psbt.outputs.length = psbt.unsignedTx.output.length) .psbtInconsistent,
    coded (∀ input ∈ psbt.inputs, ∃ utxo, input.witnessUtxo = some utxo) .psbtInconsistent]

/-- What `evaluate` asks, in the order in which it asks, with the code of each refusal. -/
def conditions (psbt : Psbt) (params : CheckParams) : List (Check Violation) :=
  consistencyConditions psbt ++
    [coded (∀ input ∈ psbt.inputs, ∀ utxo, input.witnessUtxo = some utxo → DerivesVault params utxo.scriptPubkey)
        .unknownInput,
      ⟨∀ txout ∈ psbt.unsignedTx.output, Recognized params txout,
        fun violation => UnrecognizedCode psbt params violation.code⟩,
      coded (exactHotOutflow psbt params ≤ params.hotMaxPerTx) .hotBudgetExceeded,
      coded (outputSum psbt.unsignedTx ≤ inputSum psbt) .psbtInconsistent,
      coded (100 * (inputSum psbt - outputSum psbt.unsignedTx) ≤ maxFeePercent * inputSum psbt) .feeExceedsCap]

section Conditions

variable (psbt : Psbt) (params : CheckParams)

theorem decides_checkPsbtConsistency : Decides (checkPsbtConsistency psbt) (consistencyConditions psbt) := by
  unfold checkPsbtConsistency consistencyConditions
  simp only
  apply decides_guard (by simp [coded]) rfl
  intro _
  apply decides_guard (by simp [coded]) rfl
  intro _
  apply decides_guard (by simp [coded]) rfl
  intro _
  apply decides_guard (by simp [coded]) rfl
  intro _
  apply decides_single
  · intro complete
    have none : psbt.inputs.findIdx? (fun input => input.witnessUtxo.isNone) = none := by
      rw [List.findIdx?_eq_none_iff]
      intro input member
      obtain ⟨utxo, known⟩ := complete input member
      simp [known]
    rw [none]
  · intro incomplete
    cases found : psbt.inputs.findIdx? (fun input => input.witnessUtxo.isNone) with
    | none =>
      refine absurd ?_ incomplete
      intro input member
      rw [List.findIdx?_eq_none_iff] at found
      exact Option.isSome_iff_exists.mp (by simpa using found input member)
    | some index => exact ⟨_, rfl, rfl⟩

theorem checkInput_ok_iff (index : Nat) (input : PsbtInput) :
    checkInput params index input = .ok () ↔
      ∀ utxo, input.witnessUtxo = some utxo → DerivesVault params utxo.scriptPubkey := by
  unfold checkInput
  cases input.witnessUtxo with
  | none => simp
  | some utxo =>
    by_cases owned : params.paysVault utxo.scriptPubkey = true
    · simp [owned, (paysVault_iff params _).mp owned]
    · simp [owned, ← paysVault_iff]

theorem checkInputs_code {psbt : Psbt} {params : CheckParams} {violation : Violation}
    (failed : checkInputs psbt params = .error violation) : violation.code = .unknownInput := by
  obtain ⟨index, input, _, refused⟩ := firstError_some failed
  unfold checkInput at refused
  split at refused
  · cases refused
  · split_ifs at refused
    cases refused
    rfl

theorem decides_checkInputs :
    Decides (checkInputs psbt params)
      [coded (∀ input ∈ psbt.inputs, ∀ utxo, input.witnessUtxo = some utxo → DerivesVault params utxo.scriptPubkey)
        .unknownInput] := by
  have owned := firstError_ok_iff _ (checkInput_ok_iff params) 0 psbt.inputs
  apply decides_single owned.mpr
  intro foreign
  cases failed : checkInputs psbt params with
  | ok _ => exact absurd (owned.mp failed) foreign
  | error violation => exact ⟨violation, rfl, checkInputs_code failed⟩

theorem checkDestination_ok_iff (index : Nat) (output : TxOut × PsbtOutput) :
    checkDestination params index output = .ok () ↔ Recognized params output.1 := by
  unfold checkDestination Recognized
  simp only
  rw [← paysAllowed_iff, ← paysVault_iff]
  by_cases allowed : params.paysAllowed output.1.scriptPubkey = true
  · simp [allowed]
  · by_cases vault : params.paysVault output.1.scriptPubkey = true
    · simp [vault]
    · simp [allowed, vault]

theorem checkDestination_code {index : Nat} {output : TxOut × PsbtOutput} {violation : Violation}
    (refused : checkDestination params index output = .error violation) :
    violation.code = if output.2.bip32Derivation.keys = [] then .destNotAllowed else .changeNotDerivable := by
  unfold checkDestination at refused
  simp only at refused
  split_ifs at refused with allowed vault labeled
  · cases refused
    rw [if_neg]
    simpa using labeled
  · cases refused
    rw [if_pos]
    simpa using labeled

/-- A consistent PSBT has an output map for each output. -/
theorem outputs_of_consistent {psbt : Psbt} (passed : checkPsbtConsistency psbt = .ok ()) :
    psbt.outputs.length = psbt.unsignedTx.output.length := by
  have consistent := (decides_checkPsbtConsistency psbt).ok_iff.mp passed
  exact consistent (coded (psbt.outputs.length = psbt.unsignedTx.output.length) .psbtInconsistent)
    (by simp [consistencyConditions])

/-- With a map for each output, the check sees every output. -/
theorem checkDestinations_ok_iff (mapped : psbt.outputs.length = psbt.unsignedTx.output.length) :
    checkDestinations psbt params = .ok () ↔ ∀ txout ∈ psbt.unsignedTx.output, Recognized params txout := by
  have outputs : (psbt.unsignedTx.output.zip psbt.outputs).map Prod.fst = psbt.unsignedTx.output :=
    List.map_fst_zip mapped.ge
  conv_rhs => rw [← outputs]
  rw [List.forall_mem_map]
  exact firstError_ok_iff _ (checkDestination_ok_iff params) 0 _

theorem decides_checkDestinations (mapped : psbt.outputs.length = psbt.unsignedTx.output.length) :
    Decides (checkDestinations psbt params)
      [⟨∀ txout ∈ psbt.unsignedTx.output, Recognized params txout,
        fun violation => UnrecognizedCode psbt params violation.code⟩] := by
  have recognized := checkDestinations_ok_iff psbt params mapped
  apply decides_single recognized.mpr
  intro foreign
  cases failed : checkDestinations psbt params with
  | ok _ => exact absurd (recognized.mp failed) foreign
  | error violation =>
    refine ⟨violation, rfl, ?_⟩
    obtain ⟨index, before, ⟨txout, map⟩, after, same, earlier, refused⟩ := firstError_first failed
    refine ⟨before, txout, map, after, same, ?_, ?_, checkDestination_code params refused⟩
    · intro pair member
      obtain ⟨place, passed⟩ := earlier pair member
      exact (checkDestination_ok_iff params place pair).mp passed
    · intro here
      rw [(checkDestination_ok_iff params index (txout, map)).mpr here] at refused
      cases refused

/-- The saturating meter is the exact one, cut off at the largest word. -/
theorem hotOutflow_eq : hotOutflow psbt params = satAdd 0 (exactHotOutflow psbt params) := by
  apply foldl_filter_eq_satAdd
  · intro total txout
    simp only [paysVault_iff, paysEscape_iff]
    by_cases vault : DerivesVault params txout.scriptPubkey
    · simp [vault]
    · by_cases escape : DerivesEscape params txout.scriptPubkey
      · simp [escape]
      · simp [vault, escape]
  · exact Nat.zero_le _

/-- A budget below the largest word sees through the saturation. -/
theorem hotOutflow_le_iff {budget : Nat} (below : budget < maxWord) :
    hotOutflow psbt params ≤ budget ↔ exactHotOutflow psbt params ≤ budget := by
  rw [hotOutflow_eq, satAdd]
  omega

theorem decides_checkHotBudget (below : params.hotMaxPerTx < maxWord) :
    Decides (checkHotBudget psbt params)
      [coded (exactHotOutflow psbt params ≤ params.hotMaxPerTx) .hotBudgetExceeded] := by
  unfold checkHotBudget
  simp only
  apply decides_guard _ rfl (fun _ => decides_nil)
  show exactHotOutflow psbt params ≤ params.hotMaxPerTx ↔ _
  rw [← hotOutflow_le_iff psbt params below]
  omega

theorem decides_checkFee :
    Decides (checkFee psbt)
      [coded (outputSum psbt.unsignedTx ≤ inputSum psbt) .psbtInconsistent,
        coded (100 * (inputSum psbt - outputSum psbt.unsignedTx) ≤ maxFeePercent * inputSum psbt) .feeExceedsCap] := by
  unfold checkFee
  simp only
  apply decides_guard (by simp [coded]) rfl
  intro _
  apply decides_guard _ rfl (fun _ => decides_nil)
  show 100 * _ ≤ _ ↔ _
  omega

theorem decides_evaluate (below : params.hotMaxPerTx < maxWord) :
    Decides (evaluate psbt params) (conditions psbt params) := by
  unfold evaluate conditions
  apply decides_bind (decides_checkPsbtConsistency psbt)
  intro consistent
  have mapped := outputs_of_consistent ((decides_checkPsbtConsistency psbt).ok_iff.mpr consistent)
  apply decides_bind (decides_checkInputs psbt params)
  intro _
  apply decides_bind (decides_checkDestinations psbt params mapped)
  intro _
  exact decides_bind (decides_checkHotBudget psbt params below) (fun _ => decides_checkFee psbt)

end Conditions

/-- A spend passes where each of its checks passes. -/
theorem evaluate_ok_iff (psbt : Psbt) (params : CheckParams) :
    evaluate psbt params = .ok () ↔
      checkPsbtConsistency psbt = .ok () ∧ checkInputs psbt params = .ok () ∧ checkDestinations psbt params = .ok () ∧
        checkHotBudget psbt params = .ok () ∧ checkFee psbt = .ok () := by
  unfold evaluate
  constructor
  · intro passed
    obtain ⟨_, consistent, passed⟩ := ok_of_bind passed
    obtain ⟨_, owned, passed⟩ := ok_of_bind passed
    obtain ⟨_, recognized, passed⟩ := ok_of_bind passed
    obtain ⟨_, budget, fee⟩ := ok_of_bind passed
    exact ⟨consistent, owned, recognized, budget, fee⟩
  · rintro ⟨consistent, owned, recognized, budget, fee⟩
    rw [consistent, owned, recognized, budget, fee]
    rfl

theorem hotOutflow_le_of_evaluate (psbt : Psbt) (params : CheckParams) (passed : evaluate psbt params = .ok ()) :
    hotOutflow psbt params ≤ params.hotMaxPerTx := by
  obtain ⟨_, _, _, budget, _⟩ := (evaluate_ok_iff psbt params).mp passed
  unfold checkHotBudget at budget
  simp only at budget
  split_ifs at budget with exceeds
  exact Nat.le_of_not_lt exceeds

/-- `evaluate` accepts exactly where every condition holds over the exact sums, and otherwise reports the code of
the first that does not. -/
theorem evaluate_exact (psbt : Psbt) (params : CheckParams) (below : params.hotMaxPerTx < 2 ^ 64 - 1) :
    (evaluate psbt params = .ok () ↔ Pass (conditions psbt params)) ∧
      ∀ violation, evaluate psbt params = .error violation → Refused (conditions psbt params) violation := by
  have decides := decides_evaluate psbt params below
  exact ⟨decides.ok_iff, fun _ failed => decides.refused failed⟩

namespace Sample

def descriptor (spk : Script) : Descriptor := ⟨some [⟨false, fun _ => some spk⟩]⟩

/-- The vault pays `[1]`, the hot wallet `[2]` and the escape wallet `[3]`. -/
def params : CheckParams := ⟨descriptor [1], [descriptor [2], descriptor [3]], some (descriptor [3]), 10, 500⟩

/-- 500 to the hot wallet, 450 back, and 50 for the fee. -/
def spend : Psbt :=
  { unsignedTx := ⟨2, 0, [⟨⟨[], 0⟩, 0⟩], [⟨500, [2]⟩, ⟨450, [1]⟩]⟩
    inputs := [⟨some ⟨1000, [1]⟩, ∅, none, none, none, none, none⟩]
    outputs := [⟨∅⟩, ⟨∅⟩] }

end Sample

theorem evaluate_exact_spend : Pass (conditions Sample.spend Sample.params) :=
  (evaluate_exact Sample.spend Sample.params (by decide)).1.mp rfl

/-! ### The class -/

/-- The outputs that do not derive from the vault, in order. -/
def outside (psbt : Psbt) (params : CheckParams) : List TxOut :=
  psbt.unsignedTx.output.filter (fun txout => decide (¬DerivesVault params txout.scriptPubkey))

/-- A result without the wording of its error. -/
def wordless {α : Type} (result : Except Violation α) : Except (ViolationCode × String) α :=
  result.mapError (fun violation => (violation.code, violation.check))

theorem foldl_flagScript (params : CheckParams) (scripts : List Script) (flags : Bool × Bool × Bool) :
    scripts.foldl (flagScript params) flags =
      (flags.1 && scripts.all (fun spk => params.paysVault spk || !params.paysEscape spk),
        flags.2.1 && scripts.all (fun spk => params.paysVault spk || (params.paysEscape spk || !params.paysAllowed spk)),
        flags.2.2 && scripts.all (fun spk => params.paysVault spk || (params.paysEscape spk || params.paysAllowed spk))) := by
  induction scripts generalizing flags with
  | nil => simp
  | cons spk rest ih =>
    rw [List.foldl_cons, ih]
    simp only [List.all_cons, flagScript]
    cases params.paysVault spk <;> cases params.paysEscape spk <;> cases params.paysAllowed spk <;>
      simp

section Class

variable (psbt : Psbt) (params : CheckParams)

theorem mem_outside {txout : TxOut} :
    txout ∈ outside psbt params ↔ txout ∈ psbt.unsignedTx.output ∧ ¬DerivesVault params txout.scriptPubkey := by
  simp [outside]

/-- Each flag is a question about the outputs outside the vault. -/
theorem flags_outside :
    (sortOutputs params psbt.unsignedTx.output).flags =
      ((outside psbt params).all (fun txout => !params.paysEscape txout.scriptPubkey),
        (outside psbt params).all (fun txout =>
          params.paysEscape txout.scriptPubkey || !params.paysAllowed txout.scriptPubkey),
        (outside psbt params).all (fun txout =>
          params.paysEscape txout.scriptPubkey || params.paysAllowed txout.scriptPubkey)) := by
  have inside : ∀ spk, (!decide (¬DerivesVault params spk)) = params.paysVault spk := by
    intro spk
    rw [Bool.eq_iff_iff, paysVault_iff]
    simp
  rw [flags_sortOutputs, foldl_flagScript, outside]
  simp only [List.all_filter, List.all_map, inside, Bool.true_and]
  rfl

/-- The class counts an output that is allowed and pays neither the vault nor the escape wallet. -/
def CountsHot (params : CheckParams) (txout : TxOut) : Prop :=
  ¬DerivesVault params txout.scriptPubkey ∧ ¬DerivesEscape params txout.scriptPubkey ∧
    params.paysAllowed txout.scriptPubkey = true

instance : DecidablePred (CountsHot params) := fun _ => inferInstanceAs (Decidable (_ ∧ _))

theorem hotSat_eq (outputs : List TxOut) :
    (sortOutputs params outputs).hotSat =
      satAdd 0 ((outputs.filter (fun txout => decide (CountsHot params txout))).map TxOut.value).sum := by
  have metered : (sortOutputs params outputs).hotSat =
      outputs.zipIdx.foldl (fun sat output => if CountsHot params output.1 then satAdd sat output.1.value else sat) 0 := by
    symm
    show List.foldl _ (Destinations.hotSat ⟨[], [], [], 0⟩) _ = _
    apply List.foldl_hom Destinations.hotSat
    intro sorted output
    simp only [CountsHot, ← paysVault_iff, ← paysEscape_iff]
    cases params.paysVault output.1.scriptPubkey <;> cases params.paysEscape output.1.scriptPubkey <;>
      cases params.paysAllowed output.1.scriptPubkey <;> rfl
  have outputsOnly : (outputs.zipIdx.map Prod.fst).foldl
      (fun sat txout => if CountsHot params txout then satAdd sat txout.value else sat) 0 =
      (sortOutputs params outputs).hotSat := by
    rw [metered, List.foldl_map]
  rw [← outputsOnly, List.zipIdx_map_fst]
  exact foldl_filter_eq_satAdd (CountsHot params) (fun _ _ => rfl) outputs 0 (Nat.zero_le _)

/-- The class is the one the flags leave, with what the hot outputs move. -/
theorem classify_eq :
    wordless (classify psbt params) =
      match classOfFlags (sortOutputs params psbt.unsignedTx.output).flags with
      | some txClass => .ok ⟨txClass, (sortOutputs params psbt.unsignedTx.output).hotSat⟩
      | none => .error (.psbtInconsistent, "transaction_class") := by
  unfold classify Destinations.flags
  generalize sortOutputs params psbt.unsignedTx.output = sorted
  simp only
  cases unrecognized : sorted.unrecognized.isEmpty with
  | false => cases sorted.hot.isEmpty <;> cases sorted.escape.isEmpty <;> rfl
  | true =>
    simp only [Bool.not_true, Bool.false_eq_true, if_false]
    cases sorted.hot.isEmpty <;> cases sorted.escape.isEmpty <;> rfl

theorem classify_ok_iff (classified : Classification) :
    classify psbt params = .ok classified ↔
      classOfFlags (sortOutputs params psbt.unsignedTx.output).flags = some classified.txClass ∧
        classified.hotOutflow = (sortOutputs params psbt.unsignedTx.output).hotSat := by
  have whole := classify_eq psbt params
  obtain ⟨txClass, flow⟩ := classified
  cases flags : classOfFlags (sortOutputs params psbt.unsignedTx.output).flags with
  | none =>
    rw [flags] at whole
    cases result : classify psbt params with
    | ok other =>
      rw [result] at whole
      cases whole
    | error violation => simp
  | some other =>
    rw [flags] at whole
    cases result : classify psbt params with
    | ok found =>
      rw [result] at whole
      obtain rfl : found = ⟨other, (sortOutputs params psbt.unsignedTx.output).hotSat⟩ := by
        simpa [wordless, Except.mapError] using whole
      simp [eq_comm]
    | error violation =>
      rw [result] at whole
      cases whole

/-- The class as a question about the outputs outside the vault. -/
def Classed (params : CheckParams) (destinations : List TxOut) : TxClass → Prop
  | .refresh => destinations = []
  | .escape => destinations ≠ [] ∧ ∀ txout ∈ destinations, DerivesEscape params txout.scriptPubkey
  | .hot => destinations ≠ [] ∧ ∀ txout ∈ destinations,
      DerivesAllowed params txout.scriptPubkey ∧ ¬DerivesEscape params txout.scriptPubkey

theorem classOfFlags_eq_some {noEscape noHot known : Bool} {txClass : TxClass} :
    classOfFlags (noEscape, noHot, known) = some txClass ↔
      known = true ∧ match txClass with
        | .refresh => noEscape = true ∧ noHot = true
        | .escape => ¬noEscape = true ∧ noHot = true
        | .hot => noEscape = true ∧ ¬noHot = true := by
  cases noEscape <;> cases noHot <;> cases known <;> cases txClass <;> simp [classOfFlags]

theorem classOfFlags_iff (txClass : TxClass) :
    classOfFlags (sortOutputs params psbt.unsignedTx.output).flags = some txClass ↔
      Classed params (outside psbt params) txClass := by
  rw [flags_outside, classOfFlags_eq_some]
  simp only [List.all_eq_true, Bool.or_eq_true, Bool.not_eq_true', ← Bool.not_eq_true, paysEscape_iff, paysAllowed_iff]
  generalize outside psbt params = destinations
  cases txClass with
  | refresh =>
    constructor
    · rintro ⟨known, noEscape, noHot⟩
      rw [Classed, List.eq_nil_iff_forall_not_mem]
      intro txout member
      have escape := noEscape txout member
      exact (noHot txout member).elim escape (absurd ((known txout member).resolve_left escape))
    · rintro rfl
      simp
  | escape =>
    constructor
    · rintro ⟨known, someEscape, noHot⟩
      refine ⟨fun empty => someEscape (by simp [empty]), ?_⟩
      intro txout member
      exact (known txout member).elim id (fun allowed => (noHot txout member).resolve_right (not_not_intro allowed))
    · rintro ⟨nonempty, escape⟩
      obtain ⟨txout, member⟩ := List.exists_mem_of_ne_nil _ nonempty
      exact ⟨fun other here => .inl (escape other here), fun none => none txout member (escape txout member),
        fun other here => .inl (escape other here)⟩
  | hot =>
    constructor
    · rintro ⟨known, noEscape, someHot⟩
      refine ⟨fun empty => someHot (by simp [empty]), ?_⟩
      intro txout member
      exact ⟨(known txout member).resolve_left (noEscape txout member), noEscape txout member⟩
    · rintro ⟨nonempty, hot⟩
      obtain ⟨txout, member⟩ := List.exists_mem_of_ne_nil _ nonempty
      exact ⟨fun other here => .inr (hot other here).1, fun other here => (hot other here).2,
        fun none => (none txout member).elim (hot txout member).2 (absurd (hot txout member).1)⟩

theorem classify_iff (txClass : TxClass) :
    (∃ flow, classify psbt params = .ok ⟨txClass, flow⟩) ↔ Classed params (outside psbt params) txClass := by
  rw [← classOfFlags_iff]
  constructor
  · rintro ⟨flow, classified⟩
    exact ((classify_ok_iff psbt params _).mp classified).1
  · intro flags
    exact ⟨_, (classify_ok_iff psbt params _).mpr ⟨flags, rfl⟩⟩

theorem filter_countsHot :
    psbt.unsignedTx.output.filter (fun txout => decide (CountsHot params txout)) =
      (outside psbt params).filter (fun txout => decide (CountsHot params txout)) := by
  rw [outside, List.filter_filter]
  apply List.filter_congr
  intro txout _
  rw [Bool.eq_iff_iff, Bool.and_eq_true, decide_eq_true_iff, decide_eq_true_iff]
  exact ⟨fun counts => ⟨counts, counts.1⟩, And.left⟩

/-- Only the outputs outside the vault decide, in whatever order they stand. -/
theorem classify_perm {other : Psbt} (same : (outside psbt params).Perm (outside other params)) :
    wordless (classify psbt params) = wordless (classify other params) := by
  have flags : (sortOutputs params psbt.unsignedTx.output).flags = (sortOutputs params other.unsignedTx.output).flags := by
    rw [flags_outside, flags_outside, same.all_eq, same.all_eq, same.all_eq]
  have metered : (sortOutputs params psbt.unsignedTx.output).hotSat =
      (sortOutputs params other.unsignedTx.output).hotSat := by
    rw [hotSat_eq, hotSat_eq, filter_countsHot, filter_countsHot, ((same.filter _).map TxOut.value).sum_eq]
  rw [classify_eq, classify_eq, flags, metered]

/-- A classified transaction is metered as `hotOutflow` meters it. -/
theorem hotSat_of_classified {txClass : TxClass} (classed : Classed params (outside psbt params) txClass) :
    (sortOutputs params psbt.unsignedTx.output).hotSat = hotOutflow psbt params := by
  rw [hotSat_eq, hotOutflow_eq, exactHotOutflow]
  congr 3
  apply List.filter_congr
  intro txout member
  rw [decide_eq_decide]
  constructor
  · rintro ⟨vault, escape, _⟩
    exact ⟨vault, escape⟩
  · rintro ⟨vault, escape⟩
    refine ⟨vault, escape, (paysAllowed_iff params _).mpr ?_⟩
    have destination := (mem_outside psbt params).mpr ⟨member, vault⟩
    cases txClass with
    | refresh =>
      rw [show outside psbt params = [] from classed] at destination
      cases destination
    | escape => exact absurd (classed.2 txout destination) escape
    | hot => exact (classed.2 txout destination).1

theorem hotSat_of_not_hot {txClass : TxClass} (classed : Classed params (outside psbt params) txClass)
    (cold : txClass ≠ .hot) : (sortOutputs params psbt.unsignedTx.output).hotSat = 0 := by
  have nothing : (outside psbt params).filter (fun txout => decide (CountsHot params txout)) = [] := by
    rw [List.filter_eq_nil_iff]
    intro txout member counts
    have counts : CountsHot params txout := by simpa using counts
    cases txClass with
    | refresh =>
      rw [show outside psbt params = [] from classed] at member
      cases member
    | escape => exact counts.2.1 (classed.2 txout member)
    | hot => exact cold rfl
  rw [hotSat_eq, filter_countsHot, nothing]
  rfl

end Class

/-- The class is a question about the outputs outside the vault, and the outflow it reports is the one the budget
meters. -/
theorem classify_exact (psbt : Psbt) (params : CheckParams) :
    (∀ txClass, (∃ flow, classify psbt params = .ok ⟨txClass, flow⟩) ↔
        Classed params (outside psbt params) txClass) ∧
      (∀ other, (outside psbt params).Perm (outside other params) →
        wordless (classify psbt params) = wordless (classify other params)) ∧
      ∀ classified, classify psbt params = .ok classified →
        classified.hotOutflow = hotOutflow psbt params ∧
          (classified.txClass ≠ .hot → classified.hotOutflow = 0) ∧
          (evaluate psbt params = .ok () → classified.hotOutflow ≤ params.hotMaxPerTx) := by
  refine ⟨classify_iff psbt params, fun other => classify_perm psbt params, ?_⟩
  intro classified ok
  obtain ⟨flags, metered⟩ := (classify_ok_iff psbt params classified).mp ok
  have classed := (classOfFlags_iff psbt params _).mp flags
  have agrees := hotSat_of_classified psbt params classed
  refine ⟨metered.trans agrees, ?_, ?_⟩
  · intro cold
    exact metered.trans (hotSat_of_not_hot psbt params classed cold)
  · intro passed
    rw [metered, agrees]
    exact hotOutflow_le_of_evaluate psbt params passed

end BtcPolicy.Policy
