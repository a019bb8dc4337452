import BtcPolicy.Node.Sweep
import BtcPolicy.Node.Verify
import BtcPolicy.Policy.Exact

/-! The climb of an escape's ladder. A rung is judged by the fee its own prevouts leave, so the ladder changes the fee
and nothing else exactly where every rung declares the same value. -/

namespace BtcPolicy.Node
open FiniteMap Word Bitcoin Policy Results Checks NodeConfig

/-! ### The escape's own checks -/

/-- A refusal of the escape says so. -/
def escapeRefusal (refused : Refusal) : Refusal := ⟨refused.code, "escape:" ++ refused.check, refused.detail⟩

/-- Of the answers of a check only a refusal is handed on. -/
def refusedEscape : Except SignResponse Unit → Except Refusal Unit
  | .error (.refusal refused) => .error (escapeRefusal refused)
  | _ => .ok ()

/-- The user's signatures, the chain's prevouts, the policy, and then the class. -/
def NodeConfig.verifyEscape (node : NodeConfig) (policy : PolicyChecks) (psbt : Psbt)
    (prefetched : Option PrevoutFetch) : Except Refusal Unit := do
  refusedEscape (node.verifyUserSignatures psbt)
  refusedEscape (if policy.backend then runPrevoutCheck psbt prefetched else .ok ())
  (evaluate psbt policy.checkParams).mapError (fun violation => escapeRefusal (policyRefusal violation))
  match classify psbt policy.checkParams with
  | .ok classified =>
    if classified.txClass = .escape then .ok ()
    else
      let other := classified.txClass.name
      .error (escapeRefusal ⟨.psbtInconsistent, "transaction_class",
        s!"the request's escape is {other}-class: every destination output must pay the escape descriptor"⟩)
  | .error violation => .error (escapeRefusal (policyRefusal violation))

section Escape

variable {node : NodeConfig} {policy : PolicyChecks} {psbt : Psbt} {prefetched : Option PrevoutFetch}

/-- What a rung that passes has passed. -/
theorem verifyEscape_ok (verified : node.verifyEscape policy psbt prefetched = .ok ()) :
    refusedEscape (if policy.backend then runPrevoutCheck psbt prefetched else .ok ()) = .ok () ∧
      evaluate psbt policy.checkParams = .ok () := by
  unfold NodeConfig.verifyEscape at verified
  obtain ⟨_, _, verified⟩ := ok_of_bind verified
  obtain ⟨_, prevouts, verified⟩ := ok_of_bind verified
  obtain ⟨_, evaluated, _⟩ := ok_of_bind verified
  refine ⟨prevouts, ?_⟩
  cases passed : evaluate psbt policy.checkParams with
  | ok _ => rfl
  | error violation =>
    rw [passed] at evaluated
    cases evaluated

end Escape

/-! ### The fee a rung declares -/

/-- What the prevouts of a PSBT add up to in a word. -/
def declaredTotal (psbt : Psbt) : Nat := satAdd 0 (inputSum psbt)

theorem satOutputs_eq (tx : Transaction) : satOutputs tx = satAdd 0 (outputSum tx) :=
  foldl_satAdd_eq TxOut.value tx.output

theorem foldlM_declared {inputs : List PsbtInput} (complete : ∀ input ∈ inputs, ∃ utxo, input.witnessUtxo = some utxo)
    (start : Nat) (word : start ≤ maxWord) :
    inputs.foldlM (fun total input => input.witnessUtxo.map (fun utxo => satAdd total utxo.value)) start =
      some (satAdd start ((inputs.filterMap PsbtInput.witnessUtxo).map TxOut.value).sum) := by
  induction inputs generalizing start with
  | nil => simp [satAdd, word]
  | cons input rest ih =>
    obtain ⟨utxo, known⟩ := complete input List.mem_cons_self
    have later := ih (fun other member => complete other (List.mem_cons_of_mem _ member))
    simp only [List.foldlM_cons, known, Option.map_some, Option.bind_eq_bind, Option.bind_some]
    rw [later _ (satAdd_le_maxWord _ _), satAdd_satAdd, List.filterMap_cons_some known, List.map_cons, List.sum_cons]

/-- What `evaluate` leaves known of a rung: its fee, which no saturation has cut. -/
theorem psbtFee_of_evaluate {psbt : Psbt} {params : CheckParams} (passed : evaluate psbt params = .ok ()) :
    psbtFee psbt = some (declaredTotal psbt - satOutputs psbt.unsignedTx) ∧
      satOutputs psbt.unsignedTx ≤ declaredTotal psbt := by
  obtain ⟨consistent, _, _, _, fee⟩ := (evaluate_ok_iff _ _).mp passed
  have complete : ∀ input ∈ psbt.inputs, ∃ utxo, input.witnessUtxo = some utxo := by
    have pass := (decides_checkPsbtConsistency psbt).ok_iff.mp consistent
    simp only [consistencyConditions, pass_cons] at pass
    exact pass.2.2.2.2.1
  have covers : outputSum psbt.unsignedTx ≤ inputSum psbt := by
    have pass := (decides_checkFee psbt).ok_iff.mp fee
    exact ((pass_cons _ _).mp pass).1
  constructor
  · unfold psbtFee
    rw [foldlM_declared complete 0 (Nat.zero_le _)]
    rfl
  · rw [satOutputs_eq, declaredTotal]
    unfold satAdd
    omega

/-! ### From each rung to the next -/

/-- A word of size, times a rate of one. -/
theorem relayCost_eq {sizing : Sizing} {tx : Transaction} {vsize : Nat}
    (bounded : maximumFinalizedVsizeFor sizing tx = .ok vsize) :
    satMul vsize escapeRbfIncrementalRelaySatVb = vsize * escapeRbfIncrementalRelaySatVb := by
  have rate : escapeRbfIncrementalRelaySatVb = 1 := rfl
  have word : vsize ≤ maxWord := (maximumFinalizedVsizeFor_range bounded).2
  unfold satMul
  rw [rate]
  omega

/-- Inputs that spend the same coins and all signal replacement are the same. -/
theorem input_eq_of_shaped {base lower higher : Transaction} (below : Shaped base lower) (above : Shaped base higher)
    (outpoints : outpointsOf higher = outpointsOf lower) : higher.input = lower.input := by
  have each : List.Forall₂ (fun a b : TxIn => a.previousOutput = b.previousOutput) higher.input lower.input := by
    rw [← List.forall₂_eq_eq_eq, outpointsOf, outpointsOf, List.forall₂_map_left_iff, List.forall₂_map_right_iff]
      at outpoints
    exact outpoints
  rw [← List.forall₂_eq_eq_eq]
  rw [List.forall₂_iff_get] at each ⊢
  refine ⟨each.1, ?_⟩
  intro place inside inside'
  have coin := each.2 place inside inside'
  have signals := (above.signals _ (List.get_mem higher.input ⟨place, inside⟩)).trans
    (below.signals _ (List.get_mem lower.input ⟨place, inside'⟩)).symm
  generalize higher.input.get ⟨place, inside⟩ = a at *
  generalize lower.input.get ⟨place, inside'⟩ = b at *
  cases a
  cases b
  simp_all

/-- Outputs that pay the same scripts and raise no value. -/
theorem outputs_of_lowered {lower higher : Transaction} (scripts : scriptsOf higher = scriptsOf lower)
    (lowers : raisesValue (valuesOf higher) (valuesOf lower) = false) :
    List.Forall₂ (fun out below => out.scriptPubkey = below.scriptPubkey ∧ out.value ≤ below.value)
      higher.output lower.output := by
  unfold scriptsOf at scripts
  unfold raisesValue valuesOf at lowers
  generalize higher.output = outputs at *
  generalize lower.output = below at *
  induction outputs generalizing below with
  | nil =>
    rw [List.map_nil, eq_comm, List.map_eq_nil_iff] at scripts
    rw [scripts]
    exact List.Forall₂.nil
  | cons out rest ih =>
    cases below with
    | nil => cases scripts
    | cons first below =>
      rw [List.map_cons, List.map_cons, List.cons.injEq] at scripts
      simp only [List.map_cons, List.zip_cons_cons, List.any_cons, Bool.or_eq_false_iff, decide_eq_false_iff_not,
        Nat.not_lt] at lowers
      exact List.Forall₂.cons ⟨scripts.1, lowers.1⟩ (ih below scripts.2 lowers.2)

/-- One rung over the one below it: the outputs together fall by what its relay costs, and the fee rises by exactly
what they lose, so that no prevout enters the order of the fees. -/
structure Replaces (sizing : Sizing) (lower higher : Psbt) : Prop where
  bumped : Bumped lower.unsignedTx higher.unsignedTx
  relayed : ∃ vsize, maximumFinalizedVsizeFor sizing higher.unsignedTx = .ok vsize ∧
    outputSum higher.unsignedTx + vsize * escapeRbfIncrementalRelaySatVb ≤ outputSum lower.unsignedTx
  fee : ∃ below above, psbtFee lower = some below ∧ psbtFee higher = some above ∧
    above + satOutputs higher.unsignedTx = below + satOutputs lower.unsignedTx

/-- What ingress knows of each rung of a ladder over `base`. -/
structure Rung (params : CheckParams) (base : Transaction) (psbt : Psbt) : Prop where
  shaped : Shaped base psbt.unsignedTx
  outpoints : outpointsOf psbt.unsignedTx = outpointsOf base
  scripts : scriptsOf psbt.unsignedTx = scriptsOf base
  evaluated : evaluate psbt params = .ok ()

/-- The bump passed over the rung below it, whatever the two declare. -/
def ClimbsOver (sizing : Sizing) (base : Transaction) (lower higher : Psbt) : Prop :=
  ∃ below above, psbtFee lower = some below ∧ Climbed sizing base below (valuesOf lower.unsignedTx) higher above

theorem chain_of_checkBumps {sizing : Sizing} {base : Transaction} {rung fee : Nat} {lower : Psbt} {bumps : List Psbt}
    (known : psbtFee lower = some fee)
    (climbs : checkBumps sizing base rung fee (valuesOf lower.unsignedTx) bumps = .ok ()) :
    (lower :: bumps).IsChain (ClimbsOver sizing base) := by
  induction bumps generalizing rung fee lower with
  | nil => exact List.isChain_singleton lower
  | cons bump rest ih =>
    rw [checkBumps] at climbs
    cases first : checkBump sizing base rung fee (valuesOf lower.unsignedTx) bump with
    | error refused =>
      rw [first] at climbs
      cases climbs
    | ok next =>
      rw [first] at climbs
      have climbed := checkBump_ok first
      exact List.isChain_cons_cons.mpr ⟨⟨fee, next, known, climbed⟩, ih climbed.known climbs⟩

/-- A bump that passed is a replacement in fee alone exactly where it declares what the rung below it declares. -/
theorem replaces_iff {sizing : Sizing} {params : CheckParams} {base : Transaction} {lower higher : Psbt}
    (below : Rung params base lower) (above : Rung params base higher) (climbs : ClimbsOver sizing base lower higher) :
    Replaces sizing lower higher ↔ declaredTotal higher = declaredTotal lower := by
  obtain ⟨lowFee, highFee, knownLow, climbed⟩ := climbs
  obtain ⟨vsize, bounded, rises⟩ := climbed.relayed
  have knownHigh := climbed.known
  obtain ⟨lowIs, lowCovers⟩ := psbtFee_of_evaluate below.evaluated
  obtain ⟨highIs, highCovers⟩ := psbtFee_of_evaluate above.evaluated
  have lowEq : lowFee = declaredTotal lower - satOutputs lower.unsignedTx := Option.some.inj (knownLow.symm.trans lowIs)
  have highEq : highFee = declaredTotal higher - satOutputs higher.unsignedTx :=
    Option.some.inj (knownHigh.symm.trans highIs)
  rw [relayCost_eq bounded] at rises
  constructor
  · intro replaces
    obtain ⟨lowFee', highFee', knownLow', knownHigh', exchanged⟩ := replaces.fee
    cases knownLow.symm.trans knownLow'
    cases knownHigh.symm.trans knownHigh'
    omega
  · intro same
    have positive : 0 < vsize * escapeRbfIncrementalRelaySatVb :=
      Nat.mul_pos (maximumFinalizedVsizeFor_range bounded).1 (by decide)
    have lowSum := satOutputs_eq lower.unsignedTx
    have highSum := satOutputs_eq higher.unsignedTx
    have falls : outputSum higher.unsignedTx + vsize * escapeRbfIncrementalRelaySatVb ≤
        outputSum lower.unsignedTx := by
      unfold satAdd at lowSum highSum
      omega
    refine ⟨⟨⟨?_, ?_⟩, by omega⟩, ⟨vsize, bounded, falls⟩, lowFee, highFee, knownLow, knownHigh, by omega⟩
    · exact input_eq_of_shaped below.shaped above.shaped (above.outpoints.trans below.outpoints.symm)
    · exact outputs_of_lowered (above.scripts.trans below.scripts.symm) climbed.lowers

theorem isChain_declared_iff (lower : Psbt) (bumps : List Psbt) :
    (lower :: bumps).IsChain (fun a b => declaredTotal b = declaredTotal a) ↔
      ∀ bump ∈ bumps, declaredTotal bump = declaredTotal lower := by
  induction bumps generalizing lower with
  | nil => simp
  | cons bump rest ih =>
    rw [List.isChain_cons_cons, List.forall_mem_cons, ih bump]
    constructor
    · intro both
      exact ⟨both.1, fun other member => (both.2 other member).trans both.1⟩
    · intro both
      exact ⟨both.1, fun other member => (both.2 other member).trans both.1.symm⟩

/-! ### The prevouts the chain shows -/

/-- With every prevout there, a rung declares what the chain has. -/
theorem declared_of_batch {psbt : Psbt} {prevouts : List (Option Prevout)}
    (compared : comparePrevoutsAgainstChain psbt prevouts = .ok ()) (present : ∀ entry ∈ prevouts, entry.isSome = true)
    (mapped : psbt.inputs.length = psbt.unsignedTx.input.length)
    (complete : ∀ input ∈ psbt.inputs, ∃ utxo, input.witnessUtxo = some utxo) :
    inputSum psbt = (prevouts.filterMap (Option.map (fun prevout => prevout.txout.value))).sum := by
  unfold comparePrevoutsAgainstChain at compared
  simp only at compared
  split_ifs at compared with counted
  have counted : prevouts.length = psbt.unsignedTx.input.length := not_not.mp counted
  have entries : psbt.inputs.map (fun input => input.witnessUtxo.map TxOut.value) =
      prevouts.map (Option.map (fun prevout => prevout.txout.value)) := by
    apply List.ext_getElem (by rw [List.length_map, List.length_map, mapped, counted])
    intro place inside inside'
    rw [List.length_map] at inside inside'
    have zipped : (psbt.unsignedTx.input.zip prevouts)[place]? =
        some (psbt.unsignedTx.input[place], prevouts[place]) := by
      rw [List.getElem?_zip_eq_some]
      exact ⟨List.getElem?_eq_getElem _, List.getElem?_eq_getElem _⟩
    have passed := firstError_getElem compared zipped
    obtain ⟨utxo, declared⟩ := complete psbt.inputs[place] (List.getElem_mem inside)
    obtain ⟨prevout, shown⟩ := Option.isSome_iff_exists.mp (present prevouts[place] (List.getElem_mem inside'))
    rw [List.getElem_map, List.getElem_map, declared, shown]
    rw [Nat.zero_add] at passed
    unfold comparePrevout at passed
    simp only [shown, List.getElem?_eq_getElem inside, Option.bind_some, declared] at passed
    split_ifs at passed with differs
    rw [not_or, not_not, not_not] at differs
    rw [Option.map_some, Option.map_some, differs.2]
  have declared : inputSum psbt = (psbt.inputs.filterMap (fun input => input.witnessUtxo.map TxOut.value)).sum := by
    unfold inputSum
    rw [List.map_filterMap]
  have same := congrArg (List.filterMap id) entries
  rw [List.filterMap_map, List.filterMap_map, Function.id_comp, Function.id_comp] at same
  rw [declared, same]

/-- A check of the prevouts whose refusals are all handed on. -/
theorem compared_of_refusedEscape {psbt : Psbt} {prevouts : List (Option Prevout)}
    (passed : refusedEscape (comparePrevoutsAgainstChain psbt prevouts) = .ok ()) :
    comparePrevoutsAgainstChain psbt prevouts = .ok () := by
  cases compared : comparePrevoutsAgainstChain psbt prevouts with
  | ok _ => rfl
  | error answer =>
    obtain ⟨refused, rfl, _⟩ := comparePrevoutsAgainstChain_unrecorded psbt prevouts answer compared
    rw [compared] at passed
    cases passed

/-- Where the chain shows every prevout, all rungs that pass declare one total. -/
theorem declaredTotal_of_batch {node : NodeConfig} {policy : PolicyChecks} {psbt : Psbt}
    {prevouts : List (Option Prevout)} (backend : policy.backend = true)
    (present : ∀ entry ∈ prevouts, entry.isSome = true)
    (verified : node.verifyEscape policy psbt (some (.ok prevouts)) = .ok ()) :
    declaredTotal psbt = satAdd 0 (prevouts.filterMap (Option.map (fun prevout => prevout.txout.value))).sum := by
  obtain ⟨checked, evaluated⟩ := verifyEscape_ok verified
  rw [if_pos backend] at checked
  have compared := compared_of_refusedEscape checked
  have consistent := (decides_checkPsbtConsistency psbt).ok_iff.mp ((evaluate_ok_iff _ _).mp evaluated).1
  simp only [consistencyConditions, pass_cons] at consistent
  obtain ⟨_, _, mapped, _, complete, _⟩ := consistent
  rw [declaredTotal, declared_of_batch compared present mapped complete]

/-! ### The ladder -/

/-- A ladder that changes the fee alone. -/
structure TrueLadder (lib : Library) (sizing : Sizing) (escape : Psbt) (bumps : List Psbt) : Prop where
  shaped : ∀ rung ∈ escape :: bumps, Shaped escape.unsignedTx rung.unsignedTx
  outpoints : ∀ rung ∈ escape :: bumps, outpointsOf rung.unsignedTx = outpointsOf escape.unsignedTx
  scripts : ∀ rung ∈ escape :: bumps, scriptsOf rung.unsignedTx = scriptsOf escape.unsignedTx
  replaces : (escape :: bumps).IsChain (Replaces sizing)
  transactions : ((escape :: bumps).map Psbt.unsignedTx).Nodup
  txids : ((escape :: bumps).map (fun rung => lib.computeTxid rung.unsignedTx)).Nodup

theorem IsLadder.nodup {rungs : List Transaction} (ladder : IsLadder rungs) : rungs.Nodup := by
  apply (List.isChain_iff_pairwise.mp ladder).imp
  intro lower higher bumped same
  have falls := bumped.falls
  rw [same] at falls
  exact Nat.lt_irrefl _ falls

/-- The rungs of a chain of replacements are in the order the sweep relies on. -/
theorem isLadder_of_replaces {sizing : Sizing} {rungs : List Psbt} (replaces : rungs.IsChain (Replaces sizing)) :
    IsLadder (rungs.map Psbt.unsignedTx) := by
  unfold IsLadder
  rw [List.isChain_map]
  exact replaces.imp (fun _ _ step => step.bumped)

/-- A ladder that ingress has accepted changes the fee and nothing else exactly where every bump declares the same
input value as the escape; where the chain shows every prevout they all do. -/
theorem true_ladder_iff (node : NodeConfig) (policy : PolicyChecks) (sizing : Sizing) (escape : Psbt)
    (bumps : List Psbt) (selfPaired : Bool) (prefetched : Option PrevoutFetch) (climbs : bumps ≠ [])
    (accepted : ensureEscapeLadder sizing escape bumps selfPaired = .ok ())
    (verified : ∀ rung ∈ escape :: bumps, node.verifyEscape policy rung prefetched = .ok ())
    (separates : ∀ a ∈ escape :: bumps, ∀ b ∈ escape :: bumps,
      node.lib.computeTxid a.unsignedTx = node.lib.computeTxid b.unsignedTx → a.unsignedTx = b.unsignedTx) :
    (TrueLadder node.lib sizing escape bumps ↔ ∀ bump ∈ bumps, declaredTotal bump = declaredTotal escape) ∧
      ∀ prevouts, prefetched = some (.ok prevouts) → policy.backend = true →
        (∀ entry ∈ prevouts, entry.isSome = true) → ∀ bump ∈ bumps, declaredTotal bump = declaredTotal escape := by
  have evaluated : ∀ rung ∈ escape :: bumps, evaluate rung policy.checkParams = .ok () :=
    fun rung member => (verifyEscape_ok (verified rung member)).2
  obtain ⟨known, _⟩ := psbtFee_of_evaluate (evaluated escape List.mem_cons_self)
  have unpaired : selfPaired = false := by
    cases selfPaired with
    | false => rfl
    | true => simp [ensureEscapeLadder, climbs] at accepted
  rw [unpaired, ensureEscapeLadder_ok_iff sizing climbs known] at accepted
  obtain ⟨shaped, checked⟩ := accepted
  have rungs : ∀ rung ∈ escape :: bumps, Rung policy.checkParams escape.unsignedTx rung := by
    intro rung member
    rcases List.mem_cons.mp member with rfl | later
    · exact ⟨shaped _ member, rfl, rfl, evaluated _ member⟩
    · obtain ⟨_, _, _, climbed⟩ := climbed_of_checkBumps checked rung later
      exact ⟨shaped _ member, climbed.outpoints, climbed.scripts, evaluated _ member⟩
  have chain := chain_of_checkBumps known checked
  have exchange : (escape :: bumps).IsChain (Replaces sizing) ↔
      ∀ bump ∈ bumps, declaredTotal bump = declaredTotal escape := by
    rw [← isChain_declared_iff, List.isChain_iff_getElem, List.isChain_iff_getElem]
    refine forall₂_congr (fun place inside => ?_)
    exact replaces_iff (rungs _ (List.getElem_mem _)) (rungs _ (List.getElem_mem _)) (chain.getElem place inside)
  refine ⟨⟨fun ladder => exchange.mp ladder.replaces, ?_⟩, ?_⟩
  · intro same
    have replaces := exchange.mpr same
    have distinct := (isLadder_of_replaces replaces).nodup
    refine ⟨shaped, fun rung member => (rungs rung member).outpoints, fun rung member => (rungs rung member).scripts,
      replaces, distinct, ?_⟩
    have txids : (((escape :: bumps).map Psbt.unsignedTx).map node.lib.computeTxid).Nodup := by
      apply distinct.map_on
      intro tx listed tx' listed' same
      obtain ⟨rung, member, rfl⟩ := List.mem_map.mp listed
      obtain ⟨rung', member', rfl⟩ := List.mem_map.mp listed'
      exact separates rung member rung' member' same
    rw [List.map_map] at txids
    exact txids
  · intro prevouts batch backend present bump member
    subst batch
    rw [declaredTotal_of_batch backend present (verified bump (List.mem_cons_of_mem _ member)),
      declaredTotal_of_batch backend present (verified escape List.mem_cons_self)]

namespace ClimbSample

/-- A digest binds the value spent and the outputs, and a signature is the digest it signs. -/
def library : Library :=
  { Channel.Sample.library with
    computeTxid := fun tx => leBytes 32 (outputSum tx)
    p2wshSignatureHash := fun tx _ _ value => .ok (leBytes 32 value ++ leBytes 32 (outputSum tx))
    verifyEcdsa := fun sighash der _ => decide (der = sighash) }

def node : NodeConfig := { Sample.node with lib := library }

def policy : PolicyChecks := ⟨SweepSample.policy.checkParams, 1, true⟩

/-- One coin declared at `value`, swept but for the fee, and signed by the user as declared. -/
def rung (value paid : Nat) : Psbt :=
  { unsignedTx := SweepSample.rung paid
    inputs := [⟨some ⟨value, [1]⟩,
      (∅ : Map PublicKey EcdsaSignature).insert node.keys.userPubkey ⟨leBytes 32 value ++ leBytes 32 paid, sighashAll⟩,
      none, none, none, none, none⟩]
    outputs := [⟨∅⟩] }

def shown : List (Option Prevout) := [some ⟨⟨1000000, [1]⟩, true⟩]

end ClimbSample

theorem true_ladder_iff_shown :
    TrueLadder ClimbSample.node.lib (vaultSizing 100) (ClimbSample.rung 1000000 990000)
      [ClimbSample.rung 1000000 980000] := by
  have whole := true_ladder_iff ClimbSample.node ClimbSample.policy (vaultSizing 100) (ClimbSample.rung 1000000 990000)
    [ClimbSample.rung 1000000 980000] false (some (.ok ClimbSample.shown)) (by simp) (by rfl)
    (by
      intro rung member
      simp only [List.mem_cons, List.not_mem_nil, or_false] at member
      rcases member with rfl | rfl
      · rfl
      · rfl)
    (by
      intro a listed b listed' same
      simp only [List.mem_cons, List.not_mem_nil, or_false] at listed listed'
      rcases listed with rfl | rfl <;> rcases listed' with rfl | rfl
      · rfl
      · exact absurd same (by decide)
      · exact absurd same (by decide)
      · rfl)
  exact whole.1.mpr (whole.2 ClimbSample.shown rfl rfl (by decide))

/-- A coin the chain does not show, declared higher by the bump, makes the escape its own replacement. -/
theorem unshown_coin_climbs :
    ensureEscapeLadder (vaultSizing 100) (ClimbSample.rung 1000000 1000000) [ClimbSample.rung 1100000 1000000] false =
        .ok () ∧
      (∀ rung ∈ [ClimbSample.rung 1000000 1000000, ClimbSample.rung 1100000 1000000],
        ClimbSample.node.verifyEscape ClimbSample.policy rung (some (.ok [none])) = .ok ()) ∧
      (ClimbSample.rung 1100000 1000000).unsignedTx = (ClimbSample.rung 1000000 1000000).unsignedTx ∧
      ¬TrueLadder ClimbSample.node.lib (vaultSizing 100) (ClimbSample.rung 1000000 1000000)
        [ClimbSample.rung 1100000 1000000] := by
  refine ⟨by rfl, ?_, rfl, ?_⟩
  · intro rung member
    simp only [List.mem_cons, List.not_mem_nil, or_false] at member
    rcases member with rfl | rfl
    · rfl
    · rfl
  · intro ladder
    have distinct := ladder.transactions
    exact absurd distinct (by decide)

end BtcPolicy.Node
