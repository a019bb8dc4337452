import BtcPolicy.Channel.Machine
import BtcPolicy.Lib.Results
import BtcPolicy.Node.Weight

/-! The rung a sweep fires at: every rung of the ladder is scored, the target is read off the chain, and the choice is
latched so that it never falls back. -/

namespace BtcPolicy.Node
open FiniteMap Word Bitcoin Policy Runs Channel Results

def feeAnchorQuantum : Nat := 6

def feeTargetStepSatVb : Nat := 5

/-- What the bump target reads of the chain. -/
structure FeeReadings where
  tipHeight : Except String Nat
  blockMedianFeerate : Nat → Except String (Option Nat)

/-- The median feerate at the anchor height, cut down to a step. -/
def escapeBumpTargetFeerate (chain : FeeReadings) : Except String (Option Nat) :=
  match chain.tipHeight with
  | .error e => .error s!"cannot read the tip height for the escape bump target: {e}"
  | .ok tip =>
    match chain.blockMedianFeerate (tip - tip % feeAnchorQuantum) with
    | .error e => .error s!"cannot read the anchor block's feerate: {e}"
    | .ok none => .ok none
    | .ok (some median) => .ok (some (median / feeTargetStepSatVb * feeTargetStepSatVb))

/-- A backend that cannot tell leaves the panic floor. -/
def bumpTarget (chain : FeeReadings) : Nat :=
  match escapeBumpTargetFeerate chain with
  | .ok reading => reading.getD 0
  | .error _ => 0

/-- A ladder with the size and the verdict of each rung, and the value they all sweep. -/
structure ScoredLadder where
  rungs : List Transaction
  maximumVsizes : List Nat
  admissible : List (Except String Unit)
  totalIn : Nat

namespace ScoredLadder

/-- The rung pays at least `required` for each vbyte, at its largest size. -/
def reaches (ladder : ScoredLadder) (required rung : Nat) : Bool :=
  match ladder.rungs[rung]?, ladder.maximumVsizes[rung]? with
  | some tx, some vsize => decide (required * vsize ≤ ladder.totalIn - satOutputs tx)
  | _, _ => false

def passes (ladder : ScoredLadder) (rung : Nat) : Bool := (ladder.admissible[rung]?).any Except.isOk

end ScoredLadder

/-- The verdicts of all rungs; a size that cannot be bounded ends the pass. -/
def scoreLadder (policy : SweepPolicy) (sizing : Sizing) (env : SweepEnv) (rungs : List Transaction) :
    Except String ScoredLadder :=
  (rungs.mapM (maximumFinalizedVsizeFor sizing)).map (fun vsizes =>
    ⟨rungs, vsizes, (rungs.zip vsizes).map (fun rung => sweepRungAdmissible policy env rung.1 rung.2), env.totalIn⟩)

/-- `(0..count).rfind(ok)`. -/
def rfind (ok : Nat → Bool) : Nat → Option Nat
  | 0 => none
  | count + 1 => if ok count then some count else rfind ok count

/-- The cheapest rung that meets the target, or the most expensive one below it. -/
def chooseRung (ok : Nat → Bool) (count needed : Nat) : Option Nat :=
  (((List.range count).filter ok).find? (fun rung => decide (needed ≤ rung))).or (rfind ok count)

/-- The cheapest rung that reaches the feerate; a ladder that does not reach it tops out. -/
def neededRung (ladder : ScoredLadder) (required : Nat) : Nat :=
  ((List.range ladder.rungs.length).find? (ladder.reaches required)).getD (ladder.rungs.length - 1)

/-- The rung, the target and the feerate required. -/
def selectEscapeRung (floor : Nat) (chain : FeeReadings) (latch : Nat) (ladder : ScoredLadder) :
    Except String (Nat × Nat × Nat) :=
  let count := ladder.rungs.length
  if count ≤ 1 then
    match ladder.admissible.head? with
    | some (.ok _) => .ok (0, 0, floor)
    | some (.error reason) => .error reason
    | none => .error "the armed escape has no candidate transaction"
  else
    let target := bumpTarget chain
    let required := max target floor
    match chooseRung ladder.passes count (neededRung ladder required) with
    | none =>
      .error (match ladder.admissible.head? with
        | some (.error reason) => reason
        | _ => "no escape ladder rung is admissible")
    | some choice =>
      let selected := max choice latch
      match ladder.admissible[selected]? with
      | some (.error reason) =>
        .error (s!"escape ladder rung {selected} is already latched but no longer admissible, and a lower rung cannot " ++
          s!"replace a higher one that may already be in the mempool: {reason}")
      | _ => .ok (selected, target, required)

/-- What one pass reads: the environment of the sweep, the chain's fees, and the ancestry of the rung selected. -/
structure SweepReadings where
  env : Except String SweepEnv
  chain : FeeReadings
  ancestry : Transaction → Except String Unit

/-- The transactions of the ladder, the base first. -/
def candidateRungTxs (c : Candidate) : List Transaction := c.variants.map (fun variant => variant.psbt.unsignedTx)

/-- The lowest rung the pass accepted, and never above the one it fires at. -/
def lowestAdmissible (ladder : ScoredLadder) (selected : Nat) : Nat :=
  min ((ladder.admissible.findIdx? Except.isOk).getD selected) selected

/-- What one pass decides for the candidate: the rung it fires at and the lowest it may release. -/
def sweepDecision (policy : SweepPolicy) (sizing : Sizing) (readings : SweepReadings) (c : Candidate) :
    Except String (Nat × Nat) := do
  let env ← readings.env
  let ladder ← scoreLadder policy sizing env (candidateRungTxs c)
  let selected ← selectEscapeRung policy.escapeFeerateFloor readings.chain c.authorizedRung ladder
  match ladder.rungs[selected.1]? with
  | none => throw "rung index out of range"
  | some tx =>
    match readings.ancestry tx with
    | .error e => throw s!"escape package ancestry is inadmissible before release: {e}"
    | .ok _ => pure (selected.1, lowestAdmissible ladder selected.1)

/-- One pass over the armed escape: nothing is latched where any check fails. -/
def escapeSweepPreReleaseAdmissible (policy : SweepPolicy) (sizing : Sizing) (id : String) (s : PartialStore)
    (readings : SweepReadings) : PartialStore × Except String Nat :=
  match s.candidates.lookup id with
  | none => (s, .error "armed escape candidate context is unavailable")
  | some c =>
    match sweepDecision policy sizing readings c with
    | .error reason => (s, .error reason)
    | .ok (selected, lowest) =>
      match s.latchEscapeRung id selected lowest with
      | (s, none) => (s, .error "armed escape disappeared while latching its fee rung")
      | (s, some latched) => (s, .ok latched)

/-! ### The choice -/

theorem rfind_spec (ok : Nat → Bool) (count : Nat) :
    (∀ rung, rfind ok count = some rung →
      ok rung = true ∧ rung < count ∧ ∀ other < count, ok other = true → other ≤ rung) ∧
      (rfind ok count = none → ∀ other < count, ¬ok other = true) := by
  induction count with
  | zero => exact ⟨nofun, fun _ _ below => absurd below (Nat.not_lt_zero _)⟩
  | succ count ih =>
    unfold rfind
    by_cases last : ok count = true
    · rw [if_pos last]
      refine ⟨?_, nofun⟩
      rintro _ ⟨⟩
      exact ⟨last, Nat.lt_succ_self _, fun other below _ => Nat.le_of_lt_succ below⟩
    · rw [if_neg last]
      have before : ∀ other < count + 1, ok other = true → other < count := by
        intro other below holds
        rcases Nat.lt_succ_iff_lt_or_eq.mp below with inside | rfl
        · exact inside
        · exact absurd holds last
      refine ⟨?_, ?_⟩
      · intro rung found
        obtain ⟨holds, below, top⟩ := ih.1 rung found
        exact ⟨holds, below.trans (Nat.lt_succ_self _),
          fun other inside good => top other (before other inside good) good⟩
      · intro none other below holds
        exact ih.2 none other (before other below holds) holds

/-- The rung chosen is the least good one from `needed` on, or the last good one where none is left there. -/
theorem chooseRung_spec {ok : Nat → Bool} {count needed rung : Nat} (chosen : chooseRung ok count needed = some rung) :
    ok rung = true ∧ rung < count ∧
      ((needed ≤ rung ∧ ∀ other < count, ok other = true → needed ≤ other → rung ≤ other) ∨
        ∀ other < count, ok other = true → other < needed ∧ other ≤ rung) := by
  unfold chooseRung at chosen
  rw [List.find?_filter] at chosen
  cases found : (List.range count).find? (fun rung => decide (ok rung = true ∧ decide (needed ≤ rung) = true)) with
  | some least =>
    rw [found] at chosen
    cases chosen
    obtain ⟨holds, inside, before⟩ := List.find?_range_eq_some.mp found
    simp only [decide_eq_true_eq] at holds
    refine ⟨holds.1, List.mem_range.mp inside, Or.inl ⟨holds.2, ?_⟩⟩
    intro other below good far
    by_contra lower
    have contrary := before other (Nat.lt_of_not_le lower)
    simp [good, far] at contrary
  | none =>
    rw [found] at chosen
    have last : rfind ok count = some rung := chosen
    obtain ⟨holds, below, top⟩ := (rfind_spec ok count).1 rung last
    refine ⟨holds, below, Or.inr ?_⟩
    intro other inside good
    have misses := List.find?_eq_none.mp found other (List.mem_range.mpr inside)
    simp only [decide_eq_true_eq, not_and, Nat.not_le] at misses
    exact ⟨misses good, top other inside good⟩

/-- What every higher rung keeps: the inputs, the scripts, and no output above its value below. -/
structure Lowers (lower higher : Transaction) : Prop where
  input : higher.input = lower.input
  outputs : List.Forall₂ (fun out below => out.scriptPubkey = below.scriptPubkey ∧ out.value ≤ below.value)
    higher.output lower.output

/-- One rung over the next lower one, with a total below its total. -/
structure Bumped (lower higher : Transaction) : Prop extends Lowers lower higher where
  falls : outputSum higher < outputSum lower

theorem Lowers.refl (tx : Transaction) : Lowers tx tx :=
  ⟨rfl, List.forall₂_same.mpr (fun _ _ => ⟨rfl, le_rfl⟩)⟩

theorem Lowers.trans {a b c : Transaction} (first : Lowers a b) (second : Lowers b c) : Lowers a c :=
  ⟨second.input.trans first.input,
    forall₂_compose (fun ⟨same, less⟩ ⟨same', less'⟩ => ⟨same.trans same', less.trans less'⟩) second.outputs first.outputs⟩

theorem Bumped.trans {a b c : Transaction} (first : Bumped a b) (second : Bumped b c) : Bumped a c :=
  ⟨first.toLowers.trans second.toLowers, second.falls.trans first.falls⟩

instance : Trans Bumped Bumped Bumped := ⟨Bumped.trans⟩

/-- A fold that adds some outputs, chosen by their scripts, falls with the values. -/
theorem foldl_le_of_lowers (counts : Script → Bool) {outputs below : List TxOut} {start start' : Nat}
    (each : List.Forall₂ (fun out below => out.scriptPubkey = below.scriptPubkey ∧ out.value ≤ below.value) outputs below)
    (less : start ≤ start') :
    outputs.foldl (fun acc o => if counts o.scriptPubkey then satAdd acc o.value else acc) start ≤
      below.foldl (fun acc o => if counts o.scriptPubkey then satAdd acc o.value else acc) start' := by
  induction each generalizing start start' with
  | nil => exact less
  | cons first _ ih =>
    rw [List.foldl_cons, List.foldl_cons, first.1]
    apply ih
    split_ifs
    · have value := first.2
      unfold satAdd
      omega
    · exact less

variable {lower higher : Transaction}

theorem Lowers.satOutputs_le (lowers : Lowers lower higher) : satOutputs higher ≤ satOutputs lower := by
  have folded := foldl_le_of_lowers (fun _ => true) lowers.outputs (le_refl 0)
  simpa [satOutputs] using folded

theorem Lowers.deliveredValue_le (lowers : Lowers lower higher) (policy : SweepPolicy) (env : SweepEnv)
    (escape : Descriptor) : deliveredValue policy env escape higher ≤ deliveredValue policy env escape lower :=
  foldl_le_of_lowers (fun spk => derivesWithin escape spk policy.checkParams.maxDerivationIndex) lowers.outputs le_rfl

/-- The values are not in the size, so every rung has the base's. -/
theorem Lowers.weight_eq (lowers : Lowers lower higher) : weight (bare higher) = weight (bare lower) := by
  have sizes : higher.output.map outputSize = lower.output.map outputSize := by
    rw [← List.forall₂_eq_eq_eq, List.forall₂_map_left_iff, List.forall₂_map_right_iff]
    exact lowers.outputs.imp (fun _ _ both => by rw [outputSize, outputSize, both.1])
  have inputs : (bare higher).input = (bare lower).input := by
    unfold bare
    rw [lowers.input]
  have lengths : higher.output.length = lower.output.length := lowers.outputs.length_eq
  have outputs : ∀ tx : Transaction, (bare tx).output = tx.output := fun _ => rfl
  unfold weight baseSize totalSize usesSegwitSerialization
  simp only [inputs, outputs, sizes, lengths]

theorem Lowers.bound_eq (lowers : Lowers lower higher) (maxWeight : Nat) :
    maximumFinalizedVsizeFor (vaultSizing maxWeight) higher = maximumFinalizedVsizeFor (vaultSizing maxWeight) lower := by
  unfold maximumFinalizedVsizeFor vaultSizing
  simp only [lowers.weight_eq, lowers.input]

/-- Along a ladder the feerate only rises. -/
theorem Lowers.feerate (lowers : Lowers lower higher) {asked : Nat} (env : SweepEnv)
    (pays : asked ≤ env.totalIn - satOutputs lower) : asked ≤ env.totalIn - satOutputs higher :=
  pays.trans (Nat.sub_le_sub_left lowers.satOutputs_le _)

/-- What a rung between two admissible ones asks, the lower one pays and the higher one covers. -/
theorem Admissible.between {policy : SweepPolicy} {env : SweepEnv} {low middle high : Transaction} {size : Nat}
    (atLow : Admissible policy env low size) (atHigh : Admissible policy env high size) (up : Lowers low middle)
    (down : Lowers middle high) : Admissible policy env middle size := by
  refine ⟨?_, atLow.size, up.feerate env atLow.feerate, ?_⟩
  · rw [up.input]
    exact atLow.sequence
  · obtain ⟨escape, known, covered⟩ := atHigh.coverage
    exact ⟨escape, known, covered.trans (Nat.mul_le_mul_right _ (down.deliveredValue_le policy env escape))⟩

/-- Rungs in ascending order of their fees: each lowers the outputs of the one below it. -/
def IsLadder (rungs : List Transaction) : Prop := rungs.IsChain Bumped

theorem IsLadder.lowers {rungs : List Transaction} (ladder : IsLadder rungs) {i j : Nat} {low high : Transaction}
    (ordered : i ≤ j) (atLow : rungs[i]? = some low) (atHigh : rungs[j]? = some high) : Lowers low high := by
  obtain ⟨inside, rfl⟩ := List.getElem?_eq_some_iff.mp atLow
  obtain ⟨inside', rfl⟩ := List.getElem?_eq_some_iff.mp atHigh
  rcases Nat.lt_or_eq_of_le ordered with below | rfl
  · exact (List.pairwise_iff_getElem.mp (List.isChain_iff_pairwise.mp ladder) i j inside inside' below).toLowers
  · exact Lowers.refl _

/-! ### The scored ladder -/

/-- Every rung is judged over one common size, and nothing is listed beyond the rungs. -/
structure Scored (policy : SweepPolicy) (env : SweepEnv) (ladder : ScoredLadder) (size : Nat) : Prop where
  totalIn : ladder.totalIn = env.totalIn
  sizes : ∀ (rung : Nat) tx, ladder.rungs[rung]? = some tx → ladder.maximumVsizes[rung]? = some size
  verdicts : ∀ rung : Nat, ladder.admissible[rung]? =
    (ladder.rungs[rung]?).map (fun tx => sweepRungAdmissible policy env tx size)

theorem scoreLadder_ok {policy : SweepPolicy} {maxWeight : Nat} {env : SweepEnv} {rungs : List Transaction}
    {ladder : ScoredLadder} (ascending : IsLadder rungs) (nonempty : rungs ≠ [])
    (scored : scoreLadder policy (vaultSizing maxWeight) env rungs = .ok ladder) :
    ladder.rungs = rungs ∧ ∃ size, Scored policy env ladder size ∧
      ∀ tx ∈ rungs, maximumFinalizedVsizeFor (vaultSizing maxWeight) tx = .ok size := by
  unfold scoreLadder at scored
  cases sized : rungs.mapM (maximumFinalizedVsizeFor (vaultSizing maxWeight)) with
  | error detail =>
    rw [sized] at scored
    cases scored
  | ok vsizes =>
    rw [sized] at scored
    cases scored
    have each := forall₂_of_mapM sized
    obtain ⟨base, rest, rfl⟩ := List.exists_cons_of_ne_nil nonempty
    have bound : ∀ (rung : Nat) tx, (base :: rest)[rung]? = some tx →
        maximumFinalizedVsizeFor (vaultSizing maxWeight) tx = maximumFinalizedVsizeFor (vaultSizing maxWeight) base :=
      fun rung tx found => (ascending.lowers (Nat.zero_le rung) rfl found).bound_eq maxWeight
    obtain ⟨size, tail, first, _, rfl⟩ := List.forall₂_cons_left_iff.mp each
    have all : ∀ tx ∈ base :: rest, maximumFinalizedVsizeFor (vaultSizing maxWeight) tx = .ok size := by
      intro tx member
      obtain ⟨rung, found⟩ := List.getElem?_of_mem member
      exact (bound rung tx found).trans first
    have sizes : ∀ (rung : Nat) tx, (base :: rest)[rung]? = some tx → (size :: tail)[rung]? = some size := by
      intro rung tx found
      obtain ⟨inside, rfl⟩ := List.getElem?_eq_some_iff.mp found
      have inside' : rung < (size :: tail).length := each.length_eq ▸ inside
      have here := each.get inside inside'
      rw [List.getElem?_eq_some_iff]
      refine ⟨inside', ?_⟩
      have same := (all _ (List.getElem_mem inside)).symm.trans here
      exact (Except.ok.inj same).symm
    refine ⟨rfl, size, ⟨rfl, sizes, ?_⟩, all⟩
    intro rung
    rw [List.getElem?_map]
    cases found : (base :: rest)[rung]? with
    | none =>
      have outside : ((base :: rest).zip (size :: tail))[rung]? = none := by
        rw [List.getElem?_eq_none_iff, List.length_zip]
        exact (Nat.min_le_left _ _).trans (List.getElem?_eq_none_iff.mp found)
      rw [outside]
      rfl
    | some tx =>
      have pair : ((base :: rest).zip (size :: tail))[rung]? = some (tx, size) := by
        rw [List.getElem?_zip_eq_some]
        exact ⟨found, sizes rung tx found⟩
      rw [pair]
      rfl

section Selection

variable {policy : SweepPolicy} {env : SweepEnv} {ladder : ScoredLadder} {size : Nat}

theorem Scored.passes_iff (scored : Scored policy env ladder size) (rung : Nat) :
    ladder.passes rung = true ↔ ∃ tx, ladder.rungs[rung]? = some tx ∧ Admissible policy env tx size := by
  unfold ScoredLadder.passes
  rw [scored.verdicts]
  cases ladder.rungs[rung]? with
  | none => simp
  | some tx =>
    simp only [Option.map_some, Option.any_some, Option.some.injEq, exists_eq_left']
    rw [← sweepRungAdmissible_ok_iff]
    cases sweepRungAdmissible policy env tx size with
    | ok _ => simp [Except.isOk, Except.toBool]
    | error _ => simp [Except.isOk, Except.toBool]

theorem Scored.reaches_iff (scored : Scored policy env ladder size) (required rung : Nat) :
    ladder.reaches required rung = true ↔
      ∃ tx, ladder.rungs[rung]? = some tx ∧ required * size ≤ env.totalIn - satOutputs tx := by
  unfold ScoredLadder.reaches
  cases found : ladder.rungs[rung]? with
  | none => simp
  | some tx => simp [scored.sizes rung tx found, scored.totalIn]

theorem Scored.inside (scored : Scored policy env ladder size) {rung : Nat} (passes : ladder.passes rung = true) :
    rung < ladder.rungs.length := by
  obtain ⟨tx, found, _⟩ := (scored.passes_iff rung).mp passes
  exact (List.getElem?_eq_some_iff.mp found).1

/-- The rungs that pass are an interval: the feerate only rises along the ladder and the coverage only falls. -/
theorem Scored.interval (scored : Scored policy env ladder size) (ascending : IsLadder ladder.rungs)
    {low middle high : Nat} (first : low ≤ middle) (second : middle ≤ high) (atLow : ladder.passes low = true)
    (atHigh : ladder.passes high = true) : ladder.passes middle = true := by
  obtain ⟨lowTx, foundLow, admitsLow⟩ := (scored.passes_iff low).mp atLow
  obtain ⟨highTx, foundHigh, admitsHigh⟩ := (scored.passes_iff high).mp atHigh
  have inside : middle < ladder.rungs.length := second.trans_lt (scored.inside atHigh)
  have found : ladder.rungs[middle]? = some ladder.rungs[middle] := List.getElem?_eq_getElem inside
  exact (scored.passes_iff middle).mpr ⟨_, found,
    admitsLow.between admitsHigh (ascending.lowers first foundLow found) (ascending.lowers second found foundHigh)⟩

/-- A rung above one that reaches the feerate reaches it. -/
theorem Scored.reaches_up (scored : Scored policy env ladder size) (ascending : IsLadder ladder.rungs)
    {required rung above : Nat} (higher : rung ≤ above) (inside : above < ladder.rungs.length)
    (reaches : ladder.reaches required rung = true) : ladder.reaches required above = true := by
  obtain ⟨tx, found, pays⟩ := (scored.reaches_iff required rung).mp reaches
  have found' : ladder.rungs[above]? = some ladder.rungs[above] := List.getElem?_eq_getElem inside
  exact (scored.reaches_iff required above).mpr ⟨_, found', (ascending.lowers higher found found').feerate env pays⟩

/-- The rung needed: the first that reaches the feerate, and the top where none does. -/
theorem neededRung_spec (ladder : ScoredLadder) (required : Nat) :
    (ladder.reaches required (neededRung ladder required) = true ∧
        ∀ rung < ladder.rungs.length, ladder.reaches required rung = true → neededRung ladder required ≤ rung) ∨
      (neededRung ladder required = ladder.rungs.length - 1 ∧
        ∀ rung < ladder.rungs.length, ¬ladder.reaches required rung = true) := by
  unfold neededRung
  cases found : (List.range ladder.rungs.length).find? (ladder.reaches required) with
  | none =>
    refine Or.inr ⟨rfl, ?_⟩
    intro rung inside
    exact List.find?_eq_none.mp found rung (List.mem_range.mpr inside)
  | some first =>
    obtain ⟨reaches, _, before⟩ := List.find?_range_eq_some.mp found
    refine Or.inl ⟨reaches, ?_⟩
    intro rung _ here
    by_contra lower
    have contrary := before rung (Nat.lt_of_not_le lower)
    simp [here] at contrary

/-- The cheapest admissible rung that reaches the feerate, or the top admissible one where none reaches it. -/
def Cheapest (admissible reaches : Nat → Prop) (choice : Nat) : Prop :=
  IsLeast {rung | admissible rung ∧ reaches rung} choice ∨
    ((∀ rung, admissible rung → ¬reaches rung) ∧ IsGreatest {rung | admissible rung} choice)

theorem Scored.cheapest_of_chooseRung (scored : Scored policy env ladder size) (ascending : IsLadder ladder.rungs)
    {required choice : Nat}
    (chosen : chooseRung ladder.passes ladder.rungs.length (neededRung ladder required) = some choice) :
    Cheapest (fun rung => ladder.passes rung = true) (fun rung => ladder.reaches required rung = true) choice := by
  obtain ⟨passes, inside, spec⟩ := chooseRung_spec chosen
  rcases neededRung_spec ladder required with ⟨reaches, least⟩ | ⟨top, none⟩
  · rcases spec with ⟨far, first⟩ | last
    · refine Or.inl ⟨⟨passes, scored.reaches_up ascending far inside reaches⟩, ?_⟩
      rintro rung ⟨passes', reaches'⟩
      exact first rung (scored.inside passes') passes' (least rung (scored.inside passes') reaches')
    · refine Or.inr ⟨?_, passes, fun rung passes' => (last rung (scored.inside passes') passes').2⟩
      intro rung passes' reaches'
      exact absurd (least rung (scored.inside passes') reaches')
        (Nat.not_le_of_lt (last rung (scored.inside passes') passes').1)
  · refine Or.inr ⟨fun rung passes' => none rung (scored.inside passes'), passes, ?_⟩
    intro rung passes'
    have below := scored.inside passes'
    rcases spec with ⟨far, _⟩ | last
    · rw [top] at far
      omega
    · exact (last rung below passes').2

/-- How a ladder of several rungs is decided. -/
theorem selectEscapeRung_several {floor latch : Nat} {chain : FeeReadings} {selected : Nat × Nat × Nat}
    (several : ¬ladder.rungs.length ≤ 1) (done : selectEscapeRung floor chain latch ladder = .ok selected) :
    ∃ choice, chooseRung ladder.passes ladder.rungs.length (neededRung ladder (max (bumpTarget chain) floor)) =
        some choice ∧ selected = (max choice latch, bumpTarget chain, max (bumpTarget chain) floor) ∧
      ∀ reason, ladder.admissible[max choice latch]? ≠ some (.error reason) := by
  unfold selectEscapeRung at done
  simp only at done
  rw [if_neg several] at done
  cases chosen : chooseRung ladder.passes ladder.rungs.length (neededRung ladder (max (bumpTarget chain) floor)) with
  | none =>
    rw [chosen] at done
    cases done
  | some choice =>
    rw [chosen] at done
    simp only at done
    split at done
    · cases done
    · rename_i accepted
      exact ⟨choice, rfl, (Except.ok.inj done).symm, accepted⟩

/-- A single rung fires where it passes. -/
theorem selectEscapeRung_single {floor latch : Nat} {chain : FeeReadings} {selected : Nat × Nat × Nat}
    (single : ladder.rungs.length ≤ 1) (done : selectEscapeRung floor chain latch ladder = .ok selected) :
    ladder.passes 0 = true ∧ selected = (0, 0, floor) := by
  unfold selectEscapeRung at done
  simp only at done
  rw [if_pos single] at done
  unfold ScoredLadder.passes
  rw [← List.head?_eq_getElem?]
  cases first : ladder.admissible.head? with
  | none =>
    rw [first] at done
    cases done
  | some verdict =>
    rw [first] at done
    cases verdict with
    | error reason => cases done
    | ok _ => exact ⟨rfl, (Except.ok.inj done).symm⟩

/-- The rung selected is the cheapest one, raised to the latch, and it passes. -/
theorem Scored.selectEscapeRung_spec (scored : Scored policy env ladder size) (ascending : IsLadder ladder.rungs)
    {floor latch : Nat} {chain : FeeReadings} {selected : Nat × Nat × Nat} (latched : latch < ladder.rungs.length)
    (done : selectEscapeRung floor chain latch ladder = .ok selected) :
    ladder.passes selected.1 = true ∧
      ∃ choice, Cheapest (fun rung => ladder.passes rung = true)
          (fun rung => ladder.reaches selected.2.2 rung = true) choice ∧ selected.1 = max choice latch := by
  by_cases single : ladder.rungs.length ≤ 1
  · obtain ⟨passes, rfl⟩ := selectEscapeRung_single single done
    have unlatched : latch = 0 := by omega
    have only : ∀ rung, ladder.passes rung = true → rung = 0 := by
      intro rung passes'
      have inside := scored.inside passes'
      omega
    refine ⟨passes, 0, ?_, by rw [unlatched]; rfl⟩
    by_cases reaches : ladder.reaches floor 0 = true
    · exact Or.inl ⟨⟨passes, reaches⟩, fun _ _ => Nat.zero_le _⟩
    · refine Or.inr ⟨?_, passes, fun rung passes' => (only rung passes').le⟩
      intro rung passes'
      rwa [only rung passes']
  · obtain ⟨choice, chosen, rfl, accepted⟩ := selectEscapeRung_several single done
    refine ⟨?_, choice, scored.cheapest_of_chooseRung ascending chosen, rfl⟩
    have below := (chooseRung_spec chosen).2.1
    have inside : max choice latch < ladder.rungs.length := max_lt below latched
    have verdict := scored.verdicts (max choice latch)
    rw [List.getElem?_eq_getElem inside, Option.map_some] at verdict
    unfold ScoredLadder.passes
    rw [verdict] at accepted ⊢
    cases judged : sweepRungAdmissible policy env ladder.rungs[max choice latch] size with
    | error reason => exact absurd (congrArg some judged) (accepted reason)
    | ok _ => rfl

/-- The lowest rung recorded passes, and it is not above the one selected. -/
theorem lowestAdmissible_spec {selected : Nat} (passes : ladder.passes selected = true) :
    ladder.passes (lowestAdmissible ladder selected) = true ∧ lowestAdmissible ladder selected ≤ selected := by
  refine ⟨?_, Nat.min_le_right _ _⟩
  unfold lowestAdmissible
  unfold ScoredLadder.passes at passes ⊢
  cases found : ladder.admissible.findIdx? Except.isOk with
  | none =>
    rw [Option.getD_none, Nat.min_self]
    exact passes
  | some first =>
    rw [Option.getD_some]
    rcases Nat.le_total first selected with lower | higher
    · rw [Nat.min_eq_left lower]
      obtain ⟨inside, good, _⟩ := List.findIdx?_eq_some_iff_getElem.mp found
      rw [List.getElem?_eq_getElem inside]
      exact good
    · rw [Nat.min_eq_right higher]
      exact passes

end Selection

/-! ### Passes over the armed escape -/

section Passes

variable (policy : SweepPolicy) (maxWeight : Nat)

/-- The rung passes the gate at its own largest size. -/
def RungAdmissible (env : SweepEnv) (rungs : List Transaction) (rung : Nat) : Prop :=
  ∃ tx size, rungs[rung]? = some tx ∧ maximumFinalizedVsizeFor (vaultSizing maxWeight) tx = .ok size ∧
    sweepRungAdmissible policy env tx size = .ok ()

theorem rungAdmissible_interval {env : SweepEnv} {rungs : List Transaction} (ascending : IsLadder rungs)
    {low middle high : Nat} (first : low ≤ middle) (second : middle ≤ high)
    (atLow : RungAdmissible policy maxWeight env rungs low) (atHigh : RungAdmissible policy maxWeight env rungs high) :
    RungAdmissible policy maxWeight env rungs middle := by
  obtain ⟨lowTx, size, foundLow, sizeLow, admitsLow⟩ := atLow
  obtain ⟨highTx, sizeAbove, foundHigh, sizeHigh, admitsHigh⟩ := atHigh
  have inside : middle < rungs.length := second.trans_lt (List.getElem?_eq_some_iff.mp foundHigh).1
  have found : rungs[middle]? = some rungs[middle] := List.getElem?_eq_getElem inside
  have up := ascending.lowers first foundLow found
  have down := ascending.lowers second found foundHigh
  have sameSize : sizeAbove = size := by
    rw [(up.trans down).bound_eq, sizeLow] at sizeHigh
    exact (Except.ok.inj sizeHigh).symm
  subst sameSize
  rw [sweepRungAdmissible_ok_iff] at admitsLow admitsHigh
  refine ⟨_, sizeAbove, found, (up.bound_eq maxWeight).trans sizeLow, ?_⟩
  rw [sweepRungAdmissible_ok_iff]
  exact admitsLow.between admitsHigh up down

variable {policy maxWeight}

theorem rungAdmissible_iff {env : SweepEnv} {rungs : List Transaction} {ladder : ScoredLadder}
    (ascending : IsLadder rungs) (nonempty : rungs ≠ [])
    (scored : scoreLadder policy (vaultSizing maxWeight) env rungs = .ok ladder) (rung : Nat) :
    RungAdmissible policy maxWeight env rungs rung ↔ ladder.passes rung = true := by
  obtain ⟨same, size, judged, sizes⟩ := scoreLadder_ok ascending nonempty scored
  rw [judged.passes_iff, same]
  constructor
  · rintro ⟨tx, size', found, bounded, admits⟩
    have here := (sizes tx (List.mem_of_getElem? found)).symm.trans bounded
    cases here
    exact ⟨tx, found, (sweepRungAdmissible_ok_iff _ _ _ _).mp admits⟩
  · rintro ⟨tx, found, admits⟩
    exact ⟨tx, size, found, sizes tx (List.mem_of_getElem? found), (sweepRungAdmissible_ok_iff _ _ _ _).mpr admits⟩

theorem candidateRungTxs_length (c : Candidate) : (candidateRungTxs c).length = c.bumps.length + 1 := by
  simp [candidateRungTxs, Candidate.variants]

/-- Latching a rung from the latch up to the top of the ladder makes it the authorized one. -/
theorem latchRung_spec {c : Candidate} {selected lowest : Nat} (raised : c.authorizedRung ≤ selected)
    (inside : selected ≤ c.bumps.length) (below : lowest ≤ selected) :
    (PartialStore.latchRung selected lowest c).authorizedRung = selected ∧
      (PartialStore.latchRung selected lowest c).clampedFloor = lowest := by
  unfold PartialStore.latchRung Candidate.authorizedRung Candidate.clampedFloor
  unfold Candidate.authorizedRung at raised
  simp only
  split_ifs with lower
  · omega
  · omega

/-- The later candidate has the same ladder, and its latch has not fallen nor left the ladder. -/
structure Raised (c later : Candidate) : Prop where
  base : later.base = c.base
  bumps : later.bumps = c.bumps
  rung : c.rung ≤ later.rung
  bound : later.rung ≤ later.bumps.length

theorem Raised.trans {a b c : Candidate} (first : Raised a b) (second : Raised b c) : Raised a c :=
  ⟨second.base.trans first.base, second.bumps.trans first.bumps, first.rung.trans second.rung, second.bound⟩

end Passes

namespace SweepSample

def rung (value : Nat) : Transaction := ⟨2, 0, [⟨⟨[7], 0⟩, escapeRbfSequence⟩], [⟨value, [3]⟩]⟩

def variant (value : Nat) : SigningVariant := ⟨[], ⟨rung value, [], []⟩, [], [], ∅⟩

/-- A sweep that pays 500, and its bump that pays 700. -/
def candidate : Candidate :=
  { commitmentId := "e"
    role := .escape
    hot := false
    pairedCommitmentId := "s"
    holderQuorumReached := true
    base := variant 9500
    bumps := [variant 9300]
    rung := 0
    releaseFloor := 0
    expiry := 900
    fire := none
    released := false
    releasedThrough := none
    broadcast := false
    bytes := 0
    capacityBytes := 0 }

def store : PartialStore :=
  { initialStore Channel.Sample.config with candidates := (∅ : Map String Candidate).insert "e" candidate }

/-- The anchor block asks for more than the base pays. -/
def readings : SweepReadings := ⟨.ok ⟨10000, 10000, 0, true⟩, ⟨.ok 100, fun _ => .ok (some 13)⟩, fun _ => .ok ()⟩

end SweepSample

end BtcPolicy.Node
