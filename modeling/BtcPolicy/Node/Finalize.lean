import BtcPolicy.Node.Sweep

/-! Finalization over the ladder: which rung a quorum is taken from, and what the release floor has to do with it. -/

namespace BtcPolicy.Node
open FiniteMap Word Bitcoin Policy Runs Channel PartialStore

/-- The rung has its quorum and is the highest such up to `top`. -/
structure HighestQuorum (ch : ChannelState) (c : Candidate) (threshold top rung : Nat) (variant : SigningVariant) :
    Prop where
  below : rung ≤ top
  found : c.variant rung = some variant
  quorum : variant.hasQuorum threshold ch.nodes = true
  highest : ∀ above v, rung < above → above ≤ top → c.variant above = some v → ¬v.hasQuorum threshold ch.nodes = true

/-- Every variant with a quorum finalizes. -/
def QuorumFinalizes (ch : ChannelState) (c : Candidate) (threshold : Nat) : Prop :=
  ∀ rung v, c.variant rung = some v → v.hasQuorum threshold ch.nodes = true → (ch.lib.finalize v.psbt).isSome = true

section Search

variable {ch : ChannelState} {c : Candidate} {threshold deadline : Nat}

theorem finalizeFrom_spec (completes : QuorumFinalizes ch c threshold) {top : Nat} {finalized : FinalizedCandidate}
    (done : finalizeFrom ch c threshold deadline top = some finalized) :
    finalized.deadline = deadline ∧ ∃ variant, HighestQuorum ch c threshold top finalized.rung variant ∧
      ch.lib.finalize variant.psbt = some finalized.tx := by
  induction top with
  | zero =>
    unfold finalizeFrom at done
    cases found : c.variant 0 with
    | none => simp [found] at done
    | some variant =>
      by_cases quorum : variant.hasQuorum threshold ch.nodes = true
      · simp only [found, quorum, if_true] at done
        obtain ⟨tx, signed, rfl⟩ := Option.map_eq_some_iff.mp done
        refine ⟨rfl, variant, ⟨le_rfl, found, quorum, ?_⟩, signed⟩
        intro above _ higher inside
        omega
      · simp [found, quorum] at done
  | succ top ih =>
    unfold finalizeFrom at done
    cases found : c.variant (top + 1) with
    | none => simp [found] at done
    | some variant =>
      by_cases quorum : variant.hasQuorum threshold ch.nodes = true
      · obtain ⟨tx, signed⟩ := Option.isSome_iff_exists.mp (completes _ variant found quorum)
        simp only [found, quorum, if_true, signed, Option.some.injEq] at done
        subst done
        refine ⟨rfl, variant, ⟨le_rfl, found, quorum, ?_⟩, signed⟩
        intro above _ higher inside
        exact absurd inside (Nat.not_le_of_lt higher)
      · simp only [found, quorum] at done
        obtain ⟨deadline, other, highest, signed⟩ := ih done
        refine ⟨deadline, other, ⟨highest.below.trans (Nat.le_succ top), highest.found, highest.quorum, ?_⟩, signed⟩
        intro above v higher inside present
        rcases Nat.lt_succ_iff_lt_or_eq.mp (Nat.lt_succ_of_le inside) with lower | rfl
        · exact highest.highest above v higher (Nat.le_of_lt_succ lower) present
        · cases found.symm.trans present
          exact quorum

/-- The search runs only for a live, unfrozen, unbroadcast candidate in its window. -/
theorem tryFinalize_gate {s : PartialStore} {id : String} {now : Nat} {finalized : FinalizedCandidate}
    (done : s.tryFinalize ch id threshold now = some finalized) :
    ∃ c window, s.candidates.lookup id = some c ∧ s.slotActive c = true ∧ s.frozen c = false ∧ c.broadcast = false ∧
      c.fire = some window ∧ window.isOpen now = true ∧
      finalizeFrom ch c threshold window.deadline c.authorizedRung = some finalized := by
  unfold tryFinalize at done
  cases found : s.candidates.lookup id with
  | none => simp [found] at done
  | some c =>
    rw [found] at done
    simp only at done
    split_ifs at done with gate
    simp only [Bool.or_eq_true, Bool.not_eq_true', not_or, Bool.not_eq_true] at gate
    cases scheduled : c.fire with
    | none => simp [scheduled] at done
    | some window =>
      rw [scheduled] at done
      simp only at done
      split_ifs at done with closed
      simp only [Bool.or_eq_true, Bool.not_eq_true', not_or, Bool.not_eq_true, Bool.not_eq_false] at closed
      exact ⟨c, window, rfl, by simpa using gate.1, gate.2, closed.2, scheduled, closed.1, done⟩

end Search

/-- The transaction is taken from the highest rung up to the latch that has its quorum. The release floor does not
bound the search: the rung is below it exactly where no rung from the floor on has one. -/
theorem try_finalize_best (ch : ChannelState) (s : PartialStore) (id : String) (threshold now : Nat)
    (completes : ∀ c, s.candidates.lookup id = some c → QuorumFinalizes ch c threshold)
    (extracts : ∀ psbt tx, ch.lib.finalize psbt = some tx →
      tx.input = psbt.unsignedTx.input ∧ tx.output = psbt.unsignedTx.output)
    (finalized : FinalizedCandidate) (done : s.tryFinalize ch id threshold now = some finalized) :
    ∃ c window variant, s.candidates.lookup id = some c ∧ s.slotActive c = true ∧ s.frozen c = false ∧
      c.broadcast = false ∧ c.fire = some window ∧ window.isOpen now = true ∧ finalized.deadline = window.deadline ∧
      HighestQuorum ch c threshold c.authorizedRung finalized.rung variant ∧
      finalized.tx.input = variant.psbt.unsignedTx.input ∧ finalized.tx.output = variant.psbt.unsignedTx.output ∧
      (finalized.rung < c.clampedFloor ↔ ∀ rung v, c.clampedFloor ≤ rung → rung ≤ c.authorizedRung →
        c.variant rung = some v → ¬v.hasQuorum threshold ch.nodes = true) := by
  obtain ⟨c, window, found, slot, unfrozen, unsent, scheduled, inside, searched⟩ := tryFinalize_gate done
  obtain ⟨deadline, variant, best, signed⟩ := finalizeFrom_spec (completes c found) searched
  obtain ⟨inputs, outputs⟩ := extracts _ _ signed
  refine ⟨c, window, variant, found, slot, unfrozen, unsent, scheduled, inside, deadline, best, inputs, outputs, ?_, ?_⟩
  · intro lower rung v floor upper present
    exact best.highest rung v (lower.trans_le floor) upper present
  · intro none
    by_contra above
    exact none finalized.rung variant (Nat.le_of_not_lt above) best.below best.found best.quorum

/-! ### A quorum below the floor -/

namespace FinalizeSample
open Channel.Sample

/-- Transaction ids that separate the rungs by their outputs. -/
def library : Library := { Channel.Sample.library with computeTxid := fun tx => leBytes 32 (outputSum tx) }

def channel : ChannelState := { Channel.Sample.channel with lib := library }

def rungPsbt (value : Nat) : Psbt := { psbt 1 0 with unsignedTx := SweepSample.rung value }

/-- An escape with one bump enters under duress and is armed, and member 1 sends its share of the base rung. -/
def armedRun : List StoreOp :=
  [.recordArmIntent true "carrier-a" "nonce-a" (generation 900 900) 0 0 timing,
    .registerCandidates [spend "a" "e" 1 10 true (some ⟨100, 300⟩) 900,
        ⟨⟨rungPsbt 9500, [rungPsbt 9300], "e", "a", false, .escape, false, none, 900⟩, keys⟩]
      ⟨"e", "a", "carrier-a", true, 5, 0⟩ (some ⟨"a", 40000, 0, 900⟩) 0,
    .markCarrierPropagated "carrier-a",
    .confirmCarrier 1 "carrier-a" 2 10 timing 10,
    .acceptPartial ⟨"e", leBytes 32 9500, leBytes 32 7, 0, 1, [48, 9]⟩ 20]

/-- The floor is above the feerate of the base rung and below that of the bump. -/
def policy : SweepPolicy := { SweepSample.policy with escapeFeerateFloor := 10 }

def env : SweepEnv := ⟨10000, 10000, 0, true⟩

/-- The pass at `T` latches the bump and records it as the release floor. -/
def latchedStore : PartialStore :=
  (escapeSweepPreReleaseAdmissible policy (vaultSizing 10) "e" (storeAfter channel config armedRun)
    SweepSample.readings).1

end FinalizeSample

/-- The base rung is refused by the pass and is below the floor that the pass records, and yet it is what finalizes. -/
theorem finalizes_below_floor :
    RungAdmissible FinalizeSample.policy 10 FinalizeSample.env [SweepSample.rung 9500, SweepSample.rung 9300] 1 ∧
      ¬RungAdmissible FinalizeSample.policy 10 FinalizeSample.env [SweepSample.rung 9500, SweepSample.rung 9300] 0 ∧
      (FinalizeSample.latchedStore.candidates.lookup "e").map
          (fun c => (candidateRungTxs c, c.clampedFloor, c.authorizedRung)) =
        some ([SweepSample.rung 9500, SweepSample.rung 9300], 1, 1) ∧
      (FinalizeSample.latchedStore.tryFinalize FinalizeSample.channel "e" 2 95).map FinalizedCandidate.rung = some 0 := by
  refine ⟨⟨SweepSample.rung 9300, 65, rfl, by rfl, by rfl⟩, ?_, by decide, by decide +kernel⟩
  rintro ⟨tx, size, found, bounded, admits⟩
  cases found
  have size65 : maximumFinalizedVsizeFor (vaultSizing 10) (SweepSample.rung 9500) = .ok 65 := by rfl
  cases size65.symm.trans bounded
  have feerate := ((sweepRungAdmissible_ok_iff _ _ _ _).mp admits).feerate
  exact absurd feerate (by decide)

theorem try_finalize_best_sample :
    ∃ c variant, FinalizeSample.latchedStore.candidates.lookup "e" = some c ∧
      HighestQuorum FinalizeSample.channel c 2 c.authorizedRung 0 variant := by
  have finalizes : ∀ psbt : Psbt, FinalizeSample.channel.lib.finalize psbt = some psbt.unsignedTx := fun _ => rfl
  have some_rung : (FinalizeSample.latchedStore.tryFinalize FinalizeSample.channel "e" 2 95).map
      FinalizedCandidate.rung = some 0 := by decide
  obtain ⟨finalized, done, base⟩ := Option.map_eq_some_iff.mp some_rung
  obtain ⟨c, _, variant, found, _, _, _, _, _, _, best, _⟩ := try_finalize_best FinalizeSample.channel
    FinalizeSample.latchedStore "e" 2 95 (fun _ _ _ v _ _ => by rw [finalizes]; rfl)
    (fun psbt tx extracted => by rw [finalizes] at extracted; cases extracted; exact ⟨rfl, rfl⟩) finalized done
  rw [base] at best
  exact ⟨c, variant, found, best⟩

end BtcPolicy.Node
