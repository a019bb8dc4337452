import BtcPolicy.Policy.Exact
import Mathlib.Algebra.Order.BigOperators.Group.List
import Mathlib.Algebra.Order.Group.Nat

/-! Relaxing a limit: with more destinations, a larger index bound or a larger budget, nothing that was accepted is
refused. The buckets an output can fall into only grow, and what is metered only shrinks. -/

namespace BtcPolicy.Policy
open FiniteMap Word Bitcoin Results

/-- The same wallets, with every limit as it was or wider. -/
structure Relaxed (first second : CheckParams) : Prop where
  vault : second.vault = first.vault
  escape : second.escape = first.escape
  allowed : first.allowed ⊆ second.allowed
  maxDerivationIndex : first.maxDerivationIndex ≤ second.maxDerivationIndex
  hotMaxPerTx : first.hotMaxPerTx ≤ second.hotMaxPerTx

theorem Derives.mono {descriptor : Descriptor} {max wider : Nat} {spk : Script} (bound : max ≤ wider)
    (derives : Derives descriptor max spk) : Derives descriptor wider spk := by
  obtain ⟨singles, split, single, member, index, within, derived⟩ := derives
  refine ⟨singles, split, single, member, index, within.trans ?_, derived⟩
  cases single.hasWildcard with
  | false => exact le_refl 0
  | true => exact bound

namespace Relaxed

variable {first second : CheckParams} (relaxed : Relaxed first second)

include relaxed

theorem derivesVault {spk : Script} (derives : DerivesVault first spk) : DerivesVault second spk := by
  unfold DerivesVault
  rw [relaxed.vault]
  exact derives.mono relaxed.maxDerivationIndex

theorem derivesEscape {spk : Script} (derives : DerivesEscape first spk) : DerivesEscape second spk := by
  obtain ⟨escape, known, derived⟩ := derives
  unfold DerivesEscape
  rw [relaxed.escape]
  exact ⟨escape, known, derived.mono relaxed.maxDerivationIndex⟩

theorem derivesAllowed {spk : Script} (derives : DerivesAllowed first spk) : DerivesAllowed second spk := by
  obtain ⟨descriptor, listed, derived⟩ := derives
  exact ⟨descriptor, relaxed.allowed listed, derived.mono relaxed.maxDerivationIndex⟩

theorem recognized {txout : TxOut} (known : Recognized first txout) : Recognized second txout :=
  known.imp relaxed.derivesAllowed relaxed.derivesVault

/-- An output that is still metered was metered before. -/
theorem exactHotOutflow_le (psbt : Psbt) : exactHotOutflow psbt second ≤ exactHotOutflow psbt first := by
  unfold exactHotOutflow
  refine List.Sublist.sum_le_sum (List.Sublist.map _ (List.monotone_filter_right _ ?_)) fun _ _ => Nat.zero_le _
  intro txout metered
  rw [decide_eq_true_iff] at metered ⊢
  exact ⟨fun vault => metered.1 (relaxed.derivesVault vault), fun escape => metered.2 (relaxed.derivesEscape escape)⟩

theorem hotOutflow_le (psbt : Psbt) : hotOutflow psbt second ≤ hotOutflow psbt first := by
  have exactly := relaxed.exactHotOutflow_le psbt
  rw [hotOutflow_eq, hotOutflow_eq, satAdd, satAdd]
  omega

theorem checkInputs {psbt : Psbt} (owned : checkInputs psbt first = .ok ()) :
    Policy.checkInputs psbt second = .ok () := by
  have derives := (firstError_ok_iff _ (checkInput_ok_iff first) 0 psbt.inputs).mp owned
  refine (firstError_ok_iff _ (checkInput_ok_iff second) 0 psbt.inputs).mpr ?_
  intro input member utxo known
  exact relaxed.derivesVault (derives input member utxo known)

theorem checkDestinations {psbt : Psbt} (known : checkDestinations psbt first = .ok ()) :
    Policy.checkDestinations psbt second = .ok () := by
  have each := (firstError_ok_iff _ (checkDestination_ok_iff first) 0 _).mp known
  refine (firstError_ok_iff _ (checkDestination_ok_iff second) 0 _).mpr ?_
  intro output member
  exact relaxed.recognized (each output member)

theorem checkHotBudget {psbt : Psbt} (within : checkHotBudget psbt first = .ok ()) :
    Policy.checkHotBudget psbt second = .ok () := by
  unfold Policy.checkHotBudget at within ⊢
  simp only at within ⊢
  by_cases exceeds : first.hotMaxPerTx < hotOutflow psbt first
  · rw [if_pos exceeds] at within
    cases within
  · have budget := relaxed.hotMaxPerTx
    have metered := relaxed.hotOutflow_le psbt
    rw [if_neg (by omega)]

end Relaxed

/-- What is accepted is accepted under every wider limit, and the outflow that is metered never grows. -/
theorem evaluate_is_monotone (psbt : Psbt) {first second : CheckParams} (relaxed : Relaxed first second) :
    (evaluate psbt first = .ok () → evaluate psbt second = .ok ()) ∧
      hotOutflow psbt second ≤ hotOutflow psbt first := by
  refine ⟨?_, relaxed.hotOutflow_le psbt⟩
  intro accepted
  obtain ⟨consistent, owned, known, budget, fee⟩ := (evaluate_ok_iff psbt first).mp accepted
  exact (evaluate_ok_iff psbt second).mpr
    ⟨consistent, relaxed.checkInputs owned, relaxed.checkDestinations known, relaxed.checkHotBudget budget, fee⟩

namespace Sample

/-- A further destination, an index more and a larger budget. -/
def wider : CheckParams := ⟨descriptor [1], [descriptor [4], descriptor [2], descriptor [3]], some (descriptor [3]), 11, 501⟩

end Sample

theorem evaluate_is_monotone_spend : evaluate Sample.spend Sample.wider = .ok () :=
  (evaluate_is_monotone Sample.spend
    (⟨rfl, rfl, List.subset_cons_self _ _, Nat.le_succ 10, Nat.le_succ 500⟩ : Relaxed Sample.params Sample.wider)).1 rfl

end BtcPolicy.Policy
