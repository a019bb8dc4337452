import Mathlib.Algebra.BigOperators.Group.Finset.Basic
import Mathlib.Algebra.Order.BigOperators.Group.Finset
import Mathlib.Data.Fintype.Card
import Mathlib.Data.List.FinRange
import Mathlib.Tactic

/-! Double counting: how much a set of items can weigh when each is carried by many holders and every holder
carries little. -/

namespace BtcPolicy.Counting

variable {ι κ ε : Type}

/-- A set whose members are listed, each with its weight, weighs no more than the list. -/
theorem sum_le_of_listed [DecidableEq κ] (key : ε → κ) (amount : ε → Nat) (weight : κ → Nat) (items : List ε)
    (chosen : Finset κ) (listed : ∀ k ∈ chosen, ∃ e ∈ items, key e = k ∧ amount e = weight k) :
    ∑ k ∈ chosen, weight k ≤ (items.map amount).sum := by
  induction items generalizing chosen with
  | nil =>
    have empty : chosen = ∅ := by
      apply Finset.eq_empty_of_forall_notMem
      intro k member
      obtain ⟨e, absent, _⟩ := listed k member
      cases absent
    simp [empty]
  | cons e rest ih =>
    -- Drop the key of the first item if its weight is the one listed, and keep the set otherwise.
    by_cases counted : key e ∈ chosen ∧ amount e = weight (key e)
    · have others : ∑ k ∈ chosen.erase (key e), weight k ≤ (rest.map amount).sum := by
        apply ih
        intro k member
        obtain ⟨different, inside⟩ := Finset.mem_erase.mp member
        obtain ⟨other, present, same, amounts⟩ := listed k inside
        rcases List.mem_cons.mp present with here | later
        · exact absurd (here ▸ same).symm different
        · exact ⟨other, later, same, amounts⟩
      rw [List.map_cons, List.sum_cons, ← Finset.add_sum_erase _ _ counted.1, ← counted.2]
      omega
    · have all : ∑ k ∈ chosen, weight k ≤ (rest.map amount).sum := by
        apply ih
        intro k member
        obtain ⟨other, present, same, amounts⟩ := listed k member
        rcases List.mem_cons.mp present with here | later
        · subst here same
          exact absurd ⟨member, amounts⟩ counted
        · exact ⟨other, later, same, amounts⟩
      rw [List.map_cons, List.sum_cons]
      omega

/-- A set listed without repetitions, joined with another: what is in both is counted with the first. -/
theorem sum_union_listed [DecidableEq κ] (weight : κ → Nat) {first second : List κ} (once : first.Nodup)
    (once' : second.Nodup) :
    ∑ k ∈ first.toFinset ∪ second.toFinset, weight k =
      (first.map weight).sum + ((second.filter (fun k => decide (k ∉ first))).map weight).sum := by
  have split : first.toFinset ∪ second.toFinset =
      first.toFinset ∪ (second.filter (fun k => decide (k ∉ first))).toFinset := by
    ext k
    simp only [Finset.mem_union, List.mem_toFinset, List.mem_filter, decide_eq_true_eq]
    by_cases here : k ∈ first
    · simp [here]
    · simp [here]
  have apart : Disjoint first.toFinset (second.filter (fun k => decide (k ∉ first))).toFinset := by
    rw [Finset.disjoint_left]
    intro k inFirst inSecond
    simp only [List.mem_toFinset, List.mem_filter, decide_eq_true_eq] at inFirst inSecond
    exact inSecond.2 inFirst
  rw [split, Finset.sum_union apart, List.sum_toFinset _ once, List.sum_toFinset _ (once'.filter _)]

/-- The entry of a key that is listed once. -/
theorem find?_of_nodup [DecidableEq κ] {entries : List (κ × ε)} (once : (entries.map Prod.fst).Nodup) {entry : κ × ε}
    (member : entry ∈ entries) : entries.find? (fun other => decide (other.1 = entry.1)) = some entry := by
  induction entries with
  | nil => cases member
  | cons first rest ih =>
    rw [List.map_cons, List.nodup_cons] at once
    rcases List.mem_cons.mp member with rfl | later
    · simp
    · have other : first.1 ≠ entry.1 := by
        intro same
        exact once.1 (same ▸ List.mem_map_of_mem later)
      rw [List.find?_cons_of_neg (by simpa using other)]
      exact ih once.2 later

/-- A sum over items, gathered by their keys. -/
theorem sum_by_key [DecidableEq κ] (key : ε → κ) (weight : κ → Nat) (items : List ε) :
    ((items.map key).dedup.map (fun k => (items.filter (fun e => decide (key e = k))).length * weight k)).sum =
      (items.map (fun e => weight (key e))).sum := by
  have counted := Finset.sum_list_map_count (items.map key) weight
  rw [List.map_map] at counted
  have listed : (items.map key).dedup.toFinset = (items.map key).toFinset := by
    ext k
    rw [List.mem_toFinset, List.mem_toFinset, List.mem_dedup]
  rw [← List.sum_toFinset _ (List.nodup_dedup _), listed]
  refine Eq.trans ?_ counted.symm
  apply Finset.sum_congr rfl
  intro k _
  rw [List.count_eq_countP, List.countP_map, List.countP_eq_length_filter, smul_eq_mul]
  congr 2

/-- The sum over a list, read off its positions. -/
theorem sum_map_eq_sum_range (weight : ε → Nat) (items : List ε) :
    (items.map weight).sum = ∑ i ∈ Finset.range items.length, (items[i]?).elim 0 weight := by
  induction items with
  | nil => rfl
  | cons x rest ih =>
    rw [List.map_cons, List.sum_cons, ih, List.length_cons, Finset.sum_range_succ']
    simp [Nat.add_comm]

/-- Rewriting one position changes the sum by the difference there. -/
theorem sum_map_set (weight : ε → Nat) {items : List ε} {i : Nat} {old : ε} (new : ε)
    (found : items[i]? = some old) :
    ((items.set i new).map weight).sum + weight old = (items.map weight).sum + weight new := by
  induction items generalizing i with
  | nil => simp at found
  | cons x rest ih =>
    cases i with
    | zero =>
      have here : x = old := by simpa using found
      simp only [List.set_cons_zero, List.map_cons, List.sum_cons, here]
      omega
    | succ i =>
      have later := ih (i := i) (by simpa using found)
      simp only [List.set_cons_succ, List.map_cons, List.sum_cons]
      omega

theorem sum_map_modify (weight : ε → Nat) (f : ε → ε) {items : List ε} {i : Nat} {old : ε}
    (found : items[i]? = some old) :
    ((items.modify i f).map weight).sum + weight old = (items.map weight).sum + weight (f old) := by
  have same : items.modify i f = items.set i (f old) := by
    apply List.ext_getElem?
    intro j
    rw [List.getElem?_modify, List.getElem?_set]
    split_ifs with here inside
    · rw [← here, found]
      rfl
    · rw [List.getElem?_eq_none (Nat.le_of_not_lt (here ▸ inside))]
      rfl
    · simp
  rw [same]
  exact sum_map_set weight (f old) found

theorem weight_le_sum (weight : ε → Nat) {items : List ε} {x : ε} (member : x ∈ items) :
    weight x ≤ (items.map weight).sum :=
  List.single_le_sum (fun _ _ => Nat.zero_le _) _ (List.mem_map_of_mem member)

/-- If every item has at least `copies` holders and every holder carries at most `cap`, then `copies` times the
weight of all items is at most the number of holders times `cap`. -/
theorem mul_sum_le_card_mul [DecidableEq ι] (holders : Finset ι) (items : Finset κ) (carries : ι → κ → Prop)
    [∀ i k, Decidable (carries i k)] (weight : κ → Nat) (copies cap : Nat)
    (many : ∀ k ∈ items, copies ≤ (holders.filter (fun i => carries i k)).card)
    (little : ∀ i ∈ holders, ∑ k ∈ items.filter (fun k => carries i k), weight k ≤ cap) :
    copies * ∑ k ∈ items, weight k ≤ holders.card * cap := by
  calc
    copies * ∑ k ∈ items, weight k = ∑ k ∈ items, copies * weight k := Finset.mul_sum _ _ _
    _ ≤ ∑ k ∈ items, (holders.filter (fun i => carries i k)).card * weight k :=
      Finset.sum_le_sum (fun k member => Nat.mul_le_mul_right _ (many k member))
    _ = ∑ k ∈ items, ∑ i ∈ holders, if carries i k then weight k else 0 := by
      refine Finset.sum_congr rfl (fun k _ => ?_)
      rw [← Finset.sum_filter, Finset.sum_const, smul_eq_mul]
    _ = ∑ i ∈ holders, ∑ k ∈ items, if carries i k then weight k else 0 := Finset.sum_comm
    _ = ∑ i ∈ holders, ∑ k ∈ items.filter (fun k => carries i k), weight k := by
      refine Finset.sum_congr rfl (fun i _ => ?_)
      rw [Finset.sum_filter]
    _ ≤ ∑ _i ∈ holders, cap := Finset.sum_le_sum little
    _ = holders.card * cap := by rw [Finset.sum_const, smul_eq_mul]

/-- Counting the members of a list that satisfy `p` is counting its positions that do. -/
theorem length_filter_eq_card (items : List ε) (p : ε → Bool) :
    (items.filter p).length = (Finset.univ.filter (fun i : Fin items.length => p (items.get i) = true)).card := by
  have positions : items = (List.finRange items.length).map items.get := (List.map_get_finRange items).symm
  have counted : (items.filter p).length =
      ((List.finRange items.length).filter (fun i => p (items.get i))).length := by
    conv_lhs => rw [positions, List.filter_map, List.length_map]
    rfl
  have unrepeated : ((List.finRange items.length).filter (fun i => p (items.get i))).Nodup :=
    (List.nodup_finRange _).filter _
  rw [counted, ← List.toFinset_card_of_nodup unrepeated]
  congr 1
  ext i
  simp

/-- Members covered by two predicates are no more than the members of both together. -/
theorem length_filter_le_add {covered left right : ε → Bool} {items : List ε}
    (cover : ∀ x ∈ items, covered x = true → left x = true ∨ right x = true) :
    (items.filter covered).length ≤ (items.filter left).length + (items.filter right).length := by
  induction items with
  | nil => exact Nat.zero_le _
  | cons x rest ih =>
    have others := ih (fun y member => cover y (List.mem_cons_of_mem _ member))
    have here := cover x List.mem_cons_self
    rw [List.filter_cons, List.filter_cons, List.filter_cons]
    cases counted : covered x <;> cases first : left x <;> cases second : right x
    all_goals simp only [counted, first, second, if_true, if_false, Bool.false_eq_true, List.length_cons] at here ⊢
    all_goals first | omega | simp at here

end BtcPolicy.Counting
