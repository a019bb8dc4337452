import Mathlib.Tactic

/-! Unsigned 64-bit arithmetic over the naturals. `saturating_sub` is truncated subtraction and needs
no definition; addition is capped at the largest word, or refused past it. -/

namespace BtcPolicy.Word

/-- `u64::MAX`, which is also `usize::MAX` on the 64-bit targets the daemon runs on. -/
def maxWord : Nat := 2 ^ 64 - 1

/-- `saturating_add`. -/
def satAdd (a b : Nat) : Nat := min (a + b) maxWord

/-- `checked_add`. -/
def checkedAdd (a b : Nat) : Option Nat := if a + b ≤ maxWord then some (a + b) else none

/-- `saturating_mul`. -/
def satMul (a b : Nat) : Nat := min (a * b) maxWord

/-- `checked_mul`. -/
def checkedMul (a b : Nat) : Option Nat := if a * b ≤ maxWord then some (a * b) else none

/-- `checked_sub`. -/
def checkedSub (a b : Nat) : Option Nat := if b ≤ a then some (a - b) else none

theorem checkedAdd_some {a b c : Nat} (fits : checkedAdd a b = some c) : c = a + b ∧ c ≤ maxWord := by
  unfold checkedAdd at fits
  split_ifs at fits with bounded
  cases fits
  exact ⟨rfl, bounded⟩

theorem checkedMul_some {a b c : Nat} (fits : checkedMul a b = some c) : c = a * b ∧ c ≤ maxWord := by
  unfold checkedMul at fits
  split_ifs at fits with bounded
  cases fits
  exact ⟨rfl, bounded⟩

theorem checkedSub_some {a b c : Nat} (enough : checkedSub a b = some c) : a = b + c := by
  unfold checkedSub at enough
  split_ifs at enough with covered
  cases enough
  omega

/-- A saturating sum below the cap is the exact sum. -/
theorem satAdd_eq_of_lt {a b : Nat} (below : satAdd a b < maxWord) : satAdd a b = a + b := by
  unfold satAdd at below ⊢
  omega

theorem satAdd_eq_of_le {a b : Nat} (fits : a + b ≤ maxWord) : satAdd a b = a + b :=
  Nat.min_eq_left fits

theorem satAdd_zero {a : Nat} (word : a ≤ maxWord) : satAdd 0 a = a := by
  rw [satAdd, Nat.zero_add, Nat.min_eq_left word]

theorem satAdd_le_add (a b : Nat) : satAdd a b ≤ a + b := Nat.min_le_left _ _

theorem satAdd_le_maxWord (a b : Nat) : satAdd a b ≤ maxWord := Nat.min_le_right _ _

/-- Saturation happens once, at the end. -/
theorem satAdd_satAdd (a b c : Nat) : satAdd (satAdd a b) c = satAdd a (b + c) := by
  unfold satAdd
  omega

/-- Folding a step that adds a weight and saturates adds the sum of the weights and saturates. -/
theorem foldl_eq_satAdd {α : Type} {step : Nat → α → Nat} {weight : α → Nat}
    (each : ∀ total x, total ≤ maxWord → step total x = satAdd total (weight x)) (l : List α) (start : Nat)
    (word : start ≤ maxWord) : l.foldl step start = satAdd start (l.map weight).sum := by
  induction l generalizing start with
  | nil => exact (Nat.min_eq_left word).symm
  | cons x l ih =>
    rw [List.foldl_cons, each start x word, ih _ (satAdd_le_maxWord start _), satAdd_satAdd, List.map_cons,
      List.sum_cons]

theorem foldl_satAdd_eq {α : Type} (weight : α → Nat) (l : List α) :
    l.foldl (fun total x => satAdd total (weight x)) 0 = satAdd 0 (l.map weight).sum :=
  foldl_eq_satAdd (fun _ _ _ => rfl) l 0 (Nat.zero_le _)

/-- Folding a step that adds some of the items adds the sum of these and saturates. -/
theorem foldl_filter_eq_satAdd {α : Type} {step : Nat → α → Nat} {value : α → Nat} (counts : α → Prop)
    [DecidablePred counts] (each : ∀ total x, step total x = if counts x then satAdd total (value x) else total)
    (l : List α) (start : Nat) (word : start ≤ maxWord) :
    l.foldl step start = satAdd start ((l.filter (fun x => decide (counts x))).map value).sum := by
  have weighed : ∀ total x, total ≤ maxWord → step total x = satAdd total (if counts x then value x else 0) := by
    intro total x fits
    rw [each]
    split_ifs
    · rfl
    · exact (Nat.min_eq_left fits).symm
  rw [foldl_eq_satAdd weighed l start word, List.sum_map_ite, List.sum_map_zero, Nat.add_zero]

/-- A fold of saturating steps stays a word. -/
theorem foldl_le_maxWord {α : Type} {step : Nat → α → Nat} (each : ∀ total x, step total x ≤ maxWord) (l : List α)
    (start : Nat) (word : start ≤ maxWord) : l.foldl step start ≤ maxWord := by
  induction l generalizing start with
  | nil => exact word
  | cons x l ih => exact ih _ (each start x)

theorem foldl_satAdd_exact (l : List Nat) (start : Nat) (fits : start + l.sum ≤ maxWord) :
    l.foldl satAdd start = start + l.sum := by
  induction l generalizing start with
  | nil => simp
  | cons x l ih =>
    simp only [List.sum_cons] at fits
    have head : satAdd start x = start + x := satAdd_eq_of_le (by omega)
    simp only [List.foldl_cons, List.sum_cons, head]
    rw [ih (start + x) (by omega)]
    omega

end BtcPolicy.Word
