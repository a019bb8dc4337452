import Mathlib.Data.List.Basic
import Mathlib.Data.List.Pairwise
import Mathlib.Tactic

/-! Ring buffers: a list of slots, the slot the oldest entry is in, and how many entries are live. What the ring
holds is a plain list, and the three edits of a ring are edits of that list. -/

namespace BtcPolicy.RingBuffer

section View

variable {α : Type} (d : α) (slots : List α) (head count : Nat)

/-- The `count` entries from `head` on, wrapping past the last slot. A slot that is not there would read `d`. -/
def view : List α := (List.range count).map (fun i => slots.getD ((head + i) % slots.length) d)

@[simp] theorem view_length : (view d slots head count).length = count := by
  rw [view, List.length_map, List.length_range]

@[simp] theorem view_zero : view d slots head 0 = [] := rfl

/-- Advancing the head takes the oldest entry off. -/
theorem view_advance :
    view d slots head (count + 1) =
      slots.getD (head % slots.length) d :: view d slots ((head + 1) % slots.length) count := by
  unfold view
  rw [List.range_succ_eq_map, List.map_cons, List.map_map, Nat.add_zero]
  congr 1
  apply List.map_congr_left
  intro i _
  have same : (head + (i + 1)) % slots.length = ((head + 1) % slots.length + i) % slots.length := by
    rw [Nat.mod_add_mod]
    congr 1
    omega
  exact congrArg (slots.getD · d) same

/-- Two offsets less than one turn apart name different slots. -/
theorem slot_ne {head i n size : Nat} (before : i < n) (room : n < size) : (head + i) % size ≠ (head + n) % size := by
  intro same
  have dvd : size ∣ (head + n) - (head + i) := (Nat.modEq_iff_dvd' (by omega)).mp same
  have zero := Nat.eq_zero_of_dvd_of_lt dvd (by omega)
  omega

/-- Writing the slot past the newest entry appends it, as long as the ring has room. -/
theorem view_push (x : α) (room : count < slots.length) :
    view d (slots.set ((head + count) % slots.length) x) head (count + 1) = view d slots head count ++ [x] := by
  unfold view
  have inside : (head + count) % slots.length < slots.length := Nat.mod_lt _ (by omega)
  rw [List.range_succ, List.map_append, List.map_singleton, List.length_set]
  congr 1
  · apply List.map_congr_left
    intro i member
    have apart : (head + i) % slots.length ≠ (head + count) % slots.length := slot_ne (List.mem_range.mp member) room
    rw [List.getD_eq_getElem?_getD, List.getD_eq_getElem?_getD, List.getElem?_set_ne apart.symm]
  · rw [List.getD_eq_getElem?_getD, List.getElem?_set_self inside, Option.getD_some]

end View

/-- Where a predicate that holds of an entry holds of every earlier one, dropping entries while it holds drops all
it holds of. -/
theorem dropWhile_eq_filter {α : Type} {p : α → Bool} {l : List α}
    (front : l.Pairwise (fun a b => p b = true → p a = true)) : l.dropWhile p = l.filter (fun a => !p a) := by
  induction l with
  | nil => rfl
  | cons a l ih =>
    obtain ⟨first, rest⟩ := List.pairwise_cons.mp front
    by_cases holds : p a = true
    · rw [List.dropWhile_cons_of_pos holds, List.filter_cons_of_neg (by simp [holds]), ih rest]
    · have none : ∀ b ∈ l, (!p b) = true := by
        intro b member
        have no : p b ≠ true := fun there => holds (first b member there)
        simpa using no
      rw [List.dropWhile_cons_of_neg holds, List.filter_cons_of_pos (by simp [holds]), List.filter_eq_self.mpr none]

end BtcPolicy.RingBuffer
