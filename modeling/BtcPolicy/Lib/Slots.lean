import Mathlib.Data.List.Perm.Subperm
import Mathlib.Data.List.Nodup

/-! Numbered slots: items are put into the slots their indices name, in any order. Where the indices are distinct, every
slot is filled exactly when the items are the values in the order of their indices. -/

namespace BtcPolicy.Slots

variable {α : Type} (index : α → Nat)

def place (slots : List (Option α)) (items : List α) : List (Option α) :=
  items.foldl (fun slots item => slots.set (index item) (some item)) slots

/-- A slot is there and empty. -/
def Vacant (slots : List (Option α)) (i : Nat) : Prop := slots[i]? = some none

variable {index}

@[simp] theorem place_nil (slots : List (Option α)) : place index slots [] = slots := rfl

@[simp] theorem place_cons (slots : List (Option α)) (item : α) (items : List α) :
    place index slots (item :: items) = place index (slots.set (index item) (some item)) items := rfl

@[simp] theorem length_place (slots : List (Option α)) (items : List α) :
    (place index slots items).length = slots.length := by
  induction items generalizing slots with
  | nil => rfl
  | cons item items ih => rw [place_cons, ih, List.length_set]

theorem vacant_iff {slots : List (Option α)} {i : Nat} : Vacant slots i ↔ i < slots.length ∧ slots[i]?.join = none := by
  unfold Vacant
  cases found : slots[i]? with
  | none =>
    have outside := List.getElem?_eq_none_iff.mp found
    simp [Nat.not_lt_of_le outside]
  | some slot =>
    have inside := (List.getElem?_eq_some_iff.mp found).1
    simp [inside]

/-- Filling a slot leaves the others as they were. -/
theorem vacant_set_iff {slots : List (Option α)} {i j : Nat} {item : α} :
    Vacant (slots.set i (some item)) j ↔ Vacant slots j ∧ i ≠ j := by
  unfold Vacant
  by_cases same : i = j
  · subst same
    rw [List.getElem?_set_self']
    cases slots[i]? <;> simp
  · rw [List.getElem?_set_ne same]
    simp [same]

theorem getElem?_place_of_notMem {slots : List (Option α)} {items : List α} {i : Nat} (absent : i ∉ items.map index) :
    (place index slots items)[i]? = slots[i]? := by
  induction items generalizing slots with
  | nil => rfl
  | cons item items ih =>
    rw [List.map_cons, List.mem_cons, not_or] at absent
    rw [place_cons, ih absent.2, List.getElem?_set_ne (Ne.symm absent.1)]

/-- With distinct indices each item stays in its slot. -/
theorem getElem?_place {slots : List (Option α)} {items : List α} (distinct : (items.map index).Nodup) {item : α}
    (member : item ∈ items) (bounded : index item < slots.length) :
    (place index slots items)[index item]? = some (some item) := by
  induction items generalizing slots with
  | nil => cases member
  | cons first items ih =>
    rw [List.map_cons, List.nodup_cons] at distinct
    rw [place_cons]
    obtain rfl | later := List.mem_cons.mp member
    · rw [getElem?_place_of_notMem distinct.1, List.getElem?_set_self bounded]
    · exact ih distinct.2 later (by rwa [List.length_set])

/-- Distinct numbers below `n`, `n` of them, are all of them. -/
theorem mem_of_lt {indices : List Nat} (distinct : indices.Nodup) (bounded : ∀ i ∈ indices, i < indices.length) {i : Nat}
    (small : i < indices.length) : i ∈ indices := by
  have inside : indices ⊆ List.range indices.length := fun i member => List.mem_range.mpr (bounded i member)
  have all : indices.Perm (List.range indices.length) :=
    (distinct.subperm inside).perm_of_length_le (Nat.le_of_eq List.length_range)
  exact all.mem_iff.mpr (List.mem_range.mpr small)

theorem map_eq_range_iff {values : List α} {n : Nat} :
    values.map index = List.range n ↔ values.length = n ∧ ∀ (i : Nat) (value : α), values[i]? = some value → index value = i := by
  constructor
  · intro numbered
    have length : values.length = n := by
      have lengths := congrArg List.length numbered
      rwa [List.length_map, List.length_range] at lengths
    refine ⟨length, fun i value found => ?_⟩
    have number : (values.map index)[i]? = some (index value) := by rw [List.getElem?_map, found, Option.map_some]
    rw [numbered, List.getElem?_eq_some_iff] at number
    obtain ⟨small, same⟩ := number
    rw [← same, List.getElem_range]
  · rintro ⟨length, each⟩
    apply List.ext_getElem
    · rw [List.length_map, List.length_range, length]
    · intro i first second
      rw [List.getElem_map, List.getElem_range]
      exact each i _ (List.getElem?_eq_getElem _)

/-- Where the values are numbered by their places, each stands at its index. -/
theorem getElem?_index {values : List α} {n : Nat} (numbered : values.map index = List.range n) {value : α}
    (member : value ∈ values) : values[index value]? = some value := by
  obtain ⟨i, found⟩ := List.getElem?_of_mem member
  rw [(map_eq_range_iff.mp numbered).2 i value found]
  exact found

section Full

variable {items values : List α} {n : Nat} (distinct : (items.map index).Nodup) (bounded : ∀ item ∈ items, index item < n)
  (full : items.length = n)

include distinct bounded full

theorem perm_of_place (placed : place index (List.replicate n none) items = values.map some) : items.Perm values := by
  have length : values.length = n := by
    have lengths := congrArg List.length placed
    rwa [length_place, List.length_replicate, List.length_map, eq_comm] at lengths
  have inside : items ⊆ values := by
    intro item member
    have small : index item < (List.replicate n (none : Option α)).length := by
      rw [List.length_replicate]
      exact bounded item member
    have filled := getElem?_place distinct member small
    rw [placed, List.getElem?_map] at filled
    obtain ⟨value, found, same⟩ := Option.map_eq_some_iff.mp filled
    cases same
    exact List.mem_of_getElem? found
  exact ((List.Nodup.of_map _ distinct).subperm inside).perm_of_length_le (Nat.le_of_eq (length.trans full.symm))

/-- Every slot is filled, and its value is the item with its number. -/
theorem place_eq_map_some_iff :
    place index (List.replicate n none) items = values.map some ↔ items.Perm values ∧ values.map index = List.range n := by
  have everywhere : ∀ item ∈ items, (place index (List.replicate n none) items)[index item]? = some (some item) :=
    fun item member => getElem?_place distinct member (by rw [List.length_replicate]; exact bounded item member)
  constructor
  · intro placed
    refine ⟨perm_of_place distinct bounded full placed, map_eq_range_iff.mpr ⟨?_, ?_⟩⟩
    · rw [← (perm_of_place distinct bounded full placed).length_eq, full]
    · intro i value found
      have small : i < (items.map index).length := by
        rw [List.length_map, (perm_of_place distinct bounded full placed).length_eq]
        exact (List.getElem?_eq_some_iff.mp found).1
      have numbers : ∀ j ∈ items.map index, j < (items.map index).length := by
        rw [List.length_map, full]
        exact List.forall_mem_map.mpr bounded
      obtain ⟨item, member, rfl⟩ := List.mem_map.mp (mem_of_lt distinct numbers small)
      have filled := everywhere item member
      rw [placed, List.getElem?_map, found] at filled
      cases filled
      rfl
  · rintro ⟨same, numbered⟩
    apply List.ext_getElem?
    intro i
    rw [List.getElem?_map]
    cases found : values[i]? with
    | none =>
      have large : n ≤ i := by
        rw [← full, same.length_eq]
        exact List.getElem?_eq_none_iff.mp found
      exact List.getElem?_eq_none (by rwa [length_place, List.length_replicate])
    | some value =>
      have filled := everywhere value (same.mem_iff.mpr (List.mem_of_getElem? found))
      rwa [(map_eq_range_iff.mp numbered).2 i value found] at filled

end Full

/-! ### Changes in place -/

section Amend

variable {β : Type} (change : β → α → α)

/-- Change the values the indices name, one after the other. -/
def amend (values : List α) (items : List (Nat × β)) : List α :=
  items.foldl (fun values item => values.modify item.1 (change item.2)) values

variable {change}

theorem getElem?_amend_of_notMem {values : List α} {items : List (Nat × β)} {i : Nat}
    (absent : i ∉ items.map Prod.fst) : (amend change values items)[i]? = values[i]? := by
  induction items generalizing values with
  | nil => rfl
  | cons item items ih =>
    rw [List.map_cons, List.mem_cons, not_or] at absent
    show (amend change (values.modify item.1 (change item.2)) items)[i]? = _
    rw [ih absent.2, List.getElem?_modify_ne _ _ (Ne.symm absent.1)]

/-- With distinct indices each value is changed once. -/
theorem getElem?_amend {values : List α} {items : List (Nat × β)} (distinct : (items.map Prod.fst).Nodup) {i : Nat} {b : β}
    (member : (i, b) ∈ items) : (amend change values items)[i]? = values[i]?.map (change b) := by
  induction items generalizing values with
  | nil => cases member
  | cons first items ih =>
    rw [List.map_cons, List.nodup_cons] at distinct
    show (amend change (values.modify first.1 (change first.2)) items)[i]? = _
    obtain rfl | later := List.mem_cons.mp member
    · rw [getElem?_amend_of_notMem distinct.1, List.getElem?_modify_eq]
      rfl
    · have other : first.1 ≠ i := by
        rintro rfl
        exact distinct.1 (List.mem_map.mpr ⟨_, later, rfl⟩)
      rw [ih distinct.2 later, List.getElem?_modify_ne _ _ other]

theorem length_amend (values : List α) (items : List (Nat × β)) : (amend change values items).length = values.length := by
  induction items generalizing values with
  | nil => rfl
  | cons item items ih =>
    show (amend change (values.modify item.1 (change item.2)) items).length = _
    rw [ih, List.length_modify]

end Amend

end BtcPolicy.Slots
