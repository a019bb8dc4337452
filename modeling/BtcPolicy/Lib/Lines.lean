import Mathlib.Data.List.Infix
import Mathlib.Data.List.TakeWhile
import Mathlib.Tactic

/-! Where one list first occurs in another, and texts made of lines that end in a pair of marks. A text in which the
marks only ever occur as that pair is such a text, in one way. -/

namespace BtcPolicy.Lines

variable {α : Type}

/-! ### The first occurrence -/

/-- Every run of `n` items in a row. -/
def windows (n : Nat) (l : List α) : List (List α) := (List.range (l.length + 1 - n)).map (fun i => (l.drop i).take n)

theorem windows_cons {n : Nat} {a : α} {l : List α} (fits : n ≤ (a :: l).length) :
    windows n (a :: l) = (a :: l).take n :: windows n l := by
  unfold windows
  have room : (a :: l).length + 1 - n = (l.length + 1 - n) + 1 := by
    rw [List.length_cons] at fits ⊢
    omega
  rw [room, List.range_succ_eq_map, List.map_cons, List.map_map]
  rfl

section Occurrence

variable [DecidableEq α]

def position (l needle : List α) : Option Nat := (windows needle.length l).findIdx? (fun window => window == needle)

/-- The first place is tried, and then the rest of the list. -/
theorem position_cons (a : α) (l needle : List α) :
    position (a :: l) needle =
      if needle <+: a :: l then some 0 else (position l needle).map (fun i => i + 1) := by
  by_cases fits : needle.length ≤ (a :: l).length
  · unfold position
    rw [windows_cons fits, List.findIdx?_cons]
    by_cases here : needle <+: a :: l
    · rw [if_pos here, List.prefix_iff_eq_take.mp here, List.length_take, min_eq_left fits]
      simp
    · have other : ((a :: l).take needle.length == needle) = false := by
        rw [beq_eq_false_iff_ne]
        intro same
        exact here (List.prefix_iff_eq_take.mpr same.symm)
      rw [if_neg here, other]
      rfl
  · have here : ¬needle <+: a :: l := fun found => fits found.length_le
    have short : (a :: l).length + 1 - needle.length = 0 := by omega
    have shorter : l.length + 1 - needle.length = 0 := by
      rw [List.length_cons] at fits
      omega
    unfold position windows
    rw [if_neg here, short, shorter]
    rfl

theorem position_nil {needle : List α} (some_needle : needle ≠ []) : position [] needle = none := by
  have long : 0 < needle.length := List.length_pos_of_ne_nil some_needle
  have none_fits : ([] : List α).length + 1 - needle.length = 0 := by
    rw [List.length_nil]
    omega
  unfold position windows
  rw [none_fits]
  rfl

theorem position_prefix {needle : List α} (some_needle : needle ≠ []) (rest : List α) :
    position (needle ++ rest) needle = some 0 := by
  cases needle with
  | nil => exact absurd rfl some_needle
  | cons a needle =>
    rw [List.cons_append, position_cons, if_pos]
    exact ⟨rest, rfl⟩

/-- Items that cannot begin an occurrence are passed over. -/
theorem position_skip {before : List α} {a : α} (absent : a ∉ before) (needle rest : List α) :
    position (before ++ rest) (a :: needle) = (position rest (a :: needle)).map (fun i => i + before.length) := by
  induction before with
  | nil => simp
  | cons b before ih =>
    obtain ⟨other, later⟩ := not_or.mp (List.mem_cons.not.mp absent)
    have here : ¬a :: needle <+: b :: (before ++ rest) := by
      intro found
      exact other (List.cons_prefix_cons.mp found).1
    rw [List.cons_append, position_cons, if_neg here, ih later, Option.map_map]
    rfl

/-- What stands before the first occurrence and after it. -/
theorem position_some {l needle : List α} (some_needle : needle ≠ []) {i : Nat} (found : position l needle = some i) :
    ∃ before rest, l = before ++ needle ++ rest ∧ before.length = i := by
  induction l generalizing i with
  | nil =>
    rw [position_nil some_needle] at found
    cases found
  | cons a l ih =>
    rw [position_cons] at found
    split_ifs at found with here
    · cases found
      obtain ⟨rest, same⟩ := here
      exact ⟨[], rest, same.symm, rfl⟩
    · obtain ⟨place, later, rfl⟩ := Option.map_eq_some_iff.mp found
      obtain ⟨before, rest, rfl, rfl⟩ := ih later
      exact ⟨a :: before, rest, rfl, rfl⟩

end Occurrence

/-- What does not hold an item ends in front of its first occurrence. -/
theorem prefix_of_notMem {front before rest : List α} {a : α} (absent : a ∉ front) (found : front <+: before ++ a :: rest) :
    front <+: before := by
  induction front generalizing before with
  | nil => exact List.nil_prefix
  | cons b front ih =>
    obtain ⟨other, later⟩ := not_or.mp (List.mem_cons.not.mp absent)
    cases before with
    | nil => exact absurd (List.cons_prefix_cons.mp found).1.symm other
    | cons c before =>
      obtain ⟨same, tail⟩ := List.cons_prefix_cons.mp found
      exact List.cons_prefix_cons.mpr ⟨same, ih later tail⟩

/-! ### Lines -/

section Marks

variable (cr lf : α)

/-- A line without either mark. -/
def Plain (line : List α) : Prop := cr ∉ line ∧ lf ∉ line

/-- The lines, each with the pair behind it. -/
def joined (lines : List (List α)) : List α := lines.flatMap (fun line => line ++ [cr, lf])

/-- No mark stands alone: the first one is in front of the second, and the second behind the first. -/
structure Terminated (text : List α) : Prop where
  first : ∀ i, text[i]? = some cr → text[i + 1]? = some lf
  second : ∀ i, text[i]? = some lf → ∃ j, i = j + 1 ∧ text[j]? = some cr

variable {cr lf : α}

@[simp] theorem joined_nil : joined cr lf [] = [] := rfl

@[simp] theorem joined_cons (line : List α) (lines : List (List α)) :
    joined cr lf (line :: lines) = line ++ cr :: lf :: joined cr lf lines := by
  simp [joined]

theorem joined_append (lines later : List (List α)) :
    joined cr lf (lines ++ later) = joined cr lf lines ++ joined cr lf later :=
  List.flatMap_append

theorem position_line [DecidableEq α] {line : List α} (plain : Plain cr lf line) (rest : List α) :
    position (line ++ cr :: lf :: rest) [cr, lf] = some line.length := by
  have here : position (cr :: lf :: rest) [cr, lf] = some 0 := position_prefix (List.cons_ne_nil _ _) rest
  rw [position_skip plain.1, here]
  simp

/-- The pair twice in a row first stands where the lines that are not empty end. -/
theorem position_joined [DecidableEq α] (distinct : cr ≠ lf) {lines : List (List α)}
    (plain : ∀ line ∈ lines, Plain cr lf line) (filled : ∀ line ∈ lines, line ≠ []) (rest : List α) :
    position (cr :: lf :: (joined cr lf lines ++ cr :: lf :: rest)) [cr, lf, cr, lf] =
      some (joined cr lf lines).length := by
  induction lines with
  | nil => exact position_prefix (List.cons_ne_nil _ _) rest
  | cons line lines ih =>
    obtain ⟨here, later⟩ := List.forall_mem_cons.mp plain
    obtain ⟨some_line, others⟩ := List.forall_mem_cons.mp filled
    have passed : position (lf :: (line ++ cr :: lf :: (joined cr lf lines ++ cr :: lf :: rest))) [cr, lf, cr, lf] =
        some (line.length + 1 + (joined cr lf lines).length) := by
      have absent : cr ∉ lf :: line := List.mem_cons.not.mpr (not_or.mpr ⟨distinct, here.1⟩)
      rw [← List.cons_append, position_skip absent, ih later others]
      simp only [Option.map_some, List.length_cons, Option.some.injEq]
      omega
    have single : ¬[cr, lf, cr, lf] <+: cr :: lf :: (line ++ cr :: lf :: (joined cr lf lines ++ cr :: lf :: rest)) := by
      cases line with
      | nil => exact absurd rfl some_line
      | cons a line =>
        intro found
        have first := (List.cons_prefix_cons.mp (List.cons_prefix_cons.mp (List.cons_prefix_cons.mp found).2).2).1
        exact here.1 (first ▸ List.mem_cons_self)
    rw [joined_cons, List.append_assoc, List.cons_append, List.cons_append, position_cons, if_neg single, passed]
    simp only [Option.map_some, List.length_append, List.length_cons, Option.some.injEq]
    omega

theorem terminated_nil : Terminated cr lf [] := ⟨nofun, nofun⟩

/-- A line in front of a text without half marks leaves none. -/
theorem Terminated.line {line text : List α} (plain : Plain cr lf line) (distinct : cr ≠ lf)
    (rest : Terminated cr lf text) : Terminated cr lf (line ++ cr :: lf :: text) := by
  have inside : ∀ {i : Nat}, i < line.length → (line ++ cr :: lf :: text)[i]? = (line)[i]? :=
    fun low => List.getElem?_append_left low
  have behind : ∀ i : Nat, (line ++ cr :: lf :: text)[line.length + i]? = (cr :: lf :: text)[i]? := by
    intro i
    rw [List.getElem?_append_right (Nat.le_add_right _ _), Nat.add_sub_cancel_left]
  have split : ∀ i : Nat, i < line.length ∨ i = line.length ∨ i = line.length + 1 ∨ ∃ j, i = line.length + (j + 2) := by
    intro i
    by_cases low : i < line.length
    · exact Or.inl low
    · by_cases here : i = line.length
      · exact Or.inr (Or.inl here)
      · by_cases next : i = line.length + 1
        · exact Or.inr (Or.inr (Or.inl next))
        · exact Or.inr (Or.inr (Or.inr ⟨i - line.length - 2, by omega⟩))
  constructor
  · intro i found
    obtain low | rfl | rfl | ⟨j, rfl⟩ := split i
    · rw [inside low] at found
      exact absurd (List.mem_of_getElem? found) plain.1
    · exact behind 1
    · rw [behind 1] at found
      exact absurd (Option.some.inj found).symm distinct
    · rw [behind] at found
      rw [Nat.add_assoc, behind]
      exact rest.first j found
  · intro i found
    obtain low | rfl | rfl | ⟨j, rfl⟩ := split i
    · rw [inside low] at found
      exact absurd (List.mem_of_getElem? found) plain.2
    · rw [← Nat.add_zero line.length, behind 0] at found
      exact absurd (Option.some.inj found) distinct
    · exact ⟨line.length, rfl, behind 0⟩
    · rw [behind] at found
      obtain ⟨before, rfl, first⟩ := rest.second j found
      exact ⟨line.length + (before + 2), rfl, (behind (before + 2)).trans first⟩

theorem terminated_joined (distinct : cr ≠ lf) {lines : List (List α)} (plain : ∀ line ∈ lines, Plain cr lf line) :
    Terminated cr lf (joined cr lf lines) := by
  induction lines with
  | nil => exact terminated_nil
  | cons line lines ih =>
    obtain ⟨here, later⟩ := List.forall_mem_cons.mp plain
    rw [joined_cons]
    exact (ih later).line here distinct

/-- What follows a whole line has no half marks either. -/
theorem Terminated.rest {line text : List α} (distinct : cr ≠ lf)
    (whole : Terminated cr lf (line ++ cr :: lf :: text)) : Terminated cr lf text := by
  have behind : ∀ i : Nat, (line ++ cr :: lf :: text)[line.length + 2 + i]? = text[i]? := by
    intro i
    rw [List.getElem?_append_right (by omega)]
    have place : line.length + 2 + i - line.length = i + 2 := by omega
    rw [place]
    rfl
  have pair : (line ++ cr :: lf :: text)[line.length + 1]? = some lf := by
    rw [List.getElem?_append_right (Nat.le_add_right _ 1), Nat.add_sub_cancel_left]
    rfl
  constructor
  · intro i found
    rw [← behind] at found
    have next := whole.first _ found
    rw [Nat.add_assoc, behind] at next
    exact next
  · intro i found
    rw [← behind] at found
    obtain ⟨before, same, first⟩ := whole.second _ found
    cases i with
    | zero =>
      obtain rfl : before = line.length + 1 := by omega
      rw [pair] at first
      exact absurd (Option.some.inj first).symm distinct
    | succ j =>
      obtain rfl : before = line.length + 2 + j := by omega
      rw [behind] at first
      exact ⟨j, rfl, first⟩

/-- What ends in a whole pair has no half marks where the text has none. -/
theorem Terminated.front {text rest : List α} (distinct : cr ≠ lf)
    (whole : Terminated cr lf (text ++ cr :: lf :: rest)) : Terminated cr lf (text ++ [cr, lf]) := by
  have parted : text ++ cr :: lf :: rest = (text ++ [cr, lf]) ++ rest := by simp
  have size : (text ++ [cr, lf]).length = text.length + 2 := by simp
  have inside : ∀ {i : Nat}, i < text.length + 2 → (text ++ cr :: lf :: rest)[i]? = (text ++ [cr, lf])[i]? := by
    intro i low
    rw [parted, List.getElem?_append_left (by omega)]
  have last : (text ++ [cr, lf])[text.length + 1]? = some lf := by
    rw [List.getElem?_append_right (Nat.le_add_right _ 1), Nat.add_sub_cancel_left]
    rfl
  constructor
  · intro i found
    obtain ⟨low, _⟩ := List.getElem?_eq_some_iff.mp found
    have other : i ≠ text.length + 1 := by
      rintro rfl
      rw [last] at found
      exact distinct (Option.some.inj found).symm
    rw [← inside (by omega)] at found ⊢
    exact whole.first i found
  · intro i found
    obtain ⟨low, _⟩ := List.getElem?_eq_some_iff.mp found
    rw [← inside (by omega)] at found
    obtain ⟨j, rfl, first⟩ := whole.second i found
    exact ⟨j, rfl, by rw [← inside (by omega)]; exact first⟩

/-- The first line of a text, and what stands where it ends. -/
theorem exists_line [DecidableEq α] (cr lf : α) (text : List α) :
    ∃ line rest, text = line ++ rest ∧ Plain cr lf line ∧ ∀ a later, rest = a :: later → a = cr ∨ a = lf := by
  refine ⟨text.takeWhile (fun a => decide (a ≠ cr ∧ a ≠ lf)), text.dropWhile (fun a => decide (a ≠ cr ∧ a ≠ lf)),
    List.takeWhile_append_dropWhile.symm, ⟨?_, ?_⟩, ?_⟩
  · intro member
    have passed := List.mem_takeWhile_imp member
    simp at passed
  · intro member
    have passed := List.mem_takeWhile_imp member
    simp at passed
  · intro a later dropped
    have fails := List.head?_dropWhile_not (fun a => decide (a ≠ cr ∧ a ≠ lf)) text
    rw [dropped] at fails
    by_contra neither
    simp [not_or.mp neither] at fails

/-- A pair at the end stays at the end behind a line that it does not end. -/
theorem ends_rest (distinct : cr ≠ lf) {line rest : List α} (ends : [cr, lf] <:+ line ++ cr :: lf :: rest) :
    rest = [] ∨ [cr, lf] <:+ rest := by
  have suffix : rest <:+ line ++ cr :: lf :: rest := ⟨line ++ [cr, lf], by simp⟩
  rcases List.suffix_or_suffix_of_suffix suffix ends with short | long
  · have choices : rest = [cr, lf] ∨ rest = [lf] ∨ rest = [] := by
      rw [List.suffix_cons_iff, List.suffix_cons_iff, List.suffix_nil] at short
      exact short
    rcases choices with rfl | rfl | rfl
    · exact Or.inr (List.suffix_refl _)
    · obtain ⟨front, same⟩ := ends
      have lasts : front ++ [cr, lf] = (line ++ [cr]) ++ [lf, lf] := by simpa using same
      have pairs := (List.append_inj' lasts rfl).2
      exact absurd (List.cons.inj pairs).1 distinct
    · exact Or.inl rfl
  · exact Or.inr long

/-- A text without half marks that ends in the pair is made of lines. -/
theorem exists_joined [DecidableEq α] (distinct : cr ≠ lf) {text : List α} (clean : Terminated cr lf text)
    (ends : text = [] ∨ [cr, lf] <:+ text) :
    ∃ lines, (∀ line ∈ lines, Plain cr lf line) ∧ text = joined cr lf lines := by
  induction measured : text.length using Nat.strong_induction_on generalizing text with
  | _ size ih =>
    rcases ends with rfl | ends
    · exact ⟨[], by simp, rfl⟩
    obtain ⟨line, rest, rfl, plain, stops⟩ := exists_line cr lf text
    cases rest with
    | nil =>
      rw [List.append_nil] at ends
      exact absurd (ends.subset List.mem_cons_self) plain.1
    | cons a rest =>
      have here : (line ++ a :: rest)[line.length]? = some a := by
        rw [List.getElem?_append_right le_rfl, Nat.sub_self]
        rfl
      rcases stops a rest rfl with isFirst | isSecond
      · rw [isFirst] at here clean ends
        have next := clean.first line.length here
        rw [List.getElem?_append_right (Nat.le_add_right _ 1), Nat.add_sub_cancel_left, List.getElem?_cons_succ] at next
        cases rest with
        | nil => cases next
        | cons b rest =>
          rw [Option.some.inj next] at clean ends
          have shorter : rest.length < size := by
            rw [← measured, List.length_append, List.length_cons, List.length_cons]
            omega
          obtain ⟨lines, each, same⟩ := ih rest.length shorter (clean.rest distinct) (ends_rest distinct ends) rfl
          refine ⟨line :: lines, List.forall_mem_cons.mpr ⟨plain, each⟩, ?_⟩
          rw [joined_cons, ← same, isFirst, Option.some.inj next]
      · rw [isSecond] at here clean
        obtain ⟨before, last, first⟩ := clean.second line.length here
        rw [List.getElem?_append_left (by omega)] at first
        exact absurd (List.mem_of_getElem? first) plain.1

/-- A line ends at its first mark, so the lines are known from the text. -/
theorem joined_inj [DecidableEq α] {lines others : List (List α)} (plain : ∀ line ∈ lines, Plain cr lf line)
    (plain' : ∀ line ∈ others, Plain cr lf line) (same : joined cr lf lines = joined cr lf others) : lines = others := by
  induction lines generalizing others with
  | nil =>
    cases others with
    | nil => rfl
    | cons other others => simp at same
  | cons line lines ih =>
    cases others with
    | nil => simp at same
    | cons other others =>
      obtain ⟨here, later⟩ := List.forall_mem_cons.mp plain
      obtain ⟨here', later'⟩ := List.forall_mem_cons.mp plain'
      rw [joined_cons, joined_cons] at same
      have places := congrArg (fun text => position text [cr, lf]) same
      simp only [position_line here, position_line here', Option.some.injEq] at places
      obtain ⟨rfl, rest⟩ := List.append_inj same places
      rw [ih later later' (List.cons.inj (List.cons.inj rest).2).2]

/-! ### A head: a first line, more lines, and an empty one -/

section Head

variable [DecidableEq α]

/-- A head is found where its lines are not empty, whatever follows it. -/
theorem find_head (distinct : cr ≠ lf) {first : List α} {lines : List (List α)} (plain : Plain cr lf first)
    (plains : ∀ line ∈ lines, Plain cr lf line) (filled : ∀ line ∈ lines, line ≠ []) {text body : List α}
    (same : text = first ++ cr :: lf :: (joined cr lf lines ++ cr :: lf :: body)) :
    position text [cr, lf] = some first.length ∧
      position (text.drop first.length) [cr, lf, cr, lf] = some (joined cr lf lines).length ∧
      Terminated cr lf (text.take (first.length + (joined cr lf lines).length + 4)) ∧
      (text.take (first.length + (joined cr lf lines).length + 2)).drop (first.length + 2) = joined cr lf lines ∧
      text.drop (first.length + (joined cr lf lines).length + 4) = body := by
  have head : text = joined cr lf (first :: lines ++ [[]]) ++ body := by
    rw [same, joined_append, joined_cons, joined_cons, joined_nil]
    simp
  have block : text = (first ++ [cr, lf]) ++ (joined cr lf lines ++ cr :: lf :: body) := by
    rw [same]
    simp
  have size : (joined cr lf (first :: lines ++ [[]])).length = first.length + (joined cr lf lines).length + 4 := by
    rw [joined_append, joined_cons, joined_cons, joined_nil]
    simp
    omega
  have front : (first ++ [cr, lf]).length = first.length + 2 := by simp
  have whole : first.length + (joined cr lf lines).length + 2 = (first ++ [cr, lf] ++ joined cr lf lines).length := by
    rw [List.length_append, front]
    omega
  refine ⟨?_, ?_, ?_, ?_, ?_⟩
  · rw [same]
    exact position_line plain _
  · rw [same, List.drop_left]
    exact position_joined distinct plains filled body
  · rw [← size, head, List.take_left]
    apply terminated_joined distinct
    intro line member
    rw [List.mem_append, List.mem_cons, List.mem_singleton] at member
    rcases member with (rfl | inside) | rfl
    · exact plain
    · exact plains line inside
    · exact ⟨List.not_mem_nil, List.not_mem_nil⟩
  · rw [block, whole, ← List.append_assoc, List.take_left, ← front, List.drop_left]
  · rw [← size, head, List.drop_left]

/-- Where the two pairs are found and no mark stands alone before them, there is a head. -/
theorem exists_head (distinct : cr ≠ lf) {text : List α} {line length : Nat}
    (first_pair : position text [cr, lf] = some line)
    (double_pair : position (text.drop line) [cr, lf, cr, lf] = some length)
    (clean : Terminated cr lf (text.take (line + length + 4))) :
    ∃ first lines body, Plain cr lf first ∧ (∀ line ∈ lines, Plain cr lf line) ∧ (∀ line ∈ lines, line ≠ []) ∧
      text = first ++ cr :: lf :: (joined cr lf lines ++ cr :: lf :: body) := by
  obtain ⟨before, rest, parted, rfl⟩ := position_some (List.cons_ne_nil _ _) first_pair
  have dropped : text.drop before.length = [cr, lf] ++ rest := by
    rw [parted, List.append_assoc, List.drop_left]
  rw [dropped] at double_pair
  obtain ⟨between, body, same, rfl⟩ := position_some (List.cons_ne_nil _ _) double_pair
  have whole : text = (before ++ between) ++ cr :: lf :: cr :: lf :: body := by
    rw [parted, List.append_assoc, same]
    simp
  have head : text.take (before.length + between.length + 4) = (before ++ between) ++ cr :: lf :: [cr, lf] := by
    have size : before.length + between.length + 4 = ((before ++ between) ++ cr :: lf :: [cr, lf]).length := by
      simp
      omega
    have split : text = ((before ++ between) ++ cr :: lf :: [cr, lf]) ++ body := by
      rw [whole]
      simp
    rw [size, split, List.take_left]
  rw [head] at clean
  obtain ⟨all, plain, lined⟩ := exists_joined distinct (clean.front distinct) (Or.inr (List.suffix_append _ _))
  cases all with
  | nil => simp at lined
  | cons first lines =>
    obtain ⟨plainFirst, plainLines⟩ := List.forall_mem_cons.mp plain
    have whole' : text = first ++ cr :: lf :: (joined cr lf lines ++ cr :: lf :: body) := by
      have split : text = ((before ++ between) ++ [cr, lf]) ++ cr :: lf :: body := by
        rw [whole]
        simp
      rw [split, lined, joined_cons]
      simp
    refine ⟨first, lines, body, plainFirst, plainLines, ?_, whole'⟩
    rw [whole', position_line plainFirst] at first_pair
    have sizes := congrArg List.length lined
    simp only [joined_cons, List.length_append, List.length_cons, List.length_nil] at sizes
    have firstLength := Option.some.inj first_pair
    have betweenLength : between.length = (joined cr lf lines).length := by omega
    -- An empty line would have put the double pair earlier.
    rintro empty member rfl
    obtain ⟨filled, later, rfl, absent⟩ := List.eq_append_cons_of_mem member
    have others : ∀ line ∈ filled, line ≠ [] := fun line inside isEmpty => absent (isEmpty ▸ inside)
    have early := position_joined distinct (fun line inside => plainLines line (List.mem_append_left _ inside)) others
      (joined cr lf later ++ cr :: lf :: body)
    have shown : [cr, lf] ++ rest =
        cr :: lf :: (joined cr lf filled ++ cr :: lf :: (joined cr lf later ++ cr :: lf :: body)) := by
      rw [← dropped, whole', ← firstLength, List.drop_left, joined_append, joined_cons]
      simp
    rw [shown, early] at double_pair
    have lengths := Option.some.inj double_pair
    rw [joined_append, joined_cons] at betweenLength
    simp only [List.length_append, List.length_cons, List.length_nil] at betweenLength
    omega

end Head

end Marks

end BtcPolicy.Lines
