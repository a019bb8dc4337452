import Mathlib.Data.List.Basic
import Mathlib.Tactic

/-! Encodings that say where they end. An encoder is self-delimiting on the values it accepts when the
value and what follows it can both be read off the concatenation. Such encoders compose: one after
another, over a list under its count, and through any injective view of a record. -/

namespace BtcPolicy.Codec

section Delimiting

variable {α γ β : Type}

/-- Two encodings that agree, with whatever follows them, are of one value and are followed by the same. -/
def SelfDelimiting (valid : α → Prop) (encode : α → List β) : Prop :=
  ∀ a b, valid a → valid b → ∀ s t, encode a ++ s = encode b ++ t → a = b ∧ s = t

variable {valid : α → Prop} {encode : α → List β}

/-- With nothing after it, a self-delimiting encoder is injective. -/
theorem SelfDelimiting.injective (delimited : SelfDelimiting valid encode) {a b : α} (first : valid a)
    (second : valid b) (same : encode a = encode b) : a = b := by
  have padded : encode a ++ [] = encode b ++ [] := by rw [same]
  exact (delimited a b first second [] [] padded).1

/-- An injective encoder of one width is self-delimiting. -/
theorem selfDelimiting_of_length (width : Nat) (length : ∀ a, valid a → (encode a).length = width)
    (injective : ∀ a b, valid a → valid b → encode a = encode b → a = b) : SelfDelimiting valid encode := by
  intro a b first second s t same
  have widths : (encode a).length = (encode b).length := by rw [length a first, length b second]
  obtain ⟨bodies, rests⟩ := List.append_inj same widths
  exact ⟨injective a b first second bodies, rests⟩

/-- A view of the values that loses nothing may be encoded in their place. -/
theorem SelfDelimiting.comap (delimited : SelfDelimiting valid encode) (view : γ → α) {accept : γ → Prop}
    (viewed : ∀ c, accept c → valid (view c))
    (faithful : ∀ c d, accept c → accept d → view c = view d → c = d) :
    SelfDelimiting accept (fun c => encode (view c)) := by
  intro c d first second s t same
  obtain ⟨views, rests⟩ := delimited _ _ (viewed c first) (viewed d second) s t same
  exact ⟨faithful c d first second views, rests⟩

/-- Fewer values are still delimited. -/
theorem SelfDelimiting.mono (delimited : SelfDelimiting valid encode) {fewer : α → Prop}
    (inside : ∀ a, fewer a → valid a) : SelfDelimiting fewer encode := by
  intro a b first second
  exact delimited a b (inside a first) (inside b second)

/-- One encoding after the other. -/
theorem SelfDelimiting.pair (delimited : SelfDelimiting valid encode) {accept : γ → Prop} {next : γ → List β}
    (later : SelfDelimiting accept next) :
    SelfDelimiting (fun p : α × γ => valid p.1 ∧ accept p.2) (fun p => encode p.1 ++ next p.2) := by
  rintro ⟨a, c⟩ ⟨b, d⟩ first second s t same
  simp only [List.append_assoc] at same
  obtain ⟨rfl, rest⟩ := delimited a b first.1 second.1 _ _ same
  obtain ⟨rfl, tails⟩ := later c d first.2 second.2 _ _ rest
  exact ⟨rfl, tails⟩

/-- Lists of one length, element by element. -/
theorem SelfDelimiting.flatMap (delimited : SelfDelimiting valid encode) (l m : List α)
    (each : ∀ a ∈ l, valid a) (every : ∀ a ∈ m, valid a) (length : l.length = m.length) (s t : List β)
    (same : l.flatMap encode ++ s = m.flatMap encode ++ t) : l = m ∧ s = t := by
  induction l generalizing m with
  | nil =>
    have empty : m = [] := List.length_eq_zero_iff.mp length.symm
    subst empty
    exact ⟨rfl, same⟩
  | cons a l ih =>
    cases m with
    | nil => simp at length
    | cons b m =>
      simp only [List.flatMap_cons, List.append_assoc] at same
      obtain ⟨rfl, rest⟩ := delimited a b (each a List.mem_cons_self) (every b List.mem_cons_self) _ _ same
      have shorter : l.length = m.length := Nat.succ.inj length
      obtain ⟨rfl, tails⟩ := ih m (fun c member => each c (List.mem_cons_of_mem _ member))
        (fun c member => every c (List.mem_cons_of_mem _ member)) shorter rest
      exact ⟨rfl, tails⟩

/-- A whole concatenation without a count, where no encoding is empty. -/
theorem SelfDelimiting.concat (delimited : SelfDelimiting valid encode) (nonempty : ∀ a, encode a ≠ [])
    {l m : List α} (each : ∀ a ∈ l, valid a) (every : ∀ a ∈ m, valid a) (same : l.flatMap encode = m.flatMap encode) :
    l = m := by
  induction l generalizing m with
  | nil =>
    cases m with
    | nil => rfl
    | cons b m => exact absurd (List.append_eq_nil_iff.mp same.symm).1 (nonempty b)
  | cons a l ih =>
    cases m with
    | nil => exact absurd (List.append_eq_nil_iff.mp same).1 (nonempty a)
    | cons b m =>
      obtain ⟨rfl, rest⟩ := delimited a b (each a List.mem_cons_self) (every b List.mem_cons_self) _ _ same
      rw [ih (fun c member => each c (List.mem_cons_of_mem _ member))
        (fun c member => every c (List.mem_cons_of_mem _ member)) rest]

/-- A list under its count. -/
theorem SelfDelimiting.counted (delimited : SelfDelimiting valid encode) {bound : Nat} {count : Nat → List β}
    (counts : SelfDelimiting (fun n => n < bound) count) :
    SelfDelimiting (fun l : List α => l.length < bound ∧ ∀ a ∈ l, valid a)
      (fun l => count l.length ++ l.flatMap encode) := by
  intro l m first second s t same
  simp only [List.append_assoc] at same
  obtain ⟨length, rest⟩ := counts _ _ first.1 second.1 _ _ same
  exact delimited.flatMap l m first.2 second.2 length s t rest

/-- A byte string under its length. -/
theorem selfDelimiting_sized {bound : Nat} {count : Nat → List β} (counts : SelfDelimiting (fun n => n < bound) count) :
    SelfDelimiting (fun l : List β => l.length < bound) (fun l => count l.length ++ l) := by
  intro l m first second s t same
  simp only [List.append_assoc] at same
  obtain ⟨length, rest⟩ := counts _ _ first second _ _ same
  exact List.append_inj rest length

/-- A byte string of one fixed width, as it is. -/
theorem selfDelimiting_fixed (width : Nat) : SelfDelimiting (fun l : List β => l.length = width) (fun l => l) :=
  selfDelimiting_of_length width (fun _ length => length) (fun _ _ _ _ same => same)

end Delimiting

section Sets

variable {α : Type}

/-- `Vec::dedup`: of each run of equal elements one is kept. -/
def dedupRuns [DecidableEq α] : List α → List α
  | [] => []
  | [a] => [a]
  | a :: b :: rest => if a = b then dedupRuns (b :: rest) else a :: dedupRuns (b :: rest)

theorem mem_dedupRuns [DecidableEq α] {l : List α} {c : α} : c ∈ dedupRuns l ↔ c ∈ l := by
  induction l using dedupRuns.induct with
  | case1 => rfl
  | case2 a => rfl
  | case3 b rest ih =>
    rw [dedupRuns, if_pos rfl, ih]
    simp
  | case4 a b rest different ih =>
    rw [dedupRuns, if_neg different, List.mem_cons, ih, List.mem_cons (a := c) (b := a)]

/-- In a sorted list equal elements stand together, so no element is left twice. -/
theorem dedupRuns_pairwise [LinearOrder α] {l : List α} (sorted : l.Pairwise (· ≤ ·)) :
    (dedupRuns l).Pairwise (· < ·) := by
  induction l using dedupRuns.induct with
  | case1 => exact List.Pairwise.nil
  | case2 a => exact List.pairwise_singleton _ a
  | case3 b rest ih =>
    rw [dedupRuns, if_pos rfl]
    exact ih (List.pairwise_cons.mp sorted).2
  | case4 a b rest different ih =>
    obtain ⟨least, sorted⟩ := List.pairwise_cons.mp sorted
    rw [dedupRuns, if_neg different]
    refine List.pairwise_cons.mpr ⟨?_, ih sorted⟩
    intro c member
    have below : a < b := lt_of_le_of_ne (least b List.mem_cons_self) different
    rcases List.mem_cons.mp (mem_dedupRuns.mp member) with rfl | later
    · exact below
    · exact lt_of_lt_of_le below ((List.pairwise_cons.mp sorted).1 c later)

/-- A set as its elements in order. -/
def listing [LinearOrder α] (l : List α) : List α := dedupRuns (l.mergeSort (fun a b => decide (a ≤ b)))

theorem mem_listing [LinearOrder α] {l : List α} {a : α} : a ∈ listing l ↔ a ∈ l := by
  rw [listing, mem_dedupRuns, List.mem_mergeSort]

/-- Two lists have one listing exactly when they have the same elements. -/
theorem listing_eq_iff [LinearOrder α] {l m : List α} : listing l = listing m ↔ l.toFinset = m.toFinset := by
  have ordered : ∀ k : List α, (listing k).Pairwise (· < ·) := by
    intro k
    apply dedupRuns_pairwise
    have sorted := @List.pairwise_mergeSort _ (fun a b : α => decide (a ≤ b))
      (by simpa using fun a b c => le_trans) (by simpa using le_total) k
    simpa using sorted
  constructor
  · intro same
    ext a
    rw [List.mem_toFinset, List.mem_toFinset, ← mem_listing, same, mem_listing]
  · intro same
    apply (ordered l).eq_of_mem_iff (ordered m)
    intro a
    rw [mem_listing, mem_listing, ← List.mem_toFinset, same, List.mem_toFinset]

end Sets

end BtcPolicy.Codec
