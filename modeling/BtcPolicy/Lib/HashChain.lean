import Mathlib.Data.List.Chain
import Mathlib.Data.List.DropRight
import Mathlib.Tactic

/-! Chains of hashes, each naming its parent, and lists of consecutive heights over them. A chain is
written root first, so the hash at height `i` is its entry `i`. -/

namespace BtcPolicy.HashChain

variable {H : Type}

/-- The pairs of height and hash of a list whose first entry stands at height `start`. -/
def numbered : Nat → List H → List (Nat × H)
  | _, [] => []
  | start, hash :: rest => (start, hash) :: numbered (start + 1) rest

@[simp] theorem numbered_nil (start : Nat) : numbered start ([] : List H) = [] := rfl

@[simp] theorem numbered_cons (start : Nat) (hash : H) (l : List H) :
    numbered start (hash :: l) = (start, hash) :: numbered (start + 1) l := rfl

@[simp] theorem length_numbered (start : Nat) (l : List H) : (numbered start l).length = l.length := by
  induction l generalizing start with
  | nil => rfl
  | cons hash l ih => simp [ih]

@[simp] theorem numbered_eq_nil {start : Nat} {l : List H} : numbered start l = [] ↔ l = [] := by
  cases l <;> simp

theorem numbered_append (start : Nat) (l more : List H) :
    numbered start (l ++ more) = numbered start l ++ numbered (start + l.length) more := by
  induction l generalizing start with
  | nil => simp
  | cons hash l ih =>
    rw [List.cons_append, numbered_cons, ih, numbered_cons, List.length_cons, List.cons_append]
    congr 3
    omega

theorem numbered_drop (start n : Nat) (l : List H) :
    (numbered start l).drop n = numbered (start + n) (l.drop n) := by
  induction n generalizing start l with
  | zero => simp
  | succ n ih =>
    cases l with
    | nil => simp
    | cons hash l =>
      rw [numbered_cons, List.drop_succ_cons, ih, List.drop_succ_cons]
      congr 1
      omega

@[simp] theorem map_snd_numbered (start : Nat) (l : List H) : (numbered start l).map Prod.snd = l := by
  induction l generalizing start with
  | nil => rfl
  | cons hash l ih => rw [numbered_cons, List.map_cons, ih]

theorem mem_numbered {start : Nat} {l : List H} {entry : Nat × H} :
    entry ∈ numbered start l ↔ ∃ i, l[i]? = some entry.2 ∧ entry.1 = start + i := by
  induction l generalizing start with
  | nil => simp
  | cons hash l ih =>
    rw [numbered_cons, List.mem_cons, ih]
    constructor
    · rintro (rfl | ⟨i, found, height⟩)
      · exact ⟨0, by simp⟩
      · exact ⟨i + 1, by simpa using found, by omega⟩
    · rintro ⟨i, found, height⟩
      cases i with
      | zero =>
        left
        ext
        · simpa using height
        · simpa using found.symm
      | succ i => exact Or.inr ⟨i, by simpa using found, by omega⟩

theorem getLast_numbered {start : Nat} {l : List H} {entry : Nat × H}
    (last : (numbered start l).getLast? = some entry) :
    l.getLast? = some entry.2 ∧ entry.1 + 1 = start + l.length := by
  induction l using List.reverseRecOn with
  | nil => simp at last
  | append_singleton l hash _ =>
    simp only [numbered_append, numbered_cons, numbered_nil, List.getLast?_append, List.getLast?_singleton, Option.some_or,
      Option.some.injEq] at last
    subst last
    constructor
    · simp
    · simp
      omega

/-- The entries at or above a height are a tail of the list. -/
theorem filter_numbered (start bound : Nat) (l : List H) :
    (numbered start l).filter (fun entry => decide (bound ≤ entry.1)) = (numbered start l).drop (bound - start) := by
  induction l generalizing start with
  | nil => simp
  | cons hash l ih =>
    rw [numbered_cons]
    by_cases low : bound ≤ start
    · rw [List.filter_cons_of_pos (by simpa using low), ih]
      have none : bound - start = 0 := by omega
      have later : bound - (start + 1) = 0 := by omega
      rw [none, later]
      rfl
    · rw [List.filter_cons_of_neg (by simpa using low), ih]
      have step : bound - start = (bound - (start + 1)) + 1 := by omega
      rw [step, List.drop_succ_cons]

/-- Dropping from the end every entry above a height leaves the entries up to it. -/
theorem rdropWhile_numbered (start top : Nat) (l : List H) (inside : start ≤ top) :
    (numbered start l).rdropWhile (fun entry => decide (top < entry.1)) = numbered start (l.take (top + 1 - start)) := by
  induction l using List.reverseRecOn with
  | nil => simp
  | append_singleton l hash ih =>
    rw [numbered_append]
    simp only [numbered_cons, numbered_nil]
    by_cases above : top < start + l.length
    · rw [List.rdropWhile_concat_pos _ _ _ (by simpa using above), ih,
        List.take_append_of_le_length (by omega)]
    · rw [List.rdropWhile_concat_neg _ _ _ (by simpa using above)]
      have whole : l ++ [hash] = (l ++ [hash]).take (top + 1 - start) := by
        rw [List.take_of_length_le]
        simp
        omega
      rw [← whole, numbered_append]
      rfl

/-- Each height is one above the height before it. -/
def Consecutive (entries : List (Nat × H)) : Prop :=
  entries.IsChain (fun lower upper => upper.1 = lower.1 + 1)

theorem consecutive_numbered (start : Nat) (l : List H) : Consecutive (numbered start l) := by
  induction l generalizing start with
  | nil => exact List.isChain_nil
  | cons hash l ih =>
    cases l with
    | nil => exact List.isChain_singleton _
    | cons next l => exact List.IsChain.cons_cons rfl (ih (start + 1))

section Parents

variable (parent : H → Option H)

/-- Each hash is the parent of the next one. -/
def Linked (l : List H) : Prop := l.IsChain (fun lower upper => parent upper = some lower)

/-- A linked list whose first hash has no parent. -/
structure Rooted (l : List H) : Prop where
  linked : Linked parent l
  root : ∀ hash, l.head? = some hash → parent hash = none

variable {parent}

theorem rooted_nil : Rooted parent [] := ⟨List.isChain_nil, by simp⟩

theorem Rooted.take {l : List H} (rooted : Rooted parent l) (n : Nat) : Rooted parent (l.take n) where
  linked := rooted.linked.take n
  root := by
    intro hash first
    cases n with
    | zero => simp at first
    | succ n => exact rooted.root hash (by simpa [List.head?_take] using first)

/-- A hash commits to the chain below it. -/
theorem Rooted.unique {l other : List H} (rooted : Rooted parent l) (rooted' : Rooted parent other)
    {hash : H} (last : l.getLast? = some hash) (last' : other.getLast? = some hash) : l = other := by
  -- Both lists are read from the end: equal last hashes have equal parents.
  induction l using List.reverseRecOn generalizing other hash with
  | nil => simp at last
  | append_singleton l tip ih =>
    obtain ⟨other, rfl⟩ : ∃ front, other = front ++ [hash] := by
      refine ⟨other.dropLast, (List.dropLast_append_getLast? hash ?_).symm⟩
      simpa using last'
    obtain rfl : tip = hash := by simpa using last
    have below : Rooted parent l := by simpa using rooted.take l.length
    have below' : Rooted parent other := by simpa using rooted'.take other.length
    have parentOf : ∀ front : List H, Rooted parent (front ++ [tip]) → parent tip = front.getLast? := by
      intro front chain
      cases final : front.getLast? with
      | none =>
        rw [List.getLast?_eq_none_iff] at final
        exact chain.root tip (by simp [final])
      | some lower =>
        have linked := (List.isChain_append.mp chain.linked).2.2
        exact linked lower final tip (by simp)
    have parents : l.getLast? = other.getLast? := (parentOf l rooted).symm.trans (parentOf other rooted')
    cases final : l.getLast? with
    | none =>
      have final' : other.getLast? = none := parents ▸ final
      rw [List.getLast?_eq_none_iff] at final final'
      rw [final, final']
    | some lower => rw [ih below below' final (parents ▸ final)]

/-- As `Rooted.unique`, for a hash anywhere on the other chain. -/
theorem Rooted.eq_take {l other : List H} (rooted : Rooted parent l) (rooted' : Rooted parent other) {hash : H}
    {height : Nat} (found : l[height]? = some hash) (last : other.getLast? = some hash) :
    other = l.take (height + 1) := by
  apply rooted'.unique (rooted.take (height + 1)) last
  rw [List.take_add_one, found]
  simp

/-- The parent of the last hash is the hash below it. -/
theorem Rooted.below_last {front : List H} {hash lower : H} (rooted : Rooted parent (front ++ [hash]))
    (named : parent hash = some lower) : front.getLast? = some lower := by
  cases final : front.getLast? with
  | none =>
    rw [List.getLast?_eq_none_iff] at final
    have none := rooted.root hash (by simp [final])
    rw [none] at named
    cases named
  | some other =>
    have linked := (List.isChain_append.mp rooted.linked).2.2 other final hash (by simp)
    exact linked.symm.trans named

/-- Hashes that follow one another from the last hash of a chain extend it. -/
theorem Rooted.extend {front added : List H} {tip : H} (rooted : Rooted parent (front ++ [tip]))
    (linked : Linked parent (tip :: added)) : Rooted parent (front ++ tip :: added) where
  linked := List.isChain_split.mpr ⟨rooted.linked, linked⟩
  root := by
    intro hash first
    apply rooted.root hash
    cases front <;> exact first

end Parents

end BtcPolicy.HashChain
