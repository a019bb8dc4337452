import Mathlib.Data.List.Chain
import Mathlib.Data.List.Forall2

/-! Reading a chain of fallible steps back: what a success has passed through and where a failure comes from. With it
the relations between lists that such chains leave. -/

namespace BtcPolicy.Results

variable {ε α β : Type}

theorem ok_of_bind {x : Except ε α} {f : α → Except ε β} {b : β} (done : x >>= f = .ok b) :
    ∃ a, x = .ok a ∧ f a = .ok b := by
  cases x with
  | error e => cases done
  | ok a => exact ⟨a, rfl, done⟩

theorem ok_of_map {f : α → β} {x : Except ε α} {b : β} (done : x.map f = .ok b) : ∃ a, x = .ok a ∧ f a = b := by
  cases x with
  | error e => cases done
  | ok a =>
    cases done
    exact ⟨a, rfl, rfl⟩

theorem mapError_ok {ε' : Type} {result : Except ε α} {f : ε → ε'} {a : α}
    (ok : result.mapError f = .ok a) : result = .ok a := by
  cases result with
  | error e => cases ok
  | ok b =>
    cases ok
    rfl

/-- A `mapM` that succeeds has succeeded at every item. -/
theorem forall₂_of_mapM {f : α → Except ε β} {l : List α} {m : List β} (done : l.mapM f = .ok m) :
    List.Forall₂ (fun a b => f a = .ok b) l m := by
  induction l generalizing m with
  | nil =>
    cases done
    exact .nil
  | cons a l ih =>
    rw [List.mapM_cons] at done
    obtain ⟨b, first, done⟩ := ok_of_bind done
    obtain ⟨rest, mapped, done⟩ := ok_of_bind done
    cases done
    exact .cons first (ih mapped)

/-- What a related item on the right comes from. -/
theorem exists_of_forall₂ {related : α → β → Prop} {l : List α} {m : List β} (each : List.Forall₂ related l m) {b : β}
    (member : b ∈ m) : ∃ a ∈ l, related a b := by
  induction each with
  | nil => cases member
  | cons first _ ih =>
    obtain rfl | later := List.mem_cons.mp member
    · exact ⟨_, List.mem_cons_self, first⟩
    · obtain ⟨a, listed, holds⟩ := ih later
      exact ⟨a, List.mem_cons_of_mem _ listed, holds⟩

/-- What stands in the same place on the right. -/
theorem getElem?_of_forall₂ {related : α → β → Prop} {l : List α} {m : List β} (each : List.Forall₂ related l m) {i : Nat}
    {a : α} (found : l[i]? = some a) : ∃ b, m[i]? = some b ∧ related a b := by
  induction each generalizing i with
  | nil => cases found
  | @cons head other _ _ first _ ih =>
    cases i with
    | zero =>
      cases found
      exact ⟨other, rfl, first⟩
    | succ i => exact ih found

/-- A weaker relation may use that both items are listed. -/
theorem forall₂_imp_of_mem {first second : α → β → Prop} {l : List α} {m : List β} (each : List.Forall₂ first l m)
    (weaker : ∀ a ∈ l, ∀ b ∈ m, first a b → second a b) : List.Forall₂ second l m := by
  induction each with
  | nil => exact .nil
  | cons head _ ih =>
    refine .cons (weaker _ List.mem_cons_self _ List.mem_cons_self head) (ih ?_)
    intro a left b right
    exact weaker a (List.mem_cons_of_mem _ left) b (List.mem_cons_of_mem _ right)

/-- Two relations in a row, with what stands between and what stands last. -/
theorem forall₂_zip {γ : Type} {first : α → β → Prop} {second : β → γ → Prop} {l : List α} {m : List β} {n : List γ}
    (left : List.Forall₂ first l m) (right : List.Forall₂ second m n) :
    List.Forall₂ (fun a pair => first a pair.1 ∧ second pair.1 pair.2) l (m.zip n) := by
  induction left generalizing n with
  | nil => exact .nil
  | cons head _ ih =>
    cases right with
    | cons next rest => exact .cons ⟨head, next⟩ (ih rest)

theorem forall₂_compose {γ : Type} {first : α → β → Prop} {second : β → γ → Prop} {both : α → γ → Prop}
    (compose : ∀ {a b c}, first a b → second b c → both a c) {l : List α} {m : List β} {n : List γ}
    (left : List.Forall₂ first l m) (right : List.Forall₂ second m n) : List.Forall₂ both l n := by
  induction left generalizing n with
  | nil =>
    cases right
    exact .nil
  | cons head _ ih =>
    cases right with
    | cons next rest => exact .cons (compose head next) (ih rest)

/-- An optional `mapM` that succeeds has succeeded at every item. -/
theorem forall₂_of_mapM_some {f : α → Option β} {l : List α} {m : List β} (done : l.mapM f = some m) :
    List.Forall₂ (fun a b => f a = some b) l m := by
  induction l generalizing m with
  | nil =>
    cases done
    exact .nil
  | cons a l ih =>
    rw [List.mapM_cons, Option.bind_eq_bind, Option.bind_eq_some_iff] at done
    obtain ⟨first, here, done⟩ := done
    rw [Option.bind_eq_bind, Option.bind_eq_some_iff] at done
    obtain ⟨rest, mapped, done⟩ := done
    cases done
    exact .cons here (ih mapped)

theorem filterMap_of_forall₂ {f : α → Option β} {l : List α} {m : List β}
    (each : List.Forall₂ (fun a b => f a = some b) l m) : l.filterMap f = m := by
  induction each with
  | nil => rfl
  | cons first _ ih => rw [List.filterMap_cons_some first, ih]

/-- What an item of an optional `mapM` comes from. -/
theorem mem_of_mapM_some {f : α → Option β} {l : List α} {m : List β} (done : l.mapM f = some m) {b : β} (member : b ∈ m) :
    ∃ a ∈ l, f a = some b :=
  exists_of_forall₂ (forall₂_of_mapM_some done) member

/-- The first error of a `mapM` is that of one of its items. -/
theorem mapM_error {f : α → Except ε β} {l : List α} {e : ε} (failed : l.mapM f = .error e) :
    ∃ a, f a = .error e := by
  induction l with
  | nil => cases failed
  | cons a l ih =>
    rw [List.mapM_cons] at failed
    cases first : f a with
    | error _ =>
      rw [first] at failed
      cases failed
      exact ⟨a, first⟩
    | ok b =>
      rw [first] at failed
      cases rest : l.mapM f with
      | error _ =>
        rw [rest] at failed
        cases failed
        exact ih rest
      | ok bs =>
        rw [rest] at failed
        cases failed

theorem isOk_mapM (f : α → Except ε β) (l : List α) : (l.mapM f).isOk = l.all (fun a => (f a).isOk) := by
  induction l with
  | nil => rfl
  | cons a l ih =>
    rw [List.mapM_cons, List.all_cons, ← ih]
    cases f a with
    | error e => rfl
    | ok b =>
      cases l.mapM f with
      | error e => rfl
      | ok rest => rfl

/-- A chain whose links imply another relation is a chain of that one. -/
theorem isChain_of_pairwise {R S : α → α → Prop} {l : List α} (linked : l.IsChain R)
    (implies : l.Pairwise (fun a b => R a b → S a b)) : l.IsChain S := by
  induction linked with
  | nil => exact .nil
  | singleton a => exact .singleton a
  | cons_cons link _ ih =>
    obtain ⟨first, rest⟩ := List.pairwise_cons.mp implies
    exact .cons_cons (first _ List.mem_cons_self link) (ih rest)

end BtcPolicy.Results
