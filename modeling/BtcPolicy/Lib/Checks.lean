import Mathlib.Tactic

/-! Checks that run one after the other until one refuses. A list says what each of them asks and which errors it
may answer with; a program decides the list when it accepts exactly where all of it holds and otherwise answers
for the first that does not. -/

namespace BtcPolicy.Checks

variable {ε : Type}

/-- What a check asks, and the errors it refuses with. -/
structure Check (ε : Type) where
  asks : Prop
  refuses : ε → Prop

def Pass (checks : List (Check ε)) : Prop := ∀ check ∈ checks, check.asks

/-- The first check that does not hold answers with `e`. -/
def Refused (checks : List (Check ε)) (e : ε) : Prop :=
  ∃ before check after, checks = before ++ check :: after ∧ Pass before ∧ ¬check.asks ∧ check.refuses e

/-- Accepts where every check holds, and answers for the first that does not. -/
def Decides (result : Except ε Unit) (checks : List (Check ε)) : Prop :=
  (result = .ok () ∧ Pass checks) ∨ ∃ e, result = .error e ∧ Refused checks e

@[simp] theorem pass_nil : Pass ([] : List (Check ε)) := by
  intro check member
  cases member

@[simp] theorem pass_cons (check : Check ε) (checks : List (Check ε)) :
    Pass (check :: checks) ↔ check.asks ∧ Pass checks :=
  List.forall_mem_cons

@[simp] theorem pass_append (first second : List (Check ε)) : Pass (first ++ second) ↔ Pass first ∧ Pass second :=
  List.forall_mem_append

theorem Refused.not_pass {checks : List (Check ε)} {e : ε} (refused : Refused checks e) : ¬Pass checks := by
  obtain ⟨before, check, after, rfl, _, fails, _⟩ := refused
  intro pass
  exact fails (pass check (List.mem_append_right _ List.mem_cons_self))

theorem Refused.append {first : List (Check ε)} {e : ε} (refused : Refused first e) (second : List (Check ε)) :
    Refused (first ++ second) e := by
  obtain ⟨before, check, after, rfl, pass, fails, answers⟩ := refused
  exact ⟨before, check, after ++ second, by simp, pass, fails, answers⟩

theorem Refused.after {first second : List (Check ε)} {e : ε} (pass : Pass first) (refused : Refused second e) :
    Refused (first ++ second) e := by
  obtain ⟨before, check, after, rfl, passes, fails, answers⟩ := refused
  exact ⟨first ++ before, check, after, by simp, (pass_append _ _).mpr ⟨pass, passes⟩, fails, answers⟩

theorem Decides.ok_iff {result : Except ε Unit} {checks : List (Check ε)} (decides : Decides result checks) :
    result = .ok () ↔ Pass checks := by
  rcases decides with ⟨accepted, pass⟩ | ⟨e, failed, refused⟩
  · exact ⟨fun _ => pass, fun _ => accepted⟩
  · constructor
    · intro accepted
      rw [failed] at accepted
      cases accepted
    · intro pass
      exact absurd pass refused.not_pass

theorem Decides.refused {result : Except ε Unit} {checks : List (Check ε)} (decides : Decides result checks) {e : ε}
    (failed : result = .error e) : Refused checks e := by
  rcases decides with ⟨accepted, _⟩ | ⟨other, answered, refused⟩
  · rw [accepted] at failed
    cases failed
  · rw [answered] at failed
    cases failed
    exact refused

theorem decides_nil : Decides (.ok () : Except ε Unit) [] := Or.inl ⟨rfl, pass_nil⟩

/-- A check that is one question. -/
theorem decides_single {result : Except ε Unit} {check : Check ε} (accepts : check.asks → result = .ok ())
    (refuses : ¬check.asks → ∃ e, result = .error e ∧ check.refuses e) : Decides result [check] := by
  by_cases holds : check.asks
  · exact Or.inl ⟨accepts holds, (pass_cons _ _).mpr ⟨holds, pass_nil⟩⟩
  · obtain ⟨e, failed, answers⟩ := refuses holds
    exact Or.inr ⟨e, failed, [], check, [], rfl, pass_nil, holds, answers⟩

/-- The second program runs where the first one's checks hold. -/
theorem decides_bind {first second : Except ε Unit} {checks rest : List (Check ε)} (head : Decides first checks)
    (tail : Pass checks → Decides second rest) : Decides (first >>= fun _ => second) (checks ++ rest) := by
  rcases head with ⟨accepted, pass⟩ | ⟨e, failed, refused⟩
  · rw [accepted]
    rcases tail pass with ⟨accepted, passes⟩ | ⟨e, failed, refused⟩
    · exact Or.inl ⟨accepted, (pass_append _ _).mpr ⟨pass, passes⟩⟩
    · exact Or.inr ⟨e, failed, Refused.after pass refused⟩
  · rw [failed]
    exact Or.inr ⟨e, rfl, refused.append rest⟩

/-- A guard that answers at once, in front of the rest. -/
theorem decides_guard {bad : Prop} [Decidable bad] {e : ε} {result : Except ε Unit} {check : Check ε}
    {rest : List (Check ε)} (asks : check.asks ↔ ¬bad) (answers : check.refuses e)
    (tail : check.asks → Decides result rest) : Decides (if bad then .error e else result) (check :: rest) := by
  by_cases fails : bad
  · rw [if_pos fails]
    have refuses : ¬check.asks := fun holds => asks.mp holds fails
    exact Or.inr ⟨e, rfl, [], check, rest, rfl, pass_nil, refuses, answers⟩
  · rw [if_neg fails]
    have holds : check.asks := asks.mpr fails
    rcases tail holds with ⟨accepted, pass⟩ | ⟨other, failed, refused⟩
    · exact Or.inl ⟨accepted, (pass_cons _ _).mpr ⟨holds, pass⟩⟩
    · refine Or.inr ⟨other, failed, ?_⟩
      have alone : Pass [check] := (pass_cons _ _).mpr ⟨holds, pass_nil⟩
      exact Refused.after alone refused

end BtcPolicy.Checks
