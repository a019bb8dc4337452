import BtcPolicy.Lib.Runs

/-! Refinement between two machines. Each step of the finer one comes to a few allowed steps of the coarser one, from
the state it stands for; an invariant of the finer machine may be used on the way. -/

namespace BtcPolicy.Refinement
open Runs

variable {σ σ' α α' ρ ρ' : Type}

/-- `finer` refines `coarser` under `view`, as long as `inv` holds. -/
structure Refines (finer : σ → α → σ × ρ) (ok : σ → α → Prop) (coarser : σ' → α' → σ' × ρ') (ok' : σ' → α' → Prop)
    (view : σ → σ') (inv : σ → Prop) : Prop where
  keep : ∀ s a, ok s a → inv s → inv (finer s a).1
  comes : ∀ s a, ok s a → inv s →
    ∃ actions, Allowed coarser ok' (view s) actions ∧ exec coarser (view s) actions = view (finer s a).1

variable {finer : σ → α → σ × ρ} {ok : σ → α → Prop} {coarser : σ' → α' → σ' × ρ'} {ok' : σ' → α' → Prop}
  {view : σ → σ'} {inv : σ → Prop}

/-- A step that the coarser machine does not see. -/
theorem unseen {s t : σ} (same : view t = view s) :
    ∃ actions, Allowed coarser ok' (view s) actions ∧ exec coarser (view s) actions = view t :=
  ⟨[], trivial, same.symm⟩

/-- A step that is one step of the coarser machine. -/
theorem seen {s t : σ} {a : α'} (allowed : ok' (view s) a) (same : view t = (coarser (view s) a).1) :
    ∃ actions, Allowed coarser ok' (view s) actions ∧ exec coarser (view s) actions = view t :=
  ⟨[a], ⟨allowed, trivial⟩, same.symm⟩

/-- Every allowed run of the finer machine stands for an allowed run of the coarser one. -/
theorem Refines.exec (refines : Refines finer ok coarser ok' view inv) {s : σ} (start : inv s) {actions : List α}
    (allowed : Allowed finer ok s actions) :
    ∃ actions', Allowed coarser ok' (view s) actions' ∧
      Runs.exec coarser (view s) actions' = view (Runs.exec finer s actions) := by
  induction actions generalizing s with
  | nil => exact unseen rfl
  | cons a rest ih =>
    obtain ⟨first, rest⟩ := allowed
    obtain ⟨before, legal, reached⟩ := refines.comes s a first start
    obtain ⟨after, legal', reached'⟩ := ih (refines.keep s a first start) rest
    refine ⟨before ++ after, (allowed_append _ _ _ _ _).mpr ⟨legal, ?_⟩, ?_⟩
    · rw [reached]
      exact legal'
    · rw [exec_append, reached, reached', exec_cons]

end BtcPolicy.Refinement
