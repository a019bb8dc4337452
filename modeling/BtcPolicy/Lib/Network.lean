import BtcPolicy.Lib.Runs
import Mathlib.Logic.Function.Basic

/-! Members of a network. Each of them steps on its own state and keeps a record of what it has said; what one hears
from another over an authenticated channel that one has said, as long as it is honest, and nothing else is known of
the channel: messages are late, come twice, out of order, or never. The members that are not honest have no state,
and say what they like. -/

namespace BtcPolicy.Network
open Runs

variable {ι σ α ρ μ : Type}

/-- The members: how each of them steps, what a state records as said, and what an action hears from whom. -/
structure Members (ι σ α ρ μ : Type) where
  step : ι → σ → α → σ × ρ
  said : σ → Set μ
  hears : α → Option (ι × μ)
  keeps : ∀ i s a, said s ⊆ said (step i s a).1

namespace Members

variable (net : Members ι σ α ρ μ)

/-- One member takes one action. -/
def netStep [DecidableEq ι] (w : ι → σ) (action : ι × α) : (ι → σ) × ρ :=
  let moved := net.step action.1 (w action.1) action.2
  (Function.update w action.1 moved.1, moved.2)

/-- What may be taken for said: anything by the others, and by an honest member what it has said. -/
def Heard (honest : Set ι) (w : ι → σ) (j : ι) (m : μ) : Prop := j ∈ honest → m ∈ net.said (w j)

/-- An honest member takes an action that is its own to take, and hears through it only what may be taken for said. -/
def Authentic (honest : Set ι) (own : ι → α → Prop) (w : ι → σ) (action : ι × α) : Prop :=
  action.1 ∈ honest ∧ own action.1 action.2 ∧ ∀ j m, net.hears action.2 = some (j, m) → net.Heard honest w j m

/-- An invariant of the honest members, on the evidence of what each has heard from the others: more evidence does no
harm, and a step keeps it when what the step hears is in evidence. -/
structure Evident (honest : Set ι) (own : ι → α → Prop) (inv : (ι → μ → Prop) → ι → σ → Prop) : Prop where
  mono : ∀ {heard heard' i s}, (∀ j m, heard j m → heard' j m) → inv heard i s → inv heard' i s
  keep : ∀ {heard i s a}, i ∈ honest → own i a → (∀ j m, net.hears a = some (j, m) → heard j m) → inv heard i s →
    inv heard i (net.step i s a).1

variable [DecidableEq ι] {net} {honest : Set ι} {own : ι → α → Prop}

@[simp] theorem netStep_self (w : ι → σ) (action : ι × α) :
    (net.netStep w action).1 action.1 = (net.step action.1 (w action.1) action.2).1 := by
  simp [netStep]

theorem netStep_other (w : ι → σ) {action : ι × α} {i : ι} (other : i ≠ action.1) :
    (net.netStep w action).1 i = w i :=
  Function.update_of_ne other _ w

theorem said_netStep (w : ι → σ) (action : ι × α) (i : ι) :
    net.said (w i) ⊆ net.said ((net.netStep w action).1 i) := by
  by_cases mine : i = action.1
  · rw [mine, netStep_self]
    exact net.keeps action.1 (w action.1) action.2
  · rw [netStep_other w mine]

/-- Actions through which nothing is heard. -/
theorem allowed_of_silent (w : ι → σ) (actions : List (ι × α))
    (silent : ∀ action ∈ actions, action.1 ∈ honest ∧ own action.1 action.2 ∧ net.hears action.2 = none) :
    Allowed net.netStep (net.Authentic honest own) w actions := by
  induction actions generalizing w with
  | nil => trivial
  | cons action rest ih =>
    obtain ⟨mover, legal, nothing⟩ := silent action List.mem_cons_self
    refine ⟨⟨mover, legal, ?_⟩, ih _ (fun other later => silent other (List.mem_cons_of_mem _ later))⟩
    intro j m heard
    rw [nothing] at heard
    cases heard

/-- Whatever the others do, what an honest member has on evidence in a run its peers have said in that run. -/
theorem evident_exec {inv : (ι → μ → Prop) → ι → σ → Prop} (evident : net.Evident honest own inv) (w : ι → σ)
    (start : ∀ i ∈ honest, inv (net.Heard honest w) i (w i)) (actions : List (ι × α))
    (allowed : Allowed net.netStep (net.Authentic honest own) w actions) :
    ∀ i ∈ honest, inv (net.Heard honest (exec net.netStep w actions)) i (exec net.netStep w actions i) := by
  refine exec_invariant_allowed net.netStep (net.Authentic honest own)
    (fun w => ∀ i ∈ honest, inv (net.Heard honest w) i (w i)) ?_ w start actions allowed
  intro w action authentic holds i member
  obtain ⟨mover, legal, hearing⟩ := authentic
  have more : ∀ j m, net.Heard honest w j m → net.Heard honest (net.netStep w action).1 j m := by
    intro j m heard honest
    exact said_netStep w action j (heard honest)
  apply evident.mono more
  by_cases mine : i = action.1
  · rw [mine, netStep_self]
    exact evident.keep mover legal hearing (mine ▸ holds i member)
  · rw [netStep_other w mine]
    exact holds i member

end Members

end BtcPolicy.Network
