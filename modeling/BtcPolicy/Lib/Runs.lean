import Mathlib.Data.List.Infix
import Mathlib.Tactic

/-! Runs of a deterministic machine: a step function from a state and an action to the next state and
a reply. The rules below turn facts about one step into facts about every state a run reaches, with
the actions before that state as its history. -/

namespace BtcPolicy.Runs

variable {σ α ρ : Type}

/-- The state after a list of actions. -/
def exec (step : σ → α → σ × ρ) (s : σ) (actions : List α) : σ :=
  actions.foldl (fun s a => (step s a).1) s

section Exec

variable (step : σ → α → σ × ρ)

@[simp] theorem exec_nil (s : σ) : exec step s [] = s := rfl

@[simp] theorem exec_cons (s : σ) (a : α) (rest : List α) :
    exec step s (a :: rest) = exec step (step s a).1 rest := rfl

theorem exec_append (s : σ) (before after : List α) :
    exec step s (before ++ after) = exec step (exec step s before) after :=
  List.foldl_append

@[simp] theorem exec_snoc (s : σ) (before : List α) (a : α) :
    exec step s (before ++ [a]) = (step (exec step s before) a).1 := by
  rw [exec_append]
  rfl

/-- An invariant of every step is an invariant of every run. -/
theorem exec_invariant (inv : σ → Prop) (keep : ∀ s a, inv s → inv (step s a).1) (s : σ)
    (start : inv s) (actions : List α) : inv (exec step s actions) := by
  induction actions generalizing s with
  | nil => exact start
  | cons a rest ih => exact ih _ (keep s a start)

/-- As `exec_invariant`, for runs of actions that all satisfy `ok`. -/
theorem exec_invariant_of (ok : α → Prop) (inv : σ → Prop) (keep : ∀ s a, ok a → inv s → inv (step s a).1)
    (s : σ) (start : inv s) (actions : List α) (each : ∀ a ∈ actions, ok a) : inv (exec step s actions) := by
  induction actions generalizing s with
  | nil => exact start
  | cons a rest ih =>
    apply ih _ (keep s a (each a List.mem_cons_self) start)
    intro b member
    exact each b (List.mem_cons_of_mem _ member)

/-- A fact that every step keeps as long as `during` holds after it survives a run through states
that all satisfy `during`. -/
theorem exec_while (fact during : σ → Prop)
    (keep : ∀ s a, fact s → during (step s a).1 → fact (step s a).1) (s : σ) (start : fact s)
    (actions : List α) (through : ∀ front, front <+: actions → during (exec step s front)) :
    fact (exec step s actions) := by
  induction actions generalizing s with
  | nil => exact start
  | cons a rest ih =>
    have first : during (step s a).1 :=
      through [a] (List.cons_prefix_cons.mpr ⟨rfl, List.nil_prefix⟩)
    apply ih _ (keep s a start first)
    intro front shorter
    exact through (a :: front) (List.cons_prefix_cons.mpr ⟨rfl, shorter⟩)

/-- One step of a run: the state it was taken in, the action, and the reply. -/
structure Event (σ α ρ : Type) where
  state : σ
  action : α
  reply : ρ

/-- The steps of a run, in order. -/
def trace (s : σ) : List α → List (Event σ α ρ)
  | [] => []
  | a :: rest => ⟨s, a, (step s a).2⟩ :: trace (step s a).1 rest

theorem trace_snoc (s : σ) (before : List α) (a : α) :
    trace step s (before ++ [a]) =
      trace step s before ++ [⟨exec step s before, a, (step (exec step s before) a).2⟩] := by
  induction before generalizing s with
  | nil => rfl
  | cons b before ih =>
    rw [List.cons_append, trace, ih]
    rfl

theorem reply_of_mem_trace {s : σ} {actions : List α} {event : Event σ α ρ} (member : event ∈ trace step s actions) :
    event.reply = (step event.state event.action).2 := by
  induction actions generalizing s with
  | nil => cases member
  | cons action rest ih =>
    rcases List.mem_cons.mp member with rfl | later
    · rfl
    · exact ih later

/-- Some action of the run, taken in the state the actions before it lead to, satisfies `event`. -/
def Happened (event : σ → α → Prop) (s : σ) (actions : List α) : Prop :=
  ∃ before a after, actions = before ++ a :: after ∧ event (exec step s before) a

/-- As `Happened`, and `fact` has held in every state from that action on. -/
def HappenedSince (event : σ → α → Prop) (fact : σ → Prop) (s : σ) (actions : List α) : Prop :=
  ∃ before a after, actions = before ++ a :: after ∧ event (exec step s before) a ∧
    ∀ front, front <+: after → fact (exec step s (before ++ a :: front))

theorem HappenedSince.happened {event : σ → α → Prop} {fact : σ → Prop} {s : σ} {actions : List α}
    (since : HappenedSince step event fact s actions) : Happened step event s actions := by
  obtain ⟨before, a, after, same, holds, _⟩ := since
  exact ⟨before, a, after, same, holds⟩

theorem HappenedSince.snoc {event : σ → α → Prop} {fact : σ → Prop} {s : σ} {actions : List α} {a : α}
    (since : HappenedSince step event fact s actions) (still : fact (exec step s (actions ++ [a]))) :
    HappenedSince step event fact s (actions ++ [a]) := by
  obtain ⟨before, b, after, same, holds, through⟩ := since
  refine ⟨before, b, after ++ [a], by simp [same], holds, ?_⟩
  intro front shorter
  rcases List.prefix_concat_iff.mp shorter with whole | inside
  · have here : before ++ b :: front = actions ++ [a] := by simp [whole, same]
    rw [here]
    exact still
  · exact through front inside

theorem happenedSince_last {event : σ → α → Prop} {fact : σ → Prop} {s : σ} {actions : List α} {a : α}
    (last : event (exec step s actions) a) (holds : fact (exec step s (actions ++ [a]))) :
    HappenedSince step event fact s (actions ++ [a]) := by
  refine ⟨actions, a, [], rfl, last, ?_⟩
  intro front empty
  rw [List.prefix_nil.mp empty]
  exact holds

/-- What does not hold at the start holds later only because some action established it for good. -/
theorem happenedSince_of_established (inv fact : σ → Prop) (event : σ → α → Prop)
    (keep : ∀ s a, inv s → inv (step s a).1)
    (establish : ∀ s a, inv s → ¬fact s → fact (step s a).1 → event s a) (s : σ)
    (start : inv s) (absent : ¬fact s) (actions : List α) (holds : fact (exec step s actions)) :
    HappenedSince step event fact s actions := by
  induction actions using List.reverseRecOn with
  | nil => exact absurd holds absent
  | append_singleton actions a ih =>
    have before : inv (exec step s actions) := exec_invariant step inv keep s start actions
    by_cases known : fact (exec step s actions)
    · exact (ih known).snoc step holds
    · refine happenedSince_last step (establish _ a before known ?_) holds
      rw [exec_snoc] at holds
      exact holds

/-- An action that leaves a mark which lasts and rules the action out is taken once at most. -/
theorem happens_at_most_once (inv spent : σ → Prop) (event : σ → α → Prop)
    (keep : ∀ s a, inv s → inv (step s a).1)
    (marks : ∀ s a, inv s → event s a → spent (step s a).1)
    (lasts : ∀ s a, inv s → spent s → spent (step s a).1)
    (bars : ∀ s a, inv s → spent s → ¬event s a) (s : σ) (start : inv s) (before between : List α) (a b : α)
    (first : event (exec step s before) a) : ¬event (exec step s (before ++ a :: between)) b := by
  have here : inv (exec step s before) := exec_invariant step inv keep s start before
  have both : inv (exec step s (before ++ a :: between)) ∧ spent (exec step s (before ++ a :: between)) := by
    rw [exec_append, exec_cons]
    apply exec_invariant step (fun s => inv s ∧ spent s)
    · intro s a holds
      exact ⟨keep s a holds.1, lasts s a holds.1 holds.2⟩
    · exact ⟨keep _ a here, marks _ a here first⟩
  exact bars _ b both.1 both.2

/-- Every action of the run is allowed in the state it is taken in. -/
def Allowed (ok : σ → α → Prop) : σ → List α → Prop
  | _, [] => True
  | s, a :: rest => ok s a ∧ Allowed ok (step s a).1 rest

/-- As `exec_invariant`, for runs that are allowed step by step. -/
theorem exec_invariant_allowed (ok : σ → α → Prop) (inv : σ → Prop)
    (keep : ∀ s a, ok s a → inv s → inv (step s a).1) (s : σ) (start : inv s) (actions : List α)
    (allowed : Allowed step ok s actions) : inv (exec step s actions) := by
  induction actions generalizing s with
  | nil => exact start
  | cons a rest ih => exact ih _ (keep s a allowed.1 start) allowed.2

theorem allowed_append (ok : σ → α → Prop) (s : σ) (before after : List α) :
    Allowed step ok s (before ++ after) ↔
      Allowed step ok s before ∧ Allowed step ok (exec step s before) after := by
  induction before generalizing s with
  | nil => simp [Allowed]
  | cons a before ih => simp [Allowed, ih, and_assoc]

theorem allowed_iff (ok : σ → α → Prop) (s : σ) (actions : List α) :
    Allowed step ok s actions ↔
      ∀ before a after, actions = before ++ a :: after → ok (exec step s before) a := by
  constructor
  · intro allowed before a after same
    rw [same, allowed_append] at allowed
    exact allowed.2.1
  · intro each
    induction actions generalizing s with
    | nil => trivial
    | cons a rest ih =>
      refine ⟨each [] a rest rfl, ih _ ?_⟩
      intro before b after same
      exact each (a :: before) b after (by rw [same]; rfl)

/-- `t` is reached from `s` by actions that all satisfy `ok`: what one step of a coarser machine does to `s`. -/
def Reaches (ok : α → Prop) (s t : σ) : Prop := ∃ actions, (∀ a ∈ actions, ok a) ∧ exec step s actions = t

theorem Reaches.refl (ok : α → Prop) (s : σ) : Reaches step ok s s := ⟨[], nofun, rfl⟩

theorem Reaches.single {ok : α → Prop} {a : α} (meets : ok a) (s : σ) : Reaches step ok s (step s a).1 :=
  ⟨[a], by simpa using meets, rfl⟩

variable {step}

theorem Reaches.trans {ok : α → Prop} {s t u : σ} (first : Reaches step ok s t) (second : Reaches step ok t u) :
    Reaches step ok s u := by
  obtain ⟨before, meets, rfl⟩ := first
  obtain ⟨after, meets', rfl⟩ := second
  refine ⟨before ++ after, ?_, exec_append step s before after⟩
  intro a member
  exact (List.mem_append.mp member).elim (meets a) (meets' a)

theorem Reaches.invariant {ok : α → Prop} {s t : σ} (reached : Reaches step ok s t) (inv : σ → Prop)
    (keep : ∀ s a, ok a → inv s → inv (step s a).1) (start : inv s) : inv t := by
  obtain ⟨actions, meets, rfl⟩ := reached
  exact exec_invariant_of step ok inv keep s start actions meets

end Exec

end BtcPolicy.Runs
