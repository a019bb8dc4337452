import Mathlib.Tactic

/-! Programs that act on a state and may fail. A failure keeps the state as it stands when it happens.
The rules below carry pre- and postconditions through such a program one step at a time. -/

namespace BtcPolicy.Programs

variable {σ ε α β : Type}

def Prog (σ ε α : Type) := σ → Except ε α × σ

namespace Prog

def pure (value : α) : Prog σ ε α := fun s => (.ok value, s)

def bind (first : Prog σ ε α) (next : α → Prog σ ε β) : Prog σ ε β := fun s =>
  match first s with
  | (.ok value, s) => next value s
  | (.error error, s) => (.error error, s)

instance : Monad (Prog σ ε) where
  pure := Prog.pure
  bind := Prog.bind

def fail (error : ε) : Prog σ ε α := fun s => (.error error, s)

def get : Prog σ ε σ := fun s => (.ok s, s)

def modify (change : σ → σ) : Prog σ ε Unit := fun s => (.ok (), change s)

/-- A result that does not look at the state. -/
def lift (result : Except ε α) : Prog σ ε α := fun s => (result, s)

end Prog

/-- From a state with `pre`, an answer leaves `post` of it and the state, and a failure leaves `failed`. -/
def Triple (pre : σ → Prop) (prog : Prog σ ε α) (post : α → σ → Prop) (failed : σ → Prop) : Prop :=
  ∀ s, pre s → match prog s with
    | (.ok value, s) => post value s
    | (.error _, s) => failed s

section Rules

variable {pre pre' : σ → Prop} {prog : Prog σ ε α} {post post' : α → σ → Prop} {failed failed' : σ → Prop}

theorem triple_pure (value : α) (holds : ∀ s, pre s → post value s) :
    Triple pre (Pure.pure value : Prog σ ε α) post failed := holds

theorem triple_fail (error : ε) (holds : ∀ s, pre s → failed s) :
    Triple pre (Prog.fail error : Prog σ ε α) post failed := holds

theorem triple_modify (change : σ → σ) {post : Unit → σ → Prop} (holds : ∀ s, pre s → post () (change s)) :
    Triple pre (Prog.modify change : Prog σ ε Unit) post failed := holds

theorem triple_get {post : σ → σ → Prop} (holds : ∀ s, pre s → post s s) :
    Triple pre (Prog.get : Prog σ ε σ) post failed := holds

theorem triple_lift (result : Except ε α) : Triple pre (Prog.lift result : Prog σ ε α) (fun _ => pre) pre := by
  intro s start
  cases result with
  | ok value => exact start
  | error error => exact start

theorem triple_bind (mid : α → σ → Prop) {next : α → Prog σ ε β} {post : β → σ → Prop}
    (first : Triple pre prog mid failed) (later : ∀ value, Triple (mid value) (next value) post failed) :
    Triple pre (prog >>= next) post failed := by
  intro s start
  have reached := first s start
  change match Prog.bind prog next s with
    | (.ok value, s) => post value s
    | (.error _, s) => failed s
  unfold Prog.bind
  cases ran : prog s with
  | mk outcome s' =>
    rw [ran] at reached
    cases outcome with
    | ok value => exact later value s' reached
    | error error => exact reached

theorem triple_weaken (holds : Triple pre prog post failed) (start : ∀ s, pre' s → pre s)
    (done : ∀ value s, post value s → post' value s) (lost : ∀ s, failed s → failed' s) :
    Triple pre' prog post' failed' := by
  intro s given
  have reached := holds s (start s given)
  cases ran : prog s with
  | mk outcome s' =>
    rw [ran] at reached
    cases outcome with
    | ok value => exact done value s' reached
    | error error => exact lost s' reached

theorem triple_strengthen (holds : Triple pre prog post failed) (start : ∀ s, pre' s → pre s) :
    Triple pre' prog post failed :=
  triple_weaken holds start (fun _ _ reached => reached) (fun _ reached => reached)

/-- A fact that does not speak of the state may be taken out of the precondition. -/
theorem triple_given {fact : Prop} (holds : fact → Triple pre prog post failed) :
    Triple (fun s => fact ∧ pre s) prog post failed := by
  intro s given
  exact holds given.1 s given.2

/-- A fact that follows from the precondition but does not speak of the state. -/
theorem triple_having {fact : Prop} (known : ∀ s, pre s → fact) (holds : fact → Triple pre prog post failed) :
    Triple pre prog post failed := by
  intro s given
  exact holds (known s given) s given

theorem triple_exists {ι : Type} {pre : ι → σ → Prop} (holds : ∀ i, Triple (pre i) prog post failed) :
    Triple (fun s => ∃ i, pre i s) prog post failed := by
  rintro s ⟨i, given⟩
  exact holds i s given

/-- What a program leaves where it is run. -/
theorem Triple.run {s s' : σ} {outcome : Except ε α} (holds : Triple pre prog post failed) (given : pre s)
    (ran : prog s = (outcome, s')) : match outcome with
      | .ok value => post value s'
      | .error _ => failed s' := by
  have reached := holds s given
  rw [ran] at reached
  cases outcome with
  | ok value => exact reached
  | error error => exact reached

end Rules

/-- A program that answers has answered at each of its steps. -/
theorem answered_bind {prog : Prog σ ε α} {next : α → Prog σ ε β} {s s' : σ} {value : β}
    (answered : (prog >>= next) s = (.ok value, s')) :
    ∃ first mid, prog s = (.ok first, mid) ∧ next first mid = (.ok value, s') := by
  change Prog.bind prog next s = _ at answered
  unfold Prog.bind at answered
  cases ran : prog s with
  | mk outcome mid =>
    rw [ran] at answered
    cases outcome with
    | ok first => exact ⟨first, mid, rfl, answered⟩
    | error error => cases answered

/-- A program whose first step answers goes on from there. -/
theorem run_bind {prog : Prog σ ε α} {next : α → Prog σ ε β} {s s' : σ} {value : α} (ran : prog s = (.ok value, s')) :
    (prog >>= next) s = next value s' := by
  change Prog.bind prog next s = _
  rw [Prog.bind, ran]

theorem answered_lift {result : Except ε α} {s s' : σ} {value : α} (answered : Prog.lift result s = (.ok value, s')) :
    result = .ok value ∧ s' = s := by
  obtain ⟨rfl, rfl⟩ := Prod.mk.inj answered
  exact ⟨rfl, rfl⟩

/-- A program whose first step fails fails there. -/
theorem fail_bind {prog : Prog σ ε α} {next : α → Prog σ ε β} {s s' : σ} {error : ε} (ran : prog s = (.error error, s')) :
    (prog >>= next) s = (.error error, s') := by
  change Prog.bind prog next s = _
  rw [Prog.bind, ran]

/-! ### What a program leaves, whether it answers or fails -/

/-- Run from `s`, the program leaves an outcome and a state with `post`. -/
def Leaves (prog : Prog σ ε α) (s : σ) (post : Except ε α → σ → Prop) : Prop := post (prog s).1 (prog s).2

theorem leaves_weaken {prog : Prog σ ε α} {s : σ} {post post' : Except ε α → σ → Prop} (holds : Leaves prog s post)
    (weaker : ∀ outcome s', post outcome s' → post' outcome s') : Leaves prog s post' :=
  weaker _ _ holds

theorem leaves_pure {value : α} {s : σ} {post : Except ε α → σ → Prop} (holds : post (.ok value) s) :
    Leaves (Pure.pure value : Prog σ ε α) s post := holds

theorem leaves_fail {error : ε} {s : σ} {post : Except ε α → σ → Prop} (holds : post (.error error) s) :
    Leaves (Prog.fail error : Prog σ ε α) s post := holds

theorem leaves_bind {prog : Prog σ ε α} {next : α → Prog σ ε β} {s : σ} {mid : Except ε α → σ → Prop}
    {post : Except ε β → σ → Prop} (first : Leaves prog s mid)
    (failed : ∀ error s', mid (.error error) s' → post (.error error) s')
    (later : ∀ value s', mid (.ok value) s' → Leaves (next value) s' post) : Leaves (prog >>= next) s post := by
  unfold Leaves at first ⊢
  change post (Prog.bind prog next s).1 (Prog.bind prog next s).2
  unfold Prog.bind
  cases ran : prog s with
  | mk outcome s' =>
    rw [ran] at first
    cases outcome with
    | ok value => exact later value s' first
    | error error => exact failed error s' first

theorem leaves_lift_bind {result : Except ε α} {next : α → Prog σ ε β} {s : σ} {post : Except ε β → σ → Prop}
    (failed : ∀ error, result = .error error → post (.error error) s)
    (later : ∀ value, result = .ok value → Leaves (next value) s post) : Leaves (Prog.lift result >>= next) s post := by
  cases result with
  | ok value => exact later value rfl
  | error error => exact failed error rfl

/-! ### Programs whose state counts the calls they make -/

section Reads

variable {still : Nat → Prop} {prog : Prog Nat ε α} {post post' : α → Prop}

/-- Calls are only ever added, and if the world holds still at each call of the program, its answer has `post`. -/
def Reads (still : Nat → Prop) (prog : Prog Nat ε α) (post : α → Prop) : Prop :=
  ∀ n value n', prog n = (.ok value, n') → n ≤ n' ∧ ((∀ k, n ≤ k → k < n' → still k) → post value)

theorem reads_pure {value : α} (holds : post value) : Reads still (Pure.pure value : Prog Nat ε α) post := by
  intro n value' n' answered
  cases answered
  exact ⟨le_rfl, fun _ => holds⟩

theorem reads_fail (error : ε) : Reads still (Prog.fail error : Prog Nat ε α) post := by
  intro n value n' answered
  cases answered

theorem reads_bind {next : α → Prog Nat ε β} {post : β → Prop} (mid : α → Prop) (first : Reads still prog mid)
    (later : ∀ value, Reads still (next value) (fun result => mid value → post result)) :
    Reads still (prog >>= next) post := by
  intro n result n' answered
  obtain ⟨value, m, ran, rest⟩ := answered_bind answered
  obtain ⟨before, known⟩ := first n value m ran
  obtain ⟨after, concluded⟩ := later value m result n' rest
  refine ⟨before.trans after, fun steady => ?_⟩
  exact concluded (fun k low high => steady k (before.trans low) high)
    (known (fun k low high => steady k low (lt_of_lt_of_le high after)))

theorem reads_weaken (reads : Reads still prog post) (weaker : ∀ value, post value → post' value) :
    Reads still prog post' := by
  intro n value n' answered
  obtain ⟨order, known⟩ := reads n value n' answered
  exact ⟨order, fun steady => weaker value (known steady)⟩

/-- One call, answered from the world as it finds it. -/
theorem reads_call {answer : Nat → Except ε α} (holds : ∀ k value, still k → answer k = .ok value → post value) :
    Reads still (fun n => (answer n, n + 1)) post := by
  intro n value n' answered
  obtain ⟨result, rfl⟩ := Prod.mk.inj answered
  exact ⟨Nat.le_succ n, fun steady => holds n value (steady n le_rfl (Nat.lt_succ_self n)) result⟩

end Reads

end BtcPolicy.Programs
