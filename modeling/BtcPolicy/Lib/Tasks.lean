import BtcPolicy.Lib.Programs
import BtcPolicy.Lib.Runs

/-! One task of a machine that other tasks share. Between any two of its steps the others take any number of theirs,
and whatever the task is shown from outside may be anything. A program of the task is judged by what it did, by what
it was shown and by what it gave out. -/

namespace BtcPolicy.Tasks
open Runs Programs

variable {σ α ρ κ ω ε β γ : Type}

/-- What a task does not decide: the steps the others take before its `n`th moment, and what it is shown then. -/
structure Surroundings (α κ : Type) (foreign : α → Prop) where
  others : Nat → List α
  theirs : ∀ n, ∀ a ∈ others n, foreign a
  view : Nat → κ

/-- How far the machine and the task have come: the run, and the moments that have passed. -/
structure Point (α : Type) where
  run : List α
  moment : Nat

instance : Preorder (Point α) where
  le p q := p.run <+: q.run ∧ p.moment ≤ q.moment
  le_refl p := ⟨List.prefix_rfl, le_rfl⟩
  le_trans _ _ _ first second := ⟨first.1.trans second.1, first.2.trans second.2⟩

/-- The point after one step more. -/
def Point.took (p : Point α) (a : α) : Point α := ⟨p.run ++ [a], p.moment + 1⟩

theorem Point.le_took (p : Point α) (a : α) : p ≤ p.took a := ⟨List.prefix_append _ _, Nat.le_succ _⟩

/-- The machine as the task shares it: the run so far, the state it leads to, the moments that have passed and what
the task has given out. -/
structure Shared (step : σ → α → σ × ρ) (start : σ) (ω : Type) where
  run : List α
  world : σ
  reached : exec step start run = world
  moment : Nat
  emitted : List ω

namespace Surroundings

variable {foreign : α → Prop}

/-- While the task holds a lock, the others take only the steps that do without it. -/
def within (env : Surroundings α κ foreign) (free : α → Bool) : Surroundings α κ foreign :=
  { env with
    others := fun n => (env.others n).filter free
    theirs := fun n a member => env.theirs n a (List.mem_of_mem_filter member) }

/-- Every step of the others is `ok`. -/
def Meets (env : Surroundings α κ foreign) (ok : α → Prop) : Prop := ∀ n, ∀ a ∈ env.others n, ok a

theorem Meets.weaken {env : Surroundings α κ foreign} {ok ok' : α → Prop} (meets : env.Meets ok)
    (more : ∀ a, ok a → ok' a) : env.Meets ok' :=
  fun n a member => more a (meets n a member)

theorem Meets.within {env : Surroundings α κ foreign} {ok : α → Prop} (meets : env.Meets ok) (free : α → Bool) :
    (env.within free).Meets (fun a => ok a ∧ free a = true) := by
  intro n a member
  exact ⟨meets n a (List.mem_of_mem_filter member), (List.mem_filter.mp member).2⟩

end Surroundings

variable {step : σ → α → σ × ρ} {start : σ} {foreign : α → Prop}

namespace Shared

def initial (step : σ → α → σ × ρ) (start : σ) (ω : Type) : Shared step start ω := ⟨[], start, rfl, 0, []⟩

/-- The others take their turn. -/
def turned (env : Surroundings α κ foreign) (s : Shared step start ω) : Shared step start ω :=
  { run := s.run ++ env.others s.moment
    world := exec step s.world (env.others s.moment)
    reached := by rw [exec_append, s.reached]
    moment := s.moment + 1
    emitted := s.emitted }

/-- The task takes a step. -/
def acted (a : α) (s : Shared step start ω) : Shared step start ω :=
  { run := s.run ++ [a]
    world := (step s.world a).1
    reached := by rw [exec_snoc, s.reached]
    moment := s.moment
    emitted := s.emitted }

def given (e : ω) (s : Shared step start ω) : Shared step start ω :=
  { s with emitted := s.emitted ++ [e] }

def point (s : Shared step start ω) : Point α := ⟨s.run, s.moment⟩

end Shared

/-- A program of the task. -/
abbrev Task (step : σ → α → σ × ρ) (start : σ) (ω ε β : Type) := Prog (Shared step start ω) ε β

section Primitives

variable (env : Surroundings α κ foreign)

/-- What the task is shown at this moment. -/
def look : Task step start ω ε κ := fun s => (.ok (env.view s.moment), s.turned env)

/-- A call outside, which may fail. -/
def ask (call : κ → Except ε β) : Task step start ω ε β := fun s => (call (env.view s.moment), s.turned env)

/-- A look at the machine. -/
def read (f : σ → β) : Task step start ω ε β := fun s => (.ok (f (s.turned env).world), s.turned env)

/-- One step of the machine, with what it tells the task. -/
def act (a : κ → α) (answer : κ → σ → β) : Task step start ω ε β := fun s =>
  (.ok (answer (env.view s.moment) (s.turned env).world), (s.turned env).acted (a (env.view s.moment)))

/-- What the task gives out is named after the point it leaves at. -/
def emit (e : Point α → ω) : Task step start ω ε Unit := fun s => (.ok (), s.given (e s.point))

/-- A failure is put aside. -/
def attempt (prog : Task step start ω ε β) : Task step start ω ε (Except ε β) := fun s =>
  (.ok (prog s).1, (prog s).2)

end Primitives

/-! ### What has happened -/

/-- From `p` to `q` the machine has gone on by steps that are all `ok`. -/
structure Follows (ok : α → Prop) (p q : Point α) : Prop where
  run : ∃ ops, q.run = p.run ++ ops ∧ ∀ a ∈ ops, ok a
  moment : p.moment ≤ q.moment

/-- `t` comes after `s` by steps that are `ok`, with nothing given out. -/
structure Quiet (ok : α → Prop) (s t : Shared step start ω) : Prop extends Follows ok s.point t.point where
  silent : t.emitted = s.emitted

/-- As `Quiet`, and whatever has been given out meets `sound`. -/
structure Adds (ok : α → Prop) (sound : Shared step start ω → ω → Prop) (s t : Shared step start ω) : Prop
    extends Follows ok s.point t.point where
  given : ∃ new, t.emitted = s.emitted ++ new ∧ ∀ e ∈ new, sound t e

/-- At some point from `s` to `t` there was `fact`. -/
def Since (ok : α → Prop) (s t : Shared step start ω) (fact : Point α → Prop) : Prop :=
  ∃ p, Follows ok s.point p ∧ Follows ok p t.point ∧ fact p

section Order

variable {ok : α → Prop} {sound : Shared step start ω → ω → Prop} {p q r : Point α} {s t u : Shared step start ω}

theorem Follows.refl (p : Point α) : Follows ok p p := ⟨⟨[], by simp⟩, le_rfl⟩

theorem Quiet.refl (s : Shared step start ω) : Quiet ok s s := ⟨Follows.refl s.point, rfl⟩

theorem Follows.trans (first : Follows ok p q) (second : Follows ok q r) : Follows ok p r := by
  obtain ⟨before, ran, meets⟩ := first.run
  obtain ⟨after, later, meets'⟩ := second.run
  refine ⟨⟨before ++ after, by rw [later, ran, List.append_assoc], ?_⟩, first.moment.trans second.moment⟩
  intro a member
  exact (List.mem_append.mp member).elim (meets a) (meets' a)

theorem Quiet.trans (first : Quiet ok s t) (second : Quiet ok t u) : Quiet ok s u :=
  ⟨first.toFollows.trans second.toFollows, second.silent.trans first.silent⟩

theorem Follows.le (follows : Follows ok p q) : p ≤ q := by
  obtain ⟨ops, ran, _⟩ := follows.run
  exact ⟨⟨ops, ran.symm⟩, follows.moment⟩

theorem Follows.weaken {ok' : α → Prop} (follows : Follows ok p q) (more : ∀ a, ok a → ok' a) : Follows ok' p q := by
  obtain ⟨ops, ran, meets⟩ := follows.run
  exact ⟨⟨ops, ran, fun a member => more a (meets a member)⟩, follows.moment⟩

theorem Quiet.weaken {ok' : α → Prop} (quiet : Quiet ok s t) (more : ∀ a, ok a → ok' a) : Quiet ok' s t :=
  ⟨quiet.toFollows.weaken more, quiet.silent⟩

/-- One step more. -/
theorem Follows.took (p : Point α) {a : α} (allowed : ok a) : Follows ok p (p.took a) :=
  ⟨⟨[a], rfl, by simpa using allowed⟩, Nat.le_succ _⟩

theorem Follows.and {ok' : α → Prop} (follows : Follows ok p q) (follows' : Follows ok' p q) :
    Follows (fun a => ok a ∧ ok' a) p q := by
  obtain ⟨ops, ran, meets⟩ := follows.run
  obtain ⟨ops', ran', meets'⟩ := follows'.run
  have same : ops = ops' := List.append_cancel_left (ran.symm.trans ran')
  exact ⟨⟨ops, ran, fun a member => ⟨meets a member, meets' a (same ▸ member)⟩⟩, follows.moment⟩

/-- A point on the way divides the way. -/
theorem Follows.divide (follows : Follows ok p r) (low : p ≤ q) (high : q ≤ r) : Follows ok p q ∧ Follows ok q r := by
  obtain ⟨ops, ran, meets⟩ := follows.run
  obtain ⟨before, reached⟩ := low.1
  obtain ⟨after, rest⟩ := high.1
  have whole : ops = before ++ after := by
    have inside : p.run ++ ops = p.run ++ (before ++ after) := by rw [← ran, ← rest, ← reached, List.append_assoc]
    exact List.append_cancel_left inside
  refine ⟨⟨⟨before, reached.symm, fun a member => meets a ?_⟩, low.2⟩,
    ⟨⟨after, rest.symm, fun a member => meets a ?_⟩, high.2⟩⟩
  · rw [whole]
    exact List.mem_append_left _ member
  · rw [whole]
    exact List.mem_append_right _ member

/-- What every step keeps is kept from `p` to `q`. -/
theorem Follows.invariant (step : σ → α → σ × ρ) (start : σ) (follows : Follows ok p q) (inv : σ → Prop)
    (keep : ∀ s a, ok a → inv s → inv (step s a).1) (holds : inv (exec step start p.run)) :
    inv (exec step start q.run) := by
  obtain ⟨ops, ran, meets⟩ := follows.run
  rw [ran, exec_append]
  exact exec_invariant_of step ok inv keep _ holds ops meets

theorem Quiet.adds (quiet : Quiet ok s t) : Adds ok sound s t :=
  ⟨quiet.toFollows, [], by simp [quiet.silent]⟩

/-- Facts about what was given out last while the task goes on. -/
def Lasting (ok : α → Prop) (sound : Shared step start ω → ω → Prop) : Prop :=
  ∀ t u e, Follows ok t.point u.point → sound t e → sound u e

theorem Adds.trans (lasting : Lasting ok sound) (first : Adds ok sound s t) (second : Adds ok sound t u) :
    Adds ok sound s u := by
  obtain ⟨before, out, each⟩ := first.given
  obtain ⟨after, out', each'⟩ := second.given
  refine ⟨first.toFollows.trans second.toFollows, before ++ after, by rw [out', out, List.append_assoc], ?_⟩
  intro e member
  rcases List.mem_append.mp member with old | new
  · exact lasting t u e second.toFollows (each e old)
  · exact each' e new

theorem Adds.weaken {ok' : α → Prop} {sound' : Shared step start ω → ω → Prop} (adds : Adds ok sound s t)
    (more : ∀ a, ok a → ok' a) (sounder : ∀ e, sound t e → sound' t e) : Adds ok' sound' s t := by
  obtain ⟨new, out, each⟩ := adds.given
  exact ⟨adds.toFollows.weaken more, new, out, fun e member => sounder e (each e member)⟩

end Order

/-! ### Programs -/

/-- From `s` the program gives nothing out, and an answer comes with `post`. -/
def Answers (ok : α → Prop) (prog : Task step start ω ε β) (s : Shared step start ω)
    (post : β → Shared step start ω → Prop) : Prop :=
  Leaves prog s (fun outcome t => Quiet ok s t ∧ ∀ value, outcome = .ok value → post value t)

/-- From `s` whatever the program gives out meets `sound`, and an answer comes with `post`. -/
def Emits (ok : α → Prop) (sound : Shared step start ω → ω → Prop) (prog : Task step start ω ε β)
    (s : Shared step start ω) (post : β → Shared step start ω → Prop) : Prop :=
  Leaves prog s (fun outcome t => Adds ok sound s t ∧ ∀ value, outcome = .ok value → post value t)

section Rules

variable {ok : α → Prop} {sound : Shared step start ω → ω → Prop} {s : Shared step start ω}

theorem answers_pure {value : β} {post : β → Shared step start ω → Prop} (holds : post value s) :
    Answers ok (pure value : Task step start ω ε β) s post := by
  refine leaves_pure ⟨Quiet.refl s, ?_⟩
  intro value' same
  cases same
  exact holds

theorem answers_fail {error : ε} {post : β → Shared step start ω → Prop} :
    Answers ok (Prog.fail error : Task step start ω ε β) s post := by
  refine leaves_fail ⟨Quiet.refl s, ?_⟩
  intro value same
  cases same

theorem answers_lift {result : Except ε β} {post : β → Shared step start ω → Prop}
    (holds : ∀ value, result = .ok value → post value s) :
    Answers ok (Prog.lift result : Task step start ω ε β) s post :=
  ⟨Quiet.refl s, holds⟩

theorem answers_weaken {prog : Task step start ω ε β} {post post' : β → Shared step start ω → Prop}
    (holds : Answers ok prog s post) (weaker : ∀ value t, Quiet ok s t → post value t → post' value t) :
    Answers ok prog s post' :=
  leaves_weaken holds (fun _ t both => ⟨both.1, fun value same => weaker value t both.1 (both.2 value same)⟩)

theorem answers_bind {prog : Task step start ω ε β} {next : β → Task step start ω ε γ}
    {post : γ → Shared step start ω → Prop} (mid : β → Shared step start ω → Prop) (first : Answers ok prog s mid)
    (later : ∀ value t, Quiet ok s t → mid value t → Answers ok (next value) t post) :
    Answers ok (prog >>= next) s post := by
  apply leaves_bind first
  · intro error t both
    refine ⟨both.1, ?_⟩
    intro value same
    cases same
  · intro value t both
    apply leaves_weaken (later value t both.1 (both.2 value rfl))
    intro outcome u rest
    exact ⟨both.1.trans rest.1, rest.2⟩

theorem answers_lift_bind {result : Except ε β} {next : β → Task step start ω ε γ}
    {post : γ → Shared step start ω → Prop} (later : ∀ value, result = .ok value → Answers ok (next value) s post) :
    Answers ok (Prog.lift result >>= next) s post := by
  cases result with
  | ok value => exact later value rfl
  | error error => exact answers_fail

theorem answers_attempt {prog : Task step start ω ε β} {post : β → Shared step start ω → Prop}
    (holds : Answers ok prog s post) :
    Answers ok (attempt prog) s (fun (outcome : Except ε β) t => ∀ value, outcome = .ok value → post value t) := by
  refine ⟨holds.1, ?_⟩
  intro outcome same value answered
  cases same
  exact holds.2 value answered

/-- The steps of the program are fewer than those allowed around it. -/
theorem answers_relax {ok' : α → Prop} {prog : Task step start ω ε β} {post : β → Shared step start ω → Prop}
    (holds : Answers ok prog s post) (more : ∀ a, ok a → ok' a) :
    Answers ok' prog s (fun value t => Quiet ok s t ∧ post value t) :=
  leaves_weaken holds (fun _ _ both => ⟨both.1.weaken more, fun value same => ⟨both.1, both.2 value same⟩⟩)

theorem emits_of_answers {prog : Task step start ω ε β} {post : β → Shared step start ω → Prop}
    (holds : Answers ok prog s post) : Emits ok sound prog s post :=
  leaves_weaken holds (fun _ _ both => ⟨both.1.adds, both.2⟩)

theorem emits_bind {prog : Task step start ω ε β} {next : β → Task step start ω ε γ}
    {post : γ → Shared step start ω → Prop} (lasting : Lasting ok sound) (mid : β → Shared step start ω → Prop)
    (first : Emits ok sound prog s mid)
    (later : ∀ value t, Follows ok s.point t.point → mid value t → Emits ok sound (next value) t post) :
    Emits ok sound (prog >>= next) s post := by
  apply leaves_bind first
  · intro error t both
    refine ⟨both.1, ?_⟩
    intro value same
    cases same
  · intro value t both
    apply leaves_weaken (later value t both.1.toFollows (both.2 value rfl))
    intro outcome u rest
    exact ⟨both.1.trans lasting rest.1, rest.2⟩

/-- A quiet program in front of one that gives something out. -/
theorem emits_after {prog : Task step start ω ε β} {next : β → Task step start ω ε γ}
    {post : γ → Shared step start ω → Prop} (lasting : Lasting ok sound) (mid : β → Shared step start ω → Prop)
    (first : Answers ok prog s mid)
    (later : ∀ value t, Quiet ok s t → mid value t → Emits ok sound (next value) t post) :
    Emits ok sound (prog >>= next) s post := by
  apply leaves_bind first
  · intro error t both
    refine ⟨both.1.adds, ?_⟩
    intro value same
    cases same
  · intro value t both
    apply leaves_weaken (later value t both.1 (both.2 value rfl))
    intro outcome u rest
    exact ⟨both.1.adds.trans lasting rest.1, rest.2⟩

theorem emits_lift_bind {result : Except ε β} {next : β → Task step start ω ε γ}
    {post : γ → Shared step start ω → Prop}
    (later : ∀ value, result = .ok value → Emits ok sound (next value) s post) :
    Emits ok sound (Prog.lift result >>= next) s post := by
  cases result with
  | ok value => exact later value rfl
  | error error => exact emits_of_answers answers_fail

theorem emits_attempt {prog : Task step start ω ε β} {post : β → Shared step start ω → Prop}
    (holds : Emits ok sound prog s post) :
    Emits ok sound (attempt prog) s (fun (outcome : Except ε β) t => ∀ value, outcome = .ok value → post value t) := by
  refine ⟨holds.1, ?_⟩
  intro outcome same value answered
  cases same
  exact holds.2 value answered

theorem emits_relax {ok' : α → Prop} {prog : Task step start ω ε β} {post : β → Shared step start ω → Prop}
    (holds : Emits ok sound prog s post) (more : ∀ a, ok a → ok' a) : Emits ok' sound prog s post :=
  leaves_weaken holds (fun _ _ both => ⟨both.1.weaken more (fun _ holds => holds), both.2⟩)

theorem emits_emit {e : Point α → ω} {post : Unit → Shared step start ω → Prop}
    (holds : sound (s.given (e s.point)) (e s.point)) (after : post () (s.given (e s.point))) :
    Emits ok sound (emit e : Task step start ω ε Unit) s post := by
  refine ⟨⟨⟨⟨[], by simp [emit, Shared.given, Shared.point]⟩, le_rfl⟩, [e s.point], rfl, ?_⟩, ?_⟩
  · intro e' member
    rw [List.mem_singleton.mp member]
    exact holds
  · intro value same
    cases same
    exact after

section Steps

variable {env : Surroundings α κ foreign} (meets : env.Meets ok)
include meets

/-- The moment at which the others have had their turn. -/
theorem follows_turned : Follows ok s.point ⟨(s.turned env).run, s.moment⟩ :=
  ⟨⟨env.others s.moment, rfl, meets s.moment⟩, le_rfl⟩

theorem quiet_turned : Quiet ok s (s.turned env) := ⟨⟨⟨env.others s.moment, rfl, meets s.moment⟩, Nat.le_succ _⟩, rfl⟩

theorem since_turned {fact : Point α → Prop} (holds : fact ⟨(s.turned env).run, s.moment⟩) :
    Since ok s (s.turned env) fact :=
  ⟨⟨(s.turned env).run, s.moment⟩, follows_turned meets, ⟨⟨[], by simp [Shared.point]⟩, Nat.le_succ _⟩, holds⟩

theorem answers_look :
    Answers ok (look env : Task step start ω ε κ) s (fun value t => Since ok s t (fun p => env.view p.moment = value)) := by
  refine ⟨quiet_turned meets, ?_⟩
  intro value same
  cases same
  exact since_turned meets rfl

theorem answers_ask {call : κ → Except ε β} :
    Answers ok (ask env call : Task step start ω ε β) s
      (fun value t => Since ok s t (fun p => call (env.view p.moment) = .ok value)) := by
  refine ⟨quiet_turned meets, ?_⟩
  intro value same
  exact since_turned meets same

theorem answers_read {f : σ → β} :
    Answers ok (read env f : Task step start ω ε β) s (fun value t => value = f t.world) := by
  refine ⟨quiet_turned meets, ?_⟩
  intro value same
  cases same
  rfl

/-- The step of the task, and the point it is taken at. The others need not meet all that the step does. -/
theorem answers_act {ok' : α → Prop} (more : ∀ a, ok a → ok' a) {a : κ → α} {answer : κ → σ → β}
    (allowed : ∀ view, ok' (a view)) :
    Answers ok' (act env a answer : Task step start ω ε β) s (fun value t => ∃ p, Follows ok s.point p ∧
      t.point = p.took (a (env.view p.moment)) ∧
      value = answer (env.view p.moment) (exec step start p.run)) := by
  have turned := follows_turned (s := s) meets
  refine ⟨⟨(turned.weaken more).trans (.took _ (allowed _)), rfl⟩, ?_⟩
  intro value same
  cases same
  refine ⟨⟨(s.turned env).run, s.moment⟩, turned, rfl, ?_⟩
  rw [(s.turned env).reached]

end Steps

/-! ### Programs that give nothing out -/

/-- Wherever it is run the program gives nothing out and takes only steps that are `ok`. -/
def Silent (ok : α → Prop) (prog : Task step start ω ε β) : Prop := ∀ s, Answers ok prog s (fun _ _ => True)

theorem silent_of_answers {prog : Task step start ω ε β} {post : Shared step start ω → β → Shared step start ω → Prop}
    (each : ∀ s, Answers ok prog s (post s)) : Silent ok prog :=
  fun s => answers_weaken (each s) (fun _ _ _ _ => trivial)

theorem silent_pure (value : β) : Silent ok (pure value : Task step start ω ε β) := fun _ => answers_pure trivial

theorem silent_fail (error : ε) : Silent ok (Prog.fail error : Task step start ω ε β) := fun _ => answers_fail

theorem silent_bind {prog : Task step start ω ε β} {next : β → Task step start ω ε γ} (first : Silent ok prog)
    (later : ∀ value, Silent ok (next value)) : Silent ok (prog >>= next) :=
  fun s => answers_bind (fun _ _ => True) (first s) (fun value t _ _ => later value t)

theorem silent_attempt {prog : Task step start ω ε β} (silent : Silent ok prog) : Silent ok (attempt prog) :=
  fun s => answers_weaken (answers_attempt (silent s)) (fun _ _ _ _ => trivial)

section Steps

variable {env : Surroundings α κ foreign} (meets : env.Meets ok)
include meets

theorem silent_ask (call : κ → Except ε β) : Silent ok (ask env call : Task step start ω ε β) :=
  silent_of_answers (fun _ => answers_ask meets)

theorem silent_read (f : σ → β) : Silent ok (read env f : Task step start ω ε β) :=
  silent_of_answers (fun _ => answers_read meets)

theorem silent_act {a : κ → α} (answer : κ → σ → β) (allowed : ∀ view, ok (a view)) :
    Silent ok (act env a answer : Task step start ω ε β) :=
  silent_of_answers (fun _ => answers_act meets (fun _ already => already) allowed)

end Steps

end Rules

end BtcPolicy.Tasks
