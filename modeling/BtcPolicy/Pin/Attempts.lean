import BtcPolicy.Lib.RingBuffer
import BtcPolicy.Lib.Runs
import BtcPolicy.Pin
import Mathlib.Data.List.TakeWhile

/-! What the attempt budget is for: the list of the wrong attempts that count inside the window, and the horizon of a
lockout. The ring is one way to keep that list; over any run it answers as the list does. -/

namespace BtcPolicy.Pin
open Word RingBuffer Runs

/-- One call of the budget. -/
structure Attempt where
  verdict : PinVerdict
  now : Nat
  deriving DecidableEq, Repr

/-- The wrong attempts counted, oldest first, and when the lockout they tripped ends. -/
structure AttemptLog where
  times : List Nat
  lockout : Option Nat
  deriving DecidableEq, Repr

namespace AttemptLog

def empty : AttemptLog := ⟨[], none⟩

/-- A lockout that has ended leaves nothing behind. -/
def recover (log : AttemptLog) (now : Nat) : AttemptLog :=
  if log.lockout.any (fun horizon => decide (horizon ≤ now)) then empty else log

/-- Only the attempts newer than the window count. -/
def slide (config : PinBudgetConfig) (now : Nat) (log : AttemptLog) : AttemptLog :=
  { log with times := log.times.filter (fun t => decide (now - t < config.windowSecs)) }

/-- A locked node refuses everything. On an open one a wrong attempt is counted, and the last one it takes starts a
lockout that ends its own backoff and the lockout after it, or with the clock. -/
def charge (log : AttemptLog) (verdict : PinVerdict) (now : Nat) (config : PinBudgetConfig) :
    AttemptLog × ChargeOutcome :=
  let log := (log.recover now).slide config now
  if log.lockout.isSome then (log, ⟨true, 0, true⟩)
  else if verdict = .wrong then
    let backoff := config.backoffSchedule.getD (min log.times.length (config.backoffSchedule.length - 1)) 0
    if log.times.length + 1 = config.maxAttempts then
      (⟨log.times ++ [now], some (min (now + backoff + config.lockoutSecs) maxWord)⟩, ⟨true, backoff, true⟩)
    else (⟨log.times ++ [now], none⟩, ⟨true, backoff, false⟩)
  else (log, ⟨false, 0, false⟩)

def step (config : PinBudgetConfig) (log : AttemptLog) (attempt : Attempt) : AttemptLog × ChargeOutcome :=
  log.charge attempt.verdict attempt.now config

/-- What a log always is when the clock reads `now`: its times are in order and past, an open node has an attempt
left, and a horizon is a whole lockout after every time it holds, or the end of the clock. -/
structure Sound (config : PinBudgetConfig) (now : Nat) (log : AttemptLog) : Prop where
  sorted : log.times.Pairwise (· ≤ ·)
  past : ∀ t ∈ log.times, t ≤ now
  room : log.lockout = none → log.times.length < config.maxAttempts
  armed : log.lockout ≠ some 0
  served : ∀ horizon, log.lockout = some horizon → ∀ t ∈ log.times,
    horizon = maxWord ∨ t + config.lockoutSecs ≤ horizon

theorem sound_empty {config : PinBudgetConfig} (attempts : 0 < config.maxAttempts) (now : Nat) :
    Sound config now empty :=
  ⟨List.Pairwise.nil, nofun, fun _ => attempts, nofun, nofun⟩

namespace Sound

variable {config : PinBudgetConfig} {now : Nat} {log : AttemptLog}

theorem later (sound : Sound config now log) {next : Nat} (order : now ≤ next) : Sound config next log :=
  ⟨sound.sorted, fun t member => (sound.past t member).trans order, sound.room, sound.armed, sound.served⟩

theorem recover (sound : Sound config now log) (attempts : 0 < config.maxAttempts) :
    Sound config now (log.recover now) := by
  unfold AttemptLog.recover
  split_ifs
  · exact sound_empty attempts now
  · exact sound

theorem slide (sound : Sound config now log) : Sound config now (log.slide config now) where
  sorted := sound.sorted.sublist List.filter_sublist
  past t member := sound.past t (List.mem_of_mem_filter member)
  room isOpen := lt_of_le_of_lt (List.length_filter_le _ _) (sound.room isOpen)
  armed := sound.armed
  served horizon ends t member := sound.served horizon ends t (List.mem_of_mem_filter member)

theorem append (sound : Sound config now log) : (log.times ++ [now]).Pairwise (· ≤ ·) :=
  List.pairwise_append.mpr ⟨sound.sorted, List.pairwise_singleton _ _, fun t member other last => by
    rw [List.mem_singleton.mp last]
    exact sound.past t member⟩

theorem charge (sound : Sound config now log) (attempts : 0 < config.maxAttempts) (lockout : 0 < config.lockoutSecs)
    (verdict : PinVerdict) : Sound config now (log.charge verdict now config).1 := by
  have slid := (sound.recover attempts).slide
  unfold AttemptLog.charge
  generalize (log.recover now).slide config now = current at slid
  simp only
  by_cases locked : current.lockout.isSome = true
  · rw [if_pos locked]
    exact slid
  rw [if_neg locked]
  by_cases wrong : verdict = .wrong
  · rw [if_pos wrong]
    have past : ∀ t ∈ current.times ++ [now], t ≤ now := by
      intro t member
      rcases List.mem_append.mp member with old | new
      · exact slid.past t old
      · exact (List.mem_singleton.mp new).le
    by_cases last : current.times.length + 1 = config.maxAttempts
    · rw [if_pos last]
      refine ⟨slid.append, past, nofun, ?_, ?_⟩
      · intro zero
        have horizon := Option.some.inj zero
        simp only [maxWord] at horizon
        omega
      · intro horizon ends t member
        have order := past t member
        have ends := Option.some.inj ends
        omega
    · rw [if_neg last]
      refine ⟨slid.append, past, fun _ => ?_, nofun, nofun⟩
      have room := slid.room (by simpa using locked)
      rw [List.length_append, List.length_singleton]
      omega
  · rw [if_neg wrong]
    exact slid

end Sound

end AttemptLog

namespace AttemptBudget

def step (config : PinBudgetConfig) (budget : AttemptBudget) (attempt : Attempt) : AttemptBudget × ChargeOutcome :=
  budget.charge attempt.verdict attempt.now config

/-- The live attempts, oldest first. -/
def live (budget : AttemptBudget) : List Nat := view 0 budget.failTimes budget.failHead budget.fails

/-- The ring holds the log: it has one slot for each attempt, its head is one of them, what is live are the times of
the log, and the horizon is the log's, zero standing for none. -/
structure Represents (config : PinBudgetConfig) (budget : AttemptBudget) (log : AttemptLog) : Prop where
  slots : budget.failTimes.length = config.maxAttempts
  head : budget.failHead < config.maxAttempts
  times : budget.live = log.times
  horizon : budget.lockedUntil = log.lockout.getD 0

variable {config : PinBudgetConfig} {budget : AttemptBudget} {log : AttemptLog} {now : Nat}

theorem represents_new (attempts : 0 < config.maxAttempts) : Represents config (new config.maxAttempts) .empty :=
  ⟨List.length_replicate, attempts, rfl, rfl⟩

namespace Represents

theorem fails (represents : Represents config budget log) : budget.fails = log.times.length := by
  rw [← represents.times, live, view_length]

theorem recover (represents : Represents config budget log) (armed : log.lockout ≠ some 0) :
    Represents config (budget.recover now) (log.recover now) := by
  have horizon := represents.horizon
  unfold AttemptBudget.recover AttemptLog.recover
  cases lockout : log.lockout with
  | none =>
    rw [lockout] at horizon
    rw [if_neg (fun expired => expired.1 horizon), if_neg (by simp)]
    exact represents
  | some ends =>
    rw [lockout, Option.getD_some] at horizon
    have positive : ends ≠ 0 := fun zero => armed (lockout.trans (congrArg some zero))
    by_cases expired : ends ≤ now
    · rw [if_pos ⟨horizon ▸ positive, horizon ▸ expired⟩, if_pos (by simpa using expired)]
      exact ⟨represents.slots, lt_of_le_of_lt (Nat.zero_le _) represents.head, rfl, rfl⟩
    · rw [if_neg (fun both => expired (horizon ▸ both.2)), if_neg (by simpa using expired)]
      exact represents

end Represents

/-- The loop drops the front of the live attempts while it is outside the window, and writes no slot. -/
theorem slide_live (slots : budget.failTimes.length = config.maxAttempts)
    (head : budget.failHead < config.maxAttempts) {rounds : Nat} (enough : budget.fails = rounds) :
    (slide config now rounds budget).live = budget.live.dropWhile (fun t => decide (config.windowSecs ≤ now - t)) ∧
      (slide config now rounds budget).failTimes = budget.failTimes ∧
      (slide config now rounds budget).failHead < config.maxAttempts ∧
      (slide config now rounds budget).lockedUntil = budget.lockedUntil ∧
      slideChecked config now rounds budget = some (slide config now rounds budget) := by
  induction rounds generalizing budget with
  | zero =>
    refine ⟨?_, rfl, head, rfl, rfl⟩
    rw [slide, live, enough, view_zero, List.dropWhile_nil]
  | succ rounds ih =>
    have front : budget.live = budget.failTimes.getD budget.failHead 0 ::
        view 0 budget.failTimes ((budget.failHead + 1) % config.maxAttempts) rounds := by
      rw [live, enough, view_advance, slots, Nat.mod_eq_of_lt head]
    have read : budget.failTimes[budget.failHead]? = some (budget.failTimes.getD budget.failHead 0) := by
      rw [List.getD_eq_getElem?_getD, List.getElem?_eq_getElem (slots ▸ head), Option.getD_some]
    have some : budget.fails ≠ 0 := by omega
    unfold slide slideChecked
    rw [if_neg some, read, Option.bind_some, front]
    by_cases old : config.windowSecs ≤ now - budget.failTimes.getD budget.failHead 0
    · rw [if_pos ⟨some, old⟩, if_pos old, List.dropWhile_cons, if_pos (decide_eq_true old)]
      have size : 0 < config.maxAttempts := lt_of_le_of_lt (Nat.zero_le _) head
      have rest := @ih { budget with
        failHead := (budget.failHead + 1) % config.maxAttempts
        fails := budget.fails - 1 } slots (Nat.mod_lt _ size) (by simp only; omega)
      have left : budget.fails - 1 = rounds := by omega
      simpa only [live, left] using rest
    · rw [if_neg (fun both => old both.2), if_neg old, List.dropWhile_cons, if_neg (by simpa using old), ← front]
      exact ⟨rfl, rfl, head, rfl, rfl⟩

/-- The times a window drops are the oldest. -/
theorem window_filter {times : List Nat} (sorted : times.Pairwise (· ≤ ·)) :
    times.dropWhile (fun t => decide (config.windowSecs ≤ now - t)) =
      times.filter (fun t => decide (now - t < config.windowSecs)) := by
  have front : times.Pairwise (fun a b => decide (config.windowSecs ≤ now - b) = true →
      decide (config.windowSecs ≤ now - a) = true) := by
    refine sorted.imp (fun order old => ?_)
    simp only [decide_eq_true_eq] at old ⊢
    omega
  rw [dropWhile_eq_filter front]
  congr 1
  funext t
  rw [← decide_not]
  exact decide_eq_decide.mpr not_le

theorem Represents.slide (represents : Represents config budget log) (sorted : log.times.Pairwise (· ≤ ·)) :
    Represents config (slide config now budget.fails budget) (log.slide config now) ∧
      slideChecked config now budget.fails budget = some (AttemptBudget.slide config now budget.fails budget) := by
  obtain ⟨live, slots, head, horizon, checked⟩ := @slide_live config budget now represents.slots represents.head _ rfl
  refine ⟨⟨slots ▸ represents.slots, head, ?_, horizon.trans represents.horizon⟩, checked⟩
  rw [live, represents.times, window_filter sorted]
  rfl

end AttemptBudget

/-- What the startup checks leave of a configuration. -/
structure PinBudgetConfig.Valid (config : PinBudgetConfig) : Prop where
  attempts : 0 < config.maxAttempts
  ceiling : config.maxAttempts ≤ AttemptBudget.maxAttemptsCeiling
  schedule : config.backoffSchedule ≠ []
  window : 0 < config.windowSecs
  lockout : 0 < config.lockoutSecs

/-- A configuration that passes `validate` and gets its ring is valid, and the ring it gets is empty. -/
theorem valid_of_startup {config : PinBudgetConfig} {budget : AttemptBudget} (checked : config.validate = .ok ())
    (allocated : AttemptBudget.allocate config.maxAttempts = .ok budget) :
    config.Valid ∧ budget = AttemptBudget.new config.maxAttempts := by
  unfold PinBudgetConfig.validate at checked
  unfold AttemptBudget.allocate at allocated
  split_ifs at checked allocated with attempts schedule window lockout ceiling
  have empty : config.backoffSchedule ≠ [] := fun nil => schedule (by rw [nil]; rfl)
  exact ⟨⟨by omega, by omega, empty, by omega, by omega⟩, (Except.ok.inj allocated).symm⟩

namespace AttemptBudget

variable {config : PinBudgetConfig} {budget : AttemptBudget} {log : AttemptLog} {now : Nat}

/-- One call of the ring is one call of the log, with the same answer, and no index of it is out of range. -/
theorem Represents.charge (valid : config.Valid) (represents : Represents config budget log)
    (sound : log.Sound config now) (verdict : PinVerdict) :
    (budget.charge verdict now config).2 = (log.charge verdict now config).2 ∧
      Represents config (budget.charge verdict now config).1 (log.charge verdict now config).1 ∧
      budget.chargeChecked verdict now config = some (budget.charge verdict now config) := by
  have recovered : Represents config (budget.recover now) (log.recover now) := represents.recover sound.armed
  have settled := sound.recover valid.attempts
  obtain ⟨slid, checked⟩ := recovered.slide settled.sorted
  have current := settled.slide
  unfold AttemptBudget.charge AttemptLog.charge chargeChecked
  simp only
  rw [checked, Option.bind_some]
  generalize AttemptBudget.slide config now (budget.recover now).fails (budget.recover now) = ring at slid ⊢
  generalize (log.recover now).slide config now = kept at slid current ⊢
  have schedule := List.length_pos_iff.mpr valid.schedule
  have index : min ring.fails (config.backoffSchedule.length - 1) < config.backoffSchedule.length := by omega
  have size := slid.slots
  have tail : (ring.failHead + ring.fails) % config.maxAttempts < ring.failTimes.length := by
    rw [size]
    exact Nat.mod_lt _ valid.attempts
  have scheduled (k : Nat) : config.backoffSchedule[min k (config.backoffSchedule.length - 1)]? =
      some (config.backoffSchedule.getD (min k (config.backoffSchedule.length - 1)) 0) := by
    rw [List.getD_eq_getElem?_getD, List.getElem?_eq_getElem (by omega), Option.getD_some]
  have fails := slid.fails
  obtain ⟨prior, read, unwritten⟩ : ∃ prior,
      ring.failTimes[(ring.failHead + ring.fails) % config.maxAttempts]? = some prior ∧
        ring.failTimes.set ((ring.failHead + ring.fails) % config.maxAttempts) prior = ring.failTimes :=
    ⟨_, List.getElem?_eq_getElem tail, List.set_getElem_self tail⟩
  rw [scheduled, Option.bind_some, read, Option.map_some]
  rw [fails] at unwritten ⊢
  generalize config.backoffSchedule.getD (min kept.times.length (config.backoffSchedule.length - 1)) 0 = backoff
  have whole : AttemptBudget.mk ring.failTimes ring.failHead kept.times.length ring.lockedUntil = ring := by
    rw [← fails]
  have horizon := slid.horizon
  cases lockout : kept.lockout with
  | some ends =>
    have positive : ends ≠ 0 := fun zero => current.armed (lockout.trans (congrArg some zero))
    rw [lockout, Option.getD_some] at horizon
    have locked : ring.lockedUntil ≠ 0 := horizon ▸ positive
    simp [locked, unwritten, whole, slid]
  | none =>
    rw [lockout, Option.getD_none] at horizon
    have room := current.room lockout
    by_cases wrong : verdict = .wrong
    · have grown : min (satAdd kept.times.length 1) config.maxAttempts = kept.times.length + 1 := by
        have ceiling := valid.ceiling
        simp only [satAdd, maxWord, maxAttemptsCeiling] at ceiling ⊢
        omega
      -- The slot past the newest live attempt takes the new time, whatever the horizon becomes.
      have pushed (ends : Nat) (log : AttemptLog) (times : log.times = kept.times ++ [now])
          (same : ends = log.lockout.getD 0) : Represents config ⟨ring.failTimes.set
            ((ring.failHead + kept.times.length) % config.maxAttempts) now, ring.failHead, kept.times.length + 1, ends⟩
          log := by
        refine ⟨?_, slid.head, ?_, same⟩
        · rw [List.length_set, size]
        · have push := view_push 0 ring.failTimes ring.failHead kept.times.length now (by omega)
          have before : view 0 ring.failTimes ring.failHead kept.times.length = kept.times := fails ▸ slid.times
          rw [size, before] at push
          exact push.trans times.symm
      by_cases last : kept.times.length + 1 = config.maxAttempts
      · have ends : satAdd (satAdd now backoff) config.lockoutSecs =
            min (now + backoff + config.lockoutSecs) maxWord := by
          unfold satAdd
          omega
        have positive : min (now + backoff + config.lockoutSecs) maxWord ≠ 0 := by
          have lockout := valid.lockout
          unfold maxWord
          omega
        simpa [horizon, wrong, grown, last, ends, positive] using pushed _ ⟨_, some _⟩ rfl rfl
      · simpa [horizon, wrong, grown, last] using pushed 0 ⟨_, none⟩ rfl rfl
    · rw [horizon] at whole
      simp [horizon, wrong, unwritten, whole, slid]

/-- A run of calls under a clock that never goes back keeps the ring on its log. -/
theorem represents_run (valid : config.Valid) {start finish : Nat} (represents : Represents config budget log)
    (sound : log.Sound config start) {attempts : List Attempt} (order : attempts.Pairwise (fun a b => a.now ≤ b.now))
    (after : ∀ a ∈ attempts, start ≤ a.now) (before : ∀ a ∈ attempts, a.now ≤ finish) (span : start ≤ finish) :
    Represents config (exec (step config) budget attempts) (exec (AttemptLog.step config) log attempts) ∧
      (exec (AttemptLog.step config) log attempts).Sound config finish := by
  induction attempts generalizing budget log start with
  | nil => exact ⟨represents, sound.later span⟩
  | cons a rest ih =>
    have settled := sound.later (after a List.mem_cons_self)
    obtain ⟨_, stepped, _⟩ := represents.charge valid settled a.verdict
    have kept := settled.charge valid.attempts valid.lockout a.verdict
    obtain ⟨first, later⟩ := List.pairwise_cons.mp order
    exact ih stepped kept later first (fun b member => before b (List.mem_cons_of_mem _ member))
      (before a List.mem_cons_self)

/-- Whether a call is a wrong attempt that is charged, and not refused for a lockout. -/
def counts (budget : AttemptBudget) (attempt : Attempt) : Bool :=
  decide (attempt.verdict = .wrong) && decide ((budget.recover attempt.now).lockedUntil = 0)

/-- When the charged attempts of a run were made. -/
def chargedTimes (config : PinBudgetConfig) (budget : AttemptBudget) : List Attempt → List Nat
  | [] => []
  | a :: rest => (if budget.counts a then [a.now] else []) ++ chargedTimes config (budget.step config a).1 rest

end AttemptBudget

/-- Any `maxAttempts + 1` consecutive entries reach over the shorter of the window and the lockout. -/
def Spans (config : PinBudgetConfig) (times : List Nat) : Prop :=
  ∀ (i first last : Nat), times[i]? = some first → times[i + config.maxAttempts]? = some last →
    min config.windowSecs config.lockoutSecs ≤ last - first

section Spacing

variable {config : PinBudgetConfig} {log : AttemptLog} {history : List Nat} {now : Nat}

/-- The log holds the newest part of the history, and what it holds no more is far back. -/
def Tally (config : PinBudgetConfig) (now : Nat) (log : AttemptLog) (history : List Nat) : Prop :=
  ∃ gone, history = gone ++ log.times ∧ ∀ t ∈ gone, min config.windowSecs config.lockoutSecs ≤ now - t

theorem Tally.later (tally : Tally config now log history) {next : Nat} (order : now ≤ next) :
    Tally config next log history := by
  obtain ⟨gone, whole, far⟩ := tally
  exact ⟨gone, whole, fun t member => (far t member).trans (Nat.sub_le_sub_right order t)⟩

/-- An attempt leaves the log a window after it was made, or when the lockout it served has ended. -/
theorem Tally.settle (tally : Tally config now log history) (sound : log.Sound config now) (ticking : now < maxWord) :
    Tally config now ((log.recover now).slide config now) history := by
  have recovered : Tally config now (log.recover now) history := by
    unfold AttemptLog.recover
    by_cases expired : log.lockout.any (fun horizon => decide (horizon ≤ now)) = true
    · obtain ⟨gone, whole, far⟩ := tally
      rw [if_pos expired]
      refine ⟨gone ++ log.times, by rw [whole]; exact (List.append_nil _).symm, ?_⟩
      intro t member
      obtain ⟨horizon, ends, past⟩ := (Option.any_eq_true _ _).mp expired
      rcases List.mem_append.mp member with old | fresh
      · exact far t old
      · have served := sound.served horizon ends t fresh
        have past := of_decide_eq_true past
        omega
    · rw [if_neg expired]
      exact tally
  obtain ⟨gone, whole, far⟩ := recovered
  have sorted : (log.recover now).times.Pairwise (· ≤ ·) := by
    unfold AttemptLog.recover
    split_ifs
    · exact List.Pairwise.nil
    · exact sound.sorted
  refine ⟨gone ++ (log.recover now).times.takeWhile (fun t => decide (config.windowSecs ≤ now - t)), ?_, ?_⟩
  · rw [AttemptLog.slide, ← AttemptBudget.window_filter sorted, List.append_assoc, List.takeWhile_append_dropWhile]
    exact whole
  · intro t member
    rcases List.mem_append.mp member with old | dropped
    · exact far t old
    · have window : config.windowSecs ≤ now - t := by simpa using List.mem_takeWhile_imp dropped
      omega

/-- One more attempt, behind a log with room for it. -/
theorem Spans.snoc (spans : Spans config history) (tally : Tally config now log history)
    (room : log.times.length < config.maxAttempts) : Spans config (history ++ [now]) := by
  obtain ⟨gone, whole, far⟩ := tally
  intro i first last start finish
  have bound := (List.getElem?_eq_some_iff.mp finish).1
  rw [List.length_append, List.length_singleton] at bound
  have early : i < history.length := by omega
  rw [List.getElem?_append_left early] at start
  by_cases inside : i + config.maxAttempts < history.length
  · rw [List.getElem?_append_left inside] at finish
    exact spans i first last start finish
  · have newest : i + config.maxAttempts = history.length := by omega
    rw [newest, List.getElem?_append_right le_rfl, Nat.sub_self] at finish
    cases finish
    have old : i < gone.length := by
      rw [whole, List.length_append] at newest
      omega
    rw [whole, List.getElem?_append_left old] at start
    exact far first (List.mem_of_getElem? start)

end Spacing

namespace AttemptBudget

variable {config : PinBudgetConfig} {budget : AttemptBudget} {log : AttemptLog} {now : Nat}

/-- A charged attempt is one its log appends. -/
theorem Represents.counted (represents : Represents config budget log) (sound : log.Sound config now)
    (verdict : PinVerdict) :
    (log.charge verdict now config).1.times = ((log.recover now).slide config now).times ++
        (if budget.counts ⟨verdict, now⟩ then [now] else []) ∧
      (budget.counts ⟨verdict, now⟩ = true → (log.recover now).lockout = none) := by
  have recovered : Represents config (budget.recover now) (log.recover now) := represents.recover sound.armed
  have horizon := recovered.horizon
  have armed : (log.recover now).lockout ≠ some 0 := by
    unfold AttemptLog.recover
    split_ifs
    · nofun
    · exact sound.armed
  unfold counts AttemptLog.charge
  cases lockout : (log.recover now).lockout with
  | some ends =>
    rw [lockout] at horizon armed
    have positive : ends ≠ 0 := fun zero => armed (congrArg some zero)
    simp [AttemptLog.slide, lockout, horizon, positive]
  | none =>
    rw [lockout] at horizon
    by_cases wrong : verdict = .wrong
    · simp only [AttemptLog.slide, lockout, horizon, wrong, Option.isSome_none, Bool.false_eq_true, if_false, if_true,
        Option.getD_none, decide_true, Bool.and_self, implies_true, and_true]
      split_ifs <;> rfl
    · simp [AttemptLog.slide, lockout, wrong]

/-- Over a run the charged attempts stay that far apart, as long as the clock has not reached its last second. -/
theorem spans_run (valid : config.Valid) {start : Nat} {history : List Nat} (represents : Represents config budget log)
    (sound : log.Sound config start) (tally : Tally config start log history) (spans : Spans config history)
    {attempts : List Attempt} (order : attempts.Pairwise (fun a b => a.now ≤ b.now))
    (after : ∀ a ∈ attempts, start ≤ a.now) (ticking : ∀ a ∈ attempts, a.now < maxWord) :
    Spans config (history ++ chargedTimes config budget attempts) := by
  induction attempts generalizing budget log start history with
  | nil => exact (List.append_nil history).symm ▸ spans
  | cons a rest ih =>
    have arrival := after a List.mem_cons_self
    have settled := sound.later arrival
    have tallied := (tally.later arrival).settle settled (ticking a List.mem_cons_self)
    obtain ⟨_, stepped, _⟩ := represents.charge valid settled a.verdict
    have kept := settled.charge valid.attempts valid.lockout a.verdict
    obtain ⟨appended, unlocked⟩ := represents.counted settled a.verdict
    obtain ⟨first, later⟩ := List.pairwise_cons.mp order
    rw [chargedTimes, ← List.append_assoc]
    refine ih stepped kept ?_ ?_ later first (fun b member => ticking b (List.mem_cons_of_mem _ member))
    · obtain ⟨gone, whole, far⟩ := tallied
      refine ⟨gone, ?_, far⟩
      rw [appended, ← List.append_assoc, ← whole]
    · by_cases counted : budget.counts a = true
      · have room := ((settled.recover valid.attempts).slide).room (unlocked counted)
        rw [if_pos counted]
        exact spans.snoc tallied room
      · rw [if_neg counted, List.append_nil]
        exact spans

/-- What one call does, against the log it stands for. -/
structure Behaves (config : PinBudgetConfig) (budget : AttemptBudget) (log : AttemptLog) (attempt : Attempt) : Prop where
  represents : Represents config budget log
  answers : (budget.step config attempt).2 = (log.step config attempt).2
  indexed : budget.chargeChecked attempt.verdict attempt.now config = some (budget.step config attempt)
  locked : attempt.now < budget.lockedUntil →
    (budget.step config attempt).2 = ⟨true, 0, true⟩ ∧
      (budget.step config attempt).1.lockedUntil = budget.lockedUntil ∧
      (budget.step config attempt).1.live =
        budget.live.filter (fun t => decide (attempt.now - t < config.windowSecs))
  enrolled : attempt.verdict ≠ .wrong →
    (budget.step config attempt).1 =
        slide config attempt.now (budget.recover attempt.now).fails (budget.recover attempt.now) ∧
      budget.step config attempt = budget.charge .normal attempt.now config ∧
      budget.step config attempt = budget.charge .duress attempt.now config

/-- An enrolled pin leaves the ring as recovery and the window have it. -/
theorem charge_correct (budget : AttemptBudget) (now : Nat) (config : PinBudgetConfig) {verdict : PinVerdict}
    (enrolled : verdict ≠ .wrong) :
    (budget.charge verdict now config).1 = slide config now (budget.recover now).fails (budget.recover now) := by
  unfold charge
  simp [enrolled]

/-- A locked node refuses, and only its window slides. -/
theorem charge_locked (sorted : budget.live.Pairwise (· ≤ ·)) (slots : budget.failTimes.length = config.maxAttempts)
    (head : budget.failHead < config.maxAttempts) (locked : now < budget.lockedUntil) (verdict : PinVerdict) :
    (budget.charge verdict now config).2 = ⟨true, 0, true⟩ ∧
      (budget.charge verdict now config).1.lockedUntil = budget.lockedUntil ∧
      (budget.charge verdict now config).1.live =
        budget.live.filter (fun t => decide (now - t < config.windowSecs)) := by
  have kept : budget.recover now = budget := if_neg (fun expired => absurd expired.2 (by omega))
  obtain ⟨live, _, _, horizon, _⟩ := @slide_live config budget now slots head _ rfl
  rw [window_filter sorted] at live
  unfold charge
  simp only [kept]
  generalize slide config now budget.fails budget = ring at live horizon ⊢
  have positive : ring.lockedUntil ≠ 0 := by omega
  have whole : AttemptBudget.mk ring.failTimes ring.failHead ring.fails ring.lockedUntil = ring := rfl
  simp [positive, ← horizon, whole, live]

theorem Represents.behaves (valid : config.Valid) (represents : Represents config budget log) (attempt : Attempt)
    (sound : log.Sound config attempt.now) : Behaves config budget log attempt := by
  obtain ⟨answers, _, indexed⟩ := represents.charge valid sound attempt.verdict
  have sorted : budget.live.Pairwise (· ≤ ·) := represents.times ▸ sound.sorted
  refine ⟨represents, answers, indexed, ?_, ?_⟩
  · exact fun locked => charge_locked sorted represents.slots represents.head locked attempt.verdict
  · intro enrolled
    have duress : budget.charge .duress attempt.now config = budget.charge .normal attempt.now config :=
      charge_enrolled budget attempt.now config nofun
    exact ⟨charge_correct budget attempt.now config enrolled, charge_enrolled budget attempt.now config enrolled,
      (charge_enrolled budget attempt.now config enrolled).trans duress.symm⟩

/-- The budget limits the rate of guesses. Over any run with a clock that never goes back, the ring answers as the log
of the wrong attempts inside the window does and no index of it is out of range; a locked node refuses, counts nothing
and keeps its horizon; the two enrolled pins do the same and count nothing. Until the last second a clock can show,
`maxAttempts + 1` wrong attempts that are charged take the shorter of the window and the lockout. -/
theorem pin_guessing_is_rate_limited (checked : config.validate = .ok ())
    (allocated : allocate config.maxAttempts = .ok budget) {attempts : List Attempt}
    (order : attempts.Pairwise (fun a b => a.now ≤ b.now)) :
    (∀ front attempt rest, attempts = front ++ attempt :: rest →
      Behaves config (exec (step config) budget front) (exec (AttemptLog.step config) .empty front) attempt) ∧
      Represents config (exec (step config) budget attempts) (exec (AttemptLog.step config) .empty attempts) ∧
      ((∀ a ∈ attempts, a.now < maxWord) → Spans config (chargedTimes config budget attempts)) := by
  obtain ⟨valid, rfl⟩ := valid_of_startup checked allocated
  have fresh := represents_new valid.attempts
  have blank := AttemptLog.sound_empty valid.attempts 0
  refine ⟨?_, ?_, ?_⟩
  · rintro front attempt rest rfl
    obtain ⟨early, _, between⟩ := List.pairwise_append.mp order
    obtain ⟨represents, sound⟩ := represents_run valid fresh blank early (fun _ _ => Nat.zero_le _)
      (fun a member => between a member attempt List.mem_cons_self) (Nat.zero_le _)
    exact represents.behaves valid attempt sound
  · have bounded : ∀ a ∈ attempts, a.now ≤ (attempts.map Attempt.now).sum := fun a member =>
      List.le_sum_of_mem (List.mem_map_of_mem member)
    exact (represents_run valid fresh blank order (fun _ _ => Nat.zero_le _) bounded (Nat.zero_le _)).1
  · intro ticking
    have none : Spans config [] := fun i first _ start => by
      cases start
    exact spans_run valid fresh blank ⟨[], rfl, nofun⟩ none order (fun _ _ => Nat.zero_le _) ticking

/-- One guess in ten seconds, and a lockout of ten seconds after it. -/
def Sample.oneGuess : PinBudgetConfig := ⟨1, 10, [0], 10⟩

/-- The guess at 9 is refused; the one at 15 is charged again. -/
theorem pin_guessing_is_rate_limited_sample :
    Spans Sample.oneGuess (chargedTimes Sample.oneGuess (new 1) [⟨.wrong, 5⟩, ⟨.wrong, 9⟩, ⟨.wrong, 15⟩]) ∧
      chargedTimes Sample.oneGuess (new 1) [⟨.wrong, 5⟩, ⟨.wrong, 9⟩, ⟨.wrong, 15⟩] = [5, 15] :=
  ⟨(@pin_guessing_is_rate_limited Sample.oneGuess (new 1) rfl rfl _ (by decide)).2.2 (by decide), by decide⟩

/-- A lockout whose end would lie past the last second ends with it, and the guess made in that second is charged. -/
theorem saturated_lockout_is_cut_short :
    ¬∀ (config : PinBudgetConfig) (budget : AttemptBudget) (attempts : List Attempt),
      config.validate = .ok () → allocate config.maxAttempts = .ok budget →
        attempts.Pairwise (fun a b => a.now ≤ b.now) → (∀ a ∈ attempts, a.now ≤ maxWord) →
          Spans config (chargedTimes config budget attempts) := by
  intro claimed
  have spans := claimed Sample.oneGuess (new 1) [⟨.wrong, maxWord - 1⟩, ⟨.wrong, maxWord⟩] rfl rfl (by decide) (by decide)
  have apart := spans 0 (maxWord - 1) maxWord (by decide) (by decide)
  exact absurd apart (by decide)

end AttemptBudget

end BtcPolicy.Pin
