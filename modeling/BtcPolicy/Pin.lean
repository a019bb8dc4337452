import BtcPolicy.Lib.Word

/-! The per-node attempt budget: a ring of the wrong attempts inside the window, and the lockout horizon. -/

namespace BtcPolicy.Pin
open Word

inductive PinVerdict where
  | normal
  | duress
  | wrong
  deriving DecidableEq, Repr

structure PinBudgetConfig where
  maxAttempts : Nat
  windowSecs : Nat
  backoffSchedule : List Nat
  lockoutSecs : Nat
  deriving DecidableEq, Repr

/-- The startup check of the configuration. -/
def PinBudgetConfig.validate (config : PinBudgetConfig) : Except String Unit :=
  if config.maxAttempts < 1 then .error "pin_attempt_budget.max_attempts must be >= 1"
  else if config.backoffSchedule.isEmpty then .error "pin_attempt_budget.backoff_schedule must be non-empty"
  else if config.windowSecs < 1 then .error "pin_attempt_budget.window_secs must be >= 1"
  else if config.lockoutSecs < 1 then .error "pin_attempt_budget.lockout_secs must be >= 1"
  else .ok ()

/-- `failTimes` is a ring of `maxAttempts` slots, of which `fails` from `failHead` on are live;
`lockedUntil` is zero while the node is not locked out. -/
structure AttemptBudget where
  failTimes : List Nat
  failHead : Nat
  fails : Nat
  lockedUntil : Nat
  deriving DecidableEq, Repr

structure ChargeOutcome where
  refuse : Bool
  backoff : Nat
  locked : Bool
  deriving DecidableEq, Repr

namespace AttemptBudget

def new (maxAttempts : Nat) : AttemptBudget := ⟨List.replicate maxAttempts 0, 0, 0, 0⟩

/-- `MAX_ATTEMPTS_CEILING`. -/
def maxAttemptsCeiling : Nat := 1024

/-- `new` with the ceiling it puts on the ring. -/
def allocate (maxAttempts : Nat) : Except String AttemptBudget :=
  if maxAttemptsCeiling < maxAttempts then
    .error ("pin_attempt_budget.max_attempts (" ++ toString maxAttempts ++ ") exceeds the protocol ceiling (" ++
      toString maxAttemptsCeiling ++ "): an online-guessing budget never needs more, and a ring this large would " ++
      "OOM-kill the node at allocation")
  else .ok (new maxAttempts)

/-- An expired lockout resets the count. -/
def recover (budget : AttemptBudget) (now : Nat) : AttemptBudget :=
  if budget.lockedUntil ≠ 0 ∧ budget.lockedUntil ≤ now then
    { budget with failHead := 0, fails := 0, lockedUntil := 0 }
  else budget

/-- The loop that drops the failures older than the window; it runs once for each live failure at most. -/
def slide (config : PinBudgetConfig) (now : Nat) : Nat → AttemptBudget → AttemptBudget
  | 0, budget => budget
  | rounds + 1, budget =>
    if budget.fails ≠ 0 ∧ config.windowSecs ≤ now - budget.failTimes.getD budget.failHead 0 then
      slide config now rounds
        { budget with
          failHead := (budget.failHead + 1) % config.maxAttempts
          fails := budget.fails - 1 }
    else budget

/-- One attempt: recover, slide the window, then charge a wrong pin on a node that is not locked. -/
def charge (budget : AttemptBudget) (verdict : PinVerdict) (now : Nat) (config : PinBudgetConfig) :
    AttemptBudget × ChargeOutcome :=
  let recovered := budget.recover now
  let budget := slide config now recovered.fails recovered
  let locked := decide (budget.lockedUntil ≠ 0)
  let isWrong := decide (verdict = .wrong)
  let apply := isWrong && !locked
  let scheduled := config.backoffSchedule.getD (min budget.fails (config.backoffSchedule.length - 1)) 0
  let backoff := if apply then scheduled else 0
  let tail := (budget.failHead + budget.fails) % config.maxAttempts
  let failTimes := if apply then budget.failTimes.set tail now else budget.failTimes
  let fails := if apply then min (satAdd budget.fails 1) config.maxAttempts else budget.fails
  let tripsLockout := apply && decide (fails = config.maxAttempts)
  let lockedUntil :=
    if tripsLockout then satAdd (satAdd now backoff) config.lockoutSecs else budget.lockedUntil
  (⟨failTimes, budget.failHead, fails, lockedUntil⟩, ⟨locked || isWrong, backoff, decide (lockedUntil ≠ 0)⟩)

/-- The loop with its read of the ring checked: `none` where the source would index out of bounds. -/
def slideChecked (config : PinBudgetConfig) (now : Nat) : Nat → AttemptBudget → Option AttemptBudget
  | 0, budget => some budget
  | rounds + 1, budget =>
    if budget.fails = 0 then some budget
    else
      budget.failTimes[budget.failHead]?.bind fun oldest =>
        if config.windowSecs ≤ now - oldest then
          slideChecked config now rounds
            { budget with
              failHead := (budget.failHead + 1) % config.maxAttempts
              fails := budget.fails - 1 }
        else some budget

/-- One attempt with every index checked: the loop's, the schedule's and the ring slot that is read and written. -/
def chargeChecked (budget : AttemptBudget) (verdict : PinVerdict) (now : Nat) (config : PinBudgetConfig) :
    Option (AttemptBudget × ChargeOutcome) :=
  let recovered := budget.recover now
  (slideChecked config now recovered.fails recovered).bind fun budget =>
    config.backoffSchedule[min budget.fails (config.backoffSchedule.length - 1)]?.bind fun scheduled =>
      budget.failTimes[(budget.failHead + budget.fails) % config.maxAttempts]?.map fun prior =>
        let locked := decide (budget.lockedUntil ≠ 0)
        let isWrong := decide (verdict = .wrong)
        let apply := isWrong && !locked
        let backoff := if apply then scheduled else 0
        let tail := (budget.failHead + budget.fails) % config.maxAttempts
        let failTimes := budget.failTimes.set tail (if apply then now else prior)
        let fails := if apply then min (satAdd budget.fails 1) config.maxAttempts else budget.fails
        let tripsLockout := apply && decide (fails = config.maxAttempts)
        let lockedUntil :=
          if tripsLockout then satAdd (satAdd now backoff) config.lockoutSecs else budget.lockedUntil
        (⟨failTimes, budget.failHead, fails, lockedUntil⟩, ⟨locked || isWrong, backoff, decide (lockedUntil ≠ 0)⟩)

/-- The two enrolled pins are charged alike. -/
theorem charge_enrolled (budget : AttemptBudget) (now : Nat) (config : PinBudgetConfig) {verdict : PinVerdict}
    (enrolled : verdict ≠ .wrong) : budget.charge verdict now config = budget.charge .normal now config := by
  cases verdict with
  | normal => rfl
  | duress => rfl
  | wrong => exact absurd rfl enrolled

end AttemptBudget

end BtcPolicy.Pin
