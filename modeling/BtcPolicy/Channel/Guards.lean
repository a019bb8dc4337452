import Mathlib.Data.List.TakeWhile
import BtcPolicy.Lib.Counting
import BtcPolicy.Lib.FiniteMap
import BtcPolicy.Lib.Word
import BtcPolicy.Lib.Runs
import BtcPolicy.Bitcoin

/-! The guards every authenticated envelope passes: freshness, replay suppression and a rolling quota for each
peer, decided in one critical section under a clock that only moves forward. Nonces are forgotten by the
envelope's timestamp, charges by the time they were made. -/

namespace BtcPolicy.Channel
open FiniteMap Word Runs Bitcoin Counting

def freshnessPastSecs : Nat := 300

def freshnessFutureSecs : Nat := 60

def quotaWindowSecs : Nat := 60

inductive IngressGuardResult where
  | accepted (now : Nat)
  | stale (now : Nat)
  | replayed
  | rateLimited (retryAfterSecs : Nat)
  deriving DecidableEq, Repr

/-- `seenNonces` holds the timestamp of each nonce, `quotas` the times a peer's envelopes were charged. -/
structure IngressGuards where
  highWater : Nat
  seenNonces : Map (Nat × Bytes) Nat
  quotas : Map Nat (List Nat)

namespace IngressGuards

/-- `IngressGuards::default`. -/
def empty : IngressGuards := ⟨0, ∅, ∅⟩

/-- The charges of `sender` that are still in the window. -/
def charged (guards : IngressGuards) (sender now : Nat) : List Nat :=
  ((guards.quotas.lookup sender).getD []).dropWhile (fun charged => decide (charged ≤ now - quotaWindowSecs))

/-- Charge one envelope, or say when the oldest charge leaves the window. -/
def chargeQuota (guards : IngressGuards) (sender now quotaPerMin : Nat) :
    IngressGuards × Option IngressGuardResult :=
  let chargedAt := guards.charged sender now
  if chargedAt.length < quotaPerMin then
    ({ guards with quotas := guards.quotas.insert sender (chargedAt ++ [now]) }, none)
  else
    ({ guards with quotas := guards.quotas.insert sender chargedAt },
      some (.rateLimited (match chargedAt.head? with
        | some oldest => max (satAdd oldest quotaWindowSecs - now) 1
        | none => quotaWindowSecs)))

/-- Charge, and answer `otherwise` unless the peer is over quota. -/
def chargeOr (guards : IngressGuards) (sender now quotaPerMin : Nat) (otherwise : IngressGuardResult) :
    IngressGuards × IngressGuardResult :=
  let answer := guards.chargeQuota sender now quotaPerMin
  (answer.1, answer.2.getD otherwise)

/-- Forget the nonces whose timestamp is no longer fresh. -/
def ageOut (guards : IngressGuards) (now : Nat) : IngressGuards :=
  { guards with
    seenNonces := retain (fun _ kept => decide (now - freshnessPastSecs ≤ kept)) guards.seenNonces }

def checkAndConsume (guards : IngressGuards) (sender : Nat) (nonce : Bytes) (timestamp nowInput quotaPerMin : Nat) :
    IngressGuards × IngressGuardResult :=
  let guards := { guards with highWater := max guards.highWater nowInput }
  let now := guards.highWater
  if timestamp < now - freshnessPastSecs ∨ satAdd now freshnessFutureSecs < timestamp then
    guards.chargeOr sender now quotaPerMin (.stale now)
  else
    let guards := guards.ageOut now
    if (guards.seenNonces.lookup (sender, nonce)).isSome then
      guards.chargeOr sender now quotaPerMin .replayed
    else
      match guards.chargeQuota sender now quotaPerMin with
      | (guards, some limited) => (guards, limited)
      | (guards, none) =>
        ({ guards with seenNonces := guards.seenNonces.insert (sender, nonce) timestamp }, .accepted now)

end IngressGuards

structure GuardCall where
  sender : Nat
  nonce : Bytes
  timestamp : Nat
  nowInput : Nat
  deriving DecidableEq, Repr

def guardStep (quotaPerMin : Nat) (guards : IngressGuards) (call : GuardCall) :
    IngressGuards × IngressGuardResult :=
  guards.checkAndConsume call.sender call.nonce call.timestamp call.nowInput quotaPerMin

/-- The guards after a sequence of calls. -/
def guardsAfter (quotaPerMin : Nat) (calls : List GuardCall) : IngressGuards :=
  exec (guardStep quotaPerMin) IngressGuards.empty calls

abbrev GuardEvent := Event IngressGuards GuardCall IngressGuardResult

def guardTrace (quotaPerMin : Nat) (calls : List GuardCall) : List GuardEvent :=
  trace (guardStep quotaPerMin) IngressGuards.empty calls

/-- The effective time of a call: the largest reading so far. -/
def GuardEvent.now (event : GuardEvent) : Nat := max event.state.highWater event.action.nowInput

def IngressGuardResult.isLimited : IngressGuardResult → Bool
  | .rateLimited _ => true
  | _ => false

def GuardEvent.acceptedTriple (event : GuardEvent) : Option (Nat × Bytes × Nat) :=
  match event.reply with
  | .accepted _ => some (event.action.sender, event.action.nonce, event.action.timestamp)
  | _ => none

/-- The effective times of `sender`'s calls that were not rate-limited. -/
def chargeTimes (quotaPerMin : Nat) (calls : List GuardCall) (sender : Nat) : List Nat :=
  ((guardTrace quotaPerMin calls).filter (fun event =>
    decide (event.action.sender = sender) && !event.reply.isLimited)).map GuardEvent.now

/-! ### What one call does -/

/-- The nonces that are still fresh. -/
def freshNonces (now : Nat) (seen : Map (Nat × Bytes) Nat) : Map (Nat × Bytes) Nat :=
  retain (fun _ kept => decide (now - freshnessPastSecs ≤ kept)) seen

/-- A call is limited, or charged and turned away, or charged and its nonce consumed. -/
inductive Guarded (quotaPerMin : Nat) (guards : IngressGuards) (call : GuardCall) (now : Nat)
    (after : IngressGuards) (reply : IngressGuardResult) : Prop where
  | limited (retry : Nat) (same : reply = .rateLimited retry)
      (full : quotaPerMin ≤ (guards.charged call.sender now).length)
      (quotas : after.quotas = guards.quotas.insert call.sender (guards.charged call.sender now))
      (seen : after.seenNonces = guards.seenNonces ∨ after.seenNonces = freshNonces now guards.seenNonces)
  | turned (limited : ∀ retry, reply ≠ .rateLimited retry) (refused : ∀ at', reply ≠ .accepted at')
      (room : (guards.charged call.sender now).length < quotaPerMin)
      (quotas : after.quotas = guards.quotas.insert call.sender (guards.charged call.sender now ++ [now]))
      (seen : after.seenNonces = guards.seenNonces ∨ after.seenNonces = freshNonces now guards.seenNonces)
  | consumed (same : reply = .accepted now) (past : now - freshnessPastSecs ≤ call.timestamp)
      (future : call.timestamp ≤ now + freshnessFutureSecs)
      (room : (guards.charged call.sender now).length < quotaPerMin)
      (quotas : after.quotas = guards.quotas.insert call.sender (guards.charged call.sender now ++ [now]))
      (new : (freshNonces now guards.seenNonces).lookup (call.sender, call.nonce) = none)
      (seen : after.seenNonces =
        (freshNonces now guards.seenNonces).insert (call.sender, call.nonce) call.timestamp)

theorem guardStep_highWater (quotaPerMin : Nat) (guards : IngressGuards) (call : GuardCall) :
    (guardStep quotaPerMin guards call).1.highWater = max guards.highWater call.nowInput := by
  unfold guardStep IngressGuards.checkAndConsume IngressGuards.chargeOr IngressGuards.chargeQuota
  simp only
  split_ifs <;> rfl

theorem guardStep_cases (quotaPerMin : Nat) (guards : IngressGuards) (call : GuardCall) :
    Guarded quotaPerMin guards call (max guards.highWater call.nowInput) (guardStep quotaPerMin guards call).1
      (guardStep quotaPerMin guards call).2 := by
  unfold guardStep IngressGuards.checkAndConsume IngressGuards.chargeOr IngressGuards.chargeQuota
  simp only
  split_ifs with stale room seen room room
  · exact .turned (by simp) (by simp) room rfl (Or.inl rfl)
  · exact .limited _ rfl (Nat.le_of_not_lt room) rfl (Or.inl rfl)
  · exact .turned (by simp) (by simp) room rfl (Or.inr rfl)
  · exact .limited _ rfl (Nat.le_of_not_lt room) rfl (Or.inr rfl)
  · rw [not_or, Nat.not_lt, Nat.not_lt] at stale
    exact .consumed rfl stale.1 (stale.2.trans (satAdd_le_add _ _)) room rfl (Option.not_isSome_iff_eq_none.mp seen) rfl
  · exact .limited _ rfl (Nat.le_of_not_lt room) rfl (Or.inr rfl)

/-! ### Replay -/

/-- The triple will not be accepted again: its nonce is held under it, or its timestamp is stale for good. -/
def Consumed (sender : Nat) (nonce : Bytes) (timestamp : Nat) (guards : IngressGuards) : Prop :=
  guards.seenNonces.lookup (sender, nonce) = some timestamp ∨ timestamp < guards.highWater - freshnessPastSecs

theorem consumed_fresh {sender : Nat} {nonce : Bytes} {timestamp now : Nat} {guards : IngressGuards}
    (later : guards.highWater ≤ now) (consumed : Consumed sender nonce timestamp guards) :
    (freshNonces now guards.seenNonces).lookup (sender, nonce) = some timestamp ∨
      timestamp < now - freshnessPastSecs := by
  rcases consumed with held | stale
  · by_cases fresh : now - freshnessPastSecs ≤ timestamp
    · exact Or.inl (lookup_retain_some.mpr ⟨held, by simpa using fresh⟩)
    · exact Or.inr (Nat.lt_of_not_le fresh)
  · exact Or.inr (by omega)

theorem consumed_step {quotaPerMin : Nat} {sender : Nat} {nonce : Bytes} {timestamp : Nat} (guards : IngressGuards)
    (call : GuardCall) (consumed : Consumed sender nonce timestamp guards) :
    Consumed sender nonce timestamp (guardStep quotaPerMin guards call).1 := by
  have later : guards.highWater ≤ max guards.highWater call.nowInput := le_max_left _ _
  have fresh := consumed_fresh later consumed
  have kept : ∀ seen : Map (Nat × Bytes) Nat, seen = guards.seenNonces ∨
      seen = freshNonces (max guards.highWater call.nowInput) guards.seenNonces →
      seen.lookup (sender, nonce) = some timestamp ∨
        timestamp < max guards.highWater call.nowInput - freshnessPastSecs := by
    rintro seen (rfl | rfl)
    · rcases consumed with held | stale
      · exact Or.inl held
      · exact Or.inr (by omega)
    · exact fresh
  unfold Consumed
  rw [guardStep_highWater]
  cases guardStep_cases quotaPerMin guards call with
  | limited retry same full quotas seen => exact kept _ seen
  | turned limited refused room quotas seen => exact kept _ seen
  | consumed same past future room quotas new seen =>
    rcases fresh with held | stale
    · have different : (sender, nonce) ≠ (call.sender, call.nonce) := by
        intro equal
        rw [equal, new] at held
        cases held
      rw [seen]
      exact Or.inl ((AList.lookup_insert_ne different).trans held)
    · exact Or.inr stale

theorem consumed_refuses {quotaPerMin : Nat} {guards : IngressGuards} {call : GuardCall}
    (consumed : Consumed call.sender call.nonce call.timestamp guards) (now : Nat) :
    (guardStep quotaPerMin guards call).2 ≠ .accepted now := by
  intro accepted
  have fresh := consumed_fresh (le_max_left guards.highWater call.nowInput) consumed
  cases guardStep_cases quotaPerMin guards call with
  | limited retry same full quotas seen =>
    rw [same] at accepted
    cases accepted
  | turned limited refused room quotas seen => exact refused now accepted
  | consumed same past future room quotas new seen =>
    rcases fresh with held | stale
    · rw [new] at held
      cases held
    · omega

theorem consumed_accepted {quotaPerMin : Nat} {guards : IngressGuards} {call : GuardCall} {now : Nat}
    (accepted : (guardStep quotaPerMin guards call).2 = .accepted now) :
    Consumed call.sender call.nonce call.timestamp (guardStep quotaPerMin guards call).1 := by
  cases guardStep_cases quotaPerMin guards call with
  | limited retry same full quotas seen =>
    rw [same] at accepted
    cases accepted
  | turned limited refused room quotas seen => exact absurd accepted (refused now)
  | consumed same past future room quotas new seen =>
    left
    rw [seen]
    exact AList.lookup_insert _

/-! ### The quota -/

theorem guardTrace_snoc (quotaPerMin : Nat) (calls : List GuardCall) (call : GuardCall) :
    guardTrace quotaPerMin (calls ++ [call]) = guardTrace quotaPerMin calls ++
      [⟨guardsAfter quotaPerMin calls, call, (guardStep quotaPerMin (guardsAfter quotaPerMin calls) call).2⟩] :=
  trace_snoc (guardStep quotaPerMin) IngressGuards.empty calls call

theorem guardsAfter_snoc (quotaPerMin : Nat) (calls : List GuardCall) (call : GuardCall) :
    guardsAfter quotaPerMin (calls ++ [call]) = (guardStep quotaPerMin (guardsAfter quotaPerMin calls) call).1 :=
  exec_snoc (guardStep quotaPerMin) IngressGuards.empty calls call

theorem isLimited_eq_false {reply : IngressGuardResult} (unlimited : ∀ retry, reply ≠ .rateLimited retry) :
    reply.isLimited = false := by
  cases reply with
  | rateLimited retry => exact absurd rfl (unlimited retry)
  | _ => rfl

theorem chargeTimes_limited {quotaPerMin : Nat} {calls : List GuardCall} {call : GuardCall} {retry : Nat}
    (limited : (guardStep quotaPerMin (guardsAfter quotaPerMin calls) call).2 = .rateLimited retry) (sender : Nat) :
    chargeTimes quotaPerMin (calls ++ [call]) sender = chargeTimes quotaPerMin calls sender := by
  simp [chargeTimes, guardTrace_snoc, IngressGuardResult.isLimited, limited]

theorem chargeTimes_charged {quotaPerMin : Nat} {calls : List GuardCall} {call : GuardCall}
    (unlimited : ∀ retry, (guardStep quotaPerMin (guardsAfter quotaPerMin calls) call).2 ≠ .rateLimited retry)
    (sender : Nat) :
    chargeTimes quotaPerMin (calls ++ [call]) sender = chargeTimes quotaPerMin calls sender ++
      if call.sender = sender then [max (guardsAfter quotaPerMin calls).highWater call.nowInput] else [] := by
  have open' := isLimited_eq_false unlimited
  rw [chargeTimes, guardTrace_snoc, List.filter_append, List.map_append]
  apply congrArg
  by_cases same : call.sender = sender
  · simp [open', same, GuardEvent.now]
  · simp [same]

/-- The deque of `sender` is the end of its charge history, and what it has dropped is a window old. -/
def Windowed (history : List Nat) (guards : IngressGuards) (sender : Nat) : Prop :=
  ∃ dropped, history = dropped ++ (guards.quotas.lookup sender).getD [] ∧
    ∀ time ∈ dropped, time + quotaWindowSecs ≤ guards.highWater

theorem Windowed.charged {history : List Nat} {guards : IngressGuards} {sender now : Nat}
    (windowed : Windowed history guards sender) (later : guards.highWater ≤ now) (late : quotaWindowSecs ≤ now) :
    ∃ dropped, history = dropped ++ guards.charged sender now ∧ ∀ time ∈ dropped, time + quotaWindowSecs ≤ now := by
  obtain ⟨dropped, same, old⟩ := windowed
  refine ⟨dropped ++ ((guards.quotas.lookup sender).getD []).takeWhile
    (fun charged => decide (charged ≤ now - quotaWindowSecs)), ?_, ?_⟩
  · rw [List.append_assoc, IngressGuards.charged, List.takeWhile_append_dropWhile, same]
  · intro time member
    rcases List.mem_append.mp member with before | popped
    · exact (old time before).trans later
    · have passed : time ≤ now - quotaWindowSecs := by simpa using List.mem_takeWhile_imp popped
      omega

/-- The charges of `sender` in the half-open window from `start`. -/
def inWindow (start : Nat) (history : List Nat) : List Nat :=
  history.filter (fun time => decide (start ≤ time) && decide (time < start + quotaWindowSecs))

/-- A charge made while the window has room keeps every window within the quota. -/
theorem inWindow_charge {quotaPerMin now : Nat} {history dropped deque : List Nat}
    (same : history = dropped ++ deque) (old : ∀ time ∈ dropped, time + quotaWindowSecs ≤ now)
    (room : deque.length < quotaPerMin) (bounded : ∀ start, (inWindow start history).length ≤ quotaPerMin)
    (start : Nat) : (inWindow start (history ++ [now])).length ≤ quotaPerMin := by
  by_cases inside : start ≤ now ∧ now < start + quotaWindowSecs
  · have none' : inWindow start dropped = [] := by
      apply List.filter_eq_nil_iff.mpr
      intro time member
      have passed := old time member
      simp only [Bool.and_eq_true, decide_eq_true_eq]
      omega
    have part : (inWindow start deque).length ≤ deque.length := List.length_filter_le _ _
    have split : inWindow start (history ++ [now]) = inWindow start deque ++ [now] := by
      have unseen : dropped.filter (fun time => decide (start ≤ time) && decide (time < start + quotaWindowSecs)) = [] :=
        none'
      simp [inWindow, same, List.filter_append, unseen, inside.1, inside.2]
    rw [split, List.length_append, List.length_singleton]
    omega
  · have outside : inWindow start (history ++ [now]) = inWindow start history := by
      have skipped : (decide (start ≤ now) && decide (now < start + quotaWindowSecs)) = false := by
        simpa using inside
      simp [inWindow, List.filter_append, skipped]
    rw [outside]
    exact bounded start

/-- Consecutive windows that are each within the quota. -/
theorem length_span_le {quotaPerMin : Nat} {history : List Nat}
    (bounded : ∀ start, (inWindow start history).length ≤ quotaPerMin) (base windows : Nat) :
    (history.filter (fun time => decide (base ≤ time) && decide (time < base + windows * quotaWindowSecs))).length ≤
      windows * quotaPerMin := by
  induction windows with
  | zero =>
    have none' : history.filter (fun time => decide (base ≤ time) && decide (time < base + 0 * quotaWindowSecs)) = [] := by
      apply List.filter_eq_nil_iff.mpr
      intro time _
      simp only [Bool.and_eq_true, decide_eq_true_eq]
      omega
    rw [none']
    exact Nat.zero_le _
  | succ windows ih =>
    have last := bounded (base + windows * quotaWindowSecs)
    calc
      (history.filter (fun time =>
          decide (base ≤ time) && decide (time < base + (windows + 1) * quotaWindowSecs))).length
        ≤ (history.filter (fun time =>
            decide (base ≤ time) && decide (time < base + windows * quotaWindowSecs))).length +
          (inWindow (base + windows * quotaWindowSecs) history).length := by
          apply length_filter_le_add
          intro time _
          simp only [Bool.and_eq_true, decide_eq_true_eq, Nat.succ_mul]
          omega
      _ ≤ windows * quotaPerMin + quotaPerMin := Nat.add_le_add ih last
      _ = (windows + 1) * quotaPerMin := (Nat.succ_mul windows quotaPerMin).symm

/-! ### The nonces held for a sender -/

/-- The nonces of `sender` that are stamped `floor` or later. -/
def heldFrom (sender floor : Nat) (seen : Map (Nat × Bytes) Nat) : Nat :=
  (seen.entries.filter (fun e => decide (e.1.1 = sender) && decide (floor ≤ e.2))).length

/-- The nonces of `sender`. -/
def heldBy (sender : Nat) (seen : Map (Nat × Bytes) Nat) : Nat :=
  (seen.entries.filter (fun e => decide (e.1.1 = sender))).length

theorem heldFrom_fresh_le (sender floor now : Nat) (seen : Map (Nat × Bytes) Nat) :
    heldFrom sender floor (freshNonces now seen) ≤ heldFrom sender floor seen :=
  (List.filter_sublist.filter _).length_le

theorem heldBy_fresh_le (sender now : Nat) (seen : Map (Nat × Bytes) Nat) :
    heldBy sender (freshNonces now seen) ≤ heldBy sender seen :=
  (List.filter_sublist.filter _).length_le

/-- Everything still fresh is counted from the horizon on. -/
theorem heldFrom_horizon {now : Nat} {seen : Map (Nat × Bytes) Nat}
    (fresh : ∀ key kept, seen.lookup key = some kept → now - freshnessPastSecs ≤ kept) (sender : Nat) :
    heldFrom sender (now - freshnessPastSecs) seen = heldBy sender seen := by
  unfold heldFrom heldBy
  congr 1
  apply List.filter_congr
  intro e member
  have kept := fresh e.1 e.2 (AList.mem_lookup_iff.mpr member)
  simp [kept]

theorem heldFrom_insert {sender floor other : Nat} {nonce : Bytes} {timestamp : Nat} {seen : Map (Nat × Bytes) Nat}
    (new : seen.lookup (other, nonce) = none) :
    heldFrom sender floor (seen.insert (other, nonce) timestamp) =
      heldFrom sender floor seen + if other = sender ∧ floor ≤ timestamp then 1 else 0 := by
  unfold heldFrom
  rw [entries_insert_absent new, List.filter_cons]
  split_ifs with both split split
  · rfl
  · exact absurd (by simpa using both) split
  · exact absurd (by simpa using split) both
  · rfl

theorem heldBy_insert_other {sender other : Nat} {nonce : Bytes} {timestamp : Nat} {seen : Map (Nat × Bytes) Nat}
    (new : seen.lookup (other, nonce) = none) (different : other ≠ sender) :
    heldBy sender (seen.insert (other, nonce) timestamp) = heldBy sender seen := by
  unfold heldBy
  rw [entries_insert_absent new, List.filter_cons, if_neg (by simpa using different)]

/-- A nonce that is still fresh was accepted at most six minutes ago, so seven windows cover them all. -/
theorem heldBy_le_seven {quotaPerMin now sender : Nat} {history : List Nat} {seen : Map (Nat × Bytes) Nat}
    (fresh : ∀ key kept, seen.lookup key = some kept → now - freshnessPastSecs ≤ kept)
    (bounded : ∀ start, (inWindow start history).length ≤ quotaPerMin) (past : ∀ time ∈ history, time ≤ now)
    (charged : heldFrom sender (now - freshnessPastSecs) seen ≤ (history.filter (fun time =>
      decide (now - freshnessPastSecs ≤ time + freshnessFutureSecs))).length) :
    heldBy sender seen ≤ 7 * quotaPerMin := by
  have covered : history.filter (fun time => decide (now - freshnessPastSecs ≤ time + freshnessFutureSecs)) =
      history.filter (fun time => decide (now - (freshnessPastSecs + freshnessFutureSecs) ≤ time) &&
        decide (time < now - (freshnessPastSecs + freshnessFutureSecs) + 7 * quotaWindowSecs)) := by
    apply List.filter_congr
    intro time member
    have before := past time member
    rw [← Bool.decide_and]
    apply decide_eq_decide.mpr
    unfold freshnessPastSecs freshnessFutureSecs quotaWindowSecs
    omega
  calc
    heldBy sender seen = heldFrom sender (now - freshnessPastSecs) seen := (heldFrom_horizon fresh sender).symm
    _ ≤ (history.filter (fun time => decide (now - freshnessPastSecs ≤ time + freshnessFutureSecs))).length := charged
    _ ≤ 7 * quotaPerMin := by
      rw [covered]
      exact length_span_le bounded _ 7

/-- What a run of calls has charged and remembers. -/
structure Guarding (quotaPerMin : Nat) (calls : List GuardCall) : Prop where
  windowed : ∀ sender, Windowed (chargeTimes quotaPerMin calls sender) (guardsAfter quotaPerMin calls) sender
  bounded : ∀ sender start, (inWindow start (chargeTimes quotaPerMin calls sender)).length ≤ quotaPerMin
  past : ∀ sender, ∀ time ∈ chargeTimes quotaPerMin calls sender, time ≤ (guardsAfter quotaPerMin calls).highWater
  charged : ∀ sender floor, heldFrom sender floor (guardsAfter quotaPerMin calls).seenNonces ≤
    ((chargeTimes quotaPerMin calls sender).filter (fun time => decide (floor ≤ time + freshnessFutureSecs))).length
  held : ∀ sender, heldBy sender (guardsAfter quotaPerMin calls).seenNonces ≤ 7 * quotaPerMin

theorem guarding_nil (quotaPerMin : Nat) : Guarding quotaPerMin [] := by
  refine ⟨?_, ?_, ?_, ?_, ?_⟩
  · intro sender
    exact ⟨[], rfl, by simp⟩
  · intro sender start
    exact Nat.zero_le _
  · intro sender time member
    cases member
  · intro sender floor
    exact Nat.zero_le _
  · intro sender
    exact Nat.zero_le _

/-- A deque that has dropped its old charges and may have taken a new one. -/
theorem windowed_insert {history : Nat → List Nat} {guards after : IngressGuards} {charging now : Nat}
    {extra : List Nat} (windowed : ∀ sender, Windowed (history sender) guards sender)
    (later : guards.highWater ≤ now) (late : quotaWindowSecs ≤ now) (clock : after.highWater = now)
    (quotas : after.quotas = guards.quotas.insert charging (guards.charged charging now ++ extra)) (sender : Nat) :
    Windowed (history sender ++ if charging = sender then extra else []) after sender := by
  unfold Windowed
  rw [clock, quotas, lookup_insert_eq]
  by_cases same : charging = sender
  · subst same
    obtain ⟨dropped, split, old⟩ := (windowed charging).charged later late
    refine ⟨dropped, ?_, old⟩
    rw [if_pos rfl, if_pos rfl, Option.getD_some, split, List.append_assoc]
  · obtain ⟨dropped, split, old⟩ := windowed sender
    rw [if_neg same, if_neg (fun equal => same equal.symm), List.append_nil]
    exact ⟨dropped, split, fun time member => (old time member).trans later⟩

section Step

variable {quotaPerMin : Nat} {calls : List GuardCall} {call : GuardCall}

/-- The charge history of a call that is not limited. -/
theorem charged_step (guarding : Guarding quotaPerMin calls) (late : quotaWindowSecs ≤ call.nowInput)
    (unlimited : ∀ retry, (guardStep quotaPerMin (guardsAfter quotaPerMin calls) call).2 ≠ .rateLimited retry)
    (room : ((guardsAfter quotaPerMin calls).charged call.sender
      (max (guardsAfter quotaPerMin calls).highWater call.nowInput)).length < quotaPerMin) (sender : Nat) :
    (∀ start, (inWindow start (chargeTimes quotaPerMin (calls ++ [call]) sender)).length ≤ quotaPerMin) ∧
      ∀ time ∈ chargeTimes quotaPerMin (calls ++ [call]) sender,
        time ≤ max (guardsAfter quotaPerMin calls).highWater call.nowInput := by
  rw [chargeTimes_charged unlimited]
  have later : (guardsAfter quotaPerMin calls).highWater ≤
      max (guardsAfter quotaPerMin calls).highWater call.nowInput := le_max_left _ _
  by_cases same : call.sender = sender
  · subst same
    obtain ⟨dropped, split, old⟩ := (guarding.windowed call.sender).charged later (late.trans (le_max_right _ _))
    rw [if_pos rfl]
    refine ⟨inWindow_charge split old room (guarding.bounded call.sender), ?_⟩
    intro time member
    rcases List.mem_append.mp member with before | new
    · exact (guarding.past call.sender time before).trans later
    · exact (List.mem_singleton.mp new).le
  · rw [if_neg same, List.append_nil]
    exact ⟨guarding.bounded sender, fun time member => (guarding.past sender time member).trans later⟩

theorem heldFrom_kept {guards : IngressGuards} {now : Nat} {seen : Map (Nat × Bytes) Nat}
    (kept : seen = guards.seenNonces ∨ seen = freshNonces now guards.seenNonces) (sender floor : Nat) :
    heldFrom sender floor seen ≤ heldFrom sender floor guards.seenNonces := by
  rcases kept with rfl | rfl
  · exact le_rfl
  · exact heldFrom_fresh_le sender floor now guards.seenNonces

theorem heldBy_kept {guards : IngressGuards} {now : Nat} {seen : Map (Nat × Bytes) Nat}
    (kept : seen = guards.seenNonces ∨ seen = freshNonces now guards.seenNonces) (sender : Nat) :
    heldBy sender seen ≤ heldBy sender guards.seenNonces := by
  rcases kept with rfl | rfl
  · exact le_rfl
  · exact heldBy_fresh_le sender now guards.seenNonces

theorem filter_append_ge (keep : Nat → Bool) (history extra : List Nat) :
    (history.filter keep).length ≤ ((history ++ extra).filter keep).length :=
  ((List.sublist_append_left history extra).filter keep).length_le

theorem guarding_snoc (guarding : Guarding quotaPerMin calls) (late : quotaWindowSecs ≤ call.nowInput) :
    Guarding quotaPerMin (calls ++ [call]) := by
  have clock : (guardsAfter quotaPerMin (calls ++ [call])).highWater =
      max (guardsAfter quotaPerMin calls).highWater call.nowInput := by
    rw [guardsAfter_snoc, guardStep_highWater]
  have later : (guardsAfter quotaPerMin calls).highWater ≤
      max (guardsAfter quotaPerMin calls).highWater call.nowInput := le_max_left _ _
  have late' := late.trans (le_max_right (guardsAfter quotaPerMin calls).highWater call.nowInput)
  have outcome := guardStep_cases quotaPerMin (guardsAfter quotaPerMin calls) call
  rw [← guardsAfter_snoc] at outcome
  cases outcome with
  | limited retry same full quotas seen =>
    have history := chargeTimes_limited same
    refine ⟨?_, ?_, ?_, ?_, ?_⟩
    · intro sender
      rw [← List.append_nil ((guardsAfter quotaPerMin calls).charged _ _)] at quotas
      have windowed := windowed_insert guarding.windowed later late' clock quotas sender
      rw [ite_self, List.append_nil] at windowed
      rwa [history]
    · intro sender start
      rw [history]
      exact guarding.bounded sender start
    · intro sender time member
      rw [history] at member
      rw [clock]
      exact (guarding.past sender time member).trans later
    · intro sender floor
      rw [history]
      exact (heldFrom_kept seen sender floor).trans (guarding.charged sender floor)
    · intro sender
      exact (heldBy_kept seen sender).trans (guarding.held sender)
  | turned unlimited refused room quotas seen =>
    have charged := charged_step guarding late unlimited room
    refine ⟨?_, fun sender => (charged sender).1, ?_, ?_, ?_⟩
    · intro sender
      rw [chargeTimes_charged unlimited]
      exact windowed_insert guarding.windowed later late' clock quotas sender
    · rw [clock]
      exact fun sender => (charged sender).2
    · intro sender floor
      rw [chargeTimes_charged unlimited]
      exact ((heldFrom_kept seen sender floor).trans (guarding.charged sender floor)).trans (filter_append_ge _ _ _)
    · intro sender
      exact (heldBy_kept seen sender).trans (guarding.held sender)
  | consumed same past future room quotas new seen =>
    have unlimited : ∀ retry, (guardStep quotaPerMin (guardsAfter quotaPerMin calls) call).2 ≠ .rateLimited retry := by
      intro retry
      rw [same]
      simp
    have charged := charged_step guarding late unlimited room
    have counted : ∀ sender floor, heldFrom sender floor (guardsAfter quotaPerMin (calls ++ [call])).seenNonces ≤
        ((chargeTimes quotaPerMin (calls ++ [call]) sender).filter (fun time =>
          decide (floor ≤ time + freshnessFutureSecs))).length := by
      intro sender floor
      have old := (heldFrom_fresh_le sender floor (max (guardsAfter quotaPerMin calls).highWater call.nowInput)
        (guardsAfter quotaPerMin calls).seenNonces).trans (guarding.charged sender floor)
      rw [seen, heldFrom_insert new, chargeTimes_charged unlimited, List.filter_append, List.length_append]
      apply Nat.add_le_add old
      by_cases counts : call.sender = sender ∧ floor ≤ call.timestamp
      · have inside : floor ≤ max (guardsAfter quotaPerMin calls).highWater call.nowInput + freshnessFutureSecs :=
          counts.2.trans future
        rw [if_pos counts, if_pos counts.1, List.filter_singleton, decide_eq_true inside]
        rfl
      · rw [if_neg counts]
        exact Nat.zero_le _
    refine ⟨?_, fun sender => (charged sender).1, ?_, counted, ?_⟩
    · intro sender
      rw [chargeTimes_charged unlimited]
      exact windowed_insert guarding.windowed later late' clock quotas sender
    · rw [clock]
      exact fun sender => (charged sender).2
    · intro sender
      by_cases own : call.sender = sender
      · refine heldBy_le_seven ?_ (charged sender).1 (charged sender).2 (counted sender _)
        intro key kept found
        rw [seen, lookup_insert_eq] at found
        split_ifs at found
        · cases found
          exact past
        · simpa using (lookup_retain_some.mp found).2
      · rw [seen, heldBy_insert_other new own]
        exact (heldBy_fresh_le sender _ _).trans (guarding.held sender)

end Step

theorem guarding_run (quotaPerMin : Nat) (calls : List GuardCall) (late : ∀ call ∈ calls, 61 ≤ call.nowInput) :
    Guarding quotaPerMin calls := by
  induction calls using List.reverseRecOn with
  | nil => exact guarding_nil quotaPerMin
  | append_singleton calls call ih =>
    have front := ih (fun other member => late other (List.mem_append_left _ member))
    have last := late call (by simp)
    refine guarding_snoc front ?_
    unfold quotaWindowSecs
    omega

/-! ### The guards over every sequence of calls -/

theorem acceptedTriple_snoc (quotaPerMin : Nat) (calls : List GuardCall) (call : GuardCall) :
    (guardTrace quotaPerMin (calls ++ [call])).filterMap GuardEvent.acceptedTriple =
      (guardTrace quotaPerMin calls).filterMap GuardEvent.acceptedTriple ++
        match (guardStep quotaPerMin (guardsAfter quotaPerMin calls) call).2 with
        | .accepted _ => [(call.sender, call.nonce, call.timestamp)]
        | _ => [] := by
  rw [guardTrace_snoc, List.filterMap_append]
  apply congrArg
  cases (guardStep quotaPerMin (guardsAfter quotaPerMin calls) call).2 <;> rfl

/-- Every accepted triple is consumed from then on. -/
theorem consumed_of_accepted {quotaPerMin : Nat} {calls : List GuardCall} {sender : Nat} {nonce : Bytes}
    {timestamp : Nat}
    (accepted : (sender, nonce, timestamp) ∈ (guardTrace quotaPerMin calls).filterMap GuardEvent.acceptedTriple) :
    Consumed sender nonce timestamp (guardsAfter quotaPerMin calls) := by
  induction calls using List.reverseRecOn with
  | nil => cases accepted
  | append_singleton calls call ih =>
    rw [acceptedTriple_snoc] at accepted
    rw [guardsAfter_snoc]
    rcases List.mem_append.mp accepted with before | last
    · exact consumed_step _ call (ih before)
    · split at last
      next now same =>
        obtain ⟨rfl, rfl, rfl⟩ : sender = call.sender ∧ nonce = call.nonce ∧ timestamp = call.timestamp := by
          simpa using last
        exact consumed_accepted same
      next => cases last

theorem acceptedTriples_nodup (quotaPerMin : Nat) (calls : List GuardCall) :
    ((guardTrace quotaPerMin calls).filterMap GuardEvent.acceptedTriple).Nodup := by
  induction calls using List.reverseRecOn with
  | nil => exact List.nodup_nil
  | append_singleton calls call ih =>
    rw [acceptedTriple_snoc]
    split
    next now same =>
      refine List.nodup_append.mpr ⟨ih, List.nodup_singleton _, ?_⟩
      rintro triple before _ last rfl
      rw [List.mem_singleton] at last
      subst last
      exact consumed_refuses (consumed_of_accepted before) now same
    next =>
      rw [List.append_nil]
      exact ih

/-- The envelope guards, for any calls whose clock readings are at least 61: no triple is accepted twice, no
half-open minute of effective time sees more than the quota of one peer pass the limiter, a rate-limited call
only lets nonces age out, and at most seven quotas of nonces are held for a peer. -/
theorem envelope_guards (quotaPerMin : Nat) (calls : List GuardCall) (late : ∀ call ∈ calls, 61 ≤ call.nowInput) :
    ((guardTrace quotaPerMin calls).filterMap GuardEvent.acceptedTriple).Nodup ∧
      (∀ sender start, ((guardTrace quotaPerMin calls).filter (fun event =>
        decide (event.action.sender = sender) && !event.reply.isLimited &&
          (decide (start ≤ GuardEvent.now event) && decide (GuardEvent.now event < start + 60)))).length ≤ quotaPerMin) ∧
      (∀ before call after, calls = before ++ call :: after →
        (guardStep quotaPerMin (guardsAfter quotaPerMin before) call).2.isLimited = true →
          (guardsAfter quotaPerMin (before ++ [call])).seenNonces = (guardsAfter quotaPerMin before).seenNonces ∨
            (guardsAfter quotaPerMin (before ++ [call])).seenNonces =
              freshNonces (max (guardsAfter quotaPerMin before).highWater call.nowInput)
                (guardsAfter quotaPerMin before).seenNonces) ∧
      ∀ sender, heldBy sender (guardsAfter quotaPerMin calls).seenNonces ≤ 7 * quotaPerMin := by
  have guarding := guarding_run quotaPerMin calls late
  refine ⟨acceptedTriples_nodup quotaPerMin calls, ?_, ?_, guarding.held⟩
  · intro sender start
    have window := guarding.bounded sender start
    unfold inWindow chargeTimes at window
    rw [List.filter_map, List.length_map, List.filter_filter] at window
    refine le_trans (Nat.le_of_eq (congrArg List.length ?_)) window
    apply List.filter_congr
    intro event _
    exact Bool.and_comm _ _
  · intro before call after _ limited
    rw [guardsAfter_snoc]
    cases guardStep_cases quotaPerMin (guardsAfter quotaPerMin before) call with
    | limited retry same full quotas seen => exact seen
    | turned unlimited refused room quotas seen => exact seen
    | consumed same past future room quotas new seen =>
      rw [same] at limited
      cases limited

/-- With a quota of one, the second envelope of the minute is limited and the third is accepted a minute later. -/
theorem envelope_guards_sample :
    (guardTrace 1 [⟨1, [0], 100, 100⟩, ⟨1, [1], 100, 159⟩, ⟨1, [1], 100, 160⟩]).map Event.reply =
        [.accepted 100, .rateLimited 1, .accepted 160] ∧
      ∀ sender, heldBy sender (guardsAfter 1
        [⟨1, [0], 100, 100⟩, ⟨1, [1], 100, 159⟩, ⟨1, [1], 100, 160⟩]).seenNonces ≤ 7 * 1 :=
  ⟨by decide +kernel, (envelope_guards 1 _ (by decide)).2.2.2⟩

end BtcPolicy.Channel
