import BtcPolicy.Lib.FiniteMap
import BtcPolicy.Lib.Word
import BtcPolicy.Lib.Runs

/-! The coordinator nonce log: freshness, replay and capacity are decided in one atomic step, pruning
is driven by two clocks, and the high-water mark advances through exactly the expiries that pruning
forgets. The clock readings are parameters and may move in either direction between calls. -/

namespace BtcPolicy.Replay
open FiniteMap Word Runs

/-- Maximum wire length of one coordinator nonce, in bytes. -/
def maxCoordNonceBytes : Nat := 64

/-- Maximum number of live coordinator nonces. -/
def maxCoordNonces : Nat := 4096

inductive NonceDecision where
  | accepted
  | invalidLength
  | outsideWindow (now : Nat)
  | replayed
  | atCapacity
  deriving DecidableEq, Repr

/-- One coordinator nonce and the clocks that retain it. `carrierDeadline` is the monotonic deadline
of a channel-mode Spend and `none` for every other request. -/
structure NonceEntry where
  expiry : Nat
  carrierDeadline : Option Nat
  deriving DecidableEq, Repr

/-- Resident while the wall expiry or the Carrier deadline lives. Without a monotonic sample an entry
that has a deadline stays live. -/
def NonceEntry.isLive (entry : NonceEntry) (effectiveNow : Nat) (monoNow : Option Nat) : Bool :=
  decide (effectiveNow < entry.expiry) ||
    match entry.carrierDeadline, monoNow with
    | none, _ => false
    | some _, none => true
    | some deadline, some mono => decide (mono < deadline)

structure NonceLog where
  entries : Map String NonceEntry
  /-- Highest expiry of a coordinator nonce removed from `entries`. -/
  highWater : Nat

/-- `NonceLog::default`. -/
def NonceLog.empty : NonceLog := ⟨∅, 0⟩

def NonceLog.effectiveNow (log : NonceLog) (nowInput : Nat) : Nat := max log.highWater nowInput

def NonceLog.carrierDeadline (log : NonceLog) (nonce : String) : Option Nat :=
  (log.entries.lookup nonce).bind NonceEntry.carrierDeadline

/-- The deadline of exactly this generation, while the mark has not reached its expiry. -/
def NonceLog.outerStaleCarrierDeadline (log : NonceLog) (nonce : String) (expiry : Nat) : Option Nat :=
  ((log.entries.lookup nonce).filter (fun entry =>
    decide (log.highWater < expiry) && decide (entry.expiry = expiry))).bind NonceEntry.carrierDeadline

/-- The arguments of one `check_and_record` call. -/
structure NonceCall where
  nonce : String
  expiry : Nat
  nowInput : Nat
  maxAge : Nat
  monoNow : Option Nat
  recordCarrierDeadline : Bool
  deriving DecidableEq, Repr

/-- The deadline an acceptance records: `M + (E - W)` for a channel-mode Spend, nothing otherwise.
The outer `none` is the sum that does not fit a word. -/
def NonceLog.acceptedDeadline (log : NonceLog) (call : NonceCall) : Option (Option Nat) :=
  match call.monoNow.filter (fun _ => call.recordCarrierDeadline) with
  | none => some none
  | some mono =>
    match checkedAdd mono (call.expiry - log.effectiveNow call.nowInput) with
    | some deadline => some (some deadline)
    | none => none

/-- Prune under both clocks, advance through the expiries forgotten, and record the nonce. -/
def NonceLog.record (log : NonceLog) (call : NonceCall) (deadline : Option Nat) : NonceLog :=
  let effectiveNow := log.effectiveNow call.nowInput
  let forgotten := (vals log.entries).filter (fun entry => !entry.isLive effectiveNow call.monoNow)
  { entries := (retain (fun _ entry => entry.isLive effectiveNow call.monoNow) log.entries).insert
      call.nonce ⟨call.expiry, deadline⟩
    highWater := forgotten.foldl (fun through entry => max through entry.expiry) log.highWater }

def NonceLog.checkAndRecord (log : NonceLog) (call : NonceCall) : NonceLog × NonceDecision :=
  let effectiveNow := log.effectiveNow call.nowInput
  if call.nonce.isEmpty || decide (maxCoordNonceBytes < call.nonce.utf8ByteSize) then
    (log, .invalidLength)
  else if call.expiry ≤ effectiveNow then
    (log, .outsideWindow effectiveNow)
  else if satAdd call.nowInput call.maxAge < call.expiry then
    (log, .outsideWindow call.nowInput)
  else if (log.entries.lookup call.nonce).any (fun entry => entry.isLive effectiveNow call.monoNow) then
    (log, .replayed)
  else if maxCoordNonces ≤
      ((vals log.entries).filter (fun entry => entry.isLive effectiveNow call.monoNow)).length then
    (log, .atCapacity)
  else
    match log.acceptedDeadline call with
    | none => (log, .outsideWindow effectiveNow)
    | some deadline => (log.record call deadline, .accepted)

/-- Everything an acceptance knows and does. Every other decision leaves the log as it was. -/
theorem checkAndRecord_accepted {log : NonceLog} {call : NonceCall}
    (accepted : (log.checkAndRecord call).2 = .accepted) :
    log.effectiveNow call.nowInput < call.expiry ∧
      (∀ entry, log.entries.lookup call.nonce = some entry →
        entry.isLive (log.effectiveNow call.nowInput) call.monoNow = false) ∧
      ∃ deadline, (log.checkAndRecord call).1 = log.record call deadline := by
  unfold NonceLog.checkAndRecord at accepted ⊢
  simp only at accepted ⊢
  split_ifs at accepted ⊢ with badLength expired tooFar replayed full
  cases fixed : log.acceptedDeadline call with
  | none => simp [fixed] at accepted
  | some deadline =>
    refine ⟨Nat.lt_of_not_le expired, ?_, deadline, rfl⟩
    intro entry found
    simpa [found] using replayed

theorem checkAndRecord_refused {log : NonceLog} {call : NonceCall}
    (refused : (log.checkAndRecord call).2 ≠ .accepted) : (log.checkAndRecord call).1 = log := by
  unfold NonceLog.checkAndRecord at refused ⊢
  simp only at refused ⊢
  split_ifs at refused ⊢ <;> try rfl
  cases fixed : log.acceptedDeadline call with
  | none => rfl
  | some deadline => simp [fixed] at refused

theorem le_foldl_max {α : Type} (weight : α → Nat) (l : List α) (start : Nat) :
    start ≤ l.foldl (fun through x => max through (weight x)) start := by
  induction l generalizing start with
  | nil => exact le_rfl
  | cons x l ih => exact (le_max_left start (weight x)).trans (ih _)

theorem le_foldl_max_of_mem {α : Type} (weight : α → Nat) (l : List α) (start : Nat) (x : α)
    (member : x ∈ l) : weight x ≤ l.foldl (fun through x => max through (weight x)) start := by
  induction l generalizing start with
  | nil => simp at member
  | cons y l ih =>
    rcases List.mem_cons.mp member with same | later
    · subst same
      exact (le_max_right start (weight x)).trans (le_foldl_max weight l _)
    · exact ih _ later

theorem record_highWater_mono (log : NonceLog) (call : NonceCall) (deadline : Option Nat) :
    log.highWater ≤ (log.record call deadline).highWater :=
  le_foldl_max NonceEntry.expiry _ _

/-- The log remembers `(nonce, expiry)`: the nonce is still held under that expiry, or the mark has
reached the expiry. -/
def Remembers (nonce : String) (expiry : Nat) (log : NonceLog) : Prop :=
  (∃ deadline, log.entries.lookup nonce = some ⟨expiry, deadline⟩) ∨ expiry ≤ log.highWater

/-- An acceptance of one nonce keeps every other nonce, or ratchets the mark through it. -/
theorem remembers_record {nonce : String} {expiry : Nat} {log : NonceLog} (call : NonceCall)
    (deadline : Option Nat)
    (dead : ∀ entry, log.entries.lookup call.nonce = some entry →
      entry.isLive (log.effectiveNow call.nowInput) call.monoNow = false)
    (known : Remembers nonce expiry log) : Remembers nonce expiry (log.record call deadline) := by
  rcases known with ⟨held, found⟩ | passed
  · by_cases live : (NonceEntry.mk expiry held).isLive (log.effectiveNow call.nowInput) call.monoNow = true
    · -- A live entry is never the accepted nonce's own, so it survives both the prune and the insert.
      have different : nonce ≠ call.nonce := by
        intro same
        have contrary := dead _ (same ▸ found)
        rw [live] at contrary
        cases contrary
      left
      refine ⟨held, ?_⟩
      show (AList.insert call.nonce _ (retain _ log.entries)).lookup nonce = _
      rw [AList.lookup_insert_ne different, lookup_retain_some]
      exact ⟨found, live⟩
    · right
      apply le_foldl_max_of_mem NonceEntry.expiry _ _ ⟨expiry, held⟩
      simp only [List.mem_filter, Bool.not_eq_true', mem_vals]
      exact ⟨⟨nonce, found⟩, by simpa using live⟩
  · exact Or.inr (passed.trans (record_highWater_mono log call deadline))

theorem remembers_step {nonce : String} {expiry : Nat} (log : NonceLog) (call : NonceCall)
    (known : Remembers nonce expiry log) : Remembers nonce expiry (log.checkAndRecord call).1 := by
  by_cases accepted : (log.checkAndRecord call).2 = .accepted
  · obtain ⟨_, dead, deadline, same⟩ := checkAndRecord_accepted accepted
    rw [same]
    exact remembers_record call deadline dead known
  · rwa [checkAndRecord_refused accepted]

theorem remembers_accepted {log : NonceLog} {call : NonceCall}
    (accepted : (log.checkAndRecord call).2 = .accepted) :
    Remembers call.nonce call.expiry (log.checkAndRecord call).1 := by
  obtain ⟨_, _, deadline, same⟩ := checkAndRecord_accepted accepted
  rw [same]
  exact Or.inl ⟨deadline, AList.lookup_insert _⟩

/-- What the log remembers it refuses, whatever the clocks read. -/
theorem remembers_refuses {log : NonceLog} {call : NonceCall}
    (known : Remembers call.nonce call.expiry log) : (log.checkAndRecord call).2 ≠ .accepted := by
  intro accepted
  obtain ⟨fresh, dead, _⟩ := checkAndRecord_accepted accepted
  rcases known with ⟨held, found⟩ | passed
  · have stale := dead _ found
    simp [NonceEntry.isLive, fresh] at stale
  · have mark : log.highWater ≤ log.effectiveNow call.nowInput := le_max_left _ _
    omega

/-- The deadline of an accepted spend is as far ahead on the monotonic clock as its expiry is on the wall clock. -/
theorem carrierDeadline_of_accepted {log : NonceLog} {call : NonceCall} {mono : Nat}
    (sampled : call.monoNow = some mono) (spend : call.recordCarrierDeadline = true)
    (accepted : (log.checkAndRecord call).2 = .accepted) :
    (log.checkAndRecord call).1.entries.lookup call.nonce =
      some ⟨call.expiry, some (mono + (call.expiry - log.effectiveNow call.nowInput))⟩ := by
  unfold NonceLog.checkAndRecord at accepted ⊢
  simp only at accepted ⊢
  split_ifs at accepted ⊢ with badLength expired tooFar replayed full
  simp only [NonceLog.acceptedDeadline, sampled, spend, Option.filter_some, if_true, checkedAdd] at accepted ⊢
  split_ifs at accepted ⊢ with fits
  exact AList.lookup_insert _

/-- The acceptance of a channel-mode spend records its deadline. -/
theorem checkAndRecord_spend {log : NonceLog} {call : NonceCall} {mono : Nat} (sampled : call.monoNow = some mono)
    (spend : call.recordCarrierDeadline = true) (accepted : (log.checkAndRecord call).2 = .accepted) :
    ∃ deadline, (log.checkAndRecord call).1.entries.lookup call.nonce = some ⟨call.expiry, some deadline⟩ :=
  ⟨_, carrierDeadline_of_accepted sampled spend accepted⟩

/-- An entry whose deadline is ahead of the sampled clock survives every call. -/
theorem checkAndRecord_keeps {log : NonceLog} {call : NonceCall} {nonce : String} {expiry deadline : Nat}
    (ahead : ∀ mono, call.monoNow = some mono → mono < deadline)
    (found : log.entries.lookup nonce = some ⟨expiry, some deadline⟩) :
    (log.checkAndRecord call).1.entries.lookup nonce = some ⟨expiry, some deadline⟩ := by
  by_cases accepted : (log.checkAndRecord call).2 = .accepted
  · obtain ⟨_, dead, recorded, same⟩ := checkAndRecord_accepted accepted
    have live : (NonceEntry.mk expiry (some deadline)).isLive (log.effectiveNow call.nowInput) call.monoNow =
        true := by
      unfold NonceEntry.isLive
      cases sampled : call.monoNow with
      | none => simp
      | some mono => simp [ahead mono sampled]
    have different : nonce ≠ call.nonce := by
      intro here
      have contrary := dead _ (here ▸ found)
      rw [live] at contrary
      cases contrary
    rw [same]
    show (AList.insert call.nonce _ (retain _ log.entries)).lookup nonce = _
    rw [AList.lookup_insert_ne different, lookup_retain_some]
    exact ⟨found, live⟩
  · rwa [checkAndRecord_refused accepted]

/-- What an accepted request finds of its nonce is dead on the monotonic clock too. -/
theorem deadline_past_of_accepted {log : NonceLog} {call : NonceCall} {mono : Nat}
    (accepted : (log.checkAndRecord call).2 = .accepted) (sampled : call.monoNow = some mono)
    {expiry deadline : Nat}
    (either : deadline ≤ mono ∨ log.entries.lookup call.nonce = some ⟨expiry, some deadline⟩) :
    deadline ≤ mono := by
  rcases either with past | held
  · exact past
  · obtain ⟨_, dead, _⟩ := checkAndRecord_accepted accepted
    have stale := dead _ held
    simp only [NonceEntry.isLive, sampled, Bool.or_eq_false_iff, decide_eq_false_iff_not] at stale
    exact Nat.le_of_not_lt stale.2

/-- The log after a list of calls. -/
def NonceLog.run (log : NonceLog) (calls : List NonceCall) : NonceLog :=
  exec NonceLog.checkAndRecord log calls

/-- A coordinator request is single-use: over any calls from the empty log, with any clock readings,
no `(nonce, expiry)` is accepted twice. -/
theorem nonce_single_use (before between : List NonceCall) (first second : NonceCall)
    (sameNonce : second.nonce = first.nonce) (sameExpiry : second.expiry = first.expiry)
    (accepted : ((NonceLog.empty.run before).checkAndRecord first).2 = .accepted) :
    ((NonceLog.empty.run (before ++ first :: between)).checkAndRecord second).2 ≠ .accepted := by
  apply remembers_refuses
  rw [sameNonce, sameExpiry, NonceLog.run, exec_append, exec_cons]
  exact exec_invariant NonceLog.checkAndRecord (Remembers first.nonce first.expiry)
    (fun log call => remembers_step log call) _ (remembers_accepted accepted) between

/-- A forward step prunes `old`, a backward step follows, and the captured request stays refused. -/
theorem nonce_single_use_rollback :
    ((NonceLog.empty.run
        [⟨"old", 1000, 500, 1000, none, false⟩, ⟨"new", 2000, 1000, 1000, none, false⟩]).checkAndRecord
      ⟨"old", 1000, 600, 1000, none, false⟩).2 ≠ .accepted :=
  nonce_single_use [] [⟨"new", 2000, 1000, 1000, none, false⟩] ⟨"old", 1000, 500, 1000, none, false⟩
    ⟨"old", 1000, 600, 1000, none, false⟩ rfl rfl (by decide)

/-! ### Refusals, capacity and the deadlines of accepted spends -/

theorem foldl_max_mem {α : Type} (weight : α → Nat) (l : List α) (start : Nat) :
    l.foldl (fun through x => max through (weight x)) start = start ∨
      ∃ x ∈ l, l.foldl (fun through x => max through (weight x)) start = weight x := by
  induction l generalizing start with
  | nil => exact Or.inl rfl
  | cons y l ih =>
    rw [List.foldl_cons]
    rcases ih (max start (weight y)) with kept | ⟨x, member, raised⟩
    · rcases max_choice start (weight y) with lower | higher
      · exact Or.inl (kept.trans lower)
      · exact Or.inr ⟨y, List.mem_cons_self, kept.trans higher⟩
    · exact Or.inr ⟨x, List.mem_cons_of_mem _ member, raised⟩

/-- An entry that one log holds and the next one does not. -/
def Forgotten (log after : NonceLog) (entry : NonceEntry) : Prop :=
  ∃ nonce, log.entries.lookup nonce = some entry ∧ after.entries.lookup nonce ≠ some entry

/-- An acceptance forgets what is dead on both clocks, and nothing else. -/
theorem forgotten_iff {log : NonceLog} {call : NonceCall} {deadline : Option Nat}
    (fresh : log.effectiveNow call.nowInput < call.expiry)
    (dead : ∀ entry, log.entries.lookup call.nonce = some entry →
      entry.isLive (log.effectiveNow call.nowInput) call.monoNow = false) (entry : NonceEntry) :
    Forgotten log (log.record call deadline) entry ↔
      entry ∈ (vals log.entries).filter (fun entry => !entry.isLive (log.effectiveNow call.nowInput) call.monoNow) := by
  simp only [List.mem_filter, mem_vals, Bool.not_eq_true']
  constructor
  · rintro ⟨nonce, found, gone⟩
    refine ⟨⟨nonce, found⟩, ?_⟩
    by_cases same : nonce = call.nonce
    · exact dead entry (same ▸ found)
    · cases live : entry.isLive (log.effectiveNow call.nowInput) call.monoNow with
      | false => rfl
      | true =>
        refine absurd ?_ gone
        show (AList.insert call.nonce _ (retain _ log.entries)).lookup nonce = _
        rw [AList.lookup_insert_ne same, lookup_retain_some]
        exact ⟨found, live⟩
  · rintro ⟨⟨nonce, found⟩, stale⟩
    refine ⟨nonce, found, ?_⟩
    intro kept
    have kept : (AList.insert call.nonce _ (retain _ log.entries)).lookup nonce = some entry := kept
    rcases lookup_insert_some.mp kept with ⟨_, recorded⟩ | ⟨_, retained⟩
    · -- The entry just recorded expires after the clock that the forgotten one has reached.
      have passed : ¬log.effectiveNow call.nowInput < entry.expiry := by
        simp only [NonceEntry.isLive, Bool.or_eq_false_iff, decide_eq_false_iff_not] at stale
        exact stale.1
      rw [recorded] at passed
      exact passed fresh
    · have live := (lookup_retain_some.mp retained).2
      rw [stale] at live
      cases live

/-- The mark moves only through an acceptance, and only to the largest expiry that it forgets. -/
theorem highWater_of_checkAndRecord (log : NonceLog) (call : NonceCall) :
    log.highWater ≤ (log.checkAndRecord call).1.highWater ∧
      ((log.checkAndRecord call).1.highWater ≠ log.highWater →
        (log.checkAndRecord call).2 = .accepted ∧
          IsGreatest (Set.image NonceEntry.expiry {entry | Forgotten log (log.checkAndRecord call).1 entry})
            (log.checkAndRecord call).1.highWater) := by
  by_cases accepted : (log.checkAndRecord call).2 = .accepted
  · obtain ⟨fresh, dead, deadline, same⟩ := checkAndRecord_accepted accepted
    rw [same]
    refine ⟨record_highWater_mono log call deadline, ?_⟩
    intro moved
    refine ⟨accepted, ?_, ?_⟩
    · rcases foldl_max_mem NonceEntry.expiry _ log.highWater with kept | ⟨entry, member, raised⟩
      · exact absurd kept moved
      · exact ⟨entry, (forgotten_iff fresh dead entry).mpr member, raised.symm⟩
    · rintro _ ⟨entry, forgotten, rfl⟩
      exact le_foldl_max_of_mem NonceEntry.expiry _ _ entry ((forgotten_iff fresh dead entry).mp forgotten)
  · rw [checkAndRecord_refused accepted]
    exact ⟨le_rfl, fun moved => absurd rfl moved⟩

theorem size_record_le {log : NonceLog} {call : NonceCall} {deadline : Option Nat}
    (room : ((vals log.entries).filter (fun entry =>
      entry.isLive (log.effectiveNow call.nowInput) call.monoNow)).length < maxCoordNonces) :
    size (log.record call deadline).entries ≤ maxCoordNonces := by
  have kept := size_retain_vals
    (fun entry : NonceEntry => entry.isLive (log.effectiveNow call.nowInput) call.monoNow) log.entries
  have grown := size_insert_le call.nonce (NonceEntry.mk call.expiry deadline)
    (retain (fun _ entry => entry.isLive (log.effectiveNow call.nowInput) call.monoNow) log.entries)
  rw [kept] at grown
  exact grown.trans room

/-- A call leaves the log within its capacity. -/
theorem size_of_checkAndRecord {log : NonceLog} (call : NonceCall) (within : size log.entries ≤ maxCoordNonces) :
    size (log.checkAndRecord call).1.entries ≤ maxCoordNonces := by
  unfold NonceLog.checkAndRecord
  simp only
  split_ifs with badLength expired tooFar replayed full
  all_goals try exact within
  cases log.acceptedDeadline call with
  | none => exact within
  | some deadline => exact size_record_le (Nat.lt_of_not_le full)

/-- The monotonic readings of the calls, in order. -/
def readings (calls : List NonceCall) : List Nat := calls.filterMap NonceCall.monoNow

/-- An entry outlives the calls whose readings are all before its deadline. -/
theorem run_keeps {log : NonceLog} {nonce : String} {expiry deadline : Nat} {calls : List NonceCall}
    (found : log.entries.lookup nonce = some ⟨expiry, some deadline⟩)
    (ahead : ∀ mono ∈ readings calls, mono < deadline) :
    (log.run calls).entries.lookup nonce = some ⟨expiry, some deadline⟩ := by
  apply exec_invariant_of NonceLog.checkAndRecord (fun call => ∀ mono, call.monoNow = some mono → mono < deadline)
    (fun log => log.entries.lookup nonce = some ⟨expiry, some deadline⟩)
  · intro log call before found
    exact checkAndRecord_keeps before found
  · exact found
  · intro call member mono sampled
    exact ahead mono (List.mem_filterMap.mpr ⟨call, member, sampled⟩)

/-- A refusal changes nothing, the log stays within its capacity, the mark rises only to the largest expiry an
acceptance forgets, and no nonce of an accepted spend is accepted again before its monotonic deadline. -/
theorem nonce_log_discipline (log : NonceLog) :
    (∀ call, (log.checkAndRecord call).2 ≠ .accepted → (log.checkAndRecord call).1 = log) ∧
      (size log.entries ≤ maxCoordNonces → ∀ calls, size (log.run calls).entries ≤ maxCoordNonces) ∧
      (∀ call, log.highWater ≤ (log.checkAndRecord call).1.highWater ∧
        ((log.checkAndRecord call).1.highWater ≠ log.highWater →
          (log.checkAndRecord call).2 = .accepted ∧
            IsGreatest (Set.image NonceEntry.expiry {entry | Forgotten log (log.checkAndRecord call).1 entry})
              (log.checkAndRecord call).1.highWater)) ∧
      ∀ before first mono, first.monoNow = some mono → first.recordCarrierDeadline = true →
        ((log.run before).checkAndRecord first).2 = .accepted →
        let deadline := mono + (first.expiry - (log.run before).effectiveNow first.nowInput)
        (log.run (before ++ [first])).carrierDeadline first.nonce = some deadline ∧
          ∀ between second later, (readings (before ++ first :: between ++ [second])).Pairwise (· ≤ ·) →
            second.nonce = first.nonce → second.monoNow = some later → later < deadline →
            ((log.run (before ++ first :: between)).checkAndRecord second).2 ≠ .accepted := by
  refine ⟨fun _ => checkAndRecord_refused, ?_, highWater_of_checkAndRecord log, ?_⟩
  · intro within calls
    exact exec_invariant NonceLog.checkAndRecord (fun log => size log.entries ≤ maxCoordNonces)
      (fun _ call => size_of_checkAndRecord call) log within calls
  · intro before first mono sampled spend accepted deadline
    have recorded := carrierDeadline_of_accepted sampled spend accepted
    refine ⟨?_, ?_⟩
    · rw [NonceLog.run, exec_snoc, NonceLog.carrierDeadline]
      exact (congrArg (fun found => found.bind NonceEntry.carrierDeadline) recorded)
    · intro between second later ordered sameNonce sampledLater ahead again
      have below : ∀ reading ∈ readings between, reading ≤ later := by
        intro reading member
        have split : readings (before ++ first :: between ++ [second]) =
            readings (before ++ [first]) ++ (readings between ++ [later]) := by
          simp [readings, sampled, sampledLater]
        rw [split] at ordered
        exact (List.pairwise_append.mp (List.pairwise_append.mp ordered).2.1).2.2 reading member later
          List.mem_cons_self
      have held := run_keeps recorded (fun reading member => (below reading member).trans_lt ahead)
      have sameLog : log.run (before ++ first :: between) =
          ((log.run before).checkAndRecord first).1.run between := by
        rw [NonceLog.run, exec_append, exec_cons]
        rfl
      rw [← sameLog, ← sameNonce] at held
      exact absurd (deadline_past_of_accepted again sampledLater (Or.inr held)) (Nat.not_le_of_lt ahead)

/-- A spend accepted at 100 with 50 seconds to live stays refused at 140, though the wall clock has run past it. -/
theorem nonce_log_discipline_spend :
    ((NonceLog.empty.run [⟨"a", 1050, 1000, 60, some 100, true⟩, ⟨"b", 2050, 2000, 60, some 120, false⟩]).checkAndRecord
      ⟨"a", 2060, 2000, 60, some 140, true⟩).2 ≠ .accepted :=
  ((nonce_log_discipline NonceLog.empty).2.2.2 [] ⟨"a", 1050, 1000, 60, some 100, true⟩ 100 rfl rfl (by decide)).2
    [⟨"b", 2050, 2000, 60, some 120, false⟩] ⟨"a", 2060, 2000, 60, some 140, true⟩ 140 (by decide) rfl rfl (by decide)

end BtcPolicy.Replay
