import BtcPolicy.Lib.Results
import BtcPolicy.Node.Machine

/-! What one hold of the signing lock does to the lockdown flag, the preflight slots and the Hold timers, and what
its answer says about them. -/

namespace BtcPolicy.Node
open FiniteMap Word Bitcoin HotLedger Replay Channel Pin Policy Results PartialStore NodeConfig

/-- The flag, the slots and the Hold timers are as they were. -/
structure Steady (s t : NodeState) : Prop where
  lockdown : t.lockdown = s.lockdown
  slots : t.spendPreflight = s.spendPreflight
  pending : t.sign.pending = s.sign.pending

def Accepts (result : SignResult) : Prop := ∃ accepted, result = .ok (.accepted accepted)

theorem not_accepts_refusal (refused : Refusal) : ¬Accepts (.ok (.refusal refused)) := by
  rintro ⟨_, same⟩
  cases same

theorem not_accepts_error (bad : BadRequest) : ¬Accepts (.error bad) := by
  rintro ⟨_, same⟩
  cases same

namespace Steady

theorem refl (s : NodeState) : Steady s s := ⟨rfl, rfl, rfl⟩

theorem trans {s t u : NodeState} (first : Steady s t) (second : Steady t u) : Steady s u :=
  ⟨second.lockdown.trans first.lockdown, second.slots.trans first.slots, second.pending.trans first.pending⟩

end Steady

section Writes

variable (node : NodeConfig) (s : NodeState)

theorem steady_onStore (op : ChannelState → PartialStore → PartialStore) : Steady s (node.onStore op s) := by
  unfold onStore
  cases node.channel with
  | none => exact Steady.refl s
  | some ch => exact ⟨rfl, rfl, rfl⟩

theorem steady_stageSpendCarrier (request : TaggedRequest) (carrier : String) :
    Steady s (node.stageSpendCarrier request carrier s) := by
  obtain ⟨lockdown, slots, pending⟩ := steady_onStore node { s with outbox := s.outbox ++ [request] }
    (fun ch store => store.markCarrierPropagated ch carrier)
  exact ⟨lockdown, slots, pending⟩

theorem steady_unwindHotReservation (created : Bool) (commitmentId : String) :
    Steady s (node.unwindHotReservation created commitmentId s) := by
  unfold unwindHotReservation
  split_ifs
  · exact steady_onStore node s _
  · exact Steady.refl s

theorem steady_registerPair (pair : RegisterPair) (monoNow : Nat) : Steady s (node.registerPair pair monoNow s).1 := by
  unfold registerPair
  cases node.channel with
  | none => exact Steady.refl s
  | some ch =>
    simp only
    split
    · exact Steady.refl s
    · split <;> exact ⟨rfl, rfl, rfl⟩

/-- The sweep, after the Hold timers that no longer run. -/
theorem pruneLogs_steady (now pruneMono : Nat) :
    Steady { s with sign := { s.sign with pending := PendingLog.prune s.sign.pending now } }
      (node.pruneLogs now pruneMono s) := by
  obtain ⟨lockdown, slots, pending⟩ := steady_onStore node { s with
    sign := { s.sign with
      pending := PendingLog.prune s.sign.pending now
      refreshes := RefreshLog.prune s.sign.refreshes now node.refreshMinIntervalSecs } }
    (fun _ store => store.pruneStore now pruneMono)
  exact ⟨lockdown, slots, pending⟩

theorem steady_dropClaim (claim : Option MemoGuard) (mono : Nat) : Steady s (dropClaim claim mono s) := by
  cases claim with
  | none => exact Steady.refl s
  | some guard => exact ⟨rfl, rfl, rfl⟩

end Writes

/-! ### The spend's registration hold -/

/-- What a judgement may do to the Hold timers: one is installed for an accepted hot spend, and nothing else. -/
inductive Judged (hot : Prop) (commitmentId : String) (expiry : Nat) (s : NodeState) (out : NodeState × SignResult) :
    Prop where
  | hot (hot : hot) (answer : Accepts out.2) (lockdown : out.1.lockdown = s.lockdown)
      (slots : out.1.spendPreflight = s.spendPreflight)
      (recorded : out.1.sign.pending = PendingLog.record s.sign.pending commitmentId expiry)
  | other (calm : hot → ¬Accepts out.2) (steady : Steady s out.1)

/-- A refusal leaves the timers alone. -/
theorem judged_of_steady {hot : Prop} {commitmentId : String} {expiry : Nat} {s t : NodeState} {refused : Refusal}
    (steady : Steady s t) : Judged hot commitmentId expiry s (t, .ok (.refusal refused)) :=
  .other (fun _ => not_accepts_refusal refused) steady

theorem Judged.after {hot : Prop} {commitmentId : String} {expiry : Nat} {s t : NodeState}
    {out : NodeState × SignResult} (steady : Steady s t) (judged : Judged hot commitmentId expiry t out) :
    Judged hot commitmentId expiry s out := by
  cases judged with
  | hot hot answer lockdown slots recorded =>
    refine .hot hot answer (lockdown.trans steady.lockdown) (slots.trans steady.slots) ?_
    rw [recorded, steady.pending]
  | other calm same => exact .other calm (steady.trans same)

section Registration

variable (node : NodeConfig) (s : NodeState) (flight : Flight) (verdict : PinVerdict) (carrier : String)

theorem admitPair_judged (pair : SpendPair) (txClass : TxClass) (outflow fireAt now : Nat) (created : Bool)
    (clock : RegistrationClock) :
    Judged (txClass = .hot) pair.commitmentId flight.request.expiry s
      (node.admitPair flight verdict carrier pair txClass outflow fireAt now created clock s) := by
  have staged := steady_stageSpendCarrier node s (.spend flight.request) carrier
  have registered : ∀ registering u result,
      node.registerPair registering clock.register (node.stageSpendCarrier (.spend flight.request) carrier s) =
        (u, result) → Steady s u := by
    intro registering u result same
    have step := steady_registerPair node (node.stageSpendCarrier (.spend flight.request) carrier s) registering
      clock.register
    rw [same] at step
    exact staged.trans step
  unfold admitPair
  simp only
  split
  · rename_i u refused same
    exact judged_of_steady ((registered _ _ _ same).trans (steady_unwindHotReservation node u created _))
  · rename_i u _ same
    obtain ⟨lockdown, slots, pending⟩ := registered _ _ _ same
    by_cases hot : txClass = .hot
    · refine .hot hot ⟨_, rfl⟩ lockdown slots ?_
      simp only [recordAcceptance, hot, decide_true, if_true]
      rw [pending]
    · refine .other (fun yes => absurd yes hot) ⟨lockdown, slots, ?_⟩
      simp only [recordAcceptance, hot, decide_false, Bool.false_eq_true, if_false]
      exact pending

/-- Validation signs the pair and renames nothing. -/
theorem validatePair_names {pair signed : SpendPair} {txClass : TxClass} {expiry now fireAt : Nat}
    {escapePrevouts : Option PrevoutFetch}
    (valid : node.validatePair pair txClass expiry now escapePrevouts = .ok (signed, fireAt)) :
    signed.commitmentId = pair.commitmentId ∧ signed.escapeCommitmentId = pair.escapeCommitmentId ∧
      signed.acceptedReplayKey = pair.acceptedReplayKey := by
  unfold validatePair at valid
  obtain ⟨_, _, valid⟩ := ok_of_bind valid
  obtain ⟨_, _, valid⟩ := ok_of_bind valid
  obtain ⟨_, _, valid⟩ := ok_of_bind valid
  split_ifs at valid
  · cases valid
  · obtain ⟨fire, _, valid⟩ := ok_of_bind valid
    split at valid
    · cases valid
    · obtain ⟨spend, _, valid⟩ := ok_of_bind valid
      obtain ⟨escape, _, valid⟩ := ok_of_bind valid
      obtain ⟨bumps, _, valid⟩ := ok_of_bind valid
      cases valid
      exact ⟨rfl, rfl, rfl⟩

theorem admitReserved_judged (pair : SpendPair) (classified : Classification) (now : Nat)
    (escapePrevouts : Option PrevoutFetch) (created : Bool) (clock : RegistrationClock) :
    Judged (classified.txClass = .hot) pair.commitmentId flight.request.expiry s
      (node.admitReserved flight verdict carrier pair classified now escapePrevouts created clock s) := by
  unfold admitReserved
  split
  · rename_i refused _
    have unwound := steady_unwindHotReservation node s created pair.commitmentId
    simp only
    split_ifs
    · exact judged_of_steady (unwound.trans (steady_stageSpendCarrier node _ (.spend flight.request) carrier))
    · exact judged_of_steady unwound
  · rename_i signed fireAt valid
    rw [← (validatePair_names node valid).1]
    exact admitPair_judged node s flight verdict carrier signed classified.txClass _ fireAt now created clock

theorem meterSpend_judged (pair : SpendPair) (classified : Classification) (now : Nat)
    (escapePrevouts : Option PrevoutFetch) (clock : RegistrationClock) :
    Judged (classified.txClass = .hot) pair.commitmentId flight.request.expiry s
      (node.meterSpend flight verdict carrier pair classified now escapePrevouts clock s) := by
  unfold meterSpend
  simp only
  generalize (if classified.txClass = .hot ∧ node.channel.isSome then _ else (s.store, Except.ok false)) = reserved
  have written : Steady s { s with store := reserved.1 } := ⟨rfl, rfl, rfl⟩
  split
  · exact judged_of_steady (written.trans (steady_stageSpendCarrier node _ (.spend flight.request) carrier))
  · exact (admitReserved_judged node _ flight verdict carrier pair classified now escapePrevouts _ clock).after written

/-- The spend is of the hot class by the policy's own reading of it. -/
def SpendsHot (node : NodeConfig) (pair : SpendPair) : Prop :=
  ∃ classified, node.rules.classify pair.spend = .ok classified ∧ classified.txClass = .hot

theorem judgeSpend_judged (pair : SpendPair) (now : Nat) (spendPrevouts escapePrevouts : Option PrevoutFetch)
    (clock : RegistrationClock) :
    Judged (SpendsHot node pair) pair.commitmentId flight.request.expiry s
      (node.judgeSpend flight verdict carrier pair now spendPrevouts escapePrevouts clock s) := by
  have recorded : ∀ {refused t}, Steady s t → Judged (SpendsHot node pair) pair.commitmentId flight.request.expiry s
      (recordRefusal pair flight.request.expiry refused t) := fun steady =>
    judged_of_steady ⟨steady.lockdown, steady.slots, steady.pending⟩
  unfold judgeSpend
  simp only
  split
  · split_ifs
    · exact recorded (steady_stageSpendCarrier node s (.spend flight.request) carrier)
    · exact recorded (Steady.refl s)
  · split
    · exact recorded (Steady.refl s)
    · rename_i classified known
      split_ifs with refresh
      · exact recorded (Steady.refl s)
      · have hot : SpendsHot node pair ↔ classified.txClass = .hot := by
          constructor
          · rintro ⟨other, same, hot⟩
            rw [known, Except.ok.injEq] at same
            rw [same]
            exact hot
          · exact fun hot => ⟨classified, known, hot⟩
        rw [hot]
        exact meterSpend_judged node s flight verdict carrier pair classified now escapePrevouts clock

/-- The verdict the cache holds for the identities of a request. -/
def cachedVerdict (replay : ReplayLog) (acceptedReplayKey commitmentId : String) (now : Nat) : Option SignResponse :=
  (ReplayLog.get replay acceptedReplayKey now).or (ReplayLog.get replay commitmentId now)

/-- Pruning drops nothing that the cache would still answer. -/
theorem get_prune (replay : ReplayLog) (key : String) (now : Nat) :
    ReplayLog.get (ReplayLog.prune replay now) key now = ReplayLog.get replay key now := by
  unfold ReplayLog.get ReplayLog.prune
  rw [lookup_retain, Option.filter_filter]
  simp

/-- The registration hold admits a hot spend under `commitmentId`: the request decodes to it, the cache does not know
it, and the answer accepts it. -/
def AdmitsHot (node : NodeConfig) (request : SignRequest) (now : Nat) (s : NodeState) (result : SignResult)
    (commitmentId : String) : Prop :=
  ∃ pair, node.decodePair request = .ok pair ∧ pair.commitmentId = commitmentId ∧
    cachedVerdict s.sign.replay pair.acceptedReplayKey pair.commitmentId now = none ∧ SpendsHot node pair ∧
    Accepts result

/-- What a registration hold may do to the Hold timers: an admission installs one after the sweep, and anything
else at most sweeps. -/
structure Timed (admits : String → Prop) (expiry now : Nat) (s t : NodeState) : Prop where
  lockdown : t.lockdown = s.lockdown
  slots : t.spendPreflight = s.spendPreflight
  timers : (∃ id, admits id ∧
      t.sign.pending = PendingLog.record (PendingLog.prune s.sign.pending now) id expiry) ∨
    (∀ id, ¬admits id) ∧
      (t.sign.pending = PendingLog.prune s.sign.pending now ∨ t.sign.pending = s.sign.pending)

theorem timed_of_steady {admits : String → Prop} {expiry now : Nat} {s t : NodeState} (calm : ∀ id, ¬admits id)
    (steady : Steady s t) : Timed admits expiry now s t :=
  ⟨steady.lockdown, steady.slots, .inr ⟨calm, .inr steady.pending⟩⟩

theorem steady_replayAccepted (pair : SpendPair) (now : Nat) :
    Steady s (node.replayAccepted flight verdict carrier pair now s) :=
  (steady_onStore node s _).trans (steady_stageSpendCarrier node _ (.spend flight.request) carrier)

theorem answerPair_timed {pair : SpendPair} (decoded : node.decodePair flight.request = .ok pair) (now : Nat)
    {spendPrevouts escapePrevouts : Option PrevoutFetch} (clock : RegistrationClock)
    (fetched : ∀ refused, nodeLocalPrevoutFetchFailure spendPrevouts escapePrevouts = some refused →
      ¬Accepts (.ok refused)) :
    Timed (AdmitsHot node flight.request now s
        (node.answerPair flight verdict carrier pair now spendPrevouts escapePrevouts clock s).2)
      flight.request.expiry now s
      (node.answerPair flight verdict carrier pair now spendPrevouts escapePrevouts clock s).1 := by
  have same : ∀ {other}, node.decodePair flight.request = .ok other → other = pair := fun known =>
    Except.ok.inj (known.symm.trans decoded)
  have pruned : Steady s { s with sign := { s.sign with replay := ReplayLog.prune s.sign.replay now } } :=
    ⟨rfl, rfl, rfl⟩
  unfold answerPair
  simp only [get_prune]
  cases hit : ReplayLog.get s.sign.replay pair.acceptedReplayKey now with
  | some recorded =>
    refine timed_of_steady ?_ (pruned.trans (steady_replayAccepted node _ flight verdict carrier pair now))
    rintro id ⟨other, known, _, unknown, _⟩
    rw [same known] at unknown
    simp [cachedVerdict, hit] at unknown
  | none =>
    cases hitToo : ReplayLog.get s.sign.replay pair.commitmentId now with
    | some recorded =>
      refine timed_of_steady ?_ pruned
      rintro id ⟨other, known, _, unknown, _⟩
      rw [same known] at unknown
      simp [cachedVerdict, hit, hitToo] at unknown
    | none =>
      cases failed : nodeLocalPrevoutFetchFailure spendPrevouts escapePrevouts with
      | some refused =>
        refine timed_of_steady ?_ (pruned.trans
          (steady_stageSpendCarrier node _ (.spend flight.request) carrier))
        rintro id ⟨_, _, _, _, _, accepts⟩
        exact fetched refused failed accepts
      | none =>
        have unknown : cachedVerdict s.sign.replay pair.acceptedReplayKey pair.commitmentId now = none := by
          simp [cachedVerdict, hit, hitToo]
        have swept := pruneLogs_steady node { s with
          sign := { s.sign with replay := ReplayLog.prune s.sign.replay now } } now clock.prune
        have judged := (judgeSpend_judged node _ flight verdict carrier pair now spendPrevouts escapePrevouts
          clock).after swept
        cases judged with
        | hot hot answer lockdown slots recorded =>
          exact ⟨lockdown, slots, .inl ⟨pair.commitmentId, ⟨pair, decoded, rfl, unknown, hot, answer⟩, recorded⟩⟩
        | other calm steady =>
          refine ⟨steady.lockdown, steady.slots, .inr ⟨?_, .inl steady.pending⟩⟩
          rintro id ⟨other, known, _, _, hot, accepts⟩
          rw [same known] at hot
          exact calm hot accepts

/-- A request that does not decode is not accepted. -/
theorem not_accepts_of_decodePair {request : SignRequest} {result : SignResult}
    (undecoded : node.decodePair request = .error result) : ¬Accepts result := by
  unfold decodePair at undecoded
  split at undecoded
  · cases undecoded
    exact not_accepts_error _
  · split at undecoded
    · cases undecoded
      exact not_accepts_error _
    · simp only at undecoded
      split_ifs at undecoded
      · cases undecoded
        exact not_accepts_refusal _
      · split at undecoded
        · cases undecoded
          exact not_accepts_error _
        · cases undecoded

/-- The flag, the slots and the timers over the whole hold. -/
theorem registrationHold_timed {spendPrevouts escapePrevouts : Option PrevoutFetch} (clock : RegistrationClock)
    (fetched : ∀ refused, nodeLocalPrevoutFetchFailure spendPrevouts escapePrevouts = some refused →
      ¬Accepts (.ok refused)) :
    Timed (AdmitsHot node flight.request (s.sign.coordNonces.effectiveNow clock.wall) s
        (node.registrationHold flight verdict carrier spendPrevouts escapePrevouts clock s).2)
      flight.request.expiry (s.sign.coordNonces.effectiveNow clock.wall) s
      (node.registrationHold flight verdict carrier spendPrevouts escapePrevouts clock s).1 := by
  have refused : ∀ {result : SignResult}, ¬Accepts result → ∀ id,
      ¬AdmitsHot node flight.request (s.sign.coordNonces.effectiveNow clock.wall) s result id := by
    rintro result calm id ⟨_, _, _, _, _, accepts⟩
    exact calm accepts
  unfold registrationHold
  split_ifs
  · exact timed_of_steady (refused (not_accepts_refusal _)) (Steady.refl s)
  · simp only
    split
    · exact timed_of_steady (refused (not_accepts_refusal _))
        (steady_stageSpendCarrier node s (.spend flight.request) carrier)
    · split
      · rename_i undecoded
        exact timed_of_steady (refused (not_accepts_of_decodePair node undecoded)) (Steady.refl s)
      · rename_i decoded
        exact answerPair_timed node s flight verdict carrier decoded _ clock fetched

/-- The chain's replies fail as refusals. -/
theorem prefetch_refuses (request : SignRequest) (replies : Option (ChainReply × ChainReply)) (refused : SignResponse)
    (failed : nodeLocalPrevoutFetchFailure (node.prefetchSpendEscapePrevouts request replies).1
      (node.prefetchSpendEscapePrevouts request replies).2 = some refused) : ¬Accepts (.ok refused) := by
  rintro ⟨accepted, same⟩
  cases same
  have refuses : ∀ psbt reply, fetchPrevouts psbt reply ≠ .error (.accepted accepted) := by
    intro psbt reply same
    unfold fetchPrevouts at same
    split at same
    · cases same
    · simp only at same
      split_ifs at same
      cases same
  have fetches : ∀ (text field : String) reply,
      (node.decodePsbt text field).toOption.map (fun psbt => fetchPrevouts psbt reply) ≠
        some (.error (.accepted accepted)) := by
    intro text field reply same
    obtain ⟨psbt, _, same⟩ := Option.map_eq_some_iff.mp same
    exact refuses psbt reply same
  unfold nodeLocalPrevoutFetchFailure prefetchSpendEscapePrevouts at failed
  cases replies with
  | none => cases failed
  | some replies =>
    simp only at failed
    split at failed
    · rename_i same
      cases failed
      exact fetches _ _ _ same
    · cases failed
    · rename_i same _
      cases failed
      exact fetches _ _ _ same
    · cases failed

end Registration

/-! ### The refresh's registration hold -/

section Refresh

variable (node : NodeConfig) (s : NodeState) (request : RefreshRequest) (candidate : RefreshCandidate)

theorem steady_admitRefresh (now registerMono : Nat) : Steady s (node.admitRefresh request candidate now registerMono s).1 := by
  unfold admitRefresh
  split
  · exact Steady.refl s
  · rename_i refresh _
    simp only
    have registered : ∀ registering t result, node.registerPair registering registerMono s = (t, result) →
        Steady s t := by
      intro registering t result same
      have step := steady_registerPair node s registering registerMono
      rw [same] at step
      exact step
    split
    · rename_i same
      exact registered _ _ _ same
    · rename_i same
      obtain ⟨lockdown, slots, pending⟩ := registered _ _ _ same
      exact ⟨lockdown, slots, pending⟩

/-- No hot spend waits at `now` and no spend is in flight. -/
structure Unopposed (s : NodeState) (now : Nat) : Prop where
  pending : PendingLog.hasAny s.sign.pending now = false
  slots : s.spendPreflight = 0

/-- The judgement of a refresh touches neither the timers nor the slots, and accepts only unopposed. -/
structure Yields (s : NodeState) (now : Nat) (out : NodeState × SignResult) : Prop where
  steady : Steady s out.1
  unopposed : Accepts out.2 → Unopposed s now

theorem yields_refusal {s t : NodeState} {now : Nat} {refused : Refusal} (steady : Steady s t) :
    Yields s now (t, .ok (.refusal refused)) :=
  ⟨steady, fun accepts => absurd accepts (not_accepts_refusal refused)⟩

theorem boundRefresh_yields (now registerMono : Nat) :
    Yields s now (node.boundRefresh request candidate now registerMono s) := by
  unfold boundRefresh
  split_ifs with opposed
  · exact yields_refusal (Steady.refl s)
  · simp only [Bool.or_eq_true, decide_eq_true_eq, not_or, Bool.not_eq_true, not_lt, Nat.le_zero] at opposed
    split
    · exact yields_refusal (Steady.refl s)
    · split
      · exact yields_refusal (Steady.refl s)
      · exact ⟨steady_admitRefresh node s request candidate now registerMono, fun _ => ⟨opposed.1, opposed.2⟩⟩

theorem judgeRefresh_yields (now : Nat) (prevouts : Option PrevoutFetch) (registerMono : Nat) :
    Yields s now (node.judgeRefresh request candidate now prevouts registerMono s) := by
  have recorded : ∀ refused, Yields s now (recordRefreshRefusal request candidate refused s) := fun refused =>
    yields_refusal ⟨rfl, rfl, rfl⟩
  unfold judgeRefresh
  split
  · exact recorded _
  · split
    · exact recorded _
    · split_ifs
      · exact boundRefresh_yields node s request candidate now registerMono
      · exact recorded _

/-- The registration hold admits the refresh: the request decodes, the cache does not know it, and the answer
accepts it. -/
def AdmitsRefresh (node : NodeConfig) (request : RefreshRequest) (now : Nat) (s : NodeState) (result : SignResult) :
    Prop :=
  ∃ refresh, node.decodePsbt request.refreshPsbt "refresh" = .ok refresh ∧
    cachedVerdict s.sign.replay
      (node.acceptanceReplayKey [(node.rules.commitmentId refresh request.expiry, refresh)])
      (node.rules.commitmentId refresh request.expiry) now = none ∧
    Accepts result

/-- The sweep leaves exactly the timers that still run. -/
theorem hasAny_prune (pending : PendingLog) (now : Nat) :
    PendingLog.hasAny (PendingLog.prune pending now) now = PendingLog.hasAny pending now := by
  rw [Bool.eq_iff_iff]
  simp only [PendingLog.hasAny, List.any_eq_true, mem_vals, decide_eq_true_eq, PendingLog.prune, lookup_retain_some]
  constructor
  · rintro ⟨expiry, ⟨id, here, _⟩, live⟩
    exact ⟨expiry, ⟨id, here⟩, live⟩
  · rintro ⟨expiry, ⟨id, here⟩, live⟩
    exact ⟨expiry, ⟨id, here, live⟩, live⟩

/-- What a refresh's registration hold does to the flag, the slots and the timers, and when it admits. -/
structure Subordinate (admits : Prop) (now : Nat) (s t : NodeState) : Prop where
  lockdown : t.lockdown = s.lockdown
  slots : t.spendPreflight = s.spendPreflight
  timers : t.sign.pending = PendingLog.prune s.sign.pending now ∨ t.sign.pending = s.sign.pending
  unopposed : admits → Unopposed s now

theorem subordinate_of_steady {admits : Prop} {now : Nat} {s t : NodeState} (calm : ¬admits) (steady : Steady s t) :
    Subordinate admits now s t :=
  ⟨steady.lockdown, steady.slots, .inr steady.pending, fun admits => absurd admits calm⟩

theorem answerRefresh_subordinate {refresh : Psbt}
    (decoded : node.decodePsbt request.refreshPsbt "refresh" = .ok refresh) (now : Nat)
    (prevouts : Option PrevoutFetch) (clock : RegistrationClock) :
    let id := node.rules.commitmentId refresh request.expiry
    let out := node.answerRefresh request ⟨refresh, id, node.acceptanceReplayKey [(id, refresh)]⟩ now prevouts clock s
    Subordinate (AdmitsRefresh node request now s out.2) now s out.1 := by
  intro id
  have same : ∀ {other}, node.decodePsbt request.refreshPsbt "refresh" = .ok other → other = refresh := fun known =>
    Except.ok.inj (known.symm.trans decoded)
  unfold answerRefresh
  simp only [get_prune]
  cases hit : ReplayLog.get s.sign.replay (node.acceptanceReplayKey [(id, refresh)]) now with
  | some recorded =>
    refine subordinate_of_steady ?_ ⟨rfl, rfl, rfl⟩
    rintro ⟨other, known, unknown, _⟩
    rw [same known] at unknown
    simp [cachedVerdict, id, hit] at unknown
  | none =>
    cases hitToo : ReplayLog.get s.sign.replay id now with
    | some recorded =>
      refine subordinate_of_steady ?_ ⟨rfl, rfl, rfl⟩
      rintro ⟨other, known, unknown, _⟩
      rw [same known] at unknown
      simp [cachedVerdict, id, hit, hitToo] at unknown
    | none =>
      have swept := pruneLogs_steady node { s with
        sign := { s.sign with replay := ReplayLog.prune s.sign.replay now } } now clock.prune
      have judged := judgeRefresh_yields node (node.pruneLogs now clock.prune { s with
        sign := { s.sign with replay := ReplayLog.prune s.sign.replay now } }) request
        ⟨refresh, id, node.acceptanceReplayKey [(id, refresh)]⟩ now prevouts clock.register
      have steady := swept.trans judged.steady
      refine ⟨steady.lockdown, steady.slots, .inl steady.pending, ?_⟩
      rintro ⟨_, _, _, accepts⟩
      obtain ⟨pending, slots⟩ := judged.unopposed accepts
      rw [swept.pending] at pending
      rw [swept.slots] at slots
      exact ⟨(hasAny_prune s.sign.pending now).symm.trans pending, slots⟩

theorem refreshRegistrationHold_subordinate (prevouts : Option PrevoutFetch) (clock : RegistrationClock) :
    Subordinate (AdmitsRefresh node request (s.sign.coordNonces.effectiveNow clock.wall) s
        (node.refreshRegistrationHold request prevouts clock s).2)
      (s.sign.coordNonces.effectiveNow clock.wall) s (node.refreshRegistrationHold request prevouts clock s).1 := by
  have refused : ∀ {result : SignResult}, ¬Accepts result →
      ¬AdmitsRefresh node request (s.sign.coordNonces.effectiveNow clock.wall) s result := by
    rintro result calm ⟨_, _, _, accepts⟩
    exact calm accepts
  unfold refreshRegistrationHold
  split_ifs
  · exact subordinate_of_steady (refused (not_accepts_refusal _)) (Steady.refl s)
  · simp only
    split_ifs
    · exact subordinate_of_steady (refused (not_accepts_refusal _)) (Steady.refl s)
    · split
      · exact subordinate_of_steady (refused (not_accepts_error _)) (Steady.refl s)
      · rename_i decoded
        exact answerRefresh_subordinate node s request decoded _ prevouts clock

end Refresh

end BtcPolicy.Node
