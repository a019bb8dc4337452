import BtcPolicy.Node.Holds

/-! A refresh yields to every spend. The slots count the spends between their ingress and their registration, the
Hold timers the hot spends after it, and a refresh is admitted where both are empty. -/

namespace BtcPolicy.Node
open FiniteMap Word Bitcoin HotLedger Replay Channel Pin Policy Runs PartialStore NodeConfig

/-! ### Slots -/

/-- The slot a request holds in the phase: one from its ingress hold until it gives it back. -/
def Phase.slot : Phase → Nat
  | .windowA _ | .windowB _ | .leaving _ _ | .unclaimed _ | .backoff _ _ => 1
  | _ => 0

/-- How far a request has come on its way to its registration. -/
def Phase.rank : Phase → Nat
  | .arrived => 1
  | .windowA _ => 2
  | .windowB _ => 3
  | _ => 4

theorem Phase.one_le_rank (phase : Phase) : 1 ≤ phase.rank := by
  cases phase <;> simp [Phase.rank]

namespace World

def phaseOf (w : World) (thread : Nat) : Option Phase := (w.threads.lookup thread).map Thread.phase

/-- Zero before the request has arrived. -/
def rankOf (w : World) (thread : Nat) : Nat := ((w.phaseOf thread).map Phase.rank).getD 0

/-- The slots that the requests in flight hold. -/
def slotsHeld (w : World) : Nat := total (fun thread => thread.phase.slot) w.threads

end World

/-- What a section does to the flag and to the slots, and how far it moves the request. -/
structure Moves (s t : NodeState) (before after : Phase) : Prop where
  lockdown : t.lockdown = s.lockdown
  slots : before.slot ≤ s.spendPreflight → t.spendPreflight + before.slot = s.spendPreflight + after.slot
  rank : before.rank ≤ after.rank
  timers : (∀ flight, before ≠ .windowB flight) → before ≠ .refreshWindow → t.sign.pending = s.sign.pending

section Sections

variable (node : NodeConfig) (s : NodeState)

/-- A section of a request that holds no slot before or after. -/
theorem moves_of_steady {t : NodeState} {before after : Phase} (steady : Steady s t)
    (slot : before.slot = after.slot) (rank : before.rank ≤ after.rank) : Moves s t before after := by
  refine ⟨steady.lockdown, fun _ => ?_, rank, fun _ _ => steady.pending⟩
  rw [steady.slots, slot]

theorem ingressSection_moves (request : TaggedRequest) (wall mono : Nat) :
    Moves s (node.ingressSection request wall mono s).1 .arrived (node.ingressSection request wall mono s).2 := by
  cases request with
  | spend request =>
    unfold ingressSection ingressHold
    simp only
    split_ifs
    · exact moves_of_steady s (Steady.refl s) rfl (Phase.one_le_rank _)
    · split
      · exact moves_of_steady s ⟨rfl, rfl, rfl⟩ rfl (Phase.one_le_rank _)
      · split
        · exact moves_of_steady s ⟨rfl, rfl, rfl⟩ rfl (Phase.one_le_rank _)
        · split
          · exact moves_of_steady s ⟨rfl, rfl, rfl⟩ rfl (Phase.one_le_rank _)
          · cases node.channel with
            | none => exact ⟨rfl, fun _ => rfl, Phase.one_le_rank _, fun _ _ => rfl⟩
            | some ch => exact ⟨rfl, fun _ => rfl, Phase.one_le_rank _, fun _ _ => rfl⟩
  | refresh request =>
    unfold ingressSection refreshIngressHold
    simp only
    split_ifs
    · exact moves_of_steady s (Steady.refl s) rfl (Phase.one_le_rank _)
    · split
      · exact moves_of_steady s ⟨rfl, rfl, rfl⟩ rfl (Phase.one_le_rank _)
      · split
        · exact moves_of_steady s ⟨rfl, rfl, rfl⟩ rfl (Phase.one_le_rank _)
        · exact moves_of_steady s ⟨rfl, rfl, rfl⟩ rfl (Phase.one_le_rank _)

theorem steady_fireArmHook (verdict : PinVerdict) (carrier : String) (flight : Flight) (now : Nat) :
    Steady s (node.fireArmHook verdict carrier flight now s).1 := by
  unfold fireArmHook
  cases flight.generation with
  | none => exact ⟨rfl, rfl, rfl⟩
  | some generation => exact ⟨rfl, rfl, rfl⟩

theorem steady_commitHold (flight : Flight) (verdict : PinVerdict) (carrier : String) (wall : Nat) :
    Steady s (node.commitHold flight verdict carrier wall s).1 := by
  have hooked := steady_fireArmHook node s verdict carrier flight (s.sign.coordNonces.effectiveNow wall)
  unfold commitHold
  split_ifs
  · exact Steady.refl s
  · simp only
    split
    · exact hooked.trans (steady_stageSpendCarrier node _ (.spend flight.request) carrier)
    · obtain ⟨lockdown, slots, pending⟩ := hooked
      split_ifs
      · obtain ⟨lockdown', slots', pending'⟩ := steady_stageSpendCarrier node _ (.spend flight.request) carrier
        exact ⟨lockdown'.trans lockdown, slots'.trans slots, pending'.trans pending⟩
      · exact ⟨lockdown, slots, pending⟩

theorem commitSection_moves (flight : Flight) (wall : Nat) :
    Moves s (node.commitSection flight wall s).1 (.windowA flight) (node.commitSection flight wall s).2 := by
  apply moves_of_steady s (steady_commitHold node s flight _ _ wall)
  · unfold commitSection
    simp only
    split <;> rfl
  · unfold commitSection
    simp only
    split <;> simp [Phase.rank]

theorem registerSection_moves (flight : Flight) (replies : Option (ChainReply × ChainReply))
    (clock : RegistrationClock) :
    Moves s (node.registerSection flight replies clock s).1 (.windowB flight)
      (node.registerSection flight replies clock s).2 := by
  have timed := registrationHold_timed node s flight
    (pinVerdict (node.rules.verifyPin flight.request.pin) flight.request) (node.carrierOf flight.request) clock
    (prefetch_refuses node flight.request replies)
  exact ⟨timed.lockdown, fun _ => congrArg (· + 1) timed.slots, by simp [Phase.rank, registerSection],
    fun other => absurd rfl (other flight)⟩

theorem refreshRegisterSection_moves (request : RefreshRequest) (reply : Option ChainReply)
    (clock : RegistrationClock) :
    Moves s (node.refreshRegisterSection request reply clock s).1 .refreshWindow
      (node.refreshRegisterSection request reply clock s).2 := by
  have held := refreshRegistrationHold_subordinate node s request (node.prefetchRefreshPrevouts request reply) clock
  exact ⟨held.lockdown, fun _ => held.slots, by simp [Phase.rank, refreshRegisterSection],
    fun _ other => absurd rfl other⟩

theorem steady_outerStaleClassify (ch : ChannelState) (request : SignRequest) (sender now mono : Nat)
    (step : OuterStaleStep) : Steady s (node.outerStaleClassify ch request sender now mono step s).1 := by
  unfold outerStaleClassify
  split_ifs
  · exact Steady.refl s
  · split
    · exact Steady.refl s
    · exact ⟨rfl, rfl, rfl⟩

/-- A request whose receipt or stale envelope is looked at holds no slot and is past its registration. -/
def Phase.done (phase : Phase) : Prop := phase.slot = 0 ∧ phase.rank = 4

theorem receiptPhase_done (result : SignResult) (found : CarrierMemoLookup) : (receiptPhase result found).done := by
  cases found <;> exact ⟨rfl, rfl⟩

theorem recordedPhase_done (result : SignResult) (found : CarrierMemoLookup) : (recordedPhase result found).done := by
  cases found <;> exact ⟨rfl, rfl⟩

theorem claimDerivationSection_done (request : SignRequest) (sender : Nat) (result : SignResult) (carrier : String)
    (generation : MemoGeneration) (reserved : Bool) :
    Steady s (claimDerivationSection request sender result carrier generation reserved s).1 ∧
      (claimDerivationSection request sender result carrier generation reserved s).2.done := by
  unfold claimDerivationSection
  split_ifs
  · refine ⟨⟨rfl, rfl, rfl⟩, ?_⟩
    simp only
    split_ifs <;> exact ⟨rfl, rfl⟩
  · exact ⟨Steady.refl s, rfl, rfl⟩

theorem recordDerivationSection_done (request : SignRequest) (sender : Nat) (result : SignResult) (carrier : String)
    (generation : MemoGeneration) :
    Steady s (node.recordDerivationSection request sender result carrier generation s).1 ∧
      (node.recordDerivationSection request sender result carrier generation s).2.done := by
  unfold recordDerivationSection
  split_ifs
  · refine ⟨⟨rfl, rfl, rfl⟩, ?_⟩
    simp only
    split_ifs <;> exact ⟨rfl, rfl⟩
  · exact ⟨Steady.refl s, rfl, rfl⟩

theorem confirmSection_done (sender : Nat) (result : SignResult) (carrier : String) (now mono : Nat) :
    Steady s (node.confirmSection sender result carrier now mono s).1 ∧
      (node.confirmSection sender result carrier now mono s).2.done := by
  refine ⟨⟨rfl, rfl, rfl⟩, ?_⟩
  unfold confirmSection
  simp only
  split_ifs <;> exact ⟨rfl, rfl⟩

theorem staleInspectSection_done (ch : ChannelState) (request : TaggedRequest) (sender : Nat) (reserved : Bool)
    (now mono nowAgain monoAgain : Nat) :
    Steady s (node.staleInspectSection ch request sender reserved now mono nowAgain monoAgain s).1 ∧
      (node.staleInspectSection ch request sender reserved now mono nowAgain monoAgain s).2.done := by
  cases request with
  | refresh request => exact ⟨Steady.refl s, rfl, rfl⟩
  | spend request =>
    have inspected := steady_outerStaleClassify node s ch request sender now mono (.inspect false)
    unfold staleInspectSection
    simp only
    split
    · split
      · split
        · refine ⟨inspected.trans (steady_outerStaleClassify node _ ch request sender nowAgain monoAgain _), ?_⟩
          simp only
          split <;> exact ⟨rfl, rfl⟩
        · exact ⟨inspected, rfl, rfl⟩
      · exact ⟨inspected, rfl, rfl⟩
    · exact ⟨Steady.refl s, rfl, rfl⟩

/-- Between two phases without a slot, the later of them past its registration. -/
theorem moves_of_done {t : NodeState} {before after : Phase} (steady : Steady s t) (slot : before.slot = 0)
    (done : after.done) : Moves s t before after := by
  apply moves_of_steady s steady
  · rw [slot, done.1]
  · rw [done.2]
    cases before <;> simp [Phase.rank]

end Sections

/-- Every section of every request. -/
theorem advance_moves {node : NodeConfig} {thread : Thread} {s t : NodeState} {step : Section} {phase : Phase}
    (taken : node.advance thread s step = some (t, phase)) : Moves s t thread.phase phase := by
  cases advanced_of_advance taken with
  | ingress origin request wall mono fresh => exact ingressSection_moves node s request wall mono
  | push origin request response => exact moves_of_done s ⟨rfl, rfl, rfl⟩ rfl ⟨rfl, rfl⟩
  | commit origin request flight wall => exact commitSection_moves node s flight wall
  | register origin request flight replies clock => exact registerSection_moves node s flight replies clock
  | refreshRegister origin request reply clock => exact refreshRegisterSection_moves node s request reply clock
  | dropClaim origin request result claim mono =>
    exact moves_of_steady s (steady_dropClaim s claim mono) rfl (le_refl _)
  | wake origin request response claim mono => exact moves_of_done s (steady_dropClaim s claim mono) rfl ⟨rfl, rfl⟩
  | dropSlot | sleep =>
    -- The two sections that give a slot back.
    refine ⟨rfl, fun covered => ?_, le_rfl, fun _ _ => rfl⟩
    simp only [exitSpendPreflight, Phase.slot] at covered ⊢
    omega
  | receiptGuard sender request result =>
    refine moves_of_done s (Steady.refl s) rfl ?_
    split_ifs <;> exact ⟨rfl, rfl⟩
  | refreshReply sender request result => exact moves_of_done s (Steady.refl s) rfl ⟨rfl, rfl⟩
  | receiptLookup ch mounted sender request result now mono =>
    exact moves_of_done s (Steady.refl s) rfl (receiptPhase_done _ _)
  | recordedLookup ch mounted sender request result now mono =>
    exact moves_of_done s (Steady.refl s) rfl (recordedPhase_done _ _)
  | claimDerivation sender request result carrier generation reserved =>
    obtain ⟨steady, done⟩ := claimDerivationSection_done s request sender result carrier generation reserved
    exact moves_of_done s steady rfl done
  | recordDerivation sender request result carrier generation =>
    obtain ⟨steady, done⟩ := recordDerivationSection_done node s request sender result carrier generation
    exact moves_of_done s steady rfl done
  | confirm sender request result carrier now mono =>
    obtain ⟨steady, done⟩ := confirmSection_done node s sender result carrier now mono
    exact moves_of_done s steady rfl done
  | staleInspect ch mounted sender request reserved now mono nowAgain monoAgain =>
    obtain ⟨steady, done⟩ :=
      staleInspectSection_done node s ch request sender reserved now mono nowAgain monoAgain
    exact moves_of_done s steady rfl done
  | staleFinish ch mounted sender request carrier generation now mono =>
    exact moves_of_done s (steady_outerStaleClassify node s ch request sender now mono _) rfl ⟨rfl, rfl⟩

/-! ### The machine -/

section Machine

variable (node : NodeConfig)

/-- What an operation of the machine does to the requests: nothing, a new one, or a section of one of them. -/
theorem nodeStep_cases (w : World) (op : NodeOp) :
    (node.nodeStep w op).1.threads = w.threads ∧
        (node.nodeStep w op).1.node.spendPreflight = w.node.spendPreflight ∧
        (w.node.lockdown = true → (node.nodeStep w op).1.node.lockdown = true) ∨
      (∃ thread origin request, op = .arrive thread origin request ∧ w.threads.lookup thread = none ∧
        (node.nodeStep w op).1 =
          { w with threads := w.threads.insert thread ⟨origin, request, node.arrival origin w.node⟩ }) ∨
      ∃ thread step held s phase, op = .advance thread step ∧ w.threads.lookup thread = some held ∧
        node.advance held w.node step = some (s, phase) ∧
        (node.nodeStep w op).1 =
          { w with node := s, threads := adjust thread (fun held => { held with phase := phase }) w.threads } := by
  cases op with
  | arrive thread origin request =>
    cases known : w.threads.lookup thread with
    | some held => exact .inl (by simp [nodeStep, known])
    | none => exact .inr (.inl ⟨thread, origin, request, rfl, known, by simp [nodeStep, known]⟩)
  | advance thread step =>
    cases known : w.threads.lookup thread with
    | none => exact .inl (by simp [nodeStep, known])
    | some held =>
      cases taken : node.advance held w.node step with
      | none => exact .inl (by simp [nodeStep, known, taken])
      | some out =>
        obtain ⟨s, phase⟩ := out
        exact .inr (.inr ⟨thread, step, held, s, phase, rfl, known, taken, by simp [nodeStep, known, taken]⟩)
  | enterLockdown => exact .inl ⟨rfl, rfl, fun _ => rfl⟩
  | settleRead key id =>
    left
    simp only [nodeStep]
    split_ifs <;> exact ⟨rfl, rfl, fun locked => locked⟩
  | settleMark key armed =>
    left
    simp only [nodeStep]
    split <;> exact ⟨rfl, rfl, fun locked => locked⟩
  | settleRelease key =>
    left
    simp only [nodeStep]
    split <;> exact ⟨rfl, rfl, fun locked => locked⟩
  | background op =>
    have steady := steady_onStore node w.node (fun ch store => (storeStep ch store op).1)
    exact .inl ⟨rfl, steady.slots, fun locked => steady.lockdown.trans locked⟩

/-- A request that has just arrived holds no slot. -/
theorem arrival_slot (origin : Origin) (s : NodeState) : (node.arrival origin s).slot = 0 := by
  unfold arrival
  cases origin with
  | direct => split_ifs <;> rfl
  | relayed sender => split_ifs <;> rfl
  | outerStale sender => split_ifs <;> rfl

theorem nodeAfter_append (s : NodeState) (before after : List NodeOp) :
    node.nodeAfter s (before ++ after) = exec node.nodeStep (node.nodeAfter s before) after :=
  exec_append node.nodeStep _ before after

/-- The counter counts the slots held. -/
def World.Counted (w : World) : Prop := w.slotsHeld = w.node.spendPreflight

theorem nodeStep_counted (w : World) (op : NodeOp) (counted : w.Counted) : (node.nodeStep w op).1.Counted := by
  unfold World.Counted World.slotsHeld at counted ⊢
  obtain ⟨threads, slots, _⟩ | ⟨thread, origin, request, _, absent, after⟩ |
    ⟨thread, step, held, s, phase, _, known, taken, after⟩ := nodeStep_cases node w op
  · rw [threads, slots, counted]
  · rw [after, total_insert_absent absent, arrival_slot, Nat.zero_add]
    exact counted
  · have covered : held.phase.slot ≤ w.node.spendPreflight := by
      rw [← counted]
      exact weight_le_total known (fun thread => thread.phase.slot)
    have moved := (advance_moves taken).slots covered
    have adjusted := total_adjust_present known (fun held => { held with phase := phase })
      (fun thread => thread.phase.slot)
    rw [after]
    simp only at adjusted ⊢
    omega

theorem nodeAfter_counted (s : NodeState) (run : List NodeOp) : (node.nodeAfter s run).Counted := by
  apply exec_invariant node.nodeStep World.Counted (nodeStep_counted node)
  exact (rfl : total (fun thread : Thread => thread.phase.slot) (∅ : Map Nat Thread) = 0)

/-- A request that holds a slot shows in the counter. -/
theorem World.Counted.slot_le {w : World} (counted : w.Counted) {thread : Nat} {phase : Phase}
    (here : w.phaseOf thread = some phase) : phase.slot ≤ w.node.spendPreflight := by
  obtain ⟨held, known, rfl⟩ := Option.map_eq_some_iff.mp here
  rw [← counted]
  exact weight_le_total known (fun thread => thread.phase.slot)

/-! ### Ranks -/

theorem nodeStep_rankOf (w : World) (op : NodeOp) (t : Nat) : w.rankOf t ≤ (node.nodeStep w op).1.rankOf t := by
  unfold World.rankOf World.phaseOf
  obtain ⟨threads, _⟩ | ⟨thread, origin, request, _, absent, after⟩ |
    ⟨thread, step, held, s, phase, _, known, taken, after⟩ := nodeStep_cases node w op
  · rw [threads]
  · rw [after]
    simp only [lookup_insert_eq]
    split_ifs with same
    · subst same
      simp [absent]
    · exact le_refl _
  · rw [after]
    simp only [lookup_adjust]
    split_ifs with same
    · subst same
      rw [known]
      exact (advance_moves taken).rank
    · exact le_refl _

theorem exec_rankOf (w : World) (run : List NodeOp) (t : Nat) :
    w.rankOf t ≤ (exec node.nodeStep w run).rankOf t :=
  exec_invariant node.nodeStep (fun later => w.rankOf t ≤ later.rankOf t)
    (fun later op ranked => ranked.trans (nodeStep_rankOf node later op t)) w (le_refl _) run

/-- Between its ingress and its registration a request is in one of its windows. -/
theorem slot_of_rankOf {w : World} {t : Nat} (entered : 2 ≤ w.rankOf t) (waits : w.rankOf t ≤ 3) :
    ∃ phase, w.phaseOf t = some phase ∧ phase.slot = 1 := by
  unfold World.rankOf at entered waits
  cases here : w.phaseOf t with
  | none => simp [here] at entered
  | some phase =>
    refine ⟨phase, rfl, ?_⟩
    simp only [here, Option.map_some, Option.getD_some] at entered waits
    cases phase <;> simp_all [Phase.rank, Phase.slot]

/-! ### Hold timers -/

/-- A spend's registration section that admits it as hot, under its commitment id and its expiry. -/
def HotAdmission (commitmentId : String) (expiry : Nat) (w : World) (op : NodeOp) : Prop :=
  ∃ thread flight replies clock, op = .advance thread (.register replies clock) ∧
    w.phaseOf thread = some (.windowB flight) ∧ expiry = flight.request.expiry ∧
    ∃ result, (node.registerSection flight replies clock w.node).2 = .leaving result flight.claim ∧
      AdmitsHot node flight.request (w.node.sign.coordNonces.effectiveNow clock.wall) w.node result commitmentId

/-- A refresh's registration section that admits it at `now`. -/
def RefreshAdmission (now : Nat) (w : World) (op : NodeOp) : Prop :=
  ∃ thread held request reply clock, op = .advance thread (.refreshRegister reply clock) ∧
    w.threads.lookup thread = some held ∧ held.request = .refresh request ∧ held.phase = .refreshWindow ∧
    now = w.node.sign.coordNonces.effectiveNow clock.wall ∧
    ∃ result, (node.refreshRegisterSection request reply clock w.node).2 = .answered result ∧
      AdmitsRefresh node request now w.node result

/-- The settlement of a transaction that releases the candidate. -/
def Settles (commitmentId : String) (w : World) (op : NodeOp) : Prop :=
  ∃ key ids, op = .settleRelease key ∧ w.settlements.lookup key = some (.marked ids) ∧ commitmentId ∈ ids

/-- A registration section whose clock has passed `expiry`. -/
def Expires (expiry : Nat) (w : World) (op : NodeOp) : Prop :=
  ∃ thread step clock, op = .advance thread step ∧
    ((∃ replies, step = .register replies clock) ∨ ∃ reply, step = .refreshRegister reply clock) ∧
    expiry < w.node.sign.coordNonces.effectiveNow clock.wall

/-- The three ways a Hold timer ends: settlement, expiry, and another admission of the same commitment. -/
def Lifts (commitmentId : String) (expiry : Nat) (w : World) (op : NodeOp) : Prop :=
  Settles commitmentId w op ∨ Expires expiry w op ∨ ∃ other, HotAdmission node commitmentId other w op

theorem lookup_foldl_remove {id : String} {ids : List String} (outside : id ∉ ids) (pending : PendingLog) :
    (ids.foldl PendingLog.remove pending).lookup id = pending.lookup id := by
  induction ids generalizing pending with
  | nil => rfl
  | cons other rest ih =>
    rw [List.mem_cons, not_or] at outside
    rw [List.foldl_cons, ih outside.2, PendingLog.remove, lookup_erase_eq, if_neg outside.1]

theorem lookup_pendingPrune {pending : PendingLog} {id : String} {expiry now : Nat}
    (here : pending.lookup id = some expiry) (live : now ≤ expiry) :
    (PendingLog.prune pending now).lookup id = some expiry :=
  lookup_retain_some.mpr ⟨here, by simpa using live⟩

/-- A spend in its second window takes its registration section next. -/
theorem advance_windowB {held : Thread} {flight : Flight} (waits : held.phase = .windowB flight) {s t : NodeState}
    {step : Section} {phase : Phase} (taken : node.advance held s step = some (t, phase)) :
    ∃ replies clock, step = .register replies clock ∧ node.registerSection flight replies clock s = (t, phase) := by
  cases step <;> simp only [advance, waits, reduceCtorEq, Option.some.injEq] at taken
  all_goals first
    | exact ⟨_, _, rfl, taken⟩
    | (split at taken <;> simp_all)

theorem advance_refreshWindow {held : Thread} (waits : held.phase = .refreshWindow) {s t : NodeState}
    {step : Section} {phase : Phase} (taken : node.advance held s step = some (t, phase)) :
    ∃ request reply clock, held.request = .refresh request ∧ step = .refreshRegister reply clock ∧
      node.refreshRegisterSection request reply clock s = (t, phase) := by
  cases step <;> simp only [advance, waits, reduceCtorEq] at taken
  case refreshRegister reply clock =>
    split at taken
    · rename_i request _ same
      exact ⟨request, reply, clock, same, rfl, Option.some.inj taken⟩
    · cases taken
  all_goals split at taken <;> simp_all

theorem registerSection_pending (flight : Flight) (replies : Option (ChainReply × ChainReply))
    (clock : RegistrationClock) {s : NodeState} {id : String} {expiry : Nat}
    (here : s.sign.pending.lookup id = some expiry) (live : s.sign.coordNonces.effectiveNow clock.wall ≤ expiry)
    (other : ∀ result, (node.registerSection flight replies clock s).2 = .leaving result flight.claim →
      ¬AdmitsHot node flight.request (s.sign.coordNonces.effectiveNow clock.wall) s result id) :
    (node.registerSection flight replies clock s).1.sign.pending.lookup id = some expiry := by
  have timed := registrationHold_timed node s flight
    (pinVerdict (node.rules.verifyPin flight.request.pin) flight.request) (node.carrierOf flight.request) clock
    (prefetch_refuses node flight.request replies)
  unfold registerSection at other ⊢
  simp only
  rcases timed.timers with ⟨admitted, admits, recorded⟩ | ⟨_, pruned | same⟩
  · have different : id ≠ admitted := by
      rintro rfl
      exact other _ rfl admits
    rw [recorded, PendingLog.record, lookup_insert_eq, if_neg different]
    exact lookup_pendingPrune here live
  · rw [pruned]
    exact lookup_pendingPrune here live
  · rw [same]
    exact here

theorem refreshRegisterSection_pending (request : RefreshRequest) (reply : Option ChainReply)
    (clock : RegistrationClock) {s : NodeState} {id : String} {expiry : Nat}
    (here : s.sign.pending.lookup id = some expiry) (live : s.sign.coordNonces.effectiveNow clock.wall ≤ expiry) :
    (node.refreshRegisterSection request reply clock s).1.sign.pending.lookup id = some expiry := by
  have held := refreshRegistrationHold_subordinate node s request (node.prefetchRefreshPrevouts request reply) clock
  unfold refreshRegisterSection
  simp only
  rcases held.timers with pruned | same
  · rw [pruned]
    exact lookup_pendingPrune here live
  · rw [same]
    exact here

/-- A running Hold timer runs on through every operation that does not end it. -/
theorem nodeStep_pending {id : String} {expiry : Nat} (w : World) (op : NodeOp)
    (here : w.node.sign.pending.lookup id = some expiry) (kept : ¬Lifts node id expiry w op) :
    (node.nodeStep w op).1.node.sign.pending.lookup id = some expiry := by
  cases op with
  | arrive thread origin request =>
    simp only [nodeStep]
    split_ifs <;> exact here
  | advance thread step =>
    cases known : w.threads.lookup thread with
    | none => simpa [nodeStep, known] using here
    | some held =>
      cases taken : node.advance held w.node step with
      | none => simpa [nodeStep, known, taken] using here
      | some out =>
        obtain ⟨t, phase⟩ := out
        have after : (node.nodeStep w (.advance thread step)).1.node = t := by simp [nodeStep, known, taken]
        rw [after]
        -- Only the two registration sections touch the timers.
        by_cases spends : ∃ flight, held.phase = .windowB flight
        · obtain ⟨flight, waits⟩ := spends
          obtain ⟨replies, clock, rfl, done⟩ := advance_windowB node waits taken
          have phased : w.phaseOf thread = some (.windowB flight) := by simp [World.phaseOf, known, waits]
          have pending := registerSection_pending node flight replies clock here
          rw [done] at pending
          apply pending
          · by_contra past
            exact kept (.inr (.inl ⟨thread, _, clock, rfl, .inl ⟨replies, rfl⟩, not_le.mp past⟩))
          · intro result answer admits
            rw [← done] at answer
            exact kept (.inr (.inr ⟨_, thread, flight, replies, clock, rfl, phased, rfl, result, answer, admits⟩))
        · by_cases refreshes : held.phase = .refreshWindow
          · obtain ⟨request, reply, clock, _, rfl, done⟩ := advance_refreshWindow node refreshes taken
            have pending := refreshRegisterSection_pending node request reply clock here
            rw [done] at pending
            apply pending
            by_contra past
            exact kept (.inr (.inl ⟨thread, _, clock, rfl, .inr ⟨reply, rfl⟩, not_le.mp past⟩))
          · rw [(advance_moves taken).timers (fun flight waits => spends ⟨flight, waits⟩) refreshes]
            exact here
  | enterLockdown => exact here
  | settleRead key other =>
    simp only [nodeStep]
    split_ifs <;> exact here
  | settleMark key armed =>
    simp only [nodeStep]
    split <;> exact here
  | settleRelease key =>
    simp only [nodeStep]
    split
    · rename_i ids marked
      show (ids.foldl PendingLog.remove w.node.sign.pending).lookup id = some expiry
      rw [lookup_foldl_remove]
      · exact here
      · intro inside
        exact kept (.inl ⟨key, ids, rfl, marked, inside⟩)
    · exact here
  | background op =>
    have steady := steady_onStore node w.node (fun ch store => (storeStep ch store op).1)
    simp only [nodeStep]
    rw [steady.pending]
    exact here

/-- An admission of a hot spend starts its Hold timer. -/
theorem hotAdmission_recorded {id : String} {expiry : Nat} {w : World} {op : NodeOp}
    (admission : HotAdmission node id expiry w op) :
    (node.nodeStep w op).1.node.sign.pending.lookup id = some expiry := by
  obtain ⟨thread, flight, replies, clock, rfl, waits, rfl, result, answer, admits⟩ := admission
  obtain ⟨held, known, waits⟩ := Option.map_eq_some_iff.mp waits
  have timed := registrationHold_timed node w.node flight
    (pinVerdict (node.rules.verifyPin flight.request.pin) flight.request) (node.carrierOf flight.request) clock
    (prefetch_refuses node flight.request replies)
  have stepped : (node.nodeStep w (.advance thread (.register replies clock))).1.node =
      (node.registerSection flight replies clock w.node).1 := by
    simp [nodeStep, known, advance, waits]
  rw [stepped]
  unfold registerSection at answer ⊢
  simp only [Phase.leaving.injEq, and_true] at answer ⊢
  rw [answer] at timed
  rcases timed.timers with ⟨admitted, ⟨pair, decoded, same, _⟩, recorded⟩ | ⟨calm, _⟩
  · obtain ⟨other, decodedToo, sameToo, _⟩ := admits
    rw [decoded, Except.ok.injEq] at decodedToo
    rw [recorded, ← sameToo, ← same, decodedToo, PendingLog.record, lookup_insert_eq, if_pos rfl]
  · exact absurd admits (calm id)

/-- A refresh is admitted only when it is unopposed. -/
theorem refreshAdmission_unopposed {now : Nat} {w : World} {op : NodeOp}
    (admission : RefreshAdmission node now w op) : Unopposed w.node now := by
  obtain ⟨thread, held, request, reply, clock, rfl, _, _, _, rfl, result, answer, admits⟩ := admission
  have subordinate := refreshRegistrationHold_subordinate node w.node request
    (node.prefetchRefreshPrevouts request reply) clock
  unfold refreshRegisterSection at answer
  simp only [Phase.answered.injEq] at answer
  rw [answer] at subordinate
  exact subordinate.unopposed admits

theorem lt_of_hasAny_false {pending : PendingLog} {now expiry : Nat} {id : String}
    (none : PendingLog.hasAny pending now = false) (here : pending.lookup id = some expiry) : expiry < now := by
  by_contra live
  have some : PendingLog.hasAny pending now = true :=
    List.any_eq_true.mpr ⟨expiry, mem_vals.mpr ⟨id, here⟩, by simpa using live⟩
  rw [none] at some
  cases some

/-! ### Every interleaving -/

/-- The ingress section of the spend `t` that takes it into its first window. -/
def SpendIngress (t : Nat) (w : World) (op : NodeOp) : Prop :=
  ∃ wall mono flight, op = .advance t (.ingress wall mono) ∧
    (node.nodeStep w op).1.phaseOf t = some (.windowA flight)

/-- The registration section of the spend `t`. -/
def SpendRegistration (t : Nat) (w : World) (op : NodeOp) : Prop :=
  ∃ replies clock flight, op = .advance t (.register replies clock) ∧ w.phaseOf t = some (.windowB flight)

/-- The spend handler has passed its ingress hold and has not returned. -/
def Phase.inFlight : Phase → Bool
  | .windowA _ | .windowB _ | .leaving _ _ | .unclaimed _ | .backoff _ _ | .sleeping _ _ => true
  | _ => false

/-- In every interleaving: a refresh is not admitted between a spend's ingress and its registration, nor while the
Hold timer of a hot spend runs; such a timer, once started, runs until settlement, expiry or another admission of
the same commitment; and the counter is zero when no spend is in flight. -/
theorem refreshes_yield_to_spends (s : NodeState) :
    (∀ t before ingress between refresh after registration now,
      SpendIngress node t (node.nodeAfter s before) ingress →
      SpendRegistration t (node.nodeAfter s (before ++ ingress :: between ++ refresh :: after)) registration →
      ¬RefreshAdmission node now (node.nodeAfter s (before ++ ingress :: between)) refresh) ∧
    (∀ run refresh now id expiry, RefreshAdmission node now (node.nodeAfter s run) refresh →
      (node.nodeAfter s run).node.sign.pending.lookup id = some expiry → expiry < now) ∧
    (∀ before admission after id expiry, HotAdmission node id expiry (node.nodeAfter s before) admission →
      Allowed node.nodeStep (fun w op => ¬Lifts node id expiry w op) (node.nodeAfter s (before ++ [admission])) after →
      (node.nodeAfter s (before ++ admission :: after)).node.sign.pending.lookup id = some expiry) ∧
    ∀ run, (∀ t phase, (node.nodeAfter s run).phaseOf t = some phase → phase.inFlight = false) →
      (node.nodeAfter s run).node.spendPreflight = 0 := by
  refine ⟨?_, ?_, ?_, ?_⟩
  · rintro t before ingress between refresh after registration now ⟨wall, mono, flight, _, entered⟩
      ⟨replies, clock, flight', _, waits⟩ admission
    -- From the ingress on the rank is at least that of the first window, and up to the registration at most that
    -- of the second.
    have below : 2 ≤ (node.nodeAfter s (before ++ ingress :: between)).rankOf t := by
      have first : (node.nodeStep (node.nodeAfter s before) ingress).1.rankOf t = 2 := by
        simp [World.rankOf, entered, Phase.rank]
      rw [← first, nodeAfter_append]
      exact exec_rankOf node _ between t
    have above : (node.nodeAfter s (before ++ ingress :: between)).rankOf t ≤ 3 := by
      have last : (node.nodeAfter s (before ++ ingress :: between ++ refresh :: after)).rankOf t = 3 := by
        rw [World.rankOf, waits]
        rfl
      rw [← last, nodeAfter_append node s (before ++ ingress :: between)]
      exact exec_rankOf node _ (refresh :: after) t
    obtain ⟨phase, here, slot⟩ := slot_of_rankOf below above
    have counted := (nodeAfter_counted node s (before ++ ingress :: between)).slot_le here
    rw [(refreshAdmission_unopposed node admission).slots, slot] at counted
    omega
  · intro run refresh now id expiry admission here
    exact lt_of_hasAny_false (refreshAdmission_unopposed node admission).pending here
  · intro before admission after id expiry admits through
    have started : (node.nodeAfter s (before ++ [admission])).node.sign.pending.lookup id = some expiry := by
      rw [nodeAfter_append]
      exact hotAdmission_recorded node admits
    have split : before ++ admission :: after = (before ++ [admission]) ++ after := by simp
    rw [split, nodeAfter_append]
    exact exec_invariant_allowed node.nodeStep _ (fun w => w.node.sign.pending.lookup id = some expiry)
      (fun w op kept here => nodeStep_pending node w op here kept) _ started after through
  · intro run idle
    have counted : (node.nodeAfter s run).slotsHeld = (node.nodeAfter s run).node.spendPreflight :=
      nodeAfter_counted node s run
    rw [← counted]
    apply total_eq_zero
    intro t held known
    have calm := idle t held.phase (by simp [World.phaseOf, known])
    revert calm
    cases held.phase <;> simp [Phase.inFlight, Phase.slot]

end Machine

namespace Sample
open Channel.Sample

/-- A spend in flight, and a refresh that reaches its registration section. -/
def racedEntry : List NodeOp :=
  [.advance 1 (.commit 110), .arrive 2 .direct (.refresh (refreshRequest "nonce-b" 5000)),
    .advance 2 (.ingress 115 115)]

def refreshRegistration (thread now : Nat) : NodeOp :=
  .advance thread (.refreshRegister (some (.ok [some coin])) ⟨now, now, now, now⟩)

/-- A hot spend whose Hold timer has run out when a refresh comes. -/
def lapsedRun : List NodeOp :=
  spendEntry 1 (spendRequest "nonce-a" 1000) 110 ++ registration 1 120 :: spendExit 1 125 ++
    [.arrive 2 .direct (.refresh (refreshRequest "nonce-b" 5000)), .advance 2 (.ingress 1100 1100)]

/-- One spend from its arrival to its return, beside nothing else. -/
def loneRun : List NodeOp :=
  spendEntry 1 (spendRequest "nonce-a" 5000) 110 ++ registration 1 120 :: spendExit 1 125

theorem refreshes_yield_to_spends_raced :
    ¬RefreshAdmission node 120
        (node.nodeAfter start ([.arrive 1 .direct (.spend (spendRequest "nonce-a" 5000))] ++
          .advance 1 (.ingress 110 110) :: racedEntry)) (refreshRegistration 2 120) ∧
      1000 < 1100 ∧
      (node.nodeAfter start (spendEntry 1 (spendRequest "nonce-a" 5000) 110 ++
        registration 1 120 :: [.advance 1 (.dropClaim 125)])).node.sign.pending.lookup "0a00000088130000" =
        some 5000 ∧
      (node.nodeAfter start loneRun).node.spendPreflight = 0 := by
  obtain ⟨between, lapsed, running, idle⟩ := refreshes_yield_to_spends node start
  refine ⟨?_, ?_, ?_, ?_⟩
  · exact between 1 _ _ racedEntry (refreshRegistration 2 120) [] (registration 1 130) 120
      ⟨110, 110, _, rfl, rfl⟩ ⟨_, _, _, rfl, rfl⟩
  · refine lapsed lapsedRun (refreshRegistration 2 1100) 1100 "0a000000e8030000" 1000 ?_ (by decide +kernel)
    exact ⟨2, _, refreshRequest "nonce-b" 5000, _, _, rfl, rfl, rfl, rfl, rfl, _, rfl, psbt 2 12, rfl, by decide +kernel,
      ⟨"0c00000088130000", 1100, 0⟩, by decide +kernel⟩
  · refine running (spendEntry 1 (spendRequest "nonce-a" 5000) 110) (registration 1 120)
      [.advance 1 (.dropClaim 125)] "0a00000088130000" 5000 ?_ ⟨?_, trivial⟩
    · refine ⟨1, _, _, _, rfl, rfl, rfl, _, rfl, _, rfl, rfl, rfl, ⟨_, rfl, rfl⟩, _, rfl⟩
    · rintro (⟨_, _, same, _⟩ | ⟨_, _, _, same, ⟨_, step⟩ | ⟨_, step⟩, _⟩ | ⟨_, _, _, _, _, same, _⟩)
      · cases same
      · cases same
        cases step
      · cases same
        cases step
      · cases same
  · apply idle loneRun
    intro t phase here
    have threads : (node.nodeAfter start loneRun).threads = (∅ : Map Nat Thread).insert 1
        ⟨.direct, .spend (spendRequest "nonce-a" 5000),
          .answered (.ok (.accepted ⟨"0a00000088130000", 120, 600⟩))⟩ := rfl
    simp only [World.phaseOf, threads, lookup_insert_eq] at here
    split_ifs at here
    · cases here
      rfl
    · cases here

/-- A refresh is admitted, a hot spend is accepted, and the same refresh under a fresh nonce is answered from the
verdict cache. -/
def repeatedRun : List NodeOp :=
  refreshRun 0 (refreshRequest "nonce-a" 5000) 100 ++
    (spendEntry 1 (spendRequest "nonce-b" 5000) 110 ++ registration 1 120 :: spendExit 1 125) ++
    [.arrive 2 .direct (.refresh (refreshRequest "nonce-c" 5000)), .advance 2 (.ingress 130 130)]

/-- The refresh's registration section accepts at 130 while the Hold timer of the accepted hot spend runs to 5000. -/
theorem cached_refresh_accepted :
    ((node.nodeAfter start repeatedRun).phaseOf 1).bind Phase.decided =
        some (.ok (.accepted ⟨"0a00000088130000", 120, 600⟩)) ∧
      (node.nodeAfter start repeatedRun).node.sign.pending.lookup "0a00000088130000" = some 5000 ∧
      (node.nodeAfter start repeatedRun).node.sign.coordNonces.effectiveNow 130 = 130 ∧
      ((node.nodeStep (node.nodeAfter start repeatedRun) (refreshRegistration 2 130)).1.phaseOf 2).bind
        Phase.decided = some (.ok (.accepted ⟨"0c00000088130000", 100, 0⟩)) := by
  decide +kernel

end Sample

end BtcPolicy.Node
