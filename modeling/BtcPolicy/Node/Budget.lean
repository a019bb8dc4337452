import BtcPolicy.Channel.Metering
import BtcPolicy.Channel.Registration
import BtcPolicy.Node.Commitment
import BtcPolicy.Node.Registry
import BtcPolicy.Node.Staging

/-! The Hot budget of a spend that is refused. The reservation is taken before the escape is looked at and taken
again at the registration; every refusal after the first hands back what the call created and nothing else. -/

namespace BtcPolicy.Node
open FiniteMap Word Bitcoin Hex HotLedger HotBudgetLedger Replay Channel Pin Policy Runs PartialStore NodeConfig

/-! ### What only lets reservations go -/

/-- Nothing is reserved anew, and what is no longer reserved is in `gone`. -/
structure Thins (gone : String → HotReservation → Prop) (s t : PartialStore) : Prop where
  budget : t.hotBudget.budget = s.hotBudget.budget
  keeps : ∀ id r, reservationOf id s = some r → ¬gone id r → reservationOf id t = some r
  adds : ∀ id r, reservationOf id t = some r → reservationOf id s = some r

/-- Both clocks have retired `r` in a ledger of this budget. -/
def Aged (budget : HotBudget) (mono wall : Nat) (r : HotReservation) : Prop :=
  isLive r (mono - budget.windowSecs) wall = false

/-- The sweep at `now` drops the candidate of `id`, whose share has never left. -/
def Refunded (s : PartialStore) (now : Nat) (id : String) : Prop :=
  ∃ c, s.candidates.lookup id = some c ∧ c.isUnexposedHot = true ∧ s.survivesPrune now id c = false

namespace Thins

variable {gone : String → HotReservation → Prop} {s t u : PartialStore}

theorem of_same (same : t.hotBudget = s.hotBudget) : Thins gone s t := by
  have held : ∀ id, reservationOf id t = reservationOf id s := by
    intro id
    rw [reservationOf, same]
    rfl
  exact ⟨congrArg _ same, fun id r found _ => (held id).trans found, fun id r found => (held id).symm.trans found⟩

theorem trans (first : Thins gone s t) (second : Thins gone t u) : Thins gone s u where
  budget := second.budget.trans first.budget
  keeps id r found kept := second.keeps id r (first.keeps id r found kept) kept
  adds id r found := first.adds id r (second.adds id r found)

theorem widen {wider : String → HotReservation → Prop} (thins : Thins gone s t)
    (within : ∀ id r, gone id r → wider id r) : Thins wider s t :=
  ⟨thins.budget, fun id r found kept => thins.keeps id r found (fun inside => kept (within id r inside)), thins.adds⟩

end Thins

/-- The sweep refunds the dropped candidates whose share has never left. -/
theorem thins_prune (s : PartialStore) (now : Nat) : Thins (fun id _ => Refunded s now id) s (s.prune now) := by
  have budget : ∀ (freed : List String) (ledger : HotBudgetLedger),
      (freed.foldl HotBudgetLedger.release ledger).budget = ledger.budget := by
    intro freed
    induction freed with
    | nil => exact fun _ => rfl
    | cons first rest ih => exact fun ledger => ih (ledger.release first)
  refine ⟨budget _ _, ?_, ?_⟩
  · intro id r found kept
    simp only [PartialStore.prune, reservationOf, foldl_release_lookup]
    rw [if_neg]
    · exact found
    · intro freed
      obtain ⟨entry, member, rfl⟩ := List.mem_map.mp freed
      obtain ⟨dropped, unexposed⟩ := List.mem_filter.mp member
      obtain ⟨present, rejected⟩ := List.mem_filter.mp dropped
      exact kept ⟨entry.2, AList.mem_lookup_iff.mpr present, unexposed, by simpa using rejected⟩
  · intro id r found
    simp only [PartialStore.prune, reservationOf, foldl_release_lookup] at found
    split_ifs at found
    exact found

section Reserving

variable (s : PartialStore) (id : String) (outflow mono wall expiry : Nat)

/-- A `reserve` that creates nothing lets only retired reservations go. -/
theorem thins_reserve (idle : (s.hotBudget.reserve id outflow mono wall expiry).2 ≠ .ok true) :
    Thins (fun _ r => Aged s.hotBudget.budget mono wall r) s
      { s with hotBudget := (s.hotBudget.reserve id outflow mono wall expiry).1 } := by
  refine ⟨reserve_budget _ _ _ _ _ _, ?_, ?_⟩
  · intro held r found live
    exact reserve_keeps_live _ _ _ _ _ found (by simpa [Aged, HotBudgetLedger.floor] using live)
  · intro held r found
    rcases reserve_lookup found with ⟨old, _⟩ | ⟨created, _⟩
    · exact old
    · exact absurd created idle

/-- What a `reserve` creates is undone by the release of its id: the id was free, or its old reservation retired. -/
theorem thins_undone {gone : String → HotReservation → Prop} {t : PartialStore}
    (created : (s.hotBudget.reserve id outflow mono wall expiry).2 = .ok true)
    (thins : Thins gone { s with hotBudget := (s.hotBudget.reserve id outflow mono wall expiry).1 } t) :
    Thins (fun held r => gone held r ∨ Aged s.hotBudget.budget mono wall r) s
      { t with hotBudget := t.hotBudget.release id } := by
  have free : ∀ r, reservationOf id s = some r → Aged s.hotBudget.budget mono wall r := by
    intro r found
    by_contra live
    have hit := (reserve_live_hit outflow mono wall expiry found
      (by simpa [Aged, HotBudgetLedger.floor] using live)).1
    rw [created] at hit
    cases hit
  refine ⟨?_, ?_, ?_⟩
  · exact thins.budget.trans (reserve_budget _ _ _ _ _ _)
  · intro held r found kept
    rw [not_or] at kept
    have other : held ≠ id := by
      rintro rfl
      exact kept.2 (free r found)
    have reserved := reserve_keeps_live id outflow mono wall expiry found
      (by simpa [Aged, HotBudgetLedger.floor] using kept.2)
    exact (release_lookup t.hotBudget id held).trans ((if_neg other).trans (thins.keeps held r reserved kept.1))
  · intro held r found
    rw [reservationOf, release_lookup] at found
    split_ifs at found with same
    rcases reserve_lookup (thins.adds held r found) with ⟨old, _⟩ | ⟨_, here, _⟩
    · exact old
    · exact absurd here same

end Reserving

/-! ### The registration -/

/-- A store that charges its candidates exactly and stays within its limits. -/
structure Sound (s : PartialStore) : Prop where
  keyed : Keyed s
  balanced : Balanced s
  word : s.maxActiveCandidates < maxWord

theorem sound_step (ch : ChannelState) (s : PartialStore) (op : StoreOp) (sound : Sound s) :
    Sound (storeStep ch s op).1 :=
  ⟨keyed_step ch s op sound.keyed, balanced_step ch s op sound.balanced, (limits_step ch s op).2 ▸ sound.word⟩

/-- The ledger is no part of it. -/
theorem Sound.withBudget {s : PartialStore} (sound : Sound s) (ledger : HotBudgetLedger) :
    Sound { s with hotBudget := ledger } :=
  ⟨sound.keyed, ⟨sound.balanced.exact, sound.balanced.bytes, sound.balanced.count, sound.balanced.word⟩, sound.word⟩

theorem sound_initialStore {config : StoreConfig} (count : config.maxActiveCandidates < 2 ^ 63)
    (bytes : config.maxBytes < 2 ^ 63) : Sound (initialStore config) where
  keyed _ _ found := by cases found
  balanced := ⟨rfl, Nat.zero_le _, Nat.zero_le _, lt_of_lt_of_le bytes (by decide)⟩
  word := lt_of_lt_of_le count (by decide)

section Registration

variable {ch : ChannelState} {s : PartialStore} {candidates : List Candidate} (sound : Sound s)
  (distinct : (candidates.map Candidate.commitmentId).Nodup) (arm : ArmDirective) (hotReserve : Option HotReserveSpec)
  (monoNow : Nat)

theorem registerCandidates_budget (ch : ChannelState) (s : PartialStore) (candidates : List Candidate) :
    (registerCandidates ch s candidates arm hotReserve monoNow).1.hotBudget.budget = s.hotBudget.budget := by
  have revalidated : (s.revalidate hotReserve monoNow).1.hotBudget.budget = s.hotBudget.budget := by
    cases hotReserve with
    | none => rfl
    | some spec => exact reserve_budget _ _ _ _ _ _
  obtain ⟨_, _, same⟩ | ⟨created, _, _, same⟩ | ⟨_, _, same⟩ :=
    registerCandidates_cases ch s candidates arm hotReserve monoNow
  · rw [same]
    exact revalidated
  · rw [same]
    cases hotReserve with
    | none => exact revalidated
    | some spec => cases created <;> exact revalidated
  · rw [same, enroll_hotBudget]
    exact revalidated

include sound distinct

/-- A refused registration lets only retired reservations go. -/
theorem thins_registerCandidates
    (refused : refusedRegistration (registerCandidates ch s candidates arm hotReserve monoNow).2 = true) :
    Thins (fun _ r => ∃ spec, hotReserve = some spec ∧ Aged s.hotBudget.budget monoNow spec.wallNow r) s
      (registerCandidates ch s candidates arm hotReserve monoNow).1 := by
  obtain ⟨_, untouched⟩ | ⟨admitted, _⟩ := @registerCandidates_whole ch s candidates distinct sound.word
    sound.balanced.count sound.balanced.bytes arm hotReserve monoNow
  · refine ⟨registerCandidates_budget arm hotReserve monoNow ch s candidates, ?_, ?_⟩
    · intro id r found kept
      refine (untouched.reservations id r).mpr ⟨found, ?_⟩
      intro spec own
      by_contra dead
      exact kept ⟨spec, own, by simpa [Aged, HotBudgetLedger.floor] using dead⟩
    · exact fun id r found => ((untouched.reservations id r).mp found).1
  · rw [refused] at admitted
    cases admitted

omit distinct

/-- A registration that is not refused holds the reservation it asks for. -/
theorem reserved_of_registered {spec : HotReserveSpec} (own : hotReserve = some spec)
    (admitted : refusedRegistration (registerCandidates ch s candidates arm hotReserve monoNow).2 = false) :
    ∃ r, reservationOf spec.commitmentId (registerCandidates ch s candidates arm hotReserve monoNow).1 = some r := by
  have outcomes : ∃ outcomes, (registerCandidates ch s candidates arm hotReserve monoNow).2 = .ok outcomes := by
    cases answer : (registerCandidates ch s candidates arm hotReserve monoNow).2 with
    | error refusal => simp [answer, refusedRegistration] at admitted
    | ok outcomes => exact ⟨outcomes, rfl⟩
  obtain ⟨outcomes, answered⟩ := outcomes
  obtain enrolled | ⟨_, refuses⟩ := registerCandidates_enrols ch s candidates arm hotReserve monoNow
  · have revalidated : ∃ created, (s.revalidate hotReserve monoNow).2 = .ok created := by
      obtain ⟨_, _, same⟩ | ⟨created, _, answer, _⟩ | ⟨created, answer, _⟩ :=
        registerCandidates_cases ch s candidates arm hotReserve monoNow
      · rw [same] at answered
        cases answered
      · exact ⟨created, answer⟩
      · exact ⟨created, answer⟩
    obtain ⟨created, answer⟩ := revalidated
    rw [enrolled, enroll_reservation]
    subst own
    exact reserve_ok_present answer
  · rw [answered] at admitted
    simp only [refusedRegistration, List.any_eq_false, Bool.or_eq_true, decide_eq_true_eq, not_or] at admitted
    rcases refuses ⟨sound.balanced.count, sound.balanced.bytes⟩ outcomes answered with conflict | full
    · exact absurd rfl (admitted _ conflict).1
    · exact absurd rfl (admitted _ full).2

end Registration

/-- The pair's candidates have ids of their own. -/
theorem buildCandidates_nodup {lib : Library} {keys : CandidateKeys} {pair : RegisterPair} {candidates : List Candidate}
    (built : buildCandidates lib keys pair.specs = .ok candidates) : (candidates.map Candidate.commitmentId).Nodup := by
  have related := buildAll_forall₂ (buildAll_of_buildCandidates built)
  rw [List.forall₂_map_left_iff] at related
  have ids : candidates.map Candidate.commitmentId = pair.specs.map CandidateSpec.commitmentId := by
    rw [← List.forall₂_eq_eq_eq, List.forall₂_map_left_iff, List.forall₂_map_right_iff]
    exact related.flip.imp (fun _ _ made => made.1.commitmentId)
  rw [ids]
  unfold RegisterPair.specs
  simp only
  split_ifs with distinct
  · simpa using Ne.symm distinct
  · exact List.nodup_singleton _

theorem registrationRefusal_eq_none (node : NodeConfig) (pair : RegisterPair)
    (answer : Except HotReserveRefusal (List RegisterOutcome)) :
    node.registrationRefusal pair answer = none ↔ refusedRegistration answer = false := by
  unfold registrationRefusal refusedRegistration
  cases answer with
  | error refused => cases pair.hotReserve <;> simp
  | ok outcomes =>
    simp only [List.any_eq_false, Bool.or_eq_true, decide_eq_true_eq, not_or]
    by_cases conflict : outcomes.contains .conflict = true
    · rw [if_pos conflict]
      refine ⟨nofun, fun clear => ?_⟩
      exact absurd rfl (clear _ (List.contains_iff_mem.mp conflict)).1
    · rw [if_neg conflict]
      by_cases full : outcomes.contains .atCapacity = true
      · rw [if_pos full]
        refine ⟨nofun, fun clear => ?_⟩
        exact absurd rfl (clear _ (List.contains_iff_mem.mp full)).2
      · rw [if_neg full]
        refine ⟨fun _ outcome member => ⟨?_, ?_⟩, fun _ => rfl⟩
        · rintro rfl
          exact conflict (List.contains_iff_mem.mpr member)
        · rintro rfl
          exact full (List.contains_iff_mem.mpr member)

section Pair

variable {node : NodeConfig} {ch : ChannelState} (mounted : node.channel = some ch) {s : NodeState}
  (sound : Sound s.store)
include mounted sound

/-- A pair that is refused costs nothing, and one that is admitted has the reservation it asks for. -/
theorem registerPair_charges (pair : RegisterPair) (monoNow : Nat) :
    let out := node.registerPair pair monoNow s
    (out.2 ≠ .ok () → Thins (fun _ r => ∃ spec, pair.hotReserve = some spec ∧
        Aged s.store.hotBudget.budget monoNow spec.wallNow r) s.store out.1.store) ∧
      (out.2 = .ok () → ∀ spec, pair.hotReserve = some spec →
        ∃ r, reservationOf spec.commitmentId out.1.store = some r) := by
  unfold registerPair
  simp only [mounted]
  cases built : buildCandidates ch.lib node.keys pair.specs with
  | error refused => exact ⟨fun _ => .of_same rfl, nofun⟩
  | ok candidates =>
    have thins := @thins_registerCandidates ch s.store candidates sound (buildCandidates_nodup built)
      (node.armDirective pair) pair.hotReserve monoNow
    have reserved := @reserved_of_registered ch s.store candidates sound (node.armDirective pair) pair.hotReserve monoNow
    simp only
    generalize registerCandidates ch s.store candidates (node.armDirective pair) pair.hotReserve monoNow = answer
      at thins reserved ⊢
    cases refusal : node.registrationRefusal pair answer.2 with
    | some refused =>
      refine ⟨fun _ => thins ?_, nofun⟩
      by_contra admitted
      rw [(registrationRefusal_eq_none node pair answer.2).mpr (by simpa using admitted)] at refusal
      cases refusal
    | none =>
      refine ⟨fun refused => absurd rfl refused, fun _ spec own => ?_⟩
      exact reserved own ((registrationRefusal_eq_none node pair answer.2).mp refusal)

end Pair

/-! ### The call, from its reservation outwards -/

/-- Both clocks have retired `r` at one of the two readings of the call. -/
def Retired (budget : HotBudget) (clock : RegistrationClock) (r : HotReservation) : Prop :=
  Aged budget clock.reserve clock.wall r ∨ Aged budget clock.register clock.wall r

/-- Behind the reservation: a refusal lets only retired reservations go and hands back what was created, and an
admission leaves a hot spend with a reservation. -/
structure Settled (clock : RegistrationClock) (created : Bool) (commitmentId : String) (hot : Prop) (s : NodeState)
    (out : NodeState × SignResult) : Prop where
  refused : ¬Accepts out.2 → ∃ u, Thins (fun _ r => Retired s.store.hotBudget.budget clock r) s.store u ∧
    out.1.store.hotBudget = if created then u.hotBudget.release commitmentId else u.hotBudget
  admitted : hot → Accepts out.2 → ∃ r, reservationOf commitmentId out.1.store = some r

/-- What a call does to the ledger: a refusal lets only reservations of `gone` go, and an admission leaves a hot spend
with a reservation. -/
structure Charged (gone : String → HotReservation → Prop) (commitmentId : String) (hot : Prop) (s : NodeState)
    (out : NodeState × SignResult) : Prop where
  refused : ¬Accepts out.2 → Thins gone s.store out.1.store
  admitted : hot → Accepts out.2 → ∃ r, reservationOf commitmentId out.1.store = some r

theorem charged_refusal {gone : String → HotReservation → Prop} {commitmentId : String} {hot : Prop} {s t : NodeState}
    {result : SignResult} (thins : Thins gone s.store t.store) (calm : ¬Accepts result) :
    Charged gone commitmentId hot s (t, result) :=
  ⟨fun _ => thins, fun _ accepts => absurd accepts calm⟩

section Call

variable {node : NodeConfig} {ch : ChannelState} (mounted : node.channel = some ch) (s : NodeState) (flight : Flight)
  (verdict : PinVerdict) (carrier : String)

theorem sound_of_moves {t : NodeState} (moves : StoreMoves node ch s t) (sound : Sound s.store) : Sound t.store :=
  Reaches.invariant moves Sound (fun s op _ => sound_step ch s op) sound

include mounted

theorem stageSpendCarrier_hotBudget (request : TaggedRequest) :
    (node.stageSpendCarrier request carrier s).store.hotBudget = s.store.hotBudget := by
  simp only [stageSpendCarrier, onStore, mounted]
  rfl

theorem unwindHotReservation_hotBudget (created : Bool) (commitmentId : String) :
    (node.unwindHotReservation created commitmentId s).store.hotBudget =
      if created then s.store.hotBudget.release commitmentId else s.store.hotBudget := by
  unfold unwindHotReservation onStore
  rw [mounted]
  split_ifs
  · rfl
  · rfl

theorem admitPair_settled (sound : Sound s.store) (pair : SpendPair) (txClass : TxClass) (outflow fireAt now : Nat)
    (created : Bool) (clock : RegistrationClock) :
    Settled clock created pair.commitmentId (txClass = .hot) s
      (node.admitPair flight verdict carrier pair txClass outflow fireAt now created clock s) := by
  have staged := stageSpendCarrier_hotBudget mounted s carrier (.spend flight.request)
  have fits : Sound (node.stageSpendCarrier (.spend flight.request) carrier s).store :=
    sound_of_moves s (moves_stageSpendCarrier mounted s _ _) sound
  unfold admitPair
  simp only
  generalize pairing : RegisterPair.mk _ _ _ _ _ _ _ _ _ _ _ _ _ = registering
  obtain ⟨refuses, admits⟩ := registerPair_charges mounted fits registering clock.register
  have retired : ∀ (id : String) r, (∃ spec, registering.hotReserve = some spec ∧
      Aged (node.stageSpendCarrier (.spend flight.request) carrier s).store.hotBudget.budget clock.register
        spec.wallNow r) → Retired s.store.hotBudget.budget clock r := by
    rintro id r ⟨spec, own, aged⟩
    rw [staged] at aged
    rw [← pairing] at own
    simp only at own
    split_ifs at own
    cases own
    exact .inr aged
  split
  next u refused registered =>
    rw [registered] at refuses
    refine ⟨fun _ => ⟨u.store, ?_, unwindHotReservation_hotBudget mounted u created _⟩,
      fun _ accepts => absurd accepts (not_accepts_refusal refused)⟩
    exact (Thins.of_same staged).trans ((refuses nofun).widen retired)
  next u _ registered =>
    rw [registered] at admits
    refine ⟨fun calm => absurd ⟨_, rfl⟩ calm, fun hot _ => ?_⟩
    apply admits rfl ⟨pair.commitmentId, outflow, clock.wall, flight.request.expiry⟩
    rw [← pairing]
    simp [hot]

theorem admitReserved_settled (sound : Sound s.store) (pair : SpendPair) (classified : Classification) (now : Nat)
    (escapePrevouts : Option PrevoutFetch) (created : Bool) (clock : RegistrationClock) :
    Settled clock created pair.commitmentId (classified.txClass = .hot) s
      (node.admitReserved flight verdict carrier pair classified now escapePrevouts created clock s) := by
  unfold admitReserved
  split
  next refused _ =>
    have unwound := unwindHotReservation_hotBudget mounted s created pair.commitmentId
    refine ⟨fun _ => ⟨s.store, .of_same rfl, ?_⟩, fun _ accepts => absurd accepts (not_accepts_refusal _)⟩
    simp only
    by_cases stages : refused.stages = true
    · rw [if_pos stages, stageSpendCarrier_hotBudget mounted]
      exact unwound
    · rw [if_neg stages]
      exact unwound
  next signed fireAt valid =>
    rw [← (validatePair_names node valid).1]
    exact admitPair_settled mounted s flight verdict carrier sound signed classified.txClass _ fireAt now created clock

theorem meterSpend_charged (sound : Sound s.store) (pair : SpendPair) (classified : Classification) (now : Nat)
    (escapePrevouts : Option PrevoutFetch) (clock : RegistrationClock) :
    Charged (fun _ r => Retired s.store.hotBudget.budget clock r) pair.commitmentId (classified.txClass = .hot) s
      (node.meterSpend flight verdict carrier pair classified now escapePrevouts clock s) := by
  unfold meterSpend
  simp only [mounted, Option.isSome_some, and_true]
  by_cases hot : classified.txClass = .hot
  · simp only [hot, if_true]
    have idle := thins_reserve s.store pair.commitmentId classified.hotOutflow clock.reserve clock.wall
      flight.request.expiry
    have undone := @thins_undone s.store pair.commitmentId classified.hotOutflow clock.reserve clock.wall
      flight.request.expiry
    have budget := reserve_budget s.store.hotBudget pair.commitmentId classified.hotOutflow clock.reserve clock.wall
      flight.request.expiry
    generalize s.store.hotBudget.reserve pair.commitmentId classified.hotOutflow clock.reserve clock.wall
      flight.request.expiry = answer at idle undone budget ⊢
    obtain ⟨ledger, reserved⟩ := answer
    have settled := fun created => admitReserved_settled mounted { s with store := { s.store with hotBudget := ledger } }
      flight verdict carrier (sound.withBudget ledger) pair classified now escapePrevouts created clock
    simp only [hot] at settled
    cases reserved with
    | error refused =>
      apply charged_refusal _ (not_accepts_refusal _)
      apply ((idle nofun).widen (fun _ _ aged => .inl aged)).trans (.of_same _)
      exact stageSpendCarrier_hotBudget mounted _ carrier _
    | ok created =>
      refine ⟨fun calm => ?_, fun _ accepts => (settled created).admitted trivial accepts⟩
      obtain ⟨u, thins, returned⟩ := (settled created).refused calm
      simp only at budget
      simp only [budget] at thins
      cases created with
      | false =>
        have first := (idle (by simp)).widen (fun _ r aged => (.inl aged : Retired s.store.hotBudget.budget clock r))
        exact (first.trans thins).trans (.of_same returned)
      | true =>
        have first := (undone rfl thins).widen (fun _ r gone => gone.elim id .inl)
        exact first.trans (.of_same returned)
  · simp only [hot, if_false]
    refine ⟨fun calm => ?_, fun contrary => absurd contrary (by simp)⟩
    obtain ⟨u, thins, returned⟩ := (admitReserved_settled mounted s flight verdict carrier sound pair classified now
      escapePrevouts false clock).refused calm
    exact thins.trans (.of_same returned)

theorem judgeSpend_charged (sound : Sound s.store) (pair : SpendPair) (now : Nat)
    (spendPrevouts escapePrevouts : Option PrevoutFetch) (clock : RegistrationClock) :
    Charged (fun _ r => Retired s.store.hotBudget.budget clock r) pair.commitmentId (SpendsHot node pair) s
      (node.judgeSpend flight verdict carrier pair now spendPrevouts escapePrevouts clock s) := by
  have recorded : ∀ {refused t}, t.store.hotBudget = s.store.hotBudget →
      Charged (fun _ r => Retired s.store.hotBudget.budget clock r) pair.commitmentId (SpendsHot node pair) s
        (recordRefusal pair flight.request.expiry refused t) :=
    fun same => charged_refusal (.of_same same) (not_accepts_refusal _)
  unfold judgeSpend
  simp only
  split
  · split_ifs
    · exact recorded (stageSpendCarrier_hotBudget mounted s carrier _)
    · exact recorded rfl
  · split
    · exact recorded rfl
    next classified known =>
      split_ifs with refresh
      · exact recorded rfl
      · obtain ⟨refused, admitted⟩ := meterSpend_charged mounted s flight verdict carrier sound pair classified now
          escapePrevouts clock
        refine ⟨refused, ?_⟩
        rintro ⟨other, same, hot⟩ accepts
        cases known.symm.trans same
        exact admitted hot accepts

theorem replayAccepted_hotBudget (pair : SpendPair) (now : Nat) :
    (node.replayAccepted flight verdict carrier pair now s).store.hotBudget = s.store.hotBudget := by
  unfold replayAccepted
  rw [stageSpendCarrier_hotBudget mounted]
  simp only [onStore, mounted]
  exact applyArmDirective_hotBudget _ _ s.store

theorem thins_pruneLogs (now pruneMono : Nat) :
    Thins (fun id _ => Refunded s.store now id) s.store (node.pruneLogs now pruneMono s).store := by
  simp only [pruneLogs, onStore, mounted]
  have carriers : Thins (fun id _ => Refunded s.store now id) s.store (s.store.pruneCarriers pruneMono) := .of_same rfl
  exact carriers.trans (thins_prune (s.store.pruneCarriers pruneMono) now)

/-- A reservation the call may let go: refunded by its sweep, or retired on both clocks at one of its readings. -/
def Gone (s : PartialStore) (now : Nat) (clock : RegistrationClock) (id : String) (r : HotReservation) : Prop :=
  Refunded s now id ∨ Retired s.hotBudget.budget clock r

theorem answerPair_charged (sound : Sound s.store) {pair : SpendPair}
    (decoded : node.decodePair flight.request = .ok pair) (now : Nat)
    {spendPrevouts escapePrevouts : Option PrevoutFetch} (clock : RegistrationClock)
    (fetched : ∀ refused, nodeLocalPrevoutFetchFailure spendPrevouts escapePrevouts = some refused →
      ¬Accepts (.ok refused)) (id : String) :
    let out := node.answerPair flight verdict carrier pair now spendPrevouts escapePrevouts clock s
    Charged (Gone s.store now clock) id (AdmitsHot node flight.request now s out.2 id) s out := by
  have same : ∀ {other}, node.decodePair flight.request = .ok other → other = pair := fun known =>
    Except.ok.inj (known.symm.trans decoded)
  have pruned : Thins (Gone s.store now clock) s.store
      { s with sign := { s.sign with replay := ReplayLog.prune s.sign.replay now } }.store := .of_same rfl
  unfold answerPair
  simp only [get_prune]
  cases hit : ReplayLog.get s.sign.replay pair.acceptedReplayKey now with
  | some recorded =>
    refine ⟨fun _ => .of_same (replayAccepted_hotBudget mounted _ flight verdict carrier pair now), ?_⟩
    rintro ⟨other, known, _, unknown, _⟩
    rw [same known] at unknown
    simp [cachedVerdict, hit] at unknown
  | none =>
    cases hitToo : ReplayLog.get s.sign.replay pair.commitmentId now with
    | some recorded =>
      refine ⟨fun _ => pruned, ?_⟩
      rintro ⟨other, known, _, unknown, _⟩
      rw [same known] at unknown
      simp [cachedVerdict, hit, hitToo] at unknown
    | none =>
      cases failed : nodeLocalPrevoutFetchFailure spendPrevouts escapePrevouts with
      | some refused =>
        exact charged_refusal (.of_same (stageSpendCarrier_hotBudget mounted _ carrier _)) (fetched refused failed)
      | none =>
        have swept := thins_pruneLogs mounted { s with
          sign := { s.sign with replay := ReplayLog.prune s.sign.replay now } } now clock.prune
        have still := sound_of_moves _ (moves_pruneLogs mounted { s with
          sign := { s.sign with replay := ReplayLog.prune s.sign.replay now } } now clock.prune) sound
        obtain ⟨refused, admitted⟩ := judgeSpend_charged mounted _ flight verdict carrier still pair now spendPrevouts
          escapePrevouts clock
        refine ⟨fun calm => ?_, ?_⟩
        · have judged := @Thins.widen _ _ _ (Gone s.store now clock) (refused calm) (fun _ r retired => by
            rw [swept.budget] at retired
            exact .inr retired)
          exact (swept.widen (fun _ _ refunded => .inl refunded)).trans judged
        · rintro ⟨other, known, named, _, hot, _⟩ accepts
          rw [same known] at hot named
          exact named ▸ admitted hot accepts

/-- The registration hold, whose lock no other request shares. -/
theorem registrationHold_charged (sound : Sound s.store) {spendPrevouts escapePrevouts : Option PrevoutFetch}
    (clock : RegistrationClock)
    (fetched : ∀ refused, nodeLocalPrevoutFetchFailure spendPrevouts escapePrevouts = some refused →
      ¬Accepts (.ok refused)) (id : String) :
    let now := s.sign.coordNonces.effectiveNow clock.wall
    let out := node.registrationHold flight verdict carrier spendPrevouts escapePrevouts clock s
    Charged (Gone s.store now clock) id (AdmitsHot node flight.request now s out.2 id) s out := by
  unfold registrationHold
  split_ifs
  · exact charged_refusal (.of_same rfl) (not_accepts_refusal _)
  · simp only
    split
    · exact charged_refusal (.of_same (stageSpendCarrier_hotBudget mounted s carrier _)) (not_accepts_refusal _)
    · split
      next undecoded => exact charged_refusal (.of_same rfl) (not_accepts_of_decodePair node undecoded)
      next decoded => exact answerPair_charged mounted s flight verdict carrier sound decoded _ clock fetched id

end Call

/-! ### The holds before it and the guard behind it -/

/-- The state the registration hold of a call finds, where no other request runs in the call's windows. -/
def NodeConfig.atRegistration (node : NodeConfig) (request : SignRequest) (compared : PinVerdict) (inputs : SignInputs)
    (s : NodeState) : NodeState :=
  let held := node.ingressHold request inputs.ingressWall inputs.ingressMono s
  match held.2 with
  | .windowA flight =>
    (node.commitHold flight (pinVerdict compared request) (node.carrierOf request) inputs.commitWall held.1).1
  | _ => held.1

theorem verifyCoordAuth_refuses {node : NodeConfig} {request : CoordRequest} {coordSig : String} {now : Nat}
    {nonces nonces' : NonceLog} {monoNow : Option Nat} {refused : SignResponse}
    (checked : node.verifyCoordAuth request coordSig now nonces monoNow = (nonces', .error refused)) :
    ¬Accepts (.ok refused) := by
  unfold verifyCoordAuth at checked
  split at checked
  next unsigned =>
    cases checked
    unfold verifyCoordSignature at unsigned
    split at unsigned
    · cases unsigned
      exact not_accepts_refusal _
    · split at unsigned
      · cases unsigned
        exact not_accepts_refusal _
      · split_ifs at unsigned
        cases unsigned
        exact not_accepts_refusal _
  next =>
    simp only at checked
    split at checked
    next refusal =>
      cases checked
      unfold nonceRefusal at refusal
      split at refusal
      · cases refusal
      all_goals
        cases refusal
        exact not_accepts_refusal _
    next => cases checked

/-- What the ingress hold answers is no acceptance. -/
theorem ingressHold_answers {node : NodeConfig} {request : SignRequest} {wall mono : Nat} {s t : NodeState}
    {outcome : IngressOutcome} (held : node.ingressHold request wall mono s = (t, outcome)) :
    (∀ result, outcome = .answered result → ¬Accepts result) ∧
      (∀ response, outcome = .unsent response → ¬Accepts (.ok response)) ∧
      ∀ flight, outcome = .windowA flight → flight.request = request := by
  have answered : ∀ {result : SignResult}, ¬Accepts result →
      (∀ other, IngressOutcome.answered result = .answered other → ¬Accepts other) ∧
        (∀ response, IngressOutcome.answered result = .unsent response → ¬Accepts (.ok response)) ∧
        ∀ flight, IngressOutcome.answered result = .windowA flight → flight.request = request := by
    intro result refuses
    refine ⟨?_, fun _ same => (nomatch same), fun _ same => (nomatch same)⟩
    rintro _ ⟨⟩
    exact refuses
  unfold ingressHold at held
  simp only at held
  split_ifs at held
  · cases held
    exact answered (not_accepts_refusal _)
  · split at held
    next refused =>
      cases held
      exact answered (verifyCoordAuth_refuses refused)
    next =>
      split at held
      · cases held
        exact answered (not_accepts_error _)
      · split at held
        · cases held
          exact ⟨fun _ same => (nomatch same), by rintro _ ⟨⟩; exact not_accepts_refusal _, fun _ same => (nomatch same)⟩
        · cases held
          exact ⟨fun _ same => (nomatch same), fun _ same => (nomatch same), by rintro _ ⟨⟩; rfl⟩

/-- What the commit hold answers is no acceptance. -/
theorem commitHold_answers {node : NodeConfig} {flight : Flight} {verdict : PinVerdict} {carrier : String} {wall : Nat}
    {s t : NodeState} {outcome : CommitOutcome}
    (held : node.commitHold flight verdict carrier wall s = (t, outcome)) :
    (∀ response claim, outcome = .leaving response claim → ¬Accepts (.ok response)) ∧
      (∀ response claim secs, outcome = .backoff response claim secs → ¬Accepts (.ok response)) ∧
      ∀ later, outcome = .windowB later → later.request = flight.request := by
  have pin : ∀ locked, ¬Accepts (.ok (pinRefusal locked)) := by
    intro locked
    cases locked <;> exact not_accepts_refusal _
  have leaving : ∀ {refused : SignResponse} {guard : Option MemoGuard}, ¬Accepts (.ok refused) →
      (∀ response claim, CommitOutcome.leaving refused guard = .leaving response claim → ¬Accepts (.ok response)) ∧
        (∀ response claim secs, CommitOutcome.leaving refused guard = .backoff response claim secs →
          ¬Accepts (.ok response)) ∧
        ∀ later, CommitOutcome.leaving refused guard = .windowB later → later.request = flight.request := by
    intro refused guard refuses
    refine ⟨?_, fun _ _ _ same => (nomatch same), fun _ same => (nomatch same)⟩
    rintro _ _ ⟨⟩
    exact refuses
  unfold commitHold at held
  by_cases locked : s.lockdown = true
  · rw [if_pos locked] at held
    cases held
    exact leaving (not_accepts_refusal _)
  rw [if_neg locked] at held
  simp only at held
  cases clock : node.clockRefusal "post-pin" flight.request.expiry wall (s.sign.coordNonces.effectiveNow wall) with
  | some refused =>
    rw [clock] at held
    cases held
    exact leaving (not_accepts_refusal _)
  | none =>
    rw [clock] at held
    generalize node.fireArmHook verdict carrier flight (s.sign.coordNonces.effectiveNow wall) s = hook at held
    generalize hook.1.sign.pinBudget.charge verdict _ node.pinBudgetConfig = charged at held
    simp only at held
    by_cases refuse : charged.2.refuse = true
    · rw [if_pos refuse] at held
      cases held
      exact ⟨fun _ _ same => (nomatch same), by rintro _ _ _ ⟨⟩; exact pin _, fun _ same => (nomatch same)⟩
    · rw [if_neg refuse] at held
      cases held
      exact ⟨fun _ _ same => (nomatch same), fun _ _ _ same => (nomatch same), by rintro _ ⟨⟩; rfl⟩

/-- The candidates and the ledger are as they were. -/
structure SameBooks (s t : NodeState) : Prop where
  hotBudget : t.store.hotBudget = s.store.hotBudget
  candidates : t.store.candidates = s.store.candidates

theorem SameBooks.trans {s t u : NodeState} (first : SameBooks s t) (second : SameBooks t u) : SameBooks s u :=
  ⟨second.hotBudget.trans first.hotBudget, second.candidates.trans first.candidates⟩

section Around

variable {node : NodeConfig} {ch : ChannelState} (mounted : node.channel = some ch) (s : NodeState)

theorem sameBooks_fireArmHook (verdict : PinVerdict) (carrier : String) (flight : Flight) (now : Nat) :
    SameBooks s (node.fireArmHook verdict carrier flight now s).1 := by
  unfold fireArmHook
  cases flight.generation with
  | none => exact ⟨rfl, rfl⟩
  | some generation =>
    refine ⟨recordArmIntent_hotBudget _ _ _ _ _ _ _ _, ?_⟩
    unfold recordArmIntent upgradeMemo
    simp only
    split
    · split_ifs <;> rfl
    · rfl

theorem sameBooks_dropClaim (claim : Option MemoGuard) (mono : Nat) : SameBooks s (dropClaim claim mono s) := by
  have released : ∀ (store : PartialStore) nonce generation,
      (store.releaseNonceClaim nonce generation).hotBudget = store.hotBudget ∧
        (store.releaseNonceClaim nonce generation).candidates = store.candidates := by
    intro store nonce generation
    unfold releaseNonceClaim
    split_ifs
    · exact ⟨rfl, rfl⟩
    · exact ⟨rfl, rfl⟩
  have ended : ∀ (store : PartialStore) carrier, (store.endCarrierRuling carrier mono).hotBudget = store.hotBudget ∧
      (store.endCarrierRuling carrier mono).candidates = store.candidates := by
    intro store carrier
    unfold endCarrierRuling
    simp only
    split
    · split_ifs
      · exact ⟨rfl, rfl⟩
      · exact ⟨rfl, rfl⟩
    · exact ⟨rfl, rfl⟩
  unfold dropClaim
  cases claim with
  | none => exact ⟨rfl, rfl⟩
  | some guard =>
    have first : SameBooks s { s with store :=
        if guard.ownsMemo then s.store.releaseNonceClaim guard.nonce guard.generation else s.store } := by
      cases guard.ownsMemo with
      | true => exact ⟨(released _ _ _).1, (released _ _ _).2⟩
      | false => exact ⟨rfl, rfl⟩
    simp only
    cases guard.rulingCarrier with
    | none => exact first
    | some carrier => exact first.trans ⟨(ended _ carrier).1, (ended _ carrier).2⟩

/-- A call answers before its registration without accepting, or by its registration hold. -/
theorem heldSign_ends (request : SignRequest) (compared : PinVerdict) (inputs : SignInputs) :
    let entry := node.atRegistration request compared inputs s
    let held := node.heldSign request compared inputs s
    held.state.store = entry.store ∧ ¬Accepts held.result ∨
      ∃ flight spendPrevouts escapePrevouts, flight.request = request ∧
        (∀ refused, nodeLocalPrevoutFetchFailure spendPrevouts escapePrevouts = some refused →
          ¬Accepts (.ok refused)) ∧
        (held.state, held.result) = node.registrationHold flight (pinVerdict compared request) (node.carrierOf request)
          spendPrevouts escapePrevouts inputs.registration entry := by
  unfold heldSign atRegistration
  simp only
  cases ingress : node.ingressHold request inputs.ingressWall inputs.ingressMono s with
  | mk entered outcome =>
    obtain ⟨answers, pushes, flies⟩ := ingressHold_answers ingress
    cases outcome with
    | answered result => exact .inl ⟨rfl, answers result rfl⟩
    | unsent response => exact .inl ⟨rfl, pushes response rfl⟩
    | windowA flight =>
      simp only
      cases commit : node.commitHold flight (pinVerdict compared request) (node.carrierOf request) inputs.commitWall
        entered with
      | mk committed outcome =>
        obtain ⟨leaves, sleeps, goes⟩ := commitHold_answers commit
        cases outcome with
        | leaving response claim => exact .inl ⟨rfl, leaves response claim rfl⟩
        | backoff response claim secs => exact .inl ⟨rfl, sleeps response claim secs rfl⟩
        | windowB later =>
          exact .inr ⟨later, _, _, (goes later rfl).trans (flies flight rfl),
            prefetch_refuses node request inputs.replies, rfl⟩

include mounted

theorem sameBooks_stageSpendCarrier (request : TaggedRequest) (carrier : String) :
    SameBooks s (node.stageSpendCarrier request carrier s) := by
  simp only [stageSpendCarrier, onStore, mounted]
  exact ⟨rfl, rfl⟩

theorem sameBooks_ingressHold (request : SignRequest) (wall mono : Nat) :
    SameBooks s (node.ingressHold request wall mono s).1 := by
  obtain ⟨_, ⟨same, _⟩ | ⟨_, _, _, _, claimed⟩⟩ := ingressHold_cases mounted request wall mono s
  · exact ⟨by rw [same], by rw [same]⟩
  · exact ⟨by rw [claimed]; rfl, by rw [claimed]; rfl⟩

theorem sameBooks_commitHold (flight : Flight) (verdict : PinVerdict) (carrier : String) (wall : Nat) :
    SameBooks s (node.commitHold flight verdict carrier wall s).1 := by
  unfold commitHold
  by_cases locked : s.lockdown = true
  · rw [if_pos locked]
    exact ⟨rfl, rfl⟩
  rw [if_neg locked]
  have hooked := @sameBooks_fireArmHook node s verdict carrier flight (s.sign.coordNonces.effectiveNow wall)
  simp only
  cases node.clockRefusal "post-pin" flight.request.expiry wall (s.sign.coordNonces.effectiveNow wall) with
  | some refused => exact hooked.trans (sameBooks_stageSpendCarrier mounted _ _ _)
  | none =>
    generalize node.fireArmHook verdict carrier flight (s.sign.coordNonces.effectiveNow wall) s = hook at hooked ⊢
    generalize hook.1.sign.pinBudget.charge verdict _ node.pinBudgetConfig = charged
    simp only
    by_cases refuse : charged.2.refuse = true
    · rw [if_pos refuse]
      refine hooked.trans (SameBooks.trans ?_ (sameBooks_stageSpendCarrier mounted _ _ _))
      exact ⟨rfl, rfl⟩
    · rw [if_neg refuse]
      exact hooked.trans ⟨rfl, rfl⟩

/-- The holds before the registration leave the books alone. -/
theorem atRegistration_keeps (request : SignRequest) (compared : PinVerdict) (inputs : SignInputs) :
    SameBooks s (node.atRegistration request compared inputs s) ∧
      StoreMoves node ch s (node.atRegistration request compared inputs s) := by
  have books := sameBooks_ingressHold mounted s request inputs.ingressWall inputs.ingressMono
  have moves : StoreMoves node ch s (node.ingressHold request inputs.ingressWall inputs.ingressMono s).1 :=
    moves_ingressSection mounted s (.spend request) inputs.ingressWall inputs.ingressMono
  unfold atRegistration
  simp only
  split
  · exact ⟨books.trans (sameBooks_commitHold mounted _ _ _ _ _), moves.trans (moves_commitHold mounted _ _ _ _ _)⟩
  · exact ⟨books, moves⟩

end Around

/-! ### Every reservation is a spend's -/

/-- The store is sound and what it has reserved was asked for by spends. -/
structure Accounted (node : NodeConfig) (s : PartialStore) : Prop where
  sound : Sound s
  priced : ∀ id r, reservationOf id s = some r → PricedAt node id r.outflowSat

theorem accounted_step {node : NodeConfig} {ch : ChannelState} {s : PartialStore} {op : StoreOp}
    (priced : Priced node op) (accounted : Accounted node s) : Accounted node (storeStep ch s op).1 := by
  refine ⟨sound_step ch s op accounted.sound, fun id r found => ?_⟩
  by_cases calm : op.callsLedger = false
  · rcases (@follows_step id ch s op accounted.sound.keyed calm).ledger with same | ⟨empty, _⟩
    · exact accounted.priced id r (same.symm.trans found)
    · rw [empty] at found
      cases found
  cases op with
  | registerCandidates requests arm hotReserve monoNow =>
    simp only [storeStep] at found
    split at found
    · exact accounted.priced id r found
    · rcases registerCandidates_origin requests found with ⟨old, _⟩ | ⟨spec, own, named, outflow, _⟩
      · exact accounted.priced id r old
      · subst own
        rw [outflow, ← named]
        exact priced _ rfl
  | reserveHotBudget target outflow wallNow expiry monoNow =>
    rcases reserve_lookup found with ⟨old, _⟩ | ⟨_, here, new⟩
    · exact accounted.priced id r old
    · rw [here, new]
      exact priced _ rfl
  | releaseHotBudget target =>
    have held : (s.hotBudget.release target).reservations.lookup id = some r := found
    rw [release_lookup] at held
    split_ifs at held
    exact accounted.priced id r held
  | _ => exact absurd rfl calm

theorem accounted_of_moves {node : NodeConfig} {ch : ChannelState} {s t : NodeState} (moves : StoreMoves node ch s t)
    (accounted : Accounted node s.store) : Accounted node t.store :=
  Reaches.invariant moves (Accounted node) (fun _ _ priced accounted => accounted_step priced accounted) accounted

/-- In every run in which only requests reserve. -/
theorem nodeAfter_accounted {node : NodeConfig} {ch : ChannelState} (mounted : node.channel = some ch) {s : NodeState}
    {config : StoreConfig} (fresh : s.store = initialStore config) (count : config.maxActiveCandidates < 2 ^ 63)
    (bytes : config.maxBytes < 2 ^ 63) {run : List NodeOp} (calls : ∀ op, .background op ∈ run → asks op = none) :
    Accounted node (node.nodeAfter s run).node.store := by
  apply exec_invariant_of node.nodeStep (fun op => ∀ store, op = .background store → asks store = none)
    (fun w => Accounted node w.node.store)
  · intro w op silent accounted
    exact accounted_of_moves (moves_nodeStep mounted w op (fun store same => priced_of_silent (silent store same)))
      accounted
  · rw [show (⟨{ s with spendPreflight := 0 }, ∅, ∅⟩ : World).node.store = initialStore config from fresh]
    refine ⟨sound_initialStore count bytes, ?_⟩
    intro id r found
    cases found
  · intro op member store same
    exact calls store (same ▸ member)

/-- The rules where the node's own code gives them: the class by the outputs of the transaction, and the name by the
digest of the commitment. -/
structure CodeRules (node : NodeConfig) (params : CheckParams) (policyVersion : Nat) : Prop where
  classify : ∀ psbt, node.rules.classify psbt = Policy.classify psbt params
  commitmentId : ∀ psbt expiry, node.rules.commitmentId psbt expiry =
    toHex (node.rules.sha256 (commitmentOf node.walletId policyVersion psbt expiry).canonicalBytes)
  parsed : ∀ text psbt, node.rules.parsePsbt text = .ok psbt → Encodable psbt.unsignedTx
  walletId : node.walletId.length = 32
  policyVersion : policyVersion < 2 ^ 32

/-- The bytes of a commitment hold the expiry as a `u64`. -/
theorem canonicalBytes_mod (walletId : Bytes) (policyVersion : Nat) (psbt : Psbt) (expiry : Nat) :
    (commitmentOf walletId policyVersion psbt (expiry % 2 ^ 64)).canonicalBytes =
      (commitmentOf walletId policyVersion psbt expiry).canonicalBytes := by
  have written : beBytes 8 (expiry % 2 ^ 64) = beBytes 8 expiry := congrArg List.reverse (leBytes_mod 8 expiry)
  simp only [Commitment.canonicalBytes, commitmentOf, written]

section Pricing

variable {node : NodeConfig} {params : CheckParams} {policyVersion : Nat} (code : CodeRules node params policyVersion)
  (injective : Function.Injective node.rules.sha256)
include code injective

/-- One name is one transaction. -/
theorem unsignedTx_of_commitmentId {text text' : String} {psbt psbt' : Psbt} {expiry expiry' : Nat}
    (first : node.rules.parsePsbt text = .ok psbt) (second : node.rules.parsePsbt text' = .ok psbt')
    (same : node.rules.commitmentId psbt expiry = node.rules.commitmentId psbt' expiry') :
    psbt.unsignedTx = psbt'.unsignedTx := by
  rw [code.commitmentId, code.commitmentId] at same
  have preimages := injective (toHex_injective same)
  rw [← canonicalBytes_mod, ← canonicalBytes_mod node.walletId policyVersion psbt'] at preimages
  apply unsignedTx_of_commitmentOf
  refine Commitment.canonicalBytes_injective ?_ ?_ preimages
  · exact commitmentOf_encodable code.walletId code.policyVersion (code.parsed text psbt first)
      (Nat.mod_lt _ (by decide))
  · exact commitmentOf_encodable code.walletId code.policyVersion (code.parsed text' psbt' second)
      (Nat.mod_lt _ (by decide))

/-- So a reservation under a spend's name is of its outflow. -/
theorem classify_of_pricedAt {request : SignRequest} {pair : SpendPair} {outflow : Nat}
    (priced : PricedAt node pair.commitmentId outflow) (decoded : node.decodePair request = .ok pair) :
    node.rules.classify pair.spend = .ok ⟨.hot, outflow⟩ := by
  obtain ⟨text, psbt, expiry, parsed, named, hot⟩ := priced
  obtain ⟨parsed', named'⟩ := decodePair_spend decoded
  have same := unsignedTx_of_commitmentId code injective parsed parsed' (named.trans named')
  rw [code.classify, Policy.classify] at hot ⊢
  rw [← same]
  exact hot

end Pricing

/-- What a call owes the ledger that came to `s`, found `entry` at its registration and left `t`. A refusal keeps every
reservation that its own sweep does not refund and its own readings do not retire, and adds none. A hot spend that
is admitted has one reservation, of its classified outflow. -/
structure Costs (node : NodeConfig) (request : SignRequest) (clock : RegistrationClock) (s entry t : NodeState)
    (result : SignResult) : Prop where
  kept : ¬Accepts result → ∀ id r, reservationOf id s.store = some r →
    ¬Gone entry.store (entry.sign.coordNonces.effectiveNow clock.wall) clock id r → reservationOf id t.store = some r
  unreserved : ¬Accepts result → ∀ id r, reservationOf id t.store = some r → reservationOf id s.store = some r
  reserved : ∀ id, AdmitsHot node request (entry.sign.coordNonces.effectiveNow clock.wall) entry result id →
    ∃ pair r, node.decodePair request = .ok pair ∧ node.rules.classify pair.spend = .ok ⟨.hot, r.outflowSat⟩ ∧
      ∀ held, reservationOf id t.store = some held ↔ held = r

/-- The reservation an admission finds is the spend's own. -/
theorem costs_of_charged {node : NodeConfig} {params : CheckParams} {policyVersion : Nat}
    (code : CodeRules node params policyVersion) (injective : Function.Injective node.rules.sha256)
    {request : SignRequest} {clock : RegistrationClock} {entry : NodeState} {out : NodeState × SignResult}
    (accounted : Accounted node out.1.store)
    (charged : ∀ id, Charged (Gone entry.store (entry.sign.coordNonces.effectiveNow clock.wall) clock) id
      (AdmitsHot node request (entry.sign.coordNonces.effectiveNow clock.wall) entry out.2 id) entry out) :
    Costs node request clock entry entry out.1 out.2 := by
  refine ⟨fun calm => ((charged "").refused calm).keeps, fun calm => ((charged "").refused calm).adds, ?_⟩
  intro id admits
  have metered := (charged id).admitted admits
  obtain ⟨pair, decoded, named, _, _, accepts⟩ := admits
  obtain ⟨r, held⟩ := metered accepts
  refine ⟨pair, r, decoded, ?_, fun other => ?_⟩
  · exact classify_of_pricedAt code injective (named ▸ accounted.priced id r held) decoded
  · rw [held, Option.some.injEq]
    exact eq_comm

/-- The books before the entry and after the exit of a call are those of its registration. -/
theorem Costs.around {node : NodeConfig} {request : SignRequest} {clock : RegistrationClock} {s entry t u : NodeState}
    {result : SignResult} (before : SameBooks s entry) (after : SameBooks t u)
    (costs : Costs node request clock entry entry t result) : Costs node request clock s entry u result := by
  have found : ∀ id, reservationOf id entry.store = reservationOf id s.store := by
    intro id
    rw [reservationOf, before.hotBudget]
    rfl
  have left : ∀ id, reservationOf id u.store = reservationOf id t.store := by
    intro id
    rw [reservationOf, after.hotBudget]
    rfl
  constructor
  · intro calm id r held kept
    rw [left]
    exact costs.kept calm id r ((found id).trans held) kept
  · intro calm id r held
    rw [left] at held
    exact (found id).symm.trans (costs.unreserved calm id r held)
  · intro id admits
    simp only [left]
    exact costs.reserved id admits

/-- A refused spend costs no budget, over every run of the node in which only requests reserve: for a whole call with
nothing else in its windows, and for a registration hold that any other requests have run before. -/
theorem refused_spend_costs_no_budget {node : NodeConfig} {ch : ChannelState} (mounted : node.channel = some ch)
    {params : CheckParams} {policyVersion : Nat} (code : CodeRules node params policyVersion)
    (injective : Function.Injective node.rules.sha256) {config : StoreConfig}
    (signedCount : config.maxActiveCandidates < 2 ^ 63) (signedBytes : config.maxBytes < 2 ^ 63) {start : NodeState}
    (fresh : start.store = initialStore config) (run : List NodeOp)
    (calls : ∀ op, .background op ∈ run → asks op = none) :
    let s := (node.nodeAfter start run).node
    (∀ request compared inputs,
        let out := node.handleSign request compared inputs s
        Costs node request inputs.registration s (node.atRegistration request compared inputs s) out.1 out.2) ∧
      ∀ (flight : Flight) (verdict : PinVerdict) (carrier : String) (replies : Option (ChainReply × ChainReply))
        (clock : RegistrationClock),
        let fetched := node.prefetchSpendEscapePrevouts flight.request replies
        let out := node.registrationHold flight verdict carrier fetched.1 fetched.2 clock s
        Costs node flight.request clock s s out.1 out.2 := by
  intro s
  have accounted : Accounted node s.store := nodeAfter_accounted mounted fresh signedCount signedBytes calls
  have holds : ∀ (entry : NodeState), Accounted node entry.store → ∀ (flight : Flight) verdict carrier clock
      (spendPrevouts escapePrevouts : Option PrevoutFetch),
      (∀ refused, nodeLocalPrevoutFetchFailure spendPrevouts escapePrevouts = some refused → ¬Accepts (.ok refused)) →
      let out := node.registrationHold flight verdict carrier spendPrevouts escapePrevouts clock entry
      Costs node flight.request clock entry entry out.1 out.2 := by
    intro entry accounted flight verdict carrier clock spendPrevouts escapePrevouts fetched
    apply costs_of_charged code injective
    · exact accounted_of_moves (moves_registrationHold mounted entry flight verdict carrier _ _ clock) accounted
    · exact registrationHold_charged mounted entry flight verdict carrier accounted.sound clock fetched
  constructor
  · intro request compared inputs
    obtain ⟨before, moves⟩ := atRegistration_keeps mounted s request compared inputs
    obtain ⟨_, returned, answer⟩ := handleSign_returns node request compared inputs s
    have dropped := sameBooks_dropClaim (node.heldSign request compared inputs s).state
      (node.heldSign request compared inputs s).claim inputs.exitMono
    have after : SameBooks (node.heldSign request compared inputs s).state (node.handleSign request compared inputs s).1 :=
      ⟨by rw [returned, dropped.hotBudget], by rw [returned, dropped.candidates]⟩
    simp only
    rw [answer]
    rcases heldSign_ends s request compared inputs with ⟨same, calm⟩ | ⟨flight, spend, escape, rfl, fetched, held⟩
    · apply Costs.around before after
      refine ⟨fun _ id r found _ => by rw [same]; exact found, fun _ id r found => by rw [← same]; exact found, ?_⟩
      rintro id ⟨_, _, _, _, _, accepts⟩
      exact absurd accepts calm
    · apply Costs.around before after
      have costs := holds _ (accounted_of_moves moves accounted) flight (pinVerdict compared flight.request)
        (node.carrierOf flight.request) inputs.registration spend escape fetched
      simp only [← held] at costs
      exact costs
  · intro flight verdict carrier replies clock
    exact holds s accounted flight verdict carrier clock _ _ (prefetch_refuses node flight.request replies)

theorem accepts_iff_toOption (result : SignResult) :
    Accepts result ↔ ∃ accepted, result.toOption = some (.accepted accepted) := by
  unfold Accepts
  cases result with
  | error bad => simp [Except.toOption]
  | ok response => simp [Except.toOption]

theorem cachedVerdict_empty {replay : ReplayLog} (empty : replay = ∅) (acceptedReplayKey commitmentId : String)
    (now : Nat) : cachedVerdict replay acceptedReplayKey commitmentId now = none := by
  simp [cachedVerdict, ReplayLog.get, empty]

theorem not_accepts_of_toOption {result : SignResult}
    (refused : result.toOption.any (fun response => match response with | .accepted _ => true | .refusal _ => false) =
      false) : ¬Accepts result := by
  rw [accepts_iff_toOption]
  rintro ⟨accepted, same⟩
  rw [same] at refused
  cases refused

namespace Sample
open Channel.Sample

/-- The vault pays itself at one script and a shop at another. -/
def shopParams : CheckParams :=
  ⟨⟨some [⟨false, fun _ => some [0, 32]⟩]⟩, [⟨some [⟨false, fun _ => some [0, 20]⟩]⟩], none, 0, 100000⟩

/-- The node with its own classes and names. -/
def meteredNode : NodeConfig :=
  { node with
    walletId := List.replicate 32 7
    rules := { rules with
      parsePsbt := fun text => .ok (psbt 1 (if text = "spend" then 10 else if text = "escape" then 11 else 12))
      verifyEscape := fun psbt _ =>
        if psbt.unsignedTx.lockTime = 12 then .error ⟨.destNotAllowed, "escape:destination", "output 0"⟩ else .ok ()
      classify := fun psbt => Policy.classify psbt shopParams
      commitmentId := fun psbt expiry =>
        toHex (commitmentOf (List.replicate 32 7) 1 psbt expiry).canonicalBytes } }

theorem meteredNode_code : CodeRules meteredNode shopParams 1 where
  classify _ := rfl
  commitmentId _ _ := rfl
  parsed text known parsed := by
    have encodable : ∀ lockTime < 2 ^ 32, Encodable (psbt 1 lockTime).unsignedTx :=
      fun lockTime small => ⟨by simp [psbt], small, by simp [psbt], by simp [psbt]⟩
    cases parsed
    apply encodable
    split_ifs <;> decide
  walletId := by decide
  policyVersion := by decide

/-- A call at one instant. -/
def inputsAt (now : Nat) : SignInputs :=
  ⟨now, now, now, ⟨now, now, now, now⟩, some (.ok [some coin], .ok [some coin]), now⟩

/-- The name of the spend that expires at 5000. -/
def paidId : String := meteredNode.rules.commitmentId (psbt 1 10) 5000

def firstCall : NodeState × SignResult :=
  meteredNode.handleSign (spendRequest "nonce-a" 5000) .normal (inputsAt 100) (meteredNode.nodeAfter start []).node

def firstEntry : NodeState :=
  meteredNode.atRegistration (spendRequest "nonce-a" 5000) .normal (inputsAt 100) (meteredNode.nodeAfter start []).node

/-- The same spend with an escape that pays elsewhere. -/
def strayRequest : SignRequest := { spendRequest "nonce-a" 5000 with escapePsbt := "stray" }

def strayCall : NodeState × SignResult :=
  meteredNode.handleSign strayRequest .normal (inputsAt 100) (meteredNode.nodeAfter start []).node

theorem firstCall_accepts : Accepts firstCall.2 :=
  (accepts_iff_toOption _).mpr ⟨⟨paidId, 100, 600⟩, by decide +kernel⟩

theorem decodePair_spendRequest : ∃ pair, meteredNode.decodePair (spendRequest "nonce-a" 5000) = .ok pair ∧
    pair.spend = psbt 1 10 ∧ pair.commitmentId = paidId := ⟨_, rfl, rfl, rfl⟩

theorem firstEntry_replay : firstEntry.sign.replay = ∅ := rfl

theorem classify_spend : meteredNode.rules.classify (psbt 1 10) = .ok ⟨.hot, 90000⟩ := rfl

theorem firstCall_admits :
    AdmitsHot meteredNode (spendRequest "nonce-a" 5000)
      (firstEntry.sign.coordNonces.effectiveNow (inputsAt 100).registration.wall) firstEntry firstCall.2 paidId := by
  obtain ⟨pair, decoded, spend, named⟩ := decodePair_spendRequest
  have hot : SpendsHot meteredNode pair := ⟨_, spend ▸ classify_spend, rfl⟩
  exact ⟨pair, decoded, named, cachedVerdict_empty firstEntry_replay _ _ _, hot, firstCall_accepts⟩

theorem strayCall_refuses : ¬Accepts strayCall.2 := not_accepts_of_toOption (by decide +kernel)

end Sample

/-- The spend takes its 90000 sat. With the stray escape it is refused behind its reservation, and nothing is left of
it. -/
theorem refused_spend_costs_no_budget_sample :
    (∃ r, r.outflowSat = 90000 ∧ ∀ held, reservationOf Sample.paidId Sample.firstCall.1.store = some held ↔ held = r) ∧
      reservationOf Sample.paidId Sample.strayCall.1.store = none := by
  have costs := (@refused_spend_costs_no_budget Sample.meteredNode _ rfl _ _ Sample.meteredNode_code
    (fun _ _ same => same) Channel.Sample.config (by decide) (by decide) Sample.start rfl [] nofun).1
  constructor
  · have first : Costs Sample.meteredNode (Sample.spendRequest "nonce-a" 5000) (Sample.inputsAt 100).registration
        (Sample.meteredNode.nodeAfter Sample.start []).node Sample.firstEntry Sample.firstCall.1 Sample.firstCall.2 :=
      costs (Sample.spendRequest "nonce-a" 5000) .normal (Sample.inputsAt 100)
    obtain ⟨pair, r, decoded, hot, one⟩ := first.reserved Sample.paidId Sample.firstCall_admits
    obtain ⟨known, decoded', spend, _⟩ := Sample.decodePair_spendRequest
    cases decoded.symm.trans decoded'
    rw [spend, Sample.classify_spend, Except.ok.injEq] at hot
    exact ⟨r, (congrArg Classification.hotOutflow hot).symm, one⟩
  · have stray : Costs Sample.meteredNode Sample.strayRequest (Sample.inputsAt 100).registration
        (Sample.meteredNode.nodeAfter Sample.start []).node _ Sample.strayCall.1 Sample.strayCall.2 :=
      costs Sample.strayRequest .normal (Sample.inputsAt 100)
    by_contra held
    obtain ⟨r, found⟩ := Option.ne_none_iff_exists'.mp held
    have before := stray.unreserved Sample.strayCall_refuses Sample.paidId r found
    cases before

end BtcPolicy.Node
