import BtcPolicy.Channel.Accounting
import BtcPolicy.Channel.Arming

/-! The registration of a request's candidates is all or nothing. The preflight looks at the whole list
before the first insert, so what it passes the inserts cannot refuse; what it refuses leaves nothing behind. -/

namespace BtcPolicy.Channel
open FiniteMap Word Bitcoin HotLedger Runs PartialStore

/-! ### Refusals -/

/-- The ledger after the age-out that the revalidation starts with. -/
def agedOut (s : PartialStore) (hotReserve : Option HotReserveSpec) (monoNow : Nat) : HotBudgetLedger :=
  match hotReserve with
  | some spec => s.hotBudget.prune monoNow spec.wallNow
  | none => s.hotBudget

theorem revalidate_refused {s : PartialStore} {hotReserve : Option HotReserveSpec} {monoNow : Nat}
    {refusal : HotReserveRefusal} (refused : (s.revalidate hotReserve monoNow).2 = .error refusal) :
    (s.revalidate hotReserve monoNow).1 = { s with hotBudget := agedOut s hotReserve monoNow } := by
  cases hotReserve with
  | none => cases refused
  | some spec =>
    unfold revalidate at refused ⊢
    simp only at refused ⊢
    obtain ⟨_, _, same⟩ | ⟨_, same⟩ | ⟨_, _, _, same⟩ :=
      reserve_cases s.hotBudget spec.commitmentId spec.outflowSat monoNow spec.wallNow spec.expiry
    · rw [same] at refused
      cases refused
    · rw [same]
      rfl
    · rw [same] at refused
      cases refused

/-- What this attempt reserved is taken back, and nothing else. -/
theorem unwind_revalidated {s : PartialStore} {hotReserve : Option HotReserveSpec} {monoNow : Nat} {created : Bool}
    (answered : (s.revalidate hotReserve monoNow).2 = .ok created) :
    (s.revalidate hotReserve monoNow).1.unwindReserve created hotReserve =
      { s with hotBudget := agedOut s hotReserve monoNow } := by
  cases hotReserve with
  | none => rfl
  | some spec =>
    unfold revalidate at answered ⊢
    simp only at answered ⊢
    obtain ⟨_, _, same⟩ | ⟨_, same⟩ | ⟨absent, _, _, same⟩ :=
      reserve_cases s.hotBudget spec.commitmentId spec.outflowSat monoNow spec.wallNow spec.expiry
    · rw [same] at answered ⊢
      cases answered
      rfl
    · rw [same] at answered
      cases answered
    · rw [same] at answered ⊢
      cases answered
      have undone : ((s.hotBudget.prune monoNow spec.wallNow).reservations.insert spec.commitmentId
          ⟨spec.outflowSat, monoNow, spec.expiry⟩).erase spec.commitmentId =
          (s.hotBudget.prune monoNow spec.wallNow).reservations := erase_insert_absent absent _
      simp only [unwindReserve, HotBudgetLedger.release, if_true, undone]
      rfl

theorem agedOut_lookup {s : PartialStore} {hotReserve : Option HotReserveSpec} {monoNow : Nat} {id : String}
    {r : HotReservation} :
    (agedOut s hotReserve monoNow).reservations.lookup id = some r ↔
      s.hotBudget.reservations.lookup id = some r ∧
        ∀ spec, hotReserve = some spec →
          HotBudgetLedger.isLive r (s.hotBudget.floor monoNow) spec.wallNow = true := by
  cases hotReserve with
  | none => simp [agedOut]
  | some spec => simpa [agedOut] using lookup_prune

/-! ### The preflight -/

/-- The candidates that are not resident yet. -/
def newcomers (s : PartialStore) (candidates : List Candidate) : List Candidate :=
  candidates.filter (fun c => (s.candidates.lookup c.commitmentId).isNone)

/-- No candidate disagrees with the resident of its id, and the newcomers fit. -/
structure Preflight (s : PartialStore) (candidates : List Candidate) : Prop where
  matching : ∀ c ∈ candidates, ∀ resident, s.candidates.lookup c.commitmentId = some resident →
    resident.matchesRegistration c = true
  count : size s.candidates + (newcomers s candidates).length ≤ s.maxActiveCandidates
  bytes : satAdd s.reservedBytes ((newcomers s candidates).map Candidate.capacityBytes).sum ≤ s.maxBytes

theorem satAdd_foldl (a : Nat) (l : List Nat) : satAdd a (l.foldl satAdd 0) = satAdd a l.sum := by
  have folded : l.foldl satAdd 0 = satAdd 0 (l.map id).sum := foldl_eq_satAdd (fun _ _ _ => rfl) l 0 (Nat.zero_le _)
  rw [folded, List.map_id]
  unfold satAdd
  omega

theorem preflight_of_admitted {s : PartialStore} {candidates : List Candidate}
    (word : s.maxActiveCandidates < maxWord) (unconflicted : s.anyConflict candidates = false)
    (fits : s.overCapacity candidates = false) : Preflight s candidates := by
  unfold overCapacity at fits
  simp only [Bool.or_eq_false_iff, decide_eq_false_iff_not, Nat.not_lt] at fits
  refine ⟨?_, ?_, ?_⟩
  · intro c member resident found
    unfold anyConflict at unconflicted
    have here := List.any_eq_false.mp unconflicted c member
    simpa [found] using here
  · have exact' : satAdd (size s.candidates) (newcomers s candidates).length =
        size s.candidates + (newcomers s candidates).length := satAdd_eq_of_lt (fits.1.trans_lt word)
    exact exact' ▸ fits.1
  · rw [← satAdd_foldl]
    exact fits.2

/-- A store within its limits refuses for capacity only where there is a newcomer. -/
theorem newcomer_of_overCapacity {s : PartialStore} {candidates : List Candidate}
    (count : size s.candidates ≤ s.maxActiveCandidates) (bytes : s.reservedBytes ≤ s.maxBytes)
    (full : s.overCapacity candidates = true) :
    ∃ c ∈ candidates, s.candidates.lookup c.commitmentId = none := by
  by_contra none'
  have empty : candidates.filter (fun c => (s.candidates.lookup c.commitmentId).isNone) = [] := by
    apply List.filter_eq_nil_iff.mpr
    intro c member absent
    exact none' ⟨c, member, by simpa using absent⟩
  unfold overCapacity at full
  simp only [empty, List.length_nil, List.map_nil, List.foldl_nil, Bool.or_eq_true, decide_eq_true_eq] at full
  have countLe := satAdd_le_add (size s.candidates) 0
  have bytesLe := satAdd_le_add s.reservedBytes 0
  omega

/-! ### Admission -/

theorem matchesRegistration_refl (c : Candidate) : c.matchesRegistration c = true := by
  have each : ∀ vs : List SigningVariant, (vs.zip vs).all (fun pair => Candidate.sameVariant pair.1 pair.2) = true := by
    intro vs
    induction vs with
    | nil => rfl
    | cons v rest ih =>
      rw [List.zip_cons_cons, List.all_cons, ih]
      simp [Candidate.sameVariant]
  simp [Candidate.matchesRegistration, each c.variants]

/-- What one insert of a preflighted list does. -/
theorem register_preflighted {s : PartialStore} {c : Candidate} {rest : List Candidate}
    (preflight : Preflight s (c :: rest)) :
    (∃ resident, s.candidates.lookup c.commitmentId = some resident ∧ resident.matchesRegistration c = true ∧
        s.register c = (s, .alreadyPresent)) ∨
      s.candidates.lookup c.commitmentId = none ∧
        s.register c = ({ s with
          reservedBytes := satAdd s.reservedBytes c.capacityBytes
          candidates := s.candidates.insert c.commitmentId c }, .inserted) := by
  cases found : s.candidates.lookup c.commitmentId with
  | some resident =>
    have agree := preflight.matching c List.mem_cons_self resident found
    exact Or.inl ⟨resident, rfl, agree, by simp [register, found, agree]⟩
  | none =>
    right
    have counted := preflight.count
    have charged := preflight.bytes
    have head : newcomers s (c :: rest) = c :: newcomers s rest := by simp [newcomers, found]
    rw [head] at counted charged
    simp only [List.length_cons] at counted
    simp only [List.map_cons, List.sum_cons] at charged
    have room : ¬s.maxActiveCandidates ≤ size s.candidates := by omega
    have byteRoom : ¬s.maxBytes < satAdd s.reservedBytes c.capacityBytes := by
      unfold satAdd at charged ⊢
      omega
    exact ⟨rfl, by simp [register, found, room, byteRoom]⟩

theorem preflight_tail {s : PartialStore} {c : Candidate} {rest : List Candidate}
    (distinct : ∀ other ∈ rest, other.commitmentId ≠ c.commitmentId) (preflight : Preflight s (c :: rest)) :
    Preflight (s.register c).1 rest := by
  rcases register_preflighted preflight with ⟨resident, found, _, same⟩ | ⟨absent, same⟩
  · have tail : newcomers s (c :: rest) = newcomers s rest := by simp [newcomers, found]
    rw [same]
    exact ⟨fun other member => preflight.matching other (List.mem_cons_of_mem _ member), tail ▸ preflight.count,
      tail ▸ preflight.bytes⟩
  · have head : newcomers s (c :: rest) = c :: newcomers s rest := by simp [newcomers, absent]
    have untouched : ∀ other ∈ rest, (s.candidates.insert c.commitmentId c).lookup other.commitmentId =
        s.candidates.lookup other.commitmentId :=
      fun other member => AList.lookup_insert_ne (distinct other member)
    have tail : newcomers (s.register c).1 rest = newcomers s rest := by
      rw [same]
      apply List.filter_congr
      intro other member
      rw [untouched other member]
    have counted := preflight.count
    have charged := preflight.bytes
    rw [head] at counted charged
    simp only [List.length_cons] at counted
    simp only [List.map_cons, List.sum_cons] at charged
    refine ⟨?_, ?_, ?_⟩
    · rw [same]
      intro other member resident found
      rw [untouched other member] at found
      exact preflight.matching other (List.mem_cons_of_mem _ member) resident found
    · rw [tail, same]
      show size (s.candidates.insert c.commitmentId c) + _ ≤ s.maxActiveCandidates
      rw [size_insert_absent absent]
      omega
    · rw [tail, same]
      show satAdd (satAdd s.reservedBytes c.capacityBytes) _ ≤ _
      rw [satAdd_satAdd]
      exact charged

/-- What is resident stays as it is through the inserts. -/
theorem registerAll_keeps (candidates : List Candidate) (s : PartialStore) {id : String} {c : Candidate}
    (found : s.candidates.lookup id = some c) : (s.registerAll candidates).1.candidates.lookup id = some c := by
  induction candidates generalizing s with
  | nil => exact found
  | cons new rest ih =>
    apply ih
    rcases register_cases s new with ⟨same, _⟩ | ⟨absent, _, _, same⟩
    · rwa [same]
    · have different : id ≠ new.commitmentId := by
        intro equal
        rw [equal, absent] at found
        cases found
      rw [same]
      exact (AList.lookup_insert_ne different).trans found

/-- Preflighted inserts all succeed, and each candidate is then resident under its id. -/
theorem registerAll_preflighted {candidates : List Candidate} {s : PartialStore}
    (distinct : (candidates.map Candidate.commitmentId).Nodup) (preflight : Preflight s candidates) :
    (∀ outcome ∈ (s.registerAll candidates).2, outcome = .inserted ∨ outcome = .alreadyPresent) ∧
      ∀ c ∈ candidates, ∃ resident, (s.registerAll candidates).1.candidates.lookup c.commitmentId = some resident ∧
        resident.matchesRegistration c = true := by
  induction candidates generalizing s with
  | nil => simp [registerAll]
  | cons c rest ih =>
    rw [List.map_cons, List.nodup_cons] at distinct
    have others : ∀ other ∈ rest, other.commitmentId ≠ c.commitmentId := by
      intro other member same
      exact distinct.1 (same ▸ List.mem_map_of_mem member)
    obtain ⟨outcomes, residents⟩ := ih distinct.2 (preflight_tail others preflight)
    have first : ((s.register c).2 = .inserted ∨ (s.register c).2 = .alreadyPresent) ∧
        ∃ resident, (s.register c).1.candidates.lookup c.commitmentId = some resident ∧
          resident.matchesRegistration c = true := by
      rcases register_preflighted preflight with ⟨resident, found, agree, same⟩ | ⟨_, same⟩
      · rw [same]
        exact ⟨Or.inr rfl, resident, found, agree⟩
      · rw [same]
        exact ⟨Or.inl rfl, c, AList.lookup_insert _, matchesRegistration_refl c⟩
    refine ⟨?_, ?_⟩
    · intro outcome member
      rcases List.mem_cons.mp member with here | later
      · exact here ▸ first.1
      · exact outcomes outcome later
    · intro other member
      rcases List.mem_cons.mp member with rfl | later
      · obtain ⟨resident, found, agree⟩ := first.2
        exact ⟨resident, registerAll_keeps rest _ found, agree⟩
      · exact residents other later

/-- Only the fire window of the candidate may have moved. -/
def Candidate.OnlyMoved (earlier later : Candidate) : Prop := later = { earlier with fire := later.fire }

theorem Candidate.OnlyMoved.trans {a b c : Candidate} (first : a.OnlyMoved b) (second : b.OnlyMoved c) :
    a.OnlyMoved c := by
  unfold Candidate.OnlyMoved at first second ⊢
  rw [second, first]

theorem refreshEscapeWindow_moves (target : String) (s : PartialStore) {id : String} {c : Candidate}
    (found : s.candidates.lookup id = some c) :
    ∃ later, (s.refreshEscapeWindow target).candidates.lookup id = some later ∧ c.OnlyMoved later := by
  unfold refreshEscapeWindow
  split_ifs with empty
  · exact ⟨c, found, rfl⟩
  · by_cases here : id = target
    · subst here
      refine ⟨reschedule s.armed.escapeWindow c, by simp [updateCandidate, found], ?_⟩
      unfold reschedule
      split_ifs <;> rfl
    · exact ⟨c, (lookup_adjust_ne here _ _).trans found, rfl⟩

theorem applyArmDirective_moves (arm : ArmDirective) (holds : List Nat) (s : PartialStore) {id : String}
    {c : Candidate} (found : s.candidates.lookup id = some c) :
    ∃ later, (s.applyArmDirective arm holds).candidates.lookup id = some later ∧ c.OnlyMoved later := by
  unfold applyArmDirective
  simp only
  let escapeLive := (s.candidates.lookup arm.sweepEscape).any Candidate.holderQuorumReached
  let armed := adoptSweep arm escapeLive (holds.foldl (shrinkToHold arm.epsilonSecs arm.now) s.armed)
  obtain ⟨middle, atMiddle, first⟩ := refreshEscapeWindow_moves arm.sweepEscape { s with armed := armed } found
  obtain ⟨later, atLater, second⟩ := refreshEscapeWindow_moves _ _ atMiddle
  exact ⟨later, atLater, first.trans second⟩

/-! ### The whole call -/

/-- The result is a reserve refusal, or contains a conflict or a capacity refusal. -/
def refusedRegistration : Except HotReserveRefusal (List RegisterOutcome) → Bool
  | .error _ => true
  | .ok outcomes => outcomes.any (fun outcome => decide (outcome = .conflict) || decide (outcome = .atCapacity))

/-- Nothing has changed but the reservations that both clocks had retired. -/
structure Untouched (hotReserve : Option HotReserveSpec) (monoNow : Nat) (before after : PartialStore) : Prop where
  candidates : after.candidates = before.candidates
  reservedBytes : after.reservedBytes = before.reservedBytes
  armed : after.armed = before.armed
  intents : after.intents = before.intents
  carriersByNonce : after.carriersByNonce = before.carriersByNonce
  reservations : ∀ id r, after.hotBudget.reservations.lookup id = some r ↔
    before.hotBudget.reservations.lookup id = some r ∧ ∀ spec, hotReserve = some spec →
      HotBudgetLedger.isLive r (before.hotBudget.floor monoNow) spec.wallNow = true

/-- Everything is resident, the carrier names the pair, and what was resident has kept its state. -/
structure Admitted (candidates : List Candidate) (arm : ArmDirective) (before after : PartialStore) : Prop where
  residents : ∀ c ∈ candidates, ∃ resident, after.candidates.lookup c.commitmentId = some resident ∧
    resident.matchesRegistration c = true
  carrier : (after.intents.lookup arm.carrier).isSome = (before.intents.lookup arm.carrier).isSome
  named : ∀ intent, after.intents.lookup arm.carrier = some intent →
    intent.spendCommitmentId = arm.spendCommitmentId ∧ intent.escapeCommitmentId = arm.sweepEscape
  kept : ∀ id earlier, before.candidates.lookup id = some earlier →
    ∃ later, after.candidates.lookup id = some later ∧
      later.holderQuorumReached = earlier.holderQuorumReached ∧ later.released = earlier.released ∧
      later.releasedThrough = earlier.releasedThrough ∧ later.rung = earlier.rung ∧
      later.releaseFloor = earlier.releaseFloor ∧ later.broadcast = earlier.broadcast ∧
      later.variants = earlier.variants

theorem untouched_agedOut (s : PartialStore) (hotReserve : Option HotReserveSpec) (monoNow : Nat) :
    Untouched hotReserve monoNow s { s with hotBudget := agedOut s hotReserve monoNow } :=
  ⟨rfl, rfl, rfl, rfl, rfl, fun _ _ => agedOut_lookup⟩

theorem enroll_outcomes (arm : ArmDirective) (candidates : List Candidate) (s : PartialStore) :
    (s.enroll arm candidates).2 = (s.registerAll candidates).2 := rfl

theorem admitted_enroll {s before : PartialStore} {candidates : List Candidate} {arm : ArmDirective}
    (distinct : (candidates.map Candidate.commitmentId).Nodup) (preflight : Preflight s candidates)
    (resident : s.candidates = before.candidates) (intents : s.intents = before.intents) :
    Admitted candidates arm before (s.enroll arm candidates).1 := by
  obtain ⟨_, registered⟩ := registerAll_preflighted distinct preflight
  have attached : (s.enroll arm candidates).1.intents =
      (before.attachPair arm.carrier arm.spendCommitmentId arm.sweepEscape).intents := by
    show adjust arm.carrier _ ((s.registerAll candidates).1.applyArmDirective arm (hotHolds candidates)).intents = _
    rw [applyArmDirective_intents, registerAll_intents, intents]
    rfl
  refine ⟨?_, ?_, ?_, ?_⟩
  · intro c member
    obtain ⟨first, found, agree⟩ := registered c member
    obtain ⟨later, atLater, moved⟩ := applyArmDirective_moves arm (hotHolds candidates) _ found
    refine ⟨later, atLater, ?_⟩
    rw [moved]
    exact agree
  · rw [attached]
    simp [attachPair, updateIntent]
  · intro intent found
    rw [attached] at found
    simp only [attachPair, updateIntent, lookup_adjust_self] at found
    obtain ⟨old, _, rfl⟩ := Option.map_eq_some_iff.mp found
    exact ⟨rfl, rfl⟩
  · intro id earlier found
    obtain ⟨later, atLater, moved⟩ := applyArmDirective_moves arm (hotHolds candidates) _
      (registerAll_keeps candidates s (resident ▸ found))
    refine ⟨later, atLater, ?_⟩
    rw [moved]
    exact ⟨rfl, rfl, rfl, rfl, rfl, rfl, rfl⟩

theorem reserve_ids (ch : ChannelState) (candidates : List Candidate) :
    (candidates.map (fun c => c.reservePartialCapacity ch.nodes ch.nodeId)).map Candidate.commitmentId =
      candidates.map Candidate.commitmentId := by
  rw [List.map_map]
  rfl

/-- The registration of one request's candidates, of distinct ids, in a store within its limits. -/
theorem registerCandidates_whole {ch : ChannelState} {s : PartialStore} {candidates : List Candidate}
    (distinct : (candidates.map Candidate.commitmentId).Nodup) (word : s.maxActiveCandidates < maxWord)
    (count : size s.candidates ≤ s.maxActiveCandidates) (bytes : s.reservedBytes ≤ s.maxBytes)
    (arm : ArmDirective) (hotReserve : Option HotReserveSpec) (monoNow : Nat) :
    (refusedRegistration (registerCandidates ch s candidates arm hotReserve monoNow).2 = true ∧
        Untouched hotReserve monoNow s (registerCandidates ch s candidates arm hotReserve monoNow).1) ∨
      (refusedRegistration (registerCandidates ch s candidates arm hotReserve monoNow).2 = false ∧
        Admitted candidates arm s (registerCandidates ch s candidates arm hotReserve monoNow).1) := by
  unfold registerCandidates
  simp only
  rcases answer : s.revalidate hotReserve monoNow with ⟨revalidated, refusal | created⟩
  · left
    have unwound := revalidate_refused (by rw [answer] : (s.revalidate hotReserve monoNow).2 = .error refusal)
    rw [answer] at unwound
    refine ⟨rfl, ?_⟩
    simp only at unwound ⊢
    rw [unwound]
    exact untouched_agedOut s hotReserve monoNow
  · have resident : revalidated.candidates = s.candidates := by
      have same := revalidate_candidates s hotReserve monoNow
      rwa [answer] at same
    have conserved := conserved_revalidate s hotReserve monoNow
    rw [answer] at conserved
    have unwound := unwind_revalidated (by rw [answer] : (s.revalidate hotReserve monoNow).2 = .ok created)
    rw [answer] at unwound
    have charge : revalidated.reservedBytes = s.reservedBytes := by
      have same : (s.revalidate hotReserve monoNow).1.reservedBytes = s.reservedBytes := by cases hotReserve <;> rfl
      rwa [answer] at same
    have intents : revalidated.intents = s.intents := by
      have same : (s.revalidate hotReserve monoNow).1.intents = s.intents := by cases hotReserve <;> rfl
      rwa [answer] at same
    simp only at unwound conserved ⊢
    split_ifs with conflict full
    · left
      refine ⟨?_, unwound ▸ untouched_agedOut s hotReserve monoNow⟩
      obtain ⟨c, member, _⟩ := List.any_eq_true.mp conflict
      simp only [refusedRegistration, List.any_eq_true]
      exact ⟨.conflict, List.mem_map.mpr ⟨c, member, rfl⟩, rfl⟩
    · left
      refine ⟨?_, unwound ▸ untouched_agedOut s hotReserve monoNow⟩
      obtain ⟨c, member, absent⟩ := newcomer_of_overCapacity
        (by rw [resident, conserved.maxActiveCandidates]; exact count)
        (by rw [charge, conserved.maxBytes]; exact bytes) full
      simp only [refusedRegistration, List.any_eq_true]
      exact ⟨.atCapacity, List.mem_map.mpr ⟨c, member, by simp [absent]⟩, rfl⟩
    · right
      have preflight := preflight_of_admitted (by rw [conserved.maxActiveCandidates]; exact word)
        (by simpa using conflict) (by simpa using full)
      have unrepeated := (reserve_ids ch candidates).symm ▸ distinct
      obtain ⟨outcomes, _⟩ := registerAll_preflighted unrepeated preflight
      have admitted : Admitted _ arm s _ := admitted_enroll unrepeated preflight resident intents
      refine ⟨?_, ?_, admitted.carrier, admitted.named, admitted.kept⟩
      · simp only [refusedRegistration, enroll_outcomes, List.any_eq_false]
        intro outcome member
        rcases outcomes outcome member with rfl | rfl <;> decide
      · intro c member
        exact admitted.residents (c.reservePartialCapacity ch.nodes ch.nodeId) (List.mem_map_of_mem member)

theorem storeAfter_balanced (ch : ChannelState) {config : StoreConfig} (signed : config.maxBytes < 2 ^ 63)
    (ops : List StoreOp) : Balanced (storeAfter ch config ops) := by
  apply exec_invariant (storeStep ch) Balanced (balanced_step ch)
  refine ⟨rfl, Nat.zero_le _, Nat.zero_le _, ?_⟩
  show config.maxBytes < maxWord
  unfold maxWord
  omega

theorem storeAfter_maxActive (ch : ChannelState) (config : StoreConfig) (ops : List StoreOp) :
    (storeAfter ch config ops).maxActiveCandidates = config.maxActiveCandidates :=
  exec_invariant (storeStep ch) (fun s => s.maxActiveCandidates = config.maxActiveCandidates)
    (fun s op same => (limits_step ch s op).2.trans same) _ rfl ops

/-- In every store a run reaches, a refused registration leaves everything as it was, and any other admits the
whole list and resets nothing. The caller builds the escape only when its id differs from the spend's, so the
ids of one call are distinct; the limits are read from signed TOML integers. -/
theorem registration_all_or_nothing (ch : ChannelState) {config : StoreConfig}
    (signedCount : config.maxActiveCandidates < 2 ^ 63) (signedBytes : config.maxBytes < 2 ^ 63)
    (ops : List StoreOp) {candidates : List Candidate}
    (distinct : (candidates.map Candidate.commitmentId).Nodup) (arm : ArmDirective)
    (hotReserve : Option HotReserveSpec) (monoNow : Nat) :
    (refusedRegistration (registerCandidates ch (storeAfter ch config ops) candidates arm hotReserve monoNow).2 = true →
        Untouched hotReserve monoNow (storeAfter ch config ops)
          (registerCandidates ch (storeAfter ch config ops) candidates arm hotReserve monoNow).1) ∧
      (refusedRegistration (registerCandidates ch (storeAfter ch config ops) candidates arm hotReserve monoNow).2 =
          false →
        Admitted candidates arm (storeAfter ch config ops)
          (registerCandidates ch (storeAfter ch config ops) candidates arm hotReserve monoNow).1) := by
  have balanced := storeAfter_balanced ch signedBytes ops
  have word : (storeAfter ch config ops).maxActiveCandidates < maxWord := by
    rw [storeAfter_maxActive]
    unfold maxWord
    omega
  rcases registerCandidates_whole distinct word balanced.count balanced.bytes arm hotReserve monoNow with
    ⟨refused, untouched⟩ | ⟨admitted, whole⟩
  · refine ⟨fun _ => untouched, ?_⟩
    intro contrary
    rw [refused] at contrary
    cases contrary
  · refine ⟨?_, fun _ => whole⟩
    intro contrary
    rw [admitted] at contrary
    cases contrary

namespace Sample

/-- A second hot spend with its escape. -/
def secondPair : List Candidate :=
  ((buildAll library [spend "b" "b-escape" 2 20 true (some ⟨150, 300⟩) 900, escape "b-escape" "b" 2 21 900]).toOption).getD []

def secondDirective : ArmDirective := ⟨"b-escape", "b", "carrier-b", false, 5, 20⟩

end Sample

/-- After a confirmed duress pair there is room for a second one, and none of the first is reset. -/
theorem registration_all_or_nothing_sample :
    Sample.secondPair.length = 2 ∧
      Admitted Sample.secondPair Sample.secondDirective
        (storeAfter Sample.channel Sample.config (Sample.confirmedRun true))
        (registerCandidates Sample.channel (storeAfter Sample.channel Sample.config (Sample.confirmedRun true))
          Sample.secondPair Sample.secondDirective (some ⟨"b", 40000, 20, 900⟩) 20).1 :=
  ⟨by decide, (registration_all_or_nothing Sample.channel (by decide) (by decide) (Sample.confirmedRun true)
    (by decide) Sample.secondDirective (some ⟨"b", 40000, 20, 900⟩) 20).2 (by decide +kernel)⟩

end BtcPolicy.Channel
