import BtcPolicy.Channel.Deadline
import BtcPolicy.Channel.Schedule
import BtcPolicy.Channel.Silence

/-! Pin silence. Two runs take the same operations with the same clock readings and differ in the verdicts of the
pin alone. The windows they write are what the pin could be read from before `T`: an armed store keeps its own
`T` in them, an unarmed one covers with the `T` it would have had. -/

namespace BtcPolicy.Channel
open FiniteMap Word Bitcoin HotLedger Runs PartialStore

/-! ### What the image decides -/

section Image

variable {ch : ChannelState} {s t : PartialStore}

theorem earliestHot_hush (regular : Regular s) (now : Nat) : s.hush.earliestHot now = s.earliestHot now := by
  have listed : vals s.hush.candidates = (vals s.candidates).map Candidate.hush := vals_mapVals _ _
  unfold earliestHot
  rw [listed, List.filter_map, List.filterMap_map]
  congr 1
  apply List.filterMap_congr
  intro c member
  obtain ⟨present, chosen⟩ := List.mem_filter.mp member
  obtain ⟨id, found⟩ := mem_vals.mp present
  have spend : c.role ≠ .escape := by
    intro escape
    have cold := (regular id c found).cold escape
    simp [cold, Candidate.hush] at chosen
  simp only [Function.comp_apply, hush_spend spend]

theorem effectiveT_image (image : s.hush = t.hush) (first : Regular s) (second : Regular t)
    (firstSeen now : Nat) (timing : DuressTiming) :
    s.effectiveT firstSeen now timing = t.effectiveT firstSeen now timing := by
  have earliest : s.earliestHot now = t.earliestHot now := by
    rw [← earliestHot_hush first, image, earliestHot_hush second]
  unfold effectiveT
  rw [earliest]

theorem admits_hush (candidates : List Candidate) (hotReserve : Option HotReserveSpec) (monoNow : Nat) :
    admits ch s.hush (candidates.map Candidate.hush) hotReserve monoNow =
      admits ch s candidates hotReserve monoNow := by
  have reserved : (candidates.map Candidate.hush).map (fun c => c.reservePartialCapacity ch.nodes ch.nodeId) =
      (candidates.map (fun c => c.reservePartialCapacity ch.nodes ch.nodeId)).map Candidate.hush := by
    simp only [List.map_map]
    rfl
  unfold admits
  rw [hush_revalidate, reserved]
  rcases s.revalidate hotReserve monoNow with ⟨r, refusal | created⟩
  · rfl
  · simp only [hush_anyConflict, hush_overCapacity]

theorem admits_image (image : s.hush = t.hush) (candidates : List Candidate) (hotReserve : Option HotReserveSpec)
    (monoNow : Nat) : admits ch s candidates hotReserve monoNow = admits ch t candidates hotReserve monoNow := by
  rw [← admits_hush, image, admits_hush]

/-- A directive is applied in both stores or in neither. -/
theorem directive_image (image : s.hush = t.hush) {op : StoreOp} {duress : Bool} {arm : ArmDirective}
    {holds : List Nat} (given : directive ch s (op.withDuress duress) = some (arm, holds)) (duress' : Bool) :
    directive ch t (op.withDuress duress') = some ({ arm with duress := duress' }, holds) := by
  cases op with
  | registerCandidates requests directed hotReserve monoNow =>
    simp only [StoreOp.withDuress, directive] at given ⊢
    cases built : buildAll ch.lib requests with
    | error message => simp [built] at given
    | ok candidates =>
      simp only [built] at given ⊢
      rw [← admits_image image]
      split_ifs at given ⊢ with admitted
      cases given
      rfl
  | applyCachedSchedule escape verdict now epsilon =>
    cases given
    rfl
  | _ => cases given

/-- A receipt commits in both stores or in neither. -/
theorem crossing_image (image : s.hush = t.hush) {sender : Nat} {carrier : String} {threshold now monoNow : Nat}
    {intent : ArmIntent} (crossing : Crossing s sender carrier threshold now monoNow intent) :
    ∃ other, Crossing t sender carrier threshold now monoNow other ∧ other.hush = intent.hush := by
  have images : mapVals ArmIntent.hush s.intents = mapVals ArmIntent.hush t.intents :=
    congrArg PartialStore.intents image
  obtain ⟨other, found, same⟩ := lookup_of_mapVals_eq images crossing.found
  have holders : other.holders = intent.holders := intent_of_image (f := ArmIntent.holders) (fun _ => rfl) same
  have ready : other.readyToPropagate = intent.readyToPropagate :=
    intent_of_image (f := ArmIntent.readyToPropagate) (fun _ => rfl) same
  have pending : other.committed = intent.committed :=
    intent_of_image (f := ArmIntent.committed) (fun _ => rfl) same
  have deadline : other.deadline = intent.deadline := intent_of_image (f := ArmIntent.deadline) (fun _ => rfl) same
  have expiry : other.expiry = intent.expiry := intent_of_image (f := ArmIntent.expiry) (fun _ => rfl) same
  refine ⟨other, ⟨found, ready.trans crossing.ready, pending.trans crossing.pending, ?_, ?_, ?_, ?_⟩, same⟩
  · rw [holders]
    exact crossing.new
  · exact lt_of_lt_of_eq crossing.deadline deadline.symm
  · exact lt_of_lt_of_eq crossing.expiry expiry.symm
  · rw [holders]
    exact crossing.holders

theorem scheduledSlot_image (image : s.hush = t.hush) {op : StoreOp} {duress : Bool} {slot : String}
    (scheduled : scheduledSlot ch s (op.withDuress duress) = some slot) (duress' : Bool) :
    scheduledSlot ch t (op.withDuress duress') = some slot := by
  cases given : directive ch s (op.withDuress duress) with
  | some pair =>
    obtain ⟨arm, holds⟩ := pair
    have there := directive_image image given duress'
    simp only [scheduledSlot, given, there, Option.map_some, Option.some_or] at scheduled ⊢
    exact scheduled
  | none =>
    cases op with
    | confirmCarrier sender carrier threshold now timing monoNow =>
      cases committed : (s.confirmCarrier sender carrier threshold now timing monoNow).2.committed with
      | false => simp [StoreOp.withDuress, scheduledSlot, directive, committedIntent, committed] at scheduled
      | true =>
        obtain ⟨intent, crossing⟩ := confirmCarrier_committed committed
        obtain ⟨other, there, same⟩ := crossing_image image crossing
        have named : other.escapeCommitmentId = intent.escapeCommitmentId :=
          intent_of_image (f := ArmIntent.escapeCommitmentId) (fun _ => rfl) same
        simp only [StoreOp.withDuress, scheduledSlot, directive, committedIntent_crossing timing crossing,
          committedIntent_crossing timing there] at scheduled ⊢
        rw [← scheduled]
        simp [named]
    | _ => simp_all [StoreOp.withDuress, scheduledSlot, directive, committedIntent]

theorem scheduledSlot_none (image : s.hush = t.hush) {op : StoreOp} {duress : Bool}
    (nothing : scheduledSlot ch s (op.withDuress duress) = none) (duress' : Bool) :
    scheduledSlot ch t (op.withDuress duress') = none := by
  cases scheduled : scheduledSlot ch t (op.withDuress duress') with
  | none => rfl
  | some slot =>
    rw [scheduledSlot_image image.symm scheduled duress] at nothing
    cases nothing

end Image

/-! ### Cover -/

/-- A resident escape. -/
def IsSlot (s : PartialStore) (id : String) : Prop := ∃ c, s.candidates.lookup id = some c ∧ c.role = .escape

def AsksEscape : StoreOp → Prop
  | .registerCandidates requests _ _ _ => ∃ request ∈ requests, request.spec.role = .escape
  | _ => False

/-- The unarmed store covers for the armed one at this step. The window it gives a slot reaches the armed `T`; the
slot an arming receipt displaces reaches the `T` it arms at; no settled share leaves it alone; and no resident
sweep is retired in one of the two alone. -/
structure CoverHolds (ch : ChannelState) (loud quiet : PartialStore) (op : StoreOp) : Prop where
  directed : ∀ arm holds, directive ch quiet op = some (arm, holds) → loud.armed.active = true →
    quiet.armed.active = false → IsSlot quiet arm.sweepEscape ∨ AsksEscape op →
    (holds.foldl (shrinkToHold arm.epsilonSecs arm.now) loud.armed).fireAt ≤ quiet.armed.escapeWindow.deadline
  committed : ∀ sender carrier threshold now timing monoNow intent verdict,
    op = .confirmCarrier sender carrier threshold now timing monoNow →
    Crossing loud sender carrier threshold now monoNow intent →
    Crossing quiet sender carrier threshold now monoNow verdict → loud.armed.active = true →
    quiet.armed.active = false → intent.duress = false → verdict.duress = false →
    IsSlot quiet verdict.escapeCommitmentId ∨ IsSlot quiet quiet.armed.escapeCommitmentId →
    loud.armed.fireAt ≤ satAdd (quiet.effectiveT verdict.firstSeen now timing) timing.combineSlackSecs
  displaced : ∀ sender carrier threshold now timing monoNow intent verdict c,
    op = .confirmCarrier sender carrier threshold now timing monoNow →
    Crossing loud sender carrier threshold now monoNow intent →
    Crossing quiet sender carrier threshold now monoNow verdict → loud.armed.active = false →
    quiet.armed.active = false → intent.duress = true → verdict.duress = false →
    intent.escapeCommitmentId ≠ "" → loud.armed.escapeCommitmentId ≠ intent.escapeCommitmentId →
    loud.candidates.lookup loud.armed.escapeCommitmentId = some c → c.role = .escape →
    c.Outlives (loud.effectiveT intent.firstSeen now timing)
  settled : ∀ id now, op = .releasePartials id now → SettledStays ch loud quiet id now
  sent : ∀ id, op = .markBroadcast id → loud.isArmedEscape id = true → quiet.isArmedEscape id = false →
    loud.candidates.lookup id = none

/-- The stores differ only in what the pin decides. Until one is armed their overlays are the same; from then on
the slot either of them has selected is open in both at `w`. -/
structure Mirrored (w : Nat) (s t : PartialStore) : Prop extends Twin w s t where
  overlay : s.armed.active = false → t.armed.active = false → s.armed = t.armed
  selected : s.armed.active = true ∨ t.armed.active = true → ∀ id c d,
    id = s.armed.escapeCommitmentId ∨ id = t.armed.escapeCommitmentId → s.candidates.lookup id = some c →
    t.candidates.lookup id = some d → c.role = .escape → c.Outlives w ∧ d.Outlives w

theorem Mirrored.symm {w : Nat} {s t : PartialStore} (mirrored : Mirrored w s t) : Mirrored w t s := by
  refine ⟨mirrored.toTwin.symm, fun first second => (mirrored.overlay second first).symm, ?_⟩
  intro armed id d c chosen atT atS escape
  obtain ⟨other, present, same⟩ := twin_lookup mirrored.image.symm atT
  rw [atS] at present
  cases present
  have role : c.role = d.role := of_image (f := Candidate.role) (fun _ => rfl) same
  exact (mirrored.selected armed.symm id c d chosen.symm atS atT (role.trans escape)).symm

section Step

variable {ch : ChannelState} {w : Nat} {s t : PartialStore} {op : StoreOp} {duress duress' : Bool}

theorem confirm_of_withDuress {sender : Nat} {carrier : String} {threshold now : Nat} {timing : DuressTiming}
    {monoNow : Nat} (same : op.withDuress duress = .confirmCarrier sender carrier threshold now timing monoNow) :
    op = .confirmCarrier sender carrier threshold now timing monoNow := by
  cases op with
  | confirmCarrier sender carrier threshold now timing monoNow => exact same
  | _ => cases same

/-- The overlay after a receipt: its `T`, from the one before and the one the receipt asks for. -/
theorem committed_fireAt {sender : Nat} {carrier : String} {threshold now monoNow : Nat} {intent : ArmIntent}
    (timing : DuressTiming) (crossing : Crossing s sender carrier threshold now monoNow intent) :
    (storeStep ch s (.confirmCarrier sender carrier threshold now timing monoNow)).1.armed.fireAt =
      (s.writeSafetyOverlay intent.duress intent.firstSeen now timing).armed.fireAt := by
  rw [committed_overlay ch timing crossing]
  rfl

/-- A receipt that leaves its store unarmed is a normal one. -/
theorem normal_of_unarmed {sender : Nat} {carrier : String} {threshold now monoNow : Nat} {timing : DuressTiming}
    {intent : ArmIntent} (crossing : Crossing s sender carrier threshold now monoNow intent)
    (unarmed : (storeStep ch s (.confirmCarrier sender carrier threshold now timing monoNow)).1.armed.active =
      false) : intent.duress = false := by
  rw [committed_overlay ch timing crossing] at unarmed
  simp only [selectSweep, writeSafetyOverlay, Bool.or_eq_false_iff] at unarmed
  exact unarmed.2

/-- The slot a normal receipt writes in the unarmed store reaches the `T` the same receipt leaves in the other. -/
theorem committed_reaches (image : s.hush = t.hush) (first : Regular s) (second : Regular t) {sender : Nat}
    {carrier : String} {threshold now monoNow : Nat} {timing : DuressTiming} {intent verdict : ArmIntent}
    (reading : now ≤ maxWord) (crossing : Crossing s sender carrier threshold now monoNow verdict)
    (crossing' : Crossing t sender carrier threshold now monoNow intent) (same : intent.hush = verdict.hush)
    (unarmed : s.armed.active = false) (normal : verdict.duress = false)
    (cover : CoverHolds ch t s (.confirmCarrier sender carrier threshold now timing monoNow))
    (resident : IsSlot s verdict.escapeCommitmentId ∨ IsSlot s s.armed.escapeCommitmentId) :
    (storeStep ch t (.confirmCarrier sender carrier threshold now timing monoNow)).1.armed.fireAt ≤
      (storeStep ch s (.confirmCarrier sender carrier threshold now timing monoNow)).1.armed.escapeWindow.deadline := by
  have seen : intent.firstSeen = verdict.firstSeen :=
    intent_of_image (f := ArmIntent.firstSeen) (fun _ => rfl) same
  have instant : t.effectiveT intent.firstSeen now timing = s.effectiveT verdict.firstSeen now timing := by
    rw [seen, effectiveT_image image first second]
  have deadline : (storeStep ch s (.confirmCarrier sender carrier threshold now timing
      monoNow)).1.armed.escapeWindow.deadline =
      satAdd (s.effectiveT verdict.firstSeen now timing) timing.combineSlackSecs := by
    rw [committed_overlay ch timing crossing]
    simp [selectSweep, writeSafetyOverlay, Armed.escapeWindow, unarmed, normal]
  have reach : s.effectiveT verdict.firstSeen now timing ≤
      satAdd (s.effectiveT verdict.firstSeen now timing) timing.combineSlackSecs :=
    le_satAdd (effectiveT_fits s verdict.firstSeen timing reading)
  rw [deadline, committed_fireAt timing crossing']
  simp only [writeSafetyOverlay, instant]
  cases armed : t.armed.active with
  | false =>
    simp only [Bool.false_and, Bool.false_eq_true, if_false]
    exact reach
  | true =>
    cases shrinks : intent.duress with
    | true =>
      simp only [Bool.true_and, if_true]
      exact (min_le_right _ _).trans reach
    | false =>
      simp only [Bool.and_false, Bool.false_eq_true, if_false, if_true]
      exact cover.committed sender carrier threshold now timing monoNow intent verdict rfl crossing' crossing armed
        unarmed shrinks normal resident

/-- A slot written in the unarmed store reaches the armed store's new `T`. -/
theorem cover_reaches (image : s.hush = t.hush) (first : Sound s) (second : Sound t)
    (readings : ∀ now, (op.withDuress duress).wallReading = some now → now ≤ maxWord)
    (cover : CoverHolds ch t s (op.withDuress duress))
    (quiet : (storeStep ch s (op.withDuress duress)).1.armed.active = false)
    (loud : (storeStep ch t (op.withDuress duress')).1.armed.active = true) {id : String} {c : Candidate}
    (found : (storeStep ch s (op.withDuress duress)).1.candidates.lookup id = some c) (escape : c.role = .escape)
    (listed : id ∈ scheduledSlots ch s (op.withDuress duress)) :
    (storeStep ch t (op.withDuress duress')).1.armed.fireAt ≤
      (storeStep ch s (op.withDuress duress)).1.armed.escapeWindow.deadline := by
  have unarmed := unarmed_before quiet
  have resident : IsSlot s id ∨ AsksEscape (op.withDuress duress) := by
    rcases storeStep_lookup found with ⟨earlier, present, evolved, _⟩ |
      ⟨_, requests, arm, hotReserve, monoNow, same, request, asked, fresh, _⟩
    · exact Or.inl ⟨earlier, present, evolved.role.symm.trans escape⟩
    · right
      rw [same]
      exact ⟨request, asked, fresh.role.symm.trans escape⟩
  cases overlay_step ch s (op.withDuress duress) with
  | directed arm holds live given written =>
    obtain ⟨live', written'⟩ := directed_overlay (directive_image image given duress')
    have armed : t.armed.active = true := by
      rw [written'] at loud
      exact (active_of_foldl_shrinkToHold _ _ holds t.armed).symm.trans loud
    -- An unarmed store selects the slot of the directive, so one slot is written.
    have here : id = arm.sweepEscape := by
      simpa [scheduledSlots, scheduledSlot, given, written, foldl_shrinkToHold_unarmed unarmed, adoptSweep,
        first.idle unarmed] using listed
    rw [written', written, foldl_shrinkToHold_unarmed unarmed]
    exact cover.directed arm holds given armed unarmed (here ▸ resident)
  | committed sender carrier threshold now timing monoNow verdict receipt crossing written =>
    have receipt' := confirm_of_withDuress receipt
    subst receipt'
    obtain ⟨intent, crossing', same⟩ := crossing_image image crossing
    have normal : verdict.duress = false := normal_of_unarmed crossing quiet
    have kept : (s.confirmCarrier sender carrier threshold now timing monoNow).1.armed.escapeCommitmentId =
        s.armed.escapeCommitmentId := by
      have written' : (s.confirmCarrier sender carrier threshold now timing monoNow).1.armed = _ := written
      rw [written', normal]
      simp [selectSweep, writeSafetyOverlay]
    have here : id = verdict.escapeCommitmentId ∨ id = s.armed.escapeCommitmentId := by
      simpa [StoreOp.withDuress, scheduledSlots, scheduledSlot, directive, storeStep, kept,
        committedIntent_crossing timing crossing] using listed
    apply committed_reaches image first.regular second.regular (readings now rfl) crossing crossing' same unarmed
      normal cover
    rcases resident with slot | asks
    · rcases here with own | selected
      · exact Or.inl (own ▸ slot)
      · exact Or.inr (selected ▸ slot)
    · cases asks
  | recorded firstSeen now timing request written =>
    obtain ⟨_, _, _, _, same⟩ := recording_eq request
    rw [same] at listed
    cases listed
  | unwritten nothing unasked written =>
    simp [scheduledSlots, nothing] at listed

/-- Once a store is armed, a slot either of them writes is open at `w`. -/
theorem written_outlives (image : s.hush = t.hush) (first : Sound s) (second : Sound t)
    (readings : ∀ now, (op.withDuress duress).wallReading = some now → now ≤ maxWord)
    (cover : CoverHolds ch t s (op.withDuress duress))
    (early : Early w (storeStep ch s (op.withDuress duress)).1)
    (early' : Early w (storeStep ch t (op.withDuress duress')).1)
    (armed : (storeStep ch s (op.withDuress duress)).1.armed.active = true ∨
      (storeStep ch t (op.withDuress duress')).1.armed.active = true) {id : String} {c : Candidate}
    (found : (storeStep ch s (op.withDuress duress)).1.candidates.lookup id = some c) (escape : c.role = .escape)
    (listed : id ∈ scheduledSlots ch s (op.withDuress duress))
    (written : c.fire = some (storeStep ch s (op.withDuress duress)).1.armed.escapeWindow) : c.Outlives w := by
  refine ⟨_, written, ?_⟩
  cases own : (storeStep ch s (op.withDuress duress)).1.armed.active with
  | true =>
    have fits : (storeStep ch s (op.withDuress duress)).1.armed.fireAt ≤ maxWord := fits_step first.fits readings
    calc
      w ≤ (storeStep ch s (op.withDuress duress)).1.armed.fireAt := (early own).le
      _ ≤ (storeStep ch s (op.withDuress duress)).1.armed.escapeWindow.deadline := le_satAdd fits
  | false =>
    have loud : (storeStep ch t (op.withDuress duress')).1.armed.active = true := by
      rw [own] at armed
      simpa using armed
    calc
      w ≤ (storeStep ch t (op.withDuress duress')).1.armed.fireAt := (early' loud).le
      _ ≤ (storeStep ch s (op.withDuress duress)).1.armed.escapeWindow.deadline :=
        cover_reaches image first second readings cover own loud found escape listed

/-- The slot an arming receipt displaces is open at `w` before its `T`. -/
theorem displaced_outlives (image : t.hush = s.hush) {sender : Nat} {carrier : String}
    {threshold now monoNow : Nat} {timing : DuressTiming} {intent : ArmIntent} {id : String} {d : Candidate}
    (idle : s.armed.sweepActive = false)
    (crossing : Crossing t sender carrier threshold now monoNow intent) (unarmed' : t.armed.active = false)
    (unarmed : s.armed.active = false)
    (cover : CoverHolds ch t s (.confirmCarrier sender carrier threshold now timing monoNow))
    (found : t.candidates.lookup t.armed.escapeCommitmentId = some d) (escape : d.role = .escape)
    (kept : id = t.armed.escapeCommitmentId)
    (chosen : id = (storeStep ch s (.confirmCarrier sender carrier threshold now timing
      monoNow)).1.armed.escapeCommitmentId)
    (displaced : id ≠ (storeStep ch t (.confirmCarrier sender carrier threshold now timing
      monoNow)).1.armed.escapeCommitmentId)
    (early : Early w (storeStep ch t (.confirmCarrier sender carrier threshold now timing monoNow)).1) :
    d.Outlives w := by
  have written := committed_overlay ch timing crossing
  rcases selectSweep_selector intent.duress intent.escapeCommitmentId
      (t.writeSafetyOverlay intent.duress intent.firstSeen now timing) with same | ⟨selected, duress, _, nonempty⟩
  · rw [written, same] at displaced
    exact absurd kept displaced
  · obtain ⟨verdict, crossing', same⟩ := crossing_image image crossing
    have slot : verdict.escapeCommitmentId = intent.escapeCommitmentId :=
      intent_of_image (f := ArmIntent.escapeCommitmentId) (fun _ => rfl) same
    have normal : verdict.duress = false := by
      by_contra arms
      have both : verdict.duress = true := by simpa using arms
      have here : (storeStep ch s (.confirmCarrier sender carrier threshold now timing
          monoNow)).1.armed.escapeCommitmentId = intent.escapeCommitmentId := by
        rw [committed_overlay ch timing crossing', ← slot]
        simp [selectSweep, writeSafetyOverlay, both, idle, slot, nonempty]
      rw [written, selected] at displaced
      exact displaced (chosen.trans here)
    have moved : t.armed.escapeCommitmentId ≠ intent.escapeCommitmentId := by
      rw [written, selected, kept] at displaced
      exact displaced
    obtain ⟨window, scheduled, reach⟩ := cover.displaced sender carrier threshold now timing monoNow intent verdict d
      rfl crossing crossing' unarmed' unarmed duress normal nonempty moved found escape
    have armed : (storeStep ch t (.confirmCarrier sender carrier threshold now timing monoNow)).1.armed.active =
        true := by
      rw [written]
      simp [selectSweep, writeSafetyOverlay, duress]
    have instant : (storeStep ch t (.confirmCarrier sender carrier threshold now timing monoNow)).1.armed.fireAt =
        t.effectiveT intent.firstSeen now timing := by
      rw [committed_fireAt timing crossing]
      simp [writeSafetyOverlay, unarmed']
    refine ⟨window, scheduled, ?_⟩
    calc
      w ≤ t.effectiveT intent.firstSeen now timing := instant ▸ (early armed).le
      _ ≤ window.deadline := reach

/-- A slot one store writes as its selected one and the other does not is open at `w` in the other too. -/
theorem unwritten_outlives (mirrored : Mirrored w s t) (first : Sound s) (second : Sound t)
    (cover : CoverHolds ch t s (op.withDuress duress))
    (early' : Early w (storeStep ch t (op.withDuress duress')).1) {id : String} {d : Candidate}
    (listed : id ∈ scheduledSlots ch s (op.withDuress duress))
    (unlisted : id ∉ scheduledSlots ch t (op.withDuress duress')) (found : t.candidates.lookup id = some d)
    (escape : d.role = .escape) : d.Outlives w := by
  cases scheduled : scheduledSlot ch s (op.withDuress duress) with
  | none => simp [scheduledSlots, scheduled] at listed
  | some slot =>
    have scheduled' := scheduledSlot_image mirrored.image scheduled duress'
    simp only [scheduledSlots, scheduled, List.mem_cons, List.not_mem_nil, or_false] at listed
    simp only [scheduledSlots, scheduled', List.mem_cons, List.not_mem_nil, or_false, not_or] at unlisted
    have chosen : id = (storeStep ch s (op.withDuress duress)).1.armed.escapeCommitmentId :=
      listed.resolve_left unlisted.1
    have kept : id = s.armed.escapeCommitmentId := by
      rcases selected_step ch s (op.withDuress duress) with same | moved
      · exact chosen.trans same
      · rw [scheduled] at moved
        exact absurd (chosen.trans (Option.some.inj moved).symm) unlisted.1
    obtain ⟨c, present, image⟩ := twin_lookup mirrored.image.symm found
    have role : c.role = d.role := of_image (f := Candidate.role) (fun _ => rfl) image
    by_cases armed : s.armed.active = true ∨ t.armed.active = true
    · exact (mirrored.selected armed id c d (Or.inl kept) present found (role.trans escape)).2
    · -- Both are unarmed and selected one slot. Only an arming receipt of the other store displaces it.
      have unarmed : s.armed.active = false := by
        by_contra active
        exact armed (Or.inl (by simpa using active))
      have unarmed' : t.armed.active = false := by
        by_contra active
        exact armed (Or.inr (by simpa using active))
      have equal := mirrored.overlay unarmed unarmed'
      have kept' : t.armed.escapeCommitmentId = id := by rw [← equal, ← kept]
      cases overlay_step ch t (op.withDuress duress') with
      | directed arm holds live given written =>
        have there := directed_selected given unarmed' (second.idle unarmed')
        have here := directed_selected (directive_image mirrored.image.symm given duress) unarmed
          (first.idle unarmed)
        exact absurd (chosen.trans (here.trans there.symm)) unlisted.2
      | committed sender carrier threshold now timing monoNow intent receipt crossing written =>
        have receipt' := confirm_of_withDuress receipt
        subst receipt'
        exact displaced_outlives mirrored.image.symm (first.idle unarmed) crossing unarmed' unarmed cover
          (kept' ▸ found) escape kept'.symm chosen unlisted.2 early'
      | recorded firstSeen now timing request written =>
        rw [written] at unlisted
        exact absurd kept'.symm unlisted.2
      | unwritten nothing unasked written =>
        rw [written] at unlisted
        exact absurd kept'.symm unlisted.2

theorem writeSafetyOverlay_congr (equal : s.armed = t.armed) {arm : Bool} {firstSeen now : Nat}
    {timing : DuressTiming}
    (instant : s.effectiveT firstSeen now timing = t.effectiveT firstSeen now timing) :
    (s.writeSafetyOverlay arm firstSeen now timing).armed = (t.writeSafetyOverlay arm firstSeen now timing).armed := by
  unfold writeSafetyOverlay
  rw [equal, instant]

theorem selectSweep_congr (equal : s.armed = t.armed) {commitArm : Bool} {escape : String} :
    (s.selectSweep commitArm escape).armed = (t.selectSweep commitArm escape).armed := by
  unfold selectSweep
  rw [equal]

/-- A receipt that leaves two stores of one overlay unarmed leaves them with one overlay. -/
theorem committed_alike (image : s.hush = t.hush) (first : Regular s) (second : Regular t)
    (equal : s.armed = t.armed) {sender : Nat} {carrier : String} {threshold now monoNow : Nat}
    {timing : DuressTiming} {verdict : ArmIntent}
    (crossing : Crossing s sender carrier threshold now monoNow verdict)
    (unarmed : (storeStep ch s (.confirmCarrier sender carrier threshold now timing monoNow)).1.armed.active = false)
    (unarmed' : (storeStep ch t (.confirmCarrier sender carrier threshold now timing monoNow)).1.armed.active =
      false) :
    (storeStep ch s (.confirmCarrier sender carrier threshold now timing monoNow)).1.armed =
      (storeStep ch t (.confirmCarrier sender carrier threshold now timing monoNow)).1.armed := by
  obtain ⟨intent, crossing', same⟩ := crossing_image image crossing
  have normal : verdict.duress = false := normal_of_unarmed crossing unarmed
  have normal' : intent.duress = false := normal_of_unarmed crossing' unarmed'
  have whole : intent = verdict := by
    calc
      intent = intent.hush := by rw [ArmIntent.hush, ← normal']
      _ = verdict.hush := same
      _ = verdict := by rw [ArmIntent.hush, ← normal]
  subst whole
  calc
    _ = ((s.writeSafetyOverlay intent.duress intent.firstSeen now timing).selectSweep intent.duress
        intent.escapeCommitmentId).armed := committed_overlay ch timing crossing
    _ = ((t.writeSafetyOverlay intent.duress intent.firstSeen now timing).selectSweep intent.duress
        intent.escapeCommitmentId).armed := by
      apply selectSweep_congr
      apply writeSafetyOverlay_congr equal
      exact effectiveT_image image first second intent.firstSeen now timing
    _ = _ := (committed_overlay ch timing crossing').symm

/-- Two unarmed stores of one overlay stay so. -/
theorem overlay_alike (image : s.hush = t.hush) (first : Regular s) (second : Regular t) (equal : s.armed = t.armed)
    (unarmed : (storeStep ch s (op.withDuress duress)).1.armed.active = false)
    (unarmed' : (storeStep ch t (op.withDuress duress')).1.armed.active = false) :
    (storeStep ch s (op.withDuress duress)).1.armed = (storeStep ch t (op.withDuress duress')).1.armed := by
  have before := unarmed_before unarmed
  have before' := unarmed_before unarmed'
  cases overlay_step ch s (op.withDuress duress) with
  | directed arm holds live given written =>
    obtain ⟨live', written'⟩ := directed_overlay (directive_image image given duress')
    rw [written, written', foldl_shrinkToHold_unarmed before, foldl_shrinkToHold_unarmed before', equal]
    simp [adoptSweep, before']
  | committed sender carrier threshold now timing monoNow verdict receipt crossing written =>
    have receipt' := confirm_of_withDuress receipt
    subst receipt'
    exact committed_alike image first second equal crossing unarmed unarmed'
  | recorded firstSeen now timing request written =>
    obtain ⟨verdict, carrier, nonce, generation, same⟩ := recording_eq request
    cases op with
    | recordArmIntent own carrier nonce generation firstSeen now timing =>
      cases same
      calc
        _ = (s.writeSafetyOverlay false firstSeen now timing).armed := written
        _ = (t.writeSafetyOverlay false firstSeen now timing).armed := by
          apply writeSafetyOverlay_congr equal
          exact effectiveT_image image first second firstSeen now timing
        _ = _ := (recordArmIntent_armed t duress' carrier nonce generation firstSeen now timing).symm
    | _ => cases same
  | unwritten nothing unasked written =>
    have nothing' := scheduledSlot_none image nothing duress'
    cases overlay_step ch t (op.withDuress duress') with
    | directed arm holds live given _ => simp [scheduledSlot, given] at nothing'
    | committed sender carrier threshold now timing monoNow intent receipt crossing _ =>
      rw [receipt] at nothing'
      simp [scheduledSlot, directive, committedIntent_crossing timing crossing] at nothing'
    | recorded firstSeen now timing request _ =>
      cases op with
      | recordArmIntent own carrier nonce generation firstSeen now timing => cases unasked
      | _ => cases request
    | unwritten _ _ written' => rw [written, written', equal]

end Step

/-! ### One step of both runs -/

/-- Everything a step of the two runs is taken under. -/
structure Abreast (ch : ChannelState) (w : Nat) (s t : PartialStore) (op : StoreOp) (duress duress' : Bool) :
    Prop where
  mirrored : Mirrored w s t
  first : Sound s
  second : Sound t
  paired : op.Paired
  readings : ∀ now, op.wallReading = some now → now ≤ maxWord
  forth : CoverHolds ch s t (op.withDuress duress')
  back : CoverHolds ch t s (op.withDuress duress)

section Abreast

variable {ch : ChannelState} {w : Nat} {s t : PartialStore} {op : StoreOp} {duress duress' : Bool}

theorem paired_withDuress (duress : Bool) (paired : op.Paired) : (op.withDuress duress).Paired := by
  cases op with
  | registerCandidates requests arm hotReserve monoNow => exact paired
  | _ => trivial

theorem wallReading_withDuress (duress : Bool) (op : StoreOp) :
    (op.withDuress duress).wallReading = op.wallReading := by
  cases op <;> rfl

theorem Abreast.symm (abreast : Abreast ch w s t op duress duress') : Abreast ch w t s op duress' duress :=
  ⟨abreast.mirrored.symm, abreast.second, abreast.first, abreast.paired, abreast.readings, abreast.back,
    abreast.forth⟩

theorem Abreast.readings' (abreast : Abreast ch w s t op duress duress') :
    ∀ now, (op.withDuress duress).wallReading = some now → now ≤ maxWord := by
  rw [wallReading_withDuress]
  exact abreast.readings

/-- Once a store is armed, a slot that either of them schedules is open at `w` in the first. -/
theorem Abreast.outlives (abreast : Abreast ch w s t op duress duress')
    (early : Early w (storeStep ch s (op.withDuress duress)).1)
    (early' : Early w (storeStep ch t (op.withDuress duress')).1)
    (armed : (storeStep ch s (op.withDuress duress)).1.armed.active = true ∨
      (storeStep ch t (op.withDuress duress')).1.armed.active = true) {id : String} {c : Candidate}
    (listed : id ∈ scheduledSlots ch s (op.withDuress duress) ∨ id ∈ scheduledSlots ch t (op.withDuress duress'))
    (found : (storeStep ch s (op.withDuress duress)).1.candidates.lookup id = some c) (escape : c.role = .escape) :
    c.Outlives w := by
  rcases reslots_step abreast.first.regular (paired_withDuress duress abreast.paired) id c found escape with
    ⟨here, written⟩ | ⟨elsewhere, earlier, present, role, fire⟩
  · exact written_outlives abreast.mirrored.image abreast.first abreast.second abreast.readings' abreast.back early
      early' armed found escape here written
  · have there := listed.resolve_left elsewhere
    obtain ⟨window, scheduled, reach⟩ := unwritten_outlives abreast.mirrored.symm abreast.second abreast.first
      abreast.forth early there elsewhere present role
    exact ⟨window, fire.symm.trans scheduled, reach⟩

theorem SameSlot.of_fire {c d c' d' : Candidate} (slot : SameSlot w c d) (first : c.fire = c'.fire)
    (second : d.fire = d'.fire) : SameSlot w c' d' := by
  unfold SameSlot Candidate.Outlives at slot ⊢
  rw [← first, ← second]
  exact slot

theorem Abreast.overlay (abreast : Abreast ch w s t op duress duress')
    (unarmed : (storeStep ch s (op.withDuress duress)).1.armed.active = false)
    (unarmed' : (storeStep ch t (op.withDuress duress')).1.armed.active = false) :
    (storeStep ch s (op.withDuress duress)).1.armed = (storeStep ch t (op.withDuress duress')).1.armed := by
  have before := abreast.mirrored.overlay (unarmed_before unarmed) (unarmed_before unarmed')
  exact overlay_alike abreast.mirrored.image abreast.first.regular abreast.second.regular before unarmed unarmed'

theorem scheduledSlots_alike (image : s.hush = t.hush)
    (equal : (storeStep ch s (op.withDuress duress)).1.armed = (storeStep ch t (op.withDuress duress')).1.armed) :
    scheduledSlots ch s (op.withDuress duress) = scheduledSlots ch t (op.withDuress duress') := by
  unfold scheduledSlots
  cases scheduled : scheduledSlot ch s (op.withDuress duress) with
  | none => rw [scheduledSlot_none image scheduled duress']
  | some slot => rw [scheduledSlot_image image scheduled duress', equal]

/-- The windows stay the same, or open in both at `w`. -/
theorem Abreast.slots (abreast : Abreast ch w s t op duress duress')
    (early : Early w (storeStep ch s (op.withDuress duress)).1)
    (early' : Early w (storeStep ch t (op.withDuress duress')).1) (id : String) (c d : Candidate)
    (atS : (storeStep ch s (op.withDuress duress)).1.candidates.lookup id = some c)
    (atT : (storeStep ch t (op.withDuress duress')).1.candidates.lookup id = some d) (escape : c.role = .escape)
    (escape' : d.role = .escape) : SameSlot w c d := by
  have reslots := reslots_step abreast.first.regular (paired_withDuress duress abreast.paired) id c atS escape
  have reslots' := reslots_step abreast.second.regular (paired_withDuress duress' abreast.paired) id d atT escape'
  by_cases listed : id ∈ scheduledSlots ch s (op.withDuress duress) ∨ id ∈ scheduledSlots ch t (op.withDuress duress')
  · by_cases armed : (storeStep ch s (op.withDuress duress)).1.armed.active = true ∨
        (storeStep ch t (op.withDuress duress')).1.armed.active = true
    · exact Or.inr ⟨abreast.outlives early early' armed listed atS escape,
        abreast.symm.outlives early' early armed.symm listed.symm atT escape'⟩
    · -- Both stay unarmed: they write the same slots at the same `T`.
      rw [not_or, Bool.not_eq_true, Bool.not_eq_true] at armed
      have equal := abreast.overlay armed.1 armed.2
      have same := scheduledSlots_alike abreast.mirrored.image equal
      have here : id ∈ scheduledSlots ch s (op.withDuress duress) := listed.elim (fun h => h) (fun h => same ▸ h)
      rcases reslots with ⟨_, written⟩ | ⟨elsewhere, _⟩
      · rcases reslots' with ⟨_, written'⟩ | ⟨elsewhere, _⟩
        · exact Or.inl (written.trans (equal ▸ written'.symm))
        · exact absurd (same ▸ here) elsewhere
      · exact absurd here elsewhere
  · rcases reslots with ⟨here, _⟩ | ⟨_, earlier, present, role, fire⟩
    · exact absurd (Or.inl here) listed
    · rcases reslots' with ⟨there, _⟩ | ⟨_, earlier', present', role', fire'⟩
      · exact absurd (Or.inr there) listed
      · exact (abreast.mirrored.slots id earlier earlier' present present' role).of_fire fire fire'

/-- The slot either store has selected is open in both at `w` once one is armed. -/
theorem Abreast.selected (abreast : Abreast ch w s t op duress duress')
    (early : Early w (storeStep ch s (op.withDuress duress)).1)
    (early' : Early w (storeStep ch t (op.withDuress duress')).1)
    (armed : (storeStep ch s (op.withDuress duress)).1.armed.active = true ∨
      (storeStep ch t (op.withDuress duress')).1.armed.active = true) (id : String) (c d : Candidate)
    (chosen : id = (storeStep ch s (op.withDuress duress)).1.armed.escapeCommitmentId ∨
      id = (storeStep ch t (op.withDuress duress')).1.armed.escapeCommitmentId)
    (atS : (storeStep ch s (op.withDuress duress)).1.candidates.lookup id = some c)
    (atT : (storeStep ch t (op.withDuress duress')).1.candidates.lookup id = some d) (escape : c.role = .escape)
    (escape' : d.role = .escape) : c.Outlives w ∧ d.Outlives w := by
  cases scheduled : scheduledSlot ch s (op.withDuress duress) with
  | some slot =>
    have scheduled' := scheduledSlot_image abreast.mirrored.image scheduled duress'
    have listed : id ∈ scheduledSlots ch s (op.withDuress duress) ∨
        id ∈ scheduledSlots ch t (op.withDuress duress') := by
      simp only [scheduledSlots, scheduled, scheduled', List.mem_cons, List.not_mem_nil, or_false]
      exact chosen.imp Or.inr Or.inr
    exact ⟨abreast.outlives early early' armed listed atS escape,
      abreast.symm.outlives early' early armed.symm listed.symm atT escape'⟩
  | none =>
    have scheduled' := scheduledSlot_none abreast.mirrored.image scheduled duress'
    obtain ⟨active, same, _⟩ := unscheduled_overlay scheduled
    obtain ⟨active', same', _⟩ := unscheduled_overlay scheduled'
    obtain ⟨earlier, present, role, fire⟩ := unmoved_step scheduled id c atS
    obtain ⟨earlier', present', _, fire'⟩ := unmoved_step scheduled' id d atT
    rw [active, active'] at armed
    rw [same, same'] at chosen
    have before := abreast.mirrored.selected armed id earlier earlier' chosen present present' (role.trans escape)
    unfold Candidate.Outlives at before ⊢
    rw [← fire, ← fire']
    exact before

theorem mirrored_step (abreast : Abreast ch w s t op duress duress')
    (alike : Alike ch s t (op.withDuress duress) (op.withDuress duress'))
    (early : Early w (storeStep ch s (op.withDuress duress)).1)
    (early' : Early w (storeStep ch t (op.withDuress duress')).1) :
    Mirrored w (storeStep ch s (op.withDuress duress)).1 (storeStep ch t (op.withDuress duress')).1 := by
  have roles : ∀ {id : String} {c d : Candidate},
      (storeStep ch s (op.withDuress duress)).1.candidates.lookup id = some c →
      (storeStep ch t (op.withDuress duress')).1.candidates.lookup id = some d → c.role = .escape →
      d.role = .escape := by
    intro id c d atS atT escape
    obtain ⟨other, present, image⟩ := twin_lookup alike.store atS
    rw [atT] at present
    cases present
    exact (of_image (f := Candidate.role) (fun _ => rfl) image).trans escape
  refine ⟨⟨alike.store, ?_⟩, abreast.overlay, ?_⟩
  · intro id c d atS atT escape
    exact abreast.slots early early' id c d atS atT escape (roles atS atT escape)
  · intro armed id c d chosen atS atT escape
    exact abreast.selected early early' armed id c d chosen atS atT escape (roles atS atT escape)

/-- Before `T` the two stores answer every operation alike. -/
theorem alike_step {now : Nat} (twin : Twin w s t) (first : Held now s) (second : Held now t) (reached : now ≤ w)
    (readings : ∀ instant, op.wallReading = some instant → instant = now)
    (forth : CoverHolds ch s t (op.withDuress duress')) (back : CoverHolds ch t s (op.withDuress duress)) :
    Alike ch s t (op.withDuress duress) (op.withDuress duress') := by
  by_cases free : op.watchful = false
  · exact alike_of_free ch twin.image duress duress' free
  cases op with
  | pruneStore instant monoNow =>
    cases readings instant rfl
    exact alike_pruneStore twin first second reached monoNow
  | acceptPartial p instant =>
    cases readings instant rfl
    exact alike_acceptPartial twin reached p
  | dueForFire instant =>
    cases readings instant rfl
    exact alike_dueForFire twin.image first second
  | releasePartials id instant =>
    cases readings instant rfl
    exact alike_releasePartials twin.image first second id (forth.settled id _ rfl) (back.settled id _ rfl)
  | markBroadcast id =>
    apply alike_markBroadcast twin.image id
    unfold SentAlike
    cases own : s.isArmedEscape id with
    | true =>
      cases other : t.isArmedEscape id with
      | true => exact Or.inr rfl
      | false => exact Or.inl (forth.sent id rfl own other)
    | false =>
      cases other : t.isArmedEscape id with
      | false => exact Or.inr rfl
      | true =>
        left
        by_contra present
        obtain ⟨c, found⟩ := Option.ne_none_iff_exists'.mp present
        obtain ⟨d, there, _⟩ := twin_lookup twin.image found
        rw [back.sent id rfl other own] at there
        cases there
  | _ => exact absurd rfl free

end Abreast

/-! ### Two runs -/

/-- One step of the two runs: the instant it is taken at, and the verdict each run's pin gives it. -/
structure TwinStep where
  wall : Nat
  op : StoreOp
  first : Bool
  second : Bool

def firstRun (steps : List TwinStep) : List StoreOp := steps.map (fun step => step.op.withDuress step.first)

def secondRun (steps : List TwinStep) : List StoreOp := steps.map (fun step => step.op.withDuress step.second)

/-- Every step reads the wall clock at its own instant, and the clock never runs backwards. -/
structure Timed (steps : List TwinStep) : Prop where
  readings : ∀ step ∈ steps, ∀ now, step.op.wallReading = some now → now = step.wall
  words : ∀ step ∈ steps, step.wall ≤ maxWord
  ordered : (steps.map TwinStep.wall).Pairwise (· ≤ ·)

/-- What can be seen of a store: its candidates' ids, its charge, its reservations, its intents without their
verdicts, and its memos. -/
structure SameVisible (s t : PartialStore) : Prop where
  resident : ∀ id, (s.candidates.lookup id).isSome = (t.candidates.lookup id).isSome
  reservedBytes : s.reservedBytes = t.reservedBytes
  hotBudget : s.hotBudget = t.hotBudget
  intents : ∀ carrier, (s.intents.lookup carrier).map ArmIntent.hush = (t.intents.lookup carrier).map ArmIntent.hush
  carriersByNonce : s.carriersByNonce = t.carriersByNonce

theorem SameVisible.of_image {s t : PartialStore} (image : s.hush = t.hush) : SameVisible s t where
  resident := by
    intro id
    have lookups := congrArg (fun r => (r.candidates.lookup id).isSome) image
    simp only [hush_lookup, Option.isSome_map] at lookups
    exact lookups
  reservedBytes := by rw [← hush_reservedBytes s, image, hush_reservedBytes]
  hotBudget := by rw [← hush_hotBudget s, image, hush_hotBudget]
  intents := by
    intro carrier
    have lookups := congrArg (fun r => r.intents.lookup carrier) image
    simp only [hush_intent] at lookups
    exact lookups
  carriersByNonce := by rw [← hush_carriersByNonce s, image, hush_carriersByNonce]

/-- Before the `T` of every armed run the two runs look the same and are answered alike. -/
def PinSilent (ch : ChannelState) (config : StoreConfig) (steps : List TwinStep) : Prop :=
  ∀ before step after, steps = before ++ step :: after →
    Early step.wall (storeAfter ch config (firstRun before)) →
    Early step.wall (storeAfter ch config (secondRun before)) →
    SameVisible (storeAfter ch config (firstRun before)) (storeAfter ch config (secondRun before)) ∧
      SameVisible (storeAfter ch config (firstRun (before ++ [step])))
        (storeAfter ch config (secondRun (before ++ [step]))) ∧
      (replyAfter ch config (firstRun before) (step.op.withDuress step.first)).observed =
        (replyAfter ch config (secondRun before) (step.op.withDuress step.second)).observed

/-- Each run's cover holds at every step before the `T` of every armed run. -/
def CoverHeld (ch : ChannelState) (config : StoreConfig) (steps : List TwinStep) : Prop :=
  ∀ before step after, steps = before ++ step :: after →
    Early step.wall (storeAfter ch config (firstRun before)) →
    Early step.wall (storeAfter ch config (secondRun before)) →
    CoverHolds ch (storeAfter ch config (firstRun before)) (storeAfter ch config (secondRun before))
        (step.op.withDuress step.second) ∧
      CoverHolds ch (storeAfter ch config (secondRun before)) (storeAfter ch config (firstRun before))
        (step.op.withDuress step.first)

theorem Timed.front {before after : List TwinStep} (timed : Timed (before ++ after)) : Timed before := by
  have ordered := timed.ordered
  rw [List.map_append, List.pairwise_append] at ordered
  exact ⟨fun step member => timed.readings step (List.mem_append_left _ member),
    fun step member => timed.words step (List.mem_append_left _ member), ordered.1⟩

theorem Timed.last {before after : List TwinStep} {step : TwinStep} (timed : Timed (before ++ step :: after)) :
    ∀ earlier ∈ before, earlier.wall ≤ step.wall := by
  intro earlier member
  have ordered := timed.ordered
  rw [List.map_append, List.pairwise_append] at ordered
  exact ordered.2.2 _ (List.mem_map_of_mem member) _ (by simp)

/-- The readings of concrete steps are checked by evaluation. -/
theorem Timed.of_checked {steps : List TwinStep}
    (checked : (steps.all fun step => step.op.wallReading.all (fun now => now == step.wall)) = true)
    (words : ∀ step ∈ steps, step.wall ≤ maxWord) (ordered : (steps.map TwinStep.wall).Pairwise (· ≤ ·)) :
    Timed steps := by
  refine ⟨?_, words, ordered⟩
  intro step member now reading
  have own := List.all_eq_true.mp checked step member
  rw [reading] at own
  simpa using own

/-- No Hold that an armed store watches is open before its `T`. -/
theorem held_run {ch : ChannelState} {config : StoreConfig} {ops : List StoreOp} {now : Nat}
    (sound : Sound (storeAfter ch config ops)) (early : Early now (storeAfter ch config ops))
    (readings : ∀ op ∈ ops, ∀ instant, op.wallReading = some instant → instant ≤ now) :
    Held now (storeAfter ch config ops) := by
  refine ⟨early, sound.keyed, fun id c found => (sound.regular id c found).cold, sound.slot, ?_, sound.fits⟩
  intro armed id c window found hot unsettled scheduled
  have regular := sound.regular id c found
  have spend : c.role = .spend := by
    apply spend_of_not_escape
    intro escape
    rw [regular.cold escape] at hot
    cases hot
  obtain ⟨op, member, instant, epsilon, timed, bound⟩ :=
    storeAfter_holdsAccounted ch config ops armed id c window found hot spend unsettled scheduled
  have reading : op.wallReading = some instant := by
    cases op with
    | registerCandidates requests arm hotReserve monoNow =>
      cases timed
      rfl
    | confirmCarrier sender carrier threshold instant timing monoNow =>
      cases timed
      rfl
    | _ => cases timed
  have past := readings op member instant reading
  have before := early armed
  have closes := regular.hold window hot scheduled
  simp only [FireWindow.isOpen, Bool.and_eq_false_iff, decide_eq_false_iff_not]
  omega

theorem Early.before {ch : ChannelState} {w : Nat} {s : PartialStore} {op : StoreOp}
    (early : Early w (storeStep ch s op).1) : Early w s := by
  intro armed
  have advances := advances_step ch s op
  calc
    w < (storeStep ch s op).1.armed.fireAt := early (advances.active armed)
    _ ≤ s.armed.fireAt := advances.fireAt armed

theorem Early.mono {w now : Nat} {s : PartialStore} (early : Early w s) (reached : now ≤ w) : Early now s :=
  fun armed => lt_of_le_of_lt reached (early armed)

section TwoRuns

variable {ch : ChannelState} {config : StoreConfig} {steps : List TwinStep}

theorem CoverHeld.front {before after : List TwinStep} (cover : CoverHeld ch config (before ++ after)) :
    CoverHeld ch config before := by
  intro front step rest same
  exact cover front step (rest ++ after) (by simp [same])

theorem firstRun_snoc (steps : List TwinStep) (step : TwinStep) :
    firstRun (steps ++ [step]) = firstRun steps ++ [step.op.withDuress step.first] := by
  simp [firstRun]

theorem secondRun_snoc (steps : List TwinStep) (step : TwinStep) :
    secondRun (steps ++ [step]) = secondRun steps ++ [step.op.withDuress step.second] := by
  simp [secondRun]

/-- Either run of the steps, with its verdicts given by `verdict`. -/
theorem run_readings (timed : Timed steps) (verdict : TwinStep → Bool) :
    ∀ op ∈ steps.map (fun step => step.op.withDuress (verdict step)), ∀ now, op.wallReading = some now →
      ∃ step ∈ steps, now = step.wall := by
  intro op member now reading
  obtain ⟨step, listed, rfl⟩ := List.mem_map.mp member
  rw [wallReading_withDuress] at reading
  exact ⟨step, listed, timed.readings step listed now reading⟩

theorem run_sound (timed : Timed steps) (paired : ∀ step ∈ steps, step.op.Paired) (verdict : TwinStep → Bool) :
    Sound (storeAfter ch config (steps.map (fun step => step.op.withDuress (verdict step)))) := by
  apply storeAfter_sound
  · intro op member
    obtain ⟨step, listed, rfl⟩ := List.mem_map.mp member
    exact paired_withDuress _ (paired step listed)
  · intro op member now reading
    obtain ⟨step, listed, rfl⟩ := run_readings timed verdict op member now reading
    exact timed.words step listed

theorem run_held (timed : Timed steps) (paired : ∀ step ∈ steps, step.op.Paired) (verdict : TwinStep → Bool)
    {now : Nat} (past : ∀ step ∈ steps, step.wall ≤ now)
    (early : Early now (storeAfter ch config (steps.map (fun step => step.op.withDuress (verdict step))))) :
    Held now (storeAfter ch config (steps.map (fun step => step.op.withDuress (verdict step)))) := by
  apply held_run (run_sound timed paired verdict) early
  intro op member instant reading
  obtain ⟨step, listed, rfl⟩ := run_readings timed verdict op member instant reading
  exact past step listed

/-- The step after a run whose stores are mirrored is answered alike. -/
theorem alike_run {step : TwinStep} (timed : Timed (steps ++ [step]))
    (paired : ∀ step ∈ steps, step.op.Paired) (cover : CoverHeld ch config (steps ++ [step])) {w : Nat}
    (reached : step.wall ≤ w)
    (twin : Twin w (storeAfter ch config (firstRun steps)) (storeAfter ch config (secondRun steps)))
    (early : Early step.wall (storeAfter ch config (firstRun steps)))
    (early' : Early step.wall (storeAfter ch config (secondRun steps))) :
    Alike ch (storeAfter ch config (firstRun steps)) (storeAfter ch config (secondRun steps))
      (step.op.withDuress step.first) (step.op.withDuress step.second) := by
  have past : ∀ earlier ∈ steps, earlier.wall ≤ step.wall := timed.last
  obtain ⟨forth, back⟩ := cover steps step [] rfl early early'
  apply alike_step twin
  · exact run_held timed.front paired TwinStep.first past early
  · exact run_held timed.front paired TwinStep.second past early'
  · exact reached
  · exact timed.readings step (by simp)
  · exact forth
  · exact back

/-- The stores of the two runs stay mirrored up to any instant before every armed `T`. -/
theorem mirrored_run (timed : Timed steps) (paired : ∀ step ∈ steps, step.op.Paired)
    (cover : CoverHeld ch config steps) {w : Nat} (past : ∀ step ∈ steps, step.wall ≤ w)
    (early : Early w (storeAfter ch config (firstRun steps)))
    (early' : Early w (storeAfter ch config (secondRun steps))) :
    Mirrored w (storeAfter ch config (firstRun steps)) (storeAfter ch config (secondRun steps)) := by
  induction steps using List.reverseRecOn with
  | nil =>
    refine ⟨⟨rfl, ?_⟩, fun _ _ => rfl, ?_⟩
    · intro id c d found
      cases found
    · intro _ id c d _ found
      cases found
  | append_singleton steps step ih =>
    rw [firstRun_snoc, storeAfter_snoc] at early ⊢
    rw [secondRun_snoc, storeAfter_snoc] at early' ⊢
    have reached : step.wall ≤ w := past step (by simp)
    have pairs : ∀ earlier ∈ steps, earlier.op.Paired :=
      fun earlier member => paired earlier (List.mem_append_left _ member)
    have mirrored := ih timed.front pairs cover.front
      (fun earlier member => past earlier (List.mem_append_left _ member)) early.before early'.before
    have now := early.before.mono reached
    have now' := early'.before.mono reached
    obtain ⟨forth, back⟩ := cover steps step [] rfl now now'
    have abreast : Abreast ch w (storeAfter ch config (firstRun steps)) (storeAfter ch config (secondRun steps))
        step.op step.first step.second := by
      refine ⟨mirrored, run_sound timed.front pairs TwinStep.first, run_sound timed.front pairs TwinStep.second,
        paired step (by simp), ?_, forth, back⟩
      intro instant reading
      rw [timed.readings step (by simp) instant reading]
      exact timed.words step (by simp)
    exact mirrored_step abreast (alike_run timed pairs cover reached mirrored.toTwin now now') early early'

/-- The pin is silent before `T` in every pair of runs whose cover holds. -/
theorem pin_silence (ch : ChannelState) (config : StoreConfig) (steps : List TwinStep) (timed : Timed steps)
    (paired : ∀ step ∈ steps, step.op.Paired) (cover : CoverHeld ch config steps) :
    PinSilent ch config steps := by
  intro before step after same early early'
  have whole : steps = (before ++ [step]) ++ after := by simp [same]
  rw [whole] at timed cover
  have pairs : ∀ earlier ∈ before, earlier.op.Paired :=
    fun earlier member => paired earlier (by simp [same, member])
  have past : ∀ earlier ∈ before, earlier.wall ≤ step.wall := timed.front.last
  have mirrored := mirrored_run timed.front.front pairs cover.front.front past early early'
  have alike := alike_run timed.front pairs cover.front le_rfl mirrored.toTwin early early'
  rw [firstRun_snoc, storeAfter_snoc, secondRun_snoc, storeAfter_snoc]
  exact ⟨.of_image mirrored.image, .of_image alike.store, alike.reply⟩

theorem CoverHeld.nil : CoverHeld ch config [] := by
  intro before step after same
  simp at same

theorem CoverHeld.snoc {step : TwinStep} (cover : CoverHeld ch config steps)
    (last : CoverHolds ch (storeAfter ch config (firstRun steps)) (storeAfter ch config (secondRun steps))
        (step.op.withDuress step.second) ∧
      CoverHolds ch (storeAfter ch config (secondRun steps)) (storeAfter ch config (firstRun steps))
        (step.op.withDuress step.first)) : CoverHeld ch config (steps ++ [step]) := by
  intro before other after same early early'
  rcases List.eq_nil_or_concat after with rfl | ⟨rest, final, rfl⟩
  · obtain ⟨rfl, equal⟩ := List.append_inj' same rfl
    cases equal
    exact last
  · have split : steps ++ [step] = (before ++ other :: rest) ++ [final] := by simp [same]
    exact cover before other rest (List.append_inj' split rfl).1 early early'

end TwoRuns

/-- Outside the schedule, the release and the settlement there is nothing to cover. -/
theorem CoverHolds.of_plain {ch : ChannelState} (loud quiet : PartialStore) {op : StoreOp}
    (plain : op.quiet = true) : CoverHolds ch loud quiet op := by
  refine ⟨?_, ?_, ?_, ?_, ?_⟩
  · intro arm holds given
    cases op with
    | registerCandidates requests directed hotReserve monoNow => cases plain
    | applyCachedSchedule escape duress now epsilon => cases plain
    | _ => cases given
  · rintro _ _ _ _ _ _ _ _ rfl
    cases plain
  · rintro _ _ _ _ _ _ _ _ _ rfl
    cases plain
  · rintro _ _ rfl
    cases plain
  · rintro _ rfl
    cases plain

/-- An unarmed store needs no cover but for the receipt that arms it. -/
theorem CoverHolds.of_unarmed {ch : ChannelState} {loud : PartialStore} (quiet : PartialStore) {op : StoreOp}
    (unarmed : loud.armed.active = false)
    (displaced : ∀ sender carrier threshold now timing monoNow intent,
      op = .confirmCarrier sender carrier threshold now timing monoNow →
      Crossing loud sender carrier threshold now monoNow intent → intent.duress = true →
      loud.armed.escapeCommitmentId = intent.escapeCommitmentId) : CoverHolds ch loud quiet op := by
  refine ⟨?_, ?_, ?_, ?_, ?_⟩
  · intro arm holds _ armed
    rw [unarmed] at armed
    cases armed
  · intro sender carrier threshold now timing monoNow intent verdict _ _ _ armed
    rw [unarmed] at armed
    cases armed
  · intro sender carrier threshold now timing monoNow intent verdict c receipt crossing _ _ _ duress _ _ moved
    exact absurd (displaced sender carrier threshold now timing monoNow intent receipt crossing duress) moved
  · intro id now _ c window armed
    rw [unarmed] at armed
    cases armed
  · intro id _ sweep
    simp [isArmedEscape, unarmed] at sweep

namespace Sample

/-- `confirmedRun` under a duress pin and under a normal one, and a look at the due candidates after it. -/
def confirmedTwins : List TwinStep :=
  [⟨0, .recordArmIntent false "carrier-a" "nonce-a" (generation 900 900) 0 0 timing, true, false⟩,
    ⟨0, .registerCandidates
      [spend "a" "a-escape" 1 10 true (some ⟨100, 300⟩) 900, escape "a-escape" "a" 1 11 900]
      ⟨"a-escape", "a", "carrier-a", false, 5, 0⟩ (some ⟨"a", 40000, 0, 900⟩) 0, true, false⟩,
    ⟨0, .markCarrierPropagated "carrier-a", false, false⟩,
    ⟨10, .confirmCarrier 1 "carrier-a" 2 10 timing 10, false, false⟩,
    ⟨90, .dueForFire 90, false, false⟩]

/-- A slot whose window closes early is displaced by the receipt that arms one run. Spend h pulls the cover `T` of
spend a's slot down to 95 and settles; the carrier of b, seen before, then commits with `T` at 605. -/
def displacedTwins : List TwinStep :=
  [⟨0, .recordArmIntent false "carrier-h" "nonce-h" (generation 300 900) 0 0 timing, false, false⟩,
    ⟨0, .registerCandidates
      [spend "h" "h-escape" 1 10 true (some ⟨100, 220⟩) 300, escape "h-escape" "h" 1 11 300]
      ⟨"h-escape", "h", "carrier-h", false, 5, 0⟩ (some ⟨"h", 40000, 0, 300⟩) 0, false, false⟩,
    ⟨5, .recordArmIntent false "carrier-b" "nonce-b" (generation 900 900) 5 5 timing, true, false⟩,
    ⟨5, .registerCandidates
      [spend "b" "b-escape" 2 20 false (some ⟨5, 125⟩) 900, escape "b-escape" "b" 2 21 900]
      ⟨"b-escape", "b", "carrier-b", false, 5, 5⟩ none 5, true, false⟩,
    ⟨10, .recordArmIntent false "carrier-a" "nonce-a" (generation 220 900) 10 10 timing, false, false⟩,
    ⟨10, .registerCandidates
      [spend "a" "a-escape" 3 30 false (some ⟨10, 130⟩) 220, escape "a-escape" "a" 3 31 220]
      ⟨"a-escape", "a", "carrier-a", false, 5, 10⟩ none 10, false, false⟩,
    ⟨10, .markCarrierPropagated "carrier-b", false, false⟩,
    ⟨100, .markBroadcast "h", false, false⟩,
    ⟨150, .confirmCarrier 1 "carrier-b" 2 150 timing 150, false, false⟩,
    ⟨230, .pruneStore 230 230, false, false⟩,
    ⟨230, .dueForFire 230, false, false⟩]

theorem paired_request {id slot : String} {coin lock lock' expiry : Nat} {hot : Bool} {window : FireWindow}
    {arm : ArmDirective} {hotReserve : Option HotReserveSpec} {monoNow : Nat} (named : arm.sweepEscape = slot)
    (nonempty : slot ≠ "") (closes : window.deadline ≤ expiry) :
    (StoreOp.registerCandidates [spend id slot coin lock hot (some window) expiry,
      escape slot id coin lock' expiry] arm hotReserve monoNow).Paired := by
  intro request asked
  simp only [List.mem_cons, List.not_mem_nil, or_false] at asked
  rcases asked with rfl | rfl
  · constructor
    · intro role
      cases role
    · intro other _ scheduled
      cases scheduled
      exact closes
  · refine ⟨fun _ => ⟨named.symm, nonempty, rfl⟩, ?_⟩
    intro other cold
    cases cold

end Sample

/-- The pin of the sample's confirmed carrier is silent. -/
theorem pin_silence_sample : PinSilent Sample.channel Sample.config Sample.confirmedTwins := by
  apply pin_silence
  · exact Timed.of_checked (by decide) (by decide) (by decide)
  · intro step member
    simp only [Sample.confirmedTwins, List.mem_cons, List.not_mem_nil, or_false] at member
    rcases member with rfl | rfl | rfl | rfl | rfl
    · trivial
    · exact Sample.paired_request rfl (by decide) (by decide)
    · trivial
    · trivial
    · trivial
  · -- Nothing is armed before the receipt, and the receipt's own slot is the selected one.
    have selected : ∀ (s : PartialStore) sender threshold now monoNow intent, s.armed.escapeCommitmentId = "a-escape" →
        (s.intents.lookup "carrier-a").map ArmIntent.escapeCommitmentId = some "a-escape" →
        Crossing s sender "carrier-a" threshold now monoNow intent →
        s.armed.escapeCommitmentId = intent.escapeCommitmentId := by
      intro s sender threshold now monoNow intent chosen named crossing
      rw [crossing.found] at named
      rw [chosen]
      exact (Option.some.inj named).symm
    change CoverHeld _ _ ((((([] ++ [_]) ++ [_]) ++ [_]) ++ [_]) ++ [_])
    apply CoverHeld.snoc
    · apply CoverHeld.snoc
      · apply CoverHeld.snoc
        · apply CoverHeld.snoc
          · apply CoverHeld.snoc CoverHeld.nil
            constructor
            all_goals
              apply CoverHolds.of_unarmed _ (by decide)
              intro _ _ _ _ _ _ _ receipt
              cases receipt
          · constructor
            all_goals
              apply CoverHolds.of_unarmed _ (by decide)
              intro _ _ _ _ _ _ _ receipt
              cases receipt
        · exact ⟨.of_plain _ _ rfl, .of_plain _ _ rfl⟩
      · constructor
        all_goals
          apply CoverHolds.of_unarmed _ (by decide)
          intro _ _ _ _ _ _ _ receipt crossing _
          cases receipt
          exact selected _ _ _ _ _ _ (by decide) (by decide +kernel) crossing
    · exact ⟨.of_plain _ _ rfl, .of_plain _ _ rfl⟩

/-- Before `T` the prune at 230 drops spend a's pair under the duress pin and keeps it under the normal one. -/
theorem displaced_slot_reveals_pin :
    Timed Sample.displacedTwins ∧ (∀ step ∈ Sample.displacedTwins, step.op.Paired) ∧
      MonoOrdered (firstRun Sample.displacedTwins) ∧
      ¬PinSilent Sample.channel Sample.config Sample.displacedTwins := by
  refine ⟨Timed.of_checked (by decide) (by decide) (by decide), ?_, by decide, ?_⟩
  · intro step member
    simp only [Sample.displacedTwins, List.mem_cons, List.not_mem_nil, or_false] at member
    rcases member with rfl | rfl | rfl | rfl | rfl | rfl | rfl | rfl | rfl | rfl | rfl
    · trivial
    · exact Sample.paired_request rfl (by decide) (by decide)
    · trivial
    · exact Sample.paired_request rfl (by decide) (by decide)
    · trivial
    · exact Sample.paired_request rfl (by decide) (by decide)
    all_goals trivial
  · intro silent
    have visible := (silent Sample.displacedTwins.dropLast ⟨230, .dueForFire 230, false, false⟩ [] rfl ?_ ?_).1.resident
      "a"
    · revert visible
      decide
    · intro _
      decide
    · intro _
      decide

end BtcPolicy.Channel
