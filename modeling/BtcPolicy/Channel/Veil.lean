import BtcPolicy.Channel.Hush

/-! The store with the verdicts of its intents taken out and its overlay seen through a function, and nothing
else: what one request may leave behind of its own pin. Candidates keep their windows here. -/

namespace BtcPolicy.Channel
open FiniteMap Word Bitcoin HotLedger PartialStore

/-- The overlay without the sweep selector. -/
def Armed.unswept (armed : Armed) : Armed := { armed with sweepActive := false }

def PartialStore.veil (f : Armed → Armed) (s : PartialStore) : PartialStore :=
  { s with
    intents := mapVals ArmIntent.hush s.intents
    armed := f s.armed }

namespace PartialStore

variable (f g : Armed → Armed) (s : PartialStore)

theorem veil_veil : (s.veil g).veil f = s.veil (f ∘ g) := by
  simp [veil]

/-! ### Intents and memos -/

theorem veil_updateIntent {g : ArmIntent → ArmIntent} (same : ∀ intent, (g intent).hush = g intent.hush)
    (carrier : String) : (s.updateIntent carrier g).veil f = (s.veil f).updateIntent carrier g := by
  simp only [veil, updateIntent, mapVals_adjust same]

theorem veil_markCarrierPropagated (ch : ChannelState) (carrier : String) :
    (s.markCarrierPropagated ch carrier).veil f = (s.veil f).markCarrierPropagated ch carrier := by
  apply veil_updateIntent
  intro intent
  rfl

theorem veil_attachPair (carrier spend escape : String) :
    (s.attachPair carrier spend escape).veil f = (s.veil f).attachPair carrier spend escape := by
  apply veil_updateIntent
  intro intent
  rfl

theorem veil_retireCarrier (carrier : String) : (s.retireCarrier carrier).veil f = (s.veil f).retireCarrier carrier := by
  simp [veil, retireCarrier]

theorem veil_releaseNonceClaim (nonce : String) (generation : MemoGeneration) :
    (s.releaseNonceClaim nonce generation).veil f = (s.veil f).releaseNonceClaim nonce generation := by
  unfold releaseNonceClaim
  rw [apply_ite (fun t => veil f t)]
  rfl

theorem veil_endCarrierRuling (carrier : String) (monoNow : Nat) :
    (s.endCarrierRuling carrier monoNow).veil f = (s.veil f).endCarrierRuling carrier monoNow := by
  have ended : (s.updateIntent carrier (fun intent => { intent with ownerRuling := false })).veil f =
      (s.veil f).updateIntent carrier (fun intent => { intent with ownerRuling := false }) := by
    apply veil_updateIntent
    intro intent
    rfl
  have looked : (s.veil f).intents.lookup carrier = (s.intents.lookup carrier).map ArmIntent.hush :=
    lookup_mapVals _ _ _
  unfold endCarrierRuling
  simp only [looked]
  cases s.intents.lookup carrier with
  | none => rfl
  | some intent =>
    simp only [Option.map_some, ArmIntent.hush]
    split_ifs
    · rw [veil_retireCarrier, ended]
    · exact ended

theorem veil_pruneCarriers (monoNow : Nat) : (s.pruneCarriers monoNow).veil f = (s.veil f).pruneCarriers monoNow := by
  have kept : mapVals ArmIntent.hush (retain (fun _ intent => decide (monoNow < intent.deadline) ||
        intent.ownerRuling) s.intents) =
      retain (fun _ intent => decide (monoNow < intent.deadline) || intent.ownerRuling)
        (mapVals ArmIntent.hush s.intents) := mapVals_retain (fun _ _ => rfl)
  simp only [veil, pruneCarriers]
  rw [← kept]
  simp only [hush_ownerStillRuling]

/-- The sweep reads the overlay, so it is seen through the thin veil only. -/
theorem veil_pruneStore (now monoNow : Nat) : (s.pruneStore now monoNow).veil id = (s.veil id).pruneStore now monoNow := by
  unfold pruneStore
  rw [← veil_pruneCarriers]
  rfl

/-- The verdict goes into the intent's bit and nowhere else. -/
theorem veil_recordArmIntent (duress : Bool) (carrier nonce : String) (generation : MemoGeneration)
    (firstSeen now : Nat) (timing : DuressTiming) :
    (s.recordArmIntent duress carrier nonce generation firstSeen now timing).1.veil f =
        (s.recordArmIntent false carrier nonce generation firstSeen now timing).1.veil f ∧
      (s.recordArmIntent duress carrier nonce generation firstSeen now timing).2 =
        (s.recordArmIntent false carrier nonce generation firstSeen now timing).2 := by
  unfold recordArmIntent upgradeMemo
  simp only [recordIntent]
  split
  · split_ifs
    · exact ⟨by simp only [veil, mapVals_insert]; rfl, rfl⟩
    · exact ⟨by simp only [veil, mapVals_insert]; rfl, rfl⟩
  · exact ⟨by simp only [veil, mapVals_insert]; rfl, rfl⟩

/-! ### Registration -/

theorem veil_register (c : Candidate) : (s.veil f).register c = ((s.register c).1.veil f, (s.register c).2) := by
  have candidates : (s.veil f).candidates = s.candidates := rfl
  have bytes : (s.veil f).reservedBytes = s.reservedBytes := rfl
  have bound : (s.veil f).maxActiveCandidates = s.maxActiveCandidates := rfl
  have room : (s.veil f).maxBytes = s.maxBytes := rfl
  unfold register
  rw [candidates, bytes, bound, room]
  cases s.candidates.lookup c.commitmentId with
  | none =>
    simp only
    split_ifs <;> rfl
  | some resident =>
    simp only
    split_ifs <;> rfl

theorem veil_registerAll (candidates : List Candidate) :
    (s.veil f).registerAll candidates = ((s.registerAll candidates).1.veil f, (s.registerAll candidates).2) := by
  induction candidates generalizing s with
  | nil => rfl
  | cons c rest ih => simp only [registerAll, veil_register, ih]

theorem veil_refreshEscapeWindow (id : String) :
    (s.refreshEscapeWindow id).veil Armed.unswept = (s.veil Armed.unswept).refreshEscapeWindow id := by
  unfold refreshEscapeWindow
  split_ifs <;> rfl

/-- The directive's verdict goes into the sweep selector and nowhere else: the slot it names and the windows it
writes are chosen before the selector is. -/
theorem veil_applyArmDirective (arm : ArmDirective) (duress : Bool) (holds : List Nat) :
    (s.applyArmDirective { arm with duress := duress } holds).veil Armed.unswept =
      ((s.veil id).applyArmDirective { arm with duress := false } holds).veil Armed.unswept := by
  have twice : ∀ t : PartialStore, (t.veil Armed.unswept).veil Armed.unswept = t.veil Armed.unswept := by
    intro t
    rw [veil_veil]
    rfl
  unfold applyArmDirective
  simp only [veil_refreshEscapeWindow]
  have image := twice s
  simp only [veil, adoptSweep, Armed.unswept, id, mapVals_mapVals] at image ⊢
  rfl

theorem veil_enroll (arm : ArmDirective) (duress : Bool) (candidates : List Candidate) :
    (s.enroll { arm with duress := duress } candidates).1.veil Armed.unswept =
        ((s.veil id).enroll { arm with duress := false } candidates).1.veil Armed.unswept ∧
      (s.enroll { arm with duress := duress } candidates).2 =
        ((s.veil id).enroll { arm with duress := false } candidates).2 := by
  unfold enroll
  simp only [veil_registerAll, veil_attachPair, and_true]
  rw [veil_applyArmDirective]

theorem veil_revalidate (hotReserve : Option HotReserveSpec) (monoNow : Nat) :
    (s.veil f).revalidate hotReserve monoNow =
      ((s.revalidate hotReserve monoNow).1.veil f, (s.revalidate hotReserve monoNow).2) := by
  cases hotReserve <;> rfl

theorem veil_unwindReserve (created : Bool) (hotReserve : Option HotReserveSpec) :
    (s.veil f).unwindReserve created hotReserve = (s.unwindReserve created hotReserve).veil f := by
  unfold unwindReserve
  cases hotReserve with
  | none => rfl
  | some spec => split_ifs <;> rfl

end PartialStore

/-- Registration under either verdict answers alike and leaves the same store behind the veil. -/
theorem veil_registerCandidates (ch : ChannelState) (s : PartialStore) (candidates : List Candidate)
    (arm : ArmDirective) (duress : Bool) (hotReserve : Option HotReserveSpec) (monoNow : Nat) :
    (registerCandidates ch s candidates { arm with duress := duress } hotReserve monoNow).1.veil Armed.unswept =
        (registerCandidates ch (s.veil id) candidates { arm with duress := false } hotReserve monoNow).1.veil
          Armed.unswept ∧
      (registerCandidates ch s candidates { arm with duress := duress } hotReserve monoNow).2 =
        (registerCandidates ch (s.veil id) candidates { arm with duress := false } hotReserve monoNow).2 := by
  unfold registerCandidates
  rw [veil_revalidate]
  rcases s.revalidate hotReserve monoNow with ⟨r, refused | created⟩
  · simp only [veil_veil, Function.comp_id, and_self]
  · have conflict : ∀ cs, (r.veil id).anyConflict cs = r.anyConflict cs := fun _ => rfl
    have full : ∀ cs, (r.veil id).overCapacity cs = r.overCapacity cs := fun _ => rfl
    simp only [conflict, full]
    generalize candidates.map (fun c => c.reservePartialCapacity ch.nodes ch.nodeId) = reserved
    split_ifs
    · simp only [veil_unwindReserve, veil_veil, Function.comp_id, and_self]
    · simp only [veil_unwindReserve, veil_veil, Function.comp_id, true_and]
      rfl
    · obtain ⟨same, outcomes⟩ := veil_enroll r arm duress reserved
      exact ⟨same, congrArg Except.ok outcomes⟩

end BtcPolicy.Channel
