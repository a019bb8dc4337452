import BtcPolicy.Channel.Accounting

/-! What the store leaves of a candidate's ladder. Only the latch moves the rung a candidate may fire at and the rung
its release starts from, and no operation changes the transactions of a resident ladder. -/

namespace BtcPolicy.Channel
open FiniteMap Word Bitcoin HotLedger Runs PartialStore

def Candidate.rungTxs (c : Candidate) : List Transaction := c.variants.map (fun variant => variant.psbt.unsignedTx)

/-- The ladder, the rung latched and the floor under its release. -/
structure Candidate.SameLadder (earlier later : Candidate) : Prop where
  txs : later.rungTxs = earlier.rungTxs
  rung : later.rung = earlier.rung
  releaseFloor : later.releaseFloor = earlier.releaseFloor

namespace Candidate.SameLadder

theorem refl (c : Candidate) : c.SameLadder c := ⟨rfl, rfl, rfl⟩

theorem trans {a b c : Candidate} (first : a.SameLadder b) (second : b.SameLadder c) : a.SameLadder c :=
  ⟨second.txs.trans first.txs, second.rung.trans first.rung, second.releaseFloor.trans first.releaseFloor⟩

theorem length {a b : Candidate} (same : a.SameLadder b) : b.bumps.length = a.bumps.length := by
  have lengths := congrArg List.length same.txs
  simpa [rungTxs, variants] using lengths

theorem authorizedRung {a b : Candidate} (same : a.SameLadder b) : b.authorizedRung = a.authorizedRung := by
  rw [Candidate.authorizedRung, Candidate.authorizedRung, same.rung, same.length]

theorem clampedFloor {a b : Candidate} (same : a.SameLadder b) : b.clampedFloor = a.clampedFloor := by
  rw [Candidate.clampedFloor, Candidate.clampedFloor, same.releaseFloor, same.length]

end Candidate.SameLadder

/-- Whatever is resident in `after` was resident in `before`, with its ladder as it was. -/
def LaddersKept (before after : PartialStore) : Prop :=
  ∀ id later, after.candidates.lookup id = some later →
    ∃ earlier, before.candidates.lookup id = some earlier ∧ earlier.SameLadder later

namespace LaddersKept

variable {before after : PartialStore}

theorem of_same (same : after.candidates = before.candidates) : LaddersKept before after := by
  intro id later found
  exact ⟨later, same ▸ found, .refl later⟩

theorem trans {a b c : PartialStore} (first : LaddersKept a b) (second : LaddersKept b c) : LaddersKept a c := by
  intro id last found
  obtain ⟨middle, atMiddle, later⟩ := second id last found
  obtain ⟨earlier, atEarlier, same⟩ := first id middle atMiddle
  exact ⟨earlier, atEarlier, same.trans later⟩

theorem foldl {ι : Type} {write : PartialStore → ι → PartialStore} (each : ∀ s i, LaddersKept s (write s i))
    (items : List ι) (s : PartialStore) : LaddersKept s (items.foldl write s) := by
  induction items generalizing s with
  | nil => exact of_same rfl
  | cons i rest ih => exact (each s i).trans (ih (write s i))

/-- A rewrite of one candidate that leaves its ladder. -/
theorem update {s : PartialStore} {id : String} {f : Candidate → Candidate}
    (leaves : ∀ c, s.candidates.lookup id = some c → c.SameLadder (f c)) :
    LaddersKept s (s.updateCandidate id f) := by
  intro other later found
  obtain ⟨old, present, same | ⟨here, rewritten⟩⟩ := lookup_adjust_some found
  · exact ⟨old, present, same ▸ .refl old⟩
  · subst here
    exact ⟨old, present, rewritten ▸ leaves old present⟩

theorem evict (s : PartialStore) (id : String) : LaddersKept s (s.evict id) := by
  intro other later found
  unfold PartialStore.evict at found
  split at found
  · simp only [lookup_erase_eq] at found
    split at found
    · cases found
    · exact ⟨later, found, .refl later⟩
  · exact ⟨later, found, .refl later⟩

theorem terminalize (s : PartialStore) (id : String) : LaddersKept s (s.terminalize id) := by
  unfold PartialStore.terminalize
  split
  · intro other later found
    have marked : LaddersKept s (s.setBroadcast id) := update (fun c _ => ⟨rfl, rfl, rfl⟩)
    exact marked other later found
  · exact of_same rfl

theorem refreshEscapeWindow (id : String) (s : PartialStore) : LaddersKept s (s.refreshEscapeWindow id) := by
  unfold PartialStore.refreshEscapeWindow
  split
  · exact of_same rfl
  · apply update
    intro c _
    unfold reschedule
    split
    · exact ⟨rfl, rfl, rfl⟩
    · exact .refl c

theorem applyArmDirective (arm : ArmDirective) (holds : List Nat) (s : PartialStore) :
    LaddersKept s (s.applyArmDirective arm holds) := by
  unfold PartialStore.applyArmDirective
  simp only
  refine trans ?_ (refreshEscapeWindow _ _)
  refine trans ?_ (refreshEscapeWindow _ _)
  exact of_same rfl

theorem acceptPartial (ch : ChannelState) (s : PartialStore) (p : ParsedPartial) (now : Nat) :
    LaddersKept s (acceptPartial ch.lib s p ch.nodes now).1 := by
  unfold PartialStore.acceptPartial
  split
  · exact of_same rfl
  next c found =>
    split
    · exact evict s _
    · split
      · exact of_same rfl
      next rung variant expected sig passed =>
        split
        · exact of_same rfl
        · apply update
          intro resident atId
          cases found.symm.trans atId
          obtain ⟨_, _, _, checked⟩ := checkPartial_ok passed
          refine ⟨?_, ?_, ?_⟩
          · -- The import puts a signature on one rung, whose transaction stays.
            unfold Candidate.rungTxs
            obtain ⟨inside, atRung⟩ := List.getElem?_eq_some_iff.mp checked.held
            have whole : c.variants.set rung variant = c.variants := by
              rw [← atRung]
              exact List.set_getElem_self inside
            rw [importPartial_variants, List.map_set]
            conv_rhs => rw [← whole, List.map_set]
            rfl
          · unfold importPartial
            cases rung <;> rfl
          · unfold importPartial
            cases rung <;> rfl

theorem releasePartials (ch : ChannelState) (s : PartialStore) (id : String) (now : Nat) :
    LaddersKept s (s.releasePartials ch id now).1 := by
  obtain same | ⟨_, _, _, _, _, _, same⟩ := releasePartials_cases ch s id now
  · rw [same]
    exact of_same rfl
  · rw [same]
    exact update (fun c _ => ⟨rfl, rfl, rfl⟩)

theorem markBroadcast (s : PartialStore) (id : String) : LaddersKept s (s.markBroadcast id).1 := by
  have conflicts : LaddersKept s (s.invalidateHotConflicts id).1 := foldl terminalize _ s
  unfold PartialStore.markBroadcast
  simp only
  split
  · exact conflicts.trans (foldl evict _ _)
  · exact conflicts.trans (update (fun c _ => ⟨rfl, rfl, rfl⟩))

theorem confirmWrites (carrier : String) (intent : ArmIntent) (now : Nat) (timing : DuressTiming) :
    ∀ write ∈ PartialStore.confirmWrites carrier intent now timing, ∀ s, LaddersKept s (write s) := by
  intro write member s
  simp only [PartialStore.confirmWrites, List.mem_cons, List.not_mem_nil, or_false] at member
  rcases member with rfl | rfl | rfl | rfl | rfl | rfl | rfl | rfl
  · exact of_same rfl
  · exact of_same rfl
  · exact update (fun c _ => ⟨rfl, rfl, rfl⟩)
  · exact update (fun c _ => ⟨rfl, rfl, rfl⟩)
  · exact of_same rfl
  · exact refreshEscapeWindow _ s
  · exact refreshEscapeWindow _ s
  · exact of_same rfl

theorem applyWrites {writes : List (PartialStore → PartialStore)} (each : ∀ write ∈ writes, ∀ s, LaddersKept s (write s))
    (s : PartialStore) : LaddersKept s (PartialStore.applyWrites writes s) := by
  induction writes generalizing s with
  | nil => exact of_same rfl
  | cons write rest ih =>
    exact (each write List.mem_cons_self s).trans
      (ih (fun other member => each other (List.mem_cons_of_mem _ member)) (write s))

theorem confirmCarrier (s : PartialStore) (sender : Nat) (carrier : String) (threshold now : Nat)
    (timing : DuressTiming) (monoNow : Nat) :
    LaddersKept s (s.confirmCarrier sender carrier threshold now timing monoNow).1 := by
  obtain ⟨_, same | same⟩ | ⟨intent, _, same⟩ := confirmCarrier_cases s sender carrier threshold now timing monoNow
  · rw [same]
    exact of_same rfl
  · rw [same]
    exact of_same rfl
  · rw [same]
    exact LaddersKept.trans (of_same rfl) (applyWrites (confirmWrites carrier intent now timing) _)

end LaddersKept

/-- As `LaddersKept`, for one candidate. -/
def LadderKept (id : String) (before after : PartialStore) : Prop :=
  ∀ later, after.candidates.lookup id = some later →
    ∃ earlier, before.candidates.lookup id = some earlier ∧ earlier.SameLadder later

theorem LadderKept.trans {id : String} {a b c : PartialStore} (first : LadderKept id a b) (second : LadderKept id b c) :
    LadderKept id a c := by
  intro last found
  obtain ⟨middle, atMiddle, later⟩ := second last found
  obtain ⟨earlier, atEarlier, same⟩ := first middle atMiddle
  exact ⟨earlier, atEarlier, same.trans later⟩

def StoreOp.enrolls : StoreOp → Bool
  | .registerCandidates .. => true
  | _ => false

/-- One operation that neither enrolls a request nor latches this candidate. -/
theorem ladderKept_step {ch : ChannelState} {id : String} (s : PartialStore) {op : StoreOp}
    (enrolls : op.enrolls = false) (other : ∀ rung lowest, op ≠ .latchEscapeRung id rung lowest) :
    LadderKept id s (storeStep ch s op).1 := by
  have ofKept : LaddersKept s (storeStep ch s op).1 → LadderKept id s (storeStep ch s op).1 := fun kept => kept id
  by_cases quiet : op.quiet = true
  · exact ofKept (.of_same (sameCore_of_quiet ch s op quiet).candidates)
  · cases op with
    | registerCandidates requests arm hotReserve monoNow => cases enrolls
    | recordArmIntent duress carrier nonce generation firstSeen now timing =>
      apply ofKept
      apply LaddersKept.of_same
      simp only [storeStep]
      unfold recordArmIntent upgradeMemo
      simp only
      split
      · split_ifs <;> rfl
      · rfl
    | applyCachedSchedule escape duress now epsilon => exact ofKept (.applyArmDirective _ _ s)
    | confirmCarrier sender carrier threshold now timing monoNow =>
      exact ofKept (.confirmCarrier s sender carrier threshold now timing monoNow)
    | pruneStore now monoNow =>
      intro later found
      exact ⟨later, (lookup_retain_some.mp found).1, .refl later⟩
    | acceptPartial p now => exact ofKept (.acceptPartial ch s p now)
    | reserveHotBudget id outflow wallNow expiry monoNow => exact ofKept (.of_same rfl)
    | releaseHotBudget id => exact ofKept (.of_same rfl)
    | releasePartials id now => exact ofKept (.releasePartials ch s id now)
    | latchEscapeRung target rung lowest =>
      have different : id ≠ target := by
        intro same
        exact other rung lowest (by rw [same])
      intro later found
      rw [storeStep, latchEscapeRung, updateCandidate, lookup_adjust_ne different] at found
      exact ⟨later, found, .refl later⟩
    | invalidateHotConflictsInStore id => exact ofKept (.foldl LaddersKept.terminalize _ s)
    | markBroadcast id => exact ofKept (.markBroadcast s id)
    | _ => exact absurd rfl quiet

end BtcPolicy.Channel
