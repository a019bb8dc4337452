import BtcPolicy.Channel.Hush

/-! Two stores of one image. Before the earliest `T` of an armed one they answer every operation alike, as long
as each delayed slot whose window they do not share stays open in both. -/

namespace BtcPolicy.Channel
open FiniteMap Word Bitcoin HotLedger Runs PartialStore

/-! ### Two stores side by side -/

/-- `w` is before `T`, if the store is armed. -/
def Early (w : Nat) (s : PartialStore) : Prop := s.armed.active = true → w < s.armed.fireAt

/-- The candidate's window does not close before `w`. -/
def Candidate.Outlives (w : Nat) (c : Candidate) : Prop := ∃ window, c.fire = some window ∧ w ≤ window.deadline

/-- The windows of one delayed slot in two stores: the same, or both still open at `w`. -/
def SameSlot (w : Nat) (c d : Candidate) : Prop := c.fire = d.fire ∨ c.Outlives w ∧ d.Outlives w

/-- The stores have one image, and every slot is the same in both or open in both at `w`. -/
structure Twin (w : Nat) (s t : PartialStore) : Prop where
  image : s.hush = t.hush
  slots : ∀ id c d, s.candidates.lookup id = some c → t.candidates.lookup id = some d → c.role = .escape →
    SameSlot w c d

theorem Twin.symm {w : Nat} {s t : PartialStore} (twin : Twin w s t) : Twin w t s := by
  refine ⟨twin.image.symm, ?_⟩
  intro id d c atT atS escape
  obtain ⟨other, atS', same⟩ := twin_lookup twin.image.symm atT
  rw [atS] at atS'
  cases atS'
  have role : c.role = d.role := of_image (f := Candidate.role) (fun _ => rfl) same
  rcases twin.slots id c d atS atT (role.trans escape) with equal | ⟨first, second⟩
  · exact Or.inl equal.symm
  · exact Or.inr ⟨second, first⟩

/-- What holds of a store before its `T`: no slot and no Hold the overlay watches is open yet. -/
structure Held (now : Nat) (s : PartialStore) : Prop where
  early : Early now s
  keyed : Keyed s
  spends : Every (fun _ c => c.role = .escape → c.hot = false) s.candidates
  slot : s.armed.active = true → ∀ c window, s.candidates.lookup s.armed.escapeCommitmentId = some c →
    c.role = .escape → c.fire = some window → s.armed.fireAt ≤ window.fireAt
  hold : s.armed.active = true → ∀ id c window, s.candidates.lookup id = some c → c.hot = true →
    c.broadcast = false → c.fire = some window → window.isOpen now = false
  fits : s.armed.fireAt ≤ maxWord

theorem le_satAdd {a b : Nat} (fits : a ≤ maxWord) : a ≤ satAdd a b := by
  unfold satAdd
  omega

theorem Held.shut {now : Nat} {s : PartialStore} (held : Held now s) {id : String} {c : Candidate}
    (found : s.candidates.lookup id = some c) (escape : c.role = .escape) (active : s.slotActive c = true) :
    c.fire.any (fun window => window.isOpen now) = false := by
  simp only [slotActive, escape, ne_eq, not_true_eq_false, decide_false, Bool.false_or, Bool.and_eq_true,
    decide_eq_true_eq] at active
  obtain ⟨_, ⟨armed, _⟩, selected⟩ := active
  rw [held.keyed id c found] at selected
  cases scheduled : c.fire with
  | none => rfl
  | some window =>
    have later := held.slot armed c window (selected ▸ found) escape scheduled
    have before := held.early armed
    simp only [Option.any_some, FireWindow.isOpen, Bool.and_eq_false_iff, decide_eq_false_iff_not]
    omega

/-! ### Due candidates and released shares -/

/-- Before `T` a candidate is due exactly when it is due without a pin. -/
theorem isDue_hush {now : Nat} {s : PartialStore} (held : Held now s) {id : String} {c : Candidate}
    (found : s.candidates.lookup id = some c) : s.hush.isDue now c.hush = s.isDue now c := by
  by_cases escape : c.role = .escape
  · have idle : s.hush.isDue now c.hush = false := by
      simp [isDue, hush_escape escape]
    rw [idle]
    by_cases active : s.slotActive c = true
    · simp [isDue, held.shut found escape active]
    · simp [isDue, active]
  · have slot : s.hush.slotActive c = s.slotActive c := by simp [slotActive, escape]
    have idle : s.hush.frozen c = false := rfl
    rw [hush_spend escape]
    unfold isDue
    rw [slot, idle]
    by_cases frozen : s.frozen c = true
    · -- The Hold is not over yet, so the freeze has nothing to hide.
      simp only [PartialStore.frozen, Bool.and_eq_true] at frozen
      cases settled : c.broadcast with
      | true => simp
      | false =>
        cases scheduled : c.fire with
        | none => simp
        | some window => simp [held.hold frozen.1 id c window found frozen.2 settled scheduled]
    · simp [frozen]

theorem dueForFire_hush {now : Nat} {s : PartialStore} (held : Held now s) :
    s.hush.dueForFire now = s.dueForFire now := by
  have due : ((vals s.candidates).map Candidate.hush).filter (s.hush.isDue now) =
      ((vals s.candidates).filter (s.isDue now)).map Candidate.hush := by
    rw [List.filter_map]
    apply congrArg
    apply List.filter_congr
    intro c member
    obtain ⟨id, found⟩ := mem_vals.mp member
    exact isDue_hush held found
  have listed : vals s.hush.candidates = (vals s.candidates).map Candidate.hush := vals_mapVals _ _
  unfold dueForFire
  rw [listed, due, List.map_map]
  rfl

section Watchful

variable {ch : ChannelState} {w now : Nat} {s t : PartialStore}

theorem alike_dueForFire (image : s.hush = t.hush) (first : Held now s) (second : Held now t) :
    Alike ch s t (.dueForFire now) (.dueForFire now) := by
  refine ⟨image, ?_⟩
  show StoreReply.ids (s.dueForFire now) = StoreReply.ids (t.dueForFire now)
  rw [← dueForFire_hush first, image, dueForFire_hush second]

theorem releasable_none {c : Candidate} (shut : ∀ window, ¬Released ch s c now window) :
    releasable ch s c now = none := by
  by_contra passes
  obtain ⟨window, passed⟩ := Option.ne_none_iff_exists'.mp passes
  exact shut window (releasable_some.mp passed)

/-- The gate is shut for an escape, and for a hot spend that is still to settle. -/
theorem releasable_escape (held : Held now s) {id : String} {c : Candidate}
    (found : s.candidates.lookup id = some c) (escape : c.role = .escape) : releasable ch s c now = none := by
  apply releasable_none
  intro window gate
  have shut := held.shut found escape gate.slot
  rw [gate.scheduled, Option.any_some, gate.inside] at shut
  cases shut

theorem releasable_hot (held : Held now s) (armed : s.armed.active = true) {id : String} {c : Candidate}
    (found : s.candidates.lookup id = some c) (hot : c.hot = true) (unsettled : c.broadcast = false) (other : PartialStore) :
    releasable ch other c now = none := by
  apply releasable_none
  intro window gate
  have shut := held.hold armed id c window found hot unsettled gate.scheduled
  rw [gate.inside] at shut
  cases shut

/-- Nothing settled leaves the unarmed store alone. -/
def SettledStays (ch : ChannelState) (loud quiet : PartialStore) (id : String) (now : Nat) : Prop :=
  ∀ c window, loud.armed.active = true → quiet.armed.active = false → quiet.candidates.lookup id = some c →
    c.hot = true → c.broadcast = true → ¬Released ch quiet c now window

theorem releasable_alike {id : String} {c d : Candidate} (first : Held now s) (second : Held now t)
    (atS : s.candidates.lookup id = some c) (atT : t.candidates.lookup id = some d) (image : d.hush = c.hush)
    (forth : SettledStays ch s t id now) (back : SettledStays ch t s id now) :
    releasable ch s c now = releasable ch t d now := by
  have role : d.role = c.role := of_image (f := Candidate.role) (fun _ => rfl) image
  by_cases escape : c.role = .escape
  · rw [releasable_escape first atS escape, releasable_escape second atT (role.trans escape)]
  · have equal : d = c := by
      rw [← hush_spend escape, ← image, hush_spend (fun same => escape (role.symm.trans same))]
    subst equal
    have slot : s.slotActive d = t.slotActive d := by simp [slotActive, escape]
    -- Only a hot spend sees the overlay, and only if one store alone is armed.
    by_cases blind : s.armed.active = t.armed.active ∨ d.hot = false
    · have gate : (s.armed.active && d.hot) = (t.armed.active && d.hot) := by
        rcases blind with same | cold
        · rw [same]
        · simp [cold]
      unfold releasable
      rw [slot, gate]
    · have hot : d.hot = true := by simpa using fun cold => blind (Or.inr cold)
      have differ : s.armed.active ≠ t.armed.active := fun same => blind (Or.inl same)
      have frozen : ∀ r : PartialStore, r.armed.active = true → releasable ch r d now = none := by
        intro r armed
        simp [releasable, armed, hot]
      cases armed : s.armed.active with
      | true =>
        have quiet : t.armed.active = false := by simpa [armed] using differ.symm
        rw [frozen s armed]
        cases settled : d.broadcast with
        | true =>
          symm
          apply releasable_none
          intro window
          exact forth d window armed quiet atT hot settled
        | false => exact (releasable_hot first armed atS hot settled t).symm
      | false =>
        have loud : t.armed.active = true := by simpa [armed] using differ.symm
        rw [frozen t loud]
        cases settled : d.broadcast with
        | true =>
          apply releasable_none
          intro window
          exact back d window loud armed atS hot settled
        | false => exact releasable_hot second loud atT hot settled s

theorem alike_releasePartials (image : s.hush = t.hush) (first : Held now s) (second : Held now t) (id : String)
    (forth : SettledStays ch s t id now) (back : SettledStays ch t s id now) :
    Alike ch s t (.releasePartials id now) (.releasePartials id now) := by
  have marked : ∀ r : PartialStore, (r.updateCandidate id (markReleased ch)).hush =
      r.hush.updateCandidate id (markReleased ch) := by
    intro r
    apply hush_updateCandidate
    intro c
    rfl
  have answer : ((s.releasePartials ch id now).1.hush, (s.releasePartials ch id now).2) =
      ((t.releasePartials ch id now).1.hush, (t.releasePartials ch id now).2) := by
    unfold releasePartials
    cases ch.nodes[ch.nodeId]? with
    | none => simp only [image]
    | some node =>
      cases atS : s.candidates.lookup id with
      | none =>
        cases atT : t.candidates.lookup id with
        | none => simp only [image]
        | some d =>
          obtain ⟨c, present, _⟩ := twin_lookup image.symm atT
          rw [atS] at present
          cases present
      | some c =>
        obtain ⟨d, atT, same⟩ := twin_lookup image atS
        simp only [atT]
        rw [releasable_alike first second atS atT same forth back]
        cases releasable ch t d now with
        | none => simp only [image]
        | some window =>
          have shares : releaseItems ch id c node.signingPubkey (releaseFrom c) (releaseThrough ch c) =
              releaseItems ch id d node.signingPubkey (releaseFrom d) (releaseThrough ch d) :=
            of_image (f := fun c => releaseItems ch id c node.signingPubkey (releaseFrom c) (releaseThrough ch c))
              (fun _ => rfl) same.symm
          have stores := marked s
          rw [image, ← marked t] at stores
          exact Prod.ext stores (by rw [shares])
  exact ⟨(Prod.ext_iff.mp answer).1, congrArg StoreReply.released (Prod.ext_iff.mp answer).2⟩

/-! ### Removal -/

theorem openDelayedSlot_alike {c d : Candidate} (image : d.hush = c.hush) (slot : c.role = .escape → SameSlot w c d)
    (reached : now ≤ w) (isOpen : openDelayedSlot c now = true) : openDelayedSlot d now = true := by
  have role : d.role = c.role := of_image (f := Candidate.role) (fun _ => rfl) image
  have settled : d.broadcast = c.broadcast := of_image (f := Candidate.broadcast) (fun _ => rfl) image
  simp only [openDelayedSlot, Bool.and_eq_true, decide_eq_true_eq] at isOpen ⊢
  obtain ⟨⟨escape, pending⟩, inside⟩ := isOpen
  refine ⟨⟨role.trans escape, by rw [settled]; exact pending⟩, ?_⟩
  rcases slot escape with same | ⟨_, window, scheduled, later⟩
  · rw [← same]
    exact inside
  · have before : now ≤ window.deadline := by omega
    simp [scheduled, before]

theorem exempt_alike (twin : Twin w s t) (reached : now ≤ w) {id : String}
    (exempt : s.delayedSlotContextExempt id now = true) : t.delayedSlotContextExempt id now = true := by
  simp only [delayedSlotContextExempt, List.any_eq_true] at exempt ⊢
  obtain ⟨c, member, holds⟩ := exempt
  obtain ⟨key, atS⟩ := mem_vals.mp member
  obtain ⟨d, atT, image⟩ := twin_lookup twin.image atS
  have named : d.commitmentId = c.commitmentId := of_image (f := Candidate.commitmentId) (fun _ => rfl) image
  have paired : d.pairedCommitmentId = c.pairedCommitmentId :=
    of_image (f := Candidate.pairedCommitmentId) (fun _ => rfl) image
  refine ⟨d, mem_vals.mpr ⟨key, atT⟩, ?_⟩
  rw [Bool.and_eq_true] at holds ⊢
  rw [named, paired]
  exact ⟨openDelayedSlot_alike image (fun escape => twin.slots key c d atS atT escape) reached holds.1, holds.2⟩

theorem exempt_eq (twin : Twin w s t) (reached : now ≤ w) (id : String) :
    s.delayedSlotContextExempt id now = t.delayedSlotContextExempt id now :=
  Bool.eq_iff_iff.mpr ⟨exempt_alike twin reached, exempt_alike twin.symm reached⟩

/-- Before `T` no fire is complete. -/
theorem fireComplete_early (held : Held now s) : s.fireComplete now = [] := by
  unfold fireComplete
  split
  next complete =>
    simp only [Bool.and_eq_true, decide_eq_true_eq] at complete
    obtain ⟨⟨armed, _⟩, closed⟩ := complete
    have before := held.early armed
    have reach : s.armed.fireAt ≤ s.armed.escapeWindow.deadline := le_satAdd held.fits
    omega
  next => rfl

theorem survivesPrune_alike (twin : Twin w s t) (first : Held now s) (second : Held now t) (reached : now ≤ w)
    {id : String} {c d : Candidate} (image : d.hush = c.hush) :
    t.survivesPrune now id d = s.survivesPrune now id c := by
  have expiry : d.expiry = c.expiry := of_image (f := Candidate.expiry) (fun _ => rfl) image
  unfold survivesPrune
  rw [fireComplete_early first, fireComplete_early second, expiry, exempt_eq twin reached]

/-- `prune` with the survivors given by their ids. -/
def pruneBy (keep : String → Bool) (s : PartialStore) : PartialStore :=
  let dropped := s.candidates.entries.filter (fun e => !keep e.1)
  let removed := (dropped.map (fun e => e.2.capacityBytes)).foldl satAdd 0
  let freed := (dropped.filter (fun e => e.2.isUnexposedHot)).map (fun e => e.1)
  { s with
    candidates := retain (fun id _ => keep id) s.candidates
    reservedBytes := s.reservedBytes - removed
    hotBudget := freed.foldl HotBudgetLedger.release s.hotBudget }

theorem prune_eq_pruneBy {keep : String → Bool}
    (same : ∀ id c, s.candidates.lookup id = some c → s.survivesPrune now id c = keep id) :
    s.prune now = pruneBy keep s := by
  have each : ∀ e ∈ s.candidates.entries, s.survivesPrune now e.1 e.2 = keep e.1 := by
    intro e member
    exact same e.1 e.2 (AList.mem_lookup_iff.mpr member)
  have dropped : s.candidates.entries.filter (fun e => !s.survivesPrune now e.1 e.2) =
      s.candidates.entries.filter (fun e => !keep e.1) := by
    apply List.filter_congr
    intro e member
    rw [each e member]
  have kept : retain (s.survivesPrune now) s.candidates = retain (fun id _ => keep id) s.candidates := by
    apply AList.ext
    apply List.filter_congr
    intro e member
    rw [each e member]
  unfold PartialStore.prune pruneBy
  simp only [dropped, kept]

theorem hush_pruneBy (keep : String → Bool) (s : PartialStore) : (pruneBy keep s).hush = pruneBy keep s.hush := by
  have kept : mapVals Candidate.hush (retain (fun id _ => keep id) s.candidates) =
      retain (fun id _ => keep id) (mapVals Candidate.hush s.candidates) := by
    apply mapVals_retain
    intro e _
    rfl
  simp only [pruneBy, PartialStore.hush, kept]
  simp only [mapVals, List.filter_map, List.map_map]
  rfl

theorem alike_pruneStore (twin : Twin w s t) (first : Held now s) (second : Held now t) (reached : now ≤ w)
    (monoNow : Nat) : Alike ch s t (.pruneStore now monoNow) (.pruneStore now monoNow) := by
  refine ⟨?_, rfl⟩
  let keep : String → Bool := fun id => (s.candidates.lookup id).any (s.survivesPrune now id)
  have here : (s.pruneCarriers monoNow).prune now = pruneBy keep (s.pruneCarriers monoNow) := by
    apply prune_eq_pruneBy
    intro id c found
    have present : s.candidates.lookup id = some c := found
    show s.survivesPrune now id c = (s.candidates.lookup id).any (s.survivesPrune now id)
    rw [present]
    rfl
  have there : (t.pruneCarriers monoNow).prune now = pruneBy keep (t.pruneCarriers monoNow) := by
    apply prune_eq_pruneBy
    intro id d found
    obtain ⟨c, present, image⟩ := twin_lookup twin.image.symm (found : t.candidates.lookup id = some d)
    show t.survivesPrune now id d = (s.candidates.lookup id).any (s.survivesPrune now id)
    rw [present]
    exact survivesPrune_alike twin first second reached image.symm
  show ((s.pruneCarriers monoNow).prune now).hush = ((t.pruneCarriers monoNow).prune now).hush
  rw [here, there, hush_pruneBy, hush_pruneBy, hush_pruneCarriers, hush_pruneCarriers, twin.image]

theorem alike_acceptPartial (twin : Twin w s t) (reached : now ≤ w) (p : ParsedPartial) :
    Alike ch s t (.acceptPartial p now) (.acceptPartial p now) := by
  have answer : ((acceptPartial ch.lib s p ch.nodes now).1.hush, (acceptPartial ch.lib s p ch.nodes now).2) =
      ((acceptPartial ch.lib t p ch.nodes now).1.hush, (acceptPartial ch.lib t p ch.nodes now).2) := by
    unfold acceptPartial
    rw [exempt_eq twin reached]
    cases atS : s.candidates.lookup p.commitmentId with
    | none =>
      cases atT : t.candidates.lookup p.commitmentId with
      | none => simp only [twin.image]
      | some d =>
        obtain ⟨c, present, _⟩ := twin_lookup twin.image.symm atT
        rw [atS] at present
        cases present
    | some c =>
      obtain ⟨d, atT, image⟩ := twin_lookup twin.image atS
      have expiry : d.expiry = c.expiry := of_image (f := Candidate.expiry) (fun _ => rfl) image
      have verdict : checkPartial ch.lib d p ch.nodes = checkPartial ch.lib c p ch.nodes :=
        of_image (f := fun c => checkPartial ch.lib c p ch.nodes) (fun _ => rfl) image
      simp only [atT, expiry, verdict]
      split_ifs
      · simp only [hush_evict, twin.image]
      · cases checkPartial ch.lib c p ch.nodes with
        | error reason => simp only [twin.image]
        | ok checked =>
          obtain ⟨rung, variant, expected, sig⟩ := checked
          simp only
          split_ifs
          · simp only [twin.image]
          · have imported : ∀ r : PartialStore,
                (r.updateCandidate p.commitmentId
                  (fun c => importPartial ch.lib c p rung variant expected sig)).hush =
                r.hush.updateCandidate p.commitmentId
                  (fun c => importPartial ch.lib c p rung variant expected sig) := by
              intro r
              apply hush_updateCandidate
              intro c
              cases rung <;> rfl
            simp only [imported, twin.image]
  exact ⟨(Prod.ext_iff.mp answer).1, congrArg StoreReply.channel (Prod.ext_iff.mp answer).2⟩

/-- Only both stores, or neither, retire a resident escape as their live sweep. -/
def SentAlike (s t : PartialStore) (id : String) : Prop :=
  s.candidates.lookup id = none ∨ s.isArmedEscape id = t.isArmedEscape id

theorem markBroadcast_absent {id : String} (absent : s.candidates.lookup id = none) :
    s.markBroadcast id = s.invalidateHotConflicts id := by
  have gone : (s.invalidateHotConflicts id).1.candidates.lookup id = none := by
    by_contra present
    obtain ⟨later, found⟩ := Option.ne_none_iff_exists'.mp present
    obtain ⟨c, earlier, _⟩ := kept_invalidateHotConflicts s id id later found
    rw [absent] at earlier
    cases earlier
  unfold markBroadcast
  simp only [gone, Option.map_none, Option.toList_none, List.nil_append, List.foldl_cons, List.foldl_nil]
  split_ifs
  · simp only [evict, gone]
  · simp only [setBroadcast, updateCandidate, adjust_absent gone]

theorem alike_markBroadcast (image : s.hush = t.hush) (id : String) (sent : SentAlike s t id) :
    Alike ch s t (.markBroadcast id) (.markBroadcast id) := by
  have conflicts : ((s.invalidateHotConflicts id).1.hush, (s.invalidateHotConflicts id).2) =
      ((t.invalidateHotConflicts id).1.hush, (t.invalidateHotConflicts id).2) := by
    rw [← hush_invalidateHotConflicts, ← hush_invalidateHotConflicts, image]
  have stores : (s.invalidateHotConflicts id).1.hush = (t.invalidateHotConflicts id).1.hush :=
    (Prod.ext_iff.mp conflicts).1
  have ids : (s.invalidateHotConflicts id).2 = (t.invalidateHotConflicts id).2 := (Prod.ext_iff.mp conflicts).2
  have answer : ((s.markBroadcast id).1.hush, (s.markBroadcast id).2) =
      ((t.markBroadcast id).1.hush, (t.markBroadcast id).2) := by
    rcases sent with absent | same
    · have gone : t.candidates.lookup id = none := by
        by_contra present
        obtain ⟨d, found⟩ := Option.ne_none_iff_exists'.mp present
        obtain ⟨c, atS, _⟩ := twin_lookup image.symm found
        rw [absent] at atS
        cases atS
      rw [markBroadcast_absent absent, markBroadcast_absent gone]
      exact conflicts
    · have flag : ∀ r : PartialStore, (r.invalidateHotConflicts id).1.isArmedEscape id = r.isArmedEscape id := by
        intro r
        have armed : (r.invalidateHotConflicts id).1.armed = r.armed :=
          (SameSafety.foldl sameSafety_terminalize _ r).armed
        simp only [isArmedEscape, armed]
      have pair : (((s.invalidateHotConflicts id).1.candidates.lookup id).map Candidate.pairedCommitmentId) =
          (((t.invalidateHotConflicts id).1.candidates.lookup id).map Candidate.pairedCommitmentId) := by
        have lookups := congrArg (fun r => (r.candidates.lookup id).map Candidate.pairedCommitmentId) stores
        simp only [hush_lookup, Option.map_map] at lookups
        exact lookups
      unfold markBroadcast
      simp only [flag, same, pair, ids]
      split_ifs
      · simp only [hush_foldl hush_evict, stores]
      · simp only [hush_setBroadcast, stores]
  exact ⟨(Prod.ext_iff.mp answer).1, congrArg StoreReply.ids (Prod.ext_iff.mp answer).2⟩

end Watchful

end BtcPolicy.Channel
