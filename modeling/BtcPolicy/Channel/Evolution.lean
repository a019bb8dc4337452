import BtcPolicy.Channel.Machine

/-! What one operation can do to a resident candidate and to the safety overlay. Every elementary write is
related to the store before it once; the operations compose them. -/

namespace BtcPolicy.Channel
open FiniteMap Word Bitcoin HotLedger Runs PartialStore

/-! ### Resident candidates -/

/-- `later` is what `earlier` can have become while it stayed resident. -/
structure Candidate.Later (earlier later : Candidate) : Prop where
  commitmentId : later.commitmentId = earlier.commitmentId
  role : later.role = earlier.role
  hot : later.hot = earlier.hot
  pairedCommitmentId : later.pairedCommitmentId = earlier.pairedCommitmentId
  expiry : later.expiry = earlier.expiry
  ladder : later.bumps.length = earlier.bumps.length
  capacityBytes : later.capacityBytes = earlier.capacityBytes
  hold : earlier.role = .spend → later.fire = earlier.fire
  holderQuorumReached : earlier.holderQuorumReached = true → later.holderQuorumReached = true
  rung : earlier.rung ≤ later.rung
  released : earlier.released = true → later.released = true
  releasedThrough : ∀ through, earlier.releasedThrough = some through →
    ∃ further, later.releasedThrough = some further ∧ through ≤ further
  broadcast : earlier.broadcast = true → later.broadcast = true

theorem Candidate.Later.refl (c : Candidate) : c.Later c :=
  ⟨rfl, rfl, rfl, rfl, rfl, rfl, rfl, fun _ => rfl, id, le_rfl, id, fun through same => ⟨through, same, le_rfl⟩,
    id⟩

theorem Candidate.Later.trans {a b c : Candidate} (first : a.Later b) (second : b.Later c) : a.Later c := by
  refine ⟨second.commitmentId.trans first.commitmentId, second.role.trans first.role,
    second.hot.trans first.hot, second.pairedCommitmentId.trans first.pairedCommitmentId,
    second.expiry.trans first.expiry, second.ladder.trans first.ladder,
    second.capacityBytes.trans first.capacityBytes, ?_,
    fun holds => second.holderQuorumReached (first.holderQuorumReached holds),
    first.rung.trans second.rung, fun holds => second.released (first.released holds), ?_,
    fun holds => second.broadcast (first.broadcast holds)⟩
  · intro spend
    exact (second.hold (first.role.trans spend)).trans (first.hold spend)
  · intro through same
    obtain ⟨middle, atMiddle, bound⟩ := first.releasedThrough through same
    obtain ⟨last, atLast, further⟩ := second.releasedThrough middle atMiddle
    exact ⟨last, atLast, bound.trans further⟩

/-- The exposure flags only rise, so a candidate that is not broadcast never was. -/
theorem Candidate.Later.unsettled {earlier later : Candidate} (evolved : earlier.Later later)
    (unsettled : later.broadcast = false) : earlier.broadcast = false := by
  by_contra set
  have still := evolved.broadcast (by simpa using set)
  rw [unsettled] at still
  cases still

theorem Candidate.Later.withheld {earlier later : Candidate} (evolved : earlier.Later later)
    (withheld : later.released = false) : earlier.released = false := by
  by_contra set
  have still := evolved.released (by simpa using set)
  rw [withheld] at still
  cases still

/-- `later` has evolved from `earlier` without its holder gate being touched. -/
structure Candidate.Steady (earlier later : Candidate) : Prop extends Candidate.Later earlier later where
  gate : later.holderQuorumReached = earlier.holderQuorumReached

theorem Candidate.Steady.refl (c : Candidate) : c.Steady c := ⟨Candidate.Later.refl c, rfl⟩

theorem Candidate.Steady.trans {a b c : Candidate} (first : a.Steady b) (second : b.Steady c) : a.Steady c :=
  ⟨first.toLater.trans second.toLater, second.gate.trans first.gate⟩

/-- Whatever is resident in `after` was resident in `before`, and has evolved from it. -/
def Kept (before after : PartialStore) : Prop :=
  ∀ id later, after.candidates.lookup id = some later →
    ∃ earlier, before.candidates.lookup id = some earlier ∧ earlier.Steady later

theorem Kept.of_same {before after : PartialStore} (same : after.candidates = before.candidates) :
    Kept before after := by
  intro id later found
  exact ⟨later, same ▸ found, Candidate.Steady.refl later⟩

theorem Kept.trans {a b c : PartialStore} (first : Kept a b) (second : Kept b c) : Kept a c := by
  intro id last found
  obtain ⟨middle, atMiddle, later⟩ := second id last found
  obtain ⟨earlier, atEarlier, before⟩ := first id middle atMiddle
  exact ⟨earlier, atEarlier, before.trans later⟩

theorem Kept.foldl {ι : Type} {write : PartialStore → ι → PartialStore}
    (each : ∀ s i, Kept s (write s i)) (items : List ι) (s : PartialStore) :
    Kept s (items.foldl write s) := by
  induction items generalizing s with
  | nil => exact Kept.of_same rfl
  | cons i rest ih => exact (each s i).trans (ih (write s i))

theorem kept_updateCandidate {s : PartialStore} {id : String} {f : Candidate → Candidate}
    (later : ∀ c, s.candidates.lookup id = some c → c.Steady (f c)) : Kept s (s.updateCandidate id f) := by
  intro other c found
  by_cases same : other = id
  · subst same
    rw [updateCandidate, lookup_adjust_self] at found
    obtain ⟨earlier, atEarlier, becomes⟩ := Option.map_eq_some_iff.mp found
    exact ⟨earlier, atEarlier, becomes ▸ later earlier atEarlier⟩
  · rw [updateCandidate, lookup_adjust_ne same] at found
    exact ⟨c, found, Candidate.Steady.refl c⟩

theorem steady_reschedule (window : FireWindow) (c : Candidate) : c.Steady (reschedule window c) := by
  unfold reschedule
  split
  next escape =>
    refine { Candidate.Steady.refl c with hold := ?_ }
    intro spend
    rw [escape] at spend
    cases spend
  next => exact Candidate.Steady.refl c

theorem kept_refreshEscapeWindow (id : String) (s : PartialStore) : Kept s (s.refreshEscapeWindow id) := by
  unfold refreshEscapeWindow
  split
  · exact Kept.of_same rfl
  · exact kept_updateCandidate (fun c _ => steady_reschedule _ c)

theorem kept_setBroadcast (id : String) (s : PartialStore) : Kept s (s.setBroadcast id) :=
  kept_updateCandidate (fun c _ => { Candidate.Steady.refl c with broadcast := fun _ => rfl })

theorem kept_terminalize (s : PartialStore) (id : String) : Kept s (s.terminalize id) := by
  unfold terminalize
  split
  · intro other later found
    exact kept_setBroadcast id s other later found
  · exact Kept.of_same rfl

theorem kept_evict (s : PartialStore) (id : String) : Kept s (s.evict id) := by
  unfold evict
  split
  · intro other later found
    simp only [lookup_erase_eq] at found
    split at found
    · cases found
    · exact ⟨later, found, Candidate.Steady.refl later⟩
  · exact Kept.of_same rfl

theorem kept_prune (s : PartialStore) (now : Nat) : Kept s (s.prune now) := by
  intro id later found
  exact ⟨later, (lookup_retain_some.mp found).1, Candidate.Steady.refl later⟩

theorem kept_invalidateHotConflicts (s : PartialStore) (id : String) :
    Kept s (s.invalidateHotConflicts id).1 :=
  Kept.foldl kept_terminalize _ s

theorem kept_markBroadcast (s : PartialStore) (id : String) : Kept s (s.markBroadcast id).1 := by
  unfold markBroadcast
  simp only
  split
  · exact (kept_invalidateHotConflicts s id).trans (Kept.foldl kept_evict _ _)
  · exact (kept_invalidateHotConflicts s id).trans (kept_setBroadcast id _)

theorem steady_importPartial (lib : Library) (c : Candidate) (p : ParsedPartial) (rung : Nat)
    (variant : SigningVariant) (expected : PublicKey) (sig : Bytes) :
    c.Steady (importPartial lib c p rung variant expected sig) := by
  unfold importPartial
  simp only
  cases rung with
  | zero => exact { Candidate.Steady.refl c with }
  | succ bump => exact { Candidate.Steady.refl c with ladder := List.length_set }

theorem kept_acceptPartial (lib : Library) (s : PartialStore) (p : ParsedPartial)
    (nodes : List ManifestNode) (now : Nat) : Kept s (acceptPartial lib s p nodes now).1 := by
  unfold acceptPartial
  split
  · exact Kept.of_same rfl
  · split
    · exact kept_evict s _
    · split
      · exact Kept.of_same rfl
      · split
        · exact Kept.of_same rfl
        · exact kept_updateCandidate (fun c _ => steady_importPartial lib c p _ _ _ _)

theorem steady_latchRung (rung lowest : Nat) (c : Candidate) : c.Steady (latchRung rung lowest c) := by
  refine { Candidate.Steady.refl c with rung := ?_ }
  show c.rung ≤ if c.rung < min rung c.bumps.length then min rung c.bumps.length else c.rung
  split <;> omega

/-- The gate, opened. -/
structure Released (ch : ChannelState) (s : PartialStore) (c : Candidate) (now : Nat) (window : FireWindow) :
    Prop where
  slot : s.slotActive c = true
  unfrozen : s.frozen c = false
  scheduled : c.fire = some window
  inside : window.isOpen now = true
  rungs : releaseFrom c ≤ releaseThrough ch c

theorem releasable_some {ch : ChannelState} {s : PartialStore} {c : Candidate} {now : Nat}
    {window : FireWindow} : releasable ch s c now = some window ↔ Released ch s c now window := by
  constructor
  · intro passed
    unfold releasable at passed
    cases scheduled : c.fire with
    | none => simp [scheduled] at passed
    | some own =>
      simp only [scheduled] at passed
      split_ifs at passed with closed suppressed shut spent
      cases passed
      exact ⟨by simpa using closed, by simpa [frozen] using suppressed, scheduled, by simpa using shut,
        Nat.le_of_not_lt spent⟩
  · rintro ⟨slot, unfrozen, scheduled, inside, rungs⟩
    have gate : (s.armed.active && c.hot) = false := unfrozen
    simp [releasable, slot, gate, scheduled, inside, Nat.not_lt.mpr rungs]

/-- The mark a release leaves on its candidate. -/
def markReleased (ch : ChannelState) (c : Candidate) : Candidate :=
  { c with released := true, releasedThrough := some (releaseThrough ch c) }

theorem releasePartials_cases (ch : ChannelState) (s : PartialStore) (id : String) (now : Nat) :
    s.releasePartials ch id now = (s, none) ∨
      ∃ node c window, ch.nodes[ch.nodeId]? = some node ∧ s.candidates.lookup id = some c ∧
        Released ch s c now window ∧
        s.releasePartials ch id now = (s.updateCandidate id (markReleased ch),
          some ⟨releaseItems ch id c node.signingPubkey (releaseFrom c) (releaseThrough ch c),
            window.deadline⟩) := by
  unfold releasePartials
  cases self : ch.nodes[ch.nodeId]? with
  | none => exact Or.inl rfl
  | some node =>
    cases found : s.candidates.lookup id with
    | none => exact Or.inl rfl
    | some c =>
      cases passed : releasable ch s c now with
      | none => simp [passed]
      | some window =>
        refine Or.inr ⟨node, c, window, rfl, rfl, releasable_some.mp passed, ?_⟩
        simp only [passed]
        rfl

theorem steady_markReleased {ch : ChannelState} {c : Candidate} (rungs : releaseFrom c ≤ releaseThrough ch c) :
    c.Steady (markReleased ch c) := by
  refine { Candidate.Steady.refl c with released := fun _ => rfl, releasedThrough := ?_ }
  intro through same
  refine ⟨releaseThrough ch c, rfl, ?_⟩
  have next : firstUnreleased c = through + 1 := by simp [firstUnreleased, same]
  have bound : firstUnreleased c ≤ releaseFrom c := le_max_left _ _
  omega

theorem kept_releasePartials (ch : ChannelState) (s : PartialStore) (id : String) (now : Nat) :
    Kept s (s.releasePartials ch id now).1 := by
  obtain same | ⟨node, c, window, _, found, gate, same⟩ := releasePartials_cases ch s id now
  · rw [same]
    exact Kept.of_same rfl
  · rw [same]
    apply kept_updateCandidate
    intro resident atId
    rw [found] at atId
    cases atId
    exact steady_markReleased gate.rungs

theorem kept_applyArmDirective (arm : ArmDirective) (holds : List Nat) (s : PartialStore) :
    Kept s (s.applyArmDirective arm holds) := by
  unfold applyArmDirective
  simp only
  refine Kept.trans ?_ (kept_refreshEscapeWindow _ _)
  refine Kept.trans ?_ (kept_refreshEscapeWindow _ _)
  exact Kept.of_same rfl

/-- As `Kept`, except that the holder gates of `ids` may have been opened. -/
def KeptOpening (ids : List String) (before after : PartialStore) : Prop :=
  ∀ id later, after.candidates.lookup id = some later →
    ∃ earlier, before.candidates.lookup id = some earlier ∧ earlier.Later later ∧
      (later.holderQuorumReached = earlier.holderQuorumReached ∨ id ∈ ids)

theorem Kept.opening {before after : PartialStore} (kept : Kept before after) (ids : List String) :
    KeptOpening ids before after := by
  intro id later found
  obtain ⟨earlier, present, steady⟩ := kept id later found
  exact ⟨earlier, present, steady.toLater, Or.inl steady.gate⟩

theorem KeptOpening.trans {ids : List String} {a b c : PartialStore} (first : KeptOpening ids a b)
    (second : KeptOpening ids b c) : KeptOpening ids a c := by
  intro id last found
  obtain ⟨middle, atMiddle, later, gate⟩ := second id last found
  obtain ⟨earlier, atEarlier, before, gate'⟩ := first id middle atMiddle
  refine ⟨earlier, atEarlier, before.trans later, ?_⟩
  rcases gate with same | named
  · exact gate'.imp_left same.trans
  · exact Or.inr named

theorem opening_openGate {ids : List String} {target : String} (named : target ∈ ids) (s : PartialStore) :
    KeptOpening ids s (s.openGate target) := by
  intro id later found
  obtain ⟨old, present, same | ⟨here, rewritten⟩⟩ := lookup_adjust_some found
  · exact ⟨old, present, same ▸ Candidate.Later.refl old, Or.inl (congrArg _ same)⟩
  · refine ⟨old, present, ?_, Or.inr (here ▸ named)⟩
    rw [rewritten]
    exact { Candidate.Later.refl old with holderQuorumReached := fun _ => rfl }

theorem opening_confirmWrites (carrier : String) (intent : ArmIntent) (now : Nat) (timing : DuressTiming) :
    ∀ write ∈ confirmWrites carrier intent now timing, ∀ s,
      KeptOpening [intent.spendCommitmentId, intent.escapeCommitmentId] s (write s) := by
  have ofSame : ∀ {before after : PartialStore}, after.candidates = before.candidates →
      KeptOpening [intent.spendCommitmentId, intent.escapeCommitmentId] before after :=
    fun same => (Kept.of_same same).opening _
  intro write member s
  simp only [confirmWrites, List.mem_cons, List.not_mem_nil, or_false] at member
  rcases member with rfl | rfl | rfl | rfl | rfl | rfl | rfl | rfl
  · exact ofSame rfl
  · exact ofSame rfl
  · exact opening_openGate (by simp) s
  · exact opening_openGate (by simp) s
  · exact ofSame rfl
  · exact (kept_refreshEscapeWindow _ s).opening _
  · exact (kept_refreshEscapeWindow _ s).opening _
  · exact ofSame rfl

theorem opening_applyWrites {ids : List String} {writes : List (PartialStore → PartialStore)}
    (each : ∀ write ∈ writes, ∀ s, KeptOpening ids s (write s)) (s : PartialStore) :
    KeptOpening ids s (applyWrites writes s) := by
  induction writes generalizing s with
  | nil => exact (Kept.of_same rfl).opening ids
  | cons write rest ih =>
    exact (each write List.mem_cons_self s).trans
      (ih (fun other member => each other (List.mem_cons_of_mem _ member)) (write s))

/-- The receipt that crosses the threshold: what the store checked about its intent. -/
structure Crossing (s : PartialStore) (sender : Nat) (carrier : String) (threshold now monoNow : Nat)
    (intent : ArmIntent) : Prop where
  found : s.intents.lookup carrier = some intent
  ready : intent.readyToPropagate = true
  pending : intent.committed = false
  new : sender ∉ intent.holders
  deadline : monoNow < intent.deadline
  expiry : now < intent.expiry
  holders : threshold ≤ (insert sender intent.holders).card

theorem confirmCarrier_cases (s : PartialStore) (sender : Nat) (carrier : String) (threshold now : Nat)
    (timing : DuressTiming) (monoNow : Nat) :
    (s.confirmCarrier sender carrier threshold now timing monoNow).2.committed = false ∧
        ((s.confirmCarrier sender carrier threshold now timing monoNow).1 = s ∨
          (s.confirmCarrier sender carrier threshold now timing monoNow).1 = s.addHolder sender carrier) ∨
      ∃ intent, Crossing s sender carrier threshold now monoNow intent ∧
        s.confirmCarrier sender carrier threshold now timing monoNow =
          (applyWrites (confirmWrites carrier intent now timing) (s.addHolder sender carrier),
            ⟨true, intent.duress, false⟩) := by
  unfold confirmCarrier
  cases found : s.intents.lookup carrier with
  | none => exact Or.inl ⟨rfl, Or.inl rfl⟩
  | some intent =>
    simp only
    split_ifs with closed lapsed expired short
    · exact Or.inl ⟨rfl, Or.inl rfl⟩
    · exact Or.inl ⟨rfl, Or.inl rfl⟩
    · exact Or.inl ⟨rfl, Or.inl rfl⟩
    · exact Or.inl ⟨rfl, Or.inr rfl⟩
    · push Not at closed
      refine Or.inr ⟨intent, ⟨found, ?_, ?_, closed.2.2, Nat.lt_of_not_le lapsed, Nat.lt_of_not_le expired,
        Nat.le_of_not_lt short⟩, rfl⟩
      · simpa using closed.1
      · simpa using closed.2.1

theorem confirmCarrier_crossing {s : PartialStore} {sender : Nat} {carrier : String}
    {threshold now monoNow : Nat} {intent : ArmIntent}
    (crossing : Crossing s sender carrier threshold now monoNow intent) (timing : DuressTiming) :
    s.confirmCarrier sender carrier threshold now timing monoNow =
      (applyWrites (confirmWrites carrier intent now timing) (s.addHolder sender carrier),
        ⟨true, intent.duress, false⟩) := by
  have unlapsed : ¬intent.deadline ≤ monoNow := Nat.not_le.mpr crossing.deadline
  have unexpired : ¬intent.expiry ≤ now := Nat.not_le.mpr crossing.expiry
  have enough : ¬(insert sender intent.holders).card < threshold := Nat.not_lt.mpr crossing.holders
  simp only [confirmCarrier, crossing.found, crossing.ready, crossing.pending, crossing.new, unlapsed,
    unexpired, enough, Bool.true_eq_false, Bool.false_eq_true, or_self, if_false]

/-- `op` is the receipt that commits an intent naming `id`. -/
def Confirms (id : String) (s : PartialStore) (op : StoreOp) : Prop :=
  ∃ sender carrier threshold now timing monoNow intent,
    op = .confirmCarrier sender carrier threshold now timing monoNow ∧
      Crossing s sender carrier threshold now monoNow intent ∧
      id ∈ [intent.spendCommitmentId, intent.escapeCommitmentId]

theorem confirmCarrier_lookup {s : PartialStore} {sender : Nat} {carrier : String} {threshold now : Nat}
    {timing : DuressTiming} {monoNow : Nat} {id : String} {later : Candidate}
    (found : (s.confirmCarrier sender carrier threshold now timing monoNow).1.candidates.lookup id = some later) :
    ∃ earlier, s.candidates.lookup id = some earlier ∧ earlier.Later later ∧
      (later.holderQuorumReached = earlier.holderQuorumReached ∨
        Confirms id s (.confirmCarrier sender carrier threshold now timing monoNow)) := by
  obtain ⟨_, same | same⟩ | ⟨intent, crossing, same⟩ :=
    confirmCarrier_cases s sender carrier threshold now timing monoNow
  · rw [same] at found
    exact ⟨later, found, Candidate.Later.refl later, Or.inl rfl⟩
  · rw [same] at found
    exact ⟨later, found, Candidate.Later.refl later, Or.inl rfl⟩
  · rw [same] at found
    obtain ⟨earlier, present, evolved, gate⟩ :=
      opening_applyWrites (opening_confirmWrites carrier intent now timing) _ id later found
    refine ⟨earlier, present, evolved, gate.imp_right ?_⟩
    intro named
    exact ⟨sender, carrier, threshold, now, timing, monoNow, intent, rfl, crossing, named⟩

/-! ### Registration -/

/-- `c` is as `Candidate::build` made it from `spec`, its capacity charge and its delayed window aside. -/
structure Candidate.Fresh (spec : CandidateSpec) (c : Candidate) : Prop where
  commitmentId : c.commitmentId = spec.commitmentId
  role : c.role = spec.role
  hot : c.hot = spec.hot
  pairedCommitmentId : c.pairedCommitmentId = spec.pairedCommitmentId
  expiry : c.expiry = spec.expiry
  holderQuorumReached : c.holderQuorumReached = spec.holderQuorumReached
  hold : spec.role = .spend → c.fire = spec.fire
  rung : c.rung = 0
  releaseFloor : c.releaseFloor = 0
  released : c.released = false
  releasedThrough : c.releasedThrough = none
  broadcast : c.broadcast = false

theorem build_fresh {lib : Library} {spec : CandidateSpec} {keys : CandidateKeys} {c : Candidate}
    (built : Candidate.build lib spec keys = .ok c) : c.Fresh spec ∧ c.fire = spec.fire := by
  unfold Candidate.build at built
  cases base : SigningVariant.build lib spec.psbt keys with
  | error e => simp [base, bind, Except.bind] at built
  | ok variant =>
    cases bumps : spec.escapeBumps.mapM (fun bump => SigningVariant.build lib bump keys) with
    | error e => simp [base, bumps, bind, Except.bind] at built
    | ok ladder =>
      simp only [base, bumps, bind, Except.bind, pure, Except.pure, Except.ok.injEq] at built
      subst built
      exact ⟨⟨rfl, rfl, rfl, rfl, rfl, rfl, fun _ => rfl, rfl, rfl, rfl, rfl, rfl⟩, rfl⟩

theorem buildAll_cons {lib : Library} {request : CandidateRequest} {rest : List CandidateRequest}
    {candidates : List Candidate} (built : buildAll lib (request :: rest) = .ok candidates) :
    ∃ c tail, candidates = c :: tail ∧ Candidate.build lib request.spec request.keys = .ok c ∧
      buildAll lib rest = .ok tail := by
  unfold buildAll at built
  rw [List.mapM_cons] at built
  cases first : Candidate.build lib request.spec request.keys with
  | error e => simp [first, bind, Except.bind] at built
  | ok c =>
    cases others : rest.mapM (fun request => Candidate.build lib request.spec request.keys) with
    | error e => simp [first, others, bind, Except.bind] at built
    | ok tail =>
      simp only [first, others, bind, Except.bind, pure, Except.pure, Except.ok.injEq] at built
      exact ⟨c, tail, built.symm, rfl, others⟩

/-- Building keeps the requests and the candidates in step. -/
theorem buildAll_forall₂ {lib : Library} {requests : List CandidateRequest} {candidates : List Candidate}
    (built : buildAll lib requests = .ok candidates) :
    List.Forall₂ (fun request c => Candidate.Fresh request.spec c ∧ c.fire = request.spec.fire)
      requests candidates := by
  induction requests generalizing candidates with
  | nil =>
    simp only [buildAll, List.mapM_nil, pure, Except.pure, Except.ok.injEq] at built
    subst built
    exact List.Forall₂.nil
  | cons request rest ih =>
    obtain ⟨c, tail, rfl, first, others⟩ := buildAll_cons built
    exact List.Forall₂.cons (build_fresh first) (ih others)

theorem buildAll_fresh {lib : Library} {requests : List CandidateRequest} {candidates : List Candidate}
    (built : buildAll lib requests = .ok candidates) :
    ∀ c ∈ candidates, ∃ request ∈ requests, c.Fresh request.spec := by
  intro c member
  obtain ⟨index, bound, rfl⟩ := List.mem_iff_getElem.mp member
  obtain ⟨lengths, related⟩ := List.forall₂_iff_get.mp (buildAll_forall₂ built)
  have inside : index < requests.length := lengths ▸ bound
  exact ⟨requests[index], List.getElem_mem inside, (related index inside bound).1⟩

theorem buildAll_built {lib : Library} {requests : List CandidateRequest} {candidates : List Candidate}
    (built : buildAll lib requests = .ok candidates) :
    ∀ request ∈ requests, ∃ c ∈ candidates, c.Fresh request.spec ∧ c.fire = request.spec.fire := by
  intro request member
  obtain ⟨index, bound, rfl⟩ := List.mem_iff_getElem.mp member
  obtain ⟨lengths, related⟩ := List.forall₂_iff_get.mp (buildAll_forall₂ built)
  have inside : index < candidates.length := lengths ▸ bound
  exact ⟨candidates[index], List.getElem_mem inside, related index bound inside⟩

theorem register_lookup {s : PartialStore} {c found : Candidate} {id : String}
    (at' : (s.register c).1.candidates.lookup id = some found) :
    s.candidates.lookup id = some found ∨ s.candidates.lookup id = none ∧ found = c ∧ c.commitmentId = id := by
  unfold register at at'
  cases resident : s.candidates.lookup c.commitmentId with
  | some other =>
    simp only [resident] at at'
    split_ifs at at' <;> exact Or.inl at'
  | none =>
    simp only [resident] at at'
    split_ifs at at' with full
    · exact Or.inl at'
    · simp only [lookup_insert_eq] at at'
      split_ifs at at' with same
      · exact Or.inr ⟨same ▸ resident, (Option.some.inj at').symm, same.symm⟩
      · exact Or.inl at'

theorem registerAll_lookup {candidates : List Candidate} {s : PartialStore} {found : Candidate} {id : String}
    (at' : (s.registerAll candidates).1.candidates.lookup id = some found) :
    s.candidates.lookup id = some found ∨
      s.candidates.lookup id = none ∧ found ∈ candidates ∧ found.commitmentId = id := by
  induction candidates generalizing s with
  | nil => exact Or.inl at'
  | cons c rest ih =>
    rcases ih at' with before | ⟨absent, member, same⟩
    · rcases register_lookup before with old | ⟨missing, new, named⟩
      · exact Or.inl old
      · exact Or.inr ⟨missing, new ▸ List.mem_cons_self, new ▸ named⟩
    · refine Or.inr ⟨?_, List.mem_cons_of_mem _ member, same⟩
      by_contra present
      obtain ⟨old, here⟩ := Option.ne_none_iff_exists'.mp present
      have kept : (s.register c).1.candidates.lookup id = some old := by
        unfold register
        split
        · split_ifs <;> exact here
        · split_ifs
          · exact here
          · simp only [lookup_insert_eq]
            split_ifs with same'
            · rename_i resident _
              rw [← same', here] at resident
              cases resident
            · exact here
      rw [kept] at absent
      cases absent

/-- The capacity reserve changes the charge and nothing else. -/
theorem fresh_reservePartialCapacity {spec : CandidateSpec} {c : Candidate} (fresh : c.Fresh spec)
    (nodes : List ManifestNode) (self : Nat) : (c.reservePartialCapacity nodes self).Fresh spec :=
  { fresh with }

theorem fresh_reschedule {spec : CandidateSpec} {c : Candidate} (fresh : c.Fresh spec)
    (window : FireWindow) : (reschedule window c).Fresh spec := by
  unfold reschedule
  split
  next escape =>
    refine { fresh with hold := ?_ }
    intro spend
    rw [← fresh.role, escape] at spend
    cases spend
  next => exact fresh

/-- A delayed-window write reschedules what it finds; it neither adds nor removes. -/
theorem refreshEscapeWindow_lookup {s : PartialStore} {target id : String} {later : Candidate}
    (found : (s.refreshEscapeWindow target).candidates.lookup id = some later) :
    ∃ earlier, s.candidates.lookup id = some earlier ∧
      (later = earlier ∨ later = reschedule s.armed.escapeWindow earlier) := by
  unfold refreshEscapeWindow at found
  split_ifs at found with empty
  · exact ⟨later, found, Or.inl rfl⟩
  · obtain ⟨old, present, kept | ⟨_, rewritten⟩⟩ := lookup_adjust_some found
    · exact ⟨old, present, Or.inl kept⟩
    · exact ⟨old, present, Or.inr rewritten⟩

theorem applyArmDirective_lookup {s : PartialStore} {arm : ArmDirective} {holds : List Nat} {id : String}
    {later : Candidate} (found : (s.applyArmDirective arm holds).candidates.lookup id = some later) :
    ∃ earlier, s.candidates.lookup id = some earlier ∧
      ∀ spec, earlier.Fresh spec → later.Fresh spec := by
  obtain ⟨middle, atMiddle, second⟩ := refreshEscapeWindow_lookup found
  obtain ⟨earlier, atEarlier, first⟩ := refreshEscapeWindow_lookup atMiddle
  refine ⟨earlier, atEarlier, ?_⟩
  intro spec fresh
  have between : middle.Fresh spec := by
    rcases first with same | moved
    · exact same ▸ fresh
    · exact moved ▸ fresh_reschedule fresh _
  rcases second with same | moved
  · exact same ▸ between
  · exact moved ▸ fresh_reschedule between _

/-- What `register_candidates` can do: refuse and leave the candidates alone, or enroll the whole request
on top of the revalidated ledger. -/
theorem registerCandidates_cases (ch : ChannelState) (s : PartialStore) (candidates : List Candidate)
    (arm : ArmDirective) (hotReserve : Option HotReserveSpec) (monoNow : Nat) :
    (∃ refusal, (s.revalidate hotReserve monoNow).2 = .error refusal ∧
        registerCandidates ch s candidates arm hotReserve monoNow =
          ((s.revalidate hotReserve monoNow).1, .error refusal)) ∨
      (∃ created outcomes, (s.revalidate hotReserve monoNow).2 = .ok created ∧
        registerCandidates ch s candidates arm hotReserve monoNow =
          ((s.revalidate hotReserve monoNow).1.unwindReserve created hotReserve, .ok outcomes)) ∨
      (∃ created, (s.revalidate hotReserve monoNow).2 = .ok created ∧
        registerCandidates ch s candidates arm hotReserve monoNow =
          (((s.revalidate hotReserve monoNow).1.enroll arm
              (candidates.map (fun c => c.reservePartialCapacity ch.nodes ch.nodeId))).1,
            .ok ((s.revalidate hotReserve monoNow).1.enroll arm
              (candidates.map (fun c => c.reservePartialCapacity ch.nodes ch.nodeId))).2)) := by
  unfold registerCandidates
  simp only
  cases answer : s.revalidate hotReserve monoNow with
  | mk revalidated verdict =>
    cases verdict with
    | error refusal => exact Or.inl ⟨refusal, rfl, rfl⟩
    | ok created =>
      simp only
      split_ifs
      · exact Or.inr (Or.inl ⟨created, _, rfl, rfl⟩)
      · exact Or.inr (Or.inl ⟨created, _, rfl, rfl⟩)
      · exact Or.inr (Or.inr ⟨created, rfl, rfl⟩)

theorem revalidate_candidates (s : PartialStore) (hotReserve : Option HotReserveSpec) (monoNow : Nat) :
    (s.revalidate hotReserve monoNow).1.candidates = s.candidates := by
  cases hotReserve <;> rfl

theorem unwindReserve_candidates (created : Bool) (hotReserve : Option HotReserveSpec) (s : PartialStore) :
    (s.unwindReserve created hotReserve).candidates = s.candidates := by
  unfold unwindReserve
  split
  · split_ifs <;> rfl
  · rfl

/-- A registration leaves each resident candidate in place, and adds only fresh ones of its request. -/
theorem registerCandidates_lookup {ch : ChannelState} {s : PartialStore} {requests : List CandidateRequest}
    {candidates : List Candidate} {arm : ArmDirective} {hotReserve : Option HotReserveSpec} {monoNow : Nat}
    {id : String} {later : Candidate} (built : buildAll ch.lib requests = .ok candidates)
    (found : (registerCandidates ch s candidates arm hotReserve monoNow).1.candidates.lookup id = some later) :
    (∃ earlier, s.candidates.lookup id = some earlier ∧ earlier.Steady later) ∨
      s.candidates.lookup id = none ∧
        ∃ request ∈ requests, later.Fresh request.spec ∧ request.spec.commitmentId = id := by
  obtain ⟨_, _, same⟩ | ⟨_, _, _, same⟩ | ⟨_, _, same⟩ :=
    registerCandidates_cases ch s candidates arm hotReserve monoNow
  · rw [same, revalidate_candidates] at found
    exact Or.inl ⟨later, found, Candidate.Steady.refl later⟩
  · rw [same, unwindReserve_candidates, revalidate_candidates] at found
    exact Or.inl ⟨later, found, Candidate.Steady.refl later⟩
  · rw [same] at found
    obtain ⟨earlier, atEarlier, fresh⟩ := applyArmDirective_lookup found
    obtain ⟨kept, atKept, evolved⟩ := kept_applyArmDirective _ _ _ id later found
    have same' : kept = earlier := Option.some.inj (atKept.symm.trans atEarlier)
    subst same'
    rcases registerAll_lookup atEarlier with old | ⟨absent, member, named⟩
    · rw [revalidate_candidates] at old
      exact Or.inl ⟨kept, old, evolved⟩
    · rw [revalidate_candidates] at absent
      obtain ⟨original, present, reserved⟩ := List.mem_map.mp member
      obtain ⟨request, asked, made⟩ := buildAll_fresh built original present
      have new : kept.Fresh request.spec := reserved ▸ fresh_reservePartialCapacity made _ _
      exact Or.inr ⟨absent, request, asked, fresh _ new, new.commitmentId.symm.trans named⟩

theorem kept_recordArmIntent (s : PartialStore) (duress : Bool) (carrier nonce : String)
    (generation : MemoGeneration) (firstSeen now : Nat) (timing : DuressTiming) :
    Kept s (s.recordArmIntent duress carrier nonce generation firstSeen now timing).1 := by
  apply Kept.of_same
  unfold recordArmIntent upgradeMemo
  simp only
  split
  · split_ifs <;> rfl
  · rfl

/-! ### One step -/

/-- Everything but the arm intents and the nonce memos is the same. -/
structure SameCore (before after : PartialStore) : Prop where
  candidates : after.candidates = before.candidates
  reservedBytes : after.reservedBytes = before.reservedBytes
  maxActiveCandidates : after.maxActiveCandidates = before.maxActiveCandidates
  maxBytes : after.maxBytes = before.maxBytes
  armed : after.armed = before.armed
  hotBudget : after.hotBudget = before.hotBudget

theorem SameCore.refl (s : PartialStore) : SameCore s s := ⟨rfl, rfl, rfl, rfl, rfl, rfl⟩

/-- Only the nonce memos differ. -/
def MemoOnly (before after : PartialStore) : Prop := ∃ memos, after = { before with carriersByNonce := memos }

theorem MemoOnly.refl (s : PartialStore) : MemoOnly s s := ⟨s.carriersByNonce, rfl⟩

theorem MemoOnly.trans {a b c : PartialStore} (first : MemoOnly a b) (second : MemoOnly b c) :
    MemoOnly a c := by
  obtain ⟨_, rfl⟩ := first
  obtain ⟨memos, rfl⟩ := second
  exact ⟨memos, rfl⟩

theorem MemoOnly.sameCore {before after : PartialStore} (only : MemoOnly before after) :
    SameCore before after := by
  obtain ⟨_, rfl⟩ := only
  exact ⟨rfl, rfl, rfl, rfl, rfl, rfl⟩

theorem MemoOnly.intents {before after : PartialStore} (only : MemoOnly before after) :
    after.intents = before.intents := by
  obtain ⟨_, rfl⟩ := only
  rfl

theorem memoOnly_resolveSignature (nonce : String) (sender : Nat) (tag : Bytes) (s : PartialStore) :
    MemoOnly s (s.resolveSignature nonce sender tag) := ⟨_, rfl⟩

theorem memoOnly_releaseNonceClaim (s : PartialStore) (nonce : String) (generation : MemoGeneration) :
    MemoOnly s (s.releaseNonceClaim nonce generation) := by
  unfold releaseNonceClaim
  split_ifs
  · exact ⟨_, rfl⟩
  · exact MemoOnly.refl s

theorem memoOnly_outerStaleVerdict (s : PartialStore) (nonce carrier : String) (generation : MemoGeneration)
    (resolved : Option Bytes) (tag claimTag : Bytes) (sender now : Nat) (step : OuterStaleStep)
    (finished : Option Bool) :
    MemoOnly s (s.outerStaleVerdict nonce carrier generation resolved tag claimTag sender now step
      finished).1 := by
  unfold outerStaleVerdict
  split
  · exact MemoOnly.refl s
  · split
    · exact MemoOnly.refl s
    · cases step with
      | inspect claim =>
        simp only
        split_ifs
        all_goals first | exact MemoOnly.refl s | exact memoOnly_resolveSignature nonce sender claimTag s
      | finish memoized claimed matched =>
        simp only
        split_ifs <;> exact MemoOnly.refl s

theorem memoOnly_outerStaleCarrier (ch : ChannelState) (s : PartialStore) (nonce : String) (tag : Bytes)
    (expiry deadline sender now : Nat) (step : OuterStaleStep) (monoNow : Nat) :
    MemoOnly s (s.outerStaleCarrier ch nonce tag expiry deadline sender now step monoNow).1 := by
  unfold outerStaleCarrier
  split
  · exact MemoOnly.refl s
  · split
    · exact MemoOnly.refl s
    · split
      · exact MemoOnly.refl s
      · simp only
        refine MemoOnly.trans ?_ (memoOnly_outerStaleVerdict _ _ _ _ _ _ _ _ _ _ _)
        split
        · exact memoOnly_resolveSignature _ _ _ s
        · exact MemoOnly.refl s

theorem memoOnly_claimCarrierDerivation (s : PartialStore) (nonce : String) (sender : Nat)
    (carrier : String) : MemoOnly s (s.claimCarrierDerivation nonce sender carrier).1 := by
  unfold claimCarrierDerivation
  split
  · split
    · exact MemoOnly.refl s
    · split
      · split
        · exact memoOnly_resolveSignature _ _ _ s
        · exact MemoOnly.refl s
      · exact MemoOnly.refl s
  · exact MemoOnly.refl s

theorem memoOnly_recordCarrierDerivationResult (s : PartialStore) (nonce : String) (sender : Nat)
    (tag : Bytes) (generation : MemoGeneration) (carrier : String) :
    MemoOnly s (s.recordCarrierDerivationResult nonce sender tag generation carrier).1 := by
  unfold recordCarrierDerivationResult
  split
  · exact MemoOnly.refl s
  · split
    · split
      · exact memoOnly_resolveSignature _ _ _ s
      · exact MemoOnly.refl s
    · exact MemoOnly.refl s

theorem sameCore_endCarrierRuling (s : PartialStore) (carrier : String) (monoNow : Nat) :
    SameCore s (s.endCarrierRuling carrier monoNow) := by
  unfold endCarrierRuling
  simp only
  split
  · split_ifs <;> exact ⟨rfl, rfl, rfl, rfl, rfl, rfl⟩
  · exact SameCore.refl s

/-- The operations that read the store, or write only intents and memos. -/
def StoreOp.quiet : StoreOp → Bool
  | .claimNonceInFlight .. | .releaseNonceClaim .. | .endCarrierRuling .. | .markCarrierPropagated ..
  | .carrierMemoLookup .. | .outerStaleCarrier .. | .claimCarrierDerivation ..
  | .recordCarrierDerivationResult .. | .recordIntentPair .. | .dueForFire .. | .fireSettlementPollable ..
  | .tryFinalize .. | .withBroadcastAuthorization .. | .lockdownDue .. => true
  | _ => false

theorem sameCore_of_quiet (ch : ChannelState) (s : PartialStore) (op : StoreOp) (quiet : op.quiet = true) :
    SameCore s (storeStep ch s op).1 := by
  cases op with
  | claimNonceInFlight nonce generation monoNow => exact ⟨rfl, rfl, rfl, rfl, rfl, rfl⟩
  | releaseNonceClaim nonce generation => exact (memoOnly_releaseNonceClaim s nonce generation).sameCore
  | endCarrierRuling carrier monoNow => exact sameCore_endCarrierRuling s carrier monoNow
  | markCarrierPropagated carrier => exact ⟨rfl, rfl, rfl, rfl, rfl, rfl⟩
  | carrierMemoLookup nonce tag requestExpiry sender now monoNow => exact SameCore.refl s
  | outerStaleCarrier nonce tag expiry deadline sender now step monoNow =>
    exact (memoOnly_outerStaleCarrier ch s nonce tag expiry deadline sender now step monoNow).sameCore
  | claimCarrierDerivation nonce sender carrier => exact (memoOnly_claimCarrierDerivation s nonce sender carrier).sameCore
  | recordCarrierDerivationResult nonce sender tag generation carrier =>
    exact (memoOnly_recordCarrierDerivationResult s nonce sender tag generation carrier).sameCore
  | recordIntentPair carrier spend escape => exact ⟨rfl, rfl, rfl, rfl, rfl, rfl⟩
  | dueForFire now => exact SameCore.refl s
  | fireSettlementPollable id now => exact SameCore.refl s
  | tryFinalize id threshold now => exact SameCore.refl s
  | withBroadcastAuthorization id now => exact SameCore.refl s
  | lockdownDue now => exact SameCore.refl s
  | _ => cases quiet

/-- The overlay, the arm intents and the nonce memos are the same. -/
structure SameSafety (before after : PartialStore) : Prop where
  armed : after.armed = before.armed
  intents : after.intents = before.intents
  carriersByNonce : after.carriersByNonce = before.carriersByNonce

theorem SameSafety.refl (s : PartialStore) : SameSafety s s := ⟨rfl, rfl, rfl⟩

theorem SameSafety.trans {a b c : PartialStore} (first : SameSafety a b) (second : SameSafety b c) :
    SameSafety a c :=
  ⟨second.armed.trans first.armed, second.intents.trans first.intents,
    second.carriersByNonce.trans first.carriersByNonce⟩

theorem SameSafety.foldl {ι : Type} {write : PartialStore → ι → PartialStore}
    (each : ∀ s i, SameSafety s (write s i)) (items : List ι) (s : PartialStore) :
    SameSafety s (items.foldl write s) := by
  induction items generalizing s with
  | nil => exact SameSafety.refl s
  | cons i rest ih => exact (each s i).trans (ih (write s i))

theorem sameSafety_terminalize (s : PartialStore) (id : String) : SameSafety s (s.terminalize id) := by
  unfold terminalize
  split
  · exact ⟨rfl, rfl, rfl⟩
  · exact SameSafety.refl s

theorem sameSafety_evict (s : PartialStore) (id : String) : SameSafety s (s.evict id) := by
  unfold evict
  split
  · exact ⟨rfl, rfl, rfl⟩
  · exact SameSafety.refl s

theorem sameSafety_markBroadcast (s : PartialStore) (id : String) : SameSafety s (s.markBroadcast id).1 := by
  have conflicts : SameSafety s (s.invalidateHotConflicts id).1 := SameSafety.foldl sameSafety_terminalize _ s
  unfold markBroadcast
  simp only
  split
  · exact conflicts.trans (SameSafety.foldl sameSafety_evict _ _)
  · exact conflicts.trans ⟨rfl, rfl, rfl⟩

theorem sameSafety_acceptPartial (lib : Library) (s : PartialStore) (p : ParsedPartial)
    (nodes : List ManifestNode) (now : Nat) : SameSafety s (acceptPartial lib s p nodes now).1 := by
  unfold acceptPartial
  split
  · exact SameSafety.refl s
  · split
    · exact sameSafety_evict s _
    · split
      · exact SameSafety.refl s
      · split
        · exact SameSafety.refl s
        · exact ⟨rfl, rfl, rfl⟩

theorem sameSafety_releasePartials (ch : ChannelState) (s : PartialStore) (id : String) (now : Nat) :
    SameSafety s (s.releasePartials ch id now).1 := by
  obtain same | ⟨_, _, _, _, _, _, same⟩ := releasePartials_cases ch s id now
  · rw [same]
    exact SameSafety.refl s
  · rw [same]
    exact ⟨rfl, rfl, rfl⟩

/-- The operations on candidates and on the ledger that the safety state does not see. -/
def StoreOp.registryOnly : StoreOp → Bool
  | .acceptPartial .. | .reserveHotBudget .. | .releaseHotBudget .. | .releasePartials ..
  | .latchEscapeRung .. | .invalidateHotConflictsInStore .. | .markBroadcast .. => true
  | _ => false

theorem sameSafety_of_registryOnly (ch : ChannelState) (s : PartialStore) (op : StoreOp)
    (only : op.registryOnly = true) : SameSafety s (storeStep ch s op).1 := by
  cases op with
  | acceptPartial p now => exact sameSafety_acceptPartial ch.lib s p ch.nodes now
  | reserveHotBudget id outflow wallNow expiry monoNow => exact ⟨rfl, rfl, rfl⟩
  | releaseHotBudget id => exact ⟨rfl, rfl, rfl⟩
  | releasePartials id now => exact sameSafety_releasePartials ch s id now
  | latchEscapeRung id rung lowest => exact ⟨rfl, rfl, rfl⟩
  | invalidateHotConflictsInStore id => exact SameSafety.foldl sameSafety_terminalize _ s
  | markBroadcast id => exact sameSafety_markBroadcast s id
  | _ => cases only

/-- What one step can do to the registry: keep or drop what is resident, or register a fresh candidate. -/
theorem storeStep_lookup {ch : ChannelState} {s : PartialStore} {op : StoreOp} {id : String}
    {later : Candidate} (found : (storeStep ch s op).1.candidates.lookup id = some later) :
    (∃ earlier, s.candidates.lookup id = some earlier ∧ earlier.Later later ∧
        (later.holderQuorumReached = earlier.holderQuorumReached ∨ Confirms id s op)) ∨
      s.candidates.lookup id = none ∧ ∃ requests arm hotReserve monoNow,
        op = .registerCandidates requests arm hotReserve monoNow ∧
          ∃ request ∈ requests, later.Fresh request.spec ∧ request.spec.commitmentId = id := by
  have ofSteady : (∃ earlier, s.candidates.lookup id = some earlier ∧ earlier.Steady later) →
      ∃ earlier, s.candidates.lookup id = some earlier ∧ earlier.Later later ∧
        (later.holderQuorumReached = earlier.holderQuorumReached ∨ Confirms id s op) := by
    rintro ⟨earlier, present, steady⟩
    exact ⟨earlier, present, steady.toLater, Or.inl steady.gate⟩
  have ofKept : Kept s (storeStep ch s op).1 →
      ∃ earlier, s.candidates.lookup id = some earlier ∧ earlier.Later later ∧
        (later.holderQuorumReached = earlier.holderQuorumReached ∨ Confirms id s op) :=
    fun kept => ofSteady (kept id later found)
  by_cases quiet : op.quiet = true
  · exact Or.inl (ofKept (Kept.of_same (sameCore_of_quiet ch s op quiet).candidates))
  · cases op with
    | registerCandidates requests arm hotReserve monoNow =>
      simp only [storeStep] at found
      cases built : buildAll ch.lib requests with
      | error message =>
        simp only [built] at found
        exact Or.inl (ofSteady ⟨later, found, Candidate.Steady.refl later⟩)
      | ok candidates =>
        simp only [built] at found
        rcases registerCandidates_lookup built found with old | ⟨absent, new⟩
        · exact Or.inl (ofSteady old)
        · exact Or.inr ⟨absent, requests, arm, hotReserve, monoNow, rfl, new⟩
    | recordArmIntent duress carrier nonce generation firstSeen now timing =>
      exact Or.inl (ofKept (kept_recordArmIntent s duress carrier nonce generation firstSeen now timing))
    | applyCachedSchedule escape duress now epsilon =>
      exact Or.inl (ofKept (kept_applyArmDirective _ _ s))
    | confirmCarrier sender carrier threshold now timing monoNow =>
      exact Or.inl (confirmCarrier_lookup found)
    | pruneStore now monoNow =>
      exact Or.inl (ofKept (Kept.trans (Kept.of_same rfl) (kept_prune (s.pruneCarriers monoNow) now)))
    | acceptPartial p now => exact Or.inl (ofKept (kept_acceptPartial ch.lib s p ch.nodes now))
    | reserveHotBudget id outflow wallNow expiry monoNow => exact Or.inl (ofKept (Kept.of_same rfl))
    | releaseHotBudget id => exact Or.inl (ofKept (Kept.of_same rfl))
    | releasePartials id now => exact Or.inl (ofKept (kept_releasePartials ch s id now))
    | latchEscapeRung id rung lowest =>
      exact Or.inl (ofKept (kept_updateCandidate (fun c _ => steady_latchRung rung lowest c)))
    | invalidateHotConflictsInStore id => exact Or.inl (ofKept (kept_invalidateHotConflicts s id))
    | markBroadcast id => exact Or.inl (ofKept (kept_markBroadcast s id))
    | _ => exact absurd rfl quiet

/-- Every candidate is filed under its own commitment id. -/
def Keyed (s : PartialStore) : Prop := ∀ id c, s.candidates.lookup id = some c → c.commitmentId = id

theorem keyed_step (ch : ChannelState) (s : PartialStore) (op : StoreOp) (keyed : Keyed s) :
    Keyed (storeStep ch s op).1 := by
  intro id later found
  rcases storeStep_lookup found with ⟨earlier, present, evolved, _⟩ | ⟨_, _, _, _, _, _, _, _, fresh, named⟩
  · exact evolved.commitmentId.trans (keyed id earlier present)
  · exact fresh.commitmentId.trans named

theorem storeAfter_keyed (ch : ChannelState) (config : StoreConfig) (ops : List StoreOp) :
    Keyed (storeAfter ch config ops) := by
  apply exec_invariant (storeStep ch) Keyed (keyed_step ch)
  intro id c found
  cases found

end BtcPolicy.Channel
