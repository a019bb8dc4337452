import BtcPolicy.Lib.Counting
import BtcPolicy.Channel.Evolution

/-! What the candidates cost. Registration charges a candidate for every signature its peers may still send;
the four ways out give the charge back. What is stored is followed through every operation first, then what
is charged for it. -/

namespace BtcPolicy.Channel
open FiniteMap Word Bitcoin HotLedger Runs PartialStore Counting

/-! ### What is stored -/

/-- The transactions, their collected signatures, and what they are charged are the same. -/
structure Candidate.SameStock (earlier later : Candidate) : Prop where
  base : later.base = earlier.base
  bumps : later.bumps = earlier.bumps
  bytes : later.bytes = earlier.bytes
  capacityBytes : later.capacityBytes = earlier.capacityBytes

theorem Candidate.SameStock.refl (c : Candidate) : c.SameStock c := ⟨rfl, rfl, rfl, rfl⟩

theorem Candidate.SameStock.trans {a b c : Candidate} (first : a.SameStock b) (second : b.SameStock c) :
    a.SameStock c :=
  ⟨second.base.trans first.base, second.bumps.trans first.bumps, second.bytes.trans first.bytes,
    second.capacityBytes.trans first.capacityBytes⟩

theorem Candidate.SameStock.variants {earlier later : Candidate} (same : earlier.SameStock later) :
    later.variants = earlier.variants := by
  rw [Candidate.variants, Candidate.variants, same.base, same.bumps]

/-- The charge is the exact sum, and both limits are kept. -/
structure Balanced (s : PartialStore) : Prop where
  exact : s.reservedBytes = total Candidate.capacityBytes s.candidates
  bytes : s.reservedBytes ≤ s.maxBytes
  count : size s.candidates ≤ s.maxActiveCandidates
  word : s.maxBytes < maxWord

/-- In a balanced store no charge has saturated. -/
theorem Balanced.charged {s : PartialStore} (balanced : Balanced s) {id : String} {c : Candidate}
    (found : s.candidates.lookup id = some c) : c.capacityBytes < maxWord := by
  have part := weight_le_total found Candidate.capacityBytes
  have bytes := balanced.bytes
  have word := balanced.word
  rw [← balanced.exact] at part
  omega

/-- Nothing is stored that was not stored before, and a balanced store stays balanced. -/
structure Conserved (before after : PartialStore) : Prop where
  stock : ∀ id later, after.candidates.lookup id = some later →
    ∃ earlier, before.candidates.lookup id = some earlier ∧ earlier.SameStock later
  maxBytes : after.maxBytes = before.maxBytes
  maxActiveCandidates : after.maxActiveCandidates = before.maxActiveCandidates
  balance : Balanced before → Balanced after

theorem Conserved.trans {a b c : PartialStore} (first : Conserved a b) (second : Conserved b c) :
    Conserved a c := by
  refine ⟨?_, second.maxBytes.trans first.maxBytes,
    second.maxActiveCandidates.trans first.maxActiveCandidates, fun balanced => second.balance (first.balance balanced)⟩
  intro id last found
  obtain ⟨middle, atMiddle, later⟩ := second.stock id last found
  obtain ⟨earlier, atEarlier, before⟩ := first.stock id middle atMiddle
  exact ⟨earlier, atEarlier, before.trans later⟩

theorem conserved_of_same {before after : PartialStore} (candidates : after.candidates = before.candidates)
    (reservedBytes : after.reservedBytes = before.reservedBytes) (maxBytes : after.maxBytes = before.maxBytes)
    (maxActive : after.maxActiveCandidates = before.maxActiveCandidates) : Conserved before after := by
  refine ⟨?_, maxBytes, maxActive, ?_⟩
  · intro id later found
    exact ⟨later, candidates ▸ found, Candidate.SameStock.refl later⟩
  · rintro ⟨exact', bytes, count, word⟩
    refine ⟨?_, ?_, ?_, ?_⟩
    · rw [reservedBytes, candidates, exact']
    · rwa [reservedBytes, maxBytes]
    · rwa [candidates, maxActive]
    · rwa [maxBytes]

theorem Conserved.refl (s : PartialStore) : Conserved s s := conserved_of_same rfl rfl rfl rfl

theorem Conserved.foldl {ι : Type} {write : PartialStore → ι → PartialStore}
    (each : ∀ s i, Conserved s (write s i)) (items : List ι) (s : PartialStore) :
    Conserved s (items.foldl write s) := by
  induction items generalizing s with
  | nil => exact Conserved.refl s
  | cons i rest ih => exact (each s i).trans (ih (write s i))

theorem SameCore.conserved {before after : PartialStore} (same : SameCore before after) :
    Conserved before after :=
  conserved_of_same same.candidates same.reservedBytes same.maxBytes same.maxActiveCandidates

theorem conserved_updateCandidate {s : PartialStore} {id : String} {f : Candidate → Candidate}
    (same : ∀ c : Candidate, c.SameStock (f c)) : Conserved s (s.updateCandidate id f) := by
  refine ⟨?_, rfl, rfl, ?_⟩
  · intro other later found
    obtain ⟨old, present, kept | ⟨_, rewritten⟩⟩ := lookup_adjust_some found
    · exact ⟨old, present, kept ▸ Candidate.SameStock.refl old⟩
    · exact ⟨old, present, rewritten ▸ same old⟩
  · rintro ⟨exact', bytes, count, word⟩
    have weight : total Candidate.capacityBytes (s.updateCandidate id f).candidates =
        total Candidate.capacityBytes s.candidates := total_adjust (fun c _ => (same c).capacityBytes)
    exact ⟨exact'.trans weight.symm, bytes, (size_adjust id f s.candidates).trans_le count, word⟩

theorem conserved_refreshEscapeWindow (id : String) (s : PartialStore) :
    Conserved s (s.refreshEscapeWindow id) := by
  unfold refreshEscapeWindow
  split
  · exact Conserved.refl s
  · apply conserved_updateCandidate
    intro c
    unfold reschedule
    split <;> exact ⟨rfl, rfl, rfl, rfl⟩

theorem conserved_applyArmDirective (arm : ArmDirective) (holds : List Nat) (s : PartialStore) :
    Conserved s (s.applyArmDirective arm holds) := by
  unfold applyArmDirective
  simp only
  refine Conserved.trans ?_ (conserved_refreshEscapeWindow _ _)
  refine Conserved.trans ?_ (conserved_refreshEscapeWindow _ _)
  exact conserved_of_same rfl rfl rfl rfl

theorem conserved_setBroadcast (id : String) (s : PartialStore) : Conserved s (s.setBroadcast id) :=
  conserved_updateCandidate (fun _ => ⟨rfl, rfl, rfl, rfl⟩)

theorem conserved_terminalize (s : PartialStore) (id : String) : Conserved s (s.terminalize id) := by
  unfold terminalize
  split
  · exact (conserved_setBroadcast id s).trans (conserved_of_same rfl rfl rfl rfl)
  · exact Conserved.refl s

theorem conserved_evict (s : PartialStore) (id : String) : Conserved s (s.evict id) := by
  unfold evict
  split
  next c found =>
    refine ⟨?_, rfl, rfl, ?_⟩
    · intro other later found
      simp only [lookup_erase_eq] at found
      split at found
      · cases found
      · exact ⟨later, found, Candidate.SameStock.refl later⟩
    · rintro ⟨exact', bytes, count, word⟩
      have weight := total_erase_present found Candidate.capacityBytes
      have smaller := size_erase_le id s.candidates
      exact ⟨by simp only; omega, by simp only; omega, smaller.trans count, word⟩
  next => exact Conserved.refl s

theorem conserved_prune (s : PartialStore) (now : Nat) : Conserved s (s.prune now) := by
  refine ⟨?_, rfl, rfl, ?_⟩
  · intro id later found
    exact ⟨later, (lookup_retain_some.mp found).1, Candidate.SameStock.refl later⟩
  · rintro ⟨exact', bytes, count, word⟩
    have weight := total_retain_add_dropped (s.survivesPrune now) Candidate.capacityBytes s.candidates
    -- The charge to give back is below the byte cap, so its saturating sum is the exact one.
    have removed := foldl_satAdd_exact ((s.candidates.entries.filter (fun e =>
      !s.survivesPrune now e.1 e.2)).map (fun e => e.2.capacityBytes)) 0 (by omega)
    have smaller := size_retain_le (s.survivesPrune now) s.candidates
    refine ⟨?_, (Nat.sub_le _ _).trans bytes, smaller.trans count, word⟩
    show s.reservedBytes - _ = total Candidate.capacityBytes (retain (s.survivesPrune now) s.candidates)
    rw [removed]
    omega

theorem conserved_invalidateHotConflicts (s : PartialStore) (id : String) :
    Conserved s (s.invalidateHotConflicts id).1 :=
  Conserved.foldl conserved_terminalize _ s

theorem conserved_markBroadcast (s : PartialStore) (id : String) : Conserved s (s.markBroadcast id).1 := by
  unfold markBroadcast
  simp only
  split
  · exact (conserved_invalidateHotConflicts s id).trans
      (Conserved.foldl conserved_evict _ _)
  · exact (conserved_invalidateHotConflicts s id).trans (conserved_setBroadcast id _)

theorem conserved_releasePartials (ch : ChannelState) (s : PartialStore) (id : String) (now : Nat) :
    Conserved s (s.releasePartials ch id now).1 := by
  obtain same | ⟨_, _, _, _, _, _, same⟩ := releasePartials_cases ch s id now
  · rw [same]
    exact Conserved.refl s
  · rw [same]
    exact conserved_updateCandidate (fun _ => ⟨rfl, rfl, rfl, rfl⟩)

theorem conserved_confirmWrites (carrier : String) (intent : ArmIntent) (now : Nat) (timing : DuressTiming) :
    ∀ write ∈ confirmWrites carrier intent now timing, ∀ s, Conserved s (write s) := by
  intro write member s
  simp only [confirmWrites, List.mem_cons, List.not_mem_nil, or_false] at member
  rcases member with rfl | rfl | rfl | rfl | rfl | rfl | rfl | rfl
  · exact conserved_of_same rfl rfl rfl rfl
  · exact conserved_of_same rfl rfl rfl rfl
  · exact conserved_updateCandidate (fun _ => ⟨rfl, rfl, rfl, rfl⟩)
  · exact conserved_updateCandidate (fun _ => ⟨rfl, rfl, rfl, rfl⟩)
  · exact conserved_of_same rfl rfl rfl rfl
  · exact conserved_refreshEscapeWindow _ s
  · exact conserved_refreshEscapeWindow _ s
  · exact conserved_of_same rfl rfl rfl rfl

theorem conserved_applyWrites {writes : List (PartialStore → PartialStore)}
    (each : ∀ write ∈ writes, ∀ s, Conserved s (write s)) (s : PartialStore) :
    Conserved s (applyWrites writes s) := by
  induction writes generalizing s with
  | nil => exact Conserved.refl s
  | cons write rest ih =>
    exact (each write List.mem_cons_self s).trans
      (ih (fun other member => each other (List.mem_cons_of_mem _ member)) (write s))

theorem conserved_confirmCarrier (s : PartialStore) (sender : Nat) (carrier : String) (threshold now : Nat)
    (timing : DuressTiming) (monoNow : Nat) :
    Conserved s (s.confirmCarrier sender carrier threshold now timing monoNow).1 := by
  obtain ⟨_, same | same⟩ | ⟨intent, _, same⟩ :=
    confirmCarrier_cases s sender carrier threshold now timing monoNow
  · rw [same]
    exact Conserved.refl s
  · rw [same]
    exact conserved_of_same rfl rfl rfl rfl
  · rw [same]
    exact (conserved_of_same rfl rfl rfl rfl : Conserved s (s.addHolder sender carrier)).trans
      (conserved_applyWrites (conserved_confirmWrites carrier intent now timing) _)

theorem conserved_recordArmIntent (s : PartialStore) (duress : Bool) (carrier nonce : String)
    (generation : MemoGeneration) (firstSeen now : Nat) (timing : DuressTiming) :
    Conserved s (s.recordArmIntent duress carrier nonce generation firstSeen now timing).1 := by
  unfold recordArmIntent upgradeMemo
  simp only
  split
  · split_ifs <;> exact conserved_of_same rfl rfl rfl rfl
  · exact conserved_of_same rfl rfl rfl rfl

/-! ### Registration -/

/-- A registration that inserts charges exactly the candidate's capacity; every other leaves the store alone. -/
theorem register_cases (s : PartialStore) (c : Candidate) :
    (s.register c).1 = s ∧ (s.register c).2 ≠ .inserted ∨
      s.candidates.lookup c.commitmentId = none ∧ size s.candidates < s.maxActiveCandidates ∧
        satAdd s.reservedBytes c.capacityBytes ≤ s.maxBytes ∧
        s.register c = ({ s with
          reservedBytes := satAdd s.reservedBytes c.capacityBytes
          candidates := s.candidates.insert c.commitmentId c }, .inserted) := by
  unfold register
  cases resident : s.candidates.lookup c.commitmentId with
  | some other =>
    left
    simp only
    split_ifs <;> simp
  | none =>
    simp only
    split_ifs with full
    · simp
    · rw [not_or, Nat.not_le, Nat.not_lt] at full
      exact Or.inr ⟨trivial, full.1, full.2, rfl⟩

/-- The part of a registration that the limits see. -/
structure Enrolled (candidates : List Candidate) (before after : PartialStore) : Prop where
  stock : ∀ id later, after.candidates.lookup id = some later →
    (∃ earlier, before.candidates.lookup id = some earlier ∧ earlier.SameStock later) ∨
      before.candidates.lookup id = none ∧ ∃ c ∈ candidates, c.commitmentId = id ∧ c.SameStock later
  maxBytes : after.maxBytes = before.maxBytes
  maxActiveCandidates : after.maxActiveCandidates = before.maxActiveCandidates
  balance : Balanced before → Balanced after

theorem Conserved.enrolled {before after : PartialStore} (conserved : Conserved before after)
    (candidates : List Candidate) : Enrolled candidates before after :=
  ⟨fun id later found => Or.inl (conserved.stock id later found), conserved.maxBytes,
    conserved.maxActiveCandidates, conserved.balance⟩

theorem Enrolled.conserved {candidates : List Candidate} {a b c : PartialStore}
    (first : Enrolled candidates a b) (second : Conserved b c) : Enrolled candidates a c := by
  refine ⟨?_, second.maxBytes.trans first.maxBytes,
    second.maxActiveCandidates.trans first.maxActiveCandidates,
    fun balanced => second.balance (first.balance balanced)⟩
  intro id last found
  obtain ⟨middle, atMiddle, later⟩ := second.stock id last found
  rcases first.stock id middle atMiddle with ⟨earlier, atEarlier, before⟩ | ⟨absent, c, member, named, before⟩
  · exact Or.inl ⟨earlier, atEarlier, before.trans later⟩
  · exact Or.inr ⟨absent, c, member, named, before.trans later⟩

theorem enrolled_register (s : PartialStore) (c : Candidate) : Enrolled [c] s (s.register c).1 := by
  rcases register_cases s c with ⟨same, _⟩ | ⟨absent, room, fits, same⟩
  · rw [same]
    exact (Conserved.refl s).enrolled [c]
  · rw [same]
    refine ⟨?_, rfl, rfl, ?_⟩
    · intro id later found
      simp only [lookup_insert_eq] at found
      split_ifs at found with here
      · cases found
        exact Or.inr ⟨here ▸ absent, c, List.mem_singleton_self c, here.symm, Candidate.SameStock.refl c⟩
      · exact Or.inl ⟨later, found, Candidate.SameStock.refl later⟩
    · rintro ⟨exact', bytes, count, word⟩
      have added : satAdd s.reservedBytes c.capacityBytes = s.reservedBytes + c.capacityBytes :=
        satAdd_eq_of_lt (fits.trans_lt word)
      refine ⟨?_, fits, ?_, word⟩
      · show satAdd _ _ = _
        rw [total_insert_absent absent, added]
        omega
      · show size _ ≤ _
        rw [size_insert_absent absent]
        exact room

theorem enrolled_registerAll (candidates : List Candidate) (s : PartialStore) :
    Enrolled candidates s (s.registerAll candidates).1 := by
  induction candidates generalizing s with
  | nil => exact (Conserved.refl s).enrolled []
  | cons c rest ih =>
    have first := enrolled_register s c
    have others := ih (s.register c).1
    refine ⟨?_, others.maxBytes.trans first.maxBytes,
      others.maxActiveCandidates.trans first.maxActiveCandidates,
      fun balanced => others.balance (first.balance balanced)⟩
    intro id last found
    rcases others.stock id last found with ⟨middle, atMiddle, later⟩ | ⟨absent, new, member, named, later⟩
    · rcases first.stock id middle atMiddle with ⟨earlier, atEarlier, before⟩ | ⟨absent, new, member, named, before⟩
      · exact Or.inl ⟨earlier, atEarlier, before.trans later⟩
      · have here : new = c := List.mem_singleton.mp member
        exact Or.inr ⟨absent, new, here ▸ List.mem_cons_self, named, before.trans later⟩
    · refine Or.inr ⟨?_, new, List.mem_cons_of_mem _ member, named, later⟩
      rcases register_cases s c with ⟨same, _⟩ | ⟨_, _, _, same⟩
      · rwa [same] at absent
      · rw [same, lookup_insert_eq] at absent
        split_ifs at absent
        exact absent

theorem conserved_revalidate (s : PartialStore) (hotReserve : Option HotReserveSpec) (monoNow : Nat) :
    Conserved s (s.revalidate hotReserve monoNow).1 := by
  cases hotReserve <;> exact conserved_of_same rfl rfl rfl rfl

theorem conserved_unwindReserve (created : Bool) (hotReserve : Option HotReserveSpec) (s : PartialStore) :
    Conserved s (s.unwindReserve created hotReserve) := by
  unfold unwindReserve
  split
  · split_ifs <;> exact conserved_of_same rfl rfl rfl rfl
  · exact Conserved.refl s

theorem enrolled_enroll (arm : ArmDirective) (candidates : List Candidate) (s : PartialStore) :
    Enrolled candidates s (s.enroll arm candidates).1 := by
  have directed := (enrolled_registerAll candidates s).conserved
    (conserved_applyArmDirective arm (hotHolds candidates) _)
  exact directed.conserved (conserved_of_same rfl rfl rfl rfl)

theorem enrolled_registerCandidates (ch : ChannelState) (s : PartialStore) (candidates : List Candidate)
    (arm : ArmDirective) (hotReserve : Option HotReserveSpec) (monoNow : Nat) :
    Enrolled (candidates.map (fun c => c.reservePartialCapacity ch.nodes ch.nodeId)) s
      (registerCandidates ch s candidates arm hotReserve monoNow).1 := by
  have first := conserved_revalidate s hotReserve monoNow
  obtain ⟨_, _, same⟩ | ⟨_, _, _, same⟩ | ⟨_, _, same⟩ :=
    registerCandidates_cases ch s candidates arm hotReserve monoNow
  · rw [same]
    exact first.enrolled _
  · rw [same]
    exact (first.trans (conserved_unwindReserve _ _ _)).enrolled _
  · rw [same]
    have whole := enrolled_enroll arm (candidates.map (fun c => c.reservePartialCapacity ch.nodes ch.nodeId))
      (s.revalidate hotReserve monoNow).1
    refine ⟨?_, whole.maxBytes.trans first.maxBytes, whole.maxActiveCandidates.trans first.maxActiveCandidates,
      fun balanced => whole.balance (first.balance balanced)⟩
    intro id later found
    have stocked := whole.stock id later found
    rwa [revalidate_candidates] at stocked

/-! ### One step -/

/-- `later` is `earlier` with one verified partial imported, the first of its slot. -/
structure Imported (ch : ChannelState) (p : ParsedPartial) (earlier later : Candidate) (rung : Nat)
    (variant : SigningVariant) (expected : PublicKey) (sig : Bytes) : Prop where
  checked : checkPartial ch.lib earlier p ch.nodes = .ok (rung, variant, expected, sig)
  first : variant.partials.lookup (p.input, p.signer) = none
  becomes : later = importPartial ch.lib earlier p rung variant expected sig

/-- What a partial does to the registry: nothing, an eviction, or one import. -/
theorem acceptPartial_cases (ch : ChannelState) (s : PartialStore) (p : ParsedPartial) (now : Nat) :
    Conserved s (acceptPartial ch.lib s p ch.nodes now).1 ∨
      ∃ c rung variant expected sig, s.candidates.lookup p.commitmentId = some c ∧
        checkPartial ch.lib c p ch.nodes = .ok (rung, variant, expected, sig) ∧
        variant.partials.lookup (p.input, p.signer) = none ∧
        (acceptPartial ch.lib s p ch.nodes now).1 = s.updateCandidate p.commitmentId (fun c =>
          importPartial ch.lib c p rung variant expected sig) := by
  unfold acceptPartial
  cases found : s.candidates.lookup p.commitmentId with
  | none => exact Or.inl (Conserved.refl s)
  | some c =>
    simp only
    split
    · exact Or.inl (conserved_evict s _)
    · cases checked : checkPartial ch.lib c p ch.nodes with
      | error reason => exact Or.inl (Conserved.refl s)
      | ok import' =>
        obtain ⟨rung, variant, expected, sig⟩ := import'
        simp only
        split
        · exact Or.inl (Conserved.refl s)
        next first =>
          exact Or.inr ⟨c, rung, variant, expected, sig, rfl, checked, by simpa using first, rfl⟩

/-- The operations that can add to what is stored. -/
def StoreOp.grows : StoreOp → Bool
  | .registerCandidates .. | .acceptPartial .. => true
  | _ => false

theorem conserved_step (ch : ChannelState) (s : PartialStore) (op : StoreOp) (still : op.grows = false) :
    Conserved s (storeStep ch s op).1 := by
  by_cases quiet : op.quiet = true
  · exact (sameCore_of_quiet ch s op quiet).conserved
  · cases op with
    | registerCandidates requests arm hotReserve monoNow => cases still
    | acceptPartial p now => cases still
    | recordArmIntent duress carrier nonce generation firstSeen now timing =>
      exact conserved_recordArmIntent s duress carrier nonce generation firstSeen now timing
    | applyCachedSchedule escape duress now epsilon => exact conserved_applyArmDirective _ _ s
    | confirmCarrier sender carrier threshold now timing monoNow =>
      exact conserved_confirmCarrier s sender carrier threshold now timing monoNow
    | pruneStore now monoNow =>
      exact (conserved_of_same rfl rfl rfl rfl : Conserved s (s.pruneCarriers monoNow)).trans (conserved_prune _ now)
    | reserveHotBudget id outflow wallNow expiry monoNow => exact conserved_of_same rfl rfl rfl rfl
    | releaseHotBudget id => exact conserved_of_same rfl rfl rfl rfl
    | releasePartials id now => exact conserved_releasePartials ch s id now
    | latchEscapeRung id rung lowest => exact conserved_updateCandidate (fun _ => ⟨rfl, rfl, rfl, rfl⟩)
    | invalidateHotConflictsInStore id => exact conserved_invalidateHotConflicts s id
    | markBroadcast id => exact conserved_markBroadcast s id
    | _ => exact absurd rfl quiet

theorem buildAll_request {lib : Library} {requests : List CandidateRequest} {candidates : List Candidate}
    (built : buildAll lib requests = .ok candidates) :
    ∀ c ∈ candidates, ∃ request ∈ requests, Candidate.build lib request.spec request.keys = .ok c := by
  induction requests generalizing candidates with
  | nil =>
    simp only [buildAll, List.mapM_nil, pure, Except.pure, Except.ok.injEq] at built
    subst built
    intro c member
    cases member
  | cons request rest ih =>
    obtain ⟨first, tail, rfl, here, others⟩ := buildAll_cons built
    intro c member
    rcases List.mem_cons.mp member with same | later
    · exact ⟨request, List.mem_cons_self, same ▸ here⟩
    · obtain ⟨asked, listed, made⟩ := ih others c later
      exact ⟨asked, List.mem_cons_of_mem _ listed, made⟩

/-- What one step can do to what is stored under `id`: keep or drop it, import a partial into it, or register
a candidate there. -/
theorem storeStep_stock {ch : ChannelState} {s : PartialStore} {op : StoreOp} {id : String} {later : Candidate}
    (found : (storeStep ch s op).1.candidates.lookup id = some later) :
    (∃ earlier, s.candidates.lookup id = some earlier ∧ earlier.SameStock later) ∨
      (∃ p now earlier rung variant expected sig, op = .acceptPartial p now ∧ p.commitmentId = id ∧
        s.candidates.lookup id = some earlier ∧ Imported ch p earlier later rung variant expected sig) ∨
      s.candidates.lookup id = none ∧ ∃ requests arm hotReserve monoNow request c,
        op = .registerCandidates requests arm hotReserve monoNow ∧ request ∈ requests ∧
          Candidate.build ch.lib request.spec request.keys = .ok c ∧
          (c.reservePartialCapacity ch.nodes ch.nodeId).SameStock later := by
  by_cases still : op.grows = false
  · exact Or.inl ((conserved_step ch s op still).stock id later found)
  · cases op with
    | registerCandidates requests arm hotReserve monoNow =>
      simp only [storeStep] at found
      cases built : buildAll ch.lib requests with
      | error message =>
        simp only [built] at found
        exact Or.inl ⟨later, found, Candidate.SameStock.refl later⟩
      | ok candidates =>
        simp only [built] at found
        rcases (enrolled_registerCandidates ch s candidates arm hotReserve monoNow).stock id later found with
          old | ⟨absent, c, member, _, same⟩
        · exact Or.inl old
        · obtain ⟨original, present, rfl⟩ := List.mem_map.mp member
          obtain ⟨request, asked, made⟩ := buildAll_request built original present
          exact Or.inr (Or.inr
            ⟨absent, requests, arm, hotReserve, monoNow, request, original, rfl, asked, made, same⟩)
    | acceptPartial p now =>
      rcases acceptPartial_cases ch s p now with conserved | ⟨c, rung, variant, expected, sig, present, checked, first, same⟩
      · exact Or.inl (conserved.stock id later found)
      · simp only [storeStep, same] at found
        obtain ⟨old, atOld, kept | ⟨here, rewritten⟩⟩ := lookup_adjust_some found
        · exact Or.inl ⟨old, atOld, kept ▸ Candidate.SameStock.refl old⟩
        · have resident : old = c := Option.some.inj (atOld.symm.trans (here ▸ present))
          subst resident
          exact Or.inr (Or.inl ⟨p, now, old, rung, variant, expected, sig, rfl, here.symm, atOld,
            checked, first, rewritten⟩)
    | _ => exact absurd rfl still

theorem balanced_step (ch : ChannelState) (s : PartialStore) (op : StoreOp) (balanced : Balanced s) :
    Balanced (storeStep ch s op).1 := by
  by_cases still : op.grows = false
  · exact (conserved_step ch s op still).balance balanced
  · cases op with
    | registerCandidates requests arm hotReserve monoNow =>
      simp only [storeStep]
      cases built : buildAll ch.lib requests with
      | error message => exact balanced
      | ok candidates =>
        exact (enrolled_registerCandidates ch s candidates arm hotReserve monoNow).balance balanced
    | acceptPartial p now =>
      rcases acceptPartial_cases ch s p now with conserved | ⟨c, rung, variant, expected, sig, _, _, _, same⟩
      · exact conserved.balance balanced
      · -- An import leaves the charge as it is.
        obtain ⟨exact', bytes, count, word⟩ := balanced
        simp only [storeStep, same]
        have weight : total Candidate.capacityBytes (s.updateCandidate p.commitmentId (fun c =>
            importPartial ch.lib c p rung variant expected sig)).candidates =
            total Candidate.capacityBytes s.candidates := by
          apply total_adjust
          intro c _
          exact (steady_importPartial ch.lib c p rung variant expected sig).capacityBytes
        exact ⟨exact'.trans weight.symm, bytes, (size_adjust _ _ s.candidates).trans_le count, word⟩
    | _ => exact absurd rfl still

theorem limits_step (ch : ChannelState) (s : PartialStore) (op : StoreOp) :
    (storeStep ch s op).1.maxBytes = s.maxBytes ∧
      (storeStep ch s op).1.maxActiveCandidates = s.maxActiveCandidates := by
  by_cases still : op.grows = false
  · have conserved := conserved_step ch s op still
    exact ⟨conserved.maxBytes, conserved.maxActiveCandidates⟩
  · cases op with
    | registerCandidates requests arm hotReserve monoNow =>
      simp only [storeStep]
      cases built : buildAll ch.lib requests with
      | error message => exact ⟨rfl, rfl⟩
      | ok candidates =>
        have enrolled := enrolled_registerCandidates ch s candidates arm hotReserve monoNow
        exact ⟨enrolled.maxBytes, enrolled.maxActiveCandidates⟩
    | acceptPartial p now =>
      rcases acceptPartial_cases ch s p now with conserved | ⟨_, _, _, _, _, _, _, _, same⟩
      · exact ⟨conserved.maxBytes, conserved.maxActiveCandidates⟩
      · simp only [storeStep, same]
        exact ⟨rfl, rfl⟩
    | _ => exact absurd rfl still

/-! ### Room for the peers' partials -/

/-- What the startup checks establish: node ids are manifest positions, the descriptor's keys are distinct,
and this node's entry carries its own signing key. -/
structure ChannelState.Validated (ch : ChannelState) (keys : CandidateKeys) : Prop where
  indexed : ∀ (i : Nat) (node : ManifestNode), ch.nodes[i]? = some node → node.nodeId = i
  distinct : (ch.nodes.map ManifestNode.signingPubkey).Nodup
  own : ∃ node, ch.nodes[ch.nodeId]? = some node ∧ node.signingPubkey = keys.selfSigningPubkey
  user : ∀ node ∈ ch.nodes, node.signingPubkey ≠ keys.userPubkey

theorem ChannelState.Validated.key_ne {ch : ChannelState} {keys : CandidateKeys} (valid : ch.Validated keys)
    {i j : Nat} {a b : ManifestNode} (atI : ch.nodes[i]? = some a) (atJ : ch.nodes[j]? = some b)
    (different : i ≠ j) : a.signingPubkey ≠ b.signingPubkey := by
  intro same
  obtain ⟨bound, _⟩ := List.getElem?_eq_some_iff.mp atI
  have repeated : (ch.nodes.map ManifestNode.signingPubkey)[i]? = (ch.nodes.map ManifestNode.signingPubkey)[j]? := by
    simp [atI, atJ, same]
  exact different ((List.getElem?_inj (by simpa using bound) valid.distinct).mp repeated)

/-- What the callers promise: a registration uses this node's keys, and a partial's signer is a peer. -/
def StoreOp.Promised (ch : ChannelState) (keys : CandidateKeys) : StoreOp → Prop
  | .registerCandidates requests _ _ _ => ∀ request ∈ requests, request.keys = keys
  | .acceptPartial p _ => p.signer ≠ ch.nodeId
  | _ => True

/-- What the signature libraries are assumed to do with sizes: a DER signature has at most 72 bytes, and a
new entry of at most that size takes its bytes plus 37 in the serialized PSBT. -/
structure Library.SizedEntries (lib : Library) (nodes : List ManifestNode) : Prop where
  der : ∀ der sig, lib.fromDer der = some sig → sig.length ≤ maxEcdsaDerBytes
  entry : ∀ (psbt : Psbt) (i : Nat) (input : PsbtInput), psbt.inputs[i]? = some input →
    ∀ node ∈ nodes, input.partialSigs.lookup node.signingPubkey = none →
    ∀ sig : Bytes, sig.length ≤ maxEcdsaDerBytes →
    lib.serializedLen { psbt with inputs := psbt.inputs.modify i (fun input =>
      { input with partialSigs := input.partialSigs.insert node.signingPubkey ⟨sig, sighashAll⟩ }) } =
      lib.serializedLen psbt + psbtPartialSigFixedBytes + sig.length

/-- Under a peer's key there is an entry only where that peer's partial was kept. -/
def SigningVariant.Stripped (ch : ChannelState) (v : SigningVariant) : Prop :=
  ∀ i input, v.psbt.inputs[i]? = some input → ∀ k node, ch.nodes[k]? = some node → k ≠ ch.nodeId →
    v.partials.lookup (i, k) = none → input.partialSigs.lookup node.signingPubkey = none

/-- The growth the slot of input `i` and signer `k` may still cause. -/
def slotReserve (ch : ChannelState) (v : SigningVariant) (i k : Nat) : Nat :=
  if k ≠ ch.nodeId ∧ v.partials.lookup (i, k) = none then
    psbtPartialSigFixedBytes + 2 * maxEcdsaDerBytes
  else 0

def variantReserve (ch : ChannelState) (v : SigningVariant) : Nat :=
  ∑ slot ∈ Finset.range v.psbt.inputs.length ×ˢ Finset.range ch.nodes.length, slotReserve ch v slot.1 slot.2

/-- The candidate has been charged for everything its peers may still send. -/
structure Candidate.Roomy (ch : ChannelState) (c : Candidate) : Prop where
  room : c.bytes + (c.variants.map (variantReserve ch)).sum ≤ c.capacityBytes
  covers : (c.variants.map (fun v => ch.lib.serializedLen v.psbt)).sum ≤ c.bytes
  stripped : ∀ v ∈ c.variants, v.Stripped ch

theorem Candidate.SameStock.roomy {ch : ChannelState} {earlier later : Candidate}
    (same : earlier.SameStock later) (roomy : earlier.Roomy ch) : later.Roomy ch := by
  refine ⟨?_, ?_, ?_⟩
  · rw [same.variants, same.bytes, same.capacityBytes]
    exact roomy.room
  · rw [same.variants, same.bytes]
    exact roomy.covers
  · rw [same.variants]
    exact roomy.stripped

theorem variant_eq (c : Candidate) (rung : Nat) : c.variant rung = c.variants[rung]? := by
  cases rung with
  | zero => rfl
  | succ bump => rfl

theorem variants_setVariant (c : Candidate) (rung : Nat) (v : SigningVariant) :
    (c.setVariant rung v).variants = c.variants.set rung v := by
  cases rung with
  | zero => rfl
  | succ bump => rfl

/-- The checks, passed. -/
structure Checked (ch : ChannelState) (c : Candidate) (p : ParsedPartial) (rung : Nat)
    (variant : SigningVariant) (node : ManifestNode) (sighash sig : Bytes) : Prop where
  routed : c.rungOfTxid p.txid = some rung
  held : c.variants[rung]? = some variant
  bound : p.userSigHash = variant.userSigHash
  digest : variant.sighashes[p.input]? = some sighash
  input : ∃ input, variant.psbt.inputs[p.input]? = some input
  signer : ch.nodes[p.signer]? = some node
  parsed : ch.lib.fromDer p.der = some sig
  verified : ch.lib.verifyEcdsa sighash sig node.signingPubkey = true

theorem checkPartial_ok {ch : ChannelState} {c : Candidate} {p : ParsedPartial} {rung : Nat}
    {variant : SigningVariant} {expected : PublicKey} {sig : Bytes}
    (passed : checkPartial ch.lib c p ch.nodes = .ok (rung, variant, expected, sig)) :
    ∃ node sighash, expected = node.signingPubkey ∧ Checked ch c p rung variant node sighash sig := by
  unfold checkPartial at passed
  cases routed : c.rungOfTxid p.txid with
  | none => simp [routed] at passed
  | some rung' =>
    cases held : c.variant rung' with
    | none => simp [routed, held] at passed
    | some variant' =>
      simp only [routed, held] at passed
      split_ifs at passed with bound
      cases sighash : variant'.sighashes[p.input]? with
      | none => simp [sighash] at passed
      | some digest =>
        cases input : variant'.psbt.inputs[p.input]? with
        | none => simp [sighash, input] at passed
        | some psbtInput =>
          cases signer : ch.nodes[p.signer]? with
          | none => simp [sighash, input, signer] at passed
          | some node =>
            cases parsed : ch.lib.fromDer p.der with
            | none => simp [sighash, input, signer, parsed] at passed
            | some der =>
              simp only [sighash, input, signer, parsed] at passed
              split_ifs at passed with verified
              simp only [Except.ok.injEq, Prod.mk.injEq] at passed
              obtain ⟨rfl, rfl, rfl, rfl⟩ := passed
              refine ⟨node, digest, rfl, ⟨routed, ?_, by simpa using bound, sighash, ⟨psbtInput, input⟩, signer,
                parsed, verified⟩⟩
              rw [← variant_eq]
              exact held

/-- The rung after an import. -/
def importedVariant (p : ParsedPartial) (variant : SigningVariant) (expected : PublicKey) (sig : Bytes) :
    SigningVariant :=
  { variant with
    psbt := { variant.psbt with
      inputs := variant.psbt.inputs.modify p.input (fun input =>
        { input with partialSigs := input.partialSigs.insert expected ⟨sig, sighashAll⟩ }) }
    partials := variant.partials.insert (p.input, p.signer) sig }

theorem importPartial_variants (lib : Library) (c : Candidate) (p : ParsedPartial) (rung : Nat)
    (variant : SigningVariant) (expected : PublicKey) (sig : Bytes) :
    (importPartial lib c p rung variant expected sig).variants =
      c.variants.set rung (importedVariant p variant expected sig) := by
  rw [← variants_setVariant]
  rfl

theorem importedVariant_input {p : ParsedPartial} {variant : SigningVariant} {expected : PublicKey} {sig : Bytes}
    {i : Nat} {input : PsbtInput} (found : (importedVariant p variant expected sig).psbt.inputs[i]? = some input) :
    ∃ old, variant.psbt.inputs[i]? = some old ∧ (i ≠ p.input ∧ input = old ∨
      i = p.input ∧ input = { old with partialSigs := old.partialSigs.insert expected ⟨sig, sighashAll⟩ }) := by
  simp only [importedVariant, List.getElem?_modify] at found
  obtain ⟨old, present, becomes⟩ := Option.map_eq_some_iff.mp found
  refine ⟨old, present, ?_⟩
  by_cases here : p.input = i
  · exact Or.inr ⟨here.symm, by simpa [here] using becomes.symm⟩
  · exact Or.inl ⟨fun same => here same.symm, by simpa [here] using becomes.symm⟩

theorem stripped_imported {ch : ChannelState} {keys : CandidateKeys} (valid : ch.Validated keys)
    {c : Candidate} {p : ParsedPartial} {rung : Nat} {variant : SigningVariant} {node : ManifestNode}
    {sighash sig : Bytes} (checked : Checked ch c p rung variant node sighash sig)
    (stripped : variant.Stripped ch) : (importedVariant p variant node.signingPubkey sig).Stripped ch := by
  intro i input found k other atK peer empty
  have elsewhere : (i, k) ≠ (p.input, p.signer) := by
    intro same
    rw [importedVariant, same, AList.lookup_insert] at empty
    cases empty
  have unkept : variant.partials.lookup (i, k) = none := by
    rwa [importedVariant, AList.lookup_insert_ne elsewhere] at empty
  obtain ⟨old, present, ⟨_, same⟩ | ⟨here, same⟩⟩ := importedVariant_input found
  · rw [same]
    exact stripped i old present k other atK peer unkept
  · have differs : k ≠ p.signer := by
      intro equal
      exact elsewhere (by rw [here, equal])
    have key : other.signingPubkey ≠ node.signingPubkey := valid.key_ne atK checked.signer differs
    rw [same]
    exact (AList.lookup_insert_ne key).trans (stripped i old present k other atK peer unkept)

/-- The first partial of a slot uses up what was reserved for it. -/
theorem variantReserve_imported {ch : ChannelState} {c : Candidate} {p : ParsedPartial} {rung : Nat}
    {variant : SigningVariant} {node : ManifestNode} {sighash sig : Bytes}
    (checked : Checked ch c p rung variant node sighash sig) (peer : p.signer ≠ ch.nodeId)
    (first : variant.partials.lookup (p.input, p.signer) = none) :
    variantReserve ch (importedVariant p variant node.signingPubkey sig) +
      (psbtPartialSigFixedBytes + 2 * maxEcdsaDerBytes) = variantReserve ch variant := by
  obtain ⟨input, present⟩ := checked.input
  have row : p.input < variant.psbt.inputs.length := (List.getElem?_eq_some_iff.mp present).1
  have column : p.signer < ch.nodes.length := (List.getElem?_eq_some_iff.mp checked.signer).1
  have same : (importedVariant p variant node.signingPubkey sig).psbt.inputs.length = variant.psbt.inputs.length :=
    List.length_modify _ _ _
  have slot : (p.input, p.signer) ∈ Finset.range variant.psbt.inputs.length ×ˢ Finset.range ch.nodes.length := by
    simp [row, column]
  have others : ∀ other ∈ (Finset.range variant.psbt.inputs.length ×ˢ Finset.range ch.nodes.length).erase
      (p.input, p.signer), slotReserve ch (importedVariant p variant node.signingPubkey sig) other.1 other.2 =
        slotReserve ch variant other.1 other.2 := by
    intro other member
    have elsewhere : (other.1, other.2) ≠ (p.input, p.signer) := (Finset.mem_erase.mp member).1
    simp only [slotReserve, importedVariant, AList.lookup_insert_ne elsewhere]
  have here : slotReserve ch (importedVariant p variant node.signingPubkey sig) p.input p.signer = 0 := by
    simp [slotReserve, importedVariant]
  have due : slotReserve ch variant p.input p.signer = psbtPartialSigFixedBytes + 2 * maxEcdsaDerBytes := by
    simp [slotReserve, peer, first]
  unfold variantReserve
  rw [same, ← Finset.add_sum_erase _ _ slot, ← Finset.add_sum_erase _ _ slot, here, due,
    Finset.sum_congr rfl others]
  omega

theorem roomy_importPartial {ch : ChannelState} {keys : CandidateKeys} (valid : ch.Validated keys)
    (sized : Library.SizedEntries ch.lib ch.nodes) {c : Candidate} {p : ParsedPartial} {rung : Nat}
    {variant : SigningVariant} {node : ManifestNode} {sighash sig : Bytes}
    (checked : Checked ch c p rung variant node sighash sig) (peer : p.signer ≠ ch.nodeId)
    (first : variant.partials.lookup (p.input, p.signer) = none) (fits : c.capacityBytes < maxWord)
    (roomy : c.Roomy ch) : (importPartial ch.lib c p rung variant node.signingPubkey sig).Roomy ch := by
  have member : variant ∈ c.variants := List.mem_of_getElem? checked.held
  have stripped : variant.Stripped ch := roomy.stripped variant member
  obtain ⟨input, present⟩ := checked.input
  have short : sig.length ≤ maxEcdsaDerBytes := sized.der p.der sig checked.parsed
  have listed : node ∈ ch.nodes := List.mem_of_getElem? checked.signer
  have vacant : input.partialSigs.lookup node.signingPubkey = none :=
    stripped p.input input present p.signer node checked.signer peer first
  have grown : ch.lib.serializedLen (importedVariant p variant node.signingPubkey sig).psbt =
      ch.lib.serializedLen variant.psbt + psbtPartialSigFixedBytes + sig.length :=
    sized.entry variant.psbt p.input input present node listed vacant sig short
  have used := variantReserve_imported checked peer first
  have owed : variantReserve ch variant ≤ (c.variants.map (variantReserve ch)).sum :=
    weight_le_sum (variantReserve ch) member
  have inside : ch.lib.serializedLen variant.psbt ≤ (c.variants.map (fun v => ch.lib.serializedLen v.psbt)).sum :=
    weight_le_sum (fun v : SigningVariant => ch.lib.serializedLen v.psbt) member
  have room := roomy.room
  have covers := roomy.covers
  -- The reserve of the slot is part of the charge, so no saturation is reached.
  have bytes : (importPartial ch.lib c p rung variant node.signingPubkey sig).bytes =
      c.bytes + psbtPartialSigFixedBytes + 2 * sig.length := by
    show satAdd (satAdd (c.bytes - ch.lib.serializedLen variant.psbt)
      (ch.lib.serializedLen (importedVariant p variant node.signingPubkey sig).psbt)) sig.length = _
    rw [satAdd_satAdd, satAdd_eq_of_le (by omega)]
    omega
  have charge : (importPartial ch.lib c p rung variant node.signingPubkey sig).capacityBytes = c.capacityBytes :=
    (steady_importPartial ch.lib c p rung variant node.signingPubkey sig).capacityBytes
  refine ⟨?_, ?_, ?_⟩
  · have reserve := sum_map_set (variantReserve ch) (importedVariant p variant node.signingPubkey sig) checked.held
    rw [importPartial_variants, bytes, charge]
    omega
  · have lengths := sum_map_set (fun v => ch.lib.serializedLen v.psbt)
      (importedVariant p variant node.signingPubkey sig) checked.held
    rw [importPartial_variants, bytes]
    omega
  · intro v inVariants
    rw [importPartial_variants] at inVariants
    rcases List.mem_or_eq_of_mem_set inVariants with old | new
    · exact roomy.stripped v old
    · exact new ▸ stripped_imported valid checked stripped

/-! ### A freshly built candidate -/

theorem build_ok {lib : Library} {spec : CandidateSpec} {keys : CandidateKeys} {c : Candidate}
    (built : Candidate.build lib spec keys = .ok c) :
    SigningVariant.build lib spec.psbt keys = .ok c.base ∧
      spec.escapeBumps.mapM (fun bump => SigningVariant.build lib bump keys) = .ok c.bumps ∧
      c.bytes = (c.variants.map (SigningVariant.bytes lib)).foldl satAdd 0 := by
  unfold Candidate.build at built
  cases base : SigningVariant.build lib spec.psbt keys with
  | error e => simp [base, bind, Except.bind] at built
  | ok variant =>
    cases bumps : spec.escapeBumps.mapM (fun bump => SigningVariant.build lib bump keys) with
    | error e => simp [base, bumps, bind, Except.bind] at built
    | ok ladder =>
      simp only [base, bumps, bind, Except.bind, pure, Except.pure, Except.ok.injEq] at built
      subst built
      exact ⟨rfl, rfl, rfl⟩

/-- Every variant of a built candidate was built, from one of its PSBTs, with the same keys. -/
theorem build_variants {lib : Library} {spec : CandidateSpec} {keys : CandidateKeys} {c : Candidate}
    (built : Candidate.build lib spec keys = .ok c) :
    ∀ v ∈ c.variants, ∃ psbt ∈ spec.psbt :: spec.escapeBumps, SigningVariant.build lib psbt keys = .ok v := by
  obtain ⟨base, bumps, _⟩ := build_ok built
  have ladder : ∀ (psbts : List Psbt) (vs : List SigningVariant),
      psbts.mapM (fun bump => SigningVariant.build lib bump keys) = .ok vs →
      ∀ v ∈ vs, ∃ psbt ∈ psbts, SigningVariant.build lib psbt keys = .ok v := by
    intro psbts
    induction psbts with
    | nil =>
      intro vs made v member
      simp only [List.mapM_nil, pure, Except.pure, Except.ok.injEq] at made
      subst made
      cases member
    | cons psbt rest ih =>
      intro vs made v member
      rw [List.mapM_cons] at made
      cases first : SigningVariant.build lib psbt keys with
      | error e => simp [first, bind, Except.bind] at made
      | ok head =>
        cases others : rest.mapM (fun bump => SigningVariant.build lib bump keys) with
        | error e => simp [first, others, bind, Except.bind] at made
        | ok tail =>
          simp only [first, others, bind, Except.bind, pure, Except.pure, Except.ok.injEq] at made
          subst made
          rcases List.mem_cons.mp member with same | later
          · exact ⟨psbt, List.mem_cons_self, same ▸ first⟩
          · obtain ⟨source, listed, from'⟩ := ih tail others v later
            exact ⟨source, List.mem_cons_of_mem _ listed, from'⟩
  intro v member
  rcases List.mem_cons.mp member with same | later
  · exact ⟨spec.psbt, List.mem_cons_self, same ▸ base⟩
  · obtain ⟨psbt, listed, made⟩ := ladder _ _ bumps v later
    exact ⟨psbt, List.mem_cons_of_mem _ listed, made⟩

theorem variant_build_ok {lib : Library} {psbt : Psbt} {keys : CandidateKeys} {v : SigningVariant}
    (built : SigningVariant.build lib psbt keys = .ok v) :
    v.psbt = { psbt with inputs := psbt.inputs.map (SigningVariant.canonicalInput keys) } ∧ v.partials = ∅ ∧
      ∃ digests, SigningVariant.inputDigests lib keys v.psbt.unsignedTx 0 v.psbt.inputs = .ok digests ∧
        v.sighashes = digests.map Prod.fst := by
  unfold SigningVariant.build at built
  simp only at built
  cases digests : SigningVariant.inputDigests lib keys psbt.unsignedTx 0
      (psbt.inputs.map (SigningVariant.canonicalInput keys)) with
  | error e => simp [digests, bind, Except.bind] at built
  | ok list =>
    simp only [digests, bind, Except.bind, pure, Except.pure, Except.ok.injEq] at built
    subst built
    exact ⟨rfl, rfl, list, digests, rfl⟩

/-- Building strips whatever a request planted under a peer's key. -/
theorem stripped_build {ch : ChannelState} {keys : CandidateKeys} (valid : ch.Validated keys) {psbt : Psbt}
    {v : SigningVariant} (built : SigningVariant.build ch.lib psbt keys = .ok v) : v.Stripped ch := by
  obtain ⟨canonical, _, _⟩ := variant_build_ok built
  intro i input found k node atK peer _
  obtain ⟨own, atOwn, ownKey⟩ := valid.own
  rw [canonical] at found
  simp only [List.getElem?_map] at found
  obtain ⟨old, _, rfl⟩ := Option.map_eq_some_iff.mp found
  have notSelf : node.signingPubkey ≠ keys.selfSigningPubkey := ownKey ▸ valid.key_ne atK atOwn peer
  have notUser : node.signingPubkey ≠ keys.userPubkey := valid.user node (List.mem_of_getElem? atK)
  simp [SigningVariant.canonicalInput, notSelf, notUser]

/-- What registration charges for one node's entry on one input. -/
def entryRoom (selfNodeId : Nat) (input : PsbtInput) (node : ManifestNode) : Nat :=
  psbtPartialSigFixedBytes + maxEcdsaDerBytes - ((input.partialSigs.lookup node.signingPubkey).elim 0
    (fun sig => psbtPartialSigFixedBytes + sig.der.length)) +
    if node.nodeId ≠ selfNodeId then maxEcdsaDerBytes else 0

def variantRoom (ch : ChannelState) (v : SigningVariant) : Nat :=
  (v.psbt.inputs.map (fun input => (ch.nodes.map (entryRoom ch.nodeId input)).sum)).sum

theorem entryReserve_eq (selfNodeId : Nat) (input : PsbtInput) (node : ManifestNode) (capacity : Nat) :
    Candidate.entryReserve selfNodeId input node capacity = satAdd capacity (entryRoom selfNodeId input node) := by
  unfold Candidate.entryReserve entryRoom
  cases input.partialSigs.lookup node.signingPubkey with
  | none =>
    simp only [Option.elim_none]
    split_ifs
    · rw [satAdd_satAdd]
    · rfl
  | some sig =>
    simp only [Option.elim_some]
    split_ifs
    · rw [satAdd_satAdd]
    · rfl

theorem reservePartialCapacity_eq (ch : ChannelState) {c : Candidate} (word : c.bytes ≤ maxWord) :
    (c.reservePartialCapacity ch.nodes ch.nodeId).capacityBytes =
      satAdd c.bytes (c.variants.map (variantRoom ch)).sum := by
  refine foldl_eq_satAdd (fun total v bounded => ?_) c.variants c.bytes word
  refine foldl_eq_satAdd (fun total input bounded => ?_) v.psbt.inputs total bounded
  exact foldl_eq_satAdd (fun total node _ => entryReserve_eq ch.nodeId input node total) ch.nodes total bounded

/-- A stripped variant is charged for every slot that is still open. -/
theorem variantReserve_le_room {ch : ChannelState} {keys : CandidateKeys} (valid : ch.Validated keys)
    {v : SigningVariant} (stripped : v.Stripped ch) :
    variantReserve ch v ≤ variantRoom ch v := by
  unfold variantReserve variantRoom
  rw [Finset.sum_product, sum_map_eq_sum_range]
  refine Finset.sum_le_sum (fun i row => ?_)
  obtain ⟨input, atI⟩ : ∃ input, v.psbt.inputs[i]? = some input :=
    ⟨_, List.getElem?_eq_getElem (Finset.mem_range.mp row)⟩
  rw [atI, Option.elim_some, sum_map_eq_sum_range]
  refine Finset.sum_le_sum (fun k column => ?_)
  obtain ⟨node, atK⟩ : ∃ node, ch.nodes[k]? = some node :=
    ⟨_, List.getElem?_eq_getElem (Finset.mem_range.mp column)⟩
  rw [atK, Option.elim_some]
  unfold slotReserve entryRoom
  split_ifs with due self self
  · rw [stripped i input atI k node atK due.1 due.2, Option.elim_none]
    simp only [psbtPartialSigFixedBytes, maxEcdsaDerBytes]
    omega
  · rw [valid.indexed k node atK] at self
    exact absurd due.1 self
  · exact Nat.zero_le _
  · exact Nat.zero_le _

theorem roomy_build {ch : ChannelState} {keys : CandidateKeys} (valid : ch.Validated keys)
    {spec : CandidateSpec} {c : Candidate} (built : Candidate.build ch.lib spec keys = .ok c)
    (fits : (c.reservePartialCapacity ch.nodes ch.nodeId).capacityBytes < maxWord) :
    (c.reservePartialCapacity ch.nodes ch.nodeId).Roomy ch := by
  obtain ⟨_, _, bytes⟩ := build_ok built
  have summed : c.bytes = satAdd 0 (c.variants.map (SigningVariant.bytes ch.lib)).sum := by
    rw [bytes]
    have folded : (c.variants.map (SigningVariant.bytes ch.lib)).foldl satAdd 0 =
        satAdd 0 ((c.variants.map (SigningVariant.bytes ch.lib)).map id).sum :=
      foldl_eq_satAdd (fun _ _ _ => rfl) _ 0 (Nat.zero_le _)
    rwa [List.map_id] at folded
  have word : c.bytes ≤ maxWord := summed ▸ satAdd_le_maxWord _ _
  have charge := reservePartialCapacity_eq ch word
  have exact' : satAdd c.bytes (c.variants.map (variantRoom ch)).sum =
      c.bytes + (c.variants.map (variantRoom ch)).sum := satAdd_eq_of_lt (charge ▸ fits)
  have stripped : ∀ v ∈ c.variants, v.Stripped ch := by
    intro v member
    obtain ⟨psbt, _, made⟩ := build_variants built v member
    exact stripped_build valid made
  refine ⟨?_, ?_, stripped⟩
  · have owed : (c.variants.map (variantReserve ch)).sum ≤ (c.variants.map (variantRoom ch)).sum := by
      apply List.sum_le_sum
      intro v member
      exact variantReserve_le_room valid (stripped v member)
    show c.bytes + (c.variants.map (variantReserve ch)).sum ≤ _
    omega
  · have small : satAdd 0 (c.variants.map (SigningVariant.bytes ch.lib)).sum =
        0 + (c.variants.map (SigningVariant.bytes ch.lib)).sum := satAdd_eq_of_lt (by omega)
    have parts : (c.variants.map (fun v => ch.lib.serializedLen v.psbt)).sum ≤
        (c.variants.map (SigningVariant.bytes ch.lib)).sum := by
      apply List.sum_le_sum
      intro v _
      unfold SigningVariant.bytes
      omega
    show (c.variants.map (fun v => ch.lib.serializedLen v.psbt)).sum ≤ c.bytes
    omega

/-! ### The accounting of a run -/

theorem roomy_step {ch : ChannelState} {keys : CandidateKeys} (valid : ch.Validated keys)
    (sized : Library.SizedEntries ch.lib ch.nodes) {s : PartialStore} {op : StoreOp}
    (promised : op.Promised ch keys) (balanced : Balanced s)
    (roomy : Every (fun _ c => c.Roomy ch) s.candidates) :
    Every (fun _ c => c.Roomy ch) (storeStep ch s op).1.candidates := by
  intro id later found
  rcases storeStep_stock found with ⟨earlier, present, same⟩ |
    ⟨p, now, earlier, rung, variant, expected, sig, rfl, rfl, present, checked, first, rfl⟩ |
    ⟨_, requests, arm, hotReserve, monoNow, request, c, rfl, asked, built, same⟩
  · exact same.roomy (roomy id earlier present)
  · obtain ⟨node, sighash, rfl, passed⟩ := checkPartial_ok checked
    exact roomy_importPartial valid sized passed promised first (balanced.charged present)
      (roomy _ earlier present)
  · rw [promised request asked] at built
    have fits := (balanced_step ch s _ balanced).charged found
    exact same.roomy (roomy_build valid built (same.capacityBytes ▸ fits))

/-- `register_candidate`: one candidate, with its reserve. -/
def registerCandidate (ch : ChannelState) (s : PartialStore) (c : Candidate) : PartialStore × RegisterOutcome :=
  s.register (c.reservePartialCapacity ch.nodes ch.nodeId)

/-- The store's operations, and the registration of a single candidate. -/
inductive RegistryOp where
  | registerCandidate (request : CandidateRequest)
  | store (op : StoreOp)

def registryStep (ch : ChannelState) (s : PartialStore) : RegistryOp → PartialStore × Unit
  | .registerCandidate request =>
    match Candidate.build ch.lib request.spec request.keys with
    | .error _ => (s, ())
    | .ok c => ((registerCandidate ch s c).1, ())
  | .store op => ((storeStep ch s op).1, ())

def RegistryOp.Promised (ch : ChannelState) (keys : CandidateKeys) : RegistryOp → Prop
  | .registerCandidate request => request.keys = keys
  | .store op => op.Promised ch keys

def registryAfter (ch : ChannelState) (config : StoreConfig) (ops : List RegistryOp) : PartialStore :=
  exec (registryStep ch) (initialStore config) ops

/-- Balanced within the configured limits, with room in every candidate. -/
structure Solvent (ch : ChannelState) (config : StoreConfig) (s : PartialStore) : Prop where
  balanced : Balanced s
  maxBytes : s.maxBytes = config.maxBytes
  maxActiveCandidates : s.maxActiveCandidates = config.maxActiveCandidates
  roomy : Every (fun _ c => c.Roomy ch) s.candidates

theorem solvent_step {ch : ChannelState} {keys : CandidateKeys} (valid : ch.Validated keys)
    (sized : Library.SizedEntries ch.lib ch.nodes) {config : StoreConfig} (s : PartialStore) (op : RegistryOp)
    (promised : op.Promised ch keys) (solvent : Solvent ch config s) :
    Solvent ch config (registryStep ch s op).1 := by
  obtain ⟨balanced, maxBytes, maxActive, roomy⟩ := solvent
  cases op with
  | store op =>
    have limits := limits_step ch s op
    exact ⟨balanced_step ch s op balanced, limits.1.trans maxBytes, limits.2.trans maxActive,
      roomy_step valid sized promised balanced roomy⟩
  | registerCandidate request =>
    simp only [registryStep]
    cases built : Candidate.build ch.lib request.spec request.keys with
    | error e => exact ⟨balanced, maxBytes, maxActive, roomy⟩
    | ok c =>
      have enrolled := enrolled_register s (c.reservePartialCapacity ch.nodes ch.nodeId)
      have after := enrolled.balance balanced
      refine ⟨after, enrolled.maxBytes.trans maxBytes, enrolled.maxActiveCandidates.trans maxActive, ?_⟩
      intro id later found
      rcases enrolled.stock id later found with ⟨earlier, present, same⟩ | ⟨_, new, member, _, same⟩
      · exact same.roomy (roomy id earlier present)
      · rw [List.mem_singleton] at member
        subst member
        rw [show request.keys = keys from promised] at built
        exact same.roomy (roomy_build valid built (same.capacityBytes ▸ after.charged found))

/-- The accounting of every run: the charge is the exact sum over the residents, both limits hold, and no
resident outgrows what it was charged. -/
theorem store_accounting {ch : ChannelState} {keys : CandidateKeys} (valid : ch.Validated keys)
    (sized : Library.SizedEntries ch.lib ch.nodes) {config : StoreConfig} (signed : config.maxBytes < 2 ^ 63)
    (ops : List RegistryOp) (promised : ∀ op ∈ ops, op.Promised ch keys) :
    (registryAfter ch config ops).reservedBytes =
        total Candidate.capacityBytes (registryAfter ch config ops).candidates ∧
      (registryAfter ch config ops).reservedBytes ≤ config.maxBytes ∧
      size (registryAfter ch config ops).candidates ≤ config.maxActiveCandidates ∧
      ∀ id c, (registryAfter ch config ops).candidates.lookup id = some c → c.bytes ≤ c.capacityBytes := by
  have start : Solvent ch config (initialStore config) := by
    refine ⟨⟨rfl, Nat.zero_le _, Nat.zero_le _, ?_⟩, rfl, rfl, Every.empty _⟩
    show config.maxBytes < maxWord
    unfold maxWord
    omega
  obtain ⟨balanced, maxBytes, maxActive, roomy⟩ : Solvent ch config (registryAfter ch config ops) :=
    exec_invariant_of (registryStep ch) (RegistryOp.Promised ch keys) (Solvent ch config)
      (fun s op ok solvent => solvent_step valid sized s op ok solvent) _ start ops promised
  refine ⟨balanced.exact, maxBytes ▸ balanced.bytes, maxActive ▸ balanced.count, ?_⟩
  intro id c found
  have room := (roomy id c found).room
  omega

namespace Sample

/-- As `library`, with the sizes of real entries: 37 bytes and the signature. -/
def sizedLibrary : Library :=
  { library with
    fromDer := fun der => if der.length ≤ 72 then some der else none
    serializedLen := fun psbt => 100 + (psbt.inputs.map (fun input =>
      total (fun sig : EcdsaSignature => 37 + sig.der.length) input.partialSigs)).sum }

def sizedChannel : ChannelState := { channel with lib := sizedLibrary }

theorem sizedChannel_valid : sizedChannel.Validated keys := by
  refine ⟨?_, by decide, ⟨⟨0, nodeKey 0⟩, by decide⟩, by decide⟩
  intro i node found
  match i with
  | 0 => cases found; rfl
  | 1 => cases found; rfl
  | 2 => cases found; rfl
  | _ + 3 => cases found

theorem sizedLibrary_entries : Library.SizedEntries sizedLibrary sizedChannel.nodes := by
  refine ⟨?_, ?_⟩
  · intro der sig parsed
    simp only [sizedLibrary] at parsed
    split_ifs at parsed with short
    cases parsed
    exact short
  · intro psbt i input found node _ vacant sig _
    have grown := sum_map_modify (fun input : PsbtInput =>
      total (fun sig : EcdsaSignature => 37 + sig.der.length) input.partialSigs)
      (fun input => { input with partialSigs := input.partialSigs.insert node.signingPubkey ⟨sig, sighashAll⟩ }) found
    simp only [total_insert_absent vacant] at grown
    simp only [sizedLibrary, psbtPartialSigFixedBytes]
    omega

/-- The partial of `signer` on the only input of the spend at lock time 10. -/
def partialOf (signer : Nat) : ParsedPartial :=
  ⟨"a", leBytes 32 10, leBytes 32 7, 0, signer, List.replicate 72 0⟩

/-- The spend is registered and both peers deliver the longest partial there is. -/
def filledRun : List RegistryOp :=
  [.registerCandidate (spend "a" "a-escape" 1 10 true (some ⟨100, 300⟩) 900),
    .store (.acceptPartial (partialOf 1) 50), .store (.acceptPartial (partialOf 2) 50)]

end Sample

theorem store_accounting_sample :
    (registryAfter Sample.sizedChannel Sample.config Sample.filledRun).reservedBytes =
        total Candidate.capacityBytes (registryAfter Sample.sizedChannel Sample.config Sample.filledRun).candidates ∧
      (registryAfter Sample.sizedChannel Sample.config Sample.filledRun).reservedBytes ≤ 1000000 ∧
      size (registryAfter Sample.sizedChannel Sample.config Sample.filledRun).candidates ≤ 16 ∧
      ∀ id c, (registryAfter Sample.sizedChannel Sample.config Sample.filledRun).candidates.lookup id = some c →
        c.bytes ≤ c.capacityBytes := by
  refine store_accounting Sample.sizedChannel_valid Sample.sizedLibrary_entries (by decide) Sample.filledRun ?_
  intro op member
  simp only [Sample.filledRun, List.mem_cons, List.not_mem_nil, or_false] at member
  rcases member with rfl | rfl | rfl
  · rfl
  · show (1 : Nat) ≠ 0
    decide
  · show (2 : Nat) ≠ 0
    decide

/-- The reserve has no second copy for this node's own signature: once the peers' partials have used up theirs,
a verified partial under its own id would overrun the charge. -/
theorem own_partial_outgrows_charge :
    Library.SizedEntries Sample.sizedChannel.lib Sample.sizedChannel.nodes ∧
      ((registryAfter Sample.sizedChannel Sample.config
        (Sample.filledRun ++ [.store (.acceptPartial (Sample.partialOf 0) 50)])).candidates.lookup "a").any
          (fun c => decide (c.capacityBytes < c.bytes)) = true :=
  ⟨Sample.sizedLibrary_entries, by decide⟩

end BtcPolicy.Channel
