import BtcPolicy.Channel.Arming

/-! The release gate over whole runs: what a release proves about its candidate, who opened the candidate's
holder gate, and that a rung leaves once for each residency. -/

namespace BtcPolicy.Channel
open FiniteMap Word Bitcoin HotLedger Runs PartialStore

/-! ### What a release contains -/

theorem mem_rungs {variants : List SigningVariant} {first last rung : Nat} {variant : SigningVariant} :
    (variant, rung) ∈ ((variants.zipIdx).take (last + 1)).drop first ↔
      first ≤ rung ∧ rung ≤ last ∧ variants[rung]? = some variant := by
  rw [List.mem_iff_getElem?]
  simp only [List.getElem?_drop, List.getElem?_take, List.getElem?_zipIdx, Nat.zero_add]
  constructor
  · rintro ⟨index, found⟩
    split_ifs at found with inside
    obtain ⟨other, present, same⟩ := Option.map_eq_some_iff.mp found
    cases same
    exact ⟨by omega, by omega, present⟩
  · rintro ⟨lower, upper, present⟩
    refine ⟨rung - first, ?_⟩
    have index : first + (rung - first) = rung := by omega
    rw [index, if_pos (by omega), present]
    rfl

theorem variantItems_rung {ch : ChannelState} {id : String} {role : CandidateRole} {signer : PublicKey}
    {rung : Nat} {variant : SigningVariant} {item : ReleaseItem}
    (member : item ∈ variantItems ch id role signer rung variant) : item.rung = rung := by
  obtain ⟨entry, _, made⟩ := List.mem_filterMap.mp member
  obtain ⟨sig, _, same⟩ := Option.map_eq_some_iff.mp made
  rw [← same]

theorem releaseItems_rung {ch : ChannelState} {id : String} {c : Candidate} {signer : PublicKey}
    {first last : Nat} {item : ReleaseItem} (member : item ∈ releaseItems ch id c signer first last) :
    first ≤ item.rung ∧ item.rung ≤ last := by
  obtain ⟨⟨variant, rung⟩, listed, inside⟩ := List.mem_flatMap.mp member
  obtain ⟨lower, upper, _⟩ := mem_rungs.mp listed
  rw [variantItems_rung inside]
  exact ⟨lower, upper⟩

/-- A release that answered carries its candidate, its window, and the mark it left. -/
theorem released_of_reply {ch : ChannelState} {s : PartialStore} {id : String} {now : Nat} {release : Release}
    (out : (storeStep ch s (.releasePartials id now)).2 = .released (some release)) :
    ∃ node c window, ch.nodes[ch.nodeId]? = some node ∧ s.candidates.lookup id = some c ∧
      Released ch s c now window ∧
      release.items = releaseItems ch id c node.signingPubkey (releaseFrom c) (releaseThrough ch c) ∧
      (storeStep ch s (.releasePartials id now)).1 = s.updateCandidate id (markReleased ch) := by
  obtain same | ⟨node, c, window, self, found, gate, same⟩ := releasePartials_cases ch s id now
  · simp [storeStep, same] at out
  · simp only [storeStep, same, StoreReply.released.injEq, Option.some.injEq] at out
    exact ⟨node, c, window, self, found, gate, by rw [← out], by simp [storeStep, same]⟩

/-! ### The holder gate's history -/

/-- `op` registers `id` already holder-confirmed, as a refresh is. -/
def BornConfirmed (id : String) (op : StoreOp) : Prop :=
  ∃ requests arm hotReserve monoNow, op = .registerCandidates requests arm hotReserve monoNow ∧
    ∃ request ∈ requests, request.spec.commitmentId = id ∧ request.spec.holderQuorumReached = true

/-- `id` is resident with its holder gate open. -/
def GateOpen (id : String) (s : PartialStore) : Prop :=
  ∃ c, s.candidates.lookup id = some c ∧ c.holderQuorumReached = true

theorem opened_of_step {ch : ChannelState} {id : String} {s : PartialStore} {op : StoreOp}
    (closed : ¬GateOpen id s) (opened : GateOpen id (storeStep ch s op).1) :
    BornConfirmed id op ∨ Confirms id s op := by
  obtain ⟨later, found, open'⟩ := opened
  rcases storeStep_lookup found with ⟨earlier, present, _, same | confirms⟩ |
    ⟨_, requests, arm, hotReserve, monoNow, same, request, asked, fresh, named⟩
  · exact absurd ⟨earlier, present, same.symm.trans open'⟩ closed
  · exact Or.inr confirms
  · exact Or.inl ⟨requests, arm, hotReserve, monoNow, same, request, asked, named,
      fresh.holderQuorumReached.symm.trans open'⟩

theorem gate_history (ch : ChannelState) (config : StoreConfig) (ops : List StoreOp) (id : String)
    (opened : GateOpen id (storeAfter ch config ops)) :
    HappenedSince (storeStep ch) (fun s op => BornConfirmed id op ∨ Confirms id s op) (GateOpen id)
      (initialStore config) ops := by
  refine happenedSince_of_established (storeStep ch) (fun _ => True) (GateOpen id)
    (fun s op => BornConfirmed id op ∨ Confirms id s op) (fun _ _ _ => trivial)
    (fun _ _ _ => opened_of_step) _ trivial ?_ ops opened
  rintro ⟨c, found, _⟩
  cases found

/-! ### Once for each residency -/

/-- `id` is resident and everything through `rung` has left. -/
def ReleasedThrough (id : String) (rung : Nat) (s : PartialStore) : Prop :=
  ∃ c through, s.candidates.lookup id = some c ∧ c.releasedThrough = some through ∧ rung ≤ through

def Resident (id : String) (s : PartialStore) : Prop := (s.candidates.lookup id).isSome = true

theorem releasedThrough_step {ch : ChannelState} {id : String} {rung : Nat} {s : PartialStore} {op : StoreOp}
    (gone : ReleasedThrough id rung s) (resident : Resident id (storeStep ch s op).1) :
    ReleasedThrough id rung (storeStep ch s op).1 := by
  obtain ⟨c, through, present, marked, bound⟩ := gone
  obtain ⟨later, found⟩ := Option.isSome_iff_exists.mp resident
  rcases storeStep_lookup found with ⟨earlier, atEarlier, evolved, _⟩ | ⟨absent, _⟩
  · rw [present] at atEarlier
    cases atEarlier
    obtain ⟨further, still, more⟩ := evolved.releasedThrough through marked
    exact ⟨later, further, found, still, bound.trans more⟩
  · rw [present] at absent
    cases absent

theorem releasedThrough_of_release {ch : ChannelState} {id : String} {now : Nat} {s : PartialStore}
    {release : Release} {item : ReleaseItem}
    (out : (storeStep ch s (.releasePartials id now)).2 = .released (some release))
    (member : item ∈ release.items) :
    ReleasedThrough id item.rung (storeStep ch s (.releasePartials id now)).1 := by
  obtain ⟨node, c, window, _, found, _, items, after⟩ := released_of_reply out
  rw [items] at member
  refine ⟨markReleased ch c, releaseThrough ch c, ?_, rfl, (releaseItems_rung member).2⟩
  rw [after, updateCandidate, lookup_adjust_self, found]
  rfl

/-- Every release is gated, attributable and in range, and two releases of one residency share no rung and
input. -/
theorem release_gate (ch : ChannelState) (config : StoreConfig) (ops : List StoreOp) (id : String) (now : Nat)
    (release : Release) (out : replyAfter ch config ops (.releasePartials id now) = .released (some release)) :
    (∃ c window, (storeAfter ch config ops).candidates.lookup id = some c ∧
        c.holderQuorumReached = true ∧
        HappenedSince (storeStep ch) (fun s op => BornConfirmed id op ∨ Confirms id s op) (GateOpen id)
          (initialStore config) ops ∧
        c.fire = some window ∧ window.fireAt ≤ now ∧ now ≤ window.deadline ∧
        ¬((storeAfter ch config ops).armed.active = true ∧ c.hot = true) ∧
        (c.role = .escape → (storeAfter ch config ops).armed.active = true ∧
          (storeAfter ch config ops).armed.sweepActive = true ∧
          (storeAfter ch config ops).armed.escapeCommitmentId = id) ∧
        ∀ item ∈ release.items, c.clampedFloor ≤ item.rung ∧ item.rung ≤ c.authorizedRung) ∧
      ∀ first middle now' release', ops = first ++ .releasePartials id now' :: middle →
        replyAfter ch config first (.releasePartials id now') = .released (some release') →
        (∀ front, front <+: middle →
          Resident id (storeAfter ch config (first ++ .releasePartials id now' :: front))) →
        ∀ item ∈ release.items, ∀ item' ∈ release'.items,
          ¬(item.rung = item'.rung ∧ item.input = item'.input) := by
  obtain ⟨node, c, window, _, found, gate, items, _⟩ := released_of_reply out
  constructor
  · have slot := gate.slot
    have unfrozen := gate.unfrozen
    have inside := gate.inside
    simp only [slotActive, Bool.and_eq_true, Bool.or_eq_true, decide_eq_true_eq] at slot
    simp only [FireWindow.isOpen, Bool.and_eq_true, decide_eq_true_eq] at inside
    have named : c.commitmentId = id := storeAfter_keyed ch config ops id c found
    refine ⟨c, window, found, slot.1, gate_history ch config ops id ⟨c, found, slot.1⟩, gate.scheduled,
      inside.1, inside.2, ?_, ?_, ?_⟩
    · rintro ⟨active, hot⟩
      simp [frozen, active, hot] at unfrozen
    · intro escape
      rcases slot.2 with other | selected
      · exact absurd escape other
      · exact ⟨selected.1.1, selected.1.2, selected.2.trans named⟩
    · intro item member
      rw [items] at member
      obtain ⟨lower, upper⟩ := releaseItems_rung member
      exact ⟨(le_max_right _ _).trans lower, upper.trans (min_le_left _ _)⟩
  · intro first middle now' release' same earlier resident item member item' member'
    -- What left earlier is still marked when the residency reaches this release.
    have gone := releasedThrough_of_release earlier member'
    have still : ReleasedThrough id item'.rung (storeAfter ch config ops) := by
      have through := exec_while (storeStep ch) (ReleasedThrough id item'.rung) (Resident id)
        (fun _ _ => releasedThrough_step) _ gone middle (by
          intro front shorter
          have at' := resident front shorter
          rw [storeAfter_append] at at'
          exact at')
      rw [same, storeAfter_append]
      exact through
    obtain ⟨resident', through, present, marked, bound⟩ := still
    rw [found] at present
    cases present
    rw [items] at member
    have next : firstUnreleased c = through + 1 := by simp [firstUnreleased, marked]
    have lower : firstUnreleased c ≤ item.rung := (le_max_left _ _).trans (releaseItems_rung member).1
    rintro ⟨sameRung, _⟩
    omega

/-- The confirmed spend of the sample federation releases its share at its Hold. -/
theorem release_gate_sample :
    ∃ release, replyAfter Sample.channel Sample.config (Sample.confirmedRun false) (.releasePartials "a" 100) =
        .released (some release) ∧
      HappenedSince (storeStep Sample.channel) (fun s op => BornConfirmed "a" op ∨ Confirms "a" s op)
        (GateOpen "a") (initialStore Sample.config) (Sample.confirmedRun false) := by
  have answers : ((storeAfter Sample.channel Sample.config (Sample.confirmedRun false)).releasePartials
      Sample.channel "a" 100).2.isSome = true := by decide
  obtain ⟨release, out⟩ := Option.isSome_iff_exists.mp answers
  have reply : replyAfter Sample.channel Sample.config (Sample.confirmedRun false) (.releasePartials "a" 100) =
      .released (some release) := congrArg StoreReply.released out
  obtain ⟨_, _, _, _, history, _⟩ := (release_gate Sample.channel Sample.config (Sample.confirmedRun false) "a" 100
    release reply).1
  exact ⟨release, reply, history⟩

end BtcPolicy.Channel
