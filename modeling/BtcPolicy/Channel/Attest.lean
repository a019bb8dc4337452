import BtcPolicy.Channel.Lifecycle

/-! What the registry holds on evidence: the holders an intent counts, the signatures a memo vouches for, the armed
overlay, and the gates that are open. Where every operation comes with evidence for its arguments, none of them is
ever more than was shown. -/

namespace BtcPolicy.Channel
open FiniteMap Word Bitcoin HotLedger Runs PartialStore

/-- What is in evidence of a carrier: who has passed it on, what its pair is called, that a spend of it came under
duress, and the nonce, the expiry and the signature tag of one of its requests. -/
structure Testimony where
  holder : String → Nat → Prop
  names : String → String → String → Prop
  duress : String → Prop
  original : String → String → Nat → Bytes → Prop

/-- There is more in evidence. -/
structure Testimony.Extends (known more : Testimony) : Prop where
  holder : ∀ carrier j, known.holder carrier j → more.holder carrier j
  names : ∀ carrier spend escape, known.names carrier spend escape → more.names carrier spend escape
  duress : ∀ carrier, known.duress carrier → more.duress carrier
  original : ∀ carrier nonce expiry tag, known.original carrier nonce expiry tag →
    more.original carrier nonce expiry tag

section Evidence

variable (ch : ChannelState) (threshold : Nat) (known : Testimony)

/-- As many holders as it takes, this node among them. -/
def Quorum (carrier : String) : Prop :=
  ∃ holders : Finset Nat, threshold ≤ holders.card ∧ ch.nodeId ∈ holders ∧ ∀ j ∈ holders, known.holder carrier j

structure IntentAttested (carrier : String) (intent : ArmIntent) : Prop where
  holders : ∀ j ∈ intent.holders, known.holder carrier j
  ready : intent.readyToPropagate = true → ch.nodeId ∈ intent.holders
  names : intent.spendCommitmentId = "" ∧ intent.escapeCommitmentId = "" ∨
    known.names carrier intent.spendCommitmentId intent.escapeCommitmentId
  duress : intent.duress = true → known.duress carrier

/-- The tag is that of a request of the carrier, or the mark of a derivation that is not finished. -/
def Vouched (carrier nonce : String) (expiry : Nat) (tag : Bytes) : Prop :=
  known.original carrier nonce expiry tag ∨ ∃ other, tag = ch.lib.taggedHash outerStaleClaimTag other

def MemoAttested (nonce : String) (memo : CarrierMemo) : Prop :=
  ∀ carrier remembered resolved, memo.outcome = .derived carrier remembered resolved →
    known.original carrier nonce memo.expiry remembered ∧
      ∀ sender tag, resolved.lookup sender = some tag → Vouched ch known carrier nonce memo.expiry tag

/-- An open gate waits for no one, or the quorum of a carrier that names the candidate has opened it. -/
def GateAttested (id : String) (c : Candidate) : Prop :=
  c.holderQuorumReached = true → c.hot = true ∨ c.role = .escape → id ≠ "" →
    ∃ carrier spend escape, Quorum ch threshold known carrier ∧ known.names carrier spend escape ∧
      id ∈ [spend, escape]

structure Attested (s : PartialStore) : Prop where
  intents : Every (IntentAttested ch known) s.intents
  memos : Every (MemoAttested ch known) s.carriersByNonce
  armed : s.armed.active = true → ∃ carrier, Quorum ch threshold known carrier ∧ known.duress carrier
  gates : Every (GateAttested ch threshold known) s.candidates

/-- The evidence an operation comes with. -/
def Attests : StoreOp → Prop
  | .recordArmIntent duress carrier nonce generation _ _ _ =>
    known.original carrier nonce generation.expiry generation.signatureTag ∧ (duress = true → known.duress carrier)
  | .markCarrierPropagated carrier => known.holder carrier ch.nodeId
  | .recordIntentPair carrier spend escape => known.names carrier spend escape
  | .registerCandidates requests arm _ _ => known.names arm.carrier arm.spendCommitmentId arm.sweepEscape ∧
      ∀ request ∈ requests, request.spec.holderQuorumReached = true →
        request.spec.hot = false ∧ request.spec.role = .spend
  | .recordCarrierDerivationResult nonce _ tag generation carrier =>
    known.original carrier nonce generation.expiry tag
  | .outerStaleCarrier nonce tag expiry _ _ _ step _ => ∀ carrier generation,
      step = .finish carrier generation true → known.original carrier nonce expiry tag
  | .confirmCarrier sender carrier required _ _ _ => known.holder carrier sender ∧ required = threshold
  | _ => True

end Evidence

variable {ch : ChannelState} {threshold : Nat} {known more : Testimony} {s : PartialStore}

/-! ### More evidence does no harm -/

theorem Quorum.mono {carrier : String} (quorum : Quorum ch threshold known carrier) (extends' : known.Extends more) :
    Quorum ch threshold more carrier := by
  obtain ⟨holders, enough, own, each⟩ := quorum
  exact ⟨holders, enough, own, fun j member => extends'.holder carrier j (each j member)⟩

theorem Attested.mono (attested : Attested ch threshold known s) (extends' : known.Extends more) :
    Attested ch threshold more s where
  intents carrier intent found := by
    have old := attested.intents carrier intent found
    exact ⟨fun j member => extends'.holder carrier j (old.holders j member), old.ready,
      old.names.imp_right (extends'.names carrier _ _), fun duress => extends'.duress carrier (old.duress duress)⟩
  memos nonce memo found carrier remembered resolved derived := by
    obtain ⟨original, vouched⟩ := attested.memos nonce memo found carrier remembered resolved derived
    refine ⟨extends'.original _ _ _ _ original, ?_⟩
    intro sender tag present
    exact (vouched sender tag present).imp_left (extends'.original _ _ _ _)
  armed active := by
    obtain ⟨carrier, quorum, duress⟩ := attested.armed active
    exact ⟨carrier, quorum.mono extends', extends'.duress carrier duress⟩
  gates id c found reached waits named := by
    obtain ⟨carrier, spend, escape, quorum, names, member⟩ := attested.gates id c found reached waits named
    exact ⟨carrier, spend, escape, quorum.mono extends', extends'.names _ _ _ names, member⟩

/-! ### The intents -/

theorem intents_addHolder (intents : Every (IntentAttested ch known) s.intents) {sender : Nat} {carrier : String}
    (holds : known.holder carrier sender) : Every (IntentAttested ch known) (s.addHolder sender carrier).intents := by
  apply intents.adjust carrier
  intro intent old
  refine ⟨?_, fun ready => Finset.mem_insert_of_mem (old.ready ready), old.names, old.duress⟩
  intro j member
  rcases Finset.mem_insert.mp member with rfl | earlier
  · exact holds
  · exact old.holders j earlier

theorem intents_attachPair (intents : Every (IntentAttested ch known) s.intents) {carrier spend escape : String}
    (names : known.names carrier spend escape) :
    Every (IntentAttested ch known) (s.attachPair carrier spend escape).intents := by
  apply intents.adjust carrier
  intro intent old
  exact ⟨old.holders, old.ready, .inr names, old.duress⟩

theorem recordArmIntent_shape (s : PartialStore) (duress : Bool) (carrier nonce : String) (generation : MemoGeneration)
    (firstSeen now : Nat) (timing : DuressTiming) :
    let recorded := s.recordArmIntent duress carrier nonce generation firstSeen now timing
    recorded.1.intents = (s.recordIntent duress carrier generation firstSeen).intents ∧
      (recorded.1.carriersByNonce = s.carriersByNonce.insert nonce (generation.derivedMemo carrier) ∨
        recorded.1.carriersByNonce = s.carriersByNonce) := by
  unfold recordArmIntent upgradeMemo
  simp only
  split
  · split_ifs
    · exact ⟨rfl, .inl rfl⟩
    · exact ⟨rfl, .inr rfl⟩
  · exact ⟨rfl, .inl rfl⟩

theorem intents_recordIntent (intents : Every (IntentAttested ch known) s.intents) {duress : Bool} {carrier : String}
    {generation : MemoGeneration} {firstSeen : Nat} (shown : duress = true → known.duress carrier) :
    Every (IntentAttested ch known) (s.recordIntent duress carrier generation firstSeen).intents := by
  apply intents.insert carrier
  cases found : s.intents.lookup carrier with
  | none =>
    refine ⟨fun j member => absurd member (Finset.notMem_empty j), fun ready => (by cases ready), .inl ⟨rfl, rfl⟩, ?_⟩
    intro marked
    exact shown (by simpa [freshIntent] using marked)
  | some intent =>
    have old := intents carrier intent found
    refine ⟨old.holders, old.ready, old.names, ?_⟩
    intro marked
    rcases Bool.or_eq_true_iff.mp marked with earlier | now
    · exact old.duress earlier
    · exact shown now

theorem intents_endCarrierRuling (intents : Every (IntentAttested ch known) s.intents) (carrier : String)
    (monoNow : Nat) : Every (IntentAttested ch known) (s.endCarrierRuling carrier monoNow).intents := by
  have ended : Every (IntentAttested ch known)
      (s.updateIntent carrier (fun intent => { intent with ownerRuling := false })).intents := by
    apply intents.adjust carrier
    intro intent old
    exact ⟨old.holders, old.ready, old.names, old.duress⟩
  obtain ⟨_, same⟩ | ⟨_, _, _, same⟩ | ⟨_, _, _, _, same⟩ := endCarrierRuling_cases s carrier monoNow
  · rw [same]
    exact intents
  · rw [same]
    exact ended.erase carrier
  · rw [same]
    exact ended

theorem intents_confirmCarrier (intents : Every (IntentAttested ch known) s.intents) {sender : Nat} {carrier : String}
    (holds : known.holder carrier sender) (required now : Nat) (timing : DuressTiming) (monoNow : Nat) :
    Every (IntentAttested ch known) (s.confirmCarrier sender carrier required now timing monoNow).1.intents := by
  have counted := intents_addHolder intents holds
  obtain ⟨_, same | same⟩ | ⟨intent, _, same⟩ := confirmCarrier_cases s sender carrier required now timing monoNow
  · rw [same]
    exact intents
  · rw [same]
    exact counted
  · rw [same, confirmed_intents]
    apply Every.erase
    apply counted.adjust carrier
    intro intent old
    exact ⟨old.holders, old.ready, old.names, old.duress⟩

theorem intents_step (op : StoreOp) (attests : Attests ch threshold known op)
    (intents : Every (IntentAttested ch known) s.intents) :
    Every (IntentAttested ch known) (storeStep ch s op).1.intents := by
  by_cases only : op.registryOnly = true
  · rw [(sameSafety_of_registryOnly ch s op only).intents]
    exact intents
  have ofMemos : ∀ {after : PartialStore}, MemoOnly s after → Every (IntentAttested ch known) after.intents := by
    intro after memos
    rw [memos.intents]
    exact intents
  cases op with
  | claimNonceInFlight nonce generation monoNow => exact intents.retain _
  | releaseNonceClaim nonce generation => exact ofMemos (memoOnly_releaseNonceClaim s nonce generation)
  | recordArmIntent duress carrier nonce generation firstSeen now timing =>
    have same := (recordArmIntent_shape s duress carrier nonce generation firstSeen now timing).1
    simp only [storeStep]
    rw [same]
    exact intents_recordIntent intents attests.2
  | endCarrierRuling carrier monoNow => exact intents_endCarrierRuling intents carrier monoNow
  | markCarrierPropagated carrier =>
    apply intents.adjust carrier
    intro intent old
    refine ⟨?_, fun _ => Finset.mem_insert_self _ _, old.names, old.duress⟩
    intro j member
    rcases Finset.mem_insert.mp member with rfl | earlier
    · exact attests
    · exact old.holders j earlier
  | outerStaleCarrier nonce tag expiry deadline sender now step monoNow =>
    exact ofMemos (memoOnly_outerStaleCarrier ch s nonce tag expiry deadline sender now step monoNow)
  | claimCarrierDerivation nonce sender carrier => exact ofMemos (memoOnly_claimCarrierDerivation s nonce sender carrier)
  | recordCarrierDerivationResult nonce sender tag generation carrier =>
    exact ofMemos (memoOnly_recordCarrierDerivationResult s nonce sender tag generation carrier)
  | recordIntentPair carrier spend escape => exact intents_attachPair intents attests
  | registerCandidates requests arm hotReserve monoNow =>
    simp only [storeStep]
    split
    · exact intents
    next candidates _ =>
      rcases registerCandidates_intents ch s candidates arm hotReserve monoNow with same | same
      · rw [same]
        exact intents
      · rw [same]
        exact intents_attachPair intents attests.1
  | applyCachedSchedule escape duress now epsilon =>
    simp only [storeStep, applyCachedSchedule, applyArmDirective_intents]
    exact intents
  | confirmCarrier sender carrier required now timing monoNow =>
    exact intents_confirmCarrier intents attests.1 required now timing monoNow
  | pruneStore now monoNow => exact intents.retain _
  | _ => first | exact intents | exact absurd rfl only

/-! ### The memos -/

/-- Only the entry of a sender in a derived memo is written. -/
theorem memos_resolveSignature (memos : Every (MemoAttested ch known) s.carriersByNonce) {nonce : String} {sender : Nat}
    {tag : Bytes} (vouched : ∀ memo carrier remembered resolved, s.carriersByNonce.lookup nonce = some memo →
      memo.outcome = .derived carrier remembered resolved → Vouched ch known carrier nonce memo.expiry tag) :
    Every (MemoAttested ch known) (s.resolveSignature nonce sender tag).carriersByNonce := by
  intro n later found
  obtain ⟨memo, present, same | ⟨rfl, rewritten⟩⟩ := lookup_adjust_some found
  · rw [same]
    exact memos n memo present
  · intro carrier remembered more derived
    cases outcome : memo.outcome with
    | inFlight own =>
      simp only [outcome] at rewritten
      rw [rewritten, outcome] at derived
      cases derived
    | derived named own resolved =>
      simp only [outcome] at rewritten
      rw [rewritten] at derived ⊢
      cases derived
      obtain ⟨original, old⟩ := memos n memo present _ _ _ outcome
      refine ⟨original, ?_⟩
      intro other entry recorded
      rcases lookup_insert_some.mp recorded with ⟨_, rfl⟩ | ⟨_, earlier⟩
      · exact vouched memo _ _ _ present outcome
      · exact old other entry earlier

/-- The tag an outer-stale receipt writes down: the mark of a claim, the memo's own tag, or the one that was derived. -/
theorem outerStaleCarrier_writes (ch : ChannelState) (s : PartialStore) (nonce : String) (tag : Bytes)
    (expiry deadline sender now : Nat) (step : OuterStaleStep) (monoNow : Nat) :
    let after := (s.outerStaleCarrier ch nonce tag expiry deadline sender now step monoNow).1
    after = s ∨ ∃ carrier remembered resolved written,
      s.carriersByNonce.lookup nonce = some ⟨.derived carrier remembered resolved, expiry, deadline⟩ ∧
        after = s.resolveSignature nonce sender written ∧
        (written = ch.lib.taggedHash outerStaleClaimTag tag ∨ written = remembered ∨
          written = tag ∧ ∃ generation, step = .finish carrier generation true) := by
  unfold outerStaleCarrier
  simp only
  cases held : s.carriersByNonce.lookup nonce with
  | none => exact .inl rfl
  | some memo =>
    obtain ⟨outcome, memoExpiry, memoDeadline⟩ := memo
    simp only
    by_cases lapsed : deadline ≤ monoNow ∨ (memoExpiry, memoDeadline) ≠ (expiry, deadline)
    · rw [if_pos lapsed]
      exact .inl rfl
    rw [if_neg lapsed]
    push Not at lapsed
    obtain ⟨rfl, rfl⟩ := Prod.mk.inj lapsed.2
    cases outcome with
    | inFlight own => exact .inl rfl
    | derived carrier remembered resolved =>
      simp only
      cases ended : finishedStep step carrier ⟨remembered, memoExpiry, memoDeadline⟩ (resolved.lookup sender)
          (ch.lib.taggedHash outerStaleClaimTag tag) with
      | none =>
        rcases outerStaleVerdict_cases s nonce carrier ⟨remembered, memoExpiry, memoDeadline⟩ (resolved.lookup sender) tag
          (ch.lib.taggedHash outerStaleClaimTag tag) sender now step none with reads | claims
        · exact .inl reads.1
        · exact .inr ⟨carrier, remembered, resolved, _, rfl, claims.2.2.2, .inl rfl⟩
      | some matched =>
        obtain ⟨memoized, claimed, result, rfl⟩ : ∃ memoized claimed result, step = .finish memoized claimed result := by
          cases step with
          | inspect claim => cases ended
          | finish memoized claimed result => exact ⟨memoized, claimed, result, rfl⟩
        simp only [finishedStep] at ended
        split_ifs at ended with own
        cases ended
        refine .inr ⟨carrier, remembered, resolved, if matched then tag else remembered, rfl, ?_, ?_⟩
        · rcases outerStaleVerdict_cases (s.resolveSignature nonce sender (if matched then tag else remembered)) nonce
            carrier ⟨remembered, memoExpiry, memoDeadline⟩ (resolved.lookup sender) tag
            (ch.lib.taggedHash outerStaleClaimTag tag) sender now (.finish memoized claimed matched) (some matched) with
            reads | claims
          · exact reads.1
          · cases claims.1
        · cases matched with
          | false => exact .inr (.inl rfl)
          | true => exact .inr (.inr ⟨rfl, claimed, by rw [own.1]⟩)

theorem applyArmDirective_carriersByNonce (arm : ArmDirective) (holds : List Nat) (s : PartialStore) :
    (s.applyArmDirective arm holds).carriersByNonce = s.carriersByNonce := by
  unfold applyArmDirective refreshEscapeWindow
  simp only
  split_ifs <;> rfl

theorem registerAll_carriersByNonce (candidates : List Candidate) (s : PartialStore) :
    (s.registerAll candidates).1.carriersByNonce = s.carriersByNonce := by
  induction candidates generalizing s with
  | nil => rfl
  | cons c rest ih =>
    have first : (s.register c).1.carriersByNonce = s.carriersByNonce := by
      unfold register
      split
      · split_ifs <;> rfl
      · split_ifs <;> rfl
    exact (ih (s.register c).1).trans first

/-- A registration sees no memo. -/
theorem registerCandidates_carriersByNonce (ch : ChannelState) (s : PartialStore) (candidates : List Candidate)
    (arm : ArmDirective) (hotReserve : Option HotReserveSpec) (monoNow : Nat) :
    (registerCandidates ch s candidates arm hotReserve monoNow).1.carriersByNonce = s.carriersByNonce := by
  have revalidated : (s.revalidate hotReserve monoNow).1.carriersByNonce = s.carriersByNonce := by
    cases hotReserve <;> rfl
  obtain ⟨_, _, same⟩ | ⟨_, _, _, same⟩ | ⟨_, _, same⟩ :=
    registerCandidates_cases ch s candidates arm hotReserve monoNow
  · rw [same]
    exact revalidated
  · rw [same]
    unfold unwindReserve
    split
    · split_ifs <;> exact revalidated
    · exact revalidated
  · rw [same]
    simp only [enroll, attachPair, updateIntent, applyArmDirective_carriersByNonce, registerAll_carriersByNonce,
      revalidated]

theorem memos_step (op : StoreOp) (attests : Attests ch threshold known op)
    (memos : Every (MemoAttested ch known) s.carriersByNonce) :
    Every (MemoAttested ch known) (storeStep ch s op).1.carriersByNonce := by
  by_cases only : op.registryOnly = true
  · rw [(sameSafety_of_registryOnly ch s op only).carriersByNonce]
    exact memos
  cases op with
  | claimNonceInFlight nonce generation monoNow =>
    apply Every.insert (memos.retain _)
    intro carrier remembered resolved derived
    cases derived
  | releaseNonceClaim nonce generation =>
    intro n memo found
    exact memos n memo (lookup_releaseNonceClaim.mp found).1
  | recordArmIntent duress carrier nonce generation firstSeen now timing =>
    simp only [storeStep]
    rcases (recordArmIntent_shape s duress carrier nonce generation firstSeen now timing).2 with installed | same
    · rw [installed]
      apply memos.insert nonce
      intro named remembered resolved derived
      cases derived
      refine ⟨attests.1, ?_⟩
      intro sender tag present
      cases present
    · rw [same]
      exact memos
  | endCarrierRuling carrier monoNow =>
    obtain ⟨_, same⟩ | ⟨_, _, _, same⟩ | ⟨_, _, _, _, same⟩ := endCarrierRuling_cases s carrier monoNow
    · simp only [storeStep, same]
      exact memos
    · simp only [storeStep, same]
      exact memos.retain _
    · simp only [storeStep, same]
      exact memos
  | outerStaleCarrier nonce tag expiry deadline sender now step monoNow =>
    simp only [storeStep]
    obtain same | ⟨carrier, remembered, resolved, written, held, same, kind⟩ :=
      outerStaleCarrier_writes ch s nonce tag expiry deadline sender now step monoNow
    · rw [same]
      exact memos
    · rw [same]
      apply memos_resolveSignature memos
      intro memo named own others found derived
      cases held.symm.trans found
      cases derived
      rcases kind with rfl | rfl | ⟨rfl, generation, finish⟩
      · exact .inr ⟨tag, rfl⟩
      · exact .inl (memos nonce _ held _ _ _ rfl).1
      · exact .inl (attests carrier generation finish)
  | claimCarrierDerivation nonce sender carrier =>
    simp only [storeStep]
    obtain same | ⟨own, resolved, expiry, deadline, held, _, same⟩ := claimCarrierDerivation_cases s nonce sender carrier
    · rw [same]
      exact memos
    · rw [same]
      apply memos_resolveSignature memos
      intro memo named remembered others found derived
      cases held.symm.trans found
      cases derived
      exact .inl (memos nonce _ held _ _ _ rfl).1
  | recordCarrierDerivationResult nonce sender tag generation carrier =>
    simp only [storeStep]
    obtain same | ⟨resolved, held, _, same⟩ :=
      recordCarrierDerivationResult_cases s nonce sender tag generation carrier
    · rw [same]
      exact memos
    · rw [same]
      apply memos_resolveSignature memos
      intro memo named remembered others found derived
      cases held.symm.trans found
      cases derived
      exact .inl attests
  | registerCandidates requests arm hotReserve monoNow =>
    simp only [storeStep]
    split
    · exact memos
    · rw [registerCandidates_carriersByNonce]
      exact memos
  | applyCachedSchedule escape duress now epsilon =>
    simp only [storeStep, applyCachedSchedule, applyArmDirective_carriersByNonce]
    exact memos
  | confirmCarrier sender carrier required now timing monoNow =>
    simp only [storeStep]
    obtain ⟨_, same | same⟩ | ⟨intent, _, same⟩ := confirmCarrier_cases s sender carrier required now timing monoNow
    · rw [same]
      exact memos
    · rw [same]
      exact memos
    · rw [same, confirmed_carriersByNonce]
      exact memos.retain _
  | pruneStore now monoNow => exact memos.retain _
  | _ => first | exact memos | exact absurd rfl only

/-! ### The overlay and the gates -/

/-- The receipt that crosses the threshold has a quorum. -/
theorem quorum_of_crossing (intents : Every (IntentAttested ch known) s.intents) {sender : Nat} {carrier : String}
    {now monoNow : Nat} {intent : ArmIntent} (holds : known.holder carrier sender)
    (crossing : Crossing s sender carrier threshold now monoNow intent) : Quorum ch threshold known carrier := by
  have old := intents carrier intent crossing.found
  refine ⟨insert sender intent.holders, crossing.holders, Finset.mem_insert_of_mem (old.ready crossing.ready), ?_⟩
  intro j member
  rcases Finset.mem_insert.mp member with rfl | earlier
  · exact holds
  · exact old.holders j earlier

theorem armed_step (op : StoreOp) (attests : Attests ch threshold known op) (attested : Attested ch threshold known s)
    (active : (storeStep ch s op).1.armed.active = true) :
    ∃ carrier, Quorum ch threshold known carrier ∧ known.duress carrier := by
  by_cases before : s.armed.active = true
  · exact attested.armed before
  · obtain ⟨sender, carrier, required, now, timing, monoNow, intent, rfl, crossing, duress⟩ :=
      arms_of_step (by simpa using before) active
    obtain ⟨holds, rfl⟩ := attests
    exact ⟨carrier, quorum_of_crossing attested.intents holds crossing,
      (attested.intents carrier intent crossing.found).duress duress⟩

theorem gates_step (op : StoreOp) (attests : Attests ch threshold known op) (attested : Attested ch threshold known s) :
    Every (GateAttested ch threshold known) (storeStep ch s op).1.candidates := by
  intro id later found reached waits named
  rcases storeStep_lookup found with ⟨earlier, present, evolved, gate⟩ |
    ⟨_, requests, arm, hotReserve, monoNow, rfl, request, member, fresh, _⟩
  · have waited : earlier.hot = true ∨ earlier.role = .escape := by rwa [evolved.hot, evolved.role] at waits
    rcases gate with same | ⟨sender, carrier, required, now, timing, monoNow, intent, rfl, crossing, either⟩
    · exact attested.gates id earlier present (same ▸ reached) waited named
    · obtain ⟨holds, rfl⟩ := attests
      refine ⟨carrier, intent.spendCommitmentId, intent.escapeCommitmentId,
        quorum_of_crossing attested.intents holds crossing, ?_, either⟩
      rcases (attested.intents carrier intent crossing.found).names with ⟨spend, escape⟩ | names
      · rw [spend, escape] at either
        simp [named] at either
      · exact names
  · obtain ⟨cold, spend⟩ := attests.2 request member (fresh.holderQuorumReached.symm.trans reached)
    rw [fresh.hot, fresh.role, cold, spend] at waits
    simp at waits

/-- An operation that comes with evidence keeps the registry within it. -/
theorem attested_step (op : StoreOp) (attests : Attests ch threshold known op)
    (attested : Attested ch threshold known s) : Attested ch threshold known (storeStep ch s op).1 where
  intents := intents_step op attests attested.intents
  memos := memos_step op attests attested.memos
  armed := armed_step op attests attested
  gates := gates_step op attests attested

/-! ### What a receipt is told -/

/-- The lookup names a carrier only to a sender whose tag it has for that carrier. -/
theorem carrierMemoLookup_exact {nonce : String} {tag : Bytes} {expiry sender now mono : Nat} {carrier : String}
    (memos : Every (MemoAttested ch known) s.carriersByNonce)
    (separate : ∀ other, tag ≠ ch.lib.taggedHash outerStaleClaimTag other)
    (found : s.carrierMemoLookup ch nonce tag expiry sender now mono = .exact carrier) :
    known.original carrier nonce expiry tag := by
  unfold carrierMemoLookup at found
  split at found
  · cases found
  next memo held =>
    split_ifs at found with lapsed other
    simp only at found
    split at found
    · cases found
    next named remembered resolved outcome =>
      obtain ⟨original, vouched⟩ := memos nonce memo held _ _ _ outcome
      rw [show memo.expiry = expiry by simpa using other] at original vouched
      split_ifs at found
      unfold derivedLookup rawExpiredRetry at found
      simp only at found
      split_ifs at found with known'
      · split at found
        · cases found
        · split_ifs at found
      · cases found
        rcases known' with rfl | entry
        · exact original
        · rcases vouched sender tag entry with here | ⟨mark, claimed⟩
          · exact here
          · exact absurd claimed (separate mark)

end BtcPolicy.Channel
