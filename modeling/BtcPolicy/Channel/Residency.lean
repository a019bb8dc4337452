import BtcPolicy.Channel.Lifecycle

/-! How long the two maps keep what they hold: who may remove an intent or a memo, and what is left when
every handler has gone. -/

namespace BtcPolicy.Channel
open FiniteMap Word Bitcoin HotLedger Replay PartialStore Runs Life

/-! ### What a section can do -/

/-- The exit of a carrier's own handler, without having staged it or past its deadline. -/
def EndsUnstaged (s : Life) (action : LifeAction) (carrier : String) (intent : ArmIntent) : Prop :=
  ∃ thread own, action.op = .exit thread ∧ s.handlers.lookup thread = some own ∧
    own.rulingCarrier = some carrier ∧
    (intent.readyToPropagate = false ∨ intent.deadline ≤ s.mono + action.elapsed)

/-- The receipt that commits a carrier. -/
def Commits (ch : ChannelState) (carrierId : CarrierBody → String) (s : Life) (action : LifeAction)
    (carrier : String) : Prop :=
  ∃ sender threshold now timing armed, action.op = .confirmCarrier sender carrier threshold now timing ∧
    (lifeStep ch carrierId s action).2 = .confirmation ⟨true, armed, false⟩

/-- The sections of a peer's receipt that write a memo. -/
def LifeOp.IsReceipt : LifeOp → Prop
  | .claimCarrierDerivation .. | .recordCarrierDerivationResult .. | .outerStaleCarrier .. => True
  | _ => False

/-- No handler comes to wait for its arm hook. -/
def NoneArrives (s t : Life) : Prop :=
  ∀ thread h, t.handlers.lookup thread = some h → h.rulingCarrier = none → s.handlers.lookup thread = some h

/-- What one section does to the two maps and to the handlers that wait. -/
inductive Effect (ch : ChannelState) (carrierId : CarrierBody → String) (s : Life) (action : LifeAction)
    (t : Life) : Prop where
  | quiet (intents : t.store.intents = s.store.intents)
      (memos : t.store.carriersByNonce = s.store.carriersByNonce) (waiting : NoneArrives s t)
  | pruned (op : action.op = .pruneCarriers)
      (intents : t.store.intents = (s.store.pruneCarriers (s.mono + action.elapsed)).intents)
      (memos : t.store.carriersByNonce = (s.store.pruneCarriers (s.mono + action.elapsed)).carriersByNonce)
      (waiting : NoneArrives s t)
  | claimed (thread : Nat) (new : Handler) (signatureTag : Bytes) (nowInput maxAge : Nat) (proceeds : Bool)
      (op : action.op = .ingress thread new.body signatureTag nowInput maxAge proceeds)
      (unseen : ¬Remembers new.body.nonce new.body.expiry s.log)
      (expiry : new.generation.expiry = new.body.expiry)
      (past : ∀ m, s.store.carriersByNonce.lookup new.body.nonce = some m → m.deadline ≤ s.mono + action.elapsed)
      (intents : t.store.intents = (s.store.pruneCarriers (s.mono + action.elapsed)).intents)
      (memos : t.store.carriersByNonce = (s.store.pruneCarriers
        (s.mono + action.elapsed)).carriersByNonce.insert new.body.nonce new.generation.claim)
      (handlers : t.handlers = s.handlers.insert thread new)
  | armed (thread : Nat) (own : Handler) (intent : ArmIntent) (duress : Bool) (now : Nat) (timing : DuressTiming)
      (op : action.op = .recordArmIntent thread duress now timing) (here : s.handlers.lookup thread = some own)
      (unruled : own.rulingCarrier = none) (pending : intent.committed = false)
      (intents : t.store.intents = s.store.intents.insert (carrierId own.body) intent)
      (memos : t.store.carriersByNonce = s.store.carriersByNonce.insert own.body.nonce
            (own.generation.derivedMemo (carrierId own.body)) ∧
          (∀ m, s.store.carriersByNonce.lookup own.body.nonce = some m → m = own.generation.claim) ∨
        t.store.carriersByNonce = s.store.carriersByNonce)
      (waiting : ∀ thread' h, t.handlers.lookup thread' = some h → h.rulingCarrier = none →
        thread' ≠ thread ∧ s.handlers.lookup thread' = some h)
  | rewrote (carrier : String) (f : ArmIntent → ArmIntent)
      (grows : ∀ i, i.holders ⊆ (f i).holders ∧ (f i).committed = i.committed)
      (intents : t.store.intents = adjust carrier f s.store.intents)
      (memos : t.store.carriersByNonce = s.store.carriersByNonce) (waiting : NoneArrives s t)
  | resolved (nonce : String) (sender : Nat) (tag : Bytes) (receipt : action.op.IsReceipt)
      (intents : t.store.intents = s.store.intents)
      (memos : t.store.carriersByNonce = (s.store.resolveSignature nonce sender tag).carriersByNonce)
      (waiting : NoneArrives s t)
  | left (thread : Nat) (own : Handler) (op : action.op = .exit thread) (here : s.handlers.lookup thread = some own)
      (unruled : own.rulingCarrier = none) (intents : t.store.intents = s.store.intents)
      (memos : t.store.carriersByNonce =
        (s.store.releaseNonceClaim own.body.nonce own.generation).carriersByNonce)
      (waiting : NoneArrives s t)
  | retired (carrier : String) (intent : ArmIntent) (found : s.store.intents.lookup carrier = some intent)
      (reason : EndsUnstaged s action carrier intent ∨ Commits ch carrierId s action carrier)
      (intents : t.store.intents = s.store.intents.erase carrier)
      (memos : t.store.carriersByNonce = (s.store.retireCarrier carrier).carriersByNonce)
      (waiting : NoneArrives s t)

section Effects

variable {ch : ChannelState} {carrierId : CarrierBody → String} {s : Life} {action : LifeAction}

theorem noneArrives_same {t : Life} (same : t.handlers = s.handlers) : NoneArrives s t := by
  intro thread h here _
  rw [← same]
  exact here

theorem noneArrives_erase {t : Life} {thread : Nat} (same : t.handlers = s.handlers.erase thread) :
    NoneArrives s t := by
  intro thread' h here _
  rw [same] at here
  exact (lookup_erase_some.mp here).2

theorem effect_onRuling {op : LifeOp} {thread : Nat} {write : PartialStore → String → PartialStore}
    {f : ArmIntent → ArmIntent} (writes : ∀ store carrier, write store carrier = store.updateIntent carrier f)
    (grows : ∀ i, i.holders ⊆ (f i).holders ∧ (f i).committed = i.committed) {elapsed : Nat} :
    Effect ch carrierId s ⟨elapsed, op⟩ (Life.onRuling { s with mono := s.mono + elapsed } thread write) := by
  unfold Life.onRuling
  split
  · rename_i carrier _
    exact .rewrote carrier f grows (by simp only [writes]; rfl) (by simp only [writes]; rfl) (noneArrives_same rfl)
  · exact .quiet rfl rfl (noneArrives_same rfl)

theorem effect_ingress (sound : s.Sound carrierId) {elapsed thread : Nat} {body : CarrierBody} {signatureTag : Bytes}
    {nowInput maxAge : Nat} {proceeds : Bool} :
    Effect ch carrierId s ⟨elapsed, .ingress thread body signatureTag nowInput maxAge proceeds⟩
      (Life.ingress { s with mono := s.mono + elapsed } thread body signatureTag nowInput maxAge proceeds).1 := by
  have ticked : Life.Sound carrierId { s with mono := s.mono + elapsed } := sound.tick elapsed
  rcases ingress_cases { s with mono := s.mono + elapsed } thread body signatureTag nowInput maxAge proceeds with
    same | same | ⟨deadline, claims⟩
  · rw [same]
    exact .quiet rfl rfl (noneArrives_same rfl)
  · rw [same]
    exact .quiet rfl rfl (noneArrives_same rfl)
  · rw [claims.result]
    exact .claimed thread _ signatureTag nowInput maxAge proceeds rfl
      (fun known => remembers_refuses known claims.accepted) rfl
      (fun m held => deadline_past_of_accepted claims.accepted rfl (ticked.entry body.nonce m held)) rfl rfl rfl

theorem effect_recordArmIntent (sound : s.Sound carrierId) {elapsed thread : Nat} {duress : Bool} {now : Nat}
    {timing : DuressTiming} : Effect ch carrierId s ⟨elapsed, .recordArmIntent thread duress now timing⟩
      (Life.recordArmIntent carrierId { s with mono := s.mono + elapsed } thread duress now timing) := by
  unfold Life.recordArmIntent
  simp only
  cases here : s.handlers.lookup thread with
  | none => exact .quiet rfl rfl (noneArrives_same rfl)
  | some own =>
    simp only
    by_cases rules : own.rulingCarrier.isSome = true
    · rw [if_pos rules]
      exact .quiet rfl rfl (noneArrives_same rfl)
    · rw [if_neg rules]
      have unruled : own.rulingCarrier = none := by simpa using rules
      obtain ⟨_, absent, _⟩ := sound.claimed thread own here unruled
      obtain ⟨intents, memos⟩ := recordArmIntent_fresh absent duress own.body.nonce own.generation own.firstSeen now
        timing
      refine .armed thread own _ duress now timing rfl here unruled rfl intents (memos.imp id (fun same => same.1)) ?_
      intro thread' h there waits
      rcases lookup_insert_some.mp there with ⟨_, rfl⟩ | other
      · cases waits
      · exact other

theorem effect_exit (sound : s.Sound carrierId) {elapsed thread : Nat} :
    Effect ch carrierId s ⟨elapsed, .exit thread⟩ (Life.exit { s with mono := s.mono + elapsed } thread) := by
  have ticked : Life.Sound carrierId { s with mono := s.mono + elapsed } := sound.tick elapsed
  cases here : s.handlers.lookup thread with
  | none =>
    unfold Life.exit
    simp only [here]
    exact .quiet rfl rfl (noneArrives_same rfl)
  | some own =>
    cases rules : own.rulingCarrier with
    | none =>
      rw [exit_unruled ticked here rules]
      refine .left thread own rfl here rules ?_ rfl (noneArrives_erase rfl)
      show (s.store.releaseNonceClaim own.body.nonce own.generation).intents = _
      unfold releaseNonceClaim
      split_ifs <;> rfl
    | some carrier =>
      rw [exit_ruling ticked here rules]
      rcases endCarrierRuling_cases s.store carrier (s.mono + elapsed) with ⟨absent, same⟩ | ⟨i, found, lapsed, same⟩ |
        ⟨i, found, staged, _, same⟩
      · exact .quiet (by simp only [same]) (by simp only [same]) (noneArrives_erase rfl)
      · refine .retired carrier i found (Or.inl ⟨thread, own, rfl, here, rules, lapsed⟩) ?_ ?_ (noneArrives_erase rfl)
        · simp only [same, updateIntent, retireCarrier, erase_adjust]
        · simp only [same]
          rfl
      · exact .rewrote carrier (fun intent => { intent with ownerRuling := false }) (fun _ => ⟨Finset.Subset.refl _, rfl⟩)
          (by simp only [same]; rfl) (by simp only [same]; rfl) (noneArrives_erase rfl)

theorem effect_confirmCarrier {elapsed sender : Nat} {carrier : String} {threshold now : Nat}
    {timing : DuressTiming} : Effect ch carrierId s ⟨elapsed, .confirmCarrier sender carrier threshold now timing⟩
      { s with
        mono := s.mono + elapsed
        store := (s.store.confirmCarrier sender carrier threshold now timing (s.mono + elapsed)).1 } := by
  obtain ⟨_, same | same⟩ | ⟨intent, crossing, same⟩ :=
    confirmCarrier_cases s.store sender carrier threshold now timing (s.mono + elapsed)
  · exact .quiet (by simp only [same]) (by simp only [same]) (noneArrives_same rfl)
  · exact .rewrote carrier (fun intent => { intent with holders := insert sender intent.holders })
      (fun _ => ⟨Finset.subset_insert _ _, rfl⟩) (by simp only [same]; rfl) (by simp only [same]; rfl)
      (noneArrives_same rfl)
  · refine .retired carrier intent crossing.found (Or.inr ?_) ?_ ?_ (noneArrives_same rfl)
    · exact ⟨sender, threshold, now, timing, intent.duress, rfl, by simp only [lifeStep, same]⟩
    · simp only [same, confirmed_intents, markCommitted, addHolder, updateIntent, erase_adjust]
    · simp only [same, confirmed_carriersByNonce]
      rfl

/-- Everything a section can do. -/
theorem lifeStep_effect (sound : s.Sound carrierId) (action : LifeAction) :
    Effect ch carrierId s action (lifeStep ch carrierId s action).1 := by
  obtain ⟨elapsed, op⟩ := action
  have quiet : ∀ {op : LifeOp} {t : Life}, t.store = s.store → t.handlers = s.handlers →
      Effect ch carrierId s ⟨elapsed, op⟩ t :=
    fun store handlers => .quiet (by rw [store]) (by rw [store]) (noneArrives_same handlers)
  have resolves : ∀ {op : LifeOp} {t : Life} {nonce : String} {sender : Nat} {tag : Bytes},
      op.IsReceipt → t.store = s.store.resolveSignature nonce sender tag → t.handlers = s.handlers →
      Effect ch carrierId s ⟨elapsed, op⟩ t :=
    fun receipt store handlers =>
      .resolved _ _ _ receipt (by rw [store]; rfl) (by rw [store]) (noneArrives_same handlers)
  cases op with
  | ingress thread body signatureTag nowInput maxAge proceeds => exact effect_ingress sound
  | refreshIngress nonce expiry nowInput maxAge => exact quiet rfl rfl
  | recordArmIntent thread duress now timing => exact effect_recordArmIntent sound
  | recordIntentPair thread spend escape =>
    exact effect_onRuling (f := fun intent =>
      { intent with spendCommitmentId := spend, escapeCommitmentId := escape }) (fun _ _ => rfl)
      (fun _ => ⟨Finset.Subset.refl _, rfl⟩)
  | markCarrierPropagated thread =>
    exact effect_onRuling (f := fun intent =>
      { intent with readyToPropagate := true, holders := insert ch.nodeId intent.holders }) (fun _ _ => rfl)
      (fun _ => ⟨Finset.subset_insert _ _, rfl⟩)
  | exit thread => exact effect_exit sound
  | pruneCarriers => exact .pruned rfl rfl rfl (noneArrives_same rfl)
  | confirmCarrier sender carrier threshold now timing => exact effect_confirmCarrier
  | carrierMemoLookup nonce signatureTag requestExpiry sender now => exact quiet rfl rfl
  | claimCarrierDerivation nonce sender memoizedCarrier =>
    rcases claimCarrierDerivation_cases s.store nonce sender memoizedCarrier with same | ⟨tag, _, _, _, _, _, same⟩
    · exact quiet (by simp only [lifeStep, same]) rfl
    · exact resolves trivial (congrArg Prod.fst same) rfl
  | recordCarrierDerivationResult nonce sender signatureTag generation memoizedCarrier =>
    rcases recordCarrierDerivationResult_cases s.store nonce sender signatureTag generation memoizedCarrier with
      same | ⟨_, _, _, same⟩
    · exact quiet (by simp only [lifeStep, same]) rfl
    · exact resolves trivial (congrArg Prod.fst same) rfl
  | outerStaleCarrier nonce signatureTag expiry sender now step =>
    simp only [lifeStep, Life.outerStale]
    cases s.log.outerStaleCarrierDeadline nonce expiry with
    | none => exact quiet rfl rfl
    | some deadline =>
      rcases outerStaleCarrier_cases ch s.store nonce signatureTag expiry deadline sender now step
        (s.mono + elapsed) with ⟨same, _⟩ | ⟨_, _, _, _, _, ⟨_, _, _, same⟩ | ⟨_, _, tag, same⟩⟩
      · exact quiet same rfl
      · exact resolves trivial same rfl
      · exact resolves trivial same rfl

end Effects

/-! ### Who removes what -/

/-- The memo of this generation is resident, whatever its outcome. -/
def Life.Resident (s : Life) (nonce : String) (memo : CarrierMemo) : Prop :=
  ∃ m, s.store.carriersByNonce.lookup nonce = some m ∧ m.expiry = memo.expiry ∧ m.deadline = memo.deadline

/-- A handler leaves before its arm hook and takes its claim. -/
def LeavesUnruled (s : Life) (action : LifeAction) (nonce : String) (memo : CarrierMemo) : Prop :=
  ∃ thread own, action.op = .exit thread ∧ s.handlers.lookup thread = some own ∧ own.rulingCarrier = none ∧
    own.body.nonce = nonce ∧ memo = own.generation.claim

/-- A later generation is accepted under the memo's nonce, which the memo's own deadline allows. -/
def Displaces (s : Life) (action : LifeAction) (nonce : String) (memo : CarrierMemo) : Prop :=
  ∃ thread body signatureTag nowInput maxAge proceeds,
    action.op = .ingress thread body signatureTag nowInput maxAge proceeds ∧ body.nonce = nonce ∧
      body.expiry ≠ memo.expiry ∧ memo.deadline ≤ s.mono + action.elapsed

section Removal

variable {ch : ChannelState} {carrierId : CarrierBody → String} {s t : Life} {action : LifeAction}

/-- What pruning keeps. -/
theorem lookup_pruneCarriers {store : PartialStore} {mono : Nat} {c : String} {i : ArmIntent}
    (found : store.intents.lookup c = some i) (due : mono < i.deadline ∨ i.ownerRuling = true) :
    (store.pruneCarriers mono).intents.lookup c = some i := by
  apply lookup_retain_some.mpr
  exact ⟨found, by simpa using due⟩

theorem lookup_pruneCarriers_memo {store : PartialStore} {mono : Nat} {n : String} {m : CarrierMemo}
    (held : store.carriersByNonce.lookup n = some m)
    (due : mono < m.deadline ∨ ownerStillRuling store.intents m = true) :
    (store.pruneCarriers mono).carriersByNonce.lookup n = some m := by
  refine lookup_retain_some.mpr ⟨held, ?_⟩
  rcases due with ahead | ruling
  · simp [ahead]
  · have still : ownerStillRuling (store.pruneCarriers mono).intents m = true := by
      unfold ownerStillRuling at ruling ⊢
      cases outcome : m.outcome with
      | inFlight tag => rfl
      | derived c tag resolved =>
        simp only [outcome, Option.any_eq_true] at ruling ⊢
        obtain ⟨i, found, owner⟩ := ruling
        exact ⟨i, lookup_pruneCarriers found (Or.inr owner), owner⟩
    exact Bool.or_eq_true_iff.mpr (Or.inr still)

/-- An intent that is not due leaves through its own handler's exit or through its commit. -/
theorem intent_removed (effect : Effect ch carrierId s action t) {c : String} {i : ArmIntent}
    (found : s.store.intents.lookup c = some i)
    (due : s.mono + action.elapsed < i.deadline ∨ i.ownerRuling = true)
    (gone : t.store.intents.lookup c = none) : EndsUnstaged s action c i ∨ Commits ch carrierId s action c := by
  cases effect with
  | quiet intents _ _ | resolved _ _ _ _ intents _ _ | left _ _ _ _ _ intents _ _ =>
    rw [intents, found] at gone
    cases gone
  | pruned _ intents _ _ | claimed _ _ _ _ _ _ _ _ _ _ intents _ _ =>
    rw [intents, lookup_pruneCarriers found due] at gone
    cases gone
  | armed _ _ _ _ _ _ _ _ _ _ intents _ _ =>
    rw [intents, lookup_insert_eq, found] at gone
    split_ifs at gone
  | rewrote carrier f _ intents _ _ =>
    rw [intents, lookup_adjust, found] at gone
    split_ifs at gone
    cases gone
  | retired carrier intent present reason intents _ _ =>
    rw [intents, lookup_erase_eq, found] at gone
    split_ifs at gone with same
    subst same
    rw [found, Option.some.injEq] at present
    exact present ▸ reason

variable (separates : ∀ a b, carrierId a = carrierId b → a.nonce = b.nonce ∧ a.expiry = b.expiry)
include separates

/-- A memo that is not due leaves through its own handler's exit, through its carrier's commit, or to a
later generation past its deadline. -/
theorem memo_removed (sound : s.Sound carrierId) (effect : Effect ch carrierId s action t) {n : String}
    {m : CarrierMemo} (held : s.store.carriersByNonce.lookup n = some m)
    (due : s.mono + action.elapsed < m.deadline ∨ ownerStillRuling s.store.intents m = true)
    (gone : ¬t.Resident n m) :
    LeavesUnruled s action n m ∨ Displaces s action n m ∨
      ∃ c i, CarrierMemo.names m c = true ∧ s.store.intents.lookup c = some i ∧
        (EndsUnstaged s action c i ∨ Commits ch carrierId s action c) := by
  have stays : t.store.carriersByNonce.lookup n = some m → False := fun still => gone ⟨m, still, rfl, rfl⟩
  cases effect with
  | quiet _ memos _ | rewrote _ _ _ _ memos _ => exact (stays (by rw [memos, held])).elim
  | pruned _ _ memos _ => exact (stays (by rw [memos, lookup_pruneCarriers_memo held due])).elim
  | claimed thread new signatureTag nowInput maxAge proceeds op unseen expiry past _ memos _ =>
    by_cases here : n = new.body.nonce
    · subst here
      refine Or.inr (Or.inl ⟨thread, new.body, signatureTag, nowInput, maxAge, proceeds, op, rfl, ?_, past m held⟩)
      intro same
      rw [same] at unseen
      exact unseen (sound.memo_remembered separates held)
    · refine (stays ?_).elim
      rw [memos, lookup_insert_eq, if_neg here, lookup_pruneCarriers_memo held due]
  | armed _ own _ _ _ _ _ _ _ _ _ memos _ =>
    exfalso
    rcases memos with ⟨memos, owned⟩ | memos
    · by_cases here : n = own.body.nonce
      · subst here
        refine gone ⟨_, by rw [memos, AList.lookup_insert], ?_⟩
        rw [owned m held]
        exact ⟨rfl, rfl⟩
      · exact stays (by rw [memos, lookup_insert_eq, if_neg here, held])
    · exact stays (by rw [memos, held])
  | resolved nonce sender tag _ _ memos _ =>
    exfalso
    obtain ⟨outcome, expiry, deadline⟩ := m
    cases outcome with
    | inFlight own => exact stays (by rw [memos]; exact (lookup_resolveSignature_inFlight rfl).mpr held)
    | derived c own resolved =>
      obtain ⟨more, still, _⟩ := lookup_resolveSignature_derived held
      rw [← memos] at still
      exact gone ⟨_, still, rfl, rfl⟩
  | left thread own op here unruled _ memos _ =>
    by_cases mine : n = own.body.nonce ∧ m = own.generation.claim
    · exact Or.inl ⟨thread, own, op, here, unruled, mine.1.symm, mine.2⟩
    · exact (stays (by rw [memos]; exact lookup_releaseNonceClaim.mpr ⟨held, mine⟩)).elim
  | retired carrier intent found reason _ memos _ =>
    by_cases named : CarrierMemo.names m carrier = true
    · exact Or.inr (Or.inr ⟨carrier, intent, named, found, reason⟩)
    · refine (stays ?_).elim
      rw [memos]
      exact lookup_retain_some.mpr ⟨held, by simpa using named⟩

/-- Neither an upgrade nor a release touches another generation's memo. -/
theorem other_generation_kept (sound : s.Sound carrierId) (effect : Effect ch carrierId s action t) {thread : Nat}
    {own : Handler} (here : s.handlers.lookup thread = some own)
    (acts : (∃ duress now timing, action.op = .recordArmIntent thread duress now timing) ∨ action.op = .exit thread)
    {m : CarrierMemo} (held : s.store.carriersByNonce.lookup own.body.nonce = some m)
    (other : m.expiry ≠ own.body.expiry) : t.store.carriersByNonce.lookup own.body.nonce = some m := by
  have unclaimed : m ≠ own.generation.claim := by
    rintro rfl
    exact other (sound.known thread own here).1
  have same : ∀ {thread' : Nat} {h : Handler}, s.handlers.lookup thread' = some h → thread' = thread → h = own := by
    rintro thread' h there rfl
    rw [here, Option.some.injEq] at there
    exact there.symm
  cases effect with
  | quiet _ memos _ | rewrote _ _ _ _ memos _ => rw [memos, held]
  | pruned op _ _ _ => simp [op] at acts
  | claimed _ _ _ _ _ _ op _ _ _ _ _ _ => simp [op] at acts
  | armed thread' own' _ _ _ _ op there _ _ _ memos _ =>
    obtain rfl : own' = own := same there (by simpa [op] using acts)
    rcases memos with ⟨_, owned⟩ | memos
    · exact absurd (owned m held) unclaimed
    · rw [memos, held]
  | resolved _ _ _ receipt _ _ _ =>
    rcases acts with ⟨duress, now, timing, op⟩ | op
    · rw [op] at receipt
      exact receipt.elim
    · rw [op] at receipt
      exact receipt.elim
  | left thread' own' op there _ _ memos _ =>
    obtain rfl : own' = own := same there (by simpa [op] using acts)
    rw [memos]
    exact lookup_releaseNonceClaim.mpr ⟨held, fun mine => unclaimed mine.2⟩
  | retired carrier intent found reason _ memos _ =>
    rcases reason with ⟨thread', own', op, there, rules, _⟩ | ⟨_, _, _, _, _, op, _⟩
    · obtain rfl : own' = own := same there (by simpa [op] using acts)
      rw [memos]
      refine lookup_retain_some.mpr ⟨held, ?_⟩
      obtain ⟨outcome, expiry, deadline⟩ := m
      cases outcome with
      | inFlight tag => rfl
      | derived c tag resolved =>
        obtain ⟨⟨body, names, _, sameExpiry⟩, _⟩ := sound.derived _ c tag resolved expiry deadline held
        simp only [CarrierMemo.names, Bool.not_eq_true', decide_eq_false_iff_not]
        rintro rfl
        have carrier := (sound.ruling thread' own' c there rules).1
        exact other (sameExpiry.symm.trans (separates _ _ (names.trans carrier)).2)
    · simp [op] at acts

end Removal

/-- The life of a carrier under any interleaving, with the monotonic clock going forward and any wall
clock: a derived memo always has its intent; nothing unfinished outlives the handlers; a handler's upgrade
or release leaves another generation's memo alone; and what is not due leaves through its own handler's
exit, through its commit, or, for a memo past its deadline, to a later generation of its nonce. -/
theorem carrier_lifecycle (ch : ChannelState) {carrierId : CarrierBody → String}
    (separates : ∀ a b, carrierId a = carrierId b → a.nonce = b.nonce ∧ a.expiry = b.expiry)
    (config : StoreConfig) (actions : List LifeAction) :
    let s := lifeAfter ch carrierId config actions
    (∀ n c tag resolved e d, s.store.carriersByNonce.lookup n = some ⟨.derived c tag resolved, e, d⟩ →
        ∃ i, s.store.intents.lookup c = some i ∧ i.expiry = e ∧ i.deadline = d) ∧
      ((∀ thread, s.handlers.lookup thread = none) →
        (∀ n tag e d, s.store.carriersByNonce.lookup n ≠ some ⟨.inFlight tag, e, d⟩) ∧
          ∀ c i, s.store.intents.lookup c = some i → i.readyToPropagate = true) ∧
      ∀ action : LifeAction,
        let t := (lifeStep ch carrierId s action).1
        (∀ thread own m, s.handlers.lookup thread = some own →
          (∃ duress now timing, action.op = .recordArmIntent thread duress now timing) ∨ action.op = .exit thread →
          s.store.carriersByNonce.lookup own.body.nonce = some m → m.expiry ≠ own.body.expiry →
          t.store.carriersByNonce.lookup own.body.nonce = some m) ∧
        (∀ c i, s.store.intents.lookup c = some i →
          s.mono + action.elapsed < i.deadline ∨ i.ownerRuling = true → t.store.intents.lookup c = none →
          EndsUnstaged s action c i ∨ Commits ch carrierId s action c) ∧
        ∀ n m, s.store.carriersByNonce.lookup n = some m →
          s.mono + action.elapsed < m.deadline ∨ ownerStillRuling s.store.intents m = true → ¬t.Resident n m →
          LeavesUnruled s action n m ∨ Displaces s action n m ∨
            ∃ c i, CarrierMemo.names m c = true ∧ s.store.intents.lookup c = some i ∧
              (EndsUnstaged s action c i ∨ Commits ch carrierId s action c) := by
  intro s
  have sound : s.Sound carrierId := lifeAfter_sound ch separates config actions
  refine ⟨?_, ?_, ?_⟩
  · intro n c tag resolved e d held
    exact (sound.derived n c tag resolved e d held).2
  · intro exited
    constructor
    · intro n tag e d held
      obtain ⟨thread, h, here, _⟩ := sound.inFlight n tag e d held
      rw [exited thread] at here
      cases here
    · intro c i found
      by_contra unstaged
      obtain ⟨thread, h, here, _⟩ := sound.ruled c i found (Or.inr (by simpa using unstaged))
      rw [exited thread] at here
      cases here
  · intro action t
    have effect : Effect ch carrierId s action t := lifeStep_effect sound action
    refine ⟨?_, ?_, ?_⟩
    · intro thread own m here acts held other
      exact other_generation_kept separates sound effect here acts held other
    · intro c i found due gone
      exact intent_removed effect found due gone
    · intro n m held due gone
      exact memo_removed separates sound effect held due gone

namespace Sample

/-- A carrier id that shows the nonce and the expiry. -/
def carrierOf (body : CarrierBody) : String :=
  String.ofList (List.replicate body.expiry '0' ++ '1' :: body.nonce.toList)

theorem carrierOf_separates (a b : CarrierBody) (same : carrierOf a = carrierOf b) :
    a.nonce = b.nonce ∧ a.expiry = b.expiry := by
  have lists : List.replicate a.expiry '0' ++ '1' :: a.nonce.toList =
      List.replicate b.expiry '0' ++ '1' :: b.nonce.toList := String.ofList_injective same
  have zeros : ∀ (n : Nat) (rest : List Char),
      ((List.replicate n '0' ++ '1' :: rest).takeWhile (fun c => decide (c = '0'))).length = n := by
    intro n rest
    rw [List.takeWhile_append_of_pos (by simp)]
    simp
  have expiry : a.expiry = b.expiry := by
    rw [← zeros a.expiry a.nonce.toList, lists, zeros]
  rw [expiry] at lists
  have nonce := List.append_cancel_left lists
  simp only [List.cons.injEq, true_and] at nonce
  exact ⟨String.toList_inj.mp nonce, expiry⟩

def firstBody : CarrierBody := ⟨"n", 20, []⟩

/-- A request of the same nonce, signed later. -/
def secondBody : CarrierBody := ⟨"n", 40, []⟩

/-- One handler stages its carrier and leaves. -/
def stagedLife : List LifeAction :=
  [⟨0, .ingress 0 firstBody [1] 10 1000 true⟩, ⟨1, .recordArmIntent 0 true 11 timing⟩,
    ⟨1, .markCarrierPropagated 0⟩, ⟨1, .exit 0⟩]

end Sample

theorem carrier_lifecycle_staged :
    (∀ a b, Sample.carrierOf a = Sample.carrierOf b → a.nonce = b.nonce ∧ a.expiry = b.expiry) ∧
      ∃ i, (lifeAfter Sample.channel Sample.carrierOf Sample.config Sample.stagedLife).store.intents.lookup
        (Sample.carrierOf Sample.firstBody) = some i ∧ i.expiry = 20 ∧ i.deadline = 10 :=
  ⟨Sample.carrierOf_separates,
    (carrier_lifecycle Sample.channel Sample.carrierOf_separates Sample.config Sample.stagedLife).1 "n"
      (Sample.carrierOf Sample.firstBody) [1] ∅ 20 10 rfl⟩

/-- While the first handler still waits, a later request of its nonce takes the memo it owns. -/
theorem waiting_memo_displaced :
    let s := lifeAfter Sample.channel Sample.carrierOf Sample.config [⟨0, .ingress 0 Sample.firstBody [1] 10 1000 true⟩]
    let action : LifeAction := ⟨10, .ingress 1 Sample.secondBody [2] 30 1000 true⟩
    let t := (lifeStep Sample.channel Sample.carrierOf s action).1
    ∃ m, s.store.carriersByNonce.lookup "n" = some m ∧ ownerStillRuling s.store.intents m = true ∧
      (t.handlers.lookup 0).isSome = true ∧ ¬t.Resident "n" m ∧ (∀ thread, action.op ≠ .exit thread) ∧
      ∀ carrier, ¬Commits Sample.channel Sample.carrierOf s action carrier := by
  intro s action t
  refine ⟨⟨.inFlight [1], 20, 10⟩, by decide, rfl, by decide +kernel, ?_, by simp [action], ?_⟩
  · have held : t.store.carriersByNonce.lookup "n" = some ⟨.inFlight [2], 40, 20⟩ := by decide
    rintro ⟨m, still, expiry, _⟩
    rw [held, Option.some.injEq] at still
    rw [← still] at expiry
    simp at expiry
  · rintro carrier ⟨_, _, _, _, _, op, _⟩
    simp [action] at op

end BtcPolicy.Channel
