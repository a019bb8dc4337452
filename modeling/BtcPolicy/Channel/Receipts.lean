import BtcPolicy.Channel.Residency

/-! Peer receipts against the handler they race: a sender is counted once, a receipt that is told to come
back later changes nothing, and one memory-hard derivation is granted for each generation and sender. -/

namespace BtcPolicy.Channel
open FiniteMap Word Bitcoin HotLedger Replay PartialStore Runs Life

/-- The section makes `sender` a holder of `carrier`: it is one afterwards, or the receipt commits the
carrier and retires it in the same section. -/
def Enters (ch : ChannelState) (carrierId : CarrierBody → String) (sender : Nat) (carrier : String) (s : Life)
    (action : LifeAction) : Prop :=
  ∃ i, s.store.intents.lookup carrier = some i ∧ sender ∉ i.holders ∧
    ((∃ i', (lifeStep ch carrierId s action).1.store.intents.lookup carrier = some i' ∧ sender ∈ i'.holders) ∨
      ∃ threshold now timing armed, action.op = .confirmCarrier sender carrier threshold now timing ∧
        (lifeStep ch carrierId s action).2 = .confirmation ⟨true, armed, false⟩)

/-- The section grants `sender` a memory-hard derivation against the generation `(nonce, expiry)`, on the
fresh-envelope path or on the outer-stale one. -/
def Grants (ch : ChannelState) (carrierId : CarrierBody → String) (nonce : String) (expiry sender : Nat) (s : Life)
    (action : LifeAction) : Prop :=
  (∃ memoizedCarrier m, action.op = .claimCarrierDerivation nonce sender memoizedCarrier ∧
      (lifeStep ch carrierId s action).2 = .granted true ∧ s.store.carriersByNonce.lookup nonce = some m ∧
      m.expiry = expiry) ∨
    ∃ signatureTag now c g, action.op = .outerStaleCarrier nonce signatureTag expiry sender now (.inspect true) ∧
      (lifeStep ch carrierId s action).2 = .outerStale (.derive c g)

/-- The answers that ask the sender to come back, before any derivation of its own. -/
def LifeReply.ComesBack (op : LifeOp) : LifeReply → Prop
  | .lookup .inFlight | .lookup .awaitingPropagation | .lookup .clockRefused => True
  | .confirmation c => c.clockRefused = true
  | .outerStale (.retry _) => ∀ c g matched, ∀ nonce tag expiry sender now,
      op ≠ .outerStaleCarrier nonce tag expiry sender now (.finish c g matched)
  | _ => False

section Log

variable {ch : ChannelState} {carrierId : CarrierBody → String} {s : Life}

/-- What the nonce log remembers it remembers after every section. -/
theorem remembers_lifeStep {nonce : String} {expiry : Nat} (known : Remembers nonce expiry s.log)
    (action : LifeAction) : Remembers nonce expiry (lifeStep ch carrierId s action).1.log := by
  obtain ⟨elapsed, op⟩ := action
  cases op with
  | ingress thread body signatureTag nowInput maxAge proceeds =>
    rcases ingress_cases { s with mono := s.mono + elapsed } thread body signatureTag nowInput maxAge proceeds with
      same | same | ⟨deadline, claims⟩
    · simp only [lifeStep, same]
      exact known
    · simp only [lifeStep, same]
      exact remembers_step _ _ known
    · simp only [lifeStep, claims.result]
      exact remembers_step _ _ known
  | refreshIngress nonce expiry nowInput maxAge => exact remembers_step _ _ known
  | recordArmIntent thread duress now timing =>
    simp only [lifeStep, Life.recordArmIntent]
    split
    · split_ifs <;> exact known
    · exact known
  | recordIntentPair thread spend escape | markCarrierPropagated thread =>
    simp only [lifeStep, Life.onRuling]
    split <;> exact known
  | exit thread =>
    simp only [lifeStep, Life.exit]
    split <;> exact known
  | pruneCarriers => exact known
  | confirmCarrier sender carrier threshold now timing => exact known
  | carrierMemoLookup nonce signatureTag requestExpiry sender now => exact known
  | claimCarrierDerivation nonce sender memoizedCarrier => exact known
  | recordCarrierDerivationResult nonce sender signatureTag generation memoizedCarrier => exact known
  | outerStaleCarrier nonce signatureTag expiry sender now step =>
    simp only [lifeStep, Life.outerStale]
    split <;> exact known

end Log

/-! ### A carrier that will not come back -/

/-- The carrier is gone, and no handler can bring it back. -/
structure Dead (carrierId : CarrierBody → String) (carrier : String) (s : Life) : Prop where
  absent : s.store.intents.lookup carrier = none
  seen : ∃ body, carrierId body = carrier ∧ Remembers body.nonce body.expiry s.log
  unowned : ∀ thread h, s.handlers.lookup thread = some h → h.rulingCarrier = none → carrierId h.body ≠ carrier

section Carriers

variable {ch : ChannelState} {carrierId : CarrierBody → String}
  (separates : ∀ a b, carrierId a = carrierId b → a.nonce = b.nonce ∧ a.expiry = b.expiry)
  {s t : Life} {action : LifeAction} {carrier : String}
include separates

/-- A carrier the log has seen is not the carrier of a handler that arrives. -/
theorem unowned_after (effect : Effect ch carrierId s action t)
    (seen : ∃ body, carrierId body = carrier ∧ Remembers body.nonce body.expiry s.log)
    (unowned : ∀ thread h, s.handlers.lookup thread = some h → h.rulingCarrier = none → carrierId h.body ≠ carrier) :
    ∀ thread h, t.handlers.lookup thread = some h → h.rulingCarrier = none → carrierId h.body ≠ carrier := by
  intro thread h here waits
  cases effect with
  | claimed _ new _ _ _ _ _ unseen _ _ _ _ handlers =>
    rw [handlers] at here
    rcases lookup_insert_some.mp here with ⟨_, rfl⟩ | ⟨_, old⟩
    · rintro rfl
      obtain ⟨body, names, remembered⟩ := seen
      obtain ⟨nonce, expiry⟩ := separates _ _ names
      rw [nonce, expiry] at remembered
      exact unseen remembered
    · exact unowned thread h old waits
  | armed _ _ _ _ _ _ _ _ _ _ _ _ waiting => exact unowned thread h (waiting thread h here waits).2 waits
  | quiet _ _ waiting | pruned _ _ _ waiting | rewrote _ _ _ _ _ waiting | resolved _ _ _ _ _ _ waiting
  | left _ _ _ _ _ _ _ waiting | retired _ _ _ _ _ _ waiting =>
    exact unowned thread h (waiting thread h here waits) waits

omit separates in
/-- Whose hook has not run owns no resident carrier. -/
theorem unowned_resident (sound : s.Sound carrierId) {i : ArmIntent} (found : s.store.intents.lookup carrier = some i) :
    ∀ thread h, s.handlers.lookup thread = some h → h.rulingCarrier = none → carrierId h.body ≠ carrier := by
  rintro thread h here waits rfl
  rw [(sound.claimed thread h here waits).2.1] at found
  cases found

/-- A carrier that leaves is gone for good. -/
theorem dead_of_removed (sound : s.Sound carrierId) {i : ArmIntent} (found : s.store.intents.lookup carrier = some i)
    (gone : (lifeStep ch carrierId s action).1.store.intents.lookup carrier = none) :
    Dead carrierId carrier (lifeStep ch carrierId s action).1 := by
  obtain ⟨body, names, _, remembered, _⟩ := sound.intent carrier i found
  exact ⟨gone, ⟨body, names, remembers_lifeStep remembered action⟩,
    unowned_after separates (lifeStep_effect sound action) ⟨body, names, remembered⟩ (unowned_resident sound found)⟩

theorem dead_lifeStep (sound : s.Sound carrierId) (dead : Dead carrierId carrier s) (action : LifeAction) :
    Dead carrierId carrier (lifeStep ch carrierId s action).1 := by
  obtain ⟨body, names, remembered⟩ := dead.seen
  have effect : Effect ch carrierId s action (lifeStep ch carrierId s action).1 := lifeStep_effect sound action
  refine ⟨?_, ⟨body, names, remembers_lifeStep remembered action⟩,
    unowned_after separates effect dead.seen dead.unowned⟩
  have absent := dead.absent
  cases effect with
  | quiet intents _ _ | resolved _ _ _ _ intents _ _ | left _ _ _ _ _ intents _ _ =>
    rw [intents, absent]
  | pruned _ intents _ _ | claimed _ _ _ _ _ _ _ _ _ _ intents _ _ =>
    rw [intents]
    simp [pruneCarriers, absent]
  | armed thread own _ _ _ _ _ here unruled _ intents _ _ =>
    rw [intents, lookup_insert_eq, if_neg (dead.unowned thread own here unruled).symm, absent]
  | rewrote _ _ _ intents _ _ =>
    rw [intents, lookup_adjust, absent]
    split_ifs <;> rfl
  | retired _ _ _ _ intents _ _ =>
    rw [intents, lookup_erase_eq, absent]
    split_ifs <;> rfl

omit separates in
/-- A resident intent that stays keeps its holders. -/
theorem holders_lifeStep (sound : s.Sound carrierId) (action : LifeAction) {i i' : ArmIntent}
    (found : s.store.intents.lookup carrier = some i)
    (stays : (lifeStep ch carrierId s action).1.store.intents.lookup carrier = some i') :
    i.holders ⊆ i'.holders ∧ i'.committed = i.committed := by
  have same : ∀ {j : ArmIntent}, s.store.intents.lookup carrier = some j →
      i.holders ⊆ j.holders ∧ j.committed = i.committed := by
    intro j there
    rw [found, Option.some.injEq] at there
    rw [there]
    exact ⟨Finset.Subset.refl _, rfl⟩
  have effect : Effect ch carrierId s action (lifeStep ch carrierId s action).1 := lifeStep_effect sound action
  cases effect with
  | quiet intents _ _ | resolved _ _ _ _ intents _ _ | left _ _ _ _ _ intents _ _ =>
    rw [intents] at stays
    exact same stays
  | pruned _ intents _ _ | claimed _ _ _ _ _ _ _ _ _ _ intents _ _ =>
    rw [intents] at stays
    exact same (lookup_retain_some.mp stays).1
  | armed thread own _ _ _ _ _ here unruled _ intents _ _ =>
    rw [intents, lookup_insert_eq, if_neg (unowned_resident sound found thread own here unruled).symm] at stays
    exact same stays
  | rewrote _ f grows intents _ _ =>
    rw [intents] at stays
    obtain ⟨old, there, rfl | ⟨_, rfl⟩⟩ := lookup_adjust_some stays
    · exact same there
    · rw [found, Option.some.injEq] at there
      rw [← there]
      exact grows i
  | retired _ _ _ _ intents _ _ =>
    rw [intents] at stays
    exact same (lookup_erase_some.mp stays).2

/-- `sender` has been counted for `carrier`: it is a holder, or the carrier is gone. -/
def Counted (carrierId : CarrierBody → String) (sender : Nat) (carrier : String) (s : Life) : Prop :=
  (∃ i, s.store.intents.lookup carrier = some i ∧ sender ∈ i.holders) ∨ Dead carrierId carrier s

theorem counted_of_enters (sound : s.Sound carrierId) {sender : Nat}
    (enters : Enters ch carrierId sender carrier s action) :
    Counted carrierId sender carrier (lifeStep ch carrierId s action).1 := by
  obtain ⟨i, found, _, held | ⟨threshold, now, timing, armed, op, committed⟩⟩ := enters
  · exact Or.inl held
  · refine Or.inr (dead_of_removed separates sound found ?_)
    obtain ⟨elapsed, _⟩ := action
    subst op
    simp only [lifeStep, LifeReply.confirmation.injEq] at committed ⊢
    rcases confirmCarrier_cases s.store sender carrier threshold now timing (s.mono + elapsed) with
      ⟨uncommitted, _⟩ | ⟨intent, _, same⟩
    · rw [committed] at uncommitted
      cases uncommitted
    · rw [same, confirmed_intents, lookup_erase_eq, if_pos rfl]

theorem counted_lifeStep (sound : s.Sound carrierId) {sender : Nat} (counted : Counted carrierId sender carrier s)
    (action : LifeAction) : Counted carrierId sender carrier (lifeStep ch carrierId s action).1 := by
  rcases counted with ⟨i, found, held⟩ | dead
  · cases stays : (lifeStep ch carrierId s action).1.store.intents.lookup carrier with
    | none => exact Or.inr (dead_of_removed separates sound found stays)
    | some i' => exact Or.inl ⟨i', stays, (holders_lifeStep sound action found stays).1 held⟩
  · exact Or.inr (dead_lifeStep separates sound dead action)

omit separates in
theorem not_enters_of_counted {sender : Nat} (counted : Counted carrierId sender carrier s) :
    ¬Enters ch carrierId sender carrier s action := by
  rintro ⟨i, found, outside, _⟩
  rcases counted with ⟨j, there, held⟩ | dead
  · rw [found, Option.some.injEq] at there
    exact outside (there ▸ held)
  · rw [dead.absent] at found
    cases found

end Carriers

/-! ### One derivation for each sender -/

/-- The generation has left the nonce, and no handler can bring it back. -/
structure Spent (nonce : String) (expiry : Nat) (s : Life) : Prop where
  absent : ∀ m, s.store.carriersByNonce.lookup nonce = some m → m.expiry ≠ expiry
  seen : Remembers nonce expiry s.log
  unowned : ∀ thread h, s.handlers.lookup thread = some h → h.rulingCarrier = none → h.body.nonce = nonce →
    h.body.expiry ≠ expiry

/-- `sender` has an entry in the generation's memo. -/
def Entered (nonce : String) (expiry sender : Nat) (s : Life) : Prop :=
  ∃ c tag resolved deadline, s.store.carriersByNonce.lookup nonce = some ⟨.derived c tag resolved, expiry, deadline⟩ ∧
    (resolved.lookup sender).isSome = true

/-- `sender` has drawn its derivation against the generation, or the generation has left. -/
def Drawn (nonce : String) (expiry sender : Nat) (s : Life) : Prop :=
  Entered nonce expiry sender s ∨ Spent nonce expiry s

section Ration

variable {ch : ChannelState} {carrierId : CarrierBody → String} {s t : Life} {action : LifeAction} {nonce : String}
  {expiry sender : Nat}

/-- A granted derivation is the sender's first against the memo, and leaves an entry. -/
theorem grants_cases (grants : Grants ch carrierId nonce expiry sender s action) :
    ∃ c tag resolved deadline entry,
      s.store.carriersByNonce.lookup nonce = some ⟨.derived c tag resolved, expiry, deadline⟩ ∧
        resolved.lookup sender = none ∧
        (lifeStep ch carrierId s action).1.store = s.store.resolveSignature nonce sender entry := by
  obtain ⟨elapsed, op⟩ := action
  rcases grants with ⟨memoizedCarrier, m, rfl, granted, held, same⟩ | ⟨signatureTag, now, c, g, rfl, granted⟩
  · simp only [lifeStep, LifeReply.granted.injEq] at granted ⊢
    rcases claimCarrierDerivation_cases s.store nonce sender memoizedCarrier with
      refused | ⟨tag, resolved, e, d, present, first, result⟩
    · rw [refused] at granted
      cases granted
    · rw [present, Option.some.injEq] at held
      subst held same
      exact ⟨_, _, _, _, _, present, first, congrArg Prod.fst result⟩
  · simp only [lifeStep, Life.outerStale] at granted ⊢
    cases vouched : s.log.outerStaleCarrierDeadline nonce expiry with
    | none =>
      rw [vouched] at granted
      cases granted
    | some deadline =>
      simp only [vouched, LifeReply.outerStale.injEq] at granted ⊢
      rcases outerStaleCarrier_cases ch s.store nonce signatureTag expiry deadline sender now (.inspect true)
        (s.mono + elapsed) with ⟨_, reads⟩ | ⟨c', tag, resolved, present, _, ⟨_, first, _, result⟩ | ⟨⟨_, _, _, other⟩, _⟩⟩
      · exact absurd granted (reads rfl c g)
      · exact ⟨_, _, _, _, _, present, first, result⟩
      · cases other

/-- The generation of a handler that arrives is not one the log has seen. -/
theorem unowned_generation (effect : Effect ch carrierId s action t) (seen : Remembers nonce expiry s.log)
    (unowned : ∀ thread h, s.handlers.lookup thread = some h → h.rulingCarrier = none → h.body.nonce = nonce →
      h.body.expiry ≠ expiry) :
    ∀ thread h, t.handlers.lookup thread = some h → h.rulingCarrier = none → h.body.nonce = nonce →
      h.body.expiry ≠ expiry := by
  intro thread h here waits
  cases effect with
  | claimed _ new _ _ _ _ _ unseen _ _ _ _ handlers =>
    rw [handlers] at here
    rcases lookup_insert_some.mp here with ⟨_, rfl⟩ | ⟨_, old⟩
    · rintro rfl rfl
      exact unseen seen
    · exact unowned thread h old waits
  | armed _ _ _ _ _ _ _ _ _ _ _ _ waiting => exact unowned thread h (waiting thread h here waits).2 waits
  | quiet _ _ waiting | pruned _ _ _ waiting | rewrote _ _ _ _ _ waiting | resolved _ _ _ _ _ _ waiting
  | left _ _ _ _ _ _ _ waiting | retired _ _ _ _ _ _ waiting =>
    exact unowned thread h (waiting thread h here waits) waits

theorem spent_lifeStep (sound : s.Sound carrierId) (spent : Spent nonce expiry s) (action : LifeAction) :
    Spent nonce expiry (lifeStep ch carrierId s action).1 := by
  have effect : Effect ch carrierId s action (lifeStep ch carrierId s action).1 := lifeStep_effect sound action
  refine ⟨?_, remembers_lifeStep spent.seen action, unowned_generation effect spent.seen spent.unowned⟩
  intro m held
  cases effect with
  | quiet _ memos _ | rewrote _ _ _ _ memos _ =>
    rw [memos] at held
    exact spent.absent m held
  | pruned _ _ memos _ | retired _ _ _ _ _ memos _ =>
    rw [memos] at held
    exact spent.absent m (lookup_retain_some.mp held).1
  | claimed _ new _ _ _ _ _ unseen expires _ _ memos _ =>
    rw [memos] at held
    rcases lookup_insert_some.mp held with ⟨rfl, rfl⟩ | ⟨_, old⟩
    · rintro rfl
      simp only [MemoGeneration.claim, expires] at spent
      exact unseen spent.seen
    · exact spent.absent m (lookup_retain_some.mp old).1
  | armed thread own _ _ _ _ _ here unruled _ _ memos _ =>
    rcases memos with ⟨memos, _⟩ | memos
    · rw [memos] at held
      rcases lookup_insert_some.mp held with ⟨rfl, rfl⟩ | ⟨_, old⟩
      · have other := spent.unowned thread own here unruled rfl
        rw [← (sound.known thread own here).1] at other
        exact other
      · exact spent.absent m old
    · rw [memos] at held
      exact spent.absent m held
  | resolved _ _ _ _ _ memos _ =>
    rw [memos] at held
    obtain ⟨old, there, same, _⟩ := lookup_resolveSignature_back held
    rw [same]
    exact spent.absent old there
  | left _ _ _ _ _ _ memos _ =>
    rw [memos] at held
    exact spent.absent m (lookup_releaseNonceClaim.mp held).1

/-- A sender's entry stays as long as its generation does. -/
theorem entry_lifeStep (separates : ∀ a b, carrierId a = carrierId b → a.nonce = b.nonce ∧ a.expiry = b.expiry)
    (sound : s.Sound carrierId) (action : LifeAction) {c : String} {tag : Bytes} {resolved : Map Nat Bytes}
    {deadline : Nat} (held : s.store.carriersByNonce.lookup nonce = some ⟨.derived c tag resolved, expiry, deadline⟩)
    (entered : (resolved.lookup sender).isSome = true) {m : CarrierMemo}
    (stays : (lifeStep ch carrierId s action).1.store.carriersByNonce.lookup nonce = some m)
    (same : m.expiry = expiry) :
    ∃ more, m = ⟨.derived c tag more, expiry, deadline⟩ ∧ (more.lookup sender).isSome = true := by
  have kept : s.store.carriersByNonce.lookup nonce = some m →
      ∃ more, m = ⟨.derived c tag more, expiry, deadline⟩ ∧ (more.lookup sender).isSome = true := by
    intro there
    rw [held, Option.some.injEq] at there
    exact ⟨resolved, there.symm, entered⟩
  have effect : Effect ch carrierId s action (lifeStep ch carrierId s action).1 := lifeStep_effect sound action
  cases effect with
  | quiet _ memos _ | rewrote _ _ _ _ memos _ =>
    rw [memos] at stays
    exact kept stays
  | pruned _ _ memos _ | retired _ _ _ _ _ memos _ =>
    rw [memos] at stays
    exact kept (lookup_retain_some.mp stays).1
  | claimed _ new _ _ _ _ _ unseen expires _ _ memos _ =>
    rw [memos] at stays
    rcases lookup_insert_some.mp stays with ⟨rfl, rfl⟩ | ⟨_, old⟩
    · have remembered := sound.memo_remembered separates held
      simp only [MemoGeneration.claim, expires] at same
      rw [← same] at remembered
      exact absurd remembered unseen
    · exact kept (lookup_retain_some.mp old).1
  | armed _ own _ _ _ _ _ _ _ _ _ memos _ =>
    rcases memos with ⟨memos, owned⟩ | memos
    · rw [memos] at stays
      rcases lookup_insert_some.mp stays with ⟨rfl, _⟩ | ⟨_, old⟩
      · cases owned _ held
      · exact kept old
    · rw [memos] at stays
      exact kept stays
  | resolved other who entry _ _ memos _ =>
    obtain ⟨more, there, grown⟩ := @lookup_resolveSignature_derived _ other _ who entry _ _ _ _ _ held
    rw [memos, there, Option.some.injEq] at stays
    refine ⟨more, stays.symm, ?_⟩
    rw [grown]
    split_ifs
    · rw [lookup_insert_eq]
      split_ifs
      · rfl
      · exact entered
    · exact entered
  | left _ _ _ _ _ _ memos _ =>
    rw [memos] at stays
    exact kept (lookup_releaseNonceClaim.mp stays).1

/-- A resolved signature is an entry of its own sender only. -/
theorem entered_resolveSignature {n : String} {who : Nat} {c : String} {own entry : Bytes} {resolved : Map Nat Bytes}
    {e d : Nat} (held : s.store.carriersByNonce.lookup n = some ⟨.derived c own resolved, e, d⟩)
    (memos : t.store = s.store.resolveSignature n who entry) (entered : Entered nonce expiry sender t) :
    Entered nonce expiry sender s ∨ n = nonce ∧ who = sender ∧ e = expiry := by
  obtain ⟨c', tag, more, deadline, there, known⟩ := entered
  rw [memos] at there
  obtain ⟨⟨outcome, _, _⟩, present, rfl, rfl, back⟩ := lookup_resolveSignature_back there
  obtain ⟨before, rfl⟩ := back c' tag more rfl
  obtain ⟨_, there', grown⟩ := @lookup_resolveSignature_derived _ n _ who entry _ _ _ _ _ present
  rw [there, Option.some.injEq, CarrierMemo.mk.injEq, MemoOutcome.derived.injEq] at there'
  rw [there'.1.2.2, grown] at known
  split_ifs at known with here
  · subst here
    rw [lookup_insert_eq] at known
    split_ifs at known with same
    · rw [held, Option.some.injEq, CarrierMemo.mk.injEq] at present
      exact Or.inr ⟨rfl, same.symm, present.2.1⟩
    · exact Or.inl ⟨c', tag, before, _, present, known⟩
  · exact Or.inl ⟨c', tag, before, _, present, known⟩

/-- Of the receipts, only a granted derivation writes a first entry. -/
theorem grants_of_receipt (receipt : action.op.IsReceipt) (fresh : ¬Entered nonce expiry sender s)
    (entered : Entered nonce expiry sender (lifeStep ch carrierId s action).1) :
    Grants ch carrierId nonce expiry sender s action := by
  -- A write over an entry that was there is not a first one.
  have over_old : ∀ {n : String} {who : Nat} {c : String} {own entry old : Bytes} {resolved : Map Nat Bytes}
      {e d : Nat}, s.store.carriersByNonce.lookup n = some ⟨.derived c own resolved, e, d⟩ →
      resolved.lookup who = some old →
      (lifeStep ch carrierId s action).1.store = s.store.resolveSignature n who entry → False := by
    intro n who c own entry old resolved e d held known writes
    rcases entered_resolveSignature held writes entered with before | ⟨rfl, rfl, rfl⟩
    · exact fresh before
    · exact fresh ⟨c, own, resolved, d, held, by rw [known]; rfl⟩
  have unchanged : (lifeStep ch carrierId s action).1.store = s.store → False := by
    intro same
    obtain ⟨c, tag, resolved, deadline, held, known⟩ := entered
    rw [same] at held
    exact fresh ⟨c, tag, resolved, deadline, held, known⟩
  obtain ⟨elapsed, op⟩ := action
  cases op with
  | claimCarrierDerivation n who memoizedCarrier =>
    rcases claimCarrierDerivation_cases s.store n who memoizedCarrier with
      same | ⟨tag, resolved, e, d, held, _, same⟩
    · exact (unchanged (congrArg Prod.fst same)).elim
    · rcases entered_resolveSignature held (congrArg Prod.fst same) entered with before | ⟨rfl, rfl, rfl⟩
      · exact absurd before fresh
      · exact Or.inl ⟨memoizedCarrier, _, rfl, by simp only [lifeStep, same], held, rfl⟩
  | recordCarrierDerivationResult n who signatureTag generation memoizedCarrier =>
    rcases recordCarrierDerivationResult_cases s.store n who signatureTag generation memoizedCarrier with
      same | ⟨resolved, held, known, same⟩
    · exact (unchanged (congrArg Prod.fst same)).elim
    · exact (over_old held known (congrArg Prod.fst same)).elim
  | outerStaleCarrier n signatureTag e who now step =>
    cases vouched : s.log.outerStaleCarrierDeadline n e with
    | none => exact (unchanged (by simp only [lifeStep, Life.outerStale, vouched])).elim
    | some deadline =>
      have writes : (lifeStep ch carrierId s ⟨elapsed, .outerStaleCarrier n signatureTag e who now step⟩).1.store =
          (s.store.outerStaleCarrier ch n signatureTag e deadline who now step (s.mono + elapsed)).1 := by
        simp only [lifeStep, Life.outerStale, vouched]
      rcases outerStaleCarrier_cases ch s.store n signatureTag e deadline who now step (s.mono + elapsed) with
        ⟨same, _⟩ | ⟨c, own, resolved, held, _, ⟨rfl, _, derives, same⟩ | ⟨_, known, tag, same⟩⟩
      · exact (unchanged (writes.trans same)).elim
      · rcases entered_resolveSignature held (writes.trans same) entered with before | ⟨rfl, rfl, rfl⟩
        · exact absurd before fresh
        · refine Or.inr ⟨signatureTag, now, c, ⟨own, e, deadline⟩, rfl, ?_⟩
          simp only [lifeStep, Life.outerStale, vouched, derives]
      · exact (over_old held known (writes.trans same)).elim
  | _ => exact absurd receipt (by simp [LifeOp.IsReceipt])

/-- A sender gets its entry with its derivation. -/
theorem grants_of_entered (sound : s.Sound carrierId) (fresh : ¬Entered nonce expiry sender s)
    (entered : Entered nonce expiry sender (lifeStep ch carrierId s action).1) :
    Grants ch carrierId nonce expiry sender s action := by
  have kept : ∀ {memos : Map String CarrierMemo}, (lifeStep ch carrierId s action).1.store.carriersByNonce = memos →
      (∀ {m}, memos.lookup nonce = some m → s.store.carriersByNonce.lookup nonce = some m ∨
        ∀ c tag resolved, m.outcome = .derived c tag resolved → resolved = ∅) → False := by
    intro memos same back
    obtain ⟨c, tag, resolved, deadline, held, entry⟩ := entered
    rw [same] at held
    rcases back held with there | empty
    · exact fresh ⟨c, tag, resolved, deadline, there, entry⟩
    · rw [empty c tag resolved rfl] at entry
      cases entry
  have effect : Effect ch carrierId s action (lifeStep ch carrierId s action).1 := lifeStep_effect sound action
  cases effect with
  | quiet _ memos _ | rewrote _ _ _ _ memos _ => exact (kept memos Or.inl).elim
  | pruned _ _ memos _ | retired _ _ _ _ _ memos _ =>
    exact (kept memos (fun held => Or.inl (lookup_retain_some.mp held).1)).elim
  | claimed _ _ _ _ _ _ _ _ _ _ _ memos _ =>
    refine (kept memos ?_).elim
    intro m held
    rcases lookup_insert_some.mp held with ⟨_, rfl⟩ | ⟨_, old⟩
    · exact Or.inr (by rintro c tag resolved ⟨⟩)
    · exact Or.inl (lookup_retain_some.mp old).1
  | armed _ _ _ _ _ _ _ _ _ _ _ memos _ =>
    rcases memos with ⟨memos, _⟩ | memos
    · refine (kept memos ?_).elim
      intro m held
      rcases lookup_insert_some.mp held with ⟨_, rfl⟩ | ⟨_, old⟩
      · exact Or.inr (by rintro c tag resolved ⟨⟩; rfl)
      · exact Or.inl old
    · exact (kept memos Or.inl).elim
  | left _ _ _ _ _ _ memos _ =>
    exact (kept memos (fun held => Or.inl (lookup_releaseNonceClaim.mp held).1)).elim
  | resolved _ _ _ receipt _ _ _ => exact grants_of_receipt receipt fresh entered

section Once

variable (separates : ∀ a b, carrierId a = carrierId b → a.nonce = b.nonce ∧ a.expiry = b.expiry)
include separates

/-- A generation that leaves after its derivation is spent. -/
theorem spent_of_removed (sound : s.Sound carrierId) {c : String} {tag : Bytes} {resolved : Map Nat Bytes}
    {deadline : Nat} (held : s.store.carriersByNonce.lookup nonce = some ⟨.derived c tag resolved, expiry, deadline⟩)
    (gone : ∀ m, (lifeStep ch carrierId s action).1.store.carriersByNonce.lookup nonce = some m → m.expiry ≠ expiry) :
    Spent nonce expiry (lifeStep ch carrierId s action).1 := by
  have seen : Remembers nonce expiry s.log := sound.memo_remembered separates held
  refine ⟨gone, remembers_lifeStep seen action, unowned_generation (lifeStep_effect sound action) seen ?_⟩
  -- A handler that still waits for its hook owns a claim, and this memo is derived.
  rintro thread h here waits rfl rfl
  cases sound.sole thread h here waits _ held rfl

theorem drawn_lifeStep (sound : s.Sound carrierId) (drawn : Drawn nonce expiry sender s) (action : LifeAction) :
    Drawn nonce expiry sender (lifeStep ch carrierId s action).1 := by
  rcases drawn with ⟨c, tag, resolved, deadline, held, entered⟩ | spent
  · by_cases gone : ∀ m, (lifeStep ch carrierId s action).1.store.carriersByNonce.lookup nonce = some m →
        m.expiry ≠ expiry
    · exact Or.inr (spent_of_removed separates sound held gone)
    · push Not at gone
      obtain ⟨m, stays, same⟩ := gone
      obtain ⟨more, rfl, still⟩ := entry_lifeStep separates sound action held entered stays same
      exact Or.inl ⟨c, tag, more, deadline, stays, still⟩
  · exact Or.inr (spent_lifeStep sound spent action)

omit separates in
theorem drawn_of_grants (grants : Grants ch carrierId nonce expiry sender s action) :
    Drawn nonce expiry sender (lifeStep ch carrierId s action).1 := by
  obtain ⟨c, tag, resolved, deadline, entry, held, _, writes⟩ := grants_cases grants
  obtain ⟨more, there, grown⟩ := @lookup_resolveSignature_derived _ nonce _ sender entry _ _ _ _ _ held
  rw [← writes] at there
  refine Or.inl ⟨c, tag, more, deadline, there, ?_⟩
  rw [grown, if_pos rfl, AList.lookup_insert]
  rfl

omit separates in
theorem not_grants_of_drawn (drawn : Drawn nonce expiry sender s) :
    ¬Grants ch carrierId nonce expiry sender s action := by
  intro grants
  obtain ⟨c, tag, resolved, deadline, _, held, first, _⟩ := grants_cases grants
  rcases drawn with ⟨_, _, _, _, there, entered⟩ | spent
  · rw [held, Option.some.injEq, CarrierMemo.mk.injEq, MemoOutcome.derived.injEq] at there
    rw [← there.1.2.2, first] at entered
    cases entered
  · exact spent.absent _ held rfl

end Once

end Ration

/-! ### Told to come back -/

section Back

variable {ch : ChannelState} {carrierId : CarrierBody → String} {s : Life}

/-- A receipt that the clock refuses is not counted. -/
theorem confirmCarrier_refused {s : PartialStore} {sender : Nat} {carrier : String} {threshold now : Nat}
    {timing : DuressTiming} {monoNow : Nat}
    (refused : (s.confirmCarrier sender carrier threshold now timing monoNow).2.clockRefused = true) :
    (s.confirmCarrier sender carrier threshold now timing monoNow).1 = s := by
  revert refused
  unfold confirmCarrier
  cases s.intents.lookup carrier with
  | none => exact fun _ => rfl
  | some intent =>
    simp only
    split_ifs
    · exact fun _ => rfl
    · exact fun _ => rfl
    · exact fun _ => rfl
    · intro refused
      cases refused
    · intro refused
      cases refused

theorem comesBack_keeps {action : LifeAction}
    (back : (lifeStep ch carrierId s action).2.ComesBack action.op) :
    (lifeStep ch carrierId s action).1.store = s.store := by
  obtain ⟨elapsed, op⟩ := action
  cases op with
  | confirmCarrier sender carrier threshold now timing => exact confirmCarrier_refused back
  | carrierMemoLookup nonce signatureTag requestExpiry sender now => rfl
  | outerStaleCarrier nonce signatureTag expiry sender now step =>
    cases vouched : s.log.outerStaleCarrierDeadline nonce expiry with
    | none => simp only [lifeStep, Life.outerStale, vouched]
    | some deadline =>
      simp only [lifeStep, Life.outerStale, vouched] at back ⊢
      rcases outerStaleCarrier_cases ch s.store nonce signatureTag expiry deadline sender now step
        (s.mono + elapsed) with ⟨same, _⟩ | ⟨c, own, resolved, _, _, ⟨_, _, derives, _⟩ | ⟨⟨_, _, _, rfl⟩, _, _, _⟩⟩
      · exact same
      · rw [derives] at back
        exact back.elim
      · cases outcome : (s.store.outerStaleCarrier ch nonce signatureTag expiry deadline sender now _
          (s.mono + elapsed)).2 with
        | retry seconds =>
          rw [outcome] at back
          exact absurd rfl (back _ _ _ _ _ _ _ _)
        | terminal =>
          rw [outcome] at back
          exact back.elim
        | derive c g =>
          rw [outcome] at back
          exact back.elim
  | ingress thread body signatureTag nowInput maxAge proceeds =>
    revert back
    simp only [lifeStep, Life.ingress]
    split_ifs
    · exact fun back => back.elim
    · split <;> exact fun back => back.elim
    · split <;> exact fun back => back.elim
  | _ => exact back.elim

end Back

/-! ### Coming back -/

/-- No resident intent is committed: the commit retires it. -/
def Pending (s : Life) : Prop := ∀ c i, s.store.intents.lookup c = some i → i.committed = false

/-- Nothing but `sender`'s own count keeps a receipt for `body`'s carrier from being counted. -/
structure Open (carrierId : CarrierBody → String) (body : CarrierBody) (sender elapsed now : Nat) (s : Life)
    (intent : ArmIntent) : Prop where
  found : s.store.intents.lookup (carrierId body) = some intent
  staged : intent.readyToPropagate = true
  outside : sender ∉ intent.holders
  ahead : s.mono + elapsed < intent.deadline
  unexpired : now < intent.expiry

section Counting

variable {ch : ChannelState} {carrierId : CarrierBody → String} {s : Life}

theorem pending_lifeStep (sound : s.Sound carrierId) (pending : Pending s) (action : LifeAction) :
    Pending (lifeStep ch carrierId s action).1 := by
  intro c i found
  have effect : Effect ch carrierId s action (lifeStep ch carrierId s action).1 := lifeStep_effect sound action
  cases effect with
  | quiet intents _ _ | resolved _ _ _ _ intents _ _ | left _ _ _ _ _ intents _ _ =>
    rw [intents] at found
    exact pending c i found
  | pruned _ intents _ _ | claimed _ _ _ _ _ _ _ _ _ _ intents _ _ =>
    rw [intents] at found
    exact pending c i (lookup_retain_some.mp found).1
  | armed _ _ _ _ _ _ _ _ _ uncommitted intents _ _ =>
    rw [intents] at found
    rcases lookup_insert_some.mp found with ⟨_, rfl⟩ | ⟨_, old⟩
    · exact uncommitted
    · exact pending c i old
  | rewrote _ f grows intents _ _ =>
    rw [intents] at found
    obtain ⟨old, there, rfl | ⟨_, rfl⟩⟩ := lookup_adjust_some found
    · exact pending c i there
    · rw [(grows old).2]
      exact pending c old there
  | retired _ _ _ _ intents _ _ =>
    rw [intents] at found
    exact pending c i (lookup_erase_some.mp found).2

variable (separates : ∀ a b, carrierId a = carrierId b → a.nonce = b.nonce ∧ a.expiry = b.expiry)
  {body : CarrierBody} {sender elapsed now : Nat} {intent : ArmIntent}
include separates

/-- An open carrier's memo is derived and its own. -/
theorem Open.memo (sound : s.Sound carrierId) (isOpen : Open carrierId body sender elapsed now s intent) :
    intent.expiry = body.expiry ∧ ∃ tag resolved, s.store.carriersByNonce.lookup body.nonce =
      some ⟨.derived (carrierId body) tag resolved, body.expiry, intent.deadline⟩ := by
  obtain ⟨other, names, expiry, _, past | ⟨tag, resolved, held⟩⟩ := sound.intent _ intent isOpen.found
  · exact absurd isOpen.ahead (by omega)
  · obtain ⟨nonce, same⟩ := separates _ _ names
    rw [expiry, same, nonce] at held
    exact ⟨expiry.trans same, tag, resolved, held⟩

omit separates in
/-- The lookup of an open carrier answers by the sender's entry alone. -/
theorem Open.lookup (pending : Pending s) (isOpen : Open carrierId body sender elapsed now s intent)
    (expiry : intent.expiry = body.expiry) {tag : Bytes} {resolved : Map Nat Bytes}
    (held : s.store.carriersByNonce.lookup body.nonce =
      some ⟨.derived (carrierId body) tag resolved, body.expiry, intent.deadline⟩) (signatureTag : Bytes) :
    s.store.carrierMemoLookup ch body.nonce signatureTag body.expiry sender now (s.mono + elapsed) =
      if tag = signatureTag ∨ resolved.lookup sender = some signatureTag then .exact (carrierId body)
      else if resolved.lookup sender = some (ch.lib.taggedHash outerStaleClaimTag signatureTag) then .inFlight
      else if (resolved.lookup sender).isSome then .skip
      else .deriveForConfirmation (carrierId body) ⟨tag, body.expiry, intent.deadline⟩ := by
  have unexpired : ¬body.expiry ≤ now := by
    have later := isOpen.unexpired
    omega
  have ahead : ¬intent.deadline ≤ s.mono + elapsed := by
    have later := isOpen.ahead
    omega
  simp [carrierMemoLookup, held, derivedLookup, isOpen.found, isOpen.staged, isOpen.outside,
    pending _ _ isOpen.found, unexpired, ahead]

omit separates in
/-- A sender without an entry is granted its derivation. -/
theorem Open.claim (pending : Pending s) (isOpen : Open carrierId body sender elapsed now s intent) {tag : Bytes}
    {resolved : Map Nat Bytes} (held : s.store.carriersByNonce.lookup body.nonce =
      some ⟨.derived (carrierId body) tag resolved, body.expiry, intent.deadline⟩)
    (first : resolved.lookup sender = none) :
    s.store.claimCarrierDerivation body.nonce sender (carrierId body) =
      (s.store.resolveSignature body.nonce sender tag, true) := by
  simp [claimCarrierDerivation, isOpen.found, isOpen.outside, pending _ _ isOpen.found, held, first]

omit separates in
/-- Counting the sender is all that is left. -/
theorem Open.enters (pending : Pending s) (isOpen : Open carrierId body sender elapsed now s intent)
    (threshold : Nat) (timing : DuressTiming) :
    Enters ch carrierId sender (carrierId body) s
      ⟨elapsed, .confirmCarrier sender (carrierId body) threshold now timing⟩ := by
  have admitted : ¬(intent.readyToPropagate = false ∨ intent.committed = true ∨ sender ∈ intent.holders) := by
    simp [isOpen.staged, pending _ _ isOpen.found, isOpen.outside]
  have ahead : ¬intent.deadline ≤ s.mono + elapsed := by
    have later := isOpen.ahead
    omega
  have unexpired : ¬intent.expiry ≤ now := by
    have later := isOpen.unexpired
    omega
  refine ⟨intent, isOpen.found, isOpen.outside, ?_⟩
  by_cases short : (insert sender intent.holders).card < threshold
  · left
    refine ⟨{ intent with holders := insert sender intent.holders }, ?_, Finset.mem_insert_self _ _⟩
    simp [lifeStep, confirmCarrier, isOpen.found, admitted, ahead, unexpired, short, addHolder, updateIntent]
  · right
    refine ⟨threshold, now, timing, intent.duress, rfl, ?_⟩
    simp [lifeStep, confirmCarrier, isOpen.found, admitted, ahead, unexpired, short]

omit separates in
/-- A derivation that matches leaves the sender's own signature, and the next lookup is exact. -/
theorem Open.derives (pending : Pending s) (isOpen : Open carrierId body sender elapsed now s intent)
    (expiry : intent.expiry = body.expiry) {tag : Bytes} {resolved : Map Nat Bytes}
    (held : s.store.carriersByNonce.lookup body.nonce =
      some ⟨.derived (carrierId body) tag resolved, body.expiry, intent.deadline⟩)
    (first : resolved.lookup sender = none) (signatureTag : Bytes) :
    (lifeStep ch carrierId (exec (lifeStep ch carrierId) s
        [⟨elapsed, .claimCarrierDerivation body.nonce sender (carrierId body)⟩,
          ⟨0, .recordCarrierDerivationResult body.nonce sender signatureTag ⟨tag, body.expiry, intent.deadline⟩
            (carrierId body)⟩])
      ⟨0, .carrierMemoLookup body.nonce signatureTag body.expiry sender now⟩).2 =
      .lookup (.exact (carrierId body)) := by
  let claimed : Life := { s with mono := s.mono + elapsed, store := s.store.resolveSignature body.nonce sender tag }
  let recorded : Life := { claimed with store := claimed.store.resolveSignature body.nonce sender signatureTag }
  obtain ⟨_, marked, rfl⟩ := @lookup_resolveSignature_derived _ body.nonce _ sender tag _ _ _ _ _ held
  obtain ⟨_, entered, rfl⟩ := @lookup_resolveSignature_derived _ body.nonce _ sender signatureTag _ _ _ _ _ marked
  have granted : (lifeStep ch carrierId s
      ⟨elapsed, .claimCarrierDerivation body.nonce sender (carrierId body)⟩).1 = claimed := by
    simp only [lifeStep, isOpen.claim pending held first]
    rfl
  have accepted : (lifeStep ch carrierId claimed
      ⟨0, .recordCarrierDerivationResult body.nonce sender signatureTag ⟨tag, body.expiry, intent.deadline⟩
        (carrierId body)⟩).1 = recorded := by
    simp [lifeStep, recordCarrierDerivationResult, claimed, recorded, marked]
  have quiet : Pending recorded := pending
  have still : Open carrierId body sender 0 now recorded intent :=
    ⟨isOpen.found, isOpen.staged, isOpen.outside, isOpen.ahead, isOpen.unexpired⟩
  simp only [exec_cons, exec_nil, granted, accepted]
  have answer : recorded.store.carrierMemoLookup ch body.nonce signatureTag body.expiry sender now
      (recorded.mono + 0) = _ := still.lookup quiet expiry entered signatureTag
  simp only [if_true, AList.lookup_insert, or_true] at answer
  exact congrArg LifeReply.lookup answer

end Counting

/-- Receipts under any interleaving with the handler they race and any wall clock. A sender enters a
carrier's holders once at most and is granted one derivation for each generation at most; whoever is told
to come back has changed nothing; and a receipt that comes for an open carrier is counted, unless the
sender's one derivation has gone to something else than this signature. -/
theorem receipts_counted (ch : ChannelState) {carrierId : CarrierBody → String}
    (separates : ∀ a b, carrierId a = carrierId b → a.nonce = b.nonce ∧ a.expiry = b.expiry)
    (config : StoreConfig) (actions : List LifeAction) :
    let step := lifeStep ch carrierId
    let s := lifeAfter ch carrierId config actions
    (∀ before a between b after, actions = before ++ a :: between ++ b :: after →
        (∀ sender carrier, Enters ch carrierId sender carrier (lifeAfter ch carrierId config before) a →
          ¬Enters ch carrierId sender carrier (lifeAfter ch carrierId config (before ++ a :: between)) b) ∧
        ∀ nonce expiry sender, Grants ch carrierId nonce expiry sender (lifeAfter ch carrierId config before) a →
          ¬Grants ch carrierId nonce expiry sender (lifeAfter ch carrierId config (before ++ a :: between)) b) ∧
      (∀ action, (step s action).2.ComesBack action.op → (step s action).1.store = s.store) ∧
      ∀ body sender elapsed now intent, Open carrierId body sender elapsed now s intent →
        (∀ threshold timing, Enters ch carrierId sender (carrierId body) s
          ⟨elapsed, .confirmCarrier sender (carrierId body) threshold now timing⟩) ∧
        ∀ signatureTag,
          let answer := (step s ⟨elapsed, .carrierMemoLookup body.nonce signatureTag body.expiry sender now⟩).2
          let claim : LifeAction := ⟨elapsed, .claimCarrierDerivation body.nonce sender (carrierId body)⟩
          answer = .lookup (.exact (carrierId body)) ∨
            (∃ g, answer = .lookup (.deriveForConfirmation (carrierId body) g) ∧
              Grants ch carrierId body.nonce body.expiry sender s claim ∧
              (step (exec step s [claim,
                ⟨0, .recordCarrierDerivationResult body.nonce sender signatureTag g (carrierId body)⟩])
                ⟨0, .carrierMemoLookup body.nonce signatureTag body.expiry sender now⟩).2 =
                .lookup (.exact (carrierId body))) ∨
            ∃ tag resolved entry, s.store.carriersByNonce.lookup body.nonce =
                some ⟨.derived (carrierId body) tag resolved, body.expiry, intent.deadline⟩ ∧
              tag ≠ signatureTag ∧ resolved.lookup sender = some entry ∧ entry ≠ signatureTag ∧
              Happened step (Grants ch carrierId body.nonce body.expiry sender) (Life.initial config) actions := by
  intro step s
  have keep : ∀ s action, Life.Sound carrierId s → Life.Sound carrierId (step s action).1 :=
    fun _ action sound => lifeStep_sound separates ch sound action
  have start : Life.Sound carrierId (Life.initial config) := Lawful.initial
  have sound : s.Sound carrierId := lifeAfter_sound ch separates config actions
  have pending : Pending s :=
    (exec_invariant step (fun s => Life.Sound carrierId s ∧ Pending s)
      (fun s action holds => ⟨keep s action holds.1, pending_lifeStep holds.1 holds.2 action⟩)
      (Life.initial config) ⟨start, by intro c i found; cases found⟩ actions).2
  refine ⟨?_, ?_, ?_⟩
  · intro before a between b after _
    constructor
    · intro sender carrier
      exact happens_at_most_once step (Life.Sound carrierId) (Counted carrierId sender carrier)
        (Enters ch carrierId sender carrier) keep
        (fun s action sound enters => counted_of_enters separates sound enters)
        (fun s action sound counted => counted_lifeStep separates sound counted action)
        (fun s action _ counted => not_enters_of_counted counted) (Life.initial config) start before between a b
    · intro nonce expiry sender
      exact happens_at_most_once step (Life.Sound carrierId) (Drawn nonce expiry sender)
        (Grants ch carrierId nonce expiry sender) keep
        (fun s action _ grants => drawn_of_grants grants)
        (fun s action sound drawn => drawn_lifeStep separates sound drawn action)
        (fun s action _ drawn => not_grants_of_drawn drawn) (Life.initial config) start before between a b
  · intro action
    exact comesBack_keeps
  · intro body sender elapsed now intent isOpen
    refine ⟨fun threshold timing => isOpen.enters pending threshold timing, ?_⟩
    intro signatureTag answer claim
    obtain ⟨expiry, tag, resolved, held⟩ := isOpen.memo separates sound
    have looked : answer = .lookup (s.store.carrierMemoLookup ch body.nonce signatureTag body.expiry sender now
        (s.mono + elapsed)) := rfl
    rw [isOpen.lookup pending expiry held signatureTag] at looked
    by_cases own : tag = signatureTag ∨ resolved.lookup sender = some signatureTag
    · rw [if_pos own] at looked
      exact Or.inl looked
    · rw [if_neg own] at looked
      push Not at own
      cases entered : resolved.lookup sender with
      | none =>
        simp only [entered, reduceCtorEq, if_false, Option.isSome_none, Bool.false_eq_true] at looked
        refine Or.inr (Or.inl ⟨_, looked, Or.inl ⟨carrierId body, _, rfl, ?_, held, rfl⟩,
          isOpen.derives pending expiry held entered signatureTag⟩)
        simp only [claim, lifeStep, isOpen.claim pending held entered]
      | some entry =>
        refine Or.inr (Or.inr ⟨tag, resolved, entry, held, own.1, entered, ?_, ?_⟩)
        · rintro rfl
          exact own.2 entered
        · refine HappenedSince.happened step (happenedSince_of_established step (Life.Sound carrierId)
            (Entered body.nonce body.expiry sender) (Grants ch carrierId body.nonce body.expiry sender) keep
            (fun s action sound fresh entered => grants_of_entered sound fresh entered) (Life.initial config) start
            ?_ actions ⟨_, tag, resolved, _, held, by rw [entered]; rfl⟩)
          rintro ⟨_, _, _, _, there, _⟩
          cases there

namespace Sample

/-- The intent `stagedLife` leaves. -/
def stagedIntent : ArmIntent :=
  { freshIntent ⟨[1], 20, 10⟩ 10 with
    duress := true
    readyToPropagate := true
    holders := {0} }

/-- Sender 2 comes too early with one signature, and spends its derivation on another. -/
def raceLife : List LifeAction :=
  [⟨0, .ingress 0 firstBody [1] 10 1000 true⟩, ⟨0, .carrierMemoLookup "n" [9] 20 2 10⟩,
    ⟨1, .recordArmIntent 0 true 11 timing⟩, ⟨1, .markCarrierPropagated 0⟩, ⟨1, .exit 0⟩,
    ⟨0, .carrierMemoLookup "n" [8, 8] 20 2 12⟩, ⟨0, .claimCarrierDerivation "n" 2 (carrierOf firstBody)⟩]

end Sample

theorem receipts_counted_staged :
    let s := lifeAfter Sample.channel Sample.carrierOf Sample.config Sample.stagedLife
    (∀ a b, Sample.carrierOf a = Sample.carrierOf b → a.nonce = b.nonce ∧ a.expiry = b.expiry) ∧
      Open Sample.carrierOf Sample.firstBody 1 1 12 s Sample.stagedIntent ∧
      Enters Sample.channel Sample.carrierOf 1 (Sample.carrierOf Sample.firstBody) s
        ⟨1, .confirmCarrier 1 (Sample.carrierOf Sample.firstBody) 2 12 Sample.timing⟩ := by
  intro s
  have isOpen : Open Sample.carrierOf Sample.firstBody 1 1 12 s Sample.stagedIntent :=
    ⟨by decide, rfl, by decide, by decide +kernel, by decide⟩
  exact ⟨Sample.carrierOf_separates, isOpen,
    ((receipts_counted Sample.channel Sample.carrierOf_separates Sample.config Sample.stagedLife).2.2
      Sample.firstBody 1 1 12 Sample.stagedIntent isOpen).1 2 Sample.timing⟩

/-- The early receipt is told to come back; it does, while the carrier is open, and is turned away. -/
theorem late_receipt_skipped :
    let step := lifeStep Sample.channel Sample.carrierOf
    let s := lifeAfter Sample.channel Sample.carrierOf Sample.config Sample.raceLife
    (step (lifeAfter Sample.channel Sample.carrierOf Sample.config (Sample.raceLife.take 1))
        ⟨0, .carrierMemoLookup "n" [9] 20 2 10⟩).2 = .lookup .inFlight ∧
      Open Sample.carrierOf Sample.firstBody 2 1 12 s Sample.stagedIntent ∧
      (step s ⟨1, .carrierMemoLookup "n" [9] 20 2 12⟩).2 = .lookup .skip := by
  intro step s
  exact ⟨by decide, ⟨by decide +kernel, rfl, by decide, by decide +kernel, by decide⟩, by decide +kernel⟩

end BtcPolicy.Channel
