import BtcPolicy.Channel.Arming
import BtcPolicy.Replay

/-! The life of a carrier. Spend handlers, peer receipts and pruning race for two maps: the nonce memos
and the arm intents. A handler is one in-flight request with the cleanup its guard owes; time is the
node's monotonic clock, while every wall reading is free. -/

namespace BtcPolicy.Channel
open FiniteMap Word Bitcoin HotLedger Replay PartialStore Runs

/-- What the coordinator's signature covers: the nonce, the expiry, and the rest of the request. -/
structure CarrierBody where
  nonce : String
  expiry : Nat
  contents : Bytes
  deriving DecidableEq, Repr

/-- One in-flight spend request with its `InFlightMemoGuard`. -/
structure Handler where
  body : CarrierBody
  generation : MemoGeneration
  firstSeen : Nat
  ownsMemo : Bool
  rulingCarrier : Option String
  deriving DecidableEq

/-- `mono` is the last reading of the monotonic clock. -/
structure Life where
  log : NonceLog
  store : PartialStore
  mono : Nat
  handlers : Map Nat Handler

/-- The atomic sections. A handler is named by its thread; `proceeds` says whether the request passes the
checks between the consumption of its nonce and its claim. -/
inductive LifeOp where
  | ingress (thread : Nat) (body : CarrierBody) (signatureTag : Bytes) (nowInput maxAge : Nat) (proceeds : Bool)
  | refreshIngress (nonce : String) (expiry nowInput maxAge : Nat)
  | recordArmIntent (thread : Nat) (duress : Bool) (now : Nat) (timing : DuressTiming)
  | recordIntentPair (thread : Nat) (spendCommitmentId escapeCommitmentId : String)
  | markCarrierPropagated (thread : Nat)
  | exit (thread : Nat)
  | pruneCarriers
  | confirmCarrier (sender : Nat) (carrier : String) (threshold now : Nat) (timing : DuressTiming)
  | carrierMemoLookup (nonce : String) (signatureTag : Bytes) (requestExpiry sender now : Nat)
  | claimCarrierDerivation (nonce : String) (sender : Nat) (memoizedCarrier : String)
  | recordCarrierDerivationResult (nonce : String) (sender : Nat) (signatureTag : Bytes)
      (generation : MemoGeneration) (memoizedCarrier : String)
  | outerStaleCarrier (nonce : String) (signatureTag : Bytes) (expiry sender now : Nat) (step : OuterStaleStep)

/-- A section, taken `elapsed` after the one before it. -/
structure LifeAction where
  elapsed : Nat
  op : LifeOp

inductive LifeReply where
  | done
  | nonce (decision : NonceDecision)
  | confirmation (confirmation : CarrierConfirmation)
  | lookup (answer : CarrierMemoLookup)
  | granted (granted : Bool)
  | outerStale (outcome : OuterStaleCarrier)
  deriving DecidableEq, Repr

namespace Life

/-- The ingress hold: consume the nonce, then claim it under the deadline the acceptance fixed. -/
def ingress (s : Life) (thread : Nat) (body : CarrierBody) (signatureTag : Bytes) (nowInput maxAge : Nat)
    (proceeds : Bool) : Life × LifeReply :=
  if (s.handlers.lookup thread).isSome then (s, .done)
  else
    let checked := s.log.checkAndRecord ⟨body.nonce, body.expiry, nowInput, maxAge, some s.mono, true⟩
    let s := { s with log := checked.1 }
    match checked.2, s.log.carrierDeadline body.nonce with
    | .accepted, some deadline =>
      if proceeds then
        let generation : MemoGeneration := ⟨signatureTag, body.expiry, deadline⟩
        ({ s with
            store := s.store.claimNonceInFlight body.nonce generation s.mono
            handlers := s.handlers.insert thread
              ⟨body, generation, s.log.effectiveNow nowInput, true, none⟩ },
          .nonce checked.2)
      else (s, .nonce checked.2)
    | _, _ => (s, .nonce checked.2)

/-- The commit hold's arm hook, with the guard's bookkeeping. A handler passes it once. -/
def recordArmIntent (carrierId : CarrierBody → String) (s : Life) (thread : Nat) (duress : Bool) (now : Nat)
    (timing : DuressTiming) : Life :=
  match s.handlers.lookup thread with
  | some handler =>
    if handler.rulingCarrier.isSome then s
    else
      let carrier := carrierId handler.body
      let recorded := s.store.recordArmIntent duress carrier handler.body.nonce handler.generation
        handler.firstSeen now timing
      let ownsMemo := match recorded.2 with
        | .upgraded | .reinstalled => false
        | .superseded => handler.ownsMemo
      { s with
        store := recorded.1
        handlers := s.handlers.insert thread { handler with rulingCarrier := some carrier, ownsMemo := ownsMemo } }
  | none => s

/-- A write of the handler to its own carrier's intent. -/
def onRuling (s : Life) (thread : Nat) (write : PartialStore → String → PartialStore) : Life :=
  match (s.handlers.lookup thread).bind Handler.rulingCarrier with
  | some carrier => { s with store := write s.store carrier }
  | none => s

/-- The guard's `Drop`: two releases, neither conditional on the other. -/
def exit (s : Life) (thread : Nat) : Life :=
  match s.handlers.lookup thread with
  | some handler =>
    let released := if handler.ownsMemo then s.store.releaseNonceClaim handler.body.nonce handler.generation
      else s.store
    let ended := match handler.rulingCarrier with
      | some carrier => released.endCarrierRuling carrier s.mono
      | none => released
    { s with store := ended, handlers := s.handlers.erase thread }
  | none => s

/-- The outer-stale section, under the deadline the nonce log still vouches for. -/
def outerStale (ch : ChannelState) (s : Life) (nonce : String) (signatureTag : Bytes) (expiry sender now : Nat)
    (step : OuterStaleStep) : Life × LifeReply :=
  match s.log.outerStaleCarrierDeadline nonce expiry with
  | none => (s, .outerStale .terminal)
  | some deadline =>
    let result := s.store.outerStaleCarrier ch nonce signatureTag expiry deadline sender now step s.mono
    ({ s with store := result.1 }, .outerStale result.2)

end Life

open Life

def lifeStep (ch : ChannelState) (carrierId : CarrierBody → String) (s : Life) (action : LifeAction) :
    Life × LifeReply :=
  let s := { s with mono := s.mono + action.elapsed }
  match action.op with
  | .ingress thread body signatureTag nowInput maxAge proceeds =>
    s.ingress thread body signatureTag nowInput maxAge proceeds
  | .refreshIngress nonce expiry nowInput maxAge =>
    let checked := s.log.checkAndRecord ⟨nonce, expiry, nowInput, maxAge, some s.mono, false⟩
    ({ s with log := checked.1 }, .nonce checked.2)
  | .recordArmIntent thread duress now timing => (s.recordArmIntent carrierId thread duress now timing, .done)
  | .recordIntentPair thread spend escape =>
    (s.onRuling thread (fun store carrier => store.recordIntentPair carrier spend escape), .done)
  | .markCarrierPropagated thread =>
    (s.onRuling thread (fun store carrier => store.markCarrierPropagated ch carrier), .done)
  | .exit thread => (s.exit thread, .done)
  | .pruneCarriers => ({ s with store := s.store.pruneCarriers s.mono }, .done)
  | .confirmCarrier sender carrier threshold now timing =>
    let result := s.store.confirmCarrier sender carrier threshold now timing s.mono
    ({ s with store := result.1 }, .confirmation result.2)
  | .carrierMemoLookup nonce signatureTag requestExpiry sender now =>
    (s, .lookup (s.store.carrierMemoLookup ch nonce signatureTag requestExpiry sender now s.mono))
  | .claimCarrierDerivation nonce sender memoizedCarrier =>
    let result := s.store.claimCarrierDerivation nonce sender memoizedCarrier
    ({ s with store := result.1 }, .granted result.2)
  | .recordCarrierDerivationResult nonce sender signatureTag generation memoizedCarrier =>
    let result := s.store.recordCarrierDerivationResult nonce sender signatureTag generation memoizedCarrier
    ({ s with store := result.1 }, .granted result.2)
  | .outerStaleCarrier nonce signatureTag expiry sender now step =>
    s.outerStale ch nonce signatureTag expiry sender now step

/-- The node before its first request. -/
def Life.initial (config : StoreConfig) : Life := ⟨NonceLog.empty, initialStore config, 0, ∅⟩

/-! ### Resolving a signature -/

section Resolve

variable {s : PartialStore} {nonce n : String} {sender : Nat} {tag : Bytes}

/-- A claim is left as it is. -/
theorem lookup_resolveSignature_inFlight {m : CarrierMemo} {own : Bytes} (waits : m.outcome = .inFlight own) :
    (s.resolveSignature nonce sender tag).carriersByNonce.lookup n = some m ↔ s.carriersByNonce.lookup n = some m := by
  rw [resolveSignature, lookup_adjust]
  split_ifs
  · cases held : s.carriersByNonce.lookup n with
    | none => simp
    | some memo =>
      cases outcome : memo.outcome with
      | inFlight other => simp [outcome]
      | derived c other resolved =>
        simp only [Option.map_some, outcome, Option.some.injEq]
        constructor
        · rintro rfl
          cases waits
        · rintro rfl
          rw [outcome] at waits
          cases waits
  · rfl

/-- A derived memo keeps everything but its entry for the sender. -/
theorem lookup_resolveSignature_derived {c : String} {own : Bytes} {resolved : Map Nat Bytes} {e d : Nat}
    (held : s.carriersByNonce.lookup n = some ⟨.derived c own resolved, e, d⟩) :
    ∃ more, (s.resolveSignature nonce sender tag).carriersByNonce.lookup n = some ⟨.derived c own more, e, d⟩ ∧
      more = if n = nonce then resolved.insert sender tag else resolved := by
  rw [resolveSignature, lookup_adjust, held]
  split_ifs
  · exact ⟨_, rfl, rfl⟩
  · exact ⟨_, rfl, rfl⟩

theorem lookup_resolveSignature_back {m' : CarrierMemo}
    (held : (s.resolveSignature nonce sender tag).carriersByNonce.lookup n = some m') :
    ∃ m, s.carriersByNonce.lookup n = some m ∧ m'.expiry = m.expiry ∧ m'.deadline = m.deadline ∧
      ∀ c own more, m'.outcome = .derived c own more → ∃ resolved, m.outcome = .derived c own resolved := by
  obtain ⟨m, present, rfl | ⟨_, rfl⟩⟩ := lookup_adjust_some held
  · exact ⟨m', present, rfl, rfl, fun c own more outcome => ⟨more, outcome⟩⟩
  · refine ⟨m, present, ?_⟩
    cases outcome : m.outcome with
    | inFlight own => simp [outcome]
    | derived c own resolved => simp

end Resolve

/-! ### What every interleaving keeps -/

/-- The claim a generation installs. -/
def MemoGeneration.claim (generation : MemoGeneration) : CarrierMemo :=
  ⟨.inFlight generation.signatureTag, generation.expiry, generation.deadline⟩

theorem matchesGeneration_iff {memo : CarrierMemo} {generation : MemoGeneration} :
    memo.matchesGeneration generation = true ↔ memo = generation.claim := by
  obtain ⟨outcome, expiry, deadline⟩ := memo
  cases outcome with
  | inFlight tag =>
    simp [CarrierMemo.matchesGeneration, MemoGeneration.claim]
    tauto
  | derived c tag resolved => simp [CarrierMemo.matchesGeneration, MemoGeneration.claim]

/-- A release removes exactly the claim of its generation. -/
theorem lookup_releaseNonceClaim {s : PartialStore} {nonce n : String} {generation : MemoGeneration}
    {m : CarrierMemo} : (s.releaseNonceClaim nonce generation).carriersByNonce.lookup n = some m ↔
      s.carriersByNonce.lookup n = some m ∧ ¬(n = nonce ∧ m = generation.claim) := by
  unfold releaseNonceClaim
  split_ifs with held
  · simp only [Option.any_eq_true, matchesGeneration_iff] at held
    obtain ⟨_, held, rfl⟩ := held
    rw [lookup_erase_some]
    constructor
    · rintro ⟨different, present⟩
      exact ⟨present, fun same => different same.1⟩
    · rintro ⟨present, other⟩
      refine ⟨?_, present⟩
      rintro rfl
      rw [held, Option.some.injEq] at present
      exact other ⟨rfl, present.symm⟩
  · constructor
    · intro present
      refine ⟨present, ?_⟩
      rintro ⟨rfl, rfl⟩
      exact held (by simp [present, matchesGeneration_iff])
    · exact fun present => present.1

/-- The two maps agree with each other, with the handlers in flight, and with the nonce log. A fact about
a generation that a later one may have displaced holds until its deadline. -/
structure Lawful (carrierId : CarrierBody → String) (log : NonceLog) (mono : Nat)
    (intents : Map String ArmIntent) (memos : Map String CarrierMemo) (handlers : Map Nat Handler) : Prop where
  known : ∀ t h, handlers.lookup t = some h →
    h.generation.expiry = h.body.expiry ∧ Remembers h.body.nonce h.body.expiry log
  unique : ∀ t t' h h', handlers.lookup t = some h → handlers.lookup t' = some h' →
    h.body.nonce = h'.body.nonce → h.body.expiry = h'.body.expiry → t = t'
  logged : ∀ t h, handlers.lookup t = some h →
    h.generation.deadline ≤ mono ∨
      log.entries.lookup h.body.nonce = some ⟨h.body.expiry, some h.generation.deadline⟩
  ruling : ∀ t h c, handlers.lookup t = some h → h.rulingCarrier = some c →
    c = carrierId h.body ∧ ∀ i, intents.lookup c = some i → i.ownerRuling = true
  claimed : ∀ t h, handlers.lookup t = some h → h.rulingCarrier = none →
    h.ownsMemo = true ∧ intents.lookup (carrierId h.body) = none ∧
      (h.generation.deadline ≤ mono ∨ memos.lookup h.body.nonce = some h.generation.claim)
  sole : ∀ t h, handlers.lookup t = some h → h.rulingCarrier = none →
    ∀ m, memos.lookup h.body.nonce = some m → m.expiry = h.body.expiry → m = h.generation.claim
  ruled : ∀ c i, intents.lookup c = some i → i.ownerRuling = true ∨ i.readyToPropagate = false →
    ∃ t h, handlers.lookup t = some h ∧ h.rulingCarrier = some c
  intent : ∀ c i, intents.lookup c = some i →
    ∃ body, carrierId body = c ∧ i.expiry = body.expiry ∧ Remembers body.nonce body.expiry log ∧
      (i.deadline ≤ mono ∨ ∃ tag resolved,
        memos.lookup body.nonce = some ⟨.derived c tag resolved, i.expiry, i.deadline⟩)
  inFlight : ∀ n tag e d, memos.lookup n = some ⟨.inFlight tag, e, d⟩ →
    ∃ t h, handlers.lookup t = some h ∧ h.rulingCarrier = none ∧ h.body.nonce = n ∧ h.generation = ⟨tag, e, d⟩
  derived : ∀ n c tag resolved e d, memos.lookup n = some ⟨.derived c tag resolved, e, d⟩ →
    (∃ body, carrierId body = c ∧ body.nonce = n ∧ body.expiry = e) ∧
      ∃ i, intents.lookup c = some i ∧ i.expiry = e ∧ i.deadline = d
  entry : ∀ n m, memos.lookup n = some m →
    m.deadline ≤ mono ∨ log.entries.lookup n = some ⟨m.expiry, some m.deadline⟩

namespace Lawful

variable {carrierId : CarrierBody → String} {log : NonceLog} {mono : Nat} {intents : Map String ArmIntent}
  {memos : Map String CarrierMemo} {handlers : Map Nat Handler}

theorem initial : Lawful carrierId NonceLog.empty 0 ∅ ∅ ∅ := by
  constructor <;> intros <;> contradiction

/-- Time may pass. -/
theorem tick (lawful : Lawful carrierId log mono intents memos handlers) (elapsed : Nat) :
    Lawful carrierId log (mono + elapsed) intents memos handlers :=
  { lawful with
    logged := by
      intro t h here
      rcases lawful.logged t h here with past | live
      · exact Or.inl (by omega)
      · exact Or.inr live
    claimed := by
      intro t h here unruled
      obtain ⟨owns, absent, past | live⟩ := lawful.claimed t h here unruled
      · exact ⟨owns, absent, Or.inl (by omega)⟩
      · exact ⟨owns, absent, Or.inr live⟩
    intent := by
      intro c i here
      obtain ⟨body, names, expiry, remembered, past | live⟩ := lawful.intent c i here
      · exact ⟨body, names, expiry, remembered, Or.inl (by omega)⟩
      · exact ⟨body, names, expiry, remembered, Or.inr live⟩
    entry := by
      intro n m here
      rcases lawful.entry n m here with past | live
      · exact Or.inl (by omega)
      · exact Or.inr live }

/-- The nonce log takes a request. -/
theorem check (lawful : Lawful carrierId log mono intents memos handlers) (call : NonceCall)
    (sampled : call.monoNow = some mono) :
    Lawful carrierId (log.checkAndRecord call).1 mono intents memos handlers :=
  have kept : ∀ {nonce : String} {expiry deadline : Nat}, deadline ≤ mono ∨
      log.entries.lookup nonce = some ⟨expiry, some deadline⟩ → deadline ≤ mono ∨
      (log.checkAndRecord call).1.entries.lookup nonce = some ⟨expiry, some deadline⟩ := by
    intro nonce expiry deadline either
    rcases either with past | live
    · exact Or.inl past
    · rcases Nat.lt_or_ge mono deadline with ahead | past
      · exact Or.inr (checkAndRecord_keeps (fun _ same => Option.some.inj (sampled.symm.trans same) ▸ ahead) live)
      · exact Or.inl past
  { lawful with
    known := fun t h here => ⟨(lawful.known t h here).1, remembers_step log call (lawful.known t h here).2⟩
    logged := fun t h here => kept (lawful.logged t h here)
    intent := by
      intro c i here
      obtain ⟨body, names, expiry, remembered, either⟩ := lawful.intent c i here
      exact ⟨body, names, expiry, remembers_step log call remembered, either⟩
    entry := fun n m here => kept (lawful.entry n m here) }

/-- Pruning drops an intent and the memo that names it together. -/
theorem prune {s : PartialStore} (lawful : Lawful carrierId log mono s.intents s.carriersByNonce handlers) :
    Lawful carrierId log mono (s.pruneCarriers mono).intents (s.pruneCarriers mono).carriersByNonce handlers := by
  have intentsKept : ∀ {c i}, (s.pruneCarriers mono).intents.lookup c = some i ↔
      s.intents.lookup c = some i ∧ (mono < i.deadline ∨ i.ownerRuling = true) := by
    intro c i
    simp [pruneCarriers]
  have memosKept : ∀ {n m}, (s.pruneCarriers mono).carriersByNonce.lookup n = some m ↔
      s.carriersByNonce.lookup n = some m ∧
        (mono < m.deadline ∨ ownerStillRuling (s.pruneCarriers mono).intents m = true) := by
    intro n m
    simp [pruneCarriers]
  refine ⟨lawful.known, lawful.unique, lawful.logged, ?ruling, ?claimed, ?sole, ?ruled, ?intent, ?inFlight, ?derived,
    ?entry⟩
  case ruling =>
    intro t h c here rules
    obtain ⟨names, owner⟩ := lawful.ruling t h c here rules
    exact ⟨names, fun i found => owner i (intentsKept.mp found).1⟩
  case claimed =>
    intro t h here unruled
    obtain ⟨owns, absent, either⟩ := lawful.claimed t h here unruled
    refine ⟨owns, ?_, ?_⟩
    · by_contra present
      obtain ⟨i, found⟩ := Option.ne_none_iff_exists'.mp present
      rw [(intentsKept.mp found).1] at absent
      cases absent
    · exact either.imp_right (fun held => memosKept.mpr ⟨held, Or.inr rfl⟩)
  case sole =>
    intro t h here unruled m held
    exact lawful.sole t h here unruled m (memosKept.mp held).1
  case ruled =>
    intro c i found
    exact lawful.ruled c i (intentsKept.mp found).1
  case intent =>
    intro c i found
    obtain ⟨present, stays⟩ := intentsKept.mp found
    obtain ⟨body, names, expiry, remembered, either⟩ := lawful.intent c i present
    refine ⟨body, names, expiry, remembered, either.imp_right ?_⟩
    rintro ⟨tag, resolved, held⟩
    refine ⟨tag, resolved, memosKept.mpr ⟨held, stays.imp_right ?_⟩⟩
    intro owner
    simp [ownerStillRuling, found, owner]
  case inFlight =>
    intro n tag e d held
    exact lawful.inFlight n tag e d (memosKept.mp held).1
  case derived =>
    intro n c tag resolved e d held
    obtain ⟨present, stays⟩ := memosKept.mp held
    obtain ⟨body, i, found, expiry, deadline⟩ := lawful.derived n c tag resolved e d present
    refine ⟨body, i, ?_, expiry, deadline⟩
    rcases stays with ahead | owner
    · exact intentsKept.mpr ⟨found, Or.inl (by rw [deadline]; exact ahead)⟩
    · simp only [ownerStillRuling, Option.any_eq_true] at owner
      obtain ⟨kept, present, _⟩ := owner
      have same := (intentsKept.mp present).1
      rw [found, Option.some.injEq] at same
      exact same ▸ present
  case entry =>
    intro n m held
    exact lawful.entry n m (memosKept.mp held).1

/-- A generation nobody has seen takes the nonce; whatever it displaces is past its deadline. -/
theorem claim (lawful : Lawful carrierId log mono intents memos handlers) {thread : Nat} (new : Handler)
    (free : handlers.lookup thread = none) (unruled : new.rulingCarrier = none) (owns : new.ownsMemo = true)
    (expiry : new.generation.expiry = new.body.expiry) (remembered : Remembers new.body.nonce new.body.expiry log)
    (logged : log.entries.lookup new.body.nonce = some ⟨new.body.expiry, some new.generation.deadline⟩)
    (others : ∀ t h, handlers.lookup t = some h → h.body.nonce = new.body.nonce →
      h.body.expiry ≠ new.body.expiry ∧ h.generation.deadline ≤ mono)
    (displaced : ∀ m, memos.lookup new.body.nonce = some m → m.deadline ≤ mono)
    (absent : intents.lookup (carrierId new.body) = none) :
    Lawful carrierId log mono intents (memos.insert new.body.nonce new.generation.claim)
      (handlers.insert thread new) := by
  have stays : ∀ {t h}, handlers.lookup t = some h → (handlers.insert thread new).lookup t = some h := by
    intro t h here
    have different : t ≠ thread := by
      rintro rfl
      rw [here] at free
      cases free
    rw [lookup_insert_eq, if_neg different, here]
  have overwritten : ∀ {n m}, memos.lookup n = some m →
      m.deadline ≤ mono ∨ (memos.insert new.body.nonce new.generation.claim).lookup n = some m := by
    intro n m here
    by_cases same : n = new.body.nonce
    · exact Or.inl (displaced m (same ▸ here))
    · right
      rw [lookup_insert_eq, if_neg same, here]
  constructor
  case known =>
    intro t h here
    rcases lookup_insert_some.mp here with ⟨_, rfl⟩ | ⟨_, old⟩
    · exact ⟨expiry, remembered⟩
    · exact lawful.known t h old
  case unique =>
    intro t t' h h' here here' nonce sameExpiry
    rcases lookup_insert_some.mp here with ⟨rfl, rfl⟩ | ⟨_, old⟩ <;> rcases lookup_insert_some.mp here' with ⟨rfl, rfl⟩ | ⟨_, old'⟩
    · rfl
    · exact absurd sameExpiry.symm (others t' h' old' nonce.symm).1
    · exact absurd sameExpiry (others t h old nonce).1
    · exact lawful.unique t t' h h' old old' nonce sameExpiry
  case logged =>
    intro t h here
    rcases lookup_insert_some.mp here with ⟨_, rfl⟩ | ⟨_, old⟩
    · exact Or.inr logged
    · exact lawful.logged t h old
  case ruling =>
    intro t h c here rules
    rcases lookup_insert_some.mp here with ⟨_, rfl⟩ | ⟨_, old⟩
    · rw [unruled] at rules
      cases rules
    · exact lawful.ruling t h c old rules
  case claimed =>
    intro t h here waiting
    rcases lookup_insert_some.mp here with ⟨_, rfl⟩ | ⟨_, old⟩
    · exact ⟨owns, absent, Or.inr (AList.lookup_insert _)⟩
    · obtain ⟨owner, none, past | held⟩ := lawful.claimed t h old waiting
      · exact ⟨owner, none, Or.inl past⟩
      · exact ⟨owner, none, overwritten held⟩
  case sole =>
    intro t h here waiting m held sameExpiry
    rcases lookup_insert_some.mp held with ⟨nonce, rfl⟩ | ⟨different, old⟩
    · rcases lookup_insert_some.mp here with ⟨_, rfl⟩ | ⟨_, there⟩
      · rfl
      · exact absurd (sameExpiry.symm.trans expiry) (others t h there nonce).1
    · rcases lookup_insert_some.mp here with ⟨_, rfl⟩ | ⟨_, there⟩
      · exact absurd rfl different
      · exact lawful.sole t h there waiting m old sameExpiry
  case ruled =>
    intro c i found open_
    obtain ⟨t, h, here, rules⟩ := lawful.ruled c i found open_
    exact ⟨t, h, stays here, rules⟩
  case intent =>
    intro c i found
    obtain ⟨body, names, sameExpiry, known, past | ⟨tag, resolved, held⟩⟩ := lawful.intent c i found
    · exact ⟨body, names, sameExpiry, known, Or.inl past⟩
    · exact ⟨body, names, sameExpiry, known, (overwritten held).imp_right (fun still => ⟨tag, resolved, still⟩)⟩
  case inFlight =>
    intro n tag e d held
    rcases lookup_insert_some.mp held with ⟨rfl, same⟩ | ⟨_, old⟩
    · refine ⟨thread, new, AList.lookup_insert _, unruled, rfl, ?_⟩
      simp only [MemoGeneration.claim, CarrierMemo.mk.injEq, MemoOutcome.inFlight.injEq] at same
      obtain ⟨rfl, rfl, rfl⟩ := same
      rfl
    · obtain ⟨t, h, here, rest⟩ := lawful.inFlight n tag e d old
      exact ⟨t, h, stays here, rest⟩
  case derived =>
    intro n c tag resolved e d held
    rcases lookup_insert_some.mp held with ⟨_, same⟩ | ⟨_, old⟩
    · simp [MemoGeneration.claim] at same
    · exact lawful.derived n c tag resolved e d old
  case entry =>
    intro n m held
    rcases lookup_insert_some.mp held with ⟨rfl, rfl⟩ | ⟨_, old⟩
    · right
      rw [logged]
      simp [MemoGeneration.claim, expiry]
    · exact lawful.entry n m old

/-- A write to an intent that leaves its lifetime alone keeps the two maps in step. -/
theorem adjust_lifetimes (lawful : Lawful carrierId log mono intents memos handlers) (carrier : String)
    {f : ArmIntent → ArmIntent} (same : ∀ i, (f i).expiry = i.expiry ∧ (f i).deadline = i.deadline) :
    (∀ c i, (adjust carrier f intents).lookup c = some i →
      ∃ body, carrierId body = c ∧ i.expiry = body.expiry ∧ Remembers body.nonce body.expiry log ∧
        (i.deadline ≤ mono ∨ ∃ tag resolved,
          memos.lookup body.nonce = some ⟨.derived c tag resolved, i.expiry, i.deadline⟩)) ∧
      ∀ n c tag resolved e d, memos.lookup n = some ⟨.derived c tag resolved, e, d⟩ →
        (∃ body, carrierId body = c ∧ body.nonce = n ∧ body.expiry = e) ∧
          ∃ i, (adjust carrier f intents).lookup c = some i ∧ i.expiry = e ∧ i.deadline = d := by
  constructor
  · intro c i found
    obtain ⟨old, present, rfl | ⟨_, rfl⟩⟩ := lookup_adjust_some found
    · exact lawful.intent c i present
    · rw [(same old).1, (same old).2]
      exact lawful.intent c old present
  · intro n c tag resolved e d held
    obtain ⟨body, i, found, expiry, deadline⟩ := lawful.derived n c tag resolved e d held
    refine ⟨body, ?_⟩
    rw [lookup_adjust, found]
    split_ifs
    · exact ⟨f i, rfl, (same i).1.trans expiry, (same i).2.trans deadline⟩
    · exact ⟨i, rfl, expiry, deadline⟩

theorem lookup_adjust_none {carrier c : String} {f : ArmIntent → ArmIntent} (absent : intents.lookup c = none) :
    (adjust carrier f intents).lookup c = none := by
  rw [lookup_adjust, absent, Option.map_none, ite_self]

/-- A write to an intent that leaves its lifetime and its ruling alone, and unstages nothing. -/
theorem adjustIntent (lawful : Lawful carrierId log mono intents memos handlers) (carrier : String)
    {f : ArmIntent → ArmIntent} (same : ∀ i, (f i).expiry = i.expiry ∧ (f i).deadline = i.deadline)
    (ruling : ∀ i, (f i).ownerRuling = i.ownerRuling)
    (staged : ∀ i, i.readyToPropagate = true → (f i).readyToPropagate = true) :
    Lawful carrierId log mono (adjust carrier f intents) memos handlers := by
  obtain ⟨lifetimes, resident⟩ := lawful.adjust_lifetimes carrier same
  refine ⟨lawful.known, lawful.unique, lawful.logged, ?ruling, ?claimed, lawful.sole, ?ruled, lifetimes,
    lawful.inFlight, resident, lawful.entry⟩
  case ruling =>
    intro t h c here rules
    obtain ⟨names, owner⟩ := lawful.ruling t h c here rules
    refine ⟨names, ?_⟩
    intro i found
    obtain ⟨old, present, rfl | ⟨_, rfl⟩⟩ := lookup_adjust_some found
    · exact owner i present
    · exact (ruling old).trans (owner old present)
  case claimed =>
    intro t h here unruled
    obtain ⟨owns, absent, either⟩ := lawful.claimed t h here unruled
    exact ⟨owns, lookup_adjust_none absent, either⟩
  case ruled =>
    intro c i found unsettled
    obtain ⟨old, present, rfl | ⟨_, rfl⟩⟩ := lookup_adjust_some found
    · exact lawful.ruled c i present unsettled
    · refine lawful.ruled c old present (unsettled.imp (fun owner => (ruling old).symm.trans owner) ?_)
      intro unstaged
      by_contra ready
      rw [staged old (by simpa using ready)] at unstaged
      cases unstaged

/-- A carrier and the memo that names it go together. -/
theorem retire {s : PartialStore} (lawful : Lawful carrierId log mono s.intents s.carriersByNonce handlers)
    (carrier : String) : Lawful carrierId log mono (s.retireCarrier carrier).intents
      (s.retireCarrier carrier).carriersByNonce handlers := by
  have intentsKept : ∀ {c i}, (s.retireCarrier carrier).intents.lookup c = some i ↔
      c ≠ carrier ∧ s.intents.lookup c = some i := by
    intro c i
    exact lookup_erase_some
  have memosKept : ∀ {n m}, (s.retireCarrier carrier).carriersByNonce.lookup n = some m ↔
      s.carriersByNonce.lookup n = some m ∧ CarrierMemo.names m carrier = false := by
    intro n m
    simp [retireCarrier]
  refine ⟨lawful.known, lawful.unique, lawful.logged, ?ruling, ?claimed, ?sole, ?ruled, ?intent, ?inFlight, ?derived,
    ?entry⟩
  case ruling =>
    intro t h c here rules
    obtain ⟨names, owner⟩ := lawful.ruling t h c here rules
    exact ⟨names, fun i found => owner i (intentsKept.mp found).2⟩
  case claimed =>
    intro t h here unruled
    obtain ⟨owns, absent, either⟩ := lawful.claimed t h here unruled
    refine ⟨owns, ?_, either.imp_right (fun held => memosKept.mpr ⟨held, rfl⟩)⟩
    show (s.intents.erase carrier).lookup _ = none
    rw [lookup_erase_eq, absent, ite_self]
  case sole =>
    intro t h here unruled m held
    exact lawful.sole t h here unruled m (memosKept.mp held).1
  case ruled =>
    intro c i found
    exact lawful.ruled c i (intentsKept.mp found).2
  case intent =>
    intro c i found
    obtain ⟨different, present⟩ := intentsKept.mp found
    obtain ⟨body, names, expiry, remembered, either⟩ := lawful.intent c i present
    refine ⟨body, names, expiry, remembered, either.imp_right ?_⟩
    rintro ⟨tag, resolved, held⟩
    exact ⟨tag, resolved, memosKept.mpr ⟨held, by simp [CarrierMemo.names, different]⟩⟩
  case inFlight =>
    intro n tag e d held
    exact lawful.inFlight n tag e d (memosKept.mp held).1
  case derived =>
    intro n c tag resolved e d held
    obtain ⟨present, other⟩ := memosKept.mp held
    obtain ⟨body, i, found, rest⟩ := lawful.derived n c tag resolved e d present
    refine ⟨body, i, intentsKept.mpr ⟨?_, found⟩, rest⟩
    simpa [CarrierMemo.names] using other
  case entry =>
    intro n m held
    exact lawful.entry n m (memosKept.mp held).1

/-- A sender's signature is resolved in a derived memo. -/
theorem resolve {s : PartialStore} (lawful : Lawful carrierId log mono s.intents s.carriersByNonce handlers)
    (nonce : String) (sender : Nat) (signatureTag : Bytes) :
    Lawful carrierId log mono s.intents (s.resolveSignature nonce sender signatureTag).carriersByNonce
      handlers := by
  refine ⟨lawful.known, lawful.unique, lawful.logged, lawful.ruling, ?claimed, ?sole, lawful.ruled, ?intent,
    ?inFlight, ?derived, ?entry⟩
  case claimed =>
    intro t h here unruled
    obtain ⟨owns, absent, either⟩ := lawful.claimed t h here unruled
    refine ⟨owns, absent, either.imp_right ?_⟩
    intro held
    exact (lookup_resolveSignature_inFlight rfl).mpr held
  case sole =>
    intro t h here unruled m' held sameExpiry
    obtain ⟨m, present, expiry, _, derived⟩ := lookup_resolveSignature_back held
    have own := lawful.sole t h here unruled m present (expiry.symm.trans sameExpiry)
    have again : (s.resolveSignature nonce sender signatureTag).carriersByNonce.lookup h.body.nonce = some m :=
      (lookup_resolveSignature_inFlight (congrArg CarrierMemo.outcome own)).mpr present
    rw [held, Option.some.injEq] at again
    rw [again, own]
  case intent =>
    intro c i found
    obtain ⟨body, names, expiry, remembered, either⟩ := lawful.intent c i found
    refine ⟨body, names, expiry, remembered, either.imp_right ?_⟩
    rintro ⟨tag, resolved, held⟩
    obtain ⟨more, still, _⟩ := lookup_resolveSignature_derived held
    exact ⟨tag, more, still⟩
  case inFlight =>
    intro n tag e d held
    exact lawful.inFlight n tag e d ((lookup_resolveSignature_inFlight rfl).mp held)
  case derived =>
    intro n c tag resolved e d held
    obtain ⟨⟨outcome, e', d'⟩, present, sameExpiry, sameDeadline, derived⟩ := lookup_resolveSignature_back held
    obtain ⟨earlier, outcome⟩ := derived c tag resolved rfl
    simp only at sameExpiry sameDeadline outcome
    subst sameExpiry sameDeadline outcome
    exact lawful.derived n c tag earlier _ _ present
  case entry =>
    intro n m' held
    obtain ⟨m, present, sameExpiry, sameDeadline, _⟩ := lookup_resolveSignature_back held
    rw [sameExpiry, sameDeadline]
    exact lawful.entry n m present

section Handlers

variable {thread : Nat} {own : Handler}

/-- Two handlers never wait under one claim. -/
theorem claim_unique (lawful : Lawful carrierId log mono intents memos handlers)
    (here : handlers.lookup thread = some own) {t : Nat} {h : Handler} (there : handlers.lookup t = some h)
    (nonce : h.body.nonce = own.body.nonce) (same : h.generation.claim = own.generation.claim) : t = thread := by
  have expiry : h.generation.expiry = own.generation.expiry := congrArg CarrierMemo.expiry same
  rw [(lawful.known t h there).1, (lawful.known thread own here).1] at expiry
  exact lawful.unique t thread h own there here nonce expiry

/-- A handler that has not ruled yet goes, and takes exactly its own claim with it. -/
theorem leave {s : PartialStore} (lawful : Lawful carrierId log mono s.intents s.carriersByNonce handlers)
    (here : handlers.lookup thread = some own) (unruled : own.rulingCarrier = none) :
    Lawful carrierId log mono s.intents
      (s.releaseNonceClaim own.body.nonce own.generation).carriersByNonce (handlers.erase thread) := by
  constructor
  case known =>
    intro t h there
    exact lawful.known t h (lookup_erase_some.mp there).2
  case unique =>
    intro t t' h h' there there'
    exact lawful.unique t t' h h' (lookup_erase_some.mp there).2 (lookup_erase_some.mp there').2
  case logged =>
    intro t h there
    exact lawful.logged t h (lookup_erase_some.mp there).2
  case ruling =>
    intro t h c there
    exact lawful.ruling t h c (lookup_erase_some.mp there).2
  case claimed =>
    intro t h there waiting
    obtain ⟨different, there⟩ := lookup_erase_some.mp there
    obtain ⟨owns, absent, either⟩ := lawful.claimed t h there waiting
    refine ⟨owns, absent, either.imp_right ?_⟩
    intro held
    refine lookup_releaseNonceClaim.mpr ⟨held, ?_⟩
    rintro ⟨nonce, same⟩
    exact different (lawful.claim_unique here there nonce same)
  case sole =>
    intro t h there waiting m held
    exact lawful.sole t h (lookup_erase_some.mp there).2 waiting m (lookup_releaseNonceClaim.mp held).1
  case ruled =>
    intro c i found unsettled
    obtain ⟨t, h, there, rules⟩ := lawful.ruled c i found unsettled
    refine ⟨t, h, lookup_erase_some.mpr ⟨?_, there⟩, rules⟩
    rintro rfl
    rw [here, Option.some.injEq] at there
    rw [← there, unruled] at rules
    cases rules
  case intent =>
    intro c i found
    obtain ⟨body, names, expiry, remembered, either⟩ := lawful.intent c i found
    refine ⟨body, names, expiry, remembered, either.imp_right ?_⟩
    rintro ⟨tag, resolved, held⟩
    exact ⟨tag, resolved, lookup_releaseNonceClaim.mpr ⟨held, by simp [MemoGeneration.claim]⟩⟩
  case inFlight =>
    intro n tag e d held
    obtain ⟨present, other⟩ := lookup_releaseNonceClaim.mp held
    obtain ⟨t, h, there, waiting, nonce, generation⟩ := lawful.inFlight n tag e d present
    refine ⟨t, h, lookup_erase_some.mpr ⟨?_, there⟩, waiting, nonce, generation⟩
    rintro rfl
    rw [here, Option.some.injEq] at there
    subst there
    exact other ⟨nonce.symm, by rw [generation, MemoGeneration.claim]⟩
  case derived =>
    intro n c tag resolved e d held
    exact lawful.derived n c tag resolved e d (lookup_releaseNonceClaim.mp held).1
  case entry =>
    intro n m held
    exact lawful.entry n m (lookup_releaseNonceClaim.mp held).1

/-- A handler that rules has no claim left to release. -/
theorem release_ruling {s : PartialStore}
    (lawful : Lawful carrierId log mono s.intents s.carriersByNonce handlers)
    (here : handlers.lookup thread = some own) {carrier : String} (rules : own.rulingCarrier = some carrier) :
    s.releaseNonceClaim own.body.nonce own.generation = s := by
  unfold releaseNonceClaim
  split_ifs with held
  · simp only [Option.any_eq_true, matchesGeneration_iff] at held
    obtain ⟨_, held, rfl⟩ := held
    obtain ⟨t, h, there, waiting, nonce, generation⟩ := lawful.inFlight _ _ _ _ held
    have same : t = thread := lawful.claim_unique here there nonce (by rw [generation])
    subst same
    rw [here, Option.some.injEq] at there
    rw [← there, rules] at waiting
    cases waiting
  · rfl

variable (separates : ∀ a b, carrierId a = carrierId b → a.nonce = b.nonce ∧ a.expiry = b.expiry)
include separates

/-- Two handlers never share a carrier. -/
theorem carrier_unique (lawful : Lawful carrierId log mono intents memos handlers)
    (here : handlers.lookup thread = some own) {t : Nat} {h : Handler} (there : handlers.lookup t = some h)
    (same : carrierId h.body = carrierId own.body) : t = thread := by
  obtain ⟨nonce, expiry⟩ := separates _ _ same
  exact lawful.unique t thread h own there here nonce expiry

/-- The ruling handler of a staged or retired carrier goes. -/
theorem dismiss (lawful : Lawful carrierId log mono intents memos handlers)
    (here : handlers.lookup thread = some own) {carrier : String} (rules : own.rulingCarrier = some carrier)
    (staged : ∀ i, intents.lookup carrier = some i → i.readyToPropagate = true) :
    Lawful carrierId log mono (adjust carrier (fun i => { i with ownerRuling := false }) intents) memos
      (handlers.erase thread) := by
  obtain ⟨lifetimes, resident⟩ := lawful.adjust_lifetimes carrier
    (f := fun i => { i with ownerRuling := false }) (fun _ => ⟨rfl, rfl⟩)
  refine ⟨?known, ?unique, ?logged, ?ruling, ?claimed, ?sole, ?ruled, lifetimes, ?inFlight, resident, lawful.entry⟩
  case known =>
    intro t h there
    exact lawful.known t h (lookup_erase_some.mp there).2
  case unique =>
    intro t t' h h' there there'
    exact lawful.unique t t' h h' (lookup_erase_some.mp there).2 (lookup_erase_some.mp there').2
  case logged =>
    intro t h there
    exact lawful.logged t h (lookup_erase_some.mp there).2
  case ruling =>
    intro t h c there rules'
    obtain ⟨different, there⟩ := lookup_erase_some.mp there
    obtain ⟨names, owner⟩ := lawful.ruling t h c there rules'
    refine ⟨names, ?_⟩
    intro i found
    obtain ⟨old, present, rfl | ⟨same, _⟩⟩ := lookup_adjust_some found
    · exact owner i present
    · exfalso
      apply different
      apply lawful.carrier_unique separates here there
      rw [← names, same, (lawful.ruling thread own carrier here rules).1]
  case claimed =>
    intro t h there waiting
    obtain ⟨owns, absent, either⟩ := lawful.claimed t h (lookup_erase_some.mp there).2 waiting
    exact ⟨owns, lookup_adjust_none absent, either⟩
  case sole =>
    intro t h there
    exact lawful.sole t h (lookup_erase_some.mp there).2
  case ruled =>
    intro c i found unsettled
    by_cases same : c = carrier
    · subst same
      rw [lookup_adjust_self, Option.map_eq_some_iff] at found
      obtain ⟨old, present, rfl⟩ := found
      rw [staged old present] at unsettled
      simp at unsettled
    · rw [lookup_adjust_ne same] at found
      obtain ⟨t, h, there, rules'⟩ := lawful.ruled c i found unsettled
      refine ⟨t, h, lookup_erase_some.mpr ⟨?_, there⟩, rules'⟩
      rintro rfl
      rw [here, Option.some.injEq] at there
      rw [← there, rules, Option.some.injEq] at rules'
      exact same rules'.symm
  case inFlight =>
    intro n tag e d held
    obtain ⟨t, h, there, waiting, rest⟩ := lawful.inFlight n tag e d held
    refine ⟨t, h, lookup_erase_some.mpr ⟨?_, there⟩, waiting, rest⟩
    rintro rfl
    rw [here, Option.some.injEq] at there
    rw [← there, rules] at waiting
    cases waiting

/-- The arm hook gives an unruled handler its intent, and its claim becomes a derived memo unless a later
generation holds the nonce. -/
theorem arm (lawful : Lawful carrierId log mono intents memos handlers)
    (here : handlers.lookup thread = some own) (unruled : own.rulingCarrier = none) {intent : ArmIntent}
    {ownsMemo : Bool} {memos' : Map String CarrierMemo}
    (lifetime : intent.expiry = own.generation.expiry ∧ intent.deadline = own.generation.deadline)
    (rules : intent.ownerRuling = true)
    (memo : memos' = memos.insert own.body.nonce
          ⟨.derived (carrierId own.body) own.generation.signatureTag ∅, own.generation.expiry,
            own.generation.deadline⟩ ∧
        (∀ m, memos.lookup own.body.nonce = some m → m = own.generation.claim) ∨
      memos' = memos ∧ ∃ m, memos.lookup own.body.nonce = some m ∧ m ≠ own.generation.claim) :
    Lawful carrierId log mono (intents.insert (carrierId own.body) intent) memos'
      (handlers.insert thread { own with rulingCarrier := some (carrierId own.body), ownsMemo := ownsMemo }) := by
  obtain ⟨expiry, remembered⟩ := lawful.known thread own here
  obtain ⟨_, absent, either⟩ := lawful.claimed thread own here unruled
  have otherCarrier : ∀ {t h}, t ≠ thread → handlers.lookup t = some h → carrierId h.body ≠ carrierId own.body :=
    fun different there same => different (lawful.carrier_unique separates here there same)
  -- The upgrade replaces nothing but the handler's own claim.
  have kept : ∀ {n m}, memos.lookup n = some m → m ≠ own.generation.claim → memos'.lookup n = some m := by
    intro n m held other
    rcases memo with ⟨rfl, owned⟩ | ⟨rfl, _⟩
    · refine lookup_insert_some.mpr (Or.inr ⟨?_, held⟩)
      rintro rfl
      exact other (owned m held)
    · exact held
  have back : ∀ {n m}, memos'.lookup n = some m → memos.lookup n = some m ∨
      n = own.body.nonce ∧ m = ⟨.derived (carrierId own.body) own.generation.signatureTag ∅,
        own.generation.expiry, own.generation.deadline⟩ := by
    intro n m held
    rcases memo with ⟨rfl, _⟩ | ⟨rfl, _⟩
    · rcases lookup_insert_some.mp held with new | ⟨_, old⟩
      · exact Or.inr new
      · exact Or.inl old
    · exact Or.inl held
  constructor
  case known =>
    intro t h there
    rcases lookup_insert_some.mp there with ⟨_, rfl⟩ | ⟨_, old⟩
    · exact ⟨expiry, remembered⟩
    · exact lawful.known t h old
  case unique =>
    intro t t' h h' there there' nonce sameExpiry
    rcases lookup_insert_some.mp there with ⟨rfl, rfl⟩ | ⟨_, old⟩ <;>
      rcases lookup_insert_some.mp there' with ⟨rfl, rfl⟩ | ⟨_, old'⟩
    · rfl
    · exact lawful.unique t t' own h' here old' nonce sameExpiry
    · exact lawful.unique t t' h own old here nonce sameExpiry
    · exact lawful.unique t t' h h' old old' nonce sameExpiry
  case logged =>
    intro t h there
    rcases lookup_insert_some.mp there with ⟨_, rfl⟩ | ⟨_, old⟩
    · exact lawful.logged thread own here
    · exact lawful.logged t h old
  case ruling =>
    intro t h c there rules'
    rcases lookup_insert_some.mp there with ⟨_, rfl⟩ | ⟨different, old⟩
    · obtain rfl : carrierId own.body = c := Option.some.inj rules'
      refine ⟨rfl, ?_⟩
      intro i found
      rw [AList.lookup_insert, Option.some.injEq] at found
      exact found ▸ rules
    · obtain ⟨names, owner⟩ := lawful.ruling t h c old rules'
      refine ⟨names, ?_⟩
      intro i found
      rcases lookup_insert_some.mp found with ⟨same, _⟩ | ⟨_, present⟩
      · exact absurd (names.symm.trans same) (otherCarrier different old)
      · exact owner i present
  case claimed =>
    intro t h there waiting
    rcases lookup_insert_some.mp there with ⟨_, rfl⟩ | ⟨different, old⟩
    · cases waiting
    · obtain ⟨owns, none, lived⟩ := lawful.claimed t h old waiting
      refine ⟨owns, ?_, lived.imp_right ?_⟩
      · rw [lookup_insert_eq, if_neg (otherCarrier different old), none]
      · intro held
        by_cases nonce : h.body.nonce = own.body.nonce
        · exact kept held (fun same => different (lawful.claim_unique here old nonce same))
        · rcases memo with ⟨rfl, _⟩ | ⟨rfl, _⟩
          · exact lookup_insert_some.mpr (Or.inr ⟨nonce, held⟩)
          · exact held
  case sole =>
    intro t h there waiting m held sameExpiry
    rcases lookup_insert_some.mp there with ⟨_, rfl⟩ | ⟨different, old⟩
    · cases waiting
    · rcases back held with present | ⟨nonce, rfl⟩
      · exact lawful.sole t h old waiting m present sameExpiry
      · exact absurd (lawful.unique t thread h own old here nonce (sameExpiry.symm.trans expiry)) different
  case ruled =>
    intro c i found unsettled
    rcases lookup_insert_some.mp found with ⟨rfl, _⟩ | ⟨_, present⟩
    · exact ⟨thread, _, AList.lookup_insert _, rfl⟩
    · obtain ⟨t, h, there, rules'⟩ := lawful.ruled c i present unsettled
      refine ⟨t, h, lookup_insert_some.mpr (Or.inr ⟨?_, there⟩), rules'⟩
      rintro rfl
      rw [here, Option.some.injEq] at there
      rw [← there, unruled] at rules'
      cases rules'
  case intent =>
    intro c i found
    rcases lookup_insert_some.mp found with ⟨rfl, rfl⟩ | ⟨_, present⟩
    · refine ⟨own.body, rfl, lifetime.1.trans expiry, remembered, ?_⟩
      rw [lifetime.1, lifetime.2]
      rcases memo with ⟨rfl, _⟩ | ⟨rfl, m, held, other⟩
      · exact Or.inr ⟨_, _, AList.lookup_insert _⟩
      · rcases either with past | claim
        · exact Or.inl past
        · rw [held, Option.some.injEq] at claim
          exact absurd claim other
    · obtain ⟨body, names, sameExpiry, known, lived⟩ := lawful.intent c i present
      refine ⟨body, names, sameExpiry, known, lived.imp_right ?_⟩
      rintro ⟨tag, resolved, held⟩
      exact ⟨tag, resolved, kept held (by simp [MemoGeneration.claim])⟩
  case inFlight =>
    intro n tag e d held
    rcases back held with present | ⟨_, new⟩
    · obtain ⟨t, h, there, waiting, nonce, generation⟩ := lawful.inFlight n tag e d present
      refine ⟨t, h, lookup_insert_some.mpr (Or.inr ⟨?_, there⟩), waiting, nonce, generation⟩
      rintro rfl
      rw [here, Option.some.injEq] at there
      subst there
      have claim : (⟨.inFlight tag, e, d⟩ : CarrierMemo) = own.generation.claim := by
        rw [generation, MemoGeneration.claim]
      rw [claim] at present held
      rcases memo with ⟨rfl, _⟩ | ⟨rfl, m, stranger, other⟩
      · rw [← nonce, AList.lookup_insert] at held
        simp [MemoGeneration.claim] at held
      · rw [nonce, present, Option.some.injEq] at stranger
        exact other stranger.symm
    · cases new
  case derived =>
    intro n c tag resolved e d held
    rcases back held with present | ⟨rfl, new⟩
    · obtain ⟨body, i, found, rest⟩ := lawful.derived n c tag resolved e d present
      refine ⟨body, i, lookup_insert_some.mpr (Or.inr ⟨?_, found⟩), rest⟩
      rintro rfl
      rw [absent] at found
      cases found
    · cases new
      exact ⟨⟨own.body, rfl, rfl, expiry.symm⟩, intent, AList.lookup_insert _, lifetime.1, lifetime.2⟩
  case entry =>
    intro n m held
    rcases back held with present | ⟨rfl, rfl⟩
    · exact lawful.entry n m present
    · simp only [expiry]
      exact lawful.logged thread own here

end Handlers

section Ingress

variable (separates : ∀ a b, carrierId a = carrierId b → a.nonce = b.nonce ∧ a.expiry = b.expiry)
include separates

/-- Every intent's carrier belongs to a generation the log remembers. -/
theorem intent_absent (lawful : Lawful carrierId log mono intents memos handlers) {body : CarrierBody}
    (unseen : ¬Remembers body.nonce body.expiry log) : intents.lookup (carrierId body) = none := by
  by_contra present
  obtain ⟨i, found⟩ := Option.ne_none_iff_exists'.mp present
  obtain ⟨other, names, _, remembered, _⟩ := lawful.intent _ i found
  obtain ⟨nonce, expiry⟩ := separates _ _ names
  rw [nonce, expiry] at remembered
  exact unseen remembered

/-- Every memo belongs to a generation the log remembers. -/
theorem memo_remembered (lawful : Lawful carrierId log mono intents memos handlers) {n : String} {m : CarrierMemo}
    (held : memos.lookup n = some m) : Remembers n m.expiry log := by
  obtain ⟨outcome, expiry, deadline⟩ := m
  cases outcome with
  | inFlight tag =>
    obtain ⟨t, h, here, _, rfl, generation⟩ := lawful.inFlight n tag expiry deadline held
    obtain ⟨same, remembered⟩ := lawful.known t h here
    rw [generation] at same
    simp only at same ⊢
    rw [same]
    exact remembered
  | derived c tag resolved =>
    obtain ⟨⟨body, names, rfl, rfl⟩, i, found, _⟩ := lawful.derived n c tag resolved expiry deadline held
    obtain ⟨other, names', _, remembered, _⟩ := lawful.intent c i found
    obtain ⟨nonce, same⟩ := separates _ _ (names'.trans names.symm)
    rw [nonce, same] at remembered
    exact remembered

/-- An accepted request claims its nonce. -/
theorem ingress {s : PartialStore} (lawful : Lawful carrierId log mono s.intents s.carriersByNonce handlers)
    {thread : Nat} (free : handlers.lookup thread = none) {body : CarrierBody} {call : NonceCall}
    (nonce : call.nonce = body.nonce) (expiry : call.expiry = body.expiry) (sampled : call.monoNow = some mono)
    (accepted : (log.checkAndRecord call).2 = .accepted) {deadline : Nat}
    (recorded : (log.checkAndRecord call).1.entries.lookup body.nonce = some ⟨body.expiry, some deadline⟩)
    (signatureTag : Bytes) (firstSeen : Nat) :
    Lawful carrierId (log.checkAndRecord call).1 mono
      (s.claimNonceInFlight body.nonce ⟨signatureTag, body.expiry, deadline⟩ mono).intents
      (s.claimNonceInFlight body.nonce ⟨signatureTag, body.expiry, deadline⟩ mono).carriersByNonce
      (handlers.insert thread ⟨body, ⟨signatureTag, body.expiry, deadline⟩, firstSeen, true, none⟩) := by
  have unseen : ¬Remembers body.nonce body.expiry log := by
    intro known
    rw [← nonce, ← expiry] at known
    exact remembers_refuses known accepted
  have remembered := remembers_accepted accepted
  rw [nonce, expiry] at remembered
  refine ((lawful.check call sampled).prune).claim
    ⟨body, ⟨signatureTag, body.expiry, deadline⟩, firstSeen, true, none⟩ free rfl rfl rfl remembered recorded ?_ ?_ ?_
  · intro t h there same
    constructor
    · intro sameExpiry
      have known := (lawful.known t h there).2
      rw [same, sameExpiry] at known
      exact unseen known
    · have logged := lawful.logged t h there
      rw [same, ← nonce] at logged
      exact deadline_past_of_accepted accepted sampled logged
  · intro m held
    have entry := lawful.entry body.nonce m (lookup_retain_some.mp held).1
    rw [← nonce] at entry
    exact deadline_past_of_accepted accepted sampled entry
  · have absent := lawful.intent_absent separates unseen
    show (retain _ s.intents).lookup (carrierId body) = none
    rw [lookup_retain, absent]
    rfl

end Ingress

end Lawful

/-! ### One step -/

theorem confirmed_carriersByNonce (carrier : String) (intent : ArmIntent) (now : Nat) (timing : DuressTiming)
    (s : PartialStore) : (applyWrites (confirmWrites carrier intent now timing) s).carriersByNonce =
      (s.retireCarrier carrier).carriersByNonce := by
  have refreshed : ∀ (id : String) (s : PartialStore),
      (s.refreshEscapeWindow id).carriersByNonce = s.carriersByNonce := by
    intro id s
    unfold refreshEscapeWindow
    split <;> rfl
  simp only [applyWrites, confirmWrites, List.foldl_cons, List.foldl_nil]
  simp only [retireCarrier, refreshed]
  rfl

/-- The verdict claims a derivation when it is asked to and the sender has none yet; else it only reads. -/
theorem outerStaleVerdict_cases (s : PartialStore) (nonce carrier : String) (generation : MemoGeneration)
    (resolved : Option Bytes) (signatureTag claimTag : Bytes) (sender now : Nat) (step : OuterStaleStep)
    (finished : Option Bool) :
    let result := s.outerStaleVerdict nonce carrier generation resolved signatureTag claimTag sender now step finished
    result.1 = s ∧ (step = .inspect true → ∀ c g, result.2 ≠ .derive c g) ∨
      step = .inspect true ∧ resolved = none ∧ result.2 = .derive carrier generation ∧
        result.1 = s.resolveSignature nonce sender claimTag := by
  unfold outerStaleVerdict
  by_cases expired : generation.expiry ≤ now
  · simp [expired]
  · rw [if_neg expired]
    cases s.intents.lookup carrier with
    | none => simp
    | some intent =>
      by_cases closed : (intent.expiry, intent.deadline) ≠ (generation.expiry, generation.deadline) ∨
          intent.committed = true ∨ sender ∈ intent.holders ∨
          (intent.ownerRuling || intent.readyToPropagate) = false
      · simp only [if_pos closed]
        simp
      · by_cases waiting : (intent.ownerRuling && !intent.readyToPropagate) = true
        · simp only [if_neg closed, if_pos waiting]
          simp
        · by_cases sure : generation.signatureTag = signatureTag ∨ resolved = some signatureTag
          · simp only [if_neg closed, if_neg waiting, if_pos sure]
            simp
          · simp only [if_neg closed, if_neg waiting, if_neg sure]
            cases step with
            | inspect claim =>
              simp only
              split_ifs with busy unused asked
              · exact Or.inl ⟨rfl, by simp⟩
              · subst asked
                exact Or.inr ⟨rfl, by simpa using unused, rfl, rfl⟩
              · exact Or.inl ⟨rfl, by simp [asked]⟩
              · exact Or.inl ⟨rfl, by simp⟩
            | finish memoizedCarrier claimed matched =>
              simp only
              split_ifs
              · exact Or.inl ⟨rfl, by simp⟩
              · exact Or.inl ⟨rfl, by simp⟩

/-- What an outer-stale receipt does to a derived memo: it claims the sender's one derivation, or writes
back a claimed one, or only reads. -/
theorem outerStaleCarrier_cases (ch : ChannelState) (s : PartialStore) (nonce : String) (signatureTag : Bytes)
    (expiry deadline sender now : Nat) (step : OuterStaleStep) (monoNow : Nat) :
    let result := s.outerStaleCarrier ch nonce signatureTag expiry deadline sender now step monoNow
    let claimTag := ch.lib.taggedHash outerStaleClaimTag signatureTag
    result.1 = s ∧ (step = .inspect true → ∀ c g, result.2 ≠ .derive c g) ∨
      ∃ carrier remembered resolvedSenders,
        s.carriersByNonce.lookup nonce = some ⟨.derived carrier remembered resolvedSenders, expiry, deadline⟩ ∧
          monoNow < deadline ∧
          (step = .inspect true ∧ resolvedSenders.lookup sender = none ∧
              result.2 = .derive carrier ⟨remembered, expiry, deadline⟩ ∧
              result.1 = s.resolveSignature nonce sender claimTag ∨
            (∃ c g matched, step = .finish c g matched) ∧ resolvedSenders.lookup sender = some claimTag ∧
              ∃ tag, result.1 = s.resolveSignature nonce sender tag) := by
  unfold outerStaleCarrier
  simp only
  cases held : s.carriersByNonce.lookup nonce with
  | none => exact Or.inl ⟨rfl, by simp⟩
  | some memo =>
    obtain ⟨outcome, memoExpiry, memoDeadline⟩ := memo
    simp only
    by_cases lapsed : deadline ≤ monoNow ∨ (memoExpiry, memoDeadline) ≠ (expiry, deadline)
    · rw [if_pos lapsed]
      exact Or.inl ⟨rfl, by simp⟩
    · rw [if_neg lapsed]
      push Not at lapsed
      obtain ⟨ahead, same⟩ := lapsed
      simp only [Prod.mk.injEq] at same
      obtain ⟨rfl, rfl⟩ := same
      cases outcome with
      | inFlight tag =>
        refine Or.inl ⟨rfl, ?_⟩
        intro _ c g
        split_ifs <;> simp
      | derived carrier remembered resolvedSenders =>
        simp only
        cases ended : finishedStep step carrier ⟨remembered, memoExpiry, memoDeadline⟩
            (resolvedSenders.lookup sender) (ch.lib.taggedHash outerStaleClaimTag signatureTag) with
        | none =>
          rcases outerStaleVerdict_cases s nonce carrier ⟨remembered, memoExpiry, memoDeadline⟩
            (resolvedSenders.lookup sender) signatureTag (ch.lib.taggedHash outerStaleClaimTag signatureTag) sender
            now step none with reads | claims
          · exact Or.inl reads
          · exact Or.inr ⟨carrier, remembered, resolvedSenders, rfl, ahead, Or.inl claims⟩
        | some matched =>
          have finish : (∃ c g matched, step = .finish c g matched) ∧
              resolvedSenders.lookup sender = some (ch.lib.taggedHash outerStaleClaimTag signatureTag) := by
            cases step with
            | inspect claim => simp [finishedStep] at ended
            | finish memoizedCarrier claimed result =>
              simp only [finishedStep] at ended
              split_ifs at ended with holds
              exact ⟨⟨_, _, _, rfl⟩, holds.2.2⟩
          refine Or.inr ⟨carrier, remembered, resolvedSenders, rfl, ahead, Or.inr ⟨finish.1, finish.2,
            if matched then signatureTag else remembered, ?_⟩⟩
          rcases outerStaleVerdict_cases (s.resolveSignature nonce sender (if matched then signatureTag else remembered))
            nonce carrier ⟨remembered, memoExpiry, memoDeadline⟩ (resolvedSenders.lookup sender) signatureTag
            (ch.lib.taggedHash outerStaleClaimTag signatureTag) sender now step (some matched) with reads | claims
          · exact reads.1
          · obtain ⟨_, _, _, rfl⟩ := finish.1
            cases claims.1

/-- A fresh-envelope claim is granted only to a sender without an entry, and leaves the memo's own tag
as the marker. -/
theorem claimCarrierDerivation_cases (s : PartialStore) (nonce : String) (sender : Nat) (memoizedCarrier : String) :
    s.claimCarrierDerivation nonce sender memoizedCarrier = (s, false) ∨
      ∃ tag resolvedSenders expiry deadline,
        s.carriersByNonce.lookup nonce = some ⟨.derived memoizedCarrier tag resolvedSenders, expiry, deadline⟩ ∧
          resolvedSenders.lookup sender = none ∧
          s.claimCarrierDerivation nonce sender memoizedCarrier = (s.resolveSignature nonce sender tag, true) := by
  unfold claimCarrierDerivation
  split_ifs with countable
  · cases held : s.carriersByNonce.lookup nonce with
    | none => exact Or.inl rfl
    | some memo =>
      obtain ⟨outcome, expiry, deadline⟩ := memo
      cases outcome with
      | inFlight tag => exact Or.inl rfl
      | derived carrier tag resolvedSenders =>
        simp only
        split_ifs with unused
        · obtain ⟨rfl, unused⟩ := unused
          exact Or.inr ⟨tag, resolvedSenders, expiry, deadline, rfl, by simpa using unused, rfl⟩
        · exact Or.inl rfl
  · exact Or.inl rfl

/-- A fresh-envelope result is written only over the claim of its own generation. -/
theorem recordCarrierDerivationResult_cases (s : PartialStore) (nonce : String) (sender : Nat)
    (signatureTag : Bytes) (generation : MemoGeneration) (memoizedCarrier : String) :
    s.recordCarrierDerivationResult nonce sender signatureTag generation memoizedCarrier = (s, false) ∨
      ∃ resolvedSenders,
        s.carriersByNonce.lookup nonce = some ⟨.derived memoizedCarrier generation.signatureTag resolvedSenders,
            generation.expiry, generation.deadline⟩ ∧
          resolvedSenders.lookup sender = some generation.signatureTag ∧
          s.recordCarrierDerivationResult nonce sender signatureTag generation memoizedCarrier =
            (s.resolveSignature nonce sender signatureTag, true) := by
  unfold recordCarrierDerivationResult
  cases held : s.carriersByNonce.lookup nonce with
  | none => exact Or.inl rfl
  | some memo =>
    obtain ⟨outcome, expiry, deadline⟩ := memo
    cases outcome with
    | inFlight tag => exact Or.inl rfl
    | derived carrier tag resolvedSenders =>
      simp only
      split_ifs with own
      · obtain ⟨rfl, rfl, rfl, rfl, claimed⟩ := own
        exact Or.inr ⟨resolvedSenders, rfl, claimed, rfl⟩
      · exact Or.inl rfl

/-- The derived memo a generation installs. -/
def MemoGeneration.derivedMemo (generation : MemoGeneration) (carrier : String) : CarrierMemo :=
  ⟨.derived carrier generation.signatureTag ∅, generation.expiry, generation.deadline⟩

/-- The arm hook on a carrier without an intent: the intent is installed, and the memo too unless another
generation holds the nonce. -/
theorem recordArmIntent_fresh {s : PartialStore} {carrier : String} (absent : s.intents.lookup carrier = none)
    (duress : Bool) (nonce : String) (generation : MemoGeneration) (firstSeen now : Nat) (timing : DuressTiming) :
    let recorded := s.recordArmIntent duress carrier nonce generation firstSeen now timing
    recorded.1.intents = s.intents.insert carrier
        { freshIntent generation firstSeen with duress := duress, ownerRuling := true } ∧
      (recorded.1.carriersByNonce = s.carriersByNonce.insert nonce (generation.derivedMemo carrier) ∧
          (∀ m, s.carriersByNonce.lookup nonce = some m → m = generation.claim) ∨
        recorded.1.carriersByNonce = s.carriersByNonce ∧
          ∃ m, s.carriersByNonce.lookup nonce = some m ∧ m ≠ generation.claim) := by
  have intents : (((s.writeSafetyOverlay false firstSeen now timing).recordIntent duress carrier generation
      firstSeen)).intents = s.intents.insert carrier
        { freshIntent generation firstSeen with duress := duress, ownerRuling := true } := by
    show AList.insert carrier _ s.intents = _
    rw [show (s.writeSafetyOverlay false firstSeen now timing).intents = s.intents from rfl, absent]
    rfl
  have memos : (((s.writeSafetyOverlay false firstSeen now timing).recordIntent duress carrier generation
      firstSeen)).carriersByNonce = s.carriersByNonce := rfl
  unfold PartialStore.recordArmIntent upgradeMemo
  simp only [memos]
  cases held : s.carriersByNonce.lookup nonce with
  | none => exact ⟨intents, Or.inl ⟨rfl, by simp⟩⟩
  | some memo =>
    simp only
    by_cases own : memo.matchesGeneration generation = true
    · simp only [if_pos own]
      refine ⟨intents, Or.inl ⟨rfl, ?_⟩⟩
      rintro m same
      rw [← Option.some.inj same]
      exact matchesGeneration_iff.mp own
    · simp only [if_neg own]
      exact ⟨intents, Or.inr ⟨memos, memo, rfl, fun same => own (matchesGeneration_iff.mpr same)⟩⟩

/-- Ending a ruling retires a carrier that was never staged or is past its deadline. -/
theorem endCarrierRuling_cases (s : PartialStore) (carrier : String) (monoNow : Nat) :
    s.intents.lookup carrier = none ∧ s.endCarrierRuling carrier monoNow = s ∨
      (∃ i, s.intents.lookup carrier = some i ∧ (i.readyToPropagate = false ∨ i.deadline ≤ monoNow) ∧
        s.endCarrierRuling carrier monoNow =
          (s.updateIntent carrier (fun intent => { intent with ownerRuling := false })).retireCarrier carrier) ∨
      ∃ i, s.intents.lookup carrier = some i ∧ i.readyToPropagate = true ∧ monoNow < i.deadline ∧
        s.endCarrierRuling carrier monoNow =
          s.updateIntent carrier (fun intent => { intent with ownerRuling := false }) := by
  unfold endCarrierRuling
  cases found : s.intents.lookup carrier with
  | none => exact Or.inl ⟨rfl, rfl⟩
  | some i =>
    right
    simp only
    by_cases lapsed : (!i.readyToPropagate || decide (i.deadline ≤ monoNow)) = true
    · rw [if_pos lapsed]
      exact Or.inl ⟨i, rfl, by simpa using lapsed, rfl⟩
    · rw [if_neg lapsed]
      simp only [Bool.or_eq_true, Bool.not_eq_true', decide_eq_true_eq, not_or, Bool.not_eq_false, not_le] at lapsed
      exact Or.inr ⟨i, rfl, lapsed.1, lapsed.2, rfl⟩

/-- The nonce-log call of a spend request on a node with a channel. -/
def CarrierBody.spendCall (body : CarrierBody) (nowInput maxAge mono : Nat) : NonceCall :=
  ⟨body.nonce, body.expiry, nowInput, maxAge, some mono, true⟩

/-- An ingress that claims its nonce. -/
structure Claims (s : Life) (thread : Nat) (body : CarrierBody) (signatureTag : Bytes) (nowInput maxAge : Nat)
    (proceeds : Bool) (deadline : Nat) : Prop where
  free : s.handlers.lookup thread = none
  accepted : (s.log.checkAndRecord (body.spendCall nowInput maxAge s.mono)).2 = .accepted
  recorded : (s.log.checkAndRecord (body.spendCall nowInput maxAge s.mono)).1.entries.lookup body.nonce =
    some ⟨body.expiry, some deadline⟩
  result : (s.ingress thread body signatureTag nowInput maxAge proceeds).1 =
    { s with
      log := (s.log.checkAndRecord (body.spendCall nowInput maxAge s.mono)).1
      store := s.store.claimNonceInFlight body.nonce ⟨signatureTag, body.expiry, deadline⟩ s.mono
      handlers := s.handlers.insert thread ⟨body, ⟨signatureTag, body.expiry, deadline⟩,
        (s.log.checkAndRecord (body.spendCall nowInput maxAge s.mono)).1.effectiveNow nowInput, true, none⟩ }

theorem ingress_cases (s : Life) (thread : Nat) (body : CarrierBody) (signatureTag : Bytes)
    (nowInput maxAge : Nat) (proceeds : Bool) :
    (s.ingress thread body signatureTag nowInput maxAge proceeds).1 = s ∨
      (s.ingress thread body signatureTag nowInput maxAge proceeds).1 =
        { s with log := (s.log.checkAndRecord (body.spendCall nowInput maxAge s.mono)).1 } ∨
      ∃ deadline, Claims s thread body signatureTag nowInput maxAge proceeds deadline := by
  by_cases taken : (s.handlers.lookup thread).isSome
  · left
    unfold Life.ingress
    rw [if_pos taken]
  · right
    have free : s.handlers.lookup thread = none := by simpa using taken
    by_cases accepted : (s.log.checkAndRecord (body.spendCall nowInput maxAge s.mono)).2 = .accepted
    · obtain ⟨deadline, recorded⟩ : ∃ deadline,
          (s.log.checkAndRecord (body.spendCall nowInput maxAge s.mono)).1.entries.lookup body.nonce =
            some ⟨body.expiry, some deadline⟩ := checkAndRecord_spend rfl rfl accepted
      have fixed : (s.log.checkAndRecord (body.spendCall nowInput maxAge s.mono)).1.carrierDeadline body.nonce =
          some deadline := by
        rw [NonceLog.carrierDeadline, recorded]
        rfl
      cases proceeds with
      | true =>
        refine Or.inr ⟨deadline, free, accepted, recorded, ?_⟩
        unfold Life.ingress
        rw [if_neg taken]
        simp only [CarrierBody.spendCall] at accepted fixed
        simp only [accepted, fixed, if_true]
        rfl
      | false =>
        left
        unfold Life.ingress
        rw [if_neg taken]
        simp only [CarrierBody.spendCall] at accepted fixed
        simp only [accepted, fixed, Bool.false_eq_true, if_false]
        rfl
    · left
      unfold Life.ingress
      rw [if_neg taken]
      simp only [CarrierBody.spendCall] at accepted
      simp only
      split
      · rename_i decided _
        exact absurd decided accepted
      · rfl

/-- The invariant of a whole state. -/
def Life.Sound (carrierId : CarrierBody → String) (s : Life) : Prop :=
  Lawful carrierId s.log s.mono s.store.intents s.store.carriersByNonce s.handlers

section Steps

variable {carrierId : CarrierBody → String} {s : Life}

theorem sound_onRuling (sound : s.Sound carrierId) (thread : Nat) {write : PartialStore → String → PartialStore}
    {f : ArmIntent → ArmIntent} (writes : ∀ store carrier, write store carrier = store.updateIntent carrier f)
    (same : ∀ i, (f i).expiry = i.expiry ∧ (f i).deadline = i.deadline)
    (ruling : ∀ i, (f i).ownerRuling = i.ownerRuling)
    (staged : ∀ i, i.readyToPropagate = true → (f i).readyToPropagate = true) :
    (s.onRuling thread write).Sound carrierId := by
  unfold Life.onRuling
  split
  · rename_i carrier _
    simp only [Life.Sound, writes]
    exact sound.adjustIntent carrier same ruling staged
  · exact sound

theorem sound_confirmCarrier (sound : s.Sound carrierId) (sender : Nat) (carrier : String) (threshold now : Nat)
    (timing : DuressTiming) :
    Life.Sound carrierId { s with store := (s.store.confirmCarrier sender carrier threshold now timing s.mono).1 } := by
  obtain ⟨_, same | same⟩ | ⟨intent, _, same⟩ :=
    confirmCarrier_cases s.store sender carrier threshold now timing s.mono
  · rw [same]
    exact sound
  · rw [same]
    exact sound.adjustIntent carrier (fun _ => ⟨rfl, rfl⟩) (fun _ => rfl) (fun _ => id)
  · rw [same]
    simp only [Life.Sound, confirmed_intents, confirmed_carriersByNonce]
    have retired := sound.retire carrier
    simp only [markCommitted, addHolder, updateIntent, erase_adjust]
    exact retired

theorem sound_resolve (sound : s.Sound carrierId) (nonce : String) (sender : Nat) (tag : Bytes) :
    Life.Sound carrierId { s with store := s.store.resolveSignature nonce sender tag } :=
  Lawful.resolve sound nonce sender tag

variable (separates : ∀ a b, carrierId a = carrierId b → a.nonce = b.nonce ∧ a.expiry = b.expiry)
include separates

theorem sound_ingress (sound : s.Sound carrierId) (thread : Nat) (body : CarrierBody) (signatureTag : Bytes)
    (nowInput maxAge : Nat) (proceeds : Bool) :
    (s.ingress thread body signatureTag nowInput maxAge proceeds).1.Sound carrierId := by
  have checked := sound.check (body.spendCall nowInput maxAge s.mono) rfl
  rcases ingress_cases s thread body signatureTag nowInput maxAge proceeds with same | same | ⟨deadline, claims⟩
  · rw [same]
    exact sound
  · rw [same]
    exact checked
  · rw [claims.result]
    exact sound.ingress separates claims.free rfl rfl rfl claims.accepted claims.recorded signatureTag _

theorem sound_recordArmIntent (sound : s.Sound carrierId) (thread : Nat) (duress : Bool) (now : Nat)
    (timing : DuressTiming) : (s.recordArmIntent carrierId thread duress now timing).Sound carrierId := by
  unfold Life.recordArmIntent
  cases here : s.handlers.lookup thread with
  | none => exact sound
  | some own =>
    simp only
    split_ifs with rules
    · exact sound
    · have unruled : own.rulingCarrier = none := by simpa using rules
      obtain ⟨_, absent, _⟩ := sound.claimed thread own here unruled
      obtain ⟨intents, memos⟩ := recordArmIntent_fresh absent duress own.body.nonce own.generation own.firstSeen now
        timing
      simp only [Life.Sound, intents]
      exact sound.arm separates here unruled ⟨rfl, rfl⟩ rfl memos

omit separates in
/-- A ruling handler's guard only ends the ruling: its claim became the carrier, or was displaced. -/
theorem exit_ruling {own : Handler} {thread : Nat} {carrier : String} (sound : s.Sound carrierId)
    (here : s.handlers.lookup thread = some own) (rules : own.rulingCarrier = some carrier) :
    s.exit thread = { s with
      store := s.store.endCarrierRuling carrier s.mono
      handlers := s.handlers.erase thread } := by
  have released : (if own.ownsMemo = true then s.store.releaseNonceClaim own.body.nonce own.generation
      else s.store) = s.store := by
    split_ifs
    · exact Lawful.release_ruling sound here rules
    · rfl
  simp only [Life.exit, here, rules, released]

omit separates in
theorem exit_unruled {own : Handler} {thread : Nat} (sound : s.Sound carrierId)
    (here : s.handlers.lookup thread = some own) (unruled : own.rulingCarrier = none) :
    s.exit thread = { s with
      store := s.store.releaseNonceClaim own.body.nonce own.generation
      handlers := s.handlers.erase thread } := by
  obtain ⟨owns, _⟩ := sound.claimed thread own here unruled
  simp only [Life.exit, here, unruled, owns, if_true]

theorem sound_exit (sound : s.Sound carrierId) (thread : Nat) : (s.exit thread).Sound carrierId := by
  cases here : s.handlers.lookup thread with
  | none =>
    unfold Life.exit
    rw [here]
    exact sound
  | some own =>
    cases rules : own.rulingCarrier with
    | none =>
      rw [exit_unruled sound here rules]
      have left := sound.leave here rules
      have intents : (s.store.releaseNonceClaim own.body.nonce own.generation).intents = s.store.intents := by
        unfold releaseNonceClaim
        split_ifs <;> rfl
      simp only [Life.Sound, intents]
      exact left
    | some carrier =>
      rw [exit_ruling sound here rules]
      rcases endCarrierRuling_cases s.store carrier s.mono with ⟨absent, same⟩ | ⟨i, found, _, same⟩ |
        ⟨i, found, staged, _, same⟩
      · have gone := sound.dismiss separates here rules (by simp [absent])
        rw [adjust_absent absent] at gone
        rw [same]
        exact gone
      · have retired : s.store.intents.erase carrier = (s.store.retireCarrier carrier).intents := rfl
        have absent : (s.store.intents.erase carrier).lookup carrier = none := AList.lookup_erase _ _
        have gone := (sound.retire carrier).dismiss separates here rules (by simp [← retired, absent])
        rw [← retired, adjust_absent absent] at gone
        simp only [Life.Sound, same, updateIntent, retireCarrier, erase_adjust]
        exact gone
      · rw [same]
        exact sound.dismiss separates here rules (by simp [found, staged])

theorem lifeStep_sound (ch : ChannelState) (sound : s.Sound carrierId) (action : LifeAction) :
    (lifeStep ch carrierId s action).1.Sound carrierId := by
  have ticked : Life.Sound carrierId { s with mono := s.mono + action.elapsed } := sound.tick action.elapsed
  obtain ⟨elapsed, op⟩ := action
  cases op with
  | ingress thread body signatureTag nowInput maxAge proceeds =>
    exact sound_ingress separates ticked thread body signatureTag nowInput maxAge proceeds
  | refreshIngress nonce expiry nowInput maxAge => exact ticked.check _ rfl
  | recordArmIntent thread duress now timing =>
    exact sound_recordArmIntent separates ticked thread duress now timing
  | recordIntentPair thread spend escape =>
    exact sound_onRuling ticked thread (fun _ _ => rfl) (fun _ => ⟨rfl, rfl⟩) (fun _ => rfl) (fun _ => id)
  | markCarrierPropagated thread =>
    exact sound_onRuling ticked thread (fun _ _ => rfl) (fun _ => ⟨rfl, rfl⟩) (fun _ => rfl) (fun _ _ => rfl)
  | exit thread => exact sound_exit separates ticked thread
  | pruneCarriers => exact ticked.prune
  | confirmCarrier sender carrier threshold now timing =>
    exact sound_confirmCarrier ticked sender carrier threshold now timing
  | carrierMemoLookup nonce signatureTag requestExpiry sender now => exact ticked
  | claimCarrierDerivation nonce sender memoizedCarrier =>
    rcases claimCarrierDerivation_cases s.store nonce sender memoizedCarrier with same | ⟨tag, _, _, _, _, _, same⟩
    · simp only [lifeStep, same]
      exact ticked
    · simp only [lifeStep, same]
      exact sound_resolve ticked nonce sender tag
  | recordCarrierDerivationResult nonce sender signatureTag generation memoizedCarrier =>
    rcases recordCarrierDerivationResult_cases s.store nonce sender signatureTag generation memoizedCarrier with
      same | ⟨_, _, _, same⟩
    · simp only [lifeStep, same]
      exact ticked
    · simp only [lifeStep, same]
      exact sound_resolve ticked nonce sender signatureTag
  | outerStaleCarrier nonce signatureTag expiry sender now step =>
    simp only [lifeStep, Life.outerStale]
    cases s.log.outerStaleCarrierDeadline nonce expiry with
    | none => exact ticked
    | some deadline =>
      rcases outerStaleCarrier_cases ch s.store nonce signatureTag expiry deadline sender now step
        (s.mono + elapsed) with ⟨same, _⟩ | ⟨_, _, _, _, _, ⟨_, _, _, same⟩ | ⟨_, _, tag, same⟩⟩
      · simp only [same]
        exact ticked
      · simp only [same]
        exact sound_resolve ticked nonce sender _
      · simp only [same]
        exact sound_resolve ticked nonce sender tag

end Steps

/-- The node after a run of sections. -/
def lifeAfter (ch : ChannelState) (carrierId : CarrierBody → String) (config : StoreConfig)
    (actions : List LifeAction) : Life := exec (lifeStep ch carrierId) (Life.initial config) actions

theorem lifeAfter_sound (ch : ChannelState) {carrierId : CarrierBody → String}
    (separates : ∀ a b, carrierId a = carrierId b → a.nonce = b.nonce ∧ a.expiry = b.expiry)
    (config : StoreConfig) (actions : List LifeAction) : (lifeAfter ch carrierId config actions).Sound carrierId :=
  exec_invariant (lifeStep ch carrierId) (Life.Sound carrierId)
    (fun _ action sound => lifeStep_sound separates ch sound action) (Life.initial config) Lawful.initial actions

end BtcPolicy.Channel
