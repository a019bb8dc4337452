import BtcPolicy.Channel.Ladders
import BtcPolicy.Node.Registry

/-! What the holds of a request do: the operations they take on the registry and with which arguments, how often they
push the request to the outbox, and the nonces the log remembers through them. -/

namespace BtcPolicy.Node
open FiniteMap Word Bitcoin HotLedger Replay Channel Pin Policy Runs PartialStore NodeConfig

/-! ### The operations of each kind of section -/

/-- The operations a handler takes without the signing lock. -/
def unlocked : StoreOp → Bool
  | .releaseNonceClaim .. | .endCarrierRuling .. | .claimCarrierDerivation .. => true
  | .recordCarrierDerivationResult .. => true
  | _ => false

/-- The operations a handler takes apart from the registration of its request and the receipt it confirms. -/
def served : StoreOp → Bool
  | .claimNonceInFlight .. | .releaseNonceClaim .. | .recordArmIntent .. | .endCarrierRuling .. => true
  | .markCarrierPropagated .. | .outerStaleCarrier .. | .claimCarrierDerivation .. => true
  | .recordCarrierDerivationResult .. => true
  | _ => false

/-- Those of a registration. -/
def registered : StoreOp → Bool
  | .recordIntentPair .. | .registerCandidates .. | .applyCachedSchedule .. | .pruneStore .. => true
  | .reserveHotBudget .. | .releaseHotBudget .. => true
  | _ => false

def confirming : StoreOp → Bool
  | .confirmCarrier .. => true
  | _ => false

/-- The one operation that counts the node among the holders of a carrier. -/
def stages : StoreOp → Bool
  | .markCarrierPropagated _ => true
  | _ => false

/-- What is registered, or named to the carrier, is the one pair. Only a candidate that is neither hot nor an escape is
registered with its holder gate open. -/
def Enrolls (carrier spendId escapeId : String) : StoreOp → Prop
  | .registerCandidates requests arm _ _ => arm.carrier = carrier ∧ arm.spendCommitmentId = spendId ∧
      arm.sweepEscape = escapeId ∧ ∀ request ∈ requests, request.spec.holderQuorumReached = true →
        request.spec.hot = false ∧ request.spec.role = .spend
  | .recordIntentPair named spend escape => named = carrier ∧ spend = spendId ∧ escape = escapeId
  | _ => True

/-- How often a request may still be pushed to the outbox. -/
def Phase.owes : Phase → Nat
  | .unsent _ | .windowA _ | .windowB _ | .refreshWindow => 1
  | _ => 0

/-! ### What is taken -/

/-- `t` comes from `s` by operations that are `ok` and by pushing the request to the outbox, so many times at most;
what counts the node among the holders of a carrier is taken behind the push. -/
structure Takes (ch : ChannelState) (ok : StoreOp → Prop) (request : TaggedRequest) (most : Nat) (s t : NodeState) :
    Prop where
  store : Reaches (storeStep ch) (fun op => ok op ∧ (stages op = true → request ∈ t.outbox)) s.store t.store
  pushed : ∃ times ≤ most, t.outbox = s.outbox ++ List.replicate times request
  remembers : ∀ nonce expiry, Remembers nonce expiry s.sign.coordNonces → Remembers nonce expiry t.sign.coordNonces

namespace Takes

variable {ch : ChannelState} {ok : StoreOp → Prop} {request : TaggedRequest} {most more : Nat} {s t u : NodeState}

theorem of_same (store : t.store = s.store) (outbox : t.outbox = s.outbox)
    (nonces : t.sign.coordNonces = s.sign.coordNonces) : Takes ch ok request most s t where
  store := by
    rw [store]
    exact Reaches.refl _ _ _
  pushed := ⟨0, Nat.zero_le _, by simpa using outbox⟩
  remembers nonce expiry known := by rwa [nonces]

/-- One operation that does not count the node among the holders. -/
theorem taken (op : StoreOp) (allowed : ok op) (quiet : stages op = false)
    (store : t.store = (storeStep ch s.store op).1) (outbox : t.outbox = s.outbox)
    (nonces : t.sign.coordNonces = s.sign.coordNonces) : Takes ch ok request most s t where
  store := by
    rw [store]
    exact Reaches.single _ ⟨allowed, fun staging => absurd (quiet.symm.trans staging) (by decide)⟩ _
  pushed := ⟨0, Nat.zero_le _, by simpa using outbox⟩
  remembers nonce expiry known := by rwa [nonces]

theorem trans (first : Takes ch ok request most s t) (second : Takes ch ok request more t u) :
    Takes ch ok request (most + more) s u := by
  obtain ⟨times, bound, pushed⟩ := first.pushed
  obtain ⟨further, bound', pushed'⟩ := second.pushed
  obtain ⟨ops, each, reached⟩ := first.store
  have ahead : Reaches (storeStep ch) (fun op => ok op ∧ (stages op = true → request ∈ u.outbox)) s.store t.store := by
    refine ⟨ops, ?_, reached⟩
    intro op member
    refine ⟨(each op member).1, ?_⟩
    intro staging
    rw [pushed']
    exact List.mem_append_left _ ((each op member).2 staging)
  refine ⟨ahead.trans second.store, ⟨times + further, Nat.add_le_add bound bound', ?_⟩, ?_⟩
  · rw [pushed', pushed, List.append_assoc, List.replicate_append_replicate]
  · intro nonce expiry known
    exact second.remembers nonce expiry (first.remembers nonce expiry known)

/-- Steps that push nothing in front. -/
theorem after (quiet : Takes ch ok request 0 s t) (held : Takes ch ok request most t u) :
    Takes ch ok request most s u := by
  have both := quiet.trans held
  rwa [Nat.zero_add] at both

/-- Steps that push nothing behind it. -/
theorem before (held : Takes ch ok request most s t) (quiet : Takes ch ok request 0 t u) :
    Takes ch ok request most s u :=
  held.trans quiet

theorem relax (takes : Takes ch ok request most s t) (le : most ≤ more) : Takes ch ok request more s t := by
  obtain ⟨times, bound, pushed⟩ := takes.pushed
  exact ⟨takes.store, ⟨times, bound.trans le, pushed⟩, takes.remembers⟩

/-- Read off a call whose answer has been split. -/
theorem of_call {ρ : Type} {call : NodeState × ρ} {answer : ρ} (same : call = (t, answer))
    (moved : Takes ch ok request most s call.1) : Takes ch ok request most s t := by
  rw [same] at moved
  exact moved

/-- An invariant of the store that every operation of the kind keeps. -/
theorem invariant (takes : Takes ch ok request most s t) (inv : PartialStore → Prop)
    (keep : ∀ store op, ok op → (stages op = true → request ∈ t.outbox) → inv store → inv (storeStep ch store op).1)
    (start : inv s.store) : inv t.store :=
  takes.store.invariant inv (fun store op meets held => keep store op meets.1 meets.2 held) start

/-- Nothing leaves the outbox. -/
theorem kept (takes : Takes ch ok request most s t) {r : TaggedRequest} (member : r ∈ s.outbox) : r ∈ t.outbox := by
  obtain ⟨times, _, pushed⟩ := takes.pushed
  rw [pushed]
  exact List.mem_append_left _ member

end Takes

/-! ### The check of the coordinator's signature and nonce -/

section Auth

variable {node : NodeConfig} {request : CoordRequest} {coordSig : String} {now : Nat} {nonces nonces' : NonceLog}
  {monoNow : Option Nat}

theorem remembers_verifyCoordAuth {nonce : String} {expiry : Nat} (known : Remembers nonce expiry nonces) :
    Remembers nonce expiry (node.verifyCoordAuth request coordSig now nonces monoNow).1 := by
  unfold verifyCoordAuth
  split
  · exact known
  · simp only
    split
    · exact remembers_step nonces _ known
    · exact remembers_step nonces _ known

/-- A request that passes is signed, was not known before, and is from then on. -/
theorem verifyCoordAuth_passes {fresh : Nat × Option Nat}
    (passed : node.verifyCoordAuth request coordSig now nonces monoNow = (nonces', .ok fresh)) :
    node.verifyCoordSignature request coordSig = .ok () ∧ ¬Remembers request.nonce request.expiry nonces ∧
      Remembers request.nonce request.expiry nonces' := by
  unfold verifyCoordAuth at passed
  split at passed
  · cases passed
  next signed =>
    simp only at passed
    split at passed
    · cases passed
    next unrefused =>
      cases passed
      have accepted : (nonces.checkAndRecord ⟨request.nonce, request.expiry, now, node.maxCommitmentAgeSecs, monoNow,
          request.isSpend && monoNow.isSome⟩).2 = .accepted := by
        cases decision : (nonces.checkAndRecord ⟨request.nonce, request.expiry, now, node.maxCommitmentAgeSecs,
            monoNow, request.isSpend && monoNow.isSome⟩).2 with
        | accepted => rfl
        | _ => simp [decision, nonceRefusal] at unrefused
      exact ⟨signed, fun known => remembers_refuses known accepted, remembers_accepted accepted⟩

end Auth

section Sections

variable {node : NodeConfig} {ch : ChannelState} (mounted : node.channel = some ch) {ok : StoreOp → Prop} {most : Nat}
  {tagged : TaggedRequest} (s : NodeState)

/-! ### The sections that take no lock but the store's -/

theorem takes_dropClaim (release : ∀ nonce generation, ok (.releaseNonceClaim nonce generation))
    (ends : ∀ carrier mono, ok (.endCarrierRuling carrier mono)) (claim : Option MemoGuard) (mono : Nat) :
    Takes ch ok tagged 0 s (dropClaim claim mono s) := by
  unfold dropClaim
  cases claim with
  | none => exact .of_same rfl rfl rfl
  | some guard =>
    simp only
    have released : Takes ch ok tagged 0 s { s with store :=
        if guard.ownsMemo then s.store.releaseNonceClaim guard.nonce guard.generation else s.store } := by
      split_ifs
      · exact .taken (.releaseNonceClaim guard.nonce guard.generation) (release _ _) rfl rfl rfl rfl
      · exact .of_same rfl rfl rfl
    cases guard.rulingCarrier with
    | none => exact released
    | some carrier => exact released.before (.taken (.endCarrierRuling carrier mono) (ends _ _) rfl rfl rfl rfl)

theorem takes_claimDerivationSection (request : SignRequest) (sender : Nat) (result : SignResult) (carrier : String)
    (generation : MemoGeneration) (reserved : Bool)
    (claims : ∀ nonce sender carrier, ok (.claimCarrierDerivation nonce sender carrier)) :
    Takes ch ok tagged most s (claimDerivationSection request sender result carrier generation reserved s).1 := by
  unfold claimDerivationSection
  cases reserved with
  | true => exact .taken (.claimCarrierDerivation _ _ _) (claims _ _ _) rfl rfl rfl rfl
  | false => exact .of_same rfl rfl rfl

theorem takes_recordDerivationSection (request : SignRequest) (sender : Nat) (result : SignResult) (carrier : String)
    (generation : MemoGeneration) (records : node.armCarrierId request.coordRequest = carrier →
      ok (.recordCarrierDerivationResult request.nonce sender (armSignatureTag node.lib request.coordSig) generation
        carrier)) :
    Takes ch ok tagged most s (node.recordDerivationSection request sender result carrier generation s).1 := by
  unfold recordDerivationSection
  split_ifs with same
  · exact .taken (.recordCarrierDerivationResult _ _ _ _ _) (records same) rfl rfl rfl rfl
  · exact .of_same rfl rfl rfl

/-! ### The sections that register nothing -/

theorem takes_fireArmHook (verdict : PinVerdict) (carrier : String) (flight : Flight) (now : Nat)
    (arms : ∀ generation, flight.generation = some generation → ok (.recordArmIntent (decide (verdict = .duress)) carrier
      flight.request.nonce generation flight.now now node.duressTiming)) :
    Takes ch ok tagged most s (node.fireArmHook verdict carrier flight now s).1 := by
  unfold fireArmHook
  cases claimed : flight.generation with
  | none => exact .of_same rfl rfl rfl
  | some generation => exact .taken (.recordArmIntent _ _ _ _ _ _ _) (arms generation claimed) rfl rfl rfl rfl

theorem takes_outerStaleClassify (request : SignRequest) (sender now mono : Nat) (step : OuterStaleStep)
    (classifies : ∀ deadline, ok (.outerStaleCarrier request.nonce (armSignatureTag node.lib request.coordSig)
      request.expiry deadline sender now step mono)) :
    Takes ch ok tagged 0 s (node.outerStaleClassify ch request sender now mono step s).1 := by
  unfold outerStaleClassify
  split_ifs
  · exact .of_same rfl rfl rfl
  · split
    · exact .of_same rfl rfl rfl
    · exact .taken (.outerStaleCarrier _ _ _ _ _ _ _ _) (classifies _) rfl rfl rfl rfl

theorem takes_staleInspectSection (request : TaggedRequest) (sender : Nat) (reserved : Bool)
    (now mono nowAgain monoAgain : Nat) (classifies : ∀ spend, request = .spend spend →
      node.receiptGuarded spend = true → ∀ claim deadline now mono, ok (.outerStaleCarrier spend.nonce
        (armSignatureTag node.lib spend.coordSig) spend.expiry deadline sender now (.inspect claim) mono)) :
    Takes ch ok tagged 0 s (node.staleInspectSection ch request sender reserved now mono nowAgain monoAgain s).1 := by
  cases request with
  | refresh request => exact .of_same rfl rfl rfl
  | spend request =>
    unfold staleInspectSection
    simp only
    by_cases guarded : node.receiptGuarded request = true
    · have first : Takes ch ok tagged 0 s (node.outerStaleClassify ch request sender now mono (.inspect false) s).1 :=
        takes_outerStaleClassify s request sender now mono (.inspect false)
          (fun deadline => classifies request rfl guarded false deadline now mono)
      rw [if_pos guarded]
      split
      · cases reserved with
        | true =>
          exact first.before (takes_outerStaleClassify _ request sender nowAgain monoAgain (.inspect true)
            (fun deadline => classifies request rfl guarded true deadline nowAgain monoAgain))
        | false => exact first
      · exact first
    · rw [if_neg guarded]
      exact .of_same rfl rfl rfl

theorem takes_spendIngress (request : SignRequest) (wall mono : Nat)
    (claims : ∀ generation, ok (.claimNonceInFlight request.nonce generation mono)) :
    Takes ch ok tagged most s (node.ingressHold request wall mono s).1 := by
  have remembers : ∀ nonce expiry, Remembers nonce expiry s.sign.coordNonces → Remembers nonce expiry
      (node.verifyCoordAuth request.coordRequest request.coordSig wall s.sign.coordNonces
        (node.channel.map (fun _ => mono))).1 := fun _ _ known => remembers_verifyCoordAuth known
  have logged : ∀ {t : NodeState}, t.store = s.store → t.outbox = s.outbox → (∀ nonce expiry,
      Remembers nonce expiry s.sign.coordNonces → Remembers nonce expiry t.sign.coordNonces) →
      Takes ch ok tagged 0 s t := by
    intro t store outbox known
    exact ⟨by rw [store]; exact Reaches.refl _ _ _, ⟨0, le_rfl, by simpa using outbox⟩, known⟩
  apply Takes.relax _ (Nat.zero_le most)
  unfold ingressHold
  split_ifs
  · exact .of_same rfl rfl rfl
  · simp only
    generalize node.verifyCoordAuth request.coordRequest request.coordSig wall s.sign.coordNonces
      (node.channel.map (fun _ => mono)) = checked at remembers ⊢
    obtain ⟨nonces, verdict⟩ := checked
    cases verdict with
    | error refused => exact logged rfl rfl remembers
    | ok fresh =>
      simp only
      split
      · exact logged rfl rfl remembers
      · split
        · exact logged rfl rfl remembers
        · have recorded : Takes ch ok tagged 0 s { s with sign := { s.sign with coordNonces := nonces } } :=
            logged rfl rfl remembers
          apply recorded.after
          cases node.channel with
          | none => exact .of_same rfl rfl rfl
          | some ch' => exact .taken (.claimNonceInFlight _ _ _) (claims _) rfl rfl rfl rfl

theorem takes_refreshIngress (request : RefreshRequest) (wall mono : Nat) :
    Takes ch ok tagged most s (node.refreshIngressHold request wall mono s).1 := by
  have remembers : ∀ nonce expiry, Remembers nonce expiry s.sign.coordNonces → Remembers nonce expiry
      (node.verifyCoordAuth request.coordRequest request.coordSig wall s.sign.coordNonces
        (node.channel.map (fun _ => mono))).1 := fun _ _ known => remembers_verifyCoordAuth known
  unfold refreshIngressHold
  split_ifs
  · exact .of_same rfl rfl rfl
  · simp only
    generalize node.verifyCoordAuth request.coordRequest request.coordSig wall s.sign.coordNonces
      (node.channel.map (fun _ => mono)) = checked at remembers ⊢
    obtain ⟨nonces, verdict⟩ := checked
    cases verdict with
    | error refused => exact ⟨Reaches.refl _ _ _, ⟨0, Nat.zero_le _, by simp⟩, remembers⟩
    | ok fresh =>
      simp only
      split
      · exact ⟨Reaches.refl _ _ _, ⟨0, Nat.zero_le _, by simp⟩, remembers⟩
      · exact ⟨Reaches.refl _ _ _, ⟨0, Nat.zero_le _, by simp⟩, remembers⟩

include mounted

/-- The push, and the mark behind it. -/
theorem takes_stageSpendCarrier (carrier : String) (stage : ok (.markCarrierPropagated carrier)) :
    Takes ch ok tagged 1 s (node.stageSpendCarrier tagged carrier s) where
  store := by
    refine ⟨[.markCarrierPropagated carrier], ?_, by simp [stageSpendCarrier, onStore, mounted, storeStep]⟩
    intro op member
    rw [List.mem_singleton.mp member]
    exact ⟨stage, fun _ => by simp [stageSpendCarrier, onStore, mounted]⟩
  pushed := ⟨1, le_rfl, by simp [stageSpendCarrier, onStore, mounted]⟩
  remembers nonce expiry known := by simpa [stageSpendCarrier, onStore, mounted] using known

/-- A commit hold that hands on to the registration has pushed nothing. -/
theorem takes_commitSection (flight : Flight) (wall : Nat)
    (arms : ∀ generation now, flight.generation = some generation → ok (.recordArmIntent
      (decide (pinVerdict (node.rules.verifyPin flight.request.pin) flight.request = .duress))
      (node.carrierOf flight.request) flight.request.nonce generation flight.now now node.duressTiming))
    (stage : ok (.markCarrierPropagated (node.carrierOf flight.request))) :
    Takes ch ok (.spend flight.request) (1 - (node.commitSection flight wall s).2.owes) s
      (node.commitSection flight wall s).1 := by
  unfold commitSection
  simp only
  generalize pinVerdict (node.rules.verifyPin flight.request.pin) flight.request = verdict at arms ⊢
  unfold commitHold
  by_cases locked : s.lockdown = true
  · rw [if_pos locked]
    exact .of_same rfl rfl rfl
  rw [if_neg locked]
  have hooked : Takes ch ok (.spend flight.request) 0 s (node.fireArmHook verdict (node.carrierOf flight.request) flight
      (s.sign.coordNonces.effectiveNow wall) s).1 :=
    takes_fireArmHook s verdict _ flight _ (fun generation claimed => arms generation _ claimed)
  simp only
  cases node.clockRefusal "post-pin" flight.request.expiry wall (s.sign.coordNonces.effectiveNow wall) with
  | some refused => exact hooked.after (takes_stageSpendCarrier mounted _ _ stage)
  | none =>
    generalize node.fireArmHook verdict _ flight (s.sign.coordNonces.effectiveNow wall) s = hook at hooked ⊢
    generalize hook.1.sign.pinBudget.charge verdict _ node.pinBudgetConfig = charged
    have spent : Takes ch ok (.spend flight.request) 0 s
        { hook.1 with sign := { hook.1.sign with pinBudget := charged.1 } } := hooked.before (.of_same rfl rfl rfl)
    simp only
    by_cases refuse : charged.2.refuse = true
    · rw [if_pos refuse]
      exact spent.after (takes_stageSpendCarrier mounted _ _ stage)
    · rw [if_neg refuse]
      exact spent

/-! ### The registration -/

section Registering

variable {carrier spendId escapeId : String}
  (registering : ∀ op, registered op = true → Enrolls carrier spendId escapeId op → ok op)

include registering

theorem takes_unwindHotReservation (created : Bool) (commitmentId : String) :
    Takes ch ok tagged 0 s (node.unwindHotReservation created commitmentId s) := by
  cases created with
  | false => exact .of_same rfl rfl rfl
  | true =>
    unfold unwindHotReservation onStore
    rw [mounted]
    exact .taken (.releaseHotBudget commitmentId) (registering _ rfl trivial) rfl rfl rfl rfl

theorem takes_pruneLogs (now pruneMono : Nat) : Takes ch ok tagged 0 s (node.pruneLogs now pruneMono s) := by
  unfold pruneLogs onStore
  rw [mounted]
  exact .taken (.pruneStore now pruneMono) (registering _ rfl trivial) rfl rfl rfl rfl

/-- A pair that waits for no confirmation is a refresh. -/
theorem takes_registerPair (pair : RegisterPair) (monoNow : Nat)
    (named : pair.carrier = carrier ∧ pair.spendCommitmentId = spendId ∧ pair.escapeCommitmentId = escapeId)
    (refreshes : pair.confirmationRequired = false → pair.spendHot = false ∧
      pair.escapeCommitmentId = pair.spendCommitmentId) :
    Takes ch ok tagged 0 s (node.registerPair pair monoNow s).1 := by
  unfold registerPair
  simp only [mounted]
  cases built : buildCandidates ch.lib node.keys pair.specs with
  | error refused => exact .of_same rfl rfl rfl
  | ok candidates =>
    have enrolls : Enrolls carrier spendId escapeId (.registerCandidates
        (pair.specs.map (fun spec => ⟨spec, node.keys⟩)) (node.armDirective pair) pair.hotReserve monoNow) := by
      refine ⟨named.1, named.2.1, named.2.2, ?_⟩
      intro request member born
      obtain ⟨spec, listed, rfl⟩ := List.mem_map.mp member
      unfold RegisterPair.specs at listed
      simp only at listed
      split_ifs at listed with distinct
      · have waits : pair.confirmationRequired = true := by
          by_contra never
          exact distinct (refreshes (by simpa using never)).2
        rcases List.mem_pair.mp listed with rfl | rfl
        · simp [waits] at born
        · simp [waits] at born
      · obtain rfl := List.mem_singleton.mp listed
        exact ⟨(refreshes (by simpa using born)).1, rfl⟩
    have registers : Takes ch ok tagged 0 s { s with
        store := (registerCandidates ch s.store candidates (node.armDirective pair) pair.hotReserve monoNow).1 } := by
      refine .taken (.registerCandidates (pair.specs.map (fun spec => ⟨spec, node.keys⟩))
        (node.armDirective pair) pair.hotReserve monoNow) (registering _ rfl enrolls) rfl ?_ rfl rfl
      simp only [storeStep, buildAll_of_buildCandidates built]
    simp only
    split
    · exact registers
    · exact registers

end Registering

section Spends

variable {carrier : String} (stage : ok (.markCarrierPropagated carrier)) (flight : Flight) (verdict : PinVerdict)
  (pair : SpendPair)
  (registering : ∀ op, registered op = true → Enrolls carrier pair.commitmentId pair.escapeCommitmentId op → ok op)

include stage registering

theorem takes_admitPair (txClass : TxClass) (outflow fireAt now : Nat) (created : Bool)
    (clock : RegistrationClock) : Takes ch ok (.spend flight.request) 1 s
      (node.admitPair flight verdict carrier pair txClass outflow fireAt now created clock s).1 := by
  have staged : Takes ch ok (.spend flight.request) 1 s (node.stageSpendCarrier (.spend flight.request) carrier s) :=
    takes_stageSpendCarrier mounted s carrier stage
  unfold admitPair
  simp only
  split
  next t refused same =>
    have registers : Takes ch ok (.spend flight.request) 0 _ t :=
      .of_call same (takes_registerPair mounted _ registering _ _ ⟨rfl, rfl, rfl⟩ (by intro waits; cases waits))
    exact (staged.before registers).before (takes_unwindHotReservation mounted t registering created pair.commitmentId)
  next t _ same =>
    have registers : Takes ch ok (.spend flight.request) 0 _ t :=
      .of_call same (takes_registerPair mounted _ registering _ _ ⟨rfl, rfl, rfl⟩ (by intro waits; cases waits))
    exact (staged.before registers).before (.of_same rfl rfl rfl)

theorem takes_admitReserved (classified : Classification) (now : Nat)
    (escapePrevouts : Option PrevoutFetch) (created : Bool) (clock : RegistrationClock) :
    Takes ch ok (.spend flight.request) 1 s
      (node.admitReserved flight verdict carrier pair classified now escapePrevouts created clock s).1 := by
  unfold admitReserved
  split
  next refused valid =>
    have unwound : Takes ch ok (.spend flight.request) 0 s (node.unwindHotReservation created pair.commitmentId s) :=
      takes_unwindHotReservation mounted s registering created pair.commitmentId
    simp only
    split_ifs
    · exact unwound.after (takes_stageSpendCarrier mounted _ carrier stage)
    · exact unwound.relax (Nat.zero_le 1)
  next signed fireAt valid =>
    obtain ⟨spend, escape, _⟩ := validatePair_names node valid
    rw [← spend, ← escape] at registering
    exact takes_admitPair mounted s stage flight verdict signed registering _ _ _ _ _ _

theorem takes_meterSpend (classified : Classification) (now : Nat)
    (escapePrevouts : Option PrevoutFetch) (clock : RegistrationClock) : Takes ch ok (.spend flight.request) 1 s
      (node.meterSpend flight verdict carrier pair classified now escapePrevouts clock s).1 := by
  have reserves : Takes ch ok (.spend flight.request) 0 s { s with store := { s.store with
      hotBudget := (s.store.hotBudget.reserve pair.commitmentId classified.hotOutflow clock.reserve clock.wall
        flight.request.expiry).1 } } :=
    .taken (.reserveHotBudget pair.commitmentId classified.hotOutflow clock.wall flight.request.expiry clock.reserve)
      (registering _ rfl trivial) rfl rfl rfl rfl
  unfold meterSpend
  simp only [mounted, Option.isSome_some, and_true]
  by_cases hot : classified.txClass = .hot
  · simp only [hot, if_true]
    split
    · exact reserves.after (takes_stageSpendCarrier mounted _ carrier stage)
    · exact reserves.after (takes_admitReserved mounted _ stage flight verdict pair registering _ _ _ _ _)
  · simp only [hot, if_false]
    exact takes_admitReserved mounted s stage flight verdict pair registering _ _ _ _ _

theorem takes_judgeSpend (now : Nat) (spendPrevouts escapePrevouts : Option PrevoutFetch)
    (clock : RegistrationClock) : Takes ch ok (.spend flight.request) 1 s
      (node.judgeSpend flight verdict carrier pair now spendPrevouts escapePrevouts clock s).1 := by
  unfold judgeSpend
  simp only
  split
  · split_ifs
    · exact (takes_stageSpendCarrier mounted s carrier stage).before (.of_same rfl rfl rfl)
    · exact .of_same rfl rfl rfl
  · split
    · exact .of_same rfl rfl rfl
    next classified _ =>
      split_ifs
      · exact .of_same rfl rfl rfl
      · exact takes_meterSpend mounted s stage flight verdict pair registering _ _ _ _

theorem takes_replayAccepted (now : Nat) : Takes ch ok (.spend flight.request) 1 s
    (node.replayAccepted flight verdict carrier pair now s) := by
  unfold replayAccepted
  apply Takes.after _ (takes_stageSpendCarrier mounted _ carrier stage)
  unfold onStore
  rw [mounted]
  have scheduled : Takes ch ok (.spend flight.request) 0 s { s with
      store := s.store.applyCachedSchedule pair.escapeCommitmentId (decide (verdict = .duress)) now node.epsilonSecs } :=
    .taken (.applyCachedSchedule pair.escapeCommitmentId (decide (verdict = .duress)) now node.epsilonSecs)
      (registering _ rfl trivial) rfl rfl rfl rfl
  exact scheduled.before (.taken (.recordIntentPair carrier pair.commitmentId pair.escapeCommitmentId)
    (registering _ rfl ⟨rfl, rfl, rfl⟩) rfl rfl rfl rfl)

theorem takes_answerPair (now : Nat) (spendPrevouts escapePrevouts : Option PrevoutFetch)
    (clock : RegistrationClock) : Takes ch ok (.spend flight.request) 1 s
      (node.answerPair flight verdict carrier pair now spendPrevouts escapePrevouts clock s).1 := by
  have pruned : Takes ch ok (.spend flight.request) 0 s
      { s with sign := { s.sign with replay := ReplayLog.prune s.sign.replay now } } := .of_same rfl rfl rfl
  unfold answerPair
  simp only
  split
  · exact pruned.after (takes_replayAccepted mounted _ stage flight verdict pair registering _)
  · split
    · exact pruned.relax (Nat.zero_le 1)
    · split
      · exact pruned.after (takes_stageSpendCarrier mounted _ carrier stage)
      · exact (pruned.before (takes_pruneLogs mounted _ registering _ _)).after
          (takes_judgeSpend mounted _ stage flight verdict pair registering _ _ _ _)

omit registering in
theorem takes_registrationHold (spendPrevouts escapePrevouts : Option PrevoutFetch) (clock : RegistrationClock)
    (pairing : ∀ pair, node.decodePair flight.request = .ok pair → ∀ op, registered op = true →
      Enrolls carrier pair.commitmentId pair.escapeCommitmentId op → ok op) : Takes ch ok (.spend flight.request) 1 s
      (node.registrationHold flight verdict carrier spendPrevouts escapePrevouts clock s).1 := by
  unfold registrationHold
  split_ifs
  · exact .of_same rfl rfl rfl
  · simp only
    split
    · exact takes_stageSpendCarrier mounted s carrier stage
    · split
      · exact .of_same rfl rfl rfl
      next pair decoded => exact takes_answerPair mounted s stage flight verdict pair (pairing pair decoded) _ _ _ _

end Spends

/-! ### The registration of a refresh -/

section Refreshes

variable (request : RefreshRequest) (candidate : RefreshCandidate)
  (registering : ∀ op, registered op = true → Enrolls (node.armCarrierId request.coordRequest) candidate.commitmentId
    candidate.commitmentId op → ok op)

include registering

theorem takes_admitRefresh (now registerMono : Nat) :
    Takes ch ok (.refresh request) 1 s (node.admitRefresh request candidate now registerMono s).1 := by
  have recorded : ∀ (u : NodeState) refresh response, Takes ch ok (.refresh request) 1 u
      (node.recordRefresh request candidate refresh now response u) := by
    intro u refresh response
    exact ⟨Reaches.refl _ _ _, ⟨1, le_rfl, by simp [recordRefresh]⟩, fun _ _ known => known⟩
  unfold admitRefresh
  split
  · exact .of_same rfl rfl rfl
  · simp only
    split
    next t refused same =>
      have registers : Takes ch ok (.refresh request) 0 s t :=
        .of_call same (takes_registerPair mounted _ registering _ _ ⟨rfl, rfl, rfl⟩ (fun _ => ⟨rfl, rfl⟩))
      exact registers.relax (Nat.zero_le 1)
    next t _ same =>
      have registers : Takes ch ok (.refresh request) 0 s t :=
        .of_call same (takes_registerPair mounted _ registering _ _ ⟨rfl, rfl, rfl⟩ (fun _ => ⟨rfl, rfl⟩))
      exact registers.after (recorded _ _ _)

theorem takes_judgeRefresh (now : Nat) (prevouts : Option PrevoutFetch) (registerMono : Nat) : Takes ch ok (.refresh request) 1 s
      (node.judgeRefresh request candidate now prevouts registerMono s).1 := by
  unfold judgeRefresh
  split
  · exact .of_same rfl rfl rfl
  · split
    · exact .of_same rfl rfl rfl
    · split_ifs
      · unfold boundRefresh
        split_ifs
        · exact .of_same rfl rfl rfl
        · split
          · exact .of_same rfl rfl rfl
          · split
            · exact .of_same rfl rfl rfl
            · exact takes_admitRefresh mounted s request candidate registering now registerMono
      · exact .of_same rfl rfl rfl

omit registering in
theorem takes_refreshRegisterSection (reply : Option ChainReply) (clock : RegistrationClock)
    (pairing : ∀ refresh, node.decodePsbt request.refreshPsbt "refresh" = .ok refresh → ∀ op, registered op = true →
      Enrolls (node.armCarrierId request.coordRequest) (node.rules.commitmentId refresh request.expiry)
        (node.rules.commitmentId refresh request.expiry) op → ok op) :
    Takes ch ok (.refresh request) 1 s (node.refreshRegisterSection request reply clock s).1 := by
  unfold refreshRegisterSection refreshRegistrationHold
  simp only
  split_ifs
  · exact .of_same rfl rfl rfl
  · exact .of_same rfl rfl rfl
  · split
    · exact .of_same rfl rfl rfl
    next refresh decoded =>
      have pruned : Takes ch ok (.refresh request) 0 s { s with sign := { s.sign with
          replay := ReplayLog.prune s.sign.replay (s.sign.coordNonces.effectiveNow clock.wall) } } :=
        .of_same rfl rfl rfl
      unfold answerRefresh
      simp only
      split
      · exact .of_same rfl rfl rfl
      · split
        · exact .of_same rfl rfl rfl
        · exact (pruned.before (takes_pruneLogs mounted _ (pairing refresh decoded) _ _)).after
            (takes_judgeRefresh mounted _ request _ (pairing refresh decoded) _ _ _)

end Refreshes

end Sections

end BtcPolicy.Node
