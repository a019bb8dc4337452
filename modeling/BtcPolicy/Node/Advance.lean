import BtcPolicy.Node.Operations

/-! The sections of a thread as a whole, and the steps of the machine: what each of them takes, what a thread carries
from one section to the next, and what goes on while another task holds the signing lock. -/

namespace BtcPolicy.Node
open FiniteMap Word Bitcoin HotLedger Replay Channel Pin Policy Runs PartialStore NodeConfig

/-- The sections that take the signing lock. -/
def locks : Section → Bool
  | .push | .dropClaim _ | .dropSlot | .receiptGuard | .receiptLookup _ _ | .claimDerivation _ => false
  | .recordDerivation => false
  | _ => true

def registers : Section → Bool
  | .register .. | .refreshRegister .. => true
  | _ => false

def confirms : Section → Bool
  | .confirm .. => true
  | _ => false

/-- The operations a section may take. -/
def inScope (step : Section) (op : StoreOp) : Bool :=
  if confirms step then confirming op
  else if registers step then served op || registered op
  else if locks step then served op
  else unlocked op

def TaggedRequest.coordRequest : TaggedRequest → CoordRequest
  | .spend request => request.coordRequest
  | .refresh request => request.coordRequest

def TaggedRequest.coordSig : TaggedRequest → String
  | .spend request => request.coordSig
  | .refresh request => request.coordSig

/-! ### Threads -/

/-- The coordinator's signature on the request verifies. -/
def CoordSigned (node : NodeConfig) (request : TaggedRequest) : Prop :=
  node.verifyCoordSignature request.coordRequest request.coordSig = .ok ()

/-- The generation is one of this request's. -/
def OwnGeneration (node : NodeConfig) (request : SignRequest) (generation : MemoGeneration) : Prop :=
  generation.signatureTag = armSignatureTag node.lib request.coordSig ∧ generation.expiry = request.expiry

/-- Behind a check of the coordinator's signature, as far as something rests on it. -/
def Phase.checked : Phase → Bool
  | .unsent _ | .windowA _ | .windowB _ | .refreshWindow | .receipt _ _ | .staleDeriving _ _ => true
  | _ => false

def Phase.flight : Phase → Option Flight
  | .windowA flight | .windowB flight => some flight
  | _ => none

/-- The generation whose carrier a relayed spend derives. -/
def Phase.derives : Phase → Option MemoGeneration
  | .receipt _ (.deriving _ generation) | .receipt _ (.derived _ generation) => some generation
  | _ => none

/-- What a thread carries from one section to the next is about its own request. -/
structure Formed (node : NodeConfig) (held : Thread) : Prop where
  signed : held.phase.checked = true → CoordSigned node held.request
  flight : ∀ flight, held.phase.flight = some flight → held.request = .spend flight.request ∧
    ∀ generation, flight.generation = some generation → OwnGeneration node flight.request generation
  derives : ∀ generation, held.phase.derives = some generation →
    generation.expiry = held.request.coordRequest.expiry

/-- The names of the pair a request asks for; a refresh is a pair of its own. -/
def NamesPair (node : NodeConfig) (request : TaggedRequest) (spendId escapeId : String) : Prop :=
  match request with
  | .spend request => ∃ pair, node.decodePair request = .ok pair ∧ pair.commitmentId = spendId ∧
      pair.escapeCommitmentId = escapeId
  | .refresh request => ∃ refresh, node.decodePsbt request.refreshPsbt "refresh" = .ok refresh ∧
      node.rules.commitmentId refresh request.expiry = spendId ∧ spendId = escapeId

/-- The coordinator signed the request, and the carrier is this node's name for it. -/
structure Bears (node : NodeConfig) (carrier : String) (request : TaggedRequest) : Prop where
  signed : CoordSigned node request
  named : node.armCarrierId request.coordRequest = carrier

/-- A thread in flight past the check of the signature bears its own carrier. -/
theorem Formed.bears {node : NodeConfig} {ch : ChannelState} {held : Thread} {flight : Flight}
    (formed : Formed node held) (mounted : node.channel = some ch) (flown : held.phase.flight = some flight)
    (checked : held.phase.checked = true) :
    Bears node (node.carrierOf flight.request) held.request := by
  refine ⟨formed.signed checked, ?_⟩
  rw [(formed.flight flight flown).1]
  simp [NodeConfig.carrierOf, mounted, TaggedRequest.coordRequest]

/-- Among the requests that were brought is a spend of this carrier, signed by the coordinator, under this nonce and
expiry, whose signature has this tag. -/
def Original (node : NodeConfig) (brought : TaggedRequest → Prop) (carrier nonce : String) (expiry : Nat) (tag : Bytes) :
    Prop :=
  ∃ request : SignRequest, brought (.spend request) ∧ Bears node carrier (.spend request) ∧ request.nonce = nonce ∧
    request.expiry = expiry ∧ armSignatureTag node.lib request.coordSig = tag

/-- Among them is a spend of this carrier that came with the duress pin. -/
def UnderDuress (node : NodeConfig) (brought : TaggedRequest → Prop) (carrier : String) : Prop :=
  ∃ request : SignRequest, brought (.spend request) ∧ Bears node carrier (.spend request) ∧
    pinVerdict (node.rules.verifyPin request.pin) request = .duress

/-- The arguments a thread gives the operations it takes. -/
def Serves (node : NodeConfig) (held : Thread) : StoreOp → Prop
  | .recordArmIntent duress carrier nonce generation _ _ _ =>
    Original node (· = held.request) carrier nonce generation.expiry generation.signatureTag ∧
      (duress = true → UnderDuress node (· = held.request) carrier)
  | .markCarrierPropagated carrier => ∃ request, held.request = .spend request ∧ Bears node carrier held.request
  | .recordIntentPair carrier spendId escapeId => Bears node carrier held.request ∧ NamesPair node held.request spendId escapeId
  | .registerCandidates requests arm _ _ => Bears node arm.carrier held.request ∧
      NamesPair node held.request arm.spendCommitmentId arm.sweepEscape ∧ ∀ request ∈ requests,
        request.spec.holderQuorumReached = true → request.spec.hot = false ∧ request.spec.role = .spend
  | .recordCarrierDerivationResult nonce _ tag generation carrier =>
    Original node (· = held.request) carrier nonce generation.expiry tag
  | .outerStaleCarrier nonce tag expiry _ _ _ step _ => ∀ carrier generation,
      step = .finish carrier generation true → Original node (· = held.request) carrier nonce expiry tag
  | .confirmCarrier sender carrier threshold _ _ _ => held.origin = .relayed sender ∧
      (∃ result, held.phase = .receipt result (.resolved carrier)) ∧ threshold = node.threshold
  | _ => True

/-! ### Sections as a whole -/

/-- What an operation of the section is: given by the thread's own request, and one the section may take. -/
def Within (node : NodeConfig) (held : Thread) (step : Section) (op : StoreOp) : Prop :=
  (Formed node held → Serves node held op) ∧ inScope step op = true

/-- The section that checks the coordinator's signature and nonce. -/
def begins : Section → Bool
  | .ingress .. => true
  | _ => false

/-- The request has passed that check just now. -/
structure Admitted (node : NodeConfig) (request : TaggedRequest) (s t : NodeState) : Prop where
  signed : CoordSigned node request
  fresh : ¬Remembers request.coordRequest.nonce request.coordRequest.expiry s.sign.coordNonces
  known : Remembers request.coordRequest.nonce request.coordRequest.expiry t.sign.coordNonces

/-- One section of a thread. What it pushes it owed, and what it owes is its own request behind the check. -/
structure Advances (node : NodeConfig) (ch : ChannelState) (held : Thread) (step : Section) (s t : NodeState)
    (phase : Phase) : Prop where
  takes : ∃ request most, Takes ch (Within node held step) request most s t ∧
    (Formed node held → request = held.request) ∧
    most + (if begins step then 0 else phase.owes) ≤ held.phase.owes
  first : begins step = true → held.phase.owes = 0
  admits : begins step = true → 0 < phase.owes → Admitted node held.request s t

theorem Phase.owes_le_one (phase : Phase) : phase.owes ≤ 1 := by
  cases phase with
  | _ => first | exact Nat.zero_le 1 | exact le_rfl

section Advance

variable {node : NodeConfig} {ch : ChannelState} {s t : NodeState} {held : Thread} {step : Section} {phase : Phase}

/-- A section that owes nothing afterwards. -/
theorem Advances.settled {request : TaggedRequest} {most : Nat} (takes : Takes ch (Within node held step) request most s t)
    (own : Formed node held → request = held.request) (later : begins step = false) (most_le : most ≤ held.phase.owes)
    (owes : phase.owes = 0) : Advances node ch held step s t phase where
  takes := ⟨request, most, takes, own, by rw [later, owes]; simpa using most_le⟩
  first begin := by
    rw [later] at begin
    cases begin
  admits begin := by
    rw [later] at begin
    cases begin

/-- A section that pushes nothing. -/
theorem Advances.quiet (takes : Takes ch (Within node held step) held.request 0 s t) (later : begins step = false)
    (owes : phase.owes = 0) : Advances node ch held step s t phase :=
  .settled takes (fun _ => rfl) later (Nat.zero_le _) owes

theorem coordSigned_of_receiptGuarded {request : SignRequest} (guarded : node.receiptGuarded request = true) :
    CoordSigned node (.spend request) := by
  unfold receiptGuarded at guarded
  simp only [Bool.and_eq_true] at guarded
  unfold CoordSigned
  cases verified : node.verifyCoordSignature request.coordRequest request.coordSig with
  | error refused => simp [verified, Except.isOk, Except.toBool] at guarded
  | ok _ => exact verified

/-- A request that owes something after the first hold has passed the check there. -/
theorem ingressSection_admits (request : TaggedRequest) (wall mono : Nat) (s : NodeState)
    (owes : 0 < (node.ingressSection request wall mono s).2.owes) :
    Admitted node request s (node.ingressSection request wall mono s).1 := by
  cases request with
  | spend request =>
    unfold ingressSection ingressHold at owes ⊢
    simp only at owes ⊢
    split_ifs at owes ⊢ with locked
    · cases owes
    cases checked : node.verifyCoordAuth request.coordRequest request.coordSig wall s.sign.coordNonces
        (node.channel.map (fun _ => mono)) with
    | mk nonces verdict =>
      simp only [checked] at owes ⊢
      cases verdict with
      | error refused => cases owes
      | ok fresh =>
        obtain ⟨signed, unknown, known⟩ := verifyCoordAuth_passes checked
        simp only at owes ⊢
        cases propagates : node.ensureRequestPropagatable (.spend request) with
        | error bad => simp [propagates, Phase.owes] at owes
        | ok _ =>
          simp only
          cases node.ensureDeliveryHorizon request.expiry fresh.1 with
          | some refused => exact ⟨signed, unknown, known⟩
          | none =>
            refine ⟨signed, unknown, ?_⟩
            cases node.channel with
            | none => exact known
            | some ch' => exact known
  | refresh request =>
    unfold ingressSection refreshIngressHold at owes ⊢
    simp only at owes ⊢
    split_ifs at owes ⊢ with locked
    · cases owes
    cases checked : node.verifyCoordAuth request.coordRequest request.coordSig wall s.sign.coordNonces
        (node.channel.map (fun _ => mono)) with
    | mk nonces verdict =>
      simp only [checked] at owes ⊢
      cases verdict with
      | error refused => cases owes
      | ok fresh =>
        obtain ⟨signed, unknown, known⟩ := verifyCoordAuth_passes checked
        simp only at owes ⊢
        cases propagates : node.ensureRequestPropagatable (.refresh request) with
        | error bad => simp [propagates, Phase.owes] at owes
        | ok _ => exact ⟨signed, unknown, known⟩

theorem serves_of_enrolls {carrier spendId escapeId : String} {op : StoreOp} (registering : registered op = true)
    (bears : Bears node carrier held.request) (names : NamesPair node held.request spendId escapeId)
    (enrolls : Enrolls carrier spendId escapeId op) : Serves node held op := by
  cases op with
  | registerCandidates requests arm reserve mono =>
    obtain ⟨rfl, rfl, rfl, born⟩ := enrolls
    exact ⟨bears, names, born⟩
  | recordIntentPair named spend escape =>
    obtain ⟨rfl, rfl, rfl⟩ := enrolls
    exact ⟨bears, names⟩
  | _ => trivial

theorem advances_ingress (origin : Origin) (request : TaggedRequest) (wall mono : Nat) :
    Advances node ch ⟨origin, request, .arrived⟩ (.ingress wall mono) s (node.ingressSection request wall mono s).1
      (node.ingressSection request wall mono s).2 where
  takes := by
    refine ⟨request, 0, ?_, fun _ => rfl, le_rfl⟩
    cases request with
    | spend request => exact takes_spendIngress s request wall mono (fun generation => ⟨fun _ => trivial, rfl⟩)
    | refresh request => exact takes_refreshIngress s request wall mono
  first _ := rfl
  admits _ owes := ingressSection_admits request wall mono s owes

theorem owes_staleInspectSection (request : TaggedRequest) (sender : Nat) (reserved : Bool)
    (now mono nowAgain monoAgain : Nat) (s : NodeState) :
    (node.staleInspectSection ch request sender reserved now mono nowAgain monoAgain s).2.owes = 0 := by
  cases request with
  | refresh request => rfl
  | spend request =>
    unfold staleInspectSection
    simp only
    split_ifs
    · split
      · split <;> rfl
      · rfl
    · split <;> rfl
    · rfl

variable (mounted : node.channel = some ch)
include mounted

/-- Every section, its kind aside. -/
theorem advances_advance (taken : node.advance held s step = some (t, phase)) :
    Advances node ch held step s t phase := by
  cases advanced_of_advance taken with
  | ingress origin request wall mono fresh => exact advances_ingress origin request wall mono
  | push origin request response =>
    have pushed : Takes ch (Within node ⟨origin, request, .unsent response⟩ .push) request 1 s
        { s with outbox := s.outbox ++ [request] } :=
      ⟨Reaches.refl _ _ _, ⟨1, le_rfl, rfl⟩, fun _ _ known => known⟩
    exact .settled pushed (fun _ => rfl) rfl le_rfl rfl
  | commit origin request flight wall =>
    refine ⟨⟨.spend flight.request, 1 - (node.commitSection flight wall s).2.owes, ?_, ?_, ?_⟩, fun first => (by cases first),
      fun first => (by cases first)⟩
    · apply takes_commitSection mounted s flight wall
      · intro generation now claimed
        refine ⟨?_, rfl⟩
        intro formed
        obtain ⟨same, own⟩ := formed.flight flight rfl
        obtain ⟨tag, expiry⟩ := own generation claimed
        have bears := formed.bears mounted rfl rfl
        rw [show request = .spend flight.request from same] at bears
        exact ⟨⟨flight.request, same.symm, bears, rfl, expiry.symm, tag.symm⟩,
          fun duress => ⟨flight.request, same.symm, bears, of_decide_eq_true duress⟩⟩
      · refine ⟨?_, rfl⟩
        intro formed
        exact ⟨flight.request, (formed.flight flight rfl).1, formed.bears mounted rfl rfl⟩
    · intro formed
      exact (formed.flight flight rfl).1.symm
    · exact (Nat.sub_add_cancel (Phase.owes_le_one (node.commitSection flight wall s).2)).le
  | register origin request flight replies clock =>
    have takes : Takes ch (Within node ⟨origin, request, .windowB flight⟩ (.register replies clock))
        (.spend flight.request) 1 s (node.registerSection flight replies clock s).1 := by
      apply takes_registrationHold mounted s
      · refine ⟨?_, rfl⟩
        intro formed
        exact ⟨flight.request, (formed.flight flight rfl).1, formed.bears mounted rfl rfl⟩
      · intro pair decoded op registering enrolls
        refine ⟨?_, by simp [inScope, confirms, registers, registering]⟩
        intro formed
        have own : request = .spend flight.request := (formed.flight flight rfl).1
        have names : NamesPair node request pair.commitmentId pair.escapeCommitmentId := by
          rw [own]
          exact ⟨pair, decoded, rfl, rfl⟩
        exact serves_of_enrolls registering (formed.bears mounted rfl rfl) names enrolls
    exact .settled takes (fun formed => (formed.flight flight rfl).1.symm) rfl le_rfl rfl
  | refreshRegister origin refresh reply clock =>
    have takes : Takes ch (Within node ⟨origin, .refresh refresh, .refreshWindow⟩ (.refreshRegister reply clock))
        (.refresh refresh) 1 s (node.refreshRegisterSection refresh reply clock s).1 := by
      apply takes_refreshRegisterSection mounted s
      intro psbt decoded op registering enrolls
      refine ⟨?_, by simp [inScope, confirms, registers, registering]⟩
      intro formed
      exact serves_of_enrolls registering ⟨formed.signed rfl, rfl⟩ ⟨psbt, decoded, rfl, rfl⟩ enrolls
    exact .settled takes (fun _ => rfl) rfl le_rfl rfl
  | dropClaim origin request result claim mono | wake origin request response claim mono =>
    exact .quiet (takes_dropClaim s (fun _ _ => ⟨fun _ => trivial, rfl⟩) (fun _ _ => ⟨fun _ => trivial, rfl⟩) claim mono)
      rfl rfl
  | dropSlot | sleep | refreshReply => exact .quiet (.of_same rfl rfl rfl) rfl rfl
  | receiptGuard sender request result =>
    refine .quiet (.of_same rfl rfl rfl) rfl ?_
    split_ifs
    · rfl
    · rfl
  | receiptLookup ch' known sender request result now mono =>
    refine .quiet (.of_same rfl rfl rfl) rfl ?_
    unfold receiptPhase
    split <;> rfl
  | recordedLookup ch' known sender request result now mono =>
    refine .quiet (.of_same rfl rfl rfl) rfl ?_
    unfold recordedPhase
    split <;> rfl
  | claimDerivation sender spend result carrier generation reserved =>
    refine .quiet (takes_claimDerivationSection s _ _ _ _ _ reserved (fun _ _ _ => ⟨fun _ => trivial, rfl⟩)) rfl ?_
    unfold claimDerivationSection
    split_ifs
    · simp only
      split_ifs <;> rfl
    · rfl
  | recordDerivation sender spend result carrier generation =>
    refine .quiet (takes_recordDerivationSection s _ _ _ _ _ (fun derived => ⟨?_, rfl⟩)) rfl ?_
    · intro formed
      exact ⟨spend, rfl, ⟨formed.signed rfl, derived⟩, rfl, (formed.derives generation rfl).symm, rfl⟩
    · unfold recordDerivationSection
      split_ifs
      · simp only
        split_ifs <;> rfl
      · rfl
  | confirm sender request result carrier now mono =>
    refine .quiet (.taken (.confirmCarrier sender carrier node.threshold (s.sign.coordNonces.effectiveNow now)
      node.duressTiming mono) ⟨fun _ => ⟨rfl, ⟨result, rfl⟩, rfl⟩, rfl⟩ rfl rfl rfl rfl) rfl ?_
    unfold confirmSection
    simp only
    split_ifs <;> rfl
  | staleInspect ch' known sender request reserved now mono nowAgain monoAgain =>
    cases mounted.symm.trans known
    refine .quiet (takes_staleInspectSection s request _ reserved now mono nowAgain monoAgain ?_) rfl
      (owes_staleInspectSection _ _ _ _ _ _ _ s)
    intro spend same guarded claim deadline now mono
    refine ⟨fun _ => ?_, rfl⟩
    intro carrier generation inspects
    cases inspects
  | staleFinish ch' known sender spend carrier generation now mono =>
    cases mounted.symm.trans known
    refine .quiet (takes_outerStaleClassify s _ _ now mono _ ?_) rfl rfl
    intro deadline
    refine ⟨?_, rfl⟩
    intro formed carrier' generation' finishes
    simp only [OuterStaleStep.finish.injEq, decide_eq_true_eq] at finishes
    exact ⟨spend, rfl, ⟨formed.signed rfl, finishes.1 ▸ finishes.2.2⟩, rfl, rfl, rfl⟩

end Advance

/-! ### Threads stay in shape -/

section Shape

variable {node : NodeConfig} {s t : NodeState} {origin : Origin} {request : TaggedRequest} {step : Section}
  {phase : Phase}

/-- A phase on which nothing rests. -/
theorem Formed.idle (checked : phase.checked = false) (flight : phase.flight = none) (derives : phase.derives = none) :
    Formed node ⟨origin, request, phase⟩ where
  signed check := by
    rw [checked] at check
    cases check
  flight some same := by
    rw [flight] at same
    cases same
  derives some same := by
    rw [derives] at same
    cases same

/-- A phase on which only the signature rests. -/
theorem Formed.checked (signed : CoordSigned node request) (flight : phase.flight = none)
    (derives : phase.derives = none) : Formed node ⟨origin, request, phase⟩ where
  signed _ := signed
  flight some same := by
    rw [flight] at same
    cases same
  derives some same := by
    rw [derives] at same
    cases same

theorem ingressHold_flight {request : SignRequest} {wall mono : Nat} {flight : Flight} {t : NodeState}
    (held : node.ingressHold request wall mono s = (t, .windowA flight)) : flight.request = request ∧
      ∀ generation, flight.generation = some generation → OwnGeneration node request generation := by
  unfold ingressHold at held
  simp only at held
  split_ifs at held
  · cases held
  · split at held
    · cases held
    · split at held
      · cases held
      · split at held
        · cases held
        · cases held
          refine ⟨rfl, ?_⟩
          intro generation claimed
          simp only [Option.map_eq_some_iff] at claimed
          obtain ⟨_, _, rfl⟩ := claimed
          exact ⟨rfl, rfl⟩

theorem commitHold_flight {flight later : Flight} {verdict : PinVerdict} {carrier : String} {wall : Nat} {t : NodeState}
    (held : node.commitHold flight verdict carrier wall s = (t, .windowB later)) :
    later.request = flight.request ∧ later.generation = flight.generation := by
  unfold commitHold at held
  simp only at held
  split_ifs at held
  · cases held
  · split at held
    · cases held
    · cases held
  · split at held
    · cases held
    · cases held
      exact ⟨rfl, rfl⟩

theorem formed_ingress (wall mono : Nat) : Formed node ⟨origin, request, (node.ingressSection request wall mono s).2⟩ := by
  have admits : 0 < (node.ingressSection request wall mono s).2.owes →
      Admitted node request s (node.ingressSection request wall mono s).1 := ingressSection_admits request wall mono s
  cases request with
  | spend request =>
    unfold ingressSection at admits ⊢
    simp only at admits ⊢
    cases outcome : node.ingressHold request wall mono s with
    | mk t answer =>
      simp only [outcome] at admits ⊢
      cases answer with
      | answered result => exact .idle rfl rfl rfl
      | unsent response => exact .checked (admits Nat.one_pos).signed rfl rfl
      | windowA flight =>
        obtain ⟨own, generations⟩ := ingressHold_flight outcome
        refine ⟨fun _ => (admits Nat.one_pos).signed, ?_, fun _ same => by cases same⟩
        intro other same
        cases same
        rw [own]
        exact ⟨rfl, generations⟩
  | refresh request =>
    unfold ingressSection at admits ⊢
    simp only at admits ⊢
    cases outcome : node.refreshIngressHold request wall mono s with
    | mk t answer =>
      simp only [outcome] at admits ⊢
      cases answer with
      | answered result => exact .idle rfl rfl rfl
      | window => exact .checked (admits Nat.one_pos).signed rfl rfl

/-- The generation of a receipt that derives has the expiry it was looked up with. -/
theorem carrierMemoLookup_derives {ch : ChannelState} {store : PartialStore} {nonce : String} {tag : Bytes}
    {expiry sender now mono : Nat} {carrier : String} {generation : MemoGeneration}
    (found : store.carrierMemoLookup ch nonce tag expiry sender now mono = .deriveForConfirmation carrier generation) :
    generation.expiry = expiry := by
  unfold carrierMemoLookup at found
  split at found
  · cases found
  next memo _ =>
    split_ifs at found with lapsed other
    simp only at found
    split at found
    · cases found
    · split_ifs at found
      unfold derivedLookup rawExpiredRetry at found
      simp only at found
      split_ifs at found
      · split at found
        · cases found
        · split_ifs at found
      · cases found
        simpa using other

/-- What a section leaves to the next one is about its own request. -/
theorem formed_advance {held : Thread} (formed : Formed node held) (taken : node.advance held s step = some (t, phase)) :
    Formed node { held with phase := phase } := by
  cases advanced_of_advance taken with
  | ingress origin request wall mono fresh => exact formed_ingress wall mono
  | commit origin request flight wall =>
    obtain ⟨own, generations⟩ := formed.flight flight rfl
    unfold commitSection
    simp only
    cases outcome : node.commitHold flight (pinVerdict (node.rules.verifyPin flight.request.pin) flight.request)
        (node.carrierOf flight.request) wall s with
    | mk u answer =>
    cases answer with
    | leaving response claim => exact .idle rfl rfl rfl
    | backoff response claim secs => exact .idle rfl rfl rfl
    | windowB later =>
      obtain ⟨same', generation⟩ := commitHold_flight outcome
      refine ⟨fun _ => formed.signed rfl, ?_, fun _ same => by cases same⟩
      intro flown same
      cases same
      rw [same', generation]
      exact ⟨own, generations⟩
  | push | register | refreshRegister | dropClaim | wake | dropSlot | sleep | refreshReply | staleFinish =>
    exact .idle rfl rfl rfl
  | receiptGuard sender request result =>
    split_ifs with guarded
    · exact .checked (coordSigned_of_receiptGuarded (Bool.and_eq_true_iff.mp guarded).2) rfl rfl
    · exact .idle rfl rfl rfl
  | receiptLookup ch mounted sender spend result now mono =>
    have signed : CoordSigned node (.spend spend) := formed.signed rfl
    cases found : s.store.carrierMemoLookup ch spend.nonce (armSignatureTag node.lib spend.coordSig) spend.expiry
        sender now mono with
    | deriveForConfirmation carrier generation =>
      refine ⟨fun _ => signed, fun _ same => (by cases same), ?_⟩
      intro other same
      cases same
      exact carrierMemoLookup_derives found
    | exact carrier => exact .checked signed rfl rfl
    | _ => exact .idle rfl rfl rfl
  | recordedLookup ch mounted sender spend result now mono =>
    have signed : CoordSigned node (.spend spend) := formed.signed rfl
    cases found : s.store.carrierMemoLookup ch spend.nonce (armSignatureTag node.lib spend.coordSig) spend.expiry
        sender now mono with
    | exact carrier => exact .checked signed rfl rfl
    | _ => exact .idle rfl rfl rfl
  | claimDerivation sender spend result carrier generation reserved =>
    unfold claimDerivationSection
    split_ifs
    · simp only
      split_ifs
      · refine ⟨fun _ => formed.signed rfl, fun _ same => (by cases same), ?_⟩
        intro other same
        cases same
        exact formed.derives generation rfl
      · exact .idle rfl rfl rfl
    · exact .idle rfl rfl rfl
  | recordDerivation sender spend result carrier generation =>
    unfold recordDerivationSection
    split_ifs
    · simp only
      split_ifs
      · exact .checked (formed.signed rfl) rfl rfl
      · exact .idle rfl rfl rfl
    · exact .idle rfl rfl rfl
  | confirm sender request result carrier now mono =>
    unfold confirmSection
    simp only
    split_ifs
    · exact .idle rfl rfl rfl
    · exact .idle rfl rfl rfl
  | staleInspect ch mounted sender request reserved now mono nowAgain monoAgain =>
    cases request with
    | refresh request => exact .idle rfl rfl rfl
    | spend request =>
      unfold staleInspectSection
      simp only
      split_ifs with guarded claims
      · have signed : CoordSigned node (.spend request) := coordSigned_of_receiptGuarded guarded
        split
        · simp only
          split
          · exact .checked signed rfl rfl
          · exact .idle rfl rfl rfl
        · exact .idle rfl rfl rfl
      · split
        · exact .idle rfl rfl rfl
        · exact .idle rfl rfl rfl
      · exact .idle rfl rfl rfl

end Shape

/-! ### Steps of the machine -/

/-- The steps that go on while another task holds the signing lock. -/
def lockFree : NodeOp → Bool
  | .arrive .. => true
  | .advance _ step => !locks step
  | .background (.acceptPartial _ _) | .background (.lockdownDue _) => true
  | .background (.carrierMemoLookup _ _ _ _ _ _) => true
  | .background op => unlocked op
  | _ => false

/-- The steps that may enroll a request. -/
def registersOp : NodeOp → Bool
  | .advance _ step => registers step
  | .background (.registerCandidates _ _ _ _) => true
  | _ => false

/-- The overlay is the same, and what is resident was resident and has evolved. -/
structure Calm (s t : PartialStore) : Prop where
  armed : t.armed = s.armed
  kept : Kept s t

theorem Calm.trans {s t u : PartialStore} (first : Calm s t) (second : Calm t u) : Calm s u :=
  ⟨second.armed.trans first.armed, first.kept.trans second.kept⟩

theorem Calm.of_same {s t : PartialStore} (armed : t.armed = s.armed) (candidates : t.candidates = s.candidates) :
    Calm s t :=
  ⟨armed, Kept.of_same candidates⟩

section Steps

variable {node : NodeConfig} {ch : ChannelState} (mounted : node.channel = some ch)

theorem calm_of_unlocked (s : PartialStore) (op : StoreOp) (free : unlocked op = true) :
    Calm s (storeStep ch s op).1 := by
  have quiet : op.quiet = true := by
    cases op with
    | _ => first | rfl | cases free
  have core := sameCore_of_quiet ch s op quiet
  exact .of_same core.armed core.candidates

include mounted

/-- While the signing lock is held, nothing is armed and nothing new is enrolled. -/
theorem calm_nodeStep (w : World) (op : NodeOp) (free : lockFree op = true) :
    Calm w.node.store (node.nodeStep w op).1.node.store := by
  cases op with
  | arrive thread origin request =>
    simp only [nodeStep]
    split_ifs
    · exact .of_same rfl rfl
    · exact .of_same rfl rfl
  | advance thread step =>
    simp only [nodeStep]
    split
    · exact .of_same rfl rfl
    next t phase taken =>
      obtain ⟨held, _, taken⟩ := Option.bind_eq_some_iff.mp taken
      obtain ⟨request, most, takes, _⟩ := (advances_advance mounted taken).takes
      apply takes.invariant (Calm w.node.store) _ (.of_same rfl rfl)
      intro store op within _ calm
      refine calm.trans (calm_of_unlocked store op ?_)
      have scope : inScope step op = true := within.2
      have lockless : locks step = false := by simpa [lockFree] using free
      cases step with
      | _ => first | exact scope | cases lockless
  | background op =>
    have stepped : (node.nodeStep w (.background op)).1.node.store = (storeStep ch w.node.store op).1 := by
      simp [nodeStep, onStore, mounted]
    rw [stepped]
    cases op with
    | acceptPartial p now =>
      exact ⟨(sameSafety_acceptPartial ch.lib _ p ch.nodes now).armed, kept_acceptPartial ch.lib _ p ch.nodes now⟩
    | lockdownDue now => exact .of_same rfl rfl
    | carrierMemoLookup nonce tag expiry sender now mono => exact .of_same rfl rfl
    | _ => exact calm_of_unlocked _ _ free
  | _ => cases free

/-- A step that neither enrolls a request nor latches the candidate leaves its ladder. -/
theorem ladderKept_nodeStep (id : String) (w : World) (op : NodeOp) (enrolls : registersOp op = false)
    (other : ∀ rung lowest, op ≠ .background (.latchEscapeRung id rung lowest)) :
    LadderKept id w.node.store (node.nodeStep w op).1.node.store := by
  have stays : LadderKept id w.node.store w.node.store := fun later found => ⟨later, found, .refl later⟩
  cases op with
  | arrive thread origin request =>
    simp only [nodeStep]
    split_ifs
    · exact stays
    · exact stays
  | advance thread step =>
    simp only [nodeStep]
    split
    · exact stays
    next t phase taken =>
      obtain ⟨held, _, taken⟩ := Option.bind_eq_some_iff.mp taken
      obtain ⟨request, most, takes, _⟩ := (advances_advance mounted taken).takes
      apply takes.invariant (LadderKept id w.node.store) _ stays
      intro store op within _ kept
      have scope : inScope step op = true := within.2
      have unregistered : registers step = false := enrolls
      simp only [inScope, unregistered, Bool.false_eq_true, if_false] at scope
      apply kept.trans
      apply ladderKept_step
      · cases op with
        | registerCandidates requests arm reserve mono => split_ifs at scope <;> cases scope
        | _ => rfl
      · intro rung lowest same
        rw [same] at scope
        split_ifs at scope <;> cases scope
  | enterLockdown => exact stays
  | settleRead key commitmentId =>
    simp only [nodeStep]
    split_ifs
    · exact stays
    · exact stays
  | settleMark key armedEscape =>
    simp only [nodeStep]
    split
    next commitmentId paired _ =>
      cases armedEscape with
      | true => exact LaddersKept.foldl LaddersKept.terminalize _ _ id
      | false => exact LaddersKept.markBroadcast _ commitmentId id
    · exact stays
  | settleRelease key =>
    simp only [nodeStep]
    split
    · exact stays
    · exact stays
  | background op =>
    have stepped : (node.nodeStep w (.background op)).1.node.store = (storeStep ch w.node.store op).1 := by
      simp [nodeStep, onStore, mounted]
    rw [stepped]
    apply ladderKept_step
    · cases op with
      | _ => first | rfl | cases enrolls
    · intro rung lowest same
      exact other rung lowest (by rw [same])

end Steps

end BtcPolicy.Node
