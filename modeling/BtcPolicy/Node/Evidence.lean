import BtcPolicy.Channel.Attest
import BtcPolicy.Lib.Network
import BtcPolicy.Node.Advance

/-! What a member goes by when it counts another as a holder: a request that came from there, of a carrier that the
member has named itself. No step of a node arms it, or opens a gate, on less. -/

namespace BtcPolicy.Node
open FiniteMap Word Bitcoin HotLedger Replay Channel Pin Policy Runs PartialStore NodeConfig

/-- A request that was brought to the node and has a thread there. No thread is ever dropped. -/
def Brought (w : World) (request : TaggedRequest) : Prop :=
  ∃ k held, w.threads.lookup k = some held ∧ held.request = request

/-- A signed request under the nonce, the expiry and the signature of a spend of this carrier that was brought. -/
def Supports (node : NodeConfig) (brought : TaggedRequest → Prop) (carrier : String) (request : TaggedRequest) : Prop :=
  ∃ spend, request = .spend spend ∧ CoordSigned node request ∧
    Original node brought carrier spend.nonce spend.expiry (armSignatureTag node.lib spend.coordSig)

/-- What the node has in evidence, by the requests brought to it, by its own outbox and by what it has heard. -/
def testimony (node : NodeConfig) (self : Nat) (heard : Nat → TaggedRequest → Prop) (w : World) : Testimony where
  holder carrier j := ∃ request, (j = self ∧ request ∈ w.node.outbox ∨ heard j request) ∧
    Supports node (Brought w) carrier request
  names carrier spend escape := ∃ request, Brought w request ∧ Bears node carrier request ∧
    NamesPair node request spend escape
  duress := UnderDuress node (Brought w)
  original := Original node (Brought w)

/-- The operations that only a handler takes. -/
def handled : StoreOp → Bool
  | .recordArmIntent .. | .markCarrierPropagated .. | .recordIntentPair .. | .registerCandidates .. => true
  | .recordCarrierDerivationResult .. | .outerStaleCarrier .. | .confirmCarrier .. => true
  | _ => false

def Origin.sender : Origin → Option Nat
  | .direct => none
  | .relayed sender | .outerStale sender => some sender

/-- Every thread is about its own request, which came from its sender; a receipt that names a carrier has support for
it; and the registry is within the evidence. -/
structure Backed (node : NodeConfig) (ch : ChannelState) (heard : Nat → TaggedRequest → Prop) (w : World) : Prop where
  formed : ∀ k held, w.threads.lookup k = some held → Formed node held
  relayed : ∀ k held sender, w.threads.lookup k = some held → held.origin.sender = some sender →
    heard sender held.request
  receipts : ∀ k held result carrier, w.threads.lookup k = some held →
    held.phase = .receipt result (.resolved carrier) → Supports node (Brought w) carrier held.request
  store : Attested ch node.threshold (testimony node ch.nodeId heard w) w.node.store

section Steps

variable {node : NodeConfig} {ch : ChannelState} {heard : Nat → TaggedRequest → Prop} {w : World}

theorem Original.mono {brought brought' : TaggedRequest → Prop} (more : ∀ request, brought request → brought' request)
    {carrier nonce : String} {expiry : Nat} {tag : Bytes} (original : Original node brought carrier nonce expiry tag) :
    Original node brought' carrier nonce expiry tag := by
  obtain ⟨request, here, rest⟩ := original
  exact ⟨request, more _ here, rest⟩

theorem UnderDuress.mono {brought brought' : TaggedRequest → Prop}
    (more : ∀ request, brought request → brought' request) {carrier : String}
    (duress : UnderDuress node brought carrier) : UnderDuress node brought' carrier := by
  obtain ⟨request, here, rest⟩ := duress
  exact ⟨request, more _ here, rest⟩

theorem Supports.mono {brought brought' : TaggedRequest → Prop} (more : ∀ request, brought request → brought' request)
    {carrier : String} {request : TaggedRequest} (supports : Supports node brought carrier request) :
    Supports node brought' carrier request := by
  obtain ⟨spend, same, signed, original⟩ := supports
  exact ⟨spend, same, signed, original.mono more⟩

theorem testimony_extends {self : Nat} {heard' : Nat → TaggedRequest → Prop} {w' : World}
    (brings : ∀ request, Brought w request → Brought w' request)
    (kept : ∀ request ∈ w.node.outbox, request ∈ w'.node.outbox)
    (more : ∀ j request, heard j request → heard' j request) :
    (testimony node self heard w).Extends (testimony node self heard' w') where
  holder carrier j shown := by
    obtain ⟨request, source, supports⟩ := shown
    exact ⟨request, source.imp (fun own => ⟨own.1, kept request own.2⟩) (more j request), supports.mono brings⟩
  names carrier spend escape known := by
    obtain ⟨request, here, rest⟩ := known
    exact ⟨request, brings request here, rest⟩
  duress carrier known := known.mono brings
  original carrier nonce expiry tag known := known.mono brings

theorem attests_of_unhandled {known : Testimony} {op : StoreOp} (free : handled op = false) :
    Attests ch node.threshold known op := by
  cases op with
  | _ => first | exact trivial | cases free

/-- What a thread takes comes with the evidence for it. -/
theorem attests_of_serves {held : Thread} {op : StoreOp} (brought : Brought w held.request)
    (serves : Serves node held op) (staged : stages op = true → held.request ∈ w.node.outbox)
    (relayed : ∀ sender, held.origin.sender = some sender → heard sender held.request)
    (receipts : ∀ result carrier, held.phase = .receipt result (.resolved carrier) →
      Supports node (Brought w) carrier held.request) :
    Attests ch node.threshold (testimony node ch.nodeId heard w) op := by
  have own : ∀ request, request = held.request → Brought w request := by
    rintro request rfl
    exact brought
  cases op with
  | recordArmIntent duress carrier nonce generation firstSeen now timing =>
    exact ⟨serves.1.mono own, fun marked => (serves.2 marked).mono own⟩
  | markCarrierPropagated carrier =>
    obtain ⟨spend, same, bears⟩ := serves
    refine ⟨held.request, .inl ⟨rfl, staged rfl⟩, spend, same, bears.signed, ?_⟩
    exact ⟨spend, same ▸ brought, same ▸ bears, rfl, rfl, rfl⟩
  | recordIntentPair carrier spend escape => exact ⟨held.request, brought, serves⟩
  | registerCandidates requests arm reserve mono =>
    exact ⟨⟨held.request, brought, serves.1, serves.2.1⟩, serves.2.2⟩
  | recordCarrierDerivationResult nonce sender tag generation carrier => exact serves.mono own
  | outerStaleCarrier nonce tag expiry deadline sender now step mono =>
    intro carrier generation finishes
    exact (serves carrier generation finishes).mono own
  | confirmCarrier sender carrier required now timing mono =>
    obtain ⟨origin, ⟨result, resolved⟩, required⟩ := serves
    exact ⟨⟨held.request, .inr (relayed sender (by rw [origin]; rfl)), receipts result carrier resolved⟩, required⟩
  | _ => exact trivial

/-- Only a lookup resolves a receipt, and to the carrier it has found. -/
theorem resolved_of_advance {held : Thread} {s t : NodeState} {step : Section} {phase : Phase} {result : SignResult}
    {carrier : String} (mounted : node.channel = some ch) (taken : node.advance held s step = some (t, phase))
    (resolved : phase = .receipt result (.resolved carrier)) :
    ∃ sender spend now mono, held.request = .spend spend ∧ held.phase.checked = true ∧
      s.store.carrierMemoLookup ch spend.nonce (armSignatureTag node.lib spend.coordSig) spend.expiry sender now mono =
        .exact carrier := by
  cases advanced_of_advance taken with
  | ingress origin request wall mono fresh =>
    unfold ingressSection at resolved
    cases request with
    | spend request =>
      simp only at resolved
      split at resolved <;> cases resolved
    | refresh request =>
      simp only at resolved
      split at resolved <;> cases resolved
  | commit origin request flight wall =>
    unfold commitSection at resolved
    simp only at resolved
    split at resolved <;> cases resolved
  | receiptGuard sender request result' =>
    split_ifs at resolved
    cases resolved
  | receiptLookup ch' known sender spend result' now mono =>
    cases mounted.symm.trans known
    simp only [receiptPhase] at resolved
    split at resolved
    next found =>
      cases resolved
      exact ⟨sender, spend, now, mono, rfl, rfl, found⟩
    all_goals cases resolved
  | recordedLookup ch' known sender spend result' now mono =>
    cases mounted.symm.trans known
    simp only [recordedPhase] at resolved
    split at resolved
    next found =>
      cases resolved
      exact ⟨sender, spend, now, mono, rfl, rfl, found⟩
    all_goals cases resolved
  | claimDerivation sender spend result' carrier' generation reserved =>
    unfold claimDerivationSection at resolved
    split_ifs at resolved
    simp only at resolved
    split_ifs at resolved
    cases resolved
  | recordDerivation sender spend result' carrier' generation =>
    unfold recordDerivationSection at resolved
    split_ifs at resolved
    simp only at resolved
    split_ifs at resolved
    cases resolved
  | confirm sender request result' carrier' now mono =>
    unfold confirmSection at resolved
    simp only at resolved
    split_ifs at resolved
  | staleInspect ch' known sender request reserved now mono nowAgain monoAgain =>
    unfold staleInspectSection at resolved
    cases request with
    | refresh request => cases resolved
    | spend request =>
      simp only at resolved
      split_ifs at resolved
      · split at resolved
        · simp only at resolved
          split at resolved <;> cases resolved
        · cases resolved
      · split at resolved <;> cases resolved
  | push | register | refreshRegister | dropClaim | wake | dropSlot | sleep | refreshReply | staleFinish =>
    cases resolved

variable (mounted : node.channel = some ch)
  (separates : ∀ sig other, armSignatureTag node.lib sig ≠ ch.lib.taggedHash outerStaleClaimTag other)

/-- A step that changes neither the threads nor the outbox, nor the registry beyond an operation that no handler has to
vouch for. -/
theorem Backed.of_store {w' : World} (backed : Backed node ch heard w) (threads : w'.threads = w.threads)
    (outbox : w'.node.outbox = w.node.outbox) (store : w'.node.store = w.node.store ∨
      ∃ op, handled op = false ∧ w'.node.store = (storeStep ch w.node.store op).1) : Backed node ch heard w' := by
  have brings : Brought w' = Brought w := by
    unfold Brought
    rw [threads]
  have known : testimony node ch.nodeId heard w' = testimony node ch.nodeId heard w := by
    unfold testimony
    rw [brings, outbox]
  constructor
  case formed => rw [threads]; exact backed.formed
  case relayed => rw [threads]; exact backed.relayed
  case receipts => rw [threads, brings]; exact backed.receipts
  case store =>
    rw [known]
    rcases store with same | ⟨op, free, same⟩
    · rw [same]
      exact backed.store
    · rw [same]
      exact attested_step op (attests_of_unhandled free) backed.store

include mounted separates

theorem backed_advance (backed : Backed node ch heard w) {thread : Nat} {held : Thread} {step : Section} {t : NodeState}
    {phase : Phase} (found : w.threads.lookup thread = some held)
    (taken : node.advance held w.node step = some (t, phase)) :
    Backed node ch heard
      { w with node := t, threads := adjust thread (fun held => { held with phase := phase }) w.threads } := by
  have formed := backed.formed thread held found
  have after : ∀ k later, (adjust thread (fun held => { held with phase := phase }) w.threads).lookup k = some later →
      w.threads.lookup k = some later ∨ later = { held with phase := phase } := by
    intro k later here
    obtain ⟨old, present, same | ⟨rfl, rewritten⟩⟩ := lookup_adjust_some here
    · exact .inl (same ▸ present)
    · cases found.symm.trans present
      exact .inr rewritten
  have brings : ∀ request, Brought w request → Brought
      { w with node := t, threads := adjust thread (fun held => { held with phase := phase }) w.threads } request := by
    rintro _ ⟨k, other, present, rfl⟩
    by_cases same : k = thread
    · subst same
      exact ⟨k, { other with phase := phase }, by rw [lookup_adjust_self, present]; rfl, rfl⟩
    · exact ⟨k, other, by rw [lookup_adjust_ne same, present], rfl⟩
  constructor
  case formed =>
    intro k later here
    rcases after k later here with other | rfl
    · exact backed.formed k later other
    · exact formed_advance formed taken
  case relayed =>
    intro k later sender here origin
    rcases after k later here with other | rfl
    · exact backed.relayed k later sender other origin
    · exact backed.relayed thread held sender found origin
  case receipts =>
    intro k later result carrier here resolved
    rcases after k later here with other | rfl
    · exact (backed.receipts k later result carrier other resolved).mono brings
    · obtain ⟨sender, spend, now, mono, same, checked, exact'⟩ := resolved_of_advance mounted taken resolved
      have original := carrierMemoLookup_exact backed.store.memos (separates _) exact'
      exact ⟨spend, same, formed.signed checked, Original.mono brings original⟩
  case store =>
    obtain ⟨request, most, takes, own, _⟩ := (advances_advance mounted taken).takes
    obtain rfl := own formed
    apply takes.invariant (Attested ch node.threshold (testimony node ch.nodeId heard _))
    · intro store op within staged attested
      apply attested_step op _ attested
      exact attests_of_serves (brings _ ⟨thread, held, found, rfl⟩) (within.1 formed) staged
        (fun sender origin => backed.relayed thread held sender found origin)
        (fun result carrier resolved => (backed.receipts thread held result carrier found resolved).mono brings)
    · exact backed.store.mono
        (testimony_extends brings (fun request member => takes.kept member) (fun _ _ shown => shown))

/-- What a step has heard is the request it brings in, from the member that has relayed it. -/
def NodeOp.hears : NodeOp → Option (Nat × TaggedRequest)
  | .arrive _ origin request => origin.sender.map (fun sender => (sender, request))
  | _ => none

/-- The rest of the node takes no operation of a handler. -/
def NodeOp.unhandled : NodeOp → Bool
  | .background op => !handled op
  | _ => true

theorem backed_nodeStep (backed : Backed node ch heard w) (op : NodeOp) (own : op.unhandled = true)
    (hearing : ∀ j request, op.hears = some (j, request) → heard j request) :
    Backed node ch heard (node.nodeStep w op).1 := by
  cases op with
  | arrive thread origin request =>
    simp only [nodeStep]
    split_ifs with known
    · exact backed
    have idle : Formed node ⟨origin, request, node.arrival origin w.node⟩ ∧
        ∀ result carrier, node.arrival origin w.node ≠ .receipt result (.resolved carrier) := by
      unfold arrival
      cases origin with
      | direct => simp only; split_ifs <;> exact ⟨.idle rfl rfl rfl, by simp⟩
      | relayed sender => simp only; split_ifs <;> exact ⟨.idle rfl rfl rfl, by simp⟩
      | outerStale sender => simp only; split_ifs <;> exact ⟨.idle rfl rfl rfl, by simp⟩
    have brings : ∀ other, Brought w other → Brought
        { w with threads := w.threads.insert thread ⟨origin, request, node.arrival origin w.node⟩ } other := by
      rintro _ ⟨k, held, present, rfl⟩
      have apart : k ≠ thread := by
        rintro rfl
        exact known (by rw [present]; rfl)
      exact ⟨k, held, (AList.lookup_insert_ne apart).trans present, rfl⟩
    constructor
    case formed =>
      intro k held here
      rcases lookup_insert_some.mp here with ⟨_, rfl⟩ | ⟨_, old⟩
      · exact idle.1
      · exact backed.formed k held old
    case relayed =>
      intro k held sender here from'
      rcases lookup_insert_some.mp here with ⟨_, rfl⟩ | ⟨_, old⟩
      · exact hearing sender request (by simp [NodeOp.hears, from'])
      · exact backed.relayed k held sender old from'
    case receipts =>
      intro k held result carrier here resolved
      rcases lookup_insert_some.mp here with ⟨_, rfl⟩ | ⟨_, old⟩
      · exact absurd resolved (idle.2 result carrier)
      · exact (backed.receipts k held result carrier old resolved).mono brings
    case store =>
      exact backed.store.mono (testimony_extends brings (fun _ staged => staged) (fun _ _ shown => shown))
  | advance thread step =>
    simp only [nodeStep]
    split
    · exact backed
    next t phase taken =>
      obtain ⟨held, found, taken⟩ := Option.bind_eq_some_iff.mp taken
      exact backed_advance mounted separates backed found taken
  | enterLockdown => exact backed.of_store rfl rfl (.inl rfl)
  | settleRead key commitmentId =>
    simp only [nodeStep]
    split_ifs
    · exact backed
    · exact backed.of_store rfl rfl (.inl rfl)
  | settleMark key armedEscape =>
    simp only [nodeStep]
    split
    next commitmentId paired _ =>
      cases armedEscape with
      | true => exact backed.of_store rfl rfl (.inr ⟨.invalidateHotConflictsInStore commitmentId, rfl, rfl⟩)
      | false => exact backed.of_store rfl rfl (.inr ⟨.markBroadcast commitmentId, rfl, rfl⟩)
    · exact backed
  | settleRelease key =>
    simp only [nodeStep]
    split
    · exact backed.of_store rfl rfl (.inl rfl)
    · exact backed
  | background op =>
    simp only [nodeStep, onStore, mounted]
    exact backed.of_store rfl rfl (.inr ⟨op, by simpa [NodeOp.unhandled] using own, rfl⟩)

end Steps

end BtcPolicy.Node
