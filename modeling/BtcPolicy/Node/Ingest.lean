import BtcPolicy.Alerts
import BtcPolicy.Channel.Guards
import BtcPolicy.Node.Envelope

/-! The ingress of the channel. A body that is not an envelope signed by a peer for this member changes nothing and
costs nobody any quota. A signed one is charged and consumed once, whatever form it comes in and however often; then
its payload is read, and a request in it is handed to the node as it was sent. -/

namespace BtcPolicy.Node
open FiniteMap Word Bitcoin Channel Watchtower Runs

/-- The diagnostics beside the guards. -/
structure Intake where
  guards : IngressGuards
  freshnessCounts : Map Nat Nat
  alerts : AlertQueue

/-- The difference as an `i64`. -/
def skewSecs (timestamp now : Nat) : Int := max (-(2 ^ 63)) (min (2 ^ 63 - 1) ((timestamp : Int) - now))

def Intake.recordFreshnessReject (s : Intake) (sender timestamp now : Nat) : Intake :=
  let count := satAdd ((s.freshnessCounts.lookup sender).getD 0) 1
  { s with
    freshnessCounts := s.freshnessCounts.insert sender count
    alerts := s.alerts.recordFreshness ⟨sender, count, skewSecs timestamp now⟩ now }

/-- What the guards leave of a body: an answer, or an envelope whose payload may be read. -/
inductive Admission where
  | replied (reply : ChannelReply)
  | admitted (o : Opened) (now : Nat) (outerStale : Bool)
  deriving DecidableEq, Repr

inductive Ingested where
  | reply (reply : ChannelReply)
  | staleSpend (sender : Nat) (request : TaggedRequest)
  | request (sender : Nat) (request : TaggedRequest)
  deriving DecidableEq, Repr

/-- The guards' decision. A stale request goes on, with its staleness noted. -/
def Opened.admission (o : Opened) (s : Intake) : IngressGuardResult → Intake × Admission
  | .accepted now => (s, .admitted o now false)
  | .stale now =>
    let noted := s.recordFreshnessReject o.envelope.senderNodeId o.envelope.timestamp now
    if o.envelope.msgType ≠ msgTypeRequest then (noted, .replied (.rejected .staleTimestamp))
    else (noted, .admitted o now true)
  | .replayed => (s, .replied (.rejected .replayedNonce))
  | .rateLimited retryAfterSecs => (s, .replied (.rateLimited retryAfterSecs))

def Opened.call (o : Opened) (nowInput : Nat) : GuardCall :=
  ⟨o.envelope.senderNodeId, o.nonce, o.envelope.timestamp, nowInput⟩

namespace Link

variable (link : Link)

/-- The first part of `ingest`, up to the guards. -/
def screen (s : Intake) (body : Bytes) (nowInput : Nat) : Intake × Admission :=
  match openEnvelope body with
  | none => (s, .replied (.rejected .malformedJson))
  | some o =>
    match link.refuse o with
    | some reason => (s, .replied (.rejected reason))
    | none =>
      let guarded := guardStep link.state.perPeerQuotaPerMin s.guards (o.call nowInput)
      o.admission { s with guards := guarded.1 } guarded.2

/-- The second part: the payload is decoded and dispatched. -/
def dispatch (store : PartialStore) (o : Opened) (now : Nat) (outerStale : Bool) : PartialStore × Ingested :=
  let sender := o.envelope.senderNodeId
  match base64Decode o.envelope.payloadB64.toList with
  | none => (store, .reply (.rejected (if outerStale then .staleTimestamp else .malformedPayload)))
  | some payload =>
    if outerStale then
      match decodeRequest payload with
      | some (.spend request) => (store, .staleSpend sender (.spend request))
      | _ => (store, .reply (.rejected .staleTimestamp))
    else if o.envelope.msgType = msgTypePartial then
      let handled := handlePartial link.state store sender (decodePartial payload) now
      (handled.1, .reply handled.2)
    else if o.envelope.msgType = msgTypeRequest then
      match decodeRequest payload with
      | some request => (store, .request sender request)
      | none => (store, .reply (.rejected .malformedPayload))
    else (store, .reply (.rejected .unknownMsgType))

def ingest (s : Intake) (store : PartialStore) (body : Bytes) (nowInput : Nat) : (Intake × PartialStore) × Ingested :=
  let admitted := link.screen s body nowInput
  match admitted.2 with
  | .replied reply => ((admitted.1, store), .reply reply)
  | .admitted o now outerStale =>
    let dispatched := link.dispatch store o now outerStale
    ((admitted.1, dispatched.1), dispatched.2)

/-! ### What the guards let through -/

/-- The envelope in a body, if it is one that a peer signed for this member. -/
def signed? (body : Bytes) : Option Opened := (openEnvelope body).filter (fun o => (link.refuse o).isNone)

theorem signed?_eq_some {body : Bytes} {o : Opened} :
    link.signed? body = some o ↔ openEnvelope body = some o ∧ link.Signed o := by
  rw [signed?, Option.filter_eq_some_iff, Option.isNone_iff_eq_none, refuse_eq_none]

/-- Any other body is answered, and that is all. -/
theorem screen_unsigned {body : Bytes} (unsigned : link.signed? body = none) (s : Intake) (nowInput : Nat) :
    ∃ reply, link.screen s body nowInput = (s, .replied (.rejected reply)) := by
  unfold screen
  cases opened : openEnvelope body with
  | none => exact ⟨_, rfl⟩
  | some o =>
    cases refused : link.refuse o with
    | some reason =>
      simp only [refused]
      exact ⟨reason, rfl⟩
    | none =>
      have signed := (link.signed?_eq_some).mpr ⟨opened, refuse_eq_none.mp refused⟩
      rw [unsigned] at signed
      cases signed

theorem screen_signed {body : Bytes} {o : Opened} (signed : link.signed? body = some o) (s : Intake) (nowInput : Nat) :
    link.screen s body nowInput =
      o.admission { s with guards := (guardStep link.state.perPeerQuotaPerMin s.guards (o.call nowInput)).1 }
        (guardStep link.state.perPeerQuotaPerMin s.guards (o.call nowInput)).2 := by
  obtain ⟨opened, authentic⟩ := (link.signed?_eq_some).mp signed
  simp only [screen, opened, refuse_eq_none.mpr authentic]

end Link

/-- The guards are the decision's alone. -/
theorem guards_admission (o : Opened) (s : Intake) (result : IngressGuardResult) :
    (o.admission s result).1.guards = s.guards := by
  cases result with
  | stale now =>
    simp only [Opened.admission]
    split_ifs <;> rfl
  | _ => rfl

/-- What is admitted in time the guards have accepted, and what is admitted late is a request. -/
theorem admission_admitted {o o' : Opened} {s : Intake} {result : IngressGuardResult} {now : Nat} {outerStale : Bool}
    (admitted : (o.admission s result).2 = .admitted o' now outerStale) :
    o' = o ∧ (outerStale = false ∧ result = .accepted now ∨
      outerStale = true ∧ result = .stale now ∧ o.envelope.msgType = msgTypeRequest) := by
  cases result with
  | accepted now =>
    cases admitted
    exact ⟨rfl, .inl ⟨rfl, rfl⟩⟩
  | stale now =>
    simp only [Opened.admission] at admitted
    split_ifs at admitted with other
    cases admitted
    exact ⟨rfl, .inr ⟨rfl, rfl, not_not.mp other⟩⟩
  | replayed => cases admitted
  | rateLimited retryAfterSecs => cases admitted

/-! ### Over any sequence of bodies -/

/-- A body with the clock it is taken at. -/
structure Arrival where
  body : Bytes
  nowInput : Nat
  deriving DecidableEq, Repr

/-- The envelope that was let through in time, by its sender, its nonce and its timestamp. -/
def Admission.inTime : Admission → Option (Nat × Bytes × Nat)
  | .admitted o _ false => some (o.envelope.senderNodeId, o.nonce, o.envelope.timestamp)
  | _ => none

namespace Link

variable (link : Link)

def screenStep (s : Intake) (arrival : Arrival) : Intake × Admission := link.screen s arrival.body arrival.nowInput

/-- The guards' call for an arrival, if there is one. -/
def guardCall (arrival : Arrival) : Option GuardCall :=
  (link.signed? arrival.body).map (fun o => o.call arrival.nowInput)

theorem inTime_admission (o : Opened) (s : Intake) (nowInput quotaPerMin : Nat) (guards : IngressGuards) :
    (o.admission s (guardStep quotaPerMin guards (o.call nowInput)).2).2.inTime =
      GuardEvent.acceptedTriple ⟨guards, o.call nowInput, (guardStep quotaPerMin guards (o.call nowInput)).2⟩ := by
  unfold GuardEvent.acceptedTriple
  cases (guardStep quotaPerMin guards (o.call nowInput)).2 with
  | stale now =>
    simp only [Opened.admission]
    split_ifs <;> rfl
  | _ => rfl

/-- What is let through in time is what the guards accept. -/
theorem inTime_trace (s : Intake) (arrivals : List Arrival) :
    (trace link.screenStep s arrivals).filterMap (fun event => event.reply.inTime) =
      (trace (guardStep link.state.perPeerQuotaPerMin) s.guards (arrivals.filterMap link.guardCall)).filterMap
        GuardEvent.acceptedTriple := by
  induction arrivals generalizing s with
  | nil => rfl
  | cons arrival rest ih =>
    rw [trace, List.filterMap_cons, ih, List.filterMap_cons]
    cases signed : link.signed? arrival.body with
    | none =>
      obtain ⟨reply, same⟩ := link.screen_unsigned signed s arrival.nowInput
      simp only [screenStep, guardCall, same, signed, Option.map_none, Admission.inTime]
    | some o =>
      have same := link.screen_signed signed s arrival.nowInput
      have accepted := inTime_admission o
        { s with guards := (guardStep link.state.perPeerQuotaPerMin s.guards (o.call arrival.nowInput)).1 }
        arrival.nowInput link.state.perPeerQuotaPerMin s.guards
      simp only [screenStep, guardCall, same, signed, Option.map_some, guards_admission, trace, List.filterMap_cons,
        accepted]

/-- The run without the arrivals that nobody signed. -/
theorem exec_signed (s : Intake) (arrivals : List Arrival) :
    exec link.screenStep s (arrivals.filter (fun arrival => (link.signed? arrival.body).isSome)) =
      exec link.screenStep s arrivals := by
  induction arrivals generalizing s with
  | nil => rfl
  | cons arrival rest ih =>
    cases signed : link.signed? arrival.body with
    | none =>
      obtain ⟨reply, same⟩ := link.screen_unsigned signed s arrival.nowInput
      rw [List.filter_cons_of_neg (by simp [signed]), ih, exec_cons, screenStep, same]
    | some o => rw [List.filter_cons_of_pos (by simp [signed]), exec_cons, exec_cons, ih]

/-- Only a request is let through late. -/
theorem request_of_late {s : Intake} {body : Bytes} {nowInput now : Nat} {o : Opened}
    (admitted : (link.screen s body nowInput).2 = .admitted o now true) : o.envelope.msgType = msgTypeRequest := by
  cases signed : link.signed? body with
  | none =>
    obtain ⟨reply, same⟩ := link.screen_unsigned signed s nowInput
    rw [same] at admitted
    cases admitted
  | some o' =>
    rw [link.screen_signed signed s nowInput] at admitted
    obtain ⟨rfl, ⟨never, _⟩ | ⟨_, _, request⟩⟩ := admission_admitted admitted
    · cases never
    · exact request

theorem signed_of_admitted {s : Intake} {body : Bytes} {nowInput now : Nat} {o : Opened} {outerStale : Bool}
    (admitted : (link.screen s body nowInput).2 = .admitted o now outerStale) :
    openEnvelope body = some o ∧ link.Signed o := by
  rw [← signed?_eq_some]
  cases signed : link.signed? body with
  | none =>
    obtain ⟨reply, same⟩ := link.screen_unsigned signed s nowInput
    rw [same] at admitted
    cases admitted
  | some o' =>
    rw [link.screen_signed signed s nowInput] at admitted
    rw [(admission_admitted admitted).1]

end Link

namespace Sample
open Channel.Sample

def link : Link := ⟨signingChannel, leBytes 32 9, [nodeKey 0, nodeKey 1, nodeKey 2], rfl⟩

def intake : Intake := ⟨IngressGuards.empty, ∅, AlertQueue.new 4⟩

def share : PartialPayload := partialPayload 1

def unsignedDraw : EnvelopeDraw := ⟨leBytes 32 7, leBytes 32 9, 1, 0, 1000, List.replicate 16 5, []⟩

/-- Member 1 writes to member 0. -/
def signedDraw (payload : Bytes) : EnvelopeDraw :=
  { unsignedDraw with
    channelSig := nodeKey 1 ++ envelopeDigest signingLibrary (openedOf msgTypePartial payload unsignedDraw).fields }

def draw : EnvelopeDraw := signedDraw (partialBytes share)

def letter : Bytes := envelopeBody (buildEnvelope msgTypePartial (partialBytes share) draw)

end Sample

/-- Over every sequence of bodies: what is let through is an envelope signed by a peer for this member, no envelope is
let through in time twice, in whatever form its body comes, and the bodies that nobody signed might as well not have
come. -/
theorem admitted_once (link : Link) {start : Intake} (fresh : start.guards = IngressGuards.empty)
    (arrivals : List Arrival) :
    (∀ event ∈ trace link.screenStep start arrivals, ∀ o now outerStale, event.reply = .admitted o now outerStale →
        openEnvelope event.action.body = some o ∧ link.Signed o) ∧
      ((trace link.screenStep start arrivals).filterMap (fun event => event.reply.inTime)).Nodup ∧
      exec link.screenStep start arrivals =
        exec link.screenStep start (arrivals.filter (fun arrival => (link.signed? arrival.body).isSome)) := by
  refine ⟨?_, ?_, (link.exec_signed start arrivals).symm⟩
  · intro event member o now outerStale admitted
    rw [reply_of_mem_trace _ member] at admitted
    exact link.signed_of_admitted admitted
  · rw [link.inTime_trace, fresh]
    exact acceptedTriples_nodup _ _

theorem admitted_once_sample :
    ((trace Sample.link.screenStep Sample.intake [⟨Sample.letter, 1000⟩, ⟨Sample.letter, 1001⟩]).filterMap
      (fun event => event.reply.inTime)).Nodup :=
  (admitted_once Sample.link (show Sample.intake.guards = IngressGuards.empty from rfl) _).2.1

/-! ### What a peer sends -/

/-- What a member sends to a peer: a request it has staged, or one of its shares. -/
inductive Message where
  | request (request : TaggedRequest)
  | share (p : PartialPayload)
  deriving DecidableEq, Repr

namespace Message

def msgType : Message → String
  | .request _ => msgTypeRequest
  | .share _ => msgTypePartial

def payload : Message → Bytes
  | .request staged => requestPayload staged
  | .share p => partialBytes p

/-- The numbers fit their types. -/
def Typed : Message → Prop
  | .request staged => staged.Typed
  | .share p => PartialTyped p

/-- The body that is posted, and the envelope in it. -/
def body (message : Message) (draw : EnvelopeDraw) : Bytes :=
  envelopeBody (buildEnvelope message.msgType message.payload draw)

def opened (message : Message) (draw : EnvelopeDraw) : Opened := openedOf message.msgType message.payload draw

end Message

theorem msgTypePartial_ne_request : msgTypePartial ≠ msgTypeRequest := by decide

namespace Link

variable (link : Link)

/-- What a message that is let through comes to. -/
def takes (store : PartialStore) (sender now : Nat) : Bool → Message → PartialStore × Ingested
  | false, .request staged => (store, .request sender staged)
  | false, .share p => ((handlePartial link.state store sender (some p) now).1,
      .reply (handlePartial link.state store sender (some p) now).2)
  | true, .request (.spend staged) => (store, .staleSpend sender (.spend staged))
  | true, _ => (store, .reply (.rejected .staleTimestamp))

/-- An envelope that carries a message is dispatched as the message. -/
theorem dispatch_message {o : Opened} {message : Message} (typed : message.Typed)
    (type : o.envelope.msgType = message.msgType)
    (carried : base64Decode o.envelope.payloadB64.toList = some message.payload) (store : PartialStore) (now : Nat)
    {outerStale : Bool} (late : outerStale = true → o.envelope.msgType = msgTypeRequest) :
    link.dispatch store o now outerStale = link.takes store o.envelope.senderNodeId now outerStale message := by
  unfold dispatch
  rw [carried]
  cases message with
  | request staged =>
    have read : decodeRequest (Message.request staged).payload = some staged := decodeRequest_requestPayload typed
    have this : o.envelope.msgType = msgTypeRequest := type
    have other : o.envelope.msgType ≠ msgTypePartial := by
      rw [this]
      exact msgTypePartial_ne_request.symm
    cases outerStale with
    | true =>
      simp only [if_true, read]
      cases staged <;> rfl
    | false =>
      simp only [Bool.false_eq_true, if_false]
      rw [if_neg other, if_pos this, read]
      rfl
  | share p =>
    have read : decodePartial (Message.share p).payload = some p := decodePartial_partialBytes typed
    have this : o.envelope.msgType = msgTypePartial := type
    cases outerStale with
    | true => exact absurd (this.symm.trans (late rfl)) msgTypePartial_ne_request
    | false =>
      simp only [Bool.false_eq_true, if_false]
      rw [if_pos this, read]
      rfl

/-- What a payload may come to, whoever sent it. -/
inductive Dispatched (store : PartialStore) (sender : Nat) : PartialStore × Ingested → Prop where
  | request (request : TaggedRequest) : Dispatched store sender (store, .request sender request)
  | staleSpend (request : TaggedRequest) : Dispatched store sender (store, .staleSpend sender request)
  | answered (reply : ChannelReply) : Dispatched store sender (store, .reply reply)
  | accepted (p : ParsedPartial) (now : Nat) (reply : ChannelReply) :
    Dispatched store sender ((PartialStore.acceptPartial link.state.lib store p link.state.nodes now).1, .reply reply)

theorem dispatch_cases (store : PartialStore) (o : Opened) (now : Nat) (outerStale : Bool) :
    link.Dispatched store o.envelope.senderNodeId (link.dispatch store o now outerStale) := by
  have share : ∀ payload, link.Dispatched store o.envelope.senderNodeId
      ((handlePartial link.state store o.envelope.senderNodeId payload now).1,
        .reply (handlePartial link.state store o.envelope.senderNodeId payload now).2) := by
    intro payload
    unfold handlePartial
    split
    · exact .answered _
    · split
      · split_ifs
        · exact .answered _
        · exact .answered _
        · exact .answered _
        · exact .accepted _ _ _
      · exact .answered _
  unfold dispatch
  cases base64Decode o.envelope.payloadB64.toList with
  | none => exact .answered _
  | some payload =>
    simp only
    split_ifs
    · split
      · exact .staleSpend _
      · exact .answered _
    · exact share _
    · split
      · exact .request _
      · exact .answered _
    · exact .answered _

theorem ingest_unsigned {body : Bytes} (unsigned : link.signed? body = none) (s : Intake) (store : PartialStore)
    (nowInput : Nat) : ∃ reason, link.ingest s store body nowInput = ((s, store), .reply (.rejected reason)) := by
  obtain ⟨reason, same⟩ := link.screen_unsigned unsigned s nowInput
  refine ⟨reason, ?_⟩
  simp only [ingest, same]

end Link

/-- What a member sends is what its peer takes in, unless its peer turns it away: the envelope of a message is let
through only to the member, the vault and the manifest it was signed for, and there it comes to that message, in time
or late. Anywhere else it changes nothing. -/
theorem sent_is_ingested (link : Link) {message : Message} (typed : message.Typed) {draw : EnvelopeDraw}
    (drawn : draw.Typed) (s : Intake) (store : PartialStore) (nowInput : Nat) :
    (¬link.Signed (message.opened draw) → ∃ reason,
        link.ingest s store (message.body draw) nowInput = ((s, store), .reply (.rejected reason))) ∧
      ∀ now outerStale, link.Signed (message.opened draw) →
        (guardStep link.state.perPeerQuotaPerMin s.guards ((message.opened draw).call nowInput)).2 =
          (if outerStale then .stale now else .accepted now) →
        (link.ingest s store (message.body draw) nowInput).1.2 =
            (link.takes store draw.nodeId now outerStale message).1 ∧
          (link.ingest s store (message.body draw) nowInput).2 =
            (link.takes store draw.nodeId now outerStale message).2 := by
  have opened : openEnvelope (message.body draw) = some (message.opened draw) :=
    openEnvelope_build drawn message.msgType message.payload
  have carried : base64Decode (message.opened draw).envelope.payloadB64.toList = some message.payload :=
    (carried_of_fields (o := message.opened draw) rfl).2.2
  refine ⟨?_, ?_⟩
  · intro unsigned
    apply link.ingest_unsigned
    rw [Option.eq_none_iff_forall_ne_some]
    intro o same
    obtain ⟨here, signed⟩ := link.signed?_eq_some.mp same
    rw [opened] at here
    cases here
    exact unsigned signed
  · intro now outerStale signed decided
    have through := link.screen_signed (link.signed?_eq_some.mpr ⟨opened, signed⟩) s nowInput
    cases outerStale with
    | false =>
      rw [decided] at through
      have dispatched : link.dispatch store (message.opened draw) now false =
          link.takes store draw.nodeId now false message :=
        link.dispatch_message typed rfl carried store now (fun late => absurd late Bool.false_ne_true)
      simp only [Link.ingest, through, Opened.admission, Bool.false_eq_true, if_false, dispatched, and_self]
    | true =>
      rw [decided] at through
      cases message with
      | share p =>
        have other : (Message.opened (.share p) draw).envelope.msgType ≠ msgTypeRequest := msgTypePartial_ne_request
        simp only [Link.ingest, through, Opened.admission, if_true, if_pos other]
        exact ⟨rfl, rfl⟩
      | request staged =>
        have this : (Message.opened (.request staged) draw).envelope.msgType = msgTypeRequest := rfl
        have dispatched : link.dispatch store (Message.opened (.request staged) draw) now true =
            link.takes store draw.nodeId now true (.request staged) :=
          link.dispatch_message typed rfl carried store now (fun _ => this)
        simp only [Link.ingest, through, Opened.admission, if_true, if_neg (not_not.mpr this), dispatched, and_self]

namespace Sample
open Channel.Sample

theorem draw_typed : draw.Typed := by
  refine ⟨by decide, by decide, by decide, by decide, by decide, by decide, ?_⟩
  simp [draw, signedDraw, envelopeDigest, signingLibrary, Channel.Sample.library, nodeKey, maxEcdsaDerBytes]

theorem share_typed : (Message.share share).Typed := by
  show PartialTyped share
  exact ⟨by decide, by decide, by decide⟩

theorem verified (payload : Bytes) :
    link.verifies (nodeKey 1) (openedOf msgTypePartial payload (signedDraw payload)) = true :=
  decide_eq_true rfl

theorem signed : link.Signed ((Message.share share).opened draw) where
  version := rfl
  wallet := rfl
  manifest := rfl
  recipient := rfl
  peer := by decide
  signature := ⟨nodeKey 1, rfl, verified (partialBytes share)⟩

end Sample

theorem sent_is_ingested_sample :
    (Sample.link.ingest Sample.intake (initialStore Channel.Sample.config) Sample.letter 1000).2 =
      (Sample.link.takes (initialStore Channel.Sample.config) 1 1000 false (.share Sample.share)).2 :=
  ((sent_is_ingested Sample.link Sample.share_typed Sample.draw_typed Sample.intake _ 1000).2 1000 false Sample.signed
    (by decide)).2

end BtcPolicy.Node
