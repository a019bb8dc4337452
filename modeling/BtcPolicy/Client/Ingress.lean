import BtcPolicy.Client.Transport
import BtcPolicy.Node.Payload

/-! The stage-1 ingress client: one signed request offered to the endpoints in order, each under its slice of one
aggregate deadline, with a disposition that says whether the request may have reached a node and never moves back. -/

namespace BtcPolicy.Client
open Bitcoin Http Node

inductive Delivery where
  | definitelyNotSent
  | possiblyDeliveredExact
  deriving DecidableEq, Repr

/-- The transport phase or the status that one attempt reached. -/
inductive Outcome where
  | notSent (error : String)
  | noStatus (error : String)
  | status (status : Nat)
  deriving DecidableEq, Repr

structure EndpointFact (Addr : Type) where
  endpoint : Addr
  outcome : Outcome

structure Ingress (Addr : Type) where
  delivery : Delivery
  accepted : Option Accepted
  attempts : List (EndpointFact Addr)

/-- The view of a `/sign` answer. -/
inductive Answer where
  | accepted (commitmentId : String) (firstSeen remainingSecs : Nat)
  | refusal (code : RefusalCode)
  deriving DecidableEq, Repr

def perEndpoint : Nat := seconds 60

/-- The bytes of a request; serializing these types does not fail. -/
def encodeRequest (request : TaggedRequest) : Bytes := toVec request.toJson

def outcomeOf : Attempt → Outcome
  | .notSent e => .notSent e
  | .noStatus e => .noStatus e
  | .status status _ => .status status

/-- The slice of one endpoint: its own ceiling, never past the aggregate. -/
def sliceOf (aggregate instant : Instant) : Instant := min ((instant.checkedAdd perEndpoint).getD aggregate) aggregate

variable {Addr : Type}

/-- What the loop does after an attempt. -/
inductive Verdict where
  | onward
  | accept (accepted : Accepted)
  | stop

/-- How an attempt is read, with the disposition before it. `fromSlice` is the JSON reader. -/
def rule (fromSlice : Bytes → Option Answer) (expected : String) (prior : Delivery) : Attempt → Verdict
  | .status 200 (some bytes) =>
    match fromSlice bytes with
    | some (.accepted commitmentId firstSeen remainingSecs) =>
      if commitmentId = expected then .accept ⟨expected, firstSeen, remainingSecs⟩ else .onward
    | some (.refusal code) => if code = .nonceReplayed ∧ prior = .possiblyDeliveredExact then .stop else .onward
    | none => .onward
  | _ => .onward

/-- The loop over the endpoints. `post` is the transport. -/
def offerEach (script : Scripted) (fromSlice : Bytes → Option Answer) (expected : String) (aggregate : Instant)
    (body : Bytes) (post : Addr → Bytes → Instant → Net Addr → Attempt × Net Addr) :
    List Addr → Ingress Addr → Net Addr → Ingress Addr × Net Addr
  | [], ingress, net => (ingress, net)
  | addr :: rest, ingress, net =>
    let prior := ingress.delivery
    let (instant, net) := now script net
    let (attempt, net) := post addr body (sliceOf aggregate instant) net
    let ingress := { ingress with
      attempts := ingress.attempts ++ [⟨addr, outcomeOf attempt⟩]
      delivery := if attempt.isNotSent then ingress.delivery else .possiblyDeliveredExact }
    match rule fromSlice expected prior attempt with
    | .accept accepted => ({ ingress with accepted := some accepted }, net)
    | .stop => (ingress, net)
    | .onward => offerEach script fromSlice expected aggregate body post rest ingress net

def offer (script : Scripted) (fromSlice : Bytes → Option Answer) (endpoints : List Addr) (request : TaggedRequest)
    (expected : String) (aggregate : Instant) (post : Addr → Bytes → Instant → Net Addr → Attempt × Net Addr)
    (net : Net Addr) : Ingress Addr × Net Addr :=
  offerEach script fromSlice expected aggregate (encodeRequest request) post endpoints
    ⟨.definitelyNotSent, none, []⟩ net

/-- The bounded exchange under the deadline it is given. -/
def postSigned [ToString Addr] (script : Scripted) (addr : Addr) (body : Bytes) (deadline : Instant) (net : Net Addr) :
    Attempt × Net Addr :=
  bounded script addr (request (toString addr) "/sign" (some body) none) deadline ingressCap net

def deliver [ToString Addr] (script : Scripted) (fromSlice : Bytes → Option Answer) (endpoints : List Addr)
    (request : TaggedRequest) (expected : String) (aggregate : Instant) (net : Net Addr) : Ingress Addr × Net Addr :=
  offer script fromSlice endpoints request expected aggregate (postSigned script) net

/-! ### What an offer leaves -/

theorem sliceOf_val (aggregate instant : Instant) :
    (sliceOf aggregate instant).1 = min (instant.1 + perEndpoint) aggregate.1 := by
  have bound := aggregate.2
  have coe : ∀ a b : Instant, (min a b).1 = min a.1 b.1 := fun a b => by
    rw [min_def, min_def]
    exact apply_ite Subtype.val (a ≤ b) a b
  unfold sliceOf Instant.checkedAdd
  rw [coe]
  split_ifs with representable
  · rfl
  · rw [Option.getD_none]
    omega

theorem rule_accept {fromSlice : Bytes → Option Answer} {expected : String} {prior : Delivery} {attempt : Attempt}
    {accepted : Accepted} (ruled : rule fromSlice expected prior attempt = .accept accepted) :
    ∃ answer, attempt = .status 200 (some answer) ∧ accepted.commitmentId = expected ∧
      fromSlice answer = some (.accepted expected accepted.firstSeen accepted.remainingSecs) := by
  unfold rule at ruled
  split at ruled
  · rename_i bytes
    cases read : fromSlice bytes with
    | none => simp [read] at ruled
    | some answer =>
      cases answer with
      | accepted commitmentId firstSeen remainingSecs =>
        simp only [read] at ruled
        split_ifs at ruled with same
        cases ruled
        exact ⟨bytes, rfl, rfl, by rw [read, same]⟩
      | refusal code =>
        simp only [read] at ruled
        split_ifs at ruled
  · cases ruled

theorem rule_stop {fromSlice : Bytes → Option Answer} {expected : String} {prior : Delivery} {attempt : Attempt}
    (ruled : rule fromSlice expected prior attempt = .stop) :
    ∃ answer, attempt = .status 200 (some answer) ∧ fromSlice answer = some (.refusal .nonceReplayed) ∧
      prior = .possiblyDeliveredExact := by
  unfold rule at ruled
  split at ruled
  · rename_i bytes
    cases read : fromSlice bytes with
    | none => simp [read] at ruled
    | some answer =>
      cases answer with
      | accepted commitmentId firstSeen remainingSecs =>
        simp only [read] at ruled
        split_ifs at ruled
      | refusal code =>
        simp only [read] at ruled
        split_ifs at ruled with replayed
        exact ⟨bytes, rfl, by rw [read, replayed.1], replayed.2⟩
  · cases ruled

/-- One endpoint that was tried: the reading of the clock before it, and what happened under its deadline. -/
structure Exchange (Addr : Type) where
  endpoint : Addr
  reading : Instant
  deadline : Instant
  attempt : Attempt
  events : List (Event Addr)

namespace Exchange

variable (exchange : Exchange Addr)

def log : List (Event Addr) := .reading exchange.reading :: exchange.events

def fact : EndpointFact Addr := ⟨exchange.endpoint, outcomeOf exchange.attempt⟩

variable [ToString Addr]

/-- The transport was given these bytes under the smaller of the reading and 60 seconds, and the aggregate. -/
structure Offered (script : Scripted) (aggregate : Instant) (body : Bytes) : Prop where
  sliced : exchange.deadline.1 = min (exchange.reading.1 + seconds 60) aggregate.1
  ran : ∃ net net', postSigned script exchange.endpoint body exchange.deadline net = (exchange.attempt, net') ∧
    net'.log = net.log ++ exchange.events
  exchanged : Exchanged exchange.endpoint (request (toString exchange.endpoint) "/sign" (some body) none)
    exchange.deadline ingressCap exchange.attempt exchange.events

/-- The endpoint closed a response of status 200 before its deadline, within the cap and correctly framed. -/
structure Answered (answer : Bytes) : Prop where
  closed : ClosedBefore exchange.events exchange.deadline
  within : (received exchange.events).length ≤ ingressCap
  framed : frame (received exchange.events) (toString exchange.endpoint) = .ok (200, answer)

theorem answered {script : Scripted} {aggregate : Instant} {body answer : Bytes}
    (offered : exchange.Offered script aggregate body) (taken : exchange.attempt = .status 200 (some answer)) :
    exchange.Answered answer := by
  obtain ⟨closed, within, framed⟩ := offered.exchanged.whole 200 answer taken
  exact ⟨closed, within, framed⟩

end Exchange

section Loop

variable [ToString Addr] (script : Scripted) (fromSlice : Bytes → Option Answer) (expected : String)
  (aggregate : Instant) (body : Bytes)

/-- What the loop does to the report it is given, through the exchanges it makes. -/
structure Tried (endpoints : List Addr) (before after : Ingress Addr) (exchanges : List (Exchange Addr)) : Prop where
  front : exchanges.map Exchange.endpoint <+: endpoints
  offered : ∀ exchange ∈ exchanges, exchange.Offered script aggregate body
  attempts : after.attempts = before.attempts ++ exchanges.map Exchange.fact
  delivery : after.delivery = .definitelyNotSent ↔
    before.delivery = .definitelyNotSent ∧ ∀ exchange ∈ exchanges, exchange.attempt.isNotSent = true
  accepted : ∀ accepted, after.accepted = some accepted → ∃ earlier last answer, exchanges = earlier ++ [last] ∧
    last.attempt = .status 200 (some answer) ∧ accepted.commitmentId = expected ∧
    fromSlice answer = some (.accepted expected accepted.firstSeen accepted.remainingSecs)
  untried : exchanges.length < endpoints.length → after.accepted.isSome = true ∨
    ∃ earlier last answer, exchanges = earlier ++ [last] ∧
      (before.delivery = .possiblyDeliveredExact ∨ ∃ exchange ∈ earlier, exchange.attempt.isNotSent = false) ∧
      last.attempt = .status 200 (some answer) ∧ fromSlice answer = some (.refusal .nonceReplayed)

theorem offerEach_tried (endpoints : List Addr) {before : Ingress Addr} (fresh : before.accepted = none) (net : Net Addr) :
    ∃ exchanges, (offerEach script fromSlice expected aggregate body (postSigned script) endpoints before net).2.log =
        net.log ++ exchanges.flatMap Exchange.log ∧
      Tried script fromSlice expected aggregate body endpoints before
        (offerEach script fromSlice expected aggregate body (postSigned script) endpoints before net).1 exchanges := by
  induction endpoints generalizing before net with
  | nil =>
    refine ⟨[], by simp [offerEach], List.nil_prefix, by simp, by simp [offerEach], by simp [offerEach], ?_, by simp⟩
    intro accepted taken
    rw [offerEach, fresh] at taken
    cases taken
  | cons addr endpoints ih =>
    rw [offerEach]
    cases ran : postSigned script addr body (sliceOf aggregate (now script net).1) (now script net).2 with
    | mk attempt mid =>
      obtain ⟨events, logged, exchanged⟩ := bounded_exchanged ran
      let exchange : Exchange Addr := ⟨addr, (now script net).1, sliceOf aggregate (now script net).1, attempt, events⟩
      have here : exchange.Offered script aggregate body :=
        ⟨sliceOf_val _ _, ⟨_, mid, ran, logged⟩, exchanged⟩
      have first : mid.log = net.log ++ exchange.log := by
        rw [logged]
        exact List.append_assoc _ _ _
      have told : (if attempt.isNotSent then before.delivery else .possiblyDeliveredExact) = .definitelyNotSent ↔
          before.delivery = .definitelyNotSent ∧ attempt.isNotSent = true := by
        cases attempt.isNotSent with
        | true => simp
        | false => simp
      simp only [ran]
      cases ruled : rule fromSlice expected before.delivery attempt with
      | accept accepted =>
        obtain ⟨answer, taken, names, read⟩ := rule_accept ruled
        refine ⟨[exchange], by simpa using first, ⟨endpoints, rfl⟩, by simpa using here, rfl, ?_, ?_, fun _ => .inl rfl⟩
        · simpa [exchange] using told
        · intro other shown
          cases shown
          exact ⟨[], exchange, answer, rfl, taken, names, read⟩
      | stop =>
        obtain ⟨answer, taken, read, prior⟩ := rule_stop ruled
        refine ⟨[exchange], by simpa using first, ⟨endpoints, rfl⟩, by simpa using here, rfl, ?_, ?_, ?_⟩
        · simpa [exchange] using told
        · intro other shown
          simp only [fresh] at shown
          cases shown
        · exact fun _ => .inr ⟨[], exchange, answer, rfl, .inl prior, taken, read⟩
      | onward =>
        have stays : ({ before with
            attempts := before.attempts ++ [⟨addr, outcomeOf attempt⟩]
            delivery := if attempt.isNotSent then before.delivery else .possiblyDeliveredExact } :
              Ingress Addr).accepted = none := fresh
        obtain ⟨exchanges, later, tried⟩ := ih stays mid
        refine ⟨exchange :: exchanges, ?_, ?_, ?_, ?_, ?_, ?_, ?_⟩
        · rw [later, first, List.flatMap_cons, List.append_assoc]
        · exact List.cons_prefix_cons.mpr ⟨rfl, tried.front⟩
        · exact List.forall_mem_cons.mpr ⟨here, tried.offered⟩
        · rw [tried.attempts, List.map_cons, List.append_assoc]
          rfl
        · rw [tried.delivery, told, List.forall_mem_cons, and_assoc]
        · intro accepted taken
          obtain ⟨earlier, last, answer, rfl, rest⟩ := tried.accepted accepted taken
          exact ⟨exchange :: earlier, last, answer, rfl, rest⟩
        · intro short
          rcases tried.untried (by simpa using short) with accepted | ⟨earlier, last, answer, rfl, prior, rest⟩
          · exact .inl accepted
          · refine .inr ⟨exchange :: earlier, last, answer, rfl, ?_, rest⟩
            rcases prior with before' | ⟨other, member, sent⟩
            · by_cases unsent : attempt.isNotSent = true
              · rw [if_pos unsent] at before'
                exact .inl before'
              · exact .inr ⟨exchange, List.mem_cons_self, by simpa [exchange] using unsent⟩
            · exact .inr ⟨other, List.mem_cons_of_mem _ member, sent⟩

end Loop

/-- The authority to reissue is never overstated: what is reported, endpoint by endpoint, against what happened on the
wire. -/
theorem reissue_authority_is_never_overstated [ToString Addr] (script : Scripted) (fromSlice : Bytes → Option Answer)
    (endpoints : List Addr) (request : TaggedRequest) (expected : String) (aggregate : Instant) (net : Net Addr) :
    ∃ exchanges : List (Exchange Addr),
      let (ingress, after) := deliver script fromSlice endpoints request expected aggregate net
      after.log = net.log ++ exchanges.flatMap Exchange.log ∧
        (ingress.delivery = .definitelyNotSent ↔ ¬Connected (exchanges.flatMap Exchange.log)) ∧
        exchanges.map Exchange.endpoint <+: endpoints ∧
        ingress.attempts = exchanges.map Exchange.fact ∧
        (∀ exchange ∈ exchanges, exchange.Offered script aggregate (encodeRequest request)) ∧
        (∀ accepted, ingress.accepted = some accepted →
          ∃ last answer, exchanges.getLast? = some last ∧ last.Answered answer ∧ accepted.commitmentId = expected ∧
            fromSlice answer = some (.accepted expected accepted.firstSeen accepted.remainingSecs)) ∧
        (exchanges.length < endpoints.length → ingress.accepted.isSome = true ∨
          ∃ earlier last answer, exchanges = earlier ++ [last] ∧ Connected (earlier.flatMap Exchange.log) ∧
            last.Answered answer ∧ fromSlice answer = some (.refusal .nonceReplayed)) ∧
        ∀ exchange ∈ exchanges, ∀ status, strictStatus (received exchange.events) = some status →
          exchange.fact.outcome = .status status := by
  have fresh : (⟨.definitelyNotSent, none, []⟩ : Ingress Addr).accepted = none := rfl
  obtain ⟨exchanges, logged, tried⟩ :=
    offerEach_tried script fromSlice expected aggregate (encodeRequest request) endpoints fresh net
  have silent : ∀ some_exchanges : List (Exchange Addr), (∀ exchange ∈ some_exchanges, exchange ∈ exchanges) →
      (Connected (some_exchanges.flatMap Exchange.log) ↔
        ∃ exchange ∈ some_exchanges, exchange.attempt.isNotSent = false) := by
    intro some_exchanges inside
    have each : ∀ exchange ∈ some_exchanges, exchange.attempt.isNotSent = false ↔ Connected exchange.log := by
      intro exchange member
      rw [← Bool.not_eq_true, (tried.offered exchange (inside exchange member)).exchanged.unsent, not_not]
      simp [Connected, Exchange.log]
    constructor
    · rintro ⟨addr, member⟩
      obtain ⟨exchange, listed, event⟩ := List.mem_flatMap.mp member
      exact ⟨exchange, listed, (each exchange listed).mpr ⟨addr, event⟩⟩
    · rintro ⟨exchange, listed, sent⟩
      obtain ⟨addr, event⟩ := (each exchange listed).mp sent
      exact ⟨addr, List.mem_flatMap.mpr ⟨exchange, listed, event⟩⟩
  refine ⟨exchanges, logged, ?_, tried.front, tried.attempts, tried.offered, ?_, ?_, ?_⟩
  · rw [silent exchanges (fun _ member => member)]
    have reported := tried.delivery
    simp only [true_and] at reported
    refine reported.trans ?_
    push Not
    simp only [ne_eq, Bool.not_eq_false]
  · intro accepted taken
    obtain ⟨earlier, last, answer, rfl, attempt, names, read⟩ := tried.accepted accepted taken
    have member : last ∈ earlier ++ [last] := List.mem_append_right _ List.mem_cons_self
    exact ⟨last, answer, List.getLast?_concat, last.answered (tried.offered last member) attempt, names, read⟩
  · intro short
    rcases tried.untried short with accepted | ⟨earlier, last, answer, rfl, prior, attempt, read⟩
    · exact .inl accepted
    · have member : last ∈ earlier ++ [last] := List.mem_append_right _ List.mem_cons_self
      refine .inr ⟨earlier, last, answer, rfl, ?_, last.answered (tried.offered last member) attempt, read⟩
      rw [silent earlier (fun _ inside => List.mem_append_left _ inside)]
      exact prior.resolve_left (by simp)
  · intro exchange member status read
    obtain ⟨body, attempt⟩ := (tried.offered exchange member).exchanged.known status read
    rw [Exchange.fact, attempt]
    rfl

end BtcPolicy.Client
