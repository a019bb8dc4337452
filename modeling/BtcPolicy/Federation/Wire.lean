import BtcPolicy.Federation.Holders
import BtcPolicy.Lib.Refinement
import BtcPolicy.Node.Ingest

/-! The federation on the wire. Members post envelopes to each other, and anyone may post any bytes to any of them, the
bytes of an envelope that was posted before among them. As long as nobody signs for an honest member with its channel
key, what the members do is a run of the network of authenticated channels. -/

namespace BtcPolicy.Federation
open FiniteMap Bitcoin Hex Channel Node NodeConfig PartialStore Runs Network Refinement
open Manifest (EnvelopeFields envelopePreimage envelopePreimage_injective)

/-- A member with its link. -/
structure Wired (i : Nat) extends Member i where
  link : Link
  linked : link.state = ch

/-- A member on the wire: the node, the guards of its ingress, the envelopes they have let through, and those it has
signed. -/
structure Station where
  world : World
  intake : Intake
  admitted : Map Nat (Opened × Nat × Bool)
  signed : List EnvelopeFields

/-- What happens at a member: a step of its node, an envelope that is built for a peer, a body that is posted to it, and
the second part of the ingress. `draw` holds the recipient, the time, the nonce and the signature. -/
inductive WireOp where
  | node (op : NodeOp)
  | send (message : Message) (draw : EnvelopeDraw)
  | receive (thread : Nat) (body : Bytes) (nowInput : Nat)
  | deliver (thread : Nat)

/-- What `build_envelope` takes from the channel state. -/
def stamped (link : Link) (draw : EnvelopeDraw) : EnvelopeDraw :=
  { draw with walletId := link.state.walletId, manifestHash := link.manifestHash, nodeId := link.state.nodeId }

/-- A request goes out of the outbox. -/
def staged (w : World) : Message → Bool
  | .request request => decide (request ∈ w.node.outbox)
  | .share _ => true

/-- What the node does with an envelope that was dispatched. -/
def handOn (node : NodeConfig) (thread : Nat) (dispatched : PartialStore × Ingested) (w : World) : World :=
  let w := { w with node := { w.node with store := dispatched.1 } }
  match dispatched.2 with
  | .reply _ => w
  | .request sender request => (node.nodeStep w (.arrive thread (.relayed sender) request)).1
  | .staleSpend sender request => (node.nodeStep w (.arrive thread (.outerStale sender) request)).1

def Wired.step {i : Nat} (m : Wired i) (p : Station) : WireOp → Station × Unit
  | .node op => ({ p with world := (m.node.nodeStep p.world op).1 }, ())
  | .send message draw =>
    if staged p.world message then
      ({ p with signed := (message.opened (stamped m.link draw)).fields :: p.signed }, ())
    else (p, ())
  | .receive thread body nowInput =>
    let admitted := m.link.screen p.intake body nowInput
    match admitted.2 with
    | .replied _ => ({ p with intake := admitted.1 }, ())
    | .admitted o now outerStale =>
      ({ p with intake := admitted.1, admitted := p.admitted.insert thread (o, now, outerStale) }, ())
  | .deliver thread =>
    match p.admitted.lookup thread with
    | none => (p, ())
    | some (o, now, outerStale) =>
      ({ p with
          world := handOn m.node thread (m.link.dispatch p.world.node.store o now outerStale) p.world
          admitted := p.admitted.erase thread }, ())

/-- The envelope that a body claims to bring, with its sender. -/
def WireOp.hears : WireOp → Option (Nat × EnvelopeFields)
  | .receive _ body _ => (openEnvelope body).map (fun o => (o.envelope.senderNodeId, o.fields))
  | _ => none

theorem signed_step {i : Nat} (m : Wired i) (p : Station) (op : WireOp) {fields : EnvelopeFields}
    (member : fields ∈ p.signed) : fields ∈ (m.step p op).1.signed := by
  cases op with
  | node op => exact member
  | send message draw =>
    simp only [Wired.step]
    split_ifs
    · exact List.mem_cons_of_mem _ member
    · exact member
  | receive thread body nowInput =>
    simp only [Wired.step]
    split <;> exact member
  | deliver thread =>
    simp only [Wired.step]
    split <;> exact member

theorem signed_send {i : Nat} (m : Wired i) {p : Station} {message : Message} {draw : EnvelopeDraw}
    (ready : staged p.world message = true) :
    (message.opened (stamped m.link draw)).fields ∈ (m.step p (.send message draw)).1.signed := by
  rw [Wired.step, if_pos ready]
  exact List.mem_cons_self

/-- The members on the wire: what one says is what it has signed. -/
def wire (members : ∀ i, Wired i) : Members Nat Station WireOp Unit EnvelopeFields where
  step i := (members i).step
  said p := { fields | fields ∈ p.signed }
  hears := WireOp.hears
  keeps i p op _ member := signed_step (members i) p op member

variable (members : ∀ i, Wired i) (corrupt : Finset Nat)

/-- Nobody but an honest member signs with its key: a body that verifies under it holds an envelope which that member
has signed. -/
def Unforged (w : Nat → Station) (i : Nat) (body : Bytes) : Prop :=
  ∀ o, openEnvelope body = some o → o.envelope.senderNodeId ∉ corrupt →
    ∀ key, (members i).link.channelKeys[o.envelope.senderNodeId]? = some key → (members i).link.verifies key o = true →
      ∃ fields ∈ (w o.envelope.senderNodeId).signed, envelopePreimage fields = envelopePreimage o.fields

/-- What may happen at an honest member. Requests from its peers come to its node over the wire only. What is sent is
of its type, and no payload or body takes gigabytes. -/
def Lawful (w : Nat → Station) (action : Nat × WireOp) : Prop :=
  action.1 ∉ corrupt ∧
    match action.2 with
    | .node op => op.unhandled = true ∧ op.hears = none
    | .send message draw =>
      message.Typed ∧ (stamped (members action.1).link draw).Typed ∧ message.payload.length < 3 * 2 ^ 30 - 2
    | .receive _ body _ => body.length < 2 ^ 32 ∧ Unforged members corrupt w action.1 body
    | .deliver _ => True

def wireGenesis (start : Nat → NodeState) (intakes : Nat → Intake) (i : Nat) : Station :=
  ⟨genesis (fun i => (members i).toMember) start i, intakes i, ∅, []⟩

/-- The nodes, without their ingress. -/
def worlds (w : Nat → Station) (i : Nat) : World := (w i).world

/-- An envelope as an honest member signs it, around a message out of its outbox. -/
def Sealed (outbox : List TaggedRequest) (fields : EnvelopeFields) : Prop :=
  fields.Encodable ∧ ∃ message : Message, ∃ draw, fields = (message.opened draw).fields ∧ message.Typed ∧
    ∀ request, message = .request request → request ∈ outbox

/-- Every honest member has signed messages out of its outbox, and what its ingress has let through from another honest
member that one has signed. -/
structure Faithful (w : Nat → Station) : Prop where
  signed : ∀ i ∉ corrupt, ∀ fields ∈ (w i).signed, Sealed (w i).world.node.outbox fields
  late : ∀ i ∉ corrupt, ∀ thread o now, (w i).admitted.lookup thread = some (o, now, true) →
    o.envelope.msgType = msgTypeRequest
  admitted : ∀ i ∉ corrupt, ∀ thread o now outerStale, (w i).admitted.lookup thread = some (o, now, outerStale) →
    o.envelope.senderNodeId ∉ corrupt → o.fields ∈ (w o.envelope.senderNodeId).signed

variable {members corrupt}

theorem outbox_handOn {i : Nat} (m : Member i) (thread : Nat) (dispatched : PartialStore × Ingested) (w : World)
    {request : TaggedRequest} (member : request ∈ w.node.outbox) :
    request ∈ (handOn m.node thread dispatched w).node.outbox := by
  unfold handOn
  cases dispatched.2 with
  | reply reply => exact member
  | request sender request' => exact outbox_nodeStep m { w with node := { w.node with store := dispatched.1 } } _ member
  | staleSpend sender request' =>
    exact outbox_nodeStep m { w with node := { w.node with store := dispatched.1 } } _ member

theorem outbox_step {i : Nat} (m : Wired i) (p : Station) (op : WireOp) {request : TaggedRequest}
    (member : request ∈ p.world.node.outbox) : request ∈ (m.step p op).1.world.node.outbox := by
  cases op with
  | node op => exact outbox_nodeStep m.toMember p.world op member
  | send message draw =>
    simp only [Wired.step]
    split_ifs <;> exact member
  | receive thread body nowInput =>
    simp only [Wired.step]
    split <;> exact member
  | deliver thread =>
    simp only [Wired.step]
    split
    · exact member
    · exact outbox_handOn m.toMember _ _ _ member

/-- What comes through the ingress of an honest member under the name of another honest member is from there. -/
theorem genuine {w : Nat → Station} (faithful : Faithful corrupt w) {i : Nat} {body : Bytes}
    (short : body.length < 2 ^ 32) (unforged : Unforged members corrupt w i body) {intake : Intake}
    {nowInput now : Nat} {o : Opened} {outerStale : Bool}
    (admitted : ((members i).link.screen intake body nowInput).2 = .admitted o now outerStale)
    (honest : o.envelope.senderNodeId ∉ corrupt) : o.fields ∈ (w o.envelope.senderNodeId).signed := by
  obtain ⟨opened, authentic⟩ := (members i).link.signed_of_admitted admitted
  obtain ⟨key, endorsed, verified⟩ := authentic.signature
  obtain ⟨fields, member, same⟩ := unforged o opened honest key endorsed verified
  have encodable := (faithful.signed _ honest fields member).1
  rwa [← envelopePreimage_injective encodable (encodable_of_open opened short) same]

/-- A request that is handed on, with its sender. -/
def handed : Ingested → Option (Nat × TaggedRequest)
  | .reply _ => none
  | .request sender request | .staleSpend sender request => some (sender, request)

/-- From an envelope that an honest member has sealed nothing is handed on but what its outbox has. -/
theorem staged_of_sealed {outbox : List TaggedRequest} {o : Opened} (shut : Sealed outbox o.fields) {link : Link}
    {store : PartialStore} {now sender : Nat} {outerStale : Bool} {request : TaggedRequest}
    (late : outerStale = true → o.envelope.msgType = msgTypeRequest)
    (out : handed (link.dispatch store o now outerStale).2 = some (sender, request)) : request ∈ outbox := by
  obtain ⟨_, message, draw, same, typed, staged⟩ := shut
  obtain ⟨type, _, carried⟩ := carried_of_fields same
  rw [link.dispatch_message typed type carried store now late] at out
  cases message with
  | request message =>
    apply staged
    cases outerStale with
    | false =>
      cases out
      rfl
    | true =>
      cases message with
      | spend spend =>
        cases out
        rfl
      | refresh refresh => cases out
  | share p => cases outerStale <;> cases out

theorem Sealed.mono {outbox outbox' : List TaggedRequest} {fields : EnvelopeFields} (shut : Sealed outbox fields)
    (more : ∀ request ∈ outbox, request ∈ outbox') : Sealed outbox' fields := by
  obtain ⟨encodable, message, draw, same, typed, staged⟩ := shut
  exact ⟨encodable, message, draw, same, typed, fun request is => more request (staged request is)⟩

theorem short_msgType (message : Message) : (utf8 message.msgType).length < 2 ^ 32 := by
  cases message with
  | request request =>
    show (utf8 msgTypeRequest).length < 2 ^ 32
    decide
  | share p =>
    show (utf8 msgTypePartial).length < 2 ^ 32
    decide

/-- What an honest member signs is sealed. -/
theorem sealed_of_signed {i : Nat} (m : Wired i) {p : Station} {op : WireOp}
    (legal : ∀ message draw, op = .send message draw →
      message.Typed ∧ (stamped m.link draw).Typed ∧ message.payload.length < 3 * 2 ^ 30 - 2)
    (old : ∀ fields ∈ p.signed, Sealed p.world.node.outbox fields) :
    ∀ fields ∈ (m.step p op).1.signed, Sealed p.world.node.outbox fields := by
  intro fields member
  cases op with
  | node op => exact old fields member
  | send message draw =>
    simp only [Wired.step] at member
    split_ifs at member with asked
    · rcases List.mem_cons.mp member with rfl | before
      · obtain ⟨typed, drawn, short⟩ := legal message draw rfl
        refine ⟨encodable_build drawn (short_msgType message) short, message, _, rfl, typed, ?_⟩
        intro request same
        rw [same] at asked
        exact of_decide_eq_true asked
      · exact old fields before
    · exact old fields member
  | receive thread body nowInput =>
    simp only [Wired.step] at member
    split at member <;> exact old fields member
  | deliver thread =>
    simp only [Wired.step] at member
    split at member <;> exact old fields member

/-- What waits at a member was there, or has just come through its ingress. -/
theorem admitted_step {i : Nat} (m : Wired i) {p : Station} {op : WireOp} {thread : Nat} {o : Opened} {now : Nat}
    {outerStale : Bool} (waits : (m.step p op).1.admitted.lookup thread = some (o, now, outerStale)) :
    p.admitted.lookup thread = some (o, now, outerStale) ∨
      ∃ body nowInput, op = .receive thread body nowInput ∧
        (m.link.screen p.intake body nowInput).2 = .admitted o now outerStale := by
  cases op with
  | node op => exact .inl waits
  | send message draw =>
    simp only [Wired.step] at waits
    split_ifs at waits <;> exact .inl waits
  | receive thread' body nowInput =>
    simp only [Wired.step] at waits
    split at waits
    · exact .inl waits
    next through =>
      rcases lookup_insert_some.mp waits with ⟨rfl, same⟩ | ⟨_, before⟩
      · cases same
        exact .inr ⟨body, nowInput, rfl, through⟩
      · exact .inl before
  | deliver thread' =>
    simp only [Wired.step] at waits
    split at waits
    · exact .inl waits
    · exact .inl ((lookup_erase_some.mp waits).2)

/-- Every step of the wire keeps the stations faithful. -/
theorem faithful_step {w : Nat → Station} {action : Nat × WireOp} (lawful : Lawful members corrupt w action)
    (faithful : Faithful corrupt w) : Faithful corrupt ((wire members).netStep w action).1 := by
  obtain ⟨mover, op⟩ := action
  obtain ⟨honest, legal⟩ := lawful
  have mine : ((wire members).netStep w (mover, op)).1 mover = ((members mover).step (w mover) op).1 :=
    Members.netStep_self w (mover, op)
  have others : ∀ i, i ≠ mover → ((wire members).netStep w (mover, op)).1 i = w i :=
    fun i other => Members.netStep_other w other
  have kept : ∀ j, (wire members).said (w j) ⊆ (wire members).said (((wire members).netStep w (mover, op)).1 j) :=
    fun j => Members.said_netStep w (mover, op) j
  constructor
  · intro i uncorrupt fields member
    by_cases same : i = mover
    · subst same
      rw [mine] at member ⊢
      refine Sealed.mono (sealed_of_signed (members i) ?_ (faithful.signed i uncorrupt) fields member)
        (fun request listed => outbox_step (members i) (w i) op listed)
      rintro message draw rfl
      exact legal
    · rw [others i same] at member ⊢
      exact faithful.signed i uncorrupt fields member
  · intro i uncorrupt thread o now waits
    by_cases same : i = mover
    · subst same
      rw [mine] at waits
      rcases admitted_step (members i) waits with before | ⟨body, nowInput, rfl, through⟩
      · exact faithful.late i uncorrupt thread o now before
      · exact (members i).link.request_of_late through
    · rw [others i same] at waits
      exact faithful.late i uncorrupt thread o now waits
  · intro i uncorrupt thread o now outerStale waits sender
    apply kept
    by_cases same : i = mover
    · subst same
      rw [mine] at waits
      rcases admitted_step (members i) waits with before | ⟨body, nowInput, rfl, through⟩
      · exact faithful.admitted i uncorrupt thread o now outerStale before sender
      · exact genuine faithful legal.1 legal.2 through sender
    · rw [others i same] at waits
      exact faithful.admitted i uncorrupt thread o now outerStale waits sender

/-! ### The wire refines the network -/

theorem worlds_netStep (w : Nat → Station) (action : Nat × WireOp) :
    worlds ((wire members).netStep w action).1 =
      Function.update (worlds w) action.1 ((members action.1).step (w action.1) action.2).1.world := by
  funext i
  by_cases same : i = action.1
  · subst same
    simp only [worlds, Members.netStep_self, Function.update_self, wire]
  · simp only [worlds, Members.netStep_other w same, Function.update_of_ne same]

/-- One step of the node that owns it. -/
theorem worlds_step {w : Nat → Station} {i : Nat} {op : NodeOp} {world : World}
    (same : world = ((members i).node.nodeStep (w i).world op).1) :
    Function.update (worlds w) i world =
      ((network (fun i => (members i).toMember)).netStep (worlds w) (i, op)).1 := by
  rw [same]
  rfl

/-- What leaves the node of the mover alone, the network does not see. -/
theorem worlds_still {w : Nat → Station} {i : Nat} {op : WireOp}
    (still : ((members i).step (w i) op).1.world = (w i).world) :
    worlds ((wire members).netStep w (i, op)).1 = worlds w := by
  rw [worlds_netStep, still]
  exact Function.update_eq_self i (worlds w)

theorem worlds_send (w : Nat → Station) (i : Nat) (message : Message) (draw : EnvelopeDraw) :
    worlds ((wire members).netStep w (i, .send message draw)).1 = worlds w := by
  apply worlds_still
  simp only [Wired.step]
  split_ifs <;> rfl

theorem worlds_receive (w : Nat → Station) (i thread : Nat) (body : Bytes) (nowInput : Nat) :
    worlds ((wire members).netStep w (i, .receive thread body nowInput)).1 = worlds w := by
  apply worlds_still
  simp only [Wired.step]
  split <;> rfl

theorem worlds_deliver {w : Nat → Station} {i thread : Nat} {o : Opened} {now : Nat} {outerStale : Bool}
    (waits : (w i).admitted.lookup thread = some (o, now, outerStale)) :
    worlds ((wire members).netStep w (i, .deliver thread)).1 = Function.update (worlds w) i
      (handOn (members i).node thread ((members i).link.dispatch (w i).world.node.store o now outerStale) (w i).world) := by
  rw [worlds_netStep]
  simp only [Wired.step, waits]

/-- The second part of the ingress is a step of the node, or none. -/
theorem comes_deliver {w : Nat → Station} (faithful : Faithful corrupt w) {i : Nat} (honest : i ∉ corrupt)
    {thread : Nat} {o : Opened} {now : Nat} {outerStale : Bool}
    (waits : (w i).admitted.lookup thread = some (o, now, outerStale)) :
    ∃ actions, Allowed (network (fun i => (members i).toMember)).netStep
        ((network (fun i => (members i).toMember)).Authentic { j | j ∉ corrupt } (fun _ op => op.unhandled = true))
        (worlds w) actions ∧
      exec (network (fun i => (members i).toMember)).netStep (worlds w) actions =
        worlds ((wire members).netStep w (i, .deliver thread)).1 := by
  have late : outerStale = true → o.envelope.msgType = msgTypeRequest := by
    rintro rfl
    exact faithful.late i honest thread o now waits
  have genuine : ∀ request, handed ((members i).link.dispatch (w i).world.node.store o now outerStale).2 =
      some (o.envelope.senderNodeId, request) → o.envelope.senderNodeId ∈ { j | j ∉ corrupt } →
      request ∈ (worlds w o.envelope.senderNodeId).node.outbox := by
    intro request out sender
    have signed := faithful.admitted i honest thread o now outerStale waits sender
    exact staged_of_sealed (faithful.signed _ sender o.fields signed) late out
  have delivered : worlds ((wire members).netStep w (i, .deliver thread)).1 = _ := worlds_deliver waits
  have outcomes := (members i).link.dispatch_cases (w i).world.node.store o now outerStale
  generalize (members i).link.dispatch (w i).world.node.store o now outerStale = dispatched at outcomes genuine delivered
  cases outcomes with
  | request request =>
    refine seen (a := (i, .arrive thread (.relayed o.envelope.senderNodeId) request)) ⟨honest, rfl, ?_⟩
      (delivered.trans (worlds_step rfl))
    intro j m heard
    cases heard
    exact genuine request rfl
  | staleSpend request =>
    refine seen (a := (i, .arrive thread (.outerStale o.envelope.senderNodeId) request)) ⟨honest, rfl, ?_⟩
      (delivered.trans (worlds_step rfl))
    intro j m heard
    cases heard
    exact genuine request rfl
  | answered reply => exact unseen (delivered.trans (Function.update_eq_self i (worlds w)))
  | accepted p time reply =>
    refine seen (a := (i, .background (.acceptPartial p time))) ⟨honest, rfl, ?_⟩ (delivered.trans (worlds_step ?_))
    · intro j m heard
      cases heard
    · simp only [handOn, nodeStep, onStore, (members i).mounted, storeStep, ← (members i).linked]

theorem wire_refines :
    Refines (wire members).netStep (Lawful members corrupt) (network (fun i => (members i).toMember)).netStep
      ((network (fun i => (members i).toMember)).Authentic { j | j ∉ corrupt } (fun _ op => op.unhandled = true))
      worlds (Faithful corrupt) where
  keep w action lawful faithful := faithful_step lawful faithful
  comes w action lawful faithful := by
    obtain ⟨mover, op⟩ := action
    obtain ⟨honest, legal⟩ := lawful
    cases op with
    | node op =>
      refine seen (a := (mover, op)) ⟨honest, legal.1, ?_⟩ ((worlds_netStep w (mover, .node op)).trans (worlds_step rfl))
      intro j m heard
      have silent := legal.2.symm.trans heard
      cases silent
    | send message draw => exact unseen (worlds_send w mover message draw)
    | receive thread body nowInput => exact unseen (worlds_receive w mover thread body nowInput)
    | deliver thread =>
      cases waits : (w mover).admitted.lookup thread with
      | none =>
        refine unseen (worlds_still ?_)
        simp only [Wired.step, waits]
      | some waiting =>
        obtain ⟨o, now, outerStale⟩ := waiting
        exact comes_deliver faithful honest waits

/-- A run that has begun: no member has signed or let through anything. -/
theorem faithful_genesis (start : Nat → NodeState) (intakes : Nat → Intake) :
    Faithful corrupt (wireGenesis members start intakes) where
  signed i _ fields member := by cases member
  late i _ thread o now waits := by cases waits
  admitted i _ thread o now outerStale waits := by cases waits

/-- A run of the members on the wire. -/
def OnTheWire (members : ∀ i, Wired i) (corrupt : Finset Nat) (start : Nat → NodeState) (intakes : Nat → Intake)
    (run : List (Nat × WireOp)) : Prop :=
  Allowed (wire members).netStep (Lawful members corrupt) (wireGenesis members start intakes) run

/-- The nodes after a run on the wire. -/
def afterWire (members : ∀ i, Wired i) (start : Nat → NodeState) (intakes : Nat → Intake) (run : List (Nat × WireOp)) :
    Nat → World :=
  worlds (exec (wire members).netStep (wireGenesis members start intakes) run)

/-- What a member has on evidence after a run on the wire, its honest peers have in their outboxes. -/
theorem backed_on_wire {start : Nat → NodeState} {intakes : Nat → Intake} {run : List (Nat × WireOp)}
    (separates : Separates (fun i => (members i).toMember) corrupt) (empty : Empty corrupt start)
    (lawful : OnTheWire members corrupt start intakes run) {i : Nat} (honest : i ∉ corrupt) :
    Backed (members i).node (members i).ch ((network (fun i => (members i).toMember)).Heard { j | j ∉ corrupt }
      (afterWire members start intakes run)) (afterWire members start intakes run i) := by
  obtain ⟨run', honestly, same⟩ := wire_refines.exec (faithful_genesis start intakes) lawful
  have reached : after (fun i => (members i).toMember) start run' = afterWire members start intakes run := same
  have backed := backed_after separates empty honestly honest
  rw [reached] at backed
  exact backed

/-! ### A letter between two members -/

/-- What the guards let through waits at the member. -/
theorem waits_receive {w : Nat → Station} {i : Nat} (thread : Nat) {body : Bytes} {nowInput now : Nat} {o : Opened}
    {outerStale : Bool} (through : ((members i).link.screen (w i).intake body nowInput).2 = .admitted o now outerStale) :
    (((wire members).netStep w (i, .receive thread body nowInput)).1 i).admitted.lookup thread =
      some (o, now, outerStale) := by
  have here : ((wire members).netStep w (i, .receive thread body nowInput)).1 i =
      ((members i).step (w i) (.receive thread body nowInput)).1 :=
    Members.netStep_self w (i, WireOp.receive thread body nowInput)
  rw [here]
  simp only [Wired.step, through]
  exact AList.lookup_insert _

/-- A request in an envelope of that kind comes to the node as it was sent. -/
theorem worlds_arrive {w : Nat → Station} {i thread : Nat} {request : TaggedRequest} {draw : EnvelopeDraw} {now : Nat}
    (typed : (Message.request request).Typed)
    (waits : (w i).admitted.lookup thread = some ((Message.request request).opened draw, now, false)) :
    worlds ((wire members).netStep w (i, .deliver thread)).1 =
      ((network (fun i => (members i).toMember)).netStep (worlds w) (i, .arrive thread (.relayed draw.nodeId) request)).1 := by
  have dispatched : (members i).link.dispatch (w i).world.node.store ((Message.request request).opened draw) now false =
      (members i).link.takes (w i).world.node.store draw.nodeId now false (.request request) :=
    (members i).link.dispatch_message typed rfl (carried_of_fields (o := (Message.request request).opened draw) rfl).2.2
      _ now (fun late => absurd late Bool.false_ne_true)
  rw [worlds_deliver waits, dispatched]
  exact worlds_step rfl

namespace Sample

/-- A signature is the key followed by the digest. -/
def wireLibrary : Bitcoin.Library :=
  { library with verifyEcdsa := fun digest sig key => decide (sig = key ++ digest) }

def channelKey (i : Nat) : PublicKey := [2, UInt8.ofNat i]

def wireChannel (i : Nat) : ChannelState :=
  { Channel.Sample.channel with lib := wireLibrary, nodeId := i, walletId := leBytes 32 7 }

def wired (i : Nat) : Wired i where
  node := { Node.Sample.node with lib := library, channel := some (wireChannel i) }
  ch := wireChannel i
  mounted := rfl
  self := rfl
  link := ⟨wireChannel i, leBytes 32 9, [channelKey 0, channelKey 1, channelKey 2], rfl⟩
  linked := rfl

def intake (_ : Nat) : Intake := ⟨IngressGuards.empty, ∅, Watchtower.AlertQueue.new 4⟩

def relayed : Message := .request (.spend duressRequest)

def unsignedDraw : EnvelopeDraw := ⟨[], [], 0, 0, 1000, List.replicate 16 5, []⟩

/-- Member 1 writes to member 0. -/
def draw : EnvelopeDraw :=
  { unsignedDraw with
    channelSig := channelKey 1 ++ envelopeDigest wireLibrary (relayed.opened (stamped (wired 1).link unsignedDraw)).fields }

def letter : Bytes := relayed.body (stamped (wired 1).link draw)

def onNode (run : List (Nat × NodeOp)) : List (Nat × WireOp) := run.map (fun action => (action.1, .node action.2))

/-- Member 1 has the spend from its coordinator and posts it to member 0. -/
def wireRun : List (Nat × WireOp) :=
  onNode submitted ++ [(1, .send relayed draw), (0, .receive 1 letter 1000), (0, .deliver 1)] ++
    onNode (handles 0 1 20 ++ receives 0 1 20)

theorem lawful_onNode (run : List (Nat × NodeOp))
    (silent : (run.all (fun action => action.1 != 2 && action.2.unhandled && action.2.hears.isNone)) = true)
    (w : Nat → Station) : Allowed (wire wired).netStep (Lawful wired {2}) w (onNode run) := by
  induction run generalizing w with
  | nil => trivial
  | cons action rest ih =>
    simp only [List.all_cons, Bool.and_eq_true, bne_iff_ne, ne_eq, Option.isNone_iff_eq_none] at silent
    obtain ⟨⟨⟨honest, own⟩, nothing⟩, later⟩ := silent
    refine ⟨⟨fun corrupt => honest (Finset.mem_singleton.mp corrupt), own, nothing⟩, ih ?_ _⟩
    simpa only [Bool.and_eq_true, bne_iff_ne, ne_eq, Option.isNone_iff_eq_none] using later

theorem exec_onNode (run : List (Nat × NodeOp)) (w : Nat → Station) :
    exec (wire wired).netStep w (onNode run) =
      fun i => { w i with world := exec (network (fun i => (wired i).toMember)).netStep (worlds w) run i } := by
  induction run generalizing w with
  | nil => rfl
  | cons action rest ih =>
    have same : worlds ((wire wired).netStep w (action.1, .node action.2)).1 =
        ((network (fun i => (wired i).toMember)).netStep (worlds w) action).1 :=
      (worlds_netStep w (action.1, .node action.2)).trans (worlds_step rfl)
    show exec (wire wired).netStep ((wire wired).netStep w (action.1, .node action.2)).1 (onNode rest) = _
    rw [ih, same, exec_cons]
    funext i
    by_cases mover : i = action.1
    · subst mover
      rw [Members.netStep_self]
      rfl
    · have still : ((wire wired).netStep w (action.1, .node action.2)).1 i = w i := Members.netStep_other w mover
      rw [still]

theorem worlds_onNode (run : List (Nat × NodeOp)) (w : Nat → Station) :
    worlds (exec (wire wired).netStep w (onNode run)) =
      exec (network (fun i => (wired i).toMember)).netStep (worlds w) run := by
  rw [exec_onNode]
  rfl

theorem draw_typed : (stamped (wired 1).link draw).Typed := by
  refine ⟨by decide, by decide, by decide, by decide, by decide, by decide, ?_⟩
  simp [stamped, draw, envelopeDigest, wireLibrary, library, channelKey, maxEcdsaDerBytes]

theorem relayed_typed : relayed.Typed := by
  show duressRequest.expiry < 2 ^ 64 ∧ duressRequest.policyVersion < 2 ^ 32
  decide

theorem duressRequest_bounded : duressRequest.Bounded := by
  constructor
  case pin => rw [length_utf8]; decide
  case nonce => rw [length_utf8]; decide
  case coordSig => decide
  case hex =>
    have digits : duressRequest.coordSig.toList.all (fun c => (hexValue c).isSome) = true := by decide
    exact List.all_eq_true.mp digits

theorem length_relayed : relayed.payload.length < 10000 := by
  show (requestPayload (.spend duressRequest)).length < 10000
  rw [length_requestPayload_spend duressRequest_bounded, length_toVec]
  decide

theorem length_letter : letter.length < 2 ^ 32 := by
  have payload := length_relayed
  have rest : envelopeFrame + escaped msgTypeRequest + digits protocolVersion + digits (stamped (wired 1).link draw).nodeId +
      digits (stamped (wired 1).link draw).recipientNodeId + digits (stamped (wired 1).link draw).timestamp +
      maxSigHexBytes + 160 < 10000 := by decide
  show (envelopeBody (buildEnvelope msgTypeRequest relayed.payload (stamped (wired 1).link draw))).length < 2 ^ 32
  rw [length_body_build draw_typed]
  omega

/-- The letter holds what member 1 has signed. -/
theorem unforged {w : Nat → Station} (signed : (relayed.opened (stamped (wired 1).link draw)).fields ∈ (w 1).signed) :
    Unforged wired {2} w 0 letter := by
  intro o opened _ key _ _
  rw [letter, Message.body, openEnvelope_build draw_typed] at opened
  cases opened
  exact ⟨_, signed, rfl⟩

theorem lawful : OnTheWire wired {2} starts intake wireRun := by
  have held : TaggedRequest.spend duressRequest ∈
      (after (fun i => (wired i).toMember) starts submitted 1).node.outbox := by decide
  have ready : staged (worlds (exec (wire wired).netStep (wireGenesis wired starts intake) (onNode submitted)) 1)
      relayed = true := by
    rw [worlds_onNode]
    exact decide_eq_true held
  unfold OnTheWire wireRun
  refine (allowed_append _ _ _ _ _).mpr ⟨(allowed_append _ _ _ _ _).mpr ⟨lawful_onNode _ (by decide) _, ?_⟩,
    lawful_onNode _ (by decide) _⟩
  have short : relayed.payload.length < 3 * 2 ^ 30 - 2 := by
    have payload := length_relayed
    omega
  refine ⟨⟨by decide, relayed_typed, draw_typed, short⟩, ?_, ⟨by decide, trivial⟩, trivial⟩
  refine ⟨by decide, ?_, unforged ?_⟩
  · exact length_letter
  · rw [Members.netStep_self]
    exact signed_send (wired 1) ready

/-- Member 1 signs what it writes to member 0. -/
def signedDraw (payload : Bytes) : EnvelopeDraw :=
  { stamped (wired 1).link unsignedDraw with
    channelSig := channelKey 1 ++
      envelopeDigest wireLibrary (openedOf msgTypeRequest payload (stamped (wired 1).link unsignedDraw)).fields }

theorem verified (payload : Bytes) :
    (wired 0).link.verifies (channelKey 1) (openedOf msgTypeRequest payload (signedDraw payload)) = true :=
  decide_eq_true rfl

theorem signed_by (payload : Bytes) : (wired 0).link.Signed (openedOf msgTypeRequest payload (signedDraw payload)) where
  version := rfl
  wallet := rfl
  manifest := rfl
  recipient := rfl
  peer := Nat.one_ne_zero
  signature := ⟨channelKey 1, rfl, verified payload⟩

theorem signed : (wired 0).link.Signed (relayed.opened (stamped (wired 1).link draw)) := signed_by relayed.payload

/-- The letter is let through. -/
theorem let_through : ((wired 0).link.screen (intake 0) letter 1000).2 =
    .admitted (relayed.opened (stamped (wired 1).link draw)) 1000 false := by
  have here : (wired 0).link.signed? letter = some (relayed.opened (stamped (wired 1).link draw)) :=
    (wired 0).link.signed?_eq_some.mpr ⟨openEnvelope_build draw_typed _ _, signed⟩
  have decided : (guardStep (wired 0).link.state.perPeerQuotaPerMin (intake 0).guards
      ((relayed.opened (stamped (wired 1).link draw)).call 1000)).2 = .accepted 1000 := by decide
  rw [(wired 0).link.screen_signed here, decided]
  rfl

/-- Once it is posted and delivered, member 0 has the spend from member 1. -/
theorem handed_over {w : Nat → Station} (fresh : (w 0).intake = intake 0) :
    worlds (exec (wire wired).netStep w [(1, .send relayed draw), (0, .receive 1 letter 1000), (0, .deliver 1)]) =
      ((network (fun i => (wired i).toMember)).netStep (worlds w) (0, .arrive 1 (.relayed 1) (.spend duressRequest))).1 := by
  have here : ((wire wired).netStep w (1, .send relayed draw)).1 0 = w 0 := Members.netStep_other w Nat.zero_ne_one
  have waits : (((wire wired).netStep ((wire wired).netStep w (1, .send relayed draw)).1
      (0, .receive 1 letter 1000)).1 0).admitted.lookup 1 =
        some (relayed.opened (stamped (wired 1).link draw), 1000, false) := by
    apply waits_receive
    rw [here, fresh]
    exact let_through
  rw [exec_cons, exec_cons, exec_cons, exec_nil, worlds_arrive relayed_typed waits, worlds_receive, worlds_send]
  rfl

/-- So the run on the wire comes to the run of the network. -/
theorem arrived : afterWire wired starts intake wireRun = after (fun i => (wired i).toMember) starts run := by
  have origin : worlds (wireGenesis wired starts intake) = genesis (fun i => (wired i).toMember) starts := rfl
  have fresh : (exec (wire wired).netStep (wireGenesis wired starts intake) (onNode submitted) 0).intake = intake 0 := by
    rw [exec_onNode]
    rfl
  rw [afterWire, wireRun, exec_append, exec_append, worlds_onNode, handed_over fresh, worlds_onNode, origin]
  simp only [after, run, exec_append, exec_cons]

theorem separates_wired : Separates (fun i => (wired i).toMember) {2} := by
  intro i _ sig other same
  exact absurd (List.cons.inj same).1 (by decide)

end Sample

/-- Every run of the members on the wire, whatever is posted to them by whom, is a run of the network of authenticated
channels: their nodes go through the same. -/
theorem wire_is_authenticated {members : ∀ i, Wired i} {corrupt : Finset Nat} {start : Nat → NodeState}
    {intakes : Nat → Intake} {run : List (Nat × WireOp)} (lawful : OnTheWire members corrupt start intakes run) :
    ∃ run', Honestly (fun i => (members i).toMember) corrupt start run' ∧
      after (fun i => (members i).toMember) start run' =
        worlds (exec (wire members).netStep (wireGenesis members start intakes) run) :=
  wire_refines.exec (faithful_genesis start intakes) lawful

theorem wire_is_authenticated_sample :
    ∃ run', Honestly (fun i => (Sample.wired i).toMember) {2} Sample.starts run' ∧
      after (fun i => (Sample.wired i).toMember) Sample.starts run' =
        worlds (exec (wire Sample.wired).netStep (wireGenesis Sample.wired Sample.starts Sample.intake) Sample.wireRun) :=
  wire_is_authenticated Sample.lawful

/-- Over every run on the wire, whoever posts what to whom: an honest member is armed only for a carrier that came to it
under duress and that enough honest members have staged, and a share of a hot spend or of an escape leaves it only for a
pair of a carrier that enough have staged. -/
theorem stagers_on_wire {members : ∀ i, Wired i} {corrupt : Finset Nat} {start : Nat → NodeState}
    {intakes : Nat → Intake} {run : List (Nat × WireOp)}
    (separates : Separates (fun i => (members i).toMember) corrupt) (empty : Empty corrupt start)
    (lawful : OnTheWire members corrupt start intakes run) {i : Nat} (honest : i ∉ corrupt) :
    ((afterWire members start intakes run i).node.store.armed.active = true →
        ∃ carrier stagers, UnderDuress (members i).node (Brought (afterWire members start intakes run i)) carrier ∧
          Stagers (fun i => (members i).toMember) corrupt (afterWire members start intakes run) i carrier stagers) ∧
      ∀ id now release, id ≠ "" →
        ((afterWire members start intakes run i).node.store.releasePartials (members i).ch id now).2 = some release →
        ∃ c, (afterWire members start intakes run i).node.store.candidates.lookup id = some c ∧
          (c.hot = true ∨ c.role = .escape → ∃ carrier stagers spendId escapeId request,
            Stagers (fun i => (members i).toMember) corrupt (afterWire members start intakes run) i carrier stagers ∧
              Brought (afterWire members start intakes run i) request ∧ Bears (members i).node carrier request ∧
              NamesPair (members i).node request spendId escapeId ∧ id ∈ [spendId, escapeId]) := by
  have backed := backed_on_wire separates empty lawful honest
  constructor
  · intro armed
    exact @stagers_of_armed (fun i => (members i).toMember) corrupt _ i honest backed armed
  · intro id now release named released
    exact @stagers_of_release (fun i => (members i).toMember) corrupt _ i honest backed id now release named released

/-- The letter arms member 0, and the escape of its spend leaves once it is due. -/
theorem stagers_on_wire_sample :
    (∃ carrier stagers, UnderDuress (Sample.wired 0).node
          (Brought (afterWire Sample.wired Sample.starts Sample.intake Sample.wireRun 0)) carrier ∧
        Stagers (fun i => (Sample.wired i).toMember) {2}
          (afterWire Sample.wired Sample.starts Sample.intake Sample.wireRun) 0 carrier stagers) ∧
      ∃ c, (afterWire Sample.wired Sample.starts Sample.intake Sample.wireRun 0).node.store.candidates.lookup
          "0b00000088130000" = some c ∧
        (c.hot = true ∨ c.role = .escape → ∃ carrier stagers spendId escapeId request,
          Stagers (fun i => (Sample.wired i).toMember) {2}
              (afterWire Sample.wired Sample.starts Sample.intake Sample.wireRun) 0 carrier stagers ∧
            Brought (afterWire Sample.wired Sample.starts Sample.intake Sample.wireRun 0) request ∧
            Bears (Sample.wired 0).node carrier request ∧ NamesPair (Sample.wired 0).node request spendId escapeId ∧
            "0b00000088130000" ∈ [spendId, escapeId]) := by
  have armed : (afterWire Sample.wired Sample.starts Sample.intake Sample.wireRun 0).node.store.armed.active = true := by
    rw [Sample.arrived]
    decide +kernel
  have due : (((afterWire Sample.wired Sample.starts Sample.intake Sample.wireRun 0).node.store.releasePartials
      (Sample.wired 0).ch "0b00000088130000" 700).2).isSome = true := by
    rw [Sample.arrived]
    decide +kernel
  obtain ⟨release, released⟩ := Option.isSome_iff_exists.mp due
  have honest : 0 ∉ ({2} : Finset Nat) := by decide
  obtain ⟨safe, leaves⟩ := stagers_on_wire Sample.separates_wired Sample.empty Sample.lawful honest
  exact ⟨safe armed, leaves "0b00000088130000" 700 release (by decide) released⟩

end BtcPolicy.Federation
