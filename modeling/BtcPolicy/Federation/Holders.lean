import BtcPolicy.Federation
import BtcPolicy.Node.Evidence

/-! The holders of a carrier, over whole runs of the federation. A member arms its overlay, and opens the gates of a
pair, on receipts from the others. Every honest member that it has counted by then has the request in its own outbox,
so what it takes are as many honest ones as the threshold leaves when the corrupt ones are counted too. -/

namespace BtcPolicy.Federation
open FiniteMap Channel Node NodeConfig PartialStore Runs Network Pin

/-- A member with its channel, mounted under its own id. -/
structure Member (i : Nat) where
  node : NodeConfig
  ch : ChannelState
  mounted : node.channel = some ch
  self : ch.nodeId = i

theorem outbox_nodeStep {i : Nat} (m : Member i) (w : World) (op : NodeOp) {request : TaggedRequest}
    (member : request ∈ w.node.outbox) : request ∈ (m.node.nodeStep w op).1.node.outbox := by
  cases op with
  | advance thread step =>
    simp only [nodeStep]
    split
    · exact member
    next t phase taken =>
      obtain ⟨held, _, taken⟩ := Option.bind_eq_some_iff.mp taken
      obtain ⟨_, _, takes, _⟩ := (advances_advance m.mounted taken).takes
      exact takes.kept member
  | background op =>
    simp only [nodeStep, onStore, m.mounted]
    exact member
  | _ =>
    simp only [nodeStep]
    first | exact member | (split <;> exact member)

/-- The members over their authenticated channels: what one says is what it has staged, and what a step hears is the
request it brings in. -/
def network (members : ∀ i, Member i) : Members Nat World NodeOp Unit TaggedRequest where
  step i := (members i).node.nodeStep
  said w := { request | request ∈ w.node.outbox }
  hears := NodeOp.hears
  keeps i w op _ staged := outbox_nodeStep (members i) w op staged

/-- Every member as it starts, with no request in flight. -/
def genesis (members : ∀ i, Member i) (start : Nat → NodeState) (i : Nat) : World :=
  (members i).node.nodeAfter (start i) []

/-- A run of the honest members: any interleaving and any clocks. A corrupt member may be heard to say anything, and
what an honest one has said may come late, more than once, or never. -/
def Honestly (members : ∀ i, Member i) (corrupt : Finset Nat) (start : Nat → NodeState) (run : List (Nat × NodeOp)) :
    Prop :=
  Allowed (network members).netStep
    ((network members).Authentic { j | j ∉ corrupt } (fun _ op => op.unhandled = true)) (genesis members start) run

def after (members : ∀ i, Member i) (start : Nat → NodeState) (run : List (Nat × NodeOp)) : Nat → World :=
  exec (network members).netStep (genesis members start) run

/-- What it takes at member `i`, but for the corrupt ones: honest members, itself among them, that have each staged a
request of the carrier. -/
structure Stagers (members : ∀ i, Member i) (corrupt : Finset Nat) (w : Nat → World) (i : Nat) (carrier : String)
    (stagers : Finset Nat) : Prop where
  enough : (members i).node.threshold ≤ stagers.card + corrupt.card
  own : i ∈ stagers
  honest : ∀ j ∈ stagers, j ∉ corrupt
  staged : ∀ j ∈ stagers, ∃ request ∈ (w j).node.outbox, Supports (members i).node (Brought (w i)) carrier request

variable {members : ∀ i, Member i} {corrupt : Finset Nat} {start : Nat → NodeState}

/-- The marks of unfinished derivations are no signature's. -/
def Separates (members : ∀ i, Member i) (corrupt : Finset Nat) : Prop :=
  ∀ i ∉ corrupt, ∀ sig other,
    armSignatureTag (members i).node.lib sig ≠ (members i).ch.lib.taggedHash outerStaleClaimTag other

/-- Every honest member starts with an empty registry. -/
def Empty (corrupt : Finset Nat) (start : Nat → NodeState) : Prop :=
  ∀ i ∉ corrupt, ∃ config, (start i).store = initialStore config

theorem backed_genesis {i : Nat} {heard : Nat → TaggedRequest → Prop} {config : StoreConfig}
    (fresh : (start i).store = initialStore config) :
    Backed (members i).node (members i).ch heard (genesis members start i) where
  formed k held found := by cases found
  relayed k held sender found := by cases found
  receipts k held result carrier found := by cases found
  store := by
    show Attested _ _ _ (start i).store
    rw [fresh]
    exact ⟨Every.empty _, Every.empty _, fun active => (by cases active), Every.empty _⟩

theorem evident_backed (separates : Separates members corrupt) :
    (network members).Evident { j | j ∉ corrupt } (fun _ op => op.unhandled = true)
      (fun heard i w => Backed (members i).node (members i).ch heard w) where
  mono more backed :=
    ⟨backed.formed, fun k held sender found origin => more sender held.request (backed.relayed k held sender found origin),
      backed.receipts, backed.store.mono (testimony_extends (fun _ brought => brought) (fun _ staged => staged) more)⟩
  keep honest own hearing backed :=
    backed_nodeStep (members _).mounted (separates _ honest) backed _ own hearing

/-- What an honest member has on evidence, its peers have in their outboxes. -/
theorem backed_after (separates : Separates members corrupt) (empty : Empty corrupt start) {run : List (Nat × NodeOp)}
    (honestly : Honestly members corrupt start run) {i : Nat} (honest : i ∉ corrupt) :
    Backed (members i).node (members i).ch ((network members).Heard { j | j ∉ corrupt } (after members start run))
      (after members start run i) := by
  refine Members.evident_exec (evident_backed separates) _ ?_ run honestly i honest
  intro i honest
  obtain ⟨config, fresh⟩ := empty i honest
  exact backed_genesis fresh

theorem stagers_of_quorum {w : Nat → World} {i : Nat} {carrier : String} (honest : i ∉ corrupt)
    (quorum : Quorum (members i).ch (members i).node.threshold (testimony (members i).node (members i).ch.nodeId
      ((network members).Heard { j | j ∉ corrupt } w) (w i)) carrier) :
    ∃ stagers, Stagers members corrupt w i carrier stagers := by
  obtain ⟨holders, enough, own, each⟩ := quorum
  rw [(members i).self] at own
  refine ⟨holders \ corrupt, ?_, Finset.mem_sdiff.mpr ⟨own, honest⟩, ?_, ?_⟩
  · have split : holders.card ≤ (holders \ corrupt).card + corrupt.card := Finset.card_le_card_sdiff_add_card
    omega
  · intro j member
    exact (Finset.mem_sdiff.mp member).2
  · intro j counted
    obtain ⟨held, uncorrupt⟩ := Finset.mem_sdiff.mp counted
    obtain ⟨request, source, supports⟩ := each j held
    refine ⟨request, ?_, supports⟩
    rcases source with ⟨rfl, staged⟩ | heard
    · rw [(members i).self]
      exact staged
    · exact heard uncorrupt

/-- What the evidence of an armed member comes to. -/
theorem stagers_of_armed {w : Nat → World} {i : Nat} (honest : i ∉ corrupt)
    (backed : Backed (members i).node (members i).ch ((network members).Heard { j | j ∉ corrupt } w) (w i))
    (armed : (w i).node.store.armed.active = true) :
    ∃ carrier stagers, UnderDuress (members i).node (Brought (w i)) carrier ∧
      Stagers members corrupt w i carrier stagers := by
  obtain ⟨carrier, quorum, duress⟩ := backed.store.armed armed
  obtain ⟨stagers, each⟩ := stagers_of_quorum honest quorum
  exact ⟨carrier, stagers, duress, each⟩

/-- And that of a share that leaves. -/
theorem stagers_of_release {w : Nat → World} {i : Nat} (honest : i ∉ corrupt)
    (backed : Backed (members i).node (members i).ch ((network members).Heard { j | j ∉ corrupt } w) (w i))
    {id : String} {now : Nat} {release : Release} (named : id ≠ "")
    (released : ((w i).node.store.releasePartials (members i).ch id now).2 = some release) :
    ∃ c, (w i).node.store.candidates.lookup id = some c ∧
      (c.hot = true ∨ c.role = .escape → ∃ carrier stagers spendId escapeId request,
        Stagers members corrupt w i carrier stagers ∧ Brought (w i) request ∧ Bears (members i).node carrier request ∧
          NamesPair (members i).node request spendId escapeId ∧ id ∈ [spendId, escapeId]) := by
  obtain same | ⟨_, c, window, _, found, gate, _⟩ :=
    releasePartials_cases (members i).ch (w i).node.store id now
  · rw [same] at released
    cases released
  refine ⟨c, found, ?_⟩
  intro waits
  have slot := gate.slot
  simp only [slotActive, Bool.and_eq_true] at slot
  obtain ⟨carrier, spendId, escapeId, quorum, ⟨request, brought, bears, names⟩, either⟩ :=
    backed.store.gates id c found slot.1 waits named
  obtain ⟨stagers, each⟩ := stagers_of_quorum honest quorum
  exact ⟨carrier, stagers, spendId, escapeId, request, each, brought, bears, names, either⟩

namespace Sample

/-- Hashes that the tag and the length tell apart. -/
def library : Bitcoin.Library :=
  { Channel.Sample.library with
    taggedHash := fun tag bytes => UInt8.ofNat tag.length :: Bitcoin.leBytes 32 bytes.length }

/-- A federation of three with a threshold of two. -/
def member (i : Nat) : Member i where
  node := { Node.Sample.node with
    lib := library
    channel := some { Channel.Sample.channel with lib := library, nodeId := i } }
  ch := { Channel.Sample.channel with lib := library, nodeId := i }
  mounted := rfl
  self := rfl

def duressRequest : SignRequest := { Node.Sample.spendRequest "nonce-a" 5000 with pin := "9999" }

/-- A spend from its first section to its answer. -/
def handles (i thread now : Nat) : List (Nat × NodeOp) :=
  [(i, .advance thread (.ingress now now)), (i, .advance thread (.commit now)), (i, Node.Sample.registration thread now),
    (i, .advance thread (.dropClaim now)), (i, .advance thread .dropSlot)]

def receives (i thread now : Nat) : List (Nat × NodeOp) :=
  [(i, .advance thread .receiptGuard), (i, .advance thread (.receiptLookup now now)),
    (i, .advance thread (.confirm now now))]

def submitted : List (Nat × NodeOp) := (1, .arrive 1 .direct (.spend duressRequest)) :: handles 1 1 10

/-- Member 1 has the spend from its coordinator, and member 0 has it from there. -/
def run : List (Nat × NodeOp) :=
  submitted ++ (0, .arrive 1 (.relayed 1) (.spend duressRequest)) :: (handles 0 1 20 ++ receives 0 1 20)

def starts (_ : Nat) : NodeState := Node.Sample.start

/-- Member 0 has the spend from its coordinator, and hears it from member 2, which has staged nothing. -/
def rumored : List (Nat × NodeOp) :=
  (0, .arrive 1 .direct (.spend duressRequest)) :: handles 0 1 10 ++
    (0, .arrive 2 (.relayed 2) (.spend duressRequest)) :: (0, .advance 2 (.ingress 20 20)) :: receives 0 2 20

theorem separates : Separates member {2} := by
  intro i _ sig other same
  exact absurd (List.cons.inj same).1 (by decide)

theorem empty : Empty {2} starts := fun _ _ => ⟨Channel.Sample.config, rfl⟩

/-- What no member hears anything through is allowed to the honest ones. -/
theorem allowed_silent {actions : List (Nat × NodeOp)}
    (silent : (actions.all (fun action => action.1 != 2 && action.2.unhandled && action.2.hears.isNone)) = true)
    (w : Nat → World) :
    Allowed (network member).netStep ((network member).Authentic { j | j ∉ ({2} : Finset Nat) }
      (fun _ op => op.unhandled = true)) w actions := by
  apply Members.allowed_of_silent
  intro action listed
  have quiet := List.all_eq_true.mp silent action listed
  simp only [Bool.and_eq_true, bne_iff_ne, ne_eq, Option.isNone_iff_eq_none] at quiet
  obtain ⟨⟨honest, own⟩, nothing⟩ := quiet
  exact ⟨fun corrupt => honest (Finset.mem_singleton.mp corrupt), own, nothing⟩

/-- The corrupt member may be heard to say what it likes. -/
theorem honestly : Honestly member {2} starts rumored := by
  refine (allowed_append _ _ _ _ _).mpr ⟨allowed_silent (by decide +kernel) _, ⟨by decide, rfl, ?_⟩,
    allowed_silent (by decide +kernel) _⟩
  intro j request heard trusted
  cases heard
  exact absurd (Finset.mem_singleton_self 2) trusted

end Sample

/-- Over every run of the federation: an honest member is armed only for a carrier that came to it under duress and
that enough honest members have staged. -/
theorem armed_by_stagers (separates : Separates members corrupt) (empty : Empty corrupt start)
    {run : List (Nat × NodeOp)} (honestly : Honestly members corrupt start run) {i : Nat} (honest : i ∉ corrupt)
    (armed : (after members start run i).node.store.armed.active = true) :
    ∃ carrier stagers, UnderDuress (members i).node (Brought (after members start run i)) carrier ∧
      Stagers members corrupt (after members start run) i carrier stagers :=
  stagers_of_armed honest (backed_after separates empty honestly honest) armed

theorem armed_by_stagers_sample :
    (after Sample.member Sample.starts Sample.rumored 0).node.store.armed.active = true ∧ ∃ carrier stagers,
      UnderDuress (Sample.member 0).node (Brought (after Sample.member Sample.starts Sample.rumored 0)) carrier ∧
        Stagers Sample.member {2} (after Sample.member Sample.starts Sample.rumored) 0 carrier stagers :=
  ⟨by decide +kernel, armed_by_stagers Sample.separates Sample.empty Sample.honestly (by decide) (by decide +kernel)⟩

/-- And a share of a hot spend, or of an escape, leaves an honest member only for a pair of such a carrier. -/
theorem released_by_stagers (separates : Separates members corrupt) (empty : Empty corrupt start)
    {run : List (Nat × NodeOp)} (honestly : Honestly members corrupt start run) {i : Nat} (honest : i ∉ corrupt)
    {id : String} {now : Nat} {release : Release} (named : id ≠ "")
    (released : ((after members start run i).node.store.releasePartials (members i).ch id now).2 = some release) :
    ∃ c, (after members start run i).node.store.candidates.lookup id = some c ∧
      (c.hot = true ∨ c.role = .escape → ∃ carrier stagers spendId escapeId request,
        Stagers members corrupt (after members start run) i carrier stagers ∧
          Brought (after members start run i) request ∧ Bears (members i).node carrier request ∧
          NamesPair (members i).node request spendId escapeId ∧ id ∈ [spendId, escapeId]) :=
  stagers_of_release honest (backed_after separates empty honestly honest) named released

/-- The escape of that spend, once it is due. -/
theorem released_by_stagers_sample :
    ∃ release c, ((after Sample.member Sample.starts Sample.rumored 0).node.store.releasePartials (Sample.member 0).ch
        "0b00000088130000" 700).2 = some release ∧
      (after Sample.member Sample.starts Sample.rumored 0).node.store.candidates.lookup "0b00000088130000" = some c ∧
      c.role = .escape ∧ ∃ carrier stagers spendId escapeId request,
        Stagers Sample.member {2} (after Sample.member Sample.starts Sample.rumored) 0 carrier stagers ∧
          Brought (after Sample.member Sample.starts Sample.rumored 0) request ∧
          Bears (Sample.member 0).node carrier request ∧ NamesPair (Sample.member 0).node request spendId escapeId ∧
          "0b00000088130000" ∈ [spendId, escapeId] := by
  have due : (((after Sample.member Sample.starts Sample.rumored 0).node.store.releasePartials (Sample.member 0).ch
      "0b00000088130000" 700).2).isSome = true := by decide +kernel
  obtain ⟨release, released⟩ := Option.isSome_iff_exists.mp due
  obtain ⟨c, found, pair⟩ :=
    released_by_stagers Sample.separates Sample.empty Sample.honestly (by decide) (by decide) released
  have swept : ((after Sample.member Sample.starts Sample.rumored 0).node.store.candidates.lookup
      "0b00000088130000").map Candidate.role = some .escape := by decide +kernel
  have escape : c.role = .escape := by
    rw [found] at swept
    exact Option.some.inj swept
  exact ⟨release, c, released, found, escape, pair (.inr escape)⟩

end BtcPolicy.Federation
