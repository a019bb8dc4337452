import BtcPolicy.Channel.Release
import BtcPolicy.Node.Finalize
import BtcPolicy.Node.Fire
import Mathlib.Data.List.Destutter
import Mathlib.Data.String.Basic

/-! What leaves the node through its fire driver, whatever the other tasks and the chain do meanwhile. Every gate is
passed at a point of the same pass, and nothing that an earlier pass found out is relied on. -/

namespace BtcPolicy.Fire
open FiniteMap Bitcoin Channel Node Policy Programs PartialStore Results Runs Tasks Word

/-! ### What a pass has found out -/

section Facts

variable (d : Driver) (env : Surroundings) (start : NodeState)

/-- The store of the node at a point of its run. -/
def Driver.storeAt (p : Point NodeOp) : PartialStore := (d.node.nodeAfter start p.run).node.store

/-- The environment of a sweep, read piece by piece from `first` to `last`. -/
def Measured (first last : Point NodeOp) (commitmentId : String) (laddered : Bool)
    (residentRung : Option RawTransaction) (sweep : SweepEnv) : Prop :=
  ∃ atStart prices accepted balance atPairing atSpend spent,
    [first, atStart, prices, accepted, balance, atPairing, atSpend, spent, last].IsChain (· ≤ ·) ∧
      Node.sweepEnv d.channel.lib d.policy.checkParams d.vaultScripts (d.node.nodeAfter start accepted.run).node.authorized
        ⟨(env.view prices.moment).backend.prevouts, (env.view balance.moment).backend.vaultUnspent,
          (env.view spent.moment).backend.transactionConfirmed⟩ commitmentId laddered
        (residentRung.map RawTransaction.unsigned) (d.storeAt start atStart) (d.storeAt start atPairing)
        (d.storeAt start atSpend) = .ok sweep

/-- What a preflight found out about an armed escape. -/
structure Preflight where
  rungs : List Transaction
  residentRung : Option RawTransaction
  sweep : SweepEnv
  ladder : ScoredLadder
  selected : Nat × Nat × Nat

/-- The latch that ends a preflight. -/
def Preflight.latch (found : Preflight) (commitmentId : String) : NodeOp :=
  .background (.latchEscapeRung commitmentId found.selected.1 (lowestAdmissible found.ladder found.selected.1))

/-- Every check of a preflight, from the point where it knew the ladder to the last before its latch. -/
structure Cleared (known last : Point NodeOp) (commitmentId : String) (found : Preflight) : Prop where
  others : Follows Foreign known last
  ladder : candidateRungTxs (d.storeAt start known) commitmentId = some found.rungs
  some_rung : found.rungs ≠ []
  measured : Measured d env start known last commitmentId (decide (1 < found.rungs.length)) found.residentRung found.sweep
  scored : scoreLadder d.policy d.sizing found.sweep found.rungs = .ok found.ladder
  chosen : ∃ tip fees held, [known, tip, fees, held, last].IsChain (· ≤ ·) ∧
    selectEscapeRung d.policy.escapeFeerateFloor
      ⟨(env.view tip.moment).backend.tipHeight, (env.view fees.moment).backend.blockMedianFeerate⟩
      ((escapeRung (d.storeAt start held) commitmentId).getD 0) found.ladder = .ok found.selected
  ancestry : ∃ tx accepted walked package, found.rungs[found.selected.1]? = some tx ∧
    [known, accepted, walked, last].IsChain (· ≤ ·) ∧
    d.assembleEscapePackage (bare tx) found.residentRung (d.node.nodeAfter start accepted.run).node.authorized
      (env.view walked.moment) = .ok package

variable {d env start}

theorem Measured.widen {first last first' last' : Point NodeOp} {commitmentId : String} {laddered : Bool}
    {residentRung : Option RawTransaction} {sweep : SweepEnv}
    (measured : Measured d env start first last commitmentId laddered residentRung sweep) (earlier : first' ≤ first)
    (later : last ≤ last') : Measured d env start first' last' commitmentId laddered residentRung sweep := by
  obtain ⟨p₁, p₂, p₃, p₄, p₅, p₆, p₇, ordered, read⟩ := measured
  refine ⟨p₁, p₂, p₃, p₄, p₅, p₆, p₇, ?_, read⟩
  simp only [List.isChain_cons_cons, List.isChain_singleton, and_true] at ordered ⊢
  obtain ⟨o₁, o₂, o₃, o₄, o₅, o₆, o₇, o₈⟩ := ordered
  exact ⟨earlier.trans o₁, o₂, o₃, o₄, o₅, o₆, o₇, o₈.trans later⟩

theorem Cleared.widen {known last last' : Point NodeOp} {commitmentId : String} {found : Preflight}
    (cleared : Cleared d env start known last commitmentId found) (waited : Follows Foreign last last') :
    Cleared d env start known last' commitmentId found where
  others := cleared.others.trans waited
  ladder := cleared.ladder
  some_rung := cleared.some_rung
  measured := cleared.measured.widen le_rfl waited.le
  scored := cleared.scored
  chosen := by
    obtain ⟨tip, fees, held, ordered, chosen⟩ := cleared.chosen
    refine ⟨tip, fees, held, ?_, chosen⟩
    simp only [List.isChain_cons_cons, List.isChain_singleton, and_true] at ordered ⊢
    exact ⟨ordered.1, ordered.2.1, ordered.2.2.1, ordered.2.2.2.trans waited.le⟩
  ancestry := by
    obtain ⟨tx, accepted, walked, package, atRung, ordered, assembled⟩ := cleared.ancestry
    refine ⟨tx, accepted, walked, package, atRung, ?_, assembled⟩
    simp only [List.isChain_cons_cons, List.isChain_singleton, and_true] at ordered ⊢
    exact ⟨ordered.1, ordered.2.1, ordered.2.2.trans waited.le⟩

end Facts

section Preflights

variable {d : Driver} {env : Surroundings} {start : NodeState} {ok : NodeOp → Prop} {s : Pass d start}

theorem storeAt_point (t : Pass d start) : d.storeAt start t.point = t.world.node.store := by
  unfold Driver.storeAt NodeConfig.nodeAfter
  rw [← t.reached]
  rfl

theorem authorized_point (t : Pass d start) :
    (d.node.nodeAfter start t.point.run).node.authorized = t.world.node.authorized := by
  unfold NodeConfig.nodeAfter
  rw [← t.reached]
  rfl

section Quiets

variable (meets : env.Meets ok)
include meets

theorem silent_transactionIsSettled (txid : Txid) :
    Silent ok (d.transactionIsSettled env txid : Firing d start Bool) := by
  apply silent_bind (silent_ask meets _)
  intro resident
  cases resident with
  | some raw => exact silent_pure true
  | none => exact silent_ask meets _

theorem silent_confirmedRung (txids : List Txid) :
    Silent ok (d.confirmedRung env txids : Firing d start (Option Txid)) := by
  induction txids with
  | nil => exact silent_pure none
  | cons txid rest ih =>
    apply silent_bind (silent_ask meets _)
    intro confirmed
    cases confirmed with
    | true => exact silent_pure _
    | false => exact ih

theorem silent_armedEscapeNetworkState (rungTxids : List Txid) (latched : Nat) (residentRung : Option RawTransaction) :
    Silent ok (d.armedEscapeNetworkState env rungTxids latched residentRung : Firing d start ArmedEscapeState) := by
  apply silent_bind (silent_confirmedRung meets rungTxids)
  intro confirmed
  cases confirmed with
  | some txid => exact silent_pure _
  | none =>
    cases residentRung with
    | none => exact silent_pure _
    | some resident =>
      simp only
      split_ifs
      · exact silent_pure _
      · exact silent_pure _

theorem silent_mempoolEscapeRung (commitmentId : String) :
    Silent ok (d.mempoolEscapeRung env commitmentId : Firing d start (Option RawTransaction)) := by
  apply silent_bind (silent_read meets _)
  intro rungs
  cases rungs with
  | none => exact silent_pure none
  | some rungs =>
    apply silent_bind (silent_ask meets _)
    intro answer
    cases answer with
    | none => exact silent_pure none
    | some named =>
      simp only
      split
      · exact silent_fail _
      · split
        · exact silent_fail _
        · split
          · exact silent_fail _
          · exact silent_pure _

theorem answers_sweepEnv (commitmentId : String) (laddered : Bool) (residentRung : Option RawTransaction) :
    Answers ok (d.sweepEnv env commitmentId laddered residentRung) s (fun sweep t =>
      Measured d env start s.point t.point commitmentId laddered residentRung sweep) := by
  unfold Driver.sweepEnv
  apply answers_bind _ (answers_read meets)
  intro _ atStart first same
  subst same
  apply answers_bind _ (answers_look meets)
  rintro _ s₂ _ ⟨prices, before₂, after₂, rfl⟩
  apply answers_bind _ (answers_read meets)
  intro _ accepted third same
  subst same
  apply answers_bind _ (answers_look meets)
  rintro _ s₄ _ ⟨balance, before₄, after₄, rfl⟩
  apply answers_bind _ (answers_read meets)
  intro _ atPairing fifth same
  subst same
  apply answers_bind _ (answers_read meets)
  intro _ atSpend sixth same
  subst same
  apply answers_bind _ (answers_look meets)
  rintro _ s₇ _ ⟨spent, before₇, after₇, rfl⟩
  apply answers_lift
  intro sweep read
  refine ⟨atStart.point, prices, accepted.point, balance, atPairing.point, atSpend.point, spent, ?_, ?_⟩
  · simp only [List.isChain_cons_cons, List.isChain_singleton, and_true]
    exact ⟨first.le, before₂.le, after₂.le.trans third.le, before₄.le, after₄.le.trans fifth.le, sixth.le, before₇.le,
      after₇.le⟩
  · rw [storeAt_point, storeAt_point, storeAt_point, authorized_point]
    exact read

end Quiets

theorem meets_foreign (env : Surroundings) : env.Meets Foreign := env.theirs

/-- Checks that answer have found everything they ask for. -/
theorem answers_checks (env : Surroundings) (commitmentId : String) (s : Pass d start) :
    Answers Foreign (d.escapeSweepChecks env commitmentId) s (fun checked t => ∃ known found, s.point ≤ known ∧
      Cleared d env start known t.point commitmentId found ∧
      checked = (⟨found.residentRung, found.sweep⟩, found.selected.1,
        lowestAdmissible found.ladder found.selected.1)) := by
  have meets := meets_foreign env
  unfold Driver.escapeSweepChecks
  apply answers_bind _ (answers_read meets)
  intro _ s₁ first same
  subst same
  apply answers_lift_bind
  intro rungs listed
  apply answers_bind _ (answers_attempt (silent_mempoolEscapeRung meets commitmentId s₁))
  intro looked s₂ second _
  apply answers_lift_bind
  intro residentRung _
  apply answers_bind _ (answers_sweepEnv meets _ _ _)
  intro sweep s₃ third measured
  apply answers_lift_bind
  intro ladder scored
  apply answers_bind _ (answers_look meets)
  rintro _ s₄ _ ⟨tip, beforeTip, afterTip, rfl⟩
  apply answers_bind _ (answers_look meets)
  rintro _ s₅ _ ⟨fees, beforeFees, afterFees, rfl⟩
  apply answers_bind _ (answers_read meets)
  intro _ held sixth same
  subst same
  apply answers_lift_bind
  intro selected chosen
  apply answers_lift_bind
  intro tx atRung
  apply answers_bind _ (answers_read meets)
  intro _ accepted seventh same
  subst same
  apply answers_bind _ (answers_look meets)
  rintro _ s₈ _ ⟨walked, beforeWalk, afterWalk, rfl⟩
  apply answers_lift_bind
  intro package assembled
  apply answers_pure
  obtain ⟨listed, full⟩ := Option.filter_eq_some_iff.mp (okOr_ok listed)
  have toTip : Follows Foreign s₁.point tip := (second.toFollows.trans third.toFollows).trans beforeTip
  have toHeld : Follows Foreign fees held.point := afterFees.trans sixth.toFollows
  have toLast : Follows Foreign held.point s₈.point := seventh.toFollows.trans (beforeWalk.trans afterWalk)
  have whole := toTip.trans ((afterTip.trans beforeFees).trans (toHeld.trans toLast))
  refine ⟨s₁.point, ⟨rungs, residentRung, sweep, ladder, selected⟩, first.le, ⟨whole, ?_, ?_, ?_, scored, ?_, ?_⟩, rfl⟩
  · rw [storeAt_point]
    exact listed
  · simpa using full
  · exact measured.widen second.le
      ((beforeTip.trans afterTip).trans ((beforeFees.trans toHeld).trans toLast)).le
  · refine ⟨tip, fees, held.point, ?_, ?_⟩
    · simp only [List.isChain_cons_cons, List.isChain_singleton, and_true]
      exact ⟨toTip.le, (afterTip.trans beforeFees).le, toHeld.le, toLast.le⟩
    · rw [storeAt_point]
      exact chosen
  · refine ⟨tx, accepted.point, walked, package, okOr_ok atRung, ?_, ?_⟩
    · simp only [List.isChain_cons_cons, List.isChain_singleton, and_true]
      exact ⟨(toTip.trans ((afterTip.trans beforeFees).trans (toHeld.trans seventh.toFollows))).le, beforeWalk.le,
        afterWalk.le⟩
    · rw [authorized_point]
      exact mapError_ok assembled

/-- A preflight that answers has passed its checks, and then latched a candidate that was resident. -/
theorem answers_preflight (env : Surroundings) (foreign : ∀ op, Foreign op → ok op) (commitmentId : String)
    (latches : ∀ rung lowest, ok (.background (.latchEscapeRung commitmentId rung lowest))) :
    Answers ok (d.escapeSweepPreReleaseAdmissible env commitmentId) s (fun context t => ∃ known last found,
      s.point ≤ known ∧ Cleared d env start known last commitmentId found ∧
        ((d.storeAt start last).candidates.lookup commitmentId).isSome = true ∧
        t.point = last.took (found.latch commitmentId) ∧ context = ⟨found.residentRung, found.sweep⟩) := by
  unfold Driver.escapeSweepPreReleaseAdmissible
  apply answers_bind _ (answers_relax (answers_checks env commitmentId s) foreign)
  rintro _ s₁ _ ⟨_, known, found, later, cleared, rfl⟩
  apply answers_bind _ (answers_act (meets_foreign env) foreign (fun _ => latches _ _))
  rintro latched s₂ _ ⟨last, waited, reached, rfl⟩
  apply answers_lift_bind
  intro rung present
  apply answers_pure
  obtain ⟨c, resident, _⟩ := Option.map_eq_some_iff.mp (okOr_ok present)
  refine ⟨known, last, found, later, ?_, ?_, reached, rfl⟩
  · exact cleared.widen waited
  · rw [Driver.storeAt]
    exact Option.isSome_iff_exists.mpr ⟨c, resident⟩

end Preflights

/-! ### The contexts of a pass -/

/-- The steps of a preflight and of the others, where only the candidates named are latched. -/
def Latching (ids : List String) (op : NodeOp) : Prop :=
  Foreign op ∨ ∃ id ∈ ids, ∃ rung lowest, op = .background (.latchEscapeRung id rung lowest)

theorem Latching.more {ids ids' : List String} (more : ∀ id ∈ ids, id ∈ ids') (op : NodeOp)
    (latching : Latching ids op) : Latching ids' op := by
  rcases latching with foreign | ⟨id, member, latch⟩
  · exact .inl foreign
  · exact .inr ⟨id, more id member, latch⟩

def Unlatched (id : String) (op : NodeOp) : Prop :=
  ∀ rung lowest, op ≠ .background (.latchEscapeRung id rung lowest)

theorem unlatched_of_foreign (id : String) (op : NodeOp) (foreign : Foreign op) : Unlatched id op := by
  rintro rung lowest rfl
  cases foreign

/-- Nothing but the candidate's own preflight latches it. -/
theorem Latching.unlatched {ids : List String} {id : String} (absent : id ∉ ids) (op : NodeOp)
    (latching : Latching ids op) : Unlatched id op := by
  rcases latching with foreign | ⟨other, member, rung', lowest', rfl⟩
  · exact unlatched_of_foreign id op foreign
  · intro rung lowest same
    cases same
    exact absent member

theorem meets_latching (env : Surroundings) (ids : List String) : env.Meets (Latching ids) :=
  fun n op member => .inl (env.theirs n op member)

/-- The context comes from a preflight of this pass, and the candidate has not been latched since. -/
def Checked (d : Driver) (env : Surroundings) (start : NodeState) (first last : Point NodeOp) (commitmentId : String)
    (context : EscapeSweepTickContext) : Prop :=
  ∃ known before found, first ≤ known ∧ Cleared d env start known before commitmentId found ∧
    ((d.storeAt start before).candidates.lookup commitmentId).isSome = true ∧
    context = ⟨found.residentRung, found.sweep⟩ ∧
    Follows (Unlatched commitmentId) (before.took (found.latch commitmentId)) last

theorem Checked.follows {d : Driver} {env : Surroundings} {start : NodeState} {first last last' : Point NodeOp}
    {commitmentId : String} {context : EscapeSweepTickContext}
    (checked : Checked d env start first last commitmentId context) (onward : Follows (Unlatched commitmentId) last last') :
    Checked d env start first last' commitmentId context := by
  obtain ⟨known, before, found, after, clear, resident, same, unlatched⟩ := checked
  exact ⟨known, before, found, after, clear, resident, same, unlatched.trans onward⟩

theorem answers_sweepContexts {d : Driver} (env : Surroundings) {start : NodeState} (ids : List String) (once : ids.Nodup)
    (s : Pass d start) :
    Answers (Latching ids) (d.sweepContexts env ids) s (fun contexts t => ∀ id context,
      contexts.lookup id = some context → id ∈ ids ∧ Checked d env start s.point t.point id context) := by
  induction ids generalizing s with
  | nil =>
    apply answers_pure
    intro id context found
    cases found
  | cons id rest ih =>
    obtain ⟨absent, once⟩ := List.nodup_cons.mp once
    have meets := meets_latching env (id :: rest)
    have later : ∀ t : Pass d start, Answers (Latching (id :: rest)) (d.sweepContexts env rest) t
        (fun contexts u => Quiet (Latching rest) t u ∧ ∀ other context, contexts.lookup other = some context →
          other ∈ rest ∧ Checked d env start t.point u.point other context) :=
      fun t => answers_relax (ih once t) (Latching.more (fun _ => List.mem_cons_of_mem id))
    apply answers_bind _ (answers_read meets)
    intro armed s₁ first _
    cases armed with
    | false =>
      apply answers_weaken (later s₁)
      rintro contexts t _ ⟨_, each⟩ other context found
      obtain ⟨member, known, before, report, after, rest⟩ := each other context found
      exact ⟨List.mem_cons_of_mem id member, known, before, report, first.le.trans after, rest⟩
    | true =>
      have latches : ∀ rung lowest, Latching (id :: rest) (.background (.latchEscapeRung id rung lowest)) :=
        fun rung lowest => .inr ⟨id, List.mem_cons_self, rung, lowest, rfl⟩
      apply answers_bind _ (answers_attempt (answers_preflight env (fun op foreign => .inl foreign) id latches))
      intro checked s₂ second cleared
      apply answers_bind _ (later s₂)
      rintro contexts s₃ _ ⟨third, each⟩
      have others : ∀ other context, contexts.lookup other = some context →
          other ∈ id :: rest ∧ Checked d env start s.point s₃.point other context := by
        intro other context found
        obtain ⟨member, known, before, report, after, rest⟩ := each other context found
        exact ⟨List.mem_cons_of_mem id member, known, before, report, (first.le.trans second.le).trans after, rest⟩
      cases checked with
      | error reason =>
        apply answers_pure
        exact others
      | ok context =>
        apply answers_pure
        intro other context' found
        rcases lookup_insert_some.mp found with ⟨rfl, rfl⟩ | ⟨_, found⟩
        · obtain ⟨known, before, report, after, clear, resident, reached, rfl⟩ := cleared _ rfl
          refine ⟨List.mem_cons_self, known, before, report, first.le.trans after, clear, resident, rfl, ?_⟩
          rw [← reached]
          exact third.toFollows.weaken (Latching.unlatched absent)
        · exact others other context' found

/-! ### Release -/

/-- The steps that go on while shares are handed out. -/
def Guarded (op : NodeOp) : Prop :=
  (Foreign op ∧ lockFree op = true) ∨ ∃ id now, op = .background (.releasePartials id now)

theorem Guarded.unlatched (id : String) (op : NodeOp) (guarded : Guarded op) : Unlatched id op := by
  rcases guarded with ⟨foreign, _⟩ | ⟨_, _, rfl⟩
  · exact unlatched_of_foreign id op foreign
  · intro rung lowest same
    cases same

theorem guarded_of_within (op : NodeOp) (waiting : Foreign op ∧ lockFree op = true) : Guarded op := .inl waiting

theorem meets_within (env : Surroundings) : (env.within lockFree).Meets (fun op => Foreign op ∧ lockFree op = true) :=
  Surroundings.Meets.within (meets_foreign env) lockFree

theorem meets_guarded (env : Surroundings) : (env.within lockFree).Meets Guarded :=
  (meets_within env).weaken guarded_of_within

theorem isArmedEscape_of_calm {before after : PartialStore} {id : String} (calm : Calm before after)
    (armed : isArmedEscape after id = true) : isArmedEscape before id = true := by
  unfold isArmedEscape PartialStore.isArmedEscape at armed ⊢
  rw [calm.armed] at armed
  obtain ⟨overlay, resident⟩ := Bool.and_eq_true_iff.mp armed
  obtain ⟨later, found, escape⟩ := (Option.any_eq_true _ _).mp resident
  obtain ⟨earlier, present, evolved⟩ := calm.kept id later found
  rw [overlay, present, Option.any_some, ← evolved.role]
  exact escape

/-- While shares are handed out the armed escape stays what it is. -/
theorem calm_guarded (d : Driver) (w : World) (op : NodeOp) (guarded : Guarded op) :
    Calm w.node.store (d.node.nodeStep w op).1.node.store := by
  rcases guarded with ⟨_, free⟩ | ⟨id, now, rfl⟩
  · exact calm_nodeStep d.mounted w op free
  · have stepped : (d.node.nodeStep w (.background (.releasePartials id now))).1.node.store =
        (w.node.store.releasePartials d.channel id now).1 := by
      simp [NodeConfig.nodeStep, NodeConfig.onStore, d.mounted, storeStep]
    rw [stepped]
    exact ⟨(sameSafety_releasePartials d.channel _ id now).armed, kept_releasePartials d.channel _ id now⟩

section Gates

variable (d : Driver) (env : Surroundings) (start : NodeState)

/-- What holds where shares leave: the gate is open, the clock was read under the signing lock, and an armed escape
was checked in this pass. -/
structure Handed (first before : Point NodeOp) (commitmentId : String) (release : Release) (now : Nat) : Prop where
  gate : ∃ node c window, d.channel.nodes[d.channel.nodeId]? = some node ∧
    (d.storeAt start before).candidates.lookup commitmentId = some c ∧
    Released d.channel (d.storeAt start before) c now window ∧
    release = ⟨releaseItems d.channel commitmentId c node.signingPubkey (releaseFrom c) (releaseThrough d.channel c),
      window.deadline⟩
  clock : ∃ reading, first ≤ reading ∧ Follows Guarded reading before ∧ (env.view reading.moment).now = now
  swept : isArmedEscape (d.storeAt start before) commitmentId = true →
    ∃ context, Checked d env start first before commitmentId context

/-- The transaction is that of a rung up to the latch which has the signatures of a quorum, of a candidate that may
fire at `now`. -/
structure Complete (s : PartialStore) (commitmentId : String) (now : Nat) (finalized : Finalized) : Prop where
  fires : s.withBroadcastAuthorization commitmentId now = .ok ()
  quorum : ∃ c variant, s.candidates.lookup commitmentId = some c ∧ finalized.rung ≤ c.authorizedRung ∧
    c.variant finalized.rung = some variant ∧ variant.hasQuorum d.node.threshold d.channel.nodes = true ∧
    d.extract variant.psbt = some finalized.tx

/-- What a send relies on: in this pass the transaction was finalized, and an armed escape was checked. -/
structure Ready (first last : Point NodeOp) (commitmentId : String) (finalized : Finalized) : Prop where
  complete : ∃ reading completed, [first, reading, completed, last].IsChain (· ≤ ·) ∧
    Complete d (d.storeAt start completed) commitmentId (env.view reading.moment).now finalized
  swept : (∀ p, first ≤ p → p ≤ last → isArmedEscape (d.storeAt start p) commitmentId = true) →
    ∃ known checked found, first ≤ known ∧ Cleared d env start known checked commitmentId found ∧ checked ≤ last ∧
      sweepRungAdmissible d.policy found.sweep finalized.tx.unsigned (vsize finalized.tx) = .ok ()

/-- The walk through the ancestors and the mempool test answered for exactly these bytes. -/
def Accepted (first last : Point NodeOp) (tx : RawTransaction) : Prop :=
  ∃ accepted walked tested residentRung, [first, accepted, walked, tested, last].IsChain (· ≤ ·) ∧
    d.assembleEscapePackage tx residentRung (d.node.nodeAfter start accepted.run).node.authorized
      (env.view walked.moment) = .ok [d.consensus.serialize tx] ∧
    (env.view tested.moment).backend.testPackageAccept [d.consensus.serialize tx] = .ok .accepted

/-- What holds where a transaction leaves. -/
structure Sent (first before : Point NodeOp) (commitmentId : String) (finalized : Finalized) (now : Nat) : Prop where
  gate : (d.storeAt start before).withBroadcastAuthorization commitmentId now = .ok ()
  clock : (env.view before.moment).now = now
  ready : Ready d env start first before commitmentId finalized
  accepted : Accepted d env start first before finalized.tx

/-- What was given out in a pass that began at `first` had passed its gate. -/
def Justified (first : Point NodeOp) (t : Pass d start) : Emission → Prop
  | .shares commitmentId release now gate => ∃ before, first ≤ before ∧ gate ≤ t.point ∧
      gate = before.took (.background (.releasePartials commitmentId now)) ∧
      Handed d env start first before commitmentId release now
  | .transaction commitmentId finalized now gate => ∃ before, first ≤ before ∧ gate ≤ t.point ∧
      gate = before.took (.background (.withBroadcastAuthorization commitmentId now)) ∧
      Sent d env start first before commitmentId finalized now

end Gates

variable {d : Driver} {env : Surroundings} {start : NodeState}

theorem lasting_justified (ok : NodeOp → Prop) (first : Point NodeOp) : Lasting ok (Justified d env start first) := by
  intro t u emission follows justified
  cases emission with
  | shares commitmentId release now gate =>
    obtain ⟨before, low, high, rest⟩ := justified
    exact ⟨before, low, high.trans follows.le, rest⟩
  | transaction commitmentId finalized now gate =>
    obtain ⟨before, low, high, rest⟩ := justified
    exact ⟨before, low, high.trans follows.le, rest⟩

theorem handed_of_gate {first reading before : Point NodeOp} {id : String} {release : Release}
    (after : first ≤ reading)
    (released : ((d.node.nodeAfter start before.run).node.store.releasePartials d.channel id
      (env.view reading.moment).now).2 = some release)
    (waited : Follows Guarded reading before)
    (swept : isArmedEscape (d.storeAt start before) id = true →
      ∃ context, Checked d env start first before id context) :
    Handed d env start first before id release (env.view reading.moment).now := by
  refine ⟨?_, ⟨reading, after, waited, rfl⟩, swept⟩
  rcases releasePartials_cases d.channel (d.storeAt start before) id (env.view reading.moment).now with
    none | ⟨node, c, window, self, found, gate, out⟩
  · rw [Driver.storeAt] at none
    rw [none] at released
    cases released
  · rw [Driver.storeAt] at out
    rw [out] at released
    exact ⟨node, c, window, self, found, gate, (Option.some.inj released).symm⟩

/-- A candidate that is the armed escape at its gate was so when it was looked up. -/
theorem armed_before {first before : Point NodeOp} {id : String} {contexts : Map String EscapeSweepTickContext}
    {s : Pass d start} (waiting : Follows (fun op => Foreign op ∧ lockFree op = true) s.point before)
    (held : ¬(isArmedEscape s.world.node.store id && (contexts.lookup id).isNone) = true)
    (checked : ∀ id context, contexts.lookup id = some context → Checked d env start first s.point id context)
    (armed : isArmedEscape (d.storeAt start before) id = true) :
    ∃ context, Checked d env start first before id context := by
  have toGate : Follows Guarded s.point before := waiting.weaken guarded_of_within
  have calm : Calm (d.storeAt start s.point) (d.storeAt start before) := by
    apply toGate.invariant d.node.nodeStep _ (fun w => Calm (d.storeAt start s.point) w.node.store)
    · intro w op guarded calm
      exact calm.trans (calm_guarded d w op guarded)
    · exact .of_same rfl rfl
  have armedHere := isArmedEscape_of_calm calm armed
  rw [storeAt_point] at armedHere
  rw [armedHere, Bool.true_and] at held
  cases known : contexts.lookup id with
  | none =>
    rw [known] at held
    exact absurd rfl held
  | some context => exact ⟨context, (checked id context known).follows (toGate.weaken (Guarded.unlatched id))⟩

/-- Every share that leaves has passed its gate. -/
theorem emits_releaseDue (first reading : Point NodeOp) (after : first ≤ reading)
    (contexts : Map String EscapeSweepTickContext) (ids : List String) (s : Pass d start)
    (waited : Follows Guarded reading s.point) (checked : ∀ id context, contexts.lookup id = some context →
      Checked d env start first s.point id context) :
    Emits Guarded (Justified d env start first)
      (d.releaseDue (env.within lockFree) contexts (env.view reading.moment).now ids) s (fun _ _ => True) := by
  induction ids generalizing s with
  | nil => exact emits_of_answers (answers_pure trivial)
  | cons id rest ih =>
    have lasting : Lasting Guarded (Justified d env start first) := lasting_justified Guarded first
    apply emits_after lasting _ (answers_read (meets_guarded env))
    intro _ s₁ quiet₁ same
    subst same
    have checked₁ : ∀ id context, contexts.lookup id = some context → Checked d env start first s₁.point id context :=
      fun id context found =>
        (checked id context found).follows (quiet₁.toFollows.weaken (Guarded.unlatched id))
    have waited₁ := waited.trans quiet₁.toFollows
    split
    · exact ih s₁ waited₁ checked₁
    next held =>
      apply emits_after lasting _ (answers_act (meets_within env) guarded_of_within
        (fun _ => .inr ⟨id, (env.view reading.moment).now, rfl⟩))
      rintro release s₂ quiet₂ ⟨before, waiting, reached, rfl⟩
      have checked₂ : ∀ id context, contexts.lookup id = some context →
          Checked d env start first s₂.point id context :=
        fun id context found =>
          (checked₁ id context found).follows (quiet₂.toFollows.weaken (Guarded.unlatched id))
      have waited₂ := waited₁.trans quiet₂.toFollows
      split
      · exact ih s₂ waited₂ checked₂
      next release released =>
        apply emits_bind lasting (fun _ t => t.point = s₂.point)
        · apply emits_emit
          · have toGate : Follows Guarded s₁.point before := waiting.weaken guarded_of_within
            refine ⟨before, after.trans (waited₁.trans toGate).le, le_rfl, reached, ?_⟩
            exact handed_of_gate after released (waited₁.trans toGate) (armed_before waiting held checked₁)
          · rfl
        · intro _ s₃ _ same
          exact ih s₃ (same ▸ waited₂) (fun id context found => same ▸ checked₂ id context found)

theorem meets_any (env : Surroundings) : env.Meets (fun _ => True) := fun _ _ _ => trivial

theorem emits_releaseHalf (first : Point NodeOp) (contexts : Map String EscapeSweepTickContext) (ids : List String)
    (s : Pass d start) (after : first ≤ s.point) (checked : ∀ id context, contexts.lookup id = some context →
      Checked d env start first s.point id context) :
    Emits (fun _ => True) (Justified d env start first) (d.releaseHalf env contexts ids) s (fun _ _ => True) := by
  have lasting : ∀ ok, Lasting ok (Justified d env start first) := fun ok => lasting_justified ok first
  apply emits_after (lasting _) _ (answers_relax (answers_read (meets_foreign env)) (fun _ _ => trivial))
  rintro _ s₁ _ ⟨quiet₁, _⟩
  apply emits_after (lasting _) _ (answers_relax (answers_look (meets_guarded env)) (fun _ _ => trivial))
  rintro _ s₂ _ ⟨quiet₂, reading, before, waited, rfl⟩
  have released := @emits_releaseDue d env start first reading ((after.trans quiet₁.le).trans before.le) contexts ids s₂
    waited
  apply emits_relax (released _) (fun _ _ => trivial)
  intro id context found
  apply Checked.follows _ (quiet₂.toFollows.weaken (Guarded.unlatched id))
  exact (checked id context found).follows (quiet₁.toFollows.weaken (unlatched_of_foreign id))

/-! ### Broadcast -/

theorem package_of_assemble {tx : RawTransaction} {residentRung : Option RawTransaction} {authorized : Finset Txid}
    {outside : Outside} {package : List Bytes}
    (assembled : d.assembleEscapePackage tx residentRung authorized outside = .ok package) :
    package = [d.consensus.serialize tx] := by
  unfold Driver.assembleEscapePackage at assembled
  cases residentRung with
  | none => exact ((Ancestry.assemblePackage_ok tx package).mp assembled).2
  | some resident => exact ((Ancestry.assembleReplacementPackage_ok tx resident package).mp assembled).2.2

theorem Ready.later {first last last' : Point NodeOp} {commitmentId : String} {finalized : Finalized}
    (ready : Ready d env start first last commitmentId finalized) (later : last ≤ last') :
    Ready d env start first last' commitmentId finalized where
  complete := by
    obtain ⟨reading, completed, ordered, done⟩ := ready.complete
    refine ⟨reading, completed, ?_, done⟩
    simp only [List.isChain_cons_cons, List.isChain_singleton, and_true] at ordered ⊢
    exact ⟨ordered.1, ordered.2.1, ordered.2.2.trans later⟩
  swept armed := by
    obtain ⟨known, checked, found, after, clear, before, admits⟩ :=
      ready.swept (fun p low high => armed p low (high.trans later))
    exact ⟨known, checked, found, after, clear, before.trans later, admits⟩

theorem Accepted.later {first last last' : Point NodeOp} {tx : RawTransaction}
    (tested : Accepted d env start first last tx) (later : last ≤ last') : Accepted d env start first last' tx := by
  obtain ⟨accepted, walked, asked, residentRung, ordered, rest⟩ := tested
  refine ⟨accepted, walked, asked, residentRung, ?_, rest⟩
  simp only [List.isChain_cons_cons, List.isChain_singleton, and_true] at ordered ⊢
  exact ⟨ordered.1, ordered.2.1, ordered.2.2.1, ordered.2.2.2.trans later⟩

theorem emits_send (first : Point NodeOp) (commitmentId : String) (finalized : Finalized) (s : Pass d start)
    (after : first ≤ s.point) (ready : Ready d env start first s.point commitmentId finalized)
    (tested : Accepted d env start first s.point finalized.tx) :
    Emits (fun _ => True) (Justified d env start first) (d.send env commitmentId finalized) s (fun _ _ => True) := by
  have lasting : Lasting (fun _ => True) (Justified d env start first) := lasting_justified _ first
  apply emits_after lasting _ (answers_act (meets_any env) (fun _ _ => trivial) (fun _ => trivial))
  rintro checked s₁ quiet₁ ⟨before, waited, reached, rfl⟩
  split
  · exact emits_of_answers answers_fail
  next now passed =>
    apply emits_bind lasting (fun _ _ => True)
    · apply emits_emit
      · obtain ⟨_, gate, clock⟩ := ok_of_map passed
        subst clock
        refine ⟨before, after.trans waited.le, le_rfl, reached, gate, rfl, ready.later waited.le, ?_⟩
        exact tested.later waited.le
      · trivial
    · intro _ s₂ _ _
      exact emits_of_answers (silent_attempt (silent_ask (meets_any env) _) s₂)

theorem emits_broadcastPackage (first : Point NodeOp) (commitmentId : String) (finalized : Finalized)
    (residentRung : Option RawTransaction) (s : Pass d start) (after : first ≤ s.point)
    (ready : Ready d env start first s.point commitmentId finalized) :
    Emits (fun _ => True) (Justified d env start first) (d.broadcastPackage env commitmentId finalized residentRung) s
      (fun _ _ => True) := by
  have lasting : Lasting (fun _ => True) (Justified d env start first) := lasting_justified _ first
  have meets := meets_any env
  apply emits_after lasting _ (silent_transactionIsSettled meets _ s)
  intro settled s₁ quiet₁ _
  cases settled with
  | true => exact emits_of_answers (answers_pure trivial)
  | false =>
    apply emits_after lasting _ (answers_read meets)
    intro _ s₂ quiet₂ same
    subst same
    apply emits_after lasting _ (answers_read meets)
    intro armed s₃ quiet₃ _
    apply emits_after lasting _ (answers_ask meets)
    rintro package s₄ quiet₄ ⟨walked, toWalk, afterWalk, assembled⟩
    apply emits_after lasting _ (answers_ask meets)
    rintro verdict s₅ quiet₅ ⟨asked, toTest, afterTest, verdict_eq⟩
    cases verdict with
    | rejected reason => exact emits_of_answers answers_fail
    | accepted =>
      apply emits_bind lasting (fun _ _ => True)
      · have toThird := quiet₁.toFollows.trans (quiet₂.toFollows.trans quiet₃.toFollows)
        have toLast := toThird.trans (quiet₄.toFollows.trans quiet₅.toFollows)
        apply emits_send first commitmentId finalized s₅ (after.trans toLast.le) (ready.later toLast.le)
        have named : ∃ resident, d.assembleEscapePackage finalized.tx resident s₂.world.node.authorized
            (env.view walked.moment) = .ok package := by
          cases armed with
          | true => exact ⟨residentRung, assembled⟩
          | false => exact ⟨none, assembled⟩
        obtain ⟨resident, assembled⟩ := named
        obtain rfl := package_of_assemble assembled
        refine ⟨s₂.point, walked, asked, resident, ?_, ?_, verdict_eq⟩
        · simp only [List.isChain_cons_cons, List.isChain_singleton, and_true]
          exact ⟨after.trans (quiet₁.toFollows.trans quiet₂.toFollows).le, (quiet₃.toFollows.trans toWalk).le,
            (afterWalk.trans toTest).le, afterTest.le⟩
        · rw [authorized_point]
          exact assembled
      · intro reply s₆ _ _
        apply emits_of_answers
        cases reply with
        | ok sent => exact answers_pure trivial
        | error e =>
          apply silent_bind (silent_attempt (silent_transactionIsSettled meets _))
          intro again
          split
          · exact silent_pure _
          · exact silent_fail _

/-! ### One candidate that is due -/

theorem silent_settleCandidate (env : Surroundings) (commitmentId : String) (armedEscape : Bool) :
    Silent (fun _ => True) (d.settleCandidate env commitmentId armedEscape : Firing d start Unit) := by
  have meets := meets_any env
  apply silent_bind (silent_act meets _ (fun _ => trivial))
  intro _
  apply silent_bind (silent_act meets _ (fun _ => trivial))
  intro _
  exact silent_act meets _ (fun _ => trivial)

theorem silent_stillToSend (env : Surroundings) (commitmentId : String) (txid : Txid) (armed : Bool)
    (context : Option EscapeSweepTickContext) :
    Silent (fun _ => True) (d.stillToSend env commitmentId txid armed context : Firing d start Bool) := by
  have meets := meets_any env
  cases armed with
  | true =>
    apply silent_bind (silent_read meets _)
    intro rungTxids
    apply silent_bind (silent_read meets _)
    intro latched
    apply silent_bind (silent_attempt (silent_armedEscapeNetworkState meets _ _ _))
    intro standing
    split
    · exact silent_bind (silent_settleCandidate env commitmentId true) (fun _ => silent_pure false)
    · exact silent_pure false
    · exact silent_pure true
    · exact silent_pure false
  | false =>
    apply silent_bind (silent_attempt (silent_transactionIsSettled meets txid))
    intro settled
    split
    · exact silent_bind (silent_settleCandidate env commitmentId false) (fun _ => silent_pure false)
    · exact silent_pure true
    · exact silent_pure false

/-- The context comes from a preflight of this pass. -/
def Known (d : Driver) (env : Surroundings) (start : NodeState) (first last : Point NodeOp) (commitmentId : String)
    (context : EscapeSweepTickContext) : Prop :=
  ∃ known checked found, first ≤ known ∧ Cleared d env start known checked commitmentId found ∧ checked ≤ last ∧
    context = ⟨found.residentRung, found.sweep⟩

theorem Known.later {first last last' : Point NodeOp} {commitmentId : String} {context : EscapeSweepTickContext}
    (context_known : Known d env start first last commitmentId context) (later : last ≤ last') :
    Known d env start first last' commitmentId context := by
  obtain ⟨known, checked, found, after, clear, before, same⟩ := context_known
  exact ⟨known, checked, found, after, clear, before.trans later, same⟩

theorem Checked.known {first last : Point NodeOp} {commitmentId : String} {context : EscapeSweepTickContext}
    (context_checked : Checked d env start first last commitmentId context) :
    Known d env start first last commitmentId context := by
  obtain ⟨known, checked, found, after, clear, _, same, onward⟩ := context_checked
  refine ⟨known, checked, found, after, clear, ?_, same⟩
  exact (checked.le_took _).trans onward.le

theorem answers_combineContext (first : Point NodeOp) (commitmentId : String) (armed : Bool)
    (context : Option EscapeSweepTickContext) (s : Pass d start) (after : first ≤ s.point)
    (known : ∀ c, context = some c → Known d env start first s.point commitmentId c) :
    Answers (fun _ => True) (d.combineContext env commitmentId armed context) s (fun context t =>
      ∀ c, context = some c → Known d env start first t.point commitmentId c) := by
  cases context with
  | some c => exact answers_pure known
  | none =>
    cases armed with
    | false =>
      apply answers_pure
      intro c none
      cases none
    | true =>
      apply answers_bind _ (answers_preflight env (fun _ _ => trivial) commitmentId (fun _ _ => trivial))
      rintro _ s₁ _ ⟨known, checked, found, later, clear, _, reached, rfl⟩
      apply answers_pure
      intro c same
      cases same
      refine ⟨known, checked, found, after.trans later, clear, ?_, rfl⟩
      rw [reached]
      exact checked.le_took _

theorem finalGate_ok {armed : Bool} {context : Option EscapeSweepTickContext} {tx : RawTransaction}
    (passed : d.finalGate armed context tx = .ok ()) (escape : armed = true) :
    ∃ c, context = some c ∧ sweepRungAdmissible d.policy c.env tx.unsigned (vsize tx) = .ok () := by
  subst escape
  cases context with
  | none => cases passed
  | some c => exact ⟨c, rfl, passed⟩

/-- A search that finalizes found a rung up to its start with a quorum. -/
theorem finalizeFrom_quorum {ch : ChannelState} {c : Candidate} {threshold deadline top : Nat}
    {finalized : FinalizedCandidate} (done : finalizeFrom ch c threshold deadline top = some finalized) :
    finalized.rung ≤ top ∧ ∃ variant, c.variant finalized.rung = some variant ∧
      variant.hasQuorum threshold ch.nodes = true := by
  induction top with
  | zero =>
    unfold finalizeFrom at done
    split at done
    · cases done
    next variant found =>
      split_ifs at done with quorum
      obtain ⟨tx, _, rfl⟩ := Option.map_eq_some_iff.mp done
      exact ⟨le_rfl, variant, found, quorum⟩
  | succ top ih =>
    have lower : finalizeFrom ch c threshold deadline top = some finalized → finalized.rung ≤ top + 1 ∧
        ∃ variant, c.variant finalized.rung = some variant ∧ variant.hasQuorum threshold ch.nodes = true := by
      intro below
      obtain ⟨bound, rest⟩ := ih below
      exact ⟨bound.trans (Nat.le_succ top), rest⟩
    unfold finalizeFrom at done
    split at done
    · cases done
    next variant found =>
      split_ifs at done with quorum
      · split at done
        · cases done
          exact ⟨le_rfl, variant, found, quorum⟩
        · exact lower done
      · exact lower done

theorem complete_of_tryFinalize {s : PartialStore} {commitmentId : String} {now : Nat} {finalized : Finalized}
    (done : d.tryFinalize s commitmentId now = some finalized) : Complete d s commitmentId now finalized := by
  unfold Driver.tryFinalize at done
  obtain ⟨found, searched, done⟩ := Option.bind_eq_some_iff.mp done
  obtain ⟨variant, atRung, done⟩ := Option.bind_eq_some_iff.mp done
  obtain ⟨tx, extracted, rfl⟩ := Option.map_eq_some_iff.mp done
  obtain ⟨c, window, held, slot, unfrozen, unsent, scheduled, inside, searched⟩ := tryFinalize_gate searched
  rw [held, Option.bind_some] at atRung
  obtain ⟨below, variant', atRung', quorum⟩ := finalizeFrom_quorum searched
  cases atRung.symm.trans atRung'
  refine ⟨?_, c, variant, held, below, atRung, quorum, extracted⟩
  simp [withBroadcastAuthorization, held, slot, unfrozen, unsent, scheduled, inside]

theorem emits_combineOne (first : Point NodeOp) (contexts : Map String EscapeSweepTickContext) (commitmentId : String)
    (s : Pass d start) (after : first ≤ s.point) (known : ∀ id c, contexts.lookup id = some c →
      Known d env start first s.point id c) :
    Emits (fun _ => True) (Justified d env start first) (d.combineOne env contexts commitmentId) s (fun _ _ => True) := by
  have lasting : Lasting (fun _ => True) (Justified d env start first) := lasting_justified _ first
  have meets := meets_any env
  apply emits_after lasting _ (answers_read meets)
  intro txid s₁ quiet₁ _
  cases txid with
  | none => exact emits_of_answers (answers_pure trivial)
  | some txid =>
    apply emits_after lasting _ (answers_read meets)
    intro _ s₂ quiet₂ same
    subst same
    apply emits_after lasting _ (silent_stillToSend env commitmentId txid _ _ s₂)
    intro unsent s₃ quiet₃ _
    cases unsent with
    | false => exact emits_of_answers (answers_pure trivial)
    | true =>
      have toThird := quiet₁.toFollows.trans (quiet₂.toFollows.trans quiet₃.toFollows)
      have known₃ : ∀ c, contexts.lookup commitmentId = some c → Known d env start first s₃.point commitmentId c :=
        fun c found => (known commitmentId c found).later toThird.le
      apply emits_after lasting _ (answers_combineContext first commitmentId _ _ s₃ (after.trans toThird.le) known₃)
      intro context s₄ quiet₄ context_known
      apply emits_after lasting _ (answers_look meets)
      rintro _ s₅ quiet₅ ⟨reading, toReading, afterReading, rfl⟩
      apply emits_after lasting _ (answers_act meets (fun _ _ => trivial) (fun _ => trivial))
      rintro _ s₆ quiet₆ ⟨completed, waited, reached, rfl⟩
      split
      · exact emits_of_answers (answers_pure trivial)
      next finalized complete =>
        have toComplete : Follows (fun _ => True) s₃.point completed :=
          (quiet₄.toFollows.trans quiet₅.toFollows).trans waited
        have afterComplete : Follows (fun _ => True) completed s₆.point := by
          rw [reached]
          exact .took completed trivial
        have toSixth := toThird.trans (toComplete.trans afterComplete)
        apply emits_lift_bind
        intro _ passed
        have ready : Ready d env start first s₆.point commitmentId finalized := by
          refine ⟨⟨reading, completed, ?_, complete_of_tryFinalize complete⟩, ?_⟩
          · simp only [List.isChain_cons_cons, List.isChain_singleton, and_true]
            exact ⟨after.trans (toThird.trans (quiet₄.toFollows.trans toReading)).le, (afterReading.trans waited).le,
              afterComplete.le⟩
          · intro armed
            have here := armed s₂.point (after.trans (quiet₁.toFollows.trans quiet₂.toFollows).le)
              (quiet₃.toFollows.trans (toComplete.trans afterComplete)).le
            rw [storeAt_point] at here
            obtain ⟨c, same, admits⟩ := finalGate_ok passed here
            obtain ⟨known, checked, found, later, clear, before, rfl⟩ := context_known c same
            exact ⟨known, checked, found, later, clear,
              before.trans (quiet₅.toFollows.trans quiet₆.toFollows).le, admits⟩
        apply emits_bind lasting _
          (emits_broadcastPackage first commitmentId finalized _ s₆ (after.trans toSixth.le) ready)
        intro outcome s₇ _ _
        apply emits_of_answers
        apply silent_bind _ (fun _ => ?_)
        · unfold Driver.settleUnlessArmed
          split_ifs
          · exact silent_pure ()
          · exact silent_settleCandidate env commitmentId false
        · cases outcome with
          | sent txid => exact silent_pure 1
          | alreadySettled txid => exact silent_pure 0

theorem emits_combineAndBroadcast (first : Point NodeOp) (contexts : Map String EscapeSweepTickContext)
    (ids : List String) (s : Pass d start) (after : first ≤ s.point) (known : ∀ id c, contexts.lookup id = some c →
      Known d env start first s.point id c) :
    Emits (fun _ => True) (Justified d env start first) (d.combineAndBroadcast env contexts ids) s (fun _ _ => True) := by
  have lasting : Lasting (fun _ => True) (Justified d env start first) := lasting_justified _ first
  induction ids generalizing s with
  | nil => exact emits_of_answers (answers_pure trivial)
  | cons id rest ih =>
    apply emits_bind lasting _ (emits_attempt (emits_combineOne first contexts id s after known))
    intro outcome s₁ onward _
    apply emits_bind lasting _ (ih s₁ (after.trans onward.le) (fun id c found => (known id c found).later onward.le))
    intro later s₂ _ _
    cases outcome with
    | ok sent => exact emits_of_answers (answers_pure trivial)
    | error reason => exact emits_of_answers (answers_pure trivial)

/-! ### The pass -/

theorem sortDedup_nodup (ids : List String) : (Driver.sortDedup ids).Nodup := by
  have sorted : (ids.insertionSort (· ≤ ·)).Pairwise (· ≤ ·) := List.pairwise_insertionSort _ ids
  have kept : (Driver.sortDedup ids).Pairwise (· ≤ ·) := sorted.sublist (List.destutter_sublist _ _)
  have apart : (Driver.sortDedup ids).IsChain (· ≠ ·) := List.isChain_destutter _ _
  have rises : (Driver.sortDedup ids).IsChain (· < ·) := by
    rw [List.isChain_iff_forall_rel_of_append_cons_cons] at apart ⊢
    intro a b front rest same
    have ordered := List.isChain_iff_forall_rel_of_append_cons_cons.mp kept.isChain same
    exact lt_of_le_of_ne ordered (apart same)
  exact (List.isChain_iff_pairwise.mp rises).imp (fun less => ne_of_lt less)

theorem silent_lockdownTick (env : Surroundings) (now : Nat) :
    Silent (fun _ => True) (d.lockdownTick env now : Firing d start Unit) := by
  have meets := meets_any env
  apply silent_bind (silent_act meets _ (fun _ => trivial))
  intro due
  apply silent_bind (silent_read meets _)
  intro locked
  split_ifs
  · exact silent_act meets _ (fun _ => trivial)
  · exact silent_pure ()

theorem silent_settlementPollable (env : Surroundings) (now : Nat) (ids : List String) :
    Silent (fun _ => True) (d.settlementPollable env now ids : Firing d start (List String)) := by
  induction ids with
  | nil => exact silent_pure []
  | cons id rest ih =>
    apply silent_bind (silent_act (meets_any env) _ (fun _ => trivial))
    intro polled
    exact silent_bind ih (fun later => silent_pure _)

theorem emits_fireTick (s : Pass d start) :
    Emits (fun _ => True) (Justified d env start s.point) (d.fireTick env) s (fun _ _ => True) := by
  have lasting : Lasting (fun _ => True) (Justified d env start s.point) := lasting_justified _ s.point
  have meets := meets_any env
  apply emits_after lasting _ (answers_look meets)
  intro started s₁ quiet₁ _
  apply emits_after lasting _ (silent_act meets _ (fun _ => trivial) s₁)
  intro _ s₂ quiet₂ _
  apply emits_after lasting _ (silent_lockdownTick env _ s₂)
  intro _ s₃ quiet₃ _
  apply emits_after lasting _ (silent_act meets _ (fun _ => trivial) s₃)
  intro due s₄ quiet₄ _
  apply emits_after lasting _ (silent_read meets _ s₄)
  intro pending s₅ quiet₅ _
  apply emits_after lasting _ (silent_settlementPollable env _ _ s₅)
  intro polled s₆ quiet₆ _
  have toSixth := (quiet₁.trans quiet₂).trans ((quiet₃.trans quiet₄).trans (quiet₅.trans quiet₆))
  simp only
  split_ifs
  · exact emits_of_answers (answers_pure trivial)
  · apply emits_after lasting _ (answers_relax (answers_sweepContexts env _ (sortDedup_nodup _) s₆) (fun _ _ => trivial))
    rintro contexts s₇ quiet₇ ⟨_, each⟩
    have checked : ∀ id context, contexts.lookup id = some context →
        Checked d env start s.point s₇.point id context := by
      intro id context found
      obtain ⟨_, known, before, report, after, rest⟩ := each id context found
      exact ⟨known, before, report, toSixth.le.trans after, rest⟩
    apply emits_bind lasting _ (emits_releaseHalf s.point contexts _ s₇ (toSixth.trans quiet₇).le checked)
    intro _ s₈ onward _
    apply emits_combineAndBroadcast s.point contexts _ s₈ ((toSixth.trans quiet₇).le.trans onward.le)
    intro id c found
    exact (checked id c found).known.later onward.le

/-- Whatever has left the node in so many passes was justified in the pass it left in. -/
theorem justified_of_passes (n : Nat) : ∀ emission ∈ (d.passes env start n).emitted,
    ∃ k < n, Justified d env start (d.passes env start k).point (d.passes env start (k + 1)) emission := by
  induction n with
  | zero =>
    intro emission none
    cases none
  | succ n ih =>
    intro emission member
    obtain ⟨adds, _⟩ := @emits_fireTick d env start (d.passes env start n)
    obtain ⟨new, out, each⟩ := adds.given
    have grown : (d.passes env start (n + 1)).emitted = (d.passes env start n).emitted ++ new := out
    rw [grown] at member
    rcases List.mem_append.mp member with old | fresh
    · obtain ⟨k, below, justified⟩ := ih emission old
      exact ⟨k, below.trans (Nat.lt_succ_self n), justified⟩
    · exact ⟨n, Nat.lt_succ_self n, each emission fresh⟩

/-! ### What a released rung has passed -/

theorem ladderKept_follows {ok : NodeOp → Prop} {p q : Point NodeOp} (id : String) (follows : Follows ok p q)
    (unenrolled : Follows (fun op => registersOp op = false) p q) (unlatched : ∀ op, ok op → Unlatched id op) :
    LadderKept id (d.storeAt start p) (d.storeAt start q) := by
  apply (follows.and unenrolled).invariant d.node.nodeStep _ (fun w => LadderKept id (d.storeAt start p) w.node.store)
  · intro w op allowed kept
    exact kept.trans (ladderKept_nodeStep d.mounted id w op allowed.2 (unlatched op allowed.1))
  · intro later found
    exact ⟨later, found, .refl later⟩

theorem storeAt_latch (p : Point NodeOp) (found : Preflight) (id : String) :
    d.storeAt start (p.took (found.latch id)) =
      (d.storeAt start p).updateCandidate id (latchRung found.selected.1
        (lowestAdmissible found.ladder found.selected.1)) := by
  unfold Driver.storeAt NodeConfig.nodeAfter Point.took
  rw [exec_snoc]
  simp [Preflight.latch, NodeConfig.nodeStep, NodeConfig.onStore, d.mounted, storeStep, latchEscapeRung]

/-- Between the floor and the latch that a preflight left, every rung passes the gate of the sweep. -/
theorem Cleared.admits {known checked last : Point NodeOp} {id : String} {found : Preflight}
    (cleared : Cleared d env start known checked id found)
    (resident : ((d.storeAt start checked).candidates.lookup id).isSome = true)
    (onward : Follows (Unlatched id) (checked.took (found.latch id)) last)
    (unenrolled : Follows (fun op => registersOp op = false) known last) (ascending : IsLadder found.rungs) {c : Candidate}
    (held : (d.storeAt start last).candidates.lookup id = some c) {rung : Nat} (low : c.clampedFloor ≤ rung)
    (high : rung ≤ c.authorizedRung) :
    RungAdmissible d.policy d.maxVaultSatisfactionWeight found.sweep found.rungs rung := by
  have took : checked ≤ checked.took (found.latch id) := checked.le_took _
  obtain ⟨early, late⟩ := unenrolled.divide cleared.others.le (took.trans onward.le)
  obtain ⟨_, after⟩ := late.divide took onward.le
  obtain ⟨latched, foundLatched, sinceLatch⟩ := ladderKept_follows id onward after (fun _ unlatched => unlatched) c held
  obtain ⟨before, present⟩ := Option.isSome_iff_exists.mp resident
  rw [storeAt_latch, updateCandidate, lookup_adjust_self, present] at foundLatched
  cases foundLatched
  have known_rungs : before.rungTxs = found.rungs := by
    obtain ⟨first, foundFirst, sinceKnown⟩ :=
      ladderKept_follows id cleared.others early (unlatched_of_foreign id) before present
    have listed := cleared.ladder
    rw [candidateRungTxs, foundFirst] at listed
    exact sinceKnown.txs.trans (Option.some.inj listed)
  obtain ⟨tip, fees, reading, ordered, chosen⟩ := cleared.chosen
  simp only [List.isChain_cons_cons, List.isChain_singleton, and_true] at ordered
  have toReading : known ≤ reading := (ordered.1.trans ordered.2.1).trans ordered.2.2.1
  have latch : (escapeRung (d.storeAt start reading) id).getD 0 = before.authorizedRung := by
    have others := (cleared.others.divide toReading ordered.2.2.2).2
    obtain ⟨atReading, foundReading, sinceReading⟩ :=
      ladderKept_follows id others (early.divide toReading ordered.2.2.2).2 (unlatched_of_foreign id) before present
    rw [escapeRung, foundReading, sinceReading.authorizedRung]
    rfl
  rw [latch] at chosen
  obtain ⟨same, size, judged, _⟩ := scoreLadder_ok ascending cleared.some_rung cleared.scored
  have count : found.ladder.rungs.length = before.bumps.length + 1 := by
    rw [same, ← known_rungs]
    exact candidateRungTxs_length before
  have inside : before.authorizedRung < found.ladder.rungs.length := by
    rw [count]
    exact Nat.lt_succ_of_le (Nat.min_le_right _ _)
  obtain ⟨passes, choice, _, isMax⟩ := judged.selectEscapeRung_spec (same ▸ ascending) inside chosen
  obtain ⟨lowest, below⟩ := lowestAdmissible_spec passes
  have top : found.selected.1 ≤ before.bumps.length := by
    have bounded := judged.inside passes
    omega
  obtain ⟨atLatch, atFloor⟩ := latchRung_spec (by rw [isMax]; exact le_max_right _ _) top below
  rw [sinceLatch.clampedFloor, atFloor] at low
  rw [sinceLatch.authorizedRung, atLatch] at high
  have admits := rungAdmissible_iff ascending cleared.some_rung cleared.scored
  exact rungAdmissible_interval d.policy d.maxVaultSatisfactionWeight ascending low high ((admits _).mpr lowest)
    ((admits _).mpr passes)

/-- Whatever the handlers, the other drivers and the chain do meanwhile, every share leaves through its gate, at a time
read under the signing lock. Where the candidate is the armed escape at that gate, a preflight of the same pass has
passed every check and latched, and every rung that leaves passes the gate of the sweep as that preflight measured
it, unless a request was enrolled in between. -/
theorem shares_leave_checked (d : Driver) (env : Surroundings) (start : NodeState) (n : Nat) (commitmentId : String)
    (release : Release) (now : Nat) (gate : Point NodeOp)
    (left : Emission.shares commitmentId release now gate ∈ (d.passes env start n).emitted) :
    ∃ k < n, ∃ before, (d.passes env start k).point ≤ before ∧ gate ≤ (d.passes env start (k + 1)).point ∧
      gate = before.took (.background (.releasePartials commitmentId now)) ∧
      Handed d env start (d.passes env start k).point before commitmentId release now ∧
      (isArmedEscape (d.storeAt start before) commitmentId = true → ∃ known checked found,
        (d.passes env start k).point ≤ known ∧ Cleared d env start known checked commitmentId found ∧
          checked.took (found.latch commitmentId) ≤ before ∧
          (IsLadder found.rungs → Follows (fun op => registersOp op = false) known before → ∀ item ∈ release.items,
            RungAdmissible d.policy d.maxVaultSatisfactionWeight found.sweep found.rungs item.rung)) := by
  obtain ⟨k, below, before, after, inside, same, handed⟩ := justified_of_passes n _ left
  refine ⟨k, below, before, after, inside, same, handed, ?_⟩
  intro armed
  obtain ⟨context, known, checked, found, later, cleared, resident, _, onward⟩ := handed.swept armed
  refine ⟨known, checked, found, later, cleared, onward.le, ?_⟩
  intro ascending unenrolled item member
  obtain ⟨node, c, window, _, held, released, rfl⟩ := handed.gate
  obtain ⟨low, high⟩ := releaseItems_rung member
  exact cleared.admits resident onward unenrolled ascending held ((le_max_right _ _).trans low)
    (high.trans (Nat.min_le_left _ _))

namespace FireSample
open Channel.Sample

/-- The coin of the vault. -/
def coin : Prevout := ⟨⟨100000, [0, 32]⟩, true⟩

/-- A chain that shows the coin confirmed and unspent, with nothing in the mempool. -/
def chain : ChainBackend :=
  { prevouts := fun outpoints => .ok (outpoints.map (fun _ => some coin))
    vaultUnspent := fun _ _ => .ok [(⟨leBytes 32 1, 0⟩, coin)]
    transactionConfirmed := fun _ => .ok false
    prevout := fun _ => .ok (some coin)
    mempoolTransaction := fun _ => .ok none
    tipHeight := .ok 100
    blockMedianFeerate := fun _ => .ok none
    mempoolResident := fun _ => .ok none
    testPackageAccept := fun _ => .ok .accepted
    broadcast := .ok }

def params : CheckParams :=
  ⟨SweepSample.descriptor [0, 32], [SweepSample.descriptor [0, 20]], some (SweepSample.descriptor [0, 20]), 10, 20000⟩

def driver : Driver :=
  { node := Node.Sample.node
    channel := Channel.Sample.channel
    mounted := rfl
    policy := ⟨params, 1, 90⟩
    maxVaultSatisfactionWeight := 10
    vaultScripts := [[0, 32]]
    consensus := ⟨fun _ => .error "malformed", fun raw => leBytes 4 raw.lockTime, fun raw => leBytes 32 raw.lockTime⟩
    extract := fun psbt => some (bare psbt.unsignedTx)
    extracts := fun psbt => (congrArg some (unsigned_bare psbt.unsignedTx)).symm }

def alone : Surroundings where
  others _ := []
  theirs _ _ none := (List.not_mem_nil none).elim
  view _ := ⟨120, 120, chain⟩

/-- The sweep of the coin, final. -/
def sweep : Psbt :=
  { psbt 1 11 with unsignedTx := { (psbt 1 11).unsignedTx with input := [⟨⟨leBytes 32 1, 0⟩, sequenceMax⟩] } }

/-- A spend comes in under the duress pin. Its carrier reaches two holders, and a peer sends its partial of the
escape. -/
def armedRun : List StoreOp :=
  [.recordArmIntent true "carrier-a" "nonce-a" (generation 900 900) 0 0 timing,
    .registerCandidates [spend "a" "a-escape" 1 10 true (some ⟨100, 300⟩) 900,
        ⟨⟨sweep, [], "a-escape", "a", false, .escape, false, none, 900⟩, keys⟩]
      ⟨"a-escape", "a", "carrier-a", true, 5, 0⟩ (some ⟨"a", 40000, 0, 900⟩) 0,
    .markCarrierPropagated "carrier-a",
    .confirmCarrier 1 "carrier-a" 2 10 timing 10,
    .acceptPartial ⟨"a-escape", leBytes 32 11, leBytes 32 7, 0, 1, [48, 3]⟩ 20]

def armed : NodeState :=
  { Node.Sample.start with store := storeAfter Channel.Sample.channel Channel.Sample.config armedRun }

/-- A run that enrolls nothing, with the escape armed and one rung throughout. -/
def Undisturbed (run : List NodeOp) : Prop :=
  (∀ op ∈ run, registersOp op = false) ∧
    ∀ known ∈ run.inits, isArmedEscape (driver.storeAt armed ⟨known, 0⟩) "a-escape" = true ∧
      ∀ rungs ∈ candidateRungTxs (driver.storeAt armed ⟨known, 0⟩) "a-escape", rungs.length = 1

instance (run : List NodeOp) : Decidable (Undisturbed run) :=
  inferInstanceAs (Decidable (_ ∧ _))

/-- What left, when, and whether nothing had disturbed the run up to its gate. -/
def report : Emission → Option (List Nat) × String × Nat × Bool
  | .shares commitmentId release now gate =>
    (some (release.items.map ReleaseItem.rung), commitmentId, now, decide (Undisturbed gate.run.dropLast))
  | .transaction commitmentId _ now gate => (none, commitmentId, now, decide (Undisturbed gate.run.dropLast))

/-- The pass hands out its share of the armed escape and sends the transaction. -/
theorem emitted_report : (driver.passes alone armed 1).emitted.map report =
    [(some [0], "a-escape", 120, true), (none, "a-escape", 120, true)] := by
  unfold Driver.passes Driver.fireTick Driver.sweepContexts Driver.escapeSweepPreReleaseAdmissible
    Driver.escapeSweepChecks Driver.combineAndBroadcast Driver.combineOne Driver.combineContext Driver.broadcastPackage
    Driver.assembleEscapePackage Ancestry.assemblePackage
  simp only [Ancestry.validateAncestors_eq_loopInputs]
  decide +kernel

end FireSample


theorem shares_leave_checked_sample :
    ∃ release gate before known checked found, ∃ item ∈ release.items, Emission.shares "a-escape" release 120 gate ∈
        (FireSample.driver.passes FireSample.alone FireSample.armed 1).emitted ∧
      gate = before.took (.background (.releasePartials "a-escape" 120)) ∧
      Handed FireSample.driver FireSample.alone FireSample.armed ⟨[], 0⟩ before "a-escape" release 120 ∧
      isArmedEscape (FireSample.driver.storeAt FireSample.armed before) "a-escape" = true ∧
      Cleared FireSample.driver FireSample.alone FireSample.armed known checked "a-escape" found ∧
      RungAdmissible FireSample.driver.policy 10 found.sweep found.rungs item.rung := by
  have out := List.mem_map.mp (FireSample.emitted_report ▸ List.mem_cons_self)
  obtain ⟨emission, member, same⟩ := out
  cases emission with
  | transaction commitmentId finalized now gate => cases same
  | shares commitmentId release now gate =>
    simp only [FireSample.report, Prod.mk.injEq, Option.some.injEq, decide_eq_true_eq] at same
    obtain ⟨rungs, rfl, rfl, unenrolled, standing⟩ := same
    obtain ⟨k, below, before, _, _, rfl, handed, swept⟩ :=
      shares_leave_checked FireSample.driver FireSample.alone FireSample.armed 1 _ release 120 gate member
    obtain rfl := Nat.lt_one_iff.mp below
    simp only [Point.took, List.dropLast_concat, List.mem_inits] at unenrolled standing
    have armed := (standing before.run List.prefix_rfl).1
    obtain ⟨known, checked, found, _, cleared, latched, passes⟩ := swept armed
    have early : known ≤ before := (cleared.others.le.trans (checked.le_took _)).trans latched
    have ladder : IsLadder found.rungs := by
      obtain ⟨rung, only⟩ := List.length_eq_one_iff.mp ((standing known.run early.1).2 found.rungs cleared.ladder)
      rw [only]
      exact .singleton rung
    have quiet : Follows (fun op => registersOp op = false) known before := by
      obtain ⟨later, same⟩ := early.1
      exact ⟨⟨later, same.symm, fun op member => unenrolled op (same ▸ List.mem_append_right _ member)⟩, early.2⟩
    obtain ⟨item, rest, items, _, _⟩ := List.map_eq_cons_iff.mp rungs
    have inside : item ∈ release.items := items ▸ List.mem_cons_self
    exact ⟨release, _, before, known, checked, found, item, inside, member, rfl, handed, armed, cleared,
      passes ladder quiet item inside⟩

/-- Whatever goes on meanwhile, a transaction leaves through the last gate, at the time read there. In the same pass it
was finalized, its ancestors were walked and its exact bytes passed the mempool test; and an escape that stays the armed
one passes the gate of the sweep as a preflight of this pass measured it. -/
theorem transactions_leave_ready (d : Driver) (env : Surroundings) (start : NodeState) (n : Nat) (commitmentId : String)
    (finalized : Finalized) (now : Nat) (gate : Point NodeOp)
    (left : Emission.transaction commitmentId finalized now gate ∈ (d.passes env start n).emitted) :
    ∃ k < n, ∃ before, (d.passes env start k).point ≤ before ∧ gate ≤ (d.passes env start (k + 1)).point ∧
      gate = before.took (.background (.withBroadcastAuthorization commitmentId now)) ∧
      Sent d env start (d.passes env start k).point before commitmentId finalized now :=
  justified_of_passes n _ left

theorem transactions_leave_ready_sample :
    ∃ finalized gate before, Emission.transaction "a-escape" finalized 120 gate ∈
        (FireSample.driver.passes FireSample.alone FireSample.armed 1).emitted ∧
      gate = before.took (.background (.withBroadcastAuthorization "a-escape" 120)) ∧
      Sent FireSample.driver FireSample.alone FireSample.armed ⟨[], 0⟩ before "a-escape" finalized 120 ∧
      ∃ known checked found, Cleared FireSample.driver FireSample.alone FireSample.armed known checked "a-escape" found ∧
        sweepRungAdmissible FireSample.driver.policy found.sweep finalized.tx.unsigned (vsize finalized.tx) = .ok () := by
  have out := List.mem_map.mp (FireSample.emitted_report ▸ List.mem_cons_of_mem _ List.mem_cons_self)
  obtain ⟨emission, member, same⟩ := out
  cases emission with
  | shares commitmentId release now gate => cases same
  | transaction commitmentId finalized now gate =>
    simp only [FireSample.report, Prod.mk.injEq, true_and, decide_eq_true_eq] at same
    obtain ⟨rfl, rfl, _, standing⟩ := same
    obtain ⟨k, below, before, _, _, rfl, sent⟩ :=
      transactions_leave_ready FireSample.driver FireSample.alone FireSample.armed 1 _ finalized 120 gate member
    obtain rfl := Nat.lt_one_iff.mp below
    simp only [Point.took, List.dropLast_concat, List.mem_inits] at standing
    obtain ⟨known, checked, found, _, cleared, _, admits⟩ :=
      sent.ready.swept (fun p _ early => (standing p.run early.1).1)
    exact ⟨finalized, _, before, member, rfl, sent, known, checked, found, cleared, admits⟩

end BtcPolicy.Fire
