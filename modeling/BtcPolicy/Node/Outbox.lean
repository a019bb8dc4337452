import BtcPolicy.Node.Advance

/-! The outbox over whole runs. A request comes to a node from its coordinator and from every member that relays it,
and whoever brings it, the node passes it on: what keeps the members from passing it round for ever is that each of
them stages it once. -/

namespace BtcPolicy.Node
open FiniteMap Word Bitcoin HotLedger Replay Channel Pin Policy Runs PartialStore NodeConfig

/-- What tells one request of the coordinator from another. -/
def TaggedRequest.stamp (request : TaggedRequest) : String × Nat :=
  (request.coordRequest.nonce, request.coordRequest.expiry)

/-- The log has let this stamp pass, and lets it pass no more. -/
def Knows (s : NodeState) (stamp : String × Nat) : Prop := Remembers stamp.1 stamp.2 s.sign.coordNonces

/-- Nothing is in the outbox twice, and everything in it was signed by the coordinator and is known to the log. -/
structure Staged (node : NodeConfig) (s : NodeState) : Prop where
  once : (s.outbox.map TaggedRequest.stamp).Nodup
  signed : ∀ request ∈ s.outbox, CoordSigned node request
  known : ∀ request ∈ s.outbox, Knows s request.stamp

/-- Beside it, a thread that still owes the outbox its request is the only one to do so, and has not done it. -/
structure Orderly (node : NodeConfig) (w : World) : Prop where
  formed : ∀ k held, w.threads.lookup k = some held → Formed node held
  staged : Staged node w.node
  owed : ∀ k held, w.threads.lookup k = some held → 0 < held.phase.owes →
    Knows w.node held.request.stamp ∧ held.request.stamp ∉ w.node.outbox.map TaggedRequest.stamp
  apart : ∀ k l held other, w.threads.lookup k = some held → w.threads.lookup l = some other → k ≠ l →
    0 < held.phase.owes → 0 < other.phase.owes → held.request.stamp ≠ other.request.stamp

theorem checked_of_owes {phase : Phase} (owes : 0 < phase.owes) : phase.checked = true := by
  cases phase with
  | _ => first | rfl | cases owes

/-- What a section does to the outbox, and what its thread owes it then. -/
inductive Relays (node : NodeConfig) (held : Thread) (s t : NodeState) (phase : Phase) : Prop where
  | pushed (outbox : t.outbox = s.outbox ++ [held.request]) (owed : 0 < held.phase.owes) (settled : phase.owes = 0)
  | admitted (outbox : t.outbox = s.outbox) (admitted : Admitted node held.request s t)
  | still (outbox : t.outbox = s.outbox) (owes : 0 < phase.owes → 0 < held.phase.owes)

section Steps

variable {node : NodeConfig} {ch : ChannelState} {w : World}

theorem Advances.relays {held : Thread} {step : Section} {s t : NodeState} {phase : Phase}
    (advances : Advances node ch held step s t phase) (formed : Formed node held) :
    Relays node held s t phase ∧ ∀ stamp, Knows s stamp → Knows t stamp := by
  obtain ⟨⟨request, most, takes, own, budget⟩, first, admits⟩ := advances
  obtain rfl := own formed
  obtain ⟨times, le, outbox⟩ := takes.pushed
  refine ⟨?_, fun stamp known => takes.remembers _ _ known⟩
  have most_le : most ≤ held.phase.owes := by omega
  have small : held.phase.owes ≤ 1 := held.phase.owes_le_one
  by_cases none : times = 0
  · rw [none, List.replicate_zero, List.append_nil] at outbox
    by_cases admitted : begins step = true ∧ 0 < phase.owes
    · exact .admitted outbox (admits admitted.1 admitted.2)
    · refine .still outbox ?_
      intro owes
      have later : begins step = false := by simpa [owes] using admitted
      rw [later] at budget
      simp only [Bool.false_eq_true, if_false] at budget
      omega
  · -- What was pushed was owed, so this was not the section that let the request pass.
    have once : times = 1 := by omega
    have owed : held.phase.owes = 1 := by omega
    have later : begins step = false := by
      by_contra start
      have nothing := first (by simpa using start)
      omega
    rw [later] at budget
    simp only [Bool.false_eq_true, if_false] at budget
    rw [once, List.replicate_one] at outbox
    exact .pushed outbox (by omega) (by omega)

/-- A step that touches neither the threads nor the outbox nor the nonce log. -/
theorem Orderly.of_same {w' : World} (orderly : Orderly node w) (threads : w'.threads = w.threads)
    (outbox : w'.node.outbox = w.node.outbox) (nonces : w'.node.sign.coordNonces = w.node.sign.coordNonces) :
    Orderly node w' where
  formed := by rw [threads]; exact orderly.formed
  staged := by
    refine ⟨by rw [outbox]; exact orderly.staged.once, by rw [outbox]; exact orderly.staged.signed, ?_⟩
    unfold Knows
    rw [outbox, nonces]
    exact orderly.staged.known
  owed := by
    unfold Knows
    rw [threads, outbox, nonces]
    exact orderly.owed
  apart := by rw [threads]; exact orderly.apart

variable (mounted : node.channel = some ch)
include mounted

/-- One section of a thread, whatever the other threads are about. -/
theorem orderly_advance (orderly : Orderly node w) {thread : Nat} {held : Thread} {step : Section} {t : NodeState}
    {phase : Phase} (found : w.threads.lookup thread = some held)
    (taken : node.advance held w.node step = some (t, phase)) :
    Orderly node { w with node := t, threads := adjust thread (fun held => { held with phase := phase }) w.threads } := by
  have formed := orderly.formed thread held found
  obtain ⟨relays, knows⟩ := (advances_advance mounted taken).relays formed
  have after : ∀ k later, (adjust thread (fun held => { held with phase := phase }) w.threads).lookup k = some later →
      k = thread ∧ later = { held with phase := phase } ∨ k ≠ thread ∧ w.threads.lookup k = some later := by
    intro k later here
    by_cases same : k = thread
    · rw [same, lookup_adjust_self, found] at here
      cases here
      exact .inl ⟨same, rfl⟩
    · rw [lookup_adjust_ne same] at here
      exact .inr ⟨same, here⟩
  constructor
  · intro k later here
    obtain ⟨_, rfl⟩ | ⟨_, other⟩ := after k later here
    · exact formed_advance formed taken
    · exact orderly.formed k later other
  · obtain ⟨once, signed, known⟩ := orderly.staged
    cases relays with
    | pushed outbox owed settled =>
      have mine := orderly.owed thread held found owed
      refine ⟨?_, ?_, ?_⟩
      · rw [outbox, List.map_append, List.map_singleton]
        exact List.nodup_append.mpr ⟨once, List.nodup_singleton _, fun a old b new same =>
          mine.2 (List.mem_singleton.mp new ▸ same ▸ old)⟩
      · rw [outbox]
        intro request member
        rcases List.mem_append.mp member with old | new
        · exact signed request old
        · rw [List.mem_singleton.mp new]
          exact formed.signed (checked_of_owes owed)
      · rw [outbox]
        intro request member
        rcases List.mem_append.mp member with old | new
        · exact knows _ (known request old)
        · rw [List.mem_singleton.mp new]
          exact knows _ mine.1
    | admitted outbox _ =>
      rw [← outbox] at once signed known
      exact ⟨once, signed, fun request member => knows _ (known request member)⟩
    | still outbox _ =>
      rw [← outbox] at once signed known
      exact ⟨once, signed, fun request member => knows _ (known request member)⟩
  · intro k later here owes
    obtain ⟨_, rfl⟩ | ⟨different, other⟩ := after k later here
    · cases relays with
      | pushed outbox owed settled => exact absurd settled owes.ne'
      | admitted outbox admitted =>
        refine ⟨admitted.known, ?_⟩
        rw [outbox]
        intro staged
        obtain ⟨request, member, same⟩ := List.mem_map.mp staged
        have known : Knows w.node request.stamp := orderly.staged.known request member
        rw [same] at known
        exact admitted.fresh known
      | still outbox owed =>
        obtain ⟨known, absent⟩ := orderly.owed thread held found (owed owes)
        exact ⟨knows _ known, by rw [outbox]; exact absent⟩
    · obtain ⟨known, absent⟩ := orderly.owed k later other owes
      refine ⟨knows _ known, ?_⟩
      cases relays with
      | pushed outbox owed settled =>
        rw [outbox, List.map_append, List.mem_append]
        rintro (old | new)
        · exact absent old
        · exact orderly.apart k thread later held other found different owes owed (List.mem_singleton.mp new)
      | admitted outbox _ => rw [outbox]; exact absent
      | still outbox _ => rw [outbox]; exact absent
  · -- A request that has just passed is none of those the log had let pass before.
    have against : ∀ k other, k ≠ thread → w.threads.lookup k = some other → 0 < phase.owes → 0 < other.phase.owes →
        held.request.stamp ≠ other.request.stamp := by
      intro k other different here owes owed same
      cases relays with
      | pushed _ _ settled => exact absurd settled owes.ne'
      | admitted _ admitted =>
        have known : Knows w.node other.request.stamp := (orderly.owed k other here owed).1
        rw [← same] at known
        exact admitted.fresh known
      | still _ mine => exact orderly.apart thread k held other found here (Ne.symm different) (mine owes) owed same
    intro k l first second here there different owes owed
    obtain ⟨rfl, rfl⟩ | ⟨_, other⟩ := after k first here
    · obtain ⟨rfl, rfl⟩ | ⟨elsewhere, other⟩ := after l second there
      · exact absurd rfl different
      · exact against l second elsewhere other owes owed
    · obtain ⟨rfl, rfl⟩ | ⟨_, other'⟩ := after l second there
      · exact (against k first different other owed owes).symm
      · exact orderly.apart k l first second other other' different owes owed

theorem orderly_nodeStep (orderly : Orderly node w) (op : NodeOp) : Orderly node (node.nodeStep w op).1 := by
  cases op with
  | arrive thread origin request =>
    simp only [nodeStep]
    split_ifs with known
    · exact orderly
    have idle : (node.arrival origin w.node).owes = 0 ∧ Formed node ⟨origin, request, node.arrival origin w.node⟩ := by
      unfold arrival
      cases origin with
      | direct => simp only; split_ifs <;> exact ⟨rfl, .idle rfl rfl rfl⟩
      | relayed sender => simp only; split_ifs <;> exact ⟨rfl, .idle rfl rfl rfl⟩
      | outerStale sender => simp only; split_ifs <;> exact ⟨rfl, .idle rfl rfl rfl⟩
    constructor
    · intro k held here
      rcases lookup_insert_some.mp here with ⟨_, rfl⟩ | ⟨_, old⟩
      · exact idle.2
      · exact orderly.formed k held old
    · exact orderly.staged
    · intro k held here owes
      rcases lookup_insert_some.mp here with ⟨_, rfl⟩ | ⟨_, old⟩
      · exact absurd idle.1 owes.ne'
      · exact orderly.owed k held old owes
    · intro k l held other here there different owes owed
      rcases lookup_insert_some.mp here with ⟨_, rfl⟩ | ⟨_, old⟩
      · exact absurd idle.1 owes.ne'
      · rcases lookup_insert_some.mp there with ⟨_, rfl⟩ | ⟨_, old'⟩
        · exact absurd idle.1 owed.ne'
        · exact orderly.apart k l held other old old' different owes owed
  | advance thread step =>
    simp only [nodeStep]
    split
    · exact orderly
    next t phase taken =>
      obtain ⟨held, found, taken⟩ := Option.bind_eq_some_iff.mp taken
      exact orderly_advance mounted orderly found taken
  | enterLockdown => exact orderly.of_same rfl rfl rfl
  | settleRead key commitmentId =>
    simp only [nodeStep]
    split_ifs
    · exact orderly
    · exact orderly.of_same rfl rfl rfl
  | settleMark key armedEscape =>
    simp only [nodeStep]
    split
    · exact orderly.of_same rfl rfl rfl
    · exact orderly
  | settleRelease key =>
    simp only [nodeStep]
    split
    · exact orderly.of_same rfl rfl rfl
    · exact orderly
  | background op =>
    simp only [nodeStep, onStore, mounted]
    exact orderly.of_same rfl rfl rfl

/-- Over every run, with any number of requests in flight and under any clocks: whoever brings a request, the node
stages it for the other members once at most, and stages nothing the coordinator has not signed. -/
theorem staged_once {s : NodeState} (staged : Staged node s) (run : List NodeOp) :
    Staged node (node.nodeAfter s run).node := by
  have orderly : Orderly node (node.nodeAfter s run) := by
    apply exec_invariant node.nodeStep (Orderly node) (fun w op orderly => orderly_nodeStep mounted orderly op)
    refine ⟨?_, ⟨staged.once, staged.signed, staged.known⟩, ?_, ?_⟩
    · intro k held here
      cases here
    · intro k held here
      cases here
    · intro k l held other here
      cases here
  exact orderly.staged

end Steps

theorem Sample.start_staged : Staged Sample.node Sample.start :=
  ⟨List.nodup_nil, fun _ member => absurd member List.not_mem_nil, fun _ member => absurd member List.not_mem_nil⟩

/-- A spend that is submitted here and comes back from a member is staged once. -/
theorem staged_once_sample :
    let run := Sample.spendEntry 1 (Sample.spendRequest "nonce-a" 5000) 10 ++
      [Sample.registration 1 20, .arrive 2 (.relayed 1) (.spend (Sample.spendRequest "nonce-a" 5000)),
        .advance 2 (.ingress 30 30)]
    (Sample.node.nodeAfter Sample.start run).node.outbox.map TaggedRequest.stamp = [("nonce-a", 5000)] ∧
      Staged Sample.node (Sample.node.nodeAfter Sample.start run).node :=
  ⟨by decide, staged_once rfl Sample.start_staged _⟩

end BtcPolicy.Node
