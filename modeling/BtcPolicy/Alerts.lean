import BtcPolicy.Watchtower

/-! The alert queue over any sequence of calls. Watchtower alerts and the channel's freshness diagnostics
share it: entries are appended, rewritten in place, taken out of the middle and evicted at the front. A
client that hands back the cursor of its last poll sees every alert that is still there, once. -/

namespace BtcPolicy.Watchtower
open FiniteMap

def freshnessKey (peerNodeId : Nat) : String := s!"freshness:{peerNodeId}"

/-- The first entry with the key takes the event and keeps its sequence. -/
def updateRetained (key : String) (event : QueuedEvent) : List QueueEntry → List QueueEntry
  | [] => []
  | entry :: rest =>
    if entry.key = key then { entry with event := event } :: rest else entry :: updateRetained key event rest

/-- The end of `record_freshness`: the peer's entry leaves its place, and a new one is appended. -/
def AlertQueue.republish (queue : AlertQueue) (event : FreshnessEvent) (publishCount : Nat) : AlertQueue :=
  let key := freshnessKey event.peerNodeId
  AlertQueue.append
    { queue with
      entries := queue.entries.eraseP (fun entry => decide (entry.key = key))
      seen := insert key queue.seen }
    key (.channelFreshness { event with rejectCount := publishCount })

def AlertQueue.recordFreshness (queue : AlertQueue) (event : FreshnessEvent) (ingressHighWater : Nat) : AlertQueue :=
  match queue.publishedFreshness.lookup event.peerNodeId with
  | some published =>
    if ingressHighWater < published.ingressHighWater then queue
    else if ingressHighWater = published.ingressHighWater then
      if event.rejectCount ≤ published.rejectCount then queue
      else
        -- An entry that was evicted is not brought back.
        { queue with
          publishedFreshness :=
            queue.publishedFreshness.insert event.peerNodeId { published with rejectCount := event.rejectCount }
          entries := updateRetained (freshnessKey event.peerNodeId) (.channelFreshness event) queue.entries }
    else
      let publishCount := max published.rejectCount event.rejectCount
      AlertQueue.republish
        { queue with
          publishedFreshness := queue.publishedFreshness.insert event.peerNodeId ⟨ingressHighWater, publishCount⟩ }
        event publishCount
  | none =>
    AlertQueue.republish
      { queue with
        publishedFreshness := queue.publishedFreshness.insert event.peerNodeId ⟨ingressHighWater, event.rejectCount⟩ }
      event event.rejectCount

def AlertQueue.cursor (queue : AlertQueue) : Nat := queue.nextSeq - 1

/-- The entries past a cursor. -/
def AlertQueue.past (queue : AlertQueue) (since : Nat) : List QueueEntry :=
  queue.entries.filter (fun entry => decide (since < entry.sequence))

def AlertQueue.since (queue : AlertQueue) (since : Nat) : List QueuedEvent × Nat :=
  ((queue.past since).map (fun entry => entry.event), queue.cursor)

/-- The dedupe key of an event. -/
def QueuedEvent.key : QueuedEvent → String
  | .watchtower alert => s!"{alert.spendTxid}:{alert.outpoint}"
  | .channelFreshness event => freshnessKey event.peerNodeId

section Entries

/-- The keys of a list of entries. -/
def keysOf (entries : List QueueEntry) : List String := entries.map (fun entry => entry.key)

theorem nodup_keysOf_cons {entry : QueueEntry} {rest : List QueueEntry} :
    (keysOf (entry :: rest)).Nodup ↔ entry.key ∉ keysOf rest ∧ (keysOf rest).Nodup :=
  List.nodup_cons

/-- Eviction keeps the newest entries, and their keys are the ones still seen. -/
theorem evictOldest_spec (cap : Nat) (entries : List QueueEntry) (distinct : (keysOf entries).Nodup) :
    evictOldest cap entries (keysOf entries).toFinset =
      (entries.drop (entries.length - cap), (keysOf (entries.drop (entries.length - cap))).toFinset) := by
  induction entries with
  | nil => simp [evictOldest]
  | cons entry rest ih =>
    obtain ⟨fresh, distinct⟩ := nodup_keysOf_cons.mp distinct
    rw [evictOldest]
    split
    · rename_i surplus
      have longer : (entry :: rest).length - cap = (rest.length - cap) + 1 := by
        simp only [List.length_cons]
        omega
      have forgotten : (keysOf (entry :: rest)).toFinset.erase entry.key = (keysOf rest).toFinset := by
        have absent : entry.key ∉ (keysOf rest).toFinset := by rwa [List.mem_toFinset]
        simpa [keysOf] using Finset.erase_insert absent
      rw [forgotten, ih distinct, longer, List.drop_succ_cons]
    · rename_i fits
      have none : (entry :: rest).length - cap = 0 := by
        simp only [List.length_cons]
        omega
      rw [none, List.drop_zero]

theorem keysOf_updateRetained (key : String) (event : QueuedEvent) (entries : List QueueEntry) :
    keysOf (updateRetained key event entries) = keysOf entries := by
  induction entries with
  | nil => rfl
  | cons entry rest ih =>
    unfold updateRetained
    split
    · rfl
    · simpa [keysOf] using ih

theorem sequences_updateRetained (key : String) (event : QueuedEvent) (entries : List QueueEntry) :
    (updateRetained key event entries).map (fun entry => entry.sequence) =
      entries.map (fun entry => entry.sequence) := by
  induction entries with
  | nil => rfl
  | cons entry rest ih =>
    unfold updateRetained
    split
    · rfl
    · simpa using ih

/-- With distinct keys, an update rewrites the one entry with the key and no other. -/
theorem mem_updateRetained {key : String} {event : QueuedEvent} {entries : List QueueEntry} {entry : QueueEntry}
    (distinct : (keysOf entries).Nodup) (member : entry ∈ updateRetained key event entries) :
    (entry ∈ entries ∧ entry.key ≠ key) ∨ (entry.key = key ∧ entry.event = event) := by
  induction entries with
  | nil => simp [updateRetained] at member
  | cons first rest ih =>
    obtain ⟨fresh, distinct⟩ := nodup_keysOf_cons.mp distinct
    unfold updateRetained at member
    split at member
    · rename_i here
      rcases List.mem_cons.mp member with rfl | later
      · exact Or.inr ⟨here, rfl⟩
      · refine Or.inl ⟨List.mem_cons_of_mem _ later, ?_⟩
        intro same
        apply fresh
        have repeated : entry.key ∈ keysOf rest := List.mem_map_of_mem later
        rwa [same, ← here] at repeated
    · rename_i elsewhere
      rcases List.mem_cons.mp member with rfl | later
      · exact Or.inl ⟨List.mem_cons_self, elsewhere⟩
      · rcases ih distinct later with ⟨old, other⟩ | updated
        · exact Or.inl ⟨List.mem_cons_of_mem _ old, other⟩
        · exact Or.inr updated

/-- With distinct keys, taking the first entry with a key out leaves no entry with it. -/
theorem key_notMem_eraseP (key : String) {entries : List QueueEntry} (distinct : (keysOf entries).Nodup) :
    key ∉ keysOf (entries.eraseP (fun entry => decide (entry.key = key))) := by
  induction entries with
  | nil => simp [keysOf]
  | cons first rest ih =>
    obtain ⟨fresh, distinct⟩ := nodup_keysOf_cons.mp distinct
    by_cases here : first.key = key
    · simpa [here] using here ▸ fresh
    · have other : key ≠ first.key := fun same => here same.symm
      simpa [keysOf, here, other] using ih distinct

theorem keysOf_eraseP {key : String} {entries : List QueueEntry} (distinct : (keysOf entries).Nodup) :
    insert key (keysOf (entries.eraseP (fun entry => decide (entry.key = key)))).toFinset =
      insert key (keysOf entries).toFinset := by
  induction entries with
  | nil => rfl
  | cons first rest ih =>
    obtain ⟨fresh, distinct⟩ := nodup_keysOf_cons.mp distinct
    by_cases here : first.key = key
    · simp [keysOf, here]
    · have later := ih distinct
      simp only [keysOf] at later ⊢
      simp only [here, decide_false, Bool.false_eq_true, not_false_eq_true, List.eraseP_cons_of_neg, List.map_cons,
        List.toFinset_cons]
      rw [Finset.insert_comm, later, Finset.insert_comm]

end Entries

section Invariant

/-- What is retained: sequences rise and stay below the next one, the cap holds, and the keys seen are the
keys retained, each of them once. -/
structure Retention (queue : AlertQueue) : Prop where
  ordered : queue.entries.Pairwise (fun older newer => older.sequence < newer.sequence)
  below : ∀ entry ∈ queue.entries, entry.sequence < queue.nextSeq
  bounded : queue.entries.length ≤ queue.cap
  seen : queue.seen = (keysOf queue.entries).toFinset
  distinct : (keysOf queue.entries).Nodup

/-- A diagnostic in the queue shows the count that was last published for its peer. -/
def QueuedEvent.Current (published : Map Nat PublishedFreshness) : QueuedEvent → Prop
  | .watchtower _ => True
  | .channelFreshness event => ∃ last, published.lookup event.peerNodeId = some last ∧
      event.rejectCount = last.rejectCount

/-- The entries against the next sequence and the publication record. -/
structure Sound (entries : List QueueEntry) (nextSeq : Nat) (published : Map Nat PublishedFreshness) : Prop where
  ordered : entries.Pairwise (fun older newer => older.sequence < newer.sequence)
  inside : ∀ entry ∈ entries, 0 < entry.sequence ∧ entry.sequence < nextSeq
  started : 0 < nextSeq
  distinct : (keysOf entries).Nodup
  keyed : ∀ entry ∈ entries, entry.key = entry.event.key
  current : ∀ entry ∈ entries, entry.event.Current published

/-- The invariant of the whole queue. -/
structure Consistent (queue : AlertQueue) : Prop where
  sound : Sound queue.entries queue.nextSeq queue.publishedFreshness
  bounded : queue.entries.length ≤ queue.cap
  seen : queue.seen = (keysOf queue.entries).toFinset

variable {entries shorter : List QueueEntry} {nextSeq : Nat} {published : Map Nat PublishedFreshness}
  {queue : AlertQueue}

theorem Consistent.retention (consistent : Consistent queue) : Retention queue where
  ordered := consistent.sound.ordered
  below := fun entry member => (consistent.sound.inside entry member).2
  bounded := consistent.bounded
  seen := consistent.seen
  distinct := consistent.sound.distinct

theorem consistent_new (cap : Nat) : Consistent (AlertQueue.new cap) where
  sound := {
    ordered := List.Pairwise.nil
    inside := by simp [AlertQueue.new]
    started := Nat.one_pos
    distinct := List.nodup_nil
    keyed := by simp [AlertQueue.new]
    current := by simp [AlertQueue.new] }
  bounded := Nat.zero_le cap
  seen := rfl

theorem Sound.sublist (sound : Sound entries nextSeq published) (fewer : shorter.Sublist entries) :
    Sound shorter nextSeq published where
  ordered := sound.ordered.sublist fewer
  inside := fun entry member => sound.inside entry (fewer.subset member)
  started := sound.started
  distinct := sound.distinct.sublist (fewer.map _)
  keyed := fun entry member => sound.keyed entry (fewer.subset member)
  current := fun entry member => sound.current entry (fewer.subset member)

/-- A new entry takes the next sequence. -/
theorem Sound.snoc (sound : Sound entries nextSeq published) {event : QueuedEvent}
    (fresh : event.key ∉ keysOf entries) (current : event.Current published) :
    Sound (entries ++ [⟨nextSeq, event.key, event⟩]) (nextSeq + 1) published := by
  refine ⟨?_, ?_, Nat.succ_pos _, ?_, ?_, ?_⟩
  · rw [List.pairwise_append]
    refine ⟨sound.ordered, List.pairwise_singleton _ _, ?_⟩
    intro older member newer last
    rw [List.mem_singleton.mp last]
    exact (sound.inside older member).2
  · intro entry member
    rcases List.mem_append.mp member with old | last
    · exact ⟨(sound.inside entry old).1, Nat.lt_succ_of_lt (sound.inside entry old).2⟩
    · rw [List.mem_singleton.mp last]
      exact ⟨sound.started, Nat.lt_succ_self _⟩
  · have keys : keysOf (entries ++ [⟨nextSeq, event.key, event⟩]) = keysOf entries ++ [event.key] := by simp [keysOf]
    rw [keys]
    exact List.nodup_append'.mpr ⟨sound.distinct, List.nodup_singleton _, by simpa using fresh⟩
  · intro entry member
    rcases List.mem_append.mp member with old | last
    · exact sound.keyed entry old
    · rw [List.mem_singleton.mp last]
  · intro entry member
    rcases List.mem_append.mp member with old | last
    · exact sound.current entry old
    · rw [List.mem_singleton.mp last]
      exact current

/-- A publication leaves the events of the other keys current. -/
theorem QueuedEvent.Current.insert {event : QueuedEvent} (current : event.Current published) {peer : Nat}
    (other : event.key ≠ freshnessKey peer) (last : PublishedFreshness) :
    event.Current (published.insert peer last) := by
  cases event with
  | watchtower alert => trivial
  | channelFreshness freshness =>
    obtain ⟨shown, found, equal⟩ := current
    refine ⟨shown, ?_, equal⟩
    rw [lookup_insert_eq, if_neg]
    · exact found
    · intro same
      exact other (congrArg freshnessKey same)

/-- A peer with no entry may be published anew. -/
theorem Sound.publish (sound : Sound entries nextSeq published) {peer : Nat}
    (absent : freshnessKey peer ∉ keysOf entries) (last : PublishedFreshness) :
    Sound entries nextSeq (published.insert peer last) where
  ordered := sound.ordered
  inside := sound.inside
  started := sound.started
  distinct := sound.distinct
  keyed := sound.keyed
  current := by
    intro entry member
    apply (sound.current entry member).insert
    intro same
    apply absent
    rw [← same, ← sound.keyed entry member]
    exact List.mem_map_of_mem member

/-- Appending to a sound list of entries, with the new key already marked as seen. -/
theorem consistent_append (queue : AlertQueue) (event : QueuedEvent)
    (sound : Sound queue.entries queue.nextSeq queue.publishedFreshness)
    (fresh : event.key ∉ keysOf queue.entries) (current : event.Current queue.publishedFreshness)
    (marked : queue.seen = insert event.key (keysOf queue.entries).toFinset) :
    Consistent (queue.append event.key event) := by
  have longer := sound.snoc fresh current
  have seen : queue.seen = (keysOf (queue.entries ++ [⟨queue.nextSeq, event.key, event⟩])).toFinset := by
    rw [marked]
    ext key
    simp [keysOf]
  unfold AlertQueue.append
  rw [seen, evictOldest_spec queue.cap _ longer.distinct]
  refine ⟨longer.sublist (List.drop_sublist _ _), ?_, rfl⟩
  simp only [List.length_drop]
  omega

theorem Consistent.push (consistent : Consistent queue) (alert : Alert) : Consistent (queue.push alert).1 := by
  unfold AlertQueue.push
  simp only
  split
  · exact consistent
  · rename_i unseen
    rw [consistent.seen, List.mem_toFinset] at unseen
    exact consistent_append { queue with seen := insert (QueuedEvent.watchtower alert).key queue.seen }
      (.watchtower alert) consistent.sound unseen trivial (by rw [consistent.seen])

theorem Consistent.republish (consistent : Consistent queue) (event : FreshnessEvent)
    (last : PublishedFreshness) :
    Consistent (AlertQueue.republish
      { queue with publishedFreshness := queue.publishedFreshness.insert event.peerNodeId last }
      event last.rejectCount) := by
  have distinct := consistent.sound.distinct
  have absent := key_notMem_eraseP (freshnessKey event.peerNodeId) distinct
  have sound := (consistent.sound.sublist List.eraseP_sublist).publish absent last
  unfold AlertQueue.republish
  apply consistent_append _ (.channelFreshness { event with rejectCount := last.rejectCount }) sound absent
  · exact ⟨last, by rw [lookup_insert_eq, if_pos rfl], rfl⟩
  · simp only [QueuedEvent.key]
    rw [consistent.seen, keysOf_eraseP distinct]

/-- A higher count at the same high-water rewrites the peer's entry, if it is still there. -/
theorem Sound.update (sound : Sound entries nextSeq published) (event : FreshnessEvent) (last : PublishedFreshness)
    (same : event.rejectCount = last.rejectCount) :
    Sound (updateRetained (freshnessKey event.peerNodeId) (.channelFreshness event) entries) nextSeq
      (published.insert event.peerNodeId last) := by
  have sequences := sequences_updateRetained (freshnessKey event.peerNodeId) (.channelFreshness event) entries
  have changed : ∀ entry ∈ updateRetained (freshnessKey event.peerNodeId) (.channelFreshness event) entries,
      (entry ∈ entries ∧ entry.key ≠ freshnessKey event.peerNodeId) ∨
        (entry.key = freshnessKey event.peerNodeId ∧ entry.event = .channelFreshness event) :=
    fun entry member => mem_updateRetained sound.distinct member
  refine ⟨?_, ?_, sound.started, ?_, ?_, ?_⟩
  · have ordered := sound.ordered
    rw [← List.pairwise_map (f := fun entry : QueueEntry => entry.sequence) (R := (· < ·))] at ordered ⊢
    rwa [sequences]
  · intro entry member
    have listed : entry.sequence ∈ entries.map (fun entry => entry.sequence) := by
      rw [← sequences]
      exact List.mem_map_of_mem member
    obtain ⟨original, retained, equal⟩ := List.mem_map.mp listed
    rw [← equal]
    exact sound.inside original retained
  · rw [keysOf_updateRetained]
    exact sound.distinct
  · intro entry member
    rcases changed entry member with ⟨old, _⟩ | ⟨key, updated⟩
    · exact sound.keyed entry old
    · rw [key, updated]
      rfl
  · intro entry member
    rcases changed entry member with ⟨old, other⟩ | ⟨_, updated⟩
    · apply (sound.current entry old).insert
      rw [← sound.keyed entry old]
      exact other
    · rw [updated]
      exact ⟨last, by rw [lookup_insert_eq, if_pos rfl], same⟩

theorem Consistent.recordFreshness (consistent : Consistent queue) (event : FreshnessEvent) (ingressHighWater : Nat) :
    Consistent (queue.recordFreshness event ingressHighWater) := by
  unfold AlertQueue.recordFreshness
  split
  · rename_i last _
    split
    · exact consistent
    · split
      · split
        · exact consistent
        · refine ⟨consistent.sound.update event _ rfl, ?_, ?_⟩
          · have length := congrArg List.length
              (keysOf_updateRetained (freshnessKey event.peerNodeId) (.channelFreshness event) queue.entries)
            simp only [keysOf, List.length_map] at length
            simp only [length]
            exact consistent.bounded
          · rw [keysOf_updateRetained]
            exact consistent.seen
      · exact consistent.republish event ⟨ingressHighWater, max last.rejectCount event.rejectCount⟩
  · exact consistent.republish event ⟨ingressHighWater, event.rejectCount⟩

end Invariant

section Growth

/-- What one call may do to a queue: no watchtower alert is new except at a new sequence, and the count
published for a peer does not fall. -/
structure Grows (before after : AlertQueue) : Prop where
  advances : before.nextSeq ≤ after.nextSeq
  alerts : ∀ entry ∈ after.entries, ∀ alert, entry.event = .watchtower alert →
    entry ∈ before.entries ∨ before.nextSeq ≤ entry.sequence
  counts : ∀ peer last, before.publishedFreshness.lookup peer = some last →
    ∃ later, after.publishedFreshness.lookup peer = some later ∧ last.rejectCount ≤ later.rejectCount

variable {queue : AlertQueue}

theorem Grows.rfl : Grows queue queue where
  advances := Nat.le_refl _
  alerts := fun _ member _ _ => Or.inl member
  counts := fun _ last found => ⟨last, found, Nat.le_refl _⟩

/-- Eviction keeps a part of what it is given. -/
theorem evictOldest_subset (cap : Nat) (entries : List QueueEntry) (seen : Finset String) :
    (evictOldest cap entries seen).1 ⊆ entries := by
  induction entries generalizing seen with
  | nil => exact List.Subset.refl _
  | cons entry rest ih =>
    unfold evictOldest
    split
    · exact List.subset_cons_of_subset _ (ih _)
    · exact List.Subset.refl _

/-- An append on entries of the queue it grows from. -/
theorem grows_append {before : AlertQueue} (key : String) (event : QueuedEvent)
    (sequence : queue.nextSeq = before.nextSeq) (fewer : queue.entries ⊆ before.entries)
    (counts : ∀ peer last, before.publishedFreshness.lookup peer = some last →
      ∃ later, queue.publishedFreshness.lookup peer = some later ∧ last.rejectCount ≤ later.rejectCount) :
    Grows before (queue.append key event) where
  advances := by
    rw [← sequence]
    exact Nat.le_succ _
  alerts := by
    intro entry member _ _
    rcases List.mem_append.mp (evictOldest_subset _ _ _ member) with old | last
    · exact Or.inl (fewer old)
    · right
      rw [List.mem_singleton.mp last, sequence]
  counts := counts

theorem grows_push (queue : AlertQueue) (alert : Alert) : Grows queue (queue.push alert).1 := by
  unfold AlertQueue.push
  simp only
  split
  · exact Grows.rfl
  · exact grows_append _ _ rfl (List.Subset.refl _) Grows.rfl.counts

/-- A publication at no lower a count raises the record. -/
theorem counts_insert {published : Map Nat PublishedFreshness} {peer : Nat} {last : PublishedFreshness}
    (raised : ∀ old, published.lookup peer = some old → old.rejectCount ≤ last.rejectCount) (other : Nat)
    (old : PublishedFreshness) (found : published.lookup other = some old) :
    ∃ later, (published.insert peer last).lookup other = some later ∧ old.rejectCount ≤ later.rejectCount := by
  rw [lookup_insert_eq]
  split
  · rename_i same
    exact ⟨last, rfl, raised old (same ▸ found)⟩
  · exact ⟨old, found, Nat.le_refl _⟩

theorem grows_republish (queue : AlertQueue) (event : FreshnessEvent) (last : PublishedFreshness)
    (raised : ∀ old, queue.publishedFreshness.lookup event.peerNodeId = some old →
      old.rejectCount ≤ last.rejectCount) :
    Grows queue (AlertQueue.republish
      { queue with publishedFreshness := queue.publishedFreshness.insert event.peerNodeId last }
      event last.rejectCount) := by
  unfold AlertQueue.republish
  exact grows_append _ _ rfl List.eraseP_subset (counts_insert raised)

theorem grows_recordFreshness (consistent : Consistent queue) (event : FreshnessEvent) (ingressHighWater : Nat) :
    Grows queue (queue.recordFreshness event ingressHighWater) := by
  unfold AlertQueue.recordFreshness
  cases found : queue.publishedFreshness.lookup event.peerNodeId with
  | none => exact grows_republish queue event ⟨ingressHighWater, event.rejectCount⟩ (by simp [found])
  | some last =>
    simp only
    split
    · exact Grows.rfl
    · split
      · split
        · exact Grows.rfl
        · rename_i higher
          refine ⟨Nat.le_refl _, ?_, counts_insert ?_⟩
          · intro entry member alert kind
            rcases mem_updateRetained consistent.sound.distinct member with ⟨old, _⟩ | ⟨_, updated⟩
            · exact Or.inl old
            · simp [updated] at kind
          · intro old same
            rw [found, Option.some.injEq] at same
            rw [← same]
            exact Nat.le_of_not_le higher
      · apply grows_republish queue event ⟨ingressHighWater, max last.rejectCount event.rejectCount⟩
        intro old same
        rw [found, Option.some.injEq] at same
        rw [← same]
        exact Nat.le_max_left _ _

end Growth

section Delivery

inductive QueueOp
  | push (alert : Alert)
  | recordFreshness (event : FreshnessEvent) (ingressHighWater : Nat)
  | since (cursor : Nat)

inductive QueueReply
  | pushed (enqueued : Bool)
  | recorded
  | events (events : List QueuedEvent) (cursor : Nat)
  deriving DecidableEq, Repr

def queueStep (queue : AlertQueue) : QueueOp → AlertQueue × QueueReply
  | .push alert => ((queue.push alert).1, .pushed (queue.push alert).2)
  | .recordFreshness event ingressHighWater => (queue.recordFreshness event ingressHighWater, .recorded)
  | .since cursor => (queue, .events (queue.since cursor).1 (queue.since cursor).2)

/-- A client beside the queue: the cursor it got last, the events it heard, and, for the record, the
entries those events came from. -/
structure Subscriber where
  queue : AlertQueue
  cursor : Nat
  heard : List QueuedEvent
  received : List QueueEntry

/-- Either anybody calls the queue, or this client polls with the cursor it got last. -/
inductive Turn
  | call (op : QueueOp)
  | poll

def subscriberStep (subscriber : Subscriber) : Turn → Subscriber × QueueReply
  | .call op =>
    let (queue, reply) := queueStep subscriber.queue op
    ({ subscriber with queue := queue }, reply)
  | .poll =>
    let (events, cursor) := subscriber.queue.since subscriber.cursor
    let received := subscriber.received ++ subscriber.queue.past subscriber.cursor
    (⟨subscriber.queue, cursor, subscriber.heard ++ events, received⟩, .events events cursor)

/-- A new queue and a client with no cursor yet, after a list of turns. -/
def subscriberAfter (cap : Nat) (turns : List Turn) : Subscriber :=
  Runs.exec subscriberStep ⟨AlertQueue.new cap, 0, [], []⟩ turns

theorem Consistent.queueStep {queue : AlertQueue} (consistent : Consistent queue) (op : QueueOp) :
    Consistent (queueStep queue op).1 ∧ Grows queue (Watchtower.queueStep queue op).1 := by
  cases op with
  | push alert => exact ⟨consistent.push alert, grows_push queue alert⟩
  | recordFreshness event ingressHighWater =>
    exact ⟨consistent.recordFreshness event ingressHighWater, grows_recordFreshness consistent event ingressHighWater⟩
  | since cursor => exact ⟨consistent, Grows.rfl⟩

/-- What the client has had: nothing past its cursor, each sequence once, and every alert up to the
cursor that is still in the queue. -/
structure Served (subscriber : Subscriber) : Prop where
  consistent : Consistent subscriber.queue
  behind : subscriber.cursor < subscriber.queue.nextSeq
  passed : ∀ entry ∈ subscriber.received, entry.sequence ≤ subscriber.cursor
  rising : subscriber.received.Pairwise (fun older newer => older.sequence < newer.sequence)
  complete : ∀ entry ∈ subscriber.queue.entries, ∀ alert, entry.event = .watchtower alert →
    entry.sequence ≤ subscriber.cursor → entry ∈ subscriber.received
  heard : subscriber.heard = subscriber.received.map (fun entry => entry.event)

theorem served_start (cap : Nat) : Served ⟨AlertQueue.new cap, 0, [], []⟩ where
  consistent := consistent_new cap
  behind := Nat.one_pos
  passed := by simp
  rising := List.Pairwise.nil
  complete := by simp [AlertQueue.new]
  heard := rfl

variable {subscriber : Subscriber}

theorem Served.call (served : Served subscriber) (op : QueueOp) :
    Served (subscriberStep subscriber (.call op)).1 := by
  obtain ⟨consistent, grows⟩ := served.consistent.queueStep op
  refine ⟨consistent, Nat.lt_of_lt_of_le served.behind grows.advances, served.passed, served.rising, ?_, served.heard⟩
  intro entry member alert kind before
  rcases grows.alerts entry member alert kind with old | fresh
  · exact served.complete entry old alert kind before
  · have behind := served.behind
    simp only [subscriberStep] at before
    omega

/-- A poll brings exactly the entries past the cursor, and moves the cursor past them. -/
theorem Served.poll (served : Served subscriber) : Served (subscriberStep subscriber .poll).1 := by
  have sound := served.consistent.sound
  have behind := served.behind
  have brought : ∀ entry, entry ∈ subscriber.queue.past subscriber.cursor ↔
      entry ∈ subscriber.queue.entries ∧ subscriber.cursor < entry.sequence := by
    simp [AlertQueue.past]
  refine ⟨served.consistent, ?_, ?_, ?_, ?_, ?_⟩
  · have started := sound.started
    simp only [subscriberStep, AlertQueue.since, AlertQueue.cursor]
    omega
  · intro entry member
    simp only [subscriberStep, AlertQueue.since, AlertQueue.cursor]
    rcases List.mem_append.mp member with old | fresh
    · have passed := served.passed entry old
      omega
    · have below := (sound.inside entry ((brought entry).mp fresh).1).2
      omega
  · refine List.pairwise_append.mpr ⟨served.rising, sound.ordered.sublist List.filter_sublist, ?_⟩
    intro older old newer fresh
    exact Nat.lt_of_le_of_lt (served.passed older old) ((brought newer).mp fresh).2
  · intro entry member alert kind _
    by_cases before : entry.sequence ≤ subscriber.cursor
    · exact List.mem_append_left _ (served.complete entry member alert kind before)
    · exact List.mem_append_right _ ((brought entry).mpr ⟨member, Nat.lt_of_not_le before⟩)
  · simp [subscriberStep, AlertQueue.since, served.heard]

theorem Served.step (served : Served subscriber) (turn : Turn) : Served (subscriberStep subscriber turn).1 := by
  cases turn with
  | call op => exact served.call op
  | poll => exact served.poll

theorem served_after (cap : Nat) (turns : List Turn) : Served (subscriberAfter cap turns) :=
  Runs.exec_invariant subscriberStep Served (fun _ turn served => served.step turn) _ (served_start cap) turns

/-- What a client was given stays given. -/
theorem mem_received_exec (subscriber : Subscriber) {entry : QueueEntry} (member : entry ∈ subscriber.received)
    (turns : List Turn) : entry ∈ (Runs.exec subscriberStep subscriber turns).received := by
  apply Runs.exec_invariant subscriberStep (fun state => entry ∈ state.received) _ subscriber member
  intro state turn given
  cases turn with
  | call op => exact given
  | poll => exact List.mem_append_left _ given

/-- The count published for a peer does not fall over a run. -/
theorem counts_exec (served : Served subscriber) {peer : Nat} {last : PublishedFreshness}
    (found : subscriber.queue.publishedFreshness.lookup peer = some last) (turns : List Turn) :
    ∃ later, (Runs.exec subscriberStep subscriber turns).queue.publishedFreshness.lookup peer = some later ∧
      last.rejectCount ≤ later.rejectCount := by
  have both := Runs.exec_invariant subscriberStep
    (fun state => Served state ∧ ∃ later, state.queue.publishedFreshness.lookup peer = some later ∧
      last.rejectCount ≤ later.rejectCount) ?_ subscriber ⟨served, last, found, Nat.le_refl _⟩ turns
  · exact both.2
  · rintro state turn ⟨served, now, found, raised⟩
    refine ⟨served.step turn, ?_⟩
    cases turn with
    | call op =>
      obtain ⟨later, stored, more⟩ := (served.consistent.queueStep op).2.counts peer now found
      exact ⟨later, stored, Nat.le_trans raised more⟩
    | poll => exact ⟨now, found, raised⟩

/-- The reject counts the queue shows for a peer. -/
def AlertQueue.surfaced (queue : AlertQueue) (peer : Nat) : List Nat :=
  queue.entries.filterMap (fun entry => match entry.event with
    | .channelFreshness event => if event.peerNodeId = peer then some event.rejectCount else none
    | .watchtower _ => none)

theorem Consistent.surfaced {queue : AlertQueue} (consistent : Consistent queue) {peer count : Nat}
    (shown : count ∈ queue.surfaced peer) :
    ∃ last, queue.publishedFreshness.lookup peer = some last ∧ count = last.rejectCount := by
  obtain ⟨entry, member, found⟩ := List.mem_filterMap.mp shown
  have current := consistent.sound.current entry member
  split at found
  · rename_i event kind
    rw [kind] at current
    split at found
    · rename_i same
      obtain ⟨last, stored, equal⟩ := current
      exact ⟨last, same ▸ stored, (Option.some.inj found).symm.trans equal⟩
    · exact absurd found (by simp)
  · exact absurd found (by simp)

/-- The queue keeps its shape under any calls; a spend that is retained is not queued again; a client that
hands back its last cursor hears every retained alert once and nothing it has passed; and the reject
counts shown for a peer never fall, however the observations are ordered. -/
theorem alerts_delivered_once (cap : Nat) (turns : List Turn) :
    let subscriber := subscriberAfter cap turns
    let queue := subscriber.queue
    Retention queue ∧
      (∀ entry ∈ queue.entries, ∀ retained, entry.event = .watchtower retained → ∀ alert : Alert,
        alert.spendTxid = retained.spendTxid → alert.outpoint = retained.outpoint →
          queue.push alert = (queue, false)) ∧
      subscriber.heard = subscriber.received.map (fun entry => entry.event) ∧
      (∀ entry ∈ queue.entries, ∀ alert, entry.event = .watchtower alert → ∀ later : List Turn,
        (subscriberAfter cap (turns ++ .poll :: later)).received.count entry = 1) ∧
      (∃ brought, (subscriberAfter cap (turns ++ [.poll])).received = subscriber.received ++ brought ∧
        (∀ entry ∈ brought, subscriber.cursor < entry.sequence) ∧
        ∀ entry ∈ subscriber.received, entry.sequence ≤ subscriber.cursor) ∧
      ∀ peer, ∀ count ∈ queue.surfaced peer, ∀ later : List Turn,
        ∀ next ∈ (subscriberAfter cap (turns ++ later)).queue.surfaced peer, count ≤ next := by
  have served := served_after cap turns
  refine ⟨served.consistent.retention, ?_, served.heard, ?_, ?_, ?_⟩
  · intro entry member retained kind alert spend outpoint
    have key : s!"{alert.spendTxid}:{alert.outpoint}" = entry.key := by
      rw [served.consistent.sound.keyed entry member, kind, spend, outpoint]
      rfl
    have known : s!"{alert.spendTxid}:{alert.outpoint}" ∈ (subscriberAfter cap turns).queue.seen := by
      rw [key, served.consistent.seen, List.mem_toFinset]
      exact List.mem_map_of_mem member
    exact if_pos known
  · intro entry member alert kind later
    have polled : entry ∈ (subscriberStep (subscriberAfter cap turns) .poll).1.received := by
      apply served.poll.complete entry member alert kind
      have below := (served.consistent.sound.inside entry member).2
      simp only [subscriberStep, AlertQueue.since, AlertQueue.cursor]
      omega
    have given : entry ∈ (subscriberAfter cap (turns ++ .poll :: later)).received := by
      unfold subscriberAfter
      rw [Runs.exec_append, Runs.exec_cons]
      exact mem_received_exec _ polled later
    have once : (subscriberAfter cap (turns ++ .poll :: later)).received.Nodup :=
      (served_after cap _).rising.imp (fun less same => absurd less (by simp [same]))
    exact List.count_eq_one_of_mem once given
  · refine ⟨(subscriberAfter cap turns).queue.past (subscriberAfter cap turns).cursor, ?_, ?_, served.passed⟩
    · unfold subscriberAfter
      rw [Runs.exec_snoc]
      rfl
    · intro entry member
      simpa using (List.mem_filter.mp member).2
  · intro peer count shown later next shownLater
    obtain ⟨last, found, equal⟩ := served.consistent.surfaced shown
    obtain ⟨newest, stored, same⟩ := (served_after cap (turns ++ later)).consistent.surfaced shownLater
    obtain ⟨reached, lookup, raised⟩ := counts_exec served found later
    unfold subscriberAfter at stored lookup
    rw [Runs.exec_append] at stored
    rw [stored, Option.some.injEq] at lookup
    rw [equal, same, lookup]
    exact raised

/-- From a queue of one entry: an evicted diagnostic is not brought back at the same high-water, and the
next high-water publishes the highest count. -/
example : (subscriberAfter 1
    [.call (.recordFreshness ⟨7, 2, -400⟩ 100), .call (.push ⟨.unrecognizedSpend, "aa", "bb:0", "51"⟩), .poll,
      .call (.recordFreshness ⟨7, 3, -401⟩ 100), .poll, .call (.recordFreshness ⟨7, 1, -402⟩ 101), .poll]).heard =
    [.watchtower ⟨.unrecognizedSpend, "aa", "bb:0", "51"⟩, .channelFreshness ⟨7, 3, -402⟩] := by decide

end Delivery

end BtcPolicy.Watchtower
