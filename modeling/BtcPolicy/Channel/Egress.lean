import BtcPolicy.Channel.Release

/-! The four egress points together: release, finalization, the final send and the due list. The duress
freeze closes all of them for hot candidates; settlement closes all but the release gate. -/

namespace BtcPolicy.Channel
open FiniteMap Word Bitcoin HotLedger Runs PartialStore

/-- No egress point lets `id` out. -/
structure Shut (ch : ChannelState) (s : PartialStore) (id : String) : Prop where
  release : ∀ now, (s.releasePartials ch id now).2 = none
  finalize : ∀ threshold now, s.tryFinalize ch id threshold now = none
  send : ∀ now, s.withBroadcastAuthorization id now ≠ .ok ()
  due : ∀ now, id ∉ s.dueForFire now

theorem isDue_of_mem_dueForFire {s : PartialStore} (keyed : Keyed s) {id : String} {now : Nat}
    (listed : id ∈ s.dueForFire now) : ∃ c, s.candidates.lookup id = some c ∧ s.isDue now c = true := by
  rw [dueForFire, List.mem_insertionSort] at listed
  obtain ⟨c, member, named⟩ := List.mem_map.mp listed
  obtain ⟨present, due⟩ := List.mem_filter.mp member
  obtain ⟨key, found⟩ := mem_vals.mp present
  have same : key = id := (keyed key c found).symm.trans named
  exact ⟨c, same ▸ found, due⟩

/-! ### The duress freeze -/

/-- Each egress point reads the armed bit, so a hot candidate of an armed store is shut in. -/
theorem shut_of_armed {s : PartialStore} (keyed : Keyed s) (armed : s.armed.active = true) {id : String}
    {c : Candidate} (found : s.candidates.lookup id = some c) (hot : c.hot = true) (ch : ChannelState) :
    Shut ch s id := by
  have suppressed : s.frozen c = true := by simp [frozen, armed, hot]
  refine ⟨?_, ?_, ?_, ?_⟩
  · intro now
    obtain same | ⟨_, other, _, _, present, gate, _⟩ := releasePartials_cases ch s id now
    · rw [same]
    · have equal : other = c := Option.some.inj (present.symm.trans found)
      have unfrozen := gate.unfrozen
      rw [equal, suppressed] at unfrozen
      cases unfrozen
  · intro threshold now
    simp [tryFinalize, found, suppressed]
  · intro now sent
    simp only [withBroadcastAuthorization, found, suppressed, if_true] at sent
    split_ifs at sent
  · intro now listed
    obtain ⟨other, present, due⟩ := isDue_of_mem_dueForFire keyed listed
    have equal : other = c := Option.some.inj (present.symm.trans found)
    rw [equal] at due
    simp [isDue, suppressed] at due

/-- A residency starts with a registration whose request carries the candidate's hot flag. -/
def RegistersWith (id : String) (hot : Bool) (s : PartialStore) (op : StoreOp) : Prop :=
  s.candidates.lookup id = none ∧ ∃ requests arm hotReserve monoNow,
    op = .registerCandidates requests arm hotReserve monoNow ∧
      ∃ request ∈ requests, request.spec.commitmentId = id ∧ request.spec.hot = hot

theorem hot_history (ch : ChannelState) (config : StoreConfig) (ops : List StoreOp) (id : String) (hot : Bool)
    (resident : ∃ c, (storeAfter ch config ops).candidates.lookup id = some c ∧ c.hot = hot) :
    HappenedSince (storeStep ch) (RegistersWith id hot)
      (fun s => ∃ c, s.candidates.lookup id = some c ∧ c.hot = hot) (initialStore config) ops := by
  refine happenedSince_of_established (storeStep ch) (fun _ => True) _ (RegistersWith id hot)
    (fun _ _ _ => trivial) ?_ _ trivial ?_ ops resident
  · rintro s op _ unknown ⟨later, found, flag⟩
    rcases storeStep_lookup found with ⟨earlier, present, evolved, _⟩ |
      ⟨absent, requests, arm, hotReserve, monoNow, same, request, asked, fresh, named⟩
    · exact absurd ⟨earlier, present, evolved.hot.symm.trans flag⟩ unknown
    · exact ⟨absent, requests, arm, hotReserve, monoNow, same, request, asked, named,
        fresh.hot.symm.trans flag⟩
  · rintro ⟨c, found, _⟩
    cases found

theorem keyed_applyWrites {ids : List String} {writes : List (PartialStore → PartialStore)}
    (each : ∀ write ∈ writes, ∀ s, KeptOpening ids s (write s)) {s : PartialStore} (keyed : Keyed s) :
    Keyed (applyWrites writes s) := by
  intro id later found
  obtain ⟨earlier, present, evolved, _⟩ := opening_applyWrites each s id later found
  exact evolved.commitmentId.trans (keyed id earlier present)

theorem active_applyWrites {writes : List (PartialStore → PartialStore)}
    (each : ∀ write ∈ writes, ∀ s : PartialStore, (write s).armed.active = s.armed.active) (s : PartialStore) :
    (applyWrites writes s).armed.active = s.armed.active := by
  induction writes generalizing s with
  | nil => rfl
  | cons write others ih =>
    calc
      (applyWrites others (write s)).armed.active = (write s).armed.active :=
        ih (fun other member => each other (List.mem_cons_of_mem _ member)) (write s)
      _ = s.armed.active := each write List.mem_cons_self s

/-- Inside the committing receipt of a duress intent, the gates are untouched until the arm bit is set. -/
theorem confirmWrites_midpoint (carrier : String) {intent : ArmIntent} (duress : intent.duress = true)
    (now : Nat) (timing : DuressTiming) (s : PartialStore) (count : Nat) :
    (applyWrites ((confirmWrites carrier intent now timing).take count) s).candidates = s.candidates ∨
      (applyWrites ((confirmWrites carrier intent now timing).take count) s).armed.active = true := by
  rcases Nat.lt_or_ge count 2 with early | late
  · left
    interval_cases count <;> rfl
  · right
    obtain ⟨rest, rfl⟩ := Nat.exists_eq_add_of_le late
    have start : ((s.markCommitted carrier).writeSafetyOverlay intent.duress intent.firstSeen now
        timing).armed.active = true := by simp [writeSafetyOverlay, duress]
    have split : (confirmWrites carrier intent now timing).take (2 + rest) =
        [markCommitted carrier, writeSafetyOverlay intent.duress intent.firstSeen now timing] ++
          ((confirmWrites carrier intent now timing).drop 2).take rest := by
      rw [List.take_add]
      rfl
    -- After the overlay no write of the receipt touches the arm bit.
    have stays : ∀ write ∈ ((confirmWrites carrier intent now timing).drop 2).take rest, ∀ s : PartialStore,
        (write s).armed.active = s.armed.active := by
      intro write member s
      have listed := List.mem_of_mem_take member
      simp only [confirmWrites, List.drop_succ_cons, List.drop_zero, List.mem_cons, List.not_mem_nil,
        or_false] at listed
      rcases listed with rfl | rfl | rfl | rfl | rfl | rfl
      · rfl
      · rfl
      · rfl
      · rw [refreshEscapeWindow_armed]
      · rw [refreshEscapeWindow_armed]
      · rfl
    rw [split, applyWrites, List.foldl_append]
    exact (active_applyWrites stays _).trans start

/-- From the arm on, no egress point lets a hot candidate out, whenever it was registered or confirmed; a
candidate's hot flag is the one it was registered with; and inside the arming receipt no gate is open without
the freeze. -/
theorem duress_freeze (ch : ChannelState) (config : StoreConfig) (ops : List StoreOp) :
    ((storeAfter ch config ops).armed.active = true → ∀ later id c,
        (storeAfter ch config (ops ++ later)).candidates.lookup id = some c → c.hot = true →
        Shut ch (storeAfter ch config (ops ++ later)) id) ∧
      (∀ id c, (storeAfter ch config ops).candidates.lookup id = some c →
        HappenedSince (storeStep ch) (RegistersWith id c.hot)
          (fun s => ∃ c', s.candidates.lookup id = some c' ∧ c'.hot = c.hot) (initialStore config) ops) ∧
      ∀ sender carrier threshold now timing monoNow intent count,
        Crossing (storeAfter ch config ops) sender carrier threshold now monoNow intent →
        intent.duress = true →
        let midpoint := applyWrites ((confirmWrites carrier intent now timing).take count)
          ((storeAfter ch config ops).addHolder sender carrier)
        midpoint.candidates = (storeAfter ch config ops).candidates ∨
          ∀ id c, midpoint.candidates.lookup id = some c → c.hot = true → Shut ch midpoint id := by
  refine ⟨?_, ?_, ?_⟩
  · intro armed later id c found hot
    have still : (storeAfter ch config (ops ++ later)).armed.active = true := by
      rw [storeAfter_append]
      exact (advances_run ch _ later).active armed
    exact shut_of_armed (storeAfter_keyed ch config _) still found hot ch
  · intro id c found
    exact hot_history ch config ops id c.hot ⟨c, found, rfl⟩
  · intro sender carrier threshold now timing monoNow intent count _ duress
    rcases confirmWrites_midpoint carrier duress now timing
      ((storeAfter ch config ops).addHolder sender carrier) count with untouched | armed
    · exact Or.inl untouched
    · right
      intro id c found hot
      have keyed : Keyed ((storeAfter ch config ops).addHolder sender carrier) := storeAfter_keyed ch config ops
      have writes : ∀ write ∈ (confirmWrites carrier intent now timing).take count, ∀ s,
          KeptOpening [intent.spendCommitmentId, intent.escapeCommitmentId] s (write s) :=
        fun write member => opening_confirmWrites carrier intent now timing write (List.mem_of_mem_take member)
      exact shut_of_armed (keyed_applyWrites writes keyed) armed found hot ch

/-- The duress request of the sample federation shuts its own hot spend in. -/
theorem duress_freeze_sample :
    Shut Sample.channel (storeAfter Sample.channel Sample.config (Sample.confirmedRun true)) "a" := by
  have hot : ((storeAfter Sample.channel Sample.config (Sample.confirmedRun true)).candidates.lookup "a").any
      Candidate.hot = true := by decide
  obtain ⟨c, found, flag⟩ := (Option.any_eq_true _ _).mp hot
  have frozen := (duress_freeze Sample.channel Sample.config (Sample.confirmedRun true)).1 (by decide) []
  rw [List.append_nil] at frozen
  exact frozen "a" c found flag

/-! ### Settled candidates -/

/-- `id` is resident and latched broadcast. -/
def Terminal (id : String) (s : PartialStore) : Prop :=
  ∃ c, s.candidates.lookup id = some c ∧ c.broadcast = true

theorem terminal_step {ch : ChannelState} {id : String} {s : PartialStore} {op : StoreOp}
    (terminal : Terminal id s) (resident : Resident id (storeStep ch s op).1) :
    Terminal id (storeStep ch s op).1 := by
  obtain ⟨c, present, latched⟩ := terminal
  obtain ⟨later, found⟩ := Option.isSome_iff_exists.mp resident
  rcases storeStep_lookup found with ⟨earlier, atEarlier, evolved, _⟩ | ⟨absent, _⟩
  · have equal : earlier = c := Option.some.inj (atEarlier.symm.trans present)
    exact ⟨later, found, evolved.broadcast (equal ▸ latched)⟩
  · rw [present] at absent
    cases absent

/-- The operation, answered by `s`, lets nothing of `id` out. -/
def Withheld (ch : ChannelState) (s : PartialStore) (id : String) : StoreOp → Prop
  | .dueForFire now => id ∉ s.dueForFire now
  | .tryFinalize target threshold now => target = id → s.tryFinalize ch id threshold now = none
  | .withBroadcastAuthorization target now => target = id → s.withBroadcastAuthorization id now ≠ .ok ()
  | .releasePartials target now =>
    target = id → ∀ release, (s.releasePartials ch id now).2 = some release → release.items = []
  | _ => True

/-- Once a resident candidate is broadcast it stays so while it is resident, and nothing of it leaves. -/
def StaysTerminal (ch : ChannelState) (config : StoreConfig) (ops : List StoreOp) : Prop :=
  ∀ before middle op after id, ops = before ++ (middle ++ op :: after) →
    Terminal id (storeAfter ch config before) →
    (∀ front, front <+: middle → Resident id (storeAfter ch config (before ++ front))) →
    Terminal id (storeAfter ch config (before ++ middle)) ∧
      Withheld ch (storeAfter ch config (before ++ middle)) id op

/-- The release gate without the broadcast check it lacks: a live unfrozen slot, an open window, and this
node's own signature on a rung that is authorized and has not left. -/
def GateAjar (ch : ChannelState) (s : PartialStore) (c : Candidate) (now : Nat) : Prop :=
  ∃ node window, ch.nodes[ch.nodeId]? = some node ∧ Released ch s c now window ∧
    ∃ rung variant input, releaseFrom c ≤ rung ∧ rung ≤ releaseThrough ch c ∧
      c.variants[rung]? = some variant ∧ input ∈ variant.psbt.inputs ∧
      (input.partialSigs.lookup node.signingPubkey).isSome = true

/-- The step is no release call on a broadcast candidate whose gate is otherwise open. -/
def SparesTerminal (ch : ChannelState) (s : PartialStore) (op : StoreOp) : Prop :=
  ∀ id now c, op = .releasePartials id now → s.candidates.lookup id = some c → c.broadcast = true →
    ¬GateAjar ch s c now

theorem releaseItems_ne_nil {ch : ChannelState} {id : String} {c : Candidate} {signer : PublicKey}
    {first last : Nat} :
    releaseItems ch id c signer first last ≠ [] ↔
      ∃ rung variant input, first ≤ rung ∧ rung ≤ last ∧ c.variants[rung]? = some variant ∧
        input ∈ variant.psbt.inputs ∧ (input.partialSigs.lookup signer).isSome = true := by
  constructor
  · intro some
    obtain ⟨item, member⟩ := List.exists_mem_of_ne_nil _ some
    obtain ⟨⟨variant, rung⟩, listed, inside⟩ := List.mem_flatMap.mp member
    obtain ⟨lower, upper, present⟩ := mem_rungs.mp listed
    obtain ⟨⟨input, index⟩, at', made⟩ := List.mem_filterMap.mp inside
    obtain ⟨sig, signed, _⟩ := Option.map_eq_some_iff.mp made
    exact ⟨rung, variant, input, lower, upper, present, List.fst_mem_of_mem_zipIdx at',
      Option.isSome_iff_exists.mpr ⟨sig, signed⟩⟩
  · rintro ⟨rung, variant, input, lower, upper, present, member, signed⟩ empty
    obtain ⟨sig, found⟩ := Option.isSome_iff_exists.mp signed
    obtain ⟨index, at'⟩ := List.mem_iff_getElem?.mp member
    have listed : (input, index) ∈ variant.psbt.inputs.zipIdx := by
      rw [List.mem_iff_getElem?]
      exact ⟨index, by simp [at']⟩
    have silent := List.flatMap_eq_nil_iff.mp empty (variant, rung) (mem_rungs.mpr ⟨lower, upper, present⟩)
    have unsigned := List.filterMap_eq_nil_iff.mp silent (input, index) listed
    simp [found] at unsigned

/-- The three gates that read the flag, and the one that does not. -/
theorem withheld_iff {ch : ChannelState} {s : PartialStore} (keyed : Keyed s) {id : String} {c : Candidate}
    (found : s.candidates.lookup id = some c) (latched : c.broadcast = true) (op : StoreOp) :
    Withheld ch s id op ↔ ∀ now, op = .releasePartials id now → ¬GateAjar ch s c now := by
  cases op with
  | dueForFire now =>
    simp only [Withheld, reduceCtorEq, false_implies, implies_true, iff_true]
    intro listed
    obtain ⟨other, present, due⟩ := isDue_of_mem_dueForFire keyed listed
    have equal : other = c := Option.some.inj (present.symm.trans found)
    rw [equal] at due
    simp [isDue, latched] at due
  | tryFinalize target threshold now =>
    simp only [Withheld, reduceCtorEq, false_implies, implies_true, iff_true]
    intro _
    simp only [tryFinalize, found, latched, Bool.or_true, if_true]
    split_ifs
    · rfl
    · cases c.fire <;> rfl
  | withBroadcastAuthorization target now =>
    simp only [Withheld, reduceCtorEq, false_implies, implies_true, iff_true]
    intro _ sent
    simp only [withBroadcastAuthorization, found, latched, Bool.or_true, if_true] at sent
    split_ifs at sent
    cases scheduled : c.fire with
    | none => simp [scheduled] at sent
    | some window => simp [scheduled] at sent
  | releasePartials target now =>
    simp only [Withheld, StoreOp.releasePartials.injEq]
    constructor
    · rintro withheld _ ⟨same, rfl⟩ ⟨node, window, self, gate, signed⟩
      obtain answer | ⟨node', c', window', self', found', gate', answer⟩ := releasePartials_cases ch s id now
      · have passed := releasable_some.mpr gate
        simp [releasePartials, self, found, passed] at answer
      · have empty := withheld same _ (by rw [answer])
        rw [self] at self'
        rw [found] at found'
        cases self'
        cases found'
        exact releaseItems_ne_nil.mpr signed empty
    · intro closed same release answer
      by_contra leaves
      obtain none' | ⟨node, c', window, self, found', gate, some'⟩ := releasePartials_cases ch s id now
      · rw [none'] at answer
        cases answer
      · rw [some'] at answer
        rw [found] at found'
        cases found'
        cases answer
        exact closed now ⟨same, rfl⟩ ⟨node, window, self, gate, releaseItems_ne_nil.mp leaves⟩
  | _ => simp [Withheld]

/-- Settled candidates stay closed in exactly the runs in which no release call finds a broadcast candidate
with its gate otherwise open. -/
theorem stays_terminal_iff (ch : ChannelState) (config : StoreConfig) (ops : List StoreOp) :
    StaysTerminal ch config ops ↔ Allowed (storeStep ch) (SparesTerminal ch) (initialStore config) ops := by
  rw [allowed_iff]
  constructor
  · intro stays before op after same id now c release found latched
    have here := stays before [] op after id (by simpa using same) ⟨c, found, latched⟩ (by
      intro front empty
      rw [List.prefix_nil.mp empty, List.append_nil]
      exact Option.isSome_iff_exists.mpr ⟨c, found⟩)
    rw [List.append_nil] at here
    exact (withheld_iff (storeAfter_keyed ch config before) found latched op).mp here.2 now release
  · intro spares before middle op after id same terminal resident
    have still : Terminal id (storeAfter ch config (before ++ middle)) := by
      rw [storeAfter_append]
      refine exec_while (storeStep ch) (Terminal id) (Resident id) (fun _ _ => terminal_step) _ terminal middle ?_
      intro front shorter
      have at' := resident front shorter
      rw [storeAfter_append] at at'
      exact at'
    refine ⟨still, ?_⟩
    obtain ⟨c, found, latched⟩ := still
    refine (withheld_iff (storeAfter_keyed ch config _) found latched op).mpr ?_
    intro now release
    exact spares (before ++ middle) op after (by simpa using same) id now c release found latched

namespace Sample

/-- A second hot spend of the same coin settles and defeats the confirmed one. -/
def defeatedRun : List StoreOp :=
  confirmedRun false ++
    [.recordArmIntent false "carrier-b" "nonce-b" (generation 900 900) 20 20 timing,
      .registerCandidates [spend "b" "b-escape" 1 12 true (some ⟨120, 300⟩) 900, escape "b-escape" "b" 1 13 900]
        ⟨"b-escape", "b", "carrier-b", false, 5, 20⟩ (some ⟨"b", 40000, 20, 900⟩) 20,
      .markBroadcast "b"]

end Sample

/-- The defeated spend is latched broadcast and still releases its share when its window opens. -/
theorem defeated_spend_released :
    ¬StaysTerminal Sample.channel Sample.config (Sample.defeatedRun ++ [.releasePartials "a" 100]) := by
  intro stays
  have latched : ((storeAfter Sample.channel Sample.config Sample.defeatedRun).candidates.lookup "a").any
      Candidate.broadcast = true := by decide
  have leaves : (((storeAfter Sample.channel Sample.config Sample.defeatedRun).releasePartials Sample.channel
      "a" 100).2.any (fun release => !release.items.isEmpty)) = true := by decide
  obtain ⟨c, found, settled⟩ := (Option.any_eq_true _ _).mp latched
  obtain ⟨release, answer, nonempty⟩ := (Option.any_eq_true _ _).mp leaves
  have closed := (stays Sample.defeatedRun [] (.releasePartials "a" 100) [] "a" rfl ⟨c, found, settled⟩ (by
    intro front empty
    rw [List.prefix_nil.mp empty, List.append_nil]
    exact Option.isSome_iff_exists.mpr ⟨c, found⟩)).2
  rw [List.append_nil] at closed
  simp [closed rfl release answer] at nonempty

end BtcPolicy.Channel
