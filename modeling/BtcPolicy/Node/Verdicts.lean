import BtcPolicy.Node.Payload
import BtcPolicy.Node.Subordination
import BtcPolicy.Node.Verify

/-! The verdict cache through a run. A recorded refusal bars every request of its commitment; a recorded acceptance
stands under the whole ordered list of the request, and answers no other. -/

namespace BtcPolicy.Node
open FiniteMap Word Bitcoin Hex Codec HotLedger Replay Channel Pin Policy Results Runs PartialStore NodeConfig

/-! ### The key of an acceptance -/

/-- The list an acceptance is recorded under: the pair by their ids, and the ladder by its rungs. -/
def SpendPair.entries (pair : SpendPair) : List (String × Psbt) :=
  (pair.commitmentId, pair.spend) :: (pair.escapeCommitmentId, pair.escape) ::
    pair.escapeBumps.zipIdx.map (fun bump => (s!"escape_bump:{bump.2}", bump.1))

/-- The identities the cache compares: the label and the serialized PSBT of each entry, in order. -/
def shown (node : NodeConfig) (entries : List (String × Psbt)) : List (String × Bytes) :=
  entries.map (fun entry => (entry.1, node.rules.serialize entry.2))

/-- The bytes of one entry in the key's preimage. -/
def entryBytes (entry : String × Bytes) : Bytes :=
  leBytes 8 (utf8 entry.1).length ++ utf8 entry.1 ++ leBytes 8 entry.2.length ++ entry.2

/-- Lengths that a `u64` holds. -/
def Fits (entry : String × Bytes) : Prop := (utf8 entry.1).length < 2 ^ 64 ∧ entry.2.length < 2 ^ 64

theorem toList_loop (bytes : ByteArray) (i : Nat) (front : List UInt8) :
    ByteArray.toList.loop bytes i front = front.reverse ++ bytes.data.toList.drop i := by
  fun_induction ByteArray.toList.loop bytes i front with
  | case1 i front inside ih =>
    have place : i < bytes.data.toList.length := by simpa using inside
    rw [ih, List.drop_eq_getElem_cons place]
    simp [ByteArray.get!, inside]
  | case2 i front outside =>
    rw [List.drop_eq_nil_of_le (by simpa using outside)]
    simp

theorem toUTF8_toList (text : String) : text.toUTF8.toList = utf8 text := by
  simp [ByteArray.toList, toList_loop, utf8]

theorem entryBytes_delimited : SelfDelimiting Fits entryBytes := by
  have sized : SelfDelimiting (fun bytes : Bytes => bytes.length < 2 ^ 64)
      (fun bytes => leBytes 8 bytes.length ++ bytes) :=
    selfDelimiting_sized ((leBytes_delimited 8).mono (fun _ below => below))
  have labels : SelfDelimiting (fun text : String => (utf8 text).length < 2 ^ 64)
      (fun text => leBytes 8 (utf8 text).length ++ utf8 text) :=
    sized.comap utf8 (fun _ fits => fits) (fun _ _ _ _ same => utf8_injective same)
  intro a b first second s t same
  apply labels.pair sized a b first second
  simpa only [entryBytes, List.append_assoc] using same

theorem entryBytes_ne_nil (entry : String × Bytes) : entryBytes entry ≠ [] := by
  intro empty
  have length := congrArg List.length empty
  simp only [entryBytes, List.length_append, length_leBytes, List.length_nil] at length
  omega

section Keys

variable (node : NodeConfig)

theorem acceptanceReplayKey_eq (entries : List (String × Psbt)) :
    node.acceptanceReplayKey entries = "accepted:" ++ toHex (node.rules.sha256
      (utf8 "vault-policy/accepted-request/v0" ++ (shown node entries).flatMap entryBytes)) := by
  simp only [acceptanceReplayKey, toUTF8_toList, shown, List.flatMap_map, entryBytes]

/-- The key shows the whole ordered list, as long as the hash does not collide. -/
theorem acceptanceReplayKey_injective (injective : Function.Injective node.rules.sha256)
    {a b : List (String × Psbt)} (each : ∀ entry ∈ shown node a, Fits entry)
    (every : ∀ entry ∈ shown node b, Fits entry) (same : node.acceptanceReplayKey a = node.acceptanceReplayKey b) :
    shown node a = shown node b := by
  rw [acceptanceReplayKey_eq, acceptanceReplayKey_eq, String.append_right_inj] at same
  have preimages := injective (toHex_injective same)
  exact entryBytes_delimited.concat entryBytes_ne_nil each every (List.append_cancel_left preimages)

theorem hexDigit_ne_p : ∀ n < 16, hexDigit n ≠ 'p' := by decide

/-- The id of a commitment is never the key of an acceptance. -/
theorem toHex_ne_acceptanceReplayKey (digest : Bytes) (entries : List (String × Psbt)) :
    toHex digest ≠ node.acceptanceReplayKey entries := by
  intro same
  have inside : 'p' ∈ (toHex digest).toList := by
    rw [same, acceptanceReplayKey_eq, String.toList_append]
    exact List.mem_append_left _ (by decide)
  rw [toHex, String.toList_ofList] at inside
  obtain ⟨b, _, digit⟩ := List.mem_flatMap.mp inside
  have bound : b.toNat < 256 := b.toNat_lt
  rcases List.mem_pair.mp digit with high | low
  · exact hexDigit_ne_p _ (by omega) high.symm
  · exact hexDigit_ne_p _ (by omega) low.symm

/-- What a request decodes to: two PSBTs and at most the bounded ladder, named by their commitments. -/
theorem decodePair_ok {request : SignRequest} {pair : SpendPair} (decoded : node.decodePair request = .ok pair) :
    pair.escapeBumps.length ≤ maxEscapeBumps ∧
      pair.commitmentId = node.rules.commitmentId pair.spend request.expiry ∧
      pair.escapeCommitmentId = node.rules.commitmentId pair.escape request.expiry ∧
      pair.acceptedReplayKey = node.acceptanceReplayKey pair.entries := by
  unfold decodePair at decoded
  split at decoded
  · cases decoded
  · split at decoded
    · cases decoded
    · simp only at decoded
      split_ifs at decoded with bounded
      split at decoded
      · cases decoded
      · rename_i bumps mapped
        cases decoded
        refine ⟨?_, rfl, rfl, rfl⟩
        rw [← (forall₂_of_mapM mapped).length_eq]
        exact Nat.le_of_not_lt bounded

/-- The format of a commitment id: a digest in hex. -/
def HexIds : Prop := ∀ psbt expiry, ∃ digest : Bytes, digest.length = 32 ∧ node.rules.commitmentId psbt expiry = toHex digest

end Keys

/-! ### What a hold does to the log -/

/-- What a judgement writes: nothing, a refusal under the commitment, or an acceptance under the whole list. -/
inductive LogWrite (key id : String) (expiry : Nat) (log log' : ReplayLog) (result : SignResult) : Prop where
  | kept (calm : ¬Accepts result) (same : log' = log)
  | refusal (refused : Refusal) (answer : result = .ok (.refusal refused))
      (written : log' = ReplayLog.record log id expiry (.refusal refused))
  | acceptance (accepted : Accepted) (answer : result = .ok (.accepted accepted))
      (written : log' = ReplayLog.record log key expiry (.accepted accepted))

/-- A refusal, recorded where it is recordable. -/
theorem logWrite_recordVerdict {key id : String} {expiry : Nat} {log : ReplayLog} (refused : Refusal) :
    LogWrite key id expiry log (recordVerdict log id expiry (.refusal refused)) (.ok (.refusal refused)) := by
  unfold recordVerdict
  split_ifs
  · exact .refusal refused rfl rfl
  · exact .kept (not_accepts_refusal refused) rfl

theorem logWrite_refusal {key id : String} {expiry : Nat} {log log' : ReplayLog} {refused : Refusal}
    (same : log' = log) : LogWrite key id expiry log log' (.ok (.refusal refused)) :=
  .kept (not_accepts_refusal refused) same

section Writing

variable (node : NodeConfig) (s : NodeState)

@[simp] theorem sign_onStore (op : ChannelState → PartialStore → PartialStore) : (node.onStore op s).sign = s.sign := by
  unfold onStore
  cases node.channel <;> rfl

@[simp] theorem sign_stageSpendCarrier (request : TaggedRequest) (carrier : String) :
    (node.stageSpendCarrier request carrier s).sign = s.sign := by
  simp [stageSpendCarrier]

@[simp] theorem sign_unwindHotReservation (created : Bool) (commitmentId : String) :
    (node.unwindHotReservation created commitmentId s).sign = s.sign := by
  unfold unwindHotReservation
  split_ifs <;> simp

@[simp] theorem sign_registerPair (pair : RegisterPair) (monoNow : Nat) :
    (node.registerPair pair monoNow s).1.sign = s.sign := by
  unfold registerPair
  cases node.channel with
  | none => rfl
  | some ch =>
    simp only
    split
    · rfl
    · split <;> rfl

theorem sign_of_registerPair {pair : RegisterPair} {monoNow : Nat} {t u : NodeState} {result : Except Refusal Unit}
    (same : node.registerPair pair monoNow t = (u, result)) : u.sign = t.sign := by
  rw [← sign_registerPair node t pair monoNow, same]

@[simp] theorem replay_pruneLogs (now pruneMono : Nat) :
    (node.pruneLogs now pruneMono s).sign.replay = s.sign.replay := by
  simp [pruneLogs]

section Spend

variable (flight : Flight) (verdict : PinVerdict) (carrier : String)

theorem admitPair_logWrite (pair : SpendPair) (txClass : TxClass) (outflow fireAt now : Nat) (created : Bool)
    (clock : RegistrationClock) :
    let out := node.admitPair flight verdict carrier pair txClass outflow fireAt now created clock s
    LogWrite pair.acceptedReplayKey pair.commitmentId flight.request.expiry s.sign.replay out.1.sign.replay out.2 := by
  unfold admitPair
  simp only
  split
  · rename_i u refused same
    exact logWrite_refusal (by simp [sign_of_registerPair node same])
  · rename_i u _ same
    refine .acceptance _ rfl ?_
    simp [recordAcceptance, recordVerdict, isRecordableVerdict, sign_of_registerPair node same]

theorem admitReserved_logWrite (pair : SpendPair) (classified : Classification) (now : Nat)
    (escapePrevouts : Option PrevoutFetch) (created : Bool) (clock : RegistrationClock) :
    let out := node.admitReserved flight verdict carrier pair classified now escapePrevouts created clock s
    LogWrite pair.acceptedReplayKey pair.commitmentId flight.request.expiry s.sign.replay out.1.sign.replay out.2 := by
  unfold admitReserved
  split
  · simp only
    split_ifs
    · exact logWrite_refusal (by simp)
    · exact logWrite_refusal (by simp)
  · rename_i signed fireAt valid
    obtain ⟨id, _, key⟩ := validatePair_names node valid
    rw [← id, ← key]
    exact admitPair_logWrite node s flight verdict carrier signed classified.txClass _ fireAt now created clock

theorem meterSpend_logWrite (pair : SpendPair) (classified : Classification) (now : Nat)
    (escapePrevouts : Option PrevoutFetch) (clock : RegistrationClock) :
    let out := node.meterSpend flight verdict carrier pair classified now escapePrevouts clock s
    LogWrite pair.acceptedReplayKey pair.commitmentId flight.request.expiry s.sign.replay out.1.sign.replay out.2 := by
  unfold meterSpend
  simp only
  generalize (if classified.txClass = .hot ∧ node.channel.isSome then _ else (s.store, Except.ok false)) = reserved
  split
  · exact logWrite_refusal (by simp)
  · exact admitReserved_logWrite node { s with store := reserved.1 } flight verdict carrier pair classified now
      escapePrevouts _ clock

theorem judgeSpend_logWrite (pair : SpendPair) (now : Nat) (spendPrevouts escapePrevouts : Option PrevoutFetch)
    (clock : RegistrationClock) :
    let out := node.judgeSpend flight verdict carrier pair now spendPrevouts escapePrevouts clock s
    LogWrite pair.acceptedReplayKey pair.commitmentId flight.request.expiry s.sign.replay out.1.sign.replay out.2 := by
  have recorded : ∀ refused t, t.sign = s.sign → LogWrite pair.acceptedReplayKey pair.commitmentId flight.request.expiry
      s.sign.replay (recordRefusal pair flight.request.expiry refused t).1.sign.replay
      (recordRefusal pair flight.request.expiry refused t).2 := by
    intro refused t same
    rw [recordRefusal, same]
    exact logWrite_recordVerdict refused
  unfold judgeSpend
  simp only
  split
  · split_ifs
    · exact recorded _ _ (by simp)
    · exact recorded _ s rfl
  · split
    · exact recorded _ s rfl
    · split_ifs
      · exact recorded _ s rfl
      · exact meterSpend_logWrite node s flight verdict carrier pair _ now escapePrevouts clock

end Spend

section Refresh

variable (request : RefreshRequest) (candidate : RefreshCandidate)

theorem admitRefresh_logWrite (now registerMono : Nat) :
    let out := node.admitRefresh request candidate now registerMono s
    LogWrite candidate.acceptedReplayKey candidate.commitmentId request.expiry s.sign.replay out.1.sign.replay
      out.2 := by
  unfold admitRefresh
  split
  · exact logWrite_refusal rfl
  · simp only
    split
    · rename_i same
      exact logWrite_refusal (by rw [sign_of_registerPair node same])
    · rename_i same
      refine .acceptance _ rfl ?_
      simp [recordRefresh, recordVerdict, isRecordableVerdict, sign_of_registerPair node same]

theorem judgeRefresh_logWrite (now : Nat) (prevouts : Option PrevoutFetch) (registerMono : Nat) :
    let out := node.judgeRefresh request candidate now prevouts registerMono s
    LogWrite candidate.acceptedReplayKey candidate.commitmentId request.expiry s.sign.replay out.1.sign.replay
      out.2 := by
  have recorded : ∀ refused, LogWrite candidate.acceptedReplayKey candidate.commitmentId request.expiry
      s.sign.replay (recordRefreshRefusal request candidate refused s).1.sign.replay
      (recordRefreshRefusal request candidate refused s).2 := fun refused => logWrite_recordVerdict refused
  unfold judgeRefresh
  split
  · exact recorded _
  · split
    · exact recorded _
    · simp only
      split_ifs
      · unfold boundRefresh
        split_ifs
        · exact logWrite_refusal rfl
        · split
          · exact logWrite_refusal rfl
          · split
            · exact logWrite_refusal rfl
            · exact admitRefresh_logWrite node s request candidate now registerMono
      · exact recorded _

end Refresh

/-- What the answer to a request of the identities `key` and `id` does to the log: the cache answers as it stands,
and a request it does not know is judged. -/
inductive Logged (key id : String) (expiry now : Nat) (out : NodeState × SignResult) : Prop where
  | cached (verdict : SignResponse) (known : cachedVerdict s.sign.replay key id now = some verdict)
      (answer : out.2 = .ok verdict) (log : out.1.sign.replay = ReplayLog.prune s.sign.replay now)
  | judged (unknown : cachedVerdict s.sign.replay key id now = none)
      (write : LogWrite key id expiry (ReplayLog.prune s.sign.replay now) out.1.sign.replay out.2)

theorem answerPair_logged (flight : Flight) (verdict : PinVerdict) (carrier : String) (pair : SpendPair) (now : Nat)
    {spendPrevouts escapePrevouts : Option PrevoutFetch} (clock : RegistrationClock)
    (fetched : ∀ refused, nodeLocalPrevoutFetchFailure spendPrevouts escapePrevouts = some refused →
      ¬Accepts (.ok refused)) :
    Logged s pair.acceptedReplayKey pair.commitmentId flight.request.expiry now
      (node.answerPair flight verdict carrier pair now spendPrevouts escapePrevouts clock s) := by
  unfold answerPair
  simp only [get_prune]
  cases hit : ReplayLog.get s.sign.replay pair.acceptedReplayKey now with
  | some recorded => exact .cached recorded (by simp [cachedVerdict, hit]) rfl (by simp [replayAccepted])
  | none =>
    cases hitToo : ReplayLog.get s.sign.replay pair.commitmentId now with
    | some recorded => exact .cached recorded (by simp [cachedVerdict, hit, hitToo]) rfl rfl
    | none =>
      refine .judged (by simp [cachedVerdict, hit, hitToo]) ?_
      cases failed : nodeLocalPrevoutFetchFailure spendPrevouts escapePrevouts with
      | some refused => exact .kept (fetched refused failed) (by simp)
      | none =>
        have write := judgeSpend_logWrite node (node.pruneLogs now clock.prune { s with
          sign := { s.sign with replay := ReplayLog.prune s.sign.replay now } }) flight verdict carrier pair now
          spendPrevouts escapePrevouts clock
        rwa [replay_pruneLogs] at write

theorem answerRefresh_logged (request : RefreshRequest) (candidate : RefreshCandidate) (now : Nat)
    (prevouts : Option PrevoutFetch) (clock : RegistrationClock) :
    Logged s candidate.acceptedReplayKey candidate.commitmentId request.expiry now
      (node.answerRefresh request candidate now prevouts clock s) := by
  unfold answerRefresh
  simp only [get_prune]
  cases hit : ReplayLog.get s.sign.replay candidate.acceptedReplayKey now with
  | some recorded => exact .cached recorded (by simp [cachedVerdict, hit]) rfl rfl
  | none =>
    cases hitToo : ReplayLog.get s.sign.replay candidate.commitmentId now with
    | some recorded => exact .cached recorded (by simp [cachedVerdict, hit, hitToo]) rfl rfl
    | none =>
      refine .judged (by simp [cachedVerdict, hit, hitToo]) ?_
      have write := judgeRefresh_logWrite node (node.pruneLogs now clock.prune { s with
        sign := { s.sign with replay := ReplayLog.prune s.sign.replay now } }) request candidate now prevouts
        clock.register
      rwa [replay_pruneLogs] at write

/-- Over the whole hold: a request that is not looked up is refused and leaves the log. -/
theorem registrationHold_logged (flight : Flight) (verdict : PinVerdict) (carrier : String)
    {spendPrevouts escapePrevouts : Option PrevoutFetch} (clock : RegistrationClock)
    (fetched : ∀ refused, nodeLocalPrevoutFetchFailure spendPrevouts escapePrevouts = some refused →
      ¬Accepts (.ok refused)) :
    let out := node.registrationHold flight verdict carrier spendPrevouts escapePrevouts clock s
    (¬Accepts out.2 ∧ out.1.sign.replay = s.sign.replay) ∨
      ∃ pair, node.decodePair flight.request = .ok pair ∧
        Logged s pair.acceptedReplayKey pair.commitmentId flight.request.expiry
          (s.sign.coordNonces.effectiveNow clock.wall) out := by
  unfold registrationHold
  split_ifs
  · exact .inl ⟨not_accepts_refusal _, rfl⟩
  · simp only
    split
    · exact .inl ⟨not_accepts_refusal _, by simp⟩
    · split
      · rename_i undecoded
        exact .inl ⟨not_accepts_of_decodePair node undecoded, rfl⟩
      · rename_i pair decoded
        exact .inr ⟨pair, decoded, answerPair_logged node s flight verdict carrier pair _ clock fetched⟩

theorem refreshRegistrationHold_logged (request : RefreshRequest) (prevouts : Option PrevoutFetch)
    (clock : RegistrationClock) :
    let out := node.refreshRegistrationHold request prevouts clock s
    (¬Accepts out.2 ∧ out.1.sign.replay = s.sign.replay) ∨
      ∃ refresh, node.decodePsbt request.refreshPsbt "refresh" = .ok refresh ∧
        Logged s (node.acceptanceReplayKey [(node.rules.commitmentId refresh request.expiry, refresh)])
          (node.rules.commitmentId refresh request.expiry) request.expiry
          (s.sign.coordNonces.effectiveNow clock.wall) out := by
  unfold refreshRegistrationHold
  split_ifs
  · exact .inl ⟨not_accepts_refusal _, rfl⟩
  · simp only
    split_ifs
    · exact .inl ⟨not_accepts_refusal _, rfl⟩
    · split
      · exact .inl ⟨not_accepts_error _, rfl⟩
      · rename_i refresh decoded
        exact .inr ⟨refresh, decoded, answerRefresh_logged node s request ⟨refresh, _, _⟩ _ prevouts clock⟩

end Writing

/-! ### The log through a run -/

/-- An operation in which a hold answers a request that decodes to the list `entries`, by the clock `now`. -/
inductive Answers (node : NodeConfig) (w : World) : NodeOp → List (String × Psbt) → Nat → SignResult → Prop where
  | spend {thread : Nat} {held : Thread} {flight : Flight} {replies : Option (ChainReply × ChainReply)}
      {clock : RegistrationClock} {pair : SpendPair} {result : SignResult}
      (known : w.threads.lookup thread = some held) (waits : held.phase = .windowB flight)
      (decoded : node.decodePair flight.request = .ok pair)
      (answer : (node.registerSection flight replies clock w.node).2 = .leaving result flight.claim) :
      Answers node w (.advance thread (.register replies clock)) pair.entries
        (w.node.sign.coordNonces.effectiveNow clock.wall) result
  | refresh {thread : Nat} {held : Thread} {request : RefreshRequest} {reply : Option ChainReply}
      {clock : RegistrationClock} {refresh : Psbt} {result : SignResult}
      (known : w.threads.lookup thread = some held) (waits : held.phase = .refreshWindow)
      (asked : held.request = .refresh request)
      (decoded : node.decodePsbt request.refreshPsbt "refresh" = .ok refresh)
      (answer : (node.refreshRegisterSection request reply clock w.node).2 = .answered result) :
      Answers node w (.advance thread (.refreshRegister reply clock))
        [(node.rules.commitmentId refresh request.expiry, refresh)]
        (w.node.sign.coordNonces.effectiveNow clock.wall) result

/-- The id a list is refused under: that of its first transaction. -/
def firstId : List (String × Psbt) → String
  | [] => ""
  | entry :: _ => entry.1

/-- The checks admit the list here: the cache does not know it, and the answer accepts it. -/
def Admits (node : NodeConfig) (entries : List (String × Psbt)) (accepted : Accepted) (w : World) (op : NodeOp) :
    Prop :=
  ∃ now, Answers node w op entries now (.ok (.accepted accepted)) ∧
    cachedVerdict w.node.sign.replay (node.acceptanceReplayKey entries) (firstId entries) now = none

section Machine

variable {node : NodeConfig}

/-- The verdict cache and the interval clocks are as they were. -/
structure KeepsLogs (s t : NodeState) : Prop where
  replay : t.sign.replay = s.sign.replay
  refreshes : t.sign.refreshes = s.sign.refreshes

theorem KeepsLogs.of_sign {s t : NodeState} (same : t.sign = s.sign) : KeepsLogs s t := ⟨by rw [same], by rw [same]⟩

theorem ingressSection_logs (request : TaggedRequest) (wall mono : Nat) (s : NodeState) :
    KeepsLogs s (node.ingressSection request wall mono s).1 := by
  cases request with
  | spend request =>
    unfold ingressSection ingressHold
    simp only
    split_ifs
    · exact ⟨rfl, rfl⟩
    · split
      · exact ⟨rfl, rfl⟩
      · split
        · exact ⟨rfl, rfl⟩
        · split
          · exact ⟨rfl, rfl⟩
          · cases node.channel <;> exact ⟨rfl, rfl⟩
  | refresh request =>
    unfold ingressSection refreshIngressHold
    simp only
    split_ifs
    · exact ⟨rfl, rfl⟩
    · split
      · exact ⟨rfl, rfl⟩
      · split <;> exact ⟨rfl, rfl⟩

theorem sign_fireArmHook (verdict : PinVerdict) (carrier : String) (flight : Flight) (now : Nat) (s : NodeState) :
    (node.fireArmHook verdict carrier flight now s).1.sign = s.sign := by
  unfold fireArmHook
  cases flight.generation <;> rfl

theorem commitSection_logs (flight : Flight) (wall : Nat) (s : NodeState) :
    KeepsLogs s (node.commitSection flight wall s).1 := by
  unfold commitSection commitHold
  simp only
  split
  · exact ⟨rfl, rfl⟩
  · split
    · exact .of_sign (by simp [sign_fireArmHook])
    · split
      · exact ⟨by simp [sign_fireArmHook], by simp [sign_fireArmHook]⟩
      · exact ⟨by simp [sign_fireArmHook], by simp [sign_fireArmHook]⟩

theorem sign_outerStaleClassify (ch : ChannelState) (request : SignRequest) (sender now mono : Nat)
    (step : OuterStaleStep) (s : NodeState) :
    (node.outerStaleClassify ch request sender now mono step s).1.sign = s.sign := by
  unfold outerStaleClassify
  split_ifs
  · rfl
  · split <;> rfl

theorem sign_staleInspectSection (ch : ChannelState) (request : TaggedRequest) (sender : Nat) (reserved : Bool)
    (now mono nowAgain monoAgain : Nat) (s : NodeState) :
    (node.staleInspectSection ch request sender reserved now mono nowAgain monoAgain s).1.sign = s.sign := by
  unfold staleInspectSection
  cases request with
  | refresh request => rfl
  | spend request =>
    simp only
    split
    · split
      · split <;> simp [sign_outerStaleClassify]
      · simp [sign_outerStaleClassify]
    · rfl

/-- No section but the registrations writes either log. -/
theorem advance_logs {thread : Thread} {s t : NodeState} {step : Section} {phase : Phase}
    (taken : node.advance thread s step = some (t, phase)) (spend : ∀ flight, thread.phase ≠ .windowB flight)
    (refresh : thread.phase ≠ .refreshWindow) : KeepsLogs s t := by
  cases advanced_of_advance taken with
  | ingress origin request wall mono fresh => exact ingressSection_logs request wall mono s
  | commit origin request flight wall => exact commitSection_logs flight wall s
  | register origin request flight replies clock => exact absurd rfl (spend flight)
  | refreshRegister origin request reply clock => exact absurd rfl refresh
  | dropClaim origin request result claim mono | wake origin request response claim mono =>
    cases claim with
    | none => exact .of_sign rfl
    | some claim => exact .of_sign rfl
  | claimDerivation sender request result carrier generation reserved =>
    unfold claimDerivationSection
    split_ifs <;> exact .of_sign rfl
  | recordDerivation sender request result carrier generation =>
    unfold recordDerivationSection
    split_ifs <;> exact .of_sign rfl
  | staleInspect ch mounted sender request reserved now mono nowAgain monoAgain =>
    exact .of_sign (sign_staleInspectSection ch request sender reserved now mono nowAgain monoAgain s)
  | staleFinish ch mounted sender request carrier generation now mono =>
    exact .of_sign (sign_outerStaleClassify ch request sender now mono _ s)
  | push | dropSlot | sleep | receiptGuard | refreshReply | receiptLookup | recordedLookup | confirm =>
    exact .of_sign rfl

theorem LogWrite.acceptance_of {key id other : String} {expiry expiry' : Nat} {log log' : ReplayLog}
    {result : SignResult} {accepted : Accepted} (write : LogWrite key id expiry log log' result)
    (found : log'.lookup other = some ⟨expiry', .accepted accepted⟩) :
    log.lookup other = some ⟨expiry', .accepted accepted⟩ ∨ other = key ∧ result = .ok (.accepted accepted) := by
  cases write with
  | kept calm same =>
    rw [same] at found
    exact .inl found
  | refusal refused answer written =>
    rw [written, ReplayLog.record, lookup_insert_eq] at found
    split_ifs at found
    · simp at found
    · exact .inl found
  | acceptance accepted' answer written =>
    rw [written, ReplayLog.record, lookup_insert_eq] at found
    split_ifs at found with here
    · simp only [Option.some.injEq, ReplayEntry.mk.injEq, SignResponse.accepted.injEq] at found
      rw [found.2] at answer
      exact .inr ⟨here, answer⟩
    · exact .inl found

theorem lookup_replayPrune {log : ReplayLog} {key : String} {now : Nat} {entry : ReplayEntry}
    (found : (ReplayLog.prune log now).lookup key = some entry) : log.lookup key = some entry :=
  (lookup_retain_some.mp found).1

theorem Logged.acceptance_of {key id other : String} {expiry expiry' now : Nat} {s : NodeState}
    {out : NodeState × SignResult} {accepted : Accepted} (logged : Logged s key id expiry now out)
    (found : out.1.sign.replay.lookup other = some ⟨expiry', .accepted accepted⟩) :
    s.sign.replay.lookup other = some ⟨expiry', .accepted accepted⟩ ∨
      other = key ∧ out.2 = .ok (.accepted accepted) ∧ cachedVerdict s.sign.replay key id now = none := by
  cases logged with
  | cached verdict known answer log =>
    rw [log] at found
    exact .inl (lookup_replayPrune found)
  | judged unknown write =>
    rcases write.acceptance_of found with before | ⟨here, answer⟩
    · exact .inl (lookup_replayPrune before)
    · exact .inr ⟨here, answer, unknown⟩

/-- An acceptance that appears in the log is one the checks have just admitted, under the key of its list. -/
theorem nodeStep_acceptance {w : World} {op : NodeOp} {key : String} {expiry : Nat} {accepted : Accepted}
    (found : (node.nodeStep w op).1.node.sign.replay.lookup key = some ⟨expiry, .accepted accepted⟩) :
    w.node.sign.replay.lookup key = some ⟨expiry, .accepted accepted⟩ ∨
      ∃ entries, key = node.acceptanceReplayKey entries ∧ Admits node entries accepted w op := by
  cases op with
  | advance thread step =>
    cases known : w.threads.lookup thread with
    | none => exact .inl (by simpa [nodeStep, known] using found)
    | some held =>
      cases taken : node.advance held w.node step with
      | none => exact .inl (by simpa [nodeStep, known, taken] using found)
      | some out =>
        obtain ⟨t, phase⟩ := out
        have after : t.sign.replay.lookup key = some ⟨expiry, .accepted accepted⟩ := by
          simpa [nodeStep, known, taken] using found
        by_cases spending : ∃ flight, held.phase = .windowB flight
        · obtain ⟨flight, waits⟩ := spending
          obtain ⟨replies, clock, rfl, section'⟩ := advance_windowB node waits taken
          rcases registrationHold_logged node w.node flight
            (pinVerdict (node.rules.verifyPin flight.request.pin) flight.request) (node.carrierOf flight.request) clock
            (prefetch_refuses node flight.request replies) with ⟨_, same⟩ | ⟨pair, decoded, logged⟩
          all_goals simp only [registerSection, Prod.mk.injEq] at section'
          · rw [← section'.1, same] at after
            exact .inl after
          · rw [← section'.1] at after
            rcases logged.acceptance_of after with before | ⟨here, answer, unknown⟩
            · exact .inl before
            · obtain ⟨_, _, _, named⟩ := decodePair_ok node decoded
              refine .inr ⟨pair.entries, here.trans named, _, .spend known waits decoded ?_, ?_⟩
              · exact congrArg (fun result => Phase.leaving result flight.claim) answer
              · rwa [named] at unknown
        · by_cases refreshing : held.phase = .refreshWindow
          · obtain ⟨request, reply, clock, asked, rfl, section'⟩ := advance_refreshWindow node refreshing taken
            rcases refreshRegistrationHold_logged node w.node request (node.prefetchRefreshPrevouts request reply)
              clock with ⟨_, same⟩ | ⟨refresh, decoded, logged⟩
            all_goals simp only [refreshRegisterSection, Prod.mk.injEq] at section'
            · rw [← section'.1, same] at after
              exact .inl after
            · rw [← section'.1] at after
              rcases logged.acceptance_of after with before | ⟨here, answer, unknown⟩
              · exact .inl before
              · refine .inr ⟨_, here, _, .refresh known refreshing asked decoded ?_, unknown⟩
                exact congrArg Phase.answered answer
          · rw [(advance_logs taken (fun flight same => spending ⟨flight, same⟩) refreshing).replay] at after
            exact .inl after
  | arrive thread origin request =>
    left
    simp only [nodeStep] at found
    split_ifs at found <;> exact found
  | enterLockdown => exact .inl found
  | settleRead id id' =>
    left
    simp only [nodeStep] at found
    split_ifs at found <;> exact found
  | settleMark id armed =>
    left
    simp only [nodeStep] at found
    split at found <;> exact found
  | settleRelease id =>
    left
    simp only [nodeStep] at found
    split at found <;> exact found
  | background op => exact .inl (by simpa [nodeStep] using found)

/-- The answer to a request is the cache's, or the checks have just given it. -/
theorem Logged.answer_of {key id : String} {expiry now : Nat} {s : NodeState} {out : NodeState × SignResult}
    {accepted : Accepted} (logged : Logged s key id expiry now out) (answer : out.2 = .ok (.accepted accepted)) :
    cachedVerdict s.sign.replay key id now = some (.accepted accepted) ∨ cachedVerdict s.sign.replay key id now = none := by
  cases logged with
  | cached verdict known given log =>
    rw [given, Except.ok.injEq] at answer
    rw [answer] at known
    exact .inl known
  | judged unknown write => exact .inr unknown

theorem Answers.cached_or_unknown {w : World} {op : NodeOp} {entries : List (String × Psbt)} {now : Nat}
    {accepted : Accepted} (answers : Answers node w op entries now (.ok (.accepted accepted))) :
    cachedVerdict w.node.sign.replay (node.acceptanceReplayKey entries) (firstId entries) now =
        some (.accepted accepted) ∨
      cachedVerdict w.node.sign.replay (node.acceptanceReplayKey entries) (firstId entries) now = none := by
  cases answers with
  | @spend thread held flight replies clock pair _ known waits decoded answer =>
    have given := (Phase.leaving.inj answer).1
    obtain ⟨_, _, _, named⟩ := decodePair_ok node decoded
    rcases registrationHold_logged node w.node flight
      (pinVerdict (node.rules.verifyPin flight.request.pin) flight.request) (node.carrierOf flight.request) clock
      (prefetch_refuses node flight.request replies) with ⟨calm, _⟩ | ⟨other, decoded', logged⟩
    · exact absurd ⟨accepted, given⟩ calm
    · have same : other = pair := Except.ok.inj (decoded'.symm.trans decoded)
      rw [same, named] at logged
      exact logged.answer_of given
  | @refresh thread held request reply clock refresh _ known waits asked decoded answer =>
    have given := Phase.answered.inj answer
    rcases refreshRegistrationHold_logged node w.node request (node.prefetchRefreshPrevouts request reply) clock with
      ⟨calm, _⟩ | ⟨other, decoded', logged⟩
    · exact absurd ⟨accepted, given⟩ calm
    · have same : other = refresh := Except.ok.inj (decoded'.symm.trans decoded)
      rw [same] at logged
      exact logged.answer_of given

/-- The id of the first transaction is a commitment's. -/
theorem Answers.firstId_eq {w : World} {op : NodeOp} {entries : List (String × Psbt)} {now : Nat} {result : SignResult}
    (answers : Answers node w op entries now result) :
    ∃ psbt expiry, firstId entries = node.rules.commitmentId psbt expiry := by
  cases answers with
  | @spend _ _ flight _ _ pair _ _ _ decoded _ => exact ⟨pair.spend, flight.request.expiry, (decodePair_ok node decoded).2.1⟩
  | @refresh _ _ request _ _ refresh _ _ _ _ _ _ => exact ⟨refresh, request.expiry, rfl⟩

theorem rungLabel_fits : ∀ index < maxEscapeBumps, (utf8 s!"escape_bump:{index}").length < 2 ^ 64 := by
  decide +kernel

variable (hex : HexIds node) (sized : ∀ psbt, (node.rules.serialize psbt).length < 2 ^ 64)
include hex sized

theorem commitmentId_fits (psbt : Psbt) (expiry : Nat) :
    Fits (node.rules.commitmentId psbt expiry, node.rules.serialize psbt) := by
  obtain ⟨digest, width, same⟩ := hex psbt expiry
  refine ⟨?_, sized psbt⟩
  rw [same, length_utf8_toHex, width]
  decide

theorem entries_fit {request : SignRequest} {pair : SpendPair} (decoded : node.decodePair request = .ok pair) :
    ∀ entry ∈ shown node pair.entries, Fits entry := by
  obtain ⟨bounded, id, escapeId, _⟩ := decodePair_ok node decoded
  intro entry member
  simp only [shown, SpendPair.entries, List.map_cons, List.mem_cons, List.map_map, List.mem_map, id, escapeId] at member
  rcases member with rfl | rfl | ⟨⟨bump, index⟩, rung, rfl⟩
  · exact commitmentId_fits hex sized _ _
  · exact commitmentId_fits hex sized _ _
  · have place := List.snd_lt_of_mem_zipIdx rung
    exact ⟨rungLabel_fits index (by simp only at place; omega), sized bump⟩

theorem Answers.fits {w : World} {op : NodeOp} {entries : List (String × Psbt)} {now : Nat} {result : SignResult}
    (answers : Answers node w op entries now result) : ∀ entry ∈ shown node entries, Fits entry := by
  cases answers with
  | spend known waits decoded answer => exact entries_fit hex sized decoded
  | refresh known waits asked decoded answer =>
    intro entry member
    rw [List.mem_singleton.mp member]
    exact commitmentId_fits hex sized _ _

end Machine

/-- An acceptance in the log was admitted in the run, under the key of its list. -/
theorem acceptance_admitted {node : NodeConfig} {s : NodeState} (fresh : s.sign.replay = ∅) {run : List NodeOp}
    {key : String} {expiry : Nat} {accepted : Accepted}
    (found : (node.nodeAfter s run).node.sign.replay.lookup key = some ⟨expiry, .accepted accepted⟩) :
    Happened node.nodeStep (fun w op => ∃ entries, key = node.acceptanceReplayKey entries ∧
      Admits node entries accepted w op) ⟨{ s with spendPreflight := 0 }, ∅, ∅⟩ run := by
  refine (happenedSince_of_established node.nodeStep (fun _ => True)
    (fun w => w.node.sign.replay.lookup key = some ⟨expiry, .accepted accepted⟩) _ (fun _ _ _ => trivial) ?_ _ trivial
    ?_ run found).happened
  · intro w op _ absent present
    rcases nodeStep_acceptance present with before | admitted
    · exact absurd before absent
    · exact admitted
  · simp [fresh]

/-- A refusal recorded under a commitment bars every PSBT of that commitment, whatever it shows beside it, as a spend
or as a refresh. An acceptance is answered only for the ordered list of labels and serialized PSBTs that the
checks have admitted. -/
theorem verdict_cache_sound (node : NodeConfig) (policy : PolicyChecks) :
    (∀ (p q : Psbt) (expiry : Nat), inputSum p < 2 ^ 64 → inputSum q < 2 ^ 64 → outputSum p.unsignedTx < 2 ^ 64 →
        outputSum q.unsignedTx < 2 ^ 64 →
        commitmentOf node.walletId policy.policyVersion p expiry =
          commitmentOf node.walletId policy.policyVersion q expiry →
        ∀ (reply reply' : Option ChainReply) (answer : SignResponse),
          (node.verifySpend policy p (reply.map (fetchPrevouts p)) = .error answer ∨
            ∃ violation, classify p policy.checkParams = .error violation ∧ answer = .refusal (policyRefusal violation)) →
          isRecordableVerdict answer = true →
            ∃ refused, node.verifySpend policy q (reply'.map (fetchPrevouts q)) = .error (.refusal refused)) ∧
      (Function.Injective node.rules.sha256 → HexIds node → (∀ psbt, (node.rules.serialize psbt).length < 2 ^ 64) →
        ∀ s : NodeState, s.sign.replay = ∅ → ∀ (run : List NodeOp) (op : NodeOp) (entries : List (String × Psbt))
          (now : Nat) (accepted : Accepted),
          Answers node (node.nodeAfter s run) op entries now (.ok (.accepted accepted)) →
            ∃ entries', shown node entries' = shown node entries ∧
              Happened node.nodeStep (Admits node entries' accepted) ⟨{ s with spendPreflight := 0 }, ∅, ∅⟩
                (run ++ [op])) := by
  constructor
  · intro p q expiry inputs inputs' outputs outputs' same reply reply' answer refused recordable
    have barred : Barred policy.checkParams p.unsignedTx (inputSum p - outputSum p.unsignedTx) := by
      rcases refused with failed | ⟨violation, failed, rfl⟩
      · exact verifySpend_recordable failed recordable
      · rw [classify_unrecorded failed] at recordable
        cases recordable
    exact verifySpend_of_barred (barred_of_commitmentOf inputs inputs' outputs outputs' same barred)
  · intro injective hex sized s fresh run op entries now accepted answers
    -- Either the checks have just admitted the list, or the entry the cache has answered from was written before.
    rcases answers.cached_or_unknown with cached | unknown
    · have recorded : ∃ key expiry, (key = node.acceptanceReplayKey entries ∨ key = firstId entries) ∧
          (node.nodeAfter s run).node.sign.replay.lookup key = some ⟨expiry, .accepted accepted⟩ := by
        rw [cachedVerdict, Option.or_eq_some_iff] at cached
        simp only [ReplayLog.get, Option.map_eq_some_iff, Option.filter_eq_some_iff] at cached
        rcases cached with ⟨⟨expiry, verdict⟩, ⟨found, _⟩, same⟩ | ⟨_, ⟨expiry, verdict⟩, ⟨found, _⟩, same⟩
        · simp only at same
          rw [same] at found
          exact ⟨_, expiry, .inl rfl, found⟩
        · simp only at same
          rw [same] at found
          exact ⟨_, expiry, .inr rfl, found⟩
      obtain ⟨key, expiry, identity, found⟩ := recorded
      obtain ⟨before, a, after, split, entries', named, admits⟩ := acceptance_admitted fresh found
      refine ⟨entries', ?_, before, a, after ++ [op], by simp [split], admits⟩
      rcases identity with whole | first
      · obtain ⟨_, answered, _⟩ := admits
        exact acceptanceReplayKey_injective node injective (answered.fits hex sized) (answers.fits hex sized)
          (named.symm.trans whole)
      · obtain ⟨psbt, expiry', id⟩ := answers.firstId_eq
        obtain ⟨digest, _, written⟩ := hex psbt expiry'
        exact absurd ((written.symm.trans id.symm).trans (first.symm.trans named))
          (toHex_ne_acceptanceReplayKey node digest entries')
    · exact ⟨entries, rfl, run, op, [], rfl, now, answers, unknown⟩

namespace Sample
open Channel.Sample

/-- The node with commitment ids of the width of a digest. -/
def digestNode : NodeConfig :=
  { node with
    rules := { rules with commitmentId := fun psbt _ => toHex (leBytes 32 psbt.unsignedTx.lockTime) } }

/-- A vault of one script that allows no destination. -/
def closedPolicy : PolicyChecks where
  checkParams := ⟨⟨some [⟨false, fun _ => some [0, 32]⟩]⟩, [], none, 0, 0⟩
  policyVersion := 1
  backend := true

/-- The spend before the user has signed it. -/
def unsignedSpend : Psbt :=
  { psbt 1 10 with inputs := (psbt 1 10).inputs.map (fun input => { input with partialSigs := ∅ }) }

/-- A refresh is admitted, and asked for again under a fresh nonce. -/
def askedAgain : List NodeOp :=
  refreshRun 0 (refreshRequest "nonce-a" 5000) 100 ++
    [.arrive 1 .direct (.refresh (refreshRequest "nonce-b" 5000)), .advance 1 (.ingress 130 130)]

theorem verdict_cache_sound_sample :
    (∃ refused, digestNode.verifySpend closedPolicy unsignedSpend ((some (.ok [some coin])).map
        (fetchPrevouts unsignedSpend)) = .error (.refusal refused)) ∧
      ∃ entries', shown digestNode entries' = [(toHex (leBytes 32 12), leBytes 4 12)] ∧
        Happened digestNode.nodeStep (Admits digestNode entries' ⟨toHex (leBytes 32 12), 100, 0⟩)
          ⟨{ start with spendPreflight := 0 }, ∅, ∅⟩ (askedAgain ++ [refreshRegistration 1 130]) := by
  obtain ⟨refusals, acceptances⟩ := verdict_cache_sound digestNode closedPolicy
  refine ⟨?_, ?_⟩
  · exact refusals (psbt 1 10) unsignedSpend 1000 (by decide +kernel) (by decide +kernel) (by decide +kernel)
      (by decide +kernel) rfl (some (.ok [some coin])) _ _ (.inl rfl) rfl
  · refine acceptances (fun _ _ same => same) ?_ ?_ start rfl askedAgain (refreshRegistration 1 130)
      [(toHex (leBytes 32 12), psbt 2 12)] 130 ⟨toHex (leBytes 32 12), 100, 0⟩ ?_
    · intro psbt expiry
      exact ⟨leBytes 32 psbt.unsignedTx.lockTime, length_leBytes 32 _, rfl⟩
    · intro psbt
      simp [digestNode, rules]
    · refine @Answers.refresh digestNode _ 1 _ (refreshRequest "nonce-b" 5000) _ _ (psbt 2 12) _ rfl rfl rfl rfl ?_
      exact congrArg Phase.answered (by decide +kernel)

end Sample

end BtcPolicy.Node
