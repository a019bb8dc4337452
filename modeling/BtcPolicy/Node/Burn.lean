import BtcPolicy.Channel.Signatures
import BtcPolicy.Lib.Results
import BtcPolicy.Node.Verdicts
import BtcPolicy.Node.Weight

/-! How fast refreshes can burn the vault. A refresh starts an interval on the coins it spends and on the coins it
creates, and one that spends such a coin before its interval is over is refused; what it may pay is capped by its
size. -/

namespace BtcPolicy.Node
open FiniteMap Word Bitcoin HotLedger Replay Channel Pin Policy Runs Results NodeConfig

/-! ### The interval clocks -/

/-- The coins a refresh starts the interval of: what it spends and what it creates. -/
def touches (lib : Library) (tx : Transaction) (coin : OutPoint) : Prop :=
  coin ∈ tx.input.map TxIn.previousOutput ∨
    coin ∈ (List.range tx.output.length).map (fun vout => OutPoint.mk (lib.computeTxid tx) vout)

instance (lib : Library) (tx : Transaction) (coin : OutPoint) : Decidable (touches lib tx coin) :=
  inferInstanceAs (Decidable (_ ∨ _))

theorem lookup_record (lib : Library) (log : RefreshLog) (refresh : Psbt) (now : Nat) (coin : OutPoint) :
    (RefreshLog.record lib log refresh now).lookup coin =
      if touches lib refresh.unsignedTx coin then some now else log.lookup coin := by
  unfold RefreshLog.record
  simp only
  rw [lookup_foldl_insert (fun vout => OutPoint.mk (lib.computeTxid refresh.unsignedTx) vout) now,
    lookup_foldl_insert TxIn.previousOutput now]
  by_cases touched : touches lib refresh.unsignedTx coin
  · rw [if_pos touched]
    rcases touched with spent | created
    · rw [if_pos spent, ite_self]
    · rw [if_pos created]
  · rw [if_neg touched, if_neg (fun created => touched (Or.inr created)), if_neg (fun spent => touched (Or.inl spent))]

/-- The sweep keeps a coin exactly while its interval runs. -/
theorem lookup_refreshPrune {log : RefreshLog} {now interval : Nat} {coin : OutPoint} {since : Nat} :
    (RefreshLog.prune log now interval).lookup coin = some since ↔
      log.lookup coin = some since ∧ now - since < interval := by
  unfold RefreshLog.prune
  rw [lookup_retain_some, decide_eq_true_eq]

/-- The interval that began at `since` still holds the coin back, or it was over by `now`. -/
def Rests (interval : Nat) (log : RefreshLog) (coin : OutPoint) (since now : Nat) : Prop :=
  (∃ last, log.lookup coin = some last ∧ since ≤ last) ∨ since + interval ≤ now

namespace Rests

variable {interval since now next : Nat} {log : RefreshLog} {coin : OutPoint}

theorem later (rests : Rests interval log coin since now) (order : now ≤ next) : Rests interval log coin since next :=
  rests.imp id (fun done => done.trans order)

theorem prune (rests : Rests interval log coin since now) (began : since ≤ next) (order : now ≤ next) :
    Rests interval (RefreshLog.prune log next interval) coin since next := by
  rcases rests with ⟨last, found, early⟩ | done
  · by_cases running : next - last < interval
    · exact .inl ⟨last, lookup_refreshPrune.mpr ⟨found, running⟩, early⟩
    · right
      omega
  · exact .inr (done.trans order)

theorem record (rests : Rests interval log coin since now) (lib : Library) (refresh : Psbt) (began : since ≤ next)
    (order : now ≤ next) : Rests interval (RefreshLog.record lib log refresh next) coin since next := by
  rcases rests with ⟨last, found, early⟩ | done
  · left
    by_cases touched : touches lib refresh.unsignedTx coin
    · exact ⟨next, by rw [lookup_record, if_pos touched], began⟩
    · exact ⟨last, by rw [lookup_record, if_neg touched, found], early⟩
  · exact .inr (done.trans order)

end Rests

/-- A refresh that passes spends no coin whose interval still runs. -/
theorem checkRefreshInterval_none {node : NodeConfig} {log : RefreshLog} {refresh : Psbt} {now since last : Nat}
    {coin : OutPoint} (passes : node.checkRefreshInterval log refresh now = none)
    (spends : coin ∈ refresh.unsignedTx.input.map TxIn.previousOutput) (found : log.lookup coin = some last)
    (began : since ≤ last) (order : since ≤ now) :
    since + node.refreshMinIntervalSecs ≤ now := by
  obtain ⟨input, member, rfl⟩ := List.mem_map.mp spends
  unfold checkRefreshInterval at passes
  have quiet := List.findSome?_eq_none_iff.mp passes input member
  simp only [found] at quiet
  by_cases running : now - last < node.refreshMinIntervalSecs
  · rw [if_pos running] at quiet
    cases quiet
  · omega

/-! ### What a hold does to them -/

/-- What a judgement does to the interval clocks: nothing, or it starts those of an accepted refresh that has passed
both bounds. -/
inductive ClockWrite (node : NodeConfig) (refresh : Psbt) (now : Nat) (log log' : RefreshLog) (result : SignResult) :
    Prop where
  | kept (calm : ¬Accepts result) (same : log' = log)
  | recorded (signed : Psbt) (interval : node.checkRefreshInterval log refresh now = none)
      (fee : node.checkRefreshFeerate refresh = none) (signs : node.rules.addNodeSignatures refresh = .ok signed)
      (accepted : Accepts result) (written : log' = RefreshLog.record node.lib log signed now)

section Holds

variable (node : NodeConfig) (s : NodeState)

theorem refreshes_pruneLogs (now pruneMono : Nat) : (node.pruneLogs now pruneMono s).sign.refreshes =
    RefreshLog.prune s.sign.refreshes now node.refreshMinIntervalSecs := by
  simp [pruneLogs]

theorem judgeRefresh_clock (request : RefreshRequest) (candidate : RefreshCandidate) (now : Nat)
    (prevouts : Option PrevoutFetch) (registerMono : Nat) :
    let out := node.judgeRefresh request candidate now prevouts registerMono s
    ClockWrite node candidate.refresh now s.sign.refreshes out.1.sign.refreshes out.2 := by
  have refused : ∀ refused (t : NodeState), t.sign.refreshes = s.sign.refreshes →
      ClockWrite node candidate.refresh now s.sign.refreshes t.sign.refreshes (.ok (.refusal refused)) :=
    fun refused t same => .kept (not_accepts_refusal refused) same
  unfold judgeRefresh
  split
  · exact refused _ _ rfl
  · split
    · exact refused _ _ rfl
    · simp only
      split_ifs
      · unfold boundRefresh
        split_ifs
        · exact refused _ _ rfl
        · split
          · exact refused _ _ rfl
          · rename_i interval
            split
            · exact refused _ _ rfl
            · rename_i fee
              unfold admitRefresh
              cases signs : node.rules.addNodeSignatures candidate.refresh with
              | error detail => exact refused _ _ rfl
              | ok signed =>
                simp only
                split
                · rename_i t refusal same
                  exact refused _ t (by rw [sign_of_registerPair node same])
                · rename_i t _ same
                  refine .recorded signed interval fee signs ⟨_, rfl⟩ ?_
                  simp [recordRefresh, sign_of_registerPair node same]
      · exact refused _ _ rfl

/-- What the second hold of a refresh does: a request it does not look up, or finds in the cache, leaves the clocks;
any other is judged behind the sweep. -/
inductive RefreshHold (request : RefreshRequest) (now : Nat) (out : NodeState × SignResult) : Prop where
  | kept (same : out.1.sign.refreshes = s.sign.refreshes)
      (known : ∀ refresh, node.decodePsbt request.refreshPsbt "refresh" = .ok refresh →
        cachedVerdict s.sign.replay (node.acceptanceReplayKey [(node.rules.commitmentId refresh request.expiry, refresh)])
          (node.rules.commitmentId refresh request.expiry) now = none → ¬Accepts out.2)
  | judged (refresh : Psbt) (decoded : node.decodePsbt request.refreshPsbt "refresh" = .ok refresh)
      (write : ClockWrite node refresh now (RefreshLog.prune s.sign.refreshes now node.refreshMinIntervalSecs)
        out.1.sign.refreshes out.2)

theorem refreshRegistrationHold_clock (request : RefreshRequest) (prevouts : Option PrevoutFetch)
    (clock : RegistrationClock) :
    RefreshHold node s request (s.sign.coordNonces.effectiveNow clock.wall)
      (node.refreshRegistrationHold request prevouts clock s) := by
  unfold refreshRegistrationHold
  split_ifs
  · exact .kept rfl (fun _ _ _ => not_accepts_refusal _)
  · simp only
    split_ifs
    · exact .kept rfl (fun _ _ _ => not_accepts_refusal _)
    · generalize s.sign.coordNonces.effectiveNow clock.wall = now
      cases decoded : node.decodePsbt request.refreshPsbt "refresh" with
      | error bad => exact .kept rfl (fun _ _ _ => not_accepts_error bad)
      | ok refresh =>
        simp only
        unfold answerRefresh
        simp only [get_prune]
        cases hit : ReplayLog.get s.sign.replay
            (node.acceptanceReplayKey [(node.rules.commitmentId refresh request.expiry, refresh)]) now with
        | some recorded =>
          refine .kept rfl (fun other same unknown => ?_)
          cases Except.ok.inj (decoded.symm.trans same)
          simp [cachedVerdict, hit] at unknown
        | none =>
          cases hitToo : ReplayLog.get s.sign.replay (node.rules.commitmentId refresh request.expiry) now with
          | some recorded =>
            refine .kept rfl (fun other same unknown => ?_)
            cases Except.ok.inj (decoded.symm.trans same)
            simp [cachedVerdict, hit, hitToo] at unknown
          | none =>
            have write := judgeRefresh_clock node (node.pruneLogs now clock.prune { s with
              sign := { s.sign with replay := ReplayLog.prune s.sign.replay now } }) request
              ⟨refresh, node.rules.commitmentId refresh request.expiry,
                node.acceptanceReplayKey [(node.rules.commitmentId refresh request.expiry, refresh)]⟩ now prevouts
              clock.register
            rw [refreshes_pruneLogs] at write
            exact .judged refresh decoded write

section Spend

variable (flight : Flight) (verdict : PinVerdict) (carrier : String) (pair : SpendPair) (now : Nat)
  (clock : RegistrationClock)

theorem admitPair_refreshes (txClass : TxClass) (outflow fireAt : Nat) (created : Bool) :
    (node.admitPair flight verdict carrier pair txClass outflow fireAt now created clock s).1.sign.refreshes =
      s.sign.refreshes := by
  unfold admitPair
  simp only
  split
  · rename_i u refused same
    simp [sign_of_registerPair node same]
  · rename_i u _ same
    simp [recordAcceptance, sign_of_registerPair node same]

theorem meterSpend_refreshes (classified : Classification) (escapePrevouts : Option PrevoutFetch) :
    (node.meterSpend flight verdict carrier pair classified now escapePrevouts clock s).1.sign.refreshes =
      s.sign.refreshes := by
  unfold meterSpend
  simp only
  generalize (if classified.txClass = .hot ∧ node.channel.isSome then _ else (s.store, Except.ok false)) = reserved
  split
  · simp
  · unfold admitReserved
    split
    · simp only
      split_ifs <;> simp
    · rename_i signed fireAt _
      exact admitPair_refreshes node { s with store := reserved.1 } flight verdict carrier signed now clock _ _ fireAt _

theorem judgeSpend_refreshes (spendPrevouts escapePrevouts : Option PrevoutFetch) :
    (node.judgeSpend flight verdict carrier pair now spendPrevouts escapePrevouts clock s).1.sign.refreshes =
      s.sign.refreshes := by
  unfold judgeSpend
  simp only
  split
  · split_ifs <;> simp [recordRefusal]
  · split
    · rfl
    · split_ifs
      · rfl
      · exact meterSpend_refreshes node s flight verdict carrier pair now clock _ escapePrevouts

end Spend

/-- The registration hold of a spend sweeps the clocks or leaves them. -/
theorem registrationHold_clock (flight : Flight) (verdict : PinVerdict) (carrier : String)
    (spendPrevouts escapePrevouts : Option PrevoutFetch) (clock : RegistrationClock) :
    let out := node.registrationHold flight verdict carrier spendPrevouts escapePrevouts clock s
    out.1.sign.refreshes = s.sign.refreshes ∨
      out.1.sign.refreshes = RefreshLog.prune s.sign.refreshes (s.sign.coordNonces.effectiveNow clock.wall)
        node.refreshMinIntervalSecs := by
  unfold registrationHold
  split_ifs
  · exact .inl rfl
  · simp only
    split
    · exact .inl (by simp)
    · split
      · exact .inl rfl
      · unfold answerPair
        simp only
        split
        · exact .inl (by simp [replayAccepted])
        · split
          · exact .inl rfl
          · split
            · exact .inl (by simp)
            · right
              rw [judgeSpend_refreshes, refreshes_pruneLogs]

end Holds

/-! ### Runs -/

structure AcceptedRefresh where
  refresh : Psbt
  time : Nat

/-- The clock of a hold that sweeps the interval clocks. -/
def sweepClock (w : World) : NodeOp → Option Nat
  | .advance _ (.register _ clock) => some (w.node.sign.coordNonces.effectiveNow clock.wall)
  | .advance _ (.refreshRegister _ clock) => some (w.node.sign.coordNonces.effectiveNow clock.wall)
  | _ => none

/-- The refresh the checks accept in this operation. A request that the verdict cache answers is not accepted again. -/
def acceptedRefresh (node : NodeConfig) (w : World) : NodeOp → Option AcceptedRefresh
  | .advance thread (.refreshRegister reply clock) =>
    match w.threads.lookup thread with
    | some ⟨_, .refresh request, .refreshWindow⟩ =>
      match node.decodePsbt request.refreshPsbt "refresh" with
      | .error _ => none
      | .ok refresh =>
        let now := w.node.sign.coordNonces.effectiveNow clock.wall
        let id := node.rules.commitmentId refresh request.expiry
        match cachedVerdict w.node.sign.replay (node.acceptanceReplayKey [(id, refresh)]) id now,
          (node.refreshRegistrationHold request (node.prefetchRefreshPrevouts request reply) clock w.node).2 with
        | none, .ok (.accepted _) => some ⟨refresh, now⟩
        | _, _ => none
    | _ => none
  | _ => none

/-- The times at which a run sweeps the clocks, and the refreshes it accepts, in order. -/
def sweepTimes (node : NodeConfig) (w : World) (run : List NodeOp) : List Nat :=
  (trace node.nodeStep w run).filterMap (fun e => sweepClock e.state e.action)

def acceptedRefreshes (node : NodeConfig) (w : World) (run : List NodeOp) : List AcceptedRefresh :=
  (trace node.nodeStep w run).filterMap (fun e => acceptedRefresh node e.state e.action)

section Machine

variable {node : NodeConfig}

/-- What an operation does to the interval clocks. -/
inductive ClockStep (node : NodeConfig) (w : World) (op : NodeOp) (next : RefreshLog) : Prop where
  | kept (same : next = w.node.sign.refreshes)
  | swept (now : Nat) (clock : sweepClock w op = some now)
      (pruned : next = RefreshLog.prune w.node.sign.refreshes now node.refreshMinIntervalSecs)
  | recorded (now : Nat) (signed : Psbt) (clock : sweepClock w op = some now)
      (written : next = RefreshLog.record node.lib
        (RefreshLog.prune w.node.sign.refreshes now node.refreshMinIntervalSecs) signed now)

theorem nodeStep_refreshes (w : World) (op : NodeOp) :
    ClockStep node w op (node.nodeStep w op).1.node.sign.refreshes := by
  cases op with
  | advance thread step =>
    cases known : w.threads.lookup thread with
    | none => exact .kept (by simp [nodeStep, known])
    | some held =>
      cases taken : node.advance held w.node step with
      | none => exact .kept (by simp [nodeStep, known, taken])
      | some out =>
        obtain ⟨t, phase⟩ := out
        have after : (node.nodeStep w (.advance thread step)).1.node = t := by simp [nodeStep, known, taken]
        rw [after]
        by_cases spending : ∃ flight, held.phase = .windowB flight
        · obtain ⟨flight, waits⟩ := spending
          obtain ⟨replies, clock, rfl, section'⟩ := advance_windowB node waits taken
          have hold := registrationHold_clock node w.node flight
            (pinVerdict (node.rules.verifyPin flight.request.pin) flight.request) (node.carrierOf flight.request)
            (node.prefetchSpendEscapePrevouts flight.request replies).1
            (node.prefetchSpendEscapePrevouts flight.request replies).2 clock
          have final : t = (node.registerSection flight replies clock w.node).1 := (congrArg Prod.fst section').symm
          rw [final]
          rcases hold with same | pruned
          · exact .kept same
          · exact .swept _ rfl pruned
        · by_cases refreshing : held.phase = .refreshWindow
          · obtain ⟨request, reply, clock, asked, rfl, section'⟩ := advance_refreshWindow node refreshing taken
            have final : t = (node.refreshRegisterSection request reply clock w.node).1 :=
              (congrArg Prod.fst section').symm
            rw [final]
            cases refreshRegistrationHold_clock node w.node request (node.prefetchRefreshPrevouts request reply)
              clock with
            | kept same _ => exact .kept same
            | judged refresh decoded write =>
              cases write with
              | kept calm same => exact .swept _ rfl same
              | recorded signed _ _ _ _ written => exact .recorded _ signed rfl written
          · exact .kept (advance_logs taken (fun flight same => spending ⟨flight, same⟩) refreshing).refreshes
  | arrive thread origin request =>
    refine .kept ?_
    simp only [nodeStep]
    split_ifs <;> rfl
  | enterLockdown => exact .kept rfl
  | settleRead id id' =>
    refine .kept ?_
    simp only [nodeStep]
    split_ifs <;> rfl
  | settleMark id armed =>
    refine .kept ?_
    simp only [nodeStep]
    split <;> rfl
  | settleRelease id =>
    refine .kept ?_
    simp only [nodeStep]
    split <;> rfl
  | background op => exact .kept (by simp [nodeStep])

/-- What an acceptance has passed, and what it leaves. -/
theorem acceptedRefresh_some {w : World} {op : NodeOp} {accepted : AcceptedRefresh}
    (accepts : acceptedRefresh node w op = some accepted) :
    sweepClock w op = some accepted.time ∧ ∃ signed,
      node.checkRefreshInterval (RefreshLog.prune w.node.sign.refreshes accepted.time node.refreshMinIntervalSecs)
          accepted.refresh accepted.time = none ∧
        node.checkRefreshFeerate accepted.refresh = none ∧
        node.rules.addNodeSignatures accepted.refresh = .ok signed ∧
        (node.nodeStep w op).1.node.sign.refreshes = RefreshLog.record node.lib
          (RefreshLog.prune w.node.sign.refreshes accepted.time node.refreshMinIntervalSecs) signed accepted.time := by
  unfold acceptedRefresh at accepts
  split at accepts
  · rename_i thread reply clock
    split at accepts
    · rename_i origin request known
      split at accepts
      · cases accepts
      · rename_i refresh decoded
        simp only at accepts
        split at accepts
        · rename_i response unknown answer
          cases accepts
          have stepped : (node.nodeStep w (.advance thread (.refreshRegister reply clock))).1.node =
              (node.refreshRegistrationHold request (node.prefetchRefreshPrevouts request reply) clock w.node).1 := by
            simp [nodeStep, known, advance, refreshRegisterSection]
          rw [stepped]
          refine ⟨rfl, ?_⟩
          cases refreshRegistrationHold_clock node w.node request (node.prefetchRefreshPrevouts request reply)
            clock with
          | kept _ fresh => exact absurd ⟨_, answer⟩ (fresh refresh decoded unknown)
          | judged other decoded' write =>
            cases Except.ok.inj (decoded.symm.trans decoded')
            cases write with
            | kept calm _ => exact absurd ⟨_, answer⟩ calm
            | recorded signed interval fee signs _ written => exact ⟨signed, interval, fee, signs, written⟩
        · cases accepts
    · cases accepts
  · cases accepts

theorem sweepTimes_cons (w : World) (op : NodeOp) (run : List NodeOp) :
    sweepTimes node w (op :: run) =
      (sweepClock w op).toList ++ sweepTimes node (node.nodeStep w op).1 run := by
  unfold sweepTimes
  rw [trace, List.filterMap_cons]
  cases sweepClock w op <;> rfl

theorem acceptedRefreshes_cons (w : World) (op : NodeOp) (run : List NodeOp) :
    acceptedRefreshes node w (op :: run) =
      (acceptedRefresh node w op).toList ++ acceptedRefreshes node (node.nodeStep w op).1 run := by
  unfold acceptedRefreshes
  rw [trace, List.filterMap_cons]
  cases acceptedRefresh node w op <;> rfl

/-- A coin rests through any operation, by the clock of the last sweep. -/
theorem Rests.step {w : World} {op : NodeOp} {coin : OutPoint} {since now : Nat} (began : since ≤ now)
    (rests : Rests node.refreshMinIntervalSecs w.node.sign.refreshes coin since now)
    (forward : ∀ next, sweepClock w op = some next → now ≤ next) :
    Rests node.refreshMinIntervalSecs (node.nodeStep w op).1.node.sign.refreshes coin since
      ((sweepClock w op).getD now) := by
  have order : now ≤ (sweepClock w op).getD now := by
    cases clock : sweepClock w op with
    | none => exact le_rfl
    | some next => exact forward next clock
  cases @nodeStep_refreshes node w op with
  | kept same =>
    rw [same]
    exact rests.later order
  | swept next clock pruned =>
    rw [clock, Option.getD_some] at order ⊢
    rw [pruned]
    exact rests.prune (began.trans order) order
  | recorded next signed clock written =>
    rw [clock, Option.getD_some] at order ⊢
    rw [written]
    exact (rests.prune (began.trans order) order).record node.lib signed (began.trans order) le_rfl

/-- Whatever a run does in between, a coin that rests is spent again only when its interval is over. -/
theorem rests_run {w : World} {run : List NodeOp} {coin : OutPoint} {since now : Nat} (began : since ≤ now)
    (rests : Rests node.refreshMinIntervalSecs w.node.sign.refreshes coin since now)
    (forward : (now :: sweepTimes node w run).Pairwise (· ≤ ·)) :
    ∀ next ∈ acceptedRefreshes node w run, coin ∈ next.refresh.unsignedTx.input.map TxIn.previousOutput →
      since + node.refreshMinIntervalSecs ≤ next.time := by
  induction run generalizing w now with
  | nil => nofun
  | cons op run ih =>
    obtain ⟨ahead, ordered⟩ := List.pairwise_cons.mp forward
    rw [sweepTimes_cons] at ahead ordered
    have soon : ∀ next, sweepClock w op = some next → now ≤ next :=
      fun next clock => ahead next (List.mem_append_left _ (by rw [clock]; exact List.mem_singleton_self next))
    have stepped := Rests.step began rests soon
    intro next member spends
    rw [acceptedRefreshes_cons] at member
    have here : ∀ accepted, acceptedRefresh node w op = some accepted →
        coin ∈ accepted.refresh.unsignedTx.input.map TxIn.previousOutput →
        since + node.refreshMinIntervalSecs ≤ accepted.time := by
      intro accepted accepts spent
      obtain ⟨clock, signed, interval, _⟩ := acceptedRefresh_some accepts
      have order := began.trans (soon _ clock)
      rcases rests.prune order (soon _ clock) with ⟨last, found, early⟩ | done
      · exact checkRefreshInterval_none interval spent found early order
      · exact done
    have rest : (sweepClock w op).getD now :: sweepTimes node (node.nodeStep w op).1 run |>.Pairwise (· ≤ ·) := by
      cases clock : sweepClock w op with
      | none =>
        rw [clock] at ahead ordered
        exact List.pairwise_cons.mpr ⟨ahead, ordered⟩
      | some next =>
        rw [clock] at ordered
        exact ordered
    have began' : since ≤ (sweepClock w op).getD now := by
      cases clock : sweepClock w op with
      | none => exact began
      | some next => exact began.trans (soon next clock)
    cases accepts : acceptedRefresh node w op with
    | none =>
      rw [accepts] at member
      exact ih began' stepped rest next member spends
    | some accepted =>
      rw [accepts] at member
      rcases List.mem_cons.mp member with rfl | later
      · exact here next accepts spends
      · exact ih began' stepped rest next later spends

/-- Of two acceptances, the later waits for the interval of every coin of the earlier that it spends. -/
theorem acceptedRefreshes_spaced (kept : ∀ raw signed, node.rules.addNodeSignatures raw = .ok signed →
      signed.unsignedTx = raw.unsignedTx) {w : World} {run : List NodeOp}
    (forward : (sweepTimes node w run).Pairwise (· ≤ ·)) :
    (acceptedRefreshes node w run).Pairwise (fun earlier later =>
      (∃ coin ∈ later.refresh.unsignedTx.input.map TxIn.previousOutput,
        touches node.lib earlier.refresh.unsignedTx coin) →
      earlier.time + node.refreshMinIntervalSecs ≤ later.time) := by
  induction run generalizing w with
  | nil => exact .nil
  | cons op run ih =>
    rw [sweepTimes_cons] at forward
    rw [acceptedRefreshes_cons]
    have rest := ih (List.pairwise_append.mp forward).2.1
    cases accepts : acceptedRefresh node w op with
    | none => exact rest
    | some accepted =>
      obtain ⟨clock, signed, _, _, signs, written⟩ := acceptedRefresh_some accepts
      rw [clock] at forward
      refine List.pairwise_cons.mpr ⟨?_, rest⟩
      rintro next member ⟨coin, spends, touched⟩
      have begins : Rests node.refreshMinIntervalSecs (node.nodeStep w op).1.node.sign.refreshes coin accepted.time
          accepted.time := by
        refine .inl ⟨accepted.time, ?_, le_rfl⟩
        rw [written, lookup_record, kept _ _ signs, if_pos touched]
      exact rests_run le_rfl begins forward next member spends

end Machine

/-! ### What a refresh pays -/

/-- The rules a refresh is signed and sized by, where the node's own code gives them. -/
structure RefreshRules (node : NodeConfig) (sign : Bytes → Bytes) : Prop where
  addNodeSignatures : ∀ psbt, node.rules.addNodeSignatures psbt =
    Channel.addNodeSignatures node.lib sign node.keys psbt
  vsize : ∀ tx, node.rules.vsize tx = vsize (bare tx)

/-- Only inputs with a previous output are signed. -/
theorem signInputs_coins {lib : Library} {sign : Bytes → Bytes} {keys : CandidateKeys} {tx : Transaction} {start : Nat}
    {inputs signed : List PsbtInput} (done : signInputs lib sign keys tx start inputs = .ok signed) :
    ∃ coins : List TxOut, inputs.map PsbtInput.witnessUtxo = coins.map some := by
  induction inputs generalizing start signed with
  | nil => exact ⟨[], rfl⟩
  | cons first rest ih =>
    unfold signInputs at done
    cases utxo : first.witnessUtxo with
    | none => simp [utxo] at done
    | some coin =>
      cases hashed : lib.p2wshSignatureHash tx start keys.witnessScript coin.value with
      | error e => simp [utxo, hashed] at done
      | ok sighash =>
        cases others : signInputs lib sign keys tx (start + 1) rest with
        | error e => simp [utxo, hashed, others] at done
        | ok tail =>
          obtain ⟨coins, same⟩ := ih others
          exact ⟨coin :: coins, by rw [List.map_cons, List.map_cons, utxo, same]⟩

theorem addNodeSignatures_ok {lib : Library} {sign : Bytes → Bytes} {keys : CandidateKeys} {raw signed : Psbt}
    (done : Channel.addNodeSignatures lib sign keys raw = .ok signed) :
    signed.unsignedTx = raw.unsignedTx ∧
      ∃ coins : List TxOut, raw.inputs.map PsbtInput.witnessUtxo = coins.map some := by
  unfold Channel.addNodeSignatures at done
  cases inputs : signInputs lib sign keys raw.unsignedTx 0 raw.inputs with
  | error e =>
    rw [inputs] at done
    cases done
  | ok inner =>
    rw [inputs] at done
    cases done
    exact ⟨rfl, signInputs_coins inputs⟩

/-- Where no sum saturates, the fee under the cap is the whole difference. -/
theorem checkRefreshFeerate_none {node : NodeConfig} {refresh : Psbt} {coins : List TxOut}
    (passes : node.checkRefreshFeerate refresh = none) (positive : 0 < node.rules.vsize refresh.unsignedTx)
    (known : refresh.inputs.map PsbtInput.witnessUtxo = coins.map some)
    (fitsIn : (coins.map TxOut.value).sum ≤ maxWord)
    (fitsOut : (refresh.unsignedTx.output.map TxOut.value).sum ≤ maxWord) :
    (coins.map TxOut.value).sum ≤ (refresh.unsignedTx.output.map TxOut.value).sum +
      node.refreshMaxFeerate * node.rules.vsize refresh.unsignedTx := by
  have listed : refresh.inputs.filterMap PsbtInput.witnessUtxo = coins := by
    have each : refresh.inputs.filterMap PsbtInput.witnessUtxo =
        (refresh.inputs.map PsbtInput.witnessUtxo).filterMap id := by
      rw [List.filterMap_map]
      rfl
    rw [each, known, List.filterMap_map]
    exact List.filterMap_some
  unfold checkRefreshFeerate at passes
  simp only [listed, foldl_satAdd_eq, satAdd_zero fitsIn, satAdd_zero fitsOut] at passes
  rw [if_neg positive.ne'] at passes
  by_cases dear : node.refreshMaxFeerate * node.rules.vsize refresh.unsignedTx <
      (coins.map TxOut.value).sum - (refresh.unsignedTx.output.map TxOut.value).sum
  · rw [if_pos dear] at passes
    cases passes
  · omega

/-- Along any chain of accepted refreshes in which each spends a coin of the one before it, one interval passes from
link to link; each pays at most the capped feerate; and no sweep forgets a coin whose interval still runs. -/
theorem refresh_burn_is_bounded {node : NodeConfig} {sign : Bytes → Bytes} (code : RefreshRules node sign) (w : World)
    (run : List NodeOp) (forward : (sweepTimes node w run).Pairwise (· ≤ ·)) :
    (∀ chain : List AcceptedRefresh, chain.Sublist (acceptedRefreshes node w run) →
      chain.IsChain (fun earlier later => ∃ coin ∈ later.refresh.unsignedTx.input.map TxIn.previousOutput,
        touches node.lib earlier.refresh.unsignedTx coin) →
      chain.IsChain (fun earlier later => earlier.time + node.refreshMinIntervalSecs ≤ later.time)) ∧
    (∀ accepted ∈ acceptedRefreshes node w run, ∃ coins : List TxOut,
      accepted.refresh.inputs.map PsbtInput.witnessUtxo = coins.map some ∧
      ((coins.map TxOut.value).sum ≤ maxWord →
        (accepted.refresh.unsignedTx.output.map TxOut.value).sum ≤ maxWord →
        (coins.map TxOut.value).sum ≤ (accepted.refresh.unsignedTx.output.map TxOut.value).sum +
          node.refreshMaxFeerate * vsize (bare accepted.refresh.unsignedTx))) ∧
    ∀ (log : RefreshLog) (now : Nat) (coin : OutPoint) (since : Nat), log.lookup coin = some since →
      since ≤ now → now < since + node.refreshMinIntervalSecs →
      (RefreshLog.prune log now node.refreshMinIntervalSecs).lookup coin = some since := by
  refine ⟨?_, ?_, ?_⟩
  · intro chain among linked
    have kept : ∀ raw signed, node.rules.addNodeSignatures raw = .ok signed → signed.unsignedTx = raw.unsignedTx := by
      intro raw signed signs
      rw [code.addNodeSignatures] at signs
      exact (addNodeSignatures_ok signs).1
    exact isChain_of_pairwise linked ((acceptedRefreshes_spaced kept forward).sublist among)
  · intro accepted member
    obtain ⟨event, _, accepts⟩ := List.mem_filterMap.mp member
    obtain ⟨_, signed, _, fee, signs, _⟩ := acceptedRefresh_some accepts
    rw [code.addNodeSignatures] at signs
    obtain ⟨_, coins, known⟩ := addNodeSignatures_ok signs
    refine ⟨coins, known, fun fitsIn fitsOut => ?_⟩
    rw [← code.vsize]
    have positive : 0 < node.rules.vsize accepted.refresh.unsignedTx := by
      rw [code.vsize]
      exact vsize_pos _
    exact checkRefreshFeerate_none fee positive known fitsIn fitsOut
  · intro log now coin since found _ running
    exact lookup_refreshPrune.mpr ⟨found, by omega⟩

/-- The node of the sample, which signs and sizes a refresh as its own code does. -/
def Sample.refresher : NodeConfig :=
  { Sample.node with
    rules := { Sample.rules with
      addNodeSignatures := Channel.addNodeSignatures Sample.node.lib (fun sighash => sighash) Sample.node.keys
      vsize := fun tx => vsize (bare tx) } }

/-- Two refreshes of one coin, the second an interval after the first. -/
def Sample.refreshes : List NodeOp :=
  Sample.refreshRun 0 (Sample.refreshRequest "nonce-a" 5000) 100 ++
    Sample.refreshRun 1 (Sample.refreshRequest "nonce-b" 6000) 3700

example : (acceptedRefreshes Sample.refresher ⟨Sample.start, ∅, ∅⟩ Sample.refreshes).map AcceptedRefresh.time =
    [100, 3700] := by
  decide +kernel

theorem refresh_burn_is_bounded_sample :
    (acceptedRefreshes Sample.refresher ⟨Sample.start, ∅, ∅⟩ Sample.refreshes).IsChain
      (fun earlier later => earlier.time + 3600 ≤ later.time) :=
  (@refresh_burn_is_bounded Sample.refresher (fun sighash => sighash) ⟨fun _ => rfl, fun _ => rfl⟩
    ⟨Sample.start, ∅, ∅⟩ Sample.refreshes (by decide +kernel)).1 _ (List.Sublist.refl _) (by decide +kernel)

end BtcPolicy.Node
