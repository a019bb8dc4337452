import BtcPolicy.Node.Commitment
import BtcPolicy.Node.Holds
import BtcPolicy.Policy.Exact

/-! The checks on one transaction: the user's signatures, the chain's prevouts and the policy. A refusal that is
recorded under a commitment turns on nothing but what the commitment binds. -/

namespace BtcPolicy.Node
open FiniteMap Word Bitcoin Codec HotLedger Replay Channel Pin Policy Results Runs PartialStore NodeConfig

/-! ### The checks on one transaction -/

/-- What `verify_spend` and `commitment_of` read of the node beyond its keys. -/
structure PolicyChecks where
  checkParams : CheckParams
  policyVersion : Nat
  backend : Bool

/-- `Debug` of `EcdsaSighashType`. -/
def sighashName (sighashType : Nat) : String :=
  match sighashType with
  | 1 => "All"
  | 2 => "None"
  | 3 => "Single"
  | 129 => "AllPlusAnyoneCanPay"
  | 130 => "NonePlusAnyoneCanPay"
  | _ => "SinglePlusAnyoneCanPay"

def verifyUserSignature (lib : Library) (keys : CandidateKeys) (tx : Transaction) (index : Nat) (input : PsbtInput) :
    Except SignResponse Unit :=
  match input.witnessUtxo with
  | none =>
    .error (refusal .psbtInconsistent "user_signature"
      s!"input {index} has no witness_utxo; sighash cannot be computed")
  | some utxo =>
    match lib.p2wshSignatureHash tx index keys.witnessScript utxo.value with
    | .error e => .error (refusal .psbtInconsistent "user_signature" s!"cannot compute sighash for input {index}: {e}")
    | .ok sighash =>
      match input.partialSigs.lookup keys.userPubkey with
      | none =>
        .error (refusal .userSigInvalid "user_signature"
          s!"input {index} carries no partial signature for the user key")
      | some sig =>
        if sig.sighashType ≠ sighashAll then
          let name := sighashName sig.sighashType
          .error (refusal .badSighash "user_signature"
            s!"input {index} user signature commits to {name}, not SIGHASH_ALL")
        else if lib.verifyEcdsa sighash sig.der keys.userPubkey then .ok ()
        else
          .error (refusal .userSigInvalid "user_signature"
            s!"input {index} user signature does not verify against the recomputed sighash")

/-- An absent prevout is the case of an authorized parent, and a missing `witness_utxo` the policy's own refusal. -/
def comparePrevout (psbt : Psbt) (index : Nat) (input : TxIn × Option Prevout) : Except SignResponse Unit :=
  match input.2, (psbt.inputs[index]?).bind PsbtInput.witnessUtxo with
  | some prevout, some witnessUtxo =>
    if witnessUtxo.scriptPubkey ≠ prevout.txout.scriptPubkey ∨ witnessUtxo.value ≠ prevout.txout.value then
      let txid := txidToString input.1.previousOutput.txid
      let vout := input.1.previousOutput.vout
      .error (refusal .psbtInconsistent "prevout_ground_truth"
        (s!"input {index} witness_utxo disagrees with the on-chain/mempool prevout {txid}:{vout} that gettxout " ++
          "returned: declared scriptPubKey/value do not match the chain's ground truth (an attacker-supplied prevout " ++
          "the fee/ownership checks would trust)"))
    else .ok ()
  | _, _ => .ok ()

def comparePrevoutsAgainstChain (psbt : Psbt) (prevouts : List (Option Prevout)) : Except SignResponse Unit :=
  let wanted := psbt.unsignedTx.input.length
  let fetched := prevouts.length
  if fetched ≠ wanted then
    .error (refusal .psbtInconsistent "prevout_ground_truth" s!"pre-fetched {fetched} prevouts for {wanted} PSBT inputs")
  else firstError (comparePrevout psbt) 0 (psbt.unsignedTx.input.zip prevouts)

def runPrevoutCheck (psbt : Psbt) (prefetched : Option PrevoutFetch) : Except SignResponse Unit :=
  match prefetched with
  | some (.ok prevouts) => comparePrevoutsAgainstChain psbt prevouts
  | some (.error refused) => .error refused
  | none =>
    .error (refusal .psbtInconsistent "prevout_ground_truth"
      ("internal: prevout preflight was not pre-fetched out of the sign lock; refusing rather than running chain " ++
        "I/O under the lock"))

namespace NodeConfig

variable (node : NodeConfig) (policy : PolicyChecks)

def verifyUserSignatures (psbt : Psbt) : Except SignResponse Unit :=
  firstError (verifyUserSignature node.lib node.keys psbt.unsignedTx) 0 psbt.inputs

/-- The user's signatures, the chain's prevouts, and then the policy. -/
def verifySpend (psbt : Psbt) (prefetched : Option PrevoutFetch) : Except SignResponse Unit := do
  node.verifyUserSignatures psbt
  if policy.backend then runPrevoutCheck psbt prefetched
  match evaluate psbt policy.checkParams with
  | .error violation => throw (.refusal (policyRefusal violation))
  | .ok _ => pure ()

end NodeConfig

/-! ### What a recordable refusal turns on -/

/-- The commitment bars the transaction: an output pays neither the allowlist nor the vault, or the fee is above
the cap. Of the prevouts it reads only the fee they leave. -/
def Barred (params : CheckParams) (tx : Transaction) (fee : Nat) : Prop :=
  (∃ txout ∈ tx.output, params.paysAllowed txout.scriptPubkey = false ∧ params.paysVault txout.scriptPubkey = false) ∨
    maxFeePercent * (outputSum tx + fee) < fee * 100

section Policy

variable {params : CheckParams} {psbt : Psbt}

/-- Which check an error of `evaluate` comes from. -/
theorem evaluate_error {violation : Violation} (failed : evaluate psbt params = .error violation) :
    checkPsbtConsistency psbt = .error violation ∨ checkInputs psbt params = .error violation ∨
      checkDestinations psbt params = .error violation ∨ checkHotBudget psbt params = .error violation ∨
      checkFee psbt = .error violation := by
  unfold evaluate at failed
  cases consistent : checkPsbtConsistency psbt with
  | error _ => exact .inl (by simpa [consistent, bind, Except.bind] using failed)
  | ok _ =>
    cases inputs : checkInputs psbt params with
    | error _ => exact .inr (.inl (by simpa [consistent, inputs, bind, Except.bind] using failed))
    | ok _ =>
      cases destinations : checkDestinations psbt params with
      | error _ =>
        exact .inr (.inr (.inl (by simpa [consistent, inputs, destinations, bind, Except.bind] using failed)))
      | ok _ =>
        cases budget : checkHotBudget psbt params with
        | error _ =>
          exact .inr (.inr (.inr (.inl
            (by simpa [consistent, inputs, destinations, budget, bind, Except.bind] using failed))))
        | ok _ =>
          exact .inr (.inr (.inr (.inr
            (by simpa [consistent, inputs, destinations, budget, bind, Except.bind] using failed))))

theorem checkPsbtConsistency_code {violation : Violation} (failed : checkPsbtConsistency psbt = .error violation) :
    violation.code = .psbtInconsistent := by
  unfold checkPsbtConsistency at failed
  simp only at failed
  split_ifs at failed
  all_goals first
    | (cases failed; rfl)
    | (split at failed <;> cases failed; rfl)

theorem checkHotBudget_code {violation : Violation} (failed : checkHotBudget psbt params = .error violation) :
    violation.code = .hotBudgetExceeded := by
  unfold checkHotBudget at failed
  simp only at failed
  split_ifs at failed
  cases failed
  rfl

/-- A destination refused is one that pays neither the allowlist nor the vault. -/
theorem checkDestination_error {index : Nat} {output : TxOut × PsbtOutput} {violation : Violation}
    (refused : checkDestination params index output = .error violation) :
    params.paysAllowed output.1.scriptPubkey = false ∧ params.paysVault output.1.scriptPubkey = false := by
  unfold checkDestination at refused
  simp only at refused
  split_ifs at refused with allowed vault
  all_goals exact ⟨by simpa using allowed, by simpa using vault⟩

/-- A fee over the cap is positive, so the prevouts exceed the outputs by exactly it. -/
theorem checkFee_error {violation : Violation} (failed : checkFee psbt = .error violation)
    (code : violation.code = .feeExceedsCap) :
    maxFeePercent * (outputSum psbt.unsignedTx + (inputSum psbt - outputSum psbt.unsignedTx)) <
      (inputSum psbt - outputSum psbt.unsignedTx) * 100 := by
  unfold checkFee at failed
  simp only at failed
  split_ifs at failed with short excess
  · cases failed
    cases code
  · rw [Nat.add_sub_cancel' (Nat.le_of_not_lt short)]
    exact excess

/-- The codes a refusal is recorded for are those of a barred transaction. -/
theorem barred_of_evaluate {violation : Violation} (failed : evaluate psbt params = .error violation)
    (recordable : isRecordableVerdict (.refusal (policyRefusal violation)) = true) :
    Barred params psbt.unsignedTx (inputSum psbt - outputSum psbt.unsignedTx) := by
  obtain ⟨code, check, detail⟩ := violation
  rcases evaluate_error failed with consistency | inputs | destinations | budget | fee
  · have known := checkPsbtConsistency_code consistency
    simp only at known
    simp [known, isRecordableVerdict, policyRefusal, mapPolicyCode] at recordable
  · have known := checkInputs_code inputs
    simp only at known
    simp [known, isRecordableVerdict, policyRefusal, mapPolicyCode] at recordable
  · obtain ⟨index, output, member, refused⟩ := firstError_some destinations
    exact .inl ⟨output.1, (List.of_mem_zip member).1, checkDestination_error refused⟩
  · have known := checkHotBudget_code budget
    simp only at known
    simp [known, isRecordableVerdict, policyRefusal, mapPolicyCode] at recordable
  · refine .inr (checkFee_error fee ?_)
    unfold checkFee at fee
    simp only at fee
    split_ifs at fee
    · cases fee
      simp [isRecordableVerdict, policyRefusal, mapPolicyCode] at recordable
    · cases fee
      rfl

/-- A barred transaction passes with no prevouts that leave the same fee. -/
theorem not_evaluate_of_barred (barred : Barred params psbt.unsignedTx (inputSum psbt - outputSum psbt.unsignedTx)) :
    ∃ violation, evaluate psbt params = .error violation := by
  cases passed : evaluate psbt params with
  | error violation => exact ⟨violation, rfl⟩
  | ok _ =>
    exfalso
    obtain ⟨consistent, _, destinations, _, fee⟩ := (evaluate_ok_iff psbt params).mp passed
    rcases barred with ⟨txout, member, allowed, vault⟩ | excess
    · have mapped := outputs_of_consistent consistent
      have recognized := (checkDestinations_ok_iff psbt params mapped).mp destinations txout member
      rw [Recognized, ← paysAllowed_iff, ← paysVault_iff, allowed, vault] at recognized
      simp at recognized
    · unfold checkFee at fee
      simp only at fee
      split_ifs at fee with short capped
      rw [Nat.add_sub_cancel' (Nat.le_of_not_lt short)] at excess
      exact capped excess

/-- `classify` refuses with a code that is never recorded. -/
theorem classify_unrecorded {violation : Violation} (failed : classify psbt params = .error violation) :
    isRecordableVerdict (.refusal (policyRefusal violation)) = false := by
  unfold classify at failed
  simp only at failed
  split_ifs at failed
  · cases failed
    rfl
  · split at failed <;> cases failed
    rfl

end Policy

/-- Every error is a refusal that the log does not take. -/
def Unrecorded (checked : Except SignResponse Unit) : Prop :=
  ∀ answer, checked = .error answer → ∃ refused, answer = .refusal refused ∧ isRecordableVerdict answer = false

theorem unrecorded_firstError {α : Type} {check : Nat → α → Except SignResponse Unit}
    (each : ∀ index item, Unrecorded (check index item)) (start : Nat) (items : List α) :
    Unrecorded (firstError check start items) := by
  intro answer failed
  obtain ⟨index, item, _, refused⟩ := firstError_some failed
  exact each index item answer refused

theorem verifyUserSignatures_unrecorded (node : NodeConfig) (psbt : Psbt) :
    Unrecorded (node.verifyUserSignatures psbt) := by
  refine unrecorded_firstError (fun index input => ?_) 0 psbt.inputs
  intro answer failed
  unfold verifyUserSignature at failed
  repeat' split at failed
  all_goals first
    | exact ⟨_, (Except.error.inj failed).symm, by rw [← Except.error.inj failed]; rfl⟩
    | cases failed

theorem fetchPrevouts_unrecorded {psbt : Psbt} {reply : ChainReply} {answer : SignResponse}
    (failed : fetchPrevouts psbt reply = .error answer) :
    ∃ refused, answer = .refusal refused ∧ isRecordableVerdict answer = false := by
  unfold fetchPrevouts at failed
  cases reply with
  | error e =>
    cases failed
    exact ⟨_, rfl, rfl⟩
  | ok prevouts =>
    simp only at failed
    split_ifs at failed
    cases failed
    exact ⟨_, rfl, rfl⟩

theorem comparePrevoutsAgainstChain_unrecorded (psbt : Psbt) (prevouts : List (Option Prevout)) :
    Unrecorded (comparePrevoutsAgainstChain psbt prevouts) := by
  unfold comparePrevoutsAgainstChain
  simp only
  split_ifs
  · intro answer failed
    cases failed
    exact ⟨_, rfl, rfl⟩
  · refine unrecorded_firstError (fun index input => ?_) 0 _
    intro answer failed
    unfold comparePrevout at failed
    split at failed
    · split_ifs at failed
      cases failed
      exact ⟨_, rfl, rfl⟩
    · cases failed

theorem runPrevoutCheck_unrecorded (psbt : Psbt) (reply : Option ChainReply) :
    Unrecorded (runPrevoutCheck psbt (reply.map (fetchPrevouts psbt))) := by
  intro answer failed
  cases reply with
  | none =>
    cases failed
    exact ⟨_, rfl, rfl⟩
  | some reply =>
    simp only [Option.map_some, runPrevoutCheck] at failed
    cases fetched : fetchPrevouts psbt reply with
    | error refused =>
      rw [fetched] at failed
      cases failed
      exact fetchPrevouts_unrecorded fetched
    | ok prevouts =>
      rw [fetched] at failed
      exact comparePrevoutsAgainstChain_unrecorded psbt prevouts answer failed

section Verify

variable {node : NodeConfig} {policy : PolicyChecks} {psbt : Psbt} {reply : Option ChainReply}

/-- The checks of `verify_spend` in order: an error is one the log does not take, or a violation of the policy. -/
theorem verifySpend_cases :
    (∃ refused, node.verifySpend policy psbt (reply.map (fetchPrevouts psbt)) = .error (.refusal refused) ∧
        isRecordableVerdict (.refusal refused) = false) ∨
      node.verifySpend policy psbt (reply.map (fetchPrevouts psbt)) =
        (evaluate psbt policy.checkParams).mapError (fun violation => .refusal (policyRefusal violation)) := by
  unfold NodeConfig.verifySpend
  cases signed : node.verifyUserSignatures psbt with
  | error answer =>
    obtain ⟨refused, rfl, unrecorded⟩ := verifyUserSignatures_unrecorded node psbt answer signed
    exact .inl ⟨refused, rfl, unrecorded⟩
  | ok _ =>
    have judged : (match evaluate psbt policy.checkParams with
        | .error violation => throw (.refusal (policyRefusal violation))
        | .ok _ => pure () : Except SignResponse Unit) =
        (evaluate psbt policy.checkParams).mapError (fun violation => .refusal (policyRefusal violation)) := by
      cases evaluate psbt policy.checkParams <;> rfl
    by_cases live : policy.backend = true
    · cases compared : runPrevoutCheck psbt (reply.map (fetchPrevouts psbt)) with
      | error answer =>
        obtain ⟨refused, rfl, unrecorded⟩ := runPrevoutCheck_unrecorded psbt reply answer compared
        exact .inl ⟨refused, by simp [live, bind, Except.bind], unrecorded⟩
      | ok _ => exact .inr (by simpa [live, bind, Except.bind] using judged)
    · exact .inr (by simpa [live, bind, Except.bind] using judged)

theorem verifySpend_recordable {answer : SignResponse}
    (failed : node.verifySpend policy psbt (reply.map (fetchPrevouts psbt)) = .error answer)
    (recordable : isRecordableVerdict answer = true) :
    Barred policy.checkParams psbt.unsignedTx (inputSum psbt - outputSum psbt.unsignedTx) := by
  rcases @verifySpend_cases node policy psbt reply with ⟨refused, same, unrecorded⟩ | judged
  · rw [failed, Except.error.injEq] at same
    rw [same, unrecorded] at recordable
    cases recordable
  · rw [failed] at judged
    cases violated : evaluate psbt policy.checkParams with
    | ok _ =>
      rw [violated] at judged
      cases judged
    | error violation =>
      rw [violated] at judged
      rw [Except.error.inj judged] at recordable
      exact barred_of_evaluate violated recordable

theorem verifySpend_of_barred
    (barred : Barred policy.checkParams psbt.unsignedTx (inputSum psbt - outputSum psbt.unsignedTx)) :
    ∃ refused, node.verifySpend policy psbt (reply.map (fetchPrevouts psbt)) = .error (.refusal refused) := by
  rcases @verifySpend_cases node policy psbt reply with ⟨refused, same, _⟩ | judged
  · exact ⟨refused, same⟩
  · obtain ⟨violation, violated⟩ := not_evaluate_of_barred barred
    rw [violated] at judged
    exact ⟨_, judged⟩

end Verify

/-- Below `2 ^ 64` the declared fee is the exact one. -/
theorem commitmentOf_fee {walletId : Bytes} {policyVersion expiry : Nat} {psbt : Psbt} (inputs : inputSum psbt < 2 ^ 64)
    (outputs : outputSum psbt.unsignedTx < 2 ^ 64) :
    (commitmentOf walletId policyVersion psbt expiry).fee = inputSum psbt - outputSum psbt.unsignedTx := by
  have exact : ∀ values : List TxOut, (values.map TxOut.value).sum < 2 ^ 64 →
      values.foldl (fun acc txout => satAdd acc txout.value) 0 = (values.map TxOut.value).sum := by
    intro values fits
    rw [← List.foldl_map (f := TxOut.value) (g := satAdd)]
    rw [foldl_satAdd_exact _ 0 (by unfold maxWord; omega), Nat.zero_add]
  simp only [commitmentOf, totalIn, totalOut]
  rw [exact _ inputs, exact _ outputs]
  rfl

/-- One commitment, one verdict: what bars the first PSBT bars the second. -/
theorem barred_of_commitmentOf {params : CheckParams} {walletId : Bytes} {policyVersion expiry : Nat} {p q : Psbt}
    (inputs : inputSum p < 2 ^ 64) (inputs' : inputSum q < 2 ^ 64) (outputs : outputSum p.unsignedTx < 2 ^ 64)
    (outputs' : outputSum q.unsignedTx < 2 ^ 64)
    (same : commitmentOf walletId policyVersion p expiry = commitmentOf walletId policyVersion q expiry)
    (barred : Barred params p.unsignedTx (inputSum p - outputSum p.unsignedTx)) :
    Barred params q.unsignedTx (inputSum q - outputSum q.unsignedTx) := by
  have fees := congrArg Commitment.fee same
  rw [commitmentOf_fee inputs outputs, commitmentOf_fee inputs' outputs'] at fees
  rw [← fees, ← unsignedTx_of_commitmentOf same]
  exact barred

end BtcPolicy.Node
