import BtcPolicy.Encoding
import BtcPolicy.Lib.Word

/-! The commitment: the exact transaction a node evaluates and signs against, and the bytes its id hashes.
Those bytes determine every field of the transaction. -/

namespace BtcPolicy.Node
open Word Bitcoin Codec

structure CommitmentInput where
  txid : Bytes
  vout : Nat
  sequence : Nat
  deriving DecidableEq, Repr

structure CommitmentOutput where
  scriptPubkey : Bytes
  amount : Nat
  deriving DecidableEq, Repr

structure Commitment where
  walletId : Bytes
  version : Int
  lockTime : Nat
  inputs : List CommitmentInput
  outputs : List CommitmentOutput
  fee : Nat
  expiry : Nat
  policyVersion : Nat
  deriving DecidableEq, Repr

def CommitmentInput.bytes (input : CommitmentInput) : Bytes :=
  input.txid ++ beBytes 4 input.vout ++ beBytes 4 input.sequence

def CommitmentOutput.bytes (output : CommitmentOutput) : Bytes :=
  beBytes 4 output.scriptPubkey.length ++ output.scriptPubkey ++ beBytes 8 output.amount

def Commitment.canonicalBytes (c : Commitment) : Bytes :=
  c.walletId ++ beBytesInt c.version ++ beBytes 4 c.lockTime ++
    (beBytes 4 c.inputs.length ++ c.inputs.flatMap CommitmentInput.bytes) ++
    (beBytes 4 c.outputs.length ++ c.outputs.flatMap CommitmentOutput.bytes) ++
    beBytes 8 c.fee ++ beBytes 8 c.expiry ++ beBytes 4 c.policyVersion

/-- The sum of the prevout amounts the PSBT shows. -/
def totalIn (psbt : Psbt) : Nat :=
  (psbt.inputs.filterMap (fun input => input.witnessUtxo)).foldl (fun acc utxo => satAdd acc utxo.value) 0

def totalOut (psbt : Psbt) : Nat := psbt.unsignedTx.output.foldl (fun acc txout => satAdd acc txout.value) 0

/-- `commitment_of` reads the node's wallet id and policy version. -/
def commitmentOf (walletId : Bytes) (policyVersion : Nat) (psbt : Psbt) (expiry : Nat) : Commitment where
  walletId := walletId
  version := psbt.unsignedTx.version
  lockTime := psbt.unsignedTx.lockTime
  inputs := psbt.unsignedTx.input.map (fun txin =>
    ⟨txin.previousOutput.txid, txin.previousOutput.vout, txin.sequence⟩)
  outputs := psbt.unsignedTx.output.map (fun txout => ⟨txout.scriptPubkey, txout.value⟩)
  fee := totalIn psbt - totalOut psbt
  expiry := expiry
  policyVersion := policyVersion

/-! ### The ranges of the fields -/

/-- What the types of an input's fields hold. -/
def CommitmentInput.Typed (input : CommitmentInput) : Prop :=
  input.txid.length = 32 ∧ input.vout < 2 ^ 32 ∧ input.sequence < 2 ^ 32

/-- The amount is a `u64`; the script is bounded by nothing but its length field. -/
def CommitmentOutput.Encodable (output : CommitmentOutput) : Prop :=
  output.scriptPubkey.length < 2 ^ 32 ∧ output.amount < 2 ^ 64

/-- What the types of the fields hold, with the counts and the script lengths below `2 ^ 32`. -/
structure Commitment.Encodable (c : Commitment) : Prop where
  walletId : c.walletId.length = 32
  version : -(2 ^ 31) ≤ c.version ∧ c.version < 2 ^ 31
  lockTime : c.lockTime < 2 ^ 32
  inputs : c.inputs.length < 2 ^ 32 ∧ ∀ input ∈ c.inputs, input.Typed
  outputs : c.outputs.length < 2 ^ 32 ∧ ∀ output ∈ c.outputs, output.Encodable
  fee : c.fee < 2 ^ 64
  expiry : c.expiry < 2 ^ 64
  policyVersion : c.policyVersion < 2 ^ 32

/-- As `Commitment.Encodable`, for an unsigned transaction. -/
structure Encodable (tx : Transaction) : Prop where
  version : -(2 ^ 31) ≤ tx.version ∧ tx.version < 2 ^ 31
  lockTime : tx.lockTime < 2 ^ 32
  inputs : tx.input.length < 2 ^ 32 ∧ ∀ txin ∈ tx.input, txin.previousOutput.txid.length = 32 ∧
    txin.previousOutput.vout < 2 ^ 32 ∧ txin.sequence < 2 ^ 32
  outputs : tx.output.length < 2 ^ 32 ∧ ∀ txout ∈ tx.output, txout.scriptPubkey.length < 2 ^ 32 ∧
    txout.value < 2 ^ 64

/-! ### The bytes determine the fields -/

theorem u32_delimited : SelfDelimiting (fun value => value < 2 ^ 32) (beBytes 4) := beBytes_delimited 4

theorem u64_delimited : SelfDelimiting (fun value => value < 2 ^ 64) (beBytes 8) := beBytes_delimited 8

theorem CommitmentInput.bytes_delimited : SelfDelimiting CommitmentInput.Typed CommitmentInput.bytes := by
  intro a b first second s t same
  simp only [CommitmentInput.bytes, List.append_assoc] at same
  obtain ⟨txid, same⟩ := selfDelimiting_fixed 32 _ _ first.1 second.1 _ _ same
  obtain ⟨vout, same⟩ := u32_delimited _ _ first.2.1 second.2.1 _ _ same
  obtain ⟨sequence, same⟩ := u32_delimited _ _ first.2.2 second.2.2 _ _ same
  refine ⟨?_, same⟩
  cases a
  cases b
  simp only at txid vout sequence
  simp only [txid, vout, sequence]

theorem CommitmentOutput.bytes_delimited : SelfDelimiting CommitmentOutput.Encodable CommitmentOutput.bytes := by
  intro a b first second s t same
  simp only [CommitmentOutput.bytes] at same
  rw [List.append_assoc, List.append_assoc (beBytes 4 b.scriptPubkey.length ++ b.scriptPubkey)] at same
  obtain ⟨script, same⟩ := selfDelimiting_sized u32_delimited _ _ first.1 second.1 _ _ same
  obtain ⟨amount, same⟩ := u64_delimited _ _ first.2 second.2 _ _ same
  refine ⟨?_, same⟩
  cases a
  cases b
  simp only at script amount
  simp only [script, amount]

/-- The parse of the whole format, field by field in the order they are written. -/
theorem Commitment.canonicalBytes_delimited :
    SelfDelimiting Commitment.Encodable Commitment.canonicalBytes := by
  intro a b first second s t same
  simp only [Commitment.canonicalBytes, List.append_assoc] at same
  obtain ⟨walletId, same⟩ := selfDelimiting_fixed 32 _ _ first.walletId second.walletId _ _ same
  obtain ⟨version, same⟩ := beBytesInt_delimited _ _ first.version second.version _ _ same
  obtain ⟨lockTime, same⟩ := u32_delimited _ _ first.lockTime second.lockTime _ _ same
  rw [← List.append_assoc, ← List.append_assoc (beBytes 4 b.inputs.length)] at same
  obtain ⟨inputs, same⟩ := CommitmentInput.bytes_delimited.counted u32_delimited _ _ first.inputs second.inputs _ _ same
  rw [← List.append_assoc, ← List.append_assoc (beBytes 4 b.outputs.length)] at same
  obtain ⟨outputs, same⟩ :=
    CommitmentOutput.bytes_delimited.counted u32_delimited _ _ first.outputs second.outputs _ _ same
  obtain ⟨fee, same⟩ := u64_delimited _ _ first.fee second.fee _ _ same
  obtain ⟨expiry, same⟩ := u64_delimited _ _ first.expiry second.expiry _ _ same
  obtain ⟨policyVersion, same⟩ := u32_delimited _ _ first.policyVersion second.policyVersion _ _ same
  refine ⟨?_, same⟩
  cases a
  cases b
  simp only at walletId version lockTime inputs outputs fee expiry policyVersion
  simp only [walletId, version, lockTime, inputs, outputs, fee, expiry, policyVersion]

theorem Commitment.canonicalBytes_injective {a b : Commitment} (first : a.Encodable) (second : b.Encodable)
    (same : a.canonicalBytes = b.canonicalBytes) : a = b :=
  Commitment.canonicalBytes_delimited.injective first second same

/-! ### The commitment of a PSBT -/

theorem totalIn_le_maxWord (psbt : Psbt) : totalIn psbt ≤ maxWord :=
  foldl_le_maxWord (fun _ _ => satAdd_le_maxWord _ _) _ 0 (Nat.zero_le _)

theorem commitmentOf_encodable {walletId : Bytes} {policyVersion : Nat} {psbt : Psbt} {expiry : Nat}
    (wallet : walletId.length = 32) (policy : policyVersion < 2 ^ 32) (tx : Encodable psbt.unsignedTx)
    (word : expiry < 2 ^ 64) : (commitmentOf walletId policyVersion psbt expiry).Encodable where
  walletId := wallet
  version := tx.version
  lockTime := tx.lockTime
  inputs := by simpa [commitmentOf, CommitmentInput.Typed] using tx.inputs
  outputs := by simpa [commitmentOf, CommitmentOutput.Encodable] using tx.outputs
  fee := by
    have bound := totalIn_le_maxWord psbt
    simp only [commitmentOf, maxWord] at bound ⊢
    omega
  expiry := word
  policyVersion := policy

/-- A commitment shows the whole unsigned transaction. -/
theorem unsignedTx_of_commitmentOf {walletId : Bytes} {policyVersion expiry expiry' : Nat} {psbt psbt' : Psbt}
    (same : commitmentOf walletId policyVersion psbt expiry = commitmentOf walletId policyVersion psbt' expiry') :
    psbt.unsignedTx = psbt'.unsignedTx := by
  simp only [commitmentOf, Commitment.mk.injEq] at same
  obtain ⟨_, version, lockTime, inputs, outputs, _⟩ := same
  have input : psbt.unsignedTx.input = psbt'.unsignedTx.input := by
    apply List.map_injective_iff.mpr _ inputs
    rintro ⟨⟨txid, vout⟩, sequence⟩ ⟨⟨txid', vout'⟩, sequence'⟩ equal
    simpa [and_assoc] using equal
  have output : psbt.unsignedTx.output = psbt'.unsignedTx.output := by
    apply List.map_injective_iff.mpr _ outputs
    rintro ⟨value, script⟩ ⟨value', script'⟩ equal
    simpa [and_comm] using equal
  cases unsigned : psbt.unsignedTx
  cases unsigned' : psbt'.unsignedTx
  simp only [unsigned, unsigned'] at version lockTime input output
  simp only [version, lockTime, input, output]

/-- The canonical bytes are injective, so two PSBTs whose commitments at one node have the same bytes are
of one unsigned transaction, with one expiry and one declared fee. -/
theorem commitment_binds_transaction :
    (∀ a b : Commitment, a.Encodable → b.Encodable → a.canonicalBytes = b.canonicalBytes → a = b) ∧
      ∀ (walletId : Bytes) (policyVersion : Nat), walletId.length = 32 → policyVersion < 2 ^ 32 →
        ∀ (psbt psbt' : Psbt) (expiry expiry' : Nat), Encodable psbt.unsignedTx → Encodable psbt'.unsignedTx →
          expiry < 2 ^ 64 → expiry' < 2 ^ 64 →
          let commitment := commitmentOf walletId policyVersion psbt expiry
          let commitment' := commitmentOf walletId policyVersion psbt' expiry'
          commitment.canonicalBytes = commitment'.canonicalBytes →
            psbt.unsignedTx.version = psbt'.unsignedTx.version ∧
              psbt.unsignedTx.lockTime = psbt'.unsignedTx.lockTime ∧
              psbt.unsignedTx.input = psbt'.unsignedTx.input ∧
              psbt.unsignedTx.output = psbt'.unsignedTx.output ∧
              expiry = expiry' ∧ commitment.fee = commitment'.fee := by
  refine ⟨fun _ _ => Commitment.canonicalBytes_injective, ?_⟩
  intro walletId policyVersion wallet policy psbt psbt' expiry expiry' tx tx' word word' commitment commitment' same
  have equal : commitment = commitment' := Commitment.canonicalBytes_injective
    (commitmentOf_encodable wallet policy tx word) (commitmentOf_encodable wallet policy tx' word') same
  have unsigned := unsignedTx_of_commitmentOf equal
  have expiries : expiry = expiry' := congrArg Commitment.expiry equal
  have fees : commitment.fee = commitment'.fee := congrArg Commitment.fee equal
  rw [unsigned]
  exact ⟨rfl, rfl, rfl, rfl, expiries, fees⟩

namespace Sample

/-- One coin to one script. -/
def payment (value : Nat) : Psbt :=
  ⟨⟨2, 0, [⟨⟨List.replicate 32 7, 0⟩, 4294967293⟩], [⟨value, [0x00, 0x14]⟩]⟩, [], []⟩

theorem payment_encodable {value : Nat} (word : value < 2 ^ 64) : Encodable (payment value).unsignedTx where
  version := by simp [payment]
  lockTime := by simp [payment]
  inputs := by simp [payment]
  outputs := by simpa [payment] using word

/-- One satoshi more is another commitment. -/
theorem commitment_binds_payment :
    (commitmentOf (List.replicate 32 1) 1 (payment 60000) 5000).canonicalBytes ≠
      (commitmentOf (List.replicate 32 1) 1 (payment 60001) 5000).canonicalBytes := by
  intro same
  obtain ⟨_, _, _, outputs, _⟩ := commitment_binds_transaction.2 (List.replicate 32 1) 1 (by decide) (by decide)
    (payment 60000) (payment 60001) 5000 5000 (payment_encodable (by decide)) (payment_encodable (by decide))
    (by decide) (by decide) same
  exact absurd outputs (by decide)

end Sample

end BtcPolicy.Node
