import BtcPolicy.Bitcoin
import BtcPolicy.Lib.Word

/-! The pure policy checks: the class a transaction's outputs give it, the checks a spend must pass, and the
violation a failed check reports. A descriptor is the scripts it derives. -/

namespace BtcPolicy.Policy
open FiniteMap Word Bitcoin Hex

inductive TxClass where
  | refresh
  | escape
  | hot
  deriving DecidableEq, Repr

/-- The derived `Debug` name. -/
def TxClass.name : TxClass → String
  | .refresh => "Refresh"
  | .escape => "Escape"
  | .hot => "Hot"

/-- `hotOutflow` is zero for the classes without a hot destination. -/
structure Classification where
  txClass : TxClass
  hotOutflow : Nat
  deriving DecidableEq, Repr

inductive ViolationCode where
  | unknownInput
  | destNotAllowed
  | changeNotDerivable
  | feeExceedsCap
  | psbtInconsistent
  | hotBudgetExceeded
  deriving DecidableEq, Repr

structure Violation where
  code : ViolationCode
  check : String
  detail : String
  deriving DecidableEq, Repr

/-! ### Descriptors -/

/-- One chain of a descriptor: the script at each index, where it derives. -/
structure SingleDescriptor where
  hasWildcard : Bool
  derivedScript : Nat → Option Script

/-- What `into_single_descriptors` splits a descriptor into. -/
structure Descriptor where
  intoSingleDescriptors : Option (List SingleDescriptor)

structure CheckParams where
  vault : Descriptor
  allowed : List Descriptor
  escape : Option Descriptor
  maxDerivationIndex : Nat
  hotMaxPerTx : Nat

/-- The one bounded re-derivation every check uses. -/
def derivesWithin (descriptor : Descriptor) (spk : Script) (max : Nat) : Bool :=
  match descriptor.intoSingleDescriptors with
  | none => false
  | some singles =>
    singles.any (fun single =>
      let last := if single.hasWildcard then max else 0
      (List.range (last + 1)).any (fun index => decide (single.derivedScript index = some spk)))

namespace CheckParams

variable (params : CheckParams)

def paysVault (spk : Script) : Bool := derivesWithin params.vault spk params.maxDerivationIndex

def paysEscape (spk : Script) : Bool :=
  params.escape.any (fun escape => derivesWithin escape spk params.maxDerivationIndex)

def paysAllowed (spk : Script) : Bool :=
  params.allowed.any (fun descriptor => derivesWithin descriptor spk params.maxDerivationIndex)

end CheckParams

/-! ### The checks of `evaluate` -/

def maxFeePercent : Nat := 10

def checkPsbtConsistency (psbt : Psbt) : Except Violation Unit :=
  let violation := fun (detail : String) => Except.error (Violation.mk .psbtInconsistent "psbt_consistency" detail)
  let txInputs := psbt.unsignedTx.input.length
  let txOutputs := psbt.unsignedTx.output.length
  if txInputs = 0 then violation "transaction has no inputs"
  else if txOutputs = 0 then violation "transaction has no outputs"
  else if psbt.inputs.length ≠ txInputs then
    let maps := psbt.inputs.length
    violation s!"{maps} input map(s) for {txInputs} transaction input(s)"
  else if psbt.outputs.length ≠ txOutputs then
    let maps := psbt.outputs.length
    violation s!"{maps} output map(s) for {txOutputs} transaction output(s)"
  else
    match psbt.inputs.findIdx? (fun input => input.witnessUtxo.isNone) with
    | some index => violation s!"input {index} has no witness_utxo"
    | none => .ok ()

/-- The first error of a list of items, each checked with its index. -/
def firstError {ε α : Type} (check : Nat → α → Except ε Unit) : Nat → List α → Except ε Unit
  | _, [] => .ok ()
  | index, item :: rest =>
    match check index item with
    | .error e => .error e
    | .ok _ => firstError check (index + 1) rest

/-- Where nothing fails, each item passes at its own index. -/
theorem firstError_getElem {ε α : Type} {check : Nat → α → Except ε Unit} {start : Nat} {items : List α}
    (passed : firstError check start items = .ok ()) {place : Nat} {item : α} (found : items[place]? = some item) :
    check (start + place) item = .ok () := by
  induction items generalizing start place with
  | nil => cases found
  | cons head rest ih =>
    rw [firstError] at passed
    cases first : check start head with
    | error _ => simp [first] at passed
    | ok _ =>
      rw [first] at passed
      cases place with
      | zero =>
        cases found
        exact first
      | succ place =>
        rw [← Nat.add_assoc, Nat.add_right_comm]
        exact ih passed found

/-- The item that fails first: the ones before it pass. -/
theorem firstError_first {ε α : Type} {check : Nat → α → Except ε Unit} {start : Nat} {items : List α} {e : ε}
    (failed : firstError check start items = .error e) :
    ∃ index before item after, items = before ++ item :: after ∧
      (∀ earlier ∈ before, ∃ place, check place earlier = .ok ()) ∧ check index item = .error e := by
  induction items generalizing start with
  | nil => cases failed
  | cons item rest ih =>
    rw [firstError] at failed
    cases first : check start item with
    | error _ =>
      rw [first] at failed
      exact ⟨start, [], item, rest, rfl, by simp, first.trans failed⟩
    | ok _ =>
      rw [first] at failed
      obtain ⟨index, before, other, after, same, passed, refused⟩ := ih failed
      refine ⟨index, item :: before, other, after, by rw [same, List.cons_append], ?_, refused⟩
      intro earlier member
      rcases List.mem_cons.mp member with rfl | later
      · exact ⟨start, first⟩
      · exact passed earlier later

theorem firstError_some {ε α : Type} {check : Nat → α → Except ε Unit} {start : Nat} {items : List α} {e : ε}
    (failed : firstError check start items = .error e) : ∃ index, ∃ item ∈ items, check index item = .error e := by
  obtain ⟨index, before, item, after, rfl, _, refused⟩ := firstError_first failed
  exact ⟨index, item, List.mem_append_right _ List.mem_cons_self, refused⟩

/-- A check whose verdict does not turn on the index passes every item or refuses. -/
theorem firstError_ok_iff {ε α : Type} {check : Nat → α → Except ε Unit} (holds : α → Prop)
    (each : ∀ index item, check index item = .ok () ↔ holds item) (start : Nat) (items : List α) :
    firstError check start items = .ok () ↔ ∀ item ∈ items, holds item := by
  induction items generalizing start with
  | nil => simp [firstError]
  | cons item rest ih =>
    rw [firstError, List.forall_mem_cons, ← ih (start + 1), ← each start item]
    cases check start item with
    | error e => simp
    | ok _ => simp

/-- An input without a prevout does not come here: the consistency check has refused it. -/
def checkInput (params : CheckParams) (index : Nat) (input : PsbtInput) : Except Violation Unit :=
  match input.witnessUtxo with
  | none => .ok ()
  | some utxo =>
    if params.paysVault utxo.scriptPubkey then .ok ()
    else
      let script := toHex utxo.scriptPubkey
      let max := params.maxDerivationIndex
      .error ⟨.unknownInput, "input_ownership",
        s!"input {index} prevout script {script} does not derive from the vault descriptor within index {max}"⟩

def checkInputs (psbt : Psbt) (params : CheckParams) : Except Violation Unit :=
  firstError (checkInput params) 0 psbt.inputs

/-- The untrusted change label decides the reason, never the verdict. -/
def checkDestination (params : CheckParams) (index : Nat) (output : TxOut × PsbtOutput) : Except Violation Unit :=
  let spk := output.1.scriptPubkey
  if params.paysAllowed spk then .ok ()
  else if params.paysVault spk then .ok ()
  else
    let max := params.maxDerivationIndex
    let script := toHex spk
    let labeledChange := !output.2.bip32Derivation.keys.isEmpty
    .error (if labeledChange then
      ⟨.changeNotDerivable, "verified_change",
        s!"output {index} is labeled change but does not derive from the vault descriptor within index {max}"⟩
    else
      ⟨.destNotAllowed, "destination_allowlist", s!"output {index} pays non-allowlisted scriptPubKey {script}"⟩)

def checkDestinations (psbt : Psbt) (params : CheckParams) : Except Violation Unit :=
  firstError (checkDestination params) 0 (psbt.unsignedTx.output.zip psbt.outputs)

/-- The outputs that pay neither the vault nor the escape wallet. -/
def hotOutflow (psbt : Psbt) (params : CheckParams) : Nat :=
  psbt.unsignedTx.output.foldl (fun sat txout =>
    if params.paysVault txout.scriptPubkey then sat
    else if params.paysEscape txout.scriptPubkey then sat
    else satAdd sat txout.value) 0

def checkHotBudget (psbt : Psbt) (params : CheckParams) : Except Violation Unit :=
  let outflow := hotOutflow psbt params
  let budget := params.hotMaxPerTx
  if budget < outflow then
    .error ⟨.hotBudgetExceeded, "hot_budget",
      s!"hot outflow {outflow} sat exceeds the per-transaction Hot budget of {budget} sat"⟩
  else .ok ()

/-- The sums are of 128 bits, which no PSBT fills. -/
def inputSum (psbt : Psbt) : Nat := ((psbt.inputs.filterMap PsbtInput.witnessUtxo).map TxOut.value).sum

def outputSum (tx : Transaction) : Nat := (tx.output.map TxOut.value).sum

def checkFee (psbt : Psbt) : Except Violation Unit :=
  let totalIn := inputSum psbt
  let totalOut := outputSum psbt.unsignedTx
  let fee := totalIn - totalOut
  if totalIn < totalOut then
    .error ⟨.psbtInconsistent, "fee_cap", s!"outputs ({totalOut} sat) exceed inputs ({totalIn} sat)"⟩
  else if maxFeePercent * totalIn < fee * 100 then
    .error ⟨.feeExceedsCap, "fee_cap",
      s!"fee {fee} sat exceeds {maxFeePercent}% of total input value {totalIn} sat"⟩
  else .ok ()

/-- The first violation wins. -/
def evaluate (psbt : Psbt) (params : CheckParams) : Except Violation Unit := do
  checkPsbtConsistency psbt
  checkInputs psbt params
  checkDestinations psbt params
  checkHotBudget psbt params
  checkFee psbt

theorem input_ne_nil_of_evaluate {psbt : Psbt} {params : CheckParams} (passed : evaluate psbt params = .ok ()) :
    psbt.unsignedTx.input ≠ [] := by
  intro empty
  simp [evaluate, checkPsbtConsistency, empty, bind, Except.bind] at passed

/-! ### The class -/

/-- The indices of the outputs outside the vault, by where they pay, and what the hot ones move. -/
structure Destinations where
  escape : List Nat
  hot : List Nat
  unrecognized : List Nat
  hotSat : Nat
  deriving DecidableEq, Repr

def sortOutputs (params : CheckParams) (outputs : List TxOut) : Destinations :=
  outputs.zipIdx.foldl (fun sorted output =>
    let spk := output.1.scriptPubkey
    if params.paysVault spk then sorted
    else if params.paysEscape spk then { sorted with escape := sorted.escape ++ [output.2] }
    else if params.paysAllowed spk then
      { sorted with hot := sorted.hot ++ [output.2], hotSat := satAdd sorted.hotSat output.1.value }
    else { sorted with unrecognized := sorted.unrecognized ++ [output.2] }) ⟨[], [], [], 0⟩

def classify (psbt : Psbt) (params : CheckParams) : Except Violation Classification :=
  let sorted := sortOutputs params psbt.unsignedTx.output
  let violation := fun (detail : String) => Except.error (Violation.mk .psbtInconsistent "transaction_class" detail)
  let escape := sorted.escape
  let hot := sorted.hot
  let unrecognized := sorted.unrecognized
  if !unrecognized.isEmpty then
    violation (s!"output(s) {unrecognized} pay neither the vault, the escape descriptor, nor a hot-allowlist " ++
      "descriptor, so the spend has no single class")
  else
    match hot.isEmpty, escape.isEmpty with
    | true, true => .ok ⟨.refresh, sorted.hotSat⟩
    | true, false => .ok ⟨.escape, sorted.hotSat⟩
    | false, true => .ok ⟨.hot, sorted.hotSat⟩
    | false, false =>
      violation (s!"mixed-class spend: output(s) {hot} pay the hot allowlist and output(s) {escape} pay the escape " ++
        "wallet; a spend has exactly one class")

/-- Which of the three lists are empty: all of `Destinations` that the class turns on. -/
def Destinations.flags (sorted : Destinations) : Bool × Bool × Bool :=
  (sorted.escape.isEmpty, sorted.hot.isEmpty, sorted.unrecognized.isEmpty)

def flagScript (params : CheckParams) (flags : Bool × Bool × Bool) (spk : Script) : Bool × Bool × Bool :=
  if params.paysVault spk then flags
  else if params.paysEscape spk then (false, flags.2.1, flags.2.2)
  else if params.paysAllowed spk then (flags.1, false, flags.2.2)
  else (flags.1, flags.2.1, false)

theorem flags_sortOutputs (params : CheckParams) (outputs : List TxOut) :
    (sortOutputs params outputs).flags =
      (outputs.map TxOut.scriptPubkey).foldl (flagScript params) (true, true, true) := by
  have scripts : outputs.map TxOut.scriptPubkey = outputs.zipIdx.map (fun output => output.1.scriptPubkey) := by
    conv_lhs => rw [← List.zipIdx_map_fst 0 outputs]
    rw [List.map_map]
    rfl
  have initial : (true, true, true) = (⟨[], [], [], 0⟩ : Destinations).flags := rfl
  rw [scripts, List.foldl_map, sortOutputs, initial]
  symm
  apply List.foldl_hom Destinations.flags
  intro sorted output
  unfold flagScript
  simp only
  split_ifs <;> simp [Destinations.flags]

/-- The class that the three flags leave. -/
def classOfFlags : Bool × Bool × Bool → Option TxClass
  | (true, true, true) => some .refresh
  | (false, true, true) => some .escape
  | (true, false, true) => some .hot
  | _ => none

theorem classify_flags {params : CheckParams} {psbt : Psbt} {classified : Classification}
    (ok : classify psbt params = .ok classified) :
    classOfFlags (sortOutputs params psbt.unsignedTx.output).flags = some classified.txClass := by
  unfold classify at ok
  unfold Destinations.flags
  generalize sortOutputs params psbt.unsignedTx.output = sorted at ok ⊢
  simp only at ok
  cases unrecognized : sorted.unrecognized.isEmpty with
  | false => simp [unrecognized] at ok
  | true =>
    simp only [unrecognized, Bool.not_true, Bool.false_eq_true, if_false] at ok
    cases hot : sorted.hot.isEmpty <;> cases escape : sorted.escape.isEmpty <;> rw [hot, escape] at ok <;> cases ok <;>
      rfl

/-- The class turns on the scripts the outputs pay, and on nothing else. -/
theorem classify_txClass_eq {params : CheckParams} {a b : Psbt} {ofA ofB : Classification}
    (scripts : a.unsignedTx.output.map TxOut.scriptPubkey = b.unsignedTx.output.map TxOut.scriptPubkey)
    (classA : classify a params = .ok ofA) (classB : classify b params = .ok ofB) : ofA.txClass = ofB.txClass := by
  have same := classify_flags classA
  rw [flags_sortOutputs, scripts, ← flags_sortOutputs, classify_flags classB] at same
  exact (Option.some.inj same).symm

end BtcPolicy.Policy
