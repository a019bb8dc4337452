import BtcPolicy.Node.Wire
import BtcPolicy.Policy

/-! The fee-bump ladder of an escape: its shape at ingress, and the fire-time gate on each of its rungs. -/

namespace BtcPolicy.Node
open FiniteMap Word Bitcoin Hex Policy

def escapeRbfSequence : Nat := 0xfffffffd

/-- `Sequence::MAX`. -/
def sequenceMax : Nat := 0xffffffff

def maxSupportedIncrementalRelaySatKvb : Nat := 1000

def escapeRbfIncrementalRelaySatVb : Nat := maxSupportedIncrementalRelaySatKvb / 1000

/-- `{:#010x}`. -/
def hexWord (value : Nat) : String := "0x" ++ toHex (leBytes 4 value).reverse

/-- What the size bound reads beside the transaction: `Transaction::weight`, and the vault's satisfaction weight. -/
structure Sizing where
  weight : Transaction → Nat
  maxVaultSatisfactionWeight : Nat

def maximumFinalizedVsizeFor (sizing : Sizing) (tx : Transaction) : Except String Nat :=
  let inputCount := tx.input.length
  if maxWord < inputCount then .error "escape input count does not fit u64"
  else
    match checkedAdd sizing.maxVaultSatisfactionWeight 1 with
    | none => .error "escape maximum witness weight overflow"
    | some perInput =>
      match checkedMul perInput inputCount with
      | none => .error "escape maximum satisfaction weight overflow"
      | some maximumWitnessWeight =>
        match (checkedAdd (sizing.weight tx) 2).bind (fun weight => checkedAdd weight maximumWitnessWeight) with
        | none => .error "escape maximum finalized weight overflow"
        | some maximumWeight =>
          match checkedAdd maximumWeight 3 with
          | none => .error "escape maximum finalized vsize overflow"
          | some rounded => .ok (rounded / 4)

def escapeReplacementMinFeeDelta (sizing : Sizing) (tx : Transaction) : Except String Nat :=
  (maximumFinalizedVsizeFor sizing tx).map (fun vsize => satMul vsize escapeRbfIncrementalRelaySatVb)

def expectedEscapeSequence (laddered : Bool) : Nat := if laddered then escapeRbfSequence else sequenceMax

/-- The declared inputs less the outputs, both saturating; `none` without a `witness_utxo`. -/
def psbtFee (psbt : Psbt) : Option Nat :=
  let totalIn := psbt.inputs.foldlM (fun total input => input.witnessUtxo.map (fun utxo => satAdd total utxo.value)) 0
  let totalOut := psbt.unsignedTx.output.foldl (fun total output => satAdd total output.value) 0
  totalIn.map (fun totalIn => totalIn - totalOut)

def outpointsOf (tx : Transaction) : List OutPoint := tx.input.map TxIn.previousOutput

def scriptsOf (tx : Transaction) : List Script := tx.output.map TxOut.scriptPubkey

def valuesOf (tx : Transaction) : List Nat := tx.output.map TxOut.value

/-- Some output is above the one it replaces. -/
def raisesValue (values previous : List Nat) : Bool := (values.zip previous).any (fun pair => decide (pair.2 < pair.1))

def ladderRefusal (detail : String) : Refusal := ⟨.psbtInconsistent, "escape:bump_ladder", detail⟩

/-- Every rung, the base among them: the base's version, no lock time, and inputs that signal replacement. -/
def checkRungShape (base : Transaction) (rung : Nat) (psbt : Psbt) : Except Refusal Unit :=
  let tx := psbt.unsignedTx
  if tx.version ≠ base.version then
    let version := tx.version
    let baseVersion := base.version
    .error (ladderRefusal (s!"escape ladder rung {rung} has transaction version {version}, but every rung must keep " ++
      s!"the base escape's version {baseVersion}: a fee bump may change only output values"))
  else if tx.lockTime ≠ 0 then
    let lockTime := tx.lockTime
    .error (ladderRefusal (s!"escape ladder rung {rung} has nLockTime {lockTime}, but a replaceable escape must be " ++
      "final at T (nLockTime 0): with RBF-signalling nSequence, nSequence no longer makes it final"))
  else
    firstError (fun index input =>
      if input.sequence ≠ expectedEscapeSequence true then
        let found := hexWord input.sequence
        let expected := hexWord escapeRbfSequence
        .error (ladderRefusal (s!"escape ladder rung {rung} input {index} nSequence {found} is not {expected}: every " ++
          "rung of a ladder must signal BIP125 replacement, or a bump cannot replace the rung below it"))
      else .ok ()) 0 tx.input

/-- One bump over the rung below it: what it spends and where it pays stay, no output rises, and the fee rises by
what its own relay costs. It hands on its fee. -/
def checkBump (sizing : Sizing) (base : Transaction) (rung previousFee : Nat) (previousValues : List Nat)
    (bump : Psbt) : Except Refusal Nat :=
  let tx := bump.unsignedTx
  if outpointsOf tx ≠ outpointsOf base then
    .error (ladderRefusal (s!"escape ladder rung {rung} spends a different input set than the escape, so it could " ++
      "never replace it"))
  else if scriptsOf tx ≠ scriptsOf base then
    .error (ladderRefusal (s!"escape ladder rung {rung} pays a different set of output scripts than the escape: a fee " ++
      "bump may change the fee, never what is swept"))
  else if raisesValue (valuesOf tx) previousValues then
    .error (ladderRefusal (s!"escape ladder rung {rung} raises an output value above the rung below it: a bump may " ++
      "only lower an output to pay a higher fee, never move value between outputs — otherwise an intermediate rung's " ++
      "escape coverage could dip below the lower rungs' and the prefix release would hand a t-1 set a share for an " ++
      "under-coverage escape"))
  else
    match psbtFee bump with
    | none => .error (ladderRefusal s!"escape ladder rung {rung} has an input without a witness_utxo")
    | some fee =>
      match maximumFinalizedVsizeFor sizing tx with
      | .error detail =>
        .error (ladderRefusal s!"cannot bound escape ladder rung {rung}'s finalized size: {detail}")
      | .ok vsize =>
        let minimumDelta := satMul vsize escapeRbfIncrementalRelaySatVb
        let delta := fee - previousFee
        if fee < previousFee then
          .error (ladderRefusal (s!"escape ladder rung {rung} pays {fee} sat, not more than the {previousFee} sat of " ++
            "the rung below it: a replacement must pay a strictly higher fee (BIP125 rule 3) and the ladder must ascend"))
        else if delta < minimumDelta then
          .error (ladderRefusal (s!"escape ladder rung {rung} raises the fee by only {delta} sat, below the " ++
            s!"{minimumDelta} sat needed to relay its at-most-{vsize}-vB replacement at " ++
            s!"{escapeRbfIncrementalRelaySatVb} sat/vB"))
        else .ok fee

def checkBumps (sizing : Sizing) (base : Transaction) : Nat → Nat → List Nat → List Psbt → Except Refusal Unit
  | _, _, _, [] => .ok ()
  | rung, previousFee, previousValues, bump :: rest =>
    match checkBump sizing base rung previousFee previousValues bump with
    | .error refused => .error refused
    | .ok fee => checkBumps sizing base (rung + 1) fee (valuesOf bump.unsignedTx) rest

/-- `ensure_escape_ladder`: a request without bumps is not looked at. -/
def ensureEscapeLadder (sizing : Sizing) (escape : Psbt) (bumps : List Psbt) (selfPaired : Bool) :
    Except Refusal Unit :=
  let base := escape.unsignedTx
  if bumps.isEmpty then .ok ()
  else if selfPaired then
    .error (ladderRefusal ("a self-paired request has no delayed sweep to fee-bump; its spend and escape are the same " ++
      "transaction, which `escape_class_residual` refuses outright"))
  else
    match firstError (checkRungShape base) 0 (escape :: bumps) with
    | .error refused => .error refused
    | .ok _ =>
      match psbtFee escape with
      | none => .error (ladderRefusal "the escape has an input without a witness_utxo, so its fee is unknown")
      | some fee => checkBumps sizing base 1 fee (valuesOf base) bumps

/-! ### What the shape check asks -/

/-- A rung that keeps the base's version, is final by its lock time and signals replacement. -/
structure Shaped (base tx : Transaction) : Prop where
  version : tx.version = base.version
  lockTime : tx.lockTime = 0
  signals : ∀ input ∈ tx.input, input.sequence = escapeRbfSequence

theorem checkRungShape_ok_iff (base : Transaction) (rung : Nat) (psbt : Psbt) :
    checkRungShape base rung psbt = .ok () ↔ Shaped base psbt.unsignedTx := by
  unfold checkRungShape
  simp only
  by_cases version : psbt.unsignedTx.version = base.version
  · by_cases lockTime : psbt.unsignedTx.lockTime = 0
    · rw [if_neg (not_not_intro version), if_neg (not_not_intro lockTime),
        firstError_ok_iff (fun input => input.sequence = escapeRbfSequence)]
      · exact ⟨fun signals => ⟨version, lockTime, signals⟩, Shaped.signals⟩
      · intro index input
        by_cases signals : input.sequence = escapeRbfSequence
        · simp [expectedEscapeSequence, signals]
        · simp [expectedEscapeSequence, signals]
    · rw [if_neg (not_not_intro version), if_pos lockTime]
      exact ⟨nofun, fun shaped => absurd shaped.lockTime lockTime⟩
  · rw [if_pos version]
    exact ⟨nofun, fun shaped => absurd shaped.version version⟩

/-- The bound counts the marker and rounds up, so it is positive, and a word. -/
theorem maximumFinalizedVsizeFor_range {sizing : Sizing} {tx : Transaction} {vsize : Nat}
    (bounded : maximumFinalizedVsizeFor sizing tx = .ok vsize) : 0 < vsize ∧ vsize ≤ maxWord := by
  unfold maximumFinalizedVsizeFor at bounded
  simp only at bounded
  split at bounded
  · cases bounded
  · split at bounded
    · cases bounded
    · split at bounded
      · cases bounded
      · split at bounded
        · cases bounded
        · rename_i witness _ maximum weighed
          split at bounded
          · cases bounded
          · rename_i rounded carried
            cases bounded
            obtain ⟨marked, first, second⟩ := Option.bind_eq_some_iff.mp weighed
            have marking := checkedAdd_some first
            have adding := checkedAdd_some second
            have rounding := checkedAdd_some carried
            constructor
            · omega
            · omega

theorem escapeReplacementMinFeeDelta_ok {sizing : Sizing} {tx : Transaction} {delta : Nat}
    (measured : escapeReplacementMinFeeDelta sizing tx = .ok delta) :
    ∃ vsize, maximumFinalizedVsizeFor sizing tx = .ok vsize ∧ delta = satMul vsize escapeRbfIncrementalRelaySatVb := by
  unfold escapeReplacementMinFeeDelta at measured
  cases bounded : maximumFinalizedVsizeFor sizing tx with
  | error e =>
    rw [bounded] at measured
    cases measured
  | ok vsize =>
    rw [bounded] at measured
    cases measured
    exact ⟨vsize, rfl, rfl⟩

/-- What one bump is asked over the rung below it, with the fee it hands on. -/
structure Climbed (sizing : Sizing) (base : Transaction) (previousFee : Nat) (previousValues : List Nat) (bump : Psbt)
    (fee : Nat) : Prop where
  outpoints : outpointsOf bump.unsignedTx = outpointsOf base
  scripts : scriptsOf bump.unsignedTx = scriptsOf base
  lowers : raisesValue (valuesOf bump.unsignedTx) previousValues = false
  known : psbtFee bump = some fee
  relayed : ∃ vsize, maximumFinalizedVsizeFor sizing bump.unsignedTx = .ok vsize ∧
    previousFee + satMul vsize escapeRbfIncrementalRelaySatVb ≤ fee

theorem checkBump_ok {sizing : Sizing} {base : Transaction} {rung previousFee : Nat} {previousValues : List Nat}
    {bump : Psbt} {fee : Nat} (passed : checkBump sizing base rung previousFee previousValues bump = .ok fee) :
    Climbed sizing base previousFee previousValues bump fee := by
  unfold checkBump at passed
  simp only at passed
  split_ifs at passed with outpoints scripts raises
  cases known : psbtFee bump with
  | none => simp [known] at passed
  | some declared =>
    cases bounded : maximumFinalizedVsizeFor sizing bump.unsignedTx with
    | error detail => simp [known, bounded] at passed
    | ok vsize =>
      simp only [known, bounded] at passed
      split_ifs at passed with falls short
      cases passed
      refine ⟨not_not.mp outpoints, not_not.mp scripts, by simpa using raises, known, vsize, bounded, ?_⟩
      omega

theorem checkBump_of_climbed {sizing : Sizing} {base : Transaction} {previousFee : Nat} {previousValues : List Nat}
    {bump : Psbt} {fee : Nat} (rung : Nat) (climbed : Climbed sizing base previousFee previousValues bump fee) :
    checkBump sizing base rung previousFee previousValues bump = .ok fee := by
  obtain ⟨vsize, bounded, rises⟩ := climbed.relayed
  unfold checkBump
  simp only [climbed.outpoints, climbed.scripts, climbed.lowers, climbed.known, bounded, ne_eq, not_true_eq_false,
    if_false, Bool.false_eq_true]
  rw [if_neg (by omega), if_neg (by omega)]

/-- With bumps the node asks the shape of every rung, and then the climb from the base's own fee. -/
theorem ensureEscapeLadder_ok_iff (sizing : Sizing) {escape : Psbt} {bumps : List Psbt} {fee : Nat}
    (some_bumps : bumps ≠ []) (known : psbtFee escape = some fee) :
    ensureEscapeLadder sizing escape bumps false = .ok () ↔
      (∀ psbt ∈ escape :: bumps, Shaped escape.unsignedTx psbt.unsignedTx) ∧
        checkBumps sizing escape.unsignedTx 1 fee (valuesOf escape.unsignedTx) bumps = .ok () := by
  have climbs : bumps.isEmpty = false := by simpa using some_bumps
  unfold ensureEscapeLadder
  simp only [climbs, known, Bool.false_eq_true, if_false]
  rw [← firstError_ok_iff _ (checkRungShape_ok_iff escape.unsignedTx) 0]
  cases firstError (checkRungShape escape.unsignedTx) 0 (escape :: bumps) with
  | error refused => simp
  | ok _ => simp

/-- Every bump has climbed over some rung. -/
theorem climbed_of_checkBumps {sizing : Sizing} {base : Transaction} {rung fee : Nat} {values : List Nat}
    {bumps : List Psbt} (climbs : checkBumps sizing base rung fee values bumps = .ok ()) :
    ∀ bump ∈ bumps, ∃ below previous above, Climbed sizing base below previous bump above := by
  induction bumps generalizing rung fee values with
  | nil => simp
  | cons bump rest ih =>
    rw [checkBumps] at climbs
    cases first : checkBump sizing base rung fee values bump with
    | error refused =>
      rw [first] at climbs
      cases climbs
    | ok next =>
      rw [first] at climbs
      intro other member
      obtain rfl | later := List.mem_cons.mp member
      · exact ⟨fee, values, next, checkBump_ok first⟩
      · exact ih climbs other later

/-! ### At fire time -/

/-- What the rungs of one sweep are scored against. -/
structure SweepEnv where
  totalIn : Nat
  protectedValue : Nat
  pairedDelivered : Nat
  laddered : Bool

/-- What the gate reads of the node's configuration. -/
structure SweepPolicy where
  checkParams : CheckParams
  escapeFeerateFloor : Nat
  escapeCoveragePct : Nat

/-- The first check of the gate: the exact sequence for the ladder's shape on every input. -/
def checkSweepSequence (laddered : Bool) (tx : Transaction) : Except String Unit :=
  firstError (fun i input =>
    if input.sequence ≠ expectedEscapeSequence laddered then
      let found := hexWord input.sequence
      let expected := hexWord (expectedEscapeSequence laddered)
      .error (s!"escape input {i} nSequence {found} is not {expected} — a non-final / relative-locking escape, or one " ++
        "whose replaceability does not match its fee-bump ladder, is not broadcastable-at-T")
    else .ok ()) 0 tx.input

theorem checkSweepSequence_ok_iff (laddered : Bool) (tx : Transaction) :
    checkSweepSequence laddered tx = .ok () ↔ ∀ input ∈ tx.input, input.sequence = expectedEscapeSequence laddered := by
  unfold checkSweepSequence
  apply firstError_ok_iff
  intro index input
  by_cases same : input.sequence = expectedEscapeSequence laddered
  · simp [same]
  · simp [same]

/-- The products are of 128 bits, which two words fill. -/
def sweepRungAdmissible (policy : SweepPolicy) (env : SweepEnv) (tx : Transaction) (feerateVsize : Nat) :
    Except String Unit := do
  checkSweepSequence env.laddered tx
  let totalOut := tx.output.foldl (fun acc o => satAdd acc o.value) 0
  let fee := env.totalIn - totalOut
  if feerateVsize = 0 then throw "escape has zero vsize"
  let floor := policy.escapeFeerateFloor
  let floorSats := floor * feerateVsize
  if fee < floorSats then
    throw (s!"escape feerate below the panic floor: {fee} sat over {feerateVsize} vB is under {floor} sat/vB " ++
      s!"({floorSats} sat)")
  match policy.checkParams.escape with
  | none => throw "no escape descriptor configured"
  | some escape =>
    let delivered := tx.output.foldl (fun acc o =>
      if derivesWithin escape o.scriptPubkey policy.checkParams.maxDerivationIndex then satAdd acc o.value
      else acc) env.pairedDelivered
    if delivered * 100 < env.protectedValue * policy.escapeCoveragePct then
      let pct := policy.escapeCoveragePct
      let guarded := env.protectedValue
      throw (s!"escape coverage below {pct}%: {delivered} sat to the escape wallet over {guarded} sat of protected " ++
        "confirmed + authorized-unconfirmed vault value")

end BtcPolicy.Node
