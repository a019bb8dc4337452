import BtcPolicy.Signer
import BtcPolicy.Manifest
import BtcPolicy.Lib.Programs
import BtcPolicy.Lib.Slots

/-! The signer at work: it shows the validated group, computes every digest and only then signs. A program that logs
the message of each signature it makes, so that what is signed can be compared with what was shown. -/

namespace BtcPolicy.Signer
open FiniteMap Word Bitcoin Hex Policy Results Programs Slots

/-! ### The signer -/

/-- The sealed state with the user's key of its template and its network. -/
structure SealedVault extends LiveVault where
  userKey : PublicKey
  network : Manifest.Network

/-- The further library functions; `signs` is what a signature under a key pair is good for. -/
structure SigningFunctions extends TxFunctions where
  addressFromScript : Script → Manifest.Network → Option String
  p2wshSignatureHash : Transaction → Nat → Script → Nat → Except String Bytes
  secretFromSlice : Bytes → Except String Bytes
  publicKey : Bytes → PublicKey
  signEcdsa : Bytes → Bytes → Bytes
  verifyEcdsa : Bytes → Bytes → PublicKey → Bool
  signs : ∀ message secret scalar, secretFromSlice secret = .ok scalar →
    verifyEcdsa message (signEcdsa message scalar) (publicKey scalar) = true

/-- One sealed vault and the user's scalar, which `load_file` has found to derive the sealed user key. -/
structure SoftwareSigner (functions : SigningFunctions) where
  vault : SealedVault
  secret : Bytes
  derives : ∃ scalar, functions.secretFromSlice secret = .ok scalar ∧ functions.publicKey scalar = vault.userKey

/-- The display and the signed group, in the order of the request. -/
structure Signed where
  display : String
  members : List Psbt

/-! ### The display -/

section Display

variable (functions : SigningFunctions) (vault : SealedVault)

/-- A script that no address encodes is shown as its hex. -/
def outputLine (output : TxOut × Nat) : String :=
  let n := output.2
  let sat := output.1.value
  let spk := output.1.scriptPubkey
  let payee := (functions.addressFromScript spk vault.network).getD ("script " ++ toHex spk)
  let marker := if spk = vault.scriptPubkey then " (vault change)" else ""
  s!"  output {n}: {sat} sat to {payee}{marker}"

def memberLine (label : String) (fee out held : Nat) : String :=
  s!"{label}: {fee} sat fee, {out} sat leaving the vault, {held} input(s)"

def memberLines (labelled : String × Member) : List String :=
  let m := labelled.2
  memberLine labelled.1 m.fee m.outflow m.outpoints.length ::
    m.psbt.unsignedTx.output.zipIdx.map (outputLine functions vault)

def headline (hint : Bytes) : String :=
  let named := toHex hint
  s!"vault {named} authorization (caller hint; the sealed state is authority)"

def Group.display (group : Group) : String :=
  "\n".intercalate (headline group.hint :: group.members.flatMap (memberLines functions vault))

def describe (request : UserAuthorization) : Except String String := do
  let group ← prepare functions.toTxFunctions vault.toLiveVault request
  pure (group.display functions vault)

end Display

/-! ### Signing -/

section Authorize

variable (functions : SigningFunctions)

/-- The messages of one member, each with the index of its input. -/
def inputMessages (witnessScript sealedSpk : Script) (tx : Transaction) :
    Nat → List PsbtInput → Except String (List (Nat × Bytes))
  | _, [] => .ok []
  | index, input :: rest =>
    match input.witnessUtxo with
    | none => .error "a normalized input lost its canonical prevout"
    | some utxo =>
      if utxo.scriptPubkey ≠ sealedSpk then .error s!"input {index} is not a sealed-descriptor coin"
      else do
        let hash ← functions.p2wshSignatureHash tx index witnessScript utxo.value
        let messages ← inputMessages witnessScript sealedSpk tx (index + 1) rest
        pure ((index, hash) :: messages)

/-- `sign_ecdsa`, logged. -/
def signMessage (scalar message : Bytes) : Prog (List Bytes) String EcdsaSignature := fun log =>
  (.ok ⟨functions.signEcdsa message scalar, sighashAll⟩, log ++ [message])

def insertSignature (userKey : PublicKey) (signature : EcdsaSignature) (input : PsbtInput) : PsbtInput :=
  { input with partialSigs := input.partialSigs.insert userKey signature }

def signInputs (userKey : PublicKey) (scalar : Bytes) :
    List PsbtInput → List (Nat × Bytes) → Prog (List Bytes) String (List PsbtInput)
  | inputs, [] => pure inputs
  | inputs, (index, message) :: rest => do
    let signature ← signMessage functions scalar message
    signInputs userKey scalar (inputs.modify index (insertSignature userKey signature)) rest

def signMembers (userKey : PublicKey) (scalar : Bytes) :
    List (Psbt × List (Nat × Bytes)) → Prog (List Bytes) String (List Psbt)
  | [] => pure []
  | (psbt, messages) :: rest => do
    let inputs ← signInputs functions userKey scalar psbt.inputs messages
    let others ← signMembers userKey scalar rest
    pure ({ psbt with inputs := inputs } :: others)

variable {functions}

/-- Every digest first, then every signature. -/
def SoftwareSigner.signGroup (signer : SoftwareSigner functions) (members : List Psbt) :
    Prog (List Bytes) String (List Psbt) := do
  let witnessScript ← Prog.lift signer.vault.explicitScript
  let messages ← Prog.lift (members.mapM (fun psbt =>
    inputMessages functions witnessScript signer.vault.scriptPubkey psbt.unsignedTx 0 psbt.inputs))
  let scalar ← Prog.lift (functions.secretFromSlice signer.secret)
  signMembers functions signer.vault.userKey scalar (members.zip messages)

def SoftwareSigner.authorize (signer : SoftwareSigner functions) (request : UserAuthorization) :
    Prog (List Bytes) String Signed := do
  let group ← Prog.lift (prepare functions.toTxFunctions signer.vault.toLiveVault request)
  let display := group.display functions signer.vault
  let members ← signer.signGroup (group.members.map (fun m => m.2.psbt))
  pure ⟨display, members⟩

end Authorize

/-! ### What signing does -/

section Signing

variable {functions : SigningFunctions}

/-- An input that is signed: a coin of the sealed script, and its digest for the coin's own amount. -/
structure Digested (functions : SigningFunctions) (witnessScript sealedSpk : Script) (tx : Transaction) (index : Nat)
    (input : PsbtInput) (digest : Bytes) : Prop where
  coin : ∃ utxo, input.witnessUtxo = some utxo ∧ utxo.scriptPubkey = sealedSpk ∧
    functions.p2wshSignatureHash tx index witnessScript utxo.value = .ok digest

/-- The messages are those of the inputs, each at its index. -/
theorem inputMessages_ok {witnessScript sealedSpk : Script} {tx : Transaction} {start : Nat} {inputs : List PsbtInput}
    {messages : List (Nat × Bytes)}
    (digested : inputMessages functions witnessScript sealedSpk tx start inputs = .ok messages) :
    messages.map Prod.fst = List.range' start inputs.length ∧
      ∀ (i : Nat) (input : PsbtInput), inputs[i]? = some input → ∃ digest, messages[i]? = some (start + i, digest) ∧
        Digested functions witnessScript sealedSpk tx (start + i) input digest := by
  induction inputs generalizing start messages with
  | nil =>
    cases digested
    exact ⟨rfl, by simp⟩
  | cons first rest ih =>
    rw [inputMessages] at digested
    cases held : first.witnessUtxo with
    | none => simp [held] at digested
    | some utxo =>
      rw [held] at digested
      simp only at digested
      by_cases foreign : utxo.scriptPubkey ≠ sealedSpk
      · rw [if_pos foreign] at digested
        cases digested
      · rw [if_neg foreign] at digested
        obtain ⟨hash, hashed, digested⟩ := ok_of_bind digested
        obtain ⟨later, others, digested⟩ := ok_of_bind digested
        cases digested
        obtain ⟨indices, each⟩ := ih others
        refine ⟨by rw [List.map_cons, indices, List.length_cons, List.range'_succ], ?_⟩
        intro i input found
        cases i with
        | zero =>
          cases found
          exact ⟨hash, rfl, ⟨utxo, held, not_not.mp foreign, hashed⟩⟩
        | succ i =>
          rw [List.getElem?_cons_succ] at found
          obtain ⟨digest, listed, own⟩ := each i input found
          rw [Nat.add_right_comm, Nat.add_assoc] at listed own
          exact ⟨digest, listed, own⟩

/-- An input with the signature over its message under the user's key. -/
def signInput (functions : SigningFunctions) (userKey : PublicKey) (scalar message : Bytes) : PsbtInput → PsbtInput :=
  insertSignature userKey ⟨functions.signEcdsa message scalar, sighashAll⟩

/-- A member with its inputs signed. -/
def signedMember (functions : SigningFunctions) (userKey : PublicKey) (scalar : Bytes)
    (member : Psbt × List (Nat × Bytes)) : Psbt :=
  { member.1 with inputs := amend (signInput functions userKey scalar) member.1.inputs member.2 }

theorem signMessage_run (scalar message : Bytes) (log : List Bytes) :
    signMessage functions scalar message log = (.ok ⟨functions.signEcdsa message scalar, sighashAll⟩, log ++ [message]) := rfl

/-- Signing one member: each message is signed once, into the input it belongs to. -/
theorem signInputs_run (userKey : PublicKey) (scalar : Bytes) (inputs : List PsbtInput) (messages : List (Nat × Bytes))
    (log : List Bytes) :
    signInputs functions userKey scalar inputs messages log =
      (.ok (amend (signInput functions userKey scalar) inputs messages), log ++ messages.map Prod.snd) := by
  induction messages generalizing inputs log with
  | nil =>
    rw [List.map_nil, List.append_nil]
    rfl
  | cons message rest ih =>
    obtain ⟨index, digest⟩ := message
    rw [signInputs, run_bind (signMessage_run scalar digest log), ih, List.map_cons, List.append_assoc]
    rfl

theorem signMembers_run (userKey : PublicKey) (scalar : Bytes) (members : List (Psbt × List (Nat × Bytes)))
    (log : List Bytes) :
    signMembers functions userKey scalar members log =
      (.ok (members.map (signedMember functions userKey scalar)),
        log ++ members.flatMap (fun member => member.2.map Prod.snd)) := by
  induction members generalizing log with
  | nil =>
    rw [List.flatMap_nil, List.append_nil]
    rfl
  | cons member rest ih =>
    obtain ⟨psbt, messages⟩ := member
    rw [signMembers, run_bind (signInputs_run userKey scalar psbt.inputs messages log), run_bind (ih _),
      List.flatMap_cons, ← List.append_assoc]
    rfl

variable {signer : SoftwareSigner functions}

/-- What a group that is signed has passed, and what signing it leaves. -/
theorem signGroup_answered {members result : List Psbt} {log log' : List Bytes}
    (answered : signer.signGroup members log = (.ok result, log')) :
    ∃ witnessScript messages scalar, signer.vault.explicitScript = .ok witnessScript ∧
      functions.secretFromSlice signer.secret = .ok scalar ∧
      List.Forall₂ (fun psbt own => inputMessages functions witnessScript signer.vault.scriptPubkey psbt.unsignedTx 0
        psbt.inputs = .ok own) members messages ∧
      result = (members.zip messages).map (signedMember functions signer.vault.userKey scalar) ∧
      log' = log ++ (members.zip messages).flatMap (fun member => member.2.map Prod.snd) := by
  unfold SoftwareSigner.signGroup at answered
  obtain ⟨witnessScript, log₁, scripted, rest⟩ := answered_bind answered
  obtain ⟨messages, log₂, digested, rest⟩ := answered_bind rest
  obtain ⟨scalar, log₃, loaded, rest⟩ := answered_bind rest
  obtain ⟨script, same₁⟩ := answered_lift scripted
  obtain ⟨digests, same₂⟩ := answered_lift digested
  obtain ⟨secret, same₃⟩ := answered_lift loaded
  rw [signMembers_run, same₃, same₂, same₁] at rest
  obtain ⟨members', logged⟩ := Prod.mk.inj rest
  exact ⟨witnessScript, messages, scalar, script, secret, forall₂_of_mapM digests, (Except.ok.inj members').symm,
    logged.symm⟩

/-- A group that is refused is refused before the first signature. -/
theorem triple_signGroup (signer : SoftwareSigner functions) (members : List Psbt) (log : List Bytes) :
    Triple (fun log' => log' = log) (signer.signGroup members) (fun _ _ => True) (fun log' => log' = log) := by
  unfold SoftwareSigner.signGroup
  refine triple_bind _ (triple_lift _) fun witnessScript => ?_
  refine triple_bind _ (triple_lift _) fun messages => ?_
  refine triple_bind _ (triple_lift _) fun scalar => ?_
  intro log' _
  rw [signMembers_run]
  trivial

theorem authorize_failed {request : UserAuthorization} {e : String} {log log' : List Bytes}
    (failed : signer.authorize request log = (.error e, log')) : log' = log := by
  have triple : Triple (fun log' => log' = log) (signer.authorize request) (fun _ _ => True) (fun log' => log' = log) := by
    unfold SoftwareSigner.authorize
    refine triple_bind _ (triple_lift _) fun group => ?_
    exact triple_bind _ (triple_signGroup signer _ log) fun members => triple_pure _ fun _ _ => trivial
  exact triple.run rfl failed

theorem authorize_answered {request : UserAuthorization} {signed : Signed} {log log' : List Bytes}
    (answered : signer.authorize request log = (.ok signed, log')) :
    ∃ group, prepare functions.toTxFunctions signer.vault.toLiveVault request = .ok group ∧
      signed.display = group.display functions signer.vault ∧
      signer.signGroup (group.members.map (fun m => m.2.psbt)) log = (.ok signed.members, log') := by
  unfold SoftwareSigner.authorize at answered
  obtain ⟨group, log₁, prepared, rest⟩ := answered_bind answered
  obtain ⟨passed, same⟩ := answered_lift prepared
  obtain ⟨members, log₂, signs, rest⟩ := answered_bind rest
  rw [same] at signs
  cases rest
  exact ⟨group, passed, rfl, signs⟩

end Signing

/-! ### What a member has proved, input by input -/

/-- The caller's input proves its coin by the full previous transaction, and its map is completed with that coin. -/
structure Canonical (functions : TxFunctions) (witnessScript : Script) (input : RawInput × RawMap)
    (normalized : PsbtInput) (prevout : TxOut) : Prop where
  scriptSig : input.1.scriptSig = []
  witness : input.1.witness = []
  proved : ∃ prevtx, input.2.nonWitnessUtxo = some prevtx ∧
    functions.computeTxid prevtx = input.1.txIn.previousOutput.txid ∧
    prevtx.output[input.1.txIn.previousOutput.vout]? = some prevout
  map : normalized = { input.2.map with witnessUtxo := some prevout, witnessScript := some witnessScript }

theorem canonicalInput_canonical {functions : TxFunctions} {witnessScript : Script} {index : Nat} {seen : List OutPoint}
    {input : RawInput} {map : RawMap} {prevout : TxOut} {normalized : PsbtInput}
    (passed : canonicalInput functions witnessScript index seen input map = .ok (prevout, normalized)) :
    Canonical functions witnessScript (input, map) normalized prevout := by
  unfold canonicalInput at passed
  simp only at passed
  split at passed
  · cases passed
  next script =>
  split at passed
  · cases passed
  next witness =>
  split at passed
  · cases passed
  split at passed
  · cases passed
  split at passed
  · cases passed
  next prevtx held =>
  split at passed
  · cases passed
  next hashes =>
  split at passed
  · cases passed
  next found =>
  split at passed
  · cases passed
  split at passed
  · cases passed
  cases passed
  exact ⟨by simpa using script, by simpa using witness, ⟨prevtx, held, not_not.mp hashes, found⟩, rfl⟩

theorem canonicalInputs_canonical {functions : TxFunctions} {witnessScript : Script} {index : Nat} {seen : List OutPoint}
    {start : Nat} {inputs : List (RawInput × RawMap)} {prevouts : Prevouts}
    (passed : canonicalInputs functions witnessScript index seen start inputs = .ok prevouts) :
    List.Forall₂ (fun input normalized => ∃ prevout, Canonical functions witnessScript input normalized prevout) inputs
      prevouts.inputs := by
  induction inputs generalizing index seen start prevouts with
  | nil =>
    cases passed
    exact .nil
  | cons head rest ih =>
    obtain ⟨input, map⟩ := head
    unfold canonicalInputs at passed
    split at passed
    · cases passed
    · next prevout normalized first =>
      split at passed
      · cases passed
      · simp only at passed
        split at passed
        · cases passed
        · next later others =>
          cases passed
          exact .cons ⟨prevout, canonicalInput_canonical first⟩ (ih others)

theorem member_canonical {functions : TxFunctions} {vault : LiveVault} {witnessScript : Script} {psbt : RawPsbt}
    {m : Member} (passed : member functions vault witnessScript psbt = .ok m) :
    psbt.inputs.length = psbt.unsignedTx.input.length ∧
      List.Forall₂ (fun input normalized => ∃ prevout, Canonical functions witnessScript input normalized prevout)
        (psbt.unsignedTx.input.zip psbt.inputs) m.psbt.inputs := by
  unfold member at passed
  simp only at passed
  split_ifs at passed with shape
  rw [not_or, not_not, not_not] at shape
  split at passed
  · cases passed
  · next prevouts inputs =>
    split at passed
    · cases passed
    · split_ifs at passed
      split at passed
      · cases passed
      · split at passed
        · cases passed
        · cases passed
          exact ⟨shape.1, canonicalInputs_canonical inputs⟩

/-! ### The requests -/

/-- The caller's PSBTs in the order spend, escape, bumps. -/
def UserAuthorization.psbts : UserAuthorization → List RawPsbt
  | .spend _ authorization => authorization.spend :: authorization.escape :: authorization.escapeBumps
  | .refresh _ psbt => [psbt]

/-- The request under another hint. -/
def UserAuthorization.named (hint : Bytes) : UserAuthorization → UserAuthorization
  | .spend _ authorization => .spend hint authorization
  | .refresh _ psbt => .refresh hint psbt

/-- Every check of the members, the pair and the ladder. -/
def Checked (functions : TxFunctions) (vault : LiveVault) (request : UserAuthorization) : Prop :=
  ∃ witnessScript, vault.explicitScript = .ok witnessScript ∧
    match request with
    | .refresh _ refresh => ∃ m, member functions vault witnessScript refresh = .ok m ∧ m.txClass = .refresh
    | .spend _ authorization =>
      authorization.escapeBumps.length ≤ Node.maxEscapeBumps ∧ ∃ spend escape rungs labels,
        member functions vault witnessScript authorization.spend = .ok spend ∧
        member functions vault witnessScript authorization.escape = .ok escape ∧
        authorization.escapeBumps.mapM (member functions vault witnessScript) = .ok rungs ∧
        pairLabels spend escape = .ok labels ∧ (spend.txClass = .escape → unladdered spend = .ok ()) ∧
        checkLadder functions vault escape rungs = .ok ()

/-- A prepared group: each member is validated against the caller's PSBT in its place. -/
theorem prepare_ok {functions : TxFunctions} {vault : LiveVault} {request : UserAuthorization} {group : Group}
    (passed : prepare functions vault request = .ok group) :
    Checked functions vault request ∧ ∃ witnessScript, vault.explicitScript = .ok witnessScript ∧
      List.Forall₂ (fun psbt m => member functions vault witnessScript psbt = .ok m) request.psbts
        (group.members.map Prod.snd) := by
  obtain ⟨witnessScript, script, passed⟩ := ok_of_bind passed
  cases request with
  | refresh hint refresh =>
    simp only at passed
    unfold prepareRefresh at passed
    obtain ⟨m, valid, passed⟩ := ok_of_bind passed
    simp only at passed
    by_cases other : m.txClass ≠ .refresh
    · rw [if_pos other] at passed
      cases passed
    · rw [if_neg other] at passed
      cases passed
      refine ⟨⟨witnessScript, script, m, valid, not_not.mp other⟩, witnessScript, script, .cons ?_ .nil⟩
      exact valid
  | spend hint authorization =>
    obtain ⟨few, spend, escape, rungs, labels, spent, escaped, climbed, labelled, final, ladder, members⟩ :=
      prepareSpend_ok hint passed
    refine ⟨⟨witnessScript, script, few, spend, escape, rungs, labels, spent, escaped, climbed, labelled, final, ladder⟩,
      witnessScript, script, ?_⟩
    rw [members]
    refine .cons ?_ (.cons ?_ (forall₂_of_mapM climbed))
    · exact spent
    · exact escaped

theorem prepareSpend_hint (functions : TxFunctions) (vault : LiveVault) (witnessScript hint other : Bytes)
    (authorization : SpendAuthorization) :
    prepareSpend functions vault witnessScript hint authorization =
      (prepareSpend functions vault witnessScript other authorization).map (fun group => { group with hint := hint }) := by
  unfold prepareSpend
  simp only [bind, Except.bind]
  split_ifs
  · rfl
  cases member functions vault witnessScript authorization.spend with
  | error e => rfl
  | ok spend =>
    cases member functions vault witnessScript authorization.escape with
    | error e => rfl
    | ok escape =>
      simp only
      cases authorization.escapeBumps.mapM (member functions vault witnessScript) with
      | error e => rfl
      | ok rungs =>
        simp only
        cases pairLabels spend escape with
        | error e => rfl
        | ok labels =>
          simp only
          split_ifs
          · cases unladdered spend with
            | error e => rfl
            | ok _ =>
              simp only
              cases checkLadder functions vault escape rungs <;> rfl
          · cases checkLadder functions vault escape rungs <;> rfl

/-- The hint names the group and does nothing else. -/
theorem prepare_named (functions : TxFunctions) (vault : LiveVault) (request : UserAuthorization) (hint : Bytes) :
    prepare functions vault (request.named hint) =
      (prepare functions vault request).map (fun group => { group with hint := hint }) := by
  unfold prepare
  cases vault.explicitScript with
  | error e => rfl
  | ok witnessScript =>
    cases request with
    | refresh other psbt =>
      simp only [UserAuthorization.named, bind, Except.bind, prepareRefresh]
      cases member functions vault witnessScript psbt with
      | error e => rfl
      | ok m =>
        simp only
        split_ifs <;> rfl
    | spend other authorization => exact prepareSpend_hint functions vault witnessScript hint other authorization

/-! ### What was supplied without authority -/

/-- Without the declared prevout and the declared script. -/
def RawMap.bare (map : RawMap) : RawMap :=
  { map with map := { map.map with witnessUtxo := none, witnessScript := none } }

def RawPsbt.bare (psbt : RawPsbt) : RawPsbt := { psbt with inputs := psbt.inputs.map RawMap.bare }

def SpendAuthorization.bare (authorization : SpendAuthorization) : SpendAuthorization :=
  ⟨authorization.spend.bare, authorization.escape.bare, authorization.escapeBumps.map RawPsbt.bare⟩

def UserAuthorization.bare : UserAuthorization → UserAuthorization
  | .spend hint authorization => .spend hint authorization.bare
  | .refresh hint psbt => .refresh hint psbt.bare

/-- What is declared is the previous transaction's output, and the sealed script. -/
structure RawMap.Agrees (witnessScript : Script) (input : RawInput × RawMap) : Prop where
  utxo : ∀ declared prevtx prevout, input.2.map.witnessUtxo = some declared → input.2.nonWitnessUtxo = some prevtx →
    prevtx.output[input.1.txIn.previousOutput.vout]? = some prevout → declared = prevout
  script : ∀ declared, input.2.map.witnessScript = some declared → declared = witnessScript

def RawPsbt.Agrees (witnessScript : Script) (psbt : RawPsbt) : Prop :=
  ∀ input ∈ psbt.unsignedTx.input.zip psbt.inputs, RawMap.Agrees witnessScript input

def UserAuthorization.Agrees (vault : LiveVault) (request : UserAuthorization) : Prop :=
  ∀ witnessScript, vault.explicitScript = .ok witnessScript → ∀ psbt ∈ request.psbts, psbt.Agrees witnessScript

section Bare

variable {functions : TxFunctions} {vault : LiveVault} {witnessScript : Script}

theorem canonicalInput_bare {index : Nat} {seen : List OutPoint} {input : RawInput} {map : RawMap}
    (agrees : RawMap.Agrees witnessScript (input, map)) :
    canonicalInput functions witnessScript index seen input map.bare =
      canonicalInput functions witnessScript index seen input map := by
  have script : map.map.witnessScript.any (fun declared => decide (declared ≠ witnessScript)) = false := by
    cases supplied : map.map.witnessScript with
    | none => rfl
    | some declared => simp [agrees.script declared supplied]
  unfold canonicalInput RawMap.bare
  simp only
  rw [script]
  cases held : map.nonWitnessUtxo with
  | none => rfl
  | some prevtx =>
    simp only
    cases found : prevtx.output[input.txIn.previousOutput.vout]? with
    | none => rfl
    | some prevout =>
      have utxo : map.map.witnessUtxo.any (fun declared => decide (declared ≠ prevout)) = false := by
        cases supplied : map.map.witnessUtxo with
        | none => rfl
        | some declared => simp [agrees.utxo declared prevtx prevout supplied held found]
      simp only [utxo]
      rfl

theorem canonicalInputs_bare {index : Nat} {seen : List OutPoint} {start : Nat} {inputs : List (RawInput × RawMap)}
    (agrees : ∀ input ∈ inputs, RawMap.Agrees witnessScript input) :
    canonicalInputs functions witnessScript index seen start (inputs.map (Prod.map id RawMap.bare)) =
      canonicalInputs functions witnessScript index seen start inputs := by
  induction inputs generalizing index seen start with
  | nil => rfl
  | cons head rest ih =>
    obtain ⟨input, map⟩ := head
    rw [List.forall_mem_cons] at agrees
    rw [List.map_cons, Prod.map_apply, id, canonicalInputs, canonicalInputs, canonicalInput_bare agrees.1]
    simp only [ih agrees.2]

theorem member_bare {psbt : RawPsbt} (agrees : psbt.Agrees witnessScript) :
    member functions vault witnessScript psbt.bare = member functions vault witnessScript psbt := by
  have inputs := @canonicalInputs_bare functions witnessScript 0 [] 0 _ agrees
  have zipped : psbt.bare.unsignedTx.input.zip psbt.bare.inputs =
      (psbt.unsignedTx.input.zip psbt.inputs).map (Prod.map id RawMap.bare) := by
    rw [RawPsbt.bare, List.zip_map_right]
  unfold member
  simp only [zipped, inputs]
  simp only [RawPsbt.bare, List.length_map]

theorem mapM_bare {psbts : List RawPsbt} (agrees : ∀ psbt ∈ psbts, psbt.Agrees witnessScript) :
    (psbts.map RawPsbt.bare).mapM (member functions vault witnessScript) =
      psbts.mapM (member functions vault witnessScript) := by
  induction psbts with
  | nil => rfl
  | cons psbt rest ih =>
    rw [List.forall_mem_cons] at agrees
    rw [List.map_cons, List.mapM_cons, List.mapM_cons, member_bare agrees.1, ih agrees.2]

theorem prepare_bare {request : UserAuthorization} (agrees : request.Agrees vault) :
    prepare functions vault request.bare = prepare functions vault request := by
  unfold prepare
  cases script : vault.explicitScript with
  | error e => rfl
  | ok witnessScript =>
    have each := agrees witnessScript script
    cases request with
    | refresh hint psbt =>
      have only : psbt.Agrees witnessScript := each psbt (List.mem_singleton_self psbt)
      show prepareRefresh functions vault witnessScript hint psbt.bare = prepareRefresh functions vault witnessScript hint psbt
      unfold prepareRefresh
      rw [member_bare only]
    | spend hint authorization =>
      obtain ⟨spend, escape, bumps⟩ : authorization.spend.Agrees witnessScript ∧ authorization.escape.Agrees witnessScript ∧
          ∀ psbt ∈ authorization.escapeBumps, psbt.Agrees witnessScript := by
        simpa [UserAuthorization.psbts] using each
      show prepareSpend functions vault witnessScript hint authorization.bare =
        prepareSpend functions vault witnessScript hint authorization
      unfold prepareSpend
      simp only [SpendAuthorization.bare, member_bare spend, member_bare escape, mapM_bare bumps, List.length_map]

end Bare

/-! ### All or nothing -/

def UserAuthorization.hint : UserAuthorization → Bytes
  | .spend hint _ => hint
  | .refresh hint _ => hint

section Whole

variable {functions : SigningFunctions}

/-- One input of the caller's and what it comes back as: the coin is the previous transaction's own output, it pays the
sealed script, and the signature under the user's key is over the digest for its own amount. -/
structure AuthorizedInput (signer : SoftwareSigner functions) (tx : Transaction) (index : Nat) (input : RawInput)
    (map : RawMap) (signed : PsbtInput) (digest : Bytes) : Prop where
  signature : ∃ prevtx prevout witnessScript scalar,
    map.nonWitnessUtxo = some prevtx ∧ functions.computeTxid prevtx = input.txIn.previousOutput.txid ∧
    prevtx.output[input.txIn.previousOutput.vout]? = some prevout ∧
    prevout.scriptPubkey = signer.vault.scriptPubkey ∧ signer.vault.explicitScript = .ok witnessScript ∧
    functions.secretFromSlice signer.secret = .ok scalar ∧
    functions.p2wshSignatureHash tx index witnessScript prevout.value = .ok digest ∧
    signed.partialSigs.lookup signer.vault.userKey = some ⟨functions.signEcdsa digest scalar, sighashAll⟩ ∧
    functions.verifyEcdsa digest (functions.signEcdsa digest scalar) signer.vault.userKey = true ∧
    signed = insertSignature signer.vault.userKey ⟨functions.signEcdsa digest scalar, sighashAll⟩
      { map.map with witnessUtxo := some prevout, witnessScript := some witnessScript }

/-- The caller's transaction as it was, with every input authorized. -/
structure Authorized (signer : SoftwareSigner functions) (psbt : RawPsbt) (signed : Psbt) (digests : List Bytes) :
    Prop where
  transaction : signed.unsignedTx = psbt.unsignedTx.unsigned
  plain : ∀ input ∈ psbt.unsignedTx.input, input.scriptSig = [] ∧ input.witness = []
  sizes : psbt.inputs.length = psbt.unsignedTx.input.length ∧ signed.inputs.length = psbt.unsignedTx.input.length ∧
    digests.length = psbt.unsignedTx.input.length
  inputs : ∀ (index : Nat) (input : RawInput) (map : RawMap), psbt.unsignedTx.input[index]? = some input →
    psbt.inputs[index]? = some map → ∃ signedInput digest, signed.inputs[index]? = some signedInput ∧
      digests[index]? = some digest ∧
      AuthorizedInput signer psbt.unsignedTx.unsigned index input map signedInput digest

/-- A member of the group has a line of its own and below it one for each output of the caller's transaction. -/
def Listed (functions : SigningFunctions) (vault : SealedVault) (psbt : RawPsbt) (block : List String) : Prop :=
  ∃ label outflow, block =
    memberLine label (psbt.authenticatedTotal - outputSum psbt.unsignedTx.unsigned) outflow psbt.unsignedTx.input.length ::
      psbt.unsignedTx.output.zipIdx.map (outputLine functions vault)

theorem authorized_of_signed {signer : SoftwareSigner functions} {witnessScript : Script} {scalar : Bytes} {psbt : RawPsbt}
    {m : Member} {messages : List (Nat × Bytes)} (script : signer.vault.explicitScript = .ok witnessScript)
    (secret : functions.secretFromSlice signer.secret = .ok scalar)
    (passed : member functions.toTxFunctions signer.vault.toLiveVault witnessScript psbt = .ok m)
    (digested : inputMessages functions witnessScript signer.vault.scriptPubkey m.psbt.unsignedTx 0 m.psbt.inputs =
      .ok messages) :
    Authorized signer psbt (signedMember functions signer.vault.userKey scalar (m.psbt, messages))
      (messages.map Prod.snd) := by
  obtain ⟨shape, canonical⟩ := member_canonical passed
  have authentic := member_ok passed
  obtain ⟨indices, each⟩ := inputMessages_ok digested
  have distinct : (messages.map Prod.fst).Nodup := by
    rw [indices]
    exact List.nodup_range'
  have zipped : (psbt.unsignedTx.input.zip psbt.inputs).length = psbt.unsignedTx.input.length := by
    rw [List.length_zip, shape, Nat.min_self]
  have size : m.psbt.inputs.length = psbt.unsignedTx.input.length := by rw [← canonical.length_eq, zipped]
  have count : messages.length = m.psbt.inputs.length := by
    have lengths := congrArg List.length indices
    rwa [List.length_map, List.length_range'] at lengths
  refine ⟨authentic.transaction, ?_, ⟨shape, ?_, ?_⟩, ?_⟩
  · intro input listed
    obtain ⟨index, found⟩ := List.getElem?_of_mem listed
    have inside : index < psbt.inputs.length := by
      rw [shape]
      exact (List.getElem?_eq_some_iff.mp found).1
    have paired : (psbt.unsignedTx.input.zip psbt.inputs)[index]? = some (input, psbt.inputs[index]) :=
      List.getElem?_zip_eq_some.mpr ⟨found, List.getElem?_eq_getElem inside⟩
    obtain ⟨_, _, _, own⟩ := getElem?_of_forall₂ canonical paired
    exact ⟨own.scriptSig, own.witness⟩
  · rw [signedMember, length_amend, size]
  · rw [List.length_map, count, size]
  · intro index input map found mapped
    have paired : (psbt.unsignedTx.input.zip psbt.inputs)[index]? = some (input, map) :=
      List.getElem?_zip_eq_some.mpr ⟨found, mapped⟩
    obtain ⟨normalized, placed, prevout, own⟩ := getElem?_of_forall₂ canonical paired
    obtain ⟨digest, message, utxo, held, pays, hashed⟩ := each index normalized placed
    rw [Nat.zero_add] at message hashed
    obtain ⟨prevtx, full, hashes, output⟩ := own.proved
    -- the map that is signed declares the previous transaction's output
    obtain rfl : utxo = prevout := by
      rw [own.map] at held
      exact (Option.some.inj held).symm
    refine ⟨signInput functions signer.vault.userKey scalar digest normalized, digest, ?_, ?_, ?_⟩
    · rw [signedMember, getElem?_amend distinct (List.mem_of_getElem? message), placed, Option.map_some]
    · rw [List.getElem?_map, message, Option.map_some]
    · obtain ⟨scalar', secret', derives⟩ := signer.derives
      rw [secret] at secret'
      cases secret'
      rw [authentic.transaction] at hashed
      refine ⟨prevtx, utxo, witnessScript, scalar, full, hashes, output, pays, script, secret, hashed, ?_, ?_, ?_⟩
      · exact AList.lookup_insert _
      · rw [← derives]
        exact functions.signs digest signer.secret scalar secret
      · rw [signInput, own.map]

theorem listed_of_member {vault : SealedVault} {witnessScript : Script} {psbt : RawPsbt} {m : Member} (label : String)
    (passed : member functions.toTxFunctions vault.toLiveVault witnessScript psbt = .ok m) :
    Listed functions vault psbt (memberLines functions vault (label, m)) := by
  have authentic := member_ok passed
  have held : m.outpoints.length = psbt.unsignedTx.input.length := by
    rw [authentic.outpoints, authentic.transaction, Node.outpointsOf, RawTransaction.unsigned, List.length_map,
      List.length_map]
  refine ⟨label, m.outflow, ?_⟩
  rw [memberLines, held, authentic.fee, authentic.totalIn, authentic.transaction]
  rfl

theorem prepare_hint {functions : TxFunctions} {vault : LiveVault} {request : UserAuthorization} {group : Group}
    (passed : prepare functions vault request = .ok group) : group.hint = request.hint := by
  have own : request.named request.hint = request := by cases request <;> rfl
  have named := prepare_named functions vault request request.hint
  rw [own, passed] at named
  exact congrArg Group.hint (Except.ok.inj named)

/-- The members that come back are the caller's, in the caller's order, each authorized; what is signed is theirs. -/
theorem authorized_members {signer : SoftwareSigner functions} {request : UserAuthorization} {group : Group}
    {members : List Psbt} {log log' : List Bytes}
    (prepared : prepare functions.toTxFunctions signer.vault.toLiveVault request = .ok group)
    (answered : signer.signGroup (group.members.map (fun m => m.2.psbt)) log = (.ok members, log')) :
    ∃ pairs : List (Psbt × List Bytes), members = pairs.map Prod.fst ∧ log' = log ++ pairs.flatMap Prod.snd ∧
      List.Forall₂ (fun psbt pair => Authorized signer psbt pair.1 pair.2) request.psbts pairs := by
  obtain ⟨_, witnessScript, script, valid⟩ := prepare_ok prepared
  obtain ⟨witnessScript', messages, scalar, script', secret, digested, rfl, rfl⟩ := signGroup_answered answered
  have same : witnessScript' = witnessScript := Except.ok.inj (script'.symm.trans script)
  subst same
  have psbts : group.members.map (fun m => m.2.psbt) = (group.members.map Prod.snd).map Member.psbt := by
    rw [List.map_map]
    rfl
  rw [psbts] at digested ⊢
  rw [List.forall₂_map_left_iff] at digested
  refine ⟨((group.members.map Prod.snd).map Member.psbt |>.zip messages).map (fun member =>
    (signedMember functions signer.vault.userKey scalar member, member.2.map Prod.snd)), ?_, ?_, ?_⟩
  · generalize ((group.members.map Prod.snd).map Member.psbt).zip messages = zipped
    rw [List.map_map]
    rfl
  · rw [List.flatMap_map]
  · rw [List.zip_map_left, List.map_map, List.forall₂_map_right_iff]
    refine (forall₂_zip valid digested).imp fun psbt pair both => ?_
    exact authorized_of_signed script' secret both.1 both.2

theorem listed_members {signer : SoftwareSigner functions} {request : UserAuthorization} {group : Group}
    (prepared : prepare functions.toTxFunctions signer.vault.toLiveVault request = .ok group) :
    ∃ blocks, group.display functions signer.vault = "\n".intercalate (headline request.hint :: blocks.flatten) ∧
      List.Forall₂ (Listed functions signer.vault) request.psbts blocks := by
  obtain ⟨_, witnessScript, _, valid⟩ := prepare_ok prepared
  refine ⟨group.members.map (memberLines functions signer.vault), ?_, ?_⟩
  · rw [Group.display, prepare_hint prepared, List.flatMap_def]
  · rw [List.forall₂_map_right_iff] at valid ⊢
    exact valid.imp fun psbt labelled passed => listed_of_member labelled.1 passed

/-- The group under any hint is signed to the same members. -/
theorem authorize_named (signer : SoftwareSigner functions) (request : UserAuthorization) (log : List Bytes) :
    ∃ (outcome : Except String (List String × List Psbt)) (log' : List Bytes), ∀ hint,
      signer.authorize (request.named hint) log =
        (outcome.map (fun shown => ⟨"\n".intercalate (headline hint :: shown.1), shown.2⟩), log') := by
  cases prepared : prepare functions.toTxFunctions signer.vault.toLiveVault request with
  | error e =>
    refine ⟨.error e, log, fun hint => ?_⟩
    unfold SoftwareSigner.authorize
    apply fail_bind
    rw [prepare_named, prepared]
    rfl
  | ok group =>
    cases ran : signer.signGroup (group.members.map (fun m => m.2.psbt)) log with
    | mk outcome log' =>
      refine ⟨outcome.map (fun members => (group.members.flatMap (memberLines functions signer.vault), members)), log',
        fun hint => ?_⟩
      have named : (Prog.lift (prepare functions.toTxFunctions signer.vault.toLiveVault (request.named hint)) :
          Prog (List Bytes) String Group) log = (.ok { group with hint := hint }, log) := by
        rw [prepare_named, prepared]
        rfl
      unfold SoftwareSigner.authorize
      rw [run_bind named]
      cases outcome with
      | error e => exact fail_bind ran
      | ok members =>
        show (signer.signGroup (group.members.map (fun m => m.2.psbt)) >>= _) log = _
        rw [run_bind ran]
        rfl

end Whole

/-- Signing is all or nothing and only of what was shown. -/
theorem authorize_signs_all_or_nothing {functions : SigningFunctions} (signer : SoftwareSigner functions)
    (request : UserAuthorization) (log : List Bytes) :
    (∀ signed log', signer.authorize request log = (.ok signed, log') →
        (∃ pairs : List (Psbt × List Bytes), signed.members = pairs.map Prod.fst ∧
          log' = log ++ pairs.flatMap Prod.snd ∧
          List.Forall₂ (fun psbt pair => Authorized signer psbt pair.1 pair.2) request.psbts pairs) ∧
        describe functions signer.vault request = .ok signed.display ∧
        ∃ blocks, signed.display = "\n".intercalate (headline request.hint :: blocks.flatten) ∧
          List.Forall₂ (Listed functions signer.vault) request.psbts blocks) ∧
      (∀ e log', signer.authorize request log = (.error e, log') → log' = log) ∧
      (¬Checked functions.toTxFunctions signer.vault.toLiveVault request →
        ∃ e, signer.authorize request log = (.error e, log)) ∧
      (∃ (outcome : Except String (List String × List Psbt)) (log' : List Bytes), ∀ hint,
        signer.authorize (request.named hint) log =
          (outcome.map (fun shown => ⟨"\n".intercalate (headline hint :: shown.1), shown.2⟩), log')) ∧
      ∀ other : UserAuthorization, request.Agrees signer.vault.toLiveVault → other.Agrees signer.vault.toLiveVault →
        request.bare = other.bare → signer.authorize request log = signer.authorize other log := by
  refine ⟨?_, fun e log' => authorize_failed, ?_, authorize_named signer request log, ?_⟩
  · intro signed log' answered
    obtain ⟨group, prepared, display, signs⟩ := authorize_answered answered
    refine ⟨authorized_members prepared signs, ?_, ?_⟩
    · rw [describe, prepared, display]
      rfl
    · rw [display]
      exact listed_members prepared
  · intro unchecked
    cases ran : signer.authorize request log with
    | mk outcome log' =>
      cases outcome with
      | error e => exact ⟨e, by rw [authorize_failed ran]⟩
      | ok signed =>
        obtain ⟨group, prepared, _, _⟩ := authorize_answered ran
        exact absurd (prepare_ok prepared).1 unchecked
  · intro other agrees agrees' same
    have prepared : prepare functions.toTxFunctions signer.vault.toLiveVault request =
        prepare functions.toTxFunctions signer.vault.toLiveVault other := by
      rw [← prepare_bare agrees, same, prepare_bare agrees']
    unfold SoftwareSigner.authorize
    rw [prepared]

namespace Sample

/-- A scalar is its own public key, and a signature is the message behind the scalar. -/
def signing : SigningFunctions :=
  { functions with
    addressFromScript := fun _ _ => none
    p2wshSignatureHash := fun tx index _ value => .ok [UInt8.ofNat tx.output.length, UInt8.ofNat index, UInt8.ofNat value]
    secretFromSlice := fun secret => .ok secret
    publicKey := fun scalar => scalar
    signEcdsa := fun message scalar => scalar ++ message
    verifyEcdsa := fun message signature key => decide (signature = key ++ message)
    signs := by
      intro message secret scalar loaded
      exact decide_eq_true rfl }

def signer : SoftwareSigner signing := ⟨⟨vault, [7], .regtest⟩, [7], [7], rfl, rfl⟩

theorem authorize_signs_all_or_nothing_sample :
    ∃ signed log', signer.authorize (.spend [1] authorization) [] = (.ok signed, log') ∧
      describe signing signer.vault (.spend [1] authorization) = .ok signed.display := by
  have accepted : (signer.authorize (.spend [1] authorization) []).1.isOk = true := by decide
  cases ran : signer.authorize (.spend [1] authorization) [] with
  | mk outcome log' =>
    rw [ran] at accepted
    cases outcome with
    | error e => cases accepted
    | ok signed =>
      have whole := (authorize_signs_all_or_nothing signer (.spend [1] authorization) []).1 signed log' ran
      exact ⟨signed, log', rfl, whole.2.1⟩

end Sample

end BtcPolicy.Signer
