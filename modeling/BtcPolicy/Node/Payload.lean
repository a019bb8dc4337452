import BtcPolicy.Encoding
import BtcPolicy.Lib.Json
import BtcPolicy.Node.Wire
import BtcPolicy.Replay
import BtcPolicy.Channel.Candidate

/-! A request on its way to the peers: its JSON padded to one length whatever the pin, the nonce and the
coordinator's signature are, and the envelope around it padded against the length of its own signature. -/

namespace BtcPolicy.Node
open Bitcoin Hex Replay Channel

/-! ### JSON bodies -/

/-- `serde_json::to_vec`. -/
def toVec (json : Json) : Bytes := json.print.map Char.toUInt8

/-- `serde_json::from_slice`, up to the reading of the value. Its bound on the depth is one that the types read here
never reach, and it does not hold of what is skipped. -/
def fromSlice (bytes : Bytes) : Option Json := Json.parse (bytes.map Char.ofUInt8)

def jsonText (text : String) : Json := .string (utf8 text)

/-- An empty ladder is left out. -/
def SignRequest.toJson (request : SignRequest) : Json :=
  .object ([(utf8 "spend", jsonText request.psbt), (utf8 "escape", jsonText request.escapePsbt)] ++
    (if request.escapeBumps.isEmpty then []
      else [(utf8 "escape_bumps", .array (request.escapeBumps.map jsonText))]) ++
    [(utf8 "pin", jsonText request.pin), (utf8 "nonce", jsonText request.nonce),
      (utf8 "expiry", Json.natural request.expiry), (utf8 "policy_version", Json.natural request.policyVersion),
      (utf8 "coord_sig", jsonText request.coordSig)])

def RefreshRequest.toJson (request : RefreshRequest) : Json :=
  .object [(utf8 "refresh", jsonText request.refreshPsbt), (utf8 "nonce", jsonText request.nonce),
    (utf8 "expiry", Json.natural request.expiry), (utf8 "policy_version", Json.natural request.policyVersion),
    (utf8 "coord_sig", jsonText request.coordSig)]

def TaggedRequest.toJson : TaggedRequest → Json
  | .spend request => .object [(utf8 "spend", request.toJson)]
  | .refresh request => .object [(utf8 "refresh", request.toJson)]

/-- The one member of a name; two of them are an error. -/
def member? (members : List (List UInt8 × Json)) (name : String) : Option (Option Json) :=
  match members.filter (fun member => decide (member.1 = utf8 name)) with
  | [] => some none
  | [(_, value)] => some (some value)
  | _ => none

/-- A string that is read has to be UTF-8; one that is skipped has not. -/
def textOf : Json → Option String
  | .string bytes => String.fromUTF8? ⟨bytes.toArray⟩
  | _ => none

def textsOf : Json → Option (List String)
  | .array items => items.mapM textOf
  | _ => none

def u64Of : Json → Option Nat := Json.toNat? (2 ^ 64)

def u32Of : Json → Option Nat := Json.toNat? (2 ^ 32)

/-- A member that must be there. -/
def required {α : Type} (read : Json → Option α) (members : List (List UInt8 × Json)) (name : String) : Option α := do
  let found ← member? members name
  let value ← found
  read value

/-- A member with `#[serde(default)]`. -/
def defaulted {α : Type} (read : Json → Option α) (default : α) (members : List (List UInt8 × Json)) (name : String) :
    Option α := do
  match ← member? members name with
  | none => some default
  | some value => read value

/-- The members of a struct with these fields: an object, all of whose names are read, or an array of the values in
order, whose last may be missing. -/
def membersOf (names : List String) : Json → Option (List (List UInt8 × Json))
  | .object members => if members.all (fun member => (textOf (.string member.1)).isSome) then some members else none
  | .array items => if items.length ≤ names.length then some ((names.map utf8).zip items) else none
  | _ => none

def SignRequest.ofJson (json : Json) : Option SignRequest := do
  let members ← membersOf
    ["spend", "escape", "escape_bumps", "pin", "nonce", "expiry", "policy_version", "coord_sig"] json
  let psbt ← required textOf members "spend"
  let escapePsbt ← required textOf members "escape"
  let escapeBumps ← defaulted textsOf [] members "escape_bumps"
  let pin ← defaulted textOf "" members "pin"
  let nonce ← defaulted textOf "" members "nonce"
  let expiry ← defaulted u64Of 0 members "expiry"
  let policyVersion ← defaulted u32Of 0 members "policy_version"
  let coordSig ← defaulted textOf "" members "coord_sig"
  pure ⟨psbt, escapePsbt, escapeBumps, pin, nonce, expiry, policyVersion, coordSig⟩

def RefreshRequest.ofJson (json : Json) : Option RefreshRequest := do
  let members ← membersOf ["refresh", "nonce", "expiry", "policy_version", "coord_sig"] json
  let refreshPsbt ← required textOf members "refresh"
  let nonce ← defaulted textOf "" members "nonce"
  let expiry ← defaulted u64Of 0 members "expiry"
  let policyVersion ← defaulted u32Of 0 members "policy_version"
  let coordSig ← defaulted textOf "" members "coord_sig"
  pure ⟨refreshPsbt, nonce, expiry, policyVersion, coordSig⟩

/-- The external tag: one arm and nothing beside it. -/
def TaggedRequest.ofJson : Json → Option TaggedRequest
  | .object [(name, value)] =>
    if name = utf8 "spend" then (SignRequest.ofJson value).map .spend
    else if name = utf8 "refresh" then (RefreshRequest.ofJson value).map .refresh
    else none
  | _ => none

def decodeRequest (payload : Bytes) : Option TaggedRequest := do
  let json ← fromSlice payload
  TaggedRequest.ofJson json

/-! ### The padded payload -/

/-- JSON can write one byte as six. -/
def jsonByteExpansion : Nat := 6

/-- A DER signature in hex. -/
def maxSigHexBytes : Nat := maxEcdsaDerBytes * 2

/-- The request with its fields of variable length empty. -/
def TaggedRequest.shape : TaggedRequest → TaggedRequest
  | .spend request => .spend { request with pin := "", nonce := "", coordSig := "" }
  | .refresh request => .refresh { request with nonce := "", coordSig := "" }

def TaggedRequest.variableBudget : TaggedRequest → Nat
  | .spend _ => jsonByteExpansion * (maxPinBytes + maxCoordNonceBytes) + maxSigHexBytes
  | .refresh _ => jsonByteExpansion * maxCoordNonceBytes + maxSigHexBytes

/-- `resize` with JSON whitespace. -/
def padTo (length : Nat) (bytes : Bytes) : Bytes := bytes ++ List.replicate (length - bytes.length) 0x20

def requestPayload (request : TaggedRequest) : Bytes :=
  let targetLen := (toVec request.shape.toJson).length + request.variableBudget
  let payload := toVec request.toJson
  padTo (max payload.length targetLen) payload

/-! ### The envelope -/

def base64Char (n : Nat) : Char :=
  if n < 26 then Char.ofNat (65 + n)
  else if n < 52 then Char.ofNat (71 + n)
  else if n < 62 then Char.ofNat (n - 4)
  else if n = 62 then '+' else '/'

/-- `STANDARD.encode`: four characters for three bytes, and padding at the end. -/
def base64 : Bytes → List Char
  | [] => []
  | [a] => [base64Char (a.toNat / 4), base64Char (a.toNat % 4 * 16), '=', '=']
  | [a, b] =>
    [base64Char (a.toNat / 4), base64Char (a.toNat % 4 * 16 + b.toNat / 16), base64Char (b.toNat % 16 * 4), '=']
  | a :: b :: c :: rest =>
    base64Char (a.toNat / 4) :: base64Char (a.toNat % 4 * 16 + b.toNat / 16) ::
      base64Char (b.toNat % 16 * 4 + c.toNat / 64) :: base64Char (c.toNat % 64) :: base64 rest

structure Envelope where
  msgType : String
  protocolVersion : Nat
  walletId : String
  manifestHash : String
  senderNodeId : Nat
  recipientNodeId : Nat
  payloadB64 : String
  nonce : String
  timestamp : Nat
  channelSig : String
  deriving DecidableEq, Repr

def Envelope.toJson (e : Envelope) : Json :=
  .object [(utf8 "msg_type", jsonText e.msgType), (utf8 "protocol_version", Json.natural e.protocolVersion),
    (utf8 "wallet_id", jsonText e.walletId), (utf8 "manifest_hash", jsonText e.manifestHash),
    (utf8 "sender_node_id", Json.natural e.senderNodeId),
    (utf8 "recipient_node_id", Json.natural e.recipientNodeId), (utf8 "payload_b64", jsonText e.payloadB64),
    (utf8 "nonce", jsonText e.nonce), (utf8 "timestamp", Json.natural e.timestamp),
    (utf8 "channel_sig", jsonText e.channelSig)]

/-- Padded by what the signature falls short of the longest. -/
def envelopeBody (e : Envelope) : Bytes :=
  let body := toVec e.toJson
  padTo (body.length + (maxSigHexBytes - (utf8 e.channelSig).length)) body

def msgTypeRequest : String := "request"

def protocolVersion : Nat := 2

/-- What `build_envelope` reads of the node, and what it draws: the nonce, and the DER signature. -/
structure EnvelopeDraw where
  walletId : Bytes
  manifestHash : Bytes
  nodeId : Nat
  recipientNodeId : Nat
  timestamp : Nat
  nonce : Bytes
  channelSig : Bytes

def buildEnvelope (msgType : String) (payload : Bytes) (draw : EnvelopeDraw) : Envelope where
  msgType := msgType
  protocolVersion := protocolVersion
  walletId := toHex draw.walletId
  manifestHash := toHex draw.manifestHash
  senderNodeId := draw.nodeId
  recipientNodeId := draw.recipientNodeId
  payloadB64 := String.ofList (base64 payload)
  nonce := toHex draw.nonce
  timestamp := draw.timestamp
  channelSig := toHex draw.channelSig

/-- `"0".repeat(n)`. -/
def zeroText (n : Nat) : String := String.ofList (List.replicate n '0')

/-- The envelope a request is sized in: the widest numbers and the longest signature. -/
def sizingEnvelope (request : TaggedRequest) : Envelope where
  msgType := msgTypeRequest
  protocolVersion := protocolVersion
  walletId := zeroText 64
  manifestHash := zeroText 64
  senderNodeId := 2 ^ 16 - 1
  recipientNodeId := 2 ^ 16 - 1
  payloadB64 := String.ofList (base64 (requestPayload request))
  nonce := zeroText 32
  timestamp := 2 ^ 64 - 1
  channelSig := zeroText maxSigHexBytes

def requestFitsChannelBody (request : TaggedRequest) (maxMsgBytes : Nat) : Bool :=
  decide ((envelopeBody (sizingEnvelope request)).length ≤ maxMsgBytes)

/-! ### Reading a payload back -/

theorem utf8_ofList (text : List Char) : utf8 (String.ofList text) = text.flatMap String.utf8EncodeChar := by
  unfold utf8
  rw [String.toByteArray_ofList, List.utf8Encode]
  simp

theorem textOf_jsonText (text : String) : textOf (jsonText text) = some text := by
  have bytes : (⟨(utf8 text).toArray⟩ : ByteArray) = text.toByteArray := by
    apply ByteArray.ext
    simp [utf8]
  rw [jsonText, textOf, bytes, String.fromUTF8?, dif_pos text.isValidUTF8]
  rfl

/-- An object whose names are texts shows its members. -/
theorem membersOf_object (names : List String) {members : List (List UInt8 × Json)}
    (named : ∀ member ∈ members, ∃ name, member.1 = utf8 name) : membersOf names (.object members) = some members := by
  rw [membersOf, if_pos]
  rw [List.all_eq_true]
  intro member listed
  obtain ⟨name, same⟩ := named member listed
  rw [same, show textOf (.string (utf8 name)) = some name from textOf_jsonText name]
  rfl

/-- A padded body is the text of its value. -/
theorem fromSlice_padTo (length : Nat) (json : Json) : fromSlice (padTo length (toVec json)) = some json := by
  have space : Char.ofUInt8 0x20 = ' ' := by decide
  rw [fromSlice, padTo, toVec, List.map_append, Json.map_ofUInt8_toUInt8, List.map_replicate, space]
  apply Json.parse_print
  intro c member
  rw [List.eq_of_mem_replicate member]
  decide

theorem textsOf_array (texts : List String) : textsOf (.array (texts.map jsonText)) = some texts := by
  simp only [textsOf]
  induction texts with
  | nil => rfl
  | cons text texts ih =>
    rw [List.map_cons, List.mapM_cons, textOf_jsonText, ih]
    rfl

theorem SignRequest.ofJson_toJson (request : SignRequest) (expiry : request.expiry < 2 ^ 64)
    (policyVersion : request.policyVersion < 2 ^ 32) : SignRequest.ofJson request.toJson = some request := by
  obtain ⟨psbt, escapePsbt, escapeBumps, pin, nonce, until_, version, coordSig⟩ := request
  have word : u64Of (Json.natural until_) = some until_ := Json.toNat?_natural expiry
  have half : u32Of (Json.natural version) = some version := Json.toNat?_natural policyVersion
  have ladder := textsOf_array escapeBumps
  have same : ∀ a b : String, utf8 a = utf8 b ↔ a = b := fun a b => utf8_injective.eq_iff
  unfold SignRequest.toJson SignRequest.ofJson
  rw [membersOf_object]
  · simp only [Option.bind_eq_bind, Option.bind_some]
    cases escapeBumps with
    | nil => simp [required, defaulted, member?, textOf_jsonText, word, half, same]
    | cons bump bumps =>
      rw [List.map_cons] at ladder
      simp [required, defaulted, member?, textOf_jsonText, word, half, ladder, same]
  · cases escapeBumps <;> simp [same]

theorem RefreshRequest.ofJson_toJson (request : RefreshRequest) (expiry : request.expiry < 2 ^ 64)
    (policyVersion : request.policyVersion < 2 ^ 32) : RefreshRequest.ofJson request.toJson = some request := by
  have word : u64Of (Json.natural request.expiry) = some request.expiry := Json.toNat?_natural expiry
  have half : u32Of (Json.natural request.policyVersion) = some request.policyVersion :=
    Json.toNat?_natural policyVersion
  have same : ∀ a b : String, utf8 a = utf8 b ↔ a = b := fun a b => utf8_injective.eq_iff
  unfold RefreshRequest.toJson RefreshRequest.ofJson
  rw [membersOf_object]
  · simp [required, defaulted, member?, textOf_jsonText, word, half, same]
  · simp [same]

/-- The numbers of a request are a `u64` and a `u32`. -/
def TaggedRequest.Typed : TaggedRequest → Prop
  | .spend request => request.expiry < 2 ^ 64 ∧ request.policyVersion < 2 ^ 32
  | .refresh request => request.expiry < 2 ^ 64 ∧ request.policyVersion < 2 ^ 32

theorem decodeRequest_requestPayload {request : TaggedRequest} (typed : request.Typed) :
    decodeRequest (requestPayload request) = some request := by
  have json : fromSlice (requestPayload request) = some request.toJson := fromSlice_padTo _ _
  have read : TaggedRequest.ofJson request.toJson = some request := by
    cases request with
    | spend request =>
      simp [TaggedRequest.toJson, TaggedRequest.ofJson, SignRequest.ofJson_toJson request typed.1 typed.2]
    | refresh request =>
      simp [TaggedRequest.toJson, TaggedRequest.ofJson, RefreshRequest.ofJson_toJson request typed.1 typed.2,
        utf8_injective.eq_iff]
  simp [decodeRequest, json, read]

/-! ### Lengths -/

theorem length_toVec (json : Json) : (toVec json).length = json.print.length := List.length_map _

theorem length_utf8 (text : String) : (utf8 text).length = (text.toList.map Char.utf8Size).sum := by
  conv_lhs => rw [← String.ofList_toList (s := text)]
  rw [utf8_ofList, List.length_flatMap]
  simp

theorem length_padTo (length : Nat) (bytes : Bytes) : (padTo length bytes).length = max length bytes.length := by
  simp only [padTo, List.length_append, List.length_replicate]
  omega

/-- The bytes a text takes inside its quotes. -/
def escaped (text : String) : Nat := (Json.escaped (utf8 text)).length

theorem escaped_le (text : String) : escaped text ≤ jsonByteExpansion * (utf8 text).length :=
  Json.length_escaped_le _

/-- Characters that a JSON text and UTF-8 leave alone. -/
def Bare (c : Char) : Prop := Json.Plain c ∧ c.utf8Size = 1

instance (c : Char) : Decidable (Bare c) := inferInstanceAs (Decidable (_ ∧ _))

/-- Each is one byte, its own. -/
theorem utf8_bare {text : List Char} (bare : ∀ c ∈ text, Bare c) :
    utf8 (String.ofList text) = text.map Char.toUInt8 := by
  rw [utf8_ofList]
  induction text with
  | nil => rfl
  | cons c text ih =>
    rw [List.flatMap_cons, ih (fun d member => bare d (List.mem_cons_of_mem _ member)),
      String.utf8EncodeChar_eq_singleton (bare c List.mem_cons_self).2]
    rfl

theorem escaped_bare {text : List Char} (bare : ∀ c ∈ text, Bare c) : escaped (String.ofList text) = text.length := by
  rw [escaped, utf8_bare bare, Json.length_escaped_plain, List.length_map]
  intro b member
  obtain ⟨c, listed, rfl⟩ := List.mem_map.mp member
  obtain ⟨plain, ascii⟩ := bare c listed
  have byte : c.toNat < 256 :=
    Nat.lt_of_le_of_lt (UInt32.le_iff_toNat_le.mp (Char.utf8Size_eq_one_iff.mp ascii)) (by decide)
  rwa [Json.ofUInt8_toUInt8 byte]

theorem length_jsonText (text : String) : (Json.print (jsonText text)).length = escaped text + 2 := by
  simp only [jsonText, Json.print, Json.printString, List.length_append, List.length_cons, List.length_nil, escaped]

/-- The fields of variable length add to the shape what their escapes take. -/
theorem length_spend (request : SignRequest) :
    (toVec (TaggedRequest.spend request).toJson).length =
      (toVec (TaggedRequest.spend request).shape.toJson).length + escaped request.pin + escaped request.nonce +
        escaped request.coordSig := by
  have nothing : escaped "" = 0 := by decide
  rw [length_toVec, length_toVec]
  simp only [TaggedRequest.toJson, TaggedRequest.shape, SignRequest.toJson]
  cases empty : request.escapeBumps.isEmpty with
  | true =>
    simp only [if_true, List.append_nil, List.cons_append, List.nil_append, Json.print, Json.printMembers,
      List.length_append, List.length_cons, List.length_nil, length_jsonText, nothing]
    omega
  | false =>
    simp only [Bool.false_eq_true, if_false, List.cons_append, List.nil_append, Json.print, Json.printMembers,
      List.length_append, List.length_cons, List.length_nil, length_jsonText, nothing]
    omega

/-- The pin and the nonce are within their byte bounds, and the signature is hex of at most 144 digits. -/
structure SignRequest.Bounded (request : SignRequest) : Prop where
  pin : (utf8 request.pin).length ≤ maxPinBytes
  nonce : (utf8 request.nonce).length ≤ maxCoordNonceBytes
  coordSig : request.coordSig.toList.length ≤ maxSigHexBytes
  hex : ∀ c ∈ request.coordSig.toList, (hexValue c).isSome = true

theorem bare_of_hexValue {c : Char} (hex : (hexValue c).isSome = true) : Bare c := by
  have bare : ∀ n < 103, (hexValue (Char.ofNat n)).isSome = true → Bare (Char.ofNat n) := by decide
  have small : c.toNat < 103 := by
    unfold hexValue at hex
    split_ifs at hex <;> first | omega | simp at hex
  have here := bare c.toNat small
  rw [Char.ofNat_toNat] at here
  exact here hex

/-- Whatever the fields of variable length hold, the payload has the length of the shape and its budget. -/
theorem length_requestPayload_spend {request : SignRequest} (bounded : request.Bounded) :
    (requestPayload (.spend request)).length =
      (toVec (TaggedRequest.spend request).shape.toJson).length + (TaggedRequest.spend request).variableBudget := by
  have pin := escaped_le request.pin
  have nonce := escaped_le request.nonce
  have signature : escaped request.coordSig = request.coordSig.toList.length := by
    have bare := escaped_bare (fun c member => bare_of_hexValue (bounded.hex c member))
    rwa [String.ofList_toList] at bare
  have pinBound := bounded.pin
  have nonceBound := bounded.nonce
  have sigBound := bounded.coordSig
  have whole := length_spend request
  simp only [requestPayload, length_padTo, TaggedRequest.variableBudget]
  simp only [jsonByteExpansion, maxPinBytes, maxCoordNonceBytes] at pin nonce pinBound nonceBound ⊢
  omega

theorem bare_base64Char : ∀ n < 64, Bare (base64Char n) := by decide

/-- Base64 is bare and its length is that of its groups. -/
theorem base64_bare (bytes : Bytes) :
    (∀ c ∈ base64 bytes, Bare c) ∧ (base64 bytes).length = 4 * ((bytes.length + 2) / 3) := by
  have equals : Bare '=' := by decide
  have byte : ∀ b : UInt8, b.toNat < 256 := UInt8.toNat_lt
  induction bytes using base64.induct with
  | case1 => exact ⟨by simp [base64], rfl⟩
  | case2 a =>
    have bound := byte a
    refine ⟨?_, by simp [base64]⟩
    simp only [base64, List.mem_cons, List.not_mem_nil, or_false, forall_eq_or_imp, forall_eq]
    exact ⟨bare_base64Char _ (by omega), bare_base64Char _ (by omega), equals, equals⟩
  | case3 a b =>
    have bound := byte a
    have next := byte b
    refine ⟨?_, by simp [base64]⟩
    simp only [base64, List.mem_cons, List.not_mem_nil, or_false, forall_eq_or_imp, forall_eq]
    exact ⟨bare_base64Char _ (by omega), bare_base64Char _ (by omega), bare_base64Char _ (by omega), equals⟩
  | case4 a b c rest ih =>
    have bound := byte a
    have next := byte b
    have last := byte c
    refine ⟨?_, ?_⟩
    · simp only [base64, List.mem_cons, forall_eq_or_imp]
      exact ⟨bare_base64Char _ (by omega), bare_base64Char _ (by omega), bare_base64Char _ (by omega),
        bare_base64Char _ (by omega), ih.1⟩
    · simp only [base64, List.length_cons, ih.2]
      omega

theorem bare_hexDigit : ∀ n < 16, Bare (hexDigit n) := by decide

/-- Hex is bare, two digits for a byte. -/
theorem toHex_bare (bytes : Bytes) :
    (∀ c ∈ (toHex bytes).toList, Bare c) ∧ (toHex bytes).toList.length = 2 * bytes.length := by
  rw [toHex, String.toList_ofList]
  refine ⟨?_, ?_⟩
  · intro c member
    obtain ⟨b, _, digit⟩ := List.mem_flatMap.mp member
    have bound : b.toNat < 256 := b.toNat_lt
    rcases List.mem_pair.mp digit with rfl | rfl
    · exact bare_hexDigit _ (by omega)
    · exact bare_hexDigit _ (by omega)
  · rw [List.length_flatMap]
    simp [Nat.mul_comm]

theorem escaped_toHex (bytes : Bytes) : escaped (toHex bytes) = 2 * bytes.length := by
  have bare := escaped_bare (toHex_bare bytes).1
  rwa [String.ofList_toList, (toHex_bare bytes).2] at bare

theorem length_utf8_toHex (bytes : Bytes) : (utf8 (toHex bytes)).length = 2 * bytes.length := by
  rw [← String.ofList_toList (s := toHex bytes), utf8_bare (toHex_bare bytes).1, List.length_map, (toHex_bare bytes).2]

theorem toHex_zeros (n : Nat) : toHex (List.replicate n 0) = zeroText (2 * n) := by
  have text : (List.replicate n (0 : UInt8)).flatMap (fun b => [hexDigit (b.toNat / 16), hexDigit (b.toNat % 16)]) =
      List.replicate (2 * n) '0' := by
    induction n with
    | zero => rfl
    | succ n ih =>
      rw [List.replicate_succ, List.flatMap_cons, ih]
      rfl
  rw [toHex, text, zeroText]

/-- How many decimal digits a number prints. -/
def digits (n : Nat) : Nat := (Nat.toDigits 10 n).length

/-- What an envelope's body takes beside the values of its fields: the names and the punctuation. -/
def envelopeFrame : Nat :=
  (["msg_type", "protocol_version", "wallet_id", "manifest_hash", "sender_node_id", "recipient_node_id",
    "payload_b64", "nonce", "timestamp", "channel_sig"].map (fun name => (Json.printString (utf8 name)).length)).sum
    + 33

/-- The body's length, when the signature is bare text no longer than the longest. -/
theorem length_envelopeBody {e : Envelope} (short : (utf8 e.channelSig).length ≤ maxSigHexBytes)
    (bare : escaped e.channelSig = (utf8 e.channelSig).length) :
    (envelopeBody e).length = envelopeFrame + escaped e.msgType + digits e.protocolVersion + escaped e.walletId +
      escaped e.manifestHash + digits e.senderNodeId + digits e.recipientNodeId + escaped e.payloadB64 +
      escaped e.nonce + digits e.timestamp + maxSigHexBytes := by
  have number : ∀ n, (Json.print (Json.natural n)).length = (Nat.toDigits 10 n).length := fun _ => rfl
  simp only [envelopeBody, length_padTo, length_toVec, Envelope.toJson, Json.print, Json.printMembers,
    List.length_append, List.length_cons, List.length_nil, length_jsonText, number, envelopeFrame, List.map_cons,
    List.map_nil, List.sum_cons, List.sum_nil, digits, bare]
  omega

/-- What the types of a draw hold: 32-byte identities, `u16` node ids, a `u64` time, a 16-byte nonce, and a
DER signature of at most 72 bytes. -/
structure EnvelopeDraw.Typed (draw : EnvelopeDraw) : Prop where
  walletId : draw.walletId.length = 32
  manifestHash : draw.manifestHash.length = 32
  nodeId : draw.nodeId < 2 ^ 16
  recipientNodeId : draw.recipientNodeId < 2 ^ 16
  timestamp : draw.timestamp < 2 ^ 64
  nonce : draw.nonce.length = 16
  channelSig : draw.channelSig.length ≤ maxEcdsaDerBytes

theorem length_body_build {draw : EnvelopeDraw} (typed : draw.Typed) (payload : Bytes) :
    (envelopeBody (buildEnvelope msgTypeRequest payload draw)).length =
      envelopeFrame + escaped msgTypeRequest + digits protocolVersion + digits draw.nodeId +
        digits draw.recipientNodeId + digits draw.timestamp + 4 * ((payload.length + 2) / 3) + maxSigHexBytes + 160 := by
  have signature : (utf8 (toHex draw.channelSig)).length ≤ maxSigHexBytes := by
    have bound := typed.channelSig
    rw [length_utf8_toHex, maxSigHexBytes]
    omega
  have bare : escaped (toHex draw.channelSig) = (utf8 (toHex draw.channelSig)).length := by
    rw [escaped_toHex, length_utf8_toHex]
  have payloads : escaped (String.ofList (base64 payload)) = 4 * ((payload.length + 2) / 3) := by
    rw [escaped_bare (base64_bare payload).1, (base64_bare payload).2]
  rw [length_envelopeBody (e := buildEnvelope msgTypeRequest payload draw) signature bare]
  simp only [buildEnvelope, escaped_toHex, payloads, typed.walletId, typed.manifestHash, typed.nonce]
  omega

theorem digits_le {n k : Nat} (positive : 0 < k) (below : n < 10 ^ k) : digits n ≤ k :=
  (Nat.length_toDigits_le_iff (by decide) positive).mpr below

/-- The widest draw, which the size check stands for. -/
def widestDraw : EnvelopeDraw where
  walletId := List.replicate 32 0
  manifestHash := List.replicate 32 0
  nodeId := 2 ^ 16 - 1
  recipientNodeId := 2 ^ 16 - 1
  timestamp := 2 ^ 64 - 1
  nonce := List.replicate 16 0
  channelSig := List.replicate maxEcdsaDerBytes 0

theorem widestDraw_typed : widestDraw.Typed := by
  refine ⟨?_, ?_, ?_, ?_, ?_, ?_, ?_⟩ <;> simp [widestDraw]

theorem sizingEnvelope_eq (request : TaggedRequest) :
    sizingEnvelope request = buildEnvelope msgTypeRequest (requestPayload request) widestDraw := by
  simp only [sizingEnvelope, buildEnvelope, widestDraw, toHex_zeros, maxSigHexBytes, maxEcdsaDerBytes, Nat.reduceMul]

/-- No draw has a longer body than the widest. -/
theorem length_body_le_widest {draw : EnvelopeDraw} (typed : draw.Typed) (payload : Bytes) :
    (envelopeBody (buildEnvelope msgTypeRequest payload draw)).length ≤
      (envelopeBody (buildEnvelope msgTypeRequest payload widestDraw)).length := by
  have sender : digits draw.nodeId ≤ 5 := digits_le (by decide) (Nat.lt_trans typed.nodeId (by decide))
  have recipient : digits draw.recipientNodeId ≤ 5 :=
    digits_le (by decide) (Nat.lt_trans typed.recipientNodeId (by decide))
  have time : digits draw.timestamp ≤ 20 := digits_le (by decide) (Nat.lt_trans typed.timestamp (by decide))
  have id : digits (2 ^ 16 - 1) = 5 := by decide
  have latest : digits (2 ^ 64 - 1) = 20 := by decide
  rw [length_body_build typed, length_body_build widestDraw_typed]
  simp only [widestDraw, id, latest]
  omega

/-- A relayed spend has one length whatever its pin, its nonce and its signature are, in its payload and
in the envelope around it; a peer decodes the request that was sent; and the size check accepts a request
exactly when every envelope that can be built for it is within the limit. -/
theorem relayed_spends_uniform :
    (∀ request request' : SignRequest, request.Bounded → request'.Bounded →
        { request with pin := request'.pin, nonce := request'.nonce, coordSig := request'.coordSig } = request' →
        (requestPayload (.spend request)).length = (requestPayload (.spend request')).length ∧
          ∀ draw draw' : EnvelopeDraw, draw.Typed → draw'.Typed → draw.nodeId = draw'.nodeId →
            draw.recipientNodeId = draw'.recipientNodeId → draw.timestamp = draw'.timestamp →
            (envelopeBody (buildEnvelope msgTypeRequest (requestPayload (.spend request)) draw)).length =
              (envelopeBody (buildEnvelope msgTypeRequest (requestPayload (.spend request')) draw')).length) ∧
      (∀ request : TaggedRequest, request.Typed → decodeRequest (requestPayload request) = some request) ∧
      ∀ (request : TaggedRequest) (maxMsgBytes : Nat), requestFitsChannelBody request maxMsgBytes = true ↔
        ∀ draw : EnvelopeDraw, draw.Typed →
          (envelopeBody (buildEnvelope msgTypeRequest (requestPayload request) draw)).length ≤ maxMsgBytes := by
  refine ⟨?_, fun request typed => decodeRequest_requestPayload typed, ?_⟩
  · intro request request' bounded bounded' same
    have shapes : (TaggedRequest.spend request).shape = (TaggedRequest.spend request').shape := by
      rw [← same]
      rfl
    have payloads : (requestPayload (.spend request)).length = (requestPayload (.spend request')).length := by
      rw [length_requestPayload_spend bounded, length_requestPayload_spend bounded', shapes]
      rfl
    refine ⟨payloads, ?_⟩
    intro draw draw' typed typed' sender recipient time
    rw [length_body_build typed, length_body_build typed', payloads, sender, recipient, time]
  · intro request maxMsgBytes
    rw [requestFitsChannelBody, decide_eq_true_eq, sizingEnvelope_eq]
    constructor
    · intro fits draw typed
      exact Nat.le_trans (length_body_le_widest typed _) fits
    · intro every
      exact every widestDraw widestDraw_typed

namespace Sample

/-- A spend whose pin needs escapes in JSON, or not. -/
def pinnedSpend (pin nonce : String) : SignRequest := ⟨"spend", "escape", ["bump"], pin, nonce, 5000, 1, "30"⟩

theorem pinnedSpend_bounded {pin nonce : String} (short : (utf8 pin).length ≤ maxPinBytes)
    (bounded : (utf8 nonce).length ≤ maxCoordNonceBytes) : (pinnedSpend pin nonce).Bounded where
  pin := short
  nonce := bounded
  coordSig := (by decide : "30".toList.length ≤ maxSigHexBytes)
  hex := List.all_eq_true.mp (by decide : "30".toList.all (fun c => (hexValue c).isSome) = true)

/-- Neither a quote in the pin nor a longer nonce shows in the length, and the peer reads both back. -/
theorem relayed_spends_uniform_sample :
    (requestPayload (.spend (pinnedSpend "1\"1" "n"))).length = (requestPayload (.spend (pinnedSpend "2222" "n12"))).length ∧
      (envelopeBody (buildEnvelope msgTypeRequest (requestPayload (.spend (pinnedSpend "1\"1" "n"))) widestDraw)).length =
        (envelopeBody
          (buildEnvelope msgTypeRequest (requestPayload (.spend (pinnedSpend "2222" "n12"))) widestDraw)).length ∧
      decodeRequest (requestPayload (.spend (pinnedSpend "1\"1" "n"))) = some (.spend (pinnedSpend "1\"1" "n")) := by
  obtain ⟨uniform, reads, _⟩ := relayed_spends_uniform
  have same := uniform (pinnedSpend "1\"1" "n") (pinnedSpend "2222" "n12") (pinnedSpend_bounded (by decide) (by decide))
    (pinnedSpend_bounded (by decide) (by decide)) rfl
  exact ⟨same.1, same.2 widestDraw widestDraw widestDraw_typed widestDraw_typed rfl rfl rfl,
    reads (.spend (pinnedSpend "1\"1" "n")) ⟨by decide, by decide⟩⟩

end Sample

end BtcPolicy.Node
