import BtcPolicy.Lib.JsonExtent
import BtcPolicy.Manifest
import BtcPolicy.Channel.Signatures
import BtcPolicy.Node.Payload

/-! An envelope on its way in. The body is read back, its fields are held against the vault and its signature is
verified over them, before anything it carries is looked at. -/

namespace BtcPolicy.Node
open Bitcoin Hex Channel
open Manifest (EnvelopeFields envelopePreimage envelopePreimage_injective Role)

/-! ### Base64 -/

def base64Value (c : Char) : Option Nat :=
  if 65 ≤ c.toNat ∧ c.toNat ≤ 90 then some (c.toNat - 65)
  else if 97 ≤ c.toNat ∧ c.toNat ≤ 122 then some (c.toNat - 71)
  else if 48 ≤ c.toNat ∧ c.toNat ≤ 57 then some (c.toNat + 4)
  else if c = '+' then some 62
  else if c = '/' then some 63
  else none

/-- Three bytes from four characters. -/
def base64Group (a b c d : Char) : Option Bytes := do
  let a ← base64Value a
  let b ← base64Value b
  let c ← base64Value c
  let d ← base64Value d
  pure [UInt8.ofNat (4 * a + b / 16), UInt8.ofNat (16 * (b % 16) + c / 4), UInt8.ofNat (64 * (c % 4) + d)]

/-- The last four characters: the bits that the padding cuts off are zero. -/
def base64Last (a b c d : Char) : Option Bytes :=
  if d ≠ '=' then base64Group a b c d
  else if c ≠ '=' then do
    let a ← base64Value a
    let b ← base64Value b
    let c ← base64Value c
    if c % 4 = 0 then some [UInt8.ofNat (4 * a + b / 16), UInt8.ofNat (16 * (b % 16) + c / 4)] else none
  else do
    let a ← base64Value a
    let b ← base64Value b
    if b % 16 = 0 then some [UInt8.ofNat (4 * a + b / 16)] else none

/-- `STANDARD.decode_vec`: the padding must be there, and at the end only. -/
def base64Decode : List Char → Option Bytes
  | [] => some []
  | a :: b :: c :: d :: rest =>
    if rest.isEmpty then base64Last a b c d
    else do
      let group ← base64Group a b c d
      let tail ← base64Decode rest
      pure (group ++ tail)
  | _ => none

/-! ### The structs in a body -/

def u16Of : Json → Option Nat := Json.toNat? (2 ^ 16)

def envelopeNames : List String :=
  ["msg_type", "protocol_version", "wallet_id", "manifest_hash", "sender_node_id", "recipient_node_id", "payload_b64",
    "nonce", "timestamp", "channel_sig"]

def Envelope.ofJson (json : Json) : Option Envelope := do
  let members ← membersOf envelopeNames json
  let msgType ← required textOf members "msg_type"
  let protocolVersion ← required u32Of members "protocol_version"
  let walletId ← required textOf members "wallet_id"
  let manifestHash ← required textOf members "manifest_hash"
  let senderNodeId ← required u16Of members "sender_node_id"
  let recipientNodeId ← required u16Of members "recipient_node_id"
  let payloadB64 ← required textOf members "payload_b64"
  let nonce ← required textOf members "nonce"
  let timestamp ← required u64Of members "timestamp"
  let channelSig ← required textOf members "channel_sig"
  pure ⟨msgType, protocolVersion, walletId, manifestHash, senderNodeId, recipientNodeId, payloadB64, nonce, timestamp,
    channelSig⟩

def partialNames : List String :=
  ["commitment_id", "wallet_id", "txid", "input", "signer_node_id", "sighash_type", "spend_purpose", "user_sig_hash",
    "partial_sig"]

def partialJson (p : PartialPayload) : Json :=
  .object [(utf8 "commitment_id", jsonText p.commitmentId), (utf8 "wallet_id", jsonText p.walletId),
    (utf8 "txid", jsonText p.txid), (utf8 "input", Json.natural p.input),
    (utf8 "signer_node_id", Json.natural p.signerNodeId), (utf8 "sighash_type", Json.natural p.sighashType),
    (utf8 "spend_purpose", jsonText p.spendPurpose), (utf8 "user_sig_hash", jsonText p.userSigHash),
    (utf8 "partial_sig", jsonText p.partialSig)]

def partialOfJson (json : Json) : Option PartialPayload := do
  let members ← membersOf partialNames json
  let commitmentId ← required textOf members "commitment_id"
  let walletId ← required textOf members "wallet_id"
  let txid ← required textOf members "txid"
  let input ← required u32Of members "input"
  let signerNodeId ← required u16Of members "signer_node_id"
  let sighashType ← required u32Of members "sighash_type"
  let spendPurpose ← required textOf members "spend_purpose"
  let userSigHash ← required textOf members "user_sig_hash"
  let partialSig ← required textOf members "partial_sig"
  pure ⟨commitmentId, walletId, txid, input, signerNodeId, sighashType, spendPurpose, userSigHash, partialSig⟩

/-- `PartialPayload::to_bytes`. -/
def partialBytes (p : PartialPayload) : Bytes := toVec (partialJson p)

def decodePartial (payload : Bytes) : Option PartialPayload := do
  let json ← fromSlice payload
  partialOfJson json

def msgTypePartial : String := "partial"

/-! ### Opening and authenticating -/

/-- An envelope and what its hex says. -/
structure Opened where
  envelope : Envelope
  walletId : Bytes
  manifestHash : Bytes
  nonce : Bytes
  sigDer : Bytes
  deriving DecidableEq, Repr

/-- What the channel signature covers. -/
def Opened.fields (o : Opened) : EnvelopeFields where
  msgType := o.envelope.msgType
  protocolVersion := o.envelope.protocolVersion
  walletId := o.walletId
  manifestHash := o.manifestHash
  senderNodeId := o.envelope.senderNodeId
  recipientNodeId := o.envelope.recipientNodeId
  payloadB64 := utf8 o.envelope.payloadB64
  nonce := o.nonce
  timestamp := o.envelope.timestamp

def openEnvelope (body : Bytes) : Option Opened := do
  let json ← fromSlice body
  let e ← Envelope.ofJson json
  let walletId ← fromHexOf 32 e.walletId
  let manifestHash ← fromHexOf 32 e.manifestHash
  let nonce ← fromHexOf 16 e.nonce
  let sigDer ← fromHex e.channelSig
  pure ⟨e, walletId, manifestHash, nonce, sigDer⟩

/-- The part of the channel state that the ingress reads: the manifest it is sealed to and, for each member, the
channel key endorsed there. -/
structure Link where
  state : ChannelState
  manifestHash : Bytes
  channelKeys : List PublicKey
  keyed : channelKeys.length = state.nodes.length

/-- The digest that a channel signature signs. -/
def envelopeDigest (lib : Library) (fields : EnvelopeFields) : Bytes :=
  lib.taggedHash Role.envelope.tag (envelopePreimage fields)

def Link.verifies (link : Link) (key : PublicKey) (o : Opened) : Bool :=
  match link.state.lib.fromDer o.sigDer with
  | none => false
  | some sig => link.state.lib.verifyEcdsa (envelopeDigest link.state.lib o.fields) sig key

/-- The checks up to the signature, in order: `none` when the sender is authenticated. -/
def Link.refuse (link : Link) (o : Opened) : Option RejectReason :=
  if o.envelope.protocolVersion ≠ protocolVersion then some .badProtocolVersion
  else if o.walletId ≠ link.state.walletId then some .wrongWallet
  else if o.manifestHash ≠ link.manifestHash then some .wrongManifest
  else if o.envelope.recipientNodeId ≠ link.state.nodeId then some .wrongRecipient
  else if o.envelope.senderNodeId = link.state.nodeId then some .unknownSender
  else
    match link.channelKeys[o.envelope.senderNodeId]? with
    | none => some .unknownSender
    | some key => if link.verifies key o then none else some .badChannelSig

/-- An envelope that a peer's channel key signed for this member of this vault. -/
structure Link.Signed (link : Link) (o : Opened) : Prop where
  version : o.envelope.protocolVersion = protocolVersion
  wallet : o.walletId = link.state.walletId
  manifest : o.manifestHash = link.manifestHash
  recipient : o.envelope.recipientNodeId = link.state.nodeId
  peer : o.envelope.senderNodeId ≠ link.state.nodeId
  signature : ∃ key, link.channelKeys[o.envelope.senderNodeId]? = some key ∧ link.verifies key o = true

theorem Link.refuse_eq_none {link : Link} {o : Opened} : link.refuse o = none ↔ link.Signed o := by
  unfold Link.refuse
  constructor
  · intro admitted
    split_ifs at admitted with version wallet manifest recipient self
    rw [not_not] at version wallet manifest recipient
    cases member : link.channelKeys[o.envelope.senderNodeId]? with
    | none => simp [member] at admitted
    | some key =>
      simp only [member, ite_eq_left_iff, reduceCtorEq, imp_false, not_not] at admitted
      exact ⟨version, wallet, manifest, recipient, self, key, member, admitted⟩
  · intro signed
    obtain ⟨key, member, verified⟩ := signed.signature
    rw [if_neg (not_not.mpr signed.version), if_neg (not_not.mpr signed.wallet), if_neg (not_not.mpr signed.manifest),
      if_neg (not_not.mpr signed.recipient), if_neg signed.peer, member]
    simp only [verified, if_true]

/-! ### Reading back what was written -/

theorem base64Value_base64Char : ∀ n < 64, base64Value (base64Char n) = some n := by decide

theorem base64Char_ne_padding : ∀ n < 64, base64Char n ≠ '=' := by decide

/-- The characters of three bytes read back as the three bytes. -/
theorem base64Group_encoded (a b c : UInt8) :
    base64Group (base64Char (a.toNat / 4)) (base64Char (a.toNat % 4 * 16 + b.toNat / 16))
      (base64Char (b.toNat % 16 * 4 + c.toNat / 64)) (base64Char (c.toNat % 64)) = some [a, b, c] := by
  have first := a.toNat_lt
  have second := b.toNat_lt
  have third := c.toNat_lt
  have high : 4 * (a.toNat / 4) + (a.toNat % 4 * 16 + b.toNat / 16) / 16 = a.toNat := by omega
  have middle : 16 * ((a.toNat % 4 * 16 + b.toNat / 16) % 16) + (b.toNat % 16 * 4 + c.toNat / 64) / 4 = b.toNat := by
    omega
  have low : 64 * ((b.toNat % 16 * 4 + c.toNat / 64) % 4) + c.toNat % 64 = c.toNat := by omega
  unfold base64Group
  rw [base64Value_base64Char _ (by omega), base64Value_base64Char _ (by omega), base64Value_base64Char _ (by omega),
    base64Value_base64Char _ (by omega)]
  simp only [Option.bind_eq_bind, Option.bind_some, Option.pure_def, high, middle, low, UInt8.ofNat_toNat]

theorem base64_ne_nil {bytes : Bytes} (some' : bytes ≠ []) : (base64 bytes).isEmpty = false := by
  match bytes with
  | [] => exact absurd rfl some'
  | [_] | [_, _] | _ :: _ :: _ :: _ => rfl

theorem base64Decode_base64 (bytes : Bytes) : base64Decode (base64 bytes) = some bytes := by
  induction bytes using base64.induct with
  | case1 => rfl
  | case2 a =>
    have first := a.toNat_lt
    have high : 4 * (a.toNat / 4) + a.toNat % 4 * 16 / 16 = a.toNat := by omega
    have low : a.toNat % 4 * 16 % 16 = 0 := by omega
    simp only [base64, base64Decode, List.isEmpty_nil, if_true, base64Last, ne_eq, not_true_eq_false, if_false,
      base64Value_base64Char _ (show a.toNat / 4 < 64 by omega),
      base64Value_base64Char _ (show a.toNat % 4 * 16 < 64 by omega), Option.bind_eq_bind, Option.bind_some, high, low,
      UInt8.ofNat_toNat]
  | case3 a b =>
    have first := a.toNat_lt
    have second := b.toNat_lt
    have small : b.toNat % 16 * 4 < 64 := by omega
    have high : 4 * (a.toNat / 4) + (a.toNat % 4 * 16 + b.toNat / 16) / 16 = a.toNat := by omega
    have middle : 16 * ((a.toNat % 4 * 16 + b.toNat / 16) % 16) + b.toNat % 16 * 4 / 4 = b.toNat := by omega
    have low : b.toNat % 16 * 4 % 4 = 0 := by omega
    simp only [base64, base64Decode, List.isEmpty_nil, if_true, base64Last, ne_eq, not_true_eq_false, if_false,
      base64Char_ne_padding _ small, not_false_eq_true,
      base64Value_base64Char _ (show a.toNat / 4 < 64 by omega),
      base64Value_base64Char _ (show a.toNat % 4 * 16 + b.toNat / 16 < 64 by omega), base64Value_base64Char _ small,
      Option.bind_eq_bind, Option.bind_some, high, middle, low, UInt8.ofNat_toNat]
  | case4 a b c rest ih =>
    have third := c.toNat_lt
    rw [base64, base64Decode]
    by_cases last : rest = []
    · rw [last, base64, List.isEmpty_nil, if_pos rfl, base64Last,
        if_pos (base64Char_ne_padding _ (by omega)), base64Group_encoded]
    · rw [base64_ne_nil last, if_neg (by decide), base64Group_encoded, ih]
      rfl

theorem fromHexOf_toHex {bytes : Bytes} {length : Nat} (width : bytes.length = length) :
    fromHexOf length (toHex bytes) = some bytes := by
  rw [fromHexOf, fromHex_toHex, Option.filter_some, if_pos (by simpa using width)]

/-- A struct with distinct names has the one member of each. -/
theorem filter_named {names : List String} (distinct : names.Nodup) {values : List Json} {i : Nat} {name : String}
    {value : Json} (named : names[i]? = some name) (held : values[i]? = some value) :
    ((names.map utf8).zip values).filter (fun member => decide (member.1 = utf8 name)) = [(utf8 name, value)] := by
  induction names generalizing values i with
  | nil => cases named
  | cons first rest ih =>
    obtain ⟨fresh, distinct⟩ := List.nodup_cons.mp distinct
    cases values with
    | nil => cases held
    | cons head tail =>
      rw [List.map_cons, List.zip_cons_cons]
      cases i with
      | zero =>
        cases named
        cases held
        have others : ((rest.map utf8).zip tail).filter (fun member => decide (member.1 = utf8 name)) = [] := by
          rw [List.filter_eq_nil_iff]
          intro member listed same
          obtain ⟨other, inside, key⟩ := List.mem_map.mp (List.of_mem_zip listed).1
          have equal : other = name := utf8_injective (key.trans (of_decide_eq_true same))
          exact fresh (equal ▸ inside)
        rw [List.filter_cons_of_pos (by simp), others]
      | succ i =>
        have other : first ≠ name := by
          intro same
          exact fresh (same ▸ List.mem_of_getElem? named)
        have skipped : ¬decide (utf8 first = utf8 name) = true := by
          intro same
          exact other (utf8_injective (of_decide_eq_true same))
        rw [List.filter_cons, if_neg skipped]
        exact ih distinct named held

theorem membersOf_named (names : List String) (values : List Json) :
    membersOf names (.object ((names.map utf8).zip values)) = some ((names.map utf8).zip values) := by
  apply membersOf_object
  intro member listed
  obtain ⟨name, _, key⟩ := List.mem_map.mp (List.of_mem_zip listed).1
  exact ⟨name, key.symm⟩

theorem required_named {α : Type} {read : Json → Option α} {names : List String} (distinct : names.Nodup)
    {values : List Json} {i : Nat} {name : String} {value : Json} (named : names[i]? = some name)
    (held : values[i]? = some value) : required read ((names.map utf8).zip values) name = read value := by
  rw [required, member?, filter_named distinct named held]
  rfl

def Envelope.values (e : Envelope) : List Json :=
  [jsonText e.msgType, Json.natural e.protocolVersion, jsonText e.walletId, jsonText e.manifestHash,
    Json.natural e.senderNodeId, Json.natural e.recipientNodeId, jsonText e.payloadB64, jsonText e.nonce,
    Json.natural e.timestamp, jsonText e.channelSig]

theorem Envelope.ofJson_toJson {e : Envelope} (version : e.protocolVersion < 2 ^ 32)
    (sender : e.senderNodeId < 2 ^ 16) (recipient : e.recipientNodeId < 2 ^ 16) (timestamp : e.timestamp < 2 ^ 64) :
    Envelope.ofJson e.toJson = some e := by
  have members : membersOf envelopeNames e.toJson = some ((envelopeNames.map utf8).zip e.values) :=
    membersOf_named envelopeNames e.values
  have distinct : envelopeNames.Nodup := by decide
  have text : ∀ {i : Nat} {name text : String}, envelopeNames[i]? = some name → e.values[i]? = some (jsonText text) →
      required textOf ((envelopeNames.map utf8).zip e.values) name = some text :=
    fun named held => (required_named distinct named held).trans (textOf_jsonText _)
  have number : ∀ {i n bound : Nat} {name : String}, n < bound → envelopeNames[i]? = some name →
      e.values[i]? = some (Json.natural n) →
      required (Json.toNat? bound) ((envelopeNames.map utf8).zip e.values) name = some n :=
    fun below named held => (required_named distinct named held).trans (Json.toNat?_natural below)
  rw [Envelope.ofJson, members]
  simp only [u16Of, u32Of, u64Of, Option.bind_eq_bind, Option.bind_some, Option.pure_def, text (i := 0) rfl rfl,
    number (i := 1) version rfl rfl, text (i := 2) rfl rfl, text (i := 3) rfl rfl, number (i := 4) sender rfl rfl,
    number (i := 5) recipient rfl rfl, text (i := 6) rfl rfl, text (i := 7) rfl rfl, number (i := 8) timestamp rfl rfl,
    text (i := 9) rfl rfl]

/-- What the types of a payload hold. -/
structure PartialTyped (p : PartialPayload) : Prop where
  input : p.input < 2 ^ 32
  signerNodeId : p.signerNodeId < 2 ^ 16
  sighashType : p.sighashType < 2 ^ 32

def partialValues (p : PartialPayload) : List Json :=
  [jsonText p.commitmentId, jsonText p.walletId, jsonText p.txid, Json.natural p.input, Json.natural p.signerNodeId,
    Json.natural p.sighashType, jsonText p.spendPurpose, jsonText p.userSigHash, jsonText p.partialSig]

theorem partialOfJson_partialJson {p : PartialPayload} (typed : PartialTyped p) :
    partialOfJson (partialJson p) = some p := by
  have members : membersOf partialNames (partialJson p) = some ((partialNames.map utf8).zip (partialValues p)) :=
    membersOf_named partialNames (partialValues p)
  have distinct : partialNames.Nodup := by decide
  have text : ∀ {i : Nat} {name text : String}, partialNames[i]? = some name →
      (partialValues p)[i]? = some (jsonText text) →
      required textOf ((partialNames.map utf8).zip (partialValues p)) name = some text :=
    fun named held => (required_named distinct named held).trans (textOf_jsonText _)
  have number : ∀ {i n bound : Nat} {name : String}, n < bound → partialNames[i]? = some name →
      (partialValues p)[i]? = some (Json.natural n) →
      required (Json.toNat? bound) ((partialNames.map utf8).zip (partialValues p)) name = some n :=
    fun below named held => (required_named distinct named held).trans (Json.toNat?_natural below)
  rw [partialOfJson, members]
  simp only [u16Of, u32Of, Option.bind_eq_bind, Option.bind_some, Option.pure_def, text (i := 0) rfl rfl,
    text (i := 1) rfl rfl, text (i := 2) rfl rfl, number (i := 3) typed.input rfl rfl,
    number (i := 4) typed.signerNodeId rfl rfl, number (i := 5) typed.sighashType rfl rfl, text (i := 6) rfl rfl,
    text (i := 7) rfl rfl, text (i := 8) rfl rfl]

theorem decodePartial_partialBytes {p : PartialPayload} (typed : PartialTyped p) :
    decodePartial (partialBytes p) = some p := by
  have json : fromSlice (partialBytes p) = some (partialJson p) := by
    have unpadded := fromSlice_padTo 0 (partialJson p)
    rwa [padTo, Nat.zero_sub, List.replicate_zero, List.append_nil] at unpadded
  rw [decodePartial, json, Option.bind_eq_bind, Option.bind_some, partialOfJson_partialJson typed]

/-- The envelope of a draw as its recipient opens it. -/
def openedOf (msgType : String) (payload : Bytes) (draw : EnvelopeDraw) : Opened :=
  ⟨buildEnvelope msgType payload draw, draw.walletId, draw.manifestHash, draw.nonce, draw.channelSig⟩

theorem openEnvelope_build {draw : EnvelopeDraw} (typed : draw.Typed) (msgType : String) (payload : Bytes) :
    openEnvelope (envelopeBody (buildEnvelope msgType payload draw)) = some (openedOf msgType payload draw) := by
  have json : fromSlice (envelopeBody (buildEnvelope msgType payload draw)) =
      some (buildEnvelope msgType payload draw).toJson := fromSlice_padTo _ _
  have read : Envelope.ofJson (buildEnvelope msgType payload draw).toJson = some (buildEnvelope msgType payload draw) :=
    Envelope.ofJson_toJson (show protocolVersion < 2 ^ 32 by decide) typed.nodeId typed.recipientNodeId typed.timestamp
  have wallet : fromHexOf 32 (buildEnvelope msgType payload draw).walletId = some draw.walletId :=
    fromHexOf_toHex typed.walletId
  have manifest : fromHexOf 32 (buildEnvelope msgType payload draw).manifestHash = some draw.manifestHash :=
    fromHexOf_toHex typed.manifestHash
  have nonce : fromHexOf 16 (buildEnvelope msgType payload draw).nonce = some draw.nonce := fromHexOf_toHex typed.nonce
  have signature : fromHex (buildEnvelope msgType payload draw).channelSig = some draw.channelSig :=
    fromHex_toHex draw.channelSig
  simp only [openEnvelope, json, read, wallet, manifest, nonce, signature, Option.bind_eq_bind, Option.bind_some,
    Option.pure_def, openedOf]

/-! ### What was signed is what was opened -/

/-- The strings of a body take no more bytes than the body. -/
theorem extent_of_fromSlice {body : Bytes} {json : Json} (read : fromSlice body = some json) :
    json.extent ≤ body.length := by
  have bound := Json.extent_parse read
  rwa [List.length_map] at bound

theorem extent_membersOf {names : List String} {json : Json} {members : List (List UInt8 × Json)}
    (taken : membersOf names json = some members) {name : List UInt8} {value : Json}
    (member : (name, value) ∈ members) : value.extent ≤ json.extent := by
  unfold membersOf at taken
  split at taken
  · split_ifs at taken
    cases taken
    rw [Json.extent]
    exact Json.extent_le_members member
  · split_ifs at taken
    cases taken
    rw [Json.extent]
    exact Json.extent_le_items (List.of_mem_zip member).2
  · cases taken

theorem mem_of_member? {members : List (List UInt8 × Json)} {name : String} {value : Json}
    (found : member? members name = some (some value)) : ∃ key, (key, value) ∈ members := by
  unfold member? at found
  split at found
  · cases found
  next key held single =>
    cases found
    have listed : (key, value) ∈ members.filter (fun member => decide (member.1 = utf8 name)) := by
      rw [single]
      exact List.mem_singleton_self _
    exact ⟨key, (List.mem_filter.mp listed).1⟩
  · cases found

theorem mem_of_required {α : Type} {read : Json → Option α} {members : List (List UInt8 × Json)} {name : String}
    {field : α} (taken : required read members name = some field) :
    ∃ key value, (key, value) ∈ members ∧ read value = some field := by
  obtain ⟨found, here, taken⟩ := Option.bind_eq_some_iff.mp taken
  obtain ⟨value, same, taken⟩ := Option.bind_eq_some_iff.mp taken
  subst same
  obtain ⟨key, member⟩ := mem_of_member? here
  exact ⟨key, value, member, taken⟩

/-- A text that is read has the bytes it was read from. -/
theorem utf8_of_textOf {bytes : List UInt8} {text : String} (read : textOf (.string bytes) = some text) :
    utf8 text = bytes := by
  rw [textOf, String.fromUTF8?] at read
  split_ifs at read
  cases read
  rfl

/-- A text of the struct is within the value it was read from. -/
theorem length_of_required {names : List String} {json : Json} {members : List (List UInt8 × Json)} {name text : String}
    (taken : membersOf names json = some members) (field : required textOf members name = some text) :
    (utf8 text).length ≤ json.extent := by
  obtain ⟨key, value, member, read⟩ := mem_of_required field
  have within := extent_membersOf taken member
  cases value with
  | string bytes =>
    rw [Json.extent] at within
    rwa [utf8_of_textOf read]
  | _ => cases read

theorem lt_of_required {bound n : Nat} {members : List (List UInt8 × Json)} {name : String}
    (field : required (Json.toNat? bound) members name = some n) : n < bound := by
  obtain ⟨key, value, _, read⟩ := mem_of_required field
  cases value with
  | number lexeme =>
    unfold Json.toNat? at read
    simp only at read
    split_ifs at read with small
    cases read
    exact small.2
  | _ => cases read

theorem length_of_fromHexOf {length : Nat} {text : String} {bytes : Bytes} (read : fromHexOf length text = some bytes) :
    bytes.length = length := by
  obtain ⟨_, width⟩ := Option.filter_eq_some_iff.mp read
  exact of_decide_eq_true width

/-- The fields of what was opened are within the ranges the signed form needs, short of a body of four gigabytes. -/
theorem encodable_of_open {body : Bytes} {o : Opened} (opened : openEnvelope body = some o)
    (short : body.length < 2 ^ 32) : o.fields.Encodable := by
  obtain ⟨json, parsed, opened⟩ := Option.bind_eq_some_iff.mp opened
  obtain ⟨e, read, opened⟩ := Option.bind_eq_some_iff.mp opened
  obtain ⟨walletId, wallet, opened⟩ := Option.bind_eq_some_iff.mp opened
  obtain ⟨manifestHash, manifest, opened⟩ := Option.bind_eq_some_iff.mp opened
  obtain ⟨nonce, drawn, opened⟩ := Option.bind_eq_some_iff.mp opened
  obtain ⟨sigDer, _, opened⟩ := Option.bind_eq_some_iff.mp opened
  cases opened
  have extent := extent_of_fromSlice parsed
  obtain ⟨members, taken, read⟩ := Option.bind_eq_some_iff.mp read
  obtain ⟨msgType, type, read⟩ := Option.bind_eq_some_iff.mp read
  obtain ⟨version, versions, read⟩ := Option.bind_eq_some_iff.mp read
  obtain ⟨walletText, _, read⟩ := Option.bind_eq_some_iff.mp read
  obtain ⟨manifestText, _, read⟩ := Option.bind_eq_some_iff.mp read
  obtain ⟨sender, senders, read⟩ := Option.bind_eq_some_iff.mp read
  obtain ⟨recipient, recipients, read⟩ := Option.bind_eq_some_iff.mp read
  obtain ⟨payload, payloads, read⟩ := Option.bind_eq_some_iff.mp read
  obtain ⟨nonceText, _, read⟩ := Option.bind_eq_some_iff.mp read
  obtain ⟨timestamp, times, read⟩ := Option.bind_eq_some_iff.mp read
  obtain ⟨sigText, _, read⟩ := Option.bind_eq_some_iff.mp read
  cases read
  have typeWidth := length_of_required taken type
  have payloadWidth := length_of_required taken payloads
  have nonceWidth : nonce.length = 16 := length_of_fromHexOf drawn
  constructor
  case msgType =>
    show (utf8 msgType).length < 2 ^ 32
    omega
  case payloadB64 =>
    show (utf8 payload).length < 2 ^ 32
    omega
  case nonce =>
    show nonce.length < 2 ^ 32
    omega
  case walletId => exact length_of_fromHexOf wallet
  case manifestHash => exact length_of_fromHexOf manifest
  case protocolVersion => exact lt_of_required versions
  case senderNodeId => exact lt_of_required senders
  case recipientNodeId => exact lt_of_required recipients
  case timestamp => exact lt_of_required times

/-- An envelope that is built from what the types hold, around a payload short of three gigabytes. -/
theorem encodable_build {draw : EnvelopeDraw} (typed : draw.Typed) {msgType : String} (type : (utf8 msgType).length < 2 ^ 32)
    {payload : Bytes} (short : payload.length < 3 * 2 ^ 30 - 2) : (openedOf msgType payload draw).fields.Encodable := by
  have nonce : draw.nonce.length = 16 := typed.nonce
  constructor
  case msgType => exact type
  case payloadB64 =>
    show (utf8 (String.ofList (base64 payload))).length < 2 ^ 32
    rw [utf8_bare (base64_bare payload).1, List.length_map, (base64_bare payload).2]
    omega
  case nonce =>
    show draw.nonce.length < 2 ^ 32
    omega
  case walletId => exact typed.walletId
  case manifestHash => exact typed.manifestHash
  case protocolVersion =>
    show protocolVersion < 2 ^ 32
    decide
  case senderNodeId => exact typed.nodeId
  case recipientNodeId => exact typed.recipientNodeId
  case timestamp => exact typed.timestamp

/-- An opened envelope with the fields of one that was built carries what that one carries. -/
theorem carried_of_fields {o : Opened} {msgType : String} {payload : Bytes} {draw : EnvelopeDraw}
    (same : o.fields = (openedOf msgType payload draw).fields) :
    o.envelope.msgType = msgType ∧ o.envelope.senderNodeId = draw.nodeId ∧
      base64Decode o.envelope.payloadB64.toList = some payload := by
  have text : o.envelope.payloadB64 = String.ofList (base64 payload) := utf8_injective (congrArg EnvelopeFields.payloadB64 same)
  refine ⟨congrArg EnvelopeFields.msgType same, congrArg EnvelopeFields.senderNodeId same, ?_⟩
  rw [text, String.toList_ofList]
  exact base64Decode_base64 payload

end BtcPolicy.Node
