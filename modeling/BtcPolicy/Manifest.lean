import BtcPolicy.Encoding
import BtcPolicy.HotLedger
import Mathlib.Data.String.Basic

/-! What the federation is sealed to and what its channel keys sign: the base manifest, the endorsement of
a channel key, and the envelope of a channel message. All three are written with one encoder, and each
is hashed under a tag of its own. -/

namespace BtcPolicy.Manifest
open Bitcoin Codec HotLedger

/-- `bitcoin::PublicKey`. `inner` is what `inner.serialize()` writes, whatever `compressed` says. -/
structure SealedKey where
  compressed : Bool
  inner : Bytes
  width : inner.length = 33

structure ManifestNode where
  nodeId : Nat
  signingPubkey : SealedKey
  channelPubkey : SealedKey
  endpoints : List String

inductive Network where
  | bitcoin
  | testnet
  | testnet4
  | signet
  | regtest
  deriving DecidableEq, Repr

def Network.name : Network → String
  | .bitcoin => "bitcoin"
  | .testnet => "testnet"
  | .testnet4 => "testnet4"
  | .signet => "signet"
  | .regtest => "regtest"

def supportedVaultNetworks : String := "bitcoin, signet, regtest"

/-- One byte for each network a vault can be sealed to. -/
def networkCode : Network → Except String Nat
  | .bitcoin => .ok 0x01
  | .signet => .ok 0x02
  | .regtest => .ok 0x03
  | other => .error (other.name ++ " is not a supported vault network: this manifest revision seals exactly "
      ++ supportedVaultNetworks)

/-- The arguments of `base_manifest_bytes`. -/
structure BaseManifest where
  walletId : Bytes
  protocolVersion : Nat
  coordinatorAuthPubkey : SealedKey
  nodes : List ManifestNode
  maxMsgBytes : Nat
  hotBudget : HotBudget
  hotAllowlist : List String
  escapeDescriptor : String
  maxDerivationIndex : Nat
  escapeFeerateFloor : Nat
  escapeCoveragePct : Nat
  escapeBumpMaxFeePct : Nat
  network : Network

def ManifestNode.bytes (node : ManifestNode) : Bytes :=
  leBytes 2 node.nodeId ++ node.signingPubkey.inner ++ node.channelPubkey.inner ++ pushTexts node.endpoints

/-- The order of the allowlist has no meaning, so its sorted, deduplicated form is written. Strings are
ordered by their bytes, which is their order by code points. -/
def BaseManifest.write (m : BaseManifest) (network : Nat) : Bytes :=
  m.walletId ++ leBytes 4 m.protocolVersion ++ m.coordinatorAuthPubkey.inner ++ leBytes 8 m.maxMsgBytes ++
    leBytes 8 m.hotBudget.maxPerTxSat ++ leBytes 8 m.hotBudget.maxPerWindowSat ++ leBytes 8 m.hotBudget.windowSecs ++
    pushTexts (listing m.hotAllowlist) ++ pushVar (utf8 m.escapeDescriptor) ++ leBytes 4 m.maxDerivationIndex ++
    leBytes 8 m.escapeFeerateFloor ++ leBytes 1 m.escapeCoveragePct ++ leBytes 1 m.escapeBumpMaxFeePct ++
    leBytes 1 network ++ (leBytes 4 m.nodes.length ++ m.nodes.flatMap ManifestNode.bytes)

def baseManifestBytes (m : BaseManifest) : Except String Bytes := do
  let network ← networkCode m.network
  pure (m.write network)

/-- The arguments of `endorsement_bytes`. -/
structure Endorsement where
  walletId : Bytes
  manifestHash : Bytes
  nodeId : Nat
  channelPubkey : SealedKey
  protocolVersion : Nat
  endpoints : List String

def endorsementBytes (e : Endorsement) : Bytes :=
  e.walletId ++ e.manifestHash ++ leBytes 2 e.nodeId ++ e.channelPubkey.inner ++ leBytes 4 e.protocolVersion ++
    pushTexts e.endpoints

/-- The arguments of `envelope_preimage`. -/
structure EnvelopeFields where
  msgType : String
  protocolVersion : Nat
  walletId : Bytes
  manifestHash : Bytes
  senderNodeId : Nat
  recipientNodeId : Nat
  payloadB64 : Bytes
  nonce : Bytes
  timestamp : Nat
  deriving DecidableEq, Repr

def envelopePreimage (e : EnvelopeFields) : Bytes :=
  pushVar (utf8 e.msgType) ++ leBytes 4 e.protocolVersion ++ e.walletId ++ e.manifestHash ++
    leBytes 2 e.senderNodeId ++ leBytes 2 e.recipientNodeId ++ pushVar e.payloadB64 ++ pushVar e.nonce ++
    leBytes 8 e.timestamp

inductive Role where
  | manifest
  | endorsement
  | envelope
  deriving DecidableEq, Repr

/-- `MANIFEST_TAG`, `ENDORSEMENT_TAG` and `ENVELOPE_TAG`. -/
def Role.tag : Role → String
  | .manifest => "btc-policy/manifest/v0"
  | .endorsement => "btc-policy/channel-endorsement/v0"
  | .envelope => "btc-policy/channel-envelope/v0"

/-- What `tagged_hash` feeds to SHA-256. -/
def taggedPreimage (sha256 : Bytes → Bytes) (tag : String) (msg : Bytes) : Bytes :=
  sha256 (utf8 tag) ++ sha256 (utf8 tag) ++ msg

/-! ### The ranges of the fields -/

/-- A list of texts a count and length prefixes can describe. -/
def ShortTexts (texts : List String) : Prop := texts.length < 2 ^ 32 ∧ ∀ text ∈ texts, Short text

def ManifestNode.Encodable (node : ManifestNode) : Prop := node.nodeId < 2 ^ 16 ∧ ShortTexts node.endpoints

/-- What the types of the fields hold, with every text and every list short of `2 ^ 32`. -/
structure BaseManifest.Encodable (m : BaseManifest) : Prop where
  walletId : m.walletId.length = 32
  protocolVersion : m.protocolVersion < 2 ^ 32
  nodes : m.nodes.length < 2 ^ 32 ∧ ∀ node ∈ m.nodes, node.Encodable
  maxMsgBytes : m.maxMsgBytes < 2 ^ 64
  maxPerTxSat : m.hotBudget.maxPerTxSat < 2 ^ 64
  maxPerWindowSat : m.hotBudget.maxPerWindowSat < 2 ^ 64
  windowSecs : m.hotBudget.windowSecs < 2 ^ 64
  hotAllowlist : ShortTexts (listing m.hotAllowlist)
  escapeDescriptor : Short m.escapeDescriptor
  maxDerivationIndex : m.maxDerivationIndex < 2 ^ 32
  escapeFeerateFloor : m.escapeFeerateFloor < 2 ^ 64
  escapeCoveragePct : m.escapeCoveragePct < 2 ^ 8
  escapeBumpMaxFeePct : m.escapeBumpMaxFeePct < 2 ^ 8

structure Endorsement.Encodable (e : Endorsement) : Prop where
  walletId : e.walletId.length = 32
  manifestHash : e.manifestHash.length = 32
  nodeId : e.nodeId < 2 ^ 16
  protocolVersion : e.protocolVersion < 2 ^ 32
  endpoints : ShortTexts e.endpoints

structure EnvelopeFields.Encodable (e : EnvelopeFields) : Prop where
  msgType : Short e.msgType
  protocolVersion : e.protocolVersion < 2 ^ 32
  walletId : e.walletId.length = 32
  manifestHash : e.manifestHash.length = 32
  senderNodeId : e.senderNodeId < 2 ^ 16
  recipientNodeId : e.recipientNodeId < 2 ^ 16
  payloadB64 : e.payloadB64.length < 2 ^ 32
  nonce : e.nonce.length < 2 ^ 32
  timestamp : e.timestamp < 2 ^ 64

/-! ### What it is to seal the same federation -/

/-- Keys are compared in the form that is written. -/
def ManifestNode.sealedFields (node : ManifestNode) : Nat × Bytes × Bytes × List String :=
  (node.nodeId, node.signingPubkey.inner, node.channelPubkey.inner, node.endpoints)

/-- Agreement on every sealed field; the allowlists agree as sets. -/
structure BaseManifest.Agree (a b : BaseManifest) : Prop where
  walletId : a.walletId = b.walletId
  protocolVersion : a.protocolVersion = b.protocolVersion
  coordinatorAuthPubkey : a.coordinatorAuthPubkey.inner = b.coordinatorAuthPubkey.inner
  nodes : a.nodes.map ManifestNode.sealedFields = b.nodes.map ManifestNode.sealedFields
  maxMsgBytes : a.maxMsgBytes = b.maxMsgBytes
  hotBudget : a.hotBudget = b.hotBudget
  hotAllowlist : a.hotAllowlist.toFinset = b.hotAllowlist.toFinset
  escapeDescriptor : a.escapeDescriptor = b.escapeDescriptor
  maxDerivationIndex : a.maxDerivationIndex = b.maxDerivationIndex
  escapeFeerateFloor : a.escapeFeerateFloor = b.escapeFeerateFloor
  escapeCoveragePct : a.escapeCoveragePct = b.escapeCoveragePct
  escapeBumpMaxFeePct : a.escapeBumpMaxFeePct = b.escapeBumpMaxFeePct
  network : a.network = b.network

structure Endorsement.Agree (a b : Endorsement) : Prop where
  walletId : a.walletId = b.walletId
  manifestHash : a.manifestHash = b.manifestHash
  nodeId : a.nodeId = b.nodeId
  channelPubkey : a.channelPubkey.inner = b.channelPubkey.inner
  protocolVersion : a.protocolVersion = b.protocolVersion
  endpoints : a.endpoints = b.endpoints

/-! ### The bytes determine the fields -/

/-- Two node entries are read apart, up to the form of their keys. -/
theorem ManifestNode.bytes_delimited :
    SelfDelimiting (fun fields : Nat × Bytes × Bytes × List String => fields.1 < 2 ^ 16 ∧ fields.2.1.length = 33 ∧
        fields.2.2.1.length = 33 ∧ ShortTexts fields.2.2.2)
      (fun fields => leBytes 2 fields.1 ++ fields.2.1 ++ fields.2.2.1 ++ pushTexts fields.2.2.2) := by
  rintro ⟨nodeId, signing, channel, endpoints⟩ ⟨nodeId', signing', channel', endpoints'⟩ first second s t same
  simp only [List.append_assoc] at same
  obtain ⟨ids, same⟩ := leBytes_delimited 2 _ _ first.1 second.1 _ _ same
  obtain ⟨signings, same⟩ := selfDelimiting_fixed 33 _ _ first.2.1 second.2.1 _ _ same
  obtain ⟨channels, same⟩ := selfDelimiting_fixed 33 _ _ first.2.2.1 second.2.2.1 _ _ same
  obtain ⟨addresses, same⟩ := pushTexts_delimited _ _ first.2.2.2 second.2.2.2 _ _ same
  simp only at ids signings channels addresses
  exact ⟨by rw [ids, signings, channels, addresses], same⟩

theorem flatMap_bytes (nodes : List ManifestNode) :
    nodes.flatMap ManifestNode.bytes = (nodes.map ManifestNode.sealedFields).flatMap
      (fun fields => leBytes 2 fields.1 ++ fields.2.1 ++ fields.2.2.1 ++ pushTexts fields.2.2.2) := by
  rw [List.flatMap_map]
  rfl

/-- The node list under its count. -/
theorem nodes_agree {l m : List ManifestNode} (first : l.length < 2 ^ 32 ∧ ∀ node ∈ l, node.Encodable)
    (second : m.length < 2 ^ 32 ∧ ∀ node ∈ m, node.Encodable)
    (same : leBytes 4 l.length ++ l.flatMap ManifestNode.bytes = leBytes 4 m.length ++ m.flatMap ManifestNode.bytes) :
    l.map ManifestNode.sealedFields = m.map ManifestNode.sealedFields := by
  have readable : ∀ k : List ManifestNode, (∀ node ∈ k, node.Encodable) →
      ∀ fields ∈ k.map ManifestNode.sealedFields, fields.1 < 2 ^ 16 ∧ fields.2.1.length = 33 ∧
        fields.2.2.1.length = 33 ∧ ShortTexts fields.2.2.2 := by
    intro k each fields member
    obtain ⟨node, inside, rfl⟩ := List.mem_map.mp member
    exact ⟨(each node inside).1, node.signingPubkey.width, node.channelPubkey.width, (each node inside).2⟩
  have count : ∀ k : List ManifestNode, k.length = (k.map ManifestNode.sealedFields).length :=
    fun k => (List.length_map _).symm
  rw [flatMap_bytes, flatMap_bytes, count l, count m] at same
  apply (ManifestNode.bytes_delimited.counted (leBytes_delimited 4)).injective _ _ same
  · exact ⟨by simpa using first.1, readable l first.2⟩
  · exact ⟨by simpa using second.1, readable m second.2⟩

/-- The network byte is below 256 and names the network. -/
theorem networkCode_ok {network : Network} {code : Nat} (coded : networkCode network = .ok code) : code < 2 ^ 8 := by
  cases network <;> simp [networkCode] at coded <;> omega

theorem networkCode_injective {network network' : Network} {code : Nat} (coded : networkCode network = .ok code)
    (coded' : networkCode network' = .ok code) : network = network' := by
  cases network <;> cases network' <;> simp [networkCode] at coded coded' ⊢ <;> omega

theorem agree_of_write {a b : BaseManifest} {code code' : Nat} (first : a.Encodable) (second : b.Encodable)
    (coded : networkCode a.network = .ok code) (coded' : networkCode b.network = .ok code')
    (same : a.write code = b.write code') : a.Agree b := by
  simp only [BaseManifest.write, List.append_assoc] at same
  obtain ⟨walletId, same⟩ := selfDelimiting_fixed 32 _ _ first.walletId second.walletId _ _ same
  obtain ⟨protocol, same⟩ := leBytes_delimited 4 _ _ first.protocolVersion second.protocolVersion _ _ same
  obtain ⟨coordinator, same⟩ := selfDelimiting_fixed 33 _ _ a.coordinatorAuthPubkey.width
    b.coordinatorAuthPubkey.width _ _ same
  obtain ⟨maxMsg, same⟩ := leBytes_delimited 8 _ _ first.maxMsgBytes second.maxMsgBytes _ _ same
  obtain ⟨perTx, same⟩ := leBytes_delimited 8 _ _ first.maxPerTxSat second.maxPerTxSat _ _ same
  obtain ⟨perWindow, same⟩ := leBytes_delimited 8 _ _ first.maxPerWindowSat second.maxPerWindowSat _ _ same
  obtain ⟨window, same⟩ := leBytes_delimited 8 _ _ first.windowSecs second.windowSecs _ _ same
  obtain ⟨allowlist, same⟩ := pushTexts_delimited _ _ first.hotAllowlist second.hotAllowlist _ _ same
  obtain ⟨escape, same⟩ := pushVar_utf8_delimited _ _ first.escapeDescriptor second.escapeDescriptor _ _ same
  obtain ⟨derivation, same⟩ := leBytes_delimited 4 _ _ first.maxDerivationIndex second.maxDerivationIndex _ _ same
  obtain ⟨floor, same⟩ := leBytes_delimited 8 _ _ first.escapeFeerateFloor second.escapeFeerateFloor _ _ same
  obtain ⟨coverage, same⟩ := leBytes_delimited 1 _ _ first.escapeCoveragePct second.escapeCoveragePct _ _ same
  obtain ⟨ceiling, same⟩ := leBytes_delimited 1 _ _ first.escapeBumpMaxFeePct second.escapeBumpMaxFeePct _ _ same
  obtain ⟨codes, same⟩ := leBytes_delimited 1 _ _ (networkCode_ok coded) (networkCode_ok coded') _ _ same
  have budget : a.hotBudget = b.hotBudget := by
    cases aBudget : a.hotBudget
    cases bBudget : b.hotBudget
    simp only [aBudget, bBudget] at perTx perWindow window
    simp only [perTx, perWindow, window]
  exact ⟨walletId, protocol, coordinator, nodes_agree first.nodes second.nodes same, maxMsg, budget,
    listing_eq_iff.mp allowlist, escape, derivation, floor, coverage, ceiling,
    networkCode_injective coded (codes ▸ coded')⟩

theorem write_eq_of_agree {a b : BaseManifest} (agree : a.Agree b) (code : Nat) : a.write code = b.write code := by
  have count : a.nodes.length = b.nodes.length := by simpa using congrArg List.length agree.nodes
  simp only [BaseManifest.write, flatMap_bytes, agree.walletId, agree.protocolVersion, agree.coordinatorAuthPubkey,
    agree.nodes, agree.maxMsgBytes, agree.hotBudget, listing_eq_iff.mpr agree.hotAllowlist, agree.escapeDescriptor,
    agree.maxDerivationIndex, agree.escapeFeerateFloor, agree.escapeCoveragePct, agree.escapeBumpMaxFeePct, count]

/-- Equal bytes exactly when the manifests seal the same federation. -/
theorem baseManifestBytes_eq_iff {a b : BaseManifest} {bytes : Bytes} (first : a.Encodable) (second : b.Encodable)
    (written : baseManifestBytes a = .ok bytes) : baseManifestBytes b = .ok bytes ↔ a.Agree b := by
  unfold baseManifestBytes at written ⊢
  cases coded : networkCode a.network with
  | error message => simp [coded, bind, Except.bind] at written
  | ok code =>
    simp only [coded, bind, Except.bind, pure, Except.pure, Except.ok.injEq] at written
    subst written
    constructor
    · intro same
      cases coded' : networkCode b.network with
      | error message => simp [coded', bind, Except.bind] at same
      | ok code' =>
        simp only [coded', bind, Except.bind, pure, Except.pure, Except.ok.injEq] at same
        exact agree_of_write first second coded coded' same.symm
    · intro agree
      rw [← agree.network, coded]
      simp only [bind, Except.bind, pure, Except.pure, Except.ok.injEq]
      exact (write_eq_of_agree agree code).symm

theorem endorsementBytes_eq_iff {a b : Endorsement} (first : a.Encodable) (second : b.Encodable) :
    endorsementBytes a = endorsementBytes b ↔ a.Agree b := by
  constructor
  · intro same
    simp only [endorsementBytes, List.append_assoc] at same
    obtain ⟨walletId, same⟩ := selfDelimiting_fixed 32 _ _ first.walletId second.walletId _ _ same
    obtain ⟨manifestHash, same⟩ := selfDelimiting_fixed 32 _ _ first.manifestHash second.manifestHash _ _ same
    obtain ⟨nodeId, same⟩ := leBytes_delimited 2 _ _ first.nodeId second.nodeId _ _ same
    obtain ⟨channel, same⟩ := selfDelimiting_fixed 33 _ _ a.channelPubkey.width b.channelPubkey.width _ _ same
    obtain ⟨protocol, same⟩ := leBytes_delimited 4 _ _ first.protocolVersion second.protocolVersion _ _ same
    exact ⟨walletId, manifestHash, nodeId, channel, protocol,
      pushTexts_delimited.injective first.endpoints second.endpoints same⟩
  · intro agree
    simp only [endorsementBytes, agree.walletId, agree.manifestHash, agree.nodeId, agree.channelPubkey,
      agree.protocolVersion, agree.endpoints]

theorem envelopePreimage_injective {a b : EnvelopeFields} (first : a.Encodable) (second : b.Encodable)
    (same : envelopePreimage a = envelopePreimage b) : a = b := by
  simp only [envelopePreimage, List.append_assoc] at same
  obtain ⟨msgType, same⟩ := pushVar_utf8_delimited _ _ first.msgType second.msgType _ _ same
  obtain ⟨protocol, same⟩ := leBytes_delimited 4 _ _ first.protocolVersion second.protocolVersion _ _ same
  obtain ⟨walletId, same⟩ := selfDelimiting_fixed 32 _ _ first.walletId second.walletId _ _ same
  obtain ⟨manifestHash, same⟩ := selfDelimiting_fixed 32 _ _ first.manifestHash second.manifestHash _ _ same
  obtain ⟨sender, same⟩ := leBytes_delimited 2 _ _ first.senderNodeId second.senderNodeId _ _ same
  obtain ⟨recipient, same⟩ := leBytes_delimited 2 _ _ first.recipientNodeId second.recipientNodeId _ _ same
  obtain ⟨payload, same⟩ := pushVar_delimited _ _ first.payloadB64 second.payloadB64 _ _ same
  obtain ⟨nonce, same⟩ := pushVar_delimited _ _ first.nonce second.nonce _ _ same
  have timestamp := leBytes_injective 8 first.timestamp second.timestamp same
  cases a
  cases b
  simp only at msgType protocol walletId manifestHash sender recipient payload nonce timestamp
  simp only [msgType, protocol, walletId, manifestHash, sender, recipient, payload, nonce, timestamp]

/-- Under tags with different hashes, no byte string is hashed for two roles. -/
theorem role_of_taggedPreimage {sha256 : Bytes → Bytes} (width : ∀ msg, (sha256 msg).length = 32)
    (separates : ∀ role role' : Role, sha256 (utf8 role.tag) = sha256 (utf8 role'.tag) → role = role')
    {role role' : Role} {msg msg' : Bytes}
    (same : taggedPreimage sha256 role.tag msg = taggedPreimage sha256 role'.tag msg') : role = role' := by
  simp only [taggedPreimage, List.append_assoc] at same
  exact separates role role' (selfDelimiting_fixed 32 _ _ (width _) (width _) _ _ same).1

/-- The manifest's bytes bind the federation, the endorsement's and the envelope's bind their fields, and
the three are hashed in disjoint domains. -/
theorem preimages_bind_federation (sha256 : Bytes → Bytes) (width : ∀ msg, (sha256 msg).length = 32)
    (separates : ∀ role role' : Role, sha256 (utf8 role.tag) = sha256 (utf8 role'.tag) → role = role') :
    (∀ a b : BaseManifest, a.Encodable → b.Encodable → ∀ bytes, baseManifestBytes a = .ok bytes →
        (baseManifestBytes b = .ok bytes ↔ a.Agree b)) ∧
      (∀ a b : Endorsement, a.Encodable → b.Encodable → (endorsementBytes a = endorsementBytes b ↔ a.Agree b)) ∧
      (∀ a b : EnvelopeFields, a.Encodable → b.Encodable → (envelopePreimage a = envelopePreimage b ↔ a = b)) ∧
      ∀ (role role' : Role) (msg msg' : Bytes), role ≠ role' →
        taggedPreimage sha256 role.tag msg ≠ taggedPreimage sha256 role'.tag msg' := by
  refine ⟨?_, ?_, ?_, ?_⟩
  · intro a b first second bytes written
    exact baseManifestBytes_eq_iff first second written
  · intro a b first second
    exact endorsementBytes_eq_iff first second
  · intro a b first second
    exact ⟨envelopePreimage_injective first second, fun same => congrArg envelopePreimage same⟩
  · intro role role' msg msg' different same
    exact different (role_of_taggedPreimage width separates same)

namespace Sample

/-- SHA-256 of the three tags; elsewhere any 32 bytes will do. -/
def tagHash (msg : Bytes) : Bytes :=
  if msg = utf8 Role.manifest.tag then
    [0x23, 0x75, 0x54, 0xd3, 0x0c, 0x7b, 0x15, 0x2f, 0x59, 0xf0, 0xa1, 0x07, 0x55, 0x5f, 0x17, 0x6a,
      0x76, 0x53, 0x95, 0xa9, 0xbd, 0x36, 0x4d, 0x0f, 0x17, 0x56, 0x19, 0xcc, 0x8f, 0xca, 0xff, 0xee]
  else if msg = utf8 Role.endorsement.tag then
    [0x34, 0x03, 0x58, 0x63, 0x6c, 0xcc, 0x03, 0x20, 0xee, 0xfa, 0xa5, 0x45, 0x5b, 0xbe, 0x03, 0x20,
      0x16, 0xc9, 0x66, 0x79, 0x01, 0x63, 0x36, 0xda, 0x5f, 0x7d, 0x39, 0x8b, 0x2d, 0x45, 0xe8, 0x2c]
  else if msg = utf8 Role.envelope.tag then
    [0x1f, 0x1f, 0x0b, 0xb0, 0x63, 0x60, 0x73, 0xef, 0x36, 0x2b, 0x70, 0xac, 0xa0, 0x5e, 0x2f, 0x4f,
      0x03, 0x08, 0x34, 0xa0, 0x62, 0xbb, 0x55, 0x74, 0x2c, 0x0f, 0x7b, 0x6e, 0x27, 0x8a, 0x9d, 0xe3]
  else List.replicate 32 0

theorem length_tagHash (msg : Bytes) : (tagHash msg).length = 32 := by
  unfold tagHash
  split_ifs <;> rfl

theorem tagHash_separates (role role' : Role) (same : tagHash (utf8 role.tag) = tagHash (utf8 role'.tag)) :
    role = role' := by
  cases role <;> cases role' <;> first | rfl | exact absurd same (by decide)

theorem preimages_bind_with_tagHash :
    (∀ a b : EnvelopeFields, a.Encodable → b.Encodable → (envelopePreimage a = envelopePreimage b ↔ a = b)) ∧
      ∀ msg msg' : Bytes, taggedPreimage tagHash Role.manifest.tag msg ≠ taggedPreimage tagHash Role.envelope.tag msg' := by
  have bound := preimages_bind_federation tagHash length_tagHash tagHash_separates
  exact ⟨bound.2.2.1, fun msg msg' => bound.2.2.2 .manifest .envelope msg msg' (by decide)⟩

/-- A text of `n` NUL characters. -/
def zeros (n : Nat) : String := String.ofList (List.replicate n (Char.ofNat 0))

theorem utf8_zeros (n : Nat) : utf8 (zeros n) = List.replicate n 0 := by
  have one : String.utf8EncodeChar (Char.ofNat 0) = [0] := by decide
  have chars : (List.replicate n (Char.ofNat 0)).flatMap String.utf8EncodeChar = List.replicate n 0 := by
    induction n with
    | zero => rfl
    | succ n ih =>
      rw [List.replicate_succ, List.flatMap_cons, ih, one, List.replicate_succ]
      rfl
  unfold utf8 zeros
  rw [String.toByteArray_ofList, List.utf8Encode, chars]
  simp

/-- At a multiple of `2 ^ 32` the length prefix reads zero. -/
theorem pushVar_zeros {n : Nat} (wraps : n % 2 ^ 32 = 0) : pushVar (utf8 (zeros n)) = List.replicate (4 + n) 0 := by
  have count : leBytes 4 n = List.replicate 4 0 := by
    have b0 : n % 256 = 0 := by omega
    have b1 : n / 256 % 256 = 0 := by omega
    have b2 : n / 256 / 256 % 256 = 0 := by omega
    have b3 : n / 256 / 256 / 256 % 256 = 0 := by omega
    simp only [leBytes, b0, b1, b2, b3]
    rfl
  rw [utf8_zeros, pushVar, List.length_replicate, count, ← List.replicate_add]

/-- A manifest with one allowlisted wallet. -/
def oneWallet (wallet escapeDescriptor : String) : BaseManifest where
  walletId := List.replicate 32 1
  protocolVersion := 2
  coordinatorAuthPubkey := ⟨true, List.replicate 33 2, rfl⟩
  nodes := []
  maxMsgBytes := 65536
  hotBudget := ⟨1000, 5000, 86400⟩
  hotAllowlist := [wallet]
  escapeDescriptor := escapeDescriptor
  maxDerivationIndex := 1000
  escapeFeerateFloor := 1
  escapeCoveragePct := 90
  escapeBumpMaxFeePct := 10
  network := .regtest

theorem write_oneWallet_comm {m n : Nat} (first : m % 2 ^ 32 = 0) (second : n % 2 ^ 32 = 0) (code : Nat) :
    (oneWallet (zeros m) (zeros n)).write code = (oneWallet (zeros n) (zeros m)).write code := by
  have single : ∀ wallet : String, listing [wallet] = [wallet] := by
    intro wallet
    simp [listing, dedupRuns]
  have swapped : pushVar (utf8 (zeros m)) ++ pushVar (utf8 (zeros n)) =
      pushVar (utf8 (zeros n)) ++ pushVar (utf8 (zeros m)) := by
    rw [pushVar_zeros first, pushVar_zeros second, ← List.replicate_add, ← List.replicate_add, Nat.add_comm]
  simp only [BaseManifest.write, oneWallet, single, pushTexts, List.length_singleton, List.flatMap_cons,
    List.flatMap_nil, List.append_nil, List.append_assoc]
  rw [← List.append_assoc (pushVar _) (pushVar _), swapped, List.append_assoc]

/-- A text of `2 ^ 32` bytes wraps the length prefix: a manifest with it as its one hot wallet and no escape
descriptor has the bytes of the manifest with the two exchanged. -/
theorem manifest_collision_past_prefix :
    ∃ bytes, baseManifestBytes (oneWallet (zeros (2 ^ 32)) (zeros 0)) = .ok bytes ∧
      baseManifestBytes (oneWallet (zeros 0) (zeros (2 ^ 32))) = .ok bytes ∧
      ¬(oneWallet (zeros (2 ^ 32)) (zeros 0)).Agree (oneWallet (zeros 0) (zeros (2 ^ 32))) := by
  refine ⟨(oneWallet (zeros (2 ^ 32)) (zeros 0)).write 3, rfl, ?_, ?_⟩
  · rw [write_oneWallet_comm (by norm_num) (by norm_num)]
    rfl
  · intro agree
    have texts : zeros 0 = zeros (2 ^ 32) := agree.escapeDescriptor
    have lengths := congrArg (fun text => (utf8 text).length) texts
    simp only [utf8_zeros, List.length_replicate] at lengths
    omega

end Sample

end BtcPolicy.Manifest
