import BtcPolicy.Encoding
import BtcPolicy.Lib.Word
import BtcPolicy.Node.State

/-! What the coordinator signs: the tagged, length-prefixed bytes of a request under the vault's wallet id.
The bytes determine the request, and the buffer they are written to is reserved at its exact size, so a
pin is never left behind in one that was outgrown. -/

namespace BtcPolicy.Node
open Word Bitcoin Hex Codec

def coordRequestTag : String := "btc-policy/coord-request/v0"

/-- The two writes of `push_var`. -/
def varWrites (text : String) : List Bytes := [leBytes 4 (utf8 text).length, utf8 text]

namespace CoordRequest

def spendTag : UInt8 := 0x01
def refreshTag : UInt8 := 0x02

/-- What `canonical_bytes` appends to its buffer, in order. -/
def writes : CoordRequest → List Bytes
  | .spend spendPsbt escapePsbt escapeBumps pin nonce expiry policyVersion =>
    [[spendTag]] ++ varWrites spendPsbt ++ varWrites escapePsbt ++ [leBytes 4 escapeBumps.length] ++
      escapeBumps.flatMap varWrites ++ varWrites pin ++ varWrites nonce ++ [leBytes 8 expiry, leBytes 4 policyVersion]
  | .refresh refreshPsbt nonce expiry policyVersion =>
    [[refreshTag]] ++ varWrites refreshPsbt ++ varWrites nonce ++ [leBytes 8 expiry, leBytes 4 policyVersion]

def canonicalBytes (request : CoordRequest) : Bytes := request.writes.flatten

/-- The size reserved before the first write. -/
def capacity : CoordRequest → Nat
  | .spend spendPsbt escapePsbt escapeBumps pin nonce _ _ =>
    let ladder := escapeBumps.foldl (fun total bump => satAdd total ((utf8 bump).length + 4)) 0
    satAdd (satAdd (satAdd (satAdd (satAdd 33 (utf8 spendPsbt).length) (utf8 escapePsbt).length) ladder)
      (utf8 pin).length) (utf8 nonce).length
  | .refresh refreshPsbt nonce _ _ => satAdd (satAdd 21 (utf8 refreshPsbt).length) (utf8 nonce).length

/-- The bytes `auth_digest` hashes. -/
def authPreimage (request : CoordRequest) (walletId : Bytes) : Bytes := walletId ++ request.canonicalBytes

def authDigest (lib : Library) (request : CoordRequest) (walletId : Bytes) : Bytes :=
  lib.taggedHash coordRequestTag (request.authPreimage walletId)

end CoordRequest

/-- A `Vec` and whether it has had to move: a write past its capacity reallocates. -/
structure Buffer where
  capacity : Nat
  bytes : Bytes
  moved : Bool

def Buffer.withCapacity (capacity : Nat) : Buffer := ⟨capacity, [], false⟩

def Buffer.extendFromSlice (buffer : Buffer) (chunk : Bytes) : Buffer :=
  { buffer with
    bytes := buffer.bytes ++ chunk
    moved := buffer.moved || decide (buffer.capacity < (buffer.bytes ++ chunk).length) }

/-- Writes that fit together fit one by one. -/
theorem extend_within (buffer : Buffer) (chunks : List Bytes) (still : buffer.moved = false)
    (room : (buffer.bytes ++ chunks.flatten).length ≤ buffer.capacity) :
    chunks.foldl Buffer.extendFromSlice buffer = { buffer with bytes := buffer.bytes ++ chunks.flatten } := by
  induction chunks generalizing buffer with
  | nil => simp
  | cons chunk chunks ih =>
    have fits : (buffer.bytes ++ chunk).length ≤ buffer.capacity := by
      simp only [List.flatten_cons, List.length_append] at room ⊢
      omega
    have stays : (buffer.extendFromSlice chunk).moved = false := by
      simp only [Buffer.extendFromSlice, still, Bool.false_or, decide_eq_false_iff_not]
      exact Nat.not_lt.mpr fits
    rw [List.foldl_cons, ih (buffer.extendFromSlice chunk) stays]
    · cases buffer
      simp only [Buffer.extendFromSlice, List.append_assoc, List.flatten_cons, Buffer.mk.injEq, true_and] at stays ⊢
      exact stays.trans still.symm
    · simpa [Buffer.extendFromSlice] using room

/-! ### The reserved size -/

theorem length_flatten_varWrites (text : String) : (varWrites text).flatten.length = (utf8 text).length + 4 := by
  simp [varWrites]
  omega

theorem length_flatten_ladder (bumps : List String) :
    (bumps.flatMap varWrites).flatten.length = (bumps.map (fun bump => (utf8 bump).length + 4)).sum := by
  induction bumps with
  | nil => rfl
  | cons bump bumps ih =>
    rw [List.flatMap_cons, List.flatten_append, List.length_append, length_flatten_varWrites, ih]
    rfl

/-- The reserved size is the length written, capped at the largest word. -/
theorem CoordRequest.capacity_eq (request : CoordRequest) :
    request.capacity = min request.canonicalBytes.length maxWord := by
  cases request with
  | spend spendPsbt escapePsbt escapeBumps pin nonce expiry policyVersion =>
    have ladder : escapeBumps.foldl (fun total bump => satAdd total ((utf8 bump).length + 4)) 0 =
        satAdd 0 (escapeBumps.map (fun bump => (utf8 bump).length + 4)).sum :=
      foldl_eq_satAdd (fun _ _ _ => rfl) escapeBumps 0 (Nat.zero_le _)
    simp only [capacity, canonicalBytes, writes, ladder, List.flatten_append, List.length_append,
      length_flatten_varWrites, length_flatten_ladder, List.flatten_cons, List.flatten_nil, List.length_cons,
      List.length_nil, length_leBytes, List.append_nil]
    unfold satAdd
    omega
  | refresh refreshPsbt nonce expiry policyVersion =>
    simp only [capacity, canonicalBytes, writes, List.flatten_append, List.length_append, length_flatten_varWrites,
      List.flatten_cons, List.flatten_nil, List.length_cons, List.length_nil, length_leBytes, List.append_nil]
    unfold satAdd
    omega

/-! ### The bytes determine the request -/

/-- The field lengths and the ladder are below `2 ^ 32`; the numbers are a `u64` and a `u32`. -/
def CoordRequest.Encodable : CoordRequest → Prop
  | .spend spendPsbt escapePsbt escapeBumps pin nonce expiry policyVersion =>
    Short spendPsbt ∧ Short escapePsbt ∧ (escapeBumps.length < 2 ^ 32 ∧ ∀ bump ∈ escapeBumps, Short bump) ∧
      Short pin ∧ Short nonce ∧ expiry < 2 ^ 64 ∧ policyVersion < 2 ^ 32
  | .refresh refreshPsbt nonce expiry policyVersion =>
    Short refreshPsbt ∧ Short nonce ∧ expiry < 2 ^ 64 ∧ policyVersion < 2 ^ 32

theorem varWrites_delimited : SelfDelimiting Short (fun text => (varWrites text).flatten) := by
  have written : (fun text => (varWrites text).flatten) = fun text => pushVar (utf8 text) := by
    funext text
    simp [varWrites, pushVar]
  rw [written]
  exact pushVar_utf8_delimited

/-- The ladder under its count. -/
theorem ladder_delimited :
    SelfDelimiting (fun bumps : List String => bumps.length < 2 ^ 32 ∧ ∀ bump ∈ bumps, Short bump)
      (fun bumps => leBytes 4 bumps.length ++ (bumps.flatMap varWrites).flatten) := by
  have rungs : (fun bumps : List String => leBytes 4 bumps.length ++ (bumps.flatMap varWrites).flatten) =
      fun bumps => leBytes 4 bumps.length ++ bumps.flatMap (fun bump => (varWrites bump).flatten) := by
    funext bumps
    simp [List.flatMap, List.flatten_flatten, Function.comp_def]
  rw [rungs]
  exact varWrites_delimited.counted (leBytes_delimited 4)

theorem CoordRequest.canonicalBytes_injective {request request' : CoordRequest} (first : request.Encodable)
    (second : request'.Encodable) (same : request.canonicalBytes = request'.canonicalBytes) : request = request' := by
  cases request with
  | spend spendPsbt escapePsbt escapeBumps pin nonce expiry policyVersion =>
    cases request' with
    | spend spendPsbt' escapePsbt' escapeBumps' pin' nonce' expiry' policyVersion' =>
      obtain ⟨f1, f2, f3, f4, f5, f6, f7⟩ := first
      obtain ⟨s1, s2, s3, s4, s5, s6, s7⟩ := second
      simp only [canonicalBytes, writes, List.flatten_append, List.flatten_cons, List.flatten_nil, List.append_nil,
        List.append_assoc, List.append_cancel_left_eq] at same
      obtain ⟨spend, same⟩ := varWrites_delimited _ _ f1 s1 _ _ same
      obtain ⟨escape, same⟩ := varWrites_delimited _ _ f2 s2 _ _ same
      rw [← List.append_assoc, ← List.append_assoc (leBytes 4 escapeBumps'.length)] at same
      obtain ⟨ladder, same⟩ := ladder_delimited _ _ f3 s3 _ _ same
      obtain ⟨pins, same⟩ := varWrites_delimited _ _ f4 s4 _ _ same
      obtain ⟨nonces, same⟩ := varWrites_delimited _ _ f5 s5 _ _ same
      obtain ⟨expiries, same⟩ := leBytes_delimited 8 _ _ f6 s6 _ _ same
      have versions := leBytes_injective 4 f7 s7 same
      simp only [spend, escape, ladder, pins, nonces, expiries, versions]
    | refresh refreshPsbt' nonce' expiry' policyVersion' =>
      simp [canonicalBytes, writes, spendTag, refreshTag] at same
  | refresh refreshPsbt nonce expiry policyVersion =>
    cases request' with
    | spend spendPsbt' escapePsbt' escapeBumps' pin' nonce' expiry' policyVersion' =>
      simp [canonicalBytes, writes, spendTag, refreshTag] at same
    | refresh refreshPsbt' nonce' expiry' policyVersion' =>
      obtain ⟨f1, f2, f3, f4⟩ := first
      obtain ⟨s1, s2, s3, s4⟩ := second
      simp only [canonicalBytes, writes, List.flatten_append, List.flatten_cons, List.flatten_nil, List.append_nil,
        List.append_assoc, List.append_cancel_left_eq] at same
      obtain ⟨refresh, same⟩ := varWrites_delimited _ _ f1 s1 _ _ same
      obtain ⟨nonces, same⟩ := varWrites_delimited _ _ f2 s2 _ _ same
      obtain ⟨expiries, same⟩ := leBytes_delimited 8 _ _ f3 s3 _ _ same
      have versions := leBytes_injective 4 f4 s4 same
      simp only [refresh, nonces, expiries, versions]

/-- The two variants differ in their first byte, whatever the lengths. -/
theorem CoordRequest.canonicalBytes_ne_of_variant {request request' : CoordRequest} (spend : request.isSpend = true)
    (refresh : request'.isSpend = false) : request.canonicalBytes ≠ request'.canonicalBytes := by
  intro same
  cases request <;> cases request' <;>
    simp_all [canonicalBytes, writes, spendTag, refreshTag, CoordRequest.isSpend]

/-- Under one wallet the signed bytes determine the request. -/
theorem CoordRequest.authPreimage_injective {request request' : CoordRequest} {walletId : Bytes}
    (first : request.Encodable) (second : request'.Encodable)
    (same : request.authPreimage walletId = request'.authPreimage walletId) : request = request' :=
  canonicalBytes_injective first second (List.append_cancel_left same)

/-! ### The digest of a node -/

/-- The node's digest is the one computed here. -/
def NodeConfig.CodeDigest (node : NodeConfig) : Prop :=
  ∀ request walletId, node.rules.authDigest request walletId = request.authDigest node.lib walletId

section Digest

variable {node : NodeConfig} (code : node.CodeDigest)
include code

/-- The signature check passes on nothing but a signature of the pinned key over the request under this wallet. -/
theorem verifyCoordSignature_ok_iff (request : CoordRequest) (coordSig : String) :
    node.verifyCoordSignature request coordSig = .ok () ↔
      ∃ der sig, fromHex coordSig = some der ∧ node.lib.fromDer der = some sig ∧
        node.lib.verifyEcdsa (node.lib.taggedHash coordRequestTag (request.authPreimage node.walletId)) sig
          node.coordinatorAuth = true := by
  have digest : node.rules.authDigest request node.walletId =
      node.lib.taggedHash coordRequestTag (request.authPreimage node.walletId) := code request node.walletId
  unfold NodeConfig.verifyCoordSignature
  rw [digest]
  cases hex : fromHex coordSig with
  | none => simp
  | some der =>
    cases parsed : node.lib.fromDer der with
    | none => simp [parsed]
    | some sig => by_cases verified : node.lib.verifyEcdsa (node.lib.taggedHash coordRequestTag
        (request.authPreimage node.walletId)) sig node.coordinatorAuth = true <;> simp [parsed, verified]

variable (injective : Function.Injective (node.lib.taggedHash coordRequestTag))
include injective

theorem authDigest_injective {request request' : CoordRequest} (first : request.Encodable)
    (second : request'.Encodable)
    (same : node.rules.authDigest request node.walletId = node.rules.authDigest request' node.walletId) :
    request = request' := by
  rw [code, code] at same
  exact CoordRequest.authPreimage_injective first second (injective same)

/-- A carrier names one request of its kind: only a spend's digest is stretched. -/
theorem armCarrierId_injective (stretching : Function.Injective node.rules.stretch)
    (naming : Function.Injective (node.lib.taggedHash "btc-policy/vault-node/arm-carrier/v0"))
    {request request' : CoordRequest} (first : request.Encodable) (second : request'.Encodable)
    (kind : request.isSpend = request'.isSpend) (same : node.armCarrierId request = node.armCarrierId request') :
    request = request' := by
  apply authDigest_injective code injective first second
  have digests := naming (toHex_injective same)
  rw [kind] at digests
  split_ifs at digests with spend
  · exact stretching digests
  · exact digests

end Digest

/-- What the coordinator signs is the wallet id and the request, nothing less; a spend and a refresh never
share it; and the buffer it is written to is reserved at its length and never moves. The last two are of
any byte string a `Vec` can hold. -/
theorem coordinator_signature_binds_request :
    (∀ (request request' : CoordRequest) (walletId walletId' : Bytes), request.Encodable → request'.Encodable →
        walletId.length = 32 → walletId'.length = 32 →
        (request.authPreimage walletId = request'.authPreimage walletId' ↔
          walletId = walletId' ∧ request = request')) ∧
      (∀ (request request' : CoordRequest) (walletId walletId' : Bytes), request.isSpend = true →
        request'.isSpend = false → walletId.length = 32 → walletId'.length = 32 →
        request.authPreimage walletId ≠ request'.authPreimage walletId') ∧
      ∀ request : CoordRequest, request.canonicalBytes.length ≤ maxWord →
        request.capacity = request.canonicalBytes.length ∧
          request.writes.foldl Buffer.extendFromSlice (Buffer.withCapacity request.capacity) =
            ⟨request.capacity, request.canonicalBytes, false⟩ := by
  refine ⟨?_, ?_, ?_⟩
  · intro request request' walletId walletId' first second wallet wallet'
    constructor
    · intro same
      obtain ⟨wallets, bodies⟩ := selfDelimiting_fixed 32 _ _ wallet wallet' _ _ same
      exact ⟨wallets, CoordRequest.canonicalBytes_injective first second bodies⟩
    · rintro ⟨rfl, rfl⟩
      rfl
  · intro request request' walletId walletId' spend refresh wallet wallet' same
    obtain ⟨_, bodies⟩ := selfDelimiting_fixed 32 _ _ wallet wallet' _ _ same
    exact CoordRequest.canonicalBytes_ne_of_variant spend refresh bodies
  · intro request held
    have tight : request.capacity = request.canonicalBytes.length := by
      rw [request.capacity_eq, Nat.min_eq_left held]
    refine ⟨tight, ?_⟩
    rw [extend_within (Buffer.withCapacity request.capacity) request.writes rfl]
    · rfl
    · rw [show (Buffer.withCapacity request.capacity).capacity = request.capacity from rfl, tight]
      exact Nat.le_refl _

namespace Sample

def pinned (pin : String) : CoordRequest := .spend "spend" "escape" ["bump"] pin "n1" 5000 1

theorem pinned_encodable {pin : String} (short : Short pin) : (pinned pin).Encodable := by
  have fields : Short "spend" ∧ Short "escape" ∧ Short "bump" ∧ Short "n1" := by
    unfold Short
    decide
  obtain ⟨spend, escape, bump, nonce⟩ := fields
  exact ⟨spend, escape, ⟨by decide, by simpa using bump⟩, short, nonce, by decide, by decide⟩

/-- Another pin is another preimage, a refresh has another one still, and the buffer of the spend never moves. -/
theorem coordinator_signature_binds_pin :
    (pinned "1111").authPreimage (List.replicate 32 1) ≠ (pinned "2222").authPreimage (List.replicate 32 1) ∧
      (pinned "1111").authPreimage (List.replicate 32 1) ≠
        (CoordRequest.refresh "spend" "n1" 5000 1).authPreimage (List.replicate 32 1) ∧
      (pinned "1111").writes.foldl Buffer.extendFromSlice (Buffer.withCapacity (pinned "1111").capacity) =
        ⟨(pinned "1111").capacity, (pinned "1111").canonicalBytes, false⟩ := by
  obtain ⟨binds, separates, sized⟩ := coordinator_signature_binds_request
  refine ⟨?_, ?_, ?_⟩
  · intro same
    have pins : Short "1111" ∧ Short "2222" := by
      unfold Short
      decide
    obtain ⟨_, requests⟩ := (binds (pinned "1111") (pinned "2222") _ _ (pinned_encodable pins.1)
      (pinned_encodable pins.2) (by decide) (by decide)).mp same
    exact absurd requests (by decide)
  · exact separates (pinned "1111") _ _ _ rfl rfl (by decide) (by decide)
  · exact (sized (pinned "1111") (by decide)).2

end Sample

end BtcPolicy.Node
