import BtcPolicy.Channel.Ingress
import BtcPolicy.Manifest
import BtcPolicy.Lib.Results
import BtcPolicy.Lib.Slots
import Mathlib.Data.List.Perm.Basic

/-! The startup of the channel: the configured entries are read into the manifest's nodes, by their ids and against the
descriptor's keys, and what the federation was sealed to is recomputed and compared. -/

namespace BtcPolicy.Startup
open Bitcoin Hex HotLedger Manifest Slots Results

/-- What is used of the key, signature and address libraries. -/
structure Primitives where
  taggedHash : String → Bytes → Bytes
  keyText : SealedKey → String
  keyText_injective : Function.Injective keyText
  keyFromStr : String → Except String SealedKey
  secretFromSlice : Bytes → Option Bytes
  publicKey : Bytes → SealedKey
  signatureFromDer : Bytes → Except String Bytes
  verifyEcdsa : Bytes → Bytes → Bytes → Bool
  SocketAddr : Type
  sameAddr : DecidableEq SocketAddr
  addrFromStr : String → Except String SocketAddr
  addrText : SocketAddr → String

structure ChannelNodeConfig where
  nodeId : Nat
  signingPubkey : String
  channelPubkey : String
  channelEndorsement : String
  endpoints : List String

/-- The `[channel]` block. -/
structure ChannelConfig where
  nodeId : Nat
  nodes : List ChannelNodeConfig
  maxActiveCandidates : Nat
  maxCandidateStoreBytes : Nat
  perPeerQuotaPerMin : Nat
  maxConcurrentChannelRequests : Nat
  maxMsgBytes : Nat
  maxResponseBytes : Nat
  perSendDeadlineSecs : Nat
  expectedManifestHash : String

/-- The arguments of `ChannelState::build`. -/
structure BuildArgs where
  cfg : ChannelConfig
  nodeSeckey : Bytes
  nodeSigningPubkey : SealedKey
  walletId : Bytes
  descriptorNodeKeys : List SealedKey
  listenPort : Nat
  coordinatorAuth : SealedKey
  hotBudget : HotBudget
  hotAllowlist : List String
  escapeDescriptor : String
  maxDerivationIndex : Nat
  escapeFeerateFloor : Nat
  escapeCoveragePct : Nat
  escapeBumpMaxFeePct : Nat
  network : Network

structure ChannelLimits where
  perPeerQuotaPerMin : Nat
  maxMsgBytes : Nat
  maxResponseBytes : Nat
  perSendDeadlineSecs : Nat

/-- What is built; the guards, the counts and the clock start empty. -/
structure ChannelState where
  nodeId : Nat
  walletId : Bytes
  manifestHash : Bytes
  channelSeckey : Bytes
  channelPubkey : SealedKey
  nodes : List ManifestNode
  store : Channel.PartialStore
  concurrency : Nat
  limits : ChannelLimits

/-- `PROTOCOL_VERSION`. -/
def protocolVersion : Nat := 2

/-- `Semaphore::MAX_PERMITS`. -/
def maxPermits : Nat := (2 ^ 64 - 1) / 8

/-- `CHANNEL_KEY_TAG`. -/
def channelKeyTag : String := "btc-policy/channel-key/v0"

instance : DecidableEq SealedKey := fun a b =>
  decidable_of_iff (a.compressed = b.compressed ∧ a.inner = b.inner) (by cases a; cases b; simp)

section Build

variable (p : Primitives) (args : BuildArgs)

/-- `None` stands for the panic when no counter gives a key. -/
def deriveChannelSeckey (nodeSeckey : Bytes) : Option Bytes :=
  (p.secretFromSlice (p.taggedHash channelKeyTag nodeSeckey)).or
    ((List.range 256).findSome? fun counter =>
      p.secretFromSlice (p.taggedHash channelKeyTag (nodeSeckey ++ [UInt8.ofNat counter])))

def channelPubkeyOf (seckey : Bytes) : SealedKey := p.publicKey seckey

def validateEndpoint (endpoint : String) : Except String p.SocketAddr :=
  match p.addrFromStr endpoint with
  | .error e => .error s!"not a canonical host:port: {e}"
  | .ok addr =>
    let expected := p.addrText addr
    let quoted := endpoint.quote
    if endpoint ≠ expected then .error s!"endpoint {quoted} is not canonical (expected {expected})"
    else .ok addr

def baseManifest (nodes : List ManifestNode) : BaseManifest where
  walletId := args.walletId
  protocolVersion := protocolVersion
  coordinatorAuthPubkey := args.coordinatorAuth
  nodes := nodes
  maxMsgBytes := args.cfg.maxMsgBytes
  hotBudget := args.hotBudget
  hotAllowlist := args.hotAllowlist
  escapeDescriptor := args.escapeDescriptor
  maxDerivationIndex := args.maxDerivationIndex
  escapeFeerateFloor := args.escapeFeerateFloor
  escapeCoveragePct := args.escapeCoveragePct
  escapeBumpMaxFeePct := args.escapeBumpMaxFeePct
  network := args.network

def computeManifestHash (m : BaseManifest) : Except String Bytes := do
  let bytes ← baseManifestBytes m
  pure (p.taggedHash Role.manifest.tag bytes)

def endorsementDigest (e : Endorsement) : Bytes := p.taggedHash Role.endorsement.tag (endorsementBytes e)

/-! ### The steps of `ChannelState::build` -/

def checkLimits : Except String Unit :=
  let entries := args.cfg.nodes.length
  let n := args.descriptorNodeKeys.length
  if maxPermits < args.cfg.maxConcurrentChannelRequests then
    .error s!"[channel] max_concurrent_channel_requests exceeds the supported maximum of {maxPermits}"
  else if args.cfg.perSendDeadlineSecs = 0 then
    .error ("[channel] per_send_deadline_secs must be greater than 0: a zero send deadline gives every outbound " ++
      "envelope a zero-duration timeout, so no request or partial ever reaches a peer and no spend can combine or broadcast")
  else if args.listenPort = 0 then
    .error "[channel] listen_port must be nonzero so the manifest pins the actual /channel bind address"
  else if entries ≠ n then
    .error s!"[channel].nodes has {entries} entries but the descriptor has {n} node keys"
  else .ok ()

/-- `windows(2).any(|keys| keys[0] == keys[1])`. -/
def anyAdjacentEqual {α : Type} [DecidableEq α] : List α → Bool
  | a :: b :: rest => decide (a = b) || anyAdjacentEqual (b :: rest)
  | _ => false

/-- Strings are ordered by their bytes, which is their order by code points. -/
def canonicalKeys : Except String (List SealedKey) :=
  let canonical := args.descriptorNodeKeys.mergeSort (fun a b => decide (p.keyText a ≤ p.keyText b))
  if anyAdjacentEqual canonical then
    .error "[channel] descriptor contains a duplicate federation node key; node_id mapping is ambiguous"
  else .ok canonical

def validateEndpoints (id : Nat) : List String → Except String Unit
  | [] => .ok ()
  | endpoint :: rest =>
    match validateEndpoint p endpoint with
    | .error e =>
      let quoted := endpoint.quote
      .error s!"[channel] node {id} endpoint {quoted}: {e}"
    | .ok _ => validateEndpoints id rest

/-- One entry, behind the checks of its id. -/
def readEntry (canonical : List SealedKey) (entry : ChannelNodeConfig) : Except String ManifestNode :=
  let id := entry.nodeId
  match p.keyFromStr entry.signingPubkey with
  | .error e => .error s!"[channel] node {id} bad signing_pubkey: {e}"
  | .ok signing =>
    match p.keyFromStr entry.channelPubkey with
    | .error e => .error s!"[channel] node {id} bad channel_pubkey: {e}"
    | .ok channelPk =>
      if canonical[id]? ≠ some signing then
        .error (s!"[channel] node {id} signing_pubkey is not the descriptor's canonical node key at position " ++ s!"{id}")
      else if channelPk.inner = args.coordinatorAuth.inner then
        .error (s!"[channel] node {id} channel_pubkey is also the coordinator_auth_pubkey: one key for both roles " ++
          "lets a single node mint coordinator requests")
      else if entry.endpoints = [] then .error s!"[channel] node {id} has no endpoints"
      else
        match validateEndpoints p id entry.endpoints with
        | .error e => .error e
        | .ok _ => .ok ⟨id, signing, channelPk, entry.endpoints⟩

/-- The loop that fills `by_id`. -/
def placeEntries (canonical : List SealedKey) :
    List ChannelNodeConfig → List (Option ManifestNode) → Except String (List (Option ManifestNode))
  | [], byId => .ok byId
  | entry :: rest, byId =>
    let id := entry.nodeId
    let n := canonical.length
    if n ≤ id then .error s!"[channel] node_id {id} out of range 0..{n}"
    else if (byId[id]?.join).isSome then .error s!"[channel] duplicate node_id {id}"
    else
      match readEntry p args canonical entry with
      | .error e => .error e
      | .ok node => placeEntries canonical rest (byId.set id (some node))

/-- Every slot has its node. -/
def collectNodes : Nat → List (Option ManifestNode) → Except String (List ManifestNode)
  | _, [] => .ok []
  | i, none :: _ => .error s!"[channel] missing node_id {i}"
  | i, some node :: rest => do
    let nodes ← collectNodes (i + 1) rest
    pure (node :: nodes)

def checkSelf (nodes : List ManifestNode) : Except String ManifestNode :=
  let selfId := args.cfg.nodeId
  let n := args.descriptorNodeKeys.length
  match nodes[selfId]? with
  | none => .error s!"[channel] node_id {selfId} out of range 0..{n}"
  | some own =>
    if own.signingPubkey ≠ args.nodeSigningPubkey then
      .error "[channel] self entry signing_pubkey does not match this node's federation signing key"
    else .ok own

def sealedHash (nodes : List ManifestNode) : Except String Bytes := do
  let manifestHash ← computeManifestHash p (baseManifest args nodes)
  match fromHexOf 32 args.cfg.expectedManifestHash with
  | none => .error "[channel] expected_manifest_hash is not 32-byte hex"
  | some expected =>
    if expected ≠ manifestHash then
      .error ("[channel] computed manifest_hash does not equal the sealed expected_manifest_hash (a max_msg_bytes, Hot " ++
        "budget, Hot-budget classification input, network, or escape_feerate_floor/escape_coverage_pct/" ++
        "escape_bump_max_fee_pct disagreeing with the federation-uniform manifest values is one cause)")
    else .ok manifestHash

def endorsementOf (manifestHash : Bytes) (node : ManifestNode) : Endorsement :=
  ⟨args.walletId, manifestHash, node.nodeId, node.channelPubkey, protocolVersion, node.endpoints⟩

/-- One turn of the loop over the nodes. -/
def checkEndorsement (manifestHash : Bytes) (node : ManifestNode) : Except String Unit :=
  let id := node.nodeId
  match args.cfg.nodes.find? (fun entry => decide (entry.nodeId = id)) with
  | none => .error "every node_id has a config entry"
  | some entry =>
    match fromHex entry.channelEndorsement with
    | none => .error s!"[channel] node {id} bad channel_endorsement hex"
    | some der =>
      match p.signatureFromDer der with
      | .error e => .error s!"[channel] node {id} channel_endorsement is not DER: {e}"
      | .ok signature =>
        if p.verifyEcdsa (endorsementDigest p (endorsementOf args manifestHash node)) signature
            node.signingPubkey.inner then .ok ()
        else .error s!"[channel] node {id} channel_endorsement does not verify against its signing key"

def checkEndorsements (manifestHash : Bytes) : List ManifestNode → Except String Unit
  | [] => .ok ()
  | node :: rest => do
    checkEndorsement p args manifestHash node
    checkEndorsements manifestHash rest

def checkChannelKey (own : ManifestNode) : Except String Bytes :=
  match deriveChannelSeckey p args.nodeSeckey with
  | none => .error "channel-key derivation exhausted the u8 retry counter (unreachable: p<2^-128 per step)"
  | some seckey =>
    if channelPubkeyOf p seckey ≠ own.channelPubkey then
      .error "[channel] locally-derived channel pubkey does not match nodes[self].channel_pubkey"
    else .ok seckey

def bindText : String :=
  let port := args.listenPort
  s!"127.0.0.1:{port}"

def isBind (bind : p.SocketAddr) (endpoint : String) : Bool :=
  match p.addrFromStr endpoint with
  | .error _ => false
  | .ok addr => letI := p.sameAddr; decide (addr = bind)

def checkBind (own : ManifestNode) : Except String Unit :=
  let text := bindText args
  match p.addrFromStr text with
  | .error e => .error s!"cannot form bind address {text}: {e}"
  | .ok bind =>
    let endpoints := ", ".intercalate (own.endpoints.map String.quote)
    let address := p.addrText bind
    if own.endpoints.any (isBind p bind) then .ok ()
    else .error s!"[channel] self endpoints [{endpoints}] do not include the daemon bind address {address}"

/-- The state of a channel that starts. -/
def channelState (manifestHash channelSeckey : Bytes) (nodes : List ManifestNode) : ChannelState where
  nodeId := args.cfg.nodeId
  walletId := args.walletId
  manifestHash := manifestHash
  channelSeckey := channelSeckey
  channelPubkey := channelPubkeyOf p channelSeckey
  nodes := nodes
  store := Channel.PartialStore.new args.cfg.maxActiveCandidates args.cfg.maxCandidateStoreBytes args.hotBudget
  concurrency := args.cfg.maxConcurrentChannelRequests
  limits := ⟨args.cfg.perPeerQuotaPerMin, args.cfg.maxMsgBytes, args.cfg.maxResponseBytes, args.cfg.perSendDeadlineSecs⟩

def build : Except String ChannelState := do
  checkLimits args
  let canonical ← canonicalKeys p args
  let byId ← placeEntries p args canonical args.cfg.nodes (List.replicate canonical.length none)
  let nodes ← collectNodes 0 byId
  let own ← checkSelf args nodes
  let manifestHash ← sealedHash p args nodes
  checkEndorsements p args manifestHash nodes
  let channelSeckey ← checkChannelKey p args own
  checkBind p args own
  pure (channelState p args manifestHash channelSeckey nodes)

end Build

/-! ### What each step accepts -/

section Canonical

variable {α : Type} [DecidableEq α] {text : α → String}

/-- In a list sorted by an injective text, equal items stand side by side. -/
theorem anyAdjacentEqual_eq_false_iff (injective : Function.Injective text) {l : List α}
    (sorted : l.Pairwise fun a b => text a ≤ text b) : anyAdjacentEqual l = false ↔ l.Nodup := by
  induction l with
  | nil => simp [anyAdjacentEqual]
  | cons a l ih =>
    cases l with
    | nil => simp [anyAdjacentEqual]
    | cons b rest =>
      obtain ⟨first, sorted⟩ := List.pairwise_cons.mp sorted
      rw [anyAdjacentEqual, Bool.or_eq_false_iff, ih sorted, decide_eq_false_iff_not,
        @List.nodup_cons _ a (b :: rest)]
      refine and_congr_left fun _ => not_congr ⟨?_, ?_⟩
      · rintro rfl
        exact List.mem_cons_self
      · intro again
        obtain same | later := List.mem_cons.mp again
        · exact same
        · have below := (List.pairwise_cons.mp sorted).1 a later
          exact injective (le_antisymm (first b List.mem_cons_self) below)

end Canonical

section Steps

variable {p : Primitives} {args : BuildArgs}

/-- The settings that are no identity. -/
structure WithinLimits (args : BuildArgs) : Prop where
  concurrency : args.cfg.maxConcurrentChannelRequests ≤ maxPermits
  deadline : args.cfg.perSendDeadlineSecs ≠ 0
  port : args.listenPort ≠ 0

theorem checkLimits_ok_iff :
    checkLimits args = .ok () ↔ WithinLimits args ∧ args.cfg.nodes.length = args.descriptorNodeKeys.length := by
  unfold checkLimits
  constructor
  · intro passed
    simp only at passed
    split_ifs at passed with permits deadline port members
    exact ⟨⟨Nat.le_of_not_lt permits, deadline, port⟩, not_not.mp members⟩
  · rintro ⟨⟨permits, deadline, port⟩, members⟩
    simp only
    rw [if_neg (Nat.not_lt_of_le permits), if_neg deadline, if_neg port, if_neg (not_not_intro members)]

theorem canonicalKeys_ok_iff {canonical : List SealedKey} :
    canonicalKeys p args = .ok canonical ↔ canonical.Nodup ∧ canonical.Perm args.descriptorNodeKeys ∧
      canonical.Pairwise (fun a b => p.keyText a ≤ p.keyText b) := by
  have transitive : ∀ a b c : SealedKey, decide (p.keyText a ≤ p.keyText b) = true →
      decide (p.keyText b ≤ p.keyText c) = true → decide (p.keyText a ≤ p.keyText c) = true := by
    intro a b c first second
    exact decide_eq_true ((of_decide_eq_true first).trans (of_decide_eq_true second))
  have total : ∀ a b : SealedKey, (decide (p.keyText a ≤ p.keyText b) || decide (p.keyText b ≤ p.keyText a)) = true := by
    intro a b
    rw [Bool.or_eq_true, decide_eq_true_iff, decide_eq_true_iff]
    exact le_total _ _
  have sorted : (args.descriptorNodeKeys.mergeSort (fun a b => decide (p.keyText a ≤ p.keyText b))).Pairwise
      (fun a b => p.keyText a ≤ p.keyText b) :=
    (List.pairwise_mergeSort transitive total args.descriptorNodeKeys).imp of_decide_eq_true
  have same := List.mergeSort_perm args.descriptorNodeKeys (fun a b => decide (p.keyText a ≤ p.keyText b))
  unfold canonicalKeys
  simp only
  generalize args.descriptorNodeKeys.mergeSort (fun a b => decide (p.keyText a ≤ p.keyText b)) = order at sorted same ⊢
  have distinct := anyAdjacentEqual_eq_false_iff p.keyText_injective sorted
  constructor
  · intro accepted
    cases repeats : anyAdjacentEqual order with
    | true => simp [repeats] at accepted
    | false =>
      simp only [repeats, Bool.false_eq_true, if_false, Except.ok.injEq] at accepted
      subst accepted
      exact ⟨distinct.mp repeats, same, sorted⟩
  · rintro ⟨nodup, perm, ordered⟩
    obtain rfl : order = canonical := by
      refine (same.trans perm.symm).eq_of_pairwise ?_ sorted ordered
      intro a b _ _ first second
      exact p.keyText_injective (le_antisymm first second)
    rw [distinct.mpr nodup]
    rfl

/-- The text is the one the address prints as. -/
def CanonicalEndpoint (p : Primitives) (endpoint : String) : Prop :=
  ∃ addr, p.addrFromStr endpoint = .ok addr ∧ endpoint = p.addrText addr

theorem validateEndpoint_ok_iff {endpoint : String} :
    (∃ addr, validateEndpoint p endpoint = .ok addr) ↔ CanonicalEndpoint p endpoint := by
  unfold validateEndpoint CanonicalEndpoint
  cases p.addrFromStr endpoint with
  | error e => simp
  | ok addr =>
    simp only [Except.ok.injEq, exists_eq_left']
    by_cases canonical : endpoint = p.addrText addr
    · rw [if_neg (not_not_intro canonical)]
      exact ⟨fun _ => canonical, fun _ => ⟨addr, rfl⟩⟩
    · rw [if_pos canonical]
      simp [canonical]

theorem validateEndpoints_ok_iff {id : Nat} {endpoints : List String} :
    validateEndpoints p id endpoints = .ok () ↔ ∀ endpoint ∈ endpoints, CanonicalEndpoint p endpoint := by
  induction endpoints with
  | nil => simp [validateEndpoints]
  | cons endpoint rest ih =>
    rw [validateEndpoints, List.forall_mem_cons, ← ih, ← validateEndpoint_ok_iff]
    cases validateEndpoint p endpoint with
    | error e => simp
    | ok addr => simp

/-- The node is what the entry says, in typed form. -/
structure Reads (p : Primitives) (entry : ChannelNodeConfig) (node : ManifestNode) : Prop where
  nodeId : node.nodeId = entry.nodeId
  signingPubkey : p.keyFromStr entry.signingPubkey = .ok node.signingPubkey
  channelPubkey : p.keyFromStr entry.channelPubkey = .ok node.channelPubkey
  endpoints : node.endpoints = entry.endpoints

/-- What is asked of a node by itself. -/
structure Sound (p : Primitives) (coordinatorAuth : SealedKey) (node : ManifestNode) : Prop where
  apart : node.channelPubkey.inner ≠ coordinatorAuth.inner
  reachable : node.endpoints ≠ []
  canonical : ∀ endpoint ∈ node.endpoints, CanonicalEndpoint p endpoint

theorem readEntry_ok_iff {canonical : List SealedKey} {entry : ChannelNodeConfig} {node : ManifestNode} :
    readEntry p args canonical entry = .ok node ↔
      Reads p entry node ∧ canonical[node.nodeId]? = some node.signingPubkey ∧ Sound p args.coordinatorAuth node := by
  constructor
  · intro read
    unfold readEntry at read
    simp only at read
    split at read
    · cases read
    · next signing signingRead =>
      split at read
      · cases read
      · next channelPk channelRead =>
        split_ifs at read with misplaced reused unreachable
        split at read
        · cases read
        · next valid =>
          cases read
          exact ⟨⟨rfl, signingRead, channelRead, rfl⟩, not_not.mp misplaced, reused, unreachable,
            validateEndpoints_ok_iff.mp valid⟩
  · rintro ⟨⟨nodeId, signing, channelPk, endpoints⟩, placed, apart, reachable, canonical'⟩
    obtain ⟨id, signingPubkey, channelPubkey, listed⟩ := node
    cases nodeId
    cases endpoints
    unfold readEntry
    rw [signing, channelPk]
    simp only
    rw [if_neg (not_not_intro placed), if_neg apart, if_neg reachable, validateEndpoints_ok_iff.mpr canonical']

/-- The loop accepts entries with distinct ids of empty slots, each of which is read. -/
theorem placeEntries_ok_iff {canonical : List SealedKey} {entries : List ChannelNodeConfig}
    {byId final : List (Option ManifestNode)} (size : byId.length = canonical.length) :
    placeEntries p args canonical entries byId = .ok final ↔
      ∃ read, List.Forall₂ (fun entry node => readEntry p args canonical entry = .ok node) entries read ∧
        (read.map ManifestNode.nodeId).Nodup ∧ (∀ node ∈ read, Vacant byId node.nodeId) ∧
        final = place ManifestNode.nodeId byId read := by
  induction entries generalizing byId with
  | nil =>
    rw [placeEntries]
    constructor
    · intro same
      cases same
      exact ⟨[], .nil, List.nodup_nil, by simp, rfl⟩
    · rintro ⟨read, each, _, _, rfl⟩
      cases each
      rfl
  | cons entry rest ih =>
    rw [placeEntries]
    constructor
    · intro placed
      split_ifs at placed with outside taken
      cases first : readEntry p args canonical entry with
      | error e => simp [first] at placed
      | ok node =>
        have id : node.nodeId = entry.nodeId := (readEntry_ok_iff.mp first).1.nodeId
        rw [first] at placed
        simp only [← id] at placed outside taken
        obtain ⟨read, each, distinct, vacant, rfl⟩ := (ih (by rwa [List.length_set])).mp placed
        refine ⟨node :: read, .cons first each, ?_, ?_, rfl⟩
        · rw [List.map_cons, List.nodup_cons]
          refine ⟨?_, distinct⟩
          intro again
          obtain ⟨other, member, same⟩ := List.mem_map.mp again
          exact (vacant_set_iff.mp (vacant other member)).2 same.symm
        · rw [List.forall_mem_cons]
          refine ⟨?_, fun other member => (vacant_set_iff.mp (vacant other member)).1⟩
          refine vacant_iff.mpr ⟨by omega, ?_⟩
          rwa [Bool.not_eq_true, Option.isSome_eq_false_iff, Option.isNone_iff_eq_none] at taken
    · rintro ⟨read, each, distinct, vacant, rfl⟩
      cases each with
      | @cons _ node _ read first each =>
      rw [List.map_cons, List.nodup_cons] at distinct
      rw [List.forall_mem_cons] at vacant
      have id : node.nodeId = entry.nodeId := (readEntry_ok_iff.mp first).1.nodeId
      obtain ⟨inside, empty⟩ := vacant_iff.mp vacant.1
      simp only [← id]
      rw [if_neg (by omega), empty, if_neg (by simp), first]
      simp only
      refine (ih (by rwa [List.length_set])).mpr ⟨read, each, distinct.2, ?_, rfl⟩
      intro other member
      refine vacant_set_iff.mpr ⟨vacant.2 other member, ?_⟩
      intro same
      exact distinct.1 (List.mem_map.mpr ⟨other, member, same.symm⟩)

theorem collectNodes_ok_iff {i : Nat} {byId : List (Option ManifestNode)} {nodes : List ManifestNode} :
    collectNodes i byId = .ok nodes ↔ byId = nodes.map some := by
  induction byId generalizing i nodes with
  | nil => cases nodes <;> simp [collectNodes]
  | cons slot rest ih =>
    cases slot with
    | none => cases nodes <;> simp [collectNodes]
    | some node =>
      rw [collectNodes]
      constructor
      · intro collected
        obtain ⟨others, later, same⟩ := ok_of_bind collected
        cases same
        rw [List.map_cons, ih.mp later]
      · intro same
        cases nodes with
        | nil => cases same
        | cons first others =>
          rw [List.map_cons, List.cons.injEq, Option.some.injEq] at same
          obtain ⟨rfl, later⟩ := same
          rw [ih.mpr later]
          rfl

theorem checkSelf_ok_iff {nodes : List ManifestNode} {own : ManifestNode} :
    checkSelf args nodes = .ok own ↔ nodes[args.cfg.nodeId]? = some own ∧ own.signingPubkey = args.nodeSigningPubkey := by
  unfold checkSelf
  simp only
  cases nodes[args.cfg.nodeId]? with
  | none => simp
  | some found =>
    simp only [Option.some.injEq]
    by_cases mine : found.signingPubkey = args.nodeSigningPubkey
    · rw [if_neg (not_not_intro mine), Except.ok.injEq]
      constructor
      · rintro rfl
        exact ⟨rfl, mine⟩
      · exact And.left
    · rw [if_pos mine]
      simp only [reduceCtorEq, false_iff]
      rintro ⟨rfl, same⟩
      exact mine same

theorem sealedHash_ok_iff {nodes : List ManifestNode} {manifestHash : Bytes} :
    sealedHash p args nodes = .ok manifestHash ↔
      computeManifestHash p (baseManifest args nodes) = .ok manifestHash ∧
        fromHexOf 32 args.cfg.expectedManifestHash = some manifestHash := by
  unfold sealedHash
  cases computeManifestHash p (baseManifest args nodes) with
  | error e => simp [bind, Except.bind]
  | ok hash =>
    simp only [bind, Except.bind, Except.ok.injEq]
    cases fromHexOf 32 args.cfg.expectedManifestHash with
    | none => simp
    | some expected =>
      simp only [Option.some.injEq]
      by_cases agrees : expected = hash
      · subst agrees
        simp
      · rw [if_pos agrees]
        simp only [reduceCtorEq, false_iff]
        rintro ⟨rfl, same⟩
        exact agrees same

/-- The entry's endorsement is a signature of its node's key over the node's endorsed fields. -/
def Endorsed (p : Primitives) (args : BuildArgs) (manifestHash : Bytes) (entry : ChannelNodeConfig)
    (node : ManifestNode) : Prop :=
  ∃ der signature, fromHex entry.channelEndorsement = some der ∧ p.signatureFromDer der = .ok signature ∧
    p.verifyEcdsa (endorsementDigest p (endorsementOf args manifestHash node)) signature node.signingPubkey.inner = true

theorem checkEndorsement_ok_iff {manifestHash : Bytes} {node : ManifestNode} :
    checkEndorsement p args manifestHash node = .ok () ↔
      ∃ entry, args.cfg.nodes.find? (fun entry => decide (entry.nodeId = node.nodeId)) = some entry ∧
        Endorsed p args manifestHash entry node := by
  unfold checkEndorsement Endorsed
  simp only
  cases args.cfg.nodes.find? (fun entry => decide (entry.nodeId = node.nodeId)) with
  | none => simp
  | some entry =>
    simp only [Option.some.injEq, exists_eq_left']
    cases fromHex entry.channelEndorsement with
    | none => simp
    | some der =>
      simp only [Option.some.injEq, exists_and_left, exists_eq_left']
      cases p.signatureFromDer der with
      | error e => simp
      | ok signature => simp

theorem checkEndorsements_ok_iff {manifestHash : Bytes} {nodes : List ManifestNode} :
    checkEndorsements p args manifestHash nodes = .ok () ↔
      ∀ node ∈ nodes, checkEndorsement p args manifestHash node = .ok () := by
  induction nodes with
  | nil => simp [checkEndorsements]
  | cons node rest ih =>
    rw [checkEndorsements, List.forall_mem_cons, ← ih]
    cases checkEndorsement p args manifestHash node with
    | error e => simp [bind, Except.bind]
    | ok _ => simp [bind, Except.bind]

theorem checkChannelKey_ok_iff {own : ManifestNode} {seckey : Bytes} :
    checkChannelKey p args own = .ok seckey ↔
      deriveChannelSeckey p args.nodeSeckey = some seckey ∧ channelPubkeyOf p seckey = own.channelPubkey := by
  unfold checkChannelKey
  cases deriveChannelSeckey p args.nodeSeckey with
  | none => simp
  | some derived =>
    simp only [Option.some.injEq]
    by_cases mine : channelPubkeyOf p derived = own.channelPubkey
    · rw [if_neg (not_not_intro mine), Except.ok.injEq]
      constructor
      · rintro rfl
        exact ⟨rfl, mine⟩
      · exact And.left
    · rw [if_pos mine]
      simp only [reduceCtorEq, false_iff]
      rintro ⟨rfl, same⟩
      exact mine same

theorem isBind_iff {bind : p.SocketAddr} {endpoint : String} :
    isBind p bind endpoint = true ↔ p.addrFromStr endpoint = .ok bind := by
  unfold isBind
  cases p.addrFromStr endpoint with
  | error e => simp
  | ok addr => simp

theorem checkBind_ok_iff {own : ManifestNode} :
    checkBind p args own = .ok () ↔
      ∃ bind, p.addrFromStr (bindText args) = .ok bind ∧ ∃ endpoint ∈ own.endpoints, p.addrFromStr endpoint = .ok bind := by
  unfold checkBind
  simp only
  cases p.addrFromStr (bindText args) with
  | error e => simp
  | ok bind =>
    simp only [Except.ok.injEq, exists_eq_left', ← isBind_iff, ← List.any_eq_true]
    cases own.endpoints.any (isBind p bind) with
    | false => simp
    | true => simp

/-- The nodes the entries are read into, whatever their order. -/
def ReadFrom (p : Primitives) (entries : List ChannelNodeConfig) (nodes : List ManifestNode) : Prop :=
  ∃ read, List.Forall₂ (Reads p) entries read ∧ read.Perm nodes

theorem forall₂_ids {entries : List ChannelNodeConfig} {read : List ManifestNode}
    (each : List.Forall₂ (Reads p) entries read) :
    entries.map ChannelNodeConfig.nodeId = read.map ManifestNode.nodeId := by
  induction each with
  | nil => rfl
  | cons first _ ih => rw [List.map_cons, List.map_cons, ih, first.nodeId]

theorem ReadFrom.ids {entries : List ChannelNodeConfig} {nodes : List ManifestNode} (read : ReadFrom p entries nodes) :
    (entries.map ChannelNodeConfig.nodeId).Perm (nodes.map ManifestNode.nodeId) := by
  obtain ⟨items, each, same⟩ := read
  rw [forall₂_ids each]
  exact same.map _

/-- The key at a node's place is its signing key. -/
theorem map_signingPubkey_iff {canonical : List SealedKey} {nodes : List ManifestNode}
    (numbered : nodes.map ManifestNode.nodeId = List.range canonical.length) :
    (∀ node ∈ nodes, canonical[node.nodeId]? = some node.signingPubkey) ↔
      nodes.map ManifestNode.signingPubkey = canonical := by
  obtain ⟨length, places⟩ := map_eq_range_iff.mp numbered
  constructor
  · intro each
    apply List.ext_getElem?
    intro i
    rw [List.getElem?_map]
    cases found : nodes[i]? with
    | none =>
      have outside := List.getElem?_eq_none_iff.mp found
      rw [List.getElem?_eq_none (by omega), Option.map_none]
    | some node =>
      have placed := each node (List.mem_of_getElem? found)
      rw [places i node found] at placed
      rw [placed, Option.map_some]
  · rintro rfl node member
    rw [List.getElem?_map, getElem?_index numbered member, Option.map_some]

/-- The slots are filled with the nodes exactly where each entry is read and their ids are the numbers in order. -/
theorem readNodes_iff {canonical : List SealedKey} {nodes : List ManifestNode}
    (members : args.cfg.nodes.length = canonical.length) :
    (∃ byId, placeEntries p args canonical args.cfg.nodes (List.replicate canonical.length none) = .ok byId ∧
        collectNodes 0 byId = .ok nodes) ↔
      ReadFrom p args.cfg.nodes nodes ∧ nodes.map ManifestNode.nodeId = List.range canonical.length ∧
        nodes.map ManifestNode.signingPubkey = canonical ∧ ∀ node ∈ nodes, Sound p args.coordinatorAuth node := by
  have size : (List.replicate canonical.length (none : Option ManifestNode)).length = canonical.length :=
    List.length_replicate
  constructor
  · rintro ⟨byId, placed, collected⟩
    obtain ⟨read, each, distinct, vacant, rfl⟩ := (placeEntries_ok_iff size).mp placed
    have bounded : ∀ node ∈ read, node.nodeId < canonical.length := by
      intro node member
      have inside := (vacant_iff.mp (vacant node member)).1
      rwa [size] at inside
    have full : read.length = canonical.length := by rw [← each.length_eq, members]
    obtain ⟨same, numbered⟩ :=
      (place_eq_map_some_iff distinct bounded full).mp (collectNodes_ok_iff.mp collected)
    have checked : ∀ node ∈ nodes, canonical[node.nodeId]? = some node.signingPubkey ∧ Sound p args.coordinatorAuth node := by
      intro node member
      obtain ⟨entry, _, found⟩ := exists_of_forall₂ each (same.mem_iff.mpr member)
      exact (readEntry_ok_iff.mp found).2
    refine ⟨⟨read, each.imp fun _ _ found => (readEntry_ok_iff.mp found).1, same⟩, numbered, ?_, ?_⟩
    · exact (map_signingPubkey_iff numbered).mp fun node member => (checked node member).1
    · exact fun node member => (checked node member).2
  · rintro ⟨⟨read, each, same⟩, numbered, keys, sound⟩
    have ids := same.map ManifestNode.nodeId
    rw [numbered] at ids
    have distinct : (read.map ManifestNode.nodeId).Nodup := ids.nodup_iff.mpr List.nodup_range
    have bounded : ∀ node ∈ read, node.nodeId < canonical.length := by
      intro node member
      exact List.mem_range.mp (ids.mem_iff.mp (List.mem_map_of_mem member))
    have full : read.length = canonical.length := by rw [← each.length_eq, members]
    refine ⟨place ManifestNode.nodeId (List.replicate canonical.length none) read, ?_, ?_⟩
    · refine (placeEntries_ok_iff size).mpr ⟨read, ?_, distinct, ?_, rfl⟩
      · refine forall₂_imp_of_mem each fun entry _ node member found => ?_
        have listed := same.mem_iff.mp member
        exact readEntry_ok_iff.mpr ⟨found, (map_signingPubkey_iff numbered).mpr keys node listed, sound node listed⟩
      · intro node member
        refine vacant_iff.mpr ⟨by rw [size]; exact bounded node member, ?_⟩
        rw [List.getElem?_replicate]
        split_ifs <;> rfl
    · exact collectNodes_ok_iff.mpr ((place_eq_map_some_iff distinct bounded full).mpr ⟨same, numbered⟩)

end Steps

/-! ### The identities -/

/-- This node's entry: its own keys, and an endpoint that is the bind address. -/
structure Own (p : Primitives) (args : BuildArgs) (own : ManifestNode) : Prop where
  signingPubkey : own.signingPubkey = args.nodeSigningPubkey
  channelPubkey : ∃ seckey, deriveChannelSeckey p args.nodeSeckey = some seckey ∧
    channelPubkeyOf p seckey = own.channelPubkey
  endpoint : ∃ bind, p.addrFromStr (bindText args) = .ok bind ∧
    ∃ endpoint ∈ own.endpoints, p.addrFromStr endpoint = .ok bind

/-- The manifest's nodes and its hash are bound to the descriptor, the configured entries and this node. -/
structure Bound (p : Primitives) (args : BuildArgs) (nodes : List ManifestNode) (manifestHash : Bytes) : Prop where
  members : args.cfg.nodes.length = args.descriptorNodeKeys.length
  entries : ReadFrom p args.cfg.nodes nodes
  ids : nodes.map ManifestNode.nodeId = List.range args.descriptorNodeKeys.length
  distinct : (nodes.map ManifestNode.signingPubkey).Nodup
  federation : (nodes.map ManifestNode.signingPubkey).Perm args.descriptorNodeKeys
  ordered : (nodes.map ManifestNode.signingPubkey).Pairwise (fun a b => p.keyText a ≤ p.keyText b)
  sound : ∀ node ∈ nodes, Sound p args.coordinatorAuth node
  own : ∃ own, nodes[args.cfg.nodeId]? = some own ∧ Own p args own
  agreed : computeManifestHash p (baseManifest args nodes) = .ok manifestHash ∧
    fromHexOf 32 args.cfg.expectedManifestHash = some manifestHash
  endorsed : ∀ node ∈ nodes, ∀ entry ∈ args.cfg.nodes, entry.nodeId = node.nodeId →
    Endorsed p args manifestHash entry node

section Identities

variable {p : Primitives} {args : BuildArgs}

/-- Among entries with distinct ids the first with an id is the only one. -/
theorem find?_nodeId_iff {entries : List ChannelNodeConfig} (distinct : (entries.map ChannelNodeConfig.nodeId).Nodup)
    {id : Nat} {entry : ChannelNodeConfig} :
    entries.find? (fun entry => decide (entry.nodeId = id)) = some entry ↔ entry ∈ entries ∧ entry.nodeId = id := by
  constructor
  · intro found
    exact ⟨List.mem_of_find?_eq_some found, by simpa using List.find?_some found⟩
  · rintro ⟨member, rfl⟩
    cases found : entries.find? (fun other => decide (other.nodeId = entry.nodeId)) with
    | none => simpa using List.find?_eq_none.mp found entry member
    | some other =>
      have same : other.nodeId = entry.nodeId := by simpa using List.find?_some found
      rw [List.inj_on_of_nodup_map distinct (List.mem_of_find?_eq_some found) member same]

theorem ReadFrom.distinct {nodes : List ManifestNode} {n : Nat} (read : ReadFrom p args.cfg.nodes nodes)
    (ids : nodes.map ManifestNode.nodeId = List.range n) : (args.cfg.nodes.map ChannelNodeConfig.nodeId).Nodup := by
  rw [read.ids.nodup_iff, ids]
  exact List.nodup_range

/-- Every node has its entry, so the loop looks at every endorsement. -/
theorem checkEndorsements_iff {nodes : List ManifestNode} {n : Nat} {manifestHash : Bytes}
    (read : ReadFrom p args.cfg.nodes nodes) (ids : nodes.map ManifestNode.nodeId = List.range n) :
    checkEndorsements p args manifestHash nodes = .ok () ↔
      ∀ node ∈ nodes, ∀ entry ∈ args.cfg.nodes, entry.nodeId = node.nodeId → Endorsed p args manifestHash entry node := by
  have distinct := read.distinct ids
  simp only [checkEndorsements_ok_iff, checkEndorsement_ok_iff, find?_nodeId_iff distinct]
  refine forall₂_congr fun node member => ?_
  constructor
  · rintro ⟨entry, ⟨listed, same⟩, endorsed⟩ other listed' same'
    obtain rfl := List.inj_on_of_nodup_map distinct listed' listed (same'.trans same.symm)
    exact endorsed
  · intro each
    obtain ⟨items, read, perm⟩ := read
    obtain ⟨entry, listed, found⟩ := exists_of_forall₂ read (perm.mem_iff.mpr member)
    exact ⟨entry, ⟨listed, found.nodeId.symm⟩, each entry listed found.nodeId.symm⟩

/-- A channel starts exactly where everything is bound. -/
theorem build_ok_iff {state : ChannelState} :
    build p args = .ok state ↔ WithinLimits args ∧ Bound p args state.nodes state.manifestHash ∧
      deriveChannelSeckey p args.nodeSeckey = some state.channelSeckey ∧
      state = channelState p args state.manifestHash state.channelSeckey state.nodes := by
  constructor
  · intro built
    unfold build at built
    obtain ⟨_, limits, built⟩ := ok_of_bind built
    obtain ⟨canonical, sorted, built⟩ := ok_of_bind built
    obtain ⟨byId, placed, built⟩ := ok_of_bind built
    obtain ⟨nodes, collected, built⟩ := ok_of_bind built
    obtain ⟨own, mine, built⟩ := ok_of_bind built
    obtain ⟨manifestHash, agreed, built⟩ := ok_of_bind built
    obtain ⟨_, endorsements, built⟩ := ok_of_bind built
    obtain ⟨seckey, derived, built⟩ := ok_of_bind built
    obtain ⟨_, bind, built⟩ := ok_of_bind built
    cases built
    obtain ⟨within, members⟩ := checkLimits_ok_iff.mp limits
    obtain ⟨distinct, federation, ordered⟩ := canonicalKeys_ok_iff.mp sorted
    rw [← federation.length_eq] at members
    obtain ⟨read, ids, keys, sound⟩ := (readNodes_iff members).mp ⟨byId, placed, collected⟩
    obtain ⟨found, signing⟩ := checkSelf_ok_iff.mp mine
    obtain ⟨secret, channelPubkey⟩ := checkChannelKey_ok_iff.mp derived
    refine ⟨within, ?_, secret, rfl⟩
    exact
      { members := members.trans federation.length_eq
        entries := read
        ids := by rw [← federation.length_eq]; exact ids
        distinct := by rw [channelState, keys]; exact distinct
        federation := by rw [channelState, keys]; exact federation
        ordered := by rw [channelState, keys]; exact ordered
        sound := sound
        own := ⟨own, found, signing, ⟨seckey, secret, channelPubkey⟩, checkBind_ok_iff.mp bind⟩
        agreed := sealedHash_ok_iff.mp agreed
        endorsed := (checkEndorsements_iff read ids).mp endorsements }
  · rintro ⟨within, bound, secret, whole⟩
    obtain ⟨own, found, signing, ⟨seckey, derived, channelPubkey⟩, bind⟩ := bound.own
    rw [secret] at derived
    cases derived
    have sorted : canonicalKeys p args = .ok (state.nodes.map ManifestNode.signingPubkey) :=
      canonicalKeys_ok_iff.mpr ⟨bound.distinct, bound.federation, bound.ordered⟩
    have size := bound.federation.length_eq
    have ids := bound.ids
    rw [← size] at ids
    obtain ⟨byId, placed, collected⟩ :=
      (readNodes_iff (bound.members.trans size.symm)).mpr ⟨bound.entries, ids, rfl, bound.sound⟩
    unfold build
    rw [checkLimits_ok_iff.mpr ⟨within, bound.members⟩, sorted]
    show (placeEntries p args _ _ _ >>= _) = _
    rw [placed]
    show (collectNodes 0 byId >>= _) = _
    rw [collected]
    show (checkSelf args state.nodes >>= _) = _
    rw [checkSelf_ok_iff.mpr ⟨found, signing⟩]
    show (sealedHash p args state.nodes >>= _) = _
    rw [sealedHash_ok_iff.mpr bound.agreed]
    show (checkEndorsements p args state.manifestHash state.nodes >>= _) = _
    rw [(checkEndorsements_iff bound.entries ids).mpr bound.endorsed]
    show (checkChannelKey p args own >>= _) = _
    rw [checkChannelKey_ok_iff.mpr ⟨secret, channelPubkey⟩]
    show (checkBind p args own >>= _) = _
    rw [checkBind_ok_iff.mpr bind]
    exact congrArg Except.ok whole.symm

/-- The same arguments with the configured entries in another order. -/
def relist (args : BuildArgs) (entries : List ChannelNodeConfig) : BuildArgs :=
  { args with cfg := { args.cfg with nodes := entries } }

theorem ReadFrom.perm {entries other : List ChannelNodeConfig} {nodes : List ManifestNode} (same : other.Perm entries)
    (read : ReadFrom p entries nodes) : ReadFrom p other nodes := by
  obtain ⟨items, each, perm⟩ := read
  obtain ⟨reordered, each', perm'⟩ := List.perm_comp_forall₂ same each
  exact ⟨reordered, each', perm'.trans perm⟩

theorem Bound.relist {entries : List ChannelNodeConfig} (same : entries.Perm args.cfg.nodes) {nodes : List ManifestNode}
    {manifestHash : Bytes} (bound : Bound p args nodes manifestHash) :
    Bound p (relist args entries) nodes manifestHash :=
  { members := same.length_eq.trans bound.members
    entries := bound.entries.perm same
    ids := bound.ids
    distinct := bound.distinct
    federation := bound.federation
    ordered := bound.ordered
    sound := bound.sound
    own := bound.own.imp fun _ found => ⟨found.1, ⟨found.2.signingPubkey, found.2.channelPubkey, found.2.endpoint⟩⟩
    agreed := bound.agreed
    endorsed := fun node member entry listed => bound.endorsed node member entry (same.mem_iff.mp listed) }

theorem build_relist {entries : List ChannelNodeConfig} (same : entries.Perm args.cfg.nodes) {state : ChannelState}
    (built : build p args = .ok state) : build p (relist args entries) = .ok state := by
  obtain ⟨within, bound, secret, whole⟩ := build_ok_iff.mp built
  exact build_ok_iff.mpr ⟨⟨within.concurrency, within.deadline, within.port⟩, bound.relist same, secret, whole⟩

end Identities

/-- A channel that starts has its identities bound, it starts only then, and the order of the configured entries does
not matter. -/
theorem build_binds_identities (p : Primitives) (args : BuildArgs) :
    (∀ state, build p args = .ok state → Bound p args state.nodes state.manifestHash ∧
        state.nodeId = args.cfg.nodeId ∧ state.channelPubkey = channelPubkeyOf p state.channelSeckey) ∧
      ((∃ state, build p args = .ok state) ↔
        WithinLimits args ∧ ∃ nodes manifestHash, Bound p args nodes manifestHash) ∧
      ∀ entries, entries.Perm args.cfg.nodes → ∀ state,
        build p (relist args entries) = .ok state ↔ build p args = .ok state := by
  refine ⟨?_, ⟨?_, ?_⟩, ?_⟩
  · intro state built
    obtain ⟨_, bound, _, whole⟩ := build_ok_iff.mp built
    rw [whole]
    exact ⟨bound, rfl, rfl⟩
  · rintro ⟨state, built⟩
    obtain ⟨within, bound, _⟩ := build_ok_iff.mp built
    exact ⟨within, _, _, bound⟩
  · rintro ⟨within, nodes, manifestHash, bound⟩
    obtain ⟨own, _, _, ⟨seckey, derived, _⟩, _⟩ := bound.own
    exact ⟨channelState p args manifestHash seckey nodes, build_ok_iff.mpr ⟨within, bound, derived, rfl⟩⟩
  · intro entries same state
    refine ⟨fun built => ?_, build_relist same⟩
    have back : build p (relist (relist args entries) args.cfg.nodes) = .ok state := build_relist same.symm built
    exact back

/-! A federation of three, as its middle node starts: the entries and the descriptor list it in orders of their own. -/

namespace Sample

def hash : Bytes := List.replicate 32 7

def signing (label : UInt8) : SealedKey := ⟨true, 2 :: List.replicate 32 label, rfl⟩

def channel (label : UInt8) : SealedKey := ⟨true, 3 :: List.replicate 32 label, rfl⟩

def keys : List (String × SealedKey) :=
  [("signing0", signing 1), ("signing1", signing 2), ("signing2", signing 3), ("channel0", channel 1),
    ("channel1", channel 2), ("channel2", channel 3)]

def keyText (key : SealedKey) : String := toHex (if key.compressed then key.inner else 4 :: key.inner)

theorem keyText_injective : Function.Injective keyText := by
  rintro ⟨a, inner, width⟩ ⟨b, inner', width'⟩ same
  have bytes : (if a = true then inner else 4 :: inner) = (if b = true then inner' else 4 :: inner') := toHex_injective same
  have lengths := congrArg List.length bytes
  cases a <;> cases b <;> simp [width, width'] at bytes lengths <;> simp [bytes]

/-- One digest; keys and addresses are known by their texts, and a signature by the label of its key. -/
def primitives : Primitives where
  taggedHash _ _ := hash
  keyText := keyText
  keyText_injective := keyText_injective
  keyFromStr text :=
    match keys.lookup text with
    | some key => .ok key
    | none => .error "not a key"
  secretFromSlice := some
  publicKey _ := channel 2
  signatureFromDer der := if der.take 1 = [48] then .ok der else .error "not DER"
  verifyEcdsa digest signature key := decide (digest = hash ∧ signature = 48 :: key.drop 32)
  SocketAddr := String
  sameAddr := inferInstance
  addrFromStr text := .ok text
  addrText addr := addr

def entries : List ChannelNodeConfig :=
  [⟨2, "signing2", "channel2", "3003", ["127.0.0.1:9002"]⟩, ⟨0, "signing0", "channel0", "3001", ["127.0.0.1:9000"]⟩,
    ⟨1, "signing1", "channel1", "3002", ["127.0.0.1:9001"]⟩]

def nodes : List ManifestNode :=
  [⟨0, signing 1, channel 1, ["127.0.0.1:9000"]⟩, ⟨1, signing 2, channel 2, ["127.0.0.1:9001"]⟩,
    ⟨2, signing 3, channel 3, ["127.0.0.1:9002"]⟩]

def args : BuildArgs where
  cfg := ⟨1, entries, 1024, 67108864, 600, 64, 1048576, 65536, 5, toHex hash⟩
  nodeSeckey := List.replicate 32 9
  nodeSigningPubkey := signing 2
  walletId := List.replicate 32 5
  descriptorNodeKeys := [signing 2, signing 3, signing 1]
  listenPort := 9001
  coordinatorAuth := signing 9
  hotBudget := ⟨1000, 5000, 86400⟩
  hotAllowlist := []
  escapeDescriptor := "escape"
  maxDerivationIndex := 1000
  escapeFeerateFloor := 1
  escapeCoveragePct := 90
  escapeBumpMaxFeePct := 10
  network := .regtest

theorem bound : Bound primitives args nodes hash where
  members := rfl
  entries := ⟨[_, _, _], .cons ⟨rfl, rfl, rfl, rfl⟩ (.cons ⟨rfl, rfl, rfl, rfl⟩ (.cons ⟨rfl, rfl, rfl, rfl⟩ .nil)),
    (List.perm_append_singleton _ _).symm⟩
  ids := rfl
  distinct := by decide
  federation := (List.perm_append_singleton (signing 1) [signing 2, signing 3]).symm
  ordered := by decide
  sound := by
    intro node member
    simp only [nodes, List.mem_cons, List.not_mem_nil, or_false] at member
    obtain rfl | rfl | rfl := member <;>
      exact ⟨by decide, List.cons_ne_nil _ _, fun endpoint _ => ⟨endpoint, rfl, rfl⟩⟩
  own := ⟨_, rfl, rfl, ⟨hash, rfl, rfl⟩, "127.0.0.1:9001", rfl, "127.0.0.1:9001", List.mem_cons_self, rfl⟩
  agreed := ⟨rfl, by decide⟩
  endorsed := by
    intro node member entry listed same
    simp only [nodes, args, entries, List.mem_cons, List.not_mem_nil, or_false] at member listed
    obtain rfl | rfl | rfl := member <;> obtain rfl | rfl | rfl := listed <;>
      first | exact absurd same (by decide) | exact ⟨_, _, rfl, rfl, by decide⟩

end Sample

theorem build_binds_identities_three : ∃ state, build Sample.primitives Sample.args = .ok state ∧
    build Sample.primitives (relist Sample.args Sample.entries.reverse) = .ok state ∧
    state.nodes.map ManifestNode.nodeId = [0, 1, 2] := by
  obtain ⟨binds, starts, listed⟩ := build_binds_identities Sample.primitives Sample.args
  obtain ⟨state, built⟩ :=
    starts.mpr ⟨⟨by decide, by decide, by decide⟩, Sample.nodes, Sample.hash, Sample.bound⟩
  exact ⟨state, built, (listed _ (List.reverse_perm _) state).mpr built, (binds state built).1.ids⟩

end BtcPolicy.Startup
