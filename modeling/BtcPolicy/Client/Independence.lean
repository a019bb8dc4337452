import BtcPolicy.Lib.Results
import BtcPolicy.Policy.Exact

/-! The independence check of the setup ceremony: no key of the vault, and none of the hot wallet, may be a key of the
escape wallet. Keys are compared as they are spelled, so what is missed is exactly a key under a second spelling. -/

namespace BtcPolicy.Setup
open FiniteMap Results
open Bitcoin (Bytes Script)
open Policy (derivesWithin)

/-! ### Keys -/

/-- A point of the curve: two share each x coordinate, and one secret gives both. -/
structure CurvePoint where
  x : Bytes
  odd : Bool
  deriving DecidableEq

/-- `bitcoin::PublicKey`: whoever spells the point says whether it is compressed. -/
structure PublicKey where
  compressed : Bool
  inner : CurvePoint
  deriving DecidableEq

/-- `PublicKey::new`. -/
def PublicKey.new (inner : CurvePoint) : PublicKey := ⟨true, inner⟩

/-- The derived order: the flag, and then the compressed serialization. -/
def PublicKey.rank (key : PublicKey) : List Nat :=
  key.compressed.toNat :: key.inner.odd.toNat :: key.inner.x.map UInt8.toNat

inductive ChildNumber where
  | normal (index : Nat)
  | hardened (index : Nat)
  deriving DecidableEq

/-- What a key expression names, beside its origin and its wildcard. -/
inductive DescriptorPublicKey (ξ : Type) where
  | single
  | xPub (xkey : ξ) (derivationPath : List ChildNumber)
  | multiXPub (xkey : ξ) (derivationPaths : List (List ChildNumber))

/-- A descriptor at one index. -/
structure DerivedDescriptor where
  scriptPubkey : Script
  keys : List PublicKey

/-- The descriptors and the extended keys of the library: `keys` is what `for_each_key` visits, in order. -/
structure Miniscript (δ ξ κ : Type) where
  fromStr : String → Except String δ
  toString : δ → String
  hasWildcard : δ → Bool
  intoSingleDescriptors : δ → Except String (List δ)
  derivedDescriptor : δ → Nat → Except String DerivedDescriptor
  keys : δ → List κ
  named : κ → DescriptorPublicKey ξ
  masterFingerprint : κ → String
  xpubKey : ξ → CurvePoint
  ckdPub : ξ → ChildNumber → Except String ξ
  displayKey : PublicKey → String

/-! ### The key sets -/

section Check

variable {δ ξ κ : Type} (lib : Miniscript δ ξ κ)

/-- `entry(key).or_insert(index)`. -/
def orInsert (index : Nat) (keys : Map PublicKey Nat) (key : PublicKey) : Map PublicKey Nat :=
  if key ∈ keys then keys else keys.insert key index

def scanIndex (single : δ) (keys : Map PublicKey Nat) (index : Nat) : Except String (Map PublicKey Nat) := do
  let text := lib.toString single
  let derived ← (lib.derivedDescriptor single index).mapError (fun e => s!"cannot derive {text} at index {index}: {e}")
  pure (derived.keys.foldl (orInsert index) keys)

/-- The last index that is scanned. -/
def lastIndex (single : δ) (maxIndex : Nat) : Nat := if lib.hasWildcard single then maxIndex else 0

/-- Every key of the descriptor on every branch up to the bound, with the first index that gave it. -/
def derivedKeys (descriptor : δ) (maxIndex : Nat) : Except String (Map PublicKey Nat) := do
  let text := lib.toString descriptor
  let singles ← (lib.intoSingleDescriptors descriptor).mapError (fun e =>
    s!"cannot expand {text} into single-path descriptors: {e}")
  singles.foldlM (fun keys single =>
    (List.range (lastIndex lib single maxIndex + 1)).foldlM (scanIndex lib single) keys) ∅

def pushKey (out : List PublicKey) (key : PublicKey) : List PublicKey := if key ∈ out then out else out ++ [key]

/-- The steps of the path down to the first that does not derive. -/
def collectSteps (current : ξ) : List PublicKey → List ChildNumber → List PublicKey
  | out, [] => out
  | out, step :: rest =>
    match lib.ckdPub current step with
    | .error _ => out
    | .ok child => collectSteps child (pushKey out (.new (lib.xpubKey child))) rest

def collectXpubAncestors (xkey : ξ) (path : List ChildNumber) (out : List PublicKey) : List PublicKey :=
  collectSteps lib xkey (pushKey out (.new (lib.xpubKey xkey))) path

def collectKey (out : List PublicKey) (key : κ) : List PublicKey :=
  match lib.named key with
  | .single => out
  | .xPub xkey path => collectXpubAncestors lib xkey path out
  | .multiXPub xkey paths => paths.foldl (fun out path => collectXpubAncestors lib xkey path out) out

def escapeAncestorKeys (descriptor : δ) : List PublicKey := (lib.keys descriptor).foldl (collectKey lib) []

def fingerprints (descriptor : δ) : List String :=
  (lib.keys descriptor).foldl (fun found key =>
    let text := lib.masterFingerprint key
    if text ∈ found then found else found ++ [text]) []

/-! ### The violations -/

structure IndependenceInputs where
  userKey : PublicKey
  nodeKeys : List PublicKey
  recoveryKeys : List PublicKey
  coordinatorKey : PublicKey
  escapeDescriptor : String
  hotDescriptors : List String
  maxDerivationIndex : Nat

def IndependenceInputs.vaultKeys (inputs : IndependenceInputs) : List (String × PublicKey) :=
  ("user", inputs.userKey) ::
    (inputs.nodeKeys.zipIdx.map (fun entry => let i := entry.2; (s!"node[{i}]", entry.1)) ++
      inputs.recoveryKeys.zipIdx.map (fun entry => let i := entry.2; (s!"recovery[{i}]", entry.1)))

def IndependenceInputs.comparisonKeys (inputs : IndependenceInputs) : List (String × PublicKey) :=
  inputs.vaultKeys ++ [("coordinator", inputs.coordinatorKey)]

/-- A key of the vault among the children of the escape wallet, and among their ancestors. -/
def keyViolations (escapeKeys : Map PublicKey Nat) (ancestors : List PublicKey) (entry : String × PublicKey) :
    List String :=
  let role := entry.1
  let key := lib.displayKey entry.2
  (match escapeKeys.lookup entry.2 with
    | some index =>
      [s!"the escape wallet derives the {role} key {key} at index {index}: the escape wallet is NOT independent of " ++
        "the vault, and a duress sweep would pay an attacker who holds that key"]
    | none => []) ++
  if entry.2 ∈ ancestors then
    [s!"the {role} key {key} is an ANCESTOR xpub of the escape wallet: whoever holds its private key can derive " ++
      "every escape address (non-hardened BIP32 over the public chain code), so a duress sweep would pay that key's " ++
      "holder — the escape wallet is NOT independent of the vault"]
  else []

/-- The order of a `BTreeSet` of keys. -/
def sortKeys (keys : List PublicKey) : List PublicKey := keys.dedup.insertionSort (fun a b => a.rank ≤ b.rank)

def parseHot (hot : String) : Except String δ :=
  (lib.fromStr hot).mapError (fun e => s!"hot descriptor does not parse: {e}")

/-- The children and the ancestors of the one wallet that the other has too. -/
def hotViolations (maxIndex : Nat) (escape : δ) (escapeAll : List PublicKey) (hot : String) :
    Except String (List String) := do
  let parsed ← parseHot lib hot
  if lib.toString parsed = lib.toString escape then
    pure [s!"the escape descriptor and a hot descriptor are the same wallet ({hot})"]
  else do
    let derived ← derivedKeys lib parsed maxIndex
    let hotAll := derived.keys ++ escapeAncestorKeys lib parsed
    pure ((sortKeys (hotAll.filter (fun key => decide (key ∈ escapeAll)))).map (fun shared =>
      let key := lib.displayKey shared
      s!"the escape wallet and the hot wallet share or derive the key {key}: one wallet is an ancestor of the other, " ++
        "so the hot-key holder could control the escape sweep"))

def fingerprintViolations (escapeFingerprints : List String) (hot : String) : Except String (List String) := do
  let parsed ← parseHot lib hot
  pure (((fingerprints lib parsed).filter (fun text => decide (text ∈ escapeFingerprints))).map (fun fingerprint =>
    s!"the escape wallet and the hot wallet share BIP32 master fingerprint {fingerprint}: they came from one seed"))

/-! ### The check -/

def violationMessage (violations : List String) : String :=
  "KEY INDEPENDENCE VIOLATED — the ceremony refuses to seal this vault.\n\n" ++
    violations.foldl (fun message violation => message ++ s!"  * {violation}\n") "" ++
    "\nRegenerate the escape wallet on a DIFFERENT device, from a DIFFERENT seed\n" ++
    "(`btc-vault setup keygen --role escape --network <bitcoin|signet|regtest>`),\n" ++
    "and run the ceremony again.\n"

/-- `{role:<12}`. -/
def padded (role : String) : String := role ++ String.ofList (List.replicate (12 - role.length) ' ')

def reportOpening : String :=
  "btc-vault setup — key independence evidence (ADR-0003, ADR-0012 §10)\n" ++
    "====================================================================\n\n" ++
    "A shared-seed escape wallet turns the duress sweep into THEFT: a post-wrench\n" ++
    "attacker holding the user key would control the escape wallet, and the sweep\n" ++
    "would hand them the vault. The escape key MUST be generated independently, on\n" ++
    "its own device, in its own step. What follows is what this ceremony could\n" ++
    "verify mechanically.\n\n"

def reportClosing : String :=
  "\nChecks:\n" ++
    "  [x] escape wallet vs every vault key (user, nodes, recovery) AND the\n      coordinator auth key — both the " ++
    "full derivation scan the nodes enforce AND\n      the escape wallet's ANCESTOR xpubs (a shared parent key " ++
    "derives every child)\n" ++
    "  [x] escape wallet vs hot wallet (same descriptor, shared derived key,\n      shared BIP32 master " ++
    "fingerprint)\n" ++
    "  [x] user / node / recovery keys all distinct (enforced by the vault\n      template parse — a duplicate is a " ++
    "rejected descriptor, not a warning)\n" ++
    "\nVERDICT: no overlap detected.\n\n" ++
    "RESIDUAL — what no software can check (ADR-0003):\n" ++
    "  * Two keys derived from ONE seed at unrelated paths are cryptographically\n" ++
    "    unlinkable. A scan finds them only if the paths happen to collide.\n" ++
    "  * Physical device separation cannot be verified at all. That the escape\n" ++
    "    wallet was generated on a different machine than the coordinator and the\n" ++
    "    nodes is carried by the ceremony procedure, not by this check.\n\n" ++
    "If the escape wallet shares a seed with the user key, DURESS IS THEFT: the\n" ++
    "sweep pays the attacker. Regenerate rather than assume.\n"

/-- The report of a check that found nothing. -/
def report (inputs : IndependenceInputs) (escape : δ) (escapeKeys : Map PublicKey Nat) (ancestors : List PublicKey) :
    String :=
  let vaultKeys := inputs.vaultKeys.foldl (fun text entry =>
    let role := padded entry.1
    let key := lib.displayKey entry.2
    text ++ s!"  {role} {key}\n") ""
  let coordinator := padded "coordinator"
  let coordinatorKey := lib.displayKey inputs.coordinatorKey
  let escapeText := inputs.escapeDescriptor
  let maxIndex := inputs.maxDerivationIndex
  let derived := size escapeKeys
  let ancestorCount := ancestors.length
  let declared := fingerprints lib escape
  let shown := if declared.isEmpty then "(none declared — the descriptor carries no BIP32 origin)"
    else ", ".intercalate declared
  reportOpening ++ "Vault keys (definite, from the frozen descriptor):\n" ++ vaultKeys ++
    s!"  {coordinator} {coordinatorKey}   (trust root, ADR-0013 §2 — not in the descriptor)\n" ++
    (s!"\nEscape wallet: {escapeText}\n  derived keys scanned: 0..={maxIndex} ({derived} keys); ancestor keys " ++
      s!"compared: {ancestorCount}\n") ++
    s!"  master fingerprints: {shown}\n" ++ reportClosing

/-- The escape wallet is a ranged one, and a key controls it. -/
def ensureControlled (escape : δ) (escapeKeys : Map PublicKey Nat) : Except String Unit :=
  if !lib.hasWildcard escape then
    .error ("the escape descriptor is not a ranged wallet (no `/*`): each incident sweep must pay a fresh address, so " ++
      "a definite or scriptless escape is not the intended wallet. Generate it with `btc-vault setup keygen --role " ++
      "escape --network <bitcoin|signet|regtest>`.")
  else if escapeKeys.keys.isEmpty then
    .error ("the escape descriptor is not key-controlled — it derives no keys, so swept funds would be " ++
      "anyone-spendable or permanently unspendable. The escape wallet must be a signature-controlled ranged wallet " ++
      "(`btc-vault setup keygen --role escape`).")
  else .ok ()

def checkIndependence (inputs : IndependenceInputs) : Except String String := do
  let escape ← (lib.fromStr inputs.escapeDescriptor).mapError (fun e => s!"escape descriptor does not parse: {e}")
  let escapeKeys ← derivedKeys lib escape inputs.maxDerivationIndex
  ensureControlled lib escape escapeKeys
  let ancestors := escapeAncestorKeys lib escape
  let shared ← inputs.hotDescriptors.mapM
    (hotViolations lib inputs.maxDerivationIndex escape (escapeKeys.keys ++ ancestors))
  let oneSeed ← inputs.hotDescriptors.mapM (fingerprintViolations lib (fingerprints lib escape))
  let violations := inputs.comparisonKeys.flatMap (keyViolations lib escapeKeys ancestors) ++
    (shared.flatten ++ oneSeed.flatten)
  if violations.isEmpty then pure (report lib inputs escape escapeKeys ancestors)
  else throw (violationMessage violations)

end Check

/-! ### What the scans collect -/

section Collected

variable {δ ξ κ : Type} {lib : Miniscript δ ξ κ}

/-- A loop that adds to a map, and may stop with an error, has added what its items add. -/
theorem mem_foldlM {ι ε : Type} {step : Map PublicKey Nat → ι → Except ε (Map PublicKey Nat)}
    {adds : ι → PublicKey → Prop}
    (each : ∀ keys item keys', step keys item = .ok keys' → ∀ key, key ∈ keys' ↔ key ∈ keys ∨ adds item key)
    {items : List ι} {keys keys' : Map PublicKey Nat} (done : items.foldlM step keys = .ok keys') (key : PublicKey) :
    key ∈ keys' ↔ key ∈ keys ∨ ∃ item ∈ items, adds item key := by
  induction items generalizing keys with
  | nil =>
    cases done
    simp
  | cons item rest ih =>
    rw [List.foldlM_cons] at done
    obtain ⟨mid, first, later⟩ := ok_of_bind done
    rw [ih later, each keys item mid first]
    simp only [List.mem_cons, exists_eq_or_imp, or_assoc]

theorem mem_orInsert (index : Nat) (keys : Map PublicKey Nat) (key other : PublicKey) :
    other ∈ orInsert index keys key ↔ other ∈ keys ∨ other = key := by
  unfold orInsert
  split_ifs with held
  · constructor
    · exact Or.inl
    · rintro (member | rfl)
      · exact member
      · exact held
  · rw [AList.mem_insert, or_comm]

theorem mem_foldl_orInsert (index : Nat) (found : List PublicKey) (keys : Map PublicKey Nat) (key : PublicKey) :
    key ∈ found.foldl (orInsert index) keys ↔ key ∈ keys ∨ key ∈ found := by
  induction found generalizing keys with
  | nil => simp
  | cons first rest ih => rw [List.foldl_cons, ih, mem_orInsert, List.mem_cons, or_assoc]

/-- The key stands in a script of the descriptor at an index that is looked at. -/
structure Holds (lib : Miniscript δ ξ κ) (descriptor : δ) (maxIndex : Nat) (spk : Script) (key : PublicKey) : Prop where
  derived : ∃ singles, lib.intoSingleDescriptors descriptor = .ok singles ∧ ∃ single ∈ singles,
    ∃ index ≤ lastIndex lib single maxIndex, ∃ definite, lib.derivedDescriptor single index = .ok definite ∧
      definite.scriptPubkey = spk ∧ key ∈ definite.keys

theorem mem_scanIndex {single : δ} {index : Nat} {keys keys' : Map PublicKey Nat}
    (scanned : scanIndex lib single keys index = .ok keys') (key : PublicKey) :
    key ∈ keys' ↔ key ∈ keys ∨ ∃ definite, lib.derivedDescriptor single index = .ok definite ∧ key ∈ definite.keys := by
  unfold scanIndex at scanned
  obtain ⟨definite, found, scanned⟩ := ok_of_bind scanned
  cases scanned
  rw [mem_foldl_orInsert, mapError_ok found]
  simp only [Except.ok.injEq, exists_eq_left']

theorem mem_derivedKeys {descriptor : δ} {maxIndex : Nat} {keys : Map PublicKey Nat}
    (derived : derivedKeys lib descriptor maxIndex = .ok keys) (key : PublicKey) :
    key ∈ keys ↔ ∃ spk, Holds lib descriptor maxIndex spk key := by
  unfold derivedKeys at derived
  obtain ⟨singles, expanded, scanned⟩ := ok_of_bind derived
  have branch : ∀ keys single keys', (List.range (lastIndex lib single maxIndex + 1)).foldlM (scanIndex lib single) keys =
      .ok keys' → ∀ key, key ∈ keys' ↔ key ∈ keys ∨ ∃ index ∈ List.range (lastIndex lib single maxIndex + 1),
        ∃ definite, lib.derivedDescriptor single index = .ok definite ∧ key ∈ definite.keys :=
    fun _ _ _ scanned => mem_foldlM (fun _ _ _ found => mem_scanIndex found) scanned
  rw [mem_foldlM branch scanned key]
  simp only [AList.notMem_empty, false_or, List.mem_range, Nat.lt_succ_iff]
  constructor
  · rintro ⟨single, member, index, inside, definite, found, held⟩
    exact ⟨_, singles, mapError_ok expanded, single, member, index, inside, definite, found, rfl, held⟩
  · rintro ⟨spk, others, split, single, member, index, inside, definite, found, _, held⟩
    cases split.symm.trans (mapError_ok expanded)
    exact ⟨single, member, index, inside, definite, found, held⟩

/-! ### The ancestors -/

/-- The key expression names the extended key with the path. -/
def Names (lib : Miniscript δ ξ κ) (key : κ) (xkey : ξ) (path : List ChildNumber) : Prop :=
  lib.named key = .xPub xkey path ∨ ∃ paths, lib.named key = .multiXPub xkey paths ∧ path ∈ paths

/-- The extended key stands on the non-hardened part of a derivation path of the descriptor. -/
structure Ancestor (lib : Miniscript δ ξ κ) (descriptor : δ) (xpub : ξ) : Prop where
  onPath : ∃ key ∈ lib.keys descriptor, ∃ xkey path steps rest, Names lib key xkey path ∧ path = steps ++ rest ∧
    (∀ step ∈ steps, ∃ index, step = .normal index) ∧ steps.foldlM lib.ckdPub xkey = .ok xpub

theorem mem_pushKey (out : List PublicKey) (key other : PublicKey) :
    other ∈ pushKey out key ↔ other ∈ out ∨ other = key := by
  unfold pushKey
  split_ifs with held
  · constructor
    · exact Or.inl
    · rintro (member | rfl)
      · exact member
      · exact held
  · rw [List.mem_append, List.mem_singleton]

theorem collectSteps_subset (current : ξ) (out : List PublicKey) (path : List ChildNumber) :
    out ⊆ collectSteps lib current out path := by
  induction path generalizing current out with
  | nil => exact List.Subset.refl out
  | cons step rest ih =>
    rw [collectSteps]
    cases lib.ckdPub current step with
    | error e => exact List.Subset.refl out
    | ok child =>
      intro key member
      exact ih child _ ((mem_pushKey out _ key).mpr (Or.inl member))

/-- Every step that derives is collected. -/
theorem mem_collectSteps {steps : List ChildNumber} {xpub : ξ} (current : ξ) (out : List PublicKey)
    (rest : List ChildNumber) (held : .new (lib.xpubKey current) ∈ out)
    (derives : steps.foldlM lib.ckdPub current = .ok xpub) :
    .new (lib.xpubKey xpub) ∈ collectSteps lib current out (steps ++ rest) := by
  induction steps generalizing current out with
  | nil =>
    cases derives
    exact collectSteps_subset _ out rest held
  | cons step later ih =>
    rw [List.foldlM_cons] at derives
    obtain ⟨child, first, derives⟩ := ok_of_bind derives
    rw [List.cons_append, collectSteps, first]
    exact ih child _ ((mem_pushKey out _ _).mpr (Or.inr rfl)) derives

theorem collectXpubAncestors_subset (xkey : ξ) (path : List ChildNumber) (out : List PublicKey) :
    out ⊆ collectXpubAncestors lib xkey path out := by
  intro key member
  exact collectSteps_subset xkey _ path ((mem_pushKey out _ key).mpr (Or.inl member))

theorem subset_foldl {ι : Type} {step : List PublicKey → ι → List PublicKey} (grows : ∀ out item, out ⊆ step out item)
    (items : List ι) (out : List PublicKey) : out ⊆ items.foldl step out := by
  induction items generalizing out with
  | nil => exact List.Subset.refl out
  | cons first rest ih => exact List.Subset.trans (grows out first) (ih _)

theorem mem_foldl_of_grows {ι : Type} {step : List PublicKey → ι → List PublicKey} (grows : ∀ out item, out ⊆ step out item)
    {key : PublicKey} {item : ι} (here : ∀ out, key ∈ step out item) {items : List ι} (member : item ∈ items)
    (out : List PublicKey) : key ∈ items.foldl step out := by
  induction items generalizing out with
  | nil => cases member
  | cons first rest ih =>
    rw [List.foldl_cons]
    rcases List.mem_cons.mp member with rfl | later
    · exact subset_foldl grows rest _ (here out)
    · exact ih later _

theorem collectKey_subset (out : List PublicKey) (key : κ) : out ⊆ collectKey lib out key := by
  unfold collectKey
  cases lib.named key with
  | single => exact List.Subset.refl out
  | xPub xkey path => exact collectXpubAncestors_subset xkey path out
  | multiXPub xkey paths => exact subset_foldl (fun out path => collectXpubAncestors_subset xkey path out) paths out

theorem mem_escapeAncestorKeys {descriptor : δ} {xpub : ξ} (ancestor : Ancestor lib descriptor xpub) :
    .new (lib.xpubKey xpub) ∈ escapeAncestorKeys lib descriptor := by
  obtain ⟨key, listed, xkey, _, steps, rest, names, rfl, _, derives⟩ := ancestor.onPath
  have walked : ∀ out, .new (lib.xpubKey xpub) ∈ collectXpubAncestors lib xkey (steps ++ rest) out :=
    fun out => mem_collectSteps xkey _ rest ((mem_pushKey out _ _).mpr (Or.inr rfl)) derives
  apply mem_foldl_of_grows collectKey_subset _ listed
  intro out
  unfold collectKey
  rcases names with single | ⟨paths, several, member⟩
  · rw [single]
    exact walked out
  · rw [several]
    exact mem_foldl_of_grows (fun out path => collectXpubAncestors_subset xkey path out) walked member out

/-! ### What a check that passes has compared -/

/-- Everything the check looks at is in order. -/
structure Clear (lib : Miniscript δ ξ κ) (inputs : IndependenceInputs) (escape : δ) (escapeKeys : Map PublicKey Nat) :
    Prop where
  parsed : lib.fromStr inputs.escapeDescriptor = .ok escape
  derived : derivedKeys lib escape inputs.maxDerivationIndex = .ok escapeKeys
  ranged : lib.hasWildcard escape = true
  controlled : escapeKeys.keys ≠ []
  vault : ∀ entry ∈ inputs.comparisonKeys, entry.2 ∉ escapeKeys ∧ entry.2 ∉ escapeAncestorKeys lib escape
  hot : ∀ hot ∈ inputs.hotDescriptors, ∃ parsed hotKeys, lib.fromStr hot = .ok parsed ∧
    lib.toString parsed ≠ lib.toString escape ∧ derivedKeys lib parsed inputs.maxDerivationIndex = .ok hotKeys ∧
    (∀ key ∈ hotKeys.keys ++ escapeAncestorKeys lib parsed, key ∉ escapeKeys.keys ++ escapeAncestorKeys lib escape) ∧
    ∀ text ∈ fingerprints lib parsed, text ∉ fingerprints lib escape

theorem keyViolations_nil_iff (escapeKeys : Map PublicKey Nat) (ancestors : List PublicKey)
    (entry : String × PublicKey) :
    keyViolations lib escapeKeys ancestors entry = [] ↔ entry.2 ∉ escapeKeys ∧ entry.2 ∉ ancestors := by
  unfold keyViolations
  simp only [List.append_eq_nil_iff]
  apply and_congr
  · rw [← AList.lookup_eq_none]
    cases escapeKeys.lookup entry.2 with
    | none => simp
    | some index => simp
  · by_cases held : entry.2 ∈ ancestors
    · simp [held]
    · simp [held]

theorem sortKeys_eq_nil_iff (keys : List PublicKey) : sortKeys keys = [] ↔ keys = [] := by
  unfold sortKeys
  rw [← List.length_eq_zero_iff, List.length_insertionSort, List.length_eq_zero_iff, List.dedup_eq_nil]

theorem hotViolations_nil_iff (maxIndex : Nat) (escape : δ) (escapeAll : List PublicKey) (hot : String) :
    hotViolations lib maxIndex escape escapeAll hot = .ok [] ↔ ∃ parsed hotKeys, lib.fromStr hot = .ok parsed ∧
      lib.toString parsed ≠ lib.toString escape ∧ derivedKeys lib parsed maxIndex = .ok hotKeys ∧
      ∀ key ∈ hotKeys.keys ++ escapeAncestorKeys lib parsed, key ∉ escapeAll := by
  unfold hotViolations parseHot
  cases read : lib.fromStr hot with
  | error e => simp [Except.mapError, bind, Except.bind]
  | ok parsed =>
    simp only [Except.mapError, bind, Except.bind, Except.ok.injEq, exists_and_left, exists_eq_left']
    by_cases same : lib.toString parsed = lib.toString escape
    · rw [if_pos same]
      simp [same, pure, Except.pure]
    · rw [if_neg same]
      cases derived : derivedKeys lib parsed maxIndex with
      | error e => simp
      | ok hotKeys =>
        simp only [pure, Except.pure, Except.ok.injEq, List.map_eq_nil_iff, sortKeys_eq_nil_iff, List.filter_eq_nil_iff,
          decide_eq_true_eq, exists_eq_left', same, ne_eq, not_false_eq_true, true_and]

theorem fingerprintViolations_nil_iff (escapeFingerprints : List String) (hot : String) :
    fingerprintViolations lib escapeFingerprints hot = .ok [] ↔ ∃ parsed, lib.fromStr hot = .ok parsed ∧
      ∀ text ∈ fingerprints lib parsed, text ∉ escapeFingerprints := by
  unfold fingerprintViolations parseHot
  cases read : lib.fromStr hot with
  | error e => simp [Except.mapError, bind, Except.bind]
  | ok parsed =>
    simp only [Except.mapError, bind, Except.bind, pure, Except.pure, Except.ok.injEq, List.map_eq_nil_iff,
      List.filter_eq_nil_iff, decide_eq_true_eq, exists_eq_left']

/-- Answers that are all there and all empty. -/
theorem mapM_flatten_nil_iff {ι ε β : Type} (f : ι → Except ε (List β)) (items : List ι) :
    (∃ answers, items.mapM f = .ok answers ∧ answers.flatten = []) ↔ ∀ item ∈ items, f item = .ok [] := by
  induction items with
  | nil => simp [pure, Except.pure]
  | cons item rest ih =>
    rw [List.forall_mem_cons, ← ih, List.mapM_cons]
    cases first : f item with
    | error e => simp [bind, Except.bind]
    | ok found =>
      cases later : rest.mapM f with
      | error e => simp [bind, Except.bind]
      | ok answers => simp [bind, Except.bind, pure, Except.pure]

theorem ensureControlled_ok_iff (escape : δ) (escapeKeys : Map PublicKey Nat) :
    ensureControlled lib escape escapeKeys = .ok () ↔ lib.hasWildcard escape = true ∧ escapeKeys.keys ≠ [] := by
  unfold ensureControlled
  cases lib.hasWildcard escape with
  | false =>
    rw [if_pos Bool.not_false]
    exact ⟨nofun, fun both => absurd both.1 Bool.false_ne_true⟩
  | true =>
    rw [if_neg (by decide)]
    by_cases keyless : escapeKeys.keys = []
    · rw [if_pos (List.isEmpty_iff.mpr keyless)]
      exact ⟨nofun, fun both => absurd keyless both.2⟩
    · rw [if_neg (fun empty => keyless (List.isEmpty_iff.mp empty))]
      exact ⟨fun _ => ⟨rfl, keyless⟩, fun _ => rfl⟩

/-- The check passes exactly where everything it looks at is in order. -/
theorem checkIndependence_ok_iff (inputs : IndependenceInputs) :
    (∃ report, checkIndependence lib inputs = .ok report) ↔ ∃ escape escapeKeys, Clear lib inputs escape escapeKeys := by
  constructor
  · rintro ⟨text, passed⟩
    unfold checkIndependence at passed
    obtain ⟨escape, parsed, passed⟩ := ok_of_bind passed
    obtain ⟨escapeKeys, derived, passed⟩ := ok_of_bind passed
    obtain ⟨_, controls, passed⟩ := ok_of_bind passed
    obtain ⟨shared, compared, passed⟩ := ok_of_bind passed
    obtain ⟨oneSeed, printed, passed⟩ := ok_of_bind passed
    simp only at passed
    split_ifs at passed with none_found
    rw [List.isEmpty_iff, List.append_eq_nil_iff, List.append_eq_nil_iff, List.flatMap_eq_nil_iff] at none_found
    obtain ⟨vault, disjoint, unlinked⟩ := none_found
    have hot := (mapM_flatten_nil_iff _ _).mp ⟨shared, compared, disjoint⟩
    have seeds := (mapM_flatten_nil_iff _ _).mp ⟨oneSeed, printed, unlinked⟩
    obtain ⟨ranged, controlled⟩ := (ensureControlled_ok_iff escape escapeKeys).mp controls
    refine ⟨escape, escapeKeys, mapError_ok parsed, derived, ranged, controlled, ?_, ?_⟩
    · intro entry member
      exact (keyViolations_nil_iff _ _ entry).mp (vault entry member)
    · intro text member
      obtain ⟨parsed, hotKeys, read, differs, scanned, apart⟩ := (hotViolations_nil_iff _ _ _ _).mp (hot text member)
      obtain ⟨other, reread, foreign⟩ := (fingerprintViolations_nil_iff _ _).mp (seeds text member)
      cases read.symm.trans reread
      exact ⟨parsed, hotKeys, read, differs, scanned, apart, foreign⟩
  · rintro ⟨escape, escapeKeys, clear⟩
    have hot : ∀ text ∈ inputs.hotDescriptors, hotViolations lib inputs.maxDerivationIndex escape
        (escapeKeys.keys ++ escapeAncestorKeys lib escape) text = .ok [] := by
      intro text member
      obtain ⟨parsed, hotKeys, read, differs, scanned, apart, _⟩ := clear.hot text member
      exact (hotViolations_nil_iff _ _ _ _).mpr ⟨parsed, hotKeys, read, differs, scanned, apart⟩
    have seeds : ∀ text ∈ inputs.hotDescriptors, fingerprintViolations lib (fingerprints lib escape) text = .ok [] := by
      intro text member
      obtain ⟨parsed, _, read, _, _, _, foreign⟩ := clear.hot text member
      exact (fingerprintViolations_nil_iff _ _).mpr ⟨parsed, read, foreign⟩
    obtain ⟨shared, compared, disjoint⟩ := (mapM_flatten_nil_iff _ _).mpr hot
    obtain ⟨oneSeed, printed, unlinked⟩ := (mapM_flatten_nil_iff _ _).mpr seeds
    have vault : inputs.comparisonKeys.flatMap (keyViolations lib escapeKeys (escapeAncestorKeys lib escape)) = [] := by
      rw [List.flatMap_eq_nil_iff]
      intro entry member
      exact (keyViolations_nil_iff _ _ entry).mpr (clear.vault entry member)
    have controls := (ensureControlled_ok_iff escape escapeKeys).mpr ⟨clear.ranged, clear.controlled⟩
    refine ⟨report lib inputs escape escapeKeys (escapeAncestorKeys lib escape), ?_⟩
    unfold checkIndependence
    rw [clear.parsed]
    simp only [Except.mapError, bind, Except.bind, clear.derived, controls, compared, printed, vault, disjoint, unlinked,
      List.append_nil, List.isEmpty_nil, if_true]
    rfl

/-! ### What independence asks -/

def policySingle (lib : Miniscript δ ξ κ) (single : δ) : Policy.SingleDescriptor :=
  ⟨lib.hasWildcard single, fun index =>
    (lib.derivedDescriptor single index).toOption.map DerivedDescriptor.scriptPubkey⟩

/-- What a node reads of a descriptor. -/
def policyDescriptor (lib : Miniscript δ ξ κ) (descriptor : δ) : Policy.Descriptor :=
  ⟨(lib.intoSingleDescriptors descriptor).toOption.map (List.map (policySingle lib))⟩

/-- The scan of the ceremony covers the scripts that a node accepts. -/
theorem derivesWithin_of_holds {descriptor : δ} {maxIndex : Nat} {spk : Script} {key : PublicKey}
    (holds : Holds lib descriptor maxIndex spk key) :
    derivesWithin (policyDescriptor lib descriptor) spk maxIndex = true := by
  obtain ⟨singles, split, single, member, index, inside, definite, found, pays, _⟩ := holds.derived
  rw [Policy.derivesWithin_iff]
  refine ⟨singles.map (policySingle lib), ?_, policySingle lib single, List.mem_map_of_mem member, index, inside, ?_⟩
  · rw [policyDescriptor, split]
    rfl
  · simp only [policySingle, found, Except.toOption, Option.map_some, pays]

/-- The key is one of the wallet's: it stands in a script that a node accepts, or on the way to one. -/
def Belongs (lib : Miniscript δ ξ κ) (descriptor : δ) (maxIndex : Nat) (key : PublicKey) : Prop :=
  (∃ spk, derivesWithin (policyDescriptor lib descriptor) spk maxIndex = true ∧
    Holds lib descriptor maxIndex spk key) ∨
  ∃ xpub, Ancestor lib descriptor xpub ∧ key = .new (lib.xpubKey xpub)

/-- No point of the escape wallet, up to sign, is one of the vault's, the coordinator's or the hot wallet's. -/
structure Independent (lib : Miniscript δ ξ κ) (inputs : IndependenceInputs) (escape : δ) : Prop where
  vault : ∀ entry ∈ inputs.comparisonKeys, ∀ held, Belongs lib escape inputs.maxDerivationIndex held →
    entry.2.inner.x ≠ held.inner.x
  hot : ∀ hot ∈ inputs.hotDescriptors, ∀ parsed, lib.fromStr hot = .ok parsed →
    ∀ ours, Belongs lib escape inputs.maxDerivationIndex ours →
      ∀ theirs, Belongs lib parsed inputs.maxDerivationIndex theirs → ours.inner.x ≠ theirs.inner.x

/-- Keys that are compared and are one point, up to sign, are spelled with one sign and one length. -/
structure SpelledAlike (lib : Miniscript δ ξ κ) (inputs : IndependenceInputs) (escape : δ) : Prop where
  vault : ∀ entry ∈ inputs.comparisonKeys, ∀ held, Belongs lib escape inputs.maxDerivationIndex held →
    entry.2.inner.x = held.inner.x → entry.2 = held
  hot : ∀ hot ∈ inputs.hotDescriptors, ∀ parsed, lib.fromStr hot = .ok parsed →
    ∀ ours, Belongs lib escape inputs.maxDerivationIndex ours →
      ∀ theirs, Belongs lib parsed inputs.maxDerivationIndex theirs → ours.inner.x = theirs.inner.x → ours = theirs

/-- A check that passes vouches for the independence of the escape wallet. -/
def MissesNoOverlap (lib : Miniscript δ ξ κ) (inputs : IndependenceInputs) : Prop :=
  ∀ report, checkIndependence lib inputs = .ok report →
    ∀ escape, lib.fromStr inputs.escapeDescriptor = .ok escape → Independent lib inputs escape

/-- Every key of a wallet is among those that are compared. -/
theorem mem_of_belongs {descriptor : δ} {maxIndex : Nat} {keys : Map PublicKey Nat}
    (derived : derivedKeys lib descriptor maxIndex = .ok keys) {key : PublicKey}
    (belongs : Belongs lib descriptor maxIndex key) : key ∈ keys ∨ key ∈ escapeAncestorKeys lib descriptor := by
  rcases belongs with ⟨spk, _, holds⟩ | ⟨xpub, ancestor, rfl⟩
  · exact Or.inl ((mem_derivedKeys derived key).mpr ⟨spk, holds⟩)
  · exact Or.inr (mem_escapeAncestorKeys ancestor)

/-- Where compared keys with one x coordinate are spelled alike, whatever passes is independent. -/
theorem independent_of_clear {inputs : IndependenceInputs} {escape : δ} {escapeKeys : Map PublicKey Nat}
    (clear : Clear lib inputs escape escapeKeys) (alike : SpelledAlike lib inputs escape) :
    Independent lib inputs escape := by
  constructor
  · intro entry member held belongs same
    obtain ⟨underived, unrelated⟩ := clear.vault entry member
    rw [alike.vault entry member held belongs same] at underived unrelated
    rcases mem_of_belongs clear.derived belongs with child | ancestor
    · exact underived child
    · exact unrelated ancestor
  · intro hot member parsed read ours belongs theirs belongs' same
    obtain ⟨other, hotKeys, reread, _, derived, apart, _⟩ := clear.hot hot member
    cases reread.symm.trans read
    have shared := alike.hot hot member parsed read ours belongs theirs belongs' same
    subst shared
    exact apart ours (List.mem_append.mpr (mem_of_belongs derived belongs'))
      (List.mem_append.mpr (mem_of_belongs clear.derived belongs))

/-- The check misses no overlap exactly where all that passes it is spelled alike. -/
theorem misses_no_overlap_iff (lib : Miniscript δ ξ κ) (inputs : IndependenceInputs) :
    MissesNoOverlap lib inputs ↔
      ∀ escape escapeKeys, Clear lib inputs escape escapeKeys → SpelledAlike lib inputs escape := by
  constructor
  · intro complete escape escapeKeys clear
    obtain ⟨text, passed⟩ := (checkIndependence_ok_iff inputs).mpr ⟨escape, escapeKeys, clear⟩
    have independent := complete text passed escape clear.parsed
    constructor
    · intro entry member held belongs same
      exact absurd same (independent.vault entry member held belongs)
    · intro hot member parsed read ours belongs theirs belongs' same
      exact absurd same (independent.hot hot member parsed read ours belongs theirs belongs')
  · intro alike text passed escape parsed
    obtain ⟨other, escapeKeys, clear⟩ := (checkIndependence_ok_iff inputs).mp ⟨text, passed⟩
    cases clear.parsed.symm.trans parsed
    exact independent_of_clear clear (alike escape escapeKeys clear)

end Collected

namespace IndependenceSample

/-- A key as a descriptor spells it; an extended one stands for its point, and its children append to it. -/
inductive Expression where
  | full (key : PublicKey)
  | xOnly (x : Bytes)
  | extended (xkey : Bytes) (wildcard : Bool)

structure Wallet where
  text : String
  keys : List Expression

/-- `tr(X,pk(tpub/*))`: the internal key is an x coordinate alone, and the branch is ranged. -/
def escape : Wallet := ⟨"tr(07,pk(tpub01/*))", [.extended [1] true, .xOnly [7]]⟩

def hot : Wallet := ⟨"wpkh(tpub02/*)", [.extended [2] true]⟩

def ckdPub (xkey : Bytes) : ChildNumber → Except String Bytes
  | .normal index => .ok (xkey ++ [UInt8.ofNat index])
  | .hardened _ => .error "cannot derive hardened key from public key"

/-- An x coordinate alone stands for the even point. -/
def derivePublicKey (index : Nat) : Expression → Except String PublicKey
  | .full key => .ok key
  | .xOnly x => .ok (.new ⟨x, false⟩)
  | .extended xkey false => .ok (.new ⟨xkey, false⟩)
  | .extended xkey true => (ckdPub xkey (.normal index)).map (fun child => .new ⟨child, false⟩)

def library : Miniscript Wallet Bytes Expression where
  fromStr text := if text = escape.text then .ok escape else if text = hot.text then .ok hot else .error "unexpected"
  toString := Wallet.text
  hasWildcard wallet := wallet.keys.any (fun key => match key with
    | .extended _ wildcard => wildcard
    | _ => false)
  intoSingleDescriptors wallet := .ok [wallet]
  derivedDescriptor wallet index := (wallet.keys.mapM (derivePublicKey index)).map (fun keys =>
    ⟨keys.flatMap (fun key => key.inner.x), keys⟩)
  keys := Wallet.keys
  named
    | .extended xkey _ => .xPub xkey []
    | _ => .single
  masterFingerprint
    | .full key => Hex.toHex key.inner.x
    | .xOnly x => Hex.toHex x
    | .extended xkey _ => Hex.toHex xkey
  xpubKey xkey := ⟨xkey, false⟩
  ckdPub := ckdPub
  displayKey key := (if key.compressed then (if key.inner.odd then "03" else "02") else "04") ++ Hex.toHex key.inner.x

/-- The user holds the odd point over the internal key of the escape wallet. -/
def inputs : IndependenceInputs where
  userKey := .new ⟨[7], true⟩
  nodeKeys := [.new ⟨[8], false⟩, .new ⟨[9], true⟩, .new ⟨[10], false⟩]
  recoveryKeys := [.new ⟨[11], false⟩]
  coordinatorKey := .new ⟨[12], true⟩
  escapeDescriptor := escape.text
  hotDescriptors := [hot.text]
  maxDerivationIndex := 1

end IndependenceSample

/-- The internal key of the escape wallet is the user's, up to sign, and the check passes. -/
theorem overlap_missed : ¬MissesNoOverlap IndependenceSample.library IndependenceSample.inputs := by
  intro complete
  have passes : (checkIndependence IndependenceSample.library IndependenceSample.inputs).isOk = true := by
    decide
  cases passed : checkIndependence IndependenceSample.library IndependenceSample.inputs with
  | error text =>
    rw [passed] at passes
    cases passes
  | ok text =>
    have independent := complete text passed IndependenceSample.escape rfl
    have holds : Holds IndependenceSample.library IndependenceSample.escape 1 [1, 0, 7] (.new ⟨[7], false⟩) :=
      ⟨_, rfl, _, List.mem_singleton_self _, 0, Nat.zero_le _, _, rfl, rfl, by decide⟩
    exact independent.vault ("user", .new ⟨[7], true⟩) List.mem_cons_self (.new ⟨[7], false⟩)
      (Or.inl ⟨_, derivesWithin_of_holds holds, holds⟩) rfl

end BtcPolicy.Setup
