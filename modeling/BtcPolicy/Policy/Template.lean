import BtcPolicy.Encoding
import Mathlib.Data.List.TakeWhile

/-! The vault's descriptor template: the user and a quorum of the nodes, or after the timelock two of three recovery
keys. The descriptor is the library's syntax tree; what is read out of it is written back by `vault_descriptor_string`. -/

namespace BtcPolicy.Template
open Bitcoin Hex

/-! ### Descriptors -/

/-- `Threshold`: from one to all of its items. -/
structure Threshold (Pk : Type) where
  k : Nat
  data : List Pk
  positive : 1 ≤ k
  fits : k ≤ data.length

/-- The fragments of Miniscript. -/
inductive Miniscript (Pk : Type) where
  | fls
  | tru
  | pkK (key : Pk)
  | pkH (key : Pk)
  | rawPkH (hash : Bytes)
  | after (lockTime : Nat)
  | older (sequence : Nat)
  | sha256 (hash : Bytes)
  | hash256 (hash : Bytes)
  | ripemd160 (hash : Bytes)
  | hash160 (hash : Bytes)
  | alt (sub : Miniscript Pk)
  | swap (sub : Miniscript Pk)
  | check (sub : Miniscript Pk)
  | dupIf (sub : Miniscript Pk)
  | verify (sub : Miniscript Pk)
  | nonZero (sub : Miniscript Pk)
  | zeroNotEqual (sub : Miniscript Pk)
  | andV (left right : Miniscript Pk)
  | andB (left right : Miniscript Pk)
  | andOr (condition left right : Miniscript Pk)
  | orB (left right : Miniscript Pk)
  | orD (left right : Miniscript Pk)
  | orC (left right : Miniscript Pk)
  | orI (left right : Miniscript Pk)
  | thresh (k : Nat) (subs : List (Miniscript Pk))
  | multi (keys : Threshold Pk)
  | multiA (keys : Threshold Pk)

inductive WshInner (Pk : Type) where
  | sortedMulti (keys : Threshold Pk)
  | ms (script : Miniscript Pk)

/-- A descriptor; what the kinds other than `wsh` carry is not looked at. -/
inductive Descriptor (Pk : Type) where
  | bare
  | pkh
  | wpkh
  | sh
  | wsh (inner : WshInner Pk)
  | tr

/-- What is read of a key expression: how many derivation paths it has, its text, and, where it is definite, the
public key it stands for. -/
structure MiniscriptKey (Pk : Type) where
  numDerPaths : Pk → Nat
  text : Pk → String
  publicKey : Pk → PublicKey
  named : ∀ a b, numDerPaths a = 0 → numDerPaths b = 0 → text a = text b → publicKey a = publicKey b

/-! ### The template -/

/-- `RECOVERY_TIMELOCK_NSEQUENCE`. -/
def recoveryTimelockNsequence : Nat := 4224679

/-- `RECOVERY_THRESHOLD`. -/
def recoveryThreshold : Nat := 2

/-- `RECOVERY_KEYS`. -/
def recoveryKeys : Nat := 3

def vaultDescriptorString (user : String) (threshold : Nat) (nodes recovery : List String) : String :=
  let nodes := ",".intercalate nodes
  let recovery := ",".intercalate recovery
  s!"wsh(or_i(and_v(v:pk({user}),multi({threshold},{nodes}))," ++
    s!"and_v(v:older({recoveryTimelockNsequence}),multi({recoveryThreshold},{recovery}))))"

structure VaultTemplate (Pk : Type) where
  userKey : Pk
  threshold : Nat
  nodeKeys : List Pk
  recoveryKeys : List Pk
  recoveryTimelock : Nat

/-- The user's key, the nodes' keys, the recovery keys. -/
def VaultTemplate.keys {Pk : Type} (t : VaultTemplate Pk) : List Pk := t.userKey :: (t.nodeKeys ++ t.recoveryKeys)

section Parse

variable {Pk : Type} (key : MiniscriptKey Pk)

/-- The loop over the keys with their roles: each is definite, and its text has not been seen. -/
def checkKeys (nodes : Threshold Pk) : List (String × Pk) → List String → Except String Unit
  | [], _ => .ok ()
  | (role, k) :: rest, seen =>
    let text := key.text k
    let quorum := nodes.k
    let members := nodes.data.length
    if key.numDerPaths k ≠ 0 then
      .error (s!"vault descriptor {role} key {text} is a ranged/extended key expression; the VAULT descriptor must be " ++
        "DEFINITE (one concrete public key per role) because every node parses it as a concrete descriptor at " ++
        "startup. Destination allowlist wallets (hot, escape) stay ranged — this rule is only the vault")
    else if text ∈ seen then
      .error (s!"key {text} appears more than once (in the {role} set) — every vault key (user, {quorum}-of-{members} " ++
        "nodes, 2-of-3 recovery) must be distinct; a duplicate silently weakens the threshold and risks permanent loss")
    else checkKeys nodes rest (text :: seen)

def roles (user : Pk) (nodes recovery : List Pk) : List (String × Pk) :=
  ("user", user) :: (nodes.map (fun k => ("node", k)) ++ recovery.map (fun k => ("recovery", k)))

def parseVaultTemplate (descriptor : Descriptor Pk) : Except String (VaultTemplate Pk) :=
  match descriptor with
  | .wsh (.ms (.orI (.andV (.verify (.check (.pkK user))) (.multi nodes))
      (.andV (.verify (.older timelock)) (.multi recovery)))) =>
    let quorum := recovery.k
    let members := recovery.data.length
    let threshold := nodes.k
    if timelock ≠ recoveryTimelockNsequence then
      .error (s!"recovery branch timelock is older({timelock}), not the required BIP68 time-based " ++
        s!"older({recoveryTimelockNsequence}) (30375 units of 512s + type-flag bit 22); older(30375) would be a " ++
        "30375-BLOCK height lock, the wrong policy")
    else if recovery.k ≠ recoveryThreshold ∨ recovery.data.length ≠ recoveryKeys then
      .error s!"recovery keyset is {quorum}-of-{members}, not the fixed 2-of-3 (ADR-0013 §1)"
    else
      match checkKeys key nodes (roles user nodes.data recovery.data) [] with
      | .error e => .error e
      | .ok _ =>
        if nodes.k < 1 then
          .error (s!"normal node threshold is {threshold}, must be at least 1 (a 0-of-n quorum needs no node " ++
            "signature)")
        else .ok ⟨user, nodes.k, nodes.data, recovery.data, timelock⟩
  | _ => .error ("descriptor is not the vault template wsh(or_i(and_v(v:pk(USER),multi(t,NODES...))," ++
      "and_v(v:older(4224679),multi(2,REC_A,REC_B,REC_C))))")

/-! ### What is accepted -/

/-- The tree of the template. -/
def template (user : Pk) (nodes : Threshold Pk) (timelock : Nat) (recovery : Threshold Pk) : Descriptor Pk :=
  .wsh (.ms (.orI (.andV (.verify (.check (.pkK user))) (.multi nodes))
    (.andV (.verify (.older timelock)) (.multi recovery))))

/-- The descriptor is the template of these pieces, with a quorum from one to all of the nodes, two of three recovery
keys, the fixed timelock, and definite keys that are different public keys. -/
structure OnTemplate (descriptor : Descriptor Pk) (t : VaultTemplate Pk) : Prop where
  built : ∃ nodes recovery : Threshold Pk, descriptor = template t.userKey nodes t.recoveryTimelock recovery ∧
    nodes.k = t.threshold ∧ nodes.data = t.nodeKeys ∧ recovery.k = recoveryThreshold ∧ recovery.data = t.recoveryKeys
  recoverySize : t.recoveryKeys.length = recoveryKeys
  timelock : t.recoveryTimelock = recoveryTimelockNsequence
  threshold : 1 ≤ t.threshold ∧ t.threshold ≤ t.nodeKeys.length
  definite : ∀ k ∈ t.keys, key.numDerPaths k = 0
  distinct : (t.keys.map key.publicKey).Nodup

/-- As the code has it: the texts of the keys are different. -/
structure Passes (descriptor : Descriptor Pk) (t : VaultTemplate Pk) : Prop where
  built : ∃ nodes recovery : Threshold Pk, descriptor = template t.userKey nodes t.recoveryTimelock recovery ∧
    nodes.k = t.threshold ∧ nodes.data = t.nodeKeys ∧ recovery.k = recoveryThreshold ∧ recovery.data = t.recoveryKeys
  recoverySize : t.recoveryKeys.length = recoveryKeys
  timelock : t.recoveryTimelock = recoveryTimelockNsequence
  definite : ∀ k ∈ t.keys, key.numDerPaths k = 0
  texts : (t.keys.map key.text).Nodup

variable {key}

theorem checkKeys_ok {nodes : Threshold Pk} {entries : List (String × Pk)} {seen : List String} :
    checkKeys key nodes entries seen = .ok () ↔
      (∀ k ∈ entries.map Prod.snd, key.numDerPaths k = 0) ∧ ((entries.map Prod.snd).map key.text).Nodup ∧
        ∀ k ∈ entries.map Prod.snd, key.text k ∉ seen := by
  induction entries generalizing seen with
  | nil => simp [checkKeys]
  | cons entry rest ih =>
    obtain ⟨role, k⟩ := entry
    unfold checkKeys
    by_cases ranged : key.numDerPaths k ≠ 0
    · simp [ranged]
    · by_cases repeated : key.text k ∈ seen
      · simp [ranged, repeated]
      · simp only [if_neg ranged, if_neg repeated, ih]
        rw [List.map_cons]
        generalize rest.map Prod.snd = others
        rw [List.forall_mem_cons, List.forall_mem_cons, List.map_cons, List.nodup_cons]
        constructor
        · rintro ⟨definite, distinct, fresh⟩
          refine ⟨⟨not_not.mp ranged, definite⟩, ⟨?_, distinct⟩, repeated,
            fun other member => List.not_mem_of_not_mem_cons (fresh other member)⟩
          intro again
          obtain ⟨other, member, same⟩ := List.mem_map.mp again
          exact List.ne_of_not_mem_cons (fresh other member) same
        · rintro ⟨⟨_, definite⟩, ⟨first, distinct⟩, _, fresh⟩
          refine ⟨definite, distinct, fun other member =>
            List.not_mem_cons_of_ne_of_not_mem (fun same => first ?_) (fresh other member)⟩
          exact List.mem_map.mpr ⟨other, member, same⟩

theorem map_snd_roles (user : Pk) (nodes recovery : List Pk) :
    (roles user nodes recovery).map Prod.snd = user :: (nodes ++ recovery) := by
  simp [roles, Function.comp_def]

theorem parseVaultTemplate_template {user : Pk} {nodes recovery : Threshold Pk} {timelock : Nat} {t : VaultTemplate Pk} :
    parseVaultTemplate key (template user nodes timelock recovery) = .ok t ↔
      timelock = recoveryTimelockNsequence ∧ recovery.k = recoveryThreshold ∧ recovery.data.length = recoveryKeys ∧
        checkKeys key nodes (roles user nodes.data recovery.data) [] = .ok () ∧
        t = ⟨user, nodes.k, nodes.data, recovery.data, timelock⟩ := by
  unfold parseVaultTemplate template
  simp only
  by_cases locked : timelock = recoveryTimelockNsequence
  · rw [if_neg (not_not_intro locked)]
    by_cases quorum : recovery.k ≠ recoveryThreshold ∨ recovery.data.length ≠ recoveryKeys
    · rw [if_pos quorum]
      simp only [reduceCtorEq, false_iff]
      tauto
    · rw [if_neg quorum]
      rw [not_or, ne_eq, not_not, ne_eq, not_not] at quorum
      cases checked : checkKeys key nodes (roles user nodes.data recovery.data) [] with
      | error e => simp
      | ok _ =>
        have positive : ¬nodes.k < 1 := Nat.not_lt_of_le nodes.positive
        simp only [if_neg positive, Except.ok.injEq, locked, quorum, true_and, eq_comm]
  · simp [locked]

/-- The code accepts a template whose keys have different texts. -/
theorem parseVaultTemplate_ok {descriptor : Descriptor Pk} {t : VaultTemplate Pk} :
    parseVaultTemplate key descriptor = .ok t ↔ Passes key descriptor t := by
  constructor
  · intro parsed
    have shape : ∃ user nodes timelock recovery, descriptor = template user nodes timelock recovery := by
      unfold parseVaultTemplate at parsed
      split at parsed
      · exact ⟨_, _, _, _, rfl⟩
      · cases parsed
    obtain ⟨user, nodes, timelock, recovery, rfl⟩ := shape
    obtain ⟨locked, quorum, size, checked, rfl⟩ := parseVaultTemplate_template.mp parsed
    obtain ⟨definite, texts, _⟩ := checkKeys_ok.mp checked
    rw [map_snd_roles] at definite texts
    exact ⟨⟨nodes, recovery, rfl, rfl, rfl, quorum, rfl⟩, size, locked, definite, texts⟩
  · rintro ⟨⟨nodes, recovery, rfl, threshold, nodeKeys, quorum, recoveryKeys'⟩, size, locked, definite, texts⟩
    obtain ⟨user, k, nodeData, recoveryData, timelock⟩ := t
    cases threshold
    cases nodeKeys
    cases recoveryKeys'
    refine parseVaultTemplate_template.mpr ⟨locked, quorum, size, checkKeys_ok.mpr ⟨?_, ?_, fun _ _ => List.not_mem_nil⟩, rfl⟩
    · rw [map_snd_roles]
      exact definite
    · rw [map_snd_roles]
      exact texts

end Parse

/-! ### Against the text -/

theorem vaultDescriptorString_eq (user : String) (threshold : Nat) (nodes recovery : List String) :
    vaultDescriptorString user threshold nodes recovery =
      "wsh(" ++ ("or_i(" ++ ("and_v(" ++ ("v:pk(" ++ user ++ ")") ++ "," ++
            ("multi(" ++ toString threshold ++ "," ++ ",".intercalate nodes ++ ")") ++ ")") ++ "," ++
          ("and_v(" ++ ("v:older(" ++ toString recoveryTimelockNsequence ++ ")") ++ "," ++
            ("multi(" ++ toString recoveryThreshold ++ "," ++ ",".intercalate recovery ++ ")") ++ ")") ++ ")") ++ ")" := by
  have opening : "wsh(or_i(and_v(v:pk(" = "wsh(" ++ ("or_i(" ++ ("and_v(" ++ "v:pk(")) := rfl
  have keyset : "),multi(" = ")" ++ ("," ++ "multi(") := rfl
  have branch : "))," = ")" ++ (")" ++ ",") := rfl
  have second : "and_v(v:older(" = "and_v(" ++ "v:older(" := rfl
  have closing : "))))" = ")" ++ (")" ++ (")" ++ ")")) := rfl
  unfold vaultDescriptorString
  simp only [toString, opening, keyset, branch, second, closing, String.append_assoc]

/-- How the library prints a descriptor, without its checksum, and reads a text. -/
structure Printing {Pk : Type} (key : MiniscriptKey Pk) where
  node : Miniscript Pk → String
  descriptor : Descriptor Pk → String
  fromStr : String → Except String (Descriptor Pk)
  wsh : ∀ script, descriptor (.wsh (.ms script)) = "wsh(" ++ node script ++ ")"
  -- an `or_i` over a constant and an `and_v` before one have shorter forms
  orI : ∀ a b c d, node (.orI (.andV a b) (.andV c d)) =
    "or_i(" ++ node (.andV a b) ++ "," ++ node (.andV c d) ++ ")"
  andV : ∀ left keys, node (.andV left (.multi keys)) = "and_v(" ++ node left ++ "," ++ node (.multi keys) ++ ")"
  verifyPk : ∀ k, node (.verify (.check (.pkK k))) = "v:pk(" ++ key.text k ++ ")"
  verifyOlder : ∀ sequence, node (.verify (.older sequence)) = "v:older(" ++ toString sequence ++ ")"
  multi : ∀ keys : Threshold Pk, node (.multi keys) =
    "multi(" ++ toString keys.k ++ "," ++ ",".intercalate (keys.data.map key.text) ++ ")"

section Claim

variable {Pk : Type} {key : MiniscriptKey Pk}

/-- The text `vault_descriptor_string` builds of the pieces. -/
def VaultTemplate.render (key : MiniscriptKey Pk) (t : VaultTemplate Pk) : String :=
  vaultDescriptorString (key.text t.userKey) t.threshold (t.nodeKeys.map key.text) (t.recoveryKeys.map key.text)

/-- The pieces of an accepted descriptor are written as the library prints it. -/
theorem Passes.render (printing : Printing key) {descriptor : Descriptor Pk} {t : VaultTemplate Pk}
    (passes : Passes key descriptor t) : t.render key = printing.descriptor descriptor := by
  obtain ⟨⟨nodes, recovery, rfl, threshold, nodeKeys, quorum, recoveryKeys'⟩, _, locked, _, _⟩ := passes
  rw [template, printing.wsh, printing.orI, printing.andV, printing.andV, printing.verifyPk, printing.verifyOlder,
    printing.multi, printing.multi, threshold, nodeKeys, quorum, recoveryKeys', locked]
  exact vaultDescriptorString_eq _ _ _ _

/-- Distinct texts, but one public key is written twice: with and without where it comes from, or with two of these. -/
def WritesOneKeyTwice (key : MiniscriptKey Pk) (keys : List Pk) : Prop :=
  ∃ a ∈ keys, ∃ b ∈ keys, key.text a ≠ key.text b ∧ key.publicKey a = key.publicKey b

/-- The descriptor is the fixed template with definite keys of different texts, and one public key is written twice. -/
def Disguised (key : MiniscriptKey Pk) (descriptor : Descriptor Pk) : Prop :=
  ∃ (user : Pk) (nodes recovery : Threshold Pk), descriptor = template user nodes recoveryTimelockNsequence recovery ∧
    recovery.k = recoveryThreshold ∧ recovery.data.length = recoveryKeys ∧
    (∀ k ∈ user :: (nodes.data ++ recovery.data), key.numDerPaths k = 0) ∧
    ((user :: (nodes.data ++ recovery.data)).map key.text).Nodup ∧
    WritesOneKeyTwice key (user :: (nodes.data ++ recovery.data))

/-- What is read is exactly the template, and writing its pieces and reading again gives them back. -/
def ExactAt (key : MiniscriptKey Pk) (printing : Printing key) (descriptor : Descriptor Pk) : Prop :=
  (∀ t, parseVaultTemplate key descriptor = .ok t ↔ OnTemplate key descriptor t) ∧
    ∀ t, parseVaultTemplate key descriptor = .ok t →
      (printing.fromStr (t.render key)).bind (parseVaultTemplate key) = .ok t

theorem nodup_publicKeys_of_texts {keys : List Pk} (texts : (keys.map key.text).Nodup)
    (once : ¬WritesOneKeyTwice key keys) : (keys.map key.publicKey).Nodup := by
  refine (List.nodup_map_iff_inj_on (List.Nodup.of_map _ texts)).mpr fun a first b second same => ?_
  by_contra different
  exact once ⟨a, first, b, second, fun text => different (List.inj_on_of_nodup_map texts first second text), same⟩

theorem nodup_texts_of_publicKeys {keys : List Pk} (definite : ∀ k ∈ keys, key.numDerPaths k = 0)
    (distinct : (keys.map key.publicKey).Nodup) : (keys.map key.text).Nodup := by
  refine (List.nodup_map_iff_inj_on (List.Nodup.of_map _ distinct)).mpr fun a first b second same => ?_
  exact List.inj_on_of_nodup_map distinct first second (key.named a b (definite a first) (definite b second) same)

theorem not_writesOneKeyTwice {keys : List Pk} (distinct : (keys.map key.publicKey).Nodup) :
    ¬WritesOneKeyTwice key keys := by
  rintro ⟨a, first, b, second, different, same⟩
  exact different (congrArg key.text (List.inj_on_of_nodup_map distinct first second same))

theorem OnTemplate.passes {descriptor : Descriptor Pk} {t : VaultTemplate Pk} (on : OnTemplate key descriptor t) :
    Passes key descriptor t :=
  ⟨on.built, on.recoverySize, on.timelock, on.definite, nodup_texts_of_publicKeys on.definite on.distinct⟩

theorem Passes.writesOneKeyTwice_iff {descriptor : Descriptor Pk} {t : VaultTemplate Pk} (passes : Passes key descriptor t) :
    WritesOneKeyTwice key t.keys ↔ Disguised key descriptor := by
  obtain ⟨⟨nodes, recovery, rfl, threshold, nodeKeys, quorum, recoveryKeys'⟩, size, locked, definite, texts⟩ := passes
  obtain ⟨user, k, nodeData, recoveryData, timelock⟩ := t
  cases threshold
  cases nodeKeys
  cases recoveryKeys'
  cases locked
  constructor
  · intro twice
    exact ⟨user, nodes, recovery, rfl, quorum, size, definite, texts, twice⟩
  · rintro ⟨user', nodes', recovery', same, _, _, _, _, twice⟩
    cases same
    exact twice

theorem Passes.onTemplate {descriptor : Descriptor Pk} {t : VaultTemplate Pk} (passes : Passes key descriptor t)
    (plain : ¬Disguised key descriptor) : OnTemplate key descriptor t := by
  have once : ¬WritesOneKeyTwice key t.keys := mt passes.writesOneKeyTwice_iff.mp plain
  have distinct := nodup_publicKeys_of_texts passes.texts once
  obtain ⟨nodes, recovery, _, threshold, nodeKeys, _, _⟩ := passes.built
  have quorum : 1 ≤ t.threshold ∧ t.threshold ≤ t.nodeKeys.length := by
    rw [← threshold, ← nodeKeys]
    exact ⟨nodes.positive, nodes.fits⟩
  exact ⟨passes.built, passes.recoverySize, passes.timelock, quorum, passes.definite, distinct⟩

theorem Passes.readBack (printing : Printing key) {descriptor : Descriptor Pk} {t : VaultTemplate Pk}
    (reads : printing.fromStr (printing.descriptor descriptor) = .ok descriptor) (passes : Passes key descriptor t) :
    (printing.fromStr (t.render key)).bind (parseVaultTemplate key) = .ok t := by
  rw [passes.render printing, reads]
  exact parseVaultTemplate_ok.mpr passes

theorem Disguised.parsed {descriptor : Descriptor Pk} (disguised : Disguised key descriptor) :
    ∃ t, parseVaultTemplate key descriptor = .ok t ∧ WritesOneKeyTwice key t.keys := by
  obtain ⟨user, nodes, recovery, rfl, quorum, size, definite, texts, twice⟩ := disguised
  refine ⟨⟨user, nodes.k, nodes.data, recovery.data, recoveryTimelockNsequence⟩, ?_, twice⟩
  exact parseVaultTemplate_ok.mpr ⟨⟨nodes, recovery, rfl, rfl, rfl, quorum, rfl⟩, size, rfl, definite, texts⟩

/-- Reading is exact on every descriptor but one that writes a public key in two ways. -/
theorem parse_is_exact_unless_disguised (printing : Printing key) (descriptor : Descriptor Pk)
    (reads : printing.fromStr (printing.descriptor descriptor) = .ok descriptor) :
    ExactAt key printing descriptor ↔ ¬Disguised key descriptor := by
  constructor
  · rintro ⟨accepts, _⟩ disguised
    obtain ⟨t, parsed, twice⟩ := disguised.parsed
    exact not_writesOneKeyTwice ((accepts t).mp parsed).distinct twice
  · intro plain
    constructor
    · intro t
      rw [parseVaultTemplate_ok]
      exact ⟨fun passes => passes.onTemplate plain, OnTemplate.passes⟩
    · intro t parsed
      exact (parseVaultTemplate_ok.mp parsed).readBack printing reads

end Claim

/-! ### One key, written twice -/

/-- Where a key comes from: its master key's fingerprint and the steps down to it, hardened from `2 ^ 31` on. -/
structure KeySource where
  fingerprint : Bytes
  path : List Nat

def KeySource.step (child : Nat) : String :=
  if child < 2 ^ 31 then "/" ++ toString child else "/" ++ toString (child - 2 ^ 31) ++ "'"

def KeySource.text (source : KeySource) : String :=
  "[" ++ toHex source.fingerprint ++ String.join (source.path.map KeySource.step) ++ "]"

/-- A single public key, an extended key with its path, or one with several paths. -/
inductive DescriptorPublicKey where
  | single (origin : Option KeySource) (key : PublicKey)
  | xPub (text : String)
  | multiXPub (text : String) (furtherPaths : Nat)

def DescriptorPublicKey.numDerPaths : DescriptorPublicKey → Nat
  | .single _ _ => 0
  | .xPub _ => 1
  | .multiXPub _ further => further + 1

def DescriptorPublicKey.text : DescriptorPublicKey → String
  | .single none key => toHex key
  | .single (some origin) key => origin.text ++ toHex key
  | .xPub text => text
  | .multiXPub text _ => text

def DescriptorPublicKey.publicKey : DescriptorPublicKey → PublicKey
  | .single _ key => key
  | .xPub _ => []
  | .multiXPub _ _ => []

theorem not_bracket_of_mem_toHex (bytes : Bytes) : ∀ c ∈ (toHex bytes).toList, c ≠ ']' := by
  have digits : ∀ n < 16, hexDigit n ≠ ']' := by decide
  intro c member
  simp only [toHex, String.toList_ofList, List.mem_flatMap, List.mem_cons, List.not_mem_nil, or_false] at member
  obtain ⟨b, _, high | low⟩ := member
  · rw [high]
    exact digits _ (by have := b.toNat_lt; omega)
  · rw [low]
    exact digits _ (by omega)

/-- Behind the last bracket of a single key's text stands its public key. -/
theorem toHex_of_text (origin : Option KeySource) (key : PublicKey) :
    ((DescriptorPublicKey.single origin key).text.toList.reverse.takeWhile (· ≠ ']')).reverse = (toHex key).toList := by
  have plain : ∀ c ∈ (toHex key).toList.reverse, decide (c ≠ ']') = true := fun c member =>
    decide_eq_true (not_bracket_of_mem_toHex key c (List.mem_reverse.mp member))
  cases origin with
  | none =>
    rw [DescriptorPublicKey.text, List.takeWhile_eq_self_iff.mpr plain, List.reverse_reverse]
  | some origin =>
    rw [DescriptorPublicKey.text, KeySource.text, String.toList_append, String.toList_append, List.reverse_append,
      List.takeWhile_append_of_pos plain]
    simp

def DescriptorPublicKey.miniscriptKey : MiniscriptKey DescriptorPublicKey where
  numDerPaths := DescriptorPublicKey.numDerPaths
  text := DescriptorPublicKey.text
  publicKey := DescriptorPublicKey.publicKey
  named a b definite definite' same := by
    cases a with
    | single origin key =>
      cases b with
      | single origin' key' =>
        have texts := toHex_of_text origin key
        rw [same, toHex_of_text origin' key'] at texts
        exact toHex_injective (String.toList_inj.mp texts.symm)
      | xPub text => cases definite'
      | multiXPub text further => cases definite'
    | xPub text => cases definite
    | multiXPub text further => cases definite

/-! A vault whose user is also its first node, there with the key's origin. -/

namespace Sample

def keyOf (x : UInt8) : PublicKey := 2 :: (List.replicate 31 0 ++ [x])

def user : DescriptorPublicKey := .single none (keyOf 1)

def userWithOrigin : DescriptorPublicKey := .single (some ⟨[0xd3, 0x4d, 0xb3, 0x3f], [0]⟩) (keyOf 1)

def node : DescriptorPublicKey := .single none (keyOf 2)

def recovery : Threshold DescriptorPublicKey :=
  ⟨2, [.single none (keyOf 3), .single none (keyOf 4), .single none (keyOf 6)], by decide, by decide⟩

/-- `wsh(or_i(and_v(v:pk(USER),multi(1,[d34db33f/0]USER,NODE)),and_v(v:older(4224679),multi(2,..))))`. -/
def doubled : Descriptor DescriptorPublicKey :=
  template user ⟨1, [userWithOrigin, node], by decide, by decide⟩ recoveryTimelockNsequence recovery

def plain : Descriptor DescriptorPublicKey :=
  template user ⟨1, [node], by decide, by decide⟩ recoveryTimelockNsequence recovery

/-- The fragments of the template, as they are printed. -/
def printNode : Miniscript DescriptorPublicKey → String
  | .verify (.check (.pkK k)) => "v:pk(" ++ k.text ++ ")"
  | .verify (.older sequence) => "v:older(" ++ toString sequence ++ ")"
  | .multi keys => "multi(" ++ toString keys.k ++ "," ++ ",".intercalate (keys.data.map (·.text)) ++ ")"
  | .andV left right => "and_v(" ++ printNode left ++ "," ++ printNode right ++ ")"
  | .orI left right => "or_i(" ++ printNode left ++ "," ++ printNode right ++ ")"
  | _ => ""

def printDescriptor : Descriptor DescriptorPublicKey → String
  | .wsh (.ms script) => "wsh(" ++ printNode script ++ ")"
  | _ => ""

/-- A reader that knows the text of one descriptor. -/
def printing (known : Descriptor DescriptorPublicKey) : Printing DescriptorPublicKey.miniscriptKey where
  node := printNode
  descriptor := printDescriptor
  fromStr text := if text = printDescriptor known then .ok known else .error "unexpected text"
  wsh _ := rfl
  orI _ _ _ _ := rfl
  andV _ _ := rfl
  verifyPk _ := rfl
  verifyOlder _ := rfl
  multi _ := rfl

theorem reads (known : Descriptor DescriptorPublicKey) :
    (printing known).fromStr ((printing known).descriptor known) = .ok known := if_pos rfl

theorem disguised_doubled : Disguised DescriptorPublicKey.miniscriptKey doubled := by
  refine ⟨user, _, recovery, rfl, rfl, rfl, ?_, ?_, user, List.mem_cons_self, userWithOrigin, by simp, ?_, rfl⟩
  · decide
  · decide
  · decide

end Sample

theorem reused_key_is_accepted : ¬ExactAt DescriptorPublicKey.miniscriptKey (Sample.printing Sample.doubled) Sample.doubled := by
  rintro ⟨accepts, _⟩
  obtain ⟨t, parsed, twice⟩ := Sample.disguised_doubled.parsed
  exact not_writesOneKeyTwice ((accepts t).mp parsed).distinct twice

/-- With one key in each place the template is read exactly. -/
theorem parse_is_exact_unless_disguised_plain :
    ExactAt DescriptorPublicKey.miniscriptKey (Sample.printing Sample.plain) Sample.plain := by
  refine (parse_is_exact_unless_disguised (Sample.printing Sample.plain) Sample.plain (Sample.reads Sample.plain)).mpr ?_
  rintro ⟨user, nodes, recovery, same, _, _, _, _, twice⟩
  cases same
  have distinct : ((Sample.user :: ([Sample.node] ++ Sample.recovery.data)).map
      DescriptorPublicKey.miniscriptKey.publicKey).Nodup := by decide
  exact not_writesOneKeyTwice distinct twice

end BtcPolicy.Template
