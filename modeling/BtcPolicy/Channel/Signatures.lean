import BtcPolicy.Channel.Accounting

/-! Where the signatures in a candidate's PSBTs come from. The ingress strips what a request planted and adds
this node's own signature; everything else arrives as a peer's partial, which is checked against the sighash
of the rung its txid names before it is stored. -/

namespace BtcPolicy.Channel
open FiniteMap Word Bitcoin Hex HotLedger Runs PartialStore Counting

/-! ### The node's own signature -/

/-- Sign every input with this node's key. `sign` is `sign_ecdsa` under the node's secret key. -/
def signInputs (lib : Library) (sign : Bytes → Bytes) (keys : CandidateKeys) (tx : Transaction) :
    Nat → List PsbtInput → Except String (List PsbtInput)
  | _, [] => .ok []
  | index, input :: rest =>
    match input.witnessUtxo with
    | none => .error s!"input {index} has no witness_utxo"
    | some utxo =>
      match lib.p2wshSignatureHash tx index keys.witnessScript utxo.value with
      | .error e => .error s!"sighash for input {index}: {e}"
      | .ok sighash =>
        match signInputs lib sign keys tx (index + 1) rest with
        | .error e => .error e
        | .ok signed =>
          .ok ({ input with
            partialSigs := input.partialSigs.insert keys.selfSigningPubkey ⟨sign sighash, sighashAll⟩ } :: signed)

def addNodeSignatures (lib : Library) (sign : Bytes → Bytes) (keys : CandidateKeys) (psbt : Psbt) :
    Except String Psbt :=
  (signInputs lib sign keys psbt.unsignedTx 0 psbt.inputs).map (fun inputs => { psbt with inputs := inputs })

/-! ### Partials from the channel -/

/-- `handle_partial`: decode, then the equalities with the envelope, then the store. The payload is `none` when
its JSON does not parse. -/
def handlePartial (ch : ChannelState) (s : PartialStore) (sender : Nat) (payload : Option PartialPayload)
    (now : Nat) : PartialStore × ChannelReply :=
  match payload with
  | none => (s, .rejected .malformedPayload)
  | some p =>
    match fromHexOf 32 p.walletId, fromHexOf 32 p.userSigHash, txidFromStr p.txid, fromHex p.partialSig with
    | some wallet, some userSigHash, some txid, some der =>
      if wallet ≠ ch.walletId then (s, .rejected .payloadWalletMismatch)
      else if p.signerNodeId ≠ sender then (s, .rejected .signerMismatch)
      else if p.sighashType ≠ sighashAll then (s, .rejected .wrongSighashType)
      else
        acceptPartial ch.lib s ⟨p.commitmentId, txid, userSigHash, p.input, p.signerNodeId, der⟩ ch.nodes now
    | _, _, _, _ => (s, .rejected .malformedPayload)

/-- A `partial` envelope that authenticates: the sender is an in-manifest peer and never this node. -/
def ingestPartial (ch : ChannelState) (s : PartialStore) (sender : Nat) (payload : Option PartialPayload)
    (now : Nat) : PartialStore × ChannelReply :=
  if sender = ch.nodeId ∨ ch.nodes.length ≤ sender then (s, .rejected .unknownSender)
  else handlePartial ch s sender payload now

/-- The store's operations, with partials as the messages they arrive in. -/
inductive ChannelOp where
  | store (op : StoreOp)
  | envelope (sender : Nat) (payload : Option PartialPayload) (now : Nat)

def channelStep (ch : ChannelState) (s : PartialStore) : ChannelOp → PartialStore × StoreReply
  | .store op => storeStep ch s op
  | .envelope sender payload now =>
    let result := ingestPartial ch s sender payload now
    (result.1, .channel result.2)

def channelAfter (ch : ChannelState) (config : StoreConfig) (ops : List ChannelOp) : PartialStore :=
  exec (channelStep ch) (initialStore config) ops

/-- A message is refused, or is the partial of its own sender. -/
theorem ingestPartial_cases (ch : ChannelState) (s : PartialStore) (sender : Nat) (payload : Option PartialPayload)
    (now : Nat) :
    (ingestPartial ch s sender payload now).1 = s ∨
      ∃ p, p.signer = sender ∧ sender ≠ ch.nodeId ∧
        ingestPartial ch s sender payload now = acceptPartial ch.lib s p ch.nodes now := by
  unfold ingestPartial
  split_ifs with outside
  · exact Or.inl rfl
  · rw [not_or] at outside
    unfold handlePartial
    split
    · exact Or.inl rfl
    next p =>
      split
      next wallet userSigHash txid der _ _ _ _ =>
        split_ifs with wallet signer sighash
        · exact Or.inl rfl
        · exact Or.inl rfl
        · exact Or.inl rfl
        · exact Or.inr ⟨_, by simpa using signer, outside.1, rfl⟩
      next => exact Or.inl rfl

/-- Each operation is one of the store's, or changes nothing. -/
theorem channelStep_cases (ch : ChannelState) (s : PartialStore) (op : ChannelOp) :
    (channelStep ch s op).1 = s ∨ (∃ inner, op = .store inner ∧ (channelStep ch s op).1 = (storeStep ch s inner).1) ∨
      ∃ sender payload now p, op = .envelope sender payload now ∧ p.signer = sender ∧ sender ≠ ch.nodeId ∧
        (channelStep ch s op).1 = (storeStep ch s (.acceptPartial p now)).1 := by
  cases op with
  | store inner => exact Or.inr (Or.inl ⟨inner, rfl, rfl⟩)
  | envelope sender payload now =>
    rcases ingestPartial_cases ch s sender payload now with same | ⟨p, signer, peer, same⟩
    · exact Or.inl same
    · refine Or.inr (Or.inr ⟨sender, payload, now, p, rfl, signer, peer, ?_⟩)
      simp only [channelStep, storeStep, same]

/-! ### What is verified -/

/-- The sighash the library computes for input `i` of the variant. -/
def SigningVariant.Digest (lib : Library) (keys : CandidateKeys) (v : SigningVariant) (i : Nat) (sighash : Bytes) :
    Prop :=
  ∃ input utxo, v.psbt.inputs[i]? = some input ∧ input.witnessUtxo = some utxo ∧
    lib.p2wshSignatureHash v.psbt.unsignedTx i keys.witnessScript utxo.value = .ok sighash

/-- Every signature under a federation key verifies against the variant's own sighash of its input, and a peer's
entry is the one partial kept for it. -/
structure SigningVariant.Verified (ch : ChannelState) (keys : CandidateKeys) (v : SigningVariant) : Prop where
  digest : ∀ (i : Nat) (input : PsbtInput), v.psbt.inputs[i]? = some input →
    ∃ sighash, v.Digest ch.lib keys i sighash ∧ v.sighashes[i]? = some sighash
  signed : ∀ (i : Nat) (input : PsbtInput), v.psbt.inputs[i]? = some input →
    ∀ node ∈ ch.nodes, ∀ sig : EcdsaSignature, input.partialSigs.lookup node.signingPubkey = some sig → ∀ sighash, v.sighashes[i]? = some sighash →
      ch.lib.verifyEcdsa sighash sig.der node.signingPubkey = true
  mirrored : ∀ (i : Nat) (input : PsbtInput), v.psbt.inputs[i]? = some input →
    ∀ (k : Nat) (node : ManifestNode), ch.nodes[k]? = some node → k ≠ ch.nodeId →
    input.partialSigs.lookup node.signingPubkey = (v.partials.lookup (i, k)).map (fun der => ⟨der, sighashAll⟩)

theorem signInputs_ok {lib : Library} {sign : Bytes → Bytes} {keys : CandidateKeys} {tx : Transaction}
    {start : Nat} {inputs signed : List PsbtInput} (done : signInputs lib sign keys tx start inputs = .ok signed) :
    ∀ i input, signed[i]? = some input → ∃ utxo sighash, input.witnessUtxo = some utxo ∧
      lib.p2wshSignatureHash tx (start + i) keys.witnessScript utxo.value = .ok sighash ∧
      input.partialSigs.lookup keys.selfSigningPubkey = some ⟨sign sighash, sighashAll⟩ := by
  induction inputs generalizing start signed with
  | nil =>
    cases done
    intro i input found
    simp at found
  | cons first rest ih =>
    unfold signInputs at done
    cases utxo : first.witnessUtxo with
    | none => simp [utxo] at done
    | some coin =>
      cases hashed : lib.p2wshSignatureHash tx start keys.witnessScript coin.value with
      | error e => simp [utxo, hashed] at done
      | ok sighash =>
        cases others : signInputs lib sign keys tx (start + 1) rest with
        | error e => simp [utxo, hashed, others] at done
        | ok tail =>
          simp only [utxo, hashed, others, Except.ok.injEq] at done
          subst done
          intro i input found
          cases i with
          | zero =>
            simp only [List.getElem?_cons_zero, Option.some.injEq] at found
            subst found
            exact ⟨coin, sighash, rfl, hashed, AList.lookup_insert _⟩
          | succ i =>
            obtain ⟨next, digest, present, same, own⟩ := ih others i input (by simpa using found)
            refine ⟨next, digest, present, ?_, own⟩
            rw [show start + (i + 1) = start + 1 + i by omega]
            exact same

theorem inputDigest_ok {lib : Library} {keys : CandidateKeys} {tx : Transaction} {i : Nat} {input : PsbtInput}
    {digest : Bytes × Bytes} (done : SigningVariant.inputDigest lib keys tx i input = .ok digest) :
    ∃ utxo, input.witnessUtxo = some utxo ∧
      lib.p2wshSignatureHash tx i keys.witnessScript utxo.value = .ok digest.1 := by
  unfold SigningVariant.inputDigest at done
  cases utxo : input.witnessUtxo with
  | none => simp [utxo, bind, Except.bind, throw, throwThe, MonadExceptOf.throw] at done
  | some coin =>
    cases hashed : lib.p2wshSignatureHash tx i keys.witnessScript coin.value with
    | error e => simp [utxo, hashed, bind, Except.bind, pure, Except.pure, throw, throwThe, MonadExceptOf.throw] at done
    | ok sighash =>
      cases user : input.partialSigs.lookup keys.userPubkey with
      | none =>
        simp [utxo, hashed, user, bind, Except.bind, pure, Except.pure, throw, throwThe, MonadExceptOf.throw] at done
      | some sig =>
        simp only [utxo, hashed, user, bind, Except.bind, pure, Except.pure, Except.ok.injEq] at done
        subst done
        exact ⟨coin, rfl, hashed⟩

theorem inputDigests_ok {lib : Library} {keys : CandidateKeys} {tx : Transaction} {start : Nat}
    {inputs : List PsbtInput} {digests : List (Bytes × Bytes)}
    (done : SigningVariant.inputDigests lib keys tx start inputs = .ok digests) :
    ∀ i input, inputs[i]? = some input → ∃ utxo sighash, input.witnessUtxo = some utxo ∧
      lib.p2wshSignatureHash tx (start + i) keys.witnessScript utxo.value = .ok sighash ∧
      (digests.map Prod.fst)[i]? = some sighash := by
  induction inputs generalizing start digests with
  | nil =>
    intro i input found
    simp at found
  | cons first rest ih =>
    unfold SigningVariant.inputDigests at done
    cases head : SigningVariant.inputDigest lib keys tx start first with
    | error e => simp [head, bind, Except.bind] at done
    | ok digest =>
      cases others : SigningVariant.inputDigests lib keys tx (start + 1) rest with
      | error e => simp [head, others, bind, Except.bind] at done
      | ok tail =>
        simp only [head, others, bind, Except.bind, pure, Except.pure, Except.ok.injEq] at done
        subst done
        intro i input found
        cases i with
        | zero =>
          obtain ⟨utxo, present, hashed⟩ := inputDigest_ok head
          have same : first = input := by simpa using found
          exact ⟨utxo, digest.1, same ▸ present, hashed, rfl⟩
        | succ i =>
          obtain ⟨utxo, sighash, present, hashed, listed⟩ := ih others i input (by simpa using found)
          refine ⟨utxo, sighash, present, ?_, by simpa using listed⟩
          rw [show start + (i + 1) = start + 1 + i by omega]
          exact hashed

/-- A PSBT as `add_node_signatures` leaves it. -/
def IngressSigned (lib : Library) (sign : Bytes → Bytes) (keys : CandidateKeys) (psbt : Psbt) : Prop :=
  ∃ raw, addNodeSignatures lib sign keys raw = .ok psbt

/-- The node's key signs what it verifies. -/
def Library.Signs (lib : Library) (sign : Bytes → Bytes) (keys : CandidateKeys) : Prop :=
  ∀ sighash, lib.verifyEcdsa sighash (sign sighash) keys.selfSigningPubkey = true

theorem ingressSigned_input {lib : Library} {sign : Bytes → Bytes} {keys : CandidateKeys} {psbt : Psbt}
    (signed : IngressSigned lib sign keys psbt) {i : Nat} {input : PsbtInput} (found : psbt.inputs[i]? = some input) :
    ∃ utxo sighash, input.witnessUtxo = some utxo ∧
      lib.p2wshSignatureHash psbt.unsignedTx i keys.witnessScript utxo.value = .ok sighash ∧
      input.partialSigs.lookup keys.selfSigningPubkey = some ⟨sign sighash, sighashAll⟩ := by
  obtain ⟨raw, done⟩ := signed
  unfold addNodeSignatures at done
  cases made : signInputs lib sign keys raw.unsignedTx 0 raw.inputs with
  | error e => simp [made, Except.map] at done
  | ok inputs =>
    simp only [made, Except.map, Except.ok.injEq] at done
    subst done
    obtain ⟨utxo, sighash, present, hashed, own⟩ := signInputs_ok made i input found
    rw [Nat.zero_add] at hashed
    exact ⟨utxo, sighash, present, hashed, own⟩

/-- A variant built from an ingress-signed PSBT holds, of all federation keys, this node's own only. -/
theorem verified_build {ch : ChannelState} {keys : CandidateKeys} {sign : Bytes → Bytes} (valid : ch.Validated keys)
    (signs : Library.Signs ch.lib sign keys) {psbt : Psbt} (signed : IngressSigned ch.lib sign keys psbt)
    {v : SigningVariant} (built : SigningVariant.build ch.lib psbt keys = .ok v) : v.Verified ch keys := by
  obtain ⟨canonical, empty, digests, hashed, sighashes⟩ := variant_build_ok built
  have digest : ∀ i input, v.psbt.inputs[i]? = some input →
      ∃ sighash, v.Digest ch.lib keys i sighash ∧ v.sighashes[i]? = some sighash := by
    intro i input found
    obtain ⟨utxo, sighash, present, same, listed⟩ := inputDigests_ok hashed i input found
    rw [Nat.zero_add] at same
    exact ⟨sighash, ⟨input, utxo, found, present, same⟩, sighashes ▸ listed⟩
  have stripped := stripped_build valid built
  refine ⟨digest, ?_, ?_⟩
  · intro i input found node member sig under sighash listed
    obtain ⟨k, atK⟩ := List.mem_iff_getElem?.mp member
    by_cases self : k = ch.nodeId
    · -- The entry under this node's key is the one the ingress signed.
      obtain ⟨own, atOwn, ownKey⟩ := valid.own
      have key : node.signingPubkey = keys.selfSigningPubkey := by
        rw [self] at atK
        rw [← ownKey, Option.some.inj (atK.symm.trans atOwn)]
      obtain ⟨digested, ⟨input', utxo, found', present, same⟩, listed'⟩ := digest i input found
      have equal : digested = sighash := Option.some.inj (listed'.symm.trans listed)
      have input_eq : input' = input := Option.some.inj (found'.symm.trans found)
      subst equal input_eq
      rw [canonical] at found
      simp only [List.getElem?_map] at found
      obtain ⟨raw, atRaw, rfl⟩ := Option.map_eq_some_iff.mp found
      obtain ⟨coin, made, coined, hashes, ownSig⟩ := ingressSigned_input signed atRaw
      have sameUtxo : coin = utxo := Option.some.inj (coined.symm.trans present)
      rw [canonical] at same
      rw [sameUtxo] at hashes
      have sameHash : made = digested := Except.ok.inj (hashes.symm.trans same)
      rw [key] at under ⊢
      have entry : sig = ⟨sign made, sighashAll⟩ := by
        have retained := (lookup_retain_some.mp under).1
        exact Option.some.inj (retained.symm.trans ownSig)
      rw [entry, sameHash]
      exact signs digested
    · have vacant := stripped i input found k node atK self (by rw [empty]; rfl)
      rw [vacant] at under
      cases under
  · intro i input found k node atK peer
    rw [stripped i input found k node atK peer (by rw [empty]; rfl), empty]
    rfl

theorem verified_imported {ch : ChannelState} {keys : CandidateKeys} (valid : ch.Validated keys) {c : Candidate}
    {p : ParsedPartial} {rung : Nat} {variant : SigningVariant} {node : ManifestNode} {sighash sig : Bytes}
    (checked : Checked ch c p rung variant node sighash sig) (verified : variant.Verified ch keys) :
    (importedVariant p variant node.signingPubkey sig).Verified ch keys := by
  refine ⟨?_, ?_, ?_⟩
  · intro i input found
    obtain ⟨old, present, becomes⟩ := importedVariant_input found
    obtain ⟨digest, ⟨input', utxo, found', coined, hashed⟩, listed⟩ := verified.digest i old present
    have same : input' = old := Option.some.inj (found'.symm.trans present)
    refine ⟨digest, ⟨input, utxo, found, ?_, hashed⟩, listed⟩
    rcases becomes with ⟨_, rfl⟩ | ⟨_, rfl⟩
    · exact same ▸ coined
    · exact same ▸ coined
  · intro i input found other member entry under digest listed
    obtain ⟨old, present, ⟨_, rfl⟩ | ⟨here, rfl⟩⟩ := importedVariant_input found
    · exact verified.signed i input present other member entry under digest listed
    · simp only [lookup_insert_eq] at under
      split_ifs at under with same
      · cases under
        have equal : digest = sighash := by
          rw [here] at listed
          exact Option.some.inj (listed.symm.trans checked.digest)
        rw [same, equal]
        exact checked.verified
      · exact verified.signed i old present other member entry under digest listed
  · intro i input found k other atK peer
    obtain ⟨old, present, ⟨away, rfl⟩ | ⟨here, rfl⟩⟩ := importedVariant_input found
    · have elsewhere : (i, k) ≠ (p.input, p.signer) := fun same => away (Prod.mk.inj same).1
      rw [importedVariant, AList.lookup_insert_ne elsewhere]
      exact verified.mirrored i input present k other atK peer
    · by_cases own : k = p.signer
      · have sameNode : other = node := by
          rw [own] at atK
          exact Option.some.inj (atK.symm.trans checked.signer)
        rw [importedVariant, here, own, sameNode, AList.lookup_insert, AList.lookup_insert]
        rfl
      · have elsewhere : (i, k) ≠ (p.input, p.signer) := fun same => own (Prod.mk.inj same).2
        have key : other.signingPubkey ≠ node.signingPubkey := valid.key_ne atK checked.signer own
        rw [importedVariant, AList.lookup_insert_ne elsewhere]
        exact (AList.lookup_insert_ne key).trans (verified.mirrored i old present k other atK peer)

/-- Every variant of the candidate is verified. -/
def Candidate.Verified (ch : ChannelState) (keys : CandidateKeys) (c : Candidate) : Prop :=
  ∀ v ∈ c.variants, v.Verified ch keys

/-- What registration and the channel promise: candidates are built with this node's keys from ingress-signed
PSBTs, and partials come in envelopes. -/
def ChannelOp.Ingress (lib : Library) (sign : Bytes → Bytes) (keys : CandidateKeys) : ChannelOp → Prop
  | .store (.registerCandidates requests _ _ _) => ∀ request ∈ requests, request.keys = keys ∧
      ∀ psbt ∈ request.spec.psbt :: request.spec.escapeBumps, IngressSigned lib sign keys psbt
  | .store (.acceptPartial _ _) => False
  | _ => True

/-- What one operation can do to what is stored, partials by their sender. -/
theorem channelStep_stock {ch : ChannelState} {s : PartialStore} {op : ChannelOp} {sign : Bytes → Bytes}
    {keys : CandidateKeys} (ingress : op.Ingress ch.lib sign keys) {id : String} {later : Candidate}
    (found : (channelStep ch s op).1.candidates.lookup id = some later) :
    (∃ earlier, s.candidates.lookup id = some earlier ∧ earlier.SameStock later) ∨
      (∃ sender payload now p earlier rung variant node sighash sig, op = .envelope sender payload now ∧
        p.signer = sender ∧ sender ≠ ch.nodeId ∧ s.candidates.lookup id = some earlier ∧
        Checked ch earlier p rung variant node sighash sig ∧
        variant.partials.lookup (p.input, p.signer) = none ∧
        later = importPartial ch.lib earlier p rung variant node.signingPubkey sig) ∨
      s.candidates.lookup id = none ∧ ∃ inner spec c, op = .store inner ∧ Candidate.build ch.lib spec keys = .ok c ∧
        (∀ psbt ∈ spec.psbt :: spec.escapeBumps, IngressSigned ch.lib sign keys psbt) ∧
        (c.reservePartialCapacity ch.nodes ch.nodeId).SameStock later := by
  rcases channelStep_cases ch s op with same | ⟨inner, rfl, same⟩ | ⟨sender, payload, now, p, rfl, signer, peer, same⟩
  · rw [same] at found
    exact Or.inl ⟨later, found, Candidate.SameStock.refl later⟩
  · rw [same] at found
    rcases storeStep_stock found with old | ⟨p, now, _, _, _, _, _, rfl, _⟩ |
      ⟨absent, requests, arm, hotReserve, monoNow, request, c, rfl, asked, built, stocked⟩
    · exact Or.inl old
    · exact ingress.elim
    · obtain ⟨own, signed⟩ := ingress request asked
      exact Or.inr (Or.inr ⟨absent, _, request.spec, c, rfl, own ▸ built, signed, stocked⟩)
  · rw [same] at found
    rcases storeStep_stock found with old |
      ⟨q, at', earlier, rung, variant, expected, sig, equal, _, present, checked, first, becomes⟩ |
      ⟨_, _, _, _, _, _, _, equal, _⟩
    · exact Or.inl old
    · cases equal
      obtain ⟨node, sighash, rfl, passed⟩ := checkPartial_ok checked
      exact Or.inr (Or.inl ⟨sender, payload, now, p, earlier, rung, variant, node, sighash, sig, rfl, signer, peer,
        present, passed, first, becomes⟩)
    · cases equal

theorem verified_step {ch : ChannelState} {keys : CandidateKeys} {sign : Bytes → Bytes} (valid : ch.Validated keys)
    (signs : Library.Signs ch.lib sign keys) (s : PartialStore) (op : ChannelOp)
    (ingress : op.Ingress ch.lib sign keys) (verified : Every (fun _ c => c.Verified ch keys) s.candidates) :
    Every (fun _ c => c.Verified ch keys) (channelStep ch s op).1.candidates := by
  intro id later found v member
  rcases channelStep_stock ingress found with ⟨earlier, present, same⟩ |
    ⟨sender, payload, now, p, earlier, rung, variant, node, sighash, sig, _, _, _, present, checked, first, rfl⟩ |
    ⟨_, _, spec, c, _, built, signed, same⟩
  · rw [same.variants] at member
    exact verified id earlier present v member
  · rw [importPartial_variants] at member
    rcases List.mem_or_eq_of_mem_set member with old | new
    · exact verified id earlier present v old
    · rw [new]
      exact verified_imported valid checked
        (verified id earlier present variant (List.mem_of_getElem? checked.held))
  · rw [same.variants] at member
    obtain ⟨psbt, listed, made⟩ := build_variants built v member
    exact verified_build valid signs (signed psbt listed) made

theorem channelAfter_verified {ch : ChannelState} {keys : CandidateKeys} {sign : Bytes → Bytes}
    (valid : ch.Validated keys) (signs : Library.Signs ch.lib sign keys) (config : StoreConfig)
    (ops : List ChannelOp) (ingress : ∀ op ∈ ops, op.Ingress ch.lib sign keys) :
    Every (fun _ c => c.Verified ch keys) (channelAfter ch config ops).candidates :=
  exec_invariant_of (channelStep ch) (ChannelOp.Ingress ch.lib sign keys)
    (fun s => Every (fun _ c => c.Verified ch keys) s.candidates)
    (fun s op ok verified => verified_step valid signs s op ok verified) _ (Every.empty _) ops ingress

/-! ### Entries come and stay -/

/-- The signature stored under `key` on input `i` of `rung`. -/
def Candidate.entry (c : Candidate) (rung i : Nat) (key : PublicKey) : Option EcdsaSignature :=
  (c.variants[rung]?).bind (fun v => (v.psbt.inputs[i]?).bind (fun input => input.partialSigs.lookup key))

theorem entry_some {c : Candidate} {rung i : Nat} {key : PublicKey} {sig : EcdsaSignature} :
    c.entry rung i key = some sig ↔ ∃ v input, c.variants[rung]? = some v ∧ v.psbt.inputs[i]? = some input ∧
      input.partialSigs.lookup key = some sig := by
  simp [Candidate.entry, Option.bind_eq_some_iff]

theorem Candidate.SameStock.entry {earlier later : Candidate} (same : earlier.SameStock later) (rung i : Nat)
    (key : PublicKey) : later.entry rung i key = earlier.entry rung i key := by
  rw [Candidate.entry, Candidate.entry, same.variants]

/-- An import writes one entry: the signer's, on the rung and input it checked. -/
theorem entry_imported {ch : ChannelState} {c : Candidate} {p : ParsedPartial} {rung : Nat}
    {variant : SigningVariant} {node : ManifestNode} {sighash sig : Bytes}
    (checked : Checked ch c p rung variant node sighash sig) (at' i : Nat) (key : PublicKey) :
    (importPartial ch.lib c p rung variant node.signingPubkey sig).entry at' i key =
      if at' = rung ∧ i = p.input ∧ key = node.signingPubkey then some ⟨sig, sighashAll⟩
      else c.entry at' i key := by
  have inside : rung < c.variants.length := (List.getElem?_eq_some_iff.mp checked.held).1
  obtain ⟨input, present⟩ := checked.input
  unfold Candidate.entry
  rw [importPartial_variants, List.getElem?_set]
  by_cases same : rung = at'
  · subst same
    rw [if_pos rfl, if_pos inside, checked.held]
    simp only [Option.bind_some, importedVariant, List.getElem?_modify]
    by_cases here : p.input = i
    · subst here
      rw [present]
      simp [lookup_insert_eq]
    · have away : i ≠ p.input := fun equal => here equal.symm
      cases variant.psbt.inputs[i]? <;> simp [here, away]
  · have away : at' ≠ rung := fun equal => same equal.symm
    rw [if_neg same, if_neg (fun both => away both.1)]

/-- A peer's entry is never replaced: the slot it came through is taken. -/
theorem entry_kept {ch : ChannelState} {keys : CandidateKeys} {sign : Bytes → Bytes} {s : PartialStore}
    {op : ChannelOp} (ingress : op.Ingress ch.lib sign keys)
    (verified : Every (fun _ c => c.Verified ch keys) s.candidates) {id : String} {earlier later : Candidate}
    (before : s.candidates.lookup id = some earlier)
    (after : (channelStep ch s op).1.candidates.lookup id = some later) {k : Nat} {peer : ManifestNode}
    (atK : ch.nodes[k]? = some peer) (notSelf : k ≠ ch.nodeId) {rung i : Nat} {sig : EcdsaSignature}
    (held : earlier.entry rung i peer.signingPubkey = some sig)
    (valid : ch.Validated keys) : later.entry rung i peer.signingPubkey = some sig := by
  rcases channelStep_stock ingress after with ⟨resident, present, same⟩ |
    ⟨sender, payload, now, p, resident, at', variant, node, sighash, new, _, _, _, present, checked, first, rfl⟩ |
    ⟨absent, _⟩
  · have equal : resident = earlier := Option.some.inj (present.symm.trans before)
    rw [same.entry, equal]
    exact held
  · have equal : resident = earlier := Option.some.inj (present.symm.trans before)
    subst equal
    rw [entry_imported checked, if_neg]
    · exact held
    rintro ⟨rfl, rfl, sameKey⟩
    have signer : k = p.signer := by
      by_contra different
      exact valid.key_ne atK checked.signer different sameKey
    obtain ⟨v, input, atRung, atInput, under⟩ := entry_some.mp held
    have sameVariant : v = variant := Option.some.inj (atRung.symm.trans checked.held)
    subst sameVariant
    have mirrored := (verified id resident present v (List.mem_of_getElem? atRung)).mirrored p.input input atInput k
      peer atK notSelf
    rw [signer, first, under] at mirrored
    cases mirrored
  · rw [before] at absent
    cases absent

theorem entry_kept_run {ch : ChannelState} {keys : CandidateKeys} {sign : Bytes → Bytes} (valid : ch.Validated keys)
    (signs : Library.Signs ch.lib sign keys) (config : StoreConfig) (before after : List ChannelOp)
    (ingress : ∀ op ∈ before ++ after, op.Ingress ch.lib sign keys) {id : String}
    (resident : ∀ front, front <+: after → ∃ c, (channelAfter ch config (before ++ front)).candidates.lookup id = some c)
    {c : Candidate} (found : (channelAfter ch config before).candidates.lookup id = some c) {k : Nat}
    {peer : ManifestNode} (atK : ch.nodes[k]? = some peer) (notSelf : k ≠ ch.nodeId) {rung i : Nat}
    {sig : EcdsaSignature} (held : c.entry rung i peer.signingPubkey = some sig) :
    ∃ later, (channelAfter ch config (before ++ after)).candidates.lookup id = some later ∧
      later.entry rung i peer.signingPubkey = some sig := by
  induction after using List.reverseRecOn with
  | nil => exact ⟨c, by rwa [List.append_nil], held⟩
  | append_singleton after op ih =>
    have front : ∀ other ∈ before ++ after, other.Ingress ch.lib sign keys := by
      intro other member
      apply ingress other
      rw [← List.append_assoc]
      exact List.mem_append_left _ member
    obtain ⟨middle, atMiddle, kept⟩ := ih front
      (fun front' shorter => resident front' (shorter.trans (List.prefix_append after [op])))
    obtain ⟨later, atLater⟩ := resident (after ++ [op]) List.prefix_rfl
    refine ⟨later, atLater, ?_⟩
    rw [← List.append_assoc, channelAfter, exec_snoc] at atLater
    exact entry_kept (ingress op (by simp)) (channelAfter_verified valid signs config _ front) atMiddle atLater atK
      notSelf kept valid

/-- A message writes, if anything, an entry under its sender's key. -/
theorem entry_of_sender {ch : ChannelState} {s : PartialStore} {sender : Nat} {payload : Option PartialPayload}
    {now : Nat} {id : String} {later : Candidate}
    (after : (channelStep ch s (.envelope sender payload now)).1.candidates.lookup id = some later) {rung i : Nat}
    {key : PublicKey} {sig : EcdsaSignature} (held : later.entry rung i key = some sig) :
    ∃ earlier, s.candidates.lookup id = some earlier ∧ (earlier.entry rung i key = some sig ∨
      ∃ node, ch.nodes[sender]? = some node ∧ key = node.signingPubkey) := by
  have ingress : (ChannelOp.envelope sender payload now).Ingress ch.lib (fun sighash => sighash) ⟨[], [], []⟩ := trivial
  rcases channelStep_stock ingress after with ⟨earlier, present, same⟩ |
    ⟨_, _, _, p, earlier, at', variant, node, sighash, new, equal, signer, _, present, checked, _, rfl⟩ |
    ⟨_, _, _, _, equal, _⟩
  · exact ⟨earlier, present, Or.inl (same.entry rung i key ▸ held)⟩
  · cases equal
    refine ⟨earlier, present, ?_⟩
    rw [entry_imported checked] at held
    split_ifs at held with here
    · exact Or.inr ⟨node, signer ▸ checked.signer, here.2.2⟩
    · exact Or.inl held
  · cases equal

/-- A quorum on a verified variant is a quorum of valid signatures on every input. -/
theorem valid_quorum {ch : ChannelState} {keys : CandidateKeys} (valid : ch.Validated keys) {v : SigningVariant}
    (verified : v.Verified ch keys) {threshold : Nat} (quorum : v.hasQuorum threshold ch.nodes = true) {i : Nat}
    {input : PsbtInput} (found : v.psbt.inputs[i]? = some input) :
    ∃ signers : Finset PublicKey, threshold ≤ signers.card ∧ ∀ key ∈ signers,
      key ∈ ch.nodes.map ManifestNode.signingPubkey ∧ ∃ sig sighash, input.partialSigs.lookup key = some sig ∧
        v.Digest ch.lib keys i sighash ∧ ch.lib.verifyEcdsa sighash sig.der key = true := by
  have counted : threshold ≤ v.signatureCount i ch.nodes := by
    unfold SigningVariant.hasQuorum at quorum
    simp only [Bool.and_eq_true, List.all_eq_true, decide_eq_true_eq] at quorum
    exact quorum.2 i (List.mem_range.mpr (List.getElem?_eq_some_iff.mp found).1)
  let signing := ch.nodes.filter (fun node => (input.partialSigs.lookup node.signingPubkey).isSome)
  have unrepeated : (signing.map ManifestNode.signingPubkey).Nodup :=
    valid.distinct.sublist (List.filter_sublist.map _)
  refine ⟨(signing.map ManifestNode.signingPubkey).toFinset, ?_, ?_⟩
  · rw [List.toFinset_card_of_nodup unrepeated, List.length_map]
    simpa only [SigningVariant.signatureCount, found] using counted
  · intro key member
    obtain ⟨node, chosen, rfl⟩ := List.mem_map.mp (List.mem_toFinset.mp member)
    obtain ⟨listed, present⟩ := List.mem_filter.mp chosen
    obtain ⟨sig, under⟩ := Option.isSome_iff_exists.mp present
    obtain ⟨sighash, digest, at'⟩ := verified.digest i input found
    exact ⟨List.mem_map_of_mem listed, sig, sighash, under, digest,
      verified.signed i input found node listed sig under sighash at'⟩

/-- Verified signatures only, over any run whose registrations are ingress-signed: a peer's entry verifies
against its own variant's sighash, stays as it is while the candidate is resident, is written only by its
peer's messages, and a quorum counts valid signatures under distinct manifest keys. -/
theorem verified_signatures_only {ch : ChannelState} {keys : CandidateKeys} {sign : Bytes → Bytes}
    (valid : ch.Validated keys) (signs : Library.Signs ch.lib sign keys) (config : StoreConfig)
    (ops : List ChannelOp) (ingress : ∀ op ∈ ops, op.Ingress ch.lib sign keys) :
    (∀ id c, (channelAfter ch config ops).candidates.lookup id = some c → ∀ v ∈ c.variants,
      ∀ i input, v.psbt.inputs[i]? = some input → ∀ k node, ch.nodes[k]? = some node → k ≠ ch.nodeId →
        ∀ sig, input.partialSigs.lookup node.signingPubkey = some sig →
          v.partials.lookup (i, k) = some sig.der ∧ ∃ sighash, v.Digest ch.lib keys i sighash ∧
            ch.lib.verifyEcdsa sighash sig.der node.signingPubkey = true) ∧
      (∀ before after, ops = before ++ after → ∀ id,
        (∀ front, front <+: after → ∃ c, (channelAfter ch config (before ++ front)).candidates.lookup id = some c) →
        ∀ c, (channelAfter ch config before).candidates.lookup id = some c →
        ∀ k node, ch.nodes[k]? = some node → k ≠ ch.nodeId → ∀ rung i sig,
          c.entry rung i node.signingPubkey = some sig →
          ∃ later, (channelAfter ch config ops).candidates.lookup id = some later ∧
            later.entry rung i node.signingPubkey = some sig) ∧
      (∀ before sender payload now after, ops = before ++ .envelope sender payload now :: after →
        ∀ id later, (channelAfter ch config (before ++ [.envelope sender payload now])).candidates.lookup id =
          some later → ∀ rung i key sig, later.entry rung i key = some sig →
          ∃ earlier, (channelAfter ch config before).candidates.lookup id = some earlier ∧
            (earlier.entry rung i key = some sig ∨
              ∃ node, ch.nodes[sender]? = some node ∧ key = node.signingPubkey)) ∧
      (∀ id c, (channelAfter ch config ops).candidates.lookup id = some c → ∀ v ∈ c.variants, ∀ threshold,
        v.hasQuorum threshold ch.nodes = true → ∀ i input, v.psbt.inputs[i]? = some input →
          ∃ signers : Finset PublicKey, threshold ≤ signers.card ∧ ∀ key ∈ signers,
            key ∈ ch.nodes.map ManifestNode.signingPubkey ∧ ∃ sig sighash,
              input.partialSigs.lookup key = some sig ∧ v.Digest ch.lib keys i sighash ∧
              ch.lib.verifyEcdsa sighash sig.der key = true) := by
  have verified := channelAfter_verified valid signs config ops ingress
  refine ⟨?_, ?_, ?_, ?_⟩
  · intro id c found v member i input atI k node atK peer sig under
    have good := verified id c found v member
    obtain ⟨sighash, digest, listed⟩ := good.digest i input atI
    have checked := good.signed i input atI node (List.mem_of_getElem? atK) sig under sighash listed
    have mirrored := good.mirrored i input atI k node atK peer
    rw [under] at mirrored
    obtain ⟨der, kept, same⟩ := Option.map_eq_some_iff.mp mirrored.symm
    refine ⟨?_, sighash, digest, checked⟩
    rw [kept, ← same]
  · intro before after split id resident c found k node atK peer rung i sig held
    subst split
    exact entry_kept_run valid signs config before after ingress resident found atK peer held
  · intro before sender payload now after _ id later found rung i key sig held
    rw [channelAfter, exec_snoc] at found
    exact entry_of_sender found held
  · intro id c found v member threshold quorum i input atI
    exact valid_quorum valid (verified id c found v member) quorum atI

namespace Sample

/-- A signature here is the key followed by the sighash. -/
def signingLibrary : Library :=
  { library with
    verifyEcdsa := fun sighash sig key => decide (sig = key ++ sighash) }

def signingChannel : ChannelState := { channel with lib := signingLibrary, walletId := leBytes 32 7 }

def signWith (key : PublicKey) (sighash : Bytes) : Bytes := key ++ sighash

/-- The spend's PSBT after the ingress signed it. -/
def signedPsbt : Psbt :=
  match addNodeSignatures signingLibrary (signWith (nodeKey 0)) keys (psbt 1 10) with
  | .ok psbt => psbt
  | .error _ => psbt 1 10

def partialPayload (signer : Nat) : PartialPayload :=
  { commitmentId := "a"
    walletId := toHex (leBytes 32 7)
    txid := txidToString (leBytes 32 10)
    input := 0
    signerNodeId := signer
    sighashType := sighashAll
    spendPurpose := "spend"
    userSigHash := toHex (leBytes 32 7)
    partialSig := toHex (signWith (nodeKey signer) (leBytes 32 2560)) }

def signedRun : List ChannelOp :=
  [.store (.registerCandidates [⟨⟨signedPsbt, [], "a", "a-escape", false, .spend, true, some ⟨100, 300⟩, 900⟩, keys⟩]
      ⟨"a-escape", "a", "", false, 5, 0⟩ none 0),
    .envelope 1 (some (partialPayload 1)) 50,
    .envelope 0 (some (partialPayload 0)) 50]

theorem signedRun_ingress :
    ∀ op ∈ signedRun, op.Ingress signingChannel.lib (signWith (nodeKey 0)) keys := by
  intro op member
  simp only [signedRun, List.mem_cons, List.not_mem_nil, or_false] at member
  rcases member with rfl | rfl | rfl
  · intro request asked
    rw [List.mem_singleton] at asked
    subst asked
    refine ⟨rfl, ?_⟩
    intro signed listed
    rw [List.mem_singleton] at listed
    subst listed
    exact ⟨psbt 1 10, rfl⟩
  · trivial
  · trivial

theorem signingChannel_valid : signingChannel.Validated keys :=
  ⟨sizedChannel_valid.indexed, sizedChannel_valid.distinct, sizedChannel_valid.own, sizedChannel_valid.user⟩

end Sample

/-- Node 1's partial completes a quorum of two; the message under this node's own id is refused. -/
theorem verified_signatures_only_sample :
    ((channelAfter Sample.signingChannel Sample.config Sample.signedRun).candidates.lookup "a").any (fun c =>
        c.base.hasQuorum 2 Sample.signingChannel.nodes) = true ∧
      ∀ id c, (channelAfter Sample.signingChannel Sample.config Sample.signedRun).candidates.lookup id = some c →
        ∀ v ∈ c.variants, ∀ i input, v.psbt.inputs[i]? = some input → ∀ k node,
        Sample.signingChannel.nodes[k]? = some node → k ≠ 0 →
          ∀ sig, input.partialSigs.lookup node.signingPubkey = some sig →
            v.partials.lookup (i, k) = some sig.der ∧ ∃ sighash,
              v.Digest Sample.signingLibrary Sample.keys i sighash ∧
              Sample.signingLibrary.verifyEcdsa sighash sig.der node.signingPubkey = true :=
  ⟨by decide, (verified_signatures_only Sample.signingChannel_valid (fun _ => decide_eq_true rfl) Sample.config
    Sample.signedRun Sample.signedRun_ingress).1⟩

end BtcPolicy.Channel
