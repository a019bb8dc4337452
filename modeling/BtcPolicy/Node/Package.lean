import BtcPolicy.Node.State
import BtcPolicy.Watchtower

/-! The package a candidate is broadcast in. Every unconfirmed ancestor is read from the mempool, decoded and found
among the transactions this node accepted; then the package is the candidate alone. -/

namespace BtcPolicy.Node
open Bitcoin Watchtower Relation

/-- `MAX_PACKAGE_ANCESTORS`. -/
def maxPackageAncestors : Nat := 24

/-- What the backend answers: `gettxout` with the mempool, and the raw transactions of the mempool. -/
structure ChainView where
  prevout : OutPoint → Except String (Option Prevout)
  mempoolTransaction : Txid → Except String (Option Bytes)

/-- The consensus encoding. -/
structure Consensus where
  deserialize : Bytes → Except String RawTransaction
  serialize : RawTransaction → Bytes
  computeTxid : RawTransaction → Txid

/-- What one walk reads: the view, the encoding, and the transactions this node validated and accepted. -/
structure Ancestry where
  backend : ChainView
  consensus : Consensus
  authorized : Finset Txid

namespace Ancestry

variable (w : Ancestry)

/-- The raw parent of an input that is not confirmed. Only the candidate's own inputs are unspent in the mempool, so
that `gettxout` tells; below it, a parent that is not in the mempool is confirmed. -/
def unconfirmedParent (inputsAreUnspent : Bool) (outpoint : OutPoint) : Except String (Option Bytes) :=
  if inputsAreUnspent then
    let named := outPointToString outpoint
    match w.backend.prevout outpoint with
    | .error e => .error e
    | .ok none => .error s!"prevout {named} is unknown to this node's chain view (unknown or spent)"
    | .ok (some prevout) =>
      if prevout.confirmed then .ok none
      else
        let parentTxid := txidToString outpoint.txid
        match w.backend.mempoolTransaction outpoint.txid with
        | .error e => .error e
        | .ok none => .error s!"unconfirmed parent {parentTxid} disappeared from this node's mempool"
        | .ok (some raw) => .ok (some raw)
  else w.backend.mempoolTransaction outpoint.txid

/-- The loop of `validate_ancestors` over the inputs of `tx` that are left. The set of transactions seen grows with
each descent and never shrinks, so the bound on it ends the walk on any view. -/
def validateInputs (tx : RawTransaction) (inputsAreUnspent : Bool) (inputs : List RawInput) (seen : Finset Txid) :
    Except String {after : Finset Txid // seen ⊆ after} :=
  match inputs with
  | [] => .ok ⟨seen, subset_rfl⟩
  | input :: rest =>
    let outpoint := input.txIn.previousOutput
    match w.unconfirmedParent inputsAreUnspent outpoint with
    | .error e => .error e
    | .ok none => validateInputs tx inputsAreUnspent rest seen
    | .ok (some raw) =>
      let parentTxid := txidToString outpoint.txid
      let named := outPointToString outpoint
      let child := txidToString (w.consensus.computeTxid tx)
      if outpoint.txid ∉ w.authorized then
        .error (s!"input {named} chains off unconfirmed transaction {parentTxid}, which this node never validated " ++
          "and policy-accepted: an external unconfirmed deposit is excluded because its parent can be replaced out " ++
          "from under this spend")
      else if _ : outpoint.txid ∈ seen then validateInputs tx inputsAreUnspent rest seen
      else if _ : maxPackageAncestors < (insert outpoint.txid seen).card then
        .error (s!"package for {child} exceeds the {maxPackageAncestors}-ancestor bound; the unconfirmed chain must " ++
          "confirm before this spend can broadcast")
      else
        match w.consensus.deserialize raw with
        | .error e => .error s!"parent {parentTxid} is malformed: {e}"
        | .ok parent =>
          match validateInputs parent false parent.input (insert outpoint.txid seen) with
          | .error e => .error e
          | .ok ⟨after, grown⟩ =>
            match validateInputs tx inputsAreUnspent rest after with
            | .error e => .error e
            | .ok ⟨final, wider⟩ => .ok ⟨final, ((Finset.subset_insert _ _).trans grown).trans wider⟩
termination_by (maxPackageAncestors + 1 - seen.card, inputs.length)
decreasing_by
  · exact Prod.Lex.right _ (Nat.lt_succ_self _)
  · exact Prod.Lex.right _ (Nat.lt_succ_self _)
  · have fresh : (insert outpoint.txid seen).card = seen.card + 1 := Finset.card_insert_of_notMem ‹_›
    apply Prod.Lex.left
    change maxPackageAncestors + 1 - (insert outpoint.txid seen).card < _
    omega
  · have fresh : (insert outpoint.txid seen).card = seen.card + 1 := Finset.card_insert_of_notMem ‹_›
    have wider := Finset.card_le_card grown
    apply Prod.Lex.left
    omega

/-- `validate_ancestors`. -/
def validateAncestors (tx : RawTransaction) (inputsAreUnspent : Bool) : Except String (Finset Txid) :=
  (w.validateInputs tx inputsAreUnspent tx.input ∅).map Subtype.val

def assemblePackage (tx : RawTransaction) : Except String (List Bytes) :=
  match w.validateAncestors tx true with
  | .error e => .error e
  | .ok _ => .ok [w.consensus.serialize tx]

def assembleReplacementPackage (replacement replaced : RawTransaction) : Except String (List Bytes) :=
  let newTxid := txidToString (w.consensus.computeTxid replacement)
  let oldTxid := txidToString (w.consensus.computeTxid replaced)
  if replacement.input.map (fun input => input.txIn.previousOutput) ≠
      replaced.input.map (fun input => input.txIn.previousOutput) then
    .error s!"replacement {newTxid} does not spend the exact input set of resident rung {oldTxid}"
  else
    match w.validateAncestors replaced false with
    | .error e => .error e
    | .ok _ => .ok [w.consensus.serialize replacement]

/-! ### The unconfirmed closure -/

/-- An input's parent is unconfirmed: `gettxout` says so of a candidate's input, and the mempool does not deny it of
an input of a transaction in the mempool. -/
def Unconfirmed (inputsAreUnspent : Bool) (outpoint : OutPoint) : Prop :=
  if inputsAreUnspent then ∃ prevout, w.backend.prevout outpoint = .ok (some prevout) ∧ prevout.confirmed = false
  else w.backend.mempoolTransaction outpoint.txid ≠ .ok none

/-- A transaction of the mempool spends an output of another that is not known to be confirmed. -/
def MempoolParent (child parent : Txid) : Prop :=
  ∃ raw tx, w.backend.mempoolTransaction child = .ok (some raw) ∧ w.consensus.deserialize raw = .ok tx ∧
    ∃ input ∈ tx.input, input.txIn.previousOutput.txid = parent ∧ w.Unconfirmed false input.txIn.previousOutput

/-- The transactions reached from the unconfirmed inputs through the mempool. -/
def ancestors (inputsAreUnspent : Bool) (inputs : List RawInput) : Set Txid :=
  { txid | ∃ input ∈ inputs, w.Unconfirmed inputsAreUnspent input.txIn.previousOutput ∧
      ReflTransGen w.MempoolParent input.txIn.previousOutput.txid txid }

/-- In the mempool, decodable and authorized. -/
structure Admitted (txid : Txid) : Prop where
  authorized : txid ∈ w.authorized
  resident : ∃ raw tx, w.backend.mempoolTransaction txid = .ok (some raw) ∧ w.consensus.deserialize raw = .ok tx

/-- The unconfirmed closure of the inputs is admitted and small enough for one package. -/
structure ClosureAdmitted (inputsAreUnspent : Bool) (inputs : List RawInput) : Prop where
  admitted : ∀ txid ∈ w.ancestors inputsAreUnspent inputs, w.Admitted txid
  few : (w.ancestors inputsAreUnspent inputs).encard ≤ maxPackageAncestors

section

variable {w : Ancestry} {inputsAreUnspent : Bool}

theorem unconfirmed_of_resident {outpoint : OutPoint} {raw : Bytes}
    (looked : w.unconfirmedParent inputsAreUnspent outpoint = .ok (some raw)) :
    w.Unconfirmed inputsAreUnspent outpoint ∧ w.backend.mempoolTransaction outpoint.txid = .ok (some raw) := by
  unfold unconfirmedParent at looked
  unfold Unconfirmed
  cases inputsAreUnspent with
  | false =>
    rw [if_neg Bool.false_ne_true] at looked ⊢
    exact ⟨by simp [looked], looked⟩
  | true =>
    rw [if_pos rfl] at looked ⊢
    simp only at looked
    cases known : w.backend.prevout outpoint with
    | error e => simp [known] at looked
    | ok found =>
      cases found with
      | none => simp [known] at looked
      | some prevout =>
        cases mined : prevout.confirmed with
        | true => simp [known, mined] at looked
        | false =>
          cases resident : w.backend.mempoolTransaction outpoint.txid with
          | error e => simp [known, mined, resident] at looked
          | ok held =>
            cases held with
            | none => simp [known, mined, resident] at looked
            | some raw' =>
              simp only [known, mined, resident, Bool.false_eq_true, if_false, Except.ok.injEq] at looked
              rw [looked]
              exact ⟨⟨prevout, rfl, mined⟩, rfl⟩

/-- An input whose parent is not followed is confirmed. -/
theorem confirmed_of_none {outpoint : OutPoint} (looked : w.unconfirmedParent inputsAreUnspent outpoint = .ok none) :
    ¬w.Unconfirmed inputsAreUnspent outpoint := by
  unfold unconfirmedParent at looked
  unfold Unconfirmed
  cases inputsAreUnspent with
  | false =>
    rw [if_neg Bool.false_ne_true] at looked ⊢
    exact not_not_intro looked
  | true =>
    rw [if_pos rfl] at looked ⊢
    rintro ⟨prevout, known, unmined⟩
    simp only [known, unmined, Bool.false_eq_true, if_false] at looked
    cases resident : w.backend.mempoolTransaction outpoint.txid with
    | error e => simp [resident] at looked
    | ok held => cases held <;> simp [resident] at looked

/-- The prevout of a candidate's input is known; below the candidate nothing is asked of it. -/
def Known (w : Ancestry) (inputsAreUnspent : Bool) (outpoint : OutPoint) : Prop :=
  inputsAreUnspent = true → ∃ prevout, w.backend.prevout outpoint = .ok (some prevout)

theorem known_of_ok {outpoint : OutPoint} {found : Option Bytes}
    (looked : w.unconfirmedParent inputsAreUnspent outpoint = .ok found) : w.Known inputsAreUnspent outpoint := by
  rintro rfl
  unfold unconfirmedParent at looked
  rw [if_pos rfl] at looked
  simp only at looked
  cases known : w.backend.prevout outpoint with
  | error e => simp [known] at looked
  | ok found =>
    cases found with
    | none => simp [known] at looked
    | some prevout => exact ⟨prevout, rfl⟩

/-- A known input is looked up: it is confirmed, or its parent is resident when it is admitted. -/
theorem unconfirmedParent_ok {outpoint : OutPoint} (known : w.Known inputsAreUnspent outpoint)
    (admitted : w.Unconfirmed inputsAreUnspent outpoint → w.Admitted outpoint.txid) :
    ∃ found, w.unconfirmedParent inputsAreUnspent outpoint = .ok found := by
  unfold Unconfirmed at admitted
  unfold unconfirmedParent
  cases inputsAreUnspent with
  | false =>
    rw [if_neg Bool.false_ne_true] at admitted ⊢
    by_cases absent : w.backend.mempoolTransaction outpoint.txid = .ok none
    · exact ⟨none, absent⟩
    · obtain ⟨raw, _, resident, _⟩ := (admitted absent).resident
      exact ⟨some raw, resident⟩
  | true =>
    rw [if_pos rfl] at admitted ⊢
    obtain ⟨prevout, found⟩ := known rfl
    cases mined : prevout.confirmed with
    | true => exact ⟨none, by simp [found, mined]⟩
    | false =>
      obtain ⟨raw, _, resident, _⟩ := (admitted ⟨prevout, found, mined⟩).resident
      exact ⟨some raw, by simp [found, mined, resident]⟩

/-! ### What a walk has explored -/

/-- What the transactions newly seen by a walk over `inputs` are. -/
structure Explored (w : Ancestry) (inputsAreUnspent : Bool) (inputs : List RawInput) (seen after : Finset Txid) :
    Prop where
  known : ∀ input ∈ inputs, w.Known inputsAreUnspent input.txIn.previousOutput
  covers : ∀ input ∈ inputs, w.Unconfirmed inputsAreUnspent input.txIn.previousOutput →
    input.txIn.previousOutput.txid ∈ after
  closed : ∀ child ∈ after, child ∉ seen → ∀ parent, w.MempoolParent child parent → parent ∈ after
  reached : ∀ txid ∈ after, txid ∉ seen → txid ∈ w.ancestors inputsAreUnspent inputs
  admitted : ∀ txid ∈ after, txid ∉ seen → w.Admitted txid
  few : seen.card ≤ maxPackageAncestors → after.card ≤ maxPackageAncestors

theorem ancestors_cons {input : RawInput} {rest : List RawInput} {txid : Txid}
    (above : txid ∈ w.ancestors inputsAreUnspent rest) : txid ∈ w.ancestors inputsAreUnspent (input :: rest) := by
  obtain ⟨origin, member, unconfirmed, path⟩ := above
  exact ⟨origin, List.mem_cons_of_mem _ member, unconfirmed, path⟩

/-- A set that has all mempool parents of its members has all they descend from. -/
theorem mem_of_descends {all : Finset Txid}
    (closed : ∀ child ∈ all, ∀ parent, w.MempoolParent child parent → parent ∈ all) {child txid : Txid}
    (member : child ∈ all) (path : ReflTransGen w.MempoolParent child txid) : txid ∈ all := by
  induction path with
  | refl => exact member
  | tail _ link ih => exact closed _ ih _ link

namespace Explored

variable {input : RawInput} {rest : List RawInput} {seen after : Finset Txid}

theorem nil : w.Explored inputsAreUnspent [] seen seen :=
  ⟨nofun, nofun, fun _ member new => absurd member new, fun _ member new => absurd member new,
    fun _ member new => absurd member new, id⟩

/-- An input adds nothing when it is confirmed, or when its parent has been seen. -/
theorem skip (explored : w.Explored inputsAreUnspent rest seen after) {found : Option Bytes}
    (looked : w.unconfirmedParent inputsAreUnspent input.txIn.previousOutput = .ok found)
    (covered : w.Unconfirmed inputsAreUnspent input.txIn.previousOutput → input.txIn.previousOutput.txid ∈ after) :
    w.Explored inputsAreUnspent (input :: rest) seen after where
  known := List.forall_mem_cons.mpr ⟨known_of_ok looked, explored.known⟩
  covers := List.forall_mem_cons.mpr ⟨covered, explored.covers⟩
  closed := explored.closed
  reached := fun txid member new => ancestors_cons (explored.reached txid member new)
  admitted := explored.admitted
  few := explored.few

/-- A parent that has not been seen is explored with its own inputs before the inputs that are left. -/
theorem descend {raw : Bytes} {parent : RawTransaction} {below : Finset Txid}
    (looked : w.unconfirmedParent inputsAreUnspent input.txIn.previousOutput = .ok (some raw))
    (authorized : input.txIn.previousOutput.txid ∈ w.authorized)
    (few : (insert input.txIn.previousOutput.txid seen).card ≤ maxPackageAncestors)
    (decoded : w.consensus.deserialize raw = .ok parent)
    (inner : w.Explored false parent.input (insert input.txIn.previousOutput.txid seen) below)
    (grown : insert input.txIn.previousOutput.txid seen ⊆ below)
    (outer : w.Explored inputsAreUnspent rest below after) (wider : below ⊆ after) :
    w.Explored inputsAreUnspent (input :: rest) seen after := by
  obtain ⟨unconfirmed, resident⟩ := unconfirmed_of_resident looked
  have here : input.txIn.previousOutput.txid ∈ after := wider (grown (Finset.mem_insert_self _ _))
  -- What is new is the parent, or new below it, or new among the inputs that are left.
  have fresh : ∀ txid ∈ after, txid ∉ seen →
      txid = input.txIn.previousOutput.txid ∨
        (txid ∈ below ∧ txid ∉ insert input.txIn.previousOutput.txid seen) ∨ txid ∉ below := by
    intro txid _ new
    by_cases inside : txid ∈ below
    · by_cases own : txid = input.txIn.previousOutput.txid
      · exact .inl own
      · exact .inr (.inl ⟨inside, fun member => (Finset.mem_insert.mp member).elim own new⟩)
    · exact .inr (.inr inside)
  refine ⟨List.forall_mem_cons.mpr ⟨known_of_ok looked, outer.known⟩,
    List.forall_mem_cons.mpr ⟨fun _ => here, outer.covers⟩, ?_, ?_, ?_, fun _ => outer.few (inner.few few)⟩
  · intro child member new grandparent link
    rcases fresh child member new with rfl | ⟨inside, unseen⟩ | outside
    · obtain ⟨raw', parent', resident', decoded', origin, spends, rfl, lower⟩ := link
      cases Option.some.inj (Except.ok.inj (resident.symm.trans resident'))
      cases Except.ok.inj (decoded.symm.trans decoded')
      exact wider (inner.covers origin spends lower)
    · exact wider (inner.closed child inside unseen grandparent link)
    · exact outer.closed child member outside grandparent link
  · intro txid member new
    rcases fresh txid member new with rfl | ⟨inside, unseen⟩ | outside
    · exact ⟨input, List.mem_cons_self, unconfirmed, .refl⟩
    · obtain ⟨origin, spends, lower, path⟩ := inner.reached txid inside unseen
      have link : w.MempoolParent input.txIn.previousOutput.txid origin.txIn.previousOutput.txid :=
        ⟨raw, parent, resident, decoded, origin, spends, rfl, lower⟩
      exact ⟨input, List.mem_cons_self, unconfirmed, path.head link⟩
    · exact ancestors_cons (outer.reached txid member outside)
  · intro txid member new
    rcases fresh txid member new with rfl | ⟨inside, unseen⟩ | outside
    · exact ⟨authorized, raw, parent, resident, decoded⟩
    · exact inner.admitted txid inside unseen
    · exact outer.admitted txid member outside

end Explored

theorem validateInputs_explored (tx : RawTransaction) (inputs : List RawInput) (seen : Finset Txid) :
    ∀ final, w.validateInputs tx inputsAreUnspent inputs seen = .ok final →
      w.Explored inputsAreUnspent inputs seen final.val := by
  fun_induction Ancestry.validateInputs w tx inputsAreUnspent inputs seen with
  | case1 =>
    intro final walked
    cases walked
    exact .nil
  | case3 tx inputsAreUnspent seen input rest outpoint looked ih =>
    intro final walked
    exact (ih final walked).skip looked (fun unconfirmed => absurd unconfirmed (confirmed_of_none looked))
  | case5 tx inputsAreUnspent seen input rest outpoint raw looked _ known ih =>
    intro final walked
    exact (ih final walked).skip looked (fun _ => final.property known)
  | case10 tx inputsAreUnspent seen input rest outpoint raw looked authorized _ room parent decoded below grown inner last
      onward outer ihInner ihOuter =>
    intro final walked
    cases walked
    exact .descend looked (not_not.mp authorized) (Nat.le_of_not_lt room) decoded (ihInner _ inner) grown
      (ihOuter _ outer) onward
  | case2 | case4 | case6 | case7 | case8 | case9 => nofun

theorem covers_parent {all : Finset Txid}
    (closed : ∀ child ∈ all, ∀ parent, w.MempoolParent child parent → parent ∈ all) {child : Txid} {raw : Bytes}
    {tx : RawTransaction} (member : child ∈ all) (resident : w.backend.mempoolTransaction child = .ok (some raw))
    (decoded : w.consensus.deserialize raw = .ok tx) :
    ∀ input ∈ tx.input, w.Unconfirmed false input.txIn.previousOutput → input.txIn.previousOutput.txid ∈ all :=
  fun input spends lower => closed child member _ ⟨raw, tx, resident, decoded, input, spends, rfl, lower⟩

/-- A walk inside an admitted set that has all mempool parents of its members comes to its end there. -/
theorem validateInputs_ok {all : Finset Txid} (few : all.card ≤ maxPackageAncestors)
    (admitted : ∀ txid ∈ all, w.Admitted txid)
    (closed : ∀ child ∈ all, ∀ parent, w.MempoolParent child parent → parent ∈ all) (tx : RawTransaction)
    (inputs : List RawInput) (seen : Finset Txid) (inside : seen ⊆ all)
    (known : ∀ input ∈ inputs, w.Known inputsAreUnspent input.txIn.previousOutput)
    (covers : ∀ input ∈ inputs, w.Unconfirmed inputsAreUnspent input.txIn.previousOutput →
      input.txIn.previousOutput.txid ∈ all) :
    ∃ after, w.validateInputs tx inputsAreUnspent inputs seen = .ok after ∧ after.val ⊆ all := by
  fun_induction Ancestry.validateInputs w tx inputsAreUnspent inputs seen with
  | case1 tx inputsAreUnspent seen => exact ⟨⟨seen, subset_rfl⟩, rfl, inside⟩
  | case2 tx inputsAreUnspent seen input rest outpoint e failed =>
    obtain ⟨here, _⟩ := List.forall_mem_cons.mp known
    obtain ⟨covered, _⟩ := List.forall_mem_cons.mp covers
    obtain ⟨found, looked⟩ := unconfirmedParent_ok here (fun unconfirmed => admitted _ (covered unconfirmed))
    exact absurd (failed.symm.trans looked) nofun
  | case3 tx inputsAreUnspent seen input rest outpoint looked ih =>
    exact ih inside (List.forall_mem_cons.mp known).2 (List.forall_mem_cons.mp covers).2
  | case4 tx inputsAreUnspent seen input rest outpoint raw looked _ _ foreign =>
    have covered := (List.forall_mem_cons.mp covers).1 (unconfirmed_of_resident looked).1
    exact absurd (admitted _ covered).authorized foreign
  | case5 tx inputsAreUnspent seen input rest outpoint raw looked _ _ ih =>
    exact ih inside (List.forall_mem_cons.mp known).2 (List.forall_mem_cons.mp covers).2
  | case6 tx inputsAreUnspent seen input rest outpoint raw looked child _ _ full =>
    have covered := (List.forall_mem_cons.mp covers).1 (unconfirmed_of_resident looked).1
    have room := Finset.card_le_card (Finset.insert_subset covered inside)
    exact absurd full (Nat.not_lt_of_le (room.trans few))
  | case7 tx inputsAreUnspent seen input rest outpoint raw looked _ _ _ _ e failed =>
    obtain ⟨unconfirmed, resident⟩ := unconfirmed_of_resident looked
    obtain ⟨raw', tx', resident', decoded⟩ := (admitted _ ((List.forall_mem_cons.mp covers).1 unconfirmed)).resident
    cases Option.some.inj (Except.ok.inj (resident.symm.trans resident'))
    exact absurd (failed.symm.trans decoded) nofun
  | case8 tx inputsAreUnspent seen input rest outpoint raw looked _ _ _ parent decoded e failed ih =>
    obtain ⟨unconfirmed, resident⟩ := unconfirmed_of_resident looked
    have covered := (List.forall_mem_cons.mp covers).1 unconfirmed
    obtain ⟨after, walked, _⟩ := ih (Finset.insert_subset covered inside) nofun
      (covers_parent closed covered resident decoded)
    exact absurd (failed.symm.trans walked) nofun
  | case9 tx inputsAreUnspent seen input rest outpoint raw looked _ _ _ parent decoded below grown inner e failed ihInner
      ihOuter =>
    obtain ⟨unconfirmed, resident⟩ := unconfirmed_of_resident looked
    have covered := (List.forall_mem_cons.mp covers).1 unconfirmed
    obtain ⟨after, walked, within⟩ := ihInner (Finset.insert_subset covered inside) nofun
      (covers_parent closed covered resident decoded)
    cases Except.ok.inj (inner.symm.trans walked)
    obtain ⟨last, walked', _⟩ := ihOuter within (List.forall_mem_cons.mp known).2 (List.forall_mem_cons.mp covers).2
    exact absurd (failed.symm.trans walked') nofun
  | case10 tx inputsAreUnspent seen input rest outpoint raw looked _ _ _ parent decoded below grown inner final onward
      outer ihInner ihOuter =>
    obtain ⟨unconfirmed, resident⟩ := unconfirmed_of_resident looked
    have covered := (List.forall_mem_cons.mp covers).1 unconfirmed
    obtain ⟨after, walked, within⟩ := ihInner (Finset.insert_subset covered inside) nofun
      (covers_parent closed covered resident decoded)
    cases Except.ok.inj (inner.symm.trans walked)
    obtain ⟨last, walked', within'⟩ :=
      ihOuter within (List.forall_mem_cons.mp known).2 (List.forall_mem_cons.mp covers).2
    cases Except.ok.inj (outer.symm.trans walked')
    exact ⟨_, rfl, within'⟩

/-- The walk comes to its end exactly on an admitted closure of known inputs. -/
theorem validateAncestors_ok (tx : RawTransaction) :
    (∃ seen, w.validateAncestors tx inputsAreUnspent = .ok seen) ↔
      (∀ input ∈ tx.input, w.Known inputsAreUnspent input.txIn.previousOutput) ∧
        w.ClosureAdmitted inputsAreUnspent tx.input := by
  constructor
  · rintro ⟨seen, done⟩
    cases walked : w.validateInputs tx inputsAreUnspent tx.input ∅ with
    | error e => simp [validateAncestors, walked, Except.map] at done
    | ok final =>
      have explored := validateInputs_explored tx tx.input ∅ final walked
      have new : ∀ txid, txid ∉ (∅ : Finset Txid) := Finset.notMem_empty
      have all : w.ancestors inputsAreUnspent tx.input ⊆ final.val := by
        rintro txid ⟨input, member, unconfirmed, path⟩
        exact mem_of_descends (fun child inside => explored.closed child inside (new child))
          (explored.covers input member unconfirmed) path
      refine ⟨explored.known, fun txid above => explored.admitted txid (all above) (new txid), ?_⟩
      calc (w.ancestors inputsAreUnspent tx.input).encard ≤ (final.val : Set Txid).encard := Set.encard_le_encard all
        _ = final.val.card := Set.encard_coe_eq_coe_finsetCard _
        _ ≤ maxPackageAncestors := by exact_mod_cast explored.few (by simp)
  · rintro ⟨known, closure⟩
    have finite : (w.ancestors inputsAreUnspent tx.input).Finite := Set.finite_of_encard_le_coe closure.few
    have same : ∀ txid, txid ∈ finite.toFinset ↔ txid ∈ w.ancestors inputsAreUnspent tx.input :=
      fun txid => finite.mem_toFinset
    have few : finite.toFinset.card ≤ maxPackageAncestors := by
      have count := closure.few
      rw [finite.encard_eq_coe_toFinset_card] at count
      exact_mod_cast count
    obtain ⟨final, walked, _⟩ := validateInputs_ok few
      (fun txid member => closure.admitted txid ((same txid).mp member))
      (by
        intro child member parent link
        obtain ⟨input, spends, unconfirmed, path⟩ := (same child).mp member
        exact (same parent).mpr ⟨input, spends, unconfirmed, path.tail link⟩)
      tx tx.input ∅ (Finset.empty_subset _) known
      (fun input spends unconfirmed => (same _).mpr ⟨input, spends, unconfirmed, .refl⟩)
    exact ⟨final.val, by rw [validateAncestors, walked]; rfl⟩

theorem assemblePackage_ok (tx : RawTransaction) (package : List Bytes) :
    w.assemblePackage tx = .ok package ↔
      (∃ seen, w.validateAncestors tx true = .ok seen) ∧ package = [w.consensus.serialize tx] := by
  unfold assemblePackage
  cases w.validateAncestors tx true with
  | error e => simp
  | ok seen => simp [eq_comm]

theorem assembleReplacementPackage_ok (replacement replaced : RawTransaction) (package : List Bytes) :
    w.assembleReplacementPackage replacement replaced = .ok package ↔
      replacement.input.map (fun input => input.txIn.previousOutput) =
          replaced.input.map (fun input => input.txIn.previousOutput) ∧
        (∃ seen, w.validateAncestors replaced false = .ok seen) ∧ package = [w.consensus.serialize replacement] := by
  unfold assembleReplacementPackage
  by_cases same : replacement.input.map (fun input => input.txIn.previousOutput) =
      replaced.input.map (fun input => input.txIn.previousOutput)
  · simp only
    rw [if_neg (not_not_intro same)]
    cases w.validateAncestors replaced false with
    | error e => simp
    | ok seen => simp [same, eq_comm]
  · simp [same]

end

/-! ### The walk by depth -/

/-- The loop over the inputs of one transaction, with a walk for the parents it descends into. -/
def loopInputs (descend : RawTransaction → (seen : Finset Txid) → Except String {after : Finset Txid // seen ⊆ after})
    (tx : RawTransaction) (inputsAreUnspent : Bool) :
    List RawInput → (seen : Finset Txid) → Except String {after : Finset Txid // seen ⊆ after}
  | [], seen => .ok ⟨seen, subset_rfl⟩
  | input :: rest, seen =>
    let outpoint := input.txIn.previousOutput
    match w.unconfirmedParent inputsAreUnspent outpoint with
    | .error e => .error e
    | .ok none => loopInputs descend tx inputsAreUnspent rest seen
    | .ok (some raw) =>
      let parentTxid := txidToString outpoint.txid
      let named := outPointToString outpoint
      let child := txidToString (w.consensus.computeTxid tx)
      if outpoint.txid ∉ w.authorized then
        .error (s!"input {named} chains off unconfirmed transaction {parentTxid}, which this node never validated " ++
          "and policy-accepted: an external unconfirmed deposit is excluded because its parent can be replaced out " ++
          "from under this spend")
      else if outpoint.txid ∈ seen then loopInputs descend tx inputsAreUnspent rest seen
      else if maxPackageAncestors < (insert outpoint.txid seen).card then
        .error (s!"package for {child} exceeds the {maxPackageAncestors}-ancestor bound; the unconfirmed chain must " ++
          "confirm before this spend can broadcast")
      else
        match w.consensus.deserialize raw with
        | .error e => .error s!"parent {parentTxid} is malformed: {e}"
        | .ok parent =>
          match descend parent (insert outpoint.txid seen) with
          | .error e => .error e
          | .ok ⟨after, grown⟩ =>
            match loopInputs descend tx inputsAreUnspent rest after with
            | .error e => .error e
            | .ok ⟨final, wider⟩ => .ok ⟨final, ((Finset.subset_insert _ _).trans grown).trans wider⟩

/-- The walk of a parent, cut off so many transactions below it. It is recursive in the depth, so that the kernel can
run it. -/
def walkInputs : Nat → RawTransaction → (seen : Finset Txid) → Except String {after : Finset Txid // seen ⊆ after}
  | 0, _, _ => .error "too deep"
  | depth + 1, parent, seen => w.loopInputs (walkInputs depth) parent false parent.input seen

/-- The walk is the loop over the candidate's inputs, for any walk that agrees with it below what has been seen. -/
theorem validateInputs_eq_loopInputs
    {descend : RawTransaction → (seen : Finset Txid) → Except String {after : Finset Txid // seen ⊆ after}}
    (tx : RawTransaction) (inputsAreUnspent : Bool) (inputs : List RawInput) (seen : Finset Txid)
    (same : ∀ parent below, seen.card < below.card → below.card ≤ maxPackageAncestors →
      w.validateInputs parent false parent.input below = descend parent below) :
    w.validateInputs tx inputsAreUnspent inputs seen = w.loopInputs descend tx inputsAreUnspent inputs seen := by
  induction inputs generalizing seen with
  | nil => rw [validateInputs, loopInputs]
  | cons input rest ih =>
    rw [validateInputs, loopInputs]
    simp only
    cases w.unconfirmedParent inputsAreUnspent input.txIn.previousOutput with
    | error e => rfl
    | ok found =>
      cases found with
      | none => exact ih seen same
      | some raw =>
        simp only
        split_ifs with authorized known full
        · exact ih seen same
        · rfl
        · cases w.consensus.deserialize raw with
          | error e => rfl
          | ok parent =>
            have fresh : (insert input.txIn.previousOutput.txid seen).card = seen.card + 1 :=
              Finset.card_insert_of_notMem known
            simp only
            rw [same parent _ (by omega) (Nat.le_of_not_lt full)]
            cases descend parent (insert input.txIn.previousOutput.txid seen) with
            | error e => rfl
            | ok below =>
              have wider := Finset.card_le_card below.property
              simp only
              rw [ih below.val (fun parent below' more => same parent below' (by omega))]
        · rfl

/-- No walk goes deeper than the bound on what it has seen. -/
theorem validateInputs_eq_walkInputs (depth : Nat) (parent : RawTransaction) (seen : Finset Txid)
    (few : seen.card ≤ maxPackageAncestors) (deep : maxPackageAncestors < seen.card + depth) :
    w.validateInputs parent false parent.input seen = w.walkInputs depth parent seen := by
  induction depth generalizing parent seen with
  | zero => omega
  | succ depth ih =>
    apply validateInputs_eq_loopInputs
    intro grandparent below more room
    exact ih grandparent below room (by omega)

theorem validateAncestors_eq_loopInputs (tx : RawTransaction) (inputsAreUnspent : Bool) :
    w.validateAncestors tx inputsAreUnspent =
      (w.loopInputs (w.walkInputs maxPackageAncestors) tx inputsAreUnspent tx.input ∅).map Subtype.val := by
  unfold validateAncestors
  rw [validateInputs_eq_loopInputs]
  intro parent below more room
  rw [Finset.card_empty] at more
  exact validateInputs_eq_walkInputs w maxPackageAncestors parent below room (by omega)

/-- On any view of the chain, a package is assembled exactly for known inputs whose unconfirmed closure is in the
mempool, decodes, is authorized and has at most 24 members; for a replacement, when it spends the outpoints of a
resident whose closure is so. The package is the candidate alone. -/
theorem package_is_the_authorized_closure (w : Ancestry) (tx replaced : RawTransaction) :
    ((∃ package, w.assemblePackage tx = .ok package) ↔
      (∀ input ∈ tx.input, ∃ prevout, w.backend.prevout input.txIn.previousOutput = .ok (some prevout)) ∧
        w.ClosureAdmitted true tx.input) ∧
    ((∃ package, w.assembleReplacementPackage tx replaced = .ok package) ↔
      tx.input.map (fun input => input.txIn.previousOutput) =
          replaced.input.map (fun input => input.txIn.previousOutput) ∧
        w.ClosureAdmitted false replaced.input) ∧
    (∀ package, w.assemblePackage tx = .ok package → package = [w.consensus.serialize tx]) ∧
    ∀ package, w.assembleReplacementPackage tx replaced = .ok package → package = [w.consensus.serialize tx] := by
  refine ⟨?_, ?_, fun package done => ((assemblePackage_ok tx package).mp done).2,
    fun package done => ((assembleReplacementPackage_ok tx replaced package).mp done).2.2⟩
  · have asked : (∀ input ∈ tx.input, w.Known true input.txIn.previousOutput) ↔
        ∀ input ∈ tx.input, ∃ prevout, w.backend.prevout input.txIn.previousOutput = .ok (some prevout) :=
      forall₂_congr (fun _ _ => ⟨fun known => known rfl, fun known _ => known⟩)
    rw [← asked, ← validateAncestors_ok]
    simp only [assemblePackage_ok, exists_and_left, exists_eq, and_true]
  · -- Of the inputs of a resident nothing is asked.
    have walked : (∃ seen, w.validateAncestors replaced false = .ok seen) ↔ w.ClosureAdmitted false replaced.input :=
      (validateAncestors_ok replaced).trans (and_iff_right (fun _ _ => nofun))
    simp only [assembleReplacementPackage_ok, exists_and_left, exists_eq, and_true, walked]

end Ancestry

end BtcPolicy.Node
