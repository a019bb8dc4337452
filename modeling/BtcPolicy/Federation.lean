import BtcPolicy.Lib.Counting
import BtcPolicy.Channel.Machine

/-! The federation-wide bound on hot outflow. Every node meters its own share of the spends routed to it; a
spend needs `t` signatures, so at least `t - c` honest ledgers carry it, and no honest ledger carries more
than the window cap. -/

namespace BtcPolicy.Federation
open FiniteMap Word Bitcoin HotLedger Channel Counting

/-- The startup checks of a channel federation: `n = 2t - 1`, and one Hot budget for all. The cap is read from
a TOML integer, which is signed. -/
structure HotFederation where
  threshold : Nat
  nodes : List ManifestNode
  budget : HotBudget
  odd : nodes.length = 2 * threshold - 1
  signed : budget.maxPerWindowSat < 2 ^ 63

/-- What the nodes do: a minority is compromised, every other node runs its ledger under its own monotonic
clock. -/
structure History (fed : HotFederation) where
  compromised : Finset (Fin fed.nodes.length)
  minority : compromised.card < fed.threshold
  calls : Fin fed.nodes.length → List LedgerCall
  ordered : ∀ i ∉ compromised, (readings (calls i)).Pairwise (· ≤ ·)

variable {fed : HotFederation}

def History.honest (history : History fed) : Finset (Fin fed.nodes.length) := history.compromisedᶜ

/-- The reservations node `i` created and did not release. -/
def History.ledger (history : History fed) (i : Fin fed.nodes.length) : List Created :=
  book fed.budget (history.calls i)

/-- The node's signature is on some input of the variant. -/
def Signed (variant : SigningVariant) (node : ManifestNode) : Prop :=
  ∃ input ∈ variant.psbt.inputs, (input.partialSigs.lookup node.signingPubkey).isSome = true

instance (variant : SigningVariant) (node : ManifestNode) : Decidable (Signed variant node) :=
  inferInstanceAs (Decidable (∃ input ∈ variant.psbt.inputs, _))

theorem card_honest (history : History fed) :
    history.honest.card = fed.nodes.length - history.compromised.card := by
  rw [History.honest, Finset.card_compl, Fintype.card_fin]

/-- A quorum on the first input is a quorum of signers. -/
theorem threshold_le_signers {variant : SigningVariant} (quorum : variant.hasQuorum fed.threshold fed.nodes = true) :
    fed.threshold ≤ (Finset.univ.filter (fun i => Signed variant (fed.nodes.get i))).card := by
  unfold SigningVariant.hasQuorum at quorum
  cases inputs : variant.psbt.inputs with
  | nil => simp [inputs] at quorum
  | cons input rest =>
    have first : fed.threshold ≤ variant.signatureCount 0 fed.nodes := by
      simp only [Bool.and_eq_true, List.all_eq_true, decide_eq_true_eq] at quorum
      exact quorum.2 0 (List.mem_range.mpr (by simp [inputs]))
    simp only [SigningVariant.signatureCount, inputs, List.getElem?_cons_zero, length_filter_eq_card] at first
    refine first.trans (Finset.card_le_card ?_)
    intro i member
    refine Finset.mem_filter.mpr ⟨Finset.mem_univ i, input, ?_, (Finset.mem_filter.mp member).2⟩
    rw [inputs]
    exact List.mem_cons_self

/-- However a spend was routed, at least `t - c` honest nodes signed it. -/
theorem honest_signers (history : History fed) {variant : SigningVariant}
    (quorum : variant.hasQuorum fed.threshold fed.nodes = true) :
    fed.threshold - history.compromised.card ≤
      (history.honest.filter (fun i => Signed variant (fed.nodes.get i))).card := by
  have all := threshold_le_signers quorum
  have split : Finset.univ.filter (fun i => Signed variant (fed.nodes.get i)) ⊆
      history.honest.filter (fun i => Signed variant (fed.nodes.get i)) ∪ history.compromised := by
    intro i member
    by_cases bad : i ∈ history.compromised
    · exact Finset.mem_union_right _ bad
    · exact Finset.mem_union_left _ (Finset.mem_filter.mpr
        ⟨Finset.mem_compl.mpr bad, (Finset.mem_filter.mp member).2⟩)
  have bound := (Finset.card_le_card split).trans (Finset.card_union_le _ _)
  omega

/-- Inside one window an honest node's share of any set of spends is within the cap. -/
theorem honest_share_le (history : History fed) {i : Fin fed.nodes.length} (honest : i ∉ history.compromised)
    (spends : Finset String) (outflow : String → Nat)
    (metered : ∀ id ∈ spends, ∃ entry ∈ history.ledger i, entry.commitmentId = id ∧ entry.outflowSat = outflow id)
    (window : ∃ start, ∀ entry ∈ history.ledger i, entry.commitmentId ∈ spends →
      start ≤ entry.createdAt ∧ entry.createdAt ≤ start + fed.budget.windowSecs) :
    ∑ id ∈ spends, outflow id ≤ fed.budget.maxPerWindowSat := by
  obtain ⟨start, inside⟩ := window
  have small : fed.budget.maxPerWindowSat < maxWord := by
    have signed := fed.signed
    unfold maxWord
    omega
  calc
    ∑ id ∈ spends, outflow id
      ≤ outflowWithin start fed.budget.windowSecs (history.ledger i) := by
        refine sum_le_of_listed Created.commitmentId Created.outflowSat outflow _ spends ?_
        intro id member
        obtain ⟨entry, present, named, amount⟩ := metered id member
        refine ⟨entry, List.mem_filter.mpr ⟨present, ?_⟩, named, amount⟩
        simpa using inside entry present (named ▸ member)
    _ ≤ fed.budget.maxPerWindowSat := outflowWithin_le fed.budget small _ (history.ordered i honest) start

/-- The loss bound. Every spend of the set completed with a quorum, every honest signer of it holds its
reservation, and each honest node made its reservations for the set within one window of its own clock. -/
theorem hot_loss_bound (history : History fed) (spends : Finset String) (outflow : String → Nat)
    (completed : String → SigningVariant)
    (quorum : ∀ id ∈ spends, (completed id).hasQuorum fed.threshold fed.nodes = true)
    (metered : ∀ i ∉ history.compromised, ∀ id ∈ spends, Signed (completed id) (fed.nodes.get i) →
      ∃ entry ∈ history.ledger i, entry.commitmentId = id ∧ entry.outflowSat = outflow id)
    (window : ∀ i ∉ history.compromised, ∃ start, ∀ entry ∈ history.ledger i, entry.commitmentId ∈ spends →
      start ≤ entry.createdAt ∧ entry.createdAt ≤ start + fed.budget.windowSecs) :
    (fed.threshold - history.compromised.card) * ∑ id ∈ spends, outflow id ≤
      (fed.nodes.length - history.compromised.card) * fed.budget.maxPerWindowSat := by
  rw [← card_honest]
  refine mul_sum_le_card_mul history.honest spends (fun i id => Signed (completed id) (fed.nodes.get i)) outflow _ _
    (fun id member => honest_signers history (quorum id member)) ?_
  intro i honest
  have good : i ∉ history.compromised := Finset.mem_compl.mp honest
  apply honest_share_le history good
  · intro id member
    obtain ⟨inside, signed⟩ := Finset.mem_filter.mp member
    exact metered i good id inside signed
  · obtain ⟨start, inside⟩ := window i good
    exact ⟨start, fun entry present named => inside entry present (Finset.mem_filter.mp named).1⟩

namespace Sample

def federation : HotFederation :=
  ⟨2, Channel.Sample.channel.nodes, ⟨100, 100, 10⟩, by decide, by decide⟩

/-- Nodes 0 and 1 each reserve the spend; node 2 is compromised. -/
def history : History federation :=
  { compromised := Finset.univ.filter (fun i => i.val = 2)
    minority := by decide
    calls := fun _ => [.reserve "a" 60 3 0 50]
    ordered := by decide }

/-- The spend with the signatures of nodes 0 and 2. -/
def completed : SigningVariant :=
  { unsignedTxid := []
    psbt :=
      { unsignedTx := (Channel.Sample.psbt 1 10).unsignedTx
        inputs := (Channel.Sample.psbt 1 10).inputs.map (fun input =>
          { input with
            partialSigs := input.partialSigs.insert (Channel.Sample.nodeKey 2) ⟨[48, 3], sighashAll⟩ })
        outputs := (Channel.Sample.psbt 1 10).outputs }
    sighashes := [[]]
    userSigHash := []
    partials := ∅ }

end Sample

/-- One honest signature carries the whole spend here. -/
theorem hot_loss_bound_sample :
    (Sample.federation.threshold - Sample.history.compromised.card) * ∑ _id ∈ {"a"}, 60 ≤
      (Sample.federation.nodes.length - Sample.history.compromised.card) *
        Sample.federation.budget.maxPerWindowSat :=
  hot_loss_bound Sample.history {"a"} (fun _ => 60) (fun _ => Sample.completed) (by decide)
    (by decide) (fun i _ => ⟨0, by revert i; decide +kernel⟩)

end BtcPolicy.Federation
