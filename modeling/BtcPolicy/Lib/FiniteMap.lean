import Mathlib.Data.List.AList
import Mathlib.Algebra.BigOperators.Group.List.Basic
import Mathlib.Algebra.Order.BigOperators.Group.List
import Mathlib.Tactic

/-! Finite maps with the operations of a hash map that is edited in place: keep the entries a
predicate selects, rewrite the value at one key, and add up a weight over the values. The maps are
Mathlib's association lists with distinct keys, so insertion, removal and lookup are the library's. -/

namespace BtcPolicy.FiniteMap

/-- A finite map from `κ` to `ν`. -/
abbrev Map (κ ν : Type) := AList (fun _ : κ => ν)

section Measures

variable {κ ν : Type}

/-- The values, in entry order. -/
def vals (m : Map κ ν) : List ν := m.entries.map (fun e => e.2)

/-- The number of entries (`len`). -/
def size (m : Map κ ν) : Nat := m.entries.length

/-- The sum of a weight over all values. -/
def total (weight : ν → Nat) (m : Map κ ν) : Nat := ((vals m).map weight).sum

/-- `HashMap::retain`: drop every entry the predicate rejects. -/
def retain (keep : κ → ν → Bool) (m : Map κ ν) : Map κ ν :=
  ⟨m.entries.filter (fun e => keep e.1 e.2),
    m.nodupKeys.sublist List.filter_sublist⟩

theorem total_eq_sum (weight : ν → Nat) (m : Map κ ν) :
    total weight m = (m.entries.map (fun e => weight e.2)).sum := by
  simp [total, vals, Function.comp_def]

theorem total_le_of_sublist {m n : Map κ ν} (shorter : m.entries.Sublist n.entries)
    (weight : ν → Nat) : total weight m ≤ total weight n := by
  rw [total_eq_sum, total_eq_sum]
  exact (shorter.map _).sum_le_sum (fun _ _ => Nat.zero_le _)

theorem total_retain_le (keep : κ → ν → Bool) (weight : ν → Nat) (m : Map κ ν) :
    total weight (retain keep m) ≤ total weight m :=
  total_le_of_sublist List.filter_sublist weight

/-- A selection and what it drops weigh as much as the map. -/
theorem total_retain_add_dropped (keep : κ → ν → Bool) (weight : ν → Nat) (m : Map κ ν) :
    total weight (retain keep m) +
      ((m.entries.filter (fun e => !keep e.1 e.2)).map (fun e => weight e.2)).sum = total weight m := by
  rw [total_eq_sum, total_eq_sum]
  show ((m.entries.filter (fun e => keep e.1 e.2)).map (fun e => weight e.2)).sum + _ = _
  induction m.entries with
  | nil => rfl
  | cons e rest ih =>
    by_cases kept : keep e.1 e.2 = true
    · simp [kept, ← ih, Nat.add_assoc]
    · simp [kept, ← ih, Nat.add_left_comm]

theorem size_retain_vals (keep : ν → Bool) (m : Map κ ν) :
    size (retain (fun _ v => keep v) m) = ((vals m).filter keep).length := by
  rw [vals, List.filter_map, List.length_map]
  rfl

theorem size_retain_le (keep : κ → ν → Bool) (m : Map κ ν) : size (retain keep m) ≤ size m :=
  List.length_filter_le _ _

end Measures

section Lookup

variable {κ ν : Type} [DecidableEq κ]

theorem dlookup_filter (keep : κ → ν → Bool) (k : κ) (l : List (Sigma fun _ : κ => ν))
    (distinct : l.NodupKeys) :
    (l.filter (fun e => keep e.1 e.2)).dlookup k = (l.dlookup k).filter (keep k) := by
  induction l with
  | nil => rfl
  | cons e l ih =>
    rcases e with ⟨key, value⟩
    have tail : l.NodupKeys := (List.nodupKeys_cons.mp distinct).2
    have outside : key ∉ l.keys := (List.nodupKeys_cons.mp distinct).1
    by_cases same : k = key
    · subst same
      have gone : l.dlookup k = none := List.dlookup_eq_none.mpr outside
      by_cases kept : keep k value = true
      · simp [kept, Option.filter]
      · simp [kept, ih tail, gone, Option.filter]
    · rw [List.dlookup_cons_ne _ _ same]
      by_cases kept : keep key value = true
      · rw [List.filter_cons, if_pos kept, List.dlookup_cons_ne _ _ same, ih tail]
      · rw [List.filter_cons, if_neg kept, ih tail]

@[simp] theorem lookup_retain (keep : κ → ν → Bool) (m : Map κ ν) (k : κ) :
    (retain keep m).lookup k = (m.lookup k).filter (keep k) :=
  dlookup_filter keep k m.entries m.nodupKeys

theorem lookup_retain_some {keep : κ → ν → Bool} {m : Map κ ν} {k : κ} {v : ν} :
    (retain keep m).lookup k = some v ↔ m.lookup k = some v ∧ keep k v = true := by
  simp [Option.filter_eq_some_iff]

def adjustEntries (k : κ) (f : ν → ν) (l : List (Sigma fun _ : κ => ν)) :
    List (Sigma fun _ : κ => ν) :=
  l.map (fun e => if e.1 = k then ⟨e.1, f e.2⟩ else e)

theorem keys_adjustEntries (k : κ) (f : ν → ν) (l : List (Sigma fun _ : κ => ν)) :
    (adjustEntries k f l).keys = l.keys := by
  simp only [adjustEntries, List.keys, List.map_map]
  apply List.map_congr_left
  intro e _
  simp only [Function.comp_apply]
  split_ifs <;> rfl

/-- Rewrite the value at `k` in place, if there is one (`get_mut`). -/
def adjust (k : κ) (f : ν → ν) (m : Map κ ν) : Map κ ν :=
  ⟨adjustEntries k f m.entries, by
    have distinct : m.entries.keys.Nodup := m.nodupKeys
    show (adjustEntries k f m.entries).keys.Nodup
    rw [keys_adjustEntries]
    exact distinct⟩

theorem dlookup_adjustEntries (k other : κ) (f : ν → ν) (l : List (Sigma fun _ : κ => ν)) :
    (adjustEntries k f l).dlookup other =
      if other = k then (l.dlookup other).map f else l.dlookup other := by
  induction l with
  | nil => simp [adjustEntries]
  | cons e l ih =>
    rcases e with ⟨key, value⟩
    simp only [adjustEntries, List.map_cons] at ih ⊢
    by_cases same : other = key
    · subst same
      by_cases here : other = k
      · subst here
        simp
      · simp [here]
    · rw [List.dlookup_cons_ne l ⟨key, value⟩ same,
        List.dlookup_cons_ne _ _ (by split_ifs <;> exact same), ih]

theorem lookup_adjust (k other : κ) (f : ν → ν) (m : Map κ ν) :
    (adjust k f m).lookup other =
      if other = k then (m.lookup other).map f else m.lookup other :=
  dlookup_adjustEntries k other f m.entries

@[simp] theorem lookup_adjust_self (k : κ) (f : ν → ν) (m : Map κ ν) :
    (adjust k f m).lookup k = (m.lookup k).map f := by
  rw [lookup_adjust, if_pos rfl]

theorem lookup_adjust_ne {k other : κ} (different : other ≠ k) (f : ν → ν) (m : Map κ ν) :
    (adjust k f m).lookup other = m.lookup other := by
  rw [lookup_adjust, if_neg different]

theorem size_adjust (k : κ) (f : ν → ν) (m : Map κ ν) : size (adjust k f m) = size m :=
  List.length_map _

/-- An in-place rewriting that keeps the weight of what it rewrites keeps the sum. -/
theorem total_adjust {weight : ν → Nat} {k : κ} {f : ν → ν} {m : Map κ ν}
    (same : ∀ v, m.lookup k = some v → weight (f v) = weight v) :
    total weight (adjust k f m) = total weight m := by
  rw [total_eq_sum, total_eq_sum]
  simp only [adjust, adjustEntries, List.map_map]
  congr 1
  apply List.map_congr_left
  intro e member
  simp only [Function.comp_apply]
  split_ifs with here
  · exact same e.2 (AList.mem_lookup_iff.mpr (here ▸ member))
  · rfl

/-- Adjusting leaves every entry either untouched or rewritten by `f`. -/
theorem lookup_adjust_some {k other : κ} {f : ν → ν} {m : Map κ ν} {v : ν}
    (found : (adjust k f m).lookup other = some v) :
    ∃ old, m.lookup other = some old ∧ (v = old ∨ other = k ∧ v = f old) := by
  rw [lookup_adjust] at found
  split_ifs at found with same
  · obtain ⟨old, present, rewritten⟩ := Option.map_eq_some_iff.mp found
    exact ⟨old, present, Or.inr ⟨same, rewritten.symm⟩⟩
  · exact ⟨v, found, Or.inl rfl⟩

/-- Rewriting an entry just before it is removed changes nothing. -/
theorem erase_adjust (k : κ) (f : ν → ν) (m : Map κ ν) : (adjust k f m).erase k = m.erase k := by
  apply AList.ext
  show (adjustEntries k f m.entries).kerase k = m.entries.kerase k
  obtain ⟨l, distinct⟩ := m
  simp only
  induction l with
  | nil => rfl
  | cons e l ih =>
    rw [List.nodupKeys_cons] at distinct
    by_cases here : e.1 = k
    · have absent : adjustEntries k f l = l := by
        unfold adjustEntries
        apply (List.map_congr_left _).trans (List.map_id l)
        intro other member
        have different : other.1 ≠ k := by
          intro same
          exact distinct.1 (here.trans same.symm ▸ List.mem_keys_of_mem member)
        simp [different]
      have front : adjustEntries k f (e :: l) = ⟨e.1, f e.2⟩ :: adjustEntries k f l := by
        simp [adjustEntries, here]
      have first : List.kerase k (⟨e.1, f e.2⟩ :: l) = l := List.kerase_cons_eq here.symm
      rw [front, absent, first, List.kerase_cons_eq here.symm]
    · have front : adjustEntries k f (e :: l) = e :: adjustEntries k f l := by simp [adjustEntries, here]
      rw [front, List.kerase_cons_ne (Ne.symm here), List.kerase_cons_ne (Ne.symm here), ih distinct.2]

/-- An adjustment that rewrites nothing. -/
theorem adjust_fixed {k : κ} {m : Map κ ν} {f : ν → ν} (fixed : ∀ v, m.lookup k = some v → f v = v) :
    adjust k f m = m := by
  apply AList.ext
  simp only [adjust, adjustEntries]
  calc
    m.entries.map (fun e => if e.1 = k then ⟨e.1, f e.2⟩ else e) = m.entries.map id := by
      apply List.map_congr_left
      intro e member
      by_cases here : e.1 = k
      · have found : m.lookup k = some e.2 := AList.mem_lookup_iff.mpr (here ▸ member)
        rw [if_pos here, fixed e.2 found]
        rfl
      · exact if_neg here
    _ = m.entries := List.map_id _

theorem adjust_absent {k : κ} {m : Map κ ν} (absent : m.lookup k = none) (f : ν → ν) : adjust k f m = m := by
  apply adjust_fixed
  intro v found
  rw [absent] at found
  cases found

theorem erase_absent {k : κ} {m : Map κ ν} (absent : m.lookup k = none) : m.erase k = m := by
  apply AList.ext
  exact List.kerase_of_notMem_keys (fun member => AList.lookup_eq_none.mp absent member)

theorem mem_vals {m : Map κ ν} {v : ν} : v ∈ vals m ↔ ∃ k, m.lookup k = some v := by
  constructor
  · intro member
    obtain ⟨e, present, same⟩ := List.mem_map.mp member
    exact ⟨e.1, same ▸ AList.mem_lookup_iff.mpr present⟩
  · rintro ⟨k, found⟩
    exact List.mem_map.mpr ⟨⟨k, v⟩, AList.mem_lookup_iff.mp found, rfl⟩

theorem entries_insert_absent {k : κ} {m : Map κ ν} (absent : m.lookup k = none) (v : ν) :
    (m.insert k v).entries = ⟨k, v⟩ :: m.entries :=
  AList.entries_insert_of_notMem (AList.lookup_eq_none.mp absent)

theorem erase_insert_absent {k : κ} {m : Map κ ν} (absent : m.lookup k = none) (v : ν) :
    (m.insert k v).erase k = m := by
  apply AList.ext
  show ((m.insert k v).entries).kerase k = m.entries
  rw [entries_insert_absent absent]
  exact List.kerase_cons_eq rfl

theorem total_insert_absent {k : κ} {m : Map κ ν} (absent : m.lookup k = none) (v : ν)
    (weight : ν → Nat) : total weight (m.insert k v) = weight v + total weight m := by
  rw [total_eq_sum, total_eq_sum, entries_insert_absent absent, List.map_cons, List.sum_cons]

theorem size_insert_absent {k : κ} {m : Map κ ν} (absent : m.lookup k = none) (v : ν) :
    size (m.insert k v) = size m + 1 := by
  rw [size, size, entries_insert_absent absent, List.length_cons]

theorem size_insert_le (k : κ) (v : ν) (m : Map κ ν) : size (m.insert k v) ≤ size m + 1 := by
  rw [size, AList.entries_insert, List.length_cons]
  exact Nat.succ_le_succ List.eraseP_sublist.length_le

theorem total_erase_le (k : κ) (weight : ν → Nat) (m : Map κ ν) :
    total weight (m.erase k) ≤ total weight m :=
  total_le_of_sublist List.eraseP_sublist weight

theorem size_erase_le (k : κ) (m : Map κ ν) : size (m.erase k) ≤ size m :=
  List.eraseP_sublist.length_le

theorem lookup_insert_eq (k other : κ) (v : ν) (m : Map κ ν) :
    (m.insert k v).lookup other = if other = k then some v else m.lookup other := by
  split_ifs with same
  · subst same
    exact AList.lookup_insert m
  · exact AList.lookup_insert_ne same

/-- Inserting one value at every key of a list. -/
theorem lookup_foldl_insert {ι : Type} (key : ι → κ) (v : ν) (items : List ι) (m : Map κ ν) (k : κ) :
    (items.foldl (fun m item => m.insert (key item) v) m).lookup k =
      if k ∈ items.map key then some v else m.lookup k := by
  induction items generalizing m with
  | nil => simp
  | cons item items ih =>
    rw [List.foldl_cons, ih, lookup_insert_eq, List.map_cons]
    by_cases later : k ∈ items.map key
    · rw [if_pos later, if_pos (List.mem_cons_of_mem _ later)]
    · rw [if_neg later]
      by_cases here : k = key item
      · rw [if_pos here, if_pos (here ▸ List.mem_cons_self)]
      · rw [if_neg here, if_neg (fun member => (List.mem_cons.mp member).elim here later)]

theorem lookup_erase_eq (k other : κ) (m : Map κ ν) :
    (m.erase k).lookup other = if other = k then none else m.lookup other := by
  split_ifs with same
  · subst same
    exact AList.lookup_erase other m
  · exact AList.lookup_erase_ne same

theorem lookup_insert_some {k other : κ} {v w : ν} {m : Map κ ν} :
    (m.insert k v).lookup other = some w ↔ other = k ∧ w = v ∨ other ≠ k ∧ m.lookup other = some w := by
  rw [lookup_insert_eq]
  split_ifs with same
  · simp [same, eq_comm]
  · simp [same]

theorem lookup_erase_some {k other : κ} {v : ν} {m : Map κ ν} :
    (m.erase k).lookup other = some v ↔ other ≠ k ∧ m.lookup other = some v := by
  rw [lookup_erase_eq]
  split_ifs with same
  · simp [same]
  · simp [same]

theorem sum_kerase (k : κ) (v : ν) (weight : ν → Nat) (l : List (Sigma fun _ : κ => ν))
    (found : l.dlookup k = some v) :
    (l.map (fun e => weight e.2)).sum = weight v + ((l.kerase k).map (fun e => weight e.2)).sum := by
  induction l with
  | nil => simp at found
  | cons e l ih =>
    rcases e with ⟨key, value⟩
    by_cases same : k = key
    · subst same
      have equal : value = v := by simpa using found
      simp [equal]
    · rw [List.dlookup_cons_ne _ _ same] at found
      have skip : List.kerase k ((⟨key, value⟩ : Sigma fun _ : κ => ν) :: l) =
          ⟨key, value⟩ :: l.kerase k := List.kerase_cons_ne same
      rw [skip]
      simp only [List.map_cons, List.sum_cons]
      rw [ih found]
      omega

theorem filter_kerase {keep : κ → ν → Bool} {k : κ} {v : ν} (dropped : keep k v = false)
    (l : List (Sigma fun _ : κ => ν)) (found : l.dlookup k = some v) :
    (l.kerase k).filter (fun e => keep e.1 e.2) = l.filter (fun e => keep e.1 e.2) := by
  induction l with
  | nil => rfl
  | cons e l ih =>
    rcases e with ⟨key, value⟩
    by_cases same : k = key
    · subst same
      have equal : value = v := by simpa using found
      simp [equal, dropped]
    · rw [List.dlookup_cons_ne _ _ same] at found
      have skip : List.kerase k ((⟨key, value⟩ : Sigma fun _ : κ => ν) :: l) =
          ⟨key, value⟩ :: l.kerase k := List.kerase_cons_ne same
      rw [skip, List.filter_cons, List.filter_cons, ih found]

/-- An entry that the selection drops may be erased before it. -/
theorem retain_erase {keep : κ → ν → Bool} {k : κ} {m : Map κ ν} {v : ν} (found : m.lookup k = some v)
    (dropped : keep k v = false) : retain keep (m.erase k) = retain keep m := by
  apply AList.ext
  exact filter_kerase dropped m.entries found

theorem total_erase_present {k : κ} {m : Map κ ν} {v : ν} (found : m.lookup k = some v)
    (weight : ν → Nat) : total weight m = weight v + total weight (m.erase k) := by
  rw [total_eq_sum, total_eq_sum]
  exact sum_kerase k v weight m.entries found

theorem weight_le_total {k : κ} {m : Map κ ν} {v : ν} (found : m.lookup k = some v) (weight : ν → Nat) :
    weight v ≤ total weight m := by
  rw [total_erase_present found]
  exact Nat.le_add_right _ _

/-- An in-place rewriting changes the sum by what it changes the entry by. -/
theorem total_adjust_present {k : κ} {m : Map κ ν} {v : ν} (found : m.lookup k = some v) (f : ν → ν)
    (weight : ν → Nat) : total weight (adjust k f m) + weight v = weight (f v) + total weight m := by
  have rewritten : (adjust k f m).lookup k = some (f v) := by
    rw [lookup_adjust_self, found]
    rfl
  rw [total_erase_present rewritten, total_erase_present found, erase_adjust]
  omega

theorem total_eq_zero {m : Map κ ν} {weight : ν → Nat} (light : ∀ k v, m.lookup k = some v → weight v = 0) :
    total weight m = 0 := by
  apply List.sum_eq_zero
  intro amount member
  obtain ⟨v, held, rfl⟩ := List.mem_map.mp member
  obtain ⟨k, found⟩ := mem_vals.mp held
  exact light k v found

/-- Items with distinct keys, each held under its key with its weight, weigh no more than the map. -/
theorem sum_le_total {ι : Type} (key : ι → κ) (amount : ι → Nat) (weight : ν → Nat) (items : List ι)
    (m : Map κ ν) (distinct : (items.map key).Nodup)
    (present : ∀ x ∈ items, ∃ v, m.lookup (key x) = some v ∧ weight v = amount x) :
    (items.map amount).sum ≤ total weight m := by
  induction items generalizing m with
  | nil => simp
  | cons x items ih =>
    simp only [List.map_cons, List.nodup_cons] at distinct
    obtain ⟨v, found, same⟩ := present x (List.mem_cons_self ..)
    have rest : (items.map amount).sum ≤ total weight (m.erase (key x)) := by
      apply ih _ distinct.2
      intro y member
      have different : key y ≠ key x := by
        intro equal
        exact distinct.1 (equal ▸ List.mem_map_of_mem member)
      rw [AList.lookup_erase_ne different]
      exact present y (List.mem_cons_of_mem _ member)
    rw [total_erase_present found, List.map_cons, List.sum_cons, same]
    omega

/-- Every entry satisfies `holds`. -/
def Every (holds : κ → ν → Prop) (m : Map κ ν) : Prop := ∀ k v, m.lookup k = some v → holds k v

theorem Every.empty (holds : κ → ν → Prop) : Every holds (∅ : Map κ ν) := by
  intro k v found
  cases found

theorem Every.retain {holds : κ → ν → Prop} {m : Map κ ν} (every : Every holds m) (keep : κ → ν → Bool) :
    Every holds (retain keep m) :=
  fun k v found => every k v (lookup_retain_some.mp found).1

theorem Every.erase {holds : κ → ν → Prop} {m : Map κ ν} (every : Every holds m) (k : κ) :
    Every holds (m.erase k) := by
  intro other v found
  rw [lookup_erase_eq] at found
  split_ifs at found
  exact every other v found

theorem Every.adjust {holds : κ → ν → Prop} {m : Map κ ν} (every : Every holds m) (k : κ) (f : ν → ν)
    (keep : ∀ v, holds k v → holds k (f v)) : Every holds (adjust k f m) := by
  intro other v found
  obtain ⟨old, present, same | ⟨here, rewritten⟩⟩ := lookup_adjust_some found
  · exact same ▸ every other old present
  · subst here rewritten
    exact keep old (every other old present)

theorem Every.insert {holds : κ → ν → Prop} {m : Map κ ν} (every : Every holds m) (k : κ) (v : ν)
    (new : holds k v) : Every holds (m.insert k v) := by
  intro other w found
  rw [lookup_insert_eq] at found
  split_ifs at found with same
  · cases found
    exact same ▸ new
  · exact every other w found

end Lookup

section MapVals

variable {κ ν μ ξ : Type}

/-- Rewrite every value. -/
def mapVals (f : ν → μ) (m : Map κ ν) : Map κ μ :=
  ⟨m.entries.map (fun e => ⟨e.1, f e.2⟩), by
    have distinct : m.entries.keys.Nodup := m.nodupKeys
    show (m.entries.map (fun e => (⟨e.1, f e.2⟩ : Sigma fun _ : κ => μ))).keys.Nodup
    have same : (m.entries.map (fun e => (⟨e.1, f e.2⟩ : Sigma fun _ : κ => μ))).keys = m.entries.keys := by
      simp only [List.keys, List.map_map]
      rfl
    rw [same]
    exact distinct⟩

@[simp] theorem vals_mapVals (f : ν → μ) (m : Map κ ν) : vals (mapVals f m) = (vals m).map f := by
  simp [vals, mapVals, Function.comp_def]

@[simp] theorem size_mapVals (f : ν → μ) (m : Map κ ν) : size (mapVals f m) = size m :=
  List.length_map _

@[simp] theorem mapVals_mapVals (g : μ → ξ) (f : ν → μ) (m : Map κ ν) :
    mapVals g (mapVals f m) = mapVals (fun v => g (f v)) m := by
  apply AList.ext
  simp [mapVals, Function.comp_def]

/-- A selection by a predicate that the rewriting does not change can be made before or after it. -/
theorem mapVals_retain {f : ν → μ} {keep : κ → ν → Bool} {keep' : κ → μ → Bool} {m : Map κ ν}
    (same : ∀ e ∈ m.entries, keep' e.1 (f e.2) = keep e.1 e.2) :
    mapVals f (retain keep m) = retain keep' (mapVals f m) := by
  apply AList.ext
  simp only [mapVals, retain, List.filter_map]
  apply congrArg
  apply List.filter_congr
  intro e member
  exact (same e member).symm

variable [DecidableEq κ]

@[simp] theorem lookup_mapVals (f : ν → μ) (m : Map κ ν) (k : κ) :
    (mapVals f m).lookup k = (m.lookup k).map f := by
  have entries : ∀ l : List (Sigma fun _ : κ => ν),
      (l.map (fun e => (⟨e.1, f e.2⟩ : Sigma fun _ : κ => μ))).dlookup k = (l.dlookup k).map f := by
    intro l
    induction l with
    | nil => rfl
    | cons e l ih =>
      rcases e with ⟨key, value⟩
      by_cases same : k = key
      · subst same
        simp
      · rw [List.map_cons, List.dlookup_cons_ne _ _ same, List.dlookup_cons_ne _ _ same, ih]
  exact entries m.entries

theorem map_kerase (f : ν → μ) (k : κ) (l : List (Sigma fun _ : κ => ν)) :
    (l.kerase k).map (fun e => (⟨e.1, f e.2⟩ : Sigma fun _ : κ => μ)) =
      (l.map (fun e => (⟨e.1, f e.2⟩ : Sigma fun _ : κ => μ))).kerase k := by
  rw [List.kerase, List.kerase, List.eraseP_map]
  rfl

@[simp] theorem mapVals_erase (f : ν → μ) (m : Map κ ν) (k : κ) :
    mapVals f (m.erase k) = (mapVals f m).erase k := by
  apply AList.ext
  exact map_kerase f k m.entries

@[simp] theorem mapVals_insert (f : ν → μ) (m : Map κ ν) (k : κ) (v : ν) :
    mapVals f (m.insert k v) = (mapVals f m).insert k (f v) := by
  apply AList.ext
  simp only [mapVals, AList.insert, List.kinsert, List.map_cons, map_kerase]

/-- Rewriting one value in place commutes with a rewriting of all that it respects. -/
theorem mapVals_adjust {f : ν → μ} {g : ν → ν} {g' : μ → μ} (same : ∀ v, f (g v) = g' (f v)) (k : κ)
    (m : Map κ ν) : mapVals f (adjust k g m) = adjust k g' (mapVals f m) := by
  apply AList.ext
  simp only [mapVals, adjust, adjustEntries, List.map_map]
  apply List.map_congr_left
  intro e _
  simp only [Function.comp_apply]
  split_ifs
  · rw [same]
  · rfl

/-- An in-place rewriting that the rewriting of all forgets. -/
theorem mapVals_adjust_forget {f : ν → μ} {g : ν → ν} (same : ∀ v, f (g v) = f v) (k : κ)
    (m : Map κ ν) : mapVals f (adjust k g m) = mapVals f m := by
  apply AList.ext
  simp only [mapVals, adjust, adjustEntries, List.map_map]
  apply List.map_congr_left
  intro e _
  simp only [Function.comp_apply]
  split_ifs
  · rw [same]
  · rfl

/-- Two maps with one image hold values of one image under every key. -/
theorem lookup_of_mapVals_eq {f : ν → μ} {m n : Map κ ν} (same : mapVals f m = mapVals f n) {k : κ} {v : ν}
    (found : m.lookup k = some v) : ∃ w, n.lookup k = some w ∧ f w = f v := by
  have image := congrArg (AList.lookup k) same
  rw [lookup_mapVals, lookup_mapVals, found] at image
  obtain ⟨w, present, equal⟩ := Option.map_eq_some_iff.mp image.symm
  exact ⟨w, present, equal⟩

end MapVals

end BtcPolicy.FiniteMap
