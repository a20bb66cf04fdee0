import Mathlib.Data.List.AList
import Mathlib.Algebra.Order.BigOperators.Group.List
import Mathlib.Algebra.Order.Group.Nat
import Mathlib.Algebra.Order.Ring.Int

/-!
Totals over finite maps: the sum of a weight over all entries, and how it changes as entries come and
go.
-/

namespace KernelLake.Library.Registries

variable {κ β : Type}

/-- A finite map. -/
abbrev Registry (κ β : Type) := AList (fun _ : κ => β)

/-- The sum of a weight over the entries of a map. -/
def total (weight : κ → β → Nat) (map : Registry κ β) : Nat :=
  (map.entries.map fun entry => weight entry.1 entry.2).sum

theorem total_le_total {weight weight' : κ → β → Nat} {map : Registry κ β}
    (below : ∀ key value, weight key value ≤ weight' key value) : total weight map ≤ total weight' map := by
  unfold total
  exact List.sum_le_sum (fun entry _ => below entry.1 entry.2)

variable [DecidableEq κ]

theorem total_insert (weight : κ → β → Nat) (key : κ) (value : β) (map : Registry κ β) :
    total weight (map.insert key value) = weight key value + total weight (map.erase key) := by
  rw [total, AList.entries_insert, List.map_cons, List.sum_cons]
  rfl

theorem total_erase {weight : κ → β → Nat} {key : κ} {value : β} {map : Registry κ β}
    (found : map.lookup key = some value) :
    total weight map = weight key value + total weight (map.erase key) := by
  have member : ⟨key, value⟩ ∈ map.entries := AList.mem_lookup_iff.mp found
  obtain ⟨value', before, after, _, split, erased⟩ := List.exists_of_kerase (List.mem_keys_of_mem member)
  have same : value' = value := by
    have found' : map.lookup key = some value' := AList.mem_lookup_iff.mpr (by rw [split]; simp)
    exact Option.some.inj (found'.symm.trans found)
  have erasedEntries : (map.erase key).entries = before ++ after := erased
  rw [total, total, erasedEntries, split, same]
  simp only [List.map_append, List.map_cons, List.sum_append, List.sum_cons]
  omega

/-- A new entry adds its weight. -/
theorem total_insert_absent {weight : κ → β → Nat} {key : κ} {value : β} {map : Registry κ β}
    (absent : map.lookup key = none) :
    total weight (map.insert key value) = weight key value + total weight map := by
  have notMember : key ∉ map := AList.lookup_eq_none.mp absent
  rw [total, AList.entries_insert_of_notMem notMember]
  rfl

theorem total_congr {weight weight' : κ → β → Nat} {map : Registry κ β}
    (same : ∀ key value, map.lookup key = some value → weight key value = weight' key value) :
    total weight map = total weight' map := by
  unfold total
  congr 1
  exact List.map_congr_left (fun entry member => same _ _ (AList.mem_lookup_iff.mpr member))

theorem total_erase_le (weight : κ → β → Nat) (key : κ) (map : Registry κ β) :
    total weight (map.erase key) ≤ total weight map := by
  cases found : map.lookup key with
  | some value =>
    rw [total_erase found]
    exact Nat.le_add_left _ _
  | none =>
    have absent : key ∉ map.entries.keys := AList.lookup_eq_none.mp found
    have same : (map.erase key).entries = map.entries := List.kerase_of_notMem_keys absent
    rw [total, same]
    exact Nat.le_refl _

theorem weight_le_total {weight : κ → β → Nat} {key : κ} {value : β} {map : Registry κ β}
    (found : map.lookup key = some value) : weight key value ≤ total weight map := by
  rw [total_erase found]
  exact Nat.le_add_right _ _

/-- A new entry, unless the key has one. -/
def emplace (key : κ) (value : β) (map : Registry κ β) : Registry κ β :=
  if key ∈ map then map else map.insert key value

theorem lookup_emplace_absent {key : κ} {map : Registry κ β} (absent : map.lookup key = none) (value : β) :
    (emplace key value map).lookup key = some value := by
  rw [emplace, if_neg (AList.lookup_eq_none.mp absent), AList.lookup_insert]

theorem lookup_emplace_ne {key other : κ} (isOther : other ≠ key) (value : β) (map : Registry κ β) :
    (emplace key value map).lookup other = map.lookup other := by
  unfold emplace
  split
  · rfl
  · exact AList.lookup_insert_ne isOther

/-- What is found after an emplace is new, or was there before. -/
theorem lookup_emplace {key other : κ} {value found : β} {map : Registry κ β}
    (isFound : (emplace key value map).lookup other = some found) :
    other = key ∧ found = value ∨ map.lookup other = some found := by
  unfold emplace at isFound
  split at isFound
  · exact .inr isFound
  · by_cases same : other = key
    · rw [same, AList.lookup_insert] at isFound
      exact .inl ⟨same, (Option.some.inj isFound).symm⟩
    · rw [AList.lookup_insert_ne same] at isFound
      exact .inr isFound

theorem lookup_erase_some {key other : κ} {found : β} {map : Registry κ β}
    (isFound : (map.erase key).lookup other = some found) : other ≠ key ∧ map.lookup other = some found := by
  by_cases same : other = key
  · rw [same, AList.lookup_erase] at isFound
    cases isFound
  · exact ⟨same, (AList.lookup_erase_ne same).symm.trans isFound⟩

theorem length_emplace_le (key : κ) (value : β) (map : Registry κ β) :
    (emplace key value map).entries.length ≤ map.entries.length + 1 := by
  unfold emplace
  split
  · exact Nat.le_succ _
  · rename_i absent
    rw [AList.entries_insert_of_notMem absent]
    exact Nat.le_refl _

theorem length_erase_le (key : κ) (map : Registry κ β) :
    (map.erase key).entries.length ≤ map.entries.length :=
  (List.kerase_sublist key map.entries).length_le

end KernelLake.Library.Registries
