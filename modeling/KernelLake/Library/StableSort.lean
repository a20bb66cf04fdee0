import Mathlib.Data.List.Sort

/-!
Stable sorting.

Insertion sort is stable, so the selected elements of a sorted list are the sorted selected elements,
for any total and transitive relation. The positions in which a stable sort reads its elements are determined.
-/

namespace KernelLake.Library.StableSort

variable {α : Type} (r : α → α → Prop) [DecidableRel r]

theorem orderedInsert_of_forall {element : α} {rows : List α} (least : ∀ row ∈ rows, r element row) :
    rows.orderedInsert r element = element :: rows := by
  cases rows with
  | nil => rfl
  | cons first rest => exact List.orderedInsert_cons_of_le r rest (least first (List.mem_cons_self ..))

theorem filter_orderedInsert_of_pos [IsTrans α r] {keep : α → Bool} {element : α}
    (kept : keep element = true) {rows : List α} (sorted : rows.Pairwise r) :
    (rows.orderedInsert r element).filter keep = (rows.filter keep).orderedInsert r element := by
  induction rows with
  | nil => simp [kept]
  | cons first rest hypothesis =>
    obtain ⟨firstLeast, restSorted⟩ := List.pairwise_cons.mp sorted
    by_cases before : r element first
    · have least : ∀ row ∈ (first :: rest).filter keep, r element row := by
        intro row member
        rcases List.mem_cons.mp (List.mem_of_mem_filter member) with rfl | later
        · exact before
        · exact IsTrans.trans _ _ _ before (firstLeast row later)
      rw [List.orderedInsert_cons_of_le r rest before, orderedInsert_of_forall r least,
        List.filter_cons_of_pos kept]
    · rw [List.orderedInsert_of_not_le r rest before]
      by_cases firstKept : keep first = true
      · rw [List.filter_cons_of_pos firstKept, List.filter_cons_of_pos firstKept,
          List.orderedInsert_of_not_le r _ before, hypothesis restSorted]
      · rw [List.filter_cons_of_neg firstKept, List.filter_cons_of_neg firstKept,
          hypothesis restSorted]

theorem filter_orderedInsert_of_neg {keep : α → Bool} {element : α} (dropped : ¬ keep element = true)
    (rows : List α) : (rows.orderedInsert r element).filter keep = rows.filter keep := by
  induction rows with
  | nil => simp [dropped]
  | cons first rest hypothesis =>
    by_cases before : r element first
    · rw [List.orderedInsert_cons_of_le r rest before, List.filter_cons_of_neg dropped]
    · rw [List.orderedInsert_of_not_le r rest before, List.filter_cons, List.filter_cons, hypothesis]

/-- A selection of a sorted list is the sorted selection. -/
theorem filter_insertionSort [Std.Total r] [IsTrans α r] (keep : α → Bool) (rows : List α) :
    (rows.insertionSort r).filter keep = (rows.filter keep).insertionSort r := by
  induction rows with
  | nil => rfl
  | cons first rest hypothesis =>
    have sorted := List.pairwise_insertionSort r rest
    by_cases kept : keep first = true
    · rw [List.insertionSort_cons, filter_orderedInsert_of_pos r kept sorted, hypothesis,
        List.filter_cons_of_pos kept, List.insertionSort_cons]
    · rw [List.insertionSort_cons, filter_orderedInsert_of_neg r kept, hypothesis,
        List.filter_cons_of_neg kept]

/-! ## Positions -/

/-- The positions below a count in order of their elements, those of equivalent elements as they come. -/
structure StableOrder (r : α → α → Prop) (element : Nat → α) (count : Nat) (positions : List Nat) : Prop where
  all : positions.Perm (List.range count)
  sorted : positions.Pairwise fun first second =>
    r (element first) (element second) ∧ (r (element second) (element first) → first < second)

/-- There is one stable order. -/
theorem StableOrder.unique {r : α → α → Prop} {element : Nat → α} {count : Nat}
    {positions positions' : List Nat} (stable : StableOrder r element count positions)
    (stable' : StableOrder r element count positions') :
    positions = positions' := by
  refine List.Perm.eq_of_pairwise (fun first second _ _ before after => ?_) stable.sorted stable'.sorted
    (stable.all.trans stable'.all.symm)
  have ascending := before.2 after.1
  have descending := after.2 before.1
  omega

/-- Inserting a position below all others keeps an order stable. -/
theorem stable_orderedInsert [Std.Total r] [IsTrans α r] (element : Nat → α) {position : Nat}
    {positions : List Nat} (below : ∀ other ∈ positions, position < other)
    (stable : positions.Pairwise fun first second =>
      r (element first) (element second) ∧ (r (element second) (element first) → first < second)) :
    (positions.orderedInsert (fun first second => r (element first) (element second)) position).Pairwise
      fun first second =>
        r (element first) (element second) ∧ (r (element second) (element first) → first < second) := by
  induction positions with
  | nil => exact List.pairwise_singleton _ _
  | cons first rest hypothesis =>
    obtain ⟨firstBefore, restStable⟩ := List.pairwise_cons.mp stable
    by_cases before : r (element position) (element first)
    · rw [List.orderedInsert_cons_of_le _ rest before]
      refine List.pairwise_cons.mpr ⟨fun other member => ⟨?_, fun _ => below other member⟩, stable⟩
      rcases List.mem_cons.mp member with rfl | inRest
      · exact before
      · exact IsTrans.trans _ _ _ before (firstBefore other inRest).1
    · rw [List.orderedInsert_of_not_le _ rest before]
      have below' := fun other member => below other (List.mem_cons_of_mem first member)
      refine List.pairwise_cons.mpr ⟨fun other member => ?_, hypothesis below' restStable⟩
      rcases List.mem_cons.mp ((List.perm_orderedInsert _ position rest).mem_iff.mp member) with rfl | inRest
      · have other := (Std.Total.total (element first) (element other)).resolve_right before
        exact ⟨other, fun after => absurd after before⟩
      · exact firstBefore other inRest

/-- Insertion sort finds the stable order. -/
theorem stableOrder_insertionSort [Std.Total r] [IsTrans α r] (element : Nat → α) (count : Nat) :
    StableOrder r element count
      ((List.range count).insertionSort (fun first second => r (element first) (element second))) := by
  refine ⟨List.perm_insertionSort _ _, ?_⟩
  have ascending := List.pairwise_lt_range (n := count)
  generalize List.range count = positions at ascending
  induction positions with
  | nil => exact List.Pairwise.nil
  | cons position positions hypothesis =>
    obtain ⟨below, rest⟩ := List.pairwise_cons.mp ascending
    rw [List.insertionSort_cons]
    refine stable_orderedInsert r element (fun other member => ?_) (hypothesis rest)
    exact below other ((List.perm_insertionSort _ positions).mem_iff.mp member)

end KernelLake.Library.StableSort
