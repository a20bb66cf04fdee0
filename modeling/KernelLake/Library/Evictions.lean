import Mathlib.Algebra.Order.Ring.Int
import Mathlib.Data.List.Infix

/-!
Making room: weighted items are given up in order, some of them spared, until what is left fits a budget.
-/

namespace KernelLake.Library.Evictions

variable {α : Type}

/-- The items that are given up, where `total` is the weight of everything there is. -/
def evict (weight : α → Nat) (spared : α → Bool) (budget : Nat) : List α → Nat → List α
  | [], _ => []
  | item :: rest, total =>
    if total ≤ budget then []
    else if spared item then evict weight spared budget rest total
    else item :: evict weight spared budget rest (total - weight item)

section Evict

variable {weight : α → Nat} {spared : α → Bool} {budget : Nat}

theorem evict_within {items : List α} {total : Nat} (within : total ≤ budget) :
    evict weight spared budget items total = [] := by
  cases items with
  | nil => rfl
  | cons item rest => exact if_pos within

/-- Items are given up in order, and only spared ones are passed over. -/
theorem evict_prefix (items : List α) (total : Nat) :
    evict weight spared budget items total <+: items.filter (fun item => !spared item) := by
  induction items generalizing total with
  | nil => exact List.nil_prefix
  | cons item rest hypothesis =>
    unfold evict
    split
    · exact List.nil_prefix
    · split
      · rename_i isSpared
        rw [List.filter_cons_of_neg (by simpa using isSpared)]
        exact hypothesis total
      · rename_i notSpared
        rw [List.filter_cons_of_pos (by simpa using notSpared)]
        exact List.prefix_cons_inj item |>.mpr (hypothesis _)

/-- Before an item is given up there is more than the budget. -/
theorem evict_needed {items before after : List α} {item : α} {total : Nat}
    (parts : evict weight spared budget items total = before ++ item :: after) :
    budget < total - (before.map weight).sum := by
  induction items generalizing total before with
  | nil => simp [evict] at parts
  | cons first rest hypothesis =>
    unfold evict at parts
    split at parts
    · simp at parts
    · rename_i exceeded
      split at parts
      · exact hypothesis parts
      · cases before with
        | nil => simpa using exceeded
        | cons other before =>
          obtain ⟨rfl, restParts⟩ := List.cons.inj parts
          have needed := hypothesis restParts
          rw [List.map_cons, List.sum_cons]
          omega

/-- What is left fits the budget unless only spared items are left. -/
theorem evict_enough (items : List α) (total : Nat) :
    total - ((evict weight spared budget items total).map weight).sum ≤ budget ∨
      evict weight spared budget items total = items.filter (fun item => !spared item) := by
  induction items generalizing total with
  | nil => exact .inr rfl
  | cons item rest hypothesis =>
    unfold evict
    split
    · rename_i within
      exact .inl (by simpa using within)
    · split
      · rename_i isSpared
        rw [List.filter_cons_of_neg (by simpa using isSpared)]
        exact hypothesis total
      · rename_i notSpared
        rw [List.filter_cons_of_pos (by simpa using notSpared), List.map_cons, List.sum_cons]
        rcases hypothesis (total - weight item) with enough | all
        · exact .inl (by omega)
        · exact .inr (congrArg (item :: ·) all)

end Evict

end KernelLake.Library.Evictions
