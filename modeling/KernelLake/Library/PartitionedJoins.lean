import KernelLake.Library.Relations

/-!
Joins in parts.

A join is fixed by which pairs of rows match and by what a left row makes of its matches; the inner,
outer, semi and anti joins differ in the second only. When rows that match always fall into one
bucket, the join may be taken bucket by bucket.
-/

namespace KernelLake.Library.PartitionedJoins

open KernelLake.Library.Relations

variable {α β γ : Type} (on : α → β → Bool) (finish : α → List β → List γ)

/-- The rows each left row makes of its matches. -/
def joinRows (left : List α) (right : List β) : List γ :=
  left.flatMap (fun row => finish row (matching on right row))

variable {on finish}

theorem joinRows_append (first second : List α) (right : List β) :
    joinRows on finish (first ++ second) right =
      joinRows on finish first right ++ joinRows on finish second right :=
  List.flatMap_append

variable (orderless : ∀ row {first second : List β}, first.Perm second →
  (finish row first).Perm (finish row second))

include orderless in
theorem joinRows_perm {left left' : List α} {right right' : List β} (sameLeft : left.Perm left')
    (sameRight : right.Perm right') :
    (joinRows on finish left right).Perm (joinRows on finish left' right') := by
  refine (sameLeft.flatMap_right _).trans (List.Perm.flatMap_left _ (fun row _ => ?_))
  exact orderless row (sameRight.filter _)

/-- A left row finds its matches in its own bucket. -/
theorem matching_bucket {leftBucket : α → Nat} {rightBucket : β → Nat}
    (together : ∀ row other, on row other = true → leftBucket row = rightBucket other)
    (right : List β) (row : α) :
    matching on (right.filter (fun other => rightBucket other = leftBucket row)) row =
      matching on right row := by
  rw [matching, matching, List.filter_filter]
  refine List.filter_congr (fun other _ => ?_)
  cases found : on row other with
  | false => rfl
  | true => simp [together row other found]

theorem flatMap_range_single (row : α) (chosen count : Nat) :
    (List.range count).flatMap (fun index => if chosen = index then [row] else []) =
      if chosen < count then [row] else [] := by
  induction count with
  | zero => rfl
  | succ count hypothesis =>
    rw [List.range_succ, List.flatMap_append, hypothesis]
    rcases Nat.lt_trichotomy chosen count with below | same | above
    · simp [below, Nat.ne_of_lt below, Nat.lt_succ_of_lt below]
    · simp [same]
    · have notSame : chosen ≠ count := (Nat.ne_of_lt above).symm
      have notBelow : ¬ chosen < count := Nat.not_lt_of_gt above
      have notNext : ¬ chosen < count + 1 := by omega
      simp [notSame, notBelow, notNext]

/-- The rows of a list are those of its buckets together. -/
theorem flatMap_buckets_perm (bucket : α → Nat) (count : Nat) (rows : List α)
    (inside : ∀ row ∈ rows, bucket row < count) :
    rows.Perm ((List.range count).flatMap (fun index => rows.filter (fun row => bucket row = index))) := by
  induction rows with
  | nil => simp
  | cons row rows hypothesis =>
    have rest := hypothesis (fun other member => inside other (List.mem_cons_of_mem _ member))
    have here := inside row (List.mem_cons_self ..)
    have split (index : Nat) : (row :: rows).filter (fun other => bucket other = index) =
        (if bucket row = index then [row] else []) ++ rows.filter (fun other => bucket other = index) := by
      rw [List.filter_cons]
      by_cases same : bucket row = index <;> simp [same]
    simp only [split]
    refine List.Perm.trans ?_ (List.flatMap_append_perm _ _ _)
    rw [flatMap_range_single, if_pos here]
    exact rest.cons row

include orderless in
/-- When matching rows share a bucket, joining bucket by bucket is joining. -/
theorem joinRows_buckets {leftBucket : α → Nat} {rightBucket : β → Nat}
    (together : ∀ row other, on row other = true → leftBucket row = rightBucket other)
    {count : Nat} {left : List α} {right : List β} (inside : ∀ row ∈ left, leftBucket row < count) :
    (joinRows on finish left right).Perm ((List.range count).flatMap (fun index =>
      joinRows on finish (left.filter (fun row => leftBucket row = index))
        (right.filter (fun other => rightBucket other = index)))) := by
  refine (joinRows_perm orderless (flatMap_buckets_perm leftBucket count left inside) (.refl _)).trans ?_
  rw [joinRows, List.flatMap_assoc]
  refine List.Perm.of_eq (List.flatMap_congr fun index _ => List.flatMap_congr fun row member => ?_)
  have same : leftBucket row = index := by simpa using List.of_mem_filter member
  rw [← same, matching_bucket together]

end KernelLake.Library.PartitionedJoins
