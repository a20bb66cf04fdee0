import Mathlib.Data.List.Basic
import Mathlib.Data.List.Perm.Basic

/-!
Joins and grouping of lists.

The joins are the nested-loop ones: left rows in order, and for each the matching right rows in
order. Grouping keeps the order in which keys first appear. The lemmas say how a selection passes
through each operation.
-/

namespace KernelLake.Library.Relations

variable {α β κ : Type}

/-! ## Selections -/

section Selections

/-- A list from which some of the rows that fail are left out. -/
inductive Thinned (fails : α → Prop) : List α → List α → Prop
  | done : Thinned fails [] []
  | keep (row : α) {rows rest : List α} (thinned : Thinned fails rows rest) :
      Thinned fails (row :: rows) (row :: rest)
  | drop {row : α} {rows rest : List α} (failed : fails row) (thinned : Thinned fails rows rest) :
      Thinned fails (row :: rows) rest

theorem thinned_refl (fails : α → Prop) (rows : List α) : Thinned fails rows rows := by
  induction rows with
  | nil => exact .done
  | cons row rows hypothesis => exact .keep row hypothesis

theorem thinned_nil {fails : α → Prop} {rows : List α} (all : ∀ row ∈ rows, fails row) :
    Thinned fails rows [] := by
  induction rows with
  | nil => exact .done
  | cons row rows hypothesis =>
    exact .drop (all row (List.mem_cons_self ..)) (hypothesis (fun other member =>
      all other (List.mem_cons_of_mem _ member)))

theorem thinned_append {fails : α → Prop} {first second firstRest secondRest : List α}
    (firstThinned : Thinned fails first firstRest) (secondThinned : Thinned fails second secondRest) :
    Thinned fails (first ++ second) (firstRest ++ secondRest) := by
  induction firstThinned with
  | done => exact secondThinned
  | keep row _ hypothesis => exact .keep row hypothesis
  | drop failed _ hypothesis => exact .drop failed hypothesis

theorem flatMap_filter (keep : α → Bool) (whole : α → List β) (parts : List α) :
    (parts.filter keep).flatMap whole = parts.flatMap (fun part => if keep part then whole part else []) := by
  induction parts with
  | nil => rfl
  | cons part parts hypothesis =>
    rw [List.filter_cons, List.flatMap_cons, ← hypothesis]
    split
    · exact List.flatMap_cons
    · rfl

theorem flatMap_filterMap (keep : α → Option β) (whole : β → List κ) (parts : List α) :
    (parts.filterMap keep).flatMap whole = parts.flatMap (fun part => (keep part).elim [] whole) := by
  induction parts with
  | nil => rfl
  | cons part parts hypothesis =>
    rw [List.flatMap_cons, ← hypothesis]
    cases kept : keep part with
    | none => rw [List.filterMap_cons_none kept]; rfl
    | some image => rw [List.filterMap_cons_some kept]; rfl

/-- Thinning a list part by part. -/
theorem thinned_flatMap {fails : α → Prop} {parts : List β} {whole rest : β → List α}
    (each : ∀ part ∈ parts, Thinned fails (whole part) (rest part)) :
    Thinned fails (parts.flatMap whole) (parts.flatMap rest) := by
  induction parts with
  | nil => exact .done
  | cons part parts hypothesis =>
    exact thinned_append (each part (List.mem_cons_self ..)) (hypothesis (fun other member =>
      each other (List.mem_cons_of_mem _ member)))

/-- A selection that keeps no failing row does not see the thinning. -/
theorem filter_thinned {fails : α → Prop} {keep : α → Bool} {rows rest : List α}
    (thinned : Thinned fails rows rest) (safe : ∀ row ∈ rows, keep row = true → ¬ fails row) :
    rest.filter keep = rows.filter keep := by
  induction thinned with
  | done => rfl
  | keep row thinned hypothesis =>
    rw [List.filter_cons, List.filter_cons,
      hypothesis (fun other member => safe other (List.mem_cons_of_mem _ member))]
  | drop failed thinned hypothesis =>
    have dropped : ¬ keep _ = true := fun kept => safe _ (List.mem_cons_self ..) kept failed
    rw [List.filter_cons_of_neg dropped]
    exact hypothesis (fun other member => safe other (List.mem_cons_of_mem _ member))

theorem filter_filter_of_implies {weak strong : α → Bool} {rows : List α}
    (implies : ∀ row ∈ rows, strong row = true → weak row = true) :
    (rows.filter weak).filter strong = rows.filter strong := by
  rw [List.filter_filter]
  refine List.filter_congr (fun row member => ?_)
  cases kept : strong row with
  | false => rfl
  | true => simp [implies row member kept]

/-- Lists that agree under a selection agree under every stronger one. -/
theorem filter_eq_of_implies {weak strong : α → Bool} {first second : List α}
    (firstImplies : ∀ row ∈ first, strong row = true → weak row = true)
    (secondImplies : ∀ row ∈ second, strong row = true → weak row = true)
    (same : first.filter weak = second.filter weak) : first.filter strong = second.filter strong := by
  rw [← filter_filter_of_implies firstImplies, ← filter_filter_of_implies secondImplies, same]

/-- The selections of a list in some order are the selected rows in some order. -/
theorem exists_perm_filter {keep : α → Bool} {rows result : List α} :
    (∃ input : List α, input.Perm rows ∧ result = input.filter keep) ↔ result.Perm (rows.filter keep) := by
  constructor
  · rintro ⟨input, ordered, rfl⟩
    exact ordered.filter keep
  · intro ordered
    refine ⟨result ++ rows.filter (fun row => !keep row), ?_, ?_⟩
    · exact (ordered.append_right _).trans (List.filter_append_perm keep rows)
    · have kept : result.filter keep = result :=
        List.filter_eq_self.mpr (fun row member => List.of_mem_filter (ordered.mem_iff.mp member))
      have dropped : (rows.filter (fun row => !keep row)).filter keep = [] :=
        List.filter_eq_nil_iff.mpr (fun row member => by simpa using List.of_mem_filter member)
      rw [List.filter_append, kept, dropped, List.append_nil]

end Selections

/-! ## Joins -/

section Joins

variable (on : α → β → Bool)

/-- The right rows that match one left row. -/
def matching (right : List β) (row : α) : List β :=
  right.filter (on row)

def innerJoin (left : List α) (right : List β) : List (α × β) :=
  left.flatMap (fun row => (matching on right row).map (Prod.mk row))

/-- The outer join pairs an unmatched left row with nothing. -/
def outerMatches (right : List β) (row : α) : List (α × Option β) :=
  if (matching on right row).isEmpty then [(row, none)]
  else (matching on right row).map (fun other => (row, some other))

def outerJoin (left : List α) (right : List β) : List (α × Option β) :=
  left.flatMap (outerMatches on right)

def semiJoin (left : List α) (right : List β) : List α :=
  left.filter (fun row => right.any (on row))

def antiJoin (left : List α) (right : List β) : List α :=
  left.filter (fun row => !right.any (on row))

variable {on}

theorem filter_flatMap_of_fixed {γ : Type} (select : γ → Bool) (keep : α → Bool)
    (expand : α → List γ) (fixed : ∀ row, ∀ output ∈ expand row, select output = keep row)
    (rows : List α) :
    (rows.flatMap expand).filter select = (rows.filter keep).flatMap expand := by
  induction rows with
  | nil => rfl
  | cons row rest hypothesis =>
    simp only [List.flatMap_cons, List.filter_append, hypothesis, List.filter_cons]
    by_cases kept : keep row = true
    · have all : (expand row).filter select = expand row :=
        List.filter_eq_self.mpr (fun output member => by rw [fixed row output member, kept])
      simp [kept, all]
    · have none_kept : (expand row).filter select = [] :=
        List.filter_eq_nil_iff.mpr (fun output member => by rw [fixed row output member]; exact kept)
      simp [kept, none_kept]

/-- A selection of joined rows is part of the join condition. -/
theorem filter_innerJoin (keep : α × β → Bool) (left : List α) (right : List β) :
    (innerJoin on left right).filter keep =
      innerJoin (fun row other => on row other && keep (row, other)) left right := by
  induction left with
  | nil => rfl
  | cons row rest hypothesis =>
    simp only [innerJoin, List.flatMap_cons, List.filter_append] at hypothesis ⊢
    rw [hypothesis]
    congr 1
    simp only [matching, List.filter_map, List.filter_filter]
    congr 1
    exact List.filter_congr (fun other _ => Bool.and_comm _ _)

/-- A selection on the left columns of an inner join is a selection of its left input. -/
theorem filter_innerJoin_left (keep : α → Bool) (left : List α) (right : List β) :
    (innerJoin on left right).filter (fun pair => keep pair.1) =
      innerJoin on (left.filter keep) right := by
  apply filter_flatMap_of_fixed
  intro row pair member
  obtain ⟨other, _, rfl⟩ := List.mem_map.mp member
  rfl

/-- A selection on the right columns of an inner join is a selection of its right input. -/
theorem filter_innerJoin_right (keep : β → Bool) (left : List α) (right : List β) :
    (innerJoin on left right).filter (fun pair => keep pair.2) =
      innerJoin on left (right.filter keep) := by
  induction left with
  | nil => rfl
  | cons row rest hypothesis =>
    simp only [innerJoin, List.flatMap_cons, List.filter_append] at hypothesis ⊢
    rw [hypothesis]
    congr 1
    simp only [matching, List.filter_map, List.filter_filter]
    congr 1
    exact List.filter_congr (fun other _ => Bool.and_comm _ _)

/-- A selection on the left columns of an outer join is a selection of its left input. -/
theorem filter_outerJoin_left (keep : α → Bool) (left : List α) (right : List β) :
    (outerJoin on left right).filter (fun pair => keep pair.1) =
      outerJoin on (left.filter keep) right := by
  apply filter_flatMap_of_fixed
  intro row pair member
  unfold outerMatches at member
  split at member
  · simp only [List.mem_singleton] at member
    rw [member]
  · obtain ⟨other, _, rfl⟩ := List.mem_map.mp member
    rfl

theorem filter_semiJoin (keep : α → Bool) (left : List α) (right : List β) :
    (semiJoin on left right).filter keep = semiJoin on (left.filter keep) right := by
  simp only [semiJoin, List.filter_filter]
  exact List.filter_congr (fun row _ => Bool.and_comm _ _)

theorem filter_antiJoin (keep : α → Bool) (left : List α) (right : List β) :
    (antiJoin on left right).filter keep = antiJoin on (left.filter keep) right := by
  simp only [antiJoin, List.filter_filter]
  exact List.filter_congr (fun row _ => Bool.and_comm _ _)

theorem flatMap_matching (first : α) (right : List β) :
    right.flatMap (fun other => if on first other then [(other, first)] else []) =
      ((matching on right first).map (Prod.mk first)).map Prod.swap := by
  induction right with
  | nil => rfl
  | cons other others hypothesis =>
    simp only [matching, List.flatMap_cons, List.filter_cons] at hypothesis ⊢
    rw [hypothesis]
    cases on first other <;> rfl

/-- The inner join with its inputs exchanged. -/
theorem innerJoin_swap (left : List α) (right : List β) :
    (innerJoin (fun row other => on other row) right left).Perm
      ((innerJoin on left right).map Prod.swap) := by
  induction left with
  | nil => simp [innerJoin, matching]
  | cons first rest hypothesis =>
    have expand (other : β) : (matching (fun row other => on other row) (first :: rest) other).map
        (Prod.mk other) = (if on first other then [(other, first)] else []) ++
          (matching (fun row other => on other row) rest other).map (Prod.mk other) := by
      simp only [matching, List.filter_cons]
      split <;> rfl
    simp only [innerJoin, List.flatMap_cons, List.map_append, expand] at hypothesis ⊢
    rw [← flatMap_matching]
    exact (List.flatMap_append_perm right _ _).symm.trans (hypothesis.append_left _)

/-- An inner join in which no row has two partners keeps the left rows of the semi join. -/
theorem innerJoin_left {left : List α} {right : List β}
    (single : ∀ row ∈ left, right.Pairwise (fun first second => ¬ (on row first = true ∧ on row second = true))) :
    (innerJoin on left right).map Prod.fst = semiJoin on left right := by
  induction left with
  | nil => rfl
  | cons row rest hypothesis =>
    obtain ⟨rowSingle, restSingle⟩ := List.forall_mem_cons.mp single
    have others := hypothesis restSingle
    simp only [innerJoin, semiJoin, List.flatMap_cons, List.map_append, List.map_map] at others ⊢
    rw [others, List.filter_cons]
    cases partners : matching on right row with
    | nil =>
      have unmatched : right.any (on row) = false :=
        List.any_eq_false.mpr (List.filter_eq_nil_iff.mp partners)
      simp [unmatched]
    | cons partner more =>
      have inRight (other : β) (member : other ∈ partner :: more) : other ∈ right ∧ on row other = true := by
        rw [← partners] at member
        exact List.mem_filter.mp member
      have matched : right.any (on row) = true :=
        List.any_eq_true.mpr ⟨partner, inRight partner (List.mem_cons_self ..)⟩
      have alone : more = [] := by
        apply List.eq_nil_iff_forall_not_mem.mpr
        intro other member
        have apart := List.Pairwise.filter (on row) rowSingle
        change (matching on right row).Pairwise _ at apart
        rw [partners] at apart
        exact List.rel_of_pairwise_cons apart member
          ⟨(inRight partner (List.mem_cons_self ..)).2, (inRight other (List.mem_cons_of_mem _ member)).2⟩
      simp [matched, alone]

section Orders

variable {left left' : List α} {right right' : List β}

/-- A join of inputs in other orders has the same rows. -/
theorem innerJoin_perm (leftSame : left.Perm left') (rightSame : right.Perm right') :
    (innerJoin on left right).Perm (innerJoin on left' right') := by
  refine (leftSame.flatMap_right _).trans (List.Perm.flatMap_left _ (fun row _ => ?_))
  exact (rightSame.filter (on row)).map (Prod.mk row)

theorem outerJoin_perm (leftSame : left.Perm left') (rightSame : right.Perm right') :
    (outerJoin on left right).Perm (outerJoin on left' right') := by
  refine (leftSame.flatMap_right _).trans (List.Perm.flatMap_left _ (fun row _ => ?_))
  have matched : (matching on right row).Perm (matching on right' row) := rightSame.filter (on row)
  unfold outerMatches
  rw [matched.isEmpty_eq]
  split
  · exact List.Perm.refl _
  · exact matched.map _

theorem any_perm (row : α) (rightSame : right.Perm right') : right.any (on row) = right'.any (on row) := by
  rw [Bool.eq_iff_iff, List.any_eq_true, List.any_eq_true]
  exact exists_congr fun _ => and_congr_left fun _ => rightSame.mem_iff

theorem semiJoin_perm (leftSame : left.Perm left') (rightSame : right.Perm right') :
    (semiJoin on left right).Perm (semiJoin on left' right') := by
  simp only [semiJoin, any_perm _ rightSame]
  exact leftSame.filter _

theorem antiJoin_perm (leftSame : left.Perm left') (rightSame : right.Perm right') :
    (antiJoin on left right).Perm (antiJoin on left' right') := by
  simp only [antiJoin, any_perm _ rightSame]
  exact leftSame.filter _

end Orders

section Selected

variable {on' : α → β → Bool} {keep : β → Bool}

/-- A selection that is part of the join condition may be made of the right rows. -/
theorem matching_filter_right {row : α} {right : List β}
    (same : ∀ other ∈ right, on' row other = (on row other && keep other)) :
    matching on (right.filter keep) row = matching on' right row := by
  rw [matching, matching, List.filter_filter]
  exact List.filter_congr (fun other member => (same other member).symm)

variable {left : List α} {right : List β}
  (same : ∀ row ∈ left, ∀ other ∈ right, on' row other = (on row other && keep other))
include same

theorem innerJoin_filter_right : innerJoin on left (right.filter keep) = innerJoin on' left right :=
  List.flatMap_congr fun row member => by rw [matching_filter_right (same row member)]

theorem outerJoin_filter_right : outerJoin on left (right.filter keep) = outerJoin on' left right :=
  List.flatMap_congr fun row member => by
    rw [outerMatches, outerMatches, matching_filter_right (same row member)]

theorem any_filter_right {row : α} (member : row ∈ left) :
    (right.filter keep).any (on row) = right.any (on' row) := by
  rw [List.any_filter, Bool.eq_iff_iff, List.any_eq_true, List.any_eq_true]
  exact exists_congr fun other => and_congr_right fun isRight => by rw [same row member other isRight, Bool.and_comm]

theorem semiJoin_filter_right : semiJoin on left (right.filter keep) = semiJoin on' left right :=
  List.filter_congr fun _ member => any_filter_right same member

theorem antiJoin_filter_right : antiJoin on left (right.filter keep) = antiJoin on' left right :=
  List.filter_congr fun _ member => congrArg _ (any_filter_right same member)

end Selected

section Maps

variable {α' β' : Type} {on' : α' → β' → Bool} {change : α → α'} {change' : β → β'}

theorem matching_map {row : α} {right : List β}
    (same : ∀ other ∈ right, on' (change row) (change' other) = on row other) :
    matching on' (right.map change') (change row) = (matching on right row).map change' := by
  simp only [matching, List.filter_map, Function.comp_def]
  exact congrArg _ (List.filter_congr same)

/-- The inner join of changed rows that match as the rows do. -/
theorem innerJoin_map {left : List α} {right : List β}
    (same : ∀ row ∈ left, ∀ other ∈ right, on' (change row) (change' other) = on row other) :
    innerJoin on' (left.map change) (right.map change') =
      (innerJoin on left right).map (Prod.map change change') := by
  induction left with
  | nil => rfl
  | cons row rest hypothesis =>
    have first := matching_map (same row (List.mem_cons_self ..))
    have others := hypothesis (fun other member => same other (List.mem_cons_of_mem _ member))
    simp only [innerJoin, List.map_cons, List.flatMap_cons, List.map_append] at others ⊢
    rw [others, first]
    simp [Function.comp_def]

theorem outerJoin_map {left : List α} {right : List β}
    (same : ∀ row ∈ left, ∀ other ∈ right, on' (change row) (change' other) = on row other) :
    outerJoin on' (left.map change) (right.map change') =
      (outerJoin on left right).map (Prod.map change (Option.map change')) := by
  induction left with
  | nil => rfl
  | cons row rest hypothesis =>
    have first := matching_map (same row (List.mem_cons_self ..))
    have others := hypothesis (fun other member => same other (List.mem_cons_of_mem _ member))
    have head : outerMatches on' (right.map change') (change row) =
        (outerMatches on right row).map (Prod.map change (Option.map change')) := by
      unfold outerMatches
      rw [first, List.isEmpty_map]
      split
      · rfl
      · simp [Function.comp_def]
    simp only [outerJoin, List.map_cons, List.flatMap_cons, List.map_append] at others ⊢
    rw [others, head]

theorem any_map_of_same {row : α} {right : List β}
    (same : ∀ other ∈ right, on' (change row) (change' other) = on row other) :
    (right.map change').any (on' (change row)) = right.any (on row) := by
  rw [List.any_map, Bool.eq_iff_iff, List.any_eq_true, List.any_eq_true]
  exact exists_congr (fun other => and_congr_right (fun member => by
    rw [Function.comp_apply, same other member]))

theorem semiJoin_map {left : List α} {right : List β}
    (same : ∀ row ∈ left, ∀ other ∈ right, on' (change row) (change' other) = on row other) :
    semiJoin on' (left.map change) (right.map change') = (semiJoin on left right).map change := by
  simp only [semiJoin, List.filter_map]
  refine congrArg _ (List.filter_congr (fun row member => ?_))
  exact any_map_of_same (same row member)

theorem antiJoin_map {left : List α} {right : List β}
    (same : ∀ row ∈ left, ∀ other ∈ right, on' (change row) (change' other) = on row other) :
    antiJoin on' (left.map change) (right.map change') = (antiJoin on left right).map change := by
  simp only [antiJoin, List.filter_map]
  refine congrArg _ (List.filter_congr (fun row member => ?_))
  rw [Function.comp_apply, any_map_of_same (same row member)]

end Maps

theorem mem_innerJoin {left : List α} {right : List β} {pair : α × β} :
    pair ∈ innerJoin on left right ↔
      pair.1 ∈ left ∧ pair.2 ∈ right ∧ on pair.1 pair.2 = true := by
  obtain ⟨row, other⟩ := pair
  simp [innerJoin, matching]

theorem mem_outerJoin_left {left : List α} {right : List β} {pair : α × Option β}
    (member : pair ∈ outerJoin on left right) : pair.1 ∈ left := by
  obtain ⟨row, inLeft, produced⟩ := List.mem_flatMap.mp member
  unfold outerMatches at produced
  split at produced
  · simp only [List.mem_singleton] at produced
    rwa [produced]
  · obtain ⟨other, _, rfl⟩ := List.mem_map.mp produced
    exact inLeft

theorem mem_outerJoin_right {left : List α} {right : List β} {pair : α × Option β} {other : β}
    (member : pair ∈ outerJoin on left right) (paired : pair.2 = some other) : other ∈ right := by
  obtain ⟨row, _, produced⟩ := List.mem_flatMap.mp member
  unfold outerMatches at produced
  split at produced
  · simp only [List.mem_singleton] at produced
    rw [produced] at paired
    simp at paired
  · obtain ⟨found, inMatching, rfl⟩ := List.mem_map.mp produced
    simp only [Option.some.injEq] at paired
    exact paired ▸ List.mem_of_mem_filter inMatching

/-- A left row that is paired with nothing has no match. -/
theorem unmatched_of_outerJoin {left : List α} {right : List β} {pair : α × Option β}
    (member : pair ∈ outerJoin on left right) (alone : pair.2 = none) : right.any (on pair.1) = false := by
  obtain ⟨row, _, produced⟩ := List.mem_flatMap.mp member
  unfold outerMatches at produced
  split at produced
  · rename_i empty
    obtain rfl := List.mem_singleton.mp produced
    exact List.any_eq_false.mpr (fun other inRight matched =>
      List.ne_nil_of_mem (List.mem_filter.mpr ⟨inRight, matched⟩) (List.isEmpty_iff.mp empty))
  · obtain ⟨found, _, rfl⟩ := List.mem_map.mp produced
    cases alone

end Joins

/-! ## Grouping -/

section Grouping

variable [DecidableEq κ]

/-- The elements of a list, each at its first occurrence. -/
def distinct : List κ → List κ
  | [] => []
  | first :: rest => first :: (distinct rest).filter (· ≠ first)

/-- The rows grouped by a key, groups in the order in which their keys first appear. -/
def groupRows (key : α → κ) (rows : List α) : List (κ × List α) :=
  (distinct (rows.map key)).map (fun value => (value, rows.filter (fun row => key row = value)))

theorem mem_distinct {value : κ} {values : List κ} : value ∈ distinct values ↔ value ∈ values := by
  induction values with
  | nil => simp [distinct]
  | cons first rest hypothesis =>
    by_cases same : value = first
    · simp [distinct, same]
    · simp [distinct, same, hypothesis]

theorem distinct_filter (keep : κ → Bool) (values : List κ) :
    distinct (values.filter keep) = (distinct values).filter keep := by
  induction values with
  | nil => rfl
  | cons first rest hypothesis =>
    by_cases kept : keep first = true
    · simp only [List.filter_cons_of_pos kept, distinct, hypothesis, List.filter_filter]
      congr 1
      exact List.filter_congr (fun value _ => Bool.and_comm _ _)
    · simp only [List.filter_cons_of_neg kept, distinct, hypothesis, List.filter_filter]
      refine List.filter_congr (fun value _ => ?_)
      by_cases same : value = first
      · subst same
        simp [kept]
      · simp [same]

theorem distinct_nodup (values : List κ) : (distinct values).Nodup := by
  induction values with
  | nil => exact List.nodup_nil
  | cons first rest hypothesis =>
    refine List.nodup_cons.mpr ⟨fun member => ?_, hypothesis.filter _⟩
    simpa using List.of_mem_filter member

/-- Different groups have different keys. -/
theorem groupRows_apart (key : α → κ) (rows : List α) :
    (groupRows key rows).Pairwise (fun first second => first.1 ≠ second.1) :=
  List.pairwise_map.mpr (distinct_nodup _)

theorem mem_groupRows {key : α → κ} {rows : List α} {group : κ × List α} :
    group ∈ groupRows key rows ↔
      group.1 ∈ rows.map key ∧ group.2 = rows.filter (fun row => key row = group.1) := by
  obtain ⟨value, members⟩ := group
  simp only [groupRows, List.mem_map, mem_distinct, Prod.mk.injEq]
  constructor
  · rintro ⟨_, ⟨row, isRow, rfl⟩, rfl, rfl⟩
    exact ⟨⟨row, isRow, rfl⟩, rfl⟩
  · rintro ⟨⟨row, isRow, rfl⟩, isGroup⟩
    exact ⟨_, ⟨row, isRow, rfl⟩, rfl, isGroup.symm⟩

/-- A selection that keeps a group, and rows of one key only, is that group. -/
theorem filter_eq_group {key : α → κ} {rows : List α} {group : κ × List α} {keep : α → Bool}
    (member : group ∈ groupRows key rows) (kept : ∀ row ∈ group.2, keep row = true)
    (single : ∀ row ∈ rows, ∀ other ∈ rows, keep row = true → keep other = true → key row = key other) :
    rows.filter keep = group.2 := by
  obtain ⟨inKeys, isGroup⟩ := mem_groupRows.mp member
  obtain ⟨first, isFirst, firstKey⟩ := List.mem_map.mp inKeys
  have firstKept : keep first = true := by
    apply kept
    rw [isGroup]
    exact List.mem_filter.mpr ⟨isFirst, decide_eq_true firstKey⟩
  rw [isGroup]
  refine List.filter_congr (fun row isRow => ?_)
  rw [Bool.eq_iff_iff, decide_eq_true_eq]
  constructor
  · intro rowKept
    rw [single row isRow first isFirst rowKept firstKept, firstKey]
  · intro sameKey
    apply kept
    rw [isGroup]
    exact List.mem_filter.mpr ⟨isRow, decide_eq_true sameKey⟩

/-- A join with groups finds for each row the rows that agree with it, if these have one key and a value over no rows
is never kept. -/
theorem innerJoin_groupRows {ν : Type} {key : β → κ} {agrees : α → κ → Bool} {value : List β → ν}
    {keep : α → ν → Bool} {left : List α} {right : List β}
    (single : ∀ row ∈ left, ∀ first ∈ right, ∀ second ∈ right, agrees row (key first) = true →
      agrees row (key second) = true → key first = key second)
    (empty : ∀ row ∈ left, keep row (value []) = false) :
    (innerJoin (fun row group => agrees row group.1 && keep row (value group.2)) left (groupRows key right)).map
        Prod.fst =
      left.filter (fun row => keep row (value (right.filter (fun other => agrees row (key other))))) := by
  -- The one group that agrees with a row holds all rows that do.
  have selected {row : α} (isRow : row ∈ left) {group : κ × List β} (member : group ∈ groupRows key right)
      (agreed : agrees row group.1 = true) : right.filter (fun other => agrees row (key other)) = group.2 := by
    apply filter_eq_group member
    · intro other isOther
      rw [(mem_groupRows.mp member).2] at isOther
      have sameKey : key other = group.1 := by simpa using List.of_mem_filter isOther
      rwa [sameKey]
    · exact single row isRow
  rw [innerJoin_left]
  · refine List.filter_congr (fun row isRow => ?_)
    rw [Bool.eq_iff_iff, List.any_eq_true]
    constructor
    · rintro ⟨group, member, matched⟩
      obtain ⟨agreed, kept⟩ := Bool.and_eq_true_iff.mp matched
      rwa [selected isRow member agreed]
    · intro kept
      by_cases found : ∃ other ∈ right, agrees row (key other) = true
      · obtain ⟨other, isOther, agreed⟩ := found
        have member : (key other, right.filter (fun row => key row = key other)) ∈ groupRows key right :=
          mem_groupRows.mpr ⟨List.mem_map_of_mem isOther, rfl⟩
        refine ⟨_, member, Bool.and_eq_true_iff.mpr ⟨agreed, ?_⟩⟩
        rwa [selected isRow member agreed] at kept
      · have nothing : right.filter (fun other => agrees row (key other)) = [] :=
          List.filter_eq_nil_iff.mpr (fun other isOther agreed => found ⟨other, isOther, agreed⟩)
        rw [nothing, empty row isRow] at kept
        cases kept
  · intro row isRow
    refine (groupRows_apart key right).imp_of_mem (fun firstMember secondMember apart matched => apart ?_)
    obtain ⟨firstIn, -⟩ := mem_groupRows.mp firstMember
    obtain ⟨secondIn, -⟩ := mem_groupRows.mp secondMember
    obtain ⟨first, isFirst, firstKey⟩ := List.mem_map.mp firstIn
    obtain ⟨second, isSecond, secondKey⟩ := List.mem_map.mp secondIn
    rw [← firstKey, ← secondKey] at matched ⊢
    exact single row isRow first isFirst second isSecond (Bool.and_eq_true_iff.mp matched.1).1
      (Bool.and_eq_true_iff.mp matched.2).1

/-- Grouping changed rows is changing grouped rows. -/
theorem groupRows_map (key : β → κ) (change : α → β) (rows : List α) :
    groupRows key (rows.map change) =
      (groupRows (fun row => key (change row)) rows).map (fun group => (group.1, group.2.map change)) := by
  simp only [groupRows, List.map_map, List.filter_map, Function.comp_def]

/-- A selection of rows by their key selects whole groups. -/
theorem groupRows_filter (key : α → κ) (keep : κ → Bool) (rows : List α) :
    groupRows key (rows.filter (fun row => keep (key row))) =
      (groupRows key rows).filter (fun group => keep group.1) := by
  have keys : (rows.filter (fun row => keep (key row))).map key = (rows.map key).filter keep := by
    rw [List.filter_map]
    rfl
  rw [groupRows, keys, distinct_filter, groupRows, List.filter_map]
  refine List.map_congr_left (fun value member => ?_)
  have kept : keep value = true := by
    have := List.of_mem_filter member
    simpa using this
  congr 1
  rw [List.filter_filter]
  refine List.filter_congr (fun row _ => ?_)
  by_cases same : key row = value
  · simp [same, kept]
  · simp [same]

end Grouping

end KernelLake.Library.Relations
