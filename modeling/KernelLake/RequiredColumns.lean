import KernelLake.AggregatePlanning
import KernelLake.Layouts
import KernelLake.ScanAnnotation

/-!
Which columns a scan is asked for, and whether they suffice.

Column references travel down to the scans as bare numbers. A number that was collected above a
projection or an aggregation counts that operator's output, but it is carried on below as if it
counted the input's columns. `staleFits` says that these stale numbers happen to lie inside the
schemas of the scans they reach; the annotation succeeds exactly then, since every other number does
so by itself. What the scans are left with always suffices, and conversion then resolves every
reference, unless a projection that is left out of the physical plan shifts the columns of a join.
-/

namespace KernelLake.RequiredColumns

open KernelLake.Types KernelLake.Expressions KernelLake.LogicalPlans KernelLake.Optimizer
open KernelLake.PhysicalPlans KernelLake.PhysicalPlanner KernelLake.RemapProofs KernelLake.Layouts
open KernelLake.ScanAnnotation KernelLake.Library.Results
open KernelLake.AggregatePlanning (hasAggregate)
open KernelLake.Binder (keepsRight)

/-! ## What operators read -/

def collectKeyColumns (keys : List SortKey) : List Nat :=
  keys.flatMap (fun key => collectColumns key.expr)

def collectResidualColumns (residualPredicate : Option Expression) : List Nat :=
  residualPredicate.elim [] collectColumns

/-- Every scan is asked for the columns that the operators above read from it, given those that are
read of the whole plan's output. An operator reads what its own expressions refer to; a projection or
an aggregation computes its output from nothing else, and a semi or anti join passes on only its left
columns. -/
def Supplied : List Nat → LogicalPlan → Prop
  | needed, .scan source =>
    ∀ index ∈ needed, ∃ field, source.schema[index]? = some field ∧ field.name ∈ source.requiredColumns
  | needed, .join left right leftKeyIndex rightKeyIndex joinType residualPredicate =>
    let read := collectResidualColumns residualPredicate ++
      needed.filter (fun index => index < (joinSchema left.outputSchema right.outputSchema joinType).length)
    Supplied (leftKeyIndex :: read.filter (fun index => index < left.width)) left ∧
      Supplied (rightKeyIndex ::
        (read.filter (fun index => left.width ≤ index)).map (fun index => index - left.width)) right
  | needed, .filter child predicate => Supplied (needed ++ collectColumns predicate) child
  | _, .projection child items => Supplied (collectItemColumns items) child
  | _, .aggregate child groupBy aggregates =>
    Supplied (collectItemColumns groupBy ++ collectItemColumns aggregates) child
  | needed, .sort child keys => Supplied (needed ++ collectKeyColumns keys) child
  | needed, .limit child _ => Supplied needed child

/-! ## Stale numbers -/

/-- The numbers that count columns of another operator's output lie inside the schemas of the scans
they are carried to. `fresh` are the numbers collected since the last projection or aggregation,
`stale` those from above one. -/
def staleFits : List Nat → List Nat → LogicalPlan → Bool
  | _, stale, .scan source => stale.all (fun index => index < source.schema.length)
  | fresh, stale, .join left right leftKeyIndex rightKeyIndex _ residualPredicate =>
    let referred := fresh ++ collectResidualColumns residualPredicate
    staleFits (leftRequired left.width leftKeyIndex referred)
        (stale.filter (fun index => index < left.width)) left &&
      staleFits (rightRequired left.width rightKeyIndex referred)
        ((stale.filter (fun index => left.width ≤ index)).map (fun index => index - left.width)) right
  | fresh, stale, .filter child predicate =>
    staleFits (if child.isAggregate then fresh else fresh ++ collectColumns predicate) stale child
  | fresh, stale, .projection child items =>
    staleFits (if child.isAggregate then [] else collectItemColumns items) (stale ++ fresh) child
  | fresh, stale, .aggregate child groupBy aggregates =>
    staleFits (collectItemColumns groupBy ++ collectItemColumns aggregates) (stale ++ fresh) child
  | fresh, stale, .sort child keys => staleFits (fresh ++ collectKeyColumns keys) stale child
  | fresh, stale, .limit child _ => staleFits fresh stale child

/-! ## References in range -/

def refersWithin (width : Nat) (indices : List Nat) : Prop :=
  ∀ index ∈ indices, index < width

/-- A predicate that can be moved: it has no aggregates and refers to a row of the given width. -/
def plainWithin (width : Nat) (predicate : Expression) : Prop :=
  hasAggregate predicate = false ∧ refersWithin width (collectColumns predicate)

/-- Operators whose references are renumbered refer to columns that exist. -/
def inRange : LogicalPlan → Prop
  | .scan _ => True
  | .join left right leftKeyIndex rightKeyIndex _ residualPredicate =>
    inRange left ∧ inRange right ∧ leftKeyIndex < left.width ∧ rightKeyIndex < right.width ∧
      refersWithin (left.width + right.width) (collectResidualColumns residualPredicate)
  | .filter child predicate =>
    inRange child ∧ (referencesScanSchema child = true → plainWithin child.width predicate)
  | .projection child items =>
    inRange child ∧ (referencesScanSchema child = true → refersWithin child.width (collectItemColumns items))
  | .aggregate child groupBy aggregates =>
    inRange child ∧ (referencesScanSchema child = true →
      refersWithin child.width (collectItemColumns groupBy ++ collectItemColumns aggregates))
  | .sort child keys =>
    inRange child ∧ (referencesScanSchema child = true → refersWithin child.width (collectKeyColumns keys))
  | .limit child _ => inRange child

/-! ## Alignment -/

/-- The columns of a plan are numbered as a search below it numbers them, to the last one: no list of
bare columns on the way, which conversion may leave out, selects fewer columns than there are. -/
def fullRow : LogicalPlan → Bool
  | .projection child items =>
    -- A list that repeats columns is longer than its input and never left out.
    !items.all (fun item => (copiedColumn item.expr).isSome) || child.width < items.length ||
      (items.length = child.width && fullRow child)
  | .filter child _ => fullRow child
  | .sort child _ => fullRow child
  | .limit child _ => fullRow child
  | .join _ right _ _ joinType _ => !keepsRight joinType || fullRow right
  | _ => true

/-- The right columns of every join are counted from where the left ones end. -/
def aligned : LogicalPlan → Bool
  | .scan _ => true
  | .join left right _ _ _ _ => aligned left && aligned right && fullRow left
  | .filter child _ => aligned child
  | .projection child _ => aligned child
  | .aggregate child _ _ => aligned child
  | .sort child _ => aligned child
  | .limit child _ => aligned child

/-! ## Annotation -/

theorem refersWithin_append {width : Nat} {first second : List Nat} :
    refersWithin width (first ++ second) ↔ refersWithin width first ∧ refersWithin width second :=
  List.forall_mem_append

theorem mapM_isSome {α β : Type} {action : α → Option β} {inputs : List α} :
    (inputs.mapM action).isSome = true ↔ ∀ input ∈ inputs, (action input).isSome = true := by
  induction inputs with
  | nil => simp
  | cons input inputs hypothesis =>
    simp only [List.mapM_cons, List.forall_mem_cons, ← hypothesis]
    cases action input with
    | none => simp
    | some result => cases inputs.mapM action <;> simp

theorem requiredNames_isSome {schema : Schema} {required : List Nat} :
    (requiredNames schema required).isSome = true ↔ refersWithin schema.length required := by
  simp [requiredNames, mapM_isSome, refersWithin]

theorem mem_of_mapM {α β : Type} {action : α → Option β} {inputs : List α} {results : List β}
    (ran : inputs.mapM action = some results) {input : α} (member : input ∈ inputs) :
    ∃ result ∈ results, action input = some result := by
  induction inputs generalizing results with
  | nil => cases member
  | cons first inputs hypothesis =>
    simp only [List.mapM_cons, Option.bind_eq_bind, Option.bind_eq_some_iff, Option.pure_def,
      Option.some.injEq] at ran
    obtain ⟨result, firstRan, rest, restRan, rfl⟩ := ran
    rcases List.mem_cons.mp member with rfl | inRest
    · exact ⟨result, List.mem_cons_self .., firstRan⟩
    · obtain ⟨other, inOthers, otherRan⟩ := hypothesis restRan inRest
      exact ⟨other, List.mem_cons_of_mem _ inOthers, otherRan⟩

/-- Every required column is among the names a scan is left with. -/
theorem mem_requiredNames {schema : Schema} {required : List Nat} {names : List String}
    (ran : requiredNames schema required = some names) {index : Nat} (member : index ∈ required) :
    ∃ field, schema[index]? = some field ∧ field.name ∈ names := by
  obtain ⟨found, foundRan, rfl⟩ := Option.map_eq_some_iff.mp ran
  obtain ⟨name, inFound, isName⟩ := mem_of_mapM foundRan (List.mem_dedup.mpr member)
  obtain ⟨field, isField, rfl⟩ := Option.map_eq_some_iff.mp isName
  exact ⟨field, isField, (List.mem_insertionSort _).mpr inFound⟩

/-- The numbers in hand at a plan, in one list as the optimizer has them or told apart. -/
def Split (required fresh stale : List Nat) : Prop :=
  ∀ index, index ∈ required ↔ index ∈ fresh ∨ index ∈ stale

theorem Split.collect {required fresh stale : List Nat} (split : Split required fresh stale)
    (collected : List Nat) : Split (required ++ collected) (fresh ++ collected) stale := by
  intro index
  simp only [List.mem_append, split index]
  tauto

/-- Below a projection or an aggregation all earlier numbers are stale. -/
theorem Split.age {required fresh stale : List Nat} (split : Split required fresh stale)
    (collected : List Nat) : Split (required ++ collected) collected (stale ++ fresh) := by
  intro index
  simp only [List.mem_append, split index]
  tauto

theorem Split.left {required fresh stale : List Nat} (split : Split required fresh stale)
    (leftCount key : Nat) (residual : List Nat) :
    Split (leftRequired leftCount key (required ++ residual)) (leftRequired leftCount key (fresh ++ residual))
      (stale.filter (fun index => index < leftCount)) := by
  intro index
  simp only [leftRequired, List.mem_cons, List.mem_filter, List.mem_append, split index]
  tauto

theorem Split.right {required fresh stale : List Nat} (split : Split required fresh stale)
    (leftCount key : Nat) (residual : List Nat) :
    Split (rightRequired leftCount key (required ++ residual))
      (rightRequired leftCount key (fresh ++ residual))
      ((stale.filter (fun index => leftCount ≤ index)).map (fun index => index - leftCount)) := by
  have same (index : Nat) : index ∈ required ↔ index ∈ fresh ∨ index ∈ stale := split index
  intro index
  simp only [rightRequired, List.mem_cons, List.mem_map, List.mem_filter, List.mem_append, same, or_assoc,
    or_and_right, exists_or, or_comm, or_left_comm]

theorem refersWithin_leftRequired {leftCount key : Nat} {referred : List Nat} (keyWithin : key < leftCount) :
    refersWithin leftCount (leftRequired leftCount key referred) := by
  intro index member
  rcases List.mem_cons.mp member with rfl | kept
  · exact keyWithin
  · simpa using (List.mem_filter.mp kept).2

theorem refersWithin_rightRequired {leftCount rightCount key : Nat} {referred : List Nat}
    (keyWithin : key < rightCount) (within : refersWithin (leftCount + rightCount) referred) :
    refersWithin rightCount (rightRequired leftCount key referred) := by
  intro index member
  rcases List.mem_cons.mp member with rfl | kept
  · exact keyWithin
  · obtain ⟨original, inReferred, rfl⟩ := List.mem_map.mp kept
    obtain ⟨inReferred, beyond⟩ := List.mem_filter.mp inReferred
    have bound := within original inReferred
    simp only [decide_eq_true_eq] at beyond
    omega

theorem width_join_le (left right : LogicalPlan) (leftKeyIndex rightKeyIndex : Nat) (joinType : JoinType)
    (residualPredicate : Option Expression) :
    (LogicalPlan.join left right leftKeyIndex rightKeyIndex joinType residualPredicate).width ≤
      left.width + right.width := by
  simp only [LogicalPlan.width, LogicalPlan.outputSchema, joinSchema_length]
  cases joinType <;> simp

/-- The annotation succeeds exactly if the stale numbers fit: the fresh ones are columns of the plan. -/
theorem annotateScan_isSome {plan : LogicalPlan} {required fresh stale : List Nat}
    {predicates : List PushablePredicate} (bound : inRange plan) (split : Split required fresh stale)
    (within : referencesScanSchema plan = true → refersWithin plan.width fresh) :
    (annotateScan required predicates plan).isSome = true ↔ staleFits fresh stale plan = true := by
  induction plan generalizing required fresh stale predicates with
  | scan source =>
    have freshWithin := within rfl
    simp only [annotateScan, Option.isSome_map, requiredNames_isSome, staleFits, List.all_eq_true,
      decide_eq_true_eq]
    constructor
    · intro all index member
      exact all index ((split index).mpr (.inr member))
    · intro fits index member
      exact ((split index).mp member).elim (freshWithin index) (fits index)
  | join left right leftKeyIndex rightKeyIndex joinType residualPredicate ihLeft ihRight =>
    obtain ⟨leftBound, rightBound, leftKey, rightKey, residual⟩ := bound
    have freshWithin : refersWithin (left.width + right.width) fresh :=
      fun index member => (within rfl index member).trans_le (width_join_le ..)
    have referred := refersWithin_append.mpr ⟨freshWithin, residual⟩
    have leftSame := @ihLeft _ _ _ [] leftBound
      (split.left left.width leftKeyIndex (collectResidualColumns residualPredicate))
      (fun _ => refersWithin_leftRequired leftKey)
    have rightSame := @ihRight _ _ _ [] rightBound
      (split.right left.width rightKeyIndex (collectResidualColumns residualPredicate))
      (fun _ => refersWithin_rightRequired rightKey referred)
    rw [staleFits, Bool.and_eq_true, ← leftSame, ← rightSame, annotateScan]
    simp only [collectResidualColumns]
    cases annotateScan (leftRequired left.width leftKeyIndex
        (required ++ residualPredicate.elim [] collectColumns)) [] left with
    | none => simp
    | some left' =>
      cases annotateScan (rightRequired left.width rightKeyIndex
        (required ++ residualPredicate.elim [] collectColumns)) [] right <;> simp
  | filter child predicate hypothesis =>
    simp only [annotateScan, Option.isSome_map, staleFits]
    by_cases overAggregate : child.isAggregate = true
    · simp only [overAggregate, if_true]
      refine hypothesis bound.1 split (fun references => ?_)
      cases child <;> simp_all [LogicalPlan.isAggregate, referencesScanSchema]
    · simp only [overAggregate, if_false, Bool.false_eq_true]
      refine hypothesis bound.1 (split.collect _) (fun references => refersWithin_append.mpr ⟨?_, ?_⟩)
      · exact within (by simpa [referencesScanSchema] using overAggregate)
      · exact (bound.2 references).2
  | projection child items hypothesis =>
    simp only [annotateScan, Option.isSome_map, staleFits]
    by_cases overAggregate : child.isAggregate = true
    · simp only [overAggregate, if_true]
      refine hypothesis bound.1 (by simpa using split.age []) (fun _ index member => ?_)
      cases member
    · simp only [overAggregate, if_false, Bool.false_eq_true]
      exact hypothesis bound.1 (split.age _) bound.2
  | aggregate child groupBy aggregates hypothesis =>
    simp only [annotateScan, Option.isSome_map, staleFits, List.append_assoc]
    exact hypothesis bound.1 (split.age _) bound.2
  | sort child keys hypothesis =>
    simp only [annotateScan, Option.isSome_map, staleFits]
    refine hypothesis bound.1 (split.collect _) (fun references => refersWithin_append.mpr ⟨?_, ?_⟩)
    · exact within references
    · exact bound.2 references
  | limit child limit hypothesis =>
    simp only [annotateScan, Option.isSome_map, staleFits]
    exact hypothesis bound split within

/-- Whatever the scans are left with, it suffices. -/
theorem supplied_annotateScan {plan annotated : LogicalPlan} {required needed : List Nat}
    {predicates : List PushablePredicate} (ran : annotateScan required predicates plan = some annotated)
    (collected : needed ⊆ required) : Supplied needed annotated := by
  induction plan generalizing required needed predicates annotated with
  | scan source =>
    obtain ⟨names, namesRan, rfl⟩ := Option.map_eq_some_iff.mp ran
    exact fun index member => mem_requiredNames namesRan (collected member)
  | join left right leftKeyIndex rightKeyIndex joinType residualPredicate ihLeft ihRight =>
    obtain ⟨left', leftRan, right', rightRan, rfl⟩ := by
      simpa [annotateScan, Option.bind_eq_some_iff] using ran
    have width : left'.width = left.width := congrArg List.length (outputSchema_annotateScan leftRan)
    refine ⟨ihLeft leftRan ?_, ihRight rightRan ?_⟩
    · intro index member
      simp only [leftRequired, collectResidualColumns, width, List.mem_cons, List.mem_filter,
        List.mem_append, decide_eq_true_eq] at member ⊢
      grind
    · intro index member
      simp only [rightRequired, collectResidualColumns, width, List.mem_cons, List.mem_map,
        List.mem_filter, List.mem_append, decide_eq_true_eq] at member ⊢
      grind
  | filter child predicate hypothesis =>
    obtain ⟨child', childRan, rfl⟩ := Option.map_eq_some_iff.mp ran
    rw [Supplied]
    by_cases overAggregate : child.isAggregate = true
    · -- The filter is over an aggregation, which reads nothing of what is needed above it.
      cases child with
      | aggregate grandchild groupBy aggregates =>
        obtain ⟨grandchild', _, rfl⟩ := Option.map_eq_some_iff.mp childRan
        have read := hypothesis childRan (List.nil_subset _)
        rw [Supplied] at read ⊢
        exact read
      | _ => cases overAggregate
    · simp only [overAggregate, if_false, Bool.false_eq_true] at childRan
      exact hypothesis childRan (List.append_subset.mpr
        ⟨List.subset_append_of_subset_left _ collected, List.subset_append_right _ _⟩)
  | projection child items hypothesis =>
    obtain ⟨child', childRan, rfl⟩ := Option.map_eq_some_iff.mp ran
    rw [Supplied]
    by_cases overAggregate : child.isAggregate = true
    · cases child with
      | aggregate grandchild groupBy aggregates =>
        obtain ⟨grandchild', _, rfl⟩ := Option.map_eq_some_iff.mp childRan
        have read := hypothesis childRan (List.nil_subset _)
        rw [Supplied] at read ⊢
        exact read
      | _ => cases overAggregate
    · simp only [overAggregate, if_false, Bool.false_eq_true] at childRan
      exact hypothesis childRan (List.subset_append_right _ _)
  | aggregate child groupBy aggregates hypothesis =>
    obtain ⟨child', childRan, rfl⟩ := Option.map_eq_some_iff.mp ran
    rw [List.append_assoc] at childRan
    rw [Supplied]
    exact hypothesis childRan (List.subset_append_right _ _)
  | sort child keys hypothesis =>
    obtain ⟨child', childRan, rfl⟩ := Option.map_eq_some_iff.mp ran
    rw [Supplied]
    exact hypothesis childRan (List.append_subset.mpr
      ⟨List.subset_append_of_subset_left _ collected, List.subset_append_right _ _⟩)
  | limit child limit hypothesis =>
    obtain ⟨child', childRan, rfl⟩ := Option.map_eq_some_iff.mp ran
    rw [Supplied]
    exact hypothesis childRan collected

end KernelLake.RequiredColumns
