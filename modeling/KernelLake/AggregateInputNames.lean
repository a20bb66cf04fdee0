import KernelLake.AggregateBackends
import KernelLake.Library.Texts

/-!
The names under which the CPU backend projects the inputs of an aggregation.

Columns and computed keys claim their names, and a name that is handed out for a column is claimed too. A
computed argument gets a name that is not claimed, and no name is checked before it is handed out. So names are
distinct exactly while no column or key comes with the name of a computed argument, and no name is handed out
that a column or key came with.
-/

namespace KernelLake.AggregateInputNames

open KernelLake.Types KernelLake.Expressions KernelLake.LogicalPlans
open KernelLake.AggregateBackends KernelLake.Library KernelLake.Library.Results

/-! ## What the names are for -/

/-- A name finds the column of an expression. -/
def Finds (projections : List (String × ArrowExpression)) (name : String) (expr : Expression) : Prop :=
  ∃ index, findField (projections.map Prod.fst) name = .ok index ∧
    projections[index]? = some (name, compiledForm expr)

/-- The target of a call is the argument of its aggregate. -/
def FindsTarget (projections : List (String × ArrowExpression)) (item : NamedExpression) (call : AceroAggregate) :
    Prop :=
  (∃ type, item.expr = .countStar type ∧ call.target = none) ∨
    ∃ function argument type name, item.expr = .aggregate function argument type ∧ call.target = some name ∧
      Finds projections name argument

/-- Names are distinct, and each key and each target is found under its name. -/
structure Resolves (groupBy aggregates : List NamedExpression) (declaration : AggregateDeclaration) : Prop where
  distinct : (declaration.projections.map Prod.fst).Nodup
  keys : List.Forall₂ (fun item name => Finds declaration.projections name item.expr) groupBy declaration.keys
  targets : List.Forall₂ (FindsTarget declaration.projections) aggregates declaration.aggregates

/-! ## When names are clear -/

/-- The names handed out so far, for columns and for computed arguments. -/
def HandedOut (plan : AggregateInputPlan) (name : String) : Prop :=
  ∃ earlier : Nat, earlier < plan.nextSyntheticId ∧ name = "__kernellake_agg_input_" ++ toString earlier

/-- The next name to be handed out is not one that a column or key has. -/
def NextClear (plan : AggregateInputPlan) : Prop :=
  (nextSyntheticName plan).2 ∉ plan.claimedNames

/-- A column that is new keeps its name, which was not handed out, or gets one that is not taken. -/
def ColumnClear (plan : AggregateInputPlan) (columnName : String) (columnIndex : Nat) : Prop :=
  plan.projectedIndexToName.lookup columnIndex = none →
    if plan.claimedNames.contains columnName then NextClear plan else ¬ HandedOut plan columnName

def TargetClear (plan : AggregateInputPlan) : Expression → Prop
  | .column name index _ => ColumnClear plan name index
  | _ => NextClear plan

def KeyClear (plan : AggregateInputPlan) (item : NamedExpression) : Prop :=
  match item.expr with
  | .column name index _ => ColumnClear plan name index
  | _ => ¬ HandedOut plan item.name

def AggregateClear (plan : AggregateInputPlan) (item : NamedExpression) : Prop :=
  match item.expr with
  | .aggregate _ argument _ => TargetClear plan argument
  | _ => True

/-- Each item is clear in the plan that the items before it have left. -/
def EachClear {α : Type}
    (translate : AggregateInputPlan → NamedExpression → Except String (AggregateInputPlan × α))
    (clear : AggregateInputPlan → NamedExpression → Prop) (plan : AggregateInputPlan) :
    List NamedExpression → Prop
  | [] => True
  | item :: items =>
    clear plan item ∧
      ∀ next result, translate plan item = .ok (next, result) → EachClear translate clear next items

/-- Every key and every argument is clear. -/
def Clear (compileExpressionCpu : Expression → Except String Unit) (groupBy aggregates : List NamedExpression) :
    Prop :=
  EachClear (translateKey compileExpressionCpu) KeyClear .initial groupBy ∧
    ∀ plan keys, translateEach (translateKey compileExpressionCpu) .initial groupBy = .ok (plan, keys) →
      EachClear (translateAggregate compileExpressionCpu) AggregateClear plan aggregates

/-! ## What a plan keeps track of -/

/-- Claimed names and names handed out are projected, and no others. -/
structure Tracked (plan : AggregateInputPlan) : Prop where
  claimed : ∀ name ∈ plan.claimedNames, name ∈ plan.projections.map Prod.fst
  handedOut : ∀ name, HandedOut plan name → name ∈ plan.projections.map Prod.fst
  known : ∀ name ∈ plan.projections.map Prod.fst, name ∈ plan.claimedNames ∨ HandedOut plan name

def DistinctNames (plan : AggregateInputPlan) : Prop :=
  (plan.projections.map Prod.fst).Nodup

/-- What one step of the translation does: it keeps track, and it keeps names distinct exactly if it is clear. -/
def Tracks (plan next : AggregateInputPlan) (clear : Prop) : Prop :=
  Tracked next ∧ (DistinctNames next ↔ DistinctNames plan ∧ clear)

section Steps

variable {plan next : AggregateInputPlan}

theorem tracked_initial : Tracked .initial where
  claimed := List.forall_mem_nil _
  handedOut := by
    rintro name ⟨earlier, before, _⟩
    exact absurd before (Nat.not_lt_zero earlier)
  known := List.forall_mem_nil _

theorem tracks_same (tracked : Tracked plan) {clear : Prop} (isClear : clear) : Tracks plan plan clear :=
  ⟨tracked, (and_iff_left isClear).symm⟩

theorem next_not_handedOut (plan : AggregateInputPlan) : ¬ HandedOut plan (nextSyntheticName plan).2 := by
  rintro ⟨earlier, before, same⟩
  have sameNumber : plan.nextSyntheticId = earlier := Texts.repr_inj.mp ((String.append_right_inj _).mp same)
  omega

theorem handedOut_same {name : String} (numbered : next.nextSyntheticId = plan.nextSyntheticId) :
    HandedOut next name ↔ HandedOut plan name := by
  rw [HandedOut, numbered, HandedOut]

theorem handedOut_next {name : String} (numbered : next.nextSyntheticId = plan.nextSyntheticId + 1) :
    HandedOut next name ↔ HandedOut plan name ∨ name = (nextSyntheticName plan).2 := by
  unfold HandedOut
  rw [numbered]
  constructor
  · rintro ⟨earlier, before, same⟩
    rcases Nat.lt_succ_iff_lt_or_eq.mp before with earlierStill | rfl
    · exact .inl ⟨earlier, earlierStill, same⟩
    · exact .inr same
  · rintro (⟨earlier, before, same⟩ | same)
    · exact ⟨earlier, Nat.lt_succ_of_lt before, same⟩
    · exact ⟨plan.nextSyntheticId, Nat.lt_succ_self _, same⟩

theorem mem_names_project {name other : String} {expr : ArrowExpression}
    (projected : next.projections = plan.projections ++ [(name, expr)]) :
    other ∈ next.projections.map Prod.fst ↔ other ∈ plan.projections.map Prod.fst ∨ other = name := by
  rw [projected, List.map_append, List.map_singleton, List.mem_append, List.mem_singleton]

theorem distinct_project {name : String} {expr : ArrowExpression}
    (projected : next.projections = plan.projections ++ [(name, expr)]) :
    DistinctNames next ↔ DistinctNames plan ∧ name ∉ plan.projections.map Prod.fst := by
  unfold DistinctNames
  rw [projected, List.map_append, List.map_singleton, ← List.concat_eq_append, List.nodup_concat]
  exact and_comm

/-- A column or computed key is projected under its own name. -/
theorem tracks_own (tracked : Tracked plan) {name : String} {expr : ArrowExpression}
    (unclaimed : name ∉ plan.claimedNames) (projected : next.projections = plan.projections ++ [(name, expr)])
    (claimed : next.claimedNames = name :: plan.claimedNames)
    (numbered : next.nextSyntheticId = plan.nextSyntheticId) : Tracks plan next (¬ HandedOut plan name) := by
  have isKnown : name ∈ plan.projections.map Prod.fst ↔ HandedOut plan name :=
    ⟨fun member => (tracked.known name member).resolve_left unclaimed, tracked.handedOut name⟩
  refine ⟨⟨?_, ?_, ?_⟩, by rw [distinct_project projected, isKnown]⟩
  · intro other isClaimed
    rw [claimed, List.mem_cons] at isClaimed
    exact (mem_names_project projected).mpr (isClaimed.symm.imp_left (tracked.claimed other))
  · intro other isHandedOut
    rw [handedOut_same numbered] at isHandedOut
    exact (mem_names_project projected).mpr (.inl (tracked.handedOut other isHandedOut))
  · intro other member
    rw [claimed, handedOut_same numbered, List.mem_cons]
    rcases (mem_names_project projected).mp member with before | same
    · exact (tracked.known other before).imp_left Or.inr
    · exact .inl (.inl same)

/-- A name is handed out, and claimed if it is a column's. -/
theorem tracks_next (tracked : Tracked plan) {expr : ArrowExpression}
    (projected : next.projections = plan.projections ++ [((nextSyntheticName plan).2, expr)])
    (grown : plan.claimedNames ⊆ next.claimedNames)
    (claimed : ∀ name ∈ next.claimedNames, name ∈ plan.claimedNames ∨ name = (nextSyntheticName plan).2)
    (numbered : next.nextSyntheticId = plan.nextSyntheticId + 1) : Tracks plan next (NextClear plan) := by
  have isKnown : (nextSyntheticName plan).2 ∈ plan.projections.map Prod.fst ↔
      (nextSyntheticName plan).2 ∈ plan.claimedNames :=
    ⟨fun member => (tracked.known _ member).resolve_right (next_not_handedOut plan), tracked.claimed _⟩
  refine ⟨⟨?_, ?_, ?_⟩, by rw [distinct_project projected, isKnown, NextClear]⟩
  · intro other isClaimed
    exact (mem_names_project projected).mpr ((claimed other isClaimed).imp_left (tracked.claimed other))
  · intro other isHandedOut
    rw [handedOut_next numbered] at isHandedOut
    exact (mem_names_project projected).mpr (isHandedOut.imp_left (tracked.handedOut other))
  · intro other member
    rw [handedOut_next numbered]
    rcases (mem_names_project projected).mp member with before | same
    · exact (tracked.known other before).imp (grown ·) Or.inl
    · exact .inr (.inr same)

theorem ensureColumnProjected_tracks (tracked : Tracked plan) (columnName : String) (columnIndex : Nat) :
    Tracks plan (ensureColumnProjected plan columnName columnIndex).1 (ColumnClear plan columnName columnIndex) := by
  unfold ensureColumnProjected ColumnClear
  cases recorded : plan.projectedIndexToName.lookup columnIndex with
  | some name => exact tracks_same tracked (fun absent => absurd absent (Option.some_ne_none name))
  | none =>
    simp only [forall_const]
    by_cases claimed : plan.claimedNames.contains columnName = true
    · simp only [if_pos claimed]
      refine tracks_next tracked rfl (List.subset_cons_self ..) (fun name member => ?_) rfl
      exact (List.mem_cons.mp member).symm
    · simp only [if_neg claimed]
      exact tracks_own tracked (fun member => claimed (List.contains_iff_mem.mpr member)) rfl rfl rfl

variable {compileExpressionCpu : Expression → Except String Unit}

theorem resolveAggregateTarget_tracks (tracked : Tracked plan) {expr : Expression} {name : String}
    (ran : resolveAggregateTarget compileExpressionCpu plan expr = .ok (next, name)) :
    Tracks plan next (TargetClear plan expr) := by
  cases expr with
  | column columnName index type =>
    obtain ⟨rfl, rfl⟩ := Prod.mk.inj (Except.ok.inj ran)
    exact ensureColumnProjected_tracks tracked columnName index
  | _ =>
    simp only [resolveAggregateTarget, bind_eq_ok] at ran
    obtain ⟨_, _, projected⟩ := ran
    obtain ⟨rfl, rfl⟩ := Prod.mk.inj (Except.ok.inj projected)
    exact tracks_next tracked rfl (List.Subset.refl _) (fun _ => Or.inl) rfl

theorem translateKey_tracks (tracked : Tracked plan) {item : NamedExpression} {name : String}
    (ran : translateKey compileExpressionCpu plan item = .ok (next, name)) :
    Tracks plan next (KeyClear plan item) := by
  obtain ⟨expr, ownName⟩ := item
  cases expr with
  | column columnName index type =>
    obtain ⟨rfl, rfl⟩ := Prod.mk.inj (Except.ok.inj ran)
    exact ensureColumnProjected_tracks tracked columnName index
  | _ =>
    simp only [translateKey] at ran
    by_cases claimed : plan.claimedNames.contains ownName = true
    · rw [if_pos claimed] at ran
      cases ran
    · rw [if_neg claimed] at ran
      obtain ⟨_, _, projected⟩ := bind_eq_ok.mp ran
      obtain ⟨rfl, rfl⟩ := Prod.mk.inj (Except.ok.inj projected)
      exact tracks_own tracked (fun member => claimed (List.contains_iff_mem.mpr member)) rfl rfl rfl

theorem translateAggregate_tracks (tracked : Tracked plan) {item : NamedExpression} {call : AceroAggregate}
    (ran : translateAggregate compileExpressionCpu plan item = .ok (next, call)) :
    Tracks plan next (AggregateClear plan item) := by
  obtain ⟨expr, ownName⟩ := item
  cases expr with
  | countStar type =>
    obtain ⟨rfl, rfl⟩ := Prod.mk.inj (Except.ok.inj ran)
    exact tracks_same tracked trivial
  | aggregate function argument type =>
    simp only [translateAggregate, bind_eq_ok] at ran
    obtain ⟨⟨resolved, name⟩, targetRan, projected⟩ := ran
    obtain ⟨rfl, rfl⟩ := Prod.mk.inj (Except.ok.inj projected)
    exact resolveAggregateTarget_tracks tracked targetRan
  | _ => cases ran

/-- Names stay distinct exactly if every item is clear. -/
theorem translateEach_tracks {α : Type}
    {translate : AggregateInputPlan → NamedExpression → Except String (AggregateInputPlan × α)}
    {clear : AggregateInputPlan → NamedExpression → Prop}
    (each : ∀ plan next item result, Tracked plan → translate plan item = .ok (next, result) →
      Tracks plan next (clear plan item))
    {items : List NamedExpression} {plan next : AggregateInputPlan} {results : List α} (tracked : Tracked plan)
    (ran : translateEach translate plan items = .ok (next, results)) :
    Tracks plan next (EachClear translate clear plan items) := by
  induction items generalizing plan results with
  | nil =>
    obtain ⟨rfl, rfl⟩ := Prod.mk.inj (Except.ok.inj ran)
    exact tracks_same tracked trivial
  | cons item items hypothesis =>
    simp only [translateEach, bind_eq_ok] at ran
    obtain ⟨⟨middle, result⟩, firstRan, ⟨last, rest⟩, restRan, built⟩ := ran
    obtain ⟨rfl, rfl⟩ := Prod.mk.inj (Except.ok.inj built)
    obtain ⟨middleTracked, first⟩ := each plan middle item result tracked firstRan
    obtain ⟨lastTracked, others⟩ := hypothesis middleTracked restRan
    refine ⟨lastTracked, ?_⟩
    have restClear :
        (∀ next result, translate plan item = .ok (next, result) → EachClear translate clear next items) ↔
          EachClear translate clear middle items := by
      constructor
      · intro every
        exact every middle result firstRan
      · intro isClear other otherResult otherRan
        obtain ⟨rfl, rfl⟩ := Prod.mk.inj (Except.ok.inj (firstRan.symm.trans otherRan))
        exact isClear
    rw [others, first, EachClear, restClear, and_assoc]

end Steps

/-! ## Finding columns by name -/

/-- Among distinct names each finds its own column. -/
theorem finds_of_mem {projections : List (String × ArrowExpression)} {name : String} {expr : Expression}
    (distinct : (projections.map Prod.fst).Nodup) (member : (name, compiledForm expr) ∈ projections) :
    Finds projections name expr := by
  obtain ⟨index, inRange, isPair⟩ := List.getElem_of_mem member
  have inNames : index < (projections.map Prod.fst).length := by rwa [List.length_map]
  have isName : (projections.map Prod.fst)[index] = name := by rw [List.getElem_map, isPair]
  have once : (projections.map Prod.fst).count name = 1 :=
    List.count_eq_one_of_mem distinct (isName ▸ List.getElem_mem inNames)
  have position : (projections.map Prod.fst).idxOf name = index := by
    rw [← isName]
    exact distinct.idxOf_getElem index inNames
  refine ⟨index, ?_, List.getElem?_eq_some_iff.mpr ⟨inRange, isPair⟩⟩
  rw [findField, if_pos once, position]

theorem findsTarget_of_callOf {projections : List (String × ArrowExpression)} {item : NamedExpression}
    {call : AceroAggregate} (distinct : (projections.map Prod.fst).Nodup) (isCall : CallOf projections item call) :
    FindsTarget projections item call := by
  rcases isCall with ⟨type, isCount, _, target⟩ |
    ⟨function, argument, type, name, isAggregate, _, target, member⟩
  · exact .inl ⟨type, isCount, target⟩
  · exact .inr ⟨function, argument, type, name, isAggregate, target, finds_of_mem distinct member⟩

/-- The names of an accepted aggregation resolve exactly if every key and every argument was clear. -/
theorem names_resolve_iff {compileExpressionCpu : Expression → Except String Unit}
    {groupBy aggregates : List NamedExpression} {declaration : AggregateDeclaration}
    (accepted : AggregateBackends.translate compileExpressionCpu groupBy aggregates = .ok declaration) :
    Resolves groupBy aggregates declaration ↔ Clear compileExpressionCpu groupBy aggregates := by
  obtain ⟨named, areCalls⟩ := translate_projects accepted
  simp only [AggregateBackends.translate, bind_eq_ok] at accepted
  obtain ⟨⟨keyPlan, names⟩, keysRan, ⟨plan, calls⟩, callsRan, built⟩ := accepted
  obtain rfl := Except.ok.inj built
  obtain ⟨keysTracked, keysDistinct⟩ :=
    translateEach_tracks (fun _ _ _ _ tracked ran => translateKey_tracks tracked ran) tracked_initial keysRan
  obtain ⟨_, distinct⟩ :=
    translateEach_tracks (fun _ _ _ _ tracked ran => translateAggregate_tracks tracked ran) keysTracked callsRan
  have empty : DistinctNames .initial := List.nodup_nil
  have clear : DistinctNames plan ↔ Clear compileExpressionCpu groupBy aggregates := by
    rw [distinct, keysDistinct, and_iff_right empty, Clear]
    refine and_congr_right (fun _ => ⟨fun isClear other otherKeys otherRan => ?_, fun every => every _ _ keysRan⟩)
    obtain ⟨rfl, rfl⟩ := Prod.mk.inj (Except.ok.inj (keysRan.symm.trans otherRan))
    exact isClear
  refine ⟨fun resolves => clear.mp resolves.distinct, fun isClear => ?_⟩
  have distinctNames : (plan.projections.map Prod.fst).Nodup := clear.mpr isClear
  exact ⟨distinctNames, named.imp (fun _ _ member => finds_of_mem distinctNames member),
    areCalls.imp (fun _ _ isCall => findsTarget_of_callOf distinctNames isCall)⟩

/-! ## Names that are not reserved -/

/-- A name that can be handed out. -/
def Reserved (name : String) : Prop :=
  ∃ number : Nat, name = "__kernellake_agg_input_" ++ toString number

/-- A column comes with its own name. -/
def ColumnUnreserved : Expression → Prop
  | .column name _ _ => ¬ Reserved name
  | _ => True

/-- A key comes with the name of its column, or with its output's name. -/
def KeyUnreserved (item : NamedExpression) : Prop :=
  match item.expr with
  | .column name _ _ => ¬ Reserved name
  | _ => ¬ Reserved item.name

def ArgumentUnreserved (item : NamedExpression) : Prop :=
  match item.expr with
  | .aggregate _ argument _ => ColumnUnreserved argument
  | _ => True

/-- Of the reserved names only those that were handed out are claimed. -/
def ClaimsHandedOut (plan : AggregateInputPlan) : Prop :=
  ∀ name ∈ plan.claimedNames, Reserved name → HandedOut plan name

section Unreserved

variable {plan next : AggregateInputPlan}

theorem nextClear_of_claims (claims : ClaimsHandedOut plan) : NextClear plan :=
  fun claimed => next_not_handedOut plan (claims _ claimed ⟨plan.nextSyntheticId, rfl⟩)

theorem not_handedOut_of_unreserved {name : String} (unreserved : ¬ Reserved name) : ¬ HandedOut plan name :=
  fun ⟨earlier, _, same⟩ => unreserved ⟨earlier, same⟩

theorem ensureColumnProjected_claims (claims : ClaimsHandedOut plan) {columnName : String}
    (unreserved : ¬ Reserved columnName) (columnIndex : Nat) :
    ColumnClear plan columnName columnIndex ∧
      ClaimsHandedOut (ensureColumnProjected plan columnName columnIndex).1 := by
  constructor
  · intro _
    split
    · exact nextClear_of_claims claims
    · exact not_handedOut_of_unreserved unreserved
  · unfold ensureColumnProjected
    cases recorded : plan.projectedIndexToName.lookup columnIndex with
    | some name => exact claims
    | none =>
      dsimp only
      intro name member reserved
      split at member
      · rename_i claimed
        simp only [if_pos claimed]
        refine (handedOut_next rfl).mpr ?_
        rcases List.mem_cons.mp member with same | before
        · exact .inr same
        · exact .inl (claims name before reserved)
      · rename_i unclaimed
        simp only [if_neg unclaimed]
        rcases List.mem_cons.mp member with rfl | before
        · exact absurd reserved unreserved
        · exact claims name before reserved

variable {compileExpressionCpu : Expression → Except String Unit}

theorem translateKey_claims (claims : ClaimsHandedOut plan) {item : NamedExpression}
    (unreserved : KeyUnreserved item) : KeyClear plan item ∧
      ∀ next name, translateKey compileExpressionCpu plan item = .ok (next, name) → ClaimsHandedOut next := by
  obtain ⟨expr, ownName⟩ := item
  cases expr with
  | column columnName index type =>
    obtain ⟨clear, columnClaims⟩ := ensureColumnProjected_claims claims unreserved index
    refine ⟨clear, fun next name ran => ?_⟩
    obtain ⟨rfl, rfl⟩ := Prod.mk.inj (Except.ok.inj ran)
    exact columnClaims
  | _ =>
    refine ⟨not_handedOut_of_unreserved unreserved, fun next name ran => ?_⟩
    simp only [translateKey] at ran
    by_cases claimed : plan.claimedNames.contains ownName = true
    · rw [if_pos claimed] at ran
      cases ran
    · rw [if_neg claimed] at ran
      obtain ⟨_, _, projected⟩ := bind_eq_ok.mp ran
      obtain ⟨rfl, rfl⟩ := Prod.mk.inj (Except.ok.inj projected)
      intro other member reserved
      rcases List.mem_cons.mp member with rfl | before
      · exact absurd reserved unreserved
      · exact claims other before reserved

theorem resolveAggregateTarget_claims (claims : ClaimsHandedOut plan) {expr : Expression}
    (unreserved : ColumnUnreserved expr) : TargetClear plan expr ∧
      ∀ next name, resolveAggregateTarget compileExpressionCpu plan expr = .ok (next, name) →
        ClaimsHandedOut next := by
  cases expr with
  | column columnName index type =>
    obtain ⟨clear, columnClaims⟩ := ensureColumnProjected_claims claims unreserved index
    refine ⟨clear, fun next name ran => ?_⟩
    obtain ⟨rfl, rfl⟩ := Prod.mk.inj (Except.ok.inj ran)
    exact columnClaims
  | _ =>
    refine ⟨nextClear_of_claims claims, fun next name ran => ?_⟩
    simp only [resolveAggregateTarget, bind_eq_ok] at ran
    obtain ⟨_, _, projected⟩ := ran
    obtain ⟨rfl, rfl⟩ := Prod.mk.inj (Except.ok.inj projected)
    intro other member reserved
    exact (handedOut_next rfl).mpr (.inl (claims other member reserved))

theorem translateAggregate_claims (claims : ClaimsHandedOut plan) {item : NamedExpression}
    (unreserved : ArgumentUnreserved item) : AggregateClear plan item ∧
      ∀ next call, translateAggregate compileExpressionCpu plan item = .ok (next, call) →
        ClaimsHandedOut next := by
  obtain ⟨expr, ownName⟩ := item
  cases expr with
  | countStar type =>
    refine ⟨trivial, fun next call ran => ?_⟩
    obtain ⟨rfl, rfl⟩ := Prod.mk.inj (Except.ok.inj ran)
    exact claims
  | aggregate function argument type =>
    obtain ⟨clear, targetClaims⟩ := resolveAggregateTarget_claims claims unreserved
    refine ⟨clear, fun next call ran => ?_⟩
    simp only [translateAggregate, bind_eq_ok] at ran
    obtain ⟨⟨resolved, name⟩, targetRan, projected⟩ := ran
    obtain ⟨rfl, rfl⟩ := Prod.mk.inj (Except.ok.inj projected)
    exact targetClaims resolved name targetRan
  | _ => exact ⟨trivial, fun next call ran => by cases ran⟩

theorem translateEach_claims {α : Type}
    {translate : AggregateInputPlan → NamedExpression → Except String (AggregateInputPlan × α)}
    {clear : AggregateInputPlan → NamedExpression → Prop} {unreserved : NamedExpression → Prop}
    (each : ∀ plan item, ClaimsHandedOut plan → unreserved item →
      clear plan item ∧ ∀ next result, translate plan item = .ok (next, result) → ClaimsHandedOut next)
    {items : List NamedExpression} {plan : AggregateInputPlan} (claims : ClaimsHandedOut plan)
    (allUnreserved : ∀ item ∈ items, unreserved item) : EachClear translate clear plan items ∧
      ∀ next results, translateEach translate plan items = .ok (next, results) → ClaimsHandedOut next := by
  induction items generalizing plan with
  | nil =>
    refine ⟨trivial, fun next results ran => ?_⟩
    obtain ⟨rfl, rfl⟩ := Prod.mk.inj (Except.ok.inj ran)
    exact claims
  | cons item items hypothesis =>
    obtain ⟨first, others⟩ := List.forall_mem_cons.mp allUnreserved
    obtain ⟨clearFirst, kept⟩ := each plan item claims first
    refine ⟨⟨clearFirst, fun next result ran => (hypothesis (kept next result ran) others).1⟩, ?_⟩
    intro next results ran
    simp only [translateEach, bind_eq_ok] at ran
    obtain ⟨⟨middle, result⟩, firstRan, ⟨last, rest⟩, restRan, built⟩ := ran
    obtain ⟨rfl, rfl⟩ := Prod.mk.inj (Except.ok.inj built)
    exact (hypothesis (kept middle result firstRan) others).2 last rest restRan

/-- Where no column and no key has a reserved name, everything is clear. -/
theorem clear_of_unreserved {groupBy aggregates : List NamedExpression}
    (keys : ∀ item ∈ groupBy, KeyUnreserved item) (arguments : ∀ item ∈ aggregates, ArgumentUnreserved item) :
    Clear compileExpressionCpu groupBy aggregates := by
  have start : ClaimsHandedOut .initial := List.forall_mem_nil _
  obtain ⟨keysClear, keysClaims⟩ :=
    translateEach_claims (fun _ _ claims => translateKey_claims claims) start keys
  refine ⟨keysClear, fun plan names keysRan => ?_⟩
  exact (translateEach_claims (fun _ _ claims => translateAggregate_claims claims)
    (keysClaims plan names keysRan) arguments).1

end Unreserved

/-- A sum of a computed argument, which gets the first name that is handed out. -/
def doubledSum : NamedExpression :=
  ⟨.aggregate .sum (.binary .add (.column "sales" 1 (int64Type true)) (.column "sales" 1 (int64Type true))
    (int64Type true)) (int64Type true), "doubled"⟩

def regionKey : NamedExpression :=
  ⟨.column "region" 0 (int64Type false), "region"⟩

theorem names_resolve_iff_doubled :
    ∃ declaration, AggregateBackends.translate (fun _ => .ok ()) [regionKey] [doubledSum] = .ok declaration ∧
      Resolves [regionKey] [doubledSum] declaration := by
  have accepted : AggregateBackends.translate (fun _ => .ok ()) [regionKey] [doubledSum] = .ok _ := rfl
  refine ⟨_, accepted, (names_resolve_iff accepted).mpr (clear_of_unreserved ?_ ?_)⟩
  · refine List.forall_mem_singleton.mpr ?_
    rintro ⟨number, same⟩
    have first := congrArg (fun name => name.toList.head?) same
    simp [String.toList_append] at first
  · exact List.forall_mem_singleton.mpr trivial

/-- A key of the name that the argument gets. -/
def reservedKey : NamedExpression :=
  ⟨.column "__kernellake_agg_input_0" 0 (int64Type false), "__kernellake_agg_input_0"⟩

theorem reserved_key_collides : ¬ ∀ compileExpressionCpu groupBy aggregates declaration,
    AggregateBackends.translate compileExpressionCpu groupBy aggregates = .ok declaration →
      Resolves groupBy aggregates declaration := by
  intro resolves
  have distinct := (resolves (fun _ => .ok ()) [reservedKey] [doubledSum] _ rfl).distinct
  exact absurd distinct (by decide)

end KernelLake.AggregateInputNames
