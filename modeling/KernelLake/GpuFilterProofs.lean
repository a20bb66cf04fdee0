import KernelLake.GpuFilterConjuncts

/-!
The filter operator keeps the rows on which its predicate is true.

Every conjunct ends up in one part of the mask (`gathered_parts`), and the mask of a row is known, or
true, when all parts are (`rowMask_parts`): no part stands under a `NOT`, so it does not matter that the
parts meet in an `AND` that passes missing values on. What is left is the cast of the bounds of a slice
to 32 bits, which does no harm to slices that end below 2^31 (`filter_keeps_of_bounds`).
-/

namespace KernelLake.GpuFilterProofs

open KernelLake.Types KernelLake.Expressions KernelLake.BoundTypes KernelLake.BoundQueryTypes
open KernelLake.ExpressionCompilers KernelLake.ExpressionCompilerProofs KernelLake.GpuFilters
open KernelLake.GpuFilterConjuncts
open KernelLake.Library.Results

/-! ## The parts of a mask -/

section Parts

variable {cudf : Gpu.Cudf} {strings : CudfStrings} {row : List Datum}

theorem foldEquals_contains {literals : List String} (someLiteral : literals ≠ []) (substring : Option String) :
    foldEquals substring literals = substring.map literals.contains := by
  have single (literal : String) : (fun text : String => text == literal) = [literal].contains := by
    funext text
    rw [List.contains_cons, List.contains_nil, Bool.or_false]
  have folded : ∀ (literals seen : List String),
      literals.foldl (fun mask literal => kleeneOr mask (substring.map (· == literal)))
        (substring.map seen.contains) = substring.map (seen ++ literals).contains := by
    intro literals
    induction literals with
    | nil =>
      intro seen
      rw [List.append_nil]
      rfl
    | cons literal literals hypothesis =>
      intro seen
      rw [List.foldl_cons, single, kleeneOr_contains, hypothesis, List.append_assoc, List.singleton_append]
  cases literals with
  | nil => exact absurd rfl someLiteral
  | cons first literals =>
    rw [foldEquals, single]
    exact folded literals [first]

/-- A `LIKE` that was taken out has the value it had in its place. -/
theorem evaluateLike_truth {value : Expression} {source : Source} (compiled : compileSource value = .ok source)
    (pattern : String) (negated : Bool) :
    evaluateLike cudf strings row ⟨source, pattern, negated⟩ = truth cudf row (.like value pattern negated) := by
  unfold evaluateLike truth
  rw [evaluate_source cudf row compiled, meaning]
  simp only [strings.like_documented]
  cases meaning cudf row value with
  | error message => rfl
  | ok datum =>
    change (textOf datum >>= _) = ((textOf datum >>= _) >>= _)
    cases textOf datum <;> rfl

theorem evaluateSubstringIn_truth {shape : SubstringIn} (someLiteral : shape.literals ≠ [])
    {conjunct : CompiledSubstringInConjunct} (compiled : compileSubstringIn shape = .ok conjunct) :
    evaluateSubstringIn cudf strings row conjunct =
      inTruth cudf row (sliced strings (shape.start - 1) shape.length) shape := by
  simp only [compileSubstringIn, bind_eq_ok, pure_eq_ok] at compiled
  obtain ⟨source, isSource, rfl⟩ := compiled
  unfold evaluateSubstringIn inTruth textIn
  rw [evaluate_source cudf row isSource]
  simp only [foldEquals_contains someLiteral]
  cases meaning cudf row shape.operand with
  | error message => rfl
  | ok datum =>
    change (textOf datum >>= _) = (textOf datum >>= _)
    cases textOf datum with
    | error message => rfl
    | ok found =>
      cases found <;> cases shape.negated <;> simp [pure, Except.pure, bind, Except.bind]

/-- What the operator makes of a conjunct: the bounds of a recognised `SUBSTRING` are narrowed. -/
def enforcedTruth (cudf : Gpu.Cudf) (strings : CudfStrings) (row : List Datum) (conjunct : Expression) :
    Except String (Option Bool) :=
  match substringIn conjunct with
  | some shape => inTruth cudf row (sliced strings (shape.start - 1) shape.length) shape
  | none => truth cudf row conjunct

/-- The masks of everything gathered. -/
def partsOf (cudf : Gpu.Cudf) (strings : CudfStrings) (row : List Datum) (gathered : Gathered) :
    List (Except String (Option Bool)) :=
  gathered.likes.map (evaluateLike cudf strings row) ++
    (gathered.substringIns.map (evaluateSubstringIn cudf strings row) ++ gathered.ast.map (truth cudf row))

theorem gather_parts {gathered gathered' : Gathered} {conjunct : Expression}
    (ran : gather gathered conjunct = .ok gathered') :
    (partsOf cudf strings row gathered').Perm
        (partsOf cudf strings row gathered ++ [enforcedTruth cudf strings row conjunct]) ∧
      ∀ part ∈ gathered'.ast, part ∈ gathered.ast ∨ part = conjunct := by
  unfold gather at ran
  split at ran
  · rename_i value pattern negated
    simp only [bind_eq_ok, pure_eq_ok] at ran
    obtain ⟨source, compiled, rfl⟩ := ran
    have enforced : enforcedTruth cudf strings row (.like value pattern negated) =
        evaluateLike cudf strings row ⟨source, pattern, negated⟩ := (evaluateLike_truth compiled pattern negated).symm
    refine ⟨?_, fun part member => .inl member⟩
    rw [enforced, partsOf, partsOf, List.map_append, List.append_assoc, List.append_assoc]
    exact List.perm_append_comm.append_left _
  · rename_i notLike
    cases recognised : substringIn conjunct with
    | some shape =>
      simp only [recognised, bind_eq_ok, pure_eq_ok] at ran
      obtain ⟨compiled, isCompiled, rfl⟩ := ran
      obtain ⟨_, _, someLiteral, _⟩ := substringIn_eq_some recognised
      have enforced : enforcedTruth cudf strings row conjunct = evaluateSubstringIn cudf strings row compiled := by
        rw [enforcedTruth, recognised, evaluateSubstringIn_truth someLiteral isCompiled]
      refine ⟨?_, fun part member => .inl member⟩
      rw [enforced, partsOf, partsOf, List.map_append, List.append_assoc, List.append_assoc, List.append_assoc]
      exact (List.perm_append_comm.append_left _).append_left _
    | none =>
      simp only [recognised, Except.ok.injEq] at ran
      rw [← ran]
      have enforced : enforcedTruth cudf strings row conjunct = truth cudf row conjunct := by
        rw [enforcedTruth, recognised]
      refine ⟨?_, fun part member => ?_⟩
      · rw [enforced, partsOf, partsOf, List.map_append, List.append_assoc, List.append_assoc]
        exact .refl _
      · rcases List.mem_append.mp member with before | isPart
        · exact .inl before
        · exact .inr (List.mem_singleton.mp isPart)

/-- Gathering takes every conjunct into one part. -/
theorem gathered_parts {conjuncts : List Expression} {gathered gathered' : Gathered}
    (ran : conjuncts.foldlM gather gathered = .ok gathered') :
    (partsOf cudf strings row gathered').Perm
        (partsOf cudf strings row gathered ++ conjuncts.map (enforcedTruth cudf strings row)) ∧
      ∀ part ∈ gathered'.ast, part ∈ gathered.ast ∨ part ∈ conjuncts := by
  induction conjuncts generalizing gathered with
  | nil =>
    cases ran
    exact ⟨.of_eq (List.append_nil _).symm, fun part member => .inl member⟩
  | cons conjunct conjuncts hypothesis =>
    rw [List.foldlM_cons, bind_eq_ok] at ran
    obtain ⟨middle, first, rest⟩ := ran
    obtain ⟨parts, asts⟩ := @gather_parts cudf strings row _ _ _ first
    obtain ⟨restParts, restAsts⟩ := hypothesis rest
    refine ⟨restParts.trans ?_, fun part member => ?_⟩
    · rw [List.map_cons, ← List.singleton_append, ← List.append_assoc]
      exact parts.append_right _
    · rcases restAsts part member with before | isPart
      · rcases asts part before with earlier | rfl
        · exact .inl earlier
        · exact .inr (List.mem_cons_self ..)
      · exact .inr (List.mem_cons_of_mem _ isPart)

theorem logicalAnd_true {left right : Option Bool} :
    logicalAnd left right = some true ↔ left = some true ∧ right = some true := by
  rcases left with _ | _ | _ <;> rcases right with _ | _ | _ <;> decide

/-- Masks meet in a true one when all of them are true. -/
theorem foldl_meet {masks : List (Option Bool)} {mask : Option (Option Bool)} :
    ((∃ value, masks.foldl meet mask = some value) ↔ mask.toList ++ masks ≠ []) ∧
      (masks.foldl meet mask = some (some true) ↔
        mask.toList ++ masks ≠ [] ∧ ∀ part ∈ mask.toList ++ masks, part = some true) := by
  induction masks generalizing mask with
  | nil => cases mask <;> simp
  | cons other masks hypothesis =>
    obtain ⟨known, isTrue⟩ := @hypothesis (meet mask other)
    rw [List.foldl_cons, known, isTrue]
    cases mask with
    | none => simp [meet]
    | some mask =>
      simp only [meet, Option.toList_some, List.singleton_append, ne_eq, reduceCtorEq, not_false_eq_true,
        true_and, List.forall_mem_cons, logicalAnd_true, and_assoc]

/-- The tree of the gathered conjuncts evaluates to their conjunction. -/
theorem evaluate_compileAst (documented : ComparesToBoolean cudf) {conjuncts : List Expression}
    {ast : Option Gpu.AstExpression} (compiled : compileAst conjuncts = .ok ast)
    (each : ∀ conjunct ∈ conjuncts, Reads row conjunct) :
    let mask := ast.mapM (fun tree => do truthOf (← Gpu.evaluate cudf (Gpu.tablesOf none row) tree))
    ((∃ value, mask = .ok value) ↔ ∀ conjunct ∈ conjuncts, ∃ value, truth cudf row conjunct = .ok value) ∧
      (∀ value, mask = .ok value → (value = none ↔ conjuncts = []) ∧
        ((∀ part ∈ value.toList, part = some true) ↔
          ∀ conjunct ∈ conjuncts, truth cudf row conjunct = .ok (some true))) := by
  cases conjuncts with
  | nil =>
    cases compiled
    refine ⟨by simp [pure, Except.pure], fun value ran => ?_⟩
    cases ran
    simp
  | cons first conjuncts =>
    simp only [compileAst, bind_eq_ok, pure_eq_ok] at compiled
    obtain ⟨tree, isTree, rfl⟩ := compiled
    have whole := conjunction_andTogether documented each
    have evaluated : (do truthOf (← Gpu.evaluate cudf (Gpu.tablesOf none row) tree)) =
        truth cudf row (andTogether first conjuncts) := by
      rw [evaluate_compiled cudf row _ tree isTree, truth]
    intro mask
    have isMask : mask = some <$> truth cudf row (andTogether first conjuncts) := by
      rw [← evaluated]
      rfl
    rw [← whole.known, ← whole.isTrue, isMask]
    cases truth cudf row (andTogether first conjuncts) with
    | error message => simp [Functor.map, Except.map]
    | ok value => simp [Functor.map, Except.map]

theorem mapM_known {α β : Type} {action : α → Except String β} {inputs : List α} :
    (∃ results, inputs.mapM action = .ok results) ↔ ∀ input ∈ inputs, ∃ result, action input = .ok result := by
  constructor
  · rintro ⟨results, ran⟩ input member
    obtain ⟨result, _, isResult⟩ := exists_of_mem_left (mapM_eq_ok.mp ran) member
    exact ⟨result, isResult⟩
  · exact exists_mapM

theorem mapM_all {α β : Type} {action : α → Except String β} {inputs : List α} {results : List β}
    (ran : inputs.mapM action = .ok results) (wanted : β) :
    (∀ result ∈ results, result = wanted) ↔ ∀ input ∈ inputs, action input = .ok wanted := by
  have each := mapM_eq_ok.mp ran
  constructor
  · intro all input member
    obtain ⟨result, isResult, same⟩ := exists_of_mem_left each member
    rw [same, all result isResult]
  · intro all result member
    obtain ⟨input, isInput, same⟩ := exists_of_mem_right each member
    exact (Except.ok.inj ((all input isInput).symm.trans same)).symm

/-- The mask of a row is known when every part is, and true when every part is. -/
theorem rowMask_parts (documented : ComparesToBoolean cudf) {gathered : Gathered}
    {ast : Option Gpu.AstExpression} (compiled : compileAst gathered.ast = .ok ast)
    (each : ∀ conjunct ∈ gathered.ast, Reads row conjunct) (somePart : partsOf cudf strings row gathered ≠ []) :
    ((∃ value, rowMask cudf strings ⟨ast, gathered.likes, gathered.substringIns⟩ row = .ok value) ↔
        ∀ part ∈ partsOf cudf strings row gathered, ∃ value, part = .ok value) ∧
      (rowMask cudf strings ⟨ast, gathered.likes, gathered.substringIns⟩ row = .ok (some true) ↔
        ∀ part ∈ partsOf cudf strings row gathered, part = .ok (some true)) := by
  obtain ⟨astKnown, astValue⟩ := evaluate_compileAst documented compiled each
  have ran (value : Option Bool) :
      rowMask cudf strings ⟨ast, gathered.likes, gathered.substringIns⟩ row = .ok value ↔
        ∃ first, ast.mapM (fun tree => do truthOf (← Gpu.evaluate cudf (Gpu.tablesOf none row) tree)) = .ok first ∧
          ∃ likes, gathered.likes.mapM (evaluateLike cudf strings row) = .ok likes ∧
            ∃ ins, gathered.substringIns.mapM (evaluateSubstringIn cudf strings row) = .ok ins ∧
              (likes ++ ins).foldl meet first = some value := by
    simp only [rowMask, bind_eq_ok]
    refine exists_congr fun first => and_congr_right fun _ => exists_congr fun likes =>
      and_congr_right fun _ => exists_congr fun ins => and_congr_right fun _ => ?_
    cases (likes ++ ins).foldl meet first with
    | none => simp
    | some mask => simp
  have met {first : Option (Option Bool)} {likes ins : List (Option Bool)}
      (firstRan : ast.mapM (fun tree => do truthOf (← Gpu.evaluate cudf (Gpu.tablesOf none row) tree)) = .ok first)
      (likesRan : gathered.likes.mapM (evaluateLike cudf strings row) = .ok likes)
      (insRan : gathered.substringIns.mapM (evaluateSubstringIn cudf strings row) = .ok ins) :
      first.toList ++ (likes ++ ins) ≠ [] ∧
        ((∀ part ∈ first.toList ++ (likes ++ ins), part = some true) ↔
          ∀ part ∈ partsOf cudf strings row gathered, part = .ok (some true)) := by
    obtain ⟨isNone, allTrue⟩ := astValue first firstRan
    constructor
    · intro nothing
      obtain ⟨noAst, noOthers⟩ := List.append_eq_nil_iff.mp nothing
      obtain ⟨noLikes, noIns⟩ := List.append_eq_nil_iff.mp noOthers
      have likesNil : gathered.likes = [] := by
        have same := (mapM_eq_ok.mp likesRan).length_eq
        rw [noLikes] at same
        exact List.length_eq_zero_iff.mp same
      have insNil : gathered.substringIns = [] := by
        have same := (mapM_eq_ok.mp insRan).length_eq
        rw [noIns] at same
        exact List.length_eq_zero_iff.mp same
      have astNil : gathered.ast = [] := isNone.mp (by simpa using noAst)
      exact somePart (by rw [partsOf, likesNil, insNil, astNil]; rfl)
    · simp only [partsOf, List.forall_mem_append, List.forall_mem_map]
      rw [allTrue, mapM_all likesRan, mapM_all insRan]
      tauto
  constructor
  · simp only [partsOf, List.forall_mem_append, List.forall_mem_map]
    rw [← astKnown, ← mapM_known, ← mapM_known]
    constructor
    · rintro ⟨value, masked⟩
      obtain ⟨first, firstRan, likes, likesRan, ins, insRan, _⟩ := (ran value).mp masked
      exact ⟨⟨likes, likesRan⟩, ⟨ins, insRan⟩, ⟨first, firstRan⟩⟩
    · rintro ⟨⟨likes, likesRan⟩, ⟨ins, insRan⟩, ⟨first, firstRan⟩⟩
      obtain ⟨value, isValue⟩ := foldl_meet.1.mpr (met firstRan likesRan insRan).1
      exact ⟨value, (ran value).mpr ⟨first, firstRan, likes, likesRan, ins, insRan, isValue⟩⟩
  · rw [ran]
    constructor
    · rintro ⟨first, firstRan, likes, likesRan, ins, insRan, isTrue⟩
      exact (met firstRan likesRan insRan).2.mp (foldl_meet.2.mp isTrue).2
    · intro all
      have known := all
      simp only [partsOf, List.forall_mem_append, List.forall_mem_map] at known
      obtain ⟨likesTrue, insTrue, astTrue⟩ := known
      obtain ⟨first, firstRan⟩ := astKnown.mpr (fun conjunct member => ⟨_, astTrue conjunct member⟩)
      obtain ⟨likes, likesRan⟩ := mapM_known.mpr (fun like member => ⟨_, likesTrue like member⟩)
      obtain ⟨ins, insRan⟩ := mapM_known.mpr (fun conjunct member => ⟨_, insTrue conjunct member⟩)
      obtain ⟨some, allTrue⟩ := met firstRan likesRan insRan
      exact ⟨first, firstRan, likes, likesRan, ins, insRan, foldl_meet.2.mpr ⟨some, allTrue.mpr all⟩⟩

end Parts

/-! ## Batches -/

/-- The recognised conjuncts of a predicate. -/
def inConjuncts (predicate : Expression) : List SubstringIn :=
  (flattenAnd predicate).filterMap substringIn

def otherConjuncts (predicate : Expression) : List Expression :=
  (flattenAnd predicate).filter (fun conjunct => (substringIn conjunct).isNone)

/-- A truth value that is known and true. -/
def holds : Except String (Option Bool) → Bool
  | .ok (some true) => true
  | _ => false

/-- The operator succeeds on a batch just where the whole predicate has a truth value on every row, and
keeps the rows on which it is true, in their order. -/
def KeepsTrueRows (cudf : Gpu.Cudf) (strings : CudfStrings) (predicate : Expression) (operator : FilterOperator)
    (batch : List (List Datum)) : Prop :=
  ∀ kept, filterBatch cudf strings operator batch = .ok kept ↔
    (∀ row ∈ batch, ∃ value, truth cudf row predicate = .ok value) ∧
      kept = batch.filter (fun row => holds (truth cudf row predicate))

/-- Where all other conjuncts are true on a row, the recognised ones are true with the bounds of their
slices narrowed to 32 bits exactly if they are with the bounds as written. -/
def NarrowsHarmlessly (cudf : Gpu.Cudf) (strings : CudfStrings) (predicate : Expression) (row : List Datum) : Prop :=
  (∀ conjunct ∈ otherConjuncts predicate, truth cudf row conjunct = .ok (some true)) →
    ((∀ shape ∈ inConjuncts predicate,
        inTruth cudf row (sliced strings (shape.start - 1) shape.length) shape = .ok (some true)) ↔
      ∀ shape ∈ inConjuncts predicate,
        inTruth cudf row (substringText (shape.start - 1) shape.length) shape = .ok (some true))

theorem holds_iff {value : Except String (Option Bool)} : holds value = true ↔ value = .ok (some true) := by
  unfold holds
  split
  · simp
  · rename_i other
    simp only [Bool.false_eq_true, false_iff]
    exact other

theorem gather_compiles {conjuncts : List Expression} {gathered gathered' : Gathered}
    (ran : conjuncts.foldlM gather gathered = .ok gathered') :
    ∀ conjunct ∈ conjuncts, ∀ shape, substringIn conjunct = some shape →
      ∃ source, compileSource shape.operand = .ok source := by
  induction conjuncts generalizing gathered with
  | nil => exact fun _ member => by cases member
  | cons conjunct conjuncts hypothesis =>
    rw [List.foldlM_cons, bind_eq_ok] at ran
    obtain ⟨middle, first, rest⟩ := ran
    refine List.forall_mem_cons.mpr ⟨fun shape recognised => ?_, hypothesis rest⟩
    unfold gather at first
    split at first
    · cases recognised
    · simp only [recognised, bind_eq_ok, compileSubstringIn] at first
      obtain ⟨_, ⟨source, compiled, _⟩, _⟩ := first
      exact ⟨source, compiled⟩

section Batches

variable {cudf : Gpu.Cudf} {strings : CudfStrings}

theorem flatten_ne_nil (op : BinaryOperator) (expression : Expression) : flatten op expression ≠ [] := by
  fun_induction flatten op expression with
  | case1 left right type leftIH rightIH => exact fun nothing => leftIH (List.append_eq_nil_iff.mp nothing).1
  | case2 => exact List.cons_ne_nil _ _
  | case3 => exact List.cons_ne_nil _ _

theorem inTruth_known {row : List Datum} (part : String → String) (shape : SubstringIn) :
    (∃ value, inTruth cudf row part shape = .ok value) ↔ ∃ text, textIn cudf row shape.operand = .ok text := by
  unfold inTruth
  cases textIn cudf row shape.operand with
  | error message => simp [bind, Except.bind]
  | ok text => simp [bind, Except.bind, pure, Except.pure]

/-- Narrowing changes what a conjunct's value is, not whether it has one. -/
theorem enforcedTruth_known (documented : ComparesToBoolean cudf) {conjunct : Expression} {row : List Datum}
    (reads : Reads row conjunct)
    (compiles : ∀ shape, substringIn conjunct = some shape → ∃ source, compileSource shape.operand = .ok source) :
    (∃ value, enforcedTruth cudf strings row conjunct = .ok value) ↔ ∃ value, truth cudf row conjunct = .ok value := by
  unfold enforcedTruth
  cases recognised : substringIn conjunct with
  | none => exact Iff.rfl
  | some shape =>
    obtain ⟨source, compiled⟩ := compiles shape recognised
    simp only [truth_substringIn documented reads recognised compiled, inTruth_known]

/-- The mask of a row and the truth value of the predicate. -/
theorem rowMask_opened (documented : ComparesToBoolean cudf) {predicate : Expression} {row : List Datum}
    (reads : Reads row predicate) {operator : FilterOperator} (opened : openFilter predicate = .ok operator) :
    ((∃ value, rowMask cudf strings operator row = .ok value) ↔ ∃ value, truth cudf row predicate = .ok value) ∧
      (rowMask cudf strings operator row = .ok (some true) ↔
        ∀ conjunct ∈ flattenAnd predicate, enforcedTruth cudf strings row conjunct = .ok (some true)) := by
  simp only [openFilter, bind_eq_ok, pure_eq_ok] at opened
  obtain ⟨gathered, ran, ast, compiled, rfl⟩ := opened
  have conjunctsRead : ∀ conjunct ∈ flattenAnd predicate, Reads row conjunct := reads_flatten rfl reads
  obtain ⟨parts, asts⟩ := @gathered_parts cudf strings row _ _ _ ran
  rw [show partsOf cudf strings row ⟨[], [], []⟩ = [] from rfl, List.nil_append] at parts
  have astReads : ∀ conjunct ∈ gathered.ast, Reads row conjunct := fun conjunct member =>
    conjunctsRead conjunct ((asts conjunct member).resolve_left (by simp))
  have somePart : partsOf cudf strings row gathered ≠ [] := by
    intro nothing
    rw [nothing] at parts
    exact flatten_ne_nil .and predicate (List.map_eq_nil_iff.mp parts.nil_eq.symm)
  have overParts (wanted : Except String (Option Bool) → Prop) :
      (∀ part ∈ partsOf cudf strings row gathered, wanted part) ↔
        ∀ conjunct ∈ flattenAnd predicate, wanted (enforcedTruth cudf strings row conjunct) := by
    constructor
    · exact fun each conjunct member => each _ (parts.mem_iff.mpr (List.mem_map_of_mem member))
    · intro each part member
      obtain ⟨conjunct, isConjunct, rfl⟩ := List.mem_map.mp (parts.mem_iff.mp member)
      exact each conjunct isConjunct
  obtain ⟨known, isTrue⟩ := rowMask_parts documented compiled astReads somePart
  rw [known, isTrue, overParts, overParts, (conjunction_flattenAnd documented reads).known]
  refine ⟨forall₂_congr fun conjunct member => ?_, Iff.rfl⟩
  exact enforcedTruth_known documented (conjunctsRead conjunct member) (gather_compiles ran conjunct member)

/-- Everything enforced, split into the recognised conjuncts and the others. -/
theorem forall_enforced {predicate : Expression} {row : List Datum} :
    (∀ conjunct ∈ flattenAnd predicate, enforcedTruth cudf strings row conjunct = .ok (some true)) ↔
      (∀ conjunct ∈ otherConjuncts predicate, truth cudf row conjunct = .ok (some true)) ∧
        ∀ shape ∈ inConjuncts predicate,
          inTruth cudf row (sliced strings (shape.start - 1) shape.length) shape = .ok (some true) := by
  unfold otherConjuncts inConjuncts
  simp only [List.mem_filter, List.mem_filterMap, Option.isNone_iff_eq_none]
  constructor
  · intro each
    constructor
    · rintro conjunct ⟨member, other⟩
      have value := each conjunct member
      rwa [enforcedTruth, other] at value
    · rintro shape ⟨conjunct, member, recognised⟩
      have value := each conjunct member
      rwa [enforcedTruth, recognised] at value
  · rintro ⟨others, ins⟩ conjunct member
    unfold enforcedTruth
    cases recognised : substringIn conjunct with
    | none => exact others conjunct ⟨member, recognised⟩
    | some shape => exact ins shape ⟨conjunct, member, recognised⟩

/-- The predicate's truth, split in the same way. -/
theorem truth_split (documented : ComparesToBoolean cudf) {predicate : Expression} {row : List Datum}
    (reads : Reads row predicate) {operator : FilterOperator} (opened : openFilter predicate = .ok operator) :
    truth cudf row predicate = .ok (some true) ↔
      (∀ conjunct ∈ otherConjuncts predicate, truth cudf row conjunct = .ok (some true)) ∧
        ∀ shape ∈ inConjuncts predicate,
          inTruth cudf row (substringText (shape.start - 1) shape.length) shape = .ok (some true) := by
  simp only [openFilter, bind_eq_ok, pure_eq_ok] at opened
  obtain ⟨gathered, ran, _⟩ := opened
  have inPlace : ∀ conjunct ∈ flattenAnd predicate, ∀ shape, substringIn conjunct = some shape →
      truth cudf row conjunct = inTruth cudf row (substringText (shape.start - 1) shape.length) shape := by
    intro conjunct member shape recognised
    obtain ⟨source, compiled⟩ := gather_compiles ran conjunct member shape recognised
    exact truth_substringIn documented (reads_flatten rfl reads conjunct member) recognised compiled
  rw [(conjunction_flattenAnd documented reads).isTrue]
  unfold otherConjuncts inConjuncts
  simp only [List.mem_filter, List.mem_filterMap, Option.isNone_iff_eq_none]
  constructor
  · intro each
    constructor
    · exact fun conjunct member => each conjunct member.1
    · rintro shape ⟨conjunct, member, recognised⟩
      rw [← inPlace conjunct member shape recognised]
      exact each conjunct member
  · rintro ⟨others, ins⟩ conjunct member
    cases recognised : substringIn conjunct with
    | none => exact others conjunct ⟨member, recognised⟩
    | some shape =>
      rw [inPlace conjunct member shape recognised]
      exact ins shape ⟨conjunct, member, recognised⟩

theorem filterBatch_eq_ok {operator : FilterOperator} {batch kept : List (List Datum)} :
    filterBatch cudf strings operator batch = .ok kept ↔
      (∀ row ∈ batch, ∃ value, rowMask cudf strings operator row = .ok value) ∧
        kept = batch.filter (fun row => holds (rowMask cudf strings operator row)) := by
  have masked : ∀ {rows : List (List Datum)} {masks : List (Option Bool)},
      List.Forall₂ (fun row mask => rowMask cudf strings operator row = .ok mask) rows masks →
      ((rows.zip masks).filter (fun entry => entry.2 == some true)).map Prod.fst =
        rows.filter (fun row => holds (rowMask cudf strings operator row)) := by
    intro rows masks each
    induction each with
    | nil => rfl
    | @cons row mask rows masks isMask _ hypothesis =>
      rw [List.zip_cons_cons, List.filter_cons, List.filter_cons, isMask]
      rcases mask with _ | _ | _ <;> simp [holds, hypothesis]
  simp only [filterBatch, bind_eq_ok, pure_eq_ok]
  constructor
  · rintro ⟨masks, ran, rfl⟩
    exact ⟨mapM_known.mp ⟨masks, ran⟩, masked (mapM_eq_ok.mp ran)⟩
  · rintro ⟨each, rfl⟩
    obtain ⟨masks, ran⟩ := mapM_known.mpr each
    exact ⟨masks, ran, masked (mapM_eq_ok.mp ran)⟩

/-- Pulling passes over the batches of which nothing is kept. -/
theorem next_eq_some {operator : FilterOperator} {batches rest : List (List (List Datum))}
    {kept : List (List Datum)} :
    next cudf strings operator batches = .ok (some (kept, rest)) ↔
      ∃ skipped batch, batches = skipped ++ batch :: rest ∧
        (∀ empty ∈ skipped, filterBatch cudf strings operator empty = .ok []) ∧
        filterBatch cudf strings operator batch = .ok kept ∧ kept ≠ [] := by
  induction batches with
  | nil => simp [next]
  | cons first batches hypothesis =>
    simp only [next, bind_eq_ok]
    constructor
    · rintro ⟨filtered, ran, pulled⟩
      by_cases nothing : filtered = []
      · subst nothing
        obtain ⟨skipped, batch, rfl, empties, kept⟩ := hypothesis.mp pulled
        exact ⟨first :: skipped, batch, rfl, List.forall_mem_cons.mpr ⟨ran, empties⟩, kept⟩
      · rw [if_neg (by simpa using nothing), pure_eq_ok, Option.some.injEq, Prod.mk.injEq] at pulled
        obtain ⟨rfl, rfl⟩ := pulled
        exact ⟨[], first, rfl, by simp, ran, nothing⟩
    · rintro ⟨skipped, batch, parts, empties, ran, some⟩
      cases skipped with
      | nil =>
        obtain ⟨rfl, rfl⟩ := List.cons.inj parts
        refine ⟨kept, ran, ?_⟩
        rw [if_neg (by simpa using some)]
        rfl
      | cons empty skipped =>
        obtain ⟨rfl, rfl⟩ := List.cons.inj parts
        obtain ⟨isEmpty, others⟩ := List.forall_mem_cons.mp empties
        exact ⟨[], isEmpty, hypothesis.mpr ⟨skipped, batch, rfl, others, ran, some⟩⟩

/-- The operator keeps the rows on which its predicate is true, just where narrowing the bounds of its
slices does no harm. -/
theorem keepsTrueRows_iff (documented : ComparesToBoolean cudf) {predicate : Expression}
    (isPredicate : IsPredicate predicate) {operator : FilterOperator}
    (opened : openFilter predicate = .ok operator) {batch : List (List Datum)}
    (fits : ∀ row ∈ batch, Fits row predicate) :
    KeepsTrueRows cudf strings predicate operator batch ↔
      ((∀ row ∈ batch, ∃ value, truth cudf row predicate = .ok value) →
        ∀ row ∈ batch, NarrowsHarmlessly cudf strings predicate row) := by
  have reads : ∀ row ∈ batch, Reads row predicate := fun row member => ⟨isPredicate, fits row member⟩
  have known : (∀ row ∈ batch, ∃ value, rowMask cudf strings operator row = .ok value) ↔
      ∀ row ∈ batch, ∃ value, truth cudf row predicate = .ok value :=
    forall₂_congr fun row member => (rowMask_opened documented (reads row member) opened).1
  have harmless : ∀ row ∈ batch, (NarrowsHarmlessly cudf strings predicate row ↔
      (holds (rowMask cudf strings operator row) = holds (truth cudf row predicate))) := by
    intro row member
    rw [Bool.eq_iff_iff, holds_iff, holds_iff, (rowMask_opened documented (reads row member) opened).2,
      forall_enforced, truth_split documented (reads row member) opened, and_congr_right_iff]
    exact Iff.rfl
  unfold KeepsTrueRows
  simp only [filterBatch_eq_ok, known]
  constructor
  · intro keeps each row member
    rw [harmless row member]
    have same := ((keeps _).mp ⟨each, rfl⟩).2
    have both := congrArg (row ∈ ·) same
    simp only [List.mem_filter, member, true_and, eq_iff_iff] at both
    exact Bool.eq_iff_iff.mpr both
  · intro narrows kept
    refine and_congr_right fun each => ?_
    have same : batch.filter (fun row => holds (rowMask cudf strings operator row)) =
        batch.filter (fun row => holds (truth cudf row predicate)) :=
      List.filter_congr fun row member => (harmless row member).mp (narrows each row member)
    rw [same]

/-! ## Bounds within 32 bits -/

theorem sliced_of_bounds {start length : Int} (starts : 0 ≤ start) (natural : 0 ≤ length)
    (small : start + length < 2 ^ 31) : sliced strings start length = substringText start length := by
  funext text
  have startBound : (Int32.ofInt start).toInt = start := Int32.toInt_ofInt_of_le (by omega) (by omega)
  have stopBound : (Int32.ofInt (start + length)).toInt = start + length :=
    Int32.toInt_ofInt_of_le (by omega) (by omega)
  rw [sliced, strings.slice_documented _ _ _ (by omega) (by omega), startBound, stopBound, add_sub_cancel_left]

/-- With every slice ending below 2^31 the operator keeps the rows on which its predicate is true. -/
theorem filter_keeps_of_bounds (documented : ComparesToBoolean cudf) {predicate : Expression}
    (isPredicate : IsPredicate predicate) {operator : FilterOperator}
    (opened : openFilter predicate = .ok operator) {batch : List (List Datum)}
    (fits : ∀ row ∈ batch, Fits row predicate)
    (bounds : ∀ shape ∈ inConjuncts predicate,
      1 ≤ shape.start ∧ 0 ≤ shape.length ∧ shape.start - 1 + shape.length < 2 ^ 31) :
    KeepsTrueRows cudf strings predicate operator batch := by
  rw [keepsTrueRows_iff documented isPredicate opened fits]
  intro _ row _ _
  refine forall₂_congr fun shape member => ?_
  obtain ⟨starts, natural, small⟩ := bounds shape member
  rw [sliced_of_bounds (by omega) natural small]

end Batches

/-! ## Two predicates -/

/-- String functions that do nothing with a negative bound. -/
def plainStrings : CudfStrings where
  like pattern text := matchesPattern pattern.toList text.toList
  sliceStrings start stop text :=
    if 0 ≤ start.toInt ∧ start.toInt ≤ stop.toInt then substringText start.toInt (stop.toInt - start.toInt) text
    else ""
  like_documented _ _ := rfl
  slice_documented _ _ _ starts ordered := if_pos ⟨starts, ordered⟩

/-- `SUBSTRING(s, 1, length) = 'abc' AND s LIKE 'a%'` -/
def prefixed (length : Int) : Expression :=
  .binary .and
    (.binary .equal (.substring (.column "s" 0 stringType) 1 length stringType)
      (.literal (.string "abc") (stringType false)) booleanType)
    (.like (.column "s" 0 stringType) "a%" false) booleanType

def prefixedOperator (length : Int) : FilterOperator :=
  ⟨none, [⟨.column 0, "a%", false⟩], [⟨.column 0, 0, length, ["abc"], false⟩]⟩

def abcBatch : List (List Datum) :=
  [[⟨.string, some "abcd"⟩], [⟨.string, none⟩], [⟨.string, some "abc"⟩]]

theorem prefixed_isPredicate (length : Int) : IsPredicate (prefixed length) := by
  refine ⟨⟨rfl, ⟨rfl, rfl⟩, ⟨rfl, rfl, ⟨rfl, rfl, trivial⟩, rfl⟩, rfl, trivial⟩, rfl⟩

theorem abcBatch_fits (length : Int) : ∀ row ∈ abcBatch, Fits row (prefixed length) := by
  have present : ∀ row ∈ abcBatch, ∃ value, row[0]? = some ⟨.string, value⟩ := by
    simp [abcBatch]
  intro row member use isUse
  obtain ⟨value, found⟩ := present row member
  have isColumn : use = ⟨"s", 0, stringType⟩ := by
    simpa [prefixed, BindingProofs.columnUses] using isUse
  subst isColumn
  exact ⟨value, found⟩

theorem plainCudf_compares : ComparesToBoolean plainCudf := by
  intro op comparison left right datum _ _ ran
  cases ran

/-- Of three rows, two of which have a prefix `abc`, the one that is `abc` up to its tenth character is kept. -/
theorem filter_keeps_short :
    KeepsTrueRows plainCudf plainStrings (prefixed 10) (prefixedOperator 10) abcBatch := by
  have opened : openFilter (prefixed 10) = .ok (prefixedOperator 10) := rfl
  refine filter_keeps_of_bounds plainCudf_compares (prefixed_isPredicate 10) opened (abcBatch_fits 10) ?_
  have conjuncts : inConjuncts (prefixed 10) = [⟨.column "s" 0 stringType, 1, 10, ["abc"], false⟩] := rfl
  intro shape member
  rw [conjuncts] at member
  obtain rfl := List.mem_singleton.mp member
  decide

/-- With a length of 2^32 the slice is empty, and the row `abc` is lost. -/
theorem filter_loses_long :
    openFilter (prefixed 4294967296) = .ok (prefixedOperator 4294967296) ∧
      ¬ KeepsTrueRows plainCudf plainStrings (prefixed 4294967296) (prefixedOperator 4294967296) abcBatch := by
  refine ⟨rfl, fun keeps => ?_⟩
  have nothing : filterBatch plainCudf plainStrings (prefixedOperator 4294967296) abcBatch = .ok [] := rfl
  have isTrue : holds (truth plainCudf [⟨.string, some "abc"⟩] (prefixed 4294967296)) = true := by decide +kernel
  have same := ((keeps []).mp nothing).2
  have lost : [⟨.string, some "abc"⟩] ∈
      abcBatch.filter (fun row => holds (truth plainCudf row (prefixed 4294967296))) := by
    rw [List.mem_filter]
    exact ⟨by simp [abcBatch], isTrue⟩
  rw [← same] at lost
  cases lost

end KernelLake.GpuFilterProofs
