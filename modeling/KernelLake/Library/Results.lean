import Mathlib.Data.List.Forall2

/-!
Computations that may fail.

What a successful run of a composed computation says about its parts: one lemma for sequencing, one
for a pure step, and one for each way to run over a list.
-/

namespace KernelLake.Library.Results

variable {ε α β γ : Type}

theorem bind_eq_ok {action : Except ε α} {next : α → Except ε β} {result : β} :
    (action >>= next) = .ok result ↔ ∃ value, action = .ok value ∧ next value = .ok result := by
  cases action with
  | error message => simp [bind, Except.bind]
  | ok value => simp [bind, Except.bind]

theorem pure_eq_ok {value result : α} : (pure value : Except ε α) = .ok result ↔ value = result := by
  simp [pure, Except.pure]

/-- A list made from the result of a computation, empty where it fails. -/
def onOk (ran : Except ε α) (next : α → List β) : List β :=
  match ran with
  | .ok value => next value
  | .error _ => []

@[simp] theorem onOk_ok (value : α) (next : α → List β) : onOk (.ok value : Except ε α) next = next value :=
  rfl

theorem forall_mem_onOk {holds : β → Prop} {ran : Except ε α} {next : α → List β}
    (each : ∀ value, ran = .ok value → ∀ result ∈ next value, holds result) :
    ∀ result ∈ onOk ran next, holds result := by
  cases ran with
  | ok value => exact each value rfl
  | error _ => exact List.forall_mem_nil _

/-- A successful run over a list has a successful run on each member, in order. -/
theorem mapM_eq_ok {action : α → Except ε β} {inputs : List α} {results : List β} :
    inputs.mapM action = .ok results ↔
      List.Forall₂ (fun input result => action input = .ok result) inputs results := by
  induction inputs generalizing results with
  | nil =>
    rw [List.mapM_nil, pure_eq_ok, List.forall₂_nil_left_iff]
    exact eq_comm
  | cons input inputs hypothesis =>
    simp only [List.mapM_cons, bind_eq_ok, pure_eq_ok]
    constructor
    · rintro ⟨result, ran, rest, restRan, rfl⟩
      exact .cons ran (hypothesis.mp restRan)
    · rintro (_ | ⟨ran, rest⟩)
      exact ⟨_, ran, _, hypothesis.mpr rest, rfl⟩

theorem mapM_concat {action : α → Except ε β} {inputs : List α} {results : List β} {input : α} {result : β}
    (ran : inputs.mapM action = .ok results) (lastRan : action input = .ok result) :
    (inputs ++ [input]).mapM action = .ok (results ++ [result]) :=
  mapM_eq_ok.mpr (List.rel_append (mapM_eq_ok.mp ran) (.cons lastRan .nil))

theorem exists_of_mem_right {related : α → β → Prop} {inputs : List α} {results : List β}
    (each : List.Forall₂ related inputs results) {result : β} (member : result ∈ results) :
    ∃ input ∈ inputs, related input result := by
  induction each with
  | nil => cases member
  | @cons input image inputs results isImage _ hypothesis =>
    rcases List.mem_cons.mp member with rfl | inRest
    · exact ⟨input, List.mem_cons_self .., isImage⟩
    · obtain ⟨other, inInputs, isOther⟩ := hypothesis inRest
      exact ⟨other, List.mem_cons_of_mem _ inInputs, isOther⟩

/-- What stands at a member's place in the other list. -/
theorem exists_zip_of_mem_left {related : α → β → Prop} {inputs : List α} {results : List β}
    (each : List.Forall₂ related inputs results) {input : α} (member : input ∈ inputs) :
    ∃ result, (input, result) ∈ inputs.zip results := by
  induction each with
  | nil => cases member
  | @cons first image inputs results _ _ hypothesis =>
    rcases List.mem_cons.mp member with rfl | inRest
    · exact ⟨image, List.mem_cons_self ..⟩
    · obtain ⟨result, inZip⟩ := hypothesis inRest
      exact ⟨result, List.mem_cons_of_mem _ inZip⟩

theorem exists_of_mem_left {related : α → β → Prop} {inputs : List α} {results : List β}
    (each : List.Forall₂ related inputs results) {input : α} (member : input ∈ inputs) :
    ∃ result ∈ results, related input result :=
  exists_of_mem_right each.flip member

theorem exists_of_mem_mapM {action : α → Except ε β} {inputs : List α} {results : List β}
    (ran : inputs.mapM action = .ok results) {result : β} (member : result ∈ results) :
    ∃ input ∈ inputs, action input = .ok result :=
  exists_of_mem_right (mapM_eq_ok.mp ran) member

/-- A run over a list succeeds if it does on each member. -/
theorem exists_mapM {action : α → Except ε β} {inputs : List α}
    (each : ∀ input ∈ inputs, ∃ result, action input = .ok result) :
    ∃ results, inputs.mapM action = .ok results := by
  induction inputs with
  | nil => exact ⟨[], rfl⟩
  | cons input inputs hypothesis =>
    obtain ⟨result, ran⟩ := each input (List.mem_cons_self ..)
    obtain ⟨results, restRan⟩ := hypothesis (fun other member => each other (List.mem_cons_of_mem _ member))
    exact ⟨result :: results, mapM_eq_ok.mpr (.cons ran (mapM_eq_ok.mp restRan))⟩

/-- A run over a list succeeds with the same results where each member does. -/
theorem mapM_of_imp {action other : α → Except ε β} {inputs : List α} {results : List β}
    (each : ∀ input ∈ inputs, ∀ result, action input = .ok result → other input = .ok result)
    (ran : inputs.mapM action = .ok results) : inputs.mapM other = .ok results := by
  rw [mapM_eq_ok] at ran ⊢
  induction ran with
  | nil => exact .nil
  | cons inputRan _ hypothesis =>
    obtain ⟨first, rest⟩ := List.forall_mem_cons.mp each
    exact .cons (first _ inputRan) (hypothesis rest)

theorem optionMapM_eq_ok {action : α → Except ε β} {input : Option α} {result : Option β} :
    input.mapM action = .ok result ↔
      input = none ∧ result = none ∨
        ∃ value image, input = some value ∧ result = some image ∧ action value = .ok image := by
  cases input with
  | none =>
    rw [Option.mapM_none, pure_eq_ok]
    simp [eq_comm]
  | some value =>
    cases ran : action value with
    | error message => simp [Option.mapM_some, ran, Functor.map, Except.map]
    | ok image =>
      simp only [Option.mapM_some, ran, Functor.map, Except.map, Except.ok.injEq]
      simp [ran, eq_comm]

theorem optionMapM_of_imp {action other : α → Except ε β} {input : Option α} {result : Option β}
    (each : ∀ value ∈ input, ∀ image, action value = .ok image → other value = .ok image)
    (ran : input.mapM action = .ok result) : input.mapM other = .ok result := by
  rw [optionMapM_eq_ok] at ran ⊢
  refine ran.imp id ?_
  rintro ⟨value, image, rfl, isImage, valueRan⟩
  exact ⟨value, image, rfl, isImage, each value rfl image valueRan⟩

theorem foldlM_of_imp {step other : β → α → Except ε β} {inputs : List α} {start final : β}
    (each : ∀ input ∈ inputs, ∀ state next, step state input = .ok next → other state input = .ok next)
    (ran : inputs.foldlM step start = .ok final) : inputs.foldlM other start = .ok final := by
  induction inputs generalizing start with
  | nil => exact ran
  | cons input inputs hypothesis =>
    obtain ⟨first, rest⟩ := List.forall_mem_cons.mp each
    rw [List.foldlM_cons, bind_eq_ok] at ran ⊢
    obtain ⟨next, inputRan, restRan⟩ := ran
    exact ⟨next, first start next inputRan, hypothesis rest restRan⟩

/-- An invariant of the inputs already folded over and the state reached. -/
theorem foldlM_invariant (invariant : List α → β → Prop) {step : β → α → Except ε β}
    (preserved : ∀ before state input next, invariant before state → step state input = .ok next →
      invariant (before ++ [input]) next)
    {inputs : List α} {start final : β} (ran : inputs.foldlM step start = .ok final)
    (starts : invariant [] start) : invariant inputs final := by
  suffices general : ∀ before state, invariant before state → inputs.foldlM step state = .ok final →
      invariant (before ++ inputs) final from general [] start starts ran
  clear ran starts
  induction inputs with
  | nil =>
    intro before state holds ran
    rw [List.append_nil, ← pure_eq_ok.mp ran]
    exact holds
  | cons input inputs hypothesis =>
    intro before state holds ran
    rw [List.foldlM_cons] at ran
    obtain ⟨next, stepRan, restRan⟩ := bind_eq_ok.mp ran
    have rest := hypothesis _ next (preserved before state input next holds stepRan) restRan
    rwa [List.append_assoc] at rest

theorem forall₂_comp {first : α → β → Prop} {second : β → γ → Prop} {inputs : List α} {results : List γ} :
    List.Forall₂ (fun input result => ∃ middle, first input middle ∧ second middle result) inputs results ↔
      ∃ middles, List.Forall₂ first inputs middles ∧ List.Forall₂ second middles results := by
  constructor
  · intro each
    induction each with
    | nil => exact ⟨[], .nil, .nil⟩
    | cons pair _ hypothesis =>
      obtain ⟨middle, isFirst, isSecond⟩ := pair
      obtain ⟨middles, firsts, seconds⟩ := hypothesis
      exact ⟨middle :: middles, .cons isFirst firsts, .cons isSecond seconds⟩
  · rintro ⟨middles, firsts, seconds⟩
    induction firsts generalizing results with
    | nil =>
      cases seconds
      exact .nil
    | cons isFirst _ hypothesis =>
      cases seconds with
      | cons isSecond seconds => exact .cons ⟨_, isFirst, isSecond⟩ (hypothesis seconds)

/-- Runs over one list that are made side by side are the runs made one by one. -/
theorem foldlM_mapM_eq_ok {step : β → α → Except ε β} {inputs : List α} {starts finals : List β} :
    inputs.foldlM (fun states input => states.mapM (step · input)) starts = .ok finals ↔
      List.Forall₂ (fun start final => inputs.foldlM step start = .ok final) starts finals := by
  induction inputs generalizing starts with
  | nil => simp only [List.foldlM_nil, pure_eq_ok, List.forall₂_eq_eq_eq]
  | cons input inputs hypothesis =>
    simp only [List.foldlM_cons, bind_eq_ok, mapM_eq_ok, hypothesis]
    exact forall₂_comp.symm

end KernelLake.Library.Results
