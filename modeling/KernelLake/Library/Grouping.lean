import KernelLake.Library.Relations
import Mathlib.Data.List.Forall2
import Mathlib.Data.List.Nodup

/-!
Grouping in parts.

Entries are pairs of a key and a value, and grouping combines the values of each key. When the
combination can be taken in parts, a table may be cut anywhere, grouped piece by piece, and grouped
again. `Summary` is what such a scheme needs to know about one pass over a table, whether the pass
combines values or only removes duplicates.
-/

namespace KernelLake.Library.Grouping

open KernelLake.Library.Relations

variable {κ μ ω : Type} [DecidableEq κ]

/-! ## Distinct values -/

theorem nodup_distinct (values : List κ) : (distinct values).Nodup := by
  induction values with
  | nil => exact List.nodup_nil
  | cons first rest hypothesis =>
    refine List.nodup_cons.mpr ⟨?_, hypothesis.filter _⟩
    simp

theorem distinct_perm {first second : List κ} (same : ∀ value, value ∈ first ↔ value ∈ second) :
    (distinct first).Perm (distinct second) := by
  rw [List.perm_ext_iff_of_nodup (nodup_distinct first) (nodup_distinct second)]
  intro value
  rw [mem_distinct, mem_distinct, same]

theorem length_distinct_le {first second : List κ} (within : ∀ value ∈ first, value ∈ second) :
    (distinct first).length ≤ (distinct second).length := by
  refine (List.subperm_of_subset (nodup_distinct first) ?_).length_le
  intro value member
  exact mem_distinct.mpr (within value (mem_distinct.mp member))

/-! ## Groups of entries -/

/-- The values that stand under a key, in order. -/
def valuesOf (entries : List (κ × μ)) (key : κ) : List μ :=
  (entries.filter (fun entry => entry.1 = key)).map Prod.snd

/-- One entry for each key, with the combination of the values under it. -/
def groupEntries (combine : List μ → ω) (entries : List (κ × μ)) : List (κ × ω) :=
  (distinct (entries.map Prod.fst)).map (fun key => (key, combine (valuesOf entries key)))

theorem valuesOf_append (first second : List (κ × μ)) (key : κ) :
    valuesOf (first ++ second) key = valuesOf first key ++ valuesOf second key := by
  simp [valuesOf]

theorem valuesOf_flatten (tables : List (List (κ × μ))) (key : κ) :
    valuesOf tables.flatten key = (tables.map (valuesOf · key)).flatten := by
  induction tables with
  | nil => rfl
  | cons table tables hypothesis =>
    rw [List.flatten_cons, valuesOf_append, hypothesis, List.map_cons, List.flatten_cons]

theorem valuesOf_perm {first second : List (κ × μ)} (same : first.Perm second) (key : κ) :
    (valuesOf first key).Perm (valuesOf second key) :=
  (same.filter _).map _

theorem valuesOf_eq_nil {entries : List (κ × μ)} {key : κ} :
    valuesOf entries key = [] ↔ key ∉ entries.map Prod.fst := by
  simp only [valuesOf, List.map_eq_nil_iff, List.filter_eq_nil_iff, List.mem_map]
  constructor
  · rintro none ⟨entry, member, rfl⟩
    exact none entry member (by simp)
  · intro absent entry member same
    exact absent ⟨entry, member, by simpa using same⟩

theorem keys_groupEntries (combine : List μ → ω) (entries : List (κ × μ)) :
    (groupEntries combine entries).map Prod.fst = distinct (entries.map Prod.fst) := by
  simp [groupEntries, Function.comp_def]

/-- A grouping is settled, up to order, by its keys and the value of each. -/
theorem groupEntries_perm {ν : Type} {combine : List μ → ω} {combine' : List ν → ω}
    {first : List (κ × μ)} {second : List (κ × ν)}
    (keys : ∀ key, key ∈ first.map Prod.fst ↔ key ∈ second.map Prod.fst)
    (values : ∀ key, combine (valuesOf first key) = combine' (valuesOf second key)) :
    (groupEntries combine first).Perm (groupEntries combine' second) := by
  unfold groupEntries
  simp only [values]
  exact (distinct_perm keys).map _

theorem valuesOf_map {α : Type} (key : α → κ) (value : α → μ) (rows : List α) (chosen : κ) :
    valuesOf (rows.map (fun row => (key row, value row))) chosen =
      (rows.filter (fun row => key row = chosen)).map value := by
  simp [valuesOf, List.filter_map, Function.comp_def]

/-- Grouping entries read from rows is grouping the rows. -/
theorem groupEntries_map {α : Type} (combine : List μ → ω) (key : α → κ) (value : α → μ)
    (rows : List α) :
    groupEntries combine (rows.map (fun row => (key row, value row))) =
      (groupRows key rows).map (fun group => (group.1, combine (group.2.map value))) := by
  simp only [groupEntries, groupRows, List.map_map, valuesOf_map]
  rfl

/-- After grouping, one value stands under each key that occurs. -/
theorem valuesOf_groupEntries (combine : List μ → ω) (entries : List (κ × μ)) (key : κ) :
    valuesOf (groupEntries combine entries) key =
      if valuesOf entries key = [] then [] else [combine (valuesOf entries key)] := by
  have chosen (keys : List κ) (nodup : keys.Nodup) :
      valuesOf (keys.map (fun key => (key, combine (valuesOf entries key)))) key =
        if key ∈ keys then [combine (valuesOf entries key)] else [] := by
    induction keys with
    | nil => rfl
    | cons first rest hypothesis =>
      obtain ⟨fresh, restNodup⟩ := List.nodup_cons.mp nodup
      have others := hypothesis restNodup
      unfold valuesOf at others ⊢
      rw [List.map_cons, List.filter_cons]
      by_cases same : first = key
      · subst same
        rw [if_neg fresh] at others
        simp [others]
      · simpa [same, Ne.symm same] using others
  rw [groupEntries, chosen _ (nodup_distinct _)]
  by_cases absent : valuesOf entries key = []
  · rw [if_pos absent, if_neg]
    rw [mem_distinct]
    exact valuesOf_eq_nil.mp absent
  · rw [if_neg absent, if_pos]
    rw [mem_distinct]
    exact not_not.mp (fun missing => absent (valuesOf_eq_nil.mpr missing))

/-! ## Combining in parts -/

/-- A combination that does not depend on order and may be taken in parts. -/
structure Mergeable (combine : List μ → μ) : Prop where
  reordered : ∀ {first second : List μ}, first.Perm second → combine first = combine second
  nested : ∀ parts : List (List μ), combine (parts.map combine) = combine parts.flatten

theorem flatten_filter_nonempty (parts : List (List μ)) :
    (parts.filter (fun part => !part.isEmpty)).flatten = parts.flatten := by
  induction parts with
  | nil => rfl
  | cons part parts hypothesis =>
    cases part with
    | nil => simpa using hypothesis
    | cons value values => simp [hypothesis]

/-- Groups of the parts of a table, taken together and grouped again, are the groups of the
whole. -/
theorem groupEntries_flatten {combine : List μ → μ} (mergeable : Mergeable combine)
    {parts tables : List (List (κ × μ))}
    (grouped : List.Forall₂ (fun part table => part.Perm (groupEntries combine table)) parts tables) :
    (groupEntries combine parts.flatten).Perm (groupEntries combine tables.flatten) := by
  have values (key : κ) : (valuesOf parts.flatten key).Perm
      (((tables.map (valuesOf · key)).filter (fun part => !part.isEmpty)).map combine) := by
    induction grouped with
    | nil => exact .refl _
    | @cons part table parts tables same _ hypothesis =>
      have head := valuesOf_perm same key
      rw [valuesOf_groupEntries] at head
      rw [List.flatten_cons, valuesOf_append, List.map_cons, List.filter_cons]
      by_cases absent : valuesOf table key = []
      · rw [if_pos absent] at head
        rw [absent, List.perm_nil.mp head]
        exact hypothesis
      · rw [if_neg absent] at head
        have present : (!(valuesOf table key).isEmpty) = true := by simpa using absent
        rw [if_pos present]
        exact head.append hypothesis
  refine groupEntries_perm (fun key => ?_) (fun key => ?_)
  · rw [← not_iff_not, ← valuesOf_eq_nil, ← valuesOf_eq_nil, valuesOf_flatten tables,
      ← List.length_eq_zero_iff, (values key).length_eq, List.length_map, List.length_eq_zero_iff]
    constructor
    · intro none
      rw [← flatten_filter_nonempty, none, List.flatten_nil]
    · intro none
      rw [← flatten_filter_nonempty] at none
      rw [List.eq_nil_iff_forall_not_mem]
      intro part member
      have empty := List.flatten_eq_nil_iff.mp none part member
      simpa [empty] using List.of_mem_filter member
  · rw [mergeable.reordered (values key), mergeable.nested, flatten_filter_nonempty,
      valuesOf_flatten]

/-! ## Columns with nulls -/

section Columns

variable {ν : Type}

/-- The values of a column combined, nulls skipped; a column of nulls has none. -/
def reducePresent (op : ν → ν → ν) (cells : List (Option ν)) : Option ν :=
  cells.foldr (Option.merge op) none

theorem reducePresent_append (op : ν → ν → ν) [Std.Associative op] (first second : List (Option ν)) :
    reducePresent op (first ++ second) =
      Option.merge op (reducePresent op first) (reducePresent op second) := by
  induction first with
  | nil => simp [reducePresent]
  | cons cell cells hypothesis =>
    unfold reducePresent at hypothesis ⊢
    rw [List.cons_append, List.foldr_cons, List.foldr_cons, hypothesis]
    exact (Std.Associative.assoc _ _ _).symm

theorem mergeable_reducePresent (op : ν → ν → ν) [Std.Associative op] [Std.Commutative op] :
    Mergeable (reducePresent op) where
  reordered same := by
    refine same.foldr_eq' (fun first _ second _ rest => ?_) none
    rw [← (Option.associative_merge op).assoc, ← (Option.associative_merge op).assoc,
      (Option.commutative_merge op).comm first]
  nested parts := by
    induction parts with
    | nil => rfl
    | cons part parts hypothesis =>
      rw [List.flatten_cons, reducePresent_append, ← hypothesis]
      rfl

theorem reducePresent_eq_none {op : ν → ν → ν} {cells : List (Option ν)} :
    reducePresent op cells = none ↔ ∀ cell ∈ cells, cell = none := by
  induction cells with
  | nil => simp [reducePresent]
  | cons cell cells hypothesis =>
    unfold reducePresent at hypothesis ⊢
    rw [List.foldr_cons, List.forall_mem_cons, ← hypothesis]
    cases cell <;> cases List.foldr (Option.merge op) none cells <;> simp

end Columns

/-! ## Summaries -/

/-- One pass over a table that may be made in parts: on well-formed rows it may be repeated over
the results of earlier passes, and it never shrinks as the table grows. -/
structure Summary (α : Type) where
  summarise : List α → List α
  valid : α → Prop
  keepsValid : ∀ {table : List α}, (∀ row ∈ table, valid row) → ∀ row ∈ summarise table, valid row
  regroups : ∀ {parts tables : List (List α)}, (∀ table ∈ tables, ∀ row ∈ table, valid row) →
    List.Forall₂ (fun part table => part.Perm (summarise table)) parts tables →
    (summarise parts.flatten).Perm (summarise tables.flatten)
  grows : ∀ first second : List α, (summarise first).length ≤ (summarise (first ++ second)).length

/-- Removing duplicates is a summary of any rows. -/
def distinctSummary (κ : Type) [DecidableEq κ] : Summary κ where
  summarise := distinct
  valid _ := True
  keepsValid _ _ _ := trivial
  regroups {parts tables} valid same := by
    refine distinct_perm (fun value => ?_)
    clear valid
    induction same with
    | nil => rfl
    | @cons part table parts tables first _ hypothesis =>
      rw [List.flatten_cons, List.flatten_cons, List.mem_append, List.mem_append, hypothesis,
        first.mem_iff, mem_distinct]
  grows first second := length_distinct_le (fun value member => List.mem_append_left _ member)

end KernelLake.Library.Grouping
