import Mathlib.Data.List.Forall2

/-!
Patterns with wildcards.

An alphabet has a symbol for any text and a symbol for any one character. A text matches a pattern when it is
put together from parts, one for each symbol of the pattern, that the symbols stand for.
-/

namespace KernelLake.Library.Patterns

variable {α : Type} [DecidableEq α]

/-- The two wildcards of an alphabet. -/
structure Wildcards (α : Type) where
  many : α
  one : α
  distinct : many ≠ one

namespace Wildcards

variable (wildcards : Wildcards α)

/-- What a symbol can stand for. -/
def Replaces (symbol : α) (part : List α) : Prop :=
  if symbol = wildcards.many then True
  else if symbol = wildcards.one then part.length = 1
  else part = [symbol]

/-- The language of a pattern. -/
def Matches (pattern text : List α) : Prop :=
  ∃ parts, List.Forall₂ wildcards.Replaces pattern parts ∧ parts.flatten = text

/-- A symbol other than the one for any text can stand for one character. -/
def Accepts (symbol character : α) : Prop :=
  symbol = wildcards.one ∨ symbol = character

instance (symbol character : α) : Decidable (wildcards.Accepts symbol character) :=
  inferInstanceAs (Decidable (_ ∨ _))

theorem replaces_many (part : List α) : wildcards.Replaces wildcards.many part := by
  simp [Replaces]

theorem replaces_symbol {symbol : α} (plain : symbol ≠ wildcards.many) (part : List α) :
    wildcards.Replaces symbol part ↔ ∃ character, part = [character] ∧ wildcards.Accepts symbol character := by
  unfold Replaces Accepts
  rw [if_neg plain]
  split
  · rename_i isOne
    rw [List.length_eq_one_iff]
    simp [isOne]
  · rename_i literal
    simp [literal]

theorem matches_nil (text : List α) : wildcards.Matches [] text ↔ text = [] := by
  constructor
  · rintro ⟨parts, replaced, rfl⟩
    rw [List.forall₂_nil_left_iff.mp replaced]
    rfl
  · rintro rfl
    exact ⟨[], .nil, rfl⟩

theorem matches_cons (symbol : α) (pattern text : List α) :
    wildcards.Matches (symbol :: pattern) text ↔
      ∃ part rest, text = part ++ rest ∧ wildcards.Replaces symbol part ∧ wildcards.Matches pattern rest := by
  constructor
  · rintro ⟨parts, replaced, rfl⟩
    obtain ⟨part, others, first, rest, rfl⟩ := List.forall₂_cons_left_iff.mp replaced
    exact ⟨part, others.flatten, List.flatten_cons, first, others, rest, rfl⟩
  · rintro ⟨part, rest, rfl, first, others, replaced, rfl⟩
    exact ⟨part :: others, .cons first replaced, List.flatten_cons⟩

end Wildcards

end KernelLake.Library.Patterns
