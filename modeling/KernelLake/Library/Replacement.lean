import Mathlib.Data.List.Basic

/-!
Replacing phrases of a text.

A text is cut from left to right into phrases and the single letters between them: where a phrase
starts it is taken whole, and the cut goes on behind it. What counts as a phrase is a relation between
a meaning and a way to write it. A recogniser that finds just these phrases at the front of a text
settles the cut, since two phrases at one place would have to be the same.
-/

namespace KernelLake.Library.Replacement

variable {α β γ : Type}

/-- A piece of a text: a letter on its own, or a phrase with what is written there. -/
inductive Piece (α β : Type)
  | letter (value : α)
  | phrase (meaning : β) (written : List α)
  deriving DecidableEq

def Piece.text : Piece α β → List α
  | .letter value => [value]
  | .phrase _ written => written

def textOf (pieces : List (Piece α β)) : List α :=
  pieces.flatMap Piece.text

/-- The meanings of the phrases, in order. -/
def phrases (pieces : List (Piece α β)) : List β :=
  pieces.filterMap (fun piece =>
    match piece with
    | .letter _ => none
    | .phrase meaning _ => some meaning)

@[simp] theorem phrases_letter (letter : α) (pieces : List (Piece α β)) :
    phrases (.letter letter :: pieces) = phrases pieces :=
  rfl

@[simp] theorem phrases_phrase (meaning : β) (written : List α) (pieces : List (Piece α β)) :
    phrases (.phrase meaning written :: pieces) = meaning :: phrases pieces :=
  rfl

/-- The cut of a text: a letter stands alone where no phrase starts. -/
inductive Cut (writes : β → List α → Prop) : List α → List (Piece α β) → Prop
  | done : Cut writes [] []
  | letter {letter : α} {rest : List α} {pieces : List (Piece α β)}
      (stays : ∀ meaning written after, writes meaning written → letter :: rest ≠ written ++ after)
      (cut : Cut writes rest pieces) : Cut writes (letter :: rest) (.letter letter :: pieces)
  | phrase {meaning : β} {written rest : List α} {pieces : List (Piece α β)}
      (isWritten : writes meaning written) (cut : Cut writes rest pieces) :
      Cut writes (written ++ rest) (.phrase meaning written :: pieces)

/-- The pieces of a cut make up its text. -/
theorem textOf_cut {writes : β → List α → Prop} {text : List α} {pieces : List (Piece α β)}
    (cut : Cut writes text pieces) : textOf pieces = text := by
  induction cut with
  | done => rfl
  | @letter value _ _ _ _ hypothesis => exact congrArg (value :: ·) hypothesis
  | @phrase _ written _ _ _ _ hypothesis => exact congrArg (written ++ ·) hypothesis

/-- A recogniser of phrases gives the one at the front of a text and what follows it. -/
structure Recognises (writes : β → List α → Prop) (recognise : List α → Option (β × List α)) : Prop where
  found : ∀ {text rest : List α} {meaning : β}, recognise text = some (meaning, rest) ↔
    ∃ written, writes meaning written ∧ text = written ++ rest
  nonempty : ∀ {meaning : β} {written : List α}, writes meaning written → written ≠ []

section Recognisers

variable {writes : β → List α → Prop} {recognise : List α → Option (β × List α)}

theorem Recognises.unambiguous (right : Recognises writes recognise) {meaning meaning' : β}
    {written written' rest rest' : List α} (isWritten : writes meaning written)
    (isWritten' : writes meaning' written') (same : written ++ rest = written' ++ rest') :
    meaning = meaning' ∧ written = written' ∧ rest = rest' := by
  have first : recognise (written ++ rest) = some (meaning, rest) := right.found.mpr ⟨written, isWritten, rfl⟩
  have second : recognise (written ++ rest) = some (meaning', rest') :=
    right.found.mpr ⟨written', isWritten', same⟩
  rw [first] at second
  cases second
  exact ⟨rfl, List.append_cancel_right same, rfl⟩

theorem Recognises.stays_iff (right : Recognises writes recognise) {text : List α} :
    recognise text = none ↔ ∀ meaning written after, writes meaning written → text ≠ written ++ after := by
  constructor
  · intro none meaning written after isWritten same
    rw [right.found.mpr ⟨written, isWritten, same⟩] at none
    cases none
  · intro stays
    cases found : recognise text with
    | none => rfl
    | some result =>
      obtain ⟨written, isWritten, same⟩ := right.found.mp found
      exact absurd same (stays _ _ _ isWritten)

theorem cut_unique (right : Recognises writes recognise) {text : List α} {pieces pieces' : List (Piece α β)}
    (cut : Cut writes text pieces) (cut' : Cut writes text pieces') : pieces = pieces' := by
  induction cut generalizing pieces' with
  | done =>
    generalize empty : ([] : List α) = text at cut'
    cases cut' with
    | done => rfl
    | letter => cases empty
    | phrase isWritten _ => exact absurd (List.append_eq_nil_iff.mp empty.symm).1 (right.nonempty isWritten)
  | @letter letter rest _ stays _ hypothesis =>
    generalize same : letter :: rest = text at cut'
    cases cut' with
    | done => cases same
    | letter _ cut' =>
      cases same
      rw [hypothesis cut']
    | phrase isWritten _ => exact absurd same (stays _ _ _ isWritten)
  | @phrase meaning written rest _ isWritten _ hypothesis =>
    generalize same : written ++ rest = text at cut'
    cases cut' with
    | done => exact absurd (List.append_eq_nil_iff.mp same).1 (right.nonempty isWritten)
    | letter stays _ => exact absurd same.symm (stays _ _ _ isWritten)
    | phrase isWritten' cut' =>
      obtain ⟨rfl, rfl, rfl⟩ := right.unambiguous isWritten isWritten' same
      rw [hypothesis cut']

/-- A loop over a text that takes a phrase where it finds one and a letter elsewhere. -/
def runOver (recognise : List α → Option (β × List α)) (onLetter : γ → α → γ) (onPhrase : γ → β → γ) :
    Nat → List α → γ → γ
  | 0, _, state => state
  | _ + 1, [], state => state
  | fuel + 1, letter :: rest, state =>
    match recognise (letter :: rest) with
    | none => runOver recognise onLetter onPhrase fuel rest (onLetter state letter)
    | some (meaning, after) => runOver recognise onLetter onPhrase fuel after (onPhrase state meaning)

def onPiece (onLetter : γ → α → γ) (onPhrase : γ → β → γ) (state : γ) : Piece α β → γ
  | .letter letter => onLetter state letter
  | .phrase meaning _ => onPhrase state meaning

/-- Fuel for each letter lets the loop go over all the pieces of the cut. -/
theorem exists_cut_runOver (right : Recognises writes recognise) (onLetter : γ → α → γ) (onPhrase : γ → β → γ)
    (fuel : Nat) (text : List α) (enough : text.length ≤ fuel) :
    ∃ pieces, Cut writes text pieces ∧ ∀ state,
      runOver recognise onLetter onPhrase fuel text state = pieces.foldl (onPiece onLetter onPhrase) state := by
  induction fuel generalizing text with
  | zero =>
    obtain rfl := List.length_eq_zero_iff.mp (Nat.le_zero.mp enough)
    exact ⟨[], .done, fun _ => rfl⟩
  | succ fuel hypothesis =>
    cases text with
    | nil => exact ⟨[], .done, fun _ => rfl⟩
    | cons letter rest =>
      cases found : recognise (letter :: rest) with
      | none =>
        obtain ⟨pieces, cut, runs⟩ := hypothesis rest (Nat.le_of_succ_le_succ enough)
        refine ⟨.letter letter :: pieces, .letter (right.stays_iff.mp found) cut, fun state => ?_⟩
        rw [runOver, found, List.foldl_cons]
        exact runs _
      | some result =>
        obtain ⟨meaning, after⟩ := result
        obtain ⟨written, isWritten, same⟩ := right.found.mp found
        have shorter : after.length ≤ fuel := by
          have lengths := congrArg List.length same
          have positive := List.length_pos_iff.mpr (right.nonempty isWritten)
          rw [List.length_append] at lengths
          omega
        obtain ⟨pieces, cut, runs⟩ := hypothesis after shorter
        refine ⟨.phrase meaning written :: pieces, same ▸ .phrase isWritten cut, fun state => ?_⟩
        rw [runOver, found, List.foldl_cons]
        exact runs _

end Recognisers

end KernelLake.Library.Replacement
