import Mathlib.Data.List.Basic

/-!
Reading a text from the left.

A reader takes a word off the front of a text, one of several words, or the longest run of characters
of a kind. Each is right on a text that was written that way, whatever follows, as long as a run is
followed by a character of another kind.
-/

namespace KernelLake.Library.Texts

/-! ## Words -/

/-- What follows a word at the front of a text. -/
def afterWord : List Char → List Char → Option (List Char)
  | [], text => some text
  | _ :: _, [] => none
  | expected :: word, character :: text => if expected = character then afterWord word text else none

@[simp] theorem afterWord_append (word text : List Char) : afterWord word (word ++ text) = some text := by
  induction word with
  | nil => rfl
  | cons character word hypothesis => simp [afterWord, hypothesis]

/-- The first of several words that a text starts with, by its meaning, and what follows it. -/
def firstWord {Meaning : Type} (words : List (List Char × Meaning)) (text : List Char) :
    Option (Meaning × List Char) :=
  words.findSome? (fun word => (afterWord word.1 text).map (fun rest => (word.2, rest)))

/-! ## Runs -/

/-- A text that does not go on with a character of a kind. -/
def Leaves (kind : Char → Bool) (text : List Char) : Prop :=
  ∀ character ∈ text.head?, kind character = false

theorem leaves_nil (kind : Char → Bool) : Leaves kind [] :=
  fun _ member => by cases member

theorem leaves_cons {kind : Char → Bool} {character : Char} (outside : kind character = false)
    (text : List Char) : Leaves kind (character :: text) := by
  intro first member
  obtain rfl := Option.some.inj member
  exact outside

/-- The longest run of characters of a kind, and what follows it. -/
def readRun (kind : Char → Bool) (text : List Char) : List Char × List Char :=
  (text.takeWhile kind, text.dropWhile kind)

theorem readRun_append {kind : Char → Bool} {run text : List Char}
    (inside : ∀ character ∈ run, kind character = true) (leaves : Leaves kind text) :
    readRun kind (run ++ text) = (run, text) := by
  unfold readRun
  rw [List.takeWhile_append_of_pos inside, List.dropWhile_append_of_pos inside]
  cases text with
  | nil => simp
  | cons character text =>
    have outside := leaves character rfl
    simp [outside]

/-! ## Numerals -/

theorem toList_repr_ne_nil (value : Nat) : value.repr.toList ≠ [] := by
  rw [Nat.toList_repr]
  exact Nat.toDigits_ne_nil

theorem isDigit_of_mem_repr {value : Nat} {character : Char} (member : character ∈ value.repr.toList) :
    character.isDigit = true := by
  rw [Nat.toList_repr] at member
  exact Nat.isDigit_of_mem_toDigits (by omega) (by omega) member

/-- A numeral starts with a digit. -/
theorem repr_eq_cons (value : Nat) :
    ∃ digit digits, value.repr.toList = digit :: digits ∧ digit.isDigit = true := by
  cases shape : value.repr.toList with
  | nil => exact absurd shape (toList_repr_ne_nil value)
  | cons digit digits =>
    exact ⟨digit, digits, rfl, isDigit_of_mem_repr (shape ▸ List.mem_cons_self)⟩

/-- The natural number a text is the numeral of. -/
def readNatural (text : List Char) : Nat :=
  Nat.ofDigitChars 10 text 0

@[simp] theorem readNatural_repr (value : Nat) : readNatural value.repr.toList = value := by
  rw [readNatural, Nat.toList_repr, Nat.ofDigitChars_ten_toDigits]

theorem repr_inj {first second : Nat} : first.repr = second.repr ↔ first = second := by
  refine ⟨fun same => ?_, congrArg Nat.repr⟩
  rw [← readNatural_repr first, same, readNatural_repr]

/-- The integer a text is the numeral of. -/
def readInteger : List Char → Int
  | '-' :: text => -readNatural text
  | text => readNatural text

@[simp] theorem readInteger_repr (value : Int) : readInteger value.repr.toList = value := by
  cases value with
  | ofNat magnitude =>
    change readInteger magnitude.repr.toList = magnitude
    obtain ⟨digit, digits, shape, isDigit⟩ := repr_eq_cons magnitude
    have natural := readNatural_repr magnitude
    rw [shape] at natural ⊢
    unfold readInteger
    split
    · rename_i same
      obtain ⟨rfl, _⟩ := List.cons.inj same
      cases isDigit
    · rw [natural]
  | negSucc magnitude =>
    have written : (Int.repr (Int.negSucc magnitude)).toList = '-' :: (magnitude + 1).repr.toList := by
      simp [Int.repr]
    rw [written, readInteger, readNatural_repr]
    rfl

/-- A character of an integer's numeral. -/
def isIntegerPart (character : Char) : Bool :=
  character.isDigit || character == '-'

theorem isIntegerPart_of_mem_repr {value : Int} {character : Char}
    (member : character ∈ value.repr.toList) : isIntegerPart character = true := by
  unfold isIntegerPart
  cases value with
  | ofNat magnitude =>
    have digit : character.isDigit = true := isDigit_of_mem_repr member
    simp [digit]
  | negSucc magnitude =>
    have split : character = '-' ∨ character ∈ (magnitude + 1).repr.toList := by
      simpa [Int.repr] using member
    cases split with
    | inl sign => simp [sign]
    | inr digits => simp [isDigit_of_mem_repr digits]

end KernelLake.Library.Texts
