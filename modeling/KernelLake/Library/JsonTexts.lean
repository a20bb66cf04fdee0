import KernelLake.Library.Texts
import Mathlib.Data.List.TakeWhile

/-!
JSON texts of flat objects, whose values are no objects or arrays.

The reader takes what the standard allows: white space between tokens, strings with their escapes, the grammar of
numbers, and nothing after the object. A number is read as its token. A text that is written with an escape for
every character that needs one is read as what was written.
-/

namespace KernelLake.Library.JsonTexts

open KernelLake.Library.Texts

inductive Scalar
  | null
  | bool (value : Bool)
  | number (token : List Char)
  | string (text : List Char)
deriving DecidableEq

/-- A name and its value. -/
abbrev Member := List Char × Scalar

/-! ## Reading -/

def isSpace (character : Char) : Bool :=
  character = ' ' || character = '\t' || character = '\n' || character = '\r'

def skipSpace (text : List Char) : List Char :=
  text.dropWhile isSpace

/-- What follows a symbol, with white space before it. -/
def symbol (expected : Char) (text : List Char) : Option (List Char) :=
  afterWord [expected] (skipSpace text)

def hexDigit (character : Char) : Option Nat :=
  if character.isDigit then some (character.toNat - 48)
  else if 'a' ≤ character ∧ character ≤ 'f' then some (character.toNat - 87)
  else if 'A' ≤ character ∧ character ≤ 'F' then some (character.toNat - 55)
  else none

/-- Four hexadecimal digits. -/
def codeUnit : List Char → Option (Nat × List Char)
  | first :: second :: third :: fourth :: rest =>
    (hexDigit first).bind fun first =>
    (hexDigit second).bind fun second =>
    (hexDigit third).bind fun third =>
    (hexDigit fourth).map fun fourth => (((first * 16 + second) * 16 + third) * 16 + fourth, rest)
  | _ => none

def isHighSurrogate (unit : Nat) : Bool :=
  0xD800 ≤ unit && unit < 0xDC00

def isLowSurrogate (unit : Nat) : Bool :=
  0xDC00 ≤ unit && unit < 0xE000

/-- The second of a pair of surrogates. -/
def lowSurrogate (high : Nat) (text : List Char) : Option (Char × List Char) :=
  (afterWord ['\\', 'u'] text).bind fun rest =>
  (codeUnit rest).bind fun low =>
    if isLowSurrogate low.1 then
      some (Char.ofNat (0x10000 + (high - 0xD800) * 0x400 + (low.1 - 0xDC00)), low.2)
    else none

def shortEscapes : List (List Char × Char) :=
  [(['"'], '"'), (['\\'], '\\'), (['/'], '/'), (['b'], Char.ofNat 8), (['f'], Char.ofNat 12), (['n'], '\n'),
    (['r'], '\r'), (['t'], '\t')]

/-- What follows a backslash. -/
def escaped (text : List Char) : Option (Char × List Char) :=
  match afterWord ['u'] text with
  | none => firstWord shortEscapes text
  | some rest =>
    (codeUnit rest).bind fun unit =>
      if isHighSurrogate unit.1 then lowSurrogate unit.1 unit.2
      else if isLowSurrogate unit.1 then none
      else some (Char.ofNat unit.1, unit.2)

/-- A character of a string. -/
def character : List Char → Option (Char × List Char)
  | [] => none
  | first :: rest =>
    if first = '\\' then escaped rest
    else if first = '"' ∨ first.toNat < 0x20 then none
    else some (first, rest)

/-- The characters of a string up to its closing quote. -/
def string : Nat → List Char → Option (List Char × List Char)
  | 0, _ => none
  | fuel + 1, text =>
    match afterWord ['"'] text with
    | some rest => some ([], rest)
    | none =>
      (character text).bind fun first =>
      (string fuel first.2).map fun others => (first.1 :: others.1, others.2)

def isDigits (text : List Char) : Bool :=
  !text.isEmpty && text.all Char.isDigit

def isExponent : List Char → Bool
  | [] => true
  | mark :: text =>
    (mark = 'e' || mark = 'E') &&
      isDigits (((afterWord ['+'] text).or (afterWord ['-'] text)).getD text)

def isFraction (text : List Char) : Bool :=
  match afterWord ['.'] text with
  | some rest => isDigits (readRun Char.isDigit rest).1 && isExponent (readRun Char.isDigit rest).2
  | none => isExponent text

/-- No digit precedes the others as a zero. -/
def isWhole (digits : List Char) : Bool :=
  digits = ['0'] || isDigits digits && digits.head? ≠ some '0'

def isUnsigned (text : List Char) : Bool :=
  isWhole (readRun Char.isDigit text).1 && isFraction (readRun Char.isDigit text).2

/-- The grammar of numbers. -/
def isNumber (token : List Char) : Bool :=
  isUnsigned ((afterWord ['-'] token).getD token)

def isNumberPart (character : Char) : Bool :=
  character.isDigit || ['+', '-', '.', 'e', 'E'].contains character

def words : List (List Char × Scalar) :=
  [(['n', 'u', 'l', 'l'], .null), (['t', 'r', 'u', 'e'], .bool true), (['f', 'a', 'l', 's', 'e'], .bool false)]

def number (text : List Char) : Option (Scalar × List Char) :=
  if isNumber (readRun isNumberPart text).1 then
    some (.number (readRun isNumberPart text).1, (readRun isNumberPart text).2)
  else none

def scalar (fuel : Nat) (text : List Char) : Option (Scalar × List Char) :=
  match afterWord ['"'] text with
  | some rest => (string fuel rest).map fun read => (.string read.1, read.2)
  | none => (firstWord words text).or (number text)

def member (fuel : Nat) (text : List Char) : Option (Member × List Char) :=
  (symbol '"' text).bind fun opened =>
  (string fuel opened).bind fun name =>
  (symbol ':' name.2).bind fun rest =>
  (scalar fuel (skipSpace rest)).map fun value => ((name.1, value.1), value.2)

def members (fuel : Nat) : Nat → List Char → Option (List Member × List Char)
  | 0, _ => none
  | count + 1, text =>
    (member fuel text).bind fun first =>
      match symbol ',' first.2 with
      | some rest => (members fuel count rest).map fun others => (first.1 :: others.1, others.2)
      | none => (symbol '\x7d' first.2).map fun rest => ([first.1], rest)

/-- The members of the object that a text is. -/
def decode (text : List Char) : Option (List Member) :=
  (symbol '\x7b' text).bind fun opened =>
  (match symbol '\x7d' opened with
    | some rest => some ([], rest)
    | none => members text.length text.length opened).bind fun read =>
      if skipSpace read.2 = [] then some read.1 else none

/-! ## Writing -/

section Writing

variable (escape : Char → List Char)

def valueText : Scalar → List Char
  | .null => ['n', 'u', 'l', 'l']
  | .bool true => ['t', 'r', 'u', 'e']
  | .bool false => ['f', 'a', 'l', 's', 'e']
  | .number token => token
  | .string text => '"' :: (text.flatMap escape ++ ['"'])

def memberText (member : Member) : List Char :=
  '"' :: (member.1.flatMap escape ++ '"' :: ':' :: valueText escape member.2)

def membersText : List Member → List Char
  | [] => []
  | [last] => memberText escape last
  | first :: second :: rest => memberText escape first ++ ',' :: membersText (second :: rest)

def objectText (members : List Member) : List Char :=
  '\x7b' :: (membersText escape members ++ ['\x7d'])

end Writing

/-- Every character is written so that it is read as itself, and none ends a string. -/
structure Escaping (escape : Char → List Char) : Prop where
  reads : ∀ first rest, character (escape first ++ rest) = some (first, rest)
  unquoted : ∀ first rest, afterWord ['"'] (escape first ++ rest) = none

/-! ## Tokens -/

section Tokens

variable {text rest token : List Char} {first expected : Char}

theorem afterWord_ne (different : expected ≠ first) (word : List Char) :
    afterWord (expected :: word) (first :: rest) = none :=
  if_neg different

theorem afterWord_some {word : List Char} (found : afterWord word text = some rest) : text = word ++ rest := by
  induction word generalizing text with
  | nil => exact Option.some.inj found
  | cons expected word hypothesis =>
    cases text with
    | nil => cases found
    | cons first text =>
      by_cases same : expected = first
      · rw [afterWord, if_pos same] at found
        rw [hypothesis found, same, List.cons_append]
      · rw [afterWord_ne same] at found
        cases found

theorem skipSpace_cons (notSpace : isSpace first = false) (rest : List Char) :
    skipSpace (first :: rest) = first :: rest :=
  List.dropWhile_cons_of_neg (by simp [notSpace])

theorem symbol_cons (notSpace : isSpace first = false) (rest : List Char) :
    symbol first (first :: rest) = some rest := by
  rw [symbol, skipSpace_cons notSpace]
  exact afterWord_append [first] rest

theorem symbol_ne (notSpace : isSpace first = false) (different : expected ≠ first) (rest : List Char) :
    symbol expected (first :: rest) = none := by
  rw [symbol, skipSpace_cons notSpace, afterWord_ne different]

/-! ### Numbers -/

theorem isNumberPart_of_isDigit (digit : first.isDigit = true) : isNumberPart first = true := by
  rw [isNumberPart, digit, Bool.true_or]

theorem parts_of_isDigits (digits : isDigits text = true) : ∀ part ∈ text, isNumberPart part = true := by
  intro part member
  have all := ((Bool.and_eq_true _ _).mp digits).2
  exact isNumberPart_of_isDigit (List.all_eq_true.mp all part member)

theorem parts_of_isExponent (exponent : isExponent text = true) : ∀ part ∈ text, isNumberPart part = true := by
  cases text with
  | nil => simp
  | cons mark text =>
    obtain ⟨isMark, digits⟩ := (Bool.and_eq_true _ _).mp exponent
    have markPart : isNumberPart mark = true := by
      rcases (Bool.or_eq_true _ _).mp isMark with lower | upper
      · rw [of_decide_eq_true lower]
        rfl
      · rw [of_decide_eq_true upper]
        rfl
    refine List.forall_mem_cons.mpr ⟨markPart, ?_⟩
    cases plus : afterWord ['+'] text with
    | some rest =>
      rw [plus] at digits
      rw [afterWord_some plus]
      exact List.forall_mem_cons.mpr ⟨rfl, parts_of_isDigits digits⟩
    | none =>
      rw [plus] at digits
      cases minus : afterWord ['-'] text with
      | some rest =>
        rw [minus] at digits
        rw [afterWord_some minus]
        exact List.forall_mem_cons.mpr ⟨rfl, parts_of_isDigits digits⟩
      | none =>
        rw [minus] at digits
        exact parts_of_isDigits digits

theorem parts_of_run (left : ∀ part ∈ (readRun Char.isDigit text).2, isNumberPart part = true) :
    ∀ part ∈ text, isNumberPart part = true := by
  intro part member
  rw [← List.takeWhile_append_dropWhile (p := Char.isDigit) (l := text)] at member
  rcases List.mem_append.mp member with inRun | inRest
  · exact isNumberPart_of_isDigit (List.mem_takeWhile_imp inRun)
  · exact left part inRest

theorem parts_of_isFraction (fraction : isFraction text = true) : ∀ part ∈ text, isNumberPart part = true := by
  unfold isFraction at fraction
  cases point : afterWord ['.'] text with
  | some rest =>
    rw [point] at fraction
    have exponent := ((Bool.and_eq_true _ _).mp fraction).2
    rw [afterWord_some point]
    exact List.forall_mem_cons.mpr ⟨rfl, parts_of_run (parts_of_isExponent exponent)⟩
  | none =>
    rw [point] at fraction
    exact parts_of_isExponent fraction

theorem isUnsigned_spec (unsigned : isUnsigned text = true) :
    (∃ digit digits, text = digit :: digits ∧ digit.isDigit = true) ∧ ∀ part ∈ text, isNumberPart part = true := by
  obtain ⟨whole, fraction⟩ := (Bool.and_eq_true _ _).mp unsigned
  refine ⟨?_, parts_of_run (parts_of_isFraction fraction)⟩
  cases text with
  | nil => cases whole
  | cons digit digits =>
    refine ⟨digit, digits, rfl, ?_⟩
    by_contra notDigit
    rw [readRun, List.takeWhile_cons_of_neg (by simpa using notDigit)] at whole
    cases whole

/-- A number starts with a digit or a sign, and all its characters can be parts of a number. -/
theorem isNumber_spec (isNumber : isNumber token = true) :
    (∃ start others, token = start :: others ∧ (start.isDigit = true ∨ start = '-')) ∧
      ∀ part ∈ token, isNumberPart part = true := by
  unfold JsonTexts.isNumber at isNumber
  cases minus : afterWord ['-'] token with
  | some unsigned =>
    rw [minus] at isNumber
    rw [afterWord_some minus]
    exact ⟨⟨'-', unsigned, rfl, .inr rfl⟩, List.forall_mem_cons.mpr ⟨rfl, (isUnsigned_spec isNumber).2⟩⟩
  | none =>
    rw [minus] at isNumber
    obtain ⟨⟨digit, digits, same, isDigit⟩, parts⟩ := isUnsigned_spec isNumber
    exact ⟨⟨digit, digits, same, .inl isDigit⟩, parts⟩

/-! ### Integers -/

theorem isWhole_concat {digits : List Char} (whole : isWhole digits = true) (notZero : digits ≠ ['0'])
    {last : Char} (digit : last.isDigit = true) : isWhole (digits ++ [last]) = true := by
  rcases (Bool.or_eq_true _ _).mp whole with zero | proper
  · exact absurd (of_decide_eq_true zero) notZero
  · simp only [isDigits, Bool.and_eq_true, Bool.not_eq_true'] at proper
    obtain ⟨⟨nonempty, areDigits⟩, leading⟩ := proper
    have notNil : digits ≠ [] := by simpa using nonempty
    simp only [isWhole, isDigits, Bool.or_eq_true, Bool.and_eq_true]
    right
    refine ⟨⟨by simp, by simp [areDigits, digit]⟩, ?_⟩
    rw [List.head?_append_of_ne_nil _ notNil]
    exact leading

/-- A numeral has no zero in front. -/
theorem isWhole_repr (value : Nat) : isWhole value.repr.toList = true := by
  induction value using Nat.strong_induction_on with
  | _ value hypothesis =>
    have small : ∀ digit < 10, isWhole [Nat.digitChar digit] = true := by decide
    have isDigit : ∀ digit < 10, (Nat.digitChar digit).isDigit = true := by decide
    rw [Nat.toList_repr]
    by_cases less : value < 10
    · rw [Nat.toDigits_of_lt_base less]
      exact small value less
    · have fewer := hypothesis (value / 10) (by omega)
      have notZero : (value / 10).repr.toList ≠ ['0'] := by
        intro same
        have zero : (value / 10).repr.toList = (0 : Nat).repr.toList := same
        have equal := repr_inj.mp (String.toList_injective zero)
        omega
      rw [Nat.toDigits_of_base_le (by omega) (by omega), ← Nat.toList_repr]
      exact isWhole_concat fewer notZero (isDigit (value % 10) (by omega))

theorem isUnsigned_repr (value : Nat) : isUnsigned value.repr.toList = true := by
  have run : readRun Char.isDigit value.repr.toList = (value.repr.toList, []) := by
    have read := readRun_append (fun _ (member : _ ∈ value.repr.toList) => isDigit_of_mem_repr member)
      (leaves_nil Char.isDigit)
    rwa [List.append_nil] at read
  rw [isUnsigned, run, isWhole_repr value]
  rfl

/-- Integers are written as numbers. -/
theorem isNumber_repr (value : Int) : isNumber value.repr.toList = true := by
  cases value with
  | ofNat magnitude =>
    change isNumber magnitude.repr.toList = true
    obtain ⟨digit, digits, same, isDigit⟩ := repr_eq_cons magnitude
    have notSign : '-' ≠ digit := by
      rintro rfl
      cases isDigit
    have unsigned := isUnsigned_repr magnitude
    rw [same] at unsigned ⊢
    rw [isNumber, afterWord_ne notSign]
    exact unsigned
  | negSucc magnitude =>
    have written : (Int.repr (Int.negSucc magnitude)).toList = '-' :: (magnitude + 1).repr.toList := by
      simp [Int.repr]
    rw [written]
    exact isUnsigned_repr (magnitude + 1)

end Tokens

/-! ## Reading what was written -/

section Written

variable {escape : Char → List Char} {fuel : Nat} {text rest : List Char}

theorem Escaping.length_le (escaping : Escaping escape) (text : List Char) :
    text.length ≤ (text.flatMap escape).length := by
  induction text with
  | nil => exact Nat.zero_le _
  | cons first text hypothesis =>
    have nonempty : escape first ≠ [] := by
      intro empty
      have read := escaping.reads first []
      rw [empty] at read
      cases read
    have positive := List.length_pos_iff.mpr nonempty
    rw [List.flatMap_cons, List.length_append, List.length_cons]
    omega

theorem string_written (escaping : Escaping escape) (text rest : List Char) (enough : text.length < fuel) :
    string fuel (text.flatMap escape ++ '"' :: rest) = some (text, rest) := by
  induction text generalizing fuel with
  | nil =>
    obtain ⟨fuel, rfl⟩ := Nat.exists_eq_add_of_lt enough
    rfl
  | cons first text hypothesis =>
    obtain ⟨less, rfl⟩ : ∃ less, fuel = less + 1 := Nat.exists_eq_succ_of_ne_zero (by omega)
    have later := @hypothesis less (by simpa using enough)
    rw [List.flatMap_cons, List.append_assoc, string, escaping.unquoted first, escaping.reads first]
    simp only [Option.bind_some, later, Option.map_some]

/-- A value whose number, if it is one, follows the grammar. -/
def Scalar.Valid : Scalar → Prop
  | .number token => isNumber token = true
  | _ => True

theorem scalar_written (escaping : Escaping escape) {value : Scalar} (valid : value.Valid)
    (leaves : Leaves isNumberPart rest) (enough : (valueText escape value).length ≤ fuel) :
    scalar fuel (valueText escape value ++ rest) = some (value, rest) := by
  cases value with
  | null => rfl
  | bool value => cases value <;> rfl
  | string text =>
    have read : afterWord ['"'] (valueText escape (.string text) ++ rest) =
        some (text.flatMap escape ++ '"' :: rest) := by
      rw [valueText, List.cons_append, List.append_assoc]
      exact afterWord_append ['"'] _
    have long := escaping.length_le text
    have short : text.length < fuel := by
      simp only [valueText, List.length_cons, List.length_append] at enough
      omega
    rw [scalar, read]
    simp only [string_written escaping text rest short, Option.map_some]
  | number token =>
    obtain ⟨⟨start, others, rfl, isStart⟩, parts⟩ := isNumber_spec valid
    have differs (other : Char) (notDigit : other.isDigit = false) (notSign : other ≠ '-') : other ≠ start := by
      rintro rfl
      rcases isStart with digit | sign
      · rw [digit] at notDigit
        cases notDigit
      · exact notSign sign
    have noWord : firstWord words (start :: others ++ rest) = none := by
      simp [firstWord, words, afterWord, differs 'n' (by decide) (by decide),
        differs 't' (by decide) (by decide), differs 'f' (by decide) (by decide)]
    rw [valueText, scalar, List.cons_append, afterWord_ne (differs '"' (by decide) (by decide)), ← List.cons_append]
    simp only [noWord, Option.none_or, number, readRun_append parts leaves, if_pos (show isNumber _ = true from valid)]

/-- A token that no value starts with, whatever follows it. -/
def Unreadable (token : List Char) : Prop :=
  ∀ fuel rest, Leaves isNumberPart rest → scalar fuel (token ++ rest) = none

/-- A value that begins with no white space, as it is written. -/
def Scalar.Compact (escape : Char → List Char) (value : Scalar) : Prop :=
  ∃ start others, valueText escape value = start :: others ∧ isSpace start = false

theorem member_written (escaping : Escaping escape) {name : List Char} {value : Scalar}
    (compact : value.Compact escape) (enough : name.length < fuel) (rest : List Char) :
    member fuel (memberText escape (name, value) ++ rest) =
      (scalar fuel (valueText escape value ++ rest)).map (fun read => ((name, read.1), read.2)) := by
  obtain ⟨start, others, isText, notSpace⟩ := compact
  have text : memberText escape (name, value) ++ rest =
      '"' :: (name.flatMap escape ++ '"' :: ':' :: (valueText escape value ++ rest)) := by
    simp [memberText]
  rw [text, member, symbol_cons (by decide)]
  simp only [Option.bind_some, string_written escaping name _ enough, symbol_cons (show isSpace ':' = false by decide)]
  rw [isText, List.cons_append, skipSpace_cons notSpace]

theorem compact_of_valid {value : Scalar} (valid : value.Valid) : value.Compact escape := by
  cases value with
  | null => exact ⟨_, _, rfl, by decide⟩
  | bool value => cases value <;> exact ⟨_, _, rfl, by decide⟩
  | string text => exact ⟨_, _, rfl, by decide⟩
  | number token =>
    obtain ⟨⟨start, others, rfl, isStart⟩, -⟩ := isNumber_spec valid
    refine ⟨start, others, rfl, ?_⟩
    rcases isStart with digit | rfl
    · by_contra space
      simp only [isSpace, Bool.not_eq_false, Bool.or_eq_true, decide_eq_true_eq] at space
      rcases space with ((rfl | rfl) | rfl) | rfl <;> cases digit
    · rfl

theorem length_membersText (members : List Member) :
    members.length ≤ (membersText escape members).length ∧
      ∀ member ∈ members, (memberText escape member).length ≤ (membersText escape members).length := by
  have positive (member : Member) : 0 < (memberText escape member).length := Nat.succ_pos _
  induction members with
  | nil => simp
  | cons first rest hypothesis =>
    have isPositive := positive first
    cases rest with
    | nil => simpa [membersText, Nat.succ_le_iff] using isPositive
    | cons second rest =>
      simp only [membersText, List.length_append, List.length_cons, List.forall_mem_cons] at hypothesis ⊢
      obtain ⟨count, secondLength, others⟩ := hypothesis
      refine ⟨by omega, by omega, by omega, fun member isMember => ?_⟩
      have bounded := others member isMember
      omega

/-- How much text a member needs to be read. -/
theorem fits_of_length (escaping : Escaping escape) {member : Member}
    (enough : (memberText escape member).length ≤ fuel) :
    member.1.length < fuel ∧ (valueText escape member.2).length ≤ fuel := by
  have long := escaping.length_le member.1
  simp only [memberText, List.length_cons, List.length_append] at enough
  omega

section Steps

variable {first : Member} {count : Nat}

theorem members_last (escaping : Escaping escape) (valid : first.2.Valid)
    (enough : (memberText escape first).length ≤ fuel) (rest : List Char) :
    members fuel (count + 1) (memberText escape first ++ '\x7d' :: rest) = some ([first], rest) := by
  obtain ⟨nameFits, valueFits⟩ := fits_of_length escaping enough
  have noComma : symbol ',' ('\x7d' :: rest) = none := symbol_ne (by decide) (by decide) rest
  rw [members, member_written escaping (compact_of_valid valid) nameFits,
    scalar_written escaping valid (leaves_cons rfl rest) valueFits]
  simp only [Option.map_some, Option.bind_some, noComma, symbol_cons (show isSpace '\x7d' = false by decide)]

theorem members_more (escaping : Escaping escape) (valid : first.2.Valid)
    (enough : (memberText escape first).length ≤ fuel) (text : List Char) :
    members fuel (count + 1) (memberText escape first ++ ',' :: text) =
      (members fuel count text).map (fun others => (first :: others.1, others.2)) := by
  obtain ⟨nameFits, valueFits⟩ := fits_of_length escaping enough
  rw [members, member_written escaping (compact_of_valid valid) nameFits,
    scalar_written escaping valid (leaves_cons rfl text) valueFits]
  simp only [Option.map_some, Option.bind_some, symbol_cons (show isSpace ',' = false by decide)]

theorem members_stuck (escaping : Escaping escape) (compact : first.2.Compact escape)
    (unreadable : Unreadable (valueText escape first.2)) (enough : (memberText escape first).length ≤ fuel)
    (leaves : Leaves isNumberPart rest) : members fuel count (memberText escape first ++ rest) = none := by
  cases count with
  | zero => rfl
  | succ count =>
    rw [members, member_written escaping compact (fits_of_length escaping enough).1, unreadable fuel rest leaves]
    rfl

end Steps

theorem members_written (escaping : Escaping escape) {first : Member} {others : List Member} {count : Nat}
    (valid : ∀ member ∈ first :: others, member.2.Valid)
    (enough : ∀ member ∈ first :: others, (memberText escape member).length ≤ fuel) (many : others.length < count)
    (rest : List Char) :
    members fuel count (membersText escape (first :: others) ++ '\x7d' :: rest) = some (first :: others, rest) := by
  obtain ⟨count, rfl⟩ : ∃ less, count = less + 1 := Nat.exists_eq_succ_of_ne_zero (by omega)
  obtain ⟨firstValid, othersValid⟩ := List.forall_mem_cons.mp valid
  obtain ⟨firstFits, othersFit⟩ := List.forall_mem_cons.mp enough
  induction others generalizing first count with
  | nil => exact members_last escaping firstValid firstFits rest
  | cons second others hypothesis =>
    obtain ⟨count, rfl⟩ : ∃ less, count = less + 1 :=
      Nat.exists_eq_succ_of_ne_zero (by simp only [List.length_cons] at many; omega)
    obtain ⟨secondValid, laterValid⟩ := List.forall_mem_cons.mp othersValid
    obtain ⟨secondFits, laterFit⟩ := List.forall_mem_cons.mp othersFit
    have later :=
      hypothesis othersValid othersFit count (by simpa using many) secondValid laterValid secondFits laterFit
    rw [membersText, List.append_assoc, List.cons_append, members_more escaping firstValid firstFits, later]
    rfl

/-- A value that can be read back, or a token that cannot be read at all. -/
def Scalar.Decided (escape : Char → List Char) (value : Scalar) : Prop :=
  value.Valid ∨ value.Compact escape ∧ Unreadable (valueText escape value)

theorem members_unreadable (escaping : Escaping escape) {ms : List Member} {count : Nat}
    (decided : ∀ member ∈ ms, member.2.Decided escape) (invalid : ∃ member ∈ ms, ¬ member.2.Valid)
    (enough : ∀ member ∈ ms, (memberText escape member).length ≤ fuel) (rest : List Char) :
    members fuel count (membersText escape ms ++ '\x7d' :: rest) = none := by
  induction ms generalizing count with
  | nil => simp at invalid
  | cons first others hypothesis =>
    obtain ⟨firstDecided, othersDecided⟩ := List.forall_mem_cons.mp decided
    obtain ⟨firstFits, othersFit⟩ := List.forall_mem_cons.mp enough
    rcases firstDecided with isValid | ⟨compact, unreadable⟩
    · obtain ⟨other, isOther, notValid⟩ := invalid
      have isLater : other ∈ others :=
        (List.mem_cons.mp isOther).resolve_left (fun same => notValid (same ▸ isValid))
      cases others with
      | nil => cases isLater
      | cons second others =>
        cases count with
        | zero => rfl
        | succ count =>
          rw [membersText, List.append_assoc, List.cons_append, members_more escaping isValid firstFits,
            hypothesis othersDecided ⟨other, isLater, notValid⟩ othersFit]
          rfl
    · cases others with
      | nil => exact members_stuck escaping compact unreadable firstFits (leaves_cons rfl rest)
      | cons second others =>
        rw [membersText, List.append_assoc, List.cons_append]
        exact members_stuck escaping compact unreadable firstFits (leaves_cons rfl _)

theorem membersText_cons (first : Member) (others : List Member) :
    ∃ text, membersText escape (first :: others) = '"' :: text := by
  cases others with
  | nil => exact ⟨_, rfl⟩
  | cons second others => exact ⟨_, rfl⟩

/-- A comma stands before every member but the first. -/
theorem membersText_flatMap (first : Member) (others : List Member) :
    membersText escape (first :: others) =
      memberText escape first ++ others.flatMap (fun member => ',' :: memberText escape member) := by
  induction others generalizing first with
  | nil => simp [membersText]
  | cons second others hypothesis => simp [membersText, hypothesis]

theorem fits_objectText (ms : List Member) : ms.length ≤ (objectText escape ms).length ∧
    ∀ member ∈ ms, (memberText escape member).length ≤ (objectText escape ms).length := by
  obtain ⟨count, lengths⟩ := @length_membersText escape ms
  simp only [objectText, List.length_cons, List.length_append]
  refine ⟨by omega, fun member isMember => ?_⟩
  have bounded := lengths member isMember
  omega

/-- An object is read by its members unless it has none. -/
theorem decode_objectText {first : Member} {others : List Member} :
    decode (objectText escape (first :: others)) =
      (members (objectText escape (first :: others)).length (objectText escape (first :: others)).length
        (membersText escape (first :: others) ++ ['\x7d'])).bind
          (fun read => if skipSpace read.2 = [] then some read.1 else none) := by
  obtain ⟨text, isText⟩ := @membersText_cons escape first others
  have opened : symbol '\x7b' (objectText escape (first :: others)) =
      some (membersText escape (first :: others) ++ ['\x7d']) := symbol_cons (by decide) _
  have notEmpty : symbol '\x7d' (membersText escape (first :: others) ++ ['\x7d']) = none := by
    rw [isText]
    exact symbol_ne (by decide) (by decide) _
  rw [decode, opened]
  simp only [Option.bind_some, notEmpty]

/-- An object whose numbers follow the grammar is read as it was written. -/
theorem decode_written (escaping : Escaping escape) {ms : List Member} (valid : ∀ member ∈ ms, member.2.Valid) :
    decode (objectText escape ms) = some ms := by
  cases ms with
  | nil => rfl
  | cons first others =>
    obtain ⟨count, fits⟩ := @fits_objectText escape (first :: others)
    rw [decode_objectText, members_written escaping valid fits (Nat.lt_of_succ_le count)]
    rfl

/-- An object with an unreadable token is no JSON. -/
theorem decode_unreadable (escaping : Escaping escape) {ms : List Member}
    (decided : ∀ member ∈ ms, member.2.Decided escape) (invalid : ∃ member ∈ ms, ¬ member.2.Valid) :
    decode (objectText escape ms) = none := by
  cases ms with
  | nil => simp at invalid
  | cons first others =>
    obtain ⟨-, fits⟩ := @fits_objectText escape (first :: others)
    rw [decode_objectText, members_unreadable escaping decided invalid fits []]
    rfl

end Written

end KernelLake.Library.JsonTexts
