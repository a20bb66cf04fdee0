import KernelLake.Library.Doubles
import KernelLake.Library.JsonTexts
import KernelLake.Library.Results
import KernelLake.Library.Utf8
import Mathlib.Data.List.Forall2
import Mathlib.Data.List.GetD

/-!
Query results as lines of JSON.

Every row becomes an object on a line of its own. Numbers and booleans stand as Arrow prints them, and everything
else in quotes, with an escape for each quote, backslash and control character. Arrow prints a number that is not
finite as no JSON token.
-/

namespace KernelLake.ResultFormatter

open KernelLake.Library.Doubles KernelLake.Library.JsonTexts KernelLake.Library.Texts KernelLake.Library.Utf8
open KernelLake.Library.Results

/-! ## Results -/

inductive ArrowType
  | bool
  | int8
  | int16
  | int32
  | int64
  | uint8
  | uint16
  | uint32
  | uint64
  | float
  | double
  | string
  | largeString
  | date32
  | timestamp
  | decimal128
deriving DecidableEq

inductive ArrowScalar
  | boolean (value : Bool)
  | integer (value : Int)
  | floating (value : Float)
  | text (value : List Char)
  | date (days : Int)
  | timestamp (micros : Int)
  | decimal (units : Int) (scale : Int)

def ArrowScalar.isOf : ArrowScalar → ArrowType → Bool
  | .boolean _, .bool => true
  | .integer _, .int8 | .integer _, .int16 | .integer _, .int32 | .integer _, .int64 => true
  | .integer _, .uint8 | .integer _, .uint16 | .integer _, .uint32 | .integer _, .uint64 => true
  | .floating _, .float | .floating _, .double => true
  | .text _, .string | .text _, .largeString => true
  | .date _, .date32 => true
  | .timestamp _, .timestamp => true
  | .decimal _ _, .decimal128 => true
  | _, _ => false

/-- The values of a column are all of its type; some can be missing. -/
structure Column where
  name : List Char
  type : ArrowType
  values : List (Option ArrowScalar)
  typed : ∀ value ∈ values, ∀ scalar ∈ value, scalar.isOf type = true

structure RecordBatch where
  columns : List Column
  numRows : Nat
  rectangular : ∀ column ∈ columns, column.values.length = numRows

/-- What a row has in a column. -/
structure Cell where
  name : List Char
  type : ArrowType
  value : Option ArrowScalar

def RecordBatch.row (batch : RecordBatch) (row : Nat) : List Cell :=
  batch.columns.map (fun column => ⟨column.name, column.type, column.values.getD row none⟩)

/-- The rows of a result, batch by batch. -/
def resultRows (batches : List RecordBatch) : List (List Cell) :=
  batches.flatMap (fun batch => (List.range batch.numRows).map batch.row)

/-! ## Lines -/

def isJsonNumericOrBool : ArrowType → Bool
  | .bool | .int8 | .int16 | .int32 | .int64 | .uint8 | .uint16 | .uint32 | .uint64 | .float | .double => true
  | _ => false

/-- Four hexadecimal digits, zeros in front. -/
def hexText (value : Nat) : List Char :=
  [Nat.digitChar (value / 4096 % 16), Nat.digitChar (value / 256 % 16), Nat.digitChar (value / 16 % 16),
    Nat.digitChar (value % 16)]

def escapeByte (byte : UInt8) : List UInt8 :=
  if byte = 0x22 then utf8 ['\\', '"']
  else if byte = 0x5C then utf8 ['\\', '\\']
  else if byte = 0x0A then utf8 ['\\', 'n']
  else if byte = 0x0D then utf8 ['\\', 'r']
  else if byte = 0x09 then utf8 ['\\', 't']
  else if byte = 0x08 then utf8 ['\\', 'b']
  else if byte = 0x0C then utf8 ['\\', 'f']
  else if byte ≤ 0x1F then utf8 ('\\' :: 'u' :: hexText byte.toNat)
  else [byte]

def jsonEscape (text : List UInt8) : List UInt8 :=
  text.flatMap escapeByte

/-- How Arrow prints the scalars of a type. -/
abbrev Printer := ArrowType → ArrowScalar → List Char

def scalarText (print : Printer) (type : ArrowType) : Option ArrowScalar → List UInt8
  | none => utf8 ['N', 'U', 'L', 'L']
  | some scalar => utf8 (print type scalar)

def jsonValue (print : Printer) (cell : Cell) : List UInt8 :=
  if cell.value.isNone then utf8 ['n', 'u', 'l', 'l']
  else if isJsonNumericOrBool cell.type then scalarText print cell.type cell.value
  else utf8 ['"'] ++ jsonEscape (scalarText print cell.type cell.value) ++ utf8 ['"']

def jsonMember (print : Printer) (cell : Cell) (column : Nat) : List UInt8 :=
  (if 0 < column then utf8 [','] else []) ++
    (utf8 ['"'] ++ jsonEscape (utf8 cell.name) ++ utf8 ['"', ':'] ++ jsonValue print cell)

def jsonLine (print : Printer) (row : List Cell) : List UInt8 :=
  utf8 ['\x7b'] ++ row.zipIdx.flatMap (fun cell => jsonMember print cell.1 cell.2) ++ utf8 ['\x7d']

/-- What a C string is printed as. -/
def cString (text : List UInt8) : List UInt8 :=
  text.takeWhile (· ≠ 0)

def writeJsonlFormat (print : Printer) (batches : List RecordBatch) : List UInt8 :=
  (resultRows batches).flatMap (fun row => cString (jsonLine print row) ++ [0x0A])

/-! ## What is to be read -/

/-- A double that is a number. -/
def isFinite (value : Float) : Bool :=
  (truncate value).isSome

def nonFiniteTexts : List (List Char) :=
  [['n', 'a', 'n'], ['-', 'n', 'a', 'n'], ['i', 'n', 'f'], ['-', 'i', 'n', 'f']]

/-- What Arrow is known to print. -/
structure Prints (print : Printer) : Prop where
  boolean : ∀ value, print .bool (.boolean value) = if value then ['t', 'r', 'u', 'e'] else ['f', 'a', 'l', 's', 'e']
  integer : ∀ type value, (ArrowScalar.integer value).isOf type = true →
    print type (.integer value) = value.repr.toList
  finite : ∀ type value, (ArrowScalar.floating value).isOf type = true → isFinite value = true →
    isNumber (print type (.floating value)) = true
  nonFinite : ∀ type value, (ArrowScalar.floating value).isOf type = true → isFinite value = false →
    print type (.floating value) ∈ nonFiniteTexts
  text : ∀ type value, (ArrowScalar.text value).isOf type = true → print type (.text value) = value

/-- The JSON value of a cell. Dates, times and decimals are strings of what Arrow prints for them. -/
def expected (print : Printer) (cell : Cell) : Scalar :=
  match cell.value with
  | none => .null
  | some (.boolean value) => .bool value
  | some (.integer value) => .number value.repr.toList
  | some (.floating value) => .number (print cell.type (.floating value))
  | some (.text value) => .string value
  | some scalar => .string (print cell.type scalar)

def expectedMembers (print : Printer) (row : List Cell) : List Member :=
  row.map (fun cell => (cell.name, expected print cell))

/-- A line without breaks that is the JSON text of a row. -/
def ReadsAs (print : Printer) (row : List Cell) (line : List UInt8) : Prop :=
  0x0A ∉ line ∧ 0x0D ∉ line ∧ ∃ text, utf8 text = line ∧ decode text = some (expectedMembers print row)

/-- The output has one line for each row, from which the row can be read. -/
def DecodesToRows (print : Printer) (batches : List RecordBatch) : Prop :=
  ∃ lines, writeJsonlFormat print batches = lines.flatMap (· ++ [0x0A]) ∧
    List.Forall₂ (ReadsAs print) (resultRows batches) lines

/-- No number of a row is a NaN or infinite. -/
def FiniteRow (row : List Cell) : Prop :=
  ∀ cell ∈ row, ∀ value, cell.value = some (.floating value) → isFinite value = true

/-! ## Escapes -/

def escapeCharacter (first : Char) : List Char :=
  if first = '"' then ['\\', '"']
  else if first = '\\' then ['\\', '\\']
  else if first = '\n' then ['\\', 'n']
  else if first = '\r' then ['\\', 'r']
  else if first = '\t' then ['\\', 't']
  else if first = Char.ofNat 8 then ['\\', 'b']
  else if first = Char.ofNat 12 then ['\\', 'f']
  else if first.toNat ≤ 0x1F then '\\' :: 'u' :: hexText first.toNat
  else [first]

theorem escapeCharacter_wide {first : Char} (wide : 0x80 ≤ first.toNat) : escapeCharacter first = [first] := by
  have differs (other : Char) (narrow : other.toNat < 0x80) : first ≠ other := by
    rintro rfl
    omega
  rw [escapeCharacter, if_neg (differs _ (by decide)), if_neg (differs _ (by decide)), if_neg (differs _ (by decide)),
    if_neg (differs _ (by decide)), if_neg (differs _ (by decide)), if_neg (differs _ (by decide)),
    if_neg (differs _ (by decide)), if_neg (by omega)]

theorem escapeByte_wide {byte : UInt8} (wide : 0x80 ≤ byte.toNat) : escapeByte byte = [byte] := by
  have differs (other : UInt8) (narrow : other.toNat < 0x80) : byte ≠ other := by
    rintro rfl
    omega
  have above : ¬ byte ≤ 0x1F := by
    rw [UInt8.le_iff_toNat_le]
    simp only [UInt8.reduceToNat]
    omega
  rw [escapeByte, if_neg (differs _ (by decide)), if_neg (differs _ (by decide)), if_neg (differs _ (by decide)),
    if_neg (differs _ (by decide)), if_neg (differs _ (by decide)), if_neg (differs _ (by decide)),
    if_neg (differs _ (by decide)), if_neg above]

theorem escapeByte_ascii : ∀ code < 0x80, escapeByte (UInt8.ofNat code) = utf8 (escapeCharacter (Char.ofNat code)) := by
  decide

/-- The escapes of a text's bytes are those of its characters. -/
theorem jsonEscape_utf8 (text : List Char) : jsonEscape (utf8 text) = utf8 (text.flatMap escapeCharacter) := by
  refine utf8_flatMap (fun first ascii => ?_) (fun _ => escapeByte_wide) (fun _ => escapeCharacter_wide) text
  have same := escapeByte_ascii first.toNat ascii
  rwa [Char.ofNat_toNat] at same

theorem hexDigit_digitChar : ∀ digit < 16, hexDigit (Nat.digitChar digit) = some digit := by
  decide

theorem codeUnit_hexText {code : Nat} (small : code < 0x10000) (rest : List Char) :
    codeUnit (hexText code ++ rest) = some (code, rest) := by
  have digit (value : Nat) : hexDigit (Nat.digitChar (value % 16)) = some (value % 16) :=
    hexDigit_digitChar _ (Nat.mod_lt _ (by decide))
  simp only [hexText, List.cons_append, List.nil_append, codeUnit, digit, Option.bind_some, Option.map_some,
    Option.some.injEq, Prod.mk.injEq, and_true]
  omega

theorem character_hexText {first : Char} (control : first.toNat ≤ 0x1F) (rest : List Char) :
    character ('\\' :: 'u' :: hexText first.toNat ++ rest) = some (first, rest) := by
  have code := @codeUnit_hexText first.toNat (by omega) rest
  have notHigh : isHighSurrogate first.toNat = false := by
    simp only [isHighSurrogate, Bool.and_eq_false_iff, decide_eq_false_iff_not]
    omega
  have notLow : isLowSurrogate first.toNat = false := by
    simp only [isLowSurrogate, Bool.and_eq_false_iff, decide_eq_false_iff_not]
    omega
  change escaped ('u' :: (hexText first.toNat ++ rest)) = _
  have after : afterWord ['u'] ('u' :: (hexText first.toNat ++ rest)) = some (hexText first.toNat ++ rest) :=
    afterWord_append ['u'] _
  rw [escaped, after]
  simp [code, notHigh, notLow]

/-- A character is written with a letter after a backslash, with its code or as it is. -/
theorem escapeCharacter_cases (first : Char) :
    (∃ letter : Char, escapeCharacter first = ['\\', letter] ∧ 0x20 ≤ letter.toNat ∧
      ∀ rest, character ('\\' :: letter :: rest) = some (first, rest)) ∨
    (first.toNat ≤ 0x1F ∧ escapeCharacter first = '\\' :: 'u' :: hexText first.toNat) ∨
    (first ≠ '"' ∧ first ≠ '\\' ∧ 0x1F < first.toNat ∧ escapeCharacter first = [first]) := by
  unfold escapeCharacter
  split_ifs with quote backslash newline carriage tab backspace feed control
  · exact .inl ⟨'"', rfl, by decide, fun _ => by rw [quote]; rfl⟩
  · exact .inl ⟨'\\', rfl, by decide, fun _ => by rw [backslash]; rfl⟩
  · exact .inl ⟨'n', rfl, by decide, fun _ => by rw [newline]; rfl⟩
  · exact .inl ⟨'r', rfl, by decide, fun _ => by rw [carriage]; rfl⟩
  · exact .inl ⟨'t', rfl, by decide, fun _ => by rw [tab]; rfl⟩
  · exact .inl ⟨'b', rfl, by decide, fun _ => by rw [backspace]; rfl⟩
  · exact .inl ⟨'f', rfl, by decide, fun _ => by rw [feed]; rfl⟩
  · exact .inr (.inl ⟨control, rfl⟩)
  · exact .inr (.inr ⟨quote, backslash, by omega, rfl⟩)

/-- A character of a string is read as it was before it was escaped. -/
theorem escaping : Escaping escapeCharacter where
  reads first rest := by
    obtain ⟨letter, written, -, read⟩ | ⟨control, written⟩ | ⟨quote, backslash, above, written⟩ :=
      escapeCharacter_cases first
    · rw [written]
      exact read rest
    · rw [written]
      exact character_hexText control rest
    · have printable : ¬ (first = '"' ∨ first.toNat < 0x20) := by
        rintro (isQuote | below)
        · exact quote isQuote
        · omega
      rw [written, List.singleton_append, character, if_neg backslash, if_neg printable]
  unquoted first rest := by
    obtain ⟨letter, written, -, -⟩ | ⟨-, written⟩ | ⟨quote, -, -, written⟩ := escapeCharacter_cases first
    · rw [written]
      exact afterWord_ne (by decide) []
    · rw [written]
      exact afterWord_ne (by decide) []
    · rw [written]
      exact afterWord_ne (Ne.symm quote) []

/-! ## Values -/

section Values

variable {print : Printer}

def Cell.Typed (cell : Cell) : Prop :=
  ∀ scalar ∈ cell.value, scalar.isOf cell.type = true

theorem isJsonNumericOrBool_of {scalar : ArrowScalar} {type : ArrowType} (typed : scalar.isOf type = true) :
    isJsonNumericOrBool type =
      match scalar with
      | .boolean _ | .integer _ | .floating _ => true
      | _ => false := by
  cases scalar <;> cases type <;> first | rfl | cases typed

theorem jsonValue_bare {name : List Char} {type : ArrowType} {scalar : ArrowScalar}
    (bare : isJsonNumericOrBool type = true) :
    jsonValue print ⟨name, type, some scalar⟩ = utf8 (print type scalar) := by
  simp [jsonValue, bare, scalarText]

theorem jsonValue_quoted {name : List Char} {type : ArrowType} {scalar : ArrowScalar}
    (quoted : isJsonNumericOrBool type = false) : jsonValue print ⟨name, type, some scalar⟩ =
      utf8 (valueText escapeCharacter (.string (print type scalar))) := by
  simp [jsonValue, quoted, scalarText, jsonEscape_utf8, valueText]

theorem bool_of_isOf {value : Bool} {type : ArrowType} (typed : (ArrowScalar.boolean value).isOf type = true) :
    type = .bool := by
  cases type <;> first | rfl | cases typed

/-- A cell is printed as the value that is to be read. -/
theorem jsonValue_utf8 (prints : Prints print) {cell : Cell} (typed : cell.Typed) :
    jsonValue print cell = utf8 (valueText escapeCharacter (expected print cell)) := by
  obtain ⟨name, type, value⟩ := cell
  cases value with
  | none => rfl
  | some scalar =>
    have isOf : scalar.isOf type = true := typed scalar rfl
    have bare := isJsonNumericOrBool_of isOf
    cases scalar with
    | boolean value =>
      rw [jsonValue_bare bare, bool_of_isOf isOf, prints.boolean]
      cases value <;> rfl
    | integer value =>
      rw [jsonValue_bare bare, prints.integer type value isOf]
      rfl
    | floating value => exact jsonValue_bare bare
    | text value =>
      rw [jsonValue_quoted bare, prints.text type value isOf]
      rfl
    | _ => exact jsonValue_quoted bare

theorem nonFinite_cases {token : List Char} (nonFinite : token ∈ nonFiniteTexts) :
    token = ['n', 'a', 'n'] ∨ token = ['-', 'n', 'a', 'n'] ∨ token = ['i', 'n', 'f'] ∨
      token = ['-', 'i', 'n', 'f'] := by
  simpa [nonFiniteTexts] using nonFinite

theorem nonFinite_spec {token : List Char} (nonFinite : token ∈ nonFiniteTexts) :
    (Scalar.number token).Compact escapeCharacter ∧ Unreadable token ∧ isNumber token = false := by
  rcases nonFinite_cases nonFinite with rfl | rfl | rfl | rfl
  · exact ⟨⟨_, _, rfl, rfl⟩, fun _ _ _ => rfl, rfl⟩
  · exact ⟨⟨_, _, rfl, rfl⟩, fun _ _ _ => rfl, rfl⟩
  · exact ⟨⟨_, _, rfl, rfl⟩, fun _ _ _ => rfl, rfl⟩
  · exact ⟨⟨_, _, rfl, rfl⟩, fun _ _ _ => rfl, rfl⟩

def Cell.Finite (cell : Cell) : Prop :=
  ∀ value, cell.value = some (.floating value) → isFinite value = true

theorem expected_valid_iff (prints : Prints print) {cell : Cell} (typed : cell.Typed) :
    (expected print cell).Valid ↔ cell.Finite := by
  obtain ⟨name, type, value⟩ := cell
  cases value with
  | none => exact ⟨fun _ _ same => (by cases same), fun _ => trivial⟩
  | some scalar =>
    cases scalar with
    | integer value => exact ⟨fun _ _ same => (by cases same), fun _ => isNumber_repr value⟩
    | floating value =>
      constructor
      · intro valid other same
        obtain rfl : value = other := by simpa using same
        by_contra notFinite
        have invalid := (nonFinite_spec (prints.nonFinite type value (typed _ rfl) (by simpa using notFinite))).2.2
        rw [show isNumber (print type (.floating value)) = true from valid] at invalid
        cases invalid
      · exact fun finite => prints.finite type value (typed _ rfl) (finite value rfl)
    | _ => exact ⟨fun _ _ same => (by cases same), fun _ => trivial⟩

theorem expected_decided (prints : Prints print) {cell : Cell} (typed : cell.Typed) :
    (expected print cell).Decided escapeCharacter := by
  by_cases finite : cell.Finite
  · exact .inl ((expected_valid_iff prints typed).mpr finite)
  · have found : ∃ value, cell.value = some (.floating value) ∧ isFinite value = false := by
      simpa [Cell.Finite] using finite
    obtain ⟨value, isValue, notFinite⟩ := found
    obtain ⟨compact, unreadable, -⟩ :=
      nonFinite_spec (prints.nonFinite cell.type value (typed _ isValue) notFinite)
    have isExpected : expected print cell = .number (print cell.type (.floating value)) := by
      simp [expected, isValue]
    rw [isExpected]
    exact .inr ⟨compact, unreadable⟩

end Values

/-! ## Rows -/

section Rows

variable {print : Printer} {row : List Cell}

theorem jsonMember_utf8 (prints : Prints print) {cell : Cell} (typed : cell.Typed) (column : Nat) :
    jsonMember print cell column =
      utf8 ((if 0 < column then [','] else []) ++ memberText escapeCharacter (cell.name, expected print cell)) := by
  have comma : (if 0 < column then utf8 [','] else []) = utf8 (if 0 < column then [','] else []) := by
    split <;> rfl
  rw [jsonMember, jsonValue_utf8 prints typed, jsonEscape_utf8, comma]
  simp only [memberText, utf8_append, utf8_cons, utf8_nil, List.append_assoc, List.append_nil]

/-- A row is printed as the object of what is to be read. -/
theorem jsonLine_utf8 (prints : Prints print) (typed : ∀ cell ∈ row, cell.Typed) :
    jsonLine print row = utf8 (objectText escapeCharacter (expectedMembers print row)) := by
  have later : ∀ cells : List Cell, (∀ cell ∈ cells, cell.Typed) → ∀ column, 0 < column →
      (cells.zipIdx column).flatMap (fun cell => jsonMember print cell.1 cell.2) =
        utf8 ((expectedMembers print cells).flatMap (fun member => ',' :: memberText escapeCharacter member)) := by
    intro cells
    induction cells with
    | nil => exact fun _ _ _ => rfl
    | cons cell cells hypothesis =>
      intro allTyped column positive
      obtain ⟨cellTyped, othersTyped⟩ := List.forall_mem_cons.mp allTyped
      rw [List.zipIdx_cons, List.flatMap_cons, hypothesis othersTyped (column + 1) (Nat.succ_pos _),
        jsonMember_utf8 prints cellTyped, if_pos positive, ← utf8_append]
      rfl
  have inside : row.zipIdx.flatMap (fun cell => jsonMember print cell.1 cell.2) =
      utf8 (membersText escapeCharacter (expectedMembers print row)) := by
    cases row with
    | nil => rfl
    | cons cell cells =>
      obtain ⟨cellTyped, othersTyped⟩ := List.forall_mem_cons.mp typed
      rw [List.zipIdx_cons, List.flatMap_cons, later cells othersTyped (0 + 1) (Nat.succ_pos _),
        jsonMember_utf8 prints cellTyped, if_neg (Nat.lt_irrefl 0), ← utf8_append, List.nil_append]
      exact congrArg utf8 (membersText_flatMap _ _).symm
  rw [jsonLine, inside]
  simp only [objectText, utf8_append, utf8_cons, utf8_nil, List.append_nil, List.append_assoc]

/-! ### Printable characters -/

def Printable (text : List Char) : Prop :=
  ∀ character ∈ text, 0x20 ≤ character.toNat

theorem printable_of_all {text : List Char}
    (all : text.all (fun character => decide (0x20 ≤ character.toNat)) = true) : Printable text :=
  fun character member => of_decide_eq_true (List.all_eq_true.mp all character member)

theorem Printable.append {first second : List Char} (isFirst : Printable first) (isSecond : Printable second) :
    Printable (first ++ second) :=
  List.forall_mem_append.mpr ⟨isFirst, isSecond⟩

theorem Printable.cons {first : Char} {text : List Char} (above : 0x20 ≤ first.toNat) (isText : Printable text) :
    Printable (first :: text) :=
  List.forall_mem_cons.mpr ⟨above, isText⟩

theorem printable_digitChar : ∀ digit < 16, 0x20 ≤ (Nat.digitChar digit).toNat := by
  decide

theorem printable_hexText (value : Nat) : Printable (hexText value) := by
  have digit (part : Nat) : 0x20 ≤ (Nat.digitChar (part % 16)).toNat :=
    printable_digitChar _ (Nat.mod_lt _ (by decide))
  simp only [Printable, hexText, List.forall_mem_cons, digit, List.not_mem_nil, true_and]
  simp

theorem printable_escaped (text : List Char) : Printable (text.flatMap escapeCharacter) := by
  intro character member
  obtain ⟨first, -, isEscaped⟩ := List.mem_flatMap.mp member
  revert isEscaped
  suffices printable : Printable (escapeCharacter first) from fun isEscaped => printable character isEscaped
  obtain ⟨letter, written, above, -⟩ | ⟨-, written⟩ | ⟨-, -, above, written⟩ := escapeCharacter_cases first
  · rw [written]
    exact .cons (by decide) (.cons above (fun _ inNil => by cases inNil))
  · rw [written]
    exact .cons (by decide) (.cons (by decide) (printable_hexText _))
  · rw [written]
    exact .cons above (fun _ inNil => by cases inNil)

theorem printable_of_isNumberPart {part : Char} (isPart : isNumberPart part = true) : 0x20 ≤ part.toNat := by
  rcases (Bool.or_eq_true _ _).mp isPart with digit | mark
  · have bounds := Char.isDigit_iff_toNat.mp digit
    have zero : '0'.toNat = 48 := rfl
    omega
  · have isMark : part = '+' ∨ part = '-' ∨ part = '.' ∨ part = 'e' ∨ part = 'E' := by simpa using mark
    rcases isMark with rfl | rfl | rfl | rfl | rfl <;> decide

theorem printable_of_nonFinite {token : List Char} (nonFinite : token ∈ nonFiniteTexts) : Printable token := by
  rcases nonFinite_cases nonFinite with rfl | rfl | rfl | rfl <;> exact printable_of_all rfl

theorem printable_value (prints : Prints print) {cell : Cell} (typed : cell.Typed) :
    Printable (valueText escapeCharacter (expected print cell)) := by
  obtain ⟨name, type, value⟩ := cell
  have quoted (text : List Char) : Printable (valueText escapeCharacter (.string text)) :=
    .cons (by decide) (.append (printable_escaped text) (printable_of_all rfl))
  have ofNumber (token : List Char) (valid : isNumber token = true) : Printable token :=
    fun part member => printable_of_isNumberPart ((isNumber_spec valid).2 part member)
  cases value with
  | none => exact printable_of_all rfl
  | some scalar =>
    cases scalar with
    | boolean value =>
      cases value with
      | false => exact printable_of_all rfl
      | true => exact printable_of_all rfl
    | integer value => exact ofNumber _ (isNumber_repr value)
    | floating value =>
      by_cases finite : isFinite value = true
      · exact ofNumber _ (prints.finite type value (typed _ rfl) finite)
      · have printed := prints.nonFinite type value (typed _ rfl) (by simpa using finite)
        exact printable_of_nonFinite printed
    | _ => exact quoted _

theorem printable_objectText (prints : Prints print) (typed : ∀ cell ∈ row, cell.Typed) :
    Printable (objectText escapeCharacter (expectedMembers print row)) := by
  have member (cell : Cell) (cellTyped : cell.Typed) :
      Printable (memberText escapeCharacter (cell.name, expected print cell)) :=
    .cons (by decide) (.append (printable_escaped _)
      (.cons (by decide) (.cons (by decide) (printable_value prints cellTyped))))
  refine .cons (by decide) (.append ?_ (printable_of_all rfl))
  cases row with
  | nil => exact fun _ inNil => by cases inNil
  | cons cell cells =>
    obtain ⟨cellTyped, othersTyped⟩ := List.forall_mem_cons.mp typed
    rw [expectedMembers, List.map_cons, membersText_flatMap]
    refine .append (member cell cellTyped) (fun part isPart => ?_)
    obtain ⟨other, isOther, inText⟩ := List.mem_flatMap.mp isPart
    obtain ⟨otherCell, isCell, rfl⟩ := List.mem_map.mp isOther
    exact (Printable.cons (by decide) (member otherCell (othersTyped otherCell isCell))) part inText

/-- A printable text has no control characters among its bytes. -/
theorem not_mem_of_printable {text : List Char} (printable : Printable text) {byte : UInt8}
    (control : byte.toNat < 0x20) : byte ∉ utf8 text := by
  intro member
  obtain ⟨character, inText, same⟩ := exists_of_mem_utf8 (by omega) member
  have above := printable character inText
  omega

theorem cString_jsonLine (prints : Prints print) (typed : ∀ cell ∈ row, cell.Typed) :
    cString (jsonLine print row) = utf8 (objectText escapeCharacter (expectedMembers print row)) := by
  rw [jsonLine_utf8 prints typed, cString, List.takeWhile_eq_self_iff]
  intro byte member
  have notZero : byte ≠ 0 := by
    rintro rfl
    exact not_mem_of_printable (printable_objectText prints typed) (by decide) member
  simpa using notZero

theorem readsAs_iff (prints : Prints print) (typed : ∀ cell ∈ row, cell.Typed) :
    ReadsAs print row (cString (jsonLine print row)) ↔ FiniteRow row := by
  have printable := printable_objectText prints typed
  rw [cString_jsonLine prints typed]
  constructor
  · rintro ⟨-, -, text, sameBytes, isRow⟩ cell isCell
    obtain rfl := utf8_injective sameBytes
    by_contra notFinite
    have decided : ∀ member ∈ expectedMembers print row, member.2.Decided escapeCharacter := by
      intro member isMember
      obtain ⟨other, isOther, rfl⟩ := List.mem_map.mp isMember
      exact expected_decided prints (typed other isOther)
    have invalid : ∃ member ∈ expectedMembers print row, ¬ member.2.Valid :=
      ⟨_, List.mem_map.mpr ⟨cell, isCell, rfl⟩,
        fun valid => notFinite ((expected_valid_iff prints (typed cell isCell)).mp valid)⟩
    rw [decode_unreadable escaping decided invalid] at isRow
    cases isRow
  · intro finite
    refine ⟨not_mem_of_printable printable (by decide), not_mem_of_printable printable (by decide), _, rfl, ?_⟩
    refine decode_written escaping (fun member isMember => ?_)
    obtain ⟨cell, isCell, rfl⟩ := List.mem_map.mp isMember
    exact (expected_valid_iff prints (typed cell isCell)).mpr (finite cell isCell)

end Rows

/-! ## Results -/

section Output

variable {print : Printer} {batches : List RecordBatch}

theorem typed_row {row : List Cell} (isRow : row ∈ resultRows batches) : ∀ cell ∈ row, cell.Typed := by
  intro cell isCell scalar isScalar
  obtain ⟨batch, -, inBatch⟩ := List.mem_flatMap.mp isRow
  obtain ⟨index, -, rfl⟩ := List.mem_map.mp inBatch
  obtain ⟨column, -, rfl⟩ := List.mem_map.mp isCell
  have found : column.values.getD index none = some scalar := isScalar
  refine column.typed (some scalar) ?_ scalar rfl
  by_cases within : index < column.values.length
  · rw [List.getD_eq_getElem _ _ within] at found
    exact found ▸ List.getElem_mem within
  · rw [List.getD_eq_default _ _ (Nat.le_of_not_lt within)] at found
    cases found

theorem takeWhile_line {line rest : List UInt8} (whole : 0x0A ∉ line) :
    (line ++ 0x0A :: rest).takeWhile (· ≠ 0x0A) = line := by
  have inside : ∀ byte ∈ line, decide (byte ≠ 0x0A) = true := by
    intro byte member
    exact decide_eq_true (fun same => whole (same ▸ member))
  rw [List.takeWhile_append_of_pos inside, List.takeWhile_cons_of_neg (by simp), List.append_nil]

/-- Lines without breaks can be told apart. -/
theorem lines_unique {first second : List (List UInt8)} (firstWhole : ∀ line ∈ first, 0x0A ∉ line)
    (secondWhole : ∀ line ∈ second, 0x0A ∉ line)
    (same : first.flatMap (· ++ [0x0A]) = second.flatMap (· ++ [0x0A])) : first = second := by
  induction first generalizing second with
  | nil =>
    cases second with
    | nil => rfl
    | cons line second => simp at same
  | cons line first hypothesis =>
    cases second with
    | nil => simp at same
    | cons other second =>
      obtain ⟨lineWhole, firstWhole⟩ := List.forall_mem_cons.mp firstWhole
      obtain ⟨otherWhole, secondWhole⟩ := List.forall_mem_cons.mp secondWhole
      simp only [List.flatMap_cons, List.append_assoc, List.singleton_append] at same
      have sameLine : line = other := by
        rw [← @takeWhile_line line _ lineWhole, same, takeWhile_line otherWhole]
      rw [sameLine] at same
      rw [sameLine, hypothesis firstWhole secondWhole (List.cons.inj (List.append_cancel_left same)).2]

/-- The output can be read back exactly where no number is a NaN or infinite. -/
theorem jsonl_decodes_iff (prints : Prints print) :
    DecodesToRows print batches ↔ ∀ row ∈ resultRows batches, FiniteRow row := by
  have printed : writeJsonlFormat print batches =
      ((resultRows batches).map (fun row => cString (jsonLine print row))).flatMap (· ++ [0x0A]) := by
    rw [List.flatMap_map]
    rfl
  have whole : ∀ line ∈ (resultRows batches).map (fun row => cString (jsonLine print row)), 0x0A ∉ line := by
    intro line isLine
    obtain ⟨row, isRow, rfl⟩ := List.mem_map.mp isLine
    rw [cString_jsonLine prints (typed_row isRow)]
    exact not_mem_of_printable (printable_objectText prints (typed_row isRow)) (by decide)
  constructor
  · rintro ⟨lines, isOutput, reads⟩ row isRow
    have linesWhole : ∀ line ∈ lines, 0x0A ∉ line := by
      intro line isLine
      obtain ⟨other, -, read⟩ := exists_of_mem_right reads isLine
      exact read.1
    obtain rfl := lines_unique whole linesWhole (printed.symm.trans isOutput)
    have read := List.forall₂_map_right_iff.mp reads
    exact (readsAs_iff prints (typed_row isRow)).mp (List.forall₂_same.mp read row isRow)
  · intro finite
    refine ⟨_, printed, List.forall₂_map_right_iff.mpr (List.forall₂_same.mpr (fun row isRow => ?_))⟩
    exact (readsAs_iff prints (typed_row isRow)).mpr (finite row isRow)

end Output

/-! ### A printer -/

/-- A double as Arrow prints it if it is whole, a NaN or infinite. -/
def plainNumber (value : Float) : List Char :=
  match truncate value with
  | some whole => whole.repr.toList
  | none =>
    match value.toModel.unpack with
    | .infinity .positive => ['i', 'n', 'f']
    | .infinity .negative => ['-', 'i', 'n', 'f']
    | _ => ['n', 'a', 'n']

def plainPrinter : Printer
  | _, .boolean value => if value then ['t', 'r', 'u', 'e'] else ['f', 'a', 'l', 's', 'e']
  | _, .integer value => value.repr.toList
  | _, .floating value => plainNumber value
  | _, .text value => value
  | _, .date days => days.repr.toList
  | _, .timestamp micros => micros.repr.toList
  | _, .decimal units _ => units.repr.toList

theorem plainPrinter_prints : Prints plainPrinter where
  boolean _ := rfl
  integer _ _ _ := rfl
  text _ _ _ := rfl
  finite type value _ finite := by
    obtain ⟨whole, isWhole⟩ := Option.isSome_iff_exists.mp finite
    simp only [plainPrinter, plainNumber, isWhole]
    exact isNumber_repr whole
  nonFinite type value _ notFinite := by
    have none : truncate value = none := by simpa [isFinite] using notFinite
    simp only [plainPrinter, plainNumber, none]
    split <;> decide

/-- A row with a name and a string that need escapes, a number, a truth value and nothing. -/
def escapedBatch : RecordBatch where
  columns :=
    [⟨['a', '"'], .string, [some (.text ['\\', '\n', Char.ofNat 0, 'é'])], by simp [ArrowScalar.isOf]⟩,
      ⟨['b'], .double, [some (.floating (ofInteger 2))], by simp [ArrowScalar.isOf]⟩,
      ⟨['c'], .bool, [some (.boolean true)], by simp [ArrowScalar.isOf]⟩,
      ⟨[], .int64, [none], by simp⟩]
  numRows := 1
  rectangular := by simp

theorem jsonl_decodes_iff_escaped : DecodesToRows plainPrinter [escapedBatch] := by
  refine (jsonl_decodes_iff plainPrinter_prints).mpr (fun row isRow => ?_)
  have isFirst : row = escapedBatch.row 0 := by simpa [resultRows, escapedBatch] using isRow
  have finite : isFinite (ofInteger 2) = true := rfl
  rw [isFirst]
  simp [FiniteRow, RecordBatch.row, escapedBatch, finite]

def notANumber : Float :=
  ⟨Float.Model.pack .notANumber⟩

def notANumberBatch : RecordBatch where
  columns := [⟨['x'], .double, [some (.floating notANumber)], by simp [ArrowScalar.isOf]⟩]
  numRows := 1
  rectangular := by simp

/-- A NaN makes its line no JSON. -/
theorem notANumber_breaks_line : Prints plainPrinter ∧ ¬ DecodesToRows plainPrinter [notANumberBatch] := by
  refine ⟨plainPrinter_prints, ?_⟩
  rintro ⟨lines, isOutput, reads⟩
  have printed : writeJsonlFormat plainPrinter [notANumberBatch] =
      utf8 ['\x7b', '"', 'x', '"', ':', 'n', 'a', 'n', '\x7d'] ++ [0x0A] := rfl
  cases reads with
  | cons read rest =>
    cases rest
    obtain ⟨-, -, text, sameBytes, isRow⟩ := read
    rw [printed, List.flatMap_singleton, ← sameBytes] at isOutput
    obtain rfl := utf8_injective (List.append_cancel_right isOutput)
    cases isRow

end KernelLake.ResultFormatter
