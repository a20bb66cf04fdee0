import KernelLake.ExpressionCompilers
import KernelLake.TableResolution

/-!
Partition values of a Delta table.

The log of a table holds the values of partition columns as texts, and its schema their types. A text is
converted when the table is resolved, and what it was converted into once more when a scan makes a constant
column of it. Numbers are converted by functions of the C library, which take what a text begins with.
-/

namespace KernelLake.DeltaPartitionValues

open KernelLake.Types KernelLake.Expressions KernelLake.Evaluation KernelLake.ExpressionCompilers
open KernelLake.PartitionValues KernelLake.Library.Texts KernelLake.Library.Doubles
open KernelLake.TableResolution (ResolutionError)

/-! ## The code -/

/-- How the C library reads floating-point numbers: the value and the number of characters that are taken,
and whether the value is out of range. -/
structure NumberReader where
  strtod : List Char → Float × Nat
  strtodRange : List Char → Bool
  strtof : List Char → Float32
  strtofRange : List Char → Bool

def stod (reader : NumberReader) (text : List Char) : Except ConversionError Float :=
  if (reader.strtod text).2 = 0 then .error .invalidArgument
  else if reader.strtodRange text then .error .outOfRange
  else .ok (reader.strtod text).1

/-- What the message of a failed conversion says: the name of the function. -/
def conversionMessage (filePath value kind column reason : String) : String :=
  s!"delta table resolution: data file '{filePath}' has partition value '{value}' for {kind} column " ++
    s!"'{column}' {reason}"

def parseDeltaPartitionValue (reader : NumberReader) (value : List Char) (type : DataType)
    (filePath column : String) : Except ResolutionError LiteralStorage :=
  let text := String.ofList value
  match type.id with
  | .boolean =>
    if text = "true" then .ok (.bool true)
    else if text = "false" then .ok (.bool false)
    else .error (.storage (conversionMessage filePath text "boolean" column "-- expected 'true' or 'false'"))
  | .int32 | .int64 | .uint32 | .uint64 =>
    match stoll value with
    | .ok number => .ok (.int64 number)
    | .error _ =>
      .error (.storage (conversionMessage filePath text "integer" column "that isn't a valid integer: stoll"))
  | .float32 | .float64 =>
    match stod reader value with
    | .ok number => .ok (.double number)
    | .error _ =>
      .error (.storage (conversionMessage filePath text "floating-point" column "that isn't a valid number: stod"))
  | .date32 =>
    match parseIsoDate value with
    | .ok days => .ok (.int64 days.toInt64)
    | .error message => .error (.sql message)
  | .string | .decimal => .ok (.string text)
  | .timestamp =>
    .error (.storage (s!"delta table resolution: data file '{filePath}' has a timestamp-typed partition column " ++
      s!"'{column}' -- timestamp partition values aren't supported yet"))

def literalAsDouble : LiteralStorage → Float
  | .double value => value
  | .int64 value => ofInteger value.toInt
  | _ => ofInteger 0

/-- A double outside the range of 64 bits has no defined conversion; it is taken as zero. -/
def literalAsInt64 : LiteralStorage → Int64
  | .int64 value => value
  | .double value => (truncateToInt64 value).getD 0
  | _ => 0

def rangeMessage : String :=
  "DECIMAL literal value out of range for its declared precision (internal error)"

/-- A decimal in the narrowest width for its precision. -/
def makeDecimalScalar (type : DataType) (value : LiteralStorage) (isValid : Bool) : Except String Datum :=
  match type.precision, type.scale with
  | some precision, some scale =>
    let raw : Int :=
      match value with
      | .int64 value => (value.toInt * tenTo scale).bmod (2 ^ 128)
      | value => (roundToScale scale (literalAsDouble value)).getD 0
    let datum : Datum := ⟨.decimal, if isValid then some raw else none⟩
    if precision ≤ 9 then
      if raw < -2 ^ 31 ∨ 2 ^ 31 ≤ raw then .error rangeMessage else .ok datum
    else if precision ≤ 18 then
      if raw < -2 ^ 63 ∨ 2 ^ 63 ≤ raw then .error rangeMessage else .ok datum
    else .ok datum
  | _, _ => .error "DECIMAL type is missing precision/scale"

/-- The scalar for a literal. -/
def literalToScalar (type : DataType) (value : LiteralStorage) : Except String Datum :=
  let isValid : Bool := value ≠ .monostate
  match type.id with
  | .boolean => .ok ⟨.boolean, if isValid then some (value = .bool true : Bool) else none⟩
  | .int32 => .ok ⟨.int32, if isValid then some (Int32.ofInt (literalAsInt64 value).toInt) else none⟩
  | .int64 => .ok ⟨.int64, if isValid then some (literalAsInt64 value) else none⟩
  | .uint32 => .ok ⟨.uint32, if isValid then some (UInt32.ofInt (literalAsInt64 value).toInt) else none⟩
  | .uint64 => .ok ⟨.uint64, if isValid then some (UInt64.ofInt (literalAsInt64 value).toInt) else none⟩
  | .float32 => .ok ⟨.float32, if isValid then some (literalAsDouble value).toFloat32 else none⟩
  | .float64 => .ok ⟨.float64, if isValid then some (literalAsDouble value) else none⟩
  | .string => .ok ⟨.string, if isValid then some (asText value) else none⟩
  | .date32 => .ok ⟨.date32, if isValid then some (Int32.ofInt (literalAsInt64 value).toInt) else none⟩
  | .timestamp => .ok ⟨.timestamp, if isValid then some (literalAsInt64 value) else none⟩
  | .decimal => makeDecimalScalar type value isValid

/-- The column that a scan appends to a number of rows. -/
def constantColumn (type : DataType) (value : LiteralStorage) (rows : Nat) : Except String (List Datum) :=
  (literalToScalar type value).map (List.replicate rows)

/-! ## What the texts denote -/

/-- Digits after a sign or none, with the integer they stand for. -/
def IsInteger (text : List Char) (number : Int) : Prop :=
  ∃ digits, AreDigits digits ∧
    ((text = digits ∨ text = '+' :: digits) ∧ number = readNatural digits ∨
      text = '-' :: digits ∧ number = -(readNatural digits : Int))

/-- The text of a decimal as an integer in units of a number of decimal places. -/
def IsDecimal (text : List Char) (scale units : Int) : Prop :=
  ∃ whole fraction digits, AreDigits whole ∧ (fraction = [] ∨ AreDigits fraction) ∧
    (digits = if fraction = [] then whole else whole ++ '.' :: fraction) ∧
    ((text = digits ∨ text = '+' :: digits) ∧
        units * 10 ^ fraction.length = readNatural (whole ++ fraction) * tenTo scale ∨
      text = '-' :: digits ∧
        units * 10 ^ fraction.length = -(readNatural (whole ++ fraction) : Int) * tenTo scale)

/-- A text that is a floating-point number as a whole. -/
def IsNumber (reader : NumberReader) (text : List Char) : Prop :=
  (reader.strtod text).2 = text.length ∧ ∀ first ∈ text.head?, isSpace first = false

def IsDecimalType (type : DataType) (precision scale : Int) : Prop :=
  type.precision = some precision ∧ type.scale = some scale ∧
    1 ≤ precision ∧ precision ≤ 38 ∧ 0 ≤ scale ∧ scale ≤ precision

/-- The value of a type that a text is the text of. There are no texts of timestamps. -/
def Denotes (reader : NumberReader) (type : DataType) (text : List Char) (datum : Datum) : Prop :=
  match type.id with
  | .boolean => text = "true".toList ∧ datum = ⟨.boolean, some true⟩ ∨
      text = "false".toList ∧ datum = ⟨.boolean, some false⟩
  | .int32 => ∃ value : Int32, IsInteger text value.toInt ∧ datum = ⟨.int32, some value⟩
  | .int64 => ∃ value : Int64, IsInteger text value.toInt ∧ datum = ⟨.int64, some value⟩
  | .uint32 => ∃ value : UInt32, IsInteger text value.toNat ∧ datum = ⟨.uint32, some value⟩
  | .uint64 => ∃ value : UInt64, IsInteger text value.toNat ∧ datum = ⟨.uint64, some value⟩
  | .float32 => IsNumber reader text ∧ reader.strtofRange text = false ∧
      datum = ⟨.float32, some (reader.strtof text)⟩
  | .float64 => IsNumber reader text ∧ reader.strtodRange text = false ∧
      datum = ⟨.float64, some (reader.strtod text).1⟩
  | .string => datum = ⟨.string, some (String.ofList text)⟩
  | .date32 => ∃ days : Int32, IsCalendarDate text days.toInt ∧ datum = ⟨.date32, some days⟩
  | .timestamp => False
  | .decimal => ∃ precision scale units : Int, IsDecimalType type precision scale ∧
      IsDecimal text scale units ∧ |units| < 10 ^ precision.toNat ∧ datum = ⟨.decimal, some units⟩

/-- A text is refused with a `StorageError`, or it is the text of a value of the type, and this value stands in
every row. -/
def ReadsExactly (reader : NumberReader) (type : DataType) (text : List Char) (filePath column : String) : Prop :=
  (∃ message, parseDeltaPartitionValue reader text type filePath column = .error (.storage message)) ∨
    ∃ value datum, parseDeltaPartitionValue reader text type filePath column = .ok value ∧
      Denotes reader type text datum ∧
      ∀ rows, constantColumn type value rows = .ok (List.replicate rows datum)

/-- No integer of 64 bits stands at the front of a text. -/
def BeginsWithNone (text : List Char) : Prop :=
  ∀ number, leadingInteger text = some number → ¬ (-2 ^ 63 ≤ number ∧ number < 2 ^ 63)

/-- The texts that are read exactly. An integer has to be the whole text and to fit its column, a date has to be
one, and a decimal has to be zero. -/
def Readable (reader : NumberReader) (type : DataType) (text : List Char) : Prop :=
  match type.id with
  | .boolean | .string | .timestamp => True
  | .int32 => BeginsWithNone text ∨ ∃ number, IsInteger text number ∧ -2 ^ 31 ≤ number ∧ number < 2 ^ 31
  | .int64 => BeginsWithNone text ∨ ∃ number, IsInteger text number ∧ -2 ^ 63 ≤ number ∧ number < 2 ^ 63
  | .uint32 => BeginsWithNone text ∨ ∃ number, IsInteger text number ∧ 0 ≤ number ∧ number < 2 ^ 32
  | .uint64 => BeginsWithNone text ∨ ∃ number, IsInteger text number ∧ 0 ≤ number ∧ number < 2 ^ 64
  | .float32 => (∃ error, stod reader text = .error error) ∨ IsNumber reader text ∧
      reader.strtofRange text = false ∧ (reader.strtod text).1.toFloat32 = reader.strtof text
  | .float64 => (∃ error, stod reader text = .error error) ∨ IsNumber reader text
  | .date32 => ∃ days, IsCalendarDate text days
  | .decimal => ∃ precision scale, IsDecimalType type precision scale ∧ IsDecimal text scale 0

/-! ## Integers -/

theorem leadingInteger_integer {text : List Char} {number : Int} (isInteger : IsInteger text number) :
    leadingInteger text = some number := by
  obtain ⟨digits, areDigits, ⟨rfl | rfl, rfl⟩ | ⟨rfl, rfl⟩⟩ := isInteger
  · rw [leadingInteger_numeral ⟨_, .inl rfl, areDigits⟩, readInteger_digits areDigits]
  · have notSpace : isSpace '+' = false := by decide
    have whole : digits.takeWhile Char.isDigit = digits := List.takeWhile_eq_self_iff.2 areDigits.2
    rw [leadingInteger, List.dropWhile_cons_of_neg (by simp [notSpace])]
    simp [takeSign, whole, areDigits.1]
  · rw [leadingInteger_numeral ⟨_, .inr rfl, areDigits⟩]
    rfl

theorem stoll_error_iff {text : List Char} : (∃ error, stoll text = .error error) ↔ BeginsWithNone text := by
  unfold stoll BeginsWithNone
  cases leadingInteger text with
  | none => simp
  | some number =>
    simp only [Option.some.injEq, forall_eq']
    split
    · rename_i fits
      simp only [reduceCtorEq, exists_false, false_iff, not_not]
      exact fits
    · rename_i fits
      simp only [Except.error.injEq, exists_eq', true_iff]
      exact fits

theorem stoll_ok_iff {text : List Char} {value : Int64} :
    stoll text = .ok value ↔ leadingInteger text = some value.toInt := by
  have bounds : -2 ^ 63 ≤ value.toInt ∧ value.toInt < 2 ^ 63 := ⟨value.le_toInt, value.toInt_lt⟩
  unfold stoll
  cases leadingInteger text with
  | none => simp
  | some number =>
    rw [Option.some.injEq]
    by_cases fits : -2 ^ 63 ≤ number ∧ number < 2 ^ 63
    · simp only [fits, and_self, if_true, Except.ok.injEq]
      constructor
      · rintro rfl
        exact (Int64.toInt_ofInt_of_le fits.1 fits.2).symm
      · rintro rfl
        exact Int64.ofInt_toInt value
    · simp only [fits, if_false, reduceCtorEq, false_iff]
      rintro rfl
      exact fits bounds

theorem toNat_ofInt32 {number : Int} (nonnegative : 0 ≤ number) (below : number < 2 ^ 32) :
    ((UInt32.ofInt number).toNat : Int) = number := by
  rw [UInt32.ofInt, Int.emod_eq_of_lt nonnegative below,
    UInt32.toNat_ofNat_of_lt' (show number.toNat < 4294967296 by omega),
    Int.toNat_of_nonneg nonnegative]

theorem ofInt32_toNat (number : UInt32) : UInt32.ofInt number.toNat = number := by
  apply UInt32.toNat_inj.1
  exact_mod_cast toNat_ofInt32 (Int.natCast_nonneg _) (by exact_mod_cast number.toNat_lt)

theorem toNat_ofInt64 {number : Int} (nonnegative : 0 ≤ number) (below : number < 2 ^ 64) :
    ((UInt64.ofInt number).toNat : Int) = number := by
  rw [UInt64.ofInt, Int.emod_eq_of_lt nonnegative below,
    UInt64.toNat_ofNat_of_lt' (show number.toNat < 18446744073709551616 by omega),
    Int.toNat_of_nonneg nonnegative]

theorem ofInt64_toNat (number : UInt64) : UInt64.ofInt number.toNat = number := by
  apply UInt64.toNat_inj.1
  exact_mod_cast toNat_ofInt64 (Int.natCast_nonneg _) (by exact_mod_cast number.toNat_lt)

section Integers

variable {reader : NumberReader} {type : DataType} {text : List Char} {filePath column : String}

/-- Integer columns differ in the numbers that fit and in the values that hold them. -/
theorem readsExactly_integer (fits : Int → Prop) (datum : Int → Datum)
    (parses : parseDeltaPartitionValue reader text type filePath column =
      match stoll text with
      | .ok number => .ok (.int64 number)
      | .error _ => .error (.storage (conversionMessage filePath (String.ofList text) "integer" column
        "that isn't a valid integer: stoll")))
    (denotes : ∀ value, Denotes reader type text value ↔
      ∃ number, IsInteger text number ∧ fits number ∧ value = datum number)
    (scalar : ∀ number : Int64, literalToScalar type (.int64 number) = .ok (datum number.toInt)) :
    ReadsExactly reader type text filePath column ↔
      BeginsWithNone text ∨ ∃ number, IsInteger text number ∧ fits number := by
  unfold ReadsExactly
  rw [parses]
  cases read : stoll text with
  | error error =>
    have none : BeginsWithNone text := stoll_error_iff.1 ⟨error, read⟩
    simp [none]
  | ok number =>
    have leading := stoll_ok_iff.1 read
    have notNone : ¬ BeginsWithNone text := by
      intro none
      obtain ⟨error, failed⟩ := stoll_error_iff.2 none
      rw [read] at failed
      cases failed
    simp only [reduceCtorEq, exists_false, false_or, notNone, Except.ok.injEq]
    constructor
    · rintro ⟨value, result, -, denoted, -⟩
      obtain ⟨other, isInteger, fit, -⟩ := (denotes result).1 denoted
      exact ⟨other, isInteger, fit⟩
    · rintro ⟨other, isInteger, fit⟩
      obtain rfl := Option.some.inj ((leadingInteger_integer isInteger).symm.trans leading)
      refine ⟨_, datum number.toInt, rfl, (denotes _).2 ⟨_, isInteger, fit, rfl⟩, fun rows => ?_⟩
      rw [constantColumn, scalar]
      rfl

theorem readsExactly_int32 (isType : type.id = .int32) :
    ReadsExactly reader type text filePath column ↔ Readable reader type text := by
  unfold Readable
  rw [isType]
  refine readsExactly_integer (fun number => -2 ^ 31 ≤ number ∧ number < 2 ^ 31)
    (fun number => ⟨.int32, some (Int32.ofInt number)⟩) ?_ ?_ ?_
  · unfold parseDeltaPartitionValue
    rw [isType]
  · intro value
    unfold Denotes
    rw [isType]
    constructor
    · rintro ⟨number, isInteger, rfl⟩
      exact ⟨number.toInt, isInteger, ⟨number.le_toInt, number.toInt_lt⟩, by rw [Int32.ofInt_toInt]⟩
    · rintro ⟨number, isInteger, fits, rfl⟩
      exact ⟨Int32.ofInt number, by rwa [Int32.toInt_ofInt_of_le fits.1 fits.2], rfl⟩
  · intro number
    unfold literalToScalar
    rw [isType]
    rfl

theorem readsExactly_int64 (isType : type.id = .int64) :
    ReadsExactly reader type text filePath column ↔ Readable reader type text := by
  unfold Readable
  rw [isType]
  refine readsExactly_integer (fun number => -2 ^ 63 ≤ number ∧ number < 2 ^ 63)
    (fun number => ⟨.int64, some (Int64.ofInt number)⟩) ?_ ?_ ?_
  · unfold parseDeltaPartitionValue
    rw [isType]
  · intro value
    unfold Denotes
    rw [isType]
    constructor
    · rintro ⟨number, isInteger, rfl⟩
      exact ⟨number.toInt, isInteger, ⟨number.le_toInt, number.toInt_lt⟩, by rw [Int64.ofInt_toInt]⟩
    · rintro ⟨number, isInteger, fits, rfl⟩
      exact ⟨Int64.ofInt number, by rwa [Int64.toInt_ofInt_of_le fits.1 fits.2], rfl⟩
  · intro number
    unfold literalToScalar
    rw [isType, Int64.ofInt_toInt]
    rfl

theorem readsExactly_uint32 (isType : type.id = .uint32) :
    ReadsExactly reader type text filePath column ↔ Readable reader type text := by
  unfold Readable
  rw [isType]
  refine readsExactly_integer (fun number => 0 ≤ number ∧ number < 2 ^ 32)
    (fun number => ⟨.uint32, some (UInt32.ofInt number)⟩) ?_ ?_ ?_
  · unfold parseDeltaPartitionValue
    rw [isType]
  · intro value
    unfold Denotes
    rw [isType]
    constructor
    · rintro ⟨number, isInteger, rfl⟩
      refine ⟨number.toNat, isInteger, ⟨by omega, by exact_mod_cast number.toNat_lt⟩, ?_⟩
      rw [ofInt32_toNat]
    · rintro ⟨number, isInteger, fits, rfl⟩
      exact ⟨UInt32.ofInt number, by rwa [toNat_ofInt32 fits.1 fits.2], rfl⟩
  · intro number
    unfold literalToScalar
    rw [isType]
    rfl

theorem readsExactly_uint64 (isType : type.id = .uint64) :
    ReadsExactly reader type text filePath column ↔ Readable reader type text := by
  unfold Readable
  rw [isType]
  refine readsExactly_integer (fun number => 0 ≤ number ∧ number < 2 ^ 64)
    (fun number => ⟨.uint64, some (UInt64.ofInt number)⟩) ?_ ?_ ?_
  · unfold parseDeltaPartitionValue
    rw [isType]
  · intro value
    unfold Denotes
    rw [isType]
    constructor
    · rintro ⟨number, isInteger, rfl⟩
      refine ⟨number.toNat, isInteger, ⟨by omega, by exact_mod_cast number.toNat_lt⟩, ?_⟩
      rw [ofInt64_toNat]
    · rintro ⟨number, isInteger, fits, rfl⟩
      exact ⟨UInt64.ofInt number, by rwa [toNat_ofInt64 fits.1 fits.2], rfl⟩
  · intro number
    unfold literalToScalar
    rw [isType]
    rfl

end Integers

/-! ## Other columns -/

section Others

variable {reader : NumberReader} {type : DataType} {text : List Char} {filePath column : String}

theorem readsExactly_boolean (isType : type.id = .boolean) : ReadsExactly reader type text filePath column := by
  have same (word : String) : String.ofList text = word ↔ text = word.toList := by
    rw [← String.toList_inj, String.toList_ofList]
  unfold ReadsExactly parseDeltaPartitionValue Denotes constantColumn literalToScalar
  simp only [isType]
  by_cases isTrue : String.ofList text = "true"
  · right
    rw [if_pos isTrue]
    exact ⟨_, ⟨.boolean, some true⟩, rfl, .inl ⟨(same _).1 isTrue, rfl⟩, fun rows => rfl⟩
  · rw [if_neg isTrue]
    by_cases isFalse : String.ofList text = "false"
    · right
      rw [if_pos isFalse]
      exact ⟨_, ⟨.boolean, some false⟩, rfl, .inr ⟨(same _).1 isFalse, rfl⟩, fun rows => rfl⟩
    · left
      rw [if_neg isFalse]
      exact ⟨_, rfl⟩

theorem readsExactly_string (isType : type.id = .string) : ReadsExactly reader type text filePath column := by
  unfold ReadsExactly parseDeltaPartitionValue Denotes constantColumn literalToScalar
  simp only [isType]
  exact .inr ⟨_, ⟨.string, some (String.ofList text)⟩, rfl, rfl, fun rows => rfl⟩

theorem readsExactly_timestamp (isType : type.id = .timestamp) : ReadsExactly reader type text filePath column := by
  unfold ReadsExactly parseDeltaPartitionValue
  simp only [isType]
  exact .inl ⟨_, rfl⟩

theorem readsExactly_date32 (isType : type.id = .date32) :
    ReadsExactly reader type text filePath column ↔ ∃ days, IsCalendarDate text days := by
  unfold ReadsExactly parseDeltaPartitionValue Denotes constantColumn literalToScalar
  simp only [isType]
  cases read : parseIsoDate text with
  | error message =>
    have noDate : ¬ ∃ days, IsCalendarDate text days := by
      rintro ⟨days, isDate⟩
      rw [parseIsoDate_ok.2 ⟨days, isDate, rfl⟩] at read
      cases read
    simp [noDate]
  | ok days =>
    obtain ⟨number, isDate, rfl⟩ := parseIsoDate_ok.1 read
    have bounds := isCalendarDate_bounds isDate
    have exact32 : (Int32.ofInt number).toInt = number := Int32.toInt_ofInt_of_le (by omega) (by omega)
    have again : Int32.ofInt (literalAsInt64 (.int64 (Int32.ofInt number).toInt64)).toInt = Int32.ofInt number := by
      rw [literalAsInt64, Int32.toInt_toInt64, exact32]
    have dated : ∃ days, IsCalendarDate text days := ⟨number, isDate⟩
    simp only [dated, iff_true]
    right
    refine ⟨_, ⟨.date32, some (Int32.ofInt number)⟩, rfl, ⟨_, by rwa [exact32], rfl⟩, fun rows => ?_⟩
    rw [again]
    rfl

theorem stod_ok {number : Float} (read : stod reader text = .ok number) :
    reader.strtodRange text = false ∧ (reader.strtod text).1 = number := by
  unfold stod at read
  split at read
  · cases read
  split at read
  · cases read
  · rename_i inRange
    exact ⟨Bool.eq_false_iff.2 inRange, Except.ok.inj read⟩

theorem constantColumn_one {value : LiteralStorage} {datum scalar : Datum}
    (isScalar : literalToScalar type value = .ok scalar)
    (constant : ∀ rows, constantColumn type value rows = .ok (List.replicate rows datum)) : datum = scalar := by
  have one := constant 1
  rw [constantColumn, isScalar] at one
  exact (List.head_eq_of_cons_eq (Except.ok.inj one)).symm

/-- Floating-point columns differ in the values that a text stands for. -/
theorem readsExactly_number {isExact : Prop} (scalar : Float → Datum)
    (parses : parseDeltaPartitionValue reader text type filePath column =
      match stod reader text with
      | .ok number => .ok (.double number)
      | .error _ => .error (.storage (conversionMessage filePath (String.ofList text) "floating-point" column
        "that isn't a valid number: stod")))
    (isScalar : ∀ number, literalToScalar type (.double number) = .ok (scalar number))
    (denotes : ∀ number, stod reader text = .ok number → (Denotes reader type text (scalar number) ↔ isExact)) :
    ReadsExactly reader type text filePath column ↔ (∃ error, stod reader text = .error error) ∨ isExact := by
  unfold ReadsExactly
  rw [parses]
  cases read : stod reader text with
  | error error => simp
  | ok number =>
    simp only [reduceCtorEq, exists_false, false_or, Except.ok.injEq, ← denotes number read]
    constructor
    · rintro ⟨value, datum, rfl, denoted, constant⟩
      rwa [constantColumn_one (isScalar number) constant] at denoted
    · intro denoted
      refine ⟨_, _, rfl, denoted, fun rows => ?_⟩
      rw [constantColumn, isScalar]
      rfl

theorem readsExactly_float32 (isType : type.id = .float32) :
    ReadsExactly reader type text filePath column ↔ Readable reader type text := by
  unfold Readable
  rw [isType]
  refine readsExactly_number (fun number => ⟨.float32, some number.toFloat32⟩) ?_ ?_ ?_
  · unfold parseDeltaPartitionValue
    rw [isType]
  · intro number
    unfold literalToScalar
    rw [isType]
    rfl
  · intro number read
    unfold Denotes
    simp only [isType, (stod_ok read).2, Datum.mk.injEq, heq_eq_eq, true_and, and_congr_right_iff]
    intro _ _
    exact ⟨Option.some.inj, congrArg some⟩

theorem readsExactly_float64 (isType : type.id = .float64) :
    ReadsExactly reader type text filePath column ↔ Readable reader type text := by
  unfold Readable
  rw [isType]
  refine readsExactly_number (fun number => ⟨.float64, some number⟩) ?_ ?_ ?_
  · unfold parseDeltaPartitionValue
    rw [isType]
  · intro number
    unfold literalToScalar
    rw [isType]
    rfl
  · intro number read
    unfold Denotes
    simp only [isType, (stod_ok read).2, (stod_ok read).1]
    simp

theorem roundToScale_zero {scale : Int} (places : 0 ≤ scale) (most : scale ≤ 38) :
    roundToScale scale (ofInteger 0) = some 0 := by
  have table : ∀ places : Fin 39, roundToScale (places : Nat) (ofInteger 0) = some 0 := by
    decide +kernel
  have entry := table ⟨scale.toNat, by omega⟩
  rwa [Int.toNat_of_nonneg places] at entry

/-- Whatever a text says, the decimal that it becomes is zero. -/
theorem literalToScalar_decimal {precision scale : Int} (isType : type.id = .decimal)
    (isDecimal : IsDecimalType type precision scale) (value : String) :
    literalToScalar type (.string value) = .ok ⟨.decimal, some (0 : Int)⟩ := by
  obtain ⟨isPrecision, isScale, -, most, places, within⟩ := isDecimal
  unfold literalToScalar makeDecimalScalar
  rw [isType, isPrecision, isScale]
  have zero := roundToScale_zero places (within.trans most)
  simp [literalAsDouble, zero]

theorem readsExactly_decimal (isType : type.id = .decimal) :
    ReadsExactly reader type text filePath column ↔ Readable reader type text := by
  unfold ReadsExactly parseDeltaPartitionValue Readable Denotes
  simp only [isType, reduceCtorEq, exists_false, false_or, Except.ok.injEq]
  constructor
  · rintro ⟨value, datum, rfl, ⟨precision, scale, units, isDecimal, denoted, -, rfl⟩, constant⟩
    have same := constantColumn_one (literalToScalar_decimal isType isDecimal _) constant
    obtain rfl : units = 0 := Option.some.inj (eq_of_heq (Datum.mk.inj same).2)
    exact ⟨precision, scale, isDecimal, denoted⟩
  · rintro ⟨precision, scale, isDecimal, denoted⟩
    refine ⟨_, ⟨.decimal, some (0 : Int)⟩, rfl, ⟨precision, scale, 0, isDecimal, denoted, by simp, rfl⟩, fun rows => ?_⟩
    rw [constantColumn, literalToScalar_decimal isType isDecimal]
    rfl

/-- Which texts are read exactly, for every type of column. -/
theorem readsExactly_iff (reader : NumberReader) (type : DataType) (text : List Char) (filePath column : String) :
    ReadsExactly reader type text filePath column ↔ Readable reader type text := by
  cases isType : type.id with
  | int32 => exact readsExactly_int32 isType
  | int64 => exact readsExactly_int64 isType
  | uint32 => exact readsExactly_uint32 isType
  | uint64 => exact readsExactly_uint64 isType
  | float32 => exact readsExactly_float32 isType
  | float64 => exact readsExactly_float64 isType
  | decimal => exact readsExactly_decimal isType
  | boolean =>
    unfold Readable
    rw [isType]
    exact iff_true_intro (readsExactly_boolean isType)
  | string =>
    unfold Readable
    rw [isType]
    exact iff_true_intro (readsExactly_string isType)
  | timestamp =>
    unfold Readable
    rw [isType]
    exact iff_true_intro (readsExactly_timestamp isType)
  | date32 =>
    unfold Readable
    rw [isType]
    exact readsExactly_date32 isType

end Others

/-- An integer that is too large for its column becomes another one. -/
theorem wraps_large : ∃ (reader : NumberReader) (type : DataType) (text : List Char) (filePath column : String),
    ¬ ReadsExactly reader type text filePath column := by
  refine ⟨⟨fun _ => (ofInteger 0, 0), fun _ => false, fun _ => (ofInteger 0).toFloat32, fun _ => false⟩, int32Type,
    "3000000000".toList, "part-0.parquet", "id", ?_⟩
  have leading : leadingInteger "3000000000".toList = some 3000000000 := by decide
  rw [readsExactly_iff]
  rintro (none | ⟨number, isInteger, -, below⟩)
  · exact none _ leading (by omega)
  · obtain rfl := Option.some.inj ((leadingInteger_integer isInteger).symm.trans leading)
    omega

end KernelLake.DeltaPartitionValues
