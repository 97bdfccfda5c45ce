/-
MyDuck.Catalog.TypeMapping — column types on their way through DuckDB,
catalog/type_mapping.go.

`DuckdbDataType` splits a MySQL type into the name of a DuckDB type and an
annotation, which is kept in the column comment. `mysqlDataType` puts the
type together again, from the name, the annotation, and the precision and
scale that DuckDB reports.

The types of the SQL engine are modelled by what their constructors are
given. What the mapping uses of the engine is a parameter (`Engine`): its
default collation, how long the characters of a collation are, and which
lists of values it accepts. A `ColumnType` is a type its constructors
return.

`column_type_iff` says which types survive: all of them but the TEXT and
BLOB types that are not one of the engine's own four each. The annotation
has the collation of a TEXT type, but it is not looked at, so that a TEXT
type survives with the default collation only.
-/
import Mathlib

namespace MyDuck.TypeMapping

/-! ## The types of the engine -/

abbrev Name := List Char

inductive IntBase where
  | int8 | uint8 | int16 | uint16 | int24 | uint24 | int32 | uint32 | int64 | uint64
  deriving DecidableEq, Repr

inductive StringBase where
  | char | varChar | text | binary | varBinary | blob
  deriving DecidableEq, Repr

/-- `sql.StringType`: the length is in characters. -/
structure StringType where
  base : StringBase
  length : Nat
  collation : Nat
  deriving DecidableEq, Repr

inductive SqlType where
  | number (base : IntBase) (displayWidth : Nat)
  | float32
  | float64
  | timestamp (precision : Nat)
  | datetime (precision : Nat)
  | date
  | time
  | year
  | decimal (precision scale : Nat)
  | string (t : StringType)
  | bit (numberOfBits : Nat)
  | json
  | enum (values : List String) (collation : Nat)
  | set (values : List String) (collation : Nat)
  | geometry
  | expression
  | other
  deriving DecidableEq, Repr

/-- What is used of the engine. A collation with the binary character set
turns character types into binary ones. -/
structure Engine where
  defaultCollation : Nat
  binaryCollation : Nat
  hasBinaryCharset : Nat → Bool
  charMaxLength : Nat → Nat
  acceptsEnum : List String → Nat → Bool
  acceptsSet : List String → Nat → Bool
  binary_has : hasBinaryCharset binaryCollation = true
  charMaxLength_pos : ∀ c, 0 < charMaxLength c
  charMaxLength_le : ∀ c, charMaxLength c ≤ 4

def tinyTextBlobMax : Nat := 255

def textBlobMax : Nat := 65535

def mediumTextBlobMax : Nat := 16777215

def longTextBlobMax : Nat := 4294967295

/-- The base type with the binary character set. -/
def StringBase.toBinary : StringBase → StringBase
  | .char => .binary
  | .varChar => .varBinary
  | .text => .blob
  | .binary => .binary
  | .varBinary => .varBinary
  | .blob => .blob

def StringBase.isCharacter : StringBase → Bool
  | .char | .varChar | .text => true
  | .binary | .varBinary | .blob => false

/-- `types.CreateDatetimeType`, for the two types. -/
def createDatetimeType (base : Nat → SqlType) (precision : Nat) : Option SqlType :=
  if precision ≤ 6 then some (base precision) else none

namespace Engine

variable (g : Engine)

def createString (base : StringBase) (length collation : Nat) : SqlType :=
  .string ⟨if g.hasBinaryCharset collation then base.toBinary else base, length, collation⟩

def createBinary (base : StringBase) (length : Nat) : SqlType :=
  g.createString base length g.binaryCollation

def createEnumType (values : List String) (collation : Nat) : Option SqlType :=
  if g.acceptsEnum values collation then some (.enum values collation) else none

def createSetType (values : List String) (collation : Nat) : Option SqlType :=
  if g.acceptsSet values collation then some (.set values collation) else none

/-- `types.TinyText`, `types.Text`, `types.MediumText` and `types.LongText`,
for as many bytes. -/
def textOf (bytes : Nat) : StringType :=
  ⟨.text, bytes / g.charMaxLength g.defaultCollation, g.defaultCollation⟩

/-- `types.TinyBlob`, `types.Blob`, `types.MediumBlob` and `types.LongBlob`. -/
def blobOf (bytes : Nat) : StringType := ⟨.blob, bytes, g.binaryCollation⟩

end Engine

/-- The sizes of the four TEXT and the four BLOB types. -/
def textBlobSizes : List Nat :=
  [tinyTextBlobMax, textBlobMax, mediumTextBlobMax, longTextBlobMax]

/-- The size of the smallest of the four TEXT or BLOB types a length falls
under. -/
def sizeClass (length : Nat) : Nat :=
  if length ≤ tinyTextBlobMax then tinyTextBlobMax
  else if length ≤ textBlobMax then textBlobMax
  else if length ≤ mediumTextBlobMax then mediumTextBlobMax
  else longTextBlobMax

/-! ## The mapping -/

/-- `MySQLType`, without the fields of the column. -/
structure MySQLType where
  name : Name := []
  length : Nat := 0
  precision : Nat := 0
  scale : Nat := 0
  unsigned : Bool := false
  display : Nat := 0
  collation : Nat := 0
  values : List String := []
  deriving DecidableEq, Repr

structure AnnotatedDuckType where
  name : Name
  mysql : MySQLType
  deriving DecidableEq, Repr

inductive MappingError where
  | unsupported
  | panic
  deriving DecidableEq, Repr

def newCommonType (name : String) : AnnotatedDuckType := ⟨name.toList, { name := name.toList }⟩

def newSimpleType (duckName mysqlName : String) : AnnotatedDuckType :=
  ⟨duckName.toList, { name := mysqlName.toList }⟩

def newStringType (duckName mysqlName : String) (t : StringType) : AnnotatedDuckType :=
  let mysql : MySQLType :=
    { name := mysqlName.toList, length := t.length % 2 ^ 32, collation := t.collation % 2 ^ 16 }
  ⟨duckName.toList, mysql⟩

def newPrecisionType (duckName mysqlName : String) (precision : Nat) : AnnotatedDuckType :=
  ⟨duckName.toList, { name := mysqlName.toList, precision }⟩

def newDecimalType (precision scale : Nat) : AnnotatedDuckType :=
  ⟨"DECIMAL(".toList ++ (toString precision).toList ++ ", ".toList ++ (toString scale).toList ++
    ")".toList, { name := "DECIMAL".toList, precision, scale }⟩

def newNumberType (name : String) (displayWidth : Nat) : AnnotatedDuckType :=
  ⟨name.toList, { name := name.toList, display := displayWidth % 2 ^ 8 }⟩

def newMediumIntType (displayWidth : Nat) : AnnotatedDuckType :=
  ⟨"INTEGER".toList, { name := "MEDIUMINT".toList, display := displayWidth % 2 ^ 8 }⟩

def newUnsignedMediumIntType (displayWidth : Nat) : AnnotatedDuckType :=
  ⟨"UINTEGER".toList,
    { name := "MEDIUMINT".toList, display := displayWidth % 2 ^ 8, unsigned := true }⟩

/-- The precision is rounded up to what DuckDB has. -/
def newDateTimeType (mysqlName : String) (precision : Nat) : AnnotatedDuckType :=
  let name :=
    if precision = 0 then "TIMESTAMP_S" else if precision ≤ 3 then "TIMESTAMP_MS" else "TIMESTAMP"
  ⟨name.toList, { name := mysqlName.toList, precision := precision % 2 ^ 8 }⟩

/-- Single quotes are doubled. -/
def escapeValue (value : String) : Name :=
  value.toList.flatMap fun c => if [c] = "'".toList then "''".toList else [c]

def newEnumType (values : List String) (collation : Nat) : AnnotatedDuckType :=
  ⟨"ENUM('".toList ++ "', '".toList.intercalate (values.map escapeValue) ++ "')".toList,
    { name := "ENUM".toList, values, collation := collation % 2 ^ 16 }⟩

def newSetType (values : List String) (collation : Nat) : AnnotatedDuckType :=
  ⟨"VARCHAR".toList, { name := "SET".toList, values, collation := collation % 2 ^ 16 }⟩

def duckDBDecimalTypeMaxPrecision : Nat := 38

def duckdbDataType : SqlType → Except MappingError AnnotatedDuckType
  | .number .int8 w => .ok (newNumberType "TINYINT" w)
  | .number .uint8 w => .ok (newNumberType "UTINYINT" w)
  | .number .int16 w => .ok (newNumberType "SMALLINT" w)
  | .number .uint16 w => .ok (newNumberType "USMALLINT" w)
  | .number .int24 w => .ok (newMediumIntType w)
  | .number .uint24 w => .ok (newUnsignedMediumIntType w)
  | .number .int32 w => .ok (newNumberType "INTEGER" w)
  | .number .uint32 w => .ok (newNumberType "UINTEGER" w)
  | .number .int64 w => .ok (newNumberType "BIGINT" w)
  | .number .uint64 w => .ok (newNumberType "UBIGINT" w)
  | .float32 => .ok (newCommonType "FLOAT")
  | .float64 => .ok (newCommonType "DOUBLE")
  | .timestamp p => .ok (newDateTimeType "TIMESTAMP" p)
  | .date => .ok (newCommonType "DATE")
  | .time => .ok (newSimpleType "INTERVAL" "TIME")
  | .datetime p => .ok (newDateTimeType "DATETIME" p)
  | .year => .ok (newSimpleType "SMALLINT" "YEAR")
  | .decimal p s =>
    let prec := if duckDBDecimalTypeMaxPrecision < p then duckDBDecimalTypeMaxPrecision else p
    let scale := if duckDBDecimalTypeMaxPrecision < p ∧ prec < s then prec else s
    .ok (newDecimalType prec scale)
  | .string t =>
    match t.base with
    | .text => .ok (newStringType "VARCHAR" "TEXT" t)
    | .blob => .ok (newStringType "BLOB" "BLOB" t)
    | .varChar => .ok (newStringType "VARCHAR" "VARCHAR" t)
    | .varBinary => .ok (newStringType "BLOB" "VARBINARY" t)
    | .char => .ok (newStringType "VARCHAR" "CHAR" t)
    | .binary => .ok (newStringType "BLOB" "BINARY" t)
  | .bit n => .ok (newPrecisionType "UBIGINT" "BIT" n)
  | .json => .ok (newCommonType "JSON")
  | .enum values collation => .ok (newEnumType values collation)
  | .set values collation => .ok (newSetType values collation)
  | .geometry => .error .unsupported
  | .expression => .error .unsupported
  | .other => .error .panic

def trimSpace (name : Name) : Name :=
  ((name.dropWhile Char.isWhitespace).reverse.dropWhile Char.isWhitespace).reverse

/-- The name of the DuckDB type without its parameters. -/
def baseName (name : Name) : Name :=
  let duckName := trimSpace (name.map Char.toUpper)
  if "DECIMAL".toList.isPrefixOf duckName then "DECIMAL".toList
  else if "ENUM".toList.isPrefixOf duckName then "ENUM".toList
  else duckName

/-- The integer types, which all have a display width. -/
def intBaseType (duckName mysqlName : Name) : Option IntBase :=
  if duckName = "TINYINT".toList then some .int8
  else if duckName = "UTINYINT".toList then some .uint8
  else if duckName = "SMALLINT".toList then some .int16
  else if duckName = "USMALLINT".toList then some .uint16
  else if duckName = "INTEGER".toList then
    if mysqlName = "MEDIUMINT".toList then some .int24 else some .int32
  else if duckName = "UINTEGER".toList then
    if mysqlName = "MEDIUMINT".toList then some .uint24 else some .uint32
  else if duckName = "BIGINT".toList then some .int64
  else if duckName = "UBIGINT".toList then some .uint64
  else none

/-- `mysqlDataType`, from the name without parameters on; `none` is an
error. -/
def mysqlTypeOf (g : Engine) (duckName : Name) (mysql : MySQLType)
    (numericPrecision numericScale : Nat) : Option SqlType :=
  let mysqlName := mysql.name
  let length := mysql.length
  let precision := mysql.precision
  let collation := mysql.collation
  if duckName = "SMALLINT".toList ∧ mysqlName = "YEAR".toList then some .year
  else if duckName = "UBIGINT".toList ∧ mysqlName = "BIT".toList then some (.bit precision)
  else match intBaseType duckName mysqlName with
  | some base => some (.number base mysql.display)
  | none =>
    if duckName = "FLOAT".toList then some .float32
    else if duckName = "DOUBLE".toList then some .float64
    else if duckName = "TIMESTAMP".toList ∨ duckName = "TIMESTAMP_S".toList ∨
        duckName = "TIMESTAMP_MS".toList then
      createDatetimeType (if mysqlName = "DATETIME".toList then .datetime else .timestamp)
        precision
    else if duckName = "DATE".toList then some .date
    else if duckName = "INTERVAL".toList ∨ duckName = "TIME".toList then some .time
    else if duckName = "DECIMAL".toList then some (.decimal numericPrecision numericScale)
    else if duckName = "UHUGEINT".toList ∨ duckName = "HUGEINT".toList then some (.decimal 39 0)
    else if duckName = "VARINT".toList then some (.decimal 65 0)
    else if duckName = "VARCHAR".toList then
      if mysqlName = "TEXT".toList then some (.string (g.textOf (sizeClass length)))
      else if mysqlName = "VARCHAR".toList then some (g.createString .varChar length collation)
      else if mysqlName = "CHAR".toList then some (g.createString .char length collation)
      else if mysqlName = "SET".toList then g.createSetType mysql.values collation
      else some (.string (g.textOf textBlobMax))
    else if duckName = "BLOB".toList then
      if mysqlName = "BLOB".toList then some (.string (g.blobOf (sizeClass length)))
      else if mysqlName = "VARBINARY".toList then some (g.createBinary .varBinary length)
      else if mysqlName = "BINARY".toList then some (g.createBinary .binary length)
      else some (.string (g.blobOf textBlobMax))
    else if duckName = "JSON".toList then some .json
    else if duckName = "ENUM".toList then g.createEnumType mysql.values collation
    else if duckName = "SET".toList then g.createSetType mysql.values collation
    else none

def mysqlDataType (g : Engine) (duckType : AnnotatedDuckType)
    (numericPrecision numericScale : Nat) : Option SqlType :=
  mysqlTypeOf g (baseName duckType.name) duckType.mysql numericPrecision numericScale

/-! ## Column types -/

/-- What the constructors of the engine return for a column that the
catalog supports. -/
def SqlType.Supported (g : Engine) : SqlType → Prop
  | .number _ w => w < 2 ^ 8
  | .timestamp p => p ≤ 6
  | .datetime p => p ≤ 6
  | .decimal p _ => p ≤ duckDBDecimalTypeMaxPrecision
  | .string t => t.length < 2 ^ 32 ∧ t.collation < 2 ^ 16 ∧
      (t.base.isCharacter = true → g.hasBinaryCharset t.collation = false) ∧
      (t.base.isCharacter = false → t.collation = g.binaryCollation)
  | .enum values collation => g.acceptsEnum values collation = true ∧ collation < 2 ^ 16
  | .set values collation => g.acceptsSet values collation = true ∧ collation < 2 ^ 16
  | .float32 | .float64 | .date | .time | .year | .bit _ | .json => True
  | .geometry | .expression | .other => False

structure ColumnType (g : Engine) where
  type : SqlType
  supported : type.Supported g

/-- The precision and the scale that DuckDB reports for a column: those in
the name of a DECIMAL, and anything for another type. -/
def reported (others : Nat × Nat) (name : Name) : Nat × Nat :=
  if "DECIMAL(".toList.isPrefixOf name then
    let digits := name.drop 8
    (Nat.ofDigitChars 10 (digits.takeWhile Char.isDigit) 0,
      Nat.ofDigitChars 10 (((digits.dropWhile Char.isDigit).drop 2).takeWhile Char.isDigit) 0)
  else others

/-- The type of a column as `queryColumns` reads it. -/
def columnType (g : Engine) (others : Nat × Nat) (duckType : AnnotatedDuckType) : Option SqlType :=
  mysqlDataType g duckType (reported others duckType.name).1 (reported others duckType.name).2

def readBack (g : Engine) (others : Nat × Nat) (t : SqlType) : Option SqlType :=
  match duckdbDataType t with
  | .ok duckType => columnType g others duckType
  | .error _ => none

/-- A TEXT or BLOB type is one of the engine's own four. -/
def SqlType.Standard (g : Engine) : SqlType → Prop
  | .string t =>
    (t.base = .text → ∃ size ∈ textBlobSizes, t = g.textOf size) ∧
      (t.base = .blob → ∃ size ∈ textBlobSizes, t = g.blobOf size)
  | _ => True

/-! ## Names with parameters -/

theorem trimSpace_of_ends {c d : Char} (hc : c.isWhitespace = false) (hd : d.isWhitespace = false)
    (mid : Name) : trimSpace (c :: (mid ++ [d])) = c :: (mid ++ [d]) := by
  simp [trimSpace, hc, hd]

/-- The test for a leading DECIMAL or ENUM sees the name as it is. -/
theorem baseName_of_ends {c d : Char} (hc : c.toUpper.isWhitespace = false)
    (hd : d.toUpper.isWhitespace = false) (mid : Name) :
    baseName (c :: (mid ++ [d])) =
      if "DECIMAL".toList.isPrefixOf ((c :: (mid ++ [d])).map Char.toUpper) then "DECIMAL".toList
      else if "ENUM".toList.isPrefixOf ((c :: (mid ++ [d])).map Char.toUpper) then "ENUM".toList
      else (c :: (mid ++ [d])).map Char.toUpper := by
  have htrim : trimSpace ((c :: (mid ++ [d])).map Char.toUpper)
      = (c :: (mid ++ [d])).map Char.toUpper := by
    rw [List.map_cons, List.map_append, List.map_singleton]
    exact trimSpace_of_ends hc hd _
  rw [baseName, htrim]

theorem baseName_decimal (precision scale : Nat) :
    baseName (newDecimalType precision scale).name = "DECIMAL".toList := by
  have hname : (newDecimalType precision scale).name = 'D' :: (("ECIMAL(".toList ++
      (toString precision).toList ++ ", ".toList ++ (toString scale).toList) ++ [')']) := rfl
  have hprefix : "DECIMAL".toList.isPrefixOf (('D' :: (("ECIMAL(".toList ++
      (toString precision).toList ++ ", ".toList ++ (toString scale).toList) ++ [')'])).map
      Char.toUpper) = true := by
    simp only [List.append_assoc, List.map_cons, List.map_append]
    rfl
  rw [hname, baseName_of_ends (by decide) (by decide), if_pos hprefix]

theorem cons_append_ends (c : Char) (pre mid post : Name) (d : Char) :
    (c :: pre) ++ mid ++ (post ++ [d]) = c :: ((pre ++ mid ++ post) ++ [d]) := by
  simp

theorem baseName_enum (values : List String) (collation : Nat) :
    baseName (newEnumType values collation).name = "ENUM".toList := by
  have hname : (newEnumType values collation).name = 'E' :: (("NUM('".toList ++
      "', '".toList.intercalate (values.map escapeValue) ++ "'".toList) ++ [')']) :=
    cons_append_ends 'E' "NUM('".toList _ "'".toList ')'
  have hdecimal : "DECIMAL".toList.isPrefixOf (('E' :: (("NUM('".toList ++
      "', '".toList.intercalate (values.map escapeValue) ++ "'".toList) ++ [')'])).map
      Char.toUpper) = false := rfl
  have hprefix : "ENUM".toList.isPrefixOf (('E' :: (("NUM('".toList ++
      "', '".toList.intercalate (values.map escapeValue) ++ "'".toList) ++ [')'])).map
      Char.toUpper) = true := by
    simp only [List.append_assoc, List.map_cons, List.map_append]
    rfl
  rw [hname, baseName_of_ends (by decide) (by decide), hdecimal, if_neg (by decide), if_pos hprefix]

theorem takeWhile_digits (n : Nat) {rest : Name} (h : rest.head?.any Char.isDigit = false) :
    (Nat.toDigits 10 n ++ rest).takeWhile Char.isDigit = Nat.toDigits 10 n ∧
      (Nat.toDigits 10 n ++ rest).dropWhile Char.isDigit = rest := by
  have hdigits : ∀ c ∈ Nat.toDigits 10 n, c.isDigit = true :=
    fun c hc => Nat.isDigit_of_mem_toDigits (by decide) (by decide) hc
  have hrest : rest.takeWhile Char.isDigit = [] ∧ rest.dropWhile Char.isDigit = rest := by
    cases rest with
    | nil => exact ⟨rfl, rfl⟩
    | cons c rest =>
      have hc : c.isDigit = false := h
      simp [hc]
  rw [List.takeWhile_append_of_pos hdigits, List.dropWhile_append_of_pos hdigits, hrest.1, hrest.2,
    List.append_nil]
  exact ⟨rfl, rfl⟩

theorem reported_decimal (others : Nat × Nat) (precision scale : Nat) :
    reported others (newDecimalType precision scale).name = (precision, scale) := by
  have htext : ∀ n : Nat, (toString n).toList = Nat.toDigits 10 n := by
    intro n
    rw [Nat.toString_eq_ofList_toDigits, String.toList_ofList]
  have hname : (newDecimalType precision scale).name = "DECIMAL(".toList ++
      (Nat.toDigits 10 precision ++ (", ".toList ++ (Nat.toDigits 10 scale ++ ")".toList))) := by
    unfold newDecimalType
    rw [htext, htext, List.append_assoc, List.append_assoc, List.append_assoc]
  rw [hname, reported, if_pos (List.isPrefixOf_iff_prefix.mpr (List.prefix_append _ _))]
  dsimp only
  rw [show ∀ rest : Name, ("DECIMAL(".toList ++ rest).drop 8 = rest from fun _ => rfl,
    (takeWhile_digits precision rfl).1, (takeWhile_digits precision rfl).2,
    show ∀ rest : Name, (", ".toList ++ rest).drop 2 = rest from fun _ => rfl,
    (takeWhile_digits scale rfl).1, Nat.ofDigitChars_toDigits (by decide) (by decide),
    Nat.ofDigitChars_toDigits (by decide) (by decide)]

/-! ## Type by type -/

section ReadBack

variable (g : Engine) (others : Nat × Nat)

theorem readBack_number (base : IntBase) (w : Nat) :
    readBack g others (.number base w) = some (.number base (w % 2 ^ 8)) := by
  cases base <;> rfl

theorem mysqlDataType_timestamp (mysql : MySQLType) (p s precision : Nat) :
    mysqlDataType g ⟨(newDateTimeType "" precision).name, mysql⟩ p s
      = createDatetimeType (if mysql.name = "DATETIME".toList then .datetime else .timestamp)
        mysql.precision := by
  have hname : (newDateTimeType "" precision).name = "TIMESTAMP_S".toList ∨
      (newDateTimeType "" precision).name = "TIMESTAMP_MS".toList ∨
      (newDateTimeType "" precision).name = "TIMESTAMP".toList := by
    simp only [newDateTimeType]
    split_ifs <;> simp
  rcases hname with hname | hname | hname <;> rw [hname] <;> rfl

theorem readBack_timestamp (p : Nat) :
    readBack g others (.timestamp p) = createDatetimeType .timestamp (p % 2 ^ 8) :=
  mysqlDataType_timestamp g _ _ _ p

theorem readBack_datetime (p : Nat) :
    readBack g others (.datetime p) = createDatetimeType .datetime (p % 2 ^ 8) :=
  mysqlDataType_timestamp g _ _ _ p

theorem mysqlDataType_decimal (prec scale p s : Nat) :
    mysqlDataType g (newDecimalType prec scale) p s = some (.decimal p s) := by
  rw [mysqlDataType, baseName_decimal]
  rfl

theorem readBack_decimal {p : Nat} (s : Nat) (hp : p ≤ duckDBDecimalTypeMaxPrecision) :
    readBack g others (.decimal p s) = some (.decimal p s) := by
  have hduck : duckdbDataType (.decimal p s) = .ok (newDecimalType p s) := by
    simp [duckdbDataType, Nat.not_lt.mpr hp]
  rw [readBack, hduck]
  dsimp only
  rw [columnType, reported_decimal]
  exact mysqlDataType_decimal g p s p s

section

variable (length collation : Nat)

theorem readBack_text :
    readBack g others (.string ⟨.text, length, collation⟩)
      = some (.string (g.textOf (sizeClass (length % 2 ^ 32)))) := rfl

theorem readBack_blob :
    readBack g others (.string ⟨.blob, length, collation⟩)
      = some (.string (g.blobOf (sizeClass (length % 2 ^ 32)))) := rfl

theorem readBack_varChar :
    readBack g others (.string ⟨.varChar, length, collation⟩)
      = some (g.createString .varChar (length % 2 ^ 32) (collation % 2 ^ 16)) := rfl

theorem readBack_char :
    readBack g others (.string ⟨.char, length, collation⟩)
      = some (g.createString .char (length % 2 ^ 32) (collation % 2 ^ 16)) := rfl

theorem readBack_varBinary :
    readBack g others (.string ⟨.varBinary, length, collation⟩)
      = some (g.createBinary .varBinary (length % 2 ^ 32)) := rfl

theorem readBack_binary :
    readBack g others (.string ⟨.binary, length, collation⟩)
      = some (g.createBinary .binary (length % 2 ^ 32)) := rfl

end

theorem readBack_enum (values : List String) (collation : Nat) :
    readBack g others (.enum values collation)
      = g.createEnumType values (collation % 2 ^ 16) := by
  change mysqlDataType g (newEnumType values collation) _ _ = _
  rw [mysqlDataType, baseName_enum]
  rfl

theorem readBack_set (values : List String) (collation : Nat) :
    readBack g others (.set values collation)
      = g.createSetType values (collation % 2 ^ 16) := rfl

end ReadBack

/-! ## The four sizes -/

theorem sizeClass_mem (length : Nat) : sizeClass length ∈ textBlobSizes := by
  unfold sizeClass
  split_ifs <;> simp [textBlobSizes]

/-- The length of a TEXT type of the engine falls under its own size, for
characters of one to four bytes. -/
theorem sizeClass_textOf (g : Engine) {size : Nat} (h : size ∈ textBlobSizes) :
    sizeClass (g.textOf size).length = size ∧ (g.textOf size).length < 2 ^ 32 := by
  have hpos := g.charMaxLength_pos g.defaultCollation
  have hle := g.charMaxLength_le g.defaultCollation
  unfold Engine.textOf
  dsimp only
  generalize g.charMaxLength g.defaultCollation = m at hpos hle ⊢
  simp only [textBlobSizes, List.mem_cons, List.not_mem_nil, or_false] at h
  rcases h with rfl | rfl | rfl | rfl <;> interval_cases m <;> decide

theorem sizeClass_of_mem {size : Nat} (h : size ∈ textBlobSizes) :
    sizeClass size = size ∧ size < 2 ^ 32 := by
  simp only [textBlobSizes, List.mem_cons, List.not_mem_nil, or_false] at h
  rcases h with rfl | rfl | rfl | rfl <;> decide

theorem textOf_sizeClass_iff (g : Engine) {t : StringType} :
    g.textOf (sizeClass t.length) = t ↔ ∃ size ∈ textBlobSizes, t = g.textOf size := by
  refine ⟨fun h => ⟨_, sizeClass_mem t.length, h.symm⟩, ?_⟩
  rintro ⟨size, hsize, rfl⟩
  rw [(sizeClass_textOf g hsize).1]

theorem blobOf_sizeClass_iff (g : Engine) {t : StringType} :
    g.blobOf (sizeClass t.length) = t ↔ ∃ size ∈ textBlobSizes, t = g.blobOf size := by
  refine ⟨fun h => ⟨_, sizeClass_mem t.length, h.symm⟩, ?_⟩
  rintro ⟨size, hsize, rfl⟩
  rw [show (g.blobOf size).length = size from rfl, (sizeClass_of_mem hsize).1]

theorem readBack_string_iff {g : Engine} (others : Nat × Nat) {t : StringType}
    (h : (SqlType.string t).Supported g) :
    readBack g others (.string t) = some (.string t) ↔ (SqlType.string t).Standard g := by
  obtain ⟨base, length, collation⟩ := t
  obtain ⟨hlength, hcollation, hcharacter, hbinary⟩ := h
  have hlen : length % 2 ^ 32 = length := Nat.mod_eq_of_lt hlength
  have hcoll : collation % 2 ^ 16 = collation := Nat.mod_eq_of_lt hcollation
  cases base with
  | text =>
    rw [readBack_text, hlen]
    simpa [SqlType.Standard] using textOf_sizeClass_iff g (t := ⟨.text, length, collation⟩)
  | blob =>
    rw [readBack_blob, hlen]
    simpa [SqlType.Standard] using blobOf_sizeClass_iff g (t := ⟨.blob, length, collation⟩)
  | varChar =>
    rw [readBack_varChar, hlen, hcoll, Engine.createString, hcharacter rfl]
    simp [SqlType.Standard]
  | char =>
    rw [readBack_char, hlen, hcoll, Engine.createString, hcharacter rfl]
    simp [SqlType.Standard]
  | varBinary =>
    obtain rfl : collation = g.binaryCollation := hbinary rfl
    rw [readBack_varBinary, hlen]
    simp [SqlType.Standard, Engine.createBinary, Engine.createString, g.binary_has,
      StringBase.toBinary]
  | binary =>
    obtain rfl : collation = g.binaryCollation := hbinary rfl
    rw [readBack_binary, hlen]
    simp [SqlType.Standard, Engine.createBinary, Engine.createString, g.binary_has,
      StringBase.toBinary]

/-- Every other type comes back. -/
theorem readBack_of_not_string {g : Engine} (others : Nat × Nat) {t : SqlType}
    (h : t.Supported g) (hstring : ∀ s, t ≠ .string s) : readBack g others t = some t := by
  cases t with
  | number base w => rw [readBack_number, Nat.mod_eq_of_lt h]
  | timestamp p =>
    have hp : p ≤ 6 := h
    rw [readBack_timestamp, Nat.mod_eq_of_lt (by omega), createDatetimeType, if_pos hp]
  | datetime p =>
    have hp : p ≤ 6 := h
    rw [readBack_datetime, Nat.mod_eq_of_lt (by omega), createDatetimeType, if_pos hp]
  | decimal p s => exact readBack_decimal g others s h
  | string s => exact absurd rfl (hstring s)
  | enum values collation =>
    rw [readBack_enum, Nat.mod_eq_of_lt h.2, Engine.createEnumType, if_pos h.1]
  | set values collation =>
    rw [readBack_set, Nat.mod_eq_of_lt h.2, Engine.createSetType, if_pos h.1]
  | float32 | float64 | date | time | year | bit n | json => rfl
  | geometry | expression | other => exact absurd h id

/-- **Column types survive the catalog**, exactly when they are not a TEXT
or BLOB type other than the engine's own. -/
theorem column_type_iff (g : Engine) (others : Nat × Nat) (t : ColumnType g) :
    readBack g others t.type = some t.type ↔ t.type.Standard g := by
  obtain ⟨type, h⟩ := t
  cases type with
  | string t => exact readBack_string_iff others h
  | _ => exact iff_of_true (readBack_of_not_string others h (by simp)) trivial

/-- **What comes back stays**: it has the DuckDB type that was stored, and
comes back unchanged itself. -/
theorem readBack_again {g : Engine} {others : Nat × Nat} {t t' : SqlType}
    (ht : t.Supported g) (h : readBack g others t = some t') {d : AnnotatedDuckType}
    (hd : duckdbDataType t = .ok d) :
    (∃ mysql, duckdbDataType t' = .ok ⟨d.name, mysql⟩) ∧ readBack g others t' = some t' := by
  have hsame : readBack g others t = some t →
      (∃ mysql, duckdbDataType t' = .ok ⟨d.name, mysql⟩) ∧ readBack g others t' = some t' := by
    intro hback
    obtain rfl := Option.some.inj (h.symm.trans hback)
    exact ⟨⟨_, hd⟩, hback⟩
  cases t with
  | string t =>
    obtain ⟨base, length, collation⟩ := t
    cases base with
    | text =>
      rw [readBack_text] at h
      obtain rfl := Option.some.inj h
      cases hd
      have hsize := sizeClass_textOf g (sizeClass_mem (length % 2 ^ 32))
      refine ⟨⟨_, rfl⟩, (readBack_text g others _ _).trans ?_⟩
      change some (SqlType.string (g.textOf (sizeClass ((g.textOf _).length % 2 ^ 32)))) = _
      rw [Nat.mod_eq_of_lt hsize.2, hsize.1]
    | blob =>
      rw [readBack_blob] at h
      obtain rfl := Option.some.inj h
      cases hd
      have hsize := sizeClass_of_mem (sizeClass_mem (length % 2 ^ 32))
      refine ⟨⟨_, rfl⟩, (readBack_blob g others _ _).trans ?_⟩
      rw [Nat.mod_eq_of_lt hsize.2, hsize.1]
    | _ => exact hsame ((readBack_string_iff others ht).mpr (by simp [SqlType.Standard]))
  | _ => exact hsame (readBack_of_not_string others ht (by simp))

/-! ## TEXT and BLOB -/

theorem charMaxLength_pos_of_309 (c : Nat) : 0 < if c = 309 then 4 else 1 := by
  split <;> decide

theorem charMaxLength_le_of_309 (c : Nat) : (if c = 309 then 4 else 1) ≤ 4 := by
  split <;> decide

/-- An engine whose default collation has characters of up to four bytes,
and in which every other one has single bytes. -/
def mysqlEngine : Engine where
  defaultCollation := 309
  binaryCollation := 63
  hasBinaryCharset := fun c => decide (c = 63)
  charMaxLength := fun c => if c = 309 then 4 else 1
  acceptsEnum := fun values _ => decide (values ≠ [])
  acceptsSet := fun values _ => decide (values ≠ [])
  binary_has := rfl
  charMaxLength_pos := charMaxLength_pos_of_309
  charMaxLength_le := charMaxLength_le_of_309

/-- A TEXT column in Latin-1 comes back with the default collation. -/
theorem latin_text_loses_collation :
    (SqlType.string ⟨.text, 65535, 8⟩).Supported mysqlEngine ∧
      readBack mysqlEngine (0, 0) (.string ⟨.text, 65535, 8⟩)
        = some (.string ⟨.text, 16383, 309⟩) ∧
      SqlType.string ⟨.text, 16383, 309⟩ ≠ .string ⟨.text, 65535, 8⟩ :=
  ⟨⟨by decide, by decide, fun _ => rfl, nofun⟩, rfl, by decide⟩

end MyDuck.TypeMapping
