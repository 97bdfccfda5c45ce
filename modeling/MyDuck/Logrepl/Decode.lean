/-
MyDuck.Logrepl.Decode — values of a replicated tuple on their way into the
buffer (`decodeToArrow` and `decodeArrayToArrow` of `logrepl/decode.go`).

pgtype scans the bytes of a value; what it makes of them is the input here.
For an array that is `FlatArray`: the elements in row-major order, without
the dimensions. The code picks a conversion by the type of the value and of
the builder, and appends what comes out of it.

A numeric is a coefficient and an exponent, and the buffer of a numeric(p,s)
has its value times 10^s. The entry of a list is opened before its elements
are decoded, and stays there when one of them fails.

Times, and the texts of numerics and UUIDs, are made by libraries:
`Library`. `decimal128.FromBigInt` panics when the number does not fit.
-/
import MyDuck.Logrepl.ColumnTypes

namespace MyDuck.Decode

open PgTypes

/-! ## Values and builders -/

structure Numeric where
  int : ℤ
  exp : ℤ
  nan : Bool := false
  infinityModifier : ℤ := 0
  valid : Bool := true
  deriving DecidableEq, Repr

/-- What pgtype scans. Another value than one of the column's type is one
that is not valid. -/
inductive Datum (T : Type) where
  | null
  | bool (b : Bool)
  | int (n : ℤ)
  | float32 (bits : BitVec 32)
  | float64 (bits : BitVec 64)
  | time (t : T)
  | microseconds (n : ℤ)
  | bytes (b : List UInt8)
  | numeric (v : Numeric)
  | uuid (b : List UInt8)

/-- What is appended to a builder. -/
inductive Cell where
  | null
  | bool (b : Bool)
  | int (n : ℤ)
  | float32 (bits : BitVec 32)
  | float64 (bits : BitVec 64)
  | date (days : ℤ)
  | time (nanoseconds : ℤ)
  | timestamp (microseconds : ℤ)
  | decimal (n : BitVec 128)
  | bytes (b : List UInt8)
  deriving DecidableEq, Repr

inductive Kind where
  | boolean | uint8 | int16 | int32 | int64 | float32 | float64
  | date32 | time64 | timestamp | decimal128 | binary | string | fixedSizeBinary | other
  deriving DecidableEq, Repr

/-- A StringBuilder is its BinaryBuilder. -/
def Kind.unwrap : Kind → Kind
  | .string => .binary
  | kind => kind

inductive DecodeError where
  | scan
  | encode
  /-- `unsupported scale %d for Decimal128`. -/
  | unsupportedScale (exp : ℤ)
  /-- `unsupported array type`. -/
  | unsupportedArray
  /-- `unexpected Arrow array builder`. -/
  | unexpectedBuilder
  /-- `unsupported type conversion`. -/
  | unsupportedType
  /-- `cannot represent value larger than 128bits`. -/
  | panic
  deriving DecidableEq, Repr

structure Library (T : Type) where
  date32FromTime : T → ℤ
  /-- `AppendTime` of a timestamp builder. -/
  timestampFromTime : T → ℤ
  numericText : Numeric → Except DecodeError (List UInt8)
  uuidText : List UInt8 → List UInt8
  /-- `DecodeValue` and `writeValue`, for the types without a case. -/
  writeValue : PgType → Kind → Datum T → Except DecodeError Cell

/-! ## Decimals -/

def pow10s : ℕ → ℤ
  | 0 => 1
  | i + 1 => pow10s i * 10

def fromBigInt (n : ℤ) : Except DecodeError (BitVec 128) :=
  if n.natAbs < 2 ^ 127 then .ok (BitVec.ofInt 128 n) else .error .panic

/-- The number for a decimal of this scale. The sum is one of int32. -/
def rescale (v : Numeric) (scale : ℤ) : Except DecodeError ℤ :=
  let exp := (v.exp + scale).bmod (2 ^ 32)
  if exp = 0 then .ok v.int
  else if 40 ≤ exp ∨ exp ≤ -40 then .error (.unsupportedScale exp)
  else if 0 < exp then .ok (v.int * pow10s exp.toNat)
  -- Div of big.Int is Euclidean
  else .ok (v.int / pow10s (-exp).toNat)

def appendDecimal (v : Numeric) (scale : ℤ) : Except DecodeError Cell :=
  (rescale v scale).bind fun n => (fromBigInt n).map .decimal

/-! ## Elements -/

section Elements

variable {T : Type}

/-! A value that is not valid is appended as null. -/

def boolCell : Datum T → Cell
  | .bool b => .bool b
  | _ => .null

def intCell : Datum T → Cell
  | .int n => .int n
  | _ => .null

def float32Cell : Datum T → Cell
  | .float32 bits => .float32 bits
  | _ => .null

def float64Cell : Datum T → Cell
  | .float64 bits => .float64 bits
  | _ => .null

def timeCell : Datum T → Cell
  | .microseconds n => .time (n * 1000)
  | _ => .null

def bytesCell : Datum T → Cell
  | .bytes b => .bytes b
  | _ => .null

def uuidCell (print : List UInt8 → List UInt8) : Datum T → Cell
  | .uuid b => .bytes (print b)
  | _ => .null

variable (lib : Library T)

def dateCell : Datum T → Cell
  | .time t => .date (lib.date32FromTime t)
  | _ => .null

def timestampCell : Datum T → Cell
  | .time t => .timestamp (lib.timestampFromTime t)
  | _ => .null

/-- Arrow has no NaN and no infinity. -/
def numericCell (append : Numeric → Except DecodeError Cell) : Datum T → Except DecodeError Cell
  | .numeric v =>
    if v.nan = true ∨ v.infinityModifier ≠ 0 ∨ v.valid = false then .ok .null else append v
  | _ => .ok .null

/-- What is appended for a value, by the type of the value and the builder. -/
def converter (scale : ℤ) : Scalar → Kind → Option (Datum T → Except DecodeError Cell)
  | .bool, .boolean => some (.ok ∘ boolCell)
  | .int2, .int16 | .int4, .int32 | .int8, .int64 => some (.ok ∘ intCell)
  | .float4, .float32 => some (.ok ∘ float32Cell)
  | .float8, .float64 => some (.ok ∘ float64Cell)
  | .date, .date32 => some (.ok ∘ dateCell lib)
  | .time, .time64 | .timetz, .time64 => some (.ok ∘ timeCell)
  | .timestamp, .timestamp | .timestamptz, .timestamp => some (.ok ∘ timestampCell lib)
  | .bytea, .binary | .text, .binary | .varchar, .binary | .bpchar, .binary | .name, .binary
  | .json, .binary | .jsonb, .binary => some (.ok ∘ bytesCell)
  | .numeric, .decimal128 => some (numericCell fun v => appendDecimal v scale)
  | .numeric, .binary => some (numericCell fun v => (lib.numericText v).map .bytes)
  | .uuid, .fixedSizeBinary => some (.ok ∘ uuidCell id)
  | .uuid, .binary => some (.ok ∘ uuidCell lib.uuidText)
  | _, _ => none

def Cell.byteLength : Cell → ℕ
  | .bytes b => b.length
  | _ => 0

/-- The number of bytes that the decoder reports for these cells. -/
def reportedSize (type : Scalar) (kind : Kind) (cells : List Cell) : ℕ :=
  match type, kind with
  | .bool, _ | .qchar, _ => cells.length
  | .int2, _ => cells.length * 2
  | .int4, _ | .float4, _ | .date, _ => cells.length * 4
  | .uuid, .binary => cells.length * 36
  | .uuid, _ | .numeric, .decimal128 => cells.length * 16
  | _, .binary => (cells.map Cell.byteLength).sum
  | _, _ => cells.length * 8

/-- The loop over the elements: the cells that it appends, and the error
that ends it. -/
def appendAll (convert : Datum T → Except DecodeError Cell) :
    List (Datum T) → List Cell × Option DecodeError
  | [] => ([], none)
  | e :: es =>
    match convert e with
    | .ok cell => (cell :: (appendAll convert es).1, (appendAll convert es).2)
    | .error err => ([], some err)

end Elements

/-! ## Lists -/

/-- A list builder: for each entry where its values begin and whether it is
valid, and the value builder. -/
structure ListBuilder where
  entries : List (ℕ × Bool)
  values : List Cell
  deriving DecidableEq, Repr

namespace ListBuilder

variable (b : ListBuilder)

def append (valid : Bool) : ListBuilder :=
  { b with entries := b.entries ++ [(b.values.length, valid)] }

def push (cells : List Cell) : ListBuilder := { b with values := b.values ++ cells }

end ListBuilder

section Decoders

variable {T : Type} (lib : Library T)

/-- The rest of `decodeArrayToArrow`, behind the opened entry. -/
def fillEntry (convert : Datum T → Except DecodeError Cell) (type : Scalar) (kind : Kind)
    (elements : List (Datum T)) (opened : ListBuilder) : ListBuilder × Except DecodeError ℕ :=
  match (appendAll convert elements).2 with
  | some e => (opened.push (appendAll convert elements).1, .error e)
  | none =>
    (opened.push (appendAll convert elements).1,
      .ok (reportedSize type kind (appendAll convert elements).1))

def decodeArrayToArrow (element : PgType) (kind : Kind) (scale : ℤ)
    (data : Option (Except DecodeError (List (Datum T)))) (b : ListBuilder) :
    ListBuilder × Except DecodeError ℕ :=
  match data with
  | none => (b.append false, .ok 0)
  | some scanned =>
    match element with
    | .scalar type =>
      match converter lib scale type kind.unwrap, scanned with
      | some convert, .ok elements => fillEntry convert type kind.unwrap elements (b.append true)
      | some _, .error e => (b.append true, .error e)
      | none, .error e =>
        -- these two are scanned before the builder is looked at
        if type = .numeric ∨ type = .uuid then (b.append true, .error e)
        else (b.append true, .error .unsupportedArray)
      | none, .ok _ => (b.append true, .error .unsupportedArray)
    | _ => (b.append true, .error .unsupportedArray)

inductive Builder where
  | flat (kind : Kind) (cells : List Cell)
  | list (kind : Kind) (b : ListBuilder)
  deriving DecidableEq, Repr

def Builder.appendNull : Builder → Builder
  | .flat kind cells => .flat kind (cells ++ [.null])
  | .list kind b => .list kind (b.append false)

/-- The bytes of a value, whether they are text, and what pgtype makes of
them as one value and as an array. -/
structure Data (T : Type) where
  raw : List UInt8
  text : Bool
  scanned : Except DecodeError (Datum T)
  elements : Except DecodeError (List (Datum T))

/-- A numeric that is a NaN or an infinity. -/
def Data.notFinite (data : Data T) : Bool :=
  match data.scanned with
  | .ok (.numeric v) => v.nan || v.infinityModifier != 0
  | _ => false

structure Column where
  type : PgType
  typeModifier : ℤ
  deriving DecidableEq, Repr

/-- The scale that the code takes from the type modifier. -/
def Column.scale (column : Column) : ℤ :=
  if column.type = .scalar .numeric ∨ column.type = .array (.scalar .numeric) then
    (decodePrecisionScale column.typeModifier).2.1
  else 0

/-- A value of the codec that is asked for as a Go value, by `writeValue`. -/
def writeFallback (type : PgType) (builder : Builder) (scanned : Except DecodeError (Datum T)) :
    Builder × Except DecodeError ℕ :=
  match scanned, builder with
  | .error e, _ => (builder, .error e)
  | .ok d, .flat kind cells =>
    match lib.writeValue type kind d with
    | .ok cell => (.flat kind (cells ++ [cell]), .ok cell.byteLength)
    | .error e => (builder, .error e)
  | .ok _, .list _ _ => (builder, .error .unsupportedType)

/-- Single values have one more case than elements. -/
def scalarConverter (scale : ℤ) (type : Scalar) (kind : Kind) :
    Option (Datum T → Except DecodeError Cell) :=
  if type = .qchar ∧ kind = .uint8 then some (.ok ∘ intCell) else converter lib scale type kind

/-- The cases of `decodeToArrow` for one value. -/
def decodeScalar (column : Column) (type : Scalar) (data : Data T) (kind : Kind)
    (cells : List Cell) : Builder × Except DecodeError ℕ :=
  if type = .numeric ∧ data.text = true ∧ kind.unwrap = .binary then
    (.flat kind (cells ++ [.bytes data.raw]), .ok data.raw.length)
  else if type = .numeric ∧ data.notFinite = true then
    -- whatever the builder is
    (.flat kind (cells ++ [.null]), .ok 0)
  else
    match scalarConverter lib column.scale type kind.unwrap, data.scanned with
    | some convert, .ok d =>
      match convert d with
      | .ok cell => (.flat kind (cells ++ [cell]), .ok (reportedSize type kind.unwrap [cell]))
      | .error e => (.flat kind cells, .error e)
    | some _, .error e => (.flat kind cells, .error e)
    | none, scanned => writeFallback lib column.type (.flat kind cells) scanned

/-- A type that pgtype does not know is stored as text if possible. -/
def decodeUnknown (data : Data T) (builder : Builder) : Builder × Except DecodeError ℕ :=
  match builder, data.text with
  | .flat .string cells, true => (.flat .string (cells ++ [.bytes data.raw]), .ok data.raw.length)
  | builder, _ => (builder, .error .unsupportedType)

def decodeToArrow (registry : Registry) (column : Column) (data : Option (Data T))
    (builder : Builder) : Builder × Except DecodeError ℕ :=
  match data with
  | none => (builder.appendNull, .ok 0)
  | some data =>
    if registry.types column.type = false then decodeUnknown data builder
    else
      match column.type, builder with
      | .array element, .list kind b =>
        let decoded := decodeArrayToArrow lib element kind column.scale (some data.elements) b
        (.list kind decoded.1, decoded.2)
      | .array _, .flat kind cells => (.flat kind cells, .error .unexpectedBuilder)
      | .scalar type, .flat kind cells => decodeScalar lib column type data kind cells
      | type, builder => writeFallback lib type builder data.scanned

end Decoders

end MyDuck.Decode
