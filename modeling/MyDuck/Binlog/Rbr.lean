/-
MyDuck.Binlog.Rbr — the cells of a row image, as binlog/rbr.go reads them:
`CellLength` and `CellValue`.

A cell is read from a slice at a position, with the type byte and the
metadata of the table map. `cellLength` says how long it is; `cellValue`
decodes it and appends one entry to the Arrow builder of the column. A
call ends with a result, with an error (and the length the source returns
beside it), or with a panic: an index or a slice out of range, a type
assertion that does not hold, or one of the `panic` calls.

The switch of the source is cut into one definition for each kind of cell;
`cellValue` dispatches on the type byte as the source does. The numbers
that the source puts together from bytes with shifts are `beNat` and
`leNat`. Go's `time.Date` is `Calendar.unixDate`. The libraries behind a
column (character sets, ENUM and SET values) and the JSON parsers are
parameters. The timestamp builders have the units that myarrow/schema.go
gives them.
-/
import MyDuck.Base.Bytes
import MyDuck.Base.Calendar

namespace MyDuck.Rbr

open MyDuck.Calendar

/-! ## Types -/

/-- The types of binlog/constants.go. -/
inductive FieldType where
  | decimal | tiny | short | long | float | double | null | timestamp | longLong | int24
  | date | time | dateTime | year | newDate | varchar | bit | timestamp2 | dateTime2 | time2
  | vector | json | newDecimal | enum | set | tinyBlob | mediumBlob | longBlob | blob
  | varString | string | geometry
  deriving DecidableEq, Repr

def FieldType.byte : FieldType → UInt8
  | .decimal => 0
  | .tiny => 1
  | .short => 2
  | .long => 3
  | .float => 4
  | .double => 5
  | .null => 6
  | .timestamp => 7
  | .longLong => 8
  | .int24 => 9
  | .date => 10
  | .time => 11
  | .dateTime => 12
  | .year => 13
  | .newDate => 14
  | .varchar => 15
  | .bit => 16
  | .timestamp2 => 17
  | .dateTime2 => 18
  | .time2 => 19
  | .vector => 242
  | .json => 245
  | .newDecimal => 246
  | .enum => 247
  | .set => 248
  | .tinyBlob => 249
  | .mediumBlob => 250
  | .longBlob => 251
  | .blob => 252
  | .varString => 253
  | .string => 254
  | .geometry => 255

def FieldType.all : List FieldType :=
  [.decimal, .tiny, .short, .long, .float, .double, .null, .timestamp, .longLong, .int24,
   .date, .time, .dateTime, .year, .newDate, .varchar, .bit, .timestamp2, .dateTime2, .time2,
   .vector, .json, .newDecimal, .enum, .set, .tinyBlob, .mediumBlob, .longBlob, .blob,
   .varString, .string, .geometry]

/-- The type of a type byte; none for a byte that is no constant. -/
def FieldType.ofByte? (b : UInt8) : Option FieldType := FieldType.all.find? (fun t => t.byte = b)

/-- The query types that columns have. -/
inductive QueryType where
  | int8 | uint8 | int16 | uint16 | int24 | uint24 | int32 | uint32 | int64 | uint64
  | float32 | float64 | timestamp | date | time | datetime | year | decimal
  | text | blob | varchar | varbinary | char | binary | bit | enum | set | json | geometry
  deriving DecidableEq, Repr

def QueryType.isSigned : QueryType → Bool
  | .int8 | .int16 | .int24 | .int32 | .int64 => true
  | _ => false

def QueryType.isBinary : QueryType → Bool
  | .blob | .varbinary | .binary => true
  | _ => false

/-- What the type of a column can do beyond its query type: decode its
character set, name its ENUM values, or name the members of a SET. -/
inductive TypeDetail where
  | string (decodeBytes : List UInt8 → Option (List UInt8))
  | enum (value : Nat → Option (List UInt8))
  | set (bitsToString : Nat → Option (List UInt8))
  | plain

structure CellColumn where
  ftype : QueryType
  detail : TypeDetail := .plain

/-- The JSON parsers: a document in MySQL's binary form, and one in text
form, marshalled again. -/
structure JsonParsers where
  parseBinaryJSON : List UInt8 → Option (List UInt8) := fun _ => none
  parseBytes : List UInt8 → Option (List UInt8) := fun _ => none

/-! ## Builders -/

inductive TimeUnit where
  | second
  | millisecond
  | microsecond
  deriving DecidableEq, Repr

inductive BuilderType where
  | int8 | uint8 | int16 | uint16 | int32 | uint32 | int64 | uint64
  | float32 | float64 | date32 | duration
  | timestamp (unit : TimeUnit)
  | decimal128 (scale : Int)
  | decimal256 (scale : Int)
  | string | binary
  deriving DecidableEq, Repr

/-- An entry of an Arrow array. Floats are their bits; dates, durations,
timestamps and decimals are the integers that stand for them. -/
inductive Entry where
  | null
  | int (n : Int)
  | float (bits : Nat)
  | bytes (b : List UInt8)
  deriving DecidableEq, Repr

structure Builder where
  type : BuilderType
  entries : List Entry := []
  deriving DecidableEq, Repr

def Builder.append (b : Builder) (e : Entry) : Builder := { b with entries := b.entries ++ [e] }

def Builder.appendNull (b : Builder) : Builder := b.append .null

/-! ## Results -/

inductive CellError where
  | unexpectedBuilder (type : BuilderType)
  | charset
  | fractionalDigits (fp : Nat) (desired : Int)
  | enumSize (size : Nat)
  | enumValue
  | setBits (bits : Nat)
  | blobMetadata (metadata : UInt16) (pos : Nat)
  | geometryMetadata (metadata : UInt16) (pos : Nat)
  | unsupportedType (typ : UInt8)
  deriving DecidableEq, Repr

/-- How a call ends that does not return a nil error. -/
inductive CellFault where
  | error (length : Nat) (e : CellError)
  | panic
  deriving DecidableEq, Repr

abbrev Decoded := Except CellFault

/-- A read that panics when it is out of range. -/
def orPanic {α : Type} : Option α → Decoded α
  | some a => .ok a
  | none => .error .panic

/-- `builder.(*T).Append(e)`. -/
def appendTo (type : BuilderType) (e : Entry) (b : Builder) : Decoded Builder :=
  if b.type = type then .ok (b.append e) else .error .panic

/-! ## Lengths -/

/-- `dig2bytes`: the bytes of a group of less than nine digits. -/
def dig2bytes? (digits : Int) : Option Nat :=
  if 0 ≤ digits then [0, 1, 1, 2, 2, 3, 3, 4, 4, 4][digits.toNat]? else none

/-- The groups of a DECIMAL: the full groups of nine digits and the digits
left over, on both sides of the point, and the bytes of all of them. -/
structure DecimalLayout where
  intg0 : Int
  intg0x : Int
  frac0 : Nat
  frac0x : Nat
  intgBytes : Nat
  fracBytes : Nat
  deriving DecidableEq, Repr

/-- The length that `CellLength` and `CellValue` compute for a DECIMAL. -/
def DecimalLayout.length (d : DecimalLayout) : Int :=
  d.intg0 * 4 + d.intgBytes + d.frac0 * 4 + d.fracBytes

def decimalLayout (precision scale : Nat) : Decoded DecimalLayout := do
  let intg : Int := precision - scale
  let intg0 := intg.tdiv 9
  let frac0 := scale / 9
  let intg0x := intg - intg0 * 9
  let frac0x := scale - frac0 * 9
  let intgBytes ← orPanic (dig2bytes? intg0x)
  let fracBytes ← orPanic (dig2bytes? frac0x)
  return ⟨intg0, intg0x, frac0, frac0x, intgBytes, fracBytes⟩

/-- The upper and the lower byte of the metadata. -/
def highByte (metadata : UInt16) : Nat := (metadata >>> 8).toNat

def lowByte (metadata : UInt16) : Nat := (metadata &&& 0xff).toNat

def bitBytes (metadata : UInt16) : Nat := (highByte metadata * 8 + lowByte metadata + 7) / 8

/-- The greatest length of a CHAR column. -/
def maxLength (metadata : UInt16) : Nat :=
  ((((metadata >>> 4) &&& 0x300) ^^^ 0x300) + (metadata &&& 0xff)).toNat

/-- A length in `n` bytes in front of the data. -/
def lengthAt (data : Slice) (pos n : Nat) : Decoded Nat := do
  let bytes ← orPanic (data.read? pos n)
  return leNat bytes

/-- The length of a string, in one or two bytes. -/
def stringLength (data : Slice) (pos : Nat) (twoBytes : Bool) : Decoded (Nat × Nat) :=
  if twoBytes then do
    let l ← lengthAt data pos 2
    return (2, l)
  else do
    let l ← lengthAt data pos 1
    return (1, l)

/-- The length of a blob, in one to four bytes. -/
def blobLength (data : Slice) (pos : Nat) (metadata : UInt16) (e : CellError) : Decoded Nat :=
  if metadata.toNat ∈ [1, 2, 3, 4] then lengthAt data pos metadata.toNat
  else .error (.error 0 e)

def cellLength (data : Slice) (pos : Nat) (typ : UInt8) (metadata : UInt16) : Decoded Int :=
  match FieldType.ofByte? typ with
  | some .null => .ok 0
  | some .tiny | some .year => .ok 1
  | some .short => .ok 2
  | some .int24 => .ok 3
  | some .long | some .float | some .timestamp => .ok 4
  | some .longLong | some .double => .ok 8
  | some .date | some .time | some .newDate => .ok 3
  | some .dateTime => .ok 8
  | some .varchar | some .varString => do
    let (n, l) ← stringLength data pos (metadata > 255)
    return ((l + n : Nat) : Int)
  | some .bit => .ok (bitBytes metadata)
  | some .timestamp2 => .ok ((4 + (metadata.toNat + 1) / 2 : Nat) : Int)
  | some .dateTime2 => .ok ((5 + (metadata.toNat + 1) / 2 : Nat) : Int)
  | some .time2 => .ok ((3 + (metadata.toNat + 1) / 2 : Nat) : Int)
  | some .newDecimal => do
    let layout ← decimalLayout (highByte metadata) (lowByte metadata)
    return layout.length
  | some .enum | some .set => .ok (lowByte metadata)
  | some .json | some .tinyBlob | some .mediumBlob | some .longBlob | some .blob
  | some .geometry | some .vector => do
    let l ← blobLength data pos metadata (.blobMetadata metadata pos)
    return ((metadata.toNat + l : Nat) : Int)
  | some .string =>
    if highByte metadata = FieldType.enum.byte.toNat ∨
        highByte metadata = FieldType.set.byte.toNat then
      .ok (lowByte metadata)
    else do
      let (n, l) ← stringLength data pos (maxLength metadata > 255)
      return ((l + n : Nat) : Int)
  | some .decimal | none => .error (.error 0 (.unsupportedType typ))

/-! ## Numbers -/

/-- `int8(x)`, `int16(x)`, ..: the two's complement of `bits` bits. -/
def signed (bits n : Nat) : Int := Int.bmod n (2 ^ bits)

/-- An integer of the builder that its column's sign calls for. -/
def integerCell (size : Nat) (bytes : List UInt8) (column : CellColumn)
    (signedType unsignedType : BuilderType) (b : Builder) : Decoded (Nat × Builder) := do
  let val := leNat bytes
  let b ← if column.ftype.isSigned then appendTo signedType (.int (signed (8 * size) val)) b
    else appendTo unsignedType (.int val) b
  return (size, b)

def tinyCell (data : Slice) (pos : Nat) (column : CellColumn) (b : Builder) :
    Decoded (Nat × Builder) := do
  let bytes ← orPanic (data.read? pos 1)
  integerCell 1 bytes column .int8 .uint8 b

def yearCell (data : Slice) (pos : Nat) (b : Builder) : Decoded (Nat × Builder) := do
  let val ← orPanic (data.index? pos)
  let b ← appendTo .uint16 (.int (if val = 0 then 0 else val.toNat + 1900)) b
  return (1, b)

def shortCell (data : Slice) (pos : Nat) (column : CellColumn) (b : Builder) :
    Decoded (Nat × Builder) := do
  let bytes ← orPanic (data.slice? pos 2)
  integerCell 2 bytes column .int16 .uint16 b

/-- A negative number is extended to 32 bits and goes to an Int32 builder;
for the others the builder decides. -/
def int24Cell (data : Slice) (pos : Nat) (column : CellColumn) (b : Builder) :
    Decoded (Nat × Builder) := do
  let bytes ← orPanic (data.read? pos 3)
  let val := leNat bytes
  if column.ftype.isSigned ∧ 2 ^ 23 ≤ val then do
    let b ← appendTo .int32 (.int (signed 32 (val + 255 * 2 ^ 24))) b
    return (3, b)
  else if b.type = .int32 ∨ b.type = .uint32 then .ok (3, b.append (.int val))
  else .error (.error 0 (.unexpectedBuilder b.type))

def longCell (data : Slice) (pos : Nat) (column : CellColumn) (b : Builder) :
    Decoded (Nat × Builder) := do
  let bytes ← orPanic (data.slice? pos 4)
  integerCell 4 bytes column .int32 .uint32 b

def longLongCell (data : Slice) (pos : Nat) (column : CellColumn) (b : Builder) :
    Decoded (Nat × Builder) := do
  let bytes ← orPanic (data.slice? pos 8)
  integerCell 8 bytes column .int64 .uint64 b

def floatCell (size : Nat) (type : BuilderType) (data : Slice) (pos : Nat) (b : Builder) :
    Decoded (Nat × Builder) := do
  let bytes ← orPanic (data.slice? pos size)
  let b ← appendTo type (.float (leNat bytes)) b
  return (size, b)

/-- A BIT column, right aligned in eight bytes. -/
def bitCell (data : Slice) (pos : Nat) (metadata : UInt16) (b : Builder) :
    Decoded (Nat × Builder) := do
  let l := bitBytes metadata
  if 8 < l then .error .panic
  else do
    let bytes ← orPanic (data.slice? pos l)
    let b ← appendTo .uint64 (.int (beNat bytes)) b
    return (l, b)

/-! ## Dates and times -/

/-- An instant: the seconds since 1970 and the nanoseconds of the second. -/
abbrev Instant := Int × Int

/-- `arrow.TimestampFromTime`. -/
def timestampFromTime (t : Instant) : TimeUnit → Int
  | .second => t.1
  | .millisecond => t.1 * 10 ^ 3 + t.2 / 10 ^ 6
  | .microsecond => t.1 * 10 ^ 6 + t.2 / 10 ^ 3

/-- `builder.(*array.TimestampBuilder).AppendTime(t)`. -/
def appendTime (t : Instant) (b : Builder) : Decoded Builder :=
  match b.type with
  | .timestamp unit => .ok (b.append (.int (timestampFromTime t unit)))
  | _ => .error .panic

/-- `duration.Microseconds()`, of a duration in nanoseconds. -/
def microseconds (duration : Int) : Int := duration.tdiv 1000

def timestampCell (data : Slice) (pos : Nat) (b : Builder) : Decoded (Nat × Builder) := do
  let bytes ← orPanic (data.slice? pos 4)
  let b ← appendTime (leNat bytes, 0) b
  return (4, b)

/-- `arrow.Date32FromTime`: the days since 1970. -/
def dateCell (data : Slice) (pos : Nat) (b : Builder) : Decoded (Nat × Builder) := do
  let bytes ← orPanic (data.read? pos 3)
  let val := leNat bytes
  let day := val % 32
  let month := val / 32 % 16
  let year := val / 512
  let b ← appendTo .date32 (.int ((unixDate year month day 0 0 0 0).1 / 86400)) b
  return (3, b)

/-- The old TIME: a signed number HHMMSS in three bytes. -/
def timeCell (data : Slice) (pos : Nat) (b : Builder) : Decoded (Nat × Builder) := do
  let bytes ← orPanic (data.read? pos 3)
  let raw := leNat bytes
  let (hour, minute, second) : Int × Int × Int :=
    if 2 ^ 23 ≤ raw then
      -- negative: the sign is extended
      let val := signed 32 (raw + 255 * 2 ^ 24)
      (val.tdiv 10000, -(val.tmod 10000).tdiv 100, -val.tmod 100)
    else
      let val : Int := raw
      (val.tdiv 10000, (val.tmod 10000).tdiv 100, val.tmod 100)
  let duration := (hour * 3600 + minute * 60 + second) * 10 ^ 9
  let b ← appendTo .duration (.int (microseconds duration)) b
  return (3, b)

def dateTimeCell (data : Slice) (pos : Nat) (b : Builder) : Decoded (Nat × Builder) := do
  let bytes ← orPanic (data.slice? pos 8)
  let val := leNat bytes
  let d := val / 1000000
  let t := val % 1000000
  let b ← appendTime
    (unixDate (d / 10000 : Nat) (d % 10000 / 100 : Nat) (d % 100 : Nat) (t / 10000 : Nat)
      (t % 10000 / 100 : Nat) (t % 100 : Nat) 0) b
  return (8, b)

/-- The fraction of a TIMESTAMP2 or a DATETIME2, in microseconds, and the
bytes it takes. -/
def fraction (data : Slice) (pos : Nat) (metadata : UInt16) : Decoded (Nat × Nat) := do
  let decimals (n : Nat) : Decoded Nat := do
    let bytes ← orPanic (data.read? pos n)
    return beNat bytes
  match metadata.toNat with
  | 1 => return ((← decimals 1) / 10 * 100000, 1)
  | 2 => return ((← decimals 1) * 10000, 1)
  | 3 => return ((← decimals 2) / 10 * 1000, 2)
  | 4 => return ((← decimals 2) * 100, 2)
  | 5 => return ((← decimals 3) / 10 * 10, 3)
  | 6 => return ((← decimals 3) * 1, 3)
  | _ => return (0, 0)

def timestamp2Cell (data : Slice) (pos : Nat) (metadata : UInt16) (b : Builder) :
    Decoded (Nat × Builder) := do
  let bytes ← orPanic (data.slice? pos 4)
  let second := beNat bytes
  let (frac, size) ← fraction data (pos + 4) metadata
  let b ← appendTime (second, frac * 1000) b
  return (4 + size, b)

def dateTime2Cell (data : Slice) (pos : Nat) (metadata : UInt16) (b : Builder) :
    Decoded (Nat × Builder) := do
  let bytes ← orPanic (data.read? pos 5)
  -- the subtraction is one of uint64
  let ymdhms := (beNat bytes + (2 ^ 64 - 0x8000000000)) % 2 ^ 64
  let ymd := ymdhms >>> 17
  let ym := ymd >>> 5
  let hms := ymdhms % 2 ^ 17
  let day := ymd % 2 ^ 5
  let month := ym % 13
  let year := ym / 13
  let second := hms % 2 ^ 6
  let minute := (hms >>> 6) % 2 ^ 6
  let hour := hms >>> 12
  let (frac, size) ← fraction data (pos + 5) metadata
  let b ← appendTime (unixDate year month day hour minute second (frac * 1000)) b
  return (5 + size, b)

/-- The fraction of a negative TIME2 is borrowed from the seconds. -/
def borrow (negative : Bool) (n : Nat) (hms frac : Nat) : Nat × Nat :=
  if negative ∧ frac ≠ 0 then (hms - 1, 256 ^ n - frac) else (hms, frac)

/-- The seconds and the fraction, in microseconds, of a TIME2. -/
def timeFraction (data : Slice) (pos : Nat) (metadata : UInt16) (negative : Bool) (hms : Nat) :
    Decoded (Nat × Nat) := do
  let borrowed (n : Nat) : Decoded (Nat × Nat) := do
    let bytes ← orPanic (data.read? pos n)
    return borrow negative n hms (beNat bytes)
  match metadata.toNat with
  | 1 => do let (hms, frac) ← borrowed 1; return (hms, frac / 10 * 100000)
  | 2 => do let (hms, frac) ← borrowed 1; return (hms, frac * 10000)
  | 3 => do let (hms, frac) ← borrowed 2; return (hms, frac / 10 * 1000)
  | 4 => do let (hms, frac) ← borrowed 2; return (hms, frac * 100)
  | 5 => do let (hms, frac) ← borrowed 3; return (hms, frac / 10 * 10)
  | 6 => do let (hms, frac) ← borrowed 3; return (hms, frac * 1)
  | _ => return (hms, 0)

def time2Cell (data : Slice) (pos : Nat) (metadata : UInt16) (b : Builder) :
    Decoded (Nat × Builder) := do
  let bytes ← orPanic (data.read? pos 3)
  let signedHms : Int := beNat bytes - 0x800000
  let negative : Bool := signedHms < 0
  let (hms, frac) ← timeFraction data (pos + 3) metadata negative signedHms.natAbs
  let hour := (hms >>> 12) % 2 ^ 10
  let minute := (hms >>> 6) % 2 ^ 6
  let second := hms % 2 ^ 6
  let duration : Nat := (hour * 3600 + minute * 60 + second) * 10 ^ 9 + frac * 10 ^ 3
  let sign : Int := if negative then -1 else 1
  let b ← appendTo .duration (.int (sign * microseconds duration)) b
  return (3 + (metadata.toNat + 1) / 2, b)

/-! ## Decimals -/

def powerOf10s : List Nat :=
  [1, 10, 100, 1000, 10000, 100000, 1000000, 10000000, 100000000, 1000000000, 10000000000,
   100000000000, 1000000000000, 10000000000000, 100000000000000, 1000000000000000,
   10000000000000000, 100000000000000000, 1000000000000000000, 10000000000000000000]

/-- The loop over full groups of nine digits. -/
def fullGroups (d : Slice) : Nat → Nat → Nat → Decoded (Nat × Nat)
  | 0, pos, coeff => .ok (pos, coeff)
  | n + 1, pos, coeff => do
    let bytes ← orPanic (d.slice? pos 4)
    fullGroups d n (pos + 4) (coeff * 1000000000 + beNat bytes)

/-- The loop that pads 19 zero digits at a time, and the remaining digits. -/
def padZeros (coeff fp desired : Nat) : Decoded Nat :=
  if fp + 19 < desired then padZeros (coeff * 10000000000000000000) (fp + 19) desired
  else do
    let power ← orPanic powerOf10s[desired - fp]?
    return coeff * power
  termination_by desired - fp

/-- `decimal128.FromBigInt` and `decimal256.FromBigInt`, the sign, and the
`Append` of the builder. -/
def appendDecimal (isNegative : Bool) (coeff : Nat) (l : Nat) (b : Builder) :
    Decoded (Nat × Builder) :=
  let num : Int := if isNegative then -coeff else coeff
  match b.type with
  | .decimal128 _ => if coeff < 2 ^ 127 then .ok (l, b.append (.int num)) else .error .panic
  | .decimal256 _ => if coeff < 2 ^ 255 then .ok (l, b.append (.int num)) else .error .panic
  | type => .error (.error l (.unexpectedBuilder type))

/-- `builder.Type().(arrow.DecimalType).GetScale()`. -/
def decimalScale (b : Builder) : Decoded Int :=
  match b.type with
  | .decimal128 scale => .ok scale
  | .decimal256 scale => .ok scale
  | _ => .error .panic

/-- The first bit is inverted, and all bits of a negative number are. -/
def decimalBytes (bytes : List UInt8) : Option (Bool × List UInt8) :=
  match bytes with
  | [] => none
  | b :: bs =>
    let isNegative := b &&& 0x80 = 0
    let d := (b ^^^ 0x80) :: bs
    some (isNegative, if isNegative then d.map (· ^^^ 0xff) else d)

def newDecimalCell (data : Slice) (pos : Nat) (metadata : UInt16) (b : Builder) :
    Decoded (Nat × Builder) := do
  let scale := lowByte metadata
  let layout ← decimalLayout (highByte metadata) scale
  -- `make([]byte, l, 40)`
  if layout.length < 0 ∨ 40 < layout.length then .error .panic
  else do
    let l := layout.length.toNat
    let bytes ← orPanic (data.slice? pos l)
    let (isNegative, bytes) ← orPanic (decimalBytes bytes)
    let d : Slice := ⟨bytes ++ List.replicate (40 - l) 0, bytes.length, by simp⟩
    -- the leftover full digits
    let first ← orPanic (d.read? 0 layout.intgBytes)
    let (pos, coeff) ← fullGroups d layout.intg0.toNat layout.intgBytes (beNat first)
    -- there is no fraction, and the scale of the builder is not looked at
    if scale = 0 then appendDecimal isNegative coeff l b
    else do
      let (pos, coeff) ← fullGroups d layout.frac0 pos coeff
      -- the partial fractional digits
      let last ← orPanic (d.read? pos layout.fracBytes)
      let coeff := if layout.fracBytes = 0 then coeff
        else coeff * 10 ^ layout.frac0x + beNat last
      let fp := layout.frac0 * 9 + layout.frac0x
      let desired ← decimalScale b
      if fp < desired then do
        let coeff ← padZeros coeff fp desired.toNat
        appendDecimal isNegative coeff l b
      else if desired < fp then .error (.error l (.fractionalDigits fp desired))
      else appendDecimal isNegative coeff l b

/-! ## Strings -/

/-- `charset.DecodeBytes(column.Type.(sql.StringType).CharacterSet(), src)`. -/
def decodeString (size : Nat) (src : List UInt8) (column : CellColumn) : Decoded (List UInt8) :=
  match column.detail with
  | .string decodeBytes =>
    match decodeBytes src with
    | some utf8str => .ok utf8str
    | none => .error (.error size .charset)
  | _ => .error .panic

def varcharCell (data : Slice) (pos : Nat) (metadata : UInt16) (column : CellColumn)
    (b : Builder) : Decoded (Nat × Builder) := do
  let (n, l) ← stringLength data pos (metadata > 255)
  let src ← orPanic (data.slice? (pos + n) l)
  if column.ftype = .varbinary ∨ column.ftype = .binary ∨ column.ftype = .blob then do
    let b ← appendTo .binary (.bytes src) b
    return (l + n, b)
  else do
    let utf8str ← decodeString (l + n) src column
    let b ← appendTo .string (.bytes utf8str) b
    return (l + n, b)

/-- The bytes of an ENUM: one or two. -/
def enumBytes (data : Slice) (pos l : Nat) : Decoded (List UInt8) :=
  if l = 1 then orPanic (data.read? pos 1)
  else if l = 2 then orPanic (data.slice? pos 2)
  else .error (.error 0 (.enumSize l))

/-- An ENUM: the number of its value. -/
def enumCell (data : Slice) (pos : Nat) (metadata : UInt16) (column : CellColumn)
    (b : Builder) : Decoded (Nat × Builder) := do
  let l := lowByte metadata
  let bytes ← enumBytes data pos l
  let idx := leNat bytes
  match column.detail with
  | .enum value =>
    match value idx with
    | some val => do
      let b ← appendTo .string (.bytes val) b
      return (l, b)
    | none => .error (.error l .enumValue)
  | _ => .error .panic

/-- A SET: the bits of its members, in a uint64. -/
def setCell (data : Slice) (pos : Nat) (metadata : UInt16) (column : CellColumn) (b : Builder) :
    Decoded (Nat × Builder) := do
  let l := lowByte metadata
  let bytes ← orPanic (data.read? pos l)
  let val := leNat bytes % 2 ^ 64
  match column.detail with
  | .set bitsToString =>
    match bitsToString val with
    | some s => do
      let b ← appendTo .string (.bytes s) b
      return (l, b)
    | none => .error (.error l (.setBits val))
  | _ => .error .panic

/-- A JSON document that does not parse is a panic. -/
def jsonEntry (parse : List UInt8 → Option (List UInt8)) (src : List UInt8) (size : Nat)
    (b : Builder) : Decoded (Nat × Builder) := do
  let d ← orPanic (parse src)
  let b ← appendTo .string (.bytes d) b
  return (size, b)

/-- JSON and the blobs. MariaDB writes JSON as a blob of text. -/
def blobCell (json : JsonParsers) (isJson : Bool) (data : Slice) (pos : Nat) (metadata : UInt16)
    (column : CellColumn) (b : Builder) : Decoded (Nat × Builder) := do
  let l ← blobLength data pos metadata (.blobMetadata metadata pos)
  let size := l + metadata.toNat
  let src := orPanic (data.slice? (pos + metadata.toNat) l)
  if isJson then do jsonEntry json.parseBinaryJSON (← src) size b
  else if column.ftype = .json then do jsonEntry json.parseBytes (← src) size b
  else match b.type with
    | .binary => do
      let src ← src
      return (size, b.append (.bytes src))
    | .string => do
      let src ← src
      let utf8str ← decodeString l src column
      return (size, b.append (.bytes utf8str))
    | type => .error (.error 0 (.unexpectedBuilder type))

def geometryCell (data : Slice) (pos : Nat) (metadata : UInt16) (b : Builder) :
    Decoded (Nat × Builder) := do
  let l ← blobLength data pos metadata (.geometryMetadata metadata pos)
  let src ← orPanic (data.slice? (pos + metadata.toNat) l)
  let b ← appendTo .binary (.bytes src) b
  return (l + metadata.toNat, b)

/-- A BINARY value is padded with zeros to the length of its column. -/
def padBinary (column : CellColumn) (max : Nat) (src : List UInt8) : List UInt8 :=
  if column.ftype.isBinary ∧ src.length < max ∧ column.ftype = .binary then
    src ++ List.replicate (max - src.length) 0
  else src

def charCell (data : Slice) (pos : Nat) (metadata : UInt16) (column : CellColumn) (b : Builder) :
    Decoded (Nat × Builder) := do
  let max := maxLength metadata
  let (n, l) ← stringLength data pos (max > 255)
  let src ← orPanic (data.slice? (pos + n) l)
  if max > 255 then do
    let utf8str ← decodeString (l + n) src column
    let b ← appendTo .string (.bytes utf8str) b
    return (l + n, b)
  else
    let src := padBinary column max src
    if column.ftype.isBinary ∧ b.type = .binary then .ok (l + n, b.append (.bytes src))
    else do
      let utf8str ← decodeString (l + n) src column
      let b ← appendTo .string (.bytes utf8str) b
      return (l + n, b)

/-- A STRING may be an ENUM or a SET: the type is in the metadata. -/
def stringCell (data : Slice) (pos : Nat) (metadata : UInt16) (column : CellColumn)
    (b : Builder) : Decoded (Nat × Builder) :=
  if highByte metadata = FieldType.enum.byte.toNat then enumCell data pos metadata column b
  else if highByte metadata = FieldType.set.byte.toNat then setCell data pos metadata column b
  else charCell data pos metadata column b

/-! ## CellValue -/

def cellValue (json : JsonParsers) (data : Slice) (pos : Nat) (typ : UInt8) (metadata : UInt16)
    (column : CellColumn) (b : Builder) : Decoded (Nat × Builder) :=
  match FieldType.ofByte? typ with
  | some .tiny => tinyCell data pos column b
  | some .year => yearCell data pos b
  | some .short => shortCell data pos column b
  | some .int24 => int24Cell data pos column b
  | some .long => longCell data pos column b
  | some .float => floatCell 4 .float32 data pos b
  | some .double => floatCell 8 .float64 data pos b
  | some .timestamp => timestampCell data pos b
  | some .longLong => longLongCell data pos column b
  | some .date | some .newDate => dateCell data pos b
  | some .time => timeCell data pos b
  | some .dateTime => dateTimeCell data pos b
  | some .varchar | some .varString => varcharCell data pos metadata column b
  | some .bit => bitCell data pos metadata b
  | some .timestamp2 => timestamp2Cell data pos metadata b
  | some .dateTime2 => dateTime2Cell data pos metadata b
  | some .time2 => time2Cell data pos metadata b
  | some .newDecimal => newDecimalCell data pos metadata b
  | some .enum => enumCell data pos metadata column b
  | some .set => setCell data pos metadata column b
  | some .json => blobCell json true data pos metadata column b
  | some .tinyBlob | some .mediumBlob | some .longBlob | some .blob | some .vector =>
    blobCell json false data pos metadata column b
  | some .string => stringCell data pos metadata column b
  | some .geometry => geometryCell data pos metadata b
  | some .null | some .decimal | none => .error (.error 0 (.unsupportedType typ))

end MyDuck.Rbr
