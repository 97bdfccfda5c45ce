/-
MyDuck.Logrepl.ColumnTypes — the type of a replicated column: `pgTypeName`
of `logrepl/ddl.go`, and `NewPostgresType`, `pgTypeToArrowType` and
`DecodePrecisionScale` of `pgtypes/pgtypes.go`.

The replica's table gets the type that `pgTypeName` writes, the buffer in
front of it the Arrow type. Both read precision and scale of a numeric
column from its type modifier, each in its own way: the name of the type
takes them as they are, and has no precision for an array at all.
`numeric_type_iff` says for which modifiers DuckDB accepts the type and the
buffer has the same one.

The OIDs are an enumeration. DuckDB's DECIMAL without precision and scale
is DECIMAL(18,3).
-/
import Mathlib

namespace MyDuck.PgTypes

/-! ## Types of PostgreSQL -/

inductive Scalar where
  | bool | qchar | bytea | name | text | varchar | bpchar | json | jsonb | xml
  | int2 | int4 | int8 | oid | tid | xid | cid | float4 | float8
  | date | time | timetz | timestamp | timestamptz | interval
  | numeric | uuid | bit | varbit | point
  deriving DecidableEq, Repr

/-- An array has the codec `ArrayCodec`, with the type of its elements. -/
inductive PgType where
  | scalar (type : Scalar)
  | array (element : PgType)
  | other (oid : ℕ)
  deriving DecidableEq, Repr

/-- `PostgresOIDToDuckDBTypeName`. -/
def duckDBTypeName : PgType → Option String
  | .scalar .bool => some "BOOLEAN"
  | .scalar .bytea => some "BLOB"
  | .scalar .qchar => some "UTINYINT"
  | .scalar .int2 => some "SMALLINT"
  | .scalar .int4 => some "INTEGER"
  | .scalar .int8 => some "BIGINT"
  | .scalar .float4 => some "FLOAT"
  | .scalar .float8 => some "DOUBLE"
  | .scalar .numeric => some "DECIMAL"
  | .scalar .text => some "VARCHAR"
  | .scalar .varchar => some "VARCHAR"
  | .scalar .bpchar => some "VARCHAR"
  | .scalar .name => some "VARCHAR"
  | .scalar .date => some "DATE"
  | .scalar .time => some "TIME"
  | .scalar .timetz => some "TIMETZ"
  | .scalar .timestamp => some "TIMESTAMP"
  | .scalar .timestamptz => some "TIMESTAMPTZ"
  | .scalar .interval => some "INTERVAL"
  | .scalar .uuid => some "UUID"
  | .scalar .bit => some "BIT"
  | .scalar .varbit => some "BIT"
  | .scalar .json => some "JSON"
  | .scalar .jsonb => some "JSON"
  | .scalar .oid => some "UINTEGER"
  | .scalar .xid => some "UINTEGER"
  | .scalar .cid => some "UINTEGER"
  | .scalar .tid => some "UBIGINT"
  | .array (.scalar .bool) => some "BOOLEAN[]"
  | .array (.scalar .qchar) => some "TINYINT[]"
  | .array (.scalar .int2) => some "SMALLINT[]"
  | .array (.scalar .int4) => some "INTEGER[]"
  | .array (.scalar .int8) => some "BIGINT[]"
  | .array (.scalar .float4) => some "FLOAT[]"
  | .array (.scalar .float8) => some "DOUBLE[]"
  | .array (.scalar .numeric) => some "DECIMAL[]"
  | .array (.scalar .text) => some "VARCHAR[]"
  | .array (.scalar .varchar) => some "VARCHAR[]"
  | .array (.scalar .bpchar) => some "VARCHAR[]"
  | .array (.scalar .name) => some "VARCHAR[]"
  | .array (.scalar .uuid) => some "UUID[]"
  | .array (.scalar .date) => some "DATE[]"
  | .array (.scalar .time) => some "TIME[]"
  | .array (.scalar .timetz) => some "TIMETZ[]"
  | .array (.scalar .timestamp) => some "TIMESTAMP[]"
  | .array (.scalar .timestamptz) => some "TIMESTAMPTZ[]"
  | .array (.scalar .interval) => some "INTERVAL[]"
  | .array (.scalar .json) => some "JSON[]"
  | .array (.scalar .jsonb) => some "JSON[]"
  | .array (.scalar .bit) => some "BIT[]"
  | _ => none

/-- Precision and scale, when there are some. The masks of the source are
remainders here; a scale is not sign-extended. -/
def decodePrecisionScale (typmod : ℤ) : ℤ × ℤ × Bool :=
  if 0 < typmod then ((typmod - 4) / 2 ^ 16 % 2 ^ 16, (typmod - 4) % 2 ^ 16, true)
  else (0, 0, false)

/-! ## The table -/

inductive TypeName where
  | named (name : String)
  | decimal (precision scale : ℤ)
  deriving DecidableEq, Repr

def pgTypeName (type : PgType) (typmod : ℤ) : TypeName :=
  match duckDBTypeName type with
  | some name =>
    if type = .scalar .numeric then
      let decoded := decodePrecisionScale typmod
      if decoded.2.2 then .decimal decoded.1 decoded.2.1 else .named "VARCHAR"
    else .named name
  | none => .named "VARCHAR"

inductive DuckType where
  | atom (name : String)
  | decimal (precision scale : ℤ)
  | list (element : DuckType)
  deriving DecidableEq, Repr

/-- What DuckDB makes of a name, when it accepts it. -/
def TypeName.duckType : TypeName → Option DuckType
  | .named name =>
    if name = "DECIMAL" then some (.decimal 18 3)
    else if name = "DECIMAL[]" then some (.list (.decimal 18 3))
    else some (.atom name)
  | .decimal precision scale =>
    if 0 ≤ scale ∧ scale ≤ precision ∧ precision ≤ 38 then some (.decimal precision scale) else none

/-! ## The buffer -/

inductive ArrowType where
  | boolean | uint8 | int16 | int32 | int64 | uint32 | uint64 | float32 | float64
  | binary | string | date32 | time64ns
  | timestamp (zone : Bool)
  | decimal128 (precision scale : ℤ)
  | point
  | list (element : ArrowType)
  deriving DecidableEq, Repr

def pgTypeToArrowType (precision scale : ℤ) : PgType → ArrowType
  | .scalar .bool => .boolean
  | .scalar .qchar => .uint8
  | .scalar .bytea => .binary
  | .scalar .name | .scalar .text | .scalar .varchar | .scalar .bpchar
  | .scalar .json | .scalar .jsonb | .scalar .xml => .string
  | .scalar .int8 => .int64
  | .scalar .int2 => .int16
  | .scalar .int4 => .int32
  | .scalar .oid => .uint32
  | .scalar .tid => .uint64
  | .scalar .float4 => .float32
  | .scalar .float8 => .float64
  | .scalar .date => .date32
  | .scalar .time | .scalar .timetz => .time64ns
  | .scalar .timestamp => .timestamp false
  | .scalar .timestamptz => .timestamp true
  | .scalar .numeric =>
    if 0 < precision ∧ 0 ≤ scale then
      if precision ≤ 38 then .decimal128 precision scale else .string
    else .string
  | .scalar .uuid => .string
  | .scalar .point => .point
  | .array element => .list (pgTypeToArrowType precision scale element)
  | _ => .binary

/-- `pgtype.Map`: the types that it knows. -/
structure Registry where
  types : PgType → Bool
  numeric : types (.scalar .numeric) = true
  numericArray : types (.array (.scalar .numeric)) = true

structure PostgresType where
  pg : PgType
  precision : ℤ
  scale : ℤ
  deriving DecidableEq, Repr

def newPostgresType (registry : Registry) (type : PgType) (modifier : ℤ) :
    Except PgType PostgresType :=
  if registry.types type then
    if type = .scalar .numeric ∨ type = .array (.scalar .numeric) then
      let decoded := decodePrecisionScale modifier
      .ok ⟨type, decoded.1, decoded.2.1⟩
    else .ok ⟨type, 0, 0⟩
  else .error type

def postgresTypeToArrowType (p : PostgresType) : ArrowType :=
  pgTypeToArrowType p.precision p.scale p.pg

/-! ## Modifiers -/

structure NumericModifier where
  precision : ℕ
  scale : ℤ
  precision_pos : 1 ≤ precision
  precision_le : precision ≤ 1000
  le_scale : -1000 ≤ scale
  scale_le : scale ≤ 1000

namespace NumericModifier

variable (m : NumericModifier)

/-- The scale as it is packed, `s & 0x7ff`. -/
def packedScale : ℕ := (m.scale % 0x800).toNat

def typmod : ℤ := ((m.precision <<< 16 ||| m.packedScale) + 4 : ℕ)

theorem packedScale_lt : m.packedScale < 2 ^ 11 := by
  rw [packedScale]
  omega

theorem typmod_eq : m.typmod = m.precision * 2 ^ 16 + m.packedScale + 4 := by
  have hlt : m.packedScale < 2 ^ 16 := lt_trans m.packedScale_lt (by decide)
  rw [typmod, ← Nat.shiftLeft_add_eq_or_of_lt hlt, Nat.shiftLeft_eq]
  push_cast
  ring

@[simp] theorem decodePrecisionScale_typmod :
    decodePrecisionScale m.typmod = ((m.precision : ℤ), (m.packedScale : ℤ), true) := by
  have hscale := m.packedScale_lt
  have hprecision := m.precision_le
  have htypmod := m.typmod_eq
  have hpos : 0 < m.typmod := by omega
  rw [decodePrecisionScale, if_pos hpos]
  refine Prod.ext ?_ (Prod.ext ?_ rfl) <;> simp only <;> omega

theorem packedScale_of_nonneg (h : 0 ≤ m.scale) : (m.packedScale : ℤ) = m.scale := by
  have hle := m.scale_le
  rw [packedScale]
  omega

/-- A negative scale looks like a large one. -/
theorem packedScale_of_neg (h : m.scale < 0) : (m.packedScale : ℤ) = m.scale + 2048 := by
  have hle := m.le_scale
  rw [packedScale]
  omega

/-- DuckDB has a decimal of this precision and scale. -/
def Fits : Prop := 0 ≤ m.scale ∧ m.scale ≤ m.precision ∧ m.precision ≤ 38

theorem packed_fits_iff :
    ((m.packedScale : ℤ) ≤ m.precision ∧ (m.precision : ℤ) ≤ 38) ↔ m.Fits := by
  have hle := m.le_scale
  rw [Fits]
  by_cases h : 0 ≤ m.scale
  · rw [m.packedScale_of_nonneg h]
    omega
  · rw [m.packedScale_of_neg (not_le.mp h)]
    omega

end NumericModifier

/-- The type modifier of a column; -1 stands for none. -/
def columnTypmod : Option NumericModifier → ℤ
  | none => -1
  | some m => m.typmod

/-! ## Numeric columns -/

inductive NumericColumn where
  | numeric
  | numericArray
  deriving DecidableEq, Repr

def NumericColumn.type : NumericColumn → PgType
  | .numeric => .scalar .numeric
  | .numericArray => .array (.scalar .numeric)

/-- A decimal of the table is the same decimal in the buffer. -/
def SameDecimal : DuckType → ArrowType → Prop
  | .decimal precision scale, arrow => arrow = .decimal128 precision scale
  | .list element, .list arrow => SameDecimal element arrow
  | .list _, _ => False
  | .atom _, _ => True

/-- DuckDB accepts the type of the column, and the buffer has the same. -/
def NumericTypeMatches (registry : Registry) (column : NumericColumn)
    (modifier : Option NumericModifier) : Prop :=
  ∃ duck p, (pgTypeName column.type (columnTypmod modifier)).duckType = some duck ∧
    newPostgresType registry column.type (columnTypmod modifier) = .ok p ∧
    SameDecimal duck (postgresTypeToArrowType p)

/-- A decimal that DuckDB has, or no modifier; the one precision and scale
of DECIMAL[] for arrays. -/
def Representable : NumericColumn → Option NumericModifier → Prop
  | .numeric, none => True
  | .numeric, some m => m.Fits
  | .numericArray, none => False
  | .numericArray, some m => m.precision = 18 ∧ m.scale = 3

variable (registry : Registry)

theorem newPostgresType_numeric (column : NumericColumn) (typmod : ℤ) :
    newPostgresType registry column.type typmod =
      .ok ⟨column.type, (decodePrecisionScale typmod).1, (decodePrecisionScale typmod).2.1⟩ := by
  cases column with
  | numeric => simp [newPostgresType, NumericColumn.type, registry.numeric]
  | numericArray => simp [newPostgresType, NumericColumn.type, registry.numericArray]

theorem numericTypeMatches_iff (column : NumericColumn) (modifier : Option NumericModifier) :
    NumericTypeMatches registry column modifier ↔
      ∃ duck, (pgTypeName column.type (columnTypmod modifier)).duckType = some duck ∧
        SameDecimal duck (pgTypeToArrowType (decodePrecisionScale (columnTypmod modifier)).1
          (decodePrecisionScale (columnTypmod modifier)).2.1 column.type) := by
  rw [NumericTypeMatches]
  simp only [newPostgresType_numeric, Except.ok.injEq, postgresTypeToArrowType, exists_and_left,
    ↓existsAndEq, true_and]

theorem numeric_matches_iff (m : NumericModifier) :
    NumericTypeMatches registry .numeric (some m) ↔ m.Fits := by
  have hname : pgTypeName (.scalar .numeric) m.typmod = .decimal m.precision m.packedScale := by
    simp [pgTypeName, duckDBTypeName]
  have hscale : (0 : ℤ) ≤ m.packedScale := Int.natCast_nonneg _
  rw [numericTypeMatches_iff, NumericColumn.type, columnTypmod, hname, TypeName.duckType,
    m.decodePrecisionScale_typmod, ← m.packed_fits_iff]
  constructor
  · rintro ⟨duck, hduck, -⟩
    split at hduck
    · rename_i hfits
      exact hfits.2
    · simp at hduck
  · rintro ⟨hle, hmax⟩
    have hpos : (0 : ℤ) < m.precision := by exact_mod_cast m.precision_pos
    refine ⟨_, if_pos ⟨hscale, hle, hmax⟩, ?_⟩
    rw [SameDecimal, pgTypeToArrowType, if_pos ⟨hpos, hscale⟩, if_pos hmax]

theorem numericArray_matches_iff (m : NumericModifier) :
    NumericTypeMatches registry .numericArray (some m) ↔ m.precision = 18 ∧ m.scale = 3 := by
  have hname : pgTypeName (.array (.scalar .numeric)) m.typmod = .named "DECIMAL[]" := rfl
  have hduck : (TypeName.named "DECIMAL[]").duckType = some (.list (.decimal 18 3)) := rfl
  have hpos : (0 : ℤ) < m.precision := by exact_mod_cast m.precision_pos
  have hscale : (0 : ℤ) ≤ m.packedScale := Int.natCast_nonneg _
  rw [numericTypeMatches_iff, NumericColumn.type, columnTypmod, hname, hduck,
    m.decodePrecisionScale_typmod]
  simp only [Option.some.injEq, exists_eq_left', pgTypeToArrowType, SameDecimal,
    if_pos (⟨hpos, hscale⟩ : (0 : ℤ) < m.precision ∧ (0 : ℤ) ≤ m.packedScale)]
  constructor
  · intro h
    split at h
    · have hpair := ArrowType.decimal128.inj h
      have hle := m.le_scale
      by_cases hneg : 0 ≤ m.scale
      · rw [m.packedScale_of_nonneg hneg] at hpair
        omega
      · rw [m.packedScale_of_neg (not_le.mp hneg)] at hpair
        omega
    · simp at h
  · rintro ⟨hp, hs⟩
    have hpacked : (m.packedScale : ℤ) = 3 := by
      rw [m.packedScale_of_nonneg (by omega), hs]
    rw [hp, hpacked]
    rfl

/-- **The numeric type of a replicated column**: DuckDB accepts it, and the
buffer has the same one, exactly when the column is a numeric without a
modifier or with 0 ≤ s ≤ p ≤ 38, or an array of numeric(18,3). -/
theorem numeric_type_iff (column : NumericColumn) (modifier : Option NumericModifier) :
    NumericTypeMatches registry column modifier ↔ Representable column modifier := by
  cases column with
  | numeric =>
    cases modifier with
    | none =>
      rw [numericTypeMatches_iff]
      exact ⟨fun _ => trivial, fun _ => ⟨.atom "VARCHAR", rfl, trivial⟩⟩
    | some m => exact numeric_matches_iff registry m
  | numericArray =>
    cases modifier with
    | none =>
      rw [numericTypeMatches_iff]
      refine ⟨?_, False.elim⟩
      rintro ⟨duck, hduck, hsame⟩
      cases hduck
      simp [columnTypmod, decodePrecisionScale, NumericColumn.type, pgTypeToArrowType,
        SameDecimal] at hsame
    | some m => exact numericArray_matches_iff registry m

def wideModifier : NumericModifier := ⟨39, 0, by decide, by decide, by decide, by decide⟩

def fullRegistry : Registry := ⟨fun _ => true, rfl, rfl⟩

/-- numeric(39,0) becomes DECIMAL(39,0), which DuckDB does not accept, and
numeric[] becomes DECIMAL[] next to a buffer of strings. -/
theorem numeric_type_differs :
    ¬ NumericTypeMatches fullRegistry .numeric (some wideModifier) ∧
      ¬ NumericTypeMatches fullRegistry .numericArray none := by
  constructor
  · rw [numeric_matches_iff]
    rintro ⟨-, -, h⟩
    exact absurd h (by decide)
  · rintro ⟨duck, p, hduck, hp, hsame⟩
    cases hduck
    cases hp
    simp [columnTypmod, decodePrecisionScale, postgresTypeToArrowType, NumericColumn.type,
      pgTypeToArrowType, SameDecimal] at hsame

end MyDuck.PgTypes
