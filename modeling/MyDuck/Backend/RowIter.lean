/-
MyDuck.Backend.RowIter — rows of a query result: `NewSQLRowIter` and `Next`
in backend/iter.go.

The iterator is built from the names of DuckDB's column types and from the
schema that the client expects. It keeps one buffer for all rows, and lists
of indexes into it: of the DECIMAL and INTERVAL columns, of the columns
that get another number type, and of the texts in another character set.
`Next` scans a row into the buffer, goes through these lists, and cuts the
buffer to the width of the schema.

An index outside of a slice panics: `none` for the construction,
`Outcome.panic` for `Next`. `rows_exact_iff` says when every row of a
result has the width of the schema and DuckDB's numbers in it.
-/
import MyDuck.Base.Run

namespace MyDuck.RowIter

/-! ## Values -/

/-- What the code takes from elsewhere: floating-point numbers, the library
of decimals, time spans and character sets. -/
structure Lib where
  Float : Type
  /-- Values of the driver that no case is about. -/
  Other : Type
  Charset : Type
  /-- `Float64` of a `big.Int`. -/
  float64 : ℤ → Float
  toInt64 : Float → ℤ
  /-- `decimal.NewFromString`, as a coefficient and an exponent. -/
  newFromString : List Char → Option (ℤ × ℤ)
  microsecondsToTimespan : ℤ → ℤ
  isSupportedNonUTF8 : Charset → Bool
  encode : Charset → List Char → List Char

inductive Value (lib : Lib) where
  | null
  /-- `duckdb.Decimal`. -/
  | duckDecimal (value : ℤ) (scale : ℕ)
  /-- `decimal.Decimal`. -/
  | decimal (coefficient exponent : ℤ)
  | bigInt (n : ℤ)
  | int64 (n : ℤ)
  | float64 (x : lib.Float)
  | float32 (x : lib.Float)
  /-- `duckdb.Interval`. -/
  | interval (months days micros : ℤ)
  | timespan (t : ℤ)
  | string (s : List Char)
  | other (x : lib.Other)

/-- A type of the schema, as far as `IsFloat`, `IsInteger` and `IsTextOnly`
tell them apart. -/
inductive SchemaType (lib : Lib) where
  | float
  | integer
  | text (charset : lib.Charset)
  | other

inductive Kind where
  | float64
  | int64
  deriving DecidableEq, Repr

abbrev TypeName := List Char

section Code

variable {lib : Lib}

/-! ## Construction -/

/-- The indexes at which a list has such an element. -/
def indexesOf {α : Type} (p : α → Bool) (l : List α) : List ℕ :=
  (l.zipIdx.filter fun c => p c.1).map Prod.snd

def isDecimal (name : TypeName) : Bool := "DECIMAL".toList.isPrefixOf name

def isInterval (name : TypeName) : Bool := "INTERVAL".toList.isPrefixOf name

def hugeint : TypeName := "HUGEINT".toList

/-- The columns for which the loop looks at the schema. -/
def readsSchema (name : TypeName) : Bool :=
  name = hugeint ∨ name = "DOUBLE".toList ∨ name = "FLOAT".toList

def SchemaType.isFloat : SchemaType lib → Bool
  | .float => true
  | _ => false

def SchemaType.isInteger : SchemaType lib → Bool
  | .integer => true
  | _ => false

/-- The character set of a text that has to be encoded. -/
def SchemaType.nonUTF8 : SchemaType lib → Option lib.Charset
  | .text charset => if lib.isSupportedNonUTF8 charset then some charset else none
  | _ => none

/-- What a column adds to the conversions. -/
def conversion (schema : List (SchemaType lib)) (c : TypeName × ℕ) : Option (List (ℕ × Kind)) :=
  if c.1 = hugeint then
    schema[c.2]?.map fun t => [(c.2, if t.isFloat then .float64 else .int64)]
  else if c.1 = "DOUBLE".toList ∨ c.1 = "FLOAT".toList then
    schema[c.2]?.map fun t => if t.isInteger then [(c.2, .int64)] else []
  else some []

def conversionsOf (schema : List (SchemaType lib)) :
    List (TypeName × ℕ) → Option (List (ℕ × Kind))
  | [] => some []
  | c :: cs =>
    (conversion schema c).bind fun k => (conversionsOf schema cs).map fun ks => k ++ ks

structure Iter (lib : Lib) where
  columns : List TypeName
  schema : List (SchemaType lib)
  buffer : List (Value lib)
  decimals : List ℕ
  intervals : List ℕ
  /-- The indexes, each with its character set. -/
  nonUTF8 : List (ℕ × lib.Charset)
  conversions : List (ℕ × Kind)

def newSQLRowIter (columns : List TypeName) (schema : List (SchemaType lib)) :
    Option (Iter lib) :=
  (conversionsOf schema columns.zipIdx).map fun conversions =>
    { columns
      schema
      buffer := List.replicate (max columns.length schema.length) .null
      decimals := indexesOf isDecimal columns
      intervals := indexesOf isInterval columns
      nonUTF8 := schema.zipIdx.filterMap fun t => t.1.nonUTF8.map fun charset => (t.2, charset)
      conversions }

/-! ## The loops -/

/-- A change of the value at an index. -/
abbrev Update (lib : Lib) := ℕ × (Value lib → Value lib)

/-- The changes one after another; an index outside of the buffer panics. -/
def updateAll (b : List (Value lib)) : List (Update lib) → Option (List (Value lib))
  | [] => some b
  | u :: us =>
    match b[u.1]? with
    | some v => updateAll (b.set u.1 (u.2 v)) us
    | none => none

/-- An error of `NewFromString` is ignored; the decimal is zero then. -/
def toDecimal : Value lib → Value lib
  | .duckDecimal value scale => .decimal value (-scale)
  | .string s =>
    match lib.newFromString s with
    | some d => .decimal d.1 d.2
    | none => .decimal 0 0
  | v => v

/-- The months are ignored. -/
def toTimespan : Value lib → Value lib
  | .interval _ days micros =>
    .timespan (lib.microsecondsToTimespan
      ((micros + days * 24 * 60 * 60 * 1000000).bmod (2 ^ 64)))
  | v => v

def convert : Kind → Value lib → Value lib
  | .float64, .bigInt n => .float64 (lib.float64 n)
  | .int64, .float64 x => .int64 (lib.toInt64 x)
  | .int64, .float32 x => .int64 (lib.toInt64 x)
  -- the low 64 bits
  | .int64, .bigInt n => .int64 (n.bmod (2 ^ 64))
  | _, v => v

def encode (charset : lib.Charset) : Value lib → Value lib
  | .string s => .string (lib.encode charset s)
  | v => v

/-! ## Next -/

/-- The values that a call of `Scan` leaves in the buffer. -/
structure Scan (lib : Lib) (n : ℕ) where
  values : List (Value lib)
  length_eq : values.length = n

/-- What the result set has for a call of `Next`. A failed `Scan` may have
changed the buffer. -/
inductive Fetch (lib : Lib) (n : ℕ) where
  | done
  | failed
  | scanFailed (scan : Scan lib n)
  | row (scan : Scan lib n)

inductive Outcome (lib : Lib) where
  | eof
  | error
  | panic
  | row (values : List (Value lib))

/-- The desired width. -/
def widthOf (columns : List TypeName) (schema : List (SchemaType lib)) : ℕ :=
  if schema.length = 0 then columns.length else schema.length

namespace Iter

variable (iter : Iter lib)

def width : ℕ := widthOf iter.columns iter.schema

def overwrite (values : List (Value lib)) : List (Value lib) :=
  values ++ iter.buffer.drop values.length

def decimalUpdates : List (Update lib) := iter.decimals.map fun i => (i, toDecimal)

def intervalUpdates : List (Update lib) := iter.intervals.map fun i => (i, toTimespan)

def conversionUpdates : List (Update lib) := iter.conversions.map fun c => (c.1, convert c.2)

/-- Behind the columns there is nothing. -/
def fillUpdates : List (Update lib) :=
  (List.range' iter.columns.length (iter.width - iter.columns.length)).map fun i =>
    (i, fun _ => .null)

def charsetUpdates : List (Update lib) := iter.nonUTF8.map fun c => (c.1, encode c.2)

def updates : List (Update lib) :=
  iter.decimalUpdates ++ (iter.intervalUpdates ++
    (iter.conversionUpdates ++ (iter.fillUpdates ++ iter.charsetUpdates)))

/-- A row in the buffer, up to its return. -/
def process (values : List (Value lib)) : Outcome lib × Iter lib :=
  match updateAll (iter.overwrite values) iter.updates with
  | none => (.panic, iter)
  | some b =>
    if iter.width ≤ b.length then (.row (b.take iter.width), { iter with buffer := b })
    else (.panic, iter)

def next {n : ℕ} : Fetch lib n → Outcome lib × Iter lib
  | .done => (.eof, iter)
  | .failed => (.error, iter)
  | .scanFailed scan => (.error, { iter with buffer := iter.overwrite scan.values })
  | .row scan => iter.process scan.values

end Iter

end Code

/-! ## What the loops do to one entry -/

section Effect

variable {lib : Lib} {us vs : List (Update lib)} {b : List (Value lib)} {i : ℕ} {v w : Value lib}

/-- The changes at one index, one after another. -/
def effect (us : List (Update lib)) (i : ℕ) (v : Value lib) : Value lib :=
  us.foldl (fun v u => if u.1 = i then u.2 v else v) v

@[simp] theorem effect_cons (u : Update lib) (us : List (Update lib)) (i : ℕ) (v : Value lib) :
    effect (u :: us) i v = effect us i (if u.1 = i then u.2 v else v) := rfl

theorem effect_append : effect (us ++ vs) i v = effect vs i (effect us i v) :=
  List.foldl_append

theorem effect_eq_self (h : ∀ u ∈ us, u.1 = i → u.2 v = v) : effect us i v = v := by
  induction us with
  | nil => rfl
  | cons u us ih =>
    have hfirst : (if u.1 = i then u.2 v else v) = v := by
      split
      · exact h u (by simp) (by assumption)
      · rfl
    rw [effect_cons, hfirst]
    exact ih fun u hu => h u (by simp [hu])

/-- A change that is done once, or more often to the same effect. -/
theorem effect_eq (h : ∀ u ∈ us, u.1 = i → u.2 v = w ∧ u.2 w = w) (hmem : ∃ u ∈ us, u.1 = i) :
    effect us i v = w := by
  induction us with
  | nil => simp at hmem
  | cons u us ih =>
    rw [effect_cons]
    by_cases hi : u.1 = i
    · rw [if_pos hi, (h u (by simp) hi).1]
      exact effect_eq_self fun u hu hi => (h u (by simp [hu]) hi).2
    · rw [if_neg hi]
      refine ih (fun u hu => h u (by simp [hu])) ?_
      obtain ⟨u', hu', hi'⟩ := hmem
      rcases List.mem_cons.mp hu' with rfl | hu'
      · exact absurd hi' hi
      · exact ⟨u', hu', hi'⟩

/-- With all indexes inside of the buffer there is no panic. -/
theorem updateAll_eq (h : ∀ u ∈ us, u.1 < b.length) :
    ∃ b', updateAll b us = some b' ∧ b'.length = b.length ∧
      ∀ i, b'[i]? = b[i]?.map (effect us i) := by
  induction us generalizing b with
  | nil => exact ⟨b, rfl, rfl, fun i => by cases b[i]? <;> rfl⟩
  | cons u us ih =>
    have hu : u.1 < b.length := h u (by simp)
    have hlength : (b.set u.1 (u.2 b[u.1])).length = b.length := by simp
    obtain ⟨b', hb', hsame, hentry⟩ := ih (b := b.set u.1 (u.2 b[u.1])) fun u hu => by
      rw [hlength]
      exact h u (by simp [hu])
    refine ⟨b', ?_, hsame.trans hlength, fun i => ?_⟩
    · rw [updateAll, List.getElem?_eq_getElem hu]
      exact hb'
    · rw [hentry, List.getElem?_set]
      by_cases hi : u.1 = i
      · subst hi
        rw [if_pos rfl, if_pos hu, List.getElem?_eq_getElem hu]
        simp
      · rw [if_neg hi]
        cases b[i]? <;> simp [hi]

end Effect

/-! ## The lists of indexes -/

section Built

variable {lib : Lib} {columns : List TypeName} {schema : List (SchemaType lib)}

theorem mem_indexesOf {α : Type} {p : α → Bool} {l : List α} {i : ℕ} :
    i ∈ indexesOf p l ↔ ∃ a, l[i]? = some a ∧ p a = true := by
  simp only [indexesOf, List.mem_map, List.mem_filter, Prod.exists, exists_eq_right,
    List.mem_zipIdx_iff_getElem?]

theorem conversion_none_iff {c : TypeName × ℕ} :
    conversion schema c = none ↔ readsSchema c.1 = true ∧ schema.length ≤ c.2 := by
  rw [conversion, readsSchema, decide_eq_true_iff]
  split_ifs with h1 h2
  · rw [Option.map_eq_none_iff, List.getElem?_eq_none_iff]
    exact (and_iff_right (.inl h1)).symm
  · rw [Option.map_eq_none_iff, List.getElem?_eq_none_iff]
    exact (and_iff_right (.inr h2)).symm
  · refine iff_of_false (by simp) ?_
    rintro ⟨h, -⟩
    exact h.elim h1 h2

theorem conversionsOf_eq_none_iff {cs : List (TypeName × ℕ)} :
    conversionsOf schema cs = none ↔ ∃ c ∈ cs, conversion schema c = none := by
  induction cs with
  | nil => simp [conversionsOf]
  | cons c cs ih =>
    rw [conversionsOf]
    cases hc : conversion schema c with
    | none => simp [hc]
    | some k => simp [hc, ih]

theorem mem_conversionsOf {cs : List (TypeName × ℕ)} {ks : List (ℕ × Kind)}
    (h : conversionsOf schema cs = some ks) {x : ℕ × Kind} :
    x ∈ ks ↔ ∃ c ∈ cs, ∃ k, conversion schema c = some k ∧ x ∈ k := by
  induction cs generalizing ks with
  | nil =>
    cases h
    simp
  | cons c cs ih =>
    rw [conversionsOf, Option.bind_eq_some_iff] at h
    obtain ⟨k, hk, h⟩ := h
    obtain ⟨ks', hks', rfl⟩ := Option.map_eq_some_iff.mp h
    simp [ih hks', hk]

theorem conversion_index {c : TypeName × ℕ} {k : List (ℕ × Kind)} {x : ℕ × Kind}
    (h : conversion schema c = some k) (hx : x ∈ k) : x.1 = c.2 ∧ readsSchema c.1 = true := by
  rw [readsSchema, decide_eq_true_iff]
  rw [conversion] at h
  split_ifs at h with h1 h2
  · obtain ⟨t, -, rfl⟩ := Option.map_eq_some_iff.mp h
    rw [List.mem_singleton.mp hx]
    exact ⟨rfl, .inl h1⟩
  · obtain ⟨t, -, rfl⟩ := Option.map_eq_some_iff.mp h
    split_ifs at hx
    · rw [List.mem_singleton.mp hx]
      exact ⟨rfl, .inr h2⟩
    · simp at hx
  · cases h
    simp at hx

/-- What holds of an iterator at all times. -/
structure Built (columns : List TypeName) (schema : List (SchemaType lib)) (iter : Iter lib) :
    Prop where
  columns_eq : iter.columns = columns
  schema_eq : iter.schema = schema
  buffer : iter.buffer.length = max columns.length schema.length
  decimals : iter.decimals = indexesOf isDecimal columns
  intervals : iter.intervals = indexesOf isInterval columns
  nonUTF8 : ∀ c ∈ iter.nonUTF8, c.1 < schema.length
  conversions : conversionsOf schema columns.zipIdx = some iter.conversions

theorem built_of_new {iter : Iter lib} (h : newSQLRowIter columns schema = some iter) :
    Built columns schema iter := by
  obtain ⟨conversions, hconversions, rfl⟩ := Option.map_eq_some_iff.mp h
  refine ⟨rfl, rfl, by simp, rfl, rfl, ?_, hconversions⟩
  intro c hc
  obtain ⟨t, ht, heq⟩ := List.mem_filterMap.mp hc
  obtain ⟨charset, -, rfl⟩ := Option.map_eq_some_iff.mp heq
  have hget := List.mem_zipIdx_iff_getElem?.mp ht
  exact (List.getElem?_eq_some_iff.mp hget).1

/-- There is an iterator unless a column that needs one has no entry in the
schema. -/
theorem new_eq_none_iff : newSQLRowIter columns schema = none ↔
    ∃ i c, columns[i]? = some c ∧ readsSchema c = true ∧ schema.length ≤ i := by
  rw [newSQLRowIter, Option.map_eq_none_iff, conversionsOf_eq_none_iff]
  constructor
  · rintro ⟨c, hc, hnone⟩
    obtain ⟨hreads, hle⟩ := conversion_none_iff.mp hnone
    exact ⟨c.2, c.1, List.mem_zipIdx_iff_getElem?.mp hc, hreads, hle⟩
  · rintro ⟨i, c, hc, hreads, hle⟩
    exact ⟨(c, i), List.mem_zipIdx_iff_getElem?.mpr hc, conversion_none_iff.mpr ⟨hreads, hle⟩⟩

variable {iter : Iter lib} (h : Built columns schema iter)

include h

theorem Built.width_eq : iter.width = widthOf columns schema := by
  rw [Iter.width, h.columns_eq, h.schema_eq]

theorem Built.width_le : iter.width ≤ max columns.length schema.length := by
  rw [h.width_eq, widthOf]
  split <;> simp

/-- The indexes of a conversion are those of columns. -/
theorem Built.mem_conversions {x : ℕ × Kind} (hx : x ∈ iter.conversions) :
    ∃ c k, columns[x.1]? = some c ∧ readsSchema c = true ∧ conversion schema (c, x.1) = some k ∧
      x ∈ k := by
  obtain ⟨c, hc, k, hk, hxk⟩ := (mem_conversionsOf h.conversions).mp hx
  obtain ⟨hindex, hreads⟩ := conversion_index hk hxk
  refine ⟨c.1, k, ?_, hreads, ?_, hxk⟩
  · rw [hindex]
    exact List.mem_zipIdx_iff_getElem?.mp hc
  · rw [hindex]
    exact hk

theorem Built.index_lt {u : Update lib} (hu : u ∈ iter.updates) :
    u.1 < max columns.length schema.length := by
  have hcolumn : ∀ {i : ℕ} {c : TypeName}, columns[i]? = some c →
      i < max columns.length schema.length := fun hc =>
    lt_max_of_lt_left (List.getElem?_eq_some_iff.mp hc).1
  simp only [Iter.updates, List.mem_append] at hu
  rcases hu with hu | hu | hu | hu | hu
  · obtain ⟨i, hi, rfl⟩ := List.mem_map.mp hu
    rw [h.decimals] at hi
    obtain ⟨c, hc, -⟩ := mem_indexesOf.mp hi
    exact hcolumn hc
  · obtain ⟨i, hi, rfl⟩ := List.mem_map.mp hu
    rw [h.intervals] at hi
    obtain ⟨c, hc, -⟩ := mem_indexesOf.mp hi
    exact hcolumn hc
  · obtain ⟨x, hx, rfl⟩ := List.mem_map.mp hu
    obtain ⟨c, k, hc, -⟩ := h.mem_conversions hx
    exact hcolumn hc
  · obtain ⟨i, hi, rfl⟩ := List.mem_map.mp hu
    have hlt := (List.mem_range'_1.mp hi).2
    rw [h.columns_eq] at hlt
    have hwidth := h.width_le
    dsimp only
    omega
  · obtain ⟨x, hx, rfl⟩ := List.mem_map.mp hu
    exact lt_max_of_lt_right (h.nonUTF8 x hx)

theorem Built.overwrite_length {values : List (Value lib)}
    (hvalues : values.length = columns.length) :
    (iter.overwrite values).length = max columns.length schema.length := by
  rw [Iter.overwrite, List.length_append, List.length_drop, h.buffer, hvalues]
  omega

/-- A scanned row is always returned, with every entry changed by the
loops. -/
theorem Built.process {values : List (Value lib)} (hvalues : values.length = columns.length) :
    ∃ r b, iter.process values = (.row r, { iter with buffer := b }) ∧
      b.length = max columns.length schema.length ∧ r.length = widthOf columns schema ∧
      ∀ i v, values[i]? = some v → i < widthOf columns schema →
        r[i]? = some (effect iter.updates i v) := by
  have hlength := h.overwrite_length hvalues
  have hindexes : ∀ u ∈ iter.updates, u.1 < (iter.overwrite values).length :=
    fun u hu => hlength ▸ h.index_lt hu
  obtain ⟨b, hb, hsame, hentry⟩ := updateAll_eq hindexes
  have hwidth : iter.width ≤ b.length := by
    rw [hsame, hlength]
    exact h.width_le
  refine ⟨b.take iter.width, b, ?_, hsame.trans hlength, ?_, ?_⟩
  · simp only [Iter.process, hb, if_pos hwidth]
  · rw [List.length_take, min_eq_left hwidth, h.width_eq]
  · intro i v hv hi
    have hivalues : i < values.length := (List.getElem?_eq_some_iff.mp hv).1
    rw [List.getElem?_take_of_lt (h.width_eq ▸ hi), hentry, Iter.overwrite,
      List.getElem?_append_left hivalues, hv]
    rfl

theorem Built.step {n : ℕ} (hn : n = columns.length) (fetch : Fetch lib n) :
    Built columns schema (iter.next fetch).2 := by
  have hbuffer : ∀ b : List (Value lib), b.length = max columns.length schema.length →
      Built columns schema { iter with buffer := b } := fun b hb =>
    ⟨h.columns_eq, h.schema_eq, hb, h.decimals, h.intervals, h.nonUTF8, h.conversions⟩
  cases fetch with
  | done | failed => exact h
  | scanFailed scan => exact hbuffer _ (h.overwrite_length (scan.length_eq.trans hn))
  | row scan =>
    obtain ⟨r, b, hprocess, hb, -⟩ := h.process (scan.length_eq.trans hn)
    rw [Iter.next, hprocess]
    exact hbuffer b hb

end Built

/-! ## Numbers -/

section Numbers

variable {lib : Lib}

def Value.number : Value lib → Option ℚ
  | .duckDecimal value scale => some (value / 10 ^ scale)
  | .decimal coefficient exponent => some (coefficient * 10 ^ exponent)
  | .bigInt n => some n
  | .int64 n => some n
  | .string s => (lib.newFromString s).map fun d => d.1 * 10 ^ d.2
  | _ => none

/-- A row keeps the numbers: it has the width of the schema, a HUGEINT is
the same integer or a floating-point number, and a DECIMAL is the same
number. -/
structure Keeps (columns : List TypeName) (schema : List (SchemaType lib))
    (values row : List (Value lib)) : Prop where
  width : row.length = widthOf columns schema
  hugeints : ∀ i n, columns[i]? = some hugeint → values[i]? = some (.bigInt n) →
    i < widthOf columns schema → row[i]? = some (.int64 n) ∨ ∃ x, row[i]? = some (.float64 x)
  decimals : ∀ i c v q, columns[i]? = some c → isDecimal c = true → values[i]? = some v →
    v.number = some q → i < widthOf columns schema → ∃ w, row[i]? = some w ∧ w.number = some q

theorem number_toDecimal {v : Value lib} {q : ℚ} (h : v.number = some q) :
    (toDecimal v).number = some q := by
  cases v with
  | duckDecimal value scale =>
    rw [← h, toDecimal, Value.number, Value.number, zpow_neg, zpow_natCast, div_eq_mul_inv]
  | string s =>
    obtain ⟨d, hd, rfl⟩ := Option.map_eq_some_iff.mp h
    simp [toDecimal, hd, Value.number]
  | _ => exact h

theorem toDecimal_toDecimal (v : Value lib) : toDecimal (toDecimal v) = toDecimal v := by
  cases v with
  | string s =>
    rw [toDecimal]
    split <;> rfl
  | _ => rfl

/-- No string is left that could be encoded. -/
theorem encode_toDecimal (charset : lib.Charset) (v : Value lib) :
    encode charset (toDecimal v) = toDecimal v := by
  cases v with
  | string s =>
    rw [toDecimal]
    split <;> rfl
  | _ => rfl

variable {c : TypeName}

theorem isDecimal_cases (h : isDecimal c = true) :
    isInterval c = false ∧ readsSchema c = false := by
  obtain ⟨rest, rfl⟩ := List.isPrefixOf_iff_prefix.mp h
  refine ⟨rfl, ?_⟩
  rw [readsSchema, decide_eq_false_iff_not]
  rintro (h | h | h)
  · exact absurd (List.cons.inj h).1 (by decide)
  · exact absurd (List.cons.inj (List.cons.inj h).2).1 (by decide)
  · exact absurd (List.cons.inj h).1 (by decide)

variable {columns : List TypeName} {schema : List (SchemaType lib)} {iter : Iter lib} {i : ℕ}

section

variable (h : Built columns schema iter) (hc : columns[i]? = some c)

include h hc

/-- The change at a column that some of the loops leave alone. -/
theorem Built.effect_columns {v w : Value lib}
    (hcolumn : effect (iter.decimalUpdates ++ (iter.intervalUpdates ++ iter.conversionUpdates)) i v
      = w)
    (hencode : ∀ charset, encode charset w = w) : effect iter.updates i v = w := by
  have hlt : i < columns.length := (List.getElem?_eq_some_iff.mp hc).1
  have hfill : effect iter.fillUpdates i w = w := by
    refine effect_eq_self fun u hu hi => ?_
    obtain ⟨j, hj, rfl⟩ := List.mem_map.mp hu
    have hle := (List.mem_range'_1.mp hj).1
    rw [h.columns_eq] at hle
    dsimp only at hi
    omega
  have hcharset : effect iter.charsetUpdates i w = w := by
    refine effect_eq_self fun u hu _ => ?_
    obtain ⟨x, -, rfl⟩ := List.mem_map.mp hu
    exact hencode x.2
  have hsplit : iter.updates =
      (iter.decimalUpdates ++ (iter.intervalUpdates ++ iter.conversionUpdates)) ++
        (iter.fillUpdates ++ iter.charsetUpdates) := by
    simp only [Iter.updates, List.append_assoc]
  rw [hsplit, effect_append, hcolumn, effect_append, hfill, hcharset]

theorem Built.effect_decimals (v : Value lib) :
    effect iter.decimalUpdates i v = if isDecimal c = true then toDecimal v else v := by
  split
  · rename_i hdecimal
    refine effect_eq (fun u hu _ => ?_) ⟨(i, toDecimal), ?_, rfl⟩
    · obtain ⟨j, -, rfl⟩ := List.mem_map.mp hu
      exact ⟨rfl, toDecimal_toDecimal v⟩
    · refine List.mem_map.mpr ⟨i, ?_, rfl⟩
      rw [h.decimals]
      exact mem_indexesOf.mpr ⟨c, hc, hdecimal⟩
  · rename_i hdecimal
    refine effect_eq_self fun u hu hi => ?_
    obtain ⟨j, hj, rfl⟩ := List.mem_map.mp hu
    rw [h.decimals, show j = i from hi] at hj
    obtain ⟨d, hd, hprefix⟩ := mem_indexesOf.mp hj
    rw [hc] at hd
    cases hd
    exact absurd hprefix hdecimal

theorem Built.effect_intervals (hinterval : isInterval c = false) (v : Value lib) :
    effect iter.intervalUpdates i v = v := by
  refine effect_eq_self fun u hu hi => ?_
  obtain ⟨j, hj, rfl⟩ := List.mem_map.mp hu
  rw [h.intervals, show j = i from hi] at hj
  obtain ⟨d, hd, hprefix⟩ := mem_indexesOf.mp hj
  rw [hc] at hd
  cases hd
  rw [hinterval] at hprefix
  exact Bool.noConfusion hprefix

theorem Built.effect_conversions (hreads : readsSchema c = false) (v : Value lib) :
    effect iter.conversionUpdates i v = v := by
  refine effect_eq_self fun u hu hi => ?_
  obtain ⟨x, hx, rfl⟩ := List.mem_map.mp hu
  obtain ⟨d, k, hd, hreads', -⟩ := h.mem_conversions hx
  rw [show x.1 = i from hi, hc] at hd
  cases hd
  rw [hreads] at hreads'
  exact Bool.noConfusion hreads'

end

theorem convert_convert_bigInt (kind : Kind) (n : ℤ) :
    convert kind (convert kind (.bigInt n) : Value lib) = convert kind (.bigInt n) := by
  cases kind <;> rfl

/-- The conversion of a HUGEINT. -/
def hugeintKind (t : SchemaType lib) : Kind := if t.isFloat then .float64 else .int64

theorem Built.effect_hugeint (h : Built columns schema iter) (hc : columns[i]? = some hugeint)
    {t : SchemaType lib} (ht : schema[i]? = some t) (n : ℤ) :
    effect iter.updates i (.bigInt n) = convert (hugeintKind t) (.bigInt n) := by
  have hconversion : conversion schema (hugeint, i) = some [(i, hugeintKind t)] := by
    rw [conversion, if_pos rfl]
    simp only [ht, Option.map_some]
    rfl
  refine h.effect_columns hc ?_ ?_
  · rw [effect_append, effect_append, h.effect_decimals hc, if_neg (by decide),
      h.effect_intervals hc rfl]
    refine effect_eq (fun u hu hi => ?_) ⟨(i, convert (hugeintKind t)), ?_, rfl⟩
    · obtain ⟨x, hx, rfl⟩ := List.mem_map.mp hu
      obtain ⟨c, k, hcolumn, -, hk, hxk⟩ := h.mem_conversions hx
      rw [show x.1 = i from hi] at hcolumn hk
      rw [hc] at hcolumn
      cases hcolumn
      rw [hconversion] at hk
      cases hk
      rw [List.mem_singleton.mp hxk]
      exact ⟨rfl, convert_convert_bigInt _ n⟩
    · refine List.mem_map.mpr ⟨(i, hugeintKind t), ?_, rfl⟩
      exact (mem_conversionsOf h.conversions).mpr
        ⟨(hugeint, i), List.mem_zipIdx_iff_getElem?.mpr hc, _, hconversion, by simp⟩
  · intro charset
    cases hugeintKind t <;> rfl

theorem Built.effect_decimal (h : Built columns schema iter) (hc : columns[i]? = some c)
    (hdecimal : isDecimal c = true) (v : Value lib) : effect iter.updates i v = toDecimal v := by
  obtain ⟨hinterval, hreads⟩ := isDecimal_cases hdecimal
  refine h.effect_columns hc ?_ fun charset => encode_toDecimal charset v
  rw [effect_append, effect_append, h.effect_decimals hc, if_pos hdecimal,
    h.effect_intervals hc hinterval, h.effect_conversions hc hreads]

end Numbers

/-! ## Whole results -/

section Results

variable {lib : Lib} {columns : List TypeName} {schema : List (SchemaType lib)}

/-- Every column for which the loop looks at the schema has an entry in
it. -/
def Compatible (columns : List TypeName) (schema : List (SchemaType lib)) : Prop :=
  ∀ i c, columns[i]? = some c → readsSchema c = true → i < schema.length

/-- The HUGEINT values that do not become floating-point numbers have 64
bits. -/
def Fits (columns : List TypeName) (schema : List (SchemaType lib)) {n : ℕ}
    (fetch : Fetch lib n) : Prop :=
  ∀ scan, fetch = .row scan → ∀ (i : ℕ) (m : ℤ) (t : SchemaType lib),
    columns[i]? = some hugeint → schema[i]? = some t → t.isFloat = false →
      scan.values[i]? = some (.bigInt m) → -2 ^ 63 ≤ m ∧ m < 2 ^ 63

/-- A call does not panic, and returns a scanned row with its numbers. -/
def Answers (columns : List TypeName) (schema : List (SchemaType lib)) {n : ℕ} (iter : Iter lib)
    (fetch : Fetch lib n) : Prop :=
  (∀ iter', iter.next fetch ≠ (.panic, iter')) ∧
    ∀ scan, fetch = .row scan → ∃ r, (iter.next fetch).1 = .row r ∧
      Keeps columns schema scan.values r

theorem bmod_eq_self_iff (m : ℤ) : m.bmod (2 ^ 64) = m ↔ -2 ^ 63 ≤ m ∧ m < 2 ^ 63 := by
  constructor
  · intro h
    have hlo := Int.le_bmod (x := m) (m := 2 ^ 64) (by decide)
    have hhi := Int.bmod_lt (x := m) (m := 2 ^ 64) (by decide)
    rw [h] at hlo hhi
    norm_num at hlo hhi ⊢
    omega
  · rintro ⟨hlo, hhi⟩
    refine Int.bmod_eq_of_le ?_ ?_ <;> norm_num at hlo hhi ⊢ <;> omega

variable {iter : Iter lib}

section

variable (h : Built columns schema iter) (hcompatible : Compatible columns schema)

include h hcompatible

theorem Built.keeps_iff {scan : Scan lib columns.length} {r : List (Value lib)}
    (hwidth : r.length = widthOf columns schema)
    (hentry : ∀ i v, scan.values[i]? = some v → i < widthOf columns schema →
      r[i]? = some (effect iter.updates i v)) :
    Keeps columns schema scan.values r ↔ Fits columns schema (.row scan) := by
  have hschema : ∀ {i : ℕ}, i < schema.length → i < widthOf columns schema := by
    intro i hi
    rw [widthOf, if_neg (by omega)]
    exact hi
  constructor
  · intro hkeeps scan' hscan i m t hc ht hfloat hm
    cases hscan
    have hi := hschema (List.getElem?_eq_some_iff.mp ht).1
    have hrow := hentry i _ hm hi
    rw [h.effect_hugeint hc ht, hugeintKind, hfloat] at hrow
    rw [← bmod_eq_self_iff]
    rcases hkeeps.hugeints i m hc hm hi with hsame | ⟨x, hx⟩
    · rw [hrow] at hsame
      exact Value.int64.inj (Option.some.inj hsame)
    · rw [hrow] at hx
      exact absurd (Option.some.inj hx) (by simp [convert])
  · intro hfits
    refine ⟨hwidth, ?_, ?_⟩
    · intro i m hc hm hi
      have hlt := hcompatible i _ hc (by simp [readsSchema])
      have ht := List.getElem?_eq_getElem hlt
      have hrow := hentry i _ hm hi
      rw [h.effect_hugeint hc ht, hugeintKind] at hrow
      cases hfloat : schema[i].isFloat with
      | true =>
        rw [hfloat] at hrow
        exact .inr ⟨_, hrow⟩
      | false =>
        rw [hfloat] at hrow
        have hsame := (bmod_eq_self_iff m).mpr (hfits scan rfl i m _ hc ht hfloat hm)
        exact .inl (hrow.trans (congrArg (fun m => some (Value.int64 m)) hsame))
    · intro i c v q hc hdecimal hv hq hi
      exact ⟨_, hentry i v hv hi, h.effect_decimal hc hdecimal v ▸ number_toDecimal hq⟩

theorem Built.answers_iff (fetch : Fetch lib columns.length) :
    Answers columns schema iter fetch ↔ Fits columns schema fetch := by
  cases fetch with
  | done | failed | scanFailed scan => simp [Answers, Fits, Iter.next]
  | row scan =>
    obtain ⟨r, b, hprocess, -, hwidth, hentry⟩ := h.process scan.length_eq
    have hanswers : Answers columns schema iter (.row scan) ↔
        Keeps columns schema scan.values r := by
      simp [Answers, Iter.next, hprocess]
    rw [hanswers]
    exact h.keeps_iff hcompatible hwidth hentry

/-- Over all calls the buffer keeps its width, and nothing else of it
matters for the next row. -/
theorem Built.along_iff (fetches : List (Fetch lib columns.length)) :
    Along (fun iter fetch => (Iter.next iter fetch).2) (Answers columns schema) iter fetches ↔
      ∀ fetch ∈ fetches, Fits columns schema fetch := by
  induction fetches generalizing iter with
  | nil => simp [Along]
  | cons fetch fetches ih =>
    rw [Along, h.answers_iff hcompatible, ih (h.step rfl fetch), List.forall_mem_cons]

end

/-- A result without panics, and with every row as it should be. -/
def Exact (columns : List TypeName) (schema : List (SchemaType lib))
    (fetches : List (Fetch lib columns.length)) : Prop :=
  ∃ iter, newSQLRowIter columns schema = some iter ∧
    Along (fun iter fetch => (Iter.next iter fetch).2) (Answers columns schema) iter fetches

/-- Every row of a result is exact if the HUGEINT columns have entries in
the schema, as those with floating-point numbers, and fit into 64 bits. -/
theorem rows_exact_iff (columns : List TypeName) (schema : List (SchemaType lib))
    (fetches : List (Fetch lib columns.length)) :
    Exact columns schema fetches ↔
      Compatible columns schema ∧ ∀ fetch ∈ fetches, Fits columns schema fetch := by
  constructor
  · rintro ⟨iter, hnew, halong⟩
    have hcompatible : Compatible columns schema := by
      intro i c hc hreads
      by_contra hle
      have hnone := new_eq_none_iff.mpr ⟨i, c, hc, hreads, Nat.not_lt.mp hle⟩
      rw [hnew] at hnone
      exact absurd hnone (by simp)
    exact ⟨hcompatible, ((built_of_new hnew).along_iff hcompatible fetches).mp halong⟩
  · rintro ⟨hcompatible, hfits⟩
    cases hnew : newSQLRowIter columns schema with
    | none =>
      obtain ⟨i, c, hc, hreads, hle⟩ := new_eq_none_iff.mp hnew
      exact absurd (hcompatible i c hc hreads) (Nat.not_lt.mpr hle)
    | some iter =>
      exact ⟨iter, hnew, ((built_of_new hnew).along_iff hcompatible fetches).mpr hfits⟩

/-- A library with which values can be computed. -/
def Lib.plain : Lib where
  Float := ℤ
  Other := Empty
  Charset := Empty
  float64 := id
  toInt64 := id
  newFromString _ := none
  microsecondsToTimespan := id
  isSupportedNonUTF8 _ := false
  encode _ := id

/-- The sum 2^63 comes out as -2^63, and a HUGEINT column without an entry
in the schema panics. -/
theorem rows_not_exact :
    (¬ Exact [hugeint] [(.integer : SchemaType Lib.plain)] [.row ⟨[.bigInt (2 ^ 63)], rfl⟩]) ∧
      newSQLRowIter [hugeint] ([] : List (SchemaType Lib.plain)) = none := by
  refine ⟨?_, rfl⟩
  rintro ⟨iter, hnew, hanswers, -⟩
  have hfits := ((built_of_new hnew).answers_iff ?_ _).mp hanswers
  · have hlt := hfits _ rfl 0 (2 ^ 63) .integer rfl rfl rfl rfl
    exact absurd hlt.2 (by decide)
  · intro i c hc _
    exact (List.getElem?_eq_some_iff.mp hc).1

end Results

end MyDuck.RowIter
