/-
MyDuck.Logrepl.DecodeTheorems — replicated numerics, and arrays.

A value that fits into numeric(p,s) comes as some coefficient and exponent.
The powers of ten of the table are enough for each of them, and a division
leaves nothing over (`rescale_of_denotes`), so the buffer has exactly the
value times 10^s (`numeric_exact`).

The list that is appended for an array has no dimensions. It determines the
array only when there are no elements (`array_determined_iff`).
-/
import MyDuck.Logrepl.Decode

namespace MyDuck.Decode

open PgTypes

/-! ## Numerics -/

theorem pow10s_eq (i : ℕ) : pow10s i = 10 ^ i := by
  induction i with
  | zero => rfl
  | succ i ih => rw [pow10s, ih, pow_succ]

def Numeric.value (v : Numeric) : ℚ := v.int * (10 : ℚ) ^ v.exp

/-- A value of numeric(p,s), as the number of its last decimal places. -/
structure Stored (precision scale : ℕ) where
  unscaled : ℤ
  fits : unscaled.natAbs < 10 ^ precision

def Stored.value {precision scale : ℕ} (x : Stored precision scale) : ℚ :=
  x.unscaled / (10 : ℚ) ^ scale

/-- A coefficient and an exponent for the value. -/
structure Denotes {precision scale : ℕ} (v : Numeric) (x : Stored precision scale) : Prop where
  not_nan : v.nan = false
  finite : v.infinityModifier = 0
  valid : v.valid = true
  value_eq : v.value = x.value
  le_exp : -38 ≤ v.exp
  exp_le : v.exp ≤ 38
  zero : v.int = 0 → v.exp ≤ 0

section Numerics

variable {precision scale : ℕ} {v : Numeric} {x : Stored precision scale}

theorem Denotes.unscaled_eq (h : Denotes v x) :
    (x.unscaled : ℚ) = v.int * (10 : ℚ) ^ (v.exp + scale) := by
  have hten : (10 : ℚ) ≠ 0 := by norm_num
  have hvalue : v.int * (10 : ℚ) ^ v.exp = x.unscaled / (10 : ℚ) ^ scale := h.value_eq
  rw [zpow_add₀ hten, ← mul_assoc, hvalue, zpow_natCast, div_mul_cancel₀]
  exact pow_ne_zero _ hten

/-- A coefficient other than zero leaves little room for the exponent. -/
theorem Denotes.exp_lt (h : Denotes v x) (hint : v.int ≠ 0) : v.exp + scale < precision := by
  have habs : (1 : ℚ) ≤ |(v.int : ℚ)| := by exact_mod_cast Int.one_le_abs hint
  have hpos : (0 : ℚ) < (10 : ℚ) ^ (v.exp + scale) := zpow_pos (by norm_num) _
  have hfits : |(x.unscaled : ℚ)| < (10 : ℚ) ^ (precision : ℤ) := by
    rw [zpow_natCast]
    have hnat : ((x.unscaled.natAbs : ℕ) : ℚ) < ((10 ^ precision : ℕ) : ℚ) := by
      exact_mod_cast x.fits
    rwa [Nat.cast_natAbs, Int.cast_abs, Nat.cast_pow, Nat.cast_ofNat] at hnat
  have hlt : (10 : ℚ) ^ (v.exp + scale) < (10 : ℚ) ^ (precision : ℤ) := by
    calc (10 : ℚ) ^ (v.exp + scale) ≤ |(v.int : ℚ)| * (10 : ℚ) ^ (v.exp + scale) :=
          le_mul_of_one_le_left hpos.le habs
      _ = |(x.unscaled : ℚ)| := by rw [h.unscaled_eq, abs_mul, abs_of_pos hpos]
      _ < (10 : ℚ) ^ (precision : ℤ) := hfits
  exact (zpow_lt_zpow_iff_right₀ (by norm_num)).mp hlt

/-- The exponents of the table are enough. -/
theorem Denotes.exp_bounds (h : Denotes v x) (hs : scale ≤ precision) (hp : precision ≤ 38) :
    -38 ≤ v.exp + scale ∧ v.exp + scale ≤ 38 := by
  have hle := h.le_exp
  by_cases hint : v.int = 0
  · have hzero := h.zero hint
    omega
  · have hlt := h.exp_lt hint
    omega

theorem rescale_of_denotes (h : Denotes v x) (hs : scale ≤ precision) (hp : precision ≤ 38) :
    rescale v scale = .ok x.unscaled := by
  obtain ⟨hlow, hhigh⟩ := h.exp_bounds hs hp
  have hwrap : (v.exp + scale).bmod (2 ^ 32) = v.exp + scale :=
    Int.bmod_eq_of_le (by omega) (by omega)
  have hunscaled := h.unscaled_eq
  rw [rescale]
  simp only [hwrap]
  generalize v.exp + (scale : ℤ) = exp at *
  have hrange : ¬ (40 ≤ exp ∨ exp ≤ -40) := by omega
  rcases lt_trichotomy exp 0 with hneg | rfl | hpos
  · -- the division is exact: the coefficient is a multiple of the power
    rw [if_neg hneg.ne, if_neg hrange, if_neg (not_lt.mpr hneg.le), pow10s_eq]
    obtain ⟨k, rfl⟩ : ∃ k : ℕ, exp = -k := ⟨(-exp).toNat, by omega⟩
    have hint : v.int = x.unscaled * 10 ^ k := by
      have hpow : (10 : ℚ) ^ k ≠ 0 := pow_ne_zero _ (by norm_num)
      rw [zpow_neg, zpow_natCast] at hunscaled
      have hmul : (v.int : ℚ) = x.unscaled * 10 ^ k := by
        rw [hunscaled, mul_assoc, inv_mul_cancel₀ hpow, mul_one]
      exact_mod_cast hmul
    rw [neg_neg, Int.toNat_natCast, hint, Int.mul_ediv_cancel _ (pow_ne_zero _ (by norm_num))]
  · rw [if_pos rfl]
    rw [zpow_zero, mul_one] at hunscaled
    exact congrArg Except.ok (by exact_mod_cast hunscaled.symm)
  · rw [if_neg hpos.ne', if_neg hrange, if_pos hpos, pow10s_eq]
    obtain ⟨k, rfl⟩ : ∃ k : ℕ, exp = k := ⟨exp.toNat, by omega⟩
    rw [zpow_natCast] at hunscaled
    rw [Int.toNat_natCast]
    exact congrArg Except.ok (by exact_mod_cast hunscaled.symm)

theorem Stored.natAbs_lt (x : Stored precision scale) (hp : precision ≤ 38) :
    x.unscaled.natAbs < 2 ^ 127 :=
  calc x.unscaled.natAbs < 10 ^ precision := x.fits
    _ ≤ 10 ^ 38 := Nat.pow_le_pow_right (by decide) hp
    _ < 2 ^ 127 := by norm_num

def Stored.cell (x : Stored precision scale) : Cell := .decimal (BitVec.ofInt 128 x.unscaled)

/-- The cell has the value times 10^s. -/
def Exact (cell : Cell) (x : Stored precision scale) : Prop :=
  ∃ d : BitVec 128, cell = .decimal d ∧ (d.toInt : ℚ) = x.value * 10 ^ scale

theorem Stored.exact_cell (x : Stored precision scale) (hp : precision ≤ 38) : Exact x.cell x := by
  have hlt := x.natAbs_lt hp
  have htoInt : (BitVec.ofInt 128 x.unscaled).toInt = x.unscaled := by
    rw [BitVec.toInt_ofInt]
    exact Int.bmod_eq_of_le (by omega) (by omega)
  refine ⟨_, rfl, ?_⟩
  rw [htoInt, Stored.value, div_mul_cancel₀]
  exact pow_ne_zero _ (by norm_num)

theorem numericCell_of_denotes {T : Type} (h : Denotes v x) (hs : scale ≤ precision)
    (hp : precision ≤ 38) :
    numericCell (fun v => appendDecimal v scale) (.numeric v : Datum T) = .ok x.cell := by
  have hfinite : ¬ (v.nan = true ∨ v.infinityModifier ≠ 0 ∨ v.valid = false) := by
    simp [h.not_nan, h.finite, h.valid]
  have hfrom : fromBigInt x.unscaled = .ok (BitVec.ofInt 128 x.unscaled) :=
    if_pos (x.natAbs_lt hp)
  rw [numericCell, if_neg hfinite, appendDecimal, rescale_of_denotes h hs hp]
  change (fromBigInt x.unscaled).map Cell.decimal = _
  rw [hfrom]
  rfl

end Numerics

/-! ## Columns of numerics -/

/-- What pgtype scans for an element, which may be null. -/
def Scans {T : Type} {precision scale : ℕ} :
    Datum T → Option (Stored precision scale) → Prop
  | .null, none => True
  | .numeric v, some x => Denotes v x
  | _, _ => False

def elementCell {precision scale : ℕ} : Option (Stored precision scale) → Cell
  | none => .null
  | some x => x.cell

def ExactElement {precision scale : ℕ} (cell : Cell) : Option (Stored precision scale) → Prop
  | none => cell = .null
  | some x => Exact cell x

section Columns

variable {T : Type} {precision scale : ℕ}

theorem exactElement_elementCell (hp : precision ≤ 38) (e : Option (Stored precision scale)) :
    ExactElement (elementCell e) e := by
  cases e with
  | none => rfl
  | some x => exact x.exact_cell hp

theorem numericCell_of_scans {d : Datum T} {e : Option (Stored precision scale)}
    (h : Scans d e) (hs : scale ≤ precision) (hp : precision ≤ 38) :
    numericCell (fun v => appendDecimal v scale) d = .ok (elementCell e) := by
  cases d <;> cases e <;> first | exact h.elim | skip
  · rfl
  · exact numericCell_of_denotes h hs hp

/-- The loop over the elements appends their cells. -/
theorem appendAll_of_scans {ds : List (Datum T)} {es : List (Option (Stored precision scale))}
    (h : List.Forall₂ Scans ds es) (hs : scale ≤ precision) (hp : precision ≤ 38) :
    appendAll (numericCell fun v => appendDecimal v scale) ds = (es.map elementCell, none) := by
  induction h with
  | nil => rfl
  | cons hd _ ih => simp [appendAll, numericCell_of_scans hd hs hp, ih]

theorem forall₂_exactElement (hp : precision ≤ 38) (es : List (Option (Stored precision scale))) :
    List.Forall₂ ExactElement (es.map elementCell) es := by
  induction es with
  | nil => exact .nil
  | cons e es ih => exact .cons (exactElement_elementCell hp e) ih

end Columns

namespace NumericColumns

variable {T : Type} (lib : Library T) (registry : Registry) (m : NumericModifier)

/-- The scale of a modifier that fits, as a number of decimal places. -/
def places : ℕ := m.scale.toNat

variable {m}

theorem scale_eq (hm : m.Fits) : (decodePrecisionScale m.typmod).2.1 = (places m : ℤ) := by
  rw [m.decodePrecisionScale_typmod, m.packedScale_of_nonneg hm.1, places, Int.toNat_of_nonneg hm.1]

theorem places_le (hm : m.Fits) : places m ≤ m.precision := by
  have hle := hm.2.1
  rw [places]
  omega

theorem decodeToArrow_numeric (hm : m.Fits) {v : Numeric} {x : Stored m.precision (places m)}
    (h : Denotes v x) {data : Data T} (hdata : data.scanned = .ok (.numeric v))
    (cells : List Cell) :
    decodeToArrow lib registry ⟨.scalar .numeric, m.typmod⟩ (some data) (.flat .decimal128 cells) =
      (.flat .decimal128 (cells ++ [x.cell]), .ok 16) := by
  have hscale : Column.scale ⟨.scalar .numeric, m.typmod⟩ = (places m : ℤ) := scale_eq hm
  have hcell := numericCell_of_denotes (T := T) h (places_le hm) hm.2.2
  have hfinite : data.notFinite = false := by
    simp [Data.notFinite, hdata, h.not_nan, h.finite]
  simp [decodeToArrow, registry.numeric, decodeScalar, Kind.unwrap, scalarConverter, converter,
    hfinite, hdata, hscale, hcell, reportedSize]

theorem decodeToArrow_numericArray (hm : m.Fits) {ds : List (Datum T)}
    {es : List (Option (Stored m.precision (places m)))} (h : List.Forall₂ Scans ds es)
    {data : Data T} (hdata : data.elements = .ok ds) (b : ListBuilder) :
    decodeToArrow lib registry ⟨.array (.scalar .numeric), m.typmod⟩ (some data)
        (.list .decimal128 b) =
      (.list .decimal128 ((b.append true).push (es.map elementCell)), .ok (es.length * 16)) := by
  have hscale : Column.scale ⟨.array (.scalar .numeric), m.typmod⟩ = (places m : ℤ) := scale_eq hm
  have hcells := appendAll_of_scans h (places_le hm) hm.2.2
  simp [decodeToArrow, registry.numericArray, decodeArrayToArrow, Kind.unwrap, converter, hdata,
    hscale, fillEntry, hcells, reportedSize]

/-- **Replicated numerics are exact**: for every column numeric(p,s) or
numeric(p,s)[] with 0 ≤ s ≤ p ≤ 38, every value, and every coefficient and
exponent for it, what is appended is the value times 10^s. -/
theorem numeric_exact (hm : m.Fits) :
    (∀ (x : Stored m.precision (places m)) (v : Numeric), Denotes v x →
      ∀ (data : Data T) (cells : List Cell), data.scanned = .ok (.numeric v) →
        ∃ cell, Exact cell x ∧
          decodeToArrow lib registry ⟨.scalar .numeric, m.typmod⟩ (some data)
              (.flat .decimal128 cells) =
            (.flat .decimal128 (cells ++ [cell]), .ok 16)) ∧
    ∀ (es : List (Option (Stored m.precision (places m)))) (ds : List (Datum T)),
      List.Forall₂ Scans ds es →
        ∀ (data : Data T) (b : ListBuilder), data.elements = .ok ds →
          ∃ cells, List.Forall₂ ExactElement cells es ∧
            decodeToArrow lib registry ⟨.array (.scalar .numeric), m.typmod⟩ (some data)
                (.list .decimal128 b) =
              (.list .decimal128 ((b.append true).push cells), .ok (es.length * 16)) := by
  constructor
  · intro x v hv data cells hdata
    exact ⟨x.cell, x.exact_cell hm.2.2,
      decodeToArrow_numeric lib registry hm hv hdata cells⟩
  · intro es ds hds data b hdata
    exact ⟨es.map elementCell, forall₂_exactElement hm.2.2 es,
      decodeToArrow_numericArray lib registry hm hds hdata b⟩

def priceModifier : NumericModifier := ⟨17, 2, by decide, by decide, by decide, by decide⟩

/-- -1.20 in numeric(17,2). -/
def price : Stored priceModifier.precision (places priceModifier) := ⟨-120, by decide⟩

/-- -1200 times 10^-3. -/
def scannedPrice : Numeric := { int := -1200, exp := -3 }

theorem denotes_price : Denotes scannedPrice price where
  not_nan := rfl
  finite := rfl
  valid := rfl
  value_eq := by
    change ((-1200 : ℤ) : ℚ) * (10 : ℚ) ^ (-3 : ℤ) = ((-120 : ℤ) : ℚ) / (10 : ℚ) ^ 2
    norm_num
  le_exp := by decide
  exp_le := by decide
  zero := by decide

/-- A library that knows no times and no texts. -/
def plainLibrary : Library Unit where
  date32FromTime _ := 0
  timestampFromTime _ := 0
  numericText _ := .error .encode
  uuidText b := b
  writeValue _ _ _ := .error .unsupportedType

/-- The price alone, and in an array with a null. -/
def priceData : Data Unit where
  raw := []
  text := true
  scanned := .ok (.numeric scannedPrice)
  elements := .ok [.numeric scannedPrice, .null]

theorem numeric_exact_price :
    (∃ cell, Exact cell price ∧
      decodeToArrow plainLibrary fullRegistry ⟨.scalar .numeric, priceModifier.typmod⟩
          (some priceData) (.flat .decimal128 []) =
        (.flat .decimal128 [cell], .ok 16)) ∧
    ∃ cells, List.Forall₂ ExactElement cells [some price, none] ∧
      decodeToArrow plainLibrary fullRegistry ⟨.array (.scalar .numeric), priceModifier.typmod⟩
          (some priceData) (.list .decimal128 ⟨[], []⟩) =
        (.list .decimal128 (((⟨[], []⟩ : ListBuilder).append true).push cells), .ok 32) := by
  have hfits : priceModifier.Fits := ⟨by decide, by decide, by decide⟩
  have hexact := numeric_exact plainLibrary fullRegistry hfits
  have hscans : List.Forall₂ Scans ([.numeric scannedPrice, .null] : List (Datum Unit))
      [some price, none] := .cons denotes_price (.cons trivial .nil)
  exact ⟨hexact.1 price scannedPrice denotes_price priceData [] rfl,
    hexact.2 _ _ hscans priceData ⟨[], []⟩ rfl⟩

end NumericColumns

/-! ## Arrays -/

structure Dimension where
  length : ℕ
  lowerBound : ℤ
  deriving DecidableEq, Repr

/-- An array of PostgreSQL, its elements in row-major order. An array
without elements has no dimensions. -/
@[ext]
structure PgArray (α : Type) where
  dims : List Dimension
  elements : List α
  length_pos : ∀ d ∈ dims, 1 ≤ d.length
  size : dims ≠ [] → elements.length = (dims.map Dimension.length).prod
  empty : dims = [] → elements = []
  maxDims : dims.length ≤ 6

namespace PgArray

variable {α : Type} (a : PgArray α)

theorem dims_eq_nil_of_elements (h : a.elements = []) : a.dims = [] := by
  by_contra hdims
  have hsize := a.size hdims
  rw [h, List.length_nil] at hsize
  obtain ⟨d, hd, hzero⟩ := List.mem_map.mp (List.prod_eq_zero_iff.mp hsize.symm)
  have hpos := a.length_pos d hd
  omega

theorem eq_of_elements_nil {a a' : PgArray α} (h : a.elements = []) (h' : a'.elements = []) :
    a' = a := by
  refine PgArray.ext ?_ (by rw [h, h'])
  rw [a.dims_eq_nil_of_elements h, a'.dims_eq_nil_of_elements h']

/-- The same elements with other dimensions: one row of a table for a list,
and a list for everything else. -/
def reshape (h : a.elements ≠ []) : PgArray α :=
  if a.dims.length = 1 then
    { dims := [⟨1, 1⟩, ⟨a.elements.length, 1⟩]
      elements := a.elements
      length_pos := by simpa [Nat.one_le_iff_ne_zero] using h
      size := by simp
      empty := by simp
      maxDims := by simp }
  else
    { dims := [⟨a.elements.length, 1⟩]
      elements := a.elements
      length_pos := by simpa [Nat.one_le_iff_ne_zero] using h
      size := by simp
      empty := by simp
      maxDims := by simp }

theorem reshape_elements (h : a.elements ≠ []) : (a.reshape h).elements = a.elements := by
  rw [reshape]
  split <;> rfl

theorem reshape_ne (h : a.elements ≠ []) : a.reshape h ≠ a := by
  intro heq
  have hlength := congrArg (fun b => b.dims.length) heq
  rw [reshape] at hlength
  split at hlength
  · rename_i hone
    simp [hone] at hlength
  · rename_i hone
    exact hone hlength.symm

end PgArray

section Arrays

variable {T : Type} (lib : Library T) (element : PgType) (kind : Kind) (scale : ℤ)

/-- `decodeArrayToArrow` for an array that pgtype scans. -/
def decodeArray (a : PgArray (Datum T)) (b : ListBuilder) : ListBuilder × Except DecodeError ℕ :=
  decodeArrayToArrow lib element kind scale (some (.ok a.elements)) b

/-- There is a case for the type of the elements and the builder. -/
def Handled : Prop :=
  ∃ type convert, element = .scalar type ∧ converter lib scale type kind.unwrap = some convert

/-- An error leaves the builder as it was; otherwise no other array gives
the same list. -/
def Determines (a : PgArray (Datum T)) (b : ListBuilder) : Prop :=
  (∀ e, (decodeArray lib element kind scale a b).2 = .error e →
    (decodeArray lib element kind scale a b).1 = b) ∧
  ∀ n, (decodeArray lib element kind scale a b).2 = .ok n →
    ∀ a' n', (decodeArray lib element kind scale a' b).2 = .ok n' →
      (decodeArray lib element kind scale a' b).1 = (decodeArray lib element kind scale a b).1 →
        a' = a

variable {lib element kind scale}

theorem appendAll_length {convert : Datum T → Except DecodeError Cell} {es : List (Datum T)}
    (h : (appendAll convert es).2 = none) : (appendAll convert es).1.length = es.length := by
  induction es with
  | nil => rfl
  | cons e es ih =>
    rw [appendAll] at h ⊢
    split at h
    · simp [ih h]
    · simp at h

theorem decodeArray_of_converter {type : Scalar} {convert : Datum T → Except DecodeError Cell}
    (h : converter lib scale type kind.unwrap = some convert) (a : PgArray (Datum T))
    (b : ListBuilder) : decodeArray lib (.scalar type) kind scale a b =
      fillEntry convert type kind.unwrap a.elements (b.append true) := by
  simp [decodeArray, decodeArrayToArrow, h]

/-- The entry is there in any case. -/
theorem entries_decodeArray (a : PgArray (Datum T)) (b : ListBuilder) :
    (decodeArray lib element kind scale a b).1.entries = (b.append true).entries := by
  cases element with
  | scalar type =>
    cases h : converter lib scale type kind.unwrap with
    | some convert =>
      rw [decodeArray_of_converter h, fillEntry]
      split <;> rfl
    | none => simp [decodeArray, decodeArrayToArrow, h]
  | array element => rfl
  | other oid => rfl

theorem decodeArray_ne (a : PgArray (Datum T)) (b : ListBuilder) :
    (decodeArray lib element kind scale a b).1 ≠ b := by
  intro heq
  have hentries := congrArg (fun b => b.entries.length) heq
  simp [entries_decodeArray, ListBuilder.append] at hentries

theorem handled_of_ok {a : PgArray (Datum T)} {b : ListBuilder} {n : ℕ}
    (h : (decodeArray lib element kind scale a b).2 = .ok n) : Handled lib element kind scale := by
  cases element with
  | scalar type =>
    cases hc : converter lib scale type kind.unwrap with
    | some convert => exact ⟨type, convert, rfl, hc⟩
    | none => simp [decodeArray, decodeArrayToArrow, hc] at h
  | array element | other oid => simp [decodeArray, decodeArrayToArrow] at h

/-- As many values are appended as there are elements. -/
theorem values_length_of_ok {a : PgArray (Datum T)} {b : ListBuilder} {n : ℕ}
    (h : (decodeArray lib element kind scale a b).2 = .ok n) :
    (decodeArray lib element kind scale a b).1.values.length =
      b.values.length + a.elements.length := by
  obtain ⟨type, convert, rfl, hc⟩ := handled_of_ok h
  rw [decodeArray_of_converter hc, fillEntry] at h ⊢
  split at h
  · simp at h
  · rename_i hnone
    simp [ListBuilder.push, ListBuilder.append, appendAll_length hnone]

theorem decodeArray_reshape (a : PgArray (Datum T)) (h : a.elements ≠ []) (b : ListBuilder) :
    decodeArray lib element kind scale (a.reshape h) b =
      decodeArray lib element kind scale a b := by
  rw [decodeArray, decodeArray, PgArray.reshape_elements]

variable (lib element kind scale)

/-- **The list of an array** determines the array exactly when there is a
case for its type and it has no elements. -/
theorem array_determined_iff (a : PgArray (Datum T)) (b : ListBuilder) :
    Determines lib element kind scale a b ↔
      Handled lib element kind scale ∧ a.elements = [] := by
  constructor
  · rintro ⟨herror, hok⟩
    cases hresult : (decodeArray lib element kind scale a b).2 with
    | error e => exact absurd (herror e hresult) (decodeArray_ne a b)
    | ok n =>
      refine ⟨handled_of_ok hresult, ?_⟩
      by_contra hne
      have hsame : decodeArray lib element kind scale (a.reshape hne) b =
          decodeArray lib element kind scale a b := decodeArray_reshape a hne b
      exact a.reshape_ne hne (hok n hresult (a.reshape hne) n (by rw [hsame, hresult])
        (by rw [hsame]))
  · rintro ⟨⟨type, convert, rfl, hc⟩, hnil⟩
    have hdecode : (decodeArray lib (.scalar type) kind scale a b).2 =
        .ok (reportedSize type kind.unwrap []) := by
      rw [decodeArray_of_converter hc, hnil]
      rfl
    constructor
    · intro e he
      rw [hdecode] at he
      cases he
    · intro n hn a' n' hn' heq
      have hlength := values_length_of_ok hn
      have hlength' := values_length_of_ok hn'
      rw [heq, hlength, hnil, List.length_nil] at hlength'
      exact PgArray.eq_of_elements_nil hnil (List.eq_nil_of_length_eq_zero (by omega))

end Arrays

def oneInteger : PgArray (Datum Unit) where
  dims := [⟨1, 1⟩]
  elements := [.int 7]
  length_pos := by simp
  size := by simp
  empty := by simp
  maxDims := by simp

/-- {7} and {{7}} are the same list. -/
theorem shapes_conflated :
    ¬ Determines NumericColumns.plainLibrary (.scalar .int4) .int32 0 oneInteger ⟨[], []⟩ := by
  rintro ⟨-, hok⟩
  have hne : oneInteger.elements ≠ [] := by simp [oneInteger]
  have hsame : decodeArray NumericColumns.plainLibrary (.scalar .int4) .int32 0
        (oneInteger.reshape hne) ⟨[], []⟩ =
      decodeArray NumericColumns.plainLibrary (.scalar .int4) .int32 0 oneInteger ⟨[], []⟩ :=
    decodeArray_reshape oneInteger hne _
  exact oneInteger.reshape_ne hne (hok 4 rfl (oneInteger.reshape hne) 4 (by rw [hsame]; rfl)
    (by rw [hsame]))

end MyDuck.Decode
