/-
MyDuck.Pg.Bind — the parameters of a Bind message (`convertBindParameters`
in `connection_handler.go`, `ComBind` in `duck_handler.go`).

A Bind message gives its values in one of three ways: without format
codes, when every value is text; with one code for all of them; or with
one code for each. The loop of the code indexes the codes by the number of
the value, whatever their number is, and it copies the string out of every
`pgtype.Text` without a look at its `Valid` flag.

`bind_as_protocol_iff` says for which messages the variables are those of
the protocol all the same.

The decoders of pgtype are a parameter: `scan` is `pgTypeMap.Scan` into a
`pgtype.Text`, with `none` for a NULL.
-/
import Mathlib

namespace MyDuck.Bind

structure Text where
  string : String := ""
  valid : Bool := false
  deriving DecidableEq, Repr

/-- A value of the message; NULL is `none`. -/
abbrev Value := Option (List UInt8)

/-- `driver.NamedValue`; a nil value is `none`. -/
structure NamedValue where
  ordinal : Nat
  value : Option String
  deriving DecidableEq, Repr

inductive Failure (ε : Type) where
  /-- "number of values does not match number of parameters". -/
  | countMismatch
  | scan (e : ε)
  /-- The panic of an index that is out of range. -/
  | indexOutOfRange
  deriving DecidableEq, Repr

variable {ε : Type} (scan : UInt32 → Int16 → Value → Except ε Text)

/-- The loop over the values, with the types and the codes that are still
to be indexed. -/
def scanAll : List UInt32 → List Int16 → List Value → Except (Failure ε) (List Text)
  | _, _, [] => .ok []
  | [], _, _ :: _ => .error .indexOutOfRange
  | _ :: _, [], _ :: _ => .error .indexOutOfRange
  | typ :: types, code :: formatCodes, v :: values => do
    let binding ← (scan typ code v).mapError .scan
    let bindings ← scanAll types formatCodes values
    return binding :: bindings

def convertBindParameters (types : List UInt32) (formatCodes : List Int16)
    (values : List Value) : Except (Failure ε) (List (Option String)) :=
  if types.length ≠ values.length then .error .countMismatch
  else do
    let bindings ← scanAll scan types formatCodes values
    return bindings.map fun b => some b.string

/-- The variables that `ComBind` hands to the statement. -/
def comBind (bindVars : List (Option String)) : List NamedValue :=
  bindVars.mapIdx fun i v => { ordinal := i + 1, value := v }

/-- `handleBind`, up to the call of the statement. -/
def bindVariables (types : List UInt32) (formatCodes : List Int16) (values : List Value) :
    Except (Failure ε) (List NamedValue) := do
  let bindVars ← convertBindParameters scan types formatCodes values
  return comBind bindVars

/-! ## The protocol -/

/-- The format of a value; text is 0. -/
def format : List Int16 → Nat → Int16
  | [], _ => 0
  | [code], _ => code
  | codes, i => codes.getD i 0

/-- What the protocol makes of the value with the given number. -/
def Decodes (types : List UInt32) (formatCodes : List Int16) (values : List Value) (i : Nat)
    (bound : Option String) : Prop :=
  (values[i]? = some none ∧ bound = none) ∨
  ∃ typ bytes text, types[i]? = some typ ∧ values[i]? = some (some bytes) ∧
    scan typ (format formatCodes i) (some bytes) = .ok text ∧ bound = some text.string

/-- The message is bound as the protocol says. -/
structure AsProtocol (types : List UInt32) (formatCodes : List Int16) (values : List Value) :
    Prop where
  no_panic : bindVariables scan types formatCodes values ≠ .error .indexOutOfRange
  bound : ∀ vars, bindVariables scan types formatCodes values = .ok vars →
    vars.length = values.length ∧
    ∀ i nv, vars[i]? = some nv → nv.ordinal = i + 1 ∧
      Decodes scan types formatCodes values i nv.value

/-- Every value that has a format code of its own decodes in it. -/
def Decodable (types : List UInt32) (formatCodes : List Int16) (values : List Value) : Prop :=
  ∀ x ∈ types.zip (formatCodes.zip values), ∃ text, scan x.1 x.2.1 x.2.2 = .ok text

/-! ## The loop -/

section Loop

variable {scan} {types : List UInt32} {codes : List Int16} {values : List Value}

theorem decodable_cons {typ : UInt32} {code : Int16} {v : Value} :
    Decodable scan (typ :: types) (code :: codes) (v :: values) ↔
      (∃ text, scan typ code v = .ok text) ∧ Decodable scan types codes values := by
  simp [Decodable]

theorem scanAll_cons (typ : UInt32) (code : Int16) (v : Value) :
    scanAll scan (typ :: types) (code :: codes) (v :: values) =
      ((scan typ code v).mapError .scan).bind fun binding =>
        (scanAll scan types codes values).bind fun bindings => .ok (binding :: bindings) := rfl

/-- How the loop ends when every value up to the last code decodes. -/
theorem scanAll_of_decodable (hlen : types.length = values.length)
    (h : Decodable scan types codes values) :
    (codes.length < values.length ∧
      scanAll scan types codes values = .error .indexOutOfRange) ∨
    (values.length ≤ codes.length ∧
      ∃ bindings, scanAll scan types codes values = .ok bindings) := by
  induction values generalizing types codes with
  | nil => exact .inr ⟨Nat.zero_le _, [], by simp [scanAll]⟩
  | cons v values ih =>
    cases types with
    | nil => simp at hlen
    | cons typ types =>
      cases codes with
      | nil => exact .inl ⟨by simp, rfl⟩
      | cons code codes =>
        obtain ⟨⟨text, htext⟩, hrest⟩ := decodable_cons.mp h
        rcases ih (by simpa using hlen) hrest with ⟨hlt, hpanic⟩ | ⟨hle, bindings, hok⟩
        · refine .inl ⟨by simpa using hlt, ?_⟩
          rw [scanAll_cons, htext, hpanic]
          rfl
        · refine .inr ⟨by simpa using hle, text :: bindings, ?_⟩
          rw [scanAll_cons, htext, hok]
          rfl

/-- A value that does not decode ends the loop with its error. -/
theorem scanAll_of_not_decodable (hlen : types.length = values.length)
    (h : ¬ Decodable scan types codes values) :
    ∃ e, scanAll scan types codes values = .error (.scan e) := by
  induction values generalizing types codes with
  | nil => exact absurd (by simp [Decodable]) h
  | cons v values ih =>
    cases types with
    | nil => simp at hlen
    | cons typ types =>
      cases codes with
      | nil => exact absurd (by simp [Decodable]) h
      | cons code codes =>
        cases htext : scan typ code v with
        | error e => exact ⟨e, by rw [scanAll_cons, htext]; rfl⟩
        | ok text =>
          have hrest : ¬ Decodable scan types codes values := fun hd =>
            h (decodable_cons.mpr ⟨⟨text, htext⟩, hd⟩)
          obtain ⟨e, he⟩ := ih (by simpa using hlen) hrest
          exact ⟨e, by rw [scanAll_cons, htext, he]; rfl⟩

theorem getElem?_scanAll {bindings : List Text}
    (h : scanAll scan types codes values = .ok bindings) :
    bindings.length = values.length ∧
    ∀ (i : Nat) text, bindings[i]? = some text → ∃ typ code v, types[i]? = some typ ∧
      codes[i]? = some code ∧ values[i]? = some v ∧ scan typ code v = .ok text := by
  induction values generalizing types codes bindings with
  | nil =>
    obtain rfl : [] = bindings := by simpa [scanAll] using h
    simp
  | cons v values ih =>
    cases types with
    | nil => cases h
    | cons typ types =>
      cases codes with
      | nil => cases h
      | cons code codes =>
        rw [scanAll_cons] at h
        cases htext : scan typ code v with
        | error e => rw [htext] at h; cases h
        | ok text =>
          cases hrest : scanAll scan types codes values with
          | error e => rw [htext, hrest] at h; cases h
          | ok rest =>
            rw [htext, hrest] at h
            obtain rfl : text :: rest = bindings := by simpa [Except.bind, Except.mapError] using h
            obtain ⟨hlen, hget⟩ := ih hrest
            refine ⟨by simp [hlen], fun i text' hi => ?_⟩
            cases i with
            | zero =>
              obtain rfl : text = text' := by simpa using hi
              exact ⟨typ, code, v, rfl, rfl, rfl, htext⟩
            | succ i => simpa using hget i text' (by simpa using hi)

end Loop

/-! ## Which messages are bound as the protocol says -/

variable {scan} {types : List UInt32} {codes : List Int16} {values : List Value}

theorem bindVariables_eq (hlen : types.length = values.length) :
    bindVariables scan types codes values =
      (scanAll scan types codes values).map fun bindings =>
        comBind (bindings.map fun b => some b.string) := by
  unfold bindVariables convertBindParameters
  rw [if_neg (by simp [hlen])]
  cases scanAll scan types codes values <;> rfl

theorem getElem?_comBind (bindVars : List (Option String)) (i : Nat) :
    (comBind bindVars)[i]? = bindVars[i]?.map fun v => { ordinal := i + 1, value := v } := by
  simp [comBind]

/-- With as many codes as values each value is decoded in its own code. -/
theorem format_eq_of_length {codes : List Int16} {i : Nat} {code : Int16}
    (h : codes[i]? = some code) : format codes i = code := by
  rcases codes with _ | ⟨c, _ | ⟨c', codes⟩⟩
  · simp at h
  · cases i with
    | zero => simpa [format] using h
    | succ i => simp at h
  · simp [format, List.getD, h]

/-- A message that does not decode has no variables. -/
theorem asProtocol_of_not_decodable (hlen : types.length = values.length)
    (h : ¬ Decodable scan types codes values) : AsProtocol scan types codes values := by
  obtain ⟨e, he⟩ := scanAll_of_not_decodable hlen h
  have hbind : bindVariables scan types codes values = .error (.scan e) := by
    rw [bindVariables_eq hlen, he]
    rfl
  exact ⟨by simp [hbind], by simp [hbind]⟩

/-- One code for each value, and no NULL. -/
theorem asProtocol_of_no_null (hlen : types.length = values.length) (hnull : none ∉ values)
    (hcodes : values.length ≤ codes.length) : AsProtocol scan types codes values := by
  by_cases hd : Decodable scan types codes values
  · rcases scanAll_of_decodable hlen hd with ⟨hlt, -⟩ | ⟨-, bindings, hok⟩
    · omega
    · have hbind : bindVariables scan types codes values =
          .ok (comBind (bindings.map fun b => some b.string)) := by
        rw [bindVariables_eq hlen, hok]
        rfl
      obtain ⟨hblen, hget⟩ := getElem?_scanAll hok
      refine ⟨by simp [hbind], fun vars hvars => ?_⟩
      obtain rfl := Except.ok.inj (hbind.symm.trans hvars)
      refine ⟨by simp [comBind, hblen], fun i nv hnv => ?_⟩
      rw [getElem?_comBind, List.getElem?_map, Option.map_map, Option.map_eq_some_iff] at hnv
      obtain ⟨text, htext, rfl⟩ := hnv
      obtain ⟨typ, code, v, htyp, hcode, hv, hscan⟩ := hget i text htext
      refine ⟨rfl, .inr ?_⟩
      cases v with
      | none => exact absurd (List.mem_of_getElem? hv) hnull
      | some bytes =>
        exact ⟨typ, bytes, text, htyp, hv, by rw [format_eq_of_length hcode]; exact hscan, rfl⟩
  · exact asProtocol_of_not_decodable hlen hd

/-- A NULL becomes an empty string. -/
theorem no_null_of_asProtocol (hlen : types.length = values.length)
    (hd : Decodable scan types codes values) (h : AsProtocol scan types codes values) :
    values.length ≤ codes.length ∧ none ∉ values := by
  rcases scanAll_of_decodable hlen hd with ⟨-, hpanic⟩ | ⟨hle, bindings, hok⟩
  · exact absurd (by rw [bindVariables_eq hlen, hpanic]; rfl) h.no_panic
  · refine ⟨hle, fun hnull => ?_⟩
    obtain ⟨i, hi⟩ := List.getElem?_of_mem hnull
    obtain ⟨hblen, -⟩ := getElem?_scanAll hok
    have hilt : i < bindings.length := by
      rw [hblen]
      exact (List.getElem?_eq_some_iff.mp hi).1
    have hvars := h.bound (comBind (bindings.map fun b => some b.string))
      (by rw [bindVariables_eq hlen, hok]; rfl)
    have hvar := hvars.2 i { ordinal := i + 1, value := some bindings[i].string }
      (by rw [getElem?_comBind]; simp [List.getElem?_eq_getElem hilt])
    rcases hvar.2 with ⟨-, hnone⟩ | ⟨typ, bytes, text, -, hbytes, -⟩
    · cases hnone
    · rw [hi] at hbytes
      cases hbytes

/-- For a message with as many values as the statement has parameters and
with no code, one code or a code for each value, the variables are those of
the protocol exactly when there are no parameters, when a value with a code
of its own does not decode in it, or when every value has a code of its own
and none of them is NULL. -/
theorem bind_as_protocol_iff {ε : Type} (scan : UInt32 → Int16 → Value → Except ε Text)
    (types : List UInt32) (codes : List Int16) (values : List Value)
    (hlen : types.length = values.length)
    (hcodes : codes.length = 0 ∨ codes.length = 1 ∨ codes.length = values.length) :
    AsProtocol scan types codes values ↔
      values = [] ∨ ¬ Decodable scan types codes values ∨
        (codes.length = values.length ∧ none ∉ values) := by
  constructor
  · intro h
    by_cases hd : Decodable scan types codes values
    · obtain ⟨hle, hnull⟩ := no_null_of_asProtocol hlen hd h
      by_cases hnil : values = []
      · exact .inl hnil
      · have hpos : 0 < values.length := List.length_pos_iff.mpr hnil
        exact .inr (.inr ⟨by omega, hnull⟩)
    · exact .inr (.inl hd)
  · rintro (hnil | hd | ⟨heq, hnull⟩)
    · subst hnil
      exact asProtocol_of_no_null hlen (by simp) (by simp)
    · exact asProtocol_of_not_decodable hlen hd
    · exact asProtocol_of_no_null hlen hnull (by omega)

/-- A decoder of text parameters: the bytes are the characters, and a NULL
is a text that is not valid. -/
def scanText (_ : UInt32) (_ : Int16) : Value → Except Unit Text
  | none => .ok {}
  | some bytes =>
    .ok { string := String.ofList (bytes.map fun b => Char.ofNat b.toNat), valid := true }

/-- Two text values, each with a code of its own. -/
theorem bind_as_protocol_two_codes :
    AsProtocol scanText [25, 25] [0, 0] [some [104], some [105]] :=
  (bind_as_protocol_iff scanText [25, 25] [0, 0] [some [104], some [105]] rfl
    (.inr (.inr rfl))).mpr (.inr (.inr ⟨rfl, by decide⟩))

/-- Two text values without format codes, and a NULL with one. -/
theorem bind_without_codes_panics :
    (bindVariables scanText [25, 25] [] [some [104], some [105]] = .error .indexOutOfRange ∧
      ¬ AsProtocol scanText [25, 25] [] [some [104], some [105]]) ∧
    (bindVariables scanText [25] [0] [none] = .ok [{ ordinal := 1, value := some "" }] ∧
      ¬ AsProtocol scanText [25] [0] [none]) := by
  have hpanic : bindVariables scanText [25, 25] [] [some [104], some [105]] =
      .error .indexOutOfRange := rfl
  have hempty : bindVariables scanText [25] [0] [none] =
      .ok [{ ordinal := 1, value := some "" }] := rfl
  refine ⟨⟨hpanic, fun h => h.no_panic hpanic⟩, hempty, fun h => ?_⟩
  have hvar := (h.bound _ hempty).2 0 _ rfl
  rcases hvar.2 with ⟨-, hnone⟩ | ⟨typ, bytes, text, -, hbytes, -⟩
  · cases hnone
  · cases hbytes

end MyDuck.Bind
