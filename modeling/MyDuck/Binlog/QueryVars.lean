/-
MyDuck.Binlog.QueryVars — the status variables of a query event,
`parseQueryEventVars` of binlog_replica_applier.go.

The parser moves a position over the block of status variables;
`Slice.TailAt` says which bytes of it are left. `QueryEvent` is an event
with a well-formed block.

An entry that is not an SQL mode is stepped over (`varsLoop_encode`). At an SQL
mode the position is left on its value, and the eight bytes of the value
and all that follows are read as entries once more. A value whose low byte
is not a code ends this second reading at once: `query_vars_iff` says that
the parser is then right unless flags other than 0 stand behind the mode.
-/
import MyDuck.Base.Bytes

namespace MyDuck.Binlog

/-! ## The parser -/

def qFlags2Code : UInt8 := 0

def qSQLModeCode : UInt8 := 1

def qCatalog : UInt8 := 2

def qAutoIncrement : UInt8 := 3

def qCharsetCode : UInt8 := 4

def qCatalogNZCode : UInt8 := 6

/-- At any other code the parser stops. -/
def knownCodes : List UInt8 :=
  [qFlags2Code, qSQLModeCode, qCatalog, qAutoIncrement, qCharsetCode, qCatalogNZCode]

/-- The loop over the block, from a position on, with the flags and the
mode so far; `none` is a panic. -/
def varsLoop (vars : Slice) (pos flags mode : Nat) : Option (Nat × Nat) :=
  if pos < vars.len then
    match vars.index? pos with
    | none => none
    | some code =>
      if code = qFlags2Code then
        match vars.slice? (pos + 1) 4 with
        | none => none
        | some value => varsLoop vars (pos + 1 + 4) (leNat value) mode
      else if code = qSQLModeCode then
        match vars.slice? (pos + 1) 8 with
        | none => none
        -- the position stays in front of the value
        | some value => varsLoop vars (pos + 1) flags (leNat value)
      else if code = qAutoIncrement then varsLoop vars (pos + 1 + 4) flags mode
      else if code = qCatalog then
        match vars.index? (pos + 1) with
        | none => none
        | some length => varsLoop vars (pos + 1 + (1 + length.toNat + 1)) flags mode
      else if code = qCatalogNZCode then
        match vars.index? (pos + 1) with
        | none => none
        | some length => varsLoop vars (pos + 1 + (1 + length.toNat)) flags mode
      else if code = qCharsetCode then varsLoop vars (pos + 1 + 6) flags mode
      else some (flags, mode)
  else some (flags, mode)
termination_by vars.len - pos

/-- `parseQueryEventVars`, with the flags and the SQL mode. -/
def parseQueryEventVars (headerLength : Nat) (event : Slice) : Option (Nat × Nat) := do
  let data ← event.tail? headerLength
  let varsLen ← data.slice? (4 + 4 + 1 + 2) 2
  let vars ← data.reslice? (4 + 4 + 1 + 2 + 2) (leNat varsLen)
  varsLoop vars 0 0 0

/-! ## A block of status variables -/

/-- A name whose length fits a byte. -/
abbrev ShortName := { name : List UInt8 // name.length < 256 }

theorem toNat_length (name : ShortName) :
    (UInt8.ofNat name.1.length).toNat = name.1.length := by
  rw [UInt8.toNat_ofNat']
  exact Nat.mod_eq_of_lt name.2

inductive StatusVar where
  | flags2 (value : UInt32)
  | sqlMode (value : UInt64)
  | catalog (name : ShortName)
  | autoIncrement (increment offset : UInt16)
  | charset (client connection server : UInt16)
  | catalogNZ (name : ShortName)
  deriving DecidableEq, Repr

namespace StatusVar

def code : StatusVar → UInt8
  | .flags2 _ => qFlags2Code
  | .sqlMode _ => qSQLModeCode
  | .catalog _ => qCatalog
  | .autoIncrement _ _ => qAutoIncrement
  | .charset _ _ _ => qCharsetCode
  | .catalogNZ _ => qCatalogNZCode

/-- The bytes behind the code. The first form of a catalog ends with a
zero. -/
def payload : StatusVar → List UInt8
  | .flags2 value => toLE 4 value.toNat
  | .sqlMode value => toLE 8 value.toNat
  | .catalog name => UInt8.ofNat name.1.length :: (name.1 ++ [0])
  | .autoIncrement increment offset => toLE 2 increment.toNat ++ toLE 2 offset.toNat
  | .charset client connection server =>
    toLE 2 client.toNat ++ toLE 2 connection.toNat ++ toLE 2 server.toNat
  | .catalogNZ name => UInt8.ofNat name.1.length :: name.1

def encode (e : StatusVar) : List UInt8 := e.code :: e.payload

def flags2? : StatusVar → Option UInt32
  | .flags2 value => some value
  | _ => none

def sqlMode? : StatusVar → Option UInt64
  | .sqlMode value => some value
  | _ => none

theorem flags2?_eq_none (e : StatusVar) : e.flags2? = none ↔ e.code ≠ qFlags2Code := by
  cases e <;> simp [flags2?, code] <;> decide

theorem sqlMode?_eq_none (e : StatusVar) : e.sqlMode? = none ↔ e.code ≠ qSQLModeCode := by
  cases e <;> simp [sqlMode?, code] <;> decide

theorem findSome?_eq_none {α : Type} {read : StatusVar → Option α} {c : UInt8}
    (h : ∀ e, read e = none ↔ e.code ≠ c) (entries : List StatusVar) :
    entries.findSome? read = none ↔ c ∉ entries.map code := by
  rw [List.findSome?_eq_none_iff]
  simp [h]

end StatusVar

open StatusVar

/-- The flags of a list of entries, 0 if there are none. -/
def flags2Of (entries : List StatusVar) : Nat :=
  ((entries.findSome? flags2?).map UInt32.toNat).getD 0

def sqlModeOf (entries : List StatusVar) : Nat :=
  ((entries.findSome? sqlMode?).map UInt64.toNat).getD 0

def encodeAll (entries : List StatusVar) : List UInt8 := entries.flatMap encode

/-- Nothing, or an unknown code and any bytes. -/
def Stops (tail : List UInt8) : Prop := ∀ code ∈ tail.head?, code ∉ knownCodes

/-- A query event with a well-formed block: each kind of entry comes at
most once. `fixed` is what stands between the header and the length of the
block, `rest` what follows the block, and `spare` the bytes of the buffer
behind the event. -/
structure QueryEvent where
  header : List UInt8
  fixed : List UInt8
  entries : List StatusVar
  tail : List UInt8
  rest : List UInt8
  spare : List UInt8
  fixed_length : fixed.length = 4 + 4 + 1 + 2
  distinct : (entries.map code).Nodup
  stops : Stops tail
  fits : (encodeAll entries ++ tail).length < 2 ^ 16

namespace QueryEvent

def block (event : QueryEvent) : List UInt8 := encodeAll event.entries ++ event.tail

def body (event : QueryEvent) : List UInt8 :=
  event.fixed ++ (toLE 2 event.block.length ++ (event.block ++ event.rest))

/-- The bytes of the event. -/
def bytes (event : QueryEvent) : Slice :=
  .withSpare (event.header ++ event.body) event.spare

def beyond (event : QueryEvent) : List UInt8 := event.rest ++ event.spare

def flags2 (event : QueryEvent) : Nat := flags2Of event.entries

def sqlMode (event : QueryEvent) : Nat := sqlModeOf event.entries

/-- The flags do not stand behind the SQL mode, or are 0. -/
def FlagsFirst (event : QueryEvent) : Prop :=
  ∀ before value after, event.entries = before ++ .sqlMode value :: after → flags2Of after = 0

/-- The parser sees the block, and what follows it. -/
theorem parse_eq (event : QueryEvent) :
    parseQueryEventVars event.header.length event.bytes
      = varsLoop (.withSpare event.block event.beyond) 0 0 0 := by
  have hdata : event.bytes.tail? event.header.length = some (.withSpare event.body event.spare) :=
    Slice.tail?_withSpare _ _ _
  have hlength : (Slice.withSpare event.body event.spare).slice? (4 + 4 + 1 + 2) 2
      = some (toLE 2 event.block.length) := by
    have h := Slice.slice?_withSpare event.fixed (toLE 2 event.block.length)
      (event.block ++ event.rest) event.spare
    rwa [event.fixed_length, length_toLE] at h
  have hvars : (Slice.withSpare event.body event.spare).reslice? (4 + 4 + 1 + 2 + 2)
      event.block.length = some (.withSpare event.block event.beyond) := by
    have h := Slice.reslice?_withSpare (event.fixed ++ toLE 2 event.block.length) event.block
      event.rest event.spare
    rwa [List.length_append, event.fixed_length, length_toLE, List.append_assoc] at h
  have hlen : leNat (toLE 2 event.block.length) = event.block.length :=
    leNat_toLE_of_lt event.fits
  rw [parseQueryEventVars, hdata]
  change ((Slice.withSpare event.body event.spare).slice? _ 2).bind _ = _
  rw [hlength]
  change ((Slice.withSpare event.body event.spare).reslice? _
    (leNat (toLE 2 event.block.length))).bind _ = _
  rw [hlen, hvars]
  rfl

end QueryEvent

/-! ## One entry, and a list of them -/

section Loop

variable {vars : Slice} {pos : Nat} {left : List UInt8} (flags mode : Nat)

theorem varsLoop_stops (h : vars.TailAt pos left) (hstops : Stops left) :
    varsLoop vars pos flags mode = some (flags, mode) := by
  cases left with
  | nil => rw [varsLoop, if_neg (by simp [h.2])]
  | cons code left =>
    have hcode := hstops code rfl
    simp only [knownCodes, List.mem_cons, not_or] at hcode
    obtain ⟨h0, h1, h2, h3, h4, h6, -⟩ := hcode
    rw [varsLoop, if_pos h.lt_len, h.1.index?]
    change (if _ then _ else _) = _
    rw [if_neg h0, if_neg h1, if_neg h3, if_neg h2, if_neg h6, if_neg h4]

/-- An SQL mode is read, and the position left on its value. -/
theorem varsLoop_sqlMode {value : UInt64}
    (h : vars.TailAt pos ((StatusVar.sqlMode value).encode ++ left)) :
    varsLoop vars pos flags mode = varsLoop vars (pos + 1) flags value.toNat := by
  have hvalue : vars.slice? (pos + 1) 8 = some (toLE 8 value.toNat) := h.tail.1.left.slice?
  rw [varsLoop, if_pos h.lt_len, h.1.index?]
  change (match vars.slice? (pos + 1) 8 with | none => none | some _ => _) = _
  rw [hvalue]
  change varsLoop _ _ _ (leNat (toLE 8 value.toNat)) = _
  rw [leNat_toLE_of_lt value.toNat_lt]

/-- **Any other entry** is stepped over. -/
theorem varsLoop_encode {e : StatusVar} (hcode : e.code ≠ qSQLModeCode)
    (h : vars.TailAt pos (e.encode ++ left)) :
    ∃ next, vars.TailAt next left ∧ varsLoop vars pos flags mode
      = varsLoop vars next ((e.flags2?.map UInt32.toNat).getD flags) mode := by
  have hbehind : vars.TailAt (pos + 1) (e.payload ++ left) := h.tail
  refine ⟨pos + 1 + e.payload.length, hbehind.right, ?_⟩
  rw [varsLoop, if_pos h.lt_len, h.1.index?]
  cases e with
  | flags2 value =>
    have hvalue : vars.slice? (pos + 1) 4 = some (toLE 4 value.toNat) := hbehind.1.left.slice?
    change (match vars.slice? (pos + 1) 4 with | none => none | some _ => _) = _
    rw [hvalue]
    change varsLoop _ _ (leNat (toLE 4 value.toNat)) _ = _
    rw [leNat_toLE_of_lt value.toNat_lt]
    rfl
  | sqlMode value => exact absurd rfl hcode
  | catalog name =>
    have hlength : (catalog name).payload.length
        = 1 + (UInt8.ofNat name.1.length).toNat + 1 := by
      rw [toNat_length]
      simp [payload, Nat.add_comm]
    change (match vars.index? (pos + 1) with | none => none | some _ => _) = _
    rw [hbehind.1.index?, hlength]
    rfl
  | catalogNZ name =>
    have hlength : (catalogNZ name).payload.length
        = 1 + (UInt8.ofNat name.1.length).toNat := by
      rw [toNat_length]
      simp [payload, Nat.add_comm]
    change (match vars.index? (pos + 1) with | none => none | some _ => _) = _
    rw [hbehind.1.index?, hlength]
    rfl
  | autoIncrement increment offset | charset client connection server => rfl

/-- **A list of entries without an SQL mode** is stepped over. Each code
comes once, so the flags are those of the list. -/
theorem varsLoop_encodeAll {entries : List StatusVar} (hdistinct : (entries.map code).Nodup)
    (hcode : qSQLModeCode ∉ entries.map code) (h : vars.TailAt pos (encodeAll entries ++ left)) :
    ∃ next, vars.TailAt next left ∧ varsLoop vars pos flags mode
      = varsLoop vars next (((entries.findSome? flags2?).map UInt32.toNat).getD flags) mode := by
  induction entries generalizing pos flags with
  | nil => exact ⟨pos, h, rfl⟩
  | cons e entries ih =>
    rw [List.map_cons, List.nodup_cons] at hdistinct
    rw [List.map_cons, List.mem_cons, not_or] at hcode
    rw [encodeAll, List.flatMap_cons, List.append_assoc] at h
    obtain ⟨behind, hbehind, hfirst⟩ := varsLoop_encode flags mode (Ne.symm hcode.1) h
    obtain ⟨next, hnext, hrest⟩ := ih _ hdistinct.2 hcode.2 hbehind
    refine ⟨next, hnext, ?_⟩
    rw [hfirst, hrest, List.findSome?_cons]
    cases hflags : e.flags2? with
    | none => rfl
    | some value =>
      -- no other entry has flags
      have hnone : entries.findSome? flags2? = none := by
        have he : e.code = qFlags2Code := by
          by_contra hne
          rw [(flags2?_eq_none e).mpr hne] at hflags
          cases hflags
        rw [findSome?_eq_none flags2?_eq_none, ← he]
        exact hdistinct.1
      rw [hnone]
      rfl

end Loop

namespace QueryEvent

variable {event : QueryEvent} {before after : List StatusVar} {value : UInt64}

section

variable (h : event.entries = before ++ .sqlMode value :: after)

include h

/-- What `distinct` says of the entries on both sides of the mode. -/
theorem distinct_of_sqlMode :
    (before.map code).Nodup ∧ qSQLModeCode ∉ before.map code ∧
      ∀ c ∈ before.map code, c ∉ after.map code := by
  have hdistinct := event.distinct
  rw [h, List.map_append, List.map_cons, List.nodup_append] at hdistinct
  obtain ⟨hbefore, -, hother⟩ := hdistinct
  exact ⟨hbefore, fun hmem => hother _ hmem _ List.mem_cons_self rfl,
    fun c hc hc' => hother c hc _ (List.mem_cons_of_mem _ hc') rfl⟩

theorem sqlMode_of_sqlMode : event.sqlMode = value.toNat := by
  obtain ⟨-, hbefore, -⟩ := distinct_of_sqlMode h
  rw [sqlMode, sqlModeOf, h, List.findSome?_append,
    (findSome?_eq_none sqlMode?_eq_none before).mpr hbefore]
  rfl

/-- The flags are those in front of the mode, unless there are others
behind it. -/
theorem flags2_iff_of_sqlMode : flags2Of before = event.flags2 ↔ flags2Of after = 0 := by
  obtain ⟨-, -, hother⟩ := distinct_of_sqlMode h
  rw [flags2, flags2Of, flags2Of, h, List.findSome?_append, List.findSome?_cons]
  cases hbefore : before.findSome? flags2? with
  | none => exact eq_comm
  | some flags =>
    have hmem : qFlags2Code ∈ before.map code := by
      by_contra hnot
      rw [← findSome?_eq_none flags2?_eq_none, hbefore] at hnot
      cases hnot
    have hafter : after.findSome? flags2? = none :=
      (findSome?_eq_none flags2?_eq_none after).mpr (hother _ hmem)
    exact iff_of_true rfl (by rw [flags2Of, hafter]; rfl)

/-- **A value whose low byte is not a code** ends the loop. -/
theorem parse_of_unknown (hcode : value.toUInt8 ∉ knownCodes) :
    parseQueryEventVars event.header.length event.bytes
      = some (flags2Of before, event.sqlMode) := by
  obtain ⟨hdistinct, hbefore, -⟩ := distinct_of_sqlMode h
  have hblock : event.block = encodeAll before ++
      ((StatusVar.sqlMode value).encode ++ (encodeAll after ++ event.tail)) := by
    simp [block, h, encodeAll]
  have htail := Slice.tailAt_withSpare event.block event.beyond
  rw [event.parse_eq]
  generalize Slice.withSpare event.block event.beyond = vars at htail ⊢
  rw [hblock] at htail
  obtain ⟨pos, hpos, hloop⟩ := varsLoop_encodeAll 0 0 hdistinct hbefore htail
  have hstops : Stops (toLE 8 value.toNat ++ (encodeAll after ++ event.tail)) := by
    intro code hmem
    obtain rfl : value.toUInt8 = code := Option.some.inj hmem
    exact hcode
  rw [hloop, varsLoop_sqlMode _ _ hpos, varsLoop_stops _ _ hpos.tail hstops,
    sqlMode_of_sqlMode h]
  rfl

end

/-- A block without an SQL mode is read. -/
theorem parse_of_no_sqlMode (h : qSQLModeCode ∉ event.entries.map code) :
    parseQueryEventVars event.header.length event.bytes
      = some (event.flags2, event.sqlMode) := by
  have hmode : event.sqlMode = 0 := by
    rw [sqlMode, sqlModeOf, (findSome?_eq_none sqlMode?_eq_none event.entries).mpr h]
    rfl
  obtain ⟨pos, hpos, hloop⟩ := varsLoop_encodeAll 0 0 event.distinct h
    (Slice.tailAt_withSpare event.block event.beyond)
  rw [event.parse_eq, hloop, varsLoop_stops _ _ hpos event.stops, hmode]
  rfl

end QueryEvent

/-- **The status variables of a query event** without an SQL mode, or with
one whose low byte is not a code. The parser returns the flags and the SQL
mode of the block, exactly when no flags other than 0 stand behind the
mode. -/
theorem query_vars_iff (event : QueryEvent)
    (hcode : ∀ value, .sqlMode value ∈ event.entries → value.toUInt8 ∉ knownCodes) :
    parseQueryEventVars event.header.length event.bytes = some (event.flags2, event.sqlMode) ↔
      event.FlagsFirst := by
  cases hmode : event.entries.findSome? sqlMode? with
  | some mode =>
    obtain ⟨e, he, hvalue⟩ := List.exists_of_findSome?_eq_some hmode
    cases e with
    | sqlMode value =>
      obtain ⟨before, after, h⟩ := List.append_of_mem he
      constructor
      · intro hflags before' value' after' h'
        have hparse := QueryEvent.parse_of_unknown h'
          (hcode value' (h' ▸ List.mem_append_right _ List.mem_cons_self))
        rw [hflags] at hparse
        rw [← QueryEvent.flags2_iff_of_sqlMode h']
        exact (congrArg Prod.fst (Option.some.inj hparse)).symm
      · intro hfirst
        rw [QueryEvent.parse_of_unknown h (hcode value he),
          (QueryEvent.flags2_iff_of_sqlMode h).mpr (hfirst before value after h)]
    | _ => cases hvalue
  | none =>
    have hcodes := (findSome?_eq_none sqlMode?_eq_none event.entries).mp hmode
    refine iff_of_true (QueryEvent.parse_of_no_sqlMode hcodes) ?_
    intro before value after h
    exact absurd (by rw [h]; simp [code]) hcodes

theorem stops_nil : Stops [] := by
  intro code h
  cases h

theorem sample_fits (mode : UInt64) :
    (encodeAll [.flags2 0x4000, .sqlMode mode] ++ ([] : List UInt8)).length < 2 ^ 16 := by
  simp [encodeAll, encode, payload]

/-- The event of a session with flags and an SQL mode, in the schema
`db`. -/
def sampleEvent (mode : UInt64) : QueryEvent where
  header := List.replicate 19 0
  fixed := List.replicate 11 0
  entries := [.flags2 0x4000, .sqlMode mode]
  tail := []
  rest := [100, 98, 0]
  spare := []
  fixed_length := rfl
  distinct := show [qFlags2Code, qSQLModeCode].Nodup by decide
  stops := stops_nil
  fits := sample_fits mode

/-- The SQL mode that MySQL has by default. -/
def defaultModeEvent : QueryEvent := sampleEvent 0x50200020

theorem query_vars_iff_defaultMode :
    (∀ value, .sqlMode value ∈ defaultModeEvent.entries → value.toUInt8 ∉ knownCodes) ∧
      parseQueryEventVars defaultModeEvent.header.length defaultModeEvent.bytes
        = some (0x4000, 0x50200020) := by
  have hcode : ∀ value, .sqlMode value ∈ defaultModeEvent.entries →
      value.toUInt8 ∉ knownCodes := by
    intro value hmem
    obtain rfl : value = 0x50200020 := by simpa [defaultModeEvent, sampleEvent] using hmem
    decide
  refine ⟨hcode, (query_vars_iff defaultModeEvent hcode).mpr ?_⟩
  intro before value after h
  cases before with
  | nil => cases h
  | cons e before =>
    cases before with
    | nil =>
      cases h
      rfl
    | cons e' before =>
      have hlength := congrArg List.length h
      simp [defaultModeEvent, sampleEvent] at hlength

/-- No SQL mode. -/
def plainModeEvent : QueryEvent := sampleEvent 0

/-- The zeros of the mode are read as flags, twice. The second ones end in
the name of the schema. -/
theorem plain_mode_loses_flags :
    plainModeEvent.flags2 = 0x4000 ∧ plainModeEvent.sqlMode = 0 ∧
      parseQueryEventVars plainModeEvent.header.length plainModeEvent.bytes
        = some (0x62640000, 0) := by
  refine ⟨rfl, rfl, ?_⟩
  rw [plainModeEvent.parse_eq]
  -- at the flags, at the mode, and twice inside its value
  rw [varsLoop]
  change varsLoop _ 5 0x4000 0 = _
  rw [varsLoop]
  change varsLoop _ 6 0x4000 0 = _
  rw [varsLoop]
  change varsLoop _ 11 0 0 = _
  rw [varsLoop]
  change varsLoop _ 16 0x62640000 0 = _
  rw [varsLoop]
  rfl

end MyDuck.Binlog
