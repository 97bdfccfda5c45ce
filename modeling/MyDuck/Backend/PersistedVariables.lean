/-
MyDuck.Backend.PersistedVariables — system variables that outlive the
server: `PersistGlobal`, `GetPersistedValue` and their kin in
`backend/session.go`.

A value is stored as a text, with the name of its Go type beside it, and
read back by a switch on that name. The switch knows strings, booleans and
`int`, and no other integer type: `read_persisted_iff`.

`run_stored` says that in every run of the operations the table has, for
each variable, the value that was persisted last and not removed. The text
of a value is its decimal form, or true or false. An operation on the table
may fail, and has then done nothing.
-/
import MyDuck.Base.GoText
import MyDuck.Base.Run

namespace MyDuck.PersistedVariables

open GoText

abbrev Text := List Char

/-- The values of system variables, by their Go type. `int` has 64 bits. -/
inductive Value where
  | string (s : Text)
  | bool (b : Bool)
  | int (n : Int64)
  | int8 (n : Int8)
  | int64 (n : Int64)
  | uint64 (n : UInt64)
  deriving DecidableEq

/-- What `%T` prints. -/
def Value.typeName : Value → String
  | .string _ => "string"
  | .bool _ => "bool"
  | .int _ => "int"
  | .int8 _ => "int8"
  | .int64 _ => "int64"
  | .uint64 _ => "uint64"

/-- The text that the column has for a value. -/
def Value.text : Value → Text
  | .string s => s
  | .bool b => (if b then "true" else "false").toList
  | .int n => showInt n.toInt
  | .int8 n => showInt n.toInt
  | .int64 n => showInt n.toInt
  | .uint64 n => showInt n.toNat

/-! ## The source -/

/-- A row of `persistent_variable`, without its key. -/
structure Row where
  value : Text
  vtype : String
  deriving DecidableEq

/-- The table, by its key. -/
abbrev Table := String → Option Row

inductive GetError where
  | invalidNumber (value : Text)
  | unknownType (vtype : String)
  deriving DecidableEq

inductive Op where
  | persist (sysVarName : String) (value : Value)
  | remove (sysVarName : String)
  | removeAll

/-- `PersistGlobal`, `RemovePersistedGlobal` and
`RemoveAllPersistedGlobals`; `known` are the system variables. -/
def execute (known : String → Bool) (table : Table) : Op → Table
  | .persist sysVarName value =>
    if known sysVarName then
      Function.update table sysVarName (some ⟨value.text, value.typeName⟩)
    else table
  | .remove sysVarName => Function.update table sysVarName none
  | .removeAll => fun _ => none

/-- An operation, and whether its statement fails. -/
structure Call where
  op : Op
  fails : Bool

def step (known : String → Bool) (table : Table) (call : Call) : Table :=
  if call.fails then table else execute known table call.op

/-- The switch of `GetPersistedValue`. -/
def decode (row : Row) : Except GetError Value :=
  if row.vtype = "string" then .ok (.string row.value)
  else if row.vtype = "int" then
    match atoi row.value with
    | some n => .ok (.int (Int64.ofInt n))
    | none => .error (.invalidNumber row.value)
  else if row.vtype = "bool" then .ok (.bool (row.value = "true".toList))
  else .error (.unknownType row.vtype)

/-- `GetPersistedValue`; without a row the value is nil. -/
def getPersistedValue (table : Table) (k : String) : Except GetError (Option Value) :=
  match table k with
  | none => .ok none
  | some row => (decode row).map some

/-! ## Settings -/

/-- The variables with their values, as the operations mean them. -/
abbrev Settings := String → Option Value

def intended (known : String → Bool) (settings : Settings) (call : Call) : Settings :=
  if call.fails then settings
  else
    match call.op with
    | .persist name value =>
      if known name then Function.update settings name (some value) else settings
    | .remove name => Function.update settings name none
    | .removeAll => fun _ => none

/-- The table that has these settings. -/
def stored (settings : Settings) : Table := fun name =>
  (settings name).map fun value => ⟨value.text, value.typeName⟩

theorem stored_update (settings : Settings) (name : String) (value : Option Value) :
    stored (Function.update settings name value) =
      Function.update (stored settings) name (value.map fun v => ⟨v.text, v.typeName⟩) := by
  funext k
  by_cases hk : k = name
  · subst hk
    simp [stored]
  · simp [stored, hk]

theorem step_stored (known : String → Bool) (settings : Settings) (call : Call) :
    step known (stored settings) call = stored (intended known settings call) := by
  obtain ⟨op, fails⟩ := call
  cases fails with
  | true => rfl
  | false =>
    cases op with
    | persist name value =>
      simp only [step, execute, intended, Bool.false_eq_true, if_false]
      split_ifs
      · rw [stored_update]
        rfl
      · rfl
    | remove name =>
      simp only [step, execute, intended, Bool.false_eq_true, if_false]
      rw [stored_update]
      rfl
    | removeAll => rfl

/-- **In every run** the table has the values that were persisted last. -/
theorem run_stored (known : String → Bool) (settings : Settings) (calls : List Call) :
    run (step known) (stored settings) calls = stored (run (intended known) settings calls) := by
  induction calls generalizing settings with
  | nil => rfl
  | cons call calls ih => rw [run_cons, run_cons, step_stored, ih]

/-! ## Reading back -/

/-- The types that the switch knows. -/
def Value.isDecoded : Value → Bool
  | .string _ => true
  | .bool _ => true
  | .int _ => true
  | .int8 _ => false
  | .int64 _ => false
  | .uint64 _ => false

theorem decode_int (n : Int64) : decode ⟨showInt n.toInt, "int"⟩ = .ok (.int n) := by
  have hatoi : atoi (showInt n.toInt) = some n.toInt :=
    atoi_showInt (by simpa using n.le_toInt) (by simpa using n.toInt_lt)
  have htype : ("int" : String) ≠ "string" := by decide
  rw [decode, if_neg htype, if_pos rfl, hatoi]
  simp

theorem decode_bool (b : Bool) : decode ⟨(Value.bool b).text, "bool"⟩ = .ok (.bool b) := by
  cases b <;> rfl

theorem decode_unknown (value : Text) {vtype : String}
    (h : vtype ≠ "string" ∧ vtype ≠ "int" ∧ vtype ≠ "bool") (v : Value) :
    decode ⟨value, vtype⟩ ≠ .ok v := by
  rw [decode, if_neg h.1, if_neg h.2.1, if_neg h.2.2]
  simp

/-- **A value comes back** exactly when the switch knows its type. -/
theorem decode_iff (value : Value) :
    decode ⟨value.text, value.typeName⟩ = .ok value ↔ value.isDecoded = true := by
  cases value with
  | string s => exact iff_of_true rfl rfl
  | bool b => exact iff_of_true (decode_bool b) rfl
  | int n => exact iff_of_true (decode_int n) rfl
  | int8 n =>
    exact iff_of_false (decode_unknown _ (by simp [Value.typeName]) _) Bool.false_ne_true
  | int64 n =>
    exact iff_of_false (decode_unknown _ (by simp [Value.typeName]) _) Bool.false_ne_true
  | uint64 n =>
    exact iff_of_false (decode_unknown _ (by simp [Value.typeName]) _) Bool.false_ne_true

/-- **A persisted variable reads back unchanged**, as the value that was
persisted last, exactly when it is a string, a boolean or an `int`. -/
theorem read_persisted_iff (known : String → Bool) (calls : List Call) (name : String)
    (value : Value) (hlast : run (intended known) (fun _ => none) calls name = some value) :
    getPersistedValue (run (step known) (fun _ => none) calls) name = .ok (some value) ↔
      value.isDecoded = true := by
  have hrow : run (step known) (fun _ => none) calls name = some ⟨value.text, value.typeName⟩ := by
    have hrun := congrFun (run_stored known (fun _ => none) calls) name
    rw [stored, hlast] at hrun
    exact hrun
  rw [getPersistedValue, hrow, ← decode_iff]
  show (decode ⟨value.text, value.typeName⟩).map some = _ ↔ _
  generalize decode ⟨value.text, value.typeName⟩ = decoded
  cases decoded <;> simp [Except.map]

theorem read_persisted_maxConnections :
    getPersistedValue (run (step fun _ => true) (fun _ => none)
        [⟨.persist "max_connections" (.int 151), false⟩, ⟨.remove "autocommit", false⟩])
      "max_connections" = .ok (some (.int 151)) :=
  (read_persisted_iff (fun _ => true) _ "max_connections" (.int 151) (by decide)).mpr rfl

/-- The variables with 8 and with 64 bits do not come back. -/
theorem persisted_not_read :
    getPersistedValue (run (step fun _ => true) (fun _ => none)
        [⟨.persist "max_connections" (.int64 151), false⟩]) "max_connections" =
      .error (.unknownType "int64") := by
  decide

end MyDuck.PersistedVariables
