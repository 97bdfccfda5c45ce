/-
MyDuck.Delta.Appender — the delta appender: the per-table buffer of row
changes of delta/delta.go, with the row event types of binlog/events.go
and the flush reasons of delta/flush_reason.go.

A buffered change is a `DeltaRow`: the six augmented columns (action,
txn_tag, txn_server, txn_group, txn_seq, txn_stmt) and the fields of the
base table. The Arrow builders of the source are column builders; the
model keeps the rows. The one state in which the builders are not a list
of rows is after a cell failed to decode in the middle of a row: the
columns then have different lengths and never get the same length again,
because every later row appends to the augmented columns first. That is
`torn`, and building a record from a torn appender panics.
-/
import MyDuck.Base.Session

namespace MyDuck.Delta

/-- binlog/events.go. The order of the values is relied on: DELETE has to
sort before INSERT. -/
inductive RowEventType where
  | delete
  | update
  | insert
  deriving DecidableEq, Repr

def RowEventType.code : RowEventType → Nat
  | .delete => 0
  | .update => 1
  | .insert => 2

/-- delta/flush_reason.go. -/
inductive FlushReason where
  | unknown
  | ddlStmt
  | dmlStmt
  | rowCountLimit
  | memoryLimit
  | timeTick
  | query
  | init
  | onClose
  deriving DecidableEq, Repr

/-- A column value as DuckDB stores it. The delta path only compares
values for equality. -/
inductive Value where
  | null
  | int (n : Int)
  | text (s : String)
  | blob (bytes : List UInt8)
  deriving DecidableEq, Repr

/-- The type of a column: an identifier (the OID on the PostgreSQL path)
and a modifier such as a length. The delta path only passes types on. -/
structure ColumnType where
  id : Nat := 0
  modifier : Int := -1
  deriving DecidableEq, Repr

structure Column where
  name : String
  primaryKey : Bool
  type : ColumnType := {}
  deriving DecidableEq, Repr

abbrev Schema := List Column

abbrev Row := List Value

/-- The values of the primary key columns of a row, in column order: what
`getPrimaryKeyIndices`, `getPrimaryKeyStruct` and `getPrimaryKeyList`
select. -/
def primaryKey : Schema → Row → List Value
  | c :: cs, v :: vs => if c.primaryKey then v :: primaryKey cs vs else primaryKey cs vs
  | _, _ => []

/-- The table has a primary key at all: `getPrimaryKeyList` is not empty. -/
def hasPrimaryKey (schema : Schema) : Bool := schema.any Column.primaryKey

structure TableIdentifier where
  dbName : String
  tableName : String
  deriving DecidableEq, Repr

/-- One row of the delta view: the augmented columns and the fields. -/
structure DeltaRow where
  action : RowEventType
  txnTag : Option (List UInt8)
  txnServer : Option (List UInt8)
  txnGroup : Option String
  txnSeq : Nat
  txnStmt : Nat
  fields : Row
  deriving DecidableEq, Repr

/-- `txn_group` in an ORDER BY: NULL sorts last. -/
def groupKey : Option String → WithTop String
  | none => ⊤
  | some g => (g : WithTop String)

/-- The order stamp of a row: `txn_group, txn_seq, txn_stmt`. -/
def DeltaRow.stamp (r : DeltaRow) : WithTop String ×ₗ ℕ ×ₗ ℕ :=
  toLex (groupKey r.txnGroup, toLex (r.txnSeq, r.txnStmt))

/-- The sort key of the condensing query:
`ORDER BY txn_group, txn_seq, txn_stmt, action`. -/
def DeltaRow.orderKey (r : DeltaRow) : (WithTop String ×ₗ ℕ ×ₗ ℕ) ×ₗ ℕ :=
  toLex (r.stamp, r.action.code)

structure Counters where
  eventDelete : Nat := 0
  eventInsert : Nat := 0
  eventUpdate : Nat := 0
  actionDelete : Nat := 0
  actionInsert : Nat := 0
  deriving DecidableEq, Repr

namespace Counters

def updateActionStats (action : RowEventType) (count : Nat) (c : Counters) : Counters :=
  match action with
  | .delete => { c with actionDelete := c.actionDelete + count }
  | .insert => { c with actionInsert := c.actionInsert + count }
  | .update => c

/-- `ObserveEvents` counts events; the row count it is given is not used. -/
def observeEvents (event : RowEventType) (_count : Nat) (c : Counters) : Counters :=
  match event with
  | .delete => { c with eventDelete := c.eventDelete + 1 }
  | .insert => { c with eventInsert := c.eventInsert + 1 }
  | .update => { c with eventUpdate := c.eventUpdate + 1 }

end Counters

structure DeltaAppender where
  schema : Schema
  rows : List DeltaRow := []
  torn : Bool := false
  counters : Counters := {}
  deriving DecidableEq, Repr

namespace DeltaAppender

def rowCount (a : DeltaAppender) : Nat := a.rows.length + a.torn.toNat

def updateActionStats (action : RowEventType) (count : Nat) (a : DeltaAppender) : DeltaAppender :=
  { a with counters := a.counters.updateActionStats action count }

def observeEvents (event : RowEventType) (count : Nat) (a : DeltaAppender) : DeltaAppender :=
  { a with counters := a.counters.observeEvents event count }

def resetCounters (a : DeltaAppender) : DeltaAppender := { a with counters := {} }

/-- The appender after `Build` took its rows and `ResetCounters` ran. -/
def drained (a : DeltaAppender) : DeltaAppender :=
  { a with rows := [], torn := false }.resetCounters

/-- One complete row appended to every builder. -/
def appendRow (r : DeltaRow) (a : DeltaAppender) : DeltaAppender :=
  { a with rows := a.rows ++ [r] }

/-- A row whose cells failed to decode half way. -/
def tear (a : DeltaAppender) : DeltaAppender := { a with torn := true }

section

variable (t : RowEventType) (n : Nat) (a : DeltaAppender)

@[simp] theorem updateActionStats_rows :
    (a.updateActionStats t n).rows = a.rows := rfl

@[simp] theorem updateActionStats_torn :
    (a.updateActionStats t n).torn = a.torn := rfl

@[simp] theorem updateActionStats_schema :
    (a.updateActionStats t n).schema = a.schema := rfl

@[simp] theorem observeEvents_rows :
    (a.observeEvents t n).rows = a.rows := rfl

@[simp] theorem observeEvents_torn :
    (a.observeEvents t n).torn = a.torn := rfl

@[simp] theorem observeEvents_schema :
    (a.observeEvents t n).schema = a.schema := rfl

end

@[simp] theorem drained_rows (a : DeltaAppender) : a.drained.rows = [] := rfl

@[simp] theorem drained_torn (a : DeltaAppender) : a.drained.torn = false := rfl

end DeltaAppender

end MyDuck.Delta
