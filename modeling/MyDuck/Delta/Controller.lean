/-
MyDuck.Delta.Controller — the delta controller of delta/controller.go:
the map of appenders, `Flush`, and the five SQL strategies of
`updateTable`.

`flush` says which appenders a flush hands to `updateTable` and what is
left in the map; it is what the appliers' models log. `updateTable` is
the SQL side: what the chosen strategy does to the rows of the base
table. DuckDB is modelled by what its statements do to a bag of rows:
`INSERT` adds rows and fails on an indexed table when a key would occur
twice, `INSERT OR REPLACE` replaces by key on an indexed table and is
refused without an index, `DELETE .. WHERE pk IN (..)` removes by key,
and `LAST(.. ORDER BY ..)` returns the greatest row of a group, the last
appended on ties. Whether the table has an index follows the setting
under which it was created (`generateCreateTableStmt`).
-/
import MyDuck.Delta.Appender

namespace MyDuck.Delta

open MyDuck.KeyedBag

/-! ## The map of appenders -/

abbrev DeltaTables := List (TableIdentifier × DeltaAppender)

/-- `GetDeltaAppender` followed by a change of the appender it returns:
the existing appender of the table, or a new one of the given schema. -/
def withAppender (t : TableIdentifier) (schema : Schema) (f : DeltaAppender → DeltaAppender) :
    DeltaTables → DeltaTables
  | [] => [(t, f { schema := schema })]
  | (u, a) :: rest => if u = t then (u, f a) :: rest else (u, a) :: withAppender t schema f rest

def getDeltaAppender (t : TableIdentifier) (schema : Schema) (tables : DeltaTables) :
    DeltaAppender :=
  (tables.lookup t).getD { schema := schema }

def bufferedRows (t : TableIdentifier) (tables : DeltaTables) : List DeltaRow :=
  ((tables.lookup t).map DeltaAppender.rows).getD []

inductive FlushError where
  | noActiveTransaction
  | sql (t : TableIdentifier)
  | panic
  deriving DecidableEq, Repr

/-- What a call of `Flush` did: the map it left, the appenders whose
changes were written, in order, and the error it returned. -/
structure Flushed where
  tables : DeltaTables
  applied : DeltaTables
  err : Option FlushError
  deriving DecidableEq, Repr

/-- After a table was written the appender is dropped on a DDL flush (the
schema may change) and kept, empty, otherwise. -/
def keepAfter (reason : FlushReason) (t : TableIdentifier) (a : DeltaAppender) : DeltaTables :=
  if reason = .ddlStmt then [] else [(t, a)]

/-- `Flush` walks the map and stops at the first error. `hasTx` is whether
the caller passed a transaction, `fails` names the tables on which a
statement of `updateTable` fails. By then `Build` has emptied the
appender of the failing table; the tables after it are not touched. -/
def flush (hasTx : Bool) (fails : TableIdentifier → Bool) (reason : FlushReason) :
    DeltaTables → Flushed
  | [] => ⟨[], [], none⟩
  | (t, a) :: rest =>
    if a.rowCount = 0 then
      let r := flush hasTx fails reason rest
      { r with tables := keepAfter reason t a ++ r.tables }
    else if !hasTx then ⟨(t, a) :: rest, [], some .noActiveTransaction⟩
    else if a.torn then ⟨(t, a) :: rest, [], some .panic⟩
    else if fails t then ⟨(t, a.drained) :: rest, [], some (.sql t)⟩
    else
      let r := flush hasTx fails reason rest
      { tables := keepAfter reason t a.drained ++ r.tables,
        applied := (t, a) :: r.applied, err := r.err }

/-! ## SQL statements on a bag of rows -/

inductive SqlError where
  | duplicateKey
  | noConflictTarget
  | noKeyColumns
  deriving DecidableEq, Repr

/-- `INSERT INTO t SELECT ..`. -/
def insertInto (indexed : Bool) (schema : Schema) (rs : List Row) (b : Multiset Row) :
    Except SqlError (Multiset Row) :=
  if indexed && !decide (UniqueKeys (primaryKey schema) ((rs : Multiset Row) + b)) then
    .error .duplicateKey
  else .ok ((rs : Multiset Row) + b)

/-- `INSERT OR REPLACE INTO t SELECT ..`. -/
def insertOrReplace (indexed : Bool) (schema : Schema) (rs : List Row) (b : Multiset Row) :
    Except SqlError (Multiset Row) :=
  if indexed then .ok (applyAll (primaryKey schema) b (rs.map .put))
  else .error .noConflictTarget

/-- `DELETE FROM t WHERE pk IN (SELECT pk ..)`. A single NULL is equal to
nothing; inside `row(..)` NULLs compare equal. -/
def deleteWhereIn (schema : Schema) (rs : List Row) (b : Multiset Row) : Multiset Row :=
  eraseKeys (primaryKey schema) ((rs.map (primaryKey schema)).filter (· ≠ [Value.null])) b

/-- `LAST(ROW(*COLUMNS(*)) ORDER BY txn_group, txn_seq, txn_stmt, action)`
over the rows of one group: the greatest row, the last appended on ties. -/
def lastOrdered : List DeltaRow → Option DeltaRow
  | [] => none
  | r :: rs =>
    match lastOrdered rs with
    | none => some r
    | some m => if r.orderKey ≤ m.orderKey then some m else some r

/-- The rows of the delta view with a given key. -/
def groupOf (schema : Schema) (k : List Value) (rows : List DeltaRow) : List DeltaRow :=
  rows.filter (fun r => primaryKey schema r.fields = k)

/-- The result of the query of `buildCondenseDeltaSQL`: one row per
primary key, the latest. -/
def condenseDelta (schema : Schema) (rows : List DeltaRow) : List DeltaRow :=
  (rows.map (fun r => primaryKey schema r.fields)).dedup.filterMap
    (fun k => lastOrdered (groupOf schema k rows))

/-- `SELECT * EXCLUDE (..) .. WHERE action = n`. -/
def selectAction (action : RowEventType) (rows : List DeltaRow) : List Row :=
  (rows.filter (fun r => r.action = action)).map DeltaRow.fields

/-! ## The strategies of `updateTable` -/

variable (schema : Schema) (indexed : Bool) (rows : List DeltaRow) (b : Multiset Row)

/-- A statement that names the key list is not well formed without key
columns. -/
def requireKey (x : Except SqlError (Multiset Row)) : Except SqlError (Multiset Row) :=
  if hasPrimaryKey schema then x else .error .noKeyColumns

def handleInsertOnly : Except SqlError (Multiset Row) :=
  insertInto indexed schema (rows.map DeltaRow.fields) b

def handleDeleteOnly : Except SqlError (Multiset Row) :=
  requireKey schema (.ok (deleteWhereIn schema (rows.map DeltaRow.fields) b))

def handleZeroDelete : Except SqlError (Multiset Row) :=
  requireKey schema
    (insertOrReplace indexed schema ((condenseDelta schema rows).map DeltaRow.fields) b)

/-- Upsert the rows that end in an INSERT, then delete the keys that end
in a DELETE. -/
def handleGeneralCase : Except SqlError (Multiset Row) :=
  requireKey schema (do
    let b' ← insertOrReplace indexed schema (selectAction .insert (condenseDelta schema rows)) b
    return deleteWhereIn schema (selectAction .delete (condenseDelta schema rows)) b')

/-- Delete every key of the delta, then insert the rows that end in an
INSERT. -/
def handleWithoutIndex : Except SqlError (Multiset Row) :=
  requireKey schema
    (insertInto indexed schema (selectAction .insert (condenseDelta schema rows))
      (deleteWhereIn schema ((condenseDelta schema rows).map DeltaRow.fields) b))

/-- Whether the physical table carries a unique index. -/
def hasIndex (withoutIndex : Bool) (schema : Schema) : Bool :=
  !withoutIndex && hasPrimaryKey schema

/-- `updateTable`: the strategy is chosen from the counters. -/
def updateTable (withoutIndex : Bool) (a : DeltaAppender) (b : Multiset Row) :
    Except SqlError (Multiset Row) :=
  let hasInserts := decide (a.counters.eventInsert > 0)
  let hasDeletes := decide (a.counters.eventDelete > 0)
  let hasUpdates := decide (a.counters.eventUpdate > 0)
  let indexed := hasIndex withoutIndex a.schema
  if hasInserts && !hasDeletes && !hasUpdates then handleInsertOnly a.schema indexed a.rows b
  else if hasDeletes && !hasInserts && !hasUpdates then handleDeleteOnly a.schema a.rows b
  else if a.counters.actionDelete == 0 && !withoutIndex then
    handleZeroDelete a.schema indexed a.rows b
  else if withoutIndex then handleWithoutIndex a.schema indexed a.rows b
  else handleGeneralCase a.schema indexed a.rows b

/-! ## Flushing into the tables of a database -/

abbrev Tables := TableIdentifier → Multiset Row

/-- The statements of one `updateTable` on the tables of the database. -/
def updateTables (withoutIndex : Bool) (t : TableIdentifier) (a : DeltaAppender) (db : Tables) :
    Except SqlError Tables := do
  let b ← updateTable withoutIndex a (db t)
  return Function.update db t b

/-- The loop body of `Flush` on the tables: an empty appender is skipped. -/
def flushTable (withoutIndex : Bool) (t : TableIdentifier) (a : DeltaAppender) (db : Tables) :
    Except SqlError Tables :=
  if a.rowCount = 0 then .ok db else updateTables withoutIndex t a db

/-- All the `updateTable` calls of a flush, in order. -/
def flushInto (withoutIndex : Bool) : DeltaTables → Tables → Except SqlError Tables
  | [], db => .ok db
  | (t, a) :: rest, db => flushTable withoutIndex t a db >>= flushInto withoutIndex rest

end MyDuck.Delta
