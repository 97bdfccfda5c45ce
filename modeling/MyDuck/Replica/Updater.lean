/-
MyDuck.Replica.Updater — the table updater of replica/updater.go.

A row event that does not carry all columns is written row by row with one
prepared statement. Three kinds of indices meet here: ordinals of table
columns, positions inside an image, and the key columns. `newTableUpdater`
chooses the statement from the bitmaps of the images and the primary key;
the methods bind its parameters from rows that have one entry per table
column.

A template is kept as the columns it names, in order; its text has their
names. The statements are executed by a parameter, so that the methods can
be run against a table and against a log of what they execute. A method
ends normally, with an error or in a panic, and what it executed before
stays executed in the open transaction.
-/
import MyDuck.Binlog.Applier
import MyDuck.Delta.ControllerTheorems

namespace MyDuck.Updater

open MyDuck.Delta MyDuck.Binlog

/-! ## Keys and bitmaps -/

/-- The ordinals of the key columns, in column order. -/
def keyOrdinals (schema : Schema) : List Nat :=
  (List.range schema.length).filter fun i => schema[i]?.any Column.primaryKey

/-- `sql.PrimaryKeySchema` as the catalog builds it: the ordinals of the
flagged columns, in the order of the key. -/
structure PrimaryKeySchema where
  schema : Schema
  pkOrdinals : List Nat
  flagged : pkOrdinals.Perm (keyOrdinals schema)

/-- `columns.Bit(i)`. -/
def bit (columns : List Bool) (i : Nat) : Bool := columns.getD i false

def setBits (columnCount : Nat) (columns : List Bool) : List Nat :=
  (List.range columnCount).filter (bit columns)

/-- The loop of `getPrimaryKeyIndices`: `count` is the position of the next
column inside the image. -/
def primaryKeyIndicesFrom : Schema → List Bool → Nat → List Nat → List Nat
  | [], _, _, indices => indices
  | c :: cs, columns, count, indices =>
    let set := columns.headD false
    if c.primaryKey && !set then []
    else primaryKeyIndicesFrom cs columns.tail (if set then count + 1 else count)
      (if c.primaryKey && set then indices ++ [count] else indices)

/-- `getPrimaryKeyIndices`: the positions of the key columns inside the
image, none when one of them is not there. -/
def getPrimaryKeyIndices (schema : Schema) (columns : List Bool) : List Nat :=
  primaryKeyIndicesFrom schema columns 0 []

/-- `getPrimaryKeyIndices` finds every key column in the bitmap. -/
def keyColumnsSet : Schema → List Bool → Bool
  | [], _ => true
  | c :: cs, [] => !c.primaryKey && keyColumnsSet cs []
  | c :: cs, set :: columns => (!c.primaryKey || set) && keyColumnsSet cs columns

/-- Some key column is in both images. -/
def isPkUpdate : Schema → List Bool → List Bool → Bool
  | c :: cs, i :: identifyColumns, d :: dataColumns =>
    (c.primaryKey && i && d) || isPkUpdate cs identifyColumns dataColumns
  | _, _, _ => false

/-! ## Templates -/

/-- A statement with parameters: the columns after SET and after WHERE. -/
inductive Template where
  | insert (replace : Bool) (columnCount : Nat)
  | delete (whereColumns : List Nat)
  | update (setColumns whereColumns : List Nat)
  deriving DecidableEq, Repr

def Template.params : Template → Nat
  | .insert _ columnCount => columnCount
  | .delete cs => cs.length
  | .update ss cs => ss.length + cs.length

def Template.whereClause : Template → List Nat
  | .insert _ _ => []
  | .delete cs => cs
  | .update _ cs => cs

def buildInsertTemplate (columnCount : Nat) (replace : Bool) : Template × Nat :=
  (.insert replace columnCount, columnCount)

def buildDeleteTemplate (columnCount : Nat) (pkColumns : List Nat) (identifyColumns : List Bool) :
    Template × Nat :=
  if pkColumns.length > 0 then (.delete pkColumns, pkColumns.length)
  else (.delete (setBits columnCount identifyColumns), (setBits columnCount identifyColumns).length)

def buildUpdateTemplate (columnCount : Nat) (pkColumns : List Nat)
    (identifyColumns dataColumns : List Bool) : Template × Nat :=
  let dataCount := bitCount dataColumns
  if pkColumns.length > 0 then
    (.update (setBits columnCount dataColumns) pkColumns, dataCount + pkColumns.length)
  else
    (.update (setBits columnCount dataColumns) (setBits columnCount identifyColumns),
      dataCount + bitCount identifyColumns)

/-! ## The updater -/

/-- `tableUpdater`. A cleanup of none is the empty text, a transaction of
none is nil. -/
structure TableUpdater where
  tx : Option Unit := none
  stmt : Template
  replace : Bool
  cleanup : Option Template
  paramCount : Nat
  pkSubSchema : Schema := []
  pkIndicesInIdentify : List Nat
  pkIndicesInData : List Nat
  deriving DecidableEq, Repr

inductive UpdaterError where
  | partialPrimaryKeyUpdate
  deriving DecidableEq, Repr

/-- The key columns for the WHERE clause: none unless the before image has
all of them. -/
def whereKey (pk : PrimaryKeySchema) (identifyColumns : List Bool) : List Nat :=
  if (getPrimaryKeyIndices pk.schema identifyColumns).length = 0 ∧ pk.pkOrdinals.length > 0
  then [] else pk.pkOrdinals

/-- `newTableUpdater`. The transaction and the schema of the key columns
are not stored. -/
def newTableUpdater (pk : PrimaryKeySchema) (columnCount : Nat)
    (identifyColumns dataColumns : List Bool) (event : RowEventType) :
    Except UpdaterError TableUpdater :=
  let pkIndicesInIdentify := getPrimaryKeyIndices pk.schema identifyColumns
  let pkIndicesInData := getPrimaryKeyIndices pk.schema dataColumns
  let pkColumns := whereKey pk identifyColumns
  let keyCount := bitCount identifyColumns
  let dataCount := bitCount dataColumns
  let updater (t : Template × Nat) (replace : Bool) (cleanup : Option Template) : TableUpdater :=
    { stmt := t.1, paramCount := t.2, replace, cleanup, pkIndicesInIdentify, pkIndicesInData }
  match event with
  | .delete =>
    .ok (updater (buildDeleteTemplate columnCount pkColumns identifyColumns) false none)
  | .update =>
    if isPkUpdate pk.schema identifyColumns dataColumns then
      if pkIndicesInIdentify.length = 0 ∨ pkIndicesInData.length = 0 then
        .error .partialPrimaryKeyUpdate
      else
        .ok (updater (buildInsertTemplate columnCount true) true
          (some (buildDeleteTemplate columnCount pkColumns identifyColumns).1))
    else if keyCount < columnCount ∨ dataCount < columnCount then
      .ok (updater (buildUpdateTemplate columnCount pkColumns identifyColumns dataColumns) false
        none)
    else .ok (updater (buildInsertTemplate columnCount true) true none)
  | .insert => .ok (updater (buildInsertTemplate columnCount false) false none)

/-! ## Methods -/

inductive Exit (ε : Type) where
  | returned
  | failed (e : ε)
  | panicked
  deriving DecidableEq, Repr

/-- What a method leaves behind and how it ends. -/
structure Ran (ε σ : Type) where
  state : σ
  exit : Exit ε
  deriving DecidableEq, Repr

section Methods

variable {ε σ : Type} (exec : Template → List Value → σ → Except ε σ)

def Ran.andThen (r : Ran ε σ) (f : σ → Ran ε σ) : Ran ε σ :=
  match r.exit with
  | .returned => f r.state
  | _ => r

/-- `stmt.ExecContext(ctx, args...)`; no arguments at all stand for a panic
while they were put together. -/
def execute (stmt : Template) (args : Option Row) (s : σ) : Ran ε σ :=
  match args with
  | none => ⟨s, .panicked⟩
  | some args =>
    match exec stmt args s with
    | .error e => ⟨s, .failed e⟩
    | .ok s' => ⟨s', .returned⟩

/-- The statement once for each of the rows. -/
def executeAll (stmt : Template) : List (Option Row) → σ → Ran ε σ
  | [], s => ⟨s, .returned⟩
  | args :: rest, s => (execute exec stmt args s).andThen (executeAll stmt rest)

/-- `row[idx]` for all of the indices. -/
def pick (indices : List Nat) (row : Row) : Option Row := indices.mapM (row[·]?)

namespace TableUpdater

variable (tu : TableUpdater)

def insert (rows : List Row) (s : σ) : Ran ε σ := executeAll exec tu.stmt (rows.map some) s

/-- The keys of a row of `Delete`. -/
def deleteArgs (row : Row) : Option Row :=
  if tu.pkIndicesInIdentify.length > 0 then pick tu.pkIndicesInIdentify row else some row

def delete (keyRows : List Row) (s : σ) : Ran ε σ :=
  executeAll exec tu.stmt (keyRows.map tu.deleteArgs) s

/-- `copy(buf[at:], src)`. -/
def copyAt (buf : Row) (i : Nat) (src : Row) : Row :=
  buf.take i ++ src.take (buf.length - i) ++ buf.drop (i + src.length)

/-- `buf[at+j] = keys[idx]` for the indices from the `j`-th on. -/
def setKeys (keys : Row) : List Nat → Nat → Row → Option Row
  | [], _, buf => some buf
  | idx :: rest, i, buf => do
    let v ← keys[idx]?
    if i < buf.length then setKeys keys rest (i + 1) (buf.set i v) else none

/-- The buffer behind one row of `Update`, and the arguments taken from it:
a slice up to the length of both rows. -/
def updateArgs (buf values keys : Row) : Option (Row × Row) := do
  let buf := copyAt buf 0 values
  let buf ←
    if tu.pkIndicesInIdentify.length > 0 then
      setKeys keys tu.pkIndicesInIdentify values.length buf
    else if values.length ≤ buf.length then some (copyAt buf values.length keys) else none
  if values.length + keys.length ≤ buf.length then
    some (buf, buf.take (values.length + keys.length))
  else none

def updateLoop : List (Row × Row) → Row → σ → Ran ε σ
  | [], _, s => ⟨s, .returned⟩
  | (keys, values) :: rest, buf, s =>
    match tu.updateArgs buf values keys with
    | none => ⟨s, .panicked⟩
    | some (buf, args) =>
      (execute exec tu.stmt (some args) s).andThen (updateLoop rest buf)

/-- The cleanup loop of `doInsertThenDelete`: the old row is deleted unless
its key is the new one. -/
def cleanupLoop (stmt : Template) : List (Row × Row) → Row → Row → σ → Ran ε σ
  | [], _, _, s => ⟨s, .returned⟩
  | (before, after) :: rest, beforeKey, afterKey, s =>
    match setKeys before tu.pkIndicesInIdentify 0 beforeKey,
        setKeys after tu.pkIndicesInData 0 afterKey with
    | some beforeKey, some afterKey =>
      if beforeKey = afterKey then cleanupLoop stmt rest beforeKey afterKey s
      else (execute exec stmt (some beforeKey) s).andThen (cleanupLoop stmt rest beforeKey afterKey)
    | _, _ => ⟨s, .panicked⟩

/-- `doInsertThenDelete`: without a transaction its `PrepareContext`
panics. -/
def doInsertThenDelete (cleanup : Template) (rows : List (Row × Row)) (s : σ) : Ran ε σ :=
  (tu.insert exec (rows.map Prod.snd) s).andThen fun s =>
    match tu.tx with
    | none => ⟨s, .panicked⟩
    | some _ =>
      let key : Row := List.replicate tu.pkSubSchema.length .null
      tu.cleanupLoop exec cleanup rows key key s

def update (rows : List (Row × Row)) (s : σ) : Ran ε σ :=
  match tu.cleanup with
  | some cleanup => tu.doInsertThenDelete exec cleanup rows s
  | none =>
    if tu.replace then tu.insert exec (rows.map Prod.snd) s
    else tu.updateLoop exec rows (List.replicate tu.paramCount .null) s

end TableUpdater

end Methods

/-- `parseRow` of an image with the values of its columns, decoded: one
entry per table column, nil where the column is not in the image. -/
def parseRow : List Bool → List Value → Row
  | [], _ => []
  | false :: columns, values => .null :: parseRow columns values
  | true :: columns, v :: values => v :: parseRow columns values
  | true :: columns, [] => .null :: parseRow columns []

end MyDuck.Updater
