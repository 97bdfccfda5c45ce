/-
MyDuck.Binlog.RowCells — `appendRowFormatChanges` down to the bytes.

The applier's model appends rows to an appender and marks the appender as
torn when a cell does not decode. Here the appender is what it is in the
source, a builder for each of the six augmented columns and for each
column of the table, and a row is appended cell by cell: the loop over the
schema keeps a position in the bytes of the image, appends a NULL or
decodes a cell, and returns at the first cell that fails. The statistics
are updated behind the loops.
-/
import MyDuck.Binlog.Applier
import MyDuck.Binlog.CellTheorems

namespace MyDuck.RowCells

open MyDuck.Delta MyDuck.Rbr
open MyDuck.Binlog (TxnStamp)

/-! ## Images and buffers -/

/-- A column of the table map with its column of the schema. -/
structure CellSpec where
  typ : UInt8
  metadata : UInt16
  column : CellColumn

/-- The bytes of an image, and the bitmap of its NULL columns. -/
structure RawImage where
  data : Slice
  isNull : Nat → Bool

structure RawRow where
  identify : RawImage
  data : RawImage

/-- The builders of a delta appender, and its counters. -/
structure ColumnBuffer where
  action : List RowEventType := []
  txnTag : List (Option (List UInt8)) := []
  txnServer : List (Option (List UInt8)) := []
  txnGroup : List (Option String) := []
  txnSeq : List Nat := []
  txnStmt : List Nat := []
  fields : List Builder := []
  counters : Counters := {}
  deriving DecidableEq, Repr

/-! ## The loops -/

section Loops

variable (json : JsonParsers)

/-- The loop over the schema, from column `i` and position `pos` on: the
builders it leaves, and the position behind the image. -/
def appendCells (im : RawImage) :
    List CellSpec → List Builder → Nat → Nat → Outcome CellError (Nat × List Builder)
  | [], bs, _, pos => .ok (pos, bs)
  | _ :: _, [], _, _ => .panic
  | c :: cs, b :: bs, i, pos =>
    if im.isNull i then
      (appendCells im cs bs (i + 1) pos).map fun r => (r.1, b.appendNull :: r.2)
    else
      match cellValue json im.data pos c.typ c.metadata c.column b with
      | .ok (length, b') =>
        (appendCells im cs bs (i + 1) (pos + length)).map fun r => (r.1, b' :: r.2)
      | .error (.error _ e) => .error e (pos, b :: bs)
      | .error .panic => .panic

/-- A buffer and what `deltaBufSize` has grown by. -/
structure Filled where
  buffer : ColumnBuffer
  size : Nat := 0

/-- The augmented columns of a row. -/
def ColumnBuffer.appendStamp (stamp : TxnStamp) (stmt : Nat) (action : RowEventType)
    (buf : ColumnBuffer) : ColumnBuffer :=
  { buf with
    action := buf.action ++ [action], txnTag := buf.txnTag ++ [stamp.tag],
    txnServer := buf.txnServer ++ [stamp.server], txnGroup := buf.txnGroup ++ [stamp.group],
    txnSeq := buf.txnSeq ++ [stamp.seq], txnStmt := buf.txnStmt ++ [stmt] }

/-- One row: the augmented columns first, then the cells. -/
def appendRow (cols : List CellSpec) (stamp : TxnStamp) (stmt : Nat) (action : RowEventType)
    (im : RawImage) (f : Filled) : Outcome CellError Filled :=
  let buf := f.buffer.appendStamp stamp stmt action
  match appendCells json im cols buf.fields 0 0 with
  | .ok (pos, fields) => .ok ⟨{ buf with fields := fields }, f.size + pos⟩
  | .error e (_, fields) => .error e ⟨{ buf with fields := fields }, f.size⟩
  | .panic => .panic

def appendRows (cols : List CellSpec) (stamp : TxnStamp) (stmt : Nat) (action : RowEventType) :
    List RawImage → Filled → Outcome CellError Filled
  | [], f => .ok f
  | im :: ims, f => (appendRow json cols stamp stmt action im f).andThen
      (appendRows cols stamp stmt action ims)

/-- One of the two loops over the rows, with its `UpdateActionStats`. -/
def appendPhase (cols : List CellSpec) (stamp : TxnStamp) (stmt : Nat) (action : RowEventType)
    (images : List RawImage) (f : Filled) : Outcome CellError Filled :=
  (appendRows json cols stamp stmt action images f).andThen fun f =>
    .ok { f with buffer := { f.buffer with
      counters := f.buffer.counters.updateActionStats action images.length } }

def appendRowFormatChanges (cols : List CellSpec) (stamp : TxnStamp) (stmt : Nat)
    (event : RowEventType) (rows : List RawRow) (f : Filled) : Outcome CellError Filled :=
  ((if event = .insert then .ok f
    else appendPhase json cols stamp stmt .delete (rows.map RawRow.identify) f).andThen fun f =>
      if event = .delete then .ok f
      else appendPhase json cols stamp stmt .insert (rows.map RawRow.data) f).andThen fun f =>
        .ok { f with buffer := { f.buffer with
          counters := f.buffer.counters.observeEvents event rows.length } }

end Loops

end MyDuck.RowCells
