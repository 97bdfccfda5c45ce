/-
MyDuck.Logrepl.Replicator — the logical replicator of
pgserver/logrepl/replication.go as a step function.

The replicator reads the pgoutput stream of a PostgreSQL source. Row
changes go to the delta buffer, TRUNCATE is executed in the open DuckDB
transaction, and `commitOngoingTxn` flushes the buffer into that
transaction and commits it together with the LSN of the last commit
message. Source transactions are batched: a DuckDB transaction is kept
open over several of them and committed at a `Begin`, at a `Commit`, at a
tick between two transactions, or when the schema of a known relation
arrives again.

A message that fails closes the connection. The next connection rolls the
open DuckDB transaction back, forgets everything but the last written LSN
and has the source send what comes after it.
-/
import MyDuck.Delta.Controller

namespace MyDuck.Logrepl

open MyDuck.Delta

/-! ## Messages -/

/-- A position in the WAL of the source. -/
abbrev LSN := Nat

/-- One column of a tuple: NULL, text or binary data with the value it
decodes to, data that does not decode, or a format the replicator does not
support (an unchanged TOAST value). -/
inductive TupleColumn where
  | null
  | value (v : Value) (bytes : Nat)
  | bad
  | unsupported
  deriving DecidableEq, Repr

abbrev Tuple := List TupleColumn

structure RelationColumn where
  name : String
  flags : Nat
  dataType : Nat := 0
  typeModifier : Int := -1
  deriving DecidableEq, Repr

/-- The column is part of the replica identity. -/
def RelationColumn.isKey (c : RelationColumn) : Bool := c.flags == 1

/-- A relation message. `typed` says whether the type of every column is
known. -/
structure Relation where
  id : Nat
  schemaName : String
  relationName : String
  columns : List RelationColumn
  typed : Bool := true
  deriving DecidableEq, Repr

def Relation.table (rel : Relation) : TableIdentifier := ⟨rel.schemaName, rel.relationName⟩

def Relation.schema (rel : Relation) : Schema :=
  rel.columns.map (fun c => ⟨c.name, c.isKey, ⟨c.dataType, c.typeModifier⟩⟩)

/-- The old tuple of an UPDATE or DELETE: the replica identity columns, the
whole row, or nothing. -/
inductive OldTuple where
  | key (tuple : Tuple)
  | old (tuple : Tuple)
  | none
  deriving DecidableEq, Repr

inductive RowMessage where
  | insert (relation : Nat) (tuple : Tuple)
  | update (relation : Nat) (old : OldTuple) (new : Tuple)
  | delete (relation : Nat) (old : OldTuple)
  | truncate (relations : List Nat)
  deriving DecidableEq, Repr

/-- The messages of a pgoutput stream of protocol version 2. `other`
stands for the type, origin, logical decoding and unknown messages, which
are only logged. The xid of a row message is the (sub)transaction it
belongs to; it is sent inside a stream segment only. -/
inductive Message where
  | relation (rel : Relation)
  | begin (finalLSN : LSN)
  | commit (commitLSN : LSN)
  | row (xid : Nat) (m : RowMessage)
  | streamStart (xid : Nat)
  | streamStop
  | streamCommit (xid : Nat) (commitLSN : LSN)
  | streamAbort (xid subXid : Nat)
  | other
  deriving DecidableEq, Repr

/-! ## State -/

/-- What the replicator executes in DuckDB. A TRUNCATE is logged with the
LSN of the transaction it belongs to. -/
inductive Op where
  | flush (t : TableIdentifier) (a : DeltaAppender)
  | truncate (lsn : LSN) (t : TableIdentifier)
  | createTable (rel : Relation)
  | updateSubscriptionLsn (lsn : LSN)
  deriving DecidableEq, Repr

/-- `replicationState`, the session of its context, and whether the
connection to the source and the replication loop are up. -/
structure State where
  session : Session Op := {}
  lastWrittenLSN : LSN := 0
  currentTransactionLSN : LSN := 0
  lastCommitLSN : LSN := 0
  inStream : Bool := false
  processMessages : Bool := false
  relations : List (Nat × Relation) := []
  deltas : DeltaTables := []
  deltaBufSize : Nat := 0
  lastCommitTime : Nat := 0
  commitCount : Nat := 0
  ongoingBatchTxn : Bool := false
  dirtyTxn : Bool := false
  dirtyStream : Bool := false
  inTxnStmtID : Nat := 0
  connected : Bool := true
  running : Bool := true
  deriving DecidableEq, Repr

/-- The statements that fail in one step. -/
structure Faults where
  flush : TableIdentifier → Bool := fun _ => false
  createTable : Bool := false
  truncate : Bool := false

inductive ReplError where
  | unknownRelation (id : Nat)
  | unknownType
  | emptyTuple
  | cell
  | missingOldTuple
  | flush (e : FlushError)
  | statement
  deriving DecidableEq, Repr

abbrev Result := Outcome ReplError State

/-! ## Flush and commit -/

/-- Whether the current batch may be extended. Times are in milliseconds,
sizes in bytes. -/
def mayExtendBatchTxn (now : Nat) (s : State) : Bool × FlushReason :=
  if s.ongoingBatchTxn then
    if s.commitCount = 1 then (false, .init)
    else if now - s.lastCommitTime ≥ 200 then (false, .timeTick)
    else if s.deltaBufSize ≥ 128 * 2 ^ 20 then (false, .memoryLimit)
    else (true, .unknown)
  else (false, .unknown)

/-- `commitOngoingTxn` does nothing without an open transaction. When the
flush fails the transaction is rolled back. -/
def commitOngoingTxn (f : Faults) (now : Nat) (reason : FlushReason) (s : State) : Result :=
  match s.session.txn with
  | none => .ok s
  | some _ =>
    let r := Delta.flush true f.flush reason s.deltas
    match r.err with
    | some .panic => .panic
    | some e =>
      .error (.flush e)
        { s with session := s.session.rollback, deltas := r.tables, deltaBufSize := 0 }
    | none =>
      .ok { s with
        session := ((s.session.execAll (r.applied.map (fun e => Op.flush e.1 e.2))).exec
          (.updateSubscriptionLsn s.lastCommitLSN)).commit,
        deltas := r.tables, deltaBufSize := 0, ongoingBatchTxn := false, dirtyTxn := false,
        dirtyStream := false, inTxnStmtID := 0, lastCommitTime := now,
        lastWrittenLSN := s.lastCommitLSN }

def commitOngoingTxnIfClean (f : Faults) (now : Nat) (reason : FlushReason) (s : State) : Result :=
  if s.dirtyTxn && !s.dirtyStream then commitOngoingTxn f now reason s else .ok s

/-! ## Row messages -/

/-- The fields of a row of the delta and their size. With `onlyKeys` the
tuple is read from its front, one column for each key column. A tuple that
is too short is an index out of range. -/
def readTuple (onlyKeys : Bool) : List RelationColumn → Tuple → Outcome ReplError (Row × Nat)
  | [], _ => .ok ([], 0)
  | c :: cs, tuple =>
    if onlyKeys && !c.isKey then
      (readTuple onlyKeys cs tuple).andThen fun r => .ok (.null :: r.1, r.2)
    else match tuple with
      | [] => .panic
      | .null :: rest => (readTuple onlyKeys cs rest).andThen fun r => .ok (.null :: r.1, r.2)
      | .value v bytes :: rest =>
        (readTuple onlyKeys cs rest).andThen fun r => .ok (v :: r.1, bytes + r.2)
      | .bad :: _ => .error .cell ([], 0)
      | .unsupported :: _ => .error .cell ([], 0)

/-- The row of the delta view for a change of the current transaction. -/
def deltaRow (s : State) (action : RowEventType) (fields : Row) : DeltaRow :=
  ⟨action, none, some [], none, s.currentTransactionLSN, s.inTxnStmtID, fields⟩

/-- The state after a change of the appender of a relation. -/
def putAppender (rel : Relation) (a : DeltaAppender) (size : Nat) (s : State) : State :=
  { s with
    deltas := withAppender rel.table rel.schema (fun _ => a) s.deltas,
    deltaBufSize := s.deltaBufSize + size }

/-- `append`. An empty tuple stands for the unchanged key of an UPDATE,
which is only counted. -/
def append (id : Nat) (tuple : Tuple) (action event : RowEventType) (onlyKeys : Bool)
    (s : State) : Result :=
  match s.relations.lookup id with
  | none => .error (.unknownRelation id) s
  | some rel =>
    let a := getDeltaAppender rel.table rel.schema s.deltas
    if tuple = [] then
      if event = .update ∧ action = .delete then
        .ok (putAppender rel (a.observeEvents .update 1) 0 s)
      else .error .emptyTuple (putAppender rel a 0 s)
    else match readTuple onlyKeys rel.columns tuple with
      | .panic => .panic
      | .error e _ => .error e (putAppender rel a.tear 0 s)
      | .ok (fields, size) =>
        .ok (putAppender rel (((a.appendRow (deltaRow s action fields)).updateActionStats action
          1).observeEvents event 1) size s)

/-- The old tuple of an UPDATE. Without one the key is unchanged. -/
def appendOldOfUpdate (id : Nat) (old : OldTuple) (s : State) : Result :=
  match old with
  | .key tuple => append id tuple .delete .update true s
  | .old tuple => append id tuple .delete .update false s
  | .none => append id [] .delete .update true s

/-- The old tuple of a DELETE, which has to be there. -/
def appendOldOfDelete (id : Nat) (old : OldTuple) (s : State) : Result :=
  match old with
  | .key tuple => append id tuple .delete .delete true s
  | .old tuple => append id tuple .delete .delete false s
  | .none => .error .missingOldTuple s

/-- `flushDeltaBuffer` as a TRUNCATE message calls it: without a
transaction, and with its error dropped. -/
def flushWithoutTxn (s : State) : State :=
  { s with
    deltas := (Delta.flush false (fun _ => false) .dmlStmt s.deltas).tables, deltaBufSize := 0 }

/-- `truncate` runs in the open transaction, or opens one. -/
def truncate (f : Faults) (id : Nat) (s : State) : Result :=
  match s.relations.lookup id with
  | none => .error (.unknownRelation id) s
  | some rel =>
    if f.truncate then .error .statement { s with session := s.session.getTxn }
    else .ok { s with
      session := s.session.getTxn.exec (.truncate s.currentTransactionLSN rel.table) }

def truncateAll (f : Faults) : List Nat → State → Result
  | [], s => .ok s
  | id :: ids, s => (truncate f id s).andThen (truncateAll f ids)

def markDirty (s : State) : State :=
  { s with dirtyTxn := true, dirtyStream := true, inTxnStmtID := s.inTxnStmtID + 1 }

def processRow (f : Faults) (m : RowMessage) (s : State) : Result :=
  match m with
  | .insert id tuple =>
    (append id tuple .insert .insert false s).andThen fun s => .ok (markDirty s)
  | .update id old new =>
    (appendOldOfUpdate id old s).andThen fun s =>
      (append id new .insert .update false s).andThen fun s => .ok (markDirty s)
  | .delete id old => (appendOldOfDelete id old s).andThen fun s => .ok (markDirty s)
  | .truncate ids => (truncateAll f ids (flushWithoutTxn s)).andThen fun s => .ok (markDirty s)

/-! ## Messages -/

/-- The relation is registered and its table created. -/
def registerRelation (f : Faults) (rel : Relation) (s : State) : Result :=
  let s := { s with relations := (rel.id, rel) :: s.relations }
  if !rel.typed then .error .unknownType s
  else if f.createTable then .error .statement s
  else .ok { s with session := s.session.exec (.createTable rel) }

/-- A relation that is already known has a new schema: commit first. -/
def processRelation (f : Faults) (now : Nat) (rel : Relation) (s : State) : Result :=
  if (s.relations.lookup rel.id).isSome then
    (commitOngoingTxn f now .ddlStmt s).andThen (registerRelation f rel)
  else registerRelation f rel s

/-- A transaction that ended before the last written one is skipped. -/
def processBegin (f : Faults) (now : Nat) (finalLSN : LSN) (s : State) : Result :=
  if s.lastWrittenLSN > finalLSN then .ok { s with processMessages := false }
  else
    let s := { s with processMessages := true, currentTransactionLSN := finalLSN }
    let (extend, reason) := mayExtendBatchTxn now s
    if extend then .ok s
    else (commitOngoingTxn f now reason s).andThen fun s =>
      .ok { s with session := s.session.getTxn, ongoingBatchTxn := true }

def processCommit (f : Faults) (now : Nat) (commitLSN : LSN) (s : State) : Result :=
  let s := { s with lastCommitLSN := commitLSN, commitCount := s.commitCount + 1 }
  let (extend, reason) := mayExtendBatchTxn now s
  (if extend then .ok s else commitOngoingTxn f now reason s).andThen fun s =>
    .ok { s with dirtyStream := false, inTxnStmtID := 0, processMessages := false }

def processMessage (f : Faults) (now : Nat) (m : Message) (s : State) : Result :=
  match m with
  | .relation rel => processRelation f now rel s
  | .begin finalLSN => processBegin f now finalLSN s
  | .commit commitLSN => processCommit f now commitLSN s
  | .row _ m => if s.processMessages then processRow f m s else .ok s
  | .streamStart _ => .ok { s with inStream := true }
  | .streamStop => .ok { s with inStream := false }
  | .streamCommit _ _ => .ok s
  | .streamAbort _ _ => .ok s
  | .other => .ok s

/-! ## The replication loop -/

inductive Input where
  | message (now : Nat) (f : Faults) (m : Message)
  | tick (now : Nat) (f : Faults)
  | stop (now : Nat) (f : Faults)
  | reconnect (now : Nat)

/-- The process ends; the open transaction goes with it. -/
def crash (s : State) : State := { s with session := s.session.rollback, running := false }

/-- `shutdown`: a clean batch is committed, anything else rolled back. -/
def shutdown (f : Faults) (now : Nat) (s : State) : State :=
  crash (((commitOngoingTxnIfClean f now .onClose s).state?).getD s)

/-- The state of a new connection: `rollback`, and `reset` at the last
written LSN. -/
def reset (now : Nat) (s : State) : State where
  session := s.session.rollback
  lastWrittenLSN := s.lastWrittenLSN
  lastCommitLSN := s.lastWrittenLSN
  lastCommitTime := now

/-- The state in which `StartReplication` enters the loop. -/
def State.started (lsn : LSN) (now : Nat) : State := reset now { lastWrittenLSN := lsn }

/-- One turn of the loop. An error of `processMessage` closes the
connection, an error of the tick ends the loop. -/
def handle (s : State) (i : Input) : State :=
  if !s.running then s
  else match i with
    | .message now f m =>
      if !s.connected then s
      else match processMessage f now m s with
        | .ok s' => s'
        | .error _ s' => { s' with connected := false }
        | .panic => crash s
    | .tick now f =>
      if !s.connected then s
      else if now - s.lastCommitTime > 200 then
        match commitOngoingTxnIfClean f now .timeTick s with
        | .ok s' => s'
        | .error _ s' => shutdown f now s'
        | .panic => crash s
      else s
    | .stop now f => shutdown f now s
    | .reconnect now => reset now s

end MyDuck.Logrepl
