/-
MyDuck.Binlog.Applier — the MySQL binlog applier of
binlogreplication/binlog_replica_applier.go as a state machine.

A state is the applier's own fields together with the delta controller's
map and the DuckDB session of the applier. An input is what the select
loop of `replicaBinlogEventHandler` can take next: a binlog event, a tick
of the 200 ms ticker, the stop signal, or a lost connection followed by a
successful reconnect. Every input carries the time at which it is handled
and the faults the environment injects while it is; the loop logs the
error of an event and goes on with the next input, so `handle` keeps the
state an error leaves.

The session logs operations (`Op`): the statements of `updateTable` for
one buffered table, one statement of the table writer, a query of the
stream, an upsert of the position. Getting a connection, the position
upsert and `COMMIT` are assumed to succeed. `BEGIN` through the engine
commits whatever transaction the session has open.
-/
import MyDuck.Binlog.Events

namespace MyDuck.Binlog

open MyDuck.Delta

/-! ## Operations of the session -/

/-- One statement of the table writer: the event it comes from, the
columns present, and the parsed images. -/
structure RowWrite where
  table : TableIdentifier
  event : RowEventType
  identifyColumns : List Bool
  dataColumns : List Bool
  before : Row
  after : Row
  deriving DecidableEq, Repr

/-- What the session executes. The GTID of a write and of a query is the
applier's current GTID at that moment; a flushed row carries it in its
stamp. -/
inductive Op where
  | flush (t : TableIdentifier) (a : DeltaAppender)
  | write (gtid : Option Gtid) (w : RowWrite)
  | query (gtid : Option Gtid) (q : Query)
  | savePosition (p : Position)
  deriving DecidableEq

def Op.saved? : Op → Option Position
  | .savePosition p => some p
  | _ => none

/-- The position `positionStore.Load` finds: the last one saved. -/
def lastSaved (ops : List Op) : Option Position := (ops.filterMap Op.saved?).getLast?

/-! ## State -/

/-- A table as the catalog describes it. -/
structure TableInfo where
  name : String
  schema : Schema
  deriving DecidableEq, Repr

structure Applier where
  tableMapsById : List (Nat × TableMap) := []
  tablesByName : List (TableIdentifier × TableInfo) := []
  currentGtid : Option Gtid := none
  previousGtid : Option Gtid := none
  currentPosition : Position := none
  pendingPosition : Position := none
  ongoingBatchTxn : Bool := false
  dirtyTxn : Bool := false
  dirtyStream : Bool := false
  inTxnStmtID : Nat := 0
  deltaBufSize : Nat := 0
  lastCommitTime : Nat := 0
  running : Bool := true
  deltas : DeltaTables := []
  session : Session Op := {}
  deriving DecidableEq

/-- What the applier is given: the replication filters, what the catalog
answers after the operations executed so far, and the position to start
from when none is saved. -/
structure Env where
  isTableFilteredOut : TableMap → Bool
  catalog : List Op → TableIdentifier → Option TableInfo
  initial : Position

/-- The faults injected while one input is handled: `PrepareQuery` or the
execution of the query fails, the table writer fails after a number of
rows, the flush of a table fails. -/
structure Faults where
  prepare : Bool := false
  execute : Bool := false
  write : Option Nat := none
  flush : TableIdentifier → Bool := fun _ => false

inductive ApplierError where
  | flush (e : FlushError)
  | emptyPosition
  | prepare
  | execute
  | noTableMap (id : Nat)
  | rows
  | noTable (name : String)
  | schemaMismatch (expected got : Nat)
  | cell
  | write
  | unknownEvent (typeByte : UInt8)
  deriving DecidableEq, Repr

inductive CommitKind where
  | normalCommit
  | implicitCommitBeforeStmt
  | implicitCommitAfterStmt
  deriving DecidableEq, Repr

abbrev Result := Outcome ApplierError Applier

/-! ## Flush and commit -/

/-- `flushDeltaBuffer` opens a transaction when there is none, and rolls
it back when the flush fails. -/
def flushDeltaBuffer (f : Faults) (reason : FlushReason) (a : Applier) : Result :=
  let s := a.session.getTxn
  let r := Delta.flush true f.flush reason a.deltas
  match r.err with
  | none =>
    .ok { a with
      session := s.execAll (r.applied.map (fun e => Op.flush e.1 e.2)),
      deltas := r.tables, deltaBufSize := 0 }
  | some .panic => .panic
  | some e =>
    .error (.flush e) { a with session := s.rollback, deltas := r.tables, deltaBufSize := 0 }

/-- The part of `commitOngoingTxn` after the flush: save the position,
commit, reset the flags. -/
def saveAndCommit (now : Nat) (kind : CommitKind) (a : Applier) : Result :=
  let pending := if kind = .implicitCommitBeforeStmt then a.pendingPosition
    else a.pendingPosition.appendGTID a.currentGtid
  if pending = none then .error .emptyPosition { a with pendingPosition := pending }
  else .ok { a with
    pendingPosition := pending,
    session := (a.session.exec (.savePosition pending)).commit,
    ongoingBatchTxn := false, dirtyTxn := false, dirtyStream := false, inTxnStmtID := 0,
    lastCommitTime := now, currentPosition := pending }

def commitOngoingTxn (f : Faults) (now : Nat) (kind : CommitKind) (reason : FlushReason)
    (a : Applier) : Result :=
  (flushDeltaBuffer f reason a).andThen (saveAndCommit now kind)

/-- A batched transaction is committed every 200 ms, and when the delta
buffer has reached 128 MiB. -/
def mayExtendBatchTxn (now : Nat) (a : Applier) : Bool × FlushReason :=
  if a.ongoingBatchTxn then
    if now - a.lastCommitTime ≥ 200 then (false, .timeTick)
    else if a.deltaBufSize ≥ 128 * 2 ^ 20 then (false, .memoryLimit)
    else (true, .unknown)
  else (false, .unknown)

def extendOrCommitBatchTxn (f : Faults) (now : Nat) (a : Applier) : Result :=
  let e := mayExtendBatchTxn now a
  if e.1 then
    .ok { a with
      pendingPosition := a.pendingPosition.appendGTID a.currentGtid, dirtyStream := false }
  else commitOngoingTxn f now .normalCommit e.2 a

/-! ## Queries -/

def execute (q : Query) (a : Applier) : Session Op :=
  match q.node with
  | .startTransaction => a.session.commit.getTxn
  | _ => a.session.exec (.query a.currentGtid q)

/-- The last part of `executeQueryWithEngine`: execute the query, mark the
transaction and the stream dirty, and commit after the statements that
commit implicitly. -/
def executeAndCommit (f : Faults) (now : Nat) (q : Query) (reason : FlushReason) (a : Applier) :
    Result :=
  if f.execute then .error .execute a
  else
    let a := { a with
      session := execute q a, dirtyTxn := true, dirtyStream := true,
      ongoingBatchTxn := decide (q.node = .startTransaction) }
    if causeImplicitCommitAfter q.node then
      commitOngoingTxn f now .implicitCommitAfterStmt reason a
    else .ok a

/-- `executeQueryWithEngine` after the node was classified. -/
def runStatement (f : Faults) (now : Nat) (q : Query) (implicitCommit flushChangelog : Bool)
    (reason : FlushReason) (a : Applier) : Result :=
  ((if flushChangelog then flushDeltaBuffer f reason a else .ok a).andThen fun a =>
    if implicitCommit && a.dirtyTxn then commitOngoingTxn f now .implicitCommitBeforeStmt reason a
    else .ok a).andThen (executeAndCommit f now q reason)

def executeQueryWithEngine (f : Faults) (now : Nat) (q : Query) (a : Applier) : Result :=
  if q.skipsTimeZone then commitOngoingTxn f now .implicitCommitAfterStmt .dmlStmt a
  else if f.prepare then .error .prepare a
  else match q.node with
    | .startTransaction =>
      let e := mayExtendBatchTxn now a
      if e.1 then
        .ok { a with
          pendingPosition := a.pendingPosition.appendGTID a.previousGtid, dirtyStream := true }
      else runStatement f now q true true e.2 a
    | .commit => extendOrCommitBatchTxn f now a
    | .insertInto | .update | .deleteFrom | .loadData =>
      runStatement f now q false true .dmlStmt a
    | node =>
      let before := causeImplicitCommitBefore node
      if causeSchemaChange node then
        runStatement f now q before before .ddlStmt { a with tablesByName := [] }
      else runStatement f now q before before .unknown a

/-! ## Row events -/

/-- `strings.ToLower`. -/
def toLower (s : String) : String := String.ofList (s.toList.map Char.toLower)

def TableMap.cacheKey (m : TableMap) : TableIdentifier := ⟨toLower m.database, toLower m.name⟩

/-- `getTableSchema`: the cache, then the catalog. -/
def getTableSchema (env : Env) (m : TableMap) (a : Applier) : Option TableInfo :=
  match a.tablesByName.lookup m.cacheKey with
  | some info => some info
  | none => env.catalog a.session.working ⟨m.database, m.name⟩

/-- The cache after `getTableSchema` found a table. -/
def cacheTable (m : TableMap) (info : TableInfo) (a : Applier) : Applier :=
  match a.tablesByName.lookup m.cacheKey with
  | some _ => a
  | none => { a with tablesByName := (m.cacheKey, info) :: a.tablesByName }

/-- What `processRowEvent` finds out before it applies any row. -/
inductive RowPlan where
  | fail (e : ApplierError)
  | skip
  | resolved (m : TableMap) (info : TableInfo)
  deriving DecidableEq, Repr

def planRowEvent (env : Env) (e : RowsEvent) (a : Applier) : RowPlan :=
  match a.tableMapsById.lookup e.tableId with
  | none => .fail (.noTableMap e.tableId)
  | some m =>
    if m.database = "mysql" then .skip
    else if env.isTableFilteredOut m then .skip
    else if !e.parses then .fail .rows
    else match getTableSchema env m a with
      | none => .fail (.noTable m.name)
      | some info => .resolved m info

/-- The result of appending images to an appender. -/
structure Appended where
  appender : DeltaAppender
  size : Nat := 0
  ok : Bool := true

/-- The loop over the rows: decode the image, append the row. A cell that
does not decode ends the call in the middle of the row. -/
def appendImages (mk : Row → DeltaRow) : List Image → Appended → Appended
  | [], r => r
  | im :: ims, r =>
    match im.decode with
    | some row =>
      appendImages mk ims
        { r with appender := r.appender.appendRow (mk row), size := r.size + im.bytes }
    | none => { r with appender := r.appender.tear, ok := false }

def deltaRow (stamp : TxnStamp) (stmt : Nat) (action : RowEventType) (row : Row) : DeltaRow :=
  ⟨action, stamp.tag, stamp.server, stamp.group, stamp.seq, stmt, row⟩

/-- One of the two loops of `appendRowFormatChanges`, with its
`UpdateActionStats`. -/
def appendPhase (stamp : TxnStamp) (stmt : Nat) (action : RowEventType) (images : List Image)
    (r : Appended) : Appended :=
  let r := appendImages (deltaRow stamp stmt action) images r
  if r.ok then { r with appender := r.appender.updateActionStats action images.length } else r

/-- The appender after `appendRowFormatChanges`: first all before images,
then all after images, all with one stamp. -/
def appendEvent (stamp : TxnStamp) (stmt : Nat) (event : RowEventType) (rows : List RowImage)
    (appender : DeltaAppender) : Appended :=
  let r : Appended := { appender := appender }
  let r := if event = .insert then r
    else appendPhase stamp stmt .delete (rows.map RowImage.identify) r
  if !r.ok then r
  else
    let r := if event = .delete then r
      else appendPhase stamp stmt .insert (rows.map RowImage.data) r
    if !r.ok then r
    else { r with appender := r.appender.observeEvents event rows.length }

def appendRowFormatChanges (t : TableIdentifier) (schema : Schema) (e : RowsEvent)
    (a : Applier) : Result :=
  let r := appendEvent (stampOf a.currentGtid) a.inTxnStmtID e.event e.rows
    (getDeltaAppender t schema a.deltas)
  let a := { a with
    deltas := withAppender t schema (fun _ => r.appender) a.deltas,
    deltaBufSize := a.deltaBufSize + r.size }
  if r.ok then .ok a else .error .cell a

/-- The statements of the table writer for the rows of an event, when all
images parse. -/
def rowWrites (t : TableIdentifier) (e : RowsEvent) : Option (List RowWrite) :=
  e.rows.mapM fun r => do
    let before ← r.identify.parseRow e.identifyColumns
    let after ← r.data.parseRow e.dataColumns
    return ⟨t, e.event, e.identifyColumns, e.dataColumns, before, after⟩

/-- `writeChanges`: parse all rows, then execute one statement a row in
the open transaction. -/
def writeChanges (f : Faults) (t : TableIdentifier) (e : RowsEvent) (a : Applier) : Result :=
  match rowWrites t e with
  | none => .error .cell a
  | some ws =>
    let s := a.session.getTxn
    match f.write with
    | none => .ok { a with session := s.execAll (ws.map (Op.write a.currentGtid)) }
    | some k =>
      .error .write { a with session := s.execAll ((ws.take k).map (Op.write a.currentGtid)) }

def processRowEvent (env : Env) (f : Faults) (e : RowsEvent) (a : Applier) : Result :=
  match planRowEvent env e a with
  | .fail err => .error err a
  | .skip => .ok a
  | .resolved m info =>
    let a := cacheTable m info a
    let t : TableIdentifier := ⟨m.database, info.name⟩
    if m.columns ≠ info.schema.length then
      .error (.schemaMismatch info.schema.length m.columns) a
    else if e.isRowFormat info.schema.length && hasPrimaryKey info.schema then
      appendRowFormatChanges t info.schema e a
    else writeChanges f t e { a with ongoingBatchTxn := false }

/-! ## Events -/

/-- `inTxnStmtID.Add(1)`. -/
def nextStmt (a : Applier) : Applier := { a with inTxnStmtID := a.inTxnStmtID + 1 }

/-- A query event: the error of the query is logged, not returned. -/
def processQuery (f : Faults) (now : Nat) (q : Query) (a : Applier) : Result :=
  match executeQueryWithEngine f now q a with
  | .ok a => .ok (nextStmt a)
  | .error _ a => .ok (nextStmt a)
  | .panic => .panic

def processBinlogEvent (env : Env) (f : Faults) (now : Nat) (e : Event) (a : Applier) : Result :=
  match e with
  | .xid => extendOrCommitBatchTxn f now a
  | .query q => processQuery f now q a
  | .rotate => if a.currentGtid.isSome then extendOrCommitBatchTxn f now a else .ok a
  | .gtid g isBegin =>
    let a := { a with previousGtid := a.currentGtid, currentGtid := some g }
    if isBegin then executeQueryWithEngine f now Query.begin a else .ok a
  | .tableMap id m =>
    if id = 0xFFFFFF then .ok { a with tableMapsById := [] }
    else .ok { a with tableMapsById := (id, m) :: a.tableMapsById }
  | .rows e =>
    (processRowEvent env f e a).andThen fun a =>
      .ok (nextStmt { a with dirtyTxn := true, dirtyStream := true })
  | .unknown b => .error (.unknownEvent b) a
  | .rand | .formatDescription | .previousGTIDs | .heartbeat | .stop | .mariadbMarker => .ok a

/-! ## The event loop -/

/-- `startReplicationEventStream`: the position is loaded, the in-memory
state is cleared and the delta buffer discarded. -/
def startReplicationEventStream (env : Env) (now : Nat) (a : Applier) : Applier :=
  let position := (lastSaved a.session.working).getD env.initial
  { a with
    currentPosition := position, pendingPosition := position, previousGtid := none,
    currentGtid := none, ongoingBatchTxn := false, dirtyTxn := false, dirtyStream := false,
    inTxnStmtID := 0, lastCommitTime := now, deltas := [], deltaBufSize := 0 }

inductive Input where
  | event (now : Nat) (f : Faults) (e : Event)
  | tick (now : Nat) (f : Faults)
  | stop (now : Nat) (f : Faults)
  | reconnect (now : Nat)

/-- A panic ends the process: the open transaction is gone. -/
def crash (a : Applier) : Applier := { a with running := false, session := a.session.rollback }

/-- The loop logs an error and goes on with the state the error left. -/
def logged (a : Applier) (r : Result) : Applier := r.state?.getD (crash a)

/-- The tick and the stop signal commit only a batch whose stream ends
with a commit. -/
def batchIsClean (a : Applier) : Bool := a.ongoingBatchTxn && !a.dirtyStream

/-- One turn of the select loop of `replicaBinlogEventHandler`. -/
def handle (env : Env) (a : Applier) (i : Input) : Applier :=
  if a.running then
    match i with
    | .event now f e => logged a (processBinlogEvent env f now e a)
    | .tick now f => if batchIsClean a then logged a (extendOrCommitBatchTxn f now a) else a
    | .stop now f =>
      { (if batchIsClean a then logged a (commitOngoingTxn f now .normalCommit .onClose a) else a)
        with running := false }
    | .reconnect now => startReplicationEventStream env now a
  else a

/-- The applier when it first starts, on a replica that has no saved
position. -/
def Applier.started (env : Env) (now : Nat) : Applier := startReplicationEventStream env now {}

end MyDuck.Binlog
