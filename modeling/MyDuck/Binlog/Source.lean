/-
MyDuck.Binlog.Source — the source side of a binlog stream, as an observer
of the inputs of the applier.

`Source` follows the stream and knows which transactions have ended, in
order, and which one is being sent. It runs in lockstep with the applier
(`Replica.step`) and never influences it. What a transaction changes is a
list of `Change`s; `changesOf` reads the changes back out of what the
session executed. A change is tagged with the stamp of its transaction,
so that "the committed data contains exactly these transactions" is an
equation between two bags of tagged changes.

On a reconnect the source resends everything that is not in the saved
position: the transactions outside it count as not sent.
-/
import MyDuck.Base.Run
import MyDuck.Binlog.Applier

namespace MyDuck.Binlog

open MyDuck.Delta

/-! ## Changes -/

/-- One change a transaction makes: a row that goes through the delta
buffer, a row written directly, a statement, or a row that cannot be
decoded or resolved, which nothing executed stands for. -/
inductive Change where
  | row (t : TableIdentifier) (action : RowEventType) (fields : Row)
  | write (w : RowWrite)
  | stmt (q : Query)
  | failed
  deriving DecidableEq, Repr

/-- A change of rows: not a DDL or administrative statement. -/
def Change.ofRows : Change → Bool
  | .stmt q => q.node.isDML
  | _ => true

abbrev Changes := Multiset (TxnStamp × Change)

/-- The transaction a buffered row belongs to. -/
def rowTxn (r : DeltaRow) : TxnStamp := ⟨r.txnTag, r.txnServer, r.txnGroup, r.txnSeq⟩

def rowsChanges (t : TableIdentifier) (rows : List DeltaRow) : List (TxnStamp × Change) :=
  rows.map (fun r => (rowTxn r, .row t r.action r.fields))

def opChanges : Op → List (TxnStamp × Change)
  | .flush t a => rowsChanges t a.rows
  | .write g w => [(stampOf g, .write w)]
  | .query g q => [(stampOf g, .stmt q)]
  | .savePosition _ => []

def changesOf (ops : List Op) : Changes := (ops.flatMap opChanges : List (TxnStamp × Change))

def bufferChanges (tables : DeltaTables) : Changes :=
  (tables.flatMap (fun e => rowsChanges e.1 e.2.rows) : List (TxnStamp × Change))

/-- What a row event changes, given how the applier resolves its table. -/
def imageChanges (t : TableIdentifier) (action : RowEventType) (images : List Image) :
    List Change :=
  images.map fun im =>
    match im.decode with
    | some row => .row t action row
    | none => .failed

def eventChanges (t : TableIdentifier) (event : RowEventType) (rows : List RowImage) :
    List Change :=
  (if event = .insert then [] else imageChanges t .delete (rows.map RowImage.identify)) ++
    (if event = .delete then [] else imageChanges t .insert (rows.map RowImage.data))

def rowChanges (env : Env) (a : Applier) (e : RowsEvent) : List Change :=
  match planRowEvent env e a with
  | .fail _ => [.failed]
  | .skip => []
  | .resolved m info =>
    if m.columns ≠ info.schema.length then [.failed]
    else if e.isRowFormat info.schema.length && hasPrimaryKey info.schema then
      eventChanges ⟨m.database, info.name⟩ e.event e.rows
    else match rowWrites ⟨m.database, info.name⟩ e with
      | none => [.failed]
      | some ws => ws.map .write

/-! ## The source -/

inductive QueryKind where
  | begin
  | commit
  | dml
  | standalone
  deriving DecidableEq, Repr

/-- A DDL statement is a transaction of its own. -/
def Query.kind (q : Query) : QueryKind :=
  if q.skipsTimeZone then .standalone
  else match q.node with
    | .startTransaction => .begin
    | .commit => .commit
    | node => if node.isDML then .dml else .standalone

structure SrcTxn where
  gtid : Gtid
  changes : List Change
  deriving DecidableEq, Repr

/-- Changes tagged with the stamp of a GTID. -/
def tag (g : Option Gtid) (cs : List Change) : Changes :=
  (cs.map (fun c => (stampOf g, c)) : List (TxnStamp × Change))

def SrcTxn.tagged (t : SrcTxn) : Changes := tag (some t.gtid) t.changes

def taggedAll (ts : List SrcTxn) : Changes := (ts.map SrcTxn.tagged).sum

/-- The transaction being sent: its GTID event has arrived, and `begun`
says whether its `BEGIN` has. -/
structure OpenTxn where
  txn : SrcTxn
  begun : Bool
  deriving DecidableEq, Repr

def OpenTxn.add (cs : List Change) (o : OpenTxn) : OpenTxn :=
  { o with txn.changes := o.txn.changes ++ cs }

/-- The transactions sent on this connection or contained in the position
it started from, in order; `log` also keeps those that have to be sent
again. -/
structure Source where
  ended : List SrcTxn := []
  log : List SrcTxn := []
  current : Option OpenTxn := none
  deriving DecidableEq, Repr

namespace Source

def begin (s : Source) : Source :=
  { s with current := s.current.map (fun o => { o with begun := true }) }

def add (cs : List Change) (s : Source) : Source :=
  { s with current := s.current.map (OpenTxn.add cs) }

def finish (s : Source) : Source :=
  match s.current with
  | none => s
  | some o => { ended := s.ended ++ [o.txn], log := s.log ++ [o.txn], current := none }

/-- A statement that the applier skips changes nothing. -/
def onQuery (q : Query) (s : Source) : Source :=
  match q.kind with
  | .begin => s.begin
  | .commit => s.finish
  | .dml => s.add [.stmt q]
  | .standalone => if q.skipsTimeZone then s.finish else (s.add [.stmt q]).finish

def onEvent (env : Env) (a : Applier) (e : Event) (s : Source) : Source :=
  match e with
  | .gtid g isBegin => { s with current := some ⟨⟨g, []⟩, isBegin⟩ }
  | .query q => s.onQuery q
  | .xid => s.finish
  | .rows e => s.add (rowChanges env a e)
  | _ => s

/-- The position from which the source is asked to send. -/
def loaded (env : Env) (a : Applier) : Position := (lastSaved a.session.working).getD env.initial

def onInput (env : Env) (a : Applier) (i : Input) (s : Source) : Source :=
  if a.running then
    match i with
    | .event _ _ e => s.onEvent env a e
    | .reconnect _ =>
      { s with ended := s.ended.filter (fun t => (loaded env a).contains t.gtid), current := none }
    | _ => s
  else s

/-- The transaction being sent has the event's part of its body open. -/
def isBegun (s : Source) : Bool := s.current.any OpenTxn.begun

def isPending (s : Source) : Bool := s.current.any (fun o => !o.begun)

/-- An event that a MySQL source in GTID mode can send next: a GTID it has
not sent and that is not in the starting position; `BEGIN`, rows and
statements, and a commit, in this order; or one DDL statement. -/
def Sends (start : Position) (s : Source) (e : Event) : Prop :=
  match e with
  | .gtid g isBegin => s.current = none ∧ isBegin = false ∧ start.contains g = false ∧
      g ∉ s.ended.map SrcTxn.gtid ∧ g.isMysql56 = true
  | .query q =>
    match q.kind with
    | .begin | .standalone => s.isPending = true
    | .commit | .dml => s.isBegun = true
  | .xid | .rows _ | .tableMap _ _ => s.isBegun = true
  | .rotate | .formatDescription | .previousGTIDs | .stop => s.current = none
  | .rand | .heartbeat | .mariadbMarker => True
  | .unknown _ => False

instance (start : Position) (s : Source) (e : Event) : Decidable (Sends start s e) := by
  unfold Sends
  split
  case h_2 q => split <;> infer_instance
  all_goals infer_instance

end Source

/-! ## The applier and the source in lockstep -/

structure Replica where
  applier : Applier
  source : Source := {}

namespace Replica

def step (env : Env) (r : Replica) (i : Input) : Replica :=
  ⟨handle env r.applier i, r.source.onInput env r.applier i⟩

def start (env : Env) (now : Nat) : Replica := { applier := Applier.started env now }

def durable (r : Replica) : Changes := changesOf r.applier.session.durable.flatten

end Replica

end MyDuck.Binlog
