/-
MyDuck.Logrepl.Source — the PostgreSQL source of a pgoutput stream, as an
observer of the inputs of the replicator.

`Source` follows the stream and knows which transactions have committed,
with their commit LSNs and changes, which one is being sent, and what the
streamed transactions in progress have sent. It runs in lockstep with the
replicator (`Replica.step`) and never influences it. A change is tagged
with the commit LSN of its transaction, and `changesOf` reads tagged
changes back out of what the session executed.

A new connection starts after the last written LSN: transactions behind it
count as not sent. A transaction that ended before it can be sent again,
and does not end a second time.
-/
import MyDuck.Base.Run
import MyDuck.Delta.BufferTheorems
import MyDuck.Logrepl.Replicator

namespace MyDuck.Logrepl

open MyDuck.Delta

/-! ## Changes -/

/-- One change of a transaction, as the replicator reads it; `failed`
stands for a message it cannot read. -/
inductive Change where
  | row (t : TableIdentifier) (action : RowEventType) (fields : Row)
  | truncate (t : TableIdentifier)
  | failed
  deriving DecidableEq, Repr

abbrev Changes := Multiset (LSN × Change)

/-- The tagged change a buffered row stands for. -/
def rowChange (e : TableIdentifier × DeltaRow) : LSN × Change :=
  (e.2.txnSeq, .row e.1 e.2.action e.2.fields)

def opChanges : Op → Changes
  | .flush t a => (a.rows : Multiset DeltaRow).map (fun r => rowChange (t, r))
  | .truncate lsn t => {(lsn, .truncate t)}
  | .createTable _ => 0
  | .updateSubscriptionLsn _ => 0

def changesOf (ops : List Op) : Changes := (ops.map opChanges).sum

def bufferChanges (tables : DeltaTables) : Changes := (allRows tables).map rowChange

def tupleChanges (s : State) (id : Nat) (tuple : Tuple) (action : RowEventType)
    (onlyKeys : Bool) : List Change :=
  if tuple = [] then [.failed]
  else match s.relations.lookup id with
    | none => [.failed]
    | some rel =>
      match readTuple onlyKeys rel.columns tuple with
      | .ok r => [.row rel.table action r.1]
      | .error _ _ => [.failed]
      | .panic => [.failed]

/-- What the old tuple of an UPDATE removes. -/
def oldChanges (s : State) (id : Nat) : OldTuple → List Change
  | .key tuple => if tuple = [] then [] else tupleChanges s id tuple .delete true
  | .old tuple => if tuple = [] then [] else tupleChanges s id tuple .delete false
  | .none => []

def truncateChange (s : State) (id : Nat) : Change :=
  match s.relations.lookup id with
  | none => .failed
  | some rel => .truncate rel.table

/-- The relation whose rows a message appends. -/
def RowMessage.relation? : RowMessage → Option Nat
  | .insert id _ => some id
  | .update id _ _ => some id
  | .delete id _ => some id
  | .truncate _ => none

def rowChanges (s : State) : RowMessage → List Change
  | .insert id tuple => tupleChanges s id tuple .insert false
  | .update id old new => oldChanges s id old ++ tupleChanges s id new .insert false
  | .delete id (.key tuple) => tupleChanges s id tuple .delete true
  | .delete id (.old tuple) => tupleChanges s id tuple .delete false
  | .delete _ .none => [.failed]
  | .truncate ids => ids.map (truncateChange s)

/-! ## The source -/

structure Txn where
  lsn : LSN
  changes : List Change
  deriving DecidableEq, Repr

def tag (lsn : LSN) (cs : List Change) : Changes := (cs : Multiset Change).map (fun c => (lsn, c))

def Txn.tagged (t : Txn) : Changes := tag t.lsn t.changes

def taggedAll (ts : List Txn) : Changes := (ts.map Txn.tagged).sum

/-- `ended` has the transactions that committed after the LSN the
replicator started from, `log` has all that was sent between a `Begin` and
a `Commit`, also a second time and on connections that broke. `streams`
has the changes of the streamed transactions in progress, each with the
xid of its (sub)transaction; `segment` is the transaction of the open
segment. -/
structure Source where
  origin : LSN := 0
  last : LSN := 0
  ended : List Txn := []
  log : List Txn := []
  current : Option Txn := none
  segment : Option Nat := none
  streams : List (Nat × List (Nat × Change)) := []
  deriving DecidableEq, Repr

namespace Source

/-- Changes of the transaction being sent. -/
def add (cs : List Change) (src : Source) : Source :=
  { src with current := src.current.map fun t => { t with changes := t.changes ++ cs } }

/-- The transactions that ended, with one more unless it is an old one. -/
def endedWith (t : Txn) (src : Source) : List Txn :=
  if src.origin < t.lsn then src.ended ++ [t] else src.ended

def finish (src : Source) : Source :=
  match src.current with
  | none => src
  | some t => { src with ended := src.endedWith t, log := src.log ++ [t], current := none }

/-- What a streamed transaction has sent so far. -/
def streamed (xid : Nat) (src : Source) : List (Nat × Change) := (src.streams.lookup xid).getD []

def setStream (xid : Nat) (rows : List (Nat × Change)) (src : Source) : Source :=
  { src with streams := (xid, rows) :: src.streams.filter (fun e => e.1 ≠ xid) }

def dropStream (xid : Nat) (src : Source) : Source :=
  { src with streams := src.streams.filter (fun e => e.1 ≠ xid) }

/-- The changes of a streamed transaction that are left at its commit. -/
def streamedTxn (xid : Nat) (lsn : LSN) (src : Source) : Txn :=
  ⟨lsn, (src.streamed xid).map Prod.snd⟩

def onRow (s : State) (xid : Nat) (m : RowMessage) (src : Source) : Source :=
  match src.segment with
  | some top => src.setStream top (src.streamed top ++ (rowChanges s m).map (fun c => (xid, c)))
  | none => src.add (rowChanges s m)

def onStreamCommit (xid : Nat) (lsn : LSN) (src : Source) : Source :=
  { src.dropStream xid with last := lsn, ended := src.endedWith (src.streamedTxn xid lsn) }

/-- The abort of a streamed transaction, or of one of its
subtransactions. -/
def onStreamAbort (xid subXid : Nat) (src : Source) : Source :=
  if subXid = xid then src.dropStream xid
  else src.setStream xid ((src.streamed xid).filter (fun r => r.1 ≠ subXid))

def onMessage (s : State) (m : Message) (src : Source) : Source :=
  match m with
  | .relation _ => src
  | .begin lsn => { src with current := some ⟨lsn, []⟩, last := lsn }
  | .commit _ => src.finish
  | .row xid m => src.onRow s xid m
  | .streamStart xid => { src.setStream xid (src.streamed xid) with segment := some xid }
  | .streamStop => { src with segment := none }
  | .streamCommit xid lsn => src.onStreamCommit xid lsn
  | .streamAbort xid subXid => src.onStreamAbort xid subXid
  | .other => src

/-- A new connection: what is behind the last written LSN will be sent
again. -/
def restart (s : State) (src : Source) : Source where
  origin := s.lastWrittenLSN
  ended := src.ended.filter (fun t => t.lsn ≤ s.lastWrittenLSN)
  log := src.log ++ src.current.toList

def onInput (s : State) (i : Input) (src : Source) : Source :=
  if !s.running then src
  else match i with
    | .message _ _ m => if s.connected then src.onMessage s m else src
    | .reconnect _ => src.restart s
    | .tick _ _ => src
    | .stop _ _ => src

/-- A message that a PostgreSQL source can send next. Transactions come in
the order of their commit LSNs, each between its `Begin` and its `Commit`
or in stream segments, which stand between transactions. The stream may
start with transactions from before the LSN it was asked for. -/
def Sends (src : Source) : Message → Prop
  | .relation _ => True
  | .begin lsn => src.current = none ∧ src.segment = none ∧ src.last < lsn
  | .commit lsn => src.current.map Txn.lsn = some lsn
  | .row _ _ => src.current.isSome = true ∨ src.segment.isSome = true
  | .streamStart _ => src.current = none ∧ src.segment = none
  | .streamStop => src.segment.isSome = true
  | .streamCommit xid lsn => src.current = none ∧ src.segment = none ∧
      (src.streams.lookup xid).isSome = true ∧ src.last < lsn
  | .streamAbort xid _ => src.current = none ∧ src.segment = none ∧
      (src.streams.lookup xid).isSome = true
  | .other => True

instance (src : Source) (m : Message) : Decidable (src.Sends m) :=
  match m with
  | .relation _ => isTrue trivial
  | .begin _ => inferInstanceAs (Decidable (_ ∧ _ ∧ _))
  | .commit _ => inferInstanceAs (Decidable (_ = _))
  | .row _ _ => inferInstanceAs (Decidable (_ ∨ _))
  | .streamStart _ => inferInstanceAs (Decidable (_ ∧ _))
  | .streamStop => inferInstanceAs (Decidable (_ = _))
  | .streamCommit _ _ => inferInstanceAs (Decidable (_ ∧ _ ∧ _ ∧ _))
  | .streamAbort _ _ => inferInstanceAs (Decidable (_ ∧ _ ∧ _))
  | .other => isTrue trivial

def openTagged (src : Source) : Changes := (src.current.map Txn.tagged).getD 0

end Source

/-! ## The replicator and the source in lockstep -/

structure Replica where
  state : State
  source : Source := {}

namespace Replica

def step (r : Replica) (i : Input) : Replica := ⟨handle r.state i, r.source.onInput r.state i⟩

/-- The source sends what it can send. -/
def Sent (r : Replica) : Input → Prop
  | .message _ _ m => r.source.Sends m
  | .tick _ _ => True
  | .stop _ _ => True
  | .reconnect _ => True

instance (r : Replica) (i : Input) : Decidable (r.Sent i) :=
  match i with
  | .message _ _ m => inferInstanceAs (Decidable (r.source.Sends m))
  | .tick _ _ => isTrue trivial
  | .stop _ _ => isTrue trivial
  | .reconnect _ => isTrue trivial

/-- A new session of a replicator: `reset` at the last written LSN. -/
def resume (now : Nat) (s : State) : Replica := ⟨reset now s, { origin := s.lastWrittenLSN }⟩

/-- The replicator starts at the LSN it finds in the subscription. -/
def start (lsn : LSN) (now : Nat) : Replica := resume now { lastWrittenLSN := lsn }

def durable (r : Replica) : Changes := changesOf r.state.session.durable.flatten

end Replica

end MyDuck.Logrepl
