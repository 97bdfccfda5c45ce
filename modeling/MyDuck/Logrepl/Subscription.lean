/-
MyDuck.Logrepl.Subscription — CREATE SUBSCRIPTION, `executeCreate` of
pgserver/subscription_handler.go, on a source that goes on committing.

`doSnapshot` reads the WAL position of the source, lists its tables and
copies them one by one. `doCreateSubscription` stores the position in the
subscription and calls `UpdateSubscriptions`, which creates the replication
slot and starts the replicator at the stored position. The steps are
separate moments: between any two of them the source can commit.

A copy has what is committed when it is made, and the slot delivers what
commits after it was created.
-/
import MyDuck.Logrepl.Accounts

namespace MyDuck.Logrepl

open MyDuck.Delta

/-! ## The steps of `executeCreate` -/

/-- The next step. `copyTables` has the tables that are left. -/
inductive Phase where
  | readLSN
  | listTables (lsn : LSN)
  | copyTables (lsn : LSN) (tables : List TableIdentifier)
  | storeSubscription (lsn : LSN)
  | createSlot
  | startReplication
  | replicating (lsn : LSN)
  deriving DecidableEq, Repr

/-- The source and the subscription. `wal` is the position of the WAL,
`copied` has each copied table with the transactions its copy has, and
`slot` is the number of transactions that had committed when the slot was
created. -/
structure Creation where
  phase : Phase := .readLSN
  wal : LSN
  tables : List TableIdentifier
  committed : List Txn
  copied : List (TableIdentifier × List Txn) := []
  subskiplsn : Option LSN := none
  slot : Option Nat := none
  deriving DecidableEq, Repr

/-- The source commits, or writes other records, or `executeCreate` goes
on. -/
inductive CreationInput where
  | commit (t : Txn)
  | write (lsn : LSN)
  | proceed
  deriving DecidableEq, Repr

namespace Creation

def proceed (c : Creation) : Creation :=
  match c.phase with
  | .readLSN => { c with phase := .listTables c.wal }
  | .listTables lsn => { c with phase := .copyTables lsn c.tables }
  | .copyTables lsn (t :: ts) =>
    { c with phase := .copyTables lsn ts, copied := c.copied ++ [(t, c.committed)] }
  | .copyTables lsn [] => { c with phase := .storeSubscription lsn }
  | .storeSubscription lsn => { c with phase := .createSlot, subskiplsn := some lsn }
  | .createSlot => { c with phase := .startReplication, slot := some c.committed.length }
  | .startReplication => { c with phase := .replicating (c.subskiplsn.getD 0) }
  | .replicating _ => c

def step (c : Creation) : CreationInput → Creation
  | .commit t => { c with committed := c.committed ++ [t], wal := t.lsn + 1 }
  | .write lsn => { c with wal := max c.wal lsn }
  | .proceed => c.proceed

/-- The record of a commit is written at the position of the WAL, or behind
it. -/
def Valid (c : Creation) : CreationInput → Prop
  | .commit t => c.wal ≤ t.lsn
  | .write _ => True
  | .proceed => True

def start (wal : LSN) (tables : List TableIdentifier) (committed : List Txn) : Creation :=
  { wal, tables, committed }

def delivered (c : Creation) : List Txn := (c.slot.map (fun n => c.committed.drop n)).getD []

end Creation

/-! ## The replica after it has caught up -/

def Change.isOn (t : TableIdentifier) : Change → Bool
  | .row u _ _ => decide (u = t)
  | .truncate u => decide (u = t)
  | .failed => false

def onTable (t : TableIdentifier) (cs : Changes) : Changes := cs.filter (fun c => c.2.isOn t = true)

/-- The commit LSN of the transaction that begins. -/
def Feed.begins? : Feed → Option LSN
  | .message _ (.begin lsn) => some lsn
  | .message _ _ => none
  | .tick _ => none

/-- The source sends what the slot delivers. -/
def Delivers (txns : List Txn) (v : Ledger) (i : Feed) : Prop :=
  v.Plain i ∧ ∀ lsn ∈ i.begins?, ∃ t ∈ txns, t.lsn = lsn

/-- All that the slot delivers was sent, and nothing waits to be
committed. -/
structure CaughtUp (txns : List Txn) (v : Ledger) : Prop where
  log : v.replica.source.log = txns
  current : v.replica.source.current = none
  inFlight : inFlight v.replica.state = 0

/-- The changes a copied table has on the replica: those of its copy and
those the replicator committed. -/
def replicaChanges (p : TableIdentifier × List Txn) (r : Replica) : Changes :=
  onTable p.1 (taggedAll p.2) + onTable p.1 r.durable

end MyDuck.Logrepl
