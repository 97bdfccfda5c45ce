/-
MyDuck.Binlog.Events — what the source sends: GTIDs and positions, query
events with the plan nodes mysqlutil classifies, table maps and row
events.

The GTID sets are those of the replication library the applier uses, by
their documented behaviour: a MySQL set holds every GTID added to it, a
MariaDB set holds the last GTID of each domain, and a file position is
replaced by the position added to it. A row image is a list of cells, one
for each column of the table map; a cell is a value or bytes that the
decoder of the column refuses.
-/
import MyDuck.Delta.Controller

namespace MyDuck.Binlog

open MyDuck.Delta

/-! ## GTIDs -/

abbrev SID := List UInt8

inductive Gtid where
  | mysql56 (server : SID) (sequence : Nat)
  | mariadb (domain server sequence : Nat)
  | filePos (file : String) (pos : Nat)
  deriving DecidableEq, Repr

def Gtid.isMysql56 : Gtid → Bool
  | .mysql56 _ _ => true
  | _ => false

/-- The decimal digits of a number, as bytes. -/
def decimal (n : Nat) : List UInt8 :=
  (Nat.toDigits 10 n).map (fun c => UInt8.ofNat c.toNat)

/-- The columns of the delta view that name a transaction: `txn_tag`,
`txn_server`, `txn_group`, `txn_seq`. -/
structure TxnStamp where
  tag : Option (List UInt8)
  server : Option (List UInt8)
  group : Option String
  seq : Nat
  deriving DecidableEq, Repr

/-- The stamp `appendRowFormatChanges` takes from the current GTID. -/
def stampOf : Option Gtid → TxnStamp
  | some (.mysql56 server sequence) => ⟨none, some server, none, sequence⟩
  | some (.filePos file pos) => ⟨none, none, some file, pos⟩
  | some (.mariadb domain server sequence) =>
    ⟨some (decimal domain), some (decimal server), none, sequence⟩
  | none => ⟨none, none, none, 0⟩

/-! ## Positions -/

inductive GtidSet where
  | mysql56 (gtids : Finset (SID × Nat))
  | mariadb (last : List (Nat × Nat × Nat))
  | filePos (file : String) (pos : Nat)
  deriving DecidableEq

def Gtid.gtidSet : Gtid → GtidSet
  | .mysql56 server sequence => .mysql56 {(server, sequence)}
  | .mariadb domain server sequence => .mariadb [(domain, server, sequence)]
  | .filePos file pos => .filePos file pos

/-- Keep the greater sequence number of the domain. -/
def addToDomain (g : Nat × Nat × Nat) : List (Nat × Nat × Nat) → List (Nat × Nat × Nat)
  | [] => [g]
  | h :: rest =>
    if h.1 = g.1 then (if h.2.2 < g.2.2 then g else h) :: rest else h :: addToDomain g rest

/-- `AddGTID`. A GTID of another flavour is ignored. -/
def GtidSet.addGTID : GtidSet → Gtid → GtidSet
  | .mysql56 s, .mysql56 server sequence => .mysql56 (insert (server, sequence) s)
  | .mariadb last, .mariadb domain server sequence =>
    .mariadb (addToDomain (domain, server, sequence) last)
  | .filePos _ _, .filePos file pos => .filePos file pos
  | s, _ => s

def GtidSet.containsGTID : GtidSet → Gtid → Bool
  | .mysql56 s, .mysql56 server sequence => decide ((server, sequence) ∈ s)
  | .mariadb last, .mariadb domain _ sequence =>
    last.any (fun h => h.1 = domain ∧ sequence ≤ h.2.2)
  | .filePos file pos, .filePos file' pos' => decide (file' < file ∨ (file' = file ∧ pos' ≤ pos))
  | _, _ => false

/-- A `replication.Position`; `none` is the zero position. -/
abbrev Position := Option GtidSet

def Position.appendGTID (p : Position) : Option Gtid → Position
  | none => p
  | some g =>
    match p with
    | none => some g.gtidSet
    | some s => some (s.addGTID g)

def Position.contains (p : Position) (g : Gtid) : Bool :=
  match p with
  | none => false
  | some s => s.containsGTID g

/-! ## Query events -/

/-- The plan nodes the applier and mysqlutil tell apart. -/
inductive PlanNode where
  | startTransaction | commit
  | insertInto | update | deleteFrom | loadData
  | lockTables | unlockTables
  | createDB | dropDB | alterDB
  | createTable | dropTable | renameTable
  | addColumn | renameColumn | dropColumn | modifyColumn | alterDefaultSet | alterDefaultDrop
  | truncate | analyzeTable
  | createIndex | dropIndex | alterIndex
  | createView | dropView
  | dropRole | createRole
  | alterUser | createUser | dropUser | grant | renameUser
  | startReplica | stopReplica | resetReplica | changeReplicationSource
  | alterPK | block | other
  deriving DecidableEq, Repr

/-- mysqlutil. -/
def causeImplicitCommitAfter : PlanNode → Bool
  | .createDB | .dropDB | .alterDB
  | .createTable | .dropTable | .renameTable
  | .addColumn | .renameColumn | .dropColumn | .modifyColumn | .alterDefaultSet
  | .alterDefaultDrop
  | .truncate | .analyzeTable
  | .createIndex | .dropIndex | .alterIndex
  | .createView | .dropView
  | .dropRole | .createRole
  | .alterUser | .createUser | .dropUser | .grant | .renameUser
  | .startReplica | .stopReplica | .resetReplica | .changeReplicationSource => true
  | _ => false

/-- mysqlutil. -/
def causeImplicitCommitBefore : PlanNode → Bool
  | .startTransaction | .lockTables | .unlockTables => true
  | node => causeImplicitCommitAfter node

/-- mysqlutil. -/
def causeSchemaChange : PlanNode → Bool
  | .createDB | .dropDB | .alterDB
  | .createTable | .dropTable | .renameTable
  | .addColumn | .renameColumn | .dropColumn | .modifyColumn | .alterDefaultSet
  | .alterDefaultDrop
  | .createIndex | .dropIndex | .alterIndex
  | .createView | .dropView => true
  | _ => false

def PlanNode.isDML : PlanNode → Bool
  | .insertInto | .update | .deleteFrom | .loadData => true
  | _ => false

/-- A query event, with the node `PrepareQuery` plans it as. -/
structure Query where
  database : String
  sql : String
  node : PlanNode
  deriving DecidableEq, Repr

def Query.begin : Query := ⟨"", "BEGIN", .startTransaction⟩

/-- The operations on `mysql.time_zone*` that are skipped. -/
def Query.skipsTimeZone (q : Query) : Bool :=
  q.database = "mysql" && "TRUNCATE TABLE time_zone".toList.isPrefixOf q.sql.toList

/-! ## Row events -/

structure TableMap where
  database : String
  name : String
  /-- The number of column types. -/
  columns : Nat
  deriving DecidableEq, Repr

/-- A column of a row image: its value, or bytes that do not decode. -/
inductive Cell where
  | value (v : Value)
  | bad
  deriving DecidableEq, Repr

def Cell.value? : Cell → Option Value
  | .value v => some v
  | .bad => none

/-- The cells of an image and the number of its bytes. -/
structure Image where
  cells : List Cell
  bytes : Nat
  deriving DecidableEq, Repr

/-- The row of an image that has all columns. -/
def Image.decode (im : Image) : Option Row := im.cells.mapM Cell.value?

/-- `parseRow` on an image with the columns of the bitmap; an image of no
bytes is not parsed. -/
def Image.parseRow (columns : List Bool) (im : Image) : Option Row :=
  if im.bytes > 0 then
    (im.cells.zip columns).mapM (fun c => if c.2 then c.1.value? else some .null)
  else some []

structure RowImage where
  identify : Image
  data : Image
  deriving DecidableEq, Repr

structure RowsEvent where
  tableId : Nat
  event : RowEventType
  /-- Whether `event.Rows` can parse the event at all. -/
  parses : Bool
  identifyColumns : List Bool
  dataColumns : List Bool
  rows : List RowImage
  deriving DecidableEq, Repr

def bitCount (columns : List Bool) : Nat := columns.count true

/-- Every column of the table is in the images the event carries. -/
def RowsEvent.isRowFormat (e : RowsEvent) (fieldCount : Nat) : Bool :=
  match e.event with
  | .delete => bitCount e.identifyColumns == fieldCount
  | .update => bitCount e.identifyColumns == fieldCount && bitCount e.dataColumns == fieldCount
  | .insert => bitCount e.dataColumns == fieldCount

/-! ## Events -/

inductive Event where
  | rand
  | xid
  | query (q : Query)
  | rotate
  | formatDescription
  | previousGTIDs
  | gtid (g : Gtid) (isBegin : Bool)
  | tableMap (id : Nat) (m : TableMap)
  | rows (e : RowsEvent)
  | heartbeat
  | stop
  | mariadbMarker
  | unknown (typeByte : UInt8)
  deriving DecidableEq, Repr

end MyDuck.Binlog
