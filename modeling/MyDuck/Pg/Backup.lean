/-
MyDuck.Pg.Backup — the BACKUP statement (`backup_handler.go`).

`executeBackup` disables all subscriptions, makes a checkpoint, restarts
the provider in read-only mode, uploads the database file, restarts the
provider in read-write mode and enables all subscriptions. Every operation
may fail; then the rest is not executed, and what was done before stays.

A restart closes the database and opens the file of the default catalog
with a new connector. The connection pool shares the database with the
provider, so it is closed with it, and gets the new one at the end.

`UpdateSubscriptions` is read here as one call without others beside it
(MyDuck.Logrepl.Reconcile has them interleaved); `go StartReplication`
and `Stop` set whether the replicator runs. The texts of the errors, and
the columns of `pg_subscription` that are only passed on, are left out.
-/
import MyDuck.Base.Session

namespace MyDuck.Backup

/-! ## The server -/

inductive Handle where
  | readWrite
  | readOnly
  | closed
  deriving DecidableEq, Repr

/-- `DatabaseProvider`: its database, the one of its pool, and the catalogs
attached to the running instance. -/
structure Provider where
  defaultCatalogName : String
  storage : Handle
  pool : Handle
  attached : Finset String
  deriving DecidableEq

structure SubscriptionRow where
  name : String
  enabled : Bool
  deriving DecidableEq, Repr

/-- An entry of `subscriptionMap`. -/
structure Subscribed where
  enabled : Bool
  running : Bool
  deriving DecidableEq, Repr

/-- An uploaded file and where it went. -/
structure Upload where
  file : String
  remotePath : String
  deriving DecidableEq, Repr

structure Server where
  provider : Provider
  rows : List SubscriptionRow
  subscriptionMap : String → Option Subscribed
  uploads : List Upload := []

structure BackupConfig where
  dbName : String
  remotePath : String
  deriving DecidableEq, Repr

/-! ## Operations -/

inductive RestartStep where
  | close
  | connect
  | reset
  deriving DecidableEq, Repr

inductive Operation where
  | newContext
  | updateStatus (enabled : Bool)
  | commitStatus (enabled : Bool)
  | updateSubscriptions (enabled : Bool)
  | checkpoint
  | commitCheckpoint
  | restart (readOnly : Bool) (step : RestartStep)
  | upload
  deriving DecidableEq, Repr

/-- An operation is attempted: it fails, or the call goes on. -/
def attempt (fails : Operation → Bool) (op : Operation) (s : Server) : Outcome Operation Server :=
  if fails op then .error op s else .ok s

namespace Server

/-- `UpdateSubscriptions`, one row: a new one is added to the map, one
whose flag has changed is started or stopped. -/
def visitRow (map : String → Option Subscribed) (row : SubscriptionRow) :
    String → Option Subscribed :=
  match map row.name with
  | none => Function.update map row.name (some ⟨row.enabled, row.enabled⟩)
  | some sub =>
    if row.enabled ≠ sub.enabled then
      Function.update map row.name (some ⟨row.enabled, row.enabled⟩)
    else map

/-- `UpdateSubscriptions`: all rows, then what the map has beyond them is
stopped and deleted. -/
def updateSubscriptions (s : Server) : Server :=
  let map := s.rows.foldl visitRow s.subscriptionMap
  { s with subscriptionMap := fun n => if n ∈ s.rows.map (·.name) then map n else none }

/-- `UpdateAllSubscriptionStatus`. -/
def setAll (enabled : Bool) (s : Server) : Server :=
  { s with rows := s.rows.map fun row => { row with enabled } }

variable (fails : Operation → Bool)

/-- `stopAllReplication` and `startAllReplication`. -/
def setReplication (enabled : Bool) (s : Server) : Outcome Operation Server :=
  (attempt fails (.updateStatus enabled) s).andThen fun s =>
  (attempt fails (.commitStatus enabled) s).andThen fun s =>
  (attempt fails (.updateSubscriptions enabled) (s.setAll enabled)).andThen fun s =>
  .ok s.updateSubscriptions

def doCheckpoint (s : Server) : Outcome Operation Server :=
  (attempt fails .checkpoint s).andThen (attempt fails .commitCheckpoint)

/-- `Close`: the database of the provider is the one of the pool. -/
def close (s : Server) : Server :=
  { s with provider := { s.provider with storage := .closed, pool := .closed } }

/-- A new connector: only the default catalog is attached. -/
def connect (mode : Handle) (s : Server) : Server :=
  { s with provider := { s.provider with
      storage := mode, attached := {s.provider.defaultCatalogName} } }

def restartMode (readOnly : Bool) : Handle := if readOnly then .readOnly else .readWrite

def restart (readOnly : Bool) (s : Server) : Outcome Operation Server :=
  (attempt fails (.restart readOnly .close) s.close).andThen fun s =>
  (attempt fails (.restart readOnly .connect) s).andThen fun s =>
  (attempt fails (.restart readOnly .reset) (s.connect (restartMode readOnly))).andThen fun s =>
  .ok { s with provider := { s.provider with pool := s.provider.storage } }

def uploadFile (config : BackupConfig) (s : Server) : Outcome Operation Server :=
  (attempt fails .upload s).andThen fun s =>
  .ok { s with uploads := s.uploads ++ [⟨config.dbName ++ ".db", config.remotePath⟩] }

def executeBackup (config : BackupConfig) (s : Server) : Outcome Operation Server :=
  (attempt fails .newContext s).andThen fun s =>
  (s.setReplication fails false).andThen fun s =>
  (s.doCheckpoint fails).andThen fun s =>
  (s.restart fails true).andThen fun s =>
  (s.uploadFile fails config).andThen fun s =>
  (s.restart fails false).andThen fun s =>
  s.setReplication fails true

end Server

end MyDuck.Backup
