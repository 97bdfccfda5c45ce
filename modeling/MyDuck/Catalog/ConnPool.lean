/-
MyDuck.Catalog.ConnPool — the connections and transactions of the sessions:
`ConnectionPool` in catalog/connpool.go.

The pool has two maps from the ids of sessions, to connections and to
transactions. They are changed by separate calls: `CloseTxn` behind a
commit or rollback, `CloseConn` when the client disconnects or sends
DISCARD ALL (`closeBackendConn` in pgserver/connection_handler.go), `Reset`
when the database is opened once more. A transaction that has ended stays
in its map until `CloseTxn`: a commit that fails in the binlog applier ends
it and returns before the call.

Connections and transactions are numbered in the order in which they are
made; a connection carries the session that it was opened for, and a
transaction the connection that it was begun on. Of `database/sql` the model
has what the calls see. A transaction ends by its commit or its rollback, or
with its context, and in the last case its connection is closed. To close a
connection is to mark it as done, from when on no operation on it succeeds,
and to wait until no transaction is running on it. So `CloseConn` is two
steps: the call, and its return (`connClosed`), which deletes the entry.

`pool_consistent_iff` is about whole runs: the maps belong together as long
as `CloseConn` finds no transaction that has ended, no transaction ends
while its connection is being closed, and a `Reset` that fails finds none.
-/
import MyDuck.Base.Run

namespace MyDuck.ConnPool

abbrev Id := UInt32

/-- A `*stdsql.Conn`, with the session that it was opened for. -/
structure Conn where
  session : Id
  number : ℕ
  deriving DecidableEq, Repr

/-- A `*stdsql.Tx`, with the connection that it was begun on. -/
structure Tx where
  conn : Conn
  number : ℕ
  deriving DecidableEq, Repr

/-- The result of an operation on a connection that is not done. -/
inductive DriverResult where
  | ok
  | failed
  /-- `driver.ErrBadConn`, on which `database/sql` closes the connection. -/
  | badConn
  deriving DecidableEq, Repr

structure ConnectionPool where
  conns : AList fun _ : Id => Conn
  txns : AList fun _ : Id => Tx
  /-- The connections on which `Close` was called, by the pool or by
  `database/sql`. -/
  done : Finset Conn
  /-- The transactions that were begun and have not ended. -/
  running : Finset Tx
  nextConn : ℕ
  nextTx : ℕ

def newConnectionPool : ConnectionPool := ⟨∅, ∅, ∅, ∅, 0, 0⟩

/-! ## The calls -/

namespace ConnectionPool

variable (p : ConnectionPool)

/-- A transaction is running on a connection, and holds its lock. -/
def Busy (c : Conn) : Prop := ∃ tx ∈ p.running, tx.conn = c

instance decidableBusy (c : Conn) : Decidable (p.Busy c) :=
  inferInstanceAs (Decidable (∃ tx ∈ p.running, tx.conn = c))

/-- The connection is released: `Conn.Close` was called, and has the lock. -/
def Closed (c : Conn) : Prop := c ∈ p.done ∧ ¬ p.Busy c

instance decidableClosed (c : Conn) : Decidable (p.Closed c) :=
  inferInstanceAs (Decidable (c ∈ p.done ∧ ¬ p.Busy c))

/-- `opens` says whether `DB.Conn` gives a connection. -/
def getConn (id : Id) (opens : Bool) : Option Conn × ConnectionPool :=
  match p.conns.lookup id with
  | some c => (some c, p)
  | none =>
    if opens then
      (some ⟨id, p.nextConn⟩,
        { p with conns := p.conns.insert id ⟨id, p.nextConn⟩, nextConn := p.nextConn + 1 })
    else (none, p)

/-- An operation on a connection, and whether it succeeds. -/
def useConn (c : Conn) (result : DriverResult) : Bool × ConnectionPool :=
  if c ∈ p.done then (false, p)
  else
    match result with
    | .ok => (true, p)
    | .failed => (false, p)
    | .badConn => (false, { p with done := insert c p.done })

/-- What the database does in a call of `GetTxn`. -/
structure Database where
  opens : Bool
  /-- Of the statements that read and switch the current schema. -/
  switch : DriverResult
  begin : DriverResult

def getConnForSchema (id : Id) (schemaName : List Char) (db : Database) :
    Option Conn × ConnectionPool :=
  match p.getConn id db.opens with
  | (none, p) => (none, p)
  | (some c, p) =>
    if schemaName = [] then (some c, p)
    else
      match p.useConn c db.switch with
      | (true, p) => (some c, p)
      | (false, p) => (none, p)

def storeTxn (id : Id) (c : Conn) : Option Tx × ConnectionPool :=
  (some ⟨c, p.nextTx⟩,
    { p with txns := p.txns.insert id ⟨c, p.nextTx⟩, running := insert ⟨c, p.nextTx⟩ p.running,
             nextTx := p.nextTx + 1 })

def getTxn (id : Id) (schemaName : List Char) (db : Database) : Option Tx × ConnectionPool :=
  match p.txns.lookup id with
  | some tx => (some tx, p)
  | none =>
    match p.getConnForSchema id schemaName db with
    | (none, p) => (none, p)
    | (some c, p) =>
      match p.useConn c db.begin with
      | (true, p) => p.storeTxn id c
      | (false, p) => (none, p)

/-- A transaction ends; `discards` says that its connection is closed with
it, as `database/sql` does when the context is cancelled. -/
def endTx (tx : Tx) (discards : Bool) : ConnectionPool :=
  { p with running := p.running.erase tx,
           done := if discards ∧ tx ∈ p.running then insert tx.conn p.done else p.done }

/-- `CloseTxn`, which comes with the end of the transaction. -/
def closeTxn (id : Id) : ConnectionPool :=
  match p.txns.lookup id with
  | some tx => { p.endTx tx false with txns := p.txns.erase id }
  | none => p

/-- `Raw` reports a bad connection, and the connection is closed. It fails on
one that is done, and the call returns. -/
def closeConn (id : Id) : ConnectionPool :=
  match p.conns.lookup id with
  | some c =>
    if c ∈ p.done then { p with conns := p.conns.erase id }
    else { p with done := insert c p.done }
  | none => p

/-- `CloseConn` returns when the connection is closed. -/
def connClosed (id : Id) : ConnectionPool :=
  match p.conns.lookup id with
  | some c => if p.Closed c then { p with conns := p.conns.erase id } else p
  | none => p

/-- `Close`: every stored transaction is rolled back, which ends it, and then
every stored connection is closed. -/
def closeAll : ConnectionPool :=
  { p with
    running := p.running \ (p.txns.entries.map Sigma.snd).toFinset
    done := p.done ∪ (p.conns.entries.map Sigma.snd).toFinset }

/-- Every `Rollback` of `Close` succeeds: that of a transaction which has
ended fails, and `rollsBack` says for which sessions the others succeed. -/
def RollsBack (rollsBack : Id → Bool) : Prop :=
  ∀ e ∈ p.txns.entries, e.2 ∈ p.running ∧ rollsBack e.1 = true

instance decidableRollsBack (rollsBack : Id → Bool) : Decidable (p.RollsBack rollsBack) :=
  inferInstanceAs (Decidable (∀ e ∈ p.txns.entries, e.2 ∈ p.running ∧ rollsBack e.1 = true))

/-- After an error of `Close` the maps stay as they are. -/
def reset (rollsBack : Id → Bool) (dbCloses : Bool) : ConnectionPool :=
  if p.RollsBack rollsBack ∧ dbCloses = true then { p.closeAll with conns := ∅, txns := ∅ }
  else p.closeAll

end ConnectionPool

open ConnectionPool

inductive Call where
  | getConn (id : Id) (opens : Bool)
  | getTxn (id : Id) (schemaName : List Char) (db : Database)
  /-- The stored transaction of a session ends. -/
  | endTx (id : Id) (discards : Bool)
  | closeTxn (id : Id)
  | closeConn (id : Id)
  /-- A `CloseConn` of a session returns. -/
  | connClosed (id : Id)
  | reset (rollsBack : Id → Bool) (dbCloses : Bool)

def step (p : ConnectionPool) : Call → ConnectionPool
  | .getConn id opens => (p.getConn id opens).2
  | .getTxn id schemaName db => (p.getTxn id schemaName db).2
  | .endTx id discards => (p.txns.lookup id).elim p (p.endTx · discards)
  | .closeTxn id => p.closeTxn id
  | .closeConn id => p.closeConn id
  | .connClosed id => p.connClosed id
  | .reset rollsBack dbCloses => p.reset rollsBack dbCloses

/-! ## Consistency -/

/-- The connection of a transaction is stored for a session, and not closed. -/
def OpenFor (p : ConnectionPool) (id : Id) (tx : Tx) : Prop :=
  p.conns.lookup id = some tx.conn ∧ ¬ p.Closed tx.conn

/-- Every stored transaction was begun on the stored connection, which is not
closed. -/
def Stored (p : ConnectionPool) : Prop := ∀ id tx, p.txns.lookup id = some tx → OpenFor p id tx

/-- What `GetTxn` returns is a transaction of the stored connection, which is
not closed. -/
def Returned (p : ConnectionPool) : Prop :=
  ∀ id schemaName db tx p', p.getTxn id schemaName db = (some tx, p') → OpenFor p' id tx

structure Consistent (p : ConnectionPool) : Prop where
  stored : Stored p
  returned : Returned p

/-- What holds in every state: connections and transactions are stored for
the session that they were made for, and a running transaction is stored. -/
structure Kept (p : ConnectionPool) : Prop where
  conns : ∀ id c, p.conns.lookup id = some c → c.session = id
  txns : ∀ id tx, p.txns.lookup id = some tx → tx.conn.session = id
  running : ∀ tx ∈ p.running, p.txns.lookup tx.conn.session = some tx

theorem lookup_of_erase {α : Type} {m : AList fun _ : Id => α} {id id' : Id} {a : α}
    (h : (m.erase id).lookup id' = some a) : id' ≠ id ∧ m.lookup id' = some a := by
  by_cases heq : id' = id
  · subst heq
    rw [AList.lookup_erase] at h
    cases h
  · exact ⟨heq, by rwa [AList.lookup_erase_ne heq] at h⟩

theorem lookup_of_insert {α : Type} {m : AList fun _ : Id => α} {id id' : Id} {a a' : α}
    (h : (m.insert id a).lookup id' = some a') :
    (id' = id ∧ a' = a) ∨ (id' ≠ id ∧ m.lookup id' = some a') := by
  by_cases heq : id' = id
  · subst heq
    rw [AList.lookup_insert] at h
    exact .inl ⟨rfl, (Option.some.inj h).symm⟩
  · exact .inr ⟨heq, by rwa [AList.lookup_insert_ne heq] at h⟩

/-- On a stored transaction's connection no other one is running. -/
theorem Kept.busy_iff {p : ConnectionPool} (h : Kept p) {id : Id} {tx : Tx}
    (htx : p.txns.lookup id = some tx) : p.Busy tx.conn ↔ tx ∈ p.running := by
  refine ⟨?_, fun hrun => ⟨tx, hrun, rfl⟩⟩
  rintro ⟨tx', hrun, hconn⟩
  have hsame := h.running tx' hrun
  rw [hconn, h.txns id tx htx, htx] at hsame
  cases hsame
  exact hrun

/-! ### The calls for one session -/

/-- What a call may do for a session before it stores a transaction: store a
connection, and mark the one that is stored as done. -/
structure Grows (id : Id) (p p' : ConnectionPool) : Prop where
  txns : p'.txns = p.txns
  running : p'.running = p.running
  conns : ∀ id' c, p.conns.lookup id' = some c → p'.conns.lookup id' = some c
  done : ∀ c ∈ p'.done, c ∈ p.done ∨ p'.conns.lookup id = some c
  kept : Kept p → Kept p'

section Grows

variable {p p' p'' : ConnectionPool} {id : Id} {c : Conn}

theorem Grows.refl (id : Id) (p : ConnectionPool) : Grows id p p :=
  ⟨rfl, rfl, fun _ _ h => h, fun _ h => .inl h, fun h => h⟩

theorem Grows.trans (h : Grows id p p') (h' : Grows id p' p'') : Grows id p p'' where
  txns := h'.txns.trans h.txns
  running := h'.running.trans h.running
  conns id' c hc := h'.conns id' c (h.conns id' c hc)
  done c hc := by
    rcases h'.done c hc with hc | hc
    · exact (h.done c hc).imp_right (h'.conns id c)
    · exact .inr hc
  kept hkept := h'.kept (h.kept hkept)

/-- Without a transaction of the session, nothing that is stored is
affected. -/
theorem Grows.stored (h : Grows id p p') (hkept : Kept p) (hstored : Stored p)
    (hnone : p.txns.lookup id = none) : Stored p' := by
  intro id' tx htx
  rw [h.txns] at htx
  obtain ⟨hconn, hopen⟩ := hstored id' tx htx
  refine ⟨h.conns id' _ hconn, fun hclosed => ?_⟩
  have hfree : ¬ p.Busy tx.conn := by
    have hfree := hclosed.2
    rwa [Busy, h.running] at hfree
  rcases h.done _ hclosed.1 with hdone | hsame
  · exact hopen ⟨hdone, hfree⟩
  · have hid : tx.conn.session = id := (h.kept hkept).conns id _ hsame
    rw [← hid, hkept.txns id' tx htx, htx] at hnone
    cases hnone

theorem grows_insert (hnone : p.conns.lookup id = none) : Grows id p
    { p with conns := p.conns.insert id ⟨id, p.nextConn⟩, nextConn := p.nextConn + 1 } where
  txns := rfl
  running := rfl
  conns id' c hc := by
    have hne : id' ≠ id := by
      rintro rfl
      rw [hnone] at hc
      cases hc
    rw [AList.lookup_insert_ne hne, hc]
  done c hc := .inl hc
  kept h := by
    refine ⟨fun id' c hc => ?_, h.txns, h.running⟩
    rcases lookup_of_insert hc with ⟨rfl, rfl⟩ | ⟨-, hold⟩
    · rfl
    · exact h.conns id' c hold

theorem grows_done (hc : p.conns.lookup id = some c) :
    Grows id p { p with done := insert c p.done } where
  txns := rfl
  running := rfl
  conns _ _ h := h
  done d hd := by
    rcases Finset.mem_insert.mp hd with rfl | hd
    · exact .inr hc
    · exact .inl hd
  kept h := ⟨h.conns, h.txns, h.running⟩

theorem getConn_grows (p : ConnectionPool) (id : Id) (opens : Bool) :
    Grows id p (p.getConn id opens).2 ∧
      ∀ c ∈ (p.getConn id opens).1, (p.getConn id opens).2.conns.lookup id = some c := by
  rw [getConn]
  split
  · rename_i c hc
    refine ⟨.refl id p, fun d hd => ?_⟩
    cases hd
    exact hc
  · rename_i hnone
    split
    · refine ⟨grows_insert hnone, fun d hd => ?_⟩
      cases hd
      exact AList.lookup_insert _
    · exact ⟨.refl id p, nofun⟩

theorem useConn_grows (hc : p.conns.lookup id = some c) (result : DriverResult) :
    Grows id p (p.useConn c result).2 ∧
      ((p.useConn c result).1 = true → (p.useConn c result).2 = p ∧ c ∉ p.done) := by
  unfold useConn
  split
  · exact ⟨.refl id p, nofun⟩
  · rename_i hopen
    cases result with
    | ok => exact ⟨.refl id p, fun _ => ⟨rfl, hopen⟩⟩
    | failed => exact ⟨.refl id p, nofun⟩
    | badConn => exact ⟨grows_done hc, nofun⟩

theorem getConnForSchema_grows (p : ConnectionPool) (id : Id) (schemaName : List Char)
    (db : Database) :
    Grows id p (p.getConnForSchema id schemaName db).2 ∧
      ∀ c ∈ (p.getConnForSchema id schemaName db).1,
        (p.getConnForSchema id schemaName db).2.conns.lookup id = some c := by
  obtain ⟨hget, hresult⟩ := getConn_grows p id db.opens
  rw [getConnForSchema]
  generalize p.getConn id db.opens = got at hget hresult
  obtain ⟨found, p'⟩ := got
  cases found with
  | none => exact ⟨hget, nofun⟩
  | some c =>
    have hc : p'.conns.lookup id = some c := hresult c rfl
    dsimp only
    split
    · refine ⟨hget, fun d hd => ?_⟩
      cases hd
      exact hc
    · obtain ⟨huse, hok⟩ := useConn_grows hc db.switch
      generalize p'.useConn c db.switch = used at huse hok
      obtain ⟨success, p''⟩ := used
      cases success with
      | true =>
        obtain ⟨rfl, -⟩ := hok rfl
        refine ⟨hget, fun d hd => ?_⟩
        cases hd
        exact hc
      | false => exact ⟨hget.trans huse, nofun⟩

/-- What `GetTxn` does: it returns the stored transaction, or fails, or begins
one on the stored connection. -/
inductive TxnCase (p : ConnectionPool) (id : Id) : Option Tx × ConnectionPool → Prop
  | found (tx : Tx) (h : p.txns.lookup id = some tx) : TxnCase p id (some tx, p)
  | failed (p' : ConnectionPool) (h : p.txns.lookup id = none) (hgrows : Grows id p p') :
      TxnCase p id (none, p')
  | begun (p' : ConnectionPool) (c : Conn) (h : p.txns.lookup id = none) (hgrows : Grows id p p')
      (hconn : p'.conns.lookup id = some c) (hopen : c ∉ p'.done) :
      TxnCase p id (p'.storeTxn id c)

theorem getTxn_case (p : ConnectionPool) (id : Id) (schemaName : List Char)
    (db : Database) : TxnCase p id (p.getTxn id schemaName db) := by
  rw [getTxn]
  cases hlookup : p.txns.lookup id with
  | some tx => exact .found tx hlookup
  | none =>
    obtain ⟨hget, hresult⟩ := getConnForSchema_grows p id schemaName db
    generalize p.getConnForSchema id schemaName db = got at hget hresult
    obtain ⟨found, p'⟩ := got
    cases found with
    | none => exact .failed p' hlookup hget
    | some c =>
      have hc : p'.conns.lookup id = some c := hresult c rfl
      obtain ⟨huse, hok⟩ := useConn_grows hc db.begin
      dsimp only
      generalize p'.useConn c db.begin = used at huse hok
      obtain ⟨success, p''⟩ := used
      cases success with
      | true =>
        obtain ⟨rfl, hopen⟩ := hok rfl
        exact .begun _ c hlookup hget hc hopen
      | false => exact .failed p'' hlookup (hget.trans huse)

end Grows

/-! ## What every call keeps -/

section Kept

variable {p : ConnectionPool}

theorem kept_storeTxn (h : Kept p) {id : Id} {c : Conn} (hnone : p.txns.lookup id = none)
    (hconn : p.conns.lookup id = some c) : Kept (p.storeTxn id c).2 where
  conns := h.conns
  txns id' tx htx := by
    rcases lookup_of_insert htx with ⟨rfl, rfl⟩ | ⟨-, hold⟩
    · exact h.conns id' c hconn
    · exact h.txns id' tx hold
  running tx hrun := by
    rcases Finset.mem_insert.mp hrun with rfl | hrun
    · exact (h.conns id c hconn).symm ▸ AList.lookup_insert _
    · have hold := h.running tx hrun
      have hne : tx.conn.session ≠ id := by
        intro hid
        rw [hid, hnone] at hold
        cases hold
      exact (AList.lookup_insert_ne hne).trans hold

theorem kept_erase (h : Kept p) (id : Id) : Kept { p with conns := p.conns.erase id } :=
  ⟨fun id' c hc => h.conns id' c (lookup_of_erase hc).2, h.txns, h.running⟩

theorem kept_closeTxn (h : Kept p) (id : Id) : Kept (p.closeTxn id) := by
  unfold closeTxn
  split
  · rename_i tx htx
    refine ⟨h.conns, fun id' tx' h' => h.txns id' tx' (lookup_of_erase h').2, fun tx' hrun => ?_⟩
    obtain ⟨hne, hrun⟩ := Finset.mem_erase.mp hrun
    have hold := h.running tx' hrun
    refine (AList.lookup_erase_ne fun hid => hne ?_).trans hold
    rw [hid, htx] at hold
    exact (Option.some.inj hold).symm
  · exact h

theorem kept_closeConn (h : Kept p) (id : Id) : Kept (p.closeConn id) := by
  unfold closeConn
  split
  · split
    · exact kept_erase h id
    · exact ⟨h.conns, h.txns, h.running⟩
  · exact h

theorem kept_connClosed (h : Kept p) (id : Id) : Kept (p.connClosed id) := by
  unfold connClosed
  split
  · split
    · exact kept_erase h id
    · exact h
  · exact h

/-- Behind `Close` no transaction is running. -/
theorem closeAll_running (h : Kept p) : p.closeAll.running = ∅ := by
  refine Finset.eq_empty_of_forall_notMem fun tx hrun => ?_
  obtain ⟨hrun, hnot⟩ := Finset.mem_sdiff.mp hrun
  have hmem : ⟨_, tx⟩ ∈ p.txns.entries := AList.mem_lookup_iff.mp (h.running tx hrun)
  exact hnot (List.mem_toFinset.mpr (List.mem_map.mpr ⟨_, hmem, rfl⟩))

theorem kept_reset (h : Kept p) (rollsBack : Id → Bool) (dbCloses : Bool) :
    Kept (p.reset rollsBack dbCloses) := by
  have hnone : ∀ tx, tx ∉ p.closeAll.running := by simp [closeAll_running h]
  unfold reset
  split
  · exact ⟨fun _ _ hc => by simp at hc, fun _ _ hc => by simp at hc,
      fun tx hrun => absurd hrun (hnone tx)⟩
  · exact ⟨h.conns, h.txns, fun tx hrun => absurd hrun (hnone tx)⟩

theorem kept_step (h : Kept p) (call : Call) : Kept (step p call) := by
  cases call with
  | getConn id opens => exact (getConn_grows p id opens).1.kept h
  | getTxn id schemaName db =>
    have hcase := getTxn_case p id schemaName db
    rw [step]
    generalize p.getTxn id schemaName db = result at hcase
    cases hcase with
    | found tx htx => exact h
    | failed p' hnone hgrows => exact hgrows.kept h
    | begun p' c hnone hgrows hconn hopen =>
      exact kept_storeTxn (hgrows.kept h) (hgrows.txns ▸ hnone) hconn
  | endTx id discards =>
    rw [step]
    cases p.txns.lookup id with
    | none => exact h
    | some tx =>
      exact ⟨h.conns, h.txns, fun tx' hrun => h.running tx' (Finset.mem_of_mem_erase hrun)⟩
  | closeTxn id => exact kept_closeTxn h id
  | closeConn id => exact kept_closeConn h id
  | connClosed id => exact kept_connClosed h id
  | reset rollsBack dbCloses => exact kept_reset h rollsBack dbCloses

end Kept

/-! ## Steps -/

section Steps

variable {p : ConnectionPool}

theorem stored_storeTxn (h : Stored p) {id : Id} {c : Conn} (hconn : p.conns.lookup id = some c)
    (hopen : c ∉ p.done) : Stored (p.storeTxn id c).2 := by
  intro id' tx htx
  rcases lookup_of_insert htx with ⟨rfl, rfl⟩ | ⟨-, hold⟩
  · exact ⟨hconn, fun hclosed => hopen hclosed.1⟩
  · obtain ⟨hconn', hopen'⟩ := h id' tx hold
    refine ⟨hconn', fun hclosed => hopen' ⟨hclosed.1, ?_⟩⟩
    rintro ⟨tx', hrun, hsame⟩
    exact hclosed.2 ⟨tx', Finset.mem_insert_of_mem hrun, hsame⟩

theorem stored_getTxn (hkept : Kept p) (h : Stored p) (id : Id) (schemaName : List Char)
    (db : Database) : Stored (p.getTxn id schemaName db).2 := by
  have hcase := getTxn_case p id schemaName db
  generalize p.getTxn id schemaName db = result at hcase
  cases hcase with
  | found tx htx => exact h
  | failed p' hnone hgrows => exact hgrows.stored hkept h hnone
  | begun p' c hnone hgrows hconn hopen =>
    exact stored_storeTxn (hgrows.stored hkept h hnone) hconn hopen

theorem lookup_of_getTxn {id : Id} {schemaName : List Char} {db : Database} {tx : Tx}
    {p' : ConnectionPool} (h : p.getTxn id schemaName db = (some tx, p')) :
    p'.txns.lookup id = some tx := by
  have hcase := getTxn_case p id schemaName db
  rw [h] at hcase
  generalize hresult : (some tx, p') = result at hcase
  cases hcase with
  | found tx' htx =>
    cases hresult
    exact htx
  | failed p'' _ _ => cases hresult
  | begun p'' c _ _ _ _ =>
    cases hresult
    exact AList.lookup_insert _

theorem consistent_of_stored (hkept : Kept p) (h : Stored p) : Consistent p := by
  refine ⟨h, fun id schemaName db tx p' heq => ?_⟩
  have hstored := stored_getTxn hkept h id schemaName db
  rw [heq] at hstored
  exact hstored id tx (lookup_of_getTxn heq)

/-- No transaction is lost sight of:

  * one that ends while it is stored is not ended by its context, and its
    connection is not being closed;
  * `CloseConn` finds none of its session that has ended, and does not find
    the connection of one being closed already;
  * a `Reset` that fails finds none at all. -/
def Finished (p : ConnectionPool) : Call → Prop
  | .endTx id discards =>
    ∀ tx ∈ p.txns.lookup id, tx ∈ p.running → discards = false ∧ tx.conn ∉ p.done
  | .closeConn id => ∀ tx ∈ p.txns.lookup id, tx ∈ p.running ∧ tx.conn ∉ p.done
  | .reset rollsBack dbCloses =>
    p.txns.entries = [] ∨ (p.RollsBack rollsBack ∧ dbCloses = true)
  | _ => True

/-- What is done for one connection leaves the other sessions alone. -/
theorem openFor_other (hkept : Kept p) {p' : ConnectionPool} {c : Conn} {id : Id} {tx : Tx}
    (htx : p.txns.lookup id = some tx) (hne : id ≠ c.session) (h : OpenFor p id tx)
    (hconns : ∀ id, id ≠ c.session → p'.conns.lookup id = p.conns.lookup id)
    (hdone : ∀ d ∈ p'.done, d = c ∨ d ∈ p.done)
    (hrunning : ∀ tx ∈ p.running, tx.conn ≠ c → tx ∈ p'.running) : OpenFor p' id tx := by
  have hother : tx.conn ≠ c := fun heq => hne (heq ▸ (hkept.txns id tx htx).symm)
  refine ⟨(hconns id hne).trans h.1, fun hclosed => h.2 ⟨?_, ?_⟩⟩
  · exact (hdone _ hclosed.1).resolve_left hother
  · rintro ⟨tx', hrun, hsame⟩
    exact hclosed.2 ⟨tx', hrunning tx' hrun (hsame ▸ hother), hsame⟩

theorem endTx_other (hkept : Kept p) (h : Stored p) (tx : Tx) (discards : Bool) {id : Id} {tx' : Tx}
    (htx' : p.txns.lookup id = some tx') (hne : id ≠ tx.conn.session) :
    OpenFor (p.endTx tx discards) id tx' := by
  refine openFor_other hkept htx' hne (h id tx' htx') (fun _ _ => rfl) (fun d hd => ?_)
    fun tx'' hrun hother => Finset.mem_erase.mpr ⟨fun heq => hother (heq ▸ rfl), hrun⟩
  rw [endTx] at hd
  split at hd
  · exact Finset.mem_insert.mp hd
  · exact .inr hd

theorem stored_endTx_iff (hkept : Kept p) (h : Stored p) {id : Id} {tx : Tx}
    (htx : p.txns.lookup id = some tx) (discards : Bool) :
    Stored (p.endTx tx discards) ↔ (tx ∈ p.running → discards = false ∧ tx.conn ∉ p.done) := by
  obtain ⟨hconn, hopen⟩ := h id tx htx
  have hfree : ¬ (p.endTx tx discards).Busy tx.conn := by
    rintro ⟨tx', hrun, hsame⟩
    obtain ⟨hne, hrun⟩ := Finset.mem_erase.mp hrun
    have hother := hkept.running tx' hrun
    rw [hsame, hkept.txns id tx htx, htx] at hother
    exact hne (Option.some.inj hother).symm
  -- the connection is free behind the end, so it must not be done
  have hthis : OpenFor (p.endTx tx discards) id tx ↔ tx.conn ∉ (p.endTx tx discards).done :=
    ⟨fun hok hdone => hok.2 ⟨hdone, hfree⟩, fun hdone => ⟨hconn, fun hclosed => hdone hclosed.1⟩⟩
  have hall : Stored (p.endTx tx discards) ↔ OpenFor (p.endTx tx discards) id tx := by
    refine ⟨fun hstored => hstored id tx htx, fun hok id' tx' htx' => ?_⟩
    by_cases hid : id' = id
    · subst hid
      cases htx.symm.trans htx'
      exact hok
    · exact endTx_other hkept h tx discards htx' ((hkept.txns id tx htx).symm ▸ hid)
  rw [hall, hthis, endTx]
  by_cases hrun : tx ∈ p.running
  · cases discards <;> simp [hrun]
  · have hdone : tx.conn ∉ p.done := fun hdone =>
      hopen ⟨hdone, fun hbusy => hrun ((hkept.busy_iff htx).mp hbusy)⟩
    simp [hrun, hdone]

theorem stored_closeTxn (hkept : Kept p) (h : Stored p) (id : Id) : Stored (p.closeTxn id) := by
  unfold closeTxn
  split
  · rename_i tx htx
    intro id' tx' htx'
    obtain ⟨hne, hold⟩ := lookup_of_erase htx'
    exact endTx_other hkept h tx false hold (hkept.txns id tx htx ▸ hne)
  · exact h

/-- The entry of a connection can be deleted when its session has no
transaction. -/
theorem stored_erase_iff (h : Stored p) (id : Id) :
    Stored { p with conns := p.conns.erase id } ↔ p.txns.lookup id = none := by
  constructor
  · intro hstored
    by_contra hsome
    obtain ⟨tx, htx⟩ := Option.ne_none_iff_exists'.mp hsome
    have hconn : (p.conns.erase id).lookup id = some tx.conn := (hstored id tx htx).1
    rw [AList.lookup_erase] at hconn
    cases hconn
  · intro hnone id' tx htx
    obtain ⟨hconn, hopen⟩ := h id' tx htx
    refine ⟨(AList.lookup_erase_ne ?_).trans hconn, hopen⟩
    rintro rfl
    cases hnone.symm.trans htx

/-- A connection is closed at once, or when the transaction that is running
on it has ended. -/
theorem stored_closeConn_iff (hkept : Kept p) (h : Stored p) (id : Id) :
    Stored (p.closeConn id) ↔ ∀ tx ∈ p.txns.lookup id, tx ∈ p.running ∧ tx.conn ∉ p.done := by
  have hsame : ∀ c tx, p.conns.lookup id = some c → p.txns.lookup id = some tx → tx.conn = c :=
    fun c tx hc htx => Option.some.inj ((h id tx htx).1.symm.trans hc)
  rw [closeConn]
  cases hc : p.conns.lookup id with
  | none =>
    refine iff_of_true h fun tx htx => ?_
    cases hc.symm.trans (h id tx htx).1
  | some c =>
    dsimp only
    split
    next hdone =>
      rw [stored_erase_iff h]
      refine ⟨fun hnone tx htx => absurd (hnone.symm.trans htx) (by simp), fun hfinished => ?_⟩
      by_contra hsome
      obtain ⟨tx, htx⟩ := Option.ne_none_iff_exists'.mp hsome
      exact (hfinished tx htx).2 (hsame c tx hc htx ▸ hdone)
    next hdone =>
      constructor
      · intro hstored tx htx
        obtain rfl := hsame c tx hc htx
        refine ⟨?_, hdone⟩
        by_contra hended
        refine (hstored id tx htx).2 ⟨Finset.mem_insert_self _ _, fun hbusy => hended ?_⟩
        exact (hkept.busy_iff htx).mp hbusy
      · intro hfinished id' tx htx
        by_cases hid : id' = id
        · subst hid
          exact ⟨(h id' tx htx).1, fun hclosed => hclosed.2 ⟨tx, (hfinished tx htx).1, rfl⟩⟩
        · exact openFor_other hkept htx ((hkept.conns id c hc).symm ▸ hid) (h id' tx htx)
            (fun _ _ => rfl) (fun d hd => Finset.mem_insert.mp hd) fun _ hrun _ => hrun

/-- While a transaction is stored, its connection is not closed, and
`CloseConn` does not return. -/
theorem stored_connClosed (h : Stored p) (id : Id) : Stored (p.connClosed id) := by
  unfold connClosed
  split
  next c hc =>
    split
    next hclosed =>
      refine (stored_erase_iff h id).mpr ?_
      by_contra hsome
      obtain ⟨tx, htx⟩ := Option.ne_none_iff_exists'.mp hsome
      obtain ⟨hconn, hopen⟩ := h id tx htx
      cases hconn.symm.trans hc
      exact hopen hclosed
    next => exact h
  next => exact h

/-- A failed `Reset` has closed every stored connection. -/
theorem stored_closeAll_iff (hkept : Kept p) (h : Stored p) :
    Stored p.closeAll ↔ p.txns.entries = [] := by
  constructor
  · intro hstored
    by_contra hne
    obtain ⟨⟨id, tx⟩, hmem⟩ := List.exists_mem_of_ne_nil _ hne
    have htx : p.txns.lookup id = some tx := AList.mem_lookup_iff.mpr hmem
    have hconn : ⟨id, tx.conn⟩ ∈ p.conns.entries := AList.mem_lookup_iff.mp (h id tx htx).1
    refine (hstored id tx htx).2 ⟨Finset.mem_union_right _ (List.mem_toFinset.mpr ?_), ?_⟩
    · exact List.mem_map.mpr ⟨_, hconn, rfl⟩
    · rw [Busy, closeAll_running hkept]
      simp
  · intro hnil id tx htx
    have hmem : ⟨id, tx⟩ ∈ p.txns.entries := AList.mem_lookup_iff.mp htx
    rw [hnil] at hmem
    exact absurd hmem List.not_mem_nil

theorem stored_reset_iff (hkept : Kept p) (h : Stored p) (rollsBack : Id → Bool) (dbCloses : Bool) :
    Stored (p.reset rollsBack dbCloses) ↔
      p.txns.entries = [] ∨ (p.RollsBack rollsBack ∧ dbCloses = true) := by
  rw [reset]
  split
  next hok => exact iff_of_true (fun id tx htx => by simp at htx) (.inr hok)
  next hfails => rw [or_iff_left hfails, stored_closeAll_iff hkept h]

theorem stored_getConn (hkept : Kept p) (h : Stored p) (id : Id) (opens : Bool) :
    Stored (p.getConn id opens).2 := by
  rw [getConn]
  split
  · exact h
  · rename_i hnone
    split
    · -- a session without a connection has no transaction
      refine (grows_insert hnone).stored hkept h ?_
      by_contra hsome
      obtain ⟨tx, htx⟩ := Option.ne_none_iff_exists'.mp hsome
      cases hnone.symm.trans (h id tx htx).1
    · exact h

theorem stored_step_iff (hkept : Kept p) (h : Stored p) (call : Call) :
    Stored (step p call) ↔ Finished p call := by
  cases call with
  | getConn id opens => exact iff_of_true (stored_getConn hkept h id opens) trivial
  | getTxn id schemaName db => exact iff_of_true (stored_getTxn hkept h id schemaName db) trivial
  | endTx id discards =>
    rw [step, Finished]
    cases htx : p.txns.lookup id with
    | none => exact iff_of_true h nofun
    | some tx => simpa using stored_endTx_iff hkept h htx discards
  | closeTxn id => exact iff_of_true (stored_closeTxn hkept h id) trivial
  | closeConn id => exact stored_closeConn_iff hkept h id
  | connClosed id => exact iff_of_true (stored_connClosed h id) trivial
  | reset rollsBack dbCloses => exact stored_reset_iff hkept h rollsBack dbCloses

end Steps

/-! ## Runs -/

/-- In every state of a run the two maps belong together exactly if no call
of the run loses sight of a transaction. -/
theorem pool_consistent_iff (calls : List Call) :
    (∀ js, js <+: calls → Consistent (run step newConnectionPool js)) ↔
      Along step Finished newConnectionPool calls := by
  have hkept : Kept newConnectionPool :=
    ⟨fun _ _ hc => by simp [newConnectionPool] at hc,
      fun _ _ hc => by simp [newConnectionPool] at hc,
      fun _ hc => by simp [newConnectionPool] at hc⟩
  have hstored : Stored newConnectionPool := fun _ _ htx => by simp [newConnectionPool] at htx
  have hall : Along step (fun _ _ => True) newConnectionPool calls :=
    .of_forall (fun _ _ => trivial) _ _
  have hinv : ∀ p call, Kept p → True → Kept (step p call) := fun p call h _ => kept_step h call
  refine Along.good_iff hinv ?_ hkept (consistent_of_stored hkept hstored) hall
  intro p call hp hgood _
  rw [← stored_step_iff hp hgood.stored call]
  exact ⟨fun h => h.stored, consistent_of_stored (kept_step hp call)⟩

/-- The pool behind a transaction of the applier's session whose commit
fails, and a BACKUP that opens the database once more: every call of the
database that it makes succeeds, but the rollback of what has ended fails. -/
def restarted : ConnectionPool :=
  run step newConnectionPool
    [.getTxn 1 [] ⟨true, .ok, .ok⟩, .endTx 1 false, .reset (fun _ => true) true]

/-- The applier goes on, and `GetTxn` returns the transaction of the closed
connection. -/
theorem closed_connection_returned :
    ¬ Consistent restarted ∧
      (restarted.getTxn 1 [] ⟨true, .ok, .ok⟩).1 = some ⟨⟨1, 0⟩, 0⟩ ∧
      restarted.Closed ⟨1, 0⟩ := by
  refine ⟨fun h => ?_, rfl, by decide⟩
  exact absurd (h.stored 1 ⟨⟨1, 0⟩, 0⟩ rfl).2 (by decide)

end MyDuck.ConnPool
