/-
MyDuck.Binlog.ApplierTheorems — what each function of the applier does,
said once.

The results are equations for a call that meets no injected flush fault
and finds no torn appender: `flushDeltaBuffer_ok`, `commitOngoingTxn_ok`,
`appendEvent_eq_record`, `writeChanges_ok`. They name the state after the
call (`afterFlush`, `afterCommit`) and say how the changes moved: a flush
moves the buffered changes into the open transaction, a commit moves the
open transaction and the buffer into the durable history, and neither
adds or loses one. Everything about whole runs is derived from these.
-/
import MyDuck.Delta.BufferTheorems
import MyDuck.Binlog.Source

namespace MyDuck.Binlog

open MyDuck.Delta

/-! ## Changes of operations -/

@[simp] theorem changesOf_nil : changesOf [] = 0 := rfl

@[simp] theorem changesOf_append (xs ys : List Op) :
    changesOf (xs ++ ys) = changesOf xs + changesOf ys := by
  simp [changesOf]

@[simp] theorem changesOf_savePosition (p : Position) : changesOf [.savePosition p] = 0 := rfl

@[simp] theorem changesOf_query (g : Option Gtid) (q : Query) :
    changesOf [.query g q] = {(stampOf g, .stmt q)} := rfl

theorem changesOf_map_flush (tables : DeltaTables) :
    changesOf (tables.map (fun e => Op.flush e.1 e.2)) = bufferChanges tables := by
  simp only [changesOf, bufferChanges, List.flatMap_map]
  rfl

theorem changesOf_map_write (g : Option Gtid) (ws : List RowWrite) :
    changesOf (ws.map (Op.write g)) = tag g (ws.map Change.write) := by
  induction ws with
  | nil => rfl
  | cons w ws ih =>
    have hcons : changesOf ((w :: ws).map (Op.write g))
        = changesOf [Op.write g w] + changesOf (ws.map (Op.write g)) :=
      changesOf_append [Op.write g w] (ws.map (Op.write g))
    rw [hcons, ih]
    rfl

theorem tag_append (g : Option Gtid) (cs ds : List Change) :
    tag g (cs ++ ds) = tag g cs + tag g ds := by
  simp [tag]

@[simp] theorem tag_nil (g : Option Gtid) : tag g [] = 0 := rfl

@[simp] theorem bufferChanges_nil : bufferChanges [] = 0 := rfl

theorem rowsChanges_append (t : TableIdentifier) (xs ys : List DeltaRow) :
    rowsChanges t (xs ++ ys) = rowsChanges t xs ++ rowsChanges t ys := by
  simp [rowsChanges]

/-! ## Saved positions -/

def NoSaves (ops : List Op) : Prop := ∀ p, .savePosition p ∉ ops

theorem noSaves_nil : NoSaves [] := by simp [NoSaves]

theorem NoSaves.append {xs ys : List Op} (hx : NoSaves xs) (hy : NoSaves ys) :
    NoSaves (xs ++ ys) := by
  intro p hp
  rcases List.mem_append.mp hp with h | h
  · exact hx p h
  · exact hy p h

theorem noSaves_query (g : Option Gtid) (q : Query) : NoSaves [.query g q] := by
  simp [NoSaves]

theorem noSaves_map_flush (tables : DeltaTables) :
    NoSaves (tables.map (fun e => Op.flush e.1 e.2)) := by
  simp [NoSaves]

theorem noSaves_map_write (g : Option Gtid) (ws : List RowWrite) :
    NoSaves (ws.map (Op.write g)) := by
  simp [NoSaves]

theorem lastSaved_append_of_noSaves (xs : List Op) {ys : List Op} (h : NoSaves ys) :
    lastSaved (xs ++ ys) = lastSaved xs := by
  have hnil : ys.filterMap Op.saved? = [] := by
    rw [List.filterMap_eq_nil_iff]
    intro op hop
    cases op with
    | savePosition p => exact absurd hop (h p)
    | flush t a => rfl
    | write g w => rfl
    | query g q => rfl
  rw [lastSaved, List.filterMap_append, hnil, List.append_nil, lastSaved]

@[simp] theorem lastSaved_append_save (xs : List Op) (p : Position) :
    lastSaved (xs ++ [.savePosition p]) = some p := by
  simp [lastSaved, List.filterMap_append, Op.saved?]

/-! ## Positions in MySQL GTID mode -/

def IsMysql (p : Position) : Prop := ∃ s, p = some (.mysql56 s)

theorem IsMysql.ne_none {p : Position} (h : IsMysql p) : p ≠ none := by
  obtain ⟨s, rfl⟩ := h
  simp

theorem eq_mysql56 {g : Gtid} (h : g.isMysql56 = true) :
    ∃ server sequence, g = .mysql56 server sequence := by
  cases g with
  | mysql56 server sequence => exact ⟨server, sequence, rfl⟩
  | mariadb d s n | filePos file pos => simp [Gtid.isMysql56] at h

def MysqlGtid (g : Option Gtid) : Prop :=
  ∀ h, g = some h → h.isMysql56 = true

theorem IsMysql.appendGTID {p : Position} (h : IsMysql p) {g : Option Gtid} (hg : MysqlGtid g) :
    IsMysql (p.appendGTID g) := by
  obtain ⟨s, rfl⟩ := h
  cases g with
  | none => exact ⟨s, rfl⟩
  | some g =>
    obtain ⟨server, sequence, rfl⟩ := eq_mysql56 (hg g rfl)
    exact ⟨insert (server, sequence) s, rfl⟩

/-- A set of MySQL GTIDs gains the GTID appended to it and no other. -/
theorem contains_appendGTID {p : Position} (h : IsMysql p) {g : Option Gtid} (hg : MysqlGtid g)
    (x : Gtid) : (p.appendGTID g).contains x = true ↔ p.contains x = true ∨ g = some x := by
  obtain ⟨s, rfl⟩ := h
  cases g with
  | none => simp [Position.appendGTID]
  | some g =>
    obtain ⟨server, sequence, rfl⟩ := eq_mysql56 (hg g rfl)
    cases x with
    | mysql56 server' sequence' =>
      simp only [Position.appendGTID, GtidSet.addGTID, Position.contains, GtidSet.containsGTID,
        decide_eq_true_eq, Finset.mem_insert, Prod.mk.injEq, Option.some.injEq, Gtid.mysql56.injEq]
      constructor
      · rintro (⟨rfl, rfl⟩ | h)
        · exact .inr ⟨rfl, rfl⟩
        · exact .inl h
      · rintro (h | ⟨rfl, rfl⟩)
        · exact .inr h
        · exact .inl ⟨rfl, rfl⟩
    | mariadb d s' n =>
      simp [Position.appendGTID, GtidSet.addGTID, Position.contains, GtidSet.containsGTID]
    | filePos file pos =>
      simp [Position.appendGTID, GtidSet.addGTID, Position.contains, GtidSet.containsGTID]

/-! ## Buffers -/

theorem bufferChanges_eq (tables : DeltaTables) :
    bufferChanges tables
      = (allRows tables).map (fun x => (rowTxn x.2, .row x.1 x.2.action x.2.fields)) := by
  simp [bufferChanges, allRows, rowsChanges, List.map_flatMap, Function.comp_def]

theorem bufferChanges_of_drained {tables : DeltaTables} (h : Drained tables) :
    bufferChanges tables = 0 := by
  rw [bufferChanges_eq, allRows_of_drained h, Multiset.map_zero]

theorem bufferChanges_filter (tables : DeltaTables) :
    bufferChanges (tables.filter (fun e => e.2.rowCount ≠ 0)) = bufferChanges tables := by
  rw [bufferChanges_eq, allRows_filter, bufferChanges_eq]

variable {t : TableIdentifier} {f : Faults} {q : Query} {images : List Image} {e : RowsEvent}

/-- Rows appended to the appender of a table are rows added to the
buffer. -/
theorem bufferChanges_withAppender {schema : Schema} {tables : DeltaTables} {x : DeltaAppender}
    {rows : List DeltaRow} (hx : x.rows = (getDeltaAppender t schema tables).rows ++ rows) :
    bufferChanges (withAppender t schema (fun _ => x) tables)
      = bufferChanges tables + (rowsChanges t rows : Changes) := by
  rw [bufferChanges_eq, bufferChanges_eq, allRows_withAppender hx, Multiset.map_add]
  simp [rowsChanges, Function.comp_def]

/-! ## What is in flight -/

/-- The changes that are executed or buffered but not committed. -/
def inFlight (a : Applier) : Changes :=
  changesOf (a.session.txn.getD []) + bufferChanges a.deltas

/-- The position the session would load, in the durable history. -/
def savedPosition (start : Position) (a : Applier) : Position :=
  (lastSaved a.session.durable.flatten).getD start

/-- The applier took the changes `cs` in, under its current GTID. They and
what was in flight before are in flight now, except `x`, which became
durable; no position was saved. -/
structure Takes (a a' : Applier) (cs : List Change) (x : Changes) : Prop where
  durable : ∃ commits, a'.session.durable = a.session.durable ++ commits ∧
    (∀ ops ∈ commits, NoSaves ops) ∧ changesOf commits.flatten = x
  inFlight : x + inFlight a' = inFlight a + tag a.currentGtid cs
  noSaves : NoSaves (a'.session.txn.getD [])
  untorn : Untorn a'.deltas
  pending : a'.pendingPosition = a.pendingPosition
  current : a'.currentGtid = a.currentGtid
  previous : a'.previousGtid = a.previousGtid

section Takes

variable {a a' : Applier} {cs : List Change} {x : Changes}

theorem Takes.refl (hns : NoSaves (a.session.txn.getD [])) (ha : Untorn a.deltas) :
    Takes a a [] 0 :=
  ⟨⟨[], by simp, by simp, rfl⟩, by simp, hns, ha, rfl, rfl, rfl⟩

theorem Takes.changes (h : Takes a a' cs x) :
    changesOf a'.session.durable.flatten = changesOf a.session.durable.flatten + x := by
  obtain ⟨commits, hd, -, hx⟩ := h.durable
  rw [hd, List.flatten_append, changesOf_append, hx]

theorem Takes.saved (h : Takes a a' cs x) (start : Position) :
    savedPosition start a' = savedPosition start a := by
  obtain ⟨commits, hd, hns, -⟩ := h.durable
  have hflat : NoSaves commits.flatten := by
    intro p hp
    obtain ⟨ops, hops, hin⟩ := List.mem_flatten.mp hp
    exact hns ops hops p hin
  rw [savedPosition, savedPosition, hd, List.flatten_append, lastSaved_append_of_noSaves _ hflat]

/-- A property that only commits with a position have to prove. -/
theorem Takes.every (h : Takes a a' cs x) {P : List (List Op) → List Op → Prop}
    (hP : ∀ pre ops, NoSaves ops → P pre ops) (he : EveryCommit P a.session.durable) :
    EveryCommit P a'.session.durable := by
  obtain ⟨commits, hd, hns, -⟩ := h.durable
  rw [hd]
  exact he.append fun pre ops hops => hP pre ops (hns ops hops)

/-- A statement is executed in the open transaction, or is durable at
once. -/
theorem takes_exec (hns : NoSaves (a.session.txn.getD [])) (ha : Untorn a.deltas) (q : Query) :
    ∃ x, Takes a { a with session := a.session.exec (.query a.currentGtid q) } [.stmt q] x := by
  cases htxn : a.session.txn with
  | none =>
    have hexec : a.session.exec (.query a.currentGtid q)
        = ⟨a.session.durable ++ [[.query a.currentGtid q]], none⟩ := by simp [Session.exec, htxn]
    rw [hexec]
    refine ⟨tag a.currentGtid [.stmt q], ⟨_, rfl, ?_, rfl⟩, ?_, noSaves_nil, ha, rfl, rfl, rfl⟩
    · simpa using noSaves_query a.currentGtid q
    · simp [inFlight, htxn, add_comm]
  | some ops =>
    have hexec : a.session.exec (.query a.currentGtid q)
        = ⟨a.session.durable, some (ops ++ [.query a.currentGtid q])⟩ := by
      simp [Session.exec, htxn]
    rw [hexec]
    refine ⟨0, ⟨[], by simp, by simp, rfl⟩, ?_, ?_, ha, rfl, rfl, rfl⟩
    · simp only [inFlight, htxn, Option.getD_some, changesOf_append, zero_add]
      rw [add_right_comm]
      rfl
    · rw [htxn] at hns
      exact hns.append (noSaves_query _ _)

/-- `BEGIN` makes what is executed durable, without a position. -/
theorem takes_begin (hns : NoSaves (a.session.txn.getD [])) (ha : Untorn a.deltas) :
    Takes a { a with session := a.session.commit.getTxn } []
      (changesOf (a.session.txn.getD [])) := by
  cases htxn : a.session.txn with
  | none =>
    have hbegin : a.session.commit.getTxn = ⟨a.session.durable, some []⟩ := by
      simp [Session.commit, Session.getTxn, htxn]
    rw [hbegin]
    exact ⟨⟨[], by simp, by simp, rfl⟩, by simp [inFlight, htxn, tag], noSaves_nil, ha,
      rfl, rfl, rfl⟩
  | some ops =>
    have hbegin : a.session.commit.getTxn = ⟨a.session.durable ++ [ops], some []⟩ := by
      simp [Session.commit, Session.getTxn, htxn]
    rw [htxn] at hns
    rw [hbegin]
    exact ⟨⟨[ops], rfl, by simpa using hns, by simp⟩, by simp [inFlight, htxn, tag], noSaves_nil,
      ha, rfl, rfl, rfl⟩

end Takes

/-! ## Flush -/

/-- The state after a flush that wrote `fl` and left `tables`. -/
def afterFlush (a : Applier) (fl : List Op) (tables : DeltaTables) : Applier :=
  { a with
    session := ⟨a.session.durable, some (a.session.txn.getD [] ++ fl)⟩,
    deltas := tables, deltaBufSize := 0 }

/-- The statements of a flush: one `updateTable` for every table that has
rows. -/
def flushOps (tables : DeltaTables) : List Op :=
  (tables.filter (fun e => e.2.rowCount ≠ 0)).map (fun e => Op.flush e.1 e.2)

theorem flushDeltaBuffer_eq (hf : f.flush = fun _ => false) (reason : FlushReason) {a : Applier}
    (ha : Untorn a.deltas) :
    ∃ tables, flushDeltaBuffer f reason a = .ok (afterFlush a (flushOps a.deltas) tables) ∧
      Drained tables := by
  obtain ⟨herr, happ, hleft⟩ := flush_ok reason ha
  refine ⟨(Delta.flush true (fun _ => false) reason a.deltas).tables, ?_, hleft⟩
  simp only [flushDeltaBuffer, hf, herr, happ, flushOps, afterFlush, Session.getTxn,
    Session.execAll_of_txn]

theorem changesOf_flushOps (tables : DeltaTables) :
    changesOf (flushOps tables) = bufferChanges tables := by
  rw [flushOps, changesOf_map_flush, bufferChanges_filter]

/-- A flush moves the buffered changes into the open transaction. -/
theorem flushDeltaBuffer_ok (hf : f.flush = fun _ => false) (reason : FlushReason) {a : Applier}
    (ha : Untorn a.deltas) :
    ∃ fl tables, flushDeltaBuffer f reason a = .ok (afterFlush a fl tables) ∧
      changesOf fl = bufferChanges a.deltas ∧ NoSaves fl ∧ Drained tables := by
  obtain ⟨tables, hfl, hdr⟩ := flushDeltaBuffer_eq hf reason ha
  exact ⟨_, tables, hfl, changesOf_flushOps _, noSaves_map_flush _, hdr⟩

theorem takes_flush {a : Applier} {fl : List Op} {tables : DeltaTables}
    (hch : changesOf fl = bufferChanges a.deltas) (hns : NoSaves fl) (hdr : Drained tables)
    (hopen : NoSaves (a.session.txn.getD [])) : Takes a (afterFlush a fl tables) [] 0 :=
  ⟨⟨[], by simp [afterFlush], by simp, rfl⟩,
    by simp [inFlight, afterFlush, hch, bufferChanges_of_drained hdr, tag], hopen.append hns,
    hdr.untorn, rfl, rfl, rfl⟩

/-! ## Commit -/

/-- The position a commit of a kind saves. -/
def savedBy (kind : CommitKind) (a : Applier) : Position :=
  if kind = .implicitCommitBeforeStmt then a.pendingPosition
  else a.pendingPosition.appendGTID a.currentGtid

/-- The state after a commit of the operations `ops` with the position
`p`. -/
def afterCommit (a : Applier) (now : Nat) (p : Position) (ops : List Op) (tables : DeltaTables) :
    Applier :=
  { a with
    session := ⟨a.session.durable ++ [ops ++ [.savePosition p]], none⟩,
    deltas := tables, deltaBufSize := 0, pendingPosition := p, currentPosition := p,
    ongoingBatchTxn := false, dirtyTxn := false, dirtyStream := false, inTxnStmtID := 0,
    lastCommitTime := now }

theorem commitOngoingTxn_eq (hf : f.flush = fun _ => false) (now : Nat) (kind : CommitKind)
    (reason : FlushReason) {a : Applier} (ha : Untorn a.deltas) (hp : savedBy kind a ≠ none) :
    ∃ tables, commitOngoingTxn f now kind reason a
        = .ok (afterCommit a now (savedBy kind a)
          (a.session.txn.getD [] ++ flushOps a.deltas) tables) ∧ Drained tables := by
  obtain ⟨tables, hfl, hdr⟩ := flushDeltaBuffer_eq hf reason ha
  refine ⟨tables, ?_, hdr⟩
  have hpend : savedBy kind (afterFlush a (flushOps a.deltas) tables) = savedBy kind a := rfl
  rw [commitOngoingTxn, hfl, Outcome.andThen_ok, saveAndCommit]
  simp only [savedBy] at hp hpend ⊢
  rw [hpend, if_neg hp]
  simp [afterFlush, afterCommit]

/-- A commit makes the open transaction and the buffer durable, with the
position. -/
theorem commitOngoingTxn_ok (hf : f.flush = fun _ => false) (now : Nat) (kind : CommitKind)
    (reason : FlushReason) {a : Applier} (ha : Untorn a.deltas) (hp : savedBy kind a ≠ none) :
    ∃ ops tables, commitOngoingTxn f now kind reason a
        = .ok (afterCommit a now (savedBy kind a) (a.session.txn.getD [] ++ ops) tables) ∧
      changesOf ops = bufferChanges a.deltas ∧ NoSaves ops ∧ Drained tables := by
  obtain ⟨tables, hc, hdr⟩ := commitOngoingTxn_eq hf now kind reason ha hp
  exact ⟨_, tables, hc, changesOf_flushOps _, noSaves_map_flush _, hdr⟩

section AfterCommit

variable (a : Applier) (now : Nat) (p : Position) (ops : List Op) (tables : DeltaTables)

theorem durable_afterCommit :
    (afterCommit a now p ops tables).session.durable.flatten
      = (a.session.durable.flatten ++ ops) ++ [.savePosition p] := by
  simp [afterCommit]

@[simp] theorem savedPosition_afterCommit (start : Position) :
    savedPosition start (afterCommit a now p ops tables) = p := by
  rw [savedPosition, durable_afterCommit, lastSaved_append_save, Option.getD_some]

/-- What was in flight is durable. -/
theorem changesOf_afterCommit (hch : changesOf ops = bufferChanges a.deltas) :
    changesOf (afterCommit a now p (a.session.txn.getD [] ++ ops) tables).session.durable.flatten
      = changesOf a.session.durable.flatten + inFlight a := by
  rw [durable_afterCommit]
  simp only [changesOf_append, changesOf_savePosition, add_zero, hch, inFlight]

theorem inFlight_afterCommit (hdr : Drained tables) :
    inFlight (afterCommit a now p ops tables) = 0 := by
  simp [inFlight, afterCommit, bufferChanges_of_drained hdr]

end AfterCommit

theorem eq_of_mem_commit {ops : List Op} (h : NoSaves ops) {p q : Position}
    (hq : .savePosition q ∈ ops ++ [.savePosition p]) : q = p := by
  rcases List.mem_append.mp hq with hq | hq
  · exact absurd hq (h q)
  · simpa using hq

/-- Only a batched transaction is extended. -/
theorem ongoing_of_mayExtend {now : Nat} {a : Applier} (h : (mayExtendBatchTxn now a).1 = true) :
    a.ongoingBatchTxn = true := by
  unfold mayExtendBatchTxn at h
  split at h
  · assumption
  · simp at h

theorem extendOrCommit_of_extend (f : Faults) {now : Nat} {a : Applier}
    (h : (mayExtendBatchTxn now a).1 = true) :
    extendOrCommitBatchTxn f now a = .ok { a with
      pendingPosition := a.pendingPosition.appendGTID a.currentGtid, dirtyStream := false } := by
  simp only [extendOrCommitBatchTxn, h, if_true]

theorem extendOrCommit_of_commit (f : Faults) {now : Nat} {a : Applier}
    (h : ¬ (mayExtendBatchTxn now a).1 = true) :
    extendOrCommitBatchTxn f now a
      = commitOngoingTxn f now .normalCommit (mayExtendBatchTxn now a).2 a := by
  simp only [extendOrCommitBatchTxn, h, if_false, Bool.false_eq_true]

/-! ## Queries -/

theorem executeQuery_of_dml {now : Nat} {a : Applier} (hskip : q.skipsTimeZone = false)
    (hprep : f.prepare = false) (hq : q.node.isDML = true) :
    executeQueryWithEngine f now q a = runStatement f now q false true .dmlStmt a := by
  cases hn : q.node <;> simp_all [executeQueryWithEngine, PlanNode.isDML]

theorem execute_eq (h : q.node ≠ .startTransaction) (a : Applier) :
    execute q a = a.session.exec (.query a.currentGtid q) := by
  unfold execute
  split
  · next hn => exact absurd hn h
  · rfl

/-- A statement that changes rows is executed on top of the flushed
buffer. -/
theorem executeQuery_dml_ok (hf : f.flush = fun _ => false) (now : Nat) {a : Applier}
    (hskip : q.skipsTimeZone = false) (hprep : f.prepare = false) (hexec : f.execute = false)
    (hq : q.node.isDML = true) (hns : NoSaves (a.session.txn.getD [])) (ha : Untorn a.deltas) :
    ∃ a', executeQueryWithEngine f now q a = .ok a' ∧ Takes a a' [.stmt q] 0 ∧
      a'.dirtyTxn = true := by
  obtain ⟨fl, tables, hfl, hch, hfns, hdr⟩ := flushDeltaBuffer_ok hf .dmlStmt ha
  have hnode : q.node ≠ .startTransaction ∧ causeImplicitCommitAfter q.node = false := by
    cases hn : q.node <;> simp_all [PlanNode.isDML, causeImplicitCommitAfter]
  have hx := (takes_flush hch hfns hdr hns).inFlight
  rw [executeQuery_of_dml hskip hprep hq, runStatement, if_pos rfl, hfl]
  simp only [Outcome.andThen_ok, Bool.false_and, Bool.false_eq_true, if_false, executeAndCommit,
    hexec, execute_eq hnode.1, hnode.2]
  refine ⟨_, rfl, ⟨⟨[], ?_, by simp, rfl⟩, ?_, ?_, hdr.untorn, rfl, rfl, rfl⟩, rfl⟩
  · simp [afterFlush]
  · rw [tag_nil, add_zero, zero_add] at hx
    rw [zero_add, ← hx]
    simp only [inFlight, afterFlush, Session.exec_of_txn, Option.getD_some, changesOf_append]
    rw [add_right_comm]
    rfl
  · exact (hns.append hfns).append (noSaves_query _ _)

/-- The statements that commit implicitly are executed between a commit
before and a commit after; those that change a schema clear the cache. -/
theorem executeQuery_of_commitAfter (now : Nat) (a : Applier) (hskip : q.skipsTimeZone = false)
    (hprep : f.prepare = false) (hq : causeImplicitCommitAfter q.node = true) :
    ∃ reason cache, executeQueryWithEngine f now q a
      = runStatement f now q true true reason { a with tablesByName := cache } := by
  by_cases hsc : causeSchemaChange q.node = true
  · refine ⟨.ddlStmt, [], ?_⟩
    cases hn : q.node <;> simp_all [executeQueryWithEngine, causeImplicitCommitAfter,
      causeImplicitCommitBefore, causeSchemaChange]
  · refine ⟨.unknown, a.tablesByName, ?_⟩
    cases hn : q.node <;> simp_all [executeQueryWithEngine, causeImplicitCommitAfter,
      causeImplicitCommitBefore, causeSchemaChange]

/-- A query event ends in the state its query left, one statement
further. -/
theorem processQuery_leaves {P : Applier → Prop} {now : Nat} {a : Applier}
    (h : (executeQueryWithEngine f now q a).Leaves P) (hP : ∀ a, P a → P (nextStmt a)) :
    (processQuery f now q a).Leaves P := by
  unfold processQuery
  cases hr : executeQueryWithEngine f now q a with
  | ok a' => rw [hr] at h; exact hP a' h
  | error e a' => rw [hr] at h; exact hP a' h
  | panic => rw [hr] at h; exact h

/-! ## Row events through the buffer -/

def decodedRows (images : List Image) : List Row := images.filterMap Image.decode

/-- Every image the event carries decodes. -/
def Decodes (event : RowEventType) (rows : List RowImage) : Prop :=
  ∀ r ∈ rows, (event ≠ .insert → r.identify.decode.isSome = true) ∧
    (event ≠ .delete → r.data.decode.isSome = true)

instance (event : RowEventType) (rows : List RowImage) : Decidable (Decodes event rows) :=
  inferInstanceAs (Decidable (∀ r ∈ rows, _))

theorem decodedRows_length (h : ∀ im ∈ images, im.decode.isSome = true) :
    (decodedRows images).length = images.length := by
  induction images with
  | nil => rfl
  | cons im images ih =>
    obtain ⟨row, hrow⟩ := Option.isSome_iff_exists.mp (h im List.mem_cons_self)
    have ih' := ih fun im' h' => h im' (List.mem_cons_of_mem _ h')
    simp only [decodedRows, List.filterMap_cons, hrow, List.length_cons] at ih' ⊢
    rw [ih']

theorem appendImages_ok (mk : Row → DeltaRow) (h : ∀ im ∈ images, im.decode.isSome = true)
    (r : Appended) :
    appendImages mk images r =
      { r with
        appender := { r.appender with rows := r.appender.rows ++ (decodedRows images).map mk },
        size := r.size + (images.map Image.bytes).sum } := by
  induction images generalizing r with
  | nil => simp [appendImages, decodedRows]
  | cons im images ih =>
    obtain ⟨row, hrow⟩ := Option.isSome_iff_exists.mp (h im List.mem_cons_self)
    simp only [appendImages, hrow]
    rw [ih fun im' h' => h im' (List.mem_cons_of_mem _ h')]
    simp [decodedRows, hrow, DeltaAppender.appendRow, Nat.add_assoc]

/-- The rows `appendRowFormatChanges` buffers: all before images, then all
after images. -/
def eventRows (stamp : TxnStamp) (stmt : Nat) (event : RowEventType) (rows : List RowImage) :
    List DeltaRow :=
  (if event = .insert then []
    else (decodedRows (rows.map RowImage.identify)).map (deltaRow stamp stmt .delete)) ++
  (if event = .delete then []
    else (decodedRows (rows.map RowImage.data)).map (deltaRow stamp stmt .insert))

/-- The event as the delta buffer records it. -/
def rowEventOf (stamp : TxnStamp) (stmt : Nat) (event : RowEventType) (rows : List RowImage) :
    RowEvent where
  event := event
  rows := eventRows stamp stmt event rows
  actions_ok := by
    intro r hr
    cases event <;>
      simp only [eventRows, reduceCtorEq, if_true, if_false, List.append_nil, List.nil_append,
        List.mem_append, List.mem_map] at hr
    · obtain ⟨row, -, rfl⟩ := hr
      simp [deltaRow]
    · rcases hr with ⟨row, -, rfl⟩ | ⟨row, -, rfl⟩ <;> simp [deltaRow]
    · obtain ⟨row, -, rfl⟩ := hr
      simp [deltaRow]

theorem countP_deltaRow (stamp : TxnStamp) (stmt : Nat) (action k : RowEventType)
    (rows : List Row) :
    (rows.map (deltaRow stamp stmt action)).countP (fun r => decide (r.action = k))
      = if action = k then rows.length else 0 := by
  induction rows with
  | nil => simp
  | cons row rows ih =>
    rw [List.map_cons, List.countP_cons, ih]
    by_cases hk : action = k <;> simp [deltaRow, hk]

/-- **An event that decodes is recorded**: the calls of the appender are
those the flush theorems are about. -/
theorem appendEvent_eq_record (stamp : TxnStamp) (stmt : Nat) {event : RowEventType}
    {rows : List RowImage} (h : Decodes event rows) (appender : DeltaAppender) :
    (appendEvent stamp stmt event rows appender).ok = true ∧
      (appendEvent stamp stmt event rows appender).appender
        = appender.record (rowEventOf stamp stmt event rows) := by
  have hid : event ≠ .insert → ∀ im ∈ rows.map RowImage.identify, im.decode.isSome = true := by
    intro he im him
    obtain ⟨r, hr, rfl⟩ := List.mem_map.mp him
    exact (h r hr).1 he
  have hda : event ≠ .delete → ∀ im ∈ rows.map RowImage.data, im.decode.isSome = true := by
    intro he im him
    obtain ⟨r, hr, rfl⟩ := List.mem_map.mp him
    exact (h r hr).2 he
  have hli := fun he => decodedRows_length (hid he)
  have hld := fun he => decodedRows_length (hda he)
  cases event
  · have h1 := hid (by decide)
    have hl := hli (by decide)
    simp [-List.countP_map, appendEvent, appendPhase, appendImages_ok _ h1, DeltaAppender.record,
      rowEventOf, eventRows, foldl_appendRow, countP_deltaRow, hl, DeltaAppender.updateActionStats,
      Counters.updateActionStats]
  · have h1 := hid (by decide)
    have h2 := hda (by decide)
    have hl := hli (by decide)
    have hl' := hld (by decide)
    simp [-List.countP_map, appendEvent, appendPhase, appendImages_ok _ h1, appendImages_ok _ h2,
      DeltaAppender.record, rowEventOf, eventRows, foldl_appendRow, countP_deltaRow, hl, hl',
      DeltaAppender.updateActionStats, List.countP_append, DeltaAppender.observeEvents,
      Counters.updateActionStats, Counters.observeEvents]
  · have h2 := hda (by decide)
    have hl' := hld (by decide)
    simp [-List.countP_map, appendEvent, appendPhase, appendImages_ok _ h2, DeltaAppender.record,
      rowEventOf, eventRows, foldl_appendRow, countP_deltaRow, hl', DeltaAppender.updateActionStats,
      Counters.updateActionStats]

/-! ## Row events -/

theorem imageChanges_of_decodes {action : RowEventType}
    (h : ∀ im ∈ images, im.decode.isSome = true) :
    imageChanges t action images = (decodedRows images).map (Change.row t action) := by
  induction images with
  | nil => rfl
  | cons im images ih =>
    obtain ⟨row, hrow⟩ := Option.isSome_iff_exists.mp (h im List.mem_cons_self)
    have ih' := ih fun im' h' => h im' (List.mem_cons_of_mem _ h')
    simp only [imageChanges, decodedRows] at ih' ⊢
    rw [List.map_cons, List.filterMap_cons, hrow, List.map_cons, ih']

theorem rowsChanges_deltaRow (t : TableIdentifier) (g : Option Gtid) (stmt : Nat)
    (action : RowEventType) (rows : List Row) :
    rowsChanges t (rows.map (deltaRow (stampOf g) stmt action))
      = (rows.map (Change.row t action)).map (fun c => (stampOf g, c)) := by
  simp [rowsChanges, deltaRow, rowTxn]

/-- The rows of an event carry the event's changes, under the stamp of the
current transaction. -/
theorem rowsChanges_eventRows (t : TableIdentifier) (g : Option Gtid) (stmt : Nat)
    {event : RowEventType} {rows : List RowImage} (h : Decodes event rows) :
    (rowsChanges t (eventRows (stampOf g) stmt event rows) : Changes)
      = tag g (eventChanges t event rows) := by
  have hid : event ≠ .insert → imageChanges t .delete (rows.map RowImage.identify)
      = (decodedRows (rows.map RowImage.identify)).map (Change.row t .delete) := by
    intro he
    refine imageChanges_of_decodes fun im him => ?_
    obtain ⟨r, hr, rfl⟩ := List.mem_map.mp him
    exact (h r hr).1 he
  have hda : event ≠ .delete → imageChanges t .insert (rows.map RowImage.data)
      = (decodedRows (rows.map RowImage.data)).map (Change.row t .insert) := by
    intro he
    refine imageChanges_of_decodes fun im him => ?_
    obtain ⟨r, hr, rfl⟩ := List.mem_map.mp him
    exact (h r hr).2 he
  rw [tag, eventChanges, eventRows, rowsChanges_append, List.map_append]
  congr 2
  · split
    · rfl
    · next he => rw [hid he, rowsChanges_deltaRow]
  · split
    · rfl
    · next he => rw [hda he, rowsChanges_deltaRow]

/-- A row event through the buffer: the rows are buffered. -/
theorem appendRowFormatChanges_ok (t : TableIdentifier) (schema : Schema) {a : Applier}
    (h : Decodes e.event e.rows) (hns : NoSaves (a.session.txn.getD [])) (ha : Untorn a.deltas) :
    ∃ a', appendRowFormatChanges t schema e a = .ok a' ∧
      Takes a a' (eventChanges t e.event e.rows) 0 := by
  obtain ⟨hok, happ⟩ := appendEvent_eq_record (stampOf a.currentGtid) a.inTxnStmtID h
    (getDeltaAppender t schema a.deltas)
  simp only [appendRowFormatChanges, hok, if_true]
  refine ⟨_, rfl, ⟨⟨[], by simp, by simp, rfl⟩, ?_, hns, ?_, rfl, rfl, rfl⟩⟩
  · have hrows : (appendEvent (stampOf a.currentGtid) a.inTxnStmtID e.event e.rows
        (getDeltaAppender t schema a.deltas)).appender.rows
          = (getDeltaAppender t schema a.deltas).rows
            ++ eventRows (stampOf a.currentGtid) a.inTxnStmtID e.event e.rows := by
      rw [happ]
      simp [DeltaAppender.record, foldl_appendRow, rowEventOf]
    simp only [inFlight, zero_add]
    rw [bufferChanges_withAppender hrows, rowsChanges_eventRows t _ _ h, add_assoc]
  · refine withAppender_untorn ha fun _ => ?_
    rw [happ]
    simp [DeltaAppender.record, foldl_appendRow, getDeltaAppender_torn ha]

/-- A row event through the table writer: the rows are written in the open
transaction. -/
theorem writeChanges_ok (hf : f.write = none) {ws : List RowWrite} (hws : rowWrites t e = some ws)
    {a : Applier} (hns : NoSaves (a.session.txn.getD [])) (ha : Untorn a.deltas) :
    ∃ a', writeChanges f t e a = .ok a' ∧ Takes a a' (ws.map .write) 0 := by
  simp only [writeChanges, hws, hf]
  refine ⟨_, rfl, ⟨⟨[], by simp [Session.getTxn], by simp, rfl⟩, ?_, ?_, ha, rfl, rfl, rfl⟩⟩
  · simp only [inFlight, Session.getTxn, Session.execAll_of_txn, Option.getD_some, zero_add]
    rw [changesOf_append, changesOf_map_write, add_right_comm]
  · simp only [Session.getTxn, Session.execAll_of_txn, Option.getD_some]
    exact hns.append (noSaves_map_write _ _)

/-- The event is applied: its table resolves, its images decode, and the
table writer does not fail. -/
def RowEventOk (env : Env) (f : Faults) (e : RowsEvent) (a : Applier) : Prop :=
  match planRowEvent env e a with
  | .fail _ => False
  | .skip => True
  | .resolved m info => m.columns = info.schema.length ∧
      if e.isRowFormat info.schema.length && hasPrimaryKey info.schema then
        Decodes e.event e.rows
      else f.write = none ∧ (rowWrites ⟨m.database, info.name⟩ e).isSome = true

instance (env : Env) (f : Faults) (e : RowsEvent) (a : Applier) :
    Decidable (RowEventOk env f e a) := by
  unfold RowEventOk
  split <;> infer_instance

theorem cacheTable_eq (m : TableMap) (info : TableInfo) (a : Applier) :
    ∃ cache, cacheTable m info a = { a with tablesByName := cache } := by
  unfold cacheTable
  split
  · exact ⟨a.tablesByName, rfl⟩
  · exact ⟨_, rfl⟩

theorem processRowEvent_ok {env : Env} {a : Applier} (h : RowEventOk env f e a)
    (hns : NoSaves (a.session.txn.getD [])) (ha : Untorn a.deltas) :
    ∃ a', processRowEvent env f e a = .ok a' ∧ Takes a a' (rowChanges env a e) 0 := by
  unfold RowEventOk at h
  unfold processRowEvent rowChanges
  cases hplan : planRowEvent env e a with
  | fail err => simp [hplan] at h
  | skip => exact ⟨a, rfl, Takes.refl hns ha⟩
  | resolved m info =>
    simp only [hplan] at h
    obtain ⟨cache, hcache⟩ := cacheTable_eq m info a
    simp only [hcache, h.1, ne_eq, not_true_eq_false, if_false]
    by_cases hfull : (e.isRowFormat info.schema.length && hasPrimaryKey info.schema) = true
    · rw [if_pos hfull] at h
      rw [if_pos hfull, if_pos hfull]
      obtain ⟨a', hrun, ht⟩ := appendRowFormatChanges_ok ⟨m.database, info.name⟩ info.schema
        (a := { a with tablesByName := cache }) h.2 hns ha
      exact ⟨a', hrun, { ht with }⟩
    · rw [if_neg hfull] at h
      rw [if_neg hfull, if_neg hfull]
      obtain ⟨ws, hws⟩ := Option.isSome_iff_exists.mp h.2.2
      obtain ⟨a', hrun, ht⟩ := writeChanges_ok h.2.1 hws
        (a := { a with tablesByName := cache, ongoingBatchTxn := false }) hns ha
      simp only [hws]
      exact ⟨a', hrun, { ht with }⟩

end MyDuck.Binlog
