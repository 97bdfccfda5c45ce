/-
MyDuck.Binlog.SchemaTheorems — which schema a row event is decoded with.

The applier keeps two copies of what the catalog says of a table: the
cache of `getTableSchema` and the schema of the table's delta appender.
`Fresh` says that both agree with the catalog as it is now. Every input
keeps it except a statement that changes a table and is not seen as one:
`causeSchemaChange` empties the cache and drops the appenders, and it is
a switch over plan nodes. An `ALTER TABLE` of several clauses is a
`plan.Block` and a change of the primary key is a node of its own, and
the switch has neither, nor has `causeImplicitCommitBefore`, which is
what flushes the rows buffered so far.

The catalog itself is not modelled here. What is used of it is
`CatalogContract`: only the statements that change tables change it, and
names are looked up without regard to case. The look-up takes the name as a
pattern (`GetTableInsensitive` has ILIKE), so the answer may be another
table; that it is the one of the name is part of the condition.
-/
import MyDuck.Binlog.ApplierTheorems
import MyDuck.Base.Run

namespace MyDuck.Binlog

open MyDuck.Delta

/-! ## Statements that change tables -/

/-- The nodes a DDL statement is planned as: one of those `causeSchemaChange`
knows, the change of a primary key, or a block of clauses. -/
def PlanNode.changesTables (node : PlanNode) : Bool :=
  causeSchemaChange node || node = .alterPK || node = .block

def Op.changesTables : Op → Bool
  | .query _ q => q.node.changesTables
  | _ => false

def Steady (ops : List Op) : Prop := ∀ op ∈ ops, op.changesTables = false

theorem steady_nil : Steady [] := fun _ h => absurd h List.not_mem_nil

theorem Steady.append {xs ys : List Op} (hx : Steady xs) (hy : Steady ys) : Steady (xs ++ ys) := by
  intro op hop
  rcases List.mem_append.mp hop with h | h
  · exact hx op h
  · exact hy op h

theorem steady_singleton {op : Op} (h : op.changesTables = false) : Steady [op] := by
  intro x hx
  rwa [List.mem_singleton.mp hx]

theorem steady_map_flush (tables : DeltaTables) :
    Steady (tables.map (fun e => Op.flush e.1 e.2)) := by
  intro op hop
  obtain ⟨e, -, rfl⟩ := List.mem_map.mp hop
  rfl

theorem steady_map_write (g : Option Gtid) (ws : List RowWrite) : Steady (ws.map (Op.write g)) := by
  intro op hop
  obtain ⟨w, -, rfl⟩ := List.mem_map.mp hop
  rfl

/-- A statement `causeSchemaChange` knows commits before and after. -/
theorem commits_of_causeSchemaChange {node : PlanNode} (h : causeSchemaChange node = true) :
    causeImplicitCommitBefore node = true ∧ causeImplicitCommitAfter node = true := by
  revert h
  cases node <;> decide

/-! ## The catalog -/

/-- The name under which a table is cached. -/
def folded (t : TableIdentifier) : TableIdentifier := ⟨toLower t.dbName, toLower t.tableName⟩

/-- What the applier may assume of the catalog. -/
structure CatalogContract (env : Env) : Prop where
  stable : ∀ ops op, op.changesTables = false → env.catalog (ops ++ [op]) = env.catalog ops
  insensitive : ∀ ops t u, folded t = folded u → env.catalog ops t = env.catalog ops u

theorem CatalogContract.append {env : Env} (h : CatalogContract env) (ops : List Op)
    {xs : List Op} (hxs : Steady xs) : env.catalog (ops ++ xs) = env.catalog ops := by
  induction xs using List.reverseRecOn with
  | nil => rw [List.append_nil]
  | append_singleton xs x ih =>
    rw [← List.append_assoc, h.stable _ x (hxs x (by simp)),
      ih fun op hop => hxs op (List.mem_append_left _ hop)]

/-- The exact name of a table finds it too. -/
theorem CatalogContract.exact_name {env : Env} (h : CatalogContract env) {ops : List Op}
    {database name : String} {info : TableInfo}
    (hfound : env.catalog ops ⟨database, name⟩ = some info)
    (hname : toLower info.name = toLower name) :
    env.catalog ops ⟨database, info.name⟩ = some info := by
  have hfold : folded ⟨database, info.name⟩ = folded ⟨database, name⟩ := by
    simp only [folded, hname]
  rw [h.insensitive ops _ _ hfold, hfound]

/-- Rolling steady operations back does not change what the catalog
says. -/
theorem CatalogContract.rollback {env : Env} (h : CatalogContract env) {s : Session Op}
    (hs : Steady (s.txn.getD [])) : env.catalog s.rollback.working = env.catalog s.working := by
  rw [s.working_eq_rollback_append, h.append _ hs]

/-! ## Freshness -/

/-- What the applier keeps of the catalog is what the catalog says. -/
structure Fresh (env : Env) (a : Applier) : Prop where
  cache : ∀ e ∈ a.tablesByName, ∀ t, folded t = e.1 → env.catalog a.session.working t = some e.2
  appenders : ∀ e ∈ a.deltas, ∃ info, env.catalog a.session.working e.1 = some info ∧
    info.schema = e.2.schema
  steady : Steady (a.session.txn.getD [])

/-- Every appender of the first map is one of the second, as far as the
table and the schema go. -/
def SchemasFrom (tables tables' : DeltaTables) : Prop :=
  ∀ e ∈ tables, ∃ e' ∈ tables', e'.1 = e.1 ∧ e'.2.schema = e.2.schema

theorem SchemasFrom.refl (tables : DeltaTables) : SchemasFrom tables tables :=
  fun e he => ⟨e, he, rfl, rfl⟩

/-- A flush builds no appender, also when it fails. -/
theorem schemasFrom_flush (hasTx : Bool) (fails : TableIdentifier → Bool) (reason : FlushReason)
    (tables : DeltaTables) : SchemasFrom (flush hasTx fails reason tables).tables tables := by
  have hkeep : ∀ (t : TableIdentifier) (a x : DeltaAppender) (us vs : DeltaTables),
      a.schema = x.schema → SchemasFrom us vs →
        SchemasFrom (keepAfter reason t x ++ us) ((t, a) :: vs) := by
    intro t a x us vs hax h e he
    rcases List.mem_append.mp he with he | he
    · unfold keepAfter at he
      split at he
      · cases he
      · obtain rfl := List.mem_singleton.mp he
        exact ⟨(t, a), List.mem_cons_self, rfl, hax⟩
    · obtain ⟨e', he', heq⟩ := h e he
      exact ⟨e', List.mem_cons_of_mem _ he', heq⟩
  induction tables with
  | nil => exact SchemasFrom.refl []
  | cons e rest ih =>
    obtain ⟨t, a⟩ := e
    simp only [flush]
    split_ifs with h0 htx htorn hfails
    · exact hkeep t a a _ _ rfl ih
    · exact SchemasFrom.refl _
    · exact SchemasFrom.refl _
    · intro e he
      rcases List.mem_cons.mp he with rfl | he
      · exact ⟨(t, a), List.mem_cons_self, rfl, rfl⟩
      · exact ⟨e, List.mem_cons_of_mem _ he, rfl, rfl⟩
    · exact hkeep t a a.drained _ _ rfl ih

section Fresh

variable {env : Env} {a : Applier}

/-- Nothing is kept that the catalog does not say when nothing new is
kept and the catalog says the same. -/
theorem Fresh.move (h : Fresh env a) {a' : Applier}
    (hcat : env.catalog a'.session.working = env.catalog a.session.working)
    (hsteady : Steady (a'.session.txn.getD [])) (hcache : a'.tablesByName ⊆ a.tablesByName)
    (hdeltas : SchemasFrom a'.deltas a.deltas) : Fresh env a' where
  cache := fun e he t ht => by rw [hcat]; exact h.cache e (hcache he) t ht
  appenders := fun e he => by
    obtain ⟨e', he', hkey, hschema⟩ := hdeltas e he
    obtain ⟨info, hinfo, hs⟩ := h.appenders e' he'
    exact ⟨info, by rw [hcat, ← hkey, hinfo], hs.trans hschema⟩
  steady := hsteady

/-- The fields that hold nothing of the catalog do not matter. -/
theorem Fresh.congr (h : Fresh env a) {a' : Applier} (hs : a'.session = a.session)
    (hc : a'.tablesByName = a.tablesByName) (hd : a'.deltas = a.deltas) : Fresh env a' :=
  h.move (by rw [hs]) (by rw [hs]; exact h.steady) (by rw [hc]; exact List.Subset.refl _)
    (by rw [hd]; exact SchemasFrom.refl _)

/-- Rows appended with the catalog's schema. -/
theorem Fresh.getDeltaAppender_schema (h : Fresh env a) {t : TableIdentifier} {info : TableInfo}
    (hinfo : env.catalog a.session.working t = some info) :
    (getDeltaAppender t info.schema a.deltas).schema = info.schema := by
  rw [getDeltaAppender]
  cases hl : a.deltas.lookup t with
  | none => rfl
  | some x =>
    obtain ⟨pre, post, hsplit, -⟩ := List.lookup_eq_some_iff.mp hl
    obtain ⟨info', hinfo', hs⟩ := h.appenders (t, x) (by rw [hsplit]; simp)
    obtain rfl : info = info' := by rw [hinfo] at hinfo'; exact Option.some.inj hinfo'
    exact hs.symm

/-- `getTableSchema` gives what the catalog says. -/
theorem Fresh.getTableSchema (h : Fresh env a) {m : TableMap} {info : TableInfo}
    (hfound : Binlog.getTableSchema env m a = some info) :
    env.catalog a.session.working ⟨m.database, m.name⟩ = some info := by
  unfold Binlog.getTableSchema at hfound
  split at hfound
  · next x hx =>
    obtain ⟨pre, post, hsplit, -⟩ := List.lookup_eq_some_iff.mp hx
    obtain rfl := Option.some.inj hfound
    exact h.cache (m.cacheKey, x) (by rw [hsplit]; simp) ⟨m.database, m.name⟩ rfl
  · exact hfound

end Fresh

/-! ## Calls that change no table -/

section Calls

variable {env : Env} (hcat : CatalogContract env) {a : Applier} (f : Faults) (now : Nat)

include hcat

/-- A session that executed steady operations. -/
theorem Fresh.execAll (h : Fresh env a) {xs : List Op} (hxs : Steady xs) {a' : Applier}
    (hs : a'.session = a.session.getTxn.execAll xs) (hc : a'.tablesByName ⊆ a.tablesByName)
    (hd : SchemasFrom a'.deltas a.deltas) : Fresh env a' := by
  refine h.move ?_ ?_ hc hd
  · rw [hs, Session.working_execAll, Session.working_getTxn, hcat.append _ hxs]
  · rw [hs, Session.getTxn, Session.execAll_of_txn]
    exact h.steady.append hxs

theorem Fresh.rollback (h : Fresh env a) {a' : Applier} (hs : a'.session = a.session.rollback)
    (hc : a'.tablesByName ⊆ a.tablesByName) (hd : SchemasFrom a'.deltas a.deltas) :
    Fresh env a' :=
  h.move (by rw [hs, hcat.rollback h.steady]) (by rw [hs]; exact steady_nil) hc hd

theorem Fresh.exec (h : Fresh env a) {x : Op} (hx : x.changesTables = false) {a' : Applier}
    (hs : a'.session = a.session.exec x) (hc : a'.tablesByName = a.tablesByName)
    (hd : a'.deltas = a.deltas) : Fresh env a' := by
  refine h.move ?_ ?_ (by rw [hc]; exact List.Subset.refl _) (by rw [hd]; exact SchemasFrom.refl _)
  · rw [hs, Session.working_exec, hcat.stable _ _ hx]
  · rw [hs]
    have hsteady := h.steady
    rcases htxn : a.session with ⟨d, _ | ops⟩
    · exact steady_nil
    · rw [htxn] at hsteady
      exact hsteady.append (steady_singleton hx)

theorem Fresh.flushDeltaBuffer (h : Fresh env a) (reason : FlushReason) :
    (Binlog.flushDeltaBuffer f reason a).Ends (Fresh env) (Fresh env) := by
  simp only [Binlog.flushDeltaBuffer]
  have hfrom := schemasFrom_flush true f.flush reason a.deltas
  split
  · exact h.execAll hcat (steady_map_flush _) rfl (List.Subset.refl _) hfrom
  · trivial
  · exact h.rollback hcat rfl (List.Subset.refl _) hfrom

theorem Fresh.saveAndCommit (h : Fresh env a) (kind : CommitKind) :
    (Binlog.saveAndCommit now kind a).Ends (Fresh env) (Fresh env) := by
  simp only [Binlog.saveAndCommit]
  generalize (if kind = .implicitCommitBeforeStmt then a.pendingPosition
    else a.pendingPosition.appendGTID a.currentGtid) = pending
  split
  · exact h.congr rfl rfl rfl
  · refine h.move ?_ ?_ (List.Subset.refl _) (SchemasFrom.refl _)
    · rw [Session.working_commit, Session.working_exec, hcat.stable _ _ rfl]
    · rw [Session.commit_txn]
      exact steady_nil

theorem Fresh.commitOngoingTxn (h : Fresh env a) (kind : CommitKind) (reason : FlushReason) :
    (Binlog.commitOngoingTxn f now kind reason a).Ends (Fresh env) (Fresh env) :=
  (h.flushDeltaBuffer hcat f reason).andThen fun _ hb => hb.saveAndCommit hcat now kind

theorem Fresh.extendOrCommitBatchTxn (h : Fresh env a) :
    (Binlog.extendOrCommitBatchTxn f now a).Ends (Fresh env) (Fresh env) := by
  simp only [Binlog.extendOrCommitBatchTxn]
  split
  · exact h.congr rfl rfl rfl
  · exact h.commitOngoingTxn hcat f now _ _

end Calls

/-! ## Queries -/

/-- The part of `executeQueryWithEngine` before the execution. -/
def beforeExecute (f : Faults) (now : Nat) (implicitCommit flushChangelog : Bool)
    (reason : FlushReason) (a : Applier) : Result :=
  (if flushChangelog then flushDeltaBuffer f reason a else .ok a).andThen fun a =>
    if implicitCommit && a.dirtyTxn then commitOngoingTxn f now .implicitCommitBeforeStmt reason a
    else .ok a

theorem runStatement_eq (f : Faults) (now : Nat) (q : Query) (implicitCommit flushChangelog : Bool)
    (reason : FlushReason) (a : Applier) :
    runStatement f now q implicitCommit flushChangelog reason a
      = (beforeExecute f now implicitCommit flushChangelog reason a).andThen
        (executeAndCommit f now q reason) := rfl

/-- The reason of the flushes around a statement that changes tables. -/
def ddlReason (node : PlanNode) : FlushReason :=
  if causeSchemaChange node then .ddlStmt else .unknown

/-- The state in which a statement that changes tables is executed. -/
def ddlReady (f : Faults) (now : Nat) (q : Query) (a : Applier) : Result :=
  beforeExecute f now (causeImplicitCommitBefore q.node) (causeImplicitCommitBefore q.node)
    (ddlReason q.node)
    (if causeSchemaChange q.node then { a with tablesByName := [] } else a)

/-- A statement that changes tables takes the default branch. -/
theorem executeQuery_of_changesTables {f : Faults} {q : Query} (h : q.node.changesTables = true)
    (htz : q.skipsTimeZone = false) (hprep : f.prepare = false) (now : Nat) (a : Applier) :
    executeQueryWithEngine f now q a
      = (ddlReady f now q a).andThen (executeAndCommit f now q (ddlReason q.node)) := by
  obtain ⟨database, sql, node⟩ := q
  cases node <;> simp_all [executeQueryWithEngine, PlanNode.changesTables, causeSchemaChange,
    runStatement_eq, ddlReady, ddlReason]

section Queries

variable {env : Env} (hcat : CatalogContract env) {a : Applier} (f : Faults) (now : Nat)

include hcat

theorem Fresh.beforeExecute (h : Fresh env a) (implicitCommit flushChangelog : Bool)
    (reason : FlushReason) :
    (Binlog.beforeExecute f now implicitCommit flushChangelog reason a).Ends
      (Fresh env) (Fresh env) := by
  refine Outcome.Ends.andThen (P := Fresh env) ?_ fun b hb => ?_
  · split
    · exact h.flushDeltaBuffer hcat f reason
    · exact h
  · split
    · exact hb.commitOngoingTxn hcat f now _ reason
    · exact hb

/-- The engine executes a statement that changes no table. -/
theorem Fresh.execute (h : Fresh env a) {q : Query} (hq : q.node.changesTables = false)
    {a' : Applier} (hs : a'.session = Binlog.execute q a) (hc : a'.tablesByName = a.tablesByName)
    (hd : a'.deltas = a.deltas) : Fresh env a' := by
  unfold Binlog.execute at hs
  split at hs
  · refine h.move ?_ ?_ (by rw [hc]; exact List.Subset.refl _)
      (by rw [hd]; exact SchemasFrom.refl _)
    · rw [hs, Session.working_getTxn, Session.working_commit]
    · rw [hs, Session.getTxn_txn, Session.commit_txn]
      exact steady_nil
  · exact h.exec hcat (x := .query a.currentGtid q) hq hs hc hd

theorem Fresh.executeAndCommit (h : Fresh env a) {q : Query} (hq : q.node.changesTables = false)
    (reason : FlushReason) :
    (Binlog.executeAndCommit f now q reason a).Ends (Fresh env) (Fresh env) := by
  simp only [Binlog.executeAndCommit]
  split
  · exact h
  · have hexec : Fresh env
        { a with
          session := Binlog.execute q a, dirtyTxn := true, dirtyStream := true,
          ongoingBatchTxn := decide (q.node = .startTransaction) } :=
      h.execute hcat hq rfl rfl rfl
    split
    · exact hexec.commitOngoingTxn hcat f now _ reason
    · exact hexec

theorem Fresh.runStatement (h : Fresh env a) {q : Query} (hq : q.node.changesTables = false)
    (implicitCommit flushChangelog : Bool) (reason : FlushReason) :
    (Binlog.runStatement f now q implicitCommit flushChangelog reason a).Ends
      (Fresh env) (Fresh env) :=
  (h.beforeExecute hcat f now implicitCommit flushChangelog reason).andThen fun _ hb =>
    hb.executeAndCommit hcat f now hq reason

theorem Fresh.executeQuery (h : Fresh env a) {q : Query} (hq : q.node.changesTables = false) :
    (executeQueryWithEngine f now q a).Ends (Fresh env) (Fresh env) := by
  have hsc : causeSchemaChange q.node = false := by
    simp only [PlanNode.changesTables, Bool.or_eq_false_iff] at hq
    exact hq.1.1
  simp only [executeQueryWithEngine]
  split
  · exact h.commitOngoingTxn hcat f now _ _
  · split
    · exact h
    · split
      · split
        · exact h.congr rfl rfl rfl
        · exact h.runStatement hcat f now hq _ _ _
      · exact h.extendOrCommitBatchTxn hcat f now
      · exact h.runStatement hcat f now hq _ _ _
      · exact h.runStatement hcat f now hq _ _ _
      · exact h.runStatement hcat f now hq _ _ _
      · exact h.runStatement hcat f now hq _ _ _
      · rw [if_neg (by simp [hsc])]
        exact h.runStatement hcat f now hq _ _ _

end Queries

/-! ## Statements the switch knows -/

/-- The rows buffered in `a` are written and no appender is left in
`b`. -/
structure Cleared (a b : Applier) : Prop where
  flushed : a.session.working ++ flushOps a.deltas <+: b.session.working
  deltas : b.deltas = []
  cache : b.tablesByName = a.tablesByName
  pending : b.pendingPosition = a.pendingPosition
  current : b.currentGtid = a.currentGtid

theorem flushDeltaBuffer_ddl {f : Faults} {a b : Applier}
    (h : flushDeltaBuffer f .ddlStmt a = .ok b) : Cleared a b := by
  unfold flushDeltaBuffer at h
  simp only at h
  split at h
  · next herr =>
    obtain ⟨happ, hleft⟩ := flush_of_no_err herr
    obtain rfl := Outcome.ok.inj h
    refine ⟨?_, ?_, rfl, rfl, rfl⟩
    · rw [Session.working_execAll, Session.working_getTxn, happ]
      exact List.prefix_refl _
    · rw [hleft, afterFlush_ddlStmt]
  · cases h
  · cases h

/-- With nothing buffered a commit does not fail, if it finds a position
to save. -/
theorem commitOngoingTxn_of_nil (f : Faults) (now : Nat) (kind : CommitKind) (reason : FlushReason)
    {a : Applier} (hd : a.deltas = []) (hp : savedBy kind a ≠ none) :
    commitOngoingTxn f now kind reason a
      = .ok (afterCommit a now (savedBy kind a) (a.session.txn.getD []) []) := by
  have hflush : flushDeltaBuffer f reason a = .ok (afterFlush a [] []) := by
    simp [flushDeltaBuffer, hd, Delta.flush, afterFlush, Session.getTxn]
  rw [commitOngoingTxn, hflush, Outcome.andThen_ok]
  simp only [savedBy] at hp
  simp [saveAndCommit, afterFlush, afterCommit, savedBy, hp]

theorem Cleared.commitBefore {f : Faults} {now : Nat} {reason : FlushReason} {a b c : Applier}
    (h : Cleared a b)
    (hc : commitOngoingTxn f now .implicitCommitBeforeStmt reason b = .ok c) : Cleared a c := by
  by_cases hp : savedBy .implicitCommitBeforeStmt b = none
  · have hnone : b.pendingPosition = none := by simpa [savedBy] using hp
    simp [commitOngoingTxn, flushDeltaBuffer, h.deltas, Delta.flush, saveAndCommit, hnone] at hc
  · rw [commitOngoingTxn_of_nil f now _ reason h.deltas hp] at hc
    obtain rfl := Outcome.ok.inj hc
    refine ⟨?_, rfl, h.cache, h.pending, h.current⟩
    have hwork : (afterCommit b now (savedBy .implicitCommitBeforeStmt b)
        (b.session.txn.getD []) []).session.working
        = b.session.working ++ [.savePosition (savedBy .implicitCommitBeforeStmt b)] := by
      simp [afterCommit, Session.working]
    rw [hwork]
    exact h.flushed.trans (List.prefix_append _ _)

theorem beforeExecute_ddl {f : Faults} {now : Nat} {implicitCommit : Bool} {a b : Applier}
    (h : beforeExecute f now implicitCommit true .ddlStmt a = .ok b) : Cleared a b := by
  rw [beforeExecute, if_pos rfl, Outcome.andThen_eq_ok] at h
  obtain ⟨c, hflush, hc⟩ := h
  have hclear := flushDeltaBuffer_ddl hflush
  split at hc
  · exact hclear.commitBefore hc
  · obtain rfl := Outcome.ok.inj hc
    exact hclear

/-- A statement `causeSchemaChange` knows is executed with an empty cache
and an empty buffer. -/
theorem ddlReady_of_causeSchemaChange {q : Query} (h : causeSchemaChange q.node = true)
    {f : Faults} {now : Nat} {a b : Applier} (hb : ddlReady f now q a = .ok b) :
    Cleared { a with tablesByName := [] } b := by
  simp only [ddlReady, ddlReason, h, if_true, (commits_of_causeSchemaChange h).1] at hb
  exact beforeExecute_ddl hb

section Ddl

variable {env : Env} (hcat : CatalogContract env) {a : Applier} (f : Faults) (now : Nat)

include hcat

theorem Fresh.ddlReady (h : Fresh env a) (q : Query) :
    (Binlog.ddlReady f now q a).Ends (Fresh env) (Fresh env) := by
  refine Fresh.beforeExecute hcat f now ?_ _ _ _
  split
  · exact h.move rfl h.steady (List.nil_subset _) (SchemasFrom.refl _)
  · exact h

omit hcat in
/-- Nothing is kept, and the statement is committed. -/
theorem fresh_of_cleared (hc : a.tablesByName = []) (hd : a.deltas = [])
    (ht : a.session.txn = none) : Fresh env a where
  cache := fun e he => by rw [hc] at he; cases he
  appenders := fun e he => by rw [hd] at he; cases he
  steady := by rw [ht]; exact steady_nil

theorem Fresh.executeQuery_ddl (h : Fresh env a) {q : Query} (hq : causeSchemaChange q.node = true)
    (hp : a.pendingPosition.appendGTID a.currentGtid ≠ none) :
    (executeQueryWithEngine f now q a).Ends (Fresh env) (Fresh env) := by
  have hchanges : q.node.changesTables = true := by rw [PlanNode.changesTables, hq]; rfl
  by_cases htz : q.skipsTimeZone = true
  · rw [executeQueryWithEngine, if_pos htz]
    exact h.commitOngoingTxn hcat f now _ _
  by_cases hprep : f.prepare = true
  · rw [executeQueryWithEngine, if_neg htz, if_pos hprep]
    exact h
  rw [executeQuery_of_changesTables hchanges (by simpa using htz) (by simpa using hprep)]
  have hready := h.ddlReady hcat f now q
  cases hb : Binlog.ddlReady f now q a with
  | panic => trivial
  | error e b =>
    rw [hb] at hready
    exact hready
  | ok b =>
    rw [hb] at hready
    have hclear := ddlReady_of_causeSchemaChange hq hb
    rw [Outcome.andThen_ok, Binlog.executeAndCommit]
    split
    · exact hready
    · rw [if_pos (commits_of_causeSchemaChange hq).2, commitOngoingTxn_of_nil]
      · exact fresh_of_cleared hclear.cache rfl rfl
      · exact hclear.deltas
      · simp only [savedBy]
        rw [if_neg (by decide), hclear.pending, hclear.current]
        exact hp

end Ddl

/-! ## Row events -/

theorem getTableSchema_of_resolved {env : Env} {e : RowsEvent} {a : Applier} {m : TableMap}
    {info : TableInfo} (h : planRowEvent env e a = .resolved m info) :
    a.tableMapsById.lookup e.tableId = some m ∧ getTableSchema env m a = some info := by
  unfold planRowEvent at h
  split at h
  · cases h
  · next hmap =>
    split_ifs at h
    split at h
    · cases h
    · next hfound =>
      obtain ⟨rfl, rfl⟩ := RowPlan.resolved.inj h
      exact ⟨hmap, hfound⟩

theorem appendImages_schema (mk : Row → DeltaRow) (images : List Image) (r : Appended) :
    (appendImages mk images r).appender.schema = r.appender.schema := by
  induction images generalizing r with
  | nil => rfl
  | cons im images ih =>
    unfold appendImages
    split
    · rw [ih]; rfl
    · rfl

theorem appendPhase_schema (stamp : TxnStamp) (stmt : Nat) (action : RowEventType)
    (images : List Image) (r : Appended) :
    (appendPhase stamp stmt action images r).appender.schema = r.appender.schema := by
  simp only [appendPhase]
  split
  · rw [DeltaAppender.updateActionStats_schema, appendImages_schema]
  · rw [appendImages_schema]

theorem appendEvent_schema (stamp : TxnStamp) (stmt : Nat) (event : RowEventType)
    (rows : List RowImage) (x : DeltaAppender) :
    (appendEvent stamp stmt event rows x).appender.schema = x.schema := by
  simp only [appendEvent]
  generalize hr : (if event = .insert then ({ appender := x } : Appended)
    else appendPhase stamp stmt .delete (rows.map RowImage.identify) { appender := x }) = r
  have hdelete : r.appender.schema = x.schema := by
    rw [← hr]
    split
    · rfl
    · exact appendPhase_schema _ _ _ _ _
  split
  · exact hdelete
  · generalize hs : (if event = .delete then r
      else appendPhase stamp stmt .insert (rows.map RowImage.data) r) = s
    have hinsert : s.appender.schema = x.schema := by
      rw [← hs]
      split
      · exact hdelete
      · exact (appendPhase_schema _ _ _ _ _).trans hdelete
    split
    · exact hinsert
    · rw [DeltaAppender.observeEvents_schema]
      exact hinsert

theorem mem_withAppender {t : TableIdentifier} {schema : Schema} {x : DeltaAppender}
    {tables : DeltaTables} {e : TableIdentifier × DeltaAppender}
    (h : e ∈ withAppender t schema (fun _ => x) tables) : e ∈ tables ∨ e = (t, x) := by
  induction tables with
  | nil => exact .inr (List.mem_singleton.mp h)
  | cons p tables ih =>
    obtain ⟨u, y⟩ := p
    simp only [withAppender] at h
    split at h
    · next hu =>
      subst hu
      exact (List.mem_cons.mp h).symm.imp_left (List.mem_cons_of_mem _)
    · rcases List.mem_cons.mp h with rfl | h
      · exact .inl List.mem_cons_self
      · exact (ih h).imp_left (List.mem_cons_of_mem _)

/-- What the catalog has for the name of a row event's table is the table of
that name. -/
def Named (env : Env) (a : Applier) (e : RowsEvent) : Prop :=
  ∀ m ∈ a.tableMapsById.lookup e.tableId,
    ∀ info ∈ env.catalog a.session.working ⟨m.database, m.name⟩, toLower info.name = toLower m.name

section Rows

variable {env : Env} (hcat : CatalogContract env) {a : Applier} (f : Faults)

include hcat

theorem Fresh.cacheTable (h : Fresh env a) {m : TableMap} {info : TableInfo}
    (hfound : env.catalog a.session.working ⟨m.database, m.name⟩ = some info) :
    Fresh env (Binlog.cacheTable m info a) := by
  unfold Binlog.cacheTable
  split
  · exact h
  · refine ⟨fun e he t ht => ?_, h.appenders, h.steady⟩
    rcases List.mem_cons.mp he with rfl | he
    · exact (hcat.insensitive _ t ⟨m.database, m.name⟩ ht).trans hfound
    · exact h.cache e he t ht

omit hcat in
theorem Fresh.appendRowFormatChanges (h : Fresh env a) {t : TableIdentifier} {info : TableInfo}
    (hfound : env.catalog a.session.working t = some info) (e : RowsEvent) :
    (Binlog.appendRowFormatChanges t info.schema e a).Ends (Fresh env) (Fresh env) := by
  simp only [Binlog.appendRowFormatChanges]
  have happ : Fresh env
      { a with
        deltas := withAppender t info.schema (fun _ => (appendEvent (stampOf a.currentGtid)
          a.inTxnStmtID e.event e.rows (getDeltaAppender t info.schema a.deltas)).appender)
          a.deltas,
        deltaBufSize := a.deltaBufSize + (appendEvent (stampOf a.currentGtid)
          a.inTxnStmtID e.event e.rows (getDeltaAppender t info.schema a.deltas)).size } := by
    refine ⟨h.cache, fun x hx => ?_, h.steady⟩
    rcases mem_withAppender hx with hx | rfl
    · exact h.appenders x hx
    · exact ⟨info, hfound, by rw [appendEvent_schema, h.getDeltaAppender_schema hfound]⟩
  split
  · exact happ
  · exact happ

theorem Fresh.writeChanges (h : Fresh env a) (t : TableIdentifier) (e : RowsEvent) :
    (Binlog.writeChanges f t e a).Ends (Fresh env) (Fresh env) := by
  simp only [Binlog.writeChanges]
  split
  · exact h
  · split
    · exact h.execAll hcat (steady_map_write _ _) rfl (List.Subset.refl _) (SchemasFrom.refl _)
    · exact h.execAll hcat (steady_map_write _ _) rfl (List.Subset.refl _) (SchemasFrom.refl _)

theorem Fresh.processRowEvent (h : Fresh env a) {e : RowsEvent} (hnamed : Named env a e) :
    (Binlog.processRowEvent env f e a).Ends (Fresh env) (Fresh env) := by
  unfold Binlog.processRowEvent
  split
  · exact h
  · exact h
  · next m info hplan =>
    have hfound := h.getTableSchema (getTableSchema_of_resolved hplan).2
    have hname := hnamed m (getTableSchema_of_resolved hplan).1 info hfound
    have hcached := h.cacheTable hcat hfound
    obtain ⟨cache, heq⟩ := cacheTable_eq m info a
    simp only [heq] at hcached ⊢
    have hother : Fresh env { a with tablesByName := cache, ongoingBatchTxn := false } :=
      hcached.congr rfl rfl rfl
    split_ifs
    · exact hcached
    · exact hcached.appendRowFormatChanges (hcat.exact_name hfound hname) e
    · exact hother.writeChanges hcat f _ e

end Rows

/-! ## Runs -/

/-- A statement that changes tables is planned as a node that
`causeSchemaChange` knows, and there is a position to save with it. The
table of a row event is found by its name. -/
def Recognised (env : Env) (a : Applier) : Input → Prop
  | .event _ _ (.query q) => q.node.changesTables = true →
      causeSchemaChange q.node = true ∧ a.pendingPosition.appendGTID a.currentGtid ≠ none
  | .event _ _ (.rows e) => Named env a e
  | _ => True

instance decidableNamed (env : Env) (a : Applier) (e : RowsEvent) : Decidable (Named env a e) :=
  inferInstanceAs (Decidable (∀ m ∈ _, ∀ info ∈ _, _ = _))

instance decidableRecognised (env : Env) (a : Applier) (i : Input) :
    Decidable (Recognised env a i) :=
  match i with
  | .event _ _ (.query _) => inferInstanceAs (Decidable (_ → _ ∧ _))
  | .event _ _ (.rows e) => decidableNamed env a e
  | .event _ _ .rand | .event _ _ .xid | .event _ _ .rotate | .event _ _ .formatDescription
  | .event _ _ .previousGTIDs | .event _ _ (.gtid _ _) | .event _ _ (.tableMap _ _)
  | .event _ _ .heartbeat | .event _ _ .stop | .event _ _ .mariadbMarker
  | .event _ _ (.unknown _) | .tick _ _ | .stop _ _ | .reconnect _ => isTrue trivial

/-- A row event is decoded and appended with the schema the catalog has
for the table of its name, and a statement that changes tables is executed after the
rows buffered so far were written. -/
def SchemaCurrent (env : Env) (a : Applier) : Input → Prop
  | .event _ _ (.rows e) => ∀ m info, planRowEvent env e a = .resolved m info →
      env.catalog a.session.working ⟨m.database, m.name⟩ = some info ∧
        toLower info.name = toLower m.name ∧
        (getDeltaAppender ⟨m.database, info.name⟩ info.schema a.deltas).schema = info.schema
  | .event now f (.query q) => q.node.changesTables = true → ∀ b, ddlReady f now q a = .ok b →
      (∀ e ∈ a.deltas, e.2.rows ≠ [] → .flush e.1 e.2 ∈ b.session.working) ∧
        b.deltas = [] ∧ b.tablesByName = []
  | _ => True

theorem Fresh.logged {env : Env} (hcat : CatalogContract env) {a : Applier} (h : Fresh env a)
    {r : Result} (hr : r.Ends (Fresh env) (Fresh env)) : Fresh env (Binlog.logged a r) := by
  cases r with
  | ok b | error e b => exact hr
  | panic => exact h.rollback hcat rfl (List.Subset.refl _) (SchemasFrom.refl _)

theorem Fresh.processBinlogEvent {env : Env} (hcat : CatalogContract env) {a : Applier}
    (h : Fresh env a) (f : Faults) (now : Nat) {e : Event}
    (hrec : Recognised env a (.event now f e)) :
    (Binlog.processBinlogEvent env f now e a).Ends (Fresh env) (Fresh env) := by
  cases e with
  | query q =>
    have hexec : (executeQueryWithEngine f now q a).Ends (Fresh env) (Fresh env) := by
      cases hq : q.node.changesTables with
      | false => exact h.executeQuery hcat f now hq
      | true => exact h.executeQuery_ddl hcat f now (hrec hq).1 (hrec hq).2
    simp only [Binlog.processBinlogEvent, processQuery]
    cases hr : executeQueryWithEngine f now q a with
    | panic => trivial
    | ok b => rw [hr] at hexec; exact hexec.congr rfl rfl rfl
    | error e b => rw [hr] at hexec; exact Fresh.congr hexec rfl rfl rfl
  | rows e =>
    exact (h.processRowEvent hcat f hrec).andThen fun b hb => hb.congr rfl rfl rfl
  | xid => exact h.extendOrCommitBatchTxn hcat f now
  | rotate =>
    simp only [Binlog.processBinlogEvent]
    split
    · exact h.extendOrCommitBatchTxn hcat f now
    · exact h
  | gtid g isBegin =>
    have hgtid : Fresh env { a with previousGtid := a.currentGtid, currentGtid := some g } :=
      h.congr rfl rfl rfl
    simp only [Binlog.processBinlogEvent]
    split
    · exact hgtid.executeQuery hcat f now (q := Query.begin) rfl
    · exact hgtid
  | tableMap id m =>
    simp only [Binlog.processBinlogEvent]
    split
    · exact h.congr rfl rfl rfl
    · exact h.congr rfl rfl rfl
  | unknown b => exact h
  | rand | formatDescription | previousGTIDs | heartbeat | stop | mariadbMarker => exact h

theorem Fresh.handle {env : Env} (hcat : CatalogContract env) {a : Applier} (h : Fresh env a)
    {i : Input} (hrec : Recognised env a i) : Fresh env (Binlog.handle env a i) := by
  unfold Binlog.handle
  split
  · cases i with
    | event now f e => exact h.logged hcat (h.processBinlogEvent hcat f now hrec)
    | tick now f =>
      simp only
      split
      · exact h.logged hcat (h.extendOrCommitBatchTxn hcat f now)
      · exact h
    | stop now f =>
      refine Fresh.congr (a := if batchIsClean a
        then Binlog.logged a (Binlog.commitOngoingTxn f now .normalCommit .onClose a) else a)
        ?_ rfl rfl rfl
      split
      · exact h.logged hcat (h.commitOngoingTxn hcat f now _ _)
      · exact h
    | reconnect now => exact ⟨h.cache, fun e he => absurd he List.not_mem_nil, h.steady⟩
  · exact h

theorem Fresh.schemaCurrent {env : Env} (hcat : CatalogContract env) {a : Applier}
    (h : Fresh env a) {i : Input} (hrec : Recognised env a i) : SchemaCurrent env a i := by
  cases i with
  | tick now f => trivial
  | stop now f => trivial
  | reconnect now => trivial
  | event now f e =>
    cases e with
    | rows e =>
      intro m info hplan
      obtain ⟨hmap, hget⟩ := getTableSchema_of_resolved hplan
      have hfound := h.getTableSchema hget
      have hname := hrec m hmap info hfound
      exact ⟨hfound, hname, h.getDeltaAppender_schema (hcat.exact_name hfound hname)⟩
    | query q =>
      intro hq b hb
      have hclear := ddlReady_of_causeSchemaChange (hrec hq).1 hb
      refine ⟨fun e he hrows => ?_, hclear.deltas, hclear.cache⟩
      have hcount : e.2.rowCount ≠ 0 := by
        intro h0
        exact hrows (List.length_eq_zero_iff.mp (Nat.add_eq_zero_iff.mp h0).1)
      have hmem : Op.flush e.1 e.2 ∈ flushOps a.deltas :=
        List.mem_map.mpr ⟨e, List.mem_filter.mpr ⟨he, by simpa using hcount⟩, rfl⟩
      exact hclear.flushed.subset (List.mem_append_right _ hmem)
    | _ => trivial

theorem fresh_started (env : Env) (now : Nat) : Fresh env (Applier.started env now) :=
  ⟨fun _ he => absurd he List.not_mem_nil, fun _ he => absurd he List.not_mem_nil, steady_nil⟩

/-- `CREATE TABLE t (id INT PRIMARY KEY, v INT)`. -/
def narrowSchema : Schema := [⟨"id", true, {}⟩, ⟨"v", false, {}⟩]

/-- The table after `ADD COLUMN w INT`. -/
def wideSchema : Schema := narrowSchema ++ [⟨"w", false, {}⟩]

/-- The catalog of a replica with the one table, which any statement that
changes tables makes wider. -/
def alterEnv : Env where
  isTableFilteredOut := fun _ => false
  catalog := fun ops t =>
    if folded t = ⟨"db", "t"⟩ then
      some ⟨"t", if ops.any Op.changesTables then wideSchema else narrowSchema⟩
    else none
  initial := some (.mysql56 ∅)

theorem alterEnv_contract : CatalogContract alterEnv where
  stable := by
    intro ops op hop
    funext t
    simp [alterEnv, hop]
  insensitive := by
    intro ops t u h
    simp only [alterEnv, h]

/-- An `INSERT` of one row of the given integers. -/
def insertOf (tableId : Nat) (values : List Int) : RowsEvent where
  tableId := tableId
  event := .insert
  parses := true
  identifyColumns := []
  dataColumns := values.map fun _ => true
  rows := [⟨⟨[], 0⟩, ⟨values.map fun n => .value (.int n), 4 * values.length⟩⟩]

/-- A row before the statement and the events up to the row after it. -/
def alterPrelude (sql : String) (node : PlanNode) : List Input :=
  [.gtid (.mysql56 [1] 1) true, .tableMap 1 ⟨"db", "t", 2⟩, .rows (insertOf 1 [1, 10]), .xid,
    .gtid (.mysql56 [1] 2) false, .query ⟨"db", sql, node⟩,
    .gtid (.mysql56 [1] 3) true, .tableMap 2 ⟨"db", "t", 3⟩].map (.event 0 {})

def alterRun (sql : String) (node : PlanNode) : List Input :=
  alterPrelude sql node ++ [.event 0 {} (.rows (insertOf 2 [2, 20, 200]))]

/-- The state in which the row after the statement of two clauses
arrives. -/
def afterBlock : Applier :=
  run (handle alterEnv) (Applier.started alterEnv 0)
    (alterPrelude "ALTER TABLE t ADD COLUMN w INT, ADD INDEX (v)" .block)

end MyDuck.Binlog
