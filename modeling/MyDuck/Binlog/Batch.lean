/-
MyDuck.Binlog.Batch — the row events between two flushes of the delta
buffer.

A batch is the stretch of a run in which no input flushes the buffer.
`Batch` runs in lockstep with the applier and lists, in the order of the
stream, what became of each row event: buffered, with the transaction it
belongs to and the GTID and statement number that make its order stamp,
or written at once by the table writer. It never influences the applier.
-/
import MyDuck.Binlog.ApplierTheorems

namespace MyDuck.Binlog

open MyDuck.Delta

/-! ## Inputs that flush -/

/-- Whether `executeQueryWithEngine` flushes the delta buffer. -/
def queryFlushes (f : Faults) (now : Nat) (q : Query) (a : Applier) : Bool :=
  if q.skipsTimeZone then true
  else if f.prepare then false
  else match q.node with
    | .startTransaction | .commit => !(mayExtendBatchTxn now a).1
    | .insertInto | .update | .deleteFrom | .loadData => true
    | node => causeImplicitCommitBefore node

/-- Whether an input flushes the delta buffer, or discards it. -/
def inputFlushes (a : Applier) : Input → Bool
  | .event now _ .xid => !(mayExtendBatchTxn now a).1
  | .event now f (.query q) => queryFlushes f now q a
  | .event now _ .rotate => a.currentGtid.isSome && !(mayExtendBatchTxn now a).1
  | .event now f (.gtid _ isBegin) => isBegin && queryFlushes f now Query.begin a
  | .event _ _ _ => false
  | .tick now _ => batchIsClean a && !(mayExtendBatchTxn now a).1
  | .stop _ _ => batchIsClean a
  | .reconnect _ => true

/-! ## What became of the row events -/

/-- A row event in the delta buffer: the number of its transaction in the
batch, what its stamp is made of, its table and its images. -/
structure Buffered where
  txn : Nat
  gtid : Option Gtid
  stmt : Nat
  table : TableIdentifier
  schema : Schema
  event : RowEventType
  images : List RowImage
  deriving DecidableEq

namespace Buffered

def recorded (e : Buffered) : RowEvent := rowEventOf (stampOf e.gtid) e.stmt e.event e.images

def rows (e : Buffered) : List DeltaRow := e.recorded.rows

def keys (e : Buffered) : List (List Value) := e.rows.map (fun r => primaryKey e.schema r.fields)

end Buffered

inductive RowStep where
  | buffered (e : Buffered)
  | written (gtid : Option Gtid) (ws : List RowWrite)
  deriving DecidableEq

def RowStep.buffered? : RowStep → Option Buffered
  | .buffered e => some e
  | .written _ _ => none

/-- The step of `processRowEvent`, when it succeeds. -/
def rowStep (env : Env) (a : Applier) (txn : Nat) (e : RowsEvent) : Option RowStep :=
  match planRowEvent env e a with
  | .resolved m info =>
    if m.columns ≠ info.schema.length then none
    else if e.isRowFormat info.schema.length && hasPrimaryKey info.schema then
      some (.buffered ⟨txn, a.currentGtid, a.inTxnStmtID, ⟨m.database, info.name⟩, info.schema,
        e.event, e.rows⟩)
    else (rowWrites ⟨m.database, info.name⟩ e).map (.written a.currentGtid)
  | _ => none

/-! ## The batch in lockstep with the applier -/

structure Batch where
  applier : Applier
  /-- The number of GTID events so far. -/
  txn : Nat := 0
  steps : List RowStep := []

namespace Batch

def step (env : Env) (r : Batch) (i : Input) : Batch :=
  if r.applier.running then
    { applier := handle env r.applier i,
      txn := match i with
        | .event _ _ (.gtid _ _) => r.txn + 1
        | _ => r.txn,
      steps := match i with
        | .event _ _ (.rows e) => r.steps ++ (rowStep env r.applier r.txn e).toList
        | _ => r.steps }
  else r

/-- The buffered events, in the order of the stream. -/
def events (r : Batch) : List Buffered := r.steps.filterMap RowStep.buffered?

def rowsOn (t : TableIdentifier) (r : Batch) : List DeltaRow :=
  (r.events.filter (fun e => e.table = t)).flatMap Buffered.rows

end Batch

/-- The input neither flushes nor discards the buffer, and a row event is
applied. -/
def Between (env : Env) (r : Batch) (i : Input) : Prop :=
  inputFlushes r.applier i = false ∧
    match i with
    | .event _ f (.rows e) => RowEventOk env f e r.applier
    | _ => True

instance (env : Env) (r : Batch) (i : Input) : Decidable (Between env r i) := by
  unfold Between
  split <;> infer_instance

/-! ## Inputs that do not flush -/

/-- The input is a query that is neither `BEGIN` nor `COMMIT` nor DML. -/
def Input.isStandalone : Input → Bool
  | .event _ _ (.query q) => q.kind = .standalone
  | _ => false

def Input.announces : Input → Option Gtid
  | .event _ _ (.gtid g _) => some g
  | _ => none

/-- What an input other than a row event leaves alone when it does not
flush. -/
structure Quiet (a : Applier) (i : Input) (a' : Applier) : Prop where
  deltas : a'.deltas = a.deltas
  stmt : a.inTxnStmtID ≤ a'.inTxnStmtID
  current : a'.currentGtid = i.announces.or a.currentGtid
  session : i.isStandalone = false → a'.session = a.session

theorem Quiet.refl {a : Applier} {i : Input} (h : i.announces = none) : Quiet a i a :=
  ⟨rfl, le_rfl, by rw [h]; rfl, fun _ => rfl⟩

/-- The queries that do not flush: they fail in `PrepareQuery`, extend the
batch, or are statements without an implicit commit. -/
theorem executeQuery_of_not_flushes {f : Faults} {now : Nat} {q : Query} {a : Applier}
    (h : queryFlushes f now q a = false) :
    executeQueryWithEngine f now q a = .error .prepare a ∨
      (∃ p dirty, executeQueryWithEngine f now q a
        = .ok { a with pendingPosition := p, dirtyStream := dirty }) ∨
      (q.kind = .standalone ∧ causeImplicitCommitAfter q.node = false ∧
        executeQueryWithEngine f now q a = executeAndCommit f now q .unknown a) := by
  by_cases hskip : q.skipsTimeZone = true
  · simp [queryFlushes, hskip] at h
  · by_cases hprep : f.prepare = true
    · exact .inl (by simp [executeQueryWithEngine, hskip, hprep])
    · right
      cases hn : q.node <;>
        simp only [queryFlushes, hskip, hprep, hn, if_false, Bool.false_eq_true, Bool.not_eq_false',
          causeImplicitCommitBefore, causeImplicitCommitAfter, reduceCtorEq] at h
      case startTransaction =>
        refine .inl ⟨a.pendingPosition.appendGTID a.previousGtid, true, ?_⟩
        simp only [executeQueryWithEngine, hskip, hprep, hn, h, if_false, if_true,
          Bool.false_eq_true]
      case commit =>
        refine .inl ⟨a.pendingPosition.appendGTID a.currentGtid, false, ?_⟩
        simp only [executeQueryWithEngine, hskip, hprep, hn, if_false, Bool.false_eq_true]
        exact extendOrCommit_of_extend f h
      all_goals
        right
        simp [executeQueryWithEngine, Query.kind, runStatement, hskip, hprep, hn, PlanNode.isDML,
          causeImplicitCommitBefore, causeImplicitCommitAfter, causeSchemaChange]

section Quiet

variable {env : Env} {f : Faults} {now : Nat} {a : Applier}

theorem executeQuery_quiet {q : Query} (h : queryFlushes f now q a = false) :
    (executeQueryWithEngine f now q a).Leaves (Quiet a (.event now f (.query q))) := by
  rcases executeQuery_of_not_flushes h with hr | ⟨p, dirty, hr⟩ | ⟨hk, hafter, hr⟩
  · rw [hr]
    exact Quiet.refl rfl
  · rw [hr]
    exact ⟨rfl, le_rfl, rfl, fun _ => rfl⟩
  · rw [hr]
    unfold executeAndCommit
    split
    · exact Quiet.refl rfl
    · simp only [hafter, Bool.false_eq_true, if_false]
      exact ⟨rfl, le_rfl, rfl, fun hne => absurd hne (by simp [Input.isStandalone, hk])⟩

theorem extendOrCommit_quiet {i : Input} (h : (mayExtendBatchTxn now a).1 = true)
    (hi : i.announces = none) : (extendOrCommitBatchTxn f now a).Leaves (Quiet a i) := by
  rw [extendOrCommit_of_extend f h]
  exact ⟨rfl, le_rfl, by rw [hi]; rfl, fun _ => rfl⟩

theorem processBinlogEvent_quiet {e : Event} (h : inputFlushes a (.event now f e) = false)
    (hrows : ∀ rows, e ≠ .rows rows) :
    (processBinlogEvent env f now e a).Leaves (Quiet a (.event now f e)) := by
  cases e with
  | xid => exact extendOrCommit_quiet (by simpa [inputFlushes] using h) rfl
  | query q =>
    exact processQuery_leaves (executeQuery_quiet h) fun a' hq =>
      ⟨hq.deltas, Nat.le_succ_of_le hq.stmt, hq.current, hq.session⟩
  | rotate =>
    rw [processBinlogEvent]
    split
    · next hc => exact extendOrCommit_quiet (by simpa [inputFlushes, hc] using h) rfl
    · exact Quiet.refl rfl
  | gtid g isBegin =>
    rw [processBinlogEvent]
    split
    · next hb =>
      -- BEGIN is executed with the new GTID in place
      have hq : queryFlushes f now Query.begin
          { a with previousGtid := a.currentGtid, currentGtid := some g } = false := by
        simpa [inputFlushes, hb, queryFlushes, mayExtendBatchTxn] using h
      refine (executeQuery_quiet hq).mono fun a' hqa => ?_
      exact ⟨hqa.deltas, hqa.stmt, hqa.current, fun _ => hqa.session rfl⟩
    · exact ⟨rfl, le_rfl, rfl, fun _ => rfl⟩
  | tableMap id m =>
    rw [processBinlogEvent]
    split <;> exact ⟨rfl, le_rfl, rfl, fun _ => rfl⟩
  | rows e => exact absurd rfl (hrows e)
  | _ => exact Quiet.refl rfl

/-- **What an input that does not flush leaves alone.** -/
theorem handle_quiet {i : Input} (hrun : a.running = true) (h : inputFlushes a i = false)
    (hrows : ∀ now f e, i ≠ .event now f (.rows e)) : Quiet a i (handle env a i) := by
  have hlogged : ∀ r : Result, r.Leaves (Quiet a i) → Quiet a i (logged a r) := by
    intro r hr
    obtain ⟨a', hs, hq⟩ := hr.state?
    rw [logged, hs]
    exact hq
  unfold handle
  rw [if_pos hrun]
  cases i with
  | event now f e =>
    exact hlogged _ (processBinlogEvent_quiet h fun rows he => hrows now f rows (by rw [he]))
  | tick now f =>
    simp only
    split
    · next hc => exact hlogged _ (extendOrCommit_quiet (by simpa [inputFlushes, hc] using h) rfl)
    · exact Quiet.refl rfl
  | stop now f =>
    simp only
    rw [if_neg (by simpa [inputFlushes] using h)]
    exact ⟨rfl, le_rfl, rfl, fun _ => rfl⟩
  | reconnect now => simp [inputFlushes] at h

end Quiet

/-! ## Row events -/

/-- What a row event did to the buffer and to the session. -/
def RowDone (a a' : Applier) : Option RowStep → Prop
  | none => a'.deltas = a.deltas ∧ a'.session = a.session
  | some (.buffered b) =>
    a'.deltas = withAppender b.table b.schema
        (fun _ => (getDeltaAppender b.table b.schema a.deltas).record b.recorded) a.deltas ∧
      a'.session = a.session
  | some (.written g ws) =>
    a'.deltas = a.deltas ∧ a'.session = a.session.getTxn.execAll (ws.map (Op.write g))

theorem processRowEvent_step {env : Env} {f : Faults} {e : RowsEvent} {a : Applier}
    (h : RowEventOk env f e a) (txn : Nat) :
    ∃ a', processRowEvent env f e a = .ok a' ∧ RowDone a a' (rowStep env a txn e) ∧
      a'.inTxnStmtID = a.inTxnStmtID ∧ a'.currentGtid = a.currentGtid := by
  unfold RowEventOk at h
  unfold processRowEvent rowStep
  cases hplan : planRowEvent env e a with
  | fail err => simp [hplan] at h
  | skip => exact ⟨a, rfl, ⟨rfl, rfl⟩, rfl, rfl⟩
  | resolved m info =>
    simp only [hplan] at h
    obtain ⟨cache, hcache⟩ := cacheTable_eq m info a
    simp only [hcache, h.1, ne_eq, not_true_eq_false, if_false]
    by_cases hfull : (e.isRowFormat info.schema.length && hasPrimaryKey info.schema) = true
    · rw [if_pos hfull] at h
      rw [if_pos hfull, if_pos hfull]
      obtain ⟨hok, happ⟩ := appendEvent_eq_record (stampOf a.currentGtid) a.inTxnStmtID h.2
        (getDeltaAppender ⟨m.database, info.name⟩ info.schema a.deltas)
      simp only [appendRowFormatChanges, hok, if_true]
      exact ⟨_, rfl, ⟨by rw [happ]; rfl, rfl⟩, rfl, rfl⟩
    · rw [if_neg hfull] at h
      rw [if_neg hfull, if_neg hfull]
      obtain ⟨ws, hws⟩ := Option.isSome_iff_exists.mp h.2.2
      simp only [writeChanges, hws, h.2.1, Option.map_some]
      exact ⟨_, rfl, ⟨rfl, rfl⟩, rfl, rfl⟩

/-- A row event that is applied takes one statement number. -/
theorem handle_rows {env : Env} {f : Faults} {e : RowsEvent} {a : Applier}
    (hrun : a.running = true) (h : RowEventOk env f e a) (now txn : Nat) :
    RowDone a (handle env a (.event now f (.rows e))) (rowStep env a txn e) ∧
      (handle env a (.event now f (.rows e))).inTxnStmtID = a.inTxnStmtID + 1 ∧
      (handle env a (.event now f (.rows e))).currentGtid = a.currentGtid := by
  obtain ⟨a', hproc, hdone, hstmt, hcur⟩ := processRowEvent_step h txn
  have hres : handle env a (.event now f (.rows e))
      = nextStmt { a' with dirtyTxn := true, dirtyStream := true } := by
    simp only [handle, hrun, if_true, processBinlogEvent, hproc, Outcome.andThen_ok, logged,
      Outcome.state?_ok, Option.getD_some]
  rw [hres]
  refine ⟨?_, by rw [← hstmt]; rfl, hcur⟩
  cases hstep : rowStep env a txn e with
  | none => rw [hstep] at hdone; exact hdone
  | some s =>
    rw [hstep] at hdone
    cases s with
    | buffered b | written g ws => exact hdone

/-- What the buffered event of a row event is made of. -/
structure BufferedBy (r : Batch) (b : Buffered) : Prop where
  txn : b.txn = r.txn
  gtid : b.gtid = r.applier.currentGtid
  stmt : b.stmt = r.applier.inTxnStmtID
  decodes : Decodes b.event b.images

theorem rowStep_buffered {env : Env} {f : Faults} {r : Batch} {e : RowsEvent} {b : Buffered}
    (hok : RowEventOk env f e r.applier)
    (h : rowStep env r.applier r.txn e = some (.buffered b)) : BufferedBy r b := by
  unfold RowEventOk at hok
  unfold rowStep at h
  split at h
  · next hplan =>
    simp only [hplan] at hok
    split at h
    · simp at h
    · split at h
      · next hfull =>
        rw [if_pos hfull] at hok
        obtain rfl := RowStep.buffered.inj (Option.some.inj h)
        exact ⟨rfl, rfl, rfl, hok.2⟩
      · simp [Option.map_eq_some_iff] at h
  · simp at h

/-! ## The steps of a batch -/

/-- What one input between two flushes does to a batch. -/
inductive StepsTo (r : Batch) (i : Input) : Batch → Prop where
  | stopped : StepsTo r i r
  | quiet {a' : Applier} {n : Nat} (done : Quiet r.applier i a')
      (txn : (i.announces = none ∧ n = r.txn) ∨ n = r.txn + 1) : StepsTo r i ⟨a', n, r.steps⟩
  | row {a' : Applier} {s : Option RowStep} (done : RowDone r.applier a' s)
      (stmt : a'.inTxnStmtID = r.applier.inTxnStmtID + 1)
      (current : a'.currentGtid = r.applier.currentGtid)
      (buffered : ∀ b, s = some (.buffered b) → BufferedBy r b) :
      StepsTo r i ⟨a', r.txn, r.steps ++ s.toList⟩

/-- **The step of a batch**: an input changes nothing in the buffer and the
session, or is one row event. -/
theorem Batch.step_stepsTo {env : Env} {r : Batch} {i : Input} (hi : Between env r i) :
    StepsTo r i (r.step env i) := by
  unfold Batch.step
  by_cases hrun : r.applier.running = true
  · rw [if_pos hrun]
    by_cases hrows : ∃ now f e, i = .event now f (.rows e)
    · obtain ⟨now, f, e, rfl⟩ := hrows
      obtain ⟨hdone, hstmt, hcur⟩ := handle_rows (f := f) hrun hi.2 now r.txn
      exact .row hdone hstmt hcur fun b hb => rowStep_buffered hi.2 hb
    · have hq : Quiet r.applier i (handle env r.applier i) := handle_quiet hrun hi.1
        fun now f e he => hrows ⟨now, f, e, he⟩
      cases i with
      | event now f e =>
        cases e with
        | rows e => exact absurd ⟨now, f, e, rfl⟩ hrows
        | gtid g isBegin => exact .quiet hq (.inr rfl)
        | _ => exact .quiet hq (.inl ⟨rfl, rfl⟩)
      | _ => exact .quiet hq (.inl ⟨rfl, rfl⟩)
  · rw [if_neg hrun]
    exact .stopped

end MyDuck.Binlog
