/-
MyDuck.Binlog.PositionTheorems — the saved position and the committed
data agree.

`Exact` is the invariant between two inputs: the books are in order
(`Accounts`), `pendingPosition` names every transaction that has ended,
and the flags say what is in flight. The four paths that assemble a
position are four ways to keep it: extending at a commit event, extending
at `BEGIN`, committing before a statement, and committing after one.

Two steps do not keep it, and `Safe` excludes them: a tick or a stop that
finds a clean batch while a transaction has been announced by its GTID
but not executed, and a DDL statement after which the applier does not
commit. On a reconnect it asks that the open DuckDB transaction holds no
change.
-/
import MyDuck.Binlog.Accounts

namespace MyDuck.Binlog

open MyDuck.Delta

/-! ## The invariant -/

structure Exact (start : Position) (n : Nat) (a : Applier) (s : Source) : Prop where
  books : Accounts start s s.gtids n 0 a
  clean : a.dirtyTxn = false → n = s.ended.length
  ongoing : a.ongoingBatchTxn = true → a.dirtyTxn = true
  tracks : Tracks start a.currentGtid a.previousGtid s
  pending : ∀ o, s.current = some o → o.begun = false → o.txn.changes = []

theorem covers_append {start p : Position} {gs : List Gtid} (hp : IsMysql p)
    (h : Covers start p gs) {g : Option Gtid} (hg : MysqlGtid g) :
    Covers start (p.appendGTID g) (gs ++ g.toList) := by
  intro y
  rw [contains_appendGTID hp hg, h y, List.mem_append, or_assoc, Option.mem_toList]

/-- Appending a GTID that is covered already changes nothing. -/
theorem covers_append_of_mem {start p : Position} {gs : List Gtid} (hp : IsMysql p)
    (h : Covers start p gs) {g : Option Gtid} (hg : MysqlGtid g) (hmem : ∀ y, g = some y → y ∈ gs) :
    Covers start (p.appendGTID g) gs := by
  intro y
  rw [covers_append hp h hg y, List.mem_append, Option.mem_toList]
  constructor
  · rintro (h | h | h)
    · exact .inl h
    · exact .inr h
    · exact .inr (hmem y h)
  · rintro (h | h)
    · exact .inl h
    · exact .inr (.inl h)

section Exact

variable {start : Position} {n : Nat} {a : Applier} {s : Source}

theorem Exact.congr (h : Exact start n a s) {a' : Applier} (hs : a'.session = a.session)
    (hd : a'.deltas = a.deltas) (hp : a'.pendingPosition = a.pendingPosition)
    (hc : a'.currentGtid = a.currentGtid) (hv : a'.previousGtid = a.previousGtid)
    (ho : a'.ongoingBatchTxn = a.ongoingBatchTxn) (ht : a'.dirtyTxn = a.dirtyTxn) :
    Exact start n a' s where
  books := h.books.congr hs hd hp
  clean := by rw [ht]; exact h.clean
  ongoing := by rw [ho, ht]; exact h.ongoing
  tracks := by rw [hc, hv]; exact h.tracks
  pending := h.pending

theorem Exact.nextStmt (h : Exact start n a s) : Exact start n (nextStmt a) s :=
  h.congr rfl rfl rfl rfl rfl rfl rfl

/-- After a commit that names every ended transaction, everything is
clean. -/
theorem Exact.of_commit {now : Nat} {p : Position} {ops : List Op} {tables : DeltaTables}
    (hb : Accounts start s s.gtids s.ended.length 0 (afterCommit a now p ops tables))
    (ht : Tracks start a.currentGtid a.previousGtid s) (hidle : s.current = none) :
    Exact start s.ended.length (afterCommit a now p ops tables) s where
  books := hb
  clean := fun _ => rfl
  ongoing := fun h => absurd h (by simp [afterCommit])
  tracks := ht
  pending := fun o ho => absurd ho (by simp [hidle])

variable {o : OpenTxn} {f : Faults}

theorem Exact.openTagged_of_pending (h : Exact start n a s) (ho : s.current = some o)
    (hb : o.begun = false) : s.openTagged = 0 := by
  simp [Source.openTagged, ho, SrcTxn.tagged, h.pending o ho hb]

/-- A commit between transactions: at a tick, a stop or a rotation. -/
theorem Exact.commit_idle (h : Exact start n a s) (hidle : s.current = none)
    (hf : f.flush = fun _ => false) (now : Nat) (reason : FlushReason) :
    ∃ a', commitOngoingTxn f now .normalCommit reason a = .ok a' ∧
      Exact start s.ended.length a' s := by
  have hmem := h.tracks.idle hidle
  have hg := h.tracks.mysql hmem
  obtain ⟨ops, tables, hrun, hb⟩ := h.books.commitOngoingTxn hf now .normalCommit reason
    (openTagged_of_idle hidle) (h.books.mysql.appendGTID hg)
    (covers_append_of_mem h.books.mysql h.books.pending hg hmem)
  exact ⟨_, hrun, Exact.of_commit hb h.tracks hidle⟩

/-- Extending the batch, or committing it, between transactions. -/
theorem Exact.extend_idle (h : Exact start n a s) (hidle : s.current = none)
    (hf : f.flush = fun _ => false) (now : Nat) :
    ∃ a' n', extendOrCommitBatchTxn f now a = .ok a' ∧
      Exact start n' a' s := by
  by_cases hext : (mayExtendBatchTxn now a).1 = true
  · rw [extendOrCommit_of_extend f hext]
    have hmem := h.tracks.idle hidle
    have hg := h.tracks.mysql hmem
    refine ⟨_, n, rfl, ⟨?_, h.clean, h.ongoing, h.tracks, h.pending⟩⟩
    exact { h.books with
      mysql := h.books.mysql.appendGTID hg
      pending := covers_append_of_mem h.books.mysql h.books.pending hg hmem }
  · rw [extendOrCommit_of_commit f hext]
    obtain ⟨a', hrun, hex⟩ := h.commit_idle hidle hf now (mayExtendBatchTxn now a).2
    exact ⟨a', _, hrun, hex⟩

/-! ### The transaction ends -/

/-- The pending position with the GTID of the transaction that ends. -/
theorem Accounts.covers_finish {x : Changes} (hb : Accounts start s s.gtids n x a)
    (ht : Tracks start a.currentGtid a.previousGtid s) (ho : s.current = some o) :
    Covers start (a.pendingPosition.appendGTID a.currentGtid) s.finish.gtids := by
  have hcov := covers_append hb.mysql hb.pending (ht.mysql_current ho)
  rw [ht.sending o ho] at hcov ⊢
  rw [gtids_finish ho]
  exact hcov

/-- Committing after the transaction's last event names it. -/
theorem Accounts.commit_finish {x : Changes} (hb : Accounts start s s.gtids n x a)
    (ht : Tracks start a.currentGtid a.previousGtid s) (ho : s.current = some o)
    (hf : f.flush = fun _ => false) (now : Nat) (kind : CommitKind)
    (hk : kind ≠ .implicitCommitBeforeStmt) (reason : FlushReason) :
    ∃ a' n', Binlog.commitOngoingTxn f now kind reason a = .ok a' ∧
      Exact start n' a' s.finish := by
  have hsaved : savedBy kind a = a.pendingPosition.appendGTID a.currentGtid := by
    rw [savedBy, if_neg hk]
  have hidle : s.finish.current = none := by rw [finish_of_current ho]
  obtain ⟨ops, tables, hrun, hb'⟩ := hb.finish.commitOngoingTxn hf now kind reason
    (openTagged_of_idle hidle) (by rw [hsaved]; exact hb.mysql.appendGTID (ht.mysql_current ho))
    (by rw [hsaved]; exact hb.covers_finish ht ho)
  exact ⟨_, _, hrun, Exact.of_commit hb' (ht.finish ho) hidle⟩

/-- A commit event ends the transaction: the batch is extended by it, or
committed. -/
theorem Exact.extend_finish (h : Exact start n a s) (ho : s.current = some o)
    (hf : f.flush = fun _ => false) (now : Nat) :
    ∃ a' n', extendOrCommitBatchTxn f now a = .ok a' ∧
      Exact start n' a' s.finish := by
  by_cases hext : (mayExtendBatchTxn now a).1 = true
  · rw [extendOrCommit_of_extend f hext]
    have hdirty := h.ongoing (ongoing_of_mayExtend hext)
    refine ⟨_, n, rfl, ⟨?_, ?_, h.ongoing, h.tracks.finish ho, ?_⟩⟩
    · exact { h.books.finish with
        mysql := h.books.mysql.appendGTID (h.tracks.mysql_current ho)
        pending := h.books.covers_finish h.tracks ho }
    · exact fun hd => absurd hd (by simp [hdirty])
    · exact fun o' ho' => absurd ho' (by simp [finish_of_current ho])
  · rw [extendOrCommit_of_commit f hext]
    exact h.books.commit_finish h.tracks ho hf now .normalCommit (by decide)
      (mayExtendBatchTxn now a).2

/-! ### The other events of a transaction -/

section

variable (h : Exact start n a s)

include h

theorem Exact.gtid {g : Gtid} (hidle : s.current = none) (hnot : start.contains g = false)
    (hfresh : g ∉ s.gtids) (hg : g.isMysql56 = true) :
    Exact start n { a with previousGtid := a.currentGtid, currentGtid := some g }
      { s with current := some ⟨⟨g, []⟩, false⟩ } where
  books := by
    refine Accounts.congr (h.books.source_congr ?_ ?_) rfl rfl rfl
    · rfl
    · rw [openTagged_of_idle hidle]; rfl
  clean := h.clean
  ongoing := h.ongoing
  tracks := h.tracks.gtid hidle hnot hfresh hg
  pending := fun o ho _ => by obtain rfl := Option.some.inj ho; rfl

/-- A dirty applier with the books in order, once the transaction has
begun. -/
theorem Exact.of_begin (ho : s.current = some o) {a' : Applier} {n' : Nat}
    (hb : Accounts start s s.gtids n' 0 a') (hc : a'.currentGtid = a.currentGtid)
    (hv : a'.previousGtid = a.previousGtid) (ht : a'.dirtyTxn = true) :
    Exact start n' a' s.begin where
  books := hb.source_congr rfl (openTagged_begin s)
  clean := fun hd => absurd hd (by simp [ht])
  ongoing := fun _ => ht
  tracks := by rw [hc, hv]; exact h.tracks.begin ho
  pending := by
    intro o' ho' hbeg
    rw [current_begin ho] at ho'
    obtain rfl := Option.some.inj ho'
    simp at hbeg

/-- Before a statement of a transaction that has not begun, the buffer is
flushed and what came before is committed. -/
theorem Exact.before_statement (ho : s.current = some o) (hbeg : o.begun = false)
    (hf : f.flush = fun _ => false) (now : Nat) (reason : FlushReason) :
    ∃ a', ((flushDeltaBuffer f reason a).andThen fun a =>
        if true && a.dirtyTxn then commitOngoingTxn f now .implicitCommitBeforeStmt reason a
        else .ok a) = .ok a' ∧ Accounts start s s.gtids s.ended.length 0 a' ∧
      changesOf (a'.session.txn.getD []) = 0 ∧ a'.currentGtid = a.currentGtid ∧
      a'.previousGtid = a.previousGtid := by
  have hopen := h.openTagged_of_pending ho hbeg
  obtain ⟨fl, tables, hfl, hch, hns, hdr⟩ := flushDeltaBuffer_ok hf reason h.books.untorn
  have hb := h.books.take_nil (takes_flush hch hns hdr h.books.noSaves)
  rw [add_zero] at hb
  rw [hfl, Outcome.andThen_ok]
  by_cases hdirty : a.dirtyTxn = true
  · have hcond : (true && (afterFlush a fl tables).dirtyTxn) = true := by
      simpa [afterFlush] using hdirty
    obtain ⟨ops, tables', hrun, hb'⟩ := hb.commitOngoingTxn hf now .implicitCommitBeforeStmt reason
      hopen h.books.mysql h.books.pending
    rw [if_pos hcond]
    exact ⟨_, hrun, hb', rfl, rfl, rfl⟩
  · have hcond : ¬ (true && (afterFlush a fl tables).dirtyTxn) = true := by
      simpa [afterFlush] using hdirty
    -- a clean transaction has nothing in flight
    obtain rfl : n = s.ended.length := h.clean (by simpa using hdirty)
    have hzero := hb.inFlight
    rw [List.drop_length, taggedAll_nil, hopen] at hzero
    simp only [zero_add, inFlight, add_eq_zero] at hzero
    rw [if_neg hcond]
    exact ⟨_, rfl, hb, hzero.1, rfl, rfl⟩

/-- `BEGIN` extends the batch, or commits what came before and starts a
new one. -/
theorem Exact.begin (ho : s.current = some o) (hbeg : o.begun = false) {q : Query}
    (hq : q.node = .startTransaction) (hskip : q.skipsTimeZone = false) (hprep : f.prepare = false)
    (hexec : f.execute = false) (hf : f.flush = fun _ => false) (now : Nat) :
    ∃ a' n', executeQueryWithEngine f now q a = .ok a' ∧
      Exact start n' a' s.begin := by
  simp only [executeQueryWithEngine, hskip, hprep, hq, Bool.false_eq_true, if_false]
  by_cases hext : (mayExtendBatchTxn now a).1 = true
  · have hmem := h.tracks.before o ho
    have hg := h.tracks.mysql hmem
    rw [if_pos hext]
    refine ⟨_, n, rfl, h.of_begin ho ?_ rfl rfl (h.ongoing (ongoing_of_mayExtend hext))⟩
    exact { h.books with
      mysql := h.books.mysql.appendGTID hg
      pending := covers_append_of_mem h.books.mysql h.books.pending hg hmem }
  · obtain ⟨a₂, hrun, hb, hzero, hc, hv⟩ :=
      h.before_statement ho hbeg hf now (mayExtendBatchTxn now a).2
    rw [if_neg hext, runStatement, if_pos rfl, hrun, Outcome.andThen_ok]
    simp only [executeAndCommit, hexec, hq, causeImplicitCommitAfter, execute, Bool.false_eq_true,
      if_false]
    refine ⟨_, s.ended.length, rfl, h.of_begin ho ?_ hc hv rfl⟩
    have hb' := hb.take_nil (takes_begin hb.noSaves hb.untorn)
    rw [hzero, add_zero] at hb'
    exact hb'.congr rfl rfl rfl

/-- An event of the body of a transaction. -/
theorem Exact.of_add (ho : s.current = some o) (hbeg : o.begun = true) {cs : List Change}
    {a' : Applier} (hb : Accounts start (s.add cs) s.gtids n 0 a')
    (hc : a'.currentGtid = a.currentGtid) (hv : a'.previousGtid = a.previousGtid)
    (ht : a'.dirtyTxn = true) :
    Exact start n a' (s.add cs) where
  books := hb
  clean := fun hd => absurd hd (by simp [ht])
  ongoing := fun _ => ht
  tracks := by rw [hc, hv]; exact h.tracks.add cs ho
  pending := by
    intro o' ho' hnot
    rw [current_add cs ho] at ho'
    obtain rfl := Option.some.inj ho'
    exact absurd hnot (by simp [OpenTxn.add, hbeg])

/-- A row event is buffered, written, or skipped. -/
theorem Exact.rows (ho : s.current = some o) (hbeg : o.begun = true) {env : Env} {e : RowsEvent}
    (hok : RowEventOk env f e a) (now : Nat) :
    ∃ a', processBinlogEvent env f now (.rows e) a = .ok a' ∧
      Exact start n a' (s.add (rowChanges env a e)) := by
  obtain ⟨a₁, hrun, ht⟩ := processRowEvent_ok hok h.books.noSaves h.books.untorn
  simp only [processBinlogEvent, hrun, Outcome.andThen_ok]
  refine ⟨_, rfl, h.of_add ho hbeg ?_ ht.current ht.previous rfl⟩
  exact (h.books.take_add ht ho (h.tracks.sending o ho)).congr rfl rfl rfl

/-- A statement that changes rows is executed on top of the flushed
buffer. -/
theorem Exact.dml (ho : s.current = some o) (hbeg : o.begun = true) {q : Query}
    (hq : q.node.isDML = true) (hskip : q.skipsTimeZone = false) (hprep : f.prepare = false)
    (hexec : f.execute = false) (hf : f.flush = fun _ => false) (now : Nat) :
    ∃ a', executeQueryWithEngine f now q a = .ok a' ∧
      Exact start n a' (s.add [.stmt q]) := by
  obtain ⟨a', hrun, ht, hd⟩ :=
    executeQuery_dml_ok hf now hskip hprep hexec hq h.books.noSaves h.books.untorn
  refine ⟨a', hrun, h.of_add ho hbeg ?_ ht.current ht.previous hd⟩
  exact h.books.take_add ht ho (h.tracks.sending o ho)

/-- A DDL statement commits what came before, is executed, and is
committed with its own GTID. -/
theorem Exact.ddl (ho : s.current = some o) (hbeg : o.begun = false) {q : Query}
    (hq : causeImplicitCommitAfter q.node = true) (hskip : q.skipsTimeZone = false)
    (hprep : f.prepare = false) (hexec : f.execute = false) (hf : f.flush = fun _ => false)
    (now : Nat) :
    ∃ a' n', executeQueryWithEngine f now q a = .ok a' ∧
      Exact start n' a' (s.add [.stmt q]).finish := by
  obtain ⟨reason, cache, hrun⟩ := executeQuery_of_commitAfter now a hskip hprep hq
  have h₀ : Exact start n { a with tablesByName := cache } s := h.congr rfl rfl rfl rfl rfl rfl rfl
  obtain ⟨a₂, hrun₂, hb₂, -, hc₂, hv₂⟩ := h₀.before_statement ho hbeg hf now reason
  have ht₂ : Tracks start a₂.currentGtid a₂.previousGtid s := by rw [hc₂, hv₂]; exact h.tracks
  have hnode : q.node ≠ .startTransaction := by
    intro hn
    simp [hn, causeImplicitCommitAfter] at hq
  -- the statement may be durable before its position is
  obtain ⟨x, ht⟩ := takes_exec hb₂.noSaves hb₂.untorn q
  have hb₃ : Accounts start (s.add [.stmt q]) _ _ _ { a₂ with
      session := execute q a₂, dirtyTxn := true, dirtyStream := true,
      ongoingBatchTxn := decide (q.node = .startTransaction) } :=
    (hb₂.take_add ht ho (ht₂.sending o ho)).congr (execute_eq hnode a₂) rfl rfl
  rw [hrun, runStatement, if_pos rfl, hrun₂, Outcome.andThen_ok]
  simp only [executeAndCommit, hexec, hq, Bool.false_eq_true, if_false, if_true]
  exact hb₃.commit_finish (ht₂.add _ ho) (current_add _ ho) hf now .implicitCommitAfterStmt
    (by decide) reason

end

/-! ### A new connection -/

/-- The transactions in the saved position are the durable ones. -/
theorem Exact.filter_saved (h : Exact start n a s) :
    s.ended.filter (fun t => (savedPosition start a).contains t.gtid) = s.ended.take n := by
  have htake : (s.ended.take n).filter (fun t => (savedPosition start a).contains t.gtid)
      = s.ended.take n := by
    rw [List.filter_eq_self]
    intro t ht
    exact (h.books.saved t.gtid).mpr (.inr (List.mem_map.mpr ⟨t, ht, rfl⟩))
  have hdrop := h.tracks.filter_drop fun g hg => (h.books.saved g).mp hg
  conv_lhs => rw [← List.take_append_drop n s.ended]
  rw [List.filter_append, htake, hdrop, List.append_nil]

theorem SavedExactly.of_take {start : Position} {ended : List SrcTxn} {n : Nat}
    {pre : List (List Op)} {ops : List Op} (h : SavedExactly start ended n pre ops) :
    SavedExactly start (ended.take n) n pre ops := by
  intro p hp
  obtain ⟨m, hm, hcov, hch⟩ := h p hp
  have htake : (ended.take n).take m = ended.take m := by
    rw [List.take_take, Nat.min_eq_left hm]
  exact ⟨m, hm, by rwa [htake], by rwa [htake]⟩

/-- The buffer is discarded and the position loaded. Nothing of the old
attempt is left when the open transaction holds no change. -/
theorem Exact.reconnect {env : Env} (h : Exact env.initial n a s)
    (htxn : changesOf (a.session.txn.getD []) = 0) (now : Nat) :
    Exact env.initial n (startReplicationEventStream env now a)
      { s with
        ended := s.ended.filter (fun t => (Source.loaded env a).contains t.gtid)
        current := none } := by
  have hload : Source.loaded env a = savedPosition env.initial a := by
    rw [Source.loaded, savedPosition, Session.working,
      lastSaved_append_of_noSaves _ h.books.noSaves]
  have hpos : (startReplicationEventStream env now a).pendingPosition
      = savedPosition env.initial a := hload
  have hlen : (s.ended.take n).length = n := List.length_take_of_le h.books.bound
  rw [hload, h.filter_saved]
  refine ⟨⟨?_, ?_, ?_, ?_, ?_, ?_, ?_, ?_, ?_, ?_⟩, ?_, ?_, ?_, ?_⟩
  · exact hlen.ge
  · simp only [startReplicationEventStream, List.take_take, Nat.min_self]
    exact h.books.durable
  · simp [startReplicationEventStream, Binlog.inFlight, htxn, Source.openTagged]
  · rw [hpos]; exact h.books.savedMysql
  · rw [hpos]; exact h.books.saved
  · exact h.books.savedMysql
  · simp only [List.take_take, Nat.min_self]
    exact h.books.saved
  · exact h.books.noSaves
  · intro e he
    simp [startReplicationEventStream] at he
  · exact h.books.every.mono fun pre ops hP => hP.of_take
  · exact fun _ => hlen.symm
  · intro hd
    simp [startReplicationEventStream] at hd
  · exact h.tracks.restart (List.take_sublist n s.ended)
  · intro o ho
    simp at ho

end Exact

/-! ## Runs -/

/-- Whether the applier commits after a query that is a transaction by
itself. -/
def Query.committed (q : Query) : Bool :=
  q.kind != .standalone || q.skipsTimeZone || causeImplicitCommitAfter q.node

/-- The inputs under which the books stay in order. -/
def Safe (env : Env) (r : Replica) (i : Input) : Prop :=
  match i with
  | .event _ f e => f = {} ∧ r.source.Sends env.initial e ∧
      match e with
      | .rows e => RowEventOk env f e r.applier
      | .query q => q.committed = true
      | _ => True
  | .tick _ f | .stop _ f => f = {} ∧ (batchIsClean r.applier = true → r.source.current = none)
  | .reconnect _ => changesOf (r.applier.session.txn.getD []) = 0

theorem current_of_isBegun {s : Source} (h : s.isBegun = true) :
    ∃ o, s.current = some o ∧ o.begun = true := by
  rw [Source.isBegun, Option.any_eq_true] at h
  exact h

theorem current_of_isPending {s : Source} (h : s.isPending = true) :
    ∃ o, s.current = some o ∧ o.begun = false := by
  rw [Source.isPending, Option.any_eq_true] at h
  obtain ⟨o, ho, hb⟩ := h
  exact ⟨o, ho, by simpa using hb⟩

variable {q : Query} {env : Env}

theorem kind_of_not_skipped (h : q.kind ≠ .standalone) : q.skipsTimeZone = false := by
  by_contra hs
  simp [Query.kind, hs] at h

theorem node_of_begin (h : q.kind = .begin) : q.node = .startTransaction := by
  unfold Query.kind at h
  cases hn : q.node <;> simp_all [PlanNode.isDML] <;> split at h <;> simp_all

theorem node_of_commit (h : q.kind = .commit) : q.node = .commit := by
  unfold Query.kind at h
  cases hn : q.node <;> simp_all [PlanNode.isDML] <;> split at h <;> simp_all

theorem isDML_of_dml (h : q.kind = .dml) : q.node.isDML = true := by
  unfold Query.kind at h
  cases hn : q.node <;> simp_all [PlanNode.isDML] <;> split at h <;> simp_all

theorem Exact.query {start : Position} {n : Nat} {a : Applier} {s : Source} (h : Exact start n a s)
    (hsends : s.Sends start (.query q)) (hcom : q.committed = true) (now : Nat) :
    ∃ a' n', executeQueryWithEngine {} now q a = .ok a' ∧ Exact start n' a' (s.onQuery q) := by
  simp only [Source.Sends] at hsends
  unfold Source.onQuery
  cases hk : q.kind with
  | begin =>
    have hskip := kind_of_not_skipped (q := q) (by simp [hk])
    obtain ⟨o, ho, hb⟩ := current_of_isPending (by simpa [hk] using hsends)
    exact h.begin ho hb (node_of_begin hk) hskip rfl rfl rfl now
  | commit =>
    have hskip := kind_of_not_skipped (q := q) (by simp [hk])
    obtain ⟨o, ho, -⟩ := current_of_isBegun (by simpa [hk] using hsends)
    simp only [hskip, node_of_commit hk, Bool.false_eq_true, if_false, executeQueryWithEngine]
    exact h.extend_finish ho rfl now
  | dml =>
    have hskip := kind_of_not_skipped (q := q) (by simp [hk])
    obtain ⟨o, ho, hb⟩ := current_of_isBegun (by simpa [hk] using hsends)
    obtain ⟨a', hrun, hex⟩ := h.dml ho hb (isDML_of_dml hk) hskip (f := {}) rfl rfl rfl now
    exact ⟨a', n, hrun, hex⟩
  | standalone =>
    obtain ⟨o, ho, hb⟩ := current_of_isPending (by simpa [hk] using hsends)
    by_cases hskip : q.skipsTimeZone = true
    · simp only [executeQueryWithEngine, hskip, if_true]
      exact h.books.commit_finish h.tracks ho rfl now .implicitCommitAfterStmt (by decide) .dmlStmt
    · have hafter : causeImplicitCommitAfter q.node = true := by
        simpa [Query.committed, hk, hskip] using hcom
      simp only [hskip, Bool.false_eq_true, if_false]
      exact h.ddl ho hb hafter (by simpa using hskip) rfl rfl rfl now

/-- **The step lemma.** -/
theorem Exact.step {n : Nat} {r : Replica} (h : Exact env.initial n r.applier r.source) {i : Input}
    (hi : Safe env r i) :
    ∃ n', Exact env.initial n' (r.step env i).applier (r.step env i).source := by
  obtain ⟨a, s⟩ := r
  unfold Replica.step handle Source.onInput
  by_cases hrun : a.running = true
  · simp only [hrun, if_true]
    cases i with
    | event now f e =>
      obtain ⟨rfl, hsends, hok⟩ := hi
      cases e with
      | xid =>
        obtain ⟨o, ho, -⟩ := current_of_isBegun hsends
        obtain ⟨a', n', hrun', hex⟩ := h.extend_finish ho (f := {}) rfl now
        exact ⟨n', by simpa [processBinlogEvent, hrun', logged, Source.onEvent] using hex⟩
      | query q =>
        obtain ⟨a', n', hrun', hex⟩ := h.query hsends hok now
        refine ⟨n', ?_⟩
        simpa [processBinlogEvent, processQuery, hrun', logged, Source.onEvent] using hex.nextStmt
      | rotate =>
        by_cases hc : a.currentGtid.isSome = true
        · obtain ⟨a', n', hrun', hex⟩ := h.extend_idle hsends (f := {}) rfl now
          exact ⟨n', by simpa [processBinlogEvent, hc, hrun', logged, Source.onEvent] using hex⟩
        · exact ⟨n, by simpa [processBinlogEvent, hc, logged, Source.onEvent] using h⟩
      | gtid g isBegin =>
        obtain ⟨hidle, rfl, hnot, hfresh, hg⟩ := hsends
        refine ⟨n, ?_⟩
        simpa [processBinlogEvent, logged, Source.onEvent] using h.gtid hidle hnot hfresh hg
      | tableMap id m =>
        refine ⟨n, ?_⟩
        simp only [processBinlogEvent, Source.onEvent]
        split <;> exact h.congr rfl rfl rfl rfl rfl rfl rfl
      | rows e =>
        obtain ⟨o, ho, hb⟩ := current_of_isBegun hsends
        obtain ⟨a', hrun', hex⟩ := h.rows ho hb hok now
        exact ⟨n, by simpa [hrun', logged, Source.onEvent] using hex⟩
      | unknown b => exact absurd hsends (by simp [Source.Sends])
      | rand | formatDescription | previousGTIDs | heartbeat | stop | mariadbMarker => exact ⟨n, h⟩
    | tick now f =>
      obtain ⟨rfl, hclean⟩ := hi
      by_cases hc : batchIsClean a = true
      · obtain ⟨a', n', hrun', hex⟩ := h.extend_idle (hclean hc) (f := {}) rfl now
        exact ⟨n', by simpa [hc, hrun', logged] using hex⟩
      · exact ⟨n, by simpa [hc] using h⟩
    | stop now f =>
      obtain ⟨rfl, hclean⟩ := hi
      by_cases hc : batchIsClean a = true
      · obtain ⟨a', hrun', hex⟩ := h.commit_idle (hclean hc) (f := {}) rfl now .onClose
        refine ⟨s.ended.length, ?_⟩
        simp only [hc, if_true, hrun', logged, Outcome.state?_ok, Option.getD_some]
        exact hex.congr rfl rfl rfl rfl rfl rfl rfl
      · refine ⟨n, ?_⟩
        simp only [hc, Bool.false_eq_true, if_false]
        exact h.congr rfl rfl rfl rfl rfl rfl rfl
    | reconnect now => exact ⟨n, h.reconnect hi now⟩
  · simp only [hrun, Bool.false_eq_true, if_false]
    exact ⟨n, h⟩

theorem exact_start (hstart : IsMysql env.initial) (now : Nat) :
    Exact env.initial 0 (Replica.start env now).applier (Replica.start env now).source := by
  refine ⟨⟨le_rfl, rfl, rfl, hstart, ?_, hstart, ?_, noSaves_nil, ?_, everyCommit_nil⟩,
    fun _ => rfl, ?_, ?_, ?_⟩
  · intro g
    simp [Replica.start, Applier.started, startReplicationEventStream, Source.gtids, lastSaved,
      Session.working]
  · intro g
    simp [Replica.start, Applier.started, startReplicationEventStream, savedPosition, lastSaved]
  · intro e he
    simp [Replica.start, Applier.started, startReplicationEventStream] at he
  · intro hd
    simp [Replica.start, Applier.started, startReplicationEventStream] at hd
  · constructor <;> simp [Replica.start, Applier.started, startReplicationEventStream, Source.gtids]
  · intro o ho
    simp [Replica.start] at ho

/-- **The run lemma.** -/
theorem exact_run (hstart : IsMysql env.initial) (now : Nat) {inputs : List Input}
    (h : Along (Replica.step env) (Safe env) (Replica.start env now) inputs) :
    ∃ n, Exact env.initial n (run (Replica.step env) (Replica.start env now) inputs).applier
      (run (Replica.step env) (Replica.start env now) inputs).source :=
  h.invariant (fun r => ∃ n, Exact env.initial n r.applier r.source)
    (fun _ _ ⟨_, hex⟩ hi => hex.step hi) ⟨0, exact_start hstart now⟩

/-! ## Saved positions are exact -/

/-- The rows of a keyed table with all columns in the images, or of a
table that is not replicated. -/
def BuffersRows (env : Env) (e : RowsEvent) (a : Applier) : Prop :=
  match planRowEvent env e a with
  | .fail _ => False
  | .skip => True
  | .resolved m info => m.columns = info.schema.length ∧
      (e.isRowFormat info.schema.length && hasPrimaryKey info.schema) = true ∧
      Decodes e.event e.rows

instance (env : Env) (e : RowsEvent) (a : Applier) : Decidable (BuffersRows env e a) :=
  match hp : planRowEvent env e a with
  | .fail _ => isFalse (by simp [BuffersRows, hp])
  | .skip => isTrue (by simp [BuffersRows, hp])
  | .resolved m info => decidable_of_iff (m.columns = info.schema.length ∧
      (e.isRowFormat info.schema.length && hasPrimaryKey info.schema) = true ∧
      Decodes e.event e.rows) (by simp [BuffersRows, hp])

theorem BuffersRows.ok {e : RowsEvent} {a : Applier} (h : BuffersRows env e a) (f : Faults) :
    RowEventOk env f e a := by
  unfold BuffersRows at h
  unfold RowEventOk
  cases hp : planRowEvent env e a with
  | fail err => simp [hp] at h
  | skip => trivial
  | resolved m info =>
    simp only [hp] at h
    exact ⟨h.1, by rw [if_pos h.2.1]; exact h.2.2⟩

/-- A stream of row events on keyed tables with full images, and of DDL
queries, with ticks and stop signals anywhere, in which nothing fails. -/
def KeyedStream (env : Env) (r : Replica) (i : Input) : Prop :=
  match i with
  | .event _ f e => f = {} ∧ r.source.Sends env.initial e ∧
      match e with
      | .rows e => BuffersRows env e r.applier
      | .query q => q.kind ≠ .dml
      | _ => True
  | .tick _ f | .stop _ f => f = {}
  | .reconnect _ => False

/-- No tick and no stop commits a clean batch while a transaction is
announced but not executed, and the applier commits after every DDL
statement. -/
def CommitsInOrder (r : Replica) (i : Input) : Prop :=
  match i with
  | .event _ _ (.query q) => q.committed = true
  | .tick _ _ | .stop _ _ => batchIsClean r.applier = true → r.source.current = none
  | _ => True

instance (r : Replica) (i : Input) : Decidable (CommitsInOrder r i) := by
  unfold CommitsInOrder
  split <;> infer_instance

theorem KeyedStream.safe {r : Replica} {i : Input} (h : KeyedStream env r i)
    (hc : CommitsInOrder r i) : Safe env r i := by
  cases i with
  | event now f e =>
    refine ⟨h.1, h.2.1, ?_⟩
    cases e with
    | rows e => exact BuffersRows.ok h.2.2 f
    | query q => exact hc
    | _ => trivial
  | tick now f | stop now f => exact ⟨h, hc⟩
  | reconnect now => exact h.elim

/-- **Saved positions are exact.** In every run whose ticks, stops and DDL
statements meet `CommitsInOrder`, each position saved by a commit names
the starting GTIDs and those of the first `m` transactions that ended,
and the data committed by then is exactly theirs. -/
theorem saved_positions_exact (env : Env) (hstart : IsMysql env.initial) (now : Nat)
    (inputs : List Input)
    (h : Along (Replica.step env) (fun r i => KeyedStream env r i ∧ CommitsInOrder r i)
      (Replica.start env now) inputs) :
    let r := run (Replica.step env) (Replica.start env now) inputs
    EveryCommit (SavedExactly env.initial r.source.ended r.source.ended.length)
      r.applier.session.durable := by
  obtain ⟨n, hex⟩ := exact_run hstart now (h.mono fun r i hi => hi.1.safe hi.2)
  exact hex.books.every.mono fun pre ops hP =>
    hP.mono (List.prefix_refl _) hex.books.bound hex.books.bound

/-- One replicated table `d.t`, and no GTID executed. -/
def sampleEnv : Env where
  isTableFilteredOut := fun _ => false
  catalog := fun _ _ => some ⟨"t", [⟨"id", true, {}⟩, ⟨"v", false, {}⟩]⟩
  initial := some (.mysql56 ∅)

def sampleGtid (n : Nat) : Gtid := .mysql56 [1] n

def sampleTableMap : Event := .tableMap 1 ⟨"d", "t", 2⟩

/-- An INSERT of one row with all columns. -/
def sampleInsert (k : Int) (v : String) : RowsEvent where
  tableId := 1
  event := .insert
  parses := true
  identifyColumns := []
  dataColumns := [true, true]
  rows := [⟨⟨[], 0⟩, ⟨[.value (.int k), .value (.text v)], 8⟩⟩]

def sent (now : Nat) (e : Event) : Input := .event now {} e

/-- A transaction of one row, up to its commit event. -/
def sampleTxn (n : Nat) : List Input :=
  [sent 0 (.gtid (sampleGtid n) false), sent 0 (.query Query.begin), sent 0 sampleTableMap,
    sent 0 (.rows (sampleInsert n "a")), sent 1 .xid]

/-- The batch is committed by a tick between transactions. -/
theorem saved_positions_exact_sample :
    let r := run (Replica.step sampleEnv) (Replica.start sampleEnv 0)
      (sampleTxn 1 ++ [.tick 250 {}])
    EveryCommit (SavedExactly sampleEnv.initial r.source.ended r.source.ended.length)
      r.applier.session.durable := by
  refine saved_positions_exact sampleEnv ⟨∅, rfl⟩ 0 _ ?_
  refine ⟨⟨⟨rfl, by decide, trivial⟩, trivial⟩, ⟨⟨rfl, by decide, by decide⟩, by decide⟩,
    ⟨⟨rfl, by decide, trivial⟩, trivial⟩, ⟨⟨rfl, by decide, ?_⟩, trivial⟩,
    ⟨⟨rfl, by decide, trivial⟩, trivial⟩, ⟨rfl, by decide⟩, trivial⟩
  change BuffersRows _ _ _
  decide

/-- A tick between the GTID of the second transaction and its `BEGIN`. -/
def tickBeforeBegin : List Input :=
  sampleTxn 1 ++ [sent 2 (.gtid (sampleGtid 2) false), .tick 250 {}]

/-- The position saved at the tick names the second transaction, none of
which has been executed. -/
theorem tick_before_begin_saves_unexecuted :
    Along (Replica.step sampleEnv) (KeyedStream sampleEnv) (Replica.start sampleEnv 0)
        tickBeforeBegin ∧
      let r := run (Replica.step sampleEnv) (Replica.start sampleEnv 0) tickBeforeBegin
      ¬ EveryCommit (SavedExactly sampleEnv.initial r.source.ended r.source.ended.length)
        r.applier.session.durable := by
  constructor
  · refine ⟨⟨rfl, by decide, trivial⟩, ⟨rfl, by decide, by decide⟩, ⟨rfl, by decide, trivial⟩,
      ⟨rfl, by decide, ?_⟩, ⟨rfl, by decide, trivial⟩, ⟨rfl, by decide, trivial⟩, rfl, trivial⟩
    change BuffersRows _ _ _
    decide
  · intro r hev
    have hd : r.applier.session.durable = r.applier.session.durable.dropLast ++
        [r.applier.session.durable.getLast (by decide)] := by
      rw [List.dropLast_append_getLast]
    obtain ⟨m, -, hcov, -⟩ := hev _ _ ⟨[], by rw [List.append_nil]; exact hd.symm⟩ _
      (List.mem_of_getLast? (a := Op.savePosition _) rfl)
    have hend : r.source.ended.map SrcTxn.gtid = [sampleGtid 1] := by decide
    have hmem := (hcov (sampleGtid 2)).mp (by decide)
    rcases hmem with hmem | hmem
    · exact absurd hmem (by decide)
    · rw [List.map_take, hend] at hmem
      exact absurd (List.mem_of_mem_take hmem) (by decide)

end MyDuck.Binlog
