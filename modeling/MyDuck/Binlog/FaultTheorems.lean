/-
MyDuck.Binlog.FaultTheorems — which errors leave the saved position true.

The event loop logs an error and goes on. A failed `BEGIN`, `COMMIT` or
DDL query then costs no row: the rows of its transaction are in flight
like all others, and the next commit takes everything in flight with it.
`Ledger` says so: every row change of a transaction that has ended, or is
being sent, is durable or in flight, and a position never names a
transaction that has not ended. A row event, a DML query or a flush that
fails loses rows while the GTID of their transaction is still appended at
its commit event.
-/
import MyDuck.Binlog.ReconnectTheorems

namespace MyDuck.Binlog

open MyDuck.Delta

/-! ## Row changes -/

def rowPart (cs : Changes) : Changes := cs.filter (fun c => c.2.ofRows = true)

@[simp] theorem rowPart_add (cs ds : Changes) : rowPart (cs + ds) = rowPart cs + rowPart ds :=
  Multiset.filter_add _ _ _

theorem rowPart_mono {cs ds : Changes} (h : cs ≤ ds) : rowPart cs ≤ rowPart ds :=
  Multiset.filter_le_filter _ h

/-- A statement that is not DML changes no row. -/
theorem rowPart_stmt (g : Option Gtid) {q : Query} (h : q.node.isDML = false) :
    rowPart (tag g [.stmt q]) = 0 := by
  simp [rowPart, tag, Change.ofRows, h, Multiset.filter_singleton]

theorem taggedAll_le_of_sublist {ts us : List SrcTxn} (h : ts.Sublist us) :
    taggedAll ts ≤ taggedAll us := by
  have hcons : ∀ (t : SrcTxn) (ts : List SrcTxn),
      taggedAll (t :: ts) = t.tagged + taggedAll ts := by
    simp [taggedAll]
  induction h with
  | slnil => exact le_rfl
  | cons t _ ih => rw [hcons]; exact ih.trans (Multiset.le_add_left _ _)
  | cons_cons t _ ih => rw [hcons, hcons]; exact add_le_add_right ih _

/-! ## The ledger -/

/-- Every GTID a saved position names is one of the starting position, or
of an ended transaction all of whose row changes are committed. -/
def SavedSoundly (start : Position) (log : List SrcTxn) (pre : List (List Op)) (ops : List Op) :
    Prop :=
  ∀ p, .savePosition p ∈ ops → ∀ g, p.contains g = true → start.contains g = true ∨
    ∃ t ∈ log, t.gtid = g ∧ rowPart t.tagged ≤ changesOf (pre ++ [ops]).flatten

/-- The position names no transaction outside the list. -/
def Within (start p : Position) (gs : List Gtid) : Prop :=
  ∀ g, p.contains g = true → start.contains g = true ∨ g ∈ gs

structure Ledger (start : Position) (s : Source) (a : Applier) : Prop where
  accounted : rowPart (taggedAll s.ended + s.openTagged)
    ≤ rowPart (changesOf a.session.durable.flatten + inFlight a)
  mysql : IsMysql a.pendingPosition
  pending : Within start a.pendingPosition s.gtids
  savedMysql : IsMysql (savedPosition start a)
  saved : ∃ m, Within start (savedPosition start a) ((s.ended.take m).map SrcTxn.gtid) ∧
    rowPart (taggedAll (s.ended.take m)) ≤ rowPart (changesOf a.session.durable.flatten)
  noSaves : NoSaves (a.session.txn.getD [])
  untorn : Untorn a.deltas
  every : EveryCommit (SavedSoundly start s.log) a.session.durable
  logged : ∀ t ∈ s.ended, t ∈ s.log

theorem SavedSoundly.mono {start : Position} {log log' : List SrcTxn}
    (hlog : ∀ t ∈ log, t ∈ log') {pre : List (List Op)} {ops : List Op}
    (h : SavedSoundly start log pre ops) : SavedSoundly start log' pre ops := by
  intro p hp g hg
  rcases h p hp g hg with h | ⟨t, ht, hgt, hle⟩
  · exact .inl h
  · exact .inr ⟨t, hlog t ht, hgt, hle⟩

theorem Within.append {start p : Position} {gs : List Gtid} (hp : IsMysql p)
    (h : Within start p gs) {g : Option Gtid} (hg : MysqlGtid g) (hmem : ∀ y, g = some y → y ∈ gs) :
    Within start (p.appendGTID g) gs := by
  intro y hy
  rcases (contains_appendGTID hp hg y).mp hy with hy | hy
  · exact h y hy
  · exact .inr (hmem y hy)

section Ledger

variable {start : Position} {s : Source} {a : Applier}

section

variable (h : Ledger start s a)

include h

theorem Ledger.congr {a' : Applier} (hs : a'.session = a.session) (hd : a'.deltas = a.deltas)
    (hp : a'.pendingPosition = a.pendingPosition) : Ledger start s a' := by
  obtain ⟨h1, h2, h3, h4, h5, h6, h7, h8, h9⟩ := h
  constructor <;> simp only [savedPosition, inFlight, hs, hd, hp] at * <;> assumption

/-- The row changes taken in are those of the transaction being sent. -/
theorem Ledger.take {s' : Source} {a' : Applier} {cs : List Change} {y : Changes}
    (ht : Takes a a' cs y) (he : s'.ended = s.ended) (hl : s'.log = s.log)
    (ho : rowPart s'.openTagged ≤ rowPart (s.openTagged + tag a.currentGtid cs)) :
    Ledger start s' a' := by
  have hall : changesOf a'.session.durable.flatten + inFlight a'
      = changesOf a.session.durable.flatten + inFlight a + tag a.currentGtid cs := by
    rw [ht.changes, add_assoc, ht.inFlight, add_assoc]
  have hg : s'.gtids = s.gtids := by rw [Source.gtids, he, Source.gtids]
  obtain ⟨m, hw, hle⟩ := h.saved
  refine ⟨?_, ?_, ?_, ?_, ⟨m, ?_, ?_⟩, ht.noSaves, ht.untorn, ?_, ?_⟩
  · rw [hall, he, rowPart_add, rowPart_add]
    refine (add_le_add_right ho _).trans ?_
    rw [rowPart_add, ← add_assoc, ← rowPart_add]
    exact add_le_add_left h.accounted _
  · rw [ht.pending]; exact h.mysql
  · rw [ht.pending, hg]; exact h.pending
  · rw [ht.saved]; exact h.savedMysql
  · rw [ht.saved, he]; exact hw
  · rw [ht.changes, he, rowPart_add]
    exact hle.trans (Multiset.le_add_right _ _)
  · rw [hl]; exact ht.every (fun pre ops hns p hp => absurd hp (hns p)) h.every
  · rw [he, hl]; exact h.logged

/-- Changes that no ended or open transaction needs do no harm. -/
theorem Ledger.keep {a' : Applier} {cs : List Change} {y : Changes} (ht : Takes a a' cs y) :
    Ledger start s a' :=
  h.take ht rfl rfl (rowPart_mono (Multiset.le_add_right _ _))

theorem Ledger.source_mono {s' : Source} (he : s'.ended = s.ended) (hl : s'.log = s.log)
    (ho : rowPart s'.openTagged ≤ rowPart s.openTagged) : Ledger start s' a :=
  h.take (Takes.refl h.noSaves h.untorn) he hl (by simpa using ho)

/-- A commit makes durable whatever is in flight, so every ended
transaction is committed. -/
theorem Ledger.commitOngoingTxn {f : Faults} (hf : f.flush = fun _ => false) (now : Nat)
    (kind : CommitKind) (reason : FlushReason) (hp : IsMysql (savedBy kind a))
    (hin : Within start (savedBy kind a) s.gtids) :
    ∃ ops tables, Binlog.commitOngoingTxn f now kind reason a
        = .ok (afterCommit a now (savedBy kind a) ops tables) ∧
      Ledger start s (afterCommit a now (savedBy kind a) ops tables) := by
  obtain ⟨ops, tables, hrun, hch, hns, hdr⟩ :=
    commitOngoingTxn_ok hf now kind reason h.untorn hp.ne_none
  have hall := changesOf_afterCommit a now (savedBy kind a) ops tables hch
  have hended : rowPart (taggedAll s.ended) ≤ rowPart (changesOf (afterCommit a now
      (savedBy kind a) (a.session.txn.getD [] ++ ops) tables).session.durable.flatten) := by
    rw [hall]
    refine le_trans ?_ h.accounted
    rw [rowPart_add]
    exact Multiset.le_add_right _ _
  refine ⟨_, tables, hrun,
    ⟨?_, hp, hin, ?_, ⟨s.ended.length, ?_, ?_⟩, noSaves_nil, hdr.untorn, ?_, h.logged⟩⟩
  · rw [inFlight_afterCommit _ _ _ _ _ hdr, add_zero, hall]
    exact h.accounted
  · rw [savedPosition_afterCommit]; exact hp
  · rw [savedPosition_afterCommit, List.take_length]; exact hin
  · rw [List.take_length]; exact hended
  · refine everyCommit_snoc.mpr ⟨h.every, ?_⟩
    intro q hq g hg
    obtain rfl := eq_of_mem_commit (h.noSaves.append hns) hq
    rcases hin g hg with hs | hmem
    · exact .inl hs
    · obtain ⟨t, ht, rfl⟩ := List.mem_map.mp hmem
      refine .inr ⟨t, h.logged t ht, rfl, ?_⟩
      have htle : t.tagged ≤ taggedAll s.ended := by
        rw [← taggedAll_singleton]
        exact taggedAll_le_of_sublist (List.singleton_sublist.mpr ht)
      exact (rowPart_mono htle).trans (hended.trans (Multiset.filter_le _ _))

theorem Ledger.finish : Ledger start s.finish a := by
  cases hc : s.current with
  | none =>
    have : s.finish = s := by simp [Source.finish, hc]
    rwa [this]
  | some o =>
    have hopen : s.openTagged = o.txn.tagged := by simp [Source.openTagged, hc]
    obtain ⟨h1, h2, h3, h4, ⟨m, hw, hle⟩, h6, h7, h8, h9⟩ := h
    rw [finish_of_current hc]
    refine ⟨?_, h2, ?_, h4, ⟨min m s.ended.length, ?_, ?_⟩, h6, h7, ?_, ?_⟩
    · rw [hopen] at h1
      simpa [Source.openTagged] using h1
    · intro g hg
      rcases h3 g hg with h | h
      · exact .inl h
      · exact .inr (by simpa [Source.gtids] using .inl (by simpa [Source.gtids] using h))
    · rw [List.take_append_of_le_length (Nat.min_le_right _ _), List.take_eq_take_min] at *
      simpa using hw
    · rw [List.take_append_of_le_length (Nat.min_le_right _ _)]
      rw [List.take_eq_take_min] at hle
      exact hle
    · exact h8.mono fun pre ops hP => hP.mono fun t ht => List.mem_append_left _ ht
    · intro t ht
      rcases List.mem_append.mp ht with ht | ht
      · exact List.mem_append_left _ (h9 t ht)
      · exact List.mem_append_right _ ht

end

/-- A new connection keeps the transactions in the saved position. -/
theorem Ledger.reconnect {env : Env} (h : Ledger env.initial s a)
    (ht : Tracks env.initial a.currentGtid a.previousGtid s) (now : Nat) :
    Ledger env.initial
      { s with
        ended := s.ended.filter (fun t => (Source.loaded env a).contains t.gtid)
        current := none }
      (startReplicationEventStream env now a) := by
  have hload : Source.loaded env a = savedPosition env.initial a := by
    rw [Source.loaded, savedPosition, Session.working, lastSaved_append_of_noSaves _ h.noSaves]
  have hpos : (startReplicationEventStream env now a).pendingPosition
      = savedPosition env.initial a := hload
  obtain ⟨m, hw, hle⟩ := h.saved
  have hfilter : s.ended.filter (fun t => (savedPosition env.initial a).contains t.gtid)
      = (s.ended.take m).filter (fun t => (savedPosition env.initial a).contains t.gtid) := by
    conv_lhs => rw [← List.take_append_drop m s.ended]
    rw [List.filter_append, ht.filter_drop hw, List.append_nil]
  have hkept : Within env.initial (savedPosition env.initial a)
      ((s.ended.filter (fun t => (savedPosition env.initial a).contains t.gtid)).map
        SrcTxn.gtid) := by
    intro g hg
    refine (hw g hg).imp_right fun hin => ?_
    obtain ⟨t, htm, rfl⟩ := List.mem_map.mp hin
    exact List.mem_map.mpr ⟨t, List.mem_filter.mpr ⟨List.mem_of_mem_take htm, hg⟩, rfl⟩
  have hdur : rowPart (taggedAll (s.ended.filter
      (fun t => (savedPosition env.initial a).contains t.gtid)))
      ≤ rowPart (changesOf a.session.durable.flatten) := by
    rw [hfilter]
    exact (rowPart_mono (taggedAll_le_of_sublist List.filter_sublist)).trans hle
  rw [hload]
  refine ⟨?_, ?_, ?_, h.savedMysql, ⟨s.ended.length, ?_, ?_⟩, h.noSaves, ?_, h.every, ?_⟩
  · simp only [Source.openTagged, add_zero, startReplicationEventStream]
    rw [rowPart_add]
    exact hdur.trans (Multiset.le_add_right _ _)
  · rw [hpos]; exact h.savedMysql
  · rw [hpos]; exact hkept
  · rw [List.take_of_length_le (List.length_filter_le _ _)]; exact hkept
  · rw [List.take_of_length_le (List.length_filter_le _ _)]; exact hdur
  · intro e he
    simp [startReplicationEventStream] at he
  · exact fun t htm => h.logged t (List.mem_of_mem_filter htm)

end Ledger

/-! ## Calls that may fail -/

/-- The ledger, with the GTIDs the applier holds. -/
structure LedgerAt (start : Position) (s : Source) (current previous : Option Gtid)
    (a : Applier) : Prop where
  ledger : Ledger start s a
  current : a.currentGtid = current
  previous : a.previousGtid = previous

section LedgerAt

variable {start : Position} {s : Source} {current previous : Option Gtid} {a : Applier} {f : Faults}

section

variable (h : LedgerAt start s current previous a)

include h

theorem LedgerAt.congr {a' : Applier} (hs : a'.session = a.session) (hd : a'.deltas = a.deltas)
    (hp : a'.pendingPosition = a.pendingPosition) (hc : a'.currentGtid = a.currentGtid)
    (hv : a'.previousGtid = a.previousGtid) : LedgerAt start s current previous a' :=
  ⟨h.ledger.congr hs hd hp, by rw [hc, h.current], by rw [hv, h.previous]⟩

/-- A GTID of an ended transaction may be appended to the pending
position. -/
theorem LedgerAt.append (ht : Tracks start current previous s) {g : Option Gtid}
    (hg : ∀ y, g = some y → y ∈ s.gtids) {a' : Applier} (hs : a'.session = a.session)
    (hd : a'.deltas = a.deltas) (hp : a'.pendingPosition = a.pendingPosition.appendGTID g)
    (hc : a'.currentGtid = a.currentGtid) (hv : a'.previousGtid = a.previousGtid) :
    LedgerAt start s current previous a' := by
  refine ⟨?_, by rw [hc, h.current], by rw [hv, h.previous]⟩
  have h' : Ledger start s { a with pendingPosition := a.pendingPosition.appendGTID g } :=
    { h.ledger with
      mysql := h.ledger.mysql.appendGTID (ht.mysql hg)
      pending := h.ledger.pending.append h.ledger.mysql (ht.mysql hg) hg }
  exact h'.congr hs hd hp

theorem LedgerAt.flush (hf : f.flush = fun _ => false) (reason : FlushReason) :
    ∃ a', flushDeltaBuffer f reason a = .ok a' ∧ LedgerAt start s current previous a' := by
  obtain ⟨fl, tables, hfl, hch, hns, hdr⟩ := flushDeltaBuffer_ok hf reason h.ledger.untorn
  exact ⟨_, hfl, h.ledger.keep (takes_flush hch hns hdr h.ledger.noSaves), h.current, h.previous⟩

/-- A commit before a statement saves the pending position. -/
theorem LedgerAt.commit_before (hf : f.flush = fun _ => false) (now : Nat) (reason : FlushReason) :
    ∃ a', commitOngoingTxn f now .implicitCommitBeforeStmt reason a = .ok a' ∧
      LedgerAt start s current previous a' := by
  obtain ⟨ops, tables, hrun, hl⟩ := h.ledger.commitOngoingTxn hf now .implicitCommitBeforeStmt
    reason h.ledger.mysql h.ledger.pending
  exact ⟨_, hrun, hl, h.current, h.previous⟩

/-- Any other commit appends the current GTID: its transaction has to have
ended. -/
theorem LedgerAt.commit (ht : Tracks start current previous s)
    (hcur : ∀ y, current = some y → y ∈ s.gtids) (hf : f.flush = fun _ => false) (now : Nat)
    (kind : CommitKind) (hk : kind ≠ .implicitCommitBeforeStmt) (reason : FlushReason) :
    ∃ a', commitOngoingTxn f now kind reason a = .ok a' ∧
      LedgerAt start s current previous a' := by
  have hsaved : savedBy kind a = a.pendingPosition.appendGTID current := by
    rw [savedBy, if_neg hk, h.current]
  obtain ⟨ops, tables, hrun, hl⟩ := h.ledger.commitOngoingTxn hf now kind reason
    (by rw [hsaved]; exact h.ledger.mysql.appendGTID (ht.mysql hcur))
    (by rw [hsaved]; exact h.ledger.pending.append h.ledger.mysql (ht.mysql hcur) hcur)
  exact ⟨_, hrun, hl, h.current, h.previous⟩

theorem LedgerAt.extendOrCommit (ht : Tracks start current previous s)
    (hcur : ∀ y, current = some y → y ∈ s.gtids) (hf : f.flush = fun _ => false) (now : Nat) :
    ∃ a', extendOrCommitBatchTxn f now a = .ok a' ∧ LedgerAt start s current previous a' := by
  by_cases hext : (mayExtendBatchTxn now a).1 = true
  · rw [extendOrCommit_of_extend f hext, h.current]
    exact ⟨_, rfl, h.append ht hcur rfl rfl rfl h.current.symm rfl⟩
  · rw [extendOrCommit_of_commit f hext]
    exact h.commit ht hcur hf now .normalCommit (by decide) _

/-- A statement that may fail to execute, with its implicit commits. -/
theorem LedgerAt.runStatement (ht : Tracks start current previous s) (hf : f.flush = fun _ => false)
    (now : Nat) {q : Query}
    (hcur : causeImplicitCommitAfter q.node = true → ∀ y, current = some y → y ∈ s.gtids)
    (implicitCommit flushChangelog : Bool) (reason : FlushReason) :
    (runStatement f now q implicitCommit flushChangelog reason a).Leaves
      (LedgerAt start s current previous) := by
  unfold Binlog.runStatement
  refine Outcome.Leaves.andThen (Outcome.Leaves.andThen ?_ ?_) ?_
  · split
    · obtain ⟨a', hrun, h'⟩ := h.flush hf reason
      rw [hrun]
      exact h'
    · exact h
  · intro a h
    split
    · obtain ⟨a', hrun, h'⟩ := h.commit_before hf now reason
      rw [hrun]
      exact h'
    · exact h
  · intro a h
    unfold executeAndCommit
    split
    · exact h
    · have h' : LedgerAt start s current previous { a with
          session := execute q a, dirtyTxn := true, dirtyStream := true,
          ongoingBatchTxn := decide (q.node = .startTransaction) } := by
        refine ⟨?_, h.current, h.previous⟩
        by_cases hn : q.node = .startTransaction
        · have hb := h.ledger.keep (takes_begin h.ledger.noSaves h.ledger.untorn)
          exact hb.congr (by simp only [execute, hn]) rfl rfl
        · obtain ⟨x, hx⟩ := takes_exec h.ledger.noSaves h.ledger.untorn q
          exact (h.ledger.keep hx).congr (execute_eq hn a) rfl rfl
      simp only
      split
      · next hafter =>
        obtain ⟨a', hrun, h''⟩ := h'.commit ht (hcur hafter) hf now .implicitCommitAfterStmt
          (by decide) reason
        rw [hrun]
        exact h''
      · exact h'

/-- A query that is not DML, whether it fails or not. -/
theorem LedgerAt.query (ht : Tracks start current previous s) (hf : f.flush = fun _ => false)
    (now : Nat) {q : Query} (hdml : q.kind ≠ .dml)
    (hbegin : q.kind = .begin → ∀ y, previous = some y → y ∈ s.gtids)
    (hcur : q.kind ≠ .begin → ∀ y, current = some y → y ∈ s.gtids) :
    (executeQueryWithEngine f now q a).Leaves (LedgerAt start s current previous) := by
  by_cases hskip : q.skipsTimeZone = true
  · have hkind : q.kind ≠ .begin := by simp [Query.kind, hskip]
    obtain ⟨a', hrun, h'⟩ := h.commit ht (hcur hkind) hf now .implicitCommitAfterStmt (by decide)
      .dmlStmt
    simp only [executeQueryWithEngine, hskip, if_true, hrun]
    exact h'
  · simp only [executeQueryWithEngine, hskip, Bool.false_eq_true, if_false]
    split
    · exact h
    · split
      · next hn =>
        split
        · have hk : q.kind = .begin := by simp [Query.kind, hskip, hn]
          exact h.append ht (hbegin hk) rfl rfl (by rw [h.previous]) rfl rfl
        · exact h.runStatement ht hf now (by simp [hn, causeImplicitCommitAfter]) _ _ _
      · next hn =>
        obtain ⟨a', hrun, h'⟩ := h.extendOrCommit ht (hcur (by simp [Query.kind, hskip, hn])) hf now
        rw [hrun]
        exact h'
      · next hn => simp [Query.kind, hskip, hn, PlanNode.isDML] at hdml
      · next hn => simp [Query.kind, hskip, hn, PlanNode.isDML] at hdml
      · next hn => simp [Query.kind, hskip, hn, PlanNode.isDML] at hdml
      · next hn => simp [Query.kind, hskip, hn, PlanNode.isDML] at hdml
      · next hbeg hcom _ _ _ _ =>
        have hnot : q.kind ≠ .begin := by
          intro hk
          exact hbeg (node_of_begin hk)
        split
        · have h' : LedgerAt start s current previous { a with tablesByName := [] } :=
            h.congr rfl rfl rfl rfl rfl
          exact h'.runStatement ht hf now (fun _ => hcur hnot) _ _ _
        · exact h.runStatement ht hf now (fun _ => hcur hnot) _ _ _

end

end LedgerAt

/-! ## Runs -/

/-- The invariant between two inputs. -/
structure Sound (start : Position) (a : Applier) (s : Source) : Prop where
  ledger : Ledger start s a
  tracks : Tracks start a.currentGtid a.previousGtid s

section Sound

variable {start : Position} {a : Applier} {s : Source}

theorem Sound.at (h : Sound start a s) : LedgerAt start s a.currentGtid a.previousGtid a :=
  ⟨h.ledger, rfl, rfl⟩

/-- The loop goes on in the state that a call left. -/
theorem sound_logged {current previous : Option Gtid} (ht : Tracks start current previous s)
    {r : Result} (h : r.Leaves (LedgerAt start s current previous)) :
    Sound start (logged a r) s := by
  obtain ⟨a', hr, h'⟩ := h.state?
  rw [logged, hr, Option.getD_some]
  exact ⟨h'.ledger, by rw [h'.current, h'.previous]; exact ht⟩

/-- The ledger of the source as it is after a query that is not DML. -/
theorem Sound.onQuery (h : Sound start a s) {q : Query} (hsends : s.Sends start (.query q))
    (hdml : q.kind ≠ .dml) :
    LedgerAt start (s.onQuery q) a.currentGtid a.previousGtid a ∧
      Tracks start a.currentGtid a.previousGtid (s.onQuery q) ∧
      (q.kind = .begin → ∀ y, a.previousGtid = some y → y ∈ (s.onQuery q).gtids) ∧
      (q.kind ≠ .begin → ∀ y, a.currentGtid = some y → y ∈ (s.onQuery q).gtids) := by
  simp only [Source.Sends] at hsends
  unfold Source.onQuery
  cases hk : q.kind with
  | begin =>
    obtain ⟨o, ho, -⟩ := current_of_isPending (by simpa [hk] using hsends)
    refine ⟨⟨h.ledger.source_mono rfl rfl ?_, rfl, rfl⟩, h.tracks.begin ho, ?_, ?_⟩
    · rw [openTagged_begin]
    · exact fun _ => h.tracks.before o ho
    · exact fun hne => absurd rfl hne
  | commit =>
    obtain ⟨o, ho, -⟩ := current_of_isBegun (by simpa [hk] using hsends)
    have ht := h.tracks.finish ho
    exact ⟨⟨h.ledger.finish, rfl, rfl⟩, ht, fun hb => absurd hb (by simp),
      fun _ => ht.idle (by simp [finish_of_current ho])⟩
  | dml => exact absurd hk hdml
  | standalone =>
    obtain ⟨o, ho, -⟩ := current_of_isPending (by simpa [hk] using hsends)
    by_cases hskip : q.skipsTimeZone = true
    · simp only [hskip, if_true]
      have ht := h.tracks.finish ho
      exact ⟨⟨h.ledger.finish, rfl, rfl⟩, ht, fun hb => absurd hb (by simp),
        fun _ => ht.idle (by simp [finish_of_current ho])⟩
    · simp only [hskip, Bool.false_eq_true, if_false]
      have hadd := current_add [Change.stmt q] ho
      have ht := (h.tracks.add [.stmt q] ho).finish hadd
      have hnot : q.node.isDML = false := by
        unfold Query.kind at hk
        cases hn : q.node <;> simp_all [PlanNode.isDML]
      -- a statement that is not DML adds no row change
      have hl : Ledger start (s.add [.stmt q]) a := by
        refine h.ledger.source_mono rfl rfl ?_
        rw [openTagged_add s _ ho, rowPart_add, rowPart_stmt _ hnot, add_zero]
      exact ⟨⟨hl.finish, rfl, rfl⟩, ht, fun hb => absurd hb (by simp),
        fun _ => ht.idle (by simp [finish_of_current hadd])⟩

/-- An event of the body whose changes the applier took in. -/
theorem Sound.take_add (h : Sound start a s) {a' : Applier} {cs : List Change} {x : Changes}
    (ht : Takes a a' cs x) {o : OpenTxn} (ho : s.current = some o) :
    LedgerAt start (s.add cs) a.currentGtid a.previousGtid a' := by
  refine ⟨h.ledger.take ht rfl rfl ?_, ht.current, ht.previous⟩
  rw [openTagged_add s cs ho, h.tracks.sending o ho]

end Sound

/-- Legal events in which anything may fail, with ticks, stops and breaks
anywhere. -/
def FaultyStream (env : Env) (r : Replica) (i : Input) : Prop :=
  match i with
  | .event _ _ e => r.source.Sends env.initial e
  | _ => True

instance (env : Env) (r : Replica) (i : Input) : Decidable (FaultyStream env r i) := by
  unfold FaultyStream
  split <;> infer_instance

/-- No flush fails, every row event and every DML query is applied, and no
tick or stop commits a clean batch while a transaction is announced but
not executed. `BEGIN`, `COMMIT` and DDL queries may fail. -/
def FaultsHarmless (env : Env) (r : Replica) (i : Input) : Prop :=
  match i with
  | .event _ f e => (f.flush = fun _ => false) ∧
      match e with
      | .rows e => RowEventOk env f e r.applier
      | .query q => q.kind = .dml → f.prepare = false ∧ f.execute = false
      | _ => True
  | .tick _ f | .stop _ f => (f.flush = fun _ => false) ∧
      (batchIsClean r.applier = true → r.source.current = none)
  | .reconnect _ => True

/-- An event, whether it fails or not. -/
theorem Sound.event {env : Env} {a : Applier} {s : Source} (h : Sound env.initial a s) {e : Event}
    (hsends : s.Sends env.initial e) {f : Faults} (now : Nat)
    (hok : FaultsHarmless env ⟨a, s⟩ (.event now f e)) :
    Sound env.initial (logged a (processBinlogEvent env f now e a)) (s.onEvent env a e) := by
  obtain ⟨hf, hok⟩ := hok
  cases e with
  | xid =>
    obtain ⟨o, ho, -⟩ := current_of_isBegun hsends
    have ht := h.tracks.finish ho
    have hl : LedgerAt env.initial s.finish a.currentGtid a.previousGtid a :=
      ⟨h.ledger.finish, rfl, rfl⟩
    obtain ⟨a', hrun, h'⟩ :=
      hl.extendOrCommit ht (ht.idle (by simp [finish_of_current ho])) hf now
    refine sound_logged ht ?_
    rw [processBinlogEvent, hrun]
    exact h'
  | query q =>
    by_cases hdml : q.kind = .dml
    · obtain ⟨hprep, hexec⟩ := hok hdml
      obtain ⟨o, ho, -⟩ := current_of_isBegun (by simpa [Source.Sends, hdml] using hsends)
      have hskip := kind_of_not_skipped (q := q) (by simp [hdml])
      obtain ⟨a', hrun, htake, -⟩ := executeQuery_dml_ok hf now hskip hprep hexec
        (isDML_of_dml hdml) h.ledger.noSaves h.ledger.untorn
      have hs : s.onQuery q = s.add [.stmt q] := by simp only [Source.onQuery, hdml]
      rw [Source.onEvent, hs]
      refine sound_logged (h.tracks.add _ ho) (processQuery_leaves ?_ fun b hb =>
        hb.congr rfl rfl rfl rfl rfl)
      rw [hrun]
      exact h.take_add htake ho
    · obtain ⟨hl, ht, hbegin, hcur⟩ := h.onQuery hsends hdml
      exact sound_logged ht (processQuery_leaves (hl.query ht hf now hdml hbegin hcur) fun b hb =>
        hb.congr rfl rfl rfl rfl rfl)
  | rotate =>
    refine sound_logged h.tracks ?_
    rw [processBinlogEvent]
    split
    · obtain ⟨a', hrun, h'⟩ := h.at.extendOrCommit h.tracks (h.tracks.idle hsends) hf now
      rw [hrun]
      exact h'
    · exact h.at
  | gtid g isBegin =>
    obtain ⟨hidle, rfl, hnot, hfresh, hg⟩ := hsends
    have hl : Ledger env.initial { s with current := some ⟨⟨g, []⟩, false⟩ } a := by
      refine h.ledger.source_mono rfl rfl ?_
      rw [openTagged_of_idle hidle]
      exact le_rfl
    exact ⟨hl.congr rfl rfl rfl, h.tracks.gtid hidle hnot hfresh hg⟩
  | tableMap id m =>
    refine sound_logged h.tracks ?_
    rw [processBinlogEvent]
    split <;> exact h.at.congr rfl rfl rfl rfl rfl
  | rows e =>
    obtain ⟨o, ho, -⟩ := current_of_isBegun hsends
    obtain ⟨a', hrun, htake⟩ := processRowEvent_ok hok h.ledger.noSaves h.ledger.untorn
    refine sound_logged (h.tracks.add _ ho) ?_
    rw [processBinlogEvent, hrun, Outcome.andThen_ok]
    exact (h.take_add htake ho).congr rfl rfl rfl rfl rfl
  | unknown b => exact absurd hsends (by simp [Source.Sends])
  | rand | formatDescription | previousGTIDs | heartbeat | stop | mariadbMarker => exact h

/-- **The step lemma.** -/
theorem Sound.step {env : Env} {r : Replica} (h : Sound env.initial r.applier r.source) {i : Input}
    (hi : FaultyStream env r i) (hok : FaultsHarmless env r i) :
    Sound env.initial (r.step env i).applier (r.step env i).source := by
  obtain ⟨a, s⟩ := r
  unfold Replica.step handle Source.onInput
  by_cases hrun : a.running = true
  · simp only [hrun, if_true]
    cases i with
    | event now f e => exact h.event hi now hok
    | tick now f =>
      simp only
      split
      · next hc =>
        refine sound_logged h.tracks ?_
        obtain ⟨a', hcall, h'⟩ := h.at.extendOrCommit h.tracks (h.tracks.idle (hok.2 hc)) hok.1 now
        rw [hcall]
        exact h'
      · exact h
    | stop now f =>
      simp only
      split
      · next hc =>
        obtain ⟨a', hcall, h'⟩ := h.at.commit h.tracks (h.tracks.idle (hok.2 hc)) hok.1 now
          .normalCommit (by decide) .onClose
        have hs : Sound env.initial
            (logged a (commitOngoingTxn f now .normalCommit .onClose a)) s :=
          sound_logged h.tracks (by rw [hcall]; exact h')
        exact ⟨hs.ledger.congr rfl rfl rfl, hs.tracks⟩
      · exact ⟨h.ledger.congr rfl rfl rfl, h.tracks⟩
    | reconnect now =>
      exact ⟨h.ledger.reconnect h.tracks now, h.tracks.restart List.filter_sublist⟩
  · simp only [hrun, Bool.false_eq_true, if_false]
    exact h

theorem sound_start {env : Env} (hstart : IsMysql env.initial) (now : Nat) :
    Sound env.initial (Replica.start env now).applier (Replica.start env now).source := by
  have hex := exact_start hstart now
  have hb := hex.books
  refine ⟨⟨?_, hb.mysql, fun g hg => (hb.pending g).mp hg, hb.savedMysql,
    ⟨0, fun g hg => (hb.saved g).mp hg, ?_⟩, hb.noSaves, hb.untorn, everyCommit_nil, ?_⟩,
    hex.tracks⟩
  · exact Multiset.zero_le _
  · exact Multiset.zero_le _
  · intro t ht
    simp [Replica.start] at ht

/-- **Faults that lose no row leave every saved position true.** In every
run whose inputs meet `FaultsHarmless`, each saved position names a
transaction only if all its row changes are committed. -/
theorem saved_positions_sound (env : Env) (hstart : IsMysql env.initial) (now : Nat)
    (inputs : List Input)
    (h : Along (Replica.step env) (fun r i => FaultyStream env r i ∧ FaultsHarmless env r i)
      (Replica.start env now) inputs) :
    let r := run (Replica.step env) (Replica.start env now) inputs
    EveryCommit (SavedSoundly env.initial r.source.log) r.applier.session.durable := by
  have hs := h.invariant (fun r => Sound env.initial r.applier r.source)
    (fun _ _ hr hi => hr.step hi.1 hi.2) (sound_start hstart now)
  exact hs.ledger.every

/-- A transaction whose `BEGIN` fails, and a tick after it. -/
def failedBegin : List Input :=
  [sent 0 (.gtid (sampleGtid 1) false), .event 0 { execute := true } (.query Query.begin),
    sent 0 sampleTableMap, sent 0 (.rows (sampleInsert 1 "a")), sent 1 .xid]

/-- The rows of a transaction whose `BEGIN` failed are committed at its
commit event, with its GTID. -/
theorem saved_positions_sound_sample :
    let r := run (Replica.step sampleEnv) (Replica.start sampleEnv 0) failedBegin
    EveryCommit (SavedSoundly sampleEnv.initial r.source.log) r.applier.session.durable := by
  refine saved_positions_sound sampleEnv ⟨∅, rfl⟩ 0 _ ?_
  refine ⟨⟨by decide, rfl, trivial⟩, ⟨by decide, rfl, by decide⟩, ⟨by decide, rfl, trivial⟩,
    ⟨by decide, rfl, ?_⟩, ⟨by decide, rfl, trivial⟩, trivial⟩
  change RowEventOk _ _ _ _
  decide

/-! ## The error that skips a transaction -/

/-- The catalog does not know the table. -/
def noTableEnv : Env := { sampleEnv with catalog := fun _ _ => none }

/-- The row event fails because its table is not found; the commit event
saves a position with the GTID all the same. -/
theorem failed_row_event_is_skipped :
    Along (Replica.step noTableEnv) (FaultyStream noTableEnv) (Replica.start noTableEnv 0)
        (sampleTxn 1 ++ [.tick 250 {}]) ∧
      let r := run (Replica.step noTableEnv) (Replica.start noTableEnv 0)
        (sampleTxn 1 ++ [.tick 250 {}])
      ¬ EveryCommit (SavedSoundly noTableEnv.initial r.source.log) r.applier.session.durable := by
  constructor
  · decide
  · intro r hev
    have hd : r.applier.session.durable = r.applier.session.durable.dropLast ++
        [r.applier.session.durable.getLast (by decide)] := by
      rw [List.dropLast_append_getLast]
    have hsound := hev _ _ ⟨[], by rw [List.append_nil]; exact hd.symm⟩ _
      (List.mem_of_getLast? (a := Op.savePosition _) rfl) (sampleGtid 1) (by decide)
    have hlog : r.source.log = [⟨sampleGtid 1, [.failed]⟩] := by decide
    have hnone : changesOf r.applier.session.durable.flatten = 0 := by decide
    rw [← hd, hnone, hlog] at hsound
    rcases hsound with h | ⟨t, ht, -, hle⟩
    · exact absurd h (by decide)
    · obtain rfl := List.mem_singleton.mp ht
      exact absurd hle (by decide)

end MyDuck.Binlog
