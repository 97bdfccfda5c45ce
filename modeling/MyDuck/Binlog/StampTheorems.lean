/-
MyDuck.Binlog.StampTheorems — the order stamps of a batch against the
order of arrival.

Between two flushes the statement number only grows, and every row event
that is buffered takes one, so of two buffered events the later one has
the greater `txn_stmt`. It decides only between equal `txn_group` and
`txn_seq`, and these come from the GTID alone: the server and the domain
are in columns the order ignores, and a binlog file is compared as a
string. So the stamps of two transactions on one key follow the order of
arrival exactly when their GTIDs do, in the order of `stampKey`.
-/
import MyDuck.Binlog.Batch
import MyDuck.Binlog.PositionTheorems

namespace MyDuck.Binlog

open MyDuck.Delta

/-! ## The invariant of a batch -/

/-- The buffer holds what was buffered, and the numbers of the buffered
events grow. -/
structure BatchInv (start : Applier) (r : Batch) : Prop where
  rows : ∀ t, bufferedRows t r.applier.deltas = bufferedRows t start.deltas ++ r.rowsOn t
  stmt : ∀ e ∈ r.events, e.stmt < r.applier.inTxnStmtID
  txn : ∀ e ∈ r.events, e.txn ≤ r.txn ∧ (e.txn = r.txn → e.gtid = r.applier.currentGtid)
  ordered : r.events.Pairwise fun x y =>
    x.stmt < y.stmt ∧ x.txn ≤ y.txn ∧ (x.txn = y.txn → x.gtid = y.gtid)

theorem batchInv_start (a : Applier) : BatchInv a { applier := a } := by
  constructor <;> simp [Batch.events, Batch.rowsOn]

theorem bufferedRows_withAppender (t : TableIdentifier) (b : Buffered) (tables : DeltaTables) :
    bufferedRows t (withAppender b.table b.schema
        (fun _ => (getDeltaAppender b.table b.schema tables).record b.recorded) tables)
      = bufferedRows t tables ++ (if b.table = t then b.rows else []) := by
  rw [bufferedRows, lookup_withAppender, bufferedRows]
  by_cases ht : t = b.table
  · subst ht
    have hrec : ((getDeltaAppender b.table b.schema tables).record b.recorded).rows
        = (getDeltaAppender b.table b.schema tables).rows ++ b.rows := by
      simp [DeltaAppender.record, foldl_appendRow, Buffered.rows]
    rw [if_pos rfl, if_pos rfl, Option.map_some, Option.getD_some, hrec, getDeltaAppender]
    cases tables.lookup b.table <;> rfl
  · rw [if_neg ht, if_neg (Ne.symm ht), List.append_nil]

/-- An input that does not flush and is not a row event. -/
theorem BatchInv.quiet {start : Applier} {r : Batch} (h : BatchInv start r) {i : Input}
    {a' : Applier} (hq : Quiet r.applier i a') {n : Nat}
    (hn : (i.announces = none ∧ n = r.txn) ∨ n = r.txn + 1) :
    BatchInv start ⟨a', n, r.steps⟩ where
  rows := by rw [hq.deltas]; exact h.rows
  stmt := fun e he => (h.stmt e he).trans_le hq.stmt
  txn := by
    intro e he
    obtain ⟨hle, hg⟩ := h.txn e he
    rcases hn with ⟨hnone, rfl⟩ | rfl
    · refine ⟨hle, fun heq => ?_⟩
      rw [hq.current, hnone]
      exact hg heq
    · exact ⟨Nat.le_succ_of_le hle, fun heq => absurd heq (Nat.ne_of_lt (Nat.lt_succ_of_le hle))⟩
  ordered := h.ordered

theorem BatchInv.rowEvent {start : Applier} {r : Batch} (h : BatchInv start r) {a' : Applier}
    {s : Option RowStep} (hdone : RowDone r.applier a' s)
    (hstmt : a'.inTxnStmtID = r.applier.inTxnStmtID + 1)
    (hcur : a'.currentGtid = r.applier.currentGtid)
    (hs : ∀ b, s = some (.buffered b) → BufferedBy r b) :
    BatchInv start ⟨a', r.txn, r.steps ++ s.toList⟩ := by
  have hkeep : ∀ {s : Option RowStep}, a'.deltas = r.applier.deltas →
      s.bind RowStep.buffered? = none →
      BatchInv start ⟨a', r.txn, r.steps ++ s.toList⟩ := by
    intro s hd hnone
    have hev : Batch.events ⟨a', r.txn, r.steps ++ s.toList⟩ = r.events := by
      cases s with
      | none => simp [Batch.events]
      | some s => simpa [Batch.events] using hnone
    refine ⟨?_, ?_, ?_, ?_⟩
    · intro t
      rw [hd, Batch.rowsOn, hev]
      exact h.rows t
    · rw [hev, hstmt]
      exact fun e he => Nat.lt_succ_of_lt (h.stmt e he)
    · rw [hev, hcur]
      exact h.txn
    · rw [hev]
      exact h.ordered
  match s with
  | none => exact hkeep hdone.1 rfl
  | some (.written g ws) => exact hkeep hdone.1 rfl
  | some (.buffered b) =>
    obtain ⟨htxn, hg, hst, -⟩ := hs b rfl
    have hev : Batch.events ⟨a', r.txn, r.steps ++ (some (RowStep.buffered b)).toList⟩
        = r.events ++ [b] := by
      simp [Batch.events, RowStep.buffered?]
    refine ⟨?_, ?_, ?_, ?_⟩
    · intro t
      rw [hdone.1, bufferedRows_withAppender, h.rows t, Batch.rowsOn, Batch.rowsOn, hev,
        List.filter_append, List.flatMap_append, List.append_assoc]
      congr 2
      by_cases ht : b.table = t <;> simp [ht]
    · rw [hev, hstmt]
      intro e he
      rcases List.mem_append.mp he with he | he
      · exact Nat.lt_succ_of_lt (h.stmt e he)
      · obtain rfl := List.mem_singleton.mp he
        exact hst ▸ Nat.lt_succ_self _
    · rw [hev, hcur]
      intro e he
      rcases List.mem_append.mp he with he | he
      · exact h.txn e he
      · obtain rfl := List.mem_singleton.mp he
        exact ⟨htxn.le, fun _ => hg⟩
    · rw [hev]
      refine List.pairwise_append.mpr ⟨h.ordered, List.pairwise_singleton _ _, ?_⟩
      intro x hx y hy
      obtain rfl := List.mem_singleton.mp hy
      obtain ⟨hle, hgx⟩ := h.txn x hx
      exact ⟨hst ▸ h.stmt x hx, htxn ▸ hle, fun heq => by rw [hgx (heq.trans htxn), hg]⟩

/-- **The step lemma.** -/
theorem BatchInv.step {start : Applier} {r r' : Batch} (h : BatchInv start r) {i : Input}
    (hi : StepsTo r i r') : BatchInv start r' := by
  cases hi with
  | stopped => exact h
  | quiet hq hn => exact h.quiet hq hn
  | row hdone hstmt hcur hs => exact h.rowEvent hdone hstmt hcur hs

/-- **The run lemma.** -/
theorem batchInv_run {env : Env} {a : Applier} {inputs : List Input}
    (h : Along (Batch.step env) (Between env) { applier := a } inputs) :
    BatchInv a (run (Batch.step env) { applier := a } inputs) :=
  h.invariant (BatchInv a) (fun _ _ hr hi => hr.step (Batch.step_stepsTo hi)) (batchInv_start a)

/-! ## Stamps -/

/-- The part of the stamp that comes from the GTID: `txn_group, txn_seq`. -/
def stampKey (g : Option Gtid) : WithTop String ×ₗ ℕ :=
  toLex (groupKey (stampOf g).group, (stampOf g).seq)

theorem Buffered.stamp_of_mem {e : Buffered} {r : DeltaRow} (h : r ∈ e.rows) :
    r.stamp = toLex (groupKey (stampOf e.gtid).group, toLex ((stampOf e.gtid).seq, e.stmt)) := by
  simp only [Buffered.rows, Buffered.recorded, rowEventOf, eventRows, List.mem_append] at h
  rcases h with h | h <;>
  · split at h
    · simp at h
    · obtain ⟨f, -, rfl⟩ := List.mem_map.mp h
      rfl

/-- With a greater statement number, the stamps are in order exactly when
the GTIDs are. -/
theorem stamp_lt_iff {x y : Buffered} (hxy : x.stmt < y.stmt) {r s : DeltaRow} (hr : r ∈ x.rows)
    (hs : s ∈ y.rows) : r.stamp < s.stamp ↔ stampKey x.gtid ≤ stampKey y.gtid := by
  rw [Buffered.stamp_of_mem hr, Buffered.stamp_of_mem hs, stampKey, stampKey,
    Prod.Lex.toLex_lt_toLex, Prod.Lex.toLex_le_toLex, Prod.Lex.toLex_lt_toLex]
  refine or_congr_right (and_congr_right fun _ => ?_)
  constructor
  · rintro (h | ⟨h, -⟩)
    · exact h.le
    · exact h.le
  · intro h
    rcases Nat.lt_or_eq_of_le h with h | h
    · exact .inl h
    · exact .inr ⟨h, hxy⟩

/-- Of two buffered events of different transactions the later one has the
greater statement number. -/
theorem BatchInv.stmt_lt {start : Applier} {r : Batch} (h : BatchInv start r) {x y : Buffered}
    (hx : x ∈ r.events) (hy : y ∈ r.events) (hxy : x.txn < y.txn) : x.stmt < y.stmt := by
  obtain ⟨i, hi, rfl⟩ := List.getElem_of_mem hx
  obtain ⟨j, hj, rfl⟩ := List.getElem_of_mem hy
  have hord := List.pairwise_iff_getElem.mp h.ordered
  rcases Nat.lt_trichotomy i j with hij | rfl | hji
  · exact (hord i j hi hj hij).1
  · exact absurd hxy (lt_irrefl _)
  · exact absurd (hord j i hj hi hji).2.1 (by omega)

/-- The stamps of two transactions on a common key follow the order of
arrival. -/
def StampsFollowArrival (r : Batch) : Prop :=
  ∀ x ∈ r.events, ∀ y ∈ r.events, x.table = y.table → x.txn < y.txn →
    ∀ r₁ ∈ x.rows, ∀ r₂ ∈ y.rows,
      primaryKey x.schema r₁.fields = primaryKey y.schema r₂.fields → r₁.stamp < r₂.stamp

/-- The GTIDs of two transactions on a common key are in the order of
`txn_group, txn_seq`. -/
def GtidsInOrder (r : Batch) : Prop :=
  ∀ x ∈ r.events, ∀ y ∈ r.events, x.table = y.table → x.txn < y.txn →
    (∃ k ∈ x.keys, k ∈ y.keys) → stampKey x.gtid ≤ stampKey y.gtid

instance (r : Batch) : Decidable (StampsFollowArrival r) :=
  inferInstanceAs (Decidable (∀ x ∈ r.events, _))

instance (r : Batch) : Decidable (GtidsInOrder r) :=
  inferInstanceAs (Decidable (∀ x ∈ r.events, _))

/-- **Stamps follow arrival exactly when the GTIDs do.** Over every stretch
of inputs without a flush, the buffer gains the rows of the buffered
events, and their stamps follow the order of the transactions exactly
when the GTIDs of the transactions on a common key do. -/
theorem stamps_follow_arrival_iff (env : Env) (a : Applier) (inputs : List Input)
    (h : Along (Batch.step env) (Between env) { applier := a } inputs) :
    let r := run (Batch.step env) { applier := a } inputs
    (∀ t, bufferedRows t r.applier.deltas = bufferedRows t a.deltas ++ r.rowsOn t) ∧
      (StampsFollowArrival r ↔ GtidsInOrder r) := by
  intro r
  have hinv : BatchInv a r := batchInv_run h
  refine ⟨hinv.rows, ?_⟩
  constructor
  · rintro hs x hx y hy ht hlt ⟨k, hkx, hky⟩
    obtain ⟨r₁, hr₁, rfl⟩ := List.mem_map.mp hkx
    obtain ⟨r₂, hr₂, hk⟩ := List.mem_map.mp hky
    exact (stamp_lt_iff (hinv.stmt_lt hx hy hlt) hr₁ hr₂).mp
      (hs x hx y hy ht hlt r₁ hr₁ r₂ hr₂ hk.symm)
  · intro hg x hx y hy ht hlt r₁ hr₁ r₂ hr₂ hk
    refine (stamp_lt_iff (hinv.stmt_lt hx hy hlt) hr₁ hr₂).mpr (hg x hx y hy ht hlt ?_)
    exact ⟨_, List.mem_map.mpr ⟨r₁, hr₁, rfl⟩, hk ▸ List.mem_map.mpr ⟨r₂, hr₂, rfl⟩⟩

/-- The applier right after the `BEGIN` of a batch. -/
def begunBy (g : Gtid) : Applier :=
  (run (Replica.step sampleEnv) (Replica.start sampleEnv 0)
    [sent 0 (.gtid g false), sent 0 (.query Query.begin), sent 0 sampleTableMap]).applier

/-- The rest of one transaction and all of the next, on one key: an INSERT
and a DELETE. -/
def twoTransactions (g : Gtid) : List Input :=
  [sent 1 (.rows (sampleInsert 1 "a")), sent 1 .xid, sent 2 (.gtid g false),
    sent 2 (.query Query.begin), sent 2 sampleTableMap,
    sent 2 (.rows { sampleInsert 1 "a" with
      event := .delete, identifyColumns := [true, true], dataColumns := [],
      rows := [⟨⟨[.value (.int 1), .value (.text "a")], 8⟩, ⟨[], 0⟩⟩] })]

/-- Two transactions of one server. -/
theorem stamps_follow_arrival_iff_sample :
    StampsFollowArrival (run (Batch.step sampleEnv) { applier := begunBy (sampleGtid 10) }
      (twoTransactions (sampleGtid 11))) := by
  refine (stamps_follow_arrival_iff sampleEnv (begunBy (sampleGtid 10))
    (twoTransactions (sampleGtid 11)) ?_).2.mpr (by decide)
  decide

/-! ## The stamps of two servers -/

/-- A transaction of another server, with a smaller sequence number, that
deletes the row: its DELETE sorts before the INSERT. -/
theorem other_server_sorts_before :
    Along (Batch.step sampleEnv) (Between sampleEnv) { applier := begunBy (sampleGtid 10) }
        (twoTransactions (.mysql56 [2] 5)) ∧
      ¬ StampsFollowArrival (run (Batch.step sampleEnv) { applier := begunBy (sampleGtid 10) }
        (twoTransactions (.mysql56 [2] 5))) := by
  constructor
  · decide
  · decide

end MyDuck.Binlog
