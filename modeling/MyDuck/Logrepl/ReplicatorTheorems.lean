/-
MyDuck.Logrepl.ReplicatorTheorems — what the functions of the replicator do
to the changes in flight.

A change is in flight when it was executed in the open DuckDB transaction
or waits in the delta buffer. `Takes s s' x` says that a call took the
changes `x` in and left everything else alone; it holds of every call that
handles a row message, also of one that fails half way. `commitOngoingTxn`
makes what is in flight durable, does nothing without an open transaction,
and rolls back when the flush fails (`commitOngoingTxn_ends`).

`Turn` lists what one turn of the loop can do, with the state it leaves,
and `handle_turn` says that there is nothing else. Invariants of runs are
proved by its cases.
-/
import MyDuck.Logrepl.Source

namespace MyDuck.Logrepl

open MyDuck.Delta

/-! ## Changes -/

@[simp] theorem changesOf_nil : changesOf [] = 0 := rfl

theorem changesOf_append (xs ys : List Op) :
    changesOf (xs ++ ys) = changesOf xs + changesOf ys := by
  rw [changesOf, List.map_append, List.sum_append]
  rfl

@[simp] theorem changesOf_singleton (x : Op) : changesOf [x] = opChanges x := by
  simp [changesOf]

theorem tag_append (lsn : LSN) (xs ys : List Change) :
    tag lsn (xs ++ ys) = tag lsn xs + tag lsn ys := by
  simp [tag]

@[simp] theorem tag_nil (lsn : LSN) : tag lsn [] = 0 := rfl

def flushOps (tables : DeltaTables) : List Op :=
  (tables.filter (fun e => e.2.rowCount ≠ 0)).map (fun e => Op.flush e.1 e.2)

theorem changesOf_flushOps (tables : DeltaTables) :
    changesOf (flushOps tables) = bufferChanges tables := by
  have hmap : ∀ us : DeltaTables,
      changesOf (us.map (fun e => Op.flush e.1 e.2)) = bufferChanges us := by
    intro us
    induction us with
    | nil => rfl
    | cons e us ih =>
      rw [List.map_cons, ← List.singleton_append, changesOf_append, ih, changesOf_singleton,
        bufferChanges, bufferChanges, allRows_cons, Multiset.map_add]
      simp [opChanges, Function.comp_def]
  rw [flushOps, hmap, bufferChanges, allRows_filter, bufferChanges]

theorem bufferChanges_of_drained {tables : DeltaTables} (h : Drained tables) :
    bufferChanges tables = 0 := by
  rw [bufferChanges, allRows_of_drained h]
  rfl

/-! ## What is in flight -/

/-- The changes that are executed or buffered but not committed. -/
def inFlight (s : State) : Changes :=
  changesOf (s.session.txn.getD []) + bufferChanges s.deltas

/-- The call took the changes `x` in. -/
structure Takes (s s' : State) (x : Changes) : Prop where
  inFlight : inFlight s' = inFlight s + x
  durable : s'.session.durable = s.session.durable
  opened : s.session.txn.isSome = true → s'.session.txn.isSome = true
  frame : s' = { s with
    session := s'.session, deltas := s'.deltas, deltaBufSize := s'.deltaBufSize }

theorem Takes.refl (s : State) : Takes s s 0 := ⟨(add_zero _).symm, rfl, id, rfl⟩

theorem Takes.trans {s s' s'' : State} {x y : Changes} (h : Takes s s' x) (h' : Takes s' s'' y) :
    Takes s s'' (x + y) where
  inFlight := by rw [h'.inFlight, h.inFlight, add_assoc]
  durable := h'.durable.trans h.durable
  opened := h'.opened ∘ h.opened
  frame := by
    have hs := h'.frame
    rw [h.frame] at hs
    exact hs

section Frame

variable {s s' : State} {x : Changes}

theorem Takes.lsn (h : Takes s s' x) : s'.currentTransactionLSN = s.currentTransactionLSN := by
  rw [h.frame]

theorem Takes.relations (h : Takes s s' x) : s'.relations = s.relations := by
  rw [h.frame]

end Frame

/-! ## Row messages -/

/-- The appender of a relation gets rows. -/
theorem takes_putAppender {s : State} {rel : Relation} {a : DeltaAppender} (size : Nat)
    (rows : List DeltaRow)
    (ha : a.rows = (getDeltaAppender rel.table rel.schema s.deltas).rows ++ rows) :
    Takes s (putAppender rel a size s)
      ((rows : Multiset DeltaRow).map (fun r => rowChange (rel.table, r))) where
  inFlight := by
    simp only [Logrepl.inFlight, putAppender, bufferChanges]
    rw [allRows_withAppender ha, Multiset.map_add, ← add_assoc]
    simp [Function.comp_def]
  durable := rfl
  opened := id
  frame := rfl

theorem append_ends (id : Nat) (tuple : Tuple) (action event : RowEventType) (onlyKeys : Bool)
    (s : State) :
    (append id tuple action event onlyKeys s).Ends
      (fun s' => Takes s s' (tag s.currentTransactionLSN
        (if tuple = [] then [] else tupleChanges s id tuple action onlyKeys)))
      (fun s' => Takes s s' 0) := by
  unfold append
  cases hrel : s.relations.lookup id with
  | none => exact Takes.refl s
  | some rel =>
    simp only
    by_cases ht : tuple = []
    · simp only [ht, if_true]
      split
      · exact takes_putAppender 0 [] (by simp)
      · exact takes_putAppender 0 [] (by simp)
    · simp only [ht, if_false, tupleChanges, hrel]
      cases hread : readTuple onlyKeys rel.columns tuple with
      | panic => trivial
      | error e r => exact takes_putAppender 0 [] (by simp [DeltaAppender.tear])
      | ok r =>
        exact takes_putAppender r.2 [deltaRow s action r.1]
          (by simp [DeltaAppender.appendRow])

/-- A tuple other than the old one of an UPDATE may not be empty. -/
theorem append_tuple_ends (id : Nat) (tuple : Tuple) (action event : RowEventType)
    (onlyKeys : Bool) (s : State) (h : ¬ (event = .update ∧ action = .delete)) :
    (append id tuple action event onlyKeys s).Ends
      (fun s' => Takes s s' (tag s.currentTransactionLSN (tupleChanges s id tuple action onlyKeys)))
      (fun s' => Takes s s' 0) := by
  by_cases ht : tuple = []
  · unfold append
    cases hrel : s.relations.lookup id with
    | none => exact Takes.refl s
    | some rel =>
      simp only [ht, if_true, h, if_false]
      exact takes_putAppender 0 [] (by simp)
  · have happ := append_ends id tuple action event onlyKeys s
    rwa [if_neg ht] at happ

/-- The changes of a tuple are read from the relations only. -/
theorem tupleChanges_congr {s s' : State} (h : s'.relations = s.relations) (id : Nat)
    (tuple : Tuple) (action : RowEventType) (onlyKeys : Bool) :
    tupleChanges s' id tuple action onlyKeys = tupleChanges s id tuple action onlyKeys := by
  rw [tupleChanges, tupleChanges, h]

theorem appendOldOfUpdate_ends (id : Nat) (old : OldTuple) (s : State) :
    (appendOldOfUpdate id old s).Ends
      (fun s' => Takes s s' (tag s.currentTransactionLSN (oldChanges s id old)))
      (fun s' => Takes s s' 0) := by
  cases old with
  | key tuple => exact append_ends id tuple .delete .update true s
  | old tuple => exact append_ends id tuple .delete .update false s
  | none => exact append_ends id [] .delete .update true s

theorem flush_without_txn (fails : TableIdentifier → Bool) (tables : DeltaTables) :
    (Delta.flush false fails .dmlStmt tables).tables = tables := by
  induction tables with
  | nil => rfl
  | cons e rest ih =>
    by_cases h0 : e.2.rowCount = 0
    · simp [Delta.flush, h0, ih, keepAfter]
    · simp [Delta.flush, h0]

/-- The flush of a TRUNCATE message writes nothing and drops nothing. -/
theorem takes_flushWithoutTxn (s : State) : Takes s (flushWithoutTxn s) 0 where
  inFlight := by
    simp only [Logrepl.inFlight, flushWithoutTxn, flush_without_txn, add_zero]
  durable := rfl
  opened := id
  frame := rfl

theorem takes_getTxn (s : State) : Takes s { s with session := s.session.getTxn } 0 where
  inFlight := by simp [Logrepl.inFlight]
  durable := rfl
  opened := fun _ => rfl
  frame := rfl

theorem truncate_ends (f : Faults) (id : Nat) (s : State) :
    (truncate f id s).Ends
      (fun s' => Takes s s' (tag s.currentTransactionLSN [truncateChange s id]))
      (fun s' => Takes s s' 0) := by
  unfold truncate
  cases hrel : s.relations.lookup id with
  | none => exact Takes.refl s
  | some rel =>
    simp only
    split
    · exact takes_getTxn s
    · refine ⟨?_, rfl, fun _ => rfl, rfl⟩
      simp only [Logrepl.inFlight, Session.getTxn, Session.exec_of_txn, Option.getD_some,
        changesOf_append, changesOf_singleton, opChanges, truncateChange, hrel, tag,
        Multiset.coe_singleton, Multiset.map_singleton]
      exact add_right_comm _ _ _

theorem truncateAll_ends (f : Faults) (ids : List Nat) (s : State) :
    (truncateAll f ids s).Ends
      (fun s' => Takes s s' (tag s.currentTransactionLSN (ids.map (truncateChange s))))
      (fun s' => ∃ x ≤ tag s.currentTransactionLSN (ids.map (truncateChange s)), Takes s s' x) := by
  induction ids generalizing s with
  | nil => exact Takes.refl s
  | cons id ids ih =>
    have hsplit : tag s.currentTransactionLSN ((id :: ids).map (truncateChange s))
        = tag s.currentTransactionLSN [truncateChange s id]
          + tag s.currentTransactionLSN (ids.map (truncateChange s)) :=
      tag_append _ [truncateChange s id] _
    rw [hsplit]
    refine ((truncate_ends f id s).mono (fun _ h => h) fun s' h =>
      ⟨0, Multiset.zero_le _, h⟩).andThen fun s₁ h₁ => ?_
    have hcs : ids.map (truncateChange s₁) = ids.map (truncateChange s) := by
      refine List.map_congr_left fun id _ => ?_
      rw [truncateChange, truncateChange, h₁.relations]
    refine (ih s₁).mono (fun s' h => ?_) fun s' ⟨x, hx, h⟩ => ?_
    · rw [hcs, h₁.lsn] at h
      exact h₁.trans h
    · rw [hcs, h₁.lsn] at hx
      exact ⟨_, add_le_add_right hx _, h₁.trans h⟩

/-- **What a row message does**: it takes its changes in, or some of them
when it fails. -/
theorem processRow_ends (f : Faults) (m : RowMessage) (s : State) :
    (processRow f m s).Ends
      (fun s' => ∃ s₁, s' = markDirty s₁ ∧
        Takes s s₁ (tag s.currentTransactionLSN (rowChanges s m)))
      (fun s' => ∃ x ≤ tag s.currentTransactionLSN (rowChanges s m), Takes s s' x) := by
  have hzero : ∀ {cs : Changes} {s' : State}, Takes s s' 0 → ∃ x ≤ cs, Takes s s' x :=
    fun h => ⟨0, Multiset.zero_le _, h⟩
  cases m with
  | insert id tuple =>
    refine ((append_tuple_ends id tuple .insert .insert false s (by decide)).mono
      (fun _ h => h) fun _ h => hzero h).andThen fun s₁ h₁ => ?_
    exact ⟨s₁, rfl, h₁⟩
  | update id old new =>
    rw [rowChanges, tag_append]
    refine ((appendOldOfUpdate_ends id old s).mono (fun _ h => h) fun _ h =>
      hzero h).andThen fun s₁ h₁ => ?_
    have hnew := append_tuple_ends id new .insert .update false s₁ (by decide)
    rw [tupleChanges_congr h₁.relations, h₁.lsn] at hnew
    refine (hnew.mono (fun _ h => h) fun s' h => ?_).andThen fun s₂ h₂ => ?_
    · exact ⟨_, Multiset.le_add_right _ _, by simpa using h₁.trans h⟩
    · exact ⟨s₂, rfl, h₁.trans h₂⟩
  | delete id old =>
    cases old with
    | key tuple =>
      refine ((append_tuple_ends id tuple .delete .delete true s (by decide)).mono
        (fun _ h => h) fun _ h => hzero h).andThen fun s₁ h₁ => ?_
      exact ⟨s₁, rfl, h₁⟩
    | old tuple =>
      refine ((append_tuple_ends id tuple .delete .delete false s (by decide)).mono
        (fun _ h => h) fun _ h => hzero h).andThen fun s₁ h₁ => ?_
      exact ⟨s₁, rfl, h₁⟩
    | none => exact hzero (Takes.refl s)
  | truncate ids =>
    have h₀ := takes_flushWithoutTxn s
    have hcs : ids.map (truncateChange (flushWithoutTxn s)) = ids.map (truncateChange s) := rfl
    have hends := truncateAll_ends f ids (flushWithoutTxn s)
    rw [hcs] at hends
    refine Outcome.Ends.andThen (hends.mono (fun s₁ h₁ => ?_) fun s' h => ?_) fun s₁ h₁ =>
      ⟨s₁, rfl, h₁⟩
    · exact zero_add (tag _ _) ▸ h₀.trans h₁
    · obtain ⟨x, hx, h⟩ := h
      exact ⟨x, hx, zero_add x ▸ h₀.trans h⟩

/-! ## Commit -/

def commitOps (s : State) : List Op :=
  s.session.txn.getD [] ++ flushOps s.deltas ++ [.updateSubscriptionLsn s.lastCommitLSN]

def afterCommit (now : Nat) (reason : FlushReason) (s : State) : State :=
  { s with
    session := ⟨s.session.durable ++ [commitOps s], none⟩,
    deltas := afterFlush reason s.deltas, deltaBufSize := 0, ongoingBatchTxn := false,
    dirtyTxn := false, dirtyStream := false, inTxnStmtID := 0, lastCommitTime := now,
    lastWrittenLSN := s.lastCommitLSN }

/-- The changes that are executed or buffered, committed or not. -/
def applied (s : State) : Changes := changesOf s.session.durable.flatten + inFlight s

theorem changesOf_commitOps (s : State) : changesOf (commitOps s) = inFlight s := by
  rw [commitOps, changesOf_append, changesOf_append, changesOf_flushOps, changesOf_singleton]
  exact add_zero _

/-- A commit makes what is in flight durable. -/
theorem durable_afterCommit (now : Nat) (reason : FlushReason) (s : State) :
    changesOf (afterCommit now reason s).session.durable.flatten = applied s := by
  simp only [afterCommit, List.flatten_append, List.flatten_singleton]
  rw [changesOf_append, changesOf_commitOps, applied]

theorem inFlight_afterCommit (now : Nat) (reason : FlushReason) (s : State) :
    inFlight (afterCommit now reason s) = 0 := by
  rw [inFlight, afterCommit, bufferChanges_of_drained afterFlush_empty]
  rfl

theorem applied_afterCommit (now : Nat) (reason : FlushReason) (s : State) :
    applied (afterCommit now reason s) = applied s := by
  rw [applied, durable_afterCommit, inFlight_afterCommit, add_zero]

/-- The state after the flush of a commit failed. -/
structure RolledBack (s s' : State) : Prop where
  opened : s.session.txn.isSome = true
  rows : bufferChanges s'.deltas ≤ bufferChanges s.deltas
  frame : s' = { s with
    session := s.session.rollback, deltas := s'.deltas, deltaBufSize := s'.deltaBufSize }

/-- `commitOngoingTxn` returned normally: it did nothing, or committed. -/
inductive Commits (now : Nat) (reason : FlushReason) (s : State) : State → Prop where
  | idle (h : s.session.txn = none) : Commits now reason s s
  | done (h : s.session.txn.isSome = true) : Commits now reason s (afterCommit now reason s)

theorem Commits.frame {now : Nat} {reason : FlushReason} {s s' : State}
    (h : Commits now reason s s') : s'.running = s.running ∧ s'.connected = s.connected ∧
      s'.relations = s.relations ∧ s'.processMessages = s.processMessages := by
  cases h with
  | idle _ | done _ => exact ⟨rfl, rfl, rfl, rfl⟩

theorem commitOngoingTxn_of_none (f : Faults) (now : Nat) (reason : FlushReason) {s : State}
    (h : s.session.txn = none) : commitOngoingTxn f now reason s = .ok s := by
  simp [commitOngoingTxn, h]

theorem commitOngoingTxn_of_some (f : Faults) (now : Nat) (reason : FlushReason) {s : State}
    {ops : List Op} (h : s.session.txn = some ops)
    (hf : (Delta.flush true f.flush reason s.deltas).err = none) :
    commitOngoingTxn f now reason s = .ok (afterCommit now reason s) := by
  obtain ⟨happ, hleft⟩ := flush_of_no_err hf
  have hsession : s.session = ⟨s.session.durable, some ops⟩ := by rw [← h]
  simp only [commitOngoingTxn, h, hf]
  rw [hleft, happ, hsession, Session.execAll_of_txn, Session.exec_of_txn, Session.commit_of_txn,
    afterCommit, commitOps, flushOps, h, Option.getD_some]

/-- **What a commit does**: nothing without an open transaction; it makes
everything in flight durable, or rolls back. -/
theorem commitOngoingTxn_ends (f : Faults) (now : Nat) (reason : FlushReason) (s : State) :
    (commitOngoingTxn f now reason s).Ends (Commits now reason s) (RolledBack s) := by
  cases h : s.session.txn with
  | none =>
    rw [commitOngoingTxn_of_none f now reason h]
    exact .idle h
  | some ops =>
    cases hf : (Delta.flush true f.flush reason s.deltas).err with
    | none =>
      rw [commitOngoingTxn_of_some f now reason h hf]
      exact .done (by rw [h]; rfl)
    | some e =>
      have hrows := Multiset.map_le_map (f := rowChange)
        (allRows_flush_le true f.flush reason s.deltas)
      have hopened : s.session.txn.isSome = true := by rw [h]; rfl
      cases e with
      | panic => simp only [commitOngoingTxn, h, hf]; trivial
      | noActiveTransaction | sql t =>
        simp only [commitOngoingTxn, h, hf]; exact ⟨hopened, hrows, rfl⟩

/-- Without a failing statement, and with whole rows in the buffer, a
commit returns normally. -/
theorem commitOngoingTxn_ok (now : Nat) (reason : FlushReason) {s : State}
    (hu : Untorn s.deltas) :
    ∃ s', commitOngoingTxn {} now reason s = .ok s' ∧ Commits now reason s s' := by
  cases h : s.session.txn with
  | none => exact ⟨s, commitOngoingTxn_of_none {} now reason h, .idle h⟩
  | some ops =>
    exact ⟨_, commitOngoingTxn_of_some {} now reason h (flush_err_of_untorn reason hu),
      .done (by rw [h]; rfl)⟩

theorem commitOngoingTxnIfClean_ends (f : Faults) (now : Nat) (reason : FlushReason) (s : State) :
    (commitOngoingTxnIfClean f now reason s).Ends
      (fun s' => s' = s ∨
        s.dirtyTxn = true ∧ s.dirtyStream = false ∧ Commits now reason s s')
      (RolledBack s) := by
  unfold commitOngoingTxnIfClean
  split
  · next h =>
    simp only [Bool.and_eq_true, Bool.not_eq_true'] at h
    exact (commitOngoingTxn_ends f now reason s).mono (fun s' hs => .inr ⟨h.1, h.2, hs⟩)
      fun _ h => h
  · exact .inl rfl

/-! ## One turn of the loop -/

/-- The messages that only set or read the stream flag. -/
def Message.isAside : Message → Bool
  | .streamStart _ | .streamStop | .streamCommit _ _ | .streamAbort _ _ | .other => true
  | _ => false

/-- The relation was registered and its table created. -/
def registered (rel : Relation) (s : State) : State :=
  { s with
    relations := (rel.id, rel) :: s.relations, session := s.session.exec (.createTable rel) }

@[simp] theorem registered_txn_isSome (rel : Relation) (s : State) :
    (registered rel s).session.txn.isSome = s.session.txn.isSome := by
  simp only [registered, Session.exec]
  cases hs : s.session.txn <;> simp

/-- The state in which a relation is registered: a known relation is
preceded by a commit. -/
inductive Readies (now : Nat) (rel : Relation) (s : State) : State → Prop where
  | fresh (h : s.relations.lookup rel.id = none) : Readies now rel s s
  | known {s' : State} (h : (s.relations.lookup rel.id).isSome = true)
      (hc : Commits now .ddlStmt s s') : Readies now rel s s'

/-- A transaction that is not skipped begins. -/
def begun (lsn : LSN) (s : State) : State :=
  { s with processMessages := true, currentTransactionLSN := lsn }

def counted (lsn : LSN) (s : State) : State :=
  { s with lastCommitLSN := lsn, commitCount := s.commitCount + 1 }

def finished (s : State) : State :=
  { s with dirtyStream := false, inTxnStmtID := 0, processMessages := false }

def opened (s : State) : State := { s with session := s.session.getTxn, ongoingBatchTxn := true }

/-- The connection is lost and nothing is in the session. -/
structure Broken (s s' : State) : Prop where
  durable : s'.session.durable = s.session.durable
  txn : s'.session.txn = none
  rows : bufferChanges s'.deltas ≤ bufferChanges s.deltas
  lastWrittenLSN : s'.lastWrittenLSN = s.lastWrittenLSN
  connected : s'.connected = false
  running : s'.running = s.running

/-- The state from which the process ends: the last one, or the one after
a commit of a clean batch. -/
inductive Closes (s : State) : State → Prop where
  | asIs : Closes s s
  | flushed (now : Nat) (reason : FlushReason) (hd : s.dirtyTxn = true)
      (hs : s.dirtyStream = false) (h : s.session.txn.isSome = true) :
      Closes s (afterCommit now reason s)
  | failed {s' : State} (h : RolledBack s s') : Closes s s'

/-- What a turn of the loop can do. -/
inductive Turn (s : State) : Input → State → Prop where
  | off {i : Input} (h : s.running = false) : Turn s i s
  | unplugged {now : Nat} {f : Faults} {m : Message} (h : s.connected = false) :
      Turn s (.message now f m) s
  | wait {now : Nat} {f : Faults} : Turn s (.tick now f) s
  | tick {now : Nat} {f : Faults} {s' : State} (hdue : now - s.lastCommitTime > 200)
      (hd : s.dirtyTxn = true) (hs : s.dirtyStream = false) (hc : Commits now .timeTick s s') :
      Turn s (.tick now f) s'
  | aside {now : Nat} {f : Faults} {m : Message} (b : Bool) (hm : m.isAside = true) :
      Turn s (.message now f m) { s with inStream := b }
  | skipped {now xid : Nat} {f : Faults} {m : RowMessage} (hp : s.processMessages = false) :
      Turn s (.message now f (.row xid m)) s
  | row {now xid : Nat} {f : Faults} {m : RowMessage} {s' : State}
      (hp : s.processMessages = true) (hok : processRow f m s = .ok (markDirty s'))
      (ht : Takes s s' (tag s.currentTransactionLSN (rowChanges s m))) :
      Turn s (.message now f (.row xid m)) (markDirty s')
  | rowFails {now xid : Nat} {f : Faults} {m : RowMessage} {s' : State} {x : Changes}
      (hp : s.processMessages = true)
      (hx : x ≤ tag s.currentTransactionLSN (rowChanges s m)) (ht : Takes s s' x) :
      Turn s (.message now f (.row xid m)) { s' with connected := false }
  | relation {now : Nat} {f : Faults} {rel : Relation} {s' : State} (hr : Readies now rel s s') :
      Turn s (.message now f (.relation rel)) (registered rel s')
  | relationFails {now : Nat} {f : Faults} {rel : Relation} {s' : State}
      (hr : Readies now rel s s') :
      Turn s (.message now f (.relation rel))
        { s' with relations := (rel.id, rel) :: s'.relations, connected := false }
  | stale {now : Nat} {f : Faults} {lsn : LSN} (h : lsn < s.lastWrittenLSN) :
      Turn s (.message now f (.begin lsn)) { s with processMessages := false }
  | extendBegin {now : Nat} {f : Faults} {lsn : LSN} (h : s.lastWrittenLSN ≤ lsn)
      (he : (mayExtendBatchTxn now (begun lsn s)).1 = true) :
      Turn s (.message now f (.begin lsn)) (begun lsn s)
  | begin {now : Nat} {f : Faults} {lsn : LSN} {s' : State} (h : s.lastWrittenLSN ≤ lsn)
      (he : (mayExtendBatchTxn now (begun lsn s)).1 = false)
      (hc : Commits now (mayExtendBatchTxn now (begun lsn s)).2 (begun lsn s) s') :
      Turn s (.message now f (.begin lsn)) (opened s')
  | extendCommit {now : Nat} {f : Faults} {lsn : LSN}
      (he : (mayExtendBatchTxn now (counted lsn s)).1 = true) :
      Turn s (.message now f (.commit lsn)) (finished (counted lsn s))
  | commit {now : Nat} {f : Faults} {lsn : LSN} {s' : State}
      (he : (mayExtendBatchTxn now (counted lsn s)).1 = false)
      (hc : Commits now (mayExtendBatchTxn now (counted lsn s)).2 (counted lsn s) s') :
      Turn s (.message now f (.commit lsn)) (finished s')
  | breaks {now : Nat} {f : Faults} {m : Message} {s' : State} (h : Broken s s') :
      Turn s (.message now f m) s'
  | ends {i : Input} {s' : State} (h : Closes s s') : Turn s i (crash s')
  | reconnect {now : Nat} : Turn s (.reconnect now) (reset now s)

theorem RolledBack.txn {s s' : State} (h : RolledBack s s') : s'.session.txn = none := by
  rw [h.frame]
  rfl

theorem RolledBack.broken {s s₀ s' : State} (h : RolledBack s₀ s')
    (hd : s₀.session.durable = s.session.durable) (hb : s₀.deltas = s.deltas)
    (hl : s₀.lastWrittenLSN = s.lastWrittenLSN) (hr : s₀.running = s.running) :
    Broken s { s' with connected := false } where
  durable := by rw [h.frame]; exact hd
  txn := h.txn
  rows := hb ▸ h.rows
  lastWrittenLSN := by rw [h.frame]; exact hl
  connected := rfl
  running := by rw [h.frame]; exact hr

theorem registerRelation_ends (f : Faults) (rel : Relation) (s : State) :
    (registerRelation f rel s).Ends (fun s' => s' = registered rel s)
      (fun s' => s' = { s with relations := (rel.id, rel) :: s.relations }) := by
  unfold registerRelation
  split
  · exact rfl
  · split
    · exact rfl
    · exact rfl

section

variable (f : Faults) (now : Nat)

theorem shutdown_closes (s : State) : ∃ s', Closes s s' ∧ shutdown f now s = crash s' := by
  unfold shutdown
  have h := commitOngoingTxnIfClean_ends f now .onClose s
  cases hc : commitOngoingTxnIfClean f now .onClose s with
  | ok s' =>
    rw [hc] at h
    refine ⟨s', ?_, rfl⟩
    rcases h with rfl | ⟨hd, hs, hcm⟩
    · exact .asIs
    · cases hcm with
      | idle _ => exact .asIs
      | done ho => exact .flushed now .onClose hd hs ho
  | error e s' =>
    rw [hc] at h
    exact ⟨s', .failed h, rfl⟩
  | panic => exact ⟨s, .asIs, rfl⟩

theorem processRelation_turn (rel : Relation) (s : State) :
    (processRelation f now rel s).Ends (Turn s (.message now f (.relation rel)))
      (fun s' => Turn s (.message now f (.relation rel)) { s' with connected := false }) := by
  unfold processRelation
  split
  · next hk =>
    refine ((commitOngoingTxn_ends f now .ddlStmt s).mono (fun _ h => h) fun s' h =>
      Turn.breaks (h.broken rfl rfl rfl rfl)).andThen fun s₁ h₁ => ?_
    refine (registerRelation_ends f rel s₁).mono ?_ ?_
    · rintro _ rfl
      exact .relation (.known hk h₁)
    · rintro _ rfl
      exact .relationFails (.known hk h₁)
  · next hk =>
    have hnone : s.relations.lookup rel.id = none := Option.not_isSome_iff_eq_none.mp hk
    refine (registerRelation_ends f rel s).mono ?_ ?_
    · rintro _ rfl
      exact .relation (.fresh hnone)
    · rintro _ rfl
      exact .relationFails (.fresh hnone)

theorem processBegin_turn (lsn : LSN) (s : State) :
    (processBegin f now lsn s).Ends (Turn s (.message now f (.begin lsn)))
      (fun s' => Turn s (.message now f (.begin lsn)) { s' with connected := false }) := by
  unfold processBegin
  split
  · next h => exact .stale h
  · next h =>
    have hle : s.lastWrittenLSN ≤ lsn := Nat.le_of_not_lt h
    show Outcome.Ends (if (mayExtendBatchTxn now (begun lsn s)).1 = true then _ else _) _ _
    split
    · next he => exact .extendBegin hle he
    · next he =>
      have hbreaks : ∀ s', RolledBack (begun lsn s) s' →
          Turn s (.message now f (.begin lsn)) { s' with connected := false } :=
        fun s' h' => .breaks (h'.broken rfl rfl rfl rfl)
      exact ((commitOngoingTxn_ends f now _ (begun lsn s)).mono (fun _ h => h) hbreaks).andThen
        fun s₁ h₁ => .begin hle (by simpa using he) h₁

theorem processCommit_turn (lsn : LSN) (s : State) :
    (processCommit f now lsn s).Ends (Turn s (.message now f (.commit lsn)))
      (fun s' => Turn s (.message now f (.commit lsn)) { s' with connected := false }) := by
  unfold processCommit
  show Outcome.Ends (Outcome.andThen (if (mayExtendBatchTxn now (counted lsn s)).1 = true then _
    else _) _) _ _
  split
  · next he => exact .extendCommit he
  · next he =>
    have hbreaks : ∀ s', RolledBack (counted lsn s) s' →
        Turn s (.message now f (.commit lsn)) { s' with connected := false } :=
      fun s' h' => .breaks (h'.broken rfl rfl rfl rfl)
    exact ((commitOngoingTxn_ends f now _ (counted lsn s)).mono (fun _ h => h) hbreaks).andThen
      fun s₁ h₁ => .commit (by simpa using he) h₁

theorem processMessage_turn (m : Message) (s : State) :
    (processMessage f now m s).Ends (Turn s (.message now f m))
      (fun s' => Turn s (.message now f m) { s' with connected := false }) := by
  cases m with
  | relation rel => exact processRelation_turn f now rel s
  | begin lsn => exact processBegin_turn f now lsn s
  | commit lsn => exact processCommit_turn f now lsn s
  | row xid m =>
    simp only [processMessage]
    split
    · next hp =>
      have hends := processRow_ends f m s
      cases hrow : processRow f m s with
      | ok s' =>
        rw [hrow] at hends
        obtain ⟨s₁, rfl, h₁⟩ := hends
        exact .row hp hrow h₁
      | error e s' =>
        rw [hrow] at hends
        obtain ⟨x, hx, h⟩ := hends
        exact .rowFails hp hx h
      | panic => trivial
    · next hp => exact .skipped (by simpa using hp)
  | streamStart xid => exact .aside true rfl
  | streamStop => exact .aside false rfl
  | streamCommit xid lsn | streamAbort xid subXid | other => exact .aside s.inStream rfl

theorem commitOngoingTxnIfClean_of_none (reason : FlushReason) {s : State}
    (h : s.session.txn = none) : commitOngoingTxnIfClean f now reason s = .ok s := by
  rw [commitOngoingTxnIfClean, commitOngoingTxn_of_none f now reason h, ite_self]

end

/-- **Every turn of the loop is one of these.** -/
theorem handle_turn (s : State) (i : Input) : Turn s i (handle s i) := by
  unfold handle
  split
  · next h => exact .off (by simpa using h)
  · cases i with
    | message now f m =>
      simp only
      split
      · next h => exact .unplugged (by simpa using h)
      · have hturn := processMessage_turn f now m s
        cases hm : processMessage f now m s with
        | ok s' | error e s' => rw [hm] at hturn; exact hturn
        | panic => exact .ends .asIs
    | tick now f =>
      simp only
      split_ifs with hc hdue
      · exact .wait
      · have hends := commitOngoingTxnIfClean_ends f now .timeTick s
        cases hm : commitOngoingTxnIfClean f now .timeTick s with
        | ok s' =>
          rw [hm] at hends
          rcases hends with rfl | ⟨hd, hs, hcm⟩
          · exact .wait
          · exact .tick hdue hd hs hcm
        | error e s' =>
          -- the transaction is gone, so the commit at shutdown does nothing
          rw [hm] at hends
          simp only [shutdown, commitOngoingTxnIfClean_of_none f now .onClose hends.txn]
          exact .ends (.failed hends)
        | panic => exact .ends .asIs
      · exact .wait
    | stop now f =>
      obtain ⟨s', hs', heq⟩ := shutdown_closes f now s
      simp only [heq]
      exact .ends hs'
    | reconnect now => exact .reconnect

/-! ## Changes across a turn -/

section Applied

variable {s s' : State} {now : Nat}

theorem Commits.applied {reason : FlushReason} (h : Commits now reason s s') :
    applied s' = applied s := by
  cases h with
  | idle _ => rfl
  | done _ => exact applied_afterCommit now reason s

theorem Readies.applied {rel : Relation} (h : Readies now rel s s') : applied s' = applied s := by
  cases h with
  | fresh _ => rfl
  | known _ hc => exact hc.applied

theorem applied_registered (rel : Relation) (s : State) :
    applied (registered rel s) = applied s := by
  simp only [Logrepl.applied, registered, inFlight, Session.exec]
  cases hs : s.session.txn with
  | some ops | none => simp [changesOf_append, opChanges]

theorem applied_opened (s : State) : applied (opened s) = applied s := rfl

theorem RolledBack.applied_le (h : RolledBack s s') : applied s' ≤ applied s := by
  have hrows := h.rows
  rw [h.frame]
  simp only [applied, inFlight, Session.rollback_durable, Session.rollback_txn]
  exact add_le_add_right (add_le_add (Multiset.zero_le _) hrows) _

theorem Broken.applied_le (h : Broken s s') : applied s' ≤ applied s := by
  simp only [applied, inFlight, h.durable, h.txn]
  exact add_le_add_right (add_le_add (Multiset.zero_le _) h.rows) _

theorem applied_crash_le (s : State) : applied (crash s) ≤ applied s :=
  add_le_add_right (add_le_add (Multiset.zero_le _) (le_refl _)) _

theorem Closes.applied_le (h : Closes s s') : applied (crash s') ≤ applied s := by
  refine (applied_crash_le s').trans ?_
  cases h with
  | asIs => exact le_refl _
  | flushed now reason _ _ _ => exact (applied_afterCommit now reason s).le
  | failed hrb => exact hrb.applied_le

theorem applied_reset_le (now : Nat) (s : State) : applied (reset now s) ≤ applied s :=
  add_le_add_right (Multiset.zero_le _) _

/-- Only a row message of a transaction that is taken adds changes. -/
theorem Turn.applied_le {i : Input} (h : Turn s i s') (hp : s.processMessages = false) :
    applied s' ≤ applied s := by
  have htaken : ∀ {p : Prop}, s.processMessages = true → p := fun ht =>
    absurd (ht.symm.trans hp) (by decide)
  cases h with
  | off _ | unplugged _ | wait => exact le_refl _
  | tick _ _ _ hc => exact hc.applied.le
  | aside b _ | skipped _ => exact le_refl _
  | row ht _ _ => exact htaken ht
  | rowFails ht _ _ => exact htaken ht
  | relation hr => exact ((applied_registered _ _).trans hr.applied).le
  | relationFails hr => exact hr.applied.le
  | stale _ | extendBegin _ _ => exact le_refl _
  | begin _ _ hc => exact ((applied_opened _).trans hc.applied).le
  | extendCommit _ => exact le_refl _
  | commit _ hc => exact hc.applied.le
  | breaks hb => exact hb.applied_le
  | ends hcl => exact hcl.applied_le
  | reconnect => exact applied_reset_le _ _

end Applied

end MyDuck.Logrepl
