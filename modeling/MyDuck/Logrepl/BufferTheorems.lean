/-
MyDuck.Logrepl.BufferTheorems — the delta buffer of the replicator between
two commits.

Two facts tie the buffer to the rest of the state. Buffered rows wait for
an open DuckDB transaction (`Awaited`), or else the commit at the next
tick does nothing and reports success. And the appender of a table has the
schema of the relation last described under that name (`Current`), or else
rows of the new schema go to builders of the old one. Both rest on commits
that happen, or drop the appenders, at the right moment: a commit in the
middle of a source transaction leaves its later rows without a
transaction, and a relation message without a transaction leaves the old
appenders in place.
-/
import MyDuck.Logrepl.PositionTheorems

namespace MyDuck.Logrepl

open MyDuck.Delta

/-! ## Buffered rows and the open transaction -/

/-- What is being taken or waits in the buffer has an open transaction,
and the last commit message is the one the next commit will store. -/
structure Awaited (s : State) (src : Source) : Prop where
  ongoing : s.ongoingBatchTxn = true → s.session.txn.isSome = true
  taking : s.processMessages = true → s.session.txn.isSome = true
  dirty : s.dirtyTxn = true → s.session.txn.isSome = true
  last : ∀ t, src.log.getLast? = some t → s.lastCommitLSN = t.lsn
  ended : s.dirtyTxn = true → s.dirtyStream = false → src.log ≠ []

/-- Only messages and ticks; no known relation, and no tick that commits,
comes in the middle of a transaction that is taken. -/
def Uncut (s : State) : Input → Prop
  | .message _ _ (.relation rel) =>
    (s.relations.lookup rel.id).isSome = true → s.processMessages = false
  | .message _ _ _ => True
  | .tick now _ => now - s.lastCommitTime > 200 → s.dirtyTxn = true → s.dirtyStream = false →
      s.processMessages = false
  | .stop _ _ => False
  | .reconnect _ => False

/-- The log of the source after a `Commit` ends with its transaction. -/
theorem Source.finish_log {src : Source} {lsn : LSN} (h : src.Sends (.commit lsn)) :
    ∃ t, t.lsn = lsn ∧ src.finish.log = src.log ++ [t] := by
  obtain ⟨t, ht, hlsn⟩ := Option.map_eq_some_iff.mp h
  exact ⟨t, hlsn, by simp [finish, ht]⟩

namespace Awaited

variable {s s' : State} {src src' : Source}

/-- Nothing but the log of the source is read. -/
theorem moveOn (h : Awaited s src) (hlog : src'.log = src.log) : Awaited s src' :=
  ⟨h.ongoing, h.taking, h.dirty, hlog ▸ h.last, hlog ▸ h.ended⟩

theorem commits (h : Awaited s src) {now : Nat} {reason : FlushReason}
    (hc : Commits now reason s s') (hp : s.processMessages = false) : Awaited s' src := by
  cases hc with
  | idle _ => exact h
  | done _ =>
    exact ⟨nofun, fun ht => absurd (ht.symm.trans hp) (by decide),
      nofun, h.last, nofun⟩

theorem registered (h : Awaited s src) (rel : Relation) : Awaited (registered rel s) src := by
  have htxn : s.session.txn.isSome = true →
      (Logrepl.registered rel s).session.txn.isSome = true := by
    intro hs
    obtain ⟨ops, hops⟩ := Option.isSome_iff_exists.mp hs
    simp [Logrepl.registered, Session.exec, hops]
  exact ⟨htxn ∘ h.ongoing, htxn ∘ h.taking, htxn ∘ h.dirty, h.last, h.ended⟩

theorem takes (h : Awaited s src) {x : Changes} (hp : s.processMessages = true)
    (ht : Takes s s' x) : Awaited (markDirty s') src := by
  have hopen := ht.opened (h.taking hp)
  refine ⟨fun _ => hopen, fun _ => hopen, fun _ => hopen, ?_, nofun⟩
  rw [ht.frame]
  exact h.last

theorem opens (h : Awaited s src) {now : Nat} {reason : FlushReason} {lsn : LSN}
    (hc : Commits now reason (begun lsn s) s') : Awaited (Logrepl.opened s') src := by
  refine ⟨fun _ => rfl, fun _ => rfl, fun _ => rfl, ?_, ?_⟩
  · cases hc with
    | idle _ | done _ => exact h.last
  · cases hc with
    | idle _ => exact h.ended
    | done _ => exact nofun

/-- A commit message is the last one of the log. -/
theorem finishes (h : Awaited s src) {lsn : LSN} (hm : src.Sends (.commit lsn)) :
    Awaited (finished (counted lsn s)) src.finish := by
  obtain ⟨t, ht, hlog⟩ := Source.finish_log hm
  refine ⟨h.ongoing, nofun, h.dirty, fun u hu => ?_, fun _ _ => ?_⟩
  · rw [hlog, List.getLast?_concat] at hu
    rw [← Option.some.inj hu, ht]
    rfl
  · rw [hlog]
    exact List.concat_ne_nil _ _

end Awaited

/-- Messages between transactions leave the log alone. -/
theorem Source.onMessage_aside_log {s : State} {m : Message} (src : Source)
    (hm : m.isAside = true) : (src.onMessage s m).log = src.log := by
  cases m with
  | streamAbort xid subXid =>
    simp only [onMessage, onStreamAbort]
    split <;> rfl
  | streamCommit xid lsn => rfl
  | streamStart xid => rfl
  | streamStop => rfl
  | other => rfl
  | relation _ | begin _ | commit _ | row _ _ => cases hm

/-- The batch may only be extended while it is open. -/
theorem ongoing_of_mayExtend {now : Nat} {s : State} (h : (mayExtendBatchTxn now s).1 = true) :
    s.ongoingBatchTxn = true := by
  cases ho : s.ongoingBatchTxn with
  | true => rfl
  | false => simp [mayExtendBatchTxn, ho] at h

theorem Awaited.message {s s' : State} {src : Source} {now : Nat} {f : Faults} {m : Message}
    (h : Awaited s src) (hm : src.Sends m) (hu : Uncut s (.message now f m))
    (hr : s.running = true) (hc : s.connected = true) (ht : Turn s (.message now f m) s')
    (hr' : s'.running = true) (hc' : s'.connected = true) :
    Awaited s' (src.onMessage s m) := by
  cases ht with
  | off hoff => cases hr.symm.trans hoff
  | unplugged hun => cases hc.symm.trans hun
  | aside b ha =>
    have h' := h.moveOn (src.onMessage_aside_log (s := s) ha)
    exact ⟨h'.ongoing, h'.taking, h'.dirty, h'.last, h'.ended⟩
  | skipped _ => exact h.moveOn (src.onRow_log s _ _)
  | row hp _ htk => exact (h.takes hp htk).moveOn (src.onRow_log s _ _)
  | rowFails _ _ _ => cases hc'
  | relation hrd =>
    refine Awaited.registered ?_ _
    cases hrd with
    | fresh _ => exact h
    | known hk hcm => exact h.commits hcm (hu hk)
  | relationFails _ => cases hc'
  | stale _ => exact ⟨h.ongoing, nofun, h.dirty, h.last, h.ended⟩
  | extendBegin _ he =>
    have hopen := h.ongoing (ongoing_of_mayExtend he)
    exact ⟨h.ongoing, fun _ => hopen, h.dirty, h.last, h.ended⟩
  | begin _ _ hcm => exact (h.opens hcm).moveOn rfl
  | extendCommit _ => exact h.finishes hm
  | commit _ hcm =>
    have hf := h.finishes hm
    cases hcm with
    | idle _ => exact hf
    | done _ =>
      exact ⟨nofun, nofun, nofun, hf.last,
        nofun⟩
  | breaks hb => cases hc'.symm.trans hb.connected
  | ends _ => cases hr'

/-- A replicator whose rows are awaited, as long as it is up. -/
def AwaitedUp (r : Replica) : Prop :=
  r.state.running = true → r.state.connected = true → Awaited r.state r.source

/-- What the source can send, with no source transaction cut. -/
def SentUncut (r : Replica) (i : Input) : Prop := r.Sent i ∧ Uncut r.state i

theorem AwaitedUp.turn {r : Replica} {i : Input} {s' : State} (h : AwaitedUp r)
    (hi : SentUncut r i) (hr : r.state.running = true) (hc : r.state.connected = true)
    (ht : Turn r.state i s') : AwaitedUp ⟨s', r.source.onInput r.state i⟩ := by
  intro hr' hc'
  cases i with
  | message now f m =>
    have hsrc : r.source.onInput r.state (.message now f m) = r.source.onMessage r.state m := by
      simp [Source.onInput, hr, hc]
    rw [hsrc]
    exact (h hr hc).message hi.1 hi.2 hr hc ht hr' hc'
  | tick now f =>
    have hsrc : r.source.onInput r.state (.tick now f) = r.source := by simp [Source.onInput, hr]
    rw [hsrc]
    cases ht with
    | off _ | wait => exact h hr hc
    | tick hdue hd hs hcm => exact (h hr hc).commits hcm (hi.2 hdue hd hs)
    | ends _ => cases hr'
  | stop now f | reconnect now => exact hi.2.elim

theorem AwaitedUp.step {r : Replica} {i : Input} (h : AwaitedUp r) (hi : SentUncut r i) :
    AwaitedUp (r.step i) := by
  by_cases hr : r.state.running = true
  swap
  · rw [Replica.step_of_stopped (by simpa using hr)]
    exact h
  by_cases hc : r.state.connected = true
  · exact h.turn hi hr hc (handle_turn r.state i)
  · have hn : i.needsConnection = true := by
      cases i with
      | message now f m => rfl
      | tick now f => rfl
      | stop now f | reconnect now => exact hi.2.elim
    rw [Replica.step_of_unplugged (by simpa using hc) hn]
    exact h

/-- **A clean tick really flushes**: in a state with a dirty batch and no
transaction in progress, a commit that returns no error empties every
appender, moves the last written LSN to the last commit message and clears
the flag. -/
theorem clean_tick_flushes (s₀ : State) (now₀ : Nat) (is : List Input)
    (h : Along Replica.step SentUncut (Replica.resume now₀ s₀) is)
    (hr : (run Replica.step (Replica.resume now₀ s₀) is).state.running = true)
    (hc : (run Replica.step (Replica.resume now₀ s₀) is).state.connected = true)
    (hd : (run Replica.step (Replica.resume now₀ s₀) is).state.dirtyTxn = true)
    (hs : (run Replica.step (Replica.resume now₀ s₀) is).state.dirtyStream = false)
    (f : Faults) (now : Nat) (reason : FlushReason) (s' : State)
    (hok : commitOngoingTxnIfClean f now reason
      (run Replica.step (Replica.resume now₀ s₀) is).state = .ok s') :
    Drained s'.deltas ∧ s'.dirtyTxn = false ∧
      ∃ t, (run Replica.step (Replica.resume now₀ s₀) is).source.log.getLast? = some t ∧
        s'.lastWrittenLSN = t.lsn := by
  have hup : AwaitedUp (run Replica.step (Replica.resume now₀ s₀) is) := by
    refine h.invariant AwaitedUp (fun _ _ hr hi => hr.step hi) fun _ _ => ?_
    exact ⟨nofun, nofun, nofun,
      nofun, nofun⟩
  set r := run Replica.step (Replica.resume now₀ s₀) is
  have ha := hup hr hc
  rw [commitOngoingTxnIfClean, if_pos (by simp [hd, hs])] at hok
  have hends := commitOngoingTxn_ends f now reason r.state
  rw [hok] at hends
  have hlast := List.getLast?_eq_some_getLast (ha.ended hd hs)
  cases hends with
  | idle hn => exact absurd (ha.dirty hd) (by rw [hn]; decide)
  | done _ => exact ⟨afterFlush_empty, rfl, _, hlast, ha.last _ hlast⟩

section Samples

instance (s : State) (i : Input) : Decidable (Uncut s i) :=
  match i with
  | .message _ _ (.relation _) => inferInstanceAs (Decidable (_ → _))
  | .message _ _ (.begin _) | .message _ _ (.commit _) | .message _ _ (.row _ _)
  | .message _ _ (.streamStart _) | .message _ _ .streamStop | .message _ _ (.streamCommit _ _)
  | .message _ _ (.streamAbort _ _) | .message _ _ .other => isTrue trivial
  | .tick _ _ => inferInstanceAs (Decidable (_ → _ → _ → _))
  | .stop _ _ | .reconnect _ => isFalse id

instance (r : Replica) (i : Input) : Decidable (SentUncut r i) :=
  inferInstanceAs (Decidable (_ ∧ _))

/-- A transaction that is committed at once, and a second one that waits
for the tick. -/
def waitingBatch : List Input :=
  [.got 1 (.relation sampleRelation), .got 2 (.begin 20),
    .got 3 (.row 0 (.insert 1 (sampleTuple 1 "a"))), .got 4 (.commit 20), .got 5 (.begin 30),
    .got 6 (.row 0 (.insert 1 (sampleTuple 2 "b"))), .got 7 (.commit 30)]

theorem clean_tick_flushes_sample :
    ∃ s', commitOngoingTxnIfClean {} 300 .timeTick
        (run Replica.step (Replica.resume 0 { lastWrittenLSN := 10 }) waitingBatch).state = .ok s' ∧
      Drained s'.deltas ∧ s'.dirtyTxn = false ∧
      ∃ t, (run Replica.step (Replica.resume 0 { lastWrittenLSN := 10 })
          waitingBatch).source.log.getLast? = some t ∧ s'.lastWrittenLSN = t.lsn :=
  ⟨_, rfl, clean_tick_flushes { lastWrittenLSN := 10 } 0 waitingBatch (by decide) (by decide)
    (by decide) (by decide) (by decide) {} 300 .timeTick _ rfl⟩

/-- A known relation comes in the middle of the second transaction. -/
def relationInside : List Input :=
  waitingBatch.take 6 ++ [.got 7 (.relation sampleRelation),
    .got 8 (.row 0 (.insert 1 (sampleTuple 3 "c"))), .got 9 (.commit 30)]

/-- A tick finds a waiting batch right after the `Begin` of the next
transaction. -/
def tickAfterBegin : List Input :=
  waitingBatch ++ [.got 8 (.begin 40), .tick 300 {},
    .got 301 (.row 0 (.insert 1 (sampleTuple 3 "c"))), .got 302 (.commit 40)]

/-- After a commit in the middle of a transaction its later rows have no
DuckDB transaction: the tick reports success and leaves them where they
are. -/
theorem cut_transaction_stays_buffered :
    (Along Replica.step Replica.Sent (Replica.resume 0 { lastWrittenLSN := 10 }) relationInside ∧
      ∃ s, (run Replica.step (Replica.resume 0 { lastWrittenLSN := 10 }) relationInside).state = s ∧
        s.dirtyTxn = true ∧ s.dirtyStream = false ∧
        commitOngoingTxnIfClean {} 900 .timeTick s = .ok s ∧
        (bufferedRows ⟨"public", "t"⟩ s.deltas).map DeltaRow.fields = [[.int 3, .text "c"]] ∧
        s.lastWrittenLSN = 20) ∧
    (Along Replica.step Replica.Sent (Replica.resume 0 { lastWrittenLSN := 10 }) tickAfterBegin ∧
      ∃ s, (run Replica.step (Replica.resume 0 { lastWrittenLSN := 10 }) tickAfterBegin).state = s ∧
        s.dirtyTxn = true ∧ s.dirtyStream = false ∧
        commitOngoingTxnIfClean {} 900 .timeTick s = .ok s ∧
        (bufferedRows ⟨"public", "t"⟩ s.deltas).map DeltaRow.fields = [[.int 3, .text "c"]] ∧
        s.lastWrittenLSN = 30) :=
  ⟨⟨by decide, _, rfl, by decide, by decide, rfl, by decide, by decide⟩,
    ⟨by decide, _, rfl, by decide, by decide, rfl, by decide, by decide⟩⟩

end Samples

/-! ## Appenders and schemas -/

/-- The relation last described under a table name. -/
def newestFor (t : TableIdentifier) (relations : List (Nat × Relation)) : Option (Nat × Relation) :=
  relations.find? (fun e => e.2.table = t)

/-- Every appender was made from the schema last described for its
table. -/
def Current (s : State) : Prop :=
  ∀ t a, s.deltas.lookup t = some a → ∃ e, newestFor t s.relations = some e ∧ a.schema = e.2.schema

/-- The calls of `append` for a row message: the relation, and the state in
which the call is made. -/
def appendCalls (s : State) : RowMessage → List (Nat × State)
  | .insert id _ => [(id, s)]
  | .update id old _ =>
    match appendOldOfUpdate id old s with
    | .ok s₁ => [(id, s), (id, s₁)]
    | .error _ _ => [(id, s)]
    | .panic => [(id, s)]
  | .delete id (.key _) => [(id, s)]
  | .delete id (.old _) => [(id, s)]
  | .delete _ .none => []
  | .truncate _ => []

/-- The calls of `append` in a turn of the loop. -/
def callsIn (s : State) : Input → List (Nat × State)
  | .message _ _ (.row _ m) =>
    if s.running && s.connected && s.processMessages then appendCalls s m else []
  | _ => []

/-- The appender that `append` gets for a relation was made from the
relation's schema. -/
def GetsCurrent (c : Nat × State) : Prop :=
  ∀ rel ∈ c.2.relations.lookup c.1,
    (getDeltaAppender rel.table rel.schema c.2.deltas).schema = rel.schema

/-- The relation of a row message is the one last described under its
name. -/
def Described (s : State) (m : RowMessage) : Prop :=
  ∀ id ∈ m.relation?, ∀ rel ∈ s.relations.lookup id,
    newestFor rel.table s.relations = some (id, rel)

/-- Rows are described, and a relation message for a table with an
appender of another schema is about a known relation and finds an open
DuckDB transaction. -/
def SchemaFlushed (s : State) : Input → Prop
  | .message _ _ (.relation rel) => ∀ a ∈ s.deltas.lookup rel.table, a.schema ≠ rel.schema →
      (s.relations.lookup rel.id).isSome = true ∧ s.session.txn.isSome = true
  | .message _ _ (.row _ m) => Described s m
  | _ => True

namespace Current

variable {s s' : State}

section

variable (h : Current s)

include h

theorem getsCurrent {id : Nat} {rel : Relation}
    (hn : newestFor rel.table s.relations = some (id, rel)) :
    (getDeltaAppender rel.table rel.schema s.deltas).schema = rel.schema := by
  rw [getDeltaAppender]
  cases hl : s.deltas.lookup rel.table with
  | none => rfl
  | some a =>
    obtain ⟨e, he, hs⟩ := h rel.table a hl
    rw [hn] at he
    rw [Option.getD_some, hs, ← Option.some.inj he]

/-- The appender of the relation keeps its schema. -/
theorem putAppender {id : Nat} {rel : Relation} {a : DeltaAppender} (size : Nat)
    (hn : newestFor rel.table s.relations = some (id, rel)) (ha : a.schema = rel.schema) :
    Current (putAppender rel a size s) := by
  intro t b hb
  simp only [Logrepl.putAppender, lookup_withAppender] at hb
  split at hb
  · next ht =>
    subst ht
    rw [← Option.some.inj hb]
    exact ⟨(id, rel), hn, ha⟩
  · exact h t b hb

theorem append {id : Nat} (tuple : Tuple) (action event : RowEventType) (onlyKeys : Bool)
    (hn : ∀ rel ∈ s.relations.lookup id, newestFor rel.table s.relations = some (id, rel)) :
    (append id tuple action event onlyKeys s).Ends
      (fun s' => Current s' ∧ s'.relations = s.relations) (fun _ => True) := by
  unfold Logrepl.append
  cases hrel : s.relations.lookup id with
  | none => trivial
  | some rel =>
    have hnew := hn rel hrel
    have hgets := h.getsCurrent hnew
    simp only
    split_ifs
    · exact ⟨h.putAppender 0 hnew (by simpa using hgets), rfl⟩
    · trivial
    · cases readTuple onlyKeys rel.columns tuple with
      | panic => trivial
      | error e r => trivial
      | ok r =>
        exact ⟨h.putAppender r.2 hnew (by simpa [DeltaAppender.appendRow] using hgets), rfl⟩

theorem appendOldOfUpdate {id : Nat} (old : OldTuple)
    (hn : ∀ rel ∈ s.relations.lookup id, newestFor rel.table s.relations = some (id, rel)) :
    (appendOldOfUpdate id old s).Ends
      (fun s' => Current s' ∧ s'.relations = s.relations) (fun _ => True) := by
  cases old with
  | key tuple => exact h.append tuple .delete .update true hn
  | old tuple => exact h.append tuple .delete .update false hn
  | none => exact h.append [] .delete .update true hn

theorem truncateAll (f : Faults) (ids : List Nat) :
    (truncateAll f ids s).Ends Current (fun _ => True) := by
  induction ids generalizing s with
  | nil => exact h
  | cons id ids ih =>
    have htr : (Logrepl.truncate f id s).Ends Current (fun _ => True) := by
      unfold Logrepl.truncate
      cases s.relations.lookup id with
      | none => trivial
      | some rel =>
        simp only
        split
        · trivial
        · exact h
    exact htr.andThen fun s₁ h₁ => ih h₁

theorem processRow (f : Faults) {m : RowMessage} (hm : Described s m) :
    (processRow f m s).Ends Current (fun _ => True) := by
  cases m with
  | insert id tuple =>
    exact (h.append tuple .insert .insert false (hm id rfl)).andThen fun s₁ h₁ => h₁.1
  | update id old new =>
    refine (h.appendOldOfUpdate old (hm id rfl)).andThen fun s₁ h₁ => ?_
    have hn : ∀ rel ∈ s₁.relations.lookup id,
        newestFor rel.table s₁.relations = some (id, rel) := by
      rw [h₁.2]
      exact hm id rfl
    exact (h₁.1.append new .insert .update false hn).andThen fun s₂ h₂ => h₂.1
  | delete id old =>
    cases old with
    | key tuple =>
      exact (h.append tuple .delete .delete true (hm id rfl)).andThen fun s₁ h₁ => h₁.1
    | old tuple =>
      exact (h.append tuple .delete .delete false (hm id rfl)).andThen fun s₁ h₁ => h₁.1
    | none => trivial
  | truncate ids =>
    have h₀ : Current (flushWithoutTxn s) := by
      intro t a ha
      simp only [flushWithoutTxn, flush_without_txn] at ha
      exact h t a ha
    exact (h₀.truncateAll f ids).andThen fun s₁ h₁ => h₁

theorem commits {now : Nat} {reason : FlushReason} (hc : Commits now reason s s') : Current s' := by
  cases hc with
  | idle _ => exact h
  | done _ =>
    intro t a ha
    obtain ⟨a₀, ha₀, hs⟩ := lookup_afterFlush ha
    exact hs ▸ h t a₀ ha₀

/-- A relation is registered when no appender of its table has another
schema. -/
theorem registered {rel : Relation} (hs : ∀ a ∈ s.deltas.lookup rel.table, a.schema = rel.schema) :
    Current (registered rel s) := by
  intro t a ha
  by_cases ht : rel.table = t
  · subst ht
    exact ⟨(rel.id, rel), by simp [newestFor, Logrepl.registered], hs a ha⟩
  · have hnew : newestFor t (Logrepl.registered rel s).relations = newestFor t s.relations := by
      simp [newestFor, Logrepl.registered, ht]
    rw [hnew]
    exact h t a ha

end

end Current

/-- A turn of a connected replicator keeps the appenders current. -/
theorem Current.turn {s s' : State} {i : Input} (h : Current s) (hi : SchemaFlushed s i)
    (ht : Turn s i s') (hr' : s'.running = true) (hc' : s'.connected = true) : Current s' := by
  cases ht with
  | off _ | unplugged _ | wait => exact h
  | tick _ _ _ hcm => exact h.commits hcm
  | aside b _ | skipped _ => exact h
  | @row now xid f m s₁ _ hok _ =>
    have hends := h.processRow f hi
    rw [hok] at hends
    exact hends
  | rowFails _ _ _ => cases hc'
  | relation hrd =>
    -- an appender of another schema is dropped by the commit
    cases hrd with
    | fresh hf =>
      refine h.registered fun a ha => by_contra fun hne => ?_
      exact absurd (hi a ha hne).1 (by rw [hf]; decide)
    | known _ hcm =>
      refine (h.commits hcm).registered fun a ha => ?_
      cases hcm with
      | idle hn =>
        refine by_contra fun hne => ?_
        exact absurd (hi a ha hne).2 (by rw [hn]; decide)
      | done _ => simp [afterCommit] at ha
  | relationFails _ => cases hc'
  | stale _ | extendBegin _ _ => exact h
  | @begin now f lsn s₁ _ _ hcm =>
    have hb : Current (begun lsn s) := h
    exact (hb.commits hcm :)
  | extendCommit _ => exact h
  | @commit now f lsn s₁ _ hcm =>
    have hb : Current (counted lsn s) := h
    exact (hb.commits hcm :)
  | breaks hb => cases hc'.symm.trans hb.connected
  | ends _ => cases hr'
  | reconnect => exact fun t a ha => (by cases ha)

/-- The appenders are current as long as the replicator is up. -/
def CurrentUp (s : State) : Prop := s.running = true → s.connected = true → Current s

theorem CurrentUp.step {s : State} {i : Input} (h : CurrentUp s) (hi : SchemaFlushed s i) :
    CurrentUp (handle s i) := by
  by_cases hr : s.running = true
  swap
  · rw [handle_of_stopped (by simpa using hr)]
    exact h
  by_cases hc : s.connected = true
  · exact (h hr hc).turn hi (handle_turn s i)
  · cases i with
    | message now f m | tick now f => rw [handle_of_unplugged (by simpa using hc) rfl]; exact h
    | stop now f =>
      obtain ⟨s', -, hs'⟩ := shutdown_closes f now s
      intro hr'
      simp [handle, hr, hs', crash] at hr'
    | reconnect now =>
      have hs : handle s (.reconnect now) = reset now s := by simp [handle, hr]
      rw [hs]
      exact fun _ _ t a ha => (by cases ha)

/-- Every call of a message gets a current appender. -/
theorem Current.appendCalls {s : State} (h : Current s) {m : RowMessage} (hm : Described s m) :
    ∀ c ∈ appendCalls s m, GetsCurrent c := by
  have hself : ∀ id ∈ m.relation?, GetsCurrent (id, s) := fun id hid rel hrel =>
    h.getsCurrent (hm id hid rel hrel)
  cases m with
  | insert id tuple =>
    intro c hc
    obtain rfl := List.mem_singleton.mp hc
    exact hself id rfl
  | update id old new =>
    have hold := h.appendOldOfUpdate old (hm id rfl)
    intro c hc
    simp only [Logrepl.appendCalls] at hc
    cases ho : Logrepl.appendOldOfUpdate id old s with
    | ok s₁ =>
      rw [ho] at hold hc
      rcases List.mem_cons.mp hc with rfl | hc
      · exact hself id rfl
      · obtain rfl := List.mem_singleton.mp hc
        intro rel hrel
        rw [hold.2] at hrel
        exact hold.1.getsCurrent (hold.2.symm ▸ hm id rfl rel hrel)
    | error e s₁ =>
      rw [ho] at hc
      obtain rfl := List.mem_singleton.mp hc
      exact hself id rfl
    | panic =>
      rw [ho] at hc
      obtain rfl := List.mem_singleton.mp hc
      exact hself id rfl
  | delete id old =>
    intro c hc
    cases old with
    | key tuple =>
      obtain rfl := List.mem_singleton.mp hc
      exact hself id rfl
    | old tuple =>
      obtain rfl := List.mem_singleton.mp hc
      exact hself id rfl
    | none => cases hc
  | truncate ids => exact nofun

/-- **Rows go to appenders of the current schema**: whatever the run so
far, every call of `append` that the next input makes gets an appender made
from the schema stored for its relation. -/
theorem appenders_have_current_schema (s₀ : State) (now₀ : Nat) (is : List Input) (i : Input)
    (h : Along handle SchemaFlushed (reset now₀ s₀) (is ++ [i])) :
    ∀ c ∈ callsIn (run handle (reset now₀ s₀) is) i, GetsCurrent c := by
  obtain ⟨his, hi, -⟩ := along_append.mp h
  have hup := his.invariant CurrentUp (fun _ _ hs hj => hs.step hj)
    fun _ _ t a ha => (by cases ha)
  intro c hc
  unfold callsIn at hc
  split at hc
  · split at hc
    · next hon =>
      simp only [Bool.and_eq_true] at hon
      exact (hup hon.1.1 hon.1.2).appendCalls hi c hc
    · cases hc
  · cases hc

section Samples

instance (c : Nat × State) : Decidable (GetsCurrent c) :=
  inferInstanceAs (Decidable (∀ rel ∈ c.2.relations.lookup c.1, _ = _))

instance (s : State) (m : RowMessage) : Decidable (Described s m) :=
  inferInstanceAs (Decidable (∀ id ∈ m.relation?, ∀ rel ∈ s.relations.lookup id, _ = _))

instance (s : State) (i : Input) : Decidable (SchemaFlushed s i) :=
  match i with
  | .message _ _ (.relation rel) =>
    inferInstanceAs (Decidable (∀ a ∈ s.deltas.lookup rel.table, _ → _ ∧ _))
  | .message _ _ (.row _ m) => inferInstanceAs (Decidable (Described s m))
  | .message _ _ (.begin _) | .message _ _ (.commit _) | .message _ _ (.streamStart _)
  | .message _ _ .streamStop | .message _ _ (.streamCommit _ _) | .message _ _ (.streamAbort _ _)
  | .message _ _ .other => isTrue trivial
  | .tick _ _ | .stop _ _ | .reconnect _ => isTrue trivial

/-- The sample relation after columns were added to it. -/
def widened (names : List String) : Relation :=
  { sampleRelation with columns := sampleRelation.columns ++ names.map (⟨·, 0, 25, -1⟩) }

def widenedTuple (k : Int) (v : String) (more : List String) : Tuple :=
  sampleTuple k v ++ more.map (fun w => .value (.text w) 1)

/-- A column is added between two transactions. -/
def widenedBetween : List Input :=
  [.got 1 (.relation sampleRelation), .got 2 (.begin 20),
    .got 3 (.row 0 (.insert 1 (sampleTuple 1 "a"))), .got 4 (.commit 20), .got 5 (.begin 30),
    .got 6 (.relation (widened ["w"]))]

theorem appenders_have_current_schema_sample :
    Along handle SchemaFlushed (reset 0 { lastWrittenLSN := 10 })
        (widenedBetween ++ [.got 7 (.row 0 (.insert 1 (widenedTuple 2 "b" ["c"])))]) ∧
      ∀ c ∈ callsIn (run handle (reset 0 { lastWrittenLSN := 10 }) widenedBetween)
        (.got 7 (.row 0 (.insert 1 (widenedTuple 2 "b" ["c"])))), GetsCurrent c :=
  have h : Along handle SchemaFlushed (reset 0 { lastWrittenLSN := 10 })
      (widenedBetween ++ [.got 7 (.row 0 (.insert 1 (widenedTuple 2 "b" ["c"])))]) := by decide
  ⟨h, appenders_have_current_schema { lastWrittenLSN := 10 } 0 widenedBetween _ h⟩

/-- Two columns are added in one transaction, with rows in between. -/
def widenedTwice : List Input :=
  [.got 1 (.relation sampleRelation), .got 2 (.begin 20),
    .got 3 (.row 0 (.insert 1 (sampleTuple 1 "a"))), .got 4 (.relation (widened ["w"])),
    .got 5 (.row 0 (.insert 1 (widenedTuple 2 "b" ["c"]))), .got 6 (.relation (widened ["w", "x"]))]

/-- A table is dropped and created again with another column. -/
def recreated : List Input :=
  [.got 1 (.relation sampleRelation), .got 2 (.begin 20),
    .got 3 (.row 0 (.insert 1 (sampleTuple 1 "a"))), .got 4 (.commit 20), .got 5 (.begin 30),
    .got 6 (.relation { widened ["w"] with id := 2 })]

/-- The second relation message of a transaction finds no DuckDB
transaction to commit, and a relation with a new id is not a known one: in
both cases the next row gets an appender of the old schema. -/
theorem appender_of_old_schema :
    (Along Replica.step Replica.Sent (Replica.resume 0 { lastWrittenLSN := 10 }) widenedTwice ∧
      ∃ c ∈ callsIn (run handle (reset 0 { lastWrittenLSN := 10 }) widenedTwice)
        (.got 7 (.row 0 (.insert 1 (widenedTuple 3 "c" ["d", "e"])))), ¬ GetsCurrent c) ∧
    (Along Replica.step Replica.Sent (Replica.resume 0 { lastWrittenLSN := 10 }) recreated ∧
      ∃ c ∈ callsIn (run handle (reset 0 { lastWrittenLSN := 10 }) recreated)
        (.got 7 (.row 0 (.insert 2 (widenedTuple 3 "c" ["d"])))), ¬ GetsCurrent c) := by
  decide

end Samples

end MyDuck.Logrepl
