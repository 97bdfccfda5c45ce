/-
MyDuck.Logrepl.LossTheorems — no committed transaction is lost, and nothing
else is applied.

The rows of a streamed transaction come outside of `Begin` and `Commit`
and are dropped; its `StreamCommit` is only logged. So a streamed
transaction that commits with row changes is lost as soon as the last
written LSN passes it. `no_transaction_lost` says that this is the only
way: in every state of a run with failing statements, stops and new
connections, every transaction up to the last written LSN has all its
changes in the committed data, and the committed data has only changes of
transactions that were sent between `Begin` and `Commit`.
-/
import MyDuck.Logrepl.LinkTheorems

namespace MyDuck.Logrepl

open MyDuck.Delta

/-! ## Changes that are safe -/

/-- Ended transactions are committed up to the last written LSN, and
otherwise in flight as long as a commit may come. -/
structure Safe (s : State) (src : Source) : Prop where
  written : ∀ t ∈ src.ended, t.lsn ≤ s.lastWrittenLSN →
    t.tagged ≤ changesOf s.session.durable.flatten
  held : s.running = true → (s.connected = true ∨ s.session.txn.isSome = true) →
    ∀ t ∈ src.ended, t.tagged ≤ applied s
  bounded : applied s ≤ taggedAll src.log + src.openTagged

/-- The changes of the transaction being taken are in flight. -/
def Taking (s : State) (src : Source) : Prop :=
  s.processMessages = true → src.openTagged ≤ applied s

/-! ## The state moves -/

section State

variable {s s' : State} {src : Source} {now : Nat}

/-- Nothing that is committed or in flight changed. -/
theorem Safe.of_same (h : Safe s src)
    (hd : changesOf s'.session.durable.flatten = changesOf s.session.durable.flatten)
    (ha : applied s' = applied s) (hw : s'.lastWrittenLSN = s.lastWrittenLSN)
    (hr : s'.running = true → s.running = true)
    (hc : s'.connected = true ∨ s'.session.txn.isSome = true →
      s.connected = true ∨ s.session.txn.isSome = true) : Safe s' src where
  written := by rw [hd, hw]; exact h.written
  held := fun hr' hc' => by rw [ha]; exact h.held (hr hr') (hc hc')
  bounded := ha ▸ h.bounded

theorem Safe.commits {reason : FlushReason} (h : Safe s src) (hr : s.running = true)
    (hc : Commits now reason s s') : Safe s' src := by
  cases hc with
  | idle _ => exact h
  | done ho =>
    have hall := h.held hr (.inr ho)
    refine ⟨fun t ht _ => ?_, fun _ _ t ht => ?_, ?_⟩
    · exact (hall t ht).trans_eq (durable_afterCommit now reason s).symm
    · exact (hall t ht).trans_eq (applied_afterCommit now reason s).symm
    · exact (applied_afterCommit now reason s).le.trans h.bounded

/-- The connection is lost with everything in flight. -/
theorem Safe.broken (h : Safe s src) (hb : Broken s s') : Safe s' src where
  written := by rw [hb.durable, hb.lastWrittenLSN]; exact h.written
  held := by
    intro _ hc
    rw [hb.connected, hb.txn] at hc
    rcases hc with hc | hc <;> cases hc
  bounded := hb.applied_le.trans h.bounded

theorem Safe.crash (h : Safe s src) : Safe (crash s) src :=
  ⟨h.written, nofun, (applied_crash_le s).trans h.bounded⟩

theorem Safe.closes (h : Safe s src) (hr : s.running = true) (hc : Closes s s') :
    Safe (Logrepl.crash s') src := by
  cases hc with
  | asIs => exact h.crash
  | flushed now reason _ _ ho => exact (h.commits hr (.done ho)).crash
  | failed hrb =>
    refine ⟨?_, nofun, (Closes.failed hrb).applied_le.trans h.bounded⟩
    rw [Logrepl.crash, hrb.frame]
    exact h.written

theorem durable_registered (rel : Relation) (s : State) :
    changesOf (registered rel s).session.durable.flatten
      = changesOf s.session.durable.flatten := by
  simp only [registered, Session.exec]
  cases hs : s.session.txn with
  | some ops => rfl
  | none => simp [changesOf_append, opChanges]

theorem Safe.readies {rel : Relation} (h : Safe s src) (hr : s.running = true)
    (hrd : Readies now rel s s') : Safe s' src := by
  cases hrd with
  | fresh _ => exact h
  | known _ hcm => exact h.commits hr hcm

/-- A row message takes changes in that the source has sent. -/
theorem Safe.takes {x : Changes} (h : Safe s src) (hc : s.connected = true) (ht : Takes s s' x)
    (hx : applied s + x ≤ taggedAll src.log + src.openTagged) : Safe s' src where
  written := by
    have hw : s'.lastWrittenLSN = s.lastWrittenLSN := by rw [ht.frame]
    rw [ht.durable, hw]
    exact h.written
  held := by
    intro hr _ t hmem
    have hr' : s.running = true := by rw [ht.frame] at hr; exact hr
    exact (h.held hr' (.inl hc) t hmem).trans (ht.applied.symm ▸ Multiset.le_add_right _ _)
  bounded := ht.applied.symm ▸ hx

/-- **One turn**, once the source has moved: what is safe stays safe. -/
theorem Safe.turn {i : Input} (h : Safe s src) (hr : s.running = true)
    (hc : i.needsConnection = true → s.connected = true) (hi : ∀ now, i ≠ .reconnect now)
    (hx : ∀ now f xid m, i = .message now f (.row xid m) → s.processMessages = true →
      applied s + tag s.currentTransactionLSN (rowChanges s m) ≤ taggedAll src.log + src.openTagged)
    (ht : Turn s i s') : Safe s' src := by
  cases ht with
  | off _ | unplugged _ | wait => exact h
  | tick _ _ _ hcm => exact h.commits hr hcm
  | aside b _ => exact h.of_same rfl rfl rfl id id
  | skipped _ => exact h
  | row hp _ htk =>
    exact (h.takes (hc rfl) htk (hx _ _ _ _ rfl hp)).of_same rfl rfl rfl id id
  | rowFails hp hle htk =>
    refine (h.takes (hc rfl) htk ?_).of_same rfl rfl rfl id fun ho => ?_
    · exact (add_le_add_right hle _).trans (hx _ _ _ _ rfl hp)
    · exact ho.elim nofun .inr
  | @relation _ _ rel s₁ hrd =>
    refine (h.readies hr hrd).of_same (durable_registered rel s₁) (applied_registered rel s₁) rfl id
      fun ho => ?_
    exact ho.imp id fun hsome => registered_txn_isSome rel s₁ ▸ hsome
  | relationFails hrd =>
    exact (h.readies hr hrd).of_same rfl rfl rfl id fun ho => ho.elim nofun .inr
  | stale _ | extendBegin _ _ => exact h.of_same rfl rfl rfl id id
  | @begin _ _ lsn s₁ _ _ hcm =>
    have hbegun : Safe (begun lsn s) src := h.of_same rfl rfl rfl id id
    exact (hbegun.commits hr hcm).of_same rfl (applied_opened s₁) rfl id fun _ =>
      .inl (hcm.frame.2.1.trans (hc rfl))
  | extendCommit _ => exact h.of_same rfl rfl rfl id id
  | @commit _ _ lsn s₁ _ hcm =>
    have hcount : Safe (counted lsn s) src := h.of_same rfl rfl rfl id id
    exact (hcount.commits hr hcm).of_same rfl rfl rfl id id
  | breaks hb => exact h.broken hb
  | ends hcl => exact h.closes hr hcl
  | reconnect => exact absurd rfl (hi _)

end State

/-! ## The source moves -/

/-- A streamed transaction that commits behind the start of the stream has
no row changes left. -/
def StreamsEmpty (src : Source) : Message → Prop
  | .streamCommit xid lsn => src.origin < lsn → src.streamed xid = []
  | .relation _ | .begin _ | .commit _ | .row _ _ | .streamStart _ | .streamStop
  | .streamAbort _ _ | .other => True

section Source

variable {s : State} {src : Source}

theorem Source.openTagged_le_onRow (s : State) (xid : Nat) (m : RowMessage) (src : Source) :
    src.openTagged ≤ (src.onRow s xid m).openTagged := by
  unfold Source.onRow
  split
  · exact le_refl _
  · cases hcur : src.current with
    | none => rw [Source.openTagged_of_none hcur]; exact Multiset.zero_le _
    | some t =>
      have hlsn : src.lsn? = some t.lsn := by rw [Source.lsn?, hcur]; rfl
      rw [Source.openTagged_add hlsn]
      exact Multiset.le_add_right _ _

/-- The source moved, and nothing that ended is unsafe. -/
theorem Safe.moveOn {src' : Source} (h : Safe s src)
    (he : ∀ t ∈ src'.ended, t ∈ src.ended ∨
      (t.lsn ≤ s.lastWrittenLSN → t.tagged ≤ changesOf s.session.durable.flatten) ∧
        t.tagged ≤ applied s)
    (hl : taggedAll src.log + src.openTagged ≤ taggedAll src'.log + src'.openTagged) :
    Safe s src' where
  written := fun t ht hle => (he t ht).elim (fun hmem => h.written t hmem hle) fun hn => hn.1 hle
  held := fun hr hc t ht => (he t ht).elim (fun hmem => h.held hr hc t hmem) fun hn => hn.2
  bounded := h.bounded.trans hl

/-- The transaction being sent ends: it is in flight, and ahead of what is
written, or from before the start of the stream. -/
theorem Safe.finish (h : Safe s src) (hl : Linked s src) (htk : Taking s src) :
    Safe s src.finish := by
  unfold Source.finish
  cases hcur : src.current with
  | none => exact h
  | some t =>
    have hlsn : src.lsn? = some t.lsn := by rw [Source.lsn?, hcur]; rfl
    refine h.moveOn (fun x hx => ?_) ?_
    · simp only [Source.endedWith] at hx
      split at hx
      · next hlt =>
        rcases List.mem_append.mp hx with hx | hx
        · exact .inl hx
        · obtain rfl := List.mem_singleton.mp hx
          have hp : s.processMessages = true := by
            by_contra hp
            exact lt_asymm hlt (hl.old x.lsn hlsn (by simpa using hp))
          refine .inr ⟨fun hle => ?_, ?_⟩
          · exact absurd hle (not_le.mpr (hl.ahead x.lsn hlsn hp hlt).1)
          · exact Source.openTagged_of_some hcur ▸ htk hp
      · exact .inl hx
    · rw [taggedAll_append, taggedAll_singleton, Source.openTagged_of_some hcur]
      exact Multiset.le_add_right _ _

theorem Safe.onMessage {m : Message} (h : Safe s src) (hl : Linked s src) (htk : Taking s src)
    (hm : src.Sends m) (he : StreamsEmpty src m) : Safe s (src.onMessage s m) := by
  cases m with
  | relation rel | other => exact h
  | begin lsn =>
    refine h.moveOn (fun _ => .inl) ?_
    rw [Source.openTagged_of_none hm.1]
    exact le_refl _
  | commit lsn => exact h.finish hl htk
  | row xid rm =>
    refine h.moveOn (fun t ht => .inl (src.onRow_ended s xid rm ▸ ht)) ?_
    exact add_le_add (src.onRow_log s xid rm ▸ le_refl _) (src.openTagged_le_onRow s xid rm)
  | streamStart xid | streamStop => exact h.moveOn (fun _ => .inl) (le_refl _)
  | streamCommit xid lsn =>
    refine h.moveOn (fun t ht => ?_) (le_refl _)
    simp only [Source.onMessage, Source.onStreamCommit, Source.endedWith] at ht
    split at ht
    · next hlt =>
      rcases List.mem_append.mp ht with ht | ht
      · exact .inl ht
      · obtain rfl := List.mem_singleton.mp ht
        have hzero : (src.streamedTxn xid lsn).tagged = 0 := by
          rw [Txn.tagged, Source.streamedTxn, he hlt]
          rfl
        rw [hzero]
        exact .inr ⟨fun _ => Multiset.zero_le _, Multiset.zero_le _⟩
    · exact .inl ht
  | streamAbort xid subXid =>
    simp only [Source.onMessage, Source.onStreamAbort]
    split <;> exact h.moveOn (fun _ => .inl) (le_refl _)

/-- What is in flight of the transaction being taken, after a message. -/
theorem Taking.message {s' : State} {now : Nat} {f : Faults} {m : Message} (h : Taking s src)
    (hl : Linked s src) (hr : s.running = true) (hc : s.connected = true)
    (ht : Turn s (.message now f m) s') (hr' : s'.running = true) (hc' : s'.connected = true) :
    Taking s' (src.onMessage s m) := by
  cases ht with
  | off hoff => cases hr.symm.trans hoff
  | unplugged hun => cases hc.symm.trans hun
  | aside b ha =>
    have hopen : (src.onMessage s m).openTagged = src.openTagged := by
      cases m with
      | streamAbort xid subXid =>
        simp only [Source.onMessage, Source.onStreamAbort]
        split <;> rfl
      | streamStart _ | streamStop | streamCommit _ _ | other => rfl
      | relation _ | begin _ | commit _ | row _ _ => cases ha
    exact fun hp => hopen ▸ h hp
  | skipped hp => exact fun ht => absurd (ht.symm.trans hp) (by decide)
  | @row _ xid _ rm s₁ hp _ htk =>
    intro _
    have happ : applied (markDirty s₁) = applied s₁ := rfl
    rw [happ, htk.applied, Source.onMessage, Source.onRow_of_none (hl.segment hp),
      Source.openTagged_add (hl.lsn hp)]
    exact add_le_add_left (h hp) _
  | rowFails _ _ _ => cases hc'
  | @relation _ _ rel s₁ hrd =>
    intro hp
    have hp' : s.processMessages = true := by
      cases hrd with
      | fresh _ => exact hp
      | known _ hcm => exact hcm.frame.2.2.2 ▸ hp
    rw [applied_registered, hrd.applied]
    exact h hp'
  | relationFails _ => cases hc'
  | stale _ => exact fun hp => by cases hp
  | extendBegin _ _ | begin _ _ _ => exact fun _ => Multiset.zero_le _
  | extendCommit _ | commit _ _ => exact fun hp => by cases hp
  | breaks hb => cases hc'.symm.trans hb.connected
  | ends _ => cases hr'

theorem Taking.tick {s' : State} {now : Nat} {f : Faults} (h : Taking s src)
    (ht : Turn s (.tick now f) s') (hr' : s'.running = true) : Taking s' src := by
  cases ht with
  | off _ | wait => exact h
  | tick _ _ _ hcm =>
    intro hp
    rw [hcm.applied]
    exact h (hcm.frame.2.2.2 ▸ hp)
  | ends _ => cases hr'

end Source

/-! ## Runs -/

/-- The invariant: the changes are safe, and while the connection is up
the replicator is in the transaction being sent. -/
structure Lossless (r : Replica) : Prop where
  safe : Safe r.state r.source
  link : r.state.running = true → r.state.connected = true →
    Linked r.state r.source ∧ Taking r.state r.source

/-- The source sends what it can send, and every streamed transaction that
commits is empty. -/
def SentWhole (r : Replica) : Input → Prop
  | .message _ _ m => r.source.Sends m ∧ StreamsEmpty r.source m
  | .tick _ _ => True
  | .stop _ _ => True
  | .reconnect _ => True

namespace Lossless

variable {r : Replica}

theorem message {now : Nat} {f : Faults} {m : Message} (h : Lossless r)
    (hr : r.state.running = true) (hc : r.state.connected = true) (hs : r.source.Sends m)
    (he : StreamsEmpty r.source m) : Lossless (r.step (.message now f m)) := by
  obtain ⟨hl, htk⟩ := h.link hr hc
  have ht := handle_turn r.state (.message now f m)
  have hsrc : r.source.onInput r.state (.message now f m) = r.source.onMessage r.state m := by
    simp [Source.onInput, hr, hc]
  rw [Replica.step, hsrc]
  refine ⟨(h.safe.onMessage hl htk hs he).turn hr (fun _ => hc) (fun _ heq => by cases heq) ?_ ht,
    fun hr' hc' => ⟨hl.message hs hr hc ht hr' hc', htk.message hl hr hc ht hr' hc'⟩⟩
  rintro now' f' xid rm heq hp
  obtain ⟨-, -, rfl⟩ := Input.message.inj heq
  rw [Source.onMessage, Source.onRow_log, Source.onRow_of_none (hl.segment hp),
    Source.openTagged_add (hl.lsn hp), ← add_assoc]
  exact add_le_add_left h.safe.bounded _

theorem tick {now : Nat} {f : Faults} (h : Lossless r) (hr : r.state.running = true)
    (hc : r.state.connected = true) : Lossless (r.step (.tick now f)) := by
  obtain ⟨hl, htk⟩ := h.link hr hc
  have ht := handle_turn r.state (.tick now f)
  have hsrc : r.source.onInput r.state (.tick now f) = r.source := by simp [Source.onInput]
  rw [Replica.step, hsrc]
  exact ⟨h.safe.turn hr (fun _ => hc) (fun _ heq => by cases heq)
    (fun _ _ _ _ heq => by cases heq) ht, fun hr' _ => ⟨hl.tick ht hr', htk.tick ht hr'⟩⟩

theorem stop {now : Nat} {f : Faults} (h : Lossless r) (hr : r.state.running = true) :
    Lossless (r.step (.stop now f)) := by
  have ht := handle_turn r.state (.stop now f)
  have hsrc : r.source.onInput r.state (.stop now f) = r.source := by simp [Source.onInput]
  have hoff : (handle r.state (.stop now f)).running = false := by
    simp [handle, hr, shutdown, crash]
  rw [Replica.step, hsrc]
  exact ⟨h.safe.turn hr (fun heq => by cases heq) (fun _ heq => by cases heq)
    (fun _ _ _ _ heq => by cases heq) ht, fun hr' => absurd (hr'.symm.trans hoff) (by decide)⟩

/-- A new connection: what is not written will be sent again. -/
theorem reconnect {now : Nat} (h : Lossless r) (hr : r.state.running = true) :
    Lossless (r.step (.reconnect now)) := by
  have hstep : r.step (.reconnect now) = ⟨reset now r.state, r.source.restart r.state⟩ := by
    simp [Replica.step, handle, Source.onInput, hr]
  have hended : ∀ t ∈ (r.source.restart r.state).ended,
      t.tagged ≤ changesOf r.state.session.durable.flatten := by
    intro t ht
    obtain ⟨hmem, hle⟩ := List.mem_filter.mp ht
    exact h.safe.written t hmem (by simpa using hle)
  have hlog : taggedAll (r.source.restart r.state).log
      = taggedAll r.source.log + r.source.openTagged := by
    rw [Source.restart, taggedAll_append]
    congr 1
    cases hcur : r.source.current with
    | none => exact (Source.openTagged_of_none hcur).symm
    | some t => exact (taggedAll_singleton t).trans (Source.openTagged_of_some hcur).symm
  rw [hstep]
  refine ⟨⟨fun t ht _ => hended t ht, fun _ _ t ht => ?_, ?_⟩, fun _ _ => ⟨.reset now _ _, ?_⟩⟩
  · exact (hended t ht).trans (Multiset.le_add_right _ _)
  · rw [hlog]
    exact (applied_reset_le now r.state).trans (h.safe.bounded.trans (Multiset.le_add_right _ _))
  · exact fun hp => by cases hp

theorem step {i : Input} (h : Lossless r) (hs : SentWhole r i) : Lossless (r.step i) := by
  by_cases hr : r.state.running = true
  swap
  · rwa [Replica.step_of_stopped (by simpa using hr)]
  by_cases hc : r.state.connected = true
  · cases i with
    | message now f m => exact h.message hr hc hs.1 hs.2
    | tick now f => exact h.tick hr hc
    | stop now f => exact h.stop hr
    | reconnect now => exact h.reconnect hr
  · have hun : r.state.connected = false := by simpa using hc
    cases i with
    | message now f m | tick now f => rwa [Replica.step_of_unplugged hun rfl]
    | stop now f => exact h.stop hr
    | reconnect now => exact h.reconnect hr

end Lossless

theorem lossless_start (lsn : LSN) (now : Nat) : Lossless (Replica.start lsn now) where
  safe := ⟨nofun, nofun, Multiset.zero_le _⟩
  link := fun _ _ => ⟨.reset now { lastWrittenLSN := lsn } {}, nofun⟩

/-- **No committed transaction is lost.** In every state, each transaction
that committed up to the last written LSN has all its changes in the
committed data, and the committed data has only changes of transactions
sent between `Begin` and `Commit`, so none of an aborted streamed one. -/
theorem no_transaction_lost (lsn : LSN) (now : Nat) (is : List Input)
    (h : Along Replica.step SentWhole (Replica.start lsn now) is) :
    (∀ t ∈ (run Replica.step (Replica.start lsn now) is).source.ended,
      t.lsn ≤ (run Replica.step (Replica.start lsn now) is).state.lastWrittenLSN →
        t.tagged ≤ (run Replica.step (Replica.start lsn now) is).durable) ∧
      (run Replica.step (Replica.start lsn now) is).durable
        ≤ taggedAll (run Replica.step (Replica.start lsn now) is).source.log
          + (run Replica.step (Replica.start lsn now) is).source.openTagged := by
  have hloss := h.invariant Lossless (fun _ _ hr hs => hr.step hs) (lossless_start lsn now)
  exact ⟨hloss.safe.written, (Multiset.le_add_right _ _).trans hloss.safe.bounded⟩

section Samples

instance (src : Source) (m : Message) : Decidable (StreamsEmpty src m) :=
  match m with
  | .streamCommit _ _ => inferInstanceAs (Decidable (_ → _))
  | .relation _ | .begin _ | .commit _ | .row _ _ | .streamStart _ | .streamStop
  | .streamAbort _ _ | .other => isTrue trivial

instance (r : Replica) (i : Input) : Decidable (SentWhole r i) :=
  match i with
  | .message _ _ _ => inferInstanceAs (Decidable (_ ∧ _))
  | .tick _ _ => isTrue trivial
  | .stop _ _ => isTrue trivial
  | .reconnect _ => isTrue trivial

/-- A streamed transaction is aborted; a flush fails in the middle of the
transaction behind it, which is sent again. -/
def abortedStream : List Input :=
  [.got 1 (.relation sampleRelation), .got 2 (.streamStart 7),
    .got 3 (.row 7 (.insert 1 (sampleTuple 1 "a"))), .got 4 .streamStop, .got 5 (.streamAbort 7 7),
    .got 6 (.begin 20), .got 7 (.row 0 (.insert 1 (sampleTuple 2 "b"))),
    .message 8 { flush := fun _ => true } (.commit 20), .reconnect 9,
    .got 10 (.relation sampleRelation), .got 11 (.begin 20),
    .got 12 (.row 0 (.insert 1 (sampleTuple 2 "b"))), .got 13 (.commit 20)]

theorem no_transaction_lost_sample :
    Along Replica.step SentWhole (Replica.start 10 0) abortedStream ∧
      ∀ t ∈ (run Replica.step (Replica.start 10 0) abortedStream).source.ended,
        t.lsn ≤ (run Replica.step (Replica.start 10 0) abortedStream).state.lastWrittenLSN →
          t.tagged ≤ (run Replica.step (Replica.start 10 0) abortedStream).durable :=
  have h : Along Replica.step SentWhole (Replica.start 10 0) abortedStream := by decide
  ⟨h, (no_transaction_lost 10 0 abortedStream h).1⟩

/-- A transaction is streamed and commits; another one commits behind
it. -/
def committedStream : List Input :=
  [.got 1 (.relation sampleRelation), .got 2 (.streamStart 7),
    .got 3 (.row 7 (.insert 1 (sampleTuple 1 "a"))), .got 4 .streamStop,
    .got 5 (.streamCommit 7 50), .got 6 (.begin 60),
    .got 7 (.row 0 (.insert 1 (sampleTuple 2 "b"))), .got 8 (.commit 60)]

/-- The last written LSN passes the streamed transaction, and its row is
not there. -/
theorem streamed_transaction_is_lost :
    Along Replica.step Replica.Sent (Replica.start 10 0) committedStream ∧
      (run Replica.step (Replica.start 10 0) committedStream).source.ended.head?
        = some ⟨50, [.row ⟨"public", "t"⟩ .insert [.int 1, .text "a"]]⟩ ∧
      (run Replica.step (Replica.start 10 0) committedStream).state.lastWrittenLSN = 60 ∧
      (run Replica.step (Replica.start 10 0) committedStream).durable
        = {(60, .row ⟨"public", "t"⟩ .insert [.int 2, .text "b"])} := by
  decide

end Samples

end MyDuck.Logrepl
