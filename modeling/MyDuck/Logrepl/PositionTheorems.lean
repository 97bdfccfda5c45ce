/-
MyDuck.Logrepl.PositionTheorems — the LSNs of the replicator against the
stream it reads.

`Live` is what holds of the state and the source while the connection is
up, whatever is sent: an open DuckDB transaction or a dirty one means that
the stream has caught up with the last written LSN, and a skipped
transaction finds neither. `Synced` adds what survives a lost connection:
the LSN stored in the subscription is the one in memory.

The two positions never move back as long as no known relation is sent
again while a DuckDB transaction is open behind a skipped one
(`lsn_never_moves_back`). A transaction that is sent again is not applied
again as long as its LSN is not the last written one itself
(`resent_not_applied`).
-/
import MyDuck.Logrepl.ReplicatorTheorems

namespace MyDuck.Logrepl

open MyDuck.Delta

/-! ## Turns and the source -/

/-- The inputs that come over the connection, or need it. -/
def Input.needsConnection : Input → Bool
  | .message _ _ _ | .tick _ _ => true
  | .stop _ _ | .reconnect _ => false

theorem handle_of_stopped {s : State} {i : Input} (h : s.running = false) : handle s i = s := by
  simp [handle, h]

theorem handle_of_unplugged {s : State} {i : Input} (h : s.connected = false)
    (hi : i.needsConnection = true) : handle s i = s := by
  cases i with
  | message now f m | tick now f => simp [handle, h]
  | stop now f | reconnect now => cases hi

namespace Replica

variable {r : Replica} {i : Input}

theorem step_of_stopped (h : r.state.running = false) : r.step i = r := by
  have hsrc : r.source.onInput r.state i = r.source := by simp [Source.onInput, h]
  rw [step, handle_of_stopped h, hsrc]

theorem step_of_unplugged (h : r.state.connected = false) (hi : i.needsConnection = true) :
    r.step i = r := by
  have hsrc : r.source.onInput r.state i = r.source := by
    cases i with
    | message now f m => simp [Source.onInput, h]
    | tick now f => simp [Source.onInput]
    | stop now f | reconnect now => cases hi
  rw [step, handle_of_unplugged h hi, hsrc]

end Replica

namespace Source

/-- The commit LSN of the transaction being sent. -/
def lsn? (src : Source) : Option LSN := src.current.map Txn.lsn

theorem lsn?_eq_none {src : Source} : src.lsn? = none ↔ src.current = none := Option.map_eq_none_iff

@[simp] theorem add_lsn? (cs : List Change) (src : Source) : (src.add cs).lsn? = src.lsn? := by
  cases h : src.current <;> simp [add, lsn?, h]

section

variable (s : State) (xid : Nat) (m : RowMessage) (src : Source)

@[simp] theorem onRow_lsn? : (src.onRow s xid m).lsn? = src.lsn? := by
  unfold onRow
  split
  · rfl
  · exact add_lsn? _ src

@[simp] theorem onRow_log : (src.onRow s xid m).log = src.log := by
  unfold onRow
  split <;> rfl

@[simp] theorem onRow_last : (src.onRow s xid m).last = src.last := by
  unfold onRow
  split <;> rfl

end

theorem finish_lsn? (src : Source) : src.finish.lsn? = none := by
  unfold finish
  cases h : src.current with
  | none => simp [lsn?, h]
  | some t => rfl

@[simp] theorem finish_last (src : Source) : src.finish.last = src.last := by
  unfold finish
  split <;> rfl

/-- Messages between transactions leave the transaction being sent alone
and move the stream forward. -/
theorem onMessage_aside {s : State} {m : Message} {src : Source} (hm : m.isAside = true)
    (h : src.Sends m) : (src.onMessage s m).lsn? = src.lsn? ∧ src.last ≤ (src.onMessage s m).last ∧
      (src.lsn?.isSome = true → (src.onMessage s m).last = src.last) := by
  cases m with
  | streamCommit xid lsn =>
    refine ⟨rfl, h.2.2.2.le, fun hsome => ?_⟩
    rw [lsn?_eq_none.mpr h.1] at hsome
    cases hsome
  | streamAbort xid subXid =>
    simp only [onMessage, onStreamAbort]
    split <;> exact ⟨rfl, le_refl _, fun _ => rfl⟩
  | streamStart xid | streamStop | other => exact ⟨rfl, le_refl _, fun _ => rfl⟩
  | relation _ | begin _ | commit _ | row _ _ => cases hm

end Source

/-! ## While the connection is up -/

/-- The LSNs and flags of a connected replicator against the stream. -/
structure Live (s : State) (src : Source) : Prop where
  idle : src.lsn? = none → s.processMessages = false
  between : src.lsn? = none → s.session.txn.isSome = true → s.lastWrittenLSN ≤ s.lastCommitLSN
  taken : ∀ lsn, src.lsn? = some lsn → s.processMessages = true → s.lastWrittenLSN ≤ lsn
  stale : src.lsn?.isSome = true → s.processMessages = false →
    s.session.txn = none ∧ s.dirtyTxn = false
  lsn : ∀ lsn, src.lsn? = some lsn → lsn = src.last
  opened : s.session.txn.isSome = true → s.lastWrittenLSN ≤ src.last
  dirty : s.dirtyTxn = true → s.lastWrittenLSN ≤ src.last
  clean : s.dirtyTxn = true → s.dirtyStream = false → s.lastWrittenLSN ≤ s.lastCommitLSN
  bound : s.lastCommitLSN ≤ max src.last s.lastWrittenLSN

namespace Live

variable {s s' : State} {src src' : Source}

section

variable (h : Live s src)

include h

/-- The stream moved on between two transactions. -/
theorem moveOn (hcur : src'.lsn? = src.lsn?) (hlast : src.last ≤ src'.last)
    (hsame : src.lsn?.isSome = true → src'.last = src.last) : Live s src' where
  idle := hcur ▸ h.idle
  between := hcur ▸ h.between
  taken := hcur ▸ h.taken
  stale := hcur ▸ h.stale
  lsn := by
    intro lsn heq
    rw [hcur] at heq
    rw [hsame (by rw [heq]; rfl)]
    exact h.lsn lsn heq
  opened := fun ho => (h.opened ho).trans hlast
  dirty := fun hd => (h.dirty hd).trans hlast
  clean := h.clean
  bound := h.bound.trans (max_le_max_right _ hlast)

/-- A transaction being taken is not behind the last written LSN. -/
theorem lastCommit_le {lsn : LSN} (hl : src.lsn? = some lsn) (hp : s.processMessages = true) :
    s.lastCommitLSN ≤ lsn := by
  have hbound := h.bound
  rw [← h.lsn lsn hl] at hbound
  exact hbound.trans (max_le (le_refl _) (h.taken lsn hl hp))

theorem afterCommit (now : Nat) (reason : FlushReason) :
    Live (afterCommit now reason s) src where
  idle := h.idle
  between := fun _ ho => absurd ho (by simp [Logrepl.afterCommit])
  taken := fun _ hl hp => h.lastCommit_le hl hp
  stale := fun _ _ => ⟨rfl, rfl⟩
  lsn := h.lsn
  opened := fun ho => absurd ho (by simp [Logrepl.afterCommit])
  dirty := fun hd => absurd hd (by simp [Logrepl.afterCommit])
  clean := fun hd => absurd hd (by simp [Logrepl.afterCommit])
  bound := le_max_right _ _

theorem commits {now : Nat} {reason : FlushReason} (hc : Commits now reason s s') :
    Live s' src := by
  cases hc with
  | idle _ => exact h
  | done _ => exact h.afterCommit now reason

/-- Fields the invariant does not read. -/
theorem registered (rel : Relation) : Live (registered rel s) src := by
  have htxn := registered_txn_isSome rel s
  have hnone : s.session.txn = none → (Logrepl.registered rel s).session.txn = none := by
    intro hs
    rw [← Option.not_isSome_iff_eq_none, htxn, hs]
    decide
  exact ⟨h.idle, fun hn ho => h.between hn (htxn ▸ ho), h.taken,
    fun hs hp => ⟨hnone (h.stale hs hp).1, (h.stale hs hp).2⟩, h.lsn,
    fun ho => h.opened (htxn ▸ ho), h.dirty, h.clean, h.bound⟩

theorem readies {now : Nat} {rel : Relation} (hr : Readies now rel s s') : Live s' src := by
  cases hr with
  | fresh _ => exact h
  | known _ hc => exact h.commits hc

theorem takes {x : Changes} (hp : s.processMessages = true) (ht : Takes s s' x) :
    Live (markDirty s') src := by
  have hsome : ∀ {p : Prop}, src.lsn? = none → p := fun hn =>
    absurd (h.idle hn) (by rw [hp]; decide)
  obtain ⟨lsn, hl⟩ : ∃ lsn, src.lsn? = some lsn := by
    cases hl : src.lsn? with
    | none => exact hsome hl
    | some lsn => exact ⟨lsn, rfl⟩
  have hlast : s.lastWrittenLSN ≤ src.last := h.lsn lsn hl ▸ h.taken lsn hl hp
  rw [ht.frame]
  exact ⟨fun hn => hsome hn, fun hn => hsome hn, h.taken, fun _ hf => absurd (hp.symm.trans hf)
    (by decide), h.lsn, fun _ => hlast, fun _ => hlast, nofun, h.bound⟩

/-- A transaction that is skipped begins: nothing is open. -/
theorem skips {lsn : LSN} (hlast : src.last < lsn) (hlt : lsn < s.lastWrittenLSN) :
    Live { s with processMessages := false }
      { src with current := some ⟨lsn, []⟩, last := lsn } := by
  have hbehind : ¬ s.lastWrittenLSN ≤ src.last := not_le.mpr (hlast.trans hlt)
  have hnone : s.session.txn = none :=
    Option.not_isSome_iff_eq_none.mp fun ho => hbehind (h.opened ho)
  have hdirty : s.dirtyTxn = false := by
    simpa using fun hd => hbehind (h.dirty hd)
  exact {
    idle := fun _ => rfl
    between := nofun
    taken := nofun
    stale := fun _ _ => ⟨hnone, hdirty⟩
    lsn := fun _ hl => (Option.some.inj hl).symm
    opened := fun ho => absurd (h.opened ho) hbehind
    dirty := fun hd => absurd (h.dirty hd) hbehind
    clean := h.clean
    bound := h.bound.trans (max_le_max_right _ hlast.le) }

theorem begins {lsn : LSN} (hlast : src.last < lsn) (hle : s.lastWrittenLSN ≤ lsn) :
    Live (begun lsn s) { src with current := some ⟨lsn, []⟩, last := lsn } where
  idle := nofun
  between := nofun
  taken := fun l hl _ => Option.some.inj hl ▸ hle
  stale := nofun
  lsn := fun l hl => (Option.some.inj hl).symm
  opened := fun _ => hle
  dirty := fun _ => hle
  clean := h.clean
  bound := h.bound.trans (max_le_max_right _ hlast.le)

theorem opens {lsn : LSN} (hl : src.lsn? = some lsn) (hp : s.processMessages = true) :
    Live (Logrepl.opened s) src where
  idle := h.idle
  between := fun hn => by rw [hl] at hn; cases hn
  taken := h.taken
  stale := fun _ hf => absurd (hp.symm.trans hf) (by decide)
  lsn := h.lsn
  opened := fun _ => h.lsn lsn hl ▸ h.taken lsn hl hp
  dirty := h.dirty
  clean := h.clean
  bound := h.bound

/-- A `Commit` message names the transaction being sent. -/
theorem counts {lsn : LSN} (hl : src.lsn? = some lsn) :
    Live (counted lsn s) src where
  idle := h.idle
  between := fun hn => by rw [hl] at hn; cases hn
  taken := h.taken
  stale := h.stale
  lsn := h.lsn
  opened := h.opened
  dirty := h.dirty
  clean := fun hd hs => by
    cases hp : s.processMessages with
    | true => exact h.taken lsn hl hp
    | false => exact absurd hd (by simp [counted, (h.stale (by rw [hl]; rfl) hp).2])
  bound := le_max_of_le_left (h.lsn lsn hl).le

/-- The end of the transaction being sent, once what it left open is not
behind the last written LSN. -/
theorem finishes (ho : s.session.txn.isSome = true → s.lastWrittenLSN ≤ s.lastCommitLSN)
    (hd : s.dirtyTxn = true → s.lastWrittenLSN ≤ s.lastCommitLSN) :
    Live (finished s) src.finish where
  idle := fun _ => rfl
  between := fun _ => ho
  taken := fun _ hl => by rw [Source.finish_lsn?] at hl; cases hl
  stale := fun hs => by rw [Source.finish_lsn?] at hs; cases hs
  lsn := fun _ hl => by rw [Source.finish_lsn?] at hl; cases hl
  opened := fun ho => src.finish_last.symm ▸ h.opened ho
  dirty := fun hd => src.finish_last.symm ▸ h.dirty hd
  clean := fun hdt _ => hd hdt
  bound := src.finish_last.symm ▸ h.bound

/-- What is open or dirty at the `Commit` of the transaction being sent
belongs to a transaction that is taken. -/
theorem counted_le {lsn : LSN} (hl : src.lsn? = some lsn) :
    (s.session.txn.isSome = true → s.lastWrittenLSN ≤ lsn) ∧
      (s.dirtyTxn = true → s.lastWrittenLSN ≤ lsn) := by
  cases hp : s.processMessages with
  | true => exact ⟨fun _ => h.taken lsn hl hp, fun _ => h.taken lsn hl hp⟩
  | false =>
    obtain ⟨hnone, hdirty⟩ := h.stale (by rw [hl]; rfl) hp
    rw [hnone, hdirty]
    exact ⟨nofun, nofun⟩

end

theorem reset (now : Nat) (s : State) (src : Source) : Live (reset now s) (src.restart s) where
  idle := fun _ => rfl
  between := nofun
  taken := nofun
  stale := nofun
  lsn := nofun
  opened := nofun
  dirty := nofun
  clean := nofun
  bound := le_max_right _ _

end Live

/-- One turn of a connected replicator on a message the source can send. -/
theorem Live.message {s s' : State} {src : Source} {now : Nat} {f : Faults} {m : Message}
    (h : Live s src) (hm : src.Sends m) (hr : s.running = true) (hc : s.connected = true)
    (ht : Turn s (.message now f m) s') :
    s'.running = true → s'.connected = true → Live s' (src.onMessage s m) := by
  intro hr' hc'
  cases ht with
  | off hoff => cases hr.symm.trans hoff
  | unplugged hun => cases hc.symm.trans hun
  | aside b ha =>
    obtain ⟨hcur, hlast, hsame⟩ := Source.onMessage_aside (s := s) ha hm
    have h' := h.moveOn hcur hlast hsame
    exact ⟨h'.idle, h'.between, h'.taken, h'.stale, h'.lsn, h'.opened, h'.dirty, h'.clean, h'.bound⟩
  | skipped hp =>
    exact h.moveOn (src.onRow_lsn? s _ _) (src.onRow_last s _ _).ge fun _ => src.onRow_last s _ _
  | row hp _ htk =>
    exact (h.takes hp htk).moveOn (src.onRow_lsn? s _ _) (src.onRow_last s _ _).ge fun _ =>
      src.onRow_last s _ _
  | rowFails hp hx htk => cases hc'
  | relation hrd => exact (h.readies hrd).registered _
  | relationFails hrd => cases hc'
  | stale hlt => exact h.skips hm.2.2 hlt
  | extendBegin hle he => exact h.begins hm.2.2 hle
  | begin hle he hcm =>
    have hb := (h.begins hm.2.2 hle).commits hcm
    refine hb.opens rfl ?_
    cases hcm with
    | idle _ => rfl
    | done _ => rfl
  | extendCommit he =>
    obtain ⟨ho, hd⟩ := h.counted_le hm
    exact (h.counts hm).finishes ho hd
  | commit he hcm =>
    refine ((h.counts hm).commits hcm).finishes ?_ ?_
    · cases hcm with
      | idle hn => intro ho; rw [hn] at ho; cases ho
      | done _ => intro ho; cases ho
    · cases hcm with
      | idle hn => exact (h.counted_le hm).2
      | done _ => intro hd; cases hd
  | breaks hb => cases hc'.symm.trans hb.connected
  | ends hcl => cases hr'

/-! ## The stored LSN -/

/-- The LSN an operation stores in the subscription. -/
def Op.lsn? : Op → Option LSN
  | .updateSubscriptionLsn lsn => some lsn
  | _ => none

/-- `subskiplsn` after a list of operations. -/
def storedLSN (lsn : LSN) (ops : List Op) : LSN := (ops.filterMap Op.lsn?).getLast?.getD lsn

/-- The stored LSN is the one in memory. -/
def Stored (lsn : LSN) (s : State) : Prop :=
  storedLSN lsn s.session.durable.flatten = s.lastWrittenLSN

theorem Stored.afterCommit (lsn : LSN) (now : Nat) (reason : FlushReason) (s : State) :
    Stored lsn (afterCommit now reason s) := by
  simp [Stored, Logrepl.afterCommit, commitOps, storedLSN, List.filterMap_append, Op.lsn?]

theorem Stored.registered {lsn : LSN} {s : State} (h : Stored lsn s) (rel : Relation) :
    Stored lsn (registered rel s) := by
  simp only [Stored, Logrepl.registered, Session.exec] at h ⊢
  cases hs : s.session.txn with
  | some ops => exact h
  | none =>
    rw [← h]
    simp [storedLSN, Op.lsn?]

/-- The positions of `s'` are those of `s`, or later ones. -/
structure Advances (lsn : LSN) (s s' : State) : Prop where
  stored : Stored lsn s → Stored lsn s'
  le : s.lastWrittenLSN ≤ s'.lastWrittenLSN

namespace Advances

variable {lsn : LSN} {s s' s'' : State}

theorem of_same (hd : s'.session.durable = s.session.durable)
    (hl : s'.lastWrittenLSN = s.lastWrittenLSN) : Advances lsn s s' where
  stored := fun h => by rw [Stored, hd, hl]; exact h
  le := hl.ge

theorem trans (h : Advances lsn s s') (h' : Advances lsn s' s'') : Advances lsn s s'' :=
  ⟨h'.stored ∘ h.stored, h.le.trans h'.le⟩

theorem afterCommit (now : Nat) (reason : FlushReason) (h : s.lastWrittenLSN ≤ s.lastCommitLSN) :
    Advances lsn s (afterCommit now reason s) :=
  ⟨fun _ => Stored.afterCommit lsn now reason s, h⟩

theorem commits {now : Nat} {reason : FlushReason} (hc : Commits now reason s s')
    (h : s.session.txn.isSome = true → s.lastWrittenLSN ≤ s.lastCommitLSN) : Advances lsn s s' := by
  cases hc with
  | idle _ => exact of_same rfl rfl
  | done ho => exact afterCommit now reason (h ho)

theorem takes {x : Changes} (h : Takes s s' x) : Advances lsn s s' :=
  of_same h.durable (by rw [h.frame])

end Advances

/-! ## Whole runs -/

/-- The invariant: the stored LSN is the one in memory, a batch that a
stop would commit is not behind it, and the connection is live. -/
structure Synced (lsn : LSN) (r : Replica) : Prop where
  stored : Stored lsn r.state
  clean : r.state.session.txn.isSome = true → r.state.dirtyTxn = true →
    r.state.dirtyStream = false → r.state.lastWrittenLSN ≤ r.state.lastCommitLSN
  live : r.state.running = true → r.state.connected = true → Live r.state r.source

/-- A relation that is already known does not come while a DuckDB
transaction is open and the last commit message is behind the last written
LSN. -/
def RelationInOrder (s : State) : Input → Prop
  | .message _ _ (.relation rel) => (s.relations.lookup rel.id).isSome = true →
      s.session.txn.isSome = true → s.lastWrittenLSN ≤ s.lastCommitLSN
  | _ => True

/-- A turn that a stop ends commits a clean batch at most. -/
theorem Advances.closes {lsn : LSN} {s s' : State} (hcl : Closes s s')
    (h : s.session.txn.isSome = true → s.dirtyTxn = true → s.dirtyStream = false →
      s.lastWrittenLSN ≤ s.lastCommitLSN) : Advances lsn s (crash s') := by
  have hclosed : Advances lsn s s' := by
    cases hcl with
    | asIs => exact .of_same rfl rfl
    | flushed now reason hd hs ho => exact .afterCommit now reason (h ho hd hs)
    | failed hrb => exact .of_same (by rw [hrb.frame]; rfl) (by rw [hrb.frame])
  exact hclosed.trans (.of_same rfl rfl)

theorem message_advances {lsn : LSN} {s s' : State} {src : Source} {now : Nat} {f : Faults}
    {m : Message} (h : Live s src) (hm : src.Sends m)
    (hc : RelationInOrder s (.message now f m)) (ht : Turn s (.message now f m) s') :
    Advances lsn s s' := by
  have hready : ∀ {rel : Relation} {s' : State}, m = .relation rel → Readies now rel s s' →
      Advances lsn s s' := by
    rintro rel s' rfl hr
    cases hr with
    | fresh _ => exact .of_same rfl rfl
    | known hk hcm => exact .commits hcm (hc hk)
  cases ht with
  | off _ | unplugged _ | aside b _ | skipped _ => exact .of_same rfl rfl
  | row _ _ htk => exact (Advances.takes htk).trans (.of_same rfl rfl)
  | rowFails _ _ htk => exact (Advances.takes htk).trans (.of_same rfl rfl)
  | relation hr =>
    exact (hready rfl hr).trans ⟨fun hst => hst.registered _, le_refl _⟩
  | relationFails hr => exact (hready rfl hr).trans (.of_same rfl rfl)
  | stale _ | extendBegin _ _ => exact .of_same rfl rfl
  | begin _ _ hcm =>
    -- between two transactions
    have hadv : Advances lsn _ _ := .commits hcm (h.between (Source.lsn?_eq_none.mpr hm.1))
    exact ⟨fun hst => hadv.stored hst, hadv.le⟩
  | extendCommit _ => exact .of_same rfl rfl
  | commit _ hcm =>
    have hadv : Advances lsn _ _ := .commits hcm (h.counted_le hm).1
    exact ⟨fun hst => hadv.stored hst, hadv.le⟩
  | breaks hb => exact .of_same hb.durable hb.lastWrittenLSN
  | ends hcl => exact .closes hcl fun _ => h.clean

/-- After a message, also one that broke the connection, a stop commits
nothing that is behind the last written LSN. -/
theorem message_clean {s s' : State} {src : Source} {now : Nat} {f : Faults} {m : Message}
    (h : Live s src) (hm : src.Sends m) (ht : Turn s (.message now f m) s')
    (ho : s'.session.txn.isSome = true) (hd : s'.dirtyTxn = true) (hs : s'.dirtyStream = false) :
    s'.lastWrittenLSN ≤ s'.lastCommitLSN := by
  cases ht with
  | off _ | unplugged _ | aside b _ | skipped _ => exact h.clean hd hs
  | row _ _ _ => cases hs
  | rowFails _ _ htk =>
    rw [htk.frame] at hd hs ⊢
    exact h.clean hd hs
  | relation hrd => exact (h.readies hrd).clean hd hs
  | relationFails hrd => exact (h.readies hrd).clean hd hs
  | stale _ | extendBegin _ _ => exact h.clean hd hs
  | begin hle _ hcm => exact ((h.begins hm.2.2 hle).commits hcm).clean hd hs
  | extendCommit _ => exact (h.counted_le hm).2 hd
  | commit _ hcm =>
    cases hcm with
    | idle _ => exact (h.counted_le hm).2 hd
    | done _ => cases hd
  | breaks hb => rw [hb.txn] at ho; cases ho
  | ends _ => cases ho

theorem Synced.turn {lsn : LSN} {r : Replica} {i : Input} {s' : State} (h : Synced lsn r)
    (hr : r.state.running = true) (hcn : i.needsConnection = true → r.state.connected = true)
    (hs : r.Sent i) (hc : RelationInOrder r.state i) (ht : Turn r.state i s') :
    Synced lsn ⟨s', r.source.onInput r.state i⟩ ∧ Advances lsn r.state s' := by
  have hended : ∀ {s' : State}, Closes r.state s' →
      Synced lsn ⟨crash s', r.source.onInput r.state i⟩ ∧ Advances lsn r.state (crash s') := by
    intro s' hcl
    have hadv : Advances lsn r.state (crash s') := .closes hcl h.clean
    exact ⟨⟨hadv.stored h.stored, nofun, nofun⟩, hadv⟩
  cases i with
  | message now f m =>
    have hconn := hcn rfl
    have hl := h.live hr hconn
    have hadv : Advances lsn r.state s' := message_advances hl hs hc ht
    have hsrc : r.source.onInput r.state (.message now f m) = r.source.onMessage r.state m := by
      simp [Source.onInput, hr, hconn]
    rw [hsrc]
    exact ⟨⟨hadv.stored h.stored, message_clean hl hs ht, hl.message hs hr hconn ht⟩, hadv⟩
  | tick now f =>
    have hl := h.live hr (hcn rfl)
    have hsrc : r.source.onInput r.state (.tick now f) = r.source := by simp [Source.onInput, hr]
    rw [hsrc] at hended ⊢
    cases ht with
    | off _ | wait => exact ⟨h, .of_same rfl rfl⟩
    | tick _ hd hst hcm =>
      have hadv : Advances lsn r.state s' := .commits hcm fun _ => hl.clean hd hst
      have hl' := hl.commits hcm
      exact ⟨⟨hadv.stored h.stored, fun _ => hl'.clean, fun _ _ => hl'⟩, hadv⟩
    | ends hcl => exact hended hcl
  | stop now f =>
    cases ht with
    | off hoff => cases hr.symm.trans hoff
    | ends hcl => exact hended hcl
  | reconnect now =>
    have hsrc : r.source.onInput r.state (.reconnect now) = r.source.restart r.state := by
      simp [Source.onInput, hr]
    cases ht with
    | off hoff => cases hr.symm.trans hoff
    | ends hcl => exact hended hcl
    | reconnect =>
      have hadv : Advances lsn r.state (reset now r.state) := .of_same rfl rfl
      exact ⟨⟨hadv.stored h.stored, nofun, fun _ _ => hsrc ▸ .reset now _ _⟩,
        hadv⟩

/-- **The step**: the invariant is kept, and the positions advance. -/
theorem Synced.step {lsn : LSN} {r : Replica} {i : Input} (h : Synced lsn r) (hs : r.Sent i)
    (hc : RelationInOrder r.state i) :
    Synced lsn (r.step i) ∧ Advances lsn r.state (r.step i).state := by
  by_cases hr : r.state.running = true
  swap
  · rw [Replica.step_of_stopped (by simpa using hr)]
    exact ⟨h, .of_same rfl rfl⟩
  by_cases hcn : r.state.connected = false ∧ i.needsConnection = true
  · rw [Replica.step_of_unplugged hcn.1 hcn.2]
    exact ⟨h, .of_same rfl rfl⟩
  · refine h.turn hr (fun hi => ?_) hs hc (handle_turn r.state i)
    simpa [hi] using hcn

theorem synced_start (lsn : LSN) (now : Nat) : Synced lsn (Replica.start lsn now) :=
  ⟨rfl, nofun, fun _ _ => .reset now { lastWrittenLSN := lsn } {}⟩

/-- The source sends what it can send, and no known relation out of
order. -/
def SentInOrder (r : Replica) (i : Input) : Prop := r.Sent i ∧ RelationInOrder r.state i

/-- **The applied position never moves backwards.** -/
theorem lsn_never_moves_back (lsn : LSN) (now : Nat) (is js : List Input)
    (h : Along Replica.step SentInOrder (Replica.start lsn now) (is ++ js)) :
    (run Replica.step (Replica.start lsn now) is).state.lastWrittenLSN
        ≤ (run Replica.step (Replica.start lsn now) (is ++ js)).state.lastWrittenLSN ∧
      storedLSN lsn (run Replica.step (Replica.start lsn now) is).state.session.durable.flatten
        ≤ storedLSN lsn
            (run Replica.step (Replica.start lsn now)
              (is ++ js)).state.session.durable.flatten := by
  obtain ⟨his, hjs⟩ := along_append.mp h
  have hsynced := his.invariant (Synced lsn) (fun r i hr hi => (hr.step hi.1 hi.2).1)
    (synced_start lsn now)
  rw [run_append]
  set r := run Replica.step (Replica.start lsn now) is
  obtain ⟨hend, hle⟩ := hjs.invariant
    (fun r' => Synced lsn r' ∧ r.state.lastWrittenLSN ≤ r'.state.lastWrittenLSN)
    (fun r' i hr' hi =>
      have hstep := hr'.1.step hi.1 hi.2
      ⟨hstep.1, hr'.2.trans hstep.2.le⟩)
    ⟨hsynced, le_refl _⟩
  refine ⟨hle, ?_⟩
  rw [hsynced.stored, hend.stored]
  exact hle

section Samples

def sampleRelation : Relation where
  id := 1
  schemaName := "public"
  relationName := "t"
  columns := [⟨"id", 1, 23, -1⟩, ⟨"v", 0, 25, -1⟩]

def sampleTuple (k : Int) (v : String) : Tuple := [.value (.int k) 4, .value (.text v) 1]

def Input.got (now : Nat) (m : Message) : Input := .message now {} m

/-- The first session finds a transaction from before the stored LSN, and
later the schema of a known relation in the middle of a transaction. -/
def staleThenRelation : List Input :=
  [.got 1 (.relation sampleRelation), .got 2 (.begin 5), .got 3 (.commit 5), .got 4 (.begin 20),
    .got 5 (.row 0 (.insert 1 (sampleTuple 1 "a"))), .got 6 (.relation sampleRelation)]

instance (s : State) (i : Input) : Decidable (RelationInOrder s i) :=
  match i with
  | .message _ _ (.relation _) => inferInstanceAs (Decidable (_ → _ → _))
  | .message _ _ (.begin _) | .message _ _ (.commit _) | .message _ _ (.row _ _)
  | .message _ _ (.streamStart _) | .message _ _ .streamStop | .message _ _ (.streamCommit _ _)
  | .message _ _ (.streamAbort _ _) | .message _ _ .other => isTrue trivial
  | .tick _ _ | .stop _ _ | .reconnect _ => isTrue trivial

instance (r : Replica) (i : Input) : Decidable (SentInOrder r i) :=
  inferInstanceAs (Decidable (_ ∧ _))

/-- A skipped transaction, a batch of two and a repeated relation between
transactions. -/
def sampleStream : List Input :=
  [.got 1 (.relation sampleRelation), .got 2 (.begin 5), .got 3 (.commit 5), .got 4 (.begin 20),
    .got 5 (.row 0 (.insert 1 (sampleTuple 1 "a"))), .got 6 (.commit 20),
    .got 7 (.relation sampleRelation), .got 8 (.begin 30),
    .got 9 (.row 0 (.delete 1 (.key [.value (.int 1) 4, .null]))), .got 10 (.commit 30),
    .tick 300 {}]

theorem lsn_never_moves_back_sample :
    Along Replica.step SentInOrder (Replica.start 10 0)
        (sampleStream.take 3 ++ sampleStream.drop 3) ∧
      (run Replica.step (Replica.start 10 0) (sampleStream.take 3)).state.lastWrittenLSN
        ≤ (run Replica.step (Replica.start 10 0)
            (sampleStream.take 3 ++ sampleStream.drop 3)).state.lastWrittenLSN :=
  have h : Along Replica.step SentInOrder (Replica.start 10 0)
      (sampleStream.take 3 ++ sampleStream.drop 3) := by decide
  ⟨h, (lsn_never_moves_back 10 0 (sampleStream.take 3) (sampleStream.drop 3) h).1⟩

/-- The commit of a skipped transaction is written when the relation comes
again: both positions fall from 10 to 5. -/
theorem relation_after_stale_moves_back :
    Along Replica.step Replica.Sent (Replica.start 10 0) staleThenRelation ∧
      (run Replica.step (Replica.start 10 0) (staleThenRelation.take 5)).state.lastWrittenLSN = 10 ∧
      (run Replica.step (Replica.start 10 0) staleThenRelation).state.lastWrittenLSN = 5 ∧
      storedLSN 10 (run Replica.step (Replica.start 10 0)
        staleThenRelation).state.session.durable.flatten = 5 := by
  decide

end Samples

/-! ## Transactions that are sent again -/

/-- The replicator, with what was applied when the last `Begin` came, if
that was a transaction the last written LSN had already covered. -/
structure Delivery where
  state : State
  resent : Option Changes := none

namespace Delivery

def onInput (d : Delivery) : Input → Option Changes
  | .message _ _ (.begin lsn) =>
    if d.state.running && d.state.connected then
      if lsn ≤ d.state.lastWrittenLSN then some (applied d.state) else none
    else d.resent
  | .reconnect _ => if d.state.running then none else d.resent
  | _ => d.resent

def step (d : Delivery) (i : Input) : Delivery := ⟨handle d.state i, d.onInput i⟩

def start (lsn : LSN) (now : Nat) : Delivery := ⟨State.started lsn now, none⟩

/-- No `Begin` has the last written LSN itself. -/
def NotLast (d : Delivery) : Input → Prop
  | .message _ _ (.begin lsn) => lsn ≠ d.state.lastWrittenLSN
  | _ => True

/-- While a transaction is being sent again nothing is taken in. -/
structure Skips (d : Delivery) : Prop where
  le : ∀ x, d.resent = some x → applied d.state ≤ x
  off : ∀ x, d.resent = some x → d.state.running = true → d.state.connected = true →
    d.state.processMessages = false

/-- A message other than a `Begin` does not end the skipping. -/
theorem off_of_turn {s s' : State} {i : Input} (h : Turn s i s')
    (hi : ∀ now f lsn, i ≠ .message now f (.begin lsn)) (hp : s.processMessages = false)
    (hr : s'.running = true) (hc : s'.connected = true) : s'.processMessages = false := by
  have hcommits : ∀ {now : Nat} {reason : FlushReason} {s s' : State}, Commits now reason s s' →
      s.processMessages = false → s'.processMessages = false := by
    intro now reason s s' hcm hp
    cases hcm with
    | idle _ | done _ => exact hp
  cases h with
  | off _ | unplugged _ | wait => exact hp
  | tick _ _ _ hcm => exact hcommits hcm hp
  | aside b _ | skipped _ => exact hp
  | row ht _ _ => cases ht.symm.trans hp
  | rowFails _ _ _ => cases hc
  | relation hrd =>
    cases hrd with
    | fresh _ => exact hp
    | known _ hcm => exact (hcommits hcm hp :)
  | relationFails _ => cases hc
  | stale _ => rfl
  | extendBegin _ _ | begin _ _ _ => exact absurd rfl (hi _ _ _)
  | extendCommit _ => rfl
  | commit _ _ => rfl
  | breaks hb => cases hc.symm.trans hb.connected
  | ends _ => cases hr
  | reconnect => rfl

/-- The `Begin` of a transaction from before the last written LSN. -/
theorem begin_off {s s' : State} {now : Nat} {f : Faults} {lsn : LSN}
    (h : Turn s (.message now f (.begin lsn)) s') (hlt : lsn < s.lastWrittenLSN)
    (hon : s.running = true) (hcn : s.connected = true) :
    applied s' ≤ applied s ∧
      (s'.running = true → s'.connected = true → s'.processMessages = false) := by
  cases h with
  | off hoff => cases hon.symm.trans hoff
  | unplugged hun => cases hcn.symm.trans hun
  | aside b hb => cases hb
  | stale _ => exact ⟨le_refl _, fun _ _ => rfl⟩
  | extendBegin hle _ => exact absurd hlt (not_lt.mpr hle)
  | begin hle _ _ => exact absurd hlt (not_lt.mpr hle)
  | breaks hb => exact ⟨hb.applied_le, fun _ hc => absurd (hc.symm.trans hb.connected) (by decide)⟩
  | ends hcl => exact ⟨hcl.applied_le, nofun⟩

theorem Skips.turn {d : Delivery} {i : Input} {s' : State} (h : d.Skips)
    (hi : ∀ now f lsn, i ≠ .message now f (.begin lsn)) (hre : ∀ now, i ≠ .reconnect now)
    (hr : d.state.running = true) (hcn : i.needsConnection = true → d.state.connected = true)
    (ht : Turn d.state i s') : Skips ⟨s', d.resent⟩ := by
  by_cases hc : d.state.connected = true
  · exact ⟨fun x hx => (ht.applied_le (h.off x hx hr hc)).trans (h.le x hx),
      fun x hx => off_of_turn ht hi (h.off x hx hr hc)⟩
  · -- without a connection only a stop is left
    cases i with
    | message now f m | tick now f => exact absurd (hcn rfl) hc
    | reconnect now => exact absurd rfl (hre now)
    | stop now f =>
      cases ht with
      | off hoff => cases hr.symm.trans hoff
      | ends hcl =>
        exact ⟨fun x hx => hcl.applied_le.trans (h.le x hx), nofun⟩

theorem Skips.step {d : Delivery} {i : Input} (h : d.Skips) (hn : d.NotLast i) :
    (d.step i).Skips := by
  have hidle : ∀ {i : Input}, handle d.state i = d.state → Skips ⟨handle d.state i, d.resent⟩ := by
    intro i hs
    rw [hs]
    exact h
  have hother : ∀ {i : Input}, (∀ now f lsn, i ≠ .message now f (.begin lsn)) →
      (∀ now, i ≠ .reconnect now) → Skips ⟨handle d.state i, d.resent⟩ := by
    intro i hi hre
    by_cases hr : d.state.running = true
    · by_cases hcn : i.needsConnection = true → d.state.connected = true
      · exact h.turn hi hre hr hcn (handle_turn d.state i)
      · rw [Classical.not_imp] at hcn
        exact hidle (handle_of_unplugged (by simpa using hcn.2) hcn.1)
    · exact hidle (handle_of_stopped (by simpa using hr))
  unfold Delivery.step onInput
  split
  · next now f lsn =>
    split_ifs with hon hle
    · obtain ⟨hr, hc⟩ : d.state.running = true ∧ d.state.connected = true := by simpa using hon
      obtain ⟨hle', hoff⟩ := begin_off (handle_turn d.state (.message now f (.begin lsn)))
        (lt_of_le_of_ne hle hn) hr hc
      exact ⟨fun x hx => Option.some.inj hx ▸ hle', fun _ _ => hoff⟩
    · exact ⟨nofun, nofun⟩
    · refine hidle ?_
      by_cases hr : d.state.running = true
      · exact handle_of_unplugged (by simpa [hr] using hon) rfl
      · exact handle_of_stopped (by simpa using hr)
  · next now =>
    split_ifs with hr
    · exact ⟨nofun, nofun⟩
    · exact hidle (handle_of_stopped (by simpa using hr))
  · next hb hre => exact hother hb hre

end Delivery

/-- **A transaction that is sent again is not applied again**: from its
`Begin` on, until the next one or the next connection, nothing is added to
what is committed or in flight. -/
theorem resent_not_applied (lsn : LSN) (now : Nat) (is : List Input)
    (h : Along Delivery.step Delivery.NotLast (Delivery.start lsn now) is) (x : Changes)
    (hx : (run Delivery.step (Delivery.start lsn now) is).resent = some x) :
    applied (run Delivery.step (Delivery.start lsn now) is).state ≤ x :=
  (h.invariant Delivery.Skips (fun _ _ hd hi => hd.step hi)
    ⟨fun _ hx => (by cases hx), fun _ hx => (by cases hx)⟩).le x hx

section Samples

instance (d : Delivery) (i : Input) : Decidable (d.NotLast i) :=
  match i with
  | .message _ _ (.begin _) => inferInstanceAs (Decidable (_ ≠ _))
  | .message _ _ (.relation _) | .message _ _ (.commit _) | .message _ _ (.row _ _)
  | .message _ _ (.streamStart _) | .message _ _ .streamStop | .message _ _ (.streamCommit _ _)
  | .message _ _ (.streamAbort _ _) | .message _ _ .other => isTrue trivial
  | .tick _ _ | .stop _ _ | .reconnect _ => isTrue trivial

/-- A transaction is committed, the connection breaks, and the source
starts again one transaction earlier. -/
def resentStream (lsn : LSN) : List Input :=
  [.got 1 (.relation sampleRelation), .got 2 (.begin 20),
    .got 3 (.row 0 (.insert 1 (sampleTuple 1 "a"))), .got 4 (.commit 20), .reconnect 5,
    .got 6 (.relation sampleRelation), .got 7 (.begin lsn),
    .got 8 (.row 0 (.insert 1 (sampleTuple 1 "a")))]

theorem resent_not_applied_sample :
    Along Delivery.step Delivery.NotLast (Delivery.start 10 0) (resentStream 15) ∧
      ∀ x, (run Delivery.step (Delivery.start 10 0) (resentStream 15)).resent = some x →
        applied (run Delivery.step (Delivery.start 10 0) (resentStream 15)).state ≤ x :=
  have h : Along Delivery.step Delivery.NotLast (Delivery.start 10 0) (resentStream 15) := by decide
  ⟨h, resent_not_applied 10 0 (resentStream 15) h⟩

/-- The transaction with the last written LSN itself is applied a second
time. -/
theorem last_written_applied_again :
    (run Delivery.step (Delivery.start 10 0) (resentStream 20)).state.lastWrittenLSN = 20 ∧
      (run Delivery.step (Delivery.start 10 0) (resentStream 20)).resent
        = some {(20, .row ⟨"public", "t"⟩ .insert [.int 1, .text "a"])} ∧
      applied (run Delivery.step (Delivery.start 10 0) (resentStream 20)).state
        = {(20, .row ⟨"public", "t"⟩ .insert [.int 1, .text "a"]),
           (20, .row ⟨"public", "t"⟩ .insert [.int 1, .text "a"])} := by
  decide

end Samples

end MyDuck.Logrepl
