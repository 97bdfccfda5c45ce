/-
MyDuck.Logrepl.WholeTheorems — the commits of the replicator against the
transactions of the source.

`commitOngoingTxn` commits whatever is in flight, with the LSN of the last
`Commit` message. It is called between transactions, at the `Commit` of
one, and when a relation that is already known is sent again, which can
happen at any point. `whole_transactions` says that every commit adds
exactly whole transactions and stores the LSN of the last of them, as long
as no known relation is sent again behind a row of its transaction, or
behind a skipped transaction with the DuckDB transaction open.
-/
import MyDuck.Logrepl.Accounts

namespace MyDuck.Logrepl

open MyDuck.Delta

/-! ## Whole commits -/

def lastLSN (origin : LSN) (txns : List Txn) : LSN := (txns.getLast?.map Txn.lsn).getD origin

def commitLSN? (ops : List Op) : Option LSN := (ops.filterMap Op.lsn?).getLast?

/-- A commit that stores an LSN adds the changes of whole transactions to
those of whole transactions, in the order in which they were taken, and
the LSN is that of the last of them. -/
def WholeCommit (origin : LSN) (taken : List Txn) (pre : List (List Op)) (ops : List Op) : Prop :=
  ∀ lsn, commitLSN? ops = some lsn → ∃ old new : List Txn, old ++ new <+: taken ∧
    changesOf pre.flatten = taggedAll old ∧ changesOf ops = taggedAll new ∧
    lsn = lastLSN origin (old ++ new)

/-- What is committed is whole, and was after every commit. -/
structure Kept (origin : LSN) (taken : List Txn) (d : List (List Op)) : Prop where
  durable : ∃ old, old <+: taken ∧ changesOf d.flatten = taggedAll old
  commits : EveryCommit (WholeCommit origin taken) d

namespace Kept

variable {origin : LSN} {taken taken' : List Txn} {d : List (List Op)} {s s' : State}

theorem mono (h : Kept origin taken d) (hp : taken <+: taken') : Kept origin taken' d := by
  obtain ⟨old, hold, hd⟩ := h.durable
  refine ⟨⟨old, hold.trans hp, hd⟩, h.commits.mono fun pre ops hw lsn hl => ?_⟩
  obtain ⟨old, new, hpre, hrest⟩ := hw lsn hl
  exact ⟨old, new, hpre.trans hp, hrest⟩

/-- A commit at a moment when what is in flight completes whole
transactions. -/
theorem afterCommit (h : Kept origin taken s.session.durable) (now : Nat) (reason : FlushReason)
    (ha : applied s = taggedAll taken) (hl : s.lastCommitLSN = lastLSN origin taken) :
    Kept origin taken (afterCommit now reason s).session.durable := by
  obtain ⟨old, ⟨new, rfl⟩, hd⟩ := h.durable
  have hflight : inFlight s = taggedAll new := by
    rw [applied, hd, taggedAll_append] at ha
    exact add_left_cancel ha
  refine ⟨⟨_, List.prefix_refl _, (durable_afterCommit now reason s).trans ha⟩, ?_⟩
  refine everyCommit_snoc.mpr ⟨h.commits, fun lsn hlsn => ?_⟩
  refine ⟨old, new, List.prefix_refl _, hd, (changesOf_commitOps s).trans hflight, ?_⟩
  have hstored : commitLSN? (commitOps s) = some s.lastCommitLSN := by
    simp [commitLSN?, commitOps, List.filterMap_append, Op.lsn?]
  rw [← hl]
  exact Option.some.inj (hlsn.symm.trans hstored)

/-- A table that is created outside of a transaction. -/
theorem registered (h : Kept origin taken s.session.durable) (rel : Relation) :
    Kept origin taken (registered rel s).session.durable := by
  simp only [Logrepl.registered, Session.exec]
  cases hs : s.session.txn with
  | some ops => exact h
  | none =>
    obtain ⟨old, hold, hd⟩ := h.durable
    refine ⟨⟨old, hold, ?_⟩, everyCommit_snoc.mpr ⟨h.commits, fun lsn hl => by cases hl⟩⟩
    rw [List.flatten_append, List.flatten_singleton, changesOf_append, hd, changesOf_singleton]
    exact add_zero _

end Kept

/-! ## The positions -/

/-- The last commit message is that of the last transaction taken, or of a
skipped one as long as none is taken. Skipped transactions come first. A
clean transaction has no changes. -/
structure Marks (origin : LSN) (s : State) (src : Source) (taken : List Txn) : Prop where
  origin_eq : src.origin = origin
  lower : origin ≤ s.lastWrittenLSN
  latest : s.lastCommitLSN = lastLSN origin taken ∨ taken = [] ∧ s.lastCommitLSN < origin
  reached : taken ≠ [] → origin ≤ src.last
  skipped : src.lsn?.isSome = true → s.processMessages = false → taken = []
  fresh : s.processMessages = true → s.dirtyStream = false → src.openTagged = 0

/-- The invariant of the replicator, the source and the transactions
taken. -/
structure Whole (origin : LSN) (s : State) (src : Source) (taken : List Txn) : Prop where
  marks : Marks origin s src taken
  kept : Kept origin taken s.session.durable

section Step

variable {origin : LSN} {s s' : State} {src src' : Source} {taken : List Txn} {now : Nat}

/-- A commit does not write an LSN from before the last written one only
when that is the LSN of the last transaction taken. -/
theorem Marks.lastCommit_eq (h : Marks origin s src taken)
    (hle : s.lastWrittenLSN ≤ s.lastCommitLSN) : s.lastCommitLSN = lastLSN origin taken := by
  rcases h.latest with heq | ⟨-, hlt⟩
  · exact heq
  · exact absurd (h.lower.trans hle) (not_le.mpr hlt)

section

variable (h : Whole origin s src taken)

include h

/-- A commit at a moment when the transaction being taken has no
changes. -/
theorem Whole.commits {reason : FlushReason} (hb : Ledger.Balanced s src taken)
    (hc : Commits now reason s s')
    (hle : s.session.txn.isSome = true → s.lastWrittenLSN ≤ s.lastCommitLSN)
    (hf : s.session.txn.isSome = true → s.processMessages = true → src.openTagged = 0) :
    Whole origin s' src taken := by
  cases hc with
  | idle _ => exact h
  | done ho =>
    have hm := h.marks
    have hopen : openChanges s src = 0 := by
      rw [openChanges]
      split
      · next hp => exact hf ho hp
      · rfl
    have ha : applied s = taggedAll taken := by rw [hb, hopen, add_zero]
    exact ⟨⟨hm.origin_eq, hm.lower.trans (hle ho), hm.latest, hm.reached, hm.skipped,
      fun hp _ => hf ho hp⟩, h.kept.afterCommit now reason ha (hm.lastCommit_eq (hle ho))⟩

theorem Whole.begins {lsn : LSN} (hlast : src.last < lsn) :
    Whole origin (begun lsn s) { src with current := some ⟨lsn, []⟩, last := lsn } taken :=
  ⟨⟨h.marks.origin_eq, h.marks.lower, h.marks.latest,
    fun hne => (h.marks.reached hne).trans hlast.le, nofun, fun _ _ => rfl⟩,
    h.kept⟩

/-- A transaction that is skipped begins: none was taken yet. -/
theorem Whole.skips {lsn : LSN} (hlast : src.last < lsn) (hold : lsn < origin) :
    Whole origin { s with processMessages := false }
      { src with current := some ⟨lsn, []⟩, last := lsn } taken := by
  have hm := h.marks
  have hnone : taken = [] := by
    by_contra hne
    exact absurd (hm.reached hne) (not_le.mpr (hlast.trans hold))
  exact ⟨⟨hm.origin_eq, hm.lower, hm.latest, fun hne => absurd hnone hne, fun _ _ => hnone,
    nofun⟩, h.kept⟩

theorem Whole.row {x : Changes} {xid : Nat} {rm : RowMessage} (hp : s.processMessages = true)
    (ht : Takes s s' x) : Whole origin (markDirty s') (src.onRow s xid rm) taken := by
  have hm := h.marks
  have hs : (markDirty s').processMessages = true := by rw [markDirty, ht.frame]; exact hp
  refine ⟨⟨(src.onRow_origin s xid rm).trans hm.origin_eq, ?_, ?_,
    fun hne => (src.onRow_last s xid rm).symm ▸ hm.reached hne,
    fun _ hf => absurd (hs.symm.trans hf) (by decide), fun _ hd => (by cases hd)⟩, ?_⟩
  · rw [markDirty, ht.frame]; exact hm.lower
  · rw [markDirty, ht.frame]; exact hm.latest
  · exact (ht.durable.symm ▸ h.kept :)

theorem Whole.skipsRow {xid : Nat} {rm : RowMessage} (hp : s.processMessages = false) :
    Whole origin s (src.onRow s xid rm) taken := by
  have hm := h.marks
  exact ⟨⟨(src.onRow_origin s xid rm).trans hm.origin_eq, hm.lower, hm.latest,
    fun hne => (src.onRow_last s xid rm).symm ▸ hm.reached hne,
    fun hl hf => hm.skipped (src.onRow_lsn? s xid rm ▸ hl) hf,
    fun ht => absurd (ht.symm.trans hp) (by decide)⟩, h.kept⟩

end

/-- The positions after the end of the transaction being sent. -/
theorem Marks.finishes {taken' : List Txn} (h : Marks origin s src taken)
    (hlower : origin ≤ s'.lastWrittenLSN)
    (hlatest : s'.lastCommitLSN = lastLSN origin taken' ∨ taken' = [] ∧ s'.lastCommitLSN < origin)
    (hreached : taken' ≠ [] → origin ≤ src.last) :
    Marks origin (finished s') src.finish taken' where
  origin_eq := src.finish_origin.trans h.origin_eq
  lower := hlower
  latest := hlatest
  reached := fun hne => src.finish_last.symm ▸ hreached hne
  skipped := fun hl => by rw [Source.finish_lsn?] at hl; cases hl
  fresh := nofun

/-- The `Commit` of a transaction that is taken. -/
theorem Whole.finishes {lsn : LSN} (h : Whole origin s src taken)
    (hb : Ledger.Balanced s src taken) (hl : Live s src) (hp : s.processMessages = true)
    (hlsn : src.lsn? = some lsn)
    (hc : s' = counted lsn s ∨ ∃ now reason, Commits now reason (counted lsn s) s') :
    Whole origin (finished s') src.finish (taken ++ src.current.toList) := by
  obtain ⟨t, ht, rfl⟩ := Option.map_eq_some_iff.mp hlsn
  have hle : s.lastWrittenLSN ≤ t.lsn := hl.taken t.lsn hlsn hp
  have hlast : t.lsn = lastLSN origin (taken ++ [t]) := by simp [lastLSN]
  have hreach : origin ≤ src.last := (h.marks.lower.trans hle).trans (hl.lsn t.lsn hlsn).le
  have hkept := h.kept.mono (List.prefix_append taken [t])
  have happ : applied (counted t.lsn s) = taggedAll (taken ++ [t]) := by
    have hopen : openChanges s src = t.tagged := by
      rw [openChanges, if_pos hp, Source.openTagged, ht]
      rfl
    rw [taggedAll_append, taggedAll_singleton, ← hopen]
    exact hb
  rw [ht, Option.toList_some]
  have hidle : Whole origin (finished (counted t.lsn s)) src.finish (taken ++ [t]) :=
    ⟨h.marks.finishes h.marks.lower (.inl hlast) fun _ => hreach, hkept⟩
  rcases hc with rfl | ⟨now, reason, hc⟩
  · exact hidle
  · cases hc with
    | idle _ => exact hidle
    | done ho =>
      exact ⟨h.marks.finishes (h.marks.lower.trans hle) (.inl hlast) fun _ => hreach,
        Kept.afterCommit (s := counted t.lsn s) hkept now reason happ hlast⟩

/-- The `Commit` of a transaction that is skipped. -/
theorem Whole.finishesSkipped {lsn : LSN} (h : Whole origin s src taken)
    (hl : Linked s src) (hp : s.processMessages = false) (hlsn : src.lsn? = some lsn)
    (hc : s' = counted lsn s ∨ ∃ now reason, Commits now reason (counted lsn s) s') :
    Whole origin (finished s') src.finish taken := by
  have hlt : lsn < origin := h.marks.origin_eq ▸ hl.old lsn hlsn hp
  have hnone := h.marks.skipped (by rw [hlsn]; rfl) hp
  have hsame : s' = counted lsn s := by
    rcases hc with heq | ⟨now, reason, hc⟩
    · exact heq
    · cases hc with
      | idle _ => rfl
      | done ho =>
        have htxn := (hl.live.stale (by rw [hlsn]; rfl) hp).1
        exact absurd ho (by simp [counted, htxn])
  subst hsame
  exact ⟨h.marks.finishes h.marks.lower (.inr ⟨hnone, hlt⟩) fun hne => absurd hnone hne, h.kept⟩

theorem Whole.commitMessage {lsn : LSN} (h : Whole origin s src taken)
    (hb : Ledger.Balanced s src taken) (hl : Linked s src) (hlsn : src.lsn? = some lsn)
    (hc : s' = counted lsn s ∨ ∃ now reason, Commits now reason (counted lsn s) s') :
    Whole origin (finished s') src.finish
      (if s.processMessages then taken ++ src.current.toList else taken) := by
  split
  · next hp => exact h.finishes hb hl.live hp hlsn hc
  · next hp => exact h.finishesSkipped hl (by simpa using hp) hlsn hc

end Step

/-! ## Runs -/

/-- A relation that is already known comes without changes of its
transaction and behind no skipped one, or finds no DuckDB transaction
open. -/
def RelationWhole (s : State) : Feed → Prop
  | .message _ (.relation rel) => (s.relations.lookup rel.id).isSome = true →
      s.session.txn.isSome = true →
        s.dirtyStream = false ∧ s.lastWrittenLSN ≤ s.lastCommitLSN
  | .message _ _ => True
  | .tick _ => True

namespace Ledger

def IsWhole (origin : LSN) (v : Ledger) : Prop :=
  Whole origin v.replica.state v.replica.source v.taken

theorem IsWhole.message {origin : LSN} {v : Ledger} {now : Nat} {m : Message}
    (h : v.IsWhole origin) (he : v.Exact) (hp : v.Plain (.message now m))
    (hw : RelationWhole v.replica.state (.message now m)) :
    (v.step (.message now m)).IsWhole origin := by
  obtain ⟨s', ht, hr', hc', hstep⟩ := he.turns hp
  obtain ⟨hs, -, hm⟩ := hp
  rw [hstep]
  show Whole origin s' (v.replica.source.onMessage v.replica.state m)
    (v.takenAfter (.message now m))
  have hmarks := h.marks
  cases ht with
  | off hoff => cases he.running.symm.trans hoff
  | unplugged hun => cases he.connected.symm.trans hun
  | aside b ha =>
    cases m with
    | other => exact ⟨⟨hmarks.1, hmarks.2, hmarks.3, hmarks.4, hmarks.5, hmarks.6⟩, h.kept⟩
    | streamStart _ | streamStop | streamCommit _ _ | streamAbort _ _ => cases hm
    | relation _ | begin _ | commit _ | row _ _ => cases ha
  | skipped hp => exact h.skipsRow hp
  | row hp _ htk => exact h.row hp htk
  | rowFails _ _ _ => cases hc'
  | @relation _ _ rel s₁ hrd =>
    have hready : Whole origin s₁ v.replica.source v.taken := by
      cases hrd with
      | fresh _ => exact h
      | known hk hcm =>
        exact h.commits he.books hcm (fun ho => (hw hk ho).2) fun ho hp =>
          hmarks.fresh hp (hw hk ho).1
    exact ⟨⟨hready.marks.1, hready.marks.2, hready.marks.3, hready.marks.4, hready.marks.5,
      hready.marks.6⟩, hready.kept.registered rel⟩
  | relationFails _ => cases hc'
  | stale hlt => exact h.skips hs.2.2 (hmarks.origin_eq ▸ (he.link.skips hs hlt).old _ rfl rfl)
  | extendBegin hle _ => exact h.begins hs.2.2
  | begin hle _ hcm =>
    have hbetween := he.link.live.between (Source.lsn?_eq_none.mpr hs.1)
    have hbooks := he.books.trans (congrArg _ (Ledger.openChanges_of_none hs.1))
    have hb := (h.begins hs.2.2).commits hbooks hcm hbetween fun _ _ => rfl
    exact ⟨⟨hb.marks.1, hb.marks.2, hb.marks.3, hb.marks.4, hb.marks.5, hb.marks.6⟩, hb.kept⟩
  | extendCommit _ => exact h.commitMessage he.books he.link hs (.inl rfl)
  | commit _ hcm => exact h.commitMessage he.books he.link hs (.inr ⟨_, _, hcm⟩)
  | breaks hbr => cases hc'.symm.trans hbr.connected
  | ends _ => cases hr'

theorem IsWhole.tick {origin : LSN} {v : Ledger} {now : Nat} (h : v.IsWhole origin)
    (he : v.Exact) : (v.step (.tick now)).IsWhole origin := by
  have hturn : ∀ {s' : State}, Turn v.replica.state (.tick now {}) s' → s'.running = true →
      Whole origin s' v.replica.source v.taken := by
    intro s' ht hr'
    cases ht with
    | off _ | wait => exact h
    | tick _ hd hs hcm =>
      exact h.commits he.books hcm (fun _ => he.link.live.clean hd hs)
        fun _ hp => h.marks.fresh hp hs
    | ends _ => cases hr'
  have hr' := (handle_tick now he.running he.connected he.untorn).1
  have hsrc : (v.step (.tick now)).replica.source = v.replica.source := by
    simp [step, Feed.input, Replica.step, Source.onInput, he.running]
  show Whole origin _ (v.step (.tick now)).replica.source v.taken
  rw [hsrc]
  exact hturn (handle_turn _ _) hr'

theorem isWhole_start (lsn : LSN) (now : Nat) : (start lsn now).IsWhole lsn :=
  ⟨⟨rfl, le_refl _, .inl rfl, fun hne => absurd rfl hne, nofun,
    nofun⟩, ⟨[], List.nil_prefix, rfl⟩, everyCommit_nil⟩

/-- The stream is well formed, and no known relation cuts a
transaction. -/
def Unsplit (v : Ledger) (i : Feed) : Prop := v.Plain i ∧ RelationWhole v.replica.state i

theorem IsWhole.step {origin : LSN} {v : Ledger} {i : Feed} (h : v.IsWhole origin) (he : v.Exact)
    (hu : v.Unsplit i) : (v.step i).IsWhole origin := by
  cases i with
  | message now m => exact h.message he hu.1 hu.2
  | tick now => exact h.tick he

end Ledger

/-- **Only whole transactions are committed**: every commit of the
replicator adds exactly the changes of complete source transactions, and
the LSN it stores is that of the last of them. -/
theorem whole_transactions (lsn : LSN) (now : Nat) (is : List Feed)
    (h : Along Ledger.step Ledger.Unsplit (Ledger.start lsn now) is) :
    EveryCommit (WholeCommit lsn (run Ledger.step (Ledger.start lsn now) is).taken)
      (run Ledger.step (Ledger.start lsn now) is).replica.state.session.durable :=
  (h.invariant (fun v : Ledger => v.Exact ∧ v.IsWhole lsn) (fun _ _ hv hu =>
    ⟨hv.1.step hu.1, hv.2.step hv.1 hu⟩)
    ⟨Ledger.exact_start lsn now, Ledger.isWhole_start lsn now⟩).2.kept.commits

section Samples

instance (s : State) (i : Feed) : Decidable (RelationWhole s i) :=
  match i with
  | .message _ (.relation _) => inferInstanceAs (Decidable (_ → _ → _ ∧ _))
  | .message _ (.begin _) | .message _ (.commit _) | .message _ (.row _ _)
  | .message _ (.streamStart _) | .message _ .streamStop | .message _ (.streamCommit _ _)
  | .message _ (.streamAbort _ _) | .message _ .other => isTrue trivial
  | .tick _ => isTrue trivial

instance Ledger.decidableUnsplit (v : Ledger) (i : Feed) : Decidable (v.Unsplit i) :=
  inferInstanceAs (Decidable (_ ∧ _))

/-- A skipped transaction, and two that are taken; the relation is sent
again between them and at the front of the second one. -/
def unsplitFeed : List Feed :=
  [.message 1 (.begin 5), .message 2 (.relation sampleRelation), .message 3 (.commit 5),
    .message 4 (.begin 20), .message 5 (.row 0 (.insert 1 (sampleTuple 1 "a"))),
    .message 6 (.commit 20), .message 7 (.relation sampleRelation), .message 8 (.begin 30),
    .message 9 (.row 0 (.insert 1 (sampleTuple 2 "b"))), .message 10 (.commit 30), .tick 300]

theorem whole_transactions_sample :
    Along Ledger.step Ledger.Unsplit (Ledger.start 10 0) unsplitFeed ∧
      EveryCommit (WholeCommit 10 (run Ledger.step (Ledger.start 10 0) unsplitFeed).taken)
        (run Ledger.step (Ledger.start 10 0) unsplitFeed).replica.state.session.durable :=
  have h : Along Ledger.step Ledger.Unsplit (Ledger.start 10 0) unsplitFeed := by decide
  ⟨h, whole_transactions 10 0 unsplitFeed h⟩

/-- The relation is sent again behind a row of the transaction. -/
def cutFeed : List Feed :=
  [.message 1 (.relation sampleRelation), .message 2 (.begin 20),
    .message 3 (.row 0 (.insert 1 (sampleTuple 1 "a"))), .message 4 (.relation sampleRelation)]

/-- The row is committed, with the LSN of the transactions before, while
its transaction is still being sent. -/
theorem relation_commits_part :
    Along Ledger.step Ledger.Plain (Ledger.start 10 0) cutFeed ∧
      changesOf (run Ledger.step (Ledger.start 10 0) cutFeed).replica.state.session.durable.flatten
        = {(20, .row ⟨"public", "t"⟩ .insert [.int 1, .text "a"])} ∧
      ¬ EveryCommit (WholeCommit 10 (run Ledger.step (Ledger.start 10 0) cutFeed).taken)
        (run Ledger.step (Ledger.start 10 0) cutFeed).replica.state.session.durable := by
  refine ⟨by decide, by decide, fun h => ?_⟩
  have hwhole := h
    ((run Ledger.step (Ledger.start 10 0) cutFeed).replica.state.session.durable.take 1)
    (((run Ledger.step (Ledger.start 10 0) cutFeed).replica.state.session.durable.drop 1).headD [])
    (by decide) 10 (by decide)
  obtain ⟨old, new, hpre, -, hchanges, -⟩ := hwhole
  have hnone : new = [] := (List.append_eq_nil_iff.mp (List.prefix_nil.mp hpre)).2
  rw [hnone] at hchanges
  exact absurd hchanges (by decide)

end Samples

end MyDuck.Logrepl
