/-
MyDuck.Logrepl.SubscriptionTheorems — what a new subscription takes of the
transactions of its source.

A transaction that commits before a table is copied is in the copy, and
one that commits after the slot was created is delivered and applied. The
copies come before the slot, so nothing is taken twice; but what commits
between the copy of a table and the slot is in neither.
`subscription_complete_iff` says that the replica has every transaction's
changes exactly once exactly when no transaction commits in such a gap
with changes of the table.
-/
import MyDuck.Logrepl.Subscription

namespace MyDuck.Logrepl

open MyDuck.Delta

/-! ## What the replicator takes -/

namespace Ledger

/-- Everything that was sent since `lsn` was taken. -/
structure Complete (lsn : LSN) (v : Ledger) : Prop where
  exact : v.Exact
  origin : v.replica.source.origin = lsn
  log : v.taken = v.replica.source.log
  taking : v.replica.source.lsn?.isSome = true → v.replica.state.processMessages = true

theorem complete_start (lsn : LSN) (now : Nat) : Complete lsn (start lsn now) :=
  ⟨exact_start lsn now, rfl, rfl, nofun⟩

/-- A `Begin` that is not from before the start is not stale. -/
theorem Complete.begin_taken {lsn l : LSN} {v : Ledger} (h : Complete lsn v)
    (hs : v.replica.source.Sends (.begin l)) (hle : lsn ≤ l) :
    v.replica.state.lastWrittenLSN ≤ l :=
  h.exact.link.upper.trans (max_le (h.origin ▸ hle) hs.2.2.le)

/-- What a message leaves of the log and of the transaction being sent. -/
theorem Complete.message_parts {lsn : LSN} {v : Ledger} {m : Message} (h : Complete lsn v)
    (hs : v.replica.source.Sends m) (hm : m.isStreamed = false)
    (hle : ∀ l, m = .begin l → lsn ≤ l) (now : Nat) :
    (v.replica.source.onMessage v.replica.state m).origin = lsn ∧
      v.takenAfter (.message now m) = (v.replica.source.onMessage v.replica.state m).log ∧
      ((v.replica.source.onMessage v.replica.state m).lsn?.isSome = true →
        takesRows v.replica.state m = true) := by
  cases m with
  | relation rel | other => exact ⟨h.origin, h.log, h.taking⟩
  | begin l =>
    exact ⟨h.origin, h.log, fun _ => decide_eq_true (h.begin_taken hs (hle l rfl))⟩
  | row xid rm =>
    refine ⟨(Source.onRow_origin _ _ _ _).trans h.origin,
      h.log.trans (Source.onRow_log _ _ _ _).symm, fun hsome => h.taking ?_⟩
    exact Source.onRow_lsn? v.replica.state xid rm v.replica.source ▸ hsome
  | commit l =>
    obtain ⟨t, ht, -⟩ := Option.map_eq_some_iff.mp hs
    have htaking := h.taking (by rw [Source.lsn?, ht]; rfl)
    simp only [takenAfter, htaking, if_true, ht, Source.onMessage, Source.finish, h.log,
      Option.toList_some]
    exact ⟨h.origin, trivial, fun hc => (by cases hc)⟩
  | streamStart _ | streamStop | streamCommit _ _ | streamAbort _ _ => cases hm

theorem Complete.step {lsn : LSN} {v : Ledger} {i : Feed} (h : Complete lsn v) (hp : v.Plain i)
    (hle : ∀ now l, i = .message now (.begin l) → lsn ≤ l) : Complete lsn (v.step i) := by
  have hexact := h.exact.step hp
  cases i with
  | tick now =>
    obtain ⟨-, -, -, hproc⟩ := handle_tick now h.exact.running h.exact.connected h.exact.untorn
    have hsrc : (v.step (.tick now)).replica.source = v.replica.source := by
      simp [Ledger.step, Feed.input, Replica.step, Source.onInput, h.exact.running]
    refine ⟨hexact, hsrc ▸ h.origin, hsrc ▸ h.log, fun hc => ?_⟩
    exact hproc.trans (h.taking (hsrc ▸ hc))
  | message now m =>
    obtain ⟨hs, hread, hm⟩ := hp
    have hproc := (handle_message now h.exact.running h.exact.connected h.exact.untorn
      hread).processing
    have hsrc : (v.step (.message now m)).replica.source
        = v.replica.source.onMessage v.replica.state m := by
      simp [Ledger.step, Feed.input, Replica.step, Source.onInput, h.exact.running,
        h.exact.connected]
    have hstate : (v.step (.message now m)).replica.state.processMessages
        = takesRows v.replica.state m := hproc
    have hparts := h.message_parts hs hm (fun l heq => hle now l (congrArg _ heq)) now
    exact ⟨hexact, hsrc ▸ hparts.1, hsrc ▸ hparts.2.1,
      fun hc => hstate.trans (hparts.2.2 (hsrc ▸ hc))⟩

/-- A replica that has caught up has committed exactly what the slot
delivers. -/
theorem Complete.durable {lsn : LSN} {v : Ledger} {txns : List Txn} (h : Complete lsn v)
    (hc : CaughtUp txns v) : v.replica.durable = taggedAll txns := by
  have happ := h.exact.books
  rw [Balanced, h.log, hc.log, openChanges_of_none hc.current, add_zero, applied, hc.inFlight,
    add_zero] at happ
  exact happ

end Ledger

/-! ## The changes of one table -/

section OnTable

variable (t : TableIdentifier)

theorem onTable_add (xs ys : Changes) : onTable t (xs + ys) = onTable t xs + onTable t ys :=
  Multiset.filter_add _ _ _

@[simp] theorem onTable_zero : onTable t 0 = 0 := rfl

theorem onTable_le {xs ys : Changes} (h : xs ≤ ys) : onTable t xs ≤ onTable t ys :=
  Multiset.filter_le_filter _ h

theorem onTable_tagged_eq_zero {x : Txn} :
    onTable t x.tagged = 0 ↔ ∀ c ∈ x.changes, c.isOn t = false := by
  simp [onTable, Txn.tagged, tag]

end OnTable

/-! ## The creation of a subscription -/

/-- The position that was read, as long as it is not stored. -/
def Phase.lsn : Phase → LSN
  | .listTables lsn | .copyTables lsn _ | .storeSubscription lsn => lsn
  | .readLSN | .createSlot | .startReplication | .replicating _ => 0

def Phase.isEarly : Phase → Bool
  | .readLSN | .listTables _ | .copyTables _ _ | .storeSubscription _ | .createSlot => true
  | .startReplication | .replicating _ => false

namespace Creation

/-- No transaction that commits between the copy of a table and the
creation of the slot has changes of the table. -/
def Quiet (c : Creation) : CreationInput → Prop
  | .commit t => c.slot = none → ∀ p ∈ c.copied, ∀ x ∈ t.changes, x.isOn p.1 = false
  | .write _ => True
  | .proceed => True

/-- The copies and what the slot delivers are together what was
committed. -/
def Covered (c : Creation) : Prop :=
  ∀ p ∈ c.copied, onTable p.1 (taggedAll p.2) + onTable p.1 (taggedAll c.delivered)
    = onTable p.1 (taggedAll c.committed)

structure Inv (c : Creation) : Prop where
  copies : ∀ p ∈ c.copied, p.2 <+: c.committed
  slot : ∀ n, c.slot = some n → n ≤ c.committed.length
  read : c.phase.lsn ≤ c.wal
  stored : c.subskiplsn.getD 0 ≤ c.wal
  ahead : ∀ t ∈ c.delivered, c.subskiplsn.getD 0 ≤ t.lsn
  unslotted : c.phase.isEarly = true → c.slot = none
  replicating : ∀ lsn, c.phase = .replicating lsn → lsn = c.subskiplsn.getD 0

section Step

variable {c : Creation}

theorem delivered_of_none (h : c.slot = none) : c.delivered = [] := by
  rw [delivered, h]
  rfl

/-- Once there is a slot, it delivers what is committed. -/
theorem delivered_commit {n : Nat} (t : Txn) (hs : c.slot = some n) (hn : n ≤ c.committed.length) :
    (c.step (.commit t)).delivered = c.delivered ++ [t] := by
  simp only [delivered, step, hs, Option.map_some, Option.getD_some]
  exact List.drop_append_of_le_length hn

theorem Inv.commit (h : c.Inv) {t : Txn} (ht : c.wal ≤ t.lsn) : (c.step (.commit t)).Inv where
  copies := fun p hp => (h.copies p hp).trans (List.prefix_append _ _)
  slot := fun n hn => (h.slot n hn).trans (by simp [step])
  read := h.read.trans (ht.trans (Nat.le_succ _))
  stored := h.stored.trans (ht.trans (Nat.le_succ _))
  ahead := by
    intro x hx
    cases hs : c.slot with
    | none =>
      rw [delivered_of_none (c := c.step (.commit t)) hs] at hx
      cases hx
    | some n =>
      rw [delivered_commit t hs (h.slot n hs)] at hx
      rcases List.mem_append.mp hx with hx | hx
      · exact h.ahead x hx
      · rw [List.mem_singleton.mp hx]
        exact h.stored.trans ht
  unslotted := h.unslotted
  replicating := h.replicating

theorem Inv.proceed (h : c.Inv) : c.proceed.Inv := by
  have hearly : ∀ {p : Phase}, c.phase = p → p.isEarly = true → c.slot = none :=
    fun hp he => h.unslotted (hp ▸ he)
  have hread : ∀ {p : Phase}, c.phase = p → p.lsn ≤ c.wal := fun hp => hp ▸ h.read
  unfold Creation.proceed
  split
  · next hp =>
    exact ⟨h.copies, h.slot, le_refl _, h.stored, h.ahead, fun _ => hearly hp rfl,
      nofun⟩
  · next lsn hp =>
    exact ⟨h.copies, h.slot, (hread hp :), h.stored, h.ahead, fun _ => hearly hp rfl,
      nofun⟩
  · next lsn t ts hp =>
    refine ⟨fun p hmem => ?_, h.slot, (hread hp :), h.stored, h.ahead, fun _ => hearly hp rfl,
      nofun⟩
    rcases List.mem_append.mp hmem with hmem | hmem
    · exact h.copies p hmem
    · obtain rfl := List.mem_singleton.mp hmem
      exact List.prefix_refl _
  · next lsn hp =>
    exact ⟨h.copies, h.slot, (hread hp :), h.stored, h.ahead, fun _ => hearly hp rfl,
      nofun⟩
  · next lsn hp =>
    have hnone := hearly hp rfl
    refine ⟨h.copies, h.slot, Nat.zero_le _, hread hp, fun x hx => ?_, fun _ => hnone,
      nofun⟩
    rw [delivered, hnone] at hx
    cases hx
  · next hp =>
    refine ⟨h.copies, fun n hn => (Option.some.inj hn).ge, Nat.zero_le _, h.stored,
      fun x hx => ?_, nofun, nofun⟩
    simp [delivered] at hx
  · next hp =>
    exact ⟨h.copies, h.slot, Nat.zero_le _, h.stored, h.ahead, nofun,
      fun _ hl => (Phase.replicating.inj hl).symm⟩
  · exact h

theorem Inv.step (h : c.Inv) {i : CreationInput} (hv : c.Valid i) : (c.step i).Inv := by
  cases i with
  | commit t => exact h.commit hv
  | write lsn =>
    exact ⟨h.copies, h.slot, h.read.trans (le_max_left _ _), h.stored.trans (le_max_left _ _),
      h.ahead, h.unslotted, h.replicating⟩
  | proceed => exact h.proceed

/-- A commit keeps the table covered exactly when it is quiet. -/
theorem Inv.commit_covered_iff (h : c.Inv) (t : Txn) :
    (c.step (.commit t)).Covered ↔ c.Covered ∧ c.Quiet (.commit t) := by
  have hadd : ∀ u, onTable u (taggedAll (c.step (.commit t)).committed)
      = onTable u (taggedAll c.committed) + onTable u t.tagged := by
    intro u
    rw [Creation.step, taggedAll_append, taggedAll_singleton, onTable_add]
  cases hs : c.slot with
  | some n =>
    have hiff : ∀ p : TableIdentifier × List Txn, onTable p.1 (taggedAll p.2)
          + onTable p.1 (taggedAll (c.step (.commit t)).delivered)
            = onTable p.1 (taggedAll (c.step (.commit t)).committed) ↔
        onTable p.1 (taggedAll p.2) + onTable p.1 (taggedAll c.delivered)
          = onTable p.1 (taggedAll c.committed) := by
      intro p
      rw [hadd, delivered_commit t hs (h.slot n hs), taggedAll_append, taggedAll_singleton,
        onTable_add, ← add_assoc, add_left_inj]
    refine ⟨fun hc => ⟨fun p hp => (hiff p).mp (hc p hp), fun hnone => ?_⟩, fun hc p hp =>
      (hiff p).mpr (hc.1 p hp)⟩
    rw [hs] at hnone
    cases hnone
  | none =>
    have hdel : c.delivered = [] := delivered_of_none hs
    have hdel' : (c.step (.commit t)).delivered = [] := delivered_of_none hs
    have hiff : ∀ p ∈ c.copied, onTable p.1 (taggedAll p.2)
          = onTable p.1 (taggedAll c.committed) + onTable p.1 t.tagged ↔
        onTable p.1 (taggedAll p.2) = onTable p.1 (taggedAll c.committed) ∧
          onTable p.1 t.tagged = 0 := by
      intro p hp
      have hle : onTable p.1 (taggedAll p.2) ≤ onTable p.1 (taggedAll c.committed) := by
        obtain ⟨rest, hrest⟩ := h.copies p hp
        rw [← hrest, taggedAll_append]
        exact onTable_le _ (Multiset.le_add_right _ _)
      constructor
      · intro heq
        have hzero : onTable p.1 t.tagged = 0 :=
          Multiset.le_zero.mp ((add_le_iff_nonpos_right _).mp (heq ▸ hle))
        exact ⟨by rw [heq, hzero, add_zero], hzero⟩
      · rintro ⟨heq, hzero⟩
        rw [heq, hzero, add_zero]
    simp only [Covered, Quiet, hdel, hdel', hadd, hs, taggedAll_nil, onTable_zero, add_zero,
      true_imp_iff, ← onTable_tagged_eq_zero]
    exact ⟨fun hc => ⟨fun p hp => ((hiff p hp).mp (hc p hp)).1, fun p hp =>
      ((hiff p hp).mp (hc p hp)).2⟩, fun hc p hp => (hiff p hp).mpr ⟨hc.1 p hp, hc.2 p hp⟩⟩

theorem Inv.step_covered_iff (h : c.Inv) (i : CreationInput) :
    (c.step i).Covered ↔ c.Covered ∧ c.Quiet i := by
  cases i with
  | commit t => exact h.commit_covered_iff t
  | write lsn => exact (and_iff_left trivial).symm
  | proceed =>
    refine Iff.trans ?_ (and_iff_left trivial).symm
    have hearly : ∀ {p : Phase}, c.phase = p → p.isEarly = true → c.delivered = [] :=
      fun hp he => delivered_of_none (h.unslotted (hp ▸ he))
    show c.proceed.Covered ↔ c.Covered
    unfold Creation.proceed
    split
    · rfl
    · rfl
    · next lsn t ts hp =>
      -- the new copy has all that is committed
      simp only [Covered, List.forall_mem_append, List.forall_mem_singleton]
      refine and_iff_left ?_
      rw [show ({ c with phase := .copyTables lsn ts, copied := c.copied ++ [(t, c.committed)] } :
        Creation).delivered = [] from hearly hp rfl]
      exact add_zero _
    · rfl
    · rfl
    · next hp =>
      have hdel : ({ c with phase := .startReplication, slot := some c.committed.length } :
          Creation).delivered = c.delivered := by
        rw [hearly hp rfl]
        simp [delivered]
      simp only [Covered, hdel]
    · rfl
    · rfl

end Step

theorem inv_start (wal : LSN) (tables : List TableIdentifier) (committed : List Txn) :
    (start wal tables committed).Inv :=
  ⟨nofun, nofun, Nat.zero_le _, Nat.zero_le _,
    nofun, fun _ => rfl, nofun⟩

end Creation

/-- **What a new subscription takes.** For every interleaving of the
commits of the source with the steps of CREATE SUBSCRIPTION, once the
replicator has been sent what the slot delivers and has committed it, the
copied tables have the changes of every transaction exactly once, exactly
when no transaction with changes of a table commits between the copy of
that table and the creation of the slot. -/
theorem subscription_complete_iff (wal : LSN) (tables : List TableIdentifier)
    (committed : List Txn) (is : List CreationInput)
    (his : Along Creation.step Creation.Valid (Creation.start wal tables committed) is) (lsn : LSN)
    (hlsn : (run Creation.step (Creation.start wal tables committed) is).phase = .replicating lsn)
    (now : Nat) (fs : List Feed)
    (hfs : Along Ledger.step
      (Delivers (run Creation.step (Creation.start wal tables committed) is).delivered)
      (Ledger.start lsn now) fs)
    (hup : CaughtUp (run Creation.step (Creation.start wal tables committed) is).delivered
      (run Ledger.step (Ledger.start lsn now) fs)) :
    (∀ p ∈ (run Creation.step (Creation.start wal tables committed) is).copied,
      replicaChanges p (run Ledger.step (Ledger.start lsn now) fs).replica
        = onTable p.1 (taggedAll
            (run Creation.step (Creation.start wal tables committed) is).committed)) ↔
      Along Creation.step Creation.Quiet (Creation.start wal tables committed) is := by
  have hinv := his.invariant Creation.Inv (fun _ _ h hv => h.step hv)
    (Creation.inv_start wal tables committed)
  have hiff := Along.good_run_iff (fun _ _ h hv => h.step hv)
    (fun _ i h _ => h.step_covered_iff i) (Creation.inv_start wal tables committed) his
  set c := run Creation.step (Creation.start wal tables committed) is
  have hcomplete := hfs.invariant (Ledger.Complete lsn)
    (fun v i h hd => h.step hd.1 fun now l heq => by
      obtain ⟨t, ht, rfl⟩ := hd.2 l (by rw [heq]; rfl)
      exact hinv.replicating lsn hlsn ▸ hinv.ahead t ht)
    (Ledger.complete_start lsn now)
  have hcovered : c.Covered ↔
      Along Creation.step Creation.Quiet (Creation.start wal tables committed) is :=
    hiff.trans (and_iff_right nofun)
  simp only [← hcovered, Creation.Covered, replicaChanges, hcomplete.durable hup]

section Samples

instance (c : Creation) (i : CreationInput) : Decidable (c.Valid i) :=
  match i with
  | .commit _ => inferInstanceAs (Decidable (_ ≤ _))
  | .write _ => isTrue trivial
  | .proceed => isTrue trivial

instance (c : Creation) (i : CreationInput) : Decidable (c.Quiet i) :=
  match i with
  | .commit _ => inferInstanceAs (Decidable (_ → ∀ p ∈ _, ∀ x ∈ _, _ = _))
  | .write _ => isTrue trivial
  | .proceed => isTrue trivial

/-- A transaction that inserts one row into the sample table. -/
def sampleTxn (lsn : LSN) (k : Int) : Txn :=
  ⟨lsn, [.row ⟨"public", "t"⟩ .insert [.int k, .text "a"]]⟩

/-- One transaction commits before the tables are copied and one after the
slot was created; the second argument commits in between. -/
def sampleCreation (gap : List CreationInput) : List CreationInput :=
  [.proceed, .commit (sampleTxn 12 2), .proceed, .proceed, .proceed] ++ gap ++
    [.proceed, .proceed, .commit (sampleTxn 30 4), .proceed]

def sampleStart : Creation := Creation.start 10 [⟨"public", "t"⟩] [sampleTxn 5 1]

/-- The messages of the transaction the slot delivers. -/
def sampleFeed : List Feed :=
  [.message 1 (.begin 30), .message 2 (.relation sampleRelation),
    .message 3 (.row 0 (.insert 1 (sampleTuple 4 "a"))), .message 4 (.commit 30)]

instance (txns : List Txn) (v : Ledger) (i : Feed) : Decidable (Delivers txns v i) :=
  inferInstanceAs (Decidable (_ ∧ _))

instance (txns : List Txn) (v : Ledger) : Decidable (CaughtUp txns v) :=
  decidable_of_iff (v.replica.source.log = txns ∧ v.replica.source.current = none ∧
    inFlight v.replica.state = 0) ⟨fun h => ⟨h.1, h.2.1, h.2.2⟩, fun h => ⟨h.1, h.2, h.3⟩⟩

/-- A transaction without changes of the table commits in the gap. -/
theorem subscription_complete_iff_sample :
    Along Creation.step Creation.Valid sampleStart (sampleCreation [.commit ⟨20, []⟩]) ∧
      ∀ p ∈ (run Creation.step sampleStart (sampleCreation [.commit ⟨20, []⟩])).copied,
        replicaChanges p (run Ledger.step (Ledger.start 10 0) sampleFeed).replica
          = onTable p.1 (taggedAll
              (run Creation.step sampleStart (sampleCreation [.commit ⟨20, []⟩])).committed) :=
  ⟨by decide, (subscription_complete_iff 10 [⟨"public", "t"⟩] [sampleTxn 5 1]
    (sampleCreation [.commit ⟨20, []⟩]) (by decide) 10 (by decide) 0 sampleFeed (by decide)
    (by decide)).mpr (by decide)⟩

/-- A row is inserted into the table after it was copied and before the
slot exists: the replica never gets it. -/
theorem commit_before_slot_is_lost :
    Along Creation.step Creation.Valid sampleStart (sampleCreation [.commit (sampleTxn 20 3)]) ∧
      (run Creation.step sampleStart (sampleCreation [.commit (sampleTxn 20 3)])).phase
        = .replicating 10 ∧
      Along Ledger.step (Delivers (run Creation.step sampleStart
        (sampleCreation [.commit (sampleTxn 20 3)])).delivered) (Ledger.start 10 0) sampleFeed ∧
      CaughtUp (run Creation.step sampleStart
        (sampleCreation [.commit (sampleTxn 20 3)])).delivered
        (run Ledger.step (Ledger.start 10 0) sampleFeed) ∧
      (run Creation.step sampleStart (sampleCreation [.commit (sampleTxn 20 3)])).copied
        = [(⟨"public", "t"⟩, [sampleTxn 5 1, sampleTxn 12 2])] ∧
      onTable ⟨"public", "t"⟩ (taggedAll (run Creation.step sampleStart
          (sampleCreation [.commit (sampleTxn 20 3)])).committed)
        = replicaChanges (⟨"public", "t"⟩, [sampleTxn 5 1, sampleTxn 12 2])
            (run Ledger.step (Ledger.start 10 0) sampleFeed).replica
          + {(20, .row ⟨"public", "t"⟩ .insert [.int 3, .text "a"])} := by
  decide

end Samples

end MyDuck.Logrepl
