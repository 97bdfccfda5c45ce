/-
MyDuck.Binlog.ReconnectTheorems — what a broken connection leaves behind.

`startReplicationEventStream` clears the applier's flags and discards the
delta buffer, and the source sends everything again that is not in the
saved position. It does not roll back the DuckDB transaction of the
session. A break is therefore harmless exactly as far as the unfinished
attempt lived in the buffer: when the open transaction holds a change,
written directly or by a statement, the next `BEGIN` publishes it.
Without such a break every durable
change belongs to a transaction that ended and is in the saved position,
and the changes of such a transaction are durable exactly once.
-/
import MyDuck.Binlog.PositionTheorems

namespace MyDuck.Binlog

open MyDuck.Delta

/-! ## Changes by transaction -/

/-- The durable changes that carry the stamp of a GTID. -/
def Replica.durableOf (r : Replica) (g : Gtid) : Changes :=
  r.durable.filter (fun c => c.1 = stampOf (some g))

theorem stampOf_injective {g h : Gtid} (hg : g.isMysql56 = true) (hh : h.isMysql56 = true)
    (heq : stampOf (some g) = stampOf (some h)) : g = h := by
  obtain ⟨s, n, rfl⟩ := eq_mysql56 hg
  obtain ⟨s', n', rfl⟩ := eq_mysql56 hh
  simp only [stampOf, TxnStamp.mk.injEq, Option.some.injEq, true_and] at heq
  rw [heq.1, heq.2]

theorem mem_taggedAll {ts : List SrcTxn} {c : TxnStamp × Change} :
    c ∈ taggedAll ts ↔ ∃ t ∈ ts, c ∈ t.tagged := by
  induction ts with
  | nil => simp
  | cons t ts ih =>
    have hcons : taggedAll (t :: ts) = t.tagged + taggedAll ts := by simp [taggedAll]
    simp [hcons, ih]

theorem stamp_of_mem_tagged {t : SrcTxn} {c : TxnStamp × Change} (h : c ∈ t.tagged) :
    c.1 = stampOf (some t.gtid) := by
  simp only [SrcTxn.tagged, tag, Multiset.mem_coe, List.mem_map] at h
  obtain ⟨d, -, rfl⟩ := h
  rfl

theorem filter_tagged_self (t : SrcTxn) :
    t.tagged.filter (fun c => c.1 = stampOf (some t.gtid)) = t.tagged :=
  Multiset.filter_eq_self.mpr fun _ hc => stamp_of_mem_tagged hc

/-- Among transactions with different GTIDs, a stamp selects the changes
of its own. -/
theorem filter_taggedAll {ts : List SrcTxn} (hnd : (ts.map SrcTxn.gtid).Nodup)
    (hg : ∀ t ∈ ts, t.gtid.isMysql56 = true) {t : SrcTxn} (ht : t ∈ ts) :
    (taggedAll ts).filter (fun c => c.1 = stampOf (some t.gtid)) = t.tagged := by
  induction ts with
  | nil => simp at ht
  | cons u ts ih =>
    have hcons : taggedAll (u :: ts) = u.tagged + taggedAll ts := by simp [taggedAll]
    rw [List.map_cons, List.nodup_cons] at hnd
    have hg' : ∀ v ∈ ts, v.gtid.isMysql56 = true := fun v hv => hg v (List.mem_cons_of_mem _ hv)
    have hother : ∀ v ∈ u :: ts, v.gtid ≠ t.gtid →
        v.tagged.filter (fun c => c.1 = stampOf (some t.gtid)) = 0 := by
      intro v hv hne
      refine Multiset.filter_eq_nil.mpr fun c hc heq => hne ?_
      rw [stamp_of_mem_tagged hc] at heq
      exact stampOf_injective (hg v hv) (hg t ht) heq
    rw [hcons, Multiset.filter_add]
    rcases List.mem_cons.mp ht with rfl | ht'
    · have hrest : (taggedAll ts).filter (fun c => c.1 = stampOf (some t.gtid)) = 0 := by
        refine Multiset.filter_eq_nil.mpr fun c hc heq => ?_
        obtain ⟨v, hv, hcv⟩ := mem_taggedAll.mp hc
        rw [stamp_of_mem_tagged hcv] at heq
        have hvt := stampOf_injective (hg' v hv) (hg t ht) heq
        exact hnd.1 (List.mem_map.mpr ⟨v, hv, hvt⟩)
      rw [filter_tagged_self, hrest, add_zero]
    · have hne : u.gtid ≠ t.gtid := fun h =>
        hnd.1 (h ▸ List.mem_map.mpr ⟨t, ht', rfl⟩)
      rw [hother u List.mem_cons_self hne, zero_add]
      exact ih hnd.2 hg' ht'

/-! ## Streams that break -/

/-- A stream of row events, on keyed and on keyless tables, and DML
queries, which may break and start again at any point, in which nothing
fails. -/
def BrokenStream (env : Env) (r : Replica) (i : Input) : Prop :=
  match i with
  | .event _ f e => f = {} ∧ r.source.Sends env.initial e ∧
      match e with
      | .rows e => RowEventOk env f e r.applier
      | .query q => q.kind ≠ .standalone
      | _ => True
  | .tick _ f | .stop _ f => f = {}
  | .reconnect _ => True

/-- The connection does not break while the session's open transaction
holds a change, and no tick or stop commits a clean batch while a
transaction is announced but not executed. -/
def BreaksClean (r : Replica) (i : Input) : Prop :=
  match i with
  | .tick _ _ | .stop _ _ => batchIsClean r.applier = true → r.source.current = none
  | .reconnect _ => changesOf (r.applier.session.txn.getD []) = 0
  | _ => True

instance (r : Replica) (i : Input) : Decidable (BreaksClean r i) :=
  match i with
  | .tick _ _ => inferInstanceAs (Decidable (_ → _))
  | .stop _ _ => inferInstanceAs (Decidable (_ → _))
  | .reconnect _ => inferInstanceAs (Decidable (_ = _))
  | .event _ _ _ => inferInstanceAs (Decidable True)

theorem BrokenStream.safe {env : Env} {r : Replica} {i : Input} (h : BrokenStream env r i)
    (hc : BreaksClean r i) : Safe env r i := by
  cases i with
  | event now f e =>
    refine ⟨h.1, h.2.1, ?_⟩
    cases e with
    | rows e => exact h.2.2
    | query q =>
      have hk : q.kind ≠ .standalone := h.2.2
      simp [Query.committed, hk]
    | _ => trivial
  | tick now f | stop now f => exact ⟨h, hc⟩
  | reconnect now => exact hc

/-- The durable changes are those of the transactions that ended and are
in the saved position, each exactly once. -/
def DurableExactlyOnce (start : Position) (r : Replica) : Prop :=
  (∀ c ∈ r.durable, ∃ t ∈ r.source.ended,
      c ∈ t.tagged ∧ (savedPosition start r.applier).contains t.gtid = true) ∧
    ∀ t ∈ r.source.ended, (savedPosition start r.applier).contains t.gtid = true →
      r.durableOf t.gtid = t.tagged

theorem Exact.durableExactlyOnce {start : Position} {n : Nat} {r : Replica}
    (h : Exact start n r.applier r.source) : DurableExactlyOnce start r := by
  have hdur : r.durable = taggedAll (r.source.ended.take n) := by
    have := h.books.durable
    rwa [add_zero] at this
  have hsub := List.take_sublist n r.source.ended
  constructor
  · intro c hc
    rw [hdur] at hc
    obtain ⟨t, ht, hct⟩ := mem_taggedAll.mp hc
    refine ⟨t, hsub.subset ht, hct, ?_⟩
    exact (h.books.saved t.gtid).mpr (.inr (List.mem_map.mpr ⟨t, ht, rfl⟩))
  · intro t ht hsaved
    have hfilter := h.filter_saved
    have hmem : t ∈ r.source.ended.take n := by
      rw [← hfilter, List.mem_filter]
      exact ⟨ht, hsaved⟩
    rw [Replica.durableOf, hdur]
    refine filter_taggedAll ((hsub.map SrcTxn.gtid).nodup h.tracks.nodup) ?_ hmem
    intro u hu
    exact (h.tracks.ended u.gtid (List.mem_map.mpr ⟨u, hsub.subset hu, rfl⟩)).1

/-- **A reconnect discards the unfinished transaction**, in every run that
breaks only where the open transaction holds no change. -/
theorem reconnect_durable_exactly_once (env : Env) (hstart : IsMysql env.initial) (now : Nat)
    (inputs : List Input)
    (h : Along (Replica.step env) (fun r i => BrokenStream env r i ∧ BreaksClean r i)
      (Replica.start env now) inputs) :
    DurableExactlyOnce env.initial (run (Replica.step env) (Replica.start env now) inputs) := by
  obtain ⟨n, hex⟩ := exact_run hstart now (h.mono fun r i hi => hi.1.safe hi.2)
  exact hex.durableExactlyOnce

/-- A buffered row of an unfinished transaction, a break, and the
transaction again. -/
def breakInBuffer : List Input :=
  (sampleTxn 1).take 4 ++ [.reconnect 5] ++ sampleTxn 1 ++ [.tick 250 {}]

theorem reconnect_durable_exactly_once_sample :
    DurableExactlyOnce sampleEnv.initial
      (run (Replica.step sampleEnv) (Replica.start sampleEnv 0) breakInBuffer) := by
  refine reconnect_durable_exactly_once sampleEnv ⟨∅, rfl⟩ 0 _ ?_
  refine ⟨⟨⟨rfl, by decide, trivial⟩, trivial⟩, ⟨⟨rfl, by decide, by decide⟩, trivial⟩,
    ⟨⟨rfl, by decide, trivial⟩, trivial⟩, ⟨⟨rfl, by decide, ?_⟩, trivial⟩,
    ⟨trivial, by decide⟩, ⟨⟨rfl, by decide, trivial⟩, trivial⟩,
    ⟨⟨rfl, by decide, by decide⟩, trivial⟩, ⟨⟨rfl, by decide, trivial⟩, trivial⟩,
    ⟨⟨rfl, by decide, ?_⟩, trivial⟩, ⟨⟨rfl, by decide, trivial⟩, trivial⟩,
    ⟨rfl, by decide⟩, trivial⟩
  · change RowEventOk _ _ _ _
    decide
  · change RowEventOk _ _ _ _
    decide

/-! ## The break that publishes -/

/-- The table of `sampleEnv` without a key. -/
def keylessEnv : Env :=
  { sampleEnv with catalog := fun _ _ => some ⟨"t", [⟨"id", false, {}⟩, ⟨"v", false, {}⟩]⟩ }

/-- A row written directly, a break, and the first events of the resent
transaction. -/
def breakWithOpenWrite : List Input :=
  (sampleTxn 1).take 4 ++ [.reconnect 5] ++ (sampleTxn 1).take 2

/-- `BEGIN` publishes the row of the attempt that the break ended, while
no transaction has ended. -/
theorem break_with_open_write_publishes :
    Along (Replica.step keylessEnv) (BrokenStream keylessEnv) (Replica.start keylessEnv 0)
        breakWithOpenWrite ∧
      ¬ DurableExactlyOnce keylessEnv.initial
        (run (Replica.step keylessEnv) (Replica.start keylessEnv 0) breakWithOpenWrite) := by
  constructor
  · refine ⟨⟨rfl, by decide, trivial⟩, ⟨rfl, by decide, by decide⟩, ⟨rfl, by decide, trivial⟩,
      ⟨rfl, by decide, ?_⟩, trivial, ⟨rfl, by decide, trivial⟩, ⟨rfl, by decide, by decide⟩,
      trivial⟩
    change RowEventOk _ _ _ _
    decide
  · rintro ⟨honly, -⟩
    have hrow : (stampOf (some (sampleGtid 1)), Change.write ⟨⟨"d", "t"⟩, .insert, [],
        [true, true], [], [.int 1, .text "a"]⟩) ∈
        (run (Replica.step keylessEnv) (Replica.start keylessEnv 0)
          breakWithOpenWrite).durable := by
      decide
    obtain ⟨t, ht, -⟩ := honly _ hrow
    have hended : (run (Replica.step keylessEnv) (Replica.start keylessEnv 0)
        breakWithOpenWrite).source.ended = [] := by decide
    rw [hended] at ht
    simp at ht

end MyDuck.Binlog
