/-
MyDuck.Binlog.Accounts — the books of a replica: which changes are
durable, which are in flight, and what the positions say about them.

The transactions that have ended are split at `n`: the first `n` are
durable, and the saved position is the starting position and their GTIDs;
the others, and the part of the transaction being sent that has arrived,
are in flight, in the open DuckDB transaction or in the delta buffer.
`Accounts` also holds between the calls that one input is made of, where
a DDL statement may already be durable before its position is (`x`).

There are two kinds of calls: those that take changes in or move them
(`Accounts.take`: a flush, a row event, a statement, `BEGIN`), and a
commit, which may save a position when it names every ended transaction
and nothing else is in flight (`Accounts.commitOngoingTxn`).
-/
import MyDuck.Binlog.ApplierTheorems

namespace MyDuck.Binlog

open MyDuck.Delta

/-! ## The books -/

namespace Source

/-- The changes of the transaction being sent that have arrived. -/
def openTagged (s : Source) : Changes :=
  match s.current with
  | none => 0
  | some o => o.txn.tagged

def gtids (s : Source) : List Gtid := s.ended.map SrcTxn.gtid

end Source

/-- The position names exactly these GTIDs besides the starting ones. -/
def Covers (start p : Position) (gs : List Gtid) : Prop :=
  ∀ g, p.contains g = true ↔ start.contains g = true ∨ g ∈ gs

/-- Every position saved by the commit is exact: it names the first `m`
ended transactions, and the data committed by then is theirs. -/
def SavedExactly (start : Position) (ended : List SrcTxn) (n : Nat) (pre : List (List Op))
    (ops : List Op) : Prop :=
  ∀ p, .savePosition p ∈ ops → ∃ m ≤ n,
    Covers start p ((ended.take m).map SrcTxn.gtid) ∧
      changesOf (pre ++ [ops]).flatten = taggedAll (ended.take m)

structure Accounts (start : Position) (s : Source) (pend : List Gtid) (n : Nat) (x : Changes)
    (a : Applier) : Prop where
  bound : n ≤ s.ended.length
  durable : changesOf a.session.durable.flatten = taggedAll (s.ended.take n) + x
  inFlight : x + inFlight a = taggedAll (s.ended.drop n) + s.openTagged
  mysql : IsMysql a.pendingPosition
  pending : Covers start a.pendingPosition pend
  savedMysql : IsMysql (savedPosition start a)
  saved : Covers start (savedPosition start a) ((s.ended.take n).map SrcTxn.gtid)
  noSaves : NoSaves (a.session.txn.getD [])
  untorn : Untorn a.deltas
  every : EveryCommit (SavedExactly start s.ended n) a.session.durable

@[simp] theorem taggedAll_nil : taggedAll [] = 0 := rfl

@[simp] theorem taggedAll_append (xs ys : List SrcTxn) :
    taggedAll (xs ++ ys) = taggedAll xs + taggedAll ys := by
  simp [taggedAll]

@[simp] theorem taggedAll_singleton (t : SrcTxn) : taggedAll [t] = t.tagged := by
  simp [taggedAll]

theorem taggedAll_take_drop (n : Nat) (ts : List SrcTxn) :
    taggedAll (ts.take n) + taggedAll (ts.drop n) = taggedAll ts := by
  rw [← taggedAll_append, List.take_append_drop]

/-- More durable transactions, or more ended ones, leave old commits
exact. -/
theorem SavedExactly.mono {start : Position} {ended ended' : List SrcTxn} {n n' : Nat}
    (hpre : ended <+: ended') (hn : n ≤ ended.length) (hn' : n ≤ n') {pre : List (List Op)}
    {ops : List Op} (h : SavedExactly start ended n pre ops) :
    SavedExactly start ended' n' pre ops := by
  intro p hp
  obtain ⟨m, hm, hcov, hch⟩ := h p hp
  obtain ⟨more, rfl⟩ := hpre
  have htake : (ended ++ more).take m = ended.take m :=
    List.take_append_of_le_length (hm.trans hn)
  exact ⟨m, hm.trans hn', by rwa [htake], by rwa [htake]⟩

/-- A commit that saves no position is exact. -/
theorem savedExactly_of_noSaves {start : Position} {ended : List SrcTxn} {n : Nat}
    {pre : List (List Op)} {ops : List Op} (h : NoSaves ops) :
    SavedExactly start ended n pre ops :=
  fun p hp => absurd hp (h p)

section Accounts

variable {start : Position} {s : Source} {pend : List Gtid} {n : Nat} {x : Changes} {a : Applier}

section

variable (h : Accounts start s pend n x a)

include h

/-- Only what the books are about matters. -/
theorem Accounts.congr {a' : Applier} (hs : a'.session = a.session) (hd : a'.deltas = a.deltas)
    (hp : a'.pendingPosition = a.pendingPosition) : Accounts start s pend n x a' := by
  obtain ⟨h1, h2, h3, h4, h5, h6, h7, h8, h9, h10⟩ := h
  constructor <;> simp only [savedPosition, Binlog.inFlight, hs, hd, hp] at * <;> assumption

theorem Accounts.source_congr {s' : Source} (he : s'.ended = s.ended)
    (ho : s'.openTagged = s.openTagged) : Accounts start s' pend n x a := by
  obtain ⟨h1, h2, h3, h4, h5, h6, h7, h8, h9, h10⟩ := h
  constructor <;> simp only [he, ho] at * <;> assumption

/-- The transaction being sent ends: its changes count as those of an
ended transaction. -/
theorem Accounts.finish : Accounts start s.finish pend n x a := by
  cases hc : s.current with
  | none =>
    have : s.finish = s := by simp [Source.finish, hc]
    rwa [this]
  | some o =>
    have hfin : s.finish = ⟨s.ended ++ [o.txn], s.log ++ [o.txn], none⟩ := by
      simp [Source.finish, hc]
    have htake : (s.ended ++ [o.txn]).take n = s.ended.take n :=
      List.take_append_of_le_length h.bound
    have hdrop : (s.ended ++ [o.txn]).drop n = s.ended.drop n ++ [o.txn] :=
      List.drop_append_of_le_length h.bound
    have hopen : s.openTagged = o.txn.tagged := by simp [Source.openTagged, hc]
    rw [hfin]
    refine { h with bound := ?_, durable := ?_, inFlight := ?_, saved := ?_, every := ?_ }
    · exact h.bound.trans (by simp)
    · rw [htake]; exact h.durable
    · rw [hdrop, taggedAll_append, taggedAll_singleton, h.inFlight, hopen]
      simp [Source.openTagged]
    · rw [htake]; exact h.saved
    · exact h.every.mono fun pre ops hP => hP.mono (List.prefix_append _ _) h.bound le_rfl

/-- The changes the applier takes in are those of the transaction being
sent; what they publish without a position is owed one. -/
theorem Accounts.take {s' : Source} {a' : Applier} {cs : List Change} {y : Changes}
    (ht : Takes a a' cs y) (he : s'.ended = s.ended)
    (ho : s'.openTagged = s.openTagged + tag a.currentGtid cs) :
    Accounts start s' pend n (x + y) a' := by
  refine ⟨?_, ?_, ?_, ?_, ?_, ?_, ?_, ht.noSaves, ht.untorn, ?_⟩
  · rw [he]; exact h.bound
  · rw [he, ht.changes, h.durable, add_assoc]
  · rw [he, ho, add_assoc, ht.inFlight, ← add_assoc, h.inFlight, add_assoc]
  · rw [ht.pending]; exact h.mysql
  · rw [ht.pending]; exact h.pending
  · rw [ht.saved]; exact h.savedMysql
  · rw [ht.saved, he]; exact h.saved
  · rw [he]; exact ht.every (fun pre ops hns => savedExactly_of_noSaves hns) h.every

/-- A call that takes no changes in keeps the books. -/
theorem Accounts.take_nil {a' : Applier} {y : Changes} (ht : Takes a a' [] y) :
    Accounts start s pend n (x + y) a' :=
  h.take ht rfl (by simp)

end

theorem openTagged_add (s : Source) (cs : List Change) {o : OpenTxn} (ho : s.current = some o) :
    (s.add cs).openTagged = s.openTagged + tag (some o.txn.gtid) cs := by
  simp [Source.openTagged, Source.add, ho, OpenTxn.add, SrcTxn.tagged, tag_append]

theorem Accounts.take_add {a' : Applier} {cs : List Change} {y : Changes}
    (h : Accounts start s pend n x a) (ht : Takes a a' cs y) {o : OpenTxn}
    (ho : s.current = some o) (hg : a.currentGtid = some o.txn.gtid) :
    Accounts start (s.add cs) pend n (x + y) a' :=
  h.take ht rfl (by rw [openTagged_add s cs ho, hg])

/-- What is in flight becomes durable under a position that names every
ended transaction, when no other change is in flight. -/
theorem Accounts.commitOngoingTxn (h : Accounts start s pend n x a) {f : Faults}
    (hf : f.flush = fun _ => false) (now : Nat) (kind : CommitKind) (reason : FlushReason)
    (hopen : s.openTagged = 0) (hp : IsMysql (savedBy kind a))
    (hcov : Covers start (savedBy kind a) s.gtids) :
    ∃ ops tables, Binlog.commitOngoingTxn f now kind reason a
        = .ok (afterCommit a now (savedBy kind a) ops tables) ∧
      Accounts start s s.gtids s.ended.length 0
        (afterCommit a now (savedBy kind a) ops tables) := by
  obtain ⟨ops, tables, hrun, hch, hns, hdr⟩ :=
    commitOngoingTxn_ok hf now kind reason h.untorn hp.ne_none
  have hall : changesOf (afterCommit a now (savedBy kind a) (a.session.txn.getD [] ++ ops)
      tables).session.durable.flatten = taggedAll s.ended := by
    have hfl := h.inFlight
    rw [hopen, add_zero] at hfl
    rw [changesOf_afterCommit _ _ _ _ _ hch, h.durable, add_assoc, hfl, taggedAll_take_drop]
  refine ⟨_, tables, hrun, ⟨le_rfl, ?_, ?_, hp, hcov, ?_, ?_, noSaves_nil, hdr.untorn, ?_⟩⟩
  · rw [List.take_length, add_zero]; exact hall
  · rw [inFlight_afterCommit _ _ _ _ _ hdr, hopen, List.drop_length]; rfl
  · rw [savedPosition_afterCommit]; exact hp
  · rw [savedPosition_afterCommit, List.take_length]; exact hcov
  · refine everyCommit_snoc.mpr
      ⟨h.every.mono fun pre ops hP => hP.mono (List.prefix_refl _) h.bound h.bound, ?_⟩
    intro q hq
    obtain rfl := eq_of_mem_commit (h.noSaves.append hns) hq
    exact ⟨s.ended.length, le_rfl, by rw [List.take_length]; exact hcov,
      by rw [List.take_length]; exact hall⟩

end Accounts

/-! ## Steps of the source -/

section Source

variable {start : Position} {current previous : Option Gtid} {s : Source} {o : OpenTxn}

theorem finish_of_current (ho : s.current = some o) :
    s.finish = ⟨s.ended ++ [o.txn], s.log ++ [o.txn], none⟩ := by
  simp [Source.finish, ho]

theorem gtids_finish (ho : s.current = some o) : s.finish.gtids = s.gtids ++ [o.txn.gtid] := by
  simp [Source.gtids, finish_of_current ho]

theorem current_begin (ho : s.current = some o) :
    s.begin.current = some { o with begun := true } := by
  simp [Source.begin, ho]

theorem current_add (cs : List Change) (ho : s.current = some o) :
    (s.add cs).current = some (o.add cs) := by
  simp [Source.add, ho]

theorem openTagged_of_idle (h : s.current = none) : s.openTagged = 0 := by
  simp [Source.openTagged, h]

theorem openTagged_begin (s : Source) : s.begin.openTagged = s.openTagged := by
  cases hc : s.current <;> simp [Source.openTagged, Source.begin, hc]

/-- What the applier's `currentGtid` and `previousGtid` say about the
stream: the transaction being sent and the one before it. -/
structure Tracks (start : Position) (current previous : Option Gtid) (s : Source) : Prop where
  idle : s.current = none → ∀ g, current = some g → g ∈ s.gtids
  sending : ∀ o, s.current = some o → current = some o.txn.gtid
  before : ∀ o, s.current = some o → ∀ g, previous = some g → g ∈ s.gtids
  fresh : ∀ o, s.current = some o → o.txn.gtid.isMysql56 = true ∧
    start.contains o.txn.gtid = false ∧ o.txn.gtid ∉ s.gtids
  ended : ∀ g ∈ s.gtids, g.isMysql56 = true ∧ start.contains g = false
  nodup : s.gtids.Nodup

section

variable (h : Tracks start current previous s)

include h

/-- The GTIDs of ended transactions are MySQL GTIDs. -/
theorem Tracks.mysql {g : Option Gtid} (hg : ∀ y, g = some y → y ∈ s.gtids) : MysqlGtid g :=
  fun y hy => (h.ended y (hg y hy)).1

theorem Tracks.mysql_current (ho : s.current = some o) : MysqlGtid current := by
  intro y hy
  rw [h.sending o ho] at hy
  obtain rfl := Option.some.inj hy
  exact (h.fresh o ho).1

theorem Tracks.congr {s' : Source} (he : s'.gtids = s.gtids)
    (hc : ∀ o', s'.current = some o' → ∃ o, s.current = some o ∧ o.txn.gtid = o'.txn.gtid)
    (hn : s'.current = none → s.current = none) : Tracks start current previous s' := by
  refine ⟨?_, ?_, ?_, ?_, ?_, ?_⟩
  · intro hnone
    rw [he]
    exact h.idle (hn hnone)
  · intro o' ho'
    obtain ⟨o, ho, hg⟩ := hc o' ho'
    rw [← hg]
    exact h.sending o ho
  · intro o' ho'
    obtain ⟨o, ho, -⟩ := hc o' ho'
    rw [he]
    exact h.before o ho
  · intro o' ho'
    obtain ⟨o, ho, hg⟩ := hc o' ho'
    rw [he, ← hg]
    exact h.fresh o ho
  · rw [he]; exact h.ended
  · rw [he]; exact h.nodup

theorem Tracks.begin (ho : s.current = some o) : Tracks start current previous s.begin := by
  have hb := current_begin ho
  refine h.congr rfl (fun o' ho' => ⟨o, ho, ?_⟩) (fun hn => ?_)
  · rw [hb] at ho'
    obtain rfl := Option.some.inj ho'
    rfl
  · rw [hb] at hn
    simp at hn

theorem Tracks.add (cs : List Change) (ho : s.current = some o) :
    Tracks start current previous (s.add cs) := by
  have ha := current_add cs ho
  refine h.congr rfl (fun o' ho' => ⟨o, ho, ?_⟩) (fun hn => ?_)
  · rw [ha] at ho'
    obtain rfl := Option.some.inj ho'
    rfl
  · rw [ha] at hn
    simp at hn

theorem Tracks.gtid (hidle : s.current = none) {g : Gtid} (hnot : start.contains g = false)
    (hfresh : g ∉ s.gtids) (hg : g.isMysql56 = true) :
    Tracks start (some g) current { s with current := some ⟨⟨g, []⟩, false⟩ } where
  idle := nofun
  sending := fun o ho => by obtain rfl := Option.some.inj ho; rfl
  before := fun _ _ => h.idle hidle
  fresh := fun o ho => by obtain rfl := Option.some.inj ho; exact ⟨hg, hnot, hfresh⟩
  ended := h.ended
  nodup := h.nodup

theorem Tracks.finish (ho : s.current = some o) : Tracks start current previous s.finish := by
  obtain ⟨hmysql, hnot, hfresh⟩ := h.fresh o ho
  have hno : ∀ o', s.finish.current ≠ some o' := by simp [finish_of_current ho]
  refine ⟨?_, fun o' ho' => absurd ho' (hno o'), fun o' ho' => absurd ho' (hno o'),
    fun o' ho' => absurd ho' (hno o'), ?_, ?_⟩
  · intro _ g hg
    rw [h.sending o ho] at hg
    obtain rfl := Option.some.inj hg
    simp [gtids_finish ho]
  · intro g hg
    rw [gtids_finish ho] at hg
    rcases List.mem_append.mp hg with hg | hg
    · exact h.ended g hg
    · obtain rfl := List.mem_singleton.mp hg
      exact ⟨hmysql, hnot⟩
  · rw [gtids_finish ho]
    exact List.nodup_append.mpr ⟨h.nodup, List.nodup_singleton _, by
      intro g hg g' hg' heq
      obtain rfl := List.mem_singleton.mp hg'
      exact hfresh (heq ▸ hg)⟩

/-- A position that names only the first `m` ended transactions names none
of the others. -/
theorem Tracks.filter_drop {p : Position} {m : Nat}
    (hp : ∀ g, p.contains g = true →
      start.contains g = true ∨ g ∈ (s.ended.take m).map SrcTxn.gtid) :
    (s.ended.drop m).filter (fun t => p.contains t.gtid) = [] := by
  have hdisj := h.nodup
  rw [Source.gtids, ← List.take_append_drop m s.ended, List.map_append, List.nodup_append] at hdisj
  rw [List.filter_eq_nil_iff]
  intro t ht hc
  have hnot := (h.ended t.gtid (List.mem_map.mpr ⟨t, List.mem_of_mem_drop ht, rfl⟩)).2
  rcases hp t.gtid hc with hs | hin
  · exact absurd hs (by simp [hnot])
  · exact hdisj.2.2 t.gtid hin t.gtid (List.mem_map.mpr ⟨t, ht, rfl⟩) rfl

/-- A new connection starts from some of the ended transactions. -/
theorem Tracks.restart {kept : List SrcTxn} (hk : kept.Sublist s.ended) :
    Tracks start none none { s with ended := kept, current := none } where
  idle := nofun
  sending := nofun
  before := nofun
  fresh := nofun
  ended := fun g hg => h.ended g ((hk.map SrcTxn.gtid).subset hg)
  nodup := (hk.map SrcTxn.gtid).nodup h.nodup

end

end Source

end MyDuck.Binlog
