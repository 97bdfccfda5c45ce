/-
MyDuck.Logrepl.LinkTheorems — the transaction the replicator is in, against
the one the source is sending.

While the connection is up, the rows that are taken belong to the
transaction being sent, which is ahead of everything written when it is
new; a transaction that is skipped is from before the LSN the stream was
asked for (`Linked`). So a change is tagged with the LSN of its own
transaction, and no transaction is lost by being skipped.
-/
import MyDuck.Logrepl.PositionTheorems

namespace MyDuck.Logrepl

open MyDuck.Delta

/-! ## Changes -/

@[simp] theorem taggedAll_nil : taggedAll [] = 0 := rfl

theorem taggedAll_append (xs ys : List Txn) :
    taggedAll (xs ++ ys) = taggedAll xs + taggedAll ys := by
  rw [taggedAll, List.map_append, List.sum_append]
  rfl

@[simp] theorem taggedAll_singleton (t : Txn) : taggedAll [t] = t.tagged := by
  simp [taggedAll]

theorem Takes.applied {s s' : State} {x : Changes} (h : Takes s s' x) :
    applied s' = applied s + x := by
  rw [Logrepl.applied, h.durable, h.inFlight, ← add_assoc]
  rfl

/-! ## The source -/

namespace Source

variable {src : Source}

theorem openTagged_of_none (h : src.current = none) : src.openTagged = 0 := by
  rw [openTagged, h]
  rfl

theorem openTagged_of_some {t : Txn} (h : src.current = some t) : src.openTagged = t.tagged := by
  rw [openTagged, h]
  rfl

/-- A row message of the transaction being sent adds its changes to it. -/
theorem openTagged_add {lsn : LSN} (h : src.lsn? = some lsn) (cs : List Change) :
    (src.add cs).openTagged = src.openTagged + tag lsn cs := by
  obtain ⟨t, ht, rfl⟩ := Option.map_eq_some_iff.mp h
  simp [openTagged, add, ht, Txn.tagged, tag_append]

theorem onRow_of_none (h : src.segment = none) (s : State) (xid : Nat) (m : RowMessage) :
    src.onRow s xid m = src.add (rowChanges s m) := by
  rw [onRow, h]

theorem finish_origin (src : Source) : src.finish.origin = src.origin := by
  unfold finish
  split <;> rfl

section

variable (s : State) (xid : Nat) (m : RowMessage) (src)

@[simp] theorem onRow_origin : (src.onRow s xid m).origin = src.origin := by
  unfold onRow
  split <;> rfl

@[simp] theorem onRow_segment : (src.onRow s xid m).segment = src.segment := by
  unfold onRow
  split <;> rfl

@[simp] theorem onRow_ended : (src.onRow s xid m).ended = src.ended := by
  unfold onRow
  split <;> rfl

end

/-- Messages between transactions keep the origin, and open a segment only
outside of a transaction. -/
theorem onMessage_aside_segment {s : State} {m : Message} (hm : m.isAside = true)
    (h : src.Sends m) (hseg : src.lsn?.isSome = true → src.segment = none) :
    (src.onMessage s m).origin = src.origin ∧
      (src.lsn?.isSome = true → (src.onMessage s m).segment = none) := by
  cases m with
  | streamStart xid =>
    refine ⟨rfl, fun hsome => ?_⟩
    rw [lsn?_eq_none.mpr h.1] at hsome
    cases hsome
  | streamStop => exact ⟨rfl, fun _ => rfl⟩
  | streamCommit xid lsn => exact ⟨rfl, hseg⟩
  | streamAbort xid subXid =>
    simp only [onMessage, onStreamAbort]
    split <;> exact ⟨rfl, hseg⟩
  | other => exact ⟨rfl, hseg⟩
  | relation _ | begin _ | commit _ | row _ _ => cases hm

end Source

/-! ## The link -/

structure Linked (s : State) (src : Source) : Prop where
  live : Live s src
  upper : s.lastWrittenLSN ≤ max src.origin src.last
  apart : src.lsn?.isSome = true → src.segment = none
  lsn : s.processMessages = true → src.lsn? = some s.currentTransactionLSN
  ahead : ∀ lsn, src.lsn? = some lsn → s.processMessages = true → src.origin < lsn →
    s.lastWrittenLSN < lsn ∧ s.lastCommitLSN < lsn
  old : ∀ lsn, src.lsn? = some lsn → s.processMessages = false → lsn < src.origin

namespace Linked

variable {s s' : State} {src src' : Source} {now : Nat} {f : Faults}

/-- The rows that are taken belong to the transaction being sent. -/
theorem segment (h : Linked s src) (hp : s.processMessages = true) : src.segment = none :=
  h.apart (by rw [h.lsn hp]; rfl)

/-- The stream moved on and the state may have moved in fields that are
not read. -/
theorem moveOn (h : Linked s src) (hl : Live s' src') (hlsn : src'.lsn? = src.lsn?)
    (ho : src'.origin = src.origin) (hlast : src.last ≤ src'.last)
    (hseg : src.lsn?.isSome = true → src'.segment = none)
    (hp : s'.processMessages = s.processMessages)
    (hcur : s'.currentTransactionLSN = s.currentTransactionLSN)
    (hw : s'.lastWrittenLSN = s.lastWrittenLSN) (hc : s'.lastCommitLSN = s.lastCommitLSN) :
    Linked s' src' where
  live := hl
  upper := by rw [hw, ho]; exact h.upper.trans (max_le_max_left _ hlast)
  apart := by rw [hlsn]; exact hseg
  lsn := by rw [hlsn, hp, hcur]; exact h.lsn
  ahead := by rw [hlsn, hp, ho, hw, hc]; exact h.ahead
  old := by rw [hlsn, hp, ho]; exact h.old

theorem commits {reason : FlushReason} (h : Linked s src) (hc : Commits now reason s s') :
    Linked s' src := by
  cases hc with
  | idle _ => exact h
  | done ho =>
    exact ⟨h.live.afterCommit now reason, h.live.bound.trans (max_le (le_max_right _ _) h.upper),
      h.apart, h.lsn, fun l hl hp hlt => ⟨(h.ahead l hl hp hlt).2, (h.ahead l hl hp hlt).2⟩, h.old⟩

theorem begins (h : Linked s src) {lsn : LSN} (hm : src.Sends (.begin lsn))
    (hle : s.lastWrittenLSN ≤ lsn) : Linked (begun lsn s) (src.onMessage s (.begin lsn)) where
  live := h.live.begins hm.2.2 hle
  upper := h.upper.trans (max_le_max_left _ hm.2.2.le)
  apart := fun _ => hm.2.1
  lsn := fun _ => rfl
  ahead := by
    intro l hl _ hlt
    obtain rfl := Option.some.inj hl
    have hw : s.lastWrittenLSN < lsn := lt_of_le_of_lt h.upper (max_lt hlt hm.2.2)
    exact ⟨hw, lt_of_le_of_lt h.live.bound (max_lt hm.2.2 hw)⟩
  old := nofun

theorem skips (h : Linked s src) {lsn : LSN} (hm : src.Sends (.begin lsn))
    (hlt : lsn < s.lastWrittenLSN) :
    Linked { s with processMessages := false } (src.onMessage s (.begin lsn)) where
  live := h.live.skips hm.2.2 hlt
  upper := h.upper.trans (max_le_max_left _ hm.2.2.le)
  apart := fun _ => hm.2.1
  lsn := nofun
  ahead := nofun
  old := by
    intro l hl _
    obtain rfl := Option.some.inj hl
    rcases lt_max_iff.mp (lt_of_lt_of_le hlt h.upper) with hold | hold
    · exact hold
    · exact absurd hold (lt_asymm hm.2.2)

/-- Between two transactions there is nothing to link. -/
theorem of_finish (hl : Live (finished s') src.finish)
    (hw : s'.lastWrittenLSN ≤ max src.origin src.last) : Linked (finished s') src.finish where
  live := hl
  upper := by rw [src.finish_origin, src.finish_last]; exact hw
  apart := fun hsome => by rw [src.finish_lsn?] at hsome; cases hsome
  lsn := nofun
  ahead := nofun
  old := fun _ hl' => by rw [src.finish_lsn?] at hl'; cases hl'

/-- **One message**: the link holds as long as the connection does. -/
theorem message {m : Message} (h : Linked s src) (hm : src.Sends m) (hr : s.running = true)
    (hc : s.connected = true) (ht : Turn s (.message now f m) s') (hr' : s'.running = true)
    (hc' : s'.connected = true) : Linked s' (src.onMessage s m) := by
  have hlive := h.live.message hm hr hc ht hr' hc'
  cases ht with
  | off hoff => cases hr.symm.trans hoff
  | unplugged hun => cases hc.symm.trans hun
  | aside b ha =>
    obtain ⟨hlsn, hlast, -⟩ := Source.onMessage_aside (s := s) ha hm
    obtain ⟨ho, hseg⟩ := Source.onMessage_aside_segment (s := s) ha hm h.apart
    exact h.moveOn hlive hlsn ho hlast hseg rfl rfl rfl rfl
  | skipped hp =>
    exact h.moveOn hlive (src.onRow_lsn? s _ _) (src.onRow_origin s _ _)
      (src.onRow_last s _ _).ge (fun hsome => (src.onRow_segment s _ _).trans (h.apart hsome))
      rfl rfl rfl rfl
  | row hp _ htk =>
    refine h.moveOn hlive (src.onRow_lsn? s _ _) (src.onRow_origin s _ _)
      (src.onRow_last s _ _).ge (fun hsome => (src.onRow_segment s _ _).trans (h.apart hsome))
      ?_ ?_ ?_ ?_ <;>
    · rw [markDirty, htk.frame]
  | rowFails _ _ _ => cases hc'
  | @relation _ _ rel s₁ hrd =>
    have hready : Linked s₁ src := by
      cases hrd with
      | fresh _ => exact h
      | known _ hcm => exact h.commits hcm
    exact hready.moveOn hlive rfl rfl le_rfl hready.apart rfl rfl rfl rfl
  | relationFails _ => cases hc'
  | stale hlt => exact h.skips hm hlt
  | extendBegin hle _ => exact h.begins hm hle
  | begin hle _ hcm =>
    have hbegun := (h.begins hm hle).commits hcm
    exact hbegun.moveOn hlive rfl rfl le_rfl hbegun.apart rfl rfl rfl rfl
  | extendCommit _ => exact of_finish hlive h.upper
  | commit _ hcm =>
    refine of_finish hlive ?_
    cases hcm with
    | idle _ => exact h.upper
    | done _ => exact le_max_of_le_right (h.live.lsn _ hm).le
  | breaks hb => cases hc'.symm.trans hb.connected
  | ends _ => cases hr'

theorem tick (h : Linked s src) (ht : Turn s (.tick now f) s') (hr' : s'.running = true) :
    Linked s' src := by
  cases ht with
  | off _ | wait => exact h
  | tick _ _ _ hcm => exact h.commits hcm
  | ends _ => cases hr'

theorem reset (now : Nat) (s : State) (src : Source) : Linked (reset now s) (src.restart s) where
  live := .reset now s src
  upper := le_max_left _ _
  apart := nofun
  lsn := nofun
  ahead := nofun
  old := nofun

end Linked

end MyDuck.Logrepl
