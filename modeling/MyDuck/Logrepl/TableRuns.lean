/-
MyDuck.Logrepl.TableRuns — the steps of the replicator in a run in which
no statement fails.

`Feed` is what the replicator is fed in such a run: messages and ticks.
-/
import MyDuck.Logrepl.PositionTheorems
import MyDuck.Logrepl.TupleTheorems

namespace MyDuck.Logrepl

open MyDuck.Delta

/-! ## Whole rows -/

theorem append_untorn {s s' : State} {id : Nat} {tuple : Tuple} {action event : RowEventType}
    {onlyKeys : Bool} (hu : Untorn s.deltas)
    (h : append id tuple action event onlyKeys s = .ok s') : Untorn s'.deltas := by
  have hput : ∀ {rel : Relation} {a : DeltaAppender} {size : Nat},
      a.torn = (getDeltaAppender rel.table rel.schema s.deltas).torn →
      Untorn (putAppender rel a size s).deltas := fun ha =>
    withAppender_untorn hu fun _ => ha.trans (getDeltaAppender_torn hu)
  unfold append at h
  cases hrel : s.relations.lookup id with
  | none => simp [hrel] at h
  | some rel =>
    simp only [hrel] at h
    split_ifs at h with ht hkind
    · rw [← Outcome.ok.inj h]
      exact hput rfl
    · cases hread : readTuple onlyKeys rel.columns tuple with
      | panic | error e r => simp [hread] at h
      | ok r =>
        simp only [hread] at h
        rw [← Outcome.ok.inj h]
        exact hput (by simp [DeltaAppender.appendRow])

theorem truncateAll_deltas {f : Faults} {ids : List Nat} {s s' : State}
    (h : truncateAll f ids s = .ok s') : s'.deltas = s.deltas := by
  induction ids generalizing s with
  | nil => rw [← Outcome.ok.inj h]
  | cons id ids ih =>
    obtain ⟨s₁, h₁, h₂⟩ := Outcome.andThen_eq_ok.mp h
    rw [ih h₂]
    unfold truncate at h₁
    cases hrel : s.relations.lookup id with
    | none => simp [hrel] at h₁
    | some rel =>
      simp only [hrel] at h₁
      split_ifs at h₁
      rw [← Outcome.ok.inj h₁]

/-- A row message that is read leaves no row torn. -/
theorem processRow_untorn {f : Faults} {m : RowMessage} {s s' : State} (hu : Untorn s.deltas)
    (h : processRow f m s = .ok s') : Untorn s'.deltas := by
  cases m with
  | insert id tuple =>
    obtain ⟨s₁, h₁, h₂⟩ := Outcome.andThen_eq_ok.mp h
    rw [← Outcome.ok.inj h₂]
    exact (append_untorn hu h₁ :)
  | update id old new =>
    obtain ⟨s₁, h₁, h₂⟩ := Outcome.andThen_eq_ok.mp h
    obtain ⟨s₂, h₂, h₃⟩ := Outcome.andThen_eq_ok.mp h₂
    have hu₁ : Untorn s₁.deltas := by
      cases old with
      | key tuple | old tuple | none => exact append_untorn hu h₁
    rw [← Outcome.ok.inj h₃]
    exact (append_untorn hu₁ h₂ :)
  | delete id old =>
    obtain ⟨s₁, h₁, h₂⟩ := Outcome.andThen_eq_ok.mp h
    rw [← Outcome.ok.inj h₂]
    cases old with
    | key tuple | old tuple => exact (append_untorn hu h₁ :)
    | none => cases h₁
  | truncate ids =>
    obtain ⟨s₁, h₁, h₂⟩ := Outcome.andThen_eq_ok.mp h
    have hsame : s₁.deltas = s.deltas := by
      rw [truncateAll_deltas h₁, flushWithoutTxn, flush_without_txn]
    rw [← Outcome.ok.inj h₂]
    exact (hsame.symm ▸ hu :)

/-! ## Runs without failing statements -/

/-- What the replicator is fed in a run in which no statement fails. -/
inductive Feed where
  | message (now : Nat) (m : Message)
  | tick (now : Nat)
  deriving DecidableEq, Repr

def Feed.input : Feed → Input
  | .message now m => .message now {} m
  | .tick now => .tick now {}

/-- The relations that are known after a message. -/
def Message.register (m : Message) (relations : List (Nat × Relation)) : List (Nat × Relation) :=
  match m with
  | .relation rel => (rel.id, rel) :: relations
  | .begin _ | .commit _ | .row _ _ | .streamStart _ | .streamStop | .streamCommit _ _
  | .streamAbort _ _ | .other => relations

/-- Whether rows are taken after a message. -/
def takesRows (s : State) : Message → Bool
  | .begin lsn => decide (s.lastWrittenLSN ≤ lsn)
  | .commit _ => false
  | .relation _ | .row _ _ | .streamStart _ | .streamStop | .streamCommit _ _ | .streamAbort _ _
  | .other => s.processMessages

/-- What a message leaves of the fields that have nothing to do with the
data: the loop and the connection are up, relations are registered, and
rows are taken between the `Begin` and the `Commit` of a transaction that
is not stale. -/
structure Processed (s : State) (m : Message) (s' : State) : Prop where
  running : s'.running = s.running
  connected : s'.connected = s.connected
  relations : s'.relations = m.register s.relations
  processing : s'.processMessages = takesRows s m

/-- The message can be read: rows by the relations sent before, relations
by the types that are known. -/
def Readable (s : State) : Message → Prop
  | .relation rel => rel.typed = true
  | .row _ m => s.processMessages = true → ∃ s', processRow {} m s = .ok s'
  | .begin _ | .commit _ | .streamStart _ | .streamStop | .streamCommit _ _ | .streamAbort _ _
  | .other => True

/-- A readable message is processed without error. -/
theorem processMessage_ok {s : State} {m : Message} (now : Nat) (hu : Untorn s.deltas)
    (hm : Readable s m) : ∃ s', processMessage {} now m s = .ok s' ∧ Processed s m s' := by
  cases m with
  | relation rel =>
    have hreg : ∀ s, registerRelation {} rel s = .ok (registered rel s) := by
      intro s
      simp only [Readable] at hm
      simp [registerRelation, hm, registered]
    simp only [processMessage, processRelation]
    split
    · obtain ⟨s₁, h₁, hc⟩ := commitOngoingTxn_ok now .ddlStmt hu
      obtain ⟨hr, hcon, hrel, hp⟩ := hc.frame
      refine ⟨registered rel s₁, by rw [h₁]; exact hreg s₁, hr, hcon, ?_, hp⟩
      simp only [registered, Message.register, hrel]
    · exact ⟨registered rel s, hreg s, rfl, rfl, rfl, rfl⟩
  | begin lsn =>
    simp only [processMessage, processBegin]
    split
    · next hlt => exact ⟨_, rfl, rfl, rfl, rfl, (decide_eq_false (not_le.mpr hlt)).symm⟩
    · next hle =>
      have htrue : takesRows s (.begin lsn) = true := decide_eq_true (not_lt.mp hle)
      split
      · exact ⟨_, rfl, rfl, rfl, rfl, htrue.symm⟩
      · obtain ⟨s₁, h₁, hc⟩ := commitOngoingTxn_ok now
          (mayExtendBatchTxn now (begun lsn s)).2 (s := begun lsn s) hu
        obtain ⟨hr, hcon, hrel, hp⟩ := hc.frame
        exact ⟨opened s₁, Outcome.andThen_eq_ok.mpr ⟨s₁, h₁, rfl⟩, hr, hcon, hrel,
          hp.trans htrue.symm⟩
  | commit lsn =>
    simp only [processMessage, processCommit]
    split
    · exact ⟨_, rfl, rfl, rfl, rfl, rfl⟩
    · obtain ⟨s₁, h₁, hc⟩ := commitOngoingTxn_ok now
          (mayExtendBatchTxn now (counted lsn s)).2 (s := counted lsn s) hu
      obtain ⟨hr, hcon, hrel, -⟩ := hc.frame
      exact ⟨finished s₁, Outcome.andThen_eq_ok.mpr ⟨s₁, h₁, rfl⟩, hr, hcon, hrel, rfl⟩
  | row xid m =>
    simp only [processMessage]
    split
    · next hp =>
      obtain ⟨s', hs'⟩ := hm hp
      have hends := processRow_ends {} m s
      rw [hs'] at hends
      obtain ⟨s₁, rfl, h₁⟩ := hends
      rw [h₁.frame] at hs'
      exact ⟨_, hs', rfl, rfl, rfl, rfl⟩
    · exact ⟨s, rfl, rfl, rfl, rfl, rfl⟩
  | streamStart xid | streamStop | streamCommit xid lsn | streamAbort xid subXid | other =>
    exact ⟨_, rfl, rfl, rfl, rfl, rfl⟩

theorem handle_message {s : State} {m : Message} (now : Nat) (hr : s.running = true)
    (hc : s.connected = true) (hu : Untorn s.deltas) (hm : Readable s m) :
    Processed s m (handle s (.message now {} m)) := by
  obtain ⟨s', hs', hp⟩ := processMessage_ok now hu hm
  have hstep : handle s (.message now {} m) = s' := by simp [handle, hr, hc, hs']
  exact hstep.symm ▸ hp

theorem handle_tick {s : State} (now : Nat) (hr : s.running = true) (hc : s.connected = true)
    (hu : Untorn s.deltas) :
    (handle s (.tick now {})).running = true ∧ (handle s (.tick now {})).connected = true ∧
      (handle s (.tick now {})).relations = s.relations ∧
      (handle s (.tick now {})).processMessages = s.processMessages := by
  simp only [handle, hr, hc, commitOngoingTxnIfClean]
  split_ifs with hnot hdue hclean
  · cases hnot
  · obtain ⟨s', hs', hcm⟩ := commitOngoingTxn_ok now .timeTick hu
    obtain ⟨hr', hc', hrel, hp⟩ := hcm.frame
    rw [hs']
    exact ⟨hr'.trans hr, hc'.trans hc, hrel, hp⟩
  · exact ⟨hr, hc, rfl, rfl⟩
  · exact ⟨hr, hc, rfl, rfl⟩

end MyDuck.Logrepl
