/-
MyDuck.Logrepl.Accounts — the changes of whole transactions, along runs in
which no statement fails and no transaction is streamed.

`Ledger` runs with the replicator and notes the transactions it has taken,
in the order of their commits. What is committed or in flight is exactly
the changes of these transactions and of the one being taken, whatever
commits happened in between (`Ledger.Exact`).
-/
import MyDuck.Logrepl.TableRuns
import MyDuck.Logrepl.LinkTheorems

namespace MyDuck.Logrepl

open MyDuck.Delta

theorem Commits.untorn {s s' : State} {now : Nat} {reason : FlushReason}
    (h : Commits now reason s s') (hu : Untorn s.deltas) : Untorn s'.deltas := by
  cases h with
  | idle _ => exact hu
  | done _ => exact Drained.untorn afterFlush_empty

/-! ## The ledger -/

/-- The message is about a streamed transaction. -/
def Message.isStreamed : Message → Bool
  | .streamStart _ | .streamStop | .streamCommit _ _ | .streamAbort _ _ => true
  | .relation _ | .begin _ | .commit _ | .row _ _ | .other => false

/-- The replicator with the transactions it has taken. -/
structure Ledger where
  replica : Replica
  taken : List Txn := []

/-- The changes of the transaction being taken. -/
def openChanges (s : State) (src : Source) : Changes :=
  if s.processMessages then src.openTagged else 0

namespace Ledger

def takenAfter (v : Ledger) : Feed → List Txn
  | .message _ (.commit _) =>
    if v.replica.state.processMessages then v.taken ++ v.replica.source.current.toList else v.taken
  | .message _ _ => v.taken
  | .tick _ => v.taken

def step (v : Ledger) (i : Feed) : Ledger := ⟨v.replica.step i.input, v.takenAfter i⟩

def start (lsn : LSN) (now : Nat) : Ledger := ⟨Replica.start lsn now, []⟩

/-- The source can send the message, outside of streams, and the replicator
can read it. -/
def Plain (v : Ledger) : Feed → Prop
  | .message _ m => v.replica.source.Sends m ∧ Readable v.replica.state m ∧ m.isStreamed = false
  | .tick _ => True

/-- The books are balanced: what is committed or in flight is what was
taken. -/
def Balanced (s : State) (src : Source) (taken : List Txn) : Prop :=
  applied s = taggedAll taken + openChanges s src

/-- The replicator is up, and its books are balanced. -/
structure Exact (v : Ledger) : Prop where
  running : v.replica.state.running = true
  connected : v.replica.state.connected = true
  untorn : Untorn v.replica.state.deltas
  link : Linked v.replica.state v.replica.source
  books : Balanced v.replica.state v.replica.source v.taken

theorem exact_start (lsn : LSN) (now : Nat) : (start lsn now).Exact where
  running := rfl
  connected := rfl
  untorn := nofun
  link := .reset now { lastWrittenLSN := lsn } {}
  books := rfl

section Step

variable {s s' : State} {src : Source} {now : Nat} {m : Message}

theorem untorn_of_turn (hu : Untorn s.deltas) (ht : Turn s (.message now {} m) s')
    (hr : s'.running = true) (hc : s'.connected = true) : Untorn s'.deltas := by
  cases ht with
  | off _ | unplugged _ | aside _ _ | skipped _ => exact hu
  | row _ hok _ => exact processRow_untorn hu hok
  | rowFails _ _ _ => cases hc
  | relation hrd =>
    cases hrd with
    | fresh _ => exact hu
    | known _ hcm => exact (hcm.untorn hu :)
  | relationFails _ => cases hc
  | stale _ | extendBegin _ _ => exact hu
  | begin _ _ hcm => exact (hcm.untorn hu :)
  | extendCommit _ => exact hu
  | commit _ hcm => exact (hcm.untorn hu :)
  | breaks hb => cases hc.symm.trans hb.connected
  | ends _ => cases hr

/-- Nothing is being taken between two transactions. -/
theorem openChanges_of_none (h : src.current = none) : openChanges s src = 0 := by
  rw [openChanges, Source.openTagged_of_none h, ite_self]

theorem Balanced.commits {taken : List Txn} {reason : FlushReason} (h : Balanced s src taken)
    (hc : Commits now reason s s') : Balanced s' src taken := by
  rw [Balanced, hc.applied, openChanges, hc.frame.2.2.2]
  exact h

theorem Balanced.finishes {taken : List Txn} (h : Balanced s src taken) :
    Balanced (finished s) src.finish
      (if s.processMessages then taken ++ src.current.toList else taken) := by
  have hopen : openChanges (finished s) src.finish = 0 := rfl
  have happ : applied (finished s) = applied s := rfl
  rw [Balanced, happ, hopen, add_zero, h, openChanges]
  split
  · rw [taggedAll_append]
    congr 1
    cases hcur : src.current with
    | none => exact Source.openTagged_of_none hcur
    | some t => exact (Source.openTagged_of_some hcur).trans (taggedAll_singleton t).symm
  · exact add_zero _

theorem Balanced.skips {taken : List Txn} {xid : Nat} {rm : RowMessage} (h : Balanced s src taken)
    (hp : s.processMessages = false) : Balanced s (src.onRow s xid rm) taken := by
  rw [Balanced, openChanges, hp] at h ⊢
  exact h

theorem Balanced.row {taken : List Txn} {xid : Nat} {rm : RowMessage} (h : Balanced s src taken)
    (hl : Linked s src) (hp : s.processMessages = true)
    (ht : Takes s s' (tag s.currentTransactionLSN (rowChanges s rm))) :
    Balanced (markDirty s') (src.onRow s xid rm) taken := by
  have hp' : (markDirty s').processMessages = true := by rw [markDirty, ht.frame]; exact hp
  have happ : applied (markDirty s') = applied s' := rfl
  rw [Balanced, openChanges, if_pos hp] at h
  rw [Balanced, openChanges, if_pos hp', happ, ht.applied, h,
    Source.onRow_of_none (hl.segment hp), Source.openTagged_add (hl.lsn hp), add_assoc]

end Step

theorem Exact.turns {v : Ledger} {now : Nat} {m : Message} (h : v.Exact)
    (hp : v.Plain (.message now m)) :
    ∃ s', Turn v.replica.state (.message now {} m) s' ∧ s'.running = true ∧ s'.connected = true ∧
      v.step (.message now m) = ⟨⟨s', v.replica.source.onMessage v.replica.state m⟩,
        v.takenAfter (.message now m)⟩ := by
  have hup := handle_message now h.running h.connected h.untorn hp.2.1
  refine ⟨handle v.replica.state (.message now {} m), handle_turn _ _,
    hup.running.trans h.running, hup.connected.trans h.connected, ?_⟩
  simp [step, Feed.input, Replica.step, Source.onInput, h.running, h.connected]

/-- **One message**: the books stay balanced. -/
theorem Exact.message {v : Ledger} {now : Nat} {m : Message} (h : v.Exact)
    (hp : v.Plain (.message now m)) : (v.step (.message now m)).Exact := by
  obtain ⟨s', ht, hr', hc', hstep⟩ := h.turns hp
  obtain ⟨hs, -, hm⟩ := hp
  rw [hstep]
  refine ⟨hr', hc', untorn_of_turn h.untorn ht hr' hc',
    h.link.message hs h.running h.connected ht hr' hc', ?_⟩
  show Balanced s' (v.replica.source.onMessage v.replica.state m) (v.takenAfter (.message now m))
  have hb := h.books
  cases ht with
  | off hoff => cases h.running.symm.trans hoff
  | unplugged hun => cases h.connected.symm.trans hun
  | aside b ha =>
    cases m with
    | other => exact hb
    | streamStart _ | streamStop | streamCommit _ _ | streamAbort _ _ => cases hm
    | relation _ | begin _ | commit _ | row _ _ => cases ha
  | skipped hp => exact hb.skips hp
  | row hp _ htk => exact hb.row h.link hp htk
  | rowFails _ _ _ => cases hc'
  | @relation _ _ rel s₁ hrd =>
    have hready : Balanced s₁ v.replica.source v.taken := by
      cases hrd with
      | fresh _ => exact hb
      | known _ hcm => exact hb.commits hcm
    exact (applied_registered rel s₁).trans hready
  | relationFails _ => cases hc'
  | stale hlt | extendBegin _ _ => exact hb.trans (congrArg _ (openChanges_of_none hs.1))
  | @begin _ _ lsn s₁ _ _ hcm =>
    have hbegun : Balanced (begun lsn v.replica.state)
        (v.replica.source.onMessage v.replica.state (.begin lsn)) v.taken :=
      hb.trans (congrArg _ (openChanges_of_none hs.1))
    exact (hbegun.commits hcm :)
  | extendCommit _ => exact (hb.finishes :)
  | @commit _ _ lsn s₁ _ hcm =>
    have hcount : Balanced (counted lsn v.replica.state) v.replica.source v.taken := hb
    have hend := (hcount.commits hcm).finishes
    rw [hcm.frame.2.2.2] at hend
    exact hend
  | breaks hbr => cases hc'.symm.trans hbr.connected
  | ends _ => cases hr'

theorem Exact.tick {v : Ledger} {now : Nat} (h : v.Exact) : (v.step (.tick now)).Exact := by
  have hturn : ∀ {s' : State}, Turn v.replica.state (.tick now {}) s' → s'.running = true →
      Untorn s'.deltas ∧ Balanced s' v.replica.source v.taken := by
    intro s' ht hr'
    cases ht with
    | off _ | wait => exact ⟨h.untorn, h.books⟩
    | tick _ _ _ hcm => exact ⟨hcm.untorn h.untorn, h.books.commits hcm⟩
    | ends _ => cases hr'
  obtain ⟨hr', hc', -, -⟩ := handle_tick now h.running h.connected h.untorn
  have ht := handle_turn v.replica.state (.tick now {})
  have hsrc : (v.step (.tick now)).replica.source = v.replica.source := by
    simp [step, Feed.input, Replica.step, Source.onInput, h.running]
  exact ⟨hr', hc', (hturn ht hr').1, hsrc.symm ▸ h.link.tick ht hr', hsrc.symm ▸ (hturn ht hr').2⟩

/-- **The step**: the books stay balanced. -/
theorem Exact.step {v : Ledger} {i : Feed} (h : v.Exact) (hp : v.Plain i) : (v.step i).Exact := by
  cases i with
  | message now m => exact h.message hp
  | tick now => exact h.tick

end Ledger

instance {ε σ : Type} (o : Outcome ε σ) : Decidable (∃ s, o = .ok s) :=
  match o with
  | .ok s => isTrue ⟨s, rfl⟩
  | .error _ _ => isFalse (by simp)
  | .panic => isFalse (by simp)

instance (s : State) (m : Message) : Decidable (Readable s m) :=
  match m with
  | .relation _ => inferInstanceAs (Decidable (_ = true))
  | .row _ _ => inferInstanceAs (Decidable (_ → ∃ _, _ = _))
  | .begin _ | .commit _ | .streamStart _ | .streamStop | .streamCommit _ _ | .streamAbort _ _
  | .other => isTrue trivial

instance (v : Ledger) (i : Feed) : Decidable (v.Plain i) :=
  match i with
  | .message _ _ => inferInstanceAs (Decidable (_ ∧ _ ∧ _))
  | .tick _ => isTrue trivial

end MyDuck.Logrepl
