/-
MyDuck.Logrepl.ControlTheorems — the handshake between `Stop` and the
loop of a replicator.

As long as one loop and one `Stop` are under way at a time, a replicator
is in one of four conditions: `Idle`, `Active` (its loop starts or runs),
`Left` (its loop has left on an error) and `Stopping` (one call of `Stop`
has looked and has not returned). Each is kept or passed on by the steps
of the loop and of the call, which is what the subscriptions use as well.

`stop_safe_along`: in every run in which `Orderly` holds at every step,
no `Stop` sends on a closed or nil channel, and the loop that a `Stop`
addressed is gone when it has returned. A loop that leaves on an error
behind the check of a `Stop`, and a second `Stop`, break it.
-/
import MyDuck.Logrepl.Control

namespace MyDuck.Logrepl

namespace Control

/-! ## The conditions of a replicator -/

/-- A call of `Stop` that has returned, the loop it addressed gone. -/
def AtRest (r : Control) : StopPhase → Prop
  | .returned none => True
  | .returned (some i) => i < r.spawned ∧ r.loops i = .gone
  | _ => False

def NoLoop (r : Control) : Prop := Quiet (· = .gone) r.loops

def OnlyLoop (r : Control) (i : Nat) : Prop := QuietBut (· = .gone) r.loops i

def NoStop (r : Control) : Prop := Quiet r.AtRest r.stops

def OnlyStop (r : Control) (j : Nat) : Prop := QuietBut r.AtRest r.stops j

/-- A channel that has not been made is not closed. -/
structure Fresh (r : Control) : Prop where
  closed : ∀ c, r.channels ≤ c → r.closed c = false
  stop : ∀ c, r.stop = some c → c < r.channels

/-- No loop is alive. -/
structure Resting (r : Control) : Prop where
  running : r.running = false
  noLoop : r.NoLoop

/-- Loop `i` has been spawned. -/
structure Begun (r : Control) (i : Nat) : Prop where
  running : r.running = false
  phase : r.loops i = .starting
  only : r.OnlyLoop i
  lt : i < r.spawned

/-- Loop `i` runs, and `c` is its channel. -/
structure Up (r : Control) (i c : Nat) : Prop where
  running : r.running = true
  runner : r.runner = i
  stop : r.stop = some c
  isOpen : r.closed c = false
  phase : r.loops i = .top ∨ r.loops i = .waiting c
  only : r.OnlyLoop i
  lt : i < r.spawned

/-- Loop `i` has left and has not been through `shutdown`. -/
structure Down (r : Control) (i c : Nat) : Prop where
  running : r.running = true
  runner : r.runner = i
  stop : r.stop = some c
  isOpen : r.closed c = false
  phase : r.loops i = .leaving
  only : r.OnlyLoop i
  lt : i < r.spawned

/-- Loop `i` has been through `shutdown`. -/
structure Over (r : Control) (i c : Nat) : Prop where
  running : r.running = false
  stop : r.stop = some c
  isClosed : r.closed c = true
  noLoop : r.NoLoop
  lt : i < r.spawned

def Idle (r : Control) : Prop := r.Resting ∧ r.NoStop

def Active (r : Control) : Prop := ((∃ i, r.Begun i) ∨ ∃ i c, r.Up i c) ∧ r.NoStop

def Left (r : Control) : Prop := (∃ i c, r.Down i c) ∧ r.NoStop

/-- Call `j` has looked and has not returned. -/
structure Stopping (r : Control) (j : Nat) : Prop where
  only : r.OnlyStop j
  lt : j < r.called
  phase : ∃ i c, (r.Up i c ∧ (r.stops j = .checked i ∨ r.stops j = .sending i c)) ∨
    ((r.Down i c ∨ r.Over i c) ∧ (r.stops j = .sent i ∨ r.stops j = .awaiting i c))

/-! ## What a step leaves alone -/

def Extends (r r' : Control) : Prop :=
  r.spawned ≤ r'.spawned ∧ ∀ i, i < r.spawned → r.loops i = .gone → r'.loops i = .gone

variable {r : Control} {i j k c : Nat} {e : ControlEvent}

theorem Extends.atRest {r' : Control} (h : Extends r r') (p : StopPhase) (hp : r.AtRest p) :
    r'.AtRest p := by
  unfold AtRest at hp ⊢
  split at hp
  · trivial
  · exact ⟨Nat.lt_of_lt_of_le hp.1 h.1, h.2 _ hp.1 hp.2⟩
  · cases hp

theorem onLoop_gone (h : r.loops i = .gone) (e : LoopEvent) : r.onLoop i e = r := by
  simp [onLoop, h]

/-- A step of a loop leaves the calls of `Stop` alone, and those that had
returned are still at rest. -/
theorem onLoop_stops (r : Control) (i : Nat) (e : LoopEvent) :
    (r.onLoop i e).stops = r.stops ∧ (r.onLoop i e).called = r.called := by
  unfold onLoop
  repeat' split
  all_goals exact ⟨rfl, rfl⟩

theorem extends_setLoop (hi : r.loops i ≠ .gone) (p : LoopPhase) : Extends r (r.setLoop i p) := by
  refine ⟨le_rfl, fun k _ hk => ?_⟩
  have hne : k ≠ i := fun h => hi (h ▸ hk)
  exact (Function.update_of_ne hne _ _).trans hk

theorem onLoop_extends (r : Control) (i : Nat) (e : LoopEvent) : Extends r (r.onLoop i e) := by
  by_cases hi : r.loops i = .gone
  · rw [onLoop_gone hi]
    exact ⟨le_rfl, fun _ _ h => h⟩
  · unfold onLoop
    repeat' split
    all_goals first
      | exact ⟨le_rfl, fun k hlt hk => (extends_setLoop hi _).2 k hlt hk⟩
      | exact ⟨le_rfl, fun _ _ hk => hk⟩

theorem NoStop.onLoop (h : r.NoStop) (i : Nat) (e : LoopEvent) : (r.onLoop i e).NoStop := by
  unfold NoStop
  rw [(r.onLoop_stops i e).1]
  exact Quiet.mono h (r.onLoop_extends i e).atRest

theorem OnlyStop.onLoop (h : r.OnlyStop j) (i : Nat) (e : LoopEvent) :
    (r.onLoop i e).OnlyStop j := by
  unfold OnlyStop
  rw [(r.onLoop_stops i e).1]
  exact QuietBut.mono h (r.onLoop_extends i e).atRest

theorem Fresh.onLoop (h : r.Fresh) (i : Nat) (e : LoopEvent) : (r.onLoop i e).Fresh := by
  unfold Control.onLoop
  split
  case h_1 =>
    exact ⟨fun c hc => h.closed c (Nat.le_of_succ_le hc), fun c hc => by
      obtain rfl := Option.some.inj hc
      exact Nat.lt_succ_self _⟩
  case h_9 =>
    split
    next c hstop =>
      split
      · exact ⟨h.closed, h.stop⟩
      · refine ⟨fun d hd => ?_, h.stop⟩
        have hne : d ≠ c := fun hdc => Nat.not_le_of_lt (h.stop c hstop) (hdc ▸ hd)
        exact (Function.update_of_ne hne _ _).trans (h.closed d hd)
    next => exact ⟨h.closed, h.stop⟩
  all_goals
    repeat' split
    all_goals exact ⟨h.closed, h.stop⟩

/-! ## The steps of a loop -/

theorem onLoop_other (h : r.OnlyLoop i) (hk : k ≠ i) (e : LoopEvent) : r.onLoop k e = r :=
  onLoop_gone (h k hk) e

theorem OnlyLoop.setLoop (h : r.OnlyLoop i) (p : LoopPhase) : (r.setLoop i p).OnlyLoop i :=
  QuietBut.update h p

@[simp] theorem setLoop_loops (r : Control) (i : Nat) (p : LoopPhase) :
    (r.setLoop i p).loops i = p :=
  Function.update_self _ _ _

theorem Begun.onLoop (h : r.Begun i) (hf : r.Fresh) (k : Nat) (e : LoopEvent) :
    (r.onLoop k e).Begun i ∨ (r.onLoop k e).Up i r.channels ∨
      (e = .abort ∧ (r.onLoop k e).Resting) := by
  by_cases hk : k = i
  · subst hk
    cases e with
    | start =>
      refine .inr (.inl ?_)
      simp only [Control.onLoop, h.phase]
      exact ⟨rfl, rfl, rfl, hf.closed _ le_rfl, .inl (setLoop_loops _ _ _), h.only.setLoop .top,
        h.lt⟩
    | abort =>
      refine .inr (.inr ⟨rfl, ?_⟩)
      simp only [Control.onLoop, h.phase]
      exact ⟨h.running, QuietBut.quiet h.only rfl⟩
    | _ => simpa [Control.onLoop, h.phase] using .inl h
  · rw [onLoop_other h.only hk]
    exact .inl h

theorem Up.onLoop (h : r.Up i c) (k : Nat) (e : LoopEvent) :
    (r.onLoop k e).Up i c ∨ (e = .leave ∧ k = i ∧ (r.onLoop k e).Down i c) := by
  by_cases hk : k = i
  · subst hk
    have hstay : ∀ p, (p = .top ∨ p = .waiting c) → (r.setLoop k p).Up k c := fun p hp =>
      ⟨h.running, h.runner, h.stop, h.isOpen, by rwa [setLoop_loops], h.only.setLoop p, h.lt⟩
    have hleave : (r.setLoop k .leaving).Down k c :=
      ⟨h.running, h.runner, h.stop, h.isOpen, setLoop_loops _ _ _, h.only.setLoop _, h.lt⟩
    rcases h.phase with hp | hp
    · cases e with
      | look => exact .inl (by simpa [Control.onLoop, hp, h.stop] using hstay _ (.inr rfl))
      | hear => exact .inl (by simpa [Control.onLoop, hp, stopClosed, h.stop, h.isOpen] using h)
      | leave => exact .inr ⟨rfl, rfl, by simpa [Control.onLoop, hp] using hleave⟩
      | _ => exact .inl (by simpa [Control.onLoop, hp] using h)
    · cases e with
      | wake => exact .inl (by simpa [Control.onLoop, hp] using hstay _ (.inl rfl))
      | hear => exact .inl (by simpa [Control.onLoop, hp, h.isOpen] using h)
      | leave => exact .inr ⟨rfl, rfl, by simpa [Control.onLoop, hp] using hleave⟩
      | _ => exact .inl (by simpa [Control.onLoop, hp] using h)
  · rw [onLoop_other h.only hk]
    exact .inl h

theorem Down.onLoop (h : r.Down i c) (k : Nat) (e : LoopEvent) :
    (r.onLoop k e).Down i c ∨ (r.onLoop k e).Over i c := by
  by_cases hk : k = i
  · subst hk
    cases e with
    | shutdown =>
      refine .inr ?_
      simp only [Control.onLoop, h.phase, h.stop, h.isOpen, Bool.false_eq_true, if_false]
      exact ⟨rfl, rfl, Function.update_self _ _ _, QuietBut.quiet h.only rfl, h.lt⟩
    | _ => exact .inl (by simpa [Control.onLoop, h.phase] using h)
  · rw [onLoop_other h.only hk]
    exact .inl h

theorem NoLoop.onLoop (h : r.NoLoop) (i : Nat) (e : LoopEvent) : r.onLoop i e = r :=
  onLoop_gone (h i) e

/-! ## The steps of a call of `Stop` -/

theorem onStop_atRest (h : r.AtRest (r.stops j)) (e : StopEvent) : r.onStop j e = r := by
  unfold onStop
  cases hp : r.stops j <;> simp_all [AtRest]

theorem NoStop.onStop (h : r.NoStop) (j : Nat) (e : StopEvent) : r.onStop j e = r :=
  onStop_atRest (h j) e

theorem onStop_other (h : r.OnlyStop j) (hk : k ≠ j) (e : StopEvent) : r.onStop k e = r :=
  onStop_atRest (h k hk) e

@[simp] theorem setStop_stops (r : Control) (j : Nat) (p : StopPhase) :
    (r.setStop j p).stops j = p :=
  Function.update_self _ _ _

/-- What a replicator is in does not depend on its calls of `Stop`. -/
theorem Up.setStop (h : r.Up i c) (j : Nat) (p : StopPhase) : (r.setStop j p).Up i c :=
  ⟨h.running, h.runner, h.stop, h.isOpen, h.phase, h.only, h.lt⟩

theorem Down.setStop (h : r.Down i c) (j : Nat) (p : StopPhase) : (r.setStop j p).Down i c :=
  ⟨h.running, h.runner, h.stop, h.isOpen, h.phase, h.only, h.lt⟩

theorem Over.setStop (h : r.Over i c) (j : Nat) (p : StopPhase) : (r.setStop j p).Over i c :=
  ⟨h.running, h.stop, h.isClosed, h.noLoop, h.lt⟩

theorem OnlyStop.setStop (h : r.OnlyStop j) (p : StopPhase) : (r.setStop j p).OnlyStop j :=
  QuietBut.update h p

theorem Stopping.onStop (h : r.Stopping j) (k : Nat) (e : StopEvent) :
    (r.onStop k e).Stopping j ∨ (r.onStop k e).Idle := by
  by_cases hk : k = j
  · subst hk
    obtain ⟨i, c, ⟨hup, hp | hp⟩ | ⟨hdown, hp | hp⟩⟩ := h.phase
    · -- it has looked: the channel is open
      cases e with
      | send =>
        refine .inl ?_
        simp only [Control.onStop, hp, hup.stop, hup.isOpen, Bool.false_eq_true, if_false]
        exact ⟨h.only.setStop _, h.lt, i, c, .inl ⟨hup.setStop _ _, .inr (setStop_stops _ _ _)⟩⟩
      | _ => exact .inl (by simpa [Control.onStop, hp] using h)
    · cases e with
      | cut => exact .inl (by simpa [Control.onStop, hp, hup.isOpen] using h)
      | _ => exact .inl (by simpa [Control.onStop, hp] using h)
    · have hstop : r.stop = some c := hdown.elim (·.stop) (·.stop)
      cases e with
      | listen =>
        refine .inl ?_
        simp only [Control.onStop, hp, hstop]
        exact ⟨h.only.setStop _, h.lt, i, c, .inr
          ⟨hdown.imp (·.setStop _ _) (·.setStop _ _), .inr (setStop_stops _ _ _)⟩⟩
      | _ => exact .inl (by simpa [Control.onStop, hp] using h)
    · cases e with
      | acknowledge =>
        rcases hdown with hdown | hover
        · exact .inl (by simpa [Control.onStop, hp, hdown.isOpen] using h)
        · refine .inr ?_
          simp only [Control.onStop, hp, hover.isClosed, if_true]
          exact ⟨⟨hover.running, hover.noLoop⟩,
            QuietBut.quiet h.only ⟨hover.lt, hover.noLoop i⟩⟩
      | _ => exact .inl (by simpa [Control.onStop, hp] using h)
  · rw [onStop_other h.only hk]
    exact .inl h

/-! ## The other steps -/

/-- A call that is not at rest is the one under way. -/
theorem Stopping.eq_of_sending {a : Nat} (h : r.Stopping j) (hk : r.stops k = .sending a c) :
    k = j :=
  QuietBut.eq h.only (by simp [hk, AtRest])

theorem Stopping.eq_of_awaiting {a : Nat} (h : r.Stopping j) (hk : r.stops k = .awaiting a c) :
    k = j :=
  QuietBut.eq h.only (by simp [hk, AtRest])

theorem NoStop.not_sending (h : r.NoStop) {a : Nat} : r.stops k ≠ .sending a c := by
  intro hk
  have := h k
  simp [hk, AtRest] at this

theorem NoStop.receive (h : r.NoStop) (i j : Nat) : r.step (.receive i j) = r := by
  simp only [step]
  split
  next hk => exact absurd hk h.not_sending
  next => rfl

theorem NoStop.steal (h : r.NoStop) (k j : Nat) : r.step (.steal k j) = r := by
  simp only [step]
  split
  next _ _ hk => exact absurd hk h.not_sending
  next => rfl

/-- Only one call is under way: none receives what another sends. -/
theorem Stopping.steal (h : r.Stopping j) (k k' : Nat) : r.step (.steal k k') = r := by
  simp only [step]
  split
  next ha hs =>
    obtain rfl := h.eq_of_awaiting ha
    obtain rfl := h.eq_of_sending hs
    cases ha.symm.trans hs
  next => rfl

theorem Stopping.receive (h : r.Stopping j) (i k : Nat) : (r.step (.receive i k)).Stopping j := by
  simp only [step]
  split
  next a c hk =>
    obtain rfl := h.eq_of_sending hk
    split
    next hrec =>
      obtain ⟨i', c', ⟨hup, hp | hp⟩ | ⟨-, hp | hp⟩⟩ := h.phase <;> cases hp.symm.trans hk
      -- the loop that receives is the one that runs
      have hi : i = a := by
        refine QuietBut.eq hup.only fun hgone => ?_
        simp [receivesOn, hgone] at hrec
      subst hi
      refine ⟨?_, h.lt, i, c, .inr ⟨.inl ⟨hup.running, hup.runner, hup.stop, hup.isOpen, ?_, ?_,
        hup.lt⟩, .inl (setStop_stops _ _ _)⟩⟩
      · refine QuietBut.update (QuietBut.mono h.only (extends_setLoop ?_ .leaving).atRest) _
        intro hgone
        rcases hup.phase with hp | hp <;> cases hp.symm.trans hgone
      · exact setLoop_loops _ _ _
      · exact hup.only.setLoop _
    next => exact h
  next => exact h

theorem Idle.spawn (h : r.Idle) : (r.step .spawn).Active := by
  refine ⟨.inl ⟨r.spawned, h.1.running, setLoop_loops _ _ _, h.1.noLoop.update _ _,
    Nat.lt_succ_self _⟩, ?_⟩
  refine Quiet.mono h.2 (Extends.atRest ⟨Nat.le_succ _, fun i hi hgone => ?_⟩)
  exact (Function.update_of_ne hi.ne _ _).trans hgone

/-- A `Stop` that finds nothing running returns. -/
theorem NoStop.call (h : r.NoStop) (hrun : r.running = false) : (r.step .call).NoStop := by
  rw [step, hrun, if_neg Bool.false_ne_true]
  exact QuietBut.quiet (Quiet.but h _) trivial

theorem Stopping.call (h : r.Stopping j) (hrun : r.running = false) :
    (r.step .call).Stopping j := by
  rw [step, if_neg (by simp [hrun])]
  have hkeep : Function.update r.stops r.called (.returned none) j = r.stops j :=
    Function.update_of_ne h.lt.ne _ _
  obtain ⟨i, c, hphase⟩ := h.phase
  refine ⟨QuietBut.update_rest h.only trivial, Nat.lt_succ_of_lt h.lt, i, c, ?_⟩
  rcases hphase with ⟨hup, hp⟩ | ⟨hdown, hp⟩
  · cases hup.running.symm.trans hrun
  · refine .inr ⟨?_, by simpa [setStop, hkeep] using hp⟩
    exact hdown.imp (fun h => ⟨h.running, h.runner, h.stop, h.isOpen, h.phase, h.only, h.lt⟩)
      fun h => ⟨h.running, h.stop, h.isClosed, h.noLoop, h.lt⟩

/-- A `Stop` that finds the loop running is under way. -/
theorem Up.call (h : r.Up i c) (hs : r.NoStop) : (r.step .call).Stopping r.called := by
  rw [step, if_pos h.running, h.runner]
  exact ⟨Quiet.update hs _ _, Nat.lt_succ_self _, i, c, .inl
    ⟨⟨h.running, rfl, h.stop, h.isOpen, h.phase, h.only, h.lt⟩, .inl (setStop_stops _ _ _)⟩⟩

theorem Active.call (h : r.Active) (hstart : ∀ i, r.loops i ≠ .starting) :
    (r.step .call).Stopping r.called := by
  rcases h.1 with ⟨i, hb⟩ | ⟨i, c, hu⟩
  · exact absurd hb.phase (hstart i)
  · exact hu.call h.2

theorem Idle.call (h : r.Idle) : (r.step .call).Idle :=
  ⟨⟨h.1.running, h.1.noLoop⟩, h.2.call h.1.running⟩

/-! ## The conditions of a replicator under its steps -/

theorem Active.onLoop (h : r.Active) (hf : r.Fresh) (k : Nat) (e : LoopEvent) :
    (r.onLoop k e).Active ∨ (e = .abort ∧ (r.onLoop k e).Idle) ∨
      (e = .leave ∧ (r.onLoop k e).Left) := by
  have hs := h.2.onLoop k e
  rcases h.1 with ⟨i, hb⟩ | ⟨i, c, hu⟩
  · rcases hb.onLoop hf k e with h | h | ⟨he, h⟩
    · exact .inl ⟨.inl ⟨i, h⟩, hs⟩
    · exact .inl ⟨.inr ⟨i, _, h⟩, hs⟩
    · exact .inr (.inl ⟨he, h, hs⟩)
  · rcases hu.onLoop k e with h | ⟨he, -, h⟩
    · exact .inl ⟨.inr ⟨i, c, h⟩, hs⟩
    · exact .inr (.inr ⟨he, ⟨i, c, h⟩, hs⟩)

theorem Left.onLoop (h : r.Left) (k : Nat) (e : LoopEvent) :
    (r.onLoop k e).Left ∨ (r.onLoop k e).Idle := by
  obtain ⟨⟨i, c, hdown⟩, hs⟩ := h
  rcases hdown.onLoop k e with h | h
  · exact .inl ⟨⟨i, c, h⟩, hs.onLoop k e⟩
  · exact .inr ⟨⟨h.running, h.noLoop⟩, hs.onLoop k e⟩

/-- A loop that does not leave on an error is on its way to `shutdown`. -/
theorem Stopping.onLoop (h : r.Stopping j) (k : Nat) {e : LoopEvent}
    (he : e = .leave → (r.loops k).inLoop = false) : (r.onLoop k e).Stopping j := by
  obtain ⟨hstops, hcalled⟩ := r.onLoop_stops k e
  obtain ⟨i, c, ⟨hup, hp⟩ | ⟨hdown, hp⟩⟩ := h.phase
  · rcases hup.onLoop k e with hup | ⟨rfl, rfl, -⟩
    · exact ⟨h.only.onLoop k e, hcalled ▸ h.lt, i, c, .inl ⟨hup, hstops ▸ hp⟩⟩
    · have := he rfl
      rcases hup.phase with hp | hp <;> simp [hp, LoopPhase.inLoop] at this
  · refine ⟨h.only.onLoop k e, hcalled ▸ h.lt, i, c, .inr ⟨?_, hstops ▸ hp⟩⟩
    rcases hdown with hdown | hover
    · exact hdown.onLoop k e
    · rw [hover.noLoop.onLoop]
      exact .inr hover

theorem Active.sole (h : r.Active) (hi : r.loops i ≠ .gone) (hj : r.loops j ≠ .gone) : i = j := by
  rcases h.1 with ⟨k, hb⟩ | ⟨k, c, hu⟩
  · exact (QuietBut.eq hb.only hi).trans (QuietBut.eq hb.only hj).symm
  · exact (QuietBut.eq hu.only hi).trans (QuietBut.eq hu.only hj).symm

theorem Stopping.sole (h : r.Stopping k) (hi : r.loops i ≠ .gone) (hj : r.loops j ≠ .gone) :
    i = j := by
  obtain ⟨l, c, ⟨hu, -⟩ | ⟨hd | ho, -⟩⟩ := h.phase
  · exact (QuietBut.eq hu.only hi).trans (QuietBut.eq hu.only hj).symm
  · exact (QuietBut.eq hd.only hi).trans (QuietBut.eq hd.only hj).symm
  · exact absurd (ho.noLoop i) hi

theorem NoStop.internal (h : r.NoStop) (he : e.internal = true) :
    (∃ i e', e = .loop i e') ∨ r.step e = r := by
  cases e with
  | spawn | call => cases he
  | loop i e => exact .inl ⟨i, e, rfl⟩
  | stop j e => exact .inr (h.onStop j e)
  | receive i j => exact .inr (h.receive i j)
  | steal k j => exact .inr (h.steal k j)

theorem Idle.internal (h : r.Idle) (he : e.internal = true) : (r.step e).Idle := by
  rcases h.2.internal he with ⟨i, e, rfl⟩ | heq
  · rw [step, h.1.noLoop.onLoop]
    exact h
  · rwa [heq]

theorem Active.internal (h : r.Active) (hf : r.Fresh) (he : e.internal = true) :
    (r.step e).Active := by
  rcases h.2.internal he with ⟨i, e, rfl⟩ | heq
  · rcases h.onLoop hf i e with h | ⟨rfl, -⟩ | ⟨rfl, -⟩
    · exact h
    · cases he
    · cases he
  · rwa [heq]

theorem Left.internal (h : r.Left) (he : e.internal = true) :
    (r.step e).Left ∨ (r.step e).Idle := by
  rcases h.2.internal he with ⟨i, e, rfl⟩ | heq
  · exact h.onLoop i e
  · exact .inl (by rwa [heq])

/-- The loop leaves and shuts down, and the call that asked it to
returns. -/
theorem Stopping.internal (h : r.Stopping j) (he : e.internal = true) :
    (r.step e).Stopping j ∨ (r.step e).Idle := by
  cases e with
  | spawn | call => cases he
  | loop k e => exact .inl (h.onLoop k fun hleave => by subst hleave; cases he)
  | stop k e => exact h.onStop k e
  | receive i k => exact .inl (h.receive i k)
  | steal k k' =>
    rw [h.steal]
    exact .inl h

theorem Fresh.step (h : r.Fresh) (e : ControlEvent) : (r.step e).Fresh := by
  cases e with
  | spawn | call => exact ⟨h.closed, h.stop⟩
  | loop i e => exact h.onLoop i e
  | stop j e =>
    simp only [Control.step, Control.onStop]
    repeat' split
    all_goals exact ⟨h.closed, h.stop⟩
  | receive i j =>
    simp only [Control.step]
    repeat' split
    all_goals exact ⟨h.closed, h.stop⟩
  | steal k j =>
    simp only [Control.step]
    repeat' split
    all_goals exact ⟨h.closed, h.stop⟩

/-! ## Stopping is safe in orderly runs -/

/-- No `Stop` sends on a closed or nil channel, and the loop that a `Stop`
addressed is gone when it has returned. -/
def Safe (r : Control) : Prop :=
  ∀ j, r.stops j ≠ .lost ∧ ∀ i, r.stops j = .returned (some i) → r.loops i = .gone

/-- Every call of `Stop` has returned. -/
def NoneUnderWay (r : Control) : Prop := ∀ j, ∃ o, r.stops j = .returned o

/-- What has to hold at a step:

  * one loop at a time is spawned, with no `Stop` under way;
  * a `Stop` that finds `running` set finds the loop inside its loop, and
    no other `Stop` is under way;
  * the loop leaves on an error only while no `Stop` is under way. -/
def Orderly (r : Control) : ControlEvent → Prop
  | .spawn => (∀ i, r.loops i = .gone) ∧ r.NoneUnderWay
  | .call => r.running = true → r.loops r.runner ≠ .leaving ∧ r.NoneUnderWay
  | .loop i .leave => (r.loops i).inLoop = true → r.NoneUnderWay
  | _ => True

def Sound (r : Control) : Prop := r.Fresh ∧ (r.Idle ∨ r.Active ∨ r.Left ∨ ∃ j, r.Stopping j)

theorem Stopping.not_returned (h : r.Stopping j) (o : Option Nat) : r.stops j ≠ .returned o := by
  intro ho
  obtain ⟨i, c, ⟨-, hp | hp⟩ | ⟨-, hp | hp⟩⟩ := h.phase <;> cases hp.symm.trans ho

theorem Stopping.not_noneUnderWay (h : r.Stopping j) : ¬ r.NoneUnderWay := by
  intro hnone
  obtain ⟨o, ho⟩ := hnone j
  exact h.not_returned o ho

theorem Sound.safe (h : r.Sound) : r.Safe := by
  have hrest : ∀ {p}, r.AtRest p → p ≠ .lost ∧ ∀ i, p = .returned (some i) → r.loops i = .gone := by
    rintro p hp
    refine ⟨?_, ?_⟩
    · rintro rfl
      exact hp
    · rintro i rfl
      exact hp.2
  intro j
  rcases h.2 with h | h | h | ⟨k, h⟩
  · exact hrest (h.2 j)
  · exact hrest (h.2 j)
  · exact hrest (h.2 j)
  · by_cases hj : j = k
    · subst hj
      obtain ⟨i, c, ⟨-, hp | hp⟩ | ⟨-, hp | hp⟩⟩ := h.phase <;> rw [hp] <;> exact ⟨nofun, nofun⟩
    · exact hrest (h.only j hj)

theorem Sound.spawn (h : r.Sound) (hloops : ∀ i, r.loops i = .gone) (hstops : r.NoneUnderWay) :
    (r.step .spawn).Active := by
  rcases h.2 with hi | ⟨⟨i, hb⟩ | ⟨i, c, hu⟩, -⟩ | ⟨⟨i, c, hd⟩, -⟩ | ⟨j, hs⟩
  · exact hi.spawn
  · cases hb.phase.symm.trans (hloops i)
  · rcases hu.phase with hp | hp <;> cases hp.symm.trans (hloops i)
  · cases hd.phase.symm.trans (hloops i)
  · exact absurd hstops hs.not_noneUnderWay

theorem Sound.call (h : r.Sound)
    (hcall : r.running = true → r.loops r.runner ≠ .leaving ∧ r.NoneUnderWay) :
    (r.step .call).Idle ∨ (r.step .call).Active ∨ ∃ j, (r.step .call).Stopping j := by
  rcases h.2 with hi | ⟨⟨i, hb⟩ | ⟨i, c, hu⟩, hs⟩ | ⟨⟨i, c, hd⟩, -⟩ | ⟨j, hs⟩
  · exact .inl hi.call
  · exact .inr (.inl ⟨.inl ⟨i, hb.running, hb.phase, hb.only, hb.lt⟩, hs.call hb.running⟩)
  · exact .inr (.inr ⟨_, hu.call hs⟩)
  · exact absurd (hd.runner ▸ hd.phase) (hcall hd.running).1
  · cases hrun : r.running with
    | true => exact absurd (hcall hrun).2 hs.not_noneUnderWay
    | false => exact .inr (.inr ⟨j, hs.call hrun⟩)

theorem Sound.onLoop (h : r.Sound) (k : Nat) {e : LoopEvent}
    (he : e = .leave → (r.loops k).inLoop = true → r.NoneUnderWay) :
    (r.onLoop k e).Idle ∨ (r.onLoop k e).Active ∨ (r.onLoop k e).Left ∨
      ∃ j, (r.onLoop k e).Stopping j := by
  rcases h.2 with hi | ha | hl | ⟨j, hs⟩
  · rw [hi.1.noLoop.onLoop]
    exact .inl hi
  · rcases ha.onLoop h.1 k e with h | ⟨-, h⟩ | ⟨-, h⟩
    · exact .inr (.inl h)
    · exact .inl h
    · exact .inr (.inr (.inl h))
  · exact (hl.onLoop k e).elim (fun h => .inr (.inr (.inl h))) .inl
  · refine .inr (.inr (.inr ⟨j, hs.onLoop k fun hleave => ?_⟩))
    cases hin : (r.loops k).inLoop with
    | true => exact absurd (he hleave hin) hs.not_noneUnderWay
    | false => rfl

theorem Sound.step (h : r.Sound) (he : r.Orderly e) : (r.step e).Sound := by
  refine ⟨h.1.step e, ?_⟩
  have hinternal : e.internal = true → (r.step e).Idle ∨ (r.step e).Active ∨ (r.step e).Left ∨
      ∃ j, (r.step e).Stopping j := by
    intro hint
    rcases h.2 with hi | ha | hl | ⟨j, hs⟩
    · exact .inl (hi.internal hint)
    · exact .inr (.inl (ha.internal h.1 hint))
    · exact (hl.internal hint).elim (fun h => .inr (.inr (.inl h))) .inl
    · exact (hs.internal hint).elim (fun h => .inr (.inr (.inr ⟨j, h⟩))) .inl
  cases e with
  | spawn => exact .inr (.inl (h.spawn he.1 he.2))
  | call => exact (h.call he).imp_right (.imp_right .inr)
  | loop k e => exact h.onLoop k fun hleave => by subst hleave; exact he
  | stop j e | receive i j | steal k j => exact hinternal rfl

theorem idle_init : Idle {} := ⟨⟨rfl, fun _ => rfl⟩, fun _ => trivial⟩

theorem fresh_init : Fresh {} := ⟨fun _ _ => rfl, nofun⟩

/-- **Stopping a replicator is safe** in every state of a run in which
every step meets `Orderly`. -/
theorem stop_safe_along {es : List ControlEvent} (h : Along step Orderly {} es) :
    (run step {} es).Safe :=
  (Along.invariant Sound (fun _ _ hr he => hr.step he) ⟨fresh_init, .inl idle_init⟩ h).safe

/-- A loop that runs and is stopped. -/
def stoppedRun : List ControlEvent :=
  [.spawn, .loop 0 .start, .loop 0 .look, .call, .stop 0 .send, .receive 0 0, .stop 0 .listen,
    .loop 0 .shutdown, .stop 0 .acknowledge]

theorem stop_safe_stoppedRun :
    Along step Orderly {} stoppedRun ∧ (run step {} stoppedRun).stops 0 = .returned (some 0) ∧
      (run step {} stoppedRun).Safe := by
  have h : Along step Orderly {} stoppedRun :=
    ⟨⟨fun _ => rfl, fun _ => ⟨_, rfl⟩⟩, trivial, trivial, fun _ => ⟨nofun, fun _ => ⟨_, rfl⟩⟩,
      trivial, trivial, trivial, trivial, trivial, trivial⟩
  exact ⟨h, rfl, stop_safe_along h⟩

/-- The loop leaves on an error behind the check of a `Stop`: the `Stop`
sends on the channel that `shutdown` has closed. -/
theorem stop_sends_on_closed :
    ∃ es : List ControlEvent,
      es = [.spawn, .loop 0 .start, .call, .loop 0 .leave, .loop 0 .shutdown, .stop 0 .send] ∧
      (run step {} es).stops 0 = .lost :=
  ⟨_, rfl, rfl⟩

end Control

end MyDuck.Logrepl
