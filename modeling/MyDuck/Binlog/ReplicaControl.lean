/-
MyDuck.Binlog.ReplicaControl — START REPLICA and STOP REPLICA against the
goroutines of the applier (`binlog_replica_controller.go`:
`StartReplica`, `StopReplica`; `binlog_replica_applier.go`: `Go`,
`replicaBinlogEventHandler`).

`StartReplica` holds `operationMutex` from its look at `IsRunning` to the
call of `Go`; `StopReplica` takes no lock. A run sets `running` when its
goroutine begins, runs the handler loop, and clears `running` behind it.
The stop channel is not buffered, and every run receives from it: in the
select of its loop, and in that of a pause between two attempts to
connect. A run that is connecting or applying an event comes back to such
a select, or ends by itself.

`one_run_along`: in every run of the system in which `Orderly` holds at
every step, at most one handler loop executes, a stop signal is received
by the run that was active when `StopReplica` looked, and a waiting
`StopReplica` has a run that can receive from it.
-/
import MyDuck.Base.Run
import MyDuck.Base.Processes

namespace MyDuck.Binlog

/-- Where a goroutine of `Go` is. -/
inductive RunPhase where
  | spawned
  /-- In `replicaBinlogEventHandler`. -/
  | looping
  | returned
  | finished
  deriving DecidableEq, Repr

/-- Where a call of `StopReplica` is. -/
inductive StopCall where
  /-- It sends, with the runs that were in their loop when it looked. -/
  | waiting (active : Nat → Bool)
  /-- Its signal was received by a run, and whether that run was one of
  them. -/
  | served (active : Bool)
  /-- It found nothing running. -/
  | skipped

structure ReplicaControl where
  running : Bool := false
  /-- A `StartReplica` holds the mutex and found nothing running. -/
  opening : Bool := false
  runs : Nat → RunPhase := fun _ => .finished
  spawned : Nat := 0
  stops : Nat → StopCall := fun _ => .skipped
  called : Nat := 0

inductive ReplicaEvent where
  | startReplica
  /-- `Go`, or an error in front of it. -/
  | go (fails : Bool)
  | begin (i : Nat)
  /-- The loop ends by itself. -/
  | fail (i : Nat)
  | finish (i : Nat)
  | stopReplica
  /-- Run `i` receives the signal of call `j`. -/
  | receive (i j : Nat)
  deriving DecidableEq, Repr

namespace ReplicaControl

variable (r : ReplicaControl)

def setRun (i : Nat) (p : RunPhase) : ReplicaControl :=
  { r with runs := Function.update r.runs i p }

def setStop (j : Nat) (p : StopCall) : ReplicaControl :=
  { r with stops := Function.update r.stops j p }

def active (i : Nat) : Bool := r.runs i = .looping

def step : ReplicaEvent → ReplicaControl
  | .startReplica => if r.opening || r.running then r else { r with opening := true }
  | .go fails =>
    if r.opening then
      if fails then { r with opening := false }
      else setRun { r with opening := false, spawned := r.spawned + 1 } r.spawned .spawned
    else r
  | .begin i =>
    if r.runs i = .spawned then setRun { r with running := true } i .looping else r
  | .fail i => if r.runs i = .looping then r.setRun i .returned else r
  | .finish i =>
    if r.runs i = .returned then setRun { r with running := false } i .finished else r
  | .stopReplica =>
    setStop { r with called := r.called + 1 } r.called
      (if r.running then .waiting r.active else .skipped)
  | .receive i j =>
    match r.stops j with
    | .waiting active =>
      if r.runs i = .looping then (r.setRun i .returned).setStop j (.served (active i)) else r
    | _ => r

/-! ## The property and its condition -/

/-- START and STOP REPLICA control one run. -/
structure OneRun (r : ReplicaControl) : Prop where
  one : ∀ i k, r.runs i = .looping → r.runs k = .looping → i = k
  rightly : ∀ j b, r.stops j = .served b → b = true
  heard : ∀ j f, r.stops j = .waiting f → ∃ i, r.runs i = .looping

def NoneWaiting (r : ReplicaControl) : Prop := ∀ j f, r.stops j ≠ .waiting f

/-- What has to hold at a step:

  * a `StartReplica` that finds nothing running comes when no run has
    still to set `running`;
  * a `StopReplica` that finds `running` set finds a run in its loop, and
    no other `StopReplica` is waiting;
  * a run ends by itself only while no `StopReplica` is waiting. -/
def Orderly (r : ReplicaControl) : ReplicaEvent → Prop
  | .startReplica => r.running = false → ∀ i, r.runs i ≠ .spawned
  | .stopReplica => r.running = true → (∃ i, r.runs i = .looping) ∧ r.NoneWaiting
  | .fail i => r.runs i = .looping → r.NoneWaiting
  | _ => True

/-! ## The invariant -/

def Over : StopCall → Prop
  | .skipped => True
  | .served b => b = true
  | .waiting _ => False

def NoStop (r : ReplicaControl) : Prop := Quiet Over r.stops

def OnlyRun (r : ReplicaControl) (i : Nat) : Prop := QuietBut (· = .finished) r.runs i

structure Idle (r : ReplicaControl) : Prop where
  running : r.running = false
  noRun : Quiet (· = .finished) r.runs

/-- Run `i` has been spawned. -/
structure Begun (r : ReplicaControl) (i : Nat) : Prop where
  running : r.running = false
  closed : r.opening = false
  phase : r.runs i = .spawned
  only : r.OnlyRun i

/-- Run `i` is in its loop. -/
structure Up (r : ReplicaControl) (i : Nat) : Prop where
  running : r.running = true
  closed : r.opening = false
  phase : r.runs i = .looping
  only : r.OnlyRun i

/-- The handler of run `i` has returned. -/
structure Ended (r : ReplicaControl) (i : Nat) : Prop where
  running : r.running = true
  closed : r.opening = false
  phase : r.runs i = .returned
  only : r.OnlyRun i

/-- Call `j` waits, for run `i` and no other. -/
structure Asked (r : ReplicaControl) (i j : Nat) : Prop where
  waits : ∃ f, r.stops j = .waiting f ∧ f i = true
  only : QuietBut Over r.stops j

def Sound (r : ReplicaControl) : Prop :=
  (r.NoStop ∧ (r.Idle ∨ (∃ i, r.Begun i) ∨ (∃ i, r.Up i) ∨ ∃ i, r.Ended i)) ∨
    ∃ i j, r.Up i ∧ r.Asked i j

variable {r : ReplicaControl}

theorem NoStop.noneWaiting (h : r.NoStop) : r.NoneWaiting := by
  intro j f hj
  have := h j
  rw [hj] at this
  exact this

theorem Asked.not_noneWaiting {i j : Nat} (h : r.Asked i j) : ¬ r.NoneWaiting := by
  intro hnone
  obtain ⟨f, hf, -⟩ := h.waits
  exact hnone j f hf

theorem Sound.oneRun (h : r.Sound) : r.OneRun := by
  have hsole : ∀ {i}, r.OnlyRun i → ∀ k l, r.runs k = .looping → r.runs l = .looping → k = l := by
    intro i hi k l hk hl
    exact (QuietBut.eq hi (by simp [hk])).trans (QuietBut.eq hi (by simp [hl])).symm
  have hover : ∀ {p : StopCall}, Over p → ∀ b, p = .served b → b = true := by
    rintro p hp b rfl
    exact hp
  rcases h with ⟨hs, hruns⟩ | ⟨i, j, hu, ha⟩
  · refine ⟨?_, fun j b => hover (hs j) b, fun j f hj => absurd hj (hs.noneWaiting j f)⟩
    rcases hruns with h | ⟨i, h⟩ | ⟨i, h⟩ | ⟨i, h⟩
    · intro k l hk
      cases hk.symm.trans (h.noRun k)
    · exact hsole h.only
    · exact hsole h.only
    · exact hsole h.only
  · refine ⟨hsole hu.only, fun k b hk => ?_, fun _ _ _ => ⟨i, hu.phase⟩⟩
    by_cases hkj : k = j
    · obtain ⟨f, hf, -⟩ := ha.waits
      cases hk.symm.trans (hkj ▸ hf)
    · exact hover (ha.only k hkj) b hk

/-! ## The steps -/

@[simp] theorem setRun_runs (i : Nat) (p : RunPhase) : (r.setRun i p).runs i = p :=
  Function.update_self _ _ _

/-- The run that is not finished is the one there is. -/
theorem OnlyRun.eq {i k : Nat} (h : r.OnlyRun i) {p : RunPhase} (hk : r.runs k = p)
    (hp : p ≠ .finished) : k = i :=
  QuietBut.eq h (by rwa [hk])

theorem Sound.startReplica (h : r.Sound) (hstart : r.running = false → ∀ i, r.runs i ≠ .spawned) :
    (r.step .startReplica).Sound := by
  simp only [step]
  split
  · exact h
  next hidle =>
    simp only [Bool.or_eq_true, not_or, Bool.not_eq_true] at hidle
    rcases h with ⟨hs, h | ⟨i, h⟩ | ⟨i, h⟩ | ⟨i, h⟩⟩ | ⟨i, j, h, -⟩
    · exact .inl ⟨hs, .inl ⟨h.running, h.noRun⟩⟩
    · exact absurd h.phase (hstart hidle.2 i)
    · cases hidle.2.symm.trans h.running
    · cases hidle.2.symm.trans h.running
    · cases hidle.2.symm.trans h.running

theorem Sound.go (h : r.Sound) (fails : Bool) : (r.step (.go fails)).Sound := by
  simp only [step]
  split
  next hopen =>
    rcases h with ⟨hs, h | ⟨i, h⟩ | ⟨i, h⟩ | ⟨i, h⟩⟩ | ⟨i, j, h, -⟩
    · cases fails with
      | true => exact .inl ⟨hs, .inl ⟨h.running, h.noRun⟩⟩
      | false => exact .inl ⟨hs, .inr (.inl ⟨r.spawned, h.running, rfl, setRun_runs _ _,
          Quiet.update h.noRun _ _⟩)⟩
    all_goals cases hopen.symm.trans h.closed
  next => exact h

theorem Sound.begin (h : r.Sound) (k : Nat) : (r.step (.begin k)).Sound := by
  simp only [step]
  split
  next hk =>
    rcases h with ⟨hs, h | ⟨i, h⟩ | ⟨i, h⟩ | ⟨i, h⟩⟩ | ⟨i, j, h, -⟩
    · cases hk.symm.trans (h.noRun k)
    · obtain rfl := h.only.eq hk nofun
      exact .inl ⟨hs, .inr (.inr (.inl ⟨k, rfl, h.closed, setRun_runs _ _, h.only.update _⟩))⟩
    all_goals
      obtain rfl := h.only.eq hk nofun
      cases hk.symm.trans h.phase
  next => exact h

theorem Sound.fail (h : r.Sound) (k : Nat) (hfail : r.runs k = .looping → r.NoneWaiting) :
    (r.step (.fail k)).Sound := by
  simp only [step]
  split
  next hk =>
    rcases h with ⟨hs, h | ⟨i, h⟩ | ⟨i, h⟩ | ⟨i, h⟩⟩ | ⟨i, j, -, ha⟩
    · cases hk.symm.trans (h.noRun k)
    · obtain rfl := h.only.eq hk nofun
      cases hk.symm.trans h.phase
    · obtain rfl := h.only.eq hk nofun
      exact .inl ⟨hs, .inr (.inr (.inr ⟨k, h.running, h.closed, setRun_runs _ _, h.only.update _⟩))⟩
    · obtain rfl := h.only.eq hk nofun
      cases hk.symm.trans h.phase
    · exact absurd (hfail hk) ha.not_noneWaiting
  next => exact h

theorem Sound.finish (h : r.Sound) (k : Nat) : (r.step (.finish k)).Sound := by
  simp only [step]
  split
  next hk =>
    rcases h with ⟨hs, h | ⟨i, h⟩ | ⟨i, h⟩ | ⟨i, h⟩⟩ | ⟨i, j, h, -⟩
    · cases hk.symm.trans (h.noRun k)
    · obtain rfl := h.only.eq hk nofun
      cases hk.symm.trans h.phase
    · obtain rfl := h.only.eq hk nofun
      cases hk.symm.trans h.phase
    · obtain rfl := h.only.eq hk nofun
      exact .inl ⟨hs, .inl ⟨rfl, QuietBut.quiet h.only rfl⟩⟩
    · obtain rfl := h.only.eq hk nofun
      cases hk.symm.trans h.phase
  next => exact h

/-- A `StopReplica` that finds nothing running is over at once; one that
finds the run in its loop waits for it. -/
theorem Sound.stopReplica (h : r.Sound)
    (hstop : r.running = true → (∃ i, r.runs i = .looping) ∧ r.NoneWaiting) :
    (r.step .stopReplica).Sound := by
  cases hrun : r.running with
  | false =>
    rw [step, hrun, if_neg Bool.false_ne_true]
    rcases h with ⟨hs, hruns⟩ | ⟨i, j, h, -⟩
    · refine .inl ⟨QuietBut.quiet (Quiet.but hs _) trivial, ?_⟩
      rcases hruns with h | ⟨i, h⟩ | ⟨i, h⟩ | ⟨i, h⟩
      · exact .inl ⟨rfl, h.noRun⟩
      · exact .inr (.inl ⟨i, rfl, h.closed, h.phase, h.only⟩)
      · cases hrun.symm.trans h.running
      · cases hrun.symm.trans h.running
    · cases hrun.symm.trans h.running
  | true =>
    obtain ⟨⟨k, hk⟩, hnone⟩ := hstop hrun
    rw [step, hrun, if_pos rfl]
    rcases h with ⟨hs, h | ⟨i, h⟩ | ⟨i, h⟩ | ⟨i, h⟩⟩ | ⟨i, j, -, ha⟩
    · cases hk.symm.trans (h.noRun k)
    · cases hrun.symm.trans h.running
    · exact .inr ⟨i, r.called, ⟨rfl, h.closed, h.phase, h.only⟩,
        ⟨r.active, Function.update_self _ _ _, by simp [active, h.phase]⟩, Quiet.update hs _ _⟩
    · obtain rfl := h.only.eq hk nofun
      cases hk.symm.trans h.phase
    · exact absurd hnone ha.not_noneWaiting

theorem Sound.receive (h : r.Sound) (k l : Nat) : (r.step (.receive k l)).Sound := by
  simp only [step]
  split
  next f hl =>
    split
    next hk =>
      rcases h with ⟨hs, -⟩ | ⟨i, j, hu, ha⟩
      · exact absurd hl (hs.noneWaiting l f)
      · obtain rfl := hu.only.eq hk nofun
        obtain rfl : l = j := QuietBut.eq ha.only (by simp [hl, Over])
        obtain ⟨g, hg, hactive⟩ := ha.waits
        obtain rfl := StopCall.waiting.inj (hl.symm.trans hg)
        exact .inl ⟨QuietBut.quiet ha.only hactive, .inr (.inr (.inr
          ⟨k, hu.running, hu.closed, setRun_runs _ _, hu.only.update _⟩))⟩
    next => exact h
  next => exact h

theorem Sound.step (h : r.Sound) {e : ReplicaEvent} (he : r.Orderly e) : (r.step e).Sound := by
  cases e with
  | startReplica => exact h.startReplica he
  | go fails => exact h.go fails
  | begin k => exact h.begin k
  | fail k => exact h.fail k he
  | finish k => exact h.finish k
  | stopReplica => exact h.stopReplica he
  | receive k l => exact h.receive k l

theorem sound_init : Sound {} := .inl ⟨fun _ => trivial, .inl ⟨rfl, fun _ => rfl⟩⟩

/-- **START and STOP REPLICA control one run** in every state of a run of
the system in which every step meets `Orderly`. -/
theorem one_run_along {es : List ReplicaEvent} (h : Along step Orderly {} es) :
    (run step {} es).OneRun :=
  (Along.invariant Sound (fun _ _ hr he => hr.step he) sound_init h).oneRun

/-- Replication is started, stopped and started again. -/
def restarted : List ReplicaEvent :=
  [.startReplica, .go false, .begin 0, .stopReplica, .receive 0 0, .finish 0, .startReplica,
    .go false, .begin 1]

theorem one_run_restarted :
    Along step Orderly {} restarted ∧ (run step {} restarted).runs 1 = .looping ∧
      (run step {} restarted).OneRun := by
  have h : Along step Orderly {} restarted := by
    refine ⟨fun _ _ => nofun, trivial, trivial, fun _ => ⟨⟨0, rfl⟩, fun _ _ => nofun⟩, trivial,
      trivial, fun _ i => ?_, trivial, trivial, trivial⟩
    cases i <;> exact nofun
  exact ⟨h, rfl, one_run_along h⟩

/-- A run that ends by itself while a `StopReplica` waits for it. -/
def endedUnderStop : List ReplicaEvent :=
  [.startReplica, .go false, .begin 0, .stopReplica, .fail 0, .finish 0]

/-- Two START REPLICA before the goroutine of the first has set `running`
give two handler loops. A STOP REPLICA whose run ends by itself waits
without a run that could receive from it, until the next run does. -/
theorem replica_control_broken :
    (∃ es : List ReplicaEvent,
      es = [.startReplica, .go false, .startReplica, .go false, .begin 0, .begin 1] ∧
      (run step {} es).runs 0 = .looping ∧ (run step {} es).runs 1 = .looping) ∧
    (∃ f, (run step {} endedUnderStop).stops 0 = .waiting f ∧
      ∀ i, (run step {} endedUnderStop).runs i = .finished) ∧
    ∃ es, es = endedUnderStop ++ [.startReplica, .go false, .begin 1, .receive 1 0] ∧
      (run step {} es).stops 0 = .served false := by
  refine ⟨⟨_, rfl, rfl, rfl⟩, ⟨_, rfl, fun i => ?_⟩, ⟨_, rfl, rfl⟩⟩
  cases i <;> rfl

end ReplicaControl

end MyDuck.Binlog
