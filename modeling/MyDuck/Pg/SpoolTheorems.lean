/-
MyDuck.Pg.SpoolTheorems — when the row pipeline gets stuck.

`Careful` is a condition on the steps of a run: the consumer does not
receive the expired timer without a read timeout, and when it panics the
rows that the producer has still to send fit the channel. `Inv` says what
such runs keep: a consumer that has not finished finds a timer that will
let it go on, and behind one that has finished the producer can finish.
-/
import MyDuck.Pg.Spool

namespace MyDuck.Spool

namespace Pipeline

variable {p : Pipeline}

/-! ## The condition and the property -/

/-- No goroutine can go on, and one of them has not returned. -/
def IsStuck (p : Pipeline) : Prop :=
  Stuck (fun p e => Pipeline.enabled p e = true) Pipeline.step SpoolEvent.owner
    (fun p g => Pipeline.finished p g = true) p

/-- The rows that have not been taken out of the channel. -/
def unsent (p : Pipeline) : Nat :=
  p.queue.length + (match p.producer with
    | .sending _ => 1
    | _ => 0) + p.rest.length

/-- The consumer panics on a row. -/
def rowPanics (p : Pipeline) : SpoolRow → Bool
  | .encodePanics => true
  | .okResult _ => p.rows > 0
  | _ => false

/-- The consumer panics in this step. -/
def consumerPanics (p : Pipeline) : SpoolEvent → Bool
  | .callback .panics => true
  | .receive => p.queue.head?.any p.rowPanics
  | _ => false

/-- The timer is received only with a read timeout, and behind a panic of
the consumer the rows fit the channel or the context is done. -/
def Careful (p : Pipeline) (e : SpoolEvent) : Prop :=
  p.enabled e = true → (e = .receiveTimer → p.readTimeout = true) ∧
    (p.consumerPanics e = true → p.ctxDone = true ∨ (p.step e).unsent ≤ capacity)

/-! ## The invariant -/

structure Inv (p : Pipeline) : Prop where
  /-- The timer of a consumer at work is armed, or its time can be received. -/
  timer : p.consumer ≠ .finished → p.timer ≠ .drained
  draining : p.consumer = .draining → p.timer = .fired
  /-- Behind the consumer the producer can finish. -/
  room : p.consumer = .finished → p.producer ≠ .finished →
    p.ctxDone = true ∨ p.unsent ≤ capacity

theorem inv_start (readTimeout : Bool) (rest : List SpoolRow) (ending : Ending) :
    (start readTimeout rest ending).Inv where
  timer := by simp [start]
  draining := by simp [start]
  room := by simp [start]

/-- The consumer ends while the rest stays: its timer does not matter any
more. -/
theorem inv_of_finished (hc : p.consumer = .finished)
    (h : p.producer ≠ .finished → p.ctxDone = true ∨ p.unsent ≤ capacity) : p.Inv where
  timer hne := absurd hc hne
  draining hd := by rw [hc] at hd; cases hd
  room _ := h

/-- A consumer at work with a timer that is not drained. -/
theorem inv_of_working (hc : p.consumer = .looping ∨ p.consumer = .stopping)
    (ht : p.timer ≠ .drained) : p.Inv where
  timer _ := ht
  draining hd := by rcases hc with hc | hc <;> rw [hc] at hd <;> cases hd
  room hf := by rcases hc with hc | hc <;> rw [hc] at hf <;> cases hf

theorem consumer_of_selecting (h : p.selecting = true) : p.consumer = .looping := by
  simp only [selecting, Bool.and_eq_true, decide_eq_true_eq] at h
  exact h.1

/-- Only the producer moves: the rows that are not sent stay the same. -/
theorem Inv.producer (h : p.Inv) {q : Pipeline} (hc : q.consumer = p.consumer)
    (ht : q.timer = p.timer) (hctx : p.ctxDone = true → q.ctxDone = true)
    (hroom : q.producer ≠ .finished → p.producer ≠ .finished ∧ q.unsent = p.unsent) : q.Inv where
  timer hne := by rw [ht]; exact h.timer (hc ▸ hne)
  draining hd := by rw [ht]; exact h.draining (hc ▸ hd)
  room hf hp := by
    obtain ⟨hp', hunsent⟩ := hroom hp
    rw [hunsent]
    exact (h.room (hc ▸ hf) hp').imp_left hctx

theorem Inv.next (h : p.Inv) (he : p.producer = .reading) : (p.act .next).Inv := by
  cases hrest : p.rest with
  | nil =>
    cases hend : p.ending <;>
      exact h.producer (by simp [act, hrest, hend]) (by simp [act, hrest, hend])
        (by simp [act, hrest, hend]) (by simp [act, hrest, hend])
  | cons row rest =>
    refine h.producer (by simp [act, hrest]) (by simp [act, hrest]) (by simp [act, hrest])
      fun _ => ⟨by simp [he], ?_⟩
    simp [act, hrest, unsent, he]
    omega

theorem Inv.send (h : p.Inv) (he : p.enabled .send = true) : (p.act .send).Inv := by
  cases hp : p.producer with
  | sending row =>
    refine h.producer (by simp [act, hp]) (by simp [act, hp]) (by simp [act, hp])
      fun _ => ⟨by simp [hp], ?_⟩
    simp [act, hp, unsent]
  | reading | finished => simp [enabled, hp] at he

theorem Inv.consume (h : p.Inv) (hc : p.consumer = .looping) {row : SpoolRow}
    (hpanic : p.rowPanics row = true → p.ctxDone = true ∨ p.unsent ≤ capacity) :
    (p.consume row).Inv := by
  have ht : p.timer ≠ .drained := h.timer (by simp [hc])
  cases row with
  | okResult n =>
    rw [Pipeline.consume]
    split
    next hrows => exact inv_of_finished rfl fun _ => hpanic (decide_eq_true hrows)
    · exact inv_of_working (.inl hc) ht
  | encodes => exact inv_of_working (.inr rfl) ht
  | encodeFails => exact inv_of_finished rfl fun _ => .inl rfl
  | encodePanics => exact inv_of_finished rfl fun _ => hpanic rfl

theorem consume_of_rowPanics {row : SpoolRow} (h : p.rowPanics row = true) :
    p.consume row = p.endConsumer := by
  cases row with
  | okResult n => exact if_pos (of_decide_eq_true h)
  | encodes | encodeFails => cases h
  | encodePanics => rfl

/-- **One step** keeps the invariant. -/
theorem Inv.step (h : p.Inv) {e : SpoolEvent} (hcare : p.Careful e) : (p.step e).Inv := by
  by_cases he : p.enabled e = true
  · have hstep : p.step e = p.act e := by rw [Pipeline.step, if_pos he]
    replace hcare := hcare he
    rw [hstep] at hcare ⊢
    cases e with
    | next => exact h.next (by simpa [enabled] using he)
    | send => exact h.send he
    | quitProducer => exact h.producer rfl rfl id fun hne => absurd rfl hne
    | callback how =>
      simp only [enabled, Bool.and_eq_true, decide_eq_true_eq] at he
      cases how with
      | ok => exact inv_of_working (.inl he.1) (h.timer (by simp [he.1]))
      | fails => exact inv_of_finished rfl fun _ => .inl rfl
      | panics => exact inv_of_finished rfl fun _ => hcare.2 rfl
    | receive =>
      simp only [enabled, Bool.and_eq_true] at he
      have hc := consumer_of_selecting he.1
      cases hq : p.queue with
      | nil =>
        have hp : p.producer = .finished := by simpa [hq] using he.2
        simp only [act, hq]
        exact inv_of_finished rfl fun hne => absurd hp hne
      | cons row queue =>
        have hact : p.act .receive = Pipeline.consume { p with queue } row := by simp [act, hq]
        rw [hact] at hcare ⊢
        have hinv : Inv { p with queue } := inv_of_working (.inl hc) (h.timer (by simp [hc]))
        refine hinv.consume hc fun hpanic => ?_
        -- the row is out of the channel when the consumer panics
        have hrow : p.rowPanics row = true := by cases row <;> exact hpanic
        rw [consume_of_rowPanics hpanic] at hcare
        exact hcare.2 (by simp [consumerPanics, hq, hrow])
    | receiveTimer =>
      simp only [act, hcare.1 rfl, if_true]
      exact inv_of_finished rfl fun _ => .inl rfl
    | quitConsumer =>
      simp only [enabled, Bool.and_eq_true] at he
      exact inv_of_finished rfl fun _ => .inl he.2
    | stopTimer =>
      have hc : p.consumer = .stopping := by simpa [enabled] using he
      have ht := h.timer (by simp [hc])
      rw [act]
      split
      · exact inv_of_working (.inl rfl) (by simp [resetTimer])
      next harmed =>
        refine ⟨fun _ => ht, fun _ => ?_, by simp⟩
        cases htimer : p.timer <;> simp_all
    | drainTimer => exact inv_of_working (.inl rfl) (by simp [act, resetTimer])
    | close how =>
      simp only [enabled, Bool.and_eq_true, decide_eq_true_eq] at he
      cases how <;> exact inv_of_finished he.2 fun hne => absurd he.1.2 hne
    | expire =>
      exact ⟨fun _ => by simp [act], fun _ => rfl, h.room⟩
  · rw [Pipeline.step, if_neg he]
    exact h

/-- The consumer of a stuck pipeline has finished. -/
theorem Inv.consumer_finished (h : p.Inv) (hstuck : p.IsStuck) : p.consumer = .finished := by
  have hend : ∀ e : SpoolEvent, e.owner = some .consumer → p.enabled e = true →
      p.consumer = .finished := fun e howner he =>
    of_decide_eq_true (hstuck.finished howner he)
  cases hc : p.consumer with
  | finished => rfl
  | looping =>
    by_cases hbatch : p.affected = rowsBatch
    · exact hc ▸ hend (.callback .ok) rfl (by simp [enabled, hc, hbatch])
    · have hsel : p.selecting = true := by simp [selecting, hc, hbatch]
      cases ht : p.timer with
      | fired => exact hc ▸ hend .receiveTimer rfl (by simp [enabled, hsel, ht])
      | drained => exact absurd ht (h.timer (by simp [hc]))
      | armed =>
        -- the timer will expire, and then it can be received
        have hexpire : p.enabled .expire = true := by simp [enabled, ht]
        have hsel' : (p.step .expire).selecting = true := by
          simpa [Pipeline.step, hexpire, act, selecting] using hsel
        refine hc ▸ of_decide_eq_true
          (hstuck.finished_of_env (i := .receiveTimer) rfl hexpire rfl ?_)
        simp only [enabled, hsel', Bool.true_and]
        simp [Pipeline.step, hexpire, act]
  | stopping => exact hc ▸ hend .stopTimer rfl (by simp [enabled, hc])
  | draining => exact hc ▸ hend .drainTimer rfl (by simp [enabled, hc, h.draining hc])

theorem Inv.producer_finished (h : p.Inv) (hstuck : p.IsStuck) (hc : p.consumer = .finished) :
    p.producer = .finished := by
  have hend : ∀ e : SpoolEvent, e.owner = some .producer → p.enabled e = true →
      p.producer = .finished := fun e howner he =>
    of_decide_eq_true (hstuck.finished howner he)
  cases hp : p.producer with
  | finished => rfl
  | reading => exact hp ▸ hend .next rfl (by simp [enabled, hp])
  | sending row =>
    rcases h.room hc (by simp [hp]) with hdone | hroom
    · exact hp ▸ hend .quitProducer rfl (by simp [enabled, hp, hdone])
    · have hlt : p.queue.length < capacity := by
        simp only [unsent, hp] at hroom
        omega
      exact hp ▸ hend .send rfl (by simp [enabled, hp, hlt])

/-- **A state with the invariant is not stuck**: the consumer would have
finished, so the producer, so the closer. -/
theorem Inv.not_stuck (h : p.Inv) : ¬ p.IsStuck := by
  intro hstuck
  have hconsumer := h.consumer_finished hstuck
  have hproducer := h.producer_finished hstuck hconsumer
  have hcloser : p.closer = .finished := by
    cases hw : p.closer with
    | finished => rfl
    | waiting =>
      exact hw ▸ of_decide_eq_true (hstuck.finished (i := .close .ok) rfl
        (by simp [enabled, hw, hproducer, hconsumer]))
  refine not_stuck_of_finished (fun g => ?_) hstuck
  cases g <;> simp [finished, hconsumer, hproducer, hcloser]

end Pipeline

/-- **The row pipeline does not get stuck** in any run whose steps are
careful, whatever the iterator, the callback and the timer do. -/
theorem spool_never_stuck (readTimeout : Bool) (rest : List SpoolRow) (ending : Ending)
    (es : List SpoolEvent)
    (h : Along Pipeline.step Pipeline.Careful (Pipeline.start readTimeout rest ending) es) :
    ¬ (run Pipeline.step (Pipeline.start readTimeout rest ending) es).IsStuck :=
  Pipeline.Inv.not_stuck (h.invariant Pipeline.Inv (fun _ _ hinv hcare => hinv.step hcare)
    (Pipeline.inv_start readTimeout rest ending))

theorem spool_never_stuck_expired :
    Along Pipeline.step Pipeline.Careful (Pipeline.start true [.encodes] .fails)
      [.next, .expire, .receiveTimer, .quitProducer] ∧
    ¬ (run Pipeline.step (Pipeline.start true [.encodes] .fails)
      [.next, .expire, .receiveTimer, .quitProducer]).IsStuck := by
  have h : Along Pipeline.step Pipeline.Careful (Pipeline.start true [.encodes] .fails)
      [.next, .expire, .receiveTimer, .quitProducer] := by
    simp [Along, Pipeline.Careful, Pipeline.consumerPanics, Pipeline.step, Pipeline.enabled,
      Pipeline.act, Pipeline.start, Pipeline.selecting, rowsBatch, Pipeline.failConsumer]
  exact ⟨h, spool_never_stuck true [.encodes] .fails _ h⟩

/-! ## A stalled pipeline -/

namespace Pipeline

variable {p q : Pipeline}

/-- The producer has returned or is at a full channel, the consumer has
returned or is at a drained timer, and not both have returned. -/
structure Stalled (p : Pipeline) : Prop where
  producer : p.producer = .finished ∨
    ((∃ row, p.producer = .sending row) ∧ capacity ≤ p.queue.length ∧ p.ctxDone = false)
  consumer : p.consumer = .finished ∨ (p.consumer = .draining ∧ p.timer = .drained)
  working : p.producer ≠ .finished ∨ p.consumer ≠ .finished

theorem Stalled.expire (h : p.Stalled) (he : p.enabled .expire = true) :
    (p.step .expire).Stalled := by
  have ht : p.timer = .armed := by simpa [enabled] using he
  rw [Pipeline.step, if_pos he]
  refine ⟨h.producer, .inl (h.consumer.resolve_right fun hd => ?_), h.working⟩
  rw [ht] at hd
  cases hd.2

/-- No goroutine that has not returned can take a step. -/
theorem Stalled.blocked (h : p.Stalled) {e : SpoolEvent} {g : Goroutine}
    (howner : e.owner = some g) (hg : p.finished g ≠ true) : p.enabled e ≠ true := by
  cases g with
  | producer =>
    obtain ⟨⟨row, hrow⟩, hfull, hctx⟩ := h.producer.resolve_left (by simpa [finished] using hg)
    cases e <;> simp_all [SpoolEvent.owner, enabled]
  | consumer =>
    obtain ⟨hc, ht⟩ := h.consumer.resolve_left (by simpa [finished] using hg)
    cases e <;> simp_all [SpoolEvent.owner, enabled, selecting]
  | closer =>
    have hw := h.working
    cases e <;> simp_all [SpoolEvent.owner, enabled]
    tauto

theorem Stalled.isStuck (h : p.Stalled) : p.IsStuck := by
  refine ⟨?_, fun g hg => ⟨fun e howner => h.blocked howner hg, fun e henv he => ?_⟩⟩
  · rcases h.working with hw | hw
    · exact ⟨.producer, by simpa [finished] using hw⟩
    · exact ⟨.consumer, by simpa [finished] using hw⟩
  · -- the environment can only let the timer expire, which returns no goroutine
    obtain rfl : e = .expire := by cases e <;> simp [SpoolEvent.owner] at henv ⊢
    have hg' : (p.step .expire).finished g ≠ true := by
      rw [Pipeline.step, if_pos he]
      cases g <;> exact hg
    exact fun e' howner => (h.expire he).blocked howner hg'

end Pipeline

/-- Without a read timeout, the row comes a minute late. -/
theorem drained_timer_stuck :
    (run Pipeline.step (Pipeline.start false [.encodes] .eof)
      [.expire, .receiveTimer, .stopTimer, .next, .send, .next]).IsStuck :=
  Pipeline.Stalled.isStuck ⟨.inl (by decide), .inr (by decide), .inr (by decide)⟩

end MyDuck.Spool
