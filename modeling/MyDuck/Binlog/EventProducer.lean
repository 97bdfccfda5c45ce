/-
MyDuck.Binlog.EventProducer — events on their way from the connection to
the applier (`binlog_replica_event_producer.go`, and the select of
`replicaBinlogEventHandler`).

Every connection has a producer of its own: a goroutine that reads an event
and sends it into a channel without a buffer, and looks at `running` in
front of the read and behind it. The handler receives from the producer of
its connection; behind an error that says the connection is bad it stops
the producer and connects again. A producer that finds itself stopped
closes its channels, and a receive from a closed channel gives nil.
-/
import MyDuck.Base.Run

namespace MyDuck.Binlog

variable {ε : Type}

/-- What `ReadBinlogEvent` returns. -/
inductive ReadResult (ε : Type) where
  | event (e : ε)
  /-- An error, and whether it is a `badConnection`. -/
  | error (bad : Bool)

def ReadResult.events : ReadResult ε → List ε
  | .event e => [e]
  | .error _ => []

/-- Where the goroutine of a producer is. -/
inductive ProducerPhase (ε : Type) where
  /-- In front of the condition of its loop. -/
  | checking
  | reading
  /-- Behind the read, in front of the second look at `running`. -/
  | holding (r : ReadResult ε)
  | sending (r : ReadResult ε)
  /-- Behind the loop. The two channels are closed in one step here. -/
  | closed

structure EventProducer (ε : Type) where
  running : Bool := true
  phase : ProducerPhase ε := .checking
  /-- The events read off the connection. -/
  read : List ε := []
  /-- What `processBinlogEvent` was given of them. -/
  handled : List (Option ε) := []

inductive ProducerStep (ε : Type) where
  | look
  | read (r : ReadResult ε)

namespace EventProducer

variable (p : EventProducer ε)

/-- On to `phase`, or out of the loop. -/
def look (phase : ProducerPhase ε) : EventProducer ε :=
  { p with phase := if p.running then phase else .closed }

/-- The loop of `Go`. -/
def step : ProducerStep ε → EventProducer ε
  | .look =>
    match p.phase with
    | .checking => p.look .reading
    | .holding r => p.look (.sending r)
    | _ => p
  | .read r =>
    match p.phase with
    | .reading => { p with phase := .holding r, read := p.read ++ r.events }
    | _ => p

/-- The handler receives from a channel of the producer. -/
def received : EventProducer ε :=
  match p.phase with
  | .sending r => { p with phase := .checking, handled := p.handled ++ r.events.map some }
  | .closed => { p with handled := p.handled ++ [none] }
  | _ => p

def stop : EventProducer ε := { p with running := false }

end EventProducer

inductive HandlerPhase where
  | connecting
  /-- In the select, with the producer of this connection. -/
  | selecting (k : ℕ)
  /-- Behind a bad connection, in front of the `Stop` of its producer. -/
  | dropping (k : ℕ)
  | returned

/-- The connections are numbered; those from `made` on are still to come. -/
structure Handoff (ε : Type) where
  producers : ℕ → EventProducer ε := fun _ => {}
  made : ℕ := 0
  handler : HandlerPhase := .connecting

inductive HandoffEvent (ε : Type) where
  | connect (ok : Bool)
  | produce (k : ℕ) (a : ProducerStep ε)
  | receive
  | drop
  | stopReplica

namespace Handoff

/-- Producer `k` is `p` now, and the handler at `phase`. -/
def set (s : Handoff ε) (k : ℕ) (p : EventProducer ε) (phase : HandlerPhase) : Handoff ε :=
  { s with producers := Function.update s.producers k p, handler := phase }

def step (s : Handoff ε) : HandoffEvent ε → Handoff ε
  | .connect ok =>
    match s.handler with
    | .connecting =>
      if ok then { s with made := s.made + 1, handler := .selecting s.made }
      else { s with handler := .returned }
    | _ => s
  | .produce k a => if k < s.made then s.set k ((s.producers k).step a) s.handler else s
  | .receive =>
    match s.handler with
    | .selecting k =>
      s.set k (s.producers k).received
        (match (s.producers k).phase with
        | .sending (.error true) => .dropping k
        | _ => .selecting k)
    | _ => s
  | .drop =>
    match s.handler with
    | .dropping k => s.set k (s.producers k).stop .connecting
    | _ => s
  | .stopReplica =>
    match s.handler with
    | .selecting k => s.set k (s.producers k).stop .returned
    | _ => s

end Handoff

/-! ## One producer -/

def ProducerPhase.inHand : ProducerPhase ε → List ε
  | .holding r | .sending r => r.events
  | _ => []

/-- What was read was handled, but for the event in the hand of the
producer, or the one with which it closed its channels. -/
structure EventProducer.Sound (p : EventProducer ε) : Prop where
  closed : p.phase = .closed → p.running = false
  handled : ∃ rest : List ε, rest.length ≤ 1 ∧ p.handled ++ rest.map some = p.read.map some ∧
    (p.phase = .closed ∨ rest = p.phase.inHand)

namespace EventProducer

variable {p : EventProducer ε}

theorem Sound.look (h : p.Sound) (hp : p.phase ≠ .closed) {phase : ProducerPhase ε}
    (hphase : phase ≠ .closed) (hand : phase.inHand = p.phase.inHand) : (p.look phase).Sound := by
  obtain ⟨rest, hlength, hread, hrest⟩ := h.handled
  unfold EventProducer.look
  cases hrun : p.running with
  | true =>
    refine ⟨fun hclosed => absurd hclosed hphase, rest, hlength, hread, .inr ?_⟩
    exact (hrest.resolve_left hp).trans hand.symm
  | false => exact ⟨fun _ => rfl, rest, hlength, hread, .inl rfl⟩

theorem Sound.step (h : p.Sound) (a : ProducerStep ε) : (p.step a).Sound := by
  cases a with
  | look =>
    simp only [EventProducer.step]
    split
    next hp => exact h.look (by simp [hp]) (by simp) (by rw [hp]; rfl)
    next r hp => exact h.look (by simp [hp]) (by simp) (by rw [hp]; rfl)
    next => exact h
  | read r =>
    simp only [EventProducer.step]
    split
    next hp =>
      obtain ⟨rest, -, hread, hrest⟩ := h.handled
      obtain rfl : rest = [] := by simpa [hp, ProducerPhase.inHand] using hrest
      have hone : r.events.length ≤ 1 := by cases r <;> simp [ReadResult.events]
      exact ⟨by simp, r.events, hone, by simpa using hread, .inr rfl⟩
    next => exact h

theorem step_keeps (a : ProducerStep ε) :
    (p.step a).running = p.running ∧ (p.step a).handled = p.handled := by
  cases a <;> simp only [EventProducer.step] <;> split <;> exact ⟨rfl, rfl⟩

theorem running_received : p.received.running = p.running := by
  unfold EventProducer.received
  split <;> rfl

/-- The channels of a producer that is running are open. -/
theorem Sound.received (h : p.Sound) (hrun : p.running = true) : p.received.Sound := by
  obtain ⟨rest, hlength, hread, hrest⟩ := h.handled
  unfold EventProducer.received
  split
  next r hp =>
    obtain rfl : rest = r.events := by simpa [hp, ProducerPhase.inHand] using hrest
    exact ⟨by simp, [], by simp, by simpa using hread, .inr rfl⟩
  next hp => cases hrun.symm.trans (h.closed hp)
  next => exact h

theorem Sound.stop (h : p.Sound) : p.stop.Sound := ⟨fun _ => rfl, h.handled⟩

end EventProducer

/-! ## All connections -/

def HandlerPhase.producer? : HandlerPhase → Option ℕ
  | .selecting k | .dropping k => some k
  | _ => none

namespace Handoff

/-- What a step can do. -/
inductive Moves (s : Handoff ε) : Handoff ε → Prop
  | rests : Moves s s
  | fails : Moves s { s with handler := .returned }
  | connects : Moves s { s with made := s.made + 1, handler := .selecting s.made }
  | produces (k : ℕ) (a : ProducerStep ε) (hk : k < s.made) :
    Moves s (s.set k ((s.producers k).step a) s.handler)
  | receives (k : ℕ) (hk : s.handler = .selecting k) (phase : HandlerPhase)
    (hphase : phase.producer? = some k) : Moves s (s.set k (s.producers k).received phase)
  | leaves (k : ℕ) (hk : s.handler.producer? = some k) (phase : HandlerPhase)
    (hphase : phase.producer? = none) : Moves s (s.set k (s.producers k).stop phase)

theorem step_moves (s : Handoff ε) (e : HandoffEvent ε) : s.Moves (s.step e) := by
  cases e with
  | connect ok =>
    simp only [Handoff.step]
    split
    · split_ifs
      · exact .connects
      · exact .fails
    · exact .rests
  | produce k a =>
    simp only [Handoff.step]
    split_ifs with hk
    · exact .produces k a hk
    · exact .rests
  | receive =>
    simp only [Handoff.step]
    split
    next k hk =>
      refine .receives k hk _ ?_
      split <;> rfl
    next => exact .rests
  | drop =>
    simp only [Handoff.step]
    split
    next k hk => exact .leaves k (by rw [hk]; rfl) _ rfl
    next => exact .rests
  | stopReplica =>
    simp only [Handoff.step]
    split
    next k hk => exact .leaves k (by rw [hk]; rfl) _ rfl
    next => exact .rests

structure Inv (s : Handoff ε) : Prop where
  sound : ∀ k, (s.producers k).Sound
  /-- The handler receives from the newest producer, which is running. -/
  current : ∀ k, s.handler.producer? = some k → k + 1 = s.made ∧ (s.producers k).running = true
  unmade : ∀ k, s.made ≤ k → (s.producers k).running = true

variable {s t : Handoff ε} {k : ℕ}

theorem inv_init : ({} : Handoff ε).Inv where
  sound _ := ⟨fun h => (by cases h), [], by simp, rfl, .inr rfl⟩
  current _ h := by cases h
  unmade _ _ := rfl

/-- A step that changes one producer that was made. -/
theorem Inv.set (h : s.Inv) (hk : k < s.made) {p : EventProducer ε} (hp : p.Sound)
    {phase : HandlerPhase} (hphase : ∀ j, phase.producer? = some j →
      s.handler.producer? = some j ∧ p.running = (s.producers k).running) :
    (s.set k p phase).Inv where
  sound := (Function.forall_update_iff s.producers fun _ p => p.Sound).mpr
    ⟨hp, fun j _ => h.sound j⟩
  current j hj := by
    obtain ⟨hold, hrun⟩ := hphase j hj
    obtain ⟨hmade, hrunning⟩ := h.current j hold
    refine ⟨hmade, ?_⟩
    by_cases hjk : j = k
    · subst hjk
      simpa [Handoff.set] using hrun.trans hrunning
    · simpa [Handoff.set, hjk] using hrunning
  unmade j hj := by
    have hjk : j ≠ k := (hk.trans_le hj).ne'
    simpa [Handoff.set, hjk] using h.unmade j hj

theorem Inv.moves (h : s.Inv) (hmoves : s.Moves t) : t.Inv := by
  have hlt : ∀ {k}, s.handler.producer? = some k → k < s.made := fun hk =>
    (Nat.lt_succ_self _).trans_eq (h.current _ hk).1
  cases hmoves with
  | rests => exact h
  | fails => exact ⟨h.sound, fun j hj => (by cases hj), h.unmade⟩
  | connects =>
    refine ⟨h.sound, fun j hj => ?_, fun j hj => h.unmade j (Nat.le_of_succ_le hj)⟩
    obtain rfl := Option.some.inj hj
    exact ⟨rfl, h.unmade _ le_rfl⟩
  | produces k a hk =>
    exact h.set hk ((h.sound k).step a) fun j hj => ⟨hj, (EventProducer.step_keeps a).1⟩
  | receives k hk phase hphase =>
    have hcurrent : s.handler.producer? = some k := by rw [hk]; rfl
    exact h.set (hlt hcurrent) ((h.sound k).received (h.current k hcurrent).2)
      fun j hj => ⟨hcurrent.trans (hphase.symm.trans hj), EventProducer.running_received⟩
  | leaves k hk phase hphase =>
    exact h.set (hlt hk) (h.sound k).stop fun j hj => (by cases hphase.symm.trans hj)

theorem inv_run (es : List (HandoffEvent ε)) : (run step ({} : Handoff ε) es).Inv :=
  (Along.of_forall (P := fun _ _ => True) (fun _ _ => trivial) _ es).invariant Inv
    (fun s e h _ => h.moves (step_moves s e)) inv_init

/-- **Events are handed over in order.** In every order of the steps the
handler gets the events of a connection as they were read, all of them but
at most the last, and never the nil of a closed channel. -/
theorem handed_over_in_order (es : List (HandoffEvent ε)) (k : ℕ) :
    ∃ rest : List ε, rest.length ≤ 1 ∧
      ((run step ({} : Handoff ε) es).producers k).handled ++ rest.map some =
        ((run step ({} : Handoff ε) es).producers k).read.map some := by
  obtain ⟨rest, hlength, hread, -⟩ := ((inv_run es).sound k).handled
  exact ⟨rest, hlength, hread⟩

/-! ## A producer that was left -/

/-- The producer was made, and the handler does not receive from it. -/
def Left (s : Handoff ε) (k : ℕ) : Prop := k < s.made ∧ s.handler ≠ .selecting k

/-- Nothing more was handled of the producer, and it is still at its send. -/
structure Stays (s s' : Handoff ε) (k : ℕ) : Prop where
  left : s'.Left k
  handled : (s'.producers k).handled = (s.producers k).handled
  sending : ∀ r, (s.producers k).phase = .sending r → (s'.producers k).phase = .sending r

theorem Left.set (h : s.Left k) {j : ℕ} {p : EventProducer ε} {phase : HandlerPhase}
    (hphase : phase ≠ .selecting k) (hp : j = k → p.handled = (s.producers k).handled ∧
      ∀ r, (s.producers k).phase = .sending r → p.phase = .sending r) :
    Stays s (s.set j p phase) k := by
  by_cases hjk : j = k
  · subst hjk
    exact ⟨⟨h.1, hphase⟩, by simpa [Handoff.set] using (hp rfl).1,
      by simpa [Handoff.set] using (hp rfl).2⟩
  · exact ⟨⟨h.1, hphase⟩, by simp [Handoff.set, Ne.symm hjk], by simp [Handoff.set, Ne.symm hjk]⟩

theorem Left.moves (h : s.Left k) (hmoves : s.Moves t) : Stays s t k := by
  cases hmoves with
  | rests => exact ⟨h, rfl, fun _ hr => hr⟩
  | fails => exact ⟨⟨h.1, by simp⟩, rfl, fun _ hr => hr⟩
  | connects =>
    refine ⟨⟨h.1.trans (Nat.lt_succ_self _), fun heq => ?_⟩, rfl, fun _ hr => hr⟩
    exact h.1.ne' (HandlerPhase.selecting.inj heq)
  | produces j a hj =>
    refine h.set h.2 ?_
    rintro rfl
    exact ⟨(EventProducer.step_keeps a).2, fun r hr => by cases a <;> simp [EventProducer.step, hr]⟩
  | receives j hj phase hphase =>
    have hjk : j ≠ k := fun hjk => h.2 (hjk ▸ hj)
    refine h.set (fun heq => ?_) fun heq => absurd heq hjk
    rw [heq] at hphase
    exact hjk (Option.some.inj hphase).symm
  | leaves j hj phase hphase =>
    refine h.set (fun heq => ?_) fun hjk => hjk ▸ ⟨rfl, fun _ hr => hr⟩
    rw [heq] at hphase
    cases hphase

/-- **A producer that was left** hands over nothing more, and if it was at
its send, its goroutine stays there for ever. -/
theorem left_producer_stays {k : ℕ} {s : Handoff ε} (h : s.Left k) (es : List (HandoffEvent ε)) :
    Stays s (run step s es) k := by
  induction es generalizing s with
  | nil => exact ⟨h, rfl, fun _ hr => hr⟩
  | cons e es ih =>
    have hstep := h.moves (step_moves s e)
    have hrest := ih hstep.left
    exact ⟨hrest.left, hrest.handled.trans hstep.handled,
      fun r hr => hrest.sending r (hstep.sending r hr)⟩

/-- The connection breaks, and the producer reads a second error before it
is stopped. -/
def stoppedAtSend : List (HandoffEvent ε) :=
  [.connect true, .produce 0 .look, .produce 0 (.read (.error true)), .produce 0 .look, .receive,
    .produce 0 .look, .produce 0 (.read (.error true)), .produce 0 .look, .drop]

theorem left_producer_stays_stoppedAtSend :
    (run step ({} : Handoff Unit) stoppedAtSend).Left 0 ∧
      ∀ es, ((run step (run step ({} : Handoff Unit) stoppedAtSend) es).producers 0).phase =
        .sending (.error true) := by
  have hleft : (run step ({} : Handoff Unit) stoppedAtSend).Left 0 :=
    ⟨Nat.one_pos, fun heq => (by cases heq)⟩
  exact ⟨hleft, fun es => (left_producer_stays hleft es).sending _ rfl⟩

end Handoff

end MyDuck.Binlog
