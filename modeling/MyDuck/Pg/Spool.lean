/-
MyDuck.Pg.Spool — the row pipeline of `resultForDefaultIter`
(`duck_handler.go`).

Three goroutines of an errgroup: the producer reads rows off the iterator
and sends them into a channel of 512 rows, the consumer converts them and
calls back for each batch, and the closer waits for both of them before it
closes the iterator. The context of the group is done as soon as one of
them returns an error; a panic is recovered, so the goroutine returns nil
and the context stays as it is.

The timer has a channel of one slot that is emptied by receiving from it,
and its `Stop` returns false once it has expired.

What the rest of the server makes of a row, a callback or the iterator is
part of the input. A cancellation from outside of the group is left out.
-/
import MyDuck.Base.Run
import MyDuck.Base.Processes

namespace MyDuck.Spool

/-! ## Inputs -/

/-- A row of the iterator, and what the consumer makes of it. -/
inductive SpoolRow where
  | okResult (rowsAffected : Nat)
  | encodes
  | encodeFails
  | encodePanics
  deriving DecidableEq, Repr

/-- How the iterator ends behind its rows. -/
inductive Ending where
  | eof
  | fails
  | panics
  deriving DecidableEq, Repr

/-- How the callback, or the `Close` of the iterator, ends. -/
inductive CallEnd where
  | ok
  | fails
  | panics
  deriving DecidableEq, Repr

/-! ## Goroutines -/

inductive Producer where
  | reading
  | sending (row : SpoolRow)
  | finished
  deriving DecidableEq, Repr

inductive Consumer where
  /-- At the top of the loop, or in its select. -/
  | looping
  /-- In front of `timer.Stop()`. -/
  | stopping
  /-- At the receive behind a `Stop` that returned false. -/
  | draining
  | finished
  deriving DecidableEq, Repr

inductive Closer where
  | waiting
  | finished
  deriving DecidableEq, Repr

inductive Timer where
  | armed
  /-- Expired, with the time in its channel. -/
  | fired
  /-- Expired, and its channel is empty. -/
  | drained
  deriving DecidableEq, Repr

/-- `make(chan sql.Row, 512)`. -/
def capacity : Nat := 512

def rowsBatch : Nat := 128

structure Pipeline where
  /-- `h.readTimeout != 0`. -/
  readTimeout : Bool
  /-- The rows that the iterator has still to give. -/
  rest : List SpoolRow
  ending : Ending := .eof
  producer : Producer := .reading
  queue : List SpoolRow := []
  consumer : Consumer := .looping
  /-- `r.RowsAffected`. -/
  affected : Nat := 0
  /-- `len(r.Rows)`. -/
  rows : Nat := 0
  timer : Timer := .armed
  closer : Closer := .waiting
  ctxDone : Bool := false
  deriving DecidableEq, Repr

inductive SpoolEvent where
  /-- `iter.Next`. -/
  | next
  /-- `rowChan <- row`. -/
  | send
  /-- The producer finds the context done. -/
  | quitProducer
  /-- A batch is full. -/
  | callback (how : CallEnd)
  /-- `row, ok := <-rowChan`. -/
  | receive
  /-- `<-timer.C` of the select. -/
  | receiveTimer
  /-- The consumer finds the context done. -/
  | quitConsumer
  /-- `timer.Stop()`. -/
  | stopTimer
  /-- `<-timer.C` behind it. -/
  | drainTimer
  /-- `iter.Close`. -/
  | close (how : CallEnd)
  | expire
  deriving DecidableEq, Repr

inductive Goroutine where
  | producer
  | consumer
  | closer
  deriving DecidableEq, Repr

/-- Who takes a step; the timer expires by itself. -/
def SpoolEvent.owner : SpoolEvent → Option Goroutine
  | .next | .send | .quitProducer => some .producer
  | .callback _ | .receive | .receiveTimer | .quitConsumer | .stopTimer | .drainTimer =>
    some .consumer
  | .close _ => some .closer
  | .expire => none

namespace Pipeline

variable (p : Pipeline)

/-! ## Steps -/

/-- The consumer is in its select. -/
def selecting : Bool := p.consumer = .looping && p.affected ≠ rowsBatch

def enabled : SpoolEvent → Bool
  | .next => p.producer = .reading
  | .send =>
    match p.producer with
    | .sending _ => p.queue.length < capacity
    | _ => false
  | .quitProducer => p.producer ≠ .finished && p.ctxDone
  | .callback _ => p.consumer = .looping && p.affected = rowsBatch
  | .receive => p.selecting && (p.queue ≠ [] || p.producer = .finished)
  | .receiveTimer => p.selecting && p.timer = .fired
  | .quitConsumer => p.selecting && p.ctxDone
  | .stopTimer => p.consumer = .stopping
  | .drainTimer => p.consumer = .draining && p.timer = .fired
  | .close _ => p.closer = .waiting && p.producer = .finished && p.consumer = .finished
  | .expire => p.timer = .armed

/-- The consumer returns an error, which cancels the context. -/
def failConsumer : Pipeline := { p with consumer := .finished, ctxDone := true }

/-- The consumer returns nil, or panics. -/
def endConsumer : Pipeline := { p with consumer := .finished }

/-- `timer.Reset(waitTime)`, and back to the top of the loop. -/
def resetTimer : Pipeline := { p with timer := .armed, consumer := .looping }

/-- What the consumer does with a row. -/
def consume : SpoolRow → Pipeline
  | .okResult n =>
    -- "Got OkResult mixed with RowResult"
    if p.rows > 0 then p.endConsumer
    -- back to the top without a look at the timer
    else { p with affected := n, rows := 0 }
  | .encodes => { p with affected := p.affected + 1, rows := p.rows + 1, consumer := .stopping }
  | .encodeFails => p.failConsumer
  | .encodePanics => p.endConsumer

/-- The step, if it can be taken. -/
def act : SpoolEvent → Pipeline
  | .next =>
    match p.rest, p.ending with
    | row :: rest, _ => { p with rest, producer := .sending row }
    | [], .fails => { p with producer := .finished, ctxDone := true }
    | [], _ => { p with producer := .finished }
  | .send =>
    match p.producer with
    | .sending row => { p with queue := p.queue ++ [row], producer := .reading }
    | _ => p
  | .quitProducer => { p with producer := .finished }
  | .callback .ok => { p with affected := 0, rows := 0 }
  | .callback .fails => p.failConsumer
  | .callback .panics => p.endConsumer
  | .receive =>
    match p.queue with
    | row :: queue => consume { p with queue } row
    | [] => p.endConsumer
  | .receiveTimer =>
    if p.readTimeout then failConsumer { p with timer := .drained }
    else { p with timer := .drained, consumer := .stopping }
  | .quitConsumer => p.endConsumer
  | .stopTimer => if p.timer = .armed then p.resetTimer else { p with consumer := .draining }
  | .drainTimer => p.resetTimer
  | .close .fails => { p with closer := .finished, ctxDone := true }
  | .close _ => { p with closer := .finished }
  | .expire => { p with timer := .fired }

def step (e : SpoolEvent) : Pipeline := if p.enabled e then p.act e else p

def finished : Goroutine → Bool
  | .producer => p.producer = .finished
  | .consumer => p.consumer = .finished
  | .closer => p.closer = .finished

/-- The pipeline at the start of a result. -/
def start (readTimeout : Bool) (rest : List SpoolRow) (ending : Ending) : Pipeline :=
  { readTimeout, rest, ending }

end Pipeline

end MyDuck.Spool
