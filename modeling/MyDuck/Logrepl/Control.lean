/-
MyDuck.Logrepl.Control — starting and stopping a logical replicator
(`replication.go`: `StartReplication`, `shutdown`, `Stop`).

The goroutines that run `StartReplication` and the calls of `Stop` are
numbered processes over the fields `running` and `stop` of one
`LogicalReplicator`. The sections under `mu` are single steps: the one
that sets `running` and makes the channel, the one of `shutdown`, and the
check of `Stop`. Outside of them `stop` is read each time it is used: by
each pass of the loop, by the send of `Stop` and by the receive behind it.

The channels are numbered in the order in which they are made. A send
meets a receiver, which may be a loop or another `Stop` that waits for the close;
a send on a closed or a nil channel is `lost` (it panics, or blocks
forever).
-/
import MyDuck.Base.Run
import MyDuck.Base.Processes

namespace MyDuck.Logrepl

/-- Where a goroutine that runs `StartReplication` is. -/
inductive LoopPhase where
  /-- It has not reached the section that sets `running`. -/
  | starting
  /-- At the top of the loop, or between its two selects. -/
  | top
  /-- In the select that waits for a message, with the channel it read. -/
  | waiting (c : Nat)
  /-- It has left the loop and has not been through `shutdown`. -/
  | leaving
  | gone
  /-- `shutdown` closed a channel that was closed, or nil. -/
  | panicked
  deriving DecidableEq, Repr

/-- The goroutine is inside its loop. -/
def LoopPhase.inLoop : LoopPhase → Bool
  | .top => true
  | .waiting _ => true
  | _ => false

/-- Where a call of `Stop` is; `i` is the loop that was running when it
looked. -/
inductive StopPhase where
  | checked (i : Nat)
  | sending (i c : Nat)
  | sent (i : Nat)
  | awaiting (i c : Nat)
  | returned (i : Option Nat)
  | lost
  deriving DecidableEq, Repr

structure Control where
  running : Bool := false
  stop : Option Nat := none
  /-- The channels that have been closed. -/
  closed : Nat → Bool := fun _ => false
  channels : Nat := 0
  loops : Nat → LoopPhase := fun _ => .gone
  spawned : Nat := 0
  /-- The loop that set `running` last. -/
  runner : Nat := 0
  stops : Nat → StopPhase := fun _ => .returned none
  called : Nat := 0

inductive LoopEvent where
  /-- The section that sets `running`. -/
  | start
  /-- An error in front of that section. -/
  | abort
  /-- On to the select that waits for a message. -/
  | look
  /-- The select ends with something else than the channel. -/
  | wake
  /-- The channel is found closed. -/
  | hear
  /-- An error inside the loop. -/
  | leave
  | shutdown
  deriving DecidableEq, Repr

inductive StopEvent where
  /-- The send reads the channel. -/
  | send
  /-- The channel of a send that waits has been closed. -/
  | cut
  /-- The receive reads the channel. -/
  | listen
  /-- The receive finds the channel closed. -/
  | acknowledge
  deriving DecidableEq, Repr

inductive ControlEvent where
  /-- `go StartReplication`. -/
  | spawn
  | loop (i : Nat) (e : LoopEvent)
  /-- `Stop`, and its check. -/
  | call
  | stop (j : Nat) (e : StopEvent)
  /-- Loop `i` receives what `Stop` call `j` sends. -/
  | receive (i j : Nat)
  /-- `Stop` call `k` receives what `Stop` call `j` sends. -/
  | steal (k j : Nat)
  deriving DecidableEq, Repr

/-- A step that does not begin a loop or a call, and that is not an error
of the source. -/
def ControlEvent.internal : ControlEvent → Bool
  | .spawn => false
  | .call => false
  | .loop _ .abort => false
  | .loop _ .leave => false
  | _ => true

namespace Control

variable (r : Control)

def setLoop (i : Nat) (p : LoopPhase) : Control := { r with loops := Function.update r.loops i p }

def setStop (j : Nat) (p : StopPhase) : Control := { r with stops := Function.update r.stops j p }

/-- The channel `stop` is closed. -/
def stopClosed : Bool := r.stop.any r.closed

/-- `StartReplication`. -/
def onLoop (i : Nat) (e : LoopEvent) : Control :=
  match r.loops i, e with
  | .starting, .start =>
    setLoop { r with running := true, stop := some r.channels, channels := r.channels + 1,
                     runner := i } i .top
  | .starting, .abort => r.setLoop i .gone
  | .top, .look =>
    match r.stop with
    | some c => r.setLoop i (.waiting c)
    | none => r
  | .top, .hear => if r.stopClosed then r.setLoop i .leaving else r
  | .top, .leave => r.setLoop i .leaving
  | .waiting c, .hear => if r.closed c then r.setLoop i .leaving else r
  | .waiting _, .wake => r.setLoop i .top
  | .waiting _, .leave => r.setLoop i .leaving
  | .leaving, .shutdown =>
    match r.stop with
    | some c =>
      if r.closed c then setLoop { r with running := false } i .panicked
      else setLoop { r with running := false, closed := Function.update r.closed c true } i .gone
    | none => setLoop { r with running := false } i .panicked
  | _, _ => r

/-- `Stop` behind its check. -/
def onStop (j : Nat) (e : StopEvent) : Control :=
  match r.stops j, e with
  | .checked i, .send =>
    match r.stop with
    | some c => r.setStop j (if r.closed c then .lost else .sending i c)
    | none => r.setStop j .lost
  | .sending _ c, .cut => if r.closed c then r.setStop j .lost else r
  | .sent i, .listen =>
    match r.stop with
    | some c => r.setStop j (.awaiting i c)
    | none => r
  | .awaiting i c, .acknowledge => if r.closed c then r.setStop j (.returned (some i)) else r
  | _, _ => r

/-- The channel that a loop receives from. -/
def receivesOn (i : Nat) : Option Nat :=
  match r.loops i with
  | .top => r.stop
  | .waiting c => some c
  | _ => none

def step : ControlEvent → Control
  | .spawn => setLoop { r with spawned := r.spawned + 1 } r.spawned .starting
  | .loop i e => r.onLoop i e
  | .call =>
    setStop { r with called := r.called + 1 } r.called
      (if r.running then .checked r.runner else .returned none)
  | .stop j e => r.onStop j e
  | .receive i j =>
    match r.stops j with
    | .sending a c =>
      if r.receivesOn i = some c then (r.setLoop i .leaving).setStop j (.sent a) else r
    | _ => r
  | .steal k j =>
    match r.stops k, r.stops j with
    | .awaiting a c, .sending b d =>
      if c = d then (r.setStop k (.returned (some a))).setStop j (.sent b) else r
    | _, _ => r

end Control

end MyDuck.Logrepl
