/-
MyDuck.Logrepl.Reconcile — `UpdateSubscriptions` (`subscription.go`) and
the SQL statements that call it.

A CREATE, ENABLE, DISABLE or DROP SUBSCRIPTION commits its change of
`pg_subscription` and calls `UpdateSubscriptions`, which reads the rows,
visits each of them, and then stops and deletes what the map holds beyond
them. The visit of one row is a step; a `Stop` inside it is a call of the
replicator's control, and the visit goes on when that call has returned.
The rows, and the entries of the map, are visited in any order. The
goroutines take their own steps in between (`internal`).

The source does not fail here: no loop leaves on an error. What a call
does with a replicator besides starting and stopping it (the slot) is
left out.
-/
import MyDuck.Logrepl.Control

namespace MyDuck.Logrepl

/-- The rows of `pg_subscription`. -/
structure Rows where
  names : Finset String := ∅
  enabled : String → Bool := fun _ => false

inductive SubscriptionSQL where
  | create (name : String)
  | enable (name : String)
  | disable (name : String)
  | drop (name : String)
  deriving DecidableEq, Repr

namespace Rows

variable (rows : Rows)

/-- `UPDATE … SET subenabled`: of a row that is there. -/
def setEnabled (name : String) (b : Bool) : Rows :=
  if name ∈ rows.names then { rows with enabled := Function.update rows.enabled name b } else rows

/-- CREATE upserts the row. -/
def exec : SubscriptionSQL → Rows
  | .create name =>
    { names := insert name rows.names, enabled := Function.update rows.enabled name true }
  | .enable name => rows.setEnabled name true
  | .disable name => rows.setEnabled name false
  | .drop name => { rows with names := rows.names.erase name }

end Rows

/-- A `Subscription` with its replicator. -/
structure Sub where
  name : String := ""
  enabled : Bool := false
  replicator : Control := {}

namespace Sub

/-- `go Replicator.StartReplication`. -/
def start (s : Sub) : Sub := { s with replicator := s.replicator.step .spawn }

/-- `Replicator.Stop()`, up to its check. -/
def stop (s : Sub) : Sub := { s with replicator := s.replicator.step .call }

end Sub

/-- Where a statement is. -/
inductive CallPhase where
  /-- Its change of the rows is committed. -/
  | written
  /-- It has read the rows, and has `todo` to visit. -/
  | visiting (rows : Rows) (todo : Finset String)
  /-- It waits for `Stop` call `j` of subscription `a`. -/
  | stopping (rows : Rows) (todo : Finset String) (a j : Nat)
  /-- The same, before subscription `a` is deleted from the map. -/
  | dropping (rows : Rows) (name : String) (a j : Nat)
  | returned

structure Subscriptions where
  catalog : Rows := {}
  /-- The names in `subscriptionMap`. -/
  keys : Finset String := ∅
  /-- What the map has under a name. -/
  entry : String → Nat := fun _ => 0
  subs : Nat → Sub := fun _ => {}
  made : Nat := 0
  calls : Nat → CallPhase := fun _ => .returned
  issued : Nat := 0

inductive SubscriptionEvent where
  | issue (sql : SubscriptionSQL)
  | read (k : Nat)
  | visit (k : Nat) (name : String)
  /-- The `Stop` of a visit has returned. -/
  | resume (k : Nat)
  | sweep (k : Nat) (name : String)
  /-- The `Stop` before a deletion has returned. -/
  | delete (k : Nat)
  | finish (k : Nat)
  /-- A step inside the replicator of subscription `a`. -/
  | internal (a : Nat) (e : ControlEvent)
  deriving DecidableEq, Repr

namespace Subscriptions

variable (s : Subscriptions)

def setCall (k : Nat) (p : CallPhase) : Subscriptions :=
  { s with calls := Function.update s.calls k p }

def setSub (a : Nat) (sub : Sub) : Subscriptions := { s with subs := Function.update s.subs a sub }

/-- `LoadOrStore` of a name that the map does not have. -/
def addSub (name : String) (sub : Sub) : Subscriptions :=
  { s with keys := insert name s.keys, entry := Function.update s.entry name s.made,
           subs := Function.update s.subs s.made sub, made := s.made + 1 }

def visitRow (k : Nat) (rows : Rows) (todo : Finset String) (name : String) : Subscriptions :=
  let on := rows.enabled name
  if name ∈ s.keys then
    let a := s.entry name
    let sub := s.subs a
    if sub.enabled = on then s.setCall k (.visiting rows todo)
    else if on then
      (s.setSub a { sub.start with enabled := true }).setCall k (.visiting rows todo)
    else
      (s.setSub a { sub.stop with enabled := false }).setCall k
        (.stopping rows todo a sub.replicator.called)
  else
    let sub : Sub := { name := name, enabled := on }
    (s.addSub name (if on then sub.start else sub)).setCall k (.visiting rows todo)

/-- `Stop` call `j` of subscription `a` has returned. -/
def stopReturned (a j : Nat) : Bool :=
  match (s.subs a).replicator.stops j with
  | .returned _ => true
  | _ => false

def step : SubscriptionEvent → Subscriptions
  | .issue sql =>
    setCall { s with catalog := s.catalog.exec sql, issued := s.issued + 1 } s.issued .written
  | .read k =>
    match s.calls k with
    | .written => s.setCall k (.visiting s.catalog s.catalog.names)
    | _ => s
  | .visit k name =>
    match s.calls k with
    | .visiting rows todo => if name ∈ todo then s.visitRow k rows (todo.erase name) name else s
    | _ => s
  | .resume k =>
    match s.calls k with
    | .stopping rows todo a j =>
      if s.stopReturned a j then s.setCall k (.visiting rows todo) else s
    | _ => s
  | .sweep k name =>
    match s.calls k with
    | .visiting rows todo =>
      if todo = ∅ ∧ name ∈ s.keys ∧ name ∉ rows.names then
        let a := s.entry name
        (s.setSub a (s.subs a).stop).setCall k
          (.dropping rows name a (s.subs a).replicator.called)
      else s
    | _ => s
  | .delete k =>
    match s.calls k with
    | .dropping rows name a j =>
      if s.stopReturned a j then
        setCall { s with keys := s.keys.erase name } k (.visiting rows ∅)
      else s
    | _ => s
  | .finish k =>
    match s.calls k with
    | .visiting rows todo =>
      if todo = ∅ ∧ s.keys ⊆ rows.names then s.setCall k .returned else s
    | _ => s
  | .internal a e =>
    if e.internal then
      s.setSub a { s.subs a with replicator := (s.subs a).replicator.step e }
    else s

/-- The subscription whose `Stop` a step calls. -/
def stopCalled : SubscriptionEvent → Option Nat
  | .visit k name =>
    match s.calls k with
    | .visiting rows todo =>
      if name ∈ todo ∧ name ∈ s.keys ∧ (s.subs (s.entry name)).enabled = true ∧
          rows.enabled name = false then some (s.entry name)
      else none
    | _ => none
  | .sweep k name =>
    match s.calls k with
    | .visiting rows todo =>
      if todo = ∅ ∧ name ∈ s.keys ∧ name ∉ rows.names then some (s.entry name) else none
    | _ => none
  | _ => none

end Subscriptions

end MyDuck.Logrepl
