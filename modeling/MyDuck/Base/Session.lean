/-
MyDuck.Base.Session — a database session as a log of operations.

A deterministic store is determined by the operations it executed, so
the session keeps the operations themselves: `durable` is the list of
committed transactions, oldest first, each the list of its operations,
and `txn` is the transaction the session has open. An operation outside
a transaction is a transaction of its own.

`EveryCommit P` says that `P` held of the durable history right after
each of its commits, not only of the history at hand. It is the form in
which a property of what a commit makes durable is carried through a
run: a new commit adds one obligation (`everyCommit_snoc`), and nothing
else touches the history.

`Outcome` is the result of a function that mutates its state and may
return an error or panic: the state is there after an error too.
`Leaves P` is the postcondition of a call whose caller goes on after an
error, with its sequencing rule.
-/
import MyDuck.Base.KeyedBag

namespace MyDuck

/-! ## Results of state-changing functions -/

/-- The result of a function that mutates a state: it returns normally,
returns an error with the state as it left it, or panics. -/
inductive Outcome (ε σ : Type) where
  | ok (s : σ)
  | error (e : ε) (s : σ)
  | panic
  deriving Repr

namespace Outcome

variable {ε σ : Type}

/-- Go on with the state unless an error or a panic ended the call. -/
def andThen (o : Outcome ε σ) (f : σ → Outcome ε σ) : Outcome ε σ :=
  match o with
  | .ok s => f s
  | .error e s => .error e s
  | .panic => .panic

@[simp] theorem andThen_ok (s : σ) (f : σ → Outcome ε σ) : (Outcome.ok s).andThen f = f s := rfl

@[simp] theorem andThen_error (e : ε) (s : σ) (f : σ → Outcome ε σ) :
    (Outcome.error e s).andThen f = .error e s := rfl

@[simp] theorem andThen_panic (f : σ → Outcome ε σ) :
    (Outcome.panic : Outcome ε σ).andThen f = .panic := rfl

variable {o : Outcome ε σ} {f : σ → Outcome ε σ} {P : σ → Prop}

theorem andThen_eq_ok {s' : σ} : o.andThen f = .ok s' ↔ ∃ s, o = .ok s ∧ f s = .ok s' := by
  cases o <;> simp [andThen]

theorem andThen_eq_error {e : ε} {s' : σ} :
    o.andThen f = .error e s' ↔
      o = .error e s' ∨ ∃ s, o = .ok s ∧ f s = .error e s' := by
  cases o <;> simp [andThen]

def map {τ : Type} (f : σ → τ) : Outcome ε σ → Outcome ε τ
  | .ok s => .ok (f s)
  | .error e s => .error e (f s)
  | .panic => .panic

/-- The state a caller that logs the error and carries on is left with. -/
def state? : Outcome ε σ → Option σ
  | .ok s => some s
  | .error _ s => some s
  | .panic => none

@[simp] theorem state?_ok (s : σ) : (Outcome.ok s : Outcome ε σ).state? = some s := rfl

@[simp] theorem state?_error (e : ε) (s : σ) : (Outcome.error e s).state? = some s := rfl

@[simp] theorem state?_panic : (Outcome.panic : Outcome ε σ).state? = none := rfl

/-- The call returns, normally or with an error, in a state with the
property. -/
def Leaves (o : Outcome ε σ) (P : σ → Prop) : Prop :=
  match o with
  | .ok s => P s
  | .error _ s => P s
  | .panic => False

/-- The sequencing rule: what the first call leaves, the second starts
from. -/
theorem Leaves.andThen (h : o.Leaves P) (hf : ∀ s, P s → (f s).Leaves P) :
    (o.andThen f).Leaves P := by
  cases o with
  | ok s => exact hf s h
  | error e s | panic => exact h

theorem Leaves.mono {Q : σ → Prop} (h : o.Leaves P) (hPQ : ∀ s, P s → Q s) : o.Leaves Q := by
  cases o with
  | ok s => exact hPQ s h
  | error e s => exact hPQ s h
  | panic => exact h

/-- The call leaves a state with `P` when it returns normally and one with
`Q` when it returns an error. A panic leaves no state. -/
def Ends (o : Outcome ε σ) (P Q : σ → Prop) : Prop :=
  match o with
  | .ok s => P s
  | .error _ s => Q s
  | .panic => True

theorem Ends.andThen {Q R : σ → Prop} (h : o.Ends P Q) (hf : ∀ s, P s → (f s).Ends R Q) :
    (o.andThen f).Ends R Q := by
  cases o with
  | ok s => exact hf s h
  | error e s => exact h
  | panic => trivial

theorem Ends.mono {P' Q Q' : σ → Prop} (h : o.Ends P Q) (hP : ∀ s, P s → P' s)
    (hQ : ∀ s, Q s → Q' s) : o.Ends P' Q' := by
  cases o with
  | ok s => exact hP s h
  | error e s => exact hQ s h
  | panic => trivial

/-- A caller that logs the error carries on in such a state. -/
theorem Leaves.state? (h : o.Leaves P) : ∃ s, o.state? = some s ∧ P s := by
  cases o with
  | ok s => exact ⟨s, rfl, h⟩
  | error e s => exact ⟨s, rfl, h⟩
  | panic => exact h.elim

end Outcome

/-! ## Sessions -/

/-- The committed transactions of the store and the transaction the
session has open, each as the list of its operations. -/
structure Session (α : Type) where
  durable : List (List α) := []
  txn : Option (List α) := none
  deriving DecidableEq, Repr

namespace Session

variable {α : Type}

/-- Begin a transaction unless one is open. -/
def getTxn (s : Session α) : Session α :=
  { s with txn := some (s.txn.getD []) }

/-- Execute an operation on the session's connection: inside the open
transaction, or as a transaction of its own. -/
def exec (x : α) (s : Session α) : Session α :=
  match s.txn with
  | some ops => { s with txn := some (ops ++ [x]) }
  | none => { s with durable := s.durable ++ [[x]] }

def execAll (xs : List α) (s : Session α) : Session α :=
  xs.foldl (fun s x => s.exec x) s

/-- Commit the open transaction, if there is one. -/
def commit (s : Session α) : Session α :=
  match s.txn with
  | some ops => { durable := s.durable ++ [ops], txn := none }
  | none => s

def rollback (s : Session α) : Session α := { s with txn := none }

/-- The operations the session itself sees: the durable ones and those of
its open transaction. -/
def working (s : Session α) : List α := s.durable.flatten ++ s.txn.getD []

@[simp] theorem getTxn_durable (s : Session α) : s.getTxn.durable = s.durable := rfl

@[simp] theorem getTxn_txn (s : Session α) : s.getTxn.txn = some (s.txn.getD []) := rfl

@[simp] theorem exec_of_txn (d : List (List α)) (ops : List α) (x : α) :
    (Session.mk d (some ops)).exec x = ⟨d, some (ops ++ [x])⟩ := rfl

@[simp] theorem exec_of_no_txn (d : List (List α)) (x : α) :
    (Session.mk d none).exec x = ⟨d ++ [[x]], none⟩ := rfl

@[simp] theorem execAll_nil (s : Session α) : s.execAll [] = s := rfl

@[simp] theorem execAll_of_txn (d : List (List α)) (ops xs : List α) :
    (Session.mk d (some ops)).execAll xs = ⟨d, some (ops ++ xs)⟩ := by
  induction xs generalizing ops with
  | nil => simp
  | cons x xs ih =>
    have h : (Session.mk d (some ops)).execAll (x :: xs)
        = (Session.mk d (some (ops ++ [x]))).execAll xs := rfl
    rw [h, ih, List.append_assoc, List.singleton_append]

@[simp] theorem commit_of_txn (d : List (List α)) (ops : List α) :
    (Session.mk d (some ops)).commit = ⟨d ++ [ops], none⟩ := rfl

@[simp] theorem commit_of_no_txn (d : List (List α)) :
    (Session.mk d (none : Option (List α))).commit = ⟨d, none⟩ := rfl

section

variable (s : Session α)

@[simp] theorem rollback_durable : s.rollback.durable = s.durable := rfl

@[simp] theorem rollback_txn : s.rollback.txn = none := rfl

@[simp] theorem working_getTxn : s.getTxn.working = s.working := rfl

@[simp] theorem working_exec (x : α) : (s.exec x).working = s.working ++ [x] := by
  obtain ⟨d, _ | ops⟩ := s <;> simp [working]

@[simp] theorem working_execAll (xs : List α) : (s.execAll xs).working = s.working ++ xs := by
  induction xs generalizing s with
  | nil => rw [execAll_nil, List.append_nil]
  | cons x xs ih =>
    have h : s.execAll (x :: xs) = (s.exec x).execAll xs := rfl
    rw [h, ih, working_exec, List.append_assoc, List.singleton_append]

@[simp] theorem working_commit : s.commit.working = s.working := by
  obtain ⟨d, _ | ops⟩ := s <;> simp [working]

@[simp] theorem commit_txn : s.commit.txn = none := by
  obtain ⟨d, _ | ops⟩ := s <;> rfl

/-- What a rollback takes back. -/
theorem working_eq_rollback_append : s.working = s.rollback.working ++ s.txn.getD [] := by
  simp [working]

end

end Session

/-! ## Properties of every commit -/

/-- `P` held of the durable history right after each of its commits. -/
def EveryCommit {α : Type} (P : List (List α) → List α → Prop) (d : List (List α)) : Prop :=
  ∀ pre ops, pre ++ [ops] <+: d → P pre ops

section EveryCommit

variable {α : Type} {P Q : List (List α) → List α → Prop}

theorem everyCommit_nil : EveryCommit P [] := by
  intro pre ops h
  simp at h

variable {d : List (List α)}

/-- One more commit is one more obligation. -/
theorem everyCommit_snoc {ops : List α} :
    EveryCommit P (d ++ [ops]) ↔ EveryCommit P d ∧ P d ops := by
  constructor
  · intro h
    exact ⟨fun pre xs hp => h pre xs (hp.trans (List.prefix_append _ _)),
      h d ops (List.prefix_refl _)⟩
  · rintro ⟨hd, hP⟩ pre xs hp
    rcases List.prefix_concat_iff.mp hp with heq | hlt
    · obtain ⟨rfl, hx⟩ := List.append_inj' heq rfl
      obtain rfl : xs = ops := by simpa using hx
      exact hP
    · exact hd pre xs hlt

/-- Commits of which `P` always holds add nothing to prove. -/
theorem EveryCommit.append {commits : List (List α)} (h : EveryCommit P d)
    (hc : ∀ pre, ∀ ops ∈ commits, P pre ops) : EveryCommit P (d ++ commits) := by
  induction commits using List.reverseRecOn with
  | nil => rwa [List.append_nil]
  | append_singleton commits ops ih =>
    rw [← List.append_assoc]
    refine everyCommit_snoc.mpr ⟨ih fun pre xs hx => hc pre xs (List.mem_append_left _ hx), ?_⟩
    exact hc _ ops (List.mem_append_right _ (List.mem_singleton_self _))

theorem EveryCommit.mono (hPQ : ∀ pre ops, P pre ops → Q pre ops) (h : EveryCommit P d) :
    EveryCommit Q d :=
  fun pre ops hp => hPQ pre ops (h pre ops hp)

end EveryCommit

end MyDuck
