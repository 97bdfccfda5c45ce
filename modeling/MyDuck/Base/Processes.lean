/-
MyDuck.Base.Processes — processes that are busy, at rest or stuck.

Numbered processes of which at most one is busy: they are a function from
their numbers to what each of them is doing; `rest` says which of these is
doing nothing any more. A step of one process is a `Function.update`. The
lemmas say how "all are at rest" (`Quiet`) and "all but one are at rest"
(`QuietBut`) pass over such a step.

Processes that share a state: a step is owned by a process or by the
environment. A system is `Stuck` when a process has not finished and no
unfinished process can take a step, now or after a step of the
environment.
-/
import Mathlib

namespace MyDuck

variable {α : Type} {rest rest' : α → Prop} {p : Nat → α}

/-- Every process is at rest. -/
def Quiet (rest : α → Prop) (p : Nat → α) : Prop := ∀ i, rest (p i)

/-- Every process except `i` is at rest. -/
def QuietBut (rest : α → Prop) (p : Nat → α) (i : Nat) : Prop := ∀ k, k ≠ i → rest (p k)

theorem QuietBut.update {i : Nat} (h : QuietBut rest p i) (a : α) :
    QuietBut rest (Function.update p i a) i := by
  intro k hk
  rw [Function.update_of_ne hk]
  exact h k hk

/-- A process at rest is replaced by one. -/
theorem QuietBut.update_rest {i : Nat} (h : QuietBut rest p i) {k : Nat} {a : α} (ha : rest a) :
    QuietBut rest (Function.update p k a) i := by
  intro m hm
  by_cases hk : m = k
  · subst hk
    rwa [Function.update_self]
  · rw [Function.update_of_ne hk]
    exact h m hm

/-- The only busy process comes to rest. -/
theorem QuietBut.quiet {i : Nat} (h : QuietBut rest p i) {a : α} (ha : rest a) :
    Quiet rest (Function.update p i a) := by
  intro k
  by_cases hk : k = i
  · subst hk
    rwa [Function.update_self]
  · rw [Function.update_of_ne hk]
    exact h k hk

theorem Quiet.but (h : Quiet rest p) (i : Nat) : QuietBut rest p i := fun k _ => h k

/-- A process begins. -/
theorem Quiet.update (h : Quiet rest p) (i : Nat) (a : α) :
    QuietBut rest (Function.update p i a) i :=
  (h.but i).update a

/-- The busy process is the one that is allowed to be. -/
theorem QuietBut.eq {i k : Nat} (h : QuietBut rest p i) (hk : ¬ rest (p k)) : k = i :=
  not_not.mp fun hne => hk (h k hne)

theorem Quiet.mono (h : Quiet rest p) (hrest : ∀ a, rest a → rest' a) : Quiet rest' p :=
  fun i => hrest _ (h i)

theorem QuietBut.mono {i : Nat} (h : QuietBut rest p i) (hrest : ∀ a, rest a → rest' a) :
    QuietBut rest' p i :=
  fun k hk => hrest _ (h k hk)

/-! ## Stuck systems -/

section Stuck

variable {σ ι π : Type} (enabled : σ → ι → Prop) (step : σ → ι → σ) (owner : ι → Option π)
  (ended : σ → π → Prop)

def Blocked (s : σ) (p : π) : Prop := ∀ i, owner i = some p → ¬ enabled s i

/-- Some process has not finished, and none of those that have not can take
a step, now or after a step of the environment. -/
def Stuck (s : σ) : Prop :=
  (∃ p, ¬ ended s p) ∧ ∀ p, ¬ ended s p →
    Blocked enabled owner s p ∧
      ∀ e, owner e = none → enabled s e → Blocked enabled owner (step s e) p

variable {enabled step owner ended} {s : σ}

/-- In a stuck system a process with a step has finished. -/
theorem Stuck.finished (h : Stuck enabled step owner ended s) {i : ι} {p : π}
    (hi : owner i = some p) (he : enabled s i) : ended s p :=
  not_not.mp fun hp => (h.2 p hp).1 i hi he

/-- So has a process to which a step of the environment gives one. -/
theorem Stuck.finished_of_env (h : Stuck enabled step owner ended s) {e i : ι} {p : π}
    (henv : owner e = none) (he : enabled s e) (hi : owner i = some p)
    (hstep : enabled (step s e) i) : ended s p :=
  not_not.mp fun hp => (h.2 p hp).2 e henv he i hi hstep

/-- A system all of whose processes have finished is not stuck. -/
theorem not_stuck_of_finished (h : ∀ p, ended s p) : ¬ Stuck enabled step owner ended s :=
  fun ⟨⟨p, hp⟩, _⟩ => hp (h p)

end Stuck

end MyDuck
