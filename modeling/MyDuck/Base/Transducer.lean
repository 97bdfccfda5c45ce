/-
MyDuck.Base.Transducer — machines that read a text and write another.

A transducer writes some symbols for every symbol it reads, and more at
the end of its input, where it may also fail. A lexer is one, and so is
a program that rewrites a text in one pass; `andThen` reads what another
writes as it is written.

`output_eq_of_simulation` is the rule for two machines that write the same
in step. `output_eq_iff_along` is its converse: when every step that
leaves the simulation makes the outputs differ, they are the same exactly
along the steps that keep it.
-/
import MyDuck.Base.Run

namespace MyDuck

structure Transducer (σ ι ο : Type) where
  step : σ → ι → σ × List ο
  finish : σ → Option (List ο)

namespace Transducer

variable {σ τ ι ο π : Type} (m : Transducer σ ι ο) (n : Transducer τ ο π)

def next (s : σ) (i : ι) : σ := (m.step s i).1

/-- Everything that is written for an input, with its end. -/
def output : σ → List ι → Option (List ο)
  | s, [] => m.finish s
  | s, i :: is => (output (m.step s i).1 is).map ((m.step s i).2 ++ ·)

/-- The state behind an input that goes on, and what is written so far. -/
def feed : σ → List ι → σ × List ο
  | s, [] => (s, [])
  | s, i :: is =>
    ((feed (m.step s i).1 is).1, (m.step s i).2 ++ (feed (m.step s i).1 is).2)

@[simp] theorem output_nil (s : σ) : m.output s [] = m.finish s := rfl

@[simp] theorem feed_nil (s : σ) : m.feed s [] = (s, []) := rfl

theorem output_cons (s : σ) (i : ι) (is : List ι) :
    m.output s (i :: is) = (m.output (m.step s i).1 is).map ((m.step s i).2 ++ ·) := rfl

variable {m} in
theorem next_of_step {s s' : σ} {i : ι} {written : List ο} (h : m.step s i = (s', written)) :
    m.next s i = s' := by
  rw [next, h]

variable {m} in
theorem output_of_silent {s s' : σ} {i : ι} (h : m.step s i = (s', [])) (is : List ι) :
    m.output s (i :: is) = m.output s' is := by
  rw [output_cons, h]
  simp

theorem feed_cons (s : σ) (i : ι) (is : List ι) :
    m.feed s (i :: is) =
      ((m.feed (m.step s i).1 is).1, (m.step s i).2 ++ (m.feed (m.step s i).1 is).2) := rfl

theorem output_append (s : σ) (is js : List ι) :
    m.output s (is ++ js) = (m.output (m.feed s is).1 js).map ((m.feed s is).2 ++ ·) := by
  induction is generalizing s with
  | nil => simp
  | cons i is ih =>
    rw [List.cons_append, output_cons, ih, feed_cons, Option.map_map]
    congr 1
    funext ts
    simp

/-- The second machine reads what the first one writes. -/
def andThen : Transducer (σ × τ) ι π where
  step p i := (((m.step p.1 i).1, (n.feed p.2 (m.step p.1 i).2).1),
    (n.feed p.2 (m.step p.1 i).2).2)
  finish p := (m.finish p.1).bind (n.output p.2)

theorem output_andThen (s : σ) (t : τ) (is : List ι) :
    (m.andThen n).output (s, t) is = (m.output s is).bind (n.output t) := by
  induction is generalizing s t with
  | nil => rfl
  | cons i is ih =>
    rw [output_cons, output_cons, Option.bind_map]
    show ((m.andThen n).output ((m.step s i).1, (n.feed t (m.step s i).2).1) is).map _ = _
    rw [ih]
    cases m.output (m.step s i).1 is with
    | none => rfl
    | some written => exact (n.output_append t (m.step s i).2 written).symm

variable {m} {k : Transducer τ ι ο} {R : σ → τ → Prop} {P Q : σ → ι → Prop}

/-- Two machines that write the same in step, along the inputs that keep
them together. -/
theorem output_eq_of_simulation
    (hstep : ∀ s t i, R s t → P s i →
      (k.step t i).2 = (m.step s i).2 ∧ R (m.step s i).1 (k.step t i).1)
    (hfinish : ∀ s t, R s t → k.finish t = m.finish s) {s : σ} {t : τ} (h : R s t)
    {is : List ι} (hP : Along m.next P s is) : k.output t is = m.output s is := by
  induction is generalizing s t with
  | nil => exact hfinish s t h
  | cons i is ih =>
    obtain ⟨hwritten, hnext⟩ := hstep s t i h hP.1
    rw [output_cons, output_cons, hwritten, ih hnext hP.2]

/-- When every step without `P` makes the outputs differ, they are the same
exactly along `P`. -/
theorem output_eq_iff_along
    (hstep : ∀ s t i, R s t → P s i →
      (k.step t i).2 = (m.step s i).2 ∧ R (m.step s i).1 (k.step t i).1)
    (hfinish : ∀ s t, R s t → k.finish t = m.finish s)
    (hleave : ∀ s t i is ts, R s t → ¬ P s i → Along m.next Q s (i :: is) →
      m.output s (i :: is) = some ts → k.output t (i :: is) ≠ some ts)
    {s : σ} {t : τ} (h : R s t) {is : List ι} {ts : List ο} (hQ : Along m.next Q s is)
    (hts : m.output s is = some ts) : k.output t is = some ts ↔ Along m.next P s is := by
  constructor
  · intro hout
    induction is generalizing s t ts with
    | nil => trivial
    | cons i is ih =>
      by_cases hP : P s i
      · obtain ⟨hwritten, hnext⟩ := hstep s t i h hP
        rw [output_cons] at hts hout
        obtain ⟨us, hus, rfl⟩ := Option.map_eq_some_iff.mp hts
        obtain ⟨vs, hvs, hsame⟩ := Option.map_eq_some_iff.mp hout
        rw [hwritten] at hsame
        obtain rfl := List.append_cancel_left hsame
        exact ⟨hP, ih hnext hQ.2 hus hvs⟩
      · exact absurd hout (hleave s t i is ts h hP hQ hts)
  · intro hP
    exact (output_eq_of_simulation hstep hfinish h hP).trans hts

end Transducer

end MyDuck
