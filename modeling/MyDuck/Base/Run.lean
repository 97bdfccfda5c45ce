/-
MyDuck.Base.Run — runs of a deterministic state machine.

A run is a fold of the step function over a list of inputs. `Along P`
says that every input of a run met `P` in the state in which it was
handled; a protocol's well-formedness conditions are of this kind,
because what may come next depends on what came before. The one
induction over runs is `Along.invariant`.
-/
import Mathlib

namespace MyDuck

variable {σ ι : Type} (step : σ → ι → σ)

/-- The state after a list of inputs. -/
def run (s : σ) (is : List ι) : σ := is.foldl step s

@[simp] theorem run_nil (s : σ) : run step s [] = s := rfl

@[simp] theorem run_cons (s : σ) (i : ι) (is : List ι) :
    run step s (i :: is) = run step (step s i) is := rfl

theorem run_append (s : σ) (is js : List ι) : run step s (is ++ js) = run step (run step s is) js :=
  List.foldl_append

/-- Every input of the run meets `P` in the state in which it is handled. -/
def Along (P : σ → ι → Prop) : σ → List ι → Prop
  | _, [] => True
  | s, i :: is => P s i ∧ Along P (step s i) is

variable {step}

variable {P Q : σ → ι → Prop} {s : σ} {is : List ι}

/-- An invariant that every step under `P` keeps holds after every run
along `P`. -/
theorem Along.invariant (Inv : σ → Prop) (hstep : ∀ s i, Inv s → P s i → Inv (step s i))
    (h0 : Inv s) (h : Along step P s is) : Inv (run step s is) := by
  induction is generalizing s with
  | nil => exact h0
  | cons i is ih => exact ih (hstep s i h0 h.1) h.2

/-- What an invariant gives at every input holds along the whole run. -/
theorem Along.of_invariant (Inv : σ → Prop) (hstep : ∀ s i, Inv s → P s i → Inv (step s i))
    (hQ : ∀ s i, Inv s → P s i → Q s i) (h0 : Inv s) (h : Along step P s is) :
    Along step Q s is := by
  induction is generalizing s with
  | nil => trivial
  | cons i is ih => exact ⟨hQ s i h0 h.1, ih (hstep s i h0 h.1) h.2⟩

theorem Along.mono (hPQ : ∀ s i, P s i → Q s i) (h : Along step P s is) : Along step Q s is := by
  induction is generalizing s with
  | nil => trivial
  | cons i is ih => exact ⟨hPQ s i h.1, ih h.2⟩

theorem Along.of_forall (h : ∀ s i, P s i) (s : σ) (is : List ι) : Along step P s is := by
  induction is generalizing s with
  | nil => trivial
  | cons i is ih => exact ⟨h s i, ih (step s i)⟩

/-- When a step keeps `Good` exactly under `Q`, every state of a run is
good exactly when the run is along `Q`. -/
theorem Along.good_iff {Inv Good : σ → Prop} (hinv : ∀ s i, Inv s → P s i → Inv (step s i))
    (hgood : ∀ s i, Inv s → Good s → P s i → (Good (step s i) ↔ Q s i)) (h0 : Inv s) (hg : Good s)
    (h : Along step P s is) : (∀ js, js <+: is → Good (run step s js)) ↔ Along step Q s is := by
  induction is generalizing s with
  | nil =>
    refine ⟨fun _ => trivial, fun _ js hjs => ?_⟩
    obtain rfl := List.prefix_nil.mp hjs
    exact hg
  | cons i is ih =>
    have hstep := hgood s i h0 hg h.1
    have hrest := fun hg' => ih (hinv s i h0 h.1) hg' h.2
    constructor
    · intro hall
      have hg' : Good (step s i) := hall [i] ⟨is, rfl⟩
      exact ⟨hstep.mp hg', (hrest hg').mp fun js hjs =>
        hall (i :: js) (List.cons_prefix_cons.mpr ⟨rfl, hjs⟩)⟩
    · rintro ⟨hq, hqs⟩ js hjs
      cases js with
      | nil => exact hg
      | cons j js =>
        obtain ⟨rfl, htail⟩ := List.cons_prefix_cons.mp hjs
        exact (hrest (hstep.mpr hq)).mpr hqs js htail

/-- When a step is good exactly from a good state under `Q`, the end of a
run is good exactly when the run is along `Q`. -/
theorem Along.good_run_iff {Inv Good : σ → Prop} (hinv : ∀ s i, Inv s → P s i → Inv (step s i))
    (hgood : ∀ s i, Inv s → P s i → (Good (step s i) ↔ Good s ∧ Q s i)) (h0 : Inv s)
    (h : Along step P s is) : Good (run step s is) ↔ Good s ∧ Along step Q s is := by
  induction is generalizing s with
  | nil => exact ⟨fun hg => ⟨hg, trivial⟩, fun hg => hg.1⟩
  | cons i is ih =>
    rw [run_cons, ih (hinv s i h0 h.1) h.2, hgood s i h0 h.1, and_assoc]
    rfl

theorem along_append {js : List ι} :
    Along step P s (is ++ js) ↔ Along step P s is ∧ Along step P (run step s is) js := by
  induction is generalizing s with
  | nil => simp [Along]
  | cons i is ih => simp [Along, ih, and_assoc]

instance decidableAlong {P : σ → ι → Prop} [∀ s i, Decidable (P s i)] :
    ∀ s is, Decidable (Along step P s is)
  | _, [] => isTrue trivial
  | s, i :: is =>
    have := decidableAlong (P := P) (step s i) is
    inferInstanceAs (Decidable (P s i ∧ _))

end MyDuck
