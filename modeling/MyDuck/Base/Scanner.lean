/-
MyDuck.Base.Scanner — a list read piece by piece.

A scanner says which piece a list begins with and what is left behind it,
or fails; `scan` is the loop around it. The loop is by fuel, and a piece
is never empty, so that the length of the list is enough (`scan_cons`).
`scan_induction` is the induction over the rounds of the loop.
-/
import Mathlib

namespace MyDuck

structure Scanner (α β : Type) where
  /-- The first piece of a list that is not empty, and the rest. -/
  next : α → List α → Option (β × List α)
  shorter : ∀ {a as b rest}, next a as = some (b, rest) → rest.length ≤ as.length

namespace Scanner

variable {α β : Type} (m : Scanner α β)

def scanFrom : ℕ → List α → Option (List β)
  | _, [] => some []
  | 0, _ :: _ => none
  | n + 1, a :: as => (m.next a as).bind fun r => (scanFrom n r.2).map (r.1 :: ·)

def scan (as : List α) : Option (List β) := m.scanFrom as.length as

/-- The rounds of the loop. -/
theorem scan_induction {motive : List α → Prop} (nil : motive [])
    (cons : ∀ a as, (∀ b rest, m.next a as = some (b, rest) → motive rest) → motive (a :: as))
    (as : List α) : motive as := by
  induction hn : as.length using Nat.strong_induction_on generalizing as with
  | _ n ih =>
    cases as with
    | nil => exact nil
    | cons a as =>
      refine cons a as fun b rest hnext => ih rest.length ?_ rest rfl
      have := m.shorter hnext
      simp only [List.length_cons] at hn
      omega

theorem scanFrom_eq_scan {n : ℕ} {as : List α} (h : as.length ≤ n) :
    m.scanFrom n as = m.scan as := by
  induction as using m.scan_induction generalizing n with
  | nil => cases n <;> rfl
  | cons a as ih =>
    obtain ⟨n, rfl⟩ : ∃ k, n = k + 1 := ⟨n - 1, by simp at h; omega⟩
    simp only [List.length_cons, Nat.add_le_add_iff_right] at h
    simp only [scan, scanFrom, List.length_cons]
    cases hnext : m.next a as with
    | none => rfl
    | some r =>
      have hshort := m.shorter (show m.next a as = some (r.1, r.2) from hnext)
      show (m.scanFrom n r.2).map _ = (m.scanFrom as.length r.2).map _
      rw [ih r.1 r.2 hnext (hshort.trans h), ih r.1 r.2 hnext hshort]

@[simp] theorem scan_nil : m.scan [] = some [] := rfl

theorem scan_cons (a : α) (as : List α) :
    m.scan (a :: as) = (m.next a as).bind fun r => (m.scan r.2).map (r.1 :: ·) := by
  simp only [scan, scanFrom, List.length_cons]
  cases hnext : m.next a as with
  | none => rfl
  | some r =>
    have hshort := m.shorter (show m.next a as = some (r.1, r.2) from hnext)
    show (m.scanFrom as.length r.2).map _ = (m.scan r.2).map _
    rw [m.scanFrom_eq_scan hshort]

/-! ## Scanners that never fail -/

section Total

variable (f : α → List α → β × List α) (hf : ∀ a as, (f a as).2.length ≤ as.length)

include hf in
theorem total_shorter {a : α} {as : List α} {b : β} {rest : List α}
    (h : some (f a as) = some (b, rest)) : rest.length ≤ as.length := by
  have := hf a as
  rwa [Option.some.inj h] at this

def total : Scanner α β where
  next a as := some (f a as)
  shorter := total_shorter f hf

def scanAll (as : List α) : List β := ((total f hf).scan as).getD []

@[simp] theorem scanAll_nil : scanAll f hf [] = [] := rfl

theorem scan_total (as : List α) : (total f hf).scan as = some (scanAll f hf as) := by
  induction as using (total f hf).scan_induction with
  | nil => rfl
  | cons a as ih =>
    rw [scanAll, scan_cons]
    show ((total f hf).scan (f a as).2).map _ =
      some (((total f hf).scan (f a as).2).map _ |>.getD [])
    rw [ih (f a as).1 (f a as).2 rfl]
    rfl

theorem scanAll_cons (a : α) (as : List α) :
    scanAll f hf (a :: as) = (f a as).1 :: scanAll f hf (f a as).2 := by
  have h := scan_total f hf (a :: as)
  rw [scan_cons] at h
  have hrest : ((total f hf).scan (f a as).2).map ((f a as).1 :: ·) =
      some (scanAll f hf (a :: as)) := h
  rw [scan_total] at hrest
  exact (Option.some.inj hrest).symm

end Total

end Scanner

end MyDuck
