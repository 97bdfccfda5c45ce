/-
MyDuck.Base.Like — the patterns of SQL's LIKE over any alphabet.

A pattern is a text in which two symbols are wildcards: `one` stands for
any one symbol and `any` for any sequence. There is no way to escape them.
A text matches itself as a pattern, and nothing else if it has no wildcard.
-/
import Mathlib

namespace MyDuck.Like

variable {α : Type} [DecidableEq α] (one any : α)

def like : List α → List α → Bool
  | [], text => text.isEmpty
  | p :: ps, text =>
    if p = any then text.tails.any (like ps)
    else match text with
      | [] => false
      | c :: text => (decide (p = one) || decide (p = c)) && like ps text

variable {one any}

theorem like_any {ps text : List α} :
    like one any (any :: ps) text = true ↔ ∃ rest, rest <:+ text ∧ like one any ps rest = true := by
  simp [like]

theorem like_cons {p : α} (hp : p ≠ any) {ps text : List α} {c : α} :
    like one any (p :: ps) (c :: text) = true ↔
      (p = one ∨ p = c) ∧ like one any ps text = true := by
  simp [like, hp]

/-- What stands in front of a pattern and a text that matches it. -/
theorem like_append_left {pattern text : List α} (h : like one any pattern text = true)
    (pre : List α) : like one any (pre ++ pattern) (pre ++ text) = true := by
  induction pre with
  | nil => exact h
  | cons c pre ih =>
    by_cases hc : c = any
    · subst hc
      exact like_any.mpr ⟨pre ++ text, List.suffix_cons _ _, ih⟩
    · exact (like_cons hc).mpr ⟨.inr rfl, ih⟩

/-- **A text matches itself.** -/
theorem like_self (text : List α) : like one any text text = true := by
  have h := like_append_left (rfl : like one any [] [] = true) text
  rwa [List.append_nil] at h

/-- **A pattern without wildcards** matches itself only. -/
theorem like_literal {pattern : List α} (hone : one ∉ pattern) (hany : any ∉ pattern)
    (text : List α) : like one any pattern text = true ↔ text = pattern := by
  induction pattern generalizing text with
  | nil => simp [like]
  | cons p ps ih =>
    rw [List.mem_cons, not_or] at hone hany
    cases text with
    | nil => simp [like, Ne.symm hany.1]
    | cons c text =>
      rw [like_cons (Ne.symm hany.1), ih hone.2 hany.2]
      simp [Ne.symm hone.1, eq_comm]

end MyDuck.Like
