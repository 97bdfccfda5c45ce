/-
MyDuck.Base.Strings — searching and trimming lists of symbols.

`trimPrefix`, `lastIndex` and `List.splitOn` are the operations
hand-written parsers use. The lemmas say how they act on a text that was
put together from parts: a leading part is trimmed, and a part whose
first symbol does not come again is found where it stands. `bind_eq_ok`
takes a parser that stops at its first error apart.
-/
import Mathlib

namespace MyDuck.Strings

def singleQuote : Char := Char.ofNat 0x27

def doubleQuote : Char := Char.ofNat 0x22

def backtick : Char := Char.ofNat 0x60

def backslash : Char := Char.ofNat 0x5C

def lineFeed : Char := Char.ofNat 10

/-- Peeling a sequence of fallible steps. -/
theorem bind_eq_ok {ε β γ : Type} {x : Except ε β} {f : β → Except ε γ} {c : γ} :
    (x >>= f) = .ok c ↔ ∃ b, x = .ok b ∧ f b = .ok c := by
  cases x <;> simp [bind, Except.bind]

variable {α : Type} [DecidableEq α]

/-- The text behind a leading `p`, or the whole text. -/
def trimPrefix (s p : List α) : List α := if p.isPrefixOf s then s.drop p.length else s

@[simp] theorem trimPrefix_append (p s : List α) : trimPrefix (p ++ s) p = s := by
  simp [trimPrefix]

/-- The position of the last occurrence of a text. -/
def lastIndex (needle : List α) : List α → Option Nat
  | [] => if needle = [] then some 0 else none
  | x :: xs =>
    match lastIndex needle xs with
    | some i => some (i + 1)
    | none => if needle.isPrefixOf (x :: xs) then some 0 else none

theorem lastIndex_eq_none {c : α} {needle s : List α} (h : c ∉ s) :
    lastIndex (c :: needle) s = none := by
  induction s with
  | nil => rfl
  | cons x xs ih =>
    have hx : c ≠ x := fun hcx => h (hcx ▸ List.mem_cons_self)
    have hxs : c ∉ xs := fun hc => h (List.mem_cons_of_mem x hc)
    simp [lastIndex, ih hxs, hx]

/-- A text is found where it stands when its first symbol does not come
again. -/
theorem lastIndex_append {c : α} {needle post : List α} (hn : c ∉ needle) (hp : c ∉ post)
    (pre : List α) :
    lastIndex (c :: needle) (pre ++ c :: (needle ++ post)) = some pre.length := by
  induction pre with
  | nil =>
    have hnone : lastIndex (c :: needle) (needle ++ post) = none :=
      lastIndex_eq_none (by simp [hn, hp])
    simp [lastIndex, hnone]
  | cons x pre ih => simp [lastIndex, ih]

/-- The parts of two texts with a separator between them. -/
theorem splitOn_append_cons (sep : α) (a b : List α) :
    (a ++ sep :: b).splitOn sep = a.splitOn sep ++ b.splitOn sep := by
  induction a with
  | nil => simp [List.splitOn_cons_eq_if_modifyHead]
  | cons x a ih =>
    rw [List.cons_append, List.splitOn_cons_eq_if_modifyHead, List.splitOn_cons_eq_if_modifyHead,
      ih]
    split
    · rfl
    · obtain ⟨p, ps, hps⟩ := List.exists_cons_of_ne_nil (List.splitOn_ne_nil sep a)
      rw [hps]
      rfl

/-- The parts between the separators hold none. -/
theorem not_mem_of_mem_splitOn {sep : α} {s part : List α} (h : part ∈ s.splitOn sep) :
    sep ∉ part := by
  induction s generalizing part with
  | nil =>
    obtain rfl : part = [] := by simpa using h
    exact List.not_mem_nil
  | cons x xs ih =>
    rw [List.splitOn_cons_eq_if_modifyHead] at h
    split at h
    · rcases List.mem_cons.mp h with rfl | h
      · exact List.not_mem_nil
      · exact ih h
    · rename_i hx
      obtain ⟨p, ps, hps⟩ := List.exists_cons_of_ne_nil (List.splitOn_ne_nil sep xs)
      rw [hps, List.modifyHead_cons] at h
      rcases List.mem_cons.mp h with rfl | h
      · have hp : sep ∉ p := ih (hps ▸ List.mem_cons_self)
        have hne : sep ≠ x := fun heq => hx (by simp [heq])
        simp [hp, hne]
      · exact ih (hps ▸ List.mem_cons_of_mem p h)

omit [DecidableEq α] in
/-- The last part of a joined text stands behind its last separator. -/
theorem intercalate_append_singleton (sep : α) {parts : List (List α)} (h : parts ≠ [])
    (last : List α) :
    [sep].intercalate (parts ++ [last]) = [sep].intercalate parts ++ sep :: last := by
  induction parts with
  | nil => exact absurd rfl h
  | cons p ps ih =>
    cases ps with
    | nil => simp [List.intercalate_cons_cons]
    | cons q qs =>
      have hrest := ih (List.cons_ne_nil q qs)
      simp only [List.cons_append, List.intercalate_cons_cons] at hrest ⊢
      rw [hrest]
      simp

/-! ## Cutting at a text -/

/-- The text in front of the first occurrence of a separator, and the text
behind it. -/
def cut (sep : List α) : List α → Option (List α × List α)
  | [] => if sep = [] then some ([], []) else none
  | x :: xs =>
    if sep.isPrefixOf (x :: xs) then some ([], (x :: xs).drop sep.length)
    else (cut sep xs).map fun parts => (x :: parts.1, parts.2)

/-- The texts between the occurrences of a separator; `fuel` is the most
occurrences there can be. -/
def splitAt (sep : List α) : Nat → List α → List (List α)
  | 0, s => [s]
  | fuel + 1, s =>
    match cut sep s with
    | none => [s]
    | some (front, rest) => front :: splitAt sep fuel rest

theorem cut_eq_none_iff {sep : List α} (hsep : sep ≠ []) {s : List α} :
    cut sep s = none ↔ ¬ sep <:+: s := by
  induction s with
  | nil => simp [cut, hsep]
  | cons x xs ih =>
    rw [cut, List.infix_cons_iff]
    split_ifs with hprefix
    · simp [List.isPrefixOf_iff_prefix.mp hprefix]
    · rw [List.isPrefixOf_iff_prefix] at hprefix
      simp [ih, hprefix]

theorem cut_text {sep s front rest : List α} (h : cut sep s = some (front, rest)) :
    s = front ++ (sep ++ rest) := by
  induction s generalizing front with
  | nil =>
    rw [cut] at h
    split_ifs at h with hsep
    obtain ⟨rfl, rfl⟩ := Prod.mk.inj (Option.some.inj h)
    simp [hsep]
  | cons x xs ih =>
    rw [cut] at h
    split_ifs at h with hprefix
    · obtain ⟨rfl, rfl⟩ := Prod.mk.inj (Option.some.inj h)
      obtain ⟨rest, hrest⟩ := List.isPrefixOf_iff_prefix.mp hprefix
      rw [← hrest, List.drop_left, List.nil_append]
    · obtain ⟨⟨front', rest'⟩, hcut, hparts⟩ := Option.map_eq_some_iff.mp h
      obtain ⟨rfl, rfl⟩ := Prod.mk.inj hparts
      rw [ih hcut]
      rfl

/-- **The first occurrence** of a separator is where it was put, unless
one begins in front of it, which may go over its beginning. -/
theorem cut_append_iff {sep : List α} (hsep : sep ≠ []) (front rest : List α) :
    cut sep (front ++ (sep ++ rest)) = some (front, rest) ↔
      ¬ sep <:+: front ++ sep.dropLast := by
  have hlength : sep.dropLast.length + 1 = sep.length := by
    have hpos := List.length_pos_of_ne_nil hsep
    rw [List.length_dropLast]
    omega
  induction front with
  | nil =>
    obtain ⟨c, cs, rfl⟩ := List.exists_cons_of_ne_nil hsep
    have hnot : ¬ (c :: cs) <:+: (c :: cs).dropLast := fun h => by
      have hle := h.length_le
      omega
    have hself : (c :: cs).isPrefixOf (c :: (cs ++ rest)) = true :=
      List.isPrefixOf_iff_prefix.mpr ⟨rest, rfl⟩
    simp [cut, hself, hnot]
  | cons x front ih =>
    -- an occurrence at the beginning does not reach the last symbol of the separator
    have hwhole : x :: (front ++ sep.dropLast) <+: x :: (front ++ (sep ++ rest)) := by
      have hsplit : sep.dropLast ++ (sep.getLast hsep :: rest) = sep ++ rest := by
        rw [← List.singleton_append, ← List.append_assoc, List.dropLast_append_getLast hsep]
      exact ⟨sep.getLast hsep :: rest, by rw [← hsplit]; simp⟩
    have hprefix : sep <+: x :: (front ++ (sep ++ rest)) ↔
        sep <+: x :: (front ++ sep.dropLast) := by
      refine ⟨fun h => List.prefix_of_prefix_length_le h hwhole ?_, fun h => h.trans hwhole⟩
      simp only [List.length_cons, List.length_append]
      omega
    rw [List.cons_append, List.cons_append, cut, List.infix_cons_iff, ← hprefix]
    split_ifs with hhere
    · simp [List.isPrefixOf_iff_prefix.mp hhere]
    · rw [List.isPrefixOf_iff_prefix] at hhere
      simp only [hhere, false_or, ← ih, Option.map_eq_some_iff]
      constructor
      · rintro ⟨parts, hcut, hparts⟩
        obtain ⟨hfront, rfl⟩ := Prod.mk.inj hparts
        obtain ⟨-, rfl⟩ := List.cons.inj hfront
        exact hcut
      · intro hcut
        exact ⟨(front, rest), hcut, rfl⟩

theorem splitAt_ne_nil (sep : List α) (fuel : Nat) (s : List α) : splitAt sep fuel s ≠ [] := by
  cases fuel with
  | zero => simp [splitAt]
  | succ fuel =>
    rw [splitAt]
    split <;> simp

theorem splitAt_eq_singleton_iff {sep : List α} (hsep : sep ≠ []) {fuel : Nat} {s part : List α}
    (hfuel : s.length ≤ fuel) :
    splitAt sep fuel s = [part] ↔ s = part ∧ cut sep s = none := by
  cases fuel with
  | zero =>
    obtain rfl : s = [] := List.eq_nil_of_length_eq_zero (by omega)
    simp [splitAt, cut, hsep]
  | succ fuel =>
    rw [splitAt]
    cases hcut : cut sep s with
    | none => simp
    | some parts => simpa using fun _ => splitAt_ne_nil sep fuel parts.2

theorem splitAt_eq_pair_iff {sep : List α} (hsep : sep ≠ []) {fuel : Nat} {s front rest : List α}
    (hfuel : s.length ≤ fuel) :
    splitAt sep fuel s = [front, rest] ↔
      cut sep s = some (front, rest) ∧ cut sep rest = none := by
  cases fuel with
  | zero =>
    obtain rfl : s = [] := List.eq_nil_of_length_eq_zero (by omega)
    simp [splitAt, cut, hsep]
  | succ fuel =>
    rw [splitAt]
    cases hcut : cut sep s with
    | none => simp
    | some parts =>
      obtain ⟨front', rest'⟩ := parts
      have hlength : rest'.length ≤ fuel := by
        have htext := congrArg List.length (cut_text hcut)
        have hpos := List.length_pos_of_ne_nil hsep
        simp only [List.length_append] at htext
        omega
      simp only [List.cons.injEq, splitAt_eq_singleton_iff hsep hlength, Option.some.injEq,
        Prod.mk.injEq, and_assoc]
      constructor
      · rintro ⟨rfl, rfl, hnone⟩
        exact ⟨rfl, rfl, hnone⟩
      · rintro ⟨rfl, rfl, hnone⟩
        exact ⟨rfl, rfl, hnone⟩

end MyDuck.Strings
