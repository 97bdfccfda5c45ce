/-
MyDuck.Base.GoText — functions of Go's `strings` and `strconv` on texts
of characters: the white space that `TrimSpace` takes away at both ends,
and decimal numbers as `Atoi` reads them.
-/
import Mathlib

namespace MyDuck.GoText

/-! ## White space -/

/-- `unicode.IsSpace`. -/
def unicodeSpace (c : Char) : Bool :=
  let n := c.toNat
  (0x09 ≤ n && n ≤ 0x0d) || (0x2000 ≤ n && n ≤ 0x200a) ||
    [0x20, 0x85, 0xa0, 0x1680, 0x2028, 0x2029, 0x202f, 0x205f, 0x3000].contains n

/-- `strings.TrimSpace`. -/
def trimSpace (s : List Char) : List Char := (s.dropWhile unicodeSpace).rdropWhile unicodeSpace

/-! ## Decimal numbers -/

def natural (ds : List Char) : Option ℕ :=
  if ds ≠ [] ∧ ∀ c ∈ ds, c.isDigit = true then some (Nat.ofDigitChars 10 ds 0) else none

/-- `strconv.Atoi`, with 64 bits. -/
def atoi : List Char → Option ℤ
  | [] => none
  | c :: cs =>
    if c = '-' then (natural cs).bind fun n => if n ≤ 2 ^ 63 then some (-n) else none
    else if c = '+' then (natural cs).bind fun n => if n < 2 ^ 63 then some n else none
    else (natural (c :: cs)).bind fun n => if n < 2 ^ 63 then some n else none

def showInt (n : ℤ) : List Char :=
  if n < 0 then '-' :: Nat.toDigits 10 n.natAbs else Nat.toDigits 10 n.natAbs

theorem natural_toDigits (n : ℕ) : natural (Nat.toDigits 10 n) = some n := by
  have hdigits : Nat.toDigits 10 n ≠ [] ∧ ∀ c ∈ Nat.toDigits 10 n, c.isDigit = true :=
    ⟨Nat.toDigits_ne_nil, fun c hc => Nat.isDigit_of_mem_toDigits (by decide) (by decide) hc⟩
  rw [natural, if_pos hdigits, Nat.ofDigitChars_toDigits (by decide) (by decide)]

theorem atoi_showInt {n : ℤ} (hlow : -2 ^ 63 ≤ n) (hhigh : n < 2 ^ 63) :
    atoi (showInt n) = some n := by
  unfold showInt
  split_ifs with hneg
  · have hle : n.natAbs ≤ 2 ^ 63 := by omega
    simp only [atoi, if_pos, natural_toDigits, Option.bind_some, hle]
    congr 1
    omega
  · obtain ⟨c, cs, hc⟩ := List.exists_cons_of_ne_nil (Nat.toDigits_ne_nil (n := n.natAbs) (b := 10))
    have hdigit : c.isDigit = true :=
      Nat.isDigit_of_mem_toDigits (b := 10) (n := n.natAbs) (by decide) (by decide) (by simp [hc])
    have hsign : c ≠ '-' ∧ c ≠ '+' := by
      constructor <;> (rintro rfl; revert hdigit; decide)
    have hlt : n.natAbs < 2 ^ 63 := by omega
    rw [hc, atoi, if_neg hsign.1, if_neg hsign.2, ← hc, natural_toDigits, Option.bind_some,
      if_pos hlt]
    congr 1
    omega

end MyDuck.GoText
