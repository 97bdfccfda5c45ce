/-
MyDuck.Base.Base64 — the standard base64 encoding of octet strings.

`encode` writes three octets as four digits and pads the last group;
`decode` is its partial inverse. The one theorem the rest of the
development rests on is `decode_encode`: what was encoded can be read
back. Injectivity (`encode_injective`) and the shape of the text
(`encode_ne_nil`, `not_mem_encode`) follow.

The digits are numbers below 64 until they are printed, so the round
trip of a group is linear arithmetic on the 24 bits it carries.
-/
import Mathlib

namespace MyDuck.Base64

/-! ## Digits -/

def pad : UInt8 := 61

/-- The character of a digit below 64. -/
def digit (n : Nat) : UInt8 :=
  if n < 26 then UInt8.ofNat (n + 65)
  else if n < 52 then UInt8.ofNat (n + 71)
  else if n < 62 then UInt8.ofNat (n - 4)
  else if n = 62 then 43
  else 47

/-- The digit of a character, when it is one of the alphabet. -/
def value? (c : UInt8) : Option Nat :=
  if 65 ≤ c ∧ c ≤ 90 then some (c.toNat - 65)
  else if 97 ≤ c ∧ c ≤ 122 then some (c.toNat - 71)
  else if 48 ≤ c ∧ c ≤ 57 then some (c.toNat + 4)
  else if c = 43 then some 62
  else if c = 47 then some 63
  else none

theorem value?_digit {n : Nat} (h : n < 64) : value? (digit n) = some n := by
  have hall : ∀ k : Fin 64, value? (digit k) = some k.val := by decide
  exact hall ⟨n, h⟩

theorem digit_ne_pad {n : Nat} (h : n < 64) : digit n ≠ pad := by
  have hall : ∀ k : Fin 64, digit k ≠ pad := by decide
  exact hall ⟨n, h⟩

/-! ## Encoding -/

/-- Four digits, the high one first. -/
structure Digits where
  w : Nat
  x : Nat
  y : Nat
  z : Nat

def digits (v : Nat) : Digits := ⟨v / 262144, v / 4096 % 64, v / 64 % 64, v % 64⟩

/-- Three octets as 24 bits. -/
def word (a b c : UInt8) : Nat := a.toNat * 65536 + b.toNat * 256 + c.toNat

def encode : List UInt8 → List UInt8
  | [] => []
  | [a] =>
    let d := digits (word a 0 0)
    [digit d.w, digit d.x, pad, pad]
  | [a, b] =>
    let d := digits (word a b 0)
    [digit d.w, digit d.x, digit d.y, pad]
  | a :: b :: c :: rest =>
    let d := digits (word a b c)
    digit d.w :: digit d.x :: digit d.y :: digit d.z :: encode rest

/-! ## Decoding -/

def octets (v : Nat) : UInt8 × UInt8 × UInt8 :=
  (UInt8.ofNat (v / 65536), UInt8.ofNat (v / 256), UInt8.ofNat v)

/-- The 24 bits of four digits. -/
def undigits (w x y z : Nat) : Nat := w * 262144 + x * 4096 + y * 64 + z

/-- Groups of four; padding only at the end. The bits a short last group
has too many are ignored. -/
def decodeGroups : List UInt8 → Option (List UInt8)
  | [] => some []
  | w :: x :: y :: z :: rest =>
    if z = pad then
      if rest ≠ [] then none
      else if y = pad then do
        let w ← value? w
        let x ← value? x
        return [(octets (undigits w x 0 0)).1]
      else do
        let w ← value? w
        let x ← value? x
        let y ← value? y
        let (a, b, _) := octets (undigits w x y 0)
        return [a, b]
    else do
      let w ← value? w
      let x ← value? x
      let y ← value? y
      let z ← value? z
      let (a, b, c) := octets (undigits w x y z)
      let rest ← decodeGroups rest
      return a :: b :: c :: rest
  | _ => none

/-- Line breaks are skipped. -/
def decode (s : List UInt8) : Option (List UInt8) :=
  decodeGroups (s.filter fun c => c ≠ 10 ∧ c ≠ 13)

/-! ## The round trip -/

theorem word_lt (a b c : UInt8) : word a b c < 16777216 := by
  have ha := a.toNat_lt
  have hb := b.toNat_lt
  have hc := c.toNat_lt
  unfold word
  omega

theorem digits_lt {v : Nat} (h : v < 16777216) :
    (digits v).w < 64 ∧ (digits v).x < 64 ∧ (digits v).y < 64 ∧ (digits v).z < 64 := by
  refine ⟨?_, Nat.mod_lt _ (by decide), Nat.mod_lt _ (by decide), Nat.mod_lt _ (by decide)⟩
  exact Nat.div_lt_of_lt_mul h

/-- The digits of 24 bits carry them all. -/
theorem undigits_digits (v : Nat) :
    undigits (digits v).w (digits v).x (digits v).y (digits v).z = v := by
  simp only [undigits, digits]
  omega

/-- A low octet that is zero does not need the last digit, and two do not
need the last two. -/
theorem undigits_short (a b : UInt8) :
    undigits (digits (word a b 0)).w (digits (word a b 0)).x (digits (word a b 0)).y 0
        = word a b 0 ∧
      undigits (digits (word a 0 0)).w (digits (word a 0 0)).x 0 0 = word a 0 0 := by
  simp only [undigits, digits, word, UInt8.toNat_zero]
  omega

theorem octets_word (a b c : UInt8) : octets (word a b c) = (a, b, c) := by
  have hb := b.toNat_lt
  have hc := c.toNat_lt
  have h1 : word a b c / 65536 = a.toNat := by unfold word; omega
  have h2 : word a b c / 256 = b.toNat + 256 * a.toNat := by unfold word; omega
  have h3 : word a b c = c.toNat + 256 * (b.toNat + 256 * a.toNat) := by unfold word; omega
  have hlow : ∀ (o : UInt8) (k : Nat), UInt8.ofNat (o.toNat + 256 * k) = o := by
    intro o k
    apply UInt8.toNat_inj.mp
    rw [UInt8.toNat_ofNat']
    have ho := o.toNat_lt
    omega
  simp only [octets, h1, h2]
  rw [h3, hlow, hlow, UInt8.ofNat_toNat]

theorem decodeGroups_encode (s : List UInt8) : decodeGroups (encode s) = some s := by
  induction s using encode.induct with
  | case1 => rfl
  | case2 a =>
    obtain ⟨hw, hx, -, -⟩ := digits_lt (word_lt a 0 0)
    simp [encode, decodeGroups, value?_digit hw, value?_digit hx, (undigits_short a 0).2,
      octets_word]
  | case3 a b =>
    obtain ⟨hw, hx, hy, -⟩ := digits_lt (word_lt a b 0)
    simp [encode, decodeGroups, value?_digit hw, value?_digit hx, value?_digit hy,
      digit_ne_pad hy, (undigits_short a b).1, octets_word]
  | case4 a b c rest ih =>
    obtain ⟨hw, hx, hy, hz⟩ := digits_lt (word_lt a b c)
    simp [encode, decodeGroups, value?_digit hw, value?_digit hx, value?_digit hy,
      value?_digit hz, digit_ne_pad hz, undigits_digits, octets_word, ih]

/-! ## The characters of an encoded text -/

/-- A character that is neither a digit nor the padding does not occur. -/
theorem not_mem_encode {c : UInt8} (hv : value? c = none) (hp : c ≠ pad) (s : List UInt8) :
    c ∉ encode s := by
  have hd : ∀ {n : Nat}, n < 64 → c ≠ digit n := by
    rintro n hn rfl
    rw [value?_digit hn] at hv
    cases hv
  induction s using encode.induct with
  | case1 => simp [encode]
  | case2 a =>
    obtain ⟨hw, hx, -, -⟩ := digits_lt (word_lt a 0 0)
    simp [encode, hd hw, hd hx, hp]
  | case3 a b =>
    obtain ⟨hw, hx, hy, -⟩ := digits_lt (word_lt a b 0)
    simp [encode, hd hw, hd hx, hd hy, hp]
  | case4 a b c' rest ih =>
    obtain ⟨hw, hx, hy, hz⟩ := digits_lt (word_lt a b c')
    simp [encode, hd hw, hd hx, hd hy, hd hz, ih]

theorem encode_ne_nil {s : List UInt8} (h : s ≠ []) : encode s ≠ [] := by
  cases s using encode.fun_cases with
  | case1 => exact absurd rfl h
  | case2 a | case3 a b | case4 a b c rest => simp [encode]

/-- **What was encoded can be decoded.** -/
theorem decode_encode (s : List UInt8) : decode (encode s) = some s := by
  have hkeep : (encode s).filter (fun c => c ≠ 10 ∧ c ≠ 13) = encode s := by
    refine List.filter_eq_self.mpr fun c hc => ?_
    have h10 : c ≠ 10 := fun h => not_mem_encode (by decide) (by decide) s (h ▸ hc)
    have h13 : c ≠ 13 := fun h => not_mem_encode (by decide) (by decide) s (h ▸ hc)
    simp [h10, h13]
  rw [decode, hkeep, decodeGroups_encode]

theorem encode_injective : Function.Injective encode := by
  intro s t h
  have hs := decode_encode s
  rw [h, decode_encode] at hs
  exact (Option.some.inj hs).symm

example : encode [77, 97, 110, 77] = [84, 87, 70, 117, 84, 81, 61, 61] := by decide

end MyDuck.Base64
