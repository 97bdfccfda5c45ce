/-
MyDuck.Base.Bytes — numbers as bytes, and byte slices.

`beNat` and `leNat` read a number from bytes, most and least significant
byte first, and `toBE` and `toLE` write one in a fixed number of bytes.

`Slice` is a byte slice of Go. It may be indexed below its length only,
but it may be sliced again up to its capacity. `HasAt` says that given
bytes stand at a place of a slice; the rules take such bytes apart and say
what the two ways of reading them give.
-/
import Mathlib

namespace MyDuck

/-! ## Numbers -/

/-- The number whose bytes are given, most significant byte first. -/
def beNat (bytes : List UInt8) : Nat := bytes.foldl (fun n b => n * 256 + b.toNat) 0

/-- The number whose bytes are given, least significant byte first. -/
def leNat : List UInt8 → Nat
  | [] => 0
  | b :: bs => b.toNat + 256 * leNat bs

/-- The last `k` bytes of a number, most significant byte first. -/
def toBE : Nat → Nat → List UInt8
  | 0, _ => []
  | k + 1, n => toBE k (n / 256) ++ [UInt8.ofNat n]

/-- The last `k` bytes of a number, least significant byte first. -/
def toLE : Nat → Nat → List UInt8
  | 0, _ => []
  | k + 1, n => UInt8.ofNat n :: toLE k (n / 256)

@[simp] theorem beNat_append_singleton (bs : List UInt8) (b : UInt8) :
    beNat (bs ++ [b]) = beNat bs * 256 + b.toNat := by
  simp [beNat]

@[simp] theorem length_toBE (k n : Nat) : (toBE k n).length = k := by
  induction k generalizing n with
  | zero => rfl
  | succ k ih => simp [toBE, ih]

@[simp] theorem length_toLE (k n : Nat) : (toLE k n).length = k := by
  induction k generalizing n with
  | zero => rfl
  | succ k ih => simp [toLE, ih]

theorem mod_pow_succ (n k : Nat) : n % 256 ^ (k + 1) = n / 256 % 256 ^ k * 256 + n % 256 := by
  rw [pow_succ', Nat.mod_mul]
  ring

theorem beNat_toBE (k n : Nat) : beNat (toBE k n) = n % 256 ^ k := by
  induction k generalizing n with
  | zero => simp [toBE, beNat, Nat.mod_one]
  | succ k ih => rw [toBE, beNat_append_singleton, ih, mod_pow_succ, UInt8.toNat_ofNat']

theorem leNat_toLE (k n : Nat) : leNat (toLE k n) = n % 256 ^ k := by
  induction k generalizing n with
  | zero => simp [toLE, leNat, Nat.mod_one]
  | succ k ih =>
    rw [toLE, leNat, ih, mod_pow_succ, UInt8.toNat_ofNat']
    ring

/-- A number that fits its bytes is read back. -/
theorem beNat_toBE_of_lt {k n : Nat} (h : n < 256 ^ k) : beNat (toBE k n) = n := by
  rw [beNat_toBE, Nat.mod_eq_of_lt h]

theorem leNat_toLE_of_lt {k n : Nat} (h : n < 256 ^ k) : leNat (toLE k n) = n := by
  rw [leNat_toLE, Nat.mod_eq_of_lt h]

/-! ## Slices -/

/-- A byte slice: the bytes up to its capacity, of which the first `len`
may be indexed. -/
structure Slice where
  bytes : List UInt8
  len : Nat
  len_le : len ≤ bytes.length
  deriving DecidableEq, Repr

namespace Slice

/-- A slice that is as long as its capacity. -/
def ofList (bytes : List UInt8) : Slice := ⟨bytes, bytes.length, le_rfl⟩

theorem length_le_append (bytes spare : List UInt8) : bytes.length ≤ (bytes ++ spare).length := by
  simp

/-- A slice of the given bytes, with spare bytes behind them. -/
def withSpare (bytes spare : List UInt8) : Slice :=
  ⟨bytes ++ spare, bytes.length, length_le_append bytes spare⟩

/-- `s[i]`. -/
def index? (s : Slice) (i : Nat) : Option UInt8 := if i < s.len then s.bytes[i]? else none

/-- `s[i], .., s[i+n-1]`, each of them indexed. -/
def read? (s : Slice) (i : Nat) : Nat → Option (List UInt8)
  | 0 => some []
  | n + 1 => do
    let b ← s.index? i
    let bs ← read? s (i + 1) n
    return b :: bs

/-- `s[i:i+n]`, up to the capacity. -/
def slice? (s : Slice) (i n : Nat) : Option (List UInt8) :=
  if i + n ≤ s.bytes.length then some ((s.bytes.drop i).take n) else none

theorem length_drop_of_le {s : Slice} (i : Nat) : s.len - i ≤ (s.bytes.drop i).length := by
  rw [List.length_drop]
  exact Nat.sub_le_sub_right s.len_le i

theorem length_drop_of_add_le {s : Slice} {i n : Nat} (h : i + n ≤ s.bytes.length) :
    n ≤ (s.bytes.drop i).length := by
  rw [List.length_drop]
  omega

/-- `s[i:]`. -/
def tail? (s : Slice) (i : Nat) : Option Slice :=
  if i ≤ s.len then some ⟨s.bytes.drop i, s.len - i, length_drop_of_le i⟩ else none

/-- `s[i:i+n]` as a slice, which keeps the capacity behind it. -/
def reslice? (s : Slice) (i n : Nat) : Option Slice :=
  if h : i + n ≤ s.bytes.length then some ⟨s.bytes.drop i, n, length_drop_of_add_le h⟩ else none

/-- The bytes stand at place `i`, inside the length. -/
def HasAt (s : Slice) (i : Nat) (bytes : List UInt8) : Prop :=
  i + bytes.length ≤ s.len ∧ bytes <+: s.bytes.drop i

/-- The bytes are all that stands from place `i` on. -/
def TailAt (s : Slice) (i : Nat) (bytes : List UInt8) : Prop :=
  s.HasAt i bytes ∧ s.len = i + bytes.length

/-! What slicing gives of bytes that were put together from parts. -/

theorem tail?_withSpare (pre rest spare : List UInt8) :
    (withSpare (pre ++ rest) spare).tail? pre.length = some (withSpare rest spare) := by
  simp [tail?, withSpare]

theorem slice?_withSpare (pre mid post spare : List UInt8) :
    (withSpare (pre ++ (mid ++ post)) spare).slice? pre.length mid.length = some mid := by
  simp [slice?, withSpare]

theorem reslice?_withSpare (pre mid post spare : List UInt8) :
    (withSpare (pre ++ (mid ++ post)) spare).reslice? pre.length mid.length
      = some (withSpare mid (post ++ spare)) := by
  have hle : pre.length + mid.length ≤ (withSpare (pre ++ (mid ++ post)) spare).bytes.length := by
    simp only [withSpare, List.length_append]
    omega
  rw [reslice?, dif_pos hle]
  simp [withSpare]

theorem hasAt_ofList (bytes : List UInt8) : (ofList bytes).HasAt 0 bytes :=
  ⟨by simp [ofList], by simp [ofList]⟩

variable {s : Slice} {i : Nat} {as bs : List UInt8}

theorem HasAt.left (h : s.HasAt i (as ++ bs)) : s.HasAt i as :=
  ⟨by have := h.1; rw [List.length_append] at this; omega, (List.prefix_append as bs).trans h.2⟩

theorem HasAt.right (h : s.HasAt i (as ++ bs)) : s.HasAt (i + as.length) bs := by
  obtain ⟨hlen, rest, hrest⟩ := h
  refine ⟨by rw [List.length_append] at hlen; omega, rest, ?_⟩
  rw [← List.drop_drop, ← hrest, List.append_assoc, List.drop_left]

theorem HasAt.slice? (h : s.HasAt i bs) : s.slice? i bs.length = some bs := by
  obtain ⟨hlen, rest, hrest⟩ := h
  rw [Slice.slice?, if_pos (hlen.trans s.len_le), ← hrest, List.take_left]

theorem HasAt.index? {b : UInt8} (h : s.HasAt i (b :: bs)) : s.index? i = some b := by
  obtain ⟨hlen, rest, hrest⟩ := h
  rw [List.length_cons] at hlen
  have hget : (s.bytes.drop i)[0]? = some b := by rw [← hrest]; rfl
  rw [Slice.index?, if_pos (by omega)]
  simpa using hget

theorem HasAt.read? (h : s.HasAt i bs) : s.read? i bs.length = some bs := by
  induction bs generalizing i with
  | nil => rfl
  | cons b bs ih =>
    have htail : s.HasAt (i + 1) bs := by
      rw [← List.singleton_append] at h
      exact h.right
    rw [List.length_cons, Slice.read?, h.index?, ih htail]
    rfl

theorem tailAt_withSpare (bytes spare : List UInt8) : (withSpare bytes spare).TailAt 0 bytes :=
  ⟨⟨by simp [withSpare], by simp [withSpare]⟩, by simp [withSpare]⟩

theorem TailAt.lt_len {b : UInt8} (h : s.TailAt i (b :: bs)) : i < s.len := by
  rw [h.2, List.length_cons]
  omega

theorem TailAt.right (h : s.TailAt i (as ++ bs)) : s.TailAt (i + as.length) bs :=
  ⟨h.1.right, by rw [h.2, List.length_append, Nat.add_assoc]⟩

theorem TailAt.tail {b : UInt8} (h : s.TailAt i (b :: bs)) : s.TailAt (i + 1) bs := by
  rw [← List.singleton_append] at h
  exact h.right

end Slice

end MyDuck
