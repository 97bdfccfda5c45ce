/-
MyDuck.Base.Utf8 — texts and their bytes in UTF-8.

`encode` writes the characters of a text one after the other and `decode`
reads them back, if the bytes are well formed. A scan of the bytes for
ASCII characters sees those of the text: no byte of another character is
below 0x80, and its first byte is 0xC0 or more.
-/
import Mathlib

namespace MyDuck.Utf8

def encode (text : List Char) : List UInt8 := text.flatMap String.utf8EncodeChar

def decode (bytes : List UInt8) : Option (List Char) :=
  bytes.toByteArray.utf8Decode?.map Array.toList

@[simp] theorem encode_nil : encode [] = [] := rfl

theorem encode_cons (c : Char) (text : List Char) :
    encode (c :: text) = String.utf8EncodeChar c ++ encode text := rfl

@[simp] theorem encode_append (a b : List Char) : encode (a ++ b) = encode a ++ encode b := by
  simp [encode]

theorem decode_encode (text : List Char) : decode (encode text) = some text := by
  have hdecode : (encode text).toByteArray.utf8Decode? = some text.toArray :=
    List.utf8Decode?_utf8Encode
  rw [decode, hdecode]
  simp

/-! ## The bytes of a character -/

def byte (c : Char) : UInt8 := UInt8.ofNat c.toNat

theorem toNat_byte {c : Char} (h : c.toNat < 0x80) : (byte c).toNat = c.toNat := by
  rw [byte, UInt8.toNat_ofNat', Nat.mod_eq_of_lt (by omega)]

theorem byte_inj {c d : Char} (hc : c.toNat < 0x80) (hd : d.toNat < 0x80) :
    byte c = byte d ↔ c = d := by
  constructor
  · intro h
    have hnat := congrArg UInt8.toNat h
    rw [toNat_byte hc, toNat_byte hd] at hnat
    exact Char.toNat_inj.mp hnat
  · rintro rfl
    rfl

theorem utf8EncodeChar_ascii {c : Char} (h : c.toNat < 0x80) :
    String.utf8EncodeChar c = [byte c] := by
  have hle : c.val.toNat ≤ 127 := Nat.le_of_lt_succ h
  rw [String.utf8EncodeChar, if_pos hle]
  rfl

theorem encode_ascii {c : Char} (h : c.toNat < 0x80) (text : List Char) :
    encode (c :: text) = byte c :: encode text := by
  rw [encode_cons, utf8EncodeChar_ascii h]
  rfl

/-- The first byte of a character outside of ASCII, and those behind it. -/
theorem utf8EncodeChar_high {c : Char} (h : 0x80 ≤ c.toNat) :
    ∃ b bs, String.utf8EncodeChar c = b :: bs ∧ 0xC0 ≤ b.toNat ∧ b.toNat < 0xF8 ∧
      ∀ d ∈ bs, 0x80 ≤ d.toNat := by
  have hlt : ¬ c.val.toNat ≤ 127 := by
    have heq : c.val.toNat = c.toNat := rfl
    omega
  have hfirst : ∀ n : Nat, 0xC0 ≤ n → n < 0xF8 →
      0xC0 ≤ (UInt8.ofNat n).toNat ∧ (UInt8.ofNat n).toNat < 0xF8 := fun n hlow hhigh => by
    rw [UInt8.toNat_ofNat', Nat.mod_eq_of_lt (by omega)]
    exact ⟨hlow, hhigh⟩
  have htail : ∀ n : Nat, 0x80 ≤ (UInt8.ofNat (n % 64 + 128)).toNat := fun n => by
    rw [UInt8.toNat_ofNat']
    omega
  rw [String.utf8EncodeChar, if_neg hlt]
  split_ifs
  · obtain ⟨hlow, hhigh⟩ := hfirst (c.val.toNat / 64 % 32 + 192) (by omega) (by omega)
    exact ⟨_, _, rfl, hlow, hhigh, List.forall_mem_singleton.mpr (htail _)⟩
  · obtain ⟨hlow, hhigh⟩ := hfirst (c.val.toNat / 4096 % 16 + 224) (by omega) (by omega)
    exact ⟨_, _, rfl, hlow, hhigh, List.forall_mem_cons.mpr ⟨htail _,
      List.forall_mem_singleton.mpr (htail _)⟩⟩
  · obtain ⟨hlow, hhigh⟩ := hfirst (c.val.toNat / 262144 % 8 + 240) (by omega) (by omega)
    exact ⟨_, _, rfl, hlow, hhigh, List.forall_mem_cons.mpr ⟨htail _, List.forall_mem_cons.mpr
      ⟨htail _, List.forall_mem_singleton.mpr (htail _)⟩⟩⟩

/-- No byte of another character is one of an ASCII character. -/
theorem byte_not_mem_high {a c : Char} (ha : a.toNat < 0x80) (hc : 0x80 ≤ c.toNat) :
    byte a ∉ String.utf8EncodeChar c := by
  obtain ⟨b, bs, heq, hlow, -, htail⟩ := utf8EncodeChar_high hc
  have hbyte := toNat_byte ha
  rw [heq, List.mem_cons, not_or]
  constructor
  · rintro rfl
    omega
  · intro hmem
    have hge := htail _ hmem
    omega

/-- The first byte is that of an ASCII character exactly when the first
character is. -/
theorem head_encode_eq_byte_iff {a : Char} (ha : a.toNat < 0x80) (text : List Char) :
    (encode text).head? = some (byte a) ↔ text.head? = some a := by
  cases text with
  | nil => simp
  | cons c text =>
    by_cases hc : c.toNat < 0x80
    · simp [encode_ascii hc, byte_inj hc ha]
    · obtain ⟨b, bs, heq, -⟩ := utf8EncodeChar_high (Nat.le_of_not_lt hc)
      have hnot := byte_not_mem_high ha (Nat.le_of_not_lt hc)
      have hne : c ≠ a := fun h => hc (h ▸ ha)
      have hb : b ≠ byte a := fun h => hnot (by simp [heq, h])
      simp [encode_cons, heq, hne, hb]

end MyDuck.Utf8
