/-
MyDuck.Binlog.DecimalTheorems — DECIMAL cells are read back.

MySQL writes the digits of a DECIMAL in groups of nine, four bytes each,
with the digits left over in a shorter group: the first one before the
point, the last one behind it. The bytes of a negative number are inverted,
and then the first bit of every number is. The groups are read one by one
against these bytes, with the number so far as the accumulator; the digits
that the scale of the builder has more are padded at the end.

A DECIMAL without digits behind the point is appended before the scale of
the builder is looked at.
-/
import MyDuck.Binlog.Rbr

namespace MyDuck.Rbr

/-! ## What MySQL writes -/

/-- The bytes of a group of less than nine digits. -/
def digitBytes (digits : Nat) : Nat := (digits + 1) / 2

def encodeGroups : Nat → Nat → List UInt8
  | 0, _ => []
  | n + 1, k => toBE 4 (k / 10 ^ (9 * n)) ++ encodeGroups n (k % 10 ^ (9 * n))

/-- The digits before the point: the digits left over come first. -/
def encodeIntg (digits k : Nat) : List UInt8 :=
  toBE (digitBytes (digits % 9)) (k / 10 ^ (9 * (digits / 9))) ++
    encodeGroups (digits / 9) (k % 10 ^ (9 * (digits / 9)))

/-- The digits behind the point: the digits left over come last. -/
def encodeFrac (digits k : Nat) : List UInt8 :=
  encodeGroups (digits / 9) (k / 10 ^ (digits % 9)) ++
    toBE (digitBytes (digits % 9)) (k % 10 ^ (digits % 9))

/-- All digits of a number without its sign. -/
def encodeDigits (p s m : Nat) : List UInt8 :=
  encodeIntg (p - s) (m / 10 ^ s) ++ encodeFrac s (m % 10 ^ s)

def flipFirst : List UInt8 → List UInt8
  | [] => []
  | b :: bs => (b ^^^ 0x80) :: bs

/-- The DECIMAL `v * 10 ^ -s` of `p` digits. -/
def encodeDecimal (p s : Nat) (v : Int) : List UInt8 :=
  let digits := encodeDigits p s v.natAbs
  flipFirst (if v < 0 then digits.map (· ^^^ 0xff) else digits)

/-! ## Sign -/

/-- Bytes whose first bit is free for the sign. -/
def SignFree (bytes : List UInt8) : Prop := ∃ b bs, bytes = b :: bs ∧ b.toNat < 128

theorem SignFree.append {as : List UInt8} (h : SignFree as) (bs : List UInt8) :
    SignFree (as ++ bs) := by
  obtain ⟨b, rest, rfl, hb⟩ := h
  exact ⟨b, rest ++ bs, rfl, hb⟩

theorem signFree_toBE {k n : Nat} (h : n < 128 * 256 ^ k) : SignFree (toBE (k + 1) n) := by
  induction k generalizing n with
  | zero =>
    refine ⟨UInt8.ofNat n, [], rfl, ?_⟩
    rw [UInt8.toNat_ofNat']
    omega
  | succ k ih =>
    rw [toBE]
    refine SignFree.append (ih ?_) _
    rw [Nat.div_lt_iff_lt_mul (by decide)]
    calc n < 128 * 256 ^ (k + 1) := h
      _ = 128 * 256 ^ k * 256 := by rw [pow_succ, Nat.mul_assoc]

/-- A group of digits leaves the first bit free. -/
theorem signFree_digits {digits n : Nat} (hpos : 0 < digits) (hd : digits < 9)
    (h : n < 10 ^ digits) : SignFree (toBE (digitBytes digits) n) := by
  interval_cases digits <;> exact signFree_toBE (h.trans_le (by norm_num))

theorem signFree_groups {n k : Nat} (hn : 0 < n) (h : k < 10 ^ (9 * n)) :
    SignFree (encodeGroups n k) := by
  obtain ⟨n, rfl⟩ := Nat.exists_eq_add_one.mpr hn
  have hlt : k / 10 ^ (9 * n) < 10 ^ 9 := by
    rw [Nat.div_lt_iff_lt_mul (by positivity), ← pow_add]
    rwa [Nat.mul_succ, Nat.add_comm] at h
  exact (signFree_toBE (hlt.trans_le (by norm_num))).append _

section Sign

theorem xor_xor_cancel (b c : UInt8) : b ^^^ c ^^^ c = b := by
  rw [UInt8.xor_assoc, UInt8.xor_self, UInt8.xor_zero]

theorem sign_set {b : UInt8} (h : b.toNat < 128) : (b ^^^ 0x80) &&& 0x80 ≠ 0 := by
  have hall : ∀ n < 128, (UInt8.ofNat n ^^^ 0x80) &&& 0x80 ≠ 0 := by decide
  have := hall b.toNat h
  rwa [UInt8.ofNat_toNat] at this

theorem sign_clear {b : UInt8} (h : b.toNat < 128) : (b ^^^ 0xff ^^^ 0x80) &&& 0x80 = 0 := by
  have hall : ∀ n < 128, (UInt8.ofNat n ^^^ 0xff ^^^ 0x80) &&& 0x80 = 0 := by decide
  have := hall b.toNat h
  rwa [UInt8.ofNat_toNat] at this

/-- The sign and the digits are taken apart again. -/
theorem decimalBytes_flipFirst {digits : List UInt8} (h : SignFree digits) (negative : Prop)
    [Decidable negative] :
    decimalBytes (flipFirst (if negative then digits.map (· ^^^ 0xff) else digits))
      = some (decide negative, digits) := by
  obtain ⟨b, bs, rfl, hb⟩ := h
  by_cases hn : negative
  · simp only [hn, if_true, List.map_cons, flipFirst, decimalBytes, sign_clear hb, xor_xor_cancel,
      decide_true, List.map_map, Function.comp_def, List.map_id']
  · simp only [hn, if_false, flipFirst, decimalBytes, sign_set hb, xor_xor_cancel,
      decide_false]

end Sign

/-! ## Digits -/

section Digits

variable {d : Slice} {pos : Nat}

theorem length_encodeGroups (n k : Nat) : (encodeGroups n k).length = n * 4 := by
  induction n generalizing k with
  | zero => simp [encodeGroups]
  | succ n ih => rw [encodeGroups, List.length_append, length_toBE, ih]; omega

theorem length_encodeIntg (digits k : Nat) :
    (encodeIntg digits k).length = digitBytes (digits % 9) + digits / 9 * 4 := by
  rw [encodeIntg, List.length_append, length_toBE, length_encodeGroups]

theorem length_encodeFrac (digits k : Nat) :
    (encodeFrac digits k).length = digits / 9 * 4 + digitBytes (digits % 9) := by
  rw [encodeFrac, List.length_append, length_toBE, length_encodeGroups]

theorem beNat_digits {digits n : Nat} (hd : digits < 9) (h : n < 10 ^ digits) :
    beNat (toBE (digitBytes digits) n) = n := by
  refine beNat_toBE_of_lt (h.trans_le ?_)
  interval_cases digits <;> norm_num [digitBytes]

/-- The loop over full groups reads its digits behind the number so far. -/
theorem fullGroups_encode {n k : Nat} (coeff : Nat) (hk : k < 10 ^ (9 * n))
    (h : d.HasAt pos (encodeGroups n k)) :
    fullGroups d n pos coeff = .ok (pos + n * 4, coeff * 10 ^ (9 * n) + k) := by
  induction n generalizing pos k coeff with
  | zero =>
    obtain rfl : k = 0 := by simpa using hk
    simp [fullGroups]
  | succ n ih =>
    have hread := h.left.slice?
    have hrest := h.right
    rw [length_toBE] at hread hrest
    have hlt : k / 10 ^ (9 * n) < 10 ^ 9 := by
      rw [Nat.div_lt_iff_lt_mul (by positivity), ← pow_add]
      rwa [Nat.mul_succ, Nat.add_comm] at hk
    have hval : beNat (toBE 4 (k / 10 ^ (9 * n))) = k / 10 ^ (9 * n) :=
      beNat_toBE_of_lt (hlt.trans_le (by norm_num))
    have hmod : k % 10 ^ (9 * n) < 10 ^ (9 * n) := Nat.mod_lt _ (by positivity)
    have hsplit : (coeff * 1000000000 + k / 10 ^ (9 * n)) * 10 ^ (9 * n) + k % 10 ^ (9 * n)
        = coeff * 10 ^ (9 * (n + 1)) + k := by
      calc (coeff * 1000000000 + k / 10 ^ (9 * n)) * 10 ^ (9 * n) + k % 10 ^ (9 * n)
          = coeff * (10 ^ (9 * n) * 10 ^ 9) +
              (k / 10 ^ (9 * n) * 10 ^ (9 * n) + k % 10 ^ (9 * n)) := by ring
        _ = coeff * 10 ^ (9 * (n + 1)) + k := by
            rw [Nat.div_add_mod', ← pow_add, Nat.mul_succ]
    rw [fullGroups, hread]
    simp only [orPanic, bind, Except.bind, hval]
    rw [ih _ hmod hrest, hsplit, Nat.succ_mul]
    congr 2
    omega

/-- Zeros are padded up to the digits asked for, 19 at a time. -/
theorem padZeros_eq (coeff : Nat) {fp desired : Nat} (h : fp ≤ desired) :
    padZeros coeff fp desired = .ok (coeff * 10 ^ (desired - fp)) := by
  have hpower : ∀ k < 20, powerOf10s[k]? = some (10 ^ k) := by decide
  fun_induction padZeros coeff fp desired with
  | case1 coeff fp hlt ih =>
    rw [ih (by omega), show desired - fp = 19 + (desired - (fp + 19)) by omega, pow_add,
      ← Nat.mul_assoc]
    norm_num
  | case2 coeff fp hge =>
    rw [hpower _ (by omega)]
    rfl

end Digits

/-! ## The cell -/

section Cell

variable {p s m : Nat}

theorem dig2bytes_eq {n : Nat} (h : n < 9) : dig2bytes? (n : Int) = some (digitBytes n) := by
  interval_cases n <;> rfl

def layoutOf (p s : Nat) : DecimalLayout where
  intg0 := ((p - s) / 9 : Nat)
  intg0x := ((p - s) % 9 : Nat)
  frac0 := s / 9
  frac0x := s % 9
  intgBytes := digitBytes ((p - s) % 9)
  fracBytes := digitBytes (s % 9)

theorem decimalLayout_eq (hs : s ≤ p) : decimalLayout p s = .ok (layoutOf p s) := by
  have hintg : (p : Int) - s = (p - s : Nat) := by omega
  have hdiv : ((p - s : Nat) : Int).tdiv 9 = ((p - s) / 9 : Nat) := rfl
  have hmod : ((p - s : Nat) : Int) - ((p - s) / 9 : Nat) * 9 = ((p - s) % 9 : Nat) := by omega
  have hfrac : s - s / 9 * 9 = s % 9 := by omega
  rw [decimalLayout, hintg, hdiv, hmod, hfrac, dig2bytes_eq (Nat.mod_lt _ (by decide)),
    dig2bytes_eq (Nat.mod_lt _ (by decide))]
  rfl

theorem length_encodeDigits :
    ((encodeDigits p s m).length : Int) = (layoutOf p s).length := by
  rw [encodeDigits, List.length_append, length_encodeIntg, length_encodeFrac,
    DecimalLayout.length, layoutOf]
  push_cast
  ring

theorem length_encodeDecimal (v : Int) :
    (encodeDecimal p s v).length = (encodeDigits p s v.natAbs).length := by
  have hflip : ∀ bytes : List UInt8, (flipFirst bytes).length = bytes.length := by
    rintro (_ | ⟨b, bs⟩) <;> rfl
  rw [encodeDecimal, hflip]
  split <;> simp

/-- The digits of a DECIMAL fit the buffer they are copied to. -/
theorem length_encodeDigits_le (hp : p ≤ 65) (hs : s ≤ p) :
    (encodeDigits p s m).length ≤ 40 := by
  rw [encodeDigits, List.length_append, length_encodeIntg, length_encodeFrac, digitBytes,
    digitBytes]
  omega

theorem div_pow_lt {a n k : Nat} (h : k < 10 ^ n) (ha : a ≤ n) : k / 10 ^ a < 10 ^ (n - a) := by
  rw [Nat.div_lt_iff_lt_mul (by positivity), ← pow_add, Nat.sub_add_cancel ha]
  exact h

theorem signFree_encodeIntg {n k : Nat} (hn : 0 < n) (hk : k < 10 ^ n) :
    SignFree (encodeIntg n k) := by
  have hfirst : k / 10 ^ (9 * (n / 9)) < 10 ^ (n % 9) := by
    have := div_pow_lt hk (Nat.mul_div_le n 9)
    rwa [show n - 9 * (n / 9) = n % 9 by omega] at this
  rcases Nat.eq_zero_or_pos (n % 9) with h0 | hpos
  · rw [encodeIntg, h0]
    exact signFree_groups (by omega) (Nat.mod_lt _ (by positivity))
  · exact (signFree_digits hpos (Nat.mod_lt _ (by decide)) hfirst).append _

theorem signFree_encodeFrac {n k : Nat} (hn : 0 < n) (hk : k < 10 ^ n) :
    SignFree (encodeFrac n k) := by
  rcases Nat.eq_zero_or_pos (n / 9) with h0 | hpos
  · rw [encodeFrac, h0]
    exact signFree_digits (by omega) (Nat.mod_lt _ (by decide)) (Nat.mod_lt _ (by positivity))
  · have hgroups : k / 10 ^ (n % 9) < 10 ^ (9 * (n / 9)) := by
      have := div_pow_lt hk (Nat.mod_le n 9)
      rwa [show n - n % 9 = 9 * (n / 9) by omega] at this
    exact (signFree_groups hpos hgroups).append _

/-- Every DECIMAL has a digit, so a bit for the sign. -/
theorem signFree_encodeDigits (hp : 1 ≤ p) (hs : s ≤ p) (hm : m < 10 ^ p) :
    SignFree (encodeDigits p s m) := by
  rcases Nat.eq_zero_or_pos (p - s) with h0 | hpos
  · rw [encodeDigits, h0]
    exact signFree_encodeFrac (by omega) (Nat.mod_lt _ (by positivity))
  · exact (signFree_encodeIntg hpos (div_pow_lt hm hs)).append _

variable {d : Slice} {pos n k : Nat}

theorem intg_encode (hk : k < 10 ^ n) (h : d.HasAt 0 (encodeIntg n k)) :
    ∃ first, d.read? 0 (digitBytes (n % 9)) = some first ∧
      fullGroups d (n / 9) (digitBytes (n % 9)) (beNat first)
        = .ok ((encodeIntg n k).length, k) := by
  have hfirst : k / 10 ^ (9 * (n / 9)) < 10 ^ (n % 9) := by
    have := div_pow_lt hk (Nat.mul_div_le n 9)
    rwa [show n - 9 * (n / 9) = n % 9 by omega] at this
  have hread := h.left.read?
  have hrest := h.right
  rw [length_toBE] at hread hrest
  rw [Nat.zero_add] at hrest
  refine ⟨_, hread, ?_⟩
  rw [beNat_digits (Nat.mod_lt _ (by decide)) hfirst,
    fullGroups_encode _ (Nat.mod_lt _ (by positivity)) hrest, Nat.div_add_mod', length_encodeIntg]

/-- The digits behind the point are read behind the number so far. -/
theorem frac_encode (coeff : Nat) (hk : k < 10 ^ n) (h : d.HasAt pos (encodeFrac n k)) :
    ∃ pos' coeff' last, fullGroups d (n / 9) pos coeff = .ok (pos', coeff') ∧
      d.read? pos' (digitBytes (n % 9)) = some last ∧
      (if digitBytes (n % 9) = 0 then coeff' else coeff' * 10 ^ (n % 9) + beNat last)
        = coeff * 10 ^ n + k := by
  have hgroups : k / 10 ^ (n % 9) < 10 ^ (9 * (n / 9)) := by
    have := div_pow_lt hk (Nat.mod_le n 9)
    rwa [show n - n % 9 = 9 * (n / 9) by omega] at this
  have hread := h.right.read?
  rw [length_toBE, length_encodeGroups] at hread
  refine ⟨_, _, _, fullGroups_encode coeff hgroups h.left, hread, ?_⟩
  have hsplit : (coeff * 10 ^ (9 * (n / 9)) + k / 10 ^ (n % 9)) * 10 ^ (n % 9) + k % 10 ^ (n % 9)
      = coeff * 10 ^ n + k := by
    have hpow : 10 ^ (9 * (n / 9)) * 10 ^ (n % 9) = 10 ^ n := by
      rw [← pow_add, Nat.div_add_mod]
    rw [Nat.add_mul, Nat.mul_assoc, hpow, Nat.add_assoc, Nat.div_add_mod']
  rw [beNat_digits (Nat.mod_lt _ (by decide)) (Nat.mod_lt _ (by positivity)), ← hsplit]
  split
  next h0 =>
    have hx : n % 9 = 0 := by rw [digitBytes] at h0; omega
    rw [hx, pow_zero, Nat.mod_one, Nat.mul_one, Nat.add_zero]
  · rfl

theorem metadata_bytes (hp : p ≤ 65) (hs : s ≤ 30) :
    highByte (UInt16.ofNat (p * 256 + s)) = p ∧ lowByte (UInt16.ofNat (p * 256 + s)) = s := by
  have hval : (UInt16.ofNat (p * 256 + s)).toNat = p * 256 + s := by
    rw [UInt16.toNat_ofNat']
    omega
  constructor
  · rw [highByte, UInt16.toNat_shiftRight, hval, Nat.shiftRight_eq_div_pow,
      show UInt16.toNat 8 % 16 = 8 from rfl]
    omega
  · rw [lowByte, UInt16.toNat_and, hval, show (0xff : UInt16).toNat = 2 ^ 8 - 1 from rfl,
      Nat.and_two_pow_sub_one_eq_mod]
    omega

variable {data : Slice} {b : Builder}

/-- Both parts of a number are read behind each other. -/
theorem digits_encode {d : Slice} {n : Nat} (hs : s ≤ p) (hn : n < 10 ^ p)
    (h : d.HasAt 0 (encodeDigits p s n)) : ∃ first at₁ at₂ coeff last,
      d.read? 0 (layoutOf p s).intgBytes = some first ∧
      fullGroups d (layoutOf p s).intg0.toNat (layoutOf p s).intgBytes (beNat first)
        = .ok (at₁, n / 10 ^ s) ∧
      fullGroups d (layoutOf p s).frac0 at₁ (n / 10 ^ s) = .ok (at₂, coeff) ∧
      d.read? at₂ (layoutOf p s).fracBytes = some last ∧
      (if (layoutOf p s).fracBytes = 0 then coeff
        else coeff * 10 ^ (layoutOf p s).frac0x + beNat last) = n := by
  obtain ⟨first, hfirst, hintg⟩ := intg_encode (div_pow_lt hn hs) h.left
  obtain ⟨at₂, coeff, last, hfrac, hlast, hcoeff⟩ :=
    frac_encode (n / 10 ^ s) (Nat.mod_lt n (by positivity)) h.right
  rw [Nat.zero_add] at hfrac
  rw [Nat.div_add_mod'] at hcoeff
  exact ⟨first, _, at₂, coeff, last, hfirst, hintg, hfrac, hlast, hcoeff⟩

/-- What the decoder does once the digits are read. -/
def appendScaled (s l : Nat) (v : Int) (b : Builder) : Decoded (Nat × Builder) :=
  if s = 0 then appendDecimal (v < 0) v.natAbs l b
  else do
    let desired ← decimalScale b
    if s < desired then appendDecimal (v < 0) (v.natAbs * 10 ^ (desired.toNat - s)) l b
    else if desired < s then .error (.error l (.fractionalDigits s desired))
    else appendDecimal (v < 0) v.natAbs l b

/-- **The digits of a DECIMAL are read exactly.** -/
theorem newDecimalCell_encode (hp : 1 ≤ p) (hp' : p ≤ 65) (hs : s ≤ p) (hs' : s ≤ 30) {v : Int}
    (hv : v.natAbs < 10 ^ p) (h : data.HasAt pos (encodeDecimal p s v)) :
    newDecimalCell data pos (UInt16.ofNat (p * 256 + s)) b
      = appendScaled s (encodeDecimal p s v).length v b := by
  obtain ⟨hhigh, hlow⟩ := metadata_bytes hp' hs'
  have hlen : (layoutOf p s).length = ((encodeDecimal p s v).length : Int) := by
    rw [length_encodeDecimal, length_encodeDigits]
  have hle : (encodeDecimal p s v).length ≤ 40 := by
    rw [length_encodeDecimal]
    exact length_encodeDigits_le hp' hs
  have hslice : data.slice? pos (layoutOf p s).length.toNat = some (encodeDecimal p s v) := by
    rw [hlen, Int.toNat_natCast, h.slice?]
  have hsign : decimalBytes (encodeDecimal p s v)
      = some (decide (v < 0), encodeDigits p s v.natAbs) :=
    decimalBytes_flipFirst (signFree_encodeDigits hp hs hv) (v < 0)
  rw [newDecimalCell, hhigh, hlow, decimalLayout_eq hs]
  simp only [bind, Except.bind]
  rw [if_neg (by omega)]
  simp only [orPanic, hslice, hsign]
  -- the copy of the digits, and zeros up to its capacity
  obtain ⟨d, hd⟩ : ∃ d : Slice, d = ⟨encodeDigits p s v.natAbs ++
      List.replicate (40 - (layoutOf p s).length.toNat) 0, (encodeDigits p s v.natAbs).length,
      by simp⟩ := ⟨_, rfl⟩
  have hat : d.HasAt 0 (encodeDigits p s v.natAbs) := by
    rw [hd]
    exact ⟨by simp, by simp⟩
  rw [← hd]
  obtain ⟨first, at₁, at₂, coeff, last, hfirst, hintg, hfrac, hlast, hcoeff⟩ :=
    digits_encode hs hv hat
  have hfp : (layoutOf p s).frac0 * 9 + (layoutOf p s).frac0x = s := Nat.div_add_mod' s 9
  rw [show (layoutOf p s).length.toNat = (encodeDecimal p s v).length by omega]
  simp only [hfirst, hintg, hfrac, hlast, hfp, hcoeff]
  rw [appendScaled]
  split
  next h0 =>
    subst h0
    rw [pow_zero, Nat.div_one]
  next =>
    simp only [bind, Except.bind]
    cases decimalScale b with
    | error e => rfl
    | ok desired =>
      dsimp only
      split
      next hlt => rw [padZeros_eq _ (by omega)]
      next => rfl

/-- The bits of the numbers a decimal builder holds, and its scale. -/
def BuilderType.decimal? : BuilderType → Option (Nat × Int)
  | .decimal128 scale => some (127, scale)
  | .decimal256 scale => some (255, scale)
  | _ => none

variable {bits : Nat} {scale : Int}

theorem decimalScale_eq (hb : b.type.decimal? = some (bits, scale)) :
    decimalScale b = .ok scale := by
  rw [decimalScale]
  cases htype : b.type <;> rw [htype] at hb <;> cases hb <;> rfl

theorem appendDecimal_eq (hb : b.type.decimal? = some (bits, scale)) (isNegative : Bool)
    (coeff l : Nat) :
    appendDecimal isNegative coeff l b = if coeff < 2 ^ bits
      then .ok (l, b.append (.int (if isNegative then -coeff else coeff))) else .error .panic := by
  rw [appendDecimal]
  cases htype : b.type <;> rw [htype] at hb <;> cases hb <;> rfl

theorem signed_natAbs (v : Int) (k : Nat) :
    (if decide (v < 0) then -((v.natAbs * 10 ^ k : Nat) : Int) else (v.natAbs * 10 ^ k : Nat))
      = v * 10 ^ k := by
  push_cast
  by_cases hneg : v < 0
  · rw [decide_eq_true hneg, if_pos rfl, abs_of_neg hneg]
    ring
  · rw [decide_eq_false hneg, if_neg Bool.false_ne_true, abs_of_nonneg (by omega)]

theorem signed_natAbs_self (v : Int) :
    (if decide (v < 0) then -(v.natAbs : Int) else v.natAbs) = v := by
  simpa using signed_natAbs v 0

/-- With digits behind the point the number is scaled to the builder. -/
theorem appendScaled_fraction (hs : s ≠ 0) (l : Nat) {v : Int}
    (hb : b.type.decimal? = some (bits, scale)) :
    appendScaled s l v b = if (s : Int) ≤ scale then
        if v.natAbs * 10 ^ (scale - s).toNat < 2 ^ bits
          then .ok (l, b.append (.int (v * 10 ^ (scale - s).toNat))) else .error .panic
      else .error (.error l (.fractionalDigits s scale)) := by
  rw [appendScaled, if_neg hs, decimalScale_eq hb]
  simp only [bind, Except.bind, appendDecimal_eq hb, signed_natAbs, signed_natAbs_self]
  rcases lt_trichotomy (s : Int) scale with hlt | rfl | hgt
  · rw [if_pos hlt, if_pos hlt.le, show scale.toNat - s = (scale - s).toNat by omega]
  · simp
  · rw [if_neg (by omega), if_pos hgt, if_neg (by omega)]

/-- Without them it is not. -/
theorem appendScaled_integer (l : Nat) (v : Int) (hb : b.type.decimal? = some (bits, scale)) :
    appendScaled 0 l v b = if v.natAbs < 2 ^ bits then .ok (l, b.append (.int v))
      else .error .panic := by
  rw [appendScaled, if_pos rfl, appendDecimal_eq hb, signed_natAbs_self]

theorem append_inj {e e' : Entry} (h : b.append e = b.append e') : e = e' := by
  simpa [Builder.append] using h

theorem eq_mul_pow_iff (v : Int) (h : 0 ≤ scale) :
    v = v * 10 ^ scale.toNat ↔ scale = 0 ∨ v = 0 ∧ 0 < scale := by
  rcases h.eq_or_lt with rfl | hpos
  · simp
  · have hone : (10 : Int) ^ scale.toNat ≠ 1 := by
      have : 1 < (10 : Int) ^ scale.toNat := one_lt_pow₀ (by norm_num) (by omega)
      omega
    simp only [hpos.ne', hpos, and_true, false_or]
    refine ⟨fun heq => ?_, fun hzero => by rw [hzero, zero_mul]⟩
    by_contra hv
    exact hone ((left_eq_mul₀ hv).mp heq)

end Cell

/-- **DECIMAL cells are decoded exactly** in the scale of the builder, or
refused when it has too few digits, as long as the DECIMAL has digits
behind the point. One without them is exact only for a builder without
them, or for zero. -/
theorem decimal_exact_iff (json : JsonParsers) (data : Slice) (pos : Nat) (column : CellColumn)
    (b : Builder) {p s : Nat} (hp : 1 ≤ p) (hp' : p ≤ 65) (hs : s ≤ min p 30) {v : Int}
    (hv : v.natAbs < 10 ^ p) {bits : Nat} {scale : Int}
    (hb : b.type.decimal? = some (bits, scale))
    (hfit : (s : Int) ≤ scale → v.natAbs * 10 ^ (scale - s).toNat < 2 ^ bits)
    (h : data.HasAt pos (encodeDecimal p s v)) :
    (((s : Int) ≤ scale →
        cellValue json data pos FieldType.newDecimal.byte (UInt16.ofNat (p * 256 + s)) column b
          = .ok ((encodeDecimal p s v).length, b.append (.int (v * 10 ^ (scale - s).toNat)))) ∧
      (scale < s → ∃ l e,
        cellValue json data pos FieldType.newDecimal.byte (UInt16.ofNat (p * 256 + s)) column b
          = .error (.error l e))) ↔
      (s = 0 → scale = 0 ∨ v = 0 ∧ 0 < scale) := by
  have hcell : cellValue json data pos FieldType.newDecimal.byte (UInt16.ofNat (p * 256 + s))
      column b = appendScaled s (encodeDecimal p s v).length v b :=
    newDecimalCell_encode hp hp' (by omega) (by omega) hv h
  rw [hcell]
  rcases Nat.eq_zero_or_pos s with rfl | hpos
  · rw [appendScaled_integer _ _ hb]
    rcases lt_or_ge scale 0 with hneg | hnonneg
    · refine iff_of_false (fun hex => ?_) (by omega)
      obtain ⟨l, e, he⟩ := hex.2 hneg
      split at he <;> cases he
    · have hsmall : v.natAbs < 2 ^ bits :=
        (Nat.le_mul_of_pos_right _ (by positivity)).trans_lt (hfit hnonneg)
      rw [if_pos hsmall, ← eq_mul_pow_iff v hnonneg]
      refine ⟨fun hex _ => ?_, fun hv => ⟨fun _ => ?_, fun hneg => absurd hneg (by omega)⟩⟩
      · have heq := hex.1 hnonneg
        simp only [Except.ok.injEq, Prod.mk.injEq, true_and] at heq
        simpa using append_inj heq
      · rw [Nat.cast_zero, Int.sub_zero, ← hv rfl]
  · rw [appendScaled_fraction (by omega) _ hb]
    refine iff_of_true ⟨fun hle => ?_, fun hlt => ?_⟩ (by omega)
    · rw [if_pos hle, if_pos (hfit hle)]
    · rw [if_neg (by omega)]
      exact ⟨_, _, rfl⟩

/-- `-12.345` in a builder of four digits. -/
theorem decimal_exact_iff_negative :
    cellValue {} (Slice.ofList (encodeDecimal 5 3 (-12345))) 0 FieldType.newDecimal.byte 0x0503
      ⟨.decimal, .plain⟩ ⟨.decimal128 4, []⟩ = .ok (3, ⟨.decimal128 4, [.int (-123450)]⟩) :=
  ((decimal_exact_iff {} _ 0 ⟨.decimal, .plain⟩ ⟨.decimal128 4, []⟩ (by decide) (by decide)
    (by decide) (by decide) rfl (by decide) (Slice.hasAt_ofList _)).mpr (by decide)).1 (by decide)

/-- A DECIMAL(5,0) in a builder of two digits: `7` is appended as `0.07`. -/
theorem decimal_scale_ignored :
    cellValue {} (Slice.ofList (encodeDecimal 5 0 7)) 0 FieldType.newDecimal.byte 0x0500
      ⟨.decimal, .plain⟩ ⟨.decimal128 2, []⟩ = .ok (3, ⟨.decimal128 2, [.int 7]⟩) ∧
      (7 : Int) ≠ 7 * 10 ^ 2 := by
  decide +kernel

end MyDuck.Rbr
