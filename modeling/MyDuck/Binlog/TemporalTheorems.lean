/-
MyDuck.Binlog.TemporalTheorems — times and dates are read back.

The encoders are MySQL's: a TIME2 is a packed number, negated as a whole
for a negative time, with its upper part in three bytes and its fraction
in as many bytes as the digits need; a DATETIME2 and a TIMESTAMP2 have
their fraction behind the packed date and the seconds. The old TIME is the
number HHMMSS in three bytes, with a sign.
-/
import MyDuck.Binlog.Rbr

namespace MyDuck.Rbr

open MyDuck.Calendar

/-! ## What MySQL writes -/

/-- The bytes of a fraction of so many digits. -/
def fractionBytes (fsp : Nat) : Nat := (fsp + 1) / 2

/-- A fraction in microseconds, in the bytes of its digits. -/
def encodeFraction (fsp micros : Nat) : List UInt8 :=
  toBE (fractionBytes fsp) (micros / 100 ^ (3 - fractionBytes fsp))

/-- Hours, minutes and seconds, packed. -/
def packHms (seconds : Nat) : Nat :=
  seconds / 3600 * 2 ^ 12 + seconds % 3600 / 60 * 2 ^ 6 + seconds % 60

/-- A time in microseconds, packed; a negative one is negated as a whole. -/
def packTime (v : Int) : Int :=
  v.sign * (packHms (v.natAbs / 10 ^ 6) * 2 ^ 24 + v.natAbs % 10 ^ 6 : Nat)

def encodeTime2 (fsp : Nat) (v : Int) : List UInt8 :=
  toBE 3 (packTime v / 2 ^ 24 + 0x800000).toNat ++
    toBE (fractionBytes fsp) (((packTime v).tmod (2 ^ 24)).tdiv
      (100 ^ (3 - fractionBytes fsp)) % 256 ^ fractionBytes fsp).toNat

/-- The greatest TIME, in microseconds. -/
def maxTime : Nat := ((838 * 60 + 59) * 60 + 59) * 10 ^ 6 + 999999

/-- A DATETIME: a day of the years 1 to 9999 and a time of the day. -/
structure DateTime where
  date : Date
  hour : Nat
  minute : Nat
  second : Nat
  micros : Nat
  year_le : date.year ≤ 9999
  hour_lt : hour < 24
  minute_lt : minute < 60
  second_lt : second < 60
  micros_lt : micros < 10 ^ 6
  deriving DecidableEq, Repr

def encodeDateTime2 (fsp : Nat) (t : DateTime) : List UInt8 :=
  toBE 5 (((t.date.year * 13 + t.date.month) * 2 ^ 5 + t.date.day) * 2 ^ 17 +
      (t.hour * 2 ^ 12 + t.minute * 2 ^ 6 + t.second) + 0x8000000000) ++
    encodeFraction fsp t.micros

/-- The seconds of a DATETIME since 1970, in UTC. -/
def DateTime.unix (t : DateTime) : Int :=
  t.date.dayNumber * 86400 + t.hour * 3600 + t.minute * 60 + t.second

/-- A TIMESTAMP: seconds since 1970 and a fraction. -/
structure Timestamp where
  seconds : Nat
  micros : Nat
  seconds_lt : seconds < 2 ^ 32
  micros_lt : micros < 10 ^ 6
  deriving DecidableEq, Repr

def encodeTimestamp2 (fsp : Nat) (t : Timestamp) : List UInt8 :=
  toBE 4 t.seconds ++ encodeFraction fsp t.micros

def TimeUnit.digits : TimeUnit → Nat
  | .second => 0
  | .millisecond => 3
  | .microsecond => 6

/-- A number of the unit, in microseconds. -/
def TimeUnit.micros (unit : TimeUnit) : Int := 10 ^ (6 - unit.digits)

/-! ## Fractions -/

section Fraction

variable {data : Slice} {pos fsp micros : Nat}

theorem toNat_ofNat_fsp (h : fsp ≤ 6) : (UInt16.ofNat fsp).toNat = fsp := by
  rw [UInt16.toNat_ofNat']
  omega

theorem fractionBytes_le (h : fsp ≤ 6) : fractionBytes fsp ≤ 3 := by
  rw [fractionBytes]
  omega

theorem scaled_lt {n : Nat} (hn : n ≤ 3) (hm : micros < 10 ^ 6) :
    micros / 100 ^ (3 - n) < 256 ^ n := by
  interval_cases n <;> norm_num <;> omega

/-- A fraction of so many digits keeps them all in its bytes, and is zero
there only if it is. -/
theorem scaled_ne_zero_iff (hd : 10 ^ (6 - fsp) ∣ micros) :
    micros / 100 ^ (3 - fractionBytes fsp) ≠ 0 ↔ micros ≠ 0 := by
  have hdiv : 100 ^ (3 - fractionBytes fsp) ∣ micros := by
    refine Dvd.dvd.trans ?_ hd
    rw [show (100 : Nat) = 10 ^ 2 from rfl, ← pow_mul]
    exact pow_dvd_pow 10 (by rw [fractionBytes]; omega)
  rw [Ne, Ne, Nat.div_eq_zero_iff_lt (by positivity), not_lt]
  exact ⟨fun hle h0 => absurd hle (by rw [h0]; simp), fun h0 => Nat.le_of_dvd (by omega) hdiv⟩

/-- The microseconds that the decoder makes of the bytes: the last digit of
an odd number of digits is dropped. -/
def unscaled (fsp d : Nat) : Nat :=
  (if fsp % 2 = 1 then d / 10 else d) * 10 ^ (6 - fsp)

theorem unscaled_scaled (hfsp : fsp ≤ 6) (hd : 10 ^ (6 - fsp) ∣ micros) :
    unscaled fsp (micros / 100 ^ (3 - fractionBytes fsp)) = micros := by
  rw [unscaled, fractionBytes]
  interval_cases fsp <;> norm_num at hd ⊢ <;> omega

theorem fraction_encode (hfsp : fsp ≤ 6) (hm : micros < 10 ^ 6) (hd : 10 ^ (6 - fsp) ∣ micros)
    (h : data.HasAt pos (encodeFraction fsp micros)) :
    fraction data pos (UInt16.ofNat fsp) = .ok (micros, fractionBytes fsp) := by
  have hread := h.read?
  rw [encodeFraction, length_toBE] at hread
  have hval : beNat (toBE (fractionBytes fsp) (micros / 100 ^ (3 - fractionBytes fsp)))
      = micros / 100 ^ (3 - fractionBytes fsp) :=
    beNat_toBE_of_lt (scaled_lt (fractionBytes_le hfsp) hm)
  have hend : ∀ f : Nat → Nat, (∀ d, f d = unscaled fsp d) →
      ((orPanic (data.read? pos (fractionBytes fsp)) >>= fun bytes =>
          (pure (beNat bytes) : Decoded Nat))
        >>= fun d => (pure (f d, fractionBytes fsp) : Decoded (Nat × Nat)))
          = .ok (micros, fractionBytes fsp) := by
    intro f hf
    simp only [hread, orPanic, bind, Except.bind, pure, Except.pure, hval, hf,
      unscaled_scaled hfsp hd]
  rw [fraction, toNat_ofNat_fsp hfsp]
  interval_cases fsp
  · obtain rfl : micros = 0 := by omega
    rfl
  all_goals exact hend _ fun d => by norm_num [unscaled]

end Fraction

/-! ## Instants -/

section Instants

variable {data : Slice} {pos fsp : Nat} {b : Builder} {unit : TimeUnit}

/-- An instant whose fraction has no more digits than the unit is exact in
the unit. -/
theorem timestampFromTime_exact (hunit : fsp ≤ unit.digits) (seconds : Int) {micros : Nat}
    (hm : micros < 10 ^ 6) (hd : 10 ^ (6 - fsp) ∣ micros) :
    timestampFromTime (seconds, (micros * 1000 : Nat)) unit * unit.micros
      = seconds * 10 ^ 6 + micros := by
  have hd' : 10 ^ (6 - unit.digits) ∣ micros := (pow_dvd_pow 10 (by omega)).trans hd
  cases unit <;> simp only [TimeUnit.digits, TimeUnit.micros, timestampFromTime] at hd' ⊢ <;>
    norm_num at hd' hm ⊢ <;> omega

theorem appendTime_eq (hb : b.type = .timestamp unit) (t : Instant) :
    appendTime t b = .ok (b.append (.int (timestampFromTime t unit))) := by
  rw [appendTime, hb]

/-- **TIMESTAMP2 is read back.** -/
theorem timestamp2Cell_encode (hfsp : fsp ≤ 6) (t : Timestamp) (hd : 10 ^ (6 - fsp) ∣ t.micros)
    (h : data.HasAt pos (encodeTimestamp2 fsp t)) (hb : b.type = .timestamp unit) :
    timestamp2Cell data pos (UInt16.ofNat fsp) b
      = .ok (4 + fractionBytes fsp,
          b.append (.int (timestampFromTime (t.seconds, (t.micros * 1000 : Nat)) unit))) := by
  have hsec := h.left.slice?
  have hfrac := h.right
  rw [length_toBE] at hsec hfrac
  have hval : beNat (toBE 4 t.seconds) = t.seconds := beNat_toBE_of_lt t.seconds_lt
  rw [timestamp2Cell, hsec]
  simp only [orPanic, bind, Except.bind, hval, fraction_encode hfsp t.micros_lt hd hfrac,
    appendTime_eq hb]
  push_cast
  rfl

/-- The packed day is taken apart again. -/
theorem packed_date (year : Nat) {month day : Nat} (hmonth : month ≤ 12) (hday : day ≤ 31) :
    ((year * 13 + month) * 2 ^ 5 + day) % 2 ^ 5 = day ∧
      ((year * 13 + month) * 2 ^ 5 + day) >>> 5 % 13 = month ∧
      ((year * 13 + month) * 2 ^ 5 + day) >>> 5 / 13 = year := by
  simp only [Nat.shiftRight_eq_div_pow]
  omega

/-- So is the packed time of the day. -/
theorem packed_time (hour : Nat) {minute second : Nat} (hminute : minute < 60)
    (hsecond : second < 60) :
    (hour * 2 ^ 12 + minute * 2 ^ 6 + second) % 2 ^ 6 = second ∧
      (hour * 2 ^ 12 + minute * 2 ^ 6 + second) >>> 6 % 2 ^ 6 = minute ∧
      (hour * 2 ^ 12 + minute * 2 ^ 6 + second) >>> 12 = hour := by
  simp only [Nat.shiftRight_eq_div_pow]
  omega

/-- **DATETIME2 is read back.** -/
theorem dateTime2Cell_encode (hfsp : fsp ≤ 6) (t : DateTime) (hd : 10 ^ (6 - fsp) ∣ t.micros)
    (h : data.HasAt pos (encodeDateTime2 fsp t)) (hb : b.type = .timestamp unit) :
    dateTime2Cell data pos (UInt16.ofNat fsp) b
      = .ok (5 + fractionBytes fsp,
          b.append (.int (timestampFromTime (t.unix, (t.micros * 1000 : Nat)) unit))) := by
  have hymd := h.left.read?
  have hfrac := h.right
  rw [length_toBE] at hymd hfrac
  obtain ⟨date, hour, minute, second, micros, hy, hh, hmin, hs, hmic⟩ := t
  have hday : date.day ≤ 31 := date.day_le.trans (daysInMonth_le _ _)
  have hmonth := date.month_le
  -- the packed number, without its offset
  obtain ⟨packed, hpacked⟩ : ∃ n, n = ((date.year * 13 + date.month) * 2 ^ 5 + date.day) * 2 ^ 17 +
      (hour * 2 ^ 12 + minute * 2 ^ 6 + second) := ⟨_, rfl⟩
  simp only [← hpacked] at hymd hfrac
  have hlt : packed < 2 ^ 39 := by omega
  have hval : (beNat (toBE 5 (packed + 0x8000000000)) + (2 ^ 64 - 0x8000000000)) % 2 ^ 64
      = packed := by
    rw [beNat_toBE_of_lt (by omega)]
    omega
  have h17 : packed >>> 17 = (date.year * 13 + date.month) * 2 ^ 5 + date.day := by
    rw [Nat.shiftRight_eq_div_pow]
    omega
  have hm17 : packed % 2 ^ 17 = hour * 2 ^ 12 + minute * 2 ^ 6 + second := by omega
  obtain ⟨hdays, hmon, hyear⟩ := packed_date date.year hmonth hday
  obtain ⟨hsec, hminute, hhour⟩ := packed_time hour hmin hs
  have hnsec : micros * 1000 < 10 ^ 9 := by omega
  have hdate := unixDate_eq date hh hmin hs hnsec
  rw [dateTime2Cell, hymd]
  simp only [orPanic, bind, Except.bind, hval, h17, hm17, hdays, hmon, hyear, hsec, hminute, hhour,
    fraction_encode hfsp hmic hd hfrac]
  push_cast at hdate ⊢
  rw [hdate, appendTime_eq hb]
  push_cast
  rfl

end Instants

/-! ## Times -/

section Times

variable {data : Slice} {pos fsp : Nat} {b : Builder}

variable {seconds micros hms : Nat}

/-- The packed seconds are taken apart again. -/
theorem packHms_fields (h : seconds < 839 * 3600) :
    (packHms seconds >>> 12) % 2 ^ 10 * 3600 + (packHms seconds >>> 6) % 2 ^ 6 * 60 +
      packHms seconds % 2 ^ 6 = seconds := by
  simp only [packHms, Nat.shiftRight_eq_div_pow]
  omega

theorem packHms_lt (h : seconds < 839 * 3600) : packHms seconds < 0x800000 := by
  rw [packHms]
  omega

/-- The fraction of a TIME2: of a negative one, what is missing to the next
second. -/
def storedFraction (fsp : Nat) (negative : Bool) (micros : Nat) : Nat :=
  let frac := micros / 100 ^ (3 - fractionBytes fsp)
  if negative ∧ frac ≠ 0 then 256 ^ fractionBytes fsp - frac else frac

/-- The borrowed second is given back. -/
theorem borrow_storedFraction (hfsp : fsp ≤ 6) (hm : micros < 10 ^ 6) (hd : 10 ^ (6 - fsp) ∣ micros)
    (negative : Bool) (hms : Nat) :
    borrow negative (fractionBytes fsp) (if negative ∧ micros ≠ 0 then hms + 1 else hms)
      (beNat (toBE (fractionBytes fsp) (storedFraction fsp negative micros)))
        = (hms, micros / 100 ^ (3 - fractionBytes fsp)) := by
  have hlt : micros / 100 ^ (3 - fractionBytes fsp) < 256 ^ fractionBytes fsp :=
    scaled_lt (fractionBytes_le hfsp) hm
  have hzero := scaled_ne_zero_iff hd
  rw [storedFraction]
  generalize micros / 100 ^ (3 - fractionBytes fsp) = frac at hlt hzero ⊢
  have hfit : (if negative = true ∧ frac ≠ 0 then 256 ^ fractionBytes fsp - frac else frac)
      < 256 ^ fractionBytes fsp := by
    split <;> omega
  simp only [beNat_toBE_of_lt hfit]
  by_cases hneg : negative = true ∧ frac ≠ 0
  · have hneg' : negative = true ∧ micros ≠ 0 := ⟨hneg.1, hzero.mp hneg.2⟩
    rw [if_pos hneg, if_pos hneg', borrow, if_pos ⟨hneg.1, by omega⟩]
    exact Prod.ext rfl (by dsimp only; omega)
  · have hneg' : ¬ (negative = true ∧ micros ≠ 0) := by rwa [← hzero]
    rw [if_neg hneg, if_neg hneg', borrow, if_neg hneg]

theorem timeFraction_encode (hfsp : fsp ≤ 6) (hm : micros < 10 ^ 6) (hd : 10 ^ (6 - fsp) ∣ micros)
    (negative : Bool) (hms : Nat)
    (h : data.HasAt pos (toBE (fractionBytes fsp) (storedFraction fsp negative micros))) :
    timeFraction data pos (UInt16.ofNat fsp) negative
      (if negative ∧ micros ≠ 0 then hms + 1 else hms) = .ok (hms, micros) := by
  have hread := h.read?
  rw [length_toBE] at hread
  have hborrow := borrow_storedFraction hfsp hm hd negative hms
  have hend : ∀ f : Nat → Nat, (∀ d, f d = unscaled fsp d) →
      ((orPanic (data.read? pos (fractionBytes fsp)) >>= fun bytes =>
          (pure (borrow negative (fractionBytes fsp)
            (if negative ∧ micros ≠ 0 then hms + 1 else hms) (beNat bytes)) :
              Decoded (Nat × Nat)))
        >>= fun r => (pure (r.1, f r.2) : Decoded (Nat × Nat))) = .ok (hms, micros) := by
    intro f hf
    simp only [hread, orPanic, bind, Except.bind, pure, Except.pure, hborrow, hf,
      unscaled_scaled hfsp hd]
  rw [timeFraction, toNat_ofNat_fsp hfsp]
  interval_cases fsp
  · obtain rfl : micros = 0 := by omega
    simp
    rfl
  · exact hend (fun d => d / 10 * 100000) fun d => by norm_num [unscaled]
  · exact hend (fun d => d * 10000) fun d => by norm_num [unscaled]
  · exact hend (fun d => d / 10 * 1000) fun d => by norm_num [unscaled]
  · exact hend (fun d => d * 100) fun d => by norm_num [unscaled]
  · exact hend (fun d => d / 10 * 10) fun d => by norm_num [unscaled]
  · exact hend (fun d => d * 1) fun d => by norm_num [unscaled]

theorem packTime_eq (v : Int) :
    packTime v = (if v < 0 then -1 else 1) *
      ((packHms (v.natAbs / 10 ^ 6) * 2 ^ 24 + v.natAbs % 10 ^ 6 : Nat) : Int) := by
  rcases lt_trichotomy v 0 with hneg | rfl | hpos
  · rw [packTime, Int.sign_eq_neg_one_of_neg hneg, if_pos hneg]
  · simp [packTime, packHms]
  · rw [packTime, Int.sign_eq_one_of_pos hpos, if_neg (by omega)]

/-- Below zero the quotient of a packed number is one lower when a part is left over. -/
theorem neg_packed_ediv {K : Nat} (hm : micros < K) :
    -((hms * K + micros : Nat) : Int) / K
      = -((if micros ≠ 0 then hms + 1 else hms : Nat) : Int) := by
  have hK : (0 : Int) < K := by omega
  split
  next h =>
    rw [Int.ediv_eq_iff_of_pos hK]
    push_cast
    constructor <;> nlinarith [Nat.pos_of_ne_zero h]
  next h =>
    obtain rfl : micros = 0 := not_not.mp h
    rw [Nat.add_zero, Nat.cast_mul, ← Int.neg_mul, Int.mul_ediv_cancel _ hK.ne']

theorem packed_ediv {K : Nat} (hm : micros < K) : ((hms * K + micros : Nat) : Int) / K = hms := by
  rw [← Int.natCast_ediv, Nat.mul_comm, Nat.mul_add_div (by omega), Nat.div_eq_of_lt hm,
    Nat.add_zero]

theorem packed_tmod {K : Nat} (hm : micros < K) :
    ((hms * K + micros : Nat) : Int).tmod K = micros := by
  rw [← Int.ofNat_tmod, Nat.mul_add_mod', Nat.mod_eq_of_lt hm]

/-- The upper part and the fraction of a packed time, as they are stored. -/
theorem packTime_parts (fsp : Nat) {v : Int} (hfsp : fsp ≤ 6) :
    packTime v / 2 ^ 24 = (if v < 0 then -((if v.natAbs % 10 ^ 6 ≠ 0
        then packHms (v.natAbs / 10 ^ 6) + 1 else packHms (v.natAbs / 10 ^ 6) : Nat) : Int)
      else packHms (v.natAbs / 10 ^ 6)) ∧
    (((packTime v).tmod (2 ^ 24)).tdiv (100 ^ (3 - fractionBytes fsp))
        % 256 ^ fractionBytes fsp).toNat
      = storedFraction fsp (v < 0) (v.natAbs % 10 ^ 6) := by
  have hm : v.natAbs % 10 ^ 6 < 10 ^ 6 := Nat.mod_lt _ (by decide)
  have hlt := scaled_lt (fractionBytes_le hfsp) hm
  have hK : (2 : Int) ^ 24 = ((2 ^ 24 : Nat) : Int) := by norm_num
  have hmK : v.natAbs % 10 ^ 6 < 2 ^ 24 := lt_trans hm (by norm_num)
  have hD : (100 : Int) ^ (3 - fractionBytes fsp) = ((100 ^ (3 - fractionBytes fsp) : Nat) : Int) :=
    by push_cast; rfl
  have hB : (256 : Int) ^ fractionBytes fsp = ((256 ^ fractionBytes fsp : Nat) : Int) := by
    push_cast; rfl
  rw [packTime_eq, storedFraction, hK, hD, hB]
  -- Only the sign matters below: the packed parts and the powers are any numbers.
  generalize packHms (v.natAbs / 10 ^ 6) = hms
  generalize v.natAbs % 10 ^ 6 = micros at hmK hlt ⊢
  generalize (100 : Nat) ^ (3 - fractionBytes fsp) = D at hlt ⊢
  generalize (256 : Nat) ^ fractionBytes fsp = B at hlt ⊢
  generalize (2 : Nat) ^ 24 = K at hmK ⊢
  rcases lt_or_ge v 0 with hneg | hpos
  · rw [if_pos hneg, if_pos hneg, neg_one_mul, Int.neg_tmod, packed_tmod hmK]
    refine ⟨neg_packed_ediv hmK, ?_⟩
    rw [Int.neg_tdiv, ← Int.ofNat_tdiv]
    generalize micros / D = frac at hlt ⊢
    simp only [decide_eq_true_eq, hneg, true_and, ne_eq]
    split
    next hfrac =>
      rw [← Int.add_emod_right, Int.emod_eq_of_lt (by omega) (by omega)]
      omega
    next hfrac =>
      obtain rfl : frac = 0 := not_not.mp hfrac
      simp
  · rw [if_neg (by omega), if_neg (by omega), one_mul, packed_tmod hmK]
    refine ⟨packed_ediv hmK, ?_⟩
    rw [← Int.ofNat_tdiv]
    generalize micros / D = frac at hlt ⊢
    rw [Int.emod_eq_of_lt (by omega) (by omega), Int.toNat_natCast,
      if_neg (by simp [not_lt.mpr hpos])]

theorem packHms_pos (h : 0 < seconds) : 0 < packHms seconds := by
  rw [packHms]
  omega

/-- The stored upper part carries the sign, also of a time within its first
second. -/
theorem storedUpper {v upper : Int} (hlt : hms < 0x800000) (hpos : v < 0 → micros = 0 → 0 < hms)
    (h : upper = if v < 0 then -((if micros ≠ 0 then hms + 1 else hms : Nat) : Int) else hms) :
    ((beNat (toBE 3 (upper + 0x800000).toNat) : Nat) : Int) - 0x800000 = upper ∧
      (upper < 0 ↔ v < 0) ∧ upper.natAbs = if v < 0 ∧ micros ≠ 0 then hms + 1 else hms := by
  have hstored : -0x800000 ≤ upper → upper < 0x800000 →
      ((beNat (toBE 3 (upper + 0x800000).toNat) : Nat) : Int) - 0x800000 = upper := by
    intro hlo hhi
    rw [beNat_toBE_of_lt (by omega)]
    omega
  by_cases hv : v < 0
  · by_cases hm : micros = 0
    · simp only [hv, hm, if_true, ne_eq, not_true_eq_false, and_false, if_false, iff_true] at h ⊢
      have := hpos hv hm
      exact ⟨hstored (by omega) (by omega), by omega, by omega⟩
    · simp only [hv, hm, if_true, ne_eq, not_false_eq_true, and_self, iff_true] at h ⊢
      exact ⟨hstored (by omega) (by omega), by omega, by omega⟩
  · simp only [hv, if_false, false_and, iff_false] at h ⊢
    exact ⟨hstored (by omega) (by omega), by omega, by omega⟩

/-- The microseconds of the fields, with the sign. -/
theorem signed_microseconds {v : Int} {secs : Nat} (h : secs * 10 ^ 6 + micros = v.natAbs) :
    (if v < 0 then -1 else 1) * microseconds ((secs * 10 ^ 9 + micros * 10 ^ 3 : Nat) : Int)
      = v := by
  have hsplit : secs * 10 ^ 9 + micros * 10 ^ 3 = v.natAbs * 1000 := by
    rw [← h]
    ring
  have hm : microseconds ((v.natAbs * 1000 : Nat) : Int) = v.natAbs := by
    rw [microseconds, Nat.cast_mul, Nat.cast_ofNat, Int.mul_tdiv_cancel _ (by decide)]
  rw [hsplit, hm]
  split <;> omega

/-- **TIME2 is read back**, negative or not. -/
theorem time2Cell_encode (hfsp : fsp ≤ 6) {v : Int} (hv : v.natAbs ≤ maxTime)
    (hd : (10 ^ (6 - fsp) : Int) ∣ v) (h : data.HasAt pos (encodeTime2 fsp v))
    (hb : b.type = .duration) :
    time2Cell data pos (UInt16.ofNat fsp) b
      = .ok (3 + fractionBytes fsp, b.append (.int v)) := by
  have hread := h.left.read?
  have hfrac := h.right
  obtain ⟨hupper, hlower⟩ := packTime_parts fsp (v := v) hfsp
  rw [length_toBE] at hread hfrac
  rw [hlower] at hfrac
  have hsecs : v.natAbs / 10 ^ 6 < 839 * 3600 := by
    rw [maxTime] at hv
    omega
  have hmic : v.natAbs % 10 ^ 6 < 10 ^ 6 := Nat.mod_lt _ (by decide)
  have hdiv : 10 ^ (6 - fsp) ∣ v.natAbs % 10 ^ 6 := by
    rw [Nat.dvd_mod_iff (pow_dvd_pow 10 (by omega))]
    exact_mod_cast Int.natAbs_dvd_natAbs.mpr hd
  obtain ⟨hstored, hneg, habs⟩ := storedUpper (packHms_lt hsecs)
    (fun hneg h0 => packHms_pos (by omega)) hupper
  have hpart := timeFraction_encode hfsp hmic hdiv (decide (v < 0))
    (packHms (v.natAbs / 10 ^ 6)) hfrac
  simp only [decide_eq_true_eq] at hpart
  rw [time2Cell, hread]
  simp only [orPanic, bind, Except.bind, hstored, hneg, habs, hpart, decide_eq_true_eq,
    packHms_fields hsecs, toNat_ofNat_fsp hfsp, signed_microseconds (Nat.div_add_mod' _ _),
    appendTo, hb, if_true]
  rfl

end Times

/-- **Temporal cells with fractional seconds round-trip.** Whatever the
number of digits, a TIME comes back as its microseconds, a DATETIME and a
TIMESTAMP as their instant in the builder's unit. -/
theorem temporal_round_trip (json : JsonParsers) (data : Slice) (pos : Nat) (column : CellColumn)
    (b : Builder) {fsp : Nat} (hfsp : fsp ≤ 6) :
    (∀ v : Int, v.natAbs ≤ maxTime → (10 ^ (6 - fsp) : Int) ∣ v → b.type = .duration →
      data.HasAt pos (encodeTime2 fsp v) →
        cellValue json data pos FieldType.time2.byte (UInt16.ofNat fsp) column b
          = .ok (3 + fractionBytes fsp, b.append (.int v))) ∧
    (∀ (t : DateTime) (unit : TimeUnit), 10 ^ (6 - fsp) ∣ t.micros → fsp ≤ unit.digits →
      b.type = .timestamp unit → data.HasAt pos (encodeDateTime2 fsp t) →
        ∃ n : Int, cellValue json data pos FieldType.dateTime2.byte (UInt16.ofNat fsp) column b
          = .ok (5 + fractionBytes fsp, b.append (.int n)) ∧
          n * unit.micros = t.unix * 10 ^ 6 + t.micros) ∧
    (∀ (t : Timestamp) (unit : TimeUnit), 10 ^ (6 - fsp) ∣ t.micros → fsp ≤ unit.digits →
      b.type = .timestamp unit → data.HasAt pos (encodeTimestamp2 fsp t) →
        ∃ n : Int, cellValue json data pos FieldType.timestamp2.byte (UInt16.ofNat fsp) column b
          = .ok (4 + fractionBytes fsp, b.append (.int n)) ∧
          n * unit.micros = t.seconds * 10 ^ 6 + t.micros) := by
  refine ⟨?_, ?_, ?_⟩
  · intro v hv hd hb h
    exact time2Cell_encode hfsp hv hd h hb
  · intro t unit hd hunit hb h
    exact ⟨_, dateTime2Cell_encode hfsp t hd h hb,
      timestampFromTime_exact hunit t.unix t.micros_lt hd⟩
  · intro t unit hd hunit hb h
    exact ⟨_, timestamp2Cell_encode hfsp t hd h hb,
      timestampFromTime_exact hunit t.seconds t.micros_lt hd⟩

/-- The time `-00:00:01.5` in one digit. -/
theorem temporal_round_trip_negative :
    cellValue {} (Slice.ofList (encodeTime2 1 (-1500000))) 0 FieldType.time2.byte 1 ⟨.time, .plain⟩
      ⟨.duration, []⟩ = .ok (4, ⟨.duration, [.int (-1500000)]⟩) :=
  (temporal_round_trip {} _ 0 ⟨.time, .plain⟩ ⟨.duration, []⟩ (by decide)).1 (-1500000) (by decide)
    (by decide) rfl (Slice.hasAt_ofList _)

/-! ## The old TIME -/

/-- Hours, minutes and seconds as the decimal number HHMMSS. -/
def hhmmss (seconds : Nat) : Nat :=
  seconds / 3600 * 10000 + seconds % 3600 / 60 * 100 + seconds % 60

/-- The old TIME: HHMMSS with the sign of the time, in three bytes. -/
def encodeTime (t : Int) : List UInt8 :=
  toLE 3 (t.sign * hhmmss t.natAbs % 2 ^ 24).toNat

section OldTime

variable {data : Slice} {pos : Nat} {b : Builder}

theorem hhmmss_lt {seconds : Nat} (h : seconds < 839 * 3600) : hhmmss seconds < 2 ^ 23 := by
  rw [hhmmss]
  omega

theorem hhmmss_pos {seconds : Nat} (h : 0 < seconds) : 0 < hhmmss seconds := by
  rw [hhmmss]
  omega

theorem hhmmss_fields (seconds : Nat) :
    (hhmmss seconds : Int).tdiv 10000 = (seconds / 3600 : Nat) ∧
      ((hhmmss seconds : Int).tmod 10000).tdiv 100 = (seconds % 3600 / 60 : Nat) ∧
      (hhmmss seconds : Int).tmod 100 = (seconds % 60 : Nat) := by
  have hh : hhmmss seconds / 10000 = seconds / 3600 := by rw [hhmmss]; omega
  have hm : hhmmss seconds % 10000 / 100 = seconds % 3600 / 60 := by rw [hhmmss]; omega
  have hs : hhmmss seconds % 100 = seconds % 60 := by rw [hhmmss]; omega
  rw [← hh, ← hm, ← hs]
  exact ⟨rfl, rfl, rfl⟩

/-- What the decoder makes of an old TIME: below zero only the hours get
the sign. -/
def oldTimeSeconds (t : Int) : Int :=
  if t < 0 then -(t.natAbs / 3600 : Nat) * 3600 + (t.natAbs % 3600 : Nat) else t

theorem oldTimeSeconds_eq_iff (t : Int) : oldTimeSeconds t = t ↔ 0 ≤ t ∨ 3600 ∣ t := by
  rw [oldTimeSeconds]
  split <;> omega

/-- The three bytes of a negative HHMMSS, with the sign extended. -/
theorem signed_hhmmss {n : Nat} (hpos : 0 < n) (hlt : n < 2 ^ 23) :
    signed 32 (2 ^ 24 - n + 255 * 2 ^ 24) = -(n : Int) := by
  rw [signed, show 2 ^ 24 - n + 255 * 2 ^ 24 = 2 ^ 32 - n by omega, Int.bmod_def]
  omega

theorem timeCell_encode {t : Int} (ht : t.natAbs < 839 * 3600) (hb : b.type = .duration)
    (h : data.HasAt pos (encodeTime t)) :
    timeCell data pos b = .ok (3, b.append (.int (oldTimeSeconds t * 10 ^ 6))) := by
  have hread := h.read?
  rw [encodeTime, length_toLE] at hread
  have hlt := hhmmss_lt ht
  obtain ⟨hh, hm, hs⟩ := hhmmss_fields t.natAbs
  have hend : ∀ hour minute second : Int, hour * 3600 + minute * 60 + second = oldTimeSeconds t →
      appendTo .duration (.int (microseconds ((hour * 3600 + minute * 60 + second) * 10 ^ 9))) b
        = .ok (b.append (.int (oldTimeSeconds t * 10 ^ 6))) := by
    intro hour minute second he
    have hmicros : microseconds (oldTimeSeconds t * 10 ^ 9) = oldTimeSeconds t * 10 ^ 6 := by
      rw [microseconds, show (10 : Int) ^ 9 = 10 ^ 6 * 1000 by norm_num, ← Int.mul_assoc,
        Int.mul_tdiv_cancel _ (by decide)]
    rw [he, hmicros, appendTo, if_pos hb]
  rw [timeCell, hread]
  rcases lt_or_ge t 0 with hneg | hnonneg
  · have hpos : 0 < hhmmss t.natAbs := hhmmss_pos (by omega)
    have hraw : leNat (toLE 3 (t.sign * hhmmss t.natAbs % 2 ^ 24).toNat)
        = 2 ^ 24 - hhmmss t.natAbs := by
      rw [Int.sign_eq_neg_one_of_neg hneg, leNat_toLE_of_lt (by omega)]
      omega
    simp only [orPanic, bind, Except.bind, hraw]
    rw [if_pos (by omega), signed_hhmmss hpos hlt]
    rw [Int.neg_tdiv, Int.neg_tmod, Int.neg_tdiv, Int.neg_tmod, hend]
    · rfl
    · dsimp only
      rw [oldTimeSeconds, if_pos hneg, hh, hm, hs]
      omega
  · have hraw : leNat (toLE 3 (t.sign * hhmmss t.natAbs % 2 ^ 24).toNat) = hhmmss t.natAbs := by
      rcases hnonneg.eq_or_lt with rfl | hpos
      · rfl
      · rw [Int.sign_eq_one_of_pos hpos, leNat_toLE_of_lt (by omega)]
        omega
    simp only [orPanic, bind, Except.bind, hraw]
    rw [if_neg (by omega), hend]
    · rfl
    · dsimp only
      rw [oldTimeSeconds, if_neg (by omega), hh, hm, hs]
      omega

end OldTime

/-- **The sign of an old TIME is right exactly** when it is not negative or
has only hours: only then the cell gives the time, and so what the TIME2
cell of the same time gives. -/
theorem old_time_iff (json : JsonParsers) (data data2 : Slice) (pos pos2 : Nat)
    (metadata : UInt16) (column : CellColumn) (b : Builder) (t : Int)
    (ht : t.natAbs ≤ 838 * 3600 + 59 * 60 + 59) (hb : b.type = .duration)
    (h : data.HasAt pos (encodeTime t)) (h2 : data2.HasAt pos2 (encodeTime2 0 (t * 10 ^ 6))) :
    (cellValue json data pos FieldType.time.byte metadata column b
        = .ok (3, b.append (.int (t * 10 ^ 6))) ∧
      cellValue json data pos FieldType.time.byte metadata column b
        = cellValue json data2 pos2 FieldType.time2.byte 0 column b) ↔
      0 ≤ t ∨ 3600 ∣ t := by
  have htime : cellValue json data pos FieldType.time.byte metadata column b
      = .ok (3, b.append (.int (oldTimeSeconds t * 10 ^ 6))) := timeCell_encode (by omega) hb h
  have htime2 : cellValue json data2 pos2 FieldType.time2.byte 0 column b
      = .ok (3, b.append (.int (t * 10 ^ 6))) :=
    time2Cell_encode (Nat.zero_le 6) (by rw [maxTime]; omega) (by norm_num) h2 hb
  rw [htime, htime2, and_self, ← oldTimeSeconds_eq_iff]
  refine ⟨fun heq => ?_, fun heq => by rw [heq]⟩
  simp only [Except.ok.injEq, Prod.mk.injEq, true_and, Builder.append, Builder.mk.injEq,
    List.append_cancel_left_eq, List.cons.injEq, Entry.int.injEq, and_true] at heq
  exact Int.eq_of_mul_eq_mul_right (by norm_num) heq

theorem old_time_iff_minus_two_hours :
    cellValue {} (Slice.ofList (encodeTime (-7200))) 0 FieldType.time.byte 0 ⟨.time, .plain⟩
      ⟨.duration, []⟩ = .ok (3, ⟨.duration, [.int (-7200000000)]⟩) :=
  ((old_time_iff {} _ _ 0 0 0 ⟨.time, .plain⟩ ⟨.duration, []⟩ (-7200) (by decide) rfl
    (Slice.hasAt_ofList _) (Slice.hasAt_ofList _)).mpr (by decide)).1

/-- The time `-00:00:01` is read as one second past zero. -/
theorem old_time_loses_sign :
    cellValue {} (Slice.ofList (encodeTime (-1))) 0 FieldType.time.byte 0 ⟨.time, .plain⟩
        ⟨.duration, []⟩ = .ok (3, ⟨.duration, [.int 1000000]⟩) ∧
      cellValue {} (Slice.ofList (encodeTime2 0 (-1000000))) 0 FieldType.time2.byte 0
        ⟨.time, .plain⟩ ⟨.duration, []⟩ = .ok (3, ⟨.duration, [.int (-1000000)]⟩) := by
  decide +kernel

end MyDuck.Rbr
