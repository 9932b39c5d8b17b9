import Mathlib.Data.Int.Log
import Mathlib.Data.Rat.Floor
import TraceForge.Library.Double

/-! Rounding to a number of significant binary digits, ties to even, as floating-point arithmetic
does, truncation to an integer, and the double that is nearest to a rational. A dyadic rational of
few digits is a double itself (`Double.ofRat_dyadic`), so arithmetic that stays among them is exact
(`Double.Is`). -/
namespace TraceForge.Library

/-- The nearest integer. -/
def roundHalfEven (q : ℚ) : ℤ :=
  let rest := q - ⌊q⌋
  if rest < 1 / 2 ∨ rest = 1 / 2 ∧ ⌊q⌋ % 2 = 0 then ⌊q⌋ else ⌊q⌋ + 1

/-- The nearest number of `digits` significant digits, however large or small. -/
def roundTo (digits : ℕ) (q : ℚ) : ℚ :=
  let unit : ℚ := 2 ^ (Int.log 2 |q| + 1 - digits)
  roundHalfEven (q / unit) * unit

/-- One tenth as a double, and a tie at the end of a double's digits. -/
example : roundTo 53 (1 / 10) = 3602879701896397 / 36028797018963968 ∧
    roundTo 53 (2 ^ 53 + 1) = 2 ^ 53 := by decide +kernel

theorem roundHalfEven_natCast (n : ℕ) : roundHalfEven n = n := by
  simp [roundHalfEven]

/-- The integer part, as a cast to an integer has it. -/
def truncate (q : ℚ) : ℤ := if q < 0 then ⌈q⌉ else ⌊q⌋

theorem truncate_of_nonneg {q : ℚ} (h : 0 ≤ q) : truncate q = ⌊q⌋ := if_neg (not_lt.mpr h)

theorem truncate_nonneg {q : ℚ} (h : 0 ≤ q) : 0 ≤ truncate q := by
  rw [truncate_of_nonneg h]
  exact Int.floor_nonneg.mpr h

theorem truncate_lt_iff {q : ℚ} (h : 0 ≤ q) (n : ℤ) : truncate q < n ↔ q < n := by
  rw [truncate_of_nonneg h, Int.floor_lt]

theorem truncate_mono {p q : ℚ} (hp : 0 ≤ p) (h : p ≤ q) : truncate p ≤ truncate q := by
  rw [truncate_of_nonneg hp, truncate_of_nonneg (hp.trans h)]
  exact Int.floor_mono h

/-! ### Doubles -/

namespace Double

/-- The double with these fields. -/
def ofFields (negative : Bool) (exponent fraction : ℕ) : Double :=
  ⟨UInt64.ofNat ((if negative then 2 ^ 63 else 0) + exponent * 2 ^ 52 + fraction)⟩

/-- The nearest double; an infinity beyond the largest. A mantissa that rounds up to the next power
of two carries into the exponent. -/
def ofRat (q : ℚ) : Double :=
  if q = 0 then ⟨0⟩
  else
    let exponent := max (Int.log 2 |q|) (-1022)
    let mantissa := roundHalfEven (|q| / 2 ^ (exponent - 52))
    let magnitude := (exponent + 1022) * 2 ^ 52 + mantissa
    ofFields (q < 0) 0 (min magnitude.toNat 0x7FF0000000000000)

def neg (d : Double) : Double := ⟨d.bits ^^^ 0x8000000000000000⟩

/-- One third, the smallest subnormal, a number too large, and one with its sign flipped. -/
example : ofRat (-1 / 3) = ⟨0xBFD5555555555555⟩ ∧ ofRat (1 / 2 ^ 1074) = ⟨1⟩ ∧
    ofRat (2 ^ 1024) = ⟨0x7FF0000000000000⟩ ∧ neg (ofRat 1) = ofRat (-1) := by decide +kernel

theorem bits_ofFields {negative : Bool} {exponent fraction : ℕ} (he : exponent < 2 ^ 11)
    (hf : fraction < 2 ^ 52) : (ofFields negative exponent fraction).bits.toNat =
      (if negative then 2 ^ 63 else 0) + exponent * 2 ^ 52 + fraction := by
  rw [ofFields, UInt64.toNat_ofNat']
  refine Nat.mod_eq_of_lt ?_
  split <;> omega

theorem exponent_ofFields {negative : Bool} {exponent fraction : ℕ} (he : exponent < 2 ^ 11)
    (hf : fraction < 2 ^ 52) : (ofFields negative exponent fraction).exponent.toNat = exponent := by
  have hmask : (0x7FF : UInt64).toNat = 2 ^ 11 - 1 := rfl
  have hshift : (52 : UInt64).toNat % 64 = 52 := rfl
  rw [Double.exponent, UInt64.toNat_and, UInt64.toNat_shiftRight, hmask, hshift,
    Nat.and_two_pow_sub_one_eq_mod, Nat.shiftRight_eq_div_pow, bits_ofFields he hf]
  split <;> omega

theorem fraction_ofFields {negative : Bool} {exponent fraction : ℕ} (he : exponent < 2 ^ 11)
    (hf : fraction < 2 ^ 52) : (ofFields negative exponent fraction).fraction.toNat = fraction := by
  have hmask : (0xFFFFFFFFFFFFF : UInt64).toNat = 2 ^ 52 - 1 := rfl
  rw [Double.fraction, UInt64.toNat_and, hmask, Nat.and_two_pow_sub_one_eq_mod,
    bits_ofFields he hf]
  split <;> omega

theorem negative_ofFields {negative : Bool} {exponent fraction : ℕ} (he : exponent < 2 ^ 11)
    (hf : fraction < 2 ^ 52) : (ofFields negative exponent fraction).negative = negative := by
  have hshift : (63 : UInt64).toNat % 64 = 63 := rfl
  have hsign : ((ofFields negative exponent fraction).bits >>> 63).toNat =
      if negative then 1 else 0 := by
    rw [UInt64.toNat_shiftRight, hshift, Nat.shiftRight_eq_div_pow, bits_ofFields he hf]
    split <;> omega
  rw [Double.negative, Bool.eq_iff_iff, beq_iff_eq, ← UInt64.toNat_inj, hsign]
  cases negative <;> simp

/-- A double whose exponent is not at either end is the number its fields say. -/
theorem value_ofFields (negative : Bool) {exponent fraction : ℕ} (hpos : 0 < exponent)
    (he : exponent < 2047) (hf : fraction < 2 ^ 52) :
    (ofFields negative exponent fraction).isFinite = true ∧
      (ofFields negative exponent fraction).toRat =
        let scaled : ℚ := (2 ^ 52 + fraction) * 2 ^ exponent / 2 ^ 1075
        if negative then -scaled else scaled := by
  have hlt : exponent < 2 ^ 11 := by omega
  have hne (other : UInt64) (h : other.toNat = 0 ∨ other.toNat = 2047) :
      (ofFields negative exponent fraction).exponent ≠ other := by
    rintro rfl
    rw [exponent_ofFields hlt hf] at h
    omega
  refine ⟨?_, ?_⟩
  · rw [isFinite, bne_iff_ne]
    exact hne _ (.inr rfl)
  · simp only [toRat, if_neg (hne 0 (.inl rfl)), fraction_ofFields hlt hf,
      exponent_ofFields hlt hf, negative_ofFields hlt hf]

theorem log_dyadic {a : ℕ} (k : ℕ) (ha : a ≠ 0) :
    Int.log 2 ((a : ℚ) / 2 ^ k) = (Nat.log 2 a : ℤ) - k := by
  have hpow : (0 : ℚ) < 2 ^ k := by positivity
  have hpos : (0 : ℚ) < a / 2 ^ k := div_pos (by exact_mod_cast Nat.pos_of_ne_zero ha) hpow
  have hscale (n : ℕ) : ((2 : ℕ) : ℚ) ^ ((n : ℤ) - k) = 2 ^ n / 2 ^ k := by
    rw [Nat.cast_ofNat, zpow_sub₀ two_ne_zero, zpow_natCast, zpow_natCast]
  refine le_antisymm (Int.le_of_lt_add_one ?_) ?_
  · rw [sub_add_eq_add_sub, ← Int.lt_zpow_iff_log_lt one_lt_two hpos]
    have hnext : (Nat.log 2 a : ℤ) + 1 = (Nat.log 2 a + 1 : ℕ) := rfl
    rw [hnext, hscale, div_lt_div_iff_of_pos_right hpow]
    exact_mod_cast Nat.lt_pow_succ_log_self one_lt_two a
  · rw [← Int.zpow_le_iff_le_log one_lt_two hpos, hscale, div_le_div_iff_of_pos_right hpow]
    exact_mod_cast Nat.pow_log_le_self 2 ha

theorem abs_dyadic (m : ℤ) (k : ℕ) : |(m : ℚ) / 2 ^ k| = m.natAbs / 2 ^ k := by
  rw [abs_div, abs_of_pos (by positivity : (0 : ℚ) < 2 ^ k), ← Int.cast_abs, Int.abs_eq_natAbs]
  rfl

/-- A dyadic rational with its digits filled up to 53, whose first one stands for the exponent. -/
theorem ofRat_fields {m : ℤ} {k : ℕ} (hzero : m ≠ 0) (hm : m.natAbs < 2 ^ 53) (hk : k ≤ 1000) :
    ∃ L n, L ≤ 52 ∧ n = m.natAbs * 2 ^ (52 - L) ∧ 2 ^ 52 ≤ n ∧ n < 2 ^ 53 ∧
      ofRat (m / 2 ^ k) = ofFields ((m : ℚ) / 2 ^ k < 0) (L + 1023 - k) (n - 2 ^ 52) := by
  have hne : m.natAbs ≠ 0 := Int.natAbs_ne_zero.mpr hzero
  obtain ⟨L, hL⟩ : ∃ L, L = Nat.log 2 m.natAbs := ⟨_, rfl⟩
  obtain ⟨n, hn⟩ : ∃ n, n = m.natAbs * 2 ^ (52 - L) := ⟨_, rfl⟩
  have hlog : L ≤ 52 := hL ▸ Nat.lt_succ_iff.mp (Nat.log_lt_of_lt_pow hne hm)
  have hlow : 2 ^ 52 ≤ n := by
    calc 2 ^ 52 = 2 ^ L * 2 ^ (52 - L) := by rw [← pow_add, Nat.add_sub_cancel' hlog]
      _ ≤ n := hn ▸ Nat.mul_le_mul_right _ (hL ▸ Nat.pow_log_le_self 2 hne)
  have hhigh : n < 2 ^ 53 := by
    calc n < 2 ^ (L + 1) * 2 ^ (52 - L) := hn ▸ Nat.mul_lt_mul_of_pos_right
            (hL ▸ Nat.lt_pow_succ_log_self one_lt_two m.natAbs) (by positivity)
      _ = 2 ^ 53 := by rw [← pow_add]; congr 1; omega
  refine ⟨L, n, hlog, hn, hlow, hhigh, ?_⟩
  have hexponent : max (Int.log 2 |(m : ℚ) / 2 ^ k|) (-1022) = (L : ℤ) - k := by
    rw [abs_dyadic, log_dyadic k hne, ← hL]
    exact max_eq_left (by omega)
  have hmantissa : |(m : ℚ) / 2 ^ k| / 2 ^ ((L : ℤ) - k - 52) = (n : ℕ) := by
    have hfill : (2 : ℚ) ^ L * 2 ^ (52 - L) = 2 ^ 52 := by
      rw [← pow_add, Nat.add_sub_cancel' hlog]
    have hunit : (2 : ℚ) ^ ((L : ℤ) - k - 52) = 2 ^ L / 2 ^ k / 2 ^ 52 := by
      rw [zpow_sub₀ two_ne_zero, zpow_sub₀ two_ne_zero, zpow_natCast, zpow_natCast]
      rfl
    rw [abs_dyadic, hunit, hn, Nat.cast_mul, Nat.cast_pow, Nat.cast_ofNat, ← hfill]
    field_simp
  have hmagnitude : min (((L : ℤ) - k + 1022) * 2 ^ 52 + n).toNat 0x7FF0000000000000 =
      (L + 1023 - k) * 2 ^ 52 + (n - 2 ^ 52) := by omega
  have hne' : (m : ℚ) / 2 ^ k ≠ 0 := div_ne_zero (Int.cast_ne_zero.mpr hzero) (by positivity)
  simp only [ofRat, if_neg hne', hexponent, hmantissa, roundHalfEven_natCast, hmagnitude,
    ofFields, Nat.zero_mul, Nat.add_zero, Nat.add_assoc]

/-- **A dyadic rational of at most 53 digits** is a finite double of that value. -/
theorem ofRat_dyadic {m : ℤ} {k : ℕ} (hm : m.natAbs < 2 ^ 53) (hk : k ≤ 1000) :
    (ofRat (m / 2 ^ k)).isFinite = true ∧ (ofRat (m / 2 ^ k)).toRat = m / 2 ^ k := by
  by_cases hzero : m = 0
  · subst hzero
    refine ⟨?_, ?_⟩ <;> simp [ofRat] <;> decide +kernel
  obtain ⟨L, n, hlog, hn, hlow, hhigh, hfields⟩ := ofRat_fields hzero hm hk
  obtain ⟨hfinite, hvalue⟩ := value_ofFields ((m : ℚ) / 2 ^ k < 0)
    (show 0 < L + 1023 - k by omega) (by omega) (show n - 2 ^ 52 < 2 ^ 52 by omega)
  have hscaled : (2 ^ 52 + (n - 2 ^ 52 : ℕ) : ℚ) * 2 ^ (L + 1023 - k) / 2 ^ 1075 =
      |(m : ℚ) / 2 ^ k| := by
    have hsum : (2 ^ 52 + (n - 2 ^ 52 : ℕ) : ℚ) = n := by
      rw [Nat.cast_sub hlow]
      push_cast
      ring
    have hall : (2 : ℚ) ^ (52 - L) * 2 ^ (L + 1023 - k) * 2 ^ k = 2 ^ 1075 := by
      rw [← pow_add, ← pow_add]
      congr 1
      omega
    rw [abs_dyadic, hsum, hn, Nat.cast_mul, Nat.cast_pow, Nat.cast_ofNat, ← hall]
    field_simp
  rw [hfields, hvalue]
  refine ⟨hfinite, ?_⟩
  simp only [hscaled, decide_eq_true_eq]
  split
  · rename_i hnegative
    rw [abs_of_neg hnegative, neg_neg]
  · rename_i hnonneg
    rw [abs_of_nonneg (not_lt.mp hnonneg)]

/-! ### Arithmetic -/

/-- The sum of two finite doubles, not both negative zeros. -/
def add (a b : Double) : Double := ofRat (a.toRat + b.toRat)

def sub (a b : Double) : Double := a.add b.neg

/-- The quotient of two finite doubles, the second not zero. -/
def div (a b : Double) : Double :=
  let magnitude := ofRat |a.toRat / b.toRat|
  if a.negative = b.negative then magnitude else magnitude.neg

/-- A third of minus one, and a negative zero. -/
example : div (ofRat (-1)) (ofRat 3) = ofRat (-1 / 3) ∧
    div (neg (ofRat 0)) (ofRat 256) = ⟨0x8000000000000000⟩ := by decide +kernel

theorem xor_and (a b mask : UInt64) : (a ^^^ b) &&& mask = (a &&& mask) ^^^ (b &&& mask) := by
  rw [← UInt64.toNat_inj]
  simp only [UInt64.toNat_and, UInt64.toNat_xor, Nat.and_xor_distrib_right]

theorem exponent_neg (d : Double) : d.neg.exponent = d.exponent := by
  have hsign : (0x8000000000000000 : UInt64) >>> 52 &&& 0x7FF = 0 := rfl
  rw [exponent, neg, UInt64.shiftRight_xor, xor_and, hsign, UInt64.xor_zero]
  rfl

theorem fraction_neg (d : Double) : d.neg.fraction = d.fraction := by
  have hsign : (0x8000000000000000 : UInt64) &&& 0xFFFFFFFFFFFFF = 0 := rfl
  rw [fraction, neg, xor_and, hsign, UInt64.xor_zero]
  rfl

theorem negative_neg (d : Double) : d.neg.negative = !d.negative := by
  have hsign : (0x8000000000000000 : UInt64) >>> 63 = 1 := rfl
  have hbit : d.bits >>> 63 = 0 ∨ d.bits >>> 63 = 1 := by
    have hlt : (d.bits >>> 63).toNat < 2 := by
      rw [UInt64.toNat_shiftRight, Nat.shiftRight_eq_div_pow]
      exact Nat.div_lt_of_lt_mul d.bits.toNat_lt
    rw [← UInt64.toNat_inj, ← UInt64.toNat_inj]
    show _ = 0 ∨ _ = 1
    omega
  rw [negative, negative, neg, UInt64.shiftRight_xor, hsign]
  rcases hbit with h | h <;> rw [h] <;> rfl

@[simp] theorem isFinite_neg (d : Double) : d.neg.isFinite = d.isFinite := by
  rw [isFinite, exponent_neg, isFinite]

@[simp] theorem toRat_neg (d : Double) : d.neg.toRat = -d.toRat := by
  simp only [toRat, exponent_neg, fraction_neg, negative_neg]
  cases d.negative <;> simp

theorem toRat_sign (d : Double) :
    (d.negative = false → 0 ≤ d.toRat) ∧ (d.negative = true → d.toRat ≤ 0) := by
  have hscaled : (0 : ℚ) ≤ if d.exponent = 0 then (d.fraction.toNat : ℚ) / 2 ^ 1074
      else (2 ^ 52 + d.fraction.toNat : ℚ) * 2 ^ d.exponent.toNat / 2 ^ 1075 := by
    split <;> positivity
  refine ⟨fun h => ?_, fun h => ?_⟩
  · simpa only [toRat, h, Bool.false_eq_true, if_false] using hscaled
  · simpa only [toRat, h, if_true, neg_nonpos] using hscaled

/-- A number that needs no rounding. -/
def Dyadic (q : ℚ) : Prop := ∃ (m : ℤ) (k : ℕ), m.natAbs < 2 ^ 53 ∧ k ≤ 1000 ∧ q = m / 2 ^ k

/-- The double is this number. -/
structure Is (d : Double) (q : ℚ) : Prop where
  isFinite : d.isFinite = true
  toRat : d.toRat = q

theorem is_ofRat {q : ℚ} (h : Dyadic q) : (ofRat q).Is q := by
  obtain ⟨m, k, hm, hk, rfl⟩ := h
  obtain ⟨hfinite, hvalue⟩ := ofRat_dyadic hm hk
  exact ⟨hfinite, hvalue⟩

theorem Is.neg {d : Double} {q : ℚ} (h : d.Is q) : d.neg.Is (-q) :=
  ⟨(isFinite_neg d).trans h.isFinite, (toRat_neg d).trans (congrArg _ h.toRat)⟩

theorem Is.add {a b : Double} {p q : ℚ} (ha : a.Is p) (hb : b.Is q) (h : Dyadic (p + q)) :
    (a.add b).Is (p + q) := by
  rw [Double.add, ha.toRat, hb.toRat]
  exact is_ofRat h

theorem Is.sub {a b : Double} {p q : ℚ} (ha : a.Is p) (hb : b.Is q) (h : Dyadic (p - q)) :
    (a.sub b).Is (p - q) := by
  rw [sub_eq_add_neg] at h ⊢
  exact ha.add hb.neg h

theorem Is.div {a b : Double} {p q : ℚ} (ha : a.Is p) (hb : b.Is q) (h : Dyadic |p / q|) :
    (a.div b).Is (p / q) := by
  have hmagnitude := is_ofRat h
  obtain ⟨ha0, ha1⟩ := toRat_sign a
  obtain ⟨hb0, hb1⟩ := toRat_sign b
  rw [ha.toRat] at ha0 ha1
  rw [hb.toRat] at hb0 hb1
  rw [Double.div, ha.toRat, hb.toRat]
  by_cases hsign : a.negative = b.negative
  · have hnonneg : 0 ≤ p / q := by
      cases hn : b.negative with
      | false => exact div_nonneg (ha0 (hsign.trans hn)) (hb0 hn)
      | true => exact div_nonneg_of_nonpos (ha1 (hsign.trans hn)) (hb1 hn)
    rw [abs_of_nonneg hnonneg] at hmagnitude ⊢
    rwa [if_pos hsign]
  · have hnonpos : p / q ≤ 0 := by
      cases hn : b.negative with
      | false => exact div_nonpos_of_nonpos_of_nonneg (ha1 (by simpa [hn] using hsign)) (hb0 hn)
      | true => exact div_nonpos_of_nonneg_of_nonpos (ha0 (by simpa [hn] using hsign)) (hb1 hn)
    rw [abs_of_nonpos hnonpos] at hmagnitude ⊢
    rw [if_neg hsign]
    simpa only [neg_neg] using hmagnitude.neg

end Double

end TraceForge.Library
