import Mathlib.Tactic.Ring

/-! Signed 64-bit arithmetic where it does not overflow.

An operation on two's-complement numbers is the operation on integers as long as its result is
`InRange`. -/
namespace TraceForge.Library.Signed

def InRange (z : Int) : Prop := -2 ^ 63 ≤ z ∧ z < 2 ^ 63

theorem bmod_inRange {z : Int} (h : InRange z) : z.bmod (2 ^ 64) = z := by
  obtain ⟨hlow, hhigh⟩ := h
  have hcast : ((2 ^ 64 : Nat) : Int) = 2 ^ 64 := rfl
  refine Int.bmod_eq_of_le_mul_two ?_ ?_ <;> omega

theorem toInt_add {a b : Int64} (h : InRange (a.toInt + b.toInt)) :
    (a + b).toInt = a.toInt + b.toInt := by
  rw [Int64.toInt_add, bmod_inRange h]

theorem toInt_sub {a b : Int64} (h : InRange (a.toInt - b.toInt)) :
    (a - b).toInt = a.toInt - b.toInt := by
  rw [Int64.toInt_sub, bmod_inRange h]

theorem toInt_mul {a b : Int64} (h : InRange (a.toInt * b.toInt)) :
    (a * b).toInt = a.toInt * b.toInt := by
  rw [Int64.toInt_mul, bmod_inRange h]

/-- The remainder and, unless the divisor is negative, the quotient are always in range. -/
theorem toInt_div {a b : Int64} (h : 0 < b.toInt) : (a / b).toInt = a.toInt.tdiv b.toInt := by
  refine Int64.toInt_div_of_ne_right _ _ ?_
  rintro rfl
  exact absurd h (by decide)

theorem toInt_toInt64 {n : UInt64} (h : n.toNat < 2 ^ 63) : n.toInt64.toInt = n.toNat := by
  have hcast : n.toInt64 = Int64.ofNat n.toNat := by
    rw [← UInt64.toInt64_ofNat', UInt64.ofNat_toNat]
  rw [hcast, Int64.toInt_ofNat_of_lt h]

theorem toNat_toUInt64 {x : Int64} (h : 0 ≤ x.toInt) : (x.toUInt64.toNat : Int) = x.toInt := by
  have hnonneg : 0 ≤ x := by rwa [Int64.le_iff_toInt_le]
  rw [Int64.toNat_toUInt64_of_le hnonneg, Int64.toNatClampNeg, Int.toNat_of_nonneg h]

end TraceForge.Library.Signed
