import Mathlib.Algebra.Order.Field.Rat

/-! Double-precision numbers as bit patterns.

A double is its 64 bits. What programs ask of one here is whether it is finite and how it
compares with a literal; both are read off the bits, and a finite double is the rational the
format assigns to it. -/
namespace TraceForge.Library

structure Double where
  bits : UInt64
deriving DecidableEq

namespace Double

def negative (d : Double) : Bool := d.bits >>> 63 == 1

def exponent (d : Double) : UInt64 := (d.bits >>> 52) &&& 0x7FF

def fraction (d : Double) : UInt64 := d.bits &&& 0xFFFFFFFFFFFFF

/-- `std::isfinite`. -/
def isFinite (d : Double) : Bool := d.exponent != 0x7FF

def isNaN (d : Double) : Bool := d.exponent == 0x7FF && d.fraction != 0

/-- The value of the bits when they are finite; subnormals have exponent field zero. -/
def toRat (d : Double) : ℚ :=
  let scaled : ℚ :=
    if d.exponent = 0 then (d.fraction.toNat : ℚ) / 2 ^ 1074
    else (2 ^ 52 + d.fraction.toNat : ℚ) * 2 ^ d.exponent.toNat / 2 ^ 1075
  if d.negative then -scaled else scaled

/-- `d < q` for a literal `q`: false on a NaN, the sign on an infinity. -/
def lessThan (d : Double) (q : ℚ) : Bool :=
  if d.isNaN then false else if d.isFinite then decide (d.toRat < q) else d.negative

/-- `d > q` for a literal `q`. -/
def greaterThan (d : Double) (q : ℚ) : Bool :=
  if d.isNaN then false else if d.isFinite then decide (q < d.toRat) else !d.negative

theorem not_isNaN {d : Double} (h : d.isFinite = true) : d.isNaN = false := by
  have hne : (d.exponent == 0x7FF) = false := by simpa [isFinite] using h
  rw [isNaN, hne, Bool.false_and]

theorem lessThan_finite {d : Double} (h : d.isFinite = true) (q : ℚ) :
    d.lessThan q = decide (d.toRat < q) := by
  rw [lessThan, not_isNaN h, h]
  rfl

theorem greaterThan_finite {d : Double} (h : d.isFinite = true) (q : ℚ) :
    d.greaterThan q = decide (q < d.toRat) := by
  rw [greaterThan, not_isNaN h, h]
  rfl

/-- `1.0`, minus one half and an infinity: the format's own encodings. -/
example : toRat ⟨0x3FF0000000000000⟩ = 1 ∧ toRat ⟨0xBFE0000000000000⟩ = -1 / 2 ∧
    isFinite ⟨0x7FF0000000000000⟩ = false := by decide +kernel

end Double

end TraceForge.Library
