import Mathlib.Data.List.Basic
import Mathlib.Tactic.Ring

/-! Fixed-width little-endian fields.

A field of `n` octets holds a number with the least significant octet first. `split` writes
it and `combine` reads it: each undoes the other, on every number that fits the width and on
every list of octets. -/
namespace TraceForge.Library.LittleEndian

/-- The `n` low octets of `v`. -/
def split : Nat → Nat → List UInt8
  | 0, _ => []
  | n + 1, v => UInt8.ofNat v :: split n (v / 256)

/-- The number a list of octets spells. -/
def combine : List UInt8 → Nat
  | [] => 0
  | b :: rest => b.toNat + 256 * combine rest

@[simp] theorem split_length (n v : Nat) : (split n v).length = n := by
  induction n generalizing v with
  | zero => rfl
  | succ n ih => simp only [split, List.length_cons, ih]

theorem combine_lt (bytes : List UInt8) : combine bytes < 256 ^ bytes.length := by
  induction bytes with
  | nil => simp [combine]
  | cons b rest ih =>
    have hb := b.toNat_lt
    rw [combine, List.length_cons, Nat.pow_succ]
    omega

theorem combine_append (a b : List UInt8) :
    combine (a ++ b) = combine a + 256 ^ a.length * combine b := by
  induction a with
  | nil => simp [combine]
  | cons x rest ih =>
    rw [List.cons_append, combine, combine, ih, List.length_cons, Nat.pow_succ]
    ring

theorem combine_split (n v : Nat) : combine (split n v) = v % 256 ^ n := by
  induction n generalizing v with
  | zero => simp [split, combine, Nat.mod_one]
  | succ n ih =>
    rw [split, combine, ih, Nat.pow_succ', Nat.mod_mul]
    rfl

theorem combine_split_of_lt {n v : Nat} (h : v < 256 ^ n) : combine (split n v) = v := by
  rw [combine_split, Nat.mod_eq_of_lt h]

theorem split_combine (bytes : List UInt8) : split bytes.length (combine bytes) = bytes := by
  induction bytes with
  | nil => rfl
  | cons b rest ih =>
    have hb := b.toNat_lt
    have hlow : UInt8.ofNat (b.toNat + 256 * combine rest) = b := by
      apply UInt8.toNat_inj.mp
      rw [UInt8.toNat_ofNat']
      omega
    have hhigh : (b.toNat + 256 * combine rest) / 256 = combine rest := by omega
    rw [List.length_cons, combine, split, hlow, hhigh, ih]

/-- A field of the right width is the field of the number it spells. -/
theorem eq_split_of_combine {n v : Nat} {bytes : List UInt8} (hn : bytes.length = n)
    (hv : combine bytes = v) : bytes = split n v := by
  rw [← hn, ← hv, split_combine]

/-- Only the low octets of a number are written. -/
theorem split_mod (n v : Nat) : split n (v % 256 ^ n) = split n v :=
  (eq_split_of_combine (split_length n v) (combine_split n v)).symm

theorem combine_injective {a b : List UInt8} (hl : a.length = b.length)
    (h : combine a = combine b) : a = b := by
  rw [← split_combine a, ← split_combine b, hl, h]

end TraceForge.Library.LittleEndian
