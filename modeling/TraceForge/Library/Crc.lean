import TraceForge.Library.LittleEndian

/-! Reflected cyclic redundancy checks, one bit at a time.

The register shifts down and feeds the polynomial back when a one falls out. The step is linear
over exclusive or, and invertible when the polynomial's top coefficient is one; `w` bits
of input therefore reach the register of width `w` one to one. Two messages of one length that
differ only inside a window of `w` bits leave different registers (`register_burst`), and the
window may overlap the stored check, because a message with its check is itself a message whose
register is a constant (`register_check`). -/
namespace TraceForge.Library.Crc
open LittleEndian

variable {w : Nat} (poly : BitVec w)

/-- One place down; the bit that falls out feeds the polynomial back. -/
def shift (r : BitVec w) : BitVec w :=
  (r >>> 1) ^^^ (if r.getLsbD 0 then poly else 0#w)

def shifts : Nat → BitVec w → BitVec w
  | 0, r => r
  | n + 1, r => shifts n (shift poly r)

/-- One octet into the register. -/
def feed (r : BitVec w) (b : UInt8) : BitVec w :=
  shifts poly 8 (r ^^^ b.toBitVec.setWidth w)

def register (r : BitVec w) (bytes : List UInt8) : BitVec w := bytes.foldl (feed poly) r

/-- A field as a register value. -/
def pack (w : Nat) (bytes : List UInt8) : BitVec w := BitVec.ofNat w (combine bytes)

/-! ### The step is linear and invertible -/

theorem shift_xor (a b : BitVec w) : shift poly (a ^^^ b) = shift poly a ^^^ shift poly b := by
  apply BitVec.eq_of_getLsbD_eq
  intro i _
  simp only [shift, BitVec.getLsbD_xor, BitVec.ushiftRight_xor_distrib]
  generalize (a >>> 1).getLsbD i = x
  generalize (b >>> 1).getLsbD i = y
  cases a.getLsbD 0 <;> cases b.getLsbD 0 <;> cases x <;> cases y <;>
    cases h : poly.getLsbD i <;> simp [h]

theorem shifts_xor (n : Nat) (a b : BitVec w) :
    shifts poly n (a ^^^ b) = shifts poly n a ^^^ shifts poly n b := by
  induction n generalizing a b with
  | zero => rfl
  | succ n ih => rw [shifts, shifts, shifts, shift_xor, ih]

theorem shifts_add (m n : Nat) (r : BitVec w) :
    shifts poly (m + n) r = shifts poly n (shifts poly m r) := by
  induction m generalizing r with
  | zero => rw [Nat.zero_add, shifts]
  | succ m ih => rw [Nat.succ_add, shifts, shifts, ih]

/-- Nothing but zero shifts to zero: the fed-back polynomial has the one bit a shifted
register cannot have. -/
theorem shift_eq_zero {r : BitVec w} (hp : poly.msb = true) (h : shift poly r = 0#w) :
    r = 0#w := by
  have hw : 0 < w := by
    rcases Nat.eq_zero_or_pos w with rfl | hw
    · simp [BitVec.msb] at hp
    · exact hw
  cases hr : r.getLsbD 0
  · rw [shift, hr] at h
    apply BitVec.eq_of_getLsbD_eq
    intro i hi
    cases i with
    | zero => simpa using hr
    | succ i =>
      have hbit := congrArg (fun x : BitVec w => x.getLsbD i) h
      simpa [Nat.add_comm] using hbit
  · rw [shift, hr] at h
    have hbit := congrArg (fun x : BitVec w => x.getLsbD (w - 1)) h
    have hout : w ≤ 1 + (w - 1) := by omega
    rw [BitVec.msb_eq_getLsbD_last] at hp
    simp [hp, BitVec.getLsbD_of_ge r _ hout] at hbit

theorem shift_injective (hp : poly.msb = true) {a b : BitVec w}
    (h : shift poly a = shift poly b) : a = b := by
  have hz : shift poly (a ^^^ b) = 0#w := by rw [shift_xor, h, BitVec.xor_self]
  exact BitVec.xor_eq_zero_iff.mp (shift_eq_zero poly hp hz)

theorem shifts_injective (hp : poly.msb = true) (n : Nat) {a b : BitVec w}
    (h : shifts poly n a = shifts poly n b) : a = b := by
  induction n generalizing a b with
  | zero => exact h
  | succ n ih => exact shift_injective poly hp (ih h)

theorem register_append (r : BitVec w) (a b : List UInt8) :
    register poly r (a ++ b) = register poly (register poly r a) b := List.foldl_append

theorem feed_injective (hp : poly.msb = true) {a b : BitVec w} (x : UInt8)
    (h : feed poly a x = feed poly b x) : a = b :=
  (BitVec.xor_left_inj _).mp (shifts_injective poly hp 8 h)

theorem register_injective (hp : poly.msb = true) (bytes : List UInt8) {a b : BitVec w}
    (h : register poly a bytes = register poly b bytes) : a = b := by
  induction bytes generalizing a b with
  | nil => exact h
  | cons x rest ih => exact feed_injective poly hp x (ih h)

/-! ### A window of input no wider than the register

Feeding octets one at a time is the same as laying the whole window over the register and
shifting it out at the end: an octet placed eight bits up moves down eight places untouched. -/

theorem pack_cons (b : UInt8) (rest : List UInt8) :
    pack w (b :: rest) = b.toBitVec.setWidth w ^^^ (pack w rest <<< 8) := by
  apply BitVec.eq_of_getLsbD_eq
  intro i hi
  have hb : b.toNat < 2 ^ 8 := b.toNat_lt
  have hbits : (b.toNat + 256 * combine rest).testBit i =
      if i < 8 then b.toNat.testBit i else (combine rest).testBit (i - 8) := by
    rw [Nat.add_comm]
    exact Nat.testBit_two_pow_mul_add (combine rest) hb i
  have hpack : (pack w (b :: rest)).getLsbD i =
      if i < 8 then b.toNat.testBit i else (combine rest).testBit (i - 8) := by
    rw [pack, combine, BitVec.getLsbD_ofNat, hbits]
    simp [hi]
  have hlow : (b.toBitVec.setWidth w).getLsbD i = b.toNat.testBit i := by
    rw [BitVec.getLsbD_setWidth]
    simp [hi, BitVec.getLsbD]
  have hhigh : (pack w rest <<< 8).getLsbD i =
      (!decide (i < 8) && (combine rest).testBit (i - 8)) := by
    have hin : i - 8 < w := by omega
    rw [BitVec.getLsbD_shiftLeft, pack, BitVec.getLsbD_ofNat]
    simp [hi, hin]
  rw [hpack, BitVec.getLsbD_xor, hlow, hhigh]
  by_cases h8 : i < 8
  · simp [h8]
  · have hout : b.toNat.testBit i = false :=
      Nat.testBit_lt_two_pow (Nat.lt_of_lt_of_le hb (Nat.pow_le_pow_right (by decide) (by omega)))
    simp [h8, hout]

/-- A value with room above it comes back down from `k` places up. -/
theorem shifts_shiftLeft (k : Nat) (x : BitVec w) (hx : x.toNat * 2 ^ k < 2 ^ w) :
    shifts poly k (x <<< k) = x := by
  induction k with
  | zero => simp [shifts]
  | succ k ih =>
    have htwice : x.toNat * 2 ^ (k + 1) = 2 * (x.toNat * 2 ^ k) := by ring
    have hx' : x.toNat * 2 ^ k < 2 ^ w := by omega
    have hone : shift poly (x <<< (k + 1)) = x <<< k := by
      have hzero : (x <<< (k + 1)).getLsbD 0 = false := by simp
      rw [shift, hzero]
      apply BitVec.eq_of_toNat_eq
      simp only [Bool.false_eq_true, if_false, BitVec.xor_zero, BitVec.toNat_ushiftRight,
        BitVec.toNat_shiftLeft, Nat.shiftLeft_eq, Nat.shiftRight_eq_div_pow]
      rw [Nat.mod_eq_of_lt hx, Nat.mod_eq_of_lt hx', htwice]
      omega
    rw [shifts, hone, ih hx']

theorem pack_toNat {bytes : List UInt8} (h : 8 * bytes.length ≤ w) :
    (pack w bytes).toNat = combine bytes := by
  have hlt := combine_lt bytes
  have hw : 256 ^ bytes.length ≤ 2 ^ w := by
    rw [show (256 : Nat) = 2 ^ 8 from rfl, ← Nat.pow_mul]
    exact Nat.pow_le_pow_right (by decide) h
  rw [pack, BitVec.toNat_ofNat, Nat.mod_eq_of_lt (by omega)]

theorem register_window (r : BitVec w) (bytes : List UInt8) (h : 8 * bytes.length ≤ w) :
    register poly r bytes = shifts poly (8 * bytes.length) (r ^^^ pack w bytes) := by
  induction bytes generalizing r with
  | nil => simp [register, pack, combine, shifts]
  | cons b rest ih =>
    have hl : (b :: rest).length = rest.length + 1 := rfl
    rw [hl] at h ⊢
    have hroom : (pack w rest).toNat * 2 ^ 8 < 2 ^ w := by
      rw [pack_toNat (by omega)]
      have hlt := combine_lt rest
      have hw : 256 ^ (rest.length + 1) ≤ 2 ^ w := by
        rw [show (256 : Nat) = 2 ^ 8 from rfl, ← Nat.pow_mul]
        exact Nat.pow_le_pow_right (by decide) h
      rw [Nat.pow_succ] at hw
      omega
    have hstep : feed poly r b ^^^ pack w rest =
        shifts poly 8 (r ^^^ pack w (b :: rest)) := by
      rw [pack_cons, ← BitVec.xor_assoc, shifts_xor, shifts_shiftLeft poly 8 _ hroom, feed]
    show register poly (feed poly r b) rest = _
    rw [ih _ (by omega), hstep, ← shifts_add]
    congr 1
    omega

theorem pack_injective {a b : List UInt8} (hl : a.length = b.length) (ha : 8 * a.length ≤ w)
    (h : pack w a = pack w b) : a = b := by
  apply combine_injective hl
  rw [← pack_toNat ha, ← pack_toNat (hl ▸ ha), h]

/-- **Bursts are detected**: two messages of one length that differ, and differ only in a
window no wider than the register, leave different registers. -/
theorem register_burst (hp : poly.msb = true) (r : BitVec w) (before : List UInt8)
    {a b : List UInt8} (after : List UInt8) (hl : a.length = b.length)
    (ha : 8 * a.length ≤ w) (hne : a ≠ b) :
    register poly r (before ++ a ++ after) ≠ register poly r (before ++ b ++ after) := by
  intro h
  simp only [register_append] at h
  have hwin := register_injective poly hp after h
  rw [register_window poly _ a ha, register_window poly _ b (hl ▸ ha), hl] at hwin
  have hpack := (BitVec.xor_right_inj _).mp (shifts_injective poly hp _ hwin)
  exact hne (pack_injective hl ha hpack)

/-- A stored check is the right one exactly when the message together with its check leaves
the constant the output mask alone would leave. -/
theorem register_check (hp : poly.msb = true) (r out : BitVec w) (message check : List UInt8)
    (hw : 8 * check.length = w) :
    register poly r (message ++ check) = shifts poly w out ↔
      pack w check = register poly r message ^^^ out := by
  rw [register_append, register_window poly _ check (by omega), hw]
  constructor
  · intro h
    have heq := shifts_injective poly hp w h
    rw [← heq, ← BitVec.xor_assoc, BitVec.xor_self, BitVec.zero_xor]
  · intro h
    rw [h, ← BitVec.xor_assoc, BitVec.xor_self, BitVec.zero_xor]

end TraceForge.Library.Crc
