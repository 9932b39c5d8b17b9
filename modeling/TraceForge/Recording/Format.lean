import TraceForge.Library.Crc
import TraceForge.Library.Fields
import TraceForge.Telemetry.Event

/-! The constants of the recording format, its little-endian fields and its checksum, as
`recording/log.hpp` and `recording/log.cpp` have them.

Each function here has one lemma that says what it computes in the terms of the library:
`encode_next` and `decode_toNat` for the fields, `crc32c_toBitVec` for the checksum. -/
namespace TraceForge.Recording
open Library

def kLogFormatVersion : UInt64 := 1
def kRecordFormatVersion : UInt64 := 1
def kFileHeaderSize : UInt64 := 32
def kRecordHeaderSize : UInt64 := 36
def kMaximumPayloadSize : UInt32 := 4 * 1024 * 1024

/-- `TFLOG`, a carriage return, a line feed and `0x1A`. -/
def kFileMagic : List UInt8 := [0x54, 0x46, 0x4C, 0x4F, 0x47, 0x0D, 0x0A, 0x1A]

/-- `TFR1`. -/
def kRecordMagic : List UInt8 := [0x54, 0x46, 0x52, 0x31]

@[simp] theorem kFileHeaderSize_toNat : kFileHeaderSize.toNat = 32 := rfl
@[simp] theorem kRecordHeaderSize_toNat : kRecordHeaderSize.toNat = 36 := rfl
@[simp] theorem kMaximumPayloadSize_toNat : kMaximumPayloadSize.toNat = 4194304 := rfl

/-! ### Fields -/

/-- Writes the `size` low bytes of `value` from `offset` on. A signed value is passed as its
two's complement. -/
def encodeLittleEndian : Nat → List UInt8 → Nat → UInt64 → List UInt8
  | 0, destination, _, _ => destination
  | size + 1, destination, offset, remaining =>
    encodeLittleEndian size (destination.set offset (remaining &&& 0xFF).toUInt8) (offset + 1)
      (remaining >>> 8)

/-- The integer of `size` bytes at `offset`; the caller narrows or signs it. -/
def decodeLittleEndian (size : Nat) (source : List UInt8) (offset : Nat) : UInt64 :=
  (List.range size).foldl
    (fun value byte => value ||| (source.getD (offset + byte) 0).toUInt64 <<< (8 * UInt64.ofNat byte)) 0

theorem encodeLittleEndian_length (size : Nat) (destination : List UInt8) (offset : Nat)
    (value : UInt64) :
    (encodeLittleEndian size destination offset value).length = destination.length := by
  induction size generalizing destination offset value with
  | zero => rfl
  | succ size ih => rw [encodeLittleEndian, ih, List.length_set]

theorem low_byte (v : UInt64) : (v &&& 0xFF).toUInt8 = UInt8.ofNat v.toNat := by
  apply UInt8.toNat_inj.mp
  rw [UInt64.toNat_toUInt8, UInt64.toNat_and, UInt8.toNat_ofNat']
  have hmask : (0xFF : UInt64).toNat = 2 ^ 8 - 1 := rfl
  rw [hmask, Nat.and_two_pow_sub_one_eq_mod]
  omega

theorem next_byte (v : UInt64) : (v >>> 8).toNat = v.toNat / 256 := by
  rw [UInt64.toNat_shiftRight, Nat.shiftRight_eq_div_pow]
  rfl

/-- Encoding over `size` bytes puts the field there and moves nothing else. -/
theorem encode_over (size : Nat) (before old after : List UInt8) (value : UInt64)
    (hold : old.length = size) :
    encodeLittleEndian size (before ++ (old ++ after)) before.length value =
      before ++ (LittleEndian.split size value.toNat ++ after) := by
  induction size generalizing before old value with
  | zero =>
    rw [List.length_eq_zero_iff.mp hold]
    rfl
  | succ size ih =>
    cases old with
    | nil => cases hold
    | cons x old =>
      have hset : (before ++ (x :: old ++ after)).set before.length (value &&& 0xFF).toUInt8 =
          (before ++ [(value &&& 0xFF).toUInt8]) ++ (old ++ after) := by
        simp
      have hlen : before.length + 1 = (before ++ [(value &&& 0xFF).toUInt8]).length := by simp
      rw [encodeLittleEndian, hset, hlen, ih _ old _ (Nat.succ_inj.mp hold), low_byte, next_byte,
        LittleEndian.split]
      simp

/-- The next field of a header that is still zero from `offset` on. -/
theorem encode_next (size rest : Nat) (before : List UInt8) (offset : Nat) (value : UInt64)
    (ho : before.length = offset) :
    encodeLittleEndian size (before ++ List.replicate (size + rest) 0) offset value =
      (before ++ LittleEndian.split size value.toNat) ++ List.replicate rest 0 := by
  rw [← ho, List.replicate_add, encode_over size before _ _ value List.length_replicate,
    List.append_assoc]

theorem decode_toNat (size : Nat) (source : List UInt8) (offset : Nat) (hs : size ≤ 8)
    (ho : offset + size ≤ source.length) :
    (decodeLittleEndian size source offset).toNat =
      LittleEndian.combine ((source.drop offset).take size) := by
  induction size with
  | zero => rfl
  | succ n ih =>
    have hn := ih (by omega) (by omega)
    have hlen : ((source.drop offset).take n).length = n := by
      rw [List.length_take, List.length_drop]
      omega
    have hlt := LittleEndian.combine_lt ((source.drop offset).take n)
    rw [hlen] at hlt
    have hin : offset + n < source.length := by omega
    have hb := (source[offset + n]).toNat_lt
    have htake : (source.drop offset).take (n + 1) =
        (source.drop offset).take n ++ [source[offset + n]] := by
      rw [List.take_add_one, List.getElem?_drop, List.getElem?_eq_getElem hin]
      rfl
    have hshift : ((source.getD (offset + n) 0).toUInt64 <<< (8 * UInt64.ofNat n)).toNat =
        2 ^ (8 * n) * source[offset + n].toNat := by
      have hpow : 2 ^ (8 * n) ≤ 2 ^ 56 := Nat.pow_le_pow_right (by decide) (by omega)
      have hamount : (8 * UInt64.ofNat n).toNat % 64 = 8 * n := by
        rw [UInt64.toNat_mul, UInt64.toNat_ofNat']
        have h8 : (8 : UInt64).toNat = 8 := rfl
        rw [h8]
        omega
      have hprod : source[offset + n].toNat * 2 ^ (8 * n) < 2 ^ 64 :=
        Nat.lt_of_le_of_lt (Nat.mul_le_mul_left _ hpow) (by omega)
      rw [List.getD_eq_getElem?_getD, List.getElem?_eq_getElem hin, Option.getD_some,
        UInt64.toNat_shiftLeft, hamount, Nat.shiftLeft_eq, UInt8.toNat_toUInt64,
        Nat.mod_eq_of_lt hprod, Nat.mul_comm]
    have hpow : (256 : Nat) ^ n = 2 ^ (8 * n) := by rw [Nat.pow_mul]
    rw [hpow] at hlt
    rw [decodeLittleEndian, List.range_succ, List.foldl_append, List.foldl_cons, List.foldl_nil,
      UInt64.toNat_or, hshift]
    show (decodeLittleEndian n source offset).toNat ||| _ = _
    rw [hn, Nat.or_comm, ← Nat.two_pow_add_eq_or_of_lt hlt, htake, LittleEndian.combine_append,
      hlen, hpow, LittleEndian.combine, LittleEndian.combine, Nat.mul_zero, Nat.add_zero,
      Nat.add_comm]

/-- The field at `offset` is the field of the number decoded from it. -/
theorem field_of_decode (size : Nat) (source : List UInt8) (offset : Nat) (hs : size ≤ 8)
    (ho : offset + size ≤ source.length) :
    (source.drop offset).take size =
      LittleEndian.split size (decodeLittleEndian size source offset).toNat := by
  apply LittleEndian.eq_split_of_combine _ (decode_toNat size source offset hs ho).symm
  rw [List.length_take, List.length_drop]
  omega

/-- Decoding a header field by field: `before` is what precedes the field. -/
theorem decode_field (size offset : Nat) (before : List (List UInt8)) (field : List UInt8)
    (after : List (List UInt8)) (ho : before.flatten.length = offset) (hf : field.length = size)
    (hs : size ≤ 8) :
    (decodeLittleEndian size (before ++ field :: after).flatten offset).toNat =
      LittleEndian.combine field := by
  have hlen : offset + size ≤ (before ++ field :: after).flatten.length := by
    rw [List.flatten_append, List.flatten_cons, List.length_append, List.length_append]
    omega
  rw [decode_toNat size _ offset hs hlen, ← ho, ← hf, Fields.slice]

/-- A 32-bit field fits the 32-bit integer it is narrowed to. -/
theorem decode_narrow (source : List UInt8) (offset : Nat) (ho : offset + 4 ≤ source.length) :
    (decodeLittleEndian 4 source offset).toUInt32.toNat =
      (decodeLittleEndian 4 source offset).toNat := by
  have hlt := LittleEndian.combine_lt ((source.drop offset).take 4)
  have hlen : ((source.drop offset).take 4).length = 4 := by
    rw [List.length_take, List.length_drop]
    omega
  rw [hlen, ← decode_toNat 4 source offset (by decide) ho] at hlt
  rw [UInt64.toNat_toUInt32]
  omega

/-! ### Checksum -/

def kReflectedCastagnoliPolynomial : UInt32 := 0x82F63B78

/-- The inner loop's body: the mask is all ones exactly when a one falls out. -/
def crc32cBit (checksum : UInt32) : UInt32 :=
  let mask := 0 - (checksum &&& 1)
  (checksum >>> 1) ^^^ (kReflectedCastagnoliPolynomial &&& mask)

def crc32cByte (checksum : UInt32) (byte : UInt8) : UInt32 :=
  (List.range 8).foldl (fun checksum _ => crc32cBit checksum) (checksum ^^^ byte.toUInt32)

def crc32c (bytes : List UInt8) : UInt32 := ~~~ bytes.foldl crc32cByte 0xFFFFFFFF

/-- The standard check value. -/
example : crc32c [0x31, 0x32, 0x33, 0x34, 0x35, 0x36, 0x37, 0x38, 0x39] = 0xE3069283 := by
  decide +kernel

/-- The polynomial and the initial register, as the library's register has them. -/
def polynomial : BitVec 32 := kReflectedCastagnoliPolynomial.toBitVec

theorem polynomial_msb : polynomial.msb = true := by decide

theorem crc32cBit_toBitVec (c : UInt32) :
    (crc32cBit c).toBitVec = Crc.shift polynomial c.toBitVec := by
  have hlow : (c &&& 1).toBitVec = BitVec.setWidth 32 (BitVec.ofBool (c.toBitVec.getLsbD 0)) := by
    rw [UInt32.toBitVec_and]
    exact BitVec.and_one_eq_setWidth_ofBool_getLsbD
  have hmask : (0 - (c &&& 1)).toBitVec =
      if c.toBitVec.getLsbD 0 then BitVec.allOnes 32 else 0#32 := by
    rw [UInt32.toBitVec_sub, hlow]
    cases c.toBitVec.getLsbD 0 <;> rfl
  simp only [crc32cBit, Crc.shift, UInt32.toBitVec_xor, UInt32.toBitVec_and, hmask]
  have hshift : (c >>> 1).toBitVec = c.toBitVec >>> 1 := by
    rw [UInt32.toBitVec_shiftRight]
    rfl
  rw [hshift]
  cases c.toBitVec.getLsbD 0
  · simp
  · simp only [if_true, BitVec.and_allOnes, polynomial]

theorem crc32cByte_toBitVec (c : UInt32) (b : UInt8) :
    (crc32cByte c b).toBitVec = Crc.feed polynomial c.toBitVec b := by
  have hb : b.toUInt32.toBitVec = b.toBitVec.setWidth 32 := rfl
  have h8 : crc32cByte c b = crc32cBit (crc32cBit (crc32cBit (crc32cBit (crc32cBit (crc32cBit
      (crc32cBit (crc32cBit (c ^^^ b.toUInt32)))))))) := rfl
  simp only [h8, crc32cBit_toBitVec, UInt32.toBitVec_xor, hb, Crc.feed, Crc.shifts]

theorem crc32c_toBitVec (bytes : List UInt8) :
    (crc32c bytes).toBitVec = ~~~ Crc.register polynomial (BitVec.allOnes 32) bytes := by
  have hfold (c : UInt32) : (bytes.foldl crc32cByte c).toBitVec =
      Crc.register polynomial c.toBitVec bytes := by
    induction bytes generalizing c with
    | nil => rfl
    | cons b rest ih =>
      rw [List.foldl_cons, ih, crc32cByte_toBitVec]
      rfl
  rw [crc32c, UInt32.toBitVec_not, hfold]
  rfl

end TraceForge.Recording
