import TraceForge.Library.LittleEndian

/-! The Protocol Buffers wire format, as far as proto3 messages of scalar, string and message
fields need it.

A field is a tag and a value. A field without explicit presence is written only when it differs
from its default; a message field is written whenever it is set. Each field form has a bound on
what it can take. -/
namespace TraceForge.Library.ProtoWire

/-- Seven bits an octet, low bits first, a continuation bit on every octet but the last. A
64-bit value takes at most ten. -/
def varintFrom : Nat → UInt64 → List UInt8
  | 0, _ => []
  | n + 1, v => if v < 128 then [v.toUInt8] else (v.toUInt8 ||| 0x80) :: varintFrom n (v >>> 7)

def varint (v : UInt64) : List UInt8 := varintFrom 10 v

def tag (field wireType : Nat) : List UInt8 := varint (UInt64.ofNat (8 * field + wireType))

/-- Integers, enumerations and booleans. -/
def varintField (field : Nat) (v : UInt64) : List UInt8 :=
  if v = 0 then [] else tag field 0 ++ varint v

/-- Doubles, by their bits. -/
def fixed64Field (field : Nat) (bits : UInt64) : List UInt8 :=
  if bits = 0 then [] else tag field 1 ++ LittleEndian.split 8 bits.toNat

def messageField (field : Nat) (message : List UInt8) : List UInt8 :=
  tag field 2 ++ (varint (UInt64.ofNat message.length) ++ message)

def stringField (field : Nat) (value : List UInt8) : List UInt8 :=
  if value = [] then [] else messageField field value

/-- The documentation's own example: 150 in field 1. -/
example : varintField 1 150 = [0x08, 0x96, 0x01] := by decide

theorem varintFrom_length (n : Nat) (v : UInt64) : (varintFrom n v).length ≤ n := by
  induction n generalizing v with
  | zero => exact Nat.le_refl _
  | succ n ih =>
    rw [varintFrom]
    split
    · exact Nat.succ_le_succ (Nat.zero_le n)
    · exact Nat.succ_le_succ (ih _)

theorem varint_length (v : UInt64) : (varint v).length ≤ 10 := varintFrom_length 10 v

theorem varintField_length (field : Nat) (v : UInt64) : (varintField field v).length ≤ 20 := by
  have ht : (tag field 0).length ≤ 10 := varint_length _
  have hv := varint_length v
  rw [varintField]
  split
  · exact Nat.zero_le _
  · rw [List.length_append]
    omega

theorem fixed64Field_length (field : Nat) (bits : UInt64) :
    (fixed64Field field bits).length ≤ 18 := by
  have ht : (tag field 1).length ≤ 10 := varint_length _
  rw [fixed64Field]
  split
  · exact Nat.zero_le _
  · rw [List.length_append, LittleEndian.split_length]
    omega

theorem messageField_length (field : Nat) (message : List UInt8) :
    (messageField field message).length ≤ 20 + message.length := by
  have ht : (tag field 2).length ≤ 10 := varint_length _
  have hl := varint_length (UInt64.ofNat message.length)
  rw [messageField, List.length_append, List.length_append]
  omega

theorem stringField_length (field : Nat) (value : List UInt8) :
    (stringField field value).length ≤ 20 + value.length := by
  rw [stringField]
  split
  · exact Nat.zero_le _
  · exact messageField_length field value

end TraceForge.Library.ProtoWire
