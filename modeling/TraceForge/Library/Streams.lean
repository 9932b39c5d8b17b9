import Mathlib.Algebra.Group.Nat.Defs
import Mathlib.Data.List.Basic

/-! Files, and the byte streams that read and write them.

A file is a byte string short enough for the signed 64-bit offsets that streams use. An input
stream is a file, a position in it and two flags; a read on a stream with a flag set yields
nothing. An output stream is the file it has stored so far, how much of it a completed flush
covers, and a device that decides which operation fails. -/
namespace TraceForge.Library

/-- A file's content, addressable by a signed 64-bit offset. -/
structure File where
  bytes : List UInt8
  length_lt : bytes.length < 2 ^ 63

namespace File

@[ext] theorem ext {a b : File} (h : a.bytes = b.bytes) : a = b := by
  cases a
  cases b
  cases h
  rfl

def empty : File := ⟨[], by decide⟩

def size (f : File) : UInt64 := UInt64.ofNat f.bytes.length

theorem size_toNat (f : File) : f.size.toNat = f.bytes.length := by
  have := f.length_lt
  rw [size, UInt64.toNat_ofNat']
  omega

/-- The first `n` bytes. -/
def cut (f : File) (n : Nat) : File :=
  ⟨f.bytes.take n, Nat.lt_of_le_of_lt (List.length_take_le' n f.bytes) f.length_lt⟩

theorem cut_bytes (f : File) (n : Nat) : (f.cut n).bytes = f.bytes.take n := rfl

theorem cut_prefix (f : File) (n : Nat) : (f.cut n).bytes <+: f.bytes := List.take_prefix n f.bytes

theorem cut_length (f : File) : f.cut f.bytes.length = f := ext (List.take_length)

/-- More bytes at the end, where the file may grow that far. -/
def append? (f : File) (bytes : List UInt8) : Option File :=
  if h : (f.bytes ++ bytes).length < 2 ^ 63 then some ⟨f.bytes ++ bytes, h⟩ else none

theorem append?_bytes {f g : File} {bytes : List UInt8} (h : f.append? bytes = some g) :
    g.bytes = f.bytes ++ bytes := by
  unfold append? at h
  split at h
  · cases h
    rfl
  · cases h

/-- `resize_file`: cut, or extended by zeros. -/
def resize? (f : File) (n : Nat) : Option File :=
  if n ≤ f.bytes.length then some (f.cut n)
  else f.append? (List.replicate (n - f.bytes.length) 0)

theorem resize?_of_le {f : File} {n : Nat} (h : n ≤ f.bytes.length) :
    f.resize? n = some (f.cut n) := if_pos h

end File

/-! ### Reading -/

/-- `std::ifstream`, opened in binary mode. -/
structure IFStream where
  file : File
  pos : Nat
  eofbit : Bool
  failbit : Bool

namespace IFStream

def openFile (f : File) : IFStream := ⟨f, 0, false, false⟩

def good (s : IFStream) : Bool := !s.eofbit && !s.failbit

/-- What `!stream` tests: the end of the file alone is not a failure. -/
def fail (s : IFStream) : Bool := s.failbit

def clear (s : IFStream) : IFStream := {s with eofbit := false, failbit := false}

/-- The bytes a read of `n` takes at the position. -/
def window (s : IFStream) (n : Nat) : List UInt8 := (s.file.bytes.drop s.pos).take n

/-- `read`: the bytes extracted, as many as `gcount` says. A short read sets both flags. -/
def read (n : Nat) (s : IFStream) : List UInt8 × IFStream :=
  if s.good then
    let short := decide ((s.window n).length < n)
    (s.window n, {s with pos := s.pos + (s.window n).length, eofbit := short, failbit := short})
  else ([], {s with failbit := true})

/-- `ignore`: past `n` bytes, or to the end of the file with only `eofbit` set. -/
def ignore (n : Nat) (s : IFStream) : IFStream :=
  if s.good then
    {s with pos := s.pos + (s.window n).length, eofbit := decide ((s.window n).length < n)}
  else {s with failbit := true}

/-- `seekg` to an absolute position, which may lie beyond the end. -/
def seekg (p : Int64) (s : IFStream) : IFStream :=
  if s.failbit then {s with eofbit := false}
  else if p < 0 then {s with eofbit := false, failbit := true}
  else {s with pos := p.toInt.toNat, eofbit := false}

theorem window_length (s : IFStream) (n : Nat) :
    (s.window n).length = min n (s.file.bytes.length - s.pos) := by
  rw [window, List.length_take, List.length_drop]

theorem window_full {s : IFStream} {n : Nat} (h : s.pos + n ≤ s.file.bytes.length) :
    (s.window n).length = n := by
  rw [window_length]
  omega

theorem read_file (s : IFStream) (n : Nat) : (s.read n).2.file = s.file := by
  unfold read
  split <;> rfl

/-- A read moves past exactly the bytes it extracted. -/
theorem read_pos (s : IFStream) (n : Nat) :
    (s.read n).2.pos = s.pos + (s.read n).1.length := by
  unfold read
  split <;> rfl

theorem read_length_le (s : IFStream) (n : Nat) :
    (s.read n).1.length ≤ s.file.bytes.length - s.pos := by
  unfold read
  split
  · show (s.window n).length ≤ _
    rw [window_length]
    omega
  · exact Nat.zero_le _

/-- A read that the file can satisfy. -/
theorem read_full {s : IFStream} {n : Nat} (hg : s.good = true)
    (h : s.pos + n ≤ s.file.bytes.length) :
    s.read n = (s.window n, {s with pos := s.pos + n}) := by
  have he : s.eofbit = false ∧ s.failbit = false := by simpa [good] using hg
  have hshort : decide ((s.window n).length < n) = false := by
    rw [window_full h]
    simp
  rw [read, if_pos hg, hshort, window_full h]
  obtain ⟨file, pos, eofbit, failbit⟩ := s
  obtain ⟨rfl, rfl⟩ := he
  rfl

end IFStream

/-! ### Writing -/

/-- `std::ofstream`, with the device under it. The device answers operation by operation:
`none` is success, `some n` a failure after `n` more bytes were stored. -/
structure OFStream where
  file : File
  flushed : Nat
  isOpen : Bool
  goodbit : Bool
  operations : Nat
  device : Nat → Option Nat

namespace OFStream

def openFile (device : Nat → Option Nat) : OFStream := ⟨File.empty, 0, true, true, 0, device⟩

/-- A stream whose file could not be opened, or is not open yet. -/
def closed (device : Nat → Option Nat) (goodbit : Bool) : OFStream :=
  ⟨File.empty, 0, false, goodbit, 0, device⟩

def write (bytes : List UInt8) (s : OFStream) : OFStream :=
  if s.goodbit then
    let stored := match s.device s.operations with
      | none => bytes
      | some n => bytes.take n
    let failed := (s.device s.operations).isSome
    match s.file.append? stored with
    | some file => {s with file := file, goodbit := !failed, operations := s.operations + 1}
    | none => {s with goodbit := false, operations := s.operations + 1}
  else s

def flush (s : OFStream) : OFStream :=
  if s.goodbit then
    match s.device s.operations with
    | none => {s with flushed := s.file.bytes.length, operations := s.operations + 1}
    | some _ => {s with goodbit := false, operations := s.operations + 1}
  else s

/-- What another reader of the file is sure to find: the bytes a flush has covered. -/
def visible (s : OFStream) : File := s.file.cut s.flushed

/-- A stream that is good after a write was good before it and has stored every byte. -/
theorem write_good {bytes : List UInt8} {s : OFStream} (h : (s.write bytes).goodbit = true) :
    s.goodbit = true ∧ (s.write bytes).file.bytes = s.file.bytes ++ bytes ∧
      (s.write bytes).isOpen = s.isOpen := by
  cases hs : s.goodbit
  · rw [write, hs] at h
    exact absurd (hs.symm.trans h) (by decide)
  · cases hd : s.device s.operations with
    | some n => cases ha : s.file.append? (bytes.take n) <;> simp [write, hs, hd, ha] at h
    | none =>
      cases ha : s.file.append? bytes with
      | none => simp [write, hs, hd, ha] at h
      | some file => simp [write, hs, hd, ha, File.append?_bytes ha]

/-- A write adds some of its bytes, whether it fails or not. -/
theorem write_adds (bytes : List UInt8) (s : OFStream) :
    (s.write bytes).file.bytes <+: s.file.bytes ++ bytes := by
  cases hs : s.goodbit
  · simp [write, hs]
  cases hd : s.device s.operations with
  | none =>
    cases ha : s.file.append? bytes with
    | none => simp [write, hs, hd, ha]
    | some file => simp [write, hs, hd, ha, File.append?_bytes ha]
  | some n =>
    cases ha : s.file.append? (bytes.take n) with
    | none => simp [write, hs, hd, ha]
    | some file =>
      simp only [write, hs, hd, ha, if_true, File.append?_bytes ha]
      exact (List.prefix_append_right_inj _).mpr (List.take_prefix n bytes)

@[simp] theorem write_flushed (bytes : List UInt8) (s : OFStream) :
    (s.write bytes).flushed = s.flushed := by
  unfold write
  split
  · simp only
    split <;> rfl
  · rfl

theorem flush_good {s : OFStream} (h : s.flush.goodbit = true) :
    s.goodbit = true ∧ s.flush.visible = s.file := by
  cases hs : s.goodbit
  · rw [flush, hs] at h
    exact absurd (hs.symm.trans h) (by decide)
  · cases hd : s.device s.operations with
    | some n => simp [flush, hs, hd] at h
    | none => simp [flush, hs, hd, visible, File.cut_length]

/-- A flush that succeeds has covered the file. -/
theorem flush_covers {s : OFStream} (h : s.flush.goodbit = true) :
    s.flush.flushed = s.file.bytes.length := by
  have hs := (flush_good h).1
  cases hd : s.device s.operations with
  | some n => simp [flush, hs, hd] at h
  | none => simp [flush, hs, hd]

@[simp] theorem flush_file (s : OFStream) : s.flush.file = s.file := by
  unfold flush
  split
  · split <;> rfl
  · rfl

@[simp] theorem flush_isOpen (s : OFStream) : s.flush.isOpen = s.isOpen := by
  unfold flush
  split
  · split <;> rfl
  · rfl

/-- There is nothing to uncover in a file that is covered. -/
theorem flush_covered {s : OFStream} (h : s.flushed = s.file.bytes.length) :
    s.flush.visible = s.visible := by
  have hflushed : s.flush.flushed = s.flushed := by
    unfold flush
    split
    · split
      · exact h.symm
      · rfl
    · rfl
  rw [visible, visible, flush_file, hflushed]

/-- A stream none of whose operations will fail, on a file that may grow by so many bytes. -/
structure Unfailing (s : OFStream) (room : Nat) : Prop where
  device : ∀ operation, s.operations ≤ operation → s.device operation = none
  room : s.file.bytes.length + room < 2 ^ 63

theorem write_unfailing {bytes : List UInt8} {s : OFStream} {room : Nat} (hs : s.goodbit = true)
    (h : s.Unfailing (bytes.length + room)) : (s.write bytes).goodbit = true ∧
      (s.write bytes).isOpen = s.isOpen ∧ (s.write bytes).Unfailing room := by
  have hroom := h.room
  have hlength : (s.file.bytes ++ bytes).length < 2 ^ 63 := by
    rw [List.length_append]
    omega
  have hfile : s.file.append? bytes = some ⟨s.file.bytes ++ bytes, hlength⟩ := dif_pos hlength
  have hwrite : s.write bytes =
      {s with
        file := ⟨s.file.bytes ++ bytes, hlength⟩
        goodbit := true
        operations := s.operations + 1} := by
    simp [write, hs, h.device s.operations (Nat.le_refl _), hfile]
  rw [hwrite]
  refine ⟨rfl, rfl, fun operation hlater => h.device operation (Nat.le_of_succ_le hlater), ?_⟩
  show (s.file.bytes ++ bytes).length + room < 2 ^ 63
  rw [List.length_append]
  omega

theorem flush_unfailing {s : OFStream} {room : Nat} (hs : s.goodbit = true)
    (h : s.Unfailing room) : s.flush.goodbit = true ∧ s.flush.Unfailing room := by
  have hflush : s.flush =
      {s with flushed := s.file.bytes.length, operations := s.operations + 1} := by
    simp [flush, hs, h.device s.operations (Nat.le_refl _)]
  rw [hflush]
  exact ⟨hs, fun operation hlater => h.device operation (Nat.le_of_succ_le hlater), h.room⟩

end OFStream

end TraceForge.Library
