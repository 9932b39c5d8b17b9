import TraceForge.Library.LittleEndian

/-! Streaming hashes and what they are fed.

A hash takes its input element by element. If no step loses anything (`Lossless`), two inputs that
differ in one place are told apart: the states are different there, and stay different. The inputs
are sequences written one behind the other, which can be taken apart again if every element shows
where it ends (`SelfDelimiting`). -/
namespace TraceForge.Library.Hashing
open LittleEndian (split combine combine_split_of_lt split_length)

/-! ### One step -/

section Steps
variable {σ β : Type}

/-- Lists of one length that differ in exactly one place. -/
def DifferOnce (a b : List β) : Prop :=
  ∃ front x y back, x ≠ y ∧ a = front ++ x :: back ∧ b = front ++ y :: back

theorem DifferOnce.append_left {a b : List β} (h : DifferOnce a b) (front : List β) :
    DifferOnce (front ++ a) (front ++ b) := by
  obtain ⟨between, x, y, back, hne, rfl, rfl⟩ := h
  exact ⟨front ++ between, x, y, back, hne, (List.append_assoc ..).symm,
    (List.append_assoc ..).symm⟩

theorem DifferOnce.append_right {a b : List β} (h : DifferOnce a b) (back : List β) :
    DifferOnce (a ++ back) (b ++ back) := by
  obtain ⟨front, x, y, between, hne, rfl, rfl⟩ := h
  exact ⟨front, x, y, between ++ back, hne, List.append_assoc .., List.append_assoc ..⟩

theorem DifferOnce.length_eq {a b : List β} (h : DifferOnce a b) : a.length = b.length := by
  obtain ⟨front, x, y, back, _, rfl, rfl⟩ := h
  rw [List.length_append, List.length_append, List.length_cons, List.length_cons]

/-- A step from which both the state before, given the input, and the input, given the state, can
be told. -/
structure Lossless (step : σ → β → σ) : Prop where
  state : ∀ x s t, step s x = step t x → s = t
  input : ∀ s x y, step s x = step s y → x = y

variable {step : σ → β → σ}

theorem Lossless.foldl_state (h : Lossless step) (rest : List β) {s t : σ}
    (hsame : rest.foldl step s = rest.foldl step t) : s = t := by
  induction rest generalizing s t with
  | nil => exact hsame
  | cons x rest ih => exact h.state x s t (ih hsame)

/-- **One difference** is never lost. -/
theorem Lossless.foldl_ne (h : Lossless step) (s : σ) {a b : List β} (hab : DifferOnce a b) :
    a.foldl step s ≠ b.foldl step s := by
  obtain ⟨front, x, y, back, hne, rfl, rfl⟩ := hab
  intro hsame
  rw [List.foldl_append, List.foldl_append] at hsame
  exact hne (h.input _ x y (h.foldl_state back hsame))

end Steps

/-- The step of FNV-1a. -/
def xorMultiply (prime hash : UInt64) (byte : UInt8) : UInt64 := (hash ^^^ byte.toUInt64) * prime

/-- Multiplying by a unit can be undone, and so can the exclusive or. -/
theorem xorMultiply_lossless {prime inverse : UInt64} (h : prime * inverse = 1) :
    Lossless (xorMultiply prime) := by
  have hcancel {s t : UInt64} (hst : s * prime = t * prime) : s = t := by
    have hback := congrArg (· * inverse) hst
    simpa only [UInt64.mul_assoc, h, UInt64.mul_one] using hback
  exact
    { state := fun x s t hst => (UInt64.xor_left_inj _).mp (hcancel hst)
      input := fun s x y hxy => UInt8.toUInt64_inj.mp ((UInt64.xor_right_inj _).mp (hcancel hxy)) }

/-! ### Elements that show where they end -/

section Delimiting
variable {α β : Type} {valid : α → Prop} {encode : α → List β}

def SelfDelimiting (valid : α → Prop) (encode : α → List β) : Prop :=
  ∀ x y rest rest', valid x → valid y → encode x ++ rest = encode y ++ rest' →
    x = y ∧ rest = rest'

/-- **A sequence of them** can be taken apart. -/
theorem SelfDelimiting.flatMap_inj (h : SelfDelimiting valid encode)
    (hne : ∀ x, valid x → encode x ≠ []) {xs ys : List α} (hxs : ∀ x ∈ xs, valid x)
    (hys : ∀ y ∈ ys, valid y) (heq : xs.flatMap encode = ys.flatMap encode) : xs = ys := by
  induction xs generalizing ys with
  | nil =>
    cases ys with
    | nil => rfl
    | cons y ys =>
      have hnil := (List.append_eq_nil_iff.mp heq.symm).1
      exact absurd hnil (hne y (hys y List.mem_cons_self))
  | cons x xs ih =>
    obtain ⟨hx, hxs⟩ := List.forall_mem_cons.mp hxs
    cases ys with
    | nil => exact absurd (List.append_eq_nil_iff.mp heq).1 (hne x hx)
    | cons y ys =>
      obtain ⟨hy, hrest⟩ := List.forall_mem_cons.mp hys
      obtain ⟨hhead, htail⟩ := h x y _ _ hx hy heq
      rw [hhead, ih hxs hrest htail]

end Delimiting

theorem split_selfDelimiting (width : Nat) :
    SelfDelimiting (fun v => v < 256 ^ width) (split width) := by
  intro v w rest rest' hv hw heq
  obtain ⟨hsplit, hrest⟩ := List.append_inj heq (by rw [split_length, split_length])
  have hcombine := congrArg combine hsplit
  rw [combine_split_of_lt hv, combine_split_of_lt hw] at hcombine
  exact ⟨hcombine, hrest⟩

/-- Bytes behind their count. -/
def counted (width : Nat) (bytes : List UInt8) : List UInt8 := split width bytes.length ++ bytes

theorem counted_selfDelimiting (width : Nat) :
    SelfDelimiting (fun bytes => bytes.length < 256 ^ width) (counted width) := by
  intro a b rest rest' ha hb heq
  rw [counted, counted, List.append_assoc, List.append_assoc] at heq
  obtain ⟨hlength, hbytes⟩ := split_selfDelimiting width _ _ _ _ ha hb heq
  exact List.append_inj hbytes hlength

theorem DifferOnce.counted {width : Nat} {a b : List UInt8} (h : DifferOnce a b) :
    DifferOnce (counted width a) (counted width b) := by
  rw [Hashing.counted, Hashing.counted, h.length_eq]
  exact h.append_left _

/-! ### A hash of sequences -/

/-- What a hash of sequences tells apart: no two valid sequences give it the same bytes, and no two
inputs that differ in one byte have the same hash. -/
structure Separates {α : Type} (valid : α → Prop) (encode : α → List UInt8)
    (hash : List UInt8 → UInt64) : Prop where
  decodes : ∀ a b : List α, (∀ x ∈ a, valid x) → (∀ x ∈ b, valid x) →
    a.flatMap encode = b.flatMap encode → a = b
  oneByte : ∀ a b, DifferOnce a b → hash a ≠ hash b

end TraceForge.Library.Hashing
