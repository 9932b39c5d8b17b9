import Mathlib.Data.Option.Basic
import TraceForge.Library.Signed

/-! Machine arithmetic that refuses to overflow.

A checked operation is the machine's as long as the exact result fits in the type, and a checked
cast is one that keeps the number. What is computed with them has a result only if every
intermediate fits, and then the result is the exact one (`Gives`) and the machine's. -/
namespace TraceForge.Library.Checked
open Signed

/-- A machine integer: its number, the numbers its type holds, and operations that are exact
whenever they fit. -/
class Word (α : Type) extends Add α, Sub α, Mul α, Div α, Mod α where
  value : α → ℤ
  least : ℤ
  greatest : ℤ
  value_add : ∀ a b : α, least ≤ value a + value b → value a + value b ≤ greatest →
    value (a + b) = value a + value b
  value_sub : ∀ a b : α, least ≤ value a - value b → value a - value b ≤ greatest →
    value (a - b) = value a - value b
  value_mul : ∀ a b : α, least ≤ value a * value b → value a * value b ≤ greatest →
    value (a * b) = value a * value b
  value_div : ∀ a b : α, 0 < value b → value (a / b) = (value a).tdiv (value b)
  value_mod : ∀ a b : α, 0 < value b → value (a % b) = (value a).tmod (value b)

open Word (value value_add value_sub value_mul value_div value_mod)

/-- A number that the type holds. -/
def Fits (α : Type) [Word α] (z : ℤ) : Prop := Word.least α ≤ z ∧ z ≤ Word.greatest α

instance Fits.instDecidable (α : Type) [Word α] (z : ℤ) : Decidable (Fits α z) :=
  inferInstanceAs (Decidable (_ ∧ _))

instance Word.int64 : Word Int64 where
  value := Int64.toInt
  least := -2 ^ 63
  greatest := 2 ^ 63 - 1
  value_add a b hlow hhigh := toInt_add ⟨hlow, by omega⟩
  value_sub a b hlow hhigh := toInt_sub ⟨hlow, by omega⟩
  value_mul a b hlow hhigh := toInt_mul ⟨hlow, by omega⟩
  value_div a b h := toInt_div h
  value_mod a b _ := Int64.toInt_mod a b

instance Word.uint64 : Word UInt64 where
  value a := a.toNat
  least := 0
  greatest := 2 ^ 64 - 1
  value_add a b _ hhigh := by
    rw [UInt64.toNat_add, Nat.mod_eq_of_lt (by omega), Int.natCast_add]
  value_sub a b hlow _ := by
    rw [UInt64.toNat_sub_of_le _ _ (UInt64.le_iff_toNat_le.mpr (by omega))]
    omega
  value_mul a b _ hhigh := by
    rw [← Int.natCast_mul] at hhigh
    rw [UInt64.toNat_mul, Nat.mod_eq_of_lt (by omega), Int.natCast_mul]
  value_div a b _ := by
    rw [UInt64.toNat_div, Int.ofNat_tdiv]
  value_mod a b _ := by
    rw [UInt64.toNat_mod, Int.ofNat_tmod]

theorem value_int64 (a : Int64) : value a = a.toInt := rfl

theorem value_uint64 (a : UInt64) : value a = a.toNat := rfl

@[simp] theorem fits_int64 (z : ℤ) : Fits Int64 z ↔ -2 ^ 63 ≤ z ∧ z < 2 ^ 63 :=
  and_congr_right fun _ => Int.le_sub_one_iff

@[simp] theorem fits_uint64 (z : ℤ) : Fits UInt64 z ↔ 0 ≤ z ∧ z < 2 ^ 64 :=
  and_congr_right fun _ => Int.le_sub_one_iff

/-! ### Operations -/

section
variable {α β : Type} [Word α] [Word β]

def add? (a b : α) : Option α := if Fits α (value a + value b) then some (a + b) else none

def sub? (a b : α) : Option α := if Fits α (value a - value b) then some (a - b) else none

def mul? (a b : α) : Option α := if Fits α (value a * value b) then some (a * b) else none

/-- Division by zero has no result, and by a negative number it is not needed here. -/
def div? (a b : α) : Option α := if 0 < value b then some (a / b) else none

def mod? (a b : α) : Option α := if 0 < value b then some (a % b) else none

/-- `static_cast`, where it keeps the number. -/
def cast? (cast : α → β) (a : α) : Option β := if Fits β (value a) then some (cast a) else none

/-! ### The machine's result -/

variable {a b c : α}

@[simp] theorem add?_eq_some : add? a b = some c ↔ Fits α (value a + value b) ∧ a + b = c := by
  simp [add?]

@[simp] theorem sub?_eq_some : sub? a b = some c ↔ Fits α (value a - value b) ∧ a - b = c := by
  simp [sub?]

@[simp] theorem mul?_eq_some : mul? a b = some c ↔ Fits α (value a * value b) ∧ a * b = c := by
  simp [mul?]

@[simp] theorem div?_eq_some : div? a b = some c ↔ 0 < value b ∧ a / b = c := by
  simp [div?]

@[simp] theorem mod?_eq_some : mod? a b = some c ↔ 0 < value b ∧ a % b = c := by
  simp [mod?]

@[simp] theorem cast?_eq_some {cast : α → β} {c : β} :
    cast? cast a = some c ↔ Fits β (value a) ∧ cast a = c := by
  simp [cast?]

/-! ### The exact result -/

/-- A computation that has this number as its result. -/
def Gives (x : Option α) (z : ℤ) : Prop := ∃ a, x = some a ∧ value a = z

variable {y z : ℤ}

theorem gives_add (ha : value a = y) (hb : value b = z) (h : Fits α (y + z)) :
    Gives (add? a b) (y + z) := by
  subst ha hb
  exact ⟨a + b, if_pos h, value_add a b h.1 h.2⟩

theorem gives_sub (ha : value a = y) (hb : value b = z) (h : Fits α (y - z)) :
    Gives (sub? a b) (y - z) := by
  subst ha hb
  exact ⟨a - b, if_pos h, value_sub a b h.1 h.2⟩

theorem gives_mul (ha : value a = y) (hb : value b = z) (h : Fits α (y * z)) :
    Gives (mul? a b) (y * z) := by
  subst ha hb
  exact ⟨a * b, if_pos h, value_mul a b h.1 h.2⟩

theorem gives_div (ha : value a = y) (hb : value b = z) (hy : 0 ≤ y) (hz : 0 < z) :
    Gives (div? a b) (y / z) := by
  subst ha hb
  rw [← Int.tdiv_eq_ediv_of_nonneg hy]
  exact ⟨a / b, if_pos hz, value_div a b hz⟩

/-- A quotient is cut off towards zero. -/
theorem gives_tdiv (ha : value a = y) (hb : value b = z) (hz : 0 < z) :
    Gives (div? a b) (y.tdiv z) := by
  subst ha hb
  exact ⟨a / b, if_pos hz, value_div a b hz⟩

theorem gives_mod (ha : value a = y) (hb : value b = z) (hy : 0 ≤ y) (hz : 0 < z) :
    Gives (mod? a b) (y % z) := by
  subst ha hb
  rw [← Int.tmod_eq_emod_of_nonneg hy]
  exact ⟨a % b, if_pos hz, value_mod a b hz⟩

/-- **One step after another**: what follows depends on the number alone. -/
theorem Gives.bind {x : Option α} {w : ℤ} {f : α → Option β} (hx : Gives x z)
    (hf : ∀ a, value a = z → Gives (f a) w) : Gives (x >>= f) w := by
  obtain ⟨a, rfl, ha⟩ := hx
  exact hf a ha

end

theorem gives_toUInt64 {a : Int64} {z : ℤ} (ha : value a = z) (h : 0 ≤ z) :
    Gives (cast? Int64.toUInt64 a) z := by
  subst ha
  refine ⟨a.toUInt64, if_pos ((fits_uint64 _).mpr ⟨h, ?_⟩), toNat_toUInt64 h⟩
  exact Int.lt_of_lt_of_le a.toInt_lt (by decide)

theorem gives_toInt64 {a : UInt64} {z : ℤ} (ha : value a = z) (h : z < 2 ^ 63) :
    Gives (cast? UInt64.toInt64 a) z := by
  subst ha
  have hlt : (a.toNat : ℤ) < 2 ^ 63 := h
  have hfits := (fits_int64 _).mpr ⟨Int.le_trans (by decide) (Int.natCast_nonneg a.toNat), h⟩
  exact ⟨a.toInt64, if_pos hfits, toInt_toInt64 (by omega)⟩

/-- **A product is divided in parts** that are smaller than the product. -/
theorem mul_ediv_split (n m : ℤ) {d : ℤ} (hd : d ≠ 0) :
    n * m / d = n / d * m + n % d * m / d := by
  have hparts : n * m = n % d * m + n / d * m * d := by
    conv_lhs => rw [← Int.mul_ediv_add_emod n d]
    ring
  rw [hparts, Int.add_mul_ediv_right _ _ hd, Int.add_comm]

/-! ### Lists -/

variable {ι κ σ : Type}

/-- Every element has its value. -/
theorem mapM_some {f : ι → Option κ} {g : ι → κ} {l : List ι} (h : ∀ a ∈ l, f a = some (g a)) :
    l.mapM f = some (l.map g) := by
  induction l with
  | nil => rfl
  | cons a rest ih =>
    obtain ⟨ha, hrest⟩ := List.forall_mem_cons.mp h
    rw [List.mapM_cons, ha, ih hrest]
    rfl

theorem foldlM_some {f : σ → ι → Option σ} {g : σ → ι → σ} (h : ∀ s a, f s a = some (g s a))
    (l : List ι) (s : σ) : l.foldlM f s = some (l.foldl g s) := by
  induction l generalizing s with
  | nil => rfl
  | cons a rest ih =>
    rw [List.foldlM_cons, h, List.foldl_cons]
    exact ih (g s a)

end TraceForge.Library.Checked
