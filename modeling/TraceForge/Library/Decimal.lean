import Mathlib.Data.List.TakeWhile
import Mathlib.Data.Nat.Digits.Lemmas

/-! Integers written in decimal, and `std::from_chars` that reads them.

`from_chars` takes a minus sign, where the type has one, and then as many digits as there are. It
says where it stopped, and whether the value fits the type. It takes a text whole exactly when the
text spells a value of the type (`fromChars_iff`), as what `render` writes does
(`spells_render`). -/
namespace TraceForge.Library.Decimal

def isDigit (byte : UInt8) : Bool := 48 ≤ byte && byte ≤ 57

def digit (byte : UInt8) : ℕ := byte.toNat - 48

/-- What a row of digits stands for. -/
def value (digits : List UInt8) : ℕ := digits.foldl (fun n byte => 10 * n + digit byte) 0

def minus : UInt8 := 45

/-! ### Reading -/

structure IntegerType where
  signed : Bool
  least : ℤ
  greatest : ℤ
deriving DecidableEq

def uint64 : IntegerType := ⟨false, 0, 2 ^ 64 - 1⟩
def int64 : IntegerType := ⟨true, -2 ^ 63, 2 ^ 63 - 1⟩

def IntegerType.Holds (type : IntegerType) (v : ℤ) : Prop := type.least ≤ v ∧ v ≤ type.greatest

instance (type : IntegerType) (v : ℤ) : Decidable (type.Holds v) :=
  inferInstanceAs (Decidable (_ ∧ _))

/-- `std::errc`, as far as `from_chars` sets it. -/
inductive Errc where
  | invalidArgument
  | resultOutOfRange
deriving DecidableEq

/-- The digits behind the sign, or all of `text` is left. -/
def fromDigits (type : IntegerType) (text : List UInt8) (sign : ℤ) (unsigned : List UInt8) :
    List UInt8 × Except Errc ℤ :=
  let digits := unsigned.takeWhile isDigit
  if digits = [] then (text, .error .invalidArgument)
  else
    let v := sign * value digits
    (unsigned.drop digits.length, if type.Holds v then .ok v else .error .resultOutOfRange)

/-- `from_chars` in base ten: what is left of the text, and the value. -/
def fromChars (type : IntegerType) (text : List UInt8) : List UInt8 × Except Errc ℤ :=
  match text with
  | byte :: rest =>
    if type.signed && byte == minus then fromDigits type text (-1) rest
    else fromDigits type text 1 text
  | [] => fromDigits type text 1 text

/-! ### What is read -/

/-- Digits, with a sign that the type may have. -/
inductive Numeral (type : IntegerType) : List UInt8 → ℤ → Prop
  | plain (digits : List UInt8) (hne : digits ≠ []) (hall : ∀ byte ∈ digits, isDigit byte = true) :
    Numeral type digits (value digits)
  | negative (digits : List UInt8) (hsigned : type.signed = true) (hne : digits ≠ [])
    (hall : ∀ byte ∈ digits, isDigit byte = true) : Numeral type (minus :: digits) (-value digits)

/-- A text that is nothing but this value, which the type has. -/
def Spells (type : IntegerType) (text : List UInt8) (v : ℤ) : Prop :=
  Numeral type text v ∧ type.Holds v

theorem takeWhile_whole (unsigned : List UInt8) :
    unsigned.drop (unsigned.takeWhile isDigit).length = [] ↔
      ∀ byte ∈ unsigned, isDigit byte = true := by
  rw [List.drop_eq_nil_iff]
  constructor
  · intro hle byte hbyte
    have hwhole := (List.takeWhile_prefix (l := unsigned) isDigit).eq_of_length_le hle
    rw [← hwhole] at hbyte
    exact List.mem_takeWhile_imp hbyte
  · intro hall
    rw [List.takeWhile_eq_self_iff.mpr hall]

theorem fromDigits_iff {type : IntegerType} {text unsigned : List UInt8} {sign v : ℤ} :
    fromDigits type text sign unsigned = ([], .ok v) ↔
      unsigned ≠ [] ∧ (∀ byte ∈ unsigned, isDigit byte = true) ∧ v = sign * value unsigned ∧
        type.Holds v := by
  unfold fromDigits
  simp only
  split
  · rename_i hnone
    refine iff_of_false (fun h => by cases (Prod.ext_iff.mp h).2) fun ⟨hne, hall, _⟩ => ?_
    rw [List.takeWhile_eq_self_iff.mpr hall] at hnone
    exact hne hnone
  · rename_i hsome
    rw [Prod.ext_iff, takeWhile_whole]
    constructor
    · rintro ⟨hall, hvalue⟩
      rw [List.takeWhile_eq_self_iff.mpr hall] at hsome hvalue
      simp only at hvalue
      split at hvalue
      · cases hvalue
        exact ⟨hsome, hall, rfl, by assumption⟩
      · cases hvalue
    · rintro ⟨_, hall, rfl, hholds⟩
      rw [List.takeWhile_eq_self_iff.mpr hall]
      exact ⟨hall, if_pos hholds⟩

/-- **A text is taken whole** exactly when it spells a value of the type. -/
theorem fromChars_iff (type : IntegerType) (text : List UInt8) (v : ℤ) :
    fromChars type text = ([], .ok v) ↔ Spells type text v := by
  unfold fromChars
  split
  · rename_i byte rest
    split
    · rename_i hminus
      rw [Bool.and_eq_true, beq_iff_eq] at hminus
      obtain ⟨hsigned, rfl⟩ := hminus
      rw [fromDigits_iff, neg_one_mul]
      constructor
      · rintro ⟨hne, hall, rfl, hholds⟩
        exact ⟨.negative rest hsigned hne hall, hholds⟩
      · rintro ⟨hnumeral, hholds⟩
        cases hnumeral with
        | plain _ _ hall => exact absurd (hall minus List.mem_cons_self) (by decide)
        | negative _ _ hne hall => exact ⟨hne, hall, rfl, hholds⟩
    · rename_i hplain
      rw [fromDigits_iff, one_mul]
      constructor
      · rintro ⟨hne, hall, rfl, hholds⟩
        exact ⟨.plain _ hne hall, hholds⟩
      · rintro ⟨hnumeral, hholds⟩
        cases hnumeral with
        | plain _ hne hall => exact ⟨hne, hall, rfl, hholds⟩
        | negative _ hsigned _ _ =>
          rw [hsigned] at hplain
          exact absurd rfl hplain
  · rw [fromDigits_iff]
    refine iff_of_false (fun h => h.1 rfl) fun ⟨hnumeral, _⟩ => ?_
    cases hnumeral with
    | plain _ hne _ => exact hne rfl

/-! ### Writing -/

/-- The digit of a number below ten. -/
def ofDigit (d : ℕ) : UInt8 := UInt8.ofNat (48 + d)

def renderNat (n : ℕ) : List UInt8 :=
  if n = 0 then [ofDigit 0] else ((Nat.digits 10 n).map ofDigit).reverse

/-- What `operator<<` writes of an integer. -/
def render (v : ℤ) : List UInt8 :=
  if v < 0 then minus :: renderNat v.natAbs else renderNat v.natAbs

theorem digit_ofDigit {d : ℕ} (h : d < 10) : isDigit (ofDigit d) = true ∧ digit (ofDigit d) = d := by
  have hall : ∀ d : Fin 10, isDigit (ofDigit d) = true ∧ digit (ofDigit d) = d := by decide
  exact hall ⟨d, h⟩

theorem value_snoc (digits : List UInt8) (byte : UInt8) :
    value (digits ++ [byte]) = 10 * value digits + digit byte := by
  rw [value, List.foldl_append]
  rfl

theorem value_ofDigits {digits : List ℕ} (h : ∀ d ∈ digits, d < 10) :
    value (digits.map ofDigit).reverse = Nat.ofDigits 10 digits := by
  induction digits with
  | nil => rfl
  | cons d rest ih =>
    obtain ⟨hd, hrest⟩ := List.forall_mem_cons.mp h
    rw [List.map_cons, List.reverse_cons, value_snoc, ih hrest, (digit_ofDigit hd).2,
      Nat.ofDigits_cons]
    exact Nat.add_comm _ _

theorem renderNat_numeral (n : ℕ) :
    renderNat n ≠ [] ∧ (∀ byte ∈ renderNat n, isDigit byte = true) ∧ value (renderNat n) = n := by
  unfold renderNat
  split
  · rename_i hzero
    refine ⟨List.cons_ne_nil _ _, fun byte hbyte => ?_, hzero.symm⟩
    rw [List.mem_singleton.mp hbyte]
    rfl
  · rename_i hne
    have hlt : ∀ d ∈ Nat.digits 10 n, d < 10 := fun d hd => Nat.digits_lt_base (by decide) hd
    refine ⟨?_, fun byte hbyte => ?_, ?_⟩
    · rw [Ne, List.reverse_eq_nil_iff, List.map_eq_nil_iff]
      exact Nat.digits_ne_nil_iff_ne_zero.mpr hne
    · obtain ⟨d, hd, rfl⟩ := List.mem_map.mp (List.mem_reverse.mp hbyte)
      exact (digit_ofDigit (hlt d hd)).1
    · rw [value_ofDigits hlt, Nat.ofDigits_digits]

/-- **What is written of a value** is read as this value. -/
theorem spells_render {type : IntegerType} {v : ℤ} (hholds : type.Holds v)
    (hsign : v < 0 → type.signed = true) : Spells type (render v) v := by
  obtain ⟨hne, hall, hvalue⟩ := renderNat_numeral v.natAbs
  refine ⟨?_, hholds⟩
  unfold render
  split
  · rename_i hneg
    have hnumeral : Numeral type _ _ := .negative _ (hsign hneg) hne hall
    rwa [hvalue, show -(v.natAbs : ℤ) = v by omega] at hnumeral
  · rename_i hpos
    have hnumeral : Numeral type _ _ := .plain _ hne hall
    rwa [hvalue, show (v.natAbs : ℤ) = v by omega] at hnumeral

end TraceForge.Library.Decimal
