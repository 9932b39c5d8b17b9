import Mathlib.Data.Int.CardIntervalMod
import Mathlib.Data.Rat.Floor
import Mathlib.Data.Set.Card

/-! Words and their residues.

An interval whose length is a multiple of `n` holds every residue of `n` equally often, wherever it
starts (`card_residue`). The words from `2 ^ 64 % n` up are the longest such interval that ends
where the words end, and more than half of all words (`half_lt`). -/
namespace TraceForge.Library.Residues

/-- **Every residue as often as the others.** -/
theorem card_residue {n r : ℕ} (hr : r < n) (start count : ℕ) :
    ((Finset.Ico start (start + n * count)).filter fun x => x % n = r).card = count := by
  have hpos : 0 < n := Nat.zero_lt_of_lt hr
  have hcast : (n : ℚ) ≠ 0 := Nat.cast_ne_zero.mpr hpos.ne'
  have hmod : ((Finset.Ico start (start + n * count)).filter fun x => x % n = r) =
      (Finset.Ico start (start + n * count)).filter fun x => x ≡ r [MOD n] :=
    Finset.filter_congr fun x _ => by rw [Nat.ModEq, Nat.mod_eq_of_lt hr]
  have hend : (((start + n * count : ℕ) : ℚ) - r) / n = (start - r) / n + (count : ℕ) := by
    push_cast
    field_simp
    ring
  have hcard := Nat.Ico_filter_modEq_card start (start + n * count) hpos r
  rw [hend, Int.ceil_add_natCast, add_sub_cancel_left, max_eq_left (Int.natCast_nonneg _)] at hcard
  rw [hmod]
  exact_mod_cast hcard

/-- The residues below `bound` together. -/
theorem card_residues {n bound : ℕ} (hbound : bound ≤ n) (start count : ℕ) :
    ((Finset.Ico start (start + n * count)).filter fun x => x % n < bound).card =
      bound * count := by
  have hmaps : ∀ x ∈ (Finset.Ico start (start + n * count)).filter fun x => x % n < bound,
      x % n ∈ Finset.range bound := fun x hx => Finset.mem_range.mpr (Finset.mem_filter.mp hx).2
  rw [Finset.card_eq_sum_card_fiberwise hmaps]
  have hfiber : ∀ r ∈ Finset.range bound,
      (((Finset.Ico start (start + n * count)).filter fun x => x % n < bound).filter
        fun x => x % n = r).card = count := by
    intro r hr
    have hr := Finset.mem_range.mp hr
    have hboth : ∀ x, x % n < bound ∧ x % n = r ↔ x % n = r := fun x =>
      and_iff_right_of_imp fun heq => heq ▸ hr
    simp only [Finset.filter_filter, hboth, card_residue (Nat.lt_of_lt_of_le hr hbound)]
  rw [Finset.sum_congr rfl hfiber, Finset.sum_const, Finset.card_range, Nat.nsmul_eq_mul]

/-! ### Words -/

/-- Words are counted like the numbers they are. -/
theorem ncard_words (p : ℕ → Prop) [DecidablePred p] :
    {v : UInt64 | p v.toNat}.ncard = ((Finset.range (2 ^ 64)).filter p).card := by
  have himage : UInt64.toNat '' {v : UInt64 | p v.toNat} =
      ((Finset.range (2 ^ 64)).filter p : Finset ℕ) := by
    ext x
    simp only [Set.mem_image, Set.mem_ofPred_eq, Finset.coe_filter, Finset.mem_range]
    refine ⟨?_, fun ⟨hlt, hx⟩ => ⟨UInt64.ofNat x, ?_⟩⟩
    · rintro ⟨v, hv, rfl⟩
      exact ⟨v.toNat_lt, hv⟩
    · rw [UInt64.toNat_ofNat_of_lt' hlt]
      exact ⟨hx, rfl⟩
  rw [← Set.ncard_image_of_injective _ fun _ _ => UInt64.toNat_inj.mp, himage, Set.ncard_coe_finset]

/-- The numbers that are left when the first `total % n` are not used. -/
theorem range_filter (total n : ℕ) (p : ℕ → Prop) [DecidablePred p] :
    ((Finset.range total).filter fun x => total % n ≤ x ∧ p x) =
      (Finset.Ico (total % n) (total % n + n * (total / n))).filter p := by
  rw [Nat.mod_add_div, ← Finset.filter_filter]
  congr 1
  ext x
  rw [Finset.mem_filter, Finset.mem_range, Finset.mem_Ico, and_comm]

theorem ncard_residue {n r : ℕ} (hr : r < n) :
    {v : UInt64 | 2 ^ 64 % n ≤ v.toNat ∧ v.toNat % n = r}.ncard = 2 ^ 64 / n := by
  rw [ncard_words fun x => 2 ^ 64 % n ≤ x ∧ x % n = r, range_filter, card_residue hr]

theorem ncard_residues {n bound : ℕ} (hbound : bound ≤ n) :
    {v : UInt64 | 2 ^ 64 % n ≤ v.toNat ∧ v.toNat % n < bound}.ncard = bound * (2 ^ 64 / n) := by
  rw [ncard_words fun x => 2 ^ 64 % n ≤ x ∧ x % n < bound, range_filter, card_residues hbound]

/-- **More than half of the words** are left. -/
theorem half_lt {n : ℕ} (hpos : 0 < n) (hn : n ≤ 2 ^ 64) : 2 ^ 64 < 2 * (n * (2 ^ 64 / n)) := by
  have hsplit := Nat.mod_add_div (2 ^ 64) n
  have hrest := Nat.mod_lt (2 ^ 64) hpos
  have hone : n * 1 ≤ n * (2 ^ 64 / n) := Nat.mul_le_mul_left n (Nat.div_pos hn hpos)
  omega

end TraceForge.Library.Residues
