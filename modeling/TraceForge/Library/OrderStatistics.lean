import Mathlib.Data.List.Sort
import Mathlib.Data.Rat.Floor
import Mathlib.Order.Bounds.Basic
import TraceForge.Library.Interleave

/-! Order statistics of a list of samples.

The value at a rank is the one that so many samples do not exceed, and fewer are below (`AtRank`);
it is found where the sorted list has it (`atRank_sorted`), ties or not. The nearest rank of a
fraction is the first that reaches it. Between neighbours of the sorted list lie its `spacings`,
which add up to the range. -/
namespace TraceForge.Library.OrderStatistics

section Ranks
variable {α : Type} [LinearOrder α]

structure AtRank (rank : ℕ) (samples : List α) (value : α) : Prop where
  mem : value ∈ samples
  reached : rank ≤ samples.countP (· ≤ value)
  below : samples.countP (· < value) < rank

/-- **The sorted list** has the value at a rank at that place, counted from one. -/
theorem atRank_sorted {samples : List α} {i : ℕ} {value : α}
    (h : (samples.insertionSort (· ≤ ·))[i]? = some value) : AtRank (i + 1) samples value := by
  have hperm := List.perm_insertionSort (· ≤ ·) samples
  have hsorted := List.pairwise_insertionSort (· ≤ ·) samples
  generalize samples.insertionSort (· ≤ ·) = sorted at h hperm hsorted
  obtain ⟨hi, hvalue⟩ := List.getElem?_eq_some_iff.mp h
  have hsplit : sorted.take i ++ value :: sorted.drop (i + 1) = sorted := by
    rw [← hvalue, List.getElem_cons_drop, List.take_append_drop]
  rw [← hsplit] at hsorted
  obtain ⟨_, hafter, hbefore⟩ := List.pairwise_append.mp hsorted
  have hlength : (sorted.take i).length = i := List.length_take_of_le (Nat.le_of_lt hi)
  refine ⟨hperm.mem_iff.mp (hvalue ▸ List.getElem_mem hi), ?_, ?_⟩
  · have hall : (sorted.take i).countP (· ≤ value) = (sorted.take i).length :=
      List.countP_eq_length.mpr fun a ha =>
        decide_eq_true (hbefore a ha value List.mem_cons_self)
    rw [← hperm.countP_eq, ← hsplit, List.countP_append, hall, hlength, List.countP_cons_of_pos]
    · omega
    · exact decide_eq_true (le_refl value)
  · have hnone : (value :: sorted.drop (i + 1)).countP (· < value) = 0 := by
      refine List.countP_eq_zero.mpr fun a ha => ?_
      rw [decide_eq_true_iff, not_lt]
      rcases List.mem_cons.mp ha with rfl | ha
      · exact le_refl a
      · exact (List.pairwise_cons.mp hafter).1 a ha
    have hfront : (sorted.take i).countP (· < value) ≤ (sorted.take i).length :=
      List.countP_le_length
    rw [← hperm.countP_eq, ← hsplit, List.countP_append, hnone]
    omega

/-- A higher rank has no lesser value. -/
theorem AtRank.le {low high : ℕ} {samples : List α} {v w : α} (hle : low ≤ high)
    (h : AtRank low samples v) (h' : AtRank high samples w) : v ≤ w := by
  by_contra hlt
  have hfewer : samples.countP (· ≤ w) ≤ samples.countP (· < v) :=
    List.countP_mono_left fun a _ ha =>
      decide_eq_true ((of_decide_eq_true ha).trans_lt (not_le.mp hlt))
  have hreached := h'.reached
  have hbelow := h.below
  omega

/-- The value that a fraction of the samples do not exceed, as one of the samples. -/
def NearestRank (fraction : ℚ) (samples : List α) (value : α) : Prop :=
  AtRank ⌈fraction * samples.length⌉₊ samples value

theorem NearestRank.le {p q : ℚ} {samples : List α} {v w : α} (hle : p ≤ q)
    (h : NearestRank p samples v) (h' : NearestRank q samples w) : v ≤ w := by
  refine AtRank.le (Nat.ceil_mono ?_) h h'
  exact mul_le_mul_of_nonneg_right hle (Nat.cast_nonneg _)

/-- The ranks of fractions are those of the samples. -/
theorem rank_mem {fraction : ℚ} (hpos : 0 < fraction) (hle : fraction ≤ 1) {n : ℕ} (hn : 0 < n) :
    0 < ⌈fraction * n⌉₊ ∧ ⌈fraction * n⌉₊ ≤ n := by
  have hcast : (0 : ℚ) < n := Nat.cast_pos.mpr hn
  refine ⟨Nat.ceil_pos.mpr (mul_pos hpos hcast), Nat.ceil_le.mpr ?_⟩
  calc fraction * n ≤ 1 * n := mul_le_mul_of_nonneg_right hle hcast.le
    _ = n := one_mul _

/-! ### The ends -/

theorem isLeast_sorted {samples : List α} {value : α}
    (h : (samples.insertionSort (· ≤ ·)).head? = some value) :
    IsLeast {v | v ∈ samples} value := by
  have hmem (v : α) := (List.perm_insertionSort (· ≤ ·) samples).mem_iff (a := v)
  have hsorted := List.pairwise_insertionSort (· ≤ ·) samples
  generalize samples.insertionSort (· ≤ ·) = sorted at h hmem hsorted
  obtain ⟨rest, rfl⟩ := List.head?_eq_some_iff.mp h
  refine ⟨(hmem _).mp List.mem_cons_self, fun v hv => ?_⟩
  rcases List.mem_cons.mp ((hmem v).mpr hv) with rfl | hv
  · exact le_refl v
  · exact (List.pairwise_cons.mp hsorted).1 v hv

theorem isGreatest_sorted {samples : List α} {value : α}
    (h : (samples.insertionSort (· ≤ ·)).getLast? = some value) :
    IsGreatest {v | v ∈ samples} value := by
  have hmem (v : α) := (List.perm_insertionSort (· ≤ ·) samples).mem_iff (a := v)
  have hsorted := List.pairwise_insertionSort (· ≤ ·) samples
  generalize samples.insertionSort (· ≤ ·) = sorted at h hmem hsorted
  obtain ⟨front, rfl⟩ := List.getLast?_eq_some_iff.mp h
  refine ⟨(hmem _).mp List.mem_concat_self, fun v hv => ?_⟩
  rcases List.mem_append.mp ((hmem v).mpr hv) with hv | hv
  · exact (List.pairwise_append.mp hsorted).2.2 v hv value List.mem_cons_self
  · exact (List.mem_singleton.mp hv).le

end Ranks

/-! ### Spacings -/

/-- The differences of neighbours, in ascending order of the samples. -/
def spacings (samples : List ℤ) : List ℤ :=
  (adjacent (samples.insertionSort (· ≤ ·))).map fun pair => pair.2 - pair.1

theorem adjacent_length {α : Type} (l : List α) : (adjacent l).length = l.length - 1 := by
  rw [adjacent, List.length_zip, List.length_tail]
  omega

theorem adjacent_map {α β : Type} (f : α → β) (l : List α) :
    adjacent (l.map f) = (adjacent l).map (Prod.map f f) := by
  rw [adjacent, adjacent, ← List.map_tail, List.zip_map]

/-- Neighbours, read by their places. -/
theorem mapM_adjacent {α β : Type} (f : α → α → β) (l : List α) :
    ((List.range (l.length - 1)).mapM fun i =>
      l[i + 1]?.bind fun next => l[i]?.bind fun previous => some (f previous next)) =
        some ((adjacent l).map fun pair => f pair.1 pair.2) := by
  induction l with
  | nil => rfl
  | cons a rest ih =>
    cases rest with
    | nil => rfl
    | cons b rest =>
      have hrange : List.range ((a :: b :: rest).length - 1) =
          0 :: (List.range ((b :: rest).length - 1)).map Nat.succ := List.range_succ_eq_map
      rw [hrange, List.mapM_cons, List.mapM_map]
      simp only [Function.comp_def, Nat.succ_eq_add_one, List.getElem?_cons_succ] at ih ⊢
      rw [ih]
      rfl

theorem spacings_length (samples : List ℤ) : (spacings samples).length = samples.length - 1 := by
  rw [spacings, List.length_map, adjacent_length, List.length_insertionSort]

/-- What lies between the first and the last adds up. -/
theorem sum_adjacent {l : List ℤ} {first last : ℤ} (hfirst : l.head? = some first)
    (hlast : l.getLast? = some last) :
    ((adjacent l).map fun pair => pair.2 - pair.1).sum = last - first := by
  induction l generalizing first with
  | nil => cases hfirst
  | cons a rest ih =>
    cases hfirst
    cases rest with
    | nil =>
      cases hlast
      simp [adjacent]
    | cons b rest =>
      have hrest := ih rfl (by rwa [List.getLast?_cons_cons] at hlast)
      have hcons : adjacent (a :: b :: rest) = (a, b) :: adjacent (b :: rest) := rfl
      rw [hcons, List.map_cons, List.sum_cons, hrest]
      omega

/-- **The spacings** are not negative, and together they are the range. -/
theorem spacings_range {samples : List ℤ} {least greatest : ℤ}
    (hleast : IsLeast {v | v ∈ samples} least)
    (hgreatest : IsGreatest {v | v ∈ samples} greatest) :
    (∀ spacing ∈ spacings samples, 0 ≤ spacing) ∧ (spacings samples).sum = greatest - least := by
  have hne : samples.insertionSort (· ≤ ·) ≠ [] := by
    refine List.ne_nil_of_mem ((List.mem_insertionSort (· ≤ ·)).mpr hleast.1)
  refine ⟨List.forall_mem_map.mpr fun pair hpair => Int.sub_nonneg_of_le
    (adjacent_of_pairwise (List.pairwise_insertionSort (· ≤ ·) samples) pair hpair), ?_⟩
  have hfirst := List.head?_eq_some_head hne
  have hlast := List.getLast?_eq_some_getLast hne
  rw [spacings, sum_adjacent hfirst hlast, (isLeast_sorted hfirst).unique hleast,
    (isGreatest_sorted hlast).unique hgreatest]

end TraceForge.Library.OrderStatistics
