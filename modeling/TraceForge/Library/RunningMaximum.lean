import Mathlib.Data.List.Induction
import Mathlib.Order.Bounds.Basic

/-! The greatest element of a list that grows.

An element is behind when one before it is at least as great. Whether the next element will be
behind is decided by the greatest so far alone (`reached_iff`), so a tracker that keeps only that
one can count those that are (`behind_snoc`). -/
namespace TraceForge.Library.RunningMaximum

variable {α : Type} [LinearOrder α]

/-- How many elements are behind. -/
def behind (xs : List α) : ℕ :=
  xs.zipIdx.countP fun entry => (xs.take entry.2).any fun earlier => decide (entry.1 ≤ earlier)

theorem behind_snoc (xs : List α) (x : α) :
    behind (xs ++ [x]) = behind xs + if ∃ y ∈ xs, x ≤ y then 1 else 0 := by
  have hbefore : xs.zipIdx.countP (fun entry =>
        ((xs ++ [x]).take entry.2).any fun earlier => decide (entry.1 ≤ earlier)) = behind xs := by
    refine List.countP_congr fun entry hentry => ?_
    have hindex : entry.2 ≤ xs.length := Nat.le_of_lt (List.snd_lt_of_mem_zipIdx hentry)
    rw [List.take_append_of_le_length hindex]
  have htake : (xs ++ [x]).take xs.length = xs := List.take_left
  rw [behind, List.zipIdx_append, List.countP_append, hbefore, Nat.zero_add, List.zipIdx_singleton,
    List.countP_singleton, htake]
  simp only [List.any_eq_true, decide_eq_true_eq]

/-- The first is not. -/
theorem behind_lt {xs : List α} (h : xs ≠ []) : behind xs < xs.length := by
  induction xs using List.reverseRecOn with
  | nil => exact absurd rfl h
  | append_singleton xs x ih =>
    rw [behind_snoc, List.length_append, List.length_singleton]
    by_cases hnil : xs = []
    · simp [hnil, behind]
    · have hxs := ih hnil
      split <;> omega

theorem behind_eq_zero {xs : List α} (h : xs.Pairwise (· < ·)) : behind xs = 0 := by
  induction xs using List.reverseRecOn with
  | nil => rfl
  | append_singleton xs x ih =>
    obtain ⟨hxs, _, hx⟩ := List.pairwise_append.mp h
    have hlater : ¬∃ y ∈ xs, x ≤ y := fun ⟨y, hy, hle⟩ =>
      (hx y hy x List.mem_cons_self).not_ge hle
    rw [behind_snoc, ih hxs, if_neg hlater]

/-! ### The greatest element -/

variable {xs : List α} {greatest x : α}

/-- Only the greatest counts. -/
theorem reached_iff (h : IsGreatest {y | y ∈ xs} greatest) :
    (∃ y ∈ xs, x ≤ y) ↔ x ≤ greatest :=
  ⟨fun ⟨_, hy, hle⟩ => hle.trans (h.2 hy), fun hle => ⟨greatest, h.1, hle⟩⟩

theorem isGreatest_snoc_of_le (h : IsGreatest {y | y ∈ xs} greatest) (hx : x ≤ greatest) :
    IsGreatest {y | y ∈ xs ++ [x]} greatest := by
  refine ⟨List.mem_append_left _ h.1, fun y hy => ?_⟩
  rcases List.mem_append.mp hy with hy | hy
  · exact h.2 hy
  · rwa [List.mem_singleton.mp hy]

theorem isGreatest_snoc_of_lt (h : IsGreatest {y | y ∈ xs} greatest) (hx : greatest < x) :
    IsGreatest {y | y ∈ xs ++ [x]} x := by
  refine ⟨List.mem_append_right _ List.mem_cons_self, fun y hy => ?_⟩
  rcases List.mem_append.mp hy with hy | hy
  · exact (h.2 hy).trans hx.le
  · exact (List.mem_singleton.mp hy).le

end TraceForge.Library.RunningMaximum
