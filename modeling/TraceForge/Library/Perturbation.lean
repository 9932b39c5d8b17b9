import Mathlib.Data.List.Basic

/-! A list that has been disturbed a little.

Each element meets a `Fate`: it is left out, kept, or repeated right after itself (`emit`). Then
neighbours change places (`Swaps`), pair after pair, so that no element is in two pairs: positions
are exchanged by an involution that moves none of them by more than one (`place`). -/
namespace TraceForge.Library.Perturbation

variable {α : Type}

/-! ### Leaving out and repeating -/

inductive Fate where
  | dropped
  | once
  | twice
deriving DecidableEq

def Fate.copies : Fate → ℕ
  | .dropped => 0
  | .once => 1
  | .twice => 2

/-- What is left of a list whose elements meet these fates. -/
def emit : List Fate → List α → List α
  | fate :: fates, x :: xs => List.replicate fate.copies x ++ emit fates xs
  | _, _ => []

theorem emit_length {fates : List Fate} {xs : List α} (h : fates.length = xs.length) :
    (emit fates xs).length + fates.count .dropped = xs.length + fates.count .twice := by
  induction fates generalizing xs with
  | nil =>
    rw [List.eq_nil_of_length_eq_zero h.symm]
    rfl
  | cons fate fates ih =>
    obtain _ | ⟨x, xs⟩ := xs
    · cases h
    have hrest := ih (Nat.succ.inj h)
    rw [emit, List.length_append, List.length_replicate]
    cases fate <;> simp [Fate.copies] <;> omega

theorem emit_count_le [DecidableEq α] (fates : List Fate) (xs : List α) (a : α) :
    (emit fates xs).count a ≤ 2 * xs.count a := by
  induction fates generalizing xs with
  | nil => exact Nat.zero_le _
  | cons fate fates ih =>
    obtain _ | ⟨x, xs⟩ := xs
    · exact Nat.zero_le _
    have hrest := ih xs
    have hcopies : fate.copies ≤ 2 := by cases fate <;> decide
    rw [emit, List.count_append, List.count_replicate, List.count_cons]
    split <;> omega

theorem emit_subset (fates : List Fate) (xs : List α) : emit fates xs ⊆ xs := by
  induction fates generalizing xs with
  | nil => exact List.nil_subset _
  | cons fate fates ih =>
    obtain _ | ⟨x, xs⟩ := xs
    · exact List.nil_subset _
    refine List.append_subset.mpr ⟨fun a ha => ?_, fun a ha => List.mem_cons_of_mem x (ih xs ha)⟩
    rw [List.eq_of_mem_replicate ha]
    exact List.mem_cons_self

/-- Where nothing is repeated, some of the list is left, in its order. -/
theorem emit_sublist {fates : List Fate} (h : ∀ fate ∈ fates, fate ≠ .twice) (xs : List α) :
    (emit fates xs).Sublist xs := by
  induction fates generalizing xs with
  | nil => exact List.nil_sublist _
  | cons fate fates ih =>
    obtain _ | ⟨x, xs⟩ := xs
    · exact List.nil_sublist _
    obtain ⟨hfate, hrest⟩ := List.forall_mem_cons.mp h
    rw [emit]
    cases fate with
    | dropped => exact (ih hrest xs).cons x
    | once => exact (ih hrest xs).cons_cons x
    | twice => exact absurd rfl hfate

/-- What is left without repetitions has none that were repeated. -/
theorem emit_nodup {fates : List Fate} {xs : List α} (h : fates.length = xs.length)
    (hnodup : (emit fates xs).Nodup) : fates.count .twice = 0 := by
  induction fates generalizing xs with
  | nil => rfl
  | cons fate fates ih =>
    obtain _ | ⟨x, xs⟩ := xs
    · cases h
    rw [emit] at hnodup
    have hrest := ih (Nat.succ.inj h) (List.nodup_append.mp hnodup).2.1
    cases fate with
    | dropped | once => rwa [List.count_cons_of_ne (by decide)]
    | twice => exact absurd (List.nodup_append.mp hnodup).1 (by simp [Fate.copies])

/-- A list that everybody leaves as it is. -/
theorem emit_once (xs : List α) : emit (List.replicate xs.length .once) xs = xs := by
  induction xs with
  | nil => rfl
  | cons x xs ih =>
    rw [List.length_cons, List.replicate_succ, emit, ih]
    rfl

/-! ### Swapping neighbours -/

/-- From the front on, each pair of neighbours is swapped or not; a pair that has been swapped is
left behind. The choices are those of the pairs that came up. -/
inductive Swaps : List Bool → List α → List α → Prop
  | nil : Swaps [] [] []
  | single (x : α) : Swaps [] [x] [x]
  | swap {choices : List Bool} {x y : α} {rest after : List α} (h : Swaps choices rest after) :
    Swaps (true :: choices) (x :: y :: rest) (y :: x :: after)
  | keep {choices : List Bool} {x y : α} {rest after : List α}
    (h : Swaps choices (y :: rest) after) : Swaps (false :: choices) (x :: y :: rest) (x :: after)

variable {choices : List Bool} {before after : List α}

theorem Swaps.perm (h : Swaps choices before after) : before.Perm after := by
  induction h with
  | nil => exact .refl _
  | single x => exact .refl _
  | swap _ ih => exact (List.Perm.swap _ _ _).trans ((ih.cons _).cons _)
  | keep _ ih => exact ih.cons _

/-- Nobody moves when no pair is swapped. -/
theorem Swaps.eq_of_none (h : Swaps choices before after) (hnone : ∀ c ∈ choices, c = false) :
    after = before := by
  induction h with
  | nil => rfl
  | single x => rfl
  | swap _ ih => exact absurd (hnone true List.mem_cons_self) (by decide)
  | keep _ ih => rw [ih fun c hc => hnone c (List.mem_cons_of_mem _ hc)]

/-- No more swaps than disjoint pairs. -/
theorem Swaps.count_le (h : Swaps choices before after) :
    2 * choices.count true ≤ before.length := by
  induction h with
  | nil => exact Nat.le_refl _
  | single x => exact Nat.zero_le _
  | swap _ ih =>
    rw [List.count_cons_self, List.length_cons, List.length_cons]
    omega
  | keep _ ih =>
    rw [List.count_cons_of_ne (by decide), List.length_cons]
    omega

/-! ### Positions -/

/-- Where the element at a position was before. -/
def place : List Bool → ℕ → ℕ
  | [], i => i
  | true :: _, 0 => 1
  | true :: _, 1 => 0
  | true :: choices, i + 2 => place choices i + 2
  | false :: _, 0 => 0
  | false :: choices, i + 1 => place choices i + 1

theorem place_place (choices : List Bool) (i : ℕ) : place choices (place choices i) = i := by
  fun_induction place choices i with
  | case1 i => rfl
  | case2 choices => rfl
  | case3 choices => rfl
  | case4 choices i ih => rw [place, ih]
  | case5 choices => rfl
  | case6 choices i ih => rw [place, ih]

/-- **Nobody moves by more than one position.** -/
theorem place_near (choices : List Bool) (i : ℕ) :
    place choices i ≤ i + 1 ∧ i ≤ place choices i + 1 := by
  fun_induction place choices i with
  | case1 i => omega
  | case2 choices => omega
  | case3 choices => omega
  | case4 choices i ih => omega
  | case5 choices => omega
  | case6 choices i ih => omega

theorem Swaps.getElem? (h : Swaps choices before after) (i : ℕ) :
    after[i]? = before[place choices i]? := by
  induction h generalizing i with
  | nil => rfl
  | single x => rfl
  | swap _ ih =>
    match i with
    | 0 => rfl
    | 1 => rfl
    | i + 2 => exact ih i
  | keep _ ih =>
    match i with
    | 0 => rfl
    | i + 1 => exact ih i

end TraceForge.Library.Perturbation
