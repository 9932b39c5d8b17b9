import Mathlib.Data.List.Basic

/-! Binary search in ordered lists.

What a search needs of its list is that the predicate holds on a front part and nowhere behind it
(`Fronted`). `lowerBound` halves the range until it has the end of that part, so what it leaves is
a filter of the list (`drop_lowerBound`); a loop that stops at the first element past the part sees
a filter too (`takeWhile_fronted`). The ends of an ordered list are its least and greatest
elements. -/
namespace TraceForge.Library.Search

variable {α : Type}

/-- The predicate holds of an element only if it holds of all before it. -/
def Fronted (below : α → Bool) (xs : List α) : Prop :=
  xs.Pairwise fun a b => below b = true → below a = true

/-- `std::lower_bound` over the `len` elements from `first` on. -/
def lowerBoundFrom (below : α → Bool) (xs : List α) (first len : Nat)
    (h : first + len ≤ xs.length) : Nat :=
  if hlen : len = 0 then first
  else
    have hmiddle : first + len / 2 < xs.length := by omega
    if below xs[first + len / 2] then
      lowerBoundFrom below xs (first + len / 2 + 1) (len - len / 2 - 1) (by omega)
    else lowerBoundFrom below xs first (len / 2) (by omega)
termination_by len

def lowerBound (below : α → Bool) (xs : List α) : Nat :=
  lowerBoundFrom below xs 0 xs.length (Nat.le_of_eq (Nat.zero_add _))

theorem fronted_at {below : α → Bool} {xs : List α} (hfront : Fronted below xs) {i j : Nat}
    (hij : i ≤ j) (hj : j < xs.length) (h : below xs[j] = true) : below xs[i] = true := by
  rcases Nat.lt_or_eq_of_le hij with hlt | rfl
  · exact List.pairwise_iff_getElem.mp hfront i j (by omega) hj hlt h
  · exact h

/-- **The search ends at the boundary**, when everything before its range is below and nothing
behind it is. -/
theorem lowerBoundFrom_boundary {below : α → Bool} {xs : List α} (hfront : Fronted below xs)
    (first len : Nat) (h : first + len ≤ xs.length)
    (hbefore : ∀ i (hi : i < xs.length), i < first → below xs[i] = true)
    (hbehind : ∀ i (hi : i < xs.length), first + len ≤ i → below xs[i] = false) :
    ∀ i (hi : i < xs.length), below xs[i] = decide (i < lowerBoundFrom below xs first len h) := by
  induction len using Nat.strongRecOn generalizing first with
  | _ len ih =>
    rw [lowerBoundFrom]
    by_cases hlen : len = 0
    · rw [dif_pos hlen]
      intro i hi
      by_cases hlt : i < first
      · rw [hbefore i hi hlt, decide_eq_true hlt]
      · rw [hbehind i hi (by omega), decide_eq_false hlt]
    · rw [dif_neg hlen]
      have hmiddle : first + len / 2 < xs.length := by omega
      by_cases hbelow : below xs[first + len / 2] = true
      · rw [if_pos hbelow]
        refine ih _ (by omega) _ (by omega) (fun i hi hlt => ?_)
          fun i hi hle => hbehind i hi (by omega)
        exact fronted_at hfront (by omega) hmiddle hbelow
      · rw [if_neg hbelow]
        refine ih _ (by omega) _ (by omega) hbefore fun i hi hle => ?_
        by_contra habove
        exact hbelow (fronted_at hfront hle hi (by simpa using habove))

theorem lowerBound_boundary {below : α → Bool} {xs : List α} (hfront : Fronted below xs) (i : Nat)
    (hi : i < xs.length) : below xs[i] = decide (i < lowerBound below xs) :=
  lowerBoundFrom_boundary hfront 0 xs.length _ (fun _ _ h => absurd h (Nat.not_lt_zero _))
    (fun _ hi h => absurd hi (by omega)) i hi

/-- What a lower bound leaves is what is not below. -/
theorem drop_lowerBound {below : α → Bool} {xs : List α} (hfront : Fronted below xs) :
    xs.drop (lowerBound below xs) = xs.filter fun x => !below x := by
  have htake : (xs.take (lowerBound below xs)).filter (fun x => !below x) = [] := by
    refine List.filter_eq_nil_iff.mpr fun x hx => ?_
    obtain ⟨i, hi, rfl⟩ := List.getElem_of_mem hx
    rw [List.length_take] at hi
    rw [List.getElem_take, lowerBound_boundary hfront i (by omega), decide_eq_true (by omega)]
    decide
  have hdrop : (xs.drop (lowerBound below xs)).filter (fun x => !below x) =
      xs.drop (lowerBound below xs) := by
    refine List.filter_eq_self.mpr fun x hx => ?_
    obtain ⟨i, hi, rfl⟩ := List.getElem_of_mem hx
    rw [List.length_drop] at hi
    rw [List.getElem_drop, lowerBound_boundary hfront _ (by omega), decide_eq_false (by omega)]
    rfl
  conv => rhs; rw [← List.take_append_drop (lowerBound below xs) xs]
  rw [List.filter_append, htake, hdrop, List.nil_append]

/-- Stopping at the first element past the part keeps the part. -/
theorem takeWhile_fronted {below : α → Bool} {xs : List α} (hfront : Fronted below xs) :
    xs.takeWhile below = xs.filter below := by
  induction xs with
  | nil => rfl
  | cons x rest ih =>
    obtain ⟨hx, hrest⟩ := List.pairwise_cons.mp hfront
    by_cases hbelow : below x = true
    · rw [List.takeWhile_cons_of_pos hbelow, List.filter_cons_of_pos hbelow, ih hrest]
    · have hnone : rest.filter below = [] :=
        List.filter_eq_nil_iff.mpr fun y hy hb => hbelow (hx y hy hb)
      rw [List.takeWhile_cons_of_neg hbelow, List.filter_cons_of_neg hbelow, hnone]

theorem fronted_filter {below : α → Bool} {xs : List α} (hfront : Fronted below xs)
    (keep : α → Bool) : Fronted below (xs.filter keep) :=
  List.Pairwise.sublist List.filter_sublist hfront

/-! ### The ends of an ordered list -/

section Ends
variable [LE α] [Std.IsLinearOrder α]

theorem min?_ordered [Min α] [Std.LawfulOrderMin α] {xs : List α}
    (hordered : xs.Pairwise fun a b => a ≤ b) : xs.min? = xs.head? := by
  cases xs with
  | nil => rfl
  | cons x rest =>
    refine List.min?_eq_some_iff.mpr ⟨List.mem_cons_self, fun y hy => ?_⟩
    rcases List.mem_cons.mp hy with rfl | hy
    · exact Std.le_refl y
    · exact (List.pairwise_cons.mp hordered).1 y hy

theorem max?_ordered [Max α] [Std.LawfulOrderMax α] {xs : List α}
    (hordered : xs.Pairwise fun a b => a ≤ b) : xs.max? = xs.getLast? := by
  rcases List.eq_nil_or_concat xs with rfl | ⟨before, x, rfl⟩
  · rfl
  · rw [List.concat_eq_append] at hordered ⊢
    rw [List.getLast?_concat]
    refine List.max?_eq_some_iff.mpr
      ⟨List.mem_append_right _ (List.mem_singleton.mpr rfl), fun y hy => ?_⟩
    rcases List.mem_append.mp hy with hy | hy
    · exact (List.pairwise_append.mp hordered).2.2 y hy x (List.mem_singleton.mpr rfl)
    · rw [List.mem_singleton.mp hy]
      exact Std.le_refl x

end Ends

end TraceForge.Library.Search
