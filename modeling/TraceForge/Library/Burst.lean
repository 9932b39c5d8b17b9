import Mathlib.Data.List.Basic

/-! Two lists of one length that differ only in a window.

`DiffersWithin.split` takes the window out: outside it the lists are one list. -/
namespace TraceForge.Library

variable {α : Type}

structure DiffersWithin (a b : List α) (lo hi : Nat) : Prop where
  length : b.length = a.length
  inside : ∀ i, b[i]? ≠ a[i]? → lo ≤ i ∧ i < hi

namespace DiffersWithin

theorem agree {a b : List α} {lo hi i : Nat} (h : DiffersWithin a b lo hi)
    (hi : i < lo ∨ hi ≤ i) : b[i]? = a[i]? := by
  by_contra hne
  obtain ⟨hlow, hhigh⟩ := h.inside i hne
  omega

/-- Lists that differ have a window to differ in. -/
theorem lt_of_ne {a b : List α} {lo hi : Nat} (h : DiffersWithin a b lo hi) (hne : b ≠ a) :
    lo < hi := by
  by_contra hempty
  apply hne
  apply List.ext_getElem?
  intro i
  exact h.agree (by omega)

theorem take_eq {a b : List α} {lo hi : Nat} (h : DiffersWithin a b lo hi) :
    b.take lo = a.take lo := by
  apply List.ext_getElem?
  intro i
  rw [List.getElem?_take, List.getElem?_take]
  split
  · exact h.agree (.inl ‹_›)
  · rfl

theorem drop_eq {a b : List α} {lo hi : Nat} (h : DiffersWithin a b lo hi) :
    b.drop hi = a.drop hi := by
  apply List.ext_getElem?
  intro i
  rw [List.getElem?_drop, List.getElem?_drop]
  exact h.agree (.inr (Nat.le_add_right hi i))

theorem cut (l : List α) {lo hi : Nat} (hle : lo ≤ hi) :
    l.take lo ++ ((l.drop lo).take (hi - lo) ++ l.drop hi) = l := by
  have hdrop : l.drop hi = (l.drop lo).drop (hi - lo) := by
    rw [List.drop_drop, Nat.add_sub_cancel' hle]
  rw [hdrop, List.take_append_drop, List.take_append_drop]

/-- The lists with the window taken out: two parts no longer than it, in one surrounding. -/
theorem split {a b : List α} {lo hi : Nat} (h : DiffersWithin a b lo hi) (hle : lo ≤ hi) :
    ∃ before x y after, a = before ++ x ++ after ∧ b = before ++ y ++ after ∧
      x.length = y.length ∧ x.length ≤ hi - lo := by
  refine ⟨a.take lo, (a.drop lo).take (hi - lo), (b.drop lo).take (hi - lo), a.drop hi, ?_, ?_,
    ?_, ?_⟩
  · rw [List.append_assoc, cut a hle]
  · rw [List.append_assoc, ← h.take_eq, ← h.drop_eq, cut b hle]
  · simp only [List.length_take, List.length_drop, h.length]
  · rw [List.length_take]
    exact Nat.min_le_left _ _

/-- A window inside one part of the list is a window of that part. -/
theorem part {before a after l : List α} {lo hi : Nat}
    (h : DiffersWithin (before ++ (a ++ after)) l lo hi) (hlo : before.length ≤ lo)
    (hhi : hi ≤ before.length + a.length) :
    ∃ b, l = before ++ (b ++ after) ∧
      DiffersWithin a b (lo - before.length) (hi - before.length) := by
  have hwide : DiffersWithin (before ++ (a ++ after)) l before.length
      (before.length + a.length) :=
    ⟨h.length, fun i hne => by
      obtain ⟨hlow, hhigh⟩ := h.inside i hne
      omega⟩
  have htake := hwide.take_eq
  have hdrop := hwide.drop_eq
  rw [List.take_left] at htake
  rw [← List.append_assoc, ← List.length_append, List.drop_left, List.length_append] at hdrop
  have hc : l = before ++ ((l.drop before.length).take a.length ++ after) := by
    have hcut := cut l (Nat.le_add_right before.length a.length)
    rw [htake, hdrop, Nat.add_sub_cancel_left] at hcut
    exact hcut.symm
  generalize hb : (l.drop before.length).take a.length = b at hc
  have hlen : b.length = a.length := by
    have hl := h.length
    rw [hc] at hl
    simp only [List.length_append] at hl
    omega
  refine ⟨b, hc, hlen, fun i hne => ?_⟩
  have hin : i < a.length := by
    by_contra hout
    apply hne
    rw [List.getElem?_eq_none (by omega), List.getElem?_eq_none (by omega)]
  have hplace (m : List α) (hm : i < m.length) :
      (before ++ (m ++ after))[before.length + i]? = m[i]? := by
    rw [List.getElem?_append_right (Nat.le_add_right _ _), Nat.add_sub_cancel_left,
      List.getElem?_append_left hm]
  have hdiffer : l[before.length + i]? ≠ (before ++ (a ++ after))[before.length + i]? := by
    rw [hc, hplace b (by omega), hplace a hin]
    exact hne
  obtain ⟨hlow, hhigh⟩ := h.inside _ hdiffer
  omega

end DiffersWithin

end TraceForge.Library
