import Mathlib

/-! Ordered maps, as `std::map` has them.

`update` is what `map[key]` does when it is assigned to or changed: a missing entry is made first.
Updates of different keys commute, whatever they do to their entries. -/
namespace TraceForge.Library
open Std

section
variable {α β : Type} [Ord α] [Ord β]

/-- Pairs are ordered by their first part, then by their second. -/
instance pairOrd : Ord (α × β) := lexOrd

variable [TransOrd α] [TransOrd β]

instance pairTransOrd : TransOrd (α × β) :=
  inferInstanceAs (TransCmp (compareLex (compareOn Prod.fst) (compareOn Prod.snd)))

instance pairLawfulEqOrd [LawfulEqOrd α] [LawfulEqOrd β] : LawfulEqOrd (α × β) where
  eq_of_compare {a b} h := by
    obtain ⟨hfst, hsnd⟩ := compareLex_eq_eq.mp h
    exact Prod.ext (LawfulEqCmp.eq_of_compare hfst) (LawfulEqCmp.eq_of_compare hsnd)

end

section
variable {κ β : Type} {cmp : κ → κ → Ordering} [TransCmp cmp] [Inhabited β]

/-- Change the entry of `k`, made from the default if there is none. -/
def update (m : ExtTreeMap κ β cmp) (k : κ) (f : β → β) : ExtTreeMap κ β cmp :=
  m.alter k fun entry => some (f (entry.getD default))

variable [LawfulEqCmp cmp] (m : ExtTreeMap κ β cmp) {k k' : κ}

theorem update_self (k : κ) (f : β → β) : (update m k f)[k]? = some (f (m[k]?.getD default)) := by
  rw [update, ExtTreeMap.getElem?_alter, if_pos ReflCmp.compare_self]

theorem update_of_ne (h : k ≠ k') (f : β → β) : (update m k f)[k']? = m[k']? := by
  rw [update, ExtTreeMap.getElem?_alter, if_neg (mt LawfulEqCmp.eq_of_compare h)]

/-- **Updates of different keys commute.** -/
theorem update_comm (h : k ≠ k') (f g : β → β) :
    update (update m k f) k' g = update (update m k' g) k f := by
  refine ExtTreeMap.ext_getElem? fun x => ?_
  by_cases hk : k = x
  · subst hk
    rw [update_of_ne _ h.symm, update_self, update_self, update_of_ne _ h.symm]
  · rw [update_of_ne _ hk]
    by_cases hk' : k' = x
    · subst hk'
      rw [update_self, update_self, update_of_ne _ hk]
    · rw [update_of_ne _ hk', update_of_ne _ hk', update_of_ne _ hk]

theorem mem_update {f : β → β} : k' ∈ update m k f ↔ k = k' ∨ k' ∈ m := by
  rw [update, ExtTreeMap.mem_alter]
  by_cases h : k = k'
  · subst h
    rw [if_pos ReflCmp.compare_self]
    exact iff_of_true rfl (.inl rfl)
  · rw [if_neg (mt LawfulEqCmp.eq_of_compare h)]
    exact ⟨.inr, fun hor => hor.resolve_left h⟩

/-- The keys of a map that every step of a fold updates. -/
theorem mem_foldl_update {σ γ : Type} {step : σ → γ → σ} {view : σ → ExtTreeMap κ β cmp}
    {key : γ → κ} (hstep : ∀ s a, ∃ f, view (step s a) = update (view s) (key a) f) (l : List γ)
    (s : σ) : k ∈ view (l.foldl step s) ↔ k ∈ view s ∨ ∃ a ∈ l, key a = k := by
  induction l generalizing s with
  | nil => simp
  | cons a rest ih =>
    obtain ⟨f, hf⟩ := hstep s a
    rw [List.foldl_cons, ih, hf, mem_update, List.exists_mem_cons_iff, or_comm (a := key a = k),
      or_assoc]

omit [Inhabited β] in
/-- **The entry of a key** is the only one with that key. -/
theorem toList_filter_key [DecidableEq κ] (k : κ) :
    (m.toList.filter fun entry => entry.1 = k) = (m[k]?.map fun value => (k, value)).toList := by
  have hkeys : ∀ entry ∈ m.toList.filter fun entry => entry.1 = k,
      entry.1 = k ∧ m[k]? = some entry.2 := by
    intro entry h
    obtain ⟨hmem, hkey⟩ := List.mem_filter.mp h
    have hk : entry.1 = k := by simpa using hkey
    exact ⟨hk, hk ▸ ExtTreeMap.mem_toList_iff_getElem?_eq_some.mp hmem⟩
  have hdistinct : (m.toList.filter fun entry => entry.1 = k).Pairwise fun a b =>
      ¬cmp a.1 b.1 = .eq := ExtTreeMap.distinct_keys_toList.filter _
  cases hfound : m.toList.filter fun entry => entry.1 = k with
  | nil =>
    cases hvalue : m[k]? with
    | none => rfl
    | some value =>
      have hmem : (k, value) ∈ m.toList.filter fun entry => entry.1 = k :=
        List.mem_filter.mpr ⟨ExtTreeMap.mem_toList_iff_getElem?_eq_some.mpr hvalue, by simp⟩
      rw [hfound] at hmem
      exact absurd hmem List.not_mem_nil
  | cons entry rest =>
    rw [hfound] at hkeys hdistinct
    obtain ⟨⟨hk, hvalue⟩, hrest⟩ := List.forall_mem_cons.mp hkeys
    cases rest with
    | nil =>
      rw [hvalue, ← hk]
      rfl
    | cons other rest =>
      have hne := List.rel_of_pairwise_cons hdistinct List.mem_cons_self
      obtain ⟨hother, _⟩ := hrest other List.mem_cons_self
      exact absurd (by rw [hk, hother]; exact ReflCmp.compare_self) hne

end

end TraceForge.Library
