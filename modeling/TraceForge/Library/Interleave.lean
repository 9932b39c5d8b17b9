import Mathlib.Algebra.Ring.Nat
import Mathlib.Data.List.Perm.Basic

/-! Interleavings: one list made of several, told apart by a key.

What a key contributes is the sublist of its elements. Two lists are interleavings of the same
contributions when every key's sublist is the same in both (`SameViews`). A fold over either ends
the same when the steps of different keys commute (`SameViews.foldl`), and a part of the state
that only one key's steps touch is the fold of that key's sublist alone (`foldl_view`). The
sublists make up the whole list (`sum_views`); what happens within one is often said of its
`adjacent` elements. -/
namespace TraceForge.Library

section
variable {α κ : Type} [DecidableEq κ] {key : α → κ} {l l' : List α}

/-- The elements of key `k`, in order. -/
def viewOf (key : α → κ) (k : κ) (l : List α) : List α := l.filter fun a => key a = k

def SameViews (key : α → κ) (l l' : List α) : Prop := ∀ k, viewOf key k l = viewOf key k l'

theorem viewOf_cons_self (a : α) (rest : List α) :
    viewOf key (key a) (a :: rest) = a :: viewOf key (key a) rest :=
  List.filter_cons_of_pos (decide_eq_true rfl)

theorem viewOf_cons_of_ne {k : κ} {a : α} (h : key a ≠ k) (rest : List α) :
    viewOf key k (a :: rest) = viewOf key k rest :=
  List.filter_cons_of_neg (by simpa using h)

@[simp] theorem viewOf_append (k : κ) (before after : List α) :
    viewOf key k (before ++ after) = viewOf key k before ++ viewOf key k after :=
  List.filter_append ..

theorem viewOf_eq_nil {k : κ} (h : ∀ a ∈ l, key a ≠ k) : viewOf key k l = [] :=
  List.filter_eq_nil_iff.mpr fun a ha => by simpa using h a ha

theorem viewOf_eq_self {k : κ} (h : ∀ a ∈ l, key a = k) : viewOf key k l = l :=
  List.filter_eq_self.mpr fun a ha => by simpa using h a ha

theorem viewOf_map {β : Type} (f : β → α) (k : κ) (bs : List β) :
    viewOf key k (bs.map f) = (viewOf (fun b => key (f b)) k bs).map f :=
  List.filter_map

/-- A list of parts, each of one key, is seen part by part. -/
theorem viewOf_flatMap {γ : Type} {name : γ → κ} {part : γ → List α} {parts : List γ}
    (h : ∀ g ∈ parts, ∀ a ∈ part g, key a = name g) (k : κ) :
    viewOf key k (parts.flatMap part) = (viewOf name k parts).flatMap part := by
  induction parts with
  | nil => rfl
  | cons g rest ih =>
    obtain ⟨hg, hrest⟩ := List.forall_mem_cons.mp h
    rw [List.flatMap_cons, viewOf_append, ih hrest]
    by_cases hk : name g = k
    · subst hk
      rw [viewOf_eq_self hg, viewOf_cons_self, List.flatMap_cons]
    · rw [viewOf_eq_nil fun a ha => (hg a ha).trans_ne hk, viewOf_cons_of_ne hk, List.nil_append]

theorem SameViews.eq_nil (h : SameViews key [] l') : l' = [] := by
  cases l' with
  | nil => rfl
  | cons a rest =>
    have ha := h (key a)
    rw [viewOf_cons_self] at ha
    cases ha

/-- The first element of one list stands in the other behind elements of other keys. -/
theorem SameViews.cons {a : α} {rest : List α} (h : SameViews key (a :: rest) l') :
    ∃ before after, l' = before ++ a :: after ∧ (∀ b ∈ before, key b ≠ key a) ∧
      SameViews key rest (before ++ after) := by
  have ha := (h (key a)).symm
  rw [viewOf_cons_self] at ha
  obtain ⟨before, after, rfl, hbefore, _, _⟩ := List.filter_eq_cons_iff.mp ha
  have hne : ∀ b ∈ before, key b ≠ key a := fun b hb => by simpa using hbefore b hb
  refine ⟨before, after, rfl, hne, fun k => ?_⟩
  have hk := h k
  by_cases hka : key a = k
  · subst hka
    rw [viewOf_append, viewOf_cons_self, viewOf_cons_self, viewOf_eq_nil hne] at hk
    rw [viewOf_append, viewOf_eq_nil hne]
    exact List.tail_eq_of_cons_eq hk
  · rw [viewOf_append, viewOf_cons_of_ne hka, viewOf_cons_of_ne hka] at hk
    rw [viewOf_append]
    exact hk

/-- Putting a list in order keeps what each key contributes, when that is in order already. -/
theorem sameViews_of_perm {r : α → α → Prop} (hperm : l.Perm l')
    (hl : ∀ k, (viewOf key k l).Pairwise r) (hl' : ∀ k, (viewOf key k l').Pairwise r)
    (hantisymm : ∀ k, ∀ a ∈ viewOf key k l, ∀ b ∈ viewOf key k l, r a b → r b a → a = b) :
    SameViews key l l' := by
  intro k
  have hview : (viewOf key k l).Perm (viewOf key k l') := hperm.filter _
  refine hview.eq_of_pairwise (fun a b ha hb => ?_) (hl k) (hl' k)
  exact hantisymm k a ha b (hview.mem_iff.mpr hb)

/-- **Interleavings of the same contributions** hold each element equally often. -/
theorem SameViews.perm (h : SameViews key l l') : l.Perm l' := by
  induction l generalizing l' with
  | nil => rw [h.eq_nil]
  | cons a rest ih =>
    obtain ⟨before, after, rfl, _, hrest⟩ := h.cons
    exact ((ih hrest).cons a).trans List.perm_middle.symm

/-- A list that contributes no more of any key is no longer. -/
theorem length_le_of_views (h : ∀ k, (viewOf key k l).Sublist (viewOf key k l')) :
    l.length ≤ l'.length := by
  classical
  have hcount (a : α) (l : List α) : (viewOf key (key a) l).count a = l.count a :=
    List.count_filter (decide_eq_true rfl)
  refine (List.subperm_ext_iff.mpr fun a _ => ?_).length_le
  rw [← hcount a l, ← hcount a l']
  exact (h (key a)).count_le a

end

/-! ### Folds -/

section
variable {α κ σ τ : Type} {key : α → κ} {step : σ → α → σ}

/-- Steps of different keys may be swapped, up to a relation that the steps respect. -/
structure Commutes (key : α → κ) (step : σ → α → σ) (r : σ → σ → Prop) : Prop where
  equivalence : Equivalence r
  respects : ∀ (a : α) {s t : σ}, r s t → r (step s a) (step t a)
  swap : ∀ (a b : α) (s : σ), key a ≠ key b → r (step (step s a) b) (step (step s b) a)

variable {r : σ → σ → Prop}

theorem Commutes.foldl_respects (hc : Commutes key step r) (l : List α) {s t : σ} (h : r s t) :
    r (l.foldl step s) (l.foldl step t) := by
  induction l generalizing s t with
  | nil => exact h
  | cons a rest ih => exact ih (hc.respects a h)

/-- A step may be made before steps of other keys instead of after them. -/
theorem Commutes.forward (hc : Commutes key step r) {a : α} {before : List α}
    (hne : ∀ b ∈ before, key b ≠ key a) (s : σ) :
    r (step (before.foldl step s) a) (before.foldl step (step s a)) := by
  induction before generalizing s with
  | nil => exact hc.equivalence.refl _
  | cons b rest ih =>
    obtain ⟨hb, hrest⟩ := List.forall_mem_cons.mp hne
    exact hc.equivalence.trans (ih hrest (step s b))
      (hc.foldl_respects rest (hc.swap b a s hb))

variable [DecidableEq κ]

/-- **Interleavings of the same contributions end alike**, when the steps of different keys
commute. -/
theorem SameViews.foldl {l l' : List α} (h : SameViews key l l') (hc : Commutes key step r)
    (s : σ) : r (l.foldl step s) (l'.foldl step s) := by
  induction l generalizing l' s with
  | nil =>
    rw [h.eq_nil]
    exact hc.equivalence.refl _
  | cons a rest ih =>
    obtain ⟨before, after, rfl, hne, hrest⟩ := h.cons
    have hforward := hc.foldl_respects after (hc.forward hne s)
    rw [List.foldl_cons, List.foldl_append, List.foldl_cons]
    have hih := ih hrest (step s a)
    rw [List.foldl_append] at hih
    exact hc.equivalence.trans hih (hc.equivalence.symm hforward)

/-- **What only the steps of one key touch** comes from that key's elements alone. -/
theorem foldl_view {k : κ} (view : σ → τ) (own : τ → α → τ)
    (hown : ∀ s a, key a = k → view (step s a) = own (view s) a)
    (hother : ∀ s a, key a ≠ k → view (step s a) = view s) (l : List α) (s : σ) :
    view (l.foldl step s) = (viewOf key k l).foldl own (view s) := by
  induction l generalizing s with
  | nil => rfl
  | cons a rest ih =>
    rw [List.foldl_cons, ih]
    by_cases ha : key a = k
    · subst ha
      rw [viewOf_cons_self, List.foldl_cons, hown s a rfl]
    · rw [viewOf_cons_of_ne ha, hother s a ha]

end

/-- A counter that goes up at some of the elements. -/
theorem foldl_counter {α σ : Type} {step : σ → α → σ} (view : σ → UInt64) (p : α → Bool)
    (hstep : ∀ s a, view (step s a) = view s + if p a then 1 else 0) (l : List α) (s : σ) :
    view (l.foldl step s) = view s + UInt64.ofNat (l.countP p) := by
  induction l generalizing s with
  | nil => exact (UInt64.add_zero _).symm
  | cons a rest ih =>
    rw [List.foldl_cons, ih, hstep, List.countP_cons, UInt64.add_assoc, Nat.add_comm,
      UInt64.ofNat_add]
    split <;> rfl

/-! ### Sums over keys -/

section
variable {α κ : Type}

/-- When only one key's number grows, the sum grows by as much. -/
theorem sum_map_grown {keys : List κ} (hnodup : keys.Nodup) {k : κ} (hk : k ∈ keys)
    {f g : κ → Nat} {d : Nat} (hself : g k = f k + d) (hother : ∀ k', k' ≠ k → g k' = f k') :
    (keys.map g).sum = (keys.map f).sum + d := by
  induction keys with
  | nil => cases hk
  | cons first rest ih =>
    obtain ⟨hfirst, hrest⟩ := List.nodup_cons.mp hnodup
    rw [List.map_cons, List.map_cons, List.sum_cons, List.sum_cons]
    rcases List.mem_cons.mp hk with rfl | hin
    · have hsame : rest.map g = rest.map f := List.map_congr_left fun k' hk' =>
        hother k' fun heq => hfirst (heq ▸ hk')
      rw [hself, hsame]
      omega
    · rw [hother first fun heq => hfirst (heq ▸ hin), ih hrest hin, Nat.add_assoc]

/-- When only one key's number drops, the sum drops at least as far. -/
theorem sum_map_less {keys : List κ} {k : κ} (hk : k ∈ keys) {f g : κ → Nat} {d : Nat}
    (hself : g k + d ≤ f k) (hother : ∀ k', k' ≠ k → g k' = f k') :
    (keys.map g).sum + d ≤ (keys.map f).sum := by
  have hle (k' : κ) : g k' ≤ f k' := by
    by_cases heq : k' = k
    · rw [heq]
      omega
    · exact Nat.le_of_eq (hother k' heq)
  have hsum (l : List κ) : (l.map g).sum ≤ (l.map f).sum := by
    induction l with
    | nil => exact Nat.le_refl _
    | cons first rest ih =>
      rw [List.map_cons, List.map_cons, List.sum_cons, List.sum_cons]
      exact Nat.add_le_add (hle first) ih
  induction keys with
  | nil => cases hk
  | cons first rest ih =>
    rw [List.map_cons, List.map_cons, List.sum_cons, List.sum_cons]
    rcases List.mem_cons.mp hk with rfl | hin
    · have hrest := hsum rest
      omega
    · have hfirst := hle first
      have hrest := ih hin
      omega

/-- When one element's number drops, the sum drops as far. -/
theorem sum_set_less {l : List α} {i : Nat} {a b : α} {f : α → Nat} {d : Nat} (ha : l[i]? = some a)
    (hless : f b + d ≤ f a) : ((l.set i b).map f).sum + d ≤ (l.map f).sum := by
  induction l generalizing i with
  | nil => cases ha
  | cons first rest ih =>
    cases i with
    | zero =>
      cases ha
      rw [List.set_cons_zero, List.map_cons, List.map_cons, List.sum_cons, List.sum_cons]
      omega
    | succ i =>
      have hrest := ih ha
      rw [List.set_cons_succ, List.map_cons, List.map_cons, List.sum_cons, List.sum_cons]
      omega

variable [DecidableEq κ] {key : α → κ}

/-- **Every element is in one view.** -/
theorem sum_views {keys : List κ} (hnodup : keys.Nodup) {l : List α} (h : ∀ a ∈ l, key a ∈ keys) :
    (keys.map fun k => (viewOf key k l).length).sum = l.length := by
  induction l with
  | nil =>
    refine List.sum_eq_zero_iff_forall_eq_nat.mpr fun n hn => ?_
    obtain ⟨k, _, rfl⟩ := List.mem_map.mp hn
    rfl
  | cons a rest ih =>
    obtain ⟨ha, hrest⟩ := List.forall_mem_cons.mp h
    rw [List.length_cons, ← ih hrest]
    refine sum_map_grown hnodup ha ?_ fun k' hne => ?_
    · rw [viewOf_cons_self, List.length_cons]
    · rw [viewOf_cons_of_ne hne.symm]

end

/-! ### Adjacent elements -/

section
variable {α : Type}

def adjacent (l : List α) : List (α × α) := l.zip l.tail

theorem adjacent_snoc (l : List α) (a : α) :
    adjacent (l ++ [a]) = adjacent l ++ (l.getLast?.map fun b => (b, a)).toList := by
  induction l with
  | nil => rfl
  | cons b rest ih =>
    cases rest with
    | nil => rfl
    | cons c rest => exact congrArg ((b, c) :: ·) ih

theorem adjacent_of_pairwise {R : α → α → Prop} {l : List α} (h : l.Pairwise R) :
    ∀ pair ∈ adjacent l, R pair.1 pair.2 := by
  induction l with
  | nil => exact fun pair hpair => absurd hpair List.not_mem_nil
  | cons a rest ih =>
    obtain ⟨ha, hrest⟩ := List.pairwise_cons.mp h
    cases rest with
    | nil => exact fun pair hpair => absurd hpair List.not_mem_nil
    | cons b rest => exact List.forall_mem_cons.mpr ⟨ha b List.mem_cons_self, ih hrest⟩

end

end TraceForge.Library
