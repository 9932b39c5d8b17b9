import Mathlib.Data.List.Infix

/-! Histories: what has happened, oldest first.

A `law` says which event may come after which past. A history is `Lawful` when every event in it
was allowed by what came before, however long it has grown since (`Lawful.at`). -/
namespace TraceForge.Library

variable {ε : Type} {law : List ε → ε → Prop}

inductive Lawful (law : List ε → ε → Prop) : List ε → Prop where
  | nil : Lawful law []
  | snoc {past : List ε} {e : ε} (h : Lawful law past) (he : law past e) :
      Lawful law (past ++ [e])

/-- An event of a longer history is the last one or one of the history before. -/
theorem split_snoc {past before later : List ε} {e x : ε}
    (h : before ++ [x] = past ++ e :: later) :
    before = past ∧ x = e ∧ later = [] ∨
      ∃ rest, later = rest ++ [x] ∧ before = past ++ e :: rest := by
  rcases List.eq_nil_or_concat later with rfl | ⟨rest, y, rfl⟩
  · obtain ⟨hbefore, hx⟩ := List.append_inj' h rfl
    exact .inl ⟨hbefore, (List.cons.inj hx).1, rfl⟩
  · rw [List.concat_eq_append, ← List.cons_append, ← List.append_assoc] at h
    obtain ⟨hbefore, hx⟩ := List.append_inj' h rfl
    rw [← (List.cons.inj hx).1] at *
    exact .inr ⟨rest, List.concat_eq_append, hbefore⟩

/-- **Every event of a lawful history** was allowed when it happened. -/
theorem Lawful.at {history past later : List ε} {e : ε} (h : Lawful law history)
    (hsplit : history = past ++ e :: later) : law past e := by
  induction h generalizing later with
  | nil => exact absurd hsplit.symm (List.append_ne_nil_of_right_ne_nil _ (List.cons_ne_nil _ _))
  | snoc _ he ih =>
    rcases split_snoc hsplit with ⟨rfl, rfl, _⟩ | ⟨rest, _, hbefore⟩
    · exact he
    · exact ih hbefore

/-- The largest value a measure took, over all the pasts of a history. -/
structure Peak (measure : List ε → Nat) (history : List ε) (peak : Nat) : Prop where
  reached : ∃ past, past <+: history ∧ measure past = peak
  bound : ∀ past, past <+: history → measure past ≤ peak

theorem Peak.nil (measure : List ε → Nat) : Peak measure [] (measure []) where
  reached := ⟨[], List.prefix_rfl, rfl⟩
  bound past h := by rw [List.prefix_nil.mp h]

theorem Peak.snoc {measure : List ε → Nat} {history : List ε} {peak : Nat} (e : ε)
    (h : Peak measure history peak) :
    Peak measure (history ++ [e]) (max peak (measure (history ++ [e]))) where
  reached := by
    rcases Nat.le_total peak (measure (history ++ [e])) with hle | hle
    · exact ⟨_, List.prefix_rfl, (Nat.max_eq_right hle).symm⟩
    · obtain ⟨past, hpast, hmeasure⟩ := h.reached
      exact ⟨past, hpast.trans (List.prefix_append ..), hmeasure.trans (Nat.max_eq_left hle).symm⟩
  bound past hpast := by
    rcases List.prefix_concat_iff.mp hpast with rfl | hbefore
    · exact Nat.le_max_right ..
    · exact Nat.le_trans (h.bound past hbefore) (Nat.le_max_left ..)

end TraceForge.Library
