import Mathlib.Data.List.Basic

/-! Consecutive fields of fixed widths.

A header is the concatenation of its fields. `slice` reads a field back from where it stands, and
`chop` cuts a list into fields whose concatenation is the list again. -/
namespace TraceForge.Library.Fields

variable {α : Type}

def chop : List Nat → List α → List (List α)
  | [], _ => []
  | width :: widths, l => l.take width :: chop widths (l.drop width)

theorem chop_flatten (widths : List Nat) (l : List α) :
    (chop widths l).flatten = l.take (widths.foldr (· + ·) 0) := by
  induction widths generalizing l with
  | nil => rfl
  | cons width widths ih =>
    rw [chop, List.flatten_cons, ih, List.foldr_cons, List.take_add]

theorem slice (before : List (List α)) (field : List α) (after : List (List α)) :
    ((before ++ field :: after).flatten.drop before.flatten.length).take field.length = field := by
  rw [List.flatten_append, List.flatten_cons, List.drop_left, List.take_left]

end TraceForge.Library.Fields
