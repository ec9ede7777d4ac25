import Mathlib.Data.List.Basic

/-!
# Edges

The *edges* of a list of truth values are the values it changes to, in order. With the first value
in front they alternate (`isChain_edges`), and a list that grows at its end has another edge when it
ends with another value than before (`edges_snoc`).
-/

namespace Edges

/-- The values that a list changes to. -/
def edges : List Bool → List Bool
  | a :: b :: l => if a = b then edges (b :: l) else b :: edges (b :: l)
  | _ => []

/-- With the first value in front, every edge is another value than the one before. -/
theorem isChain_edges (a : Bool) (l : List Bool) : (a :: edges (a :: l)).IsChain (· ≠ ·) := by
  induction l generalizing a with
  | nil => exact .singleton _
  | cons b l ih =>
    unfold edges
    split
    · next heq =>
      rw [heq]
      exact ih b
    · next hne => exact (ih b).cons_cons hne

/-- A list has another edge when it grows by another value than its last. -/
theorem edges_snoc (l : List Bool) (b : Bool) :
    edges (l ++ [b]) = edges l ++ if l.getLast? = some !b then [b] else [] := by
  induction l with
  | nil => rfl
  | cons a l ih =>
    cases l with
    | nil => cases a <;> cases b <;> rfl
    | cons c l =>
      rw [List.getLast?_cons_cons]
      show edges (a :: c :: (l ++ [b])) = _
      unfold edges
      split
      · exact ih
      · exact congrArg (c :: ·) ih

end Edges
