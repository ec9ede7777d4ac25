import Mathlib.Data.List.DropRight

/-!
# The newest elements of a list

`l.rtake n` as a window on a list that grows at its end. A window that is pushed and cut again shows
what a cut of the whole list would (`rtake_append_rtake`), and a condition that stays true once it
was met cuts a list at its front, so it may be asked before or after (`filter_rtake`).
-/

namespace Tail

universe u v

variable {α : Type u} {β : Type v} {l m : List α} {n : Nat}

/-- A list with a first element is cut when the rest fills the window. -/
theorem rtake_cons (a : α) (l : List α) (n : Nat) :
    (a :: l).rtake n = if l.length < n then a :: l else l.rtake n := by
  simp only [List.rtake, List.length_cons]
  split
  · next hlt => rw [show l.length + 1 - n = 0 by omega, List.drop_zero]
  · next hle => rw [show l.length + 1 - n = (l.length - n) + 1 by omega, List.drop_succ_cons]

/-- A list that fits is not cut. -/
theorem rtake_of_length_le (h : l.length ≤ n) : l.rtake n = l := by
  rw [List.rtake, show l.length - n = 0 by omega, List.drop_zero]

/-- A cut list fits. -/
theorem length_rtake_le (l : List α) (n : Nat) : (l.rtake n).length ≤ n := by
  simp only [List.rtake, List.length_drop]
  omega

/-- What is shown is in the list. -/
theorem mem_of_mem_rtake {a : α} (h : a ∈ l.rtake n) : a ∈ l := List.mem_of_mem_drop h

/-- Cutting commutes with a map. -/
theorem map_rtake (f : α → β) (l : List α) (n : Nat) :
    (l.rtake n).map f = (l.map f).rtake n := by
  simp only [List.rtake, List.map_drop, List.length_map]

/-- What was cut before does not come back. -/
theorem rtake_append_rtake (l m : List α) (n : Nat) :
    (l.rtake n ++ m).rtake n = (l ++ m).rtake n := by
  induction l with
  | nil => rw [List.rtake_nil]
  | cons a l ih =>
    rw [rtake_cons]
    split
    · rfl
    · next hle =>
      have hlong : ¬ (l ++ m).length < n := by
        rw [List.length_append]
        omega
      rw [ih, List.cons_append, rtake_cons, if_neg hlong]

/-- A condition that stays true along the list may be asked before the cut or after it. -/
theorem filter_rtake {p : α → Bool} (h : l.Pairwise fun a b => p a = true → p b = true) (n : Nat) :
    (l.rtake n).filter p = (l.filter p).rtake n := by
  induction l with
  | nil => rw [List.rtake_nil, List.filter_nil, List.rtake_nil]
  | cons a l ih =>
    obtain ⟨ha, hl⟩ := List.pairwise_cons.1 h
    cases hp : p a with
    | true =>
      have hall : ∀ b ∈ a :: l, p b = true := List.forall_mem_cons.2 ⟨hp, fun b hb => ha b hb hp⟩
      rw [List.filter_eq_self.2 hall,
        List.filter_eq_self.2 fun b hb => hall b (mem_of_mem_rtake hb)]
    | false =>
      have hskip : (a :: l).filter p = l.filter p := List.filter_cons_of_neg (by simp [hp])
      rw [rtake_cons, hskip]
      split
      · next hlt =>
        rw [hskip, rtake_of_length_le ((List.length_filter_le p l).trans hlt.le)]
      · exact ih hl

end Tail
