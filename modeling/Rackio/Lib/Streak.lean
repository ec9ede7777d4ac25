import Mathlib.Data.List.TakeWhile
import Mathlib.Data.List.Induction

/-!
# Streaks

The *streak* of a property in a list that grows at its end is how many of the last elements have it
without a gap. A counter that is increased when the property holds and cleared when it does not
computes the streak (`streak_snoc`); one that stops at a largest value computes the streak up to
that value (`min_streak_snoc`), which is enough to compare it with any bound the counter can reach.
-/

namespace Streak

variable {α : Type} (p : α → Bool)

/-- How many of the last elements have the property without a gap. -/
def streak (l : List α) : Nat := (l.reverse.takeWhile p).length

@[simp] theorem streak_nil : streak p [] = 0 := rfl

/-- An element that has the property prolongs the streak, and another one ends it. -/
theorem streak_snoc (l : List α) (a : α) :
    streak p (l ++ [a]) = if p a then streak p l + 1 else 0 := by
  simp only [streak, List.reverse_append, List.reverse_singleton, List.singleton_append,
    List.takeWhile_cons]
  split <;> rfl

/-- A counter that stops at `cap` is the streak up to `cap`. -/
theorem min_streak_snoc (cap : Nat) (l : List α) (a : α) :
    min (streak p (l ++ [a])) cap = if p a then min (min (streak p l) cap + 1) cap else 0 := by
  rw [streak_snoc]
  split <;> omega

variable {p}

/-- The elements before the first one without the property are the first ones that have it. -/
theorem le_length_takeWhile_iff {n : Nat} {l : List α} :
    n ≤ (l.takeWhile p).length ↔ ∀ k < n, ∃ a, l[k]? = some a ∧ p a = true := by
  induction l generalizing n with
  | nil =>
    cases n with
    | zero => simp
    | succ n =>
      refine iff_of_false (by simp) fun h => ?_
      obtain ⟨a, ha, -⟩ := h 0 (Nat.succ_pos n)
      cases ha
  | cons b l ih =>
    cases n with
    | zero => simp
    | succ n =>
      cases hb : p b with
      | false =>
        rw [List.takeWhile_cons_of_neg (by simp [hb])]
        refine iff_of_false (by simp) fun h => ?_
        obtain ⟨a, ha, hpa⟩ := h 0 (Nat.succ_pos n)
        cases ha
        rw [hb] at hpa
        cases hpa
      | true =>
        rw [List.takeWhile_cons_of_pos hb, List.length_cons, Nat.succ_le_succ_iff, ih]
        constructor
        · intro h k hk
          cases k with
          | zero => exact ⟨b, rfl, hb⟩
          | succ k => exact h k (Nat.lt_of_succ_lt_succ hk)
        · intro h k hk
          exact h (k + 1) (Nat.succ_lt_succ hk)

/-- The streak reaches `n` when each of the last `n` elements has the property. -/
theorem le_streak_iff {n : Nat} {l : List α} :
    n ≤ streak p l ↔ ∀ k < n, ∃ a, l.reverse[k]? = some a ∧ p a = true :=
  le_length_takeWhile_iff

end Streak
