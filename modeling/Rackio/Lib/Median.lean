import Mathlib.Data.List.Sort

/-!
# The median of a list

The element in the middle of a list in order, the greater of two. No more than half of the list lies
strictly on one side of it, so it is between bounds that more than half of the list keeps to
(`le_of_most`, `ge_of_most`): what the rest of the list is does not matter.
-/

namespace Median

variable {α β : Type} [LinearOrder α] [LinearOrder β] {l : List α} {m b : α}

/-- The element in the middle of the list in order. -/
def median (l : List α) : Option α := (l.insertionSort (· ≤ ·))[l.length / 2]?

theorem isSome_median (h : l ≠ []) : ∃ m, median l = some m := by
  have hpos : 0 < l.length := List.length_pos_iff.2 h
  have hlt : l.length / 2 < (l.insertionSort (· ≤ ·)).length := by
    rw [List.length_insertionSort]
    omega
  exact ⟨_, List.getElem?_eq_getElem hlt⟩

/-- Counts do not see the order. -/
theorem countP_insertionSort (p : α → Bool) :
    (l.insertionSort (· ≤ ·)).countP p = l.countP p :=
  (List.perm_insertionSort _ _).countP_eq p

/-- The elements from the median on are not less, those up to it not greater. -/
theorem middle (h : median l = some m) :
    (∀ a ∈ (l.insertionSort (· ≤ ·)).drop (l.length / 2), m ≤ a) ∧
      ∀ a ∈ (l.insertionSort (· ≤ ·)).take (l.length / 2 + 1), a ≤ m := by
  have hsorted : (l.insertionSort (· ≤ ·)).Pairwise (· ≤ ·) := List.pairwise_insertionSort _ _
  obtain ⟨hlt, rfl⟩ := List.getElem?_eq_some_iff.1 h
  constructor
  · intro a ha
    obtain ⟨i, hi, rfl⟩ := List.mem_iff_getElem.1 ha
    rw [List.getElem_drop]
    exact hsorted.sortedLE.getElem_le_getElem_of_le (by omega)
  · intro a ha
    obtain ⟨i, hi, rfl⟩ := List.mem_iff_getElem.1 ha
    rw [List.getElem_take]
    rw [List.length_take] at hi
    exact hsorted.sortedLE.getElem_le_getElem_of_le (by omega)

/-- At most half of the list is less than the median. -/
theorem countP_lt (h : median l = some m) : l.countP (· < m) ≤ l.length / 2 := by
  rw [← countP_insertionSort, ← List.take_append_drop (l.length / 2) (l.insertionSort _),
    List.countP_append]
  have hdrop : ((l.insertionSort (· ≤ ·)).drop (l.length / 2)).countP (· < m) = 0 :=
    List.countP_eq_zero.2 fun a ha => by simpa using (middle h).1 a ha
  have htake : ((l.insertionSort (· ≤ ·)).take (l.length / 2)).countP (· < m) ≤ l.length / 2 :=
    List.countP_le_length.trans (List.length_take_le _ _)
  omega

/-- Less than half of the list, rounded up, is greater than the median. -/
theorem countP_gt (h : median l = some m) : l.countP (m < ·) < l.length - l.length / 2 := by
  have hlt : l.length / 2 < l.length := by
    simpa using (List.getElem?_eq_some_iff.1 h).choose
  rw [← countP_insertionSort, ← List.take_append_drop (l.length / 2 + 1) (l.insertionSort _),
    List.countP_append]
  have htake : ((l.insertionSort (· ≤ ·)).take (l.length / 2 + 1)).countP (m < ·) = 0 :=
    List.countP_eq_zero.2 fun a ha => by simpa using (middle h).2 a ha
  have hdrop : ((l.insertionSort (· ≤ ·)).drop (l.length / 2 + 1)).countP (m < ·) ≤
      l.length - (l.length / 2 + 1) := by
    refine List.countP_le_length.trans ?_
    rw [List.length_drop, List.length_insertionSort]
  omega

/-- A bound above more than half of the list is above the median. -/
theorem le_of_most (h : median l = some m) (hmost : l.length < 2 * l.countP (· ≤ b)) : m ≤ b := by
  by_contra hlt
  have hmono : l.countP (· ≤ b) ≤ l.countP (· < m) := List.countP_mono_left fun a _ hab => by
    simp only [decide_eq_true_eq] at hab ⊢
    exact hab.trans_lt (not_le.1 hlt)
  have := countP_lt h
  omega

/-- A bound below more than half of the list is below the median. -/
theorem ge_of_most (h : median l = some m) (hmost : l.length < 2 * l.countP (b ≤ ·)) : b ≤ m := by
  by_contra hlt
  have hmono : l.countP (b ≤ ·) ≤ l.countP (m < ·) := List.countP_mono_left fun a _ hab => by
    simp only [decide_eq_true_eq] at hab ⊢
    exact (not_le.1 hlt).trans_le hab
  have := countP_gt h
  omega

/-- A monotone function takes the median along. -/
theorem median_map {f : α → β} (hf : Monotone f) : median (l.map f) = (median l).map f := by
  have hperm : ((l.map f).insertionSort (· ≤ ·)).Perm ((l.insertionSort (· ≤ ·)).map f) :=
    (List.perm_insertionSort _ _).trans ((List.perm_insertionSort _ l).symm.map f)
  have hsorted : ((l.insertionSort (· ≤ ·)).map f).Pairwise (· ≤ ·) :=
    (List.pairwise_insertionSort _ _).map f fun _ _ h => hf h
  rw [median, median, hperm.eq_of_pairwise (fun a b _ _ => le_antisymm)
    (List.pairwise_insertionSort _ _) hsorted, List.length_map, List.getElem?_map]

end Median
