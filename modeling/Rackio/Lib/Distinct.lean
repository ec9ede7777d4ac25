import Mathlib.Data.List.Destutter
import Mathlib.Data.List.Sort

/-!
# Sorted, and each once

To sort a list and then to drop the neighbours that repeat is to list the set of its elements in
order: the result depends on nothing but which elements the list has (`canonical_congr`).
-/

namespace Distinct

variable {α : Type} [LinearOrder α] {l l' : List α} {a : α}

/-- The elements of the list in order, each once. -/
def canonical (l : List α) : List α :=
  (l.insertionSort (· ≤ ·)).destutter (· ≠ ·)

/-- Of neighbours that are equal only one is dropped. -/
theorem mem_destutter' (b : α) : a ∈ l.destutter' (· ≠ ·) b ↔ a = b ∨ a ∈ l := by
  induction l generalizing b with
  | nil => simp
  | cons c l ih =>
    rw [List.destutter'_cons]
    split
    · rw [List.mem_cons, ih c, List.mem_cons]
    · next heq =>
      rw [ih b, ← of_not_not heq, List.mem_cons, or_self_left]

@[simp] theorem mem_canonical : a ∈ canonical l ↔ a ∈ l := by
  have hsort : a ∈ l.insertionSort (· ≤ ·) ↔ a ∈ l := (List.perm_insertionSort _ _).mem_iff
  rw [canonical, ← hsort]
  cases l.insertionSort (· ≤ ·) with
  | nil => rfl
  | cons b sorted => rw [List.destutter_cons', mem_destutter', List.mem_cons]

/-- The result is strictly increasing. -/
theorem sortedLT_canonical (l : List α) : (canonical l).SortedLT := by
  have hle : (canonical l).SortedLE :=
    (List.sortedLE_insertionSort.pairwise.sublist (List.destutter_sublist _ _)).sortedLE
  have hne : (canonical l).IsChain (· ≠ ·) := List.isChain_destutter _ _
  have hlt : (canonical l).IsChain (· < ·) := List.isChain_iff_getElem.2 fun i hi =>
    lt_of_le_of_ne (hle.isChain.getElem i hi) (hne.getElem i hi)
  exact hlt.sortedLT

/-- Lists with the same elements have the same result. -/
theorem canonical_congr (h : ∀ a, a ∈ l ↔ a ∈ l') : canonical l = canonical l' :=
  (sortedLT_canonical l).eq_of_mem_iff (sortedLT_canonical l') fun a => by simp [h a]

@[simp] theorem canonical_eq_nil : canonical l = [] ↔ l = [] := by
  simp only [List.eq_nil_iff_forall_not_mem, mem_canonical]

end Distinct
