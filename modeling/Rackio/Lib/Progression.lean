import Mathlib

/-!
# Evenly spaced lists

`progression start d lo n` is the list `start + d * lo, …, start + d * (lo + n - 1)`. How many of
its elements lie in an interval is decided by how far apart two of them can be
(`length_filter_le_iff`): the elements between two members are members.
-/

namespace Progression

/-- The terms `lo, …, lo + n - 1` of the arithmetic progression from `start` with difference `d`. -/
def progression (start d : Int) (lo n : Nat) : List Int :=
  (List.range' lo n).map fun k : Nat => start + d * (k : Int)

variable {start d : Int} {lo n : Nat}

theorem mem_progression {t : Int} :
    t ∈ progression start d lo n ↔ ∃ k, lo ≤ k ∧ k < lo + n ∧ t = start + d * k := by
  simp only [progression, List.mem_map, List.mem_range'_1]
  constructor
  · rintro ⟨k, ⟨h1, h2⟩, rfl⟩
    exact ⟨k, h1, h2, rfl⟩
  · rintro ⟨k, h1, h2, rfl⟩
    exact ⟨k, ⟨h1, h2⟩, rfl⟩

/-- Two terms of a progression are at least its difference apart. -/
theorem pairwise_progression (hd : 0 ≤ d) :
    (progression start d lo n).Pairwise fun a b => a + d ≤ b := by
  refine List.pairwise_map.2 (List.Pairwise.imp ?_ List.pairwise_lt_range')
  intro i j hij
  have hle : (i : Int) + 1 ≤ j := by omega
  have hmul := mul_le_mul_of_nonneg_left hle hd
  rw [mul_add, mul_one] at hmul
  omega

/-- In a list whose elements are at least `d` apart, the element `i` places on is at least `d * i`
further. -/
theorem getElem_zero_add_le {l : List Int} (hl : l.Pairwise fun a b => a + d ≤ b) (i : Nat)
    (hi : i < l.length) : l[0] + d * i ≤ l[i] := by
  induction i with
  | zero => simp
  | succ i ih =>
    have hstep := List.pairwise_iff_getElem.1 hl i (i + 1) (by omega) hi (Nat.lt_succ_self i)
    have hprev := ih (by omega)
    have hmul : d * ((i + 1 : Nat) : Int) = d * i + d := by push_cast; ring
    omega

/-- A part of a progression is a sublist of it. -/
theorem progression_sublist {lo' n' : Nat} (h1 : lo ≤ lo') (h2 : lo' + n' ≤ lo + n) :
    (progression start d lo' n').Sublist (progression start d lo n) := by
  refine List.Sublist.map _ ?_
  obtain ⟨a, rfl⟩ : ∃ a, lo' = lo + a := ⟨lo' - lo, by omega⟩
  obtain ⟨c, rfl⟩ : ∃ c, n = a + (n' + c) := ⟨n - a - n', by omega⟩
  rw [← List.range'_append_1, ← List.range'_append_1]
  exact (List.sublist_append_left _ _).trans (List.sublist_append_right _ _)

/-- At most `c` terms of a progression lie in an interval if and only if no two of those that do are
`d * c` apart. -/
theorem length_filter_le_iff (hd : 0 < d) (p q : Int) (c : Nat) :
    ((progression start d lo n).filter fun t => p ≤ t ∧ t ≤ q).length ≤ c ↔
      ∀ a ∈ progression start d lo n, ∀ b ∈ progression start d lo n,
        p ≤ a → b ≤ q → b - a < d * c := by
  constructor
  · intro hlen a ha b hb hpa hbq
    by_contra hfar
    obtain ⟨i, hi1, hi2, rfl⟩ := mem_progression.1 ha
    obtain ⟨j, hj1, hj2, rfl⟩ := mem_progression.1 hb
    -- The `c + 1` terms from the `i`-th on lie in the interval.
    have hij : i + c ≤ j := by
      have hmul : d * (i + c : Int) ≤ d * j := by rw [mul_add]; omega
      have hle := le_of_mul_le_mul_left hmul hd
      omega
    have hsub : (progression start d i (c + 1)).Sublist (progression start d lo n) :=
      progression_sublist hi1 (by omega)
    have hall : (progression start d i (c + 1)).filter (fun t => p ≤ t ∧ t ≤ q) =
        progression start d i (c + 1) := by
      refine List.filter_eq_self.2 fun t ht => ?_
      obtain ⟨k, hk1, hk2, rfl⟩ := mem_progression.1 ht
      have hlow : d * (i : Int) ≤ d * k := mul_le_mul_of_nonneg_left (by omega) hd.le
      have hhigh : d * (k : Int) ≤ d * j := mul_le_mul_of_nonneg_left (by omega) hd.le
      exact decide_eq_true ⟨by omega, by omega⟩
    have hle := (hsub.filter fun t => p ≤ t ∧ t ≤ q).length_le
    rw [hall, progression, List.length_map, List.length_range'] at hle
    omega
  · intro hnear
    by_contra hlen
    set l := (progression start d lo n).filter fun t => p ≤ t ∧ t ≤ q
    have hpair : l.Pairwise fun a b => a + d ≤ b := (pairwise_progression hd.le).filter _
    have hc : c < l.length := by omega
    have hmem : ∀ i (hi : i < l.length),
        l[i] ∈ progression start d lo n ∧ p ≤ l[i] ∧ l[i] ≤ q := by
      intro i hi
      have hin : l[i] ∈ l := List.getElem_mem hi
      obtain ⟨hprog, hbetween⟩ := List.mem_filter.1 hin
      exact ⟨hprog, of_decide_eq_true hbetween⟩
    have hfar := getElem_zero_add_le hpair c hc
    have hlt := hnear l[0] (hmem 0 (by omega)).1 l[c] (hmem c hc).1 (hmem 0 (by omega)).2.1
      (hmem c hc).2.2
    omega

end Progression
