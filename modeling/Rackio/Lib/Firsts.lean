import Mathlib.Data.List.Nodup
import Mathlib.Data.List.Induction
import Mathlib.Data.List.TakeWhile

/-!
# First occurrences

`List.eraseDups` keeps the first occurrence of every element. It grows with its list
(`eraseDups_snoc`), so it is what a loop that appends every element it has not seen yet computes
(`foldl_eq_eraseDups`). `mem_take_eraseDups_iff` says which elements are among the first `n`: those
that fewer than `n` different ones come before.
-/

namespace Firsts

variable {α : Type} [DecidableEq α] {l : List α} {a : α}

/-- One more element. -/
theorem eraseDups_snoc (l : List α) (a : α) :
    (l ++ [a]).eraseDups = if a ∈ l then l.eraseDups else l.eraseDups ++ [a] := by
  rw [List.eraseDups_append, List.removeAll]
  by_cases h : a ∈ l
  · rw [if_pos h, List.filter_cons_of_neg (by simpa using h), List.filter_nil, List.eraseDups_nil,
      List.append_nil]
  · rw [if_neg h, List.filter_cons_of_pos (by simpa using h), List.filter_nil]
    rfl

/-- First occurrences are different. -/
theorem nodup_eraseDups (l : List α) : l.eraseDups.Nodup := by
  induction l using List.reverseRecOn with
  | nil => exact List.nodup_nil
  | append_singleton l a ih =>
    rw [eraseDups_snoc]
    split
    · exact ih
    · next h =>
      rw [List.nodup_append]
      refine ⟨ih, List.nodup_singleton a, fun b hb c hc => ?_⟩
      rw [List.mem_singleton] at hc
      rintro rfl
      exact h (List.mem_eraseDups.1 (hc ▸ hb))

/-- A list of different elements is its own first occurrences. -/
theorem eraseDups_eq_self (h : l.Nodup) : l.eraseDups = l := by
  induction l using List.reverseRecOn with
  | nil => rfl
  | append_singleton l a ih =>
    obtain ⟨hl, -, hdisjoint⟩ := List.nodup_append.1 h
    have hnot : a ∉ l := fun ha => hdisjoint a ha a (.head _) rfl
    rw [eraseDups_snoc, if_neg hnot, ih hl]

/-- First occurrences of a list come before those that only another list has. -/
theorem take_eraseDups_append (n : Nat) (l l' : List α) :
    (l ++ l').eraseDups.take n =
      l.eraseDups.take n ++ (l'.removeAll l).eraseDups.take (n - l.eraseDups.length) := by
  rw [List.eraseDups_append, List.take_append]

/-- The first `n` first occurrences, merged again, are what they were. -/
theorem take_eraseDups_append_idem (n : Nat) (l l' : List α) :
    (l ++ (l ++ l').eraseDups.take n).eraseDups.take n = (l ++ l').eraseDups.take n := by
  have hnew : ((l ++ l').eraseDups.take n).removeAll l =
      (l'.removeAll l).eraseDups.take (n - l.eraseDups.length) := by
    have hold : ∀ a ∈ l.eraseDups.take n, a ∈ l :=
      fun a ha => List.mem_eraseDups.1 (List.mem_of_mem_take ha)
    have hother : ∀ a ∈ (l'.removeAll l).eraseDups.take (n - l.eraseDups.length), a ∉ l := by
      intro a ha
      have hmem := List.mem_eraseDups.1 (List.mem_of_mem_take ha)
      simpa using (List.mem_filter.1 hmem).2
    rw [take_eraseDups_append, List.removeAll, List.filter_append,
      List.filter_eq_nil_iff.2 fun a ha => by simpa using hold a ha,
      List.filter_eq_self.2 fun a ha => by simpa using hother a ha, List.nil_append]
  have hnodup : ((l'.removeAll l).eraseDups.take (n - l.eraseDups.length)).Nodup :=
    (nodup_eraseDups _).sublist (List.take_sublist _ _)
  rw [take_eraseDups_append, hnew, eraseDups_eq_self hnodup, List.take_take, Nat.min_self,
    ← take_eraseDups_append]

/-- The loop that appends what it has not seen yet. -/
theorem foldl_eq_eraseDups (l : List α) :
    l.foldl (fun seen a => if a ∈ seen then seen else seen ++ [a]) [] = l.eraseDups := by
  induction l using List.reverseRecOn with
  | nil => rfl
  | append_singleton l a ih =>
    rw [List.foldl_append, List.foldl_cons, List.foldl_nil, ih, eraseDups_snoc]
    simp only [List.mem_eraseDups]

/-- A list that has an element is cut where it first stands. -/
theorem eq_takeWhile_append (h : a ∈ l) : ∃ rest, l = l.takeWhile (· ≠ a) ++ a :: rest := by
  induction l with
  | nil => cases h
  | cons b l ih =>
    by_cases hb : b = a
    · subst hb
      exact ⟨l, by rw [List.takeWhile_cons_of_neg (by simp)]; rfl⟩
    · obtain ⟨rest, hrest⟩ := ih ((List.mem_cons.1 h).resolve_left (Ne.symm hb))
      refine ⟨rest, ?_⟩
      rw [List.takeWhile_cons_of_pos (by simpa using hb), List.cons_append, ← hrest]

/-- An element is among the first `n` different ones when fewer than `n` come before it. -/
theorem mem_take_eraseDups_iff {n : Nat} :
    a ∈ l.eraseDups.take n ↔ a ∈ l ∧ (l.takeWhile (· ≠ a)).eraseDups.length < n := by
  by_cases h : a ∈ l
  · obtain ⟨rest, hrest⟩ := eq_takeWhile_append h
    have hnot : a ∉ l.takeWhile (· ≠ a) := by
      intro hmem
      have hne := List.mem_takeWhile_imp hmem
      simp at hne
    generalize l.takeWhile (· ≠ a) = before at hrest hnot
    have hsplit : l.eraseDups =
        before.eraseDups ++ a :: (rest.removeAll (before ++ [a])).eraseDups := by
      rw [hrest, List.append_cons, List.eraseDups_append, eraseDups_snoc, if_neg hnot,
        List.append_assoc]
      rfl
    rw [hsplit, List.take_append, List.mem_append]
    refine ⟨fun hmem => ⟨h, ?_⟩, fun hfew => .inr ?_⟩
    · rcases hmem with hmem | hmem
      · exact absurd (List.mem_eraseDups.1 (List.mem_of_mem_take hmem)) hnot
      · by_contra hmany
        rw [Nat.sub_eq_zero_of_le (Nat.not_lt.1 hmany)] at hmem
        cases hmem
    · obtain ⟨k, hk⟩ := Nat.exists_eq_add_of_lt hfew.2
      have hpos : n - before.eraseDups.length = k + 1 := by omega
      rw [hpos]
      exact .head _
  · refine iff_of_false (fun htake => h ?_) fun hand => h hand.1
    exact List.mem_eraseDups.1 (List.mem_of_mem_take htake)

end Firsts
