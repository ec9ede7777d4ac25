import Mathlib

/-!
# The greatest element of a list

Of several elements of a list with the greatest key, a scan keeps the last one or the first one, and
a stable sort leaves the first one in front. `LastGreatest` and `FirstGreatest` say which element
that is by its place in the list: `x` with what stands before and after it. A list has at most one
of each (`LastGreatest.unique`, `FirstGreatest.unique`), so an algorithm that is known to find one
is known completely (`lastGreatest_foldl`, `head?_insertionSort_eq_some_iff`).
-/

universe u v

variable {α : Type u} {κ : Type v} [LinearOrder κ] {key : α → κ} {l : List α} {x y : α}

/-- The element `x` has the greatest key, and every later element a smaller one. -/
def LastGreatest (key : α → κ) (l : List α) (x : α) : Prop :=
  ∃ before after, l = before ++ x :: after ∧ (∀ y ∈ before, key y ≤ key x) ∧
    ∀ y ∈ after, key y < key x

/-- The element `x` has the greatest key, and every earlier element a smaller one. -/
def FirstGreatest (key : α → κ) (l : List α) (x : α) : Prop :=
  ∃ before after, l = before ++ x :: after ∧ (∀ y ∈ before, key y < key x) ∧
    ∀ y ∈ after, key y ≤ key x

/-- Two elements of a list stand in the same place, or one after the other. -/
theorem eq_or_mem_of_append_eq {before before' after after' : List α}
    (h : before ++ x :: after = before' ++ y :: after') :
    x = y ∨ (x ∈ before' ∧ y ∈ after) ∨ (y ∈ before ∧ x ∈ after') := by
  induction before generalizing before' with
  | nil =>
    cases before' with
    | nil => exact .inl (List.cons.inj h).1
    | cons z before' =>
      obtain ⟨rfl, rfl⟩ := List.cons.inj h
      exact .inr (.inl ⟨.head _, List.mem_append_right _ (.head _)⟩)
  | cons z before ih =>
    cases before' with
    | nil =>
      obtain ⟨rfl, rfl⟩ := List.cons.inj h
      exact .inr (.inr ⟨.head _, List.mem_append_right _ (.head _)⟩)
    | cons z' before' =>
      obtain ⟨rfl, htail⟩ := List.cons.inj h
      rcases ih htail with heq | ⟨hx, hy⟩ | ⟨hy, hx⟩
      · exact .inl heq
      · exact .inr (.inl ⟨.tail _ hx, hy⟩)
      · exact .inr (.inr ⟨.tail _ hy, hx⟩)

/-- There is one last greatest element. -/
theorem LastGreatest.unique (hx : LastGreatest key l x) (hy : LastGreatest key l y) : x = y := by
  obtain ⟨before, after, rfl, hbefore, hafter⟩ := hx
  obtain ⟨before', after', heq, hbefore', hafter'⟩ := hy
  rcases eq_or_mem_of_append_eq heq with heq | ⟨h, h'⟩ | ⟨h, h'⟩
  · exact heq
  · exact absurd (hafter _ h') (not_lt.2 (hbefore' _ h))
  · exact absurd (hafter' _ h') (not_lt.2 (hbefore _ h))

/-- There is one first greatest element. -/
theorem FirstGreatest.unique (hx : FirstGreatest key l x) (hy : FirstGreatest key l y) :
    x = y := by
  obtain ⟨before, after, rfl, hbefore, hafter⟩ := hx
  obtain ⟨before', after', heq, hbefore', hafter'⟩ := hy
  rcases eq_or_mem_of_append_eq heq with heq | ⟨h, h'⟩ | ⟨h, h'⟩
  · exact heq
  · exact absurd (hbefore' _ h) (not_lt.2 (hafter _ h'))
  · exact absurd (hbefore _ h) (not_lt.2 (hafter' _ h'))

/-- A last greatest element is in the list. -/
theorem LastGreatest.mem (h : LastGreatest key l x) : x ∈ l := by
  obtain ⟨before, after, rfl, -⟩ := h
  exact List.mem_append_right _ (.head _)

/-- No element has a greater key. -/
theorem LastGreatest.le (h : LastGreatest key l x) : ∀ y ∈ l, key y ≤ key x := by
  obtain ⟨before, after, rfl, hbefore, hafter⟩ := h
  intro y hy
  rcases List.mem_append.1 hy with hy | hy
  · exact hbefore y hy
  · rcases List.mem_cons.1 hy with rfl | hy
    · exact le_rfl
    · exact (hafter y hy).le

/-- A scan that gives way to an element with the same key finds the last greatest one. -/
theorem lastGreatest_foldl (key : α → κ) (x : α) (l : List α) :
    LastGreatest key (x :: l) (l.foldl (fun best y => if key y < key best then best else y) x) := by
  induction l using List.reverseRecOn with
  | nil => exact ⟨[], [], rfl, nofun, nofun⟩
  | append_singleton l y ih =>
    rw [List.foldl_append, List.foldl_cons, List.foldl_nil]
    generalize l.foldl (fun best y => if key y < key best then best else y) x = best at ih
    split
    · next hlt =>
      obtain ⟨before, after, heq, hbefore, hafter⟩ := ih
      refine ⟨before, after ++ [y], ?_, hbefore, ?_⟩
      · rw [← List.cons_append, heq, List.append_assoc, List.cons_append]
      · intro z hz
        rcases List.mem_append.1 hz with hz | hz
        · exact hafter z hz
        · rw [List.mem_singleton.1 hz]
          exact hlt
    · next hle =>
      exact ⟨x :: l, [], rfl, fun z hz => (ih.le z hz).trans (not_lt.1 hle), nofun⟩

/-- An element with a key as great comes before the first greatest one. -/
theorem FirstGreatest.cons_of_le (h : FirstGreatest key l y) (hle : key y ≤ key x) :
    FirstGreatest key (x :: l) x := by
  obtain ⟨before, after, rfl, hbefore, hafter⟩ := h
  refine ⟨[], _, rfl, nofun, fun z hz => ?_⟩
  rcases List.mem_append.1 hz with hz | hz
  · exact (hbefore z hz).le.trans hle
  · rcases List.mem_cons.1 hz with rfl | hz
    · exact hle
    · exact (hafter z hz).trans hle

/-- An element with a smaller key in front changes nothing. -/
theorem FirstGreatest.cons_of_lt (h : FirstGreatest key l y) (hlt : key x < key y) :
    FirstGreatest key (x :: l) y := by
  obtain ⟨before, after, rfl, hbefore, hafter⟩ := h
  refine ⟨x :: before, after, rfl, fun z hz => ?_, hafter⟩
  rcases List.mem_cons.1 hz with rfl | hz
  · exact hlt
  · exact hbefore z hz

/-- A stable sort with the greatest key in front leaves the first greatest element there. -/
theorem firstGreatest_head_insertionSort {r : α → α → Prop} [DecidableRel r]
    (hr : ∀ a ∈ l, ∀ b ∈ l, r a b ↔ key b ≤ key a) (h : (l.insertionSort r).head? = some x) :
    FirstGreatest key l x := by
  induction l generalizing x with
  | nil => cases h
  | cons a l ih =>
    have hr' : ∀ b ∈ l, ∀ c ∈ l, r b c ↔ key c ≤ key b :=
      fun b hb c hc => hr b (.tail _ hb) c (.tail _ hc)
    rw [List.insertionSort_cons] at h
    cases hsorted : l.insertionSort r with
    | nil =>
      have hnil : l = [] := by
        rw [← List.length_eq_zero_iff, ← List.length_insertionSort r l, hsorted]
        rfl
      rw [hsorted] at h
      cases h
      rw [hnil]
      exact ⟨[], [], rfl, nofun, nofun⟩
    | cons b rest =>
      have hb : FirstGreatest key l b := ih hr' (by rw [hsorted]; rfl)
      have hmem : b ∈ l := by
        rw [← List.mem_insertionSort r, hsorted]
        exact .head _
      have hab := hr a (.head _) b (.tail _ hmem)
      rw [hsorted, List.orderedInsert] at h
      split at h
      · next hbefore =>
        cases h
        exact hb.cons_of_le (hab.1 hbefore)
      · next hbehind =>
        cases h
        exact hb.cons_of_lt (not_le.1 (mt hab.2 hbehind))

/-- So the element in front is the first greatest one. -/
theorem head?_insertionSort_eq_some_iff {r : α → α → Prop} [DecidableRel r]
    (hr : ∀ a ∈ l, ∀ b ∈ l, r a b ↔ key b ≤ key a) :
    (l.insertionSort r).head? = some x ↔ FirstGreatest key l x := by
  refine ⟨firstGreatest_head_insertionSort hr, fun hx => ?_⟩
  have hmem : x ∈ l.insertionSort r := by
    obtain ⟨before, after, rfl, -⟩ := hx
    exact (List.mem_insertionSort r).2 (List.mem_append_right _ (.head _))
  have hhead := List.head?_eq_some_head (List.ne_nil_of_mem hmem)
  rw [hhead, (firstGreatest_head_insertionSort hr hhead).unique hx]

/-- In a list without repetitions an element stands in one place. -/
theorem append_cons_inj_of_nodup {before after before' after' : List α}
    (hnodup : (before ++ x :: after).Nodup)
    (h : before ++ x :: after = before' ++ x :: after') : before = before' ∧ after = after' := by
  have hnotin := (List.nodup_cons.1 (List.nodup_middle.1 (h ▸ hnodup))).1
  rw [List.mem_append, not_or] at hnotin
  obtain ⟨hbefore, -, hafter⟩ := (List.append_cons_inj_of_notMem hnotin.1 hnotin.2).1 h.symm
  exact ⟨hbefore.symm, hafter.symm⟩

/-- In a list without repetitions it is decided in the place where an element stands whether it is
the last greatest one. -/
theorem lastGreatest_append_cons_iff {before after : List α}
    (hnodup : (before ++ x :: after).Nodup) :
    LastGreatest key (before ++ x :: after) x ↔
      (∀ y ∈ before, key y ≤ key x) ∧ ∀ y ∈ after, key y < key x := by
  constructor
  · rintro ⟨before', after', heq, h⟩
    obtain ⟨rfl, rfl⟩ := append_cons_inj_of_nodup hnodup heq
    exact h
  · exact fun h => ⟨before, after, rfl, h⟩

/-- So it is whether it is the first greatest one. -/
theorem firstGreatest_append_cons_iff {before after : List α}
    (hnodup : (before ++ x :: after).Nodup) :
    FirstGreatest key (before ++ x :: after) x ↔
      (∀ y ∈ before, key y < key x) ∧ ∀ y ∈ after, key y ≤ key x := by
  constructor
  · rintro ⟨before', after', heq, h⟩
    obtain ⟨rfl, rfl⟩ := append_cons_inj_of_nodup hnodup heq
    exact h
  · exact fun h => ⟨before, after, rfl, h⟩
