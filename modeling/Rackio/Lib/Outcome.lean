import Mathlib

/-!
# Computations that may fail

How a computation in `Except ε` ends, read off its parts: `bind_eq_ok_iff` and `bind_eq_error_iff`
take a sequence apart, `forM_eq_ok_iff` a successful `List.forM`, and four rules say what
`List.mapM` returns when its function is known on the elements of the list. A part of a `mapM` that
succeeds succeeds with that part of its result (`mapM_take`, `mapM_filter`), and two parts that
succeed do so together (`mapM_append_ok`).
-/

namespace Outcome

universe u

variable {ε α β γ : Type u}

/-- A sequence succeeds when both of its parts do. -/
theorem bind_eq_ok_iff {x : Except ε α} {f : α → Except ε β} {b : β} :
    (x >>= f) = .ok b ↔ ∃ a, x = .ok a ∧ f a = .ok b := by
  cases x with
  | error e =>
    constructor
    · intro h
      cases h
    · rintro ⟨a, h, -⟩
      cases h
  | ok a =>
    constructor
    · intro h
      exact ⟨a, rfl, h⟩
    · rintro ⟨a', h, hf⟩
      cases h
      exact hf

/-- A sequence fails where its first or its second part does. -/
theorem bind_eq_error_iff {x : Except ε α} {f : α → Except ε β} {e : ε} :
    (x >>= f) = .error e ↔ x = .error e ∨ ∃ a, x = .ok a ∧ f a = .error e := by
  cases x with
  | error e' =>
    constructor
    · intro h
      cases h
      exact .inl rfl
    · rintro (h | ⟨a, h, -⟩)
      · cases h
        rfl
      · cases h
  | ok a =>
    constructor
    · intro h
      exact .inr ⟨a, rfl, h⟩
    · rintro (h | ⟨a', h, hf⟩)
      · cases h
      · cases h
        exact hf

/-- A check of every element succeeds when every element passes. -/
theorem forM_eq_ok_iff {l : List α} {f : α → Except ε PUnit.{u + 1}} :
    l.forM f = .ok ⟨⟩ ↔ ∀ x ∈ l, f x = .ok ⟨⟩ := by
  induction l with
  | nil => exact ⟨fun _ x hx => absurd hx List.not_mem_nil, fun _ => rfl⟩
  | cons x l ih =>
    show (f x >>= fun _ => l.forM f) = .ok ⟨⟩ ↔ _
    rw [bind_eq_ok_iff, List.forall_mem_cons, ih]
    constructor
    · rintro ⟨_, hx, hl⟩
      exact ⟨hx, hl⟩
    · rintro ⟨hx, hl⟩
      exact ⟨⟨⟩, hx, hl⟩

/-- A `mapM` succeeds when its function does on the first element and the rest does. -/
theorem mapM_cons_eq_ok_iff {x : α} {l : List α} {f : α → Except ε β} {r : List β} :
    (x :: l).mapM f = .ok r ↔ ∃ y ys, f x = .ok y ∧ l.mapM f = .ok ys ∧ r = y :: ys := by
  rw [List.mapM_cons, bind_eq_ok_iff]
  refine exists_congr fun y => ?_
  rw [bind_eq_ok_iff, exists_and_left]
  refine and_congr_right fun _ => exists_congr fun ys => and_congr_right fun _ => ?_
  exact ⟨fun h => (Except.ok.inj h).symm, fun h => h ▸ rfl⟩

/-- A `mapM` depends on what its function does to the elements. -/
theorem mapM_congr_mem {l : List α} {f g : α → Except ε β} (h : ∀ x ∈ l, f x = g x) :
    l.mapM f = l.mapM g := by
  induction l with
  | nil => rfl
  | cons x l ih =>
    rw [List.mapM_cons, List.mapM_cons, h x (.head _), ih fun y hy => h y (.tail _ hy)]

/-- A `mapM` whose function succeeds on every element. -/
theorem mapM_eq_ok_map {l : List α} {f : α → Except ε β} {g : α → β}
    (h : ∀ x ∈ l, f x = .ok (g x)) : l.mapM f = .ok (l.map g) := by
  induction l with
  | nil => rfl
  | cons x l ih =>
    rw [List.mapM_cons, h x (.head _), ih fun y hy => h y (.tail _ hy)]
    rfl

/-- A `mapM` whose function succeeds on every element succeeds. -/
theorem exists_mapM_ok {l : List α} {f : α → Except ε β} (h : ∀ x ∈ l, ∃ y, f x = .ok y) :
    ∃ r, l.mapM f = .ok r := by
  induction l with
  | nil => exact ⟨[], rfl⟩
  | cons x l ih =>
    obtain ⟨y, hy⟩ := h x (.head _)
    obtain ⟨ys, hys⟩ := ih fun z hz => h z (.tail _ hz)
    exact ⟨y :: ys, mapM_cons_eq_ok_iff.2 ⟨y, ys, hy, hys, rfl⟩⟩

/-- What the function says about its results, a successful `mapM` says about its result. -/
theorem map_of_mapM_ok {l : List α} {f : α → Except ε β} {g : β → γ} {k : α → γ} {r : List β}
    (h : l.mapM f = .ok r) (hf : ∀ x ∈ l, ∀ y, f x = .ok y → g y = k x) : r.map g = l.map k := by
  induction l generalizing r with
  | nil =>
    cases h
    rfl
  | cons x l ih =>
    obtain ⟨y, ys, hy, hys, rfl⟩ := mapM_cons_eq_ok_iff.1 h
    rw [List.map_cons, List.map_cons, hf x (.head _) y hy, ih hys fun z hz => hf z (.tail _ hz)]

/-- Every result of a successful `mapM` is the result of an element. -/
theorem mem_of_mapM_ok {l : List α} {f : α → Except ε β} {r : List β} (h : l.mapM f = .ok r) :
    ∀ y ∈ r, ∃ x ∈ l, f x = .ok y := by
  induction l generalizing r with
  | nil =>
    cases h
    intro y hy
    cases hy
  | cons x l ih =>
    obtain ⟨z, zs, hz, hzs, rfl⟩ := mapM_cons_eq_ok_iff.1 h
    intro y hy
    rcases List.mem_cons.1 hy with rfl | hy
    · exact ⟨x, .head _, hz⟩
    · obtain ⟨x', hx', hf⟩ := ih hzs y hy
      exact ⟨x', .tail _ hx', hf⟩

/-- Two parts that succeed succeed together. -/
theorem mapM_append_ok {l l' : List α} {f : α → Except ε β} {r r' : List β}
    (h : l.mapM f = .ok r) (h' : l'.mapM f = .ok r') : (l ++ l').mapM f = .ok (r ++ r') := by
  rw [List.mapM_append, h, h']
  rfl

/-- The front of a successful `mapM`. -/
theorem mapM_take {l : List α} {f : α → Except ε β} {r : List β} (h : l.mapM f = .ok r) (n : Nat) :
    (l.take n).mapM f = .ok (r.take n) := by
  induction l generalizing r n with
  | nil =>
    have hr : r = [] := (Except.ok.inj h).symm
    rw [hr, List.take_nil, List.take_nil]
    rfl
  | cons x l ih =>
    obtain ⟨y, ys, hy, hys, rfl⟩ := mapM_cons_eq_ok_iff.1 h
    cases n with
    | zero => rfl
    | succ n =>
      rw [List.take_succ_cons, List.mapM_cons, hy, ih hys n]
      rfl

/-- A successful `mapM` of the elements that its function sends to results with a property. -/
theorem mapM_filter {l : List α} {f : α → Except ε β} {r : List β} {p : α → Bool} {q : β → Bool}
    (h : l.mapM f = .ok r) (hpq : ∀ x ∈ l, ∀ y, f x = .ok y → q y = p x) :
    (l.filter p).mapM f = .ok (r.filter q) := by
  induction l generalizing r with
  | nil =>
    have hr : r = [] := (Except.ok.inj h).symm
    rw [hr]
    rfl
  | cons x l ih =>
    obtain ⟨y, ys, hy, hys, rfl⟩ := mapM_cons_eq_ok_iff.1 h
    have hrest := ih hys fun z hz => hpq z (.tail _ hz)
    have hsame := hpq x (.head _) y hy
    cases hx : p x with
    | true =>
      rw [List.filter_cons_of_pos hx, List.filter_cons_of_pos (hsame.trans hx), List.mapM_cons, hy,
        hrest]
      rfl
    | false =>
      have hnx : ¬ p x = true := Bool.eq_false_iff.1 hx
      have hny : ¬ q y = true := Bool.eq_false_iff.1 (hsame.trans hx)
      rw [List.filter_cons_of_neg hnx, List.filter_cons_of_neg hny]
      exact hrest

end Outcome
