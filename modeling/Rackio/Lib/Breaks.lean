import Mathlib.Data.List.SplitBy

/-!
# A list in pieces

`List.splitBy` takes a list apart wherever a relation fails between neighbours. Here is the loop
that does so element by element, with the piece it is at (`splitLoop_eq`), and the number of pieces
in terms of the neighbours (`length_splitBy`).
-/

namespace Breaks

variable {α β : Type} {r : α → α → Bool} {l m : List α} {a b : α}

/-- Every element with the one after it. -/
def steps (l : List α) : List (α × α) := l.zip l.tail

@[simp] theorem steps_nil : steps ([] : List α) = [] := rfl

@[simp] theorem steps_singleton : steps [a] = [] := rfl

@[simp] theorem steps_cons_cons : steps (a :: b :: l) = (a, b) :: steps (b :: l) := rfl

@[simp] theorem length_steps (l : List α) : (steps l).length = l.length - 1 := by
  simp [steps]

theorem steps_map (f : α → β) (l : List α) : steps (l.map f) = (steps l).map (Prod.map f f) := by
  rw [steps, ← List.map_tail, List.zip_map, steps]

/-- A chain has a relation at every step. -/
theorem isChain_iff_steps {R : α → α → Prop} : l.IsChain R ↔ ∀ p ∈ steps l, R p.1 p.2 := by
  induction l with
  | nil => simp
  | cons a l ih =>
    cases l with
    | nil => simp
    | cons b l => simp [List.isChain_cons_cons, ih]

/-- The steps of two lists in a row are those of each, and the one between them. -/
theorem steps_append (hl : l ≠ []) (hm : m ≠ []) :
    steps (l ++ m) = steps l ++ (l.getLast hl, m.head hm) :: steps m := by
  induction l with
  | nil => exact absurd rfl hl
  | cons a l ih =>
    cases l with
    | nil =>
      obtain ⟨b, m, rfl⟩ := List.exists_cons_of_ne_nil hm
      rfl
    | cons b l => simpa using ih (List.cons_ne_nil b l)

/-! ## Pieces -/

section
variable {pieces : List (List α)} {next : List α}

theorem steps_flatten_cons (hl : l ≠ []) (hnext : next ≠ []) :
    steps (l :: next :: pieces).flatten =
      steps l ++ (l.getLast hl, next.head hnext) :: steps (next :: pieces).flatten := by
  have hne : (next :: pieces).flatten ≠ [] := by simp [hnext]
  have hfirst : (next :: pieces).flatten.head hne = next.head hnext := by
    simp [List.head_append_of_ne_nil, hnext]
  rw [List.flatten_cons, steps_append hl hne, hfirst]

/-- The steps of a piece, and those from one piece to the next, are steps of the whole. -/
theorem steps_of_pieces (hnil : [] ∉ pieces) :
    (∀ piece ∈ pieces, steps piece ⊆ steps pieces.flatten) ∧
      pieces.IsChain fun a b => ∃ ha hb, (a.getLast ha, b.head hb) ∈ steps pieces.flatten := by
  induction pieces with
  | nil => exact ⟨fun _ h => absurd h List.not_mem_nil, List.isChain_nil⟩
  | cons piece pieces ih =>
    cases pieces with
    | nil => simp
    | cons next pieces =>
      simp only [List.mem_cons, not_or] at hnil
      have hpiece : piece ≠ [] := Ne.symm hnil.1
      have hnext : next ≠ [] := Ne.symm hnil.2.1
      obtain ⟨hsub, hchain⟩ := ih (by simpa using hnil.2)
      rw [steps_flatten_cons hpiece hnext]
      refine ⟨fun x hx => ?_, List.isChain_cons_cons.2 ⟨⟨hpiece, hnext, by simp⟩, ?_⟩⟩
      · rcases List.mem_cons.1 hx with rfl | hx
        · exact List.subset_append_left _ _
        · exact fun p hp => List.mem_append_right _ (List.mem_cons_of_mem _ (hsub x hx hp))
      · refine hchain.imp fun a b hab => ?_
        obtain ⟨ha, hb, hmem⟩ := hab
        exact ⟨ha, hb, List.mem_append_right _ (List.mem_cons_of_mem _ hmem)⟩

/-- Pieces that hold together and are broken between have one break less than there are pieces. -/
theorem countP_breaks (hnil : [] ∉ pieces)
    (hchain : ∀ piece ∈ pieces, piece.IsChain fun x y => r x y)
    (hbreak : pieces.IsChain fun a b => ∃ ha hb, r (a.getLast ha) (b.head hb) = false) :
    (steps pieces.flatten).countP (fun p => !r p.1 p.2) = pieces.length - 1 := by
  have hpiece : ∀ piece ∈ pieces, (steps piece).countP (fun p => !r p.1 p.2) = 0 := by
    intro piece hmem
    refine List.countP_eq_zero.2 fun p hp => ?_
    simpa using isChain_iff_steps.1 (hchain piece hmem) p hp
  induction pieces with
  | nil => rfl
  | cons piece pieces ih =>
    simp only [List.mem_cons, forall_eq_or_imp, not_or] at hnil hchain hpiece
    cases pieces with
    | nil => simpa using hpiece.1
    | cons next pieces =>
      obtain ⟨⟨hlast, hhead, hr⟩, hbreak⟩ := List.isChain_cons_cons.1 hbreak
      rw [steps_flatten_cons hlast hhead, List.countP_append, List.countP_cons, hpiece.1,
        ih hnil.2 hchain.2 hbreak hpiece.2]
      simp [hr]

end

/-- There is one piece more than steps at which the relation fails. -/
theorem length_splitBy (h : l ≠ []) :
    (l.splitBy r).length = (steps l).countP (fun p => !r p.1 p.2) + 1 := by
  have hcount := countP_breaks (List.nil_notMem_splitBy r l)
    (fun _ => List.isChain_of_mem_splitBy) (List.isChain_getLast_head_splitBy r l)
  rw [List.flatten_splitBy] at hcount
  have hpos : 0 < (l.splitBy r).length := List.length_pos_iff.2 (List.splitBy_ne_nil.2 h)
  omega

/-- Pieces of an image are the images of the pieces. -/
theorem splitBy_map {s : β → β → Bool} {f : α → β} (h : ∀ x y, s (f x) (f y) = r x y) :
    (l.map f).splitBy s = (l.splitBy r).map (List.map f) := by
  refine List.splitBy_eq_iff.2 ⟨?_, ?_, ?_, ?_⟩
  · rw [← List.map_flatten, List.flatten_splitBy]
  · simp [List.nil_notMem_splitBy]
  · simp only [List.mem_map, forall_exists_index, and_imp, forall_apply_eq_imp_iff₂]
    intro piece hpiece
    rw [List.isChain_map]
    simpa only [h] using List.isChain_of_mem_splitBy hpiece
  · rw [List.isChain_map]
    refine (List.isChain_getLast_head_splitBy r l).imp fun a b hab => ?_
    obtain ⟨ha, hb, hr⟩ := hab
    exact ⟨by simpa using ha, by simpa using hb, by simpa [h] using hr⟩

/-! ## The loop -/

/-- One turn: where the relation fails between the last element of the piece the loop is at and the
next element, that element opens a new piece. -/
def push (r : α → α → Bool) (state : List (List α) × List α) (a : α) : List (List α) × List α :=
  if state.2.getLast?.any (fun last => !r last a) then (state.1 ++ [state.2], [a])
  else (state.1, state.2 ++ [a])

/-- What the loop has, with the piece it is at. -/
def finish (state : List (List α) × List α) : List (List α) :=
  if state.2 = [] then state.1 else state.1 ++ [state.2]

/-- A loop that is at a chain takes that chain and the rest apart. -/
theorem finish_foldl_push {pieces : List (List α)} (hm : m ≠ []) (hchain : m.IsChain (r · ·)) :
    finish (l.foldl (push r) (pieces, m)) = pieces ++ (m ++ l).splitBy r := by
  induction l generalizing pieces m with
  | nil =>
    rw [List.append_nil, List.splitBy_of_isChain hm hchain]
    exact if_neg hm
  | cons a l ih =>
    have hlast : m.getLast? = some (m.getLast hm) := List.getLast?_eq_getLast_of_ne_nil hm
    rw [List.foldl_cons, push, hlast]
    split
    · next hr =>
      have hbreak : ∀ x ∈ m.getLast?, r x a = false := by simpa [hlast] using hr
      rw [ih (List.cons_ne_nil a []) (List.isChain_singleton a),
        List.splitBy_append_cons l hbreak, List.splitBy_of_isChain hm hchain, List.append_assoc]
      rfl
    · next hr =>
      have hnext : (m ++ [a]).IsChain (r · ·) := by
        refine List.isChain_append.2 ⟨hchain, List.isChain_singleton a, ?_⟩
        simpa [hlast] using hr
      rw [ih (by simp) hnext, List.append_assoc]
      rfl

/-- The loop over a whole list takes it apart. -/
theorem splitLoop_eq (r : α → α → Bool) (l : List α) :
    finish (l.foldl (push r) ([], [])) = l.splitBy r := by
  cases l with
  | nil => rfl
  | cons a l =>
    exact finish_foldl_push (m := [a]) (List.cons_ne_nil a []) (List.isChain_singleton a)

end Breaks
