import Mathlib.Data.List.Induction

/-!
# Runs of a labelled step relation

A system is a step relation `R : σ → ι → σ → Prop`; a *run* is a finite sequence of labelled steps,
grown at its end, so that the last step of a run is the last constructor of its derivation. Two
induction rules carry the results about a system: `Run.invariant`, for a property of states, and
`Run.history`, for a property of a state together with the labels that led to it.

A system whose step is a partial function is run through `Fires`; `Guarded` restricts a system to
the steps that meet a condition on the state before the step. `run_foldl`, `run_of_exec` and
`run_of_execGuarded` obtain a run by evaluation. `EveryStep` says something of every step of a run
of a step function, and `everyStep_congr` when two such properties are the same.
-/

namespace Lts

universe u v

variable {σ : Type u} {ι : Type v}

/-- Finite runs of the step relation `R`: from a state, through a list of labels, to a state. -/
inductive Run (R : σ → ι → σ → Prop) (s : σ) : List ι → σ → Prop
  | nil : Run R s [] s
  | snoc {es : List ι} {t u : σ} {e : ι} : Run R s es t → R t e u → Run R s (es ++ [e]) u

/-- The step relation of a partial step function: `none` means that the step is not enabled. -/
def Fires (step : σ → ι → Option σ) (s : σ) (e : ι) (t : σ) : Prop :=
  step s e = some t

/-- The steps of `R` that meet the condition `G` on the state before the step. -/
def Guarded (G : σ → ι → Prop) (R : σ → ι → σ → Prop) (s : σ) (e : ι) (t : σ) : Prop :=
  G s e ∧ R s e t

section
variable {R : σ → ι → σ → Prop} {s t u : σ} {es fs : List ι}

/-- A property of states that holds at the start and is kept by every step holds at the end. -/
theorem Run.invariant {I : σ → Prop} (h : Run R s es t) (h0 : I s)
    (hstep : ∀ s e t, I s → R s e t → I t) : I t := by
  induction h with
  | nil => exact h0
  | snoc _ hr ih => exact hstep _ _ _ ih hr

/-- A property of a state and the labels that led to it, kept by every step of a run, holds at its
end. -/
theorem Run.history {I : List ι → σ → Prop} (h : Run R s es t) (h0 : I [] s)
    (hstep : ∀ es t e u, Run R s es t → I es t → R t e u → I (es ++ [e]) u) : I es t := by
  induction h with
  | nil => exact h0
  | snoc hrun hr ih => exact hstep _ _ _ _ hrun ih hr

/-- What every step says about its label holds of all labels of a run. -/
theorem Run.labels {P : ι → Prop} (h : Run R s es t) (hP : ∀ s e t, R s e t → P e) :
    ∀ e ∈ es, P e := by
  induction h with
  | nil => intro e he; cases he
  | snoc _ hr ih =>
    intro e he
    rcases List.mem_append.1 he with he | he
    · exact ih e he
    · rw [List.mem_singleton] at he
      exact he ▸ hP _ _ _ hr

/-- A run of a smaller relation is a run of a larger one. -/
theorem Run.mono {R' : σ → ι → σ → Prop} (h : Run R s es t)
    (hle : ∀ s e t, R s e t → R' s e t) : Run R' s es t := by
  induction h with
  | nil => exact .nil
  | snoc _ hr ih => exact .snoc ih (hle _ _ _ hr)

/-- A guarded run is a run. -/
theorem Run.unguard {G : σ → ι → Prop} (h : Run (Guarded G R) s es t) : Run R s es t :=
  h.mono fun _ _ _ hr => hr.2

/-- A run whose labels meet the guard in every state is a guarded run. -/
theorem Run.guard {G : σ → ι → Prop} (h : Run R s es t) (hG : ∀ e ∈ es, ∀ s, G s e) :
    Run (Guarded G R) s es t := by
  induction h with
  | nil => exact .nil
  | snoc _ hr ih =>
    refine .snoc (ih fun e he => hG e (List.mem_append_left _ he)) ⟨hG _ ?_ _, hr⟩
    exact List.mem_append_right _ (.head _)

/-- A run without labels stays where it is. -/
theorem run_nil_iff : Run R s [] t ↔ s = t := by
  refine ⟨fun h => ?_, fun h => h ▸ .nil⟩
  generalize hl : ([] : List ι) = l at h
  cases h with
  | nil => rfl
  | snoc => simp at hl

/-- The last step of a run. -/
theorem run_snoc_iff {e : ι} : Run R s (es ++ [e]) u ↔ ∃ t, Run R s es t ∧ R t e u := by
  refine ⟨fun h => ?_, fun ⟨t, h, hr⟩ => .snoc h hr⟩
  generalize hl : es ++ [e] = l at h
  cases h with
  | nil => simp at hl
  | snoc hrun hr =>
    obtain ⟨rfl, he⟩ := List.append_inj' hl rfl
    cases he
    exact ⟨_, hrun, hr⟩

/-- A run along an appended list of labels passes through a middle state. -/
theorem run_append_iff : Run R s (es ++ fs) u ↔ ∃ t, Run R s es t ∧ Run R t fs u := by
  induction fs using List.reverseRecOn generalizing u with
  | nil => simp [run_nil_iff]
  | append_singleton fs e ih =>
    rw [← List.append_assoc, run_snoc_iff]
    constructor
    · rintro ⟨v, hv, hr⟩
      obtain ⟨t, h1, h2⟩ := ih.1 hv
      exact ⟨t, h1, .snoc h2 hr⟩
    · rintro ⟨t, h1, h2⟩
      obtain ⟨v, h3, hr⟩ := run_snoc_iff.1 h2
      exact ⟨v, ih.2 ⟨t, h1, h3⟩, hr⟩

/-- The first step of a run. -/
theorem run_cons_iff {e : ι} : Run R s (e :: fs) u ↔ ∃ t, R s e t ∧ Run R t fs u := by
  rw [← List.singleton_append, run_append_iff]
  have hone : ∀ t, Run R s [e] t ↔ R s e t := fun t => by
    rw [← List.nil_append [e], run_snoc_iff]
    simp [run_nil_iff]
  simp only [hone]

/-- A step before a run to a state with a property. -/
theorem exists_run_cons {P : σ → Prop} {e : ι} (hstep : R s e t)
    (h : ∃ u, Run R t es u ∧ P u) : ∃ u, Run R s (e :: es) u ∧ P u := by
  obtain ⟨u, hrun, hu⟩ := h
  exact ⟨u, run_cons_iff.2 ⟨t, hstep, hrun⟩, hu⟩

end

/-- A step function runs along every list of labels. -/
theorem run_foldl (step : σ → ι → σ) (s : σ) (es : List ι) :
    Run (fun s e t => step s e = t) s es (es.foldl step s) := by
  induction es generalizing s with
  | nil => exact .nil
  | cons e es ih => exact run_cons_iff.2 ⟨_, rfl, ih (step s e)⟩

/-! ## Every step of a run -/

/-- A property of every step of a run of a step function, with the state before the step. -/
def EveryStep (step : σ → ι → σ) (P : σ → ι → Prop) (s : σ) (es : List ι) : Prop :=
  ∀ before e after, es = before ++ e :: after → P (before.foldl step s) e

section
variable {step : σ → ι → σ} {P Q : σ → ι → Prop} {I : σ → Prop} {s : σ} {es : List ι}

theorem everyStep_nil : EveryStep step P s [] := by
  intro before e after h
  cases before <;> cases h

/-- The first step, and those after it. -/
theorem everyStep_cons_iff {e : ι} :
    EveryStep step P s (e :: es) ↔ P s e ∧ EveryStep step P (step s e) es := by
  constructor
  · intro h
    refine ⟨h [] e es rfl, fun before e' after heq => ?_⟩
    exact h (e :: before) e' after (heq ▸ rfl)
  · rintro ⟨hfirst, hrest⟩ before e' after heq
    cases before with
    | nil =>
      cases heq
      exact hfirst
    | cons first before =>
      cases heq
      exact hrest before e' after rfl

instance decidableEveryStep [∀ s e, Decidable (P s e)] :
    ∀ s es, Decidable (EveryStep step P s es)
  | _, [] => .isTrue everyStep_nil
  | s, e :: es =>
    have : Decidable (EveryStep step P (step s e) es) := decidableEveryStep (step s e) es
    decidable_of_iff _ everyStep_cons_iff.symm

/-- Where an invariant holds that `P` keeps, `P` and `Q` say the same of a step; then they say the
same of a run. -/
theorem everyStep_congr (h0 : I s) (hiff : ∀ e ∈ es, ∀ s, I s → (P s e ↔ Q s e))
    (hkeep : ∀ e ∈ es, ∀ s, I s → P s e → I (step s e)) :
    EveryStep step P s es ↔ EveryStep step Q s es := by
  induction es generalizing s with
  | nil => exact iff_of_true everyStep_nil everyStep_nil
  | cons e es ih =>
    have hfirst := hiff e (.head _) s h0
    rw [everyStep_cons_iff, everyStep_cons_iff, hfirst]
    refine and_congr_right fun hq => ?_
    exact ih (hkeep e (.head _) s h0 (hfirst.2 hq)) (fun e' he' => hiff e' (.tail _ he'))
      fun e' he' => hkeep e' (.tail _ he')

/-- An invariant that every step keeps holds at the end. -/
theorem invariant_of_everyStep (h0 : I s) (hkeep : ∀ e ∈ es, ∀ s, I s → P s e → I (step s e))
    (h : EveryStep step P s es) : I (es.foldl step s) := by
  induction es generalizing s with
  | nil => exact h0
  | cons e es ih =>
    obtain ⟨hfirst, hrest⟩ := everyStep_cons_iff.1 h
    exact ih (hkeep e (.head _) s h0 hfirst) (fun e' he' => hkeep e' (.tail _ he')) hrest

end

section
variable {step : σ → ι → Option σ} {G : σ → ι → Prop} {s t u : σ} {es : List ι}

/-- Evaluating a partial step function along a list of labels gives a run. -/
theorem run_of_exec (h : es.foldlM step s = some t) : Run (Fires step) s es t := by
  induction es generalizing s with
  | nil => cases h; exact .nil
  | cons e es ih =>
    rw [List.foldlM_cons, Option.bind_eq_bind, Option.bind_eq_some_iff] at h
    obtain ⟨s', h1, h2⟩ := h
    exact run_cons_iff.2 ⟨s', h1, ih h2⟩

/-- Evaluating a partial step function and its guard along a list of labels gives a guarded run. -/
theorem run_of_execGuarded [∀ s e, Decidable (G s e)]
    (h : es.foldlM (fun s e => if G s e then step s e else none) s = some t) :
    Run (Guarded G (Fires step)) s es t := by
  refine (run_of_exec h).mono fun s e t hr => ?_
  simp only [Fires] at hr
  split at hr
  · exact ⟨‹_›, hr⟩
  · cases hr

end

end Lts
