import Rackio.Lib.Run
import Rackio.Lib.Table

/-!
# Calls on a shared cell

Any number of calls work on one cell, each through the phases of the same program. A call enters in
a first phase; a step of it changes the cell and its own phase, and the other calls may step in
between in any order. A call that takes no further step has crashed.

`run_alone` runs one call while the others stand still. `Program.Preserves` is the rule for what
holds in every run: a property of the cell, and a property of each call with the cell, which a step
establishes for the call that takes it and keeps for every other call. `cell_run` relates the cells
along a run, and `Program.guard` restricts a program to the steps that meet a condition.
-/

/-- A cell and the phases of the calls that work on it. -/
structure Shared (σ φ : Type) where
  cell : σ
  calls : Table Nat φ

namespace Shared

open Lts

/-- What the calls do: the phases they enter in, and the steps they take. -/
structure Program (σ φ ι : Type) where
  Enter : φ → Prop
  Act : σ → φ → ι → σ → φ → Prop

/-- A call enters, or takes a step. -/
inductive Event (ι : Type)
  | enter (i : Nat)
  | act (i : Nat) (label : ι)

/-- The call of an event. -/
def Event.call {ι : Type} : Event ι → Nat
  | .enter i => i
  | .act i _ => i

variable {σ φ ι : Type}

/-- A cell on which no call works yet. -/
def initial (cell : σ) : Shared σ φ := ⟨cell, .empty⟩

/-- The steps of the calls. -/
inductive Step (P : Program σ φ ι) (s : Shared σ φ) : Event ι → Shared σ φ → Prop
  | enter {i : Nat} {p : φ} (hi : s.calls.find i = none) (hp : P.Enter p) :
      Step P s (.enter i) { s with calls := s.calls.insert i p }
  | act {i : Nat} {p p' : φ} {label : ι} {cell : σ} (hi : s.calls.find i = some p)
      (h : P.Act s.cell p label cell p') : Step P s (.act i label) ⟨cell, s.calls.insert i p'⟩

namespace Program

/-- The program with the steps that meet a condition on the cell and on the phase of the call. -/
def guard (P : Program σ φ ι) (G : σ → φ → ι → Prop) : Program σ φ ι where
  Enter := P.Enter
  Act cell p label cell' p' := G cell p label ∧ P.Act cell p label cell' p'

/-- The steps of one call, on the cell and its phase. -/
def Alone (P : Program σ φ ι) (x : σ × φ) (label : ι) (y : σ × φ) : Prop :=
  P.Act x.1 x.2 label y.1 y.2

/-- `I` of the cell and `J` of every call survive every step. -/
structure Preserves (P : Program σ φ ι) (I : σ → Prop) (J : σ → φ → Prop) : Prop where
  enter : ∀ cell p, I cell → P.Enter p → J cell p
  act : ∀ cell p label cell' p', I cell → J cell p → P.Act cell p label cell' p' →
    I cell' ∧ J cell' p'
  others : ∀ cell p label cell' p' q, I cell → J cell p → P.Act cell p label cell' p' →
    J cell q → J cell' q

end Program

/-- `I` of the cell and `J` of every call. -/
structure Holds (I : σ → Prop) (J : σ → φ → Prop) (s : Shared σ φ) : Prop where
  cell : I s.cell
  calls : ∀ i p, s.calls.find i = some p → J s.cell p

section
variable {P : Program σ φ ι} {I : σ → Prop} {J : σ → φ → Prop} {s t : Shared σ φ} {e : Event ι}
  {es : List (Event ι)}

/-- A call runs while the others stand still. -/
theorem run_alone {x y : σ × φ} {labels : List ι} (h : Run P.Alone x labels y)
    (calls : Table Nat φ) (i : Nat) :
    Run (Step P) ⟨x.1, calls.insert i x.2⟩ (labels.map (.act i)) ⟨y.1, calls.insert i y.2⟩ := by
  induction h with
  | nil => exact .nil
  | @snoc labels y z label _ hact ih =>
    have hstep : Step P ⟨y.1, calls.insert i y.2⟩ (.act i label)
        ⟨z.1, (calls.insert i y.2).insert i z.2⟩ :=
      .act (by rw [Table.find_insert, if_pos rfl]) hact
    rw [Table.insert_insert] at hstep
    rw [List.map_append]
    exact ih.snoc hstep

/-- A call enters and runs while the others stand still. -/
theorem run_enter_alone {i : Nat} {p p' : φ} {cell : σ} {labels : List ι}
    (hi : s.calls.find i = none) (hp : P.Enter p)
    (h : Run P.Alone (s.cell, p) labels (cell, p')) :
    Run (Step P) s (.enter i :: labels.map (.act i)) ⟨cell, s.calls.insert i p'⟩ :=
  run_cons_iff.2 ⟨_, .enter hi hp, run_alone h s.calls i⟩

/-- What a program preserves, a step keeps. -/
theorem Holds.step (hP : P.Preserves I J) (h : Holds I J s) (hstep : Step P s e t) :
    Holds I J t := by
  cases hstep with
  | enter hi hp => exact ⟨h.cell, Table.forall_insert h.calls (hP.enter _ _ h.cell hp)⟩
  | act hi hact =>
    have hp := h.calls _ _ hi
    obtain ⟨hcell, hp'⟩ := hP.act _ _ _ _ _ h.cell hp hact
    refine ⟨hcell, Table.forall_insert (fun j q hq => ?_) hp'⟩
    exact hP.others _ _ _ _ _ q h.cell hp hact (h.calls j q hq)

/-- What a program preserves, a run keeps. -/
theorem Holds.run (hP : P.Preserves I J) (h : Holds I J s) (hrun : Run (Step P) s es t) :
    Holds I J t :=
  hrun.invariant h fun _ _ _ h hstep => h.step hP hstep

/-- Before the first call there is nothing to say about calls. -/
theorem holds_initial {cell : σ} (h : I cell) : Holds I J (initial cell) := by
  refine ⟨h, fun i p hi => ?_⟩
  cases hi

/-- How every step changes the cell, a run does. -/
theorem cell_run {R : σ → σ → Prop} (hrefl : ∀ cell, R cell cell)
    (htrans : ∀ c₁ c₂ c₃, R c₁ c₂ → R c₂ c₃ → R c₁ c₃)
    (hact : ∀ cell p label cell' p', P.Act cell p label cell' p' → R cell cell')
    (hrun : Run (Step P) s es t) : R s.cell t.cell := by
  refine hrun.invariant (I := fun t => R s.cell t.cell) (hrefl _) fun u e v h hstep => ?_
  cases hstep with
  | enter hi hp => exact h
  | act hi hstep => exact htrans _ _ _ h (hact _ _ _ _ _ hstep)

end

end Shared
