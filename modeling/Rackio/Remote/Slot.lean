import Mathlib

/-!
# The life of one paired machine

What a viewer knows of one machine: whether it is paired, whether it is shown, and which of its
monitors is tracked. Any number of imports, removals and monitors of the machine work on this slot
at once, each a process with its own stage. The slot is abstract: no record, no snapshot and no
address, only what decides whether the three tables agree on the machine.

The steps carry the order a correct use keeps. An import pairs a machine only while no removal of it
is in flight (`Step.insert`), and a removal starts only while no import is between pairing the
machine and tracking its monitor, and no aborted monitor still runs (`Step.erase`). Under it,
`Inv` is kept by every step (`Inv.step`), and a quiet slot is shown and monitored exactly when it is
paired (`Inv.agree`).
-/

namespace Rackio

/-! ## Updates of a process table -/

section
variable {α : Type} {f : Nat → α} {i j : Nat} {a b c : α}

/-- A process that is not the updated one, as its stage shows, keeps its stage. -/
theorem update_keep (hi : f i = a) (hj : f j = b) (hne : a ≠ b) : Function.update f i c j = b := by
  have hji : j ≠ i := by
    rintro rfl
    exact hne (hi.symm.trans hj)
  rw [Function.update_of_ne hji]
  exact hj

/-- A process after an update is the updated one or is as before. -/
theorem update_cases (h : Function.update f i c j = b) : (j = i ∧ c = b) ∨ (j ≠ i ∧ f j = b) := by
  by_cases hji : j = i
  · subst hji
    rw [Function.update_self] at h
    exact .inl ⟨rfl, h⟩
  · rw [Function.update_of_ne hji] at h
    exact .inr ⟨hji, h⟩

end

/-! ## The slot -/

namespace Slot

/-- The status of a monitor of the machine. -/
inductive TaskStatus
  | unknown
  | running
  | aborted
  | stopped
  deriving DecidableEq

/-- The stage of an import of the machine. -/
inductive ImportStatus
  | idle
  | inserted
  | stored
  | spawned (task : Nat)
  deriving DecidableEq

/-- The stage of a removal of the machine. -/
inductive RemovalStatus
  | idle
  | erased
  | awaiting (task : Nat)
  | joined
  deriving DecidableEq

/-- The monitor can still write. -/
def TaskStatus.Live (t : TaskStatus) : Prop := t = .running ∨ t = .aborted

/-- The status after an abort. -/
def TaskStatus.abort : TaskStatus → TaskStatus
  | .running => .aborted
  | t => t

theorem TaskStatus.live_abort {t : TaskStatus} : t.abort.Live ↔ t.Live := by
  cases t <;> simp [abort, Live]

theorem TaskStatus.abort_ne_running (t : TaskStatus) : t.abort ≠ .running := by
  cases t <;> simp [abort]

end Slot

open Slot

/-- The slot of one machine. -/
@[ext] structure Slot where
  paired : Bool
  shown : Bool
  tracked : Option Nat
  task : Nat → TaskStatus
  importing : Nat → ImportStatus
  removing : Nat → RemovalStatus

namespace Slot

/-- The tasks after the abort of a handle that may be absent. -/
def abort (task : Nat → TaskStatus) : Option Nat → Nat → TaskStatus
  | none => task
  | some k => Function.update task k (task k).abort

/-- The steps on one machine. -/
inductive Step (s : Slot) : Slot → Prop
  | idle : Step s s
  | insert {i : Nat} (hi : s.importing i = .idle) (hr : ∀ r, s.removing r = .idle) :
      Step s { s with paired := true, importing := Function.update s.importing i .inserted }
  | store {i : Nat} (hi : s.importing i = .inserted) :
      Step s { s with shown := true, importing := Function.update s.importing i .stored }
  | spawn {i k : Nat} (hi : s.importing i = .stored) (hk : s.task k = .unknown) :
      Step s
        { s with
          task := Function.update s.task k .running
          importing := Function.update s.importing i (.spawned k) }
  | register {i k : Nat} (hi : s.importing i = .spawned k) (hp : s.paired = true) :
      Step s
        { s with
          tracked := some k
          task := abort s.task s.tracked
          importing := Function.update s.importing i .idle }
  | registerGone {i k : Nat} (hi : s.importing i = .spawned k) (hp : s.paired = false) :
      Step s
        { s with
          tracked := none
          task := abort (abort s.task s.tracked) (some k)
          importing := Function.update s.importing i .idle }
  | erase {r : Nat} (hr : s.removing r = .idle) (hp : s.paired = true)
      (hi : ∀ i, s.importing i = .idle) (ha : ∀ k, s.task k ≠ .aborted) :
      Step s { s with paired := false, removing := Function.update s.removing r .erased }
  | take {r k : Nat} (hr : s.removing r = .erased) (ht : s.tracked = some k) :
      Step s
        { s with
          tracked := none
          task := abort s.task (some k)
          removing := Function.update s.removing r (.awaiting k) }
  | takeNone {r : Nat} (hr : s.removing r = .erased) (ht : s.tracked = none) :
      Step s { s with removing := Function.update s.removing r .joined }
  | join {r k : Nat} (hr : s.removing r = .awaiting k) (hk : s.task k = .stopped) :
      Step s { s with removing := Function.update s.removing r .joined }
  | drop {r : Nat} (hr : s.removing r = .joined) :
      Step s { s with shown := false, removing := Function.update s.removing r .idle }
  | write {k : Nat} (hk : (s.task k).Live) : Step s { s with shown := true }
  | leave {k : Nat} (hk : (s.task k).Live) (hp : s.paired = false) :
      Step s { s with task := Function.update s.task k .stopped }
  | stop {k : Nat} (hk : s.task k = .aborted) :
      Step s { s with task := Function.update s.task k .stopped }

/-- A step that changes nothing. -/
theorem Step.of_eq {s t : Slot} (h : t = s) : Step s t := by
  subst h
  exact .idle

/-- A removal in flight: the monitors it still has to stop. -/
def Leaving (s : Slot) : RemovalStatus → Prop
  | .idle => False
  | .erased => ∀ k, (s.task k).Live → s.tracked = some k
  | .awaiting k => s.tracked = none ∧ ∀ k', (s.task k').Live → k' = k
  | .joined => s.tracked = none ∧ ∀ k, ¬ (s.task k).Live

/-- A paired machine: it is shown and monitored, or an import will see to it. -/
structure Present (s : Slot) : Prop where
  /-- A monitor that is tracked runs. -/
  tracked : ∀ k, s.tracked = some k → s.task k = .running
  /-- A monitor that is still to be tracked runs, and is tracked by nobody. -/
  spawned : ∀ i k, s.importing i = .spawned k → s.task k = .running ∧ s.tracked ≠ some k
  spawned_inj : ∀ i j k, s.importing i = .spawned k → s.importing j = .spawned k → i = j
  shown : s.shown = true ∨ ∃ i, s.importing i = .inserted
  monitored : (∃ k, s.tracked = some k) ∨ ∃ i, s.importing i ≠ .idle
  /-- A monitor that runs and was not aborted is tracked, or will be. -/
  accounted : ∀ k, s.task k = .running → s.tracked = some k ∨ ∃ i, s.importing i = .spawned k

/-- What holds in every state: the machine is gone, or one removal is in flight, or it is paired. -/
inductive Inv (s : Slot) : Prop
  | absent (hp : s.paired = false) (hi : ∀ i, s.importing i = .idle)
      (hr : ∀ r, s.removing r = .idle) (hshown : s.shown = false) (htracked : s.tracked = none)
      (hlive : ∀ k, ¬ (s.task k).Live)
  | leaving (r : Nat) (hp : s.paired = false) (hi : ∀ i, s.importing i = .idle)
      (hr : ∀ r', r' ≠ r → s.removing r' = .idle) (hstage : Leaving s (s.removing r))
  | present (hp : s.paired = true) (hr : ∀ r, s.removing r = .idle) (h : Present s)

variable {s t : Slot}

/-- An import past its pairing finds the machine paired. -/
theorem Inv.present_of_importing (h : Inv s) {i : Nat} (hi : s.importing i ≠ .idle) :
    s.paired = true ∧ (∀ r, s.removing r = .idle) ∧ Present s := by
  cases h with
  | absent hp hidle => exact absurd (hidle i) hi
  | leaving r hp hidle => exact absurd (hidle i) hi
  | present hp hr h => exact ⟨hp, hr, h⟩

/-- A removal in flight is the only one, and finds nothing else in flight. -/
theorem Inv.leaving_of_removing (h : Inv s) {r : Nat} (hne : s.removing r ≠ .idle) :
    s.paired = false ∧ (∀ i, s.importing i = .idle) ∧
      (∀ r', r' ≠ r → s.removing r' = .idle) ∧ Leaving s (s.removing r) := by
  cases h with
  | absent hp hi hr => exact absurd (hr r) hne
  | leaving r₀ hp hi hr hstage =>
    have heq : r = r₀ := by
      by_contra hdiff
      exact hne (hr r hdiff)
    subst heq
    exact ⟨hp, hi, hr, hstage⟩
  | present hp hr => exact absurd (hr r) hne

/-- Imports of another stage survive the update of one import. -/
theorem spawned_of_update {f : Nat → ImportStatus} {i j k : Nat} (stage : ImportStatus)
    (hstage : ∀ k, stage ≠ .spawned k) (h : Function.update f i stage j = .spawned k) :
    f j = .spawned k := by
  rcases update_cases h with ⟨-, heq⟩ | ⟨-, hj⟩
  · exact absurd heq (hstage k)
  · exact hj

/-- The part of `Present` that an import in no monitor stage leaves alone. -/
theorem Present.update {f : Slot} (h : Present s) {i : Nat} (stage old : ImportStatus)
    (hi : s.importing i = old) (hold : ∀ k, old ≠ .spawned k) (hstage : ∀ k, stage ≠ .spawned k)
    (hne : stage ≠ .idle) (htask : f.task = s.task) (htracked : f.tracked = s.tracked)
    (hf : f.importing = Function.update s.importing i stage)
    (hshown : f.shown = true ∨ stage = .inserted) : Present f := by
  have hself : f.importing i = stage := by rw [hf, Function.update_self]
  refine ⟨?_, ?_, ?_, ?_, .inr ⟨i, by rw [hself]; exact hne⟩, ?_⟩
  · intro k hk
    rw [htracked] at hk
    rw [htask]
    exact h.tracked k hk
  · intro j k hj
    rw [hf] at hj
    rw [htask, htracked]
    exact h.spawned j k (spawned_of_update stage hstage hj)
  · intro j j' k hj hj'
    rw [hf] at hj hj'
    exact h.spawned_inj j j' k (spawned_of_update stage hstage hj)
      (spawned_of_update stage hstage hj')
  · exact hshown.imp id fun heq => ⟨i, hself.trans heq⟩
  · intro k hk
    rw [htask] at hk
    rw [htracked, hf]
    refine (h.accounted k hk).imp id ?_
    rintro ⟨j, hj⟩
    exact ⟨j, update_keep hi hj (hold k)⟩

/-- An import that pairs the machine. -/
theorem Inv.insert (h : Inv s) {i : Nat} (hi : s.importing i = .idle)
    (hr : ∀ r, s.removing r = .idle) :
    Inv { s with paired := true, importing := Function.update s.importing i .inserted } := by
  refine .present rfl hr ?_
  have hself : Function.update s.importing i ImportStatus.inserted i = .inserted :=
    Function.update_self ..
  cases h with
  | absent hp hidle _ hshown htracked hlive =>
    have hnone : ∀ j k, Function.update s.importing i .inserted j ≠ .spawned k := by
      intro j k hj
      have hj' := spawned_of_update .inserted nofun hj
      rw [hidle j] at hj'
      cases hj'
    refine ⟨?_, fun j k hj => absurd hj (hnone j k), fun j j' k hj => absurd hj (hnone j k),
      .inr ⟨i, hself⟩, .inr ⟨i, ?_⟩, fun k hk => absurd (.inl hk) (hlive k)⟩
    · intro k hk
      have hk' : s.tracked = some k := hk
      rw [htracked] at hk'
      cases hk'
    · exact fun heq => nomatch hself.symm.trans heq
  | leaving r hp hidle hr' hstage =>
    rw [hr r] at hstage
    exact hstage.elim
  | present hp _ h => exact h.update .inserted .idle hi nofun nofun nofun rfl rfl rfl (.inr rfl)

/-- The monitor of an import. -/
theorem Present.spawn (h : Present s) {i k : Nat} (hi : s.importing i = .stored)
    (hk : s.task k = .unknown) :
    Present
      { s with
        task := Function.update s.task k .running
        importing := Function.update s.importing i (.spawned k) } := by
  have hkeep : ∀ k', s.task k' = .running → Function.update s.task k .running k' = .running :=
    fun k' hk' => update_keep hk hk' nofun
  have hne : ∀ k', s.task k' = .running → k' ≠ k := by
    rintro k' hk' rfl
    rw [hk] at hk'
    cases hk'
  refine ⟨fun k' hk' => hkeep k' (h.tracked k' hk'), ?_, ?_, ?_, .inr ⟨i, by simp⟩, ?_⟩
  · intro j k' hj
    rcases update_cases hj with ⟨-, heq⟩ | ⟨-, hj⟩
    · cases heq
      exact ⟨Function.update_self .., fun ht => hne k (h.tracked k ht) rfl⟩
    · obtain ⟨hrun, hnot⟩ := h.spawned j k' hj
      exact ⟨hkeep k' hrun, hnot⟩
  · intro j j' k' hj hj'
    rcases update_cases hj with ⟨hji, heq⟩ | ⟨-, hold⟩
    · cases heq
      rcases update_cases hj' with ⟨hji', -⟩ | ⟨-, hold'⟩
      · exact hji.trans hji'.symm
      · exact absurd rfl (hne k (h.spawned j' k hold').1)
    · rcases update_cases hj' with ⟨-, heq⟩ | ⟨-, hold'⟩
      · cases heq
        exact absurd rfl (hne k (h.spawned j k hold).1)
      · exact h.spawned_inj j j' k' hold hold'
  · refine h.shown.imp id ?_
    rintro ⟨j, hj⟩
    exact ⟨j, update_keep hi hj nofun⟩
  · intro k' hk'
    rcases update_cases hk' with ⟨rfl, -⟩ | ⟨-, hrun⟩
    · exact .inr ⟨i, Function.update_self ..⟩
    · refine (h.accounted k' hrun).imp id ?_
      rintro ⟨j, hj⟩
      exact ⟨j, update_keep hi hj nofun⟩

/-- A task that runs after an abort ran before and was not the aborted one. -/
theorem running_of_abort {task : Nat → TaskStatus} {o : Option Nat} {k : Nat}
    (h : abort task o k = .running) : task k = .running ∧ o ≠ some k := by
  cases o with
  | none => exact ⟨h, nofun⟩
  | some k₀ =>
    rcases update_cases h with ⟨-, heq⟩ | ⟨hne, hk⟩
    · exact absurd heq (TaskStatus.abort_ne_running _)
    · exact ⟨hk, fun heq => hne (Option.some.inj heq).symm⟩

/-- A task that runs and is not the aborted one goes on. -/
theorem abort_running {task : Nat → TaskStatus} {o : Option Nat} {k : Nat}
    (h : task k = .running) (hne : o ≠ some k) : abort task o k = .running := by
  cases o with
  | none => exact h
  | some k₀ =>
    have hk : k ≠ k₀ := fun heq => hne (congrArg some heq.symm)
    rw [abort, Function.update_of_ne hk]
    exact h

/-- An abort does not make a task live or dead at once. -/
theorem live_abort {task : Nat → TaskStatus} {o : Option Nat} {k : Nat} :
    (abort task o k).Live ↔ (task k).Live := by
  cases o with
  | none => exact Iff.rfl
  | some k₀ =>
    by_cases hk : k = k₀
    · subst hk
      rw [abort, Function.update_self]
      exact TaskStatus.live_abort
    · rw [abort, Function.update_of_ne hk]

/-- The handle of an import. -/
theorem Present.register (h : Present s) {i k : Nat} (hi : s.importing i = .spawned k) :
    Present
      { s with
        tracked := some k
        task := abort s.task s.tracked
        importing := Function.update s.importing i .idle } := by
  obtain ⟨hrun, hnot⟩ := h.spawned i k hi
  refine ⟨?_, ?_, ?_, ?_, .inl ⟨k, rfl⟩, ?_⟩
  · intro k' hk'
    cases hk'
    exact abort_running hrun hnot
  · intro j k' hj
    rcases update_cases hj with ⟨-, heq⟩ | ⟨hne, hj⟩
    · cases heq
    · obtain ⟨hrun', hnot'⟩ := h.spawned j k' hj
      refine ⟨abort_running hrun' hnot', fun heq => ?_⟩
      cases heq
      exact hne (h.spawned_inj j i k hj hi)
  · intro j j' k' hj hj'
    exact h.spawned_inj j j' k' (spawned_of_update .idle nofun hj)
      (spawned_of_update .idle nofun hj')
  · refine h.shown.imp id ?_
    rintro ⟨j, hj⟩
    exact ⟨j, update_keep hi hj nofun⟩
  · intro k' hk'
    obtain ⟨hrun', hne'⟩ := running_of_abort hk'
    rcases h.accounted k' hrun' with htracked | ⟨j, hj⟩
    · exact absurd htracked hne'
    · by_cases hji : j = i
      · subst hji
        rw [hi] at hj
        cases hj
        exact .inl rfl
      · exact .inr ⟨j, by simpa only [Function.update_of_ne hji] using hj⟩

/-- The end of a monitor leaves the others. -/
theorem live_of_stop {task : Nat → TaskStatus} {k k' : Nat}
    (h : (Function.update task k .stopped k').Live) : (task k').Live := by
  rcases eq_or_ne k' k with rfl | hne
  · rw [Function.update_self] at h
    rcases h with h | h <;> cases h
  · rwa [Function.update_of_ne hne] at h

/-- A removal in flight whose only change is a task that stopped. -/
theorem Leaving.stop {k : Nat} {stage : RemovalStatus} (h : Leaving s stage) :
    Leaving { s with task := Function.update s.task k .stopped } stage := by
  cases stage with
  | idle => exact h
  | erased => exact fun k' hk' => h k' (live_of_stop hk')
  | awaiting k₀ => exact ⟨h.1, fun k' hk' => h.2 k' (live_of_stop hk')⟩
  | joined => exact ⟨h.1, fun k' hk' => h.2 k' (live_of_stop hk')⟩

/-- The next stage of a removal. -/
theorem Inv.advance {f : Slot} {r : Nat} {stage : RemovalStatus} (hp : f.paired = false)
    (hi : ∀ i, f.importing i = .idle) (hr : ∀ r', r' ≠ r → s.removing r' = .idle)
    (hf : f.removing = Function.update s.removing r stage) (hstage : Leaving f stage) : Inv f := by
  refine .leaving r hp hi ?_ ?_
  · intro r' hne
    rw [hf, Function.update_of_ne hne]
    exact hr r' hne
  · rw [hf, Function.update_self]
    exact hstage

/-- An aborted monitor of a paired machine stops: it is not the one the machine has. -/
theorem Present.stop (h : Present s) {k : Nat} (hk : s.task k = .aborted) :
    Present { s with task := Function.update s.task k .stopped } where
  tracked k' hk' := update_keep hk (h.tracked k' hk') nofun
  spawned i k' hi := by
    obtain ⟨hrun, hnot⟩ := h.spawned i k' hi
    exact ⟨update_keep hk hrun nofun, hnot⟩
  spawned_inj := h.spawned_inj
  shown := h.shown
  monitored := h.monitored
  accounted k' hk' := by
    rcases update_cases hk' with ⟨-, heq⟩ | ⟨-, hrun⟩
    · cases heq
    · exact h.accounted k' hrun

/-- Every step keeps the invariant. -/
theorem Inv.step (h : Inv s) (hstep : Step s t) : Inv t := by
  cases hstep with
  | idle => exact h
  | insert hi hr => exact h.insert hi hr
  | store hi =>
    obtain ⟨hp, hr, hpres⟩ := h.present_of_importing (by rw [hi]; exact nofun)
    refine .present hp hr ?_
    exact hpres.update .stored .inserted hi nofun nofun nofun rfl rfl rfl (.inl rfl)
  | spawn hi hk =>
    obtain ⟨hp, hr, hpres⟩ := h.present_of_importing (by rw [hi]; exact nofun)
    exact .present hp hr (hpres.spawn hi hk)
  | register hi hpaired =>
    obtain ⟨hp, hr, hpres⟩ := h.present_of_importing (by rw [hi]; exact nofun)
    exact .present hp hr (hpres.register hi)
  | registerGone hi hgone =>
    obtain ⟨hp, -, -⟩ := h.present_of_importing (by rw [hi]; exact nofun)
    rw [hgone] at hp
    cases hp
  | erase hr hpaired hi ha =>
    cases h with
    | absent hp => rw [hp] at hpaired; cases hpaired
    | leaving r hp => rw [hp] at hpaired; cases hpaired
    | present hp hidle h =>
      refine Inv.advance rfl hi (fun r' _ => hidle r') rfl fun k hk => ?_
      have hrun : s.task k = .running := hk.resolve_right (ha k)
      refine (h.accounted k hrun).resolve_right ?_
      rintro ⟨i, hspawned⟩
      rw [hi i] at hspawned
      cases hspawned
  | @take r k hr ht =>
    obtain ⟨hp, hi, hidle, hstage⟩ := h.leaving_of_removing (by rw [hr]; exact nofun)
    rw [hr] at hstage
    refine Inv.advance hp hi hidle rfl ⟨rfl, fun k' hk' => ?_⟩
    have hlive : (abort s.task (some k) k').Live := hk'
    have htracked := hstage k' (live_abort.1 hlive)
    rw [ht] at htracked
    cases htracked
    rfl
  | takeNone hr ht =>
    obtain ⟨hp, hi, hidle, hstage⟩ := h.leaving_of_removing (by rw [hr]; exact nofun)
    rw [hr] at hstage
    refine Inv.advance hp hi hidle rfl ⟨ht, fun k hk => ?_⟩
    have htracked := hstage k hk
    rw [ht] at htracked
    cases htracked
  | join hr hk =>
    obtain ⟨hp, hi, hidle, hstage⟩ := h.leaving_of_removing (by rw [hr]; exact nofun)
    rw [hr] at hstage
    refine Inv.advance hp hi hidle rfl ⟨hstage.1, fun k' hk' => ?_⟩
    obtain rfl := hstage.2 k' hk'
    have hk' : (s.task k').Live := hk'
    rw [hk] at hk'
    rcases hk' with hk' | hk' <;> cases hk'
  | @drop r hr =>
    obtain ⟨hp, hi, hidle, hstage⟩ := h.leaving_of_removing (by rw [hr]; exact nofun)
    rw [hr] at hstage
    refine .absent hp hi (fun r' => ?_) rfl hstage.1 hstage.2
    by_cases hne : r' = r
    · subst hne
      exact Function.update_self ..
    · simpa only [Function.update_of_ne hne] using hidle r' hne
  | write hk =>
    cases h with
    | absent _ _ _ _ _ hlive => exact absurd hk (hlive _)
    | leaving r hp hi hr hstage => exact .leaving r hp hi hr hstage
    | present hp hr h =>
      exact .present hp hr ⟨h.tracked, h.spawned, h.spawned_inj, .inl rfl, h.monitored, h.accounted⟩
  | leave hk hgone =>
    cases h with
    | absent _ _ _ _ _ hlive => exact absurd hk (hlive _)
    | leaving r hp hi hr hstage => exact .leaving r hp hi hr hstage.stop
    | present hp => rw [hgone] at hp; cases hp
  | stop hk =>
    cases h with
    | absent _ _ _ _ _ hlive => exact absurd (.inr hk) (hlive _)
    | leaving r hp hi hr hstage => exact .leaving r hp hi hr hstage.stop
    | present hp hr h => exact .present hp hr (h.stop hk)

/-- A machine with a live monitor, or with an import past its snapshot, is shown. -/
structure Shown (s : Slot) : Prop where
  live : ∀ k, (s.task k).Live → s.shown = true
  stored : ∀ i, s.importing i ≠ .idle → s.importing i ≠ .inserted → s.shown = true

/-- An import past its snapshot is one of the others, or the updated one. -/
theorem stored_of_update {importing : Nat → ImportStatus} {i j : Nat} {stage : ImportStatus}
    (h : Function.update importing i stage j ≠ .idle)
    (h' : Function.update importing i stage j ≠ .inserted) :
    (importing j ≠ .idle ∧ importing j ≠ .inserted) ∨ stage ≠ .idle ∧ stage ≠ .inserted := by
  rcases eq_or_ne j i with rfl | hne
  · rw [Function.update_self] at h h'
    exact .inr ⟨h, h'⟩
  · rw [Function.update_of_ne hne] at h h'
    exact .inl ⟨h, h'⟩

/-- Every step keeps such a machine shown: a removal drops the snapshot when neither is left. -/
theorem Shown.step (h : Shown s) (hinv : Inv s) (hstep : Step s t) : Shown t := by
  cases hstep with
  | idle => exact h
  | insert hi hr =>
    refine ⟨h.live, fun j hj hj' => ?_⟩
    rcases stored_of_update hj hj' with hold | ⟨-, hne⟩
    · exact h.stored j hold.1 hold.2
    · exact absurd rfl hne
  | store hi => exact ⟨fun _ _ => rfl, fun _ _ _ => rfl⟩
  | @spawn i k hi hk =>
    have hshown : s.shown = true := h.stored i (by rw [hi]; exact nofun) (by rw [hi]; exact nofun)
    exact ⟨fun _ _ => hshown, fun _ _ _ => hshown⟩
  | @register i k hi hp =>
    have hshown : s.shown = true := h.stored i (by rw [hi]; exact nofun) (by rw [hi]; exact nofun)
    exact ⟨fun _ _ => hshown, fun _ _ _ => hshown⟩
  | @registerGone i k hi hp =>
    have hshown : s.shown = true := h.stored i (by rw [hi]; exact nofun) (by rw [hi]; exact nofun)
    exact ⟨fun _ _ => hshown, fun _ _ _ => hshown⟩
  | erase hr hp hi ha => exact ⟨h.live, h.stored⟩
  | @take r k hr ht =>
    refine ⟨fun k' hk' => ?_, h.stored⟩
    have hlive : (abort s.task (some k) k').Live := hk'
    exact h.live k' (live_abort.1 hlive)
  | takeNone hr ht => exact ⟨h.live, h.stored⟩
  | join hr hk => exact ⟨h.live, h.stored⟩
  | @drop r hr =>
    obtain ⟨-, hi, -, hstage⟩ := hinv.leaving_of_removing (by rw [hr]; exact nofun)
    rw [hr] at hstage
    exact ⟨fun k hk => absurd hk (hstage.2 k), fun j hj _ => absurd (hi j) hj⟩
  | write hk => exact ⟨fun _ _ => rfl, fun _ _ _ => rfl⟩
  | leave hk hp => exact ⟨fun k' hk' => h.live k' (live_of_stop hk'), h.stored⟩
  | stop hk => exact ⟨fun k' hk' => h.live k' (live_of_stop hk'), h.stored⟩

/-- Nothing is in flight on the machine, and every aborted monitor has stopped. -/
structure Quiet (s : Slot) : Prop where
  importing : ∀ i, s.importing i = .idle
  removing : ∀ r, s.removing r = .idle
  task : ∀ k, s.task k ≠ .aborted

/-- On a quiet machine the three tables agree. -/
theorem Inv.agree (h : Inv s) (hq : Quiet s) :
    (s.shown = true ↔ s.paired = true) ∧
      ((∃ k, s.tracked = some k ∧ s.task k = .running) ↔ s.paired = true) := by
  cases h with
  | absent hp hi hr hshown htracked hlive => simp [hp, hshown, htracked]
  | leaving r hp hi hr hstage =>
    rw [hq.removing r] at hstage
    exact hstage.elim
  | present hp hr h =>
    have hshown : s.shown = true := by
      refine h.shown.resolve_right ?_
      rintro ⟨i, hi⟩
      rw [hq.importing i] at hi
      cases hi
    have hmonitored : ∃ k, s.tracked = some k := by
      refine h.monitored.resolve_right ?_
      rintro ⟨i, hi⟩
      exact hi (hq.importing i)
    obtain ⟨k, hk⟩ := hmonitored
    exact ⟨by simp [hp, hshown], by simp only [hp, iff_true]; exact ⟨k, hk, h.tracked k hk⟩⟩

end Slot

end Rackio
