import Rackio.Remote.Fleet

/-!
# The fleet refines its slots

`slot` reads off what the fleet holds of an endpoint: whether it has a record and a snapshot, its
handle, and the stages of the tasks and calls of that endpoint. `Step.slot` is the refinement: a
step of the fleet that meets `Isolated` is a step of the slot of every endpoint. The one it is about
moves, the others stay, since every handle is of a task of its own endpoint (`WellFormed`).
-/

namespace Rackio

namespace RemoteFleet

variable {s t : RemoteFleet} {ev : Event}

/-! ## The slot of an endpoint -/

/-- What a task means to the slot of an endpoint. -/
def taskStatus (e : String) : Option Monitor.Task → Slot.TaskStatus
  | none => .unknown
  | some task => if task.endpointId = e then task.status else .unknown

/-- What an import means to the slot of an endpoint. -/
def importStatus (e : String) : Option ImportStage → Slot.ImportStatus
  | none => .idle
  | some stage => if stage.endpointId = e then stage.status else .idle

/-- What a removal means to the slot of an endpoint. -/
def removalStatus (e : String) : Option RemovalStage → Slot.RemovalStatus
  | none => .idle
  | some stage => if stage.endpointId = e then stage.status else .idle

/-- What the fleet holds of an endpoint. -/
def slot (s : RemoteFleet) (e : String) : Slot where
  paired := s.registry.contains e
  shown := s.snapshots.contains e
  tracked := s.monitors.find e
  task k := taskStatus e (s.tasks.find k)
  importing i := importStatus e (s.imports.find i)
  removing r := removalStatus e (s.removals.find r)

/-- A task of the slot's endpoint. -/
theorem taskStatus_self {e : String} (task : Monitor.Task) (h : task.endpointId = e) :
    taskStatus e (some task) = task.status := if_pos h

/-- A task of another endpoint. -/
theorem taskStatus_other {e : String} (task : Monitor.Task) (h : task.endpointId ≠ e) :
    taskStatus e (some task) = .unknown := if_neg h

/-- Reading a table of processes after one of them changed. -/
theorem read_insert {α β : Type} (f : Option α → β) (table : Table Nat α) (k : Nat) (v : α) :
    (fun k' => f ((table.insert k v).find k')) =
      Function.update (fun k' => f (table.find k')) k (f (some v)) := by
  funext k'
  by_cases h : k' = k
  · subst h; simp
  · simp [h]

/-- Reading a table of processes after one of them ended. -/
theorem read_erase {α β : Type} (f : Option α → β) (table : Table Nat α) (k : Nat) :
    (fun k' => f ((table.erase k).find k')) =
      Function.update (fun k' => f (table.find k')) k (f none) := by
  funext k'
  by_cases h : k' = k
  · subst h; simp
  · simp [h]

/-- Reading a table of processes whose change does not show. -/
theorem read_insert_same {α β : Type} (f : Option α → β) {table : Table Nat α} {k : Nat} {v : α}
    (h : f (some v) = f (table.find k)) :
    (fun k' => f ((table.insert k v).find k')) = fun k' => f (table.find k') := by
  rw [read_insert, h]
  exact Function.update_eq_self k _

/-- Reading a table of processes where the end of one does not show. -/
theorem read_erase_same {α β : Type} (f : Option α → β) {table : Table Nat α} {k : Nat}
    (h : f none = f (table.find k)) :
    (fun k' => f ((table.erase k).find k')) = fun k' => f (table.find k') := by
  rw [read_erase, h]
  exact Function.update_eq_self k _

/-- The status of an aborted task. -/
theorem status_aborted (task : Monitor.Task) :
    Monitor.Task.status { task with aborted := true } = task.status.abort := by
  unfold Monitor.Task.status
  by_cases hphase : task.phase = .stopped
  · simp [hphase, Slot.TaskStatus.abort]
  · cases haborted : task.aborted <;> simp [hphase, Slot.TaskStatus.abort]

/-- The abort of a task, read in any slot. -/
theorem read_abortTask (e : String) (tasks : Table Nat Monitor.Task) (k : Nat) :
    (fun k' => taskStatus e ((abortTask tasks k).find k')) =
      Slot.abort (fun k' => taskStatus e (tasks.find k')) (some k) := by
  unfold abortTask Slot.abort
  cases hk : tasks.find k with
  | none =>
    simp only [taskStatus, Slot.TaskStatus.abort]
    rw [eq_comm, Function.update_eq_self_iff, hk]
  | some task =>
    simp only
    rw [read_insert]
    congr 1
    rw [hk]
    by_cases he : task.endpointId = e
    · rw [taskStatus_self task he, ← status_aborted task]
      exact taskStatus_self _ he
    · rw [taskStatus_other task he]
      exact taskStatus_other _ he

/-- The abort of a handle, read in any slot. -/
theorem read_abortHandle (e : String) (tasks : Table Nat Monitor.Task) (o : Option Nat) :
    (fun k' => taskStatus e ((abortHandle tasks o).find k')) =
      Slot.abort (fun k' => taskStatus e (tasks.find k')) o := by
  cases o with
  | none => rfl
  | some k => exact read_abortTask e tasks k

/-- Aborting what is no task of a slot does not show in it. -/
theorem abort_unknown {task : Nat → Slot.TaskStatus} {o : Option Nat}
    (h : ∀ k, o = some k → task k = .unknown) : Slot.abort task o = task := by
  cases o with
  | none => rfl
  | some k =>
    have hk := h k rfl
    rw [Slot.abort, Function.update_eq_self_iff, hk]
    rfl

/-! ## Handles and their tasks -/

/-- The task is one of the endpoint. -/
def Owned (s : RemoteFleet) (k : Nat) (e : String) : Prop :=
  ∃ task, s.tasks.find k = some task ∧ task.endpointId = e

/-- Every handle the fleet holds is of a task of its endpoint. -/
structure WellFormed (s : RemoteFleet) : Prop where
  monitors : ∀ e k, s.monitors.find e = some k → s.Owned k e
  spawned : ∀ i record snapshot k, s.imports.find i = some (.spawned record snapshot k) →
    s.Owned k record.endpointId
  awaiting : ∀ r e k, s.removals.find r = some (.awaiting e k) → s.Owned k e

/-- A task that is not of an endpoint is unknown to its slot. -/
theorem Owned.unknown {k : Nat} {e e' : String} (h : s.Owned k e) (hne : e ≠ e') :
    (s.slot e').task k = .unknown := by
  obtain ⟨task, hk, he⟩ := h
  simp only [slot, hk]
  exact taskStatus_other _ (by rw [he]; exact hne)

/-- An abort keeps tasks and their endpoints. -/
theorem owned_abortTask {tasks : Table Nat Monitor.Task} {k k' : Nat} {e : String}
    (h : ∃ task, tasks.find k' = some task ∧ task.endpointId = e) :
    ∃ task, (abortTask tasks k).find k' = some task ∧ task.endpointId = e := by
  obtain ⟨task, hk', he⟩ := h
  unfold abortTask
  cases hk : tasks.find k with
  | none => exact ⟨task, hk', he⟩
  | some task₀ =>
    simp only [Table.find_insert]
    split
    · next heq =>
      subst heq
      rw [hk'] at hk
      cases hk
      exact ⟨_, rfl, he⟩
    · exact ⟨task, hk', he⟩

/-- The registration of a handle keeps tasks and their endpoints. -/
theorem Owned.registerTask {k k' : Nat} {e e' : String} (h : s.Owned k e) :
    (s.registerTask e' k').Owned k e := by
  have hhandle : ∃ task, (abortHandle s.tasks (s.monitors.find e')).find k = some task ∧
      task.endpointId = e := by
    cases s.monitors.find e' with
    | none => exact h
    | some previous => exact owned_abortTask h
  unfold RemoteFleet.registerTask Owned
  simp only
  split
  · exact hhandle
  · exact owned_abortTask hhandle

/-- A task is one of its endpoint for good. -/
theorem Step.owned (h : Step s ev t) {k : Nat} {e : String} (hk : s.Owned k e) : t.Owned k e := by
  have update {k₀ : Nat} {task₀ task₁ : Monitor.Task} (hk₀ : s.tasks.find k₀ = some task₀)
      (he : task₁.endpointId = task₀.endpointId) :
      ∃ task, (s.tasks.insert k₀ task₁).find k = some task ∧ task.endpointId = e := by
    obtain ⟨task, hfind, hid⟩ := hk
    simp only [Table.find_insert]
    split
    · next heq =>
      subst heq
      rw [hfind] at hk₀
      cases hk₀
      exact ⟨task₁, rfl, he.trans hid⟩
    · exact ⟨task, hfind, hid⟩
  cases h with
  | @importSpawn i k₀ record snapshot hi hnone =>
    obtain ⟨task, hfind, hid⟩ := hk
    have hne : k ≠ k₀ := by
      rintro rfl
      rw [hfind] at hnone
      cases hnone
    exact ⟨task, by simp only [spawnTask, Table.find_insert, if_neg hne]; exact hfind, hid⟩
  | importRegister hi => exact Owned.registerTask hk
  | removeTake hr hm => exact owned_abortTask hk
  | task hfind hstep => exact update hfind hstep.effect.endpointId
  | taskStop hfind haborted hrunning => exact update hfind rfl
  | _ => exact hk

/-- The handles after the registration of one. -/
theorem registerTask_monitors {e₀ e : String} {k₀ k : Nat}
    (h : (s.registerTask e₀ k₀).monitors.find e = some k) :
    (e = e₀ ∧ k = k₀) ∨ s.monitors.find e = some k := by
  unfold registerTask at h
  simp only at h
  split at h
  · simp only [Table.find_insert] at h
    split at h
    · next heq =>
      cases h
      exact .inl ⟨heq, rfl⟩
    · exact .inr h
  · simp only [Table.find_erase] at h
    split at h
    · cases h
    · exact .inr h

/-- Every step keeps the tracked handles with tasks of their endpoints. -/
theorem WellFormed.step_monitors (h : WellFormed s) (hstep : Step s ev t) {e : String} {k : Nat}
    (hk : t.monitors.find e = some k) : t.Owned k e := by
  have old (hs : s.monitors.find e = some k) : t.Owned k e := hstep.owned (h.monitors e k hs)
  cases hstep with
  | importRegister hi =>
    rcases registerTask_monitors hk with ⟨rfl, rfl⟩ | hs
    · exact Owned.registerTask (h.spawned _ _ _ _ hi)
    · exact old hs
  | removeTake hr hm =>
    simp only [Table.find_erase] at hk
    split at hk
    · cases hk
    · exact old hk
  | _ => exact old hk

/-- Every step keeps the handles of imports with tasks of their endpoints. -/
theorem WellFormed.step_spawned (h : WellFormed s) (hstep : Step s ev t) {i : Nat}
    {record : RemoteMachineRecord} {snapshot : RemoteMachineSnapshot} {k : Nat}
    (hi : t.imports.find i = some (.spawned record snapshot k)) :
    t.Owned k record.endpointId := by
  have old (hs : s.imports.find i = some (.spawned record snapshot k)) :
      t.Owned k record.endpointId := hstep.owned (h.spawned i record snapshot k hs)
  have inserted {i₀ : Nat} {stage : ImportStage} (ht : t.imports = s.imports.insert i₀ stage)
      (hne : stage ≠ .spawned record snapshot k) : t.Owned k record.endpointId := by
    rw [ht, Table.find_insert] at hi
    split at hi
    · exact absurd (Option.some.inj hi) hne
    · exact old hi
  have erased {i₀ : Nat} (ht : t.imports = s.imports.erase i₀) : t.Owned k record.endpointId := by
    rw [ht, Table.find_erase] at hi
    split at hi
    · cases hi
    · exact old hi
  cases hstep with
  | importCheck => exact inserted rfl nofun
  | importFail => exact erased rfl
  | importInsert => exact inserted rfl nofun
  | importStore => exact inserted rfl nofun
  | @importSpawn i₀ k₀ record₀ snapshot₀ hi₀ hk₀ =>
    simp only [Table.find_insert] at hi
    split at hi
    · cases hi
      exact ⟨_, by simp only [spawnTask, Table.find_insert, if_pos]; rfl, rfl⟩
    · exact old hi
  | importRegister => exact erased rfl
  | _ => exact old hi

/-- Every step keeps the handles that removals wait for with tasks of their endpoints. -/
theorem WellFormed.step_awaiting (h : WellFormed s) (hstep : Step s ev t) {r : Nat} {e : String}
    {k : Nat} (hr : t.removals.find r = some (.awaiting e k)) : t.Owned k e := by
  have old (hs : s.removals.find r = some (.awaiting e k)) : t.Owned k e :=
    hstep.owned (h.awaiting r e k hs)
  have inserted {r₀ : Nat} {stage : RemovalStage} (ht : t.removals = s.removals.insert r₀ stage)
      (hne : stage ≠ .awaiting e k) : t.Owned k e := by
    rw [ht, Table.find_insert] at hr
    split at hr
    · exact absurd (Option.some.inj hr) hne
    · exact old hr
  cases hstep with
  | removeErase => exact inserted rfl nofun
  | removeTake hr₀ hm =>
    simp only [Table.find_insert] at hr
    split at hr
    · cases hr
      exact owned_abortTask (h.monitors _ _ hm)
    · exact old hr
  | removeTakeNone => exact inserted rfl nofun
  | removeJoin => exact inserted rfl nofun
  | removeDrop =>
    simp only [Table.find_erase] at hr
    split at hr
    · cases hr
    · exact old hr
  | _ => exact old hr

/-- Every step keeps handles with tasks of their endpoints. -/
theorem WellFormed.step (h : WellFormed s) (hstep : Step s ev t) : WellFormed t where
  monitors _ _ hk := h.step_monitors hstep hk
  spawned _ _ _ _ hi := h.step_spawned hstep hi
  awaiting _ _ _ hr := h.step_awaiting hstep hr

/-! ## Refinement -/

/-- The status of a task that has not stopped. -/
theorem live_status {task : Monitor.Task} (h : task.phase ≠ .stopped) : task.status.Live := by
  unfold Monitor.Task.status Slot.TaskStatus.Live
  rw [if_neg h]
  cases task.aborted <;> simp

/-- An import of another endpoint, or one that has not paired its machine, is idle. -/
theorem importStatus_idle {e : String} (stage : ImportStage)
    (h : stage.endpointId ≠ e ∨ stage.status = .idle) : importStatus e (some stage) = .idle := by
  show (if stage.endpointId = e then stage.status else .idle) = Slot.ImportStatus.idle
  split
  · next heq => exact h.resolve_left fun hne => hne heq
  · rfl

/-- An import of the slot's endpoint. -/
theorem importStatus_self {e : String} (stage : ImportStage) (h : stage.endpointId = e) :
    importStatus e (some stage) = stage.status := if_pos h

/-- A removal of another endpoint is idle. -/
theorem removalStatus_other {e : String} (stage : RemovalStage) (h : stage.endpointId ≠ e) :
    removalStatus e (some stage) = .idle := if_neg h

/-- Storing a snapshot shows in the slot of its endpoint only. -/
theorem contains_insert {snapshots : Table String RemoteMachineSnapshot} {e₀ e : String}
    {snapshot : RemoteMachineSnapshot} :
    (snapshots.insert e₀ snapshot).contains e = (decide (e = e₀) || snapshots.contains e) := by
  unfold Table.contains
  rw [Table.find_insert]
  split
  · next h => simp [h]
  · next h => simp [h]

/-- Dropping a snapshot shows in the slot of its endpoint only. -/
theorem contains_erase {snapshots : Table String RemoteMachineSnapshot} {e₀ e : String} :
    (snapshots.erase e₀).contains e = (decide (e ≠ e₀) && snapshots.contains e) := by
  unfold Table.contains
  rw [Table.find_erase]
  split
  · next h => simp [h]
  · next h => simp [h]

/-- An import that pairs its machine, in the slot of every endpoint. -/
theorem slot_importInsert {i : Nat} {bundle : PairingBundle} {answer : PairingAnswer}
    (hi : s.imports.find i = some (.dialing bundle))
    (hg : Isolated s (.importInsert i bundle.endpointId)) (e : String) :
    Slot.Step (s.slot e)
      ({ s with
        registry := s.registry.store (importedRecord bundle answer)
        imports := s.imports.insert i
          (.inserted (importedRecord bundle answer)
            (importedSnapshot bundle answer)) }.slot e) := by
  have hidle : importStatus e (s.imports.find i) = .idle := by
    rw [hi]
    exact importStatus_idle _ (.inr rfl)
  by_cases he : bundle.endpointId = e
  · have hr : ∀ r, (s.slot e).removing r = .idle := by
      intro r
      simp only [slot]
      cases hfind : s.removals.find r with
      | none => rfl
      | some stage => exact removalStatus_other _ (he ▸ hg r stage hfind)
    convert Slot.Step.insert (s := s.slot e) hidle hr using 1
    refine Slot.ext ?_ rfl rfl rfl ?_ rfl
    · simp [slot, importedRecord, he]
    · simp only [slot]
      rw [read_insert]
      simp [importStatus, ImportStage.endpointId, ImportStage.status, importedRecord, he]
  · refine .of_eq (Slot.ext ?_ rfl rfl rfl ?_ rfl)
    · simp [slot, importedRecord, Ne.symm he]
    · refine read_insert_same (importStatus e) ?_
      rw [hidle]
      simp [importStatus, ImportStage.endpointId, importedRecord, he]

/-- An import that stores its snapshot, in the slot of every endpoint. -/
theorem slot_importStore {i : Nat} {record : RemoteMachineRecord} {snapshot : RemoteMachineSnapshot}
    (hi : s.imports.find i = some (.inserted record snapshot)) (e : String) :
    Slot.Step (s.slot e)
      ({ s with
        snapshots := s.snapshots.insert record.endpointId snapshot
        imports := s.imports.insert i (.stored record snapshot) }.slot e) := by
  by_cases he : record.endpointId = e
  · have hstage : (s.slot e).importing i = .inserted := by
      simp only [slot, hi]
      exact importStatus_self _ he
    convert Slot.Step.store hstage using 1
    refine Slot.ext rfl ?_ rfl rfl ?_ rfl
    · simp [slot, contains_insert, he]
    · simp only [slot]
      rw [read_insert, importStatus_self (.stored _ _) he]
      rfl
  · refine .of_eq (Slot.ext rfl ?_ rfl rfl ?_ rfl)
    · simp [slot, contains_insert, Ne.symm he]
    · refine read_insert_same (importStatus e) ?_
      simp [hi, importStatus, ImportStage.endpointId, he]

/-- An import that spawns its monitor, in the slot of every endpoint. -/
theorem slot_importSpawn {i k : Nat} {record : RemoteMachineRecord}
    {snapshot : RemoteMachineSnapshot} (hi : s.imports.find i = some (.stored record snapshot))
    (hk : s.tasks.find k = none) (e : String) :
    Slot.Step (s.slot e)
      ({ s.spawnTask k record with
        imports := s.imports.insert i (.spawned record snapshot k) }.slot e) := by
  by_cases he : record.endpointId = e
  · have hstage : (s.slot e).importing i = .stored := by
      simp only [slot, hi]
      exact importStatus_self _ he
    have hunknown : (s.slot e).task k = .unknown := by
      simp only [slot, hk]
      rfl
    convert Slot.Step.spawn hstage hunknown using 1
    refine Slot.ext rfl rfl rfl ?_ ?_ rfl
    · simp only [slot, spawnTask]
      rw [read_insert, taskStatus_self ⟨record, _, _⟩ he]
      rfl
    · simp only [slot, spawnTask]
      rw [read_insert, importStatus_self (.spawned _ _ _) he]
      rfl
  · refine .of_eq (Slot.ext rfl rfl rfl ?_ ?_ rfl)
    · refine read_insert_same (taskStatus e) ?_
      rw [hk]
      exact taskStatus_other _ he
    · refine read_insert_same (importStatus e) ?_
      simp [hi, importStatus, ImportStage.endpointId, he]

/-- An import that registers its handle, in the slot of every endpoint. -/
theorem slot_importRegister (hwf : WellFormed s) {i k : Nat} {record : RemoteMachineRecord}
    {snapshot : RemoteMachineSnapshot} (hi : s.imports.find i = some (.spawned record snapshot k))
    (e : String) :
    Slot.Step (s.slot e)
      ({ s.registerTask record.endpointId k with imports := s.imports.erase i }.slot e) := by
  by_cases he : record.endpointId = e
  · have hstage : (s.slot e).importing i = .spawned k := by
      simp only [slot, hi]
      exact importStatus_self _ he
    subst he
    cases hpaired : s.registry.contains record.endpointId with
    | true =>
      convert Slot.Step.register hstage hpaired using 1
      refine Slot.ext rfl rfl ?_ ?_ (read_erase (importStatus _) _ _) rfl
      · simp [slot, registerTask, hpaired]
      · simp only [slot, registerTask, hpaired, if_true]
        exact read_abortHandle _ _ _
    | false =>
      convert Slot.Step.registerGone hstage hpaired using 1
      refine Slot.ext rfl rfl ?_ ?_ (read_erase (importStatus _) _ _) rfl
      · simp [slot, registerTask, hpaired]
      · simp only [slot, registerTask, hpaired]
        rw [if_neg Bool.false_ne_true, read_abortTask, read_abortHandle]
  · have hprevious : Slot.abort (s.slot e).task (s.monitors.find record.endpointId) =
        (s.slot e).task :=
      abort_unknown fun k' hk' => (hwf.monitors _ k' hk').unknown he
    have hself : Slot.abort (s.slot e).task (some k) = (s.slot e).task := by
      refine abort_unknown fun k' hk' => ?_
      cases hk'
      exact (hwf.spawned i record snapshot k hi).unknown he
    refine .of_eq (Slot.ext rfl rfl ?_ ?_ (read_erase_same (importStatus e) ?_) rfl)
    · simp only [slot, registerTask]
      split
      · rw [Table.find_insert, if_neg (Ne.symm he)]
      · rw [Table.find_erase, if_neg (Ne.symm he)]
    · simp only [slot, registerTask] at hprevious hself ⊢
      split
      · rw [read_abortHandle, hprevious]
      · rw [read_abortTask, read_abortHandle, hprevious, hself]
    · simp [hi, importStatus, ImportStage.endpointId, he]

/-- A removal that finds the record, in the slot of every endpoint. -/
theorem slot_removeErase {r : Nat} {e₀ : String} (hr : s.removals.find r = none)
    (hpaired : s.registry.contains e₀ = true) (hg : Isolated s (.removeErase r e₀)) (e : String) :
    Slot.Step (s.slot e)
      ({ s with
        registry := s.registry.drop e₀
        removals := s.removals.insert r (.erased e₀) }.slot e) := by
  obtain ⟨hidle, haborted⟩ := hg
  by_cases he : e₀ = e
  · subst he
    have hremoving : (s.slot e₀).removing r = .idle := by
      simp only [slot, hr]
      rfl
    have himporting : ∀ i, (s.slot e₀).importing i = .idle := by
      intro i
      simp only [slot]
      cases hfind : s.imports.find i with
      | none => rfl
      | some stage =>
        by_cases hid : stage.endpointId = e₀
        · exact importStatus_idle _ (.inr (hidle i stage hfind hid))
        · exact importStatus_idle _ (.inl hid)
    have htask : ∀ k, (s.slot e₀).task k ≠ .aborted := by
      intro k
      simp only [slot]
      cases hfind : s.tasks.find k with
      | none => exact nofun
      | some task =>
        by_cases hid : task.endpointId = e₀
        · rw [taskStatus_self task hid]
          exact haborted k task hfind hid
        · rw [taskStatus_other task hid]
          exact nofun
    convert Slot.Step.erase hremoving hpaired himporting htask using 1
    refine Slot.ext ?_ rfl rfl rfl rfl (read_insert (removalStatus e₀) _ _ _ |>.trans ?_)
    · simp [slot]
    · simp [removalStatus, RemovalStage.endpointId, RemovalStage.status, slot]
  · refine .of_eq (Slot.ext ?_ rfl rfl rfl rfl (read_insert_same (removalStatus e) ?_))
    · simp [slot, Ne.symm he]
    · simp [hr, removalStatus, RemovalStage.endpointId, he]

/-- A removal that takes a handle, in the slot of every endpoint. -/
theorem slot_removeTake (hwf : WellFormed s) {r k : Nat} {e₀ : String}
    (hr : s.removals.find r = some (.erased e₀)) (hk : s.monitors.find e₀ = some k) (e : String) :
    Slot.Step (s.slot e)
      ({ s with
        monitors := s.monitors.erase e₀
        tasks := abortTask s.tasks k
        removals := s.removals.insert r (.awaiting e₀ k) }.slot e) := by
  by_cases he : e₀ = e
  · subst he
    have hremoving : (s.slot e₀).removing r = .erased := by
      simp [slot, hr, removalStatus, RemovalStage.endpointId, RemovalStage.status]
    convert Slot.Step.take hremoving hk using 1
    refine Slot.ext rfl rfl ?_ (read_abortTask e₀ _ _) rfl
      (read_insert (removalStatus e₀) _ _ _ |>.trans ?_)
    · simp [slot]
    · simp [removalStatus, RemovalStage.endpointId, RemovalStage.status, slot]
  · refine .of_eq (Slot.ext rfl rfl ?_ ?_ rfl (read_insert_same (removalStatus e) ?_))
    · simp [slot, Ne.symm he]
    · refine (read_abortTask e s.tasks k).trans (abort_unknown fun k' hk' => ?_)
      cases hk'
      exact (hwf.monitors e₀ k hk).unknown he
    · simp [hr, removalStatus, RemovalStage.endpointId, he]

/-- A removal that has nothing more to await, in the slot of every endpoint. -/
theorem slot_removeJoined {r : Nat} {e₀ : String} {stage : RemovalStage}
    (hr : s.removals.find r = some stage) (hid : stage.endpointId = e₀)
    (hdone : Slot.Step (s.slot e₀)
      { s.slot e₀ with removing := Function.update (s.slot e₀).removing r .joined }) (e : String) :
    Slot.Step (s.slot e)
      ({ s with removals := s.removals.insert r (.joined e₀) }.slot e) := by
  by_cases he : e₀ = e
  · subst he
    convert hdone using 1
    refine Slot.ext rfl rfl rfl rfl rfl (read_insert (removalStatus e₀) _ _ _ |>.trans ?_)
    simp [removalStatus, RemovalStage.endpointId, RemovalStage.status, slot]
  · refine .of_eq (Slot.ext rfl rfl rfl rfl rfl (read_insert_same (removalStatus e) ?_))
    rw [hr, removalStatus_other stage (by rw [hid]; exact he)]
    exact removalStatus_other _ he

/-- A removal that drops the snapshot, in the slot of every endpoint. -/
theorem slot_removeDrop {r : Nat} {e₀ : String} (hr : s.removals.find r = some (.joined e₀))
    (e : String) :
    Slot.Step (s.slot e)
      ({ s with snapshots := s.snapshots.erase e₀, removals := s.removals.erase r }.slot e) := by
  by_cases he : e₀ = e
  · subst he
    have hremoving : (s.slot e₀).removing r = .joined := by
      simp [slot, hr, removalStatus, RemovalStage.endpointId, RemovalStage.status]
    convert Slot.Step.drop hremoving using 1
    refine Slot.ext rfl ?_ rfl rfl rfl (read_erase (removalStatus e₀) _ _)
    simp [slot, contains_erase]
  · refine .of_eq (Slot.ext rfl ?_ rfl rfl rfl (read_erase_same (removalStatus e) ?_))
    · simp [slot, contains_erase, Ne.symm he]
    · simp [hr, removalStatus, RemovalStage.endpointId, he]

/-- A step of a monitor, in the slot of every endpoint. -/
theorem slot_task {k : Nat} {task : Monitor.Task} {v : Monitor.View}
    (hk : s.tasks.find k = some task)
    (heffect : Monitor.Effect ⟨s.registry, s.snapshots, task⟩ v) (e : String) :
    Slot.Step (s.slot e)
      ({ s with
        registry := v.registry
        snapshots := v.snapshots
        tasks := s.tasks.insert k v.task }.slot e) := by
  have hid : v.task.endpointId = task.endpointId := heffect.endpointId
  by_cases he : task.endpointId = e
  · have hstatus : (s.slot e).task k = task.status := by
      simp only [slot, hk]
      exact taskStatus_self task he
    have hlive : ((s.slot e).task k).Live := by
      rw [hstatus]
      exact live_status heffect.running
    rcases heffect.outcome with ⟨hstopped, hgone, hsnap⟩ | ⟨hrunning, hsnap⟩
    · have hpaired : (s.slot e).paired = false := he ▸ hgone
      convert Slot.Step.leave hlive hpaired using 1
      refine Slot.ext (heffect.registry e) ?_ rfl
        (read_insert (taskStatus e) _ _ _ |>.trans ?_) rfl rfl
      · simp only [slot, hsnap]
      · rw [taskStatus_self v.task (hid.trans he), Monitor.Task.status, if_pos hstopped]
        rfl
    · have hsame : taskStatus e (some v.task) = taskStatus e (s.tasks.find k) := by
        have haborted : v.task.aborted = task.aborted := heffect.aborted
        have hrunning₀ : task.phase ≠ .stopped := heffect.running
        rw [hk, taskStatus_self v.task (hid.trans he), taskStatus_self task he,
          Monitor.Task.status, Monitor.Task.status, if_neg hrunning, if_neg hrunning₀, haborted]
      rcases hsnap with hshown | hsnap
      · convert Slot.Step.write hlive using 1
        refine Slot.ext (heffect.registry e) ?_ rfl (read_insert_same _ hsame) rfl rfl
        exact he ▸ hshown
      · refine .of_eq (Slot.ext (heffect.registry e) ?_ rfl (read_insert_same _ hsame) rfl rfl)
        simp only [slot, hsnap]
  · refine .of_eq (Slot.ext (heffect.registry e) (heffect.others e (Ne.symm he)) rfl
      (read_insert_same (taskStatus e) ?_) rfl rfl)
    rw [hk, taskStatus_other task he]
    exact taskStatus_other _ (by rw [hid]; exact he)

/-- The end of an aborted monitor, in the slot of every endpoint. -/
theorem slot_taskStop {k : Nat} {task : Monitor.Task} (hk : s.tasks.find k = some task)
    (haborted : task.aborted = true) (hrunning : task.phase ≠ .stopped) (e : String) :
    Slot.Step (s.slot e)
      ({ s with tasks := s.tasks.insert k { task with phase := .stopped } }.slot e) := by
  by_cases he : task.endpointId = e
  · have hstatus : (s.slot e).task k = .aborted := by
      simp only [slot, hk]
      rw [taskStatus_self task he, Monitor.Task.status, if_neg hrunning, haborted]
      rfl
    convert Slot.Step.stop hstatus using 1
    refine Slot.ext rfl rfl rfl (read_insert (taskStatus e) _ _ _ |>.trans ?_) rfl rfl
    rw [taskStatus_self { task with phase := .stopped } he]
    rfl
  · refine .of_eq (Slot.ext rfl rfl rfl (read_insert_same (taskStatus e) ?_) rfl rfl)
    rw [hk, taskStatus_other task he]
    exact taskStatus_other _ he

/-- A step of the fleet that meets the condition is a step of the slot of every endpoint. -/
theorem Step.slot (hwf : WellFormed s) (hg : Isolated s ev) (h : Step s ev t) (e : String) :
    Slot.Step (s.slot e) (t.slot e) := by
  cases h with
  | importCheck hi hvalid hnew =>
    refine .of_eq (Slot.ext rfl rfl rfl rfl (read_insert_same (importStatus e) ?_) rfl)
    rw [hi]
    exact importStatus_idle _ (.inr rfl)
  | importFail hi =>
    refine .of_eq (Slot.ext rfl rfl rfl rfl (read_erase_same (importStatus e) ?_) rfl)
    rw [hi]
    exact (importStatus_idle _ (.inr rfl)).symm
  | @importInsert i bundle answer persist registry hi hanswer hinsert =>
    rw [RemoteMachineRegistry.insert_eq_ok hinsert]
    exact slot_importInsert hi hg e
  | importStore hi => exact slot_importStore hi e
  | importSpawn hi hk => exact slot_importSpawn hi hk e
  | importRegister hi => exact slot_importRegister hwf hi e
  | @removeErase r e₀ persist registry hr hremove =>
    obtain ⟨hpaired, hregistry⟩ := RemoteMachineRegistry.remove_eq_ok hremove
    rw [hregistry]
    exact slot_removeErase hr hpaired hg e
  | removeAbsent hremove => exact .idle
  | removeFailed hremove => exact .idle
  | removeTake hr hk => exact slot_removeTake hwf hr hk e
  | removeTakeNone hr hk =>
    refine slot_removeJoined hr rfl (.takeNone ?_ hk) e
    simp [RemoteFleet.slot, hr, removalStatus, RemovalStage.endpointId, RemovalStage.status]
  | @removeJoin r k e₀ task hr hk hstopped =>
    obtain ⟨task', hfind, hid⟩ := hwf.awaiting _ _ _ hr
    rw [hk] at hfind
    cases hfind
    have hstage : (s.slot e₀).removing r = .awaiting k := by
      simp [RemoteFleet.slot, hr, removalStatus, RemovalStage.endpointId, RemovalStage.status]
    have htask : (s.slot e₀).task k = .stopped := by
      simp only [RemoteFleet.slot, hk]
      rw [taskStatus_self _ hid, Monitor.Task.status, if_pos hstopped]
    exact slot_removeJoined hr rfl (.join hstage htask) e
  | removeDrop hr => exact slot_removeDrop hr e
  | task hk hstep => exact slot_task hk hstep.effect e
  | taskStop hk haborted hrunning => exact slot_taskStop hk haborted hrunning e

end RemoteFleet

end Rackio
