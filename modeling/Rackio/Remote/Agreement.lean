import Rackio.Remote.FleetSlot

/-!
# The tables of the fleet agree

A started fleet monitors exactly the machines of its registry (`Starting`), so the slot of every
endpoint starts in its invariant; the refinement carries it to every state of a run, and
`tables_agree` reads it in the quiescent ones.

Without `Isolated` the tables may part for good. `snapshot_without_record` is a removal that falls
between the two tables an import writes.
-/

namespace Rackio

open Lts

namespace RemoteFleet

variable {s t : RemoteFleet} {ev : Event}

/-! ## Start -/

/-- A fleet whose `start` still has to spawn the monitors of `todo`, the next one as task `k`. -/
structure Starting (loaded : RemoteMachineRegistry) (todo : List String) (k : Nat)
    (s : RemoteFleet) : Prop where
  registry : s.registry = loaded
  snapshots : s.snapshots = loaded.records.map .offline
  imports : s.imports = .empty
  removals : s.removals = .empty
  fresh : ∀ k', k ≤ k' → s.tasks.find k' = none
  tasks : ∀ k' task, s.tasks.find k' = some task →
    task.status = .running ∧ s.monitors.find task.endpointId = some k'
  monitors : ∀ e k', s.monitors.find e = some k' →
    s.Owned k' e ∧ loaded.contains e = true ∧ e ∉ todo
  pending : ∀ e, loaded.contains e = true → (∃ k', s.monitors.find e = some k') ∨ e ∈ todo

/-- A loaded fleet has every monitor still to spawn. -/
theorem Starting.load (registry : RemoteMachineRegistry) :
    Starting registry registry.records.keys 0 (RemoteFleet.load registry) where
  registry := rfl
  snapshots := rfl
  imports := rfl
  removals := rfl
  fresh _ _ := rfl
  tasks := by
    intro k' task h
    cases h
  monitors := by
    intro e k' h
    cases h
  pending := by
    intro e he
    exact .inr (Table.mem_keys_iff.2 he)

/-- The monitor of one more record. -/
theorem Starting.spawn {registry : RemoteMachineRegistry} {todo : List String} {k : Nat}
    {record : RemoteMachineRecord} (h : Starting registry (record.endpointId :: todo) k s)
    (hnew : record.endpointId ∉ todo) (hpaired : registry.contains record.endpointId = true) :
    Starting registry todo (k + 1) (s.spawnMonitor k record) := by
  have hnone : s.monitors.find record.endpointId = none := by
    cases hm : s.monitors.find record.endpointId with
    | none => rfl
    | some k' => exact absurd (.head _) (h.monitors _ k' hm).2.2
  have htasks : (s.spawnMonitor k record).tasks = s.tasks.insert k ⟨record, .checking, false⟩ := by
    simp [spawnMonitor, registerTask, spawnTask, h.registry, hpaired, hnone, abortHandle]
  have hmonitors : (s.spawnMonitor k record).monitors = s.monitors.insert record.endpointId k := by
    simp [spawnMonitor, registerTask, spawnTask, h.registry, hpaired]
  refine ⟨h.registry, h.snapshots, h.imports, h.removals, ?_, ?_, ?_, ?_⟩
  · intro k' hk'
    rw [htasks, Table.find_insert, if_neg (by omega)]
    exact h.fresh k' (by omega)
  · intro k' task hk'
    rw [htasks, Table.find_insert] at hk'
    rw [hmonitors, Table.find_insert]
    split at hk'
    · next heq =>
      cases hk'
      subst heq
      exact ⟨rfl, if_pos rfl⟩
    · obtain ⟨hrunning, htracked⟩ := h.tasks k' task hk'
      refine ⟨hrunning, ?_⟩
      rw [if_neg]
      · exact htracked
      · intro heq
        rw [heq, hnone] at htracked
        cases htracked
  · intro e k' hk'
    rw [hmonitors, Table.find_insert] at hk'
    unfold Owned
    rw [htasks]
    split at hk'
    · next heq =>
      cases hk'
      subst heq
      exact ⟨⟨_, by rw [Table.find_insert, if_pos rfl], rfl⟩, hpaired, hnew⟩
    · obtain ⟨⟨task, hfind, hid⟩, he, hnot⟩ := h.monitors e k' hk'
      have hne : k' ≠ k := by
        rintro rfl
        rw [h.fresh k' (Nat.le_refl _)] at hfind
        cases hfind
      refine ⟨⟨task, ?_, hid⟩, he, fun hmem => hnot (.tail _ hmem)⟩
      rw [Table.find_insert, if_neg hne]
      exact hfind
  · intro e he
    rw [hmonitors]
    simp only [Table.find_insert]
    by_cases heq : e = record.endpointId
    · exact .inl ⟨k, if_pos heq⟩
    · rw [if_neg heq]
      refine (h.pending e he).imp id fun hmem => ?_
      exact (List.mem_cons.1 hmem).resolve_left heq

/-- The monitors of all records. -/
theorem Starting.startFrom {registry : RemoteMachineRegistry} {k : Nat}
    {todo : List RemoteMachineRecord} (h : Starting registry (todo.map (·.endpointId)) k s)
    (hnodup : (todo.map (·.endpointId)).Nodup)
    (hpaired : ∀ record ∈ todo, registry.contains record.endpointId = true) :
    Starting registry [] (k + todo.length) (s.startFrom k todo) := by
  induction todo generalizing s k with
  | nil => exact h
  | cons record todo ih =>
    obtain ⟨hnew, hrest⟩ := List.nodup_cons.1 hnodup
    have hspawn := h.spawn hnew (hpaired record (.head _))
    have hdone := ih hspawn hrest fun record' hmem => hpaired record' (.tail _ hmem)
    rw [List.length_cons, Nat.add_comm todo.length, ← Nat.add_assoc]
    exact hdone

/-- The records of a registry are under their endpoints. -/
theorem list_endpointIds (registry : RemoteMachineRegistry) :
    registry.list.map (·.endpointId) = registry.records.keys := by
  simp only [RemoteMachineRegistry.list, Table.values, Table.keys, List.map_map]
  refine List.map_congr_left fun row hrow => ?_
  exact registry.keyed row.1 row.2 (Table.mem_rows_iff.1 hrow)

/-- A started fleet monitors every machine of its registry, and nothing else. -/
theorem starting_start (registry : RemoteMachineRegistry) :
    Starting registry [] (0 + registry.list.length) (RemoteFleet.load registry).start := by
  have hkeys := list_endpointIds registry
  refine Starting.startFrom ?_ ?_ ?_
  · rw [hkeys]
    exact Starting.load registry
  · rw [hkeys]
    exact registry.records.nodup_keys
  · intro record hmem
    have hkey : record.endpointId ∈ registry.records.keys := by
      rw [← hkeys]
      exact List.mem_map_of_mem hmem
    exact Table.mem_keys_iff.1 hkey

/-- A started fleet is well formed. -/
theorem Starting.wellFormed {registry : RemoteMachineRegistry} {k : Nat}
    (h : Starting registry [] k s) : WellFormed s := by
  constructor
  · intro e k' hk'
    exact (h.monitors e k' hk').1
  · intro i record snapshot k' hi
    rw [h.imports] at hi
    cases hi
  · intro r e k' hr
    rw [h.removals] at hr
    cases hr

/-- No import is under way in a started fleet. -/
theorem Starting.importing {registry : RemoteMachineRegistry} {k : Nat}
    (h : Starting registry [] k s) (e : String) (i : Nat) : (s.slot e).importing i = .idle := by
  simp only [slot, h.imports]
  rfl

/-- No removal is under way in a started fleet. -/
theorem Starting.removing {registry : RemoteMachineRegistry} {k : Nat}
    (h : Starting registry [] k s) (e : String) (r : Nat) : (s.slot e).removing r = .idle := by
  simp only [slot, h.removals]
  rfl

/-- A started fleet shows the machines of its registry. -/
theorem Starting.shown {registry : RemoteMachineRegistry} {k : Nat}
    (h : Starting registry [] k s) (e : String) : (s.slot e).shown = registry.contains e := by
  simp [slot, h.snapshots, Table.contains, RemoteMachineRegistry.contains]

/-- Every monitor of a machine in a started fleet is running and tracked. -/
theorem Starting.task_of_known {registry : RemoteMachineRegistry} {k : Nat}
    (h : Starting registry [] k s) {e : String} {k' : Nat}
    (hknown : (s.slot e).task k' ≠ .unknown) : s.monitors.find e = some k' := by
  simp only [slot] at hknown
  cases hfind : s.tasks.find k' with
  | none =>
    rw [hfind] at hknown
    exact absurd rfl hknown
  | some task =>
    rw [hfind] at hknown
    rcases eq_or_ne task.endpointId e with hid | hid
    · exact hid ▸ (h.tasks k' task hfind).2
    · exact absurd (taskStatus_other task hid) hknown

/-- The slot of an endpoint without a record. -/
theorem Starting.absent {registry : RemoteMachineRegistry} {k : Nat}
    (h : Starting registry [] k s) {e : String} (hpaired : registry.contains e = false) :
    Slot.Inv (s.slot e) := by
  have hnone : s.monitors.find e = none := by
    cases hm : s.monitors.find e with
    | none => rfl
    | some k' =>
      have hin := (h.monitors e k' hm).2.1
      rw [hpaired] at hin
      cases hin
  have hregistry : (s.slot e).paired = false := by
    simp only [slot, h.registry]
    exact hpaired
  refine .absent hregistry (h.importing e) (h.removing e) ((h.shown e).trans hpaired) hnone ?_
  intro k' hlive
  have hknown : (s.slot e).task k' ≠ .unknown := by
    intro hunknown
    rw [hunknown] at hlive
    rcases hlive with hlive | hlive
    · cases hlive
    · cases hlive
  have htracked := h.task_of_known hknown
  rw [hnone] at htracked
  cases htracked

/-- The slot of a machine with a record. -/
theorem Starting.present {registry : RemoteMachineRegistry} {k : Nat}
    (h : Starting registry [] k s) {e : String} (hpaired : registry.contains e = true) :
    Slot.Inv (s.slot e) := by
  have hregistry : (s.slot e).paired = true := by
    simp only [slot, h.registry]
    exact hpaired
  refine .present hregistry (h.removing e) ⟨?_, ?_, ?_, .inl ((h.shown e).trans hpaired), ?_, ?_⟩
  · intro k' hk'
    obtain ⟨⟨task, hfind, hid⟩, -, -⟩ := h.monitors e k' hk'
    simp only [slot, hfind]
    rw [taskStatus_self task hid]
    exact (h.tasks k' task hfind).1
  · intro i k' hi
    rw [h.importing e i] at hi
    cases hi
  · intro i i' k' hi
    rw [h.importing e i] at hi
    cases hi
  · refine .inl ((h.pending e hpaired).resolve_right ?_)
    intro hmem
    cases hmem
  · intro k' hk'
    refine .inl (h.task_of_known ?_)
    intro hunknown
    rw [hk'] at hunknown
    cases hunknown

/-- The slots of a started fleet keep their invariant. -/
theorem Starting.inv {registry : RemoteMachineRegistry} {k : Nat} (h : Starting registry [] k s)
    (e : String) : Slot.Inv (s.slot e) := by
  cases hpaired : registry.contains e with
  | false => exact h.absent hpaired
  | true => exact h.present hpaired

/-! ## Runs -/

/-- In every run from a started fleet whose steps meet the condition, the fleet is well formed and
every slot keeps its invariant. -/
theorem run_inv {registry : RemoteMachineRegistry} {es : List Event}
    (hrun : Run (Guarded Isolated Step) (RemoteFleet.load registry).start es s) :
    WellFormed s ∧ ∀ e, Slot.Inv (s.slot e) := by
  have hstart := starting_start registry
  refine Run.invariant (I := fun s => WellFormed s ∧ ∀ e, Slot.Inv (s.slot e)) hrun
    ⟨hstart.wellFormed, hstart.inv⟩ ?_
  rintro s ev t ⟨hwf, hslots⟩ ⟨hg, hstep⟩
  exact ⟨hwf.step hstep, fun e => (hslots e).step (hstep.slot hwf hg e)⟩

/-- Where nothing is in flight, nothing is in flight on any machine. -/
theorem Quiescent.slot (h : Quiescent s) (e : String) : Slot.Quiet (s.slot e) := by
  refine ⟨fun i => ?_, fun r => ?_, fun k => ?_⟩
  · simp only [RemoteFleet.slot, h.imports i]
    rfl
  · simp only [RemoteFleet.slot, h.removals r]
    rfl
  · intro haborted
    simp only [RemoteFleet.slot] at haborted
    cases hfind : s.tasks.find k with
    | none =>
      rw [hfind] at haborted
      cases haborted
    | some task =>
      rw [hfind] at haborted
      have hstopped := h.tasks k task hfind
      unfold taskStatus Monitor.Task.status at haborted
      simp only at haborted
      split at haborted
      · split at haborted
        · cases haborted
        · next hphase =>
          split at haborted
          · next habort => exact hphase (hstopped habort)
          · cases haborted
      · cases haborted

/-- A monitor of the machine that is tracked and running, in the fleet and in the slot. -/
theorem WellFormed.monitored_iff (hwf : WellFormed s) (hquiet : Quiescent s) (e : String) :
    (∃ k task, s.monitors.find e = some k ∧ s.tasks.find k = some task ∧
        task.phase ≠ .stopped ∧ task.aborted = false) ↔
      ∃ k, (s.slot e).tracked = some k ∧ (s.slot e).task k = .running := by
  constructor
  · rintro ⟨k, task, hk, hfind, hphase, haborted⟩
    obtain ⟨task', hfind', hid⟩ := hwf.monitors e k hk
    rw [hfind] at hfind'
    cases hfind'
    refine ⟨k, hk, ?_⟩
    simp only [slot, hfind]
    rw [taskStatus_self task hid, Monitor.Task.status, if_neg hphase, haborted]
    rfl
  · rintro ⟨k, hk, hrunning⟩
    obtain ⟨task, hfind, hid⟩ := hwf.monitors e k hk
    simp only [slot, hfind] at hrunning
    rw [taskStatus_self task hid] at hrunning
    refine ⟨k, task, hk, hfind, ?_, ?_⟩
    · intro hphase
      rw [Monitor.Task.status, if_pos hphase] at hrunning
      cases hrunning
    · cases haborted : task.aborted with
      | false => rfl
      | true =>
        have hphase := hquiet.tasks k task hfind haborted
        rw [Monitor.Task.status, if_pos hphase] at hrunning
        cases hrunning

/-! ## The result -/

/-- In every run from a started fleet whose steps meet the condition, and in every state of it where
nothing is in flight: a machine has a snapshot exactly when it has a record, and a monitor that is
tracked and running exactly when it has a record. -/
theorem tables_agree (registry : RemoteMachineRegistry) (es : List Event) (s : RemoteFleet)
    (hrun : Run (Guarded Isolated Step) (RemoteFleet.load registry).start es s)
    (hquiet : Quiescent s) (e : String) :
    (s.snapshots.contains e = true ↔ s.registry.contains e = true) ∧
      ((∃ k task, s.monitors.find e = some k ∧ s.tasks.find k = some task ∧
          task.phase ≠ .stopped ∧ task.aborted = false) ↔ s.registry.contains e = true) := by
  obtain ⟨hwf, hslots⟩ := run_inv hrun
  obtain ⟨hshown, hmonitored⟩ := (hslots e).agree (hquiet.slot e)
  exact ⟨hshown, (hwf.monitored_iff hquiet e).trans hmonitored⟩

/-! ## One import -/

/-- The bundle of a machine. -/
def machineBundle : PairingBundle where
  formatVersion := 1
  nodeId := ⟨0⟩
  endpointId := "ae58ff8833241ac82d6ff7611046ed67"
  directAddresses := [⟨.v4 0x7f000001, 4433, 0, 0⟩]
  relayUrls := []
  oneTimeSecret := "AAAAAAAAAAAAAAAAAAAAAAAAAAAAAAAAAAAAAAAAAAA"
  expiresAtMs := 300000

/-- What the machine answers. -/
def machineAnswer : PairingAnswer where
  remoteId := machineBundle.endpointId
  paired := some ⟨true, machineBundle.nodeId.toString, machineBundle.endpointId⟩
  node := { (default : NodeInfo) with nodeId := machineBundle.nodeId }
  health := .error (.timeout "health")
  path := .error (.timeout "connection path")
  observed := []
  seenAtMs := 0
  pairedAtMs := 0

/-- The record of the machine. -/
def machineRecord : RemoteMachineRecord := importedRecord machineBundle machineAnswer

/-- The snapshot of the machine. -/
def machineSnapshot : RemoteMachineSnapshot := importedSnapshot machineBundle machineAnswer

/-- The machine passes the checks of `import_pairing`. -/
theorem checkAnswer_machine : checkAnswer machineBundle machineAnswer = .ok () := by
  simp [checkAnswer, machineAnswer]

/-- The steps of one import. -/
def importEvents : List Event :=
  [.importCheck 0 machineBundle.endpointId, .importInsert 0 machineBundle.endpointId,
    .importStore 0, .importSpawn 0 0, .importRegister 0]

/-- The fleet after one import. -/
def imported : RemoteFleet where
  registry := RemoteMachineRegistry.empty.store machineRecord
  snapshots := Table.empty.insert machineBundle.endpointId machineSnapshot
  monitors := Table.empty.insert machineBundle.endpointId 0
  tasks := Table.empty.insert 0 ⟨machineRecord, .checking, false⟩
  imports := .empty
  removals := .empty

/-- The monitor looks at the registry and fails to connect. -/
def unreachedEvents : List Event :=
  [.task 0 .check, .task 0 (.fail (.timeout "connect"))]

/-- The machine is removed, with its monitor. -/
def removeEvents : List Event :=
  [.removeErase 0 machineBundle.endpointId, .removeTake 0, .taskStop 0, .removeJoin 0,
    .removeDrop 0]

/-- The machine is imported again. -/
def reimportEvents : List Event :=
  [.importCheck 1 machineBundle.endpointId, .importInsert 1 machineBundle.endpointId,
    .importStore 1, .importSpawn 1 1, .importRegister 1]

/-- The fleet after all of this: the first monitor has stopped. -/
def reimported : RemoteFleet where
  registry := RemoteMachineRegistry.empty.store machineRecord
  snapshots := Table.empty.insert machineBundle.endpointId machineSnapshot
  monitors := Table.empty.insert machineBundle.endpointId 1
  tasks := (Table.empty.insert 0 ⟨machineRecord, .stopped, true⟩).insert 1
    ⟨machineRecord, .checking, false⟩
  imports := .empty
  removals := .empty

/-- The first monitor is not aborted when the machine is removed. -/
theorem isolated_remove {error : RemoteFleetError} {s : RemoteFleet} (himports : s.imports = .empty)
    (htasks : s.tasks = Table.empty.insert 0 ⟨machineRecord, .failed error, false⟩) :
    Isolated s (.removeErase 0 machineBundle.endpointId) := by
  refine ⟨fun i stage hi => ?_, fun k task hk _ => ?_⟩
  · rw [himports] at hi
    cases hi
  · rw [htasks, Table.find_insert] at hk
    split at hk
    · cases hk
      exact nofun
    · cases hk

/-- After an import, a removal and another import the machine has a record, a snapshot and a
monitor. -/
theorem tables_agree_imported :
    Run (Guarded Isolated Step) (RemoteFleet.load .empty).start
        (importEvents ++ unreachedEvents ++ removeEvents ++ reimportEvents) reimported ∧
      reimported.snapshots.contains machineBundle.endpointId = true := by
  have hrun : Run (Guarded Isolated Step) (RemoteFleet.load .empty).start
      (importEvents ++ unreachedEvents ++ removeEvents ++ reimportEvents) reimported := by
    refine run_cons_iff.2
      ⟨_, ⟨trivial, @Step.importCheck _ 0 machineBundle 0 (.ok ()) rfl rfl rfl⟩, ?_⟩
    refine run_cons_iff.2 ⟨_, ⟨nofun, @Step.importInsert _ 0 machineBundle machineAnswer (.ok ()) _
      rfl checkAnswer_machine rfl⟩, ?_⟩
    refine run_cons_iff.2 ⟨_, ⟨trivial, .importStore rfl⟩, ?_⟩
    refine run_cons_iff.2 ⟨_, ⟨trivial, .importSpawn rfl rfl⟩, ?_⟩
    refine run_cons_iff.2 ⟨_, ⟨trivial, .importRegister rfl⟩, ?_⟩
    refine run_cons_iff.2 ⟨_, ⟨trivial, .task rfl (.checkPaired rfl rfl)⟩, ?_⟩
    refine run_cons_iff.2 ⟨_, ⟨trivial, .task rfl (.fail _ (.inl rfl))⟩, ?_⟩
    refine run_cons_iff.2 ⟨_, ⟨isolated_remove rfl rfl,
      @Step.removeErase _ 0 machineBundle.endpointId (.ok ()) _ rfl rfl⟩, ?_⟩
    refine run_cons_iff.2 ⟨_, ⟨trivial, .removeTake rfl rfl⟩, ?_⟩
    refine run_cons_iff.2 ⟨_, ⟨trivial, .taskStop rfl rfl nofun⟩, ?_⟩
    refine run_cons_iff.2 ⟨_, ⟨trivial, .removeJoin rfl rfl rfl⟩, ?_⟩
    refine run_cons_iff.2 ⟨_, ⟨trivial, .removeDrop rfl⟩, ?_⟩
    refine run_cons_iff.2
      ⟨_, ⟨trivial, @Step.importCheck _ 1 machineBundle 0 (.ok ()) rfl rfl rfl⟩, ?_⟩
    refine run_cons_iff.2 ⟨_, ⟨nofun, @Step.importInsert _ 1 machineBundle machineAnswer (.ok ()) _
      rfl checkAnswer_machine rfl⟩, ?_⟩
    refine run_cons_iff.2 ⟨_, ⟨trivial, .importStore rfl⟩, ?_⟩
    refine run_cons_iff.2 ⟨_, ⟨trivial, .importSpawn rfl rfl⟩, ?_⟩
    exact run_cons_iff.2 ⟨_, ⟨trivial, .importRegister rfl⟩, .nil⟩
  have hquiet : Quiescent reimported := by
    refine ⟨fun i => rfl, fun r => rfl, ?_⟩
    intro k task hk haborted
    simp only [reimported, Table.find_insert] at hk
    split at hk
    · cases hk
      cases haborted
    · split at hk
      · cases hk
        rfl
      · cases hk
  exact ⟨hrun, (tables_agree .empty _ reimported hrun hquiet _).1.2 (by decide)⟩

/-! ## A removal inside an import -/

/-- The steps of an import and of a removal that falls between its registry insert and its snapshot
insert. -/
def strandEvents : List Event :=
  [.importCheck 0 machineBundle.endpointId, .importInsert 0 machineBundle.endpointId,
    .removeErase 0 machineBundle.endpointId, .removeTake 0, .removeDrop 0,
    .importStore 0, .importSpawn 0 0, .importRegister 0, .taskStop 0]

/-- The fleet after `strandEvents`: no record and no monitor, but a snapshot. -/
def stranded : RemoteFleet where
  registry := .empty
  snapshots := Table.empty.insert machineBundle.endpointId machineSnapshot
  monitors := .empty
  tasks := Table.empty.insert 0 ⟨machineRecord, .stopped, true⟩
  imports := .empty
  removals := .empty

/-- A machine is removed while its import is between the registry and the snapshots. The removal
drops no snapshot, the import stores one, and the second look of `spawn_monitor` stops the monitor
only: nothing is in flight, and the machine has a snapshot and no record. -/
theorem snapshot_without_record :
    ¬ ∀ (registry : RemoteMachineRegistry) (es : List Event) (s : RemoteFleet),
      Run Step (RemoteFleet.load registry).start es s → Quiescent s → ∀ e,
      (s.snapshots.contains e = true ↔ s.registry.contains e = true) ∧
        ((∃ k task, s.monitors.find e = some k ∧ s.tasks.find k = some task ∧
            task.phase ≠ .stopped ∧ task.aborted = false) ↔ s.registry.contains e = true) := by
  intro h
  have hrun : Run Step (RemoteFleet.load .empty).start strandEvents stranded := by
    refine run_cons_iff.2 ⟨_, @Step.importCheck _ 0 machineBundle 0 (.ok ()) rfl rfl rfl, ?_⟩
    refine run_cons_iff.2 ⟨_, @Step.importInsert _ 0 machineBundle machineAnswer (.ok ()) _ rfl
      checkAnswer_machine rfl, ?_⟩
    refine run_cons_iff.2 ⟨_, @Step.removeErase _ 0 machineBundle.endpointId (.ok ()) _ rfl rfl, ?_⟩
    refine run_cons_iff.2 ⟨_, .removeTakeNone rfl rfl, ?_⟩
    refine run_cons_iff.2 ⟨_, .removeDrop rfl, ?_⟩
    refine run_cons_iff.2 ⟨_, .importStore rfl, ?_⟩
    refine run_cons_iff.2 ⟨_, .importSpawn rfl rfl, ?_⟩
    refine run_cons_iff.2 ⟨_, .importRegister rfl, ?_⟩
    exact run_cons_iff.2 ⟨_, .taskStop rfl rfl nofun, .nil⟩
  have hquiet : Quiescent stranded := by
    refine ⟨fun i => rfl, fun r => rfl, ?_⟩
    intro k task hk haborted
    simp only [stranded, Table.find_insert] at hk
    split at hk
    · cases hk
      rfl
    · cases hk
  have hagree := (h .empty strandEvents stranded hrun hquiet machineBundle.endpointId).1
  exact absurd (hagree.1 (by decide)) (by decide)

end RemoteFleet

end Rackio
