import Rackio.Remote.Agreement

/-!
# What a fleet holds

A record is in the registry, in the hands of a monitor and of an import; a snapshot is in the table,
and in the hands of a monitor that is about to persist it and of an import. `Holds P Q H` says `P`
of every record, `Q` of every snapshot in the table and `H` of every snapshot in hand.

`Keeps` is what such properties need of the parts of the program that only move a record or a
snapshot, and `Admits` what they need of what a step brings in. `Holds.step` keeps them over a step,
and `holds_start` has them at the start.
-/

namespace Rackio

open Lts

/-- The registry with a record changed holds the same as before, and what the change makes of the
record. -/
theorem RemoteMachineRegistry.forall_update {P : RemoteMachineRecord → Prop}
    {registry registry' : RemoteMachineRegistry} {persist : Except RemoteFleetError Unit}
    {endpointId : String} {change : RemoteMachineRecord → RemoteMachineRecord}
    (h : ∀ e record, registry.records.find e = some record → P record)
    (hchange : ∀ record, registry.records.find endpointId = some record →
      P { change record with endpointId := record.endpointId })
    (hupdate : registry.update persist endpointId change = .ok registry') :
    ∀ e record, registry'.records.find e = some record → P record := by
  obtain ⟨record, hfind, -, rfl⟩ := update_eq_ok hupdate
  exact Table.forall_insert (P := fun _ record => P record) h (hchange record hfind)

/-- The registry without a record holds nothing else. -/
theorem RemoteMachineRegistry.forall_remove {P : RemoteMachineRecord → Prop}
    {registry registry' : RemoteMachineRegistry} {persist : Except RemoteFleetError Unit}
    {endpointId : String} {removed : Bool}
    (h : ∀ e record, registry.records.find e = some record → P record)
    (hremove : registry.remove persist endpointId = .ok (removed, registry')) :
    ∀ e record, registry'.records.find e = some record → P record := by
  obtain ⟨-, rfl⟩ := remove_eq_ok hremove
  split
  · exact Table.forall_erase (P := fun _ record => P record) h endpointId
  · exact h

namespace RemoteFleet

/-! ## Tasks that are aborted -/

section
variable {s : RemoteFleet} {P : Nat → Monitor.Task → Prop}

/-- What holds of every task whether it is aborted or not holds after an abort. -/
theorem forall_abortTask (hP : ∀ k task, P k task → P k { task with aborted := true })
    {tasks : Table Nat Monitor.Task} (h : ∀ k task, tasks.find k = some task → P k task)
    (k₀ : Nat) :
    ∀ k task, (abortTask tasks k₀).find k = some task → P k task := by
  unfold abortTask
  cases hfind : tasks.find k₀ with
  | none => exact h
  | some task => exact Table.forall_insert h (hP k₀ task (h k₀ task hfind))

/-- The registration of a handle only aborts tasks. -/
theorem forall_registerTask (hP : ∀ k task, P k task → P k { task with aborted := true })
    (h : ∀ k task, s.tasks.find k = some task → P k task) (endpointId : String) (k₀ : Nat) :
    ∀ k task, (s.registerTask endpointId k₀).tasks.find k = some task → P k task := by
  have hhandle : ∀ k task, (abortHandle s.tasks (s.monitors.find endpointId)).find k = some task →
      P k task := by
    cases s.monitors.find endpointId with
    | none => exact h
    | some previous => exact forall_abortTask hP h previous
  unfold registerTask
  dsimp only
  split
  · exact hhandle
  · exact forall_abortTask hP hhandle k₀

end

/-! ## Records and snapshots -/

section
variable (P : RemoteMachineRecord → Prop) (Q H : String → RemoteMachineSnapshot → Prop)

/-- What a monitor holds. -/
structure TaskHolds (task : Monitor.Task) : Prop where
  record : P task.record
  persisting : ∀ snapshot, task.phase = .persisting snapshot → H task.endpointId snapshot

/-- What an import holds. -/
def StageHolds : ImportStage → Prop
  | .dialing _ => True
  | .inserted record snapshot | .stored record snapshot | .spawned record snapshot _ =>
    P record ∧ H record.endpointId snapshot

/-- `P` of every record, `Q` of every snapshot in the table, `H` of every snapshot in hand. -/
structure Holds (s : RemoteFleet) : Prop where
  registry : ∀ e record, s.registry.records.find e = some record → P record
  snapshots : ∀ e snapshot, s.snapshots.find e = some snapshot → Q e snapshot
  tasks : ∀ k task, s.tasks.find k = some task → TaskHolds P H task
  imports : ∀ i stage, s.imports.find i = some stage → StageHolds P H stage

/-- The properties survive where a record or a snapshot is only moved. -/
structure Keeps : Prop where
  offline : ∀ record, P record → Q record.endpointId (.offline record)
  held : ∀ e snapshot, H e snapshot → Q e snapshot
  persisted : ∀ record snapshot, P record → H record.endpointId snapshot →
    P { record with lastSnapshot := some (.from snapshot) }
  refreshed : ∀ e snapshot health path rttMs, Q e snapshot →
    Q e (Monitor.refreshed snapshot health path rttMs)
  errored : ∀ e snapshot record error nowMs, Q e snapshot →
    Q e (Monitor.errored snapshot record error nowMs)

/-- The properties hold of what a step of a monitor of `e` brings in. -/
def TaskAdmits (e : String) : Monitor.Event → Prop
  | .connect observed _ => ∀ record stored, P record → P stored →
    P { stored with directAddresses := mergedDirectAddresses observed record.directAddresses }
  | .establish node health path rttMs nowMs => ∀ snapshot, Q e snapshot →
    Q e (Monitor.established snapshot node health path rttMs nowMs)
  | .sample sample _ nowMs => ∀ snapshot, Q e snapshot →
    H e (Monitor.sampled snapshot sample nowMs)
  | .heartbeat nowMs => ∀ snapshot, Q e snapshot → Q e { snapshot with lastSeenMs := some nowMs }
  | _ => True

/-- The properties hold of what a step brings in. -/
def Admits (s : RemoteFleet) (ev : Event) (t : RemoteFleet) : Prop :=
  match ev with
  | .importInsert i _ => ∀ record snapshot, t.imports.find i = some (.inserted record snapshot) →
    P record ∧ H record.endpointId snapshot
  | .task k event => ∀ task, s.tasks.find k = some task → TaskAdmits P Q H task.endpointId event
  | _ => True

end

section
variable {P : RemoteMachineRecord → Prop} {Q H : String → RemoteMachineSnapshot → Prop}
  {s t : RemoteFleet} {ev : Event}

/-- A task in a phase without a snapshot to persist holds its record. -/
theorem taskHolds_of_record {record : RemoteMachineRecord} (h : P record) {phase : Monitor.Phase}
    (hphase : ∀ snapshot, phase ≠ .persisting snapshot) (aborted : Bool) :
    TaskHolds P H ⟨record, phase, aborted⟩ :=
  ⟨h, fun snapshot heq => absurd heq (hphase snapshot)⟩

/-- An aborted task holds what it held. -/
theorem taskHolds_aborted (_ : Nat) (task : Monitor.Task) (h : TaskHolds P H task) :
    TaskHolds P H { task with aborted := true } := ⟨h.record, h.persisting⟩

/-- What is held of weaker properties. -/
theorem Holds.mono {P' : RemoteMachineRecord → Prop} {Q' H' : String → RemoteMachineSnapshot → Prop}
    (h : Holds P Q H s) (hP : ∀ record, P record → P' record)
    (hQ : ∀ e snapshot, Q e snapshot → Q' e snapshot)
    (hH : ∀ e snapshot, H e snapshot → H' e snapshot) : Holds P' Q' H' s where
  registry e record hfind := hP record (h.registry e record hfind)
  snapshots e snapshot hfind := hQ e snapshot (h.snapshots e snapshot hfind)
  tasks k task hk :=
    ⟨hP _ (h.tasks k task hk).record, fun snapshot hphase =>
      hH _ snapshot ((h.tasks k task hk).persisting snapshot hphase)⟩
  imports i stage hi := by
    have hstage := h.imports i stage hi
    cases stage with
    | dialing bundle => trivial
    | _ => exact ⟨hP _ hstage.1, hH _ _ hstage.2⟩

/-- What the three tables of a monitor hold. -/
structure ViewHolds (P : RemoteMachineRecord → Prop) (Q H : String → RemoteMachineSnapshot → Prop)
    (v : Monitor.View) : Prop where
  registry : ∀ e record, v.registry.records.find e = some record → P record
  snapshots : ∀ e snapshot, v.snapshots.find e = some snapshot → Q e snapshot
  task : TaskHolds P H v.task

/-- The entry of a machine, also one that was just made. -/
theorem ViewHolds.entry {v : Monitor.View} (h : ViewHolds P Q H v) (hkeeps : Keeps P Q H) :
    Q v.task.endpointId v.entry := by
  unfold Monitor.View.entry
  cases hfind : v.snapshots.find v.task.endpointId with
  | none => exact hkeeps.offline _ h.task.record
  | some snapshot => exact h.snapshots _ _ hfind

/-- A write of a snapshot that the task does not keep. -/
theorem ViewHolds.write {v : Monitor.View} (h : ViewHolds P Q H v)
    {snapshot : RemoteMachineSnapshot} (hsnapshot : Q v.task.endpointId snapshot)
    {phase : Monitor.Phase} (hphase : ∀ snapshot, phase ≠ .persisting snapshot) :
    ViewHolds P Q H (v.write snapshot phase) where
  registry := h.registry
  snapshots := Table.forall_insert h.snapshots hsnapshot
  task := taskHolds_of_record h.task.record hphase _

/-- Refreshing addresses keeps what is held. -/
theorem forall_refreshDirectAddresses {observed : List SocketAddr}
    {persist : Except RemoteFleetError Unit} {record record' : RemoteMachineRecord}
    {registry registry' : RemoteMachineRegistry}
    (hadmits : ∀ record stored, P record → P stored →
      P { stored with directAddresses := mergedDirectAddresses observed record.directAddresses })
    (hregistry : ∀ e record, registry.records.find e = some record → P record) (hrecord : P record)
    (h : refreshDirectAddresses observed persist record registry = (record', registry')) :
    P record' ∧ ∀ e record, registry'.records.find e = some record → P record := by
  rcases Monitor.refreshDirectAddresses_cases h with ⟨rfl, rfl⟩ | ⟨rfl, hupdate⟩
  · exact ⟨hrecord, hregistry⟩
  · refine ⟨hadmits record record hrecord hrecord, ?_⟩
    refine RemoteMachineRegistry.forall_update hregistry (fun stored hstored => ?_) hupdate
    exact hadmits record stored hrecord (hregistry _ _ hstored)

/-- A step of a monitor keeps what is held. -/
theorem ViewHolds.step {v v' : Monitor.View} {event : Monitor.Event} (hkeeps : Keeps P Q H)
    (h : ViewHolds P Q H v) (hadmits : TaskAdmits P Q H v.task.endpointId event)
    (hstep : Monitor.Step v event v') : ViewHolds P Q H v' := by
  have hrecord := h.task.record
  have hentry := h.entry hkeeps
  cases hstep with
  | checkGone hphase hgone =>
    exact ⟨h.registry, h.snapshots, taskHolds_of_record hrecord (by rintro _ ⟨⟩) _⟩
  | checkPaired hphase hpaired =>
    exact ⟨h.registry, h.snapshots, taskHolds_of_record hrecord (by rintro _ ⟨⟩) _⟩
  | @connect observed persist record registry hphase hrefresh =>
    obtain ⟨hrecord', hregistry⟩ :=
      forall_refreshDirectAddresses hadmits h.registry hrecord hrefresh
    exact ⟨hregistry, h.snapshots, taskHolds_of_record hrecord' (by rintro _ ⟨⟩) _⟩
  | establish node health path rttMs nowMs hphase =>
    exact h.write (hadmits _ hentry) (by rintro _ ⟨⟩)
  | sample sample nowMs hphase =>
    exact h.write (hkeeps.held _ _ (hadmits _ hentry)) (by rintro _ ⟨⟩)
  | samplePersist sample nowMs hphase =>
    have hheld := hadmits _ hentry
    refine ⟨h.registry, Table.forall_insert h.snapshots (hkeeps.held _ _ hheld), hrecord, ?_⟩
    rintro _ ⟨⟩
    exact hheld
  | @persist snapshot registry outcome hphase hupdate =>
    refine ⟨?_, h.snapshots, taskHolds_of_record hrecord (by rintro _ ⟨⟩) _⟩
    refine RemoteMachineRegistry.forall_update h.registry (fun stored hstored => ?_) hupdate
    have hkey : stored.endpointId = v.task.endpointId := v.registry.keyed _ stored hstored
    refine hkeeps.persisted stored snapshot (h.registry _ stored hstored) ?_
    rw [hkey]
    exact h.task.persisting snapshot hphase
  | persistFailed outcome hphase hupdate =>
    exact ⟨h.registry, h.snapshots, taskHolds_of_record hrecord (by rintro _ ⟨⟩) _⟩
  | refresh health path rttMs hphase =>
    exact h.write (hkeeps.refreshed _ _ _ _ _ hentry) (by rintro _ ⟨⟩)
  | @heartbeat snapshot nowMs hphase hfind =>
    exact h.write (hadmits _ (h.snapshots _ _ hfind)) (by rintro _ ⟨⟩)
  | heartbeatAbsent nowMs hphase hfind => exact h
  | fail error hphase =>
    exact ⟨h.registry, h.snapshots, taskHolds_of_record hrecord (by rintro _ ⟨⟩) _⟩
  | updateError nowMs hphase =>
    exact h.write (hkeeps.errored _ _ _ _ _ hentry) (by rintro _ ⟨⟩)

/-- Every step keeps what is held. -/
theorem Holds.step (hkeeps : Keeps P Q H) (h : Holds P Q H s) (hadmits : Admits P Q H s ev t)
    (hstep : Step s ev t) : Holds P Q H t := by
  cases hstep with
  | importCheck hi hvalid hnew =>
    exact ⟨h.registry, h.snapshots, h.tasks, Table.forall_insert h.imports trivial⟩
  | importFail hi => exact ⟨h.registry, h.snapshots, h.tasks, Table.forall_erase h.imports _⟩
  | @importInsert i bundle answer persist registry hi hanswer hinsert =>
    obtain ⟨hrecord, hsnapshot⟩ := hadmits _ _ (by rw [Table.find_insert, if_pos rfl])
    rw [RemoteMachineRegistry.insert_eq_ok hinsert]
    exact ⟨Table.forall_insert (P := fun _ record => P record) h.registry hrecord, h.snapshots,
      h.tasks, Table.forall_insert h.imports ⟨hrecord, hsnapshot⟩⟩
  | @importStore i record snapshot hi =>
    have hstage : P record ∧ H record.endpointId snapshot := (h.imports i _ hi :)
    exact ⟨h.registry, Table.forall_insert h.snapshots (hkeeps.held _ _ hstage.2), h.tasks,
      Table.forall_insert h.imports hstage⟩
  | @importSpawn i k record snapshot hi hk =>
    have hstage : P record ∧ H record.endpointId snapshot := (h.imports i _ hi :)
    have htask : TaskHolds P H ⟨record, .checking, false⟩ :=
      taskHolds_of_record hstage.1 (by rintro _ ⟨⟩) false
    exact ⟨h.registry, h.snapshots, Table.forall_insert h.tasks htask,
      Table.forall_insert h.imports hstage⟩
  | importRegister hi =>
    exact ⟨h.registry, h.snapshots, forall_registerTask taskHolds_aborted h.tasks _ _,
      Table.forall_erase h.imports _⟩
  | removeErase hr hremove =>
    exact ⟨RemoteMachineRegistry.forall_remove h.registry hremove, h.snapshots, h.tasks, h.imports⟩
  | removeTake hr hk =>
    exact ⟨h.registry, h.snapshots, forall_abortTask taskHolds_aborted h.tasks _, h.imports⟩
  | removeDrop hr => exact ⟨h.registry, Table.forall_erase h.snapshots _, h.tasks, h.imports⟩
  | @task k task event v hk hmonitor =>
    have hview : ViewHolds P Q H ⟨s.registry, s.snapshots, task⟩ :=
      ⟨h.registry, h.snapshots, h.tasks k task hk⟩
    obtain ⟨hregistry, hsnapshots, htask⟩ := hview.step hkeeps (hadmits task hk) hmonitor
    exact ⟨hregistry, hsnapshots, Table.forall_insert h.tasks htask, h.imports⟩
  | @taskStop k task hk haborted hrunning =>
    have htask : TaskHolds P H { task with phase := .stopped } :=
      taskHolds_of_record (h.tasks k task hk).record (by rintro _ ⟨⟩) _
    exact ⟨h.registry, h.snapshots, Table.forall_insert h.tasks htask, h.imports⟩
  | _ => exact ⟨h.registry, h.snapshots, h.tasks, h.imports⟩

/-- A started fleet holds what its registry holds. -/
theorem Holds.startFrom {k : Nat} {records : List RemoteMachineRecord} (h : Holds P Q H s)
    (hrecords : ∀ record ∈ records, P record) : Holds P Q H (s.startFrom k records) := by
  induction records generalizing s k with
  | nil => exact h
  | cons record records ih =>
    refine ih ⟨h.registry, h.snapshots, ?_, h.imports⟩ fun record' hmem =>
      hrecords record' (.tail _ hmem)
    refine forall_registerTask taskHolds_aborted ?_ _ _
    have htask : TaskHolds P H ⟨record, .checking, false⟩ :=
      taskHolds_of_record (hrecords record (.head _)) (by rintro _ ⟨⟩) false
    exact Table.forall_insert h.tasks htask

/-- A fleet that was started from a registry holds what the registry holds. -/
theorem holds_start (hkeeps : Keeps P Q H) {registry : RemoteMachineRegistry}
    (h : ∀ e record, registry.records.find e = some record → P record) :
    Holds P Q H (RemoteFleet.load registry).start := by
  refine Holds.startFrom ⟨h, ?_, ?_, ?_⟩ fun record hmem => ?_
  · intro e snapshot hfind
    simp only [RemoteFleet.load, Table.find_map, Option.map_eq_some_iff] at hfind
    obtain ⟨record, hrecord, rfl⟩ := hfind
    have hkey := registry.keyed e record hrecord
    rw [← hkey]
    exact hkeeps.offline record (h e record hrecord)
  · intro k task hk
    cases hk
  · intro i stage hi
    cases hi
  obtain ⟨row, hrow, rfl⟩ := List.mem_map.1 hmem
  exact h row.1 row.2 (Table.mem_rows_iff.1 hrow)

end

end RemoteFleet

end Rackio
