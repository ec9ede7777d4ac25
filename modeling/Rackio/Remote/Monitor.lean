import Rackio.Remote.Registry

/-!
# The monitor of one machine

The task `monitor_machine` of `apps/agent/src/remote/monitor.rs`: it checks that its machine is
still paired, dials it, watches its stream and records what it sees, and starts over when a session
fails.
What the peer answers and the clock say is the label of a step, and so is the outcome of a write to
disk.

Every snapshot a session writes goes through `entry(..).or_insert_with(offline)`, so a monitor may
create the snapshot of its machine at any time; only a heartbeat leaves an absent one absent.
`Monitor.Step.effect` is the summary the fleet works with.
-/

namespace Rackio

/-- The source's `MAX_RECORD_DIRECT_ADDRESSES`. -/
def maxRecordDirectAddresses : Nat := 8

/-- The source's `merged_direct_addresses`. -/
def mergedDirectAddresses (observed known : List SocketAddr) : List SocketAddr :=
  ((observed ++ known).foldl
    (fun merged address => if address ∈ merged then merged else merged ++ [address]) []).take
    maxRecordDirectAddresses

/-- The source's `refresh_direct_addresses`, with the outcome of persisting. -/
def refreshDirectAddresses (observed : List SocketAddr) (persist : Except RemoteFleetError Unit)
    (record : RemoteMachineRecord) (registry : RemoteMachineRegistry) :
    RemoteMachineRecord × RemoteMachineRegistry :=
  if observed = [] then (record, registry)
  else
    let merged := mergedDirectAddresses observed record.directAddresses
    if merged = record.directAddresses then (record, registry)
    else match registry.updateAddresses persist record.endpointId merged with
      | .ok registry => ({ record with directAddresses := merged }, registry)
      | .error _ => (record, registry)

/-- The source's `apply_connection_path`. -/
def applyConnectionPath (snapshot : RemoteMachineSnapshot) (path : ConnectionPath)
    (rttMs : UInt64) : RemoteMachineSnapshot :=
  { snapshot with path := path, rttMs := some rttMs }

/-- The source's `unreachable_hint`. -/
def unreachableHint (error : RemoteFleetError) (relayConfigured : Bool) : Option String :=
  match error with
  | .timeout "connect" | .transport (.connect _) =>
    if relayConfigured then
      some ("no known address answered and the configured relay did not carry the session; " ++
        "check that the relay is running and reachable, or if this machine restarted on a " ++
        "new port, give it a fixed one with `rackio listen-port set <PORT>` and restart it")
    else
      some ("no known address answered; if this machine restarted on a new port, " ++
        "give it a fixed one with `rackio listen-port set <PORT>` and restart it, " ++
        "or pair again")
  | _ => none

/-- The state `update_error` gives a snapshot. -/
def errorState (error : RemoteFleetError) (snapshot : RemoteMachineSnapshot) (nowMs : Int) :
    NodeState :=
  match error with
  | .transport (.remote code _) =>
    if code = "auth_error" then .authError
    else if code = "incompatible" then .incompatible
    else snapshot.stateAt nowMs
  | .identityMismatch => .authError
  | _ => snapshot.stateAt nowMs

namespace Monitor

/-- Where the loop of `monitor_machine` is. -/
inductive Phase
  /-- At the top of the loop, or asleep before it. -/
  | checking
  | dialing
  | connected
  | streaming
  /-- A sample was recorded, and its snapshot is to be persisted. -/
  | persisting (snapshot : RemoteMachineSnapshot)
  /-- The session failed. -/
  | failed (error : RemoteFleetError)
  /-- The task has returned or was cancelled. -/
  | stopped
  deriving DecidableEq

/-- A spawned monitor. -/
structure Task where
  record : RemoteMachineRecord
  phase : Phase
  /-- Its handle was aborted; it ends at its next await. -/
  aborted : Bool
  deriving DecidableEq

/-- What a monitor reads and writes. -/
structure View where
  registry : RemoteMachineRegistry
  snapshots : Table String RemoteMachineSnapshot
  task : Task

/-- What happens to a monitor. -/
inductive Event
  | check
  | connect (observed : List SocketAddr) (persist : Except RemoteFleetError Unit)
  | establish (node : NodeInfo) (health : HealthSnapshot) (path : ConnectionPath) (rttMs : UInt64)
    (nowMs : Int)
  | sample (sample : MetricSample) (shouldPersist : Bool) (nowMs : Int)
  | persist (outcome : Except RemoteFleetError Unit)
  | refresh (health : HealthSnapshot) (path : ConnectionPath) (rttMs : UInt64)
  | heartbeat (nowMs : Int)
  | fail (error : RemoteFleetError)
  | updateError (nowMs : Int)

/-- The endpoint a task monitors. -/
def Task.endpointId (task : Task) : String := task.record.endpointId

/-- The source's `entries.entry(..).or_insert_with(|| offline(record))`. -/
def View.entry (v : View) : RemoteMachineSnapshot :=
  (v.snapshots.find v.task.endpointId).getD (.offline v.task.record)

/-- The view with the entry of the machine replaced and the task in a new phase. -/
def View.write (v : View) (snapshot : RemoteMachineSnapshot) (phase : Phase) : View :=
  { v with
    snapshots := v.snapshots.insert v.task.endpointId snapshot
    task := { v.task with phase := phase } }

/-- The snapshot a session starts with. -/
def established (snapshot : RemoteMachineSnapshot) (node : NodeInfo) (health : HealthSnapshot)
    (path : ConnectionPath) (rttMs : UInt64) (nowMs : Int) : RemoteMachineSnapshot :=
  { applyConnectionPath
      { snapshot with node := node, state := health.state, details := health.details }
      path rttMs with
    lastSeenMs := some nowMs }

/-- The snapshot after a sample. -/
def sampled (snapshot : RemoteMachineSnapshot) (sample : MetricSample) (nowMs : Int) :
    RemoteMachineSnapshot :=
  { snapshot with
    trend := snapshot.trend.push { TrendSample.from sample with rttMs := snapshot.rttMs }
    latest := some sample
    lastSeenMs := some nowMs }

/-- The snapshot after `refresh_remote_state`. -/
def refreshed (snapshot : RemoteMachineSnapshot) (health : HealthSnapshot) (path : ConnectionPath)
    (rttMs : UInt64) : RemoteMachineSnapshot :=
  applyConnectionPath { snapshot with state := health.state, details := health.details } path rttMs

/-- The snapshot after `update_error`. -/
def errored (snapshot : RemoteMachineSnapshot) (record : RemoteMachineRecord)
    (error : RemoteFleetError) (nowMs : Int) : RemoteMachineSnapshot :=
  { snapshot with
    state := errorState error snapshot nowMs
    details := error.toString :: (unreachableHint error (!record.relayUrls.isEmpty)).toList }

/-- The steps of a monitor. -/
inductive Step (v : View) : Event → View → Prop
  | checkGone (hphase : v.task.phase = .checking)
      (hgone : v.registry.contains v.task.endpointId = false) :
      Step v .check { v with task := { v.task with phase := .stopped } }
  | checkPaired (hphase : v.task.phase = .checking)
      (hpaired : v.registry.contains v.task.endpointId = true) :
      Step v .check { v with task := { v.task with phase := .dialing } }
  | connect (observed : List SocketAddr) (persist : Except RemoteFleetError Unit)
      {record : RemoteMachineRecord} {registry : RemoteMachineRegistry}
      (hphase : v.task.phase = .dialing)
      (hrefresh : refreshDirectAddresses observed persist v.task.record v.registry =
        (record, registry)) :
      Step v (.connect observed persist)
        { v with
          registry := registry
          task := { v.task with record := record, phase := .connected } }
  | establish (node : NodeInfo) (health : HealthSnapshot) (path : ConnectionPath) (rttMs : UInt64)
      (nowMs : Int) (hphase : v.task.phase = .connected) :
      Step v (.establish node health path rttMs nowMs)
        (v.write (established v.entry node health path rttMs nowMs) .streaming)
  | sample (sample : MetricSample) (nowMs : Int) (hphase : v.task.phase = .streaming) :
      Step v (.sample sample false nowMs) (v.write (sampled v.entry sample nowMs) .streaming)
  | samplePersist (sample : MetricSample) (nowMs : Int) (hphase : v.task.phase = .streaming) :
      Step v (.sample sample true nowMs)
        (v.write (sampled v.entry sample nowMs) (.persisting (sampled v.entry sample nowMs)))
  | persist {snapshot : RemoteMachineSnapshot} {registry : RemoteMachineRegistry}
      (outcome : Except RemoteFleetError Unit) (hphase : v.task.phase = .persisting snapshot)
      (hupdate : v.registry.updateSnapshot outcome v.task.endpointId snapshot = .ok registry) :
      Step v (.persist outcome)
        { v with registry := registry, task := { v.task with phase := .streaming } }
  | persistFailed {snapshot : RemoteMachineSnapshot} {error : RemoteFleetError}
      (outcome : Except RemoteFleetError Unit) (hphase : v.task.phase = .persisting snapshot)
      (hupdate : v.registry.updateSnapshot outcome v.task.endpointId snapshot = .error error) :
      Step v (.persist outcome) { v with task := { v.task with phase := .streaming } }
  | refresh (health : HealthSnapshot) (path : ConnectionPath) (rttMs : UInt64)
      (hphase : v.task.phase = .streaming) :
      Step v (.refresh health path rttMs)
        (v.write (refreshed v.entry health path rttMs) .streaming)
  | heartbeat {snapshot : RemoteMachineSnapshot} (nowMs : Int) (hphase : v.task.phase = .streaming)
      (hfind : v.snapshots.find v.task.endpointId = some snapshot) :
      Step v (.heartbeat nowMs) (v.write { snapshot with lastSeenMs := some nowMs } .streaming)
  | heartbeatAbsent (nowMs : Int) (hphase : v.task.phase = .streaming)
      (hfind : v.snapshots.find v.task.endpointId = none) : Step v (.heartbeat nowMs) v
  | fail (error : RemoteFleetError)
      (hphase : v.task.phase = .dialing ∨ v.task.phase = .connected ∨ v.task.phase = .streaming) :
      Step v (.fail error) { v with task := { v.task with phase := .failed error } }
  | updateError {error : RemoteFleetError} (nowMs : Int) (hphase : v.task.phase = .failed error) :
      Step v (.updateError nowMs) (v.write (errored v.entry v.task.record error nowMs) .checking)

/-- What the fleet sees of a step: no machine is added or removed, no other snapshot appears or
disappears, and the task goes on or has found its machine gone. -/
structure Effect (v v' : View) : Prop where
  running : v.task.phase ≠ .stopped
  endpointId : v'.task.endpointId = v.task.endpointId
  aborted : v'.task.aborted = v.task.aborted
  registry : ∀ e, v'.registry.contains e = v.registry.contains e
  others : ∀ e, e ≠ v.task.endpointId → v'.snapshots.contains e = v.snapshots.contains e
  outcome :
    (v'.task.phase = .stopped ∧ v.registry.contains v.task.endpointId = false ∧
        v'.snapshots = v.snapshots) ∨
      (v'.task.phase ≠ .stopped ∧
        (v'.snapshots.contains v.task.endpointId = true ∨ v'.snapshots = v.snapshots))

section
variable {observed : List SocketAddr} {persist : Except RemoteFleetError Unit}
  {record record' : RemoteMachineRecord} {registry registry' : RemoteMachineRegistry}

/-- Refreshing addresses changes nothing, or the addresses of the record in both places. -/
theorem refreshDirectAddresses_cases
    (h : refreshDirectAddresses observed persist record registry = (record', registry')) :
    (record' = record ∧ registry' = registry) ∨
      (record' = { record with
          directAddresses := mergedDirectAddresses observed record.directAddresses } ∧
        registry.updateAddresses persist record.endpointId
          (mergedDirectAddresses observed record.directAddresses) = .ok registry') := by
  unfold refreshDirectAddresses at h
  split at h
  · cases h
    exact .inl ⟨rfl, rfl⟩
  · simp only at h
    split at h
    · cases h
      exact .inl ⟨rfl, rfl⟩
    · split at h
      · next hok =>
        cases h
        exact .inr ⟨rfl, hok⟩
      · cases h
        exact .inl ⟨rfl, rfl⟩

/-- Refreshing addresses keeps the endpoint of a record and the machines of the registry. -/
theorem refreshDirectAddresses_frame
    (h : refreshDirectAddresses observed persist record registry = (record', registry')) :
    record'.endpointId = record.endpointId ∧ ∀ e, registry'.contains e = registry.contains e := by
  rcases refreshDirectAddresses_cases h with ⟨rfl, rfl⟩ | ⟨rfl, hupdate⟩
  · exact ⟨rfl, fun _ => rfl⟩
  · exact ⟨rfl, RemoteMachineRegistry.contains_update hupdate⟩

end

/-- A write creates or replaces the snapshot of the machine, and no other one. -/
theorem Effect.write {v : View} {snapshot : RemoteMachineSnapshot} {phase : Phase}
    (hrunning : v.task.phase ≠ .stopped) (hphase : phase ≠ .stopped) :
    Effect v (v.write snapshot phase) where
  running := hrunning
  endpointId := rfl
  aborted := rfl
  registry _ := rfl
  others e he := by simp [View.write, Table.contains, he]
  outcome := .inr ⟨hphase, .inl (by simp [View.write, Table.contains])⟩

/-- A step that leaves the tables alone and the task running. -/
theorem Effect.move {v : View} {phase : Phase} (hrunning : v.task.phase ≠ .stopped)
    (hphase : phase ≠ .stopped) : Effect v { v with task := { v.task with phase := phase } } where
  running := hrunning
  endpointId := rfl
  aborted := rfl
  registry _ := rfl
  others _ _ := rfl
  outcome := .inr ⟨hphase, .inr rfl⟩

/-- Every step of a monitor has the effect the fleet works with. -/
theorem Step.effect {v v' : View} {e : Event} (h : Step v e v') : Effect v v' := by
  cases h with
  | checkGone hphase hgone =>
    exact ⟨by rw [hphase]; exact nofun, rfl, rfl, fun _ => rfl, fun _ _ => rfl,
      .inl ⟨rfl, hgone, rfl⟩⟩
  | checkPaired hphase hpaired => exact .move (by rw [hphase]; exact nofun) nofun
  | connect observed persist hphase hrefresh =>
    obtain ⟨hid, hreg⟩ := refreshDirectAddresses_frame hrefresh
    exact ⟨by rw [hphase]; exact nofun, hid, rfl, hreg, fun _ _ => rfl, .inr ⟨nofun, .inr rfl⟩⟩
  | establish node health path rttMs nowMs hphase =>
    exact .write (by rw [hphase]; exact nofun) nofun
  | sample sample nowMs hphase => exact .write (by rw [hphase]; exact nofun) nofun
  | samplePersist sample nowMs hphase => exact .write (by rw [hphase]; exact nofun) nofun
  | persist outcome hphase hupdate =>
    exact ⟨by rw [hphase]; exact nofun, rfl, rfl, RemoteMachineRegistry.contains_update hupdate,
      fun _ _ => rfl, .inr ⟨nofun, .inr rfl⟩⟩
  | persistFailed outcome hphase hupdate => exact .move (by rw [hphase]; exact nofun) nofun
  | refresh health path rttMs hphase => exact .write (by rw [hphase]; exact nofun) nofun
  | heartbeat nowMs hphase hfind => exact .write (by rw [hphase]; exact nofun) nofun
  | heartbeatAbsent nowMs hphase hfind =>
    exact ⟨by rw [hphase]; exact nofun, rfl, rfl, fun _ => rfl, fun _ _ => rfl,
      .inr ⟨by rw [hphase]; exact nofun, .inr rfl⟩⟩
  | fail error hphase =>
    refine .move ?_ nofun
    rcases hphase with h | h | h
    · rw [h]; exact nofun
    · rw [h]; exact nofun
    · rw [h]; exact nofun
  | updateError nowMs hphase => exact .write (by rw [hphase]; exact nofun) nofun

end Monitor

end Rackio
