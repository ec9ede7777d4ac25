import Rackio.Lib.Run
import Rackio.Core.Uuid
import Rackio.Iroh.Pairing
import Rackio.Remote.Monitor
import Rackio.Remote.Slot

/-!
# The remote fleet

`RemoteFleet` of `apps/agent/src/remote.rs`: the registry, the snapshots and the handles of the
monitors, three tables with a lock each, and the `import_pairing` calls, `remove_machine` calls and
monitor tasks that work on them. Every call is a process, and a step is one access to one table.

`Isolated` is the condition on the steps under which the three tables come to agree, and `Quiescent`
says when they are asked to.
-/

namespace Rackio

open Lts

/-! ## Importing a pairing -/

/-- The source's `validate_bundle`, with what `endpoint_addr` answers. -/
def validateBundle (bundle : PairingBundle) (nowMs : Int) (address : Except PairingError Unit) :
    Except PairingError Unit :=
  if bundle.expiresAtMs < nowMs then .error .expired
  else if bundle.directAddresses = [] ∧ bundle.relayUrls = [] then .error .invalidBundle
  else address

/-- The wire message `PairResponse`. -/
structure PairResponse where
  accepted : Bool
  nodeId : String
  endpointId : String
  deriving DecidableEq, Repr

/-- What the machine of a bundle answers to `import_pairing`, and the clock at two of its steps. -/
structure PairingAnswer where
  remoteId : String
  /-- The pair response, or another body. -/
  paired : Option PairResponse
  node : NodeInfo
  health : Except RemoteFleetError HealthSnapshot
  path : Except RemoteFleetError (ConnectionPath × UInt64)
  observed : List SocketAddr
  seenAtMs : Int
  pairedAtMs : Int

/-- The snapshot `import_pairing` starts with. -/
def importedSnapshot (bundle : PairingBundle) (answer : PairingAnswer) : RemoteMachineSnapshot :=
  let snapshot : RemoteMachineSnapshot :=
    { node := answer.node
      endpointId := bundle.endpointId
      latest := none
      state := .degraded
      path := .unknown
      rttMs := none
      lastSeenMs := some answer.seenAtMs
      trend := default
      details := ["health_unknown"] }
  let snapshot := match answer.health with
    | .ok health => { snapshot with state := health.state, details := health.details }
    | .error _ => snapshot
  match answer.path with
  | .ok (path, rttMs) => { snapshot with path := path, rttMs := some rttMs }
  | .error _ => snapshot

/-- The answers about health and path decide four fields of it, and the others are fixed. -/
theorem importedSnapshot_eq (bundle : PairingBundle) (answer : PairingAnswer) :
    ∃ state path rttMs details, importedSnapshot bundle answer =
      { node := answer.node
        endpointId := bundle.endpointId
        latest := none
        state := state
        path := path
        rttMs := rttMs
        lastSeenMs := some answer.seenAtMs
        trend := default
        details := details } := by
  unfold importedSnapshot
  cases answer.health with
  | error e =>
    cases answer.path with
    | error e => exact ⟨_, _, _, _, rfl⟩
    | ok details => exact ⟨_, _, _, _, rfl⟩
  | ok health =>
    cases answer.path with
    | error e => exact ⟨_, _, _, _, rfl⟩
    | ok details => exact ⟨_, _, _, _, rfl⟩

/-- The record `import_pairing` stores. -/
def importedRecord (bundle : PairingBundle) (answer : PairingAnswer) : RemoteMachineRecord where
  node := answer.node
  endpointId := bundle.endpointId
  directAddresses := mergedDirectAddresses answer.observed bundle.directAddresses
  relayUrls := bundle.relayUrls
  pairedAtMs := answer.pairedAtMs
  lastSnapshot := none

/-- The checks of `import_pairing` on what the machine answers. -/
def checkAnswer (bundle : PairingBundle) (answer : PairingAnswer) : Except RemoteFleetError Unit :=
  if answer.remoteId ≠ bundle.endpointId then .error .identityMismatch
  else match answer.paired with
    | none => .error (.unexpectedResponse "pairing response")
    | some paired =>
      if !paired.accepted then .error .pairingRejected
      else if paired.nodeId ≠ bundle.nodeId.toString ∨ paired.endpointId ≠ bundle.endpointId then
        .error .identityMismatch
      else if answer.node.nodeId ≠ bundle.nodeId then .error .identityMismatch
      else .ok ()

/-! ## The state -/

/-- Where an `import_pairing` call is. -/
inductive ImportStage
  /-- Past the duplicate check, in the dialogue with the machine. -/
  | dialing (bundle : PairingBundle)
  /-- The record is in the registry. -/
  | inserted (record : RemoteMachineRecord) (snapshot : RemoteMachineSnapshot)
  /-- The snapshot is stored. -/
  | stored (record : RemoteMachineRecord) (snapshot : RemoteMachineSnapshot)
  /-- The monitor is spawned, and its handle is not registered yet. -/
  | spawned (record : RemoteMachineRecord) (snapshot : RemoteMachineSnapshot) (task : Nat)

/-- The endpoint of an import. -/
def ImportStage.endpointId : ImportStage → String
  | .dialing bundle => bundle.endpointId
  | .inserted record _ => record.endpointId
  | .stored record _ => record.endpointId
  | .spawned record _ _ => record.endpointId

/-- What an import means to its slot. -/
def ImportStage.status : ImportStage → Slot.ImportStatus
  | .dialing _ => .idle
  | .inserted _ _ => .inserted
  | .stored _ _ => .stored
  | .spawned _ _ k => .spawned k

/-- Where a `remove_machine` call that removed a record is. -/
inductive RemovalStage
  /-- The record is removed. -/
  | erased (endpointId : String)
  /-- The monitor is aborted and awaited. -/
  | awaiting (endpointId : String) (task : Nat)
  /-- No monitor is left to await. -/
  | joined (endpointId : String)
  deriving DecidableEq, Repr

/-- The endpoint of a removal. -/
def RemovalStage.endpointId : RemovalStage → String
  | .erased e => e
  | .awaiting e _ => e
  | .joined e => e

/-- What a removal means to its slot. -/
def RemovalStage.status : RemovalStage → Slot.RemovalStatus
  | .erased _ => .erased
  | .awaiting _ k => .awaiting k
  | .joined _ => .joined

/-- What a monitor means to its slot. -/
def Monitor.Task.status (t : Monitor.Task) : Slot.TaskStatus :=
  if t.phase = .stopped then .stopped else if t.aborted then .aborted else .running

/-- The source's `RemoteFleet` with the calls and tasks that work on it. A handle is the number of
its task. -/
structure RemoteFleet where
  registry : RemoteMachineRegistry
  snapshots : Table String RemoteMachineSnapshot
  monitors : Table String Nat
  tasks : Table Nat Monitor.Task
  imports : Table Nat ImportStage
  removals : Table Nat RemovalStage

namespace RemoteFleet

/-- The source's `load`. -/
def load (registry : RemoteMachineRegistry) : RemoteFleet where
  registry := registry
  snapshots := registry.records.map .offline
  monitors := .empty
  tasks := .empty
  imports := .empty
  removals := .empty

/-- The abort of a task. -/
def abortTask (tasks : Table Nat Monitor.Task) (k : Nat) : Table Nat Monitor.Task :=
  match tasks.find k with
  | none => tasks
  | some task => tasks.insert k { task with aborted := true }

/-- The abort of a task whose handle may be absent. -/
def abortHandle (tasks : Table Nat Monitor.Task) : Option Nat → Table Nat Monitor.Task
  | none => tasks
  | some k => abortTask tasks k

/-- The `tokio::spawn` of `spawn_monitor`. -/
def spawnTask (s : RemoteFleet) (k : Nat) (record : RemoteMachineRecord) : RemoteFleet :=
  { s with tasks := s.tasks.insert k ⟨record, .checking, false⟩ }

/-- The critical section of `spawn_monitor` on the handles, with its second look at the registry. -/
def registerTask (s : RemoteFleet) (endpointId : String) (k : Nat) : RemoteFleet :=
  let paired := s.registry.contains endpointId
  let tasks := abortHandle s.tasks (s.monitors.find endpointId)
  { s with
    monitors := if paired then s.monitors.insert endpointId k else s.monitors.erase endpointId
    tasks := if paired then tasks else abortTask tasks k }

/-- The source's `spawn_monitor`. -/
def spawnMonitor (s : RemoteFleet) (k : Nat) (record : RemoteMachineRecord) : RemoteFleet :=
  (s.spawnTask k record).registerTask record.endpointId k

/-- The source's `start`, from the records in order; tasks are numbered from `k`. -/
def startFrom (s : RemoteFleet) (k : Nat) : List RemoteMachineRecord → RemoteFleet
  | [] => s
  | record :: records => (s.spawnMonitor k record).startFrom (k + 1) records

/-- The source's `start`. -/
def start (s : RemoteFleet) : RemoteFleet := s.startFrom 0 s.registry.list

/-! ## The steps -/

/-- What the calls and the tasks do. -/
inductive Event
  /-- The checks of an import before its dialogue. -/
  | importCheck (i : Nat) (endpointId : String)
  /-- An import ends with an error. -/
  | importFail (i : Nat)
  | importInsert (i : Nat) (endpointId : String)
  | importStore (i : Nat)
  | importSpawn (i k : Nat)
  | importRegister (i : Nat)
  | removeErase (r : Nat) (endpointId : String)
  /-- A removal that finds no record, or does not persist. -/
  | removeRefused (r : Nat) (endpointId : String)
  | removeTake (r : Nat)
  | removeJoin (r : Nat)
  | removeDrop (r : Nat)
  /-- A step of a monitor. -/
  | task (k : Nat) (event : Monitor.Event)
  /-- An aborted monitor is dropped at an await. -/
  | taskStop (k : Nat)

/-- The steps of the fleet. -/
inductive Step (s : RemoteFleet) : Event → RemoteFleet → Prop
  | importCheck {i : Nat} {bundle : PairingBundle} {nowMs : Int}
      {address : Except PairingError Unit}
      (hi : s.imports.find i = none) (hvalid : validateBundle bundle nowMs address = .ok ())
      (hnew : s.registry.contains bundle.endpointId = false) :
      Step s (.importCheck i bundle.endpointId)
        { s with imports := s.imports.insert i (.dialing bundle) }
  | importFail {i : Nat} {bundle : PairingBundle} (hi : s.imports.find i = some (.dialing bundle)) :
      Step s (.importFail i) { s with imports := s.imports.erase i }
  | importInsert {i : Nat} {bundle : PairingBundle} {answer : PairingAnswer}
      {persist : Except RemoteFleetError Unit} {registry : RemoteMachineRegistry}
      (hi : s.imports.find i = some (.dialing bundle))
      (hanswer : checkAnswer bundle answer = .ok ())
      (hinsert : s.registry.insert persist (importedRecord bundle answer) = .ok registry) :
      Step s (.importInsert i bundle.endpointId)
        { s with
          registry := registry
          imports := s.imports.insert i
            (.inserted (importedRecord bundle answer) (importedSnapshot bundle answer)) }
  | importStore {i : Nat} {record : RemoteMachineRecord} {snapshot : RemoteMachineSnapshot}
      (hi : s.imports.find i = some (.inserted record snapshot)) :
      Step s (.importStore i)
        { s with
          snapshots := s.snapshots.insert record.endpointId snapshot
          imports := s.imports.insert i (.stored record snapshot) }
  | importSpawn {i k : Nat} {record : RemoteMachineRecord} {snapshot : RemoteMachineSnapshot}
      (hi : s.imports.find i = some (.stored record snapshot)) (hk : s.tasks.find k = none) :
      Step s (.importSpawn i k)
        { s.spawnTask k record with imports := s.imports.insert i (.spawned record snapshot k) }
  | importRegister {i k : Nat} {record : RemoteMachineRecord} {snapshot : RemoteMachineSnapshot}
      (hi : s.imports.find i = some (.spawned record snapshot k)) :
      Step s (.importRegister i)
        { s.registerTask record.endpointId k with imports := s.imports.erase i }
  | removeErase {r : Nat} {endpointId : String} {persist : Except RemoteFleetError Unit}
      {registry : RemoteMachineRegistry} (hr : s.removals.find r = none)
      (hremove : s.registry.remove persist endpointId = .ok (true, registry)) :
      Step s (.removeErase r endpointId)
        { s with
          registry := registry
          removals := s.removals.insert r (.erased endpointId) }
  | removeAbsent {r : Nat} {endpointId : String} {persist : Except RemoteFleetError Unit}
      {registry : RemoteMachineRegistry}
      (hremove : s.registry.remove persist endpointId = .ok (false, registry)) :
      Step s (.removeRefused r endpointId) s
  | removeFailed {r : Nat} {endpointId : String} {persist : Except RemoteFleetError Unit}
      {error : RemoteFleetError} (hremove : s.registry.remove persist endpointId = .error error) :
      Step s (.removeRefused r endpointId) s
  | removeTake {r k : Nat} {endpointId : String}
      (hr : s.removals.find r = some (.erased endpointId))
      (hk : s.monitors.find endpointId = some k) :
      Step s (.removeTake r)
        { s with
          monitors := s.monitors.erase endpointId
          tasks := abortTask s.tasks k
          removals := s.removals.insert r (.awaiting endpointId k) }
  | removeTakeNone {r : Nat} {endpointId : String}
      (hr : s.removals.find r = some (.erased endpointId))
      (hk : s.monitors.find endpointId = none) :
      Step s (.removeTake r) { s with removals := s.removals.insert r (.joined endpointId) }
  | removeJoin {r k : Nat} {endpointId : String} {task : Monitor.Task}
      (hr : s.removals.find r = some (.awaiting endpointId k)) (hk : s.tasks.find k = some task)
      (hstopped : task.phase = .stopped) :
      Step s (.removeJoin r) { s with removals := s.removals.insert r (.joined endpointId) }
  | removeDrop {r : Nat} {endpointId : String}
      (hr : s.removals.find r = some (.joined endpointId)) :
      Step s (.removeDrop r)
        { s with
          snapshots := s.snapshots.erase endpointId
          removals := s.removals.erase r }
  | task {k : Nat} {task : Monitor.Task} {event : Monitor.Event} {v : Monitor.View}
      (hk : s.tasks.find k = some task)
      (hstep : Monitor.Step ⟨s.registry, s.snapshots, task⟩ event v) :
      Step s (.task k event)
        { s with
          registry := v.registry
          snapshots := v.snapshots
          tasks := s.tasks.insert k v.task }
  -- An aborted task may finish the poll it is in, so it goes on stepping until it is dropped.
  | taskStop {k : Nat} {task : Monitor.Task} (hk : s.tasks.find k = some task)
      (haborted : task.aborted = true) (hrunning : task.phase ≠ .stopped) :
      Step s (.taskStop k)
        { s with tasks := s.tasks.insert k { task with phase := .stopped } }

/-- The condition on the steps: a machine is paired only while no removal of it is in flight, and is
removed only while no import is between pairing it and tracking its monitor, and no aborted monitor
of it still runs. -/
def Isolated (s : RemoteFleet) : Event → Prop
  | .importInsert _ endpointId =>
    ∀ r stage, s.removals.find r = some stage → stage.endpointId ≠ endpointId
  | .removeErase _ endpointId =>
    (∀ i stage, s.imports.find i = some stage → stage.endpointId = endpointId →
        stage.status = .idle) ∧
      ∀ k task, s.tasks.find k = some task → task.endpointId = endpointId →
        task.status ≠ .aborted
  | _ => True

/-- Nothing is in flight, and every aborted task has stopped. -/
structure Quiescent (s : RemoteFleet) : Prop where
  imports : ∀ i, s.imports.find i = none
  removals : ∀ r, s.removals.find r = none
  tasks : ∀ k task, s.tasks.find k = some task → task.aborted = true → task.phase = .stopped

end RemoteFleet

end Rackio
