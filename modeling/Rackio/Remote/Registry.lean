import Rackio.Lib.Table
import Rackio.Core.Model
import Rackio.Remote.Error

/-!
# Paired machines: records and snapshots

The registry of `apps/agent/src/remote/registry.rs` and the in-memory view of
`apps/agent/src/remote/snapshot.rs`. A record says which machine is paired and where it was last
reachable; a snapshot is what the viewer shows of it.

The registry holds every record under its own endpoint: `insert` is the only operation that adds
one, and a loaded file was written by the registry itself. The outcome of persisting the new table
is an argument of each operation that writes; an operation that fails leaves the table as it was.
-/

namespace Rackio

/-! ## Snapshots -/

/-- The source's `PersistedRemoteSnapshot`. -/
structure PersistedRemoteSnapshot where
  latest : Option MetricSample
  state : NodeState
  path : ConnectionPath
  rttMs : Option UInt64
  lastSeenMs : Option Int
  trend : TrendWindow
  details : List String
  deriving DecidableEq, Repr

/-- The source's `RemoteMachineRecord`. -/
structure RemoteMachineRecord where
  node : NodeInfo
  endpointId : String
  directAddresses : List SocketAddr
  relayUrls : List String
  pairedAtMs : Int
  lastSnapshot : Option PersistedRemoteSnapshot
  deriving DecidableEq, Repr

/-- The source's `RemoteMachineSnapshot`. -/
structure RemoteMachineSnapshot where
  node : NodeInfo
  endpointId : String
  latest : Option MetricSample
  state : NodeState
  path : ConnectionPath
  rttMs : Option UInt64
  lastSeenMs : Option Int
  trend : TrendWindow
  details : List String
  deriving DecidableEq, Repr

/-- The source's `PersistedRemoteSnapshot::from`. -/
def PersistedRemoteSnapshot.from (snapshot : RemoteMachineSnapshot) : PersistedRemoteSnapshot where
  latest := snapshot.latest
  state := snapshot.state
  path := snapshot.path
  rttMs := snapshot.rttMs
  lastSeenMs := snapshot.lastSeenMs
  trend := snapshot.trend
  details := snapshot.details

/-- The source's `STALE_AFTER_MS`. -/
def staleAfterMs : Int := 10000

/-- The source's `OFFLINE_AFTER_MS`. -/
def offlineAfterMs : Int := 30000

/-- The source's `RemoteMachineSnapshot::offline`. -/
def RemoteMachineSnapshot.offline (record : RemoteMachineRecord) : RemoteMachineSnapshot :=
  match record.lastSnapshot with
  | some persisted =>
    { node := record.node
      endpointId := record.endpointId
      latest := persisted.latest
      state := persisted.state
      path := persisted.path
      rttMs := persisted.rttMs
      lastSeenMs := persisted.lastSeenMs
      trend := persisted.trend
      details := persisted.details }
  | none =>
    { node := record.node
      endpointId := record.endpointId
      latest := none
      state := .offline
      path := .unknown
      rttMs := none
      lastSeenMs := none
      trend := default
      details := ["Waiting for remote connection"] }

/-- The source's `RemoteMachineSnapshot::state_at`. -/
def RemoteMachineSnapshot.stateAt (snapshot : RemoteMachineSnapshot) (nowMs : Int) : NodeState :=
  if snapshot.state = .authError ∨ snapshot.state = .incompatible then snapshot.state
  else match snapshot.lastSeenMs with
    | none => snapshot.state
    | some lastSeenMs =>
      let ageMs := max (satSubI64 nowMs lastSeenMs) 0
      if ageMs ≥ offlineAfterMs then .offline
      else if ageMs ≥ staleAfterMs then .stale
      else snapshot.state

/-! ## The registry -/

/-- The source's `RemoteMachineRegistry`, every record under its own endpoint. -/
structure RemoteMachineRegistry where
  records : Table String RemoteMachineRecord
  keyed : ∀ endpointId record, records.find endpointId = some record →
    record.endpointId = endpointId

namespace RemoteMachineRegistry

/-- The registry of a machine that never paired. -/
def empty : RemoteMachineRegistry := ⟨.empty, fun _ _ h => by cases h⟩

/-- The source's `list`. -/
def list (r : RemoteMachineRegistry) : List RemoteMachineRecord := r.records.values

/-- The source's `contains`. -/
def contains (r : RemoteMachineRegistry) (endpointId : String) : Bool :=
  r.records.contains endpointId

/-- The source's `get`. -/
def get (r : RemoteMachineRegistry) (endpointId : String) :
    Except RemoteFleetError RemoteMachineRecord :=
  match r.records.find endpointId with
  | some record => .ok record
  | none => .error .unknownMachine

/-- The table with `record` under its endpoint. -/
def store (r : RemoteMachineRegistry) (record : RemoteMachineRecord) : RemoteMachineRegistry where
  records := r.records.insert record.endpointId record
  keyed := by
    intro endpointId record' h
    rw [Table.find_insert] at h
    split at h
    · next heq => cases h; exact heq.symm
    · exact r.keyed endpointId record' h

/-- The source's `insert`. -/
def insert (r : RemoteMachineRegistry) (persist : Except RemoteFleetError Unit)
    (record : RemoteMachineRecord) : Except RemoteFleetError RemoteMachineRegistry := do
  persist
  return r.store record

/-- The shape of `update_addresses` and `update_snapshot`: a change to one record that keeps its
endpoint. -/
def update (r : RemoteMachineRegistry) (persist : Except RemoteFleetError Unit)
    (endpointId : String) (change : RemoteMachineRecord → RemoteMachineRecord) :
    Except RemoteFleetError RemoteMachineRegistry := do
  let record ← r.get endpointId
  persist
  return r.store { change record with endpointId := record.endpointId }

/-- The source's `update_addresses`. -/
def updateAddresses (r : RemoteMachineRegistry) (persist : Except RemoteFleetError Unit)
    (endpointId : String) (directAddresses : List SocketAddr) :
    Except RemoteFleetError RemoteMachineRegistry :=
  r.update persist endpointId fun record => { record with directAddresses := directAddresses }

/-- The source's `update_snapshot`. -/
def updateSnapshot (r : RemoteMachineRegistry) (persist : Except RemoteFleetError Unit)
    (endpointId : String) (snapshot : RemoteMachineSnapshot) :
    Except RemoteFleetError RemoteMachineRegistry :=
  r.update persist endpointId fun record => { record with lastSnapshot := some (.from snapshot) }

/-- The table without the record of an endpoint. -/
def drop (r : RemoteMachineRegistry) (endpointId : String) : RemoteMachineRegistry where
  records := r.records.erase endpointId
  keyed := by
    intro endpointId' record h
    rw [Table.find_erase] at h
    split at h
    · cases h
    · exact r.keyed endpointId' record h

/-- The source's `remove`. -/
def remove (r : RemoteMachineRegistry) (persist : Except RemoteFleetError Unit)
    (endpointId : String) : Except RemoteFleetError (Bool × RemoteMachineRegistry) := do
  if !r.contains endpointId then
    return (false, r)
  persist
  return (true, r.drop endpointId)

@[simp] theorem contains_store (r : RemoteMachineRegistry) (record : RemoteMachineRecord)
    (e : String) :
    (r.store record).contains e = (decide (e = record.endpointId) || r.contains e) := by
  simp only [contains, Table.contains, store, Table.find_insert]
  split
  · next h => simp [h]
  · next h => simp [h]

@[simp] theorem contains_drop (r : RemoteMachineRegistry) (endpointId e : String) :
    (r.drop endpointId).contains e = (decide (e ≠ endpointId) && r.contains e) := by
  simp only [contains, Table.contains, drop, Table.find_erase]
  split
  · next h => simp [h]
  · next h => simp [h]

section
variable {r r' : RemoteMachineRegistry} {persist : Except RemoteFleetError Unit}
  {endpointId : String} {change : RemoteMachineRecord → RemoteMachineRecord}

/-- An insert stores its record. -/
theorem insert_eq_ok {record : RemoteMachineRecord} (h : r.insert persist record = .ok r') :
    r' = r.store record := by
  cases persist with
  | error err => cases h
  | ok u =>
    cases h
    rfl

/-- A removal drops the record of its endpoint, if there is one. -/
theorem remove_eq_ok {removed : Bool} (h : r.remove persist endpointId = .ok (removed, r')) :
    r.contains endpointId = removed ∧ r' = if removed then r.drop endpointId else r := by
  unfold remove at h
  cases hpaired : r.contains endpointId with
  | false =>
    rw [hpaired] at h
    cases h
    exact ⟨rfl, rfl⟩
  | true =>
    rw [hpaired] at h
    cases persist with
    | error err => cases h
    | ok u =>
      cases h
      exact ⟨rfl, rfl⟩

/-- An update stores its change to the record of its endpoint. -/
theorem update_eq_ok (h : r.update persist endpointId change = .ok r') :
    ∃ record, r.records.find endpointId = some record ∧ record.endpointId = endpointId ∧
      r' = r.store { change record with endpointId := record.endpointId } := by
  unfold update get at h
  cases hfind : r.records.find endpointId with
  | none =>
    rw [hfind] at h
    cases h
  | some record =>
    rw [hfind] at h
    cases persist with
    | error err => cases h
    | ok u =>
      cases h
      exact ⟨record, rfl, r.keyed endpointId record hfind, rfl⟩

/-- A change to one record neither adds nor removes a machine. -/
theorem contains_update (h : r.update persist endpointId change = .ok r') (e : String) :
    r'.contains e = r.contains e := by
  obtain ⟨record, hfind, hkey, rfl⟩ := update_eq_ok h
  rw [contains_store]
  by_cases he : e = record.endpointId
  · have hin : r.contains e = true := by
      rw [contains, Table.contains, he, hkey, hfind]
      rfl
    simp [he, ← hin]
  · simp [he]

end

end RemoteMachineRegistry

end Rackio
