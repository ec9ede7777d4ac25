import Rackio.Core.Uuid
import Rackio.Protocol.Wire
import Rackio.Remote.Error

/-!
# Node information, health and paths on the wire

The other messages of the server's `protocol.rs`, and what the viewer's `client.rs` makes of them.
The two sides are written apart, field by field; `conversion_roundTrips` says that what the viewer
reads is what the server meant, and that a number which is no value of its enumeration is read as
the value that promises least.
-/

namespace Rackio

/-! ## Messages -/

namespace Wire

/-- The message `ProtocolVersion`. -/
structure ProtocolVersion where
  major : UInt32
  minor : UInt32
  deriving DecidableEq, Repr

/-- The message `MetricCapability`. -/
structure MetricCapability where
  name : String
  state : Int
  detail : Option String
  deriving DecidableEq, Repr

/-- The message `NodeInfo`. -/
structure NodeInfo where
  nodeId : String
  endpointId : String
  displayName : String
  os : String
  architecture : String
  agentVersion : String
  protocol : Option ProtocolVersion
  capabilities : List MetricCapability
  deriving DecidableEq, Repr

/-- The message `HealthSnapshot`. -/
structure HealthSnapshot where
  state : Int
  collectorDegraded : Bool
  storageDegraded : Bool
  remoteListenerDegraded : Bool
  details : List String
  deriving DecidableEq, Repr

/-- The message `ConnectionDetails`. -/
structure ConnectionDetails where
  path : Int
  rttMs : UInt64
  deriving DecidableEq, Repr

end Wire

/-! ## The server -/

/-- The server's `node_state`. -/
def NodeState.toWire : NodeState → Int
  | .healthy => 1
  | .warning => 2
  | .critical => 3
  | .stale => 4
  | .offline => 5
  | .authError => 6
  | .incompatible => 7
  | .degraded => 8

/-- The path of the source's `protocol::connection_details`. -/
def ConnectionPath.toWire : ConnectionPath → Int
  | .lanDirect => 1
  | .wanDirect => 2
  | .relayed => 3
  | .unknown => 4

/-- The source's `protocol::node_info`. -/
def NodeInfo.toWire (info : NodeInfo) (endpointId : EndpointId) : Wire.NodeInfo where
  nodeId := info.nodeId.toString
  endpointId := endpointId.toString
  displayName := info.displayName
  os := info.os
  architecture := info.architecture
  agentVersion := info.agentVersion
  protocol := some ⟨info.protocol.major, info.protocol.minor⟩
  capabilities := info.capabilities.map fun capability =>
    ⟨capability.name, capability.state.toWire, capability.detail⟩

/-- The source's `protocol::health`. -/
def HealthSnapshot.toWire (health : HealthSnapshot) : Wire.HealthSnapshot where
  state := health.state.toWire
  collectorDegraded := health.collectorDegraded
  storageDegraded := health.storageDegraded
  remoteListenerDegraded := health.remoteListenerDegraded
  details := health.details

/-- The source's `protocol::connection_details`. -/
def connectionDetails (path : ConnectionPath) (rttMs : UInt64) : Wire.ConnectionDetails where
  path := path.toWire
  rttMs := rttMs

/-! ## The viewer -/

/-- The viewer's `node_state`. -/
def NodeState.fromWire (state : Int) : NodeState :=
  if state = 1 then .healthy
  else if state = 2 then .warning
  else if state = 3 then .critical
  else if state = 4 then .stale
  else if state = 5 then .offline
  else if state = 6 then .authError
  else if state = 7 then .incompatible
  -- Also an unspecified or unknown number.
  else .degraded

/-- The viewer's `connection_path`. -/
def ConnectionPath.fromWire (path : Int) : ConnectionPath :=
  if path = 1 then .lanDirect
  else if path = 2 then .wanDirect
  else if path = 3 then .relayed
  -- Also an unspecified or unknown number.
  else .unknown

/-- The source's `client::node_info`, with `Uuid::parse_str` as `parse`. -/
def NodeInfo.fromWire (parse : String → Option Uuid) (info : Wire.NodeInfo) :
    Except RemoteFleetError NodeInfo :=
  match info.protocol with
  | none => .error (.unexpectedResponse "protocol version")
  | some protocol =>
    match parse info.nodeId with
    | none => .error (.unexpectedResponse "node id")
    | some nodeId =>
      .ok
        { nodeId := nodeId
          displayName := info.displayName
          os := info.os
          architecture := info.architecture
          agentVersion := info.agentVersion
          protocol := ⟨protocol.major, protocol.minor⟩
          capabilities := info.capabilities.map fun capability =>
            ⟨capability.name, CapabilityState.fromWire capability.state, capability.detail⟩ }

/-- The mapping of the source's `get_health`. -/
def HealthSnapshot.fromWire (health : Wire.HealthSnapshot) : HealthSnapshot where
  state := NodeState.fromWire health.state
  collectorDegraded := health.collectorDegraded
  storageDegraded := health.storageDegraded
  remoteListenerDegraded := health.remoteListenerDegraded
  details := health.details

/-- The mapping of the source's `get_connection_path`. -/
def connectionOfWire (details : Wire.ConnectionDetails) : ConnectionPath × UInt64 :=
  (ConnectionPath.fromWire details.path, details.rttMs)

/-! ## Round trips -/

@[simp] theorem NodeState.fromWire_toWire (state : NodeState) :
    NodeState.fromWire state.toWire = state := by
  cases state <;> rfl

@[simp] theorem ConnectionPath.fromWire_toWire (path : ConnectionPath) :
    ConnectionPath.fromWire path.toWire = path := by
  cases path <;> rfl

/-- A capability is read with the state the server wrote. -/
theorem map_capability_fromWire (capabilities : List MetricCapability) :
    ((capabilities.map fun capability =>
        (⟨capability.name, capability.state.toWire, capability.detail⟩ :
          Wire.MetricCapability)).map fun capability =>
      (⟨capability.name, CapabilityState.fromWire capability.state, capability.detail⟩ :
        MetricCapability)) = capabilities := by
  induction capabilities with
  | nil => rfl
  | cons capability capabilities ih =>
    simp only [List.map_cons, CapabilityState.fromWire_toWire, ih]

/-- The viewer reads the node the server described. -/
theorem NodeInfo.fromWire_toWire {parse : String → Option Uuid} (hparse : ParsesUuid parse)
    (info : NodeInfo) (endpointId : EndpointId) :
    NodeInfo.fromWire parse (info.toWire endpointId) = .ok info := by
  simp only [NodeInfo.fromWire, NodeInfo.toWire, hparse info.nodeId, map_capability_fromWire]

theorem HealthSnapshot.fromWire_toWire (health : HealthSnapshot) :
    HealthSnapshot.fromWire health.toWire = health := by
  simp [HealthSnapshot.fromWire, HealthSnapshot.toWire]

theorem connectionOfWire_connectionDetails (path : ConnectionPath) (rttMs : UInt64) :
    connectionOfWire (connectionDetails path rttMs) = (path, rttMs) := by
  simp [connectionOfWire, connectionDetails]

/-! ## Numbers of no value -/

/-- A capability state other than unsupported is read from its own number only. -/
theorem CapabilityState.toWire_fromWire {n : Int} (h : CapabilityState.fromWire n ≠ .unsupported) :
    (CapabilityState.fromWire n).toWire = n := by
  unfold CapabilityState.fromWire at h ⊢
  split_ifs at h ⊢ <;> simp_all [CapabilityState.toWire]

/-- A node state other than degraded is read from its own number only. -/
theorem NodeState.toWire_fromWire {n : Int} (h : NodeState.fromWire n ≠ .degraded) :
    (NodeState.fromWire n).toWire = n := by
  unfold NodeState.fromWire at h ⊢
  split_ifs at h ⊢ <;> simp_all [NodeState.toWire]

/-- A known path is read from its own number only. -/
theorem ConnectionPath.toWire_fromWire {n : Int} (h : ConnectionPath.fromWire n ≠ .unknown) :
    (ConnectionPath.fromWire n).toWire = n := by
  unfold ConnectionPath.fromWire at h ⊢
  split_ifs at h ⊢ <;> simp_all [ConnectionPath.toWire]

/-- What the viewer reads of a sample, a node, a health report and a path is what the server wrote
from, and a number that is no value of its enumeration promises nothing. -/
theorem conversion_roundTrips {parse : String → Option Uuid} (hparse : ParsesUuid parse) :
    (∀ sample : MetricSample, sample.Finite → MetricSample.fromWire sample.toWire = sample) ∧
      (∀ (info : NodeInfo) (endpointId : EndpointId),
        NodeInfo.fromWire parse (info.toWire endpointId) = .ok info ∧
          (info.toWire endpointId).endpointId = endpointId.toString) ∧
      (∀ health : HealthSnapshot, HealthSnapshot.fromWire health.toWire = health) ∧
      (∀ path rttMs, connectionOfWire (connectionDetails path rttMs) = (path, rttMs)) ∧
      (∀ n, (∀ state : CapabilityState, state.toWire ≠ n) →
        CapabilityState.fromWire n = .unsupported) ∧
      (∀ n, (∀ state : NodeState, state.toWire ≠ n) → NodeState.fromWire n = .degraded) ∧
      ∀ n, (∀ path : ConnectionPath, path.toWire ≠ n) → ConnectionPath.fromWire n = .unknown := by
  refine ⟨fun sample hfinite => MetricSample.fromWire_toWire_of_finite hfinite,
    fun info endpointId => ⟨NodeInfo.fromWire_toWire hparse info endpointId, rfl⟩,
    HealthSnapshot.fromWire_toWire, connectionOfWire_connectionDetails, ?_, ?_, ?_⟩
  · intro n hn
    by_contra hne
    exact hn _ (CapabilityState.toWire_fromWire hne)
  · intro n hn
    by_contra hne
    exact hn _ (NodeState.toWire_fromWire hne)
  · intro n hn
    by_contra hne
    exact hn _ (ConnectionPath.toWire_fromWire hne)

/-- A sample with a temperature, a node and the number zero, through both sides. -/
theorem conversion_roundTrips_example :
    MetricSample.fromWire
          (MetricSample.toWire
            { (default : MetricSample) with
              cpuPercent := some ⟨0x42C80000⟩
              temperature := some ⟨"CPU die", ⟨0x42420000⟩, some ⟨0x42C80000⟩, 41⟩ }) =
        { (default : MetricSample) with
          cpuPercent := some ⟨0x42C80000⟩
          temperature := some ⟨"CPU die", ⟨0x42420000⟩, some ⟨0x42C80000⟩, 41⟩ } ∧
      NodeInfo.fromWire Uuid.ofText (NodeInfo.toWire default ⟨"peer"⟩) = .ok default ∧
      NodeState.fromWire 0 = .degraded := by
  obtain ⟨hsample, hinfo, -, -, -, hstate, -⟩ := conversion_roundTrips Uuid.ofText_toString
  refine ⟨hsample _ (by decide), (hinfo default ⟨"peer"⟩).1, hstate 0 fun state => ?_⟩
  cases state <;> decide

end Rackio
