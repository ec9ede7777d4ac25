import Rackio.Lib.Json
import Rackio.Core.Uuid
import Rackio.Remote.Registry

/-!
# Paired machines as JSON

What the derived serializers of `rackio-core/src/model.rs` and `apps/agent/src/remote/registry.rs`
make of a record, field by field under the source's names. An optional field may be missing.

A float is the one value that JSON cannot hold as it is: a number that is not finite is written as
`null`, which a field that is not optional refuses to read. `machineRecord_storable` says which
records come back: those whose floats are finite, in the ranges of their types.
-/

namespace Rackio

/-- The texts that are code of other crates: a float as a number, a node id and a socket address. -/
structure JsonFormats (φ : Type) where
  literal : F32 → φ
  ofLiteral : φ → F32
  ofInt : Int → F32
  parseUuid : String → Option Uuid
  addressText : SocketAddr → String
  parseAddress : String → Option SocketAddr
  /-- A finite float is the number its literal is read as. -/
  ofLiteral_literal : ∀ x : F32, x.isFinite → ofLiteral (literal x) = x
  parsesUuid : ParsesUuid parseUuid

namespace JsonFormats

variable {φ : Type} (f : JsonFormats φ)

/-- An `f32`. -/
def f32 : Serde φ F32 where
  ser x := if x.isFinite then .float (f.literal x) else .null
  de
    | .float literal => .ok (f.ofLiteral literal)
    | .int n => .ok (f.ofInt n)
    | _ => .error "invalid type, expected f32"
  Storable x := x.isFinite
  de_ser x h := by
    rw [if_pos h]
    exact congrArg Except.ok (f.ofLiteral_literal x h)

/-- An `i64`. -/
def i64 : Serde φ Int := .int i64Min i64Max

/-- A `u64`. -/
def u64 : Serde φ UInt64 :=
  (Serde.int 0 (2 ^ 64 - 1)).via (fun x => x.toNat) (fun n => .ok (.ofNat n.toNat)) (fun _ => True)
    fun x _ => by
      have hlt := x.toNat_lt
      refine ⟨⟨by omega, by omega⟩, ?_⟩
      simp

/-- A `u32`. -/
def u32 : Serde φ UInt32 :=
  (Serde.int 0 (2 ^ 32 - 1)).via (fun x => x.toNat) (fun n => .ok (.ofNat n.toNat)) (fun _ => True)
    fun x _ => by
      have hlt := x.toNat_lt
      refine ⟨⟨by omega, by omega⟩, ?_⟩
      simp

/-- A type whose values are stored as a text. -/
def text {α : Type} (print : α → String) (parse : String → Option α) (Storable : α → Prop)
    (h : ∀ a, Storable a → parse (print a) = some a) : Serde φ α :=
  Serde.str.via print
    (fun s => match parse s with
      | some a => .ok a
      | none => .error "invalid value")
    Storable fun a ha => ⟨trivial, by rw [h a ha]⟩

/-- An enumeration in snake case. -/
def enum {α : Type} (name : α → String) (ofName : String → Option α)
    (h : ∀ a, ofName (name a) = some a) : Serde φ α :=
  text name ofName (fun _ => True) fun a _ => h a

/-- A `Uuid`. -/
def uuid : Serde φ Uuid := text Uuid.toString f.parseUuid (fun _ => True) fun u _ => f.parsesUuid u

/-- An address that is read from its text, which leaves out the flow information. -/
def Textual (a : SocketAddr) : Prop := f.parseAddress (f.addressText a) = some a

/-- A `SocketAddr`. -/
def socketAddr : Serde φ SocketAddr := text f.addressText f.parseAddress f.Textual fun _ h => h

end JsonFormats

/-! ## Enumerations -/

/-- The names of `NodeState`. -/
def NodeState.name : NodeState → String
  | .healthy => "healthy"
  | .warning => "warning"
  | .critical => "critical"
  | .stale => "stale"
  | .offline => "offline"
  | .authError => "auth_error"
  | .incompatible => "incompatible"
  | .degraded => "degraded"

/-- The names of `ConnectionPath`. -/
def ConnectionPath.name : ConnectionPath → String
  | .lanDirect => "lan_direct"
  | .wanDirect => "wan_direct"
  | .relayed => "relayed"
  | .unknown => "unknown"

/-- The names of `CapabilityState`. -/
def CapabilityState.name : CapabilityState → String
  | .supported => "supported"
  | .unsupported => "unsupported"
  | .permissionDenied => "permission_denied"

/-- The value of a name. -/
def ofName {α : Type} (name : α → String) (values : List α) (s : String) : Option α :=
  values.find? fun a => name a = s

/-- Every value of `NodeState`. -/
def NodeState.all : List NodeState :=
  [.healthy, .warning, .critical, .stale, .offline, .authError, .incompatible, .degraded]

/-- Every value of `ConnectionPath`. -/
def ConnectionPath.all : List ConnectionPath := [.lanDirect, .wanDirect, .relayed, .unknown]

/-- Every value of `CapabilityState`. -/
def CapabilityState.all : List CapabilityState := [.supported, .unsupported, .permissionDenied]

namespace JsonFormats

variable {φ : Type} (f : JsonFormats φ)

/-- A `NodeState`. -/
def nodeState : Serde φ NodeState :=
  enum NodeState.name (ofName NodeState.name NodeState.all) fun state => by cases state <;> rfl

/-- A `ConnectionPath`. -/
def connectionPath : Serde φ ConnectionPath :=
  enum ConnectionPath.name (ofName ConnectionPath.name ConnectionPath.all)
    fun path => by cases path <;> rfl

/-- A `CapabilityState`. -/
def capabilityState : Serde φ CapabilityState :=
  enum CapabilityState.name (ofName CapabilityState.name CapabilityState.all)
    fun state => by cases state <;> rfl

/-! ## Records -/

/-- A `ProtocolVersion`. -/
def protocolVersion : Serde φ ProtocolVersion :=
  Serde.record (.field "major" u32 <| .field "minor" u32 .nil) (by simp)
    (fun v => (v.major, v.minor, ()))
    (fun (major, minor, ()) => ⟨major, minor⟩) fun _ => rfl

/-- A `MetricCapability`. -/
def metricCapability : Serde φ MetricCapability :=
  Serde.record
    (.field "name" .str <| .field "state" capabilityState <| .optional "detail" .str .nil)
    (by simp)
    (fun c => (c.name, c.state, c.detail, ()))
    (fun (name, state, detail, ()) => ⟨name, state, detail⟩) fun _ => rfl

/-- A `NodeInfo`. -/
def nodeInfo : Serde φ NodeInfo :=
  Serde.record
    (.field "node_id" f.uuid <| .field "display_name" .str <| .field "os" .str <|
      .field "architecture" .str <| .field "agent_version" .str <|
      .field "protocol" protocolVersion <| .field "capabilities" metricCapability.list .nil)
    (by simp)
    (fun n => (n.nodeId, n.displayName, n.os, n.architecture, n.agentVersion, n.protocol,
      n.capabilities, ()))
    (fun (nodeId, displayName, os, architecture, agentVersion, protocol, capabilities, ()) =>
      ⟨nodeId, displayName, os, architecture, agentVersion, protocol, capabilities⟩) fun _ => rfl

/-- A `DiskMetric`. -/
def diskMetric : Serde φ DiskMetric :=
  Serde.record
    (.field "mount" .str <| .field "total_bytes" u64 <| .field "used_bytes" u64 .nil) (by simp)
    (fun d => (d.mount, d.totalBytes, d.usedBytes, ()))
    (fun (mount, totalBytes, usedBytes, ()) => ⟨mount, totalBytes, usedBytes⟩) fun _ => rfl

/-- A `TemperatureMetric`. -/
def temperatureMetric : Serde φ TemperatureMetric :=
  Serde.record
    (.field "label" .str <| .field "celsius" f.f32 <| .optional "critical_celsius" f.f32 <|
      .field "sensor_count" u32 .nil) (by simp)
    (fun t => (t.label, t.celsius, t.criticalCelsius, t.sensorCount, ()))
    (fun (label, celsius, criticalCelsius, sensorCount, ()) =>
      ⟨label, celsius, criticalCelsius, sensorCount⟩) fun _ => rfl

/-- A `NetworkMetric`. -/
def networkMetric : Serde φ NetworkMetric :=
  Serde.record
    (.field "received_bytes_per_second" u64 <| .field "sent_bytes_per_second" u64 .nil) (by simp)
    (fun n => (n.receivedBytesPerSecond, n.sentBytesPerSecond, ()))
    (fun (received, sent, ()) => ⟨received, sent⟩) fun _ => rfl

/-- A `CollectorError`. -/
def collectorError : Serde φ CollectorError :=
  Serde.record
    (.field "source" .str <| .field "kind" capabilityState <| .field "message" .str .nil)
    (by simp)
    (fun e => (e.source, e.kind, e.message, ()))
    (fun (source, kind, message, ()) => ⟨source, kind, message⟩) fun _ => rfl

/-- A `MetricSample`. -/
def metricSample : Serde φ MetricSample :=
  Serde.record
    (.field "timestamp_ms" i64 <| .field "sequence" u64 <| .optional "cpu_percent" f.f32 <|
      .optional "memory_used_bytes" u64 <| .optional "memory_total_bytes" u64 <|
      .optional "swap_used_bytes" u64 <| .optional "swap_total_bytes" u64 <|
      .field "disks" diskMetric.list <| .optional "network" networkMetric <|
      .optional "temperature" f.temperatureMetric <| .field "uptime_seconds" u64 <|
      .field "errors" collectorError.list .nil) (by simp)
    (fun s => (s.timestampMs, s.sequence, s.cpuPercent, s.memoryUsedBytes, s.memoryTotalBytes,
      s.swapUsedBytes, s.swapTotalBytes, s.disks, s.network, s.temperature, s.uptimeSeconds,
      s.errors, ()))
    (fun (timestampMs, sequence, cpuPercent, memoryUsedBytes, memoryTotalBytes, swapUsedBytes,
        swapTotalBytes, disks, network, temperature, uptimeSeconds, errors, ()) =>
      ⟨timestampMs, sequence, cpuPercent, memoryUsedBytes, memoryTotalBytes, swapUsedBytes,
        swapTotalBytes, disks, network, temperature, uptimeSeconds, errors⟩) fun _ => rfl

/-- A `TrendSample`. -/
def trendSample : Serde φ TrendSample :=
  Serde.record
    (.field "timestamp_ms" i64 <| .optional "cpu_percent" f.f32 <|
      .optional "memory_used_bytes" u64 <| .optional "memory_total_bytes" u64 <|
      .optional "swap_used_bytes" u64 <| .optional "swap_total_bytes" u64 <|
      .optional "disk_used_bytes" u64 <| .optional "disk_total_bytes" u64 <|
      .optional "temperature_celsius" f.f32 <|
      .optional "network_received_bytes_per_second" u64 <|
      .optional "network_sent_bytes_per_second" u64 <| .optional "rtt_ms" u64 .nil) (by simp)
    (fun t => (t.timestampMs, t.cpuPercent, t.memoryUsedBytes, t.memoryTotalBytes, t.swapUsedBytes,
      t.swapTotalBytes, t.diskUsedBytes, t.diskTotalBytes, t.temperatureCelsius,
      t.networkReceivedBytesPerSecond, t.networkSentBytesPerSecond, t.rttMs, ()))
    (fun (timestampMs, cpuPercent, memoryUsedBytes, memoryTotalBytes, swapUsedBytes, swapTotalBytes,
        diskUsedBytes, diskTotalBytes, temperatureCelsius, received, sent, rttMs, ()) =>
      ⟨timestampMs, cpuPercent, memoryUsedBytes, memoryTotalBytes, swapUsedBytes, swapTotalBytes,
        diskUsedBytes, diskTotalBytes, temperatureCelsius, received, sent, rttMs⟩) fun _ => rfl

/-- A `TrendWindow`, as its samples; nothing bounds their number. -/
def trendWindow : Serde φ TrendWindow :=
  f.trendSample.list.via (·.samples) (fun samples => .ok ⟨samples⟩)
    (fun w => ∀ point ∈ w.samples, f.trendSample.Storable point) fun _ h => ⟨h, rfl⟩

/-- A `PersistedRemoteSnapshot`. -/
def persistedRemoteSnapshot : Serde φ PersistedRemoteSnapshot :=
  Serde.record
    (.optional "latest" f.metricSample <| .field "state" nodeState <|
      .field "path" connectionPath <| .optional "rtt_ms" u64 <| .optional "last_seen_ms" i64 <|
      .fieldOr "trend" f.trendWindow default <| .field "details" Serde.str.list .nil) (by simp)
    (fun p => (p.latest, p.state, p.path, p.rttMs, p.lastSeenMs, p.trend, p.details, ()))
    (fun (latest, state, path, rttMs, lastSeenMs, trend, details, ()) =>
      ⟨latest, state, path, rttMs, lastSeenMs, trend, details⟩) fun _ => rfl

/-- A `RemoteMachineRecord`. -/
def remoteMachineRecord : Serde φ RemoteMachineRecord :=
  Serde.record
    (.field "node" f.nodeInfo <| .field "endpoint_id" .str <|
      .field "direct_addresses" f.socketAddr.list <| .field "relay_urls" Serde.str.list <|
      .field "paired_at_ms" i64 <| .optional "last_snapshot" f.persistedRemoteSnapshot .nil)
    (by simp)
    (fun r => (r.node, r.endpointId, r.directAddresses, r.relayUrls, r.pairedAtMs, r.lastSnapshot,
      ()))
    (fun (node, endpointId, directAddresses, relayUrls, pairedAtMs, lastSnapshot, ()) =>
      ⟨node, endpointId, directAddresses, relayUrls, pairedAtMs, lastSnapshot⟩) fun _ => rfl

/-! ## What comes back -/

section
variable {f}

@[simp] theorem storable_f32 {x : F32} : f.f32.Storable x ↔ x.isFinite := .rfl

@[simp] theorem present_f32 {x : F32} : f.f32.Present x ↔ x.isFinite := by
  refine ⟨And.left, fun h => ⟨h, ?_⟩⟩
  simp [f32, h]

@[simp] theorem storable_i64 {n : Int} : (i64 : Serde φ Int).Storable n ↔ FitsI64 n := .rfl

@[simp] theorem present_i64 {n : Int} : (i64 : Serde φ Int).Present n ↔ FitsI64 n :=
  Serde.present_int

@[simp] theorem storable_u64 {x : UInt64} : (u64 : Serde φ UInt64).Storable x := trivial

@[simp] theorem present_u64 {x : UInt64} : (u64 : Serde φ UInt64).Present x := by
  refine ⟨trivial, ?_⟩
  intro hnull
  cases hnull

@[simp] theorem storable_u32 {x : UInt32} : (u32 : Serde φ UInt32).Storable x := trivial

@[simp] theorem storable_uuid {u : Uuid} : f.uuid.Storable u := trivial

@[simp] theorem storable_nodeState {state : NodeState} :
    (nodeState : Serde φ NodeState).Storable state := trivial

@[simp] theorem storable_connectionPath {path : ConnectionPath} :
    (connectionPath : Serde φ ConnectionPath).Storable path := trivial

@[simp] theorem storable_capabilityState {state : CapabilityState} :
    (capabilityState : Serde φ CapabilityState).Storable state := trivial

@[simp] theorem storable_protocolVersion {v : ProtocolVersion} :
    (protocolVersion : Serde φ ProtocolVersion).Storable v := by
  rw [protocolVersion, Serde.storable_record]
  simp

@[simp] theorem storable_metricCapability {c : MetricCapability} :
    (metricCapability : Serde φ MetricCapability).Storable c := by
  rw [metricCapability, Serde.storable_record]
  simp

@[simp] theorem storable_diskMetric {d : DiskMetric} :
    (diskMetric : Serde φ DiskMetric).Storable d := by
  rw [diskMetric, Serde.storable_record]
  simp

@[simp] theorem present_networkMetric {n : NetworkMetric} :
    (networkMetric : Serde φ NetworkMetric).Present n := by
  rw [networkMetric, Serde.present_record]
  simp

@[simp] theorem storable_collectorError {e : CollectorError} :
    (collectorError : Serde φ CollectorError).Storable e := by
  rw [collectorError, Serde.storable_record]
  simp

@[simp] theorem present_temperatureMetric {t : TemperatureMetric} :
    f.temperatureMetric.Present t ↔ t.celsius.isFinite ∧ ∀ v ∈ t.criticalCelsius, v.isFinite := by
  rw [temperatureMetric, Serde.present_record]
  simp

/-- Node information always comes back. -/
@[simp] theorem storable_nodeInfo {node : NodeInfo} : f.nodeInfo.Storable node := by
  rw [nodeInfo, Serde.storable_record]
  simp

/-- A sample comes back when its floats are finite. -/
@[simp] theorem present_metricSample {s : MetricSample} :
    f.metricSample.Present s ↔ FitsI64 s.timestampMs ∧ s.Finite := by
  rw [metricSample, Serde.present_record]
  simp [MetricSample.Finite]

/-- A point of the trend comes back when its floats are finite. -/
@[simp] theorem storable_trendSample {t : TrendSample} :
    f.trendSample.Storable t ↔ FitsI64 t.timestampMs ∧ (∀ v ∈ t.cpuPercent, v.isFinite) ∧
      ∀ v ∈ t.temperatureCelsius, v.isFinite := by
  rw [trendSample, Serde.storable_record]
  simp

@[simp] theorem storable_socketAddr {a : SocketAddr} : f.socketAddr.Storable a ↔ f.Textual a := .rfl

@[simp] theorem storable_trendWindow {w : TrendWindow} :
    f.trendWindow.Storable w ↔ ∀ point ∈ w.samples, f.trendSample.Storable point := .rfl

/-- A snapshot comes back when its sample and its trend do. -/
@[simp] theorem present_persistedRemoteSnapshot {p : PersistedRemoteSnapshot} :
    f.persistedRemoteSnapshot.Present p ↔
      (∀ s ∈ p.latest, FitsI64 s.timestampMs ∧ s.Finite) ∧ (∀ t ∈ p.lastSeenMs, FitsI64 t) ∧
        ∀ point ∈ p.trend.samples, f.trendSample.Storable point := by
  rw [persistedRemoteSnapshot, Serde.present_record]
  simp

/-- A record comes back when its addresses and its snapshot do. -/
@[simp] theorem storable_remoteMachineRecord {r : RemoteMachineRecord} :
    f.remoteMachineRecord.Storable r ↔
      (∀ a ∈ r.directAddresses, f.Textual a) ∧ FitsI64 r.pairedAtMs ∧
        ∀ p ∈ r.lastSnapshot, f.persistedRemoteSnapshot.Present p := by
  rw [remoteMachineRecord, Serde.storable_record]
  simp

end

end JsonFormats

end Rackio
