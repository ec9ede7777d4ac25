import Rackio.Lib.Outcome
import Rackio.Core.Alert
import Rackio.Remote.RecordJson

/-!
# The view model of a machine

`machine_json` of `apps/desktop/src-tauri/src/presentation.rs`: what the frontend shows of a machine
the daemon reports, as a function of JSON documents. The filesystems are the disks with capacity,
fullest first, and the headline disk is the first of them.
-/

namespace Rackio

open Json (ofOption)

variable {φ : Type}

/-- A filesystem of a machine: its mount, used and total bytes. -/
abbrev Filesystem := String × UInt64 × UInt64

/-- The filesystem that a member of `disks` describes; one without capacity has no share to rank or
draw. -/
def filesystem (disk : Json φ) : Option Filesystem := do
  let mount ← (disk.get "mount").bind Json.asStr
  let used ← (disk.get "used_bytes").bind Json.asU64
  let total ← (disk.get "total_bytes").bind Json.asU64
  if 0 < total then some (mount, used, total) else none

/-- The order the filesystems are sorted by: the fuller one first, compared by cross
multiplication. -/
def fullerFirst (left right : Filesystem) : Prop :=
  satMul128 right.2.1 left.2.2 ≤ satMul128 left.2.1 right.2.2

instance : DecidableRel fullerFirst := fun _ _ => inferInstanceAs (Decidable (_ ≤ _))

/-- The `filesystems` of `machine_json`; the sort is stable. -/
def filesystems (latest : Json φ) : List Filesystem :=
  ((((latest.get "disks").bind Json.asArray).getD []).filterMap filesystem).insertionSort
    fullerFirst

/-- The source's `trend_point_json`. -/
def trendPointJson (sample : Json φ) : Json φ :=
  .obj [("timestampMs", ofOption (sample.get "timestamp_ms")),
    ("cpuPercent", ofOption (sample.get "cpu_percent")),
    ("memoryUsedBytes", ofOption (sample.get "memory_used_bytes")),
    ("memoryTotalBytes", ofOption (sample.get "memory_total_bytes")),
    ("swapUsedBytes", ofOption (sample.get "swap_used_bytes")),
    ("swapTotalBytes", ofOption (sample.get "swap_total_bytes")),
    ("diskUsedBytes", ofOption (sample.get "disk_used_bytes")),
    ("diskTotalBytes", ofOption (sample.get "disk_total_bytes")),
    ("temperatureCelsius", ofOption (sample.get "temperature_celsius")),
    ("networkReceivedBytesPerSecond", ofOption (sample.get "network_received_bytes_per_second")),
    ("networkSentBytesPerSecond", ofOption (sample.get "network_sent_bytes_per_second")),
    ("rttMs", ofOption (sample.get "rtt_ms"))]

/-- The `temperature` of `machine_json`: absent on a host with no readable sensor. -/
def temperatureJson (latest : Json φ) : Json φ :=
  ofOption (((latest.get "temperature").filter fun value => !value.isNull).map fun temperature =>
    .obj [("label", ofOption (temperature.get "label")),
      ("celsius", ofOption (temperature.get "celsius")),
      ("criticalCelsius", ofOption (temperature.get "critical_celsius")),
      ("sensorCount", ofOption (temperature.get "sensor_count"))])

/-- A `u64` in a document. -/
def u64Json (n : UInt64) : Json φ := .int n.toNat

/-- The source's `machine_json`; `ofInt` is the literal of an integer read as a double. -/
def machineJson (ofInt : Int → φ) (source : Json φ) (nodeState path : String)
    (rttMs : Option UInt64) (lastSeenMs : Option Int) (trend : List (Json φ))
    (detail : Option String) : Except String (Json φ) := do
  let node ← okOr (source.get "node") "machine response did not contain node info"
  let latest := (source.get "latest").getD .null
  let nodeId ← okOr ((node.get "node_id").bind Json.asStr) "machine node ID is missing"
  let nodeName ← okOr ((node.get "display_name").bind Json.asStr) "machine node name is missing"
  let filesystems := filesystems latest
  let fullest := filesystems.head?
  let text := fun name => ((node.get name).bind Json.asStr).getD "unknown"
  -- The collector never samples an uptime of zero, which stands for none.
  let uptimeSeconds :=
    ((latest.get "uptime_seconds").bind Json.asU64).filter fun seconds => 0 < seconds
  return .obj [("id", .str nodeId),
    ("endpointId", ofOption (source.get "endpoint_id")),
    ("name", .str nodeName),
    ("os", .str (text "os" ++ " · " ++ text "architecture")),
    ("state", .str nodeState),
    ("path", .str path),
    ("cpuPercent", ofOption (((latest.get "cpu_percent").bind (Json.asF64 ofInt)).map .float)),
    ("memoryUsedBytes", ofOption (latest.get "memory_used_bytes")),
    ("memoryTotalBytes", ofOption (latest.get "memory_total_bytes")),
    ("swapUsedBytes", ofOption (latest.get "swap_used_bytes")),
    ("swapTotalBytes", ofOption (latest.get "swap_total_bytes")),
    ("diskUsedBytes", ofOption (fullest.map fun filesystem => u64Json filesystem.2.1)),
    ("diskTotalBytes", ofOption (fullest.map fun filesystem => u64Json filesystem.2.2)),
    ("diskMount", ofOption (fullest.map fun filesystem => .str filesystem.1)),
    ("filesystems", .arr (filesystems.map fun (mount, used, total) =>
      .obj [("mount", .str mount), ("usedBytes", u64Json used), ("totalBytes", u64Json total)])),
    ("temperature", temperatureJson latest),
    ("networkReceivedBytesPerSecond",
      ofOption ((latest.get "network").bind (·.get "received_bytes_per_second"))),
    ("networkSentBytesPerSecond",
      ofOption ((latest.get "network").bind (·.get "sent_bytes_per_second"))),
    ("rttMs", ofOption (rttMs.map u64Json)),
    ("uptimeSeconds", ofOption (uptimeSeconds.map u64Json)),
    ("lastSeenMs", ofOption (lastSeenMs.map .int)),
    ("trend", .arr (trend.map trendPointJson)),
    ("detail", ofOption (detail.map .str))]

/-! ## The disk of a machine -/

/-- The filesystem of a disk. -/
def DiskMetric.filesystem (d : DiskMetric) : Filesystem := (d.mount, d.usedBytes, d.totalBytes)

/-- A `u64` is read as it is written. -/
theorem asU64_int (n : UInt64) : (Json.int n.toNat : Json φ).asU64 = some n := by
  have hlt := n.toNat_lt
  have hrange : (0 : Int) ≤ n.toNat ∧ (n.toNat : Int) < 2 ^ 64 := ⟨by omega, by omega⟩
  rw [Json.asU64, if_pos hrange, Int.toNat_natCast, UInt64.ofNat_toNat]

/-- The filesystem of the document of a disk. -/
theorem filesystem_ser (d : DiskMetric) :
    Rackio.filesystem ((JsonFormats.diskMetric (φ := φ)).ser d) =
      if 0 < d.totalBytes then some d.filesystem else none := by
  have hmount : ((JsonFormats.diskMetric (φ := φ)).ser d).get "mount" = some (.str d.mount) := rfl
  have hused : ((JsonFormats.diskMetric (φ := φ)).ser d).get "used_bytes" =
      some (.int d.usedBytes.toNat) := rfl
  have htotal : ((JsonFormats.diskMetric (φ := φ)).ser d).get "total_bytes" =
      some (.int d.totalBytes.toNat) := rfl
  unfold Rackio.filesystem
  rw [hmount, hused, htotal, Option.bind_some, Option.bind_some, Option.bind_some, asU64_int,
    asU64_int]
  rfl

/-- The filesystems of a machine are those of the disks of its sample that have capacity. -/
theorem filesystems_ser (f : JsonFormats φ) (s : MetricSample) :
    filesystems (f.metricSample.ser s) =
      ((s.disks.filter fun d => 0 < d.totalBytes).map DiskMetric.filesystem).insertionSort
        fullerFirst := by
  have hdisks : (((f.metricSample.ser s).get "disks").bind Json.asArray).getD [] =
      s.disks.map JsonFormats.diskMetric.ser := rfl
  unfold filesystems
  rw [hdisks, List.filterMap_map]
  congr 1
  induction s.disks with
  | nil => rfl
  | cons d disks ih =>
    rw [List.filterMap_cons, Function.comp_apply, filesystem_ser, List.filter_cons]
    by_cases hd : 0 < d.totalBytes
    · rw [if_pos hd, if_pos (decide_eq_true hd), List.map_cons, ih]
    · rw [if_neg hd, if_neg (by simpa using hd), ih]

/-- What a machine shows of its headline disk is the first of its filesystems. -/
theorem machineJson_disk {ofInt : Int → φ} {source machine latest : Json φ}
    {nodeState path : String} {rttMs : Option UInt64} {lastSeenMs : Option Int}
    {trend : List (Json φ)} {detail : Option String} (hlatest : source.get "latest" = some latest)
    (h : machineJson ofInt source nodeState path rttMs lastSeenMs trend detail = .ok machine) :
    machine.get "diskMount" = some (ofOption ((filesystems latest).head?.map fun d => .str d.1)) ∧
      machine.get "diskUsedBytes" =
        some (ofOption ((filesystems latest).head?.map fun d => u64Json d.2.1)) ∧
      machine.get "diskTotalBytes" =
        some (ofOption ((filesystems latest).head?.map fun d => u64Json d.2.2)) := by
  unfold machineJson at h
  obtain ⟨node, -, h⟩ := Outcome.bind_eq_ok_iff.1 h
  obtain ⟨nodeId, -, h⟩ := Outcome.bind_eq_ok_iff.1 h
  obtain ⟨nodeName, -, h⟩ := Outcome.bind_eq_ok_iff.1 h
  cases h
  rw [hlatest]
  exact ⟨rfl, rfl, rfl⟩

end Rackio
