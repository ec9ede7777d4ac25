import Rackio.Core.Model
import Rackio.Lib.Throttle

/-!
# The collector

The `SystemCollector` of `rackio-core/src/collector.rs`. What `sysinfo` reads is the input of every
call of `sample`: a refresh of a source finds what the host shows then. Time is a count of
nanoseconds, and `sample` asks for it at three places.

`collected` is the result for a whole run of the collector: its samples are numbered, a metric is
absent exactly when its source is unreadable, every number is in range, and the disks and the sensor
are readings of the host that are not older than their refresh intervals. `refreshes_apart` says
how rarely the two expensive sources are read, `capabilities_agree` what a declared capability says
about the samples.
-/

namespace Rackio

open Throttle

/-! ## What the host shows -/

/-- A `sysinfo` disk. -/
structure HostDisk where
  mountPoint : String
  totalSpace : UInt64
  availableSpace : UInt64
  deriving DecidableEq, Repr

/-- A `sysinfo` component. -/
structure HostComponent where
  label : String
  temperature : Option F32
  critical : Option F32
  deriving DecidableEq, Repr

/-- A `sysinfo` network interface: the bytes since its last refresh. -/
structure HostInterface where
  received : UInt64
  transmitted : UInt64
  deriving DecidableEq, Repr

/-- A `sysinfo` system. -/
structure HostSystem where
  cpus : Nat
  globalCpuUsage : F32
  totalMemory : UInt64
  usedMemory : UInt64
  totalSwap : UInt64
  usedSwap : UInt64
  deriving DecidableEq, Repr

/-- What a host shows to one call of `sample`. -/
structure Host.Reading where
  system : HostSystem
  disks : List HostDisk
  interfaces : List HostInterface
  components : List HostComponent
  uptime : UInt64
  timestampMs : Int
  /-- The source's `now`. -/
  now : Nat
  /-- The time the elapsed network interval is measured at. -/
  networkNow : Nat
  /-- The time after the network refresh. -/
  refreshedNow : Nat
  deriving DecidableEq, Repr

/-! ## Readings -/

/-- The source's `DISK_REFRESH_INTERVAL`, in nanoseconds. -/
def diskRefreshInterval : Nat := 30 * 1000000000

/-- The source's `TEMPERATURE_REFRESH_INTERVAL`, in nanoseconds. -/
def temperatureRefreshInterval : Nat := 10 * 1000000000

/-- The source's `u64::saturating_add`. -/
def satAddU64 (x y : UInt64) : UInt64 := UInt64.ofNat (min (x.toNat + y.toNat) (2 ^ 64 - 1))

/-- The place of a single in the order of `f32::total_cmp`: negative values by descending
magnitude, then the others by ascending magnitude. -/
def F32.totalKey (x : F32) : Int :=
  if x.bits.toNat < 2 ^ 31 then x.bits.toNat else -1 - ((x.bits.toNat : Int) - 2 ^ 31)

/-- The source's `f32::total_cmp`. -/
def F32.totalCmp (x y : F32) : Ordering := compare x.totalKey y.totalKey

/-- The source's `readable_cpu_percent`. -/
def readableCpuPercent (cpuCount : Nat) (usage : F32) : Option F32 :=
  if cpuCount = 0 then none else if usage.isFinite then some usage else none

/-- The source's `readable_totals`. -/
def readableTotals (interfaces : Nat) (received sent : UInt64) : Option (UInt64 × UInt64) :=
  if 0 < interfaces then some (received, sent) else none

/-- The source's `readable_memory_total`. -/
def readableMemoryTotal (total : UInt64) : Option UInt64 := if 0 < total then some total else none

/-- The source's `disk_metric`. -/
def diskMetric (disk : HostDisk) : Option DiskMetric :=
  if 0 < disk.totalSpace then
    some ⟨disk.mountPoint, disk.totalSpace,
      if disk.availableSpace ≤ disk.totalSpace then disk.totalSpace - disk.availableSpace else 0⟩
  else none

/-- The source's `rate_per_second`. -/
def ratePerSecond (bytes : UInt64) (elapsed : Nat) : UInt64 :=
  let rate := min (bytes.toNat * 1000000000) (2 ^ 128 - 1) / elapsed
  if rate < 2 ^ 64 then UInt64.ofNat rate else UInt64.ofNat (2 ^ 64 - 1)

/-- The source's `network_metric`. -/
def networkMetric (totals : Option (UInt64 × UInt64)) (elapsed : Nat) : Option NetworkMetric :=
  match totals with
  | none => none
  | some (received, sent) =>
    if elapsed = 0 then none else some ⟨ratePerSecond received elapsed, ratePerSecond sent elapsed⟩

/-- A sensor with a usable reading. -/
structure ReadableSensor where
  label : String
  celsius : F32
  critical : Option F32
  deriving DecidableEq, Repr

/-- The reading of a sensor, if it is usable; a threshold that is no number is none. -/
def HostComponent.readable (component : HostComponent) : Option ReadableSensor :=
  (component.temperature.filter F32.isFinite).map fun celsius =>
    ⟨component.label, celsius, component.critical.filter F32.isFinite⟩

/-- The source's `hottest_temperature`. -/
def hottestTemperature (sensors : List HostComponent) : Option TemperatureMetric :=
  let readable := sensors.filterMap HostComponent.readable
  let sensorCount := UInt32.ofNat (min readable.length (2 ^ 32 - 1))
  (maxBy (fun left right => left.celsius.totalCmp right.celsius) readable).map fun sensor =>
    ⟨sensor.label, sensor.celsius, sensor.critical, sensorCount⟩

/-- The source's `capability`. -/
def capability (name : String) (supported : Bool) (detail : String) : MetricCapability where
  name := name
  state := if supported then .supported else .unsupported
  detail := if !supported && detail ≠ "" then some detail else none

/-- The source's `unavailable`. -/
def unavailable (source message : String) : CollectorError := ⟨source, .unsupported, message⟩

/-- The source's `capabilities_from`. -/
def capabilitiesFrom (cpu memory : Bool) (disks interfaces : Nat) (temperature : Bool) :
    List MetricCapability :=
  [capability "cpu" cpu "no CPU is readable",
    capability "memory" memory "total memory is not readable",
    capability "swap" true "",
    capability "disk" (0 < disks) "no filesystem is enumerable",
    capability "network" (0 < interfaces) "no network interface is enumerable",
    capability "temperature" temperature "no temperature sensor is readable on this host"]

/-! ## The collector -/

/-- The source's `SystemCollector`. -/
structure SystemCollector where
  system : HostSystem
  disks : List HostDisk
  networks : List HostInterface
  components : List HostComponent
  sequence : UInt64
  lastNetworkRefresh : Nat
  lastDiskRefresh : Nat
  lastTemperatureRefresh : Nat
  deriving DecidableEq, Repr

namespace SystemCollector

/-- The source's `SystemCollector::new`; the three clock readings follow each other. -/
def new (reading : Host.Reading) : SystemCollector where
  system := reading.system
  disks := reading.disks
  networks := reading.interfaces
  components := reading.components
  sequence := 0
  lastNetworkRefresh := reading.now
  lastDiskRefresh := reading.networkNow
  lastTemperatureRefresh := reading.refreshedNow

/-- The source's `capabilities`. -/
def capabilities (c : SystemCollector) : List MetricCapability :=
  capabilitiesFrom (readableCpuPercent c.system.cpus c.system.globalCpuUsage).isSome
    (readableMemoryTotal c.system.totalMemory).isSome c.disks.length c.networks.length
    (hottestTemperature c.components).isSome

/-- The refreshes of `sample`: the source's `refresh_due` guards the disks and the components. -/
def refresh (c : SystemCollector) (reading : Host.Reading) : SystemCollector :=
  let disksDue := due c.lastDiskRefresh diskRefreshInterval reading.now
  let temperatureDue := due c.lastTemperatureRefresh temperatureRefreshInterval reading.now
  { system := reading.system
    disks := if disksDue then reading.disks else c.disks
    lastDiskRefresh := if disksDue then reading.now else c.lastDiskRefresh
    components := if temperatureDue then reading.components else c.components
    lastTemperatureRefresh := if temperatureDue then reading.now else c.lastTemperatureRefresh
    networks := reading.interfaces
    lastNetworkRefresh := reading.refreshedNow
    sequence := satAddU64 c.sequence 1 }

/-- The errors of a sample, in the order `sample` pushes them. -/
def errors (cpu : Option F32) (memoryTotal : Option UInt64) (disks : List DiskMetric)
    (interfaceCount : Nat) : List CollectorError :=
  (if cpu = none then [unavailable "cpu" "no CPU usage is readable on this host"] else []) ++
    (if memoryTotal = none then [unavailable "memory" "total memory is not readable"] else []) ++
    (if disks = [] then [unavailable "disk" "no filesystem could be enumerated"] else []) ++
    (if interfaceCount = 0 then
      [unavailable "network" "no network interface could be enumerated"] else [])

/-- The sample that `sample` builds after the refreshes, `elapsed` nanoseconds after the last
network refresh. -/
def measure (c : SystemCollector) (elapsed : Nat) (uptime : UInt64) (timestampMs : Int) :
    MetricSample :=
  let cpuPercent := readableCpuPercent c.system.cpus c.system.globalCpuUsage
  let memoryTotalBytes := readableMemoryTotal c.system.totalMemory
  let disks := c.disks.filterMap diskMetric
  let (received, sent) := c.networks.foldl
    (fun (received, sent) network =>
      (satAddU64 received network.received, satAddU64 sent network.transmitted)) (0, 0)
  { timestampMs := timestampMs
    sequence := c.sequence
    cpuPercent := cpuPercent
    memoryUsedBytes := memoryTotalBytes.map fun _ => c.system.usedMemory
    memoryTotalBytes := memoryTotalBytes
    swapUsedBytes := some c.system.usedSwap
    swapTotalBytes := some c.system.totalSwap
    disks := disks
    network := networkMetric (readableTotals c.networks.length received sent) elapsed
    temperature := hottestTemperature c.components
    uptimeSeconds := uptime
    errors := errors cpuPercent memoryTotalBytes disks c.networks.length }

/-- The source's `sample`: the collector after it, and the sample. -/
def sample (c : SystemCollector) (reading : Host.Reading) : SystemCollector × MetricSample :=
  let c' := c.refresh reading
  (c', c'.measure (reading.networkNow - c.lastNetworkRefresh) reading.uptime reading.timestampMs)

/-- The collector after a list of calls of `sample`. -/
def after (c : SystemCollector) (readings : List Host.Reading) : SystemCollector :=
  readings.foldl refresh c

/-- The samples of a list of calls. -/
def collect (c : SystemCollector) : List Host.Reading → List MetricSample
  | [] => []
  | reading :: readings => (c.sample reading).2 :: collect (c.sample reading).1 readings

end SystemCollector

/-! ## One sample -/

/-- A sample has an error of this source. -/
def MetricSample.Errs (s : MetricSample) (source : String) : Prop :=
  ∃ error ∈ s.errors, error.source = source

/-- What holds of every sample of the collector, which found this many interfaces after this many
nanoseconds. -/
structure MetricSample.Sound (s : MetricSample) (interfaces elapsed : Nat) : Prop where
  cpu : s.cpuPercent = none ↔ s.Errs "cpu"
  memory : s.memoryTotalBytes = none ↔ s.Errs "memory"
  memoryUsed : s.memoryUsedBytes = none ↔ s.memoryTotalBytes = none
  disk : s.disks = [] ↔ s.Errs "disk"
  diskRange : ∀ d ∈ s.disks, 0 < d.totalBytes ∧ d.usedBytes ≤ d.totalBytes
  /-- Traffic is absent without an error when no time has passed. -/
  network : s.network = none ↔ s.Errs "network" ∨ elapsed = 0
  networkError : s.Errs "network" ↔ interfaces = 0
  /-- A missing sensor is no error. -/
  temperature : ∀ error ∈ s.errors, error.source ∈ ["cpu", "memory", "disk", "network"]
  finite : s.Finite

section
variable {c : SystemCollector} {elapsed : Nat} {uptime : UInt64} {timestampMs : Int}

/-- Used space is never more than the total. -/
theorem diskMetric_range {disk : HostDisk} {d : DiskMetric} (h : diskMetric disk = some d) :
    0 < d.totalBytes ∧ d.usedBytes ≤ d.totalBytes := by
  unfold diskMetric at h
  split at h
  · next hpos =>
    cases h
    refine ⟨hpos, ?_⟩
    show (if _ then _ else _) ≤ _
    split
    · next hle =>
      rw [UInt64.le_iff_toNat_le, UInt64.toNat_sub_of_le _ _ hle]
      exact Nat.sub_le _ _
    · exact UInt64.zero_le
  · cases h

/-- A readable CPU percentage is a number. -/
theorem readableCpuPercent_finite {n : Nat} {usage v : F32}
    (h : readableCpuPercent n usage = some v) : v.isFinite := by
  unfold readableCpuPercent at h
  split at h
  · cases h
  · split at h
    · next hfinite =>
      cases h
      exact hfinite
    · cases h

/-- A usable sensor reading is a number, and so is its threshold. -/
theorem HostComponent.readable_finite {component : HostComponent} {sensor : ReadableSensor}
    (h : component.readable = some sensor) :
    sensor.celsius.isFinite ∧ ∀ v ∈ sensor.critical, v.isFinite := by
  obtain ⟨celsius, hcelsius, rfl⟩ := Option.map_eq_some_iff.1 h
  exact ⟨(Option.filter_eq_some_iff.1 hcelsius).2,
    fun v hv => (Option.filter_eq_some_iff.1 hv).2⟩

/-- The sensor that is published is one of the host's with a usable reading. -/
theorem hottestTemperature_mem {sensors : List HostComponent} {t : TemperatureMetric}
    (h : hottestTemperature sensors = some t) :
    ∃ sensor ∈ sensors.filterMap HostComponent.readable,
      t = ⟨sensor.label, sensor.celsius, sensor.critical,
        UInt32.ofNat (min (sensors.filterMap HostComponent.readable).length (2 ^ 32 - 1))⟩ := by
  obtain ⟨sensor, hmax, rfl⟩ := Option.map_eq_some_iff.1 h
  exact ⟨sensor, mem_of_maxBy hmax, rfl⟩

/-- The published temperature is a number. -/
theorem hottestTemperature_finite {sensors : List HostComponent} {t : TemperatureMetric}
    (h : hottestTemperature sensors = some t) :
    t.celsius.isFinite ∧ ∀ v ∈ t.criticalCelsius, v.isFinite := by
  obtain ⟨sensor, hmem, rfl⟩ := hottestTemperature_mem h
  obtain ⟨component, -, hreadable⟩ := List.mem_filterMap.1 hmem
  exact component.readable_finite hreadable

/-- Traffic is absent when no interface is enumerable or no time has passed. -/
theorem networkMetric_eq_none_iff {interfaces : Nat} {received sent : UInt64} :
    networkMetric (readableTotals interfaces received sent) elapsed = none ↔
      interfaces = 0 ∨ elapsed = 0 := by
  unfold readableTotals
  split
  · next hpos =>
    simp only [networkMetric]
    split
    · next hzero => exact iff_of_true rfl (.inr hzero)
    · next hne =>
      refine iff_of_false (by nofun) ?_
      omega
  · exact iff_of_true rfl (.inl (by omega))

/-- The sources that have an error. -/
theorem mem_errors_iff {cpu : Option F32} {memoryTotal : Option UInt64} {disks : List DiskMetric}
    {interfaces : Nat} {source : String} :
    (∃ error ∈ SystemCollector.errors cpu memoryTotal disks interfaces, error.source = source) ↔
      (source = "cpu" ∧ cpu = none) ∨ (source = "memory" ∧ memoryTotal = none) ∨
        (source = "disk" ∧ disks = []) ∨ (source = "network" ∧ interfaces = 0) := by
  have hone : ∀ {p : Prop} [Decidable p] {name message : String},
      (∃ error ∈ (if p then [unavailable name message] else []), error.source = source) ↔
        source = name ∧ p := by
    intro p _ name message
    split
    · next hp => simp [unavailable, hp, eq_comm]
    · next hp => simp [hp]
  simp only [SystemCollector.errors, List.mem_append, or_and_right, exists_or, hone, or_assoc]

/-- Every sample of the collector is sound. -/
theorem SystemCollector.measure_sound (c : SystemCollector) (elapsed : Nat) (uptime : UInt64)
    (timestampMs : Int) :
    (c.measure elapsed uptime timestampMs).Sound c.networks.length elapsed := by
  have herrs : ∀ source, (c.measure elapsed uptime timestampMs).Errs source ↔ _ :=
    fun source => mem_errors_iff
  refine ⟨?_, ?_, Option.map_eq_none_iff, ?_, ?_, ?_, ?_, ?_, ?_, ?_⟩
  · rw [herrs]
    simp [measure]
  · rw [herrs]
    simp [measure]
  · rw [herrs]
    simp [measure]
  · intro d hd
    obtain ⟨disk, -, hdisk⟩ := List.mem_filterMap.1 hd
    exact diskMetric_range hdisk
  · rw [herrs]
    simp only [measure, networkMetric_eq_none_iff]
    simp
  · rw [herrs]
    simp
  · intro error herror
    rcases (herrs error.source).1 ⟨error, herror, rfl⟩ with h | h | h | h
    · simp [h.1]
    · simp [h.1]
    · simp [h.1]
    · simp [h.1]
  · exact fun v hv => readableCpuPercent_finite hv
  · exact fun t ht => hottestTemperature_finite ht

end

/-! ## Runs -/

namespace SystemCollector

/-- What a call of `sample` offers the disks. -/
def diskOffer (reading : Host.Reading) : Offer (List HostDisk) := ⟨reading.now, reading.disks⟩

/-- What a call of `sample` offers the sensors. -/
def temperatureOffer (reading : Host.Reading) : Offer (List HostComponent) :=
  ⟨reading.now, reading.components⟩

/-- The disks of a collector, as a reading that is kept. -/
def diskCache (c : SystemCollector) : Cached (List HostDisk) := ⟨c.disks, c.lastDiskRefresh⟩

/-- The sensors of a collector, as a reading that is kept. -/
def temperatureCache (c : SystemCollector) : Cached (List HostComponent) :=
  ⟨c.components, c.lastTemperatureRefresh⟩

/-- The times at which a list of calls of `sample` reads the disks. -/
def diskRefreshes (c : SystemCollector) : List Host.Reading → List Nat
  | [] => []
  | reading :: readings =>
    let times := diskRefreshes (c.refresh reading) readings
    if due c.lastDiskRefresh diskRefreshInterval reading.now then reading.now :: times else times

/-- The times at which a list of calls of `sample` reads the sensors. -/
def temperatureRefreshes (c : SystemCollector) : List Host.Reading → List Nat
  | [] => []
  | reading :: readings =>
    let times := temperatureRefreshes (c.refresh reading) readings
    if due c.lastTemperatureRefresh temperatureRefreshInterval reading.now then
      reading.now :: times
    else times

section
variable {c : SystemCollector} {reading first : Host.Reading} {readings : List Host.Reading}

/-- A call of `sample` refreshes the disks as a kept reading is refreshed. -/
theorem diskCache_refresh (c : SystemCollector) (reading : Host.Reading) :
    (c.refresh reading).diskCache =
      c.diskCache.refresh diskRefreshInterval (diskOffer reading) := by
  by_cases hdue : due c.diskCache.readAt diskRefreshInterval (diskOffer reading).now = true
  · have hsource : due c.lastDiskRefresh diskRefreshInterval reading.now = true := hdue
    rw [Cached.refresh_of_due hdue]
    simp only [diskCache, refresh, if_pos hsource, diskOffer]
  · have hsource : ¬ due c.lastDiskRefresh diskRefreshInterval reading.now = true := hdue
    rw [Cached.refresh_of_not_due hdue]
    simp only [diskCache, refresh, if_neg hsource]

/-- A call of `sample` refreshes the sensors as a kept reading is refreshed. -/
theorem temperatureCache_refresh (c : SystemCollector) (reading : Host.Reading) :
    (c.refresh reading).temperatureCache =
      c.temperatureCache.refresh temperatureRefreshInterval (temperatureOffer reading) := by
  by_cases hdue : due c.temperatureCache.readAt temperatureRefreshInterval
      (temperatureOffer reading).now = true
  · have hsource : due c.lastTemperatureRefresh temperatureRefreshInterval reading.now = true :=
      hdue
    rw [Cached.refresh_of_due hdue]
    simp only [temperatureCache, refresh, if_pos hsource, temperatureOffer]
  · have hsource : ¬ due c.lastTemperatureRefresh temperatureRefreshInterval reading.now = true :=
      hdue
    rw [Cached.refresh_of_not_due hdue]
    simp only [temperatureCache, refresh, if_neg hsource]

/-- The disks after a list of calls. -/
theorem diskCache_after (c : SystemCollector) (readings : List Host.Reading) :
    (c.after readings).diskCache =
      c.diskCache.after diskRefreshInterval (readings.map diskOffer) := by
  induction readings generalizing c with
  | nil => rfl
  | cons reading readings ih =>
    show ((c.refresh reading).after readings).diskCache = _
    rw [ih, diskCache_refresh]
    rfl

/-- The sensors after a list of calls. -/
theorem temperatureCache_after (c : SystemCollector) (readings : List Host.Reading) :
    (c.after readings).temperatureCache =
      c.temperatureCache.after temperatureRefreshInterval (readings.map temperatureOffer) := by
  induction readings generalizing c with
  | nil => rfl
  | cons reading readings ih =>
    show ((c.refresh reading).after readings).temperatureCache = _
    rw [ih, temperatureCache_refresh]
    rfl

/-- The disks are read when a kept reading is. -/
theorem diskRefreshes_eq (c : SystemCollector) (readings : List Host.Reading) :
    c.diskRefreshes readings =
      c.diskCache.readTimes diskRefreshInterval (readings.map diskOffer) := by
  induction readings generalizing c with
  | nil => rfl
  | cons reading readings ih =>
    rw [diskRefreshes, ih, diskCache_refresh]
    rfl

/-- The sensors are read when a kept reading is. -/
theorem temperatureRefreshes_eq (c : SystemCollector) (readings : List Host.Reading) :
    c.temperatureRefreshes readings =
      c.temperatureCache.readTimes temperatureRefreshInterval
        (readings.map temperatureOffer) := by
  induction readings generalizing c with
  | nil => rfl
  | cons reading readings ih =>
    rw [temperatureRefreshes, ih, temperatureCache_refresh]
    rfl

/-- One more call comes last. -/
theorem after_append_singleton (c : SystemCollector) (readings : List Host.Reading)
    (reading : Host.Reading) :
    c.after (readings ++ [reading]) = (c.after readings).refresh reading := by
  rw [after, after, List.foldl_append]
  rfl

/-- The sample of one more call comes last. -/
theorem collect_append_singleton (c : SystemCollector) (readings : List Host.Reading)
    (reading : Host.Reading) :
    c.collect (readings ++ [reading]) =
      c.collect readings ++ [((c.after readings).sample reading).2] := by
  induction readings generalizing c with
  | nil => rfl
  | cons earlier readings ih =>
    show (c.sample earlier).2 :: (c.refresh earlier).collect (readings ++ [reading]) = _
    rw [ih]
    rfl

/-- A sum that stops at the largest number. -/
theorem toNat_satAddU64 (x y : UInt64) :
    (satAddU64 x y).toNat = min (x.toNat + y.toNat) (2 ^ 64 - 1) := by
  have hlt : min (x.toNat + y.toNat) (2 ^ 64 - 1) < 2 ^ 64 := by omega
  exact UInt64.toNat_ofNat_of_lt' hlt

/-- The samples of a collector are counted, up to the largest number. -/
theorem sequence_after (first : Host.Reading) (readings : List Host.Reading) :
    ((new first).after readings).sequence.toNat = min readings.length (2 ^ 64 - 1) := by
  induction readings using List.reverseRecOn with
  | nil => rfl
  | append_singleton readings reading ih =>
    rw [after_append_singleton]
    show (satAddU64 _ 1).toNat = _
    rw [toNat_satAddU64, ih, List.length_append, List.length_singleton, UInt64.toNat_one]
    omega

/-- The samples of a run have growing sequence numbers, until the largest number is reached. -/
theorem sequences_collect (hlength : readings.length < 2 ^ 64) :
    ((new first).collect readings).Pairwise (·.sequence < ·.sequence) ∧
      ∀ s ∈ (new first).collect readings, s.sequence.toNat ≤ readings.length := by
  induction readings using List.reverseRecOn with
  | nil => exact ⟨.nil, List.forall_mem_nil _⟩
  | append_singleton readings reading ih =>
    rw [List.length_append, List.length_singleton] at hlength ⊢
    obtain ⟨hpairwise, hbound⟩ := ih (by omega)
    have hlast := sequence_after first (readings ++ [reading])
    rw [List.length_append, List.length_singleton, after_append_singleton] at hlast
    rw [collect_append_singleton, List.pairwise_append]
    have hsequence : (((new first).after readings).sample reading).2.sequence.toNat =
        min (readings.length + 1) (2 ^ 64 - 1) := hlast
    refine ⟨⟨hpairwise, List.pairwise_singleton _ _, fun a ha b hb => ?_⟩, fun s hs => ?_⟩
    · rw [List.mem_singleton.1 hb, UInt64.lt_iff_toNat_lt, hsequence]
      have hle := hbound a ha
      omega
    · rcases List.mem_append.1 hs with hs | hs
      · exact (hbound s hs).trans (Nat.le_succ _)
      · rw [List.mem_singleton.1 hs, hsequence]
        omega

/-- Every sample of a run is a sample of the collector after the calls before it. -/
theorem mem_collect {s : MetricSample} (h : s ∈ c.collect readings) :
    ∃ before reading, before ++ [reading] <+: readings ∧
      s = ((c.after before).sample reading).2 := by
  induction readings using List.reverseRecOn with
  | nil => cases h
  | append_singleton readings reading ih =>
    rw [collect_append_singleton] at h
    rcases List.mem_append.1 h with h | h
    · obtain ⟨before, earlier, hprefix, heq⟩ := ih h
      exact ⟨before, earlier, hprefix.trans (List.prefix_append _ _), heq⟩
    · exact ⟨readings, reading, List.prefix_rfl, List.mem_singleton.1 h⟩

/-- The floats of the samples of a run are finite. -/
theorem finite_of_mem_collect {s : MetricSample} (h : s ∈ c.collect readings) : s.Finite := by
  obtain ⟨before, reading, -, rfl⟩ := mem_collect h
  exact (measure_sound ..).finite

end

/-! ## The results -/

/-- The sample of every call, whatever the host showed before and however the clock went: it is
numbered by the calls, it is sound, and its disks and its sensor are those of a reading of the host
that is younger than the refresh interval. -/
theorem collected (first : Host.Reading) (readings : List Host.Reading) (reading : Host.Reading) :
    let c := (new first).after readings
    let s := (c.sample reading).2
    s.sequence.toNat = min (readings.length + 1) (2 ^ 64 - 1) ∧
      s.Sound reading.interfaces.length (reading.networkNow - c.lastNetworkRefresh) ∧
      ((s.disks = first.disks.filterMap diskMetric ∧
          reading.now - first.networkNow < diskRefreshInterval) ∨
        ∃ earlier ∈ readings ++ [reading], s.disks = earlier.disks.filterMap diskMetric ∧
          reading.now - earlier.now < diskRefreshInterval) ∧
      ((s.temperature = hottestTemperature first.components ∧
          reading.now - first.refreshedNow < temperatureRefreshInterval) ∨
        ∃ earlier ∈ readings ++ [reading],
          s.temperature = hottestTemperature earlier.components ∧
            reading.now - earlier.now < temperatureRefreshInterval) := by
  intro c s
  have hafter : (new first).after (readings ++ [reading]) = c.refresh reading :=
    after_append_singleton ..
  refine ⟨?_, measure_sound .., ?_, ?_⟩
  · have hcount := sequence_after first (readings ++ [reading])
    rw [hafter, List.length_append, List.length_singleton] at hcount
    exact hcount
  · have hcache : (c.refresh reading).diskCache =
        (new first).diskCache.after diskRefreshInterval
          ((readings ++ [reading]).map diskOffer) := by
      rw [← diskCache_after, hafter]
    have hage : (diskOffer reading).now - (c.diskCache.refresh diskRefreshInterval
        (diskOffer reading)).readAt < diskRefreshInterval := Cached.age_refresh (by decide)
    rw [← diskCache_refresh] at hage
    rcases Cached.after_cases diskRefreshInterval (new first).diskCache
        ((readings ++ [reading]).map diskOffer) with hfirst | ⟨offer, hoffer, hlater⟩
    · rw [hcache, hfirst] at hage
      refine .inl ⟨?_, hage⟩
      exact congrArg (fun cache => cache.value.filterMap diskMetric) (hcache.trans hfirst)
    · obtain ⟨earlier, hearlier, rfl⟩ := List.mem_map.1 hoffer
      rw [hcache, hlater] at hage
      refine .inr ⟨earlier, hearlier, ?_, hage⟩
      exact congrArg (fun cache => cache.value.filterMap diskMetric) (hcache.trans hlater)
  · have hcache : (c.refresh reading).temperatureCache =
        (new first).temperatureCache.after temperatureRefreshInterval
          ((readings ++ [reading]).map temperatureOffer) := by
      rw [← temperatureCache_after, hafter]
    have hage : (temperatureOffer reading).now - (c.temperatureCache.refresh
        temperatureRefreshInterval (temperatureOffer reading)).readAt <
          temperatureRefreshInterval := Cached.age_refresh (by decide)
    rw [← temperatureCache_refresh] at hage
    rcases Cached.after_cases temperatureRefreshInterval (new first).temperatureCache
        ((readings ++ [reading]).map temperatureOffer) with hfirst | ⟨offer, hoffer, hlater⟩
    · rw [hcache, hfirst] at hage
      refine .inl ⟨?_, hage⟩
      exact congrArg (fun cache => hottestTemperature cache.value) (hcache.trans hfirst)
    · obtain ⟨earlier, hearlier, rfl⟩ := List.mem_map.1 hoffer
      rw [hcache, hlater] at hage
      refine .inr ⟨earlier, hearlier, ?_, hage⟩
      exact congrArg (fun cache => hottestTemperature cache.value) (hcache.trans hlater)

/-- The collector declares the capability as supported. -/
def Declares (c : SystemCollector) (name : String) : Prop :=
  ∃ declared ∈ c.capabilities, declared.name = name ∧ declared.state = .supported

/-- A capability is declared when its source is readable. -/
theorem declares_iff (c : SystemCollector) (name : String) :
    c.Declares name ↔
      (name = "cpu" ∧ (readableCpuPercent c.system.cpus c.system.globalCpuUsage).isSome) ∨
      (name = "memory" ∧ (readableMemoryTotal c.system.totalMemory).isSome) ∨ name = "swap" ∨
      (name = "disk" ∧ c.disks ≠ []) ∨ (name = "network" ∧ c.networks ≠ []) ∨
      (name = "temperature" ∧ (hottestTemperature c.components).isSome) := by
  have hone : ∀ {supported : Bool} {label detail : String},
      ((capability label supported detail).name = name ∧
        (capability label supported detail).state = .supported) ↔
          name = label ∧ supported = true := by
    intro supported label detail
    refine and_congr eq_comm ?_
    cases supported with
    | false => exact iff_of_false nofun nofun
    | true => exact iff_of_true rfl rfl
  simp only [Declares, capabilities, capabilitiesFrom, List.mem_cons, List.not_mem_nil, or_false,
    or_and_right, exists_or, exists_eq_left, hone, decide_eq_true_eq, List.length_pos_iff,
    and_true]

/-- What is declared as unsupported carries a reason, and nothing else does. -/
theorem declared_reason (c : SystemCollector) :
    ∀ declared ∈ c.capabilities, declared.state = .supported ↔ declared.detail = none := by
  have hone : ∀ {supported : Bool} {label detail : String}, detail ≠ "" ∨ supported = true →
      ((capability label supported detail).state = .supported ↔
        (capability label supported detail).detail = none) := by
    intro supported label detail h
    cases supported with
    | false =>
      have hdetail := h.resolve_right nofun
      simp [capability, hdetail]
    | true => exact iff_of_true rfl rfl
  intro declared hdeclared
  simp only [capabilities, capabilitiesFrom, List.mem_cons, List.not_mem_nil, or_false] at hdeclared
  rcases hdeclared with rfl | rfl | rfl | rfl | rfl | rfl
  · exact hone (.inl (by decide))
  · exact hone (.inl (by decide))
  · exact hone (.inr rfl)
  · exact hone (.inl (by decide))
  · exact hone (.inl (by decide))
  · exact hone (.inl (by decide))

/-- What the collector declares after any calls and what its last sample carries cannot disagree:
the CPU, the memory and the sensor are declared exactly when they are measured, the network when no
error names it, and a disk that is measured is declared; what is not declared carries its reason. -/
theorem capabilities_agree (first : Host.Reading) (readings : List Host.Reading)
    (reading : Host.Reading) :
    let c := ((new first).after readings).sample reading
    (c.1.Declares "cpu" ↔ c.2.cpuPercent ≠ none) ∧
      (c.1.Declares "memory" ↔ c.2.memoryTotalBytes ≠ none) ∧
      (c.1.Declares "temperature" ↔ c.2.temperature ≠ none) ∧
      (c.1.Declares "network" ↔ ¬ c.2.Errs "network") ∧
      (c.2.disks ≠ [] → c.1.Declares "disk") ∧
      ∀ declared ∈ c.1.capabilities, declared.state = .supported ↔ declared.detail = none := by
  intro c
  refine ⟨?_, ?_, ?_, ?_, fun hdisks => ?_, declared_reason c.1⟩
  · simp only [declares_iff, String.reduceEq, false_and, or_false, true_and, ne_eq,
      Option.isSome_iff_ne_none]
    rfl
  · simp only [declares_iff, String.reduceEq, false_and, or_false, false_or, true_and, ne_eq,
      Option.isSome_iff_ne_none]
    rfl
  · simp only [declares_iff, String.reduceEq, false_and, false_or, true_and, ne_eq,
      Option.isSome_iff_ne_none]
    rfl
  · have hsound := measure_sound c.1 (reading.networkNow -
      ((new first).after readings).lastNetworkRefresh) reading.uptime reading.timestampMs
    have herror : c.2.Errs "network" ↔ c.1.networks.length = 0 := hsound.networkError
    simp only [declares_iff, String.reduceEq, false_and, or_false, false_or, true_and, herror,
      List.length_eq_zero_iff, ne_eq]
  · simp only [declares_iff, String.reduceEq, false_and, or_false, false_or, true_and]
    intro hnone
    refine hdisks ?_
    show c.1.disks.filterMap diskMetric = []
    rw [hnone]
    rfl

end SystemCollector

end Rackio
