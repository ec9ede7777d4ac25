import Rackio.Core.Model
import Rackio.Protocol.Framing

/-!
# Samples on the wire

The protobuf messages a sample travels in, and the two conversions: `protocol::metric_sample` of the
server, from the core record to the message, and `client::metric_sample` of the viewer, back.
Neither forgets a field (`MetricSample.fromWire_toWire`): a sample comes back as it was, but for a
reading that is not finite, which comes back absent.

The encoding of the messages is code of another crate, `Prost` with its two functions. What is asked
of it is that a message comes back with the same values: a plain float that equals zero is left out
of the encoding, so that a negative zero may come back as zero.
-/

namespace Rackio

/-! ## The same value -/

/-- A zero of either sign. -/
def F32.isZero (x : F32) : Bool := x.bits <<< 1 == 0

/-- Two floats that are the same but for the sign of a zero. Of floats that are no NaN, these are
the ones the source's `==` calls equal. -/
def F32.SameValue (x y : F32) : Prop := x = y ∨ x.isZero ∧ y.isZero

theorem F32.SameValue.refl (x : F32) : x.SameValue x := .inl rfl

/-- A zero is finite. -/
theorem F32.isFinite_of_isZero {x : F32} (h : x.isZero) : x.isFinite := by
  have hbits : x.bits = 0 ∨ x.bits = 0x80000000 := by
    have hshift : x.bits <<< 1 = 0 := beq_iff_eq.1 h
    have hnat := congrArg UInt32.toNat hshift
    rw [UInt32.toNat_shiftLeft] at hnat
    simp only [UInt32.reduceToNat, Nat.reduceMod, Nat.shiftLeft_eq, pow_one] at hnat
    have hlt := x.bits.toNat_lt
    rcases (show x.bits.toNat = 0 ∨ x.bits.toNat = 0x80000000 by omega) with hzero | hsign
    · exact .inl (UInt32.toNat_inj.1 hzero)
    · exact .inr (UInt32.toNat_inj.1 hsign)
  unfold F32.isFinite
  rcases hbits with hbits | hbits
  · rw [hbits]
    decide
  · rw [hbits]
    decide

/-- The same value is finite on both sides or on neither. -/
theorem F32.SameValue.isFinite_eq {x y : F32} (h : x.SameValue y) : x.isFinite = y.isFinite := by
  rcases h with rfl | ⟨hx, hy⟩
  · rfl
  · rw [F32.isFinite_of_isZero hx, F32.isFinite_of_isZero hy]

section
variable {α β : Type} {r : α → β → Prop}

/-- A filter that agrees on related values keeps the relation. -/
theorem rel_filter {p : α → Bool} {q : β → Bool} (hpq : ∀ a b, r a b → p a = q b) {x : Option α}
    {y : Option β} (h : Option.Rel r x y) : Option.Rel r (x.filter p) (y.filter q) := by
  cases h with
  | none => exact .none
  | @some a b hab =>
    rw [Option.filter_some, Option.filter_some, hpq a b hab]
    split
    · exact .some hab
    · exact .none

end

/-- The same sensor with the same values. -/
structure TemperatureMetric.Same (a b : TemperatureMetric) : Prop where
  label : a.label = b.label
  celsius : a.celsius.SameValue b.celsius
  criticalCelsius : Option.Rel F32.SameValue a.criticalCelsius b.criticalCelsius
  sensorCount : a.sensorCount = b.sensorCount

/-- The same sample: the source's `==` on samples whose floats are finite. -/
structure MetricSample.Same (a b : MetricSample) : Prop where
  cpuPercent : Option.Rel F32.SameValue a.cpuPercent b.cpuPercent
  temperature : Option.Rel TemperatureMetric.Same a.temperature b.temperature
  /-- Every field without a float is equal. -/
  others : { a with cpuPercent := none, temperature := none } =
    { b with cpuPercent := none, temperature := none }

/-! ## Messages -/

namespace Wire

/-- The message `DiskMetric`. -/
structure DiskMetric where
  mount : String
  totalBytes : UInt64
  usedBytes : UInt64
  deriving DecidableEq, Repr

/-- The message `TemperatureMetric`. -/
structure TemperatureMetric where
  label : String
  celsius : F32
  criticalCelsius : Option F32
  sensorCount : UInt32
  deriving DecidableEq, Repr

/-- The message `NetworkMetric`. -/
structure NetworkMetric where
  receivedBytesPerSecond : UInt64
  sentBytesPerSecond : UInt64
  deriving DecidableEq, Repr

/-- The message `CollectorError`; an enumeration is a number, which need not be one of its
values. -/
structure CollectorError where
  source : String
  kind : Int
  message : String
  deriving DecidableEq, Repr

/-- The message `MetricSample`. -/
structure MetricSample where
  timestampMs : Int
  sequence : UInt64
  cpuPercent : Option F32
  memoryUsedBytes : Option UInt64
  memoryTotalBytes : Option UInt64
  swapUsedBytes : Option UInt64
  swapTotalBytes : Option UInt64
  disks : List DiskMetric
  network : Option NetworkMetric
  uptimeSeconds : UInt64
  errors : List CollectorError
  temperature : Option TemperatureMetric
  deriving DecidableEq, Repr

/-- The bodies of the message `Response`. Those that no history function reads are kept as the
number of their field and their bytes. -/
inductive ResponseBody
  | metricSample (sample : MetricSample)
  | error (code message : String)
  | streamComplete
  | other (field : Nat) (bytes : List UInt8)
  deriving DecidableEq, Repr

/-- The message `Response`. -/
structure Response where
  body : Option ResponseBody
  deriving DecidableEq, Repr

/-- The same sensor with the same values. -/
structure TemperatureMetric.Same (a b : TemperatureMetric) : Prop where
  label : a.label = b.label
  celsius : a.celsius.SameValue b.celsius
  criticalCelsius : Option.Rel F32.SameValue a.criticalCelsius b.criticalCelsius
  sensorCount : a.sensorCount = b.sensorCount

/-- The same sample. -/
structure MetricSample.Same (a b : MetricSample) : Prop where
  cpuPercent : Option.Rel F32.SameValue a.cpuPercent b.cpuPercent
  temperature : Option.Rel TemperatureMetric.Same a.temperature b.temperature
  /-- Every field without a float is equal. -/
  others : { a with cpuPercent := none, temperature := none } =
    { b with cpuPercent := none, temperature := none }

/-- An optional value has the same values as itself. -/
theorem rel_refl {α : Type} {r : α → α → Prop} (h : ∀ a, r a a) (x : Option α) :
    Option.Rel r x x := by
  cases x with
  | none => exact .none
  | some a => exact .some (h a)

theorem MetricSample.Same.refl (sample : MetricSample) : sample.Same sample := by
  refine ⟨rel_refl F32.SameValue.refl _, rel_refl (fun temperature => ?_) _, rfl⟩
  exact ⟨rfl, .refl _, rel_refl F32.SameValue.refl _, rfl⟩

/-- The same response. Only a sample has floats. -/
inductive Response.Same : Response → Response → Prop
  | refl (response : Response) : Same response response
  | metricSample {a b : MetricSample} (h : a.Same b) :
    Same ⟨some (.metricSample a)⟩ ⟨some (.metricSample b)⟩

/-- The two functions of the message encoding. -/
structure Prost where
  encode : Response → List UInt8
  decode : List UInt8 → Except String Response

/-- Decoding gives the message back. -/
def Prost.RoundTrips (p : Prost) (response : Response) : Prop :=
  ∃ decoded, p.decode (p.encode response) = .ok decoded ∧ response.Same decoded

end Wire

/-! ## The server -/

/-- The server's `capability_state`. -/
def CapabilityState.toWire : CapabilityState → Int
  | .supported => 1
  | .unsupported => 2
  | .permissionDenied => 3

/-- The source's `protocol::metric_sample`. -/
def MetricSample.toWire (sample : MetricSample) : Wire.MetricSample where
  timestampMs := sample.timestampMs
  sequence := sample.sequence
  cpuPercent := sample.cpuPercent
  memoryUsedBytes := sample.memoryUsedBytes
  memoryTotalBytes := sample.memoryTotalBytes
  swapUsedBytes := sample.swapUsedBytes
  swapTotalBytes := sample.swapTotalBytes
  disks := sample.disks.map fun disk => ⟨disk.mount, disk.totalBytes, disk.usedBytes⟩
  network := sample.network.map fun network =>
    ⟨network.receivedBytesPerSecond, network.sentBytesPerSecond⟩
  temperature := sample.temperature.map fun temperature =>
    ⟨temperature.label, temperature.celsius, temperature.criticalCelsius, temperature.sensorCount⟩
  uptimeSeconds := sample.uptimeSeconds
  errors := sample.errors.map fun error => ⟨error.source, error.kind.toWire, error.message⟩

/-! ## The viewer -/

/-- The viewer's `capability_state`. -/
def CapabilityState.fromWire (state : Int) : CapabilityState :=
  if state = 1 then .supported
  else if state = 3 then .permissionDenied
  -- An unspecified or unknown number counts as unsupported.
  else .unsupported

/-- A temperature of the source's `client::metric_sample`: a reading that is not finite is none. -/
def TemperatureMetric.fromWire (temperature : Wire.TemperatureMetric) : Option TemperatureMetric :=
  if temperature.celsius.isFinite then
    some ⟨temperature.label, temperature.celsius,
      temperature.criticalCelsius.filter F32.isFinite, temperature.sensorCount⟩
  else none

/-- The source's `client::metric_sample`. -/
def MetricSample.fromWire (sample : Wire.MetricSample) : MetricSample where
  timestampMs := sample.timestampMs
  sequence := sample.sequence
  cpuPercent := sample.cpuPercent.filter F32.isFinite
  memoryUsedBytes := sample.memoryUsedBytes
  memoryTotalBytes := sample.memoryTotalBytes
  swapUsedBytes := sample.swapUsedBytes
  swapTotalBytes := sample.swapTotalBytes
  disks := sample.disks.map fun disk => ⟨disk.mount, disk.totalBytes, disk.usedBytes⟩
  network := sample.network.map fun network =>
    ⟨network.receivedBytesPerSecond, network.sentBytesPerSecond⟩
  temperature := sample.temperature.bind TemperatureMetric.fromWire
  uptimeSeconds := sample.uptimeSeconds
  errors := sample.errors.map fun error =>
    ⟨error.source, CapabilityState.fromWire error.kind, error.message⟩

/-- The viewer reads the capability states the server writes. -/
theorem CapabilityState.fromWire_toWire (state : CapabilityState) :
    CapabilityState.fromWire state.toWire = state := by
  cases state <;> rfl

/-- The lists and the network of a sample survive the two conversions. -/
theorem map_fromWire_toWire (sample : MetricSample) :
    (sample.toWire.disks.map fun disk =>
        (⟨disk.mount, disk.totalBytes, disk.usedBytes⟩ : DiskMetric)) = sample.disks ∧
      (sample.toWire.network.map fun network =>
        (⟨network.receivedBytesPerSecond, network.sentBytesPerSecond⟩ : NetworkMetric)) =
          sample.network ∧
      (sample.toWire.errors.map fun error =>
        (⟨error.source, CapabilityState.fromWire error.kind, error.message⟩ : CollectorError)) =
          sample.errors := by
  refine ⟨?_, ?_, ?_⟩
  · rw [MetricSample.toWire, List.map_map]
    exact List.map_id' _
  · rw [MetricSample.toWire, Option.map_map]
    exact Option.map_id'
  · rw [MetricSample.toWire, List.map_map]
    refine (List.map_congr_left fun error _ => ?_).trans (List.map_id' _)
    show CollectorError.mk error.source (CapabilityState.fromWire error.kind.toWire) error.message =
      error
    rw [CapabilityState.fromWire_toWire]

/-- A sample comes back with every field, and without the readings that are not finite. -/
theorem MetricSample.fromWire_toWire (sample : MetricSample) :
    MetricSample.fromWire sample.toWire =
      { sample with
        cpuPercent := sample.cpuPercent.filter F32.isFinite
        temperature := sample.temperature.bind fun temperature =>
          if temperature.celsius.isFinite then
            some { temperature with
              criticalCelsius := temperature.criticalCelsius.filter F32.isFinite }
          else none } := by
  obtain ⟨hdisks, hnetwork, herrors⟩ := map_fromWire_toWire sample
  rw [MetricSample.fromWire, hdisks, hnetwork, herrors]
  simp only [MetricSample.toWire, Option.bind_map]
  rfl

/-- The viewer reads the sample the server sampled, when its floats are readings. -/
theorem MetricSample.fromWire_toWire_of_finite {sample : MetricSample} (h : sample.Finite) :
    MetricSample.fromWire sample.toWire = sample := by
  obtain ⟨hcpu, htemperature⟩ := h
  rw [MetricSample.fromWire_toWire, filter_eq_self_of_forall hcpu]
  cases ht : sample.temperature with
  | none => rw [Option.bind_none, ← ht]
  | some temperature =>
    obtain ⟨hcelsius, hcritical⟩ := htemperature temperature ht
    rw [Option.bind_some, if_pos hcelsius, filter_eq_self_of_forall hcritical, ← ht]

/-- The viewer keeps the same samples the same. -/
theorem MetricSample.fromWire_same {a b : Wire.MetricSample} (h : a.Same b) :
    (MetricSample.fromWire a).Same (.fromWire b) := by
  have hothers := h.others
  refine ⟨rel_filter (fun _ _ hxy => hxy.isFinite_eq) h.cpuPercent, ?_, ?_⟩
  · show Option.Rel _ (a.temperature.bind _) (b.temperature.bind _)
    have htemp := h.temperature
    generalize a.temperature = s at htemp
    generalize b.temperature = t at htemp
    cases htemp with
    | none => exact .none
    | @some x y hxy =>
      rw [Option.bind_some, Option.bind_some, TemperatureMetric.fromWire,
        TemperatureMetric.fromWire, hxy.celsius.isFinite_eq]
      split
      · refine .some ⟨hxy.label, hxy.celsius, ?_, hxy.sensorCount⟩
        exact rel_filter (fun _ _ hcritical => hcritical.isFinite_eq) hxy.criticalCelsius
      · exact .none
  · exact congrArg
      (fun w => { MetricSample.fromWire w with cpuPercent := none, temperature := none }) hothers

end Rackio
