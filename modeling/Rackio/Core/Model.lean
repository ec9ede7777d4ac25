import Rackio.Lib.Greatest

/-!
# The data model

The records of `rackio-core/src/model.rs` that every component exchanges: samples, node information,
health and the live trend window. A 64-bit reading is a `UInt64`; a timestamp is an `Int`, with the
`i64` bounds stated where a function can leave them. A floating-point value is its bit pattern, so
that finiteness and equality are decided without a model of rounding.
-/

namespace Rackio

/-! ## Machine numbers -/

/-- A 32-bit float, as its bit pattern. -/
structure F32 where
  bits : UInt32
  deriving DecidableEq, Repr, Inhabited

/-- A 64-bit float, as its bit pattern. -/
structure F64 where
  bits : UInt64
  deriving DecidableEq, Repr, Inhabited

/-- The source's `f32::is_finite`: the exponent is not all ones. -/
def F32.isFinite (x : F32) : Bool := (x.bits >>> 23) &&& 0xFF != 0xFF

/-- The source's `f64::is_finite`: the exponent is not all ones. -/
def F64.isFinite (x : F64) : Bool := (x.bits >>> 52) &&& 0x7FF != 0x7FF

/-- The source's `f64::is_nan`: the exponent is all ones and the fraction is not zero. -/
def F64.isNaN (x : F64) : Bool := !x.isFinite && x.bits <<< 12 != 0

/-- The largest `i64`. -/
def i64Max : Int := 9223372036854775807

/-- The smallest `i64`. -/
def i64Min : Int := -9223372036854775808

/-- The integers an `i64` holds. -/
def FitsI64 (x : Int) : Prop := i64Min ≤ x ∧ x ≤ i64Max

instance (x : Int) : Decidable (FitsI64 x) := inferInstanceAs (Decidable (_ ∧ _))

/-- The source's `i64::try_from` of a `u64`. -/
def tryI64 (x : UInt64) : Option Int := if (x.toNat : Int) ≤ i64Max then some x.toNat else none

/-- The source's `i64` addition that stops at the bounds (`i64::saturating_add`). -/
def satAddI64 (x y : Int) : Int := max i64Min (min i64Max (x + y))

/-- The source's `i64` subtraction that stops at the bounds (`i64::saturating_sub`). -/
def satSubI64 (x y : Int) : Int := max i64Min (min i64Max (x - y))

/-- The value an `i64` operation wraps to in a build without overflow checks. -/
def wrapI64 (x : Int) : Int := (x + 2 ^ 63) % 2 ^ 64 - 2 ^ 63

/-- An integer that fits does not wrap. -/
theorem wrapI64_of_fits {x : Int} (h : FitsI64 x) : wrapI64 x = x := by
  obtain ⟨h1, h2⟩ := h
  unfold i64Min at h1
  unfold i64Max at h2
  unfold wrapI64
  omega

/-- A reading read as an `i64` is itself, and is not negative. -/
theorem tryI64_eq_some {x : UInt64} {n : Int} (h : tryI64 x = some n) :
    n = x.toNat ∧ 0 ≤ n ∧ n ≤ i64Max := by
  unfold tryI64 at h
  split at h
  · cases h
    exact ⟨rfl, Int.natCast_nonneg _, ‹_›⟩
  · cases h

/-- The source's `Iterator::max_by`: the greatest element, the last one among equals. -/
def maxBy {α : Type} (cmp : α → α → Ordering) : List α → Option α
  | [] => none
  | x :: xs => some (xs.foldl (fun best y => if cmp best y = .gt then best else y) x)

/-- The greatest element is an element. -/
theorem mem_of_maxBy {α : Type} {cmp : α → α → Ordering} {l : List α} {a : α}
    (h : maxBy cmp l = some a) : a ∈ l := by
  cases l with
  | nil => cases h
  | cons x l =>
    cases h
    induction l using List.reverseRecOn with
    | nil => exact .head _
    | append_singleton l y ih =>
      rw [List.foldl_append, List.foldl_cons, List.foldl_nil]
      split
      · exact List.mem_append_left [y] ih
      · exact List.mem_append_right (x :: l) (.head _)

/-- The greatest element of a mapped list. -/
theorem maxBy_map {α β : Type} (cmp : β → β → Ordering) (f : α → β) (l : List α) :
    maxBy cmp (l.map f) = (maxBy (fun a b => cmp (f a) (f b)) l).map f := by
  cases l with
  | nil => rfl
  | cons x l =>
    show some _ = some _
    rw [List.foldl_map]
    induction l generalizing x with
    | nil => rfl
    | cons y l ih =>
      rw [List.foldl_cons, List.foldl_cons, ← apply_ite f]
      exact ih _

/-- The greatest element in the order of a key is the last of those with the greatest key. -/
theorem maxBy_eq_some_iff {α κ : Type} [LinearOrder κ] {cmp : α → α → Ordering} {key : α → κ}
    {l : List α} {x : α} (hcmp : ∀ a ∈ l, ∀ b ∈ l, cmp a b = compare (key a) (key b)) :
    maxBy cmp l = some x ↔ LastGreatest key l x := by
  have hfold : ∀ (first : α) (rest : List α), first ∈ l → (∀ a ∈ rest, a ∈ l) →
      rest.foldl (fun best y => if cmp best y = .gt then best else y) first =
        rest.foldl (fun best y => if key y < key best then best else y) first := by
    intro first rest hfirst hrest
    induction rest generalizing first with
    | nil => rfl
    | cons y rest ih =>
      have hy := hrest y (.head _)
      rw [List.foldl_cons, List.foldl_cons, hcmp first hfirst y hy]
      simp only [compare_gt_iff_gt]
      refine ih _ ?_ fun a ha => hrest a (.tail _ ha)
      split
      · exact hfirst
      · exact hy
  cases l with
  | nil =>
    refine iff_of_false nofun ?_
    rintro ⟨before, after, h, -⟩
    exact List.cons_ne_nil _ _ (List.append_eq_nil_iff.1 h.symm).2
  | cons first rest =>
    have hlast := lastGreatest_foldl key first rest
    rw [← hfold first rest (.head _) fun a ha => .tail _ ha] at hlast
    constructor
    · intro h
      cases h
      exact hlast
    · intro h
      exact congrArg some (hlast.unique h)

/-! ## Records -/

/-- The source's `NodeState`. -/
inductive NodeState
  | healthy | warning | critical | stale | offline | authError | incompatible | degraded
  deriving DecidableEq, Repr, Inhabited

/-- The source's `ConnectionPath`. -/
inductive ConnectionPath
  | lanDirect | wanDirect | relayed | unknown
  deriving DecidableEq, Repr, Inhabited

/-- The source's `CapabilityState`. -/
inductive CapabilityState
  | supported | unsupported | permissionDenied
  deriving DecidableEq, Repr, Inhabited

/-- A `Uuid`: 128 bits. -/
structure Uuid where
  bits : BitVec 128
  deriving DecidableEq, Repr, Inhabited

/-- The identity of a QUIC endpoint. `EndpointId::to_string` and its parse are inverse, so an
endpoint is given by the text it prints as, the key of every table that names one. -/
structure EndpointId where
  text : String
  deriving DecidableEq, Repr, Inhabited

/-- The source's `EndpointId::to_string`. -/
def EndpointId.toString (e : EndpointId) : String := e.text

/-- The source's `IpAddr`. -/
inductive IpAddr
  | v4 (bits : BitVec 32)
  | v6 (bits : BitVec 128)
  deriving DecidableEq, Repr

/-- The source's `SocketAddr`; the flow information and the scope of an IPv4 address are zero. -/
structure SocketAddr where
  ip : IpAddr
  port : UInt16
  flowinfo : UInt32
  scopeId : UInt32
  deriving DecidableEq, Repr

/-- The source's `MetricCapability`. -/
structure MetricCapability where
  name : String
  state : CapabilityState
  detail : Option String
  deriving DecidableEq, Repr

/-- The source's `ProtocolVersion`. -/
structure ProtocolVersion where
  major : UInt32
  minor : UInt32
  deriving DecidableEq, Repr, Inhabited

/-- The source's `NodeInfo`. -/
structure NodeInfo where
  nodeId : Uuid
  displayName : String
  os : String
  architecture : String
  agentVersion : String
  protocol : ProtocolVersion
  capabilities : List MetricCapability
  deriving DecidableEq, Repr, Inhabited

/-- The source's `DiskMetric`. -/
structure DiskMetric where
  mount : String
  totalBytes : UInt64
  usedBytes : UInt64
  deriving DecidableEq, Repr, Inhabited

/-- The source's `TemperatureMetric`: the hottest sensor. -/
structure TemperatureMetric where
  label : String
  celsius : F32
  criticalCelsius : Option F32
  sensorCount : UInt32
  deriving DecidableEq, Repr, Inhabited

/-- The source's `NetworkMetric`. -/
structure NetworkMetric where
  receivedBytesPerSecond : UInt64
  sentBytesPerSecond : UInt64
  deriving DecidableEq, Repr, Inhabited

/-- The source's `CollectorError`. -/
structure CollectorError where
  source : String
  kind : CapabilityState
  message : String
  deriving DecidableEq, Repr, Inhabited

/-- The source's `MetricSample`. -/
structure MetricSample where
  timestampMs : Int
  sequence : UInt64
  cpuPercent : Option F32
  memoryUsedBytes : Option UInt64
  memoryTotalBytes : Option UInt64
  swapUsedBytes : Option UInt64
  swapTotalBytes : Option UInt64
  disks : List DiskMetric
  network : Option NetworkMetric
  temperature : Option TemperatureMetric
  uptimeSeconds : UInt64
  errors : List CollectorError
  deriving DecidableEq, Repr, Inhabited

/-- The source's `HealthSnapshot`. -/
structure HealthSnapshot where
  state : NodeState
  collectorDegraded : Bool
  storageDegraded : Bool
  remoteListenerDegraded : Bool
  details : List String
  deriving DecidableEq, Repr, Inhabited

/-- The source's `u128::saturating_mul` of two 64-bit values. -/
def satMul128 (x y : UInt64) : Nat := min (x.toNat * y.toNat) (2 ^ 128 - 1)

/-- The order `worst_disk` ranks disks in: by used fraction, compared by cross multiplication. -/
def fullnessCmp (left right : DiskMetric) : Ordering :=
  compare (satMul128 left.usedBytes right.totalBytes) (satMul128 right.usedBytes left.totalBytes)

/-- The source's `MetricSample::worst_disk`: the fullest disk. -/
def MetricSample.worstDisk (s : MetricSample) : Option DiskMetric :=
  maxBy fullnessCmp (s.disks.filter fun d => 0 < d.totalBytes)

/-- The floats of a sample are finite, as the collector reports them: `readable_cpu_percent` and
`hottest_temperature` drop every other reading. -/
def MetricSample.Finite (s : MetricSample) : Prop :=
  (∀ v ∈ s.cpuPercent, v.isFinite) ∧
    ∀ t ∈ s.temperature, t.celsius.isFinite ∧ ∀ v ∈ t.criticalCelsius, v.isFinite

instance (s : MetricSample) : Decidable s.Finite := inferInstanceAs (Decidable (_ ∧ _))

/-- A filter that every value passes keeps the option. -/
theorem filter_eq_self_of_forall {α : Type} {o : Option α} {p : α → Bool}
    (h : ∀ a ∈ o, p a = true) : o.filter p = o := by
  cases o with
  | none => rfl
  | some a => exact Option.filter_some_pos (h a rfl)

/-! ## The live trend -/

/-- The source's `TrendSample`: one point of the live trend. -/
structure TrendSample where
  timestampMs : Int
  cpuPercent : Option F32
  memoryUsedBytes : Option UInt64
  memoryTotalBytes : Option UInt64
  swapUsedBytes : Option UInt64
  swapTotalBytes : Option UInt64
  diskUsedBytes : Option UInt64
  diskTotalBytes : Option UInt64
  temperatureCelsius : Option F32
  networkReceivedBytesPerSecond : Option UInt64
  networkSentBytesPerSecond : Option UInt64
  rttMs : Option UInt64
  deriving DecidableEq, Repr, Inhabited

/-- The source's `TrendSample::from`. -/
def TrendSample.from (s : MetricSample) : TrendSample where
  timestampMs := s.timestampMs
  cpuPercent := s.cpuPercent
  memoryUsedBytes := s.memoryUsedBytes
  memoryTotalBytes := s.memoryTotalBytes
  swapUsedBytes := s.swapUsedBytes
  swapTotalBytes := s.swapTotalBytes
  diskUsedBytes := s.worstDisk.map (·.usedBytes)
  diskTotalBytes := s.worstDisk.map (·.totalBytes)
  temperatureCelsius := s.temperature.map (·.celsius)
  networkReceivedBytesPerSecond := s.network.map (·.receivedBytesPerSecond)
  networkSentBytesPerSecond := s.network.map (·.sentBytesPerSecond)
  rttMs := none

/-- The source's `TrendWindow::CAPACITY`. -/
def trendCapacity : Nat := 120

/-- The source's `TrendWindow`: the most recent trend samples, oldest first. -/
structure TrendWindow where
  samples : List TrendSample
  deriving DecidableEq, Repr

/-- The source's `TrendWindow::default`. -/
instance : Inhabited TrendWindow := ⟨⟨[]⟩⟩

/-- The source's `TrendWindow::push`: append one sample and drop the oldest ones beyond the
capacity. -/
def TrendWindow.push (w : TrendWindow) (s : TrendSample) : TrendWindow :=
  let samples := w.samples ++ [s]
  ⟨samples.drop (samples.length - trendCapacity)⟩

end Rackio
