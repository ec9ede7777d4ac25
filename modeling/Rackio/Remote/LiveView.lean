import Rackio.Core.Collector
import Rackio.Iroh.LiveStream
import Rackio.Remote.MetricsStream

/-!
# From the collector to the viewer

The whole way of a live sample: `SystemCollector::sample` takes it, the sampler publishes it on the
watch channel, `watch_metrics` writes it as a frame, and the loop of `monitor_session` reads it
there. The three parts run on their own, so nothing is said of when they step; the messages are
encoded by code of another crate.

`viewed_in_order` puts the parts together: the samples a session has read are samples of the
collector, with the values they had, in the order they were taken, and none comes more than twice.
-/

namespace Rackio

open Lts

/-- The same response. -/
inductive StreamResponse.Same : StreamResponse → StreamResponse → Prop
  | metricSample {a b : Wire.MetricSample} (h : a.Same b) : Same (.metricSample a) (.metricSample b)
  | heartbeat (timestampMs : Int) (sequence : UInt64) :
    Same (.heartbeat timestampMs sequence) (.heartbeat timestampMs sequence)

/-- The encoding of the responses of a stream. -/
structure StreamEncoding where
  encode : StreamResponse → List UInt8
  decode : List UInt8 → Except String StreamResponse

namespace StreamEncoding

variable (p : StreamEncoding)

/-- Decoding gives the response back. -/
def RoundTrips (response : StreamResponse) : Prop :=
  ∃ decoded, p.decode (p.encode response) = .ok decoded ∧ response.Same decoded

/-- The loop of a session goes on after this message. -/
def isMetricsEvent (bytes : List UInt8) : Bool := (p.decode bytes).isOk

/-- The sample a session reads from a message, by the source's `client::metric_sample`. -/
def viewed (bytes : List UInt8) : Option MetricSample :=
  match p.decode bytes with
  | .ok (.metricSample sample) => some (.fromWire sample)
  | _ => none

variable {p}

/-- What a session reads is what was sent, and nothing where no sample was. -/
theorem viewed_encode {response : StreamResponse} (h : p.RoundTrips response) :
    Option.Rel (fun sent viewed => (MetricSample.fromWire sent).Same viewed)
      response.sample? (p.viewed (p.encode response)) := by
  obtain ⟨decoded, hdecode, hsame⟩ := h
  unfold viewed
  rw [hdecode]
  cases hsame with
  | metricSample h => exact .some (MetricSample.fromWire_same h)
  | heartbeat => exact .none

/-- What a session reads from a list of messages, sample by sample. -/
theorem viewed_map_encode {written : List StreamResponse} (h : ∀ r ∈ written, p.RoundTrips r) :
    List.Forall₂ (fun sent viewed => (MetricSample.fromWire sent).Same viewed)
      (written.filterMap StreamResponse.sample?) ((written.map p.encode).filterMap p.viewed) := by
  induction written with
  | nil => exact .nil
  | cons response written ih =>
    have hrest := ih fun r hr => h r (.tail _ hr)
    have hfirst := viewed_encode (h response (.head _))
    rw [List.map_cons, List.filterMap_cons, List.filterMap_cons]
    generalize response.sample? = sent at hfirst
    generalize p.viewed (p.encode response) = viewed at hfirst
    cases hfirst with
    | none => exact hrest
    | some hsame => exact .cons hsame hrest

end StreamEncoding

/-- The samples a session has read from a live stream are samples of the collector with the values
they had, in the order they were taken, and none is read more than twice. The ticks of the session
fall between frames; everything else interleaves as it likes. -/
theorem viewed_in_order {p : StreamEncoding} {first : Host.Reading} {readings : List Host.Reading}
    {before : List MetricSample} {es : List LiveStream.Event} {server : LiveStream}
    {bytes : List UInt8} {ticks : List MetricsStream.Event} {viewer : MetricsStream (List UInt8)}
    (hlength : readings.length < 2 ^ 64)
    (hpublished : before ++ es.filterMap LiveStream.Event.published =
      (SystemCollector.new first).collect readings)
    (hserver : Run (Fires LiveStream.step) (.opened before) es server)
    (hencoding : ∀ r ∈ server.written, p.RoundTrips r)
    (hbytes : writeFrames bytesCodec (server.written.map p.encode) = .ok bytes)
    (hviewer : Run (Guarded MetricsStream.TickAtBoundary
      (Fires (MetricsStream.step bytesCodec p.isMetricsEvent))) (.init bytes) ticks viewer) :
    ∃ picks, LiveStream.Picked ((SystemCollector.new first).collect readings) picks ∧
      List.Forall₂ MetricSample.Same picks (viewer.processed.filterMap p.viewed) := by
  have haligned : MetricsStream.Aligned bytesCodec (server.written.map p.encode) viewer :=
    hviewer.invariant (.init hbytes) fun _ _ _ h hr => h.step hr.1 hr.2
  obtain ⟨read, hread, hprocessed⟩ := List.prefix_map_iff.1 haligned.prefix
  have hsequence : ((SystemCollector.new first).collect readings).Pairwise
      (·.sequence < ·.sequence) := (SystemCollector.sequences_collect hlength).1
  rw [← hpublished] at hsequence ⊢
  obtain ⟨r, hr, hfollows⟩ := LiveStream.exists_reader hserver
  obtain ⟨picks, hpicks, hsamples⟩ := hfollows.picked hr hsequence
  -- what was read is part of what was written, sample by sample
  have hsub : (read.filterMap StreamResponse.sample?).Sublist (picks.map MetricSample.toWire) := by
    rw [← hsamples]
    exact hread.sublist.filterMap _
  obtain ⟨picks', hpicks', heq⟩ := List.sublist_map_iff.1 hsub
  refine ⟨picks', hpicks.sublist hpicks', ?_⟩
  have hviewed := StreamEncoding.viewed_map_encode fun r hr => hencoding r (hread.subset hr)
  rw [heq, ← hprocessed, ← List.forall₂_map_left_iff, List.map_map] at hviewed
  have hkept : picks'.map (MetricSample.fromWire ∘ MetricSample.toWire) = picks' := by
    refine (List.map_congr_left fun sample hsample => ?_).trans (List.map_id _)
    have hmem := (hpicks.sublist hpicks').published sample hsample
    rw [hpublished] at hmem
    exact MetricSample.fromWire_toWire_of_finite (SystemCollector.finite_of_mem_collect hmem)
  rwa [hkept] at hviewed

/-- A reading of an idle host with one disk. No time passes between its readings, so it has no
traffic. -/
def idleReading (ms : Int) : Host.Reading where
  system := ⟨1, ⟨0⟩, 2, 1, 0, 0⟩
  disks := [⟨"/", 2, 1⟩]
  interfaces := [⟨0, 0⟩]
  components := []
  uptime := 0
  timestampMs := ms
  now := 0
  networkNow := 0
  refreshedNow := 0

/-- A sample of the idle host. -/
def idleSample (ms : Int) (sequence : UInt64) : MetricSample where
  timestampMs := ms
  sequence
  cpuPercent := some ⟨0⟩
  memoryUsedBytes := some 1
  memoryTotalBytes := some 2
  swapUsedBytes := some 0
  swapTotalBytes := some 0
  disks := [⟨"/", 2, 1⟩]
  network := none
  temperature := none
  uptimeSeconds := 0
  errors := []

/-- Its samples. -/
def idleSamples : List MetricSample := [idleSample 7 1, idleSample 8 2, idleSample 9 3]

/-- The bytes of the response with such a sample. -/
def idleResponse (ms : Int) (sequence : UInt64) : List UInt8 :=
  [0x12, 26, 0x08, UInt8.ofNat ms.toNat, 0x10, sequence.toUInt8, 0x1d, 0, 0, 0, 0, 0x20, 1, 0x28, 2,
    0x30, 0, 0x38, 0, 0x42, 7, 0x0a, 1, 0x2f, 0x10, 2, 0x18, 1]

/-- The encoding of these responses, and of a heartbeat. -/
def idleEncoding : StreamEncoding where
  encode
    | .metricSample sample => idleResponse sample.timestampMs sample.sequence
    | .heartbeat ms sequence => [0x3a, 4, 0x08, UInt8.ofNat ms.toNat, 0x10, sequence.toUInt8]
  decode bytes :=
    if bytes = [0x3a, 4, 0x08, 8, 0x10, 1] then .ok (.heartbeat 8 1)
    else match idleSamples.find? fun sample =>
        idleResponse sample.timestampMs sample.sequence = bytes with
      | some sample => .ok (.metricSample sample.toWire)
      | none => .error "invalid wire type"

/-- The stream writes the first sample and a heartbeat; the second sample is overtaken. -/
def idleEvents : List LiveStream.Event :=
  [.open, .changed, .deliver, .heartbeat 8, .publish (idleSample 8 2), .publish (idleSample 9 3),
    .changed, .deliver]

/-- The stream after that. -/
def idleStream : LiveStream where
  latest := ⟨some (idleSample 9 3), 3, false⟩
  seen := 3
  stage := .waiting
  written := [.metricSample (idleSample 7 1).toWire, .metricSample (idleSample 7 1).toWire,
    .heartbeat 8 1, .metricSample (idleSample 9 3).toWire]

/-- Frames arrive in parts, and a tick falls between two of them. -/
def idleArrivals : List MetricsStream.Event :=
  [.arrive 9, .poll, .arrive 23, .poll, .tick (.ok ()), .arrive 60, .poll, .poll, .poll, .arrive 14,
    .poll]

/-- A session that has read everything. -/
def idleSession : MetricsStream (List UInt8) where
  network := []
  arrived := []
  future := .start
  processed := idleStream.written.map idleEncoding.encode
  ended := none

/-- The samples of the idle host, as they reach a session: the first twice, the second not. -/
theorem viewed_in_order_idle :
    (SystemCollector.new (idleReading 7)).collect [idleReading 7, idleReading 8, idleReading 9] =
        idleSamples ∧
      idleSession.processed.filterMap idleEncoding.viewed =
        [idleSample 7 1, idleSample 7 1, idleSample 9 3] ∧
      ∃ picks, LiveStream.Picked idleSamples picks ∧
        List.Forall₂ MetricSample.Same picks
          (idleSession.processed.filterMap idleEncoding.viewed) := by
  have hcollect : (SystemCollector.new (idleReading 7)).collect
      [idleReading 7, idleReading 8, idleReading 9] = idleSamples := by rfl
  have hserver : Run (Fires LiveStream.step) (.opened [idleSample 7 1]) idleEvents idleStream :=
    run_of_exec rfl
  have hencoding : ∀ r ∈ idleStream.written, idleEncoding.RoundTrips r := by
    intro r hr
    simp only [idleStream, List.mem_cons, List.not_mem_nil, or_false] at hr
    rcases hr with rfl | rfl | rfl | rfl
    · exact ⟨_, rfl, .metricSample (.refl _)⟩
    · exact ⟨_, rfl, .metricSample (.refl _)⟩
    · exact ⟨_, rfl, .heartbeat 8 1⟩
    · exact ⟨_, rfl, .metricSample (.refl _)⟩
  have hviewer : Run (Guarded MetricsStream.TickAtBoundary
      (Fires (MetricsStream.step bytesCodec idleEncoding.isMetricsEvent)))
      (.init ((idleStream.written.map idleEncoding.encode).flatMap (frame bytesCodec))) idleArrivals
      idleSession :=
    run_of_execGuarded rfl
  have hpublished : [idleSample 7 1] ++ idleEvents.filterMap LiveStream.Event.published =
      (SystemCollector.new (idleReading 7)).collect [idleReading 7, idleReading 8, idleReading 9] :=
    hcollect.symm
  refine ⟨hcollect, rfl, ?_⟩
  have hpicked := viewed_in_order (by decide) hpublished hserver hencoding rfl hviewer
  rwa [hcollect] at hpicked

end Rackio
