import Rackio.Iroh.History
import Rackio.Remote.Registry
import Rackio.Runtime.Sampling

/-!
# Querying the history of a machine

`RemoteFleet::query_history`: the viewer checks the range, asks the paired machine and collects the
samples of its stream, at most `MAX_QUERY_ROWS` of them.

`MAX_QUERY_ROWS` is the raw retention divided by the sample interval. The raw rows between two
timestamps a whole retention apart are one more, and a `prune` keeps them: its cutoff is inclusive.
So the row cap cuts a query of the raw history of the sampling loop, and fails the query of a
viewer, exactly when the range has two rows a retention apart (`history_complete_iff`), which is the
case from the first batch of the second day on (`history_cut`).
-/

namespace Rackio

open Progression

/-! ## The viewer -/

/-- The source's `MAX_REMOTE_HISTORY_SAMPLES`. -/
def maxRemoteHistorySamples : Nat := maxQueryRows

/-- The source's `MAX_HISTORY_RANGE_MS`. -/
def maxHistoryRangeMs : Int := 7 * 24 * 60 * 60 * 1000

/-- The source's `client::metric_sample`: a float that is not finite is no reading. -/
def clientMetricSample (sample : MetricSample) : MetricSample :=
  { sample with
    cpuPercent := sample.cpuPercent.filter F32.isFinite
    temperature := sample.temperature.bind fun temperature =>
      if temperature.celsius.isFinite then
        some { temperature with
          criticalCelsius := temperature.criticalCelsius.filter F32.isFinite }
      else none }

/-- The loop of `query_history` over the bodies of the stream; `samples` is what it has so far. -/
def collectHistory (samples : List MetricSample) :
    List HistoryBody → Except RemoteFleetError (List MetricSample)
  | [] => .error (.transport (.frame .endOfStream))
  | .metricSample sample :: bodies =>
    if maxRemoteHistorySamples ≤ samples.length then .error .historyResponseTooLarge
    else collectHistory (samples ++ [clientMetricSample sample]) bodies
  | .streamComplete :: _ => .ok samples
  | .error response :: _ => .error (.transport (.remote response.code response.message))
  | .other :: _ => .error (.unexpectedResponse "history event")

/-- The number of a resolution on the wire. -/
def HistoryResolution.toWire : HistoryResolution → Int
  | .raw => 1
  | .minute => 2

/-- The source's `RemoteFleet::query_history`. `connect` is `connect_record`: the dial of a record,
which ends in a peer that answers a history request with a stream. -/
def queryHistory (registry : RemoteMachineRegistry)
    (connect : RemoteMachineRecord → Except RemoteFleetError (HistoryQuery → List HistoryBody))
    (endpointId : String) (fromMs toMs : Int) (resolution : HistoryResolution) :
    Except RemoteFleetError (List MetricSample) := do
  if fromMs > toMs ∨ satSubI64 toMs fromMs > maxHistoryRangeMs then throw .invalidHistoryRange
  let record ← registry.get endpointId
  let stream ← connect record
  collectHistory [] (stream ⟨fromMs, toMs, resolution.toWire, some currentVersion⟩)

/-- A stream with few enough samples is not too large. -/
theorem collectHistory_ne_tooLarge {samples : List MetricSample} {bodies : List HistoryBody}
    (h : samples.length + (samplesOf bodies).length ≤ maxRemoteHistorySamples) :
    collectHistory samples bodies ≠ .error .historyResponseTooLarge := by
  induction bodies generalizing samples with
  | nil => intro herr; cases herr
  | cons body bodies ih =>
    cases body with
    | metricSample sample =>
      have hlen : (samplesOf (.metricSample sample :: bodies)).length =
          (samplesOf bodies).length + 1 := rfl
      rw [collectHistory, if_neg (by omega)]
      refine ih ?_
      rw [List.length_append, List.length_singleton]
      omega
    | streamComplete => intro herr; cases herr
    | error response => intro herr; cases herr
    | other => intro herr; cases herr

/-- A stream that starts with too many samples is too large. -/
theorem collectHistory_tooLarge {samples sent : List MetricSample} {bodies : List HistoryBody}
    (h : maxRemoteHistorySamples < samples.length + sent.length)
    (hsamples : samples.length ≤ maxRemoteHistorySamples) :
    collectHistory samples (sent.map .metricSample ++ bodies) =
      .error .historyResponseTooLarge := by
  induction sent generalizing samples with
  | nil =>
    rw [List.length_nil] at h
    omega
  | cons sample sent ih =>
    rw [List.map_cons, List.cons_append, collectHistory]
    rw [List.length_cons] at h
    split
    · rfl
    · refine ih ?_ ?_
      · rw [List.length_append, List.length_singleton]
        omega
      · rw [List.length_append, List.length_singleton]
        omega

/-! ## The row cap -/

namespace MetricStore

variable {store : MetricStore}

/-- A query of raw rows that are read back returns the first `MAX_QUERY_ROWS` of them, so it returns
all of them when there are no more. -/
theorem query_raw_complete_iff (hread : ∀ r ∈ store.samples.rows, r.2.reread = .ok r.2)
    (fromMs toMs : Int) :
    store.query fromMs toMs .raw =
        .ok ((store.samples.rows.filter (between fromMs toMs)).map (·.2)) ↔
      (store.samples.rows.filter (between fromMs toMs)).length ≤ maxQueryRows := by
  set range := store.samples.rows.filter (between fromMs toMs)
  have hquery : store.query fromMs toMs .raw = .ok ((range.take maxQueryRows).map (·.2)) :=
    Outcome.mapM_eq_ok_map fun r hr => hread r (List.mem_of_mem_filter (List.mem_of_mem_take hr))
  rw [hquery]
  constructor
  · intro h
    have hlen := congrArg List.length (Except.ok.inj h)
    rw [List.length_map, List.length_map, List.length_take] at hlen
    omega
  · intro h
    rw [List.take_of_length_le h]

/-- The raw rows of a range, counted by their keys. -/
theorem length_range (fromMs toMs : Int) :
    (store.samples.rows.filter (between fromMs toMs)).length =
      (store.samples.keys.filter fun k => fromMs ≤ k ∧ k ≤ toMs).length := by
  rw [Table.keys, List.filter_map, List.length_map]
  rfl

/-- An accepted range has at most as many minute rows as it has minutes. -/
theorem length_minutes_le (hkeys : MinuteKeys store) {fromMs toMs : Int}
    (hrange : toMs - fromMs ≤ maxHistoryRangeMs) :
    ((store.keys .minute).filter fun k => fromMs ≤ k ∧ k ≤ toMs).length ≤ maxQueryRows := by
  set minutes := (store.keys .minute).filter fun k => fromMs ≤ k ∧ k ≤ toMs
  have hmem : ∀ i (hi : i < minutes.length), fromMs ≤ minutes[i] ∧ minutes[i] ≤ toMs := by
    intro i hi
    exact of_decide_eq_true (List.mem_filter.1 (List.getElem_mem hi)).2
  have hspaced : minutes.Pairwise fun a b => a + minuteMs ≤ b := by
    refine List.Pairwise.imp_of_mem ?_ ((store.pairwise_keys .minute).filter _)
    intro a b ha hb hlt
    obtain ⟨ra, hra, rfl⟩ := List.mem_map.1 (List.mem_of_mem_filter ha)
    obtain ⟨rb, hrb, rfl⟩ := List.mem_map.1 (List.mem_of_mem_filter hb)
    have hda := (hkeys ra hra).1
    have hdb := (hkeys rb hrb).1
    unfold minuteMs at *
    omega
  by_contra hlen
  have hpos : maxQueryRows < minutes.length := by omega
  have hfar := getElem_zero_add_le hspaced maxQueryRows hpos
  have hfirst := (hmem 0 (by omega)).1
  have hlast := (hmem maxQueryRows hpos).2
  have hcap : (minuteMs : Int) * (maxQueryRows : Nat) = 2592000000 := by decide
  unfold maxHistoryRangeMs at hrange
  omega

end MetricStore

/-- How a machine answers the request of `query_history`. -/
theorem historyStream_query {fromMs toMs : Int} (hle : fromMs ≤ toMs)
    (permissions : PeerPermissions) (store : MetricStore) (resolution : HistoryResolution) :
    historyStream permissions store ⟨fromMs, toMs, resolution.toWire, some currentVersion⟩ =
      if permissions.readHistory then
        historyPages store resolution toMs ((store.keys resolution).length + 2) fromMs
      else [.error ⟨"permission_denied", "peer does not have read_history permission"⟩] := by
  have hversion : compatible currentVersion = true := rfl
  have hresolution : HistoryQuery.resolution?
      ⟨fromMs, toMs, resolution.toWire, some currentVersion⟩ = some resolution := by
    cases resolution with
    | raw => rfl
    | minute => rfl
  unfold historyStream handleHistory requirePermission versionIsCompatible
  cases permissions.readHistory with
  | false => rfl
  | true =>
    simp only [hversion, hresolution, if_neg (not_lt.2 hle), if_true]
    rfl

/-- A query of a viewer whose range has few enough rows does not fail for its size. -/
theorem queryHistory_ne_tooLarge {store : MetricStore} (hkeyed : store.Keyed)
    {fromMs toMs : Int} {resolution : HistoryResolution}
    (hmax : ∀ k ∈ store.keys resolution, i64Min ≤ k ∧ k < i64Max)
    (hrows : toMs - fromMs ≤ maxHistoryRangeMs →
      ((store.keys resolution).filter fun k => fromMs ≤ k ∧ k ≤ toMs).length ≤ maxQueryRows)
    (registry : RemoteMachineRegistry) (permissions : PeerPermissions) (endpointId : String) :
    queryHistory registry (fun _ => .ok (historyStream permissions store)) endpointId fromMs toMs
      resolution ≠ .error .historyResponseTooLarge := by
  unfold queryHistory
  split
  · intro herr
    cases herr
  · next hrange =>
    rw [not_or, not_lt, not_lt] at hrange
    have hwidth : toMs - fromMs ≤ maxHistoryRangeMs := by
      have hsat := hrange.2
      unfold satSubI64 i64Min i64Max maxHistoryRangeMs at *
      omega
    cases hget : registry.get endpointId with
    | error e =>
      intro herr
      unfold RemoteMachineRegistry.get at hget
      split at hget
      · cases hget
      · cases hget
        cases herr
    | ok record =>
      show collectHistory [] (historyStream permissions store _) ≠ _
      rw [historyStream_query hrange.1]
      refine collectHistory_ne_tooLarge ?_
      split
      · have hsent := (timestamps_historyPages hkeyed hmax toMs
          ((store.keys resolution).length + 2) fromMs).length_le
        rw [List.length_map] at hsent
        have hcount := hrows hwidth
        rw [List.length_nil]
        unfold maxRemoteHistorySamples
        omega
      · exact Nat.zero_le _

/-- The raw rows of a regular run are read back. -/
theorem reread_of_regular {start : Int} {ticks : List Tick} (h : Regular start ticks)
    {r : Int × MetricSample} (hr : r ∈ (Sampler.run ticks).store.samples.rows) :
    r.2.reread = .ok r.2 := by
  obtain ⟨tick, -, rfl, hfinite⟩ := mem_rows_of_regular h hr
  exact MetricSample.reread_of_finite hfinite

/-- The raw rows of a regular run are stored under their timestamps. -/
theorem keyed_of_regular {start : Int} {ticks : List Tick} (h : Regular start ticks) :
    (Sampler.run ticks).store.Keyed := by
  intro r hr
  obtain ⟨tick, -, rfl, -⟩ := mem_rows_of_regular h hr
  rfl

/-- The keys of the tables of a regular run are `i64`s below the last one. -/
theorem bounds_of_regular {start : Int} {ticks : List Tick} (h : Regular start ticks)
    (hclock : ∀ tick ∈ ticks, InClock tick.sample.timestampMs) (resolution : HistoryResolution) :
    ∀ k ∈ (Sampler.run ticks).store.keys resolution, i64Min ≤ k ∧ k < i64Max := by
  intro k hk
  cases resolution with
  | raw =>
    obtain ⟨r, hr, rfl⟩ := List.mem_map.1 hk
    obtain ⟨tick, htick, rfl, -⟩ := mem_rows_of_regular h hr
    obtain ⟨hfits, hlt⟩ := hclock tick htick
    refine ⟨?_, hlt⟩
    have hlow := hfits.1
    show i64Min ≤ tick.sample.timestampMs
    unfold minuteMs at hlow
    omega
  | minute =>
    obtain ⟨r, hr, rfl⟩ := List.mem_map.1 hk
    exact (minuteKeys_of_regular h hclock r hr).2

/-- The raw rows of a range fit under the cap exactly when no two of them are a retention apart. -/
theorem length_range_le_iff_of_regular {start : Int} {ticks : List Tick} (h : Regular start ticks)
    (fromMs toMs : Int) :
    ((Sampler.run ticks).store.samples.rows.filter (MetricStore.between fromMs toMs)).length ≤
        maxQueryRows ↔
      ∀ a b, (Sampler.run ticks).store.samples.contains a = true →
        (Sampler.run ticks).store.samples.contains b = true → fromMs ≤ a → b ≤ toMs →
          b - a < rawRetentionMs := by
  obtain ⟨lo, n, -, hkeys⟩ := keys_of_regular h
  rw [MetricStore.length_range, hkeys, length_filter_le_iff (by decide)]
  have hcontains : ∀ k, (Sampler.run ticks).store.samples.contains k = true ↔
      k ∈ progression start sampleIntervalMs lo n := by
    intro k
    rw [← hkeys, Table.mem_keys_iff]
    rfl
  simp only [hcontains]
  exact ⟨fun h a b ha hb => h a ha b hb, fun h a ha b hb => h a b ha hb⟩

/-! ## The result -/

/-- In every state of a sampling loop that ticks regularly, and for every range: the raw query
returns every raw row of the range, and the query of a viewer does not fail for the size of the
response, if and only if no two raw rows of the range are a whole retention apart. -/
theorem history_complete_iff (start : Int) (ticks : List Tick) (hreg : Regular start ticks)
    (hstart : FitsI64 (start / minuteMs * minuteMs))
    (hend : start + sampleIntervalMs * ticks.length < i64Max) (fromMs toMs : Int) :
    ((Sampler.run ticks).store.query fromMs toMs .raw =
          .ok (((Sampler.run ticks).store.samples.rows.filter
            (MetricStore.between fromMs toMs)).map (·.2)) ∧
        ∀ registry permissions endpointId resolution,
          queryHistory registry
            (fun _ => .ok (historyStream permissions (Sampler.run ticks).store)) endpointId fromMs
            toMs resolution ≠ .error .historyResponseTooLarge) ↔
      ∀ a b, (Sampler.run ticks).store.samples.contains a = true →
        (Sampler.run ticks).store.samples.contains b = true → fromMs ≤ a → b ≤ toMs →
          b - a < rawRetentionMs := by
  have hclock := hreg.inClock hstart hend
  rw [← length_range_le_iff_of_regular hreg,
    MetricStore.query_raw_complete_iff fun r => reread_of_regular hreg]
  refine ⟨fun h => h.1, fun h => ⟨h, ?_⟩⟩
  intro registry permissions endpointId resolution
  refine queryHistory_ne_tooLarge (keyed_of_regular hreg)
    (bounds_of_regular hreg hclock resolution) ?_ registry permissions endpointId
  intro hwidth
  cases resolution with
  | raw =>
    rw [MetricStore.length_range] at h
    exact h
  | minute => exact MetricStore.length_minutes_le (minuteKeys_of_regular hreg hclock) hwidth

/-! ### An idle machine -/

/-- The `i`-th tick of a loop that starts at the epoch, on a machine without readings. -/
def idleTick (i : Nat) : Tick where
  sample := { (default : MetricSample) with timestampMs := sampleIntervalMs * i }
  insertOk := true
  nowMs := sampleIntervalMs * i
  pruneOk := true
  liveSize := fun _ => 0

/-- The first `n` ticks. -/
def idleTicks (n : Nat) : List Tick := (List.range n).map idleTick

theorem regular_idleTicks (n : Nat) : Regular 0 (idleTicks n) := by
  intro i hi
  have htick : (idleTicks n).get ⟨i, hi⟩ = idleTick i := by
    simp [idleTicks, List.get_eq_getElem]
  rw [htick]
  refine ⟨(zero_add _).symm, (zero_add _).symm, rfl, rfl, ?_, ?_⟩
  · intro v hv
    cases hv
  · intro t ht
    cases ht

/-- After five ticks the history is complete. -/
theorem history_complete_five :
    (Sampler.run (idleTicks 5)).store.query 0 8000 .raw =
      .ok (((Sampler.run (idleTicks 5)).store.samples.rows.filter
        (MetricStore.between 0 8000)).map (·.2)) := by
  refine ((history_complete_iff 0 (idleTicks 5) (regular_idleTicks 5) (by decide) (by decide) 0
    8000).2 ?_).1
  intro a b ha hb _ _
  obtain ⟨lo, n, hlen, hkeys⟩ := keys_of_regular (regular_idleTicks 5)
  have hmem : ∀ k, (Sampler.run (idleTicks 5)).store.samples.contains k = true →
      0 ≤ k ∧ k ≤ 8000 := by
    intro k hk
    have hin := Table.mem_keys_iff.2 hk
    rw [hkeys] at hin
    obtain ⟨i, -, hi, rfl⟩ := mem_progression.1 hin
    have hfive : (idleTicks 5).length = 5 := rfl
    unfold sampleIntervalMs
    omega
  have ha' := hmem a ha
  have hb' := hmem b hb
  unfold rawRetentionMs
  omega

/-- A paired machine. -/
def idleRecord : RemoteMachineRecord :=
  ⟨default, "ae58ff8833241ac82d6ff7611046ed67", [], [], 0, none⟩

/-- A range with more raw rows than a response may hold fails the query of a viewer who may read
history. -/
theorem queryHistory_tooLarge {store : MetricStore} (hkeyed : store.Keyed)
    (hread : ∀ r ∈ store.samples.rows, r.2.reread = .ok r.2)
    (hbounds : ∀ k ∈ store.keys .raw, i64Min ≤ k ∧ k < i64Max) {fromMs toMs : Int}
    (hrange : fromMs ≤ toMs ∧ toMs - fromMs ≤ maxHistoryRangeMs)
    (hlarge : maxRemoteHistorySamples <
      (store.samples.rows.filter (MetricStore.between fromMs toMs)).length)
    {registry : RemoteMachineRegistry} {endpointId : String} {record : RemoteMachineRecord}
    (hget : registry.get endpointId = .ok record) {permissions : PeerPermissions}
    (hallowed : permissions.readHistory = true) :
    queryHistory registry (fun _ => .ok (historyStream permissions store)) endpointId fromMs toMs
      .raw = .error .historyResponseTooLarge := by
  set range := store.samples.rows.filter (MetricStore.between fromMs toMs)
  have haccepted : ¬(fromMs > toMs ∨ satSubI64 toMs fromMs > maxHistoryRangeMs) := by
    obtain ⟨hle, hwidth⟩ := hrange
    unfold satSubI64 i64Min i64Max maxHistoryRangeMs at *
    omega
  have hfuel : range.length < (store.keys .raw).length + 2 := by
    have hcount : (store.keys .raw).length = store.samples.rows.length := List.length_map _
    have hle : range.length ≤ store.samples.rows.length := List.length_filter_le _ _
    omega
  have hpages := historyPages_raw hkeyed hread hbounds toMs hfuel
  have hsent : range.map (fun r => HistoryBody.metricSample r.2) =
      (range.map (·.2)).map .metricSample := by
    rw [List.map_map]
    rfl
  unfold queryHistory
  rw [if_neg haccepted, hget]
  show collectHistory [] (historyStream permissions store _) = _
  rw [historyStream_query hrange.1, if_pos hallowed, hpages, hsent]
  refine collectHistory_tooLarge ?_ (Nat.zero_le _)
  rw [List.length_map, List.length_nil, Nat.zero_add]
  exact hlarge

/-- The raw rows after 43205 ticks from the epoch and within the size cap: before the first `prune`
that deletes a row, all of them are there. -/
theorem keys_of_first_day {ticks : List Tick} (hreg : Regular 0 ticks) (hlen : ticks.length = 43205)
    (hcap : ∀ tick ∈ ticks, tick.liveSize 0 ≤ sizeCapBytes) :
    (Sampler.run ticks).store.samples.keys = progression 0 sampleIntervalMs 0 43205 := by
  obtain ⟨hi, hw, hlast, hfive, -⟩ := window_of_first_day hreg (by omega) hcap
  have hend : hi = 43205 := by
    have hbound := hw.bound
    omega
  subst hend
  rw [Table.keys, hw.rows, hreg.keys 0 43205 hw.bound]

/-- After 43205 ticks from the epoch and within the size cap, the raw query of the whole history
drops rows and the query of a viewer fails. -/
theorem cut_of_first_day {ticks : List Tick} (hreg : Regular 0 ticks) (hlen : ticks.length = 43205)
    (hcap : ∀ tick ∈ ticks, tick.liveSize 0 ≤ sizeCapBytes) {registry : RemoteMachineRegistry}
    {endpointId : String} {record : RemoteMachineRecord}
    (hget : registry.get endpointId = .ok record) :
    (Sampler.run ticks).store.query 0 86408000 .raw ≠
        .ok (((Sampler.run ticks).store.samples.rows.filter
          (MetricStore.between 0 86408000)).map (·.2)) ∧
      queryHistory registry (fun _ => .ok (historyStream default (Sampler.run ticks).store))
        endpointId 0 86408000 .raw = .error .historyResponseTooLarge := by
  have hkeys := keys_of_first_day hreg hlen hcap
  set store := (Sampler.run ticks).store
  have hread : ∀ r ∈ store.samples.rows, r.2.reread = .ok r.2 := fun r => reread_of_regular hreg
  have hbetween : ∀ k ∈ store.samples.keys, 0 ≤ k ∧ k ≤ 86408000 := by
    intro k hk
    rw [hkeys] at hk
    obtain ⟨i, -, hi, rfl⟩ := mem_progression.1 hk
    unfold sampleIntervalMs
    omega
  have hrows : (store.samples.rows.filter (MetricStore.between 0 86408000)).length = 43205 := by
    have hcount := congrArg List.length hkeys
    rw [Table.keys, progression, List.length_map, List.length_map, List.length_range'] at hcount
    rw [List.filter_eq_self.2]
    · exact hcount
    · intro r hr
      exact decide_eq_true (hbetween r.1 (List.mem_map_of_mem hr))
  have hmax : maxQueryRows = 43200 := by decide
  constructor
  · rw [ne_eq, MetricStore.query_raw_complete_iff hread]
    omega
  · refine queryHistory_tooLarge (keyed_of_regular hreg) hread ?_ (by decide) ?_ hget rfl
    · intro k hk
      have hk' := hbetween k hk
      unfold i64Min i64Max
      omega
    · rw [hrows]
      decide

/-- The idle machine of 43205 ticks. -/
theorem history_cut :
    Regular 0 (idleTicks 43205) ∧
      (Sampler.run (idleTicks 43205)).store.query 0 86408000 .raw ≠
        .ok (((Sampler.run (idleTicks 43205)).store.samples.rows.filter
          (MetricStore.between 0 86408000)).map (·.2)) ∧
      queryHistory (RemoteMachineRegistry.empty.store idleRecord)
          (fun _ => .ok (historyStream default (Sampler.run (idleTicks 43205)).store))
          idleRecord.endpointId 0 86408000 .raw = .error .historyResponseTooLarge := by
  have hlen : (idleTicks 43205).length = 43205 := by
    rw [idleTicks, List.length_map, List.length_range]
  have hcap : ∀ tick ∈ idleTicks 43205, tick.liveSize 0 ≤ sizeCapBytes := by
    intro tick htick
    obtain ⟨i, -, rfl⟩ := List.mem_map.1 htick
    exact (by decide : (0 : Int) ≤ sizeCapBytes)
  have hget : (RemoteMachineRegistry.empty.store idleRecord).get idleRecord.endpointId =
      .ok idleRecord := rfl
  exact ⟨regular_idleTicks 43205, cut_of_first_day (regular_idleTicks 43205) hlen hcap hget⟩

end Rackio
