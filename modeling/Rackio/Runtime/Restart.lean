import Rackio.Lib.Newest
import Rackio.Iroh.History
import Rackio.Runtime.SampleLoop

/-!
# The local trend across restarts

The live trend of the agent's own machine is held in memory; `resume_local_trend` of
`agent/src/runtime.rs` reads it back from the stored history when the agent starts again. What the
loop had buffered is committed by `flush_pending` of `sampling.rs` when it is shut down, and is lost
when the process is killed or that commit fails.

`Trending` is what any number of turns and restarts keep: the trend holds the newest of the points
it was pushed, and these are the recorded samples of the last 15 minutes. So after a flush the trend
of the last 15 minutes comes back as it was, and otherwise it lacks at most the four samples that
were buffered (`trend_resumed`).
-/

namespace Rackio

open Tail

/-- The source's `LOCAL_TREND_SEED_MS`. -/
def localTrendSeedMs : Int := 15 * 60 * 1000

/-- The source's `TrendWindow::from_samples`. -/
def TrendWindow.fromSamples (samples : List MetricSample) : TrendWindow :=
  (samples.drop (samples.length - trendCapacity)).foldl
    (fun window sample => window.push (.from sample)) default

/-- The source's `resume_local_trend`, with the reading of its clock. -/
def resumeLocalTrend (store : MetricStore) (seedNowMs : Int) : TrendWindow :=
  match store.query (satSubI64 seedNowMs localTrendSeedMs) seedNowMs .raw with
  | .ok samples => .fromSamples samples
  | .error _ => default

/-- The source's `flush_pending`; `insertOk` is whether its batch commits. -/
def Sampler.flushPending (s : Sampler) (insertOk : Bool) : Sampler :=
  if s.pending = [] then s
  else if insertOk then { s with store := s.store.insertBatch s.pending, pending := [] }
  else s

/-- The loop of the next process of the agent. A process that is killed leaves the store of one
whose last batch failed. -/
def SampleLoop.restart (s : SampleLoop) (flushed : Bool) (seedNowMs : Int) : SampleLoop :=
  let store := (s.sampler.flushPending flushed).store
  .start store (resumeLocalTrend store seedNowMs)

/-- The loop across the processes of an agent, and the last reading of the clock. -/
structure LocalMachine where
  loop : SampleLoop
  clockMs : Int

/-- A turn of the loop, or a restart of the agent. -/
inductive LocalEvent
  | turn (turn : SampleTurn)
  | restart (flushed : Bool) (seedNowMs : Int)

namespace LocalMachine

/-- The machine after an event. -/
def after (m : LocalMachine) : LocalEvent → LocalMachine
  | .turn turn => ⟨(m.loop.turn turn.published.rules turn.tick).1, turn.tick.sample.timestampMs⟩
  | .restart flushed seedNowMs => ⟨m.loop.restart flushed seedNowMs, seedNowMs⟩

/-- An agent that was just installed. -/
def installed : LocalMachine := ⟨.start .new default, 0⟩

/-- An event in good order. The clock goes on; batches commit and the floats are finite, as the
collector reports them; a `prune` finds the store below the size cap and does not reach the last 15
minutes; and the rows of these fit in one answer of the store. -/
def Orderly (m : LocalMachine) : LocalEvent → Prop
  | .turn turn =>
    m.clockMs < turn.tick.sample.timestampMs ∧ turn.tick.sample.Finite ∧
      turn.tick.insertOk = true ∧
      turn.tick.liveSize 0 ≤ m.loop.sampler.store.sizeCapBytes ∧
      wrapI64 (turn.tick.nowMs - rawRetentionMs) ≤
        turn.tick.sample.timestampMs - localTrendSeedMs
  | .restart flushed seedNowMs =>
    m.clockMs ≤ seedNowMs ∧ 0 ≤ seedNowMs ∧ FitsI64 seedNowMs ∧
      ((m.loop.sampler.flushPending flushed).store.samples.rows.filter
        (MetricStore.between (seedNowMs - localTrendSeedMs) seedNowMs)).length ≤ maxQueryRows

/-- A step in good order. -/
def Step : LocalMachine → LocalEvent → LocalMachine → Prop :=
  Lts.Guarded Orderly fun m e m' => m' = m.after e

end LocalMachine

/-! ## Windows -/

/-- A push cuts the window to its capacity. -/
theorem TrendWindow.samples_push (w : TrendWindow) (point : TrendSample) :
    (w.push point).samples = (w.samples ++ [point]).rtake trendCapacity := by
  simp only [push, List.rtake]

/-- The window holds the newest points it was pushed. -/
theorem TrendWindow.samples_foldl_push (samples : List MetricSample) {w : TrendWindow}
    (h : w.samples.length ≤ trendCapacity) :
    (samples.foldl (fun window sample => window.push (.from sample)) w).samples =
      (w.samples ++ samples.map TrendSample.from).rtake trendCapacity := by
  induction samples generalizing w with
  | nil => rw [List.foldl_nil, List.map_nil, List.append_nil, rtake_of_length_le h]
  | cons x samples ih =>
    have hpush := w.samples_push (.from x)
    have hfits : (w.push (.from x)).samples.length ≤ trendCapacity := hpush ▸ length_rtake_le _ _
    rw [List.foldl_cons, ih hfits, hpush, rtake_append_rtake, List.append_assoc]
    rfl

/-- A window made of samples holds the newest of them. -/
theorem TrendWindow.samples_fromSamples (samples : List MetricSample) :
    (TrendWindow.fromSamples samples).samples =
      (samples.map TrendSample.from).rtake trendCapacity := by
  have hcut : ((samples.map TrendSample.from).rtake trendCapacity).length ≤ trendCapacity :=
    length_rtake_le _ _
  refine (samples_foldl_push (samples.rtake trendCapacity) (Nat.zero_le _)).trans ?_
  rw [map_rtake]
  exact rtake_of_length_le hcut

/-- Samples in ascending order of their time, up to a reading of the clock. -/
structure UpTo (clockMs : Int) (samples : List MetricSample) : Prop where
  sorted : samples.Pairwise fun a b => a.timestampMs < b.timestampMs
  bound : ∀ x ∈ samples, x.timestampMs ≤ clockMs

section
variable {clockMs : Int} {samples part : List MetricSample}

/-- Some of the samples. -/
theorem UpTo.sublist (h : UpTo clockMs samples) (hpart : part.Sublist samples) :
    UpTo clockMs part :=
  ⟨h.sorted.sublist hpart, fun x hx => h.bound x (hpart.subset hx)⟩

/-- The clock goes on. -/
theorem UpTo.mono (h : UpTo clockMs samples) {laterMs : Int} (hle : clockMs ≤ laterMs) :
    UpTo laterMs samples :=
  ⟨h.sorted, fun x hx => (h.bound x hx).trans hle⟩

/-- A later sample comes last. -/
theorem UpTo.append (h : UpTo clockMs samples) {x : MetricSample} (hx : clockMs < x.timestampMs) :
    UpTo x.timestampMs (samples ++ [x]) where
  sorted := by
    refine List.pairwise_append.2 ⟨h.sorted, List.pairwise_singleton _ _, fun a ha b hb => ?_⟩
    rw [List.mem_singleton.1 hb]
    exact (h.bound a ha).trans_lt hx
  bound := by
    intro a ha
    rcases List.mem_append.1 ha with ha | ha
    · exact (h.bound a ha).trans hx.le
    · exact (congrArg MetricSample.timestampMs (List.mem_singleton.1 ha)).le

/-- Cutting the newest points off at a time is cutting the samples off there. -/
theorem UpTo.filter_rtake (h : UpTo clockMs samples) (cutMs : Int) :
    ((samples.map TrendSample.from).rtake trendCapacity).filter (cutMs ≤ ·.timestampMs) =
      ((samples.filter (cutMs ≤ ·.timestampMs)).map TrendSample.from).rtake trendCapacity := by
  have hlater : (samples.map TrendSample.from).Pairwise fun a b =>
      decide (cutMs ≤ a.timestampMs) = true → decide (cutMs ≤ b.timestampMs) = true := by
    refine List.pairwise_map.2 (h.sorted.imp fun {a b} hab ha => decide_eq_true ?_)
    exact (of_decide_eq_true ha).trans hab.le
  rw [Tail.filter_rtake hlater, List.filter_map]
  rfl

end

/-! ## What is recorded -/

/-- The samples of the raw rows. -/
def MetricStore.stored (store : MetricStore) : List MetricSample := store.samples.rows.map (·.2)

/-- The samples that the loop has committed or still holds. -/
def Sampler.recorded (s : Sampler) : List MetricSample := s.store.stored ++ s.pending

section
variable {store : MetricStore} {s : Sampler} {clockMs cutMs : Int}

/-- The rows of a range are those of the samples of that time. -/
theorem MetricStore.stored_range (hkeyed : store.Keyed) (fromMs toMs : Int) :
    (store.samples.rows.filter (between fromMs toMs)).map (·.2) =
      store.stored.filter fun x => fromMs ≤ x.timestampMs ∧ x.timestampMs ≤ toMs := by
  rw [stored, List.filter_map]
  refine congrArg _ (List.filter_congr fun r hr => ?_)
  simp only [between, Function.comp_apply, hkeyed r hr]

/-- The rows of a keyed store, from their samples. -/
theorem MetricStore.rows_of_keyed (hkeyed : store.Keyed) :
    store.samples.rows = store.stored.map fun x => (x.timestampMs, x) := by
  rw [stored, List.map_map]
  refine (List.map_id _).symm.trans (List.map_congr_left fun r hr => ?_)
  simp only [id, Function.comp_apply, hkeyed r hr]

/-- A batch of later samples is recorded behind the others. -/
theorem MetricStore.stored_insertBatch (hkeyed : store.Keyed) {batch : List MetricSample}
    (h : UpTo clockMs (store.stored ++ batch)) :
    (store.insertBatch batch).Keyed ∧
      (store.insertBatch batch).stored = store.stored ++ batch := by
  have hsorted : (store.samples.rows ++ batch.map fun x => (x.timestampMs, x)).Pairwise
      fun a b => a.1 < b.1 := by
    rw [rows_of_keyed hkeyed, ← List.map_append]
    exact List.pairwise_map.2 h.sorted
  have hrows := rows_insertBatch hsorted
  refine ⟨fun r hr => ?_, ?_⟩
  · rw [hrows] at hr
    rcases List.mem_append.1 hr with hr | hr
    · exact hkeyed r hr
    · obtain ⟨x, -, rfl⟩ := List.mem_map.1 hr
      rfl
  · rw [stored, hrows, List.map_append, List.map_map]
    exact congrArg _ (List.map_id _)

/-- A turn that commits records its sample, and leaves fewer than five in the buffer. -/
theorem Sampler.recorded_collect {tick : Tick} (hkeyed : s.store.Keyed)
    (h : UpTo clockMs (s.recorded ++ [tick.sample])) (hok : tick.insertOk = true) :
    (s.collect tick).store.Keyed ∧ (s.collect tick).recorded = s.recorded ++ [tick.sample] ∧
      (s.collect tick).pending.length < 5 := by
  have hall : s.recorded ++ [tick.sample] = s.store.stored ++ (s.pending ++ [tick.sample]) :=
    List.append_assoc _ _ _
  rw [collect_of_insertOk hok]
  split
  · obtain ⟨hkeyed', hstored⟩ := MetricStore.stored_insertBatch hkeyed (hall ▸ h)
    refine ⟨hkeyed', ?_, Nat.zero_lt_succ _⟩
    rw [hall, ← hstored]
    exact List.append_nil _
  · next hroom => exact ⟨hkeyed, hall.symm, Nat.lt_of_not_le hroom⟩

/-- Within the size cap, `prune` deletes the raw rows that are too old. -/
theorem MetricStore.rows_prune {nowMs : Int} {liveSize : Nat → Int}
    (hcap : liveSize 0 ≤ store.sizeCapBytes) :
    (store.prune nowMs liveSize).samples.rows =
      store.samples.rows.filter fun r => wrapI64 (nowMs - rawRetentionMs) ≤ r.1 := by
  have hfits : ¬ liveSize 0 > (store.deleteExpired nowMs).sizeCapBytes := not_lt.2 hcap
  unfold prune
  rw [enforceSizeCapBytes_eq, if_neg hfits]
  rfl

/-- A `prune` that keeps everything from a time on, keeps the samples of that time. -/
theorem MetricStore.stored_prune {nowMs : Int} {liveSize : Nat → Int} (hkeyed : store.Keyed)
    (hcap : liveSize 0 ≤ store.sizeCapBytes) :
    (store.prune nowMs liveSize).Keyed ∧
      (store.prune nowMs liveSize).stored.Sublist store.stored ∧
      ∀ cutMs, wrapI64 (nowMs - rawRetentionMs) ≤ cutMs →
        (store.prune nowMs liveSize).stored.filter (cutMs ≤ ·.timestampMs) =
          store.stored.filter (cutMs ≤ ·.timestampMs) := by
  have hrows : (store.prune nowMs liveSize).samples.rows = _ := rows_prune hcap
  refine ⟨fun r hr => ?_, ?_, fun cutMs hcut => ?_⟩
  · rw [hrows] at hr
    exact hkeyed r (List.mem_of_mem_filter hr)
  · rw [stored, hrows]
    exact List.filter_sublist.map _
  · simp only [stored, hrows, List.filter_map, List.filter_filter]
    refine congrArg _ (List.filter_congr fun r hr => ?_)
    have hkey := hkeyed r hr
    simp only [Function.comp_apply]
    grind

/-- A turn that does not reach back to a time keeps what was recorded from that time on. -/
theorem Sampler.recorded_maintain {tick : Tick} (hkeyed : s.store.Keyed)
    (hcap : tick.liveSize 0 ≤ s.store.sizeCapBytes) :
    (s.maintain tick).store.Keyed ∧ (s.maintain tick).recorded.Sublist s.recorded ∧
      ∀ cutMs, wrapI64 (tick.nowMs - rawRetentionMs) ≤ cutMs →
        (s.maintain tick).recorded.filter (cutMs ≤ ·.timestampMs) =
          s.recorded.filter (cutMs ≤ ·.timestampMs) := by
  unfold maintain
  dsimp only
  split
  · cases tick.pruneOk with
    | true =>
      have hprune : (s.store.prune tick.nowMs tick.liveSize).Keyed ∧ _ :=
        MetricStore.stored_prune hkeyed hcap
      obtain ⟨hkeyed', hpart, hrecent⟩ := hprune
      refine ⟨hkeyed', hpart.append_right _, fun cutMs hcut => ?_⟩
      simp only [recorded, if_true, List.filter_append, hrecent cutMs hcut]
    | false => exact ⟨hkeyed, List.Sublist.refl _, fun _ _ => rfl⟩
  · exact ⟨hkeyed, List.Sublist.refl _, fun _ _ => rfl⟩

/-- What a flush leaves: all that was recorded, or only the rows. -/
theorem Sampler.stored_flushPending (hkeyed : s.store.Keyed) (h : UpTo clockMs s.recorded)
    (flushed : Bool) :
    (s.flushPending flushed).store.Keyed ∧
      (s.flushPending flushed).store.stored = if flushed then s.recorded else s.store.stored := by
  unfold flushPending
  split
  · next hempty =>
    refine ⟨hkeyed, ?_⟩
    rw [recorded, hempty, List.append_nil, ite_self]
  · cases flushed with
    | true => exact MetricStore.stored_insertBatch hkeyed h
    | false => exact ⟨hkeyed, rfl⟩

/-- The trend that is read back: the newest samples of the last 15 minutes. -/
theorem samples_resumeLocalTrend {seedNowMs : Int} (hkeyed : store.Keyed)
    (hfinite : ∀ x ∈ store.stored, x.Finite) (hbound : UpTo seedNowMs store.stored)
    (hnow : 0 ≤ seedNowMs) (hclock : FitsI64 seedNowMs)
    (hfit : (store.samples.rows.filter
      (MetricStore.between (seedNowMs - localTrendSeedMs) seedNowMs)).length ≤ maxQueryRows) :
    (resumeLocalTrend store seedNowMs).samples =
      ((store.stored.filter (seedNowMs - localTrendSeedMs ≤ ·.timestampMs)).map
        TrendSample.from).rtake trendCapacity := by
  have hfrom : satSubI64 seedNowMs localTrendSeedMs = seedNowMs - localTrendSeedMs := by
    unfold satSubI64 localTrendSeedMs FitsI64 i64Min i64Max at *
    omega
  have hquery : store.query (seedNowMs - localTrendSeedMs) seedNowMs .raw =
      .ok (store.stored.filter (seedNowMs - localTrendSeedMs ≤ ·.timestampMs)) := by
    have hread : ∀ r ∈ (store.samples.rows.filter
        (MetricStore.between (seedNowMs - localTrendSeedMs) seedNowMs)).take maxQueryRows,
        r.2.reread = .ok r.2 := fun r hr => MetricSample.reread_of_finite
      (hfinite _ (List.mem_map_of_mem (List.mem_of_mem_filter (List.mem_of_mem_take hr))))
    refine (Outcome.mapM_eq_ok_map hread).trans (congrArg Except.ok ?_)
    rw [List.take_of_length_le hfit, MetricStore.stored_range hkeyed]
    refine List.filter_congr fun x hx => ?_
    have hx' := hbound.bound x hx
    simp only [hx', and_true]
  rw [resumeLocalTrend, hfrom, hquery]
  exact TrendWindow.samples_fromSamples _

end

/-! ## What a run keeps -/

namespace LocalMachine

/-- The trend was pushed `pushed`; from 15 minutes before the clock on, that is what is recorded. -/
structure Trending (pushed : List MetricSample) (m : LocalMachine) : Prop where
  keyed : m.loop.sampler.store.Keyed
  recorded : UpTo m.clockMs m.loop.sampler.recorded
  finite : ∀ x ∈ m.loop.sampler.recorded, x.Finite
  pending : m.loop.sampler.pending.length < 5
  trend : m.loop.trend.samples = (pushed.map TrendSample.from).rtake trendCapacity
  past : UpTo m.clockMs pushed
  recent : ∀ cutMs, m.clockMs - localTrendSeedMs ≤ cutMs →
    pushed.filter (cutMs ≤ ·.timestampMs) =
      m.loop.sampler.recorded.filter (cutMs ≤ ·.timestampMs)

/-- Nothing was recorded yet. -/
theorem trending_installed : Trending [] installed where
  keyed _ hr := absurd hr List.not_mem_nil
  recorded := ⟨List.Pairwise.nil, fun _ hx => absurd hx List.not_mem_nil⟩
  finite _ hx := absurd hx List.not_mem_nil
  pending := Nat.zero_lt_succ _
  trend := (List.rtake_nil trendCapacity).symm
  past := ⟨List.Pairwise.nil, fun _ hx => absurd hx List.not_mem_nil⟩
  recent _ _ := rfl

section
variable {m m' : LocalMachine} {pushed : List MetricSample} {es : List LocalEvent}
  {flushed : Bool} {seedNowMs : Int}

/-- A turn pushes its sample and records it. -/
theorem Trending.turn (h : Trending pushed m) {turn : SampleTurn} (ho : m.Orderly (.turn turn)) :
    Trending (pushed ++ [turn.tick.sample]) (m.after (.turn turn)) := by
  obtain ⟨hlater, hfinite, hok, hcap, hkept⟩ := ho
  obtain ⟨hkeyed, hrecorded, hpending⟩ :=
    Sampler.recorded_collect h.keyed (h.recorded.append hlater) hok
  have hcap' : turn.tick.liveSize 0 ≤ (m.loop.sampler.collect turn.tick).store.sizeCapBytes :=
    hcap.trans_eq (Sampler.sizeCapBytes_collect _ _).symm
  obtain ⟨hkeyed', hpart, hrecent⟩ := Sampler.recorded_maintain hkeyed hcap'
  refine ⟨hkeyed', ?_, fun x hx => ?_, ?_, ?_, h.past.append hlater, fun cutMs hcut => ?_⟩
  · exact (hrecorded ▸ h.recorded.append hlater).sublist hpart
  · have hx' := hpart.subset hx
    rw [hrecorded, List.mem_append, List.mem_singleton] at hx'
    rcases hx' with hx' | rfl
    · exact h.finite x hx'
    · exact hfinite
  · exact (congrArg List.length (Sampler.pending_maintain _ _)).trans_lt hpending
  · have hpush := m.loop.trend.samples_push (.from turn.tick.sample)
    rw [h.trend, rtake_append_rtake] at hpush
    rw [List.map_append]
    exact hpush
  · have hold := h.recent cutMs ((Int.sub_le_sub_right hlater.le _).trans hcut)
    refine Eq.trans ?_ (hrecent cutMs (hkept.trans hcut)).symm
    rw [hrecorded, List.filter_append, List.filter_append, hold]

/-- A restart reads the trend back from what is stored. -/
theorem Trending.restart (h : Trending pushed m) (ho : m.Orderly (.restart flushed seedNowMs)) :
    ∃ stored, stored = (if flushed then m.loop.sampler.recorded else
        m.loop.sampler.store.stored) ∧
      Trending (stored.filter (seedNowMs - localTrendSeedMs ≤ ·.timestampMs))
        (m.after (.restart flushed seedNowMs)) := by
  obtain ⟨hlater, hnow, hclock, hfit⟩ := ho
  obtain ⟨hkeyed, hstored⟩ := Sampler.stored_flushPending h.keyed h.recorded flushed
  have hpart : (m.loop.sampler.flushPending flushed).store.stored.Sublist
      m.loop.sampler.recorded := by
    rw [hstored]
    cases flushed with
    | true => exact List.Sublist.refl _
    | false => exact List.sublist_append_left _ _
  have hbound := (h.recorded.sublist hpart).mono hlater
  have hfinite := fun x hx => h.finite x (hpart.subset hx)
  have hall : (m.after (.restart flushed seedNowMs)).loop.sampler.recorded =
      (m.loop.sampler.flushPending flushed).store.stored := List.append_nil _
  refine ⟨_, hstored, hkeyed, ?_, ?_, Nat.zero_lt_succ _, ?_, ?_, fun cutMs hcut => ?_⟩
  · rw [hall]
    exact hbound
  · rw [hall]
    exact hfinite
  · exact samples_resumeLocalTrend hkeyed hfinite hbound hnow hclock hfit
  · exact hbound.sublist List.filter_sublist
  · rw [hall, List.filter_filter]
    refine List.filter_congr fun x _ => ?_
    have hcut' : seedNowMs - localTrendSeedMs ≤ cutMs := hcut
    grind

/-- Turns and restarts in good order keep the trend and the record together. -/
theorem trending_of_run (hrun : Lts.Run Step installed es m) : ∃ pushed, Trending pushed m := by
  refine hrun.invariant (I := fun m => ∃ pushed, Trending pushed m) ⟨[], trending_installed⟩
    fun m e m' hm hstep => ?_
  obtain ⟨pushed, h⟩ := hm
  obtain ⟨ho, rfl⟩ := hstep
  cases e with
  | turn turn => exact ⟨_, h.turn ho⟩
  | restart flushed seedNowMs =>
    obtain ⟨stored, -, h'⟩ := h.restart ho
    exact ⟨_, h'⟩

/-- The last 15 minutes of the trend, at a reading of the clock. -/
def lastTrend (m : LocalMachine) (nowMs : Int) : List TrendSample :=
  m.loop.trend.samples.filter (nowMs - localTrendSeedMs ≤ ·.timestampMs)

/-- The last 15 minutes of the trend are those of the record. -/
theorem Trending.lastTrend_eq (h : Trending pushed m) (hlater : m.clockMs ≤ seedNowMs) :
    m.lastTrend seedNowMs = ((m.loop.sampler.recorded.filter
      (seedNowMs - localTrendSeedMs ≤ ·.timestampMs)).map TrendSample.from).rtake
        trendCapacity := by
  rw [lastTrend, h.trend, h.past.filter_rtake, h.recent _ (Int.sub_le_sub_right hlater _)]

end

/-- A turn at a time. -/
def turnAt (ms : Int) : SampleTurn where
  published := ⟨[], { AgentConfig.default with alertsEnabled := false }, rfl⟩
  tick :=
    { sample :=
        { timestampMs := ms
          sequence := 1
          cpuPercent := none
          memoryUsedBytes := some 1
          memoryTotalBytes := some 2
          swapUsedBytes := none
          swapTotalBytes := none
          disks := []
          network := none
          temperature := none
          uptimeSeconds := 0
          errors := [] }
      insertOk := true
      nowMs := ms
      pruneOk := true
      liveSize := fun _ => 0 }

/-- Two turns with a restart between them. -/
def restarted : LocalMachine :=
  ((installed.after (.turn (turnAt 2000))).after (.restart true 3000)).after (.turn (turnAt 4000))

end LocalMachine

end Rackio
