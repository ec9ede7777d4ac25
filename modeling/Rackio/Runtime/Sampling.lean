import Rackio.Lib.Progression
import Rackio.Core.Storage

/-!
# The sampling loop

One turn of `sample_loop` of `agent/src/runtime/sampling.rs`, as far as it writes the store: the
sample of a tick is buffered, five samples make a batch, and every 300 ticks the history is pruned.
What the loop does besides (alerts, health, the live trend) does not touch the store. The outcome of
the two store calls and the sizes the size cap reads come with the tick.

The raw history of a loop that ticks regularly is a window of its samples, without gaps
(`window_of_regular`): a batch extends it at its end and `prune` shortens it at its front. So its
timestamps are evenly spaced (`keys_of_regular`).
-/

namespace Rackio

open Progression

/-- What one turn of the loop meets: the collected sample, whether `insert_batch` and `prune`
succeed if they are called, the clock at the `prune` and the sizes it reads. -/
structure Tick where
  sample : MetricSample
  insertOk : Bool
  nowMs : Int
  pruneOk : Bool
  liveSize : Nat → Int

/-- The state of `sample_loop` that decides about the store. -/
structure Sampler where
  store : MetricStore
  pending : List MetricSample
  pruneCounter : Nat

namespace Sampler

/-- The loop on a new store. -/
def new : Sampler := ⟨.new, [], 0⟩

/-- Buffer the sample and commit a full batch. A batch that fails is dropped. -/
def collect (s : Sampler) (tick : Tick) : Sampler :=
  let pending := s.pending ++ [tick.sample]
  if 5 ≤ pending.length then
    { s with
      store := if tick.insertOk then s.store.insertBatch pending else s.store
      pending := [] }
  else { s with pending }

/-- A batch that commits. -/
theorem collect_of_insertOk {s : Sampler} {tick : Tick} (h : tick.insertOk = true) :
    s.collect tick =
      if 5 ≤ (s.pending ++ [tick.sample]).length then
        { s with store := s.store.insertBatch (s.pending ++ [tick.sample]), pending := [] }
      else { s with pending := s.pending ++ [tick.sample] } := by
  unfold collect
  rw [h]
  rfl

/-- Prune on every 300th turn. -/
def maintain (s : Sampler) (tick : Tick) : Sampler :=
  let pruneCounter := min (s.pruneCounter + 1) 65535
  if 300 ≤ pruneCounter then
    { s with
      store := if tick.pruneOk then s.store.prune tick.nowMs tick.liveSize else s.store
      pruneCounter := 0 }
  else { s with pruneCounter }

/-- One turn of the loop. -/
def tick (s : Sampler) (tick : Tick) : Sampler := (s.collect tick).maintain tick

/-- The loop after a list of turns. -/
def run (ticks : List Tick) : Sampler := ticks.foldl Sampler.tick new

theorem run_snoc (ticks : List Tick) (last : Tick) :
    run (ticks ++ [last]) = ((run ticks).collect last).maintain last := by
  rw [run, List.foldl_append]
  rfl

end Sampler

/-- The raw row of the sample of a tick. -/
def Tick.row (tick : Tick) : Int × MetricSample := (tick.sample.timestampMs, tick.sample)

/-- A tick that runs as meant: its sample and its clock say `timestampMs`, the store calls succeed,
and the floats of the sample are finite, as the collector reports them. -/
structure Tick.Regular (tick : Tick) (timestampMs : Int) : Prop where
  timestamp : tick.sample.timestampMs = timestampMs
  now : tick.nowMs = timestampMs
  insertOk : tick.insertOk = true
  pruneOk : tick.pruneOk = true
  finite : tick.sample.Finite

/-- The loop ticks every `SAMPLE_INTERVAL_MS` from `start` on. -/
def Regular (start : Int) (ticks : List Tick) : Prop :=
  ∀ i (hi : i < ticks.length), (ticks.get ⟨i, hi⟩).Regular (start + sampleIntervalMs * i)

/-- A shorter run is regular too. -/
theorem Regular.init {start : Int} {ticks : List Tick} {tick : Tick}
    (h : Regular start (ticks ++ [tick])) : Regular start ticks := by
  intro i hi
  have hi' := h i (by rw [List.length_append]; omega)
  rwa [List.get_eq_getElem, List.getElem_append_left hi] at hi'

/-- The last tick of a regular run. -/
theorem Regular.last {start : Int} {ticks : List Tick} {tick : Tick}
    (h : Regular start (ticks ++ [tick])) :
    tick.Regular (start + sampleIntervalMs * ticks.length) := by
  have hi' := h ticks.length (by rw [List.length_append]; exact Nat.lt_succ_self _)
  rwa [List.get_eq_getElem, List.getElem_concat_length rfl] at hi'

/-- The rows of the ticks of a regular run are evenly spaced. -/
theorem Regular.keys {start : Int} {ticks : List Tick} (h : Regular start ticks) (lo hi : Nat)
    (hhi : hi ≤ ticks.length) :
    (((ticks.take hi).drop lo).map Tick.row).map (·.1) =
      progression start sampleIntervalMs lo (hi - lo) := by
  refine List.ext_getElem ?_ ?_
  · simp only [progression, List.length_map, List.length_drop, List.length_take,
      List.length_range']
    omega
  · intro i h1 h2
    simp only [List.length_map, List.length_drop, List.length_take] at h1
    have hreg := (h (lo + i) (by omega)).timestamp
    rw [List.get_eq_getElem] at hreg
    simp only [progression, List.getElem_map, List.getElem_drop, List.getElem_take, Tick.row, hreg,
      List.getElem_range', one_mul]

/-! ## The window -/

/-- After `ticks` the raw rows are those of the ticks from `lo` to `hi`, and the samples since are
pending. -/
structure Window (ticks : List Tick) (lo hi : Nat) (s : Sampler) : Prop where
  le : lo ≤ hi
  bound : hi ≤ ticks.length
  rows : s.store.samples.rows = ((ticks.take hi).drop lo).map Tick.row
  pending : s.pending = (ticks.drop hi).map (·.sample)
  cap : s.store.sizeCapBytes = sizeCapBytes

theorem Window.new : Window [] 0 0 .new := ⟨le_rfl, le_rfl, rfl, rfl, rfl⟩

/-- The end of the window after one more tick: a batch extends it to the tick that fills the
batch. -/
def nextEnd (hi length : Nat) : Nat := if hi + 5 ≤ length + 1 then length + 1 else hi

/-- A batch extends the window. -/
theorem Window.collect {start : Int} {ticks : List Tick} {tick : Tick} {lo hi : Nat} {s : Sampler}
    (h : Window ticks lo hi s) (hreg : Regular start (ticks ++ [tick])) :
    Window (ticks ++ [tick]) lo (nextEnd hi ticks.length) (s.collect tick) := by
  have hpending : s.pending ++ [tick.sample] = ((ticks ++ [tick]).drop hi).map (·.sample) := by
    rw [List.drop_append_of_le_length h.bound, List.map_append, h.pending]
    rfl
  have htake : (ticks ++ [tick]).take hi = ticks.take hi := List.take_append_of_le_length h.bound
  have hlen : (ticks ++ [tick]).length = ticks.length + 1 := by simp
  have hle := h.le
  have hbound := h.bound
  have hfull : 5 ≤ (s.pending ++ [tick.sample]).length ↔ hi + 5 ≤ ticks.length + 1 := by
    rw [hpending, List.length_map, List.length_drop, hlen]
    omega
  rw [Sampler.collect_of_insertOk hreg.last.insertOk, nextEnd]
  by_cases hdue : hi + 5 ≤ ticks.length + 1
  · rw [if_pos (hfull.2 hdue), if_pos hdue, hpending]
    have hbatch : ((ticks ++ [tick]).drop hi).map Tick.row =
        (((ticks ++ [tick]).drop hi).map (·.sample)).map fun x => (x.timestampMs, x) := by
      rw [List.map_map]
      rfl
    have happend : ((ticks ++ [tick]).drop lo).map Tick.row =
        s.store.samples.rows ++
          (((ticks ++ [tick]).drop hi).map (·.sample)).map fun x => (x.timestampMs, x) := by
      rw [h.rows, ← hbatch, ← List.map_append, ← htake,
        ← List.drop_append_of_le_length (by rw [List.length_take, hlen]; omega),
        List.take_append_drop]
    have hsorted : (s.store.samples.rows ++
        (((ticks ++ [tick]).drop hi).map (·.sample)).map fun x => (x.timestampMs, x)).Pairwise
          fun a b => a.1 < b.1 := by
      rw [← happend]
      have hkeys := hreg.keys lo _ le_rfl
      rw [List.take_length] at hkeys
      rw [← List.pairwise_map (f := fun r : Int × MetricSample => r.1), hkeys]
      refine List.Pairwise.imp ?_ (pairwise_progression (by decide))
      intro a b hab
      have hpos : (0 : Int) < sampleIntervalMs := by decide
      omega
    refine ⟨?_, ?_, ?_, ?_, ?_⟩
    · omega
    · exact hlen.ge
    · rw [← hlen, List.take_length, happend]
      exact MetricStore.rows_insertBatch hsorted
    · rw [← hlen, List.drop_length]
      rfl
    · exact (MetricStore.sizeCapBytes_insertBatch _ _).trans h.cap
  · rw [if_neg (fun hf => hdue (hfull.1 hf)), if_neg hdue, hpending]
    refine ⟨h.le, ?_, ?_, rfl, h.cap⟩
    · omega
    · rw [htake]
      exact h.rows

/-- `prune` shortens the window at its front. -/
theorem Window.maintain {ticks : List Tick} {lo hi : Nat} {s : Sampler} (h : Window ticks lo hi s)
    (tick : Tick) : ∃ lo', lo ≤ lo' ∧ Window ticks lo' hi (s.maintain tick) := by
  unfold Sampler.maintain
  dsimp only
  split
  · split
    · obtain ⟨front, hfront⟩ :=
        MetricStore.prune_samples_suffix s.store tick.nowMs tick.liveSize
      have hdrop : (s.store.prune tick.nowMs tick.liveSize).samples.rows =
          s.store.samples.rows.drop front.length := by
        rw [← hfront, List.drop_left]
      have hcap := (MetricStore.sizeCapBytes_prune s.store tick.nowMs tick.liveSize).trans h.cap
      refine ⟨min (lo + front.length) hi, ?_, ?_, h.bound, ?_, h.pending, hcap⟩
      · have := h.le
        omega
      · exact min_le_right _ _
      · show (s.store.prune tick.nowMs tick.liveSize).samples.rows = _
        rw [hdrop, h.rows, ← List.map_drop, List.drop_drop]
        congr 1
        rcases le_total (lo + front.length) hi with hle | hle
        · rw [min_eq_left hle]
        · rw [min_eq_right hle, List.drop_eq_nil_of_le, List.drop_eq_nil_of_le]
          · rw [List.length_take]; omega
          · rw [List.length_take]; omega
    · exact ⟨lo, le_rfl, h.le, h.bound, h.rows, h.pending, h.cap⟩
  · exact ⟨lo, le_rfl, h.le, h.bound, h.rows, h.pending, h.cap⟩

/-- The raw history of a regular run is a window of its samples. -/
theorem window_of_regular {start : Int} {ticks : List Tick} (h : Regular start ticks) :
    ∃ lo hi, Window ticks lo hi (Sampler.run ticks) := by
  induction ticks using List.reverseRecOn with
  | nil => exact ⟨0, 0, .new⟩
  | append_singleton ticks tick ih =>
    obtain ⟨lo, hi, hw⟩ := ih h.init
    obtain ⟨lo', -, hw'⟩ := (hw.collect h).maintain tick
    rw [Sampler.run_snoc]
    exact ⟨lo', _, hw'⟩

/-- The timestamps of the raw history of a regular run are evenly spaced. -/
theorem keys_of_regular {start : Int} {ticks : List Tick} (h : Regular start ticks) :
    ∃ lo n, lo + n ≤ ticks.length ∧
      (Sampler.run ticks).store.samples.keys = progression start sampleIntervalMs lo n := by
  obtain ⟨lo, hi, hw⟩ := window_of_regular h
  have hle := hw.le
  have hbound := hw.bound
  refine ⟨lo, hi - lo, by omega, ?_⟩
  rw [Table.keys, hw.rows, h.keys lo hi hbound]

/-- A raw row of a regular run is that of a tick. -/
theorem mem_rows_of_regular {start : Int} {ticks : List Tick} (h : Regular start ticks)
    {r : Int × MetricSample} (hr : r ∈ (Sampler.run ticks).store.samples.rows) :
    ∃ tick ∈ ticks, r = tick.row ∧ tick.sample.Finite := by
  obtain ⟨lo, hi, hw⟩ := window_of_regular h
  rw [hw.rows] at hr
  obtain ⟨tick, htick, rfl⟩ := List.mem_map.1 hr
  have hmem : tick ∈ ticks := List.mem_of_mem_take (List.mem_of_mem_drop htick)
  obtain ⟨i, hi, rfl⟩ := List.getElem_of_mem hmem
  exact ⟨_, hmem, rfl, (h i hi).finite⟩

/-! ## Minute rows -/

/-- The timestamp lies where its minute is an `i64` and the next millisecond is one too. -/
def InClock (t : Int) : Prop := FitsI64 (t / minuteMs * minuteMs) ∧ t < i64Max

/-- A regular run from one such timestamp to another one stays there. -/
theorem Regular.inClock {start : Int} {ticks : List Tick} (h : Regular start ticks)
    (hstart : FitsI64 (start / minuteMs * minuteMs))
    (hend : start + sampleIntervalMs * ticks.length < i64Max) :
    ∀ tick ∈ ticks, InClock tick.sample.timestampMs := by
  intro tick htick
  obtain ⟨i, hi, rfl⟩ := List.getElem_of_mem htick
  have hts := (h i hi).timestamp
  rw [List.get_eq_getElem] at hts
  unfold InClock
  rw [hts]
  unfold FitsI64 i64Min i64Max minuteMs sampleIntervalMs at *
  omega

/-- The minute of a timestamp of the clock. -/
theorem InClock.minuteKey {t : Int} (h : InClock t) :
    minuteMs ∣ minuteKey t ∧ i64Min ≤ minuteKey t ∧ minuteKey t < i64Max := by
  have hkey : Rackio.minuteKey t = t / minuteMs * minuteMs := wrapI64_of_fits h.1
  have hlt := h.2
  rw [hkey]
  refine ⟨Dvd.intro_left _ rfl, h.1.1, ?_⟩
  unfold minuteMs at *
  omega

/-- The keys of the minute rows are minutes. -/
def MinuteKeys (store : MetricStore) : Prop :=
  ∀ r ∈ store.minutes.rows, minuteMs ∣ r.1 ∧ i64Min ≤ r.1 ∧ r.1 < i64Max

theorem MinuteKeys.collect {s : Sampler} {tick : Tick} (h : MinuteKeys s.store)
    (hclock : ∀ x ∈ s.pending ++ [tick.sample], InClock x.timestampMs) :
    MinuteKeys (s.collect tick).store := by
  unfold Sampler.collect
  dsimp only
  split
  · split
    · intro r hr
      rcases MetricStore.mem_minutes_insertBatch hr with ⟨r', hr', hkey⟩ | ⟨x, hx, hkey⟩
      · exact hkey ▸ h r' hr'
      · rw [hkey]
        exact (hclock x hx).minuteKey
    · exact h
  · exact h

theorem MinuteKeys.maintain {s : Sampler} (h : MinuteKeys s.store) (tick : Tick) :
    MinuteKeys (s.maintain tick).store := by
  unfold Sampler.maintain
  dsimp only
  split
  · split
    · intro r hr
      exact h r ((MetricStore.prune_pruned s.store tick.nowMs tick.liveSize).minutes hr)
    · exact h
  · exact h

/-- The keys of the minute rows of a regular run are minutes. -/
theorem minuteKeys_of_regular {start : Int} {ticks : List Tick} (h : Regular start ticks)
    (hclock : ∀ tick ∈ ticks, InClock tick.sample.timestampMs) :
    MinuteKeys (Sampler.run ticks).store := by
  induction ticks using List.reverseRecOn with
  | nil => intro r hr; cases hr
  | append_singleton ticks tick ih =>
    obtain ⟨lo, hi, hw⟩ := window_of_regular h.init
    rw [Sampler.run_snoc]
    refine (MinuteKeys.collect (ih h.init ?_) ?_).maintain tick
    · exact fun t ht => hclock t (List.mem_append_left _ ht)
    · intro x hx
      rw [hw.pending, List.mem_append, List.mem_map, List.mem_singleton] at hx
      rcases hx with ⟨t, ht, rfl⟩ | rfl
      · exact hclock t (List.mem_append_left _ (List.mem_of_mem_drop ht))
      · exact hclock tick (List.mem_append_right _ (.head _))

/-! ## The first day -/

/-- A `prune` within the size cap whose retention reaches back to the first row leaves the window as
it is. -/
theorem Window.maintain_of_young {ticks : List Tick} {lo hi : Nat} {s : Sampler} {tick : Tick}
    (h : Window ticks lo hi s) (hcap : tick.liveSize 0 ≤ sizeCapBytes)
    (hyoung : 299 ≤ s.pruneCounter →
      ∀ r ∈ s.store.samples.rows, wrapI64 (tick.nowMs - rawRetentionMs) ≤ r.1) :
    Window ticks lo hi (s.maintain tick) := by
  unfold Sampler.maintain
  dsimp only
  split
  · next hdue =>
    split
    · refine ⟨h.le, h.bound, ?_, h.pending, ?_⟩
      · rw [← h.rows]
        exact MetricStore.prune_samples_of_le (h.cap ▸ hcap) (hyoung (by omega))
      · exact (MetricStore.sizeCapBytes_prune s.store tick.nowMs tick.liveSize).trans h.cap
    · exact ⟨h.le, h.bound, h.rows, h.pending, h.cap⟩
  · exact ⟨h.le, h.bound, h.rows, h.pending, h.cap⟩

/-- The counter of the loop is not touched by a batch. -/
theorem Sampler.pruneCounter_collect (s : Sampler) (tick : Tick) :
    (s.collect tick).pruneCounter = s.pruneCounter := by
  unfold Sampler.collect
  dsimp only
  split
  · rfl
  · rfl

/-- A batch keeps the cap. -/
theorem Sampler.sizeCapBytes_collect (s : Sampler) (tick : Tick) :
    (s.collect tick).store.sizeCapBytes = s.store.sizeCapBytes := by
  unfold collect
  dsimp only
  split
  · cases tick.insertOk with
    | true => exact MetricStore.sizeCapBytes_insertBatch _ _
    | false => rfl
  · rfl

/-- The counter after a turn. -/
theorem Sampler.pruneCounter_maintain (s : Sampler) (tick : Tick) (h : s.pruneCounter < 300) :
    (s.maintain tick).pruneCounter = (s.pruneCounter + 1) % 300 := by
  unfold Sampler.maintain
  dsimp only
  split
  · show 0 = _
    omega
  · show min (s.pruneCounter + 1) 65535 = _
    omega

/-- A `prune` leaves the buffer as it is. -/
theorem Sampler.pending_maintain (s : Sampler) (tick : Tick) :
    (s.maintain tick).pending = s.pending := by
  unfold Sampler.maintain
  dsimp only
  split
  · rfl
  · rfl

/-- The length of the buffer after a turn: a full batch leaves it empty, whether or not it was
committed. -/
theorem Sampler.length_pending_collect (s : Sampler) (tick : Tick) (h : s.pending.length < 5) :
    (s.collect tick).pending.length = (s.pending.length + 1) % 5 := by
  have hlen : (s.pending ++ [tick.sample]).length = s.pending.length + 1 := by simp
  unfold Sampler.collect
  dsimp only
  rw [hlen]
  split
  · show 0 = _
    omega
  · show (s.pending ++ [tick.sample]).length = _
    omega

/-- The window of a regular run of less than 43500 ticks from the epoch, within the size cap: no
`prune` deletes a raw row before the 43500th tick. -/
theorem window_of_first_day {ticks : List Tick} (h : Regular 0 ticks) (hlen : ticks.length < 43500)
    (hcap : ∀ tick ∈ ticks, tick.liveSize 0 ≤ sizeCapBytes) :
    ∃ hi, Window ticks 0 hi (Sampler.run ticks) ∧ ticks.length < hi + 5 ∧ hi % 5 = 0 ∧
      (Sampler.run ticks).pruneCounter = ticks.length % 300 := by
  induction ticks using List.reverseRecOn with
  | nil => exact ⟨0, .new, by decide, rfl, rfl⟩
  | append_singleton ticks tick ih =>
    rw [List.length_append, List.length_singleton] at hlen
    obtain ⟨hi, hw, hlast, hfive, hcounter⟩ := ih h.init (by omega)
      fun t ht => hcap t (List.mem_append_left _ ht)
    have hw' := hw.collect h
    have hbound := hw.bound
    have hnow : tick.nowMs = sampleIntervalMs * ticks.length := by
      rw [h.last.now, zero_add]
    refine ⟨nextEnd hi ticks.length, ?_, ?_, ?_, ?_⟩
    · rw [Sampler.run_snoc]
      refine hw'.maintain_of_young (hcap tick (List.mem_append_right _ (.head _))) ?_
      intro hdue r hr
      -- The 300th, 600th, …, 43200th tick: the clock is below the retention.
      rw [Sampler.pruneCounter_collect, hcounter] at hdue
      have hlow : wrapI64 (tick.nowMs - rawRetentionMs) ≤ 0 := by
        rw [hnow, wrapI64_of_fits]
        · unfold sampleIntervalMs rawRetentionMs
          omega
        · unfold FitsI64 i64Min i64Max sampleIntervalMs rawRetentionMs
          omega
      have hkey : 0 ≤ r.1 := by
        rw [hw'.rows] at hr
        have hmem := List.mem_map_of_mem (f := (·.1)) hr
        rw [h.keys 0 _ hw'.bound] at hmem
        obtain ⟨k, -, -, hk⟩ := mem_progression.1 hmem
        unfold sampleIntervalMs at hk
        omega
      omega
    · rw [List.length_append, List.length_singleton]
      unfold nextEnd
      split <;> omega
    · unfold nextEnd
      split <;> omega
    · rw [Sampler.run_snoc, Sampler.pruneCounter_maintain, Sampler.pruneCounter_collect, hcounter,
        List.length_append, List.length_singleton]
      · omega
      · rw [Sampler.pruneCounter_collect, hcounter]
        omega

end Rackio
