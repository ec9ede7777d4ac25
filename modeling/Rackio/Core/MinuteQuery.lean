import Rackio.Lib.Outcome
import Rackio.Core.History

/-!
# What a minute query returns

A minute query reads its rows one by one, each of them from its own minute row and nothing else. So
what holds of the rows of every query over every range is what holds of the row of every minute
(`forall_query_iff`), and every query succeeds exactly when every minute is read (`query_ok_iff`).
A minute is read when its integer sums are `i64`s and its last sample is read back, for which its
temperature has to be a number (`MetricSample.Readable`).
-/

namespace Rackio

open Lts

/-! ## A sample read back -/

namespace MetricSample

/-- The temperature of the sample, if it has one, is a number. -/
def Readable (s : MetricSample) : Prop := ∀ t ∈ s.temperature, t.celsius.isFinite = true

instance (s : MetricSample) : Decidable s.Readable := by
  unfold Readable
  infer_instance

/-- A sample is read back exactly when its temperature is a number. -/
theorem reread_isOk_iff (s : MetricSample) : s.reread.isOk = true ↔ s.Readable := by
  unfold reread Readable
  cases s.temperature with
  | none => simp [Except.isOk, Except.toBool]
  | some t => cases ht : t.celsius.isFinite <;> simp [Except.isOk, Except.toBool, ht]

/-- What is read back has the memory total of the sample. -/
theorem memoryTotalBytes_reread {s last : MetricSample} (h : s.reread = .ok last) :
    last.memoryTotalBytes = s.memoryTotalBytes := by
  unfold reread at h
  split at h
  · cases h
    rfl
  · split at h
    · cases h
      rfl
    · cases h

end MetricSample

/-! ## The row of a minute -/

/-- A row is reported at its minute. -/
theorem timestampMs_minuteSample {m : Int} {r : MinuteRow} {row : MetricSample}
    (h : MetricStore.minuteSample m r = .ok row) : row.timestampMs = m := by
  unfold MetricStore.minuteSample at h
  -- One bind for each integer column, and one for the last sample.
  iterate 8 obtain ⟨_, -, h⟩ := Outcome.bind_eq_ok_iff.1 h
  cases h
  rfl

/-- A row is reported only if its last sample is read back. -/
theorem readable_of_minuteSample {m : Int} {b : Bucket} {row : MetricSample}
    (h : MetricStore.minuteSample m b.row = .ok row) : b.last.Readable := by
  unfold MetricStore.minuteSample at h
  iterate 7 obtain ⟨_, -, h⟩ := Outcome.bind_eq_ok_iff.1 h
  obtain ⟨last, hlast, -⟩ := Outcome.bind_eq_ok_iff.1 h
  rw [b.row_lastSample] at hlast
  rw [← MetricSample.reread_isOk_iff, hlast]
  rfl

/-- What a row reports of the integer readings of its bucket: means, but for the memory total, which
is that of the last sample. -/
structure Bucket.Reported (b : Bucket) (row : MetricSample) : Prop where
  memoryUsed : row.memoryUsedBytes = mean (b.readings (·.memory))
  memoryTotal : row.memoryTotalBytes = b.last.memoryTotalBytes
  network : row.network =
    if b.readings (·.rx) = [] ∧ b.readings (·.tx) = [] then none
    else some ⟨(mean (b.readings (·.rx))).getD 0, (mean (b.readings (·.tx))).getD 0⟩
  disks : row.disks =
    match mean ((b.readings (·.disk)).map (·.1)), mean ((b.readings (·.disk)).map (·.2)) with
    | some usedBytes, some totalBytes => [⟨"(minute average)", totalBytes, usedBytes⟩]
    | _, _ => []
  swapUsed : row.swapUsedBytes = mean ((b.readings (·.swap)).map (·.1))
  swapTotal : row.swapTotalBytes = mean ((b.readings (·.swap)).map (·.2))

/-- A row reports the readings of its bucket, if its integer sums are `i64`s. -/
theorem reported_of_minuteSample {m : Int} {b : Bucket} (hfits : b.Fits) {row : MetricSample}
    (h : MetricStore.minuteSample m b.row = .ok row) : b.Reported row := by
  rw [Bucket.row_eq_aggregate hfits, Bucket.minuteSample_eq] at h
  cases hlast : b.last.reread with
  | error e =>
    rw [hlast] at h
    cases h
  | ok last =>
    rw [hlast] at h
    have htotal := MetricSample.memoryTotalBytes_reread hlast
    cases h
    exact ⟨rfl, htotal, rfl, rfl, rfl, rfl⟩

/-- The row of a bucket is reported if its integer sums are `i64`s and its last sample is read
back. -/
theorem exists_minuteSample {b : Bucket} (hfits : b.Fits) (hread : b.last.Readable) (m : Int) :
    ∃ row, MetricStore.minuteSample m b.row = .ok row := by
  rw [Bucket.row_eq_aggregate hfits, Bucket.minuteSample_eq]
  rw [← MetricSample.reread_isOk_iff] at hread
  cases hlast : b.last.reread with
  | error e =>
    rw [hlast] at hread
    cases hread
  | ok last => exact ⟨_, rfl⟩

namespace Recorded

variable {h : Recorded}

/-! ## The rows of a query -/

/-- A query returns rows of minutes in its range. -/
theorem mem_query (hi : Inv h) {fromMs toMs : Int} {rows : List MetricSample}
    (hq : h.store.query fromMs toMs .minute = .ok rows) {row : MetricSample} (hrow : row ∈ rows) :
    ∃ m b, h.accepted.find m = some b ∧ MetricStore.minuteSample m b.row = .ok row := by
  obtain ⟨⟨m, r⟩, hr, hok⟩ := Outcome.mem_of_mapM_ok hq row hrow
  have hfind := Table.mem_rows_iff.1 (List.mem_of_mem_filter (List.mem_of_mem_take hr))
  rw [hi.rows m] at hfind
  obtain ⟨b, hb, rfl⟩ := Option.map_eq_some_iff.1 hfind
  exact ⟨m, b, hb, hok⟩

/-- The query of a single minute reads its row. -/
theorem query_minute (hi : Inv h) {m : Int} {b : Bucket} (hb : h.accepted.find m = some b) :
    h.store.query m m .minute = (MetricStore.minuteSample m b.row).map ([·]) := by
  have hfind : h.store.minutes.find m = some b.row := by rw [hi.rows m, hb]; rfl
  have hrange : h.store.minutes.rows.filter (MetricStore.between m m) = [(m, b.row)] := by
    rw [← Table.filter_key_eq hfind]
    congr 1
    funext r
    exact decide_eq_decide.2 ⟨fun hr => le_antisymm hr.2 hr.1, fun hr => ⟨hr.ge, hr.le⟩⟩
  show ((h.store.minutes.rows.filter (MetricStore.between m m)).take maxQueryRows).mapM _ = _
  rw [hrange]
  cases hrow : MetricStore.minuteSample m b.row with
  | error e => exact congrArg (· >>= _) hrow
  | ok row => exact congrArg (· >>= _) hrow

/-- What holds of the rows of every query is what holds of the row of every minute. -/
theorem forall_query_iff (hi : Inv h) {P : MetricSample → Prop} :
    (∀ fromMs toMs rows, h.store.query fromMs toMs .minute = .ok rows → ∀ row ∈ rows, P row) ↔
      ∀ m b, h.accepted.find m = some b → ∀ row, MetricStore.minuteSample m b.row = .ok row →
        P row := by
  refine ⟨fun hall m b hb row hrow => ?_, fun hall fromMs toMs rows hq row hrow => ?_⟩
  · refine hall m m [row] ?_ row (.head _)
    rw [query_minute hi hb, hrow]
    rfl
  · obtain ⟨m, b, hb, hok⟩ := mem_query hi hq hrow
    exact hall m b hb row hok

/-- Every query succeeds exactly when every minute is read. -/
theorem query_ok_iff (hi : Inv h) :
    (∀ fromMs toMs, ∃ rows, h.store.query fromMs toMs .minute = .ok rows) ↔
      ∀ m b, h.accepted.find m = some b → ∃ row, MetricStore.minuteSample m b.row = .ok row := by
  refine ⟨fun hall m b hb => ?_, fun hall fromMs toMs => ?_⟩
  · obtain ⟨rows, hq⟩ := hall m m
    rw [query_minute hi hb] at hq
    cases hrow : MetricStore.minuteSample m b.row with
    | error e =>
      rw [hrow] at hq
      cases hq
    | ok row => exact ⟨row, rfl⟩
  · refine Outcome.exists_mapM_ok fun r hr => ?_
    obtain ⟨m, row⟩ := r
    have hfind := Table.mem_rows_iff.1 (List.mem_of_mem_filter (List.mem_of_mem_take hr))
    rw [hi.rows m] at hfind
    obtain ⟨b, hb, rfl⟩ := Option.map_eq_some_iff.1 hfind
    exact hall m b hb

end Recorded

end Rackio
