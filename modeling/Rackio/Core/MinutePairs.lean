import Rackio.Core.MinuteQuery

/-!
# Used and total of a minute

A minute row reports three pairs of used and total bytes. The fullest disk and the swap are summed
in pairs, each under one count, so that a row reports both sides or neither, and a used side above
its total only if a sample did (`disk_together`, `swap_together`). The memory is not: its used bytes
are an average, and its total is the one of the last sample of the minute. `MemoryMatched` says when
the two belong together anyway, and `memory_pairs_iff` that the rows of a run are right exactly
then; `memory_total_missing` is a minute whose last sample has no memory reading.
-/

namespace Rackio

open Lts

open MetricStore (Event)

/-! ## Pairs of a sample -/

/-- The pairs of used and total bytes of a sample. -/
inductive UsagePair
  | memory | swap | disk
  deriving DecidableEq, Repr

namespace UsagePair

/-- The used side; of the disks it is that of the fullest one. -/
def used : UsagePair → MetricSample → Option UInt64
  | .memory, s => s.memoryUsedBytes
  | .swap, s => s.swapUsedBytes
  | .disk, s => s.worstDisk.map (·.usedBytes)

/-- The total side. -/
def total : UsagePair → MetricSample → Option UInt64
  | .memory, s => s.memoryTotalBytes
  | .swap, s => s.swapTotalBytes
  | .disk, s => s.worstDisk.map (·.totalBytes)

/-- A sample that carries both sides has no more used than total. -/
def Within (p : UsagePair) (s : MetricSample) : Prop :=
  ∀ used ∈ p.used s, ∀ total ∈ p.total s, used ≤ total

/-- The pair of the row of a minute: both sides or neither, and no more used than total if that is
so in every sample of the minute. -/
structure Together (p : UsagePair) (b : Bucket) (row : MetricSample) : Prop where
  both : (p.used row).isSome = (p.total row).isSome
  within : (∀ s ∈ b.samples, p.Within s) → p.Within row

end UsagePair

/-! ## Means -/

/-- The means of the two sides of a list of pairs are in the order of the pairs. -/
theorem mean_le_mean {l : List (Int × Int)} (hle : ∀ p ∈ l, p.1 ≤ p.2) (hnonneg : ∀ p ∈ l, 0 ≤ p.1)
    (hfits : FitsI64 (l.map (·.2)).sum) {used total : UInt64} (hused : used ∈ mean (l.map (·.1)))
    (htotal : total ∈ mean (l.map (·.2))) : used ≤ total := by
  have hsum : (l.map (·.1)).sum ≤ (l.map (·.2)).sum := List.sum_le_sum hle
  have h1 : 0 ≤ (l.map (·.1)).sum := by
    refine List.sum_nonneg fun n hn => ?_
    obtain ⟨p, hp, rfl⟩ := List.mem_map.1 hn
    exact hnonneg p hp
  have hfits1 : FitsI64 (l.map (·.1)).sum := by
    unfold FitsI64 i64Min i64Max at hfits ⊢
    omega
  have hu := toNat_of_mem_mean hused h1 hfits1
  have ht := toNat_of_mem_mean htotal (h1.trans hsum) hfits
  rw [List.length_map] at hu ht
  have hpos : 0 < (l.length : Int) := by
    cases l with
    | nil => cases hused
    | cons p l => exact Int.natCast_pos.2 (Nat.succ_pos _)
  have hdiv := Int.ediv_le_ediv hpos hsum
  rw [UInt64.le_iff_toNat_le]
  omega

/-! ## The pairs that are summed together -/

/-- The bound pair of the swap, of a sample with no more used than total. -/
theorem MetricSample.swap_le {s : MetricSample} (h : UsagePair.swap.Within s) :
    ∀ p ∈ s.swap, p.1 ≤ p.2 := by
  intro p hp
  obtain ⟨used, total, husedBytes, htotalBytes, hused, htotal⟩ := MetricSample.exists_of_swap hp
  have hle := UInt64.le_iff_toNat_le.1 (h used husedBytes total htotalBytes)
  rw [(tryI64_eq_some hused).1, (tryI64_eq_some htotal).1]
  exact Int.ofNat_le.2 hle

/-- The bound pair of the fullest disk, of a sample where it has no more used than total. -/
theorem MetricSample.disk_le {s : MetricSample} (h : UsagePair.disk.Within s) :
    ∀ p ∈ s.disk, p.1 ≤ p.2 := by
  intro p hp
  obtain ⟨d, hd, hused, htotal⟩ := MetricSample.exists_of_disk hp
  have hle := UInt64.le_iff_toNat_le.1 (h d.usedBytes (by rw [UsagePair.used, hd]; rfl)
    d.totalBytes (by rw [UsagePair.total, hd]; rfl))
  rw [(tryI64_eq_some hused).1, (tryI64_eq_some htotal).1]
  exact Int.ofNat_le.2 hle

namespace Bucket

variable {b : Bucket}

/-- What holds of every bound reading holds of the readings. -/
theorem forall_readings {α : Type} {f : MetricSample → Option α} {P : α → Prop}
    (h : ∀ s ∈ b.samples, ∀ a, f s = some a → P a) : ∀ a ∈ b.readings f, P a := by
  intro a ha
  obtain ⟨s, hs, hf⟩ := List.mem_filterMap.1 ha
  exact h s hs a hf

/-- The swap of a row: its sides are the means of one list of pairs. -/
theorem swap_together (hfits : b.Fits) {row : MetricSample}
    (hused : row.swapUsedBytes = mean ((b.readings (·.swap)).map (·.1)))
    (htotal : row.swapTotalBytes = mean ((b.readings (·.swap)).map (·.2))) :
    UsagePair.swap.Together b row := by
  refine ⟨?_, fun h used hu total ht => ?_⟩
  · simp only [UsagePair.used, UsagePair.total, hused, htotal, isSome_mean, List.isEmpty_map]
  · rw [UsagePair.used, hused] at hu
    rw [UsagePair.total, htotal] at ht
    exact mean_le_mean (forall_readings fun s hs => MetricSample.swap_le (h s hs))
      (forall_readings fun _ _ _ hp => (MetricSample.swap_bounds hp).1.1) hfits.swapTotal hu ht

/-- The one disk of a row: its sides are the means of one list of pairs. -/
theorem disk_together (hfits : b.Fits) {row : MetricSample}
    (hdisks : row.disks =
      match mean ((b.readings (·.disk)).map (·.1)), mean ((b.readings (·.disk)).map (·.2)) with
      | some usedBytes, some totalBytes => [⟨"(minute average)", totalBytes, usedBytes⟩]
      | _, _ => []) :
    UsagePair.disk.Together b row := by
  refine ⟨by simp only [UsagePair.used, UsagePair.total, Option.isSome_map], ?_⟩
  intro h used hu total ht
  obtain ⟨d, hd, rfl⟩ := Option.map_eq_some_iff.1 hu
  obtain ⟨d', hd', rfl⟩ := Option.map_eq_some_iff.1 ht
  obtain rfl : d = d' := Option.some.inj (hd.symm.trans hd')
  have hmem : d ∈ row.disks := by
    unfold MetricSample.worstDisk at hd
    exact List.mem_of_mem_filter (mem_of_maxBy hd)
  rw [hdisks] at hmem
  split at hmem
  · next usedBytes totalBytes hused htotal =>
    rw [List.mem_singleton] at hmem
    subst hmem
    exact mean_le_mean (forall_readings fun s hs => MetricSample.disk_le (h s hs))
      (forall_readings fun _ _ _ hp => (MetricSample.disk_bounds hp).1.1) hfits.diskTotal hused
      htotal
  · cases hmem

/-! ## The memory -/

/-- The used and the total memory of the row of a bucket belong together: its last sample has a
total exactly when one of its samples has a used reading that is an `i64`, and if no sample has more
used than total, the used readings sum up to less than one more than that total each. -/
structure MemoryMatched (b : Bucket) : Prop where
  both : (b.readings (·.memory) ≠ []) ↔ b.last.memoryTotalBytes.isSome
  within : (∀ s ∈ b.samples, UsagePair.memory.Within s) → ∀ total ∈ b.last.memoryTotalBytes,
    (b.readings (·.memory)).sum < (total.toNat + 1) * (b.readings (·.memory)).length

/-- The memory of a row: its used side is a mean, and its total is that of the last sample. -/
theorem memory_together_iff (hfits : b.Fits) {row : MetricSample}
    (hused : row.memoryUsedBytes = mean (b.readings (·.memory)))
    (htotal : row.memoryTotalBytes = b.last.memoryTotalBytes) :
    UsagePair.memory.Together b row ↔ b.MemoryMatched := by
  have hsome : (mean (b.readings (·.memory))).isSome ↔ b.readings (·.memory) ≠ [] := by
    rw [isSome_mean, Bool.not_eq_true', List.isEmpty_eq_false_iff]
  have hnonneg : 0 ≤ (b.readings (·.memory)).sum := by
    refine List.sum_nonneg (forall_readings fun _ _ _ hn => ?_)
    exact (bounds_of_bind_tryI64 (f := id) hn).1
  -- A mean is at most a total when the sum is below one more than the total for each reading.
  have hle : ∀ used ∈ mean (b.readings (·.memory)), ∀ total : UInt64, used ≤ total ↔
      (b.readings (·.memory)).sum < (total.toNat + 1) * (b.readings (·.memory)).length := by
    intro used hmean total
    have hne : b.readings (·.memory) ≠ [] := hsome.1 (by rw [hmean]; rfl)
    have hpos : 0 < ((b.readings (·.memory)).length : Int) := by
      exact_mod_cast List.length_pos_iff.2 hne
    have hdiv := toNat_of_mem_mean hmean hnonneg hfits.memory
    rw [UInt64.le_iff_toNat_le, ← Int.ediv_lt_iff_lt_mul hpos, ← hdiv]
    omega
  constructor
  · rintro ⟨hboth, hwithin⟩
    simp only [UsagePair.used, UsagePair.total, hused, htotal] at hboth
    refine ⟨by rw [← hsome, hboth], fun hall total ht => ?_⟩
    obtain ⟨used, hmean⟩ := Option.isSome_iff_exists.1 (hboth.trans (by rw [ht]; rfl))
    refine (hle used hmean total).1 (hwithin hall used ?_ total ?_)
    · rw [UsagePair.used, hused, hmean]
      rfl
    · rw [UsagePair.total, htotal]
      exact ht
  · rintro ⟨hboth, hwithin⟩
    refine ⟨?_, fun hall used hu total ht => ?_⟩
    · simp only [UsagePair.used, UsagePair.total, hused, htotal]
      rw [Bool.eq_iff_iff, hsome, hboth]
    · rw [UsagePair.used, hused] at hu
      rw [UsagePair.total, htotal] at ht
      exact (hle used hu total).2 (hwithin hall total ht)

/-- The row of a bucket has all its pairs right exactly when its memory is matched. -/
theorem together_iff (hfits : b.Fits) {row : MetricSample} (hrow : b.Reported row) :
    (∀ p : UsagePair, p.Together b row) ↔ b.MemoryMatched := by
  have hmemory := memory_together_iff hfits hrow.memoryUsed hrow.memoryTotal
  refine ⟨fun h => hmemory.1 (h .memory), fun h p => ?_⟩
  cases p with
  | memory => exact hmemory.2 h
  | swap => exact swap_together hfits hrow.swapUsed hrow.swapTotal
  | disk => exact disk_together hfits hrow.disks

end Bucket

/-! ## Runs -/

namespace Recorded

/-- In every run of `insert_batch` calls whose sums are `i64`s: the rows of all minute queries have
their pairs of used and total bytes right exactly when the memory of every minute whose last sample
is read back is matched. -/
theorem minute_pairs_iff (batches : List (List MetricSample)) (h : Recorded)
    (hrun : Run Step new (batches.map Event.insertBatch) h)
    (hfits : ∀ m b, h.accepted.find m = some b → b.Fits) :
    (∀ fromMs toMs rows, h.store.query fromMs toMs .minute = .ok rows → ∀ row ∈ rows,
        ∃ b, h.accepted.find row.timestampMs = some b ∧ ∀ p : UsagePair, p.Together b row) ↔
      ∀ m b, h.accepted.find m = some b → b.last.Readable → b.MemoryMatched := by
  rw [forall_query_iff (inv_of_run hrun)]
  constructor
  · intro hall m b hb hread
    obtain ⟨row, hrow⟩ := exists_minuteSample (hfits m b hb) hread m
    obtain ⟨b', hb', htogether⟩ := hall m b hb row hrow
    rw [timestampMs_minuteSample hrow, hb] at hb'
    cases hb'
    have hreported := reported_of_minuteSample (hfits m b hb) hrow
    exact (Bucket.together_iff (hfits m b hb) hreported).1 htogether
  · intro hall m b hb row hrow
    have hmatched := hall m b hb (readable_of_minuteSample hrow)
    have hreported := reported_of_minuteSample (hfits m b hb) hrow
    refine ⟨b, ?_, (Bucket.together_iff (hfits m b hb) hreported).2 hmatched⟩
    rw [timestampMs_minuteSample hrow, hb]

/-! ### One minute -/

/-- A sample with a memory reading. -/
def memorySample (timestampMs : Int) (used total : UInt64) : MetricSample :=
  { bareSample timestampMs with memoryUsedBytes := some used, memoryTotalBytes := some total }

/-- A minute of two memory readings of one machine. -/
def steadyMinute : List MetricSample := [memorySample 0 10 20, memorySample 1000 15 20]

/-- The row of `steadyMinute` has its pairs right. -/
theorem minute_pairs_iff_steady :
    Run Step new ([steadyMinute].map Event.insertBatch) (new.step (.insertBatch steadyMinute)) ∧
      ∀ fromMs toMs rows,
        (new.step (.insertBatch steadyMinute)).store.query fromMs toMs .minute = .ok rows →
        ∀ row ∈ rows, ∃ b, (new.step (.insertBatch steadyMinute)).accepted.find row.timestampMs =
          some b ∧ ∀ p : UsagePair, p.Together b row := by
  have hrun := run_foldl step new ([steadyMinute].map Event.insertBatch)
  have hbucket : ∀ m b, (new.step (.insertBatch steadyMinute)).accepted.find m = some b →
      b = ⟨memorySample 0 10 20, [memorySample 1000 15 20]⟩ := by
    intro m b hb
    have hmem := Table.mem_rows_iff.2 hb
    have hrows : (new.step (.insertBatch steadyMinute)).accepted.rows =
        [(0, ⟨memorySample 0 10 20, [memorySample 1000 15 20]⟩)] := rfl
    rw [hrows, List.mem_singleton] at hmem
    exact congrArg Prod.snd hmem
  refine ⟨hrun, (minute_pairs_iff [steadyMinute] _ hrun fun m b hb => ?_).2 fun m b hb _ => ?_⟩
  · rw [hbucket m b hb]
    exact ⟨by decide, by decide, by decide, by decide, by decide, by decide, by decide⟩
  · rw [hbucket m b hb]
    refine ⟨by decide, fun _ total ht => ?_⟩
    cases ht
    decide

/-- A minute whose last sample has no memory reading. -/
def lostMinute : List MetricSample := [memorySample 0 10 20, bareSample 1000]

/-- The row of `lostMinute` has ten bytes of memory used, and no total. -/
theorem memory_total_missing :
    Run Step new ([lostMinute].map Event.insertBatch) (new.step (.insertBatch lostMinute)) ∧
      (∀ m b, (new.step (.insertBatch lostMinute)).accepted.find m = some b → b.Fits) ∧
      ((new.step (.insertBatch lostMinute)).store.query 0 0 .minute).map
          (List.map fun row => (row.memoryUsedBytes, row.memoryTotalBytes)) =
        .ok [(some 10, none)] ∧
      ¬ ∀ fromMs toMs rows,
        (new.step (.insertBatch lostMinute)).store.query fromMs toMs .minute = .ok rows →
        ∀ row ∈ rows, ∃ b, (new.step (.insertBatch lostMinute)).accepted.find row.timestampMs =
          some b ∧ ∀ p : UsagePair, p.Together b row := by
  refine ⟨run_foldl step new ([lostMinute].map Event.insertBatch), fun m b hb => ?_, rfl, ?_⟩
  · have hmem := Table.mem_rows_iff.2 hb
    have hrows : (new.step (.insertBatch lostMinute)).accepted.rows =
        [(0, ⟨memorySample 0 10 20, [bareSample 1000]⟩)] := rfl
    rw [hrows, List.mem_singleton] at hmem
    cases hmem
    exact ⟨by decide, by decide, by decide, by decide, by decide, by decide, by decide⟩
  · intro hall
    obtain ⟨b, -, htogether⟩ := hall 0 0 _ rfl _ (.head _)
    exact absurd (htogether .memory).both (by decide)

end Recorded

end Rackio
