import Rackio.Core.Doubles
import Rackio.Core.MinutePairs

/-!
# Sums that leave `i64`

A reading is bound as an `i64`, but the sums of a minute row are not bounded: SQLite makes a sum
that leaves `i64` a `REAL`. Such a sum is at least `2 ^ 63` however its operands are rounded, so it
is not stored as an integer, and it stays so with every further reading (`foldl_plus_real`). The
column is then not read as an `i64`, and with its row every query over it fails: a minute is read
only if all its sums are `i64`s (`fits_of_minuteSample`). If they are, every average lies between
two of its readings (`averaged_of_reported`).
-/

namespace Rackio

open Lts Binary64

open MetricStore (Event)

/-! ## Doubles that are no `i64` -/

/-- The double is `2 ^ 63` or more. -/
def F64.Large (x : F64) : Prop :=
  twoPow63Bits ≤ x.bits.toNat ∧ x.bits.toNat ≤ infinityBits

/-- A large double is not stored as an integer. -/
theorem IntCell.affinity_of_large {x : F64} (hx : x.Large) : IntCell.affinity x = .real x := by
  have hbits : (Float.Model.ofBits x.bits).toBits = x.bits := toBits_ofBits hx.2
  have hmax : (Float.ofBits x.bits).toModel.toInt64 = Int64.maxValue := by
    refine toInt64_of_le (x := Float.Model.ofBits x.bits) ?_ ?_
    · rw [hbits]
      exact hx.1
    · rw [hbits]
      exact hx.2
  unfold IntCell.affinity
  rw [hmax]
  exact if_neg fun h => absurd h.2.2 (by decide)

/-- A large double stays large when a double that is not negative is added. -/
theorem F64.Large.add {x y : F64} (hx : x.Large) (hy : y.bits.toNat < infinityBits) :
    (x.add y).Large := by
  rcases Nat.lt_or_ge x.bits.toNat infinityBits with hlt | hge
  · have hlow : twoPow63Bits ≤
        nearest (Binary64.magnitude x.bits.toNat + Binary64.magnitude y.bits.toNat) 1 := by
      refine le_nearest (by decide) ?_
      have := magnitude_le_magnitude.2 hx.1
      omega
    have hinf : twoPow63Bits ≤ infinityBits := by decide
    unfold F64.Large
    rw [F64.toNat_bits_add hlt hy]
    omega
  · have hbits := toBits_ofBits hx.2
    have hybits := toBits_ofBits hy.le
    have h := toBits_add_infinity (x := Float.Model.ofBits x.bits) (y := Float.Model.ofBits y.bits)
      (by rw [hbits]; exact le_antisymm hx.2 hge) (by rw [hybits]; exact hy)
    have hadd : (x.add y).bits.toNat = infinityBits := h
    unfold F64.Large
    rw [hadd]
    decide

/-- The sum of two `i64`s that are not negative, taken as doubles because it is no `i64`, is
large. -/
theorem F64.large_add_ofInt {n k : Int} (hn0 : 0 ≤ n) (hn : n ≤ i64Max) (hk0 : 0 ≤ k)
    (hk : k ≤ i64Max) (hsum : i64Max < n + k) : ((F64.ofInt n).add (F64.ofInt k)).Large := by
  have hlow : twoPow63Bits ≤
      nearest (Binary64.magnitude (nearest (n.toNat * one) 1) +
        Binary64.magnitude (nearest (k.toNat * one) 1)) 1 := by
    unfold i64Max at hn hk hsum
    exact le_nearest_add (by omega) (by omega) (by omega)
  have hinf : twoPow63Bits ≤ infinityBits := by decide
  unfold F64.Large
  rw [F64.toNat_bits_add (F64.toNat_bits_ofInt_lt hn0 hn) (F64.toNat_bits_ofInt_lt hk0 hk),
    F64.toNat_bits_ofInt hn0 hn, F64.toNat_bits_ofInt hk0 hk]
  omega

/-! ## Columns -/

/-- The cell holds a large double. -/
def IntCell.Large (cell : IntCell) : Prop := ∃ x : F64, x.Large ∧ cell = .real x

/-- A cell with a large double keeps one with every further reading. -/
theorem IntCell.Large.plus {cell : IntCell} (h : cell.Large) {r : Option Int}
    (hr : ∀ n ∈ r, 0 ≤ n ∧ n ≤ i64Max) : (cell.plus (.bind r)).Large := by
  obtain ⟨x, hx, rfl⟩ := h
  cases r with
  | none =>
    have hadd := hx.add (F64.toNat_bits_ofInt_lt le_rfl (by decide))
    exact ⟨_, hadd, IntCell.affinity_of_large hadd⟩
  | some n =>
    obtain ⟨h0, hmax⟩ := hr n rfl
    have hadd := hx.add (F64.toNat_bits_ofInt_lt h0 hmax)
    exact ⟨_, hadd, IntCell.affinity_of_large hadd⟩

/-- The reading that takes a sum out of `i64` leaves a large double. -/
theorem IntCell.large_of_overflow {n k : Int} (hn0 : 0 ≤ n) (hn : n ≤ i64Max) (hk0 : 0 ≤ k)
    (hk : k ≤ i64Max) (hsum : i64Max < n + k) : ((IntCell.int n).plus (.int k)).Large := by
  have hadd := F64.large_add_ofInt hn0 hn hk0 hk hsum
  refine ⟨_, hadd, ?_⟩
  rw [← IntCell.affinity_of_large hadd]
  exact if_neg fun h => absurd h.2 (not_le.2 hsum)

/-- The sum of readings that are not negative is an `i64` unless it is too large. -/
theorem fitsI64_of_sum_le {l : List (Option Int)} (hnonneg : ∀ n, some n ∈ l → 0 ≤ n)
    (hle : l.reduceOption.sum ≤ i64Max) : FitsI64 l.reduceOption.sum :=
  ⟨le_trans (by decide) (reduceOption_sum_nonneg hnonneg), hle⟩

/-- Readings whose sum is no `i64` leave a large double, once and for all. -/
theorem foldl_plus_large {r : Option Int} {l : List (Option Int)}
    (hr : ∀ n, some n ∈ r :: l → 0 ≤ n ∧ n ≤ i64Max) (hover : i64Max < (r :: l).reduceOption.sum) :
    (l.foldl (fun cell r => cell.plus (.bind r)) (IntCell.bind r)).Large := by
  -- Either the sum had left `i64` before the last reading, or this reading takes it out.
  induction l using List.reverseRecOn with
  | nil =>
    cases r with
    | none => exact absurd hover (by decide)
    | some n =>
      have hsum : ([some n] : List (Option Int)).reduceOption.sum = n := by simp
      rw [hsum] at hover
      exact absurd (hr n (.head _)).2 (not_le.2 hover)
  | append_singleton l x ih =>
    rw [← List.cons_append] at hr hover
    have hinit : ∀ n, some n ∈ r :: l → 0 ≤ n ∧ n ≤ i64Max :=
      fun n hn => hr n (List.mem_append_left _ hn)
    have hlast : ∀ n ∈ x, 0 ≤ n ∧ n ≤ i64Max := by
      rintro n rfl
      exact hr n (List.mem_append_right _ (.head _))
    rw [List.foldl_append, List.foldl_cons, List.foldl_nil]
    rcases lt_or_ge i64Max (r :: l).reduceOption.sum with hover' | hle
    · exact (ih hinit hover').plus hlast
    · have hnonneg : ∀ n, some n ∈ r :: l → 0 ≤ n := fun n hn => (hinit n hn).1
      have hsum := reduceOption_sum_nonneg hnonneg
      rw [foldl_plus_eq_sumCell hnonneg (fitsI64_of_sum_le hnonneg hle)]
      rw [List.reduceOption_append, List.sum_append] at hover
      cases x with
      | none =>
        have hzero : ([none] : List (Option Int)).reduceOption.sum = 0 := rfl
        omega
      | some n =>
        have hn : ([some n] : List (Option Int)).reduceOption.sum = n := by simp
        rw [hn] at hover
        obtain ⟨h0, hmax⟩ := hlast n rfl
        unfold sumCell
        split
        · next hnone =>
          rw [hnone] at hover
          have hzero : ([none] : List (Option Int)).reduceOption.sum = 0 := rfl
          omega
        · exact IntCell.large_of_overflow hsum hle h0 hmax hover

namespace Bucket

variable {b : Bucket}

/-- An integer column whose cell is read has a sum that is an `i64`. -/
theorem fitsI64_of_get (g : MinuteRow → IntCell) (f : MetricSample → Option Int)
    (hvalues : g (.values b.first) = .bind (f b.first))
    (hupdate : ∀ row s, g (upsert row s) = (g row).plus (.bind (f s)))
    (hf : ∀ s n, f s = some n → 0 ≤ n ∧ n ≤ i64Max) {index : Nat} {name : String}
    {sum : Option Int} (hget : (g b.row).get index name = .ok sum) :
    FitsI64 (b.readings f).sum := by
  have hfold := foldl_upsert_cell g f (fun cell r => cell.plus (.bind r)) hupdate b.rest
    (.values b.first)
  have hr : ∀ n, some n ∈ f b.first :: b.rest.map f → 0 ≤ n ∧ n ≤ i64Max := by
    intro n hn
    rw [← List.map_cons] at hn
    obtain ⟨s, -, hs⟩ := List.mem_map.1 hn
    exact hf s n hs
  have hsum : (b.readings f).sum = (f b.first :: b.rest.map f).reduceOption.sum := by
    rw [← reduceOption_samples]
    rfl
  rw [hsum]
  refine fitsI64_of_sum_le (fun n hn => (hr n hn).1) (not_lt.1 fun hover => ?_)
  obtain ⟨x, -, hreal⟩ := foldl_plus_large hr hover
  rw [row, hfold, hvalues, hreal] at hget
  cases hget

/-- A column of one side of a pair whose cell is read has a sum that is an `i64`. -/
theorem fitsI64_of_get_pair (g : MinuteRow → IntCell) (f : MetricSample → Option (Int × Int))
    (side : Int × Int → Int) (hvalues : g (.values b.first) = .bind ((f b.first).map side))
    (hupdate : ∀ row s, g (upsert row s) = (g row).plus (.bind ((f s).map side)))
    (hf : ∀ s p, f s = some p → 0 ≤ side p ∧ side p ≤ i64Max) {index : Nat} {name : String}
    {sum : Option Int} (hget : (g b.row).get index name = .ok sum) :
    FitsI64 ((b.readings f).map side).sum := by
  rw [readings, List.map_filterMap]
  refine fitsI64_of_get g (fun s => (f s).map side) hvalues hupdate ?_ hget
  intro s n hn
  obtain ⟨p, hp, rfl⟩ := Option.map_eq_some_iff.1 hn
  exact hf s p hp

end Bucket

/-- A row is reported only if its integer sums are `i64`s. -/
theorem fits_of_minuteSample {m : Int} {b : Bucket} {row : MetricSample}
    (h : MetricStore.minuteSample m b.row = .ok row) : b.Fits := by
  unfold MetricStore.minuteSample at h
  obtain ⟨memory, hmemory, h⟩ := Outcome.bind_eq_ok_iff.1 h
  obtain ⟨rx, hrx, h⟩ := Outcome.bind_eq_ok_iff.1 h
  obtain ⟨tx, htx, h⟩ := Outcome.bind_eq_ok_iff.1 h
  obtain ⟨diskUsed, hdiskUsed, h⟩ := Outcome.bind_eq_ok_iff.1 h
  obtain ⟨diskTotal, hdiskTotal, h⟩ := Outcome.bind_eq_ok_iff.1 h
  obtain ⟨swapUsed, hswapUsed, h⟩ := Outcome.bind_eq_ok_iff.1 h
  obtain ⟨swapTotal, hswapTotal, -⟩ := Outcome.bind_eq_ok_iff.1 h
  constructor
  case memory =>
    exact Bucket.fitsI64_of_get (·.memoryUsedSum) (·.memory) rfl (fun _ _ => rfl)
      (fun _ _ hn => bounds_of_bind_tryI64 (f := id) hn) hmemory
  case rx =>
    exact Bucket.fitsI64_of_get (·.rxSum) (·.rx) rfl (fun _ _ => rfl)
      (fun _ _ hn => bounds_of_bind_tryI64 hn) hrx
  case tx =>
    exact Bucket.fitsI64_of_get (·.txSum) (·.tx) rfl (fun _ _ => rfl)
      (fun _ _ hn => bounds_of_bind_tryI64 hn) htx
  case diskUsed =>
    exact Bucket.fitsI64_of_get_pair (·.diskUsedSum) (·.disk) (·.1) rfl (fun _ _ => rfl)
      (fun _ _ hp => (MetricSample.disk_bounds hp).1) hdiskUsed
  case diskTotal =>
    exact Bucket.fitsI64_of_get_pair (·.diskTotalSum) (·.disk) (·.2) rfl (fun _ _ => rfl)
      (fun _ _ hp => (MetricSample.disk_bounds hp).2) hdiskTotal
  case swapUsed =>
    exact Bucket.fitsI64_of_get_pair (·.swapUsedSum) (·.swap) (·.1) rfl (fun _ _ => rfl)
      (fun _ _ hp => (MetricSample.swap_bounds hp).1) hswapUsed
  case swapTotal =>
    exact Bucket.fitsI64_of_get_pair (·.swapTotalSum) (·.swap) (·.2) rfl (fun _ _ => rfl)
      (fun _ _ hp => (MetricSample.swap_bounds hp).2) hswapTotal

/-! ## Averages -/

/-- A mean is at least some reading. -/
theorem exists_le_mean {l : List Int} (hne : l ≠ []) : ∃ n ∈ l, n ≤ l.sum / l.length := by
  by_contra hall
  push Not at hall
  have hpos : 0 < (l.length : Int) := Int.natCast_pos.2 (List.length_pos_iff.2 hne)
  have hsum := List.card_nsmul_le_sum l (l.sum / l.length + 1) fun n hn => hall n hn
  have hlt := Int.lt_mul_ediv_self_add hpos (x := l.sum)
  rw [nsmul_eq_mul, mul_add, mul_one] at hsum
  omega

/-- A mean is at most some reading. -/
theorem exists_mean_le {l : List Int} (hne : l ≠ []) : ∃ n ∈ l, l.sum / l.length ≤ n := by
  by_contra hall
  push Not at hall
  have hpos : 0 < (l.length : Int) := Int.natCast_pos.2 (List.length_pos_iff.2 hne)
  have hsum := List.sum_le_card_nsmul l (l.sum / l.length - 1) fun n hn => by
    have := hall n hn
    omega
  have hle := Int.mul_ediv_self_le (x := l.sum) hpos.ne'
  rw [nsmul_eq_mul, mul_sub, mul_one] at hsum
  omega

/-- What is reported lies between the smallest and the largest of the readings. -/
def Between (readings : List Int) (average : Option UInt64) : Prop :=
  ∀ value ∈ average, (∃ n ∈ readings, n ≤ value.toNat) ∧ ∃ n ∈ readings, (value.toNat : Int) ≤ n

/-- A mean lies between its readings. -/
theorem between_mean {l : List Int} (hnonneg : ∀ n ∈ l, 0 ≤ n) (hfits : FitsI64 l.sum) :
    Between l (mean l) := by
  intro value hvalue
  have hne : l ≠ [] := by
    rintro rfl
    cases hvalue
  rw [toNat_of_mem_mean hvalue (List.sum_nonneg hnonneg) hfits]
  exact ⟨exists_le_mean hne, exists_mean_le hne⟩

/-- A mean reported in place of nothing lies between its readings, if there is one. -/
theorem between_getD {l : List Int} (hne : l ≠ []) (h : Between l (mean l)) :
    Between l (some ((mean l).getD 0)) := by
  have hsome : (mean l).isSome = true := by
    rw [isSome_mean, Bool.not_eq_true', List.isEmpty_eq_false_iff]
    exact hne
  obtain ⟨value, hvalue⟩ := Option.isSome_iff_exists.1 hsome
  rw [hvalue] at h ⊢
  exact h

namespace Bucket

variable {b : Bucket}

/-- The integer averages of the row of the bucket lie between the readings that contributed to them.
A side of the network without readings is reported as zero beside the other one; it is no
average. -/
structure Averaged (b : Bucket) (row : MetricSample) : Prop where
  memory : Between (b.readings (·.memory)) row.memoryUsedBytes
  rx : b.readings (·.rx) ≠ [] →
    Between (b.readings (·.rx)) (row.network.map (·.receivedBytesPerSecond))
  tx : b.readings (·.tx) ≠ [] → Between (b.readings (·.tx)) (row.network.map (·.sentBytesPerSecond))
  diskUsed : ∀ d ∈ row.disks, Between ((b.readings (·.disk)).map (·.1)) (some d.usedBytes)
  diskTotal : ∀ d ∈ row.disks, Between ((b.readings (·.disk)).map (·.2)) (some d.totalBytes)
  swapUsed : Between ((b.readings (·.swap)).map (·.1)) row.swapUsedBytes
  swapTotal : Between ((b.readings (·.swap)).map (·.2)) row.swapTotalBytes

/-- One side of the readings of a pair that is never negative. -/
theorem forall_readings_map {f : MetricSample → Option (Int × Int)} {side : Int × Int → Int}
    (h : ∀ s p, f s = some p → 0 ≤ side p) : ∀ n ∈ (b.readings f).map side, 0 ≤ n := by
  intro n hn
  obtain ⟨p, hp, rfl⟩ := List.mem_map.1 hn
  exact forall_readings (fun s _ => h s) p hp

/-- A row that reports its readings, of which the sums are `i64`s, has averages between them. -/
theorem averaged_of_reported (hfits : b.Fits) {row : MetricSample} (hrow : b.Reported row) :
    b.Averaged row := by
  have hdisks : ∀ d ∈ row.disks, d.usedBytes ∈ mean ((b.readings (·.disk)).map (·.1)) ∧
      d.totalBytes ∈ mean ((b.readings (·.disk)).map (·.2)) := by
    rw [hrow.disks]
    intro d hd
    split at hd
    · next usedBytes totalBytes hused htotal =>
      rw [List.mem_singleton] at hd
      subst hd
      exact ⟨hused, htotal⟩
    · cases hd
  constructor
  case memory =>
    rw [hrow.memoryUsed]
    exact between_mean (forall_readings fun _ _ _ hn => (bounds_of_bind_tryI64 (f := id) hn).1)
      hfits.memory
  case rx =>
    intro hne
    rw [hrow.network, if_neg fun h => hne h.1]
    exact between_getD hne
      (between_mean (forall_readings fun _ _ _ hn => (bounds_of_bind_tryI64 hn).1) hfits.rx)
  case tx =>
    intro hne
    rw [hrow.network, if_neg fun h => hne h.2]
    exact between_getD hne
      (between_mean (forall_readings fun _ _ _ hn => (bounds_of_bind_tryI64 hn).1) hfits.tx)
  case diskUsed =>
    intro d hd value hvalue
    cases hvalue
    exact between_mean (forall_readings_map fun _ _ hp => (MetricSample.disk_bounds hp).1.1)
      hfits.diskUsed _ (hdisks d hd).1
  case diskTotal =>
    intro d hd value hvalue
    cases hvalue
    exact between_mean (forall_readings_map fun _ _ hp => (MetricSample.disk_bounds hp).2.1)
      hfits.diskTotal _ (hdisks d hd).2
  case swapUsed =>
    rw [hrow.swapUsed]
    exact between_mean (forall_readings_map fun _ _ hp => (MetricSample.swap_bounds hp).1.1)
      hfits.swapUsed
  case swapTotal =>
    rw [hrow.swapTotal]
    exact between_mean (forall_readings_map fun _ _ hp => (MetricSample.swap_bounds hp).2.1)
      hfits.swapTotal

end Bucket

/-! ## Runs -/

namespace Recorded

/-- In every run of `insert_batch` calls: every minute query succeeds, with every integer average
between the readings that contributed to it, exactly when the sums of every minute are `i64`s and
its last sample is read back. -/
theorem minute_query_survives_iff (batches : List (List MetricSample)) (h : Recorded)
    (hrun : Run Step new (batches.map Event.insertBatch) h) :
    (∀ fromMs toMs, ∃ rows, h.store.query fromMs toMs .minute = .ok rows ∧ ∀ row ∈ rows,
        ∃ b, h.accepted.find row.timestampMs = some b ∧ b.Averaged row) ↔
      ∀ m b, h.accepted.find m = some b → b.Fits ∧ b.last.Readable := by
  have hi := inv_of_run hrun
  constructor
  · intro hall m b hb
    obtain ⟨row, hrow⟩ := (query_ok_iff hi).1 (fun fromMs toMs =>
      (hall fromMs toMs).imp fun _ hrows => hrows.1) m b hb
    exact ⟨fits_of_minuteSample hrow, readable_of_minuteSample hrow⟩
  · intro hall fromMs toMs
    obtain ⟨rows, hq⟩ := (query_ok_iff hi).2 (fun m b hb =>
      exists_minuteSample (hall m b hb).1 (hall m b hb).2 m) fromMs toMs
    refine ⟨rows, hq, fun row hrow => ?_⟩
    obtain ⟨m, b, hb, hsample⟩ := mem_query hi hq hrow
    refine ⟨b, ?_, Bucket.averaged_of_reported (hall m b hb).1
      (reported_of_minuteSample (hall m b hb).1 hsample)⟩
    rw [timestampMs_minuteSample hsample, hb]

/-! ### Two readings -/

/-- A minute with the greatest `i64` as its one memory reading. -/
def greatestMinute : List MetricSample := [memorySample 0 9223372036854775807 0]

/-- The queries of `greatestMinute` succeed. -/
theorem minute_query_survives_iff_greatest :
    Run Step new ([greatestMinute].map Event.insertBatch)
        (new.step (.insertBatch greatestMinute)) ∧
      ∀ fromMs toMs, ∃ rows,
        (new.step (.insertBatch greatestMinute)).store.query fromMs toMs .minute = .ok rows ∧
        ∀ row ∈ rows, ∃ b, (new.step (.insertBatch greatestMinute)).accepted.find row.timestampMs =
          some b ∧ b.Averaged row := by
  have hrun := run_foldl step new ([greatestMinute].map Event.insertBatch)
  refine ⟨hrun, (minute_query_survives_iff [greatestMinute] _ hrun).2 fun m b hb => ?_⟩
  have hmem : (m, b) ∈ (new.step (.insertBatch greatestMinute)).accepted.rows :=
    Table.mem_rows_iff.2 hb
  have hrows : (new.step (.insertBatch greatestMinute)).accepted.rows =
      [(0, ⟨memorySample 0 9223372036854775807 0, []⟩)] := rfl
  rw [hrows, List.mem_singleton] at hmem
  cases hmem
  exact ⟨⟨by decide, by decide, by decide, by decide, by decide, by decide, by decide⟩, by decide⟩

/-- A minute with the greatest `i64` and one more byte. -/
def overflowMinute : List MetricSample :=
  [memorySample 0 9223372036854775807 0, memorySample 1000 1 0]

/-- The sum of `overflowMinute` is a `REAL`, and a query over it fails. -/
theorem minute_query_overflows :
    Run Step new ([overflowMinute].map Event.insertBatch)
        (new.step (.insertBatch overflowMinute)) ∧
      (new.step (.insertBatch overflowMinute)).store.query 0 0 .minute =
        .error (.sqlite 4 "memory_used_sum") :=
  ⟨run_foldl step new ([overflowMinute].map Event.insertBatch), by decide +kernel⟩

end Recorded

end Rackio
