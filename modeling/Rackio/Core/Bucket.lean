import Rackio.Core.Storage

/-!
# What a minute row stands for

A minute row is a summary of the samples accepted into it. `Bucket` is that list of samples, first
to last; `Bucket.row` is the row the upserts of `insert_batch` leave for it, and `Bucket.aggregate`
the counts and exact sums the row is meant to hold. The two agree as long as the sums are `i64`s
(`row_eq_aggregate`), and what `query_minute` reports of such a row is `Bucket.average`: every
integer metric is the floor of its mean (`minuteSample_aggregate`).
-/

namespace Rackio

/-- The samples accepted into a minute row, oldest first. -/
structure Bucket where
  first : MetricSample
  rest : List MetricSample
  deriving DecidableEq, Repr

namespace Bucket

/-- The samples of the bucket. -/
def samples (b : Bucket) : List MetricSample := b.first :: b.rest

/-- The sample accepted last. -/
def last (b : Bucket) : MetricSample := b.rest.getLastD b.first

/-- Accept one more sample. -/
def push (b : Bucket) (s : MetricSample) : Bucket := ⟨b.first, b.rest ++ [s]⟩

/-- The timestamps of the samples. -/
def timestamps (b : Bucket) : List Int := b.samples.map (·.timestampMs)

theorem samples_push (b : Bucket) (s : MetricSample) : (b.push s).samples = b.samples ++ [s] := rfl

theorem timestamps_push (b : Bucket) (s : MetricSample) :
    (b.push s).timestamps = b.timestamps ++ [s.timestampMs] := by
  simp [timestamps, samples_push]

/-- One upsert. -/
def upsert (row : MinuteRow) (s : MetricSample) : MinuteRow := row.update (.values s)

/-- The row the upserts of the samples leave. -/
def row (b : Bucket) : MinuteRow := b.rest.foldl upsert (.values b.first)

theorem row_push (b : Bucket) (s : MetricSample) : (b.push s).row = b.row.update (.values s) := by
  simp [row, push, upsert]

end Bucket

/-! ## The aggregate -/

/-- The cell of the exact sum of the readings of a column. The row of a single sample without a
reading holds NULL; from the second sample on the sum is coalesced. -/
def sumCell (readings : List (Option Int)) : IntCell :=
  if readings = [none] then .null else .int readings.reduceOption.sum

/-- The cell of a sum of doubles, in the order of the samples. -/
def realSum : List RealCell → RealCell
  | [] => none
  | x :: xs => xs.foldl RealCell.plus x

namespace Bucket

/-- The readings of one metric, of the samples that carry it. -/
def readings {α : Type} (b : Bucket) (f : MetricSample → Option α) : List α :=
  b.samples.filterMap f

/-- What the row of the bucket is meant to hold: for every metric the number of samples that carry
it and the sum of its readings. -/
def aggregate (b : Bucket) : MinuteRow where
  sampleCount := b.samples.length
  cpuCount := (b.readings (·.cpu)).length
  cpuSum := realSum (b.samples.map (·.cpu))
  memoryUsedCount := (b.readings (·.memory)).length
  memoryUsedSum := sumCell (b.samples.map (·.memory))
  rxCount := (b.readings (·.rx)).length
  rxSum := sumCell (b.samples.map (·.rx))
  txCount := (b.readings (·.tx)).length
  txSum := sumCell (b.samples.map (·.tx))
  diskCount := (b.readings (·.disk)).length
  diskUsedSum := sumCell (b.samples.map fun s => s.disk.map (·.1))
  diskTotalSum := sumCell (b.samples.map fun s => s.disk.map (·.2))
  tempCount := (b.readings (·.temp)).length
  tempSum := realSum (b.samples.map (·.temp))
  swapCount := (b.readings (·.swap)).length
  swapUsedSum := sumCell (b.samples.map fun s => s.swap.map (·.1))
  swapTotalSum := sumCell (b.samples.map fun s => s.swap.map (·.2))
  lastSample := b.last

/-- The integer sums of the bucket are `i64`s. -/
structure Fits (b : Bucket) : Prop where
  memory : FitsI64 (b.readings (·.memory)).sum
  rx : FitsI64 (b.readings (·.rx)).sum
  tx : FitsI64 (b.readings (·.tx)).sum
  diskUsed : FitsI64 ((b.readings (·.disk)).map (·.1)).sum
  diskTotal : FitsI64 ((b.readings (·.disk)).map (·.2)).sum
  swapUsed : FitsI64 ((b.readings (·.swap)).map (·.1)).sum
  swapTotal : FitsI64 ((b.readings (·.swap)).map (·.2)).sum

end Bucket

/-! ## Columns -/

section
variable {α : Type}

/-- A count column counts the samples with a reading. -/
theorem foldl_upsert_count (g : MinuteRow → Nat) (f : MetricSample → Option α)
    (h : ∀ row s, g (Bucket.upsert row s) = g row + presence (f s)) (l : List MetricSample)
    (row : MinuteRow) : g (l.foldl Bucket.upsert row) = g row + (l.filterMap f).length := by
  induction l generalizing row with
  | nil => simp
  | cons s l ih =>
    rw [List.foldl_cons, ih, h]
    cases hf : f s with
    | none => simp [hf, presence]
    | some v =>
      simp only [List.filterMap_cons, hf, presence, Option.isSome_some, if_true, List.length_cons]
      omega

/-- A sum column folds the readings of the samples into the cell of the first one. -/
theorem foldl_upsert_cell {β γ : Type} (g : MinuteRow → γ) (f : MetricSample → β)
    (plus : γ → β → γ) (h : ∀ row s, g (Bucket.upsert row s) = plus (g row) (f s))
    (l : List MetricSample) (row : MinuteRow) :
    g (l.foldl Bucket.upsert row) = (l.map f).foldl plus (g row) := by
  induction l generalizing row with
  | nil => rfl
  | cons s l ih => rw [List.foldl_cons, ih, h, List.map_cons, List.foldl_cons]

end

/-- The sum of readings that are not negative is not negative. -/
theorem reduceOption_sum_nonneg {l : List (Option Int)} (h : ∀ n, some n ∈ l → 0 ≤ n) :
    0 ≤ l.reduceOption.sum := by
  refine List.sum_nonneg fun n hn => ?_
  exact h n (List.reduceOption_mem_iff.1 hn)

/-- Adding one more reading to the cell of a sum, as long as the sum is an `i64`. -/
theorem sumCell_snoc {l : List (Option Int)} {r : Option Int} (hl : l ≠ [])
    (hfits : FitsI64 (l ++ [r]).reduceOption.sum) :
    (sumCell l).plus (.bind r) = sumCell (l ++ [r]) := by
  have hne : l ++ [r] ≠ [none] := by
    intro h
    have hlen := congrArg List.length h
    simp only [List.length_append, List.length_cons, List.length_nil] at hlen
    have := List.length_pos_iff.2 hl
    omega
  have hsum : sumCell (l ++ [r]) = .int (l ++ [r]).reduceOption.sum := if_neg hne
  rw [hsum]
  unfold sumCell
  rw [List.reduceOption_append, List.sum_append] at hfits ⊢
  split
  · next hnone =>
    subst hnone
    cases r with
    | none => rfl
    | some n => simp [IntCell.bind, IntCell.plus]
  · cases r with
    | none => simp [IntCell.bind, IntCell.plus]
    | some n =>
      have hn : ([some n].reduceOption).sum = n := by simp
      rw [hn] at hfits ⊢
      simp only [IntCell.bind, IntCell.plus, if_pos hfits]

/-- The cells of a column of readings that are not negative, folded, are the cell of their sum, as
long as the sum is an `i64`. -/
theorem foldl_plus_eq_sumCell {r : Option Int} {l : List (Option Int)}
    (hnonneg : ∀ n, some n ∈ r :: l → 0 ≤ n) (hfits : FitsI64 (r :: l).reduceOption.sum) :
    l.foldl (fun cell r => cell.plus (.bind r)) (.bind r) = sumCell (r :: l) := by
  -- The partial sums fit because the readings that follow are not negative.
  induction l using List.reverseRecOn with
  | nil => cases r <;> simp [sumCell, IntCell.bind]
  | append_singleton l x ih =>
    rw [← List.cons_append] at hnonneg hfits ⊢
    have hlast : 0 ≤ [x].reduceOption.sum :=
      reduceOption_sum_nonneg fun n hn => hnonneg n (List.mem_append_right _ hn)
    have hinit : 0 ≤ (r :: l).reduceOption.sum :=
      reduceOption_sum_nonneg fun n hn => hnonneg n (List.mem_append_left _ hn)
    have hpart : FitsI64 (r :: l).reduceOption.sum := by
      rw [List.reduceOption_append, List.sum_append] at hfits
      unfold FitsI64 i64Min i64Max at hfits ⊢
      omega
    rw [List.foldl_append, ih (fun n hn => hnonneg n (List.mem_append_left _ hn)) hpart]
    exact sumCell_snoc (List.cons_ne_nil _ _) hfits

/-! ## The row is the aggregate -/

/-- A reading read from a `u64` is not negative and an `i64`. -/
theorem bounds_of_bind_tryI64 {α : Type} {o : Option α} {f : α → UInt64} {n : Int}
    (h : (o.bind fun v => tryI64 (f v)) = some n) : 0 ≤ n ∧ n ≤ i64Max := by
  obtain ⟨v, -, hv⟩ := Option.bind_eq_some_iff.1 h
  exact (tryI64_eq_some hv).2

/-- The bound pair of a disk comes from the fullest one. -/
theorem MetricSample.exists_of_disk {s : MetricSample} {p : Int × Int} (h : s.disk = some p) :
    ∃ d, s.worstDisk = some d ∧ tryI64 d.usedBytes = some p.1 ∧ tryI64 d.totalBytes = some p.2 := by
  unfold MetricSample.disk at h
  obtain ⟨d, hd, h⟩ := Option.bind_eq_some_iff.1 h
  obtain ⟨used, hused, h⟩ := Option.bind_eq_some_iff.1 h
  obtain ⟨total, htotal, h⟩ := Option.bind_eq_some_iff.1 h
  cases h
  exact ⟨d, hd, hused, htotal⟩

/-- The bound pair of the swap comes from both sides. -/
theorem MetricSample.exists_of_swap {s : MetricSample} {p : Int × Int} (h : s.swap = some p) :
    ∃ used total, s.swapUsedBytes = some used ∧ s.swapTotalBytes = some total ∧
      tryI64 used = some p.1 ∧ tryI64 total = some p.2 := by
  unfold MetricSample.swap at h
  obtain ⟨usedBytes, husedBytes, h⟩ := Option.bind_eq_some_iff.1 h
  obtain ⟨totalBytes, htotalBytes, h⟩ := Option.bind_eq_some_iff.1 h
  obtain ⟨used, hused, h⟩ := Option.bind_eq_some_iff.1 h
  obtain ⟨total, htotal, h⟩ := Option.bind_eq_some_iff.1 h
  cases h
  exact ⟨usedBytes, totalBytes, husedBytes, htotalBytes, hused, htotal⟩

/-- The pair of a disk is of `i64`s that are not negative. -/
theorem MetricSample.disk_bounds {s : MetricSample} {p : Int × Int} (h : s.disk = some p) :
    (0 ≤ p.1 ∧ p.1 ≤ i64Max) ∧ 0 ≤ p.2 ∧ p.2 ≤ i64Max := by
  obtain ⟨d, -, hused, htotal⟩ := MetricSample.exists_of_disk h
  exact ⟨(tryI64_eq_some hused).2, (tryI64_eq_some htotal).2⟩

/-- The pair of the swap is of `i64`s that are not negative. -/
theorem MetricSample.swap_bounds {s : MetricSample} {p : Int × Int} (h : s.swap = some p) :
    (0 ≤ p.1 ∧ p.1 ≤ i64Max) ∧ 0 ≤ p.2 ∧ p.2 ≤ i64Max := by
  obtain ⟨used, total, -, -, hused, htotal⟩ := MetricSample.exists_of_swap h
  exact ⟨(tryI64_eq_some hused).2, (tryI64_eq_some htotal).2⟩

namespace Bucket

variable {b : Bucket}

/-- The present readings of a column. -/
theorem reduceOption_samples (f : MetricSample → Option Int) :
    (b.samples.map f).reduceOption = b.readings f := by
  simp [List.reduceOption, readings, List.filterMap_map]

/-- An integer column holds the cell of the sum of its readings. -/
theorem row_cell (g : MinuteRow → IntCell) (f : MetricSample → Option Int)
    (hvalues : g (.values b.first) = .bind (f b.first))
    (hupdate : ∀ row s, g (upsert row s) = (g row).plus (.bind (f s)))
    (hnonneg : ∀ s n, f s = some n → 0 ≤ n) (hfits : FitsI64 (b.readings f).sum) :
    g b.row = sumCell (b.samples.map f) := by
  have hfold := foldl_upsert_cell g f (fun cell r => cell.plus (.bind r)) hupdate b.rest
    (.values b.first)
  rw [row, hfold, hvalues]
  refine foldl_plus_eq_sumCell ?_ (reduceOption_samples f ▸ hfits)
  intro n hn
  rw [← List.map_cons] at hn
  obtain ⟨s, -, hs⟩ := List.mem_map.1 hn
  exact hnonneg s n hs

/-- A column of one side of a pair of readings holds the cell of the sum of that side. -/
theorem row_pair (g : MinuteRow → IntCell) (f : MetricSample → Option (Int × Int))
    (side : Int × Int → Int) (hvalues : g (.values b.first) = .bind ((f b.first).map side))
    (hupdate : ∀ row s, g (upsert row s) = (g row).plus (.bind ((f s).map side)))
    (hnonneg : ∀ s p, f s = some p → 0 ≤ side p) (hfits : FitsI64 ((b.readings f).map side).sum) :
    g b.row = sumCell (b.samples.map fun s => (f s).map side) := by
  refine row_cell g (fun s => (f s).map side) hvalues hupdate ?_ ?_
  · intro s n hn
    obtain ⟨p, hp, rfl⟩ := Option.map_eq_some_iff.1 hn
    exact hnonneg s p hp
  · rwa [readings, ← List.map_filterMap]

/-- A count column holds the number of readings. -/
theorem row_count {α : Type} (g : MinuteRow → Nat) (f : MetricSample → Option α)
    (hvalues : g (.values b.first) = presence (f b.first))
    (hupdate : ∀ row s, g (upsert row s) = g row + presence (f s)) :
    g b.row = (b.readings f).length := by
  rw [row, foldl_upsert_count g f hupdate, hvalues, readings, samples]
  cases hf : f b.first with
  | none => simp [hf, presence]
  | some v =>
    simp only [List.filterMap_cons, hf, presence, Option.isSome_some, if_true, List.length_cons]
    omega

/-- A column of doubles holds the sum of its readings, in the order of the samples. -/
theorem row_real (g : MinuteRow → RealCell) (f : MetricSample → RealCell)
    (hvalues : g (.values b.first) = f b.first)
    (hupdate : ∀ row s, g (upsert row s) = (g row).plus (f s)) :
    g b.row = realSum (b.samples.map f) := by
  have hfold := foldl_upsert_cell g f RealCell.plus hupdate b.rest (.values b.first)
  rw [row, hfold, hvalues]
  rfl

/-- A pair is present with each of its sides. -/
theorem presence_map {α β : Type} (o : Option α) (g : α → β) :
    presence (o.map g) = presence o := by
  cases o with
  | none => rfl
  | some v => rfl

/-- The row counts every sample once. -/
theorem row_sampleCount (b : Bucket) : b.row.sampleCount = b.samples.length := by
  have h := foldl_upsert_count (·.sampleCount) some (fun _ _ => rfl) b.rest (.values b.first)
  rw [row, h, samples, List.filterMap_some, List.length_cons]
  show 1 + _ = _
  omega

/-- The row keeps the sample accepted last. -/
theorem row_lastSample (b : Bucket) : b.row.lastSample = b.last := by
  have h := foldl_upsert_cell (·.lastSample) id (fun _ s => s) (fun _ _ => rfl) b.rest
    (.values b.first)
  rw [row, h, List.map_id, last]
  show b.rest.foldl (fun _ s => s) b.first = _
  induction b.rest using List.reverseRecOn with
  | nil => rfl
  | append_singleton l s _ => simp

/-- The row the upserts leave is the aggregate of the bucket, when its sums are `i64`s. -/
theorem row_eq_aggregate (h : b.Fits) : b.row = b.aggregate := by
  have hdisk : b.row.diskCount = (b.readings (·.disk)).length :=
    row_count (·.diskCount) (·.disk) (presence_map _ _) fun row s =>
      congrArg (row.diskCount + ·) (presence_map s.disk _)
  have hswap : b.row.swapCount = (b.readings (·.swap)).length :=
    row_count (·.swapCount) (·.swap) (presence_map _ _) fun row s =>
      congrArg (row.swapCount + ·) (presence_map s.swap _)
  apply MinuteRow.ext
  case sampleCount => exact row_sampleCount b
  case cpuCount => exact row_count (·.cpuCount) (·.cpu) rfl fun _ _ => rfl
  case cpuSum => exact row_real (·.cpuSum) (·.cpu) rfl fun _ _ => rfl
  case memoryUsedCount => exact row_count (·.memoryUsedCount) (·.memory) rfl fun _ _ => rfl
  case memoryUsedSum =>
    exact row_cell (·.memoryUsedSum) (·.memory) rfl (fun _ _ => rfl)
      (fun _ _ hn => (bounds_of_bind_tryI64 (f := id) hn).1) h.memory
  case rxCount => exact row_count (·.rxCount) (·.rx) rfl fun _ _ => rfl
  case rxSum =>
    exact row_cell (·.rxSum) (·.rx) rfl (fun _ _ => rfl)
      (fun _ _ hn => (bounds_of_bind_tryI64 hn).1) h.rx
  case txCount => exact row_count (·.txCount) (·.tx) rfl fun _ _ => rfl
  case txSum =>
    exact row_cell (·.txSum) (·.tx) rfl (fun _ _ => rfl)
      (fun _ _ hn => (bounds_of_bind_tryI64 hn).1) h.tx
  case diskCount => exact hdisk
  case diskUsedSum =>
    exact row_pair (·.diskUsedSum) (·.disk) (·.1) rfl (fun _ _ => rfl)
      (fun _ _ hp => (MetricSample.disk_bounds hp).1.1) h.diskUsed
  case diskTotalSum =>
    exact row_pair (·.diskTotalSum) (·.disk) (·.2) rfl (fun _ _ => rfl)
      (fun _ _ hp => (MetricSample.disk_bounds hp).2.1) h.diskTotal
  case tempCount => exact row_count (·.tempCount) (·.temp) rfl fun _ _ => rfl
  case tempSum => exact row_real (·.tempSum) (·.temp) rfl fun _ _ => rfl
  case swapCount => exact hswap
  case swapUsedSum =>
    exact row_pair (·.swapUsedSum) (·.swap) (·.1) rfl (fun _ _ => rfl)
      (fun _ _ hp => (MetricSample.swap_bounds hp).1.1) h.swapUsed
  case swapTotalSum =>
    exact row_pair (·.swapTotalSum) (·.swap) (·.2) rfl (fun _ _ => rfl)
      (fun _ _ hp => (MetricSample.swap_bounds hp).2.1) h.swapTotal
  case lastSample => exact row_lastSample b

end Bucket

/-! ## Averages -/

/-- The mean of a list of readings, rounded down; absent when there is none. -/
def mean (readings : List Int) : Option UInt64 :=
  if readings = [] then none else some (.ofNat (readings.sum / readings.length).toNat)

/-- The mean is the sum divided by the number of readings, rounded down. -/
theorem toNat_of_mem_mean {l : List Int} {v : UInt64} (hv : v ∈ mean l) (hnonneg : 0 ≤ l.sum)
    (hfits : FitsI64 l.sum) : (v.toNat : Int) = l.sum / l.length := by
  unfold mean at hv
  split at hv
  · cases hv
  · next hne =>
    cases hv
    have hpos : (1 : Int) ≤ l.length := by exact_mod_cast List.length_pos_iff.2 hne
    have hle : l.sum / (l.length : Int) ≤ l.sum := Int.ediv_le_self _ hnonneg
    have h0 : 0 ≤ l.sum / (l.length : Int) := Int.ediv_nonneg hnonneg (by omega)
    have hmax := hfits.2
    unfold i64Max at hmax
    rw [UInt64.toNat_ofNat_of_lt' (by simp only [UInt64.size]; omega), Int.toNat_of_nonneg h0]

/-- There is a mean when there is a reading. -/
theorem isSome_mean (l : List Int) : (mean l).isSome = !l.isEmpty := by
  unfold mean
  cases l with
  | nil => rfl
  | cons n l => rfl

/-- The mean of a list of doubles given with their sum; absent when there is none, or when the sum
is no number. -/
def realMean (readings : List F64) (sum : RealCell) : Option F32 :=
  if readings = [] then none else sum.map fun value => f64ToF32 (value.div (.ofInt readings.length))

namespace Bucket

/-- What a minute query reports of the bucket of the minute `m`: the last sample with every
aggregated metric replaced by its mean. A network reading has no absent side, so the side without
readings is zero when the other one has some. -/
def average (b : Bucket) (m : Int) (last : MetricSample) : MetricSample :=
  { last with
    timestampMs := m
    cpuPercent := realMean (b.readings (·.cpu)) (realSum (b.samples.map (·.cpu)))
    memoryUsedBytes := mean (b.readings (·.memory))
    network :=
      if b.readings (·.rx) = [] ∧ b.readings (·.tx) = [] then none
      else some ⟨(mean (b.readings (·.rx))).getD 0, (mean (b.readings (·.tx))).getD 0⟩
    disks :=
      match mean ((b.readings (·.disk)).map (·.1)), mean ((b.readings (·.disk)).map (·.2)) with
      | some usedBytes, some totalBytes => [⟨"(minute average)", totalBytes, usedBytes⟩]
      | _, _ => []
    swapUsedBytes := mean ((b.readings (·.swap)).map (·.1))
    swapTotalBytes := mean ((b.readings (·.swap)).map (·.2))
    temperature :=
      (realMean (b.readings (·.temp)) (realSum (b.samples.map (·.temp)))).map fun celsius =>
        ⟨"(minute average)", celsius, none, 0⟩ }

variable {b : Bucket}

/-- The average `query_minute` takes of an integer column is the mean of its readings. -/
theorem averageI64_get {f : MetricSample → Option Int} (hnonneg : ∀ s n, f s = some n → 0 ≤ n)
    (index : Nat) (name : String) : ∃ sum, (sumCell (b.samples.map f)).get index name = .ok sum ∧
      MetricStore.averageI64 sum (b.readings f).length = mean (b.readings f) := by
  unfold sumCell
  split
  · next hnone =>
    refine ⟨none, rfl, ?_⟩
    have hempty : b.readings f = [] := by
      rw [← reduceOption_samples, hnone]
      rfl
    rw [hempty]
    rfl
  · refine ⟨_, rfl, ?_⟩
    rw [reduceOption_samples]
    unfold MetricStore.averageI64 mean
    by_cases hempty : b.readings f = []
    · rw [hempty]
      rfl
    rw [if_neg hempty, if_pos (List.length_pos_iff.2 hempty)]
    have hsum : 0 ≤ (b.readings f).sum := by
      refine List.sum_nonneg fun n hn => ?_
      obtain ⟨s, -, hs⟩ := List.mem_filterMap.1 hn
      exact hnonneg s n hs
    have hdiv : 0 ≤ (b.readings f).sum / ((b.readings f).length : Int) :=
      Int.ediv_nonneg hsum (Int.natCast_nonneg _)
    rw [Option.bind_some, Int.tdiv_eq_ediv_of_nonneg hsum, if_pos hdiv]

/-- The average of one side of a pair is the mean of that side. -/
theorem averageI64_get_pair {f : MetricSample → Option (Int × Int)} {side : Int × Int → Int}
    (hnonneg : ∀ s p, f s = some p → 0 ≤ side p) (index : Nat) (name : String) :
    ∃ sum, (sumCell (b.samples.map fun s => (f s).map side)).get index name = .ok sum ∧
      MetricStore.averageI64 sum (b.readings f).length = mean ((b.readings f).map side) := by
  have hside : b.readings (fun s => (f s).map side) = (b.readings f).map side := by
    rw [readings, readings, List.map_filterMap]
  have hn : ∀ s n, (f s).map side = some n → 0 ≤ n := by
    intro s n hn
    obtain ⟨p, hp, rfl⟩ := Option.map_eq_some_iff.1 hn
    exact hnonneg s p hp
  obtain ⟨sum, hget, havg⟩ := averageI64_get (b := b) hn index name
  refine ⟨sum, hget, ?_⟩
  rw [hside, List.length_map] at havg
  exact havg

/-- The average `query_minute` takes of a column of doubles is their mean. -/
theorem averageF64_eq_realMean (hlen : b.samples.length < 2 ^ 32) (f : MetricSample → RealCell)
    (sum : RealCell) : (MetricStore.averageF64 sum (b.readings f).length).map f64ToF32 =
      realMean (b.readings f) sum := by
  have hle : (b.readings f).length < 2 ^ 32 :=
    lt_of_le_of_lt (List.length_filterMap_le f b.samples) hlen
  unfold MetricStore.averageF64 realMean
  rw [if_pos hle]
  by_cases hempty : b.readings f = []
  · rw [if_pos hempty, hempty]
    rfl
  · rw [if_neg hempty, if_pos (List.length_pos_iff.2 hempty), Option.map_map]
    rfl

/-- The network reading is present when one side has readings. -/
theorem network_eq (rx tx : List Int) (network : NetworkMetric) :
    (if 0 < rx.length ∨ 0 < tx.length then some network else none) =
      if rx = [] ∧ tx = [] then none else some network := by
  cases rx with
  | cons n rx => simp
  | nil =>
    cases tx with
    | cons n tx => simp
    | nil => rfl

/-- The one entry for the fullest disk is present when there are readings of it. -/
theorem disks_eq (pairs : List (Int × Int)) :
    (if 0 < pairs.length then
      [(⟨"(minute average)", (mean (pairs.map (·.2))).getD 0, (mean (pairs.map (·.1))).getD 0⟩ :
        DiskMetric)]
      else []) =
      match mean (pairs.map (·.1)), mean (pairs.map (·.2)) with
      | some usedBytes, some totalBytes => [⟨"(minute average)", totalBytes, usedBytes⟩]
      | _, _ => [] := by
  cases pairs with
  | nil => rfl
  | cons p pairs => simp [mean]

/-- What `query_minute` makes of an aggregate: the averages of the bucket, over its last sample as
it is read back, with the averages of doubles still to be taken. -/
theorem minuteSample_eq (m : Int) :
    MetricStore.minuteSample m b.aggregate = b.last.reread.map fun last =>
      { b.average m last with
        cpuPercent :=
          (MetricStore.averageF64 b.aggregate.cpuSum b.aggregate.cpuCount).map f64ToF32
        temperature :=
          (MetricStore.averageF64 b.aggregate.tempSum b.aggregate.tempCount).map fun celsius =>
            ⟨"(minute average)", f64ToF32 celsius, none, 0⟩ } := by
  obtain ⟨memory, hmemory, hmemory'⟩ := averageI64_get (b := b) (f := (·.memory))
    (fun _ _ hn => (bounds_of_bind_tryI64 (f := id) hn).1) 4 "memory_used_sum"
  obtain ⟨rx, hrx, hrx'⟩ := averageI64_get (b := b) (f := (·.rx))
    (fun _ _ hn => (bounds_of_bind_tryI64 hn).1) 6 "rx_sum"
  obtain ⟨tx, htx, htx'⟩ := averageI64_get (b := b) (f := (·.tx))
    (fun _ _ hn => (bounds_of_bind_tryI64 hn).1) 8 "tx_sum"
  obtain ⟨diskUsed, hdiskUsed, hdiskUsed'⟩ := averageI64_get_pair (b := b) (f := (·.disk))
    (fun _ _ hp => (MetricSample.disk_bounds hp).1.1) 10 "disk_used_sum"
  obtain ⟨diskTotal, hdiskTotal, hdiskTotal'⟩ := averageI64_get_pair (b := b) (f := (·.disk))
    (fun _ _ hp => (MetricSample.disk_bounds hp).2.1) 11 "disk_total_sum"
  obtain ⟨swapUsed, hswapUsed, hswapUsed'⟩ := averageI64_get_pair (b := b) (f := (·.swap))
    (fun _ _ hp => (MetricSample.swap_bounds hp).1.1) 15 "swap_used_sum"
  obtain ⟨swapTotal, hswapTotal, hswapTotal'⟩ := averageI64_get_pair (b := b) (f := (·.swap))
    (fun _ _ hp => (MetricSample.swap_bounds hp).2.1) 16 "swap_total_sum"
  simp only [MetricStore.minuteSample, aggregate, hmemory, hrx, htx, hdiskUsed, hdiskTotal,
    hswapUsed, hswapTotal]
  cases hlast : b.last.reread with
  | error e => rfl
  | ok last =>
    simp only [bind, Except.bind, pure, Except.pure, Except.map, hmemory', hrx', htx', hdiskUsed',
      hdiskTotal', hswapUsed', hswapTotal', average, network_eq, disks_eq]

/-- What `query_minute` makes of an aggregate: the averages of the bucket, over its last sample as
it is read back. -/
theorem minuteSample_aggregate (hlen : b.samples.length < 2 ^ 32) (m : Int) :
    MetricStore.minuteSample m b.aggregate = b.last.reread.map (b.average m) := by
  have hcpu := averageF64_eq_realMean hlen (·.cpu) (realSum (b.samples.map (·.cpu)))
  have htemp := averageF64_eq_realMean hlen (·.temp) (realSum (b.samples.map (·.temp)))
  have htemperature := congrArg (Option.map fun celsius =>
    (⟨"(minute average)", celsius, none, 0⟩ : TemperatureMetric)) htemp
  rw [Option.map_map] at htemperature
  rw [minuteSample_eq]
  congr 1
  funext last
  simp only [average, aggregate, hcpu]
  rw [← htemperature]
  rfl

end Bucket

end Rackio
