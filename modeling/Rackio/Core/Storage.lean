import Rackio.Core.Model
import Rackio.Lib.Table

/-!
# The metric store

`rackio-core/src/storage.rs`: two SQLite tables, `metric_samples` with one row for each millisecond
and `minute_metrics` with one row of counts and sums for each minute. A table is a `Table` with the
primary key as its key, so a scan is in the order of `ORDER BY`. A stored sample is kept as the
sample; `reread` is what `serde_json` makes of its text.

SQLite arithmetic is modelled where the code leaves it to SQLite: an integer sum that leaves `i64`
becomes a `REAL`, and a NaN is stored as NULL. A subtraction or product of `i64` wraps, as in a
release build. What depends on the file's pages is left to the caller: the live sizes that
`enforce_size_cap_bytes` reads are an argument, one for each round.
-/

namespace Rackio

/-! ## Constants -/

/-- The source's `RAW_RETENTION_MS`. -/
def rawRetentionMs : Int := 24 * 60 * 60 * 1000

/-- The source's `MINUTE_RETENTION_MS`. -/
def minuteRetentionMs : Int := 7 * 24 * 60 * 60 * 1000

/-- The source's `MINUTE_MS`. -/
def minuteMs : Int := 60 * 1000

/-- The source's `SIZE_CAP_BYTES`. -/
def sizeCapBytes : Int := 64 * 1024 * 1024

/-- The source's `SAMPLE_INTERVAL_MS`. -/
def sampleIntervalMs : Int := 2000

/-- The source's `MAX_QUERY_ROWS`. -/
def maxQueryRows : Nat := 24 * 60 * 60 * 1000 / 2000

-- The source ties the row bound to the retention contract by a constant assertion.
example : rawRetentionMs / sampleIntervalMs = 43200 ∧ maxQueryRows = 43200 := by decide

/-- The source's `HistoryResolution`. -/
inductive HistoryResolution
  | raw | minute
  deriving DecidableEq, Repr

/-- The source's `StoreError`: a column whose cell is a `REAL` where an `i64` is read, with its
index and name, or a JSON text that does not parse, with the message up to its position. -/
inductive StoreError
  | sqlite (index : Nat) (name : String)
  | json (message : String)
  deriving DecidableEq, Repr

/-! ## Floats -/

/-- The source's `f32::is_nan`. -/
def F32.isNaN (x : F32) : Bool := !x.isFinite && x.bits <<< 9 != 0

/-- The source's `f64::from` of an `f32`. -/
def F32.widen (x : F32) : F64 := ⟨(Float32.ofBits x.bits).toFloat.toBits⟩

/-- The source's `f64_to_f32`. -/
def f64ToF32 (x : F64) : F32 := ⟨(Float.ofBits x.bits).toFloat32.toBits⟩

/-- Addition of doubles. -/
def F64.add (x y : F64) : F64 := ⟨(Float.ofBits x.bits + Float.ofBits y.bits).toBits⟩

/-- Division of doubles. -/
def F64.div (x y : F64) : F64 := ⟨(Float.ofBits x.bits / Float.ofBits y.bits).toBits⟩

/-- The double nearest to an integer. -/
def F64.ofInt (n : Int) : F64 := ⟨(Float.ofInt n).toBits⟩

/-! ## Cells -/

/-- A cell of a `REAL` column; NULL is `none`. -/
abbrev RealCell := Option F64

/-- What a `REAL` column gives back of a double. It keeps a whole number as an integer, and the
integer zero has no sign. -/
def F64.kept (x : F64) : F64 := if x.bits = 0x8000000000000000 then F64.ofInt 0 else x

/-- The cell a computed double is stored as: SQLite has no NaN. -/
def RealCell.store (x : F64) : RealCell := if x.isNaN then none else some x.kept

/-- An `f32` bound to a statement; widening keeps a NaN a NaN. -/
def RealCell.bind (x : F32) : RealCell := if x.isNaN then none else some x.widen.kept

/-- `COALESCE(a, 0) + COALESCE(b, 0)` stored in a `REAL` column. -/
def RealCell.plus : RealCell → RealCell → RealCell
  -- The sum of two integer zeros, which the affinity of the column turns into a double.
  | none, none => some (F64.ofInt 0)
  | none, some y => .store (F64.add (F64.ofInt 0) y)
  | some x, none => .store (F64.add x (F64.ofInt 0))
  | some x, some y => .store (F64.add x y)

/-- A cell of an `INTEGER` column. -/
inductive IntCell
  | null
  | int (n : Int)
  | real (x : F64)
  deriving DecidableEq, Repr

/-- An `Option<i64>` bound to a statement. -/
def IntCell.bind : Option Int → IntCell
  | none => .null
  | some n => .int n

/-- The affinity of an `INTEGER` column: a double that equals an `i64` strictly between the bounds
is stored as that integer. -/
def IntCell.affinity (x : F64) : IntCell :=
  let n := (Float.ofBits x.bits).toModel.toInt64.toInt
  if Float.ofInt n == Float.ofBits x.bits ∧ i64Min < n ∧ n < i64Max then .int n else .real x

/-- `COALESCE(a, 0) + COALESCE(b, 0)` stored in an `INTEGER` column: the integer sum when it is an
`i64`, else the sum of the operands as doubles. -/
def IntCell.plus (a b : IntCell) : IntCell :=
  match a, b with
  | .real x, .real y => affinity (x.add y)
  | .real x, .int n => affinity (x.add (.ofInt n))
  | .real x, .null => affinity (x.add (.ofInt 0))
  | .int n, .real y => affinity ((F64.ofInt n).add y)
  | .null, .real y => affinity ((F64.ofInt 0).add y)
  | .null, .null => .int 0
  | .null, .int n => .int n
  | .int n, .null => .int n
  | .int n, .int k =>
    if FitsI64 (n + k) then .int (n + k) else affinity ((F64.ofInt n).add (.ofInt k))

/-- `row.get::<_, Option<i64>>(index)` of the column `name`. -/
def IntCell.get (index : Nat) (name : String) : IntCell → Except StoreError (Option Int)
  | .null => .ok none
  | .int n => .ok (some n)
  | .real _ => .error (.sqlite index name)

/-! ## Readings of a sample -/

/-- The minute a timestamp falls in, as `insert_batch` computes its key. -/
def minuteKey (timestampMs : Int) : Int := wrapI64 (timestampMs / minuteMs * minuteMs)

namespace MetricSample

/-- The bound `cpu`. -/
def cpu (s : MetricSample) : RealCell := s.cpuPercent.bind RealCell.bind

/-- The bound `memory`. -/
def memory (s : MetricSample) : Option Int := s.memoryUsedBytes.bind tryI64

/-- The bound `rx`. -/
def rx (s : MetricSample) : Option Int := s.network.bind fun n => tryI64 n.receivedBytesPerSecond

/-- The bound `tx`. -/
def tx (s : MetricSample) : Option Int := s.network.bind fun n => tryI64 n.sentBytesPerSecond

/-- The pair `disk`: used and total bytes of the fullest disk. -/
def disk (s : MetricSample) : Option (Int × Int) :=
  s.worstDisk.bind fun d => do
    let used ← tryI64 d.usedBytes
    let total ← tryI64 d.totalBytes
    return (used, total)

/-- The bound `temp`. -/
def temp (s : MetricSample) : RealCell := s.temperature.bind fun t => RealCell.bind t.celsius

/-- The pair `swap`. -/
def swap (s : MetricSample) : Option (Int × Int) := do
  let usedBytes ← s.swapUsedBytes
  let totalBytes ← s.swapTotalBytes
  let used ← tryI64 usedBytes
  let total ← tryI64 totalBytes
  return (used, total)

/-- What `serde_json::from_str` makes of the text `serde_json::to_string` writes: a float that is
not finite is written as `null`, which an `Option` reads as absent and an `f32` refuses. -/
def reread (s : MetricSample) : Except StoreError MetricSample :=
  match s.temperature with
  | none => .ok { s with cpuPercent := s.cpuPercent.filter F32.isFinite }
  | some t =>
    if t.celsius.isFinite then
      .ok { s with
        cpuPercent := s.cpuPercent.filter F32.isFinite
        temperature := some { t with criticalCelsius := t.criticalCelsius.filter F32.isFinite } }
    else .error (.json "invalid type: null, expected f32")

end MetricSample

/-! ## Minute rows -/

/-- A row of `minute_metrics` without its key. -/
@[ext] structure MinuteRow where
  sampleCount : Nat
  cpuCount : Nat
  cpuSum : RealCell
  memoryUsedCount : Nat
  memoryUsedSum : IntCell
  rxCount : Nat
  rxSum : IntCell
  txCount : Nat
  txSum : IntCell
  diskCount : Nat
  diskUsedSum : IntCell
  diskTotalSum : IntCell
  tempCount : Nat
  tempSum : RealCell
  swapCount : Nat
  swapUsedSum : IntCell
  swapTotalSum : IntCell
  lastSample : MetricSample
  deriving DecidableEq, Repr

/-- `CASE WHEN ? IS NULL THEN 0 ELSE 1 END`. -/
def presence {α : Type} (value : Option α) : Nat := if value.isSome then 1 else 0

/-- The `VALUES` of the upsert: the row of a single sample. -/
def MinuteRow.values (s : MetricSample) : MinuteRow where
  sampleCount := 1
  cpuCount := presence s.cpu
  cpuSum := s.cpu
  memoryUsedCount := presence s.memory
  memoryUsedSum := .bind s.memory
  rxCount := presence s.rx
  rxSum := .bind s.rx
  txCount := presence s.tx
  txSum := .bind s.tx
  diskCount := presence (s.disk.map (·.1))
  diskUsedSum := .bind (s.disk.map (·.1))
  diskTotalSum := .bind (s.disk.map (·.2))
  tempCount := presence s.temp
  tempSum := s.temp
  swapCount := presence (s.swap.map (·.1))
  swapUsedSum := .bind (s.swap.map (·.1))
  swapTotalSum := .bind (s.swap.map (·.2))
  lastSample := s

/-- The `DO UPDATE SET` of the upsert. -/
def MinuteRow.update (row excluded : MinuteRow) : MinuteRow where
  sampleCount := row.sampleCount + 1
  cpuCount := row.cpuCount + excluded.cpuCount
  cpuSum := row.cpuSum.plus excluded.cpuSum
  memoryUsedCount := row.memoryUsedCount + excluded.memoryUsedCount
  memoryUsedSum := row.memoryUsedSum.plus excluded.memoryUsedSum
  rxCount := row.rxCount + excluded.rxCount
  rxSum := row.rxSum.plus excluded.rxSum
  txCount := row.txCount + excluded.txCount
  txSum := row.txSum.plus excluded.txSum
  diskCount := row.diskCount + excluded.diskCount
  diskUsedSum := row.diskUsedSum.plus excluded.diskUsedSum
  diskTotalSum := row.diskTotalSum.plus excluded.diskTotalSum
  tempCount := row.tempCount + excluded.tempCount
  tempSum := row.tempSum.plus excluded.tempSum
  swapCount := row.swapCount + excluded.swapCount
  swapUsedSum := row.swapUsedSum.plus excluded.swapUsedSum
  swapTotalSum := row.swapTotalSum.plus excluded.swapTotalSum
  lastSample := excluded.lastSample

/-! ## The store -/

/-- The source's `MetricStore`. -/
structure MetricStore where
  samples : Table Int MetricSample
  minutes : Table Int MinuteRow
  sizeCapBytes : Int
  deriving DecidableEq

namespace MetricStore

/-- The store of a new file. -/
def new : MetricStore := ⟨.empty, .empty, Rackio.sizeCapBytes⟩

/-- One sample of `insert_batch`: a timestamp that has a raw row is skipped. -/
def insertSample (store : MetricStore) (sample : MetricSample) : MetricStore :=
  if store.samples.contains sample.timestampMs then store
  else
    let minute := minuteKey sample.timestampMs
    let row := match store.minutes.find minute with
      | none => .values sample
      | some row => row.update (.values sample)
    { store with
      samples := store.samples.insert sample.timestampMs sample
      minutes := store.minutes.insert minute row }

/-- The source's `insert_batch`, when its transaction commits. -/
def insertBatch (store : MetricStore) (samples : List MetricSample) : MetricStore :=
  samples.foldl insertSample store

/-- The retention transaction of `prune`. -/
def deleteExpired (store : MetricStore) (nowMs : Int) : MetricStore :=
  { store with
    samples := store.samples.filter fun r => wrapI64 (nowMs - rawRetentionMs) ≤ r.1
    minutes := store.minutes.filter fun r => wrapI64 (nowMs - minuteRetentionMs) ≤ r.1 }

/-- One round of the size cap: the oldest raw rows, or the oldest minute rows when no raw row is
left. A round that deletes nothing is `none`. -/
def deleteOldest (store : MetricStore) : Option MetricStore :=
  if store.samples.rows ≠ [] then some { store with samples := store.samples.drop 1000 }
  else if store.minutes.rows ≠ [] then some { store with minutes := store.minutes.drop 1000 }
  else none

/-- The rounds of the size cap; `liveSize round` is what `database_live_size_bytes` returns before
that round. -/
def reclaim (cap : Int) (liveSize : Nat → Int) : Nat → Nat → MetricStore → MetricStore
  | 0, _, store => store
  | fuel + 1, round, store =>
    if liveSize round > cap then
      match store.deleteOldest with
      | none => store
      | some store => reclaim cap liveSize fuel (round + 1) store
    else store

/-- The rows of both tables. -/
def rowCount (store : MetricStore) : Nat := store.samples.rows.length + store.minutes.rows.length

/-- The source's `enforce_size_cap_bytes`. A round deletes a row or ends the loop, so there are at
most as many rounds as rows (`reclaim_succ`); the compaction that may follow changes no row. -/
def enforceSizeCapBytes (store : MetricStore) (cap : Int) (liveSize : Nat → Int) : MetricStore :=
  reclaim cap liveSize store.rowCount 0 store

/-- The source's `prune`. -/
def prune (store : MetricStore) (nowMs : Int) (liveSize : Nat → Int) : MetricStore :=
  let store := store.deleteExpired nowMs
  store.enforceSizeCapBytes store.sizeCapBytes liveSize

/-! ## What the size cap does -/

/-- A round of the size cap deletes the oldest rows of one table. -/
theorem deleteOldest_some {store store' : MetricStore} (h : store.deleteOldest = some store') :
    (store.samples.rows ≠ [] ∧ store' = { store with samples := store.samples.drop 1000 }) ∨
      (store.samples.rows = [] ∧ store.minutes.rows ≠ [] ∧
        store' = { store with minutes := store.minutes.drop 1000 }) := by
  unfold deleteOldest at h
  split at h
  · next hsamples =>
    cases h
    exact .inl ⟨hsamples, rfl⟩
  · next hsamples =>
    split at h
    · next hminutes =>
      cases h
      exact .inr ⟨not_not.1 hsamples, hminutes, rfl⟩
    · cases h

/-- A round that does not end the loop makes progress. -/
theorem rowCount_deleteOldest {store store' : MetricStore} (h : store.deleteOldest = some store') :
    store'.rowCount < store.rowCount := by
  rcases deleteOldest_some h with ⟨hne, rfl⟩ | ⟨-, hne, rfl⟩
  · have hpos := List.length_pos_iff.2 hne
    simp only [rowCount, Table.drop, List.length_drop]
    omega
  · have hpos := List.length_pos_iff.2 hne
    simp only [rowCount, Table.drop, List.length_drop]
    omega

/-- The rounds depend on the sizes read from here on. -/
theorem reclaim_shift (cap : Int) (liveSize : Nat → Int) (fuel round : Nat) (store : MetricStore) :
    reclaim cap liveSize fuel (round + 1) store =
      reclaim cap (fun n => liveSize (n + 1)) fuel round store := by
  induction fuel generalizing round store with
  | zero => rfl
  | succ fuel ih =>
    unfold reclaim
    simp only [ih]

/-- Fuel for every row is enough. -/
theorem reclaim_fuel (cap : Int) (liveSize : Nat → Int) {fuel fuel' : Nat} (round : Nat)
    {store : MetricStore} (h : store.rowCount ≤ fuel) (h' : store.rowCount ≤ fuel') :
    reclaim cap liveSize fuel round store = reclaim cap liveSize fuel' round store := by
  -- With no fuel left there is no row left, so that the round that is not run ends the loop.
  have hempty : ∀ {store : MetricStore}, store.rowCount ≤ 0 → store.deleteOldest = none := by
    intro store hzero
    cases hdel : store.deleteOldest with
    | none => rfl
    | some store' => exact absurd (rowCount_deleteOldest hdel) (by omega)
  induction fuel generalizing fuel' round store with
  | zero =>
    cases fuel' with
    | zero => rfl
    | succ fuel' => simp [reclaim, hempty h]
  | succ fuel ih =>
    cases fuel' with
    | zero => simp [reclaim, hempty h']
    | succ fuel' =>
      unfold reclaim
      split
      · cases hdel : store.deleteOldest with
        | none => rfl
        | some store' =>
          have hlt := rowCount_deleteOldest hdel
          exact ih (round + 1) (by omega) (by omega)
      · rfl

/-- The loop of `enforce_size_cap_bytes`, one round unfolded. -/
theorem enforceSizeCapBytes_eq (store : MetricStore) (cap : Int) (liveSize : Nat → Int) :
    store.enforceSizeCapBytes cap liveSize =
      if liveSize 0 > cap then
        match store.deleteOldest with
        | none => store
        | some store' => store'.enforceSizeCapBytes cap fun n => liveSize (n + 1)
      else store := by
  unfold enforceSizeCapBytes
  rw [reclaim_fuel cap liveSize 0 le_rfl (Nat.le_succ _), reclaim]
  split
  · cases hdel : store.deleteOldest with
    | none => rfl
    | some store' =>
      have hlt := rowCount_deleteOldest hdel
      simp only [reclaim_shift]
      exact reclaim_fuel cap _ 0 (by omega) le_rfl
  · rfl

/-- What every round keeps, the size cap keeps. -/
theorem enforceSizeCapBytes_induction {P : MetricStore → Prop} {store : MetricStore} (h : P store)
    (hround : ∀ s s', P s → s.deleteOldest = some s' → P s') (cap : Int) (liveSize : Nat → Int) :
    P (store.enforceSizeCapBytes cap liveSize) := by
  unfold enforceSizeCapBytes
  generalize store.rowCount = fuel
  generalize 0 = round
  induction fuel generalizing round store with
  | zero => exact h
  | succ fuel ih =>
    unfold reclaim
    split
    · cases hdel : store.deleteOldest with
      | none => exact h
      | some store' => exact ih (hround store store' h hdel) (round + 1)
    · exact h

/-- Both tables of `t` hold rows of `s` only. -/
structure Pruned (s t : MetricStore) : Prop where
  samples : t.samples.rows ⊆ s.samples.rows
  minutes : t.minutes.rows ⊆ s.minutes.rows

/-- `prune` only deletes rows. -/
theorem prune_pruned (store : MetricStore) (nowMs : Int) (liveSize : Nat → Int) :
    Pruned store (store.prune nowMs liveSize) := by
  refine enforceSizeCapBytes_induction (P := Pruned store) ?_ ?_ _ liveSize
  · exact ⟨List.filter_subset_self _, List.filter_subset_self _⟩
  · intro s s' hs hdel
    rcases deleteOldest_some hdel with ⟨-, rfl⟩ | ⟨-, -, rfl⟩
    · exact ⟨List.Subset.trans (List.drop_subset _ _) hs.samples, hs.minutes⟩
    · exact ⟨hs.samples, List.Subset.trans (List.drop_subset _ _) hs.minutes⟩

/-- `prune` deletes the oldest raw rows. -/
theorem prune_samples_suffix (store : MetricStore) (nowMs : Int) (liveSize : Nat → Int) :
    (store.prune nowMs liveSize).samples.rows <:+ store.samples.rows := by
  refine enforceSizeCapBytes_induction (P := fun s => s.samples.rows <:+ store.samples.rows) ?_ ?_ _
    liveSize
  · exact store.samples.filter_le_suffix _
  · intro s s' hs hdel
    rcases deleteOldest_some hdel with ⟨-, rfl⟩ | ⟨-, -, rfl⟩
    · exact (List.drop_suffix 1000 s.samples.rows).trans hs
    · exact hs

/-- Within the size cap, `prune` keeps raw rows that are all young enough. -/
theorem prune_samples_of_le {store : MetricStore} {nowMs : Int} {liveSize : Nat → Int}
    (hcap : liveSize 0 ≤ store.sizeCapBytes)
    (hyoung : ∀ r ∈ store.samples.rows, wrapI64 (nowMs - rawRetentionMs) ≤ r.1) :
    (store.prune nowMs liveSize).samples.rows = store.samples.rows := by
  have hkeep : (store.deleteExpired nowMs).samples.rows = store.samples.rows :=
    List.filter_eq_self.2 fun r hr => decide_eq_true (hyoung r hr)
  have hfits : ¬ liveSize 0 > (store.deleteExpired nowMs).sizeCapBytes := not_lt.2 hcap
  unfold prune
  rw [enforceSizeCapBytes_eq, if_neg hfits]
  exact hkeep

/-- The cap of a store never changes. -/
theorem sizeCapBytes_prune (store : MetricStore) (nowMs : Int) (liveSize : Nat → Int) :
    (store.prune nowMs liveSize).sizeCapBytes = store.sizeCapBytes := by
  refine enforceSizeCapBytes_induction (P := fun s => s.sizeCapBytes = store.sizeCapBytes) ?_ ?_ _
    liveSize
  · rfl
  · intro s s' hs hdel
    rcases deleteOldest_some hdel with ⟨-, rfl⟩ | ⟨-, -, rfl⟩
    · exact hs
    · exact hs

/-! ## What a batch does -/

/-- A sample with a timestamp above every raw row is appended. -/
theorem rows_insertSample {store : MetricStore} {x : MetricSample}
    (h : ∀ r ∈ store.samples.rows, r.1 < x.timestampMs) :
    (store.insertSample x).samples.rows = store.samples.rows ++ [(x.timestampMs, x)] := by
  have hnew : store.samples.contains x.timestampMs = false := by
    cases hfind : store.samples.find x.timestampMs with
    | none => rw [Table.contains, hfind]; rfl
    | some y => exact absurd (h _ (Table.mem_rows_iff.2 hfind)) (lt_irrefl _)
  rw [insertSample, hnew]
  exact Table.rows_insert_of_lt h x

/-- A batch in ascending order, above every raw row, is appended. -/
theorem rows_insertBatch {store : MetricStore} {samples : List MetricSample}
    (h : (store.samples.rows ++ samples.map fun x => (x.timestampMs, x)).Pairwise
      fun a b => a.1 < b.1) :
    (store.insertBatch samples).samples.rows =
      store.samples.rows ++ samples.map fun x => (x.timestampMs, x) := by
  unfold insertBatch
  induction samples generalizing store with
  | nil => simp
  | cons x samples ih =>
    have hrows : (store.insertSample x).samples.rows =
        store.samples.rows ++ [(x.timestampMs, x)] := by
      refine rows_insertSample fun r hr => ?_
      exact (List.pairwise_append.1 h).2.2 r hr (x.timestampMs, x) (.head _)
    rw [List.foldl_cons, ih, hrows]
    · simp
    · rw [hrows]
      simpa using h

/-- The minute rows of a store after a batch are old ones, or of the minute of a sample of it. -/
theorem mem_minutes_insertBatch {store : MetricStore} {samples : List MetricSample}
    {r : Int × MinuteRow} (hr : r ∈ (store.insertBatch samples).minutes.rows) :
    (∃ r' ∈ store.minutes.rows, r'.1 = r.1) ∨ ∃ x ∈ samples, r.1 = minuteKey x.timestampMs := by
  unfold insertBatch at hr
  induction samples generalizing store with
  | nil => exact .inl ⟨r, hr, rfl⟩
  | cons x samples ih =>
    rcases ih hr with ⟨r', hr', hkey⟩ | ⟨y, hy, hkey⟩
    · unfold insertSample at hr'
      split at hr'
      · exact .inl ⟨r', hr', hkey⟩
      · rcases Table.mem_insertRows hr' with rfl | hold
        · exact .inr ⟨x, .head _, hkey.symm⟩
        · exact .inl ⟨r', hold, hkey⟩
    · exact .inr ⟨y, .tail _ hy, hkey⟩

/-- A sample keeps the cap. -/
theorem sizeCapBytes_insertBatch (store : MetricStore) (samples : List MetricSample) :
    (store.insertBatch samples).sizeCapBytes = store.sizeCapBytes := by
  refine List.foldlRecOn (motive := fun s => s.sizeCapBytes = store.sizeCapBytes) samples
    insertSample rfl fun s hs x _ => ?_
  rw [← hs, insertSample]
  split
  · rfl
  · rfl

/-! ## Queries -/

/-- The source's `average_f64`. -/
def averageF64 (sum : Option F64) (count : Nat) : Option F64 :=
  if count < 2 ^ 32 then
    if 0 < count then sum.map fun value => value.div (.ofInt count) else none
  else none

/-- The source's `average_i64`: the division truncates, and a negative quotient is no `u64`. -/
def averageI64 (sum : Option Int) (count : Nat) : Option UInt64 :=
  if 0 < count then
    sum.bind fun value =>
      if 0 ≤ value.tdiv count then some (.ofNat (value.tdiv count).toNat) else none
  else none

/-- The predicate `BETWEEN ?1 AND ?2` on the key of a row. -/
def between {ν : Type} (fromMs toMs : Int) (row : Int × ν) : Bool := fromMs ≤ row.1 ∧ row.1 ≤ toMs

/-- The source's `query_raw`. -/
def queryRaw (store : MetricStore) (fromMs toMs : Int) (limit : Nat) :
    Except StoreError (List MetricSample) :=
  ((store.samples.rows.filter (between fromMs toMs)).take limit).mapM fun row => row.2.reread

/-- The sample `query_minute` makes of one row: the columns are read in the order of the statement,
then the last sample of the minute, whose readings the averages replace. -/
def minuteSample (timestampMs : Int) (row : MinuteRow) : Except StoreError MetricSample := do
  let memory ← row.memoryUsedSum.get 4 "memory_used_sum"
  let rx ← row.rxSum.get 6 "rx_sum"
  let tx ← row.txSum.get 8 "tx_sum"
  let diskUsed ← row.diskUsedSum.get 10 "disk_used_sum"
  let diskTotal ← row.diskTotalSum.get 11 "disk_total_sum"
  let swapUsed ← row.swapUsedSum.get 15 "swap_used_sum"
  let swapTotal ← row.swapTotalSum.get 16 "swap_total_sum"
  let sample ← row.lastSample.reread
  return { sample with
    timestampMs
    cpuPercent := (averageF64 row.cpuSum row.cpuCount).map f64ToF32
    memoryUsedBytes := averageI64 memory row.memoryUsedCount
    network :=
      if 0 < row.rxCount ∨ 0 < row.txCount then
        some ⟨(averageI64 rx row.rxCount).getD 0, (averageI64 tx row.txCount).getD 0⟩
      else none
    disks :=
      if 0 < row.diskCount then
        [{ mount := "(minute average)"
           usedBytes := (averageI64 diskUsed row.diskCount).getD 0
           totalBytes := (averageI64 diskTotal row.diskCount).getD 0 }]
      else []
    swapUsedBytes := averageI64 swapUsed row.swapCount
    swapTotalBytes := averageI64 swapTotal row.swapCount
    temperature := (averageF64 row.tempSum row.tempCount).map fun celsius =>
      { label := "(minute average)"
        celsius := f64ToF32 celsius
        criticalCelsius := none
        sensorCount := 0 } }

/-- The source's `query_minute`. -/
def queryMinute (store : MetricStore) (fromMs toMs : Int) (limit : Nat) :
    Except StoreError (List MetricSample) :=
  ((store.minutes.rows.filter (between fromMs toMs)).take limit).mapM fun row =>
    minuteSample row.1 row.2

/-- The source's `query_page`. -/
def queryPage (store : MetricStore) (fromMs toMs : Int) (resolution : HistoryResolution)
    (limit : Nat) : Except StoreError (List MetricSample) :=
  match resolution with
  | .raw => store.queryRaw fromMs toMs limit
  | .minute => store.queryMinute fromMs toMs limit

/-- The source's `query`. -/
def query (store : MetricStore) (fromMs toMs : Int) (resolution : HistoryResolution) :
    Except StoreError (List MetricSample) :=
  store.queryPage fromMs toMs resolution maxQueryRows

end MetricStore

end Rackio
