import Rackio.Core.Doubles
import Rackio.Core.Evaluator
import Rackio.Core.WorstDisk
import Rackio.Desktop.Presentation
import Rackio.Remote.Hostile

/-!
# The disk of a machine

Three parts of the program choose the disk that stands for a machine: the trend and the minute
history the last one with the greatest share (`MetricSample.worstDisk`), the alert reading the last
one with the most hundredths of a percent (`metricReading`), and the view model the first one with
the greatest share (`machineJson`). `MetricSample.Chosen` says which elements of the list these are.

`chosen_eq_iff` is when they are one element: no disk has capacity, or one disk is fuller than all
others with capacity and none of those behind it has as many hundredths of a percent. Two disks that
are equally full are shown as two different disks of the machine (`chosen_differ`).
-/

namespace Rackio

open Binary64
open Json (ofOption)
open RemoteFleet (plainFormats)

/-! ## Percentages -/

/-- The hundredths of a percent that `percentage` makes a double. -/
def DiskMetric.basisPoints (d : DiskMetric) : Nat :=
  min (d.usedBytes.toNat * 10000 / d.totalBytes.toNat) (2 ^ 32 - 1)

/-- The percentage of a disk. -/
def DiskMetric.percent (d : DiskMetric) : F64 := percentage d.usedBytes d.totalBytes

/-- The hundredths of a percent fit a `u32`. -/
theorem DiskMetric.basisPoints_lt (d : DiskMetric) : d.basisPoints < 2 ^ 32 := by
  unfold basisPoints
  omega

/-- A hundredth of a natural is the double nearest to it. -/
theorem F64.toNat_bits_hundredths {n : Nat} (hn : n < 2 ^ 32) :
    (F64.div (F64.ofInt n) (F64.ofInt 100)).bits.toNat = nearest (n * one) 100 := by
  rcases Nat.eq_zero_or_pos n with rfl | hpos
  · decide +kernel
  have hbits : ∀ k : Nat, k < 2 ^ 32 → (F64.ofInt k).bits.toNat = nearest (k * one) 1 := by
    intro k hk
    refine F64.toNat_bits_ofInt (Int.natCast_nonneg k) ?_
    unfold i64Max
    omega
  have hexact : ∀ k : Nat, k < 2 ^ 32 → Binary64.magnitude (nearest (k * one) 1) = k * one :=
    fun k hk => magnitude_nearest 1074 (by omega)
  have hlt : ∀ k : Nat, k < 2 ^ 32 → nearest (k * one) 1 < infinityBits :=
    fun k hk => nearest_natCast_lt (by omega)
  have hlow := le_nearest_natCast hpos.ne'
  have hlow' := le_nearest_natCast (n := 100) (by decide)
  have hhigh := nearest_natCast_le (n := 100) (by decide)
  have hfinite : nearest (n * one) 100 < infinityBits :=
    lt_of_le_of_lt (nearest_mono (by decide) (by decide) (by omega)) (hlt n hn)
  have hn' := hbits n hn
  have h100 := hbits 100 (by decide)
  have hdiv := F64.toNat_bits_div (x := F64.ofInt n) (y := F64.ofInt (100 : Nat))
    (hn' ▸ hlt n hn) (h100 ▸ hlt 100 (by decide)) (by omega) (by omega) (by omega)
  rw [hn', h100, hexact n hn, hexact 100 (by decide),
    nearest_mul_mul _ _ (by unfold one; positivity), min_eq_left hfinite.le] at hdiv
  exact hdiv

/-- More hundredths are another double: two doubles lie between them. -/
theorem nearest_hundredths_lt {n n' : Nat} (h : n < n') (hn' : n' < 2 ^ 32) :
    nearest (n * one) 100 < nearest (n' * one) 100 := by
  have hone : one = 2 ^ 27 * 2 ^ 1047 := by rw [one, ← pow_add]
  have hdiv := Nat.div_add_mod (n * 2 ^ 27) 100
  have hmod := Nat.mod_lt (n * 2 ^ 27) (show 100 > 0 by decide)
  generalize n * 2 ^ 27 / 100 = q at hdiv
  refine nearest_lt_nearest (m := q + 1) (j := 1047) (by decide) (by decide) (by omega) ?_ ?_
  · calc n * one = n * 2 ^ 27 * 2 ^ 1047 := by rw [hone, Nat.mul_assoc]
      _ ≤ (q + 1) * 100 * 2 ^ 1047 := Nat.mul_le_mul_right _ (by omega)
      _ = (q + 1) * 2 ^ 1047 * 100 := Nat.mul_right_comm ..
  · calc (q + 1 + 1) * 2 ^ 1047 * 100 = (q + 1 + 1) * 100 * 2 ^ 1047 := Nat.mul_right_comm ..
      _ ≤ n' * 2 ^ 27 * 2 ^ 1047 := Nat.mul_le_mul_right _ (by omega)
      _ = n' * one := by rw [hone, Nat.mul_assoc]

/-- Percentages are in the order of their hundredths. -/
theorem DiskMetric.totalCmp_percent (d e : DiskMetric) :
    d.percent.totalCmp e.percent = compare d.basisPoints e.basisPoints := by
  have hbits : ∀ d : DiskMetric,
      d.percent.totalKey = (nearest (d.basisPoints * one) 100 : Nat) := by
    intro d
    have hd : d.percent.bits.toNat = nearest (d.basisPoints * one) 100 :=
      F64.toNat_bits_hundredths d.basisPoints_lt
    have hle : nearest (d.basisPoints * one) 100 ≤ nearest (d.basisPoints * one) 1 :=
      nearest_mono (by decide) (by decide) (by omega)
    have hlt := nearest_natCast_lt (n := d.basisPoints) (by have := d.basisPoints_lt; omega)
    unfold infinityBits at hlt
    unfold F64.totalKey
    rw [hd, if_pos (by omega)]
  unfold F64.totalCmp
  rw [hbits d, hbits e]
  rcases lt_trichotomy d.basisPoints e.basisPoints with hlt | heq | hgt
  · have hless := nearest_hundredths_lt hlt e.basisPoints_lt
    rw [compare_lt_iff_lt.2 hlt, compare_lt_iff_lt]
    omega
  · rw [heq, compare_eq_iff_eq.2 rfl, compare_eq_iff_eq.2 rfl]
  · have hmore := nearest_hundredths_lt hgt d.basisPoints_lt
    rw [compare_gt_iff_gt.2 hgt, compare_gt_iff_gt]
    omega

/-! ## Shares -/

/-- A fuller disk has no fewer hundredths of a percent. -/
theorem DiskMetric.basisPoints_le_of_share_le {d e : DiskMetric} (hd : 0 < d.totalBytes)
    (he : 0 < e.totalBytes) (h : d.share ≤ e.share) : d.basisPoints ≤ e.basisPoints := by
  have hd' := UInt64.lt_iff_toNat_lt.1 hd
  have he' := UInt64.lt_iff_toNat_lt.1 he
  rw [share_le_share hd he, satMul128_eq, satMul128_eq] at h
  have hdiv : d.usedBytes.toNat * 10000 / d.totalBytes.toNat ≤
      e.usedBytes.toNat * 10000 / e.totalBytes.toNat := by
    refine div_mono hd' he' ?_
    rw [Nat.mul_right_comm, Nat.mul_right_comm e.usedBytes.toNat]
    exact Nat.mul_le_mul_right _ h
  unfold basisPoints
  omega

/-! ## The three choices -/

/-- The disks with capacity, each with its place in the list. -/
def MetricSample.placedDisks (s : MetricSample) : List (DiskMetric × Nat) :=
  s.disks.zipIdx.filter fun p => 0 < p.1.totalBytes

/-- The element that `worst_disk` chooses. -/
def MetricSample.worstElement (s : MetricSample) : Option (DiskMetric × Nat) :=
  maxBy (fun a b => fullnessCmp a.1 b.1) s.placedDisks

/-- The element that the `disk_percent` reading chooses. -/
def MetricSample.readingElement (s : MetricSample) : Option (DiskMetric × Nat) :=
  maxBy (fun a b => a.1.percent.totalCmp b.1.percent) s.placedDisks

/-- The element that `machine_json` puts in front. -/
def MetricSample.headlineElement (s : MetricSample) : Option (DiskMetric × Nat) :=
  (s.placedDisks.insertionSort fun a b => fullerFirst a.1.filesystem b.1.filesystem).head?

/-- The elements of a sample's disks that the trend, the alert reading and the machine of the view
model are about. -/
structure MetricSample.Chosen {φ : Type} (s : MetricSample) (machine : Json φ)
    (worst reading headline : Option (DiskMetric × Nat)) : Prop where
  worstDisk : s.worstDisk = worst.map Prod.fst
  reading : metricReading s "disk_percent" = reading.map fun p => ⟨p.1.percent, some p.1.mount⟩
  diskMount : machine.get "diskMount" = some (ofOption (headline.map fun p => .str p.1.mount))
  diskUsedBytes :
    machine.get "diskUsedBytes" = some (ofOption (headline.map fun p => u64Json p.1.usedBytes))
  diskTotalBytes :
    machine.get "diskTotalBytes" = some (ofOption (headline.map fun p => u64Json p.1.totalBytes))

section
variable {s : MetricSample} {x : DiskMetric × Nat}

/-- Without their places these are the disks with capacity. -/
theorem MetricSample.placedDisks_map_fst (s : MetricSample) :
    s.placedDisks.map Prod.fst = s.disks.filter fun d => 0 < d.totalBytes := by
  conv_rhs => rw [← List.zipIdx_map_fst 0 s.disks, List.filter_map]
  rfl

/-- No two elements are the same. -/
theorem MetricSample.nodup_placedDisks (s : MetricSample) : s.placedDisks.Nodup :=
  (List.Nodup.of_map _ (List.nodup_zipIdx_map_snd s.disks)).filter _

/-- The elements have capacity. -/
theorem MetricSample.capacity_of_mem (hx : x ∈ s.placedDisks) : 0 < x.1.totalBytes :=
  of_decide_eq_true (List.mem_filter.1 hx).2

/-- What the program says of the disk of a machine is about the three elements. -/
theorem MetricSample.chosen {φ : Type} (f : JsonFormats φ) {ofInt : Int → φ}
    {source machine : Json φ} {nodeState path : String} {rttMs : Option UInt64}
    {lastSeenMs : Option Int} {trend : List (Json φ)} {detail : Option String}
    (hlatest : source.get "latest" = some (f.metricSample.ser s))
    (h : machineJson ofInt source nodeState path rttMs lastSeenMs trend detail = .ok machine) :
    s.Chosen machine s.worstElement s.readingElement s.headlineElement := by
  have hhead : (filesystems (f.metricSample.ser s)).head? =
      s.headlineElement.map fun p => p.1.filesystem := by
    have hsort := List.map_insertionSort
      (fun a b : DiskMetric × Nat => fullerFirst a.1.filesystem b.1.filesystem) fullerFirst
      (fun p => p.1.filesystem) s.placedDisks fun _ _ _ _ => Iff.rfl
    unfold headlineElement
    rw [filesystems_ser, ← s.placedDisks_map_fst, List.map_map, ← List.head?_map, hsort]
    rfl
  obtain ⟨hmount, hused, htotal⟩ := machineJson_disk hlatest h
  rw [hhead, Option.map_map] at hmount hused htotal
  refine ⟨?_, ?_, hmount, hused, htotal⟩
  · unfold MetricSample.worstDisk worstElement
    rw [← s.placedDisks_map_fst, maxBy_map]
  · show maxBy _ ((s.disks.filter fun d => 0 < d.totalBytes).map fun d =>
      (⟨d.percent, some d.mount⟩ : Reading)) = _
    rw [← s.placedDisks_map_fst, List.map_map, maxBy_map]
    rfl

/-- The trend takes the last of the fullest disks. -/
theorem MetricSample.worstElement_eq_some_iff :
    s.worstElement = some x ↔ LastGreatest (fun p => p.1.share) s.placedDisks x :=
  maxBy_eq_some_iff fun _ ha _ hb => fullnessCmp_eq (capacity_of_mem ha) (capacity_of_mem hb)

/-- The alert reading takes the last of those with the most hundredths of a percent. -/
theorem MetricSample.readingElement_eq_some_iff :
    s.readingElement = some x ↔ LastGreatest (fun p => p.1.basisPoints) s.placedDisks x :=
  maxBy_eq_some_iff fun _ _ _ _ => DiskMetric.totalCmp_percent _ _

/-- The view model takes the first of the fullest disks. -/
theorem MetricSample.headlineElement_eq_some_iff :
    s.headlineElement = some x ↔ FirstGreatest (fun p => p.1.share) s.placedDisks x :=
  head?_insertionSort_eq_some_iff fun _ ha _ hb =>
    (DiskMetric.share_le_share (capacity_of_mem hb) (capacity_of_mem ha)).symm

/-- Where an element stands, its share and its hundredths decide whether all three choose it. -/
theorem MetricSample.chooses_iff {before after : List (DiskMetric × Nat)}
    (heq : s.placedDisks = before ++ x :: after) :
    s.worstElement = some x ∧ s.readingElement = some x ∧ s.headlineElement = some x ↔
      (∀ y ∈ before ++ after, y.1.share < x.1.share) ∧
        ∀ y ∈ after, y.1.basisPoints ≠ x.1.basisPoints := by
  have hnodup := heq ▸ s.nodup_placedDisks
  have hmono : ∀ y ∈ before ++ after, y.1.share < x.1.share →
      y.1.basisPoints ≤ x.1.basisPoints := by
    intro y hy hlt
    refine DiskMetric.basisPoints_le_of_share_le (capacity_of_mem (s := s) ?_)
      (capacity_of_mem (s := s) ?_) hlt.le
    · rw [heq]
      exact (List.mem_append.1 hy).elim (List.mem_append_left _) fun h =>
        List.mem_append_right _ (.tail _ h)
    · rw [heq]
      exact List.mem_append_right _ (.head _)
  rw [worstElement_eq_some_iff, readingElement_eq_some_iff, headlineElement_eq_some_iff, heq,
    lastGreatest_append_cons_iff hnodup, lastGreatest_append_cons_iff hnodup,
    firstGreatest_append_cons_iff hnodup]
  constructor
  · rintro ⟨⟨-, hafter⟩, ⟨-, hpoints⟩, hbefore, -⟩
    exact ⟨fun y hy => (List.mem_append.1 hy).elim (hbefore y) (hafter y),
      fun y hy => (hpoints y hy).ne⟩
  · rintro ⟨hlt, hne⟩
    have hbefore : ∀ y ∈ before, y.1.share < x.1.share := fun y hy =>
      hlt y (List.mem_append_left _ hy)
    have hafter : ∀ y ∈ after, y.1.share < x.1.share := fun y hy =>
      hlt y (List.mem_append_right _ hy)
    refine ⟨⟨fun y hy => (hbefore y hy).le, hafter⟩, ⟨fun y hy => ?_, fun y hy => ?_⟩, hbefore,
      fun y hy => (hafter y hy).le⟩
    · exact hmono y (List.mem_append_left _ hy) (hbefore y hy)
    · exact lt_of_le_of_ne (hmono y (List.mem_append_right _ hy) (hafter y hy)) (hne y hy)

end

/-! ## When they are one disk -/

/-- A disk is fuller than all others with capacity, and none of those behind it has as many
hundredths of a percent. -/
def MetricSample.OneFullest (s : MetricSample) : Prop :=
  ∃ before d after, s.disks = before ++ d :: after ∧ 0 < d.totalBytes ∧
    (∀ e ∈ before ++ after, 0 < e.totalBytes → e.share < d.share) ∧
    ∀ e ∈ after, 0 < e.totalBytes → e.basisPoints ≠ d.basisPoints

/-- A place among the disks with capacity is one among all disks. -/
theorem MetricSample.exists_placed_iff {s : MetricSample}
    {P : List DiskMetric → DiskMetric → List DiskMetric → Prop} :
    (∃ before x after, s.placedDisks = before ++ x :: after ∧
        P (before.map Prod.fst) x.1 (after.map Prod.fst)) ↔
      ∃ before d after, s.disks = before ++ d :: after ∧ 0 < d.totalBytes ∧
        P (before.filter fun e => 0 < e.totalBytes) d
          (after.filter fun e => 0 < e.totalBytes) := by
  have hfst : ∀ l : List (DiskMetric × Nat),
      (l.map Prod.fst).filter (fun e => 0 < e.totalBytes) =
        (l.filter fun p => 0 < p.1.totalBytes).map Prod.fst := fun l => List.filter_map
  unfold MetricSample.placedDisks
  constructor
  · rintro ⟨before, x, after, heq, hP⟩
    obtain ⟨front, rest, hsplit, hfront, hrest⟩ := List.filter_eq_append_iff.1 heq
    obtain ⟨passed, back, rfl, hpassed, hx, hback⟩ := List.filter_eq_cons_iff.1 hrest
    refine ⟨(front ++ passed).map Prod.fst, x.1, back.map Prod.fst, ?_,
      of_decide_eq_true hx, ?_⟩
    · rw [← List.zipIdx_map_fst 0 s.disks, hsplit, ← List.append_assoc, List.map_append,
        List.map_cons]
    · rw [hfst, hfst, List.filter_append, hfront, List.filter_eq_nil_iff.2 hpassed,
        List.append_nil, hback]
      exact hP
  · rintro ⟨before, d, after, heq, hd, hP⟩
    refine ⟨before.zipIdx.filter fun p => 0 < p.1.totalBytes, (d, before.length),
      (after.zipIdx (before.length + 1)).filter fun p => 0 < p.1.totalBytes, ?_, ?_⟩
    · rw [heq, List.zipIdx_append, List.filter_append, List.zipIdx_cons, Nat.zero_add,
        List.filter_cons_of_pos (by simpa using hd)]
    · rw [← hfst, ← hfst, List.zipIdx_map_fst, List.zipIdx_map_fst]
      exact hP

/-- All three choose one element if one disk is the fullest in this sense. -/
theorem MetricSample.oneFullest_iff {s : MetricSample} :
    s.OneFullest ↔ ∃ x, s.worstElement = some x ∧ s.readingElement = some x ∧
      s.headlineElement = some x := by
  have hplaced : s.OneFullest ↔ ∃ before x after, s.placedDisks = before ++ x :: after ∧
      (∀ y ∈ before ++ after, y.1.share < x.1.share) ∧
        ∀ y ∈ after, y.1.basisPoints ≠ x.1.basisPoints := by
    have h := s.exists_placed_iff (P := fun before d after =>
      (∀ e ∈ before ++ after, e.share < d.share) ∧ ∀ e ∈ after, e.basisPoints ≠ d.basisPoints)
    simp only [← List.map_append, ← List.filter_append, List.forall_mem_map, List.mem_filter,
      decide_eq_true_eq, and_imp] at h
    exact h.symm
  rw [hplaced]
  constructor
  · rintro ⟨before, x, after, heq, h⟩
    exact ⟨x, (chooses_iff heq).2 h⟩
  · rintro ⟨x, h⟩
    obtain ⟨before, after, heq⟩ := List.append_of_mem (worstElement_eq_some_iff.1 h.1).mem
    exact ⟨before, x, after, heq, (chooses_iff heq).1 h⟩

/-- None chooses an element exactly if no disk has capacity. -/
theorem MetricSample.placedDisks_eq_nil_iff {s : MetricSample} :
    s.placedDisks = [] ↔ ∀ d ∈ s.disks, d.totalBytes = 0 := by
  rw [← List.map_eq_nil_iff (f := Prod.fst), s.placedDisks_map_fst, List.filter_eq_nil_iff]
  refine forall₂_congr fun d _ => ?_
  rw [decide_eq_true_eq, UInt64.not_lt, UInt64.le_zero_iff]

/-- The trend, the alert reading and the view model are about one disk exactly if no disk has
capacity or one disk is the fullest. -/
theorem MetricSample.chosen_eq_iff {φ : Type} (f : JsonFormats φ) {ofInt : Int → φ}
    {source machine : Json φ} {nodeState path : String} {rttMs : Option UInt64}
    {lastSeenMs : Option Int} {trend : List (Json φ)} {detail : Option String} {s : MetricSample}
    (hlatest : source.get "latest" = some (f.metricSample.ser s))
    (h : machineJson ofInt source nodeState path rttMs lastSeenMs trend detail = .ok machine) :
    s.Chosen machine s.worstElement s.readingElement s.headlineElement ∧
      (s.worstElement = s.readingElement ∧ s.readingElement = s.headlineElement ↔
        (∀ d ∈ s.disks, d.totalBytes = 0) ∨ s.OneFullest) := by
  refine ⟨chosen f hlatest h, ?_⟩
  rw [oneFullest_iff, ← placedDisks_eq_nil_iff]
  constructor
  · rintro ⟨hreading, hheadline⟩
    cases hworst : s.worstElement with
    | none =>
      left
      cases hplaced : s.placedDisks with
      | nil => rfl
      | cons p rest =>
        unfold worstElement at hworst
        rw [hplaced] at hworst
        cases hworst
    | some x =>
      exact .inr ⟨x, rfl, hreading ▸ hworst, hheadline ▸ hreading ▸ hworst⟩
  · rintro (hnil | ⟨x, hworst, hreading, hheadline⟩)
    · unfold worstElement readingElement headlineElement
      rw [hnil]
      exact ⟨rfl, rfl⟩
    · rw [hworst, hreading, hheadline]
      exact ⟨rfl, rfl⟩

/-- A sample with these disks and nothing else. -/
def disksSample (disks : List DiskMetric) : MetricSample :=
  ⟨1000, 5, none, none, none, none, none, disks, none, none, 0, []⟩

/-- The source of a machine with this sample. -/
def diskSource (disks : List DiskMetric) : Json F32 :=
  .obj [("node", .obj [("node_id", .str "4a1b"), ("display_name", .str "studio")]),
    ("latest", plainFormats.metricSample.ser (disksSample disks))]

/-- The disks of a machine with one fullest disk. -/
def plainDisks : List DiskMetric := [⟨"/", 100, 50⟩, ⟨"/data", 200, 180⟩, ⟨"/proc", 0, 0⟩]

/-- Of such disks all three choose the fullest one. -/
theorem MetricSample.chosen_eq_plain : ∃ machine,
    machineJson plainFormats.ofInt (diskSource plainDisks) "healthy" "lan" none none [] none =
        .ok machine ∧
      (disksSample plainDisks).Chosen machine (some (⟨"/data", 200, 180⟩, 1))
        (some (⟨"/data", 200, 180⟩, 1)) (some (⟨"/data", 200, 180⟩, 1)) := by
  refine ⟨_, rfl, ?_⟩
  have hlatest : (diskSource plainDisks).get "latest" =
      some (plainFormats.metricSample.ser (disksSample plainDisks)) := rfl
  obtain ⟨hchosen, hiff⟩ := chosen_eq_iff plainFormats hlatest rfl
  have hone : (disksSample plainDisks).OneFullest := by
    refine ⟨[⟨"/", 100, 50⟩], ⟨"/data", 200, 180⟩, [⟨"/proc", 0, 0⟩], rfl, by decide, ?_, ?_⟩
    · decide +kernel
    · decide
  obtain ⟨hreading, hheadline⟩ := hiff.2 (.inr hone)
  have hworst : (disksSample plainDisks).worstElement = some (⟨"/data", 200, 180⟩, 1) := by decide
  rw [← hheadline, ← hreading, hworst] at hchosen
  exact hchosen

/-- Two disks that are equally full. -/
def equalDisks : List DiskMetric := [⟨"/", 100, 50⟩, ⟨"/data", 100, 50⟩]

/-- Of these the trend and the alert are about `/data`, and the view model shows `/`. -/
theorem MetricSample.chosen_differ : ∃ machine,
    machineJson plainFormats.ofInt (diskSource equalDisks) "healthy" "lan" none none [] none =
        .ok machine ∧
      (disksSample equalDisks).worstDisk = some ⟨"/data", 100, 50⟩ ∧
      (metricReading (disksSample equalDisks) "disk_percent").bind (·.scope) = some "/data" ∧
      machine.get "diskMount" = some (.str "/") := by
  refine ⟨_, rfl, ?_, ?_, ?_⟩
  · decide
  · decide +kernel
  · rfl

end Rackio
