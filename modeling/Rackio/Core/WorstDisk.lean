import Rackio.Core.Model

/-!
# The fullest disk

`worst_disk` compares shares without dividing, by products of 64-bit values in 128 bits. No product
is cut (`satMul128_eq`), so on the disks with capacity the comparison is the order of the shares
(`fullnessCmp_eq`), a total preorder (`transCmp_fullnessCmp`), and the result is a disk with the
greatest share (`MetricSample.share_le_of_worstDisk`). What share that is does not depend on the
order of the disks (`MetricSample.worstDisk_exact`), though which of two equally full disks is taken
does.
-/

namespace Rackio

/-! ## Shares -/

/-- The share of a disk that is used. -/
def DiskMetric.share (d : DiskMetric) : ℚ := d.usedBytes.toNat / d.totalBytes.toNat

/-- A product of two 64-bit values is a `u128`. -/
theorem satMul128_eq (x y : UInt64) : satMul128 x y = x.toNat * y.toNat := by
  have hx := x.toNat_lt
  have hy := y.toNat_lt
  have hmul : x.toNat * y.toNat ≤ (2 ^ 64 - 1) * (2 ^ 64 - 1) :=
    Nat.mul_le_mul (by omega) (by omega)
  unfold satMul128
  omega

/-- Cross multiplication compares shares. -/
theorem DiskMetric.share_le_share {d e : DiskMetric} (hd : 0 < d.totalBytes)
    (he : 0 < e.totalBytes) :
    d.share ≤ e.share ↔
      satMul128 d.usedBytes e.totalBytes ≤ satMul128 e.usedBytes d.totalBytes := by
  have hd' : (0 : ℚ) < d.totalBytes.toNat := by exact_mod_cast UInt64.lt_iff_toNat_lt.1 hd
  have he' : (0 : ℚ) < e.totalBytes.toNat := by exact_mod_cast UInt64.lt_iff_toNat_lt.1 he
  unfold share
  rw [div_le_div_iff₀ hd' he', satMul128_eq, satMul128_eq]
  norm_cast

/-- So `worst_disk` ranks by share. -/
theorem fullnessCmp_eq {d e : DiskMetric} (hd : 0 < d.totalBytes) (he : 0 < e.totalBytes) :
    fullnessCmp d e = compare d.share e.share := by
  have hle := DiskMetric.share_le_share hd he
  have hge := DiskMetric.share_le_share he hd
  unfold fullnessCmp
  rcases lt_trichotomy d.share e.share with hlt | heq | hgt
  · rw [compare_lt_iff_lt.2 hlt, compare_lt_iff_lt, ← not_le, ← hge, not_le]
    exact hlt
  · rw [compare_eq_iff_eq.2 heq, compare_eq_iff_eq]
    exact le_antisymm (hle.1 heq.le) (hge.1 heq.ge)
  · rw [compare_gt_iff_gt.2 hgt, compare_gt_iff_gt, ← not_le, ← hle, not_le]
    exact hgt

/-- On the disks with capacity the comparison is oriented and transitive. -/
theorem transCmp_fullnessCmp :
    Std.TransCmp fun d e : {d : DiskMetric // 0 < d.totalBytes} => fullnessCmp d e := by
  have hcmp : (fun d e : {d : DiskMetric // 0 < d.totalBytes} => fullnessCmp d e) =
      fun d e => compare d.1.share e.1.share := by
    funext d e
    exact fullnessCmp_eq d.2 e.2
  rw [hcmp]
  let share := fun d : {d : DiskMetric // 0 < d.totalBytes} => d.1.share
  exact inferInstanceAs (Std.TransCmp (compareOn share))

/-! ## The result -/

section
variable {s s' : MetricSample} {d w : DiskMetric}

/-- The disk chosen is the last of those with the greatest share. -/
theorem MetricSample.worstDisk_eq_some_iff :
    s.worstDisk = some w ↔
      LastGreatest (·.share) (s.disks.filter fun d => 0 < d.totalBytes) w :=
  maxBy_eq_some_iff fun _ ha _ hb =>
    fullnessCmp_eq (of_decide_eq_true (List.mem_filter.1 ha).2)
      (of_decide_eq_true (List.mem_filter.1 hb).2)

/-- None is chosen where none has capacity. -/
theorem MetricSample.worstDisk_eq_none_iff :
    s.worstDisk = none ↔ ∀ d ∈ s.disks, ¬0 < d.totalBytes := by
  have hnil : ∀ l : List DiskMetric, maxBy fullnessCmp l = none ↔ l = [] := by
    intro l
    cases l with
    | nil => exact iff_of_true rfl rfl
    | cons d l => exact iff_of_false nofun nofun
  unfold worstDisk
  simp only [hnil, List.filter_eq_nil_iff, decide_eq_true_eq]

/-- The disk chosen is a disk of the sample, with capacity. -/
theorem MetricSample.mem_of_worstDisk (h : s.worstDisk = some w) :
    w ∈ s.disks ∧ 0 < w.totalBytes := by
  have hmem := List.mem_filter.1 (worstDisk_eq_some_iff.1 h).mem
  exact ⟨hmem.1, of_decide_eq_true hmem.2⟩

/-- No disk with capacity is fuller. -/
theorem MetricSample.share_le_of_worstDisk (h : s.worstDisk = some w) (hd : d ∈ s.disks)
    (hcapacity : 0 < d.totalBytes) : d.share ≤ w.share :=
  (worstDisk_eq_some_iff.1 h).le d (List.mem_filter.2 ⟨hd, decide_eq_true hcapacity⟩)

/-- Two samples with the same disks in other orders choose equally full ones. -/
theorem MetricSample.worstDisk_share_perm (h : s'.disks.Perm s.disks) :
    s'.worstDisk.map (·.share) = s.worstDisk.map (·.share) := by
  have hnone : s'.worstDisk = none ↔ s.worstDisk = none := by
    simp only [worstDisk_eq_none_iff, h.mem_iff]
  cases hw : s.worstDisk with
  | none => rw [hnone.2 hw]
  | some w =>
    cases hw' : s'.worstDisk with
    | none => exact absurd (hnone.1 hw') (by rw [hw]; nofun)
    | some w' =>
      obtain ⟨hmem, hcapacity⟩ := mem_of_worstDisk hw
      obtain ⟨hmem', hcapacity'⟩ := mem_of_worstDisk hw'
      have hle := share_le_of_worstDisk hw (h.mem_iff.1 hmem') hcapacity'
      have hge := share_le_of_worstDisk hw' (h.mem_iff.2 hmem) hcapacity
      exact congrArg some (le_antisymm hle hge)

/-- `worst_disk` is exact, and its share does not depend on the order of the disks. -/
theorem MetricSample.worstDisk_exact (s : MetricSample) :
    (s.worstDisk = none ↔ ∀ d ∈ s.disks, ¬0 < d.totalBytes) ∧
      (∀ w, s.worstDisk = some w → w ∈ s.disks ∧ 0 < w.totalBytes ∧
        ∀ d ∈ s.disks, 0 < d.totalBytes →
          d.usedBytes.toNat * w.totalBytes.toNat ≤ w.usedBytes.toNat * d.totalBytes.toNat) ∧
      (∀ x y : UInt64, satMul128 x y = x.toNat * y.toNat) ∧
      Std.TransCmp (fun d e : {d : DiskMetric // 0 < d.totalBytes} => fullnessCmp d e) ∧
      ∀ s' : MetricSample, s'.disks.Perm s.disks →
        s'.worstDisk.map (·.share) = s.worstDisk.map (·.share) := by
  refine ⟨worstDisk_eq_none_iff, ?_, satMul128_eq, transCmp_fullnessCmp,
    fun s' => worstDisk_share_perm⟩
  intro w hw
  obtain ⟨hmem, hcapacity⟩ := mem_of_worstDisk hw
  refine ⟨hmem, hcapacity, fun d hd hd0 => ?_⟩
  have hle := (DiskMetric.share_le_share hd0 hcapacity).1 (share_le_of_worstDisk hw hd hd0)
  rwa [satMul128_eq, satMul128_eq] at hle

end

end Rackio
