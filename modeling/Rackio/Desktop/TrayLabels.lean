import Rackio.Core.Evaluator
import Rackio.Core.WorstDisk

/-!
# The figures of the tray

The tray works out percentages and byte counts again, in `u64`, that the alert evaluator and the
dashboard work out for the same machine.

`Tray.ratioBasisPoints_eq_iff`: the product of the tray's percentage stops at `u64::MAX`, so that a
large file system that is half full is shown as less. The percentage is right exactly when no whole
number of basis points of the total lies beyond that bound and within the used bytes (`NotClipped`).
`Tray.byteLabel_eq_bytes_iff`: the tray rounds the last remainder of its divisions, without the
bytes below it, so that a count just above a rounding boundary is shown as a tenth less than on the
dashboard. The two agree exactly when no boundary is skipped (`KeepsTenth`).
-/

namespace Rackio

/-! ## Percentages -/

/-- The source's `u64::saturating_mul`. -/
def satMul64 (x y : UInt64) : UInt64 := .ofNat (min (x.toNat * y.toNat) (2 ^ 64 - 1))

/-- The source's `ratio_basis_points`. -/
def Tray.ratioBasisPoints (used total : Option UInt64) : Option UInt16 :=
  match used, total with
  | some used, some total =>
    if 0 < total then
      let basisPoints := min (satMul64 used 10000 / total) 10000
      some (if basisPoints.toNat < 2 ^ 16 then basisPoints.toUInt16 else 10000)
    else none
  | _, _ => none

/-- The hundredths of a percent that `percentage` makes a double. -/
def percentageBasisPoints (used total : UInt64) : Nat :=
  min (satMul128 used 10000 / total.toNat) (2 ^ 32 - 1)

/-- The exact hundredths of a percent, at most 10 000. -/
def exactBasisPoints (used total : UInt64) : Nat := min 10000 (used.toNat * 10000 / total.toNat)

/-- No multiple of the total, up to the one for 10 000 basis points, lies from 2⁶⁴ on and within the
used bytes times 10 000. -/
def NotClipped (used total : UInt64) : Prop :=
  ∀ k ≤ 10000, 2 ^ 64 ≤ k * total.toNat → used.toNat * 10000 < k * total.toNat

section
variable {used total : UInt64}

/-- Nothing is clipped where the product fits. -/
theorem notClipped_of_used (h : used.toNat * 10000 < 2 ^ 64) : NotClipped used total :=
  fun _ _ hk => h.trans_le hk

/-- Nothing is clipped where the total times 10 000 fits. -/
theorem notClipped_of_total (h : total.toNat * 10000 < 2 ^ 64) : NotClipped used total := by
  unfold NotClipped
  intro k hk hclip
  have hmul : k * total.toNat ≤ 10000 * total.toNat := Nat.mul_le_mul_right _ hk
  rw [Nat.mul_comm 10000] at hmul
  exact absurd (hclip.trans hmul) (not_le.2 h)

/-- The product stops at `u64::MAX`. -/
theorem toNat_satMul64 (x y : UInt64) :
    (satMul64 x y).toNat = min (x.toNat * y.toNat) (2 ^ 64 - 1) := by
  have hlt : min (x.toNat * y.toNat) (2 ^ 64 - 1) < 2 ^ 64 := by omega
  unfold satMul64
  exact UInt64.toNat_ofNat'.trans (Nat.mod_eq_of_lt hlt)

/-- The smaller of two words. -/
theorem toNat_min (x y : UInt64) : (min x y).toNat = min x.toNat y.toNat := by
  show (if x ≤ y then x else y).toNat = _
  rw [Nat.min_def, apply_ite UInt64.toNat]
  simp only [UInt64.le_iff_toNat_le]

/-- The tray divides the product that stopped at `u64::MAX`. -/
theorem Tray.toNat_ratioBasisPoints (h : 0 < total) :
    (ratioBasisPoints (some used) (some total)).map UInt16.toNat =
      some (min 10000 (min (used.toNat * 10000) (2 ^ 64 - 1) / total.toNat)) := by
  have hmin : (min (satMul64 used 10000 / total) 10000).toNat =
      min 10000 (min (used.toNat * 10000) (2 ^ 64 - 1) / total.toNat) := by
    rw [toNat_min, UInt64.toNat_div, toNat_satMul64]
    exact Nat.min_comm ..
  unfold ratioBasisPoints
  simp only [if_pos h]
  rw [if_pos (by rw [hmin]; omega), Option.map_some, UInt64.toNat_toUInt16, hmin]
  exact congrArg some (Nat.mod_eq_of_lt (by omega))

/-- The stopped product gives the exact hundredths exactly when nothing is clipped. -/
theorem min_div_eq_exactBasisPoints_iff (h : 0 < total) :
    min 10000 (min (used.toNat * 10000) (2 ^ 64 - 1) / total.toNat) = exactBasisPoints used total ↔
      NotClipped used total := by
  have ht : 0 < total.toNat := UInt64.lt_iff_toNat_lt.1 h
  unfold exactBasisPoints NotClipped
  generalize used.toNat * 10000 = n
  constructor
  · intro heq k hk hclip
    by_contra hle
    have hlow : min n (2 ^ 64 - 1) / total.toNat < k :=
      (Nat.div_lt_iff_lt_mul ht).2 (by omega)
    have hhigh : k ≤ n / total.toNat := (Nat.le_div_iff_mul_le ht).2 (by omega)
    omega
  · intro hclip
    have hle : min n (2 ^ 64 - 1) / total.toNat ≤ n / total.toNat :=
      Nat.div_le_div_right (by omega)
    by_contra hne
    -- The number of basis points after the one that the stopped product gives is clipped.
    have hlow : min n (2 ^ 64 - 1) < (min n (2 ^ 64 - 1) / total.toNat + 1) * total.toNat :=
      (Nat.div_lt_iff_lt_mul ht).1 (Nat.lt_succ_self _)
    have hhigh : (min n (2 ^ 64 - 1) / total.toNat + 1) * total.toNat ≤ n :=
      (Nat.le_div_iff_mul_le ht).1 (by omega)
    exact absurd hhigh (not_le.2 (hclip _ (by omega) (by omega)))

/-- The tray's percentage is the exact one, which is the alert's, exactly when nothing is
clipped. -/
theorem Tray.ratioBasisPoints_eq_iff (used total : UInt64) (h : 0 < total) :
    percentage used total =
        F64.div (F64.ofInt (percentageBasisPoints used total : Nat)) (F64.ofInt 100) ∧
      min 10000 (percentageBasisPoints used total) = exactBasisPoints used total ∧
      ((ratioBasisPoints (some used) (some total)).map UInt16.toNat =
        some (exactBasisPoints used total) ↔ NotClipped used total) := by
  have hexact : satMul128 used 10000 = used.toNat * 10000 := satMul128_eq used 10000
  refine ⟨?_, ?_, ?_⟩
  · unfold percentageBasisPoints
    rw [hexact]
    rfl
  · unfold percentageBasisPoints exactBasisPoints
    rw [hexact]
    omega
  · rw [toNat_ratioBasisPoints h, Option.some.injEq]
    exact min_div_eq_exactBasisPoints_iff h

end

/-- A file system of four petabytes that is half full: 46.11 % in the tray, 50 % in the alert. -/
theorem Tray.ratioBasisPoints_petabytes :
    ¬∀ used total : UInt64, 0 < total →
      (ratioBasisPoints (some used) (some total)).map UInt16.toNat =
        some (exactBasisPoints used total) := by
  intro hexact
  have hdiffer : (ratioBasisPoints (some 2000000000000000) (some 4000000000000000)).map
      UInt16.toNat ≠ some (exactBasisPoints 2000000000000000 4000000000000000) := by
    decide +kernel
  exact hdiffer (hexact _ _ (by decide))

/-- A half is 5 000 basis points for both. -/
theorem Tray.ratioBasisPoints_half :
    percentage 1 2 = F64.div (F64.ofInt (percentageBasisPoints 1 2 : Nat)) (F64.ofInt 100) ∧
      min 10000 (percentageBasisPoints 1 2) = exactBasisPoints 1 2 ∧
      ((ratioBasisPoints (some 1) (some 2)).map UInt16.toNat = some (exactBasisPoints 1 2) ↔
        NotClipped 1 2) :=
  ratioBasisPoints_eq_iff 1 2 (by decide)

/-! ## Byte counts -/

/-- The source's `UNITS`, and the `units` of `format.ts`. -/
def byteUnits : List String := ["B", "KiB", "MiB", "GiB", "TiB"]

/-- The loop of `byte_label`, which ends with `value`, `remainder` and `unit`. The first argument
counts the units that are left. -/
def Tray.byteLabelLoop : Nat → Nat → Nat → Nat → Nat × Nat × Nat
  | 0, value, remainder, unit => (value, remainder, unit)
  | left + 1, value, remainder, unit =>
    if 1024 ≤ value then byteLabelLoop left (value / 1024) (value % 1024) (unit + 1)
    else (value, remainder, unit)

/-- The source's `byte_label`. -/
def Tray.byteLabel (bytes : UInt64) : String :=
  let (value, remainder, unit) := byteLabelLoop (byteUnits.length - 1) bytes.toNat 0 0
  let name := byteUnits.getD unit ""
  if 1 < unit then
    let tenths := (remainder * 10 + 512) / 1024
    if 10 ≤ tenths then toString (value + 1) ++ "." ++ toString 0 ++ " " ++ name
    else toString value ++ "." ++ toString tenths ++ " " ++ name
  else if 1024 ≤ remainder * 2 then toString (value + 1) ++ " " ++ name
  else toString value ++ " " ++ name

/-- `Number.prototype.toFixed` of a number from zero up, below 10²¹: the nearest decimal with so
many digits, the greater of two that are as near. -/
def toFixed (x : ℚ) (digits : Nat) : String :=
  let n := ⌊x * 10 ^ digits + 1 / 2⌋₊
  if digits = 0 then toString n
  else toString (n / 10 ^ digits) ++ "." ++
    String.ofList ((toString (n % 10 ^ digits)).toList.leftpad digits '0')

/-- The loop of `bytes`, which ends with `current` and `index`. The first argument counts the units
that are left. -/
def Dashboard.bytesLoop : Nat → ℚ → Nat → ℚ × Nat
  | 0, current, index => (current, index)
  | left + 1, current, index =>
    if 1024 ≤ current then bytesLoop left (current / 1024) (index + 1) else (current, index)

/-- The `bytes` of `format.ts`, with exact division. -/
def Dashboard.bytes (value : Option ℚ) : String :=
  match value with
  | none => "—"
  | some value =>
    let (current, index) := bytesLoop (byteUnits.length - 1) value 0
    toFixed current (if 1 < index then 1 else 0) ++ " " ++ byteUnits.getD index ""

-- The counts of the source's own test.
example :
    [0, 6144, 1536, 2097152, 3355443, 2097152 - 20].map Tray.byteLabel =
        ["0 B", "6 KiB", "2 KiB", "2.0 MiB", "3.2 MiB", "2.0 MiB"] ∧
      Tray.byteLabel (2 ^ 64 - 1) = "16777216.0 TiB" := by
  decide +kernel

/-- The unit a count is shown in: the greatest power of 1024 within the count, at most a TiB. -/
def shownUnit (b : Nat) : Nat := min 4 (Nat.log 1024 b)

/-- The parts of a unit nearest to a count, the greater number of two that are as near. -/
def nearestParts (b unit parts : Nat) : Nat := (2 * parts * b + unit) / (2 * unit)

/-- No odd multiple of a twentieth of the unit lies above the count without what is below a 1024th
of the unit, and not above the count. -/
def KeepsTenth (b : Nat) : Prop :=
  1 < shownUnit b → ∀ j, (2 * j + 1) * 1024 ^ shownUnit b ≤ 20 * b →
    (2 * j + 1) * 1024 ^ shownUnit b ≤ 20 * (b - b % 1024 ^ (shownUnit b - 1))

section
variable {b n left : Nat}

/-- Another division is due while the count is not below the next unit. -/
theorem succ_le_shownUnit_iff (h : n < 4) : n + 1 ≤ shownUnit b ↔ 1024 ^ (n + 1) ≤ b := by
  unfold shownUnit
  rcases Nat.eq_zero_or_pos b with rfl | hpos
  · have hpow : 0 < 1024 ^ (n + 1) := by positivity
    rw [Nat.log_zero_right]
    omega
  · rw [← Nat.le_log_iff_pow_le (by decide) hpos.ne']
    omega

/-- The loop of `byte_label` divides down to the unit shown, and keeps the last remainder. -/
theorem Tray.byteLabelLoop_eq {remainder : Nat} (h : n + left = 4) (hn : n ≤ shownUnit b)
    (hremainder : remainder = if n = 0 then 0 else b / 1024 ^ (n - 1) % 1024) :
    byteLabelLoop left (b / 1024 ^ n) remainder n =
      (b / 1024 ^ shownUnit b,
        if shownUnit b = 0 then 0 else b / 1024 ^ (shownUnit b - 1) % 1024, shownUnit b) := by
  induction left generalizing n remainder with
  | zero =>
    have hunit : shownUnit b = n := by
      unfold shownUnit at hn ⊢
      omega
    rw [hunit, hremainder]
    rfl
  | succ left ih =>
    have hnext := succ_le_shownUnit_iff (b := b) (n := n) (by omega)
    have hdue : 1024 ≤ b / 1024 ^ n ↔ n + 1 ≤ shownUnit b := by
      rw [hnext, Nat.le_div_iff_mul_le (by positivity), pow_succ, Nat.mul_comm]
    unfold byteLabelLoop
    split
    · next hle =>
      have hdiv : b / 1024 ^ n / 1024 = b / 1024 ^ (n + 1) := by
        rw [Nat.div_div_eq_div_mul, pow_succ]
      rw [hdiv]
      exact ih (by omega) (hdue.1 hle) (by rw [if_neg (Nat.succ_ne_zero n), Nat.add_sub_cancel])
    · next hlt =>
      have hunit : shownUnit b = n := by
        have hlast := mt hdue.2 hlt
        omega
      rw [hunit, hremainder]

/-- The loop of `bytes` divides down to the unit shown. -/
theorem Dashboard.bytesLoop_eq (h : n + left = 4) (hn : n ≤ shownUnit b) :
    bytesLoop left ((b : ℚ) / (1024 ^ n : Nat)) n =
      ((b : ℚ) / (1024 ^ shownUnit b : Nat), shownUnit b) := by
  induction left generalizing n with
  | zero =>
    have hunit : shownUnit b = n := by
      unfold shownUnit at hn ⊢
      omega
    rw [hunit]
    rfl
  | succ left ih =>
    have hnext := succ_le_shownUnit_iff (b := b) (n := n) (by omega)
    have hdue : (1024 : ℚ) ≤ (b : ℚ) / (1024 ^ n : Nat) ↔ n + 1 ≤ shownUnit b := by
      rw [hnext, le_div_iff₀ (by positivity), pow_succ, Nat.mul_comm]
      exact_mod_cast Iff.rfl
    unfold bytesLoop
    split
    · next hle =>
      have hdiv : (b : ℚ) / (1024 ^ n : Nat) / 1024 = (b : ℚ) / (1024 ^ (n + 1) : Nat) := by
        rw [div_div, pow_succ, Nat.cast_mul]
        rfl
      rw [hdiv]
      exact ih (by omega) (hdue.1 hle)
    · next hlt =>
      have hunit : shownUnit b = n := by
        have hlast := mt hdue.2 hlt
        omega
      rw [hunit]

/-- A quotient with so many digits is the nearest number of parts. -/
theorem floor_div_eq_nearestParts {unit : Nat} (hunit : 0 < unit) (digits : Nat) :
    ⌊(b : ℚ) / unit * 10 ^ digits + 1 / 2⌋₊ = nearestParts b unit (10 ^ digits) := by
  have hq : (b : ℚ) / unit * 10 ^ digits + 1 / 2 =
      ((2 * 10 ^ digits * b + unit : Nat) : ℚ) / ((2 * unit : Nat) : ℚ) := by
    have hne : (unit : ℚ) ≠ 0 := by exact_mod_cast hunit.ne'
    push_cast
    field_simp
  rw [hq, Nat.floor_div_eq_div]
  rfl

/-- A digit needs no padding. -/
theorem leftpad_one_toString (m : Nat) :
    String.ofList ((toString m).toList.leftpad 1 '0') = toString m := by
  have hne : (toString m).toList ≠ [] := by
    rw [Nat.toString_eq_repr, Nat.repr_eq_ofList_toDigits, String.toList_ofList]
    exact Nat.toDigits_ne_nil
  have hlength := List.length_pos_iff.2 hne
  rw [List.leftpad, Nat.sub_eq_zero_of_le hlength, List.replicate_zero, List.nil_append,
    String.ofList_toList]

/-- A quotient with one digit. -/
theorem toFixed_one {unit : Nat} (hunit : 0 < unit) :
    toFixed ((b : ℚ) / unit) 1 = toString (nearestParts b unit 10 / 10) ++ "." ++
      toString (nearestParts b unit 10 % 10) := by
  unfold toFixed
  rw [floor_div_eq_nearestParts hunit, if_neg (by decide), pow_one, leftpad_one_toString]

/-- A quotient without digits. -/
theorem toFixed_zero {unit : Nat} (hunit : 0 < unit) :
    toFixed ((b : ℚ) / unit) 0 = toString (nearestParts b unit 1) := by
  unfold toFixed
  rw [floor_div_eq_nearestParts hunit, if_pos rfl, pow_zero]

/-- What the dashboard shows. -/
theorem Dashboard.bytes_eq (b : Nat) :
    bytes (some b) =
      (if 1 < shownUnit b then
        toString (nearestParts b (1024 ^ shownUnit b) 10 / 10) ++ "." ++
          toString (nearestParts b (1024 ^ shownUnit b) 10 % 10)
      else toString (nearestParts b (1024 ^ shownUnit b) 1)) ++ " " ++
        byteUnits.getD (shownUnit b) "" := by
  have hloop : bytesLoop 4 ((b : ℚ) / (1024 ^ 0 : Nat)) 0 = _ := bytesLoop_eq rfl (Nat.zero_le _)
  rw [pow_zero, Nat.cast_one, div_one] at hloop
  have hpos : 0 < 1024 ^ shownUnit b := by positivity
  unfold bytes
  simp only [show byteUnits.length - 1 = 4 from rfl, hloop]
  split
  · rw [toFixed_one hpos]
  · rw [toFixed_zero hpos]

/-- Without the bytes below a 1024th of the unit, the tenths come from the 1024ths. -/
theorem nearestParts_truncated (b u : Nat) :
    nearestParts (b - b % 1024 ^ u) (1024 ^ (u + 1)) 10 = (10 * (b / 1024 ^ u) + 512) / 1024 := by
  have hpos : 0 < 1024 ^ u := by positivity
  have hwhole : b - b % 1024 ^ u = 1024 ^ u * (b / 1024 ^ u) := by
    have hdiv := Nat.div_add_mod b (1024 ^ u)
    omega
  unfold nearestParts
  rw [hwhole, pow_succ]
  generalize b / 1024 ^ u = q
  generalize 1024 ^ u = d at hpos
  calc (2 * 10 * (d * q) + d * 1024) / (2 * (d * 1024))
      = d * (20 * q + 1024) / (d * 2048) := by congr 1 <;> ring
    _ = (20 * q + 1024) / 2048 := Nat.mul_div_mul_left _ _ hpos
    _ = (10 * q + 512) / 1024 := by omega

/-- What the tray shows: below a MiB what is nearest, and from a MiB up what is nearest to the count
without the bytes below the last remainder. -/
theorem Tray.byteLabel_eq (bytes : UInt64) {b : Nat} (hb : bytes.toNat = b) :
    byteLabel bytes =
      (if 1 < shownUnit b then
        toString (nearestParts (b - b % 1024 ^ (shownUnit b - 1)) (1024 ^ shownUnit b) 10 / 10) ++
          "." ++
          toString (nearestParts (b - b % 1024 ^ (shownUnit b - 1)) (1024 ^ shownUnit b) 10 % 10)
      else toString (nearestParts b (1024 ^ shownUnit b) 1)) ++ " " ++
        byteUnits.getD (shownUnit b) "" := by
  have hloop : byteLabelLoop 4 (b / 1024 ^ 0) 0 0 = _ :=
    byteLabelLoop_eq rfl (Nat.zero_le _) (if_pos rfl).symm
  rw [pow_zero, Nat.div_one] at hloop
  unfold byteLabel
  simp only [show byteUnits.length - 1 = 4 from rfl, hb, hloop]
  split
  · next hunit =>
    obtain ⟨u, hu⟩ : ∃ u, shownUnit b = u + 1 := ⟨shownUnit b - 1, by omega⟩
    simp only [hu, if_neg (Nat.succ_ne_zero _), Nat.add_sub_cancel]
    rw [nearestParts_truncated, pow_succ, ← Nat.div_div_eq_div_mul]
    generalize b / 1024 ^ u = q
    split
    · next hcarry =>
      have hquotient : (10 * q + 512) / 1024 / 10 = q / 1024 + 1 := by omega
      have htenths : (10 * q + 512) / 1024 % 10 = 0 := by omega
      rw [hquotient, htenths]
    · next hcarry =>
      have hquotient : (10 * q + 512) / 1024 / 10 = q / 1024 := by omega
      have htenths : (10 * q + 512) / 1024 % 10 = (q % 1024 * 10 + 512) / 1024 := by omega
      rw [hquotient, htenths]
  · next hunit =>
    rcases Nat.eq_zero_or_pos (shownUnit b) with hu | hu
    · simp only [hu, if_pos, pow_zero, Nat.div_one]
      rw [if_neg (by decide), nearestParts, show (2 * 1 * b + 1) / (2 * 1) = b by omega]
    · have hu : shownUnit b = 1 := by omega
      simp only [hu, if_neg Nat.one_ne_zero, Nat.sub_self, pow_zero, Nat.div_one, pow_one]
      unfold nearestParts
      split
      · next hcarry => rw [show (2 * 1 * b + 1024) / (2 * 1024) = b / 1024 + 1 by omega]
      · next hcarry => rw [show (2 * 1 * b + 1024) / (2 * 1024) = b / 1024 by omega]

/-- Two counts of parts are the same exactly when no boundary lies between the counts. -/
theorem nearestParts_eq_iff {a unit parts : Nat} (hunit : 0 < unit) (hab : a ≤ b) :
    nearestParts a unit parts = nearestParts b unit parts ↔
      ∀ j, (2 * j + 1) * unit ≤ 2 * parts * b → (2 * j + 1) * unit ≤ 2 * parts * a := by
  have hreach : ∀ c j, j + 1 ≤ nearestParts c unit parts ↔ (2 * j + 1) * unit ≤ 2 * parts * c := by
    intro c j
    have hdouble : (j + 1) * (2 * unit) = (2 * j + 1) * unit + unit := by ring
    unfold nearestParts
    rw [Nat.le_div_iff_mul_le (by omega), hdouble]
    exact Nat.add_le_add_iff_right
  have hmono : nearestParts a unit parts ≤ nearestParts b unit parts :=
    Nat.div_le_div_right (Nat.add_le_add_right (Nat.mul_le_mul_left _ hab) _)
  constructor
  · intro heq j hj
    rw [← hreach, heq, hreach]
    exact hj
  · intro hboundary
    refine le_antisymm hmono ?_
    cases hn : nearestParts b unit parts with
    | zero => exact Nat.zero_le _
    | succ j => exact (hreach a j).2 (hboundary j ((hreach b j).1 hn.ge))

/-- A number of tenths is read back from its text. -/
theorem tenths_inj {m m' : Nat} {name : String} :
    toString (m / 10) ++ "." ++ toString (m % 10) ++ " " ++ name =
      toString (m' / 10) ++ "." ++ toString (m' % 10) ++ " " ++ name ↔ m = m' := by
  have hdigits : ∀ k : Nat, '.' ∉ (toString k).toList := by
    intro k hmem
    rw [Nat.toString_eq_repr, Nat.repr_eq_ofList_toDigits, String.toList_ofList] at hmem
    exact absurd (Nat.isDigit_of_mem_toDigits (by decide) (by decide) hmem) (by decide)
  refine ⟨fun h => ?_, fun h => h ▸ rfl⟩
  have hlist := congrArg String.toList h
  simp only [String.toList_append] at hlist
  rw [List.append_left_inj, List.append_left_inj, List.append_assoc, List.append_assoc] at hlist
  obtain ⟨hquotient, -, htenths⟩ :=
    (List.append_cons_inj_of_notMem (hdigits (m / 10)) (hdigits (m % 10))).1 hlist
  have hdiv : m / 10 = m' / 10 := Nat.repr_inj.1 (String.toList_injective hquotient)
  have hmod : m % 10 = m' % 10 := Nat.repr_inj.1 (String.toList_injective htenths)
  omega

end

/-- The tray and the dashboard show the same text exactly when the bytes that the tray leaves out do
not carry the count over a rounding boundary. -/
theorem Tray.byteLabel_eq_bytes_iff (bytes : UInt64) :
    byteLabel bytes = Dashboard.bytes (some bytes.toNat) ↔ KeepsTenth bytes.toNat := by
  rw [byteLabel_eq bytes rfl, Dashboard.bytes_eq]
  unfold KeepsTenth
  split
  · next hunit =>
    have hpos : 0 < 1024 ^ shownUnit bytes.toNat := by positivity
    rw [tenths_inj, nearestParts_eq_iff hpos (Nat.sub_le _ _)]
    exact ⟨fun h _ => h, fun h => h hunit⟩
  · next hunit => exact iff_of_true rfl fun h => absurd h hunit

/-- 1 101 005 bytes, just above 1.05 MiB: 1.0 MiB in the tray, and 1.1 MiB on the dashboard. -/
theorem Tray.byteLabel_differs :
    ¬∀ bytes : UInt64, bytes.toNat < 2 ^ 53 →
      byteLabel bytes = Dashboard.bytes (some bytes.toNat) := by
  intro hsame
  have hdiffer : byteLabel 1101005 ≠ Dashboard.bytes (some (UInt64.toNat 1101005)) := by
    decide +kernel
  exact hdiffer (hsame 1101005 (by decide))

end Rackio
