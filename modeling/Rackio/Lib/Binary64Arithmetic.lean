import Rackio.Lib.Binary64

/-!
# Arithmetic of doubles

What the operations on `Float` do to doubles that are not negative, by their patterns: a sum and a
quotient are the doubles nearest to the exact ones (`toBits_add`, `toBits_div`), and so is the
double of a natural (`toBits_ofNat`). From `2 ^ 63` on a double is no `i64`, and the conversion
clamps it (`toInt64_of_le`). Two naturals below `2 ^ 63` whose sum is not below it are doubles whose
sum is not below it either, however the three roundings go (`le_nearest_add`).
-/

open Float.Model Float.Model.UnpackedFloat

namespace Binary64

/-! ## Operations -/

/-- One, in units of the smallest double. -/
def one : Nat := 2 ^ 1074

/-- The pattern of a packed double. -/
theorem toNat_toBits_pack (u : UnpackedFloat) :
    (Float.Model.pack u).toBits.toNat = (UnpackedFloat.pack Format.binary64 u).toNat := rfl

/-- A double that is not negative and below infinity is zero or has a significand and an
exponent. -/
theorem unpack_of_lt {x : UInt64} (hx : x.toNat < infinityBits) :
    (UnpackedFloat.unpack Format.binary64 x.toBitVec = .zero .positive ∧ x.toNat = 0) ∨
      ∃ (m j : Nat) (h : 0 < m), UnpackedFloat.unpack Format.binary64 x.toBitVec =
          .finite .positive m ((j : Int) - 1074) h ∧
        m < 2 ^ 53 ∧ (2 ^ 52 ≤ m ∨ j = 0) ∧ x.toNat = j * 2 ^ 52 + m := by
  obtain ⟨m, j, hm, hcanonical, heq⟩ := exists_significand x.toNat
  have hunpack := unpack_eq (x := x.toBitVec) heq hm hcanonical hx
  by_cases h0 : m = 0
  · rw [dif_pos h0] at hunpack
    refine .inl ⟨hunpack, ?_⟩
    omega
  · rw [dif_neg h0] at hunpack
    exact .inr ⟨m, j, _, hunpack, hm, hcanonical, heq⟩

/-- A pattern up to infinity is that of its double. -/
theorem toBits_ofBits {x : UInt64} (hx : x.toNat ≤ infinityBits) :
    (Float.Model.ofBits x).toBits = x := by
  rcases Nat.lt_or_ge x.toNat infinityBits with hlt | hge
  · rw [← UInt64.toNat_inj]
    unfold Float.Model.ofBits
    rw [toNat_toBits_pack]
    rcases unpack_of_lt hlt with ⟨hunpack, h0⟩ | ⟨m, j, h, hunpack, hm, hcanonical, heq⟩
    · rw [hunpack, h0]
      rfl
    · rw [hunpack, toNat_pack h hm hcanonical, ← heq]
      exact min_eq_left hlt.le
  · obtain rfl : x = 0x7FF0000000000000 := by
      rw [← UInt64.toNat_inj]
      exact le_antisymm hx hge
    rfl

/-- The sum of two doubles below infinity is the double nearest to the exact sum. -/
theorem toBits_add {x y : Float.Model} (hx : x.toBits.toNat < infinityBits)
    (hy : y.toBits.toNat < infinityBits) :
    (x + y).toBits.toNat =
      min (nearest (magnitude x.toBits.toNat + magnitude y.toBits.toNat) 1) infinityBits := by
  show (UnpackedFloat.pack Format.binary64 (UnpackedFloat.add Format.binary64
    (UnpackedFloat.unpack Format.binary64 x.toBits.toBitVec)
    (UnpackedFloat.unpack Format.binary64 y.toBits.toBitVec))).toNat = _
  have hzero : magnitude 0 = 0 := rfl
  rcases unpack_of_lt hx with ⟨hux, hx0⟩ | ⟨m, j, hm, hux, hmlt, hmj, hxeq⟩
  · rcases unpack_of_lt hy with ⟨huy, hy0⟩ | ⟨n, k, hn, huy, hnlt, hnk, hyeq⟩
    · rw [hux, huy, hx0, hy0]
      rfl
    · rw [hux, huy, hx0, hzero, Nat.zero_add, nearest_magnitude, hyeq]
      exact toNat_pack hn hnlt hnk
  · rcases unpack_of_lt hy with ⟨huy, hy0⟩ | ⟨n, k, hn, huy, hnlt, hnk, hyeq⟩
    · rw [hux, huy, hy0, hzero, Nat.add_zero, nearest_magnitude, hxeq]
      exact toNat_pack hm hmlt hmj
    · rw [hux, huy, hxeq, hyeq, magnitude_eq hmlt.le hmj, magnitude_eq hnlt.le hnk]
      have hmin : min ((j : Int) - 1074) ((k : Int) - 1074) = ((min j k : Nat) : Int) - 1074 := by
        omega
      have hj : ((j : Int) - 1074 - (((min j k : Nat) : Int) - 1074)).toNat = j - min j k := by
        omega
      have hk : ((k : Int) - 1074 - (((min j k : Nat) : Int) - 1074)).toNat = k - min j k := by
        omega
      have hpos : m * 2 ^ (j - min j k) + n * 2 ^ (k - min j k) ≠ 0 := by positivity
      have hexact : m * 2 ^ j + n * 2 ^ k =
          (m * 2 ^ (j - min j k) + n * 2 ^ (k - min j k)) * 2 ^ min j k := by
        rw [Nat.add_mul, Nat.mul_assoc, Nat.mul_assoc, ← pow_add, ← pow_add,
          Nat.sub_add_cancel (min_le_left j k), Nat.sub_add_cancel (min_le_right j k)]
      rw [hexact, ← toNat_pack_round hpos]
      simp only [UnpackedFloat.add, decreaseExponent, hmin, hj, hk, Nat.shiftLeft_eq, Sign.apply,
        ← Nat.cast_add]
      rw [normalize_natCast hpos]

/-- Infinity is kept by adding a double below it. -/
theorem toBits_add_infinity {x y : Float.Model} (hx : x.toBits.toNat = infinityBits)
    (hy : y.toBits.toNat < infinityBits) : (x + y).toBits.toNat = infinityBits := by
  have hux : UnpackedFloat.unpack Format.binary64 x.toBits.toBitVec = .infinity .positive := by
    obtain heq : x.toBits = 0x7FF0000000000000 := by
      rw [← UInt64.toNat_inj]
      exact hx
    rw [heq]
    rfl
  show (UnpackedFloat.pack Format.binary64 (UnpackedFloat.add Format.binary64
    (UnpackedFloat.unpack Format.binary64 x.toBits.toBitVec)
    (UnpackedFloat.unpack Format.binary64 y.toBits.toBitVec))).toNat = _
  rw [hux]
  rcases unpack_of_lt hy with ⟨huy, -⟩ | ⟨n, k, hn, huy, -⟩
  · rw [huy]
    rfl
  · rw [huy]
    rfl

/-- The quotient of two doubles below infinity that are not zero is the double nearest to the exact
quotient, if its last bit is not below the smallest double. -/
theorem toBits_div {x y : Float.Model} (hx : x.toBits.toNat < infinityBits)
    (hy : y.toBits.toNat < infinityBits) (hx0 : x.toBits.toNat ≠ 0) (hy0 : y.toBits.toNat ≠ 0)
    (hlow : y.toBits.toNat ≤ x.toBits.toNat + 1000 * 2 ^ 52) :
    (x / y).toBits.toNat =
      min (nearest (magnitude x.toBits.toNat * one) (magnitude y.toBits.toNat))
        infinityBits := by
  show (UnpackedFloat.pack Format.binary64 (UnpackedFloat.div Format.binary64
    (UnpackedFloat.unpack Format.binary64 x.toBits.toBitVec)
    (UnpackedFloat.unpack Format.binary64 y.toBits.toBitVec))).toNat = _
  rcases unpack_of_lt hx with ⟨-, h0⟩ | ⟨m, j, hm, hux, hmlt, hmj, hxeq⟩
  · exact absurd h0 hx0
  rcases unpack_of_lt hy with ⟨-, h0⟩ | ⟨n, k, hn, huy, hnlt, hnk, hyeq⟩
  · exact absurd h0 hy0
  rw [hux, huy, hxeq, hyeq, magnitude_eq hmlt.le hmj, magnitude_eq hnlt.le hnk]
  rw [hxeq, hyeq] at hlow
  have hlogm : m.log2 ≤ 52 := by
    have := (Nat.log2_lt hm.ne').2 hmlt
    omega
  -- The division fills the significand, as far as the exponent allows.
  obtain ⟨t, ht⟩ : ∃ t, t = min (j + 1074 - k) (m.log2 + j + 1021 - n.log2 - k) := ⟨_, rfl⟩
  have htarget : min ((j : Int) - 1074 - ((k : Int) - 1074))
      (Format.binary64.targetExponent (totalExponent m ((j : Int) - 1074) -
        totalExponent n ((k : Int) - 1074))) = (t : Int) - 1074 := by
    show min ((j : Int) - 1074 - ((k : Int) - 1074))
      (max (((m.log2 : Int) + 1 + ((j : Int) - 1074) - ((n.log2 : Int) + 1 + ((k : Int) - 1074))) -
        (53 : Nat)) (-1074)) = (t : Int) - 1074
    omega
  have hamount : ((j : Int) - 1074 - ((k : Int) - 1074) - ((t : Int) - 1074)).toNat =
      j + 1074 - k - t := by omega
  obtain ⟨shift, hshift⟩ : ∃ shift, shift = j + 1074 - k - t := ⟨_, rfl⟩
  have hfull : 2 ^ 52 ≤ m * 2 ^ shift / n ∨ t = 0 := by
    rcases Nat.eq_zero_or_pos t with h0 | hpos
    · exact .inr h0
    left
    rw [Nat.le_div_iff_mul_le hn]
    calc 2 ^ 52 * n ≤ 2 ^ 52 * 2 ^ (n.log2 + 1) := Nat.mul_le_mul_left _ Nat.lt_log2_self.le
      _ = 2 ^ (m.log2 + shift) := by
        rw [← pow_add]
        congr 1
        omega
      _ = 2 ^ m.log2 * 2 ^ shift := pow_add ..
      _ ≤ m * 2 ^ shift := Nat.mul_le_mul_right _ (Nat.log2_self_le hm.ne')
  have hexact : m * 2 ^ j * one = m * 2 ^ shift * 2 ^ t * 2 ^ k := by
    rw [one, Nat.mul_assoc, Nat.mul_assoc, Nat.mul_assoc, ← pow_add, ← pow_add, ← pow_add]
    congr 2
    omega
  rw [hexact, nearest_mul_mul _ _ (by positivity),
    ← toNat_pack_roundWithAccuracy hn (represents_fraction hn) hfull]
  simp only [UnpackedFloat.div, divCore, htarget, hamount, ← hshift, Nat.shiftLeft_eq]
  rfl

/-! ## Naturals -/

/-- A double that is not small is kept by multiplying it with one. -/
theorem toBits_mul_one {x : Float.Model} (hx : x.toBits.toNat < infinityBits)
    (hlow : x.toBits.toNat = 0 ∨ 100 * 2 ^ 52 ≤ x.toBits.toNat) :
    (x * Float.Model.ofBits 0x3FF0000000000000).toBits.toNat = x.toBits.toNat := by
  have hone : (Float.Model.ofBits 0x3FF0000000000000).unpack =
      .finite .positive (2 ^ 52) (((1022 : Nat) : Int) - 1074) (by decide) := by
    unfold Float.Model.unpack
    rw [toBits_ofBits (by decide)]
    exact unpack_eq rfl (by decide) (.inl le_rfl) (by decide)
  show (UnpackedFloat.pack Format.binary64 (UnpackedFloat.mul Format.binary64
    (UnpackedFloat.unpack Format.binary64 x.toBits.toBitVec)
    (Float.Model.ofBits 0x3FF0000000000000).unpack)).toNat = _
  rw [hone]
  rcases unpack_of_lt hx with ⟨hux, h0⟩ | ⟨m, j, hm, hux, hmlt, hmj, hxeq⟩
  · rw [hux, h0]
    rfl
  · have hj : 52 ≤ j := by omega
    have hexponent : (j : Int) - 1074 + (((1022 : Nat) : Int) - 1074) =
        ((j - 52 : Nat) : Int) - 1074 := by omega
    have hfull : 2 ^ 52 ≤ m * 2 ^ 52 / 1 ∨ j - 52 = 0 := by
      left
      rw [Nat.div_one]
      exact Nat.le_mul_of_pos_left _ hm
    rw [hux]
    simp only [UnpackedFloat.mul, hexponent]
    refine (toNat_pack_roundWithAccuracy (by decide) (represents_exact _) hfull).trans ?_
    rw [Nat.mul_assoc, ← pow_add, Nat.add_sub_cancel' hj, ← magnitude_eq hmlt.le hmj,
      nearest_magnitude, ← hxeq]
    exact min_eq_left hx.le

/-- The double nearest to a natural below `2 ^ 64` is at most `2 ^ 64`. -/
theorem nearest_natCast_le {n : Nat} (hn : n < 2 ^ 64) :
    nearest (n * one) 1 ≤ 1086 * 2 ^ 52 + 2 ^ 52 := by
  refine nearest_le (by decide) ?_
  have hpow : 2 ^ 52 * 2 ^ 1086 = 2 ^ 64 * one := by
    rw [one, ← pow_add, ← pow_add]
  rw [magnitude_eq (by decide) (.inl le_rfl), Nat.mul_one, hpow]
  exact Nat.mul_le_mul_right _ hn.le

/-- The double nearest to a natural below `2 ^ 64` is below infinity. -/
theorem nearest_natCast_lt {n : Nat} (hn : n < 2 ^ 64) :
    nearest (n * one) 1 < infinityBits :=
  lt_of_le_of_lt (nearest_natCast_le hn) (by decide)

/-- The double nearest to a positive natural is one or more. -/
theorem le_nearest_natCast {n : Nat} (hn : n ≠ 0) :
    1022 * 2 ^ 52 + 2 ^ 52 ≤ nearest (n * one) 1 := by
  refine le_nearest (by decide) ?_
  have hpow : 2 ^ 52 * 2 ^ 1022 = one := by
    rw [one, ← pow_add]
  rw [magnitude_eq (by decide) (.inl le_rfl), Nat.mul_one, hpow]
  exact Nat.le_mul_of_pos_left _ (Nat.pos_of_ne_zero hn)

/-- A `UInt64` is read as the double nearest to it. -/
theorem toBits_ofUInt64 (n : UInt64) :
    (Float.Model.ofUInt64 n).toBits.toNat = nearest (n.toNat * one) 1 := by
  by_cases h0 : n.toNat = 0
  · obtain rfl : n = 0 := UInt64.toNat_inj.1 h0
    rw [UInt64.toNat_zero, Nat.zero_mul]
    rfl
  · show (UnpackedFloat.pack Format.binary64
      (UnpackedFloat.normalize Format.binary64 (n.toNat : Int) 0 .positive)).toNat = _
    rw [normalize_natCast h0]
    have h := toNat_pack_round h0 1074
    rw [← one, min_eq_left (nearest_natCast_lt n.toNat_lt).le] at h
    exact h

/-- A natural that a `UInt64` holds is read through it, and multiplied with one. -/
theorem toBits_ofScientific_small {n : Nat} (hlt : n < 2 ^ 64) :
    (n.toUInt64.toFloat.toModel * Float.Model.ofBits 0x3FF0000000000000).toBits.toNat =
      nearest (n * one) 1 := by
  have hnat : n.toUInt64.toNat = n := Nat.mod_eq_of_lt hlt
  have hbits : n.toUInt64.toFloat.toModel.toBits.toNat = nearest (n * one) 1 := by
    conv_rhs => rw [← hnat]
    exact toBits_ofUInt64 n.toUInt64
  rw [← hbits]
  refine toBits_mul_one (hbits ▸ nearest_natCast_lt hlt) ?_
  rw [hbits]
  by_cases h0 : n = 0
  · left
    rw [h0, Nat.zero_mul]
    rfl
  · right
    have := le_nearest_natCast h0
    omega

/-- Any other natural is rounded as it is. -/
theorem toBits_ofScientific_large {n : Nat} (hn0 : n ≠ 0) :
    (UnpackedFloat.pack Format.binary64
        (UnpackedFloat.ofScientific Format.binary64 n (0 : Nat))).toNat =
      min (nearest (n * one) 1) infinityBits := by
  have hsafe : ¬ ((0 : Nat) : Int) < -((2 ^ 11 : Int) + n.log2) := by
    have : (0 : Int) ≤ 2 ^ 11 := by decide
    omega
  have hfull : 2 ^ 52 ≤ n * 2 ^ 53 * 1 / 1 ∨ 1021 = 0 := by
    left
    rw [Nat.mul_one, Nat.div_one]
    have := Nat.pos_of_ne_zero hn0
    omega
  have h := toNat_pack_roundWithAccuracy (by decide) (represents_exact (n * 2 ^ 53 * 1)) hfull
  have hpow : n * 2 ^ 53 * 1 * 2 ^ 1021 = n * one := by
    rw [one, Nat.mul_one, Nat.mul_assoc, ← pow_add]
  have hexponent : -(Format.binary64.mantissaBits : Int) + 0 = ((1021 : Nat) : Int) - 1074 := by
    decide
  rw [hpow] at h
  refine Eq.trans ?_ h
  unfold UnpackedFloat.ofScientific
  rw [dif_neg hn0, if_neg (by decide), if_neg hsafe, if_pos (by decide)]
  simp only [UnpackedFloat.mul, Nat.shiftLeft_eq, hexponent]
  rfl

/-- A natural is read as the double nearest to it. -/
theorem toBits_ofNat (n : Nat) :
    (Float.ofNat n).toBits.toNat = min (nearest (n * one) 1) infinityBits := by
  show (Float.ofScientific n false 0).toModel.toBits.toNat = _
  unfold Float.ofScientific
  split
  · next hn =>
    have hlt : n < 2 ^ 64 := by omega
    rw [min_eq_left (nearest_natCast_lt hlt).le]
    exact toBits_ofScientific_small hlt
  · next hn =>
    refine toBits_ofScientific_large ?_
    rintro rfl
    exact hn (by decide)

/-! ## Large doubles -/

/-- The pattern of `2 ^ 63`. -/
def twoPow63Bits : Nat := 1086 * 2 ^ 52

/-- A double that is no `i64` is clamped. -/
theorem toInt64_of_le {x : Float.Model} (hlow : twoPow63Bits ≤ x.toBits.toNat)
    (hhigh : x.toBits.toNat ≤ infinityBits) : x.toInt64 = Int64.maxValue := by
  show Int64.ofIntClamp (UnpackedFloat.toInt Int64.minValue.toInt Int64.maxValue.toInt
    (UnpackedFloat.unpack Format.binary64 x.toBits.toBitVec)) = _
  rcases Nat.lt_or_ge x.toBits.toNat infinityBits with hlt | hge
  · unfold twoPow63Bits at hlow
    rcases unpack_of_lt hlt with ⟨-, h0⟩ | ⟨m, j, hm, hux, hmlt, hmj, hxeq⟩
    · omega
    · have hj : 1085 ≤ j := by omega
      have hdec : ((j : Int) - 1074 - 0).toNat = j - 1074 := by omega
      have hinc : (0 - ((j : Int) - 1074 - ((j - 1074 : Nat) : Int))).toNat = 0 := by omega
      have hvalue : UnpackedFloat.toInt Int64.minValue.toInt Int64.maxValue.toInt
          (UnpackedFloat.unpack Format.binary64 x.toBits.toBitVec) =
          ((m * 2 ^ (j - 1074) : Nat) : Int) := by
        rw [hux]
        simp only [UnpackedFloat.toInt, roundToInt, decreaseExponent, shiftToExponent, hdec, hinc,
          Nat.shiftLeft_eq]
        rfl
      have hlarge : 2 ^ 63 ≤ m * 2 ^ (j - 1074) := by
        calc 2 ^ 63 = 2 ^ 52 * 2 ^ 11 := by decide
          _ ≤ m * 2 ^ (j - 1074) :=
            Nat.mul_le_mul (by omega) (Nat.pow_le_pow_right (by decide) (by omega))
      rw [hvalue]
      generalize m * 2 ^ (j - 1074) = n at hlarge
      unfold Int64.ofIntClamp
      have hmin : Int64.minValue.toInt ≤ (n : Int) := by
        have : Int64.minValue.toInt = -2 ^ 63 := by decide
        omega
      have hmax : ¬ (n : Int) ≤ Int64.maxValue.toInt := by
        have : Int64.maxValue.toInt = 2 ^ 63 - 1 := by decide
        omega
      rw [dif_pos hmin, dif_neg hmax]
  · obtain heq : x.toBits = 0x7FF0000000000000 := by
      rw [← UInt64.toNat_inj]
      exact le_antisymm hhigh hge
    rw [heq]
    decide +kernel

/-! ## Sums of naturals -/

/-- What reaches the tie below `2 ^ 63` is rounded up to it, since the significand below is odd. -/
theorem le_nearest_of_tie {a : Nat} (h : (2 ^ 63 - 512) * one ≤ a) :
    twoPow63Bits ≤ nearest a 1 := by
  have htie : nearest ((2 ^ 63 - 512) * one) 1 = twoPow63Bits := by
    rw [one, nearest_mul_two_pow (by decide) (.inl (by decide))]
    decide +kernel
  rw [← htie]
  exact nearest_mono (by decide) (by decide) (by omega)

/-- The double nearest to a natural between `2 ^ 62` and `2 ^ 63` is a multiple of 1024, and at most
512 below the natural. -/
theorem magnitude_nearest_natCast {n : Nat} (hlow : 2 ^ 62 ≤ n) (hhigh : n < 2 ^ 63) :
    ∃ q, magnitude (nearest (n * one) 1) = q * 1024 * one ∧ n ≤ q * 1024 + 512 := by
  have hlog : n.log2 = 52 + 10 := (Nat.log2_eq_iff (by omega)).2 ⟨hlow, hhigh⟩
  have hbounds := roundDiv_bounds n (2 ^ 10)
  refine ⟨roundDiv n (2 ^ 10), ?_, ?_⟩
  · rw [one, nearest_mul_two_pow (by decide) (.inl (by omega)), nearest_of_log2 hlog,
      ← Nat.add_assoc, ← Nat.add_mul, magnitude_eq (by omega) (.inl (by omega)),
      Nat.add_comm 1074, pow_add, ← Nat.mul_assoc]
    rfl
  · have := le_roundDiv_mul n (by decide : 0 < 2 ^ 10)
    omega

/-- The doubles nearest to two naturals whose sum is `2 ^ 63` or more, one of them at least
`2 ^ 62`, add up to what is rounded to `2 ^ 63` or more. -/
theorem le_nearest_add_of_le {n k : Nat} (hn : n < 2 ^ 63) (hk : k < 2 ^ 63)
    (hsum : 2 ^ 63 ≤ n + k) (hlow : 2 ^ 62 ≤ n) :
    twoPow63Bits ≤
      nearest (magnitude (nearest (n * one) 1) + magnitude (nearest (k * one) 1)) 1 := by
  obtain ⟨q, hq, hnq⟩ := magnitude_nearest_natCast hlow hn
  refine le_nearest_of_tie ?_
  rw [hq]
  rcases Nat.lt_or_ge (q * 1024) (2 ^ 63) with hlt | hge
  · -- What is missing to the tie is a double, which the other number reaches.
    have hrest : ((2 ^ 63 - q * 1024) / 512 - 1) * 2 ^ (9 + 1074) ≤
        magnitude (nearest (k * one) 1) := by
      refine le_magnitude_nearest (by omega) ?_
      rw [pow_add, ← Nat.mul_assoc]
      exact Nat.mul_le_mul_right _ (by omega)
    calc (2 ^ 63 - 512) * one = (q * 1024 + ((2 ^ 63 - q * 1024) / 512 - 1) * 2 ^ 9) * one := by
          congr 1
          omega
      _ = q * 1024 * one + ((2 ^ 63 - q * 1024) / 512 - 1) * 2 ^ (9 + 1074) := by
          rw [Nat.add_mul, one, pow_add, Nat.mul_assoc _ (2 ^ 9)]
      _ ≤ q * 1024 * one + magnitude (nearest (k * one) 1) := Nat.add_le_add_left hrest _
  · calc (2 ^ 63 - 512) * one ≤ q * 1024 * one := Nat.mul_le_mul_right _ (by omega)
      _ ≤ q * 1024 * one + magnitude (nearest (k * one) 1) := Nat.le_add_right _ _

/-- The doubles nearest to two naturals below `2 ^ 63` whose sum is not add up to what is rounded
to `2 ^ 63` or more. -/
theorem le_nearest_add {n k : Nat} (hn : n < 2 ^ 63) (hk : k < 2 ^ 63) (hsum : 2 ^ 63 ≤ n + k) :
    twoPow63Bits ≤
      nearest (magnitude (nearest (n * one) 1) + magnitude (nearest (k * one) 1)) 1 := by
  rcases Nat.lt_or_ge n (2 ^ 62) with hlt | hge
  · rw [Nat.add_comm (magnitude _)]
    exact le_nearest_add_of_le hk hn (by omega) (by omega)
  · exact le_nearest_add_of_le hn hk hsum hge

end Binary64
