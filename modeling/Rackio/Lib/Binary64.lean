import Rackio.Lib.Nearest

/-!
# The doubles of Lean

The model of `Float` unpacks a pattern into a sign, a significand and an exponent, and packs what it
has rounded. The rounding works on an extended mantissa, which stands for a fraction (`Represents`);
what it is packed to is the double nearest to that fraction, cut off at infinity
(`toNat_pack_roundWithAccuracy`, `toNat_pack_round`).
-/

open Float.Model Float.Model.UnpackedFloat

namespace Binary64

/-- The pattern of infinity. -/
def infinityBits : Nat := 2047 * 2 ^ 52

/-! ## Rounding -/

/-- An extended mantissa holds what rounding needs to know of a fraction. -/
structure Represents (em : ExtendedMantissa) (a b : Nat) : Prop where
  mantissa : em.mantissa = a / b
  roundBit : em.roundBit = decide (b ≤ 2 * (a % b))
  stickyBit : em.stickyBit = decide (2 * (a % b) ≠ 0 ∧ 2 * (a % b) ≠ b)

/-- A natural is held exactly. -/
theorem represents_exact (m : Nat) :
    Represents (ExtendedMantissa.ofMantissaAndAccuracy m .exact) m 1 := by
  refine ⟨(Nat.div_one m).symm, ?_, ?_⟩
  · rw [Nat.mod_one]
    rfl
  · rw [Nat.mod_one]
    rfl

/-- The quotient of a division is held with the accuracy of its remainder. -/
theorem represents_fraction {a b : Nat} (hb : 0 < b) :
    Represents (ExtendedMantissa.ofMantissaAndAccuracy (a / b) (accuracyOfFraction (a % b) b))
      a b := by
  have hlt := Nat.mod_lt a hb
  unfold accuracyOfFraction
  split
  · next h0 =>
    refine ⟨rfl, ?_, ?_⟩
    · rw [h0]
      exact (decide_eq_false (by omega)).symm
    · rw [h0]
      exact (decide_eq_false (by omega)).symm
  · next h0 =>
    cases hcmp : compare (2 * (a % b)) b with
    | lt =>
      rw [compare_lt_iff_lt] at hcmp
      exact ⟨rfl, (decide_eq_false (by omega)).symm, (decide_eq_true (by omega)).symm⟩
    | eq =>
      rw [compare_eq_iff_eq] at hcmp
      exact ⟨rfl, (decide_eq_true (by omega)).symm, (decide_eq_false (by omega)).symm⟩
    | gt =>
      rw [compare_gt_iff_gt] at hcmp
      exact ⟨rfl, (decide_eq_true (by omega)).symm, (decide_eq_true (by omega)).symm⟩

/-- A shift halves the fraction. -/
theorem Represents.shiftRightOne {em : ExtendedMantissa} {a b : Nat} (hb : 0 < b)
    (h : Represents em a b) : Represents em.shiftRightOne a (b * 2) := by
  have hlt := Nat.mod_lt a hb
  -- The lowest bit of the quotient is the new round bit.
  have hmod : a % (b * 2) = a % b + b * (a / b % 2) := Nat.mod_mul
  have hround : (em.mantissa % 2 != 0) = decide (b * 2 ≤ 2 * (a % (b * 2))) := by
    rw [h.mantissa, hmod, bne, Bool.eq_iff_iff, Bool.not_eq_true', beq_eq_false_iff_ne,
      decide_eq_true_iff]
    rcases Nat.mod_two_eq_zero_or_one (a / b) with h0 | h1
    · rw [h0]
      omega
    · rw [h1]
      omega
  have hsticky : (em.roundBit || em.stickyBit) =
      decide (2 * (a % (b * 2)) ≠ 0 ∧ 2 * (a % (b * 2)) ≠ b * 2) := by
    rw [h.roundBit, h.stickyBit, hmod, Bool.eq_iff_iff, Bool.or_eq_true, decide_eq_true_iff,
      decide_eq_true_iff, decide_eq_true_iff]
    rcases Nat.mod_two_eq_zero_or_one (a / b) with h0 | h1
    · rw [h0]
      omega
    · rw [h1]
      omega
  refine ⟨?_, hround, hsticky⟩
  show em.mantissa / 2 = _
  rw [h.mantissa, Nat.div_div_eq_div_mul]

/-- Shifts divide the fraction by a power of two. -/
theorem Represents.shiftRight {em : ExtendedMantissa} {a b : Nat} (hb : 0 < b)
    (h : Represents em a b) (n : Nat) : Represents (em >>> n) a (b * 2 ^ n) := by
  induction n with
  | zero =>
    rw [pow_zero, Nat.mul_one]
    exact h
  | succ n ih =>
    have hshift : em >>> (n + 1) = (em >>> n).shiftRightOne := rfl
    rw [hshift, pow_succ, ← Nat.mul_assoc]
    exact ih.shiftRightOne (by positivity)

/-- A fraction is rounded by its extended mantissa. -/
theorem Represents.roundedMantissa {em : ExtendedMantissa} {a b : Nat}
    (h : Represents em a b) : em.roundedMantissa = roundDiv a b := by
  obtain ⟨mantissa, roundBit, stickyBit⟩ := em
  obtain ⟨rfl, hround, hsticky⟩ := h
  simp only at hround hsticky
  unfold roundDiv
  split
  · next hlt =>
    rw [decide_eq_false (by omega)] at hround
    subst hround
    cases stickyBit <;> rfl
  · next hge =>
    rw [decide_eq_true (by omega)] at hround
    subst hround
    split
    · next hgt =>
      rw [decide_eq_true (by omega)] at hsticky
      rw [hsticky]
      rfl
    · next heq =>
      rw [decide_eq_false (by omega)] at hsticky
      rw [hsticky]
      rfl

/-! ## Patterns -/

/-- The pattern of a positive double, by its fields. -/
theorem toNat_packComponents (exponent : BitVec 11) (mantissa : BitVec 52) :
    (packComponents Format.binary64 .positive exponent mantissa).toNat =
      exponent.toNat * 2 ^ 52 + mantissa.toNat := by
  show ((0#1 ++ exponent) ++ mantissa).toNat = _
  rw [BitVec.toNat_append, BitVec.toNat_append]
  rw [← Nat.shiftLeft_add_eq_or_of_lt mantissa.isLt]
  simp [Nat.shiftLeft_eq]

/-- The pattern of a positive double, by its significand and its exponent. -/
theorem toNat_pack {m j : Nat} (hpos : 0 < m) (hm : m < 2 ^ 53) (hcanonical : 2 ^ 52 ≤ m ∨ j = 0) :
    (UnpackedFloat.pack Format.binary64 (.finite .positive m ((j : Int) - 1074) hpos)).toNat =
      min (j * 2 ^ 52 + m) infinityBits := by
  have hbiased : ((j : Int) - 1074 + Format.binary64.exponentBias +
      Format.binary64.mantissaBitsWithoutImplicit).toNat = j + 1 := by
    show ((j : Int) - 1074 + (1023 : Nat) + (52 : Nat)).toNat = j + 1
    omega
  unfold UnpackedFloat.pack
  simp only [hbiased]
  split
  · next hinf =>
    have hinf : 2046 ≤ j := by
      have : 2 ^ 11 ≤ j + 1 + 1 := hinf
      omega
    rw [packedInfinity, toNat_packComponents]
    show 2047 * 2 ^ 52 + 0 = _
    unfold infinityBits
    omega
  · next hinf =>
    have hinf : j < 2046 := by
      have : ¬ 2 ^ 11 ≤ j + 1 + 1 := hinf
      omega
    have hlog : m.log2 + 1 = Format.binary64.mantissaBits ↔ 2 ^ 52 ≤ m := by
      show m.log2 + 1 = 53 ↔ _
      rw [← Nat.le_log2 (by omega)]
      have := (Nat.log2_lt (by omega)).2 hm
      omega
    simp only [hlog]
    unfold infinityBits
    split
    · rw [toNat_packComponents, BitVec.toNat_ofNat, BitVec.toNat_ofNat]
      omega
    · rw [toNat_packComponents, BitVec.toNat_ofNat, BitVec.toNat_ofNat]
      omega

/-- The sign of a pattern up to infinity. -/
theorem unpackSign_eq {x : BitVec 64} (hx : x.toNat < 2 ^ 63) :
    @unpackSign Format.binary64 x = 0#1 := by
  apply BitVec.eq_of_toNat_eq
  rw [unpackSign, BitVec.toNat_cast, BitVec.extractLsb_toNat]
  show x.toNat >>> 63 % 2 = 0
  rw [Nat.shiftRight_eq_div_pow]
  omega

/-- The fraction of a pattern. -/
theorem toNat_unpackMantissa (x : BitVec 64) :
    (@unpackMantissa Format.binary64 x).toNat = x.toNat % 2 ^ 52 := by
  rw [unpackMantissa, BitVec.toNat_cast, BitVec.extractLsb_toNat]
  show x.toNat >>> 0 % 2 ^ 52 = _
  rw [Nat.shiftRight_zero]

/-- The exponent field of a pattern up to infinity. -/
theorem toNat_unpackExponent {x : BitVec 64} (hx : x.toNat < 2 ^ 63) :
    (@unpackExponent Format.binary64 x).toNat = x.toNat / 2 ^ 52 := by
  rw [unpackExponent, BitVec.toNat_cast, BitVec.extractLsb_toNat]
  show x.toNat >>> 52 % 2 ^ 11 = _
  rw [Nat.shiftRight_eq_div_pow]
  omega

/-- A field with a value is equal to a constant when the constant has that value. -/
theorem field_eq_iff {w v : Nat} {x c : BitVec w} (hx : x.toNat = v) : x = c ↔ v = c.toNat := by
  rw [← hx, BitVec.toNat_inj]

/-- A pattern below infinity is unpacked to its significand and its exponent. -/
theorem unpack_eq {x : BitVec 64} {m j : Nat} (hx : x.toNat = j * 2 ^ 52 + m)
    (hm : m < 2 ^ 53) (hcanonical : 2 ^ 52 ≤ m ∨ j = 0) (hfin : x.toNat < infinityBits) :
    UnpackedFloat.unpack Format.binary64 x =
      if h : m = 0 then .zero .positive
      else .finite .positive m ((j : Int) - 1074) (Nat.pos_of_ne_zero h) := by
  unfold infinityBits at hfin
  have hsign := unpackSign_eq (x := x) (by omega)
  have hmantissa := toNat_unpackMantissa x
  have hexponent := toNat_unpackExponent (x := x) (by omega)
  have hones : @unpackExponent Format.binary64 x ≠ -1#_ := by
    rw [ne_eq, field_eq_iff hexponent]
    show ¬ x.toNat / 2 ^ 52 = 2047
    omega
  unfold UnpackedFloat.unpack
  simp only [hsign, hones, if_false]
  by_cases hsub : x.toNat < 2 ^ 52
  · have hzero : @unpackExponent Format.binary64 x = 0#_ := by
      rw [field_eq_iff hexponent]
      show x.toNat / 2 ^ 52 = 0
      omega
    obtain rfl : j = 0 := by omega
    have hfraction : @unpackMantissa Format.binary64 x = 0#_ ↔ m = 0 := by
      rw [field_eq_iff hmantissa]
      show x.toNat % 2 ^ 52 = 0 ↔ _
      omega
    simp only [hzero, if_true, hfraction]
    split
    · rfl
    · simp only [hmantissa]
      congr 1
      omega
  · have hzero : @unpackExponent Format.binary64 x ≠ 0#_ := by
      rw [ne_eq, field_eq_iff hexponent]
      show ¬ x.toNat / 2 ^ 52 = 0
      omega
    have h0 : m ≠ 0 := by omega
    have happend : (1#1 ++ @unpackMantissa Format.binary64 x).toNat = m := by
      rw [BitVec.toNat_append, ← Nat.shiftLeft_add_eq_or_of_lt (BitVec.isLt _), hmantissa]
      show 1 <<< 52 + _ = _
      rw [Nat.shiftLeft_eq]
      omega
    simp only [hzero, h0, if_false, dite_false, happend, hexponent]
    congr 1
    show ((x.toNat / 2 ^ 52 : Nat) : Int) - ((1023 : Nat) + (52 : Nat)) = _
    omega

/-! ## Rounded fractions -/

/-- The shift to the exponent of a double drops what goes beyond a significand. -/
theorem shiftToTargetExponent_eq {m j : Nat} (h : 2 ^ 52 ≤ m ∨ j = 0) (accuracy : Accuracy) :
    shiftToTargetExponent Format.binary64 m ((j : Int) - 1074) accuracy =
      (ExtendedMantissa.ofMantissaAndAccuracy m accuracy >>> (m.log2 - 52),
        ((j + (m.log2 - 52) : Nat) : Int) - 1074) := by
  have hlog : 52 ≤ m.log2 ∨ j = 0 := h.imp (fun hm => (Nat.le_log2 (by omega)).2 hm) id
  have htarget : (Format.binary64.targetExponent (totalExponent m ((j : Int) - 1074)) -
      ((j : Int) - 1074)).toNat = m.log2 - 52 := by
    show (max ((m.log2 : Int) + 1 + ((j : Int) - 1074) - (53 : Nat)) (-1074) -
      ((j : Int) - 1074)).toNat = m.log2 - 52
    omega
  unfold shiftToTargetExponent shiftToExponent
  simp only [htarget, Nat.cast_add]
  congr 1
  omega

/-- What a rounded significand is packed to; it may have one bit too many. -/
theorem toNat_pack_shift {r j : Nat} (hr : r ≤ 2 ^ 53) (h : 2 ^ 52 ≤ r ∨ j = 0) :
    (UnpackedFloat.pack Format.binary64
      (let shifted := shiftToTargetExponent Format.binary64 r ((j : Int) - 1074) .exact
      if h : shifted.1.mantissa = 0 then .zero .positive
      else .finite .positive shifted.1.mantissa shifted.2 (Nat.pos_of_ne_zero h))).toNat =
      min (j * 2 ^ 52 + r) infinityBits := by
  have hmantissa : (ExtendedMantissa.ofMantissaAndAccuracy r .exact >>> (r.log2 - 52)).mantissa =
      r / 2 ^ (r.log2 - 52) := by
    rw [((represents_exact r).shiftRight (by decide) _).mantissa, Nat.one_mul]
  simp only [shiftToTargetExponent_eq h, hmantissa]
  rcases Nat.lt_or_ge r (2 ^ 53) with hlt | hge
  · have hlog : r.log2 - 52 = 0 := by
      by_cases h0 : r = 0
      · rw [h0, Nat.log2_zero]
      · have := (Nat.log2_lt h0).2 hlt
        omega
    simp only [hlog, pow_zero, Nat.div_one, Nat.add_zero]
    split
    · next h0 =>
      obtain rfl : j = 0 := h.resolve_left (by omega)
      rw [h0]
      show (packComponents Format.binary64 .positive 0 0).toNat = _
      rw [toNat_packComponents]
      rfl
    · next h0 => exact toNat_pack _ hlt h
  · obtain rfl : r = 2 ^ 53 := by omega
    have hlog : (2 ^ 53).log2 - 52 = 1 := by rw [Nat.log2_two_pow]
    simp only [hlog]
    rw [dif_neg (by decide), toNat_pack _ (by decide) (.inl (by decide))]
    unfold infinityBits
    omega

/-- A rounded fraction is packed to the double nearest to it. -/
theorem toNat_pack_roundWithAccuracy {m a b j : Nat} {accuracy : Accuracy} (hb : 0 < b)
    (hrep : Represents (ExtendedMantissa.ofMantissaAndAccuracy m accuracy) a b)
    (h : 2 ^ 52 ≤ a / b ∨ j = 0) :
    (UnpackedFloat.pack Format.binary64
      (roundWithAccuracy Format.binary64 .positive m ((j : Int) - 1074) accuracy)).toNat =
      min (nearest (a * 2 ^ j) b) infinityBits := by
  have hm : m = a / b := by
    rw [← hrep.mantissa]
    cases accuracy with
    | exact => rfl
    | inexact order => cases order <;> rfl
  subst hm
  have hbounds := roundDiv_shift_bounds a b
  have hround := (hrep.shiftRight hb ((a / b).log2 - 52)).roundedMantissa
  unfold roundWithAccuracy
  simp only [shiftToTargetExponent_eq h, hround]
  refine (toNat_pack_shift hbounds.2 ?_).trans ?_
  · rcases Nat.eq_zero_or_pos ((a / b).log2 - 52) with h0 | hpos
    · rcases h with hnormal | rfl
      · left
        rw [h0, pow_zero, Nat.mul_one]
        exact hnormal.trans (roundDiv_bounds a b).1
      · right
        omega
    · exact .inl (hbounds.1 hpos)
  · rw [nearest_mul_two_pow hb h, nearest, Nat.add_mul, Nat.add_assoc]

/-- A natural with an exponent is rounded to the double nearest to it. -/
theorem toNat_pack_round {m : Nat} (hm : m ≠ 0) (j : Nat) :
    (UnpackedFloat.pack Format.binary64
      (UnpackedFloat.round Format.binary64 .positive m ((j : Int) - 1074))).toNat =
      min (nearest (m * 2 ^ j) 1) infinityBits := by
  have hlow := Nat.log2_self_le hm
  -- The shift fills the significand, as far as the exponent allows.
  obtain ⟨shift, hshift⟩ : ∃ shift, shift = min (52 - m.log2) j := ⟨_, rfl⟩
  have hamount : ((j : Int) - 1074 -
      Format.binary64.targetExponent (totalExponent m ((j : Int) - 1074))).toNat = shift := by
    show ((j : Int) - 1074 - max ((m.log2 : Int) + 1 + ((j : Int) - 1074) - (53 : Nat))
      (-1074)).toNat = shift
    omega
  have hexponent : (j : Int) - 1074 - shift = ((j - shift : Nat) : Int) - 1074 := by omega
  have hfull : 2 ^ 52 ≤ m * 2 ^ shift / 1 ∨ j - shift = 0 := by
    rcases Nat.lt_or_ge (52 - m.log2) j with hlt | hge
    · left
      rw [Nat.div_one]
      calc 2 ^ 52 ≤ 2 ^ (m.log2 + shift) := Nat.pow_le_pow_right (by decide) (by omega)
        _ = 2 ^ m.log2 * 2 ^ shift := pow_add ..
        _ ≤ m * 2 ^ shift := Nat.mul_le_mul_right _ hlow
    · right
      omega
  unfold UnpackedFloat.round decreaseExponent
  simp only [hamount, hexponent, Nat.shiftLeft_eq]
  rw [toNat_pack_roundWithAccuracy (by decide) (represents_exact _) hfull, Nat.mul_assoc,
    ← pow_add, Nat.add_sub_cancel' (by omega)]

/-- A positive integer is normalized by rounding. -/
theorem normalize_natCast {m : Nat} (hm : m ≠ 0) (exponent : Int) (zeroSign : Sign) :
    UnpackedFloat.normalize Format.binary64 m exponent zeroSign =
      UnpackedFloat.round Format.binary64 .positive m exponent := by
  unfold UnpackedFloat.normalize
  rw [compare_gt_iff_gt.2 (by exact_mod_cast Nat.pos_of_ne_zero hm), Int.toNat_natCast]

end Binary64
