import Mathlib

/-!
# Rounding to the nearest double

The doubles that are not negative, in naturals. Up to infinity their bit patterns are in the order
of their values, and `Binary64.magnitude` is the value of a pattern in units of `2 ^ -1074`, the
smallest of them. `Binary64.nearest a b` is the pattern of the double nearest to `a / b` such units,
without a bound on the exponent.

Rounding is monotone (`nearest_mono`) and keeps the doubles (`nearest_magnitude`). So a fraction
that is at most a double is rounded to at most that double, and one that is at least a double to at
least that double (`nearest_le`, `le_nearest`), which is all most arguments need.
-/

namespace Binary64

/-! ## Quotients -/

/-- The quotient of two naturals, rounded to the nearest and to even at a tie. -/
def roundDiv (a b : Nat) : Nat :=
  if 2 * (a % b) < b then a / b
  else if b < 2 * (a % b) then a / b + 1
  else a / b + a / b % 2

/-- A rounded quotient is the quotient or one more. -/
theorem roundDiv_bounds (a b : Nat) : a / b ≤ roundDiv a b ∧ roundDiv a b ≤ a / b + 1 := by
  unfold roundDiv
  have := Nat.mod_lt (a / b) (by decide : 0 < 2)
  split_ifs <;> omega

/-- Rounding is off by half a unit at most. -/
theorem le_roundDiv_mul (a : Nat) {b : Nat} (hb : 0 < b) :
    2 * a ≤ 2 * (roundDiv a b * b) + b := by
  have hdiv := Nat.div_add_mod a b
  have hmod := Nat.mod_lt a hb
  unfold roundDiv
  rw [Nat.mul_comm b] at hdiv
  split_ifs
  · omega
  · rw [Nat.add_mul, Nat.one_mul]
    omega
  · rw [Nat.add_mul]
    omega

/-- A multiple is divided exactly. -/
theorem roundDiv_mul_self (a : Nat) {b : Nat} (hb : 0 < b) : roundDiv (a * b) b = a := by
  unfold roundDiv
  rw [Nat.mul_mod_left, Nat.mul_div_cancel a hb, if_pos (by omega)]

/-- A rounded quotient depends on the fraction. -/
theorem roundDiv_mul_mul (a b : Nat) {c : Nat} (hc : 0 < c) :
    roundDiv (a * c) (b * c) = roundDiv a b := by
  unfold roundDiv
  rw [Nat.mul_div_mul_right a b hc, Nat.mul_mod_mul_right, ← Nat.mul_assoc]
  simp only [Nat.mul_lt_mul_right hc]

/-- Quotients are in the order of the fractions. -/
theorem div_mono {a b a' b' : Nat} (hb : 0 < b) (hb' : 0 < b') (h : a * b' ≤ a' * b) :
    a / b ≤ a' / b' := by
  rw [Nat.le_div_iff_mul_le hb', ← Nat.mul_le_mul_right_iff hb]
  calc a / b * b' * b = a / b * b * b' := by ring
    _ ≤ a * b' := Nat.mul_le_mul_right _ (Nat.div_mul_le_self a b)
    _ ≤ a' * b := h

/-- Rounded quotients are in the order of the fractions. -/
theorem roundDiv_mono {a b a' b' : Nat} (hb : 0 < b) (hb' : 0 < b') (h : a * b' ≤ a' * b) :
    roundDiv a b ≤ roundDiv a' b' := by
  have hdiv := Nat.div_add_mod a b
  have hdiv' := Nat.div_add_mod a' b'
  have hq := div_mono hb hb' h
  rcases Nat.lt_or_ge (a / b) (a' / b') with hlt | hge
  · have h1 := (roundDiv_bounds a b).2
    have h2 := (roundDiv_bounds a' b').1
    omega
  -- The quotients are the same, so the remainders decide.
  have heq : a / b = a' / b' := le_antisymm hq hge
  have hr : a % b * b' ≤ a' % b' * b := by
    rw [← hdiv, ← hdiv', Nat.add_mul, Nat.add_mul, heq] at h
    have hcomm : b * (a' / b') * b' = b' * (a' / b') * b := by ring
    omega
  unfold roundDiv
  rw [heq]
  have hmod := Nat.mod_lt (a' / b') (by decide : 0 < 2)
  have hlow : ¬ 2 * (a % b) < b → ¬ 2 * (a' % b') < b' := by
    intro h1 h2
    have h3 : b * b' ≤ 2 * (a % b) * b' := Nat.mul_le_mul_right b' (by omega)
    have h4 : 2 * (a' % b') * b < b' * b := Nat.mul_lt_mul_of_pos_right h2 hb
    have h5 : b * b' = b' * b := Nat.mul_comm b b'
    rw [Nat.mul_assoc] at h3 h4
    omega
  have hhigh : b < 2 * (a % b) → b' < 2 * (a' % b') := by
    intro h1
    by_contra h2
    have h3 : b * b' < 2 * (a % b) * b' := Nat.mul_lt_mul_of_pos_right h1 hb'
    have h4 : 2 * (a' % b') * b ≤ b' * b := Nat.mul_le_mul_right b (by omega)
    have h5 : b * b' = b' * b := Nat.mul_comm b b'
    rw [Nat.mul_assoc] at h3 h4
    omega
  split_ifs <;> omega

/-! ## Doubles -/

/-- The value of a bit pattern, in units of the smallest double. -/
def magnitude (bits : Nat) : Nat :=
  if bits / 2 ^ 52 = 0 then bits else (2 ^ 52 + bits % 2 ^ 52) * 2 ^ (bits / 2 ^ 52 - 1)

/-- The bit pattern of the double nearest to `a / b` units. -/
def nearest (a b : Nat) : Nat :=
  ((a / b).log2 - 52) * 2 ^ 52 + roundDiv a (b * 2 ^ ((a / b).log2 - 52))

/-- The significand of a double that is not subnormal has its leading bit, and a rounded one has at
most one bit more. -/
theorem roundDiv_shift_bounds (a b : Nat) :
    (0 < (a / b).log2 - 52 → 2 ^ 52 ≤ roundDiv a (b * 2 ^ ((a / b).log2 - 52))) ∧
      roundDiv a (b * 2 ^ ((a / b).log2 - 52)) ≤ 2 ^ 53 := by
  have hbounds := roundDiv_bounds a (b * 2 ^ ((a / b).log2 - 52))
  rw [← Nat.div_div_eq_div_mul] at hbounds
  generalize hshift : (a / b).log2 - 52 = shift at *
  constructor
  · intro hpos
    have hne : a / b ≠ 0 := by
      intro h0
      rw [h0, Nat.log2_zero] at hshift
      omega
    refine le_trans ?_ hbounds.1
    rw [Nat.le_div_iff_mul_le (by positivity), ← pow_add]
    have hlog : 52 + shift = (a / b).log2 := by omega
    rw [hlog]
    exact Nat.log2_self_le hne
  · have hlt : a / b / 2 ^ shift < 2 ^ 53 := by
      rw [Nat.div_lt_iff_lt_mul (by positivity), ← pow_add]
      exact lt_of_lt_of_le Nat.lt_log2_self (Nat.pow_le_pow_right (by decide) (by omega))
    omega

/-- The nearest double depends on the fraction. -/
theorem nearest_mul_mul (a b : Nat) {c : Nat} (hc : 0 < c) :
    nearest (a * c) (b * c) = nearest a b := by
  unfold nearest
  rw [Nat.mul_div_mul_right a b hc, Nat.mul_right_comm, roundDiv_mul_mul _ _ hc]

/-- Nearest doubles are in the order of the fractions. -/
theorem nearest_mono {a b a' b' : Nat} (hb : 0 < b) (hb' : 0 < b') (h : a * b' ≤ a' * b) :
    nearest a b ≤ nearest a' b' := by
  have hq := div_mono hb hb' h
  have hlog : (a / b).log2 ≤ (a' / b').log2 := by
    rw [Nat.log2_eq_log_two, Nat.log2_eq_log_two]
    exact Nat.log_mono_right hq
  have hbounds := roundDiv_shift_bounds a b
  have hbounds' := roundDiv_shift_bounds a' b'
  unfold nearest
  rcases Nat.lt_or_ge ((a / b).log2 - 52) ((a' / b').log2 - 52) with hlt | hge
  · have h2 := hbounds'.1 (by omega)
    have h3 : ((a / b).log2 - 52 + 1) * 2 ^ 52 ≤ ((a' / b').log2 - 52) * 2 ^ 52 :=
      Nat.mul_le_mul_right _ hlt
    omega
  · have heq : (a / b).log2 - 52 = (a' / b').log2 - 52 := by omega
    rw [heq]
    refine Nat.add_le_add_left (roundDiv_mono (by positivity) (by positivity) ?_) _
    calc a * (b' * 2 ^ ((a' / b').log2 - 52)) = a * b' * 2 ^ ((a' / b').log2 - 52) := by ring
      _ ≤ a' * b * 2 ^ ((a' / b').log2 - 52) := Nat.mul_le_mul_right _ h
      _ = a' * (b * 2 ^ ((a' / b').log2 - 52)) := by ring

/-- A fraction that has all bits of a significand is rounded alike at every exponent. -/
theorem nearest_mul_two_pow {a b j : Nat} (hb : 0 < b) (h : 2 ^ 52 ≤ a / b ∨ j = 0) :
    nearest (a * 2 ^ j) b = j * 2 ^ 52 + nearest a b := by
  rcases h with hnormal | rfl
  · have hne : a / b ≠ 0 := by omega
    have hlow := Nat.log2_self_le hne
    have hhigh := Nat.lt_log2_self (n := a / b)
    have h52 := (Nat.le_log2 hne).2 hnormal
    rw [Nat.le_div_iff_mul_le hb] at hlow
    rw [Nat.div_lt_iff_lt_mul hb] at hhigh
    have hlog : (a * 2 ^ j / b).log2 = (a / b).log2 + j := by
      have hle : 2 ^ ((a / b).log2 + j) ≤ a * 2 ^ j / b := by
        rw [Nat.le_div_iff_mul_le hb, pow_add, Nat.mul_right_comm]
        exact Nat.mul_le_mul_right _ hlow
      have hpos : 0 < 2 ^ ((a / b).log2 + j) := by positivity
      refine (Nat.log2_eq_iff (by omega)).2 ⟨hle, ?_⟩
      rw [Nat.div_lt_iff_lt_mul hb, Nat.add_right_comm, pow_add, Nat.mul_right_comm]
      exact Nat.mul_lt_mul_of_pos_right hhigh (by positivity)
    have hshift : (a / b).log2 + j - 52 = (a / b).log2 - 52 + j := by omega
    unfold nearest
    rw [hlog, hshift, pow_add, ← Nat.mul_assoc, roundDiv_mul_mul _ _ (by positivity)]
    omega
  · simp

/-- The value of a pattern given by its exponent and its significand, which may have been rounded up
to one bit more. -/
theorem magnitude_eq {m j : Nat} (hm : m ≤ 2 ^ 53) (hcanonical : 2 ^ 52 ≤ m ∨ j = 0) :
    magnitude (j * 2 ^ 52 + m) = m * 2 ^ j := by
  unfold magnitude
  rcases Nat.lt_or_ge m (2 ^ 52) with hsub | hnormal
  · obtain rfl : j = 0 := hcanonical.resolve_left (by omega)
    rw [if_pos (by omega)]
    omega
  rcases Nat.lt_or_ge m (2 ^ 53) with hlt | hge
  · have hdiv : (j * 2 ^ 52 + m) / 2 ^ 52 = j + 1 := by omega
    have hmod : (j * 2 ^ 52 + m) % 2 ^ 52 = m - 2 ^ 52 := by omega
    rw [hdiv, hmod, if_neg (by omega), Nat.add_sub_cancel, Nat.add_sub_cancel' hnormal]
  · obtain rfl : m = 2 ^ 53 := le_antisymm hm hge
    have hdiv : (j * 2 ^ 52 + 2 ^ 53) / 2 ^ 52 = j + 1 + 1 := by omega
    have hmod : (j * 2 ^ 52 + 2 ^ 53) % 2 ^ 52 = 0 := by omega
    rw [hdiv, hmod, if_neg (by omega), Nat.add_sub_cancel, Nat.add_zero, pow_succ]
    ring

/-- A pattern has an exponent and a significand. -/
theorem exists_significand (bits : Nat) :
    ∃ m j, m < 2 ^ 53 ∧ (2 ^ 52 ≤ m ∨ j = 0) ∧ bits = j * 2 ^ 52 + m := by
  by_cases hsub : bits < 2 ^ 52
  · exact ⟨bits, 0, by omega, .inr rfl, by omega⟩
  · exact ⟨2 ^ 52 + bits % 2 ^ 52, bits / 2 ^ 52 - 1, by omega, .inl (by omega), by omega⟩

/-- A double is nearest to itself. -/
@[simp] theorem nearest_magnitude (bits : Nat) : nearest (magnitude bits) 1 = bits := by
  obtain ⟨m, j, hm, hcanonical, rfl⟩ := exists_significand bits
  rw [magnitude_eq hm.le hcanonical]
  unfold nearest
  have hshift : (m * 2 ^ j / 1).log2 - 52 = j := by
    rw [Nat.div_one]
    rcases hcanonical with hnormal | rfl
    · have hlog : (m * 2 ^ j).log2 = 52 + j := by
        rw [Nat.log2_eq_iff (by positivity)]
        constructor
        · rw [pow_add]
          exact Nat.mul_le_mul_right _ hnormal
        · rw [show 52 + j + 1 = 53 + j by omega, pow_add]
          exact Nat.mul_lt_mul_of_pos_right hm (by positivity)
      omega
    · rw [pow_zero, Nat.mul_one]
      by_cases h0 : m = 0
      · rw [h0, Nat.log2_zero]
      · have := (Nat.log2_lt h0).2 hm
        omega
  rw [hshift, Nat.one_mul, roundDiv_mul_self m (by positivity)]

/-- A fraction that is at most a double is rounded to at most that double. -/
theorem nearest_le {a b bits : Nat} (hb : 0 < b) (h : a ≤ magnitude bits * b) :
    nearest a b ≤ bits := by
  rw [← nearest_magnitude bits]
  exact nearest_mono hb (by decide) (by omega)

/-- A fraction that is at least a double is rounded to at least that double. -/
theorem le_nearest {a b bits : Nat} (hb : 0 < b) (h : magnitude bits * b ≤ a) :
    bits ≤ nearest a b := by
  conv_lhs => rw [← nearest_magnitude bits]
  exact nearest_mono (by decide) hb (by omega)

/-- The patterns are in the order of the values. -/
theorem magnitude_le_magnitude {bits bits' : Nat} :
    magnitude bits ≤ magnitude bits' ↔ bits ≤ bits' := by
  have hmono : ∀ {x y : Nat}, magnitude x ≤ magnitude y → x ≤ y := by
    intro x y h
    rw [← nearest_magnitude x]
    exact nearest_le (by decide) (by omega)
  refine ⟨hmono, fun h => ?_⟩
  by_contra hlt
  have heq : bits = bits' := le_antisymm h (hmono (by omega))
  rw [heq] at hlt
  exact hlt le_rfl

/-- A significand of at most 53 bits at any exponent is the value of a double. -/
theorem exists_magnitude (j : Nat) {m : Nat} (hm : m < 2 ^ 53) :
    ∃ bits, magnitude bits = m * 2 ^ j := by
  induction j generalizing m with
  | zero => exact ⟨0 * 2 ^ 52 + m, magnitude_eq hm.le (.inr rfl)⟩
  | succ j ih =>
    rcases Nat.lt_or_ge m (2 ^ 52) with hsub | hnormal
    · obtain ⟨bits, hbits⟩ := ih (m := m * 2) (by omega)
      exact ⟨bits, by rw [hbits, pow_succ]; ring⟩
    · exact ⟨(j + 1) * 2 ^ 52 + m, magnitude_eq hm.le (.inl hnormal)⟩

/-- Fractions with two such values between them are rounded to different doubles. -/
theorem nearest_lt_nearest {a b a' b' m j : Nat} (hb : 0 < b) (hb' : 0 < b') (hm : m + 1 < 2 ^ 53)
    (h : a ≤ m * 2 ^ j * b) (h' : (m + 1) * 2 ^ j * b' ≤ a') : nearest a b < nearest a' b' := by
  obtain ⟨low, hlow⟩ := exists_magnitude j (m := m) (by omega)
  obtain ⟨high, hhigh⟩ := exists_magnitude j hm
  have hlt : low < high := by
    rw [← not_le, ← magnitude_le_magnitude, hlow, hhigh, not_le]
    exact Nat.mul_lt_mul_of_pos_right (Nat.lt_succ_self m) (by positivity)
  calc nearest a b ≤ low := nearest_le hb (hlow ▸ h)
    _ < high := hlt
    _ ≤ nearest a' b' := le_nearest hb' (hhigh ▸ h')

/-- Such a value is not changed by rounding. -/
theorem magnitude_nearest (j : Nat) {m : Nat} (hm : m < 2 ^ 53) :
    magnitude (nearest (m * 2 ^ j) 1) = m * 2 ^ j := by
  obtain ⟨bits, hbits⟩ := exists_magnitude j hm
  rw [← hbits, nearest_magnitude]

/-- What is at least such a value is rounded to at least that value. -/
theorem le_magnitude_nearest {a m j : Nat} (hm : m < 2 ^ 53) (h : m * 2 ^ j ≤ a) :
    m * 2 ^ j ≤ magnitude (nearest a 1) := by
  obtain ⟨bits, hbits⟩ := exists_magnitude j hm
  rw [← hbits] at h ⊢
  exact magnitude_le_magnitude.2 (le_nearest (by decide) (by omega))

/-- The double nearest to a natural with bits to spare, by the exponent of the natural. -/
theorem nearest_of_log2 {a shift : Nat} (h : a.log2 = 52 + shift) :
    nearest a 1 = shift * 2 ^ 52 + roundDiv a (2 ^ shift) := by
  unfold nearest
  rw [Nat.div_one, h, Nat.add_sub_cancel_left, Nat.one_mul]

end Binary64
