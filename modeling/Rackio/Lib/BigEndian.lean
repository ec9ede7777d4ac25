import Mathlib

/-!
# Big-endian words

Words of a fixed byte width, most significant byte first: `toBe width n` writes, `ofBe` reads, and
`ofBe_toBe` says that reading undoes writing for every number that fits the width, `toBe_ofBe` that
writing undoes reading.
-/

namespace BigEndian

/-- The number a byte string spells, most significant byte first. -/
def ofBe (bytes : List UInt8) : Nat :=
  bytes.foldl (fun acc b => acc * 256 + b.toNat) 0

/-- The last `width` bytes of `n`, most significant first. -/
def toBe : Nat → Nat → List UInt8
  | 0, _ => []
  | width + 1, n => toBe width (n / 256) ++ [UInt8.ofNat n]

@[simp] theorem length_toBe (width n : Nat) : (toBe width n).length = width := by
  induction width generalizing n with
  | zero => rfl
  | succ width ih => simp [toBe, ih]

/-- Reading a word one byte longer. -/
theorem ofBe_append_singleton (bytes : List UInt8) (b : UInt8) :
    ofBe (bytes ++ [b]) = ofBe bytes * 256 + b.toNat := by
  simp [ofBe]

/-- Reading undoes writing. -/
theorem ofBe_toBe (width n : Nat) (h : n < 256 ^ width) : ofBe (toBe width n) = n := by
  induction width generalizing n with
  | zero =>
    have : n = 0 := by simpa using h
    subst this
    rfl
  | succ width ih =>
    have hdiv : n / 256 < 256 ^ width := by
      rw [Nat.pow_succ] at h
      exact Nat.div_lt_of_lt_mul (by rw [Nat.mul_comm]; exact h)
    rw [toBe, ofBe_append_singleton, ih _ hdiv, UInt8.toNat_ofNat']
    omega

/-- Writing undoes reading. -/
theorem toBe_ofBe (bytes : List UInt8) : toBe bytes.length (ofBe bytes) = bytes := by
  induction bytes using List.reverseRecOn with
  | nil => rfl
  | append_singleton bytes b ih =>
    have hlt := b.toNat_lt
    have hquot : (ofBe bytes * 256 + b.toNat) / 256 = ofBe bytes := by omega
    have hlast : UInt8.ofNat (ofBe bytes * 256 + b.toNat) = b := by
      rw [← UInt8.toNat_inj, UInt8.toNat_ofNat']
      omega
    rw [List.length_append, List.length_singleton, toBe, ofBe_append_singleton, hquot, ih, hlast]

end BigEndian
