import Rackio.Core.Storage
import Rackio.Lib.Binary64Arithmetic

/-!
# Doubles of the program

The operations on `F64` of `Storage`, by the patterns of their results, for doubles that are not
negative and below infinity.
-/

namespace Rackio

open Binary64

/-- The pattern of the double of an integer that is not negative and an `i64`. -/
theorem F64.toNat_bits_ofInt {n : Int} (h0 : 0 ≤ n) (hmax : n ≤ i64Max) :
    (F64.ofInt n).bits.toNat = nearest (n.toNat * one) 1 := by
  obtain ⟨k, rfl⟩ := Int.eq_ofNat_of_zero_le h0
  have hk : k < 2 ^ 64 := by
    unfold i64Max at hmax
    omega
  show (Float.ofNat k).toBits.toNat = _
  rw [toBits_ofNat, min_eq_left (nearest_natCast_lt hk).le]
  rfl

/-- Such a double is below infinity. -/
theorem F64.toNat_bits_ofInt_lt {n : Int} (h0 : 0 ≤ n) (hmax : n ≤ i64Max) :
    (F64.ofInt n).bits.toNat < infinityBits := by
  rw [F64.toNat_bits_ofInt h0 hmax]
  unfold i64Max at hmax
  exact nearest_natCast_lt (by omega)

/-- The pattern of a sum. -/
theorem F64.toNat_bits_add {x y : F64} (hx : x.bits.toNat < infinityBits)
    (hy : y.bits.toNat < infinityBits) :
    (x.add y).bits.toNat =
      min (nearest (Binary64.magnitude x.bits.toNat + Binary64.magnitude y.bits.toNat) 1)
        infinityBits := by
  have hxbits := toBits_ofBits hx.le
  have hybits := toBits_ofBits hy.le
  have h := toBits_add (hxbits ▸ hx) (hybits ▸ hy)
  rw [hxbits, hybits] at h
  exact h

/-- The pattern of a quotient, where it is not below the smallest double. -/
theorem F64.toNat_bits_div {x y : F64} (hx : x.bits.toNat < infinityBits)
    (hy : y.bits.toNat < infinityBits) (hx0 : x.bits.toNat ≠ 0) (hy0 : y.bits.toNat ≠ 0)
    (hlow : y.bits.toNat ≤ x.bits.toNat + 1000 * 2 ^ 52) :
    (x.div y).bits.toNat =
      min (nearest (Binary64.magnitude x.bits.toNat * one) (Binary64.magnitude y.bits.toNat))
        infinityBits := by
  have hxbits := toBits_ofBits hx.le
  have hybits := toBits_ofBits hy.le
  have h := toBits_div (x := Float.Model.ofBits x.bits) (y := Float.Model.ofBits y.bits)
  rw [hxbits, hybits] at h
  exact h hx hy hx0 hy0 hlow

end Rackio
