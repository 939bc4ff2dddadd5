import Teakra.Common.Bits

/-!
# Words read as signed integers

The interpreter keeps every signed quantity as the two's complement of an integer in a
machine word and narrows it with `SignExtend<b>`. The statements about its arithmetic are
about those integers: the exact product, the exact sum and the exact shift. This module says
when a sign extension gives back a given integer.

Results:
* `bmod_eq_self`, `bmod_eq_self_iff`: `Int.bmod` is the identity exactly on the integers in
  range.
* `SignExtend_eq_ofInt_of_emod`: `SignExtend (k + 1)` of a word is the integer in
  `[-2^k, 2^k)` it agrees with on the low `k + 1` bits.
* `toInt_SignExtend`, `SignExtend_eq_self_iff`: read as an integer, `SignExtend (m + 1)` is
  `Int.bmod` by `2^(m + 1)`, so it keeps a word exactly when the word lies in `[-2^m, 2^m)`.
-/

namespace Teakra

/-- Modelled from the spec: an exact integer lies outside the signed 40-bit range. -/
def outside40 (e : Int) : Bool := decide (e < -2 ^ 39 ∨ 2 ^ 39 ≤ e)

/-- Modelled from the spec: an exact integer lies outside the signed 32-bit range. -/
def outside32 (e : Int) : Bool := decide (e < -2 ^ 31 ∨ 2 ^ 31 ≤ e)

theorem cast_two_pow_succ (k : Nat) : ((2 ^ (k + 1) : Nat) : Int) = 2 * 2 ^ k := by
  push_cast; rw [Int.pow_succ, Int.mul_comm]

theorem bmod_eq_self {x : Int} {k : Nat} (h1 : -2 ^ k ≤ x) (h2 : x < 2 ^ k) :
    Int.bmod x (2 ^ (k + 1)) = x := by
  rw [Int.bmod_def, cast_two_pow_succ]
  by_cases hx : x < 0
  · have : x % (2 * 2 ^ k) = x + 2 * 2 ^ k := by
      rw [← Int.add_emod_self, Int.emod_eq_of_lt (by omega) (by omega)]
    rw [this, if_neg (by omega)]; omega
  · rw [Int.emod_eq_of_lt (by omega) (by omega), if_pos (by omega)]

theorem bmod_eq_self_iff {x : Int} {k : Nat} :
    Int.bmod x (2 ^ (k + 1)) = x ↔ -2 ^ k ≤ x ∧ x < 2 ^ k := by
  refine ⟨fun h => ?_, fun h => bmod_eq_self h.1 h.2⟩
  have h1 := @Int.le_bmod x (2 ^ (k + 1)) (Nat.two_pow_pos _)
  have h2 := @Int.bmod_lt x (2 ^ (k + 1)) (Nat.two_pow_pos _)
  rw [cast_two_pow_succ, h] at h1 h2
  omega

theorem SignExtend_eq_ofInt {w : Nat} (b : Nat) (v : BitVec w) :
    SignExtend b v = BitVec.ofInt w (v.setWidth b).toInt := rfl

/-- `SignExtend (k + 1)` of a word is the integer in `[-2^k, 2^k)` it agrees with on the low
    `k + 1` bits. -/
theorem SignExtend_eq_ofInt_of_emod {w k : Nat} {v : BitVec w} {z : Int} (h1 : -2 ^ k ≤ z)
    (h2 : z < 2 ^ k) (hv : (v.toNat : Int) % 2 ^ (k + 1) = z % 2 ^ (k + 1)) :
    SignExtend (k + 1) v = BitVec.ofInt w z := by
  have e : ((2 ^ (k + 1) : Nat) : Int) = 2 ^ (k + 1) := by norm_cast
  rw [SignExtend_eq_ofInt, BitVec.toInt_eq_toNat_bmod, BitVec.toNat_setWidth, Int.ofNat_emod, e, hv,
    ← e, Int.emod_bmod, bmod_eq_self h1 h2]

theorem toInt_emod_two_pow {w k : Nat} (v : BitVec w) (hk : k ≤ w) :
    v.toInt % 2 ^ k = (v.toNat : Int) % 2 ^ k := by
  rw [BitVec.toInt_eq_toNat_cond]
  split
  · rfl
  · have : ((2 ^ w : Nat) : Int) = 2 ^ k * 2 ^ (w - k) := by
      rw [Int.natCast_pow, Nat.cast_ofNat, ← pow_add, Nat.add_sub_cancel' hk]
    rw [this, sub_eq_add_neg, ← mul_neg, Int.add_mul_emod_self_left]

theorem toInt_SignExtend {w m : Nat} (v : BitVec w) (hm : m < w) :
    (SignExtend (m + 1) v).toInt = Int.bmod v.toInt (2 ^ (m + 1)) := by
  have h1 := @Int.le_bmod v.toInt (2 ^ (m + 1)) (Nat.two_pow_pos _)
  have h2 := @Int.bmod_lt v.toInt (2 ^ (m + 1)) (Nat.two_pow_pos _)
  rw [cast_two_pow_succ] at h1 h2
  have hv : (v.toNat : Int) % 2 ^ (m + 1) = Int.bmod v.toInt (2 ^ (m + 1)) % 2 ^ (m + 1) := by
    have := @Int.bmod_emod v.toInt (2 ^ (m + 1))
    push_cast at this
    rw [← toInt_emod_two_pow v hm, this]
  rw [SignExtend_eq_ofInt_of_emod (by omega) (by omega) hv, BitVec.toInt_ofInt]
  obtain ⟨k, rfl⟩ : ∃ k, w = k + 1 := ⟨w - 1, by omega⟩
  have : (2 : Int) ^ m ≤ 2 ^ k := pow_le_pow_right₀ (by norm_num) (by omega)
  exact bmod_eq_self (by omega) (by omega)

theorem SignExtend_eq_self_iff {w m : Nat} {v : BitVec w} (hm : m < w) :
    SignExtend (m + 1) v = v ↔ -2 ^ m ≤ v.toInt ∧ v.toInt < 2 ^ m := by
  rw [← BitVec.toInt_inj, toInt_SignExtend v hm, bmod_eq_self_iff]

/-- A sign extension from at most 63 bits keeps clear of the ends of the 64-bit range. -/
theorem toInt_SignExtend_bounds {b : Nat} (v : BitVec 64) (hb : 0 < b) (hb' : b ≤ 63) :
    -2 ^ 62 ≤ (SignExtend b v).toInt ∧ (SignExtend b v).toInt < 2 ^ 62 := by
  obtain ⟨m, rfl⟩ : ∃ m, b = m + 1 := ⟨b - 1, by omega⟩
  have h := (SignExtend_eq_self_iff (show m < 64 by omega)).1 (SignExtend_idem v hb)
  have hm : (2 : Int) ^ m ≤ 2 ^ 62 := pow_le_pow_right₀ (by norm_num) (by omega)
  omega

/-- A 16-bit word, zero-extended to a wider word and sign-extended from 16 bits, is its signed
    value. -/
theorem toInt_SignExtend_16_setWidth {n : Nat} (hn : 16 < n) (x : BitVec 16) :
    (SignExtend 16 (x.setWidth n)).toInt = x.toInt := by
  have hx := x.isLt
  have hp : 2 ^ 17 ≤ 2 ^ n := Nat.pow_le_pow_right (by decide) hn
  have h : (x.setWidth n).toInt = x.toNat := by
    rw [BitVec.toInt_eq_toNat_cond, BitVec.toNat_setWidth, Nat.mod_eq_of_lt (by omega)]
    split <;> omega
  rw [toInt_SignExtend _ (show 15 < n by omega), h, BitVec.toInt_eq_toNat_bmod]

/-- The top bit of a word, shifted down, is clear exactly when the word is not negative. -/
theorem ushiftRight_eq_zero_iff {w : Nat} (z : BitVec (w + 1)) : z >>> w = 0 ↔ 0 ≤ z.toInt := by
  have := z.isLt
  have h2 : 2 ^ (w + 1) = 2 * 2 ^ w := Nat.pow_succ'
  rw [BitVec.toNat_eq, BitVec.toNat_ushiftRight, Nat.shiftRight_eq_div_pow,
    show (0 : BitVec (w + 1)).toNat = 0 from rfl, Nat.div_eq_zero_iff (Nat.two_pow_pos w),
    BitVec.toInt_eq_toNat_cond]
  split <;> omega

/-- `SignExtend b` reads only the low `b` bits. -/
theorem SignExtend_congr {w b : Nat} {x y : BitVec w}
    (h : (x.toNat : Int) % 2 ^ b = (y.toNat : Int) % 2 ^ b) : SignExtend b x = SignExtend b y := by
  unfold SignExtend
  congr 1
  apply BitVec.eq_of_toNat_eq
  simp only [BitVec.toNat_setWidth]
  exact_mod_cast h

theorem toInt_bounds (v : BitVec 64) : -2 ^ 63 ≤ v.toInt ∧ v.toInt < 2 ^ 63 := by
  have := v.isLt
  rw [BitVec.toInt_eq_toNat_cond]
  split <;> omega

theorem toInt_ofInt_of_bounds {e : Int} (h1 : -2 ^ 63 ≤ e) (h2 : e < 2 ^ 63) :
    (BitVec.ofInt 64 e).toInt = e := by
  rw [BitVec.toInt_ofInt]
  exact bmod_eq_self h1 h2

theorem ofInt_toInt (v : BitVec 64) : BitVec.ofInt 64 v.toInt = v :=
  BitVec.eq_of_toInt_eq (toInt_ofInt_of_bounds (toInt_bounds v).1 (toInt_bounds v).2)

theorem toNat_ofInt_emod {w b : Nat} (e : Int) (hb : b ≤ w) :
    ((BitVec.ofInt w e).toNat : Int) % 2 ^ b = e % 2 ^ b := by
  rw [BitVec.toNat_ofInt, Int.toNat_of_nonneg (Int.emod_nonneg _ (by positivity))]
  push_cast
  exact Int.emod_emod_of_dvd e (pow_dvd_pow 2 hb)

end Teakra
