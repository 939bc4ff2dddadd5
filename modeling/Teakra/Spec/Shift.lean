import Teakra.Common.Signed
import Teakra.Interpreter.Shift
import Teakra.Spec.AddSub
import Teakra.Spec.Bus

/-!
# What the shifter and the exponent detector compute

`ShiftBus40` (`interpreter.h`, lines 2204–2261) shifts the 40-bit pattern of a canonical value
by a signed 16-bit amount. In arithmetic mode (`s == 0`) it computes the exact shift of the
integer the value stands for: `v * 2^sv` to the left, `floor(v / 2^-sv)` to the right. Its
overflow test `SignExtend<40>(value) != SignExtend(value, 40 - sv)` holds exactly when that
exact result leaves the 40-bit range. Its saturation is the clamp of the exact result to 32 bits,
although the code chooses the bound by the sign before the shift. In logical mode it is the
logical shift of the 40-bit pattern.

`Exp` (lines 2337–2349) counts the bits below bit 39 that repeat the sign. Shifting by that
count minus 8 brings every nonzero value into the 32-bit range with bit 31 different from bit
30, so `exp` followed by `shfc` never overflows or saturates, and `SetAccFlag` then reports
`E = 0` and `N = 1`.

Results:
* `shift40_arith`: the `fv`, `fc[0]` and value of the arithmetic shift, in terms of the exact
  shift `shiftExact`.
* `wp_shiftBus40_arith`, `wp_shiftBus40_logical`: what `ShiftBus40` leaves in each mode.
* `shiftBus40_exact`: in arithmetic mode `fv` is the 40-bit overflow of the exact shift, `fc[0]`
  the last bit shifted out, and the stored word the exact shift clamped to 32 bits (or its
  40-bit residue under `sar[1]`). In logical mode the logical shift is stored, without
  saturation and without touching `fv`.
* `signRun_bounds`: the range a canonical value lies in, given its run of sign bits.
* `shiftBus40_exp`: `Exp` is that run minus 8, and shifting by it normalises.
-/

namespace Teakra

/-! ## The exact shift -/

/-- Modelled from the spec: the exact result of shifting the integer `v` by the signed amount
    `sv`: `v * 2^sv` for `sv ≥ 0`, `floor(v / 2^-sv)` for `sv < 0`. -/
def shiftExact (v : Int) (sv : BitVec 16) : Int :=
  if 0 ≤ sv.toInt then v * 2 ^ sv.toNat else v / 2 ^ (-sv.toInt).toNat

/-- Modelled from the spec: `e` clamped to the signed 32-bit range. -/
def clamp32 (e : Int) : Int := max (-2 ^ 31) (min e (2 ^ 31 - 1))

/-- Modelled from the spec: the last bit of the 40-bit pattern of `v` that a shift by `sv`
    moves out: bit `40 - sv` on a left shift (none, `false`, for a shift by 0 or by 40 or
    more), bit `-sv - 1` on a right shift, and the sign on a right shift by 40 or more. -/
def lastShiftedOut (v : BitVec 64) (sv : BitVec 16) : Bool :=
  if 0 ≤ sv.toInt then sv.toNat < 40 && (v.setWidth 40).getLsbD (40 - sv.toNat)
  else if (-sv.toInt).toNat < 40 then (v.setWidth 40).getLsbD ((-sv.toInt).toNat - 1)
  else (v.setWidth 40).getLsbD 39

/-- Modelled from the spec: the logical shift of the 40-bit pattern of `v` by the signed amount
    `sv`; a shift by 40 or more gives 0. -/
def shiftLogical40 (v : BitVec 64) (sv : BitVec 16) : BitVec 40 :=
  if 0 ≤ sv.toInt then v.setWidth 40 <<< sv.toNat else v.setWidth 40 >>> (-sv.toInt).toNat

/-! ## The 40-bit pattern and single bits -/

theorem and_twoPow_ne_zero (x : BitVec 64) {j : Nat} (hj : j < 64) :
    (x &&& 1 <<< j != 0) = x.getLsbD j := by
  have h2 : ((1 <<< j : Nat) : BitVec 64) = BitVec.twoPow 64 j := by
    apply BitVec.eq_of_toNat_eq
    rw [BitVec.toNat_twoPow, Nat.one_shiftLeft]
    rfl
  rw [h2, BitVec.and_twoPow]
  cases x.getLsbD j
  · rfl
  · rw [if_pos rfl, bne_iff_ne, ne_eq, BitVec.toNat_eq, BitVec.toNat_twoPow,
      Nat.mod_eq_of_lt (Nat.pow_lt_pow_right (by decide) hj)]
    exact (Nat.two_pow_pos j).ne'

theorem cast_toNat_and_mask40 (v : BitVec 64) :
    ((v &&& 0xFFFFFFFFFF).toNat : Int) = v.toInt % 2 ^ 40 := by
  rw [toNat_and_mask40, toInt_emod_two_pow v (by decide)]
  push_cast
  rfl

theorem getLsbD_and_mask40 (v : BitVec 64) (j : Nat) :
    (v &&& 0xFFFFFFFFFF).getLsbD j = (v.setWidth 40).getLsbD j := by
  rw [BitVec.getLsbD_setWidth]
  simp only [BitVec.getLsbD, toNat_and_mask40, Nat.testBit_mod_two_pow, Bool.and_comm]

theorem SignExtend_and_mask40 {b : Nat} (v : BitVec 64) (hb : b ≤ 40) :
    SignExtend b (v &&& 0xFFFFFFFFFF) = SignExtend b v :=
  SignExtend_congr (by rw [cast_toNat_and_mask40, toInt_emod_two_pow v (by decide),
    Int.emod_emod_of_dvd _ (pow_dvd_pow 2 hb)])

theorem Canon.getLsbD_39 {v : BitVec 64} (hv : Canon v) : v.getLsbD 39 = decide (v.toInt < 0) := by
  have h := canon_iff_toNat.1 hv
  have := v.isLt
  rw [BitVec.getLsbD, Nat.testBit_to_div_mod, BitVec.toInt_eq_toNat_cond]
  by_cases h1 : 2 * v.toNat < 2 ^ 64
  · rw [if_pos h1]; simp only [decide_eq_decide]; omega
  · rw [if_neg h1]; simp only [decide_eq_decide]; omega

theorem Canon.toInt_bounds {v : BitVec 64} (hv : Canon v) :
    -2 ^ 39 ≤ v.toInt ∧ v.toInt < 2 ^ 39 :=
  (SignExtend_eq_self_iff (by decide)).1 hv

/-! ## Signed ranges under shifts -/

/-- A left shift by `k` moves the signed range `[-2^m, 2^m)` onto `[-2^(m+k), 2^(m+k))`. -/
theorem mul_two_pow_mem_iff (V : Int) (m k : Nat) :
    (-2 ^ (m + k) ≤ V * 2 ^ k ∧ V * 2 ^ k < 2 ^ (m + k)) ↔ (-2 ^ m ≤ V ∧ V < 2 ^ m) := by
  have hP : (0 : Int) < 2 ^ k := by positivity
  rw [pow_add, ← neg_mul, mul_le_mul_right hP, mul_lt_mul_right hP]

/-- An arithmetic right shift by `n` moves `[-2^(m+n), 2^(m+n))` onto `[-2^m, 2^m)`. -/
theorem ediv_two_pow_mem_iff (V : Int) (m n : Nat) :
    (-2 ^ m ≤ V / 2 ^ n ∧ V / 2 ^ n < 2 ^ m) ↔ (-2 ^ (m + n) ≤ V ∧ V < 2 ^ (m + n)) := by
  have hP : (0 : Int) < 2 ^ n := by positivity
  rw [Int.le_ediv_iff_mul_le hP, Int.ediv_lt_iff_lt_mul hP, pow_add, neg_mul]

theorem outside40_mul_two_pow (V : Int) {k : Nat} (hk : k ≤ 39) :
    outside40 (V * 2 ^ k) = !decide (-2 ^ (39 - k) ≤ V ∧ V < 2 ^ (39 - k)) := by
  have h := mul_two_pow_mem_iff V (39 - k) k
  rw [Nat.sub_add_cancel hk] at h
  unfold outside40
  simp only [← h, ← decide_not, decide_eq_decide]
  omega

/-- A left shift by 40 or more overflows exactly when the value is not zero. -/
theorem outside40_mul_two_pow_of_le (V : Int) {k : Nat} (hk : 40 ≤ k) :
    outside40 (V * 2 ^ k) = decide (V ≠ 0) := by
  have hP : (2 : Int) ^ 40 ≤ 2 ^ k := pow_le_pow_right₀ (by norm_num) hk
  have hk0 : (0 : Int) ≤ 2 ^ k := by positivity
  unfold outside40
  simp only [decide_eq_decide]
  rcases lt_trichotomy V 0 with h | rfl | h
  · have := Int.mul_le_mul_of_nonneg_right (show V ≤ -1 by omega) hk0
    omega
  · simp
  · have := Int.mul_le_mul_of_nonneg_right (show 1 ≤ V by omega) hk0
    omega

/-- Dropping the low `n` bits commutes with keeping `n + b` of them. -/
theorem ediv_two_pow_emod (V : Int) (n b : Nat) :
    V % 2 ^ (n + b) / 2 ^ n % 2 ^ b = V / 2 ^ n % 2 ^ b := by
  have hP : (2 : Int) ^ n ≠ 0 := by positivity
  rw [Int.emod_def V, pow_add, sub_eq_add_neg,
    show -(2 ^ n * 2 ^ b * (V / (2 ^ n * 2 ^ b))) = 2 ^ b * -(V / (2 ^ n * 2 ^ b)) * 2 ^ n by ring,
    Int.add_mul_ediv_right _ _ hP, Int.add_mul_emod_self_left]

/-- A right shift of a 40-bit value by 40 or more leaves the sign. -/
theorem ediv_two_pow_of_le {V : Int} {n : Nat} (hn : 40 ≤ n) (h1 : -2 ^ 39 ≤ V)
    (h2 : V < 2 ^ 39) :
    V / 2 ^ n = if V < 0 then -1 else 0 := by
  have hP : (2 : Int) ^ 40 ≤ 2 ^ n := pow_le_pow_right₀ (by norm_num) hn
  split
  · exact ((@Int.ediv_emod_unique V (2 ^ n) (V + 2 ^ n) (-1) (by positivity)).2
      ⟨by ring, by omega, by omega⟩).1
  · exact Int.ediv_eq_zero_of_lt (by omega) (by omega)

theorem shiftExact_neg_iff (V : Int) (sv : BitVec 16) : shiftExact V sv < 0 ↔ V < 0 := by
  unfold shiftExact
  split
  · have hP : (0 : Int) < 2 ^ sv.toNat := by positivity
    exact ⟨fun h => by nlinarith, fun h => mul_neg_of_neg_of_pos h hP⟩
  · rw [Int.ediv_lt_iff_lt_mul (by positivity), zero_mul]

/-! ## The arithmetic shift, route by route -/

/-- `(sv >> 15) == 0` is the test for a non-negative amount. -/
theorem ushiftRight_15_eq_zero (sv : BitVec 16) : (sv >>> 15 == 0) = decide (0 ≤ sv.toInt) := by
  have := sv.isLt
  rw [Bool.eq_iff_iff, beq_iff_eq, decide_eq_true_iff, BitVec.toNat_eq, BitVec.toNat_ushiftRight,
    Nat.shiftRight_eq_div_pow, BitVec.toInt_eq_toNat_cond]
  split <;> simp <;> omega

theorem le_amount_iff (sv : BitVec 16) : (40 : BitVec 16) ≤ sv ↔ 40 ≤ sv.toNat :=
  BitVec.le_def

/-- `nsv = ~sv + 1` is the magnitude of a negative amount. -/
theorem toNat_neg_amount {sv : BitVec 16} (hs : sv.toInt < 0) :
    (~~~sv + 1).toNat = (-sv.toInt).toNat := by
  have := sv.isLt
  rw [BitVec.toNat_add, BitVec.toNat_not, show (1 : BitVec 16).toNat = 1 from rfl]
  rw [BitVec.toInt_eq_toNat_cond] at hs ⊢
  split at hs <;> omega

theorem toInt_shiftLeft_emod (v : BitVec 64) (k : Nat) :
    (((v &&& 0xFFFFFFFFFF) <<< k).toNat : Int) % 2 ^ 40 = v.toInt * 2 ^ k % 2 ^ 40 := by
  rw [BitVec.toNat_shiftLeft, Nat.shiftLeft_eq, Int.natCast_mod, Int.natCast_mul, Int.natCast_pow,
    Int.natCast_pow, Nat.cast_ofNat, Int.emod_emod_of_dvd _ (pow_dvd_pow 2 (by decide)),
    cast_toNat_and_mask40, Int.mul_emod, Int.emod_emod, ← Int.mul_emod]

/-- The left shift (lines 2207–2226). -/
theorem shift40_left {v : BitVec 64} (hv : Canon v) {sv : BitVec 16} (hs : 0 ≤ sv.toInt) :
    let out := shift40 false (v &&& 0xFFFFFFFFFF) sv
    out.fv = some (outside40 (v.toInt * 2 ^ sv.toNat)) ∧
      out.fc = (decide (sv.toNat < 40) && (v.setWidth 40).getLsbD (40 - sv.toNat)) ∧
      SignExtend 40 out.value = SignExtend 40 (BitVec.ofInt 64 (v.toInt * 2 ^ sv.toNat)) := by
  have h0 := ushiftRight_15_eq_zero sv
  rw [decide_eq_true hs] at h0
  simp only [shift40, h0, if_true, Bool.not_false, le_amount_iff]
  by_cases hk : 40 ≤ sv.toNat
  · -- everything is shifted out; `fv` reports a nonzero value
    simp only [if_pos hk]
    refine ⟨?_, by simp [hk], ?_⟩
    · have := cast_toNat_and_mask40 v
      have := hv.toInt_bounds
      rw [outside40_mul_two_pow_of_le _ hk, Option.some_inj, Bool.eq_iff_iff, bne_iff_ne, ne_eq,
        BitVec.toNat_eq, decide_eq_true_iff, show (0 : BitVec 64).toNat = 0 from rfl]
      omega
    · apply SignExtend_congr
      rw [toNat_ofInt_emod _ (by decide), Int.emod_eq_zero_of_dvd
        (Dvd.dvd.mul_left (pow_dvd_pow 2 hk) _)]
      rfl
  · simp only [if_neg hk]
    refine ⟨?_, ?_, SignExtend_congr ?_⟩
    · -- `SignExtend<40>(value) != SignExtend(value, 40 - sv)` is the overflow of `v * 2^sv`
      rw [SignExtend_and_mask40 v le_rfl, SignExtend_and_mask40 v (by omega), hv,
        show 40 - sv.toNat = 39 - sv.toNat + 1 by omega, outside40_mul_two_pow _ (by omega)]
      congr 1
      rw [Bool.eq_iff_iff, bne_iff_ne, Bool.not_eq_true', decide_eq_false_iff_not,
        ← SignExtend_eq_self_iff (by omega), ne_comm]
    · rw [and_twoPow_ne_zero _ (by decide), BitVec.getLsbD_shiftLeft, getLsbD_and_mask40]
      simp [show sv.toNat < 40 by omega, show ¬ 40 < sv.toNat by omega]
    · rw [toNat_ofInt_emod _ (by decide), toInt_shiftLeft_emod]

/-- The right shift (lines 2227–2248), by `n = -sv`. -/
theorem shift40_right {v : BitVec 64} (hv : Canon v) {sv : BitVec 16} (hs : sv.toInt < 0) :
    let out := shift40 false (v &&& 0xFFFFFFFFFF) sv
    let n := (-sv.toInt).toNat
    out.fv = some (outside40 (v.toInt / 2 ^ n)) ∧
      out.fc = (if n < 40 then (v.setWidth 40).getLsbD (n - 1) else (v.setWidth 40).getLsbD 39) ∧
      SignExtend 40 out.value = SignExtend 40 (BitVec.ofInt 64 (v.toInt / 2 ^ n)) := by
  have h0 := ushiftRight_15_eq_zero sv
  rw [decide_eq_false (by omega : ¬ 0 ≤ sv.toInt)] at h0
  have hV := hv.toInt_bounds
  simp only [shift40, h0, Bool.false_eq_true, if_false, Bool.not_false, if_true, le_amount_iff,
    toNat_neg_amount hs]
  by_cases hk : 40 ≤ (-sv.toInt).toNat
  · -- the sign fills the word
    have hq := ediv_two_pow_of_le hk hV.1 hV.2
    have h39 : (v.setWidth 40).getLsbD 39 = decide (v.toInt < 0) := by
      rw [BitVec.getLsbD_setWidth, hv.getLsbD_39]; rfl
    simp only [if_pos hk, if_neg (show ¬ (-sv.toInt).toNat < 40 by omega),
      shiftRight_and_one_ne_zero_eq_getLsbD, getLsbD_and_mask40, h39, hq]
    by_cases h : v.toInt < 0 <;> simp only [h, decide_True, decide_False, if_true, if_false] <;>
      exact ⟨by decide, trivial, by decide⟩
  · have hb := (ediv_two_pow_mem_iff v.toInt (39 - (-sv.toInt).toNat) (-sv.toInt).toNat).2
      (by rw [Nat.sub_add_cancel (show (-sv.toInt).toNat ≤ 39 by omega)]; exact hV)
    have hm : (2 : Int) ^ (39 - (-sv.toInt).toNat) ≤ 2 ^ 39 :=
      pow_le_pow_right₀ (by norm_num) (by omega)
    simp only [if_neg hk, if_pos (show (-sv.toInt).toNat < 40 by omega)]
    refine ⟨by rw [Option.some_inj, outside40, eq_comm, decide_eq_false_iff_not]; omega,
      by rw [and_twoPow_ne_zero _ (by omega), getLsbD_and_mask40], ?_⟩
    -- `SignExtend(value >> n, 40 - n)` is `floor(v / 2^n)`
    congr 1
    have e := ediv_two_pow_emod v.toInt (-sv.toInt).toNat (39 - (-sv.toInt).toNat + 1)
    rw [show (-sv.toInt).toNat + (39 - (-sv.toInt).toNat + 1) = 40 by omega] at e
    rw [show 40 - (-sv.toInt).toNat = 39 - (-sv.toInt).toNat + 1 by omega]
    refine SignExtend_eq_ofInt_of_emod hb.1 hb.2 ?_
    rw [BitVec.toNat_ushiftRight, Nat.shiftRight_eq_div_pow, Int.ofNat_ediv,
      cast_toNat_and_mask40, Int.natCast_pow, Nat.cast_ofNat, e]

/-- The arithmetic shift of a canonical value is the exact shift: its `fv` is the 40-bit
    overflow, its `fc[0]` the last bit shifted out, and its value the 40-bit residue. -/
theorem shift40_arith {v : BitVec 64} (hv : Canon v) (sv : BitVec 16) :
    let out := shift40 false (v &&& 0xFFFFFFFFFF) sv
    out.fv = some (outside40 (shiftExact v.toInt sv)) ∧ out.fc = lastShiftedOut v sv ∧
      SignExtend 40 out.value = SignExtend 40 (BitVec.ofInt 64 (shiftExact v.toInt sv)) := by
  unfold shiftExact lastShiftedOut
  by_cases hs : 0 ≤ sv.toInt
  · simp only [if_pos hs]
    exact shift40_left hv hs
  · simp only [if_neg hs]
    exact shift40_right hv (by omega)

/-! ## Saturation -/

theorem SignExtend_40_ofInt {e : Int} (h : outside40 e = false) :
    SignExtend 40 (BitVec.ofInt 64 e) = BitVec.ofInt 64 e := by
  unfold outside40 at h
  simp only [decide_eq_false_iff_not] at h
  rw [SignExtend_eq_self_iff (by decide), toInt_ofInt_of_bounds (by omega) (by omega)]
  omega

/-- The saturation test of `ShiftBus40` on the stored word: the 40-bit overflow, or a word that
    does not fit in 32 bits. Together they say that the exact shift leaves the 32-bit range. -/
theorem saturation_test (e : Int) :
    (outside40 e || SignExtend 32 (SignExtend 40 (BitVec.ofInt 64 e)) !=
      SignExtend 40 (BitVec.ofInt 64 e)) = outside32 e := by
  cases h40 : outside40 e
  · rw [SignExtend_40_ofInt h40, Bool.false_or]
    unfold outside40 at h40
    simp only [decide_eq_false_iff_not] at h40
    rw [Bool.eq_iff_iff, bne_iff_ne, ne_eq, SignExtend_eq_self_iff (by decide),
      toInt_ofInt_of_bounds (by omega) (by omega), outside32, decide_eq_true_iff]
    omega
  · unfold outside40 at h40
    simp only [decide_eq_true_iff] at h40
    rw [Bool.true_or, eq_comm, outside32, decide_eq_true_iff]
    omega

/-- `original_sign == 1`: the value before the shift is negative. -/
theorem originalSign_eq {v : BitVec 64} (hv : Canon v) :
    ((v &&& 0xFFFFFFFFFF) >>> 39 == 1) = decide (v.toInt < 0) := by
  have h := canon_iff_toNat.1 hv
  have := v.isLt
  rw [Bool.eq_iff_iff, beq_iff_eq, decide_eq_true_iff, BitVec.toNat_eq, BitVec.toNat_ushiftRight,
    toNat_and_mask40, Nat.shiftRight_eq_div_pow, BitVec.toInt_eq_toNat_cond]
  simp only [show (1 : BitVec 64).toNat = 1 from rfl]
  split <;> omega

/-- An exact result in the 32-bit range is stored as it is. -/
theorem ofInt_clamp32 {e : Int} (h : outside32 e = false) :
    BitVec.ofInt 64 (clamp32 e) = SignExtend 40 (BitVec.ofInt 64 e) := by
  unfold outside32 at h
  simp only [decide_eq_false_iff_not] at h
  rw [SignExtend_40_ofInt (by unfold outside40; simp only [decide_eq_false_iff_not]; omega),
    clamp32, show max (-2 ^ 31) (min e (2 ^ 31 - 1)) = e by omega]

/-- Out of the 32-bit range, the bound the code picks by the sign of the value before the
    shift is the clamp of the exact result, which has that sign. -/
theorem clamp32_eq {e : Int} {V : Int} (h : outside32 e = true) (hs : e < 0 ↔ V < 0) :
    BitVec.ofInt 64 (clamp32 e) = if decide (V < 0) then 0xFFFFFFFF80000000 else 0x7FFFFFFF := by
  unfold outside32 at h
  simp only [decide_eq_true_iff] at h
  unfold clamp32
  by_cases hV : V < 0
  · rw [show max (-2 ^ 31) (min e (2 ^ 31 - 1)) = -2 ^ 31 by omega]; simp only [hV]; decide
  · rw [show max (-2 ^ 31) (min e (2 ^ 31 - 1)) = 2 ^ 31 - 1 by omega]; simp only [hV]; decide

/-! ## The logical shift -/

theorem shift40_logical (v : BitVec 64) (sv : BitVec 16) :
    let out := shift40 true (v &&& 0xFFFFFFFFFF) sv
    out.fv = none ∧
      SignExtend 40 out.value = SignExtend 40 ((shiftLogical40 v sv).setWidth 64) := by
  have h0 := ushiftRight_15_eq_zero sv
  refine ⟨by
    simp only [shift40, Bool.not_true, Bool.false_eq_true, if_false]; split <;> split <;> rfl, ?_⟩
  unfold SignExtend shift40 shiftLogical40
  congr 1
  apply BitVec.eq_of_getLsbD_eq
  rintro ⟨j, hj⟩
  by_cases hs : 0 ≤ sv.toInt
  · rw [decide_eq_true hs] at h0
    simp only [h0, if_true, if_pos hs, le_amount_iff]
    split
    · simp [BitVec.getLsbD_setWidth, BitVec.getLsbD_shiftLeft, hj, show j < sv.toNat by omega]
    · simp only [BitVec.getLsbD_setWidth, BitVec.getLsbD_shiftLeft, getLsbD_and_mask40]
      simp [hj, show j < 64 by omega, show j - sv.toNat < 40 by omega]
  · rw [decide_eq_false hs] at h0
    simp only [h0, Bool.false_eq_true, if_false, if_neg hs, le_amount_iff,
      toNat_neg_amount (lt_of_not_le hs), Bool.not_true]
    split
    · simp [BitVec.getLsbD_setWidth, BitVec.getLsbD_ushiftRight, hj,
        show 40 ≤ (-sv.toInt).toNat + j by omega]
    · simp only [BitVec.getLsbD_setWidth, BitVec.getLsbD_ushiftRight, getLsbD_and_mask40]
      simp [hj, show j < 64 by omega]

/-! ## `ShiftBus40` -/

theorem some_beq_some_true (b : Bool) : (some b == some true) = b := by cases b <;> rfl

section Wp

variable {E : String → Prop} {s : Core} {dest : RegName} {i : Acc}

/-- `ShiftBus40` in arithmetic mode on a canonical value: the flags of the exact shift, and
    the exact shift stored, clamped to 32 bits when it leaves that range and `sar[1]` is
    clear. -/
theorem wp_shiftBus40_arith {Q : Unit → Core → Prop} (h : accSlot dest = some i) {v : BitVec 64}
    (hv : Canon v) (sv : BitVec 16) (hs : s.regs.s = false) :
    let e := shiftExact v.toInt sv
    let sat := !s.regs.sar 1 && outside32 e
    wp (shiftBus40 v sv dest) Q E s =
      Q () { s with regs := { accFlags (SignExtend 40 (BitVec.ofInt 64 e)) s.regs with
        fc := Function.update s.regs.fc 0 (lastShiftedOut v sv),
        fv := outside40 e, flv := s.regs.flv || outside40 e,
        fls := s.regs.fls || sat,
        acc := Function.update s.regs.acc i
          (if sat then BitVec.ofInt 64 (clamp32 e) else SignExtend 40 (BitVec.ofInt 64 e)) } } := by
  obtain ⟨hfv, hfc, hval⟩ := shift40_arith hv sv
  rw [← hs] at hfv hfc hval
  have hs' : (!s.regs.s) = true := by rw [hs]; rfl
  unfold shiftBus40
  simp only [wp_bind, wp_regs, wp_setRegs, hs', hfv, hfc,
    wp_setAccFlag (canon_SignExtend _ (by decide) le_rfl), hval, accFlags_s, accFlags_sar,
    accFlags_fv, Option.getD_some, some_beq_some_true, saturation_test, originalSign_eq hv,
    wp_ite, wp_setAccSimple h, Bool.not_false, Bool.true_and]
  cases hsat : (!s.regs.sar 1 && outside32 (shiftExact v.toInt sv))
  · simp only [if_false, Bool.false_eq_true, Bool.or_false]
    rfl
  · have h32 : outside32 (shiftExact v.toInt sv) = true := by
      simp only [Bool.and_eq_true] at hsat; exact hsat.2
    simp only [if_true, Bool.or_true, wp_bind, wp_setRegs, wp_setAccSimple h,
      ← clamp32_eq h32 (shiftExact_neg_iff v.toInt sv)]
    rfl

/-- `ShiftBus40` in logical mode: the logical shift of the 40-bit pattern, stored as it is;
    `fv`, `flv` and `fls` are left alone. -/
theorem wp_shiftBus40_logical {Q : Unit → Core → Prop} (h : accSlot dest = some i)
    (v : BitVec 64) (sv : BitVec 16) (hs : s.regs.s = true) :
    let value := SignExtend 40 ((shiftLogical40 v sv).setWidth 64)
    wp (shiftBus40 v sv dest) Q E s =
      Q () { s with regs := { accFlags value s.regs with
        fc := Function.update s.regs.fc 0 (shift40 true (v &&& 0xFFFFFFFFFF) sv).fc,
        acc := Function.update s.regs.acc i value } } := by
  obtain ⟨hfv, hval⟩ := shift40_logical v sv
  rw [← hs] at hfv hval
  have hs' : (!s.regs.s) = false := by rw [hs]; rfl
  have hfc : (shift40 s.regs.s (v &&& 0xFFFFFFFFFF) sv).fc =
      (shift40 true (v &&& 0xFFFFFFFFFF) sv).fc := by rw [hs]
  unfold shiftBus40
  simp only [wp_bind, wp_regs, wp_setRegs, hs', hfv, hfc,
    wp_setAccFlag (canon_SignExtend _ (by decide) le_rfl), hval, accFlags_s, Bool.false_and,
    Option.getD_none, wp_ite, wp_setAccSimple h, Bool.false_eq_true, if_false,
    show (none == some true) = false from rfl, Bool.or_false]
  rfl

end Wp

theorem shiftBus40_exact {v : BitVec 64} (hv : Canon v) (sv : BitVec 16) (dest : RegName)
    {i : Acc} (hd : accSlot dest = some i) (s : Core) :
    let e := shiftExact v.toInt sv
    wp (shiftBus40 v sv dest) (fun _ t =>
        if s.regs.s then
          t.regs.acc i = SignExtend 40 ((shiftLogical40 v sv).setWidth 64) ∧
            t.regs.fv = s.regs.fv ∧ t.regs.fls = s.regs.fls
        else
          t.regs.fv = outside40 e ∧ t.regs.fc 0 = lastShiftedOut v sv ∧
            t.regs.acc i = (if s.regs.sar 1 then SignExtend 40 (BitVec.ofInt 64 e)
              else BitVec.ofInt 64 (clamp32 e)) ∧
            t.regs.fls = (s.regs.fls || (!s.regs.sar 1 && outside32 e)))
      (fun _ => False) s := by
  cases hs : s.regs.s
  · rw [wp_shiftBus40_arith hd hv sv hs]
    refine ⟨rfl, by simp only [Function.update_same], ?_, rfl⟩
    simp only [Function.update_same]
    cases hsar : s.regs.sar 1
    · cases h32 : outside32 (shiftExact v.toInt sv)
      · exact (ofInt_clamp32 h32).symm
      · rfl
    · rfl
  · rw [wp_shiftBus40_logical hd v sv hs]
    simp only [if_true, Function.update_same, accFlags_fv, accFlags_fls, and_self]

/-- `2^38` shifted left by 2 overflows 40 bits: `fv` is set, the last bit out is bit 38, and
    the store saturates to `0x7FFF_FFFF`. -/
theorem shiftBus40_exact_saturates :
    Canon 0x4000000000 ∧ accSlot .a0 = some (.a 0) ∧
    wp (shiftBus40 0x4000000000 2 .a0)
      (fun _ t => t.regs.fv = true ∧ t.regs.fc 0 = true ∧ t.regs.acc (.a 0) = 0x7FFFFFFF ∧
        t.regs.fls = true) (fun _ => False) default :=
  ⟨by decide, rfl, wp_mono (shiftBus40_exact (by decide) 2 .a0 rfl default)
    (fun _ _ h => by obtain ⟨h1, h2, h3, h4⟩ := h; rw [h1, h2, h3, h4]; decide)
    (fun _ h => h)⟩

/-! ## The exponent -/

/-- Modelled from the spec: the number of consecutive bits of `v` from bit 38 downward that
    equal the sign bit 39 ("count leading redundant sign bits ... in positions 38..0"). -/
def signRun (v : BitVec 64) : Nat :=
  ((List.range 39).takeWhile fun j => v.getLsbD (38 - j) == v.getLsbD 39).length

/-- The loop of `Exp` from bit `b` down is the `takeWhile` of the bits that repeat `sign`. -/
theorem expCount_eq_length_takeWhile (v : BitVec 64) (sign : Bool) (b : Nat) :
    expCount v sign b =
      ((List.range (b + 1)).takeWhile fun j => v.getLsbD (b - j) == sign).length := by
  induction b with
  | zero =>
    rw [List.range_succ_eq_map, List.takeWhile_cons, expCount, Nat.sub_zero]
    split <;> rfl
  | succ b ih =>
    rw [List.range_succ_eq_map, List.takeWhile_cons, expCount, ih, Nat.sub_zero]
    split
    · rw [List.length_cons, List.takeWhile_map, List.length_map]
      congr 3
      funext j
      simp only [Function.comp, Nat.succ_sub_succ]
    · rfl

/-- What the count of `Exp` says about the bits: the counted bits repeat `sign`, and the next
    one, if any, does not. -/
theorem expCount_spec (v : BitVec 64) (sign : Bool) (b : Nat) :
    expCount v sign b ≤ b + 1 ∧ (∀ j < expCount v sign b, v.getLsbD (b - j) = sign) ∧
      (expCount v sign b ≤ b → v.getLsbD (b - expCount v sign b) ≠ sign) := by
  induction b with
  | zero =>
    unfold expCount
    split
    · next h =>
      exact ⟨le_rfl, fun j hj => by rw [show j = 0 by omega]; exact beq_iff_eq.1 h, by omega⟩
    · next h => exact ⟨by omega, by omega, fun _ => by simpa using h⟩
  | succ b ih =>
    obtain ⟨h1, h2, h3⟩ := ih
    unfold expCount
    split
    · next h =>
      refine ⟨by omega, fun j hj => ?_, fun hc => ?_⟩
      · rcases j with _ | j
        · exact beq_iff_eq.1 h
        · rw [Nat.add_sub_add_right]; exact h2 j (by omega)
      · rw [Nat.add_sub_add_right]; exact h3 (by omega)
    · next h => exact ⟨by omega, by omega, fun _ => by simpa using h⟩

theorem signRun_eq_expCount (v : BitVec 64) : signRun v = expCount v (v.getLsbD 39) 38 :=
  (expCount_eq_length_takeWhile v _ 38).symm

/-- A canonical value with a run of `c` sign bits lies in `[-2^(39-c), 2^(39-c))`, and for
    `c < 39` not in `[-2^(38-c), 2^(38-c))`. -/
theorem signRun_bounds {v : BitVec 64} (hv : Canon v) :
    signRun v ≤ 39 ∧ -2 ^ (39 - signRun v) ≤ v.toInt ∧ v.toInt < 2 ^ (39 - signRun v) ∧
      (signRun v < 39 →
        ¬(-2 ^ (38 - signRun v) ≤ v.toInt ∧ v.toInt < 2 ^ (38 - signRun v))) := by
  obtain ⟨h1, h2, h3⟩ := expCount_spec v (v.getLsbD 39) 38
  rw [← signRun_eq_expCount] at h1 h2 h3
  have hsign : ∀ i, 39 - signRun v ≤ i → i < 64 → v.getLsbD i = v.getLsbD 39 := by
    intro i hi hi'
    by_cases h40 : 40 ≤ i
    · exact canon_iff_getLsbD.1 hv i h40 hi'
    · by_cases h39 : i = 39
      · rw [h39]
      · have := h2 (38 - i) (by omega)
        rwa [show 38 - (38 - i) = i by omega] at this
  have hSE : SignExtend (39 - signRun v + 1) v = v := by
    apply BitVec.eq_of_getLsbD_eq
    rintro ⟨i, hi⟩
    rw [getLsbD_SignExtend v (by omega)]
    simp only [hi, decide_True, Bool.true_and]
    split
    · rfl
    · rw [hsign i (by omega) hi, hsign _ (by omega) (by omega)]
  rw [SignExtend_eq_self_iff (by omega)] at hSE
  refine ⟨by omega, hSE.1, hSE.2, fun hc => ?_⟩
  -- one bit fewer would copy bit `38 - c`, which differs from the sign, into bit 39
  rw [← SignExtend_eq_self_iff (by omega)]
  intro hSE'
  have := congrArg (·.getLsbD 39) hSE'
  simp only [getLsbD_SignExtend v (show 0 < 38 - signRun v + 1 by omega), decide_True,
    Bool.true_and, if_neg (show ¬ 39 < 38 - signRun v + 1 by omega), Nat.add_sub_cancel] at this
  exact h3 (by omega) this

theorem exp_eq (v : BitVec 64) : exp v = BitVec.ofNat 16 (signRun v) - 8 := by
  unfold exp
  rw [shiftRight_and_one_ne_zero_eq_getLsbD, signRun_eq_expCount]

/-- The amount `Exp` gives, read as a shift: left by `c - 8` for a run of at least 8, else right
    by `8 - c`. -/
theorem shiftExact_exp_amount (V : Int) {c : Nat} (hc : c ≤ 39) :
    shiftExact V (BitVec.ofNat 16 c - 8) =
      if 8 ≤ c then V * 2 ^ (c - 8) else V / 2 ^ (8 - c) := by
  have ht : (BitVec.ofNat 16 c - 8).toNat = (2 ^ 16 - 8 + c % 2 ^ 16) % 2 ^ 16 := by
    rw [BitVec.toNat_sub, BitVec.toNat_ofNat]; rfl
  unfold shiftExact
  rw [BitVec.toInt_eq_toNat_cond, ht]
  split
  · rw [if_pos (by omega), if_pos (by omega),
      show (2 ^ 16 - 8 + c % 2 ^ 16) % 2 ^ 16 = c - 8 by omega]
  · rw [if_neg (by omega), if_neg (by omega)]
    congr 2
    omega

/-- The result of shifting by `Exp`: in the signed 32-bit range, and outside `[-2^30, 2^30)`
    unless the value is zero. -/
theorem shiftExact_exp_bounds {v : BitVec 64} (hv : Canon v) :
    let e := shiftExact v.toInt (exp v)
    (-2 ^ 31 ≤ e ∧ e < 2 ^ 31) ∧ (v ≠ 0 → ¬(-2 ^ 30 ≤ e ∧ e < 2 ^ 30)) ∧
      (v = 0 → e = 0) := by
  obtain ⟨hc, h1, h2, h3⟩ := signRun_bounds hv
  rw [exp_eq, shiftExact_exp_amount _ hc]
  have hV0 : v ≠ 0 → v.toInt ≠ 0 := fun h h0 => h (BitVec.eq_of_toInt_eq (by rw [h0]; rfl))
  refine ⟨?_, fun hv0 => ?_, fun hv0 => by subst hv0; split <;> simp⟩
  · split
    · have h := (mul_two_pow_mem_iff v.toInt (39 - signRun v) (signRun v - 8)).2 ⟨h1, h2⟩
      rwa [show 39 - signRun v + (signRun v - 8) = 31 by omega] at h
    · have h := (ediv_two_pow_mem_iff v.toInt 31 (8 - signRun v)).2
      rw [show 31 + (8 - signRun v) = 39 - signRun v by omega] at h
      exact h ⟨h1, h2⟩
  · split
    · by_cases h39 : signRun v = 39
      · -- the whole word repeats the sign: `v = -1`, shifted by 31
        have : v.toInt = -1 := by
          rw [h39] at h1 h2; have := hV0 hv0; norm_num at h1 h2; omega
        rw [this, h39]
        norm_num
      · rw [← mul_two_pow_mem_iff v.toInt (38 - signRun v) (signRun v - 8) |>.not,
          show 38 - signRun v + (signRun v - 8) = 30 by omega] at h3
        exact h3 (by omega)
    · rw [ediv_two_pow_mem_iff, show 30 + (8 - signRun v) = 38 - signRun v by omega]
      exact h3 (by omega)

/-! ## Words of the signed 32-bit range -/

section Range32

variable {e : Int} (h1 : -2 ^ 31 ≤ e) (h2 : e < 2 ^ 31)
include h1 h2

theorem toNat_ofInt_of_range32 :
    ((BitVec.ofInt 64 e).toNat : Int) = if e < 0 then e + 2 ^ 64 else e := by
  rw [BitVec.toNat_ofInt, Int.toNat_of_nonneg (Int.emod_nonneg _ (by positivity))]
  push_cast
  split <;> omega

theorem fits_ofInt_of_range32 : Fits 31 (BitVec.ofInt 64 e) := by
  have := toNat_ofInt_of_range32 h1 h2
  unfold Fits
  split at this <;> omega

/-- Bits 31 and 30 of a word of the 32-bit range differ exactly outside `[-2^30, 2^30)`. -/
theorem getLsbD_31_xor_30 :
    ((BitVec.ofInt 64 e).getLsbD 31 ^^ (BitVec.ofInt 64 e).getLsbD 30) =
      decide (e < -2 ^ 30 ∨ 2 ^ 30 ≤ e) := by
  have := toNat_ofInt_of_range32 h1 h2
  simp only [BitVec.getLsbD, Nat.testBit_to_div_mod]
  rw [Bool.eq_iff_iff, decide_eq_true_iff]
  change (_ != _) = true ↔ _
  rw [bne_iff_ne, ne_eq, decide_eq_decide]
  split at this <;> omega

theorem SignExtend_32_ofInt : SignExtend 32 (BitVec.ofInt 64 e) = BitVec.ofInt 64 e := by
  rw [SignExtend_eq_self_iff (by decide), toInt_ofInt_of_bounds (by omega) (by omega)]
  omega

theorem ofInt_beq_zero : (BitVec.ofInt 64 e == 0) = decide (e = 0) := by
  rw [Bool.eq_iff_iff, beq_iff_eq, decide_eq_true_iff, ← BitVec.toInt_inj,
    toInt_ofInt_of_bounds (by omega) (by omega)]
  rfl

end Range32

/-- Shifting by `Exp(v)` in arithmetic mode neither overflows nor saturates; it leaves the
    exact shift, with `N` set. -/
theorem wp_shiftBus40_exp {v : BitVec 64} (hv : Canon v) (dest : RegName) {i : Acc}
    (hd : accSlot dest = some i) (s : Core) (hs : s.regs.s = false) :
    wp (shiftBus40 v (exp v) dest) (fun _ t =>
        t.regs.fv = false ∧ t.regs.fls = s.regs.fls ∧
          t.regs.acc i = BitVec.ofInt 64 (shiftExact v.toInt (exp v)) ∧
          t.regs.fe = false ∧ t.regs.fn = true ∧ (v = 0 → t.regs.acc i = 0) ∧
          (v ≠ 0 → Fits 31 (t.regs.acc i) ∧
            (t.regs.acc i).getLsbD 31 ≠ (t.regs.acc i).getLsbD 30))
      (fun _ => False) s := by
  obtain ⟨⟨h1, h2⟩, hnz, hz⟩ := shiftExact_exp_bounds hv
  have h32 : outside32 (shiftExact v.toInt (exp v)) = false := by
    unfold outside32; simp only [decide_eq_false_iff_not]; omega
  have h40 : outside40 (shiftExact v.toInt (exp v)) = false := by
    unfold outside40; simp only [decide_eq_false_iff_not]; omega
  have hx := getLsbD_31_xor_30 h1 h2
  rw [wp_shiftBus40_arith hd hv _ hs]
  simp only [h32, h40, Bool.and_false, Bool.or_false, Bool.false_eq_true, if_false,
    SignExtend_40_ofInt h40, Function.update_same, accFlags_fe, accFlags_fn,
    SignExtend_32_ofInt h1 h2, bne_self_eq_false, Bool.not_false, Bool.true_and,
    ofInt_beq_zero h1 h2, hx, true_and]
  refine ⟨?_, fun h0 => by rw [hz h0]; rfl,
    fun h0 => ⟨fits_ofInt_of_range32 h1 h2, fun h => ?_⟩⟩
  · -- `N = Z || (!E && bit31 != bit30)`
    by_cases h0 : v = 0
    · simp [hz h0]
    · have := hnz h0
      simp only [Bool.or_eq_true, decide_eq_true_iff]
      omega
  · rw [h, Bool.xor_self, eq_comm, decide_eq_false_iff_not] at hx
    exact hnz h0 (by omega)

theorem shiftBus40_exp {v : BitVec 64} (hv : Canon v) (dest : RegName) {i : Acc}
    (hd : accSlot dest = some i) (s : Core) (hs : s.regs.s = false) :
    exp v = BitVec.ofNat 16 (signRun v) - 8 ∧
      wp (shiftBus40 v (exp v) dest) (fun _ t =>
          t.regs.fv = false ∧ t.regs.fls = s.regs.fls ∧
            t.regs.acc i = BitVec.ofInt 64 (shiftExact v.toInt (exp v)) ∧
            t.regs.fe = false ∧ t.regs.fn = true ∧ (v = 0 → t.regs.acc i = 0) ∧
            (v ≠ 0 → Fits 31 (t.regs.acc i) ∧
              (t.regs.acc i).getLsbD 31 ≠ (t.regs.acc i).getLsbD 30))
        (fun _ => False) s :=
  ⟨exp_eq v, wp_shiftBus40_exp hv dest hd s hs⟩

/-- `Exp(1)` is 30 (a run of 38 zeros), and shifting 1 by it gives `2^30`, with `N = 1`. -/
theorem shiftBus40_exp_one :
    Canon 1 ∧ accSlot .a0 = some (.a 0) ∧ (default : Core).regs.s = false ∧
      wp (shiftBus40 1 (exp 1) .a0)
        (fun _ t => t.regs.acc (.a 0) = 0x40000000 ∧ t.regs.fn = true) (fun _ => False) default :=
  ⟨by decide, rfl, rfl, wp_mono (shiftBus40_exp (by decide) .a0 rfl default rfl).2
    (fun _ _ h => ⟨by rw [h.2.2.1]; decide, h.2.2.2.2.1⟩) (fun _ h => h)⟩

end Teakra
