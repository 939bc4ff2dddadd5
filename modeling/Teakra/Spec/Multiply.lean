import Teakra.Common.Signed
import Teakra.Interpreter.Arith
import Teakra.Spec.Bus

/-!
# The multiplier and the product bus

`DoMultiplication` (`interpreter.h`, lines 230–248) multiplies `x[unit]` by `y[unit]` (narrowed
as `ym` says) as 32-bit words, each sign-extended from 16 bits when it is signed, and keeps
bit 31 of the wrapped product as the 33rd bit `psign[unit]` whenever an operand is signed.
`ProductToBus40` (lines 3449–3478) reads that 33-bit word back, shifted as `ps[unit]` says.

Taking bit 31 as the sign is only right if every product with a signed operand fits in 32
signed bits; a mixed product is at most `2^15 · (2^16 - 1) < 2^31` in size, so it does.

Results:
* `operandValue_mul_bounds`: the exact product fits in 32 signed bits when an operand is
  signed, and in 32 unsigned bits otherwise.
* `mulWord_eq`: the word `DoMultiplication` leaves holds the exact product modulo `2^33`.
* `productBus40_of_word`: `ProductToBus40` reads such a word as the integer, shifted.
* `productToBus40_doMultiplication`: together, `⌊X · Y · 2^k⌋` for every pair of operands.
-/

namespace Teakra

/-- Modelled from the spec: the `y` operand the multiplier reads, narrowed as `ym` says
    (`y >> 8` for `ym = 1`, or `ym = 3` on unit 0; `y & 0xFF` for `ym = 2`, or `ym = 3` on
    unit 1). -/
def selectY (ym : BitVec 16) (unit : Fin 2) (y : BitVec 16) : BitVec 16 :=
  if ym = 1 ∨ (ym = 3 ∧ unit = 0) then y >>> 8
  else if ym = 2 ∨ (ym = 3 ∧ unit = 1) then y &&& 0xFF else y

/-- Modelled from the spec: a 16-bit operand read as signed when `sign` is set, as unsigned
    otherwise. -/
def operandValue (sign : Bool) (v : BitVec 16) : Int := if sign then v.toInt else v.toNat

/-- Modelled from the spec: `⌊P · 2^k⌋` for the shift `k = 0, -1, 1, 2` that `ps = 0, 1, 2, 3`
    selects (`/` on `Int` rounds down for a positive divisor). -/
def productShift (ps : BitVec 16) (P : Int) : Int :=
  if ps = 0 then P else if ps = 1 then P / 2 else if ps = 2 then 2 * P else 4 * P

/-- The register, `p0` or `p1`, that names a product unit. -/
def productReg : Fin 2 → RegName
  | 0 => .p0
  | 1 => .p1

/-! ## The operands -/

theorem operandValue_bounds (sign : Bool) (v : BitVec 16) :
    -2 ^ 15 ≤ operandValue sign v ∧ operandValue sign v < 2 ^ 16 ∧
      (sign = true → operandValue sign v < 2 ^ 15) ∧ (sign = false → 0 ≤ operandValue sign v) := by
  have := v.isLt
  cases sign
  · simp only [operandValue, Bool.false_eq_true, if_false, false_implies, true_implies, true_and]
    omega
  · simp only [operandValue, if_true, BitVec.toInt_eq_toNat_cond, Bool.true_eq_false,
      false_implies, true_implies, and_true]
    split <;> omega

/-- The 32-bit operand `DoMultiplication` forms (sign-extended from 16 bits when signed) is
    the operand's value modulo `2^32`. -/
theorem toNat_mulOperand (sign : Bool) (v : BitVec 16) :
    ((if sign then SignExtend 16 (v.setWidth 32) else v.setWidth 32).toNat : Int) % 2 ^ 32 =
      operandValue sign v % 2 ^ 32 := by
  have := v.isLt
  cases sign
  · simp only [operandValue, Bool.false_eq_true, if_false, BitVec.toNat_setWidth]
    omega
  · simp only [operandValue, if_true, toNat_SignExtend _ (by decide : 0 < 16) (by decide : 16 ≤ 32),
      BitVec.toNat_setWidth, BitVec.toInt_eq_toNat_cond]
    split <;> split <;> omega

/-- The narrowing of `y` on the 32-bit word is the spec's narrowing of the 16-bit word. -/
theorem narrowY_eq (ym : BitVec 16) (unit : Fin 2) (y : BitVec 16) :
    (if ym == 1 || (ym == 3 && unit == 0) then y.setWidth 32 >>> 8
      else if ym == 2 || (ym == 3 && unit == 1) then y.setWidth 32 &&& 0xFF
      else y.setWidth 32) = (selectY ym unit y).setWidth 32 := by
  unfold selectY
  simp only [Bool.or_eq_true, beq_iff_eq, Bool.and_eq_true]
  have hy : y.toNat < 2 ^ 32 := Nat.lt_trans y.isLt (by decide)
  split
  · apply BitVec.eq_of_toNat_eq
    simp only [BitVec.toNat_ushiftRight, BitVec.toNat_setWidth, Nat.shiftRight_eq_div_pow]
    omega
  · split
    · apply BitVec.eq_of_toNat_eq
      simp only [BitVec.toNat_and, BitVec.toNat_setWidth]
      rw [Nat.mod_eq_of_lt hy, Nat.mod_eq_of_lt (Nat.lt_of_le_of_lt Nat.and_le_left hy)]
      rfl
    · rfl

/-- The four corner products bound a product of two integers in intervals. -/
theorem mul_corner_bounds {X Y a b c d : Int} (ha : a ≤ X) (hb : X ≤ b) (hc : c ≤ Y) (hd : Y ≤ d) :
    a * Y + X * c - a * c ≤ X * Y ∧ b * Y + X * d - b * d ≤ X * Y ∧
    X * Y ≤ a * Y + X * d - a * d ∧ X * Y ≤ b * Y + X * c - b * c := by
  have h1 := Int.mul_nonneg (Int.sub_nonneg_of_le ha) (Int.sub_nonneg_of_le hc)
  have h2 := Int.mul_nonneg (Int.sub_nonneg_of_le hb) (Int.sub_nonneg_of_le hd)
  have h3 := Int.mul_nonneg (Int.sub_nonneg_of_le ha) (Int.sub_nonneg_of_le hd)
  have h4 := Int.mul_nonneg (Int.sub_nonneg_of_le hb) (Int.sub_nonneg_of_le hc)
  simp only [Int.sub_mul, Int.mul_sub] at h1 h2 h3 h4
  omega

/-- A mixed signed and unsigned product fits in 32 signed bits: `2^15 · (2^16 - 1) < 2^31`.
    An unsigned one fits in 32 unsigned bits. -/
theorem operandValue_mul_bounds (xs ys : Bool) (x y : BitVec 16) :
    if (xs || ys) = true then
      -2 ^ 31 ≤ operandValue xs x * operandValue ys y ∧ operandValue xs x * operandValue ys y < 2 ^ 31
    else 0 ≤ operandValue xs x * operandValue ys y ∧ operandValue xs x * operandValue ys y < 2 ^ 32 := by
  obtain ⟨hx1, hx2, hx3, hx4⟩ := operandValue_bounds xs x
  obtain ⟨hy1, hy2, hy3, hy4⟩ := operandValue_bounds ys y
  cases xs <;> cases ys <;> simp only [Bool.or_true, Bool.or_false, if_true, Bool.false_eq_true,
    if_false, true_implies, false_implies, forall_const] at *
  · have := mul_corner_bounds hx4 (Int.le_sub_one_of_lt hx2) hy4 (Int.le_sub_one_of_lt hy2); omega
  · have := mul_corner_bounds hx4 (Int.le_sub_one_of_lt hx2) hy1 (Int.le_sub_one_of_lt hy3); omega
  · have := mul_corner_bounds hx1 (Int.le_sub_one_of_lt hx3) hy4 (Int.le_sub_one_of_lt hy2); omega
  · have := mul_corner_bounds hx1 (Int.le_sub_one_of_lt hx3) hy1 (Int.le_sub_one_of_lt hy3); omega

/-! ## The product word -/

theorem toNat_productWord (p : BitVec 32) (b : Bool) :
    (p.setWidth 64 ||| (if b then 1#64 else 0#64) <<< 32).toNat = p.toNat + if b then 2 ^ 32 else 0 := by
  have := p.isLt
  cases b
  · simp only [Bool.false_eq_true, if_false, BitVec.zero_shiftLeft, BitVec.or_zero,
      BitVec.toNat_setWidth]
    omega
  · have hand : p.setWidth 64 &&& 1#64 <<< 32 = 0 := by
      ext i
      simp only [BitVec.getLsbD_and, BitVec.getLsbD_setWidth, BitVec.getLsbD_shiftLeft,
        BitVec.getLsbD_one, BitVec.getLsbD_zero]
      by_cases hi : (i : Nat) < 32
      · simp [hi]
      · simp [BitVec.getLsbD_ge p i (by omega)]
    rw [if_pos rfl, ← BitVec.add_eq_or_of_and_eq_zero _ _ hand, if_pos rfl, BitVec.toNat_add,
      BitVec.toNat_setWidth, BitVec.toNat_shiftLeft]
    simp only [BitVec.toNat_ofNat, Nat.shiftLeft_eq]
    omega

/-- `ProductToBus40` reads a 33-bit product word holding `P mod 2^33` as the integer `P`,
    shifted as `ps` says. -/
theorem productBus40_of_word (r : RegisterState) (unit : Fin 2) {P : Int} (h1 : -2 ^ 32 ≤ P)
    (h2 : P < 2 ^ 32) (hps : (r.ps unit).toNat < 4)
    (hw : (((r.p unit).toNat + if r.psign unit then 2 ^ 32 else 0 : Nat) : Int) = P % 2 ^ 33) :
    productBus40 r unit = BitVec.ofInt 64 (productShift (r.ps unit) P) := by
  unfold productBus40 productShift
  rw [← toNat_productWord] at hw
  generalize (r.p unit).setWidth 64 ||| (if r.psign unit then 1#64 else 0#64) <<< 32 = v at hw ⊢
  have hv := v.isLt
  by_cases h0 : r.ps unit = 0
  · rw [if_pos h0, if_pos h0]
    exact SignExtend_eq_ofInt_of_emod (by omega) (by omega) (by omega)
  by_cases h1 : r.ps unit = 1
  · rw [if_neg h0, if_pos h1, if_neg h0, if_pos h1]
    refine SignExtend_eq_ofInt_of_emod (by omega) (by omega) ?_
    rw [BitVec.toNat_ushiftRight, Nat.shiftRight_eq_div_pow]
    omega
  by_cases h2 : r.ps unit = 2
  · rw [if_neg h0, if_neg h1, if_pos h2, if_neg h0, if_neg h1, if_pos h2]
    refine SignExtend_eq_ofInt_of_emod (by omega) (by omega) ?_
    rw [BitVec.toNat_shiftLeft, Nat.shiftLeft_eq]
    omega
  have h3 : r.ps unit = 3 := by bv_omega
  rw [if_neg h0, if_neg h1, if_neg h2, if_pos h3, if_neg h0, if_neg h1, if_neg h2]
  refine SignExtend_eq_ofInt_of_emod (by omega) (by omega) ?_
  rw [BitVec.toNat_shiftLeft, Nat.shiftLeft_eq]
  omega

/-! ## The multiplier -/

theorem ushiftRight_31_ne_zero (p : BitVec 32) : (p >>> 31 != 0) = decide (2 ^ 31 ≤ p.toNat) := by
  have := p.isLt
  rw [Bool.eq_iff_iff, bne_iff_ne, ne_eq, BitVec.toNat_eq, decide_eq_true_iff,
    BitVec.toNat_ushiftRight, Nat.shiftRight_eq_div_pow, show (0 : BitVec 32).toNat = 0 from rfl]
  omega

/-- The product word `DoMultiplication` leaves (`p[unit]`, with `psign[unit]` as bit 32) holds
    the exact product modulo `2^33`: bit 31 of the wrapped product is its sign whenever an
    operand is signed, since such a product fits in 32 signed bits. -/
theorem mulWord_eq (xs ys : Bool) (x y : BitVec 16) (xw yw : BitVec 32)
    (hx : xw = if xs then SignExtend 16 (x.setWidth 32) else x.setWidth 32)
    (hy : yw = if ys then SignExtend 16 (y.setWidth 32) else y.setWidth 32) :
    (((xw * yw).toNat + if (if xs || ys then (xw * yw) >>> 31 != 0 else false) then 2 ^ 32 else 0 : Nat)
      : Int) = operandValue xs x * operandValue ys y % 2 ^ 33 := by
  have hp : ((xw * yw).toNat : Int) % 2 ^ 32 = operandValue xs x * operandValue ys y % 2 ^ 32 := by
    rw [BitVec.toNat_mul, Int.ofNat_emod, Int.natCast_mul, Int.emod_emod_of_dvd _ (by decide),
      Int.mul_emod, hx, hy, toNat_mulOperand, toNat_mulOperand, ← Int.mul_emod]
  have hb := operandValue_mul_bounds xs ys x y
  have := (xw * yw).isLt
  by_cases hs : (xs || ys) = true
  · rw [if_pos hs] at hb
    simp only [hs, ushiftRight_31_ne_zero, if_true, decide_eq_true_eq]
    split <;> omega
  · rw [if_neg hs] at hb
    simp only [hs, Bool.false_eq_true, if_false]
    omega

theorem wp_productToBus40_productReg {E : String → Prop} {Q : BitVec 64 → Core → Prop} (unit : Fin 2)
    (s : Core) : wp (productToBus40 (productReg unit)) Q E s = Q (productBus40 s.regs unit) s := by
  match unit with
  | 0 | 1 => simp only [productReg, productToBus40, productUnit, wp_bind, wp_pure, wp_regs]

/-- `DoMultiplication` followed by `ProductToBus40` gives `⌊X · Y · 2^k⌋`, sign-extended to 64
    bits, for every pair of operands, signedness, `ym` and `ps` below 4. -/
theorem productToBus40_doMultiplication (unit : Fin 2) (xSign ySign : Bool) (s : Core)
    (hps : (s.regs.ps unit).toNat < 4) :
    wp (do doMultiplication unit xSign ySign; productToBus40 (productReg unit))
      (fun v _ => v = BitVec.ofInt 64 (productShift (s.regs.ps unit)
        (operandValue xSign (s.regs.x unit) *
          operandValue ySign (selectY s.regs.ym unit (s.regs.y unit)))))
      (fun _ => False) s := by
  have hb := operandValue_mul_bounds xSign ySign (s.regs.x unit) (selectY s.regs.ym unit (s.regs.y unit))
  rw [wp_bind, doMultiplication, wp_setRegs, wp_productToBus40_productReg]
  refine productBus40_of_word _ unit (by split at hb <;> omega) (by split at hb <;> omega) hps ?_
  simp only [Function.update_same, narrowY_eq]
  exact mulWord_eq _ _ _ _ _ _ rfl rfl

/-- `-1 · 3` shifted right by one rounds down to `-2`. -/
def negThreeHalved : Core :=
  { (default : Core) with
    regs := { (default : Core).regs with x := fun _ => 0xFFFF, y := fun _ => 3, ps := fun _ => 1 } }

theorem productToBus40_doMultiplication_floor :
    (negThreeHalved.regs.ps 0).toNat < 4 ∧
    wp (do doMultiplication 0 true true; productToBus40 (productReg 0))
      (fun v _ => v = 0xFFFFFFFFFFFFFFFE) (fun _ => False) negThreeHalved :=
  ⟨by decide, wp_mono (productToBus40_doMultiplication 0 true true negThreeHalved (by decide))
    (fun _ _ h => by rw [h]; decide) (fun _ h => h)⟩

end Teakra
