import Teakra.Interpreter.Arith

/-!
# `AddSub`: the 40-bit adder

`AddSub` (`interpreter.h`, lines 250–262) masks both operands to their low 40 bits, adds or
subtracts them as 64-bit words, reads the carry from bit 40 and the overflow from bit 39 of
`~(a ^ b) & (a ^ result)` (with `b` complemented for a subtraction), and returns the
sign-extended low 40 bits of the result.

Spec §4.4 describes the adder by what it computes: `a ± b` modulo `2^40`, the carry out of the
40-bit operation, and the signed overflow of the 40-bit operation. `carry40` and `overflow40`
state the last two on the operands' 40-bit patterns `A` and `B`: the carry is `A + B ≥ 2^40`
or the borrow `A < B`, and the overflow says that the exact integer `s(A) ± s(B)` of their
signed readings leaves `[-2^39, 2^39)`.

Results:
* `carry_add`, `carry_sub`, `overflow_add`, `overflow_sub`: the bit tricks of the code compute
  `carry40` and `overflow40`.
* `addSub_correct`: `AddSub` returns the sign extension of the 40-bit `A ± B`, sets `fc[0]`,
  `fv` and `flv` as the spec says and changes nothing else; hence adding and then subtracting
  the same operand gives back every canonical value.
-/

namespace Teakra

/-- Modelled from the spec: the carry out of the 40-bit addition `A + B`, or the borrow of the
    subtraction `A - B`. -/
def carry40 (A B : BitVec 40) (sub : Bool) : Bool :=
  if sub then decide (A.toNat < B.toNat) else decide (2 ^ 40 ≤ A.toNat + B.toNat)

/-- Modelled from the spec: the exact sum or difference of the signed readings of `A` and `B`
    lies outside the signed 40-bit range. -/
def overflow40 (A B : BitVec 40) (sub : Bool) : Bool :=
  let e := if sub then A.toInt - B.toInt else A.toInt + B.toInt
  decide (e < -2 ^ 39 ∨ 2 ^ 39 ≤ e)

/-! ## Bits of 64-bit words -/

theorem toNat_and_mask40 (a : BitVec 64) : (a &&& 0xFFFFFFFFFF).toNat = a.toNat % 2 ^ 40 := by
  rw [BitVec.toNat_and, show (0xFFFFFFFFFF : BitVec 64).toNat = 2 ^ 40 - 1 from rfl,
    Nat.and_pow_two_sub_one_eq_mod]

/-- The C idiom `((x >> i) & 1) != 0` reads bit `i`. -/
theorem shiftRight_and_one_ne_zero (x : BitVec 64) (i : Nat) :
    ((x >>> i) &&& 1 != 0) = decide (x.toNat / 2 ^ i % 2 = 1) := by
  have h : ((x >>> i) &&& 1).toNat = x.toNat / 2 ^ i % 2 := by
    rw [BitVec.toNat_and, BitVec.toNat_ushiftRight, Nat.shiftRight_eq_div_pow]
    simp [Nat.and_one_is_mod]
  rw [Bool.eq_iff_iff, bne_iff_ne, ne_eq, BitVec.toNat_eq, h, decide_eq_true_iff,
    show (0 : BitVec 64).toNat = 0 from rfl]
  have := Nat.mod_two_eq_zero_or_one (x.toNat / 2 ^ i)
  omega

theorem shiftRight_and_one_ne_zero_eq_getLsbD (x : BitVec 64) (i : Nat) :
    ((x >>> i) &&& 1 != 0) = x.getLsbD i := by
  rw [shiftRight_and_one_ne_zero, BitVec.getLsbD, Nat.testBit_to_div_mod]

/-! ## The flags -/

theorem carry_add (a b : BitVec 64) :
    (((a &&& 0xFFFFFFFFFF) + (b &&& 0xFFFFFFFFFF)) >>> 40 &&& 1 != 0) =
      carry40 (a.setWidth 40) (b.setWidth 40) false := by
  rw [shiftRight_and_one_ne_zero, carry40, BitVec.toNat_add, toNat_and_mask40, toNat_and_mask40]
  simp only [BitVec.toNat_setWidth, Bool.false_eq_true, if_false, decide_eq_decide]
  omega

theorem carry_sub (a b : BitVec 64) :
    (((a &&& 0xFFFFFFFFFF) - (b &&& 0xFFFFFFFFFF)) >>> 40 &&& 1 != 0) =
      carry40 (a.setWidth 40) (b.setWidth 40) true := by
  rw [shiftRight_and_one_ne_zero, carry40, BitVec.toNat_sub, toNat_and_mask40, toNat_and_mask40]
  simp only [BitVec.toNat_setWidth, if_true, decide_eq_decide]
  omega

/-- For an addition, the xor test of bit 39 is signed overflow: the operands have the same
    sign and the result does not. -/
theorem overflow_add (a b : BitVec 64) :
    ((~~~((a &&& 0xFFFFFFFFFF) ^^^ (b &&& 0xFFFFFFFFFF)) &&&
      ((a &&& 0xFFFFFFFFFF) ^^^ ((a &&& 0xFFFFFFFFFF) + (b &&& 0xFFFFFFFFFF)))) >>> 39 &&& 1 != 0) =
      overflow40 (a.setWidth 40) (b.setWidth 40) false := by
  simp only [shiftRight_and_one_ne_zero_eq_getLsbD, BitVec.getLsbD_and, BitVec.getLsbD_xor,
    BitVec.getLsbD_not, overflow40]
  simp only [BitVec.getLsbD, Nat.testBit_to_div_mod, BitVec.toNat_add, toNat_and_mask40,
    BitVec.toInt_eq_toNat_cond, BitVec.toNat_setWidth]
  rw [Bool.eq_iff_iff]
  simp
  split_ifs <;> omega

/-- For a subtraction, with `b` complemented after the subtraction, the same test is the
    signed overflow of `s(A) - s(B)`. -/
theorem overflow_sub (a b : BitVec 64) :
    ((~~~((a &&& 0xFFFFFFFFFF) ^^^ ~~~(b &&& 0xFFFFFFFFFF)) &&&
      ((a &&& 0xFFFFFFFFFF) ^^^ ((a &&& 0xFFFFFFFFFF) - (b &&& 0xFFFFFFFFFF)))) >>> 39 &&& 1 != 0) =
      overflow40 (a.setWidth 40) (b.setWidth 40) true := by
  simp only [shiftRight_and_one_ne_zero_eq_getLsbD, BitVec.getLsbD_and, BitVec.getLsbD_xor,
    BitVec.getLsbD_not, overflow40]
  simp only [BitVec.getLsbD, Nat.testBit_to_div_mod, BitVec.toNat_sub, toNat_and_mask40,
    BitVec.toInt_eq_toNat_cond, BitVec.toNat_setWidth]
  rw [Bool.eq_iff_iff]
  simp
  split_ifs <;> omega

/-! ## The result -/

theorem setWidth_add_masked (a b : BitVec 64) :
    ((a &&& 0xFFFFFFFFFF) + (b &&& 0xFFFFFFFFFF)).setWidth 40 = a.setWidth 40 + b.setWidth 40 := by
  apply BitVec.eq_of_toNat_eq
  simp only [BitVec.toNat_setWidth, BitVec.toNat_add, toNat_and_mask40]
  omega

theorem setWidth_sub_masked (a b : BitVec 64) :
    ((a &&& 0xFFFFFFFFFF) - (b &&& 0xFFFFFFFFFF)).setWidth 40 = a.setWidth 40 - b.setWidth 40 := by
  apply BitVec.eq_of_toNat_eq
  simp only [BitVec.toNat_setWidth, BitVec.toNat_sub, toNat_and_mask40]
  omega

/-- What `AddSub` computes, returns and writes, from any state. -/
theorem wp_addSub (a b : BitVec 64) (sub : Bool) (s : Core) :
    wp (addSub a b sub) (fun v t =>
      v = (if sub then a.setWidth 40 - b.setWidth 40 else a.setWidth 40 + b.setWidth 40).signExtend 64 ∧
      t = { s with regs := { s.regs with
        fc := Function.update s.regs.fc 0 (carry40 (a.setWidth 40) (b.setWidth 40) sub),
        fv := overflow40 (a.setWidth 40) (b.setWidth 40) sub,
        flv := s.regs.flv || overflow40 (a.setWidth 40) (b.setWidth 40) sub } })
      (fun _ => False) s := by
  unfold addSub
  cases sub <;> simp only [wp_bind, wp_setRegs, wp_pure, SignExtend, Bool.false_eq_true, if_true,
    if_false, carry_add, carry_sub, overflow_add, overflow_sub, setWidth_add_masked,
    setWidth_sub_masked, and_self]

theorem setWidth_signExtend_40 (A : BitVec 40) : (A.signExtend 64).setWidth 40 = A :=
  BitVec.eq_of_getLsbD_eq fun i => by
    simp [BitVec.getLsbD_setWidth, BitVec.getLsbD_signExtend, show (i : Nat) < 64 by omega]

/-- Subtracting `b` from the result of adding it gives back every canonical `a`. -/
theorem addSub_sub_add (a b : BitVec 64) (ha : Canon a) (s : Core) :
    wp (do let x ← addSub a b false; addSub x b true) (fun v _ => v = a) (fun _ => False) s := by
  rw [wp_bind]
  refine wp_mono (wp_addSub a b false s) (fun x t hx => ?_) (fun _ h => h)
  refine wp_mono (wp_addSub x b true t) (fun v _ hv => ?_) (fun _ h => h)
  rw [hv.1, hx.1]
  simpa only [Bool.false_eq_true, if_true, if_false, setWidth_signExtend_40, BitVec.add_sub_cancel]
    using ha

theorem addSub_correct :
    (∀ (a b : BitVec 64) (sub : Bool) (s : Core),
      wp (addSub a b sub) (fun v t =>
        v = (if sub then a.setWidth 40 - b.setWidth 40
             else a.setWidth 40 + b.setWidth 40).signExtend 64 ∧
        t = { s with regs := { s.regs with
          fc := Function.update s.regs.fc 0 (carry40 (a.setWidth 40) (b.setWidth 40) sub),
          fv := overflow40 (a.setWidth 40) (b.setWidth 40) sub,
          flv := s.regs.flv || overflow40 (a.setWidth 40) (b.setWidth 40) sub } })
        (fun _ => False) s) ∧
    (∀ (a b : BitVec 64), Canon a → ∀ s : Core,
      wp (do let x ← addSub a b false; addSub x b true) (fun v _ => v = a) (fun _ => False) s) :=
  ⟨wp_addSub, addSub_sub_add⟩

/-- The round trip at the top of the 40-bit range: `-1` plus `1` wraps to `0`, and subtracting
    `1` gives `-1` back. -/
theorem addSub_correct_minus_one :
    Canon (-1) ∧ wp (do let x ← addSub (-1) 1 false; addSub x 1 true) (fun v _ => v = -1)
      (fun _ => False) default :=
  ⟨by decide, addSub_correct.2 (-1) 1 (by decide) default⟩

end Teakra
