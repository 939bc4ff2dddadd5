import Teakra.Common.Signed
import Teakra.Handlers.Alu
import Teakra.Spec.Bus

/-!
# The arithmetic of `alb`

`GenericAlb` (`interpreter.h`, lines 495–540) combines a 16-bit immediate `a` with a 16-bit
operand `b`. Its arithmetic operations compute in 32 bits: `addv` forms `a + b`, `subv` and
`cmpv` form `b - a`, and each keeps the low 16 bits as its result, sets `fc[0]` from the bits
above them, and sets `fm` from bit 31 of the same operation on the operands sign-extended from
16 bits (the lines marked `// !`). `fz` says whether the result is zero.

So `fc[0]` is the carry out of the unsigned 16-bit addition (the borrow of the subtraction),
and `fm` is the sign of the exact signed sum (difference). When the signed operation overflows
16 bits, `fm` is not bit 15 of the word stored: `addv 0x7FFF` on `1` stores `0x8000` with `fm`
clear.

Results:
* `genericAlb_arith`: what `addv`, `subv` and `cmpv` return and leave in `fc[0]`, `fm` and `fz`.
* `albMemImm8_addv_subv`: `alb subv` undoes `alb addv` on a memory word.
-/

namespace Teakra

/-! ## The 32-bit words of the computation -/

theorem toNat_setWidth_32 (x : BitVec 16) : (x.setWidth 32).toNat = x.toNat := by
  rw [BitVec.toNat_setWidth]; exact Nat.mod_eq_of_lt (by have := x.isLt; omega)

theorem toInt_bounds_16 (x : BitVec 16) : -2 ^ 15 ≤ x.toInt ∧ x.toInt < 2 ^ 15 := by
  have := x.isLt
  rw [BitVec.toInt_eq_toNat_cond]; split <;> omega

/-- The low 16 bits of a 32-bit word, as `(r & 0xFFFF)` then `u16` take them. -/
theorem setWidth_and_0xFFFF (r : BitVec 32) : (r &&& 0xFFFF).setWidth 16 = r.setWidth 16 := by
  apply BitVec.eq_of_toNat_eq
  rw [BitVec.toNat_setWidth, BitVec.toNat_setWidth, BitVec.toNat_and,
    show (0xFFFF : BitVec 32).toNat = 2 ^ 16 - 1 from rfl, Nat.and_pow_two_sub_one_eq_mod]
  omega

/-- `(r >> 16) != 0` of a 32-bit word: it is at least `2^16`. -/
theorem ushiftRight_16_ne_zero (r : BitVec 32) : (r >>> 16 != 0) = decide (2 ^ 16 ≤ r.toNat) := by
  rw [Bool.eq_iff_iff, bne_iff_ne, ne_eq, BitVec.toNat_eq, BitVec.toNat_ushiftRight,
    Nat.shiftRight_eq_div_pow, show (0 : BitVec 32).toNat = 0 from rfl, decide_eq_true_eq]
  omega

/-- `(w >> 31) != 0` of a 32-bit word: it is negative. -/
theorem ushiftRight_31_ne_zero_eq_neg (w : BitVec 32) : (w >>> 31 != 0) = decide (w.toInt < 0) := by
  rw [Bool.eq_iff_iff, bne_iff_ne, ne_eq, ushiftRight_eq_zero_iff, decide_eq_true_eq]
  omega

/-- An exact signed sum of two 16-bit values, computed in 32 bits. -/
theorem toInt_add_SignExtend_16 (a b : BitVec 16) :
    (SignExtend 16 (b.setWidth 32) + SignExtend 16 (a.setWidth 32)).toInt = a.toInt + b.toInt := by
  have ha := toInt_bounds_16 a
  have hb := toInt_bounds_16 b
  rw [BitVec.toInt_add, toInt_SignExtend_16_setWidth (by decide),
    toInt_SignExtend_16_setWidth (by decide)]
  rw [bmod_eq_self (by omega) (by omega)]
  ring

theorem toInt_sub_SignExtend_16 (a b : BitVec 16) :
    (SignExtend 16 (b.setWidth 32) - SignExtend 16 (a.setWidth 32)).toInt = b.toInt - a.toInt := by
  have ha := toInt_bounds_16 a
  have hb := toInt_bounds_16 b
  rw [BitVec.toInt_sub, toInt_SignExtend_16_setWidth (by decide),
    toInt_SignExtend_16_setWidth (by decide)]
  exact bmod_eq_self (by omega) (by omega)

/-- The low 16 bits of the 32-bit sum are the 16-bit sum. -/
theorem setWidth_add_setWidth_32 (a b : BitVec 16) :
    (a.setWidth 32 + b.setWidth 32).setWidth 16 = b + a := by
  have := a.isLt; have := b.isLt
  apply BitVec.eq_of_toNat_eq
  simp only [BitVec.toNat_setWidth, BitVec.toNat_add]
  omega

theorem setWidth_sub_setWidth_32 (a b : BitVec 16) :
    (b.setWidth 32 - a.setWidth 32).setWidth 16 = b - a := by
  have := a.isLt; have := b.isLt
  apply BitVec.eq_of_toNat_eq
  simp only [BitVec.toNat_setWidth, BitVec.toNat_sub]
  omega

/-- The carry out of the 16-bit addition. -/
theorem carry_add_setWidth_32 (a b : BitVec 16) :
    ((a.setWidth 32 + b.setWidth 32) >>> 16 != 0) = decide (2 ^ 16 ≤ a.toNat + b.toNat) := by
  have := a.isLt; have := b.isLt
  rw [ushiftRight_16_ne_zero, BitVec.toNat_add, toNat_setWidth_32, toNat_setWidth_32]
  simp only [decide_eq_decide]
  omega

/-- The borrow of the 16-bit subtraction. -/
theorem borrow_sub_setWidth_32 (a b : BitVec 16) :
    ((b.setWidth 32 - a.setWidth 32) >>> 16 != 0) = decide (b.toNat < a.toNat) := by
  have := a.isLt; have := b.isLt
  rw [ushiftRight_16_ne_zero, BitVec.toNat_sub, toNat_setWidth_32, toNat_setWidth_32]
  simp only [decide_eq_decide]
  omega

/-- Taking `a` back off `m + a` borrows exactly when adding it carried. -/
theorem toNat_add_lt_toNat (m a : BitVec 16) :
    (m + a).toNat < a.toNat ↔ 2 ^ 16 ≤ a.toNat + m.toNat := by
  have := m.isLt; have := a.isLt
  rw [BitVec.toNat_add]
  omega

/-! ## `GenericAlb` -/

section Wp

variable {E : String → Prop} {s : Core}

/-- `addv`: the 16-bit sum, `fc[0]` the unsigned carry, `fm` the sign of the exact signed
    sum, `fz` whether the sum is zero. -/
theorem wp_genericAlb_addv {Q : BitVec 16 → Core → Prop} (a b : BitVec 16) :
    wp (genericAlb .Addv a b) Q E s =
      Q (b + a) { s with regs := { s.regs with
        fc := Function.update s.regs.fc 0 (decide (2 ^ 16 ≤ a.toNat + b.toNat)),
        fm := decide (a.toInt + b.toInt < 0), fz := b + a == 0 } } := by
  unfold genericAlb albResult
  simp only [wp_bind, wp_setRegs, wp_pure, setWidth_and_0xFFFF, setWidth_add_setWidth_32,
    carry_add_setWidth_32, ushiftRight_31_ne_zero_eq_neg, toInt_add_SignExtend_16]

/-- `subv` and `cmpv`: the 16-bit difference `b - a`, `fc[0]` the unsigned borrow, `fm` the
    sign of the exact signed difference, `fz` whether the difference is zero. -/
theorem wp_genericAlb_diff {Q : BitVec 16 → Core → Prop} {op : AlbOp}
    (hop : op = .Cmpv ∨ op = .Subv) (a b : BitVec 16) :
    wp (genericAlb op a b) Q E s =
      Q (b - a) { s with regs := { s.regs with
        fc := Function.update s.regs.fc 0 (decide (b.toNat < a.toNat)),
        fm := decide (b.toInt - a.toInt < 0), fz := b - a == 0 } } := by
  unfold genericAlb
  rcases hop with rfl | rfl <;>
  · unfold albResult
    simp only [wp_bind, wp_setRegs, wp_pure, setWidth_and_0xFFFF, setWidth_sub_setWidth_32,
      borrow_sub_setWidth_32, ushiftRight_31_ne_zero_eq_neg, toInt_sub_SignExtend_16]

/-- `StoreToMemory` writes the word at the address of its operand. -/
theorem wp_storeToMemory {Q : Unit → Core → Prop} (addr : MemOperand) (v : BitVec 16) :
    wp (storeToMemory addr v) Q E s =
      Q () { s with mem := { s.mem with
        data := Function.update s.mem.data (addr.address s.regs) v } } := by
  unfold storeToMemory
  simp only [wp_bind, wp_regs, wp_dataWrite]

end Wp

/-- `addv`, `subv` and `cmpv`: the 16-bit sum or difference, `fc[0]` the unsigned carry or
    borrow, `fm` the sign of the exact signed sum or difference, `fz` whether the result is
    zero. -/
theorem genericAlb_arith (a b : BitVec 16) (s : Core) :
    wp (genericAlb .Addv a b)
      (fun v t => v = b + a ∧ t.regs.fc 0 = decide (2 ^ 16 ≤ a.toNat + b.toNat) ∧
        t.regs.fm = decide (a.toInt + b.toInt < 0) ∧ t.regs.fz = (v == 0))
      (fun _ => False) s ∧
    wp (genericAlb .Subv a b)
      (fun v t => v = b - a ∧ t.regs.fc 0 = decide (b.toNat < a.toNat) ∧
        t.regs.fm = decide (b.toInt - a.toInt < 0) ∧ t.regs.fz = (v == 0))
      (fun _ => False) s ∧
    wp (genericAlb .Cmpv a b)
      (fun v t => v = b - a ∧ t.regs.fc 0 = decide (b.toNat < a.toNat) ∧
        t.regs.fm = decide (b.toInt - a.toInt < 0) ∧ t.regs.fz = (v == 0))
      (fun _ => False) s := by
  rw [wp_genericAlb_addv, wp_genericAlb_diff (.inr rfl), wp_genericAlb_diff (.inl rfl)]
  simp only [Function.update_same, and_self]

/-- `addv 0x7FFF` on `1` overflows: the word is `0x8000`, but the exact sum is positive. -/
example : wp (genericAlb .Addv 0x7FFF 1) (fun v t => v = 0x8000 ∧ t.regs.fm = false)
    (fun _ => False) default := by
  rw [wp_genericAlb_addv]; exact ⟨rfl, rfl⟩

/-! ## `alb` on a memory word -/

/-- `alb subv` with the immediate that `alb addv` added gives the memory word back: the memory
    is as it was, `fz` says whether the word is zero, and the borrow of the subtraction is the
    carry of the addition. -/
theorem albMemImm8_addv_subv (a b : BitVec 16) (s : Core) :
    wp (do albMemImm8 .Addv a b; albMemImm8 .Subv a b)
      (fun _ t => t.mem = s.mem ∧
        t.regs.fz = (s.mem.data ((MemOperand.imm8 b).address s.regs) == 0) ∧
        t.regs.fc 0 = decide (2 ^ 16 ≤ a.toNat + (s.mem.data ((MemOperand.imm8 b).address s.regs)).toNat))
      (fun _ => False) s := by
  simp only [albMemImm8, wp_bind, wp_loadFromMemory, wp_genericAlb_addv,
    wp_genericAlb_diff (show AlbOp.Subv = .Cmpv ∨ AlbOp.Subv = .Subv from .inr rfl),
    isAlbModifying, if_true, wp_storeToMemory, MemOperand.address, Function.update_same,
    BitVec.add_sub_cancel, Function.update_idem, Function.update_eq_self, toNat_add_lt_toNat,
    and_self]

end Teakra
