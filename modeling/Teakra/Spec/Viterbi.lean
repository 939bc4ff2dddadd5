import Teakra.Common.Signed
import Teakra.Handlers.Mul
import Teakra.Spec.Bus

/-!
# `max2_vtr` and `min2_vtr`: the compare-select step of Viterbi decoding

`MinMaxVtr` (`interpreter.h`, lines 2609–2623) reads an accumulator as two signed lanes: bits
39..16 (`uh`, 24 bits) and bits 15..0 (`ul`, 16 bits). In each lane it keeps the larger
(`max2_vtr`) or the smaller (`min2_vtr`) of the values of the two accumulators, records in
`fc[0]` and `fc[1]` whether it took the second one, and `vtrshr` (lines 2420–2424) shifts those
two decisions into bit 15 of the traceback registers `vtr[0]` and `vtr[1]`.

The code decides by bit 63 of the 64-bit difference of the two sign-extended lanes. A lane is
at most 24 bits wide, so the difference never wraps, and its sign bit is the comparison.

Results:
* `shiftRight_63_sub_eq_zero`: the sign test of the code is the comparison of the lanes.
* `highLane_minMaxVtrWord`, `lowLane_minMaxVtrWord`: the word stored holds the two lanes
  chosen.
* `minMaxVtr_select`: each lane of the result is the maximum (the minimum) of the lanes of the
  two accumulators, `fc` records which operand each lane took, `vtr` has that shifted in at
  bit 15, and no other accumulator changes.
-/

namespace Teakra

/-! ## The two lanes of an accumulator -/

/-- Bits 39..16 of an accumulator word read as a signed number: `uh` of `MinMaxVtr`. -/
def highLane (u : BitVec 64) : Int := (SignExtend 24 (u >>> 16)).toInt

/-- Bits 15..0 read as a signed number: `ul` of `MinMaxVtr`. -/
def lowLane (u : BitVec 64) : Int := (SignExtend 16 (u &&& 0xFFFF)).toInt

/-- Whether a lane of `max2_vtr` (of `min2_vtr` when `min`) takes the value `y` of the second
    accumulator over the value `x` of the first: on a tie it does. -/
def takesSecond (min : Bool) (x y : Int) : Bool := if min then decide (y ≤ x) else decide (x ≤ y)

/-- The value a lane keeps: the larger of the two, or the smaller when `min`. -/
def laneSelect (min : Bool) (x y : Int) : Int := if min then Min.min x y else Max.max x y

theorem laneSelect_eq (min : Bool) (x y : Int) :
    laneSelect min x y = if takesSecond min x y then y else x := by
  cases min
  · simp only [laneSelect, takesSecond, Bool.false_eq_true, if_false, decide_eq_true_eq, max_def]
  · simp only [laneSelect, takesSecond, if_true, decide_eq_true_eq, min_def]
    split_ifs <;> omega

/-! ## The sign test -/

/-- The sign test of `MinMaxVtr`: bit 63 of `x - y` is clear exactly when `y ≤ x`, for values
    far enough from the ends of the 64-bit range. -/
theorem shiftRight_63_sub_eq_zero {x y : BitVec 64}
    (hx : -2 ^ 62 ≤ x.toInt ∧ x.toInt < 2 ^ 62) (hy : -2 ^ 62 ≤ y.toInt ∧ y.toInt < 2 ^ 62) :
    ((x - y) >>> 63 == 0) = decide (y.toInt ≤ x.toInt) := by
  have hsub : (x - y).toInt = x.toInt - y.toInt := by
    rw [BitVec.toInt_sub]; exact bmod_eq_self (by omega) (by omega)
  rw [Bool.eq_iff_iff, beq_iff_eq, ushiftRight_eq_zero_iff, hsub, decide_eq_true_eq]
  omega

/-! ## The word `MinMaxVtr` stores -/

theorem getLsbD_mask16 (i : Nat) : (0xFFFF : BitVec 64).getLsbD i = decide (i < 16) := by
  rw [BitVec.getLsbD, show (0xFFFF : BitVec 64).toNat = 2 ^ 16 - 1 from rfl,
    Nat.testBit_two_pow_sub_one]

theorem getLsbD_minMaxVtrWord_high (wh wl : BitVec 64) {j : Nat} (hj : j < 48) :
    (minMaxVtrWord wh wl).getLsbD (16 + j) = wh.getLsbD j := by
  simp only [minMaxVtrWord, BitVec.getLsbD_or, BitVec.getLsbD_shiftLeft, BitVec.getLsbD_and,
    getLsbD_mask16, Nat.add_sub_cancel_left]
  simp [show 16 + j < 64 by omega]

theorem getLsbD_minMaxVtrWord_low (wh wl : BitVec 64) {j : Nat} (hj : j < 16) :
    (minMaxVtrWord wh wl).getLsbD j = wl.getLsbD j := by
  simp only [minMaxVtrWord, BitVec.getLsbD_or, BitVec.getLsbD_shiftLeft, BitVec.getLsbD_and,
    getLsbD_mask16]
  simp [hj]

theorem highLane_minMaxVtrWord (wh wl : BitVec 64) :
    highLane (minMaxVtrWord wh wl) = (SignExtend 24 wh).toInt := by
  rw [highLane, SignExtend_congr_getLsbD (by decide) fun i hi => ?_]
  rw [BitVec.getLsbD_ushiftRight, getLsbD_minMaxVtrWord_high _ _ (by omega)]

theorem lowLane_minMaxVtrWord (wh wl : BitVec 64) :
    lowLane (minMaxVtrWord wh wl) = (SignExtend 16 wl).toInt := by
  rw [lowLane, SignExtend_congr_getLsbD (by decide) fun i hi => ?_]
  rw [BitVec.getLsbD_and, getLsbD_minMaxVtrWord_low _ _ hi, getLsbD_mask16, decide_eq_true hi,
    Bool.and_true]

/-! ## One compare-select step -/

@[simp] theorem vtrshrRegs_acc (r : RegisterState) : (vtrshrRegs r).acc = r.acc := rfl

/-- The decision of a lane: the sign test of the code, on lanes of at most 24 bits. -/
theorem lane_decision (min : Bool) {x y : BitVec 64} (hx : -2 ^ 62 ≤ x.toInt ∧ x.toInt < 2 ^ 62)
    (hy : -2 ^ 62 ≤ y.toInt ∧ y.toInt < 2 ^ 62) :
    ((if min then x - y else y - x) >>> 63 == 0) = takesSecond min x.toInt y.toInt := by
  cases min
  · exact shiftRight_63_sub_eq_zero hy hx
  · exact shiftRight_63_sub_eq_zero hx hy

/-- The lane kept, as the code picks it: the sign-extended lane of `v` or of `u`. -/
theorem toInt_SignExtend_ite {b : Nat} (hb : 0 < b) (c : Bool) (p q : BitVec 64) :
    (SignExtend b (if c then SignExtend b p else SignExtend b q)).toInt =
      if c then (SignExtend b p).toInt else (SignExtend b q).toInt := by
  cases c <;> simp only [Bool.false_eq_true, if_true, if_false, SignExtend_idem _ hb]

/-- `MinMaxVtr(a, b, min)` on the accumulators `i` and `j` that `a` and `b` name: each lane of
    `a` becomes `laneSelect` of the two lanes, `fc[0]` and `fc[1]` say whether the high and the
    low lane took the value of `b`, `vtrshr` shifts them into `vtr`, and no other accumulator
    changes. -/
theorem minMaxVtr_select {a b : RegName} {i j : Acc} (ha : accSlot a = some i)
    (hb : accSlot b = some j) (min : Bool) (s : Core) :
    wp (minMaxVtr a b min)
      (fun _ t =>
        t.regs.fc 0 = takesSecond min (highLane (s.regs.acc i)) (highLane (s.regs.acc j)) ∧
        t.regs.fc 1 = takesSecond min (lowLane (s.regs.acc i)) (lowLane (s.regs.acc j)) ∧
        highLane (t.regs.acc i) =
          laneSelect min (highLane (s.regs.acc i)) (highLane (s.regs.acc j)) ∧
        lowLane (t.regs.acc i) =
          laneSelect min (lowLane (s.regs.acc i)) (lowLane (s.regs.acc j)) ∧
        (∀ k, t.regs.vtr k = s.regs.vtr k >>> 1 ||| (if t.regs.fc k then 1 else 0) <<< 15) ∧
        ∀ k, k ≠ i → t.regs.acc k = s.regs.acc k)
      (fun _ => False) s := by
  have hh := fun x : BitVec 64 => toInt_SignExtend_bounds (x >>> 16) (show 0 < 24 by decide)
  have hl := fun x : BitVec 64 => toInt_SignExtend_bounds (x &&& 0xFFFF) (show 0 < 16 by decide)
  simp only [minMaxVtr, wp_bind, wp_getAcc ha, wp_getAcc hb, wp_setRegs, wp_setAccSimple ha,
    vtrshr, lane_decision min (hh _ (by decide)) (hh _ (by decide)),
    lane_decision min (hl _ (by decide)) (hl _ (by decide))]
  refine ⟨rfl, rfl, ?_, ?_, fun k => rfl, fun k hk => Function.update_noteq hk _ _⟩
  · simp only [vtrshrRegs_acc, Function.update_same]
    rw [highLane_minMaxVtrWord, toInt_SignExtend_ite (by decide), laneSelect_eq]
    simp only [highLane]
  · simp only [vtrshrRegs_acc, Function.update_same]
    rw [lowLane_minMaxVtrWord, toInt_SignExtend_ite (by decide), laneSelect_eq]
    simp only [lowLane]

/-- Lanes that disagree: `a0` has high lane 5 and low lane 3, `b0` high lane -1 and low lane
    `0x7FFF`; `vtr` holds earlier decisions. -/
def vtrCore : Core :=
  { (default : Core) with regs := { (default : Core).regs with
      acc := fun k => if k = .a 0 then 0x0000050003 else 0xFFFFFFFFFFFF7FFF,
      vtr := fun _ => 0x00F0 } }

/-- `max2_vtr a0, b0` from `vtrCore`. -/
theorem minMaxVtr_select_a0_b0 :
    accSlot .a0 = some (.a 0) ∧ accSlot .b0 = some (.b 0) ∧
    wp (minMaxVtr .a0 .b0 false)
      (fun _ t =>
        t.regs.fc 0 = takesSecond false (highLane (vtrCore.regs.acc (.a 0)))
          (highLane (vtrCore.regs.acc (.b 0))) ∧
        t.regs.fc 1 = takesSecond false (lowLane (vtrCore.regs.acc (.a 0)))
          (lowLane (vtrCore.regs.acc (.b 0))) ∧
        highLane (t.regs.acc (.a 0)) = laneSelect false
          (highLane (vtrCore.regs.acc (.a 0))) (highLane (vtrCore.regs.acc (.b 0))) ∧
        lowLane (t.regs.acc (.a 0)) = laneSelect false
          (lowLane (vtrCore.regs.acc (.a 0))) (lowLane (vtrCore.regs.acc (.b 0))) ∧
        (∀ k, t.regs.vtr k =
          vtrCore.regs.vtr k >>> 1 ||| (if t.regs.fc k then 1 else 0) <<< 15) ∧
        ∀ k, k ≠ .a 0 → t.regs.acc k = vtrCore.regs.acc k)
      (fun _ => False) vtrCore :=
  ⟨rfl, rfl, minMaxVtr_select (show accSlot .a0 = some (.a 0) from rfl)
    (show accSlot .b0 = some (.b 0) from rfl) false vtrCore⟩

end Teakra
