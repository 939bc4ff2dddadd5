import Teakra.Common.Signed
import Teakra.Spec.AddSub
import Teakra.Spec.Multiply

/-!
# `ProductSum`: two products added to a base

`ProductSum` (`interpreter.h`, lines 274–313) adds or subtracts the two product-bus values
(each optionally aligned to `SignExtend<24>(p >> 16)`) to a base (zero, an accumulator,
`sv << 16` or `(sv << 16) | 0x8000`) with two `AddSub` steps, folds their `fc[0]` and `fv`
bits by OR when the two products have the same polarity and by XOR otherwise, and stores the
second sum through `SetAcc`.

For canonical operands the XOR of the two partial overflows is exactly the overflow of the
exact sum `c ± a ± b`: when the first sum wraps, the second brings the value back in range if
and only if it wraps too (`outside40_add`). The OR of equal polarities therefore also reports an
overflow when both partial sums wrap and the exact sum is in range.

Results:
* `outside40_add`: the exact sum overflows exactly when one of the two 40-bit additions does.
* `wp_productSum`: what `ProductSum` stores and leaves in `fv`, on the 40-bit patterns.
* `productSum_sum_overflow`: it stores the 40-bit residue of `c ± a ± b` through `SetAcc`,
  and `fv` is the exact overflow, or, for equal polarities, both partial overflows.
* `productSum_fv_in_range_sum`: `add3_p0_p1` sets `fv` for `(2^39 - 1) + 1 - 1`.
-/

namespace Teakra

/-- Modelled from the spec: `x` added, or subtracted when `sub` is set. -/
def signed (sub : Bool) (x : Int) : Int := if sub then -x else x

/-- Modelled from the spec: the base the two products are added to: zero, the accumulator,
    `sv << 16`, or `(sv << 16) | 0x8000`. -/
def sumBaseValue (base : SumBase) (sv : BitVec 16) (accValue : BitVec 64) : BitVec 64 :=
  match base with
  | .Zero => 0
  | .Acc => accValue
  | .Sv => SignExtend 32 (sv.setWidth 64 <<< 16)
  | .SvRnd => SignExtend 32 (sv.setWidth 64 <<< 16) ||| 0x8000

/-- Modelled from the spec: a product as `ProductSum` adds it, aligned to
    `SignExtend<24>(p >> 16)` when the configuration says. -/
def alignedProduct (p : ProductSumConfig) (v : BitVec 64) : BitVec 64 :=
  if p.align then SignExtend 24 (v >>> 16) else v

/-! ## Two overflows folded -/

theorem bmod_40 (x : Int) :
    Int.bmod x (2 ^ 40) = if x % 2 ^ 40 < 2 ^ 39 then x % 2 ^ 40 else x % 2 ^ 40 - 2 ^ 40 := by
  rw [Int.bmod_def]; rfl

/-- A partial sum `x` of two signed 40-bit values, followed by a third: the exact sum overflows
    exactly when one of the two 40-bit additions does. When the first wraps, the second brings
    the sum back in range if and only if it wraps too. -/
theorem outside40_add (x y : Int) (hx : -2 ^ 40 ≤ x ∧ x < 2 ^ 40) (hy : -2 ^ 39 ≤ y ∧ y ≤ 2 ^ 39) :
    outside40 (x + y) = (outside40 x ^^ outside40 (Int.bmod x (2 ^ 40) + y)) := by
  unfold outside40
  rw [Bool.eq_iff_iff, decide_eq_true_iff]
  change _ ↔ (_ != _) = true
  rw [bne_iff_ne, ne_eq, decide_eq_decide, bmod_40]
  split <;> omega

theorem or_eq_xor_or_and (x y : Bool) : (y || x) = ((x ^^ y) || (x && y)) := by
  cases x <;> cases y <;> rfl

/-! ## From 40-bit patterns to integers -/

theorem toInt_bounds_40 (X : BitVec 40) : -2 ^ 39 ≤ X.toInt ∧ X.toInt < 2 ^ 39 := by
  have := X.isLt
  rw [BitVec.toInt_eq_toNat_cond]; split <;> omega

/-- A canonical word and its low 40 bits denote the same integer. -/
theorem Canon.toInt_setWidth {x : BitVec 64} (hx : Canon x) : (x.setWidth 40).toInt = x.toInt := by
  have h := toInt_bounds_40 (x.setWidth 40)
  conv_rhs => rw [← hx, SignExtend_eq_ofInt, BitVec.toInt_ofInt]
  exact (bmod_eq_self (by omega) (by omega)).symm

theorem overflow40_eq (A B : BitVec 40) (sub : Bool) :
    overflow40 A B sub = outside40 (A.toInt + signed sub B.toInt) := by
  cases sub <;> simp only [overflow40, outside40, signed, Bool.false_eq_true, if_true, if_false,
    Int.sub_eq_add_neg]

/-- The 40-bit sum or difference is the 40-bit residue of the exact one. -/
theorem addSub40_eq_ofInt (A B : BitVec 40) (sub : Bool) :
    (if sub then A - B else A + B) = BitVec.ofInt 40 (A.toInt + signed sub B.toInt) := by
  apply BitVec.eq_of_toInt_eq
  cases sub <;> simp only [signed, Bool.false_eq_true, if_true, if_false, BitVec.toInt_add,
    BitVec.toInt_sub, BitVec.toInt_ofInt, Int.sub_eq_add_neg]

theorem canon_alignedProduct (p : ProductSumConfig) {v : BitVec 64} (hv : Canon v) :
    Canon (alignedProduct p v) := by
  unfold alignedProduct
  split
  · exact canon_SignExtend _ (by decide) (by decide)
  · exact hv

theorem canon_signExtend_40 (X : BitVec 40) : Canon (X.signExtend 64) := by
  show SignExtend 40 _ = _
  rw [SignExtend, setWidth_signExtend_40]

/-! ## What `ProductSum` computes -/

theorem wp_productToBus40_p0 {E : String → Prop} {Q : BitVec 64 → Core → Prop} (s : Core) :
    wp (productToBus40 .p0) Q E s = Q (productBus40 s.regs 0) s :=
  wp_productToBus40_productReg 0 s

theorem wp_productToBus40_p1 {E : String → Prop} {Q : BitVec 64 → Core → Prop} (s : Core) :
    wp (productToBus40 .p1) Q E s = Q (productBus40 s.regs 1) s :=
  wp_productToBus40_productReg 1 s

/-- What `ProductSum` stores and leaves in `fv`, on the 40-bit patterns of its operands: the two
    `AddSub` steps, their overflow bits folded by OR (equal polarities) or XOR, and the second
    sum written through `SetAcc`. -/
theorem wp_productSum (base : SumBase) (acc : RegName) {i : Acc} (hacc : accSlot acc = some i)
    (p0 p1 : ProductSumConfig) (s : Core) :
    let C := (sumBaseValue base s.regs.sv (s.regs.acc i)).setWidth 40
    let A := (alignedProduct p0 (productBus40 s.regs 0)).setWidth 40
    let B := (alignedProduct p1 (productBus40 s.regs 1)).setWidth 40
    let R1 := if p0.sub then C - A else C + A
    let R := (if p1.sub then R1 - B else R1 + B).signExtend 64
    wp (productSum base acc p0 p1) (fun _ t =>
      t.regs.acc i = (if s.regs.sar 1 then R else saturateAccUnconditionalNoFlag R) ∧
      t.regs.fv = if p0.sub == p1.sub then overflow40 R1 B p1.sub || overflow40 C A p0.sub
        else overflow40 R1 B p1.sub ^^ overflow40 C A p0.sub) (fun _ => False) s := by
  intro C A B R1 R
  rw [productSum]
  simp only [wp_bind, wp_productToBus40_p0, wp_productToBus40_p1, wp_regs]
  refine wp_mono (?_ : wp _ (fun v t => v = sumBaseValue base s.regs.sv (s.regs.acc i) ∧ s = t) _ s)
    ?_ (fun _ h => h)
  · cases base <;> simp only [wp_pure, wp_getAcc hacc, sumBaseValue, and_self]
  rintro _ _ ⟨rfl, rfl⟩
  refine wp_mono (wp_addSub _ _ _ s) ?_ (fun _ h => h)
  rintro _ _ ⟨rfl, rfl⟩
  simp only [wp_bind, wp_regs]
  refine wp_mono (wp_addSub _ _ _ _) ?_ (fun _ h => h)
  rintro _ _ ⟨rfl, rfl⟩
  rw [wp_setRegs, wp_setAcc hacc (canon_signExtend_40 _)]
  by_cases hpol : (p0.sub == p1.sub) = true <;>
    simp only [hpol, if_true, if_false, Bool.false_eq_true, Function.update_same, accFlags_fv,
      setWidth_signExtend_40] <;> exact ⟨rfl, rfl⟩

/-! ## The exact sum -/

/-- `ProductSum` stores the 40-bit residue of the exact `c ± a ± b`, sign-extended, through
    `SetAcc`. Its `fv` is the overflow of the exact sum, except that for two products of the
    same polarity it is also set when both partial sums overflow (then the second brings the
    sum back in range). -/
theorem productSum_sum_overflow (base : SumBase) (acc : RegName) {i : Acc}
    (hacc : accSlot acc = some i) (p0 p1 : ProductSumConfig) (s : Core)
    (hc : Canon (sumBaseValue base s.regs.sv (s.regs.acc i))) :
    let c := (sumBaseValue base s.regs.sv (s.regs.acc i)).toInt
    let a := (alignedProduct p0 (productBus40 s.regs 0)).toInt
    let b := (alignedProduct p1 (productBus40 s.regs 1)).toInt
    let e1 := c + signed p0.sub a
    let e := e1 + signed p1.sub b
    let R := (BitVec.ofInt 40 e).signExtend 64
    wp (productSum base acc p0 p1) (fun _ t =>
      t.regs.acc i = (if s.regs.sar 1 then R else saturateAccUnconditionalNoFlag R) ∧
      t.regs.fv = (outside40 e ||
        (p0.sub == p1.sub && outside40 e1 && outside40 (Int.bmod e1 (2 ^ 40) + signed p1.sub b))))
      (fun _ => False) s := by
  intro c a b e1 e R
  have hC := hc.toInt_setWidth
  have hA := (canon_alignedProduct p0 (canon_productBus40 s.regs 0)).toInt_setWidth
  have hB := (canon_alignedProduct p1 (canon_productBus40 s.regs 1)).toInt_setWidth
  have hc' := toInt_bounds_40 (sumBaseValue base s.regs.sv (s.regs.acc i) |>.setWidth 40)
  have ha' := toInt_bounds_40 (alignedProduct p0 (productBus40 s.regs 0) |>.setWidth 40)
  have hb' := toInt_bounds_40 (alignedProduct p1 (productBus40 s.regs 1) |>.setWidth 40)
  have hcb : -2 ^ 39 ≤ c ∧ c < 2 ^ 39 := by simpa only [hC] using hc'
  have hab : -2 ^ 39 ≤ a ∧ a < 2 ^ 39 := by simpa only [hA] using ha'
  have hbb : -2 ^ 39 ≤ b ∧ b < 2 ^ 39 := by simpa only [hB] using hb'
  have he1 : -2 ^ 40 ≤ e1 ∧ e1 < 2 ^ 40 := by
    show -2 ^ 40 ≤ c + signed p0.sub a ∧ c + signed p0.sub a < 2 ^ 40
    unfold signed; split <;> omega
  have hsb : -2 ^ 39 ≤ signed p1.sub b ∧ signed p1.sub b ≤ 2 ^ 39 := by
    unfold signed; split <;> omega
  refine wp_mono (wp_productSum base acc hacc p0 p1 s) ?_ (fun _ h => h)
  rintro _ t ⟨h1, h2⟩
  generalize (sumBaseValue base s.regs.sv (s.regs.acc i)).setWidth 40 = C at h1 h2 hC hc'
  generalize (alignedProduct p0 (productBus40 s.regs 0)).setWidth 40 = A at h1 h2 hA ha'
  generalize (alignedProduct p1 (productBus40 s.regs 1)).setWidth 40 = B at h1 h2 hB hb'
  have hR1 : (if p0.sub then C - A else C + A) = BitVec.ofInt 40 e1 := by
    rw [addSub40_eq_ofInt, hC, hA]
  rw [hR1] at h1 h2
  rw [overflow40_eq, overflow40_eq, BitVec.toInt_ofInt, hC, hA, hB] at h2
  refine ⟨?_, ?_⟩
  · have hres : BitVec.ofInt 40 (Int.bmod e1 (2 ^ 40) + signed p1.sub b) = BitVec.ofInt 40 e :=
      BitVec.eq_of_toInt_eq (by rw [BitVec.toInt_ofInt, BitVec.toInt_ofInt, Int.bmod_add_bmod_congr])
    rw [h1, addSub40_eq_ofInt, BitVec.toInt_ofInt, hB, hres]
  · rw [h2, outside40_add e1 (signed p1.sub b) he1 hsb]
    by_cases hpol : (p0.sub == p1.sub) = true
    · rw [if_pos hpol, or_eq_xor_or_and, hpol, Bool.true_and]
    · simp only [hpol, Bool.false_eq_true, if_false, Bool.false_and, Bool.and_false, Bool.or_false,
        Bool.xor_comm]

/-- `add3_p0_p1` at the top of the range: `a0 = 2^39 - 1`, `p0 = 1` and `p1 = -1` (`psign`
    set), neither shifted. -/
def topPlusOneMinusOne : Core :=
  { (default : Core) with
    regs := { (default : Core).regs with
      acc := fun _ => 0x7FFFFFFFFF, p := fun u => (if u = 0 then 1 else 0xFFFFFFFF),
      psign := fun u => decide (u = 1) } }

/-- Through `SetAcc` the residue `2^39 - 1` is clamped to `0x7FFF_FFFF`, and `fv` is set because
    both partial sums overflow. -/
theorem productSum_sum_overflow_top :
    accSlot .a0 = some (.a 0) ∧
    Canon (sumBaseValue .Acc topPlusOneMinusOne.regs.sv (topPlusOneMinusOne.regs.acc (.a 0))) ∧
    wp (productSum .Acc .a0 pAdd pAdd)
      (fun _ t => t.regs.acc (.a 0) = 0x7FFFFFFF ∧ t.regs.fv = true) (fun _ => False)
      topPlusOneMinusOne :=
  ⟨rfl, by decide, wp_mono (productSum_sum_overflow .Acc .a0 rfl pAdd pAdd topPlusOneMinusOne
    (by decide)) (fun _ _ h => by rw [h.1, h.2]; decide) (fun _ h => h)⟩

/-- The exact sum `(2^39 - 1) + 1 + (-1)` is in range, yet `fv` is set. -/
theorem productSum_fv_in_range_sum :
    outside40 ((topPlusOneMinusOne.regs.acc (.a 0)).toInt + (productBus40 topPlusOneMinusOne.regs 0).toInt
      + (productBus40 topPlusOneMinusOne.regs 1).toInt) = false ∧
    wp (productSum .Acc .a0 pAdd pAdd) (fun _ t => t.regs.fv = true) (fun _ => False)
      topPlusOneMinusOne :=
  ⟨by decide, wp_mono (wp_productSum .Acc .a0 rfl pAdd pAdd topPlusOneMinusOne)
    (fun _ _ h => by rw [h.2]; decide) (fun _ h => h)⟩

end Teakra
