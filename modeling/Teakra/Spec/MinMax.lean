import Teakra.Common.Signed
import Teakra.Handlers.Mul
import Teakra.Spec.Agu
import Teakra.Spec.Bus

/-!
# `max_ge`, `max_gt`, `min_le`, `min_lt`: searching for an extremum

The `max`/`min` family (`interpreter.h`, lines 2437–2541) compares an accumulator `u` with a
value `v`, the counter accumulator or the word that `r0` addresses, by bit 63 of the 64-bit
difference `v - u`. When `v` wins it moves `v` into the accumulator, records `r0` in `mixp` and
sets `fm`; otherwise it clears `fm`. Both values are canonical 40-bit words, so the difference
never wraps and the sign test is the signed comparison.

Run under `rep` as `max_ge_r0 a, (r0)+`, the instruction is the inner loop of a search for the
largest (`min_*`: smallest) word of an array: after `n` steps the accumulator holds the extremum
of its first value and the `n` words from `r0` on, and `mixp` the address of a word it came from.

Results:
* `pass_sub`: the sign test of the code is the comparison of the two values.
* `minMax_select`: one `max`/`min` against the counter accumulator.
* `minMaxR0_run`: `n` steps of `max`/`min` over the words from `r0` on.
-/

namespace Teakra

/-! ## The comparison -/

/-- Whether `op` takes `y` over the value `x` it holds: on a tie `max_ge` and `min_le` do, and
    `max_gt` and `min_lt` do not. -/
def MinMaxOp.takes : MinMaxOp → Int → Int → Bool
  | .maxGe, x, y => decide (x ≤ y)
  | .maxGt, x, y => decide (x < y)
  | .minLe, x, y => decide (y ≤ x)
  | .minLt, x, y => decide (y < x)

/-- The value `op` keeps: the larger for `max_ge` and `max_gt`, the smaller for `min_le` and
    `min_lt`. -/
def MinMaxOp.combine : MinMaxOp → Int → Int → Int
  | .maxGe, x, y | .maxGt, x, y => max x y
  | .minLe, x, y | .minLt, x, y => min x y

theorem MinMaxOp.combine_eq (op : MinMaxOp) (x y : Int) :
    op.combine x y = if op.takes x y then y else x := by
  cases op <;> simp only [combine, takes, decide_eq_true_eq, max_def, min_def] <;> split_ifs <;>
    omega

/-- Bit 63 of a word, as `(d >> 63) & 1` reads it: set exactly when the word is negative. -/
theorem toNat_shiftRight_63_and_one (d : BitVec 64) :
    ((d >>> 63) &&& 1).toNat = if d.toInt < 0 then 1 else 0 := by
  have := d.isLt
  rw [BitVec.toNat_and, BitVec.toNat_ushiftRight, Nat.shiftRight_eq_div_pow,
    show (1 : BitVec 64).toNat = 1 from rfl, Nat.and_one_is_mod, BitVec.toInt_eq_toNat_cond]
  split_ifs <;> omega

theorem signBit_63_eq_zero (d : BitVec 64) : ((d >>> 63) &&& 1 == 0) = decide (0 ≤ d.toInt) := by
  rw [Bool.eq_iff_iff, beq_iff_eq, BitVec.toNat_eq, toNat_shiftRight_63_and_one,
    show (0 : BitVec 64).toNat = 0 from rfl, decide_eq_true_iff]
  split_ifs <;> simp <;> omega

theorem signBit_63_eq_one (d : BitVec 64) : ((d >>> 63) &&& 1 == 1) = decide (d.toInt < 0) := by
  rw [Bool.eq_iff_iff, beq_iff_eq, BitVec.toNat_eq, toNat_shiftRight_63_and_one,
    show (1 : BitVec 64).toNat = 1 from rfl, decide_eq_true_iff]
  split_ifs <;> simp <;> omega

/-- The test of the code on `v - u` is the comparison of `u` and `v`. -/
theorem pass_sub (op : MinMaxOp) {u v : BitVec 64} (hu : Canon u) (hv : Canon v) :
    op.pass (v - u) = op.takes u.toInt v.toInt := by
  have hu' := (SignExtend_eq_self_iff (show 39 < 64 by decide)).1 hu
  have hv' := (SignExtend_eq_self_iff (show 39 < 64 by decide)).1 hv
  have hd : (v - u).toInt = v.toInt - u.toInt := by
    rw [BitVec.toInt_sub]; exact bmod_eq_self (by omega) (by omega)
  have hz : (v - u == 0) = decide (v.toInt - u.toInt = 0) := by
    rw [← hd, Bool.eq_iff_iff, beq_iff_eq, decide_eq_true_iff, ← BitVec.toInt_inj,
      show (0 : BitVec 64).toInt = 0 from rfl]
  cases op <;>
    simp only [MinMaxOp.pass, MinMaxOp.takes, bne, hz, signBit_63_eq_zero, signBit_63_eq_one, hd,
      ← decide_not, ← Bool.decide_and, ← Bool.decide_or, decide_eq_decide] <;>
    omega

/-! ## One step -/

section Wp

variable {E : String → Prop} {s : Core} {a : RegName} {i : Acc}

/-- The tail of the family: `v` and `r0` moved in with `fm` set, or only `fm` cleared. -/
theorem wp_minMaxSelect {Q : Unit → Core → Prop} (h : accSlot a = some i) (op : MinMaxOp)
    (u v : BitVec 64) (r0 : BitVec 16) :
    wp (minMaxSelect op a u v r0) Q E s =
      if op.pass (v - u) then
        Q () { s with regs := { s.regs with
          fm := true, mixp := r0, acc := Function.update s.regs.acc i v } }
      else Q () { s with regs := { s.regs with fm := false } } := by
  unfold minMaxSelect
  split <;> simp only [wp_bind, wp_setRegs, wp_setAccSimple h]

/-- `max_ge_r0 a, (r0)+` and its kin with `r0` out of modulo and bit-reversed mode: the word
    at `r0` is compared, and `r0` moves on by one. -/
theorem wp_minMaxR0_increase {Q : Unit → Core → Prop} (h : accSlot a = some i) (op : MinMaxOp)
    (hm : s.regs.m 0 = false) (hbrv : s.regs.brv 0 = false) :
    wp (minMaxR0 op a .Increase) Q E s =
      wp (minMaxSelect op a (s.regs.acc i) (SignExtend 16 ((s.mem.data (s.regs.r 0)).setWidth 64))
        (s.regs.r 0)) Q E
        { s with regs := { s.regs with r := Function.update s.regs.r 0 (s.regs.r 0 + 1) } } := by
  have hs := (@stepAddress_linear s.regs 0 false (by simp [hm]) (s.regs.r 0)).1
  simp only [minMaxR0, wp_bind, wp_getAcc h, wp_rnAndModify, wp_regs, wp_dataRead, rnAddress,
    hbrv, hs, show ((0 : Fin 8) == 3) = false from rfl, show ((0 : Fin 8) == 7) = false from rfl,
    Bool.false_and, Bool.or_false, Bool.false_eq_true, if_false, Function.update_same]

end Wp

/-- `max_ge a`, `max_gt a`, `min_le a`, `min_lt a` against the counter accumulator `j` of the
    accumulator `i` that `a` names: `i` keeps `op.combine` of the two values, `fm` says whether
    it took the value of `j`, `mixp` holds `r0` when it did, and no other accumulator changes. -/
theorem minMax_select (op : MinMaxOp) {a b : RegName} {i j : Acc} (ha : accSlot a = some i)
    (hc : counterAcc a = pure b) (hb : accSlot b = some j) (bs : StepValue) (s : Core)
    (hu : Canon (s.regs.acc i)) (hv : Canon (s.regs.acc j)) :
    wp (minMax op a bs)
      (fun _ t => (t.regs.acc i).toInt = op.combine (s.regs.acc i).toInt (s.regs.acc j).toInt ∧
        t.regs.fm = op.takes (s.regs.acc i).toInt (s.regs.acc j).toInt ∧
        t.regs.mixp = (if t.regs.fm then s.regs.r 0 else s.regs.mixp) ∧
        ∀ k, k ≠ i → t.regs.acc k = s.regs.acc k)
      (fun _ => False) s := by
  simp only [minMax, wp_bind, wp_getAcc ha, hc, wp_pure, wp_getAcc hb, wp_rnAndModify,
    wp_minMaxSelect ha, pass_sub op hu hv, MinMaxOp.combine_eq]
  cases op.takes (s.regs.acc i).toInt (s.regs.acc j).toInt
  · simp only [Bool.false_eq_true, if_false, implies_true, and_self]
  · simp only [if_true, Function.update_same, and_self, true_and]
    exact fun k hk => Function.update_noteq hk _ _

/-- `a0 = -2`, `a1 = 7`, `r0 = 0x100`, `mixp = 0x55`, and the data words `2, 3, 4, ...` from
    address `0x100` on. -/
def searchCore : Core :=
  { regs := { (default : Core).regs with
      acc := fun k => if k = .a 0 then 0xFFFFFFFFFFFFFFFE else 7,
      r := fun _ => 0x100, mixp := 0x55 },
    mem := { (default : Core).mem with data := fun a => a - 0xFE } }

/-- `max_ge a0` from `searchCore`, which takes `a1`. -/
theorem minMax_select_a0 :
    accSlot .a0 = some (.a 0) ∧ counterAcc .a0 = pure .a1 ∧ accSlot .a1 = some (.a 1) ∧
    Canon (searchCore.regs.acc (.a 0)) ∧ Canon (searchCore.regs.acc (.a 1)) ∧
    wp (minMax .maxGe .a0 .Zero)
      (fun _ t =>
        (t.regs.acc (.a 0)).toInt = MinMaxOp.maxGe.combine (searchCore.regs.acc (.a 0)).toInt
          (searchCore.regs.acc (.a 1)).toInt ∧
        t.regs.fm = MinMaxOp.maxGe.takes (searchCore.regs.acc (.a 0)).toInt
          (searchCore.regs.acc (.a 1)).toInt ∧
        t.regs.mixp = (if t.regs.fm then searchCore.regs.r 0 else searchCore.regs.mixp) ∧
        ∀ k, k ≠ .a 0 → t.regs.acc k = searchCore.regs.acc k)
      (fun _ => False) searchCore := by
  have hc : counterAcc .a0 = pure .a1 := by unfold counterAcc; rfl
  exact ⟨rfl, hc, rfl, by decide, by decide, minMax_select .maxGe
    (show accSlot .a0 = some (.a 0) from rfl) hc (show accSlot .a1 = some (.a 1) from rfl) .Zero
    searchCore (by decide) (by decide)⟩

/-! ## A search over memory -/

/-- `n` steps of `max_ge_r0 a, (r0)+` (or of its kin), as `rep n - 1` runs them, with `r0` out
    of modulo and bit-reversed mode and a canonical accumulator: the accumulator holds
    `op.combine` folded over its first value and the signed words at `r0`, `r0 + 1`, ...,
    `r0 + n - 1`; either nothing was taken or it is the word at `mixp`; `r0` has moved on by `n`,
    and memory is unchanged. -/
theorem minMaxR0_run (op : MinMaxOp) {a : RegName} {i : Acc} (ha : accSlot a = some i) (n : Nat)
    (s : Core) (hm : s.regs.m 0 = false) (hbrv : s.regs.brv 0 = false)
    (hu : Canon (s.regs.acc i)) :
    wp (repeatHandler (minMaxR0 op a .Increase) n)
      (fun _ t =>
        (t.regs.acc i).toInt = (List.range n).foldl
          (fun (x : Int) (k : Nat) => op.combine x (s.mem.data (s.regs.r 0 + (k : BitVec 16))).toInt)
          (s.regs.acc i).toInt ∧
        ((t.regs.acc i = s.regs.acc i ∧ t.regs.mixp = s.regs.mixp) ∨
          t.regs.acc i = SignExtend 16 ((t.mem.data t.regs.mixp).setWidth 64)) ∧
        t.regs.r 0 = s.regs.r 0 + (n : BitVec 16) ∧ t.mem = s.mem)
      (fun _ => False) s := by
  induction n generalizing s with
  | zero => exact ⟨rfl, .inl ⟨rfl, rfl⟩, (BitVec.add_zero _).symm, rfl⟩
  | succ n ih =>
    have hv : Canon (SignExtend 16 ((s.mem.data (s.regs.r 0)).setWidth 64)) :=
      canon_SignExtend _ (by decide) (by decide)
    rw [repeatHandler, wp_bind, wp_minMaxR0_increase ha op hm hbrv, wp_minMaxSelect ha,
      pass_sub op hu hv, List.range_succ_eq_map, List.foldl_cons, List.foldl_map,
      MinMaxOp.combine_eq, toInt_SignExtend_16_setWidth (by decide)]
    simp only [Nat.cast_zero, add_zero, Nat.succ_eq_add_one, add_natCast_succ]
    split
    · rename_i h
      refine wp_mono (ih _ hm hbrv ?_) (fun _ t ⟨h1, h2, h3, h4⟩ => ⟨?_, ?_, ?_, h4⟩) (fun _ h => h)
      · simpa only [Function.update_same] using hv
      · rw [h1]
        simp only [Function.update_same, toInt_SignExtend_16_setWidth (show 16 < 64 by decide), h,
          if_true]
      · rcases h2 with ⟨ha', hx⟩ | h2
        · refine .inr ?_
          rw [ha', h4, hx]
          exact Function.update_same _ _ _
        · exact .inr h2
      · simpa only [Function.update_same] using h3
    · rename_i h
      refine wp_mono (ih _ hm hbrv hu) (fun _ t ⟨h1, h2, h3, h4⟩ => ⟨?_, h2, ?_, h4⟩) (fun _ h => h)
      · rw [h1]
        simp only [Function.update_same, h, Bool.false_eq_true, if_false]
      · simpa only [Function.update_same] using h3

/-- Three steps of `max_ge_r0 a0, (r0)+` from `searchCore`, over the words `2, 3, 4`. -/
theorem minMaxR0_run_a0 :
    accSlot .a0 = some (.a 0) ∧ searchCore.regs.m 0 = false ∧
    searchCore.regs.brv 0 = false ∧ Canon (searchCore.regs.acc (.a 0)) ∧
    wp (repeatHandler (minMaxR0 .maxGe .a0 .Increase) 3)
      (fun _ t =>
        (t.regs.acc (.a 0)).toInt = (List.range 3).foldl
          (fun (x : Int) (k : Nat) => MinMaxOp.maxGe.combine x
            (searchCore.mem.data (searchCore.regs.r 0 + (k : BitVec 16))).toInt)
          (searchCore.regs.acc (.a 0)).toInt ∧
        ((t.regs.acc (.a 0) = searchCore.regs.acc (.a 0) ∧
            t.regs.mixp = searchCore.regs.mixp) ∨
          t.regs.acc (.a 0) = SignExtend 16 ((t.mem.data t.regs.mixp).setWidth 64)) ∧
        t.regs.r 0 = searchCore.regs.r 0 + ((3 : Nat) : BitVec 16) ∧
        t.mem = searchCore.mem)
      (fun _ => False) searchCore :=
  ⟨rfl, rfl, rfl, by decide,
    minMaxR0_run .maxGe (show accSlot .a0 = some (.a 0) from rfl) 3 searchCore rfl rfl (by decide)⟩

end Teakra
