import Teakra.Handlers.Alu
import Teakra.Run.Repeat
import Teakra.Spec.Agu
import Teakra.Spec.Shift

/-!
# Normalisation one bit at a time

`norm a, rN` (`interpreter.h`, lines 126–141) does nothing once `N` is set; otherwise it
shifts the accumulator left by one, recomputes the flags through `SetAccFlag`, and steps
`rN`. Run repeatedly (`rep k; norm`) on a nonzero value of the 32-bit range, it doubles the
value until bit 31 differs from bit 30, which is when `N` becomes set, and that takes
`Exp(v)` passes.

Results:
* `NormAt.step`, `NormAt.run`: the state after `j` passes, and what a further pass and a
  further `n` passes leave.
* `norm_repeat_exp`: after `m` passes the accumulator holds `v * 2^min(m, Exp(v))`, `rN` has
  advanced by `min(m, Exp(v))`, and `N` is set exactly when `m ≥ Exp(v)`; from then on the
  accumulator is what `exp` followed by a shift by `Exp(v)` leaves.
-/

namespace Teakra

/-! ## One pass of `norm` -/

section Wp

variable {E : String → Prop} {s : Core}

theorem wp_norm_of_fn {Q : Unit → Core → Prop} (a b : RegName) (bs : StepValue)
    (h : s.regs.fn = true) : wp (norm a b bs) Q E s = Q () s := by
  simp only [norm, wp_bind, wp_regs, h, Bool.not_true, Bool.false_eq_true, if_false, wp_pure]

theorem wp_norm_of_not_fn {Q : Unit → Core → Prop} {a b : RegName} {i : Acc} {unit : Fin 8}
    (ha : accSlot a = some i) (hb : getRnUnit b = pure unit) (bs : StepValue)
    (h : s.regs.fn = false) :
    let w := s.regs.acc i
    let value := SignExtend 40 (w <<< 1)
    let held := ((unit == 3 && s.regs.r3z) || (unit == 7 && s.regs.r7z)) && !bs.isStep2
    let next := if held then 0 else stepAddress s.regs unit (s.regs.r unit) bs false
    wp (norm a b bs) Q E s =
      Q () { s with regs := { accFlags value s.regs with
        fv := w != SignExtend 39 w, flv := s.regs.flv || w != SignExtend 39 w,
        fc := Function.update s.regs.fc 0 (w <<< 1 &&& 1 <<< 40 != 0),
        acc := Function.update s.regs.acc i value,
        r := Function.update s.regs.r unit next, fr := next == 0 } } := by
  simp only [norm, wp_bind, wp_regs, h, Bool.not_false, if_true, wp_getAcc ha, wp_setRegs,
    wp_setAccNoSaturation ha (canon_SignExtend _ (by decide) le_rfl), wp_getRnUnit hb]
  rw [wp_rnAndModify_of unit bs false s.regs]
  · simp only [wp_setRegs, wp_pure, Function.update_same]
    rfl
  · exact stepAddress_congr rfl

end Wp

/-! ## Doubling inside the 32-bit range -/

theorem toInt_ne_zero {v : BitVec 64} (h : v ≠ 0) : v.toInt ≠ 0 :=
  fun h0 => h (BitVec.eq_of_toInt_eq (by rw [h0]; rfl))

theorem ofInt_shiftLeft_one (x : Int) : BitVec.ofInt 64 x <<< 1 = BitVec.ofInt 64 (x * 2) := by
  apply BitVec.eq_of_toNat_eq
  rw [BitVec.toNat_shiftLeft, Nat.shiftLeft_eq, BitVec.toNat_ofInt, BitVec.toNat_ofInt]
  omega

/-- `N` of a word of the 32-bit range: zero, or outside `[-2^30, 2^30)`. -/
theorem accFlags_fn_ofInt {e : Int} (h1 : -2 ^ 31 ≤ e) (h2 : e < 2 ^ 31) (r : RegisterState) :
    (accFlags (BitVec.ofInt 64 e) r).fn = decide (e = 0 ∨ e < -2 ^ 30 ∨ 2 ^ 30 ≤ e) := by
  rw [accFlags_fn, SignExtend_32_ofInt h1 h2, bne_self_eq_false, Bool.not_false, Bool.true_and,
    ofInt_beq_zero h1 h2, getLsbD_31_xor_30 h1 h2]
  simp only [Bool.decide_or]

/-- A canonical value of the 32-bit range has a run of at least 8 sign bits: `Exp` is the run
    minus 8 as a natural number. -/
theorem exp_toNat_of_range32 {v : BitVec 64} (hv : Canon v) (h1 : -2 ^ 31 ≤ v.toInt)
    (h2 : v.toInt < 2 ^ 31) : (exp v).toNat + 8 = signRun v := by
  obtain ⟨hc, -, -, h3⟩ := signRun_bounds hv
  have h8 : 8 ≤ signRun v := by
    by_contra h
    have : (2 : Int) ^ 31 ≤ 2 ^ (38 - signRun v) := pow_le_pow_right₀ (by norm_num) (by omega)
    exact h3 (by omega) ⟨by omega, by omega⟩
  rw [exp_eq, BitVec.toNat_sub, BitVec.toNat_ofNat]
  show (2 ^ 16 - 8 + signRun v % 2 ^ 16) % 2 ^ 16 + 8 = signRun v
  omega

/-- After `j ≤ Exp(v)` doublings a nonzero value of the 32-bit range is still in it, and it has
    left `[-2^30, 2^30)` exactly when `j = Exp(v)`. -/
theorem mul_two_pow_exp_range {v : BitVec 64} (hv : Canon v) (hv0 : v ≠ 0)
    (h1 : -2 ^ 31 ≤ v.toInt) (h2 : v.toInt < 2 ^ 31) {j : Nat} (hj : j ≤ (exp v).toNat) :
    (-2 ^ 31 ≤ v.toInt * 2 ^ j ∧ v.toInt * 2 ^ j < 2 ^ 31) ∧
      ((-2 ^ 30 ≤ v.toInt * 2 ^ j ∧ v.toInt * 2 ^ j < 2 ^ 30) ↔ j < (exp v).toNat) := by
  have hE := exp_toNat_of_range32 hv h1 h2
  obtain ⟨hc, hl, hu, h3⟩ := signRun_bounds hv
  have hj' := (mul_two_pow_mem_iff v.toInt (39 - signRun v) j).2 ⟨hl, hu⟩
  have hm : (2 : Int) ^ (39 - signRun v + j) ≤ 2 ^ 31 := pow_le_pow_right₀ (by norm_num) (by omega)
  refine ⟨⟨by omega, by omega⟩, ⟨fun h => ?_, fun h => ?_⟩⟩
  · by_contra hjE
    by_cases h39 : signRun v = 39
    · -- a run of 39 sign bits and `v ≠ 0` leave only `v = -1`, doubled 31 times
      have : v.toInt = -1 := by
        rw [h39] at hl hu
        have := toInt_ne_zero hv0
        norm_num at hl hu
        omega
      rw [this, show j = 31 by omega] at h
      norm_num at h
    · rw [← mul_two_pow_mem_iff v.toInt (38 - signRun v) j,
        show 38 - signRun v + j = 30 by omega] at h3
      exact h3 (by omega) h
  · have : (2 : Int) ^ (39 - signRun v + j) ≤ 2 ^ 30 := pow_le_pow_right₀ (by norm_num) (by omega)
    omega

/-! ## Passes of `norm` -/

/-- The state `j ≤ Exp(v)` passes of `norm a, rN` with step `+1` leave from `s`: the
    accumulator doubled `j` times, `rN` advanced by `j`, `N` set only at `Exp(v)`, and `rN`
    still stepped linearly. -/
structure NormAt (v : BitVec 64) (i : Acc) (unit : Fin 8) (s : Core) (j : Nat) (t : Core) :
    Prop where
  le_exp : j ≤ (exp v).toNat
  acc : t.regs.acc i = BitVec.ofInt 64 (v.toInt * 2 ^ j)
  r : t.regs.r unit = s.regs.r unit + BitVec.ofNat 16 j
  fn : t.regs.fn = decide ((exp v).toNat ≤ j)
  linear : t.regs.m unit = false
  not_held : ((unit == 3 && t.regs.r3z) || (unit == 7 && t.regs.r7z)) = false

section Run

variable {v : BitVec 64} (hv : Canon v) (hv0 : v ≠ 0) (h1 : -2 ^ 31 ≤ v.toInt)
  (h2 : v.toInt < 2 ^ 31) {a b : RegName} {i : Acc} (ha : accSlot a = some i) {unit : Fin 8}
  (hb : getRnUnit b = pure unit) {s : Core}
include hv hv0 h1 h2 ha hb

/-- Below `Exp(v)` one `norm` doubles the accumulator, steps `rN` by one and recomputes `N`. -/
theorem NormAt.step {j : Nat} {t : Core} (h : NormAt v i unit s j t) (hj : j < (exp v).toNat) :
    wp (norm a b .Increase) (fun _ u => NormAt v i unit s (j + 1) u) (fun _ => False) t := by
  have hfn : t.regs.fn = false := by rw [h.fn]; simp only [decide_eq_false_iff_not]; omega
  obtain ⟨⟨hl, hu⟩, h30⟩ := mul_two_pow_exp_range hv hv0 h1 h2 (show j + 1 ≤ _ from hj)
  have hout : outside40 (v.toInt * 2 ^ (j + 1)) = false := by
    unfold outside40; simp only [decide_eq_false_iff_not]; omega
  have hne : v.toInt * 2 ^ (j + 1) ≠ 0 := mul_ne_zero (toInt_ne_zero hv0) (by positivity)
  have hdouble : v.toInt * 2 ^ j * 2 = v.toInt * 2 ^ (j + 1) := by rw [pow_succ, mul_assoc]
  have hstep := (@stepAddress_linear t.regs unit false (by simp [h.linear]) (t.regs.r unit)).1
  rw [wp_norm_of_not_fn ha hb .Increase hfn]
  simp only [h.acc, h.not_held, StepValue.isStep2, hstep, ofInt_shiftLeft_one, hdouble,
    SignExtend_40_ofInt hout, Bool.false_and, Bool.false_eq_true, if_false]
  refine ⟨hj, Function.update_same _ _ _, ?_, ?_, h.linear, h.not_held⟩
  · refine (Function.update_same _ _ _).trans ?_
    rw [h.r, add_assoc, BitVec.ofNat_add]; rfl
  · show (accFlags _ t.regs).fn = _
    rw [accFlags_fn_ofInt hl hu]
    simp only [hne, false_or, decide_eq_decide]
    omega

/-- From the state after `j` passes, `n` more passes reach the state after `min (j + n) Exp(v)`:
    from `Exp(v)` on, the set `N` flag turns `norm` into a no-op. -/
theorem NormAt.run (n : Nat) : ∀ {j : Nat} {t : Core}, NormAt v i unit s j t →
    wp (repeatHandler (norm a b .Increase) n)
      (fun _ u => NormAt v i unit s (min (j + n) (exp v).toNat) u) (fun _ => False) t := by
  induction n with
  | zero => intro j t h; rwa [repeatHandler, wp_pure, Nat.add_zero, Nat.min_eq_left h.le_exp]
  | succ n ih =>
    intro j t h
    rw [repeatHandler, wp_bind]
    rcases Nat.lt_or_ge j (exp v).toNat with hj | hj
    · refine wp_mono (h.step hv hv0 h1 h2 ha hb hj) (fun _ u hu => ?_) (fun _ h => h)
      rw [show j + (n + 1) = j + 1 + n by omega]
      exact ih hu
    · rw [wp_norm_of_fn a b .Increase (by rw [h.fn, decide_eq_true hj])]
      have hE : min (j + n) (exp v).toNat = min (j + (n + 1)) (exp v).toNat := by omega
      exact hE ▸ ih h

omit ha hb in
/-- The state `norm` starts from: `v` in the accumulator and `N` as `SetAccFlag` computes it
    for `v`. -/
theorem NormAt.zero (hacc : s.regs.acc i = v) (hfn : s.regs.fn = (accFlags v s.regs).fn)
    (hm : s.regs.m unit = false)
    (hz : ((unit == 3 && s.regs.r3z) || (unit == 7 && s.regs.r7z)) = false) :
    NormAt v i unit s 0 s := by
  obtain ⟨-, h30⟩ := mul_two_pow_exp_range hv hv0 h1 h2 (Nat.zero_le (exp v).toNat)
  refine ⟨Nat.zero_le _, by rw [hacc, pow_zero, mul_one, ofInt_toInt], by simp, ?_, hm, hz⟩
  have hN := accFlags_fn_ofInt h1 h2 s.regs
  rw [ofInt_toInt] at hN
  rw [pow_zero, mul_one] at h30
  rw [hfn, hN]
  simp only [toInt_ne_zero hv0, false_or, decide_eq_decide]
  omega

end Run

theorem norm_repeat_exp {v : BitVec 64} (hv : Canon v) (hv0 : v ≠ 0) (h1 : -2 ^ 31 ≤ v.toInt)
    (h2 : v.toInt < 2 ^ 31) {a : RegName} {i : Acc} (ha : accSlot a = some i) {b : RegName}
    {unit : Fin 8} (hb : getRnUnit b = pure unit) (s : Core) (hacc : s.regs.acc i = v)
    (hfn : s.regs.fn = (accFlags v s.regs).fn) (hm : s.regs.m unit = false)
    (hz : ((unit == 3 && s.regs.r3z) || (unit == 7 && s.regs.r7z)) = false) (m : Nat) :
    ((exp v).toNat : Int) = (exp v).toInt ∧
      wp (repeatHandler (norm a b .Increase) m) (fun _ t =>
          t.regs.acc i = BitVec.ofInt 64 (v.toInt * 2 ^ min m (exp v).toNat) ∧
          t.regs.r unit = s.regs.r unit + BitVec.ofNat 16 (min m (exp v).toNat) ∧
          t.regs.fn = decide ((exp v).toNat ≤ m) ∧
          ((exp v).toNat ≤ m → s.regs.s = false →
            wp (shiftBus40 v (exp v) a) (fun _ u => u.regs.acc i = t.regs.acc i)
              (fun _ => False) s))
        (fun _ => False) s := by
  have hE := exp_toNat_of_range32 hv h1 h2
  have hc := (signRun_bounds hv).1
  have hint : ((exp v).toNat : Int) = (exp v).toInt := by
    rw [BitVec.toInt_eq_toNat_cond, if_pos (by omega)]
  have hrun := (NormAt.zero hv hv0 h1 h2 hacc hfn hm hz).run hv hv0 h1 h2 ha hb m
  refine ⟨hint, wp_mono hrun (fun _ t ht => ?_) (fun _ h => h)⟩
  rw [Nat.zero_add] at ht
  refine ⟨ht.acc, ht.r, by rw [ht.fn]; simp only [decide_eq_decide]; omega, fun hm hs => ?_⟩
  refine wp_mono (wp_shiftBus40_exp hv a ha s hs) (fun _ u hu => ?_) (fun _ h => h)
  rw [hu.2.2.1, ht.acc, min_eq_right hm, shiftExact, if_pos (by omega)]

/-- Every accumulator holds `1`; every other register is at reset. -/
def onesInAcc : Core :=
  { (default : Core) with regs := { (default : Core).regs with acc := fun _ => 1 } }

/-- Forty passes of `norm a0, r0` from `a0 = 1` stop after `Exp(1) = 30` of them, at `2^30`,
    with `r0 = 30` and `N` set. -/
theorem norm_repeat_exp_one :
    Canon 1 ∧ getRnUnit .r0 = pure 0 ∧ onesInAcc.regs.fn = (accFlags 1 onesInAcc.regs).fn ∧
      wp (repeatHandler (norm .a0 .r0 .Increase) 40)
        (fun _ t => t.regs.acc (.a 0) = 0x40000000 ∧ t.regs.r 0 = 30 ∧ t.regs.fn = true)
        (fun _ => False) onesInAcc := by
  have hr : getRnUnit .r0 = pure 0 := by unfold getRnUnit; rfl
  refine ⟨by decide, hr, rfl, wp_mono ((@norm_repeat_exp 1 (by decide) (by decide) (by decide)
    (by decide) .a0 (.a 0) rfl .r0 0 hr onesInAcc rfl rfl rfl rfl 40).2)
    (fun _ t ht => ?_) (fun _ h => h)⟩
  exact ⟨by rw [ht.1]; decide, by rw [ht.2.1]; decide, by rw [ht.2.2.1]; decide⟩

end Teakra
