import Teakra.Interpreter.Agu
import Teakra.Run.Repeat

/-!
# What the address generation unit computes

`RnAndModify` (`interpreter.h`, lines 3423–3434) returns an address register and steps it with
`StepAddress` (lines 3295–3421), unless the register is `r3`/`r7` held at zero. `OffsetAddress`
(lines 3264–3293) computes the second address of a paired access.

In linear mode (modulo addressing off, bit reversal on, or `dmod`) a step by `±1` is plain
16-bit arithmetic. In modulo mode the address moves inside a window: the mask `2^k - 1` that
the code smears out of `mod` keeps the bits above the window, and the offset below runs over
`0..mod`. Both dialects of `StepAddress` (the legacy one, which wraps at offset `mod`, and the
modern one, which wraps when the next offset reaches `mod + 1`) and `OffsetAddress` step the
offset by `±1` modulo `mod + 1`, so stepping a register round its window comes back after
exactly `mod + 1` steps.

Results:
* `wp_rnAndModify`, `wp_repeat_rnAndModify`: the register `RnAndModify` returns and the value it
  leaves, and `n` of them in a row.
* `stepAddress_linear`, `offsetAddress_linear`: outside modulo addressing, `±1` adds `±1`
  mod `2^16`.
* `modMask_eq`: the smear of `mod` is the mask of the bits up to its top bit.
* `moduloStep_increase`, `moduloStep_decrease`, `moduloStep_legacy_increase`,
  `moduloStep_legacy_decrease`, `offsetAddress_plusOne`, `offsetAddress_minusOne`: each route
  of the modulo unit is the window step `windowStep`.
* `stepAddress_modulo`: the window steps of both functions and both dialects, the steps by
  two of mode 1, the iterates and their period `mod + 1`, and the linear steps.
-/

namespace Teakra

/-! ## Specification -/

/-- Modelled from the spec: the address `d` steps from `a` around the modulo window of `mask`:
    the bits of `a` outside `mask` are kept, and the offset `o = a & mask` becomes
    `(o + d) mod (mod + 1)`. -/
def windowStep (mask mod a : BitVec 16) (d : Int) : BitVec 16 :=
  (a &&& ~~~mask) ||| BitVec.ofInt 16 (((a &&& mask).toNat + d) % (mod.toNat + 1))

/-! ## `RnAndModify` -/

section Wp

variable {E : String → Prop} {s : Core}

theorem wp_getRnUnit {Q : Fin 8 → Core → Prop} {b : RegName} {unit : Fin 8}
    (hb : getRnUnit b = pure unit) : wp (getRnUnit b) Q E s = Q unit s := by
  rw [hb, wp_pure]

theorem wp_rnAndModify {Q : BitVec 16 → Core → Prop} (unit : Fin 8) (step : StepValue)
    (dmod : Bool) :
    let held := ((unit == 3 && s.regs.r3z) || (unit == 7 && s.regs.r7z)) && !step.isStep2
    wp (rnAndModify unit step dmod) Q E s =
      Q (s.regs.r unit) { s with regs := { s.regs with
        r := Function.update s.regs.r unit
          (if held then 0 else stepAddress s.regs unit (s.regs.r unit) step dmod) } } := by
  simp only [rnAndModify, wp_bind, wp_regs, wp_setRegs, wp_pure]

end Wp

/-- `StepAddress` reads only the mode, modulus and step registers of the register file. -/
theorem stepAddress_congr {r r' : RegisterState}
    (h : (r.legacyMod, r.brv, r.m, r.modi, r.modj, r.stepi, r.stepj, r.stepi0, r.stepj0,
      r.bankstep) = (r'.legacyMod, r'.brv, r'.m, r'.modi, r'.modj, r'.stepi, r'.stepj, r'.stepi0,
      r'.stepj0, r'.bankstep)) : stepAddress r = stepAddress r' := by
  simp only [Prod.mk.injEq] at h
  obtain ⟨h1, h2, h3, h4, h5, h6, h7, h8, h9, h10⟩ := h
  funext unit a step dmod
  simp only [stepAddress, plusStep, unitMod, h1, h2, h3, h4, h5, h6, h7, h8, h9, h10]

/-- `RnAndModify` on a register file that steps addresses as `r` does. -/
theorem wp_rnAndModify_of {E : String → Prop} {s : Core} {Q : BitVec 16 → Core → Prop}
    (unit : Fin 8) (step : StepValue) (dmod : Bool) (r : RegisterState)
    (hr : stepAddress s.regs = stepAddress r) :
    let held := ((unit == 3 && s.regs.r3z) || (unit == 7 && s.regs.r7z)) && !step.isStep2
    wp (rnAndModify unit step dmod) Q E s =
      Q (s.regs.r unit) { s with regs := { s.regs with
        r := Function.update s.regs.r unit
          (if held then 0 else stepAddress r unit (s.regs.r unit) step dmod) } } := by
  rw [wp_rnAndModify, hr]

/-- `StepAddress` does not read the address registers themselves. -/
@[simp] theorem stepAddress_setR (r : RegisterState) (f : Fin 8 → BitVec 16) :
    stepAddress { r with r := f } = stepAddress r := rfl

/-- `n` successive `RnAndModify` of a unit that is not held at zero step its register `n` times
    with `StepAddress`. -/
theorem wp_repeat_rnAndModify (unit : Fin 8) (step : StepValue) (dmod : Bool) (n : Nat) :
    ∀ s : Core, ((unit == 3 && s.regs.r3z) || (unit == 7 && s.regs.r7z)) = false →
      wp (repeatHandler (do let _ ← rnAndModify unit step dmod; pure ()) n)
        (fun _ t => t.regs.r unit = (stepAddress s.regs unit · step dmod)^[n] (s.regs.r unit))
        (fun _ => False) s := by
  induction n with
  | zero => intro s _; rfl
  | succ n ih =>
    intro s hz
    rw [repeatHandler, wp_bind, wp_bind, wp_rnAndModify]
    simp only [hz, Bool.false_and, Bool.false_eq_true, if_false, wp_pure]
    refine wp_mono (ih _ hz) (fun _ t ht => ?_) (fun _ h => h)
    simp only [Function.update_same, stepAddress_setR] at ht
    rw [ht, Function.iterate_succ_apply]

/-! ## Linear stepping -/

/-- Out of modulo mode (`m` clear, `brv` set or `dmod`), the steps by one are plain additions. -/
theorem stepAddress_linear {r : RegisterState} {unit : Fin 8} {dmod : Bool}
    (h : (!dmod && !r.brv unit && r.m unit) = false) (a : BitVec 16) :
    stepAddress r unit a .Increase dmod = a + 1 ∧ stepAddress r unit a .Decrease dmod = a - 1 := by
  simp only [stepAddress, h]
  constructor
  · rfl
  · show a + 0xFFFF = a - 1
    bv_omega

/-- The `k + 1`-th address of a pointer stepping by one is the `k`-th from the next one. -/
theorem add_natCast_succ (r : BitVec 16) (k : Nat) :
    r + ((k + 1 : Nat) : BitVec 16) = r + 1 + k := by
  push_cast; ring

theorem offsetAddress_linear {r : RegisterState} {unit : Fin 8} {dmod : Bool}
    (h : (!dmod && !r.brv unit && r.m unit) = false) (a : BitVec 16) :
    offsetAddress r unit a .PlusOne dmod = a + 1 ∧ offsetAddress r unit a .MinusOne dmod = a - 1 := by
  have he : (r.m unit && !r.brv unit && !dmod) = false := by
    rw [Bool.and_comm, Bool.and_comm (r.m unit), ← Bool.and_assoc]; exact h
  simp only [offsetAddress, he, Bool.not_false, if_true, and_self]

/-! ## The mask of the modulo unit -/

/-- The mask of the low `k` bits of an address. -/
def lowMask (k : Nat) : BitVec 16 := BitVec.ofNat 16 (2 ^ k - 1)

/-- The bits the loop of `modMask` ORs in: bit `j` is set when `init` has it or some `x >>> i`
    of the loop does. -/
theorem getLsbD_foldl_or (x : BitVec 16) (j : Nat) : ∀ (l : List Nat) (init : BitVec 16),
    (l.foldl (fun mask i => mask ||| (x >>> i)) init).getLsbD j =
      (init.getLsbD j || l.any fun i => x.getLsbD (i + j))
  | [], init => by simp
  | i :: l, init => by
    rw [List.foldl_cons, getLsbD_foldl_or x j l, BitVec.getLsbD_or, BitVec.getLsbD_ushiftRight,
      List.any_cons, Bool.or_assoc]

theorem getLsbD_of_two_pow_le {x : BitVec 16} {t : Nat} (h1 : 2 ^ t ≤ x.toNat)
    (h2 : x.toNat < 2 ^ (t + 1)) : x.getLsbD t = true := by
  have : x.toNat = 2 ^ t + (x.toNat - 2 ^ t) := by omega
  rw [← BitVec.testBit_toNat, this, Nat.testBit_two_pow_add_eq,
    Nat.testBit_lt_two_pow (by rw [pow_succ] at h2; omega), Bool.not_false]

/-- For `2^t ≤ x < 2^(t+1)` with `t ≤ 8`, the smear of `x` over nine shifts is the mask of bits
    `0..t`, whether the loop starts from `0` or from `1`. -/
theorem modMask_eq {init x : BitVec 16} {t : Nat} (hinit : init.toNat ≤ 1) (ht : t ≤ 8)
    (h1 : 2 ^ t ≤ x.toNat) (h2 : x.toNat < 2 ^ (t + 1)) :
    modMask init x = lowMask (t + 1) := by
  ext ⟨j, hj⟩
  rw [modMask, lowMask, getLsbD_foldl_or, BitVec.getLsbD_ofNat, Nat.testBit_two_pow_sub_one,
    decide_eq_true hj, Bool.true_and]
  by_cases hjt : j ≤ t
  · have : (List.range 9).any (fun i => x.getLsbD (i + j)) = true :=
      List.any_eq_true.2 ⟨t - j, List.mem_range.2 (by omega),
        by rw [Nat.sub_add_cancel hjt]; exact getLsbD_of_two_pow_le h1 h2⟩
    rw [this, Bool.or_true, decide_eq_true (Nat.lt_succ_of_le hjt)]
  · have hinit0 : init.getLsbD j = false := by
      rw [← BitVec.testBit_toNat]
      exact Nat.testBit_lt_two_pow (lt_of_le_of_lt hinit (Nat.one_lt_two_pow (by omega)))
    have : (List.range 9).any (fun i => x.getLsbD (i + j)) = false := by
      rw [List.any_eq_false]
      intro i _
      rw [Bool.not_eq_true, ← BitVec.testBit_toNat]
      exact Nat.testBit_lt_two_pow
        (lt_of_lt_of_le h2 (Nat.pow_le_pow_right (by decide) (show t + 1 ≤ i + j by omega)))
    rw [hinit0, this, Bool.or_false, decide_eq_false (show ¬ j < t + 1 by omega)]

/-- A modulus of `[1, 0x1FF]` has the window `2^k` for `k = log2 mod + 1 ≤ 9`: its smear is
    `lowMask k` from either start of the loop, and so is that of `mod | 1`. -/
theorem modMask_of_range {mod : BitVec 16} (h1 : 1 ≤ mod.toNat) (h2 : mod.toNat ≤ 0x1FF) :
    let k := mod.toNat.log2 + 1
    k ≤ 9 ∧ mod.toNat < 2 ^ k ∧ modMask 0 mod = lowMask k ∧ modMask 1 mod = lowMask k ∧
      modMask 0 (mod ||| 1) = lowMask k := by
  have hne : mod.toNat ≠ 0 := by omega
  have ht : mod.toNat.log2 < 9 := (Nat.log2_lt hne).2 (by omega)
  have hlo := Nat.log2_self_le hne
  have hhi := @Nat.lt_log2_self mod.toNat
  have hor : (mod ||| 1).toNat = mod.toNat ||| 1 := BitVec.toNat_or _ _
  refine ⟨by omega, hhi, modMask_eq (by decide) (by omega) hlo hhi,
    modMask_eq (by decide) (by omega) hlo hhi, modMask_eq (by decide) (by omega) ?_ ?_⟩
  · rw [hor]
    exact Nat.testBit_implies_ge (by
      rw [Nat.testBit_or, BitVec.testBit_toNat, getLsbD_of_two_pow_le hlo hhi, Bool.true_or])
  · rw [hor]; exact Nat.or_lt_two_pow hhi (Nat.one_lt_two_pow (by omega))

/-! ## Windows of addresses -/

section Window

variable {k : Nat} (hk : k ≤ 16)
include hk

theorem toNat_lowMask : (lowMask k).toNat = 2 ^ k - 1 := by
  have : 2 ^ k ≤ 2 ^ 16 := Nat.pow_le_pow_right (by decide) hk
  rw [lowMask, BitVec.toNat_ofNat, Nat.mod_eq_of_lt (by omega)]

/-- The offset of an address inside the window of `lowMask k`. -/
theorem toNat_and_lowMask (x : BitVec 16) : (x &&& lowMask k).toNat = x.toNat % 2 ^ k := by
  rw [BitVec.toNat_and, toNat_lowMask hk, Nat.and_pow_two_sub_one_eq_mod]

/-- An offset `y < 2^k` put into the window of `a`: the bits of `a` above the window, plus `y`. -/
theorem toNat_window (a y : BitVec 16) (hy : y.toNat < 2 ^ k) :
    ((a &&& ~~~lowMask k) ||| y).toNat = a.toNat - a.toNat % 2 ^ k + y.toNat := by
  have hbit : ∀ j, (lowMask k).getLsbD j = (decide (j < 16) && decide (j < k)) := fun j => by
    rw [lowMask, BitVec.getLsbD_ofNat, Nat.testBit_two_pow_sub_one]
  have hy' : (a &&& ~~~lowMask k) &&& y = 0 := by
    ext ⟨j, hj⟩
    simp only [BitVec.getLsbD_and, BitVec.getLsbD_not, hbit, BitVec.getLsbD_zero, hj,
      decide_True, Bool.true_and]
    by_cases hjk : j < k
    · simp [hjk]
    · rw [← BitVec.testBit_toNat y, Nat.testBit_lt_two_pow
        (lt_of_lt_of_le hy (Nat.pow_le_pow_right (by decide) (by omega))), Bool.and_false]
      simp
  have hdisj : (a &&& ~~~lowMask k) &&& (a &&& lowMask k) = 0 := by
    ext ⟨j, hj⟩
    simp only [BitVec.getLsbD_and, BitVec.getLsbD_not, BitVec.getLsbD_zero]
    cases a.getLsbD j <;> cases (lowMask k).getLsbD j <;> simp
  have hjoin : (a &&& ~~~lowMask k) ||| (a &&& lowMask k) = a := by
    ext ⟨j, hj⟩
    simp only [BitVec.getLsbD_or, BitVec.getLsbD_and, BitVec.getLsbD_not, hj, decide_True,
      Bool.true_and]
    cases a.getLsbD j <;> cases (lowMask k).getLsbD j <;> rfl
  have hsplit := BitVec.toNat_add_of_and_eq_zero hdisj
  rw [BitVec.add_eq_or_of_and_eq_zero _ _ hdisj, hjoin, toNat_and_lowMask hk] at hsplit
  rw [← BitVec.add_eq_or_of_and_eq_zero _ _ hy', BitVec.toNat_add_of_and_eq_zero hy']
  omega

theorem toNat_add_one_and_lowMask (x : BitVec 16) :
    ((x + 1) &&& lowMask k).toNat = (x.toNat % 2 ^ k + 1) % 2 ^ k := by
  rw [toNat_and_lowMask hk, BitVec.toNat_add, Nat.mod_mod_of_dvd _ (Nat.pow_dvd_pow 2 hk),
    Nat.mod_add_mod]
  rfl

theorem toNat_sub_one_and_lowMask (x : BitVec 16) (h : 0 < x.toNat % 2 ^ k) :
    ((x - 1) &&& lowMask k).toNat = x.toNat % 2 ^ k - 1 := by
  have hx : (x - 1).toNat = x.toNat - 1 := by
    have : 0 < x.toNat := lt_of_lt_of_le h (Nat.mod_le _ _)
    bv_omega
  have hP : 0 < 2 ^ k := by positivity
  rw [toNat_and_lowMask hk, hx]
  conv_lhs => rw [← Nat.div_add_mod x.toNat (2 ^ k)]
  rw [Nat.add_sub_assoc (by omega), Nat.mul_add_mod, Nat.mod_eq_of_lt (by omega)]

/-- An address of `2^16` and the window of size `2^k` it lies in: the window ends within the
    address space. -/
theorem window_top (a : BitVec 16) : a.toNat - a.toNat % 2 ^ k + 2 ^ k ≤ 2 ^ 16 := by
  have hP : 0 < 2 ^ k := by positivity
  have h16 : 2 ^ 16 = 2 ^ k * 2 ^ (16 - k) := by rw [← pow_add, Nat.add_sub_cancel' hk]
  have hq : a.toNat / 2 ^ k < 2 ^ (16 - k) :=
    Nat.div_lt_of_lt_mul (by rw [← h16]; exact a.isLt)
  have hsplit := Nat.div_add_mod a.toNat (2 ^ k)
  calc a.toNat - a.toNat % 2 ^ k + 2 ^ k = 2 ^ k * (a.toNat / 2 ^ k + 1) := by
        rw [Nat.mul_succ]; omega
    _ ≤ 2 ^ k * 2 ^ (16 - k) := Nat.mul_le_mul_left _ hq
    _ = 2 ^ 16 := h16.symm

end Window

theorem and_not_eq_self {a m : BitVec 16} (h : a &&& m = 0) : a &&& ~~~m = a := by
  ext ⟨j, hj⟩
  have hj' := congrArg (BitVec.getLsbD · j) h
  simp only [BitVec.getLsbD_and, BitVec.getLsbD_not, hj, decide_True, Bool.true_and] at hj' ⊢
  cases ha : a.getLsbD j <;> cases hm : m.getLsbD j <;> simp_all

theorem add_ffff (x : BitVec 16) : x + 0xFFFF = x - 1 := by bv_omega

/-! ## Offsets modulo `mod + 1` -/

theorem toNat_ofInt_offset (o M : Nat) (d : Int) (hM : M < 2 ^ 16) :
    (BitVec.ofInt 16 ((o + d) % (M + 1))).toNat = ((o + d) % (M + 1)).toNat := by
  have h0 := Int.emod_nonneg (o + d) (show (M : Int) + 1 ≠ 0 by omega)
  have h1 := Int.emod_lt_of_pos (o + d) (show 0 < (M : Int) + 1 by omega)
  rw [BitVec.toNat_ofInt, Int.emod_eq_of_lt h0 (by omega)]

/-- One step up: from `mod` back to `0`. -/
theorem offset_succ {o M : Nat} (h : o ≤ M) :
    (((o : Int) + 1) % (M + 1)).toNat = if o = M then 0 else o + 1 := by
  split
  · subst o; rw [Int.emod_self]; rfl
  · rw [Int.emod_eq_of_lt (by omega) (by omega)]; omega

/-- One step down: from `0` to `mod`. -/
theorem offset_pred {o M : Nat} (h : o ≤ M) :
    (((o : Int) + -1) % (M + 1)).toNat = if o = 0 then M else o - 1 := by
  split
  · subst o
    rw [show ((0 : Nat) : Int) + -1 = M + -1 * (M + 1) by push_cast; ring, Int.add_mul_emod_self,
      Int.emod_eq_of_lt (by omega) (by omega)]
    rfl
  · rw [Int.emod_eq_of_lt (by omega) (by omega)]; omega

theorem succ_mod_cases {x P : Nat} (h : x < P) :
    (x + 1 < P ∧ (x + 1) % P = x + 1) ∨ (x + 1 = P ∧ (x + 1) % P = 0) := by
  rcases Nat.lt_or_ge (x + 1) P with h' | h'
  · exact .inl ⟨h', Nat.mod_eq_of_lt h'⟩
  · exact .inr ⟨by omega, by rw [show x + 1 = P by omega, Nat.mod_self]⟩

theorem offset_lt (o M : Nat) (d : Int) : (((o : Int) + d) % (M + 1)).toNat < M + 1 := by
  have := Int.emod_lt_of_pos ((o : Int) + d) (show 0 < (M : Int) + 1 by omega)
  omega

theorem base_add_mod (A e P : Nat) (he : e < P) : (A - A % P + e) % P = e := by
  have := Nat.div_add_mod A P
  rw [show A - A % P = P * (A / P) by omega, Nat.mul_add_mod, Nat.mod_eq_of_lt he]

/-! ## The routes of the modulo unit -/

section Window

variable {k : Nat} (hk : k ≤ 16) {mod : BitVec 16} (hmod : mod.toNat < 2 ^ k)
include hk hmod

theorem windowStep_toNat (a : BitVec 16) (d : Int) :
    (windowStep (lowMask k) mod a d).toNat =
      a.toNat - a.toNat % 2 ^ k + (((a.toNat % 2 ^ k : Nat) + d) % (mod.toNat + 1)).toNat := by
  have hM : mod.toNat < 2 ^ 16 := mod.isLt
  have h1 := Int.emod_lt_of_pos ((a.toNat % 2 ^ k : Nat) + d) (show 0 < (mod.toNat : Int) + 1 by omega)
  rw [windowStep, toNat_and_lowMask hk,
    toNat_window hk _ _ (by rw [toNat_ofInt_offset _ _ _ hM]; omega), toNat_ofInt_offset _ _ _ hM]

/-- A word `y < 2^k` put into the window of `a` is the step of `a` by `d` when `y` is the offset
    the step asks for. -/
theorem window_eq {a y : BitVec 16} {d : Int} (hy : y.toNat < 2 ^ k)
    (h : y.toNat = (((a.toNat % 2 ^ k : Nat) + d) % (mod.toNat + 1)).toNat) :
    (a &&& ~~~lowMask k) ||| y = windowStep (lowMask k) mod a d :=
  BitVec.eq_of_toNat_eq (by rw [toNat_window hk _ _ hy, windowStep_toNat hk hmod, h])

/-- The modern `+1`: the wrap happens when the next offset is `mod + 1` within the mask. -/
theorem moduloStep_increase (hmask : modMask 0 mod = lowMask k) (a : BitVec 16)
    (ha : a.toNat % 2 ^ k ≤ mod.toNat) :
    moduloStep false false mod 1 a = windowStep (lowMask k) mod a 1 := by
  have hinc := toNat_add_one_and_lowMask hk a
  have hmod1 := toNat_add_one_and_lowMask hk mod
  rw [Nat.mod_eq_of_lt hmod] at hmod1
  have ho := succ_mod_cases (show a.toNat % 2 ^ k < 2 ^ k by omega)
  have hm := succ_mod_cases hmod
  simp only [moduloStep, Bool.or_false, Bool.false_eq_true, if_false, hmask,
    show (1 : BitVec 16) < 0x8000 by decide, if_true]
  split <;> rename_i h <;> simp only [beq_iff_eq, BitVec.toNat_eq, hinc, hmod1] at h
  · refine window_eq hk hmod (by show 0 < 2 ^ k; omega) ?_
    rw [offset_succ ha, if_pos (by omega)]; rfl
  · refine window_eq hk hmod (by rw [hinc]; omega) ?_
    rw [offset_succ ha, if_neg (by omega), hinc]; omega

/-- The modern `-1`: offset `0` is first replaced by `mod + 1`, then decremented. -/
theorem moduloStep_decrease (hmask : modMask 0 mod = lowMask k) (a : BitVec 16)
    (ha : a.toNat % 2 ^ k ≤ mod.toNat) :
    moduloStep false false mod 0xFFFF a = windowStep (lowMask k) mod a (-1) := by
  have ho := toNat_and_lowMask hk a
  simp only [moduloStep, Bool.or_false, Bool.false_eq_true, if_false, hmask,
    show ¬(0xFFFF : BitVec 16) < 0x8000 by decide, add_ffff]
  split <;> rename_i h <;>
    simp only [beq_iff_eq, BitVec.toNat_eq, ho, BitVec.ofNat_eq_ofNat, BitVec.toNat_ofNat,
      Nat.zero_mod] at h
  · rw [BitVec.add_sub_cancel]
    refine window_eq hk hmod (by rw [toNat_and_lowMask hk]; omega) ?_
    rw [toNat_and_lowMask hk, Nat.mod_eq_of_lt hmod, offset_pred ha, if_pos h]
  · have hs := toNat_sub_one_and_lowMask hk (a &&& lowMask k) (by rw [ho, Nat.mod_mod]; omega)
    rw [ho, Nat.mod_mod] at hs
    refine window_eq hk hmod (by omega) ?_
    rw [hs, offset_pred ha, if_neg h]

/-- The legacy `+1`: the wrap happens at offset `mod`; the mask is that of `mod | 1`. -/
theorem moduloStep_legacy_increase (hmask : modMask 0 (mod ||| 1) = lowMask k) (a : BitVec 16)
    (ha : a.toNat % 2 ^ k ≤ mod.toNat) :
    moduloStep true false mod 1 a = windowStep (lowMask k) mod a 1 := by
  have hinc := toNat_add_one_and_lowMask hk a
  have ho := succ_mod_cases (show a.toNat % 2 ^ k < 2 ^ k by omega)
  simp only [moduloStep, Bool.true_or, if_true, show ((1 : BitVec 16) >>> 15 != 0) = false by decide,
    Bool.false_eq_true, if_false, hmask, Bool.not_false, Bool.true_or, Bool.and_true]
  split <;> rename_i h <;> simp only [beq_iff_eq, BitVec.toNat_eq, toNat_and_lowMask hk] at h
  · refine window_eq hk hmod (by show 0 < 2 ^ k; omega) ?_
    rw [offset_succ ha, if_pos h]; rfl
  · refine window_eq hk hmod (by rw [hinc]; omega) ?_
    rw [offset_succ ha, if_neg h, hinc]; omega

/-- The legacy `-1`: the wrap happens at offset `0`, to `mod`. -/
theorem moduloStep_legacy_decrease (hmask : modMask 0 mod = lowMask k) (a : BitVec 16)
    (ha : a.toNat % 2 ^ k ≤ mod.toNat) :
    moduloStep true false mod 0xFFFF a = windowStep (lowMask k) mod a (-1) := by
  have ho := toNat_and_lowMask hk a
  have hm0 : mod ||| ~~~0xFFFF = mod := by simp
  simp only [moduloStep, Bool.true_or, if_true,
    show ((0xFFFF : BitVec 16) >>> 15 != 0) = true by decide, Bool.not_true, Bool.false_eq_true,
    if_false, hm0, hmask, Bool.not_false, Bool.true_or, Bool.and_true, add_ffff]
  split <;> rename_i h <;>
    simp only [beq_iff_eq, BitVec.toNat_eq, ho, BitVec.ofNat_eq_ofNat, BitVec.toNat_ofNat,
      Nat.zero_mod] at h
  · refine window_eq hk hmod hmod ?_
    rw [offset_pred ha, if_pos h]
  · have hs := toNat_sub_one_and_lowMask hk a (by omega)
    refine window_eq hk hmod (by omega) ?_
    rw [hs, offset_pred ha, if_neg h]

/-- `OffsetAddress` with `+1` in modulo mode: back to the start of the window at offset `mod`. -/
theorem offsetAddress_plusOne {r : RegisterState} {unit : Fin 8} (hm : r.m unit = true)
    (hb : r.brv unit = false) (hu : unitMod r unit = mod) (hmask : modMask 1 mod = lowMask k)
    (a : BitVec 16) (ha : a.toNat % 2 ^ k ≤ mod.toNat) :
    offsetAddress r unit a .PlusOne false = windowStep (lowMask k) mod a 1 := by
  have htop := window_top hk a
  have hle : a.toNat % 2 ^ k ≤ a.toNat := Nat.mod_le _ _
  simp only [offsetAddress, hm, hb, hu, hmask, Bool.not_false, Bool.and_self, Bool.not_true,
    Bool.false_eq_true, if_false]
  split <;> rename_i h <;> simp only [beq_iff_eq, BitVec.toNat_eq, toNat_and_lowMask hk] at h
  · rw [← @BitVec.or_zero 16 (a &&& ~~~lowMask k)]
    refine window_eq hk hmod (by show 0 % 2 ^ 16 < 2 ^ k; simp) ?_
    rw [offset_succ ha, if_pos h]; rfl
  · apply BitVec.eq_of_toNat_eq
    rw [windowStep_toNat hk hmod, offset_succ ha, if_neg h, BitVec.toNat_add_of_lt]
    · show a.toNat + 1 = _; omega
    · show a.toNat + 1 < 2 ^ 16; omega

/-- `OffsetAddress` with `-1` in modulo mode: from offset `0` to the end `mod` of the window. -/
theorem offsetAddress_minusOne {r : RegisterState} {unit : Fin 8} (hm : r.m unit = true)
    (hb : r.brv unit = false) (hu : unitMod r unit = mod) (hmask : modMask 1 mod = lowMask k)
    (a : BitVec 16) (ha : a.toNat % 2 ^ k ≤ mod.toNat) :
    offsetAddress r unit a .MinusOne false = windowStep (lowMask k) mod a (-1) := by
  simp only [offsetAddress, hm, hb, hu, hmask, Bool.not_false, Bool.and_self, Bool.not_true,
    Bool.false_eq_true, if_false]
  split <;> rename_i h
  · rw [show a ||| mod = (a &&& ~~~lowMask k) ||| mod by rw [and_not_eq_self (beq_iff_eq.1 h)]]
    simp only [beq_iff_eq, BitVec.toNat_eq, toNat_and_lowMask hk, BitVec.ofNat_eq_ofNat,
      BitVec.toNat_ofNat, Nat.zero_mod] at h
    refine window_eq hk hmod hmod ?_
    rw [offset_pred ha, if_pos h]
  · simp only [beq_iff_eq, BitVec.toNat_eq, toNat_and_lowMask hk, BitVec.ofNat_eq_ofNat,
      BitVec.toNat_ofNat, Nat.zero_mod] at h
    have hle : a.toNat % 2 ^ k ≤ a.toNat := Nat.mod_le _ _
    have hsub : (a - 1).toNat = a.toNat - 1 := by
      have : 0 < a.toNat := by omega
      bv_omega
    apply BitVec.eq_of_toNat_eq
    rw [windowStep_toNat hk hmod, offset_pred ha, if_neg h, hsub]
    omega

/-! ### Successive steps -/

/-- The offset a window step leaves. -/
theorem windowStep_mod (a : BitVec 16) (d : Int) :
    (windowStep (lowMask k) mod a d).toNat % 2 ^ k =
      (((a.toNat % 2 ^ k : Nat) + d) % (mod.toNat + 1)).toNat := by
  have := offset_lt (a.toNat % 2 ^ k) mod.toNat d
  rw [windowStep_toNat hk hmod, base_add_mod _ _ _ (by omega)]

theorem windowStep_zero (a : BitVec 16) (ha : a.toNat % 2 ^ k ≤ mod.toNat) :
    windowStep (lowMask k) mod a 0 = a := by
  apply BitVec.eq_of_toNat_eq
  have := Nat.mod_le a.toNat (2 ^ k)
  rw [windowStep_toNat hk hmod, add_zero, Int.emod_eq_of_lt (by omega) (by omega)]
  omega

/-- Two window steps are one, by the sum of the distances. -/
theorem windowStep_windowStep (a : BitVec 16) (d d' : Int) :
    windowStep (lowMask k) mod (windowStep (lowMask k) mod a d) d' =
      windowStep (lowMask k) mod a (d + d') := by
  apply BitVec.eq_of_toNat_eq
  have hlt := offset_lt (a.toNat % 2 ^ k) mod.toNat d
  have h0 := Int.emod_nonneg ((a.toNat % 2 ^ k : Nat) + d) (show (mod.toNat : Int) + 1 ≠ 0 by omega)
  rw [windowStep_toNat hk hmod (windowStep _ _ _ _), windowStep_mod hk hmod,
    windowStep_toNat hk hmod a d, windowStep_toNat hk hmod a (d + d'), Int.toNat_of_nonneg h0,
    Int.emod_add_emod, add_assoc]
  omega

/-- Stepping `n` times by a step that moves every address of its window by `d` moves by
    `n * d`. -/
theorem iterate_windowStep {f : BitVec 16 → BitVec 16} {d : Int}
    (hf : ∀ b : BitVec 16, b.toNat % 2 ^ k ≤ mod.toNat → f b = windowStep (lowMask k) mod b d)
    (a : BitVec 16) (ha : a.toNat % 2 ^ k ≤ mod.toNat) :
    ∀ n : Nat, f^[n] a = windowStep (lowMask k) mod a (n * d)
  | 0 => by rw [Function.iterate_zero_apply, Nat.cast_zero, zero_mul, windowStep_zero hk hmod a ha]
  | n + 1 => by
    have hin : (windowStep (lowMask k) mod a (n * d)).toNat % 2 ^ k ≤ mod.toNat := by
      have := offset_lt (a.toNat % 2 ^ k) mod.toNat (n * d)
      rw [windowStep_mod hk hmod]; omega
    rw [Function.iterate_succ_apply', iterate_windowStep hf a ha n, hf _ hin,
      windowStep_windowStep hk hmod]
    push_cast; ring_nf

/-- A window step comes back to its address exactly when its distance is a multiple of the
    window's length `mod + 1`. -/
theorem windowStep_eq_self_iff (a : BitVec 16) (ha : a.toNat % 2 ^ k ≤ mod.toNat) (x : Int) :
    windowStep (lowMask k) mod a x = a ↔ ((mod.toNat : Int) + 1) ∣ x := by
  have hle := Nat.mod_le a.toNat (2 ^ k)
  have h0 := Int.emod_nonneg ((a.toNat % 2 ^ k : Nat) + x) (show (mod.toNat : Int) + 1 ≠ 0 by omega)
  have ho : ((a.toNat % 2 ^ k : Nat) : Int) % (mod.toNat + 1) = (a.toNat % 2 ^ k : Nat) :=
    Int.emod_eq_of_lt (by omega) (by omega)
  have key : Int.ModEq (mod.toNat + 1) ((a.toNat % 2 ^ k : Nat) + x) (a.toNat % 2 ^ k : Nat) ↔
      ((mod.toNat : Int) + 1) ∣ x := by
    rw [Int.modEq_iff_dvd, show ((a.toNat % 2 ^ k : Nat) : Int) - ((a.toNat % 2 ^ k : Nat) + x) = -x
      by ring, Int.dvd_neg]
  rw [Int.ModEq, ho] at key
  rw [BitVec.toNat_eq, windowStep_toNat hk hmod, ← key]
  omega

end Window

/-! ## Stepping round a window -/

theorem minimalPeriod_eq_of_iff {α : Type} {f : α → α} {x : α} {p : Nat}
    (h : ∀ n, f^[n] x = x ↔ p ∣ n) : Function.minimalPeriod f x = p :=
  Nat.dvd_antisymm (Function.IsPeriodicPt.minimalPeriod_dvd ((h p).2 dvd_rfl))
    ((h _).1 (Function.iterate_minimalPeriod))

/-- In modulo mode with `mod ≠ 0`, the steps by one are one pass of the modulo loop, and the
    modern steps by two of mode 1 are two passes of it by one. -/
theorem stepAddress_modulo_eq {r : RegisterState} {unit : Fin 8} (hm : r.m unit = true)
    (hb : r.brv unit = false) (hu : unitMod r unit ≠ 0) (a : BitVec 16) :
    stepAddress r unit a .Increase false = moduloStep r.legacyMod false (unitMod r unit) 1 a ∧
      stepAddress r unit a .Decrease false =
        moduloStep r.legacyMod false (unitMod r unit) 0xFFFF a ∧
      (r.legacyMod = false →
        stepAddress r unit a .Increase2Mode1 false = moduloStep false false (unitMod r unit) 1
          (moduloStep false false (unitMod r unit) 1 a) ∧
        stepAddress r unit a .Decrease2Mode1 false = moduloStep false false (unitMod r unit) 0xFFFF
          (moduloStep false false (unitMod r unit) 0xFFFF a)) := by
  have hu' : (unitMod r unit == 0) = false := beq_eq_false_iff_ne.2 hu
  have h1 : ((1 : BitVec 16) == 0) = false := by decide
  have h2 : ((0xFFFF : BitVec 16) == 0) = false := by decide
  have h3 : ((2 : BitVec 16) == 0) = false := by decide
  have h4 : ((0xFFFE : BitVec 16) == 0) = false := by decide
  have h5 : SignExtend 15 ((2 : BitVec 16) >>> 1) = 1 := by decide
  have h6 : SignExtend 15 ((0xFFFE : BitVec 16) >>> 1) = 0xFFFF := by decide
  refine ⟨?_, ?_, fun hl => ⟨?_, ?_⟩⟩ <;>
    simp only [stepAddress, hm, hb, hu', h1, h2, h3, h4, h5, h6, Bool.not_false, Bool.and_self,
      Bool.false_eq_true, if_false, if_true, Bool.and_false, *]

/-- In modulo mode, in both dialects, `StepAddress` by `±1` is the window step by `±1` on every
    address of the window. -/
theorem stepAddress_window {r : RegisterState} {unit : Fin 8} (hm : r.m unit = true)
    (hb : r.brv unit = false) {k : Nat} (hk : k ≤ 16) (hmod : (unitMod r unit).toNat < 2 ^ k)
    (hne : unitMod r unit ≠ 0) (hm0 : modMask 0 (unitMod r unit) = lowMask k)
    (hm1 : modMask 0 (unitMod r unit ||| 1) = lowMask k) (a : BitVec 16)
    (ha : a.toNat % 2 ^ k ≤ (unitMod r unit).toNat) :
    stepAddress r unit a .Increase false = windowStep (lowMask k) (unitMod r unit) a 1 ∧
      stepAddress r unit a .Decrease false = windowStep (lowMask k) (unitMod r unit) a (-1) := by
  obtain ⟨hi, hd, -⟩ := stepAddress_modulo_eq hm hb hne a
  rw [hi, hd]
  cases r.legacyMod
  · exact ⟨moduloStep_increase hk hmod hm0 a ha, moduloStep_decrease hk hmod hm0 a ha⟩
  · exact ⟨moduloStep_legacy_increase hk hmod hm1 a ha, moduloStep_legacy_decrease hk hmod hm0 a ha⟩

theorem stepAddress_modulo (s : Core) (unit : Fin 8) :
    let r := s.regs
    let mod := unitMod r unit
    let mask := modMask 0 mod
    (r.m unit = true → r.brv unit = false → 1 ≤ mod.toNat → mod.toNat ≤ 0x1FF →
      ∀ a : BitVec 16, (a &&& mask).toNat ≤ mod.toNat →
        stepAddress r unit a .Increase false = windowStep mask mod a 1 ∧
        offsetAddress r unit a .PlusOne false = windowStep mask mod a 1 ∧
        stepAddress r unit a .Decrease false = windowStep mask mod a (-1) ∧
        offsetAddress r unit a .MinusOne false = windowStep mask mod a (-1) ∧
        (r.legacyMod = false →
          stepAddress r unit a .Increase2Mode1 false = windowStep mask mod a 2 ∧
          stepAddress r unit a .Decrease2Mode1 false = windowStep mask mod a (-2)) ∧
        Function.minimalPeriod (stepAddress r unit · .Increase false) a = mod.toNat + 1 ∧
        Function.minimalPeriod (stepAddress r unit · .Decrease false) a = mod.toNat + 1 ∧
        (r.r unit = a → ((unit == 3 && r.r3z) || (unit == 7 && r.r7z)) = false → ∀ n : Nat,
          wp (repeatHandler (do let _ ← rnAndModify unit .Increase false; pure ()) n)
            (fun _ t => t.regs.r unit = windowStep mask mod a n) (fun _ => False) s ∧
          wp (repeatHandler (do let _ ← rnAndModify unit .Decrease false; pure ()) n)
            (fun _ t => t.regs.r unit = windowStep mask mod a (-n)) (fun _ => False) s)) ∧
    (∀ dmod : Bool, (!dmod && !r.brv unit && r.m unit) = false → ∀ a : BitVec 16,
      stepAddress r unit a .Increase dmod = a + 1 ∧ offsetAddress r unit a .PlusOne dmod = a + 1 ∧
      stepAddress r unit a .Decrease dmod = a - 1 ∧
      offsetAddress r unit a .MinusOne dmod = a - 1) := by
  intro r mod mask
  refine ⟨fun hm hb h1 h2 a ha => ?_, fun dmod h a =>
    ⟨(stepAddress_linear h a).1, (offsetAddress_linear h a).1, (stepAddress_linear h a).2,
      (offsetAddress_linear h a).2⟩⟩
  obtain ⟨hk9, hmod, hm0, hm1, hmor⟩ := modMask_of_range h1 h2
  have hk : mod.toNat.log2 + 1 ≤ 16 := by omega
  have hne : mod ≠ 0 := fun h0 => by rw [h0] at h1; exact absurd h1 (by decide)
  simp only [mask, hm0, toNat_and_lowMask hk] at ha ⊢
  have hstep := stepAddress_window hm hb hk hmod hne hm0 hmor
  have hin : ∀ b : BitVec 16, b.toNat % 2 ^ (mod.toNat.log2 + 1) ≤ mod.toNat →
      ∀ d, (windowStep (lowMask _) mod b d).toNat % 2 ^ (mod.toNat.log2 + 1) ≤ mod.toNat :=
    fun b _ d => by
      have := offset_lt (b.toNat % 2 ^ (mod.toNat.log2 + 1)) mod.toNat d
      rw [windowStep_mod hk hmod]; omega
  have hiter := iterate_windowStep hk hmod (fun b hb => (hstep b hb).1) a ha
  have hiter' := iterate_windowStep hk hmod (fun b hb => (hstep b hb).2) a ha
  have hcast : ((mod.toNat : Int) + 1) = ((mod.toNat + 1 : Nat) : Int) := by push_cast; rfl
  refine ⟨(hstep a ha).1, offsetAddress_plusOne hk hmod hm hb rfl hm1 a ha, (hstep a ha).2,
    offsetAddress_minusOne hk hmod hm hb rfl hm1 a ha, fun hl => ?_, ?_, ?_, fun hr hz n => ?_⟩
  · obtain ⟨-, -, h2⟩ := stepAddress_modulo_eq hm hb hne a
    obtain ⟨hi2, hd2⟩ := h2 hl
    rw [hi2, hd2, moduloStep_increase hk hmod hm0 a ha,
      moduloStep_increase hk hmod hm0 _ (hin a ha 1), moduloStep_decrease hk hmod hm0 a ha,
      moduloStep_decrease hk hmod hm0 _ (hin a ha (-1)), windowStep_windowStep hk hmod,
      windowStep_windowStep hk hmod]
    exact ⟨rfl, rfl⟩
  · refine minimalPeriod_eq_of_iff fun n => ?_
    rw [hiter, mul_one, windowStep_eq_self_iff hk hmod a ha, hcast, Int.natCast_dvd_natCast]
  · refine minimalPeriod_eq_of_iff fun n => ?_
    rw [hiter', mul_neg_one, windowStep_eq_self_iff hk hmod a ha, Int.dvd_neg, hcast,
      Int.natCast_dvd_natCast]
  · refine ⟨wp_mono (wp_repeat_rnAndModify unit .Increase false n s hz) (fun _ t ht => ?_)
      (fun _ h => h), wp_mono (wp_repeat_rnAndModify unit .Decrease false n s hz)
      (fun _ t ht => ?_) (fun _ h => h)⟩
    · rw [ht, hr, hiter, mul_one]
    · rw [ht, hr, hiter', mul_neg_one]

/-- Every unit in modulo mode with `modi = 5`, and every address register at `0x1235`, the last
    address of its window `0x1230..0x1235`. -/
def moduloFive : Core :=
  { (default : Core) with
    regs := { (default : Core).regs with modi := 5, m := fun _ => true, r := fun _ => 0x1235 } }

/-- With `mod = 5`, `r0 = 0x1235` steps up to `0x1230`, `0x1230` steps down to `0x1235`, the
    period is 6, and at reset (no modulo mode) `7` steps up to `8`. -/
theorem stepAddress_modulo_five :
    stepAddress moduloFive.regs 0 0x1235 .Increase false = 0x1230 ∧
      offsetAddress moduloFive.regs 0 0x1230 .MinusOne false = 0x1235 ∧
      Function.minimalPeriod (stepAddress moduloFive.regs 0 · .Increase false) 0x1235 = 6 ∧
      stepAddress (default : Core).regs 0 7 .Increase false = 8 := by
  obtain ⟨hi, -, -, -, -, hp, -⟩ :=
    (stepAddress_modulo moduloFive 0).1 rfl rfl (by decide) (by decide) 0x1235 (by decide)
  obtain ⟨-, -, -, hd, -⟩ :=
    (stepAddress_modulo moduloFive 0).1 rfl rfl (by decide) (by decide) 0x1230 (by decide)
  exact ⟨hi.trans (by decide), hd.trans (by decide), hp,
    ((stepAddress_modulo default 0).2 false rfl 7).1⟩

end Teakra
