import Teakra.Run.Repeat
import Teakra.Spec.Shift

/-!
# `ror` and `rol`: rotations through the carry

`Moda` (`interpreter.h`, lines 830–926) rotates an accumulator by one bit through `fc[0]`:
`Ror` (lines 849–858) shifts the 40 bits of the accumulator right, feeding the old `fc[0]` in
at bit 39 and bit 0 out into `fc[0]`; `Rol` (lines 859–868) shifts left, feeding `fc[0]` in at
bit 0 and bit 39 out. Both store through `SetAcc_NoSaturation`.

So the two are the rotations right and left of the 41-bit word `fc[0] : a[39..0]`
(`carryWord`), and the accumulator with `fc[0]` is the value that word stands for
(`fromCarryWord`).

Results:
* `carryWord_fromCarryWord`, `fromCarryWord_carryWord`: a canonical accumulator with `fc[0]`
  and its carry word determine each other.
* `wp_modaOp_ror`, `wp_modaOp_rol`: one `ror` and one `rol`, as rotations of the carry word.
* `moda_rotate`: `n` executions of `ror` rotate the carry word right by `n`, and `n` of `rol`
  left by `n`; `n` of `rol` undo `n` of `ror`, and 41 of either give back the accumulator and
  `fc[0]`.
-/

namespace Teakra

/-! ## The carry word -/

/-- The 41 bits that `ror` and `rol` rotate: `fc[0]` above the 40 bits of the accumulator. -/
def carryWord (fc : Bool) (v : BitVec 64) : BitVec 41 := BitVec.cons fc (v.setWidth 40)

/-- The `fc[0]` and the canonical accumulator a carry word stands for. -/
def fromCarryWord (w : BitVec 41) : Bool × BitVec 64 :=
  (w.getLsbD 40, SignExtend 40 (w.setWidth 64))

theorem getLsbD_carryWord (fc : Bool) (v : BitVec 64) (i : Nat) :
    (carryWord fc v).getLsbD i = if i = 40 then fc else decide (i < 40) && v.getLsbD i := by
  simp only [carryWord, BitVec.getLsbD_cons, BitVec.getLsbD_setWidth]

theorem carryWord_fromCarryWord (w : BitVec 41) :
    carryWord (fromCarryWord w).1 (fromCarryWord w).2 = w := by
  refine eq_of_getLsbD_lt fun i hi => ?_
  rw [getLsbD_carryWord, fromCarryWord, getLsbD_SignExtend _ (by decide)]
  split_ifs with h40 h
  · rw [h40]
  · simp [BitVec.getLsbD_setWidth, h, show i < 64 by omega]
  · omega

theorem fromCarryWord_carryWord (fc : Bool) (v : BitVec 64) :
    fromCarryWord (carryWord fc v) = (fc, SignExtend 40 v) := by
  refine Prod.ext (by simp [fromCarryWord, getLsbD_carryWord]) ?_
  refine eq_of_getLsbD_lt fun i hi => ?_
  simp only [fromCarryWord, getLsbD_SignExtend _ (show 0 < 40 by decide), BitVec.getLsbD_setWidth,
    getLsbD_carryWord]
  split_ifs <;> simp_all

theorem fromCarryWord_carryWord_of_canon (fc : Bool) {v : BitVec 64} (hv : Canon v) :
    fromCarryWord (carryWord fc v) = (fc, v) := by
  rw [fromCarryWord_carryWord, hv]

/-! ## Rotations of 41 bits -/

theorem getLsbD_rotateRight_41 (x : BitVec 41) (r : Nat) {i : Nat} (hi : i < 41) :
    (x.rotateRight r).getLsbD i = x.getLsbD ((i + r) % 41) := by
  rw [BitVec.getLsbD_rotateRight]
  by_cases h : i < 41 - r % 41
  · simp only [h, decide_True, cond_true]
    congr 1
    omega
  · simp only [h, decide_False, cond_false, hi, decide_True, Bool.true_and]
    congr 1
    omega

theorem getLsbD_rotateLeft_41 (x : BitVec 41) (r : Nat) {i : Nat} (hi : i < 41) :
    (x.rotateLeft r).getLsbD i = x.getLsbD ((i + (41 - r % 41)) % 41) := by
  rw [BitVec.getLsbD_rotateLeft]
  by_cases h : i < r % 41
  · simp only [h, decide_True, cond_true]
    congr 1
    omega
  · simp only [h, decide_False, cond_false, hi, decide_True, Bool.true_and]
    congr 1
    omega

theorem rotateRight_rotateRight_41 (x : BitVec 41) (a b : Nat) :
    (x.rotateRight a).rotateRight b = x.rotateRight (a + b) := by
  refine eq_of_getLsbD_lt fun i hi => ?_
  rw [getLsbD_rotateRight_41 _ _ hi, getLsbD_rotateRight_41 _ _ (Nat.mod_lt _ (by decide)),
    getLsbD_rotateRight_41 _ _ hi]
  congr 1
  omega

theorem rotateLeft_rotateLeft_41 (x : BitVec 41) (a b : Nat) :
    (x.rotateLeft a).rotateLeft b = x.rotateLeft (a + b) := by
  refine eq_of_getLsbD_lt fun i hi => ?_
  rw [getLsbD_rotateLeft_41 _ _ hi, getLsbD_rotateLeft_41 _ _ (Nat.mod_lt _ (by decide)),
    getLsbD_rotateLeft_41 _ _ hi]
  congr 1
  omega

theorem rotateRight_zero_41 (x : BitVec 41) : x.rotateRight 0 = x :=
  eq_of_getLsbD_lt fun i hi => by rw [getLsbD_rotateRight_41 _ _ hi, Nat.add_zero, Nat.mod_eq_of_lt hi]

theorem rotateLeft_zero_41 (x : BitVec 41) : x.rotateLeft 0 = x :=
  eq_of_getLsbD_lt fun i hi => by
    rw [getLsbD_rotateLeft_41 _ _ hi, Nat.zero_mod, Nat.sub_zero, Nat.add_mod_right, Nat.mod_eq_of_lt hi]

theorem iterate_rotateRight_41 (x : BitVec 41) (n : Nat) :
    (fun x : BitVec 41 => x.rotateRight 1)^[n] x = x.rotateRight n := by
  induction n generalizing x with
  | zero => exact (rotateRight_zero_41 x).symm
  | succ n ih => rw [Function.iterate_succ_apply, ih, rotateRight_rotateRight_41, Nat.add_comm]

theorem iterate_rotateLeft_41 (x : BitVec 41) (n : Nat) :
    (fun x : BitVec 41 => x.rotateLeft 1)^[n] x = x.rotateLeft n := by
  induction n generalizing x with
  | zero => exact (rotateLeft_zero_41 x).symm
  | succ n ih => rw [Function.iterate_succ_apply, ih, rotateLeft_rotateLeft_41, Nat.add_comm]

theorem rotateLeft_rotateRight_41 (x : BitVec 41) (n : Nat) :
    (x.rotateRight n).rotateLeft n = x := by
  refine eq_of_getLsbD_lt fun i hi => ?_
  rw [getLsbD_rotateLeft_41 _ _ hi, getLsbD_rotateRight_41 _ _ (Nat.mod_lt _ (by decide))]
  congr 1
  omega

/-! ## One step -/

/-- The bit `fc` fed in at bit `k`, as `(u64)old_fc << k`. -/
theorem getLsbD_carryIn (fc : Bool) (k i : Nat) :
    (((if fc then 1 else 0) <<< k : Nat) : BitVec 64).getLsbD i =
      (decide (i < 64) && fc && decide (i = k)) := by
  rw [BitVec.natCast_eq_ofNat, BitVec.getLsbD_ofNat]
  cases fc <;> simp [Nat.one_shiftLeft, Nat.testBit_two_pow, eq_comm]

theorem getLsbD_rorWord (fc : Bool) (v : BitVec 64) {i : Nat} (hi : i < 40) :
    ((v &&& 0xFFFFFFFFFF) >>> 1 ||| (if fc then 1 else 0) <<< 39).getLsbD i =
      if i = 39 then fc else v.getLsbD (i + 1) := by
  rw [BitVec.getLsbD_or, BitVec.getLsbD_ushiftRight, getLsbD_and_mask40, BitVec.getLsbD_setWidth,
    getLsbD_carryIn]
  by_cases h : i = 39
  · simp [h]
  · simp [h, show i + 1 < 40 by omega, show i < 64 by omega, Nat.add_comm]

theorem getLsbD_rolWord (fc : Bool) (v : BitVec 64) {i : Nat} (hi : i < 40) :
    (v <<< 1 ||| (if fc then 1 else 0)).getLsbD i = if i = 0 then fc else v.getLsbD (i - 1) := by
  rw [BitVec.getLsbD_or, BitVec.getLsbD_shiftLeft]
  by_cases h : i = 0
  · cases fc <;> simp [h]
  · cases fc <;> simp [h, show i < 64 by omega, show ¬ i < 1 by omega]

/-- What `Ror` computes, bit 0 out into `fc[0]` and `fc[0]` in at bit 39, is the rotation right
    of the carry word. -/
theorem rotateRight_carryWord (fc : Bool) (v : BitVec 64) :
    (carryWord fc v).rotateRight 1 =
      carryWord (v.getLsbD 0) ((v &&& 0xFFFFFFFFFF) >>> 1 ||| (if fc then 1 else 0) <<< 39) := by
  refine eq_of_getLsbD_lt fun i hi => ?_
  rw [getLsbD_rotateRight_41 _ _ hi, getLsbD_carryWord, getLsbD_carryWord]
  rcases (show i < 39 ∨ i = 39 ∨ i = 40 by omega) with h | rfl | rfl
  · rw [Nat.mod_eq_of_lt (by omega : i + 1 < 41), getLsbD_rorWord fc v (by omega)]
    simp [show i + 1 ≠ 40 by omega, show i ≠ 40 by omega, show i ≠ 39 by omega,
      show i + 1 < 40 by omega, show i < 40 by omega]
  · rw [getLsbD_rorWord fc v (by decide)]
    simp
  · simp

/-- What `Rol` computes, bit 39 out into `fc[0]` and `fc[0]` in at bit 0, is the rotation left
    of the carry word. -/
theorem rotateLeft_carryWord (fc : Bool) (v : BitVec 64) :
    (carryWord fc v).rotateLeft 1 = carryWord (v.getLsbD 39) (v <<< 1 ||| (if fc then 1 else 0)) := by
  refine eq_of_getLsbD_lt fun i hi => ?_
  rw [getLsbD_rotateLeft_41 _ _ hi, getLsbD_carryWord, getLsbD_carryWord]
  rcases (show i = 0 ∨ (0 < i ∧ i < 40) ∨ i = 40 by omega) with rfl | h | rfl
  · rw [getLsbD_rolWord fc v (by decide)]
    simp
  · rw [show (i + (41 - 1 % 41)) % 41 = i - 1 by omega, getLsbD_rolWord fc v h.2]
    simp [show i - 1 ≠ 40 by omega, show i ≠ 40 by omega, show i ≠ 0 by omega, h.2,
      show i - 1 < 40 by omega]
  · simp

/-- The store of `ror` and `rol`: `fc[0]` and accumulator `i` from `p`, with the flags of
    `SetAcc_NoSaturation`. -/
def Core.setCarryAcc (s : Core) (i : Acc) (p : Bool × BitVec 64) : Core :=
  { s with regs := { accFlags p.2 { s.regs with fc := Function.update s.regs.fc 0 p.1 } with
                     acc := Function.update s.regs.acc i p.2 } }

@[simp] theorem Core.setCarryAcc_fc (s : Core) (i : Acc) (p : Bool × BitVec 64) :
    (s.setCarryAcc i p).regs.fc 0 = p.1 := by
  simp [Core.setCarryAcc]

@[simp] theorem Core.setCarryAcc_acc (s : Core) (i : Acc) (p : Bool × BitVec 64) :
    (s.setCarryAcc i p).regs.acc i = p.2 := by
  simp [Core.setCarryAcc]

section Wp

variable {Q : Unit → Core → Prop} {E : String → Prop} {s : Core} {a : RegName} {i : Acc}

theorem and_one_ne_zero (x : BitVec 64) : (x &&& 1 != 0) = x.getLsbD 0 := by
  rw [← shiftRight_and_one_ne_zero_eq_getLsbD x 0, BitVec.ushiftRight_zero]

/-- One `ror`: the carry word rotated right. -/
theorem wp_modaOp_ror (h : accSlot a = some i) :
    wp (modaOp .Ror a) Q E s =
      Q () (s.setCarryAcc i (fromCarryWord ((carryWord (s.regs.fc 0) (s.regs.acc i)).rotateRight 1))) := by
  rw [rotateRight_carryWord, fromCarryWord_carryWord]
  simp only [modaOp, wp_bind, wp_getAcc h, wp_regs, wp_setRegs, wp_pure]
  rw [wp_setAccNoSaturation h (canon_SignExtend _ (by decide) le_rfl), and_one_ne_zero,
    getLsbD_and_mask40, BitVec.getLsbD_setWidth]
  rfl

/-- One `rol`: the carry word rotated left. -/
theorem wp_modaOp_rol (h : accSlot a = some i) :
    wp (modaOp .Rol a) Q E s =
      Q () (s.setCarryAcc i (fromCarryWord ((carryWord (s.regs.fc 0) (s.regs.acc i)).rotateLeft 1))) := by
  rw [rotateLeft_carryWord, fromCarryWord_carryWord]
  simp only [modaOp, wp_bind, wp_getAcc h, wp_regs, wp_setRegs, wp_pure]
  rw [wp_setAccNoSaturation h (canon_SignExtend _ (by decide) le_rfl),
    shiftRight_and_one_ne_zero_eq_getLsbD]
  rfl

/-- `Moda` once its condition has passed. -/
theorem wp_moda_of_pass {ops : RegisterMethods} {cond : Cond} (hc : ∀ r, ops.ConditionPass cond r = true)
    (op : ModaOp) : wp (moda ops op a cond) Q E s = wp (modaOp op a) Q E s := by
  simp only [moda, wp_bind, wp_regs, hc, if_true]

end Wp

/-! ## Repeated rotations -/

/-- A handler that applies `step` to the carry word, run `n` times from a canonical
    accumulator, applies `step` `n` times. -/
theorem wp_repeatHandler_carry {h : M Unit} {i : Acc} (step : BitVec 41 → BitVec 41)
    (hh : ∀ (Q : Unit → Core → Prop) (E : String → Prop) (s : Core), wp h Q E s =
      Q () (s.setCarryAcc i (fromCarryWord (step (carryWord (s.regs.fc 0) (s.regs.acc i))))))
    (n : Nat) (s : Core) (hv : Canon (s.regs.acc i)) :
    wp (repeatHandler h n) (fun _ t => (t.regs.fc 0, t.regs.acc i) =
      fromCarryWord (step^[n] (carryWord (s.regs.fc 0) (s.regs.acc i)))) (fun _ => False) s := by
  induction n generalizing s with
  | zero => exact (fromCarryWord_carryWord_of_canon _ hv).symm
  | succ n ih =>
    rw [repeatHandler, wp_bind, hh, Function.iterate_succ_apply]
    generalize step (carryWord (s.regs.fc 0) (s.regs.acc i)) = w
    have hv' : Canon ((s.setCarryAcc i (fromCarryWord w)).regs.acc i) := by
      rw [Core.setCarryAcc_acc]; exact canon_SignExtend _ (by decide) le_rfl
    simpa only [Core.setCarryAcc_fc, Core.setCarryAcc_acc, carryWord_fromCarryWord] using ih _ hv'

theorem carryWord_eq_of_pair {fc : Bool} {v : BitVec 64} {w : BitVec 41} (h : (fc, v) = fromCarryWord w) :
    carryWord fc v = w := by
  rw [show fc = (fromCarryWord w).1 from congrArg Prod.fst h,
    show v = (fromCarryWord w).2 from congrArg Prod.snd h, carryWord_fromCarryWord]

theorem canon_of_pair {fc : Bool} {v : BitVec 64} {w : BitVec 41} (h : (fc, v) = fromCarryWord w) :
    Canon v := by
  rw [show v = (fromCarryWord w).2 from congrArg Prod.snd h]
  exact canon_SignExtend _ (by decide) le_rfl

/-- `n` executions of `ror a` rotate the carry word `fc[0] : a` right by `n`, and `n` of
    `rol a` rotate it left by `n`; neither ever fails. `n` of `rol` undo `n` of `ror`, and 41
    of `ror`, or of `rol`, give back the accumulator and `fc[0]`. -/
theorem moda_rotate (ops : RegisterMethods) (cond : Cond) (hc : ∀ r, ops.ConditionPass cond r = true)
    {a : RegName} {i : Acc} (h : accSlot a = some i) (s : Core) (hv : Canon (s.regs.acc i)) (n : Nat) :
    wp (repeatHandler (moda ops .Ror a cond) n) (fun _ t => (t.regs.fc 0, t.regs.acc i) =
      fromCarryWord ((carryWord (s.regs.fc 0) (s.regs.acc i)).rotateRight n)) (fun _ => False) s ∧
    wp (repeatHandler (moda ops .Rol a cond) n) (fun _ t => (t.regs.fc 0, t.regs.acc i) =
      fromCarryWord ((carryWord (s.regs.fc 0) (s.regs.acc i)).rotateLeft n)) (fun _ => False) s ∧
    wp (do repeatHandler (moda ops .Ror a cond) n; repeatHandler (moda ops .Rol a cond) n)
      (fun _ t => t.regs.fc 0 = s.regs.fc 0 ∧ t.regs.acc i = s.regs.acc i) (fun _ => False) s ∧
    wp (repeatHandler (moda ops .Ror a cond) 41)
      (fun _ t => t.regs.fc 0 = s.regs.fc 0 ∧ t.regs.acc i = s.regs.acc i) (fun _ => False) s ∧
    wp (repeatHandler (moda ops .Rol a cond) 41)
      (fun _ t => t.regs.fc 0 = s.regs.fc 0 ∧ t.regs.acc i = s.regs.acc i) (fun _ => False) s := by
  have hror : ∀ n s, Canon (s.regs.acc i) → wp (repeatHandler (moda ops .Ror a cond) n)
      (fun _ t => (t.regs.fc 0, t.regs.acc i) =
        fromCarryWord ((carryWord (s.regs.fc 0) (s.regs.acc i)).rotateRight n)) (fun _ => False) s :=
    fun n s hv => by
      simpa only [iterate_rotateRight_41] using wp_repeatHandler_carry (fun x => x.rotateRight 1)
        (fun _ _ _ => by rw [wp_moda_of_pass hc, wp_modaOp_ror h]) n s hv
  have hrol : ∀ n s, Canon (s.regs.acc i) → wp (repeatHandler (moda ops .Rol a cond) n)
      (fun _ t => (t.regs.fc 0, t.regs.acc i) =
        fromCarryWord ((carryWord (s.regs.fc 0) (s.regs.acc i)).rotateLeft n)) (fun _ => False) s :=
    fun n s hv => by
      simpa only [iterate_rotateLeft_41] using wp_repeatHandler_carry (fun x => x.rotateLeft 1)
        (fun _ _ _ => by rw [wp_moda_of_pass hc, wp_modaOp_rol h]) n s hv
  have hback : fromCarryWord (carryWord (s.regs.fc 0) (s.regs.acc i)) = (s.regs.fc 0, s.regs.acc i) :=
    fromCarryWord_carryWord_of_canon _ hv
  refine ⟨hror n s hv, hrol n s hv, ?_, ?_, ?_⟩
  · rw [wp_bind]
    refine wp_mono (hror n s hv) (fun _ t ht => wp_mono (hrol n t (canon_of_pair ht))
      (fun _ u hu => ?_) fun _ h => h) fun _ h => h
    rw [carryWord_eq_of_pair ht, rotateLeft_rotateRight_41, hback] at hu
    exact Prod.ext_iff.1 hu
  · refine wp_mono (hror 41 s hv) (fun _ t ht => ?_) fun _ h => h
    rw [← BitVec.rotateRight_mod_eq_rotateRight, Nat.mod_self, rotateRight_zero_41, hback] at ht
    exact Prod.ext_iff.1 ht
  · refine wp_mono (hrol 41 s hv) (fun _ t ht => ?_) fun _ h => h
    rw [← BitVec.rotateLeft_mod_eq_rotateLeft, Nat.mod_self, rotateLeft_zero_41, hback] at ht
    exact Prod.ext_iff.1 ht

/-- `a0` negative with bit 0 set, and `fc[0]` set. -/
def rotateCore : Core :=
  { (default : Core) with regs := { (default : Core).regs with
      acc := fun _ => 0xFFFFFF8000000001, fc := fun _ => true } }

/-- `moda_rotate` on `a0` from `rotateCore`, under the condition that `extMethods` always
    passes. -/
theorem moda_rotate_a0 :
    (∀ r, extMethods.ConditionPass 0 r = true) ∧ accSlot .a0 = some (.a 0) ∧
    Canon (rotateCore.regs.acc (.a 0)) ∧
    wp (repeatHandler (moda extMethods .Ror .a0 0) 3) (fun _ t => (t.regs.fc 0, t.regs.acc (.a 0)) =
      fromCarryWord ((carryWord (rotateCore.regs.fc 0) (rotateCore.regs.acc (.a 0))).rotateRight 3))
      (fun _ => False) rotateCore ∧
    wp (repeatHandler (moda extMethods .Rol .a0 0) 3) (fun _ t => (t.regs.fc 0, t.regs.acc (.a 0)) =
      fromCarryWord ((carryWord (rotateCore.regs.fc 0) (rotateCore.regs.acc (.a 0))).rotateLeft 3))
      (fun _ => False) rotateCore ∧
    wp (do repeatHandler (moda extMethods .Ror .a0 0) 3; repeatHandler (moda extMethods .Rol .a0 0) 3)
      (fun _ t => t.regs.fc 0 = rotateCore.regs.fc 0 ∧ t.regs.acc (.a 0) = rotateCore.regs.acc (.a 0))
      (fun _ => False) rotateCore ∧
    wp (repeatHandler (moda extMethods .Ror .a0 0) 41)
      (fun _ t => t.regs.fc 0 = rotateCore.regs.fc 0 ∧ t.regs.acc (.a 0) = rotateCore.regs.acc (.a 0))
      (fun _ => False) rotateCore ∧
    wp (repeatHandler (moda extMethods .Rol .a0 0) 41)
      (fun _ t => t.regs.fc 0 = rotateCore.regs.fc 0 ∧ t.regs.acc (.a 0) = rotateCore.regs.acc (.a 0))
      (fun _ => False) rotateCore :=
  ⟨fun _ => rfl, rfl, by decide,
    moda_rotate extMethods 0 (fun _ => rfl) (show accSlot .a0 = some (.a 0) from rfl) rotateCore
      (by decide) 3⟩

end Teakra
