import Teakra.Interpreter.Agu

/-!
# What the accumulator path computes

The helpers through which handlers read and write the accumulators (`GetAcc`, `SetAccFlag`,
`SetAcc_Simple`, `SetAcc`, `SetAcc_NoSaturation`, `interpreter.h` lines 2942–3101), and
`LoadFromMemory` and `ProductToBus40`, each as one equation for its weakest precondition. The
proofs about handlers cite these and never unfold the helpers.

`SetAccFlag` only fails on a word that is not canonical; every equation for a write assumes a
canonical word, and `accFlags` is the flag update it then makes.
-/

namespace Teakra

/-- The flags `SetAccFlag` (lines 3069–3078) derives from a canonical `value`. -/
def accFlags (value : BitVec 64) (r : RegisterState) : RegisterState :=
  let fz := value == 0
  let fe := value != SignExtend 32 value
  { r with fz := fz, fm := value >>> 39 != 0, fe := fe,
           fn := fz || (!fe && (value.getLsbD 31 ^^ value.getLsbD 30)) }

@[simp] theorem accFlags_acc (v : BitVec 64) (r : RegisterState) : (accFlags v r).acc = r.acc := rfl
@[simp] theorem accFlags_fv (v : BitVec 64) (r : RegisterState) : (accFlags v r).fv = r.fv := rfl
@[simp] theorem accFlags_fc (v : BitVec 64) (r : RegisterState) : (accFlags v r).fc = r.fc := rfl
@[simp] theorem accFlags_fls (v : BitVec 64) (r : RegisterState) :
    (accFlags v r).fls = r.fls := rfl
@[simp] theorem accFlags_page (v : BitVec 64) (r : RegisterState) :
    (accFlags v r).page = r.page := rfl
@[simp] theorem accFlags_sar (v : BitVec 64) (r : RegisterState) : (accFlags v r).sar = r.sar := rfl
@[simp] theorem accFlags_s (v : BitVec 64) (r : RegisterState) : (accFlags v r).s = r.s := rfl
@[simp] theorem accFlags_fe (v : BitVec 64) (r : RegisterState) :
    (accFlags v r).fe = (v != SignExtend 32 v) := rfl
@[simp] theorem accFlags_fn (v : BitVec 64) (r : RegisterState) :
    (accFlags v r).fn = (v == 0 || (!(v != SignExtend 32 v) && (v.getLsbD 31 ^^ v.getLsbD 30))) :=
  rfl

section Wp

variable {α : Type} {E : String → Prop} {s : Core} {name : RegName} {i : Acc}

@[simp] theorem wp_accOf {Q : Acc → Core → Prop} (h : accSlot name = some i) :
    wp (accOf name) Q E s = Q i s := by
  simp only [accOf, h, wp_pure]

theorem wp_getAcc {Q : BitVec 64 → Core → Prop} (h : accSlot name = some i) :
    wp (getAcc name) Q E s = Q (s.regs.acc i) s := by
  simp only [getAcc, wp_bind, wp_accOf h, wp_regs, wp_pure]

@[simp] theorem wp_loadFromMemory {Q : BitVec 16 → Core → Prop} (addr : MemOperand) :
    wp (loadFromMemory addr) Q E s = Q (s.mem.data (addr.address s.regs)) s := by
  simp only [loadFromMemory, wp_bind, wp_regs, wp_dataRead]

theorem wp_setAccFlag {Q : Unit → Core → Prop} {v : BitVec 64} (hv : Canon v) :
    wp (setAccFlag v) Q E s = Q () { s with regs := accFlags v s.regs } := by
  have : ¬ v ≠ SignExtend 40 v := not_not.2 hv.symm
  simp only [setAccFlag, wp_bind, this, if_false, wp_pure, wp_setRegs, accFlags]

theorem wp_setAccSimple {Q : Unit → Core → Prop} (h : accSlot name = some i) (v : BitVec 64) :
    wp (setAccSimple name v) Q E s =
      Q () { s with regs := { s.regs with acc := Function.update s.regs.acc i v } } := by
  simp only [setAccSimple, wp_bind, wp_accOf h, wp_setRegs]

/-- `SetAcc_NoSaturation` of a canonical word: the flags of the word, then the word. -/
theorem wp_setAccNoSaturation {Q : Unit → Core → Prop} (h : accSlot name = some i) {v : BitVec 64}
    (hv : Canon v) :
    wp (setAccNoSaturation name v) Q E s =
      Q () { s with regs := { accFlags v s.regs with acc := Function.update s.regs.acc i v } } := by
  simp only [setAccNoSaturation, setAcc, wp_bind, wp_setAccFlag hv, Bool.not_true,
    Bool.false_eq_true, if_false, wp_setAccSimple h, accFlags_acc]

/-- `SaturateAcc(value, true)`, the store path: unless `sar[1]` disables it, clamp to 32 bits
    and set `fls` when that changes the word. -/
theorem wp_saturateAcc_store {Q : BitVec 64 → Core → Prop} (v : BitVec 64) :
    wp (saturateAcc v true) Q E s =
      Q (if s.regs.sar 1 then v else saturateAccUnconditionalNoFlag v)
        { s with regs := { s.regs with
          fls := s.regs.fls || (!s.regs.sar 1 && v != SignExtend 32 v) } } := by
  simp only [saturateAcc, sarIndex, if_true, wp_bind, wp_regs]
  cases h1 : s.regs.sar 1
  · simp only [Bool.not_false, if_true, saturateAccUnconditional, wp_bind, wp_ite, wp_pure,
      wp_setRegs, Bool.true_and, bne_iff_ne]
    by_cases h2 : v ≠ SignExtend 32 v
    · simp only [if_pos h2, Bool.false_eq_true, if_false, Bool.not_false, Bool.true_and,
        bne_iff_ne.2 h2, Bool.or_true]
    · simp only [h2, if_false, Bool.false_eq_true, Bool.not_false, Bool.true_and,
        bne_eq_false_iff_eq.2 (not_not.1 h2), Bool.or_false]
  · simp only [Bool.not_true, Bool.false_eq_true, if_false, if_true, wp_pure, Bool.false_and,
      Bool.or_false]

/-- `SetAcc(name, value, false)` of a canonical word: the flags of the word, then the word,
    clamped as `SaturateAcc` does on the store path. -/
theorem wp_setAcc {Q : Unit → Core → Prop} (h : accSlot name = some i) {v : BitVec 64}
    (hv : Canon v) :
    wp (setAcc name v false) Q E s =
      Q () { s with regs := { accFlags v s.regs with
        acc := Function.update s.regs.acc i (if s.regs.sar 1 then v else saturateAccUnconditionalNoFlag v),
        fls := s.regs.fls || (!s.regs.sar 1 && v != SignExtend 32 v) } } := by
  simp only [setAcc, wp_bind, wp_setAccFlag hv, Bool.not_false, if_true, wp_saturateAcc_store,
    wp_setAccSimple h, accFlags_sar, accFlags_fls, accFlags_acc]

end Wp

end Teakra
