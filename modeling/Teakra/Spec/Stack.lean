import Teakra.Handlers.Control
import Teakra.Spec.Shift

/-!
# The data stack

The `push` handlers write `mem.DataWrite(--regs.sp, value)` and the `pop` handlers read
`mem.DataRead(regs.sp++)` (`interpreter.h`, lines 1218–1338). The stack grows down from `sp`,
one word per push.

Results:
* `popFields_pushFields`: each push writes its register below `sp`, each pop reads the word at
  `sp` into its register; so popping registers in the reverse order of their pushes
  (`push_r6`, `push_repc`, `push_x0`, ... then the matching `pop`s) gives back every register,
  `sp` included, and writes no data word outside the words the pushes used below `sp`.
* `popa_pusha`: `pusha a; popa a` gives back `sp`, and the accumulator saturated to 32 bits
  (or, with `sar[0]` set, its low 32 bits sign-extended), whatever `sar[1]` says about the
  saturation of the store.
-/

namespace Teakra

/-! ## Pushing and popping registers -/

/-- The pushes of the registers `ds`, in order. -/
def pushFields : List DirectReg → M Unit
  | [] => pure ()
  | d :: ds => do pushField d; pushFields ds

/-- The pops into the registers `ds`, in order. -/
def popFields : List DirectReg → M Unit
  | [] => pure ()
  | d :: ds => do popField d; popFields ds

namespace DirectReg

variable {d : DirectReg} {r : RegisterState}

@[simp] theorem set_get : d.set (d.get r) r = r := by
  cases d <;> simp [set, get, Function.update_eq_self]

@[simp] theorem get_set (v : BitVec 16) : d.get (d.set v r) = v := by
  cases d <;> simp [set, get]

@[simp] theorem get_setSp (v : BitVec 16) : d.get { r with sp := v } = d.get r := by
  cases d <;> rfl

theorem set_setSp (x v : BitVec 16) : d.set x { r with sp := v } = { d.set x r with sp := v } := by
  cases d <;> rfl

end DirectReg

/-- The state after `mem.DataWrite(--regs.sp, v)`. -/
def Core.pushed (s : Core) (v : BitVec 16) : Core :=
  { regs := { s.regs with sp := s.regs.sp - 1 },
    mem := { s.mem with data := Function.update s.mem.data (s.regs.sp - 1) v } }

@[simp] theorem Core.pushed_regs (s : Core) (v : BitVec 16) :
    (s.pushed v).regs = { s.regs with sp := s.regs.sp - 1 } := rfl
@[simp] theorem Core.pushed_data (s : Core) (v : BitVec 16) :
    (s.pushed v).mem.data = Function.update s.mem.data (s.regs.sp - 1) v := rfl

section Wp

variable {Q : Unit → Core → Prop} {E : String → Prop} {s : Core}

theorem wp_pushField (d : DirectReg) : wp (pushField d) Q E s = Q () (s.pushed (d.get s.regs)) := by
  simp only [pushField, wp_bind, wp_regs, wp_pushWord]; rfl

theorem wp_popField (d : DirectReg) :
    wp (popField d) Q E s =
      Q () { s with regs := d.set (s.mem.data s.regs.sp) { s.regs with sp := s.regs.sp + 1 } } := by
  simp only [popField, wp_bind, wp_popWord, wp_setRegs]

theorem wp_popFields_append (xs ys : List DirectReg) :
    wp (popFields (xs ++ ys)) Q E s =
      wp (popFields xs) (fun _ t => wp (popFields ys) Q E t) E s := by
  induction xs generalizing s with
  | nil => simp only [List.nil_append, popFields, wp_pure]
  | cons d xs ih =>
    rw [List.cons_append]
    simp only [popFields, wp_bind, ih]

end Wp

/-- The words below `sp` that `n` pushes write are those at distance 1 to `n`; every other
    word is left alone. -/
def Untouched (sp : BitVec 16) (n : Nat) (a : BitVec 16) : Prop :=
  (sp - a).toNat = 0 ∨ n < (sp - a).toNat

theorem untouched_step {sp a : BitVec 16} {n : Nat} (hn : n + 1 < 2 ^ 16)
    (h : Untouched sp (n + 1) a) : Untouched (sp - 1) n a ∧ a ≠ sp - 1 := by
  unfold Untouched at *
  have h1 : (1 : BitVec 16).toNat = 1 := rfl
  refine ⟨?_, fun ha => ?_⟩
  · simp only [BitVec.toNat_sub, h1] at h ⊢
    omega
  · subst ha
    simp only [BitVec.toNat_sub, h1] at h
    omega

/-- Each push writes its register at `sp - 1` and moves `sp` down, and each pop reads the word
    at `sp` into its register and moves `sp` up, leaving every other register and the memory
    alone. So popping registers in the reverse order of their pushes gives back every register,
    `sp` included, and no data word outside the `ds.length` words below `sp` changes. -/
theorem popFields_pushFields (ds : List DirectReg) (s : Core) (hlen : ds.length < 2 ^ 16) :
    (∀ d, wp (pushField d)
      (fun _ t => t.regs = { s.regs with sp := s.regs.sp - 1 } ∧
        t.mem.data = Function.update s.mem.data (s.regs.sp - 1) (d.get s.regs))
      (fun _ => False) s) ∧
    (∀ d, wp (popField d)
      (fun _ t => d.get t.regs = s.mem.data s.regs.sp ∧
        t.regs = d.set (d.get t.regs) { s.regs with sp := s.regs.sp + 1 } ∧ t.mem = s.mem)
      (fun _ => False) s) ∧
    wp (do pushFields ds; popFields ds.reverse)
      (fun _ t => t.regs = s.regs ∧
        ∀ a, Untouched s.regs.sp ds.length a → t.mem.data a = s.mem.data a)
      (fun _ => False) s := by
  refine ⟨fun d => by rw [wp_pushField]; exact ⟨rfl, rfl⟩,
    fun d => by rw [wp_popField]; exact ⟨DirectReg.get_set _, by rw [DirectReg.get_set], rfl⟩, ?_⟩
  induction ds generalizing s with
  | nil => exact ⟨rfl, fun _ _ => rfl⟩
  | cons d ds ih =>
    rw [List.length_cons] at hlen
    simp only [pushFields, popFields, List.reverse_cons, wp_bind, wp_popFields_append,
      wp_pushField]
    have ih' := ih (s.pushed (d.get s.regs)) (by omega)
    rw [wp_bind] at ih'
    refine wp_mono ih' (fun _ t ht => wp_mono ht
      (fun _ u ⟨hr, hm⟩ => ?_) fun _ h => h) fun _ h => h
    simp only [Core.pushed_regs, Core.pushed_data] at hr hm
    simp only [popFields, wp_bind, wp_popField, wp_pure, hr]
    refine ⟨?_, fun a ha => ?_⟩
    · rw [hm _ (Or.inl (by simp)), Function.update_same, BitVec.sub_add_cancel,
        DirectReg.set_setSp, DirectReg.set_get]
    · obtain ⟨ha', hne⟩ := untouched_step hlen ha
      rw [hm a ha', Function.update_noteq hne]

/-- `sp = 0x0800`, non-zero `r6`, `x0` and `repc`, and each data word holding its address. -/
def stackCore : Core :=
  { regs := { (default : Core).regs with sp := 0x0800, repc := 7, r := fun _ => 0x1234,
                                         x := fun _ => 0xBEEF },
    mem := { (default : Core).mem with data := fun a => a } }

/-- The registers `r6`, `x0` and `repc` pushed and popped back. -/
theorem popFields_pushFields_three :
    [DirectReg.r6, .x0, .repc].length < 2 ^ 16 ∧
    (∀ d, wp (pushField d)
      (fun _ t => t.regs = { stackCore.regs with sp := stackCore.regs.sp - 1 } ∧
        t.mem.data = Function.update stackCore.mem.data (stackCore.regs.sp - 1) (d.get stackCore.regs))
      (fun _ => False) stackCore) ∧
    (∀ d, wp (popField d)
      (fun _ t => d.get t.regs = stackCore.mem.data stackCore.regs.sp ∧
        t.regs = d.set (d.get t.regs) { stackCore.regs with sp := stackCore.regs.sp + 1 } ∧
        t.mem = stackCore.mem)
      (fun _ => False) stackCore) ∧
    wp (do pushFields [.r6, .x0, .repc]; popFields [.r6, .x0, .repc].reverse)
      (fun _ t => t.regs = stackCore.regs ∧
        ∀ a, Untouched stackCore.regs.sp 3 a → t.mem.data a = stackCore.mem.data a)
      (fun _ => False) stackCore :=
  ⟨by decide, popFields_pushFields [.r6, .x0, .repc] stackCore (by decide)⟩

/-! ## `pusha` and `popa` -/

section Wp

variable {Q : Unit → Core → Prop} {E : String → Prop} {s : Core}

/-- `SaturateAcc(value, false)`, the load path: unless `sar[0]` disables it, clamp to 32 bits
    and set `fls` when that changes the word. -/
theorem wp_saturateAcc_load {Q : BitVec 64 → Core → Prop} (v : BitVec 64) :
    wp (saturateAcc v false) Q E s =
      Q (if s.regs.sar 0 then v else saturateAccUnconditionalNoFlag v)
        { s with regs := { s.regs with
          fls := s.regs.fls || (!s.regs.sar 0 && v != SignExtend 32 v) } } := by
  simp only [saturateAcc, sarIndex, Bool.false_eq_true, if_false, wp_bind, wp_regs]
  cases h1 : s.regs.sar 0
  · simp only [Bool.not_false, if_true, saturateAccUnconditional, wp_bind, wp_ite, wp_pure,
      wp_setRegs, Bool.true_and, bne_iff_ne]
    by_cases h2 : v ≠ SignExtend 32 v
    · simp only [if_pos h2, Bool.false_eq_true, if_false, Bool.not_false, Bool.true_and,
        bne_iff_ne.2 h2, Bool.or_true]
    · simp only [h2, if_false, Bool.false_eq_true, Bool.not_false, Bool.true_and,
        bne_eq_false_iff_eq.2 (not_not.1 h2), Bool.or_false]
  · simp only [Bool.not_true, Bool.false_eq_true, if_false, if_true, wp_pure, Bool.false_and,
      Bool.or_false]

end Wp

/-- The two halves `pusha` pushes, joined again as `popa` joins them, are the 32-bit word. -/
theorem joinHalves (x : BitVec 32) :
    ((x >>> 16).setWidth 16).setWidth 64 <<< 16 ||| ((x &&& 0xFFFF).setWidth 16).setWidth 64 =
      x.setWidth 64 := by
  refine eq_of_getLsbD_lt fun i hi => ?_
  simp only [BitVec.getLsbD_or, BitVec.getLsbD_shiftLeft, BitVec.getLsbD_setWidth,
    BitVec.getLsbD_ushiftRight, BitVec.getLsbD_and,
    show (0xFFFF : BitVec 32) = BitVec.ofNat 32 (2 ^ 16 - 1) from rfl, BitVec.getLsbD_ofNat,
    Nat.testBit_two_pow_sub_one]
  by_cases h16 : i < 16
  · simp [h16, hi, show i < 32 by omega]
  · by_cases h32 : i < 32
    · simp [h16, h32, hi, show i - 16 < 16 by omega, show 16 + (i - 16) = i by omega,
        show i - 16 < 64 by omega]
    · simp [h16, h32, show ¬ i - 16 < 16 by omega, BitVec.getLsbD_ge x i (by omega)]

/-- A saturated word already has 32 bits. -/
theorem SignExtend_32_saturate (v : BitVec 64) :
    SignExtend 32 (saturateAccUnconditionalNoFlag v) = saturateAccUnconditionalNoFlag v := by
  unfold saturateAccUnconditionalNoFlag
  split_ifs with h1 h2
  · decide
  · decide
  · exact (not_not.1 h1).symm

/-- A 32-bit word is left as it is by the saturation. -/
theorem saturate_SignExtend_32 (w : BitVec 64) :
    saturateAccUnconditionalNoFlag (SignExtend 32 w) = SignExtend 32 w :=
  if_neg (not_not.2 (SignExtend_idem w (by decide)).symm)

theorem SignExtend_32_low (w : BitVec 64) :
    SignExtend 32 (((w &&& 0xFFFFFFFF).setWidth 32).setWidth 64) = SignExtend 32 w :=
  eq_of_getLsbD_lt fun i hi => by
    simp only [getLsbD_SignExtend _ (show 0 < 32 by decide), BitVec.getLsbD_setWidth,
      BitVec.getLsbD_and, show (0xFFFFFFFF : BitVec 64) = BitVec.ofNat 64 (2 ^ 32 - 1) from rfl,
      BitVec.getLsbD_ofNat, Nat.testBit_two_pow_sub_one]
    split_ifs with h <;> simp [h, hi, show i < 64 by omega]

/-- `pusha a` then `popa a` gives back `sp`, and accumulator `a` saturated to 32 bits, or, when
    `sar[0]` disables the saturation, its low 32 bits sign-extended. -/
theorem popa_pusha {a : RegName} {i : Acc} (h : accSlot a = some i) (s : Core) :
    wp (do pusha a; popa a)
      (fun _ t => t.regs.sp = s.regs.sp ∧
        t.regs.acc i = if s.regs.sar 0 then SignExtend 32 (s.regs.acc i)
          else saturateAccUnconditionalNoFlag (s.regs.acc i))
      (fun _ => False) s := by
  have hne : s.regs.sp - 1 ≠ s.regs.sp - 1 - 1 := by bv_omega
  simp only [pusha, popa, pushHalves, wp_bind, wp_getAcc h, wp_saturateAcc_load, wp_pushWord,
    wp_popWord, Function.update_same, BitVec.sub_add_cancel]
  rw [wp_setAcc h (canon_SignExtend _ (by decide) (by decide))]
  refine ⟨rfl, ?_⟩
  dsimp only
  rw [Function.update_same, BitVec.sub_add_cancel, Function.update_noteq hne,
    Function.update_same, joinHalves, SignExtend_32_low, saturate_SignExtend_32, ite_self,
    apply_ite (SignExtend 32), SignExtend_32_saturate]

/-- `a0 = 0x1234567890`, above the 32-bit range, with the load saturation on. -/
def pushaCore : Core :=
  { stackCore with regs := { stackCore.regs with acc := fun _ => 0x1234567890 } }

/-- `pusha a0; popa a0` from `pushaCore`. -/
theorem popa_pusha_a0 :
    accSlot .a0 = some (.a 0) ∧
    wp (do pusha .a0; popa .a0)
      (fun _ t => t.regs.sp = pushaCore.regs.sp ∧
        t.regs.acc (.a 0) = if pushaCore.regs.sar 0
          then SignExtend 32 (pushaCore.regs.acc (.a 0))
          else saturateAccUnconditionalNoFlag (pushaCore.regs.acc (.a 0)))
      (fun _ => False) pushaCore :=
  ⟨rfl, popa_pusha (show accSlot .a0 = some (.a 0) from rfl) pushaCore⟩

end Teakra
