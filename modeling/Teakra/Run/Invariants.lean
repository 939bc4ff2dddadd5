import Teakra.Run.Cycle
import Teakra.Spec.LoopStack

/-!
# The two register-file invariants over whole runs

Spec §3 states that every accumulator holds a canonical 40-bit value at every quiescent
point; `SetAccFlag` (`interpreter.h`, lines 3069–3078) checks it, and throws
`"remove this check later"` when it fails. The loop engine relies on a second invariant:
`bcn ≤ 4`, and `lp` set exactly when `bcn ≠ 0`, so that `Run` reads `bkrep_stack[bcn - 1]`
and `BlockRepeat` writes `bkrep_stack[bcn]` inside the four-frame stack.

Both are sound footprints (`canonFootprint_sound`, `loopFootprint_sound`), so the results of
`Teakra.Run.Cycle` apply to them: every handler, `ContextStore`, and every run of `Run` keep
them, whatever the decoder table dispatches to.

Results:
* `accCanon_preserved`: the accumulators stay canonical, and the check of `SetAccFlag`
  never fires.
* `loopInv_preserved`: `bcn ≤ 4` and `lp ↔ bcn ≠ 0` hold after every handler and every run;
  the loop-end bookkeeping never leaves the stack, and `BlockRepeat` only stops with
  `"stack overflow"`. The one exception is `bkreprst` with two or three live frames: its
  `copy_backward` (lines 995–996) writes `bkrep_stack[-1]`, undefined behaviour that the model
  reports as `"out of range"`, from states that satisfy the invariant.

`extMethods` and `demoDecoders` show that the assumptions are met by methods that write the
accumulators and shadow registers, and by a table of handlers that write accumulators.
-/

namespace Teakra

variable {ops : RegisterMethods}

theorem Footprint.Keeps.wp_good {F : Footprint} {α : Type} {m : M α} {P : α → Prop}
    (h : F.Keeps m P) {s : Core} (hs : F.good s) : wp m (fun _ t => F.good t) F.ok s :=
  wp_mono (h s hs) (fun _ _ ht => ht.1) (fun _ he => he)

/-! ## The accumulator invariant -/

/-- The invariant of spec §3: every accumulator is canonical. The only failure it rules out
    is the check of `SetAccFlag`. -/
def canonFootprint : Footprint where
  good s := s.regs.AccCanon
  canonical := True
  ok e := e ≠ checkMessage

theorem RegisterState.AccCanon.update {r : RegisterState} (hr : r.AccCanon) {i : Acc}
    {v : BitVec 64} (hv : Canon v) : { r with acc := Function.update r.acc i v }.AccCanon := by
  intro j
  rcases eq_or_ne j i with rfl | hj
  · simpa only [Function.update_same] using hv
  · simpa only [Function.update_noteq hj] using hr j

theorem canonFootprint_sound (hops : ops.Framed) : Sound ops canonFootprint where
  methods := hops
  set s p v hs := (hops.set p v s.regs).2.2 hs
  step s t hacc _ hs i := by rw [hacc]; exact hs i
  write _ _ _ hv hs := hs.update (hv trivial)
  read s i hs _ := hs i
  check h := absurd trivial h
  fail _ he := he

/-- Every handler and `ContextStore` keep the accumulators canonical, and so does every run
    of `Run`; none of them fails the check of `SetAccFlag`. -/
theorem accCanon_preserved (hops : ops.Framed) (decoders : Decoders)
    (hd : Dispatch ops decoders) :
    (∀ h, Handler ops h → ∀ s : Core, s.regs.AccCanon →
      wp h (fun _ t => t.regs.AccCanon) (· ≠ checkMessage) s) ∧
    (∀ s : Core, s.regs.AccCanon →
      wp (contextStore ops) (fun _ t => t.regs.AccCanon) (· ≠ checkMessage) s) ∧
    (∀ n (s : Core), s.regs.AccCanon →
      wp (run ops decoders n) (fun _ t => t.regs.AccCanon) (· ≠ checkMessage) s) :=
  have hF := canonFootprint_sound hops
  ⟨fun _ hh _ hs => (hh.keeps hF).wp_good hs, fun _ hs => hF.contextStore.wp_good hs,
    fun n _ hs => (hF.run decoders hd n).wp_good hs⟩

/-! ## The loop invariant -/

/-- The invariant of the loop engine. It admits every value into an accumulator, and every
    failure. -/
def loopFootprint : Footprint where
  good s := s.regs.LoopInv
  canonical := False
  ok _ := True

theorem loopFootprint_sound (hops : ops.Framed) : Sound ops loopFootprint where
  methods := hops
  set s p v hs := hs.of_eq (hops.set p v s.regs).1 (hops.set p v s.regs).2.1
  step _ _ _ h hs := h hs
  write _ _ _ _ hs := hs
  read _ _ _ h := h.elim
  check _ := trivial
  fail _ _ := trivial

/-- From the loop invariant, the loop-end bookkeeping of `Run` never fails: the frame it
    reads, `bkrep_stack[bcn - 1]`, is inside the stack. -/
theorem wp_loopStep_of_loopInv {s : Core} (hs : s.regs.LoopInv) :
    wp loopStep (fun _ t => t.regs.LoopInv) (fun _ => False) s := by
  unfold loopStep
  simp only [wp_bind, wp_regs, wp_index4, wp_setRegs, wp_ite, wp_pure]
  obtain ⟨hle, hlp⟩ := hs
  by_cases h : s.regs.lp
  · have h0 : s.regs.bcn.toNat ≠ 0 := fun h0 => (hlp.1 h) (BitVec.eq_of_toNat_eq h0)
    have hlt : (s.regs.bcn - 1).toNat < 4 := by simp [BitVec.toNat_sub]; omega
    simp only [h, if_true, dif_pos hlt]
    split_ifs
    · exact RegisterState.loopInv_pop ⟨hle, hlp⟩ h rfl rfl
    · exact RegisterState.LoopInv.of_eq ⟨hle, hlp⟩ rfl h.symm
    · exact ⟨hle, hlp⟩
  · simp only [h, Bool.false_eq_true, if_false]
    exact ⟨hle, hlp⟩

/-- `BlockRepeat` only fails with `"stack overflow"`: the frame it writes, `bkrep_stack[bcn]`,
    is inside the stack. It leaves the loop invariant established, from any state. -/
theorem wp_blockRepeat_loopInv (lc : BitVec 16) (address : BitVec 32) (s : Core) :
    wp (blockRepeat lc address) (fun _ t => t.regs.LoopInv) (· = "stack overflow") s := by
  unfold blockRepeat
  simp only [wp_bind, wp_regs, wp_index4, wp_setRegs, wp_ite, wp_throw]
  by_cases h : 3 < s.regs.bcn
  · simp only [h, if_true]
  · have h' : s.regs.bcn.toNat < 4 := by rw [BitVec.lt_def] at h; simp at h; omega
    simp only [h, if_false, dif_pos h']
    exact RegisterState.loopInv_push h rfl rfl

/-- With two or three live frames, `bkreprst` in either addressing form reaches the write of
    `bkrep_stack[-1]` and nothing else. -/
theorem wp_bkreprst_out_of_range {s : Core} (hlp : s.regs.lp = true)
    (hbcn : s.regs.bcn = 2 ∨ s.regs.bcn = 3) :
    wp bkreprstMemsp (fun _ _ => False) (· = "out of range") s ∧
    ∀ a, wp (bkreprst a) (fun _ _ => False) (· = "out of range") s :=
  ⟨wp_restoreBlockRepeat_out_of_range .sp s hlp hbcn, fun _ => by
    rw [bkreprst, wp_bind, wp_regs]
    exact wp_restoreBlockRepeat_out_of_range _ s hlp hbcn⟩

/-- Every handler and every run of `Run` keep `bcn ≤ 4` and `lp ↔ bcn ≠ 0`; the frame `Run`
    reads at the end of a loop body and the frame `BlockRepeat` writes both lie inside the
    four-frame stack. A cycle that runs `bkreprst` with two or three live frames does not keep
    them: it ends in the out-of-range write of `copy_backward`. -/
theorem loopInv_preserved (hops : ops.Framed) (decoders : Decoders)
    (hd : Dispatch ops decoders) :
    (∀ h, Handler ops h → ∀ s : Core, s.regs.LoopInv →
      wp h (fun _ t => t.regs.LoopInv) (fun _ => True) s) ∧
    (∀ n (s : Core), s.regs.LoopInv →
      wp (run ops decoders n) (fun _ t => t.regs.LoopInv) (fun _ => True) s) ∧
    (∀ s : Core, s.regs.LoopInv → wp loopStep (fun _ t => t.regs.LoopInv) (fun _ => False) s) ∧
    (∀ lc address (s : Core),
      wp (blockRepeat lc address) (fun _ t => t.regs.LoopInv) (· = "stack overflow") s) ∧
    (∀ s : Core, s.regs.lp = true → (s.regs.bcn = 2 ∨ s.regs.bcn = 3) →
      wp bkreprstMemsp (fun _ _ => False) (· = "out of range") s ∧
      ∀ a, wp (bkreprst a) (fun _ _ => False) (· = "out of range") s) :=
  have hF := loopFootprint_sound hops
  ⟨fun _ hh _ hs => (hh.keeps hF).wp_good hs, fun n _ hs => (hF.run decoders hd n).wp_good hs,
    fun _ => wp_loopStep_of_loopInv, wp_blockRepeat_loopInv, fun _ => wp_bkreprst_out_of_range⟩

/-! ## Methods and a decoder table that satisfy the assumptions -/

/-- Methods of `register.h` that read every packed register as 0 and ignore every write. -/
def inertMethods : RegisterMethods where
  ConditionPass _ _ := true
  Get _ _ := 0
  Set _ _ r := r
  ShadowStore r := r
  ShadowRestore r := r
  ShadowSwap r := r
  SwapAllArArp r := r
  SwapAr _ r := r
  SwapArp _ r := r

theorem inertMethods_framed : inertMethods.Framed where
  set _ _ _ := ⟨rfl, rfl, id⟩
  shadowStore _ := ⟨rfl, rfl, rfl⟩
  shadowRestore _ := ⟨rfl, rfl, rfl⟩
  shadowSwap _ := ⟨rfl, rfl, rfl⟩
  swapAllArArp _ := ⟨rfl, rfl, rfl⟩
  swapAr _ _ := ⟨rfl, rfl, rfl⟩
  swapArp _ _ := ⟨rfl, rfl, rfl⟩

/-- A write of the four extension bits `v[15:12]` into bits 35:32 of an accumulator, which
    is then sign-extended from bit 35. -/
def extWrite (a : BitVec 64) (v : BitVec 16) : BitVec 64 :=
  SignExtend 36 ((a &&& 0xFFFFFFFF) ||| ((v >>> 12).setWidth 64 <<< 32))

/-- Methods of `register.h` with effects: condition 0 always passes and the others test `fz`;
    `st0` and `st1` hold the extension bits of `a0` and `a1`, and writing them sign-extends the
    accumulator; the shadow store and restore save `sv` and `mixp` in hidden storage; the
    shadow swap exchanges `r1` with its shadow `r1b`. -/
def extMethods : RegisterMethods where
  ConditionPass c r := decide (c = 0) || r.fz
  Get p r := match p with
    | .st0 => ((r.acc (.a 0) >>> 32).setWidth 16 &&& 0xF) <<< 12
    | .st1 => ((r.acc (.a 1) >>> 32).setWidth 16 &&& 0xF) <<< 12
    | _ => 0
  Set p v r := match p with
    | .st0 => { r with acc := Function.update r.acc (.a 0) (extWrite (r.acc (.a 0)) v) }
    | .st1 => { r with acc := Function.update r.acc (.a 1) (extWrite (r.acc (.a 1)) v) }
    | _ => r
  ShadowStore r := { r with hidden := Function.update (Function.update r.hidden 0 r.sv) 1 r.mixp }
  ShadowRestore r := { r with sv := r.hidden 0, mixp := r.hidden 1 }
  ShadowSwap r := { r with r := Function.update r.r 1 r.r1b, r1b := r.r 1 }
  SwapAllArArp r := r
  SwapAr _ r := r
  SwapArp _ r := r

theorem extMethods_framed : extMethods.Framed where
  set p v r := by
    cases p <;> first
      | exact ⟨rfl, rfl, id⟩
      | exact ⟨rfl, rfl, fun h => h.update (canon_SignExtend _ (by decide) (by decide))⟩
  shadowStore _ := ⟨rfl, rfl, rfl⟩
  shadowRestore _ := ⟨rfl, rfl, rfl⟩
  shadowSwap _ := ⟨rfl, rfl, rfl⟩
  swapAllArArp _ := ⟨rfl, rfl, rfl⟩
  swapAr _ _ := ⟨rfl, rfl, rfl⟩
  swapArp _ _ := ⟨rfl, rfl, rfl⟩

/-- A decoder table in which every opcode is a one-word `nop`. -/
def nopDecoders : Decoders := fun _ => ⟨false, fun _ _ => nop⟩

theorem nopDecoders_dispatch : Dispatch ops nopDecoders := fun _ _ => .alu .nop

/-- A decoder table whose first opcodes write accumulators or the loop stack: `add a0, b0`,
    `mov 0xF000, st0` (through `extMethods`), `movs 0x1234, a1` shifted by 4, a `bkrep` with
    its expansion word, and `bkreprst` on `sp`. Every other opcode is undefined. -/
def demoDecoders : Decoders := fun opcode =>
  if opcode = 0 then ⟨false, fun _ _ => accAddSub false .a0 .b0⟩
  else if opcode = 1 then ⟨false, fun _ _ => mov16 extMethods (.imm 0xF000) (.bus .st0)⟩
  else if opcode = 2 then ⟨false, fun _ _ => movsGeneric extMethods (.imm 0x1234) (some 4) .a1⟩
  else if opcode = 3 then ⟨true, fun _ e => bkrepImm8 2 e⟩
  else if opcode = 4 then ⟨false, fun _ _ => bkreprstMemsp⟩
  else ⟨false, fun o _ => undefined o⟩

theorem demoDecoders_dispatch : Dispatch extMethods demoDecoders := fun opcode e => by
  unfold demoDecoders
  split_ifs
  · exact .alu (.accAddSub false .a0 .b0)
  · exact .move (.mov16 (.imm 0xF000) (.bus .st0))
  · exact .move (.movsGeneric (.imm 0x1234) (some 4) .a1)
  · exact .control (.bkrepImm8 2 e)
  · exact .control .bkreprstMemsp
  · exact .undefined opcode

/-- A state away from reset: the four accumulators canonical and non-zero (`b0` the largest
    40-bit value, `b1` the smallest), `fz`, `sv` and `sp` set, and the program `0, 1, 2, ...`,
    so that the cycle at `pc = n` runs opcode `n`. -/
def busyCore : Core where
  regs := { (default : Core).regs with
    acc := fun
      | .a i => if i = 0 then 5 else 0xFFFFFFFFFFFFFFFD
      | .b i => if i = 0 then 0x7FFFFFFFFF else 0xFFFFFF8000000000
    fz := true, sv := 0xFFFE, sp := 0x100 }
  mem := { data := fun a => a, prog := fun a => a.setWidth 16 }

theorem busyCore_accCanon : busyCore.regs.AccCanon := by
  rintro (i | i) <;> fin_cases i <;> decide

/-- Three cycles of `Run` from `busyCore`: `add`, `mov` into `st0`, and the shifted `movs`. -/
theorem accCanon_preserved_busy :
    extMethods.Framed ∧ Dispatch extMethods demoDecoders ∧ busyCore.regs.AccCanon ∧
    wp (run extMethods demoDecoders 3) (fun _ t => t.regs.AccCanon) (· ≠ checkMessage)
      busyCore :=
  ⟨extMethods_framed, demoDecoders_dispatch, busyCore_accCanon,
    (accCanon_preserved extMethods_framed demoDecoders demoDecoders_dispatch).2.2 3 busyCore
      busyCore_accCanon⟩

/-- Two live loops, with distinct frames, `sp = 0x100`, and `pc` at the `bkreprst` of
    `demoDecoders`. -/
def twoLiveLoops : Core where
  regs := { (default : Core).regs with
    lp := true, bcn := 2, pc := 4, sp := 0x100,
    bkrepStack := fun i => ⟨0x10 * i.val, 0x10 * i.val + 8, i.val + 1⟩ }
  mem := { data := fun _ => 0x8000, prog := fun a => a.setWidth 16 }

theorem twoLiveLoops_loopInv : twoLiveLoops.regs.LoopInv := by
  unfold RegisterState.LoopInv; decide

/-- From `twoLiveLoops` every run keeps the invariant or stops, and `bkreprst_memsp` stops in
    the out-of-range write. -/
theorem loopInv_preserved_two_loops :
    extMethods.Framed ∧ Dispatch extMethods demoDecoders ∧ twoLiveLoops.regs.LoopInv ∧
    wp (run extMethods demoDecoders 3) (fun _ t => t.regs.LoopInv) (fun _ => True)
      twoLiveLoops ∧
    wp bkreprstMemsp (fun _ _ => False) (· = "out of range") twoLiveLoops :=
  have h := loopInv_preserved extMethods_framed demoDecoders demoDecoders_dispatch
  ⟨extMethods_framed, demoDecoders_dispatch, twoLiveLoops_loopInv,
    h.2.1 3 twoLiveLoops twoLiveLoops_loopInv, (h.2.2.2.2 twoLiveLoops rfl (.inl rfl)).1⟩

end Teakra
