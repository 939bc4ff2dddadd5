import Teakra.Run.Invariants

/-!
# The program counter at the top of the program space

Program addresses have 18 bits (spec §3: `pc` is "an 18-bit address"). `SetPC_Save`
(`interpreter.h`, lines 41–45) is the only write of `pc` that checks the bound, with
`"pc flies"`; the fetch in `Run` (line 54) increments `pc` with no check.

`PushPC` saves `pc` as its low 16 bits and its page bits 17:16, and `PopPC` joins them again
(`popPC_pushPC`, for every `pc` below `2^18`). A `pc` that has left the 18-bit space loses
its high bits on the way.

Results:
* `cycle_pc_overflow`: a one-word `nop` at `0x3FFFF` leaves `pc = 0x40000` at the end of its
  cycle, without any failure.
* `wp_run_nop_interrupt_reti`: an interrupt taken in the cycle of a `nop` at `P`, with a bare
  `reti` as handler, returns to `P + 1` reduced to 18 bits, with `sp` and `ie` restored.
* `interrupt_return_pc_overflow`: so at `P = 0x3FFFF` execution resumes at `0`, not at
  `0x40000`.
-/

namespace Teakra

variable {ops : RegisterMethods}

/-! ## One cycle of a `nop` -/

section Nop

variable {E : String → Prop} {Q : Unit → Core → Prop} {s : Core}

@[simp] theorem wp_nop : wp nop Q E s = Q () s := rfl

/-- One cycle of a one-word instruction, with `rep` and `lp` clear: fetch, advance `pc` by
    one, run the handler, then the interrupt check. -/
theorem wp_cycle_oneWord (decoders : Decoders) (h : M Unit)
    (hw : decoders (s.mem.prog s.regs.pc) = ⟨false, fun _ _ => h⟩)
    (hrep : s.regs.rep = false) (hlp : s.regs.lp = false) :
    wp (cycle ops decoders) Q E s =
      wp h (fun _ t => wp (interruptStep ops) Q E t) E
        { s with regs := { s.regs with pc := s.regs.pc + 1 } } := by
  simp only [cycle, wp_bind, wp_fetch, hw, Bool.false_eq_true, if_false, wp_pure, wp_setRegs,
    repStep_of_not_rep, wp_loopStep_of_not_lp, hrep, hlp]

end Nop

/-- A one-word `nop` at `0x3FFFF`, with no interrupt taken, moves `pc` out of the 18-bit
    program space without failing. -/
theorem cycle_pc_overflow (decoders : Decoders) (s : Core) (hpc : s.regs.pc = 0x3FFFF)
    (hw : decoders (s.mem.prog 0x3FFFF) = ⟨false, fun _ _ => nop⟩)
    (hrep : s.regs.rep = false) (hlp : s.regs.lp = false) (hie : s.regs.ie = false) :
    wp (cycle ops decoders) (fun _ t => t.regs.pc = 0x40000) (fun _ => False) s := by
  rw [wp_cycle_oneWord decoders nop (by rw [hpc, hw]) hrep hlp, wp_nop]
  simp only [wp_interruptStep_of_not_ie, hie, hpc]
  rfl

/-- The state the counterexamples start from: everything zero but `pc = 0x3FFFF`. -/
def topOfProgram : Core := { (default : Core) with regs := { (default : Core).regs with pc := 0x3FFFF } }

theorem cycle_pc_overflow_default :
    topOfProgram.regs.pc.toNat < 2 ^ 18 ∧ topOfProgram.regs.viaddr.toNat < 2 ^ 18 ∧
    wp (cycle inertMethods nopDecoders) (fun _ t => t.regs.pc = 0x40000) (fun _ => False)
      topOfProgram :=
  ⟨by decide, by decide, cycle_pc_overflow nopDecoders topOfProgram rfl rfl rfl rfl rfl⟩

/-- A `nop` at `P` whose cycle takes interrupt 0, whose handler is a bare `reti`: execution
    resumes at `P + 1` reduced to 18 bits, with `sp` and `ie` as they were. -/
theorem wp_run_nop_interrupt_reti (decoders : Decoders) (c : Cond) (s : Core)
    (hnop : decoders (s.mem.prog s.regs.pc) = ⟨false, fun _ _ => nop⟩)
    (hreti : decoders (s.mem.prog 6) = ⟨false, fun _ _ => reti ops c⟩)
    (hc : ∀ r, ops.ConditionPass c r = true)
    (hrep : s.regs.rep = false) (hlp : s.regs.lp = false) (hie : s.regs.ie = true)
    (him : s.regs.im 0 = true) (hip0 : s.regs.ip 0 = true) (hip1 : s.regs.ip 1 = false)
    (hip2 : s.regs.ip 2 = false) (hic : s.regs.ic 0 = false) (hvip : s.regs.vip = false) :
    wp (run ops decoders 2)
      (fun _ t => t.regs.pc = (s.regs.pc + 1) &&& 0x3FFFF ∧ t.regs.sp = s.regs.sp ∧ t.regs.ie = true)
      (fun _ => False) s := by
  have hne : s.regs.sp - 1 ≠ s.regs.sp - 1 - 1 := by bv_omega
  simp only [run, wp_bind]
  rw [wp_cycle_oneWord decoders nop hnop hrep hlp, wp_nop, wp_interruptStep_of_pending ops 0,
    wp_acceptInterrupt, wp_pushPC]
  · simp only [hic, Bool.false_eq_true, if_false]
    rw [wp_cycle_oneWord decoders (reti ops c)]
    · simp only [reti, wp_bind, wp_regs, hc, if_true]
      rw [wp_popPC_of_pushed { s.regs with pc := s.regs.pc + 1 }, wp_setRegs,
        wp_interruptStep_of_none, wp_pure]
      · exact ⟨by simp only [setPC_getPc], by simp only [setPC, BitVec.sub_add_cancel], rfl⟩
      · simp [pendingInterrupt, setPC, Function.update_apply, hip1, hip2]
      · simp [setPC, hvip]
      · rfl
      · exact Function.update_same _ _ _
      · show Function.update _ _ _ (s.regs.sp - 1 - 1 + 1) = _
        rw [BitVec.sub_add_cancel, Function.update_noteq hne, Function.update_same]
        rfl
    · simpa using hreti
    · exact hrep
    · exact hlp
  · exact hie
  · exact hrep
  · simp [pendingInterrupt, him, hip0]

/-- At the top of the program space the return lands at `0`: the `nop` at `0x3FFFF` would have
    continued at `0x40000`, whose page bits `PushPC` does not keep. -/
theorem interrupt_return_pc_overflow (decoders : Decoders) (c : Cond) (s : Core)
    (hpc : s.regs.pc = 0x3FFFF)
    (hnop : decoders (s.mem.prog 0x3FFFF) = ⟨false, fun _ _ => nop⟩)
    (hreti : decoders (s.mem.prog 6) = ⟨false, fun _ _ => reti ops c⟩)
    (hc : ∀ r, ops.ConditionPass c r = true)
    (hrep : s.regs.rep = false) (hlp : s.regs.lp = false) (hie : s.regs.ie = true)
    (him : s.regs.im 0 = true) (hip0 : s.regs.ip 0 = true) (hip1 : s.regs.ip 1 = false)
    (hip2 : s.regs.ip 2 = false) (hic : s.regs.ic 0 = false) (hvip : s.regs.vip = false) :
    wp (run ops decoders 2) (fun _ t => t.regs.pc = 0 ∧ t.regs.sp = s.regs.sp ∧ t.regs.ie = true)
      (fun _ => False) s :=
  wp_mono (wp_run_nop_interrupt_reti decoders c s (by rw [hpc, hnop]) hreti hc hrep hlp hie him
    hip0 hip1 hip2 hic hvip) (fun _ _ ⟨hpc', hsp, hie'⟩ => ⟨by rw [hpc', hpc]; rfl, hsp, hie'⟩)
    (fun _ h => h)

/-- A program with the interrupt handler `reti` at vector `6` (opcode `1`) and `nop`
    everywhere else. -/
def retiDecoders : Decoders := fun w =>
  if w = 1 then ⟨false, fun _ _ => reti inertMethods 0⟩ else ⟨false, fun _ _ => nop⟩

/-- `pc = 0x3FFFF` with interrupt 0 enabled and pending, and opcode `1` at address `6`. -/
def interruptedTop : Core :=
  { regs := { (default : Core).regs with pc := 0x3FFFF, ie := true, im := fun _ => true,
                                         ip := fun i => i == 0 },
    mem := { (default : Core).mem with prog := fun a => if a = 6 then 1 else 0 } }

theorem interrupt_return_pc_overflow_top :
    interruptedTop.regs.pc.toNat < 2 ^ 18 ∧
    wp (run inertMethods retiDecoders 2)
      (fun _ t => t.regs.pc = 0 ∧ t.regs.sp = interruptedTop.regs.sp ∧ t.regs.ie = true)
      (fun _ => False) interruptedTop :=
  ⟨by decide, interrupt_return_pc_overflow retiDecoders 0 interruptedTop rfl rfl rfl (fun _ => rfl)
    rfl rfl rfl rfl rfl rfl rfl rfl rfl⟩

end Teakra
