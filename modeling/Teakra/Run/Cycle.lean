import Teakra.Handlers.Mul

/-!
# `Run`: the instruction cycle

`Interpreter::Run` (`interpreter.h`, lines 51–109) runs `cycles` instruction cycles. Each
cycle fetches an opcode and, if the decoder asks for one, an expansion word; does the
bookkeeping of `rep` and of the innermost block repeat; calls the decoded handler; and, when
`ie` is set and no `rep` is pending, accepts the lowest pending interrupt.

The decoder table (`decoder.h`) is not in `src/`; it is the parameter `decoders`, and
`Dispatch` is the one thing the model assumes of it: every entry calls a handler of
`Interpreter` (with some operands) or `undefined`.

Results:
* `Handler.keeps`: every handler keeps every sound footprint.
* `Sound.cycle`, `Sound.run`: so does every cycle, and every run of `n` cycles, whatever
  `decoders` dispatches to.
-/

namespace Teakra

variable (ops : RegisterMethods)

/-- An entry of the decoder table: whether the opcode takes an expansion word, and the
    handler it calls with the opcode and that word. -/
structure Matcher where
  needExpansion : Bool
  call : BitVec 16 → BitVec 16 → M Unit

/-- The decoder table `decoders`, indexed by opcode. -/
abbrev Decoders := BitVec 16 → Matcher

/-- `undefined` (lines 47–49). -/
def undefined (_opcode : BitVec 16) : M Unit := throw "undefined code!"

/-- The actions a decoder entry may call: a handler of `Interpreter` with any operands, or
    `undefined`. -/
inductive Handler : M Unit → Prop
  | alu {h : M Unit} : AluHandler ops h → Handler h
  | control {h : M Unit} : ControlHandler ops h → Handler h
  | move {h : M Unit} : MoveHandler ops h → Handler h
  | mul {h : M Unit} : MulHandler ops h → Handler h
  | undefined (opcode : BitVec 16) : Handler (undefined opcode)

/-- The assumption on the decoder table: every entry dispatches to a handler. -/
def Dispatch (decoders : Decoders) : Prop :=
  ∀ opcode expand, Handler ops ((decoders opcode).call opcode expand)

/-! ## One cycle -/

/-- `mem.ProgramRead(regs.pc++)`. -/
def fetch : M (BitVec 16) := do
  let value ← programRead (← regs).pc
  setRegs fun r => { r with pc := r.pc + 1 }
  return value

/-- The `rep` bookkeeping (lines 60–67): count down, and rewind `pc` to refetch. -/
def repStep (r : RegisterState) : RegisterState :=
  if r.rep then
    if r.repc = 0 then { r with rep := false } else { r with repc := r.repc - 1, pc := r.pc - 1 }
  else r

/-- The block-repeat bookkeeping (lines 69–77): at the end of the innermost body, count down
    and jump back to its start, or drop the frame. `bkrep_stack[bcn - 1]` outside the array is
    undefined behaviour in C++; `index4` stops there. -/
def loopStep : M Unit := do
  let r ← regs
  if r.lp then
    let i ← index4 (r.bcn - 1)
    let f := r.bkrepStack i
    if f.end + 1 = r.pc then
      if f.lc = 0 then setRegs fun r => { r with bcn := r.bcn - 1, lp := r.bcn - 1 != 0 }
      else setRegs fun r => { r with bkrepStack := Function.update r.bkrepStack i
                                       { f with lc := f.lc - 1 }, pc := f.start }

/-- The lowest `i` with `im[i]` and `ip[i]` (the loop of lines 85–97). -/
def pendingInterrupt (r : RegisterState) : Option (Fin 3) :=
  [0, 1, 2].find? fun i => r.im i && r.ip i

/-- Accept an interrupt: clear its pending bit (by `clear`) and `ie`, push `pc`, vector to
    `vector`, and save the context if `context` says so. -/
def acceptInterrupt (clear : RegisterState → RegisterState) (vector : RegisterState → BitVec 32)
    (context : RegisterState → Bool) : M Unit := do
  setRegs fun r => { clear r with ie := false }
  pushPC
  setRegs fun r => { r with pc := vector r }
  if context (← regs) then contextStore ops

/-- The interrupt check (lines 81–107). -/
def interruptStep : M Unit := do
  let r ← regs
  if r.ie && !r.rep then
    match pendingInterrupt r with
    | some i =>
      acceptInterrupt ops (fun r => { r with ip := Function.update r.ip i false })
        (fun _ => 0x0006 + i.val * 8) (fun r => r.ic i)
    | none =>
      if r.vim && r.vip then
        acceptInterrupt ops (fun r => { r with vip := false }) (fun r => r.viaddr) (fun r => r.vic)

/-- One iteration of the loop of `Run` (lines 53–107). -/
def cycle (decoders : Decoders) : M Unit := do
  let opcode ← fetch
  let decoder := decoders opcode
  let expandValue ← (if decoder.needExpansion then fetch else pure 0)
  setRegs repStep
  loopStep
  decoder.call opcode expandValue
  interruptStep ops

/-- `Run(cycles)` (lines 51–109). -/
def run (decoders : Decoders) : Nat → M Unit
  | 0 => pure ()
  | n + 1 => do
    cycle ops decoders
    run decoders n

/-! ## What the parts of a cycle do -/

section Wp

variable {α : Type} {E : String → Prop} {s : Core}

@[simp] theorem wp_fetch {Q : BitVec 16 → Core → Prop} :
    wp fetch Q E s =
      Q (s.mem.prog s.regs.pc) { s with regs := { s.regs with pc := s.regs.pc + 1 } } := by
  simp only [fetch, wp_bind, wp_regs, wp_programRead, wp_setRegs, wp_pure]

theorem repStep_of_not_rep {r : RegisterState} (h : r.rep = false) : repStep r = r := by
  simp only [repStep, h, Bool.false_eq_true, if_false]

theorem wp_loopStep_of_not_lp {Q : Unit → Core → Prop} (h : s.regs.lp = false) :
    wp loopStep Q E s = Q () s := by
  simp only [loopStep, wp_bind, wp_regs, h, Bool.false_eq_true, if_false, wp_pure]

/-- No interrupt is taken while `ie` is clear. -/
theorem wp_interruptStep_of_not_ie {Q : Unit → Core → Prop} (h : s.regs.ie = false) :
    wp (interruptStep ops) Q E s = Q () s := by
  simp only [interruptStep, wp_bind, wp_regs, h, Bool.false_and, Bool.false_eq_true, if_false,
    wp_pure]

/-- No interrupt is taken while `rep` is set. -/
theorem wp_interruptStep_of_rep {Q : Unit → Core → Prop} (h : s.regs.rep = true) :
    wp (interruptStep ops) Q E s = Q () s := by
  simp only [interruptStep, wp_bind, wp_regs, h, Bool.not_true, Bool.and_false,
    Bool.false_eq_true, if_false, wp_pure]

/-- The interrupt check takes interrupt `i`, the lowest one enabled and pending. -/
theorem wp_interruptStep_of_pending {Q : Unit → Core → Prop} (i : Fin 3)
    (hie : s.regs.ie = true) (hrep : s.regs.rep = false)
    (hi : pendingInterrupt s.regs = some i) :
    wp (interruptStep ops) Q E s =
      wp (acceptInterrupt ops (fun r => { r with ip := Function.update r.ip i false })
        (fun _ => 0x0006 + i.val * 8) (fun r => r.ic i)) Q E s := by
  simp only [interruptStep, wp_bind, wp_regs, hie, hrep, Bool.not_false, Bool.and_self, if_true, hi]

/-- Nothing pending: the check does nothing. -/
theorem wp_interruptStep_of_none {Q : Unit → Core → Prop}
    (hi : pendingInterrupt s.regs = none) (hv : (s.regs.vim && s.regs.vip) = false) :
    wp (interruptStep ops) Q E s = Q () s := by
  simp only [interruptStep, wp_bind, wp_regs, hi, hv, Bool.false_eq_true, if_false, wp_pure,
    ite_self]

/-- Accepting an interrupt: clear its pending bit and `ie`, push `pc`, vector, and save the
    context if asked to. -/
theorem wp_acceptInterrupt {Q : Unit → Core → Prop} (clear : RegisterState → RegisterState)
    (vector : RegisterState → BitVec 32) (context : RegisterState → Bool) :
    wp (acceptInterrupt ops clear vector context) Q E s =
      wp pushPC (fun _ t =>
        let t' := { t with regs := { t.regs with pc := vector t.regs } }
        if context t'.regs then wp (contextStore ops) Q E t' else Q () t') E
        { s with regs := { clear s.regs with ie := false } } := by
  simp only [acceptInterrupt, wp_bind, wp_setRegs, wp_regs, wp_ite, wp_pure]

end Wp

/-! ## Every cycle keeps every sound footprint -/

section Keeps

variable {ops} {F : Footprint} (hF : Sound ops F)
include hF

/-- Every handler keeps every sound footprint. -/
theorem Handler.keeps {h : M Unit} (hh : Handler ops h) : F.Keeps h fun _ => True := by
  cases hh with
  | alu hh => exact hh.keeps ops hF
  | control hh => exact hh.keeps ops hF
  | move hh => exact hh.keeps ops hF
  | mul hh => exact hh.keeps ops hF
  | undefined => exact hF.throw (by decide)

namespace Sound

theorem fetch : F.Keeps fetch fun _ => True :=
  .seq hF.regs fun _ => .seq (.programRead _) fun _ => .seq (hF.setRegs fun _ => ⟨rfl, rfl, rfl⟩)
    fun _ => .triv

theorem repStep : F.Keeps (Teakra.setRegs Teakra.repStep) fun _ => True :=
  hF.setRegs fun r => by unfold Teakra.repStep; split_ifs <;> exact ⟨rfl, rfl, rfl⟩

/-- The loop-end bookkeeping keeps the loop invariant: it only drops a frame when `lp` is
    set. -/
theorem loopStep : F.Keeps loopStep fun _ => True := by
  intro s hs
  unfold Teakra.loopStep
  simp only [wp_bind, wp_regs, wp_index4, wp_setRegs, wp_ite, wp_pure]
  by_cases hlp : s.regs.lp
  · simp only [hlp, if_true]
    split_ifs
    · exact ⟨hF.step s _ rfl (fun h => RegisterState.loopInv_pop h hlp rfl rfl) hs, trivial⟩
    · exact ⟨hF.frame s _ rfl rfl hlp.symm hs, trivial⟩
    · exact ⟨hs, trivial⟩
    · exact hF.fail _ (by decide)
  · simp only [hlp]
    exact ⟨hs, trivial⟩

theorem acceptInterrupt (clear : RegisterState → RegisterState) (hc : Frames clear)
    (vector : RegisterState → BitVec 32) (context : RegisterState → Bool) :
    F.Keeps (acceptInterrupt ops clear vector context) fun _ => True :=
  .seq (hF.setRegs fun r => hc r) fun _ => .seq hF.pushPC fun _ =>
    .seq (hF.setRegs fun _ => ⟨rfl, rfl, rfl⟩) fun _ => .seq hF.regs fun _ =>
    .ite (fun _ => hF.contextStore) fun _ => .triv

theorem interruptStep : F.Keeps (interruptStep ops) fun _ => True := by
  unfold Teakra.interruptStep
  refine .seq hF.regs fun r => .ite (fun _ => ?_) fun _ => .triv
  split
  · refine hF.acceptInterrupt _ ?_ _ _
    exact fun _ => ⟨rfl, rfl, rfl⟩
  · refine .ite (fun _ => hF.acceptInterrupt _ ?_ _ _) fun _ => .triv
    exact fun _ => ⟨rfl, rfl, rfl⟩

theorem cycle (decoders : Decoders) (hd : Dispatch ops decoders) :
    F.Keeps (cycle ops decoders) fun _ => True :=
  .seq hF.fetch fun opcode => .seq (.ite (fun _ => hF.fetch) fun _ => .triv) fun expand =>
    .seq hF.repStep fun _ => .seq hF.loopStep fun _ =>
    .seq ((hd opcode expand).keeps hF) fun _ => hF.interruptStep

/-- Every run of `n` cycles keeps every sound footprint. -/
theorem run (decoders : Decoders) (hd : Dispatch ops decoders) (n : Nat) :
    F.Keeps (run ops decoders n) fun _ => True := by
  induction n with
  | zero => exact .triv
  | succ n ih => exact .seq (hF.cycle decoders hd) fun _ => ih

end Sound

end Keeps

end Teakra
