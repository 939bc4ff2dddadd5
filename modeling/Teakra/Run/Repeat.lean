import Teakra.Run.Pc

/-!
# `rep`: repeating the next instruction

`Repeat` (`interpreter.h`, lines 1340–1343) sets `repc` and `rep`. While `rep` is set, `Run`
(lines 60–67) moves `pc` back by one word after each fetch and counts `repc` down, and clears
`rep` instead once `repc` is 0; the interrupt check (line 83) is skipped while `rep` is set.
So the instruction after `rep k` runs `k + 1` times, when it is one word long.

A two-word instruction fetches its expansion word as well, and the rewind of one word leaves
`pc` on that expansion word: the second repetition decodes the expansion word as an opcode.

The instruction repeated is only assumed to keep `flow`: it never fails and leaves `pc`, `rep`,
`repc`, `lp`, `ie` and program memory as they are.

Results:
* `run_rep_oneWord`: under a pending `rep` with `repc = j`, a one-word instruction runs in
  `j + 1` cycles, with no interrupt check between them, and execution continues after it with
  `rep` clear.
* `rep_next_instruction`: after `rep k` the next instruction repeats correctly when it has
  one word; when it has two words and `k ≠ 0`, after its first execution `pc` is on its
  expansion word with `rep` still set.
-/

namespace Teakra

variable {ops : RegisterMethods}

/-- What the repeat bookkeeping and the interrupt check read of a state. -/
def flow (t : Core) : BitVec 32 × Bool × BitVec 16 × Bool × Bool × (BitVec 32 → BitVec 16) :=
  (t.regs.pc, t.regs.rep, t.regs.repc, t.regs.lp, t.regs.ie, t.mem.prog)

/-- A handler that never fails and leaves `flow` as it finds it: it writes neither `pc`, `rep`
    nor `repc`, starts or ends no loop, and leaves `ie` and program memory alone. -/
def KeepsFlow (c : M Unit) : Prop :=
  ∀ t, wp c (fun _ u => flow u = flow t) (fun _ => False) t

theorem flow_eq {t u : Core} : flow u = flow t ↔ u.regs.pc = t.regs.pc ∧ u.regs.rep = t.regs.rep ∧
    u.regs.repc = t.regs.repc ∧ u.regs.lp = t.regs.lp ∧ u.regs.ie = t.regs.ie ∧
    u.mem.prog = t.mem.prog := by
  simp only [flow, Prod.mk.injEq]

/-- `push(Imm16)`, a two-word instruction, keeps `flow`. -/
theorem keepsFlow_pushImm16 (a : BitVec 16) : KeepsFlow (pushImm16 a) := fun _ => by
  simp only [pushImm16, wp_pushWord]; rfl

/-! ## One cycle under `rep` -/

section Cycle

variable {E : String → Prop} {Q : Unit → Core → Prop} {s : Core}

@[simp] theorem wp_repeat (k : BitVec 16) :
    wp («repeat» k) Q E s = Q () { s with regs := { s.regs with repc := k, rep := true } } := by
  simp only [«repeat», wp_setRegs]

theorem repStep_of_repc_ne {r : RegisterState} (h : r.rep = true) (hc : r.repc ≠ 0) :
    repStep r = { r with repc := r.repc - 1, pc := r.pc - 1 } := by
  simp only [repStep, h, hc, if_true, if_false]

theorem repStep_of_repc_zero {r : RegisterState} (h : r.rep = true) (hc : r.repc = 0) :
    repStep r = { r with rep := false } := by
  simp only [repStep, h, hc, if_true]

/-- A cycle of a one-word instruction outside a loop: fetch, the `rep` bookkeeping, the
    handler, the interrupt check. -/
theorem wp_cycle_oneWord_of_not_lp (decoders : Decoders) (call : BitVec 16 → BitVec 16 → M Unit)
    (hd : decoders (s.mem.prog s.regs.pc) = ⟨false, call⟩) (hlp : s.regs.lp = false) :
    wp (cycle ops decoders) Q E s =
      wp (call (s.mem.prog s.regs.pc) 0) (fun _ t => wp (interruptStep ops) Q E t) E
        { s with regs := repStep { s.regs with pc := s.regs.pc + 1 } } := by
  have hlp' : (repStep { s.regs with pc := s.regs.pc + 1 }).lp = false := by
    unfold repStep; split_ifs <;> exact hlp
  simp only [cycle, wp_bind, wp_fetch, hd, Bool.false_eq_true, if_false, wp_pure, wp_setRegs]
  rw [wp_loopStep_of_not_lp hlp']

/-- A cycle of a two-word instruction outside a loop: both words are fetched. -/
theorem wp_cycle_twoWord_of_not_lp (decoders : Decoders) (call : BitVec 16 → BitVec 16 → M Unit)
    (hd : decoders (s.mem.prog s.regs.pc) = ⟨true, call⟩) (hlp : s.regs.lp = false) :
    wp (cycle ops decoders) Q E s =
      wp (call (s.mem.prog s.regs.pc) (s.mem.prog (s.regs.pc + 1)))
        (fun _ t => wp (interruptStep ops) Q E t) E
        { s with regs := repStep { s.regs with pc := s.regs.pc + 1 + 1 } } := by
  have hlp' : (repStep { s.regs with pc := s.regs.pc + 1 + 1 }).lp = false := by
    unfold repStep; split_ifs <;> exact hlp
  simp only [cycle, wp_bind, wp_fetch, hd, if_true, wp_setRegs]
  rw [wp_loopStep_of_not_lp hlp']

/-- The cycle of `rep k` outside a loop: `pc` moves on, `rep` is set with `repc = k`, and no
    interrupt is taken. -/
theorem wp_cycle_repeat (decoders : Decoders) (k : BitVec 16)
    (hr : decoders (s.mem.prog s.regs.pc) = ⟨false, fun _ _ => «repeat» k⟩)
    (hrep : s.regs.rep = false) (hlp : s.regs.lp = false) :
    wp (cycle ops decoders) Q E s =
      Q () { s with regs := { s.regs with pc := s.regs.pc + 1, repc := k, rep := true } } := by
  rw [wp_cycle_oneWord_of_not_lp decoders _ hr hlp]
  simp only [repStep_of_not_rep, hrep, wp_repeat]
  rw [wp_interruptStep_of_rep ops rfl]

end Cycle

/-! ## A one-word instruction repeated -/

/-- Under a pending `rep` with `repc = j`, a one-word instruction that keeps `flow` runs in
    `j + 1` cycles: each but the last moves `pc` back onto it and skips the interrupt check, and
    the last clears `rep`, leaves `pc` after it, and ends in the one interrupt check of the run.
    Whatever that check is to establish, the run establishes. -/
theorem run_rep_oneWord (decoders : Decoders) (call : BitVec 16 → BitVec 16 → M Unit) (j : Nat)
    {Q : Unit → Core → Prop} (s : Core) (hd : decoders (s.mem.prog s.regs.pc) = ⟨false, call⟩)
    (hc : KeepsFlow (call (s.mem.prog s.regs.pc) 0)) (hrep : s.regs.rep = true)
    (hj : s.regs.repc.toNat = j) (hlp : s.regs.lp = false)
    (hQ : ∀ u, flow u = (s.regs.pc + 1, false, 0, false, s.regs.ie, s.mem.prog) →
      wp (interruptStep ops) Q (fun _ => False) u) :
    wp (run ops decoders (j + 1)) Q (fun _ => False) s := by
  induction j generalizing s with
  | zero =>
    have h0 : s.regs.repc = 0 := BitVec.eq_of_toNat_eq hj
    rw [run, wp_bind, wp_cycle_oneWord_of_not_lp decoders call hd hlp]
    simp only [repStep_of_repc_zero, hrep, h0, run, wp_pure]
    refine wp_mono (hc _) (fun _ u hu => hQ u ?_) (fun _ h => h)
    rw [hu, flow, ← h0, ← hlp]
  | succ j ih =>
    have hc0 : s.regs.repc ≠ 0 := fun h => by simp [h] at hj
    rw [run, wp_bind, wp_cycle_oneWord_of_not_lp decoders call hd hlp]
    simp only [repStep_of_repc_ne, hrep, ne_eq, hc0, not_false_eq_true, BitVec.add_sub_cancel]
    refine wp_mono (hc _) (fun _ u hu => ?_) (fun _ h => h)
    obtain ⟨hpc, hr, hrc, hl, hi, hp⟩ := flow_eq.1 hu
    rw [wp_interruptStep_of_rep ops hr]
    refine ih u (by rw [hpc, hp]; exact hd) (by rw [hpc, hp]; exact hc) hr
      (by rw [hrc, BitVec.toNat_sub, show (1 : BitVec 16).toNat = 1 from rfl]; omega)
      (hl.trans hlp) fun v hv => hQ v ?_
    rw [hv, hpc, hi, hp]

/-- `n` consecutive executions of a handler, as `rep n - 1` followed by the handler's
    instruction runs them (`run_rep_oneWord`). -/
def repeatHandler (h : M Unit) : Nat → M Unit
  | 0 => pure ()
  | n + 1 => do h; repeatHandler h n

/-! ## `rep` and the instruction after it -/

/-- After `rep k` at `P`, the instruction at `P + 1` repeats as the spec says when it has one
    word: `k + 1` executions with no interrupt check between them, then `pc = P + 2` with `rep`
    and `repc` clear, where the run ends in its one interrupt check. When it has two words and
    `k ≠ 0`, the rewind after its first execution leaves `pc = P + 2`, its expansion word, with
    `rep` still set and program memory unchanged, so the next cycle decodes the expansion word
    as an opcode. -/
theorem rep_next_instruction (decoders : Decoders) (k : BitVec 16)
    (call : BitVec 16 → BitVec 16 → M Unit) (s : Core)
    (hr : decoders (s.mem.prog s.regs.pc) = ⟨false, fun _ _ => «repeat» k⟩)
    (hrep : s.regs.rep = false) (hlp : s.regs.lp = false) :
    (decoders (s.mem.prog (s.regs.pc + 1)) = ⟨false, call⟩ →
      KeepsFlow (call (s.mem.prog (s.regs.pc + 1)) 0) →
      ∀ Q : Unit → Core → Prop,
        (∀ u, flow u = (s.regs.pc + 1 + 1, false, 0, false, s.regs.ie, s.mem.prog) →
          wp (interruptStep ops) Q (fun _ => False) u) →
        wp (run ops decoders (k.toNat + 2)) Q (fun _ => False) s) ∧
    (decoders (s.mem.prog (s.regs.pc + 1)) = ⟨true, call⟩ →
      KeepsFlow (call (s.mem.prog (s.regs.pc + 1)) (s.mem.prog (s.regs.pc + 1 + 1))) → k ≠ 0 →
      wp (run ops decoders 2)
        (fun _ t => t.regs.pc = s.regs.pc + 1 + 1 ∧ t.regs.rep = true ∧ t.regs.repc = k - 1 ∧
          t.mem.prog = s.mem.prog) (fun _ => False) s) := by
  refine ⟨fun hd hc Q hQ => ?_, fun hd hc hk => ?_⟩ <;>
    rw [run, wp_bind, wp_cycle_repeat decoders k hr hrep hlp]
  · exact run_rep_oneWord decoders call k.toNat _ hd hc rfl rfl hlp hQ
  · rw [run, wp_bind, wp_cycle_twoWord_of_not_lp decoders call]
    · simp only [repStep_of_repc_ne, ne_eq, hk, not_false_eq_true]
      refine wp_mono (hc _) (fun _ u hu => ?_) (fun _ h => h)
      obtain ⟨hpc, hr', hrc, -, -, hp⟩ := flow_eq.1 hu
      rw [wp_interruptStep_of_rep ops hr', run, wp_pure]
      exact ⟨hpc.trans (BitVec.add_sub_cancel _ _), hr', hrc, hp⟩
    · exact hd
    · exact hlp

/-- `rep 1` at 0, `push 0x0003` at 1–2, where opcode `3` is undefined. -/
def repPushDecoders : Decoders := fun w =>
  if w = 1 then ⟨false, fun _ _ => repImm8 1⟩
  else if w = 2 then ⟨true, fun _ e => pushImm16 e⟩
  else ⟨false, fun o _ => undefined o⟩

def repPushProgram : Core :=
  { (default : Core) with
    mem := { (default : Core).mem with prog := fun a => if a = 0 then 1 else if a = 1 then 2 else 3 } }

/-- `rep 1; push 0x0003` pushes once, then stands on the expansion word `0x0003`, which decodes
    as `undefined`. -/
theorem rep_next_instruction_push :
    repPushProgram.regs.rep = false ∧ repPushProgram.regs.lp = false ∧
    wp (run inertMethods repPushDecoders 2)
      (fun _ t => t.regs.pc = 2 ∧ t.regs.rep = true ∧
        (repPushDecoders (t.mem.prog t.regs.pc)).call 3 0 = undefined 3)
      (fun _ => False) repPushProgram :=
  ⟨rfl, rfl, wp_mono ((rep_next_instruction repPushDecoders 1 (fun _ e => pushImm16 e)
      repPushProgram rfl rfl rfl).2 rfl (keepsFlow_pushImm16 _) (by decide))
    (fun _ _ ⟨hpc, hr, _, hp⟩ => ⟨hpc, hr, by rw [hp, hpc]; rfl⟩) (fun _ h => h)⟩

end Teakra
