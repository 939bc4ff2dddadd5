import Teakra.Run.Repeat

/-!
# `bkrep`: the block-repeat loop over whole runs

`BlockRepeat` (`interpreter.h`, lines 965–973) pushes the frame `{pc, end, lc}`. After the
fetches of every cycle, `Run` (lines 69–77) compares `pc` with `end + 1` of the innermost frame,
and there either jumps back to `start` with `lc` counted down, or drops the frame once `lc`
is 0. The comparison comes before the handler of the instruction just fetched runs.

This module proves that the engine does what a block repeat is for, for a body of one- and
two-word instructions that take no part in the loop engine (`InBody`): running one of them
with other values of `pc`, `lp`, `bcn` and the frames does the same and leaves those as they
were, and it leaves `rep`, `ie` and program memory, which `Run` reads, alone. The meaning of
such a body is `straight`, the handlers of its instructions one after the other, with no
fetch and no loop engine.

Results:
* `wp_cycle_body`: a cycle of a body instruction is its handler, with the loop registers
  moved on by the fetch and the loop-end bookkeeping.
* `run_pass`: a pass over a body is its straight-line execution, then the bookkeeping at the
  body's end.
* `run_passes`: from a frame with `lc = n`, `(n + 1) · len` cycles execute the body `n + 1`
  times, and leave `pc` after the body with the frame dropped.
* `run_bkrepImm8`: so does `bkrep #k, E` with a body of `len` instructions, in
  `1 + (k + 1) · len` cycles, and afterwards `pc`, `lp`, `bcn` and the live frames are what
  they were before the `bkrep`, with `pc` after the body.
-/

namespace Teakra

/-! ## The loop registers -/

/-- The registers that `Run`'s block-repeat bookkeeping (lines 69–77) writes. -/
structure LoopRegs where
  pc : BitVec 32
  lp : Bool
  bcn : BitVec 16
  bkrepStack : Fin 4 → BlockRepeatFrame

/-- `t` with its loop registers set to `c`. -/
def Core.setLoopRegs (t : Core) (c : LoopRegs) : Core :=
  { t with regs := { t.regs with pc := c.pc, lp := c.lp, bcn := c.bcn,
                                 bkrepStack := c.bkrepStack } }

/-- The loop registers of `t`. -/
def Core.loopRegs (t : Core) : LoopRegs := ⟨t.regs.pc, t.regs.lp, t.regs.bcn, t.regs.bkrepStack⟩

namespace Core

variable {t : Core} {c c' : LoopRegs}

@[simp] theorem setLoopRegs_loopRegs : t.setLoopRegs t.loopRegs = t := rfl

@[simp] theorem setLoopRegs_setLoopRegs : (t.setLoopRegs c).setLoopRegs c' = t.setLoopRegs c' :=
  rfl
@[simp] theorem setLoopRegs_mem : (t.setLoopRegs c).mem = t.mem := rfl
@[simp] theorem setLoopRegs_rep : (t.setLoopRegs c).regs.rep = t.regs.rep := rfl
@[simp] theorem setLoopRegs_ie : (t.setLoopRegs c).regs.ie = t.regs.ie := rfl
@[simp] theorem setLoopRegs_pc : (t.setLoopRegs c).regs.pc = c.pc := rfl
@[simp] theorem setLoopRegs_lp : (t.setLoopRegs c).regs.lp = c.lp := rfl
@[simp] theorem setLoopRegs_bcn : (t.setLoopRegs c).regs.bcn = c.bcn := rfl
@[simp] theorem setLoopRegs_bkrepStack : (t.setLoopRegs c).regs.bkrepStack = c.bkrepStack := rfl

end Core

/-- The loop-end bookkeeping of `Run` (lines 69–77) on the loop registers, with `i` the
    innermost frame. -/
def LoopRegs.loopEnd (c : LoopRegs) (i : Fin 4) : LoopRegs :=
  let f := c.bkrepStack i
  if f.end + 1 = c.pc then
    if f.lc = 0 then { c with bcn := c.bcn - 1, lp := c.bcn - 1 != 0 }
    else { c with pc := f.start, bkrepStack := Function.update c.bkrepStack i { f with lc := f.lc - 1 } }
  else c

namespace LoopRegs

variable {c : LoopRegs} {i : Fin 4}

theorem loopEnd_of_ne (h : (c.bkrepStack i).end + 1 ≠ c.pc) : c.loopEnd i = c := by
  simp only [loopEnd, h, if_false]

/-- At the end of a body whose frame has not run out: count down and go back to `start`. -/
theorem loopEnd_countDown (h0 : (c.bkrepStack i).lc ≠ 0) :
    { c with pc := (c.bkrepStack i).end + 1 }.loopEnd i =
      { c with
        pc := (c.bkrepStack i).start
        bkrepStack := Function.update c.bkrepStack i
          { (c.bkrepStack i) with lc := (c.bkrepStack i).lc - 1 } } := by
  simp only [loopEnd, h0, if_true, if_false]

/-- The loop registers once the innermost frame `i` has run out: `pc` after the body, and the
    frame, with `lc = 0`, dropped. -/
def exit (c : LoopRegs) (i : Fin 4) : LoopRegs where
  pc := (c.bkrepStack i).end + 1
  lp := c.bcn - 1 != 0
  bcn := c.bcn - 1
  bkrepStack := Function.update c.bkrepStack i { (c.bkrepStack i) with lc := 0 }

/-- The last pass leaves the loop registers at `exit`. -/
theorem loopEnd_eq_exit (h0 : (c.bkrepStack i).lc = 0) :
    { c with pc := (c.bkrepStack i).end + 1 }.loopEnd i = c.exit i := by
  simp only [loopEnd, exit, h0, if_true]
  rw [← h0]
  exact congrArg _ (Function.update_eq_self i c.bkrepStack).symm

/-- Counting the frame down does not change where the loop exits to. -/
theorem exit_countDown (pc : BitVec 32) (lc : BitVec 16) :
    ({ c with pc := pc, bkrepStack := Function.update c.bkrepStack i { (c.bkrepStack i) with lc := lc } }
      : LoopRegs).exit i = c.exit i := by
  simp only [exit, Function.update_same, Function.update_idem]

end LoopRegs

section Wp

variable {α : Type} {E : String → Prop} {s u : Core} {c : LoopRegs}

/-- Two postconditions that agree on every state `m` may end in give the same `wp`. -/
theorem wp_congr_of_wp {m : M α} {P Q Q' : α → Core → Prop} (h : wp m P (fun _ => True) s)
    (hQ : ∀ a t, P a t → Q a t = Q' a t) : wp m Q E s = wp m Q' E s := by
  unfold wp at *
  split at h
  · exact hQ _ _ h
  · rfl

theorem wp_fetch_setLoopRegs {Q : BitVec 16 → Core → Prop} :
    wp fetch Q E (u.setLoopRegs c) = Q (u.mem.prog c.pc) (u.setLoopRegs { c with pc := c.pc + 1 }) := by
  rw [wp_fetch]; rfl

theorem wp_repStep_of_not_rep {Q : Unit → Core → Prop} (h : s.regs.rep = false) :
    wp (setRegs repStep) Q E s = Q () s := by
  rw [wp_setRegs, repStep_of_not_rep h]

/-- Inside a loop, the bookkeeping only moves the loop registers on. -/
theorem wp_loopStep_setLoopRegs {Q : Unit → Core → Prop} {i : Fin 4} (hlp : c.lp = true)
    (hi : (c.bcn - 1).toNat = i.val) :
    wp loopStep Q E (u.setLoopRegs c) = Q () (u.setLoopRegs (c.loopEnd i)) := by
  simp only [loopStep, wp_bind, wp_regs, Core.setLoopRegs_lp, hlp, if_true, wp_index4,
    Core.setLoopRegs_bcn, hi, i.isLt, dite_true, Fin.eta, Core.setLoopRegs_bkrepStack,
    Core.setLoopRegs_pc, wp_setRegs, wp_ite, wp_pure, LoopRegs.loopEnd]
  split_ifs <;> rfl

end Wp

/-! ## Bodies -/

section Body

variable (decoders : Decoders) (prog : BitVec 32 → BitVec 16)

/-- The address after the instruction at `a`: the fetches of lines 54–58 move one word on, or
    two when the decoder takes an expansion word. -/
def next (a : BitVec 32) : BitVec 32 :=
  if (decoders (prog a)).needExpansion then a + 1 + 1 else a + 1

/-- The handler call that the cycle of the instruction at `a` makes. -/
def callAt (a : BitVec 32) : M Unit :=
  (decoders (prog a)).call (prog a) (if (decoders (prog a)).needExpansion then prog (a + 1) else 0)

/-- The address after `m` instructions from `a`. -/
def after : Nat → BitVec 32 → BitVec 32
  | 0, a => a
  | m + 1, a => after m (next decoders prog a)

/-- The straight-line execution of `m` instructions from `a`: their handlers one after the
    other, with no fetch and no loop engine. This is what a block-repeat body means. -/
def straight : Nat → BitVec 32 → M Unit
  | 0, _ => pure ()
  | m + 1, a => do callAt decoders prog a; straight m (next decoders prog a)

/-- A handler as a block-repeat body may hold it: run with other loop registers, it does the
    same and leaves them as they were (it neither reads nor writes `pc`, `lp`, `bcn` or the
    frames), and it leaves `rep`, `ie` and program memory, which `Run` reads, alone. -/
structure InBody (h : M Unit) : Prop where
  comm : ∀ (c : LoopRegs) (Q : Unit → Core → Prop) (E : String → Prop) (t : Core),
    wp h Q E (t.setLoopRegs c) = wp h (fun x u => Q x (u.setLoopRegs c)) E t
  keeps : ∀ t, wp h (fun _ u => u.regs.rep = t.regs.rep ∧ u.regs.ie = t.regs.ie ∧
    u.mem.prog = t.mem.prog) (fun _ => True) t

/-- A block-repeat body: `len` instructions from `start`, the last of which ends at `end` and
    no earlier one does, each taking no part in the loop engine. -/
structure Body (start «end» : BitVec 32) (len : Nat) : Prop where
  nonempty : 0 < len
  ends : after decoders prog len start = «end» + 1
  inner : ∀ m, 0 < m → m < len → after decoders prog m start ≠ «end» + 1
  blind : ∀ m < len, InBody (callAt decoders prog (after decoders prog m start))

end Body

namespace InBody

theorem pure : InBody (pure () : M Unit) :=
  ⟨fun _ _ _ _ => rfl, fun _ => ⟨rfl, rfl, rfl⟩⟩

theorem bind {h : M Unit} {k : Unit → M Unit} (hh : InBody h) (hk : ∀ x, InBody (k x)) :
    InBody (h >>= k) where
  comm c Q E t := by
    simp only [wp_bind, hh.comm, (hk _).comm]
  keeps t := by
    rw [wp_bind]
    exact wp_mono (hh.keeps t) (fun x v ⟨h1, h2, h3⟩ => wp_mono ((hk x).keeps v)
      (fun _ _ ⟨g1, g2, g3⟩ => ⟨g1.trans h1, g2.trans h2, g3.trans h3⟩) fun _ _ => trivial)
      fun _ _ => trivial

end InBody

variable {decoders : Decoders} {prog : BitVec 32 → BitVec 16}

/-- A straight-line run of instructions that take no part in the loop engine takes none
    either. -/
theorem inBody_straight {m : Nat} {a : BitVec 32}
    (hb : ∀ j < m, InBody (callAt decoders prog (after decoders prog j a))) :
    InBody (straight decoders prog m a) := by
  induction m generalizing a with
  | zero => exact .pure
  | succ m ih => exact (hb 0 m.succ_pos).bind fun _ => ih fun j hj => hb (j + 1) (by omega)

/-! ## A cycle and a pass -/

section Cycle

variable {ops : RegisterMethods} {Q : Unit → Core → Prop} {E : String → Prop} {u : Core}
  {c : LoopRegs} {i : Fin 4}

/-- A cycle of a body instruction at `a`: its handler, with the loop registers moved on by
    the fetches and by the loop-end bookkeeping of the innermost frame `i`. -/
theorem wp_cycle_body {a : BitVec 32} (hb : InBody (callAt decoders prog a))
    (hprog : u.mem.prog = prog) (hrep : u.regs.rep = false) (hie : u.regs.ie = false)
    (hpc : c.pc = a) (hlp : c.lp = true) (hi : (c.bcn - 1).toNat = i.val) :
    wp (cycle ops decoders) Q E (u.setLoopRegs c) =
      wp (callAt decoders prog a)
        (fun _ v => Q () (v.setLoopRegs ({ c with pc := next decoders prog a }.loopEnd i))) E u := by
  subst hpc hprog
  have key : ∀ (p : BitVec 32) (e : BitVec 16), e = (if (decoders (u.mem.prog c.pc)).needExpansion
      then u.mem.prog (c.pc + 1) else 0) →
      wp (setRegs repStep) (fun _ t => wp loopStep (fun _ t =>
        wp ((decoders (u.mem.prog c.pc)).call (u.mem.prog c.pc) e)
          (fun _ t => wp (interruptStep ops) Q E t) E t) E t) E (u.setLoopRegs { c with pc := p }) =
      wp (callAt decoders u.mem.prog c.pc)
        (fun _ v => Q () (v.setLoopRegs ({ c with pc := p }.loopEnd i))) E u := by
    rintro p e rfl
    rw [wp_repStep_of_not_rep (show (u.setLoopRegs { c with pc := p }).regs.rep = false from hrep),
      wp_loopStep_setLoopRegs (show ({ c with pc := p } : LoopRegs).lp = true from hlp) hi]
    rw [← callAt, hb.comm]
    exact wp_congr_of_wp (hb.keeps u) fun _ v ⟨_, hv, _⟩ => by
      rw [wp_interruptStep_of_not_ie ops (by rw [Core.setLoopRegs_ie, hv, hie])]
  simp only [cycle, wp_bind, wp_fetch_setLoopRegs, next]
  split
  · rw [wp_fetch_setLoopRegs]; exact key _ _ (by simp only [*, if_true])
  · rw [wp_pure]; exact key _ _ (by simp only [*, if_false, Bool.false_eq_true])

theorem wp_run_add {s : Core} (a b : Nat) :
    wp (run ops decoders (a + b)) Q E s =
      wp (run ops decoders a) (fun _ t => wp (run ops decoders b) Q E t) E s := by
  induction a generalizing s with
  | zero => rw [Nat.zero_add, run, wp_pure]
  | succ a ih => simp only [Nat.succ_add, run, wp_bind, ih]

/-- A pass over the `m + 1` instructions from `a` to the end of the innermost body: their
    straight-line execution, then the loop-end bookkeeping at `end + 1`. -/
theorem run_pass (m : Nat) {a : BitVec 32} {c : LoopRegs} {u : Core}
    (hend : after decoders prog (m + 1) a = (c.bkrepStack i).end + 1)
    (hin : ∀ j, 0 < j → j ≤ m → after decoders prog j a ≠ (c.bkrepStack i).end + 1)
    (hb : ∀ j ≤ m, InBody (callAt decoders prog (after decoders prog j a)))
    (hprog : u.mem.prog = prog) (hrep : u.regs.rep = false) (hie : u.regs.ie = false)
    (hpc : c.pc = a) (hlp : c.lp = true) (hi : (c.bcn - 1).toNat = i.val) :
    wp (run ops decoders (m + 1)) Q E (u.setLoopRegs c) =
      wp (straight decoders prog (m + 1) a)
        (fun _ v => Q () (v.setLoopRegs ({ c with pc := (c.bkrepStack i).end + 1 }.loopEnd i))) E u := by
  induction m generalizing a c u with
  | zero =>
    rw [run, wp_bind, wp_cycle_body (hb 0 le_rfl) hprog hrep hie hpc hlp hi]
    simp only [run, wp_pure, straight, wp_bind, after]
    rw [show next decoders prog a = _ from hend]
  | succ m ih =>
    have hne : (c.bkrepStack i).end + 1 ≠ next decoders prog a := (hin 1 one_pos (by omega)).symm
    rw [run, wp_bind, wp_cycle_body (hb 0 (Nat.zero_le _)) hprog hrep hie hpc hlp hi,
      LoopRegs.loopEnd_of_ne hne, straight, wp_bind]
    exact wp_congr_of_wp ((hb 0 (Nat.zero_le _)).keeps u) fun _ v ⟨h1, h2, h3⟩ =>
      ih hend (fun j hj hjm => hin (j + 1) (by omega) (by omega))
        (fun j hj => hb (j + 1) (by omega)) (h3.trans hprog) (h1.trans hrep) (h2.trans hie) rfl hlp hi

end Cycle

/-! ## The passes of a loop -/

section Passes

variable {ops : RegisterMethods} {Q : Unit → Core → Prop} {E : String → Prop} {u : Core}
  {c : LoopRegs} {S e : BitVec 32} {m : Nat}

/-- A pass over a whole body. -/
theorem run_body {i : Fin 4} (hbody : Body decoders prog S e (m + 1)) (he : (c.bkrepStack i).end = e)
    (hpc : c.pc = S) (hlp : c.lp = true) (hi : (c.bcn - 1).toNat = i.val)
    (hprog : u.mem.prog = prog) (hrep : u.regs.rep = false) (hie : u.regs.ie = false) :
    wp (run ops decoders (m + 1)) Q E (u.setLoopRegs c) =
      wp (straight decoders prog (m + 1) S)
        (fun _ v => Q () (v.setLoopRegs ({ c with pc := (c.bkrepStack i).end + 1 }.loopEnd i))) E u := by
  subst he
  exact run_pass m hbody.ends (fun j hj hjm => hbody.inner j hj (by omega))
    (fun j hj => hbody.blind j (by omega)) hprog hrep hie hpc hlp hi

/-- From the start of a body whose frame has `lc = n`, `(n + 1) · len` cycles execute the
    body `n + 1` times, and leave `pc` after the body with the frame dropped. -/
theorem run_passes (i : Fin 4) (hbody : Body decoders prog S e (m + 1)) (n : Nat)
    (hS : (c.bkrepStack i).start = S) (he : (c.bkrepStack i).end = e)
    (hn : (c.bkrepStack i).lc.toNat = n) (hpc : c.pc = S) (hlp : c.lp = true)
    (hi : (c.bcn - 1).toNat = i.val) (hprog : u.mem.prog = prog) (hrep : u.regs.rep = false)
    (hie : u.regs.ie = false) :
    wp (run ops decoders ((n + 1) * (m + 1))) Q E (u.setLoopRegs c) =
      wp (repeatHandler (straight decoders prog (m + 1) S) (n + 1))
        (fun _ v => Q () (v.setLoopRegs (c.exit i))) E u := by
  induction n generalizing c u with
  | zero =>
    have h0 : (c.bkrepStack i).lc = 0 := BitVec.eq_of_toNat_eq hn
    rw [Nat.zero_add, Nat.one_mul, run_body hbody he hpc hlp hi hprog hrep hie,
      LoopRegs.loopEnd_eq_exit h0]
    simp only [repeatHandler, wp_bind, wp_pure]
  | succ n ih =>
    have h0 : (c.bkrepStack i).lc ≠ 0 := fun h => by simp [h] at hn
    rw [show (n + 1 + 1) * (m + 1) = (m + 1) + (n + 1) * (m + 1) by ring, wp_run_add,
      run_body hbody he hpc hlp hi hprog hrep hie, LoopRegs.loopEnd_countDown h0,
      repeatHandler, wp_bind]
    refine wp_congr_of_wp ((inBody_straight hbody.blind).keeps u) fun _ v ⟨h1, h2, h3⟩ => ?_
    rw [ih, LoopRegs.exit_countDown]
    · simpa only [Function.update_same] using hS
    · simpa only [Function.update_same] using he
    · simp only [Function.update_same, BitVec.toNat_sub, hn,
        show (1 : BitVec 16).toNat = 1 from rfl]
      omega
    exacts [hS, hlp, hi, h3.trans hprog, h1.trans hrep, h2.trans hie]

end Passes

/-! ## `bkrep #k, E` -/

section Bkrep

variable {ops : RegisterMethods} {Q : Unit → Core → Prop} {E : String → Prop} {t : Core}

/-- `BlockRepeat` below four frames pushes `{pc, address, lc}` on top. -/
theorem wp_blockRepeat_of_lt (lc : BitVec 16) (address : BitVec 32) (h : t.regs.bcn.toNat < 4) :
    wp (blockRepeat lc address) Q E t =
      Q () (t.setLoopRegs ⟨t.regs.pc, true, t.regs.bcn + 1,
        Function.update t.regs.bkrepStack ⟨t.regs.bcn.toNat, h⟩ ⟨t.regs.pc, address, lc⟩⟩) := by
  have h3 : ¬ 3 < t.regs.bcn := by rw [BitVec.lt_def, show (3 : BitVec 16).toNat = 3 from rfl]; omega
  unfold blockRepeat
  simp only [wp_bind, wp_regs, h3, if_false, wp_index4, h, dite_true, wp_setRegs]
  rfl

/-- The bookkeeping does nothing when `pc` is not just after the innermost body. -/
theorem wp_loopStep_of_not_end
    (h : t.regs.lp = true → (t.regs.bcn - 1).toNat < 4 ∧
      ∀ j : Fin 4, (t.regs.bcn - 1).toNat = j.val → (t.regs.bkrepStack j).end + 1 ≠ t.regs.pc) :
    wp loopStep Q E t = Q () t := by
  cases hlp : t.regs.lp
  · exact wp_loopStep_of_not_lp hlp
  · obtain ⟨hlt, hne⟩ := h hlp
    simp only [loopStep, wp_bind, wp_regs, hlp, if_true, wp_index4, hlt, dite_true,
      hne ⟨_, hlt⟩ rfl, if_false, wp_pure]

/-- The cycle of `bkrep #k, E` outside any body it would end: the frame `{pc, E, k}` is pushed
    with `pc` after the instruction, and no interrupt is taken. -/
theorem wp_cycle_bkrepImm8 (decoders : Decoders) (k : BitVec 16)
    (hd : decoders (t.mem.prog t.regs.pc) = ⟨true, fun _ e => bkrepImm8 k e⟩)
    (hrep : t.regs.rep = false) (hie : t.regs.ie = false) (hbcn : t.regs.bcn.toNat < 4)
    (hlp : t.regs.lp = (t.regs.bcn != 0))
    (hout : t.regs.lp = true → ∀ j : Fin 4, (t.regs.bcn - 1).toNat = j.val →
      (t.regs.bkrepStack j).end + 1 ≠ t.regs.pc + 1 + 1) :
    wp (cycle ops decoders) Q E t =
      Q () (t.setLoopRegs ⟨t.regs.pc + 1 + 1, true, t.regs.bcn + 1,
        Function.update t.regs.bkrepStack ⟨t.regs.bcn.toNat, hbcn⟩ ⟨t.regs.pc + 1 + 1,
          (t.mem.prog (t.regs.pc + 1)).setWidth 32 ||| ((t.regs.pc + 1 + 1) &&& 0x30000), k⟩⟩) := by
  have hrep' : ∀ p, ({ t.regs with pc := p } : RegisterState).rep = false := fun _ => hrep
  simp only [cycle, wp_bind, wp_fetch, hd, if_true, wp_setRegs, repStep_of_not_rep (hrep' _)]
  rw [wp_loopStep_of_not_end]
  · simp only [bkrepImm8, wp_bind, wp_regs]
    rw [wp_blockRepeat_of_lt, wp_interruptStep_of_not_ie]
    exacts [rfl, hie]
  · dsimp only
    intro h
    have h0 : t.regs.bcn.toNat ≠ 0 := fun h' => by
      simp [h, BitVec.eq_of_toNat_eq (y := 0) h'] at hlp
    refine ⟨?_, hout h⟩
    rw [BitVec.toNat_sub, show (1 : BitVec 16).toNat = 1 from rfl]
    omega

/-- `bkrep #k, E` at `P`, with a body of `m + 1` instructions from `P + 2` to `E`: `Run`
    executes the body `k + 1` times in `1 + (k + 1) · (m + 1)` cycles, and leaves `pc = E + 1`,
    `lp` and `bcn` as they were before the `bkrep`, and the frames below the one it pushed
    unchanged. -/
theorem run_bkrepImm8 (decoders : Decoders) (k : BitVec 16) (m : Nat) (s : Core)
    (hd : decoders (s.mem.prog s.regs.pc) = ⟨true, fun _ e => bkrepImm8 k e⟩)
    (hbody : Body decoders s.mem.prog (s.regs.pc + 1 + 1)
      ((s.mem.prog (s.regs.pc + 1)).setWidth 32 ||| ((s.regs.pc + 1 + 1) &&& 0x30000)) (m + 1))
    (hrep : s.regs.rep = false) (hie : s.regs.ie = false) (hbcn : s.regs.bcn.toNat < 4)
    (hlp : s.regs.lp = (s.regs.bcn != 0))
    (hout : s.regs.lp = true → ∀ j : Fin 4, (s.regs.bcn - 1).toNat = j.val →
      (s.regs.bkrepStack j).end + 1 ≠ s.regs.pc + 1 + 1) :
    wp (run ops decoders (1 + (k.toNat + 1) * (m + 1))) Q E s =
      wp (repeatHandler (straight decoders s.mem.prog (m + 1) (s.regs.pc + 1 + 1)) (k.toNat + 1))
        (fun _ v => Q () (v.setLoopRegs
          ⟨((s.mem.prog (s.regs.pc + 1)).setWidth 32 ||| ((s.regs.pc + 1 + 1) &&& 0x30000)) + 1,
            s.regs.lp, s.regs.bcn, Function.update s.regs.bkrepStack ⟨s.regs.bcn.toNat, hbcn⟩
              ⟨s.regs.pc + 1 + 1,
                (s.mem.prog (s.regs.pc + 1)).setWidth 32 ||| ((s.regs.pc + 1 + 1) &&& 0x30000), 0⟩⟩))
        E s := by
  rw [Nat.add_comm, run, wp_bind, wp_cycle_bkrepImm8 decoders k hd hrep hie hbcn hlp hout,
    run_passes ⟨s.regs.bcn.toNat, hbcn⟩ hbody k.toNat]
  · simp only [LoopRegs.exit, Function.update_same, Function.update_idem, BitVec.add_sub_cancel, ← hlp]
  iterate 3 simp only [Function.update_same]
  exacts [rfl, rfl, by rw [BitVec.add_sub_cancel], rfl, hrep, hie]

/-- `bkrep #2, 3` at 0, then `nop` everywhere else. -/
def bkrepDecoders : Decoders := fun w =>
  if w = 1 then ⟨true, fun _ e => bkrepImm8 2 e⟩ else ⟨false, fun _ _ => nop⟩

def bkrepProgram : Core :=
  { (default : Core) with
    mem := { (default : Core).mem with prog := fun a => if a = 0 then 1 else if a = 1 then 3 else 0 } }

/-- `bkrep #2, 3` over the two `nop`s at 2 and 3 runs in seven cycles and leaves `pc = 4`
    with no frame live. -/
theorem run_bkrepImm8_nops :
    Body bkrepDecoders bkrepProgram.mem.prog 2 3 2 ∧
    wp (run inertMethods bkrepDecoders 7) (fun _ t => t.regs.pc = 4 ∧ t.regs.bcn = 0)
      (fun _ => False) bkrepProgram := by
  have hbody : Body bkrepDecoders bkrepProgram.mem.prog 2 3 2 :=
    ⟨by decide, by decide, fun m h0 h2 => by interval_cases m; decide,
      fun m hm => by interval_cases m <;> exact InBody.pure⟩
  refine ⟨hbody, ?_⟩
  rw [show 7 = 1 + ((2 : BitVec 16).toNat + 1) * (1 + 1) from rfl,
    run_bkrepImm8 bkrepDecoders 2 1 bkrepProgram rfl hbody rfl rfl (by decide) rfl
      (fun h => absurd h (by decide))]
  exact And.intro (by decide) (by decide)

end Bkrep

end Teakra
