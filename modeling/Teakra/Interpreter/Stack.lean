import Teakra.Interpreter.Shift

/-!
# The program counter, the data stack and the context switch

`PushPC`, `PopPC` and `SetPC_Save` (`interpreter.h`, lines 17–45) and `ContextStore`,
`ContextRestore` (lines 1138–1151).

`GetPcL`, `GetPcH` and `SetPC` are methods of `RegisterState` in `register.h`, which is not in
`src/`; they are modelled from the spec (§4.1): "PC is split to `l = pc & 0xFFFF`,
`h = (pc >> 16) & 3`", and "Pop mirrors push".

Results:
* `wp_pushPC`, `wp_popPC`: what the two methods do to `sp`, memory and `pc`.
* `popPC_pushPC`, `popPC_pushPC_of_lt`: popping what `PushPC` pushed restores `sp`, and
  `pc` reduced to 18 bits, for either `pc_endian`; so `pc` itself when `pc < 2^18`.
-/

namespace Teakra

/-- Modelled from the spec: `GetPcL()`, "`l = pc & 0xFFFF`". -/
def getPcL (r : RegisterState) : BitVec 16 := (r.pc &&& 0xFFFF).setWidth 16

/-- Modelled from the spec: `GetPcH()`, "`h = (pc >> 16) & 3`". -/
def getPcH (r : RegisterState) : BitVec 16 := ((r.pc >>> 16) &&& 3).setWidth 16

/-- Modelled from the spec: `SetPC(l, h)` joins the two halves that `PushPC` split ("Pop
    mirrors push"). -/
def setPC (l h : BitVec 16) (r : RegisterState) : RegisterState :=
  { r with pc := l.setWidth 32 ||| h.setWidth 32 <<< 16 }

theorem frames_setPC (l h : BitVec 16) : Frames (setPC l h) := fun _ => ⟨rfl, rfl, rfl⟩

/-- `mem.DataWrite(--regs.sp, value)`. -/
@[irreducible]
def pushWord (value : BitVec 16) : M Unit := do
  setRegs fun r => { r with sp := r.sp - 1 }
  dataWrite (← regs).sp value

/-- `mem.DataRead(regs.sp++)`. -/
@[irreducible]
def popWord : M (BitVec 16) := do
  let value ← dataRead (← regs).sp
  setRegs fun r => { r with sp := r.sp + 1 }
  return value

/-- `PushPC` (lines 17–27). -/
@[irreducible]
def pushPC : M Unit := do
  let r ← regs
  let l := getPcL r
  let h := getPcH r
  if r.pcEndian == 1 then do pushWord h; pushWord l
  else do pushWord l; pushWord h

/-- `PopPC` (lines 29–39). -/
@[irreducible]
def popPC : M Unit := do
  if (← regs).pcEndian == 1 then
    let l ← popWord
    let h ← popWord
    setRegs (setPC l h)
  else
    let h ← popWord
    let l ← popWord
    setRegs (setPC l h)

/-- `SetPC_Save` (lines 41–45): the only write of `pc` that checks the 18-bit bound. -/
@[irreducible]
def setPCSave (newPc : BitVec 32) : M Unit :=
  if 0x40000 ≤ newPc then throw "pc flies" else setRegs fun r => { r with pc := newPc }

variable (ops : RegisterMethods)

/-- `ContextStore` (lines 1138–1145): save and swap the shadow registers, then move `a1` to
    `b1` directly and `b1` to `a1` through `SetAcc_NoSaturation`. -/
@[irreducible]
def contextStore : M Unit := do
  setRegs ops.ShadowStore
  setRegs ops.ShadowSwap
  let r ← regs
  let a := r.acc (.a 1)
  let b := r.acc (.b 1)
  setRegs fun r => { r with acc := Function.update r.acc (.b 1) a }
  setAccNoSaturation .a1 b

/-- `ContextRestore` (lines 1147–1151). -/
@[irreducible]
def contextRestore : M Unit := do
  setRegs ops.ShadowRestore
  setRegs ops.ShadowSwap
  setRegs fun r =>
    { r with acc := Function.update (Function.update r.acc (.a 1) (r.acc (.b 1))) (.b 1)
                      (r.acc (.a 1)) }

/-! ## What the stack methods do -/

section Wp

variable {E : String → Prop} {s : Core}

@[simp] theorem wp_pushWord {Q : Unit → Core → Prop} (v : BitVec 16) :
    wp (pushWord v) Q E s =
      Q () { regs := { s.regs with sp := s.regs.sp - 1 },
             mem := { s.mem with data := Function.update s.mem.data (s.regs.sp - 1) v } } := by
  unfold pushWord; simp only [wp_bind, wp_setRegs, wp_regs, wp_dataWrite]

@[simp] theorem wp_popWord {Q : BitVec 16 → Core → Prop} :
    wp popWord Q E s =
      Q (s.mem.data s.regs.sp) { s with regs := { s.regs with sp := s.regs.sp + 1 } } := by
  unfold popWord; simp only [wp_bind, wp_setRegs, wp_regs, wp_dataRead, wp_pure]

/-- The two words `PushPC` pushes, in the order it pushes them. -/
def pcWords (r : RegisterState) : BitVec 16 × BitVec 16 :=
  if r.pcEndian == 1 then (getPcH r, getPcL r) else (getPcL r, getPcH r)

/-- `PushPC` writes the two words of `pc` below `sp`, and moves `sp` down by two. -/
@[simp] theorem wp_pushPC {Q : Unit → Core → Prop} :
    wp pushPC Q E s =
      Q () { regs := { s.regs with sp := s.regs.sp - 1 - 1 },
             mem := { s.mem with
                      data := Function.update
                                (Function.update s.mem.data (s.regs.sp - 1) (pcWords s.regs).1)
                                (s.regs.sp - 1 - 1) (pcWords s.regs).2 } } := by
  unfold pushPC pcWords
  simp only [wp_bind, wp_regs, wp_ite, wp_pushWord]
  split <;> rfl

/-- `PopPC` joins the two words above `sp`, read in the order `PushPC` did not write them,
    and moves `sp` up by two. -/
@[simp] theorem wp_popPC {Q : Unit → Core → Prop} :
    wp popPC Q E s =
      let first := s.mem.data s.regs.sp
      let second := s.mem.data (s.regs.sp + 1)
      Q () { s with regs := (if s.regs.pcEndian == 1 then setPC first second
                             else setPC second first) { s.regs with sp := s.regs.sp + 1 + 1 } } := by
  unfold popPC
  simp only [wp_bind, wp_regs, wp_ite, wp_popWord, wp_setRegs]
  split <;> rfl

theorem getPcL_eq (r : RegisterState) : getPcL r = r.pc.setWidth 16 := by
  apply BitVec.eq_of_toNat_eq
  rw [getPcL, BitVec.toNat_setWidth, BitVec.toNat_setWidth, BitVec.toNat_and,
    show (0xFFFF : BitVec 32).toNat = 2 ^ 16 - 1 from rfl, Nat.and_pow_two_sub_one_eq_mod]
  omega

theorem getPcH_eq (r : RegisterState) :
    getPcH r = ((r.pc >>> 16).setWidth 2).setWidth 16 := by
  apply BitVec.eq_of_toNat_eq
  rw [getPcH, BitVec.toNat_setWidth, BitVec.toNat_setWidth, BitVec.toNat_setWidth,
    BitVec.toNat_and, show (3 : BitVec 32).toNat = 2 ^ 2 - 1 from rfl,
    Nat.and_pow_two_sub_one_eq_mod]

/-- Joining the two words of `pc` gives `pc` reduced to its 18 bits. -/
@[simp] theorem setPC_getPc (r r' : RegisterState) :
    (setPC (getPcL r) (getPcH r) r').pc = r.pc &&& 0x3FFFF := by
  apply BitVec.eq_of_getLsbD_eq
  intro i
  simp only [setPC, getPcL_eq, getPcH_eq, BitVec.getLsbD_or, BitVec.getLsbD_setWidth,
    BitVec.getLsbD_shiftLeft, BitVec.getLsbD_ushiftRight, BitVec.getLsbD_and,
    show (0x3FFFF : BitVec 32) = BitVec.ofNat 32 (2 ^ 18 - 1) from rfl, BitVec.getLsbD_ofNat,
    Nat.testBit_two_pow_sub_one]
  by_cases h16 : i.val < 16
  · simp [h16, show i.val < 18 by omega]
  · by_cases h18 : i.val < 18
    · simp [h16, h18, show i.val - 16 < 2 by omega, show i.val - 16 < 16 by omega,
        show i.val - 16 < 32 by omega, show 16 + (i.val - 16) = i.val by omega]
    · simp [h16, h18, show ¬ i.val - 16 < 2 by omega]

/-- Reducing to 18 bits changes no `pc` below `2^18`. -/
theorem and_pcMask_of_lt {pc : BitVec 32} (h : pc.toNat < 2 ^ 18) : pc &&& 0x3FFFF = pc := by
  apply BitVec.eq_of_toNat_eq
  rw [BitVec.toNat_and, show (0x3FFFF : BitVec 32).toNat = 2 ^ 18 - 1 from rfl,
    Nat.and_pow_two_sub_one_eq_mod, Nat.mod_eq_of_lt h]

/-- `PopPC` from a state whose two words above `sp` are those `PushPC` wrote for `r`, under
    the same `pc_endian`: it joins them into `r.pc`, reduced to 18 bits. -/
theorem wp_popPC_of_pushed {Q : Unit → Core → Prop} (r : RegisterState)
    (he : s.regs.pcEndian = r.pcEndian) (h2 : s.mem.data s.regs.sp = (pcWords r).2)
    (h1 : s.mem.data (s.regs.sp + 1) = (pcWords r).1) :
    wp popPC Q E s =
      Q () { s with regs := setPC (getPcL r) (getPcH r) { s.regs with sp := s.regs.sp + 1 + 1 } } := by
  rw [wp_popPC]
  simp only [h1, h2, he, pcWords]
  split <;> rfl

/-- Popping what `PushPC` pushed restores `sp`, and `pc` reduced to 18 bits, for either
    `pc_endian`. -/
theorem popPC_pushPC (s : Core) :
    wp (do pushPC; popPC) (fun _ t => t.regs.pc = s.regs.pc &&& 0x3FFFF ∧ t.regs.sp = s.regs.sp)
      (fun _ => False) s := by
  have hne : s.regs.sp - 1 ≠ s.regs.sp - 1 - 1 := by bv_omega
  rw [wp_bind, wp_pushPC, wp_popPC_of_pushed s.regs]
  · exact ⟨setPC_getPc _ _, by simp only [setPC, BitVec.sub_add_cancel]⟩
  · rfl
  · exact Function.update_same _ _ _
  · show Function.update _ _ _ (s.regs.sp - 1 - 1 + 1) = _
    rw [BitVec.sub_add_cancel, Function.update_noteq hne, Function.update_same]

/-- So `PushPC; PopPC` restores `pc` and `sp` whenever `pc` is below `2^18`. -/
theorem popPC_pushPC_of_lt (s : Core) (h : s.regs.pc.toNat < 2 ^ 18) :
    wp (do pushPC; popPC) (fun _ t => t.regs.pc = s.regs.pc ∧ t.regs.sp = s.regs.sp)
      (fun _ => False) s :=
  wp_mono (popPC_pushPC s) (fun _ _ ht => ⟨ht.1.trans (and_pcMask_of_lt h), ht.2⟩) (fun _ h => h)

end Wp

/-! ## The stack keeps every sound footprint -/

section Keeps

variable {ops} {F : Footprint} (hF : Sound ops F)
include hF

namespace Sound

theorem pushWord (v : BitVec 16) : F.Keeps (pushWord v) fun _ => True := by
  unfold Teakra.pushWord
  exact .seq (hF.setRegs fun _ => ⟨rfl, rfl, rfl⟩) fun _ => .seq hF.regs fun _ => hF.dataWrite _ _

theorem popWord : F.Keeps popWord fun _ => True := by
  unfold Teakra.popWord
  exact .seq hF.regs fun _ => .seq (.dataRead _) fun _ =>
    .seq (hF.setRegs fun _ => ⟨rfl, rfl, rfl⟩) fun _ => .triv

theorem pushPC : F.Keeps pushPC fun _ => True := by
  unfold Teakra.pushPC
  exact .seq hF.regs fun _ => .ite (fun _ => .seq (hF.pushWord _) fun _ => hF.pushWord _)
    (fun _ => .seq (hF.pushWord _) fun _ => hF.pushWord _)

theorem popPC : F.Keeps popPC fun _ => True := by
  unfold Teakra.popPC
  exact .seq hF.regs fun _ => .ite
    (fun _ => .seq hF.popWord fun _ => .seq hF.popWord fun _ => hF.setRegs (frames_setPC _ _))
    (fun _ => .seq hF.popWord fun _ => .seq hF.popWord fun _ => hF.setRegs (frames_setPC _ _))

theorem setPCSave (newPc : BitVec 32) : F.Keeps (setPCSave newPc) fun _ => True := by
  unfold Teakra.setPCSave
  exact .ite (fun _ => hF.throw (by decide)) (fun _ => hF.setRegs fun _ => ⟨rfl, rfl, rfl⟩)

theorem contextStore : F.Keeps (contextStore ops) fun _ => True := by
  unfold Teakra.contextStore
  exact .seq (hF.setRegs (hF.methods.shadowStore)) fun _ =>
    .seq (hF.setRegs (hF.methods.shadowSwap)) fun _ => .bind hF.regs fun _ hr =>
      .seq (.setRegs fun s => hF.write s _ _ (hr _)) fun _ => hF.setAccNoSaturation _ (hr _)

theorem contextRestore : F.Keeps (contextRestore ops) fun _ => True := by
  unfold Teakra.contextRestore
  exact .seq (hF.setRegs (hF.methods.shadowRestore)) fun _ =>
    .seq (hF.setRegs (hF.methods.shadowSwap)) fun _ => .setRegs fun s hs =>
      hF.write _ _ _ (hF.read s _ hs) (hF.write s _ _ (hF.read s _ hs) hs)

end Sound

end Keeps

end Teakra
