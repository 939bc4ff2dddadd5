import Teakra.Interpreter.Stack

/-!
# The loop engine

`BlockRepeat` (`interpreter.h`, lines 965–973), `break_` (lines 1108–1115), `Repeat`
(lines 1340–1343) and the pair that persists the bottom block-repeat frame to memory,
`RestoreBlockRepeat` and `StoreBlockRepeat` (lines 991–1027).

The two persisting methods shift the live frames with `std::copy_backward` and `std::copy`
over computed bounds. Leaving the four-element array is undefined behaviour in C++; the
model stops there with `"out of range"`.

Each method changes `bcn` and `lp`, so none of them is a frame update; the `Keeps` rules at
the end of the module show that every one of them keeps the loop invariant. What the two
persisting methods compute is the subject of `Teakra.Spec.LoopStack`.
-/

namespace Teakra

/-- A `u16` index into `bkrep_stack`. -/
@[irreducible]
def indexInt (i : Int) : M (Fin 4) :=
  if h : 0 ≤ i ∧ i < 4 then pure ⟨i.toNat, by omega⟩ else throw "out of range"

/-- Copy frame `src` of `bkrep_stack` onto frame `dst`. -/
@[irreducible]
def copyFrame (src dst : Int) : M Unit := do
  let i ← indexInt src
  let j ← indexInt dst
  setRegs fun r => { r with bkrepStack := Function.update r.bkrepStack j (r.bkrepStack i) }

/-- The loop of `std::copy`: `n` frames from `src` onwards onto `dst` onwards, lowest
    first. -/
def copyFramesAux (src dst : Int) : Nat → M Unit
  | 0 => pure ()
  | n + 1 => do
    copyFrame src dst
    copyFramesAux (src + 1) (dst + 1) n

/-- The loop of `std::copy_backward`: the `n` frames below `last` onto the `n` frames below
    `dLast`, highest first. -/
def copyFramesBackwardAux (last dLast : Int) : Nat → M Unit
  | 0 => pure ()
  | n + 1 => do
    copyFrame (last - 1) (dLast - 1)
    copyFramesBackwardAux (last - 1) (dLast - 1) n

/-- `std::copy(begin + first, begin + last, begin + dFirst)` on `bkrep_stack`. -/
@[irreducible]
def copyFrames (first last dFirst : Int) : M Unit :=
  if last < first then throw "out of range" else copyFramesAux first dFirst (last - first).toNat

/-- `std::copy_backward(begin + first, begin + last, begin + dLast)` on `bkrep_stack`. -/
@[irreducible]
def copyFramesBackward (first last dLast : Int) : M Unit :=
  if last < first then throw "out of range"
  else copyFramesBackwardAux last dLast (last - first).toNat

/-- `BlockRepeat` (lines 965–973): push the frame `{pc, address, lc}` as frame `bcn`. -/
@[irreducible]
def blockRepeat (lc : BitVec 16) (address : BitVec 32) : M Unit := do
  let r ← regs
  if 3 < r.bcn then throw "stack overflow"
  else
    let i ← index4 r.bcn
    setRegs fun r => { r with bkrepStack := Function.update r.bkrepStack i ⟨r.pc, address, lc⟩,
                              lp := true, bcn := r.bcn + 1 }

/-- `break_` (lines 1108–1115): drop the innermost live frame, without jumping. -/
@[irreducible]
def break_ : M Unit := do
  if !(← regs).lp then throw "not in a loop"
  else setRegs fun r => { r with bcn := r.bcn - 1, lp := r.bcn - 1 != 0 }

/-- `Repeat` (lines 1340–1343). -/
@[irreducible]
def «repeat» (repc : BitVec 16) : M Unit :=
  setRegs fun r => { r with repc := repc, rep := true }

/-- The `u16&` that `RestoreBlockRepeat` and `StoreBlockRepeat` walk through memory with:
    `r[unit]` or `sp`. -/
inductive AddrReg
  | r (unit : Fin 8)
  | sp

/-- The current value of the address register. -/
def AddrReg.get (r : RegisterState) : AddrReg → BitVec 16
  | .r unit => r.r unit
  | .sp => r.sp

/-- The address register set to `v`. -/
def AddrReg.set (v : BitVec 16) : AddrReg → RegisterState → RegisterState
  | .r unit => fun r => { r with r := Function.update r.r unit v }
  | .sp => fun r => { r with sp := v }

namespace AddrReg

variable {a : AddrReg} {v : BitVec 16} {r : RegisterState}

@[simp] theorem get_set : a.get (a.set v r) = v := by cases a <;> simp [get, set]
@[simp] theorem set_set {w : BitVec 16} : a.set v (a.set w r) = a.set v r := by
  cases a <;> simp [set]
@[simp] theorem acc_set : (a.set v r).acc = r.acc := by cases a <;> rfl
@[simp] theorem bcn_set : (a.set v r).bcn = r.bcn := by cases a <;> rfl
@[simp] theorem lp_set : (a.set v r).lp = r.lp := by cases a <;> rfl
@[simp] theorem bkrepStack_set : (a.set v r).bkrepStack = r.bkrepStack := by cases a <;> rfl

end AddrReg

/-- `mem.DataRead(++address_reg)`. -/
@[irreducible]
def readPreInc (a : AddrReg) : M (BitVec 16) := do
  setRegs fun r => a.set (a.get r + 1) r
  dataRead (a.get (← regs))

/-- `mem.DataWrite(address_reg--, value)`. -/
@[irreducible]
def writePostDec (a : AddrReg) (value : BitVec 16) : M Unit := do
  dataWrite (a.get (← regs)) value
  setRegs fun r => a.set (a.get r - 1) r

/-- The frame `RestoreBlockRepeat` decodes (lines 1008–1010) from the flag word and the words
    of `end`, `start` and `lc`: the page bits of `end` come from flag bits 9:8, those of
    `start` from flag bits 1:0. -/
def decodeFrame (flag : BitVec 32) (e s lc : BitVec 16) : BlockRepeatFrame :=
  ⟨s.setWidth 32 ||| (flag &&& 3) <<< 16, e.setWidth 32 ||| ((flag >>> 8) &&& 3) <<< 16, lc⟩

/-- Lines 992–998 of `RestoreBlockRepeat`: in a loop, shift the live frames with
    `std::copy_backward` to make room below them, and count one frame more. -/
@[irreducible]
def makeRoomForFrame : M Unit := do
  if (← regs).lp then
    if 3 < (← regs).bcn then throw "stack overflow"
    copyFramesBackward 0 (← regs).bcn.toNat 1
    setRegs fun r => { r with bcn := r.bcn + 1 }

/-- Lines 1000–1006 of `RestoreBlockRepeat`: a frame restored in a loop must be valid; outside
    a loop, a valid frame starts one of depth one. -/
@[irreducible]
def admitFrame (flag : BitVec 32) : M Unit := do
  let valid := flag >>> 15 != 0
  if (← regs).lp then
    if !valid then throw "pop invalid loop below valid loop"
  else
    if valid then setRegs fun r => { r with lp := true, bcn := 1 }

/-- `RestoreBlockRepeat` (lines 991–1011): make room below the live frames, read the flag
    word, and decode the frame into `bkrep_stack[0]`. -/
@[irreducible]
def restoreBlockRepeat (a : AddrReg) : M Unit := do
  makeRoomForFrame
  let flag : BitVec 32 := (← readPreInc a).setWidth 32
  admitFrame flag
  let e ← readPreInc a
  let s ← readPreInc a
  let lc ← readPreInc a
  setRegs fun r => { r with bkrepStack := Function.update r.bkrepStack 0 (decodeFrame flag e s lc) }

/-- The flag word `StoreBlockRepeat` writes (lines 1016–1018): `lp` in bit 15, and the page
    bits of `start` in bits 1:0 and again in bits 9:8. -/
def storeFlag (lp : Bool) (f : BlockRepeatFrame) : BitVec 16 :=
  (if lp then 1 else 0) <<< 15 ||| (f.start >>> 16).setWidth 16 ||| ((f.start >>> 16) <<< 8).setWidth 16

/-- `StoreBlockRepeat` (lines 1012–1027): write the bottom frame below `address_reg`, then drop
    it from the live frames. -/
@[irreducible]
def storeBlockRepeat (a : AddrReg) : M Unit := do
  let r ← regs
  let f := r.bkrepStack 0
  writePostDec a f.lc
  writePostDec a ((f.start &&& 0xFFFF).setWidth 16)
  writePostDec a ((f.end &&& 0xFFFF).setWidth 16)
  writePostDec a (storeFlag r.lp f)
  if (← regs).lp then
    copyFrames 1 (← regs).bcn.toNat 0
    setRegs fun r => { r with bcn := r.bcn - 1 }
    if (← regs).bcn == 0 then setRegs fun r => { r with lp := false }

/-! ## What the loop methods do -/

section Wp

variable {α : Type} {E : String → Prop} {s : Core}

@[simp] theorem wp_index4 {Q : Fin 4 → Core → Prop} (i : BitVec 16) :
    wp (index4 i) Q E s = if h : i.toNat < 4 then Q ⟨i.toNat, h⟩ s else E "out of range" := by
  unfold index4; split <;> rfl

@[simp] theorem wp_indexInt {Q : Fin 4 → Core → Prop} (i : Int) :
    wp (indexInt i) Q E s =
      if h : 0 ≤ i ∧ i < 4 then Q ⟨i.toNat, by omega⟩ s else E "out of range" := by
  unfold indexInt; split <;> rfl

@[simp] theorem wp_readPreInc {Q : BitVec 16 → Core → Prop} (a : AddrReg) :
    wp (readPreInc a) Q E s =
      Q (s.mem.data (a.get s.regs + 1)) { s with regs := a.set (a.get s.regs + 1) s.regs } := by
  unfold readPreInc
  simp only [wp_bind, wp_setRegs, wp_regs, wp_dataRead]
  cases a <;> simp [AddrReg.get, AddrReg.set]

@[simp] theorem wp_writePostDec {Q : Unit → Core → Prop} (a : AddrReg) (v : BitVec 16) :
    wp (writePostDec a v) Q E s =
      Q () { regs := a.set (a.get s.regs - 1) s.regs,
             mem := { s.mem with data := Function.update s.mem.data (a.get s.regs) v } } := by
  unfold writePostDec
  simp only [wp_bind, wp_setRegs, wp_regs, wp_dataWrite]

/-- The copy loops change nothing but the block-repeat stack, or stop out of range. -/
theorem wp_copyFramesAux {Q : Unit → Core → Prop}
    (hQ : ∀ st, Q () { s with regs := { s.regs with bkrepStack := st } })
    (hE : E "out of range") (src dst : Int) (n : Nat) : wp (copyFramesAux src dst n) Q E s := by
  induction n generalizing s src dst with
  | zero => exact hQ s.regs.bkrepStack
  | succ n ih =>
    unfold copyFramesAux copyFrame
    simp only [wp_bind, wp_indexInt, wp_setRegs]
    split_ifs <;> first | exact hE | exact ih (fun st => by exact hQ st) ..

theorem wp_copyFramesBackwardAux {Q : Unit → Core → Prop}
    (hQ : ∀ st, Q () { s with regs := { s.regs with bkrepStack := st } })
    (hE : E "out of range") (last dLast : Int) (n : Nat) :
    wp (copyFramesBackwardAux last dLast n) Q E s := by
  induction n generalizing s last dLast with
  | zero => exact hQ s.regs.bkrepStack
  | succ n ih =>
    unfold copyFramesBackwardAux copyFrame
    simp only [wp_bind, wp_indexInt, wp_setRegs]
    split_ifs <;> first | exact hE | exact ih (fun st => by exact hQ st) ..

theorem wp_copyFrames {Q : Unit → Core → Prop}
    (hQ : ∀ st, Q () { s with regs := { s.regs with bkrepStack := st } })
    (hE : E "out of range") (first last dFirst : Int) : wp (copyFrames first last dFirst) Q E s := by
  unfold copyFrames
  split
  · exact hE
  · exact wp_copyFramesAux hQ hE ..

theorem wp_copyFramesBackward {Q : Unit → Core → Prop}
    (hQ : ∀ st, Q () { s with regs := { s.regs with bkrepStack := st } })
    (hE : E "out of range") (first last dLast : Int) :
    wp (copyFramesBackward first last dLast) Q E s := by
  unfold copyFramesBackward
  split
  · exact hE
  · exact wp_copyFramesBackwardAux hQ hE ..

end Wp

/-! ## Every loop method keeps the loop invariant -/

namespace RegisterState

theorem loopInv_push {r r' : RegisterState} (h : ¬ 3 < r.bcn) (hb : r'.bcn = r.bcn + 1)
    (hl : r'.lp = true) : r'.LoopInv := by
  rw [BitVec.lt_def] at h
  unfold LoopInv; rw [hb, hl, Ne, BitVec.toNat_eq, BitVec.toNat_add]
  simp at h ⊢
  omega

theorem loopInv_pop {r r' : RegisterState} (h : r.LoopInv) (hlp : r.lp = true)
    (hb : r'.bcn = r.bcn - 1) (hl : r'.lp = (r.bcn - 1 != 0)) : r'.LoopInv := by
  unfold LoopInv at *; rw [hb, hl]
  rw [hlp, Ne, BitVec.toNat_eq] at h
  simp [Ne, BitVec.toNat_eq, BitVec.toNat_sub] at h ⊢
  omega

theorem LoopInv.of_eq {r r' : RegisterState} (h : r.LoopInv) (hb : r'.bcn = r.bcn)
    (hl : r'.lp = r.lp) : r'.LoopInv := by
  unfold LoopInv at *; rwa [hb, hl]

theorem loopInv_one {r : RegisterState} (hb : r.bcn = 1) (hl : r.lp = true) : r.LoopInv := by
  unfold LoopInv; rw [hb, hl]; decide

end RegisterState

section Keeps

open RegisterState

variable {ops : RegisterMethods} {F : Footprint} (hF : Sound ops F)
include hF

namespace Sound

theorem blockRepeat (lc : BitVec 16) (address : BitVec 32) :
    F.Keeps (blockRepeat lc address) fun _ => True := by
  intro s hs
  unfold Teakra.blockRepeat
  simp only [wp_bind, wp_regs, wp_index4, wp_setRegs, wp_ite, wp_throw]
  split_ifs with h
  · exact hF.fail _ (by decide)
  · exact ⟨hF.step s _ rfl (fun _ => loopInv_push h rfl rfl) hs, trivial⟩
  · exact hF.fail _ (by decide)

theorem break_ : F.Keeps break_ fun _ => True := by
  intro s hs
  unfold Teakra.break_
  simp only [wp_bind, wp_regs, wp_setRegs, wp_ite, wp_throw]
  split_ifs with h
  · exact hF.fail _ (by decide)
  · exact ⟨hF.step s _ rfl (fun hi => loopInv_pop hi (by simpa using h) rfl rfl) hs, trivial⟩

theorem makeRoomForFrame : F.Keeps makeRoomForFrame fun _ => True := by
  intro s hs
  unfold Teakra.makeRoomForFrame
  simp only [wp_bind, wp_regs, wp_ite, wp_throw, wp_setRegs, wp_pure]
  split_ifs with hlp hbcn
  · exact hF.fail _ (by decide)
  · refine wp_copyFramesBackward (fun st => ?_) (hF.fail _ (by decide)) ..
    exact ⟨hF.step s _ rfl (fun _ => loopInv_push hbcn rfl hlp) hs, trivial⟩
  · exact ⟨hs, trivial⟩

theorem admitFrame (flag : BitVec 32) : F.Keeps (admitFrame flag) fun _ => True := by
  intro s hs
  unfold Teakra.admitFrame
  simp only [wp_bind, wp_regs, wp_ite, wp_throw, wp_setRegs, wp_pure]
  split_ifs
  · exact hF.fail _ (by decide)
  · exact ⟨hs, trivial⟩
  · exact ⟨hF.step s _ rfl (fun _ => loopInv_one rfl rfl) hs, trivial⟩
  · exact ⟨hs, trivial⟩

theorem readPreInc (a : AddrReg) : F.Keeps (readPreInc a) fun _ => True := fun s hs => by
  rw [wp_readPreInc]
  exact ⟨hF.frame s _ AddrReg.acc_set AddrReg.bcn_set AddrReg.lp_set hs, trivial⟩

theorem restoreBlockRepeat (a : AddrReg) : F.Keeps (restoreBlockRepeat a) fun _ => True := by
  unfold Teakra.restoreBlockRepeat
  exact hF.makeRoomForFrame.seq fun _ => (hF.readPreInc a).seq fun _ =>
    (hF.admitFrame _).seq fun _ => (hF.readPreInc a).seq fun _ => (hF.readPreInc a).seq fun _ =>
      (hF.readPreInc a).seq fun _ => hF.setRegs fun _ => ⟨rfl, rfl, rfl⟩

theorem storeBlockRepeat (a : AddrReg) : F.Keeps (storeBlockRepeat a) fun _ => True := by
  intro s hs
  unfold Teakra.storeBlockRepeat
  simp only [wp_bind, wp_regs, wp_ite, wp_throw, wp_setRegs, wp_writePostDec, wp_pure]
  by_cases hlp : s.regs.lp
  · simp only [AddrReg.lp_set, hlp, if_true]
    refine wp_copyFrames (fun st => ?_) (hF.fail _ (by decide)) ..
    simp only [AddrReg.bcn_set]
    split_ifs with h0
    · exact ⟨hF.step s _ (by simp) (fun h => loopInv_pop h hlp (by simp) (by simpa using h0)) hs,
        trivial⟩
    · exact ⟨hF.step s _ (by simp)
        (fun h => loopInv_pop h hlp (by simp) (by simpa [hlp] using h0)) hs, trivial⟩
  · simp only [AddrReg.lp_set, hlp, if_false, Bool.false_eq_true]
    exact ⟨hF.step s _ (by simp) (fun h => h.of_eq (by simp) (by simp)) hs, trivial⟩

theorem «repeat» (repc : BitVec 16) : F.Keeps («repeat» repc) fun _ => True := by
  unfold Teakra.repeat; exact hF.setRegs fun _ => ⟨rfl, rfl, rfl⟩

end Sound

end Keeps

end Teakra
