import Teakra.Interpreter.Loop

/-!
# Persisting the block-repeat stack

`StoreBlockRepeat` (`interpreter.h`, lines 1012–1027) writes the bottom frame
`bkrep_stack[0]` as four words below an address register, `lc`, the low halves of `start` and
`end`, then a flag word, and drops the frame from the live ones. `RestoreBlockRepeat`
(lines 991–1011) makes room for a frame below the live ones, reads the four words back, and
decodes them into `bkrep_stack[0]`.

The flag word holds `lp` in bit 15 and is meant to hold the page bits 17:16 of `start` in
bits 1:0 and those of `end` in bits 9:8 (spec §4.1). Line 1019 stores the page bits of `start`
in bits 9:8 as well, so the decoded `end` is on the page of `start`. The shift that makes room
(lines 995–996) copies the live frames to end at index 1 instead of at `bcn + 1`.

Results:
* `decodeFrame_storeFlag`, `storeFlag_valid`: what decoding gives back of an encoded frame.
* `wp_storeBlockRepeat_of_not_lp`, `wp_restoreBlockRepeat_of_not_lp`: the two methods outside
  a loop.
* `storeBlockRepeat_restoreBlockRepeat`: the round trip restores the address register, `lp`,
  `start` and `lc`, and puts `end` on the page of `start`.
-/

namespace Teakra

/-! ## Bits of the encoding -/

theorem getLsbD_of_toNat_lt {w : Nat} {x : BitVec w} {k i : Nat} (h : x.toNat < 2 ^ k)
    (hi : k ≤ i) : x.getLsbD i = false :=
  Nat.testBit_lt_two_pow (Nat.lt_of_lt_of_le h (Nat.pow_le_pow_right (by decide) hi))

theorem and_0xFFFF (x : BitVec 32) : x &&& 0xFFFF = (x.setWidth 16).setWidth 32 := by
  apply BitVec.eq_of_toNat_eq
  rw [BitVec.toNat_and, show (0xFFFF : BitVec 32).toNat = 2 ^ 16 - 1 from rfl,
    Nat.and_pow_two_sub_one_eq_mod]
  simp only [BitVec.toNat_setWidth]
  omega

theorem and_3 (x : BitVec 32) : x &&& 3 = (x.setWidth 2).setWidth 32 := by
  apply BitVec.eq_of_toNat_eq
  rw [BitVec.toNat_and, show (3 : BitVec 32).toNat = 2 ^ 2 - 1 from rfl,
    Nat.and_pow_two_sub_one_eq_mod]
  simp only [BitVec.toNat_setWidth]
  omega

section Decode

variable (lp : Bool) (f : BlockRepeatFrame) (h : f.start.toNat < 2 ^ 18)
include h

/-- Bits 1:0 of the flag give back the page of `start`. -/
theorem storeFlag_start :
    ((f.start &&& 0xFFFF).setWidth 16).setWidth 32 ||| ((storeFlag lp f).setWidth 32 &&& 3) <<< 16 =
      f.start := by
  apply BitVec.eq_of_getLsbD_eq
  rintro ⟨i, hi⟩
  simp only [storeFlag, and_0xFFFF, and_3, BitVec.getLsbD_or, BitVec.getLsbD_setWidth,
    BitVec.getLsbD_shiftLeft, BitVec.getLsbD_ushiftRight]
  have hcases : i < 16 ∨ i = 16 ∨ i = 17 ∨ 18 ≤ i := by omega
  rcases hcases with h16 | rfl | rfl | h18 <;> [simp only [h16, hi, decide_True,
      Bool.true_and]; skip; skip;
      simp only [getLsbD_of_toNat_lt h h18, show ¬ i - 16 < 2 by omega, show ¬ i < 16 by omega]]
  all_goals cases lp <;> simp only [decide_True, decide_False, Bool.true_and, Bool.false_and,
      Bool.and_false, Bool.not_true, Bool.not_false, Bool.false_eq_true, ↓reduceIte,
      Nat.reduceShiftLeft, Nat.cast_zero, Nat.cast_ofNat, BitVec.reduceGetLsb, Bool.false_or,
      Bool.or_false, Nat.reduceLT, Nat.reduceSub, Nat.reduceAdd]

/-- Bits 9:8 of the flag give the page of `start`, not that of `end`. -/
theorem storeFlag_end :
    ((f.end &&& 0xFFFF).setWidth 16).setWidth 32 |||
        (((storeFlag lp f).setWidth 32 >>> 8) &&& 3) <<< 16 =
      (f.end &&& (0xFFFF : BitVec 32)) ||| ((f.start >>> 16) &&& 3) <<< 16 := by
  apply BitVec.eq_of_getLsbD_eq
  rintro ⟨i, hi⟩
  simp only [storeFlag, and_0xFFFF, and_3, BitVec.getLsbD_or, BitVec.getLsbD_setWidth,
    BitVec.getLsbD_shiftLeft, BitVec.getLsbD_ushiftRight]
  have hcases : i < 16 ∨ i = 16 ∨ i = 17 ∨ 18 ≤ i := by omega
  rcases hcases with h16 | rfl | rfl | h18 <;> [simp only [h16, hi, decide_True, Bool.true_and];
      simp only [getLsbD_of_toNat_lt h (show 18 ≤ 24 by decide)];
      simp only [getLsbD_of_toNat_lt h (show 18 ≤ 25 by decide)];
      simp only [show ¬ i - 16 < 2 by omega, show ¬ i < 16 by omega]]
  all_goals cases lp <;> simp only [decide_True, decide_False, Bool.true_and, Bool.false_and,
      Bool.and_false, Bool.not_true, Bool.not_false, Bool.false_eq_true, ↓reduceIte,
      Nat.reduceShiftLeft, Nat.cast_zero, Nat.cast_ofNat, BitVec.reduceGetLsb, Bool.false_or,
      Bool.or_false, Nat.reduceLT, Nat.reduceSub, Nat.reduceAdd]

/-- Bit 15 of the flag gives back `lp`. -/
theorem storeFlag_valid : ((storeFlag lp f).setWidth 32 >>> 15 != 0) = lp := by
  have hbit : (storeFlag lp f).setWidth 32 >>> 15 = if lp then 1 else 0 := by
    apply BitVec.eq_of_getLsbD_eq
    rintro ⟨i, hi⟩
    simp only [storeFlag, BitVec.getLsbD_or, BitVec.getLsbD_setWidth, BitVec.getLsbD_shiftLeft,
      BitVec.getLsbD_ushiftRight]
    by_cases h0 : i = 0
    · subst h0
      simp only [getLsbD_of_toNat_lt h (show 18 ≤ 31 by decide),
          getLsbD_of_toNat_lt h (show 18 ≤ 23 by decide)]
      cases lp <;> simp only [decide_True, decide_False, Bool.true_and, Bool.false_and,
          Bool.and_false, Bool.not_true, Bool.not_false, Bool.false_eq_true, ↓reduceIte,
          Nat.reduceShiftLeft, Nat.cast_zero, Nat.cast_ofNat, BitVec.reduceGetLsb, Bool.false_or,
          Bool.or_false, Nat.reduceLT, Nat.reduceSub, Nat.reduceAdd]
    · cases lp <;> simp [h0, show ¬ 15 + i < 16 by omega,
        BitVec.getLsbD_ge _ (15 + i) (show 16 ≤ 15 + i by omega)]
  rw [hbit]
  cases lp <;> decide

/-- Decoding the four words of a frame gives back `start` and `lc`, and `end` moved to the
    page of `start`. -/
theorem decodeFrame_storeFlag :
    decodeFrame ((storeFlag lp f).setWidth 32) ((f.end &&& 0xFFFF).setWidth 16)
        ((f.start &&& 0xFFFF).setWidth 16) f.lc =
      ⟨f.start, (f.end &&& (0xFFFF : BitVec 32)) ||| ((f.start >>> 16) &&& 3) <<< 16, f.lc⟩ := by
  rw [decodeFrame, storeFlag_start lp f h, storeFlag_end lp f h]

end Decode

/-! ## The copies and the parts of the restore -/

/-- The stack with frames `d + 1 .. d + n` moved one place down, onto `d .. d + n - 1`. -/
def shiftDown (st : Fin 4 → BlockRepeatFrame) (d n : Nat) : Fin 4 → BlockRepeatFrame := fun i =>
  if h : d ≤ i.val ∧ i.val < d + n ∧ i.val + 1 < 4 then st ⟨i.val + 1, h.2.2⟩ else st i

section Parts

variable {E : String → Prop} {Q : Unit → Core → Prop} (s : Core)

/-- The loop of `std::copy` from frame `d + 1` onto frame `d`, `n` times, moves `n` frames one
    place down. -/
theorem wp_copyFramesAux_shiftDown (d n : Nat) (h : d + n ≤ 3) :
    wp (copyFramesAux ((d : Int) + 1) d n) Q E s =
      Q () { s with regs := { s.regs with bkrepStack := shiftDown s.regs.bkrepStack d n } } := by
  induction n generalizing d s with
  | zero =>
    have : shiftDown s.regs.bkrepStack d 0 = s.regs.bkrepStack := funext fun i => by
      rw [shiftDown, dif_neg (by omega)]
    rw [this]; rfl
  | succ n ih =>
    unfold copyFramesAux copyFrame
    simp only [wp_bind, wp_indexInt, wp_setRegs]
    rw [dif_pos (by omega), dif_pos (by omega)]
    have := fun t => ih t (d + 1) (by omega)
    push_cast at this
    rw [this]
    congr 3
    funext i
    simp only [shiftDown, Function.update_apply, Fin.ext_iff]
    by_cases hi : i.val = d
    · rw [dif_neg (by omega), if_pos (by omega), dif_pos (by omega)]
      congr 1; ext; simp only; omega
    · by_cases hc : d + 1 ≤ i.val ∧ i.val < d + 1 + n ∧ i.val + 1 < 4
      · rw [dif_pos hc, if_neg (by omega), dif_pos (by omega)]
      · rw [dif_neg hc, if_neg (by omega), dif_neg (by omega)]

/-- `std::copy_backward` of the one live frame to end at index 1 copies frame 0 onto itself. -/
theorem wp_copyFramesBackward_one : wp (copyFramesBackward 0 1 1) Q E s = Q () s := by
  simp only [copyFramesBackward, copyFramesBackwardAux, copyFrame, wp_ite, wp_bind, wp_indexInt,
    wp_setRegs, wp_pure, Function.update_eq_self]
  rfl

/-- With two or three live frames it writes before the start of the array. -/
theorem wp_copyFramesBackward_out_of_range (k : Nat) (hk : k = 2 ∨ k = 3) :
    wp (copyFramesBackward 0 k 1) Q E s = E "out of range" := by
  rcases hk with rfl | rfl <;>
    simp only [copyFramesBackward, copyFramesBackwardAux, copyFrame, wp_ite, wp_bind, wp_indexInt,
      wp_setRegs, wp_throw, and_self, and_true, true_and, dite_true, dite_false, if_false,
      Int.reduceLT, Int.reduceLE, Int.reduceSub, Int.reduceToNat, Nat.cast_ofNat, le_refl,
      and_false, false_and]

theorem wp_copyFrames_shiftDown (k : Nat) (h1 : 1 ≤ k) (h4 : k ≤ 4) :
    wp (copyFrames 1 k 0) Q E s =
      Q () { s with regs := { s.regs with bkrepStack := shiftDown s.regs.bkrepStack 0 (k - 1) } } := by
  unfold copyFrames
  rw [if_neg (by omega), show ((k : Int) - 1).toNat = k - 1 by omega]
  simpa using (wp_copyFramesAux_shiftDown s 0 (k - 1) (by omega) : wp _ Q E s = _)

/-- Outside a loop `makeRoomForFrame` does nothing. -/
theorem wp_makeRoomForFrame_of_not_lp (hlp : s.regs.lp = false) :
    wp makeRoomForFrame Q E s = Q () s := by
  unfold makeRoomForFrame
  simp only [wp_bind, wp_regs, hlp, wp_ite, Bool.false_eq_true, if_false, wp_pure]

/-- With one live frame it copies frame 0 onto itself and counts two frames. -/
theorem wp_makeRoomForFrame_of_bcn_one (hlp : s.regs.lp = true) (hbcn : s.regs.bcn = 1) :
    wp makeRoomForFrame Q E s = Q () { s with regs := { s.regs with bcn := 2 } } := by
  unfold makeRoomForFrame
  simp only [wp_bind, wp_regs, hlp, hbcn, wp_ite, if_true, wp_pure, wp_setRegs,
    show (1 : BitVec 16).toNat = 1 from rfl, Int.natCast_one, wp_copyFramesBackward_one]
  rw [if_neg (by decide)]
  rfl

/-- With two or three live frames it leaves the array. -/
theorem wp_makeRoomForFrame_out_of_range (hlp : s.regs.lp = true)
    (hbcn : s.regs.bcn = 2 ∨ s.regs.bcn = 3) : wp makeRoomForFrame Q E s = E "out of range" := by
  unfold makeRoomForFrame
  simp only [wp_bind, wp_regs, hlp, wp_ite, if_true, wp_pure]
  rcases hbcn with h | h <;> rw [h, if_neg (by decide)]
  · rw [show (2 : BitVec 16).toNat = 2 from rfl, wp_copyFramesBackward_out_of_range s 2 (.inl rfl)]
  · rw [show (3 : BitVec 16).toNat = 3 from rfl, wp_copyFramesBackward_out_of_range s 3 (.inr rfl)]

/-- In a loop a valid frame is admitted as it is. -/
theorem wp_admitFrame_of_lp (flag : BitVec 32) (hlp : s.regs.lp = true)
    (hvalid : (flag >>> 15 != 0) = true) : wp (admitFrame flag) Q E s = Q () s := by
  unfold admitFrame
  simp only [wp_bind, wp_regs, hlp, hvalid, wp_ite, if_true, Bool.not_true, Bool.false_eq_true,
    if_false, wp_pure]

/-- Outside a loop the valid bit of the flag becomes `lp`, and a valid frame sets `bcn = 1`. -/
theorem wp_admitFrame_of_not_lp (flag : BitVec 32) (hlp : s.regs.lp = false) :
    wp (admitFrame flag) Q E s =
      Q () { s with regs := { s.regs with lp := flag >>> 15 != 0,
                                          bcn := if flag >>> 15 != 0 then 1 else s.regs.bcn } } := by
  unfold admitFrame
  simp only [wp_bind, wp_regs, hlp, wp_ite, Bool.false_eq_true, if_false, wp_setRegs, wp_pure]
  split_ifs with h
  · simp only [h, if_true]
  · rw [Bool.not_eq_true] at h
    simp only [h, Bool.false_eq_true, if_false]
    rw [← hlp]

end Parts

/-! ## The two methods outside a loop -/

section Wp

variable {E : String → Prop} {Q : Unit → Core → Prop} (a : AddrReg) (s : Core)

/-- Outside a loop `StoreBlockRepeat` only writes the four words and moves the register. -/
theorem wp_storeBlockRepeat_of_not_lp (hlp : s.regs.lp = false) :
    wp (storeBlockRepeat a) Q E s =
      Q () { regs := a.set (a.get s.regs - 1 - 1 - 1 - 1) s.regs,
             mem := { s.mem with
                      data := Function.update (Function.update (Function.update (Function.update
                        s.mem.data (a.get s.regs) (s.regs.bkrepStack 0).lc)
                        (a.get s.regs - 1) (((s.regs.bkrepStack 0).start &&& 0xFFFF).setWidth 16))
                        (a.get s.regs - 1 - 1) (((s.regs.bkrepStack 0).end &&& 0xFFFF).setWidth 16))
                        (a.get s.regs - 1 - 1 - 1) (storeFlag false (s.regs.bkrepStack 0)) } } := by
  unfold storeBlockRepeat
  simp only [wp_bind, wp_regs, wp_writePostDec, wp_ite, wp_pure, AddrReg.get_set, AddrReg.set_set,
    AddrReg.lp_set, AddrReg.bkrepStack_set, hlp, Bool.false_eq_true, if_false]

theorem ne_sub_one (x : BitVec 16) : x ≠ x - 1 := by bv_omega
theorem ne_sub_one_sub_one (x : BitVec 16) : x ≠ x - 1 - 1 := by bv_omega
theorem ne_sub_one_sub_one_sub_one (x : BitVec 16) : x ≠ x - 1 - 1 - 1 := by
  intro h
  have h3 := congrArg (· + 1 + 1 + 1) h
  simp only [BitVec.sub_add_cancel] at h3
  have := congrArg BitVec.toNat h3
  simp only [BitVec.toNat_add, show (1 : BitVec 16).toNat = 1 from rfl] at this
  omega

/-- The four words `StoreBlockRepeat` writes below `R`, read back. -/
theorem read_stored (d : BitVec 16 → BitVec 16) (R w0 w1 w2 w3 : BitVec 16) :
    let d' := Function.update (Function.update (Function.update (Function.update d R w0)
      (R - 1) w1) (R - 1 - 1) w2) (R - 1 - 1 - 1) w3
    d' (R - 1 - 1 - 1) = w3 ∧ d' (R - 1 - 1) = w2 ∧ d' (R - 1) = w1 ∧ d' R = w0 :=
  ⟨Function.update_same _ _ _,
    by rw [Function.update_noteq (ne_sub_one _), Function.update_same],
    by rw [Function.update_noteq (ne_sub_one_sub_one _), Function.update_noteq (ne_sub_one _),
      Function.update_same],
    by rw [Function.update_noteq (ne_sub_one_sub_one_sub_one _),
      Function.update_noteq (ne_sub_one_sub_one _), Function.update_noteq (ne_sub_one _),
      Function.update_same]⟩

/-- What `StoreBlockRepeat` leaves outside a loop: the register moved down by four, the loop
    state unchanged, and the four words of the bottom frame below the old register. -/
theorem storeBlockRepeat_writes (hlp : s.regs.lp = false) :
    wp (storeBlockRepeat a)
      (fun _ t =>
        let R := a.get s.regs
        let f := s.regs.bkrepStack 0
        a.get t.regs = R - 1 - 1 - 1 - 1 ∧ t.regs.lp = false ∧
        t.mem.data (R - 1 - 1 - 1) = storeFlag false f ∧
        t.mem.data (R - 1 - 1) = (f.end &&& 0xFFFF).setWidth 16 ∧
        t.mem.data (R - 1) = (f.start &&& 0xFFFF).setWidth 16 ∧ t.mem.data R = f.lc)
      (fun _ => False) s := by
  rw [wp_storeBlockRepeat_of_not_lp a s hlp]
  exact ⟨AddrReg.get_set, by rw [AddrReg.lp_set, hlp], read_stored _ _ _ _ _ _⟩

/-- Outside a loop `RestoreBlockRepeat` reads the four words above the register, starts a loop
    if the flag is valid, and decodes the frame into `bkrep_stack[0]`. -/
theorem wp_restoreBlockRepeat_of_not_lp (hlp : s.regs.lp = false) :
    wp (restoreBlockRepeat a)
      (fun _ t =>
        let R := a.get s.regs
        let flag := (s.mem.data (R + 1)).setWidth 32
        a.get t.regs = R + 1 + 1 + 1 + 1 ∧ t.regs.lp = (flag >>> 15 != 0) ∧
        t.regs.bkrepStack 0 = decodeFrame flag (s.mem.data (R + 1 + 1))
          (s.mem.data (R + 1 + 1 + 1)) (s.mem.data (R + 1 + 1 + 1 + 1)))
      (fun _ => False) s := by
  unfold restoreBlockRepeat
  simp only [wp_bind, wp_makeRoomForFrame_of_not_lp s hlp, wp_readPreInc, AddrReg.lp_set, hlp,
    wp_admitFrame_of_not_lp, wp_setRegs, Function.update_same]
  cases a <;> simp [AddrReg.get, AddrReg.set]

end Wp

/-- Outside a loop, storing the bottom frame and restoring it through the same address register
    gives back the register, `lp`, `start` and `lc` of a frame whose `start` is below `2^18`,
    and `end` with the page bits of `start`. -/
theorem storeBlockRepeat_restoreBlockRepeat (a : AddrReg) (s : Core) (hlp : s.regs.lp = false)
    (hstart : (s.regs.bkrepStack 0).start.toNat < 2 ^ 18) :
    wp (do storeBlockRepeat a; restoreBlockRepeat a)
      (fun _ t => a.get t.regs = a.get s.regs ∧ t.regs.lp = s.regs.lp ∧
        t.regs.bkrepStack 0 = ⟨(s.regs.bkrepStack 0).start,
          ((s.regs.bkrepStack 0).end &&& (0xFFFF : BitVec 32)) |||
            (((s.regs.bkrepStack 0).start >>> 16) &&& 3) <<< 16, (s.regs.bkrepStack 0).lc⟩)
      (fun _ => False) s := by
  rw [wp_bind]
  refine wp_mono (storeBlockRepeat_writes a s hlp) (fun _ t ht => ?_) (fun _ h => h)
  obtain ⟨ht, htl, h3, h2, h1, h0⟩ := ht
  refine wp_mono (wp_restoreBlockRepeat_of_not_lp a t htl) (fun _ u hu => ?_) (fun _ h => h)
  obtain ⟨ha, hl, hf⟩ := hu
  simp only [ht, BitVec.sub_add_cancel, h3, h2, h1, h0, storeFlag_valid false _ hstart,
    decodeFrame_storeFlag false _ hstart] at ha hl hf
  exact ⟨ha, hl.trans hlp.symm, hf⟩

/-! ## The two methods in a loop -/

section Loop

variable {E : String → Prop} {Q : Unit → Core → Prop}

/-- In a loop with `1 ≤ bcn ≤ 4`, `StoreBlockRepeat` moves the frames above the bottom one a
    place down, counts one frame fewer, and ends the loop when none is left. -/
theorem wp_storeBlockRepeat_of_lp (a : AddrReg) (s : Core) (hlp : s.regs.lp = true)
    (h1 : 1 ≤ s.regs.bcn.toNat) (h4 : s.regs.bcn.toNat ≤ 4) :
    wp (storeBlockRepeat a)
      (fun _ t => t.regs.bcn = s.regs.bcn - 1 ∧ (t.regs.lp = false ↔ s.regs.bcn = 1) ∧
        t.regs.bkrepStack = shiftDown s.regs.bkrepStack 0 (s.regs.bcn.toNat - 1))
      (fun _ => False) s := by
  unfold storeBlockRepeat
  simp only [wp_bind, wp_regs, wp_writePostDec, wp_ite, wp_pure, AddrReg.lp_set, AddrReg.bcn_set,
    AddrReg.bkrepStack_set, hlp, if_true, wp_copyFrames_shiftDown _ _ h1 h4, wp_setRegs]
  have hb : (s.regs.bcn - 1 == 0) = true ↔ s.regs.bcn = 1 := by simp only [beq_iff_eq]; bv_omega
  split_ifs with h
  · simpa using hb.1 h
  · simpa using mt hb.2 h

/-- In a loop with one live frame, `RestoreBlockRepeat` copies frame 0 onto itself instead of
    moving it up, counts two frames, and decodes the new frame over frame 0. -/
theorem wp_restoreBlockRepeat_of_bcn_one (a : AddrReg) (s : Core) (hlp : s.regs.lp = true)
    (hbcn : s.regs.bcn = 1)
    (hvalid : ((s.mem.data (a.get s.regs + 1)).setWidth 32 >>> 15 != 0) = true) :
    wp (restoreBlockRepeat a)
      (fun _ t =>
        let R := a.get s.regs
        t.regs.bcn = 2 ∧ t.regs.lp = true ∧
        t.regs.bkrepStack = Function.update s.regs.bkrepStack 0
          (decodeFrame ((s.mem.data (R + 1)).setWidth 32) (s.mem.data (R + 1 + 1))
            (s.mem.data (R + 1 + 1 + 1)) (s.mem.data (R + 1 + 1 + 1 + 1))))
      (fun _ => False) s := by
  unfold restoreBlockRepeat
  simp only [wp_bind, wp_makeRoomForFrame_of_bcn_one s hlp hbcn, wp_readPreInc]
  cases a <;> simp only [AddrReg.get, AddrReg.set] at hvalid ⊢ <;>
    simp only [wp_admitFrame_of_lp, hlp, hvalid, wp_readPreInc, wp_setRegs, AddrReg.get,
      AddrReg.set, Function.update_same, and_self]

/-- In a loop with two or three live frames, the copy of lines 995–996 reads or writes
    `bkrep_stack[-1]`. -/
theorem wp_restoreBlockRepeat_out_of_range (a : AddrReg) (s : Core) (hlp : s.regs.lp = true)
    (hbcn : s.regs.bcn = 2 ∨ s.regs.bcn = 3) :
    wp (restoreBlockRepeat a) Q (· = "out of range") s := by
  unfold restoreBlockRepeat
  rw [wp_bind, wp_makeRoomForFrame_out_of_range s hlp hbcn]

end Loop

/-- What the two methods do in a loop. `StoreBlockRepeat` pops the bottom frame: the frames
    above it move a place down. `RestoreBlockRepeat` does not push one: with one live frame the
    decoded frame replaces it and frame 1 keeps what it held, and with two or three the copy
    leaves the array. -/
theorem blockRepeat_stack_in_loop (a : AddrReg) :
    (∀ s : Core, s.regs.lp = true → s.regs.bcn = 1 →
      ((s.mem.data (a.get s.regs + 1)).setWidth 32 >>> 15 != 0) = true →
      wp (restoreBlockRepeat a)
        (fun _ t =>
          let R := a.get s.regs
          t.regs.bcn = 2 ∧ t.regs.lp = true ∧
          t.regs.bkrepStack = Function.update s.regs.bkrepStack 0
            (decodeFrame ((s.mem.data (R + 1)).setWidth 32) (s.mem.data (R + 1 + 1))
              (s.mem.data (R + 1 + 1 + 1)) (s.mem.data (R + 1 + 1 + 1 + 1))))
        (fun _ => False) s) ∧
    (∀ s : Core, s.regs.lp = true → (s.regs.bcn = 2 ∨ s.regs.bcn = 3) →
      wp (restoreBlockRepeat a) (fun _ _ => False) (· = "out of range") s) ∧
    (∀ s : Core, s.regs.lp = true → 1 ≤ s.regs.bcn.toNat → s.regs.bcn.toNat ≤ 4 →
      wp (storeBlockRepeat a)
        (fun _ t => t.regs.bcn = s.regs.bcn - 1 ∧ (t.regs.lp = false ↔ s.regs.bcn = 1) ∧
          t.regs.bkrepStack = shiftDown s.regs.bkrepStack 0 (s.regs.bcn.toNat - 1))
        (fun _ => False) s) :=
  ⟨wp_restoreBlockRepeat_of_bcn_one a, wp_restoreBlockRepeat_out_of_range a,
    wp_storeBlockRepeat_of_lp a⟩

/-- One live loop with frame `{0x100, 0x200, 5}`, and above `sp` a valid flag word and a zero
    frame. -/
def oneLiveLoop : Core :=
  { regs := { (default : Core).regs with lp := true, bcn := 1,
                                         bkrepStack := fun i => if i = 0 then ⟨0x100, 0x200,
                                             5⟩ else default },
    mem := { (default : Core).mem with data := fun a => if a = 1 then 0x8000 else 0 } }

/-- After the restore no slot of the stack holds the loop that was live. -/
theorem restoreBlockRepeat_loses_live_frame :
    oneLiveLoop.regs.lp = true ∧ oneLiveLoop.regs.bcn = 1 ∧
    wp (restoreBlockRepeat .sp)
      (fun _ t => t.regs.bcn = 2 ∧ ∀ i, t.regs.bkrepStack i ≠ oneLiveLoop.regs.bkrepStack 0)
      (fun _ => False) oneLiveLoop :=
  ⟨rfl, rfl, wp_mono ((blockRepeat_stack_in_loop .sp).1 oneLiveLoop rfl rfl (by decide))
    (fun _ _ ⟨hb, _, hst⟩ => ⟨hb, by rw [hst]; decide⟩) (fun _ h => h)⟩

/-- A frame whose `end` is on page 1 and whose `start` is on page 0, outside a loop. -/
def crossPageFrame : Core :=
  { (default : Core) with
    regs := { (default : Core).regs with bkrepStack := fun _ => ⟨0, 0x10000, 0⟩ } }

/-- The round trip brings `end = 0x10000` back as `0`. -/
theorem storeBlockRepeat_restoreBlockRepeat_crossPage :
    crossPageFrame.regs.lp = false ∧ (crossPageFrame.regs.bkrepStack 0).start.toNat < 2 ^ 18 ∧
    wp (do storeBlockRepeat .sp; restoreBlockRepeat .sp)
      (fun _ t => (t.regs.bkrepStack 0).end = 0) (fun _ => False) crossPageFrame :=
  ⟨rfl, by decide, wp_mono (storeBlockRepeat_restoreBlockRepeat .sp crossPageFrame rfl (by decide))
    (fun _ _ ⟨_, _, hf⟩ => by rw [hf]; decide) (fun _ h => h)⟩

end Teakra
