import Teakra.Common.Bits

/-!
# The register file and the memory interface

`RegisterState` is declared in `register.h`, which is not in `src/`. The record below holds
every field `interpreter.h` reads or writes, with the widths of spec §3: `u64` words are
`BitVec 64`, `u32` words `BitVec 32`, `u16` words `BitVec 16`, and the 1-bit flags and modes
(which the code only ever sets to 0 or 1) `Bool`. Register arrays are functions on `Fin n`.

The methods of `RegisterState` that the interpreter calls but whose code is in
`register.h` are collected in `RegisterMethods`, a parameter of the whole model: condition
evaluation, the packed pseudo-registers (`Get<T>`/`Set<T>`), and the bank and shadow
swaps. They may keep their own state in `hidden`, which `interpreter.h` never names.

The memory interface is the embedder's (spec §4.5). The model takes a plain memory with a
16-bit data space and an 18-bit (stored as 32-bit) program space.
-/

namespace Teakra

/-- The register names of `RegName` that `interpreter.h` uses. -/
inductive RegName
  | a0 | a1 | b0 | b1
  | a0l | a1l | b0l | b1l
  | a0h | a1h | b0h | b1h
  | a0e | a1e | b0e | b1e
  | r0 | r1 | r2 | r3 | r4 | r5 | r6 | r7
  | x0 | x1 | y0 | y1
  | p0 | p1 | p
  | pc | sp | sv | lc
  | ar0 | ar1 | arp0 | arp1 | arp2 | arp3
  | ext0 | ext1 | ext2 | ext3
  | stt0 | stt1 | stt2 | st0 | st1 | st2
  | cfgi | cfgj | mod0 | mod1 | mod2 | mod3
  deriving DecidableEq, Repr

/-- The packed registers that `regs.Get<T>()` and `regs.Set<T>(v)` read and write through
    the bit layout of `register.h`. -/
inductive Pseudo
  | ar0 | ar1 | arp0 | arp1 | arp2 | arp3
  | stt0 | stt1 | stt2 | st0 | st1 | st2
  | cfgi | cfgj | mod0 | mod1 | mod2 | mod3 | icr
  deriving DecidableEq, Repr

/-- The four accumulators, as the switches of `GetAcc` and `SetAcc_Simple` group the
    names: `aX`, `aXl`, `aXh`, `aXe` all denote `a[X]`, and likewise for `b`. -/
inductive Acc
  | a (i : Fin 2)
  | b (i : Fin 2)
  deriving DecidableEq, Repr

/-- The accumulator a register name denotes for `GetAcc` and `SetAcc_Simple`. -/
def accSlot : RegName → Option Acc
  | .a0 | .a0h | .a0l | .a0e => some (.a 0)
  | .a1 | .a1h | .a1l | .a1e => some (.a 1)
  | .b0 | .b0h | .b0l | .b0e => some (.b 0)
  | .b1 | .b1h | .b1l | .b1e => some (.b 1)
  | _ => none

/-- The 4-bit condition field of a conditional instruction (`Cond`). -/
abbrev Cond := Fin 16

/-- `RegisterState::BlockRepeatFrame`: one level of the block-repeat stack. -/
structure BlockRepeatFrame where
  start : BitVec 32
  «end» : BitVec 32
  lc : BitVec 16
  deriving DecidableEq, Repr, Inhabited

/-- The fields of `RegisterState` that the interpreter uses. -/
structure RegisterState where
  pc : BitVec 32
  pcEndian : BitVec 16
  sp : BitVec 16
  repc : BitVec 16
  rep : Bool
  bcn : BitVec 16
  lp : Bool
  bkrepStack : Fin 4 → BlockRepeatFrame
  /-- The accumulator arrays `a` and `b`, as one function on `Acc`. -/
  acc : Acc → BitVec 64
  r : Fin 8 → BitVec 16
  r0b : BitVec 16
  r1b : BitVec 16
  r4b : BitVec 16
  r7b : BitVec 16
  x : Fin 2 → BitVec 16
  y : Fin 2 → BitVec 16
  p : Fin 2 → BitVec 32
  psign : Fin 2 → Bool
  ps : Fin 2 → BitVec 16
  ym : BitVec 16
  sv : BitVec 16
  mixp : BitVec 16
  viaddr : BitVec 32
  s : Bool
  sar : Fin 2 → Bool
  fz : Bool
  fm : Bool
  fn : Bool
  fv : Bool
  fe : Bool
  fc : Fin 2 → Bool
  flv : Bool
  fls : Bool
  fr : Bool
  vtr : Fin 2 → BitVec 16
  ie : Bool
  im : Fin 3 → Bool
  ip : Fin 3 → Bool
  ic : Fin 3 → Bool
  vim : Bool
  vip : Bool
  vic : Bool
  stepi : BitVec 16
  stepj : BitVec 16
  stepi0 : BitVec 16
  stepj0 : BitVec 16
  modi : BitVec 16
  modj : BitVec 16
  stepib : BitVec 16
  stepjb : BitVec 16
  stepi0b : BitVec 16
  stepj0b : BitVec 16
  modib : BitVec 16
  modjb : BitVec 16
  page : BitVec 16
  movpd : BitVec 16
  bankstep : Bool
  legacyMod : Bool
  brv : Fin 8 → Bool
  m : Fin 8 → Bool
  r3z : Bool
  r7z : Bool
  arrn : Fin 4 → Fin 8
  arstep : Fin 4 → BitVec 16
  aroffset : Fin 4 → BitVec 16
  arprni : Fin 4 → Fin 4
  arprnj : Fin 4 → Fin 4
  arpstepi : Fin 4 → BitVec 16
  arpstepj : Fin 4 → BitVec 16
  arpoffseti : Fin 4 → BitVec 16
  arpoffsetj : Fin 4 → BitVec 16
  /-- Storage of `register.h` that `interpreter.h` never names (shadow copies, ...). -/
  hidden : Nat → BitVec 16
  deriving Inhabited

/-- The methods of `RegisterState` (in `register.h`, not in `src/`) that the interpreter
    calls. The model is parametric in them. -/
structure RegisterMethods where
  ConditionPass : Cond → RegisterState → Bool
  Get : Pseudo → RegisterState → BitVec 16
  Set : Pseudo → BitVec 16 → RegisterState → RegisterState
  ShadowStore : RegisterState → RegisterState
  ShadowRestore : RegisterState → RegisterState
  ShadowSwap : RegisterState → RegisterState
  SwapAllArArp : RegisterState → RegisterState
  SwapAr : BitVec 16 → RegisterState → RegisterState
  SwapArp : BitVec 16 → RegisterState → RegisterState

/-- The memory behind `MemoryInterface`: the data space read by `DataRead` and the program
    space read by `ProgramRead`. -/
structure Memory where
  data : BitVec 16 → BitVec 16
  prog : BitVec 32 → BitVec 16
  deriving Inhabited

/-- The state an `Interpreter` works on: its `regs` and its `mem`. -/
structure Core where
  regs : RegisterState
  mem : Memory
  deriving Inhabited

namespace RegisterState

/-- The accumulators are canonical: the invariant of spec §3. -/
def AccCanon (r : RegisterState) : Prop := ∀ i, Canon (r.acc i)

/-- The invariant of the loop engine: at most four live block-repeat frames, and `lp` says
    whether there is one. -/
def LoopInv (r : RegisterState) : Prop := r.bcn.toNat ≤ 4 ∧ (r.lp = true ↔ r.bcn ≠ 0)

end RegisterState

/-- An update of the register file that leaves the accumulators and the loop counters
    alone. -/
def Frames (f : RegisterState → RegisterState) : Prop :=
  ∀ r, (f r).acc = r.acc ∧ (f r).bcn = r.bcn ∧ (f r).lp = r.lp

/-- The assumption the model makes on the methods of `register.h`: the bank and shadow swaps
    write no accumulator, `bcn` or `lp`; `Set<T>` leaves `bcn` and `lp` alone and, since a
    status register may hold the extension bits of an accumulator, only keeps the
    accumulators canonical. -/
structure RegisterMethods.Framed (ops : RegisterMethods) : Prop where
  set : ∀ p v r, (ops.Set p v r).bcn = r.bcn ∧ (ops.Set p v r).lp = r.lp ∧
    (r.AccCanon → (ops.Set p v r).AccCanon)
  shadowStore : Frames ops.ShadowStore
  shadowRestore : Frames ops.ShadowRestore
  shadowSwap : Frames ops.ShadowSwap
  swapAllArArp : Frames ops.SwapAllArArp
  swapAr : ∀ i, Frames (ops.SwapAr i)
  swapArp : ∀ i, Frames (ops.SwapArp i)

end Teakra
