import Teakra.Interpreter.Monad

/-!
# Accumulators, products and the 16-bit bus

The private helpers of `Interpreter` that move values between the register file and the
16-bit and 40-bit buses (`interpreter.h`, lines 2942–3514): `GetAcc`, the saturators,
`RegToBus16`, `SetAccFlag`, the `SetAcc` family, `RegFromBus16`, the product buses and
`CounterAcc`.

An index outside a register array is undefined behaviour in C++; the model stops there with
the message `"out of range"`.
-/

namespace Teakra

open RegisterState

variable (ops : RegisterMethods)

/-- A `u16` used as an index into a 4-element array (`bkrep_stack[i]`). -/
@[irreducible]
def index4 (i : BitVec 16) : M (Fin 4) :=
  if h : i.toNat < 4 then pure ⟨i.toNat, h⟩ else throw "out of range"

/-- Modelled from the spec: `RegisterState::Lc()` (in `register.h`) is the loop counter of the
    innermost live frame, `bkrep_stack[bcn - 1].lc` while `lp`, else `bkrep_stack[0].lc`.
    This is the index of that frame. -/
@[irreducible]
def lcIndex : M (Fin 4) := do
  let r ← regs
  index4 (if r.lp then r.bcn - 1 else 0)

/-- The accumulator `name` denotes in the switches of `GetAcc` and `SetAcc_Simple`, which
    throw `"nope"` for any other name. -/
@[irreducible]
def accOf (name : RegName) : M Acc :=
  match accSlot name with
  | some i => pure i
  | none => throw "nope"

/-- `GetAcc` (lines 2942–2950). -/
@[irreducible]
def getAcc (name : RegName) : M (BitVec 64) := do
  let i ← accOf name
  return (← regs).acc i

/-- `SaturateAcc_Unconditional_NoFlag` (lines 2952–2960). -/
def saturateAccUnconditionalNoFlag (value : BitVec 64) : BitVec 64 :=
  if value ≠ SignExtend 32 value then
    if value >>> 39 ≠ 0 then 0xFFFFFFFF80000000#64 else 0x000000007FFFFFFF#64
  else value

/-- `SaturateAcc_Unconditional` (lines 2962–2972): as above, and sets `fls` when it clamps. -/
@[irreducible]
def saturateAccUnconditional (value : BitVec 64) : M (BitVec 64) := do
  if value ≠ SignExtend 32 value then
    setRegs fun r => { r with fls := true }
  return saturateAccUnconditionalNoFlag value

/-- `sar[storing]`: the saturation-disable bit of the store (`true`) or load path. -/
def sarIndex (storing : Bool) : Fin 2 := if storing then 1 else 0

/-- `SaturateAcc` (lines 2974–2979). -/
@[irreducible]
def saturateAcc (value : BitVec 64) (storing : Bool) : M (BitVec 64) := do
  if !(← regs).sar (sarIndex storing) then saturateAccUnconditional value
  else return value

/-- `SaturateAcc_NoFlag` (lines 2981–2986). -/
@[irreducible]
def saturateAccNoFlag (value : BitVec 64) (storing : Bool) : M (BitVec 64) := do
  if !(← regs).sar (sarIndex storing) then return saturateAccUnconditionalNoFlag value
  else return value

/-- `ProductToBus40` on a unit (lines 3449–3478): the product `p[unit]` with its sign bit
    `psign[unit]` as bit 32, shifted as `ps[unit]` says and sign-extended. A `ps` of 4 or more
    matches no case of the `switch` and leaves the word as it is. -/
def productBus40 (r : RegisterState) (unit : Fin 2) : BitVec 64 :=
  let value := (r.p unit).setWidth 64 ||| ((if r.psign unit then 1#64 else 0#64) <<< 32)
  if r.ps unit = 0 then SignExtend 33 value
  else if r.ps unit = 1 then SignExtend 32 (value >>> 1)
  else if r.ps unit = 2 then SignExtend 34 (value <<< 1)
  else if r.ps unit = 3 then SignExtend 35 (value <<< 2)
  else value

/-- The product unit a name denotes (the `switch` at the head of the product helpers). -/
@[irreducible]
def productUnit (reg : RegName) : M (Fin 2) :=
  match reg with
  | .p0 => pure 0
  | .p1 => pure 1
  | _ => throw "???"

/-- `ProductToBus32_NoShift` (lines 3436–3447). -/
@[irreducible]
def productToBus32NoShift (reg : RegName) : M (BitVec 32) := do
  let unit ← productUnit reg
  return (← regs).p unit

/-- `ProductToBus40` (lines 3449–3478). -/
@[irreducible]
def productToBus40 (reg : RegName) : M (BitVec 64) := do
  let unit ← productUnit reg
  return productBus40 (← regs) unit

/-- `ProductFromBus32` (lines 3480–3492). -/
@[irreducible]
def productFromBus32 (reg : RegName) (value : BitVec 32) : M Unit := do
  let unit ← productUnit reg
  setRegs fun r => { r with p := Function.update r.p unit value,
                            psign := Function.update r.psign unit (value.getLsbD 31) }

/-- `RegToBus16` (lines 2988–3067). -/
@[irreducible]
def regToBus16 (reg : RegName) (enableSatForMov : Bool) : M (BitVec 16) := do
  let r ← regs
  match reg with
  | .a0 | .a1 | .b0 | .b1 => return (← getAcc reg).setWidth 16
  | .a0l | .a1l | .b0l | .b1l =>
    if enableSatForMov then return (← saturateAcc (← getAcc reg) false).setWidth 16
    else return (← getAcc reg).setWidth 16
  | .a0h | .a1h | .b0h | .b1h =>
    if enableSatForMov then return ((← saturateAcc (← getAcc reg) false) >>> 16).setWidth 16
    else return ((← getAcc reg) >>> 16).setWidth 16
  | .a0e | .a1e | .b0e | .b1e => throw "?"
  | .r0 => return r.r 0
  | .r1 => return r.r 1
  | .r2 => return r.r 2
  | .r3 => return r.r 3
  | .r4 => return r.r 4
  | .r5 => return r.r 5
  | .r6 => return r.r 6
  | .r7 => return r.r 7
  | .x0 => return r.x 0
  | .x1 => return r.x 1
  | .y0 => return r.y 0
  | .y1 => return r.y 1
  | .p0 | .p1 => throw "?"
  | .p => return ((productBus40 r 0) >>> 16).setWidth 16
  | .pc => throw "?"
  | .sp => return r.sp
  | .sv => return r.sv
  | .lc => return (r.bkrepStack (← lcIndex)).lc
  | .ar0 => return ops.Get .ar0 r
  | .ar1 => return ops.Get .ar1 r
  | .arp0 => return ops.Get .arp0 r
  | .arp1 => return ops.Get .arp1 r
  | .arp2 => return ops.Get .arp2 r
  | .arp3 => return ops.Get .arp3 r
  | .ext0 | .ext1 | .ext2 | .ext3 => throw "?"
  | .stt0 => return ops.Get .stt0 r
  | .stt1 => return ops.Get .stt1 r
  | .stt2 => return ops.Get .stt2 r
  | .st0 => return ops.Get .st0 r
  | .st1 => return ops.Get .st1 r
  | .st2 => return ops.Get .st2 r
  | .cfgi => return ops.Get .cfgi r
  | .cfgj => return ops.Get .cfgj r
  | .mod0 => return ops.Get .mod0 r
  | .mod1 => return ops.Get .mod1 r
  | .mod2 => return ops.Get .mod2 r
  | .mod3 => return ops.Get .mod3 r

/-- `SetAccFlag` (lines 3069–3078). Its first line throws "remove this check later" on a
    word that is not a sign-extended 40-bit value. -/
@[irreducible]
def setAccFlag (value : BitVec 64) : M Unit := do
  if value ≠ SignExtend 40 value then throw "remove this check later"
  let fz := value == 0
  let fe := value != SignExtend 32 value
  setRegs fun r => { r with fz := fz, fm := value >>> 39 != 0, fe := fe,
                            fn := fz || (!fe && (value.getLsbD 31 ^^ value.getLsbD 30)) }

/-- `SetAcc_Simple` (lines 3089–3097). -/
@[irreducible]
def setAccSimple (name : RegName) (value : BitVec 64) : M Unit := do
  let i ← accOf name
  setRegs fun r => { r with acc := Function.update r.acc i value }

/-- `SetAcc` (lines 3080–3087). -/
@[irreducible]
def setAcc (name : RegName) (value : BitVec 64) (noSaturation : Bool) : M Unit := do
  setAccFlag value
  if !noSaturation then setAccSimple name (← saturateAcc value true)
  else setAccSimple name value

/-- `SetAcc_NoSaturation` (lines 3099–3101). -/
@[irreducible]
def setAccNoSaturation (name : RegName) (value : BitVec 64) : M Unit :=
  setAcc name value true

/-- `RegFromBus16` (lines 3104–3173). -/
@[irreducible]
def regFromBus16 (reg : RegName) (value : BitVec 16) : M Unit := do
  match reg with
  | .a0 | .a1 | .b0 | .b1 => setAcc reg (SignExtend 16 (value.setWidth 64)) false
  | .a0l | .a1l | .b0l | .b1l => setAcc reg (value.setWidth 64) false
  | .a0h | .a1h | .b0h | .b1h => setAcc reg (SignExtend 32 (value.setWidth 64 <<< 16)) false
  | .a0e | .a1e | .b0e | .b1e => throw "?"
  | .r0 => setRegs fun r => { r with r := Function.update r.r 0 value }
  | .r1 => setRegs fun r => { r with r := Function.update r.r 1 value }
  | .r2 => setRegs fun r => { r with r := Function.update r.r 2 value }
  | .r3 => setRegs fun r => { r with r := Function.update r.r 3 value }
  | .r4 => setRegs fun r => { r with r := Function.update r.r 4 value }
  | .r5 => setRegs fun r => { r with r := Function.update r.r 5 value }
  | .r6 => setRegs fun r => { r with r := Function.update r.r 6 value }
  | .r7 => setRegs fun r => { r with r := Function.update r.r 7 value }
  | .x0 => setRegs fun r => { r with x := Function.update r.x 0 value }
  | .x1 => setRegs fun r => { r with x := Function.update r.x 1 value }
  | .y0 => setRegs fun r => { r with y := Function.update r.y 0 value }
  | .y1 => setRegs fun r => { r with y := Function.update r.y 1 value }
  | .p0 | .p1 => throw "?"
  | .p =>
    setRegs fun r => { r with psign := Function.update r.psign 0 (value > 0x7FFF),
                              p := Function.update r.p 0
                                ((r.p 0 &&& 0xFFFF) ||| (value.setWidth 32 <<< 16)) }
  | .pc => throw "?"
  | .sp => setRegs fun r => { r with sp := value }
  | .sv => setRegs fun r => { r with sv := value }
  | .lc => do
    let i ← lcIndex
    setRegs fun r => { r with bkrepStack := Function.update r.bkrepStack i
                                { r.bkrepStack i with lc := value } }
  | .ar0 => setRegs (ops.Set .ar0 value)
  | .ar1 => setRegs (ops.Set .ar1 value)
  | .arp0 => setRegs (ops.Set .arp0 value)
  | .arp1 => setRegs (ops.Set .arp1 value)
  | .arp2 => setRegs (ops.Set .arp2 value)
  | .arp3 => setRegs (ops.Set .arp3 value)
  | .ext0 | .ext1 | .ext2 | .ext3 => throw "?"
  | .stt0 => setRegs (ops.Set .stt0 value)
  | .stt1 => setRegs (ops.Set .stt1 value)
  | .stt2 => setRegs (ops.Set .stt2 value)
  | .st0 => setRegs (ops.Set .st0 value)
  | .st1 => setRegs (ops.Set .st1 value)
  | .st2 => setRegs (ops.Set .st2 value)
  | .cfgi => setRegs (ops.Set .cfgi value)
  | .cfgj => setRegs (ops.Set .cfgj value)
  | .mod0 => setRegs (ops.Set .mod0 value)
  | .mod1 => setRegs (ops.Set .mod1 value)
  | .mod2 => setRegs (ops.Set .mod2 value)
  | .mod3 => setRegs (ops.Set .mod3 value)

/-- `CounterAcc` (lines 3494–3514): the other accumulator of the same pair. `map.at` throws
    for a name outside the table. -/
@[irreducible]
def counterAcc (name : RegName) : M RegName :=
  match name with
  | .a0 => pure .a1 | .a1 => pure .a0 | .b0 => pure .b1 | .b1 => pure .b0
  | .a0l => pure .a1l | .a1l => pure .a0l | .b0l => pure .b1l | .b1l => pure .b0l
  | .a0h => pure .a1h | .a1h => pure .a0h | .b0h => pure .b1h | .b1h => pure .b0h
  | .a0e => pure .a1e | .a1e => pure .a0e | .b0e => pure .b1e | .b1e => pure .b0e
  | _ => throw "out of range"

end Teakra
