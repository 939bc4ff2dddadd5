import Teakra.Interpreter.Keeps

/-!
# The address generation unit

The helpers of `Interpreter` that compute data addresses from the address registers
`r0..r7` (`interpreter.h`, lines 3175–3434) and the four direct memory operand forms of
`LoadFromMemory`/`StoreToMemory` (lines 1662–1703).

`StepAddress`, `OffsetAddress` and `RnAddress` only read the register file; they are
functions of a `RegisterState`. `RnAndModify` writes the register it steps. None of them
touches an accumulator, `bcn` or `lp`, so all of them keep every sound footprint.
-/

namespace Teakra

/-- `StepValue`, the post-modification of an address register. -/
inductive StepValue
  | Zero | Increase | Decrease | PlusStep
  | Increase2Mode1 | Decrease2Mode1 | Increase2Mode2 | Decrease2Mode2
  deriving DecidableEq, Repr

/-- `OffsetValue`, the offset between the two words of a paired access. -/
inductive OffsetValue
  | Zero | PlusOne | MinusOne | MinusOneDmod
  deriving DecidableEq, Repr

/-- `(OffsetValue)v` for a `u16` field of the register file. `OffsetAddress`, the only reader
    of the result, tests it against `Zero`, `MinusOneDmod` and `PlusOne` and treats every
    other value as `MinusOne`. -/
def OffsetValue.ofU16 (v : BitVec 16) : OffsetValue :=
  if v = 0 then .Zero else if v = 1 then .PlusOne else if v = 3 then .MinusOneDmod else .MinusOne

/-- `GetRnUnit`: the index of an address register `r0..r7`. -/
@[irreducible]
def getRnUnit (reg : RegName) : M (Fin 8) :=
  match reg with
  | .r0 => pure 0 | .r1 => pure 1 | .r2 => pure 2 | .r3 => pure 3
  | .r4 => pure 4 | .r5 => pure 5 | .r6 => pure 6 | .r7 => pure 7
  | _ => throw "?"

/-- `GetArRnUnit`: the register selected by an `ArRn` operand through `arrn`. -/
def getArRnUnit (r : RegisterState) (storage : Fin 4) : Fin 8 := r.arrn storage

/-- `GetArpRnUnit`: the pair of registers selected by an `ArpRn` operand; the second one is
    taken among `r4..r7`. -/
def getArpRnUnit (r : RegisterState) (storage : Fin 4) : Fin 8 × Fin 8 :=
  ((r.arprni storage).castLE (by decide), (r.arprnj storage).natAdd 4)

/-- `ConvertArStep` (lines 3201–3213). -/
@[irreducible]
def convertArStep (arvalue : BitVec 16) : M StepValue :=
  if arvalue = 0 then pure .Zero
  else if arvalue = 1 then pure .Increase
  else if arvalue = 2 then pure .Decrease
  else if arvalue = 3 then pure .PlusStep
  else if arvalue = 4 then pure .Increase2Mode1
  else if arvalue = 5 then pure .Decrease2Mode1
  else if arvalue = 6 then pure .Increase2Mode2
  else if arvalue = 7 then pure .Decrease2Mode2
  else throw "???"

/-- `GetArStep`. -/
@[irreducible]
def getArStep (storage : Fin 4) : M StepValue := do
  convertArStep ((← regs).arstep storage)

/-- `GetArStepAlt`: the `ArStep1Alt` operand selects `arstep[storage + 2]`. -/
@[irreducible]
def getArStepAlt (storage : Fin 2) : M StepValue := do
  convertArStep ((← regs).arstep ⟨storage.val + 2, by omega⟩)

/-- `GetArpStep`. -/
@[irreducible]
def getArpStep (i j : Fin 4) : M (StepValue × StepValue) := do
  let r ← regs
  let si ← convertArStep (r.arpstepi i)
  let sj ← convertArStep (r.arpstepj j)
  return (si, sj)

/-- `GetArOffset`. -/
def getArOffset (r : RegisterState) (storage : Fin 4) : OffsetValue :=
  .ofU16 (r.aroffset storage)

/-- `GetArpOffset`. -/
def getArpOffset (r : RegisterState) (i j : Fin 4) : OffsetValue × OffsetValue :=
  (.ofU16 (r.arpoffseti i), .ofU16 (r.arpoffsetj j))

/-- `RnAddress` (lines 3252–3258): bit-reversed addressing when `brv` is set and modulo
    addressing is off. -/
def rnAddress (r : RegisterState) (unit : Fin 8) (value : BitVec 16) : BitVec 16 :=
  if r.brv unit && !r.m unit then BitReverse value else value

/-- The mask of the modulo unit: `init` ORed with `mod >> i` for `i < 9`, the loop shared by
    `OffsetAddress` (from `1`) and `StepAddress` (from `0`). -/
def modMask (init mod : BitVec 16) : BitVec 16 :=
  (List.range 9).foldl (fun mask i => mask ||| (mod >>> i)) init

/-- The modulo register of a unit: `modi` for `r0..r3`, `modj` for `r4..r7`. -/
def unitMod (r : RegisterState) (unit : Fin 8) : BitVec 16 :=
  if unit < 4 then r.modi else r.modj

/-- `OffsetAddress` (lines 3264–3293). -/
def offsetAddress (r : RegisterState) (unit : Fin 8) (address : BitVec 16)
    (offset : OffsetValue) (dmod : Bool) : BitVec 16 :=
  let emod := r.m unit && !r.brv unit && !dmod
  let mod := unitMod r unit
  let mask := modMask 1 mod
  match offset with
  | .Zero => address
  | .MinusOneDmod => address - 1
  | .PlusOne =>
    if !emod then address + 1
    else if address &&& mask == mod then address &&& ~~~mask
    else address + 1
  | .MinusOne =>
    if !emod then address - 1
    else if address &&& mask == 0 then address ||| mod
    else address - 1

/-- The step of `StepValue::PlusStep` (lines 3323–3336). -/
def plusStep (r : RegisterState) (unit : Fin 8) : BitVec 16 :=
  let s := if r.brv unit && !r.m unit then (if unit < 4 then r.stepi0 else r.stepj0)
    else SignExtend 7 (if unit < 4 then r.stepi else r.stepj)
  if r.bankstep && !r.legacyMod then
    let s := if unit < 4 then r.stepi0 else r.stepj0
    if r.m unit then SignExtend 9 s else s
  else s

/-- One pass of the modulo loop of `StepAddress` (lines 3362–3415). -/
def moduloStep (legacy step2Mode2 : Bool) (mod s address : BitVec 16) : BitVec 16 :=
  if legacy || step2Mode2 then
    let negative := s >>> 15 != 0
    let m := if negative then mod ||| ~~~s else mod ||| s
    let mask := modMask 0 m
    let next :=
      if !negative then
        if address &&& mask == mod && (!step2Mode2 || mod != mask) then 0
        else (address + s) &&& mask
      else
        if address &&& mask == 0 && (!step2Mode2 || mod != mask) then mod
        else (address + s) &&& mask
    (address &&& ~~~mask) ||| next
  else
    let mask := modMask 0 mod
    let next :=
      if s < 0x8000 then
        let next := (address + s) &&& mask
        if next == (mod + 1) &&& mask then 0 else next
      else
        let next := address &&& mask
        let next := if next == 0 then mod + 1 else next
        (next + s) &&& mask
    (address &&& ~~~mask) ||| next

/-- `StepAddress` (lines 3295–3421). The `switch` covers every `StepValue`, so its
    `default: throw` is unreachable. -/
def stepAddress (r : RegisterState) (unit : Fin 8) (address : BitVec 16) (step : StepValue)
    (dmod : Bool) : BitVec 16 :=
  let legacy := r.legacyMod
  let (s, step2Mode1, step2Mode2) : BitVec 16 × Bool × Bool :=
    match step with
    | .Zero => (0, false, false)
    | .Increase => (1, false, false)
    | .Decrease => (0xFFFF, false, false)
    | .Increase2Mode1 => (2, !legacy, false)
    | .Decrease2Mode1 => (0xFFFE, !legacy, false)
    | .Increase2Mode2 => (2, false, !legacy)
    | .Decrease2Mode2 => (0xFFFE, false, !legacy)
    | .PlusStep => (plusStep r unit, false, false)
  if s == 0 then address
  else if !dmod && !r.brv unit && r.m unit then
    let mod := unitMod r unit
    if mod == 0 then address
    else if mod == 1 && step2Mode2 then address
    else if step2Mode1 then
      let s := SignExtend 15 (s >>> 1)
      moduloStep legacy step2Mode2 mod s (moduloStep legacy step2Mode2 mod s address)
    else moduloStep legacy step2Mode2 mod s address
  else address + s

/-- The steps by two, which `RnAndModify` applies even to a register held at zero. -/
def StepValue.isStep2 : StepValue → Bool
  | .Increase2Mode1 | .Decrease2Mode1 | .Increase2Mode2 | .Decrease2Mode2 => true
  | _ => false

/-- `RnAndModify` (lines 3423–3434): returns the old value of `r[unit]` and steps it; `r3`
    and `r7` are held at zero by `r3z`/`r7z`, except for the steps by two. -/
@[irreducible]
def rnAndModify (unit : Fin 8) (step : StepValue) (dmod : Bool) : M (BitVec 16) := do
  let ret := (← regs).r unit
  setRegs fun r =>
    let held := ((unit == 3 && r.r3z) || (unit == 7 && r.r7z)) && !step.isStep2
    let next := if held then 0 else stepAddress r unit (r.r unit) step dmod
    { r with r := Function.update r.r unit next }
  return ret

/-- `RnAddressAndModify` (lines 3260–3262). -/
@[irreducible]
def rnAddressAndModify (unit : Fin 8) (step : StepValue) (dmod : Bool) : M (BitVec 16) := do
  let value ← rnAndModify unit step dmod
  return rnAddress (← regs) unit value

/-- The direct memory operands `MemImm8`, `MemImm16`, `MemR7Imm16` and `MemR7Imm7s`, by
    their `storage`. -/
inductive MemOperand
  | imm8 (storage : BitVec 16)
  | imm16 (storage : BitVec 16)
  | r7Imm16 (storage : BitVec 16)
  | r7Imm7s (storage : BitVec 16)

/-- The address of a direct memory operand, as the overloads of `LoadFromMemory` and
    `StoreToMemory` compute it. -/
def MemOperand.address (r : RegisterState) : MemOperand → BitVec 16
  | .imm8 a => a + (r.page <<< 8)
  | .imm16 a => a
  | .r7Imm16 a => a + r.r 7
  | .r7Imm7s a => SignExtend 7 a + r.r 7

/-- `LoadFromMemory`. -/
@[irreducible]
def loadFromMemory (addr : MemOperand) : M (BitVec 16) := do
  dataRead (addr.address (← regs))

/-- `StoreToMemory`. -/
@[irreducible]
def storeToMemory (addr : MemOperand) (value : BitVec 16) : M Unit := do
  dataWrite (addr.address (← regs)) value

/-! ## The address unit keeps every sound footprint -/

section Keeps

variable {ops : RegisterMethods} {F : Footprint} (hF : Sound ops F)
include hF

namespace Sound

theorem getRnUnit (reg : RegName) : F.Keeps (getRnUnit reg) fun _ => True := by
  unfold Teakra.getRnUnit
  split <;> first | exact .triv | exact hF.throw (by decide)

theorem convertArStep (v : BitVec 16) : F.Keeps (convertArStep v) fun _ => True := by
  unfold Teakra.convertArStep
  split_ifs <;> first | exact .triv | exact hF.throw (by decide)

theorem getArStep (i : Fin 4) : F.Keeps (getArStep i) fun _ => True := by
  unfold Teakra.getArStep; exact hF.regs.seq fun _ => hF.convertArStep _

theorem getArStepAlt (i : Fin 2) : F.Keeps (getArStepAlt i) fun _ => True := by
  unfold Teakra.getArStepAlt; exact hF.regs.seq fun _ => hF.convertArStep _

theorem getArpStep (i j : Fin 4) : F.Keeps (getArpStep i j) fun _ => True := by
  unfold Teakra.getArpStep; exact hF.regs.seq fun _ => (hF.convertArStep _).seq fun _ => (hF.convertArStep _).seq fun _ => .triv

theorem rnAndModify (unit : Fin 8) (step : StepValue) (dmod : Bool) :
    F.Keeps (rnAndModify unit step dmod) fun _ => True := by
  unfold Teakra.rnAndModify
  exact hF.regs.seq fun _ => .seq (hF.setRegs fun _ => ⟨rfl, rfl, rfl⟩) fun _ => .triv

theorem rnAddressAndModify (unit : Fin 8) (step : StepValue) (dmod : Bool) :
    F.Keeps (rnAddressAndModify unit step dmod) fun _ => True := by
  unfold Teakra.rnAddressAndModify
  exact (hF.rnAndModify unit step dmod).seq fun _ => hF.regs.seq fun _ => .triv

theorem loadFromMemory (addr : MemOperand) : F.Keeps (loadFromMemory addr) fun _ => True := by
  unfold Teakra.loadFromMemory
  exact hF.regs.seq fun _ => .dataRead _

theorem storeToMemory (addr : MemOperand) (v : BitVec 16) :
    F.Keeps (storeToMemory addr v) fun _ => True := by
  unfold Teakra.storeToMemory
  exact hF.regs.seq fun _ => hF.dataWrite _ _

end Sound

end Keeps

end Teakra
