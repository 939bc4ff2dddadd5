import Teakra.Interpreter.Loop

/-!
# Handlers: the accumulator arithmetic

The instruction handlers of `interpreter.h`, lines 122–963: `nop`, `norm`, `swap`, `trap`,
the `alm`/`alu`/`alb` families, `or_`, the additions and subtractions of accumulators and
products, the paired-memory additions of the `add_add` family, the `moda` operations, `pacr1`,
`clr` and `clrr`.

Operands are passed as the values their `GetName()` or `storage` yields: register names as
`RegName`, immediates and direct addresses as their `storage` word, `ArRn`/`ArpRn`/`ArStep`
operands as their `storage` index. Handlers that only differ in a constant are one
definition with a parameter, and each handler is that definition applied to its constant.

Each handler keeps every sound footprint (`Sound.norm`, ...): whatever it stores into an
accumulator comes from `AddSub`, `GetAcc`, a sign extension to at most 40 bits, or a packing
of 16-bit halves that `Fits` shows canonical.
-/

namespace Teakra

variable (ops : RegisterMethods)

/-- `nop` (lines 122–124). -/
def nop : M Unit := pure ()

/-- `norm` (lines 126–141): one normalisation step of `a`, stepping `b`, while `fn` is clear. -/
def norm (a b : RegName) (bs : StepValue) : M Unit := do
  if !(← regs).fn then
    let value ← getAcc a
    let fv := value != SignExtend 39 value
    let value := value <<< 1
    setRegs fun r => { r with fv := fv, flv := r.flv || fv,
                              fc := Function.update r.fc 0 (value &&& 1 <<< 40 != 0) }
    setAccNoSaturation a (SignExtend 40 value)
    let unit ← getRnUnit b
    let _ ← rnAndModify unit bs false
    setRegs fun r => { r with fr := r.r unit == 0 }

/-- `SwapTypeValue`, the variants of `swap`. -/
inductive SwapTypeValue
  | a0b0 | a0b1 | a1b0 | a1b1 | a0b0a1b1 | a0b1a1b0 | a0b0a1 | a0b1a1 | a1b0a0 | a1b1a0
  | b0a0b1 | b0a1b1 | b1a0b0 | b1a1b0
  deriving DecidableEq, Repr

/-- The sources and destinations of the two moves that end `swap`. -/
structure SwapNames where
  s0 : RegName
  d0 : RegName
  s1 : RegName
  d1 : RegName

/-- The `switch` of `swap` (lines 145–221); it covers every `SwapTypeValue`, so its
    `default: throw` is unreachable. -/
def swapNames : SwapTypeValue → SwapNames
  | .a0b0 | .a0b0a1b1 => ⟨.a0, .b0, .b0, .a0⟩
  | .a0b1 | .a0b1a1b0 => ⟨.a0, .b1, .b1, .a0⟩
  | .a1b0 => ⟨.a1, .b0, .b0, .a1⟩
  | .a1b1 => ⟨.a1, .b1, .b1, .a1⟩
  | .a0b0a1 => ⟨.a0, .b0, .b0, .a1⟩
  | .a0b1a1 => ⟨.a0, .b1, .b1, .a1⟩
  | .a1b0a0 => ⟨.a1, .b0, .b0, .a0⟩
  | .a1b1a0 => ⟨.a1, .b1, .b1, .a0⟩
  | .b0a0b1 => ⟨.a0, .b1, .b0, .a0⟩
  | .b0a1b1 => ⟨.a1, .b1, .b0, .a1⟩
  | .b1a0b0 => ⟨.a0, .b0, .b1, .a0⟩
  | .b1a1b0 => ⟨.a1, .b0, .b1, .a1⟩

/-- The exchange of two accumulators through `SetAcc`. -/
def exchangeAcc (x y : RegName) : M Unit := do
  let u ← getAcc x
  let v ← getAcc y
  setAcc x v false
  setAcc y u false

/-- `swap` (lines 142–225). -/
def swap (t : SwapTypeValue) : M Unit := do
  (match t with
    | .a0b0a1b1 => exchangeAcc .a1 .b1
    | .a0b1a1b0 => exchangeAcc .a1 .b0
    | _ => pure ())
  let n := swapNames t
  let u ← getAcc n.s0
  let v ← getAcc n.s1
  setAcc n.d0 u false
  setAcc n.d1 v false

/-- The body of every handler that is not implemented: `trap`, `retd`, `retid`, `retidc`,
    `push_prpage`, `pop_prpage`, `mov_dvm`, `mov_dvm_to`, `mov_eu`, `mov_icr(Imm5)`, the two
    `mov_prpage`, `mov_prpage_to` and `mov_ext0`..`mov_ext3`. -/
def unimplemented : M Unit := throw "unimplemented"

/-- `trap` (lines 226–228). -/
def trap : M Unit := unimplemented

/-! ## The `alm` and `alu` families -/

/-- The operations `CheckBus40OprandAllowed` lets take a 40-bit operand (lines 423–433). -/
def bus40Allowed : AlmOp → Bool
  | .Or | .And | .Xor | .Add | .Cmp | .Sub => true
  | _ => false

/-- `alm(Alm, MemImm8, Ax)`, `alu(Alu, MemImm16, Ax)`, `alu(Alu, MemR7Imm16, Ax)` and
    `alu(Alu, MemR7Imm7s, Ax)` (lines 407–410, 451–458, 477–480): the operand from memory. -/
def almMem (op : AlmOp) (a : MemOperand) (b : RegName) : M Unit := do
  let value ← loadFromMemory a
  almGeneric op (extendOprandForAlm op value) b

/-- `alm(Alm, MemImm8, Ax)`. -/
def almMemImm8 (op : AlmOp) (a : BitVec 16) (b : RegName) : M Unit := almMem op (.imm8 a) b
/-- `alu(Alu, MemImm16, Ax)`. -/
def aluMemImm16 (op : AlmOp) (a : BitVec 16) (b : RegName) : M Unit := almMem op (.imm16 a) b
/-- `alu(Alu, MemR7Imm16, Ax)`. -/
def aluMemR7Imm16 (op : AlmOp) (a : BitVec 16) (b : RegName) : M Unit :=
  almMem op (.r7Imm16 a) b
/-- `alu(Alu, MemR7Imm7s, Ax)`. -/
def aluMemR7Imm7s (op : AlmOp) (a : BitVec 16) (b : RegName) : M Unit :=
  almMem op (.r7Imm7s a) b

/-- `alm(Alm, Rn, StepZIDS, Ax)` (lines 411–415). -/
def almRn (op : AlmOp) (a : RegName) (as : StepValue) (b : RegName) : M Unit := do
  let address ← rnAddressAndModify (← getRnUnit a) as false
  let value ← dataRead address
  almGeneric op (extendOprandForAlm op value) b

/-- `alm(Alm, Register, Ax)` (lines 416–445). -/
def almRegister (op : AlmOp) (a b : RegName) : M Unit := do
  let value ← (match a with
    | .p => if bus40Allowed op then productToBus40 .p0
      else throw "weird effect. probably undefined"
    | .a0 | .a1 => if bus40Allowed op then getAcc a
      else throw "weird effect. probably undefined"
    | _ => do return extendOprandForAlm op (← regToBus16 ops a false))
  almGeneric op value b

/-- `alm_r6` (lines 446–449) and `alu(Alu, Imm16, Ax)` (lines 458–461): an operand that is
    already a 16-bit value. -/
def almValue (op : AlmOp) (value : BitVec 16) (b : RegName) : M Unit :=
  almGeneric op (extendOprandForAlm op value) b

/-- `alm_r6`. -/
def almR6 (op : AlmOp) (b : RegName) : M Unit := do almValue op ((← regs).r 6) b
/-- `alu(Alu, Imm16, Ax)`. -/
def aluImm16 (op : AlmOp) (a : BitVec 16) (b : RegName) : M Unit := almValue op a b

/-- `alu(Alu, Imm8, Ax)` (lines 463–476): `and` keeps bits 8..15 of the accumulator. -/
def aluImm8 (op : AlmOp) (a : BitVec 16) (b : RegName) : M Unit := do
  let andBackup ← (if op == .And then do return (← getAcc b) &&& 0xFF00 else pure 0)
  almGeneric op (extendOprandForAlm op a) b
  if op == .And then
    let andNew := (← getAcc b) &&& 0xFFFFFFFFFFFF00FF
    setAccSimple b (andBackup ||| andNew)

/-- `or_` (lines 482–493): the three overloads share this body. -/
def or_ (a b c : RegName) : M Unit := do
  let value := (← getAcc a) ||| (← getAcc b)
  setAccNoSaturation c value

/-! ## The `alb` family -/

/-- `alb(Alb, Imm16, MemImm8)` (lines 558–563). -/
def albMemImm8 (op : AlbOp) (a b : BitVec 16) : M Unit := do
  let bv ← loadFromMemory (.imm8 b)
  let result ← genericAlb op a bv
  if isAlbModifying op then storeToMemory (.imm8 b) result

/-- `alb(Alb, Imm16, Rn, StepZIDS)` (lines 564–570). -/
def albRn (op : AlbOp) (a : BitVec 16) (b : RegName) (bs : StepValue) : M Unit := do
  let address ← rnAddressAndModify (← getRnUnit b) bs false
  let bv ← dataRead address
  let result ← genericAlb op a bv
  if isAlbModifying op then dataWrite address result

/-- `acc = (acc & mask) | bits` on one accumulator, directly, "not through the regular bus with
    flag and saturation" (lines 588–596). -/
def writeAccBits (i : Acc) (mask bits : BitVec 64) : M Unit :=
  setRegs fun r => { r with acc := Function.update r.acc i ((r.acc i &&& mask) ||| bits) }

/-- The store of `alb(Alb, Imm16, Register)` (lines 588–602). -/
def albStore (b : RegName) (result : BitVec 16) : M Unit :=
  match b with
  | .a0 | .a1 => throw "weird effect"
  | .a0l => writeAccBits (.a 0) 0xFFFFFFFFFFFF0000 (result.setWidth 64)
  | .a1l => writeAccBits (.a 1) 0xFFFFFFFFFFFF0000 (result.setWidth 64)
  | .b0l => writeAccBits (.b 0) 0xFFFFFFFFFFFF0000 (result.setWidth 64)
  | .b1l => writeAccBits (.b 1) 0xFFFFFFFFFFFF0000 (result.setWidth 64)
  | .a0h => writeAccBits (.a 0) 0xFFFFFFFF0000FFFF (result.setWidth 64 <<< 16)
  | .a1h => writeAccBits (.a 1) 0xFFFFFFFF0000FFFF (result.setWidth 64 <<< 16)
  | .b0h => writeAccBits (.b 0) 0xFFFFFFFF0000FFFF (result.setWidth 64 <<< 16)
  | .b1h => writeAccBits (.b 1) 0xFFFFFFFF0000FFFF (result.setWidth 64 <<< 16)
  | _ => regFromBus16 ops b result

/-- `alb(Alb, Imm16, Register)` (lines 571–604). The fourth test repeats the names of the
    third, so the high halves are read through `RegToBus16`. -/
def albRegister (op : AlbOp) (a : BitVec 16) (b : RegName) : M Unit := do
  let bv ← (if b == .p then do return ((← productToBus40 .p0) >>> 16).setWidth 16
    else if b == .a0 || b == .a1 then throw "weird effect"
    else if b == .a0l || b == .a1l || b == .b0l || b == .b1l then
      do return (← getAcc b).setWidth 16
    else if b == .a0l || b == .a1l || b == .b0l || b == .b1l then
      do return ((← getAcc b) >>> 16).setWidth 16
    else regToBus16 ops b false)
  let result ← genericAlb op a bv
  if isAlbModifying op then albStore ops b result

/-- `alb_r6` (lines 605–610). -/
def albR6 (op : AlbOp) (a : BitVec 16) : M Unit := do
  let result ← genericAlb op a ((← regs).r 6)
  if isAlbModifying op then setRegs fun r => { r with r := Function.update r.r 6 result }

/-- `alb(Alb, Imm16, SttMod)` (lines 611–616). -/
def albSttMod (op : AlbOp) (a : BitVec 16) (b : RegName) : M Unit := do
  let bv ← regToBus16 ops b false
  let result ← genericAlb op a bv
  if isAlbModifying op then regFromBus16 ops b result

/-! ## Additions of accumulators and products -/

/-- `add(Ab, Bx)`, `add(Bx, Ax)`, `sub(Ab, Bx)` and `sub(Bx, Ax)` (lines 615–626 and
    651–662): `b = b ± a`. -/
def accAddSub (sub : Bool) (a b : RegName) : M Unit := do
  let valueA ← getAcc a
  let valueB ← getAcc b
  let result ← addSub valueB valueA sub
  setAcc b result false

/-- `add(Ab, Bx)` and `add(Bx, Ax)`. -/
def add (a b : RegName) : M Unit := accAddSub false a b
/-- `sub(Ab, Bx)` and `sub(Bx, Ax)`. -/
def sub (a b : RegName) : M Unit := accAddSub true a b

/-- `add_p1`, `add(Px, Bx)`, `sub_p1` and `sub(Px, Bx)` (lines 627–638 and 663–674):
    `b = b ± p`. -/
def productAddSub (sub : Bool) (a b : RegName) : M Unit := do
  let valueA ← productToBus40 a
  let valueB ← getAcc b
  let result ← addSub valueB valueA sub
  setAcc b result false

/-- `add_p1`. -/
def addP1 (b : RegName) : M Unit := productAddSub false .p1 b
/-- `add(Px, Bx)`. -/
def addPx (a b : RegName) : M Unit := productAddSub false a b
/-- `sub_p1`. -/
def subP1 (b : RegName) : M Unit := productAddSub true .p1 b
/-- `sub(Px, Bx)`. -/
def subPx (a b : RegName) : M Unit := productAddSub true a b

/-- `add_p0_p1`. -/
def addP0P1 (c : RegName) : M Unit := productSum .Zero c pAdd pAdd
/-- `add_p0_p1a`. -/
def addP0P1a (c : RegName) : M Unit := productSum .Zero c pAdd pAdda
/-- `add3_p0_p1`. -/
def add3P0P1 (c : RegName) : M Unit := productSum .Acc c pAdd pAdd
/-- `add3_p0_p1a`. -/
def add3P0P1a (c : RegName) : M Unit := productSum .Acc c pAdd pAdda
/-- `add3_p0a_p1a`. -/
def add3P0aP1a (c : RegName) : M Unit := productSum .Acc c pAdda pAdda
/-- `sub_p0_p1`. -/
def subP0P1 (c : RegName) : M Unit := productSum .Zero c pAdd pSub
/-- `sub_p0_p1a`. -/
def subP0P1a (c : RegName) : M Unit := productSum .Zero c pAdd pSuba
/-- `sub3_p0_p1`. -/
def sub3P0P1 (c : RegName) : M Unit := productSum .Acc c pSub pSub
/-- `sub3_p0_p1a`. -/
def sub3P0P1a (c : RegName) : M Unit := productSum .Acc c pSub pSuba
/-- `sub3_p0a_p1a`. -/
def sub3P0aP1a (c : RegName) : M Unit := productSum .Acc c pSuba pSuba
/-- `addsub_p0_p1`. -/
def addsubP0P1 (c : RegName) : M Unit := productSum .Acc c pAdd pSub
/-- `addsub_p1_p0`. -/
def addsubP1P0 (c : RegName) : M Unit := productSum .Acc c pSub pAdd
/-- `addsub_p0_p1a`. -/
def addsubP0P1a (c : RegName) : M Unit := productSum .Acc c pAdd pSuba
/-- `addsub_p1a_p0`. -/
def addsubP1aP0 (c : RegName) : M Unit := productSum .Acc c pSub pAdda

/-! ## The paired-memory additions -/

/-- The word `(high << 16) | low` that the `add_add` family stores with `SetAcc_Simple`. -/
def packHighLow (high : BitVec 64) (low : BitVec 16) : BitVec 64 := high <<< 16 ||| low.setWidth 64

/-- `a ± b` as `subtract` says. -/
def plusMinus {w : Nat} (subtract : Bool) (a b : BitVec w) : BitVec w :=
  if subtract then a - b else a + b

/-- `add_add`, `add_sub`, `sub_add` and `sub_sub` (lines 711–754): the high half is
    `mem[j] ± mem[i]` on 17 bits, the low half `mem[j'] ± mem[i']` at the offset addresses. -/
def arpAddSub (subHigh subLow : Bool) (a asi asj : Fin 4) (b : RegName) : M Unit := do
  let u := getArpRnUnit (← regs) a
  let (si, sj) ← getArpStep asi asj
  let o := getArpOffset (← regs) asi asj
  let i ← rnAddressAndModify u.1 si false
  let j ← rnAddressAndModify u.2 sj false
  let r ← regs
  let high := plusMinus subHigh (SignExtend 16 ((← dataRead j).setWidth 64))
    (SignExtend 16 ((← dataRead i).setWidth 64))
  let low := plusMinus subLow (← dataRead (offsetAddress r u.2 j o.2 false))
    (← dataRead (offsetAddress r u.1 i o.1 false))
  setAccSimple b (packHighLow high low)

/-- `add_add`. -/
def addAdd (a asi asj : Fin 4) (b : RegName) : M Unit := arpAddSub false false a asi asj b
/-- `add_sub`. -/
def addSubArp (a asi asj : Fin 4) (b : RegName) : M Unit := arpAddSub false true a asi asj b
/-- `sub_add`. -/
def subAdd (a asi asj : Fin 4) (b : RegName) : M Unit := arpAddSub true false a asi asj b
/-- `sub_sub`. -/
def subSub (a asi asj : Fin 4) (b : RegName) : M Unit := arpAddSub true true a asi asj b

/-- `add_sub_sv` and `sub_add_sv` (lines 755–774): `mem ± sv` and `mem' ∓ sv`. -/
def svAddSub (subHigh : Bool) (a as : Fin 4) (b : RegName) : M Unit := do
  let u := getArRnUnit (← regs) a
  let s ← getArStep as
  let o := getArOffset (← regs) as
  let address ← rnAddressAndModify u s false
  let r ← regs
  let high := plusMinus subHigh (SignExtend 16 ((← dataRead address).setWidth 64))
    (SignExtend 16 (r.sv.setWidth 64))
  let low := plusMinus (!subHigh) (← dataRead (offsetAddress r u address o false)) r.sv
  setAccSimple b (packHighLow high low)

/-- `add_sub_sv`. -/
def addSubSv (a as : Fin 4) (b : RegName) : M Unit := svAddSub false a as b
/-- `sub_add_sv`. -/
def subAddSv (a as : Fin 4) (b : RegName) : M Unit := svAddSub true a as b

/-- `sub_add_i_mov_j_sv` and `sub_add_j_mov_i_sv` (lines 775–800): `mem[x] - sv` and
    `mem[x'] + sv` for one of the two addresses `x`, then `sv = mem[y]` from the other. -/
def subAddMovSv (iFirst : Bool) (a asi asj : Fin 4) (b : RegName) : M Unit := do
  let u := getArpRnUnit (← regs) a
  let (si, sj) ← getArpStep asi asj
  let o := getArpOffset (← regs) asi asj
  let i ← rnAddressAndModify u.1 si false
  let j ← rnAddressAndModify u.2 sj false
  let r ← regs
  let x := if iFirst then i else j
  let ux := if iFirst then u.1 else u.2
  let ox := if iFirst then o.1 else o.2
  let high := SignExtend 16 ((← dataRead x).setWidth 64) - SignExtend 16 (r.sv.setWidth 64)
  let low := (← dataRead (offsetAddress r ux x ox false)) + r.sv
  setAccSimple b (packHighLow high low)
  let sv ← dataRead (if iFirst then j else i)
  setRegs fun r => { r with sv := sv }

/-- `sub_add_i_mov_j_sv`. -/
def subAddIMovJSv (a asi asj : Fin 4) (b : RegName) : M Unit := subAddMovSv true a asi asj b
/-- `sub_add_j_mov_i_sv`. -/
def subAddJMovISv (a asi asj : Fin 4) (b : RegName) : M Unit := subAddMovSv false a asi asj b

/-- `add_sub_i_mov_j` and `add_sub_j_mov_i` (lines 801–828): `mem[x] + sv` and
    `mem[x'] - sv`, and the old low half of `b` (read-path saturated) to `mem[y]`. -/
def addSubMov (iFirst : Bool) (a asi asj : Fin 4) (b : RegName) : M Unit := do
  let u := getArpRnUnit (← regs) a
  let (si, sj) ← getArpStep asi asj
  let o := getArpOffset (← regs) asi asj
  let i ← rnAddressAndModify u.1 si false
  let j ← rnAddressAndModify u.2 sj false
  let r ← regs
  let x := if iFirst then i else j
  let ux := if iFirst then u.1 else u.2
  let ox := if iFirst then o.1 else o.2
  let high := SignExtend 16 ((← dataRead x).setWidth 64) + SignExtend 16 (r.sv.setWidth 64)
  let low := (← dataRead (offsetAddress r ux x ox false)) - r.sv
  let exchange := (← saturateAccNoFlag (← getAcc b) false).setWidth 16
  setAccSimple b (packHighLow high low)
  dataWrite (if iFirst then j else i) exchange

/-- `add_sub_i_mov_j`. -/
def addSubIMovJ (a asi asj : Fin 4) (b : RegName) : M Unit := addSubMov true a asi asj b
/-- `add_sub_j_mov_i`. -/
def addSubJMovI (a asi asj : Fin 4) (b : RegName) : M Unit := addSubMov false a asi asj b

/-! ## `moda` -/

/-- `ModaOp`, the operations of the `Moda4` and `Moda3` operands. -/
inductive ModaOp
  | Shr | Shr4 | Shl | Shl4 | Ror | Rol | Clr | Not | Neg | Rnd | Pacr | Clrr | Inc | Dec | Copy
  deriving DecidableEq, Repr

/-- The operation of `Moda` once the condition passed (lines 832–924). The `switch` covers
    every `ModaOp`, so its `default: throw` is unreachable. -/
def modaOp (op : ModaOp) (a : RegName) : M Unit :=
  match op with
  | .Shr => do shiftBus40 (← getAcc a) 0xFFFF a
  | .Shr4 => do shiftBus40 (← getAcc a) 0xFFFC a
  | .Shl => do shiftBus40 (← getAcc a) 1 a
  | .Shl4 => do shiftBus40 (← getAcc a) 4 a
  | .Ror => do
    let value := (← getAcc a) &&& 0xFFFFFFFFFF
    let oldFc := (← regs).fc 0
    setRegs fun r => { r with fc := Function.update r.fc 0 (value &&& 1 != 0) }
    let value := value >>> 1 ||| (if oldFc then 1 else 0) <<< 39
    setAccNoSaturation a (SignExtend 40 value)
  | .Rol => do
    let value ← getAcc a
    let oldFc := (← regs).fc 0
    setRegs fun r => { r with fc := Function.update r.fc 0 ((value >>> 39) &&& 1 != 0) }
    let value := value <<< 1 ||| (if oldFc then 1 else 0)
    setAccNoSaturation a (SignExtend 40 value)
  | .Clr => setAcc a 0 false
  | .Not => do setAccNoSaturation a (~~~(← getAcc a))
  | .Neg => do
    let value ← getAcc a
    let fv := value == 0xFFFFFF8000000000
    setRegs fun r => { r with fc := Function.update r.fc 0 (value != 0), fv := fv,
                              flv := r.flv || fv }
    let result := SignExtend 40 (~~~(← getAcc a) + 1)
    setAcc a result false
  | .Rnd => do
    let result ← addSub (← getAcc a) 0x8000 false
    setAcc a result false
  | .Pacr => do
    let result ← addSub (← productToBus40 .p0) 0x8000 false
    setAcc a result false
  | .Clrr => setAcc a 0x8000 false
  | .Inc => do
    let result ← addSub (← getAcc a) 1 false
    setAcc a result false
  | .Dec => do
    let result ← addSub (← getAcc a) 1 true
    setAcc a result false
  | .Copy => do
    let value ← getAcc (if a == .a0 then .a1 else .a0)
    setAcc a value false

/-- `Moda` (lines 830–926). -/
def moda (op : ModaOp) (a : RegName) (cond : Cond) : M Unit := do
  if ops.ConditionPass cond (← regs) then modaOp op a

/-- `moda4` (lines 928–930). -/
def moda4 (op : ModaOp) (a : RegName) (cond : Cond) : M Unit := moda ops op a cond
/-- `moda3` (lines 932–934). -/
def moda3 (op : ModaOp) (a : RegName) (cond : Cond) : M Unit := moda ops op a cond

/-- `pacr1` (lines 936–940). -/
def pacr1 (a : RegName) : M Unit := do
  let result ← addSub (← productToBus40 .p1) 0x8000 false
  setAcc a result false

/-- `FilterDoubleClr` (lines 942–952): the second `Ab` operand's `storage` after the filter. -/
def filterDoubleClr (a b : Fin 4) : Fin 4 :=
  if a = 0 then 1
  else if a = 1 then 0
  else if a = 2 then (if b = 2 then 3 else b)
  else if b = 1 then 1 else 0

/-- `clr` and `clrr` (lines 954–963): clear (to `value`) the two accumulators the filtered
    operands name; `name` is `Ab::GetName` (in `oprand.h`, not in `src/`). -/
def clrPair (value : BitVec 64) (name : Fin 4 → RegName) (a b : Fin 4) : M Unit := do
  setAcc (name a) value false
  setAcc (name (filterDoubleClr a b)) value false

/-- `clr`. -/
def clr (name : Fin 4 → RegName) (a b : Fin 4) : M Unit := clrPair 0 name a b
/-- `clrr`. -/
def clrr (name : Fin 4 → RegName) (a b : Fin 4) : M Unit := clrPair 0x8000 name a b


/-! ## Packed accumulator words -/

theorem fits_SignExtend_16 (x : BitVec 64) : Fits 15 (SignExtend 16 x) :=
  fits_SignExtend x (by decide) (by decide)

theorem Fits.plusMinus {k : Nat} {a b : BitVec 64} (s : Bool) (ha : Fits k a) (hb : Fits k b)
    (hk : k < 63) : Fits (k + 1) (plusMinus s a b) := by
  cases s
  · exact ha.add hb hk
  · exact ha.sub hb hk

/-- A 17-bit high half packed above any low half is canonical: the `add_add` family cannot
    leave bits 40..63 out of step. -/
theorem canon_packHighLow {high : BitVec 64} (h : Fits 16 high) (low : BitVec 16) :
    Canon (packHighLow high low) :=
  ((h.shiftLeft_16 (by decide)).canon (by decide)).or (canon_setWidth_16 low)

/-- The masks that clear one 16-bit half of an accumulator keep bits 32..63. -/
theorem canon_halfMask (c : Bool) :
    Canon (if c then 0xFFFFFFFFFFFF0000 else 0xFFFFFFFF0000FFFF) := by
  cases c <;> exact canon_iff_toNat.2 (.inr (by decide))

/-! ## The handlers keep every sound footprint -/

section Keeps

variable {ops} {F : Footprint} (hF : Sound ops F)
include hF

namespace Sound

theorem norm (a b : RegName) (bs : StepValue) : F.Keeps (norm a b bs) fun _ => True := by
  unfold Teakra.norm
  exact .seq hF.regs fun _ => .ite (fun _ => .seq (hF.getAcc a) fun _ =>
    .seq (hF.setRegs fun _ => ⟨rfl, rfl, rfl⟩) fun _ =>
      .seq (hF.setAccNoSaturation a (Footprint.val_SignExtend _ (by decide) (by decide)))
        fun _ => .seq (hF.getRnUnit b) fun _ => .seq (hF.rnAndModify _ _ _) fun _ =>
          hF.setRegs fun _ => ⟨rfl, rfl, rfl⟩) fun _ => .triv

theorem exchangeAcc (x y : RegName) : F.Keeps (exchangeAcc x y) fun _ => True := by
  unfold Teakra.exchangeAcc
  exact .bind (hF.getAcc x) fun _ hu => .bind (hF.getAcc y) fun _ hv =>
    .seq (hF.setAcc x hv false) fun _ => hF.setAcc y hu false

theorem swap (t : SwapTypeValue) : F.Keeps (swap t) fun _ => True := by
  unfold Teakra.swap
  refine .seq (?_ : F.Keeps _ fun _ => True) fun _ => .bind (hF.getAcc _) fun _ hu =>
    .bind (hF.getAcc _) fun _ hv => .seq (hF.setAcc _ hu false) fun _ => hF.setAcc _ hv false
  split <;> first | exact hF.exchangeAcc _ _ | exact .triv

theorem unimplemented : F.Keeps unimplemented fun _ => True := hF.throw (by decide)

theorem almMem (op : AlmOp) (a : MemOperand) (b : RegName) :
    F.Keeps (almMem op a b) fun _ => True :=
  .seq (hF.loadFromMemory a) fun _ => hF.almGeneric _ _ _

theorem almRn (op : AlmOp) (a : RegName) (as : StepValue) (b : RegName) :
    F.Keeps (almRn op a as b) fun _ => True :=
  .seq (hF.getRnUnit a) fun _ => .seq (hF.rnAddressAndModify _ _ _) fun _ =>
    .seq (.dataRead _) fun _ => hF.almGeneric _ _ _

theorem almRegister (op : AlmOp) (a b : RegName) :
    F.Keeps (almRegister ops op a b) fun _ => True := by
  unfold Teakra.almRegister
  refine .seq (?_ : F.Keeps _ fun _ => True) fun _ => hF.almGeneric _ _ _
  split <;> first
    | exact .ite (fun _ => (hF.productToBus40 _).weaken fun _ _ => trivial)
        (fun _ => hF.throw (by decide))
    | exact .ite (fun _ => (hF.getAcc _).weaken fun _ _ => trivial) (fun _ => hF.throw (by decide))
    | exact .seq (hF.regToBus16 _ _) fun _ => .triv

theorem almValue (op : AlmOp) (value : BitVec 16) (b : RegName) :
    F.Keeps (almValue op value b) fun _ => True :=
  hF.almGeneric _ _ _

theorem almR6 (op : AlmOp) (b : RegName) : F.Keeps (almR6 op b) fun _ => True :=
  .seq hF.regs fun _ => hF.almValue _ _ _

theorem aluImm8 (op : AlmOp) (a : BitVec 16) (b : RegName) :
    F.Keeps (aluImm8 op a b) fun _ => True := by
  unfold Teakra.aluImm8
  refine .bind (?_ : F.Keeps _ F.Val) fun _ hb => .seq (hF.almGeneric _ _ _) fun _ =>
    .ite (fun _ => .bind (hF.getAcc b) fun _ hn => hF.setAccSimple b
      (hb.or (hn.and (.of_canon (canon_iff_toNat.2 (.inr (by decide))))))) fun _ => .triv
  exact .ite (fun _ => .bind (hF.getAcc b) fun _ h =>
      .pure (h.and (.of_canon (canon_of_toNat_lt (by decide)))))
    (fun _ => .pure (.of_canon (canon_of_toNat_lt (by decide))))

theorem or_ (a b c : RegName) : F.Keeps (or_ a b c) fun _ => True :=
  .bind (hF.getAcc a) fun _ ha => .bind (hF.getAcc b) fun _ hb =>
    hF.setAccNoSaturation c (ha.or hb)

theorem albMemImm8 (op : AlbOp) (a b : BitVec 16) : F.Keeps (albMemImm8 op a b) fun _ => True :=
  .seq (hF.loadFromMemory _) fun _ => .seq (hF.genericAlb _ _ _) fun _ =>
    .ite (fun _ => hF.storeToMemory _ _) fun _ => .triv

theorem albRn (op : AlbOp) (a : BitVec 16) (b : RegName) (bs : StepValue) :
    F.Keeps (albRn op a b bs) fun _ => True :=
  .seq (hF.getRnUnit b) fun _ => .seq (hF.rnAddressAndModify _ _ _) fun _ =>
    .seq (.dataRead _) fun _ => .seq (hF.genericAlb _ _ _) fun _ =>
      .ite (fun _ => hF.dataWrite _ _) fun _ => .triv

/-- The direct half writes of `alb` keep the bits 32..63 of a canonical accumulator. -/
theorem writeAccBits (i : Acc) {mask bits : BitVec 64} (hm : Canon mask) (hb : Canon bits) :
    F.Keeps (writeAccBits i mask bits) fun _ => True :=
  .setRegs fun s hs => hF.write s _ _ (((hF.read s _ hs).and (.of_canon hm)).or (.of_canon hb)) hs

theorem albStore (b : RegName) (result : BitVec 16) :
    F.Keeps (albStore ops b result) fun _ => True := by
  unfold Teakra.albStore
  split <;> first
    | exact hF.throw (by decide)
    | exact hF.writeAccBits _ (canon_halfMask true) (canon_setWidth_16 _)
    | exact hF.writeAccBits _ (canon_halfMask false) (canon_setWidth_16_shiftLeft_16 _)
    | exact hF.regFromBus16 _ _

theorem albRegister (op : AlbOp) (a : BitVec 16) (b : RegName) :
    F.Keeps (albRegister ops op a b) fun _ => True := by
  unfold Teakra.albRegister
  refine .seq (?_ : F.Keeps _ fun _ => True) fun _ => .seq (hF.genericAlb _ _ _) fun _ =>
    .ite (fun _ => hF.albStore _ _) fun _ => .triv
  exact .ite (fun _ => .seq (hF.productToBus40 _) fun _ => .triv) fun _ =>
    .ite (fun _ => hF.throw (by decide)) fun _ =>
    .ite (fun _ => .seq (hF.getAcc b) fun _ => .triv) fun _ =>
    .ite (fun _ => .seq (hF.getAcc b) fun _ => .triv) fun _ => hF.regToBus16 _ _

theorem albR6 (op : AlbOp) (a : BitVec 16) : F.Keeps (albR6 op a) fun _ => True :=
  .seq hF.regs fun _ => .seq (hF.genericAlb _ _ _) fun _ =>
    .ite (fun _ => hF.setRegs fun _ => ⟨rfl, rfl, rfl⟩) fun _ => .triv

theorem albSttMod (op : AlbOp) (a : BitVec 16) (b : RegName) :
    F.Keeps (albSttMod ops op a b) fun _ => True :=
  .seq (hF.regToBus16 _ _) fun _ => .seq (hF.genericAlb _ _ _) fun _ =>
    .ite (fun _ => hF.regFromBus16 _ _) fun _ => .triv

theorem accAddSub (sub : Bool) (a b : RegName) : F.Keeps (accAddSub sub a b) fun _ => True :=
  .seq (hF.getAcc a) fun _ => .seq (hF.getAcc b) fun _ =>
    .bind (hF.addSub _ _ _) fun _ h => hF.setAcc b h false

theorem productAddSub (sub : Bool) (a b : RegName) :
    F.Keeps (productAddSub sub a b) fun _ => True :=
  .seq (hF.productToBus40 a) fun _ => .seq (hF.getAcc b) fun _ =>
    .bind (hF.addSub _ _ _) fun _ h => hF.setAcc b h false

theorem arpAddSub (subHigh subLow : Bool) (a asi asj : Fin 4) (b : RegName) :
    F.Keeps (arpAddSub subHigh subLow a asi asj b) fun _ => True :=
  .seq hF.regs fun _ => .seq (hF.getArpStep _ _) fun ⟨_, _⟩ => .seq hF.regs fun _ =>
    .seq (hF.rnAddressAndModify _ _ _) fun _ => .seq (hF.rnAddressAndModify _ _ _) fun _ =>
    .seq hF.regs fun _ => .seq (.dataRead _) fun _ => .seq (.dataRead _) fun _ =>
    .seq (.dataRead _) fun _ => .seq (.dataRead _) fun _ => hF.setAccSimple b (.of_canon
      (canon_packHighLow ((fits_SignExtend_16 _).plusMinus _ (fits_SignExtend_16 _) (by decide)) _))

theorem svAddSub (subHigh : Bool) (a as : Fin 4) (b : RegName) :
    F.Keeps (svAddSub subHigh a as b) fun _ => True :=
  .seq hF.regs fun _ => .seq (hF.getArStep _) fun _ => .seq hF.regs fun _ =>
    .seq (hF.rnAddressAndModify _ _ _) fun _ => .seq hF.regs fun _ =>
    .seq (.dataRead _) fun _ => .seq (.dataRead _) fun _ => hF.setAccSimple b (.of_canon
      (canon_packHighLow ((fits_SignExtend_16 _).plusMinus _ (fits_SignExtend_16 _) (by decide)) _))

theorem subAddMovSv (iFirst : Bool) (a asi asj : Fin 4) (b : RegName) :
    F.Keeps (subAddMovSv iFirst a asi asj b) fun _ => True :=
  .seq hF.regs fun _ => .seq (hF.getArpStep _ _) fun ⟨_, _⟩ => .seq hF.regs fun _ =>
    .seq (hF.rnAddressAndModify _ _ _) fun _ => .seq (hF.rnAddressAndModify _ _ _) fun _ =>
    .seq hF.regs fun _ => .seq (.dataRead _) fun _ => .seq (.dataRead _) fun _ =>
    .seq (hF.setAccSimple b (.of_canon (canon_packHighLow
      ((fits_SignExtend_16 _).sub (fits_SignExtend_16 _) (by decide)) _))) fun _ =>
    .seq (.dataRead _) fun _ => hF.setRegs fun _ => ⟨rfl, rfl, rfl⟩

theorem addSubMov (iFirst : Bool) (a asi asj : Fin 4) (b : RegName) :
    F.Keeps (addSubMov iFirst a asi asj b) fun _ => True :=
  .seq hF.regs fun _ => .seq (hF.getArpStep _ _) fun ⟨_, _⟩ => .seq hF.regs fun _ =>
    .seq (hF.rnAddressAndModify _ _ _) fun _ => .seq (hF.rnAddressAndModify _ _ _) fun _ =>
    .seq hF.regs fun _ => .seq (.dataRead _) fun _ => .seq (.dataRead _) fun _ =>
    .bind (hF.getAcc b) fun _ h => .seq (hF.saturateAccNoFlag h false) fun _ =>
    .seq (hF.setAccSimple b (.of_canon (canon_packHighLow
      ((fits_SignExtend_16 _).add (fits_SignExtend_16 _) (by decide)) _))) fun _ =>
    hF.dataWrite _ _

theorem modaOp (op : ModaOp) (a : RegName) : F.Keeps (modaOp op a) fun _ => True := by
  unfold Teakra.modaOp
  split <;> first
    | exact .seq (hF.getAcc a) fun _ => hF.shiftBus40 _ _ _
    | exact .seq (hF.getAcc a) fun _ => .seq hF.regs fun _ =>
        .seq (hF.setRegs fun _ => ⟨rfl, rfl, rfl⟩) fun _ =>
          hF.setAccNoSaturation a (Footprint.val_SignExtend _ (by decide) (by decide))
    | exact hF.setAcc a (.of_canon (canon_of_toNat_lt (by decide))) false
    | exact .bind (hF.getAcc a) fun _ h => hF.setAccNoSaturation a h.not
    | exact .seq (hF.getAcc a) fun _ => .seq (hF.setRegs fun _ => ⟨rfl, rfl, rfl⟩) fun _ =>
        .seq (hF.getAcc a) fun _ =>
          hF.setAcc a (Footprint.val_SignExtend _ (by decide) (by decide)) false
    | exact .seq (hF.getAcc a) fun _ => .bind (hF.addSub _ _ _) fun _ h => hF.setAcc a h false
    | exact .seq (hF.productToBus40 _) fun _ =>
        .bind (hF.addSub _ _ _) fun _ h => hF.setAcc a h false
    | exact .bind (hF.getAcc _) fun _ h => hF.setAcc a h false

theorem moda (op : ModaOp) (a : RegName) (cond : Cond) :
    F.Keeps (moda ops op a cond) fun _ => True :=
  .seq hF.regs fun _ => .ite (fun _ => hF.modaOp _ _) fun _ => .triv

theorem pacr1 (a : RegName) : F.Keeps (pacr1 a) fun _ => True :=
  .seq (hF.productToBus40 _) fun _ => .bind (hF.addSub _ _ _) fun _ h => hF.setAcc a h false

theorem clrPair {value : BitVec 64} (hv : Canon value) (name : Fin 4 → RegName) (a b : Fin 4) :
    F.Keeps (clrPair value name a b) fun _ => True :=
  .seq (hF.setAcc _ (.of_canon hv) false) fun _ => hF.setAcc _ (.of_canon hv) false

end Sound

end Keeps

/-! ## The handlers of this module -/

/-- The handlers of lines 122–963, each family with all its operands; a member of a family
    (`add`, `subP1`, `almMemImm8`, ...) is its family at the member's constant. -/
inductive AluHandler : M Unit → Prop
  | nop : AluHandler nop
  | norm (a b : RegName) (bs : StepValue) : AluHandler (norm a b bs)
  | swap (t : SwapTypeValue) : AluHandler (swap t)
  | unimplemented : AluHandler unimplemented
  | almMem (op : AlmOp) (a : MemOperand) (b : RegName) : AluHandler (almMem op a b)
  | almRn (op : AlmOp) (a : RegName) (as : StepValue) (b : RegName) : AluHandler (almRn op a as b)
  | almRegister (op : AlmOp) (a b : RegName) : AluHandler (almRegister ops op a b)
  | almValue (op : AlmOp) (value : BitVec 16) (b : RegName) : AluHandler (almValue op value b)
  | almR6 (op : AlmOp) (b : RegName) : AluHandler (almR6 op b)
  | aluImm8 (op : AlmOp) (a : BitVec 16) (b : RegName) : AluHandler (aluImm8 op a b)
  | or_ (a b c : RegName) : AluHandler (or_ a b c)
  | albMemImm8 (op : AlbOp) (a b : BitVec 16) : AluHandler (albMemImm8 op a b)
  | albRn (op : AlbOp) (a : BitVec 16) (b : RegName) (bs : StepValue) :
      AluHandler (albRn op a b bs)
  | albRegister (op : AlbOp) (a : BitVec 16) (b : RegName) : AluHandler (albRegister ops op a b)
  | albR6 (op : AlbOp) (a : BitVec 16) : AluHandler (albR6 op a)
  | albSttMod (op : AlbOp) (a : BitVec 16) (b : RegName) : AluHandler (albSttMod ops op a b)
  | accAddSub (sub : Bool) (a b : RegName) : AluHandler (accAddSub sub a b)
  | productAddSub (sub : Bool) (a b : RegName) : AluHandler (productAddSub sub a b)
  | productSum (base : SumBase) (c : RegName) (p0 p1 : ProductSumConfig) :
      AluHandler (productSum base c p0 p1)
  | arpAddSub (subHigh subLow : Bool) (a asi asj : Fin 4) (b : RegName) :
      AluHandler (arpAddSub subHigh subLow a asi asj b)
  | svAddSub (subHigh : Bool) (a as : Fin 4) (b : RegName) : AluHandler (svAddSub subHigh a as b)
  | subAddMovSv (iFirst : Bool) (a asi asj : Fin 4) (b : RegName) :
      AluHandler (subAddMovSv iFirst a asi asj b)
  | addSubMov (iFirst : Bool) (a asi asj : Fin 4) (b : RegName) :
      AluHandler (addSubMov iFirst a asi asj b)
  | moda (op : ModaOp) (a : RegName) (cond : Cond) : AluHandler (moda ops op a cond)
  | pacr1 (a : RegName) : AluHandler (pacr1 a)
  | clr (name : Fin 4 → RegName) (a b : Fin 4) : AluHandler (clr name a b)
  | clrr (name : Fin 4 → RegName) (a b : Fin 4) : AluHandler (clrr name a b)

/-- Every handler of this module keeps every sound footprint. -/
theorem AluHandler.keeps {F : Footprint} (hF : Sound ops F) {h : M Unit} (hh : AluHandler ops h) :
    F.Keeps h fun _ => True := by
  cases hh with
  | nop => exact .triv
  | norm a b bs => exact hF.norm a b bs
  | swap t => exact hF.swap t
  | unimplemented => exact hF.unimplemented
  | almMem op a b => exact hF.almMem op a b
  | almRn op a as b => exact hF.almRn op a as b
  | almRegister op a b => exact hF.almRegister op a b
  | almValue op v b => exact hF.almValue op v b
  | almR6 op b => exact hF.almR6 op b
  | aluImm8 op a b => exact hF.aluImm8 op a b
  | or_ a b c => exact hF.or_ a b c
  | albMemImm8 op a b => exact hF.albMemImm8 op a b
  | albRn op a b bs => exact hF.albRn op a b bs
  | albRegister op a b => exact hF.albRegister op a b
  | albR6 op a => exact hF.albR6 op a
  | albSttMod op a b => exact hF.albSttMod op a b
  | accAddSub sub a b => exact hF.accAddSub sub a b
  | productAddSub sub a b => exact hF.productAddSub sub a b
  | productSum base c p0 p1 => exact hF.productSum base c p0 p1
  | arpAddSub sh sl a asi asj b => exact hF.arpAddSub sh sl a asi asj b
  | svAddSub sh a as b => exact hF.svAddSub sh a as b
  | subAddMovSv i a asi asj b => exact hF.subAddMovSv i a asi asj b
  | addSubMov i a asi asj b => exact hF.addSubMov i a asi asj b
  | moda op a cond => exact hF.moda op a cond
  | pacr1 a => exact hF.pacr1 a
  | clr name a b => exact hF.clrPair (canon_of_toNat_lt (by decide)) name a b
  | clrr name a b => exact hF.clrPair (canon_of_toNat_lt (by decide)) name a b

end Teakra
