import Teakra.Handlers.Alu

/-!
# Handlers: loops, banks, branches, the stack and the bit tests

The instruction handlers of `interpreter.h`, lines 975–1428: the three `bkrep` forms,
`bkreprst`/`bkrepsto`, `banke`, `bankr`, `bitrev`, `br`, `brr`, `call`, `calla`, `callr`,
`cntx_s`/`cntx_r`, the returns, the `load_*` immediates, `push`/`pop`, `rep`, `shfc`, `shfi`,
`tst4b`, `tstb`, `and_`, `dint` and `eint`. `break_` is the method of `Teakra.Interpreter.Loop`.

Handlers whose bodies coincide (the three `pop` overloads that go through `RegFromBus16`,
the two `pusha`) are one definition. Those that move one register to or from the stack
(`push_r6`, `pop_x1`, ...) are `pushField`/`popField` at their register.

The only handlers here that write an accumulator are `pop(Abe)`, `popa`, `and_`, `shfc`,
`shfi`, `tst4b` and `cntx_s`, `cntx_r`, `retic`: `pop(Abe)` packs the sign extension of a
byte above bit 31, which `canon_SignExtend_8_shiftLeft_32` shows canonical.
-/

namespace Teakra

variable (ops : RegisterMethods)

/-! ## Block repeat -/

/-- `bkrep(Imm8, Address16)` (lines 975–979): the end address keeps the page of `pc`. -/
def bkrepImm8 (a addr : BitVec 16) : M Unit := do
  blockRepeat a (addr.setWidth 32 ||| ((← regs).pc &&& 0x30000))

/-- The 18-bit address of an `Address18_16`/`Address18_2` pair. -/
def address18 (addrLow addrHigh : BitVec 16) : BitVec 32 :=
  addrLow.setWidth 32 ||| addrHigh.setWidth 32 <<< 16

/-- `bkrep(Register, Address18_16, Address18_2)` (lines 980–984). -/
def bkrepRegister (a : RegName) (addrLow addrHigh : BitVec 16) : M Unit := do
  let lc ← regToBus16 ops a false
  blockRepeat lc (address18 addrLow addrHigh)

/-- `bkrep_r6` (lines 985–989). -/
def bkrepR6 (addrLow addrHigh : BitVec 16) : M Unit := do
  blockRepeat ((← regs).r 6) (address18 addrLow addrHigh)

/-- `bkreprst(ArRn2)` (lines 1028–1030). -/
def bkreprst (a : Fin 4) : M Unit := do restoreBlockRepeat (.r (getArRnUnit (← regs) a))
/-- `bkreprst_memsp` (lines 1031–1033). -/
def bkreprstMemsp : M Unit := restoreBlockRepeat .sp
/-- `bkrepsto(ArRn2)` (lines 1034–1036). -/
def bkrepsto (a : Fin 4) : M Unit := do storeBlockRepeat (.r (getArRnUnit (← regs) a))
/-- `bkrepsto_memsp` (lines 1037–1039). -/
def bkrepstoMemsp : M Unit := storeBlockRepeat .sp

/-! ## Banks and bit reversal -/

/-- The first bank of `banke`: `stepi`, `modi`, and `stepi0` when `bankstep` (lines 1042–1047). -/
def bankI (r : RegisterState) : RegisterState :=
  let r := { r with stepi := r.stepib, stepib := r.stepi, modi := r.modib, modib := r.modi }
  if r.bankstep then { r with stepi0 := r.stepi0b, stepi0b := r.stepi0 } else r

/-- The last bank of `banke`: `stepj`, `modj`, and `stepj0` when `bankstep` (lines 1060–1064). -/
def bankJ (r : RegisterState) : RegisterState :=
  let r := { r with stepj := r.stepjb, stepjb := r.stepj, modj := r.modjb, modjb := r.modj }
  if r.bankstep then { r with stepj0 := r.stepj0b, stepj0b := r.stepj0 } else r

/-- `std::swap(regs.r[unit], banked)`. -/
def swapR (unit : Fin 8) (get : RegisterState → BitVec 16)
    (set : BitVec 16 → RegisterState → RegisterState) (r : RegisterState) : RegisterState :=
  set (r.r unit) { r with r := Function.update r.r unit (get r) }

/-- `banke` (lines 1041–1066). -/
def banke (flags : BitVec 16) : M Unit := do
  if flags &&& 1 != 0 then setRegs bankI
  if flags &&& 2 != 0 then setRegs (swapR 4 (·.r4b) fun v r => { r with r4b := v })
  if flags &&& 4 != 0 then setRegs (swapR 1 (·.r1b) fun v r => { r with r1b := v })
  if flags &&& 8 != 0 then setRegs (swapR 0 (·.r0b) fun v r => { r with r0b := v })
  if flags &&& 16 != 0 then setRegs (swapR 7 (·.r7b) fun v r => { r with r7b := v })
  if flags &&& 32 != 0 then setRegs bankJ

/-- `bankr()` (lines 1067–1069). -/
def bankr : M Unit := setRegs ops.SwapAllArArp
/-- `bankr(Ar)` (lines 1070–1072). -/
def bankrAr (a : BitVec 16) : M Unit := setRegs (ops.SwapAr a)
/-- `bankr(Ar, Arp)` (lines 1073–1076). -/
def bankrArArp (a b : BitVec 16) : M Unit := do
  setRegs (ops.SwapAr a)
  setRegs (ops.SwapArp b)
/-- `bankr(Arp)` (lines 1077–1079). -/
def bankrArp (a : BitVec 16) : M Unit := setRegs (ops.SwapArp a)

/-- `bitrev`, `bitrev_dbrv` and `bitrev_ebrv` (lines 1081–1094): reverse `r[unit]`, and
    set `brv[unit]` from its old value by `brv`. -/
def bitrevBrv (a : RegName) (brv : Bool → Bool) : M Unit := do
  let unit ← getRnUnit a
  setRegs fun r => { r with r := Function.update r.r unit (BitReverse (r.r unit)),
                            brv := Function.update r.brv unit (brv (r.brv unit)) }

/-- `bitrev_dbrv`. -/
def bitrevDbrv (a : RegName) : M Unit := bitrevBrv a fun _ => false
/-- `bitrev_ebrv`. -/
def bitrevEbrv (a : RegName) : M Unit := bitrevBrv a fun _ => true

/-! ## Branches, calls and returns -/

/-- `br` (lines 1096–1100). -/
def br (addrLow addrHigh : BitVec 16) (cond : Cond) : M Unit := do
  if ops.ConditionPass cond (← regs) then setRegs (setPC addrLow addrHigh)

/-- `pc += SignExtend<7, u32>(addr)`, unchecked (`brr`, `callr`). -/
def addPcRel7 (addr : BitVec 16) (r : RegisterState) : RegisterState :=
  { r with pc := r.pc + SignExtend 7 (addr.setWidth 32) }

theorem frames_addPcRel7 (addr : BitVec 16) : Frames (addPcRel7 addr) := fun _ => ⟨rfl, rfl, rfl⟩

/-- `brr` (lines 1102–1106). -/
def brr (addr : BitVec 16) (cond : Cond) : M Unit := do
  if ops.ConditionPass cond (← regs) then setRegs (addPcRel7 addr)

/-- `call` (lines 1117–1122). -/
def call (addrLow addrHigh : BitVec 16) (cond : Cond) : M Unit := do
  if ops.ConditionPass cond (← regs) then
    pushPC
    setRegs (setPC addrLow addrHigh)

/-- `calla(Axl)` (lines 1123–1126). -/
def callaAxl (a : RegName) : M Unit := do
  pushPC
  setPCSave ((← regToBus16 ops a false).setWidth 32)

/-- `calla(Ax)` (lines 1127–1130). -/
def calla (a : RegName) : M Unit := do
  pushPC
  setPCSave (((← getAcc a) &&& 0x3FFFF).setWidth 32)

/-- `callr` (lines 1131–1136). -/
def callr (addr : BitVec 16) (cond : Cond) : M Unit := do
  if ops.ConditionPass cond (← regs) then
    pushPC
    setRegs (addPcRel7 addr)

/-- `cntx_s` (lines 1153–1155). -/
def cntxS : M Unit := contextStore ops
/-- `cntx_r` (lines 1156–1158). -/
def cntxR : M Unit := contextRestore ops

/-- `ret` (lines 1160–1164). -/
def ret (c : Cond) : M Unit := do
  if ops.ConditionPass c (← regs) then popPC

/-- `retd` (lines 1165–1167). -/
def retd : M Unit := unimplemented

/-- `reti` (lines 1168–1173). -/
def reti (c : Cond) : M Unit := do
  if ops.ConditionPass c (← regs) then
    popPC
    setRegs fun r => { r with ie := true }

/-- `retic` (lines 1174–1180). -/
def retic (c : Cond) : M Unit := do
  if ops.ConditionPass c (← regs) then
    popPC
    setRegs fun r => { r with ie := true }
    contextRestore ops

/-- `retid` (lines 1181–1183). -/
def retid : M Unit := unimplemented
/-- `retidc` (lines 1184–1186). -/
def retidc : M Unit := unimplemented

/-- `rets` (lines 1187–1190). -/
def rets (a : BitVec 16) : M Unit := do
  popPC
  setRegs fun r => { r with sp := r.sp + a }

/-! ## Immediate loads -/

/-- `load_ps` (lines 1192–1194). -/
def loadPs (a : BitVec 16) : M Unit := setRegs fun r => { r with ps := Function.update r.ps 0 a }
/-- `load_stepi` (lines 1195–1197): the raw `Imm7s` storage, not sign extended. -/
def loadStepi (a : BitVec 16) : M Unit := setRegs fun r => { r with stepi := a }
/-- `load_stepj` (lines 1198–1200). -/
def loadStepj (a : BitVec 16) : M Unit := setRegs fun r => { r with stepj := a }
/-- `load_page` (lines 1201–1203). -/
def loadPage (a : BitVec 16) : M Unit := setRegs fun r => { r with page := a }
/-- `load_modi` (lines 1204–1206). -/
def loadModi (a : BitVec 16) : M Unit := setRegs fun r => { r with modi := a }
/-- `load_modj` (lines 1207–1209). -/
def loadModj (a : BitVec 16) : M Unit := setRegs fun r => { r with modj := a }
/-- `load_movpd` (lines 1210–1212). -/
def loadMovpd (a : BitVec 16) : M Unit := setRegs fun r => { r with movpd := a }
/-- `load_ps01` (lines 1213–1216). -/
def loadPs01 (a : BitVec 16) : M Unit :=
  setRegs fun r => { r with ps := Function.update (Function.update r.ps 0 (a &&& 3)) 1 (a >>> 2) }

/-! ## The data stack -/

/-- The registers that handlers name as fields of `regs` when they move one word to or from
    them (`u16 value = regs.repc;`, `regs.x[0] = value;`, ...). -/
inductive DirectReg
  | r6 | repc | x0 | x1 | y0 | y1 | sv | mixp | stepi0 | stepj0
  deriving DecidableEq, Repr

/-- The register's value. -/
def DirectReg.get (r : RegisterState) : DirectReg → BitVec 16
  | .r6 => r.r 6
  | .repc => r.repc
  | .x0 => r.x 0
  | .x1 => r.x 1
  | .y0 => r.y 0
  | .y1 => r.y 1
  | .sv => r.sv
  | .mixp => r.mixp
  | .stepi0 => r.stepi0
  | .stepj0 => r.stepj0

/-- The register set to `v`. -/
def DirectReg.set (d : DirectReg) (v : BitVec 16) (r : RegisterState) : RegisterState :=
  match d with
  | .r6 => { r with r := Function.update r.r 6 v }
  | .repc => { r with repc := v }
  | .x0 => { r with x := Function.update r.x 0 v }
  | .x1 => { r with x := Function.update r.x 1 v }
  | .y0 => { r with y := Function.update r.y 0 v }
  | .y1 => { r with y := Function.update r.y 1 v }
  | .sv => { r with sv := v }
  | .mixp => { r with mixp := v }
  | .stepi0 => { r with stepi0 := v }
  | .stepj0 => { r with stepj0 := v }

theorem DirectReg.frames_set (d : DirectReg) (v : BitVec 16) : Frames (d.set v) := fun _ => by
  cases d <;> exact ⟨rfl, rfl, rfl⟩

/-- `push(Imm16)` (lines 1218–1220). -/
def pushImm16 (a : BitVec 16) : M Unit := pushWord a

/-- `push(Register)` (lines 1221–1225): through the bus with saturation. -/
def pushRegister (a : RegName) : M Unit := do pushWord (← regToBus16 ops a true)

/-- `push(Abe)` (lines 1226–1229): bits 32..47 of the saturated accumulator. -/
def pushAbe (a : RegName) : M Unit := do
  let value := (← saturateAcc (← getAcc a) false) >>> 32 &&& 0xFFFF
  pushWord (value.setWidth 16)

/-- `push(ArArpSttMod)` (lines 1230–1233). -/
def pushArArpSttMod (a : RegName) : M Unit := do pushWord (← regToBus16 ops a false)

/-- `push_prpage` (lines 1234–1236). -/
def pushPrpage : M Unit := unimplemented
/-- `pop_prpage` (lines 1304–1306). -/
def popPrpage : M Unit := unimplemented

/-- Push the two halves of a 32-bit value, low half first. -/
def pushHalves (value : BitVec 32) : M Unit := do
  pushWord ((value &&& 0xFFFF).setWidth 16)
  pushWord ((value >>> 16).setWidth 16)

/-- `push(Px)` (lines 1237–1243). -/
def pushPx (a : RegName) : M Unit := do pushHalves ((← productToBus40 a).setWidth 32)

/-- `push_r6`, `push_repc`, `push_x0`, `push_x1` and `push_y1` (lines 1244–1263). -/
def pushField (d : DirectReg) : M Unit := do pushWord (d.get (← regs))

/-- `push_r6`. -/
def pushR6 : M Unit := pushField .r6
/-- `push_repc`. -/
def pushRepc : M Unit := pushField .repc
/-- `push_x0`. -/
def pushX0 : M Unit := pushField .x0
/-- `push_x1`. -/
def pushX1 : M Unit := pushField .x1
/-- `push_y1`. -/
def pushY1 : M Unit := pushField .y1

/-- `pusha(Ax)` and `pusha(Bx)` (lines 1264–1277). -/
def pusha (a : RegName) : M Unit := do
  pushHalves (((← saturateAcc (← getAcc a) false) &&& 0xFFFFFFFF).setWidth 32)

/-- `pop(Register)`, `pop(ArArpSttMod)` and `pop(Bx)` (lines 1279–1283, 1296–1303). -/
def popRegister (a : RegName) : M Unit := do regFromBus16 ops a (← popWord)

/-- The accumulator `pop(Abe)` targets (lines 1287–1293). -/
def abeTarget : RegName → M Acc
  | .a0e => pure (.a 0)
  | .a1e => pure (.a 1)
  | .b0e => pure (.b 0)
  | .b1e => pure (.b 1)
  | _ => throw "???"

/-- `pop(Abe)` (lines 1284–1295): the popped byte, sign extended to 32 bits, replaces bits
    32..63 of the accumulator. -/
def popAbe (a : RegName) : M Unit := do
  let value32 := SignExtend 8 (((← popWord) &&& 0xFF).setWidth 32)
  let target ← abeTarget a
  setAcc a (((← regs).acc target &&& 0xFFFFFFFF) ||| value32.setWidth 64 <<< 32) false

/-- `pop(Px)` (lines 1307–1312). -/
def popPx (a : RegName) : M Unit := do
  let h ← popWord
  let l ← popWord
  productFromBus32 a (h.setWidth 32 <<< 16 ||| l.setWidth 32)

/-- `pop_r6`, `pop_repc`, `pop_x0`, `pop_x1` and `pop_y1` (lines 1313–1332). -/
def popField (d : DirectReg) : M Unit := do
  let value ← popWord
  setRegs (d.set value)

/-- `pop_r6`. -/
def popR6 : M Unit := popField .r6
/-- `pop_repc`. -/
def popRepc : M Unit := popField .repc
/-- `pop_x0`. -/
def popX0 : M Unit := popField .x0
/-- `pop_x1`. -/
def popX1 : M Unit := popField .x1
/-- `pop_y1`. -/
def popY1 : M Unit := popField .y1

/-- `popa` (lines 1333–1338). -/
def popa (a : RegName) : M Unit := do
  let h ← popWord
  let l ← popWord
  setAcc a (SignExtend 32 (h.setWidth 64 <<< 16 ||| l.setWidth 64)) false

/-! ## Repeat, shifts and bit tests -/

/-- `rep(Imm8)` (lines 1345–1347). -/
def repImm8 (a : BitVec 16) : M Unit := «repeat» a
/-- `rep(Register)` (lines 1348–1350). -/
def repRegister (a : RegName) : M Unit := do «repeat» (← regToBus16 ops a false)
/-- `rep_r6` (lines 1351–1353). -/
def repR6 : M Unit := do «repeat» ((← regs).r 6)

/-- `shfc` (lines 1355–1361). -/
def shfc (a b : RegName) (cond : Cond) : M Unit := do
  if ops.ConditionPass cond (← regs) then
    let value ← getAcc a
    shiftBus40 value (← regs).sv b

/-- `shfi` (lines 1362–1366). -/
def shfi (a b : RegName) (s : BitVec 16) : M Unit := do
  let value ← getAcc a
  shiftBus40 value (SignExtend 6 s) b

/-- `regs.fz = regs.fc[0] = (value >> bit) & 1`. -/
def testBitZC (value : BitVec 16) (bit : BitVec 64) (r : RegisterState) : RegisterState :=
  let t := (value >>> bit.toNat) &&& 1 != 0
  { r with fz := t, fc := Function.update r.fc 0 t }

/-- `tst4b(ArRn2, ArStep2)` (lines 1368–1374): test the bit of memory that `a0 & 0xF`
    selects. -/
def tst4b (b bs : Fin 4) : M Unit := do
  let address ← rnAddressAndModify (getArRnUnit (← regs) b) (← getArStep bs) false
  let value ← dataRead address
  let bit := (← getAcc .a0) &&& 0xF
  setRegs (testBitZC value bit)

/-- `tst4b(ArRn2, ArStep2, Ax)` (lines 1375–1394): also shift `a0` by `sv` into `c`,
    keeping the flags other than `fc`. -/
def tst4bAx (b bs : Fin 4) (c : RegName) : M Unit := do
  let a ← getAcc .a0
  let bit := a &&& 0xF
  let saved ← regs
  shiftBus40 a saved.sv c
  setRegs fun r => { r with fc := Function.update r.fc 1 (r.fc 0), fv := saved.fv,
                            flv := saved.flv, fm := saved.fm, fn := saved.fn, fe := saved.fe }
  let address ← rnAddressAndModify (getArRnUnit (← regs) b) (← getArStep bs) false
  let value ← dataRead address
  setRegs (testBitZC value bit)

/-- `regs.fz = (value >> b) & 1` of the `tstb` family. For `b ≥ 32`, which only
    `tstb(SttMod, Imm16)` can pass, the C++ shift is undefined; the model reads 0. -/
def testBitZ (value b : BitVec 16) (r : RegisterState) : RegisterState :=
  { r with fz := (value >>> b.toNat) &&& 1 != 0 }

/-- `tstb(MemImm8, Imm4)` (lines 1395–1398). -/
def tstbMemImm8 (a b : BitVec 16) : M Unit := do
  setRegs (testBitZ (← loadFromMemory (.imm8 a)) b)

/-- `tstb(Rn, StepZIDS, Imm4)` (lines 1399–1403). -/
def tstbRn (a : RegName) (as : StepValue) (b : BitVec 16) : M Unit := do
  let address ← rnAddressAndModify (← getRnUnit a) as false
  setRegs (testBitZ (← dataRead address) b)

/-- `tstb(Register, Imm4)` (lines 1404–1408) and `tstb(SttMod, Imm16)` (lines 1415–1418). -/
def tstbRegister (a : RegName) (b : BitVec 16) : M Unit := do
  setRegs (testBitZ (← regToBus16 ops a false) b)

/-- `tstb_r6` (lines 1409–1412). -/
def tstbR6 (b : BitVec 16) : M Unit := do setRegs (testBitZ ((← regs).r 6) b)

/-- `and_` (lines 1418–1421). -/
def and_ (a b c : RegName) : M Unit := do
  let value := (← getAcc a) &&& (← getAcc b)
  setAccNoSaturation c value

/-- `dint` (lines 1423–1425). -/
def dint : M Unit := setRegs fun r => { r with ie := false }
/-- `eint` (lines 1426–1428). -/
def eint : M Unit := setRegs fun r => { r with ie := true }

/-! ## The handlers keep every sound footprint -/

section Keeps

variable {ops} {F : Footprint} (hF : Sound ops F)
include hF

namespace Sound

theorem banke (flags : BitVec 16) : F.Keeps (banke flags) fun _ => True := by
  have hI : Frames bankI := fun r => by unfold bankI; dsimp only; split <;> exact ⟨rfl, rfl, rfl⟩
  have hJ : Frames bankJ := fun r => by unfold bankJ; dsimp only; split <;> exact ⟨rfl, rfl, rfl⟩
  unfold Teakra.banke
  exact .when (fun _ => hF.setRegs hI) <| .when (fun _ => hF.setRegs fun _ => ⟨rfl, rfl, rfl⟩) <|
    .when (fun _ => hF.setRegs fun _ => ⟨rfl, rfl, rfl⟩) <|
    .when (fun _ => hF.setRegs fun _ => ⟨rfl, rfl, rfl⟩) <|
    .when (fun _ => hF.setRegs fun _ => ⟨rfl, rfl, rfl⟩) <| .ite (fun _ => hF.setRegs hJ) fun _ => .triv

theorem pushHalves (v : BitVec 32) : F.Keeps (pushHalves v) fun _ => True :=
  .seq (hF.pushWord _) fun _ => hF.pushWord _

/-- `pop(Abe)` keeps the accumulator canonical: the byte's sign extension to 32 bits,
    shifted up by 32, repeats bit 39 in bits 40..63. -/
theorem popAbe (a : RegName) : F.Keeps (popAbe a) fun _ => True := by
  unfold Teakra.popAbe
  refine .seq hF.popWord fun _ => .seq (?_ : F.Keeps _ fun _ => True) fun t => .bind hF.regs
    fun _ hr => hF.setAcc a (((hr t).and (.of_canon (canon_of_toNat_lt (by decide)))).or
      (.of_canon (canon_SignExtend_8_shiftLeft_32 _))) false
  unfold abeTarget
  split <;> first | exact .triv | exact hF.throw (by decide)

theorem tst4bAx (b bs : Fin 4) (c : RegName) : F.Keeps (tst4bAx b bs c) fun _ => True :=
  .seq (hF.getAcc _) fun _ => .seq hF.regs fun _ => .seq (hF.shiftBus40 _ _ _) fun _ =>
    .seq (hF.setRegs fun _ => ⟨rfl, rfl, rfl⟩) fun _ => .seq hF.regs fun _ =>
    .seq (hF.getArStep _) fun _ => .seq (hF.rnAddressAndModify _ _ _) fun _ =>
    .seq (.dataRead _) fun _ => hF.setRegs fun _ => ⟨rfl, rfl, rfl⟩

end Sound

end Keeps

/-! ## The handlers of this module -/

/-- The handlers of lines 975–1430, with all their operands. -/
inductive ControlHandler : M Unit → Prop
  | bkrepImm8 (a addr : BitVec 16) : ControlHandler (bkrepImm8 a addr)
  | bkrepRegister (a : RegName) (lo hi : BitVec 16) : ControlHandler (bkrepRegister ops a lo hi)
  | bkrepR6 (lo hi : BitVec 16) : ControlHandler (bkrepR6 lo hi)
  | bkreprst (a : Fin 4) : ControlHandler (bkreprst a)
  | bkreprstMemsp : ControlHandler bkreprstMemsp
  | bkrepsto (a : Fin 4) : ControlHandler (bkrepsto a)
  | bkrepstoMemsp : ControlHandler bkrepstoMemsp
  | banke (flags : BitVec 16) : ControlHandler (banke flags)
  | bankr : ControlHandler (bankr ops)
  | bankrAr (a : BitVec 16) : ControlHandler (bankrAr ops a)
  | bankrArArp (a b : BitVec 16) : ControlHandler (bankrArArp ops a b)
  | bankrArp (a : BitVec 16) : ControlHandler (bankrArp ops a)
  | bitrevBrv (a : RegName) (brv : Bool → Bool) : ControlHandler (bitrevBrv a brv)
  | br (lo hi : BitVec 16) (cond : Cond) : ControlHandler (br ops lo hi cond)
  | brr (addr : BitVec 16) (cond : Cond) : ControlHandler (brr ops addr cond)
  | break_ : ControlHandler break_
  | call (lo hi : BitVec 16) (cond : Cond) : ControlHandler (call ops lo hi cond)
  | callaAxl (a : RegName) : ControlHandler (callaAxl ops a)
  | calla (a : RegName) : ControlHandler (calla a)
  | callr (addr : BitVec 16) (cond : Cond) : ControlHandler (callr ops addr cond)
  | cntxS : ControlHandler (cntxS ops)
  | cntxR : ControlHandler (cntxR ops)
  | ret (c : Cond) : ControlHandler (ret ops c)
  | reti (c : Cond) : ControlHandler (reti ops c)
  | retic (c : Cond) : ControlHandler (retic ops c)
  | rets (a : BitVec 16) : ControlHandler (rets a)
  | loadPs (a : BitVec 16) : ControlHandler (loadPs a)
  | loadStepi (a : BitVec 16) : ControlHandler (loadStepi a)
  | loadStepj (a : BitVec 16) : ControlHandler (loadStepj a)
  | loadPage (a : BitVec 16) : ControlHandler (loadPage a)
  | loadModi (a : BitVec 16) : ControlHandler (loadModi a)
  | loadModj (a : BitVec 16) : ControlHandler (loadModj a)
  | loadMovpd (a : BitVec 16) : ControlHandler (loadMovpd a)
  | loadPs01 (a : BitVec 16) : ControlHandler (loadPs01 a)
  | pushImm16 (a : BitVec 16) : ControlHandler (pushImm16 a)
  | pushRegister (a : RegName) : ControlHandler (pushRegister ops a)
  | pushAbe (a : RegName) : ControlHandler (pushAbe a)
  | pushArArpSttMod (a : RegName) : ControlHandler (pushArArpSttMod ops a)
  | pushPx (a : RegName) : ControlHandler (pushPx a)
  | pushField (d : DirectReg) : ControlHandler (pushField d)
  | pusha (a : RegName) : ControlHandler (pusha a)
  | popRegister (a : RegName) : ControlHandler (popRegister ops a)
  | popAbe (a : RegName) : ControlHandler (popAbe a)
  | popPx (a : RegName) : ControlHandler (popPx a)
  | popField (d : DirectReg) : ControlHandler (popField d)
  | popa (a : RegName) : ControlHandler (popa a)
  | repImm8 (a : BitVec 16) : ControlHandler (repImm8 a)
  | repRegister (a : RegName) : ControlHandler (repRegister ops a)
  | repR6 : ControlHandler repR6
  | shfc (a b : RegName) (cond : Cond) : ControlHandler (shfc ops a b cond)
  | shfi (a b : RegName) (s : BitVec 16) : ControlHandler (shfi a b s)
  | tst4b (b bs : Fin 4) : ControlHandler (tst4b b bs)
  | tst4bAx (b bs : Fin 4) (c : RegName) : ControlHandler (tst4bAx b bs c)
  | tstbMemImm8 (a b : BitVec 16) : ControlHandler (tstbMemImm8 a b)
  | tstbRn (a : RegName) (as : StepValue) (b : BitVec 16) : ControlHandler (tstbRn a as b)
  | tstbRegister (a : RegName) (b : BitVec 16) : ControlHandler (tstbRegister ops a b)
  | tstbR6 (b : BitVec 16) : ControlHandler (tstbR6 b)
  | and_ (a b c : RegName) : ControlHandler (and_ a b c)
  | dint : ControlHandler dint
  | eint : ControlHandler eint

/-- Every handler of this module keeps every sound footprint. -/
theorem ControlHandler.keeps {F : Footprint} (hF : Sound ops F) {h : M Unit}
    (hh : ControlHandler ops h) : F.Keeps h fun _ => True := by
  cases hh with
  | bkrepImm8 => exact .seq hF.regs fun _ => hF.blockRepeat _ _
  | bkrepRegister => exact .seq (hF.regToBus16 _ _) fun _ => hF.blockRepeat _ _
  | bkrepR6 => exact .seq hF.regs fun _ => hF.blockRepeat _ _
  | bkreprst => exact .seq hF.regs fun _ => hF.restoreBlockRepeat _
  | bkreprstMemsp => exact hF.restoreBlockRepeat _
  | bkrepsto => exact .seq hF.regs fun _ => hF.storeBlockRepeat _
  | bkrepstoMemsp => exact hF.storeBlockRepeat _
  | banke flags => exact hF.banke flags
  | bankr => exact hF.setRegs hF.methods.swapAllArArp
  | bankrAr => exact hF.setRegs (hF.methods.swapAr _)
  | bankrArArp => exact .seq (hF.setRegs (hF.methods.swapAr _)) fun _ => hF.setRegs (hF.methods.swapArp _)
  | bankrArp => exact hF.setRegs (hF.methods.swapArp _)
  | bitrevBrv => exact .seq (hF.getRnUnit _) fun _ => hF.setRegs fun _ => ⟨rfl, rfl, rfl⟩
  | br => exact .seq hF.regs fun _ => .ite (fun _ => hF.setRegs (frames_setPC _ _)) fun _ => .triv
  | brr =>
    exact .seq hF.regs fun _ => .ite (fun _ => hF.setRegs (frames_addPcRel7 _))
      fun _ => .triv
  | break_ => exact hF.break_
  | call =>
    exact .seq hF.regs fun _ => .ite (fun _ => .seq hF.pushPC fun _ =>
      hF.setRegs (frames_setPC _ _)) fun _ => .triv
  | callr =>
    exact .seq hF.regs fun _ => .ite (fun _ => .seq hF.pushPC fun _ =>
      hF.setRegs (frames_addPcRel7 _)) fun _ => .triv
  | callaAxl => exact .seq hF.pushPC fun _ => .seq (hF.regToBus16 _ _) fun _ => hF.setPCSave _
  | calla => exact .seq hF.pushPC fun _ => .seq (hF.getAcc _) fun _ => hF.setPCSave _
  | cntxS => exact hF.contextStore
  | cntxR => exact hF.contextRestore
  | ret => exact .seq hF.regs fun _ => .ite (fun _ => hF.popPC) fun _ => .triv
  | reti =>
    exact .seq hF.regs fun _ => .ite (fun _ => .seq hF.popPC fun _ =>
      hF.setRegs fun _ => ⟨rfl, rfl, rfl⟩) fun _ => .triv
  | retic =>
    exact .seq hF.regs fun _ => .ite (fun _ => .seq hF.popPC fun _ =>
      .seq (hF.setRegs fun _ => ⟨rfl, rfl, rfl⟩) fun _ => hF.contextRestore) fun _ => .triv
  | rets => exact .seq hF.popPC fun _ => hF.setRegs fun _ => ⟨rfl, rfl, rfl⟩
  | loadPs | loadStepi | loadStepj | loadPage | loadModi | loadModj | loadMovpd | loadPs01
  | dint | eint => exact hF.setRegs fun _ => ⟨rfl, rfl, rfl⟩
  | pushImm16 => exact hF.pushWord _
  | pushRegister | pushArArpSttMod => exact .seq (hF.regToBus16 _ _) fun _ => hF.pushWord _
  | pushAbe =>
    exact .bind (hF.getAcc _) fun _ h => .seq (hF.saturateAcc h _) fun _ =>
      hF.pushWord _
  | pushPx => exact .seq (hF.productToBus40 _) fun _ => hF.pushHalves _
  | pushField => exact .seq hF.regs fun _ => hF.pushWord _
  | pusha =>
    exact .bind (hF.getAcc _) fun _ h => .seq (hF.saturateAcc h _) fun _ =>
      hF.pushHalves _
  | popRegister => exact .seq hF.popWord fun _ => hF.regFromBus16 _ _
  | popAbe => exact hF.popAbe _
  | popPx => exact .seq hF.popWord fun _ => .seq hF.popWord fun _ => hF.productFromBus32 _ _
  | popField d => exact .seq hF.popWord fun v => hF.setRegs (d.frames_set v)
  | popa =>
    exact .seq hF.popWord fun _ => .seq hF.popWord fun _ =>
      hF.setAcc _ (Footprint.val_SignExtend _ (by decide) (by decide)) false
  | repImm8 => exact hF.repeat _
  | repRegister => exact .seq (hF.regToBus16 _ _) fun _ => hF.repeat _
  | repR6 => exact .seq hF.regs fun _ => hF.repeat _
  | shfc =>
    exact .seq hF.regs fun _ => .ite (fun _ => .seq (hF.getAcc _) fun _ =>
      .seq hF.regs fun _ => hF.shiftBus40 _ _ _) fun _ => .triv
  | shfi => exact .seq (hF.getAcc _) fun _ => hF.shiftBus40 _ _ _
  | tst4b =>
    exact .seq hF.regs fun _ => .seq (hF.getArStep _) fun _ =>
      .seq (hF.rnAddressAndModify _ _ _) fun _ => .seq (.dataRead _) fun _ =>
      .seq (hF.getAcc _) fun _ => hF.setRegs fun _ => ⟨rfl, rfl, rfl⟩
  | tst4bAx => exact hF.tst4bAx _ _ _
  | tstbMemImm8 => exact .seq (hF.loadFromMemory _) fun _ => hF.setRegs fun _ => ⟨rfl, rfl, rfl⟩
  | tstbRn =>
    exact .seq (hF.getRnUnit _) fun _ => .seq (hF.rnAddressAndModify _ _ _) fun _ =>
      .seq (.dataRead _) fun _ => hF.setRegs fun _ => ⟨rfl, rfl, rfl⟩
  | tstbRegister => exact .seq (hF.regToBus16 _ _) fun _ => hF.setRegs fun _ => ⟨rfl, rfl, rfl⟩
  | tstbR6 => exact .seq hF.regs fun _ => hF.setRegs fun _ => ⟨rfl, rfl, rfl⟩
  | and_ =>
    exact .bind (hF.getAcc _) fun _ ha => .bind (hF.getAcc _) fun _ hb =>
      hF.setAccNoSaturation _ (ha.and hb)

end Teakra
