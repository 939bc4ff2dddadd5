import Teakra.Handlers.Move

/-!
# Handlers: multiplication, address modification and the vector unit

The handlers of `interpreter.h` around the multiplier: `mul`, `mpyi`, `msu`, `mac_x1to0`,
`mac1` (lines 1457–1561), `modr` (lines 1563–1622), the program-memory moves `movd`, `movp`,
`movpdw` (lines 1624–1655), `exp` (lines 2351–2395), `lim`, the `vtr` registers, `clrp`,
the `max`/`min` family, `divs`, `sqr_*`, `cmp`, `MinMaxVtr` and its callers, the `mov_*sv`
product sums, `cbs`, the `mma` family, `addhp` and `mov_ext*` (lines 2397–2961).

The `mma` handlers are templates the decoder instantiates with constant signs, bases and
product configurations; here those constants are the fields of `MmaConfig`.

The accumulator writes here are `SetAcc` of an `AddSub` result, `vtrmov` of a 16-bit
register, `exp` of a 16-bit sign extension, the sign-extended `divs` step and the packed
word of `MinMaxVtr`, whose high half is a 24-bit sign extension shifted by 16.
-/

namespace Teakra

variable (ops : RegisterMethods)

/-! ## Multiply and multiply-accumulate -/

/-- `mul_y0(Mul3, Rn, StepZIDS, Ax)`, `mul_y0(Mul3, Register, Ax)`, `mul_y0_r6` and
    `mul_y0(Mul2, MemImm8, Ax)` (lines 1465–1474, 1482–1489): `x[0]` from the operand, then
    `MulGeneric`. -/
def mulY0 (op : MulOp) (x : Src16) (a : RegName) : M Unit := do
  mov16 ops x (.reg .x0)
  mulGeneric op a

/-- `mul_y0(Mul3, Rn, StepZIDS, Ax)`. -/
def mulY0Rn (op : MulOp) (x : RegName) (xs : StepValue) (a : RegName) : M Unit :=
  mulY0 ops op (.rn x xs) a
/-- `mul_y0(Mul3, Register, Ax)`. -/
def mulY0Register (op : MulOp) (x a : RegName) : M Unit := mulY0 ops op (.bus x false) a
/-- `mul_y0_r6(Mul3, Ax)`. -/
def mulY0R6 (op : MulOp) (a : RegName) : M Unit := mulY0 ops op (.reg .r6) a
/-- `mul_y0(Mul2, MemImm8, Ax)`. -/
def mulY0MemImm8 (op : MulOp) (x : BitVec 16) (a : RegName) : M Unit :=
  mulY0 ops op (.mem (.imm8 x)) a

/-- `mul(Mul3, Rn, StepZIDS, Imm16, Ax)` (lines 1459–1464). -/
def mulRnImm16 (op : MulOp) (y : RegName) (ys : StepValue) (x : BitVec 16) (a : RegName) :
    M Unit := do
  mov16 ops (.rn y ys) (.reg .y0)
  setRegs (DirectReg.x0.set x)
  mulGeneric op a

/-- `mul(Mul3, R45, StepZIDS, R0123, StepZIDS, Ax)` (lines 1475–1481): both addresses step
    before either word is read. -/
def mulRnRn (op : MulOp) (y : RegName) (ys : StepValue) (x : RegName) (xs : StepValue)
    (a : RegName) : M Unit := do
  let addressY ← rnAddressAndModify (← getRnUnit y) ys false
  let addressX ← rnAddressAndModify (← getRnUnit x) xs false
  setRegs (DirectReg.y0.set (← dataRead addressY))
  setRegs (DirectReg.x0.set (← dataRead addressX))
  mulGeneric op a

/-- `mpyi(Imm8s)` (lines 1491–1494). -/
def mpyi (x : BitVec 16) : M Unit := do
  setRegs (DirectReg.x0.set (SignExtend 8 x))
  doMultiplication 0 true true

/-- `acc = AddSub(GetAcc(a), ProductToBus40(p), sub)`, the accumulation of `msu`, `msusu`,
    `mac_x1to0` and `mac1`. -/
def accumulateProduct (a product : RegName) (sub : Bool) : M Unit := do
  let value ← getAcc a
  let productValue ← productToBus40 product
  let result ← addSub value productValue sub
  setAcc a result false

/-- `msu(R45, StepZIDS, R0123, StepZIDS, Ax)` (lines 1496–1506). -/
def msu (y : RegName) (ys : StepValue) (x : RegName) (xs : StepValue) (a : RegName) :
    M Unit := do
  let yi ← rnAddressAndModify (← getRnUnit y) ys false
  let xi ← rnAddressAndModify (← getRnUnit x) xs false
  accumulateProduct a .p0 true
  setRegs (DirectReg.y0.set (← dataRead yi))
  setRegs (DirectReg.x0.set (← dataRead xi))
  doMultiplication 0 true true

/-- `msu(Rn, StepZIDS, Imm16, Ax)` (lines 1507–1516). -/
def msuImm16 (y : RegName) (ys : StepValue) (x : BitVec 16) (a : RegName) : M Unit := do
  let yi ← rnAddressAndModify (← getRnUnit y) ys false
  accumulateProduct a .p0 true
  setRegs (DirectReg.y0.set (← dataRead yi))
  setRegs (DirectReg.x0.set x)
  doMultiplication 0 true true

/-- `msusu(ArRn2, ArStep2, Ax)` (lines 1517–1525). -/
def msusu (x xs : Fin 4) (a : RegName) : M Unit := do
  let xi ← rnAddressAndModify (getArRnUnit (← regs) x) (← getArStep xs) false
  accumulateProduct a .p0 true
  setRegs (DirectReg.x0.set (← dataRead xi))
  doMultiplication 0 false true

/-- `mac_x1to0(Ax)` (lines 1526–1533). -/
def macX1to0 (a : RegName) : M Unit := do
  accumulateProduct a .p0 false
  setRegs fun r => DirectReg.x0.set (r.x 1) r
  doMultiplication 0 true true

/-- `mac1(ArpRn1, ArpStep1, ArpStep1, Ax)` (lines 1534–1546). -/
def mac1 (xy xis yjs : Fin 4) (a : RegName) : M Unit := do
  let (i, j) ← arpRnPair xy xis yjs
  accumulateProduct a .p1 false
  setRegs (DirectReg.x1.set (← dataRead i))
  setRegs (DirectReg.y1.set (← dataRead j))
  doMultiplication 1 true true

/-! ## Address modification and program memory -/

/-- `modr`, `modr_dmod`, `modr_i2`, `modr_i2_dmod`, `modr_d2` and `modr_d2_dmod`
    (lines 1548–1577): step `r[unit]` and set `fr` when it lands on zero. -/
def modrGeneric (a : RegName) (step : StepValue) (dmod : Bool) : M Unit := do
  let unit ← getRnUnit a
  let _ ← rnAndModify unit step dmod
  setRegs fun r => { r with fr := r.r unit == 0 }

/-- `modr(Rn, StepZIDS)`. -/
def modr (a : RegName) (as : StepValue) : M Unit := modrGeneric a as false
/-- `modr_dmod(Rn, StepZIDS)`. -/
def modrDmod (a : RegName) (as : StepValue) : M Unit := modrGeneric a as true
/-- `modr_i2(Rn)`. -/
def modrI2 (a : RegName) : M Unit := modrGeneric a .Increase2Mode1 false
/-- `modr_i2_dmod(Rn)`. -/
def modrI2Dmod (a : RegName) : M Unit := modrGeneric a .Increase2Mode1 true
/-- `modr_d2(Rn)`. -/
def modrD2 (a : RegName) : M Unit := modrGeneric a .Decrease2Mode1 false
/-- `modr_d2_dmod(Rn)`. -/
def modrD2Dmod (a : RegName) : M Unit := modrGeneric a .Decrease2Mode1 true

/-- `modr_eemod`, `modr_edmod`, `modr_demod` and `modr_ddmod` (lines 1578–1609): step the
    two units of an `ArpRn2` operand, with `dmod` as the name says. -/
def modrArp (dmodi dmodj : Bool) (a asi asj : Fin 4) : M Unit := do
  let u := getArpRnUnit (← regs) a
  let (si, sj) ← getArpStep asi asj
  let _ ← rnAndModify u.1 si dmodi
  let _ ← rnAndModify u.2 sj dmodj

/-- `modr_eemod`. -/
def modrEemod (a asi asj : Fin 4) : M Unit := modrArp false false a asi asj
/-- `modr_edmod`. -/
def modrEdmod (a asi asj : Fin 4) : M Unit := modrArp false true a asi asj
/-- `modr_demod`. -/
def modrDemod (a asi asj : Fin 4) : M Unit := modrArp true false a asi asj
/-- `modr_ddmod`. -/
def modrDdmod (a asi asj : Fin 4) : M Unit := modrArp true true a asi asj

/-- `address | (u32)regs.movpd << 16`. -/
def withMovpd (r : RegisterState) (address : BitVec 16) : BitVec 32 :=
  address.setWidth 32 ||| r.movpd.setWidth 32 <<< 16

/-- `movd(R0123, StepZIDS, R45, StepZIDS)` (lines 1611–1616). -/
def movd (a : RegName) (as : StepValue) (b : RegName) (bs : StepValue) : M Unit := do
  let addressS ← rnAddressAndModify (← getRnUnit a) as false
  let addressD ← rnAddressAndModify (← getRnUnit b) bs false
  let addressD := withMovpd (← regs) addressD
  programWrite addressD (← dataRead addressS)

/-- `movp(Axl, Register)` (lines 1617–1622). -/
def movpAxl (a b : RegName) : M Unit := do
  let address := withMovpd (← regs) (← regToBus16 ops a false)
  let value ← programRead address
  regFromBus16 ops b value

/-- `movp(Ax, Register)` (lines 1623–1627). -/
def movp (a b : RegName) : M Unit := do
  let address := ((← getAcc a) &&& 0x3FFFF).setWidth 32
  let value ← programRead address
  regFromBus16 ops b value

/-- `movp(Rn, StepZIDS, R0123, StepZIDS)` (lines 1628–1633). -/
def movpRn (a : RegName) (as : StepValue) (b : RegName) (bs : StepValue) : M Unit := do
  let addressS ← rnAddressAndModify (← getRnUnit a) as false
  let addressD ← rnAddressAndModify (← getRnUnit b) bs false
  let addressS := withMovpd (← regs) addressS
  dataWrite addressD (← programRead addressS)

/-- `movpdw(Ax)` (lines 1634–1640): jump to the two-word address read from program memory,
    unchecked. -/
def movpdw (a : RegName) : M Unit := do
  let address := ((← getAcc a) &&& 0x3FFFF).setWidth 32
  let h ← programRead address
  let l ← programRead (address + 1)
  setRegs (setPC l h)

/-! ## Exponent, limit and the viterbi registers -/

/-- `SignExtend<32>((u64)w << 16)`: a word as the high half of a 32-bit value. -/
def highWord (w : BitVec 16) : BitVec 64 := SignExtend 32 (w.setWidth 64 <<< 16)

/-- `regs.sv = Exp(value)`. -/
def setSvExp (value : BitVec 64) : M Unit := setRegs fun r => { r with sv := exp value }

/-- `ExpStore` (lines 2351–2353). -/
def expStore (b : RegName) : M Unit := do
  setAccSimple b (SignExtend 16 ((← regs).sv.setWidth 64))

/-- `exp(Bx)` (lines 2355–2358). -/
def expBx (a : RegName) : M Unit := do setSvExp (← getAcc a)
/-- `exp(Bx, Ax)` (lines 2359–2362). -/
def expBxAx (a b : RegName) : M Unit := do
  expBx a
  expStore b

/-- `exp(Rn, StepZIDS)` (lines 2363–2367). -/
def expRn (a : RegName) (as : StepValue) : M Unit := do
  let address ← rnAddressAndModify (← getRnUnit a) as false
  setSvExp (highWord (← dataRead address))
/-- `exp(Rn, StepZIDS, Ax)` (lines 2368–2371). -/
def expRnAx (a : RegName) (as : StepValue) (b : RegName) : M Unit := do
  expRn a as
  expStore b

/-- `exp(Register)` (lines 2372–2381). -/
def expRegister (a : RegName) : M Unit := do
  let value ← (if a == .a0 || a == .a1 then getAcc a
    else do return highWord (← regToBus16 ops a false))
  setSvExp value
/-- `exp(Register, Ax)` (lines 2382–2385). -/
def expRegisterAx (a b : RegName) : M Unit := do
  expRegister ops a
  expStore b

/-- `exp_r6()` (lines 2386–2389). -/
def expR6 : M Unit := do setSvExp (highWord (← regToBus16 ops .r6 false))
/-- `exp_r6(Ax)` (lines 2390–2393). -/
def expR6Ax (b : RegName) : M Unit := do
  expR6 ops
  expStore b

/-- `lim(Ax, Ax)` (lines 2395–2399). -/
def lim (a b : RegName) : M Unit := do
  let value ← getAcc a
  let value ← saturateAccUnconditional value
  setAccNoSaturation b value

/-- `vtrclr0`, `vtrclr1` and `vtrclr` (lines 2401–2410): clear `vtr[0]` if `c0` and `vtr[1]`
    if `c1`. -/
def vtrclrGeneric (c0 c1 : Bool) : M Unit :=
  setRegs fun r => { r with vtr := fun i => if (i = 0 ∧ c0) ∨ (i = 1 ∧ c1) then 0 else r.vtr i }

/-- `vtrclr0`. -/
def vtrclr0 : M Unit := vtrclrGeneric true false
/-- `vtrclr1`. -/
def vtrclr1 : M Unit := vtrclrGeneric false true
/-- `vtrclr`. -/
def vtrclr : M Unit := vtrclrGeneric true true

/-- `vtrmov0(Axl)`, `vtrmov1(Axl)` and `vtrmov(Axl)` (lines 2411–2419): a word built from the
    `vtr` registers, through `SetAcc`. -/
def vtrmovGeneric (a : RegName) (word : RegisterState → BitVec 16) : M Unit := do
  setAcc a ((word (← regs)).setWidth 64) false

/-- `vtrmov0`. -/
def vtrmov0 (a : RegName) : M Unit := vtrmovGeneric a fun r => r.vtr 0
/-- `vtrmov1`. -/
def vtrmov1 (a : RegName) : M Unit := vtrmovGeneric a fun r => r.vtr 1
/-- `vtrmov`. -/
def vtrmov (a : RegName) : M Unit :=
  vtrmovGeneric a fun r => (r.vtr 1 &&& 0xFF00) ||| r.vtr 0 >>> 8

/-- The shift of `vtrshr` (lines 2420–2424): each `vtr` register takes in its `fc` bit. -/
def vtrshrRegs (r : RegisterState) : RegisterState :=
  { r with vtr := fun i => r.vtr i >>> 1 ||| (if r.fc i then 1 else 0) <<< 15 }

/-- `vtrshr`. -/
def vtrshr : M Unit := setRegs vtrshrRegs

/-- `clrp0`, `clrp1` and `clrp` (lines 2426–2435). -/
def clrp0 : M Unit := productFromBus32 .p0 0
/-- `clrp1`. -/
def clrp1 : M Unit := productFromBus32 .p1 0
/-- `clrp`. -/
def clrp : M Unit := do
  productFromBus32 .p0 0
  productFromBus32 .p1 0

/-! ## Maximum and minimum -/

/-- The four comparisons of the `max`/`min` family. -/
inductive MinMaxOp
  | maxGe | maxGt | minLe | minLt
  deriving DecidableEq, Repr

/-- Whether `v` is taken, on `d = v - u` (lines 2442, 2456, 2470, 2484). -/
def MinMaxOp.pass : MinMaxOp → BitVec 64 → Bool
  | .maxGe, d => (d >>> 63) &&& 1 == 0
  | .maxGt, d => (d >>> 63) &&& 1 == 0 && d != 0
  | .minLe, d => (d >>> 63) &&& 1 == 1 || d == 0
  | .minLt, d => (d >>> 63) &&& 1 == 1

/-- The common tail of the family: take `v`, record `r0` in `mixp` and set `fm`, or clear
    `fm`. -/
def minMaxSelect (op : MinMaxOp) (a : RegName) (u v : BitVec 64) (r0 : BitVec 16) : M Unit :=
  if op.pass (v - u) then do
    setRegs fun r => { r with fm := true, mixp := r0 }
    setAccSimple a v
  else setRegs fun r => { r with fm := false }

/-- `max_ge`, `max_gt`, `min_le` and `min_lt` (lines 2437–2488): against the counter
    accumulator. -/
def minMax (op : MinMaxOp) (a : RegName) (bs : StepValue) : M Unit := do
  let u ← getAcc a
  let v ← getAcc (← counterAcc a)
  let r0 ← rnAndModify 0 bs false
  minMaxSelect op a u v r0

/-- `max_ge_r0`, `max_gt_r0`, `min_le_r0` and `min_lt_r0` (lines 2490–2541): against the word
    `r0` addresses. -/
def minMaxR0 (op : MinMaxOp) (a : RegName) (bs : StepValue) : M Unit := do
  let u ← getAcc a
  let r0 ← rnAndModify 0 bs false
  let v := SignExtend 16 ((← dataRead (rnAddress (← regs) 0 r0)).setWidth 64)
  minMaxSelect op a u v r0

/-- `max_ge`. -/
def maxGe (a : RegName) (bs : StepValue) : M Unit := minMax .maxGe a bs
/-- `max_gt`. -/
def maxGt (a : RegName) (bs : StepValue) : M Unit := minMax .maxGt a bs
/-- `min_le`. -/
def minLe (a : RegName) (bs : StepValue) : M Unit := minMax .minLe a bs
/-- `min_lt`. -/
def minLt (a : RegName) (bs : StepValue) : M Unit := minMax .minLt a bs
/-- `max_ge_r0`. -/
def maxGeR0 (a : RegName) (bs : StepValue) : M Unit := minMaxR0 .maxGe a bs
/-- `max_gt_r0`. -/
def maxGtR0 (a : RegName) (bs : StepValue) : M Unit := minMaxR0 .maxGt a bs
/-- `min_le_r0`. -/
def minLeR0 (a : RegName) (bs : StepValue) : M Unit := minMaxR0 .minLe a bs
/-- `min_lt_r0`. -/
def minLtR0 (a : RegName) (bs : StepValue) : M Unit := minMaxR0 .minLt a bs

/-! ## Division, squares and comparisons -/

/-- `divs(MemImm8, Ax)` (lines 2543–2552): one step of the conditional-subtract division. -/
def divs (a : BitVec 16) (b : RegName) : M Unit := do
  let da ← loadFromMemory (.imm8 a)
  let db ← getAcc b
  let value := db - da.setWidth 64 <<< 15
  if value >>> 63 != 0 then setAccNoSaturation b (SignExtend 40 (db <<< 1))
  else setAccNoSaturation b (SignExtend 40 ((value <<< 1) + 1))

/-- `x[0] = y[0] = h; x[1] = y[1] = l` then both multiplications, signed. -/
def squareHalves (h l : BitVec 16) : M Unit := do
  setRegs fun r => { r with x := fun i => if i = 0 then h else l, y := fun i => if i = 0 then h else l }
  doMultiplication 0 true true
  doMultiplication 1 true true

/-- `sqr_sqr_add3(Ab, Ab)` (lines 2554–2561). -/
def sqrSqrAdd3 (a b : RegName) : M Unit := do
  let value ← getAcc a
  productSum .Acc b pAdd pAdd
  squareHalves (((value >>> 16) &&& 0xFFFF).setWidth 16) ((value &&& 0xFFFF).setWidth 16)

/-- `sqr_sqr_add3(ArRn2, ArStep2, Ab)` (lines 2563–2572). -/
def sqrSqrAdd3ArRn (a as : Fin 4) (b : RegName) : M Unit := do
  productSum .Acc b pAdd pAdd
  let (address0, address1) ← arRnPair a as
  let h ← dataRead address0
  let l ← dataRead address1
  squareHalves h l

/-- `sqr_mpysu_add3a(Ab, Ab)` (lines 2574–2581). -/
def sqrMpysuAdd3a (a b : RegName) : M Unit := do
  let value ← getAcc a
  productSum .Acc b pAdd pAdda
  let h := ((value >>> 16) &&& 0xFFFF).setWidth 16
  let l := (value &&& 0xFFFF).setWidth 16
  setRegs fun r => { r with x := fun i => if i = 0 then h else l, y := fun _ => h }
  doMultiplication 0 true true
  doMultiplication 1 false true

/-- `cmp(Ax, Bx)`, `cmp(Bx, Ax)`, `cmp_b0_b1` and `cmp_b1_b0` (lines 2583–2602): the flags of
    `b - a`. -/
def cmp (a b : RegName) : M Unit := do
  let va ← getAcc a
  let vb ← getAcc b
  setAccFlag (← addSub vb va true)

/-- `cmp_b0_b1`. -/
def cmpB0B1 : M Unit := cmp .b0 .b1
/-- `cmp_b1_b0`. -/
def cmpB1B0 : M Unit := cmp .b1 .b0

/-- `cmp_p1_to(Ax)` (lines 2603–2607). -/
def cmpP1To (b : RegName) : M Unit := do
  let va ← productToBus40 .p1
  let vb ← getAcc b
  setAccFlag (← addSub vb va true)

/-! ## The viterbi compare-select -/

/-- The word `MinMaxVtr` stores: the selected 24-bit high half above the selected low half
    (line 2620). -/
def minMaxVtrWord (wh wl : BitVec 64) : BitVec 64 := wh <<< 16 ||| (wl &&& 0xFFFF)

/-- `MinMaxVtr` (lines 2609–2623): per half, keep the larger (`min` false) or smaller of the
    two accumulators, record the choices in `fc`, and shift them into `vtr`. -/
def minMaxVtr (a b : RegName) (min : Bool) : M Unit := do
  let u ← getAcc a
  let v ← getAcc b
  let uh := SignExtend 24 (u >>> 16)
  let ul := SignExtend 16 (u &&& 0xFFFF)
  let vh := SignExtend 24 (v >>> 16)
  let vl := SignExtend 16 (v &&& 0xFFFF)
  let wh : BitVec 64 := if min then uh - vh else vh - uh
  let wl : BitVec 64 := if min then ul - vl else vl - ul
  let fc0 := wh >>> 63 == 0
  let fc1 := wl >>> 63 == 0
  setRegs fun r => { r with fc := fun i => if i = 0 then fc0 else fc1 }
  setAccSimple a (minMaxVtrWord (if fc0 then vh else uh) (if fc1 then vl else ul))
  vtrshr

/-- `max2_vtr(Ax)` and `min2_vtr(Ax)` (lines 2625–2630). -/
def minMax2Vtr (min : Bool) (a : RegName) : M Unit := do minMaxVtr a (← counterAcc a) min
/-- `max2_vtr(Ax, Bx)` and `min2_vtr(Ax, Bx)` (lines 2631–2636). -/
def minMax2VtrBx (min : Bool) (a b : RegName) : M Unit := minMaxVtr a b min

/-- `max2_vtr(Ax)`. -/
def max2Vtr (a : RegName) : M Unit := minMax2Vtr false a
/-- `min2_vtr(Ax)`. -/
def min2Vtr (a : RegName) : M Unit := minMax2Vtr true a
/-- `max2_vtr(Ax, Bx)`. -/
def max2VtrBx (a b : RegName) : M Unit := minMax2VtrBx false a b
/-- `min2_vtr(Ax, Bx)`. -/
def min2VtrBx (a b : RegName) : M Unit := minMax2VtrBx true a b

/-- The half of the counter accumulator the `_movl`/`_movh`/`_movij`/`_movji` variants store. -/
def counterHalves (a : RegName) : M (BitVec 16 × BitVec 16) := do
  let value ← saturateAccNoFlag (← getAcc (← counterAcc a)) false
  return (((value >>> 16) &&& 0xFFFF).setWidth 16, (value &&& 0xFFFF).setWidth 16)

/-- `max2_vtr_movl`, `max2_vtr_movh`, `min2_vtr_movl` and `min2_vtr_movh`, each for `(Ax, Bx)`
    and `(Bx, Ax)` (lines 2651–2706): after `MinMaxVtr`, one half of the counter accumulator to
    the stepped `ArRn1` address. -/
def minMax2VtrMov (min high : Bool) (a b : RegName) (c cs : Fin 4) : M Unit := do
  minMaxVtr a b min
  let (h, l) ← counterHalves a
  let address ← rnAddressAndModify (getArRnUnit (← regs) c) (← getArStep cs) false
  dataWrite address (if high then h else l)

/-- `max2_vtr_movl`. -/
def max2VtrMovl (a b : RegName) (c cs : Fin 4) : M Unit := minMax2VtrMov false false a b c cs
/-- `max2_vtr_movh`. -/
def max2VtrMovh (a b : RegName) (c cs : Fin 4) : M Unit := minMax2VtrMov false true a b c cs
/-- `min2_vtr_movl`. -/
def min2VtrMovl (a b : RegName) (c cs : Fin 4) : M Unit := minMax2VtrMov true false a b c cs
/-- `min2_vtr_movh`. -/
def min2VtrMovh (a b : RegName) (c cs : Fin 4) : M Unit := minMax2VtrMov true true a b c cs

/-- `max2_vtr_movij`, `max2_vtr_movji`, `min2_vtr_movij` and `min2_vtr_movji` (lines
    2705–2752): after `MinMaxVtr`, both halves of the counter accumulator to the two `ArpRn1`
    addresses, high half first at `i` (`ij`) or at `j`. -/
def minMax2VtrMovIJ (min ij : Bool) (a b : RegName) (c csi csj : Fin 4) : M Unit := do
  minMaxVtr a b min
  let (h, l) ← counterHalves a
  let (i, j) ← arpRnPair c csi csj
  dataWrite i (if ij then h else l)
  dataWrite j (if ij then l else h)

/-- `max2_vtr_movij`. -/
def max2VtrMovij (a b : RegName) (c csi csj : Fin 4) : M Unit :=
  minMax2VtrMovIJ false true a b c csi csj
/-- `max2_vtr_movji`. -/
def max2VtrMovji (a b : RegName) (c csi csj : Fin 4) : M Unit :=
  minMax2VtrMovIJ false false a b c csi csj
/-- `min2_vtr_movij`. -/
def min2VtrMovij (a b : RegName) (c csi csj : Fin 4) : M Unit :=
  minMax2VtrMovIJ true true a b c csi csj
/-- `min2_vtr_movji`. -/
def min2VtrMovji (a b : RegName) (c csi csj : Fin 4) : M Unit :=
  minMax2VtrMovIJ true false a b c csi csj

/-! ## Product sums with `sv` -/

/-- An `ArStep1` or an `ArStep1Alt` operand. -/
inductive ArStep1Operand
  | step (i : Fin 4)
  | alt (i : Fin 2)

/-- `GetArStep` or `GetArStepAlt`. -/
def ArStep1Operand.get : ArStep1Operand → M StepValue
  | .step i => getArStep i
  | .alt i => getArStepAlt i

/-- `mov_addsubsv`, `mov_addsubrndsv`, `mov_sub3sv` and `mov_sub3rndsv`, each for `ArStep1`
    and `ArStep1Alt` (lines 2746–2777): `sv` from memory, then `ProductSum`. -/
def movSvSum (a : Fin 4) (as : ArStep1Operand) (base : SumBase) (p0 p1 : ProductSumConfig)
    (b : RegName) : M Unit := do
  let address ← rnAddressAndModify (getArRnUnit (← regs) a) (← as.get) false
  setRegs (DirectReg.sv.set (← dataRead address))
  productSum base b p0 p1

/-- `mov_addsubsv`. -/
def movAddsubsv (a : Fin 4) (as : ArStep1Operand) (b : RegName) : M Unit :=
  movSvSum a as .Sv pSub pAdd b
/-- `mov_addsubrndsv`. -/
def movAddsubrndsv (a : Fin 4) (as : ArStep1Operand) (b : RegName) : M Unit :=
  movSvSum a as .SvRnd pSub pAdd b
/-- `mov_sub3sv`. -/
def movSub3sv (a : Fin 4) (as : ArStep1Operand) (b : RegName) : M Unit :=
  movSvSum a as .Sv pSub pSub b
/-- `mov_sub3rndsv`. -/
def movSub3rndsv (a : Fin 4) (as : ArStep1Operand) (b : RegName) : M Unit :=
  movSvSum a as .SvRnd pSub pSub b

/-! ## `cbs` -/

/-- `CbsCondValue`. -/
inductive CbsCondValue
  | Ge | Gt
  deriving DecidableEq, Repr

/-- The condition of `Cbs` on `diff = p0 - p1`; the `switch` covers every `CbsCondValue`. -/
def CbsCondValue.pass : CbsCondValue → BitVec 64 → Bool
  | .Ge, diff => diff >>> 63 == 0
  | .Gt, diff => diff >>> 63 == 0 && diff != 0

/-- `Cbs` (lines 2775–2801). -/
def cbsGeneric (u v r : BitVec 16) (c : CbsCondValue) : M Unit := do
  let x0 := (← regs).x 0
  setRegs (DirectReg.x0.set u)
  let diff := (← productToBus40 .p0) - (← productToBus40 .p1)
  setRegs (DirectReg.y0.set u)
  doMultiplication 0 true true
  let y0 := (((← productToBus40 .p0) >>> 16) &&& 0xFFFF).setWidth 16
  setRegs fun r => DirectReg.x0.set x0 (DirectReg.y0.set y0 r)
  if c.pass diff then
    setRegs fun s => DirectReg.x1.set (s.y 0) (DirectReg.x0.set (s.y 1) { s with mixp := r })
  setRegs (DirectReg.y1.set v)
  doMultiplication 0 true true
  doMultiplication 1 true true

/-- `cbs(Axh, CbsCond)` (lines 2803–2808). -/
def cbs (a : RegName) (c : CbsCondValue) : M Unit := do
  let u := (((← getAcc a) >>> 16) &&& 0xFFFF).setWidth 16
  let v := (((← getAcc (← counterAcc a)) >>> 16) &&& 0xFFFF).setWidth 16
  cbsGeneric u v ((← regs).r 0) c

/-- `cbs(Axh, Bxh, CbsCond)` (lines 2809–2814). -/
def cbsBxh (a b : RegName) (c : CbsCondValue) : M Unit := do
  let u := (((← getAcc a) >>> 16) &&& 0xFFFF).setWidth 16
  let v := (((← getAcc b) >>> 16) &&& 0xFFFF).setWidth 16
  cbsGeneric u v ((← regs).r 0) c

/-- `cbs(ArpRn1, ArpStep1, ArpStep1, CbsCond)` (lines 2815–2825). -/
def cbsArp (a asi asj : Fin 4) (c : CbsCondValue) : M Unit := do
  let units := getArpRnUnit (← regs) a
  let (si, sj) ← getArpStep asi asj
  let aip ← rnAndModify units.1 si false
  let ai := rnAddress (← regs) units.1 aip
  let aj ← rnAddressAndModify units.2 sj false
  let u ← dataRead ai
  let v ← dataRead aj
  cbsGeneric u v aip c

/-! ## The `mma` family -/

/-- The constants the decoder passes to an `mma` template. -/
structure MmaConfig where
  x0Sign : Bool
  y0Sign : Bool
  x1Sign : Bool
  y1Sign : Bool
  base : SumBase
  p0 : ProductSumConfig
  p1 : ProductSumConfig

/-- The two multiplications that end every `mma`. -/
def mmaMultiply (cfg : MmaConfig) : M Unit := do
  doMultiplication 0 cfg.x0Sign cfg.y0Sign
  doMultiplication 1 cfg.x1Sign cfg.y1Sign

/-- `std::swap(regs.x[0], regs.x[1])`. -/
def swapX (r : RegisterState) : RegisterState := { r with x := fun i => r.x (1 - i) }

/-- `mma(RegName, ...)` (lines 2836–2842). -/
def mma (a : RegName) (cfg : MmaConfig) : M Unit := do
  productSum cfg.base a cfg.p0 cfg.p1
  setRegs swapX
  mmaMultiply cfg

/-- `mma(ArpRnX, ArpStepX, ArpStepX, dmodi, dmodj, RegName, ...)` (lines 2836–2853). -/
def mmaArp (xy i j : Fin 4) (dmodi dmodj : Bool) (a : RegName) (cfg : MmaConfig) : M Unit := do
  productSum cfg.base a cfg.p0 cfg.p1
  let u := getArpRnUnit (← regs) xy
  let (si, sj) ← getArpStep i j
  let o := getArpOffset (← regs) i j
  let x ← rnAddressAndModify u.1 si dmodi
  let y ← rnAddressAndModify u.2 sj dmodj
  setRegs (DirectReg.x0.set (← dataRead x))
  setRegs (DirectReg.y0.set (← dataRead y))
  setRegs (DirectReg.x1.set (← dataRead (offsetAddress (← regs) u.1 x o.1 dmodi)))
  setRegs (DirectReg.y1.set (← dataRead (offsetAddress (← regs) u.2 y o.2 dmodj)))
  mmaMultiply cfg

/-- `mma_mx_xy` and `mma_xy_mx` (lines 2853–2861, 2863–2871): swap `x`, then `y[0]` (`d = y0`) or `y[1]`
    from the stepped `ArRn1` address. -/
def mmaSwapLoad (d : DirectReg) (y ys : Fin 4) (a : RegName) (cfg : MmaConfig) : M Unit := do
  productSum cfg.base a cfg.p0 cfg.p1
  setRegs swapX
  mov16 ops (.arRn y ys) (.reg d)
  mmaMultiply cfg

/-- `mma_mx_xy`. -/
def mmaMxXy (y ys : Fin 4) (a : RegName) (cfg : MmaConfig) : M Unit := mmaSwapLoad ops .y0 y ys a cfg
/-- `mma_xy_mx`. -/
def mmaXyMx (y ys : Fin 4) (a : RegName) (cfg : MmaConfig) : M Unit := mmaSwapLoad ops .y1 y ys a cfg

/-- `mma_my_my` (lines 2873–2883). -/
def mmaMyMy (x xs : Fin 4) (a : RegName) (cfg : MmaConfig) : M Unit := do
  productSum cfg.base a cfg.p0 cfg.p1
  let (address, address2) ← arRnPair x xs
  setRegs (DirectReg.x0.set (← dataRead address))
  setRegs (DirectReg.x1.set (← dataRead address2))
  mmaMultiply cfg

/-- The common part of the two `mma_mov`: store the two halves, offset first, then `mma`. -/
def mmaMovTail (address address2 uValue vValue : BitVec 16) (a : RegName) (cfg : MmaConfig) :
    M Unit := do
  dataWrite address2 vValue
  dataWrite address uValue
  mma a cfg

/-- `mma_mov(Axh, Bxh, ArRn1, ArStep1, ...)` (lines 2901–2915). -/
def mmaMov (u v : RegName) (w ws : Fin 4) (a : RegName) (cfg : MmaConfig) : M Unit := do
  let (address, address2) ← arRnPair w ws
  let uValue ← accHighNoFlag u
  let vValue ← accHighNoFlag v
  mmaMovTail address address2 uValue vValue a cfg

/-- `mma_mov(ArRn2, ArStep1, ...)` (lines 2901–2915): the halves of `a` and its counter. -/
def mmaMovCounter (w ws : Fin 4) (a : RegName) (cfg : MmaConfig) : M Unit := do
  let (address, address2) ← arRnPair w ws
  let uValue ← accHighNoFlag a
  let vValue ← accHighNoFlag (← counterAcc a)
  mmaMovTail address address2 uValue vValue a cfg

/-- `addhp(ArRn2, ArStep2, Px, Ax)` (lines 2917–2923). -/
def addhp (a as : Fin 4) (b c : RegName) : M Unit := do
  let address ← rnAddressAndModify (getArRnUnit (← regs) a) (← getArStep as) false
  let value := SignExtend 32 ((← dataRead address).setWidth 64 <<< 16 ||| 0x8000)
  let product ← productToBus40 b
  let result ← addSub value product false
  setAcc c result false

/-- `mov_ext0(Imm8s)` (lines 2925–2927). -/
def movExt0 (_a : BitVec 16) : M Unit := unimplemented
/-- `mov_ext1(Imm8s)` (lines 2928–2930). -/
def movExt1 (_a : BitVec 16) : M Unit := unimplemented
/-- `mov_ext2(Imm8s)` (lines 2931–2933). -/
def movExt2 (_a : BitVec 16) : M Unit := unimplemented
/-- `mov_ext3(Imm8s)` (lines 2934–2936). -/
def movExt3 (_a : BitVec 16) : M Unit := unimplemented

/-! ## The handlers keep every sound footprint -/

/-- The word of `MinMaxVtr` is canonical whichever halves are selected. -/
theorem canon_minMaxVtrWord (c d : Bool) (x y z w : BitVec 64) :
    Canon (minMaxVtrWord (if c then SignExtend 24 x else SignExtend 24 y)
      (if d then z else w)) := by
  have hh : Fits 23 (if c then SignExtend 24 x else SignExtend 24 y) := by
    cases c
    · exact fits_SignExtend y (by decide) (by decide)
    · exact fits_SignExtend x (by decide) (by decide)
  exact ((hh.shiftLeft_16 (by decide)).canon (by decide)).or (canon_and_of_toNat_lt _ (by decide))

section Keeps

variable {ops} {F : Footprint} (hF : Sound ops F)
include hF

namespace Sound

theorem accumulateProduct (a product : RegName) (sub : Bool) :
    F.Keeps (accumulateProduct a product sub) fun _ => True :=
  .seq (hF.getAcc a) fun _ => .seq (hF.productToBus40 product) fun _ =>
    .bind (hF.addSub _ _ _) fun _ h => hF.setAcc a h false

theorem modrGeneric (a : RegName) (step : StepValue) (dmod : Bool) :
    F.Keeps (modrGeneric a step dmod) fun _ => True :=
  .seq (hF.getRnUnit a) fun _ => .seq (hF.rnAndModify _ _ _) fun _ =>
    hF.setRegs fun _ => ⟨rfl, rfl, rfl⟩

theorem setSvExp (v : BitVec 64) : F.Keeps (setSvExp v) fun _ => True :=
  hF.setRegs fun _ => ⟨rfl, rfl, rfl⟩

theorem expStore (b : RegName) : F.Keeps (expStore b) fun _ => True :=
  .seq hF.regs fun _ => hF.setAccSimple b (Footprint.val_SignExtend _ (by decide) (by decide))

theorem expRn (a : RegName) (as : StepValue) : F.Keeps (expRn a as) fun _ => True :=
  .seq (hF.getRnUnit a) fun _ => .seq (hF.rnAddressAndModify _ _ _) fun _ =>
    .seq (.dataRead _) fun _ => hF.setSvExp _

theorem expRegister (a : RegName) : F.Keeps (expRegister ops a) fun _ => True :=
  .seq (.ite (fun _ => (hF.getAcc a).weaken fun _ _ => trivial) fun _ =>
    .seq (hF.regToBus16 _ _) fun _ => .triv) fun _ => hF.setSvExp _

theorem expR6 : F.Keeps (expR6 ops) fun _ => True :=
  .seq (hF.regToBus16 _ _) fun _ => hF.setSvExp _

theorem minMaxSelect (op : MinMaxOp) (a : RegName) {u v : BitVec 64} (hv : F.Val v)
    (r0 : BitVec 16) : F.Keeps (minMaxSelect op a u v r0) fun _ => True :=
  .ite (fun _ => .seq (hF.setRegs fun _ => ⟨rfl, rfl, rfl⟩) fun _ => hF.setAccSimple a hv)
    fun _ => hF.setRegs fun _ => ⟨rfl, rfl, rfl⟩

theorem minMax (op : MinMaxOp) (a : RegName) (bs : StepValue) :
    F.Keeps (minMax op a bs) fun _ => True :=
  .seq (hF.getAcc a) fun _ => .seq (hF.counterAcc a) fun _ => .bind (hF.getAcc _) fun _ hv =>
    .seq (hF.rnAndModify _ _ _) fun _ => hF.minMaxSelect op a hv _

theorem minMaxR0 (op : MinMaxOp) (a : RegName) (bs : StepValue) :
    F.Keeps (minMaxR0 op a bs) fun _ => True :=
  .seq (hF.getAcc a) fun _ => .seq (hF.rnAndModify _ _ _) fun _ => .seq hF.regs fun _ =>
    .seq (.dataRead _) fun _ =>
      hF.minMaxSelect op a (Footprint.val_SignExtend _ (by decide) (by decide)) _

theorem squareHalves (h l : BitVec 16) : F.Keeps (squareHalves h l) fun _ => True :=
  .seq (hF.setRegs fun _ => ⟨rfl, rfl, rfl⟩) fun _ => .seq (hF.doMultiplication _ _ _) fun _ =>
    hF.doMultiplication _ _ _

theorem cmp (a b : RegName) : F.Keeps (cmp a b) fun _ => True :=
  .seq (hF.getAcc a) fun _ => .seq (hF.getAcc b) fun _ =>
    .bind (hF.addSub _ _ _) fun _ h => hF.setAccFlag h

theorem vtrshr : F.Keeps vtrshr fun _ => True := hF.setRegs fun _ => ⟨rfl, rfl, rfl⟩

/-- `MinMaxVtr` stores a canonical word. -/
theorem minMaxVtr (a b : RegName) (min : Bool) : F.Keeps (minMaxVtr a b min) fun _ => True := by
  unfold Teakra.minMaxVtr
  exact .seq (hF.getAcc a) fun _ => .seq (hF.getAcc b) fun _ =>
    .seq (hF.setRegs fun _ => ⟨rfl, rfl, rfl⟩) fun _ =>
    .seq (hF.setAccSimple a (.of_canon (canon_minMaxVtrWord _ _ _ _ _ _))) fun _ => hF.vtrshr

theorem counterHalves (a : RegName) : F.Keeps (counterHalves a) fun _ => True :=
  .seq (hF.counterAcc a) fun _ => .bind (hF.getAcc _) fun _ h =>
    .seq (hF.saturateAccNoFlag h false) fun _ => .triv

theorem movSvSum (a : Fin 4) (as : ArStep1Operand) (base : SumBase) (p0 p1 : ProductSumConfig)
    (b : RegName) : F.Keeps (movSvSum a as base p0 p1 b) fun _ => True := by
  refine .seq hF.regs fun _ => .seq (?_ : F.Keeps _ fun _ => True) fun _ =>
    .seq (hF.rnAddressAndModify _ _ _) fun _ => .seq (.dataRead _) fun _ =>
    .seq (hF.setRegs (DirectReg.frames_set _ _)) fun _ => hF.productSum _ _ _ _
  cases as
  · exact hF.getArStep _
  · exact hF.getArStepAlt _

theorem cbsGeneric (u v r : BitVec 16) (c : CbsCondValue) :
    F.Keeps (cbsGeneric u v r c) fun _ => True :=
  .seq hF.regs fun _ => .seq (hF.setRegs (DirectReg.frames_set _ _)) fun _ =>
    .seq (hF.productToBus40 _) fun _ => .seq (hF.productToBus40 _) fun _ =>
    .seq (hF.setRegs (DirectReg.frames_set _ _)) fun _ => .seq (hF.doMultiplication _ _ _) fun _ =>
    .seq (hF.productToBus40 _) fun _ => .seq (hF.setRegs fun _ => ⟨rfl, rfl, rfl⟩) fun _ =>
    .when (fun _ => hF.setRegs fun _ => ⟨rfl, rfl, rfl⟩) <|
    .seq (hF.setRegs (DirectReg.frames_set _ _)) fun _ => .seq (hF.doMultiplication _ _ _) fun _ =>
    hF.doMultiplication _ _ _

theorem mmaMultiply (cfg : MmaConfig) : F.Keeps (mmaMultiply cfg) fun _ => True :=
  .seq (hF.doMultiplication _ _ _) fun _ => hF.doMultiplication _ _ _

theorem mma (a : RegName) (cfg : MmaConfig) : F.Keeps (mma a cfg) fun _ => True :=
  .seq (hF.productSum _ _ _ _) fun _ => .seq (hF.setRegs fun _ => ⟨rfl, rfl, rfl⟩) fun _ =>
    hF.mmaMultiply cfg

theorem mmaArp (xy i j : Fin 4) (dmodi dmodj : Bool) (a : RegName) (cfg : MmaConfig) :
    F.Keeps (mmaArp xy i j dmodi dmodj a cfg) fun _ => True :=
  .seq (hF.productSum _ _ _ _) fun _ => .seq hF.regs fun _ =>
    .seq (hF.getArpStep _ _) fun ⟨_, _⟩ => .seq hF.regs fun _ =>
    .seq (hF.rnAddressAndModify _ _ _) fun _ => .seq (hF.rnAddressAndModify _ _ _) fun _ =>
    .seq (.dataRead _) fun _ => .seq (hF.setRegs (DirectReg.frames_set _ _)) fun _ =>
    .seq (.dataRead _) fun _ => .seq (hF.setRegs (DirectReg.frames_set _ _)) fun _ =>
    .seq hF.regs fun _ => .seq (.dataRead _) fun _ =>
    .seq (hF.setRegs (DirectReg.frames_set _ _)) fun _ => .seq hF.regs fun _ =>
    .seq (.dataRead _) fun _ => .seq (hF.setRegs (DirectReg.frames_set _ _)) fun _ =>
    hF.mmaMultiply cfg

theorem mmaMovTail (address address2 uValue vValue : BitVec 16) (a : RegName)
    (cfg : MmaConfig) : F.Keeps (mmaMovTail address address2 uValue vValue a cfg) fun _ => True :=
  .seq (hF.dataWrite _ _) fun _ => .seq (hF.dataWrite _ _) fun _ => hF.mma a cfg

end Sound

end Keeps

/-! ## The handlers of this module -/

/-- The handlers of lines 1457–1639 and 2351–2961, with all their operands. -/
inductive MulHandler : M Unit → Prop
  | mulY0 (op : MulOp) (x : Src16) (a : RegName) : MulHandler (mulY0 ops op x a)
  | mulRnImm16 (op : MulOp) (y : RegName) (ys : StepValue) (x : BitVec 16) (a : RegName) :
      MulHandler (mulRnImm16 ops op y ys x a)
  | mulRnRn (op : MulOp) (y : RegName) (ys : StepValue) (x : RegName) (xs : StepValue)
      (a : RegName) : MulHandler (mulRnRn op y ys x xs a)
  | mpyi (x : BitVec 16) : MulHandler (mpyi x)
  | msu (y : RegName) (ys : StepValue) (x : RegName) (xs : StepValue) (a : RegName) :
      MulHandler (msu y ys x xs a)
  | msuImm16 (y : RegName) (ys : StepValue) (x : BitVec 16) (a : RegName) :
      MulHandler (msuImm16 y ys x a)
  | msusu (x xs : Fin 4) (a : RegName) : MulHandler (msusu x xs a)
  | macX1to0 (a : RegName) : MulHandler (macX1to0 a)
  | mac1 (xy xis yjs : Fin 4) (a : RegName) : MulHandler (mac1 xy xis yjs a)
  | modrGeneric (a : RegName) (step : StepValue) (dmod : Bool) :
      MulHandler (modrGeneric a step dmod)
  | modrArp (dmodi dmodj : Bool) (a asi asj : Fin 4) : MulHandler (modrArp dmodi dmodj a asi asj)
  | movd (a : RegName) (as : StepValue) (b : RegName) (bs : StepValue) :
      MulHandler (movd a as b bs)
  | movpAxl (a b : RegName) : MulHandler (movpAxl ops a b)
  | movp (a b : RegName) : MulHandler (movp ops a b)
  | movpRn (a : RegName) (as : StepValue) (b : RegName) (bs : StepValue) :
      MulHandler (movpRn a as b bs)
  | movpdw (a : RegName) : MulHandler (movpdw a)
  | expBx (a : RegName) : MulHandler (expBx a)
  | expBxAx (a b : RegName) : MulHandler (expBxAx a b)
  | expRn (a : RegName) (as : StepValue) : MulHandler (expRn a as)
  | expRnAx (a : RegName) (as : StepValue) (b : RegName) : MulHandler (expRnAx a as b)
  | expRegister (a : RegName) : MulHandler (expRegister ops a)
  | expRegisterAx (a b : RegName) : MulHandler (expRegisterAx ops a b)
  | expR6 : MulHandler (expR6 ops)
  | expR6Ax (b : RegName) : MulHandler (expR6Ax ops b)
  | lim (a b : RegName) : MulHandler (lim a b)
  | vtrclrGeneric (c0 c1 : Bool) : MulHandler (vtrclrGeneric c0 c1)
  | vtrmovGeneric (a : RegName) (word : RegisterState → BitVec 16) :
      MulHandler (vtrmovGeneric a word)
  | vtrshr : MulHandler vtrshr
  | clrp0 : MulHandler clrp0
  | clrp1 : MulHandler clrp1
  | clrp : MulHandler clrp
  | minMax (op : MinMaxOp) (a : RegName) (bs : StepValue) : MulHandler (minMax op a bs)
  | minMaxR0 (op : MinMaxOp) (a : RegName) (bs : StepValue) : MulHandler (minMaxR0 op a bs)
  | divs (a : BitVec 16) (b : RegName) : MulHandler (divs a b)
  | sqrSqrAdd3 (a b : RegName) : MulHandler (sqrSqrAdd3 a b)
  | sqrSqrAdd3ArRn (a as : Fin 4) (b : RegName) : MulHandler (sqrSqrAdd3ArRn a as b)
  | sqrMpysuAdd3a (a b : RegName) : MulHandler (sqrMpysuAdd3a a b)
  | cmp (a b : RegName) : MulHandler (cmp a b)
  | cmpP1To (b : RegName) : MulHandler (cmpP1To b)
  | minMax2Vtr (min : Bool) (a : RegName) : MulHandler (minMax2Vtr min a)
  | minMax2VtrBx (min : Bool) (a b : RegName) : MulHandler (minMax2VtrBx min a b)
  | minMax2VtrMov (min high : Bool) (a b : RegName) (c cs : Fin 4) :
      MulHandler (minMax2VtrMov min high a b c cs)
  | minMax2VtrMovIJ (min ij : Bool) (a b : RegName) (c csi csj : Fin 4) :
      MulHandler (minMax2VtrMovIJ min ij a b c csi csj)
  | movSvSum (a : Fin 4) (as : ArStep1Operand) (base : SumBase) (p0 p1 : ProductSumConfig)
      (b : RegName) : MulHandler (movSvSum a as base p0 p1 b)
  | cbs (a : RegName) (c : CbsCondValue) : MulHandler (cbs a c)
  | cbsBxh (a b : RegName) (c : CbsCondValue) : MulHandler (cbsBxh a b c)
  | cbsArp (a asi asj : Fin 4) (c : CbsCondValue) : MulHandler (cbsArp a asi asj c)
  | mma (a : RegName) (cfg : MmaConfig) : MulHandler (mma a cfg)
  | mmaArp (xy i j : Fin 4) (dmodi dmodj : Bool) (a : RegName) (cfg : MmaConfig) :
      MulHandler (mmaArp xy i j dmodi dmodj a cfg)
  | mmaSwapLoad (d : DirectReg) (y ys : Fin 4) (a : RegName) (cfg : MmaConfig) :
      MulHandler (mmaSwapLoad ops d y ys a cfg)
  | mmaMyMy (x xs : Fin 4) (a : RegName) (cfg : MmaConfig) : MulHandler (mmaMyMy x xs a cfg)
  | mmaMov (u v : RegName) (w ws : Fin 4) (a : RegName) (cfg : MmaConfig) :
      MulHandler (mmaMov u v w ws a cfg)
  | mmaMovCounter (w ws : Fin 4) (a : RegName) (cfg : MmaConfig) :
      MulHandler (mmaMovCounter w ws a cfg)
  | addhp (a as : Fin 4) (b c : RegName) : MulHandler (addhp a as b c)

/-- Every handler of this module keeps every sound footprint. -/
theorem MulHandler.keeps {F : Footprint} (hF : Sound ops F) {h : M Unit}
    (hh : MulHandler ops h) : F.Keeps h fun _ => True := by
  cases hh with
  | mulY0 => exact .seq (hF.mov16 _ _) fun _ => hF.mulGeneric _ _
  | mulRnImm16 =>
    exact .seq (hF.mov16 _ _) fun _ => .seq (hF.setRegs (DirectReg.frames_set _ _)) fun _ =>
      hF.mulGeneric _ _
  | mulRnRn =>
    exact .seq (hF.getRnUnit _) fun _ => .seq (hF.rnAddressAndModify _ _ _) fun _ =>
      .seq (hF.getRnUnit _) fun _ => .seq (hF.rnAddressAndModify _ _ _) fun _ =>
      .seq (.dataRead _) fun _ => .seq (hF.setRegs (DirectReg.frames_set _ _)) fun _ =>
      .seq (.dataRead _) fun _ => .seq (hF.setRegs (DirectReg.frames_set _ _)) fun _ =>
      hF.mulGeneric _ _
  | mpyi =>
    exact .seq (hF.setRegs (DirectReg.frames_set _ _)) fun _ => hF.doMultiplication _ _ _
  | msu =>
    exact .seq (hF.getRnUnit _) fun _ => .seq (hF.rnAddressAndModify _ _ _) fun _ =>
      .seq (hF.getRnUnit _) fun _ => .seq (hF.rnAddressAndModify _ _ _) fun _ =>
      .seq (hF.accumulateProduct _ _ _) fun _ =>
      .seq (.dataRead _) fun _ => .seq (hF.setRegs (DirectReg.frames_set _ _)) fun _ =>
      .seq (.dataRead _) fun _ => .seq (hF.setRegs (DirectReg.frames_set _ _)) fun _ =>
      hF.doMultiplication _ _ _
  | msuImm16 =>
    exact .seq (hF.getRnUnit _) fun _ => .seq (hF.rnAddressAndModify _ _ _) fun _ =>
      .seq (hF.accumulateProduct _ _ _) fun _ =>
      .seq (.dataRead _) fun _ => .seq (hF.setRegs (DirectReg.frames_set _ _)) fun _ =>
      .seq (hF.setRegs (DirectReg.frames_set _ _)) fun _ => hF.doMultiplication _ _ _
  | msusu =>
    exact .seq hF.regs fun _ => .seq (hF.getArStep _) fun _ =>
      .seq (hF.rnAddressAndModify _ _ _) fun _ => .seq (hF.accumulateProduct _ _ _) fun _ =>
      .seq (.dataRead _) fun _ => .seq (hF.setRegs (DirectReg.frames_set _ _)) fun _ =>
      hF.doMultiplication _ _ _
  | macX1to0 =>
    exact .seq (hF.accumulateProduct _ _ _) fun _ =>
      .seq (hF.setRegs fun _ => ⟨rfl, rfl, rfl⟩) fun _ => hF.doMultiplication _ _ _
  | mac1 =>
    exact .seq (hF.arpRnPair _ _ _) fun ⟨_, _⟩ => .seq (hF.accumulateProduct _ _ _) fun _ =>
      .seq (.dataRead _) fun _ => .seq (hF.setRegs (DirectReg.frames_set _ _)) fun _ =>
      .seq (.dataRead _) fun _ => .seq (hF.setRegs (DirectReg.frames_set _ _)) fun _ =>
      hF.doMultiplication _ _ _
  | modrGeneric a step dmod => exact hF.modrGeneric a step dmod
  | modrArp =>
    exact .seq hF.regs fun _ => .seq (hF.getArpStep _ _) fun ⟨_, _⟩ =>
      .seq (hF.rnAndModify _ _ _) fun _ => .seq (hF.rnAndModify _ _ _) fun _ => .triv
  | movd =>
    exact .seq (hF.getRnUnit _) fun _ => .seq (hF.rnAddressAndModify _ _ _) fun _ =>
      .seq (hF.getRnUnit _) fun _ => .seq (hF.rnAddressAndModify _ _ _) fun _ =>
      .seq hF.regs fun _ => .seq (.dataRead _) fun _ => hF.programWrite _ _
  | movpAxl =>
    exact .seq hF.regs fun _ => .seq (hF.regToBus16 _ _) fun _ =>
      .seq (.programRead _) fun _ => hF.regFromBus16 _ _
  | movp =>
    exact .seq (hF.getAcc _) fun _ => .seq (.programRead _) fun _ => hF.regFromBus16 _ _
  | movpRn =>
    exact .seq (hF.getRnUnit _) fun _ => .seq (hF.rnAddressAndModify _ _ _) fun _ =>
      .seq (hF.getRnUnit _) fun _ => .seq (hF.rnAddressAndModify _ _ _) fun _ =>
      .seq hF.regs fun _ => .seq (.programRead _) fun _ => hF.dataWrite _ _
  | movpdw =>
    exact .seq (hF.getAcc _) fun _ => .seq (.programRead _) fun _ => .seq (.programRead _)
      fun _ => hF.setRegs (frames_setPC _ _)
  | expBx => exact .seq (hF.getAcc _) fun _ => hF.setSvExp _
  | expBxAx =>
    exact .seq (.seq (hF.getAcc _) fun _ => hF.setSvExp _) fun _ => hF.expStore _
  | expRn a as => exact hF.expRn a as
  | expRnAx => exact .seq (hF.expRn _ _) fun _ => hF.expStore _
  | expRegister a => exact hF.expRegister a
  | expRegisterAx => exact .seq (hF.expRegister _) fun _ => hF.expStore _
  | expR6 => exact hF.expR6
  | expR6Ax => exact .seq hF.expR6 fun _ => hF.expStore _
  | lim =>
    exact .bind (hF.getAcc _) fun _ h => .bind (hF.saturateAccUnconditional h) fun _ h' =>
      hF.setAccNoSaturation _ h'
  | vtrclrGeneric => exact hF.setRegs fun _ => ⟨rfl, rfl, rfl⟩
  | vtrmovGeneric => exact .seq hF.regs fun _ => hF.setAcc _ (.of_canon (canon_setWidth_16 _)) false
  | vtrshr => exact hF.vtrshr
  | clrp0 | clrp1 => exact hF.productFromBus32 _ _
  | clrp => exact .seq (hF.productFromBus32 _ _) fun _ => hF.productFromBus32 _ _
  | minMax op a bs => exact hF.minMax op a bs
  | minMaxR0 op a bs => exact hF.minMaxR0 op a bs
  | divs =>
    exact .seq (hF.loadFromMemory _) fun _ => .seq (hF.getAcc _) fun _ =>
      .ite (fun _ => hF.setAccNoSaturation _ (Footprint.val_SignExtend _ (by decide) (by decide)))
        fun _ => hF.setAccNoSaturation _ (Footprint.val_SignExtend _ (by decide) (by decide))
  | sqrSqrAdd3 =>
    exact .seq (hF.getAcc _) fun _ => .seq (hF.productSum _ _ _ _) fun _ => hF.squareHalves _ _
  | sqrSqrAdd3ArRn =>
    exact .seq (hF.productSum _ _ _ _) fun _ => .seq (hF.arRnPair _ _) fun ⟨_, _⟩ =>
      .seq (.dataRead _) fun _ => .seq (.dataRead _) fun _ => hF.squareHalves _ _
  | sqrMpysuAdd3a =>
    exact .seq (hF.getAcc _) fun _ => .seq (hF.productSum _ _ _ _) fun _ =>
      .seq (hF.setRegs fun _ => ⟨rfl, rfl, rfl⟩) fun _ => .seq (hF.doMultiplication _ _ _)
      fun _ => hF.doMultiplication _ _ _
  | cmp a b => exact hF.cmp a b
  | cmpP1To =>
    exact .seq (hF.productToBus40 _) fun _ => .seq (hF.getAcc _) fun _ =>
      .bind (hF.addSub _ _ _) fun _ h => hF.setAccFlag h
  | minMax2Vtr => exact .seq (hF.counterAcc _) fun _ => hF.minMaxVtr _ _ _
  | minMax2VtrBx => exact hF.minMaxVtr _ _ _
  | minMax2VtrMov =>
    exact .seq (hF.minMaxVtr _ _ _) fun _ => .seq (hF.counterHalves _) fun ⟨_, _⟩ =>
      .seq hF.regs fun _ => .seq (hF.getArStep _) fun _ =>
      .seq (hF.rnAddressAndModify _ _ _) fun _ => hF.dataWrite _ _
  | minMax2VtrMovIJ =>
    exact .seq (hF.minMaxVtr _ _ _) fun _ => .seq (hF.counterHalves _) fun ⟨_, _⟩ =>
      .seq (hF.arpRnPair _ _ _) fun ⟨_, _⟩ => .seq (hF.dataWrite _ _) fun _ => hF.dataWrite _ _
  | movSvSum a as base p0 p1 b => exact hF.movSvSum a as base p0 p1 b
  | cbs =>
    exact .seq (hF.getAcc _) fun _ => .seq (hF.counterAcc _) fun _ => .seq (hF.getAcc _) fun _ =>
      .seq hF.regs fun _ => hF.cbsGeneric _ _ _ _
  | cbsBxh =>
    exact .seq (hF.getAcc _) fun _ => .seq (hF.getAcc _) fun _ => .seq hF.regs fun _ =>
      hF.cbsGeneric _ _ _ _
  | cbsArp =>
    exact .seq hF.regs fun _ => .seq (hF.getArpStep _ _) fun ⟨_, _⟩ =>
      .seq (hF.rnAndModify _ _ _) fun _ => .seq hF.regs fun _ =>
      .seq (hF.rnAddressAndModify _ _ _) fun _ => .seq (.dataRead _) fun _ =>
      .seq (.dataRead _) fun _ => hF.cbsGeneric _ _ _ _
  | mma a cfg => exact hF.mma a cfg
  | mmaArp xy i j dmodi dmodj a cfg => exact hF.mmaArp xy i j dmodi dmodj a cfg
  | mmaSwapLoad =>
    exact .seq (hF.productSum _ _ _ _) fun _ => .seq (hF.setRegs fun _ => ⟨rfl, rfl, rfl⟩)
      fun _ => .seq (hF.mov16 _ _) fun _ => hF.mmaMultiply _
  | mmaMyMy =>
    exact .seq (hF.productSum _ _ _ _) fun _ => .seq (hF.arRnPair _ _) fun ⟨_, _⟩ =>
      .seq (.dataRead _) fun _ => .seq (hF.setRegs (DirectReg.frames_set _ _)) fun _ =>
      .seq (.dataRead _) fun _ => .seq (hF.setRegs (DirectReg.frames_set _ _)) fun _ =>
      hF.mmaMultiply _
  | mmaMov =>
    exact .seq (hF.arRnPair _ _) fun ⟨_, _⟩ => .seq (hF.accHighNoFlag _) fun _ =>
      .seq (hF.accHighNoFlag _) fun _ => hF.mmaMovTail _ _ _ _ _ _
  | mmaMovCounter =>
    exact .seq (hF.arRnPair _ _) fun ⟨_, _⟩ => .seq (hF.accHighNoFlag _) fun _ =>
      .seq (hF.counterAcc _) fun _ => .seq (hF.accHighNoFlag _) fun _ =>
      hF.mmaMovTail _ _ _ _ _ _
  | addhp =>
    exact .seq hF.regs fun _ => .seq (hF.getArStep _) fun _ =>
      .seq (hF.rnAddressAndModify _ _ _) fun _ => .seq (.dataRead _) fun _ =>
      .seq (hF.productToBus40 _) fun _ => .bind (hF.addSub _ _ _) fun _ h => hF.setAcc _ h false

end Teakra
