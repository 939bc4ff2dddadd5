import Teakra.Handlers.Control

/-!
# Handlers: the moves

The `mov` handlers of `interpreter.h` (lines 1642–2102), the paired moves `mov2`, `mova`,
`mov2_*` and `exchange_*` (lines 2104–2202), the shifting moves `movs`, `movsi` (lines
2262–2286) and the rounding moves `movr` (lines 2288–2333).

Most `mov` handlers read one 16-bit word and write it somewhere else. They differ only in
where the word comes from and where it goes, so they are `mov16` at a `Src16` and a `Dst16`,
the two operand kinds spelled out as the handlers spell them; overloads whose operands only
differ in their class (`mov(MemImm16, Ax)`, `mov(MemImm8, Ab)`, ...) are one definition.
The moves that change the order of those two steps, or go through an accumulator, keep
their own bodies.
-/

namespace Teakra

variable (ops : RegisterMethods)

/-! ## One-word moves -/

/-- Where a one-word move reads its value. -/
inductive Src16
  /-- `RegToBus16(a, sat)`. -/
  | bus (a : RegName) (sat : Bool)
  /-- `LoadFromMemory(a)`. -/
  | mem (a : MemOperand)
  /-- An immediate. -/
  | imm (v : BitVec 16)
  /-- A register named as a field of `regs`. -/
  | reg (d : DirectReg)
  /-- `regs.Get<icr>()`. -/
  | icr
  /-- `mem.DataRead(RnAddressAndModify(GetRnUnit(a), as))`. -/
  | rn (a : RegName) (as : StepValue)
  /-- `mem.DataRead(RnAddressAndModify(GetArRnUnit(a), GetArStep(as)))`. -/
  | arRn (a as : Fin 4)
  /-- `mem.DataRead(regs.sp)`. -/
  | memsp
  /-- `(ProductToBus40(RegName::p0) >> 16) & 0xFFFF`. -/
  | p0h

/-- Read the word of a one-word move. -/
def Src16.read : Src16 → M (BitVec 16)
  | .bus a sat => regToBus16 ops a sat
  | .mem a => loadFromMemory a
  | .imm v => pure v
  | .reg d => do return d.get (← regs)
  | .icr => do return ops.Get .icr (← regs)
  | .rn a as => do dataRead (← rnAddressAndModify (← getRnUnit a) as false)
  | .arRn a as => do dataRead (← rnAddressAndModify (getArRnUnit (← regs) a) (← getArStep as) false)
  | .memsp => do dataRead (← regs).sp
  | .p0h => do return (((← productToBus40 .p0) >>> 16) &&& 0xFFFF).setWidth 16

/-- Where a one-word move writes its value. -/
inductive Dst16
  /-- `RegFromBus16(b, value)`. -/
  | bus (b : RegName)
  /-- `StoreToMemory(b, value)`. -/
  | mem (b : MemOperand)
  /-- A register named as a field of `regs`. -/
  | reg (d : DirectReg)
  /-- `regs.Set<icr>(value)`. -/
  | icr
  /-- `mem.DataWrite(RnAddressAndModify(GetRnUnit(b), bs), value)`. -/
  | rn (b : RegName) (bs : StepValue)

/-- Write the word of a one-word move. -/
def Dst16.write : Dst16 → BitVec 16 → M Unit
  | .bus b, v => regFromBus16 ops b v
  | .mem b, v => storeToMemory b v
  | .reg d, v => setRegs (d.set v)
  | .icr, v => setRegs (ops.Set .icr v)
  | .rn b bs, v => do dataWrite (← rnAddressAndModify (← getRnUnit b) bs false) v

/-- `u16 value = <src>; <dst> = value;`. -/
def mov16 (src : Src16) (dst : Dst16) : M Unit := do (dst.write ops) (← src.read ops)

/-- The moves to an `ArRn1` operand, which step the address register before they read the
    value (lines 1934–1948). -/
def movToArRn (src : Src16) (b bs : Fin 4) : M Unit := do
  let address ← rnAddressAndModify (getArRnUnit (← regs) b) (← getArStep bs) false
  dataWrite address (← src.read ops)

/-- `mov_x0(Abl)` (lines 1649–1652). -/
def movX0 (a : RegName) : M Unit := mov16 ops (.bus a true) (.reg .x0)
/-- `mov_x1(Abl)` (lines 1653–1656). -/
def movX1 (a : RegName) : M Unit := mov16 ops (.bus a true) (.reg .x1)
/-- `mov_y1(Abl)` (lines 1657–1660). -/
def movY1 (a : RegName) : M Unit := mov16 ops (.bus a true) (.reg .y1)
/-- `mov(Ablh, MemImm8)`, `mov(Axl, MemImm16)`, `mov(Axl, MemR7Imm16)` and
    `mov(Axl, MemR7Imm7s)` (lines 1675–1690). -/
def movToMemory (a : RegName) (b : MemOperand) : M Unit := mov16 ops (.bus a true) (.mem b)
/-- `mov(MemImm16, Ax)`, `mov(MemImm8, Ab)`, `mov(MemImm8, Ablh)`, `mov(MemImm8, RnOld)`,
    `mov(MemR7Imm16, Ax)`, `mov(MemR7Imm7s, Ax)` and `mov(MemR7Imm16, ArArpSttMod)` (lines
    1705–1720, 1762–1769, 1997–2000). -/
def movFromMemory (a : MemOperand) (b : RegName) : M Unit := mov16 ops (.mem a) (.bus b)
/-- `mov_sv(MemImm8)` (lines 1724–1727). -/
def movSv (a : BitVec 16) : M Unit := mov16 ops (.mem (.imm8 a)) (.reg .sv)
/-- `mov_icr_to(Ab)` (lines 1731–1734). -/
def movIcrTo (b : RegName) : M Unit := mov16 ops .icr (.bus b)
/-- `mov(Imm16, Bx)`, `mov(Imm16, Register)`, `mov(Imm8, Axl)`, `mov(Imm16, ArArp)` and
    `mov(Imm16, SttMod)` (lines 1735–1742, 1758–1761, 1858–1861, 1878–1881). -/
def movImm (a : BitVec 16) (b : RegName) : M Unit := mov16 ops (.imm a) (.bus b)
/-- `mov(Imm8s, Axh)` and `mov(Imm8s, RnOld)` (lines 1746–1753). -/
def movImm8s (a : BitVec 16) (b : RegName) : M Unit := mov16 ops (.imm (SignExtend 8 a)) (.bus b)
/-- `mov_sv(Imm8s)` (lines 1754–1757). -/
def movSvImm8s (a : BitVec 16) : M Unit := mov16 ops (.imm (SignExtend 8 a)) (.reg .sv)
/-- `mov(Rn, StepZIDS, Bx)` and `mov(Rn, StepZIDS, Register)` (lines 1770–1779). -/
def movFromRn (a : RegName) (as : StepValue) (b : RegName) : M Unit :=
  mov16 ops (.rn a as) (.bus b)
/-- `mov_memsp_to(Register)` (lines 1780–1783). -/
def movMemspTo (b : RegName) : M Unit := mov16 ops .memsp (.bus b)
/-- `mov_mixp_to(Register)` and `mov_mixp_to(Bx)` (lines 1784–1787, 1995–1998). -/
def movMixpTo (b : RegName) : M Unit := mov16 ops (.reg .mixp) (.bus b)
/-- `mov(RnOld, MemImm8)` and `mov(ArArpSttMod, MemR7Imm16)` (lines 1788–1791, 1972–1975):
    through the bus without saturation. -/
def movRegToMemory (a : RegName) (b : MemOperand) : M Unit := mov16 ops (.bus a false) (.mem b)
/-- `mov_icr(Register)` (lines 1792–1795). -/
def movIcr (a : RegName) : M Unit := mov16 ops (.bus a true) .icr
/-- `mov_mixp(Register)` (lines 1796–1799). -/
def movMixp (a : RegName) : M Unit := mov16 ops (.bus a true) (.reg .mixp)
/-- `mov(Register, Rn, StepZIDS)` (lines 1800–1806): the value is read before the address
    register steps. -/
def movToRn (a b : RegName) (bs : StepValue) : M Unit := mov16 ops (.bus a true) (.rn b bs)
/-- `mov_repc_to(Ab)` and `mov_repc_to(Abl)` (lines 1838–1841, 1922–1925). -/
def movRepcTo (b : RegName) : M Unit := mov16 ops (.reg .repc) (.bus b)
/-- `mov_sv_to(MemImm8)` (lines 1842–1845). -/
def movSvTo (b : BitVec 16) : M Unit := mov16 ops (.reg .sv) (.mem (.imm8 b))
/-- `mov_x0_to(Ab)` (lines 1846–1849). -/
def movX0To (b : RegName) : M Unit := mov16 ops (.reg .x0) (.bus b)
/-- `mov_x1_to(Ab)` (lines 1850–1853). -/
def movX1To (b : RegName) : M Unit := mov16 ops (.reg .x1) (.bus b)
/-- `mov_y1_to(Ab)` (lines 1854–1857). -/
def movY1To (b : RegName) : M Unit := mov16 ops (.reg .y1) (.bus b)
/-- `mov_r6(Imm16)` (lines 1862–1865). -/
def movR6Imm (a : BitVec 16) : M Unit := mov16 ops (.imm a) (.reg .r6)
/-- `mov_repc(Imm16)` (lines 1866–1869). -/
def movRepcImm (a : BitVec 16) : M Unit := mov16 ops (.imm a) (.reg .repc)
/-- `mov_stepi0(Imm16)` (lines 1870–1873). -/
def movStepi0 (a : BitVec 16) : M Unit := mov16 ops (.imm a) (.reg .stepi0)
/-- `mov_stepj0(Imm16)` (lines 1874–1877). -/
def movStepj0 (a : BitVec 16) : M Unit := mov16 ops (.imm a) (.reg .stepj0)
/-- `mov_a0h_stepi0` (lines 1886–1889). -/
def movA0hStepi0 : M Unit := mov16 ops (.bus .a0h true) (.reg .stepi0)
/-- `mov_a0h_stepj0` (lines 1890–1893). -/
def movA0hStepj0 : M Unit := mov16 ops (.bus .a0h true) (.reg .stepj0)
/-- `mov_stepi0_a0h` (lines 1894–1897). -/
def movStepi0A0h : M Unit := mov16 ops (.reg .stepi0) (.bus .a0h)
/-- `mov_stepj0_a0h` (lines 1898–1901). -/
def movStepj0A0h : M Unit := mov16 ops (.reg .stepj0) (.bus .a0h)
/-- `mov_repc(Abl)` (lines 1906–1909). -/
def movRepc (a : RegName) : M Unit := mov16 ops (.bus a true) (.reg .repc)
/-- `mov(Abl, ArArp)` and `mov(Abl, SttMod)` (lines 1910–1917). -/
def movAbl (a b : RegName) : M Unit := mov16 ops (.bus a true) (.bus b)
/-- `mov(ArArp, Abl)` and `mov(SttMod, Abl)` (lines 1926–1933). -/
def movToAbl (a b : RegName) : M Unit := mov16 ops (.bus a false) (.bus b)
/-- `mov_repc_to(ArRn1, ArStep1)` (lines 1935–1939). -/
def movRepcToArRn (b bs : Fin 4) : M Unit := movToArRn ops (.reg .repc) b bs
/-- `mov(ArArp, ArRn1, ArStep1)` and `mov(SttMod, ArRn1, ArStep1)` (lines 1940–1949). -/
def movRegToArRn (a : RegName) (b bs : Fin 4) : M Unit := movToArRn ops (.bus a false) b bs
/-- `mov_repc(ArRn1, ArStep1)` (lines 1951–1955). -/
def movRepcArRn (a as : Fin 4) : M Unit := mov16 ops (.arRn a as) (.reg .repc)
/-- `mov(ArRn1, ArStep1, ArArp)` and `mov(ArRn1, ArStep1, SttMod)` (lines 1956–1966). -/
def movFromArRn (a as : Fin 4) (b : RegName) : M Unit := mov16 ops (.arRn a as) (.bus b)
/-- `mov_repc_to(MemR7Imm16)` (lines 1968–1971). -/
def movRepcToMemory (b : BitVec 16) : M Unit := mov16 ops (.reg .repc) (.mem (.r7Imm16 b))
/-- `mov_repc(MemR7Imm16)` (lines 1977–1980). -/
def movRepcMemory (a : BitVec 16) : M Unit := mov16 ops (.mem (.r7Imm16 a)) (.reg .repc)
/-- `mov_mixp_r6` (lines 1999–2002). -/
def movMixpR6 : M Unit := mov16 ops (.reg .mixp) (.reg .r6)
/-- `mov_p0h_to(Bx)` and `mov_p0h_to(Register)` (lines 2003–2006, 2011–2014). -/
def movP0hTo (b : RegName) : M Unit := mov16 ops .p0h (.bus b)
/-- `mov_p0h_r6` (lines 2007–2010). -/
def movP0hR6 : M Unit := mov16 ops .p0h (.reg .r6)
/-- `mov_r6_to(Bx)` and `mov_r6_to(Register)` (lines 2077–2080, 2085–2088). -/
def movR6To (b : RegName) : M Unit := mov16 ops (.reg .r6) (.bus b)
/-- `mov_r6_mixp` (lines 2081–2084). -/
def movR6Mixp : M Unit := mov16 ops (.reg .r6) (.reg .mixp)
/-- `mov_r6(Register)` (lines 2089–2092). -/
def movR6 (a : RegName) : M Unit := mov16 ops (.bus a true) (.reg .r6)
/-- `mov_memsp_r6` (lines 2093–2096). -/
def movMemspR6 : M Unit := mov16 ops .memsp (.reg .r6)
/-- `mov_r6_to(Rn, StepZIDS)` (lines 2097–2101). -/
def movR6ToRn (b : RegName) (bs : StepValue) : M Unit := mov16 ops (.reg .r6) (.rn b bs)
/-- `mov_r6(Rn, StepZIDS)` (lines 2102–2106). -/
def movR6Rn (a : RegName) (as : StepValue) : M Unit := mov16 ops (.rn a as) (.reg .r6)

/-- `mov_dvm(Abl)` (lines 1646–1648). -/
def movDvm (_a : RegName) : M Unit := unimplemented
/-- `mov_eu(MemImm8, Axh)` (lines 1717–1719). -/
def movEu (_a : BitVec 16) (_b : RegName) : M Unit := unimplemented
/-- `mov_dvm_to(Ab)` (lines 1728–1730). -/
def movDvmTo (_b : RegName) : M Unit := unimplemented
/-- `mov_icr(Imm5)` (lines 1743–1745). -/
def movIcrImm5 (_a : BitVec 16) : M Unit := unimplemented
/-- `mov_prpage(Imm4)` (lines 1882–1884). -/
def movPrpageImm4 (_a : BitVec 16) : M Unit := unimplemented
/-- `mov_prpage(Abl)` (lines 1903–1905). -/
def movPrpage (_a : RegName) : M Unit := unimplemented
/-- `mov_prpage_to(Abl)` (lines 1919–1921). -/
def movPrpageTo (_b : RegName) : M Unit := unimplemented

/-! ## Moves through an accumulator or the program counter -/

/-- `mov(Ab, Ab)` (lines 1642–1645). -/
def movAb (a b : RegName) : M Unit := do
  let value ← getAcc a
  setAcc b value false

/-- `mov(Register, Bx)` (lines 1807–1819). -/
def movRegisterBx (a b : RegName) : M Unit := do
  if a == .p then
    let value ← productToBus40 .p0
    setAcc b value false
  else if a == .a0 || a == .a1 then
    let value ← getAcc a
    setAcc b value false
  else
    let value ← regToBus16 ops a true
    regFromBus16 ops b value

/-- `mov(Register, Register)` (lines 1820–1837). For `a = p` the destination is `a1` or `a0`
    by bit 0 of `b.storage`, which is `bStorage`. -/
def movRegisterRegister (a b : RegName) (bStorage : BitVec 16) : M Unit := do
  if a == .p then
    let bName : RegName := if bStorage &&& 1 != 0 then .a1 else .a0
    let value ← productToBus40 .p0
    setAcc bName value false
  else if a == .pc then
    if b == .a0 || b == .a1 then setAcc b ((← regs).pc.setWidth 64) false
    else regFromBus16 ops b (((← regs).pc &&& 0xFFFF).setWidth 16)
  else
    let value ← regToBus16 ops a true
    regFromBus16 ops b value

/-- `mov_pc(Ax)` and `mov_pc(Bx)` (lines 1986–1993). -/
def movPc (a : RegName) : M Unit := do
  let value ← getAcc a
  setPCSave ((value &&& 0xFFFFFFFF).setWidth 32)

/-- `mov_p0(Ab)` (lines 2015–2018). -/
def movP0 (a : RegName) : M Unit := do
  let value := ((← saturateAcc (← getAcc a) false) &&& 0xFFFFFFFF).setWidth 32
  productFromBus32 .p0 value

/-- `mov_p1_to(Ab)` (lines 2019–2022). -/
def movP1To (b : RegName) : M Unit := do
  let value ← productToBus40 .p1
  setAcc b value false

/-! ## Paired moves -/

/-- The two addresses of an `ArRn2`/`ArStep2` pair: the stepped address and its offset. -/
def arRnPair (a as : Fin 4) : M (BitVec 16 × BitVec 16) := do
  let unit := getArRnUnit (← regs) a
  let address ← rnAddressAndModify unit (← getArStep as) false
  return (address, offsetAddress (← regs) unit address (getArOffset (← regs) as) false)

/-- Write `h` at the stepped address and `l` at its offset, the offset first: "keep the write
    order exactly like this" (`mov2`, `mov2s`, `mova`, `mov2_axh_m_y0_m`, `mov2_abh_m`). -/
def writePair (a as : Fin 4) (h l : BitVec 16) : M Unit := do
  let (address, address2) ← arRnPair a as
  dataWrite address2 l
  dataWrite address h

/-- The 32-bit value at the stepped address (high) and its offset (low), sign extended. -/
def readPair (a as : Fin 4) : M (BitVec 64) := do
  let (address, address2) ← arRnPair a as
  let l ← dataRead address2
  let h ← dataRead address
  return SignExtend 32 (h.setWidth 64 <<< 16 ||| l.setWidth 64)

/-- `mov2(Px, ArRn2, ArStep2)` (lines 2024–2034). -/
def mov2 (a : RegName) (b bs : Fin 4) : M Unit := do
  let value ← productToBus32NoShift a
  writePair b bs (((value >>> 16) &&& 0xFFFF).setWidth 16) ((value &&& 0xFFFF).setWidth 16)

/-- `mov2s(Px, ArRn2, ArStep2)` (lines 2035–2045). -/
def mov2s (a : RegName) (b bs : Fin 4) : M Unit := do
  let value ← productToBus40 a
  writePair b bs (((value >>> 16) &&& 0xFFFF).setWidth 16) ((value &&& 0xFFFF).setWidth 16)

/-- `mov2(ArRn2, ArStep2, Px)` (lines 2046–2054). -/
def mov2To (a as : Fin 4) (b : RegName) : M Unit := do
  let value ← readPair a as
  productFromBus32 b (value.setWidth 32)

/-- `mova(Ab, ArRn2, ArStep2)` (lines 2055–2066). -/
def mova (a : RegName) (b bs : Fin 4) : M Unit := do
  let value ← saturateAcc (← getAcc a) false
  writePair b bs (((value >>> 16) &&& 0xFFFF).setWidth 16) ((value &&& 0xFFFF).setWidth 16)

/-- `mova(ArRn2, ArStep2, Ab)` (lines 2067–2075). -/
def movaTo (a as : Fin 4) (b : RegName) : M Unit := do
  let value ← readPair a as
  setAcc b value false

/-- Bits 16..31 of an accumulator, saturated without flags, as `mov2_*` and `exchange_*`
    store them. -/
def accHighNoFlag (a : RegName) : M (BitVec 16) := do
  return (((← saturateAccNoFlag (← getAcc a) false) >>> 16) &&& 0xFFFF).setWidth 16

/-- `mov2_axh_m_y0_m` (lines 2108–2117). -/
def mov2AxhMY0M (a : RegName) (b bs : Fin 4) : M Unit := do
  let u ← accHighNoFlag a
  let v := (← regs).y 0
  writePair b bs u v

/-- The two addresses of an `ArpRn`/`ArpStep` operand, stepped in order `i`, `j`. -/
def arpRnPair (b bsi bsj : Fin 4) : M (BitVec 16 × BitVec 16) := do
  let u := getArpRnUnit (← regs) b
  let (si, sj) ← getArpStep bsi bsj
  let i ← rnAddressAndModify u.1 si false
  let j ← rnAddressAndModify u.2 sj false
  return (i, j)

/-- `mov2_ax_mij` and `mov2_ax_mji` (lines 2119–2136): the high half at the first address of
    the pair, the low half at the second; `ij` says whether the first is `i`. -/
def mov2AxM (ij : Bool) (a : RegName) (b bsi bsj : Fin 4) : M Unit := do
  let (i, j) ← arpRnPair b bsi bsj
  let value ← saturateAccNoFlag (← getAcc a) false
  dataWrite (if ij then i else j) (((value >>> 16) &&& 0xFFFF).setWidth 16)
  dataWrite (if ij then j else i) ((value &&& 0xFFFF).setWidth 16)

/-- `mov2_ax_mij`. -/
def mov2AxMij (a : RegName) (b bsi bsj : Fin 4) : M Unit := mov2AxM true a b bsi bsj
/-- `mov2_ax_mji`. -/
def mov2AxMji (a : RegName) (b bsi bsj : Fin 4) : M Unit := mov2AxM false a b bsi bsj

/-- `mov2_mij_ax` and `mov2_mji_ax` (lines 2137–2152): the high half from the first address of
    the pair, stored with `SetAcc_Simple`. -/
def mov2MAx (ij : Bool) (a asi asj : Fin 4) (b : RegName) : M Unit := do
  let u := getArpRnUnit (← regs) a
  let (si, sj) ← getArpStep asi asj
  let first ← dataRead (← rnAddressAndModify u.1 si false)
  let second ← dataRead (← rnAddressAndModify u.2 sj false)
  let (h, l) := if ij then (first, second) else (second, first)
  setAccSimple b (SignExtend 32 (h.setWidth 64 <<< 16 ||| l.setWidth 64))

/-- `mov2_mij_ax`. -/
def mov2MijAx (a asi asj : Fin 4) (b : RegName) : M Unit := mov2MAx true a asi asj b
/-- `mov2_mji_ax`. -/
def mov2MjiAx (a asi asj : Fin 4) (b : RegName) : M Unit := mov2MAx false a asi asj b

/-- `mov2_abh_m` (lines 2153–2162). -/
def mov2AbhM (ax ay : RegName) (b bs : Fin 4) : M Unit := do
  let u ← accHighNoFlag ax
  let v ← accHighNoFlag ay
  writePair b bs u v

/-- `exchange_iaj`, `exchange_riaj`, `exchange_jai` and `exchange_rjai` (lines 2163–2202):
    store the high half of `a` at one address of the pair and load `a` from the other,
    rounded (`| 0x8000`) when `round`; `ij` says whether the load is from `i`. -/
def exchange (ij round : Bool) (a : RegName) (b bsi bsj : Fin 4) : M Unit := do
  let (i, j) ← arpRnPair b bsi bsj
  let value ← saturateAccNoFlag (← getAcc a) false
  dataWrite (if ij then j else i) (((value >>> 16) &&& 0xFFFF).setWidth 16)
  let loaded ← dataRead (if ij then i else j)
  setAccSimple a (SignExtend 32 (loaded.setWidth 64 <<< 16 ||| if round then 0x8000 else 0))

/-- `exchange_iaj`. -/
def exchangeIaj (a : RegName) (b bsi bsj : Fin 4) : M Unit := exchange true false a b bsi bsj
/-- `exchange_riaj`. -/
def exchangeRiaj (a : RegName) (b bsi bsj : Fin 4) : M Unit := exchange true true a b bsi bsj
/-- `exchange_jai`. -/
def exchangeJai (a : RegName) (b bsi bsj : Fin 4) : M Unit := exchange false false a b bsi bsj
/-- `exchange_rjai`. -/
def exchangeRjai (a : RegName) (b bsi bsj : Fin 4) : M Unit := exchange false true a b bsi bsj

/-! ## Shifting and rounding moves -/

/-- `movs` and `movsi` (lines 2263–2287): a word, sign extended, shifted into `b`. -/
def movsGeneric (src : Src16) (sv : Option (BitVec 16)) (b : RegName) : M Unit := do
  let value := SignExtend 16 ((← src.read ops).setWidth 64)
  shiftBus40 value (sv.getD (← regs).sv) b

/-- `movs(MemImm8, Ab)`. -/
def movsMemImm8 (a : BitVec 16) (b : RegName) : M Unit := movsGeneric ops (.mem (.imm8 a)) none b
/-- `movs(Rn, StepZIDS, Ab)`. -/
def movsRn (a : RegName) (as : StepValue) (b : RegName) : M Unit :=
  movsGeneric ops (.rn a as) none b
/-- `movs(Register, Ab)`. -/
def movsRegister (a b : RegName) : M Unit := movsGeneric ops (.bus a false) none b
/-- `movs_r6_to(Ax)`. -/
def movsR6To (b : RegName) : M Unit := movsGeneric ops (.reg .r6) none b
/-- `movsi(RnOld, Ab, Imm5s)`. -/
def movsi (a b : RegName) (s : BitVec 16) : M Unit :=
  movsGeneric ops (.bus a false) (some (SignExtend 5 s)) b

/-- The 16-bit rounding of `movr`: "Flag C is set according to bit 16 but Flag V is always
    cleared" (lines 2299–2304). -/
def round16 (value16 : BitVec 16) : M (BitVec 64) := do
  let result := value16.setWidth 64 + 0x8000
  setRegs fun r => { r with fc := Function.update r.fc 0 (result >>> 16 != 0), fv := false }
  return result &&& 0xFFFF

/-- `movr(ArRn2, ArStep2, Abh)` (lines 2290–2295). -/
def movrArRn (a as : Fin 4) (b : RegName) : M Unit := do
  let value16 ← Src16.read ops (.arRn a as)
  let result ← addSub (SignExtend 32 (value16.setWidth 64 <<< 16)) 0x8000 false
  setAcc b result false

/-- `movr(Rn, StepZIDS, Ax)` (lines 2296–2305). -/
def movrRn (a : RegName) (as : StepValue) (b : RegName) : M Unit := do
  let value16 ← Src16.read ops (.rn a as)
  setAcc b (← round16 value16) false

/-- `movr(Register, Ax)` (lines 2306–2322). -/
def movrRegister (a b : RegName) : M Unit := do
  let result ← (if a == .a0 || a == .a1 then do addSub (← getAcc a) 0x8000 false
    else if a == .p then do addSub (← productToBus40 .p0) 0x8000 false
    else do round16 (← regToBus16 ops a false))
  setAcc b result false

/-- `movr(Bx, Ax)` (lines 2323–2327). -/
def movrBx (a b : RegName) : M Unit := do
  let result ← addSub (← getAcc a) 0x8000 false
  setAcc b result false

/-- `movr_r6_to(Ax)` (lines 2328–2335). -/
def movrR6To (b : RegName) : M Unit := do
  setAcc b (← round16 ((← regs).r 6)) false

/-! ## The handlers keep every sound footprint -/

section Keeps

variable {ops} {F : Footprint} (hF : Sound ops F)
include hF

namespace Sound

theorem srcRead (src : Src16) : F.Keeps (src.read ops) fun _ => True := by
  cases src with
  | bus a sat => exact hF.regToBus16 a sat
  | mem a => exact hF.loadFromMemory a
  | imm v => exact .triv
  | reg d | icr => exact .seq hF.regs fun _ => .triv
  | memsp => exact .seq hF.regs fun _ => .dataRead _
  | rn a as =>
    exact .seq (hF.getRnUnit a) fun _ => .seq (hF.rnAddressAndModify _ _ _) fun _ =>
      .dataRead _
  | arRn a as =>
    exact .seq hF.regs fun _ => .seq (hF.getArStep _) fun _ =>
      .seq (hF.rnAddressAndModify _ _ _) fun _ => .dataRead _
  | p0h => exact .seq (hF.productToBus40 _) fun _ => .triv

theorem dstWrite (dst : Dst16) (v : BitVec 16) : F.Keeps (dst.write ops v) fun _ => True := by
  cases dst with
  | bus b => exact hF.regFromBus16 b v
  | mem b => exact hF.storeToMemory b v
  | reg d => exact hF.setRegs (d.frames_set v)
  | icr => exact .setRegs (hF.set · _ v)
  | rn b bs =>
    exact .seq (hF.getRnUnit b) fun _ => .seq (hF.rnAddressAndModify _ _ _) fun _ =>
      hF.dataWrite _ _

theorem mov16 (src : Src16) (dst : Dst16) : F.Keeps (mov16 ops src dst) fun _ => True :=
  .seq (hF.srcRead src) fun _ => hF.dstWrite dst _

theorem movToArRn (src : Src16) (b bs : Fin 4) : F.Keeps (movToArRn ops src b bs) fun _ => True :=
  .seq hF.regs fun _ => .seq (hF.getArStep _) fun _ => .seq (hF.rnAddressAndModify _ _ _) fun _ =>
    .seq (hF.srcRead src) fun _ => hF.dataWrite _ _

theorem arRnPair (a as : Fin 4) : F.Keeps (arRnPair a as) fun _ => True :=
  .seq hF.regs fun _ => .seq (hF.getArStep _) fun _ => .seq (hF.rnAddressAndModify _ _ _) fun _ =>
    .seq hF.regs fun _ => .seq hF.regs fun _ => .triv

theorem writePair (a as : Fin 4) (h l : BitVec 16) : F.Keeps (writePair a as h l) fun _ => True :=
  .seq (hF.arRnPair a as) fun ⟨_, _⟩ => .seq (hF.dataWrite _ _) fun _ => hF.dataWrite _ _

/-- `readPair` returns a 32-bit sign extension, which the accumulators admit. -/
theorem readPair (a as : Fin 4) : F.Keeps (readPair a as) F.Val :=
  .seq (hF.arRnPair a as) fun ⟨_, _⟩ => .seq (.dataRead _) fun _ => .seq (.dataRead _) fun _ =>
    .pure (Footprint.val_SignExtend _ (by decide) (by decide))

theorem accHighNoFlag (a : RegName) : F.Keeps (accHighNoFlag a) fun _ => True :=
  .bind (hF.getAcc a) fun _ h => .seq (hF.saturateAccNoFlag h false) fun _ => .triv

theorem arpRnPair (b bsi bsj : Fin 4) : F.Keeps (arpRnPair b bsi bsj) fun _ => True :=
  .seq hF.regs fun _ => .seq (hF.getArpStep _ _) fun ⟨_, _⟩ =>
    .seq (hF.rnAddressAndModify _ _ _) fun _ => .seq (hF.rnAddressAndModify _ _ _) fun _ => .triv

theorem movRegisterBx (a b : RegName) : F.Keeps (movRegisterBx ops a b) fun _ => True :=
  .ite (fun _ => .bind (hF.productToBus40 _) fun _ h => hF.setAcc b h false) fun _ =>
    .ite (fun _ => .bind (hF.getAcc a) fun _ h => hF.setAcc b h false) fun _ =>
      .seq (hF.regToBus16 _ _) fun _ => hF.regFromBus16 _ _

theorem movRegisterRegister (a b : RegName) (bStorage : BitVec 16) :
    F.Keeps (movRegisterRegister ops a b bStorage) fun _ => True :=
  .ite (fun _ => .bind (hF.productToBus40 _) fun _ h => hF.setAcc _ h false) fun _ =>
    .ite (fun _ => .ite (fun _ => .seq hF.regs fun _ =>
        hF.setAcc b (.of_canon (canon_setWidth_32 _)) false)
      fun _ => .seq hF.regs fun _ => hF.regFromBus16 _ _) fun _ =>
    .seq (hF.regToBus16 _ _) fun _ => hF.regFromBus16 _ _

theorem mov2MAx (ij : Bool) (a asi asj : Fin 4) (b : RegName) :
    F.Keeps (mov2MAx ij a asi asj b) fun _ => True :=
  .seq hF.regs fun _ => .seq (hF.getArpStep _ _) fun ⟨_, _⟩ =>
    .seq (hF.rnAddressAndModify _ _ _) fun _ => .seq (.dataRead _) fun _ =>
    .seq (hF.rnAddressAndModify _ _ _) fun _ => .seq (.dataRead _) fun _ =>
    hF.setAccSimple b (Footprint.val_SignExtend _ (by decide) (by decide))

theorem exchange (ij round : Bool) (a : RegName) (b bsi bsj : Fin 4) :
    F.Keeps (exchange ij round a b bsi bsj) fun _ => True :=
  .seq (hF.arpRnPair b bsi bsj) fun ⟨_, _⟩ => .bind (hF.getAcc a) fun _ h =>
    .seq (hF.saturateAccNoFlag h false) fun _ => .seq (hF.dataWrite _ _) fun _ =>
    .seq (.dataRead _) fun _ => hF.setAccSimple a (Footprint.val_SignExtend _ (by decide) (by decide))

theorem movsGeneric (src : Src16) (sv : Option (BitVec 16)) (b : RegName) :
    F.Keeps (movsGeneric ops src sv b) fun _ => True :=
  .seq (hF.srcRead src) fun _ => .seq hF.regs fun _ => hF.shiftBus40 _ _ _

/-- The 16-bit rounding of `movr` returns a word below `2^16`. -/
theorem round16 (v : BitVec 16) : F.Keeps (round16 v) F.Val :=
  .seq (hF.setRegs fun _ => ⟨rfl, rfl, rfl⟩) fun _ =>
    .pure (.of_canon (canon_and_of_toNat_lt _ (by decide)))

theorem movrRegister (a b : RegName) : F.Keeps (movrRegister ops a b) fun _ => True :=
  .bind (.ite (fun _ => .seq (hF.getAcc a) fun _ => hF.addSub _ _ _) fun _ =>
      .ite (fun _ => .seq (hF.productToBus40 _) fun _ => hF.addSub _ _ _) fun _ =>
        .seq (hF.regToBus16 _ _) fun _ => hF.round16 _) fun _ h => hF.setAcc b h false

end Sound

end Keeps

/-! ## The handlers of this module -/

/-- The handlers of lines 1642–2334, with all their operands. -/
inductive MoveHandler : M Unit → Prop
  | mov16 (src : Src16) (dst : Dst16) : MoveHandler (mov16 ops src dst)
  | movToArRn (src : Src16) (b bs : Fin 4) : MoveHandler (movToArRn ops src b bs)
  | movAb (a b : RegName) : MoveHandler (movAb a b)
  | movRegisterBx (a b : RegName) : MoveHandler (movRegisterBx ops a b)
  | movRegisterRegister (a b : RegName) (bStorage : BitVec 16) :
      MoveHandler (movRegisterRegister ops a b bStorage)
  | movPc (a : RegName) : MoveHandler (movPc a)
  | movP0 (a : RegName) : MoveHandler (movP0 a)
  | movP1To (b : RegName) : MoveHandler (movP1To b)
  | mov2 (a : RegName) (b bs : Fin 4) : MoveHandler (mov2 a b bs)
  | mov2s (a : RegName) (b bs : Fin 4) : MoveHandler (mov2s a b bs)
  | mov2To (a as : Fin 4) (b : RegName) : MoveHandler (mov2To a as b)
  | mova (a : RegName) (b bs : Fin 4) : MoveHandler (mova a b bs)
  | movaTo (a as : Fin 4) (b : RegName) : MoveHandler (movaTo a as b)
  | mov2AxhMY0M (a : RegName) (b bs : Fin 4) : MoveHandler (mov2AxhMY0M a b bs)
  | mov2AxM (ij : Bool) (a : RegName) (b bsi bsj : Fin 4) : MoveHandler (mov2AxM ij a b bsi bsj)
  | mov2MAx (ij : Bool) (a asi asj : Fin 4) (b : RegName) : MoveHandler (mov2MAx ij a asi asj b)
  | mov2AbhM (ax ay : RegName) (b bs : Fin 4) : MoveHandler (mov2AbhM ax ay b bs)
  | exchange (ij round : Bool) (a : RegName) (b bsi bsj : Fin 4) :
      MoveHandler (exchange ij round a b bsi bsj)
  | movsGeneric (src : Src16) (sv : Option (BitVec 16)) (b : RegName) :
      MoveHandler (movsGeneric ops src sv b)
  | movrArRn (a as : Fin 4) (b : RegName) : MoveHandler (movrArRn ops a as b)
  | movrRn (a : RegName) (as : StepValue) (b : RegName) : MoveHandler (movrRn ops a as b)
  | movrRegister (a b : RegName) : MoveHandler (movrRegister ops a b)
  | movrBx (a b : RegName) : MoveHandler (movrBx a b)
  | movrR6To (b : RegName) : MoveHandler (movrR6To b)

/-- Every handler of this module keeps every sound footprint. -/
theorem MoveHandler.keeps {F : Footprint} (hF : Sound ops F) {h : M Unit}
    (hh : MoveHandler ops h) : F.Keeps h fun _ => True := by
  cases hh with
  | mov16 src dst => exact hF.mov16 src dst
  | movToArRn src b bs => exact hF.movToArRn src b bs
  | movAb => exact .bind (hF.getAcc _) fun _ h => hF.setAcc _ h false
  | movRegisterBx a b => exact hF.movRegisterBx a b
  | movRegisterRegister a b s => exact hF.movRegisterRegister a b s
  | movPc => exact .seq (hF.getAcc _) fun _ => hF.setPCSave _
  | movP0 =>
    exact .bind (hF.getAcc _) fun _ h => .seq (hF.saturateAcc h false) fun _ =>
      hF.productFromBus32 _ _
  | movP1To => exact .bind (hF.productToBus40 _) fun _ h => hF.setAcc _ h false
  | mov2 => exact .seq (hF.productToBus32NoShift _) fun _ => hF.writePair _ _ _ _
  | mov2s => exact .seq (hF.productToBus40 _) fun _ => hF.writePair _ _ _ _
  | mov2To => exact .seq (hF.readPair _ _) fun _ => hF.productFromBus32 _ _
  | mova =>
    exact .bind (hF.getAcc _) fun _ h => .seq (hF.saturateAcc h false) fun _ =>
      hF.writePair _ _ _ _
  | movaTo => exact .bind (hF.readPair _ _) fun _ h => hF.setAcc _ h false
  | mov2AxhMY0M => exact .seq (hF.accHighNoFlag _) fun _ => .seq hF.regs fun _ => hF.writePair _ _ _ _
  | mov2AxM =>
    exact .seq (hF.arpRnPair _ _ _) fun ⟨_, _⟩ => .bind (hF.getAcc _) fun _ h =>
      .seq (hF.saturateAccNoFlag h false) fun _ => .seq (hF.dataWrite _ _) fun _ => hF.dataWrite _ _
  | mov2MAx ij a asi asj b => exact hF.mov2MAx ij a asi asj b
  | mov2AbhM =>
    exact .seq (hF.accHighNoFlag _) fun _ => .seq (hF.accHighNoFlag _) fun _ => hF.writePair _ _ _ _
  | exchange ij round a b bsi bsj => exact hF.exchange ij round a b bsi bsj
  | movsGeneric src sv b => exact hF.movsGeneric src sv b
  | movrArRn =>
    exact .seq (hF.srcRead _) fun _ => .bind (hF.addSub _ _ _) fun _ h => hF.setAcc _ h false
  | movrRn =>
    exact .seq (hF.srcRead _) fun _ => .bind (hF.round16 _) fun _ h => hF.setAcc _ h false
  | movrRegister a b => exact hF.movrRegister a b
  | movrBx => exact .seq (hF.getAcc _) fun _ => .bind (hF.addSub _ _ _) fun _ h => hF.setAcc _ h false
  | movrR6To => exact .seq hF.regs fun _ => .bind (hF.round16 _) fun _ h => hF.setAcc _ h false

end Teakra
