import Teakra.Interpreter.Agu

/-!
# The arithmetic helpers

The private arithmetic of `Interpreter` shared by many handlers (`interpreter.h`, lines
220–560 and 1429–1460): the multiplier `DoMultiplication`, the 40-bit adder `AddSub`, the
dual-product sum `ProductSum`, the multiply-accumulate `MulGeneric`, and the operations
of the `alm`/`alu` and `alb` families.

Every helper here stores into an accumulator only a value that `AddSub`, a `GetAcc` or a
`SignExtend<40>` produced, so each keeps every sound footprint (`Sound.almGeneric`, ...).
-/

namespace Teakra

/-! ## The multiplier and the adder -/

/-- `DoMultiplication` (lines 230–248): `p[unit] = x[unit] * y[unit]` on 32 bits, with the
    operands sign-extended as asked, `y` narrowed as `ym` says, and the product's sign in
    `psign[unit]`. -/
@[irreducible]
def doMultiplication (unit : Fin 2) (xSign ySign : Bool) : M Unit :=
  setRegs fun r =>
    let x : BitVec 32 := (r.x unit).setWidth 32
    let y : BitVec 32 := (r.y unit).setWidth 32
    let y := if r.ym == 1 || (r.ym == 3 && unit == 0) then y >>> 8
      else if r.ym == 2 || (r.ym == 3 && unit == 1) then y &&& 0xFF
      else y
    let x := if xSign then SignExtend 16 x else x
    let y := if ySign then SignExtend 16 y else y
    let p := x * y
    let psign := if xSign || ySign then p >>> 31 != 0 else false
    { r with p := Function.update r.p unit p, psign := Function.update r.psign unit psign }

/-- `AddSub` (lines 250–262): the 40-bit sum or difference, with the carry of bit 40 in
    `fc[0]` and the signed overflow of bit 39 in `fv`, latched into `flv`. -/
@[irreducible]
def addSub (a b : BitVec 64) (sub : Bool) : M (BitVec 64) := do
  let a := a &&& 0xFFFFFFFFFF
  let b := b &&& 0xFFFFFFFFFF
  let result := if sub then a - b else a + b
  let fc := (result >>> 40) &&& 1 != 0
  let b := if sub then ~~~b else b
  let fv := ((~~~(a ^^^ b) &&& (a ^^^ result)) >>> 39) &&& 1 != 0
  setRegs fun r => { r with fc := Function.update r.fc 0 fc, fv := fv, flv := r.flv || fv }
  return SignExtend 40 result

/-! ## Sums of the two products -/

/-- `ProductSumConfig`: whether a product is aligned (shifted down by 16) and subtracted. -/
structure ProductSumConfig where
  align : Bool
  sub : Bool

/-- `p_add`. -/
def pAdd : ProductSumConfig := ⟨false, false⟩
/-- `p_adda`. -/
def pAdda : ProductSumConfig := ⟨true, false⟩
/-- `p_sub`. -/
def pSub : ProductSumConfig := ⟨false, true⟩
/-- `p_suba`. -/
def pSuba : ProductSumConfig := ⟨true, true⟩

/-- `SumBase`, the value the two products are added to. -/
inductive SumBase
  | Zero | Acc | Sv | SvRnd
  deriving DecidableEq, Repr

/-- `ProductSum` (lines 274–313). The `switch` covers every `SumBase`, so its
    `default: throw` is unreachable. -/
@[irreducible]
def productSum (base : SumBase) (acc : RegName) (p0 p1 : ProductSumConfig) : M Unit := do
  let valueA ← productToBus40 .p0
  let valueB ← productToBus40 .p1
  let valueA := if p0.align then SignExtend 24 (valueA >>> 16) else valueA
  let valueB := if p1.align then SignExtend 24 (valueB >>> 16) else valueB
  let sv := (← regs).sv
  let valueC ← (match base with
    | .Zero => pure 0
    | .Acc => getAcc acc
    | .Sv => pure (SignExtend 32 (sv.setWidth 64 <<< 16))
    | .SvRnd => pure (SignExtend 32 (sv.setWidth 64 <<< 16) ||| 0x8000))
  let result ← addSub valueC valueA p0.sub
  let r ← regs
  let tempC := r.fc 0
  let tempV := r.fv
  let result ← addSub result valueB p1.sub
  setRegs fun r =>
    if p0.sub == p1.sub then { r with fc := Function.update r.fc 0 (r.fc 0 || tempC), fv := r.fv || tempV }
    else { r with fc := Function.update r.fc 0 (r.fc 0 ^^ tempC), fv := r.fv ^^ tempV }
  setAcc acc result false

/-! ## Multiply-accumulate -/

/-- The operations of the `Mul3`/`Mul2` operands (`MulOp`). -/
inductive MulOp
  | Mpy | Mpysu | Mac | Macsu | Maa | Maasu | Macus | Macuu
  deriving DecidableEq, Repr

/-- `MulGeneric` (lines 1430–1457): accumulate the previous product (shifted down by 16 for
    `maa`), then multiply again. -/
@[irreducible]
def mulGeneric (op : MulOp) (a : RegName) : M Unit := do
  if op != .Mpy && op != .Mpysu then
    let value ← getAcc a
    let product ← productToBus40 .p0
    let product := if op == .Maa || op == .Maasu then SignExtend 24 (product >>> 16) else product
    let result ← addSub value product false
    setAcc a result false
  match op with
  | .Mpy | .Mac | .Maa => doMultiplication 0 true true
  | .Mpysu | .Macsu | .Maasu => doMultiplication 0 false true
  | .Macus => doMultiplication 0 true false
  | .Macuu => doMultiplication 0 false false

/-! ## The `alm`/`alu` family -/

/-- The operations of the `Alm` and `Alu` operands (`AlmOp`). -/
inductive AlmOp
  | Or | And | Xor | Add | Tst0 | Tst1 | Cmp | Sub | Msu | Addh | Addl | Subh | Subl
  | Sqr | Sqra | Cmpu
  deriving DecidableEq, Repr

/-- The tail of `AlmOp::Sqr`, which `AlmOp::Sqra` falls through to. -/
@[irreducible]
def almSqr (a : BitVec 64) : M Unit := do
  setRegs fun r => { r with x := Function.update r.x 0 (a.setWidth 16),
                            y := Function.update r.y 0 (a.setWidth 16) }
  doMultiplication 0 true true

/-- `AlmGeneric` (lines 315–391). The `switch` covers every `AlmOp`, so its
    `default: throw` is unreachable. -/
@[irreducible]
def almGeneric (op : AlmOp) (a : BitVec 64) (b : RegName) : M Unit :=
  match op with
  | .Or => do setAccNoSaturation b (SignExtend 40 ((← getAcc b) ||| a))
  | .And => do setAccNoSaturation b (SignExtend 40 ((← getAcc b) &&& a))
  | .Xor => do setAccNoSaturation b (SignExtend 40 ((← getAcc b) ^^^ a))
  | .Tst0 => do
    let value := (← getAcc b) &&& 0xFFFF
    setRegs fun r => { r with fz := value &&& a == 0 }
  | .Tst1 => do
    let value := (← getAcc b) &&& 0xFFFF
    setRegs fun r => { r with fz := value &&& ~~~a == 0 }
  | .Cmp | .Cmpu | .Sub | .Subl | .Subh | .Add | .Addl | .Addh => do
    let value ← getAcc b
    let sub := !(op == .Add || op == .Addl || op == .Addh)
    let result ← addSub value a sub
    if op == .Cmp || op == .Cmpu then setAccFlag result else setAcc b result false
  | .Msu => do
    let value ← getAcc b
    let product ← productToBus40 .p0
    let result ← addSub value product true
    setAcc b result false
    setRegs fun r => { r with x := Function.update r.x 0 (a.setWidth 16) }
    doMultiplication 0 true true
  | .Sqra => do
    let value ← getAcc b
    let product ← productToBus40 .p0
    let result ← addSub value product false
    setAcc b result false
    almSqr a
  | .Sqr => almSqr a

/-- `ExtendOprandForAlm` (lines 393–405). -/
def extendOprandForAlm (op : AlmOp) (a : BitVec 16) : BitVec 64 :=
  match op with
  | .Cmp | .Sub | .Add => SignExtend 16 (a.setWidth 64)
  | .Addh | .Subh => SignExtend 32 (a.setWidth 64 <<< 16)
  | _ => a.setWidth 64

/-! ## The `alb` family -/

/-- The operations of the `Alb` operand (`AlbOp`). -/
inductive AlbOp
  | Set | Rst | Chng | Addv | Tst0 | Tst1 | Cmpv | Subv
  deriving DecidableEq, Repr

/-- The value of `GenericAlb` and the flags it sets besides `fz`. -/
@[irreducible]
def albResult (op : AlbOp) (a b : BitVec 16) : M (BitVec 16) :=
  match op with
  | .Set => do
    let result := a ||| b
    setRegs fun r => { r with fm := result >>> 15 != 0 }
    return result
  | .Rst => do
    let result := ~~~a &&& b
    setRegs fun r => { r with fm := result >>> 15 != 0 }
    return result
  | .Chng => do
    let result := a ^^^ b
    setRegs fun r => { r with fm := result >>> 15 != 0 }
    return result
  | .Addv => do
    let sum : BitVec 32 := a.setWidth 32 + b.setWidth 32
    let fm := (SignExtend 16 (b.setWidth 32) + SignExtend 16 (a.setWidth 32)) >>> 31 != 0
    setRegs fun r => { r with fc := Function.update r.fc 0 (sum >>> 16 != 0), fm := fm }
    return (sum &&& 0xFFFF).setWidth 16
  | .Tst0 => return if a &&& b != 0 then 1 else 0
  | .Tst1 => return if a &&& ~~~b != 0 then 1 else 0
  | .Cmpv | .Subv => do
    let diff : BitVec 32 := b.setWidth 32 - a.setWidth 32
    let fm := (SignExtend 16 (b.setWidth 32) - SignExtend 16 (a.setWidth 32)) >>> 31 != 0
    setRegs fun r => { r with fc := Function.update r.fc 0 (diff >>> 16 != 0), fm := fm }
    return (diff &&& 0xFFFF).setWidth 16

/-- `GenericAlb` (lines 495–540). The `switch` covers every `AlbOp`, so its
    `default: throw` is unreachable. -/
@[irreducible]
def genericAlb (op : AlbOp) (a b : BitVec 16) : M (BitVec 16) := do
  let result ← albResult op a b
  setRegs fun r => { r with fz := result == 0 }
  return result

/-- `IsAlbModifying` (lines 542–556). -/
def isAlbModifying : AlbOp → Bool
  | .Set | .Rst | .Chng | .Addv | .Subv => true
  | .Tst0 | .Tst1 | .Cmpv => false

/-! ## The helpers keep every sound footprint -/

section Keeps

variable {ops : RegisterMethods} {F : Footprint} (hF : Sound ops F)
include hF

namespace Sound

theorem doMultiplication (unit : Fin 2) (xSign ySign : Bool) :
    F.Keeps (doMultiplication unit xSign ySign) fun _ => True := by
  unfold Teakra.doMultiplication; exact hF.setRegs fun _ => ⟨rfl, rfl, rfl⟩

/-- `AddSub` returns a canonical word. -/
theorem addSub (a b : BitVec 64) (sub : Bool) : F.Keeps (addSub a b sub) F.Val := by
  unfold Teakra.addSub
  exact .seq (hF.setRegs fun _ => ⟨rfl, rfl, rfl⟩) fun _ =>
    .pure (Footprint.val_SignExtend _ (by decide) (by decide))

theorem productSum (base : SumBase) (acc : RegName) (p0 p1 : ProductSumConfig) :
    F.Keeps (productSum base acc p0 p1) fun _ => True := by
  unfold Teakra.productSum
  refine .seq (hF.productToBus40 _) fun _ => .seq (hF.productToBus40 _) fun _ =>
    .seq hF.regs fun _ => .seq (?_ : F.Keeps _ fun _ => True) fun _ => ?_
  · cases base
    · exact .triv
    · exact (hF.getAcc _).weaken fun _ _ => trivial
    · exact .triv
    · exact .triv
  · exact .bind (hF.addSub _ _ _) fun _ _ => .seq hF.regs fun _ =>
      .bind (hF.addSub _ _ _) fun _ h => .seq (hF.setRegs fun _ => by split <;> exact ⟨rfl, rfl, rfl⟩)
        fun _ => hF.setAcc _ h false

theorem mulGeneric (op : MulOp) (a : RegName) : F.Keeps (mulGeneric op a) fun _ => True := by
  unfold Teakra.mulGeneric
  refine .ite (fun _ => .seq (hF.getAcc _) fun _ => .seq (hF.productToBus40 _) fun _ =>
      .bind (hF.addSub _ _ _) fun _ h => .seq (hF.setAcc _ h false) fun _ => ?_)
    (fun _ => .seq .triv fun _ => ?_) <;>
  cases op <;> exact hF.doMultiplication _ _ _

theorem almSqr (a : BitVec 64) : F.Keeps (almSqr a) fun _ => True := by
  unfold Teakra.almSqr
  exact .seq (hF.setRegs fun _ => ⟨rfl, rfl, rfl⟩) fun _ => hF.doMultiplication _ _ _

theorem almGeneric (op : AlmOp) (a : BitVec 64) (b : RegName) :
    F.Keeps (almGeneric op a b) fun _ => True := by
  unfold Teakra.almGeneric
  split <;> first
    | exact hF.almSqr a
    | exact .seq (hF.getAcc b) fun _ =>
        hF.setAccNoSaturation b (Footprint.val_SignExtend _ (by decide) (by decide))
    | exact .seq (hF.getAcc b) fun _ => hF.setRegs fun _ => ⟨rfl, rfl, rfl⟩
    | exact .seq (hF.getAcc b) fun _ => .bind (hF.addSub _ _ _) fun _ h =>
        .ite (fun _ => hF.setAccFlag h) (fun _ => hF.setAcc b h false)
    | exact .seq (hF.getAcc b) fun _ => .seq (hF.productToBus40 _) fun _ =>
        .bind (hF.addSub _ _ _) fun _ h => .seq (hF.setAcc b h false) fun _ =>
          .seq (hF.setRegs fun _ => ⟨rfl, rfl, rfl⟩) fun _ => hF.doMultiplication _ _ _
    | exact .seq (hF.getAcc b) fun _ => .seq (hF.productToBus40 _) fun _ =>
        .bind (hF.addSub _ _ _) fun _ h => .seq (hF.setAcc b h false) fun _ => hF.almSqr a

theorem albResult (op : AlbOp) (a b : BitVec 16) :
    F.Keeps (albResult op a b) fun _ => True := by
  unfold Teakra.albResult
  split <;> first
    | exact .triv
    | exact .seq (hF.setRegs fun _ => ⟨rfl, rfl, rfl⟩) fun _ => .triv

theorem genericAlb (op : AlbOp) (a b : BitVec 16) :
    F.Keeps (genericAlb op a b) fun _ => True := by
  unfold Teakra.genericAlb
  exact .seq (hF.albResult op a b) fun _ => .seq (hF.setRegs fun _ => ⟨rfl, rfl, rfl⟩)
    fun _ => .triv

end Sound

end Keeps

end Teakra
