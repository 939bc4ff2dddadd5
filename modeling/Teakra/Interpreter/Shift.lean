import Teakra.Interpreter.Arith

/-!
# The barrel shifter and the exponent detector

`ShiftBus40` (`interpreter.h`, lines 2204–2261) shifts the 40-bit pattern of an accumulator
value by a signed 16-bit amount, arithmetically (`s == 0`) or logically, sets `fc[0]` and
`fv`, saturates unless `sar[1]` is set, and stores the result. `Exp` (lines 2337–2349) counts
the redundant sign bits of a 40-bit value.

The shift itself, which only reads `s`, is the pure function `shift40`; `shiftBus40` adds the
flag writes, the check of `SetAccFlag` and the saturation.
-/

namespace Teakra

/-- What the shifter produces: the shifted word, the new `fc[0]`, and the new `fv`, or `none`
    where the shift leaves `fv` alone. -/
structure ShiftOut where
  value : BitVec 64
  fc : Bool
  fv : Option Bool

/-- The shifting part of `ShiftBus40` (lines 2207–2250), on the 40-bit pattern `value`. -/
def shift40 (s : Bool) (value : BitVec 64) (sv : BitVec 16) : ShiftOut :=
  if sv >>> 15 == 0 then
    -- left shift
    if 40 ≤ sv then ⟨0, false, if !s then some (value != 0) else none⟩
    else
      let fv := SignExtend 40 value != SignExtend (40 - sv.toNat) value
      let value := value <<< sv.toNat
      ⟨value, value &&& 1 <<< 40 != 0, if !s then some fv else none⟩
  else
    -- right shift
    let nsv := ~~~sv + 1
    let fv := if !s then some false else none
    if 40 ≤ nsv then
      if !s then
        let fc := (value >>> 39) &&& 1 != 0
        ⟨if fc then 0xFFFFFFFFFF else 0, fc, fv⟩
      else ⟨0, false, fv⟩
    else
      let fc := value &&& 1 <<< (nsv.toNat - 1) != 0
      let value := value >>> nsv.toNat
      ⟨if !s then SignExtend (40 - nsv.toNat) value else value, fc, fv⟩

/-- `ShiftBus40` (lines 2204–2261). -/
@[irreducible]
def shiftBus40 (value : BitVec 64) (sv : BitVec 16) (dest : RegName) : M Unit := do
  let value := value &&& 0xFFFFFFFFFF
  let originalSign := value >>> 39
  let out := shift40 (← regs).s value sv
  setRegs fun r => { r with fc := Function.update r.fc 0 out.fc, fv := out.fv.getD r.fv,
                            flv := r.flv || out.fv == some true }
  let value := SignExtend 40 out.value
  setAccFlag value
  let r ← regs
  if !r.s && !r.sar 1 && (r.fv || SignExtend 32 value != value) then
    setRegs fun r => { r with fls := true }
    setAccSimple dest (if originalSign == 1 then 0xFFFFFFFF80000000 else 0x7FFFFFFF)
  else setAccSimple dest value

/-- The loop of `Exp`: how many of the bits `bit`, `bit - 1`, ..., `0` of `value` equal
    `sign` before the first that differs. -/
def expCount (value : BitVec 64) (sign : Bool) : Nat → Nat
  | 0 => if value.getLsbD 0 == sign then 1 else 0
  | bit + 1 => if value.getLsbD (bit + 1) == sign then expCount value sign bit + 1 else 0

/-- `Exp` (lines 2337–2349): the number of bits below bit 39 that repeat the sign, minus 8. -/
def exp (value : BitVec 64) : BitVec 16 :=
  let sign := (value >>> 39) &&& 1 != 0
  BitVec.ofNat 16 (expCount value sign 38) - 8

/-- The two saturation bounds of the accumulator path are canonical. -/
theorem canon_saturationBound (c : Bool) :
    Canon (if c then 0xFFFFFFFF80000000 else 0x7FFFFFFF) := by
  cases c
  · exact canon_of_toNat_lt (by decide)
  · exact canon_iff_toNat.2 (.inr (by decide))

section Keeps

variable {ops : RegisterMethods} {F : Footprint} (hF : Sound ops F)
include hF

/-- `ShiftBus40` stores a sign-extended value or a saturation bound. -/
theorem Sound.shiftBus40 (value : BitVec 64) (sv : BitVec 16) (dest : RegName) :
    F.Keeps (shiftBus40 value sv dest) fun _ => True := by
  unfold Teakra.shiftBus40
  exact .seq hF.regs fun _ => .seq (hF.setRegs fun _ => ⟨rfl, rfl, rfl⟩) fun _ =>
    .seq (hF.setAccFlag (Footprint.val_SignExtend _ (by decide) (by decide))) fun _ =>
      .seq hF.regs fun _ => .ite
        (fun _ => .seq (hF.setRegs fun _ => ⟨rfl, rfl, rfl⟩) fun _ =>
          hF.setAccSimple dest (.of_canon (canon_saturationBound _)))
        (fun _ => hF.setAccSimple dest (Footprint.val_SignExtend _ (by decide) (by decide)))

end Keeps

end Teakra
