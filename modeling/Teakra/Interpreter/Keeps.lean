import Teakra.Interpreter.Bus

/-!
# Footprints: invariants of the register file kept by the interpreter's actions

Two invariants of `RegisterState` must hold across every handler of `Interpreter`: the
accumulators stay canonical (spec §3), and the loop counters `bcn`/`lp` stay consistent. Both
look at only a few fields of the state. A `Footprint` names such an invariant, `Keeps F m P` says that the
action `m` keeps it and returns a value satisfying `P`, and `Sound ops F` lists what the
primitive actions must respect for the rules below to hold. Every handler is proved to keep
every sound footprint once, by a derivation that follows its `do`-block.
-/

namespace Teakra

/-- The message of the check in `SetAccFlag`. -/
def checkMessage : String := "remove this check later"

/-- An invariant `good` that depends only on the accumulators, `bcn` and `lp`; `canonical`
    says whether values stored into accumulators must be canonical for it; `ok` lists the
    messages an action may fail with. -/
structure Footprint where
  good : Core → Prop
  canonical : Prop
  ok : String → Prop

namespace Footprint

variable (F : Footprint)

/-- A value the footprint lets into an accumulator. -/
def Val (v : BitVec 64) : Prop := F.canonical → Canon v

/-- From every `good` state, `m` fails with an allowed message, or returns a value with `P`
    in a `good` state. -/
def Keeps {α : Type} (m : M α) (P : α → Prop) : Prop :=
  ∀ s, F.good s → wp m (fun a t => F.good t ∧ P a) F.ok s

end Footprint

/-- What a footprint must respect: it depends on the accumulators, and on `bcn` and `lp`
    at most through the loop invariant; canonical values keep it; it holds of the values it
    reads back; the only failure it may forbid is the check of `SetAccFlag`, and only when it
    demands canonical values. The methods of `register.h` are assumed `Framed`, and `Set<T>`,
    which may write an accumulator's extension bits, to keep the invariant. -/
structure Sound (ops : RegisterMethods) (F : Footprint) : Prop where
  methods : ops.Framed
  set : ∀ (s : Core) p v, F.good s → F.good { s with regs := ops.Set p v s.regs }
  step : ∀ s t : Core, t.regs.acc = s.regs.acc → (s.regs.LoopInv → t.regs.LoopInv) →
    F.good s → F.good t
  write : ∀ (s : Core) i v, F.Val v → F.good s →
    F.good { s with regs := { s.regs with acc := Function.update s.regs.acc i v } }
  read : ∀ s i, F.good s → F.Val (s.regs.acc i)
  check : ¬ F.canonical → F.ok checkMessage
  fail : ∀ e, e ≠ checkMessage → F.ok e

/-! ## Values a footprint admits -/

namespace Footprint

variable {F : Footprint}

theorem Val.of_canon {v : BitVec 64} (h : Canon v) : F.Val v := fun _ => h

@[simp] theorem val_SignExtend (v : BitVec 64) {b : Nat} (h : 0 < b) (hb : b ≤ 40) :
    F.Val (SignExtend b v) :=
  .of_canon (canon_SignExtend v h hb)

theorem Val.or {x y : BitVec 64} (hx : F.Val x) (hy : F.Val y) : F.Val (x ||| y) :=
  fun c => (hx c).or (hy c)

theorem Val.and {x y : BitVec 64} (hx : F.Val x) (hy : F.Val y) : F.Val (x &&& y) :=
  fun c => (hx c).and (hy c)

theorem Val.not {x : BitVec 64} (hx : F.Val x) : F.Val (~~~x) := fun c => (hx c).not

theorem Val.saturateAccUnconditionalNoFlag {v : BitVec 64} (hv : F.Val v) :
    F.Val (saturateAccUnconditionalNoFlag v) := by
  unfold Teakra.saturateAccUnconditionalNoFlag
  split
  · split
    · exact .of_canon (canon_iff_toNat.2 (.inr (by decide)))
    · exact .of_canon (canon_of_toNat_lt (by decide))
  · exact hv

end Footprint

/-- Every shift of the product bus is a canonical word. -/
theorem canon_productBus40 (r : RegisterState) (unit : Fin 2) : Canon (productBus40 r unit) := by
  have hv : Canon ((r.p unit).setWidth 64 ||| ((if r.psign unit then 1#64 else 0#64) <<< 32)) :=
    (canon_setWidth_32 _).or (canon_of_toNat_lt (by split <;> decide))
  unfold productBus40
  split_ifs <;> simp [hv]

/-! ## Rules for the monad -/

namespace Footprint.Keeps

variable {F : Footprint} {α β : Type}

theorem bind {m : M α} {f : α → M β} {P : α → Prop} {Q : β → Prop}
    (hm : F.Keeps m P) (hf : ∀ a, P a → F.Keeps (f a) Q) : F.Keeps (m >>= f) Q := by
  intro s hs
  rw [wp_bind]
  exact wp_mono (hm s hs) (fun a t ⟨ht, ha⟩ => hf a ha t ht) (fun _ h => h)

/-- `bind` when the continuation does not need the value. -/
theorem seq {m : M α} {f : α → M β} {P : α → Prop} {Q : β → Prop}
    (hm : F.Keeps m P) (hf : ∀ a, F.Keeps (f a) Q) : F.Keeps (m >>= f) Q :=
  hm.bind fun a _ => hf a

theorem pure {a : α} {P : α → Prop} (h : P a) : F.Keeps (Pure.pure a : M α) P :=
  fun _ hs => ⟨hs, h⟩

theorem triv {a : α} : F.Keeps (Pure.pure a : M α) fun _ => True := pure trivial

theorem ite {c : Prop} [Decidable c] {m₁ m₂ : M α} {P : α → Prop}
    (h₁ : c → F.Keeps m₁ P) (h₂ : ¬ c → F.Keeps m₂ P) :
    F.Keeps (if c then m₁ else m₂) P := by
  split
  · exact h₁ ‹_›
  · exact h₂ ‹_›

/-- A statement `if (c) m;` in the middle of a `do`-block, whose continuation is `k`. -/
theorem «when» {c : Prop} [Decidable c] {m : M Unit} {k : Unit → M β} {Q : β → Prop}
    (hm : c → F.Keeps m fun _ => True) (hk : F.Keeps (k ()) Q) :
    F.Keeps (if c then m >>= k else Pure.pure () >>= k) Q :=
  ite (fun h => (hm h).seq fun _ => hk) (fun _ => triv.seq fun _ => hk)

theorem dataRead (a : BitVec 16) : F.Keeps (dataRead a) fun _ => True := fun _ hs => by
  rw [wp_dataRead]; exact ⟨hs, trivial⟩

theorem programRead (a : BitVec 32) : F.Keeps (programRead a) fun _ => True := fun _ hs => by
  rw [wp_programRead]; exact ⟨hs, trivial⟩

/-- An update of the register file that keeps the invariant. -/
theorem setRegs {f : RegisterState → RegisterState}
    (h : ∀ s : Core, F.good s → F.good { s with regs := f s.regs }) :
    F.Keeps (setRegs f) fun _ => True := fun s hs => by
  rw [wp_setRegs]; exact ⟨h s hs, trivial⟩

theorem weaken {m : M α} {P Q : α → Prop} (h : F.Keeps m P) (hPQ : ∀ a, P a → Q a) :
    F.Keeps m Q :=
  fun s hs => wp_mono (h s hs) (fun _ _ ⟨ht, ha⟩ => ⟨ht, hPQ _ ha⟩) (fun _ h => h)

end Footprint.Keeps

section Primitives

variable {ops : RegisterMethods} {F : Footprint} (hF : Sound ops F)
include hF

namespace Sound

theorem throw {α : Type} {e : String} (h : e ≠ checkMessage) {P : α → Prop} :
    F.Keeps (throw e : M α) P :=
  fun _ _ => hF.fail e h

/-- `regs` returns the register file of a `good` state. -/
theorem regs : F.Keeps regs fun r => ∀ i, F.Val (r.acc i) := fun s hs => by
  rw [wp_regs]; exact ⟨hs, fun i => hF.read s i hs⟩

/-- A state change that leaves the accumulators and the loop counters alone. -/
theorem frame (s t : Core) (hacc : t.regs.acc = s.regs.acc) (hbcn : t.regs.bcn = s.regs.bcn)
    (hlp : t.regs.lp = s.regs.lp) : F.good s → F.good t :=
  hF.step s t hacc fun h => by unfold RegisterState.LoopInv; rw [hbcn, hlp]; exact h

/-- An update of the register file that leaves the accumulators, `bcn` and `lp` alone. -/
theorem setRegs {f : RegisterState → RegisterState} (h : Frames f) :
    F.Keeps (setRegs f) fun _ => True :=
  .setRegs fun s => hF.frame s _ (h s.regs).1 (h s.regs).2.1 (h s.regs).2.2

theorem dataWrite (a v : BitVec 16) : F.Keeps (dataWrite a v) fun _ => True := fun s hs => by
  rw [wp_dataWrite]; exact ⟨hF.frame s _ rfl rfl rfl hs, trivial⟩

theorem programWrite (a : BitVec 32) (v : BitVec 16) :
    F.Keeps (programWrite a v) fun _ => True := fun s hs => by
  rw [wp_programWrite]; exact ⟨hF.frame s _ rfl rfl rfl hs, trivial⟩

theorem index4 (i : BitVec 16) : F.Keeps (index4 i) fun _ => True := by
  unfold Teakra.index4
  split
  · exact .triv
  · exact hF.throw (by decide)

theorem lcIndex : F.Keeps lcIndex fun _ => True := by
  unfold Teakra.lcIndex; exact hF.regs.seq fun _ => hF.index4 _

theorem accOf (n : RegName) : F.Keeps (accOf n) fun _ => True := by
  unfold Teakra.accOf
  split
  · exact .triv
  · exact hF.throw (by decide)

theorem getAcc (n : RegName) : F.Keeps (getAcc n) F.Val := by
  unfold Teakra.getAcc; exact (hF.accOf n).seq fun i => hF.regs.bind fun _ hr => .pure (hr i)

theorem saturateAccUnconditional {v : BitVec 64} (hv : F.Val v) :
    F.Keeps (saturateAccUnconditional v) F.Val := by
  unfold Teakra.saturateAccUnconditional; exact .when (fun _ => hF.setRegs fun _ => ⟨rfl, rfl, rfl⟩) (.pure (hv.saturateAccUnconditionalNoFlag))

theorem saturateAcc {v : BitVec 64} (hv : F.Val v) (storing : Bool) :
    F.Keeps (saturateAcc v storing) F.Val := by
  unfold Teakra.saturateAcc; exact hF.regs.seq fun _ => .ite (fun _ => hF.saturateAccUnconditional hv) (fun _ => .pure hv)

theorem saturateAccNoFlag {v : BitVec 64} (hv : F.Val v) (storing : Bool) :
    F.Keeps (saturateAccNoFlag v storing) F.Val := by
  unfold Teakra.saturateAccNoFlag; exact hF.regs.seq fun _ => .ite (fun _ => .pure hv.saturateAccUnconditionalNoFlag) (fun _ => .pure hv)

theorem productUnit (reg : RegName) : F.Keeps (productUnit reg) fun _ => True := by
  unfold Teakra.productUnit
  split
  · exact .triv
  · exact .triv
  · exact hF.throw (by decide)

theorem productToBus32NoShift (reg : RegName) :
    F.Keeps (productToBus32NoShift reg) fun _ => True := by
  unfold Teakra.productToBus32NoShift; exact (hF.productUnit reg).seq fun _ => hF.regs.seq fun _ => .triv

theorem productToBus40 (reg : RegName) : F.Keeps (productToBus40 reg) F.Val := by
  unfold Teakra.productToBus40; exact (hF.productUnit reg).seq fun _ => hF.regs.seq fun _ => .pure (.of_canon (canon_productBus40 _ _))

theorem productFromBus32 (reg : RegName) (v : BitVec 32) :
    F.Keeps (productFromBus32 reg v) fun _ => True := by
  unfold Teakra.productFromBus32; exact (hF.productUnit reg).seq fun _ => hF.setRegs fun _ => ⟨rfl, rfl, rfl⟩

/-- The check of `SetAccFlag` passes on every value the footprint admits. -/
theorem setAccFlag {v : BitVec 64} (hv : F.Val v) : F.Keeps (setAccFlag v) fun _ => True := by
  unfold Teakra.setAccFlag
  split
  · intro s _
    by_cases hc : F.canonical
    · exact absurd (hv hc).symm ‹_›
    · exact hF.check hc
  · exact Footprint.Keeps.seq .triv fun _ => hF.setRegs fun _ => ⟨rfl, rfl, rfl⟩

/-- `SetAcc_Simple` of an admitted value. -/
theorem setAccSimple (n : RegName) {v : BitVec 64} (hv : F.Val v) :
    F.Keeps (setAccSimple n v) fun _ => True := by
  unfold Teakra.setAccSimple
  exact (hF.accOf n).seq fun i => .setRegs fun s => hF.write s i v hv

theorem setAcc (n : RegName) {v : BitVec 64} (hv : F.Val v) (noSaturation : Bool) :
    F.Keeps (setAcc n v noSaturation) fun _ => True := by
  unfold Teakra.setAcc; exact (hF.setAccFlag hv).seq fun _ => .ite
    (fun _ => (hF.saturateAcc hv true).bind fun _ h => hF.setAccSimple n h)
    (fun _ => hF.setAccSimple n hv)

theorem setAccNoSaturation (n : RegName) {v : BitVec 64} (hv : F.Val v) :
    F.Keeps (setAccNoSaturation n v) fun _ => True := by
  unfold Teakra.setAccNoSaturation; exact hF.setAcc n hv true

theorem counterAcc (n : RegName) : F.Keeps (counterAcc n) fun _ => True := by
  unfold Teakra.counterAcc
  split <;> first | exact .triv | exact hF.throw (by decide)

theorem regToBus16 (reg : RegName) (sat : Bool) :
    F.Keeps (regToBus16 ops reg sat) fun _ => True := by
  unfold Teakra.regToBus16
  refine hF.regs.seq fun _ => ?_
  split <;> first
    | exact .triv
    | exact (hF.getAcc _).seq fun _ => .triv
    | exact hF.lcIndex.seq fun _ => .triv
    | exact .ite (fun _ => (hF.getAcc _).bind fun _ h => (hF.saturateAcc h false).seq
        fun _ => .triv) (fun _ => (hF.getAcc _).seq fun _ => .triv)
    | exact hF.throw (by decide)

theorem regFromBus16 (reg : RegName) (v : BitVec 16) :
    F.Keeps (regFromBus16 ops reg v) fun _ => True := by
  unfold Teakra.regFromBus16
  split <;> first
    | exact hF.setRegs fun _ => ⟨rfl, rfl, rfl⟩
    | exact .setRegs (hF.set · _ v)
    | exact hF.setAcc _ (Footprint.val_SignExtend _ (by decide) (by decide)) false
    | exact hF.setAcc _ (.of_canon (canon_setWidth_16 v)) false
    | exact hF.lcIndex.seq fun _ => hF.setRegs fun _ => ⟨rfl, rfl, rfl⟩
    | exact hF.throw (by decide)

end Sound

end Primitives

end Teakra
