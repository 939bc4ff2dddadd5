import Teakra.Register.State

/-!
# The interpreter monad

`Interpreter`'s methods mutate `regs` and `mem` and may `throw` a message: they are actions
of `M := StateT Core (Except String)`.

`wp m Q E s` is the weakest precondition of `m`: run from `s`, `m` returns `a` in `s'` with
`Q a s'`, or fails with a message `e` with `E e`. Its `@[simp]` lemmas, one per monadic
construct and one per primitive, turn a statement about a method into a verification
condition on the state.
-/

namespace Teakra

/-- The interpreter's actions on `Core`. -/
abbrev M := StateT Core (Except String)

/-- Weakest precondition of an action for the postcondition `Q` and the failure
    condition `E`. -/
def wp (m : M α) (Q : α → Core → Prop) (E : String → Prop) (s : Core) : Prop :=
  match m s with
  | .ok (a, s') => Q a s'
  | .error e => E e

section Wp

variable {α β : Type} {Q : β → Core → Prop} {E : String → Prop} {s : Core}

@[simp] theorem wp_pure (a : β) : wp (pure a : M β) Q E s = Q a s := rfl

@[simp] theorem wp_bind (m : M α) (f : α → M β) :
    wp (m >>= f) Q E s = wp m (fun a s' => wp (f a) Q E s') E s := by
  unfold wp
  show (match (do let (a, s) ← m s; f a s : Except String (β × Core)) with
    | .ok (a, s') => Q a s' | .error e => E e) = _
  cases m s <;> rfl

@[simp] theorem wp_throw (e : String) : wp (throw e : M β) Q E s = E e := rfl

@[simp] theorem wp_get {Q : Core → Core → Prop} : wp (get : M Core) Q E s = Q s s := rfl

@[simp] theorem wp_set {Q : PUnit → Core → Prop} (t : Core) :
    wp (set t : M PUnit) Q E s = Q ⟨⟩ t := rfl

@[simp] theorem wp_modify {Q : PUnit → Core → Prop} (f : Core → Core) :
    wp (modify f : M PUnit) Q E s = Q ⟨⟩ (f s) := rfl

@[simp] theorem wp_ite (c : Prop) [Decidable c] (m₁ m₂ : M β) :
    wp (if c then m₁ else m₂) Q E s = if c then wp m₁ Q E s else wp m₂ Q E s := by
  split <;> rfl

theorem wp_mono {m : M β} {Q Q' : β → Core → Prop} {E E' : String → Prop}
    (h : wp m Q E s) (hQ : ∀ a t, Q a t → Q' a t) (hE : ∀ e, E e → E' e) : wp m Q' E' s := by
  unfold wp at *
  split at h <;> simp_all

end Wp

/-! ## Primitive accesses -/

/-- `regs`, read. -/
@[irreducible]
def regs : M RegisterState := do return (← get).regs

/-- `regs`, updated by `f`. -/
@[irreducible]
def setRegs (f : RegisterState → RegisterState) : M Unit :=
  modify fun c => { c with regs := f c.regs }

/-- `mem.DataRead(address)`. -/
@[irreducible]
def dataRead (address : BitVec 16) : M (BitVec 16) := do return (← get).mem.data address

/-- `mem.DataWrite(address, value)`. -/
@[irreducible]
def dataWrite (address value : BitVec 16) : M Unit :=
  modify fun c => { c with mem := { c.mem with data := Function.update c.mem.data address value } }

/-- `mem.ProgramRead(address)`. -/
@[irreducible]
def programRead (address : BitVec 32) : M (BitVec 16) := do return (← get).mem.prog address

/-- `mem.ProgramWrite(address, value)`. -/
@[irreducible]
def programWrite (address : BitVec 32) (value : BitVec 16) : M Unit :=
  modify fun c => { c with mem := { c.mem with prog := Function.update c.mem.prog address value } }

section Prim

variable {β : Type} {Q : β → Core → Prop} {E : String → Prop} {s : Core}

@[simp] theorem wp_regs {Q : RegisterState → Core → Prop} : wp regs Q E s = Q s.regs s := by
  unfold regs; rfl

@[simp] theorem wp_setRegs {Q : Unit → Core → Prop} (f : RegisterState → RegisterState) :
    wp (setRegs f) Q E s = Q () { s with regs := f s.regs } := by
  unfold setRegs; rfl

@[simp] theorem wp_dataRead {Q : BitVec 16 → Core → Prop} (address : BitVec 16) :
    wp (dataRead address) Q E s = Q (s.mem.data address) s := by
  unfold dataRead; rfl

@[simp] theorem wp_dataWrite {Q : Unit → Core → Prop} (address value : BitVec 16) :
    wp (dataWrite address value) Q E s =
      Q () { s with mem := { s.mem with data := Function.update s.mem.data address value } } := by
  unfold dataWrite; rfl

@[simp] theorem wp_programRead {Q : BitVec 16 → Core → Prop} (address : BitVec 32) :
    wp (programRead address) Q E s = Q (s.mem.prog address) s := by
  unfold programRead; rfl

@[simp] theorem wp_programWrite {Q : Unit → Core → Prop} (address : BitVec 32)
    (value : BitVec 16) :
    wp (programWrite address value) Q E s =
      Q () { s with mem := { s.mem with prog := Function.update s.mem.prog address value } } := by
  unfold programWrite; rfl

end Prim

end Teakra
