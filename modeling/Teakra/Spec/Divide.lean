import Teakra.Handlers.Mul
import Teakra.Run.Repeat
import Teakra.Spec.Bus

/-!
# `divs`: sixteen steps of conditional-subtract division

`divs(MemImm8 a, Ax b)` (`interpreter.h`, lines 2543–2552) is one step of a restoring
division of the accumulator by the word `D` at `a`: when the accumulator is at least
`D · 2^15` it subtracts that, shifts left and sets bit 0, and otherwise it only shifts left.
Run sixteen times, as `rep 15; divs` does, it divides a dividend `N < D · 2^16` by `D`.

On numbers, step `k` keeps the quotient bits found so far below the partial remainder:
after `k` steps the accumulator is `R · 2^k + q`, where `N = q · D · 2^(16 - k) + R` and
`R < D · 2^(16 - k)` (`DivInv`). At `k = 16` this is the remainder above the quotient.

Results:
* `wp_divs`: one `divs` computes `divStep` on the accumulator, for every accumulator below
  `2^38`.
* `divInv_divStep`, `divInv_iterate`: each step keeps `DivInv`.
* `divs_sixteen`: sixteen consecutive `divs` leave `(N mod D) · 2^16 + ⌊N / D⌋`, and every
  intermediate accumulator lies in `[0, D · 2^16)`.
-/

namespace Teakra

/-- The divisor `divs` reads: `LoadFromMemory(MemImm8 a)` (lines 1692–1694). -/
def divisor (a : BitVec 16) (s : Core) : Nat := (s.mem.data ((MemOperand.imm8 a).address s.regs)).toNat

theorem divisor_lt (a : BitVec 16) (s : Core) : divisor a s < 2 ^ 16 := BitVec.isLt _

/-- One step of `divs` on the accumulator as a number: subtract `D · 2^15` when the
    accumulator is at least that and set the new low bit, then double. -/
def divStep (D A : Nat) : Nat := if A < D * 2 ^ 15 then 2 * A else 2 * (A - D * 2 ^ 15) + 1

/-! ## One step -/

theorem toNat_shiftLeft_15 (d : BitVec 16) : (d.setWidth 64 <<< 15).toNat = d.toNat * 2 ^ 15 := by
  have := d.isLt
  rw [BitVec.toNat_shiftLeft, BitVec.toNat_setWidth, Nat.shiftLeft_eq,
    Nat.mod_eq_of_lt (by omega : d.toNat < 2 ^ 64), Nat.mod_eq_of_lt (by omega)]

/-- The sign test of `divs`: bit 63 of `db - (da << 15)` says `db < da · 2^15`. -/
theorem sub_sign_iff (x : BitVec 64) (d : BitVec 16) (hx : x.toNat < 2 ^ 38) :
    ((x - d.setWidth 64 <<< 15) >>> 63 != 0) = decide (x.toNat < d.toNat * 2 ^ 15) := by
  have := d.isLt
  rw [Bool.eq_iff_iff, bne_iff_ne, ne_eq, BitVec.toNat_eq, decide_eq_true_iff,
    BitVec.toNat_ushiftRight, BitVec.toNat_sub, toNat_shiftLeft_15, Nat.shiftRight_eq_div_pow,
    show (0 : BitVec 64).toNat = 0 from rfl]
  omega

/-- One `divs` computes `divStep` on the accumulator, and changes neither memory nor `page`. -/
theorem wp_divs (a : BitVec 16) (b : RegName) {i : Acc} (hb : accSlot b = some i) (s : Core)
    (hA : (s.regs.acc i).toNat < 2 ^ 38) :
    wp (divs a b)
      (fun _ t => t.regs.acc i = BitVec.ofNat 64 (divStep (divisor a s) (s.regs.acc i).toNat) ∧
        t.mem = s.mem ∧ t.regs.page = s.regs.page)
      (fun _ => False) s := by
  have hd := (s.mem.data ((MemOperand.imm8 a).address s.regs)).isLt
  simp only [divs, wp_bind, wp_loadFromMemory, wp_getAcc hb, sub_sign_iff _ _ hA, divStep, divisor]
  by_cases h : (s.regs.acc i).toNat < (s.mem.data ((MemOperand.imm8 a).address s.regs)).toNat * 2 ^ 15
  · have e : s.regs.acc i <<< 1 = BitVec.ofNat 64 (2 * (s.regs.acc i).toNat) := by
      apply BitVec.eq_of_toNat_eq
      rw [BitVec.toNat_shiftLeft, BitVec.toNat_ofNat, Nat.shiftLeft_eq]; omega
    rw [if_pos (decide_eq_true h), e, canon_ofNat (by omega),
      wp_setAccNoSaturation hb (canon_ofNat (by omega)), if_pos h]
    exact ⟨Function.update_same _ _ _, rfl, rfl⟩
  · have e : ((s.regs.acc i - (s.mem.data ((MemOperand.imm8 a).address s.regs)).setWidth 64 <<< 15)
        <<< 1) + 1 = BitVec.ofNat 64 (2 * ((s.regs.acc i).toNat -
          (s.mem.data ((MemOperand.imm8 a).address s.regs)).toNat * 2 ^ 15) + 1) := by
      apply BitVec.eq_of_toNat_eq
      rw [BitVec.toNat_add, BitVec.toNat_shiftLeft, BitVec.toNat_sub, toNat_shiftLeft_15,
        BitVec.toNat_ofNat, Nat.shiftLeft_eq, show (1 : BitVec 64).toNat = 1 from rfl]
      omega
    rw [if_neg (by simpa using h), e, canon_ofNat (by omega),
      wp_setAccNoSaturation hb (canon_ofNat (by omega)), if_neg h]
    exact ⟨Function.update_same _ _ _, rfl, rfl⟩

/-! ## The invariant of the division -/

/-- After `k` steps on the dividend `N`, the accumulator `A` holds the partial remainder `R`
    above the `k` quotient bits `q` found so far. -/
def DivInv (D N k A : Nat) : Prop :=
  ∃ q R, A = R * 2 ^ k + q ∧ N = q * (D * 2 ^ (16 - k)) + R ∧ R < D * 2 ^ (16 - k) ∧ q < 2 ^ k

theorem divInv_zero {D N : Nat} (h : N < D * 2 ^ 16) : DivInv D N 0 N :=
  ⟨0, N, by simp, by simp, h, by simp⟩

/-- The accumulator stays below `D · 2^16`. -/
theorem DivInv.lt {D N k A : Nat} (h : DivInv D N k A) (hk : k ≤ 16) : A < D * 2 ^ 16 := by
  obtain ⟨q, R, rfl, -, hR, hq⟩ := h
  have e : D * 2 ^ 16 = D * 2 ^ (16 - k) * 2 ^ k := by
    rw [Nat.mul_assoc, ← Nat.pow_add, Nat.sub_add_cancel hk]
  rw [e]
  calc R * 2 ^ k + q < R * 2 ^ k + 2 ^ k := by omega
    _ = (R + 1) * 2 ^ k := by ring
    _ ≤ D * 2 ^ (16 - k) * 2 ^ k := Nat.mul_le_mul_right _ hR

/-- One step keeps the invariant: it compares `R` with `D · 2^(15 - k)` and moves the next
    quotient bit into the accumulator. -/
theorem divInv_divStep {D N k A : Nat} (h : DivInv D N k A) (hk : k < 16) :
    DivInv D N (k + 1) (divStep D A) := by
  obtain ⟨q, R, rfl, hN, hR, hq⟩ := h
  obtain ⟨j, hj1⟩ : ∃ j, 16 - k = j + 1 := ⟨15 - k, by omega⟩
  have hj : 16 - (k + 1) = j := by omega
  have hD : D * 2 ^ 15 = D * 2 ^ j * 2 ^ k := by
    rw [Nat.mul_assoc, ← Nat.pow_add]; congr 2; omega
  unfold DivInv divStep
  rw [hj, hD]
  rw [hj1, Nat.pow_succ, ← Nat.mul_assoc] at hN hR
  by_cases hRM : R < D * 2 ^ j
  · have : R * 2 ^ k + q < D * 2 ^ j * 2 ^ k :=
      calc R * 2 ^ k + q < (R + 1) * 2 ^ k := by rw [Nat.add_mul]; omega
        _ ≤ D * 2 ^ j * 2 ^ k := Nat.mul_le_mul_right _ hRM
    rw [if_pos this]
    exact ⟨2 * q, R, by rw [Nat.pow_succ]; ring, by rw [hN]; ring, hRM,
      by rw [Nat.pow_succ]; omega⟩
  · have hle : D * 2 ^ j * 2 ^ k ≤ R * 2 ^ k + q :=
      (Nat.mul_le_mul_right _ (Nat.le_of_not_lt hRM)).trans (Nat.le_add_right _ _)
    rw [if_neg (Nat.not_lt_of_le hle)]
    obtain ⟨R', rfl⟩ : ∃ R', R = D * 2 ^ j + R' := ⟨R - D * 2 ^ j, by omega⟩
    refine ⟨2 * q + 1, R', ?_, by rw [hN]; ring, by omega, by rw [Nat.pow_succ]; omega⟩
    rw [Nat.add_mul, Nat.add_assoc, Nat.add_sub_cancel_left, Nat.pow_succ]
    ring

theorem divInv_iterate {D N j A : Nat} (h : DivInv D N j A) (n : Nat) (hn : j + n ≤ 16) :
    DivInv D N (j + n) ((divStep D)^[n] A) := by
  induction n generalizing j A with
  | zero => exact h
  | succ n ih =>
    rw [Function.iterate_succ_apply, show j + (n + 1) = j + 1 + n by omega]
    exact ih (divInv_divStep h (by omega)) (by omega)

/-- After sixteen steps the accumulator is the remainder above the quotient. -/
theorem DivInv.eq_sixteen {D N A : Nat} (h : DivInv D N 16 A) : A = N % D * 2 ^ 16 + N / D := by
  obtain ⟨q, R, rfl, hN, hR, -⟩ := h
  simp only [Nat.sub_self, Nat.pow_zero, Nat.mul_one] at hN hR
  have hD : 0 < D := by omega
  rw [hN, Nat.mul_comm q D, Nat.mul_add_mod, Nat.mod_eq_of_lt hR, Nat.mul_add_div hD,
    Nat.div_eq_of_lt hR, Nat.add_zero]

/-! ## Consecutive executions -/

/-- `n` consecutive `divs` from a state where the accumulator holds a value `A` with the
    invariant at step `j` compute `divStep` `n` times. -/
theorem wp_repeat_divs (a : BitVec 16) (b : RegName) {i : Acc} (hb : accSlot b = some i)
    (N : Nat) (n : Nat) : ∀ (s : Core) (j A : Nat), j + n ≤ 16 → DivInv (divisor a s) N j A →
      s.regs.acc i = BitVec.ofNat 64 A →
      wp (repeatHandler (divs a b) n)
        (fun _ t => t.regs.acc i = BitVec.ofNat 64 ((divStep (divisor a s))^[n] A))
        (fun _ => False) s := by
  induction n with
  | zero => intro s j A _ _ hA; exact hA
  | succ n ih =>
    intro s j A hj hinv hA
    have hlt : A < 2 ^ 38 := by
      have := hinv.lt (by omega)
      have := divisor_lt a s
      omega
    have hAn : (s.regs.acc i).toNat = A := by rw [hA, BitVec.toNat_ofNat]; omega
    rw [repeatHandler, wp_bind]
    refine wp_mono (wp_divs a b hb s (by omega)) (fun _ t ⟨ht, hm, hp⟩ => ?_) (fun _ h => h)
    have hdt : divisor a t = divisor a s := by
      simp only [divisor, MemOperand.address, hm, hp]
    rw [hAn] at ht
    have := ih t (j + 1) (divStep (divisor a s) A) (by omega) (by
      rw [hdt]; exact divInv_divStep hinv (by omega)) ht
    rwa [hdt, ← Function.iterate_succ_apply] at this

/-- Sixteen consecutive `divs` of a dividend `N < D · 2^16` by a word `D ≥ 1` leave the
    remainder `N mod D` in bits 31..16 and the quotient `⌊N / D⌋` in bits 15..0; after each
    step the accumulator lies in `[0, D · 2^16)`. -/
theorem divs_sixteen (a : BitVec 16) (b : RegName) {i : Acc} (hb : accSlot b = some i)
    (s : Core) (hN : (s.regs.acc i).toNat < divisor a s * 2 ^ 16) :
    (∀ k ≤ 16, wp (repeatHandler (divs a b) k)
      (fun _ t => (t.regs.acc i).toNat < divisor a s * 2 ^ 16) (fun _ => False) s) ∧
    wp (repeatHandler (divs a b) 16)
      (fun _ t => t.regs.acc i = BitVec.ofNat 64
        ((s.regs.acc i).toNat % divisor a s * 2 ^ 16 + (s.regs.acc i).toNat / divisor a s))
      (fun _ => False) s := by
  have h0 := divInv_zero hN
  have hA : s.regs.acc i = BitVec.ofNat 64 (s.regs.acc i).toNat := by simp
  have hd := divisor_lt a s
  refine ⟨fun k hk => ?_, ?_⟩
  · refine wp_mono (wp_repeat_divs a b hb _ k s 0 _ (by omega) h0 hA) (fun _ t ht => ?_)
      (fun _ h => h)
    have hlt := (divInv_iterate h0 k (by omega)).lt (by omega)
    rw [ht, BitVec.toNat_ofNat]
    omega
  · refine wp_mono (wp_repeat_divs a b hb _ 16 s 0 _ (by omega) h0 hA) (fun _ t ht => ?_)
      (fun _ h => h)
    rw [ht, (divInv_iterate h0 16 (by omega)).eq_sixteen]

/-- The dividend `100` in every accumulator and the divisor `7` in every data word. -/
def hundredBySeven : Core :=
  { regs := { (default : Core).regs with acc := fun _ => 100 },
    mem := { (default : Core).mem with data := fun _ => 7 } }

/-- `100 = 14 · 7 + 2`: sixteen `divs` leave `0x0002_000E`. -/
theorem divs_sixteen_hundred_by_seven :
    accSlot .a0 = some (.a 0) ∧
    (hundredBySeven.regs.acc (.a 0)).toNat < divisor 0 hundredBySeven * 2 ^ 16 ∧
    wp (repeatHandler (divs 0 .a0) 16) (fun _ t => t.regs.acc (.a 0) = 0x2000E) (fun _ => False)
      hundredBySeven :=
  ⟨rfl, by decide, wp_mono (divs_sixteen 0 .a0 rfl hundredBySeven (by decide)).2
    (fun _ _ h => by rw [h]; decide) (fun _ h => h)⟩

end Teakra
