import Mathlib

/-!
# Sign extension and the canonical accumulator bus

`SignExtend` and `BitReverse` are the repository's bit helpers (`common_types.h` and
`bit.h`), which are not in `src/`. They are modelled from the spec: "SE(n,v) sign-extends the
low n bits of v to the target width" (§3) and "bitreverse16(rU)" (§8).

The accumulators are 40-bit values held in 64-bit words "always sign-extended to 40"
(glossary, *Bus40*). `Canon v` says that `v` is such a word.

* `getLsbD_SignExtend`, `toNat_SignExtend`: the bits and the value of `SignExtend b v`.
* `canon_iff_getLsbD`, `canon_iff_toNat`: `Canon v` says bits 40..63 repeat bit 39, or
  equivalently that `v` is below `2^39` or at least `2^64 - 2^39`.
* `canon_SignExtend`, `Canon.or`, `Canon.and`, `Canon.not`, `canon_setWidth_16`,
  `canon_setWidth_32`: the ways the interpreter builds canonical words.
-/

namespace Teakra

/-- Modelled from the spec: `SignExtend<b>(v)` (also the two-argument
    `SignExtend(v, b)`) of `common_types.h` keeps the low `b` bits of `v` and copies bit
    `b - 1` into the bits above them. -/
def SignExtend (b : Nat) (v : BitVec w) : BitVec w := (v.setWidth b).signExtend w

/-- Modelled from the spec: `BitReverse` of `bit.h` reverses the 16 bits of a word
    ("bitreverse16", §8). -/
def BitReverse (v : BitVec 16) : BitVec 16 :=
  (List.range 16).foldl (fun acc i => if v.getLsbD i then acc ||| (1#16 <<< (15 - i)) else acc) 0

theorem getLsbD_SignExtend {b w : Nat} (v : BitVec w) (h : 0 < b) (i : Nat) :
    (SignExtend b v).getLsbD i =
      (decide (i < w) && if i < b then v.getLsbD i else v.getLsbD (b - 1)) := by
  unfold SignExtend
  rw [BitVec.getLsbD_signExtend, BitVec.msb_eq_getLsbD_last]
  simp only [BitVec.getLsbD_setWidth]
  by_cases hi : i < b
  · simp [hi]
  · simp [hi, show b - 1 < b by omega]

theorem eq_of_getLsbD_lt {w : Nat} {x y : BitVec w} (h : ∀ i < w, x.getLsbD i = y.getLsbD i) :
    x = y :=
  BitVec.eq_of_getLsbD_eq fun i => h i.val i.isLt

theorem SignExtend_idem {w b : Nat} (v : BitVec w) (h : 0 < b) :
    SignExtend b (SignExtend b v) = SignExtend b v :=
  eq_of_getLsbD_lt fun i hi => by
    rw [getLsbD_SignExtend _ h, getLsbD_SignExtend _ h, getLsbD_SignExtend _ h]
    by_cases hib : i < b
    · simp [hib, hi]
    · simp [hib, show b - 1 < w by omega, show b - 1 < b by omega]

/-- `SignExtend b` reads only the low `b` bits. -/
theorem SignExtend_congr_getLsbD {w b : Nat} {x y : BitVec w} (hb : 0 < b)
    (h : ∀ i < b, x.getLsbD i = y.getLsbD i) : SignExtend b x = SignExtend b y :=
  eq_of_getLsbD_lt fun i _ => by
    rw [getLsbD_SignExtend _ hb, getLsbD_SignExtend _ hb]
    split_ifs with hi
    · rw [h i hi]
    · rw [h (b - 1) (by omega)]

/-- The value of a sign extension: the low `b` bits, plus `2^w - 2^b` when bit `b - 1` is
    set. -/
theorem toNat_SignExtend {b w : Nat} (v : BitVec w) (h : 0 < b) (hb : b ≤ w) :
    (SignExtend b v).toNat =
      if v.toNat % 2 ^ b < 2 ^ (b - 1) then v.toNat % 2 ^ b
      else 2 ^ w - 2 ^ b + v.toNat % 2 ^ b := by
  have hw : 2 ^ b ≤ 2 ^ w := Nat.pow_le_pow_right (by decide) hb
  have hlt : v.toNat % 2 ^ b < 2 ^ b := Nat.mod_lt _ (Nat.two_pow_pos b)
  have hbb : 2 ^ b = 2 * 2 ^ (b - 1) := by
    rw [← Nat.pow_succ']; congr 1; omega
  unfold SignExtend
  cases hm : (v.setWidth b).msb
  · rw [BitVec.signExtend_eq_not_setWidth_not_of_msb_false hm]
    rw [BitVec.msb_eq_decide] at hm
    simp only [BitVec.toNat_setWidth, decide_eq_false_iff_not, Nat.not_le] at hm ⊢
    rw [Nat.mod_eq_of_lt (by omega), if_pos hm]
  · rw [BitVec.signExtend_eq_not_setWidth_not_of_msb_true hm]
    rw [BitVec.msb_eq_decide] at hm
    simp only [BitVec.toNat_setWidth, decide_eq_true_eq, BitVec.toNat_not] at hm ⊢
    rw [if_neg (by omega), Nat.mod_eq_of_lt (by omega)]
    omega

/-! ## Canonical 40-bit words -/

/-- A 64-bit word that is the sign extension of its low 40 bits: the form the interpreter
    keeps its accumulators in ("The upper 24 bits are always sign extension"). -/
def Canon (v : BitVec 64) : Prop := SignExtend 40 v = v

instance : DecidablePred Canon := fun _ => inferInstanceAs (Decidable (_ = _))

theorem canon_iff_getLsbD {v : BitVec 64} :
    Canon v ↔ ∀ i, 40 ≤ i → i < 64 → v.getLsbD i = v.getLsbD 39 := by
  unfold Canon
  constructor
  · intro h i h1 h2
    have hi := congrArg (·.getLsbD i) h
    simp only [getLsbD_SignExtend v (by decide : 0 < 40)] at hi
    simp [h2, show ¬ i < 40 by omega] at hi
    exact hi.symm
  · intro h
    apply BitVec.eq_of_getLsbD_eq
    intro i
    rw [getLsbD_SignExtend v (by decide)]
    simp only [Fin.is_lt, decide_True, Bool.true_and]
    split
    · rfl
    · exact (h i (by omega) i.2).symm

theorem canon_iff_toNat {v : BitVec 64} :
    Canon v ↔ v.toNat < 2 ^ 39 ∨ 2 ^ 64 - 2 ^ 39 ≤ v.toNat := by
  unfold Canon
  rw [BitVec.toNat_eq, toNat_SignExtend v (by decide) (by decide)]
  have := v.isLt
  split <;> omega

@[simp] theorem canon_SignExtend {b : Nat} (v : BitVec 64) (h : 0 < b) (hb : b ≤ 40) :
    Canon (SignExtend b v) := by
  rw [canon_iff_getLsbD]
  intro i h1 h2
  rw [getLsbD_SignExtend v h, getLsbD_SignExtend v h]
  by_cases hb' : b = 40
  · subst hb'; simp [show ¬ i < 40 by omega, h2]
  · simp [show ¬ i < b by omega, show ¬ 39 < b by omega, h2]

@[simp] theorem Canon.or {a b : BitVec 64} (ha : Canon a) (hb : Canon b) : Canon (a ||| b) := by
  rw [canon_iff_getLsbD] at *
  intro i h1 h2
  simp [ha i h1 h2, hb i h1 h2]

@[simp] theorem Canon.and {a b : BitVec 64} (ha : Canon a) (hb : Canon b) :
    Canon (a &&& b) := by
  rw [canon_iff_getLsbD] at *
  intro i h1 h2
  simp [ha i h1 h2, hb i h1 h2]

@[simp] theorem Canon.not {a : BitVec 64} (ha : Canon a) : Canon (~~~a) := by
  rw [canon_iff_getLsbD] at *
  intro i h1 h2
  simp [ha i h1 h2, h2]

theorem canon_of_toNat_lt {v : BitVec 64} (h : v.toNat < 2 ^ 39) : Canon v :=
  canon_iff_toNat.2 (.inl h)

@[simp] theorem canon_setWidth_16 (x : BitVec 16) : Canon (x.setWidth 64) :=
  canon_of_toNat_lt (by have := x.isLt; simp; omega)

@[simp] theorem canon_setWidth_32 (x : BitVec 32) : Canon (x.setWidth 64) :=
  canon_of_toNat_lt (by have := x.isLt; simp; omega)

/-- Masking with a non-negative canonical word gives a canonical word. -/
theorem canon_and_of_toNat_lt (x : BitVec 64) {m : BitVec 64} (hm : m.toNat < 2 ^ 39) :
    Canon (x &&& m) :=
  canon_of_toNat_lt (by rw [BitVec.toNat_and]; exact Nat.lt_of_le_of_lt Nat.and_le_right hm)

@[simp] theorem canon_ofNat {n : Nat} (h : n < 2 ^ 39) : Canon (BitVec.ofNat 64 n) :=
  canon_of_toNat_lt (by simp; omega)

/-! ## Words that fit in fewer bits -/

/-- `v` is the 64-bit two's complement of an integer in `[-2^k, 2^k)`. -/
def Fits (k : Nat) (v : BitVec 64) : Prop := v.toNat < 2 ^ k ∨ 2 ^ 64 - 2 ^ k ≤ v.toNat

theorem canon_iff_fits {v : BitVec 64} : Canon v ↔ Fits 39 v := canon_iff_toNat

theorem Fits.mono {k l : Nat} {v : BitVec 64} (h : Fits k v) (hkl : k ≤ l) : Fits l v := by
  have := Nat.pow_le_pow_right (by decide : 0 < 2) hkl
  unfold Fits at *; omega

theorem Fits.canon {k : Nat} {v : BitVec 64} (h : Fits k v) (hk : k ≤ 39) : Canon v :=
  canon_iff_fits.2 (h.mono hk)

theorem fits_SignExtend {b : Nat} (x : BitVec 64) (h : 0 < b) (hb : b ≤ 64) :
    Fits (b - 1) (SignExtend b x) := by
  have hbb : 2 ^ b = 2 * 2 ^ (b - 1) := by rw [← Nat.pow_succ']; congr 1; omega
  have := Nat.mod_lt x.toNat (Nat.two_pow_pos b)
  unfold Fits; rw [toNat_SignExtend x h hb]
  split <;> omega

theorem Fits.add {k : Nat} {a b : BitVec 64} (ha : Fits k a) (hb : Fits k b) (hk : k < 63) :
    Fits (k + 1) (a + b) := by
  have h1 : 2 ^ (k + 1) = 2 * 2 ^ k := Nat.pow_succ'
  have h2 : 2 ^ k ≤ 2 ^ 62 := Nat.pow_le_pow_right (by decide) (by omega)
  have := a.isLt; have := b.isLt
  unfold Fits at *; rw [BitVec.toNat_add]; omega

theorem Fits.sub {k : Nat} {a b : BitVec 64} (ha : Fits k a) (hb : Fits k b) (hk : k < 63) :
    Fits (k + 1) (a - b) := by
  have h1 : 2 ^ (k + 1) = 2 * 2 ^ k := Nat.pow_succ'
  have h2 : 2 ^ k ≤ 2 ^ 62 := Nat.pow_le_pow_right (by decide) (by omega)
  have := a.isLt; have := b.isLt
  unfold Fits at *; rw [BitVec.toNat_sub]; omega

theorem Fits.shiftLeft_16 {k : Nat} {a : BitVec 64} (ha : Fits k a) (hk : k + 16 ≤ 63) :
    Fits (k + 16) (a <<< 16) := by
  have h1 : 2 ^ (k + 16) = 2 ^ k * 65536 := Nat.pow_add 2 k 16
  have h2 : 2 ^ k ≤ 2 ^ 47 := Nat.pow_le_pow_right (by decide) (by omega)
  have := a.isLt
  unfold Fits at *; rw [BitVec.toNat_shiftLeft, Nat.shiftLeft_eq]; omega

/-- A zero-extended 16-bit word shifted into bits 16..31 is canonical. -/
@[simp] theorem canon_setWidth_16_shiftLeft_16 (x : BitVec 16) : Canon (x.setWidth 64 <<< 16) :=
  (Fits.shiftLeft_16 (show Fits 16 (x.setWidth 64) from .inl (by simp; omega)) (by decide)).canon
    (by decide)

/-- A byte sign-extended to 32 bits and shifted into bits 32..63 is canonical. -/
theorem canon_SignExtend_8_shiftLeft_32 (x : BitVec 32) :
    Canon ((SignExtend 8 x).setWidth 64 <<< 32) := by
  rw [canon_iff_getLsbD]
  intro i h1 h2
  simp only [BitVec.getLsbD_shiftLeft, BitVec.getLsbD_setWidth, getLsbD_SignExtend x
    (by decide : 0 < 8)]
  simp [show i < 64 by omega, show ¬ i < 32 by omega, show i - 32 < 32 by omega,
    show ¬ i - 32 < 8 by omega, show i - 32 < 64 by omega]

end Teakra
