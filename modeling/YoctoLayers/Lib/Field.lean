import Mathlib.Data.Nat.Bitwise
import Mathlib.Tactic.SplitIfs

/-! Bit fields of 32-bit registers: `BIT`, `GENMASK`, `FIELD_PREP`, `FIELD_GET`. Facts about
words are proved bit by bit, on `x.toNat.testBit i`. -/
namespace YoctoLayers.Lib

/-- `BIT(n)`. -/
def bit (n : ℕ) : UInt32 := UInt32.ofNat (2 ^ n)

/-- `GENMASK(hi, lo)`. -/
structure Field where
  hi : ℕ
  lo : ℕ
  le : lo ≤ hi := by decide
  lt : hi < 32 := by decide

namespace Field

def width (f : Field) : ℕ := f.hi + 1 - f.lo

def mask (f : Field) : UInt32 := UInt32.ofNat ((2 ^ f.width - 1) <<< f.lo)

/-- `FIELD_PREP(mask, v)`. -/
def prep (f : Field) (v : UInt32) : UInt32 := (v <<< UInt32.ofNat f.lo) &&& f.mask

/-- `FIELD_GET(mask, x)`. -/
def get (f : Field) (x : UInt32) : UInt32 := (x &&& f.mask) >>> UInt32.ofNat f.lo

/-- `field_mask(mask)`. -/
def low (f : Field) : UInt32 := f.mask >>> UInt32.ofNat f.lo

end Field

theorem eq_of_testBit {x y : UInt32} (h : ∀ i, x.toNat.testBit i = y.toNat.testBit i) : x = y :=
  UInt32.toNat_inj.mp (Nat.eq_of_testBit_eq h)

theorem testBit_of_ge (x : UInt32) {i : ℕ} (hi : 32 ≤ i) : x.toNat.testBit i = false :=
  Nat.testBit_lt_two_pow (x.toNat_lt.trans_le (Nat.pow_le_pow_right (by decide) hi))

@[simp] theorem testBit_or (x y : UInt32) (i : ℕ) :
    (x ||| y).toNat.testBit i = (x.toNat.testBit i || y.toNat.testBit i) := by
  rw [UInt32.toNat_or, Nat.testBit_or]

@[simp] theorem testBit_and (x y : UInt32) (i : ℕ) :
    (x &&& y).toNat.testBit i = (x.toNat.testBit i && y.toNat.testBit i) := by
  rw [UInt32.toNat_and, Nat.testBit_and]

@[simp] theorem testBit_not (x : UInt32) (i : ℕ) :
    (~~~x).toNat.testBit i = (decide (i < 32) && !x.toNat.testBit i) := by
  change (~~~x).toBitVec.getLsbD i = _
  rw [UInt32.toBitVec_not, BitVec.getLsbD_not]
  rfl

@[simp] theorem testBit_zero (i : ℕ) : (0 : UInt32).toNat.testBit i = false :=
  Nat.zero_testBit i

theorem testBit_ofNat (n i : ℕ) :
    (UInt32.ofNat n).toNat.testBit i = (decide (i < 32) && n.testBit i) := by
  rw [UInt32.toNat_ofNat', Nat.testBit_mod_two_pow]

@[simp] theorem testBit_bit {n : ℕ} (hn : n < 32) (i : ℕ) :
    (bit n).toNat.testBit i = decide (i = n) := by
  rw [bit, testBit_ofNat, Nat.testBit_two_pow]
  by_cases h : n = i
  · subst h
    simp [hn]
  · simp [h, Ne.symm h]

/-- What is put under a mask is not seen beside it. -/
theorem or_and_not (x y m : UInt32) : (x &&& ~~~m ||| y &&& m) &&& ~~~m = x &&& ~~~m :=
  eq_of_testBit fun i => by
    simp only [testBit_and, testBit_or, testBit_not]
    cases m.toNat.testBit i <;> cases x.toNat.testBit i <;> simp

/-- Testing a flag of a word is testing its bit. -/
theorem and_bit_ne_zero {n : ℕ} (hn : n < 32) (x : UInt32) :
    x &&& bit n ≠ 0 ↔ x.toNat.testBit n = true := by
  constructor
  · intro h
    by_contra hx
    refine h (eq_of_testBit fun i => ?_)
    rw [testBit_and, testBit_bit hn]
    by_cases hi : i = n
    · subst hi
      simpa using hx
    · simp [hi]
  · intro h h0
    have := congrArg (fun w : UInt32 => w.toNat.testBit n) h0
    simp [testBit_bit hn, h] at this

theorem and_bit_eq_zero {n : ℕ} (hn : n < 32) (x : UInt32) :
    x &&& bit n = 0 ↔ x.toNat.testBit n = false := by
  rw [← not_iff_not, ← ne_eq, and_bit_ne_zero hn, Bool.not_eq_false]

namespace Field

theorem toNat_lo (f : Field) : (UInt32.ofNat f.lo).toNat % 32 = f.lo := by
  have := f.le
  have := f.lt
  rw [UInt32.toNat_ofNat']
  omega

@[simp] theorem testBit_mask (f : Field) (i : ℕ) :
    f.mask.toNat.testBit i = decide (f.lo ≤ i ∧ i ≤ f.hi) := by
  have := f.le
  have := f.lt
  rw [mask, testBit_ofNat, Nat.testBit_shiftLeft, Nat.testBit_two_pow_sub_one, width]
  by_cases h1 : f.lo ≤ i <;> by_cases h2 : i ≤ f.hi <;> simp [h1, h2] <;> omega

@[simp] theorem testBit_get (f : Field) (x : UInt32) (i : ℕ) :
    (f.get x).toNat.testBit i = (decide (f.lo + i ≤ f.hi) && x.toNat.testBit (f.lo + i)) := by
  rw [get, UInt32.toNat_shiftRight, f.toNat_lo, Nat.testBit_shiftRight, testBit_and, testBit_mask,
    Bool.and_comm]
  simp

@[simp] theorem testBit_prep (f : Field) (v : UInt32) (i : ℕ) :
    (f.prep v).toNat.testBit i =
      (decide (f.lo ≤ i ∧ i ≤ f.hi) && v.toNat.testBit (i - f.lo)) := by
  have := f.lt
  rw [prep, testBit_and, testBit_mask, UInt32.toNat_shiftLeft, f.toNat_lo,
    Nat.testBit_mod_two_pow, Nat.testBit_shiftLeft]
  by_cases h1 : f.lo ≤ i <;> by_cases h2 : i ≤ f.hi <;> simp [h1, h2]
  omega

@[simp] theorem testBit_low (f : Field) (i : ℕ) :
    f.low.toNat.testBit i = decide (i < f.width) := by
  have := f.le
  rw [low, UInt32.toNat_shiftRight, f.toNat_lo, Nat.testBit_shiftRight, testBit_mask, width]
  simp only [decide_eq_decide]
  omega

/-- The value of a field that has been replaced. -/
theorem get_update (f : Field) (orig v : UInt32) :
    f.get (orig &&& ~~~f.mask ||| f.prep v &&& f.mask) = v &&& f.low :=
  eq_of_testBit fun i => by
    have := f.lt
    have := f.le
    simp only [testBit_get, testBit_or, testBit_and, testBit_not, testBit_mask, testBit_prep,
      testBit_low, width, Nat.add_sub_cancel_left]
    by_cases h : f.lo + i ≤ f.hi
    · simp [h, show i < f.hi + 1 - f.lo by omega]
    · simp [h, show ¬ i < f.hi + 1 - f.lo by omega]

end Field
end YoctoLayers.Lib
