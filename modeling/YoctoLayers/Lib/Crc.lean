import Mathlib.Data.Nat.Bitwise

/-! Cyclic redundancy codes, most significant bit first: the remainder a bit at a time, and why
whole bytes, and a table of the 256 of them, give the same one. -/
namespace YoctoLayers.Lib.Crc

variable {w : ℕ} (poly : BitVec w)

/-- One bit of the division. -/
def step (c : BitVec w) : BitVec w := (c <<< 1) ^^^ (if c.msb then poly else 0)

def steps : ℕ → BitVec w → BitVec w
  | 0, c => c
  | n + 1, c => step poly (steps n c)

/-- A byte as the top eight bits of a remainder. -/
def high (b : BitVec 8) : BitVec w := b.setWidth w <<< (w - 8)

/-- A byte of the message, bit by bit. -/
def update (c : BitVec w) (b : BitVec 8) : BitVec w := steps poly 8 (c ^^^ high b)

def remainder (init : BitVec w) (msg : List (BitVec 8)) : BitVec w := msg.foldl (update poly) init

/-- Eight steps of each byte. -/
def tableEntry (i : BitVec 8) : BitVec w := steps poly 8 (high i)

/-- One bit of the message comes in, for one bit of the division. -/
def bitStep (c : BitVec w) (b : Bool) : BitVec w := (c <<< 1) ^^^ (if c.msb ^^ b then poly else 0)

/-- The remainder of a message, a bit at a time. -/
def serial (init : BitVec w) (msg : List Bool) : BitVec w := msg.foldl (bitStep poly) init

/-- The bits of a word, most significant first. -/
def bits {n : ℕ} (x : BitVec n) : List Bool := (List.range n).map x.getMsbD

theorem step_xor (c d : BitVec w) : step poly (c ^^^ d) = step poly c ^^^ step poly d := by
  unfold step
  rw [BitVec.shiftLeft_xor_distrib, BitVec.msb_xor]
  cases c.msb <;> cases d.msb
  · simp
  · simp only [Bool.false_xor, if_true, Bool.false_eq_true, if_false]
    ac_rfl
  · simp only [Bool.xor_false, if_true, Bool.false_eq_true, if_false]
    ac_rfl
  · have hcancel : (c <<< 1 ^^^ poly) ^^^ (d <<< 1 ^^^ poly) =
        (c <<< 1 ^^^ d <<< 1) ^^^ (poly ^^^ poly) := by ac_rfl
    simp [hcancel]

theorem steps_xor (n : ℕ) (c d : BitVec w) :
    steps poly n (c ^^^ d) = steps poly n c ^^^ steps poly n d := by
  induction n with
  | zero => rfl
  | succ n ih => simp only [steps, ih, step_xor]

/-- As long as the top bit stays clear, a step is a shift. -/
theorem steps_of_lt {c : BitVec w} {n : ℕ} (hn : n ≤ w) (hc : c.toNat < 2 ^ (w - n)) :
    steps poly n c = c <<< n := by
  induction n with
  | zero => simp [steps]
  | succ n ih =>
    have hweak : c.toNat < 2 ^ (w - n) :=
      hc.trans_le (Nat.pow_le_pow_right (by decide) (by omega))
    have hmsb : (c <<< n).msb = false := by
      rw [BitVec.msb_eq_getLsbD_last, BitVec.getLsbD_shiftLeft]
      have hbit : c.getLsbD (w - 1 - n) = false :=
        Nat.testBit_lt_two_pow (hc.trans_le (Nat.pow_le_pow_right (by decide) (by omega)))
      simp [hbit]
    rw [steps, ih (by omega) hweak, step, hmsb]
    simp [BitVec.shiftLeft_add]

/-- A remainder and a byte, taken apart at the top eight bits. -/
theorem xor_high (hw : 8 ≤ w) (c : BitVec w) (b : BitVec 8) :
    c ^^^ high b =
      (c <<< 8) >>> 8 ^^^ high ((c >>> (w - 8)).setWidth 8 ^^^ b) := by
  apply BitVec.eq_of_getLsbD_eq
  intro i hi
  simp only [high, BitVec.getLsbD_xor, BitVec.getLsbD_ushiftRight, BitVec.getLsbD_shiftLeft,
    BitVec.getLsbD_setWidth, hi, decide_true, Bool.true_and]
  by_cases hlow : i < w - 8
  · simp [hlow, show 8 + i < w by omega]
  · have hbyte : i - (w - 8) < 8 := by omega
    have hback : w - 8 + (i - (w - 8)) = i := by omega
    simp [hlow, hbyte, hback, show ¬ 8 + i < w by omega, show i - (w - 8) < w by omega]

/-- A byte at a time from the table. -/
theorem update_eq_table (hw : 8 ≤ w) (c : BitVec w) (b : BitVec 8) :
    update poly c b = (c <<< 8) ^^^ tableEntry poly ((c >>> (w - 8)).setWidth 8 ^^^ b) := by
  have hlow : ((c <<< 8) >>> 8).toNat < 2 ^ (w - 8) := by
    rw [BitVec.toNat_ushiftRight, Nat.shiftRight_eq_div_pow]
    apply Nat.div_lt_of_lt_mul
    rw [← pow_add, Nat.add_sub_cancel' hw]
    exact (c <<< 8).isLt
  have hshift : ((c <<< 8) >>> 8) <<< 8 = c <<< 8 := by
    apply BitVec.eq_of_getLsbD_eq
    intro i hi
    simp only [BitVec.getLsbD_ushiftRight, BitVec.getLsbD_shiftLeft, hi, decide_true,
      Bool.true_and]
    by_cases h8 : i < 8
    · simp [h8]
    · simp [h8, show 8 + (i - 8) = i by omega, hi]
  rw [update, xor_high hw, steps_xor, steps_of_lt poly hw hlow, hshift]
  rfl

theorem step_xor_shiftLeft (c x : BitVec w) (n : ℕ) :
    step poly (c ^^^ x <<< n) = bitStep poly c (x.getMsbD n) ^^^ x <<< (n + 1) := by
  have hmsb : (x <<< n).msb = x.getMsbD n := by
    rw [BitVec.msb_shiftLeft]
  unfold step bitStep
  rw [BitVec.shiftLeft_xor_distrib, BitVec.msb_xor, hmsb, BitVec.shiftLeft_add]
  ac_rfl

/-- Bits that are in the remainder from the beginning, and bits that come in one by one. -/
theorem steps_xor_eq_serial (c x : BitVec w) (n : ℕ) :
    steps poly n (c ^^^ x) = serial poly c ((List.range n).map x.getMsbD) ^^^ x <<< n := by
  induction n with
  | zero => simp [steps, serial]
  | succ n ih =>
    rw [steps, ih, step_xor_shiftLeft, List.range_succ, List.map_append]
    unfold serial
    rw [List.foldl_append]
    rfl

theorem update_eq_serial (hw : 8 ≤ w) (c : BitVec w) (b : BitVec 8) :
    update poly c b = serial poly c (bits b) := by
  have hbits : (List.range 8).map (high b : BitVec w).getMsbD = bits b := by
    apply List.map_congr_left
    intro i hi
    have hlt := List.mem_range.mp hi
    unfold high
    rw [BitVec.getMsbD_shiftLeft, BitVec.getMsbD_eq_getLsbD, BitVec.getMsbD_eq_getLsbD,
      BitVec.getLsbD_setWidth]
    have hpos : w - 1 - (i + (w - 8)) = 8 - 1 - i := by omega
    simp [hpos, hlt, show i + (w - 8) < w by omega, show 7 - i < w by omega]
  have hout : (high b : BitVec w) <<< 8 = 0#w := by
    unfold high
    rw [← BitVec.shiftLeft_add, Nat.sub_add_cancel hw, BitVec.shiftLeft_eq_zero le_rfl]
  rw [update, steps_xor_eq_serial, hbits, hout, BitVec.xor_zero]

/-- A byte at a time is a bit at a time. -/
theorem remainder_eq_serial (hw : 8 ≤ w) (init : BitVec w) (msg : List (BitVec 8)) :
    remainder poly init msg = serial poly init (msg.flatMap bits) := by
  induction msg generalizing init with
  | nil => rfl
  | cons b msg ih =>
    have hcons : remainder poly init (b :: msg) = remainder poly (update poly init b) msg := rfl
    rw [hcons, ih, update_eq_serial poly hw, List.flatMap_cons]
    unfold serial
    rw [List.foldl_append]

/-- A remainder divides out. -/
theorem serial_bits (c : BitVec w) : serial poly c (bits c) = 0 := by
  have hzero : steps poly w 0#w = 0#w := by
    rw [steps_of_lt poly le_rfl (by simp), BitVec.shiftLeft_eq_zero le_rfl]
  have h := steps_xor_eq_serial poly c c w
  rw [BitVec.xor_self, hzero, BitVec.shiftLeft_eq_zero le_rfl, BitVec.xor_zero] at h
  exact h.symm

/-- The remainder of a message that ends in its own remainder. -/
theorem serial_append_self (init : BitVec w) (msg : List Bool) :
    serial poly init (msg ++ bits (serial poly init msg)) = 0 :=
  List.foldl_append.trans (serial_bits poly _)

end YoctoLayers.Lib.Crc
