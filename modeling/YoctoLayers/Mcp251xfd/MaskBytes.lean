import YoctoLayers.Mcp251xfd.Driver

/-! The bytes of a register that a mask touches. -/
namespace YoctoLayers.Mcp251xfd
open YoctoLayers.Lib

/-- The bytes of `x` from the first to the last that `mask` touches. -/
def maskedBytes (mask x : UInt32) : List UInt8 :=
  ((le32 x).drop (firstByteSet mask)).take (lastByteSet mask - firstByteSet mask + 1)

variable {mask : UInt32} {i : ℕ}

theorem lt_of_testBit {x : UInt32} (h : x.toNat.testBit i = true) : i < 32 := by
  by_contra hge
  rw [testBit_of_ge x (Nat.le_of_not_lt hge)] at h
  cases h

theorem exists_testBit {x : UInt32} (h : x ≠ 0) : ∃ i, x.toNat.testBit i = true := by
  by_contra hnone
  refine h (eq_of_testBit fun i => ?_)
  rw [testBit_zero, ← Bool.not_eq_true]
  exact fun hi => hnone ⟨i, hi⟩

/-- A bit of a mask that has nothing in common with a field is outside the field. -/
theorem outside_of_and_eq_zero (f : Field) {m : UInt32} (hm : f.mask = m) (h0 : mask &&& m = 0)
    (h : mask.toNat.testBit i = true) : i < f.lo ∨ f.hi < i := by
  have hbit : (mask &&& f.mask).toNat.testBit i = false := by
    rw [hm, h0]
    exact testBit_zero i
  rw [testBit_and, h, Field.testBit_mask, Bool.true_and, decide_eq_false_iff_not] at hbit
  omega

/-- No bit of a mask is in front of its first byte. -/
theorem firstByteSet_le_div (h : mask.toNat.testBit i = true) : firstByteSet mask ≤ i / 8 := by
  unfold firstByteSet
  split_ifs with hlow hbyte0 hbyte2
  · omega
  · have := outside_of_and_eq_zero { hi := 7, lo := 0 } (by decide) (not_not.mp hbyte0) h
    dsimp only at this
    omega
  · have := outside_of_and_eq_zero { hi := 15, lo := 0 } (by decide) (not_not.mp hlow) h
    dsimp only at this
    omega
  · have := outside_of_and_eq_zero { hi := 15, lo := 0 } (by decide) (not_not.mp hlow) h
    have := outside_of_and_eq_zero { hi := 23, lo := 16 } (by decide) (not_not.mp hbyte2) h
    dsimp only at *
    omega

/-- No bit of a mask is behind its last byte. -/
theorem div_le_lastByteSet (h : mask.toNat.testBit i = true) : i / 8 ≤ lastByteSet mask := by
  have hi := lt_of_testBit h
  unfold lastByteSet
  split_ifs with hhigh hbyte3 hbyte1
  · omega
  · have := outside_of_and_eq_zero { hi := 31, lo := 24 } (by decide) (not_not.mp hbyte3) h
    dsimp only at this
    omega
  · have := outside_of_and_eq_zero { hi := 31, lo := 16 } (by decide) (not_not.mp hhigh) h
    dsimp only at this
    omega
  · have := outside_of_and_eq_zero { hi := 31, lo := 16 } (by decide) (not_not.mp hhigh) h
    have := outside_of_and_eq_zero { hi := 15, lo := 8 } (by decide) (not_not.mp hbyte1) h
    dsimp only at *
    omega

theorem firstByteSet_le (mask : UInt32) : firstByteSet mask ≤ 3 := by
  unfold firstByteSet
  split_ifs <;> omega

theorem lastByteSet_le (mask : UInt32) : lastByteSet mask ≤ 3 := by
  unfold lastByteSet
  split_ifs <;> omega

theorem firstByteSet_le_lastByteSet (h : mask ≠ 0) : firstByteSet mask ≤ lastByteSet mask := by
  obtain ⟨i, hi⟩ := exists_testBit h
  exact (firstByteSet_le_div hi).trans (div_le_lastByteSet hi)

theorem length_maskedBytes (h : mask ≠ 0) (x : UInt32) :
    (maskedBytes mask x).length = lastByteSet mask - firstByteSet mask + 1 := by
  have := firstByteSet_le_lastByteSet h
  have := lastByteSet_le mask
  rw [maskedBytes, List.length_take, List.length_drop, length_le32]
  omega

theorem testBit_shiftRight_byte (x : UInt32) {k : ℕ} (hk : k < 4) (i : ℕ) :
    (x >>> UInt32.ofNat (8 * k)).toNat.testBit i = x.toNat.testBit (8 * k + i) := by
  have hshift : 8 * k % 2 ^ 32 % 32 = 8 * k := by omega
  rw [UInt32.toNat_shiftRight, UInt32.toNat_ofNat', hshift, Nat.testBit_shiftRight]

theorem testBit_shiftLeft_byte (x : UInt32) {k : ℕ} (hk : k < 4) (i : ℕ) :
    (x <<< UInt32.ofNat (8 * k)).toNat.testBit i =
      (decide (i < 32) && (decide (8 * k ≤ i) && x.toNat.testBit (i - 8 * k))) := by
  have hshift : 8 * k % 2 ^ 32 % 32 = 8 * k := by omega
  rw [UInt32.toNat_shiftLeft, UInt32.toNat_ofNat', hshift, Nat.testBit_mod_two_pow,
    Nat.testBit_shiftLeft]

theorem eq_of_testBit_byte {a b : UInt8} (h : ∀ j < 8, a.toNat.testBit j = b.toNat.testBit j) :
    a = b := by
  apply UInt8.toNat_inj.mp
  apply Nat.eq_of_testBit_eq
  intro j
  by_cases hj : j < 8
  · exact h j hj
  · rw [testBit_byte_of_ge a (by omega), testBit_byte_of_ge b (by omega)]

/-- The bytes of a shifted word are those of the word from `k` on, when all their bits agree. -/
theorem take_le32_eq {x y : UInt32} {k len : ℕ} (hlen : k + len ≤ 4)
    (h : ∀ i < 8 * len, x.toNat.testBit i = y.toNat.testBit (8 * k + i)) :
    (le32 x).take len = ((le32 y).drop k).take len := by
  have hlenx : (le32 x).length = 4 := length_le32 x
  have hleny : (le32 y).length = 4 := length_le32 y
  apply List.ext_getElem
  · simp only [List.length_take, List.length_drop, hlenx, hleny]
    omega
  · intro n hn _
    have hn' : n < len := by
      simp only [List.length_take, hlenx] at hn
      omega
    rw [List.getElem_take, List.getElem_take, List.getElem_drop]
    apply eq_of_testBit_byte
    intro j hj
    have hx := testBit_le32 x (show n < 4 by omega) hj
    have hy := testBit_le32 y (show k + n < 4 by omega) hj
    rw [List.getD_eq_getElem _ _ (by omega)] at hx hy
    rw [hx, hy, h _ (by omega)]
    congr 1
    omega

theorem take_le32_shiftRight (x : UInt32) {k len : ℕ} (hk : k < 4) (hlen : k + len ≤ 4) :
    (le32 (x >>> UInt32.ofNat (8 * k))).take len = ((le32 x).drop k).take len :=
  take_le32_eq hlen fun i _ => testBit_shiftRight_byte x hk i

/-- Putting bits under a mask, on words moved down by whole bytes. -/
theorem take_le32_update (mask val orig : UInt32) {k len : ℕ} (hk : k < 4) (hlen : k + len ≤ 4) :
    (le32 ((orig &&& ~~~(mask >>> UInt32.ofNat (8 * k))) |||
      (val >>> UInt32.ofNat (8 * k) &&& mask >>> UInt32.ofNat (8 * k)))).take len =
    ((le32 ((orig <<< UInt32.ofNat (8 * k)) &&& ~~~mask ||| val &&& mask)).drop k).take len := by
  apply take_le32_eq hlen
  intro i hi
  simp only [testBit_or, testBit_and, testBit_not, testBit_shiftRight_byte _ hk,
    testBit_shiftLeft_byte _ hk, Nat.add_sub_cancel_left]
  simp [show i < 32 by omega, show 8 * k + i < 32 by omega]

end YoctoLayers.Mcp251xfd
