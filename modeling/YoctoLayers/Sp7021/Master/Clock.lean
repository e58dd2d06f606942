import YoctoLayers.Sp7021.Master.Config
import Mathlib.Algebra.Order.Field.Rat
import Mathlib.Algebra.Order.Field.Basic
import Mathlib.Tactic.NormNum

/-! The bit clock that `sp7021_spi_setup_clk` selects. -/
namespace YoctoLayers.Sp7021
open YoctoLayers.Lib

/-- `clk_sel` of `sp7021_spi_setup_clk`. -/
def clkSel (clkRate speedHz : UInt32) : UInt32 := max 2 (clkRate / speedHz) / 2 - 1

/-- The clock divider of a configuration. -/
def clkField (conf : UInt32) : UInt32 := (conf &&& clkMask) >>> 16

/-- The bit clock under a configuration, `clk_rate / (2 * (clk_sel + 1))`. -/
def bitClock (clkRate conf : UInt32) : ℚ := clkRate.toNat / (2 * ((clkField conf).toNat + 1))

theorem setupClk_eq (clkRate speedHz conf : UInt32) :
    setupClk clkRate speedHz conf =
      (conf &&& ~~~clkMask) ||| (clkSel clkRate speedHz <<< 16 &&& clkMask) := rfl

/-- The value under the mask is read back, if it has 16 bits. -/
theorem clkField_of_lt (conf : UInt32) {sel : UInt32} (hsel : sel.toNat < 2 ^ 16) :
    clkField ((conf &&& ~~~clkMask) ||| (sel <<< 16 &&& clkMask)) = sel := by
  have hmask (i : ℕ) : clkMask.toNat.testBit i = decide (16 ≤ i ∧ i < 32) := by
    have heq : clkMask = (⟨31, 16, by decide, by decide⟩ : Field).mask := by decide
    rw [heq, Field.testBit_mask]
    exact decide_eq_decide.mpr (and_congr_right fun _ => Nat.lt_succ_iff.symm)
  refine eq_of_testBit fun i => ?_
  have hshift : (16 : UInt32).toNat % 32 = 16 := rfl
  rw [clkField, UInt32.toNat_shiftRight, hshift, Nat.testBit_shiftRight, testBit_and, testBit_or,
    testBit_and, testBit_and, testBit_not, UInt32.toNat_shiftLeft, hshift, Nat.testBit_mod_two_pow,
    Nat.testBit_shiftLeft, hmask]
  by_cases hi : i < 16
  · have hlt : 16 + i < 32 := by omega
    simp [hlt]
  · have hlow : sel.toNat < 2 ^ i :=
      Nat.lt_of_lt_of_le hsel (Nat.pow_le_pow_right (by decide) (Nat.le_of_not_lt hi))
    have hge : ¬ 16 + i < 32 := by omega
    simp [hge, Nat.testBit_lt_two_pow hlow]

theorem toNat_clkSel (clkRate speedHz : UInt32) :
    (clkSel clkRate speedHz).toNat + 1 = max 2 (clkRate.toNat / speedHz.toNat) / 2 := by
  have hmax : (max 2 (clkRate / speedHz)).toNat = max 2 (clkRate.toNat / speedHz.toNat) := by
    rw [← UInt32.toNat_div]
    change (if 2 ≤ clkRate / speedHz then clkRate / speedHz else 2).toNat = _
    split_ifs with hle
    · exact (max_eq_right (UInt32.le_iff_toNat_le.mp hle)).symm
    · exact (max_eq_left (Nat.le_of_not_le (mt UInt32.le_iff_toNat_le.mpr hle))).symm
  have hone : (1 : UInt32) ≤ max 2 (clkRate / speedHz) / 2 := by
    rw [UInt32.le_iff_toNat_le, UInt32.toNat_div, hmax]
    exact (Nat.le_div_iff_mul_le (by decide)).mpr (le_max_left 2 _)
  rw [clkSel, UInt32.toNat_sub_of_le _ _ hone, UInt32.toNat_div, hmax]
  apply Nat.sub_add_cancel
  exact (Nat.le_div_iff_mul_le (by decide)).mpr (le_max_left 2 _)

/-- Half the quotient, twice truncated, keeps below the speed only where nothing is cut off. -/
theorem rate_le_iff {c s : ℕ} (hs : 0 < s) :
    c ≤ s * (2 * (max 2 (c / s) / 2)) ↔ c < 2 * s ∨ 2 * s ∣ c := by
  rcases Nat.lt_or_ge (c / s) 2 with hq | hq
  · have hlt : c < 2 * s := (Nat.div_lt_iff_lt_mul hs).mp hq
    rw [max_eq_left (Nat.le_of_lt hq)]
    exact ⟨fun _ => Or.inl hlt, fun _ => by omega⟩
  · have hge : 2 * s ≤ c := (Nat.le_div_iff_mul_le hs).mp hq
    have hmul : s * (c / s) ≤ c := Nat.mul_div_le c s
    rw [max_eq_right hq]
    constructor
    · intro hle
      have hhalf : s * (2 * (c / s / 2)) ≤ s * (c / s) :=
        Nat.mul_le_mul_left s (Nat.mul_div_le (c / s) 2)
      refine Or.inr ⟨c / s / 2, ?_⟩
      rw [Nat.mul_comm 2 s, Nat.mul_assoc]
      omega
    · rintro (hlt | ⟨m, rfl⟩)
      · omega
      · have hquot : 2 * s * m / s = 2 * m := by
          rw [Nat.mul_comm 2 s, Nat.mul_assoc, Nat.mul_div_cancel_left _ hs]
        rw [hquot, Nat.mul_div_cancel_left m (by decide : 0 < 2), Nat.mul_comm 2 s, Nat.mul_assoc]

/-- The bit clock stays at or below the speed of the transfer if and only if the rate is below
twice the speed, or a multiple of that; the divider always fits its field, and nothing else is
changed. -/
theorem setup_clk_ok_iff (clkRate speedHz conf : UInt32) (hmin : 40000 ≤ speedHz.toNat) :
    (bitClock clkRate (setupClk clkRate speedHz conf) ≤ (speedHz.toNat : ℚ) ∧
      clkField (setupClk clkRate speedHz conf) = clkSel clkRate speedHz ∧
      setupClk clkRate speedHz conf &&& ~~~clkMask = conf &&& ~~~clkMask) ↔
    clkRate.toNat < 2 * speedHz.toNat ∨ 2 * speedHz.toNat ∣ clkRate.toNat := by
  have hpos : 0 < speedHz.toNat := Nat.lt_of_lt_of_le (by decide) hmin
  have hsel := toNat_clkSel clkRate speedHz
  have hfit : (clkSel clkRate speedHz).toNat < 2 ^ 16 := by
    have hrate := clkRate.toNat_lt
    have hdiv : clkRate.toNat / speedHz.toNat ≤ clkRate.toNat / 40000 :=
      Nat.div_le_div_left hmin (by decide)
    omega
  have hfield := clkField_of_lt conf hfit
  have hrest := or_and_not conf (clkSel clkRate speedHz <<< 16) clkMask
  rw [setupClk_eq, bitClock, hfield, ← rate_le_iff hpos, ← hsel]
  have hden : (0 : ℚ) < 2 * (((clkSel clkRate speedHz).toNat : ℚ) + 1) := by
    exact_mod_cast Nat.mul_pos (by decide : 0 < 2) (Nat.succ_pos (clkSel clkRate speedHz).toNat)
  constructor
  · rintro ⟨hle, -⟩
    rw [div_le_iff₀ hden] at hle
    exact_mod_cast hle
  · intro hle
    refine ⟨?_, rfl, hrest⟩
    rw [div_le_iff₀ hden]
    exact_mod_cast hle

/-- 24 MHz from a clock of 192 MHz. -/
theorem setup_clk_ok_iff_24 :
    bitClock 192000000 (setupClk 192000000 24000000 fdSel) ≤ 24000000 :=
  ((setup_clk_ok_iff 192000000 24000000 fdSel (by decide)).mpr
    (Or.inr (by decide))).1

/-- 25 MHz from a clock of 202.5 MHz: the bit clock is 25.3125 MHz. -/
theorem setup_clk_overshoots :
    bitClock 202500000 (setupClk 202500000 25000000 fdSel) = 25312500 ∧
      ¬ bitClock 202500000 (setupClk 202500000 25000000 fdSel) ≤ 25000000 := by
  have hfield : clkField (setupClk 202500000 25000000 fdSel) = 3 := by decide
  have hclock : bitClock 202500000 (setupClk 202500000 25000000 fdSel) = 25312500 := by
    rw [bitClock, hfield]
    change ((202500000 : ℕ) : ℚ) / (2 * (((3 : ℕ) : ℚ) + 1)) = 25312500
    norm_num
  refine ⟨hclock, ?_⟩
  rw [hclock]
  norm_num

end YoctoLayers.Sp7021
