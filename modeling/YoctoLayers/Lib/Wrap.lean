import Mathlib.Data.Int.GCD
import Mathlib.Data.Nat.Prime.Basic
import Mathlib.Data.Nat.Factorization.PrimePow
import Mathlib.Tactic.LinearCombination

/-! Products in two's complement: what the multiples of a number reach. -/
namespace YoctoLayers.Lib

/-- The value of an integer in an arithmetic of `w + 1` bits. -/
def wrap (w : ℕ) (a : ℤ) : ℤ := a.bmod (2 ^ (w + 1))

/-- The largest value of a multiple of `d`. -/
def topMultiple (w : ℕ) (d : ℤ) : ℤ := max 0 (2 ^ w - Int.gcd d (2 ^ (w + 1)))

theorem wrap_add_wrap (w : ℕ) (a b : ℤ) : wrap w (wrap w a + b) = wrap w (a + b) :=
  Int.bmod_add_bmod

theorem wrap_wrap_mul (w : ℕ) (a b : ℤ) : wrap w (wrap w a * b) = wrap w (a * b) :=
  Int.bmod_mul_bmod

theorem wrap_lt (w : ℕ) (a : ℤ) : wrap w a < 2 ^ w := by
  have hlt := Int.bmod_lt (x := a) (m := 2 ^ (w + 1)) (Nat.two_pow_pos _)
  have hpow : (2 : ℤ) ^ (w + 1) = 2 * 2 ^ w := by rw [pow_succ, mul_comm]
  unfold wrap
  push_cast at hlt
  omega

theorem wrap_of_mem {w : ℕ} {a : ℤ} (hlo : 0 ≤ a) (hhi : a < 2 ^ w) : wrap w a = a := by
  have hpow : (2 : ℤ) ^ (w + 1) = 2 * 2 ^ w := by rw [pow_succ, mul_comm]
  unfold wrap
  rw [Int.bmod_eq_iff (Nat.two_pow_pos _)]
  push_cast
  refine ⟨by omega, by omega, ?_⟩
  simp

theorem dvd_wrap {w : ℕ} {a g : ℤ} (ha : g ∣ a) (hg : g ∣ 2 ^ (w + 1)) : g ∣ wrap w a := by
  have hsub : ((2 ^ (w + 1) : ℕ) : ℤ) ∣ wrap w a - a := Int.dvd_bmod_sub_self
  push_cast at hsub
  have hdvd := dvd_add (hg.trans hsub) ha
  rwa [sub_add_cancel] at hdvd

theorem gcd_eq_two_pow (w : ℕ) (d : ℤ) :
    ∃ k ≤ w + 1, Int.gcd d (2 ^ (w + 1)) = 2 ^ k := by
  have hdvd : Int.gcd d (2 ^ (w + 1)) ∣ 2 ^ (w + 1) := by
    have h := Int.gcd_dvd_natAbs_right d (2 ^ (w + 1))
    rwa [Int.natAbs_pow] at h
  exact (Nat.dvd_prime_pow Nat.prime_two).mp hdvd

section
variable {w k : ℕ} {d : ℤ}

theorem dvd_of_gcd (hgcd : Int.gcd d (2 ^ (w + 1)) = 2 ^ k) : (2 ^ k : ℤ) ∣ d := by
  have h := Int.gcd_dvd_left (a := d) (b := 2 ^ (w + 1))
  rw [hgcd] at h
  exact_mod_cast h

/-- A number that is zero has no other multiple. -/
theorem wrap_mul_eq_zero (hgcd : Int.gcd d (2 ^ (w + 1)) = 2 ^ (w + 1)) (n : ℕ) :
    wrap w (n * d) = 0 := by
  unfold wrap
  apply Int.bmod_eq_zero_of_dvd
  push_cast
  exact (dvd_of_gcd hgcd).mul_left _

/-- No multiple is larger than the one next to the end. -/
theorem wrap_mul_le (hgcd : Int.gcd d (2 ^ (w + 1)) = 2 ^ k) (hk : k ≤ w) (n : ℕ) :
    wrap w (n * d) ≤ 2 ^ w - 2 ^ k := by
  have hdvd : (2 ^ k : ℤ) ∣ 2 ^ w - wrap w (n * d) := by
    apply dvd_sub (pow_dvd_pow 2 hk)
    exact dvd_wrap ((dvd_of_gcd hgcd).mul_left _) (pow_dvd_pow 2 (by omega))
  have hlt := wrap_lt w (n * d)
  have hle := Int.le_of_dvd (by omega) hdvd
  omega

/-- That one is reached, by Bézout's identity. -/
theorem exists_wrap_mul_eq (hgcd : Int.gcd d (2 ^ (w + 1)) = 2 ^ k) (hk : k ≤ w) :
    ∃ n : ℕ, wrap w (n * d) = 2 ^ w - 2 ^ k := by
  have hle : (2 : ℤ) ^ k ≤ 2 ^ w := pow_le_pow_right₀ (by decide) hk
  have hpos : (0 : ℤ) < 2 ^ k := pow_pos two_pos k
  obtain ⟨q, hq⟩ := dvd_sub (pow_dvd_pow (2 : ℤ) hk) (dvd_refl (2 ^ k : ℤ))
  have hbezout := Int.gcd_eq_gcd_ab d (2 ^ (w + 1))
  rw [hgcd] at hbezout
  push_cast at hbezout
  let n : ℤ := (q * Int.gcdA d (2 ^ (w + 1))) % 2 ^ (w + 1)
  have hn : 0 ≤ n := Int.emod_nonneg _ (pow_ne_zero _ (by decide))
  have hdiv := Int.emod_add_mul_ediv (q * Int.gcdA d (2 ^ (w + 1))) (2 ^ (w + 1))
  have hsame : ((2 ^ (w + 1) : ℕ) : ℤ) ∣ n * d - (2 ^ w - 2 ^ k) := by
    push_cast
    refine ⟨-(q * Int.gcdA d (2 ^ (w + 1)) / 2 ^ (w + 1) * d + q * Int.gcdB d (2 ^ (w + 1))), ?_⟩
    linear_combination d * hdiv - hq - q * hbezout
  refine ⟨n.toNat, ?_⟩
  rw [Int.toNat_of_nonneg hn]
  calc wrap w (n * d)
      = wrap w (2 ^ w - 2 ^ k) :=
        Int.bmod_eq_bmod_iff_bmod_sub_eq_zero.mpr (Int.bmod_eq_zero_of_dvd hsame)
    _ = 2 ^ w - 2 ^ k := wrap_of_mem (by omega) (by omega)

end

/-- Some multiple exceeds `t`, if and only if the largest does. -/
theorem exists_lt_wrap_mul_iff (w : ℕ) (d t : ℤ) :
    (∃ n : ℕ, t < wrap w (n * d)) ↔ t < topMultiple w d := by
  obtain ⟨k, hk, hgcd⟩ := gcd_eq_two_pow w d
  unfold topMultiple
  rw [hgcd]
  push_cast
  rcases Nat.lt_or_ge w k with hw | hw
  · -- only zero is a multiple
    obtain rfl : k = w + 1 := by omega
    have hneg : (2 : ℤ) ^ w - 2 ^ (w + 1) ≤ 0 := by
      rw [pow_succ]
      have := pow_pos (two_pos : (0 : ℤ) < 2) w
      omega
    rw [max_eq_left hneg]
    constructor
    · rintro ⟨n, hn⟩
      rwa [wrap_mul_eq_zero hgcd] at hn
    · intro ht
      exact ⟨0, by rwa [wrap_mul_eq_zero hgcd]⟩
  · have hle : (2 : ℤ) ^ k ≤ 2 ^ w := pow_le_pow_right₀ (by decide) hw
    rw [max_eq_right (by omega)]
    constructor
    · rintro ⟨n, hn⟩
      exact hn.trans_le (wrap_mul_le hgcd hw n)
    · intro ht
      obtain ⟨n, hn⟩ := exists_wrap_mul_eq hgcd hw
      exact ⟨n, by rwa [hn]⟩

end YoctoLayers.Lib
