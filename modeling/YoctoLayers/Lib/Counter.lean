import Mathlib.Data.Nat.Bitwise
import Mathlib.Tactic.NormNum
import Mathlib.Tactic.Positivity

/-! Free-running 32-bit counters over a ring whose size is a power of two. -/
namespace YoctoLayers.Lib

/-- A ring size that masks and `round_down` can work with. -/
def Pow2 (n : UInt32) : Prop := ∃ k < 32, n.toNat = 2 ^ k

/-- `round_down(x, n)` of the kernel, `n` a power of two. -/
def roundDown (x n : UInt32) : UInt32 := x &&& ~~~(n - 1)

/-- How far `b` is ahead of `a`, modulo `2 ^ 32`. -/
def lead (a b : UInt32) : ℕ := (b - a).toNat

/-- Distance from the counter `h` to the next one whose index is `c`; never zero. -/
def gap (h c n : ℕ) : ℕ := if h % n < c then c - h % n else n + c - h % n

/-- The first counter after `head` whose index is `c`, up to 32-bit wrap-around. -/
def catchUp (head c n : UInt32) : UInt32 :=
  let h := roundDown head n + c
  if h ≤ head then h + n else h

theorem Pow2.pos {n : UInt32} (hn : Pow2 n) : 0 < n.toNat := by
  obtain ⟨k, -, hk⟩ := hn
  rw [hk]
  positivity

theorem Pow2.dvd_wrap {n : UInt32} (hn : Pow2 n) : n.toNat ∣ 2 ^ 32 := by
  obtain ⟨k, hlt, hk⟩ := hn
  rw [hk]
  exact pow_dvd_pow 2 hlt.le

theorem Pow2.toNat_pred {n : UInt32} (hn : Pow2 n) : (n - 1).toNat = n.toNat - 1 := by
  have hp := hn.pos
  rw [UInt32.toNat_sub_of_le]
  · rfl
  · rw [UInt32.le_iff_toNat_le]
    exact hp

theorem Pow2.toNat_and_pred {n : UInt32} (hn : Pow2 n) (x : UInt32) :
    (x &&& (n - 1)).toNat = x.toNat % n.toNat := by
  obtain ⟨k, -, hk⟩ := id hn
  rw [UInt32.toNat_and, hn.toNat_pred, hk, Nat.and_two_pow_sub_one_eq_mod]

theorem and_not_add_and (x m : UInt32) : (x &&& ~~~m) + (x &&& m) = x := by
  rw [← UInt32.toBitVec_inj]
  simp only [UInt32.toBitVec_add, UInt32.toBitVec_and, UInt32.toBitVec_not]
  rw [BitVec.add_eq_or_of_and_eq_zero]
  · ext i hi
    cases h : x.toBitVec[i] <;> simp [h]
  · ext i hi
    cases h : x.toBitVec[i] <;> simp [h]

theorem Pow2.toNat_roundDown {n : UInt32} (hn : Pow2 n) (x : UInt32) :
    (roundDown x n).toNat = x.toNat - x.toNat % n.toNat := by
  have hsum : roundDown x n = x - (x &&& (n - 1)) := by
    rw [UInt32.eq_sub_iff_add_eq]
    exact and_not_add_and x (n - 1)
  have hle : (x &&& (n - 1)) ≤ x := by
    rw [UInt32.le_iff_toNat_le, hn.toNat_and_pred]
    exact Nat.mod_le _ _
  rw [hsum, UInt32.toNat_sub_of_le _ _ hle, hn.toNat_and_pred]

theorem gap_pos {h c n : ℕ} (hn : 0 < n) : 0 < gap h c n := by
  have := Nat.mod_lt h hn
  unfold gap
  split_ifs <;> omega

theorem gap_le {h c n : ℕ} (hc : c < n) : gap h c n ≤ n := by
  unfold gap
  split_ifs <;> omega

/-- The counter value `gap` leads to is the only one in reach with that index. -/
theorem gap_unique {h w n : ℕ} (hlo : h < w) (hhi : w ≤ h + n) : gap h (w % n) n = w - h := by
  have hw : w = h + (w - h) := by omega
  rcases Nat.lt_or_ge (h % n + (w - h)) n with hlt | hge
  · have hm : w % n = h % n + (w - h) := by
      rw [hw, Nat.add_mod, Nat.mod_eq_of_lt (by omega : w - h < n), Nat.mod_eq_of_lt (by omega)]
      omega
    rw [gap, hm, if_pos (by omega)]
    omega
  · have hm : w % n = h % n + (w - h) - n := by
      have hmod := Nat.mod_add_div h n
      have hw' : w = h % n + (w - h) - n + n * (h / n + 1) := by
        rw [Nat.mul_add, Nat.mul_one]
        omega
      have hh := Nat.mod_lt h (by omega : 0 < n)
      rw [hw', Nat.add_mul_mod_self_left, Nat.mod_eq_of_lt (by omega)]
      omega
    rw [gap, hm, if_neg (by omega)]
    omega

private theorem round_le_wrap {n : UInt32} (hn : Pow2 n) (h : UInt32) :
    h.toNat - h.toNat % n.toNat + n.toNat ≤ 2 ^ 32 := by
  obtain ⟨q, hq⟩ := hn.dvd_wrap
  have hlt : h.toNat < 2 ^ 32 := h.toNat_lt
  have hmod := Nat.mod_add_div h.toNat n.toNat
  have hdiv : h.toNat / n.toNat < q := Nat.div_lt_of_lt_mul (by omega)
  have hmul : n.toNat * (h.toNat / n.toNat + 1) ≤ n.toNat * q :=
    Nat.mul_le_mul_left _ hdiv
  rw [Nat.mul_add, Nat.mul_one] at hmul
  omega

theorem Pow2.toNat_catchUp {n : UInt32} (hn : Pow2 n) {head c : UInt32}
    (hc : c.toNat < n.toNat) :
    (catchUp head c n).toNat = (head.toNat + gap head.toNat c.toNat n.toNat) % 2 ^ 32 := by
  have hlap := round_le_wrap hn head
  have hmod := Nat.mod_le head.toNat n.toNat
  have hmlt := Nat.mod_lt head.toNat hn.pos
  have hlt : head.toNat < 2 ^ 32 := head.toNat_lt
  have hsum : (roundDown head n + c).toNat = head.toNat - head.toNat % n.toNat + c.toNat := by
    rw [UInt32.toNat_add, hn.toNat_roundDown]
    exact Nat.mod_eq_of_lt (by omega)
  simp only [catchUp, UInt32.le_iff_toNat_le, hsum, gap]
  split_ifs with h1 h2 h2
  · omega
  · rw [UInt32.toNat_add, hsum]
    exact congrArg (· % 2 ^ 32) (by omega)
  · have hval : head.toNat + (c.toNat - head.toNat % n.toNat) =
        head.toNat - head.toNat % n.toNat + c.toNat := by omega
    rw [hval, hsum]
    exact (Nat.mod_eq_of_lt (by omega)).symm
  · omega

theorem lead_def (a b : UInt32) : lead a b = (2 ^ 32 - a.toNat + b.toNat) % 2 ^ 32 :=
  UInt32.toNat_sub b a

theorem toNat_min (a b : UInt32) : (min a b).toNat = min a.toNat b.toNat := by
  change (if a ≤ b then a else b).toNat = _
  rw [apply_ite UInt32.toNat, Nat.min_def]
  exact if_congr UInt32.le_iff_toNat_le rfl rfl

theorem toNat_min_uint8 (a b : UInt8) : (min a b).toNat = min a.toNat b.toNat := by
  change (if a ≤ b then a else b).toNat = _
  rw [apply_ite UInt8.toNat, Nat.min_def]
  exact if_congr UInt8.le_iff_toNat_le rfl rfl

theorem ofNat_succ (k : ℕ) : UInt32.ofNat (k + 1) = UInt32.ofNat k + 1 := UInt32.ofNat_add k 1

/-- The distance of two counters, from their values before the reduction. -/
theorem lead_ofNat {x y : ℕ} (hle : x ≤ y) (hlt : y < x + 2 ^ 32) :
    lead (UInt32.ofNat x) (UInt32.ofNat y) = y - x := by
  rw [lead_def, UInt32.toNat_ofNat', UInt32.toNat_ofNat']
  omega

theorem Pow2.toNat_ofNat_mod {n : UInt32} (hn : Pow2 n) (k : ℕ) :
    (UInt32.ofNat k).toNat % n.toNat = k % n.toNat := by
  rw [UInt32.toNat_ofNat', Nat.mod_mod_of_dvd _ hn.dvd_wrap]

/-- Counters less than a lap apart have slots of their own. -/
theorem slot_ne {n j k : ℕ} (hlt : j < k) (hlap : k < j + n) : j % n ≠ k % n := by
  intro h
  have hdvd : n ∣ k - j := Nat.dvd_of_mod_eq_zero (Nat.sub_mod_eq_zero_of_mod_eq h.symm)
  exact absurd (Nat.le_of_dvd (by omega) hdvd) (by omega)

theorem slot_add_near {n x j : ℕ} (hlt : x % n + j < n) : (x + j) % n = x % n + j := by
  rw [Nat.add_mod, Nat.mod_eq_of_lt (by omega : j < n), Nat.mod_eq_of_lt hlt]

theorem slot_add_far {n x j : ℕ} (hge : n ≤ x % n + j) (hlt : x % n + j < n + n) :
    (x + j) % n = x % n + j - n := by
  rw [← Nat.mod_add_div x n, Nat.add_right_comm, Nat.add_mul_mod_self_left, Nat.mod_add_div,
    Nat.mod_eq_sub_mod hge, Nat.mod_eq_of_lt (by omega)]

end YoctoLayers.Lib
