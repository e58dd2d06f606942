import YoctoLayers.Lib.System
import Mathlib.Data.Nat.Init

/-! Runs without end, and what has to happen along them. -/
namespace YoctoLayers.Lib
namespace Sys
variable {σ ε : Type*} (S : Sys σ ε)

/-- A run without end. -/
structure Trace (ss : ℕ → σ) (es : ℕ → ε) : Prop where
  init : ss 0 = S.init
  step : ∀ n, S.step (ss n) (es n) = some (ss (n + 1))

/-- Weak fairness: an event of the kind `p` that stays possible happens. -/
def WeakFair (p : ε → Prop) (ss : ℕ → σ) (es : ℕ → ε) : Prop :=
  ∀ n, ∃ m, n ≤ m ∧ (p (es m) ∨ ∀ e t, p e → S.step (ss m) e ≠ some t)

variable {S} {ss : ℕ → σ} {es : ℕ → ε}

theorem Trace.invariant {I : σ → Prop} {Q : σ → ε → Prop} (h : S.Trace ss es)
    (hkeep : ∀ {s e t}, I s → S.step s e = some t → Q s e → I t) (hs : I S.init)
    (hq : ∀ n, Q (ss n) (es n)) (n : ℕ) : I (ss n) := by
  induction n with
  | zero =>
    rw [h.init]
    exact hs
  | succ n ih => exact hkeep ih (h.step n) (hq n)

/-- A run to a state that `e` leaves as it is goes on with `e` without end. -/
theorem exists_trace {s₀ s : σ} {pre : List ε} {e : ε} {Q : σ → ε → Prop}
    (hrun : S.runFrom s₀ pre = some s) (hloop : S.step s e = some s)
    (hq : S.Along (fun u a _ => Q u a) s₀ pre) (hend : Q s e) :
    ∃ (ss : ℕ → σ) (es : ℕ → ε), ss 0 = s₀ ∧ (∀ n, S.step (ss n) (es n) = some (ss (n + 1))) ∧
      (∀ n, Q (ss n) (es n)) ∧ (∀ n, pre.length ≤ n → ss n = s) ∧
      ∀ n t, S.runFrom s₀ (pre.take n) = some t → ss n = t := by
  induction pre generalizing s₀ with
  | nil =>
    obtain rfl : s₀ = s := Option.some.inj hrun
    exact ⟨fun _ => s₀, fun _ => e, rfl, fun _ => hloop, fun _ => hend, fun _ _ => rfl,
      fun n t ht => Option.some.inj (by simpa [runFrom] using ht)⟩
  | cons a pre ih =>
    obtain ⟨u, hu, hrest⟩ := Option.bind_eq_some_iff.mp hrun
    obtain ⟨hqa, hqrest⟩ := hq u hu
    obtain ⟨ss, es, hzero, hstep, hqs, hlast, hprefix⟩ := ih hrest hqrest
    refine ⟨fun n => n.casesOn s₀ ss, fun n => n.casesOn a es, rfl, fun n => ?_, fun n => ?_,
      fun n hn => ?_, fun n t ht => ?_⟩
    · cases n with
      | zero =>
        change S.step s₀ a = some (ss 0)
        rw [hu, hzero]
      | succ n => exact hstep n
    · cases n with
      | zero => exact hqa
      | succ n => exact hqs n
    · cases n with
      | zero => exact absurd hn (Nat.not_succ_le_zero _)
      | succ n => exact hlast n (Nat.le_of_succ_le_succ hn)
    · cases n with
      | zero => exact Option.some.inj ht
      | succ n =>
        obtain ⟨v, hv, hvt⟩ := Option.bind_eq_some_iff.mp ht
        obtain rfl : u = v := Option.some.inj (hu.symm.trans hv)
        exact hprefix n t hvt

/-- A region is left if every step in it lowers a rank, or keeps it where a fair event, other
than the step's, is possible. -/
theorem WeakFair.leaves {p : ε → Prop} {R : σ → Prop} (rank : σ → ℕ) (h : S.WeakFair p ss es)
    (hstep : ∀ n, R (ss n) → R (ss (n + 1)) → rank (ss (n + 1)) < rank (ss n) ∨
      rank (ss (n + 1)) = rank (ss n) ∧ ¬ p (es n) ∧ ∃ e t, p e ∧ S.step (ss n) e = some t)
    (n : ℕ) : ∃ m, n ≤ m ∧ ¬ R (ss m) := by
  induction hr : rank (ss n) using Nat.strongRecOn generalizing n with
  | ind r ih =>
    by_contra hstay
    have hin (m : ℕ) (hm : n ≤ m) : R (ss m) := by
      by_contra hout
      exact hstay ⟨m, hm, hout⟩
    have hlow (m : ℕ) (hm : n ≤ m) : r ≤ rank (ss m) := by
      by_contra hlt
      obtain ⟨k, hk, hout⟩ := ih (rank (ss m)) (Nat.lt_of_not_le hlt) m rfl
      exact hout (hin k (Nat.le_trans hm hk))
    have hconst (m : ℕ) (hm : n ≤ m) : rank (ss m) = r := by
      induction m, hm using Nat.le_induction with
      | base => exact hr
      | succ m hm ihm =>
        have hnext := hlow (m + 1) (Nat.le_succ_of_le hm)
        rcases hstep m (hin m hm) (hin (m + 1) (Nat.le_succ_of_le hm)) with hlt | ⟨heq, -, -⟩
        · omega
        · rw [heq, ihm]
    obtain ⟨m, hm, hfair⟩ := h n
    have hnext := hconst (m + 1) (Nat.le_succ_of_le hm)
    have hnow := hconst m hm
    have hboth := hstep m (hin m hm) (hin (m + 1) (Nat.le_succ_of_le hm))
    rcases hboth with hlt | ⟨-, hother, e, t, hp, ht⟩
    · omega
    · rcases hfair with hyes | hnone
      · exact hother hyes
      · exact hnone e t hp ht

end Sys
end YoctoLayers.Lib
