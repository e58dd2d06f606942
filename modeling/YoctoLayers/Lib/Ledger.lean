import Mathlib.Algebra.Group.Int.Defs
import Mathlib.Logic.Function.Basic

/-! Ledgers: how often each resource has been taken and not given back. -/
namespace YoctoLayers.Lib

abbrev Ledger (ρ : Type) := ρ → ℤ

namespace Ledger
variable {ρ : Type} [DecidableEq ρ]

def acquire (l : Ledger ρ) (r : ρ) : Ledger ρ := Function.update l r (l r + 1)

def release (l : Ledger ρ) (r : ρ) : Ledger ρ := Function.update l r (l r - 1)

theorem acquire_apply (l : Ledger ρ) (r x : ρ) :
    l.acquire r x = if x = r then l r + 1 else l x := by
  unfold acquire
  rw [Function.update_apply]

theorem release_apply (l : Ledger ρ) (r x : ρ) :
    l.release r x = if x = r then l r - 1 else l x := by
  unfold release
  rw [Function.update_apply]

theorem release_comm (l : Ledger ρ) (r x : ρ) :
    (l.release r).release x = (l.release x).release r := by
  by_cases h : r = x
  · rw [h]
  · unfold release
    rw [Function.update_of_ne (Ne.symm h), Function.update_of_ne h, Function.update_comm h]

/-- What is taken and given back leaves no trace. -/
@[simp] theorem release_acquire (l : Ledger ρ) (r : ρ) : (l.acquire r).release r = l := by
  unfold acquire release
  rw [Function.update_self, Function.update_idem, Int.add_sub_cancel, Function.update_eq_self]

end Ledger
end YoctoLayers.Lib
