import Mathlib.Algebra.BigOperators.Group.Multiset.Basic
import Mathlib.Data.List.Perm.Basic

/-! What a row of owners has between them. -/
namespace YoctoLayers.Lib.Owners

variable {ι ρ : Type*} (res : ι → Multiset ρ)

def total (l : List ι) : Multiset ρ := (l.map res).sum

theorem total_concat (l : List ι) (x : ι) : total res (l ++ [x]) = total res l + res x := by
  unfold total
  rw [List.map_append, List.sum_append, List.map_singleton, List.sum_singleton]

theorem total_perm {l l' : List ι} (h : l.Perm l') : total res l = total res l' :=
  (h.map res).sum_eq

variable {res} {l : List ι} {i : ℕ} {x y : ι}

/-- One owner, and the others. -/
theorem total_eraseIdx (h : l[i]? = some y) : total res l = res y + total res (l.eraseIdx i) := by
  obtain ⟨hlt, rfl⟩ := List.getElem?_eq_some_iff.mp h
  exact (total_perm res (List.getElem_cons_eraseIdx_perm hlt)).symm

theorem total_set (h : l[i]? = some y) :
    total res (l.set i x) = res x + total res (l.eraseIdx i) := by
  obtain ⟨hlt, -⟩ := List.getElem?_eq_some_iff.mp h
  exact total_perm res (List.set_perm_cons_eraseIdx hlt x)

theorem exists_of_mem_total {r : ρ} (h : r ∈ total res l) : ∃ y ∈ l, r ∈ res y := by
  induction l with
  | nil => exact absurd h (Multiset.notMem_zero r)
  | cons x l ih =>
    rcases Multiset.mem_add.mp h with hx | hl
    · exact ⟨x, List.mem_cons_self, hx⟩
    · obtain ⟨y, hy, hr⟩ := ih hl
      exact ⟨y, List.mem_cons_of_mem x hy, hr⟩

theorem mem_total {r : ρ} (h : y ∈ l) (hr : r ∈ res y) : r ∈ total res l := by
  obtain ⟨i, hi⟩ := List.mem_iff_getElem?.mp h
  rw [total_eraseIdx hi]
  exact Multiset.mem_add.mpr (Or.inl hr)

end YoctoLayers.Lib.Owners
