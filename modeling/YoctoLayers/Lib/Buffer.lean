import Mathlib.Data.List.Basic

/-! Memory of a fixed size, copied to at an offset. A copy past the end is an error. -/
namespace YoctoLayers.Lib

/-- `n` cells. -/
structure Buffer (α : Type) (n : ℕ) where
  cells : List α
  length_cells : cells.length = n

namespace Buffer
variable {α : Type} {n : ℕ}

/-- `memcpy` of `src` to offset `off`. -/
def store (b : Buffer α n) (off : ℕ) (src : List α) : Option (Buffer α n) :=
  if h : off + src.length ≤ n then
    some ⟨b.cells.take off ++ src ++ b.cells.drop (off + src.length), by
      have := b.length_cells
      simp only [List.length_append, List.length_take, List.length_drop]
      omega⟩
  else none

variable {b b' : Buffer α n} {off : ℕ} {src : List α}

theorem store_eq_some (b : Buffer α n) (h : off + src.length ≤ n) :
    ∃ b', b.store off src = some b' := by
  unfold store
  rw [dif_pos h]
  exact ⟨_, rfl⟩

theorem cells_of_store (h : b.store off src = some b') :
    off + src.length ≤ n ∧
      b'.cells = b.cells.take off ++ src ++ b.cells.drop (off + src.length) := by
  unfold store at h
  split_ifs at h with hfit
  cases h
  exact ⟨hfit, rfl⟩

/-- What is in front of a copy stays. -/
theorem take_of_store_of_le (h : b.store off src = some b') {k : ℕ} (hk : k ≤ off) :
    b'.cells.take k = b.cells.take k := by
  obtain ⟨hfit, hcells⟩ := cells_of_store h
  have := b.length_cells
  have hlen : (b.cells.take off).length = off := by
    rw [List.length_take]
    omega
  rw [hcells, List.append_assoc, List.take_append_of_le_length (by omega), List.take_take]
  congr 1
  omega

/-- The cells up to the end of a copy. -/
theorem take_of_store (h : b.store off src = some b') :
    b'.cells.take (off + src.length) = b.cells.take off ++ src := by
  obtain ⟨hfit, hcells⟩ := cells_of_store h
  have := b.length_cells
  have hlen : (b.cells.take off ++ src).length = off + src.length := by
    rw [List.length_append, List.length_take]
    omega
  rw [hcells, ← hlen, List.take_left']
  rfl

/-- A copy between two parts that stay. -/
theorem take_of_store_of_ge (h : b.store off src = some b') {k : ℕ} (hk : off + src.length ≤ k) :
    b'.cells.take k = b.cells.take off ++ src ++ (b.cells.take k).drop (off + src.length) := by
  obtain ⟨hfit, hcells⟩ := cells_of_store h
  have := b.length_cells
  have hlen : (b.cells.take off ++ src).length = off + src.length := by
    rw [List.length_append, List.length_take]
    omega
  rw [hcells, List.take_append, hlen, List.take_of_length_le (by omega), List.drop_take]

/-- A cell after a copy. -/
theorem getElem?_of_store (h : b.store off src = some b') (i : ℕ) :
    b'.cells[i]? = if off ≤ i ∧ i < off + src.length then src[i - off]? else b.cells[i]? := by
  obtain ⟨hfit, hcells⟩ := cells_of_store h
  have := b.length_cells
  have hlen : (b.cells.take off).length = off := by
    rw [List.length_take]
    omega
  rw [hcells]
  split_ifs with hin
  · rw [List.getElem?_append_left (by rw [List.length_append]; omega),
      List.getElem?_append_right (by omega), hlen]
  · by_cases hlow : i < off
    · rw [List.getElem?_append_left (by rw [List.length_append]; omega),
        List.getElem?_append_left (by omega), List.getElem?_take, if_pos hlow]
    · rw [List.getElem?_append_right (by rw [List.length_append]; omega), List.length_append, hlen,
        List.getElem?_drop]
      congr 1
      omega

end Buffer
end YoctoLayers.Lib
