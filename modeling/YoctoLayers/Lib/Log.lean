import Mathlib.Data.List.GetD
import Mathlib.Tactic.SplitIfs

/-! Logs: lists that grow at their end. -/
namespace YoctoLayers.Lib

/-- An entry of a log that has grown is an old entry or the new one. -/
theorem getElem?_concat {α : Type*} {l : List α} {a x : α} {i : ℕ} (h : (l ++ [a])[i]? = some x) :
    l[i]? = some x ∨ i = l.length ∧ a = x := by
  rw [List.getElem?_append] at h
  split_ifs at h with hlt
  · exact Or.inl h
  · rw [List.getElem?_singleton] at h
    split_ifs at h
    exact Or.inr ⟨by omega, Option.some.inj h⟩

theorem getElem?_concat_of_some {α : Type*} {l : List α} {a x : α} {i : ℕ} (h : l[i]? = some x) :
    (l ++ [a])[i]? = some x := by
  rw [List.getElem?_append_left (List.getElem?_eq_some_iff.mp h).1, h]

/-- The copy of a log, one entry further. -/
theorem prefix_concat {α : Type*} {l m : List α} {x : α} (h : l <+: m)
    (hx : m[l.length]? = some x) : l ++ [x] <+: m := by
  obtain ⟨rest, rfl⟩ := h
  rw [List.getElem?_append_right (Nat.le_refl _), Nat.sub_self] at hx
  cases rest with
  | nil => cases hx
  | cons y rest =>
    cases hx
    exact ⟨rest, by simp⟩

end YoctoLayers.Lib
