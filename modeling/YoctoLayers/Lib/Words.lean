import Mathlib.Data.List.Infix

/-! First and last occurrences. Those of a word whose first letter is nowhere else in it do not
overlap, and what commutes with it is a power of it. -/
namespace YoctoLayers.Lib.Words

variable {α : Type} {c : α} {t u v w s : List α}

/-- `k` copies of `w`. -/
def power (w : List α) (k : ℕ) : List α := (List.replicate k w).flatten

@[simp]
theorem power_zero (w : List α) : power w 0 = [] := rfl

@[simp]
theorem power_succ (w : List α) (k : ℕ) : power w (k + 1) = w ++ power w k := rfl

theorem power_append_self (w : List α) (k : ℕ) : power w k ++ w = w ++ power w k := by
  induction k with
  | zero => rw [power_zero, List.nil_append, List.append_nil]
  | succ k ih => rw [power_succ, List.append_assoc, ih]

/-- The place where a word occurs first. -/
theorem exists_first (hw : w ≠ []) (h : w <:+: s) : ∃ u v, s = u ++ (w ++ v) ∧ ¬ w <:+: u := by
  induction s with
  | nil => exact absurd (List.infix_nil.mp h) hw
  | cons a s ih =>
    by_cases hpre : w <+: a :: s
    · obtain ⟨v, hv⟩ := hpre
      exact ⟨[], v, hv.symm, fun hnil => hw (List.infix_nil.mp hnil)⟩
    · obtain ⟨u, v, rfl, hu⟩ := ih ((List.infix_cons_iff.mp h).resolve_left hpre)
      refine ⟨a :: u, v, rfl, fun hau => ?_⟩
      rcases List.infix_cons_iff.mp hau with hau | hau
      · exact hpre (hau.trans (List.prefix_append (a :: u) _))
      · exact hu hau

/-- The place where a letter occurs last. -/
theorem exists_last (hc : c ∈ s) : ∃ u v, s = u ++ c :: v ∧ c ∉ v := by
  obtain ⟨v, u, hs, hv⟩ := List.eq_append_cons_of_mem (List.mem_reverse.mpr hc)
  refine ⟨u.reverse, v.reverse, ?_, fun hmem => hv (List.mem_reverse.mp hmem)⟩
  rw [← List.reverse_reverse s, hs]
  simp

theorem intercalate_concat {ws : List (List α)} (hws : ws ≠ []) (s w : List α) :
    s.intercalate (ws ++ [w]) = s.intercalate ws ++ s ++ w := by
  induction ws with
  | nil => exact absurd rfl hws
  | cons u ws ih =>
    by_cases hrest : ws = []
    · simp [hrest]
    · rw [List.cons_append, List.intercalate_cons_of_ne_nil (by simp),
        List.intercalate_cons_of_ne_nil hrest, ih hrest]
      simp

/-- An occurrence in front of another one ends before that begins. -/
theorem prefix_of_prefix_append (hc : c ∉ t) (hu : u ≠ []) (h : c :: t <+: u ++ (c :: t ++ v)) :
    c :: t <+: u := by
  obtain ⟨r, hr⟩ := h
  rcases List.append_eq_append_iff.mp hr with ⟨x, hx, -⟩ | ⟨x, hx, hxr⟩
  · exact ⟨x, hx.symm⟩
  · cases x with
    | nil => exact ⟨[], by simpa using hx⟩
    | cons d x =>
      obtain ⟨a, u, rfl⟩ := List.exists_cons_of_ne_nil hu
      have hd : d = c := (List.cons.inj hxr).1.symm
      have ht : t = u ++ d :: x := (List.cons.inj hx).2
      exact absurd (ht ▸ hd ▸ List.mem_append_right u List.mem_cons_self) hc

theorem append_comm_iff (hc : c ∉ t) : v ++ c :: t = c :: t ++ v ↔ ∃ k, v = power (c :: t) k := by
  constructor
  · intro h
    induction hn : v.length using Nat.strong_induction_on generalizing v with
    | _ n ih =>
      cases v with
      | nil => exact ⟨0, rfl⟩
      | cons a v =>
        have hpre : c :: t <+: a :: v ++ (c :: t ++ []) := ⟨a :: v, by simpa using h.symm⟩
        obtain ⟨r, hr⟩ := prefix_of_prefix_append hc (List.cons_ne_nil a v) hpre
        rw [← hr, List.append_assoc] at h
        have hlen : r.length < n := by
          rw [← hn, ← hr, List.length_append, List.length_cons]
          omega
        obtain ⟨k, rfl⟩ := ih r.length hlen (List.append_cancel_left h) rfl
        exact ⟨k + 1, hr.symm⟩
  · rintro ⟨k, rfl⟩
    exact power_append_self (c :: t) k

end YoctoLayers.Lib.Words
