import Mathlib

/-! Programs that may fail and whose state survives the failure: Hoare triples with a
condition for either exit, and the invariants that a program keeps on both. -/
namespace YoctoLayers.Lib
open Std.Do

variable {ε ω α β : Type}

/-- From a state in `P`, `x` returns `a` in a state in `Q a` or throws `e` in a state in `E e`. -/
def Ensures (P : ω → Prop) (x : EStateM ε ω α) (Q : α → ω → Prop) (E : ε → ω → Prop) : Prop :=
  ⦃fun w => ⌜P w⌝⦄ x ⦃post⟨fun a w => ⌜Q a w⌝, fun e w => ⌜E e w⌝⟩⦄

/-- `I` holds after `x` if it held before, whether `x` fails or not. -/
def Keeps (I : ω → Prop) (x : EStateM ε ω α) : Prop := Ensures I x (fun _ => I) fun _ => I

theorem ensures_iff {P : ω → Prop} {x : EStateM ε ω α} {Q : α → ω → Prop} {E : ε → ω → Prop} :
    Ensures P x Q E ↔ ∀ w, P w →
      match x w with
      | .ok a w' => Q a w'
      | .error e w' => E e w' := by
  constructor
  · intro h w hw
    have := h w hw
    simp only [WP.wp, PredTrans.apply, EStateM.run] at this
    cases hx : x w <;> simpa [hx] using this
  · intro h w hw
    have := h w hw
    simp only [WP.wp, PredTrans.apply, EStateM.run]
    cases hx : x w <;> simpa [hx] using this

namespace Ensures
variable {P P' : ω → Prop} {x : EStateM ε ω α} {f : α → EStateM ε ω β} {Q Q' : α → ω → Prop}
  {R : β → ω → Prop} {E E' : ε → ω → Prop}

theorem bind (hx : Ensures P x Q E) (hf : ∀ a, Ensures (Q a) (f a) R E) :
    Ensures P (x >>= f) R E :=
  Triple.bind x f hx hf

theorem pure {a : α} (h : ∀ w, P w → Q a w) : Ensures P (pure a : EStateM ε ω α) Q E :=
  Triple.pure a h

theorem throw {e : ε} (h : ∀ w, P w → E e w) : Ensures P (throw e : EStateM ε ω α) Q E :=
  ensures_iff.mpr h

theorem ite {c : Prop} [Decidable c] {y : EStateM ε ω α} (hx : c → Ensures P x Q E)
    (hy : ¬ c → Ensures P y Q E) : Ensures P (if c then x else y) Q E := by
  split_ifs with h
  · exact hx h
  · exact hy h

theorem of_false (h : ∀ w, ¬ P w) : Ensures P x Q E :=
  ensures_iff.mpr fun w hw => (h w hw).elim

/-- A fact about all states to start from may be taken for granted. -/
theorem given {c : Prop} (hc : ∀ w, P w → c) (h : c → Ensures P x Q E) : Ensures P x Q E :=
  ensures_iff.mpr fun w hw => ensures_iff.mp (h (hc w hw)) w hw

theorem ofExists {γ : Type} {P : γ → ω → Prop} (h : ∀ c, Ensures (P c) x Q E) :
    Ensures (fun w => ∃ c, P c w) x Q E :=
  ensures_iff.mpr fun w ⟨c, hw⟩ => ensures_iff.mp (h c) w hw

theorem imp (hx : Ensures P x Q E) (hP : ∀ w, P' w → P w) (hQ : ∀ a w, Q a w → Q' a w)
    (hE : ∀ e w, E e w → E' e w) : Ensures P' x Q' E' := by
  rw [ensures_iff] at hx ⊢
  intro w hw
  have := hx w (hP w hw)
  cases h : x w with
  | ok a w' =>
    rw [h] at this
    exact hQ a w' this
  | error e w' =>
    rw [h] at this
    exact hE e w' this

theorem pre (hx : Ensures P x Q E) (hP : ∀ w, P' w → P w) : Ensures P' x Q E :=
  hx.imp hP (fun _ _ h => h) fun _ _ h => h

theorem failed (hx : Ensures P x Q E) (hE : ∀ e w, E e w → E' e w) : Ensures P x Q E' :=
  hx.imp (fun _ h => h) (fun _ _ h => h) hE

/-- What a program that never fails leaves behind where it fails may be anything. -/
theorem neverFails (hx : Ensures P x Q fun _ _ => False) : Ensures P x Q E :=
  hx.failed fun _ _ h => h.elim

theorem unlessFails (hx : Ensures P x Q E) : Ensures P x Q fun _ _ => True :=
  hx.failed fun _ _ _ => trivial

theorem and (hx : Ensures P x Q E) (hx' : Ensures P' x Q' E') :
    Ensures (fun w => P w ∧ P' w) x (fun a w => Q a w ∧ Q' a w) fun e w => E e w ∧ E' e w := by
  rw [ensures_iff] at hx hx' ⊢
  intro w hw
  have hone := hx w hw.1
  have htwo := hx' w hw.2
  cases h : x w with
  | ok a w' =>
    rw [h] at hone htwo
    exact ⟨hone, htwo⟩
  | error e w' =>
    rw [h] at hone htwo
    exact ⟨hone, htwo⟩

theorem trivial : Ensures P x (fun _ _ => True) fun _ _ => True := by
  rw [ensures_iff]
  intro w _
  cases x w <;> trivial

theorem tryCatch {X : ε → ω → Prop} {h : ε → EStateM ε ω α} (hx : Ensures P x Q X)
    (hh : ∀ e, Ensures (X e) (h e) Q E) : Ensures P (tryCatch x h) Q E := by
  rw [ensures_iff] at hx ⊢
  intro w hw
  have hx := hx w hw
  change match EStateM.tryCatch x h w with | .ok a w' => Q a w' | .error e w' => E e w'
  unfold EStateM.tryCatch
  cases hr : x w with
  | ok a w' =>
    rw [hr] at hx
    exact hx
  | error e w' =>
    rw [hr] at hx
    exact ensures_iff.mp (hh e) w' hx

end Ensures

namespace Keeps
variable {I : ω → Prop} {x y : EStateM ε ω α} {f : α → EStateM ε ω β}

theorem bind (hx : Keeps I x) (hf : ∀ a, Keeps I (f a)) : Keeps I (x >>= f) :=
  Ensures.bind hx hf

theorem pure (a : α) : Keeps I (pure a : EStateM ε ω α) := Ensures.pure fun _ h => h

theorem map (g : α → β) (hx : Keeps I x) : Keeps I (g <$> x) := by
  rw [map_eq_pure_bind]
  exact hx.bind fun _ => pure _

theorem throw (e : ε) : Keeps I (throw e : EStateM ε ω α) := Ensures.throw fun _ h => h

theorem get : Keeps I (get : EStateM ε ω ω) := ensures_iff.mpr fun _ h => h

theorem modify {f : ω → ω} (h : ∀ w, I w → I (f w)) : Keeps I (modify f : EStateM ε ω PUnit) :=
  ensures_iff.mpr h

theorem tryCatch {h : ε → EStateM ε ω α} (hx : Keeps I x) (hh : ∀ e, Keeps I (h e)) :
    Keeps I (tryCatch x h) :=
  Ensures.tryCatch hx hh

theorem unlessFails (hx : Keeps I x) : Ensures I x (fun _ => I) fun _ _ => True :=
  Ensures.unlessFails hx

/-- A program that keeps `I`, in front of one that need not where it fails. -/
theorem bindUnlessFails {R : β → ω → Prop} (hx : Keeps I x)
    (hf : ∀ a, Ensures I (f a) R fun _ _ => True) : Ensures I (x >>= f) R fun _ _ => True :=
  Ensures.bind hx.unlessFails hf

theorem ite {c : Prop} [Decidable c] (hx : Keeps I x) (hy : Keeps I y) :
    Keeps I (if c then x else y) :=
  Ensures.ite (fun _ => hx) fun _ => hy

end Keeps
end YoctoLayers.Lib
