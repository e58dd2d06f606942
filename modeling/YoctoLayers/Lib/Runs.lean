import YoctoLayers.Lib.Keeps

/-! Single runs of programs that may fail: where a run goes when its first step is known. -/
namespace YoctoLayers.Lib

variable {ε ω α β : Type} {x : EStateM ε ω α} {f : α → EStateM ε ω β} {w w' : ω}

/-- The state in which a run ends, on either exit. -/
def after (x : EStateM ε ω α) (w : ω) : ω :=
  match x w with
  | .ok _ w' => w'
  | .error _ w' => w'

theorem after_ok {a : α} (h : x w = .ok a w') : after x w = w' := by
  unfold after
  rw [h]

theorem after_error {e : ε} (h : x w = .error e w') : after x w = w' := by
  unfold after
  rw [h]

theorem run_bind_ok {a : α} (h : x w = .ok a w') : (x >>= f) w = f a w' := by
  change EStateM.bind x f w = f a w'
  unfold EStateM.bind
  rw [h]

theorem run_bind_error {e : ε} (h : x w = .error e w') : (x >>= f) w = .error e w' := by
  change EStateM.bind x f w = .error e w'
  unfold EStateM.bind
  rw [h]

/-- Two runs that agree up to one step go on alike. -/
theorem run_bind_congr {y : EStateM ε ω α} (h : x w = y w') : (x >>= f) w = (y >>= f) w' := by
  change EStateM.bind x f w = EStateM.bind y f w'
  unfold EStateM.bind
  rw [h]

theorem after_bind_pure (b : β) : after (x >>= fun _ => pure b) w = after x w := by
  cases h : x w with
  | ok a w' =>
    rw [after_ok h]
    exact after_ok (run_bind_ok h)
  | error e w' =>
    rw [after_error h]
    exact after_error (run_bind_error h)

theorem ok_of_bind {b : β} (h : (x >>= f) w = .ok b w') :
    ∃ a w₁, x w = .ok a w₁ ∧ f a w₁ = .ok b w' := by
  cases hx : x w with
  | ok a w₁ => exact ⟨a, w₁, rfl, (run_bind_ok hx).symm.trans h⟩
  | error e w₁ => cases (run_bind_error hx).symm.trans h

theorem ok_of_run' {a : α} (h : EStateM.run' x w = some a) : ∃ w', x w = .ok a w' := by
  unfold EStateM.run' EStateM.run at h
  split at h
  · next hx =>
    cases h
    exact ⟨_, hx⟩
  · cases h

theorem run_tryCatch_ok {a : α} {g : ε → EStateM ε ω α} (h : x w = .ok a w') :
    tryCatch x g w = .ok a w' := by
  change EStateM.tryCatch x g w = .ok a w'
  unfold EStateM.tryCatch
  rw [h]

theorem run_tryCatch_error {e : ε} {g : ε → EStateM ε ω α} (h : x w = .error e w') :
    tryCatch x g w = g e w' := by
  change EStateM.tryCatch x g w = g e w'
  unfold EStateM.tryCatch
  rw [h]
  rfl

theorem Ensures.ok {P : ω → Prop} {Q : α → ω → Prop} {E : ε → ω → Prop} (h : Ensures P x Q E)
    (hw : P w) {a : α} (hx : x w = .ok a w') : Q a w' := by
  have := ensures_iff.mp h w hw
  rw [hx] at this
  exact this

theorem Ensures.error {P : ω → Prop} {Q : α → ω → Prop} {E : ε → ω → Prop} (h : Ensures P x Q E)
    (hw : P w) {e : ε} (hx : x w = .error e w') : E e w' := by
  have := ensures_iff.mp h w hw
  rw [hx] at this
  exact this

theorem Ensures.after {P Q : ω → Prop} (h : Ensures P x (fun _ => Q) fun _ => Q) (hw : P w) :
    Q (after x w) := by
  cases hx : x w with
  | ok a w' =>
    rw [after_ok hx]
    exact h.ok hw hx
  | error e w' =>
    rw [after_error hx]
    exact h.error hw hx

theorem Keeps.after {I : ω → Prop} (h : Keeps I x) (hw : I w) : I (after x w) :=
  Ensures.after h hw

end YoctoLayers.Lib
