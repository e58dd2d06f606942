import Mathlib.Data.List.Basic

/-! Event-driven systems: runs, reachable states, inductive invariants. -/
namespace YoctoLayers.Lib

/-- A system driven by events. `step s e = none` when `e` cannot happen in `s`. -/
structure Sys (σ ε : Type*) where
  init : σ
  step : σ → ε → Option σ

namespace Sys
variable {σ ε : Type*} (S : Sys σ ε)

/-- The state after a list of events, if every one of them can happen. -/
def runFrom (s : σ) : List ε → Option σ
  | [] => some s
  | e :: es => (S.step s e).bind fun t => runFrom t es

def Reachable (s : σ) : Prop := ∃ es, S.runFrom S.init es = some s

theorem runFrom_append (s : σ) (es fs : List ε) :
    S.runFrom s (es ++ fs) = (S.runFrom s es).bind fun t => S.runFrom t fs := by
  induction es generalizing s with
  | nil => rfl
  | cons e es ih =>
    simp only [List.cons_append, runFrom]
    cases S.step s e with
    | none => rfl
    | some t => exact ih t

variable {S}

theorem Reachable.init : S.Reachable S.init := ⟨[], rfl⟩

theorem Reachable.run {s t : σ} (hs : S.Reachable s) (es : List ε)
    (ht : S.runFrom s es = some t) : S.Reachable t := by
  obtain ⟨fs, hf⟩ := hs
  exact ⟨fs ++ es, by rw [runFrom_append, hf]; exact ht⟩

theorem Reachable.next {s t : σ} (hs : S.Reachable s) {e : ε} (he : S.step s e = some t) :
    S.Reachable t :=
  hs.run [e] (by simp [runFrom, he])

variable (S)

/-- An inductive invariant. -/
structure Invariant (I : σ → Prop) : Prop where
  init : I S.init
  step : ∀ {s e t}, I s → S.step s e = some t → I t

/-- `Q` holds of the state before, the event and the state after, all along a run. -/
def Along (Q : σ → ε → σ → Prop) : σ → List ε → Prop
  | _, [] => True
  | s, e :: es => ∀ t, S.step s e = some t → Q s e t ∧ Along Q t es

variable {S}

theorem Invariant.run {I : σ → Prop} (h : ∀ {s e t}, I s → S.step s e = some t → I t)
    {s t : σ} (hs : I s) {es : List ε} (ht : S.runFrom s es = some t) : I t := by
  induction es generalizing s with
  | nil =>
    have : s = t := Option.some.inj ht
    exact this ▸ hs
  | cons e es ih =>
    obtain ⟨u, hu, hr⟩ := Option.bind_eq_some_iff.mp ht
    exact ih (h hs hu) hr

theorem Invariant.reachable {I : σ → Prop} (h : S.Invariant I) {s : σ} (hs : S.Reachable s) :
    I s := by
  obtain ⟨es, he⟩ := hs
  exact Invariant.run h.step h.init he

/-- Two step properties that agree wherever `I` holds, the second of which keeps `I`,
agree along every run. -/
theorem along_iff {I : σ → Prop} {P Q : σ → ε → σ → Prop}
    (hiff : ∀ {s e t}, I s → S.step s e = some t → (P s e t ↔ Q s e t))
    (hkeep : ∀ {s e t}, I s → S.step s e = some t → Q s e t → I t)
    {s : σ} (hs : I s) (es : List ε) : S.Along P s es ↔ S.Along Q s es := by
  induction es generalizing s with
  | nil => exact Iff.rfl
  | cons e es ih =>
    constructor
    · intro h t ht
      obtain ⟨hp, hr⟩ := h t ht
      have hq := (hiff hs ht).mp hp
      exact ⟨hq, (ih (hkeep hs ht hq)).mp hr⟩
    · intro h t ht
      obtain ⟨hq, hr⟩ := h t ht
      exact ⟨(hiff hs ht).mpr hq, (ih (hkeep hs ht hq)).mpr hr⟩

/-- If the steps that meet `Q` keep `I` and meet `P`, a run that meets `Q` all along meets `P`
all along. -/
theorem Along.imp {I : σ → Prop} {P Q : σ → ε → σ → Prop}
    (hkeep : ∀ {s e t}, I s → S.step s e = some t → Q s e t → I t ∧ P s e t)
    {s : σ} (hs : I s) {es : List ε} (ha : S.Along Q s es) : S.Along P s es := by
  induction es generalizing s with
  | nil => trivial
  | cons e es ih =>
    intro t ht
    obtain ⟨hq, hrest⟩ := ha t ht
    obtain ⟨hi, hp⟩ := hkeep hs ht hq
    exact ⟨hp, ih hi hrest⟩

/-- An invariant of the steps that meet a condition holds wherever a run all of whose
steps meet it can lead. -/
theorem Along.invariant {I : σ → Prop} {Q : σ → ε → σ → Prop}
    (hkeep : ∀ {s e t}, I s → S.step s e = some t → Q s e t → I t)
    {s t : σ} (hs : I s) {es : List ε} (ha : S.Along Q s es) (ht : S.runFrom s es = some t) :
    I t := by
  induction es generalizing s with
  | nil =>
    have : s = t := Option.some.inj ht
    exact this ▸ hs
  | cons e es ih =>
    obtain ⟨u, hu, hr⟩ := Option.bind_eq_some_iff.mp ht
    obtain ⟨hq, hrest⟩ := ha u hu
    exact ih (hkeep hs hu hq) hrest hr

/-- A run makes as many of the steps `p` as the rank allows that each of them lowers. -/
theorem runFrom_countP_le {I : σ → Prop} {q : ε → Prop} {p : ε → Bool} {rank : σ → ℕ}
    (hstep : ∀ {s e t}, I s → S.step s e = some t → I t)
    (hrank : ∀ {s e t}, I s → q e → S.step s e = some t →
      rank t + (if p e then 1 else 0) ≤ rank s)
    {s t : σ} (hs : I s) {es : List ε} (hq : ∀ e ∈ es, q e) (ht : S.runFrom s es = some t) :
    rank t + es.countP p ≤ rank s := by
  induction es generalizing s with
  | nil =>
    have : s = t := Option.some.inj ht
    exact this ▸ Nat.le_refl _
  | cons e es ih =>
    obtain ⟨u, hu, hr⟩ := Option.bind_eq_some_iff.mp ht
    have hrest := ih (hstep hs hu) (fun f hf => hq f (List.mem_cons_of_mem e hf)) hr
    have hone := hrank hs (hq e List.mem_cons_self) hu
    rw [List.countP_cons]
    omega

/-- Where a step that meets `Q` can lower the rank as long as the goal is not met, a run of such
steps meets it. -/
theorem exists_run_of_rank {I : σ → Prop} {Q : σ → ε → σ → Prop} {G : σ → Prop} (rank : σ → ℕ)
    (hkeep : ∀ {s e t}, I s → S.step s e = some t → Q s e t → I t)
    (hdown : ∀ {s}, I s → ¬ G s → ∃ e t, S.step s e = some t ∧ Q s e t ∧ rank t < rank s)
    {s : σ} (hs : I s) : ∃ es t, S.Along Q s es ∧ S.runFrom s es = some t ∧ G t := by
  induction hr : rank s using Nat.strongRecOn generalizing s with
  | ind r ih =>
    by_cases hg : G s
    · exact ⟨[], s, trivial, rfl, hg⟩
    · obtain ⟨e, u, hu, hq, hlt⟩ := hdown hs hg
      obtain ⟨es, t, ha, ht, hG⟩ := ih (rank u) (hr ▸ hlt) (hkeep hs hu hq) rfl
      refine ⟨e :: es, t, ?_, ?_, hG⟩
      · intro v hv
        obtain rfl : u = v := Option.some.inj (hu.symm.trans hv)
        exact ⟨hq, ha⟩
      · simp only [runFrom, hu, Option.bind_some]
        exact ht

theorem Along.of_forall {P : ε → Prop} (s : σ) {es : List ε} (h : ∀ e ∈ es, P e) :
    S.Along (fun _ e _ => P e) s es := by
  induction es generalizing s with
  | nil => trivial
  | cons e es ih =>
    exact fun t _ => ⟨h e List.mem_cons_self, ih t fun f hf => h f (List.mem_cons_of_mem e hf)⟩

/-- The check of a condition along a given run. -/
def check (S : Sys σ ε) (q : σ → ε → Bool) : σ → List ε → Bool
  | _, [] => true
  | s, e :: es =>
    match S.step s e with
    | none => true
    | some t => q s e && check S q t es

theorem Along.of_check {q : σ → ε → Bool} {s : σ} {es : List ε} (h : S.check q s es = true) :
    S.Along (fun s e _ => q s e = true) s es := by
  induction es generalizing s with
  | nil => trivial
  | cons e es ih =>
    intro t ht
    simp only [check, ht, Bool.and_eq_true] at h
    exact ⟨h.1, ih h.2⟩

theorem Along.append {Q : σ → ε → σ → Prop} {s t : σ} {es fs : List ε} (ha : S.Along Q s es)
    (ht : S.runFrom s es = some t) (hb : S.Along Q t fs) : S.Along Q s (es ++ fs) := by
  induction es generalizing s with
  | nil =>
    have : s = t := Option.some.inj ht
    exact this ▸ hb
  | cons e es ih =>
    obtain ⟨u, hu, hr⟩ := Option.bind_eq_some_iff.mp ht
    intro v hv
    obtain rfl : u = v := Option.some.inj (hu.symm.trans hv)
    obtain ⟨hq, hrest⟩ := ha u hu
    exact ⟨hq, ih hrest hr⟩

end Sys
end YoctoLayers.Lib
