import YoctoLayers.Mcp251xfd.Fork

/-! Sequences of `mcp251xfd_regmap_init` under changing quirks: the map pointers and the buffers
of the maps they point to. -/
namespace YoctoLayers.Mcp251xfd
open YoctoLayers.Lib DrvM

variable {σ : Type}

/-- The buffers of the map are allocated. -/
def MapState.Buffered (m : MapState) : Prop := m.bufRx = true ∧ m.bufTx = true

/-- The calls that get what the map does not have yet. -/
def MapState.missing (kind : MapKind) (m : MapState) : List KernelCall :=
  (if m.map then [] else [.regmapInit kind]) ++
    ((if m.bufRx then [] else [.kzalloc]) ++ if m.bufTx then [] else [.kzalloc])

/-- The calls that free the buffers the map has. -/
def MapState.frees (m : MapState) : List KernelCall :=
  (if m.bufRx then [.kfree] else []) ++ if m.bufTx then [.kfree] else []

namespace Regmaps

/-- No pointer is left at a map without its buffers. -/
def Live (r : Regmaps) : Prop :=
  ∀ kind, r.mapReg = some kind ∨ r.mapRx = some kind → (r.get kind).Buffered

/-- The pointers are those that the quirks ask for. -/
def Selected (r : Regmaps) (quirks : UInt32) : Prop :=
  r.mapReg = some (if quirks &&& quirkCrcReg ≠ 0 then .crc else .nocrc) ∧
    r.mapRx = some (if quirks &&& quirkCrcRx ≠ 0 then .crc else .nocrc)

/-- The pointers that `usesReg` and `usesRx` name are moved to the map. -/
def select (r : Regmaps) (kind : MapKind) (usesReg usesRx : Bool) : Regmaps :=
  let r := if usesReg then { r with mapReg := some kind } else r
  if usesRx then { r with mapRx := some kind } else r

@[simp] theorem get_set (r : Regmaps) (kind : MapKind) (m : MapState) :
    (r.set kind m).get kind = m := by
  cases kind <;> rfl

@[simp] theorem set_get (r : Regmaps) (kind : MapKind) : r.set kind (r.get kind) = r := by
  cases kind <;> rfl

@[simp] theorem set_set (r : Regmaps) (kind : MapKind) (m m' : MapState) :
    (r.set kind m).set kind m' = r.set kind m' := by
  cases kind <;> rfl

@[simp] theorem mapReg_set (r : Regmaps) (kind : MapKind) (m : MapState) :
    (r.set kind m).mapReg = r.mapReg := by
  cases kind <;> rfl

@[simp] theorem mapRx_set (r : Regmaps) (kind : MapKind) (m : MapState) :
    (r.set kind m).mapRx = r.mapRx := by
  cases kind <;> rfl

theorem get_set_ne (r : Regmaps) {kind kind' : MapKind} (hne : kind' ≠ kind) (m : MapState) :
    (r.set kind m).get kind' = r.get kind' := by
  cases kind <;> cases kind' <;> first | rfl | exact absurd rfl hne

@[simp] theorem get_select (r : Regmaps) (kind kind' : MapKind) (usesReg usesRx : Bool) :
    (r.select kind usesReg usesRx).get kind' = r.get kind' := by
  unfold select
  cases kind' <;> split_ifs <;> rfl

theorem mapReg_select (r : Regmaps) (kind : MapKind) (usesReg usesRx : Bool) :
    (r.select kind usesReg usesRx).mapReg = if usesReg then some kind else r.mapReg := by
  unfold select
  split_ifs <;> rfl

theorem mapRx_select (r : Regmaps) (kind : MapKind) (usesReg usesRx : Bool) :
    (r.select kind usesReg usesRx).mapRx = if usesRx then some kind else r.mapRx := by
  unfold select
  split_ifs <;> rfl

/-- A map that only gains keeps its pointers live. -/
theorem Live.set {r : Regmaps} (h : r.Live) {kind : MapKind} {m : MapState}
    (hm : (r.get kind).Buffered → m.Buffered) : (r.set kind m).Live := by
  intro kind' hkind
  rw [mapReg_set, mapRx_set] at hkind
  by_cases hk : kind' = kind
  · subst hk
    rw [get_set]
    exact hm (h kind' hkind)
  · rw [get_set_ne r hk]
    exact h kind' hkind

/-- A map without pointers may change in any way. -/
theorem Live.set_of_ne {r : Regmaps} (h : r.Live) {kind : MapKind} (hreg : r.mapReg ≠ some kind)
    (hrx : r.mapRx ≠ some kind) (m : MapState) : (r.set kind m).Live := by
  intro kind' hkind
  rw [mapReg_set, mapRx_set] at hkind
  by_cases hk : kind' = kind
  · subst hk
    exact (hkind.elim hreg hrx).elim
  · rw [get_set_ne r hk]
    exact h kind' hkind

/-- A pointer is moved to a map that has its buffers. -/
theorem Live.select {r : Regmaps} (h : r.Live) {kind : MapKind} (hm : (r.get kind).Buffered)
    (usesReg usesRx : Bool) : (r.select kind usesReg usesRx).Live := by
  intro kind' hkind
  rw [get_select]
  rw [mapReg_select, mapRx_select] at hkind
  by_cases hk : kind' = kind
  · rw [hk]
    exact hm
  · refine h kind' (hkind.imp (fun hreg => ?_) fun hrx => ?_)
    · split_ifs at hreg
      · exact absurd (Option.some.inj hreg).symm hk
      · exact hreg
    · split_ifs at hrx
      · exact absurd (Option.some.inj hrx).symm hk
      · exact hrx

/-- A map is completed, and pointers are moved to it. -/
theorem Live.init {r : Regmaps} (h : r.Live) (kind : MapKind) (usesReg usesRx : Bool) :
    ((r.set kind ⟨true, true, true⟩).select kind usesReg usesRx).Live := by
  refine (h.set fun _ => ⟨rfl, rfl⟩).select ?_ usesReg usesRx
  rw [get_set]
  exact ⟨rfl, rfl⟩

/-- The pointers that the quirks do not move to the CRC map are at the other one. -/
def Settled (r : Regmaps) (quirks : UInt32) : Prop :=
  (quirks &&& quirkCrcReg = 0 → r.mapReg = some .nocrc) ∧
    (quirks &&& quirkCrcRx = 0 → r.mapRx = some .nocrc)

theorem settled_select (r : Regmaps) (quirks : UInt32) :
    (r.select .nocrc (quirks &&& quirkCrcReg = 0) (quirks &&& quirkCrcRx = 0)).Settled quirks := by
  constructor
  · intro h
    rw [mapReg_select, if_pos (decide_eq_true h)]
  · intro h
    rw [mapRx_select, if_pos (decide_eq_true h)]

theorem Settled.set {r : Regmaps} {quirks : UInt32} (h : r.Settled quirks) (kind : MapKind)
    (m : MapState) : (r.set kind m).Settled quirks := by
  unfold Settled
  rw [mapReg_set, mapRx_set]
  exact h

theorem Settled.select_crc {r : Regmaps} {quirks : UInt32} (h : r.Settled quirks) :
    (r.select .crc (quirks &&& quirkCrcReg ≠ 0) (quirks &&& quirkCrcRx ≠ 0)).Selected quirks := by
  constructor
  · rw [mapReg_select]
    by_cases hreg : quirks &&& quirkCrcReg = 0
    · simp [hreg, h.1 hreg]
    · simp [hreg]
  · rw [mapRx_select]
    by_cases hrx : quirks &&& quirkCrcRx = 0
    · simp [hrx, h.2 hrx]
    · simp [hrx]

theorem Settled.selected {r : Regmaps} {quirks : UInt32} (h : r.Settled quirks)
    (hreg : quirks &&& quirkCrcReg = 0) (hrx : quirks &&& quirkCrcRx = 0) : r.Selected quirks :=
  ⟨by simp [hreg, h.1 hreg], by simp [hrx, h.2 hrx]⟩

end Regmaps

namespace Env
variable (env : Env σ)

/-- The calls are answered with success, one after the other. -/
def Granted : List KernelCall → σ → Prop
  | [], _ => True
  | c :: cs, s => (env.call c s).1 = 0 ∧ Granted cs (env.call c s).2

/-- What the calls leave of the outside. -/
def called (cs : List KernelCall) (s : σ) : σ := cs.foldl (fun s c => (env.call c s).2) s

theorem granted_append (cs cs' : List KernelCall) (s : σ) :
    env.Granted (cs ++ cs') s ↔ env.Granted cs s ∧ env.Granted cs' (env.called cs s) := by
  induction cs generalizing s with
  | nil => exact (iff_of_eq (true_and _)).symm
  | cons c cs ih =>
    change _ ∧ env.Granted (cs ++ cs') _ ↔ (_ ∧ env.Granted cs _) ∧ _
    rw [ih, and_assoc]
    rfl

/-- One part of a map: the call that gets it, unless it is there. -/
def getPart (kind : MapKind) (part : MapState → Bool) (c : KernelCall) (code : ℤ → ℤ)
    (f : MapState → MapState) : DrvM σ Unit := do
  if !part ((← DrvM.priv).regmaps.get kind) then
    DrvM.check (code (← DrvM.access (env.call c)))
    modifyMap kind f

/-- The pointers of a map that has all its parts. -/
def selectMap (kind : MapKind) (usesReg usesRx : UInt32 → Bool) : DrvM σ Unit :=
  DrvM.modifyPriv fun p =>
    { p with
      regmaps :=
        p.regmaps.select kind (usesReg p.devtypeData.quirks) (usesRx p.devtypeData.quirks) }

/-- `mcp251xfd_regmap_init` on a device with these quirks. -/
def regmapInitWith (quirks : UInt32) : DrvM σ Unit := do
  DrvM.modifyPriv fun p => { p with devtypeData := { p.devtypeData with quirks := quirks } }
  env.regmapInit

end Env

/-- The buffers of the map without CRC are not freed under a pointer, unless the CRC map can then
be set up. -/
def Env.Gentle (env : Env σ) (quirks : UInt32) (w : World σ) : Prop :=
  let r := w.priv.regmaps
  quirks &&& quirkCrcReg ≠ 0 → quirks &&& quirkCrcRx ≠ 0 →
    r.mapReg = some .nocrc ∨ r.mapRx = some .nocrc →
      env.Granted (r.crc.missing .crc) (env.called r.nocrc.frees w.env)

/-- What one call is to leave behind. -/
structure Env.InitOk (env : Env σ) (quirks : UInt32) (w : World σ) : Prop where
  live : (after (env.regmapInitWith quirks) w).priv.regmaps.Live
  selected : ∀ w', env.regmapInitWith quirks w = .ok () w' → w'.priv.regmaps.Selected quirks

/-- `P` at every call of a sequence. -/
def Env.EachInit (env : Env σ) (P : UInt32 → World σ → Prop) : List UInt32 → World σ → Prop
  | [], _ => True
  | quirks :: rest, w =>
    P quirks w ∧ EachInit env P rest (after (env.regmapInitWith quirks) w)

/-- The state with another outside and another map. -/
def World.withMap (w : World σ) (kind : MapKind) (s : σ) (m : MapState) : World σ :=
  { w with env := s, priv := { w.priv with regmaps := w.priv.regmaps.set kind m } }

namespace World
variable (w : World σ) (kind : MapKind) (s : σ) (m : MapState)

@[simp] theorem env_withMap : (w.withMap kind s m).env = s := rfl

@[simp] theorem regmaps_withMap :
    (w.withMap kind s m).priv.regmaps = w.priv.regmaps.set kind m := rfl

@[simp] theorem withMap_withMap (s' : σ) (m' : MapState) :
    (w.withMap kind s m).withMap kind s' m' = w.withMap kind s' m' := by
  unfold withMap
  rw [Regmaps.set_set]

theorem withMap_get : w.withMap kind w.env (w.priv.regmaps.get kind) = w := by
  unfold withMap
  rw [Regmaps.set_get]

end World

namespace Env
variable {env : Env σ} {kind : MapKind} {w : World σ}

theorem regmapInitMap_eq (usesReg usesRx : UInt32 → Bool) :
    env.regmapInitMap kind usesReg usesRx = (do
      env.getPart kind MapState.map (.regmapInit kind) id fun m => { m with map := true }
      env.getPart kind MapState.bufRx .kzalloc (fun r => if r = 0 then 0 else -enomem)
        fun m => { m with bufRx := true }
      env.getPart kind MapState.bufTx .kzalloc (fun r => if r = 0 then 0 else -enomem)
        fun m => { m with bufTx := true }
      selectMap kind usesReg usesRx) := by
  have hite (c : Prop) [Decidable c] (x y : DrvM σ Unit) (f : Unit → DrvM σ Unit) :
      (if c then x else y) >>= f = if c then x >>= f else y >>= f := by
    split_ifs <;> rfl
  unfold regmapInitMap getPart selectMap Env.invoke
  simp only [bind_assoc, hite, pure_bind]
  rfl

theorem getPart_cases (env : Env σ) (kind : MapKind) {part : MapState → Bool} (c : KernelCall)
    {code : ℤ → ℤ} {f : MapState → MapState} (hcode : ∀ r, code r = 0 ↔ r = 0)
    (hf : ∀ m, part m = true → f m = m) (w : World σ) :
    let m := w.priv.regmaps.get kind
    let cs := if part m then [] else [c]
    env.Granted cs w.env ∧
        env.getPart kind part c code f w = .ok () (w.withMap kind (env.called cs w.env) (f m)) ∨
      ¬ env.Granted cs w.env ∧
        ∃ err, env.getPart kind part c code f w =
          .error err (w.withMap kind (env.called cs w.env) m) := by
  intro m cs
  have hpriv : DrvM.priv w = .ok w.priv w := rfl
  cases hpart : part m with
  | true =>
    have hcs : cs = [] := if_pos hpart
    rw [hcs, hf m hpart]
    refine Or.inl ⟨trivial, ?_⟩
    change _ = EStateM.Result.ok () (w.withMap kind w.env m)
    rw [World.withMap_get, getPart, run_bind_ok hpriv, hpart]
    rfl
  | false =>
    have hcs : cs = [c] := if_neg (Bool.eq_false_iff.mp hpart)
    have hrun : env.getPart kind part c code f w =
        (DrvM.check (code (env.call c w.env).1) >>= fun _ => modifyMap kind f)
          { w with env := (env.call c w.env).2 } := by
      rw [getPart, run_bind_ok hpriv, hpart]
      rfl
    rw [hcs, hrun]
    by_cases hr : (env.call c w.env).1 = 0
    · refine Or.inl ⟨⟨hr, trivial⟩, ?_⟩
      rw [DrvM.check, if_pos ((hcode _).mpr hr)]
      rfl
    · refine Or.inr ⟨fun h => hr h.1, code (env.call c w.env).1, ?_⟩
      rw [DrvM.check, if_neg (mt (hcode _).mp hr)]
      rw [World.withMap, Regmaps.set_get]
      rfl

/-- What `mcp251xfd_regmap_init_nocrc` and `mcp251xfd_regmap_init_crc` do: a map that cannot be
completed has only gained parts. -/
theorem regmapInitMap_cases (env : Env σ) (kind : MapKind) (usesReg usesRx : UInt32 → Bool)
    (w : World σ) :
    let m := w.priv.regmaps.get kind
    let quirks := w.priv.devtypeData.quirks
    env.Granted (m.missing kind) w.env ∧
        (∃ w', env.regmapInitMap kind usesReg usesRx w = .ok () w' ∧
          w'.priv = { w.priv with
            regmaps := (w.priv.regmaps.set kind ⟨true, true, true⟩).select kind
              (usesReg quirks) (usesRx quirks) }) ∨
      ¬ env.Granted (m.missing kind) w.env ∧
        ∃ err s m', env.regmapInitMap kind usesReg usesRx w = .error err (w.withMap kind s m') ∧
          (m.Buffered → m'.Buffered) := by
  intro m quirks
  have hid : ∀ r : ℤ, id r = 0 ↔ r = 0 := fun _ => Iff.rfl
  have hmem : ∀ r : ℤ, (if r = 0 then 0 else -enomem) = 0 ↔ r = 0 := fun r => by
    split_ifs with hr
    · exact iff_of_true rfl hr
    · exact iff_of_false (by decide) hr
  have hmap := getPart_cases env kind (.regmapInit kind) (f := fun m => { m with map := true })
    hid fun m (hm : m.map = true) => by cases m; cases hm; rfl
  have hrx := getPart_cases env kind .kzalloc (f := fun m => { m with bufRx := true })
    hmem fun m (hm : m.bufRx = true) => by cases m; cases hm; rfl
  have htx := getPart_cases env kind .kzalloc (f := fun m => { m with bufTx := true })
    hmem fun m (hm : m.bufTx = true) => by cases m; cases hm; rfl
  rw [regmapInitMap_eq, MapState.missing, granted_append, granted_append]
  let s₁ := env.called (if m.map then [] else [.regmapInit kind]) w.env
  let s₂ := env.called (if m.bufRx then [] else [.kzalloc]) s₁
  have hrx := hrx (w.withMap kind s₁ { m with map := true })
  have htx := htx (w.withMap kind s₂ { m with map := true, bufRx := true })
  simp only [World.env_withMap, World.regmaps_withMap, Regmaps.get_set, World.withMap_withMap]
    at hrx htx
  rcases hmap w with ⟨h1, hrun1⟩ | ⟨h1, err, hrun1⟩
  · rw [run_bind_ok hrun1]
    rcases hrx with ⟨h2, hrun2⟩ | ⟨h2, err, hrun2⟩
    · rw [run_bind_ok hrun2]
      rcases htx with ⟨h3, hrun3⟩ | ⟨h3, err, hrun3⟩
      · rw [run_bind_ok hrun3]
        exact Or.inl ⟨⟨h1, h2, h3⟩, _, rfl, rfl⟩
      · rw [run_bind_error hrun3]
        exact Or.inr ⟨fun h => h3 h.2.2, _, _, _, rfl, fun hm => ⟨rfl, hm.2⟩⟩
    · rw [run_bind_error hrun2]
      exact Or.inr ⟨fun h => h2 h.2.1, _, _, _, rfl, fun hm => hm⟩
  · rw [run_bind_error hrun1]
    exact Or.inr ⟨fun h => h1 h.1, _, _, _, rfl, fun hm => hm⟩

theorem regmapDestroyMap_run (w : World σ) :
    env.regmapDestroyMap kind w = .ok () (w.withMap kind
      (env.called (w.priv.regmaps.get kind).frees w.env)
      { w.priv.regmaps.get kind with bufRx := false, bufTx := false }) := by
  unfold regmapDestroyMap MapState.frees
  rw [run_bind_ok (show DrvM.priv w = .ok w.priv w from rfl)]
  cases (w.priv.regmaps.get kind).bufRx <;> cases (w.priv.regmaps.get kind).bufTx <;> rfl

/-- The state in which the device has these quirks. -/
def withQuirks (w : World σ) (quirks : UInt32) : World σ :=
  { w with priv := { w.priv with devtypeData := { w.priv.devtypeData with quirks := quirks } } }

theorem regmapInitWith_eq (env : Env σ) (quirks : UInt32) (w : World σ) :
    env.regmapInitWith quirks w =
      ((if quirks &&& quirkCrcReg = 0 ∨ quirks &&& quirkCrcRx = 0 then env.regmapInitNocrc
        else env.regmapDestroyNocrc) >>= fun _ =>
        if quirks &&& quirkCrcReg ≠ 0 ∨ quirks &&& quirkCrcRx ≠ 0 then env.regmapInitCrc
        else env.regmapDestroyCrc : DrvM σ Unit) (withQuirks w quirks) := by
  have hinit : env.regmapInitWith quirks w = env.regmapInit (withQuirks w quirks) := rfl
  rw [hinit, regmapInit,
    run_bind_ok (show DrvM.priv (withQuirks w quirks) = .ok _ _ from rfl)]
  by_cases h : quirks &&& quirkCrcReg = 0 ∨ quirks &&& quirkCrcRx = 0
  · rw [if_pos h]
    exact congrFun (if_pos h) (withQuirks w quirks)
  · rw [if_neg h]
    exact congrFun (if_neg h) (withQuirks w quirks)

/-- With both quirks the buffers of the map without CRC go first. -/
theorem regmapInitWith_crc (env : Env σ) {quirks : UInt32} (hreg : quirks &&& quirkCrcReg ≠ 0)
    (hrx : quirks &&& quirkCrcRx ≠ 0) (w : World σ) :
    env.regmapInitWith quirks w = env.regmapInitCrc ((withQuirks w quirks).withMap .nocrc
      (env.called w.priv.regmaps.nocrc.frees w.env)
      { w.priv.regmaps.nocrc with bufRx := false, bufTx := false }) := by
  rw [regmapInitWith_eq, if_neg (not_or.mpr ⟨hreg, hrx⟩), if_pos (Or.inl hreg)]
  exact run_bind_ok (regmapDestroyMap_run _)

variable {quirks : UInt32} {w' : World σ}

theorem InitOk.of_ok (h : env.regmapInitWith quirks w = .ok () w') (hlive : w'.priv.regmaps.Live)
    (hselected : w'.priv.regmaps.Selected quirks) : env.InitOk quirks w := by
  refine ⟨?_, fun v hv => ?_⟩
  · rwa [after_ok h]
  · cases h.symm.trans hv
    exact hselected

theorem InitOk.of_error {err : ℤ} (h : env.regmapInitWith quirks w = .error err w')
    (hlive : w'.priv.regmaps.Live) : env.InitOk quirks w := by
  refine ⟨?_, fun v hv => ?_⟩
  · rwa [after_error h]
  · cases h.symm.trans hv

/-- Where the map without CRC stays in use, nothing is lost. -/
theorem initOk_of_nocrc (hw : w.priv.regmaps.Live)
    (h : quirks &&& quirkCrcReg = 0 ∨ quirks &&& quirkCrcRx = 0) : env.InitOk quirks w := by
  have heq := regmapInitWith_eq env quirks w
  rw [if_pos h] at heq
  rcases regmapInitMap_cases env .nocrc (fun q => q &&& quirkCrcReg = 0)
    (fun q => q &&& quirkCrcRx = 0) (withQuirks w quirks) with
    ⟨-, w₁, hrun₁, hpriv₁⟩ | ⟨-, err, s, m, hrun₁, hm⟩
  · have heq : env.regmapInitWith quirks w =
        (if quirks &&& quirkCrcReg ≠ 0 ∨ quirks &&& quirkCrcRx ≠ 0 then env.regmapInitCrc
          else env.regmapDestroyCrc : DrvM σ Unit) w₁ := heq.trans (run_bind_ok hrun₁)
    have hlive₁ : w₁.priv.regmaps.Live := by
      rw [hpriv₁]
      exact hw.init .nocrc _ _
    have hsettled : w₁.priv.regmaps.Settled quirks := by
      rw [hpriv₁]
      exact Regmaps.settled_select _ _
    have hq₁ : w₁.priv.devtypeData.quirks = quirks := by
      rw [hpriv₁]
      rfl
    by_cases hcrc : quirks &&& quirkCrcReg ≠ 0 ∨ quirks &&& quirkCrcRx ≠ 0
    · rw [if_pos hcrc] at heq
      rcases regmapInitMap_cases env .crc (fun q => q &&& quirkCrcReg ≠ 0)
        (fun q => q &&& quirkCrcRx ≠ 0) w₁ with
        ⟨-, w₂, hrun₂, hpriv₂⟩ | ⟨-, err, s, m, hrun₂, hm⟩
      · refine InitOk.of_ok (heq.trans hrun₂) ?_ ?_
        · rw [hpriv₂]
          exact hlive₁.init .crc _ _
        · rw [hpriv₂, hq₁]
          exact (hsettled.set .crc _).select_crc
      · exact InitOk.of_error (heq.trans hrun₂) (hlive₁.set hm)
    · rw [if_neg hcrc] at heq
      obtain ⟨hreg, hrx⟩ := not_or.mp hcrc
      refine InitOk.of_ok (heq.trans (regmapDestroyMap_run w₁)) ?_ ?_
      · refine hlive₁.set_of_ne ?_ ?_ _
        · rw [hsettled.1 (not_not.mp hreg)]
          decide
        · rw [hsettled.2 (not_not.mp hrx)]
          decide
      · exact (hsettled.set .crc _).selected (not_not.mp hreg) (not_not.mp hrx)
  · exact InitOk.of_error (heq.trans (run_bind_error hrun₁)) (hw.set hm)

/-- One call from a live state. -/
theorem initOk_iff (quirks : UInt32) (hw : w.priv.regmaps.Live) :
    env.InitOk quirks w ↔ env.Gentle quirks w := by
  by_cases hboth : quirks &&& quirkCrcReg = 0 ∨ quirks &&& quirkCrcRx = 0
  · exact iff_of_true (initOk_of_nocrc hw hboth) fun hreg hrx => (hboth.elim hreg hrx).elim
  · obtain ⟨hreg, hrx⟩ := not_or.mp hboth
    let freed : MapState := { w.priv.regmaps.nocrc with bufRx := false, bufTx := false }
    have hrun := regmapInitWith_crc env hreg hrx w
    rcases regmapInitMap_cases env .crc (fun q => q &&& quirkCrcReg ≠ 0)
      (fun q => q &&& quirkCrcRx ≠ 0) ((withQuirks w quirks).withMap .nocrc
        (env.called w.priv.regmaps.nocrc.frees w.env) freed) with
      ⟨hgrant, w', hinit, hpriv⟩ | ⟨hno, err, s, m', hinit, hm⟩
    · have hselected : w'.priv.regmaps.Selected quirks := by
        rw [hpriv]
        exact Regmaps.Settled.select_crc ⟨fun h => absurd h hreg, fun h => absurd h hrx⟩
      refine iff_of_true (InitOk.of_ok (hrun.trans hinit) (fun kind hkind => ?_) hselected)
        fun _ _ _ => hgrant
      have hkind : kind = .crc := by
        rw [hselected.1, hselected.2, if_pos hreg, if_pos hrx, or_self] at hkind
        exact (Option.some.inj hkind).symm
      rw [hkind, hpriv, Regmaps.get_select, Regmaps.get_set]
      exact ⟨rfl, rfl⟩
    · by_cases hptr : w.priv.regmaps.mapReg = some .nocrc ∨ w.priv.regmaps.mapRx = some .nocrc
      · refine iff_of_false (fun hok => ?_) fun hgentle => hno (hgentle hreg hrx hptr)
        have hbuf := hok.live
        rw [after_error (hrun.trans hinit)] at hbuf
        cases (hbuf .nocrc hptr).1
      · obtain ⟨hnreg, hnrx⟩ := not_or.mp hptr
        refine iff_of_true (InitOk.of_error (hrun.trans hinit) ?_) fun _ _ h => (hptr h).elim
        exact (hw.set_of_ne hnreg hnrx freed).set hm

end Env

/-- `alloc_candev` leaves the maps without pointers. -/
theorem live_alloc : Priv.alloc.regmaps.Live := fun _ h => h.elim nofun nofun

/-- In a sequence of calls every map in use keeps its buffers, and every successful call leaves
the pointers that its quirks ask for, if and only if no call that selects the CRC map for both
purposes frees the other map under a pointer and then fails to set up the CRC map. -/
theorem regmap_inits_ok_iff (env : Env σ) (quirks : List UInt32) {w : World σ}
    (hw : w.priv.regmaps.Live) :
    env.EachInit env.InitOk quirks w ↔ env.EachInit env.Gentle quirks w := by
  induction quirks generalizing w with
  | nil => exact Iff.rfl
  | cons q quirks ih =>
    have hstep := env.initOk_iff q hw
    constructor
    · rintro ⟨hok, hrest⟩
      exact ⟨hstep.mp hok, (ih hok.live).mp hrest⟩
    · rintro ⟨hgentle, hrest⟩
      have hok := hstep.mpr hgentle
      exact ⟨hok, (ih hok.live).mpr hrest⟩

namespace Bench

/-- Both quirks, and none of them. -/
def quirksCrc : UInt32 := quirkCrcReg ||| quirkCrcRx

/-- A kernel that has memory for as many buffers as its state says. -/
def scarce : Env UInt8 :=
  { env with
    call c buffers :=
      if c = .kzalloc then (if buffers = 0 then -enomem else 0, buffers - 1) else (0, buffers) }

end Bench

theorem regmap_inits_ok_iff_three :
    Bench.env.EachInit Bench.env.InitOk [Bench.quirksCrc, 0, Bench.quirksCrc] Bench.world :=
  (regmap_inits_ok_iff Bench.env _ live_alloc).mpr
    ⟨fun _ _ h => absurd h (by decide), fun h => absurd rfl h, fun _ _ _ => ⟨rfl, rfl, trivial⟩,
      trivial⟩

/-- There is memory for the two buffers of the first call only. -/
theorem regmap_inits_dangle :
    let w := after (Bench.scarce.regmapInitWith 0) { Bench.world with env := 2 }
    let r := (after (Bench.scarce.regmapInitWith Bench.quirksCrc) w).priv.regmaps
    r.mapReg = some .nocrc ∧ r.mapRx = some .nocrc ∧ r.nocrc.bufRx = false ∧
      r.nocrc.bufTx = false := by
  decide

end YoctoLayers.Mcp251xfd
