import YoctoLayers.Mcp251xfd.RingMem

/-! Runs of `mcp251xfd_probe`, `mcp251xfd_open`, `mcp251xfd_stop` and `mcp251xfd_remove`, with the
power management in between. -/
namespace YoctoLayers.Mcp251xfd
open YoctoLayers.Lib DrvM

variable {σ : Type}

namespace Driver

section
variable (d : Driver σ)

/-- `mcp251xfd_probe` from `alloc_candev` to `spi->max_speed_hz`. -/
def probeCandev (regVdd regXceiver : Bool) : DrvM σ Unit := do
  d.allocMem .allocCandev
  let orig := (← get).maxSpeedHz
  modify fun w =>
    { w with
      priv := { Priv.alloc with
        regVdd := regVdd
        regXceiver := regXceiver
        devtypeData := d.env.board.devtypeData
        spiMaxSpeedHzOrig := orig }
      maxSpeedHz := maxSpeedHz orig d.env.board.freq }

/-- `mcp251xfd_probe` up to the point from which it leaves through `out_free_candev`. -/
def probeAlloc : DrvM σ Unit :=
  if !d.env.board.irq then throw (-enxio)
  else do
    d.env.invoke .gpiodGetOptional
    let regVdd ← d.regulatorGetOptional .vdd
    let regXceiver ← d.regulatorGetOptional .xceiver
    d.env.invoke .clkGet
    if !d.freqOk then throw (-erange) else d.probeCandev regVdd regXceiver

def outFreeCandev : DrvM σ Unit := do
  modify fun w => { w with maxSpeedHz := w.priv.spiMaxSpeedHzOrig }
  d.env.note .freeCandev

/-- `mcp251xfd_probe` between `alloc_candev` and `mcp251xfd_register`. -/
def probeSetup : DrvM σ Unit := do
  d.env.invoke .spiSetup
  d.env.regmapInit
  d.env.invoke .rxOffloadAdd

theorem probe_eq :
    d.probe = d.probeAlloc >>= fun _ =>
      DrvM.onError d.outFreeCandev (d.probeSetup >>= fun _ => d.register) := by
  unfold probe probeAlloc probeCandev outFreeCandev probeSetup
  have hite (c : Prop) [Decidable c] {α β : Type} (x y : DrvM σ α) (f : α → DrvM σ β) :
      (if c then x else y) >>= f = if c then x >>= f else y >>= f := by
    split_ifs <;> rfl
  have hthrow (e : ℤ) {α β : Type} (f : α → DrvM σ β) :
      (throw e : DrvM σ α) >>= f = throw e := rfl
  simp only [bind_assoc, hite, hthrow]

end

end Driver

/-- The balance of a failure before anything is allocated. -/
def Loose (n : ℕ) (h : Holdings) (w : World (Tracked σ)) : Prop := ∃ vdd, At n (h.setVdd vdd) w

namespace Env.Books
variable {E : Env (Tracked σ)} {n : ℕ} {h : Holdings} (hE : E.Books) (dv : Fork.Dv)
include hE

theorem regulatorGetOptional_vdd :
    Ensures (At n h) ((Fork.driver E dv).regulatorGetOptional .vdd)
      (fun b => At n (h.setVdd b)) fun _ => Loose n h := by
  refine Ensures.bind (Q := fun r => At n (h.setVdd (decide (r = 0))))
    (hE.access_call (by simp)) fun r => Ensures.ite (fun hr => ?_) fun _ => ?_
  · have hne : r ≠ 0 := by rw [hr]; decide
    simp only [hne, decide_false]
    exact Ensures.pure fun _ hw => hw
  · refine Ensures.bind (Q := fun _ => At n (h.setVdd true))
      (Ensures.ite (fun hr => ?_) fun _ => ?_)
      fun _ => Ensures.pure fun _ hw => hw
    · exact Ensures.pure fun _ hw => by simpa [hr] using hw
    · exact Ensures.throw fun _ hw => ⟨_, hw⟩

theorem regulatorGetOptional_xceiver :
    Moves n h ((Fork.driver E dv).regulatorGetOptional .xceiver) h h := by
  refine Ensures.bind (Q := fun _ => At n h) (hE.access_call (by simp)) fun r =>
    Ensures.ite (fun _ => Moves.pure _) fun _ => ?_
  exact Moves.bind (k := h) (keeps_check _) fun _ => Moves.pure _

theorem probeCandev (vdd xceiver : Bool) :
    Ensures (At n (h.setVdd vdd)) ((Fork.driver E dv).probeCandev vdd xceiver)
      (fun _ w => ∃ vdd xceiver speed, At n (h.allocated vdd xceiver speed) w)
      fun _ => Loose n h := by
  have halloc : Moves n (h.setVdd vdd) ((Fork.driver E dv).allocMem .allocCandev)
      ((h.setVdd vdd).acquire .candev) (h.setVdd vdd) :=
    hE.allocMem rfl (by simp) rfl fun r hr => by simp [Kernel.step, hr]
  refine (halloc.failed fun _ _ hw => ⟨vdd, hw⟩).bind fun _ => ?_
  refine ensures_iff.mpr fun w hw => ?_
  refine ⟨vdd, xceiver, Driver.maxSpeedHz w.maxSpeedHz (Fork.driver E dv).env.board.freq, ?_⟩
  refine hw.imp (fun hw => ?_) fun hstuck => hstuck
  have hkernel : w.env.kernel = ((h.setVdd vdd).acquire .candev).kernel :=
    congrArg Holdings.kernel hw
  have hspeed : w.maxSpeedHz = h.maxSpeedHz := congrArg Holdings.maxSpeedHz hw
  unfold Holdings.allocated
  rw [← hspeed]
  change Holdings.mk w.env.kernel _ _ _ _ _ = _
  rw [hkernel]
  rfl

theorem probeAlloc :
    Ensures (At n h) (Fork.driver E dv).probeAlloc
      (fun _ w => ∃ vdd xceiver speed, At n (h.allocated vdd xceiver speed) w)
      fun _ => Loose n h := by
  have hloose : ∀ w : World (Tracked σ), At n h w → Loose n h w :=
    fun _ hw => ⟨h.kernel.hasVdd, hw⟩
  have hsame {x : DrvM (Tracked σ) Unit} {b : Bool}
      (hx : Moves n (h.setVdd b) x (h.setVdd b) (h.setVdd b)) :
      Ensures (At n (h.setVdd b)) x (fun _ => At n (h.setVdd b)) fun _ => Loose n h :=
    hx.failed fun _ _ hw => ⟨b, hw⟩
  refine Ensures.ite (fun _ => Ensures.throw hloose) fun _ => ?_
  refine (hsame (hE.invoke (by simp) rfl fun _ _ => rfl)).bind fun _ => ?_
  refine (hE.regulatorGetOptional_vdd dv).bind fun vdd => ?_
  refine Ensures.bind (Q := fun _ => At n (h.setVdd vdd)) ?_ fun xceiver => ?_
  · exact (hE.regulatorGetOptional_xceiver dv).failed fun _ _ hw => ⟨vdd, hw⟩
  · refine (hsame (hE.invoke (by simp) rfl fun _ _ => rfl)).bind fun _ => ?_
    exact Ensures.ite (fun _ => Ensures.throw fun _ hw => ⟨vdd, hw⟩) fun _ =>
      hE.probeCandev dv vdd xceiver

theorem probeSetup : Moves n h (Fork.driver E dv).probeSetup (h.acquire .offload) h := by
  refine Moves.bind (k := h) (hE.invoke (by simp) rfl fun _ _ => rfl) fun _ => ?_
  refine hE.regmapInit.bind fun _ => hE.invoke (by simp) rfl fun r hr => ?_
  simp [Kernel.step, hr]

theorem outFreeCandev : Moves n h (Fork.driver E dv).outFreeCandev h.freed h.freed := by
  refine Moves.bind (k := { h with maxSpeedHz := h.orig }) ?_ fun _ =>
    hE.note (by simp) fun _ => rfl
  refine ensures_iff.mpr fun w (hw : At n _ w) => hw.imp (fun hw => ?_) fun hw => hw
  rw [← hw]
  rfl

end Env.Books

/-- `mcp251xfd_register` fails, once `can_rx_offload_add` has worked. -/
def Driver.registerFails (d : Driver σ) (w : World σ) : Bool :=
  match (d.probeAlloc >>= fun _ => d.probeSetup) w with
  | .error _ _ => false
  | .ok _ w =>
    match d.register w with
    | .error _ _ => true
    | .ok _ _ => false

/-- The power management has resumed the device that `mcp251xfd_remove` is called for. -/
def Driver.removeResumes (d : Driver (Tracked σ)) (close : DrvM (Tracked σ) Unit)
    (w : World (Tracked σ)) : Bool :=
  (after (d.removeResume close) w).env.kernel.active

namespace Env.Books
variable {E : Env (Tracked σ)} {n : ℕ} {h : Holdings} {hz : UInt32} (hE : E.Books) (dv : Fork.Dv)
include hE

/-- The exit through `out_free_candev`, where nothing is left to give back but the device. -/
theorem probeRest (hn : h.kernel.failedDisables = n) (hactive : h.kernel.active = false)
    {w : World (Tracked σ)} (hw : At n h w)
    (hreg : ∀ w₁ err w₂, (Fork.driver E dv).probeSetup w = .ok () w₁ →
      (Fork.driver E dv).register w₁ ≠ .error err w₂) :
    match DrvM.onError (Fork.driver E dv).outFreeCandev
      ((Fork.driver E dv).probeSetup >>= fun _ => (Fork.driver E dv).register) w with
    | .ok _ w' => At n (h.acquire .offload).registered w'
    | .error _ w' => At n h.freed w' := by
  cases hsetup : (Fork.driver E dv).probeSetup w with
  | error err w₁ =>
    have hrun := run_bind_error (f := fun _ => (Fork.driver E dv).register) hsetup
    have hback : Ensures (At n h)
        ((Fork.driver E dv).outFreeCandev >>= fun _ => (throw err : DrvM (Tracked σ) Unit))
        (fun _ _ => False) fun _ => At n h.freed :=
      Ensures.bind (hE.outFreeCandev dv) fun _ => Ensures.throw fun _ hv => hv
    have hexit := ensures_iff.mp hback w₁ (Ensures.error (hE.probeSetup dv) hw hsetup)
    unfold DrvM.onError
    rw [run_tryCatch_error hrun]
    revert hexit
    cases
      ((Fork.driver E dv).outFreeCandev >>= fun _ => (throw err : DrvM (Tracked σ) Unit)) w₁ with
    | ok u w' => exact False.elim
    | error err w' => exact id
  | ok u w₁ =>
    have hoffload := Ensures.ok (hE.probeSetup dv) hw hsetup
    cases hregister : (Fork.driver E dv).register w₁ with
    | error err w₂ => exact absurd hregister (hreg w₁ err w₂ hsetup)
    | ok u w₂ =>
      have hrun := run_bind_ok (f := fun _ => (Fork.driver E dv).register) hsetup
      rw [run_onError_ok (hrun.trans hregister)]
      exact Ensures.ok (hE.register (h := h.acquire .offload) dv hn hactive) hoffload hregister

/-- `mcp251xfd_probe`, where its one wrong exit is not taken. -/
theorem probe_fits {w : World (Tracked σ)} (hw : w.holdings.Fits hz .unbound)
    (hreg : (Fork.driver E dv).registerFails w = false)
    (hn : (after (Fork.driver E dv).probe w).env.kernel.failedDisables =
      w.env.kernel.failedDisables) :
    match (Fork.driver E dv).probe w with
    | .ok _ w' => w'.holdings.Fits hz .down
    | .error _ w' => w'.holdings.Fits hz .unbound := by
  rw [Driver.probe_eq] at hn ⊢
  cases halloc : (Fork.driver E dv).probeAlloc w with
  | error err w₁ =>
    have hrun := run_bind_error (f := fun _ => DrvM.onError (Fork.driver E dv).outFreeCandev
      ((Fork.driver E dv).probeSetup >>= fun _ => (Fork.driver E dv).register)) halloc
    rw [after_error hrun] at hn
    rw [hrun]
    obtain ⟨vdd, hat⟩ := Ensures.error (hE.probeAlloc dv) (Or.inl rfl) halloc
    have hloose := hat.resolve_right (Nat.not_lt.mpr hn.le)
    change w₁.holdings.Fits hz .unbound
    rw [hloose]
    exact hw.setVdd vdd
  | ok u w₁ =>
    have hrun := run_bind_ok (f := fun _ => DrvM.onError (Fork.driver E dv).outFreeCandev
      ((Fork.driver E dv).probeSetup >>= fun _ => (Fork.driver E dv).register)) halloc
    obtain ⟨vdd, xceiver, speed, hat⟩ := Ensures.ok (hE.probeAlloc dv) (Or.inl rfl) halloc
    have hrest := hE.probeRest (n := w.env.kernel.failedDisables)
      (h := w.holdings.allocated vdd xceiver speed) dv rfl (hw.inactive rfl) hat ?_
    · unfold after at hn
      rw [hrun] at hn ⊢
      revert hrest hn
      cases DrvM.onError (Fork.driver E dv).outFreeCandev
        ((Fork.driver E dv).probeSetup >>= fun _ => (Fork.driver E dv).register) w₁ with
      | ok u w' =>
        intro hn hrest
        have hheld := hrest.resolve_right (Nat.not_lt.mpr hn.le)
        change w'.holdings.Fits hz .down
        rw [hheld]
        exact hw.probe_ok vdd xceiver speed
      | error err w' =>
        intro hn hrest
        have hheld := hrest.resolve_right (Nat.not_lt.mpr hn.le)
        change w'.holdings.Fits hz .unbound
        rw [hheld]
        exact hw.probe_error vdd xceiver speed
    · intro w₂ err w₃ hsetup hregister
      have hfails : (Fork.driver E dv).registerFails w = true := by
        unfold Driver.registerFails
        rw [run_bind_ok halloc, hsetup]
        simp only [hregister]
      exact absurd (hreg.symm.trans hfails) (by decide)

/-- `mcp251xfd_stop`, as long as the transceiver is disabled. -/
theorem stop_fits {w : World (Tracked σ)} (hw : w.holdings.Fits hz .up)
    (hn : (after (Fork.driver E dv).stop w).env.kernel.failedDisables =
      w.env.kernel.failedDisables) :
    (after (Fork.driver E dv).stop w).holdings.Fits hz .down := by
  have hstop := hE.stop (u := w.holdings.closed) dv (h := w.holdings) rfl
  have hclosed : At w.env.kernel.failedDisables w.holdings.closed
      (after (Fork.driver E dv).stop w) :=
    Ensures.after hstop (Or.inl rfl)
  rw [hclosed.resolve_right (Nat.not_lt.mpr hn.le)]
  exact hw.stop

end Env.Books

namespace Env
variable (env : Env σ) (dv : Fork.Dv) {hz : UInt32}

/-- `mcp251xfd_open`, as long as no failure of `regulator_disable` keeps the transceiver on. -/
theorem open_fits {w : World (Tracked σ)} (hw : w.holdings.Fits hz .down)
    (hn : (after (Fork.driver env.tracked dv).open w).env.kernel.failedDisables =
      w.env.kernel.failedDisables) :
    match (Fork.driver env.tracked dv).open w with
    | .ok _ w' => w'.holdings.Fits hz .up
    | .error _ w' => w'.holdings.Fits hz .down := by
  have hen : 0 < w.holdings.kernel.held .pmEnabled := by simp [hw.held_eq, Phase.held]
  have hopen := env.open_spec (n := w.env.kernel.failedDisables) (h := w.holdings) dv rfl
    (hw.ring (by simp)) (hw.vdd (by simp)) hen
  cases hrun : (Fork.driver env.tracked dv).open w with
  | ok u w' =>
    rw [after_ok hrun] at hn
    have hheld := (Ensures.ok hopen (Or.inl rfl) hrun).resolve_right (Nat.not_lt.mpr hn.le)
    change w'.holdings.Fits hz .up
    rw [hheld]
    exact hw.open_ok
  | error err w' =>
    rw [after_error hrun] at hn
    change w'.holdings.Fits hz .down
    rcases Ensures.error hopen (Or.inl rfl) hrun with hat | hat
    · rw [hat.resolve_right (Nat.not_lt.mpr hn.le)]
      exact hw
    · rw [hat.resolve_right (Nat.not_lt.mpr hn.le)]
      exact hw.open_error

/-- `mcp251xfd_remove`, where the device has been resumed and no `regulator_disable` fails. -/
theorem remove_fits {w : World (Tracked σ)} {h : Holdings} {close : DrvM (Tracked σ) Unit}
    (hclose : Ensures (At w.env.kernel.failedDisables (w.holdings.release .offload)) close
      (fun _ => At w.env.kernel.failedDisables (h.release .offload)) fun _ _ => False)
    (hh : h.Fits hz .down) (hcount : h.kernel.failedDisables = w.env.kernel.failedDisables)
    (hresumes : (Fork.driver env.tracked dv).removeResumes close w = true)
    (hn : (after ((Fork.driver env.tracked dv).removeResume close >>= fun _ =>
      (Fork.driver env.tracked dv).removeRest) w).env.kernel.failedDisables =
        w.env.kernel.failedDisables) :
    (after ((Fork.driver env.tracked dv).removeResume close >>= fun _ =>
      (Fork.driver env.tracked dv).removeRest) w).holdings.Fits hz .unbound := by
  have hen : 0 < (h.release .offload).kernel.held .pmEnabled := by
    have hone := hh.held_eq .pmEnabled
    simp [Holdings.release, Kernel.release, Ledger.release_apply, hone, Phase.held]
  have hresume := env.removeResume_spec (h := w.holdings) dv hclose (hh.vdd (by simp)) hen
  cases hrun : (Fork.driver env.tracked dv).removeResume close w with
  | error err w' => exact (Ensures.error hresume (Or.inl rfl) hrun).elim
  | ok u w' =>
    have hactive : w'.env.kernel.active = true := by
      unfold Driver.removeResumes at hresumes
      rwa [after_ok hrun] at hresumes
    have hat := Ensures.ok hresume (Or.inl rfl) hrun hactive
    have hrest := env.tracked_books.removeRest
      (h := ((h.release .offload).release .registered).resumed) dv
      ((Holdings.failedDisables_resumed _).trans hcount)
    have hafter : after ((Fork.driver env.tracked dv).removeResume close >>= fun _ =>
        (Fork.driver env.tracked dv).removeRest) w =
          after (Fork.driver env.tracked dv).removeRest w' := by
      unfold after
      rw [run_bind_ok hrun]
    rw [hafter] at hn ⊢
    have hend : At w.env.kernel.failedDisables
        ((h.release .offload).release .registered).resumed.unregistered.freed
        (after (Fork.driver env.tracked dv).removeRest w') :=
      Ensures.after hrest hat
    rw [hend.resolve_right (Nat.not_lt.mpr hn.le)]
    exact hh.remove

end Env

/-- What happens to the driver. -/
inductive LifeEvent
  | probe
  | «open»
  | stop
  /-- `mcp251xfd_remove`, of a device that is down or up. -/
  | remove
  /-- The power management finds the device idle. -/
  | suspend
deriving DecidableEq, Repr

/-- The driver in a run; `mem` counts the blocks that are allocated since `mcp251xfd_probe`. -/
structure Life (σ : Type) where
  phase : Phase
  mem : ℤ
  world : World (Tracked σ)

/-- The device after a call, which has worked or not. -/
def Phase.next (phase : Phase) (worked : Bool) : LifeEvent → Phase
  | .probe => if worked then .down else .unbound
  | .open => if worked then .up else .down
  | .stop => .down
  | .remove => .unbound
  | .suspend => phase

/-- A call that returns `0`. -/
def worked (x : DrvM (Tracked σ) Unit) (w : World (Tracked σ)) : Bool :=
  match x w with
  | .ok _ _ => true
  | .error _ _ => false

/-- The state after the call that an event makes. -/
def Life.next (l : Life σ) (x : DrvM (Tracked σ) Unit) (e : LifeEvent) : Life σ where
  phase := l.phase.next (worked x l.world) e
  mem := if e = .probe then (after x l.world).env.mem else l.mem
  world := after x l.world

namespace Driver
variable (d : Driver (Tracked σ))

/-- The function that an event calls. -/
def onEvent : Phase → LifeEvent → Option (DrvM (Tracked σ) Unit)
  | .unbound, .probe => some d.probe
  | .down, .open => some d.open
  | .up, .stop => some d.stop
  | .down, .remove => some d.remove
  | .up, .remove => some d.removeUp
  | _, .suspend => some d.runtimeSuspend
  | _, _ => none

def lifeStep (l : Life σ) (e : LifeEvent) : Option (Life σ) :=
  (d.onEvent l.phase e).map fun x => l.next x e

/-- The event does not fail where the driver cannot undo what it has done: in
`mcp251xfd_register` under `mcp251xfd_probe`, in `pm_runtime_get_sync` under `mcp251xfd_remove`,
and in `regulator_disable`, unless the power management takes note of it. -/
def undoable (l : Life σ) (e : LifeEvent) : Bool :=
  match d.onEvent l.phase e with
  | none => true
  | some x =>
    (e = .suspend ||
        (after x l.world).env.kernel.failedDisables = l.world.env.kernel.failedDisables) &&
      (e ≠ .probe || !d.registerFails l.world) &&
      (e ≠ .remove ||
        d.removeResumes (if l.phase = .up then d.stop else pure ()) l.world)

theorem undoable_iff {l : Life σ} {e : LifeEvent} {x : DrvM (Tracked σ) Unit}
    (hx : d.onEvent l.phase e = some x) :
    d.undoable l e = true ↔ (e = .suspend ∨ (after x l.world).env.kernel.failedDisables =
        l.world.env.kernel.failedDisables) ∧
      (e = .probe → d.registerFails l.world = false) ∧
      (e = .remove →
        d.removeResumes (if l.phase = .up then d.stop else pure ()) l.world = true) := by
  unfold undoable
  rw [hx]
  simp only [Bool.and_eq_true, Bool.or_eq_true, decide_eq_true_eq, Bool.not_eq_eq_eq_not,
    Bool.not_true, and_assoc, ne_eq, imp_iff_not_or]

end Driver

/-- The driver on a machine with state `s`, before `mcp251xfd_probe`. -/
def Life.start (s : σ) (maxSpeedHz : UInt32) : Life σ where
  phase := .unbound
  mem := 0
  world :=
    { env := ⟨s, Kernel.init, 0⟩, priv := Priv.alloc, maxSpeedHz := maxSpeedHz, writes := [] }

/-- The runs of the modified driver. -/
def lifecycle (env : Env σ) (dv : Fork.Dv) (s : σ) (maxSpeedHz : UInt32) :
    Sys (Life σ) LifeEvent where
  init := Life.start s maxSpeedHz
  step := (Fork.driver env.tracked dv).lifeStep

/-- The driver holds what its phase says, and nothing else. -/
structure Life.Tidy (hz : UInt32) (l : Life σ) : Prop where
  fits : l.world.holdings.Fits hz l.phase
  mem : l.phase ≠ .unbound → Balanced l.mem (decide (l.phase = .up)) l.world

namespace Life
variable (env : Env σ) (dv : Fork.Dv) {hz : UInt32} {l : Life σ}

theorem Tidy.probe (h : l.Tidy hz) (hphase : l.phase = .unbound)
    (hcount : (after (Fork.driver env.tracked dv).probe l.world).env.kernel.failedDisables =
      l.world.env.kernel.failedDisables)
    (hreg : (Fork.driver env.tracked dv).registerFails l.world = false) :
    (l.next (Fork.driver env.tracked dv).probe .probe).Tidy hz := by
  have hprobe := env.tracked_books.probe_fits dv (hphase ▸ h.fits) hreg hcount
  cases hrun : (Fork.driver env.tracked dv).probe l.world with
  | ok u w =>
    rw [hrun] at hprobe
    refine ⟨?_, fun _ => ?_⟩
    · simp only [next, Phase.next, worked, hrun, after, if_true]
      exact hprobe
    · simp only [next, Phase.next, worked, hrun, after, if_true]
      exact ⟨hprobe.ring (by simp), rfl⟩
  | error err w =>
    rw [hrun] at hprobe
    have hphase' : (l.next (Fork.driver env.tracked dv).probe .probe).phase = .unbound := by
      simp [next, Phase.next, worked, hrun]
    refine ⟨?_, fun hne => absurd hphase' hne⟩
    rw [hphase']
    simp only [next, after, hrun]
    exact hprobe

theorem Tidy.open (h : l.Tidy hz) (hphase : l.phase = .down)
    (hcount : (after (Fork.driver env.tracked dv).open l.world).env.kernel.failedDisables =
      l.world.env.kernel.failedDisables) :
    (l.next (Fork.driver env.tracked dv).open .open).Tidy hz := by
  have hopen := env.open_fits dv (hphase ▸ h.fits) hcount
  have hmem : Balanced l.mem false l.world := by simpa [hphase] using h.mem (by simp [hphase])
  cases hrun : (Fork.driver env.tracked dv).open l.world with
  | ok u w =>
    rw [hrun] at hopen
    have hring := Ensures.ok (env.balanced_open dv) hmem hrun
    refine ⟨?_, fun _ => ?_⟩
    · simpa only [next, Phase.next, worked, hrun, after, if_true] using hopen
    · simpa [next, Phase.next, worked, hrun, after] using hring
  | error err w =>
    rw [hrun] at hopen
    have hring := Ensures.error (env.balanced_open dv) hmem hrun
    refine ⟨?_, fun _ => ?_⟩
    · simpa [next, Phase.next, worked, hrun, after] using hopen
    · simpa [next, Phase.next, worked, hrun, after] using hring

theorem Tidy.stop (h : l.Tidy hz) (hphase : l.phase = .up)
    (hcount : (after (Fork.driver env.tracked dv).stop l.world).env.kernel.failedDisables =
      l.world.env.kernel.failedDisables) :
    (l.next (Fork.driver env.tracked dv).stop .stop).Tidy hz := by
  have hmem : Balanced l.mem true l.world := by simpa [hphase] using h.mem (by simp [hphase])
  refine ⟨env.tracked_books.stop_fits dv (hphase ▸ h.fits) hcount, fun _ => ?_⟩
  have hstop : Ensures (Balanced l.mem true) (Fork.driver env.tracked dv).stop
      (fun _ => Balanced l.mem false) fun _ => Balanced l.mem false := by
    refine ((env.tracked_books.balanced_stop dv).and (env.tracked.stop_ok dv)).imp
      (fun _ hw => ⟨hw, trivial⟩) (fun _ _ hw => hw.1) fun _ _ hf => hf.2.elim
  exact hstop.after hmem

theorem Tidy.remove (h : l.Tidy hz) (hphase : l.phase = .down)
    (hcount : (after (Fork.driver env.tracked dv).remove l.world).env.kernel.failedDisables =
      l.world.env.kernel.failedDisables)
    (hresumes : (Fork.driver env.tracked dv).removeResumes (pure ()) l.world = true) :
    (l.next (Fork.driver env.tracked dv).remove .remove).Tidy hz := by
  refine ⟨?_, fun hne => absurd rfl hne⟩
  have hremove := env.remove_fits dv (Ensures.pure fun _ hw => hw) (hphase ▸ h.fits) rfl hresumes
  rw [← Driver.remove_eq] at hremove
  exact hremove hcount

theorem Tidy.removeUp (h : l.Tidy hz) (hphase : l.phase = .up)
    (hcount : (after (Fork.driver env.tracked dv).removeUp l.world).env.kernel.failedDisables =
      l.world.env.kernel.failedDisables)
    (hresumes : (Fork.driver env.tracked dv).removeResumes (Fork.driver env.tracked dv).stop
      l.world = true) :
    (l.next (Fork.driver env.tracked dv).removeUp .remove).Tidy hz := by
  refine ⟨?_, fun hne => absurd rfl hne⟩
  have hclose : Ensures (At l.world.env.kernel.failedDisables (l.world.holdings.release .offload))
      (Fork.driver env.tracked dv).stop
      (fun _ => At l.world.env.kernel.failedDisables (l.world.holdings.closed.release .offload))
      fun _ _ => False := by
    have hstop := env.tracked_books.stop (n := l.world.env.kernel.failedDisables)
      (h := l.world.holdings.release .offload) (u := l.world.holdings) dv rfl
    rw [Holdings.closed_release] at hstop
    exact (hstop.and (env.tracked.stop_ok dv)).imp (fun _ hw => ⟨hw, trivial⟩)
      (fun _ _ hw => hw.1) fun _ _ hf => hf.2
  have hfits : l.world.holdings.Fits hz .up := hphase ▸ h.fits
  have hclosed : l.world.holdings.closed.kernel.failedDisables =
      l.world.env.kernel.failedDisables := by
    unfold Holdings.closed Holdings.releaseIf
    split_ifs <;> rfl
  have hremove := env.remove_fits dv hclose hfits.stop hclosed hresumes
  rw [← Driver.removeUp_eq] at hremove
  exact hremove hcount

theorem Tidy.suspend (h : l.Tidy hz) :
    (l.next (Fork.driver env.tracked dv).runtimeSuspend .suspend).Tidy hz :=
  ⟨(env.tracked_books.keeps_runtimeSuspend dv hz l.phase).after h.fits, fun hne =>
    (env.tracked_books.balanced_runtimeSuspend dv).after (h.mem hne)⟩

theorem Tidy.step (h : l.Tidy hz) {e : LifeEvent} {l' : Life σ}
    (hl : (Fork.driver env.tracked dv).lifeStep l e = some l')
    (hok : (Fork.driver env.tracked dv).undoable l e = true) : l'.Tidy hz := by
  have hnext : ∃ x, (Fork.driver env.tracked dv).onEvent l.phase e = some x ∧ l.next x e = l' :=
    Option.map_eq_some_iff.mp hl
  obtain ⟨x, hx, rfl⟩ := hnext
  obtain ⟨hcount, hreg, hresumes⟩ := (Driver.undoable_iff _ hx).mp hok
  cases hphase : l.phase <;> cases e <;> rw [hphase] at hx hresumes <;> cases hx
  · exact h.probe env dv hphase (hcount.resolve_left (by simp)) (hreg rfl)
  · exact h.suspend env dv
  · exact h.open env dv hphase (hcount.resolve_left (by simp))
  · exact h.remove env dv hphase (hcount.resolve_left (by simp)) (hresumes rfl)
  · exact h.suspend env dv
  · exact h.stop env dv hphase (hcount.resolve_left (by simp))
  · exact h.removeUp env dv hphase (hcount.resolve_left (by simp)) (hresumes rfl)
  · exact h.suspend env dv

end Life

/-- In every run of `mcp251xfd_probe`, `mcp251xfd_open`, `mcp251xfd_stop` and `mcp251xfd_remove`,
whatever else fails in it, the driver holds what its phase says: nothing once the device is
unbound, and no more than what belongs to the bound device once it is down. -/
theorem lifecycle_releases (env : Env σ) (dv : Fork.Dv) (s : σ) (hz : UInt32)
    {es : List LifeEvent} {l : Life σ}
    (hundo : (lifecycle env dv s hz).Along
      (fun l e _ => (Fork.driver env.tracked dv).undoable l e = true) (Life.start s hz) es)
    (hl : (lifecycle env dv s hz).runFrom (Life.start s hz) es = some l) : l.Tidy hz := by
  refine hundo.invariant (I := Life.Tidy hz) (fun hi hs hq => hi.step env dv hs hq) ?_ hl
  refine ⟨⟨funext fun r => ?_, rfl, fun _ => rfl, fun h => ?_, fun h => ?_, nofun⟩, fun h => ?_⟩
  · rcases r with _ | _ | _ | _ | (_ | _) | _ | _ | _ | _ | _ <;> rfl
  all_goals exact absurd rfl h

namespace Bench

/-- A life of the driver on the bench. -/
def life : List LifeEvent := [.probe, .suspend, .open, .stop, .suspend, .remove]

/-- A kernel in which `register_candev` fails. -/
def noCandev : Env UInt8 :=
  { env with call := fun c mode => (if c = .registerCandev then -enomem else 0, mode) }

end Bench

theorem lifecycle_releases_bench :
    ∃ l, (lifecycle Bench.env Bench.dvUnset modeSleep 10000000).runFrom
      (Life.start modeSleep 10000000) Bench.life = some l ∧ l.phase = .unbound ∧
        l.Tidy 10000000 := by
  have hcheck : (lifecycle Bench.env Bench.dvUnset modeSleep 10000000).check
      (Fork.driver Bench.env.tracked Bench.dvUnset).undoable (Life.start modeSleep 10000000)
        Bench.life = true := by
    decide +kernel
  have hphase : ((lifecycle Bench.env Bench.dvUnset modeSleep 10000000).runFrom
      (Life.start modeSleep 10000000) Bench.life).map (fun l => l.phase) = some .unbound := by
    decide +kernel
  obtain ⟨l, hl, hunbound⟩ := Option.map_eq_some_iff.mp hphase
  exact ⟨l, hl, hunbound, lifecycle_releases Bench.env Bench.dvUnset modeSleep 10000000
    (Sys.Along.of_check hcheck) hl⟩

/-- When `register_candev` fails, the receive offload of a failed `mcp251xfd_probe` stays. -/
theorem lifecycle_keeps_offload :
    ((lifecycle Bench.noCandev Bench.dvUnset modeSleep 10000000).runFrom
        (Life.start modeSleep 10000000) [.probe]).map
        (fun l => (l.phase, l.world.env.kernel.held .offload)) = some (.unbound, 1) ∧
      ¬ ∀ es l, (lifecycle Bench.noCandev Bench.dvUnset modeSleep 10000000).runFrom
        (Life.start modeSleep 10000000) es = some l → l.Tidy 10000000 := by
  have hleak : ((lifecycle Bench.noCandev Bench.dvUnset modeSleep 10000000).runFrom
      (Life.start modeSleep 10000000) [.probe]).map
      (fun l => (l.phase, l.world.env.kernel.held .offload)) = some (.unbound, 1) := by
    decide +kernel
  refine ⟨hleak, fun htidy => ?_⟩
  obtain ⟨l, hl, hoffload⟩ := Option.map_eq_some_iff.mp hleak
  have hphase : l.phase = .unbound := congrArg Prod.fst hoffload
  have hone : l.world.env.kernel.held .offload = 1 := congrArg Prod.snd hoffload
  have hheld := (htidy _ _ hl).fits.held_eq .offload
  rw [hphase] at hheld
  have hzero : (1 : ℤ) = 0 := hone.symm.trans hheld
  exact absurd hzero (by decide)

end YoctoLayers.Mcp251xfd
