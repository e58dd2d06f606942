import YoctoLayers.Mcp251xfd.Phases

/-! `pm_runtime_get_sync` with the callbacks of the driver, and the functions that rest on it. -/
namespace YoctoLayers.Mcp251xfd
open YoctoLayers.Lib DrvM

variable {σ : Type}

/-- Only the books of the kernel change. -/
theorem Holdings.resumed_kernel (h : Holdings) :
    { h with kernel := h.resumed.kernel } = h.resumed := by
  unfold resumed powered acquireIf
  split_ifs <;> rfl

theorem Holdings.failedDisables_resumed (h : Holdings) :
    h.resumed.kernel.failedDisables = h.kernel.failedDisables := by
  unfold resumed powered acquireIf
  split_ifs <;> rfl

theorem Holdings.ring_resumed (h : Holdings) : h.resumed.ring = h.ring := by
  unfold resumed powered acquireIf
  split_ifs <;> rfl

namespace Env
variable (env : Env σ) (n : ℕ) {h : Holdings}

/-- The callback of the power management takes the clock and the supply, or fails. -/
theorem runtimeResume_spec (hvdd : h.kernel.hasVdd = h.regVdd) {s : Tracked σ}
    (hs : s.kernel = h.kernel) :
    let r := env.runtimeResume s
    r.2.kernel = (if r.1 < 0 then h else h.powered.setActive true).kernel ∨
      n < r.2.kernel.failedDisables := by
  let h₀ : Holdings := { h with ring := false, regXceiver := false, orig := 0, maxSpeedHz := 0 }
  let w₀ : World (Tracked σ) :=
    { env := s, priv := { Priv.alloc with regVdd := s.kernel.hasVdd },
      maxSpeedHz := 0, writes := [] }
  have hat : At n h₀ w₀ := Or.inl (by simp [h₀, w₀, World.holdings, Priv.alloc, hs, hvdd])
  have hclks := env.booked_books.clksAndVddEnable (n := n) (h := h₀) ⟨0, 0, false, false⟩
  intro r
  cases hrun : (Orig.driver env.booked).clksAndVddEnable w₀ with
  | ok a w =>
    have hr : r = (0, { w.env with kernel := { w.env.kernel with active := true } }) := by
      simp only [r, runtimeResume]
      rw [hrun]
    rcases Ensures.ok hclks hat hrun with hw | hw
    · left
      have hkernel : w.env.kernel = h.powered.kernel := by
        refine (congrArg Holdings.kernel hw).trans ?_
        cases hv : h.regVdd <;> simp [h₀, Holdings.powered, Holdings.acquireIf, Holdings.acquire,
          hv]
      rw [hr, hkernel]
      rfl
    · right
      rw [hr]
      exact hw
  | error err w =>
    have hr : r = (min err (-1), w.env) := by
      simp only [r, runtimeResume]
      rw [hrun]
    have hneg : min err (-1) < 0 := by omega
    refine (Ensures.error hclks hat hrun).imp (fun hw => ?_) fun hw => ?_
    · rw [hr, if_pos hneg]
      exact congrArg Holdings.kernel hw
    · rw [hr]
      exact hw

theorem lt_failedDisables_runtimeResume {s : Tracked σ} (hs : n < s.kernel.failedDisables) :
    n < (env.runtimeResume s).2.kernel.failedDisables := by
  have hspec := env.runtimeResume_spec n
    (h := ⟨s.kernel, false, s.kernel.hasVdd, false, 0, 0⟩) rfl rfl
  refine hspec.elim (fun hkernel => ?_) fun hstuck => hstuck
  have hcount := congrArg Kernel.failedDisables hkernel
  rw [hcount]
  split_ifs
  · exact hs
  · simpa [Holdings.powered, Holdings.setActive] using hs

theorem getSync_spec (hvdd : h.kernel.hasVdd = h.regVdd) (hen : 0 < h.kernel.held .pmEnabled)
    {s : Tracked σ} (hs : s.kernel = h.kernel) :
    let r := env.getSync s
    r.2.kernel = (if r.1 < 0 then h.acquire .pmRef else h.resumed).kernel ∨
      n < r.2.kernel.failedDisables := by
  intro r
  have hkernel : (env.booked.call .pmRuntimeGetSync s).2.kernel = (h.acquire .pmRef).kernel := by
    change s.kernel.acquire .pmRef = _
    rw [hs]
    rfl
  by_cases hneg : (env.booked.call .pmRuntimeGetSync s).1 < 0
  · have hr : r = env.booked.call .pmRuntimeGetSync s := by
      simp only [r, getSync, hneg, if_true]
    rw [hr, if_pos hneg]
    exact Or.inl hkernel
  · cases hactive : h.kernel.active with
    | true =>
      have hr : r = env.booked.call .pmRuntimeGetSync s := by
        simp [r, getSync, hneg, hkernel, hactive, Holdings.acquire, Kernel.acquire]
      rw [hr, if_neg hneg]
      left
      simp [hkernel, Holdings.resumed, hactive]
    | false =>
      have hpm : (h.acquire .pmRef).kernel.held .pmEnabled = h.kernel.held .pmEnabled := by
        simp [Holdings.acquire, Kernel.acquire, Ledger.acquire_apply]
      have hr : r = env.runtimeResume (env.booked.call .pmRuntimeGetSync s).2 := by
        simp only [r, getSync]
        rw [if_neg hneg, if_pos]
        rw [hkernel, hpm]
        exact ⟨hen, by simp [hactive]⟩
      rw [hr]
      have hspec := env.runtimeResume_spec n (h := h.acquire .pmRef) hvdd hkernel
      rwa [Holdings.resumed, hactive]

theorem lt_failedDisables_getSync {s : Tracked σ} (hs : n < s.kernel.failedDisables) :
    n < (env.getSync s).2.kernel.failedDisables := by
  have hcall : n < (env.booked.call .pmRuntimeGetSync s).2.kernel.failedDisables := hs
  unfold getSync
  simp only
  split_ifs
  · exact hcall
  · exact env.lt_failedDisables_runtimeResume n hcall
  · exact hcall

/-- `pm_runtime_get_sync` on a device whose power management is enabled. -/
theorem access_getSync (hvdd : h.kernel.hasVdd = h.regVdd) (hen : 0 < h.kernel.held .pmEnabled) :
    Ensures (At n h) (access (env.tracked.call .pmRuntimeGetSync) : DrvM (Tracked σ) ℤ)
      (fun r => At n (if r < 0 then h.acquire .pmRef else h.resumed)) fun _ _ => False := by
  refine ensures_access _ fun w hw => ?_
  change At n (if (env.getSync w.env).1 < 0 then h.acquire .pmRef else h.resumed)
    { w with env := (env.getSync w.env).2 }
  rcases hw with hw | hw
  · have hkernel : w.env.kernel = h.kernel := congrArg Holdings.kernel hw
    refine (env.getSync_spec n hvdd hen hkernel).imp (fun hafter => ?_) fun hstuck => hstuck
    have hrest (s : Tracked σ) : { w with env := s }.holdings = { h with kernel := s.kernel } := by
      rw [← hw]
      rfl
    rw [hrest, hafter]
    split_ifs
    · rfl
    · exact h.resumed_kernel
  · exact Or.inr (env.lt_failedDisables_getSync n hw)

/-- What `mcp251xfd_open` takes, or the state in which it leaves the power management. -/
theorem open_spec (dv : Fork.Dv) (hn : h.kernel.failedDisables = n) (hring : h.ring = false)
    (hvdd : h.kernel.hasVdd = h.regVdd) (hen : 0 < h.kernel.held .pmEnabled) :
    Ensures (At n h) (Fork.driver env.tracked dv).open (fun _ => At n h.resumed.opened)
      fun _ w => At n h w ∨ At n (h.resumed.release .pmRef) w := by
  have hE := env.tracked_books
  unfold Driver.open
  refine (env.access_getSync n hvdd hen).failed (fun _ _ hf => hf.elim) |>.bind fun err => ?_
  extract_lets undo rest
  refine Ensures.ite (fun hneg => ?_) fun hpos => ?_
  · simp only [if_pos hneg]
    have hput : Moves n (h.acquire .pmRef)
        ((Fork.driver env.tracked dv).env.note .pmRuntimePutNoidle)
        h h :=
      hE.note (by simp) fun _ => h.release_acquire .pmRef
    refine (hput.failed fun _ _ => Or.inl).bind fun _ => ?_
    exact Ensures.bind (Q := fun _ _ => False) (Ensures.throw fun _ => Or.inl) fun _ =>
      Ensures.of_false fun _ hf => hf
  · simp only [if_neg hpos]
    have hn' : h.resumed.kernel.failedDisables = n := by rw [h.failedDisables_resumed, hn]
    have hring' : h.resumed.ring = false := by rw [h.ring_resumed, hring]
    exact (hE.openRest dv hn' hring').failed fun _ _ => Or.inr

/-- After a resume that has worked the device holds what a resumed device holds. -/
theorem note_getSync (hvdd : h.kernel.hasVdd = h.regVdd) (hen : 0 < h.kernel.held .pmEnabled) :
    Ensures (At n h) (env.tracked.note .pmRuntimeGetSync)
      (fun _ w => w.env.kernel.active = true → At n h.resumed w) fun _ _ => False := by
  refine (env.access_getSync n hvdd hen).bind fun r => Ensures.pure fun w hw hactive => ?_
  split_ifs at hw with hneg
  · refine hw.imp (fun hw => ?_) fun hstuck => hstuck
    have hold : h.kernel.active = true := by
      have hkernel : w.env.kernel = (h.acquire .pmRef).kernel := congrArg Holdings.kernel hw
      rwa [hkernel] at hactive
    rw [hw, Holdings.resumed, if_pos hold]
  · exact hw

end Env

namespace Driver
variable (d : Driver σ)

/-- `mcp251xfd_remove` up to `pm_runtime_get_sync`; `close` is what `unregister_candev` does to a
device that is up. -/
def removeResume (close : DrvM σ Unit) : DrvM σ Unit := do
  d.env.note .rxOffloadDel
  close
  d.env.note .unregisterCandev
  d.env.note .pmRuntimeGetSync

/-- The rest of `mcp251xfd_remove`. -/
def removeRest : DrvM σ Unit := do
  d.env.note .pmRuntimePutNoidle
  DrvM.ignoreErr d.clksAndVddDisable
  d.env.note .pmRuntimeDisable
  modify fun w => { w with maxSpeedHz := w.priv.spiMaxSpeedHzOrig }
  d.env.note .freeCandev

/-- `mcp251xfd_remove` of a device that is up: `unregister_candev` calls `mcp251xfd_stop`. -/
def removeUp : DrvM σ Unit := do
  d.env.note .rxOffloadDel
  d.stop
  d.unregister
  modify fun w => { w with maxSpeedHz := w.priv.spiMaxSpeedHzOrig }
  d.env.note .freeCandev

theorem remove_eq : d.remove = d.removeResume (pure ()) >>= fun _ => d.removeRest := by
  simp only [remove, unregister, removeResume, removeRest, bind_assoc, pure_bind]

theorem removeUp_eq : d.removeUp = d.removeResume d.stop >>= fun _ => d.removeRest := by
  simp only [removeUp, unregister, removeResume, removeRest, bind_assoc]

/-- `mcp251xfd_runtime_suspend`, called by the power management for an active device without
references. -/
def runtimeSuspend (d : Driver (Tracked σ)) : DrvM (Tracked σ) Unit := do
  let kernel := (← get).env.kernel
  if kernel.active ∧ kernel.held .pmRef = 0 then
    d.clksAndVddDisable
    modify fun w =>
      { w with env := { w.env with kernel := { w.env.kernel with active := false } } }

end Driver

namespace Env.Books
variable {E : Env (Tracked σ)} {n : ℕ} {h : Holdings} (hE : E.Books) (dv : Fork.Dv)
include hE

theorem removeRest (hn : h.kernel.failedDisables = n) :
    Moves n h (Fork.driver E dv).removeRest h.unregistered.freed h.unregistered.freed := by
  have hput : Moves n h (E.note .pmRuntimePutNoidle) (h.release .pmRef) h.unregistered.freed :=
    hE.note (by simp) fun _ => rfl
  refine hput.bind fun _ => ?_
  refine (hE.clksAndVddDisable (h := h.release .pmRef) dv hn).ignoreErr.bind fun _ => ?_
  refine Moves.bind (k := h.unregistered) (hE.note (by simp) fun _ => rfl) fun _ => ?_
  refine Moves.bind (k := { h.unregistered with maxSpeedHz := h.unregistered.orig }) ?_ fun _ =>
    hE.note (by simp) fun _ => rfl
  refine ensures_iff.mpr fun w (hw : At n _ w) => hw.imp (fun hw => ?_) fun hw => hw
  rw [← hw]
  rfl

omit hE in
theorem access_call_exact (hE : E.Books) {c : KernelCall} (hc : c ≠ .pmRuntimeGetSync) :
    Ensures (fun w => w.holdings = h) (access (E.call c) : DrvM (Tracked σ) ℤ)
      (fun r w => w.holdings = { h with kernel := h.kernel.step c r }) fun _ _ => False := by
  refine ensures_access _ fun w hw => ?_
  subst hw
  unfold World.holdings
  rw [(hE.call c hc w.env).1]

/-- A failure of `regulator_disable` leaves everything as it was. -/
theorem clksAndVddDisable_exact :
    Ensures (fun w => w.holdings = h) (Fork.driver E dv).clksAndVddDisable
      (fun _ w => w.holdings = (h.releaseIf h.regVdd (.supply .vdd)).release .clk)
      fun _ w => ∃ k, w.holdings = { h with kernel := { h.kernel with failedDisables := k } } := by
  refine Ensures.bind (Q := fun _ w => w.holdings = h.releaseIf h.regVdd (.supply .vdd)) ?_
    fun _ => ?_
  · refine ensures_priv_bind fun p => ?_
    by_cases hp : p.regVdd = h.regVdd
    · cases hvdd : h.regVdd with
      | false =>
        rw [hp, hvdd]
        exact Ensures.pure fun _ hw => hw.1
      | true =>
        rw [hp, hvdd]
        have hcall := hE.access_call_exact (h := h) (c := .regulatorDisable .vdd) (by simp)
        refine (hcall.imp (fun _ hw => hw.1) (fun _ _ hw => hw) fun _ _ hf => hf.elim).bind
          fun r => Ensures.ite (fun hr => ?_) fun hr => ?_
        · subst hr
          exact Ensures.pure fun _ hw => hw
        · refine Ensures.throw fun w hw => ⟨h.kernel.failedDisables + 1, ?_⟩
          rw [hw]
          simp only [Kernel.step, hr, if_false, hvdd]
    · refine Ensures.of_false fun w hw => hp ?_
      rw [← hw.1, ← hw.2]
      rfl
  · have hcall := hE.access_call_exact (h := h.releaseIf h.regVdd (.supply .vdd))
      (c := .clkDisableUnprepare) (by simp)
    refine hcall.neverFails.bind fun r => ?_
    exact Ensures.pure fun _ hw => hw

/-- A suspend, even one that fails, leaves what belongs to the phase. -/
theorem keeps_runtimeSuspend (hz : UInt32) (phase : Phase) :
    Keeps (fun w => w.holdings.Fits hz phase) (Fork.driver E dv).runtimeSuspend := by
  rw [Keeps, ensures_iff]
  intro w hfits
  let suspend : DrvM (Tracked σ) Unit := do
    (Fork.driver E dv).clksAndVddDisable
    modify fun w =>
      { w with env := { w.env with kernel := { w.env.kernel with active := false } } }
  have hrun : (Fork.driver E dv).runtimeSuspend w =
      (if w.env.kernel.active ∧ w.env.kernel.held .pmRef = 0 then suspend else pure ()) w := rfl
  rw [hrun]
  split_ifs with hidle
  · have hdown : phase = .down := by
      cases phase with
      | unbound => exact absurd (hfits.inactive rfl) (by simp [World.holdings, hidle.1])
      | down => rfl
      | up => exact absurd (hfits.held_eq .pmRef) (by simp [World.holdings, hidle.2, Phase.held])
    subst hdown
    have hsuspend : Ensures (fun v => v.holdings = w.holdings) suspend
        (fun _ v => v.holdings = w.holdings.suspended)
        (fun _ v => ∃ k, v.holdings =
          { w.holdings with kernel := { w.holdings.kernel with failedDisables := k } }) := by
      refine (hE.clksAndVddDisable_exact dv).bind fun _ => ensures_iff.mpr fun v hv => ?_
      unfold Holdings.suspended
      rw [← hv]
      rfl
    refine ensures_iff.mp (hsuspend.imp (fun _ hv => hv) (fun _ v hv => ?_) fun _ v hv => ?_) w rfl
    · rw [hv]
      exact hfits.suspend hidle.1
    · obtain ⟨k, hk⟩ := hv
      rw [hk]
      exact ⟨hfits.held, hfits.hz_eq, hfits.inactive, hfits.vdd, hfits.ring, hfits.active⟩
  · exact hfits

end Env.Books

namespace Env
variable (env : Env σ) {n : ℕ} {h h₁ : Holdings}

/-- A call without a result cannot fail. -/
theorem note_ok (env : Env σ) (c : KernelCall) :
    Ensures (fun _ => True) (env.note c) (fun _ _ => True) fun _ _ => False :=
  ensures_iff.mpr fun _ hw => hw

theorem stop_ok (env : Env σ) (dv : Fork.Dv) :
    Ensures (fun _ => True) (Fork.driver env dv).stop (fun _ _ => True) fun _ _ => False := by
  have hset (f : Priv → Priv) :
      Ensures (fun _ => True) (modifyPriv f : DrvM σ Unit) (fun _ _ => True) fun _ _ => False :=
    ensures_iff.mpr fun _ hw => hw
  have hignore {α : Type} (x : DrvM σ α) :
      Ensures (fun _ => True) (ignoreErr x) (fun _ _ => True) fun _ _ => False :=
    ensures_ignoreErr Ensures.trivial
  refine ((env.note_ok _).bind fun _ => hset _).bind fun _ => (hignore _).bind fun _ => ?_
  refine (env.note_ok _).bind fun _ => (env.note_ok _).bind fun _ => (hignore _).bind fun _ => ?_
  refine (hignore _).bind fun _ => Ensures.bind ?_ fun _ => (env.note_ok _).bind fun _ =>
    env.note_ok _
  refine ensures_priv_bind fun p => Ensures.bind (Q := fun _ _ => True) ?_ fun _ => hset _
  cases p.rx.isSome with
  | false => exact Ensures.pure fun _ _ => True.intro
  | true => exact (env.note_ok _).imp (fun _ _ => True.intro) (fun _ _ hw => hw) fun _ _ hf => hf

/-- `mcp251xfd_remove` up to a resume that has worked. -/
theorem removeResume_spec (dv : Fork.Dv) {close : DrvM (Tracked σ) Unit}
    (hclose : Ensures (At n (h.release .offload)) close (fun _ => At n h₁) fun _ _ => False)
    (hvdd : h₁.kernel.hasVdd = h₁.regVdd) (hen : 0 < h₁.kernel.held .pmEnabled) :
    Ensures (At n h) ((Fork.driver env.tracked dv).removeResume close)
      (fun _ w => w.env.kernel.active = true → At n (h₁.release .registered).resumed w)
      fun _ _ => False := by
  have hE := env.tracked_books
  have hnote {c : KernelCall} (hc : c ≠ .pmRuntimeGetSync) {h k : Holdings}
      (hstep : ∀ r, { h with kernel := h.kernel.step c r } = k) :
      Ensures (At n h) (env.tracked.note c) (fun _ => At n k) fun _ _ => False := by
    have hmoves : Moves n h (env.tracked.note c) k h := hE.note hc hstep
    exact (hmoves.and (env.tracked.note_ok c)).imp (fun _ hw => ⟨hw, trivial⟩)
      (fun _ _ hw => hw.1) fun _ _ hf => hf.2
  refine (hnote (by simp) fun _ => rfl).bind fun _ => hclose.bind fun _ => ?_
  refine (hnote (k := h₁.release .registered) (by simp) fun _ => rfl).bind fun _ => ?_
  refine env.note_getSync n hvdd ?_
  simpa [Holdings.release, Kernel.release, Ledger.release_apply] using hen

end Env
end YoctoLayers.Mcp251xfd
