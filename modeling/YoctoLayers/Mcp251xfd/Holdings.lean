import YoctoLayers.Mcp251xfd.Kernel

/-! What `mcp251xfd_probe`, `mcp251xfd_open` and their counterparts hold: every ladder of labels
gives back what it has taken, as long as no `regulator_disable` fails. -/
namespace YoctoLayers.Mcp251xfd
open YoctoLayers.Lib DrvM

variable {σ : Type}

/-- What the driver holds, and the fields that say what it has to give back. -/
structure Holdings where
  kernel : Kernel
  /-- The RX ring is allocated. -/
  ring : Bool
  regVdd : Bool
  regXceiver : Bool
  orig : UInt32
  maxSpeedHz : UInt32

def World.holdings (w : World (Tracked σ)) : Holdings where
  kernel := w.env.kernel
  ring := w.priv.rx.isSome
  regVdd := w.priv.regVdd
  regXceiver := w.priv.regXceiver
  orig := w.priv.spiMaxSpeedHzOrig
  maxSpeedHz := w.maxSpeedHz

/-- More than `n` calls of `regulator_disable` have failed. -/
def Stuck (n : ℕ) (w : World (Tracked σ)) : Prop := n < w.env.kernel.failedDisables

/-- The driver holds `h`, unless more than `n` calls of `regulator_disable` have failed. -/
def At (n : ℕ) (h : Holdings) (w : World (Tracked σ)) : Prop := w.holdings = h ∨ Stuck n w

/-- The program goes from holdings `h` to `h'`, or fails with `u`. -/
def Moves {α : Type} (n : ℕ) (h : Holdings) (x : DrvM (Tracked σ) α) (h' u : Holdings) : Prop :=
  Ensures (At n h) x (fun _ => At n h') fun _ => At n u

namespace Holdings

def acquire (h : Holdings) (r : Resource) : Holdings := { h with kernel := h.kernel.acquire r }

def release (h : Holdings) (r : Resource) : Holdings := { h with kernel := h.kernel.release r }

def acquireIf (h : Holdings) (c : Bool) (r : Resource) : Holdings := if c then h.acquire r else h

def releaseIf (h : Holdings) (c : Bool) (r : Resource) : Holdings := if c then h.release r else h

def setRing (h : Holdings) (ring : Bool) : Holdings := { h with ring := ring }

/-- What `mcp251xfd_open` takes last. -/
def online (h : Holdings) : Holdings := (h.acquire .offloadEnabled).acquire .irq

/-- What `mcp251xfd_open` takes after the reference of the power management. -/
def opened (h : Holdings) : Holdings :=
  (((h.acquire .opened).setRing true).acquireIf h.regXceiver (.supply .xceiver)).online

/-- What `mcp251xfd_stop` gives back first. -/
def offline (h : Holdings) : Holdings := (h.release .irq).release .offloadEnabled

/-- What `mcp251xfd_stop` leaves. -/
def closed (h : Holdings) : Holdings :=
  (((h.offline.releaseIf h.regXceiver (.supply .xceiver)).setRing false).release .opened).release
    .pmRef

def setActive (h : Holdings) (active : Bool) : Holdings :=
  { h with kernel := { h.kernel with active := active } }

/-- What `mcp251xfd_clks_and_vdd_enable` takes. -/
def powered (h : Holdings) : Holdings := (h.acquire .clk).acquireIf h.regVdd (.supply .vdd)

/-- What `mcp251xfd_register` takes. -/
def registered (h : Holdings) : Holdings :=
  ((((h.powered.acquire .pmRef).setActive true).acquire .pmEnabled).acquire .registered).release
    .pmRef

@[simp] theorem release_acquire (h : Holdings) (r : Resource) : (h.acquire r).release r = h := by
  simp [acquire, release]

theorem release_comm (h : Holdings) (r x : Resource) :
    (h.release r).release x = (h.release x).release r := by
  simp only [release, Kernel.release, h.kernel.held.release_comm r x]

/-- It does not matter when something else is given back. -/
theorem closed_release (h : Holdings) (r : Resource) :
    (h.release r).closed = h.closed.release r := by
  have hring (h : Holdings) (b : Bool) : (h.release r).setRing b = (h.setRing b).release r := rfl
  have hxceiver : (h.release r).regXceiver = h.regXceiver := rfl
  unfold closed offline releaseIf
  rw [hxceiver]
  simp only [h.release_comm r, (h.release .irq).release_comm r]
  split_ifs <;> simp only [release_comm _ r, hring]

@[simp] theorem releaseIf_acquireIf (h : Holdings) (c : Bool) (r : Resource) :
    (h.acquireIf c r).releaseIf c r = h := by
  cases c <;> simp [acquireIf, releaseIf]

@[simp] theorem failedDisables_acquire (h : Holdings) (r : Resource) :
    (h.acquire r).kernel.failedDisables = h.kernel.failedDisables := rfl

@[simp] theorem failedDisables_acquireIf (h : Holdings) (c : Bool) (r : Resource) :
    (h.acquireIf c r).kernel.failedDisables = h.kernel.failedDisables := by
  cases c <;> rfl

@[simp] theorem regXceiver_acquireIf (h : Holdings) (c : Bool) (r : Resource) :
    (h.acquireIf c r).regXceiver = h.regXceiver := by
  cases c <;> rfl

@[simp] theorem active_acquire (h : Holdings) (r : Resource) :
    (h.acquire r).kernel.active = h.kernel.active := rfl

@[simp] theorem active_acquireIf (h : Holdings) (c : Bool) (r : Resource) :
    (h.acquireIf c r).kernel.active = h.kernel.active := by
  cases c <;> rfl

theorem setActive_false (h : Holdings) (hactive : h.kernel.active = false) :
    (h.setActive true).setActive false = h := by
  simp only [setActive, ← hactive]

theorem regVdd_acquire (h : Holdings) (r : Resource) : (h.acquire r).regVdd = h.regVdd := rfl

@[simp] theorem regVdd_acquireIf (h : Holdings) (c : Bool) (r : Resource) :
    (h.acquireIf c r).regVdd = h.regVdd := by
  cases c <;> rfl

/-- `mcp251xfd_clks_and_vdd_disable` undoes `mcp251xfd_clks_and_vdd_enable`. -/
theorem powered_undo (h : Holdings) :
    (h.powered.releaseIf h.powered.regVdd (.supply .vdd)).release .clk = h := by
  simp [powered, regVdd_acquire]

end Holdings

namespace Moves
variable {α β : Type} {x : DrvM (Tracked σ) α} {f : α → DrvM (Tracked σ) β} {n : ℕ}
  {h h' u k : Holdings}

theorem bind (hx : Moves n h x k u) (hf : ∀ a, Moves n k (f a) h' u) :
    Moves n h (x >>= f) h' u :=
  Ensures.bind hx hf

theorem pure (a : α) : Moves n h (pure a : DrvM (Tracked σ) α) h u := Ensures.pure fun _ hw => hw

theorem throw (err : ℤ) : Moves n h (throw err : DrvM (Tracked σ) α) h' h :=
  Ensures.throw fun _ hw => hw

/-- A label that undoes what has been done. -/
theorem onError {undo : DrvM (Tracked σ) Unit} (hx : Moves n h x h' k)
    (hundo : Moves n k undo u u) : Moves n h (onError undo x) h' u :=
  Ensures.tryCatch hx fun _ => hundo.bind fun _ => throw _

theorem ignoreErr (hx : Moves n h x h' h') : Moves n h (ignoreErr x) h' u :=
  Ensures.tryCatch (hx.bind fun _ => pure _) fun _ => pure _

/-- What follows depends on the private data, but only on what the holdings say about it. -/
theorem priv_bind {g : Priv → DrvM (Tracked σ) β} (hstuck : ∀ p, Keeps (Stuck n) (g p))
    (hg : ∀ p : Priv, p.rx.isSome = h.ring → p.regVdd = h.regVdd → p.regXceiver = h.regXceiver →
      Moves n h (g p) h' u) : Moves n h (DrvM.priv >>= g) h' u := by
  refine ensures_priv_bind fun p => ?_
  rw [ensures_iff]
  rintro w ⟨hw | hw, rfl⟩
  · subst hw
    exact ensures_iff.mp (hg w.priv rfl rfl rfl) w (Or.inl rfl)
  · cases hrun : g w.priv w with
    | ok a w' => exact Or.inr ((hstuck w.priv).ok hw hrun)
    | error err w' => exact Or.inr ((hstuck w.priv).error hw hrun)

theorem read_priv {g : Priv → DrvM (Tracked σ) β} (hg : ∀ p, Moves n h (g p) h' u) :
    Moves n h (DrvM.priv >>= g) h' u :=
  ensures_priv_bind fun p => (hg p).pre (fun _ hw => hw.1)

/-- A change of the private data. -/
theorem modifyPriv {g : Priv → Priv}
    (hg : ∀ w : World (Tracked σ), w.holdings = h → { w with priv := g w.priv }.holdings = h') :
    Moves n h (DrvM.modifyPriv g : DrvM (Tracked σ) Unit) h' u :=
  ensures_iff.mpr fun w (hw : At n h w) => hw.imp (hg w) fun hw => hw

theorem callIf {y : DrvM (Tracked σ) Unit} (c : Bool) (hy : Moves n h y h u) :
    Moves n h (DrvM.callIf c y) h u := by
  cases c with
  | false => exact pure ()
  | true => exact hy

/-- The end of a run without a new failure of `regulator_disable`. -/
theorem ok (hx : Moves n h x h' u) {w w' : World (Tracked σ)} {a : α} (hw : w.holdings = h)
    (hrun : x w = .ok a w') (hn : w'.env.kernel.failedDisables = n) : w'.holdings = h' :=
  (Ensures.ok hx (Or.inl hw) hrun).resolve_right (by rw [Stuck]; omega)

theorem error (hx : Moves n h x h' u) {w w' : World (Tracked σ)} {err : ℤ} (hw : w.holdings = h)
    (hrun : x w = .error err w') (hn : w'.env.kernel.failedDisables = n) : w'.holdings = u :=
  (Ensures.error hx (Or.inl hw) hrun).resolve_right (by rw [Stuck]; omega)

end Moves

theorem At.of_kernel {n : ℕ} {h : Holdings} {w : World (Tracked σ)} (hw : At n h w)
    {s : Tracked σ} (hs : s.kernel = w.env.kernel) (data : List (UInt16 × List UInt8)) :
    At n h { w with env := s, writes := data } := by
  unfold At World.holdings Stuck at hw ⊢
  rw [hs]
  exact hw

/-- `mcp251xfd_open` once the reference of the power management is taken. -/
def Driver.openRest (d : Driver σ) : DrvM σ Unit :=
  let outPmRuntimePut := do
    DrvM.ignoreErr (d.chipStop .stopped)
    d.env.note .pmRuntimePut
  DrvM.onError outPmRuntimePut do
    d.env.invoke .openCandev
    DrvM.onError (d.env.note .closeCandev) do
      d.ringAlloc
      DrvM.onError d.ringFree do
        d.transceiverEnable
        DrvM.onError (DrvM.ignoreErr d.transceiverDisable) do
          d.chipStart
          d.env.note .rxOffloadEnable
          DrvM.onError (d.env.note .rxOffloadDisable) do
            d.env.invoke .requestIrq
            DrvM.onError (d.env.note .freeIrq) d.chipInterruptsEnable
            d.netifStartQueue

namespace Env.Books
variable {E : Env (Tracked σ)} {n : ℕ} {h h' u : Holdings} {c : KernelCall}

theorem regSafe (hE : E.Books) (n : ℕ) (h : Holdings) : E.RegSafe (At n h) fun _ _ => True where
  read reg len w hw := hw.of_kernel (hE.read reg len w.env).1 w.writes
  readCrc reg len w hw := hw.of_kernel (hE.readCrc reg len w.env).1 w.writes
  write reg data w _ hw := hw.of_kernel (hE.write reg data w.env).1 _
  polls reg w hw := hw.of_kernel (hE.polls reg w.env).1 w.writes

theorem startSafe (hE : E.Books) (dv : Fork.Dv) (n : ℕ) (h : Holdings) :
    (Fork.driver E dv).StartSafe (At n h) :=
  (hE.regSafe n h).forkStart (fun w hw => hw.of_kernel (hE.reset w.env).1 w.writes) dv

/-- A call that returns `r` enters itself in the books. -/
theorem access_call (hE : E.Books) (hc : c ≠ .pmRuntimeGetSync)
    {X : ℤ → World (Tracked σ) → Prop} :
    Ensures (At n h) (access (E.call c) : DrvM (Tracked σ) ℤ)
      (fun r => At n { h with kernel := h.kernel.step c r }) X := by
  refine ensures_access _ fun w hw => ?_
  have hcall := (hE.call c hc w.env).1
  rcases hw with hw | hw
  · left
    subst hw
    unfold World.holdings
    rw [hcall]
  · right
    unfold Stuck at hw ⊢
    rw [hcall]
    exact hw.trans_le (Kernel.failedDisables_le_step _ _ _)

/-- A call whose entry does not depend on its result. -/
theorem note (hE : E.Books) (hc : c ≠ .pmRuntimeGetSync)
    (hstep : ∀ r, { h with kernel := h.kernel.step c r } = h') : Moves n h (E.note c) h' u :=
  Ensures.bind (hE.access_call hc) fun r => Ensures.pure fun _ hw => hstep r ▸ hw

/-- A call that takes something or fails. -/
theorem invoke (hE : E.Books) (hc : c ≠ .pmRuntimeGetSync)
    (hok : { h with kernel := h.kernel.step c 0 } = h')
    (herr : ∀ r, r ≠ 0 → h.kernel.step c r = h.kernel) : Moves n h (E.invoke c) h' h := by
  refine Ensures.bind (hE.access_call hc) fun r => Ensures.ite (fun hr => ?_) fun hr => ?_
  · exact Ensures.pure fun _ hw => hok ▸ hr ▸ hw
  · rw [herr r hr]
    exact Moves.throw _

theorem allocMem (hE : E.Books) {d : Driver (Tracked σ)} (hd : d.env = E)
    (hc : c ≠ .pmRuntimeGetSync) (hok : { h with kernel := h.kernel.step c 0 } = h')
    (herr : ∀ r, r ≠ 0 → h.kernel.step c r = h.kernel) : Moves n h (d.allocMem c) h' h := by
  subst hd
  refine Ensures.bind (hE.access_call hc) fun r => ?_
  by_cases hr : r = 0
  · simp only [hr, if_true]
    exact Ensures.pure fun _ hw => hok ▸ hw
  · rw [herr r hr]
    simp only [hr, if_false]
    exact Moves.throw _

/-- `regulator_disable` gives the supply back, or is stuck. -/
theorem invoke_disable (hE : E.Books) (hn : h.kernel.failedDisables = n) (supply : Supply) :
    Moves n h (E.invoke (.regulatorDisable supply)) (h.release (.supply supply)) u := by
  refine Ensures.bind (hE.access_call (by simp)) fun r => Ensures.ite (fun hr => ?_) fun hr => ?_
  · refine Ensures.pure fun w hw => ?_
    subst hr
    exact hw
  · refine Ensures.throw fun w hw => Or.inr ?_
    rcases hw with hw | hw
    · have hkernel := congrArg (fun h => h.kernel.failedDisables) hw
      simp only [Kernel.step, hr, if_false] at hkernel
      unfold Stuck
      rw [← hn]
      exact Nat.lt_of_lt_of_eq (Nat.lt_succ_self _) hkernel.symm
    · exact hw

theorem keeps_stuck_invoke (hE : E.Books) (hc : c ≠ .pmRuntimeGetSync) :
    Keeps (Stuck n) (E.invoke c) := by
  refine (keeps_access _ fun w hw => ?_).bind fun r => keeps_check _
  unfold Stuck at hw ⊢
  rw [(hE.call c hc w.env).1]
  exact hw.trans_le (Kernel.failedDisables_le_step _ _ _)

section
variable (hE : E.Books) (dv : Fork.Dv)
include hE

theorem supplyEnable (present : Bool) (supply : Supply) :
    Moves n h ((Fork.driver E dv).supplyEnable present supply)
      (h.acquireIf present (.supply supply)) h := by
  cases present with
  | false => exact Moves.pure ()
  | true => exact hE.invoke (by simp) rfl fun r hr => by simp [Kernel.step, hr]

theorem supplyDisable (hn : h.kernel.failedDisables = n) (present : Bool) (supply : Supply) :
    Moves n h ((Fork.driver E dv).supplyDisable present supply)
      (h.releaseIf present (.supply supply)) u := by
  cases present with
  | false => exact Moves.pure ()
  | true => exact hE.invoke_disable hn supply

theorem keeps_stuck_supplyEnable (present : Bool) (supply : Supply) :
    Keeps (Stuck n) ((Fork.driver E dv).supplyEnable present supply) :=
  keeps_callIf _ (hE.keeps_stuck_invoke (by simp))

theorem keeps_stuck_supplyDisable (present : Bool) (supply : Supply) :
    Keeps (Stuck n) ((Fork.driver E dv).supplyDisable present supply) :=
  keeps_callIf _ (hE.keeps_stuck_invoke (by simp))

theorem transceiverEnable :
    Moves n h (Fork.driver E dv).transceiverEnable
      (h.acquireIf h.regXceiver (.supply .xceiver)) h :=
  Moves.priv_bind (fun _ => hE.keeps_stuck_supplyEnable dv _ _) fun p _ _ hp => by
    rw [hp]
    exact hE.supplyEnable dv _ _

theorem transceiverDisable (hn : h.kernel.failedDisables = n) :
    Moves n h (Fork.driver E dv).transceiverDisable
      (h.releaseIf h.regXceiver (.supply .xceiver)) u :=
  Moves.priv_bind (fun _ => hE.keeps_stuck_supplyDisable dv _ _) fun p _ _ hp => by
    rw [hp]
    exact hE.supplyDisable dv hn _ _

/-- The label `out_transceiver_disable`. -/
theorem transceiverDisable_undo (hn : h.kernel.failedDisables = n) :
    Moves n (h.acquireIf h.regXceiver (.supply .xceiver)) (Fork.driver E dv).transceiverDisable
      h u := by
  have hx : (h.acquireIf h.regXceiver (.supply .xceiver)).regXceiver = h.regXceiver :=
    h.regXceiver_acquireIf _ _
  have hdisable := hE.transceiverDisable (n := n)
    (h := h.acquireIf h.regXceiver (.supply .xceiver)) (u := u) dv (by simpa using hn)
  rwa [hx, h.releaseIf_acquireIf] at hdisable

theorem vddEnable :
    Moves n h (Fork.driver E dv).vddEnable (h.acquireIf h.regVdd (.supply .vdd)) h :=
  Moves.priv_bind (fun _ => hE.keeps_stuck_supplyEnable dv _ _) fun p _ hp _ => by
    rw [hp]
    exact hE.supplyEnable dv _ _

theorem vddDisable (hn : h.kernel.failedDisables = n) :
    Moves n h (Fork.driver E dv).vddDisable (h.releaseIf h.regVdd (.supply .vdd)) u :=
  Moves.priv_bind (fun _ => hE.keeps_stuck_supplyDisable dv _ _) fun p _ hp _ => by
    rw [hp]
    exact hE.supplyDisable dv hn _ _

theorem clksAndVddEnable :
    Moves n h (Fork.driver E dv).clksAndVddEnable
      ((h.acquire .clk).acquireIf h.regVdd (.supply .vdd)) h := by
  refine Moves.bind (k := h.acquire .clk)
    (hE.invoke (by simp) rfl fun r hr => by simp [Kernel.step, hr]) fun _ => ?_
  refine Moves.onError (hE.vddEnable dv) (hE.note (by simp) fun r => ?_)
  exact h.release_acquire .clk

theorem clksAndVddDisable (hn : h.kernel.failedDisables = n) :
    Moves n h (Fork.driver E dv).clksAndVddDisable
      ((h.releaseIf h.regVdd (.supply .vdd)).release .clk) u :=
  (hE.vddDisable dv hn).bind fun _ => hE.note (by simp) fun _ => rfl

/-- Memory is not among the holdings. -/
theorem note_kfree : Moves n h (E.note .kfree) h u := hE.note (by simp) fun _ => rfl

theorem ringFree : Moves n h (Fork.driver E dv).ringFree (h.setRing false) u := by
  refine Moves.read_priv fun p => (Moves.callIf _ hE.note_kfree).bind fun _ => ?_
  refine Moves.modifyPriv fun w hw => ?_
  subst hw
  rfl

theorem ringAlloc (hring : h.ring = false) :
    Moves n h (Fork.driver E dv).ringAlloc (h.setRing true) h := by
  refine Moves.read_priv fun p => Moves.bind (k := h) (Moves.modifyPriv fun _ hw => hw) fun _ => ?_
  refine Moves.bind (k := h) ?_ fun _ => Moves.modifyPriv fun w hw => ?_
  · refine Moves.onError (k := h) (hE.allocMem rfl (by simp) rfl fun _ _ => rfl) ?_
    have hfree := hE.ringFree (n := n) (h := h) (u := h) dv
    rwa [Holdings.setRing, ← hring] at hfree
  · subst hw
    rfl

theorem chipStop (state : CanState) : Moves n h ((Fork.driver E dv).chipStop state) h h :=
  (hE.startSafe dv n h).chipStop state fun _ hw => hw

theorem chipInterruptsDisable : Moves n h (Fork.driver E dv).chipInterruptsDisable h h :=
  (hE.startSafe dv n h).chipInterruptsDisable (inReg_true _) (inReg_true _) (inReg_true _)

theorem chipStart : Moves n h (Fork.driver E dv).chipStart h h := by
  have hsafe := hE.startSafe dv n h
  have hundo {x : DrvM (Tracked σ) Unit} (hx : Moves n h x h h) :
      Moves n h (DrvM.onError (DrvM.ignoreErr ((Fork.driver E dv).chipStop .stopped)) x) h h :=
    hx.onError (hE.chipStop dv .stopped).ignoreErr
  refine (hundo ?_).bind fun _ => Moves.bind hsafe.chipRxIntEnable fun _ => hundo ?_
  · exact hsafe.chipSoftreset.bind fun _ => hsafe.chipClockInit.bind fun _ => hsafe.setBittiming
  · have hecc : Moves n h (Fork.driver E dv).chipEccInit h h := by
      refine hsafe.chipEccInit hsafe (fun _ hw => hw) (fun w hw _ => ?_) (fun w hw _ => ?_)
        fun w hw => ?_
      · exact hw.of_kernel (hE.call .kzalloc (by simp) w.env).1 w.writes
      · exact hw.of_kernel (hE.call .kzalloc (by simp) w.env).1 w.writes
      · exact hw.of_kernel (hE.call .kfree (by simp) w.env).1 w.writes
    refine hecc.bind fun _ => Moves.bind (k := h) (Moves.modifyPriv fun w hw => ?_) fun _ => ?_
    · subst hw
      cases hrx : w.priv.rx <;> simp [World.holdings, Priv.ringInit, hrx]
    · refine Moves.bind hsafe.chipFifoInit fun _ => ?_
      exact Moves.bind (k := h) (Moves.modifyPriv fun _ hw => hw) fun _ =>
        hsafe.chipSetNormalMode' false

/-- The part of `mcp251xfd_open` after `mcp251xfd_chip_start`. -/
theorem openOnline :
    let d := Fork.driver E dv
    Moves n h
      (do
        d.chipStart
        d.env.note .rxOffloadEnable
        DrvM.onError (d.env.note .rxOffloadDisable) do
          d.env.invoke .requestIrq
          DrvM.onError (d.env.note .freeIrq) d.chipInterruptsEnable
          d.netifStartQueue)
      h.online h := by
  refine (hE.chipStart dv).bind fun _ => ?_
  refine Moves.bind (k := h.acquire .offloadEnabled) (hE.note (by simp) fun _ => rfl) fun _ => ?_
  refine Moves.onError (k := h.acquire .offloadEnabled) ?_
    (hE.note (by simp) fun _ => h.release_acquire _)
  refine Moves.bind (k := h.online) (hE.invoke (by simp) rfl fun r hr => ?_) fun _ => ?_
  · simp [Kernel.step, hr]
  · refine Moves.bind (k := h.online) (Moves.onError (k := h.online) ?_ ?_) fun _ => ?_
    · exact (hE.startSafe dv n h.online).chipInterruptsEnable
    · exact hE.note (by simp) fun _ => (h.acquire .offloadEnabled).release_acquire _
    · exact Moves.bind (k := h.online) (hE.note (by simp) fun _ => rfl) fun _ =>
        Moves.modifyPriv fun _ hw => hw

/-- `mcp251xfd_open` either takes all the rest or gives back the reference too. -/
theorem openRest (hn : h.kernel.failedDisables = n) (hring : h.ring = false) :
    Moves n h (Fork.driver E dv).openRest h.opened (h.release .pmRef) := by
  refine Moves.onError (k := h) ?_ ?_
  · refine Moves.bind (k := h.acquire .opened) (hE.invoke (by simp) rfl fun r hr => ?_) fun _ => ?_
    · simp [Kernel.step, hr]
    refine Moves.onError (k := h.acquire .opened) ?_
      (hE.note (by simp) fun _ => h.release_acquire _)
    refine (hE.ringAlloc (h := h.acquire .opened) dv hring).bind fun _ => ?_
    refine Moves.onError (k := (h.acquire .opened).setRing true) ?_ ?_
    · refine (hE.transceiverEnable dv).bind fun _ => (hE.openOnline dv).onError ?_
      exact (hE.transceiverDisable_undo (h := (h.acquire .opened).setRing true) dv hn).ignoreErr
    · have hback : ((h.acquire .opened).setRing true).setRing false = h.acquire .opened := by
        simp only [Holdings.setRing, ← hring]
        rfl
      have hfree := hE.ringFree (n := n) (h := (h.acquire .opened).setRing true)
        (u := h.acquire .opened) dv
      rwa [hback] at hfree
  · exact (hE.chipStop dv .stopped).ignoreErr.bind fun _ => hE.note (by simp) fun _ => rfl

/-- `mcp251xfd_stop` gives back all that `mcp251xfd_open` has taken. -/
theorem stop (hn : h.kernel.failedDisables = n) :
    Moves n h (Fork.driver E dv).stop h.closed u := by
  refine Moves.bind (k := h) (Moves.bind (k := h)
    (hE.note (by simp) fun _ => rfl) fun _ => Moves.modifyPriv fun _ hw => hw) fun _ => ?_
  refine (hE.chipInterruptsDisable dv).ignoreErr.bind fun _ => ?_
  refine Moves.bind (k := h.release .irq) (hE.note (by simp) fun _ => rfl) fun _ => ?_
  refine Moves.bind (k := h.offline) (hE.note (by simp) fun _ => rfl) fun _ => ?_
  refine (hE.chipStop dv .stopped).ignoreErr.bind fun _ => ?_
  refine (hE.transceiverDisable (h := h.offline) dv hn).ignoreErr.bind fun _ => ?_
  refine (hE.ringFree dv).bind fun _ => ?_
  exact Moves.bind (hE.note (by simp) fun _ => rfl) fun _ => hE.note (by simp) fun _ => rfl

theorem regmapInitMap (kind : MapKind) (usesReg usesRx : UInt32 → Bool) :
    Moves n h (E.regmapInitMap kind usesReg usesRx) h h := by
  have hset (f : MapState → MapState) : Moves n h (modifyMap kind f : DrvM (Tracked σ) Unit) h h :=
    Moves.modifyPriv fun _ hw => hw
  unfold Env.regmapInitMap
  extract_lets last afterRx afterMap
  have hlast (u : Unit) : Moves n h (last u) h h := Moves.modifyPriv fun _ hw => hw
  have hafterRx (u : Unit) : Moves n h (afterRx u) h h := by
    refine Moves.read_priv fun p => Ensures.ite (fun _ => ?_) fun _ => hlast ()
    refine Ensures.bind (hE.access_call (by simp)) fun r => ?_
    exact Moves.bind (k := h) (keeps_check _) fun _ => (hset _).bind hlast
  have hafterMap (u : Unit) : Moves n h (afterMap u) h h := by
    refine Moves.read_priv fun p => Ensures.ite (fun _ => ?_) fun _ => hafterRx ()
    refine Ensures.bind (hE.access_call (by simp)) fun r => ?_
    exact Moves.bind (k := h) (keeps_check _) fun _ => (hset _).bind hafterRx
  refine Moves.read_priv fun p => Ensures.ite (fun _ => ?_) fun _ => hafterMap ()
  refine Moves.bind (k := h) (hE.invoke (by simp) rfl fun _ _ => rfl) fun _ => ?_
  exact (hset _).bind hafterMap

theorem regmapDestroyMap (kind : MapKind) : Moves n h (E.regmapDestroyMap kind) h h := by
  refine Moves.read_priv fun p => (Moves.callIf _ hE.note_kfree).bind fun _ => ?_
  exact (Moves.callIf _ hE.note_kfree).bind fun _ => Moves.modifyPriv fun _ hw => hw

theorem regmapInit : Moves n h E.regmapInit h h := by
  unfold Env.regmapInit
  refine Moves.read_priv fun p => ?_
  extract_lets quirks crc
  have hcrc (u : Unit) : Moves n h (crc u) h h :=
    Ensures.ite (fun _ => hE.regmapInitMap _ _ _) fun _ => hE.regmapDestroyMap _
  refine Ensures.ite (fun _ => ?_) fun _ => ?_
  · exact Moves.bind (hE.regmapInitMap _ _ _) hcrc
  · exact Moves.bind (hE.regmapDestroyMap _) hcrc

omit hE in
theorem registerQuirks : Moves n h (Fork.driver E dv).registerQuirks h h := by
  refine Moves.modifyPriv fun w hw => ?_
  subst hw
  dsimp only
  split_ifs <;> rfl

theorem registerChipDetect : Moves n h (Fork.driver E dv).registerChipDetect h h := by
  have hsafe := hE.startSafe dv n h
  refine Moves.bind (hsafe.regmapUpdateBits _ _ (inReg_true _)) fun _ => ?_
  refine Moves.bind (hsafe.regmapRead _) fun osc => ?_
  refine Moves.bind (k := h) (Moves.modifyPriv fun _ hw => hw) fun _ => ?_
  exact (registerQuirks dv).bind fun _ => hE.regmapInit

theorem registerCheckRxInt : Moves n h (Fork.driver E dv).registerCheckRxInt h h := by
  have hsafe := hE.startSafe dv n h
  refine Moves.bind (k := h) hsafe.rxInt fun _ => Ensures.ite (fun _ => Moves.pure _) fun _ => ?_
  refine Moves.bind (k := h) hsafe.chipRxIntEnable fun _ => ?_
  refine Moves.bind (k := h) (keeps_access _ fun w hw => ?_) fun pending => ?_
  · exact hw.of_kernel (hE.rxPending w.env).1 w.writes
  · refine Moves.bind (k := h) (hsafe.chipRxIntDisable (inReg_true _)) fun _ => ?_
    refine Ensures.ite (fun _ => Moves.pure _) fun _ => ?_
    exact Moves.bind (k := h) (hE.note (by simp) fun _ => rfl) fun _ =>
      Moves.modifyPriv fun _ hw => hw

theorem registerGetDevId : Moves n h (Fork.driver E dv).registerGetDevId h h := by
  have hsafe := hE.startSafe dv n h
  have halloc : Moves n h ((Fork.driver E dv).allocMem .kzalloc) h h :=
    hE.allocMem rfl (by simp) rfl fun _ _ => rfl
  refine halloc.bind fun _ => Moves.bind (k := h) (Moves.ignoreErr ?_) fun _ => hE.note_kfree
  refine halloc.bind fun _ => Moves.bind (k := h) (keeps_attempt ?_) fun _ => hE.note_kfree
  exact Env.keeps_spiRead (hsafe.read _ _)

/-- The part of `mcp251xfd_register` under the label `out_chip_set_mode_sleep`. -/
theorem registerCandev :
    let d := Fork.driver E dv
    Moves n h
      (do
        d.registerChipDetect
        d.registerCheckRxInt
        d.env.invoke .registerCandev
        DrvM.onError (d.env.note .unregisterCandev) do
          d.registerGetDevId
          d.chipSetMode modeSleep)
      (h.acquire .registered) h := by
  refine (hE.registerChipDetect dv).bind fun _ => (hE.registerCheckRxInt dv).bind fun _ => ?_
  refine Moves.bind (k := h.acquire .registered) (hE.invoke (by simp) rfl fun r hr => ?_)
    fun _ => ?_
  · simp [Kernel.step, hr]
  · refine Moves.onError (k := h.acquire .registered) ?_
      (hE.note (by simp) fun _ => h.release_acquire _)
    exact (hE.registerGetDevId dv).bind fun _ => (hE.startSafe dv n _).chipSetMode _ _

/-- `mcp251xfd_register` takes the clock, the supply and the registration, or nothing. -/
theorem register (hn : h.kernel.failedDisables = n) (hactive : h.kernel.active = false) :
    Moves n h (Fork.driver E dv).register h.registered h := by
  refine (hE.clksAndVddEnable dv).bind fun _ => ?_
  change Moves n h.powered _ _ _
  have hpowered : h.powered.kernel.failedDisables = n := by simpa [Holdings.powered] using hn
  have hidle : h.powered.kernel.active = false := by simpa [Holdings.powered] using hactive
  refine Moves.bind (k := h.powered.acquire .pmRef) (hE.note (by simp) fun _ => rfl) fun _ => ?_
  refine Moves.onError (k := h.powered.acquire .pmRef) ?_ ?_
  · refine Moves.bind (k := (h.powered.acquire .pmRef).setActive true)
      (hE.invoke (by simp) rfl fun r hr => by simp [Kernel.step, hr]) fun _ => ?_
    refine Moves.bind (k := ((h.powered.acquire .pmRef).setActive true).acquire .pmEnabled)
      (hE.note (by simp) fun _ => rfl) fun _ => ?_
    generalize hh₁ : ((h.powered.acquire .pmRef).setActive true).acquire .pmEnabled = h₁
    have hregistered : h.registered = (h₁.acquire .registered).release .pmRef := by
      rw [← hh₁]
      rfl
    rw [hregistered]
    refine Moves.onError (k := h₁) ?_ (hE.note (by simp) fun r => ?_)
    · refine (registerQuirks dv).bind fun _ => ?_
      have hsleep : Moves n h₁ ((Fork.driver E dv).chipSetMode modeSleep) h₁ h₁ :=
        (hE.startSafe dv n h₁).chipSetMode _ _
      refine Moves.bind (keeps_attempt (hE.startSafe dv n h₁).chipSoftreset) fun r => ?_
      cases r with
      | error err =>
        exact (Moves.callIf _ hsleep.ignoreErr).bind fun _ => Moves.throw _
      | ok a =>
        refine Moves.bind (k := h₁.acquire .registered)
          ((hE.registerCandev dv).onError hsleep.ignoreErr) fun _ => ?_
        exact hE.note (by simp) fun _ => rfl
    · rw [← hh₁]
      change (((((h.powered.acquire .pmRef).setActive true).acquire .pmEnabled).release
        .pmEnabled).setActive false) = _
      rw [Holdings.release_acquire]
      exact Holdings.setActive_false _ hidle
  · refine Moves.bind (k := h.powered) (hE.note (by simp) fun _ => h.powered.release_acquire _)
      fun _ => Moves.ignoreErr ?_
    have hdisable := hE.clksAndVddDisable (n := n) (h := h.powered) (u := h) dv hpowered
    rwa [h.powered_undo] at hdisable

end
end Env.Books
end YoctoLayers.Mcp251xfd
