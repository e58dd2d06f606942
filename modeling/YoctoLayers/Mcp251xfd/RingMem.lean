import YoctoLayers.Mcp251xfd.Resume

/-! The memory of the RX ring: `mcp251xfd_open` and `mcp251xfd_stop` allocate and free nothing
else for good. -/
namespace YoctoLayers.Mcp251xfd
open YoctoLayers.Lib DrvM

variable {σ : Type}

/-- `m` blocks are allocated besides the RX ring. -/
def Balanced (m : ℤ) (ring : Bool) (w : World (Tracked σ)) : Prop :=
  w.priv.rx.isSome = ring ∧ w.env.mem = if ring then m + 1 else m

theorem Balanced.of_mem {m : ℤ} {ring : Bool} {w : World (Tracked σ)} (hw : Balanced m ring w)
    {s : Tracked σ} (hs : s.mem = w.env.mem) (data : List (UInt16 × List UInt8)) :
    Balanced m ring { w with env := s, writes := data } :=
  ⟨hw.1, hs.trans hw.2⟩

/-- A call that neither allocates nor frees. -/
def KernelCall.Plain (c : KernelCall) : Prop :=
  c ≠ .kzalloc ∧ c ≠ .kfree ∧ c ≠ .pmRuntimeGetSync

namespace Env.Books
variable {E : Env (Tracked σ)} {m : ℤ} {ring : Bool} {c : KernelCall} (hE : E.Books)
include hE

theorem mem_call (hc : c.Plain) (s : Tracked σ) : (E.call c s).2.mem = s.mem := by
  rw [(hE.call c hc.2.2 s).2]
  cases c
  case kzalloc => exact absurd rfl hc.1
  case kfree => exact absurd rfl hc.2.1
  all_goals rfl

theorem balanced_regSafe : E.RegSafe (Balanced m ring) fun _ _ => True where
  read reg len w hw := hw.of_mem (hE.read reg len w.env).2 w.writes
  readCrc reg len w hw := hw.of_mem (hE.readCrc reg len w.env).2 w.writes
  write reg data w _ hw := hw.of_mem (hE.write reg data w.env).2 _
  polls reg w hw := hw.of_mem (hE.polls reg w.env).2 w.writes

theorem balanced_note (hc : c.Plain) : Keeps (Balanced m ring) (E.note c) :=
  Env.keeps_note c fun w hw => hw.of_mem (hE.mem_call hc w.env) w.writes

theorem balanced_invoke (hc : c.Plain) : Keeps (Balanced m ring) (E.invoke c) :=
  (keeps_access _ fun w hw => hw.of_mem (hE.mem_call hc w.env) w.writes).bind fun _ => keeps_check _

variable (dv : Fork.Dv)

theorem balanced_startSafe : (Fork.driver E dv).StartSafe (Balanced m ring) :=
  hE.balanced_regSafe.forkStart (fun w hw => hw.of_mem (hE.reset w.env).2 w.writes) dv

theorem balanced_supplyEnable (present : Bool) (supply : Supply) :
    Keeps (Balanced m ring) ((Fork.driver E dv).supplyEnable present supply) :=
  keeps_callIf _ (hE.balanced_invoke ⟨by simp, by simp, by simp⟩)

theorem balanced_supplyDisable (present : Bool) (supply : Supply) :
    Keeps (Balanced m ring) ((Fork.driver E dv).supplyDisable present supply) :=
  keeps_callIf _ (hE.balanced_invoke ⟨by simp, by simp, by simp⟩)

theorem balanced_chipStop (state : CanState) :
    Keeps (Balanced m ring) ((Fork.driver E dv).chipStop state) :=
  (hE.balanced_startSafe dv).chipStop state fun _ hw => hw

/-- One block more. -/
theorem balanced_kzalloc {w : World (Tracked σ)} (hw : Balanced m ring w)
    (hr : (E.call .kzalloc w.env).1 = 0) :
    Balanced (m + 1) ring { w with env := (E.call .kzalloc w.env).2 } := by
  refine ⟨hw.1, (hE.call .kzalloc (by simp) w.env).2.trans ?_⟩
  rw [hw.2]
  cases ring <;> simp [memStep, hr]

theorem balanced_kzalloc_fails {w : World (Tracked σ)} (hw : Balanced m ring w)
    (hr : (E.call .kzalloc w.env).1 ≠ 0) :
    Balanced m ring { w with env := (E.call .kzalloc w.env).2 } := by
  refine hw.of_mem ?_ w.writes
  rw [(hE.call .kzalloc (by simp) w.env).2]
  simp [memStep, hr]

theorem balanced_kfree {w : World (Tracked σ)} (hw : Balanced (m + 1) ring w) :
    Balanced m ring { w with env := (E.call .kfree w.env).2 } := by
  refine ⟨hw.1, (hE.call .kfree (by simp) w.env).2.trans ?_⟩
  rw [hw.2]
  cases ring <;> simp [memStep]

theorem balanced_ringFree :
    Ensures (Balanced m ring) (Fork.driver E dv).ringFree (fun _ => Balanced m false)
      fun _ _ => False := by
  rw [ensures_iff]
  intro w hw
  have hmem := (hE.call .kfree (by simp) w.env).2
  cases ring with
  | false =>
    have hrun : (Fork.driver E dv).ringFree w =
        .ok () { w with priv := { w.priv with rx := none } } := by
      change (callIf w.priv.rx.isSome (E.note .kfree) >>= _) w = _
      rw [hw.1]
      rfl
    rw [hrun]
    exact ⟨rfl, hw.2⟩
  | true =>
    have hrun : (Fork.driver E dv).ringFree w =
        .ok () { w with env := (E.call .kfree w.env).2, priv := { w.priv with rx := none } } := by
      change (callIf w.priv.rx.isSome (E.note .kfree) >>= _) w = _
      rw [hw.1]
      rfl
    rw [hrun]
    refine ⟨rfl, hmem.trans ?_⟩
    rw [hw.2]
    simp [memStep]

theorem balanced_ringAlloc :
    Ensures (Balanced m false) (Fork.driver E dv).ringAlloc (fun _ => Balanced m true)
      fun _ => Balanced m false := by
  refine Ensures.bind (Q := fun _ => Balanced m false) keeps_priv fun p => ?_
  refine Ensures.bind (Q := fun _ => Balanced m false) (keeps_modifyPriv _ fun _ hw => hw)
    fun _ => ?_
  refine Ensures.bind (Q := fun _ => Balanced (m + 1) false) ?_ fun _ => ?_
  · refine Ensures.tryCatch (X := fun _ => Balanced m false) ?_ fun err => ?_
    · refine Ensures.bind (Q := fun err w => if err = 0 then Balanced (m + 1) false w
        else Balanced m false w) (ensures_access _ fun w hw => ?_) fun err => ?_
      · split_ifs with hr
        · exact hE.balanced_kzalloc hw hr
        · exact hE.balanced_kzalloc_fails hw hr
      · by_cases hr : err = 0
        · simp only [hr, if_true]
          exact Ensures.pure fun _ hw => hw
        · simp only [hr, if_false]
          exact Ensures.throw fun _ hw => hw
    · refine Ensures.bind (Q := fun _ => Balanced m false) ?_ fun _ => Ensures.throw fun _ hw => hw
      exact (hE.balanced_ringFree dv).neverFails
  · exact ensures_iff.mpr fun w hw => ⟨rfl, hw.2⟩

theorem balanced_chipStart : Keeps (Balanced m ring) (Fork.driver E dv).chipStart := by
  have hsafe : (Fork.driver E dv).StartSafe (Balanced m ring) := hE.balanced_startSafe dv
  have hundo : Keeps (Balanced m ring) (ignoreErr ((Fork.driver E dv).chipStop .stopped)) :=
    keeps_ignoreErr (hE.balanced_chipStop dv .stopped)
  refine (keeps_onError hundo ?_).bind fun _ => hsafe.chipRxIntEnable.bind fun _ =>
    keeps_onError hundo ?_
  · exact hsafe.chipSoftreset.bind fun _ => hsafe.chipClockInit.bind fun _ => hsafe.setBittiming
  · have hecc : Keeps (Balanced m ring) (Fork.driver E dv).chipEccInit :=
      hsafe.chipEccInit (hE.balanced_startSafe dv) (fun _ hw => hw)
        (fun _ hw hr => hE.balanced_kzalloc hw hr) (fun _ hw hr => hE.balanced_kzalloc_fails hw hr)
        fun _ hw => hE.balanced_kfree hw
    refine hecc.bind fun _ => (keeps_modifyPriv _ fun w hw => ?_).bind fun _ => ?_
    · refine ⟨?_, hw.2⟩
      rw [← hw.1]
      cases hrx : w.priv.rx <;> simp [Priv.ringInit, hrx]
    · exact hsafe.chipFifoInit.bind fun _ =>
        (keeps_modifyPriv _ fun _ hw => hw).bind fun _ => hsafe.chipSetNormalMode' false

theorem balanced_openRest :
    Ensures (Balanced m false) (Fork.driver E dv).openRest (fun _ => Balanced m true)
      fun _ => Balanced m false := by
  have hfree : Ensures (Balanced m true) (Fork.driver E dv).ringFree (fun _ => Balanced m false)
      fun _ => Balanced m false :=
    (hE.balanced_ringFree dv).neverFails
  have hclose {ring : Bool} : Keeps (Balanced m ring) (E.note .closeCandev) :=
    hE.balanced_note ⟨by simp, by simp, by simp⟩
  have honline : Keeps (Balanced m true) (do
      (Fork.driver E dv).chipStart
      E.note .rxOffloadEnable
      onError (E.note .rxOffloadDisable) do
        E.invoke .requestIrq
        onError (E.note .freeIrq) (Fork.driver E dv).chipInterruptsEnable
        (Fork.driver E dv).netifStartQueue) := by
    refine (hE.balanced_chipStart dv).bind fun _ => ?_
    refine (hE.balanced_note ⟨by simp, by simp, by simp⟩).bind fun _ => ?_
    refine keeps_onError (hE.balanced_note ⟨by simp, by simp, by simp⟩) ?_
    refine (hE.balanced_invoke ⟨by simp, by simp, by simp⟩).bind fun _ => Keeps.bind ?_ fun _ => ?_
    · exact keeps_onError (hE.balanced_note ⟨by simp, by simp, by simp⟩)
        (hE.balanced_startSafe dv).chipInterruptsEnable
    · exact (hE.balanced_note ⟨by simp, by simp, by simp⟩).bind fun _ =>
        keeps_modifyPriv _ fun _ hw => hw
  refine Ensures.tryCatch (X := fun _ => Balanced m false) ?_ fun err => ?_
  · refine Ensures.bind (Q := fun _ => Balanced m false)
      (hE.balanced_invoke ⟨by simp, by simp, by simp⟩) fun _ => ?_
    refine Ensures.tryCatch (X := fun _ => Balanced m false) ?_ fun err =>
      Ensures.bind (Q := fun _ => Balanced m false) hclose fun _ => Ensures.throw fun _ hw => hw
    refine (hE.balanced_ringAlloc dv).bind fun _ => ?_
    refine Ensures.tryCatch (X := fun _ => Balanced m true) ?_ fun err =>
      hfree.bind fun _ => Ensures.throw fun _ hw => hw
    refine Keeps.bind ?_ fun _ => keeps_onError (keeps_ignoreErr ?_) honline
    · exact keeps_priv.bind fun _ => hE.balanced_supplyEnable dv _ _
    · exact keeps_priv.bind fun _ => hE.balanced_supplyDisable dv _ _
  · refine Ensures.bind (Q := fun _ => Balanced m false) ?_ fun _ => Ensures.throw fun _ hw => hw
    exact (keeps_ignoreErr (hE.balanced_chipStop dv .stopped)).bind fun _ =>
      hE.balanced_note ⟨by simp, by simp, by simp⟩

theorem balanced_stop :
    Ensures (Balanced m true) (Fork.driver E dv).stop (fun _ => Balanced m false)
      fun _ _ => True := by
  have hnote {c : KernelCall} (hc : c.Plain) {b : Bool} :
      Ensures (Balanced m b) (E.note c) (fun _ => Balanced m b) fun _ _ => True :=
    (hE.balanced_note hc).unlessFails
  refine Keeps.bindUnlessFails ?_ fun _ => (keeps_ignoreErr ?_).bindUnlessFails fun _ => ?_
  · exact (hE.balanced_note ⟨by simp, by simp, by simp⟩).bind fun _ =>
      keeps_modifyPriv _ fun _ hw => hw
  · exact (hE.balanced_startSafe dv).chipInterruptsDisable (inReg_true _) (inReg_true _)
      (inReg_true _)
  refine (hnote ⟨by simp, by simp, by simp⟩).bind fun _ =>
    (hnote ⟨by simp, by simp, by simp⟩).bind fun _ => ?_
  refine (keeps_ignoreErr (hE.balanced_chipStop dv .stopped)).bindUnlessFails fun _ => ?_
  refine (keeps_ignoreErr ?_).bindUnlessFails fun _ => ?_
  · exact keeps_priv.bind fun _ => hE.balanced_supplyDisable dv _ _
  refine (hE.balanced_ringFree dv).neverFails.bind fun _ => ?_
  exact (hnote ⟨by simp, by simp, by simp⟩).bind fun _ => hnote ⟨by simp, by simp, by simp⟩

theorem balanced_clksAndVddEnable :
    Keeps (Balanced m ring) (Fork.driver E dv).clksAndVddEnable := by
  refine (hE.balanced_invoke ⟨by simp, by simp, by simp⟩).bind fun _ => ?_
  refine keeps_onError (hE.balanced_note ⟨by simp, by simp, by simp⟩) ?_
  exact keeps_priv.bind fun _ => hE.balanced_supplyEnable dv _ _

theorem balanced_runtimeSuspend : Keeps (Balanced m ring) (Fork.driver E dv).runtimeSuspend := by
  refine Keeps.get.bind fun w => Keeps.ite ?_ (Keeps.pure _)
  refine Keeps.bind (Keeps.bind ?_ fun _ => ?_) fun _ => Keeps.modify fun _ hw => hw
  · exact keeps_priv.bind fun _ => hE.balanced_supplyDisable dv _ _
  · exact hE.balanced_note ⟨by simp, by simp, by simp⟩

end Env.Books

namespace Env
variable (env : Env σ) {m : ℤ} {ring : Bool}

theorem mem_runtimeResume (s : Tracked σ) : (env.runtimeResume s).2.mem = s.mem := by
  let w₀ : World (Tracked σ) :=
    { env := s, priv := { Priv.alloc with regVdd := s.kernel.hasVdd },
      maxSpeedHz := 0, writes := [] }
  have hkeep : Keeps (Balanced s.mem false) (Orig.driver env.booked).clksAndVddEnable :=
    env.booked_books.balanced_clksAndVddEnable ⟨0, 0, false, false⟩
  unfold runtimeResume
  simp only
  cases hrun : (Orig.driver env.booked).clksAndVddEnable w₀ with
  | ok a w => exact (hkeep.ok ⟨rfl, rfl⟩ hrun).2
  | error err w => exact (hkeep.error ⟨rfl, rfl⟩ hrun).2

theorem mem_getSync (s : Tracked σ) : (env.getSync s).2.mem = s.mem := by
  unfold getSync
  simp only
  split_ifs
  · rfl
  · exact env.mem_runtimeResume _
  · rfl

theorem balanced_open (dv : Fork.Dv) :
    Ensures (Balanced m false) (Fork.driver env.tracked dv).open (fun _ => Balanced m true)
      fun _ => Balanced m false := by
  have hE := env.tracked_books
  unfold Driver.open
  refine Ensures.bind (Q := fun _ => Balanced m false) ?_ fun err => ?_
  · exact keeps_access _ fun w hw => hw.of_mem (env.mem_getSync w.env) w.writes
  extract_lets undo rest
  have hrest (u : Unit) : Ensures (Balanced m false) (rest u) (fun _ => Balanced m true)
      fun _ => Balanced m false :=
    hE.balanced_openRest dv
  refine Ensures.ite (fun _ => ?_) fun _ => hrest ()
  refine Ensures.bind (Q := fun _ => Balanced m false) ?_ fun _ => ?_
  · exact hE.balanced_note ⟨by simp, by simp, by simp⟩
  · exact Ensures.bind (Q := fun _ _ => False) (Ensures.throw fun _ hw => hw) fun _ =>
      Ensures.of_false fun _ hf => hf

end Env
end YoctoLayers.Mcp251xfd
