import YoctoLayers.Mcp251xfd.BusOff

/-! `mcp251xfd_chip_start` with its unwinding label: which of its exits leave a controller that is
stopped. -/
namespace YoctoLayers.Mcp251xfd
open YoctoLayers.Lib DrvM

variable {σ : Type}

namespace Driver
variable (d : Driver σ)

/-- The steps of `mcp251xfd_chip_start` before `mcp251xfd_chip_rx_int_enable`. -/
def chipStartBefore : DrvM σ Unit := do
  d.chipSoftreset
  d.chipClockInit
  d.setBittiming

/-- The steps after it. -/
def chipStartAfter : DrvM σ Unit := do
  d.chipEccInit
  DrvM.modifyPriv Priv.ringInit
  d.chipFifoInit
  DrvM.modifyPriv fun p => p.enter .errorActive
  d.chipSetNormalMode

/-- The steps of `mcp251xfd_chip_start` up to the first that fails, without what follows the
failure. -/
def chipStartSteps : DrvM σ Unit := do
  d.chipStartBefore
  d.chipRxIntEnable
  d.chipStartAfter

/-- The controller runs: its state, its rings as `mcp251xfd_ring_init` makes them, and the mode
in the last read of CON. -/
structure Started (w w' : World σ) : Prop where
  priv : w'.priv =
    (Priv.ringInit { w.priv with ecc := { w.priv.ecc with eccStat := 0 } }).enter .errorActive
  mode : ∃ w₁ con, d.regmapRead regCon w₁ = .ok con w' ∧
    (conOpmod.get con).toUInt8 = w'.priv.normalMode

/-- After a failure in `w` interrupts have been turned off, then RX-INT, and Sleep mode has been
requested. -/
structure Unwound (w w' : World σ) : Prop where
  stopped : w'.priv.canState = .stopped
  attempts : ∃ w₁ w₂, after d.chipInterruptsDisable (w.enter .stopped) = w₁ ∧
    after d.chipRxIntDisable w₁ = w₂ ∧
    after (d.regmapUpdateBits regCon conReqop.mask (conReqop.prep modeSleep.toUInt32)) w₂ = w'

/-- What is to hold when `mcp251xfd_chip_start` returns. -/
structure StartDone (w : World σ) : Prop where
  ok : ∀ w', d.chipStart w = .ok () w' → d.Started w w'
  error : ∀ err w', d.chipStart w = .error err w' →
    ∃ w₁, d.chipStartSteps w = .error err w₁ ∧ d.Unwound w₁ w'

/-- The steps before succeed and `mcp251xfd_chip_rx_int_enable` fails. -/
def RxIntFails (w : World σ) : Prop :=
  ∃ w₁ err w₂, d.chipStartBefore w = .ok () w₁ ∧ d.chipRxIntEnable w₁ = .error err w₂

theorem chipStart_eq :
    d.chipStart = (do
      DrvM.onError (DrvM.ignoreErr (d.chipStop .stopped)) d.chipStartBefore
      d.chipRxIntEnable
      DrvM.onError (DrvM.ignoreErr (d.chipStop .stopped)) d.chipStartAfter) :=
  rfl

variable {d} {w w' : World σ}

theorem run_chipStop (state : CanState) (w : World σ) :
    d.chipStop state w =
      d.chipSetMode modeSleep
        (after d.chipRxIntDisable (after d.chipInterruptsDisable (w.enter state))) := by
  unfold chipStop
  rw [run_bind_ok (show DrvM.modifyPriv _ w = .ok () (w.enter state) from rfl),
    run_bind_ok (run_ignoreErr _ _), run_bind_ok (run_ignoreErr _ _)]

/-- Every exit of `mcp251xfd_chip_start`. -/
theorem chipStart_cases (w : World σ) :
    d.RxIntFails w ∨
      (∃ err w₁, d.chipStartSteps w = .error err w₁ ∧
        d.chipStart w = .error err (after (d.chipStop .stopped) w₁)) ∨
      ∃ w₁ w₂ w₃, d.chipStartBefore w = .ok () w₁ ∧ d.chipRxIntEnable w₁ = .ok () w₂ ∧
        d.chipStartAfter w₂ = .ok () w₃ ∧ d.chipStart w = .ok () w₃ := by
  cases hbefore : d.chipStartBefore w with
  | error err w₁ =>
    refine Or.inr (Or.inl ⟨err, w₁, run_bind_error hbefore, ?_⟩)
    rw [chipStart_eq]
    exact run_bind_error (run_onError_error hbefore)
  | ok a w₁ =>
    cases hrx : d.chipRxIntEnable w₁ with
    | error err w₂ => exact Or.inl ⟨w₁, err, w₂, hbefore, hrx⟩
    | ok a w₂ =>
      have hstart : d.chipStart w =
          onError (ignoreErr (d.chipStop .stopped)) d.chipStartAfter w₂ := by
        rw [chipStart_eq, run_bind_ok (run_onError_ok hbefore), run_bind_ok hrx]
      have hsteps : d.chipStartSteps w = d.chipStartAfter w₂ := by
        unfold chipStartSteps
        rw [run_bind_ok hbefore, run_bind_ok hrx]
      cases hafter : d.chipStartAfter w₂ with
      | error err w₃ =>
        refine Or.inr (Or.inl ⟨err, w₃, hsteps.trans hafter, ?_⟩)
        rw [hstart, run_onError_error hafter]
      | ok a w₃ =>
        refine Or.inr (Or.inr ⟨w₁, w₂, w₃, rfl, hrx, hafter, ?_⟩)
        rw [hstart, run_onError_ok hafter]

/-- The step that leaves without the label. -/
theorem chipStart_of_rxIntFails {w₁ w₂ : World σ} {err : ℤ}
    (hbefore : d.chipStartBefore w = .ok () w₁) (hrx : d.chipRxIntEnable w₁ = .error err w₂) :
    d.chipStart w = .error err w₂ ∧ d.chipStartSteps w = .error err w₂ := by
  constructor
  · rw [chipStart_eq, run_bind_ok (run_onError_ok hbefore)]
    exact run_bind_error hrx
  · unfold chipStartSteps
    rw [run_bind_ok hbefore]
    exact run_bind_error hrx

/-- Without a map for the registers the first step fails. -/
theorem mapReg_of_chipStartBefore {w₁ : World σ} (h : d.chipStartBefore w = .ok () w₁) :
    w.priv.regmaps.mapReg ≠ none := by
  intro hnone
  have hderef : Bus.deref Regmaps.mapReg w = .error (-efault) w := by
    unfold Bus.deref
    rw [run_bind_ok (show DrvM.priv w = .ok w.priv w from rfl), hnone]
    rfl
  have hdo : d.chipSoftresetDo w = .error (-efault) w :=
    run_bind_error (run_bind_error (run_bind_error hderef))
  have htries : d.chipSoftreset w = .error (-efault) w := by
    unfold chipSoftreset softresetRetriesMax chipSoftresetTries
    rw [run_bind_ok (run_attempt_error (run_bind_error hdo))]
    rfl
  cases (show d.chipStartBefore w = .error (-efault) w from run_bind_error htries).symm.trans h

end Driver

/-- A failing read has an error code. -/
theorem Env.ensures_crcReadTries_ne (env : Env σ) (reg : UInt16) (len tries : ℕ) :
    Ensures (fun _ => True) (env.regmapCrcReadTries reg len tries) (fun _ _ => True)
      fun err _ => err ≠ 0 := by
  induction tries with
  | zero => exact Ensures.pure fun _ h => h
  | succ tries ih =>
    refine Ensures.bind (Q := fun _ _ => True) ?_ fun r => ?_
    · refine Ensures.bind (Q := fun _ _ => True) (ensures_access _ fun _ _ => trivial) fun r => ?_
      exact Ensures.ite (fun _ => Ensures.pure fun _ h => h) fun _ =>
        Ensures.ite (fun _ => Ensures.pure fun _ h => h) fun _ => Ensures.pure fun _ h => h
    · refine Ensures.ite (fun _ => Ensures.pure fun _ h => h) fun hne => ?_
      refine Ensures.ite (fun _ => Ensures.throw fun _ _ => hne) fun _ => ?_
      exact Ensures.ite (fun _ => Ensures.pure fun _ h => h) fun _ => ih

theorem DrvM.ensures_check (err : ℤ) :
    Ensures (fun _ => True) (check err : DrvM σ Unit) (fun _ _ => True) fun err _ => err ≠ 0 :=
  Ensures.ite (fun _ => Ensures.pure fun _ h => h) fun hne => Ensures.throw fun _ _ => hne

namespace Fork
variable {env : Env σ} {dv : Dv} {w w' : World σ}

theorem ensures_regmapRead (env : Env σ) (dv : Dv) (reg : UInt16) :
    Ensures (fun _ => True) ((driver env dv).regmapRead reg) (fun _ _ => True)
      fun err _ => err ≠ 0 := by
  have hbad : -ebadmsg ≠ 0 := by decide
  refine Ensures.bind (Q := fun _ _ => True) ?_ fun kind => ?_
  · refine DrvM.ensures_priv_bind fun p => ?_
    cases p.regmaps.mapReg with
    | none => exact Ensures.throw fun _ _ => (by decide : -efault ≠ 0)
    | some kind => exact Ensures.pure fun _ _ => trivial
  · refine Ensures.bind (Q := fun _ _ => True) ?_ fun _ => Ensures.pure fun _ h => h
    cases kind with
    | nocrc =>
      refine Ensures.bind (Q := fun _ _ => True) (ensures_access _ fun _ _ => trivial) fun r => ?_
      exact Ensures.bind (ensures_check _) fun _ => Ensures.pure fun _ h => h
    | crc =>
      have hreread (rereads : ℕ) : Ensures (fun _ => True) (env.regmapCrcReread reg 4 rereads)
          (fun _ _ => True) fun err _ => err ≠ 0 := by
        induction rereads with
        | zero =>
          refine Ensures.bind (env.ensures_crcReadTries_ne reg 4 _) fun r => ?_
          cases r with
          | none => exact Ensures.throw fun _ _ => hbad
          | some data => exact Ensures.pure fun _ h => h
        | succ rereads ih =>
          refine Ensures.bind (env.ensures_crcReadTries_ne reg 4 _) fun r => ?_
          cases r with
          | none => exact ih
          | some data => exact Ensures.pure fun _ h => h
      exact hreread 2

/-- A poll that succeeds ends with a read of a value that it waited for. -/
theorem regmapPoll_ok (env : Env σ) (dv : Dv) {w w' : World σ} {reg : UInt16}
    {cond : UInt32 → Bool} {reads : ℕ} {val v : UInt32}
    (h : (driver env dv).regmapPoll reg cond reads val w = .ok (0, v) w') :
    ∃ w₁, (driver env dv).regmapRead reg w₁ = .ok v w' ∧ cond v = true := by
  induction reads generalizing val w with
  | zero => cases h
  | succ reads ih =>
    unfold Bus.regmapPoll at h
    cases hread : (driver env dv).regmapRead reg w with
    | error err w₁ =>
      rw [run_bind_ok (run_attempt_error hread)] at h
      have herr : err = 0 := by
        cases h
        rfl
      exact absurd herr ((ensures_regmapRead env dv reg).error trivial hread)
    | ok u w₁ =>
      rw [run_bind_ok (run_attempt_ok hread)] at h
      by_cases hcond : cond u = true
      · have hend : u = v ∧ w₁ = w' := by
          simp only [hcond, if_true] at h
          cases h
          exact ⟨rfl, rfl⟩
        obtain ⟨rfl, rfl⟩ := hend
        exact ⟨w, hread, hcond⟩
      · simp only [hcond] at h
        exact ih h

theorem normalMode_ne_sleep (p : Priv) : p.normalMode ≠ modeSleep := by
  unfold Priv.normalMode
  split_ifs <;> decide

theorem check_ok {err : ℤ} (h : DrvM.check err w = .ok () w') : err = 0 ∧ w' = w := by
  unfold DrvM.check at h
  split_ifs at h with herr
  · cases h
    exact ⟨herr, rfl⟩
  · cases h

/-- The mode is confirmed by the last access. -/
theorem chipSetNormalMode_ok (h : (driver env dv).chipSetNormalMode w = .ok () w') :
    ∃ w₁ con, (driver env dv).regmapRead regCon w₁ = .ok con w' ∧
      (conOpmod.get con).toUInt8 = w.priv.normalMode := by
  have hne := normalMode_ne_sleep w.priv
  have hset : Fork.chipSetMode' (Fork.bus env) dv w.priv.normalMode false w = .ok () w' := by
    obtain ⟨p, w₁, hpriv, hset⟩ := ok_of_bind h
    cases hpriv
    exact hset
  unfold Fork.chipSetMode' at hset
  rw [if_neg fun hsleep => hne hsleep.2] at hset
  obtain ⟨_, w₁, -, hset⟩ := ok_of_bind hset
  rw [if_neg (by simp [hne])] at hset
  obtain ⟨⟨err, con⟩, w₂, hpoll, hcheck⟩ := ok_of_bind hset
  obtain ⟨rfl, rfl⟩ := check_ok hcheck
  obtain ⟨reads, w₃, -, hpoll⟩ := ok_of_bind hpoll
  obtain ⟨w₄, hread, hcond⟩ := regmapPoll_ok env dv hpoll
  exact ⟨w₄, con, hread, by simpa using hcond⟩

theorem startSafe_priv (env : Env σ) (dv : Dv) (p : Priv) :
    (driver env dv).StartSafe fun w => w.priv = p :=
  (Env.Safe.ofPriv (· = p)).toRegSafe.forkStart (fun _ h => h) dv

theorem started_of_chipStartAfter (h : (driver env dv).chipStartAfter w = .ok () w') :
    (driver env dv).Started w w' := by
  obtain ⟨_, w₁, hecc, h⟩ := ok_of_bind h
  obtain ⟨_, w₂, hring, h⟩ := ok_of_bind h
  obtain ⟨_, w₃, hfifo, h⟩ := ok_of_bind h
  obtain ⟨_, w₄, hstate, hmode⟩ := ok_of_bind h
  have h₁ : w₁.priv = { w.priv with ecc := { w.priv.ecc with eccStat := 0 } } := by
    have hsafe := startSafe_priv env dv
      { w.priv with ecc := { w.priv.ecc with eccStat := 0 } }
    refine (hsafe.chipEccInit (P := fun v => v.priv = w.priv) hsafe (fun v hv => ?_)
      (fun _ hv _ => hv) (fun _ hv _ => hv) fun _ hv => hv).ok rfl hecc
    rw [hv]
  have h₂ : w₂.priv = w₁.priv.ringInit := by
    cases hring
    rfl
  have h₃ : w₃.priv = w₂.priv := (startSafe_priv env dv w₂.priv).chipFifoInit.ok rfl hfifo
  have h₄ : w₄.priv = w₃.priv.enter .errorActive := by
    cases hstate
    rfl
  have h₅ : w'.priv = w₄.priv :=
    ((startSafe_priv env dv w₄.priv).chipSetNormalMode' false).ok rfl hmode
  constructor
  · rw [h₅, h₄, h₃, h₂, h₁]
  · rw [h₅]
    exact chipSetNormalMode_ok hmode

/-- With `dv_noslp` unset `mcp251xfd_chip_stop` unwinds. -/
theorem unwound_chipStop (hnoslp : dv.noslp = false) (w : World σ) :
    (driver env dv).Unwound w (after ((driver env dv).chipStop .stopped) w) where
  stopped := canState_chipStop env dv .stopped w
  attempts := by
    refine ⟨_, _, rfl, rfl, ?_⟩
    have hsleep : (driver env dv).chipSetMode modeSleep =
        (driver env dv).regmapUpdateBits regCon conReqop.mask (conReqop.prep modeSleep.toUInt32) >>=
          fun _ => pure () := by
      change Fork.chipSetMode' (Fork.bus env) dv modeSleep false = _
      unfold Fork.chipSetMode'
      rw [if_neg (by simp [hnoslp])]
      rfl
    unfold after
    rw [Driver.run_chipStop, hsleep]
    exact (after_bind_pure ()).symm

/-- The attempt to turn interrupts off shows in the register writes. -/
theorem not_unwound_self (hmap : w.priv.regmaps.mapReg ≠ none) : ¬ (driver env dv).Unwound w w := by
  rintro ⟨-, w₁, w₂, hint, hrx, hbits⟩
  have hsafe (n : ℕ) : (Fork.bus env).Safe (fun w => n ≤ w.writes.length) fun _ _ => True :=
    Env.Safe.forkBus
      { read := fun _ _ _ h => h
        readCrc := fun _ _ _ h => h
        write := fun _ _ w _ h => by
          rw [List.length_append]
          exact Nat.le_add_right_of_le h
        polls := fun _ _ h => h
        call := fun _ _ h => h }
  set n := w.writes.length with hn
  have hoff : Ensures (fun v => v = w.enter .stopped) (driver env dv).chipInterruptsDisable
      (fun _ v => n + 1 ≤ v.writes.length) fun _ v => n + 1 ≤ v.writes.length := by
    refine Ensures.bind (Q := fun _ v => n + 1 ≤ v.writes.length) ?_ fun _ => ?_
    · refine Ensures.bind (Q := fun _ v => v = w.enter .stopped) ?_ fun kind => ?_
      · refine DrvM.ensures_priv_bind fun p => ?_
        cases hp : p.regmaps.mapReg with
        | none =>
          refine Ensures.throw fun v hv => absurd ?_ hmap
          rw [← hp, ← hv.2, hv.1]
          rfl
        | some kind => exact Ensures.pure fun v hv => hv.1
      · refine Env.ensures_spiWrite fun v hv => ?_
        subst hv
        rw [List.length_append]
        exact Nat.le_refl _
    · refine Keeps.bind ((hsafe _).regmapUpdateBits _ _ (inReg_true _)) fun _ => ?_
      exact (hsafe _).regmapWrite _ (inReg_true _)
  have h₁ : n + 1 ≤ w₁.writes.length := by
    rw [← hint]
    cases hrun : (driver env dv).chipInterruptsDisable (w.enter .stopped) with
    | ok a v =>
      rw [after_ok hrun]
      exact hoff.ok rfl hrun
    | error err v =>
      rw [after_error hrun]
      exact hoff.error rfl hrun
  have h₂ : n + 1 ≤ w₂.writes.length := by
    rw [← hrx]
    refine Keeps.after (I := fun v : World σ => n + 1 ≤ v.writes.length) ?_ h₁
    exact (hsafe _).rxInt.bind fun _ =>
      Keeps.ite (Keeps.pure _) ((hsafe _).regmapWrite _ (inReg_true _))
  have h₃ : n + 1 ≤ w.writes.length := by
    rw [← hbits]
    exact Keeps.after ((hsafe (n + 1)).regmapUpdateBits _ _ (inReg_true _)) h₂
  omega

theorem not_startDone_of_rxIntFails (h : (driver env dv).RxIntFails w) :
    ¬ (driver env dv).StartDone w := by
  obtain ⟨w₁, err, w₂, hbefore, hrx⟩ := h
  obtain ⟨hstart, hsteps⟩ := Driver.chipStart_of_rxIntFails hbefore hrx
  have hsafe := startSafe_priv env dv w.priv
  have hpriv : w₂.priv = w.priv := by
    refine hsafe.chipRxIntEnable.error ?_ hrx
    have hkeeps := hsafe.chipSoftreset.bind fun _ => hsafe.chipClockInit.bind fun _ =>
      hsafe.setBittiming
    exact hkeeps.ok rfl hbefore
  intro hdone
  obtain ⟨v, hv, hunwound⟩ := hdone.error err w₂ hstart
  obtain rfl : v = w₂ := by
    rw [hsteps] at hv
    cases hv
    rfl
  exact not_unwound_self (hpriv ▸ Driver.mapReg_of_chipStartBefore hbefore) hunwound

end Fork

/-- With `dv_noslp` unset `mcp251xfd_chip_start` ends with a running controller or, after
`mcp251xfd_chip_stop`, with a stopped one, exactly if the step that fails is not
`mcp251xfd_chip_rx_int_enable`. -/
theorem chip_start_done_iff (env : Env σ) (dv : Fork.Dv) (hnoslp : dv.noslp = false)
    (w : World σ) :
    (Fork.driver env dv).StartDone w ↔ ¬ (Fork.driver env dv).RxIntFails w := by
  constructor
  · intro hdone hfails
    exact Fork.not_startDone_of_rxIntFails hfails hdone
  · intro hrx
    rcases Driver.chipStart_cases (d := Fork.driver env dv) w with
      hfails | ⟨err, w₁, hsteps, hstart⟩ | ⟨w₁, w₂, w₃, hbefore, henable, hafter, hstart⟩
    · exact absurd hfails hrx
    · refine ⟨fun w' hok => ?_, fun err' w' herr => ⟨w₁, ?_, ?_⟩⟩
      · cases hstart.symm.trans hok
      · cases hstart.symm.trans herr
        exact hsteps
      · cases hstart.symm.trans herr
        exact Fork.unwound_chipStop hnoslp w₁
    · have hsafe := Fork.startSafe_priv env dv w.priv
      have hkeeps := hsafe.chipSoftreset.bind fun _ => hsafe.chipClockInit.bind fun _ =>
        hsafe.setBittiming
      have hpriv : w₂.priv = w.priv := hsafe.chipRxIntEnable.ok (hkeeps.ok rfl hbefore) henable
      have hstarted := Fork.started_of_chipStartAfter hafter
      constructor
      · intro w' hok
        cases hstart.symm.trans hok
        exact ⟨hpriv ▸ hstarted.priv, hstarted.mode⟩
      · intro err w' herr
        cases hstart.symm.trans herr

theorem chip_start_done_bench : (Fork.driver Bench.env Bench.dvUnset).StartDone Bench.world := by
  refine (chip_start_done_iff Bench.env Bench.dvUnset rfl Bench.world).mpr ?_
  rintro ⟨w₁, err, w₂, -, hrx⟩
  cases hrx

namespace Bench

/-- With an RX interrupt line, and a bus that loses the writes to IOCON. -/
def ioconFails : Env UInt8 :=
  { env with
    board := { board with rxInt := true }
    write := fun reg data mode =>
      if reg = regIocon then (-etimedout, mode) else env.write reg data mode }

/-- The controller is off the bus. -/
def offBus : World UInt8 := { world with priv := { opening with canState := .busOff } }

end Bench

/-- A restart from Bus Off that leaves the state at Bus Off. -/
theorem chip_start_stays_busOff :
    let d := Fork.driver Bench.ioconFails Bench.dvUnset
    (after (d.setMode .start) Bench.offBus).priv.canState = .busOff ∧
      ¬ d.StartDone Bench.offBus := by
  intro d
  refine ⟨by decide +kernel, fun hdone => ?_⟩
  have hstate : (after d.chipStart Bench.offBus).priv.canState = .busOff := by decide +kernel
  cases hstart : d.chipStart Bench.offBus with
  | ok a w' =>
    rw [after_ok hstart, (hdone.ok w' hstart).priv] at hstate
    cases hstate
  | error err w' =>
    obtain ⟨w₁, -, hunwound⟩ := hdone.error err w' hstart
    rw [after_error hstart, hunwound.stopped] at hstate
    cases hstate

end YoctoLayers.Mcp251xfd
