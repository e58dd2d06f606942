import YoctoLayers.Lib.Field
import YoctoLayers.Sp7021.Master.Signals

/-! What `SP7021_SPI_CONFIG_REG` holds along a transfer, for every mode of a device. -/
namespace YoctoLayers.Sp7021
open YoctoLayers.Lib

def cphaR : UInt32 := 0x2
def cphaW : UInt32 := 0x4
def lsbSel : UInt32 := 0x10
def csPor : UInt32 := 0x20

/-- The bits of `mode` of `struct spi_device` that the driver looks at. -/
structure SpiMode where
  cpol : Bool
  cpha : Bool
  csHigh : Bool
  lsbFirst : Bool

/-- `xfer_conf` as `sp7021_spi_controller_prepare_message` leaves it. -/
def prepareMessage (mode : SpiMode) : UInt32 :=
  let rs := fdSel
  let rs := if mode.cpol then rs ||| cpolFd else rs
  let rs := if mode.lsbFirst then rs ||| lsbSel else rs
  let rs := if mode.csHigh then rs ||| csPor else rs
  if mode.cpha then rs ||| cphaR else rs ||| cphaW

/-- The driver when a transfer of a message begins, after earlier ones of the message at the given
speeds. -/
def SpiDriver.prepared (drv : SpiDriver) (mode : SpiMode) (clkRate : UInt32)
    (speeds : List UInt32) : SpiDriver :=
  { drv with
    xferConf := speeds.foldl (fun conf hz => setupClk clkRate hz conf) (prepareMessage mode) }

/-- The mode, the full-duplex selection and the clock divider. -/
def confFields : UInt32 := clkMask ||| fdSel ||| csPor ||| lsbSel ||| cphaW ||| cphaR ||| cpolFd

namespace SpiMaster

/-- A round is over, or the call has returned 0. -/
def RoundOver (s : SpiMaster) : Prop := (∃ i, s.pc = .loop (i + 1)) ∨ s.pc = .returned 0

/-- The configuration register agrees with `xfer_conf`, and no interrupt is enabled. -/
def ConfigOk (s : SpiMaster) : Prop :=
  s.ctrl.config &&& confFields = s.drv.xferConf &&& confFields ∧
    s.ctrl.config &&& cleanFlugMask = 0

end SpiMaster

/-- `xfer_conf` but for the clock is what the mode asks for. -/
def ConfOf (mode : SpiMode) (conf : UInt32) : Prop := conf &&& ~~~clkMask = prepareMessage mode

theorem ConfOf.prepareMessage (mode : SpiMode) : ConfOf mode (prepareMessage mode) := by
  rcases mode with ⟨cpol, cpha, csHigh, lsbFirst⟩
  cases cpol <;> cases cpha <;> cases csHigh <;> cases lsbFirst <;> rfl

theorem ConfOf.setupClk {mode : SpiMode} {conf : UInt32} (h : ConfOf mode conf)
    (clkRate speedHz : UInt32) : ConfOf mode (setupClk clkRate speedHz conf) := by
  rw [ConfOf, ← h]
  exact or_and_not _ _ _

theorem ConfOf.prepared {mode : SpiMode} (drv : SpiDriver) (clkRate : UInt32)
    (speeds : List UInt32) : ConfOf mode (drv.prepared mode clkRate speeds).xferConf := by
  have hfold (conf : UInt32) (h : ConfOf mode conf) :
      ConfOf mode (speeds.foldl (fun conf hz => Sp7021.setupClk clkRate hz conf) conf) := by
    induction speeds generalizing conf with
    | nil => exact h
    | cons hz speeds ih => exact ih _ (h.setupClk clkRate hz)
  exact hfold _ (ConfOf.prepareMessage mode)

/-- The bits below the clock are those of the mode. -/
theorem ConfOf.and_low {mode : SpiMode} {conf : UInt32} (h : ConfOf mode conf) {m : UInt32}
    (hm : ~~~clkMask &&& m = m) : conf &&& m = Sp7021.prepareMessage mode &&& m := by
  rw [← h, UInt32.and_assoc, hm]

theorem ConfOf.cpolFd_iff {mode : SpiMode} {conf : UInt32} (h : ConfOf mode conf) :
    conf &&& cpolFd ≠ 0 ↔ mode.cpol = true := by
  rw [h.and_low (by decide)]
  rcases mode with ⟨cpol, cpha, csHigh, lsbFirst⟩
  cases cpol <;> cases cpha <;> cases csHigh <;> cases lsbFirst <;> decide

theorem ConfOf.cleanFlugMask {mode : SpiMode} {conf : UInt32} (h : ConfOf mode conf) :
    conf &&& cleanFlugMask = 0 := by
  rw [h.and_low (by decide)]
  rcases mode with ⟨cpol, cpha, csHigh, lsbFirst⟩
  cases cpol <;> cases cpha <;> cases csHigh <;> cases lsbFirst <;> decide

namespace SpiMaster

/-- What a round of the loop leaves in the register. -/
def Left (mode : SpiMode) (s : SpiMaster) : Prop :=
  if mode.cpol then s.ctrl.config = s.drv.xferConf
  else s.ctrl.config = startConfig s.drv.xferConf ∨
    s.ctrl.config = startConfig s.drv.xferConf &&& cleanFlugMask

/-- The configuration register at each place of the transfer. -/
def ConfigAt (mode : SpiMode) (s : SpiMaster) : Prop :=
  match s.pc with
  | .loop 0 | .setupClk _ => True
  | .loop (_ + 1) => Left mode s
  | .reinit _ | .bufs _ | .preload _ _ | .config _ => s.ctrl.config = s.drv.xferConf
  | .start _ | .wait _ | .readBack _ => s.ctrl.config = startConfig s.drv.xferConf
  | .cpol _ => s.ctrl.config = startConfig s.drv.xferConf ∨
      s.ctrl.config = startConfig s.drv.xferConf &&& Sp7021.cleanFlugMask
  | .returned ret => ret = 0 → Left mode s

structure ConfigInv (mode : SpiMode) (s : SpiMaster) : Prop where
  conf : ConfOf mode s.drv.xferConf
  at_pc : ConfigAt mode s

variable {mode : SpiMode} {spurious : Bool} {s t : SpiMaster} {e : SpiEvent}

/-- A step that leaves the place in the transfer and both configurations alone. -/
theorem ConfigInv.frame (h : ConfigInv mode s) (hpc : t.pc = s.pc)
    (hconf : t.drv.xferConf = s.drv.xferConf) (hreg : t.ctrl.config = s.ctrl.config) :
    ConfigInv mode t := by
  obtain ⟨hmode, hat⟩ := h
  refine ⟨hconf ▸ hmode, ?_⟩
  simp only [ConfigAt, Left, hpc, hconf, hreg] at hat ⊢
  exact hat

theorem ConfigInv.isrNext (h : ConfigInv mode s) (hst : s.isrNext = some t) :
    ConfigInv mode t := by
  have hrb : s.rb.ctrl.config = s.ctrl.config := by
    simp only [SpiMaster.rb, SpiCtrl.readFifo]
    cases s.ctrl.rxFifo <;> rfl
  have hwb : s.wb.ctrl.config = s.ctrl.config := by
    simp only [SpiMaster.wb, SpiCtrl.writeFifo]
    split_ifs <;> rfl
  unfold SpiMaster.isrNext at hst
  split at hst <;> try split_ifs at hst
  all_goals cases hst
  all_goals
    first
    | exact h.frame rfl rfl rfl
    | exact h.frame rfl rfl hrb
    | exact h.frame rfl rfl hwb

theorem ConfigInv.xferNext (h : ConfigInv mode s) (hst : s.xferNext = some t) :
    ConfigInv mode t := by
  obtain ⟨hmode, hat⟩ := h
  rcases s with ⟨xfer, clkRate, drv, ctrl, pc, irq, mosi, miso, reads, stores, completions⟩
  have hcpol := hmode.cpolFd_iff
  simp only at hcpol
  cases pc with
  | loop i =>
    simp only [SpiMaster.xferNext] at hst
    split_ifs at hst with hle <;> cases hst
    · exact ⟨hmode, trivial⟩
    · cases i with
      | zero => exact absurd (Nat.zero_le _) hle
      | succ i => exact ⟨hmode, fun _ => hat⟩
  | setupClk i =>
    cases hst
    exact ⟨hmode.setupClk _ _, rfl⟩
  | reinit i | bufs i =>
    cases hst
    exact ⟨hmode, hat⟩
  | preload i n =>
    cases n with
    | zero =>
      cases hst
      exact ⟨hmode, hat⟩
    | succ n =>
      cases hst
      refine ⟨hmode, ?_⟩
      simp only [SpiMaster.wb, SpiCtrl.writeFifo]
      split_ifs <;> exact hat
  | config i =>
    cases hst
    exact ⟨hmode, congrArg startConfig hat⟩
  | start i =>
    cases hst
    exact ⟨hmode, hat⟩
  | wait i =>
    simp only [SpiMaster.xferNext] at hst
    split_ifs at hst
    cases hst
    exact ⟨hmode, hat⟩
  | readBack i =>
    simp only [SpiMaster.xferNext] at hst
    split_ifs at hst <;> cases hst
    · exact ⟨hmode, Or.inr (congrArg (· &&& cleanFlugMask) hat)⟩
    · exact ⟨hmode, Or.inl hat⟩
  | cpol i =>
    simp only [SpiMaster.xferNext, hcpol] at hst
    split_ifs at hst with hyes <;> cases hst
    · refine ⟨hmode, ?_⟩
      simp only [ConfigAt, Left, if_pos hyes]
    · refine ⟨hmode, ?_⟩
      simp only [ConfigAt, Left, if_neg hyes]
      exact hat
  | returned ret => cases hst

theorem ConfigInv.giveUp (h : ConfigInv mode s) {next : ℕ → XferPc}
    (hnext : ∀ i, next i = .readBack i ∨ next i = .returned (-etimedout))
    (hst : s.giveUp next = some t) : ConfigInv mode t := by
  obtain ⟨hmode, hat⟩ := h
  unfold SpiMaster.giveUp at hst
  split at hst
  · rename_i i hpc
    split_ifs at hst
    cases hst
    simp only [ConfigAt, hpc] at hat
    refine ⟨hmode, ?_⟩
    rcases hnext i with heq | heq <;> simp only [ConfigAt, heq]
    · exact hat
    · exact fun h0 => absurd h0 (by decide)
  · cases hst

theorem configInv_step (h : ConfigInv mode s) (hst : SpiMaster.step spurious s e = some t) :
    ConfigInv mode t := by
  cases e with
  | shift b =>
    simp only [SpiMaster.step, SpiMaster.shift] at hst
    split at hst
    · cases hst
    · split_ifs at hst
      cases hst
      exact h.frame rfl rfl rfl
  | irq =>
    simp only [SpiMaster.step] at hst
    split at hst
    · split_ifs at hst
      cases hst
      rcases irqEntry_cases s with heq | ⟨rxCnt, txCnt, heq⟩ <;> rw [heq]
      · exact h
      · exact h.frame rfl rfl rfl
    · cases hst
  | isr => exact h.isrNext hst
  | xfer => exact h.xferNext hst
  | timeout => exact h.giveUp (fun _ => Or.inr rfl) hst
  | signal => exact h.giveUp (fun _ => Or.inl rfl) hst

/-- Without CPOL the register is not restored, and keeps the interrupts enabled. -/
theorem ConfigInv.configOk_iff (h : ConfigInv mode s) (hover : RoundOver s) :
    ConfigOk s ↔ mode.cpol = true := by
  have hleft : Left mode s := by
    have hat := h.at_pc
    rcases hover with ⟨i, hpc⟩ | hpc <;> simp only [ConfigAt, hpc] at hat
    · exact hat
    · exact hat trivial
  unfold Left at hleft
  split_ifs at hleft with hcpol
  · refine ⟨fun _ => hcpol, fun _ => ⟨?_, ?_⟩⟩
    · rw [hleft]
    · rw [hleft]
      exact h.conf.cleanFlugMask
  · refine ⟨fun hok => absurd hok.2 ?_, fun hyes => absurd hyes hcpol⟩
    intro hzero
    have htx : s.ctrl.config &&& txEmpFlagMask ≠ 0 := by
      rcases hleft with heq | heq <;> rw [heq]
      · exact startConfig_txEmp _
      · rw [UInt32.and_assoc]
        exact startConfig_txEmp _
    apply htx
    have hmask : txEmpFlagMask = cleanFlugMask &&& txEmpFlagMask := by decide
    rw [hmask, ← UInt32.and_assoc, hzero, UInt32.zero_and]

theorem configInv_init (mode : SpiMode) (xfer : SpiTransfer) (clkRate : UInt32) (drv : SpiDriver)
    (speeds : List UInt32) (config : UInt32) :
    ConfigInv mode (SpiMaster.init xfer clkRate (drv.prepared mode clkRate speeds) config) :=
  ⟨ConfOf.prepared drv clkRate speeds, trivial⟩

end SpiMaster

/-- Whenever a round is over, and when the call returns 0, the configuration register agrees with
`xfer_conf` and has its interrupts disabled if and only if the device's mode has CPOL. -/
theorem transferOne_config_iff (spurious : Bool) (mode : SpiMode) (speeds : List UInt32)
    (xfer : SpiTransfer) (clkRate : UInt32) (drv : SpiDriver) (config : UInt32)
    {es : List SpiEvent} {s : SpiMaster}
    (hrun : (master spurious xfer clkRate (drv.prepared mode clkRate speeds) config).runFrom
      (SpiMaster.init xfer clkRate (drv.prepared mode clkRate speeds) config) es = some s)
    (hover : s.RoundOver) : s.ConfigOk ↔ mode.cpol = true := by
  have hinv : SpiMaster.ConfigInv mode s :=
    Sys.Invariant.run (S := master spurious xfer clkRate (drv.prepared mode clkRate speeds) config)
      (fun h hst => SpiMaster.configInv_step h hst)
      (SpiMaster.configInv_init mode xfer clkRate drv speeds config) hrun
  exact hinv.configOk_iff hover

/-- A transfer of one byte in the given mode, up to its return. -/
def returnOne (mode : SpiMode) (speeds : List UInt32) (es : List SpiEvent) : Option SpiMaster :=
  (master false transfer1 202500000
    (SpiDriver.prepared ⟨0, 0, 0, 0, 0, 0, 0⟩ mode 202500000 speeds) 0).runFrom
    (SpiMaster.init transfer1 202500000
      (SpiDriver.prepared ⟨0, 0, 0, 0, 0, 0, 0⟩ mode 202500000 speeds) 0) (startOne ++ es)

theorem transferOne_config_iff_one :
    ∃ s, returnOne ⟨true, true, false, true⟩ [50000000] (completeOne ++ List.replicate 4 .xfer) =
      some s ∧ s.pc = .returned 0 ∧ s.ConfigOk := by
  have hrun : ∃ s ∈ returnOne ⟨true, true, false, true⟩ [50000000]
      (completeOne ++ List.replicate 4 .xfer), s.pc = .returned 0 := by decide +kernel
  obtain ⟨s, hs, hpc⟩ := hrun
  refine ⟨s, hs, hpc, ?_⟩
  exact (transferOne_config_iff false ⟨true, true, false, true⟩ [50000000] transfer1 202500000
    ⟨0, 0, 0, 0, 0, 0, 0⟩ 0 hs (Or.inr hpc)).mpr rfl

/-- Without CPOL: the interrupts stay enabled when the handler has cleared the flag, and nothing
but them is left in the register when the flag is still set. -/
theorem transferOne_config_lost :
    (∃ s ∈ returnOne ⟨false, false, false, false⟩ [] (completeOne ++ List.replicate 4 .xfer),
      s.pc = .returned 0 ∧ s.drv.xferConf = 0x640044 ∧ s.ctrl.config = 0x64c844) ∧
    ∃ s ∈ returnOne ⟨false, false, false, false⟩ [] ([.shift 7, .signal] ++ List.replicate 3 .xfer),
      s.pc = .returned 0 ∧ s.drv.xferConf = 0x640044 ∧ s.ctrl.config = 0xc800 := by
  decide +kernel

end YoctoLayers.Sp7021
