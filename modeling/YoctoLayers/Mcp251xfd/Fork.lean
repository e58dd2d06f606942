import YoctoLayers.Mcp251xfd.Keeps
import YoctoLayers.Mcp251xfd.Probe

/-! The modified driver against `mcp251xfd.orig` on a device tree node without the properties
`dv_iocon`, `dv_oscva`, `dv_nober` and `dv_noslp`. -/
namespace YoctoLayers.Mcp251xfd
open YoctoLayers.Lib

variable {σ : Type}

namespace Fork

/-- The properties of the device tree node. -/
structure DtNode where
  iocon : Option UInt32
  oscva : Option UInt32
  nober : Bool
  noslp : Bool
deriving DecidableEq, Repr

/-- A node with none of the properties. -/
def DtNode.bare : DtNode := ⟨none, none, false, false⟩

/-- What `mcp251xfd_probe` stores, `dviocon` and `dvoscva` being what is in its locals at first:
`of_property_read_u32` leaves them alone when the property is absent. -/
def readDv (np : DtNode) (dviocon dvoscva : UInt32) : Dv where
  iocon := np.iocon.getD dviocon
  oscva := np.oscva.getD dvoscva
  nober := np.nober
  noslp := np.noslp

/-- The locals happen to hold the value for an absent property or the value that would be
written anyway. -/
structure Harmless (board : Board) (dviocon dvoscva : UInt32) : Prop where
  oscva : dvoscva = dvUnset ∨ dvoscva = oscLowPower
  iocon : board.rxInt = false ∨ dviocon = dvUnset ∨ dviocon = ioconRxInt

end Fork

/-- The controller answers register reads without corruption, OSC excepted, and the read of
IOCON for the log has no side effect. -/
structure Env.CleanReads (env : Env σ) : Prop where
  crc : ∀ reg len s, reg ≠ regOsc → (env.readCrc reg len s).1.1 = 0 →
    (env.readCrc reg len s).1.2.2 =
      crc16Compute2 (spiCmdReadCrc reg len) (env.readCrc reg len s).1.2.1
  transfer : ∀ reg len s, (env.readCrc reg len s).1.1 ≠ -ebadmsg
  iocon : ∀ s, (env.readCrc regIocon 4 s).2 = s ∧ (env.read regIocon 4 s).2 = s

theorem Env.keeps_origCrcRead {env : Env σ} {I : World σ → Prop} {reg : UInt16} {len : ℕ}
    (h : ∀ w, I w → I { w with env := (env.readCrc reg len w.env).2 }) :
    Keeps I (Orig.regmapCrcRead env reg len) := by
  refine (Env.keeps_crcReadTries h _).bind fun r => ?_
  cases r with
  | none => exact Keeps.throw _
  | some data => exact Keeps.pure data

namespace Env.CleanReads
variable {env : Env σ}

theorem crcReadOne (h : env.CleanReads) (reg : UInt16) (len : ℕ) :
    Ensures (fun _ => True) (env.regmapCrcReadOne reg len)
      (fun r _ => r.1 = -ebadmsg → reg = regOsc) (fun _ _ => True) := by
  refine Ensures.bind (Q := fun r _ => r.1 ≠ -ebadmsg ∧ (reg ≠ regOsc → r.1 = 0 →
    r.2.2 = crc16Compute2 (spiCmdReadCrc reg len) r.2.1)) ?_ fun r => ?_
  · exact DrvM.ensures_access _ fun w _ =>
      ⟨h.transfer reg len w.env, h.crc reg len w.env⟩
  · refine Ensures.ite (fun _ => Ensures.pure fun _ hr he => absurd he hr.1) fun herr => ?_
    refine Ensures.ite (fun hcrc => Ensures.pure fun _ hr _ => ?_) fun _ =>
      Ensures.pure fun _ _ he => absurd he (by decide : (0 : ℤ) ≠ -ebadmsg)
    by_contra hosc
    exact hcrc (hr.2 hosc (not_not.mp herr))

/-- The first try succeeds or fails for good. -/
theorem crcReadTries (h : env.CleanReads) (reg : UInt16) (len tries : ℕ) :
    Ensures (fun _ => True) (env.regmapCrcReadTries reg len (tries + 1))
      (fun r _ => r.isSome) (fun _ _ => True) := by
  refine (h.crcReadOne reg len).bind fun r => ?_
  refine Ensures.ite (fun _ => Ensures.pure fun _ _ => rfl) fun _ => ?_
  refine Ensures.ite (fun _ => Ensures.throw fun _ _ => trivial) fun hbad => ?_
  refine Ensures.ite (fun _ => Ensures.pure fun _ _ => rfl) fun hosc => ?_
  exact Ensures.of_false fun _ hr => hosc (hr (not_not.mp hbad))

theorem bus_eq (h : env.CleanReads) : Fork.bus env = Orig.bus env := by
  unfold Fork.bus Orig.bus
  congr 1
  funext reg len w
  have hsome := ensures_iff.mp (h.crcReadTries reg len 2) w trivial
  unfold Fork.regmapCrcRead Orig.regmapCrcRead Env.regmapCrcReread
  simp only [readCrcRetriesMax, bind, EStateM.bind]
  cases htries : env.regmapCrcReadTries reg len 3 w with
  | error err w' => rfl
  | ok data w' =>
    rw [htries] at hsome
    obtain ⟨data, rfl⟩ := Option.isSome_iff_exists.mp hsome
    rfl

/-- The read of IOCON changes nothing. -/
theorem ignoreErr_regmapRead_iocon (h : env.CleanReads) :
    DrvM.ignoreErr ((Orig.bus env).regmapRead regIocon) = pure () := by
  funext w
  have hcrc : Keeps (· = w) ((Orig.bus env).crcRead regIocon 4) := by
    refine Env.keeps_origCrcRead fun v hv => ?_
    rw [(h.iocon v.env).1]
    exact hv
  have hread : Keeps (· = w) ((Orig.bus env).regmapRead regIocon) := by
    refine Bus.keeps_regmapRead (fun v hv => ?_) hcrc
    change { v with env := (env.read regIocon 4 v.env).2 } = w
    rw [(h.iocon v.env).2]
    exact hv
  have hsame := ensures_iff.mp (DrvM.ensures_ignoreErr hread) w rfl
  cases hr : DrvM.ignoreErr ((Orig.bus env).regmapRead regIocon) w with
  | ok u w' =>
    rw [hr] at hsame
    rw [hsame]
    rfl
  | error err w' =>
    rw [hr] at hsame
    exact hsame.elim

theorem chipRxIntEnable_eq (h : env.CleanReads) {dv : Fork.Dv}
    (hio : env.board.rxInt = false ∨ dv.iocon = Fork.dvUnset ∨ dv.iocon = ioconRxInt) :
    Fork.chipRxIntEnable (Orig.bus env) dv = Orig.chipRxIntEnable (Orig.bus env) := by
  unfold Fork.chipRxIntEnable Orig.chipRxIntEnable
  rw [h.ignoreErr_regmapRead_iocon]
  simp only [pure_bind]
  rcases hio with hrx | hval
  · have hnull : (Orig.bus env).rxInt = DrvM.priv >>= fun _ => pure false := by
      simp only [Bus.rxInt, Orig.bus, hrx, Bool.false_and]
    rw [hnull]
    simp only [bind_assoc, pure_bind, Bool.not_false, if_true]
  · have hiocon : (if dv.iocon ≠ Fork.dvUnset then dv.iocon else ioconRxInt) = ioconRxInt := by
      rcases hval with hval | hval
      · exact if_neg (not_not.mpr hval)
      · rw [hval, ite_id]
    rw [hiocon]

theorem chipClockInit_eq {dv : Fork.Dv} (hosc : dv.oscva = Fork.dvUnset ∨ dv.oscva = oscLowPower) :
    Fork.chipClockInit (Orig.bus env) dv = Orig.chipClockInit (Orig.bus env) := by
  have hval : (if dv.oscva ≠ Fork.dvUnset then dv.oscva else oscLowPower) = oscLowPower := by
    rcases hosc with hval | hval
    · exact if_neg (not_not.mpr hval)
    · rw [hval, ite_id]
  rw [Fork.chipClockInit, Orig.chipClockInit, hval]

theorem chipSetMode_eq {dv : Fork.Dv} (hslp : dv.noslp = false) :
    Fork.chipSetMode' (Orig.bus env) dv = Orig.chipSetMode' (Orig.bus env) := by
  funext modeReq nowait
  simp only [Fork.chipSetMode', Orig.chipSetMode', hslp, Bool.false_eq_true, false_and, if_false]

theorem getBerrCounter_eq {dv : Fork.Dv} (hber : dv.nober = false) :
    Fork.getBerrCounter' (Orig.bus env) dv = Orig.getBerrCounter' (Orig.bus env) := by
  funext bec
  simp only [Fork.getBerrCounter', Orig.getBerrCounter', hber, Bool.false_eq_true, if_false]

/-- Where the locals of `mcp251xfd_probe` are harmless, the drivers are the same. -/
theorem driver_eq (h : env.CleanReads) (hfreq : Orig.freqOk env.board.freq = true)
    {dviocon dvoscva : UInt32} (hl : Fork.Harmless env.board dviocon dvoscva) :
    Fork.driver env (Fork.readDv .bare dviocon dvoscva) = Orig.driver env := by
  have hmode := @chipSetMode_eq _ env (Fork.readDv .bare dviocon dvoscva) rfl
  have hclock := @chipClockInit_eq _ env (Fork.readDv .bare dviocon dvoscva) hl.oscva
  have hrx := @chipRxIntEnable_eq _ env h (Fork.readDv .bare dviocon dvoscva) hl.iocon
  have hberr := @getBerrCounter_eq _ env (Fork.readDv .bare dviocon dvoscva) rfl
  rw [Fork.driver, Orig.driver, h.bus_eq, hmode, hclock, hrx, hberr, hfreq]

end Env.CleanReads

/-- The modified driver issues the same register writes and returns the same codes as
`mcp251xfd.orig`, as long as the locals of `mcp251xfd_probe` are harmless. -/
theorem fork_run_eq_orig {env : Env σ} (hclean : env.CleanReads)
    (hfreq : Orig.freqOk env.board.freq = true) {dviocon dvoscva : UInt32}
    (hl : Fork.Harmless env.board dviocon dvoscva) (calls : List DriverCall) (w : World σ) :
    let fork := (Fork.driver env (Fork.readDv .bare dviocon dvoscva)).run calls w
    let orig := (Orig.driver env).run calls w
    fork.1 = orig.1 ∧ fork.2.writes = orig.2.writes := by
  rw [hclean.driver_eq hfreq hl]
  exact ⟨rfl, rfl⟩

namespace Bench

/-- A node with a 20 MHz oscillator and no RX interrupt line. -/
def board : Board where
  irq := true
  rxInt := false
  freq := 20000000
  devtypeData := devtypeDataMcp251xfd
  halfDuplex := false
  sanity := false
  dlc := kernelDlc

/-- What a controller in `mode` answers: its mode, a ready oscillator, and no interrupt. -/
def regBytes (mode : UInt8) (reg : UInt16) (len : ℕ) : List UInt8 :=
  if reg = regCon then le32 (conOpmod.prep mode.toUInt32)
  else if reg = regOsc then le32 (oscOscrdy ||| oscClkodiv.prep oscClkodiv10)
  else List.replicate len 0

/-- A controller that enters each mode at once, and a kernel where every call succeeds. -/
def env : Env UInt8 where
  board := board
  read reg len mode := ((0, regBytes mode reg len), mode)
  readCrc reg len mode :=
    let data := regBytes mode reg len
    ((0, data, crc16Compute2 (spiCmdReadCrc reg len) data), mode)
  write reg data mode := (0, if reg = regCon then data.getD 3 0 &&& 7 else mode)
  reset _ := (0, modeConfig)
  polls _ mode := (0, mode)
  rxPending mode := (false, mode)
  call _ mode := (0, mode)

theorem cleanReads : env.CleanReads where
  crc _ _ _ _ _ := rfl
  transfer _ _ _ := (by decide : (0 : ℤ) ≠ -ebadmsg)
  iocon _ := ⟨rfl, rfl⟩

def world : World UInt8 where
  env := modeSleep
  priv := Priv.alloc
  maxSpeedHz := 10000000
  writes := []

/-- 500 kbit/s at 20 MHz. -/
def bittiming : CanBittiming := ⟨1, 14, 15, 10, 5⟩

def calls : List DriverCall := [.probe, .changelink 0 bittiming bittiming, .open]

end Bench

theorem fork_run_eq_orig_bench :
    let fork := (Fork.driver Bench.env (Fork.readDv .bare Fork.dvUnset oscLowPower)).run
      Bench.calls Bench.world
    let orig := (Orig.driver Bench.env).run Bench.calls Bench.world
    fork.1 = orig.1 ∧ fork.2.writes = orig.2.writes :=
  fork_run_eq_orig Bench.cleanReads (by decide) ⟨Or.inr rfl, Or.inl rfl⟩ Bench.calls Bench.world

/-- With zeros on the stack the modified driver writes zero to OSC when the interface is
opened. -/
theorem fork_run_clears_osc :
    Bench.env.CleanReads ∧ Orig.freqOk Bench.env.board.freq = true ∧
      ((Fork.driver Bench.env (Fork.readDv .bare 0 0)).run
        Bench.calls Bench.world).2.writes[6]? = some (regOsc, [0, 0, 0, 0]) ∧
      ((Orig.driver Bench.env).run Bench.calls Bench.world).2.writes[6]? =
        some (regOsc, [0x68, 0, 0, 0]) :=
  ⟨Bench.cleanReads, by decide, by decide +kernel, by decide +kernel⟩

end YoctoLayers.Mcp251xfd
