import YoctoLayers.Lib.Errno
import YoctoLayers.Lib.System
import Mathlib.Algebra.Order.Group.Multiset

/-! The SPI controller from `sp7021_spi_controller_probe` to the end of its removal, with power
management and system sleep: what the driver takes from the kernel, call by call. -/
namespace YoctoLayers.Sp7021
open YoctoLayers.Lib

inductive SpiResource
  /-- The controller of `spi_alloc_master` or `spi_alloc_slave`, with the private data in it. -/
  | ctlr
  | mBase
  | sBase
  | spiClk
  | rstc
  /-- One `clk_prepare_enable`. -/
  | clkEnabled
  | mIrq
  | sIrq
  | pmEnabled
  | registered
deriving DecidableEq, Repr

/-- What is to be undone when the driver leaves the device. -/
inductive Devres
  | giveBack (r : SpiResource)
  | assertReset
deriving DecidableEq, Repr

/-- `sp7021_spi_disable_unprepare` of `spi_clk`. -/
def spiDisableUnprepare : Devres := .giveBack .clkEnabled

/-- `sp7021_spi_reset_control_assert` of `rstc`. -/
def spiResetControlAssert : Devres := .assertReset

/-- The next call in `sp7021_spi_controller_probe`. -/
inductive ProbePc
  | alloc
  | ioremapMaster
  | ioremapSlave
  | getMasterIrq
  | getSlaveIrq
  | clkGet
  | resetGet
  | clkEnable
  | addDisable
  | deassert
  | addAssert
  | requestMasterIrq
  | requestSlaveIrq
  | pmEnable
  | register
  /-- Registering has failed with `ret`. -/
  | pmDisable (ret : ℤ)
deriving DecidableEq, Repr

inductive LifePc
  /-- Not bound; `ret` is what the driver last returned. -/
  | unbound (ret : ℤ)
  | probe (pc : ProbePc)
  | bound
  /-- In `sp7021_spi_controller_remove`, at the next call. -/
  | unregister
  | pmDisable
  | setSuspended
  /-- The driver core releases what devres holds. -/
  | release (ret : ℤ)
deriving DecidableEq, Repr

/-- Which of its registers the device tree gives to the controller. -/
structure SpiNode where
  spiMaster : Bool
  spiSlave : Bool

structure SpiDevice where
  pc : LifePc
  held : Multiset SpiResource
  devres : List Devres
  /-- The reset line is asserted. -/
  reset : Bool
  /-- The runtime status is `RPM_ACTIVE`. -/
  active : Bool
  /-- The SPI core has a message transferred. -/
  busy : Bool
  /-- Between `sp7021_spi_controller_suspend` and `sp7021_spi_controller_resume`. -/
  asleep : Bool

/-- What happens, with the results of the calls. -/
inductive SpiLifeEvent
  /-- The driver core calls `sp7021_spi_controller_probe`. -/
  | bind
  /-- Its next call returns `ret`, for a pointer the error in it. -/
  | probe (ret : ℤ)
  /-- The driver core calls `sp7021_spi_controller_remove`. -/
  | unbind
  /-- Its next call. -/
  | remove
  /-- The next entry of devres; `ret` is the result of `reset_control_assert` if it is called. -/
  | release (ret : ℤ)
  | message
  | messageDone
  /-- `sp7021_spi_runtime_suspend`. -/
  | runtimeSuspend (ret : ℤ)
  | runtimeResume (ret : ℤ)
  /-- `sp7021_spi_controller_suspend`. -/
  | suspend (ret : ℤ)
  /-- `sp7021_spi_controller_resume`, with the results of its two calls. -/
  | resume (deassert enable : ℤ)
deriving DecidableEq, Repr

namespace SpiDevice

def take (s : SpiDevice) (r : SpiResource) : SpiDevice := { s with held := r ::ₘ s.held }

def giveBack (s : SpiDevice) (r : SpiResource) : SpiDevice := { s with held := s.held.erase r }

def next (s : SpiDevice) (pc : ProbePc) : SpiDevice := { s with pc := .probe pc }

/-- `sp7021_spi_controller_probe` returns `ret`, which is an error. -/
def fail (s : SpiDevice) (ret : ℤ) : SpiDevice := { s with pc := .release ret }

/-- A call with a name in `devm_`, which gives `r` back by itself. -/
def devm (s : SpiDevice) (ret : ℤ) (r : SpiResource) (pc : ProbePc) : SpiDevice :=
  if ret ≠ 0 then s.fail ret else { (s.take r).next pc with devres := .giveBack r :: s.devres }

/-- `devm_add_action_or_reset`: where it fails, the action is the first to be done. -/
def devmAddActionOrReset (s : SpiDevice) (ret : ℤ) (action : Devres) (pc : ProbePc) : SpiDevice :=
  let s := { s with devres := action :: s.devres }
  if ret ≠ 0 then s.fail ret else s.next pc

/-- One call of `sp7021_spi_controller_probe`, which returns `ret`. -/
def probeNext (node : SpiNode) (s : SpiDevice) (ret : ℤ) : ProbePc → SpiDevice
  | .alloc => if ret ≠ 0 then s.fail (-enomem) else (s.take .ctlr).next .ioremapMaster
  | .ioremapMaster =>
    if node.spiMaster then s.devm ret .mBase .ioremapSlave else s.next .ioremapSlave
  | .ioremapSlave =>
    if node.spiSlave then s.devm ret .sBase .getMasterIrq else s.next .getMasterIrq
  | .getMasterIrq => if ret < 0 then s.fail ret else s.next .getSlaveIrq
  | .getSlaveIrq => if ret < 0 then s.fail ret else s.next .clkGet
  | .clkGet => s.devm ret .spiClk .resetGet
  | .resetGet => s.devm ret .rstc .clkEnable
  | .clkEnable => if ret ≠ 0 then s.fail ret else (s.take .clkEnabled).next .addDisable
  | .addDisable => s.devmAddActionOrReset ret spiDisableUnprepare .deassert
  | .deassert => if ret ≠ 0 then s.fail ret else { s.next .addAssert with reset := false }
  | .addAssert => s.devmAddActionOrReset ret spiResetControlAssert .requestMasterIrq
  | .requestMasterIrq => s.devm ret .mIrq .requestSlaveIrq
  | .requestSlaveIrq => s.devm ret .sIrq .pmEnable
  | .pmEnable => (s.take .pmEnabled).next .register
  | .register =>
    if ret ≠ 0 then s.next (.pmDisable ret) else { s.take .registered with pc := .bound }
  | .pmDisable ret => (s.giveBack .pmEnabled).fail ret

/-- One entry of devres is released. -/
def undo (s : SpiDevice) (ret : ℤ) : Devres → SpiDevice
  | .giveBack r => s.giveBack r
  | .assertReset => if ret = 0 then { s with reset := true } else s

/-- Devices on the bus may have messages transferred. -/
def visible (s : SpiDevice) : Bool :=
  match s.pc with
  | .probe .register | .bound | .unregister => true
  | _ => false

def step (node : SpiNode) (s : SpiDevice) : SpiLifeEvent → Option SpiDevice
  | .bind =>
    match s.pc with
    | .unbound _ => some (s.next .alloc)
    | _ => none
  | .probe ret =>
    match s.pc with
    | .probe pc =>
      -- what fails to register has no messages left
      if ret ≤ 0 ∧ (ret = 0 ∨ s.busy = false) then some (s.probeNext node ret pc) else none
    | _ => none
  | .unbind =>
    match s.pc with
    | .bound => if s.asleep then none else some { s with pc := .unregister }
    | _ => none
  | .remove =>
    match s.pc with
    | .unregister =>
      -- the last reference to the controller goes with its registration
      if s.busy then none
      else some { (s.giveBack .registered).giveBack .ctlr with pc := .pmDisable }
    | .pmDisable => some { s.giveBack .pmEnabled with pc := .setSuspended }
    | .setSuspended => some { s with active := false, pc := .release 0 }
    | _ => none
  | .release ret =>
    match s.pc with
    | .release err =>
      match s.devres with
      | [] => some { s with active := false, pc := .unbound err }
      | d :: rest => some ({ s with devres := rest }.undo ret d)
    | _ => none
  | .message =>
    if s.visible && s.active && !s.busy then some { s with busy := true } else none
  | .messageDone => if s.busy then some { s with busy := false } else none
  | .runtimeSuspend ret =>
    if .pmEnabled ∈ s.held ∧ s.active ∧ ¬ s.busy then
      some (if ret = 0 then { s with reset := true, active := false } else s)
    else none
  | .runtimeResume ret =>
    if .pmEnabled ∈ s.held ∧ ¬ s.active then
      some (if ret = 0 then { s with reset := false, active := true } else s)
    else none
  | .suspend ret =>
    if s.pc = .bound ∧ ¬ s.asleep then
      some (if ret = 0 then { s with reset := true, asleep := true } else s)
    else none
  | .resume deassert enable =>
    if s.asleep then
      let s := if deassert = 0 then { s with reset := false } else s
      some { (if enable = 0 then s.take .clkEnabled else s) with asleep := false }
    else none

/-- Nothing is bound, and the line is as the boot has left it. -/
def init (reset : Bool) : SpiDevice := ⟨.unbound 0, 0, [], reset, false, false, false⟩

end SpiDevice

end YoctoLayers.Sp7021
