import YoctoLayers.Lib.Errno
import YoctoLayers.Lib.System
import Mathlib.Logic.Function.Basic

/-! The SPI slave: `sp7021_spi_slave_transfer_one` step by step, with both interrupt handlers,
`sp7021_spi_slave_abort` and signals. -/
namespace YoctoLayers.Sp7021
open YoctoLayers.Lib

def dataRdyReg : ℕ := 0x44
def slaveDmaCtrlReg : ℕ := 0x48
def slaveDmaLengthReg : ℕ := 0x4c
def slaveDmaAddrReg : ℕ := 0x4c

def slaveDataRdy : UInt32 := 0x1
def slaveSwRst : UInt32 := 0x2
def slaveClrInt : UInt32 := 0x100
def slaveDmaEn : UInt32 := 0x1
def slaveDmaRw : UInt32 := 0x40
def slaveDmaCmd : UInt32 := 0xc

/-- `struct spi_transfer`: which of its buffers are given, and their length. -/
structure SlaveTransfer where
  txBuf : Bool
  rxBuf : Bool
  len : UInt32

/-- The transfer is only sent or only received. -/
def SlaveTransfer.OneWay (xfer : SlaveTransfer) : Prop := xfer.txBuf ≠ xfer.rxBuf

instance (xfer : SlaveTransfer) : Decidable xfer.OneWay := inferInstanceAs (Decidable (_ ≠ _))

/-- Where `sp7021_spi_slave_transfer_one` is, in `sp7021_spi_slave_tx` or `sp7021_spi_slave_rx`
from `reinit` on. -/
inductive SlavePc
  | entry
  | reinit
  | ctrl
  | length
  | addr
  | readRdy
  | writeRdy (value : UInt32)
  | wait
  | swRst
  | unmap (ret : ℤ)
  | finalize (ret : ℤ)
  | returned (ret : ℤ)
deriving DecidableEq

structure SpiSlave where
  xfer : SlaveTransfer
  /-- The registers at `s_base`. -/
  regs : ℕ → UInt32
  slaveIsr : ℕ
  isrDone : ℕ
  /-- `xfer->tx_dma` or `xfer->rx_dma`. -/
  dma : UInt64
  /-- What is mapped for DMA, and its length. -/
  mapping : Option (UInt64 × UInt32)
  pc : SlavePc
  /-- The calls of `spi_finalize_current_transfer`. -/
  finalized : ℕ
  /-- A slave interrupt has come while the call waited. -/
  arrived : Bool
  /-- `sp7021_spi_slave_abort` was called before the call's return. -/
  aborted : Bool
  /-- A signal has ended the wait. -/
  signalled : Bool

inductive SlaveEvent
  /-- `dma_map_single` maps the buffer, or fails. -/
  | map (dma : Option UInt64)
  /-- The next step of `sp7021_spi_slave_transfer_one`. -/
  | xfer
  | slaveIrq
  /-- `sp7021_spi_master_irq` runs, with its `isrdone` at the end. -/
  | masterIrq (isrdone : Bool)
  | abort
  | signal
deriving DecidableEq

namespace SpiSlave

def writel (s : SpiSlave) (value : UInt32) (reg : ℕ) : SpiSlave :=
  { s with regs := Function.update s.regs reg value }

/-- `dma_unmap_single` of the address and the length of the transfer. -/
def dmaUnmap (s : SpiSlave) : SpiSlave :=
  if s.mapping = some (s.dma, s.xfer.len) then { s with mapping := none } else s

/-- `dma_map_single` and the check of its result. -/
def map (s : SpiSlave) (dma : Option UInt64) : Option SpiSlave :=
  if s.pc = .entry ∧ s.xfer.OneWay then
    match dma with
    | none => some { s with pc := .returned (-enomem) }
    | some dma => some { s with dma := dma, mapping := some (dma, s.xfer.len), pc := .reinit }
  else none

/-- A sent buffer is announced by `SP7021_SLAVE_DATA_RDY`, a received one ends in a reset; sending
reinitialises `slave_isr`, receiving `isr_done`. -/
def xferNext (s : SpiSlave) : Option SpiSlave :=
  match s.pc with
  | .entry => if s.xfer.OneWay then none else some { s with pc := .returned (-einval) }
  | .reinit =>
    if s.xfer.txBuf then some { s with slaveIsr := 0, pc := .ctrl }
    else some { s with isrDone := 0, pc := .ctrl }
  | .ctrl =>
    let value := if s.xfer.txBuf then slaveDmaEn ||| slaveDmaRw ||| slaveDmaCmd
      else slaveDmaEn ||| slaveDmaCmd
    some { s.writel value slaveDmaCtrlReg with pc := .length }
  | .length => some { s.writel s.xfer.len slaveDmaLengthReg with pc := .addr }
  | .addr =>
    some { s.writel s.dma.toUInt32 slaveDmaAddrReg with
      pc := if s.xfer.txBuf then .readRdy else .wait }
  | .readRdy => some { s with pc := .writeRdy (s.regs dataRdyReg ||| slaveDataRdy) }
  | .writeRdy value => some { s.writel value dataRdyReg with pc := .wait }
  | .wait =>
    if 0 < s.isrDone then
      some { s with
        isrDone := s.isrDone - 1
        pc := if s.xfer.txBuf then .unmap 0 else .swRst }
    else none
  | .swRst => some { s.writel slaveSwRst slaveDmaCtrlReg with pc := .unmap 0 }
  | .unmap ret => some { s.dmaUnmap with pc := .finalize ret }
  | .finalize ret => some { s with finalized := s.finalized + 1, pc := .returned ret }
  | .returned _ => none

/-- `sp7021_spi_slave_irq`. -/
def slaveIrq (s : SpiSlave) : SpiSlave :=
  { s.writel (s.regs dataRdyReg ||| slaveClrInt) dataRdyReg with
    slaveIsr := s.slaveIsr + 1
    arrived := s.arrived || s.pc = .wait }

/-- `complete(&pspim->isr_done)` of `sp7021_spi_master_irq`. -/
def masterIrq (s : SpiSlave) (isrdone : Bool) : SpiSlave :=
  if isrdone then { s with isrDone := s.isrDone + 1 } else s

/-- `sp7021_spi_slave_abort`. -/
def abort (s : SpiSlave) : SpiSlave :=
  { s with
    slaveIsr := s.slaveIsr + 1
    isrDone := s.isrDone + 1
    aborted := s.aborted || !(s.pc matches .returned _) }

/-- `wait_for_completion_interruptible` ends by a signal. -/
def signal (s : SpiSlave) : Option SpiSlave :=
  if s.pc = .wait ∧ s.isrDone = 0 then some { s with pc := .unmap (-eintr), signalled := true }
  else none

def step (s : SpiSlave) : SlaveEvent → Option SpiSlave
  | .map dma => s.map dma
  | .xfer => s.xferNext
  | .slaveIrq => some s.slaveIrq
  | .masterIrq isrdone => some (s.masterIrq isrdone)
  | .abort => some s.abort
  | .signal => s.signal

/-- A transfer is handed to the driver, whatever the registers and the completions were before. -/
def init (xfer : SlaveTransfer) (regs : ℕ → UInt32) (slaveIsr isrDone : ℕ) : SpiSlave where
  xfer := xfer
  regs := regs
  slaveIsr := slaveIsr
  isrDone := isrDone
  dma := 0
  mapping := none
  pc := .entry
  finalized := 0
  arrived := false
  aborted := false
  signalled := false

end SpiSlave

def slave (xfer : SlaveTransfer) (regs : ℕ → UInt32) (slaveIsr isrDone : ℕ) :
    Sys SpiSlave SlaveEvent where
  init := SpiSlave.init xfer regs slaveIsr isrDone
  step := SpiSlave.step

end YoctoLayers.Sp7021
