import Mathlib.Algebra.Group.Nat.Defs
import YoctoLayers.Lib.Errno
import YoctoLayers.Lib.System

/-! The SPI master: `sp7021_spi_master_transfer_one` and `sp7021_spi_master_irq` step by step,
with a controller that has a 16-byte FIFO in each direction. -/
namespace YoctoLayers.Sp7021
open YoctoLayers.Lib

def spiDataSize : ℕ := 255
def fifoDataLen : ℕ := 16

def cpolFd : UInt32 := 0x1
def fdSel : UInt32 := 0x40
def cleanRwByte : UInt32 := 0x780
def txEmpFlagMask : UInt32 := 0x800
def rxFullFlagMask : UInt32 := 0x4000
def finishFlagMask : UInt32 := 0x8000
def cleanFlugMask : UInt32 := 0xf800
def clkMask : UInt32 := 0xffff0000

/-- The fields of `SP7021_SPI_STATUS_REG`. -/
structure SpiStatus where
  txEmp : Bool
  rxEmp : Bool
  rxFull : Bool
  finish : Bool
  txCnt : ℕ
  rxCnt : ℕ
  txLen : ℕ
  totalLen : ℕ

structure SpiCtrl where
  txFifo : List UInt8
  rxFifo : List UInt8
  txLen : ℕ
  totalLen : ℕ
  finish : Bool
  /-- The bytes of the started chunk that are not shifted yet. -/
  left : ℕ
  config : UInt32

namespace SpiCtrl

/-- TX_CNT and RX_CNT have four bits: a full FIFO counts 0. -/
def status (c : SpiCtrl) : SpiStatus where
  txEmp := c.txFifo.isEmpty
  rxEmp := c.rxFifo.isEmpty
  rxFull := decide (c.rxFifo.length = fifoDataLen)
  finish := c.finish
  txCnt := c.txFifo.length % 16
  rxCnt := c.rxFifo.length % 16
  txLen := c.txLen
  totalLen := c.totalLen

/-- The interrupt line: a flag whose mask bit is set. -/
def asserted (c : SpiCtrl) : Bool :=
  c.status.txEmp && c.config &&& txEmpFlagMask != 0 ||
    c.status.rxFull && c.config &&& rxFullFlagMask != 0 ||
    c.status.finish && c.config &&& finishFlagMask != 0

/-- A byte written to a full FIFO is lost. -/
def writeFifo (c : SpiCtrl) (b : UInt8) : SpiCtrl :=
  if c.txFifo.length < fifoDataLen then { c with txFifo := c.txFifo ++ [b] } else c

/-- An empty FIFO reads as zero. -/
def readFifo (c : SpiCtrl) : UInt8 × SpiCtrl :=
  match c.rxFifo with
  | [] => (0, c)
  | b :: rest => (b, { c with rxFifo := rest })

/-- The lengths and `SP7021_SPI_START_FD` are written to the status register. -/
def start (c : SpiCtrl) (xferLen : ℕ) : SpiCtrl :=
  { c with txLen := xferLen, totalLen := xferLen, left := xferLen }

/-- `SP7021_FINISH_FLAG` alone is written to the status register. -/
def clearFinish (c : SpiCtrl) : SpiCtrl := { c with finish := false, txLen := 0, totalLen := 0 }

end SpiCtrl

/-- The part of `struct sp7021_spi_ctlr` that the master uses. `txBuf` and `rxBuf` are offsets
into the buffers of the transfer. -/
structure SpiDriver where
  xferConf : UInt32
  txCurLen : ℕ
  rxCurLen : ℕ
  dataUnit : ℕ
  txBuf : ℕ
  rxBuf : ℕ
  isrDone : ℕ

/-- `struct spi_transfer`. -/
structure SpiTransfer where
  txBuf : ℕ → UInt8
  len : ℕ
  speedHz : UInt32

/-- `xfer_len` of the `i`-th round of the loop. -/
def SpiTransfer.chunkLen (xfer : SpiTransfer) (i : ℕ) : ℕ :=
  if i = xfer.len / spiDataSize then xfer.len % spiDataSize else spiDataSize

/-- `a - b` of `unsigned int`s. -/
def subU32 (a b : ℕ) : ℕ := (a + 2 ^ 32 - b) % 2 ^ 32

/-- The configuration that `sp7021_spi_setup_clk` stores and writes. -/
def setupClk (clkRate speedHz xferConf : UInt32) : UInt32 :=
  let div := max 2 (clkRate / speedHz)
  let clkSel := div / 2 - 1
  (xferConf &&& ~~~clkMask) ||| ((clkSel <<< 16) &&& clkMask)

/-- The configuration that a chunk is started with. -/
def startConfig (config : UInt32) : UInt32 :=
  config &&& ~~~cleanRwByte &&& ~~~cleanFlugMask |||
    (fdSel ||| finishFlagMask ||| txEmpFlagMask ||| rxFullFlagMask)

/-- Where `sp7021_spi_master_transfer_one` is in its `i`-th round, or what it returned. -/
inductive XferPc
  | loop (i : ℕ)
  | setupClk (i : ℕ)
  | reinit (i : ℕ)
  | bufs (i : ℕ)
  /-- `n` bytes are left to `sp7021_spi_master_wb`. -/
  | preload (i n : ℕ)
  | config (i : ℕ)
  | start (i : ℕ)
  | wait (i : ℕ)
  | readBack (i : ℕ)
  | cpol (i : ℕ)
  | returned (ret : ℤ)
deriving DecidableEq

/-- Where `sp7021_spi_master_irq` is. -/
inductive IrqPc
  | idle
  /-- What is left to `sp7021_spi_master_rb`, and then to `sp7021_spi_master_wb`. -/
  | rb (rxCnt txCnt : ℕ)
  | wb (txCnt : ℕ)
  | status
  | spin (totalLen : ℕ)
  | spinRb (rxCnt totalLen : ℕ)
  | clear
  | complete
deriving DecidableEq

structure SpiMaster where
  xfer : SpiTransfer
  clkRate : UInt32
  drv : SpiDriver
  ctrl : SpiCtrl
  pc : XferPc
  irq : IrqPc
  /-- The bytes shifted out. -/
  mosi : List UInt8
  /-- The bytes shifted in. -/
  miso : List UInt8
  /-- The indices of the transfer's buffer read through `tx_buf`. -/
  reads : List ℕ
  /-- The indices of the transfer's buffer written through `rx_buf`, and the bytes. -/
  stores : List (ℕ × UInt8)
  /-- The calls of `complete`. -/
  completions : ℕ

inductive SpiEvent
  /-- The controller shifts a byte out and a byte in. -/
  | shift (b : UInt8)
  /-- The handler is called and reads the status. -/
  | irq
  /-- The handler's next step. -/
  | isr
  /-- The next step of `sp7021_spi_master_transfer_one`. -/
  | xfer
  | timeout
  | signal
deriving DecidableEq

namespace SpiMaster

/-- One round of `sp7021_spi_master_rb`. -/
def rb (s : SpiMaster) : SpiMaster :=
  let (b, ctrl) := s.ctrl.readFifo
  { s with
    ctrl := ctrl
    drv := { s.drv with rxCurLen := s.drv.rxCurLen + 1 }
    stores := s.stores ++ [(s.drv.rxBuf + s.drv.rxCurLen, b)] }

/-- One round of `sp7021_spi_master_wb`. -/
def wb (s : SpiMaster) : SpiMaster :=
  { s with
    ctrl := s.ctrl.writeFifo (s.xfer.txBuf (s.drv.txBuf + s.drv.txCurLen))
    drv := { s.drv with txCurLen := s.drv.txCurLen + 1 }
    reads := s.reads ++ [s.drv.txBuf + s.drv.txCurLen] }

def rxCnt (s : SpiMaster) : ℕ :=
  if s.ctrl.status.rxFull then s.drv.dataUnit else s.ctrl.status.rxCnt

/-- `sp7021_spi_master_irq` up to its first access of a buffer. -/
def irqEntry (s : SpiMaster) : SpiMaster :=
  let fdStatus := s.ctrl.status
  if fdStatus.txEmp ∧ fdStatus.rxEmp ∧ fdStatus.totalLen = 0 then s
  else if fdStatus.txLen = 0 ∧ fdStatus.totalLen = 0 then s
  else
    let txCnt := min (subU32 fdStatus.txLen s.drv.txCurLen)
      (subU32 s.drv.dataUnit fdStatus.txCnt)
    { s with irq := .rb s.rxCnt txCnt }

def isrNext (s : SpiMaster) : Option SpiMaster :=
  match s.irq with
  | .idle => none
  | .rb 0 txCnt => some { s with irq := .wb txCnt }
  | .rb (n + 1) txCnt => some { s.rb with irq := .rb n txCnt }
  | .wb 0 => some { s with irq := .status }
  | .wb (n + 1) => some { s.wb with irq := .wb n }
  | .status =>
    if s.ctrl.status.finish ∨ s.ctrl.status.txLen = s.drv.txCurLen then
      some { s with irq := .spin s.ctrl.status.totalLen }
    else some { s with irq := .idle }
  | .spin totalLen =>
    if totalLen ≠ s.drv.rxCurLen then
      some { s with irq := .spinRb s.rxCnt s.ctrl.status.totalLen }
    else some { s with irq := .clear }
  | .spinRb 0 totalLen => some { s with irq := .spin totalLen }
  | .spinRb (n + 1) totalLen => some { s.rb with irq := .spinRb n totalLen }
  | .clear => some { s with ctrl := s.ctrl.clearFinish, irq := .complete }
  | .complete =>
    some { s with
      drv := { s.drv with isrDone := s.drv.isrDone + 1 }
      completions := s.completions + 1
      irq := .idle }

def xferNext (s : SpiMaster) : Option SpiMaster :=
  match s.pc with
  | .loop i =>
    if i ≤ s.xfer.len / spiDataSize then
      some { s with
        drv := { s.drv with txCurLen := 0, rxCurLen := 0, dataUnit := fifoDataLen }
        pc := .setupClk i }
    else some { s with pc := .returned 0 }
  | .setupClk i =>
    let conf := Sp7021.setupClk s.clkRate s.xfer.speedHz s.drv.xferConf
    some { s with
      drv := { s.drv with xferConf := conf }
      ctrl := { s.ctrl with config := conf }
      pc := .reinit i }
  | .reinit i => some { s with drv := { s.drv with isrDone := 0 }, pc := .bufs i }
  | .bufs i =>
    let xferLen := s.xfer.chunkLen i
    some { s with
      drv := { s.drv with txBuf := i * spiDataSize, rxBuf := i * spiDataSize }
      pc := .preload i (if s.drv.txCurLen < xferLen then min s.drv.dataUnit xferLen else 0) }
  | .preload i 0 => some { s with pc := .config i }
  | .preload i (n + 1) => some { s.wb with pc := .preload i n }
  | .config i =>
    some { s with ctrl := { s.ctrl with config := startConfig s.ctrl.config }, pc := .start i }
  | .start i => some { s with ctrl := s.ctrl.start (s.xfer.chunkLen i), pc := .wait i }
  | .wait i =>
    if 0 < s.drv.isrDone then
      some { s with drv := { s.drv with isrDone := s.drv.isrDone - 1 }, pc := .readBack i }
    else none
  | .readBack i =>
    if s.ctrl.status.finish then
      some { s with
        ctrl := { s.ctrl.clearFinish with config := s.ctrl.config &&& cleanFlugMask }
        pc := .cpol i }
    else some { s with pc := .cpol i }
  | .cpol i =>
    if s.drv.xferConf &&& cpolFd ≠ 0 then
      some { s with ctrl := { s.ctrl with config := s.drv.xferConf }, pc := .loop (i + 1) }
    else some { s with pc := .loop (i + 1) }
  | .returned _ => none

def shift (s : SpiMaster) (b : UInt8) : Option SpiMaster :=
  match s.ctrl.txFifo with
  | [] => none
  | out :: rest =>
    if 0 < s.ctrl.left ∧ s.ctrl.rxFifo.length < fifoDataLen then
      some { s with
        ctrl := { s.ctrl with
          txFifo := rest
          rxFifo := s.ctrl.rxFifo ++ [b]
          left := s.ctrl.left - 1
          finish := s.ctrl.finish || decide (s.ctrl.left = 1) }
        mosi := s.mosi ++ [out]
        miso := s.miso ++ [b] }
    else none

/-- `wait_for_completion_interruptible_timeout` ends without a completion. -/
def giveUp (s : SpiMaster) (next : ℕ → XferPc) : Option SpiMaster :=
  match s.pc with
  | .wait i => if s.drv.isrDone = 0 then some { s with pc := next i } else none
  | _ => none

/-- The handler is called when the interrupt line is asserted; with `spurious`, at any time.
Interrupted by a signal, the wait returns `-ERESTARTSYS`, which the caller takes for success. -/
def step (spurious : Bool) (s : SpiMaster) : SpiEvent → Option SpiMaster
  | .shift b => s.shift b
  | .irq =>
    match s.irq with
    | .idle => if spurious || s.ctrl.asserted then some s.irqEntry else none
    | _ => none
  | .isr => s.isrNext
  | .xfer => s.xferNext
  | .timeout => s.giveUp fun _ => .returned (-etimedout)
  | .signal => s.giveUp .readBack

/-- A transfer is handed to the driver; the controller has nothing to do. -/
def init (xfer : SpiTransfer) (clkRate : UInt32) (drv : SpiDriver) (config : UInt32) :
    SpiMaster where
  xfer := xfer
  clkRate := clkRate
  drv := drv
  ctrl :=
    { txFifo := [], rxFifo := [], txLen := 0, totalLen := 0, finish := false, left := 0
      config := config }
  pc := .loop 0
  irq := .idle
  mosi := []
  miso := []
  reads := []
  stores := []
  completions := 0

end SpiMaster

/-- One transfer, whatever the driver's fields and the configuration were before. -/
def master (spurious : Bool) (xfer : SpiTransfer) (clkRate : UInt32) (drv : SpiDriver)
    (config : UInt32) : Sys SpiMaster SpiEvent where
  init := SpiMaster.init xfer clkRate drv config
  step := SpiMaster.step spurious

end YoctoLayers.Sp7021
