import YoctoLayers.Mcp251xfd.Irq

/-! The life of the device: `mcp251xfd_probe`, `mcp251xfd_open`, `mcp251xfd_stop`,
`mcp251xfd_remove`, and runs of these calls. -/
namespace YoctoLayers.Mcp251xfd
open YoctoLayers.Lib

variable {σ : Type}

/-- A zeroed `struct mcp251xfd_priv` as `alloc_candev` returns it. `mcp251xfd_ring_alloc` sets
`tx->obj_num` before anything reads it. -/
def Priv.alloc : Priv where
  canState := .stopped
  ctrlmode := 0
  bittiming := ⟨0, 0, 0, 0, 0⟩
  dataBittiming := ⟨0, 0, 0, 0, 0⟩
  iffUp := false
  regmaps := ⟨⟨false, false, false⟩, ⟨false, false, false⟩, none, none⟩
  tef := ⟨0, 0⟩
  txd :=
    { tx := ⟨0, 0, 0, txObjNumCan, 0, txObjNumCan_valid⟩
      obj := fun _ => ⟨0, 0, ⟨0, 0, Vector.replicate 64 0⟩, 0, 0⟩
      echoSkb := fun _ => none
      stopped := true }
  rx := none
  ecc := ⟨0, 0⟩
  intf := 0
  rxIntPut := false
  regVdd := false
  regXceiver := false
  devtypeData := ⟨0, .mcp251xfd⟩
  bec := ⟨0, 0⟩
  spiMaxSpeedHzOrig := 0

/-- The largest power of two that is at most `n` and at most `MCP251XFD_RX_OBJ_NUM_MAX`. -/
def rxObjNum (n : ℕ) : ℕ := min (2 ^ Nat.log2 n) rxObjNumMax

/-- `ram_free` when the RX ring is set up. -/
def ramFree (fd : Bool) : ℕ :=
  let txObjNum := if fd then txObjNumCanfd else txObjNumCan
  ramSize - txObjNum.toNat * (tefObjSize + (txObjSize fd).toNat)

/-- The RX ring that `mcp251xfd_ring_alloc` allocates. -/
def RxRing.alloc (fd : Bool) : RxRing where
  head := 0
  tail := 0
  base := 0
  nr := 0
  fifoNr := 0
  objNum := UInt8.ofNat (rxObjNum (ramFree fd / (rxObjSize fd).toNat))
  objSize := rxObjSize fd
  objNum_valid := by cases fd <;> decide

/-- The TX ring after `mcp251xfd_ring_alloc`. -/
def TxRing.alloc (tx : TxRing) (fd : Bool) : TxRing :=
  { tx with
    objNum := if fd then txObjNumCanfd else txObjNumCan
    objSize := txObjSize fd
    objNum_valid := by cases fd <;> decide }

namespace Driver
variable (d : Driver σ)

/-- A call for memory: `-ENOMEM` when there is none. -/
def allocMem (c : KernelCall) : DrvM σ Unit := do
  DrvM.check (if (← DrvM.access (d.env.call c)) = 0 then 0 else -enomem)

/-- `mcp251xfd_vdd_enable` and `mcp251xfd_transceiver_enable`. -/
def supplyEnable (present : Bool) (supply : Supply) : DrvM σ Unit :=
  DrvM.callIf present (d.env.invoke (.regulatorEnable supply))

/-- `mcp251xfd_vdd_disable` and `mcp251xfd_transceiver_disable`. -/
def supplyDisable (present : Bool) (supply : Supply) : DrvM σ Unit :=
  DrvM.callIf present (d.env.invoke (.regulatorDisable supply))

def vddEnable : DrvM σ Unit := do d.supplyEnable (← DrvM.priv).regVdd .vdd

def vddDisable : DrvM σ Unit := do d.supplyDisable (← DrvM.priv).regVdd .vdd

def transceiverEnable : DrvM σ Unit := do d.supplyEnable (← DrvM.priv).regXceiver .xceiver

def transceiverDisable : DrvM σ Unit := do d.supplyDisable (← DrvM.priv).regXceiver .xceiver

def clksAndVddEnable : DrvM σ Unit := do
  d.env.invoke .clkPrepareEnable
  DrvM.onError (d.env.note .clkDisableUnprepare) d.vddEnable

def clksAndVddDisable : DrvM σ Unit := do
  d.vddDisable
  d.env.note .clkDisableUnprepare

def ringFree : DrvM σ Unit := do
  DrvM.callIf (← DrvM.priv).rx.isSome (d.env.note .kfree)
  DrvM.modifyPriv fun p => { p with rx := none }

/-- `mcp251xfd_ring_alloc`: there is RAM for the one RX ring. -/
def ringAlloc : DrvM σ Unit := do
  let fd := (← DrvM.priv).fdObjects
  DrvM.modifyPriv fun p => { p with txd := { p.txd with tx := p.txd.tx.alloc fd } }
  DrvM.onError d.ringFree (d.allocMem .kzalloc)
  DrvM.modifyPriv fun p => { p with rx := some (RxRing.alloc fd) }

def netifStartQueue : DrvM σ Unit := do
  d.env.note .netifStartQueue
  DrvM.modifyPriv fun p => { p with txd := { p.txd with stopped := false } }

def netifStopQueue : DrvM σ Unit := do
  d.env.note .netifStopQueue
  DrvM.modifyPriv fun p => { p with txd := { p.txd with stopped := true } }

/-- `mcp251xfd_open`. -/
def «open» : DrvM σ Unit := do
  let err ← DrvM.access (d.env.call .pmRuntimeGetSync)
  if err < 0 then
    d.env.note .pmRuntimePutNoidle
    throw err
  let outPmRuntimePut := do
    DrvM.ignoreErr (d.chipStop .stopped)
    d.env.note .pmRuntimePut
  DrvM.onError outPmRuntimePut do
    d.env.invoke .openCandev
    DrvM.onError (d.env.note .closeCandev) do
      d.ringAlloc
      DrvM.onError d.ringFree do
        d.transceiverEnable
        DrvM.onError (DrvM.ignoreErr d.transceiverDisable) do
          d.chipStart
          d.env.note .rxOffloadEnable
          DrvM.onError (d.env.note .rxOffloadDisable) do
            d.env.invoke .requestIrq
            DrvM.onError (d.env.note .freeIrq) d.chipInterruptsEnable
            d.netifStartQueue

/-- `mcp251xfd_stop`. -/
def stop : DrvM σ Unit := do
  d.netifStopQueue
  DrvM.ignoreErr d.chipInterruptsDisable
  d.env.note .freeIrq
  d.env.note .rxOffloadDisable
  DrvM.ignoreErr (d.chipStop .stopped)
  DrvM.ignoreErr d.transceiverDisable
  d.ringFree
  d.env.note .closeCandev
  d.env.note .pmRuntimePut

/-- `mcp251xfd_register_quirks`. -/
def registerQuirks : DrvM σ Unit :=
  DrvM.modifyPriv fun p =>
    if d.env.board.halfDuplex then
      { p with
        devtypeData := { p.devtypeData with quirks := p.devtypeData.quirks ||| quirkHalfDuplex } }
    else p

/-- `mcp251xfd_register_chip_detect`. -/
def registerChipDetect : DrvM σ Unit := do
  d.regmapUpdateBits regOsc oscLpmen oscLpmen
  let osc ← d.regmapRead regOsc
  let devtypeData := if osc &&& oscLpmen ≠ 0 then devtypeDataMcp2518fd else devtypeDataMcp2517fd
  DrvM.modifyPriv fun p => { p with devtypeData := devtypeData }
  d.registerQuirks
  d.env.regmapInit

/-- `mcp251xfd_register_check_rx_int`. -/
def registerCheckRxInt : DrvM σ Unit := do
  if !(← d.rxInt) then return
  d.chipRxIntEnable
  let rxPending ← DrvM.access d.env.rxPending
  d.chipRxIntDisable
  if !rxPending then return
  d.env.note .gpiodPut
  DrvM.modifyPriv fun p => { p with rxIntPut := true }

/-- `mcp251xfd_register_get_dev_id`: an error of the second allocation or of the read is lost. -/
def registerGetDevId : DrvM σ Unit := do
  d.allocMem .kzalloc
  let readDevId := do
    d.allocMem .kzalloc
    let _ ← DrvM.attempt (d.env.spiRead regDevid 4)
    d.env.note .kfree
  DrvM.ignoreErr readDevId
  d.env.note .kfree

/-- `mcp251xfd_register`. -/
def register : DrvM σ Unit := do
  d.clksAndVddEnable
  d.env.note .pmRuntimeGetNoresume
  let outRuntimePutNoidle := do
    d.env.note .pmRuntimePutNoidle
    DrvM.ignoreErr d.clksAndVddDisable
  DrvM.onError outRuntimePutNoidle do
    d.env.invoke .pmRuntimeSetActive
    d.env.note .pmRuntimeEnable
    DrvM.onError (d.env.note .pmRuntimeDisable) do
      d.registerQuirks
      let chipSetModeSleep := DrvM.ignoreErr (d.chipSetMode modeSleep)
      match ← DrvM.attempt d.chipSoftreset with
      | .error err =>
        DrvM.callIf (err ≠ -enodev) chipSetModeSleep
        throw err
      | .ok _ =>
        DrvM.onError chipSetModeSleep do
          d.registerChipDetect
          d.registerCheckRxInt
          d.env.invoke .registerCandev
          DrvM.onError (d.env.note .unregisterCandev) do
            d.registerGetDevId
            d.chipSetMode modeSleep
        d.env.note .pmRuntimePut

/-- `mcp251xfd_unregister`. -/
def unregister : DrvM σ Unit := do
  d.env.note .unregisterCandev
  d.env.note .pmRuntimeGetSync
  d.env.note .pmRuntimePutNoidle
  DrvM.ignoreErr d.clksAndVddDisable
  d.env.note .pmRuntimeDisable

/-- `devm_regulator_get_optional`: whether the supply is there. -/
def regulatorGetOptional (supply : Supply) : DrvM σ Bool := do
  let err ← DrvM.access (d.env.call (.regulatorGetOptional supply))
  if err = -enodev then return false
  DrvM.check err
  return true

/-- `min(spi->max_speed_hz, freq / 2 / 1000 * 850)`. -/
def maxSpeedHz (orig freq : UInt32) : UInt32 := min orig (freq / 2 / 1000 * 850)

/-- `mcp251xfd_probe` after the device tree properties of the modified driver are read. -/
def probe : DrvM σ Unit := do
  let board := d.env.board
  if !board.irq then throw (-enxio)
  d.env.invoke .gpiodGetOptional
  let regVdd ← d.regulatorGetOptional .vdd
  let regXceiver ← d.regulatorGetOptional .xceiver
  d.env.invoke .clkGet
  if !d.freqOk then throw (-erange)
  d.allocMem .allocCandev
  let orig := (← get).maxSpeedHz
  modify fun w =>
    { w with
      priv := { Priv.alloc with
        regVdd := regVdd
        regXceiver := regXceiver
        devtypeData := board.devtypeData
        spiMaxSpeedHzOrig := orig }
      maxSpeedHz := maxSpeedHz orig board.freq }
  let outFreeCandev := do
    modify fun w => { w with maxSpeedHz := w.priv.spiMaxSpeedHzOrig }
    d.env.note .freeCandev
  DrvM.onError outFreeCandev do
    d.env.invoke .spiSetup
    d.env.regmapInit
    d.env.invoke .rxOffloadAdd
    d.register

/-- `mcp251xfd_remove`. -/
def remove : DrvM σ Unit := do
  d.env.note .rxOffloadDel
  d.unregister
  modify fun w => { w with maxSpeedHz := w.priv.spiMaxSpeedHzOrig }
  d.env.note .freeCandev

end Driver

/-- The entry points of the driver. -/
inductive DriverCall
  | probe
  | «open»
  /-- `mcp251xfd_irq`, its loops bounded by `rounds`. -/
  | irq (bec : CanBerrCounter) (rounds : ℕ)
  | setMode (mode : Driver.CanMode)
  /-- `mcp251xfd_get_berr_counter`; the result is what is in `*bec` afterwards. -/
  | getBerrCounter (bec : CanBerrCounter)
  | stop
  | remove
  /-- The CAN layer stores a new configuration. -/
  | changelink (ctrlmode : UInt32) (bittiming dataBittiming : CanBittiming)
deriving DecidableEq

/-- What a call returns to its caller. -/
inductive CallResult
  | err (code : ℤ)
  | irq (exit : Option IrqExit)
  | bec (bec : CanBerrCounter)
deriving DecidableEq

namespace Driver
variable (d : Driver σ)

/-- One call from outside. `IFF_UP` follows the results of `mcp251xfd_open` and
`mcp251xfd_stop`. -/
def call : DriverCall → DrvM σ CallResult
  | .probe => do d.probe; return .err 0
  | .open => do
    d.open
    DrvM.modifyPriv fun p => { p with iffUp := true }
    return .err 0
  | .irq bec rounds => return .irq (← d.irq bec rounds)
  | .setMode mode => do d.setMode mode; return .err 0
  | .getBerrCounter bec => return .bec (← d.getBerrCounter bec)
  | .stop => do
    d.stop
    DrvM.modifyPriv fun p => { p with iffUp := false }
    return .err 0
  | .remove => do d.remove; return .err 0
  | .changelink ctrlmode bittiming dataBittiming => do
    DrvM.modifyPriv fun p =>
      { p with ctrlmode := ctrlmode, bittiming := bittiming, dataBittiming := dataBittiming }
    return .err 0

/-- A sequence of calls: their results and the state they leave. -/
def run : List DriverCall → World σ → List CallResult × World σ
  | [], w => ([], w)
  | c :: cs, w =>
    match d.call c w with
    | .ok res w =>
      let (results, w) := run cs w
      (res :: results, w)
    | .error err w =>
      let (results, w) := run cs w
      (.err err :: results, w)

end Driver

end YoctoLayers.Mcp251xfd
