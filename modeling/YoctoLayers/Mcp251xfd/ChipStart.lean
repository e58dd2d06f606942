import YoctoLayers.Mcp251xfd.Regmap

/-! Starting and stopping the controller: `mcp251xfd_chip_softreset` to `mcp251xfd_set_mode`. -/
namespace YoctoLayers.Mcp251xfd
open YoctoLayers.Lib

variable {σ : Type}

namespace Bus
variable (bus : Bus σ)

/-- `mcp251xfd_chip_get_mode`. -/
def chipGetMode : DrvM σ UInt8 := do
  let val ← bus.regmapRead regCon
  return (conOpmod.get val).toUInt8

/-- `priv->rx_int` is not NULL. -/
def rxInt : DrvM σ Bool := return bus.env.board.rxInt && !(← DrvM.priv).rxIntPut

end Bus

/-- The value of OSC that `mcp251xfd_chip_clock_init` sets up. -/
def oscLowPower : UInt32 := oscLpmen ||| oscClkodiv.prep oscClkodiv10

/-- The value of IOCON with PIN1 as RX interrupt. -/
def ioconRxInt : UInt32 := ioconPm0 ||| ioconTris1 ||| ioconTris0

/-- The counters in TREC. -/
def berrCounterOfTrec (trec : UInt32) : CanBerrCounter where
  txerr := if trec &&& trecTxbo ≠ 0 then 256 else (trecTec.get trec).toUInt16
  rxerr := (trecRec.get trec).toUInt16

namespace Orig
variable (bus : Bus σ)

/-- `__mcp251xfd_chip_set_mode`. -/
def chipSetMode' (modeReq : UInt8) (nowait : Bool) : DrvM σ Unit := do
  bus.regmapUpdateBits regCon conReqop.mask (conReqop.prep modeReq.toUInt32)
  if modeReq = modeSleep ∨ nowait then return
  let (err, _) ← bus.regmapReadPollTimeout regCon
    (fun con => (conOpmod.get con).toUInt8 = modeReq) 0
  DrvM.check err

def chipClockInit : DrvM σ Unit := do
  bus.regmapWrite regOsc oscLowPower
  bus.regmapWrite regTscon tsconTbcen

def chipRxIntEnable : DrvM σ Unit := do
  if !(← bus.rxInt) then return
  bus.regmapWrite regIocon ioconRxInt

/-- `__mcp251xfd_get_berr_counter`. -/
def getBerrCounter' (_bec : CanBerrCounter) : DrvM σ CanBerrCounter := do
  return berrCounterOfTrec (← bus.regmapRead regTrec)

/-- The two checks of the oscillator rate in `mcp251xfd_probe`. -/
def freqOk (freq : UInt32) : Bool :=
  !(freq < sysclockHzMin || sysclockHzMax < freq) && !(freq ≤ sysclockHzMax / oscPllMultiplier)

end Orig

namespace Fork

/-- The fields `dv_iocon`, `dv_oscva`, `dv_nober` and `dv_noslp` of the private data. -/
structure Dv where
  iocon : UInt32
  oscva : UInt32
  nober : Bool
  noslp : Bool
deriving DecidableEq, Repr

/-- `0x01 << 31`. -/
def dvUnset : UInt32 := (1 : UInt32) <<< 31

variable (bus : Bus σ) (dv : Dv)

def chipSetMode' (modeReq : UInt8) (nowait : Bool) : DrvM σ Unit := do
  if dv.noslp ∧ modeReq = modeSleep then return
  bus.regmapUpdateBits regCon conReqop.mask (conReqop.prep modeReq.toUInt32)
  if modeReq = modeSleep ∨ nowait then return
  let (err, _) ← bus.regmapReadPollTimeout regCon
    (fun con => (conOpmod.get con).toUInt8 = modeReq) 0
  DrvM.check err

def chipClockInit : DrvM σ Unit := do
  bus.regmapWrite regOsc (if dv.oscva ≠ dvUnset then dv.oscva else oscLowPower)
  bus.regmapWrite regTscon tsconTbcen

def chipRxIntEnable : DrvM σ Unit := do
  if !(← bus.rxInt) then return
  -- read for the log line only
  DrvM.ignoreErr (bus.regmapRead regIocon)
  bus.regmapWrite regIocon (if dv.iocon ≠ dvUnset then dv.iocon else ioconRxInt)

def getBerrCounter' (bec : CanBerrCounter) : DrvM σ CanBerrCounter := do
  if dv.nober then return bec
  return berrCounterOfTrec (← bus.regmapRead regTrec)

end Fork

/-- A driver: the functions in which the modified driver and `mcp251xfd.orig` differ. The others
are the same text in both directories and are defined once. A prime stands for the leading
underscores of a name. -/
structure Driver (σ : Type) extends Bus σ where
  chipSetMode' : UInt8 → Bool → DrvM σ Unit
  chipClockInit : DrvM σ Unit
  chipRxIntEnable : DrvM σ Unit
  /-- From the content of `*bec` before the call to that after it. -/
  getBerrCounter' : CanBerrCounter → DrvM σ CanBerrCounter
  /-- Whether `mcp251xfd_probe` accepts the oscillator rate. -/
  freqOk : Bool

def Orig.bus (env : Env σ) : Bus σ := { env := env, crcRead := Orig.regmapCrcRead env }

def Fork.bus (env : Env σ) : Bus σ := { env := env, crcRead := Fork.regmapCrcRead env }

/-- `mcp251xfd.orig`. -/
def Orig.driver (env : Env σ) : Driver σ where
  toBus := Orig.bus env
  chipSetMode' := Orig.chipSetMode' (Orig.bus env)
  chipClockInit := Orig.chipClockInit (Orig.bus env)
  chipRxIntEnable := Orig.chipRxIntEnable (Orig.bus env)
  getBerrCounter' := Orig.getBerrCounter' (Orig.bus env)
  freqOk := Orig.freqOk env.board.freq

/-- The modified driver, where the checks of the oscillator rate are commented out. -/
def Fork.driver (env : Env σ) (dv : Fork.Dv) : Driver σ where
  toBus := Fork.bus env
  chipSetMode' := Fork.chipSetMode' (Fork.bus env) dv
  chipClockInit := Fork.chipClockInit (Fork.bus env) dv
  chipRxIntEnable := Fork.chipRxIntEnable (Fork.bus env) dv
  getBerrCounter' := Fork.getBerrCounter' (Fork.bus env) dv
  freqOk := true

/-- `mcp251xfd_osc_invalid`. -/
def oscInvalid (reg : UInt32) : Bool := reg = 0 ∨ reg = 0xffffffff

/-- `sizeof(struct mcp251xfd_hw_tx_obj_can)` and its siblings. -/
def txObjSize (fd : Bool) : UInt8 := if fd then 72 else 16

def rxObjSize (fd : Bool) : UInt8 := if fd then 76 else 20

/-- Listen-only mode works like FD mode. -/
def Priv.fdObjects (p : Priv) : Bool :=
  p.ctrlmode &&& (canCtrlmodeListenonly ||| canCtrlmodeFd) ≠ 0

/-- `mcp251xfd_get_normal_mode`. -/
def Priv.normalMode (p : Priv) : UInt8 :=
  if p.ctrlmode &&& canCtrlmodeLoopback ≠ 0 then modeIntLoopback
  else if p.ctrlmode &&& canCtrlmodeListenonly ≠ 0 then modeListenonly
  else if p.ctrlmode &&& canCtrlmodeFd ≠ 0 then modeMixed
  else modeCan20

/-- The Transmitter Delay Compensation offset: the product clamped to `[-64, 63]`. -/
def tdco (dbt : CanBittiming) : UInt32 :=
  let product := dbt.brp * (dbt.propSeg + dbt.phaseSeg1)
  if product < 0x80000000 then min product 63 else max product (0 - 64)

/-- `mcp251xfd_cmd_prepare_write_reg`: where the prepared message writes which bytes. -/
def cmdPrepareWriteReg (reg : UInt16) (mask val : UInt32) : UInt16 × List UInt8 :=
  let firstByte := firstByteSet mask
  let len := lastByteSet mask - firstByte + 1
  (reg + UInt16.ofNat firstByte, (le32 (val >>> UInt32.ofNat (8 * firstByte))).take len)

def spiInstructionWrite : UInt16 := 0x2000
def spiInstructionWriteCrc : UInt16 := 0xa000
def spiAddress : UInt16 := 0x0fff

/-- `mcp251xfd_tx_ring_init_tx_obj`. -/
def txRingInitTxObj (quirks : UInt32) (ring : TxRing) (txObj : TxObj) (n : UInt8) : TxObj :=
  let instruction :=
    if quirks &&& quirkCrcTx ≠ 0 then spiInstructionWriteCrc else spiInstructionWrite
  { txObj with cmd := instruction ||| getTxObjAddr ring n, xferLen := 0 }

/-- `mcp251xfd_ring_init`. -/
def Priv.ringInit (p : Priv) : Priv :=
  let tx := txRingInit p.txd.tx
  let initObj (n : ℕ) : TxObj :=
    if n < tx.slots then
      txRingInitTxObj p.devtypeData.quirks tx (p.txd.obj n) (UInt8.ofNat n)
    else p.txd.obj n
  { p with
    tef := tefRingInit
    txd := { p.txd with tx := tx, obj := initObj }
    rx := p.rx.map fun ring =>
      { ring with
        head := 0, tail := 0, nr := 0, fifoNr := rxFifo 0, base := getTxObjAddr tx tx.objNum } }

namespace Driver
variable (d : Driver σ)

def chipSetMode (modeReq : UInt8) : DrvM σ Unit := d.chipSetMode' modeReq false

def chipSetModeNowait (modeReq : UInt8) : DrvM σ Unit := d.chipSetMode' modeReq true

/-- `mcp251xfd_chip_clock_enable`. -/
def chipClockEnable : DrvM σ Unit := do
  let osc := oscClkodiv.prep oscClkodiv10
  d.regmapWrite regOsc osc
  let (err, osc) ← d.regmapReadPollTimeout regOsc
    (fun osc => osc &&& (oscOscrdy ||| oscPllrdy) = oscOscrdy) osc
  if oscInvalid osc then throw (-enodev)
  DrvM.check err

def chipSoftresetDo : DrvM σ Unit := do
  d.chipClockEnable
  d.chipSetMode modeConfig
  d.env.spiReset

def chipSoftresetCheck : DrvM σ Unit := do
  if (← d.chipGetMode) ≠ modeConfig then throw (-etimedout)
  let osc ← d.regmapRead regOsc
  if osc ≠ oscOscrdy ||| oscClkodiv.prep oscClkodiv10 then throw (-etimedout)

def softresetRetriesMax : ℕ := 3

/-- The loop of `mcp251xfd_chip_softreset`. -/
def chipSoftresetTries : ℕ → DrvM σ Unit
  | 0 => throw (-etimedout)
  | tries + 1 => do
    match ← DrvM.attempt (do d.chipSoftresetDo; d.chipSoftresetCheck) with
    | .ok _ => return
    | .error err => if err = -etimedout then chipSoftresetTries tries else throw err

def chipSoftreset : DrvM σ Unit := d.chipSoftresetTries softresetRetriesMax

/-- `mcp251xfd_set_bittiming`. -/
def setBittiming : DrvM σ Unit := do
  let p ← DrvM.priv
  let bt := p.bittiming
  let dbt := p.dataBittiming
  let val := conReqop.prep modeConfig.toUInt32 ||| conStef ||| conEsigm ||| conRtxat |||
    conWft.prep conWftT11filter ||| conWakfil ||| conPxedis
  d.regmapWrite regCon
    (if p.ctrlmode &&& canCtrlmodeFdNonIso = 0 then val ||| conIsocrcen else val)
  d.regmapWrite regNbtcfg
    (nbtcfgBrp.prep (bt.brp - 1) ||| nbtcfgTseg1.prep (bt.propSeg + bt.phaseSeg1 - 1) |||
      nbtcfgTseg2.prep (bt.phaseSeg2 - 1) ||| nbtcfgSjw.prep (bt.sjw - 1))
  if p.ctrlmode &&& canCtrlmodeFd = 0 then return
  d.regmapWrite regDbtcfg
    (dbtcfgBrp.prep (dbt.brp - 1) ||| dbtcfgTseg1.prep (dbt.propSeg + dbt.phaseSeg1 - 1) |||
      dbtcfgTseg2.prep (dbt.phaseSeg2 - 1) ||| dbtcfgSjw.prep (dbt.sjw - 1))
  d.regmapWrite regTdc (tdcTdcmod.prep tdcTdcmodAuto ||| tdcTdco.prep (tdco dbt))

/-- `mcp251xfd_chip_rx_int_disable`. -/
def chipRxIntDisable : DrvM σ Unit := do
  if !(← d.rxInt) then return
  d.regmapWrite regIocon (ioconPm1 ||| ioconPm0 ||| ioconTris1 ||| ioconTris0)

def plsize (fd : Bool) : UInt32 :=
  fifoconPlsize.prep (if fd then fifoconPlsize64 else fifoconPlsize8)

def chipRxFifoInitOne (ring : RxRing) : DrvM σ Unit := do
  let fd := (← DrvM.priv).fdObjects
  d.regmapWrite (regFifocon ring.fifoNr)
    (fifoconFsize.prep (ring.objNum.toUInt32 - 1) ||| fifoconRxtsen ||| fifoconRxovie |||
      fifoconTfnrfnie ||| plsize fd)

def chipRxFilterInitOne (ring : RxRing) : DrvM σ Unit :=
  d.regmapUpdateBits (regFltcon (ring.nr >>> 2)) (fltconFltMask ring.nr)
    (fltconFlten ring.nr ||| fltconFbp ring.nr ring.fifoNr)

/-- `mcp251xfd_for_each_rx_ring`: there is at most one ring. -/
def forEachRxRing (f : RxRing → DrvM σ Unit) : DrvM σ Unit := do
  match (← DrvM.priv).rx with
  | none => return
  | some ring => f ring

/-- `mcp251xfd_chip_fifo_init`. -/
def chipFifoInit : DrvM σ Unit := do
  let p ← DrvM.priv
  let tx := p.txd.tx
  d.regmapWrite regTefcon
    (tefconFsize.prep (tx.objNum.toUInt32 - 1) ||| tefconTeftsen ||| tefconTefovie |||
      tefconTefneie)
  let txat :=
    if p.ctrlmode &&& canCtrlmodeOneShot ≠ 0 then fifoconTxatOneShot else fifoconTxatUnlimited
  d.regmapWrite (regFifocon txFifo)
    (fifoconFsize.prep (tx.objNum.toUInt32 - 1) ||| fifoconTxen ||| fifoconTxatie |||
      plsize p.fdObjects ||| fifoconTxat.prep txat)
  forEachRxRing fun ring => do
    d.chipRxFifoInitOne ring
    d.chipRxFilterInitOne ring

/-- `mcp251xfd_chip_ecc_init`. -/
def chipEccInit : DrvM σ Unit := do
  DrvM.modifyPriv fun p => { p with ecc := { p.ecc with eccStat := 0 } }
  let quirks := (← DrvM.priv).devtypeData.quirks
  d.regmapUpdateBits regEcccon eccconEccen (if quirks &&& quirkEcc ≠ 0 then eccconEccen else 0)
  DrvM.check (if (← DrvM.access (d.env.call .kzalloc)) = 0 then 0 else -enomem)
  let res ← DrvM.attempt (d.regmapRawWrite ramStart (List.replicate ramSize 0))
  d.env.note .kfree
  match res with
  | .ok _ => return
  | .error err => throw err

def chipSetNormalMode' (nowait : Bool) : DrvM σ Unit := do
  d.chipSetMode' (← DrvM.priv).normalMode nowait

def chipSetNormalMode : DrvM σ Unit := d.chipSetNormalMode' false

def chipSetNormalModeNowait : DrvM σ Unit := d.chipSetNormalMode' true

/-- The enable bits that `mcp251xfd_chip_interrupts_enable` writes to INT. -/
def Priv.intEnables (p : Priv) : UInt32 :=
  let val := intCerrie ||| intSerrie ||| intRxovie ||| intTxatie ||| intSpicrcie ||| intEccie |||
    intTefie ||| intModie ||| intRxie
  if p.ctrlmode &&& canCtrlmodeBerrReporting ≠ 0 then val ||| intIvmie else val

def chipInterruptsEnable : DrvM σ Unit := do
  d.regmapWrite regCrc (crcFerrie ||| crcCrcerrie)
  d.regmapUpdateBits regEcccon (eccconDedie ||| eccconSecie) (eccconDedie ||| eccconSecie)
  d.regmapWrite regInt (Priv.intEnables (← DrvM.priv))

def chipInterruptsDisable : DrvM σ Unit := do
  d.regmapWrite regInt 0
  d.regmapUpdateBits regEcccon (eccconDedie ||| eccconSecie) 0
  d.regmapWrite regCrc 0

/-- `mcp251xfd_chip_stop`. -/
def chipStop (state : CanState) : DrvM σ Unit := do
  DrvM.modifyPriv fun p => { p with canState := state }
  DrvM.ignoreErr d.chipInterruptsDisable
  DrvM.ignoreErr d.chipRxIntDisable
  d.chipSetMode modeSleep

/-- `mcp251xfd_chip_start`: every step but one goes to `out_chip_stop` when it fails. -/
def chipStart : DrvM σ Unit := do
  let outChipStop := DrvM.ignoreErr (d.chipStop .stopped)
  DrvM.onError outChipStop do
    d.chipSoftreset
    d.chipClockInit
    d.setBittiming
  d.chipRxIntEnable
  DrvM.onError outChipStop do
    d.chipEccInit
    DrvM.modifyPriv Priv.ringInit
    d.chipFifoInit
    DrvM.modifyPriv fun p => { p with canState := .errorActive }
    d.chipSetNormalMode

inductive CanMode
  | stop
  | start
  | sleep
deriving DecidableEq, Repr

/-- `mcp251xfd_set_mode`. -/
def setMode : CanMode → DrvM σ Unit
  | .start => do
    d.chipStart
    DrvM.onError (DrvM.ignoreErr (d.chipStop .stopped)) d.chipInterruptsEnable
    d.env.note .netifWakeQueue
    DrvM.modifyPriv fun p => { p with txd := { p.txd with stopped := false } }
  | _ => throw (-eopnotsupp)

/-- `mcp251xfd_get_berr_counter`. -/
def getBerrCounter (bec : CanBerrCounter) : DrvM σ CanBerrCounter := do
  let p ← DrvM.priv
  if !p.iffUp then return bec
  if p.canState = .busOff then return p.bec
  d.getBerrCounter' bec

end Driver

end YoctoLayers.Mcp251xfd
