import YoctoLayers.Mcp251xfd.ChipStart
import YoctoLayers.Mcp251xfd.RxPath
import YoctoLayers.Mcp251xfd.TxPath

/-! The interrupt handlers `mcp251xfd_handle_tefif` to `mcp251xfd_handle_spicrcif`, each as a
sequential program. -/
namespace YoctoLayers.Mcp251xfd
open YoctoLayers.Lib

def canErrCrtl : UInt32 := 0x04
def canErrProt : UInt32 := 0x08
def canErrAck : UInt32 := 0x20
def canErrBusoff : UInt32 := 0x40
def canErrBuserror : UInt32 := 0x80
def canErrCrtlRxOverflow : UInt8 := 0x01
def canErrCrtlRxWarning : UInt8 := 0x04
def canErrCrtlTxWarning : UInt8 := 0x08
def canErrCrtlRxPassive : UInt8 := 0x10
def canErrCrtlTxPassive : UInt8 := 0x20
def canErrCrtlActive : UInt8 := 0x40
def canErrProtForm : UInt8 := 0x02
def canErrProtStuff : UInt8 := 0x04
def canErrProtBit0 : UInt8 := 0x08
def canErrProtBit1 : UInt8 := 0x10
def canErrProtTx : UInt8 := 0x80
def canErrProtLocCrcSeq : UInt8 := 0x08

/-- The frame that `alloc_can_err_skb` allocates. -/
def ErrFrame.alloc : ErrFrame := ⟨canErrFlag, Vector.replicate 8 0⟩

def ErrFrame.orId (cf : ErrFrame) (v : UInt32) : ErrFrame := { cf with canId := cf.canId ||| v }

def ErrFrame.orData (cf : ErrFrame) (i : Fin 8) (v : UInt8) : ErrFrame :=
  { cf with data := cf.data.set i (cf.data.get i ||| v) }

def ErrFrame.setData (cf : ErrFrame) (i : Fin 8) (v : UInt8) : ErrFrame :=
  { cf with data := cf.data.set i v }

def ErrFrame.withBec (cf : ErrFrame) (bec : CanBerrCounter) : ErrFrame :=
  (cf.setData 6 bec.txerr.toUInt8).setData 7 bec.rxerr.toUInt8

/-- The words of `len` objects of `size` bytes each. -/
def parseTefObjs (data : List UInt8) (len : ℕ) : List HwTefObj :=
  (List.range len).map fun i =>
    let obj := data.drop (i * tefObjSize)
    ⟨getLe32 obj, getLe32 (obj.drop 4), getLe32 (obj.drop 8)⟩

def parseRxObj (data : List UInt8) (size i : ℕ) : HwRxObj :=
  let obj := data.drop (i * size)
  { id := getLe32 obj
    flags := getLe32 (obj.drop 4)
    ts := getLe32 (obj.drop 8)
    data := Vector.ofFn fun j => obj.getD (12 + j.val) 0 }

/-- `can_change_state`: the frame that it fills. -/
def canChangeState (cf : ErrFrame) (txState rxState : CanState) : ErrFrame :=
  if txState.max rxState = .busOff then cf.orId canErrBusoff
  else
    let tx : UInt8 :=
      match txState with
      | .errorActive => canErrCrtlActive
      | .errorWarning => canErrCrtlTxWarning
      | .errorPassive => canErrCrtlTxPassive
      | _ => 0
    let rx : UInt8 :=
      match rxState with
      | .errorActive => canErrCrtlActive
      | .errorWarning => canErrCrtlRxWarning
      | .errorPassive => canErrCrtlRxPassive
      | _ => 0
    let cf := cf.orId canErrCrtl
    let cf := if rxState.toNat ≤ txState.toNat then cf.orData 1 tx else cf
    if txState.toNat ≤ rxState.toNat then cf.orData 1 rx else cf

def trecTxState (trec : UInt32) : CanState :=
  if trec &&& trecTxbo ≠ 0 then .busOff
  else if trec &&& trecTxbp ≠ 0 then .errorPassive
  else if trec &&& trecTxwarn ≠ 0 then .errorWarning
  else .errorActive

def trecRxState (trec : UInt32) : CanState :=
  if trec &&& trecRxbp ≠ 0 then .errorPassive
  else if trec &&& trecRxwarn ≠ 0 then .errorWarning
  else .errorActive

/-- The frame of `mcp251xfd_handle_ivmif`. -/
def ivmifFrame (bdiag1 : UInt32) : ErrFrame :=
  let cf := ErrFrame.alloc.orId (canErrProt ||| canErrBuserror)
  let cf :=
    if bdiag1 &&& (bdiag1Dcrcerr ||| bdiag1Ncrcerr) ≠ 0 then cf.orData 3 canErrProtLocCrcSeq else cf
  let cf :=
    if bdiag1 &&& (bdiag1Dstuferr ||| bdiag1Nstuferr) ≠ 0 then cf.orData 2 canErrProtStuff else cf
  let cf :=
    if bdiag1 &&& (bdiag1Dformerr ||| bdiag1Nformerr) ≠ 0 then cf.orData 2 canErrProtForm else cf
  let cf :=
    if bdiag1 &&& bdiag1Nackerr ≠ 0 then (cf.orId canErrAck).orData 2 canErrProtTx else cf
  let cf :=
    if bdiag1 &&& (bdiag1Dbit1err ||| bdiag1Nbit1err) ≠ 0 then
      cf.orData 2 (canErrProtTx ||| canErrProtBit1)
    else cf
  if bdiag1 &&& (bdiag1Dbit0err ||| bdiag1Nbit0err) ≠ 0 then
    cf.orData 2 (canErrProtTx ||| canErrProtBit0)
  else cf

/-- `mcp251xfd_get_tx_nr_by_addr`. -/
def getTxNrByAddr (ring : TxRing) (addr : UInt16) : Option UInt8 :=
  if addr < getTxObjAddr ring 0 ∨ getTxObjAddr ring ring.objNum ≤ addr then none
  else some (UInt8.ofNat ((addr - getTxObjAddr ring 0).toNat / ring.objSize.toNat))

def eccCntMax : ℤ := 2

variable {σ : Type}

namespace Driver
variable (d : Driver σ)

/-- A message with `len` transfers of one prepared register write. -/
def spiWriteTimes (msg : UInt16 × List UInt8) : ℕ → DrvM σ Unit
  | 0 => pure ()
  | len + 1 => do
    d.env.spiWrite msg.1 msg.2
    spiWriteTimes msg len

def checkTefTail : DrvM σ Unit := do
  if !d.env.board.sanity then return
  let tefUa ← d.regmapRead regTefua
  let p ← DrvM.priv
  if UInt8.ofNat (tefUa.toNat / tefObjSize) ≠ getTefTail p.tef p.txd.tx then throw (-eilseq)

def checkRxTail (ring : RxRing) : DrvM σ Unit := do
  if !d.env.board.sanity then return
  let fifoUa ← d.regmapRead (regFifoua ring.fifoNr)
  let offset := fifoUa - (ring.base.toUInt32 - ramStart.toUInt32)
  if UInt8.ofNat (offset.toNat / ring.objSize.toNat) ≠ getRxTail ring then throw (-eilseq)

/-- FIFOCI of a FIFO. -/
def fifociGet (fifo : UInt8) : DrvM σ UInt8 :=
  return (fifostaFifoci.get (← d.regmapRead (regFifosta fifo))).toUInt8

def txTailGetFromChip : DrvM σ UInt8 := d.fifociGet txFifo

def rxHeadGetFromChip (ring : RxRing) : DrvM σ UInt8 := d.fifociGet ring.fifoNr

def handleTefifRecover : DrvM σ Unit := do
  let tefSta ← d.regmapRead regTefsta
  if tefSta &&& tefstaTefovif ≠ 0 then throw (-enobufs)
  throw (-eagain)

def handleTefifOne (hwTefObj : HwTefObj) : DrvM σ Unit := do
  let p ← DrvM.priv
  if seqMasked (objFlagsSeqMcp2518fd.get hwTefObj.flags) ≠ seqMasked p.tef.tail then
    d.handleTefifRecover
  else
    let idx := (getTefTail p.tef p.txd.tx).toNat
    d.env.note (.getEchoSkb idx hwTefObj.ts)
    DrvM.modifyPriv fun p =>
      { p with
        tef := { p.tef with tail := p.tef.tail + 1 }
        txd := { p.txd with echoSkb := Function.update p.txd.echoSkb idx none } }

def tefRingUpdate : DrvM σ Unit := do
  let chipTxTail ← d.txTailGetFromChip
  DrvM.modifyPriv fun p => { p with tef := Mcp251xfd.tefRingUpdate p.tef p.txd.tx chipTxTail }
  d.checkTefTail

def tefObjRead (offset len : UInt8) : DrvM σ (List HwTefObj) := do
  let tx := (← DrvM.priv).txd.tx
  if TxPath.tefObjRange d.env.board.sanity tx offset.toNat len.toNat then throw (-erange)
  let data ← d.regmapBulkRead Regmaps.mapRx (getTefObjAddr offset) (tefObjSize * len.toNat)
  return parseTefObjs data len.toNat

/-- The loop over the TEF objects: the number of those that were handled. -/
def handleTefObjs : List HwTefObj → DrvM σ ℕ
  | [] => return 0
  | obj :: objs => do
    match ← DrvM.attempt (d.handleTefifOne obj) with
    | .ok _ => return (← handleTefObjs objs) + 1
    | .error err => if err = -eagain then return 0 else throw err

def handleTefif : DrvM σ Unit := do
  d.tefRingUpdate
  let p ← DrvM.priv
  let len := getTefLen p.tef
  let l := getTefLinearLen p.tef p.txd.tx
  let hwTefObj ← d.tefObjRead (getTefTail p.tef p.txd.tx) l
  let rest ← if l < len then d.tefObjRead 0 (len - l) else pure []
  let len ← d.handleTefObjs (hwTefObj ++ rest)
  if len ≠ 0 then
    d.spiWriteTimes (cmdPrepareWriteReg regTefcon tefconUinc tefconUinc) len
    DrvM.modifyPriv fun p =>
      { p with
        txd := { p.txd with tx := { p.txd.tx with tail := p.txd.tx.tail + UInt32.ofNat len } } }
    d.checkTefTail
  DrvM.modifyPriv fun p => { p with ecc := { p.ecc with eccStat := 0 } }
  if getTxFree (← DrvM.priv).txd.tx ≠ 0 then
    d.env.note .netifWakeQueue
    DrvM.modifyPriv fun p => { p with txd := { p.txd with stopped := false } }

def handleRxifOne (hwRxObj : HwRxObj) : DrvM σ Unit := do
  let err ← DrvM.access (d.env.call (.allocSkb (hwRxObj.flags &&& objFlagsFdf ≠ 0)))
  if err ≠ 0 then return
  d.env.note (.queueSorted (.can (d.env.board.dlc.rxSkb hwRxObj)) hwRxObj.ts)

def handleRxObjs : List HwRxObj → DrvM σ Unit
  | [] => return
  | obj :: objs => do
    d.handleRxifOne obj
    handleRxObjs objs

/-- The loop of `mcp251xfd_handle_rxif_ring`: each round lowers the length, a `u8`, so that 256
rounds are never all used. -/
def rxifRounds (ring : RxRing) : ℕ → DrvM σ Unit
  | 0 => return
  | rounds + 1 => do
    let len := getRxLinearLen ring
    if len = 0 then return
    let data ← d.regmapBulkRead Regmaps.mapRx (getRxObjAddr ring (getRxTail ring))
      (len.toNat * ring.objSize.toNat)
    d.handleRxObjs ((List.range len.toNat).map (parseRxObj data ring.objSize.toNat))
    d.spiWriteTimes (cmdPrepareWriteReg (regFifocon ring.fifoNr) fifoconUinc fifoconUinc) len.toNat
    let ring := { ring with tail := ring.tail + len.toUInt32 }
    DrvM.modifyPriv fun p => { p with rx := some ring }
    rxifRounds ring rounds

def rxRingUpdate (ring : RxRing) : DrvM σ RxRing := do
  let chipRxHead ← d.rxHeadGetFromChip ring
  let ring := Mcp251xfd.rxRingUpdate ring chipRxHead
  DrvM.modifyPriv fun p => { p with rx := some ring }
  d.checkRxTail ring
  return ring

def handleRxifRing (ring : RxRing) : DrvM σ Unit := do
  d.rxifRounds (← d.rxRingUpdate ring) 256

def handleRxif : DrvM σ Unit := forEachRxRing d.handleRxifRing

/-- `mcp251xfd_alloc_can_err_skb`: the time stamp with the frame, if there is one. -/
def allocCanErrSkb : DrvM σ (Option UInt32) := do
  match ← DrvM.attempt (d.regmapRead regTbc) with
  | .error _ => return none
  | .ok timestamp =>
    let err ← DrvM.access (d.env.call .allocCanErrSkb)
    return if err = 0 then some timestamp else none

def handleRxovif : DrvM σ Unit := do
  let rxovif ← d.regmapRead regRxovif
  forEachRxRing fun ring =>
    DrvM.callIf (rxovif &&& (1 <<< ring.fifoNr.toUInt32) ≠ 0)
      (d.regmapUpdateBits (regFifosta ring.fifoNr) fifostaRxovif 0)
  match ← d.allocCanErrSkb with
  | none => return
  | some timestamp =>
    let cf := (ErrFrame.alloc.orId canErrCrtl).setData 1 canErrCrtlRxOverflow
    d.env.note (.queueSorted (.err cf) timestamp)

def handleTxatif : DrvM σ Unit := return

def handleIvmif : DrvM σ Unit := do
  let timestamp ← d.regmapRead regTbc
  let bdiag1 ← d.regmapRead regBdiag1
  d.regmapWrite regBdiag1 0
  let err ← DrvM.access (d.env.call .allocCanErrSkb)
  if err ≠ 0 then return
  d.env.note (.queueSorted (.err (ivmifFrame bdiag1)) timestamp)

/-- `mcp251xfd_handle_cerrif`; `bec` is the initial content of its local `bec`. -/
def handleCerrif (bec : CanBerrCounter) : DrvM σ Unit := do
  let trec ← d.regmapRead regTrec
  let txState := trecTxState trec
  let rxState := trecRxState trec
  let newState := txState.max rxState
  if newState = (← DrvM.priv).canState then return
  let skb ← d.allocCanErrSkb
  DrvM.modifyPriv fun p => { p with canState := newState }
  let cf := canChangeState ErrFrame.alloc txState rxState
  if newState = .busOff then
    let bec ← d.getBerrCounter' (← DrvM.priv).bec
    DrvM.modifyPriv fun p => { p with bec := bec }
    DrvM.ignoreErr (d.chipStop .busOff)
    d.env.note .canBusOff
  match skb with
  | none => return
  | some timestamp =>
    if newState ≠ .busOff then
      let bec ← d.getBerrCounter bec
      let cf := (cf.setData 6 bec.txerr.toUInt8).setData 7 bec.rxerr.toUInt8
      d.env.note (.queueSorted (.err cf) timestamp)
    else
      d.env.note (.queueSorted (.err cf) timestamp)

/-- `mcp251xfd_handle_modif`: returns `set_normal_mode`. -/
def handleModif : DrvM σ Bool := do
  let p ← DrvM.priv
  let mode ← d.chipGetMode
  if mode = p.normalMode then return false
  -- with an ECC error in TX-RAM the object is reloaded before Normal mode is requested
  if p.intf &&& intEccif ≠ 0 then return true
  d.chipSetNormalModeNowait
  return false

def handleSerrif : DrvM σ Unit := return

/-- `mcp251xfd_handle_eccif_recover`. -/
def handleEccifRecover (nr : UInt8) : DrvM σ Unit := do
  let chipTxTail ← d.txTailGetFromChip
  let p ← DrvM.priv
  let tx := p.txd.tx
  let offset := (nr - chipTxTail) &&& (tx.objNum - 1)
  if chipTxTail ≠ getTxTail tx ∨
      ¬ (offset = 0 ∨ (offset = 1 ∧ p.devtypeData.model = .mcp2518fd)) then
    throw (-einval)
  -- reload the object
  let txObj := p.txd.obj nr.toNat
  d.env.spiWrite (txObj.cmd &&& spiAddress)
    ((le32 txObj.hwTxObj.id ++ le32 txObj.hwTxObj.flags ++ txObj.hwTxObj.data.toList).take
      (txObj.xferLen - if p.devtypeData.quirks &&& quirkCrcTx ≠ 0 then 5 else 2))
  d.chipSetNormalMode

/-- `mcp251xfd_handle_eccif`. -/
def handleEccif (setNormalMode : Bool) : DrvM σ Unit := do
  let eccStat ← d.regmapRead regEccstat
  d.regmapUpdateBits regEccstat eccstatIf.mask (~~~eccStat)
  let addr := (eccstatErraddr.get eccStat).toUInt16
  let nr := getTxNrByAddr (← DrvM.priv).txd.tx addr
  if eccStat &&& (eccstatSecif ||| eccstatDedif) = 0 then throw (-einval)
  match nr with
  | none =>
    DrvM.modifyPriv fun p => { p with ecc := { p.ecc with eccStat := 0 } }
    DrvM.callIf setNormalMode d.chipSetNormalModeNowait
  | some nr =>
    DrvM.modifyPriv fun p =>
      { p with
        ecc := if p.ecc.eccStat = eccStat then { p.ecc with cnt := p.ecc.cnt + 1 }
          else ⟨eccStat, 1⟩ }
    if eccCntMax ≤ (← DrvM.priv).ecc.cnt then d.handleEccifRecover nr
    else DrvM.callIf setNormalMode d.chipSetNormalModeNowait

/-- `mcp251xfd_handle_spicrcif`. -/
def handleSpicrcif : DrvM σ Unit := do
  let crc ← d.regmapRead regCrc
  d.regmapUpdateBits regCrc crcIf.mask (~~~crc)

end Driver

end YoctoLayers.Mcp251xfd
