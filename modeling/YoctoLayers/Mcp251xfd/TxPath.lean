import YoctoLayers.Lib.Errno
import YoctoLayers.Mcp251xfd.StartXmit

/-! The whole transmit path: `mcp251xfd_start_xmit` and `mcp251xfd_handle_tefif` side by side,
one read or write of a shared variable at a time, and the controller between them. -/
namespace YoctoLayers.Mcp251xfd
open YoctoLayers.Lib

structure HwTefObj where
  id : UInt32
  flags : UInt32
  ts : UInt32
deriving DecidableEq, Repr

/-- The transmit side of the controller. The counters count since `mcp251xfd_ring_init`. -/
structure TxChip where
  txRam : ℕ → HwTxObjRaw
  tefRam : ℕ → HwTefObj
  /-- Load and RTS messages carried out. -/
  written : ℕ
  /-- TX objects sent; FIFOCI is the index of the next one. -/
  sent : ℕ
  /-- Objects that are sent and whose TEF object is still to be written. -/
  pending : List HwTxObjRaw
  /-- TEF objects written. -/
  events : ℕ
  /-- TEF tail increments. -/
  tefTail : ℕ
  tefovif : Bool

/-- Where `mcp251xfd_start_xmit` is. `head` is a value read earlier, `txHead` the index of the
TX object and of the echo slot. -/
inductive XmitPc
  | idle
  /-- `mcp251xfd_tx_busy`: head and tail are read, ... -/
  | freeHead (skb : Skb)
  | freeTail (skb : Skb) (head : UInt32)
  /-- ... the queue is stopped, head and tail are read again, ... -/
  | stop (skb : Skb)
  | recheckHead (skb : Skb)
  | recheckTail (skb : Skb) (head : UInt32)
  /-- ... and the queue is started. -/
  | start (skb : Skb)
  | load (skb : Skb)
  | advance (skb : Skb) (txHead : ℕ)
  | fullHead (skb : Skb) (txHead : ℕ)
  | fullTail (skb : Skb) (txHead : ℕ) (head : UInt32)
  | stopFull (skb : Skb) (txHead : ℕ)
  | echo (skb : Skb) (txHead : ℕ)
  | submit (skb : Skb) (txHead : ℕ)

/-- Where `mcp251xfd_handle_tefif` is, or what it last returned. -/
inductive TefifPc
  | idle (ret : ℤ)
  | update
  | head (chipTxTail : UInt8)
  | checkTail
  /-- The objects in `hw_tef_obj` so far, out of `len`, the first `l` from the tail on. -/
  | read (len l : ℕ) (hw : List HwTefObj)
  | one (hw : List HwTefObj) (i : ℕ)
  | uinc (len : ℕ)
  | tail (len : ℕ)
  | checkUinc
  | freeHead
  | freeTail (head : UInt32)
  | wake

/-- What `can_rx_offload_get_echo_skb` was called with and found. -/
structure Echo where
  idx : ℕ
  skb : Option Skb
  ts : UInt32
deriving DecidableEq, Repr

structure TxPath where
  drv : TxDriver
  tef : TefRing
  txPackets : ℕ
  txBytes : ℕ
  xmit : XmitPc
  tefif : TefifPc
  /-- The TX objects whose messages `spi_async` has queued. -/
  spi : List ℕ
  chip : TxChip
  /-- The frames accepted by `spi_async`. -/
  frames : List Skb
  /-- The completions. -/
  echoes : List Echo
  /-- The completions when `mcp251xfd_handle_tefif` last returned. -/
  finished : ℕ

inductive TxPathEvent
  /-- `mcp251xfd_start_xmit` is called. -/
  | startXmit (skb : Skb)
  /-- Its next step. -/
  | xmit
  /-- `mcp251xfd_handle_tefif` is called. -/
  | handleTefif
  /-- Its next step. -/
  | tefif
  /-- A queued message is transferred. -/
  | transfer
  /-- The controller sends a frame. -/
  | send
  /-- The controller writes a TEF object. -/
  | event (obj : HwTefObj)

namespace TxPath
variable (K : DlcHelpers) (quirkCrcTx sanity : Bool)

/-- One step of `mcp251xfd_start_xmit`, `spi_async` succeeding. -/
def xmitNext (s : TxPath) : Option TxPath :=
  let d := s.drv
  match s.xmit with
  | .idle => none
  | .freeHead skb => some { s with xmit := .freeTail skb d.tx.head }
  | .freeTail skb head =>
    if 0 < getTxFree { d.tx with head := head } then some { s with xmit := .load skb }
    else some { s with xmit := .stop skb }
  | .stop skb => some { s with drv := { d with stopped := true }, xmit := .recheckHead skb }
  | .recheckHead skb => some { s with xmit := .recheckTail skb d.tx.head }
  | .recheckTail skb head =>
    -- `NETDEV_TX_BUSY`: the stack keeps the frame
    if getTxFree { d.tx with head := head } = 0 then some { s with xmit := .idle }
    else some { s with xmit := .start skb }
  | .start skb => some { s with drv := { d with stopped := false }, xmit := .load skb }
  | .load skb =>
    let txHead := (getTxHead d.tx).toNat
    let txObj := K.txObjFromSkb quirkCrcTx (d.obj txHead) skb d.tx.head
    some { s with
      drv := { d with obj := Function.update d.obj txHead txObj }
      xmit := .advance skb txHead }
  | .advance skb txHead =>
    some { s with
      drv := { d with tx := { d.tx with head := d.tx.head + 1 } }
      xmit := .fullHead skb txHead }
  | .fullHead skb txHead => some { s with xmit := .fullTail skb txHead d.tx.head }
  | .fullTail skb txHead head =>
    if d.tx.objNum.toUInt32 ≤ head - d.tx.tail then some { s with xmit := .stopFull skb txHead }
    else some { s with xmit := .echo skb txHead }
  | .stopFull skb txHead =>
    some { s with drv := { d with stopped := true }, xmit := .echo skb txHead }
  | .echo skb txHead =>
    some { s with drv := d.canPutEchoSkb skb txHead, xmit := .submit skb txHead }
  | .submit skb txHead =>
    some { s with xmit := .idle, spi := s.spi ++ [txHead], frames := s.frames ++ [skb] }

/-- `mcp251xfd_handle_tefif` returns. -/
def ret (s : TxPath) (err : ℤ) : TxPath :=
  { s with tefif := .idle err, finished := s.echoes.length }

/-- The index that `mcp251xfd_tef_tail_get_from_chip` reads. -/
def tefTailChip (s : TxPath) : ℕ := s.chip.tefTail % s.drv.tx.slots

/-- `mcp251xfd_check_tef_tail` finds a difference. -/
def tefTailDiffers (s : TxPath) : Bool :=
  sanity && s.tefTailChip != (getTefTail s.tef s.drv.tx).toNat

/-- The check of `mcp251xfd_tef_obj_read` fails. -/
def tefObjRange (tx : TxRing) (offset len : ℕ) : Bool :=
  sanity && (tx.slots < offset || tx.slots < len || tx.slots < offset + len)

/-- `mcp251xfd_handle_tefif_one` with the right sequence number. -/
def getEchoSkb (s : TxPath) (obj : HwTefObj) : TxPath :=
  let idx := (getTefTail s.tef s.drv.tx).toNat
  let skb := s.drv.echoSkb idx
  { s with
    drv := { s.drv with echoSkb := Function.update s.drv.echoSkb idx none }
    tef := { s.tef with tail := s.tef.tail + 1 }
    txPackets := s.txPackets + 1
    txBytes := s.txBytes + (skb.map fun skb => skb.cfd.len.toNat).getD 0
    echoes := s.echoes ++ [⟨idx, skb, obj.ts⟩] }

/-- One step of `mcp251xfd_handle_tefif`, SPI transfers succeeding. -/
def tefifNext (s : TxPath) : Option TxPath :=
  let tx := s.drv.tx
  match s.tefif with
  | .idle _ => none
  | .update => some { s with tefif := .head (UInt8.ofNat (s.chip.sent % tx.slots)) }
  | .head chipTxTail =>
    some { s with tef := tefRingUpdate s.tef tx chipTxTail, tefif := .checkTail }
  | .checkTail =>
    let len := (getTefLen s.tef).toNat
    let l := (getTefLinearLen s.tef tx).toNat
    if s.tefTailDiffers sanity then some (s.ret (-eilseq))
    else if tefObjRange sanity tx (getTefTail s.tef tx).toNat l then some (s.ret (-erange))
    else some { s with tefif := .read len l [] }
  | .read len l hw =>
    if hw.length < l then
      let obj := s.chip.tefRam ((getTefTail s.tef tx).toNat + hw.length)
      some { s with tefif := .read len l (hw ++ [obj]) }
    else if hw.length < len then
      if hw.length = l ∧ tefObjRange sanity tx 0 (len - l) then some (s.ret (-erange))
      else some { s with tefif := .read len l (hw ++ [s.chip.tefRam (hw.length - l)]) }
    else some { s with tefif := .one hw 0 }
  | .one hw i =>
    match hw[i]? with
    | none => some { s with tefif := .uinc i }
    | some obj =>
      if seqMasked (objFlagsSeqMcp2518fd.get obj.flags) = seqMasked s.tef.tail then
        some { s.getEchoSkb obj with tefif := .one hw (i + 1) }
      -- `mcp251xfd_handle_tefif_recover`
      else if s.chip.tefovif then some (s.ret (-enobufs))
      else some { s with tefif := .uinc i }
  | .uinc len =>
    if len = 0 then some { s with tefif := .freeHead }
    else
      some { s with
        chip := { s.chip with tefTail := s.chip.tefTail + len }
        tefif := .tail len }
  | .tail len =>
    some { s with
      drv := { s.drv with tx := { tx with tail := tx.tail + UInt32.ofNat len } }
      tefif := .checkUinc }
  | .checkUinc =>
    if s.tefTailDiffers sanity then some (s.ret (-eilseq)) else some { s with tefif := .freeHead }
  | .freeHead => some { s with tefif := .freeTail tx.head }
  | .freeTail head =>
    if getTxFree { tx with head := head } = 0 then some (s.ret 0)
    else some { s with tefif := .wake }
  | .wake => some ({ s with drv := { s.drv with stopped := false } }.ret 0)

/-- The controller takes the next message: load, UINC and TXREQ. -/
def transfer (s : TxPath) : Option TxPath :=
  match s.spi with
  | [] => none
  | slot :: rest =>
    some { s with
      spi := rest
      chip := { s.chip with
        txRam := Function.update s.chip.txRam slot (s.drv.obj slot).hwTxObj
        written := s.chip.written + 1 } }

def send (s : TxPath) : Option TxPath :=
  if s.chip.sent < s.chip.written then
    some { s with
      chip := { s.chip with
        pending := s.chip.pending ++ [s.chip.txRam (s.chip.sent % s.drv.tx.slots)]
        sent := s.chip.sent + 1 } }
  else none

/-- A TEF object: the id of the frame and at least seven bits of its sequence number. -/
def event (s : TxPath) (obj : HwTefObj) : Option TxPath :=
  match s.chip.pending with
  | [] => none
  | hw :: rest =>
    if obj.id = hw.id ∧ seqMasked (objFlagsSeqMcp2518fd.get obj.flags) =
        seqMasked (objFlagsSeqMcp2518fd.get hw.flags) then
      if s.chip.events - s.chip.tefTail < s.drv.tx.slots then
        some { s with
          chip := { s.chip with
            pending := rest
            tefRam := Function.update s.chip.tefRam (s.chip.events % s.drv.tx.slots) obj
            events := s.chip.events + 1 } }
      else some { s with chip := { s.chip with pending := rest, tefovif := true } }
    else none

def step (s : TxPath) : TxPathEvent → Option TxPath
  | .startXmit skb =>
    match s.xmit with
    | .idle => some { s with xmit := .freeHead skb }
    | _ => none
  | .xmit => s.xmitNext K quirkCrcTx
  | .handleTefif =>
    -- TEFIF is pending, and no earlier error has switched the interrupts off
    match s.tefif with
    | .idle ret =>
      if ret = 0 ∧ s.chip.tefTail < s.chip.events then some { s with tefif := .update } else none
    | _ => none
  | .tefif => s.tefifNext sanity
  | .transfer => s.transfer
  | .send => s.send
  | .event obj => s.event obj

/-- `mcp251xfd_ring_init`; the RAM is zeroed when the controller starts. -/
def init (tx : TxRing) (obj : ℕ → TxObj) : TxPath where
  drv := { tx := txRingInit tx, obj := obj, echoSkb := fun _ => none, stopped := false }
  tef := tefRingInit
  txPackets := 0
  txBytes := 0
  xmit := .idle
  tefif := .idle 0
  spi := []
  chip :=
    { txRam := fun _ => ⟨0, 0, Vector.replicate 64 0⟩, tefRam := fun _ => ⟨0, 0, 0⟩, written := 0
      sent := 0, pending := [], events := 0, tefTail := 0, tefovif := false }
  frames := []
  echoes := []
  finished := 0

end TxPath

/-- The transmit path from `mcp251xfd_ring_init` on. -/
def txPath (K : DlcHelpers) (quirkCrcTx sanity : Bool) (tx : TxRing) (obj : ℕ → TxObj) :
    Sys TxPath TxPathEvent where
  init := TxPath.init tx obj
  step := TxPath.step K quirkCrcTx sanity

end YoctoLayers.Mcp251xfd
