import YoctoLayers.Lib.Log
import YoctoLayers.Lib.System
import YoctoLayers.Mcp251xfd.Object
import YoctoLayers.Mcp251xfd.TefRing
import Mathlib.Logic.Function.Basic

/-! `mcp251xfd_start_xmit` with submissions that may fail. Each accepted message loads the
RAM slot of its TX object, and its UINC releases the slot the controller's FIFO is at. -/
namespace YoctoLayers.Mcp251xfd
open YoctoLayers.Lib

inductive NetdevTx
  | ok
  | busy
deriving DecidableEq, Repr

/-- What the transmit path of the driver works on. -/
structure TxDriver where
  tx : TxRing
  obj : ℕ → TxObj
  echoSkb : ℕ → Option Skb
  stopped : Bool

namespace TxDriver

/-- `mcp251xfd_tx_busy`, nothing else running. -/
def txBusy (d : TxDriver) : TxDriver × Bool :=
  if 0 < getTxFree d.tx then (d, false)
  else
    let d := { d with stopped := true }
    if getTxFree d.tx = 0 then (d, true) else ({ d with stopped := false }, false)

/-- `can_put_echo_skb`: an occupied slot is kept. -/
def canPutEchoSkb (d : TxDriver) (skb : Skb) (idx : ℕ) : TxDriver :=
  { d with
    echoSkb :=
      if d.echoSkb idx = none then Function.update d.echoSkb idx (some skb) else d.echoSkb }

/-- `tx_ring->head++` and the stop of the queue when the FIFO is full. -/
def advanceHead (d : TxDriver) : TxDriver :=
  let tx := { d.tx with head := d.tx.head + 1 }
  { d with
    tx := tx
    stopped := if tx.objNum.toUInt32 ≤ tx.head - tx.tail then true else d.stopped }

variable (K : DlcHelpers) (quirkCrcTx : Bool)

/-- `mcp251xfd_start_xmit`: `dropped` is `can_dropped_invalid_skb`, `err` the result of
`spi_async`. Also returns the TX object whose message was accepted. -/
def startXmit (d : TxDriver) (skb : Skb) (dropped : Bool) (err : ℤ) :
    TxDriver × NetdevTx × Option ℕ :=
  if dropped then (d, .ok, none)
  else
    match d.txBusy with
    | (d, true) => (d, .busy, none)
    | (d, false) =>
      let txHead := (getTxHead d.tx).toNat
      let txObj := K.txObjFromSkb quirkCrcTx (d.obj txHead) skb d.tx.head
      let d := { d with obj := Function.update d.obj txHead txObj }
      let d := d.advanceHead.canPutEchoSkb skb txHead
      (d, .ok, if err = 0 then some txHead else none)

end TxDriver

/-- The driver and the controller. -/
structure XmitRun where
  drv : TxDriver
  /-- The RAM slots the accepted messages were loaded into. -/
  loads : List ℕ
  /-- The sequence numbers of the accepted messages whose TEF object is not handled. -/
  tef : List UInt32

inductive XmitEvent
  | startXmit (skb : Skb) (dropped : Bool) (err : ℤ)
  /-- `mcp251xfd_handle_tefif` handles the TEF object of one frame. -/
  | complete

variable (K : DlcHelpers) (quirkCrcTx : Bool)

/-- The lower seven bits, which `mcp251xfd_handle_tefif_one` compares. -/
def seqMasked (seq : UInt32) : UInt32 := seq &&& objFlagsSeqMcp2517fd.low

def xmitStep (s : XmitRun) : XmitEvent → Option XmitRun
  | .startXmit skb dropped err =>
    match s.drv.startXmit K quirkCrcTx skb dropped err with
    | (drv, _, none) => some { s with drv := drv }
    | (drv, _, some slot) =>
      some { drv := drv, loads := s.loads ++ [slot], tef := s.tef ++ [s.drv.tx.head] }
  | .complete =>
    match s.tef with
    | [] => none
    | seq :: rest =>
      if seqMasked seq = seqMasked s.drv.tx.tail then
        some { s with
          drv := { s.drv with
            tx := { s.drv.tx with tail := s.drv.tx.tail + 1 }
            echoSkb := Function.update s.drv.echoSkb (getTxTail s.drv.tx).toNat none
            stopped := false }
          tef := rest }
      else none

def xmitInit (tx : TxRing) (obj : ℕ → TxObj) : XmitRun :=
  { drv := { tx := txRingInit tx, obj := obj, echoSkb := fun _ => none, stopped := false }
    loads := []
    tef := [] }

def xmitRuns (tx : TxRing) (obj : ℕ → TxObj) : Sys XmitRun XmitEvent where
  init := xmitInit tx obj
  step := xmitStep K quirkCrcTx

/-- The head is where the controller's FIFO will write next, and every message was loaded
into the slot that its UINC released. -/
structure HeadInStep (s : XmitRun) : Prop where
  head : s.drv.tx.head.toNat % s.drv.tx.slots = s.loads.length % s.drv.tx.slots
  slot : ∀ k slot, s.loads[k]? = some slot → slot = k % s.drv.tx.slots

/-- The call comes to `spi_async`, and that fails. -/
def SubmitFails (s : XmitRun) : XmitEvent → Prop
  | .startXmit _ dropped err => dropped = false ∧ getTxFree s.drv.tx ≠ 0 ∧ err ≠ 0
  | .complete => False

/-- What is promised of one step: head and FIFO stay in step, and a failed submission gives
the ring space and the echo slot back. -/
structure XmitOk (s : XmitRun) (e : XmitEvent) (t : XmitRun) : Prop where
  head : HeadInStep t
  failed : SubmitFails s e →
    getTxFree t.drv.tx = getTxFree s.drv.tx ∧ t.drv.echoSkb = s.drv.echoSkb

namespace TxDriver
variable {K quirkCrcTx}

/-- `mcp251xfd_tx_busy` without interference. -/
theorem txBusy_eq (d : TxDriver) :
    d.txBusy = if getTxFree d.tx = 0 then ({ d with stopped := true }, true) else (d, false) := by
  unfold txBusy
  by_cases h : getTxFree d.tx = 0
  · simp [h]
  · have hpos : 0 < getTxFree d.tx := by
      rw [UInt8.lt_iff_toNat_lt]
      exact Nat.pos_of_ne_zero fun h0 => h (UInt8.toNat_inj.mp h0)
    simp [h, hpos]

variable (K quirkCrcTx)

/-- A call that does not come to the submission changes at most the queue state. -/
theorem startXmit_of_not_reached {d : TxDriver} (skb : Skb) {dropped : Bool} (err : ℤ)
    (h : dropped = true ∨ getTxFree d.tx = 0) :
    ∃ stopped r,
      d.startXmit K quirkCrcTx skb dropped err = ({ d with stopped := stopped }, r, none) := by
  unfold startXmit
  cases dropped with
  | true => exact ⟨d.stopped, .ok, rfl⟩
  | false =>
    have hfree : getTxFree d.tx = 0 := h.resolve_left (by decide)
    rw [txBusy_eq, if_pos hfree]
    exact ⟨true, .busy, rfl⟩

/-- A call that comes to the submission moves the head, whatever `spi_async` says. -/
theorem startXmit_of_reached {d : TxDriver} (skb : Skb) (err : ℤ) (h : getTxFree d.tx ≠ 0) :
    ∃ d', d.startXmit K quirkCrcTx skb false err =
      (d', .ok, if err = 0 then some (d.tx.head.toNat % d.tx.slots) else none) ∧
        d'.tx = { d.tx with head := d.tx.head + 1 } := by
  unfold startXmit
  rw [txBusy_eq, if_neg h, ← toNat_getTxHead]
  exact ⟨_, rfl, rfl⟩

end TxDriver

theorem getTxFree_advance_ne (tx : TxRing) :
    getTxFree { tx with head := tx.head + 1 } ≠ getTxFree tx := by
  have hsub : tx.objNum.toUInt32 - (tx.head + 1 - tx.tail) =
      tx.objNum.toUInt32 - (tx.head - tx.tail) - 1 := by grind
  have hfree : getTxFree { tx with head := tx.head + 1 } = getTxFree tx - 1 := by
    rw [getTxFree, getTxFree, hsub, UInt32.toUInt8_sub]
    rfl
  rw [hfree]
  grind

theorem toNat_succ_mod (tx : TxRing) :
    (tx.head + 1).toNat % tx.slots = (tx.head.toNat + 1) % tx.slots := by
  have hdvd := tx.pow2.dvd_wrap
  rw [TxRing.toNat_objNum32] at hdvd
  rw [UInt32.toNat_add]
  exact Nat.mod_mod_of_dvd _ hdvd

theorem xmitInit_inStep (tx : TxRing) (obj : ℕ → TxObj) : HeadInStep (xmitInit tx obj) :=
  ⟨rfl, fun k slot h => by simp [xmitInit] at h⟩

variable {K quirkCrcTx}

/-- What one step can do to the head and the messages. -/
theorem xmitStep_cases {s t : XmitRun} {e : XmitEvent} (h : xmitStep K quirkCrcTx s e = some t) :
    (¬ SubmitFails s e ∧ t.loads = s.loads ∧ t.drv.tx.head = s.drv.tx.head ∧
      t.drv.tx.slots = s.drv.tx.slots) ∨
    (¬ SubmitFails s e ∧ t.loads = s.loads ++ [s.drv.tx.head.toNat % s.drv.tx.slots] ∧
      t.drv.tx = { s.drv.tx with head := s.drv.tx.head + 1 }) ∨
    (SubmitFails s e ∧ t.drv.tx = { s.drv.tx with head := s.drv.tx.head + 1 }) := by
  cases e with
  | complete =>
    left
    simp only [xmitStep] at h
    split at h
    · cases h
    · split_ifs at h
      cases h
      exact ⟨id, rfl, rfl, rfl⟩
  | startXmit skb dropped err =>
    by_cases hreach : dropped = true ∨ getTxFree s.drv.tx = 0
    · obtain ⟨stopped, r, hx⟩ :=
        TxDriver.startXmit_of_not_reached K quirkCrcTx skb err hreach
      simp only [xmitStep, hx, Option.some.injEq] at h
      subst h
      refine Or.inl ⟨fun hf => ?_, rfl, rfl, rfl⟩
      rcases hreach with hd | hfree
      · simp [hd, SubmitFails] at hf
      · exact hf.2.1 hfree
    · obtain ⟨hd, hfree⟩ := not_or.mp hreach
      have hd : dropped = false := by simpa using hd
      subst hd
      obtain ⟨d', hx, hd'⟩ :=
        TxDriver.startXmit_of_reached K quirkCrcTx skb err hfree
      by_cases herr : err = 0
      · simp only [xmitStep, hx, if_pos herr, Option.some.injEq] at h
        subst h
        exact Or.inr (Or.inl ⟨fun hf => hf.2.2 herr, rfl, hd'⟩)
      · simp only [xmitStep, hx, if_neg herr, Option.some.injEq] at h
        subst h
        exact Or.inr (Or.inr ⟨⟨rfl, hfree, herr⟩, hd'⟩)

theorem xmitStep_inStep {s t : XmitRun} {e : XmitEvent} (hs : HeadInStep s)
    (h : xmitStep K quirkCrcTx s e = some t) (hok : ¬ SubmitFails s e) : HeadInStep t := by
  rcases xmitStep_cases h with ⟨-, hl, hh, hn⟩ | ⟨-, hl, htx⟩ | ⟨hf, -⟩
  · exact ⟨by rw [hl, hh, hn, hs.head], fun k slot hk => by rw [hn]; exact hs.slot k slot (hl ▸ hk)⟩
  · have hn : t.drv.tx.slots = s.drv.tx.slots := by rw [htx]; rfl
    refine ⟨?_, fun k slot hk => ?_⟩
    · rw [hn, hl, htx, toNat_succ_mod, Nat.add_mod, hs.head, ← Nat.add_mod]
      simp
    · rw [hl] at hk
      rcases getElem?_concat hk with hold | ⟨rfl, rfl⟩
      · rw [hn]
        exact hs.slot k slot hold
      · rw [hn, hs.head]
  · exact absurd hf hok

/-- Runs keep head and FIFO in step, and give failed submissions back what they took, exactly
when no submission fails. -/
theorem startXmit_run_ok_iff (K : DlcHelpers) (quirkCrcTx : Bool) (tx : TxRing) (obj : ℕ → TxObj)
    (es : List XmitEvent) :
    (xmitRuns K quirkCrcTx tx obj).Along XmitOk (xmitInit tx obj) es ↔
      (xmitRuns K quirkCrcTx tx obj).Along (fun s e _ => ¬ SubmitFails s e) (xmitInit tx obj) es :=
  Sys.along_iff (I := HeadInStep)
    (fun {s e t} hs h => by
      constructor
      · intro hok hf
        rcases xmitStep_cases h with ⟨hn, -⟩ | ⟨hn, -⟩ | ⟨-, htx⟩
        · exact hn hf
        · exact hn hf
        · have hfree := (hok.failed hf).1
          rw [htx] at hfree
          exact getTxFree_advance_ne s.drv.tx hfree
      · intro hn
        exact ⟨xmitStep_inStep hs h hn, fun hf => absurd hf hn⟩)
    (fun hs h hn => xmitStep_inStep hs h hn) (xmitInit_inStep tx obj) es

/-- After a submission that fails, the next frame is loaded into slot 1 while its UINC releases
slot 0; the failed frame keeps its ring space and its echo slot. -/
theorem startXmit_fails_out_of_step :
    ∃ s t : XmitRun,
      (xmitRuns kernelDlc false txRingCan fun _ => emptyTxObj).runFrom
          (xmitInit txRingCan fun _ => emptyTxObj) [.startXmit (zeroFrame 1) false (-12)] = some s ∧
      (xmitRuns kernelDlc false txRingCan fun _ => emptyTxObj).runFrom
          (xmitInit txRingCan fun _ => emptyTxObj)
          [.startXmit (zeroFrame 1) false (-12), .startXmit (zeroFrame 2) false 0] = some t ∧
      getTxFree s.drv.tx = 7 ∧ s.drv.echoSkb 0 = some (zeroFrame 1) ∧
      s.drv.tx.head.toNat % 8 = 1 ∧ s.loads.length % 8 = 0 ∧ t.loads = [1] ∧
      ¬ XmitOk (xmitInit txRingCan fun _ => emptyTxObj) (.startXmit (zeroFrame 1) false (-12)) s :=
  ⟨_, _, rfl, rfl, by decide, by decide, by decide, by decide, by decide,
    fun h => absurd h.head.head (by decide)⟩

end YoctoLayers.Mcp251xfd
