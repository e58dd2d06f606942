import YoctoLayers.Mcp251xfd.Handlers

/-! The interrupt service routine `mcp251xfd_irq`. -/
namespace YoctoLayers.Mcp251xfd
open YoctoLayers.Lib

/-- Where `mcp251xfd_irq` returns; `handled` stands for `handled == IRQ_HANDLED`. -/
inductive IrqExit
  /-- Nothing is pending. -/
  | done (handled : Bool)
  /-- The controller is in Bus Off. -/
  | busOff
  /-- `out_fail`. -/
  | fail (err : ℤ) (handled : Bool)
deriving DecidableEq, Repr

/-- What one round of the main loop comes to. -/
inductive IrqRound
  | nothingPending
  | busOff
  | handled
deriving DecidableEq, Repr

/-- The flags of INT that are set and enabled. -/
def intfPending (intf : UInt32) : UInt32 := intIf.get intf &&& intIe.get intf

variable {σ : Type}

namespace Driver
variable (d : Driver σ)

/-- The macro `mcp251xfd_handle`. -/
def handle {α : Type} (irq : Handler) (handler : DrvM σ α) : DrvM σ α := do
  d.env.note (.handle irq)
  handler

/-- `if (intf_pending & flag)` around a handler. -/
def handleIf (intf flag : UInt32) (irq : Handler) (handler : DrvM σ Unit) : DrvM σ Unit :=
  DrvM.callIf (intf &&& flag ≠ 0) (d.handle irq handler)

/-- First ACK then handle: writes `0` to clear the pending flags and `1` to all others. -/
def irqAck (intf : UInt32) : DrvM σ Unit :=
  DrvM.callIf (intf &&& intIfClearable ≠ 0)
    (d.regmapUpdateBits regInt intIf.mask (~~~(intf &&& intIfClearable)))

/-- The handlers that run before the look at the CAN state. -/
def irqHandlers (intf : UInt32) : DrvM σ Unit := do
  let setNormalMode ←
    if intf &&& intModif ≠ 0 then d.handle .modif d.handleModif else pure false
  d.handleIf intf intRxif .rxif d.handleRxif
  d.handleIf intf intTefif .tefif d.handleTefif
  d.handleIf intf intRxovif .rxovif d.handleRxovif
  d.handleIf intf intTxatif .txatif handleTxatif
  d.handleIf intf intIvmif .ivmif d.handleIvmif
  d.handleIf intf intSerrif .serrif handleSerrif
  d.handleIf intf intEccif .eccif (d.handleEccif setNormalMode)
  d.handleIf intf intSpicrcif .spicrcif d.handleSpicrcif

/-- The pending flags, INT having been read into `regs_status`. -/
def irqPending : DrvM σ UInt32 := do
  let intf := getLe32 (← d.regmapBulkRead Regmaps.mapReg regInt 4)
  DrvM.modifyPriv fun p => { p with intf := intf }
  return intfPending intf

/-- ACK and handlers, `intf` being the pending flags. -/
def irqHandle (bec : CanBerrCounter) (intf : UInt32) : DrvM σ IrqRound := do
  d.irqAck intf
  d.irqHandlers intf
  let state := (← DrvM.priv).canState
  if intf &&& intCerrif ≠ 0 ∨ CanState.errorActive.toNat < state.toNat then
    d.handle .cerrif (d.handleCerrif bec)
    return if (← DrvM.priv).canState = .busOff then .busOff else .handled
  else return .handled

/-- One round of the main loop. -/
def irqRound (bec : CanBerrCounter) : DrvM σ IrqRound := do
  let intf ← d.irqPending
  if intf = 0 then return .nothingPending
  d.irqHandle bec intf

/-- The main loop; `none` when `rounds` are not enough. -/
def irqLoop (bec : CanBerrCounter) : ℕ → Bool → DrvM σ (Option IrqExit)
  | 0, _ => return none
  | rounds + 1, handled => do
    match ← DrvM.attempt (d.irqRound bec) with
    | .error err => return some (.fail err handled)
    | .ok .nothingPending => return some (.done handled)
    | .ok .busOff => return some .busOff
    | .ok .handled => irqLoop bec rounds true

/-- The loop on the `rx_int` line and then the main loop. -/
def irqRxInt (bec : CanBerrCounter) (rounds : ℕ) : ℕ → Bool → DrvM σ (Option IrqExit)
  | 0, _ => return none
  | rxRounds + 1, handled => do
    if !(← DrvM.access d.env.rxPending) then d.irqLoop bec rounds handled
    else
      match ← DrvM.attempt (d.handle .rxif d.handleRxif) with
      | .error err => return some (.fail err handled)
      | .ok _ => irqRxInt bec rounds rxRounds true

/-- `mcp251xfd_irq` with at most `rounds` rounds of either loop; `bec` is the content of the
uninitialised local in `mcp251xfd_handle_cerrif`. -/
def irq (bec : CanBerrCounter) (rounds : ℕ) : DrvM σ (Option IrqExit) := do
  let exit ← if ← d.rxInt then d.irqRxInt bec rounds rounds false else d.irqLoop bec rounds false
  match exit with
  | some (.fail _ _) => DrvM.ignoreErr d.chipInterruptsDisable
  | _ => pure ()
  return exit

end Driver

end YoctoLayers.Mcp251xfd
