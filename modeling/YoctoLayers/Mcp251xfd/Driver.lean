import Mathlib.Tactic.IntervalCases
import YoctoLayers.Lib.Errno
import YoctoLayers.Mcp251xfd.Regs
import YoctoLayers.Mcp251xfd.StartXmit

/-! What the functions of `mcp251xfd-core.c` run on: the driver's private data, the kernel
functions it calls, and the SPI bus with the controller on it. A function that returns an
error code is a program that throws it. -/
namespace YoctoLayers.Mcp251xfd
open YoctoLayers.Lib

inductive CanState
  | errorActive
  | errorWarning
  | errorPassive
  | busOff
  | stopped
deriving DecidableEq, Repr

/-- The values of `enum can_state`. -/
def CanState.toNat : CanState → ℕ
  | .errorActive => 0
  | .errorWarning => 1
  | .errorPassive => 2
  | .busOff => 3
  | .stopped => 4

def CanState.max (a b : CanState) : CanState := if a.toNat ≤ b.toNat then b else a

def canCtrlmodeLoopback : UInt32 := 0x01
def canCtrlmodeListenonly : UInt32 := 0x02
def canCtrlmodeOneShot : UInt32 := 0x08
def canCtrlmodeBerrReporting : UInt32 := 0x10
def canCtrlmodeFd : UInt32 := 0x20
def canCtrlmodeFdNonIso : UInt32 := 0x80

structure CanBittiming where
  brp : UInt32
  propSeg : UInt32
  phaseSeg1 : UInt32
  phaseSeg2 : UInt32
  sjw : UInt32
deriving DecidableEq, Repr

structure CanBerrCounter where
  txerr : UInt16
  rxerr : UInt16
deriving DecidableEq, Repr

/-- An error frame: `can_id` and the eight data bytes. -/
structure ErrFrame where
  canId : UInt32
  data : Vector UInt8 8
deriving DecidableEq, Repr

inductive Frame
  | can (skb : Skb)
  | err (cf : ErrFrame)
deriving DecidableEq, Repr

inductive Model
  | mcp2517fd
  | mcp2518fd
  | mcp251xfd
deriving DecidableEq, Repr

structure DevtypeData where
  quirks : UInt32
  model : Model
deriving DecidableEq, Repr

def devtypeDataMcp2517fd : DevtypeData where
  quirks := quirkMabNoWarn ||| quirkCrcReg ||| quirkCrcRx ||| quirkCrcTx ||| quirkEcc
  model := .mcp2517fd

def devtypeDataMcp2518fd : DevtypeData where
  quirks := quirkCrcReg ||| quirkCrcRx ||| quirkCrcTx ||| quirkEcc
  model := .mcp2518fd

def devtypeDataMcp251xfd : DevtypeData where
  quirks := quirkCrcReg ||| quirkCrcRx ||| quirkCrcTx ||| quirkEcc
  model := .mcp251xfd

/-- The two register maps of `mcp251xfd-regmap.c`. -/
inductive MapKind
  | nocrc
  | crc
deriving DecidableEq, Repr

/-- One map: whether it exists, and its two buffers. -/
structure MapState where
  map : Bool
  bufRx : Bool
  bufTx : Bool
deriving DecidableEq, Repr

structure Regmaps where
  nocrc : MapState
  crc : MapState
  mapReg : Option MapKind
  mapRx : Option MapKind
deriving DecidableEq, Repr

structure Ecc where
  eccStat : UInt32
  cnt : ℤ
deriving DecidableEq, Repr

/-- `struct mcp251xfd_priv`, as far as functions change it. -/
structure Priv where
  canState : CanState
  ctrlmode : UInt32
  bittiming : CanBittiming
  dataBittiming : CanBittiming
  /-- `ndev->flags & IFF_UP`. -/
  iffUp : Bool
  regmaps : Regmaps
  tef : TefRing
  txd : TxDriver
  rx : Option RxRing
  ecc : Ecc
  /-- `regs_status.intf`. -/
  intf : UInt32
  /-- `priv->rx_int` has been put back. -/
  rxIntPut : Bool
  regVdd : Bool
  regXceiver : Bool
  devtypeData : DevtypeData
  bec : CanBerrCounter
  spiMaxSpeedHzOrig : UInt32

inductive Supply
  | vdd
  | xceiver
deriving DecidableEq, Repr

/-- The handlers that the macro `mcp251xfd_handle` calls. -/
inductive Handler
  | rxif
  | modif
  | tefif
  | rxovif
  | txatif
  | ivmif
  | serrif
  | eccif
  | spicrcif
  | cerrif
deriving DecidableEq, Repr

/-- Calls out of the driver. `handle` marks the start of an interrupt handler. -/
inductive KernelCall
  | gpiodGetOptional
  | gpiodPut
  | regulatorGetOptional (supply : Supply)
  | clkGet
  | allocCandev
  | freeCandev
  | spiSetup
  | regmapInit (kind : MapKind)
  | kzalloc
  | kfree
  | rxOffloadAdd
  | rxOffloadDel
  | rxOffloadEnable
  | rxOffloadDisable
  | clkPrepareEnable
  | clkDisableUnprepare
  | regulatorEnable (supply : Supply)
  | regulatorDisable (supply : Supply)
  | pmRuntimeGetNoresume
  | pmRuntimeSetActive
  | pmRuntimeEnable
  | pmRuntimeDisable
  | pmRuntimeGetSync
  | pmRuntimePut
  | pmRuntimePutNoidle
  | registerCandev
  | unregisterCandev
  | openCandev
  | closeCandev
  | requestIrq
  | freeIrq
  | netifStartQueue
  | netifStopQueue
  | netifWakeQueue
  | getEchoSkb (idx : ℕ) (ts : UInt32)
  | allocSkb (isCanfd : Bool)
  | allocCanErrSkb
  | queueSorted (frame : Frame) (ts : UInt32)
  | canBusOff
  | handle (handler : Handler)
deriving DecidableEq

/-- What the device tree, the kernel configuration and the board fix. -/
structure Board where
  /-- `spi->irq`. -/
  irq : Bool
  /-- The node has `microchip,rx-int`. -/
  rxInt : Bool
  /-- `clk_get_rate`. -/
  freq : UInt32
  /-- Of `device_get_match_data` or `spi_get_device_id`. -/
  devtypeData : DevtypeData
  /-- `SPI_CONTROLLER_HALF_DUPLEX`. -/
  halfDuplex : Bool
  /-- `CONFIG_CAN_MCP251XFD_SANITY`. -/
  sanity : Bool
  dlc : DlcHelpers

/-- The outside of the driver, with a state of its own that every access may change. -/
structure Env (σ : Type) where
  board : Board
  /-- A register read without CRC: error code and received bytes. -/
  read : UInt16 → ℕ → σ → (ℤ × List UInt8) × σ
  /-- A register read with CRC: error code, received bytes and received CRC. -/
  readCrc : UInt16 → ℕ → σ → (ℤ × List UInt8 × UInt16) × σ
  write : UInt16 → List UInt8 → σ → ℤ × σ
  reset : σ → ℤ × σ
  /-- How many further reads fit into the time-out when a register is polled. -/
  polls : UInt16 → σ → ℕ × σ
  /-- `gpiod_get_value_cansleep(priv->rx_int)`. -/
  rxPending : σ → Bool × σ
  call : KernelCall → σ → ℤ × σ

structure World (σ : Type) where
  env : σ
  priv : Priv
  /-- `spi->max_speed_hz`. -/
  maxSpeedHz : UInt32
  /-- The register writes: address and bytes. -/
  writes : List (UInt16 × List UInt8)

/-- A function of the driver. -/
abbrev DrvM (σ : Type) := EStateM ℤ (World σ)

variable {σ α : Type}

namespace DrvM

/-- `if (err) return err`. -/
def check (err : ℤ) : DrvM σ Unit := if err = 0 then pure () else throw err

def priv : DrvM σ Priv := return (← get).priv

def modifyPriv (f : Priv → Priv) : DrvM σ Unit := modify fun w => { w with priv := f w.priv }

/-- One access to the outside. -/
def access (f : σ → α × σ) : DrvM σ α :=
  modifyGet fun w =>
    let (a, s) := f w.env
    (a, { w with env := s })

/-- The error code as a value. -/
def attempt (x : DrvM σ α) : DrvM σ (Except ℤ α) :=
  tryCatch (return .ok (← x)) fun err => return .error err

/-- A call whose error code the caller ignores. -/
def ignoreErr (x : DrvM σ α) : DrvM σ Unit :=
  tryCatch (do let _ ← x) fun _ => pure ()

/-- A `goto` label: `undo` runs when a step of `x` fails. -/
def onError (undo : DrvM σ Unit) (x : DrvM σ α) : DrvM σ α :=
  tryCatch x fun err => do
    undo
    throw err

/-- A call under a condition. -/
def callIf (c : Bool) (x : DrvM σ Unit) : DrvM σ Unit := if c then x else pure ()

end DrvM

namespace Env
variable (env : Env σ)

def invoke (c : KernelCall) : DrvM σ Unit := do DrvM.check (← DrvM.access (env.call c))

/-- A call without a result, or whose result nothing looks at. -/
def note (c : KernelCall) : DrvM σ Unit := do let _ ← DrvM.access (env.call c)

/-- A write of `data` from register `reg` on. -/
def spiWrite (reg : UInt16) (data : List UInt8) : DrvM σ Unit := do
  modify fun w => { w with writes := w.writes ++ [(reg, data)] }
  DrvM.check (← DrvM.access (env.write reg data))

def spiRead (reg : UInt16) (len : ℕ) : DrvM σ (List UInt8) := do
  let (err, data) ← DrvM.access (env.read reg len)
  DrvM.check err
  return data

def spiReset : DrvM σ Unit := do DrvM.check (← DrvM.access env.reset)

end Env

/-- The little-endian word at the start of a buffer. -/
def getLe32 (data : List UInt8) : UInt32 :=
  (data.getD 0 0).toUInt32 ||| (data.getD 1 0).toUInt32 <<< 8 |||
    (data.getD 2 0).toUInt32 <<< 16 ||| (data.getD 3 0).toUInt32 <<< 24

theorem length_le32 (x : UInt32) : (le32 x).length = 4 := rfl

theorem testBit_byte_of_ge (b : UInt8) {j : ℕ} (hj : 8 ≤ j) : b.toNat.testBit j = false :=
  Nat.testBit_lt_two_pow (b.toNat_lt.trans_le (Nat.pow_le_pow_right (by decide) hj))

/-- A byte moved up by `8 * k` bits. -/
theorem testBit_byte_shiftLeft (b : UInt8) {k : ℕ} (hk : k < 4) (i : ℕ) :
    (b.toUInt32 <<< UInt32.ofNat (8 * k)).toNat.testBit i =
      (decide (i < 32) && (decide (i / 8 = k) && b.toNat.testBit (i % 8))) := by
  have hshift : 8 * k % 2 ^ 32 % 32 = 8 * k := by omega
  rw [UInt32.toNat_shiftLeft, UInt32.toNat_ofNat', hshift, UInt8.toNat_toUInt32,
    Nat.testBit_mod_two_pow, Nat.testBit_shiftLeft]
  congr 1
  by_cases hlow : 8 * k ≤ i
  · by_cases hsame : i / 8 = k
    · have hrest : i - 8 * k = i % 8 := by omega
      simp [hlow, hsame, hrest]
    · simp [hsame, testBit_byte_of_ge b (show 8 ≤ i - 8 * k by omega)]
  · have hne : i / 8 ≠ k := by omega
    simp [hlow, hne]

theorem testBit_getLe32 (data : List UInt8) {i : ℕ} (hi : i < 32) :
    (getLe32 data).toNat.testBit i = (data.getD (i / 8) 0).toNat.testBit (i % 8) := by
  have hb (b : UInt8) {k : ℕ} (hk : k < 4) := testBit_byte_shiftLeft b hk i
  have h0 := hb (data.getD 0 0) (show 0 < 4 by decide)
  have h1 := hb (data.getD 1 0) (show 1 < 4 by decide)
  have h2 := hb (data.getD 2 0) (show 2 < 4 by decide)
  have h3 := hb (data.getD 3 0) (show 3 < 4 by decide)
  simp only [UInt32.reduceOfNat, Nat.reduceMul, UInt32.shiftLeft_zero, hi, decide_true,
    Bool.true_and] at h0 h1 h2 h3
  unfold getLe32
  rw [testBit_or, testBit_or, testBit_or, h0, h1, h2, h3]
  have hk : i / 8 < 4 := by omega
  generalize i / 8 = k at hk ⊢
  interval_cases k <;> simp

theorem testBit_le32 (x : UInt32) {k j : ℕ} (hk : k < 4) (hj : j < 8) :
    ((le32 x).getD k 0).toNat.testBit j = x.toNat.testBit (8 * k + j) := by
  have hbyte : (le32 x).getD k 0 = (x >>> UInt32.ofNat (8 * k)).toUInt8 := by
    interval_cases k
    · simp [le32]
    · rfl
    · rfl
    · rfl
  have hshift : 8 * k % 2 ^ 32 % 32 = 8 * k := by omega
  rw [hbyte, UInt32.toNat_toUInt8, UInt32.toNat_shiftRight, UInt32.toNat_ofNat', hshift,
    Nat.testBit_mod_two_pow, Nat.testBit_shiftRight]
  simp [hj]

theorem getLe32_le32 (x : UInt32) : getLe32 (le32 x) = x := by
  apply eq_of_testBit
  intro i
  by_cases hi : i < 32
  · rw [testBit_getLe32 _ hi, testBit_le32 x (by omega) (by omega)]
    congr 1
    omega
  · rw [testBit_of_ge _ (Nat.le_of_not_lt hi), testBit_of_ge _ (Nat.le_of_not_lt hi)]

end YoctoLayers.Mcp251xfd
