import YoctoLayers.Mcp251xfd.Driver

/-! Register access: `mcp251xfd-regmap.c` and, around it, the parts of the kernel's regmap core
that the driver calls. The core is not in the repository: what stands for it here follows its
documented behaviour, with the values of the driver's `regmap_config` and `regmap_bus`.
`mcp251xfd_regmap_crc_read` differs between the modified driver and `mcp251xfd.orig`, so the other
functions take it as a parameter. -/
namespace YoctoLayers.Mcp251xfd
open YoctoLayers.Lib

variable {σ : Type}

def spiInstructionReadCrc : UInt16 := 0xb000

/-- `mcp251xfd_reg_in_ram`. -/
def regInRam (reg : UInt16) : Bool := ramStart ≤ reg ∧ reg ≤ ramStart + 2048 - 4

/-- `mcp251xfd_spi_cmd_read_crc`. -/
def spiCmdReadCrc (addr : UInt16) (len : ℕ) : List UInt8 :=
  be16 (spiInstructionReadCrc ||| addr) ++
    [if regInRam addr then UInt8.ofNat (len / 4) else UInt8.ofNat len]

def readCrcRetriesMax : ℕ := 3

namespace Env
variable (env : Env σ)

/-- `mcp251xfd_regmap_crc_read_one`: the error code and what is in the receive buffer. -/
def regmapCrcReadOne (reg : UInt16) (len : ℕ) : DrvM σ (ℤ × List UInt8) := do
  let (err, data, crcReceived) ← DrvM.access (env.readCrc reg len)
  if err ≠ 0 then return (err, data)
  if crcReceived ≠ crc16Compute2 (spiCmdReadCrc reg len) data then return (-ebadmsg, data)
  return (0, data)

/-- The retry loop of `mcp251xfd_regmap_crc_read`, with no data when every try is bad. -/
def regmapCrcReadTries (reg : UInt16) (len : ℕ) : ℕ → DrvM σ (Option (List UInt8))
  | 0 => return none
  | tries + 1 => do
    let (err, data) ← env.regmapCrcReadOne reg len
    if err = 0 then return some data
    else if err ≠ -ebadmsg then throw err
    -- the chip may be asleep or missing: the caller looks at the value
    else if reg = regOsc then return some data
    else regmapCrcReadTries reg len tries

/-- The label `crc_reread` of the modified driver, `rereads` jumps to it being left. -/
def regmapCrcReread (reg : UInt16) (len : ℕ) : ℕ → DrvM σ (List UInt8)
  | 0 => do
    match ← env.regmapCrcReadTries reg len readCrcRetriesMax with
    | some data => return data
    | none => throw (-ebadmsg)
  | rereads + 1 => do
    match ← env.regmapCrcReadTries reg len readCrcRetriesMax with
    | some data => return data
    | none => regmapCrcReread reg len rereads

end Env

namespace Fork

/-- `mcp251xfd_regmap_crc_read` of the modified driver. -/
def regmapCrcRead (env : Env σ) (reg : UInt16) (len : ℕ) : DrvM σ (List UInt8) :=
  env.regmapCrcReread reg len 2

end Fork

namespace Orig

/-- `mcp251xfd_regmap_crc_read` of `mcp251xfd.orig`. -/
def regmapCrcRead (env : Env σ) (reg : UInt16) (len : ℕ) : DrvM σ (List UInt8) := do
  match ← env.regmapCrcReadTries reg len readCrcRetriesMax with
  | some data => return data
  | none => throw (-ebadmsg)

end Orig

/-- The outside together with one of the two `mcp251xfd_regmap_crc_read`. -/
structure Bus (σ : Type) where
  env : Env σ
  crcRead : UInt16 → ℕ → DrvM σ (List UInt8)

/-- The pieces in which the regmap core transfers `len` bytes, their offsets and lengths: as many
as `max_raw_read` or `max_raw_write` allows at a time, as these are documented. -/
def rawChunks (maxRaw len : ℕ) : List (ℕ × ℕ) :=
  (List.range (len / maxRaw)).map (fun i => (i * maxRaw, maxRaw)) ++
    if len % maxRaw = 0 then [] else [(len / maxRaw * maxRaw, len % maxRaw)]

/-- `max_raw_read` and `max_raw_write` of the two buses. -/
def MapKind.maxRaw : MapKind → ℕ
  | .nocrc => 256
  | .crc => 252

namespace Bus
variable (bus : Bus σ)

/-- The map that a map pointer of the private data points to. -/
def deref (map : Regmaps → Option MapKind) : DrvM σ MapKind := do
  match map (← DrvM.priv).regmaps with
  | some kind => return kind
  -- a NULL pointer: nothing is transferred
  | none => throw (-efault)

def busRead (kind : MapKind) (reg : UInt16) (len : ℕ) : DrvM σ (List UInt8) :=
  match kind with
  | .nocrc => bus.env.spiRead reg len
  | .crc => bus.crcRead reg len

/-- `regmap_read` on `map_reg`, of the regmap core. -/
def regmapRead (reg : UInt16) : DrvM σ UInt32 := do
  let kind ← deref Regmaps.mapReg
  return getLe32 (← bus.busRead kind reg 4)

/-- `regmap_write` on `map_reg`, of the regmap core. -/
def regmapWrite (reg : UInt16) (val : UInt32) : DrvM σ Unit := do
  let _ ← deref Regmaps.mapReg
  bus.env.spiWrite reg (le32 val)

/-- `mcp251xfd_regmap_nocrc_update_bits`. -/
def regmapNocrcUpdateBits (reg : UInt16) (mask val : UInt32) : DrvM σ Unit := do
  if bus.env.board.sanity ∧ mask = 0 then throw (-einval)
  let firstByte := firstByteSet mask
  let len := lastByteSet mask - firstByte + 1
  let addr := reg + UInt16.ofNat firstByte
  let orig ← if updateBitsReadReg reg then getLe32 <$> bus.env.spiRead addr len else pure 0
  let mask := mask >>> UInt32.ofNat (8 * firstByte)
  let val := val >>> UInt32.ofNat (8 * firstByte)
  bus.env.spiWrite addr ((le32 ((orig &&& ~~~mask) ||| (val &&& mask))).take len)

/-- The regmap core's read-modify-write for a bus without `reg_update_bits`. As documented for
`regmap_update_bits`, only a changed word is written. -/
def regmapGenericUpdateBits (reg : UInt16) (mask val : UInt32) : DrvM σ Unit := do
  let orig := getLe32 (← bus.crcRead reg 4)
  let tmp := (orig &&& ~~~mask) ||| (val &&& mask)
  DrvM.callIf (tmp ≠ orig) (bus.env.spiWrite reg (le32 tmp))

/-- `regmap_update_bits` on `map_reg`: only the map without CRC has a `reg_update_bits`. -/
def regmapUpdateBits (reg : UInt16) (mask val : UInt32) : DrvM σ Unit := do
  match ← deref Regmaps.mapReg with
  | .nocrc => bus.regmapNocrcUpdateBits reg mask val
  | .crc => bus.regmapGenericUpdateBits reg mask val

def rawReadChunks (kind : MapKind) (reg : UInt16) : List (ℕ × ℕ) → DrvM σ (List UInt8)
  | [] => return []
  | (offset, len) :: chunks => do
    let data ← bus.busRead kind (reg + UInt16.ofNat offset) len
    return data ++ (← rawReadChunks kind reg chunks)

/-- `regmap_bulk_read` of `len` bytes, of the regmap core: piece by piece, each at its register. -/
def regmapBulkRead (map : Regmaps → Option MapKind) (reg : UInt16) (len : ℕ) :
    DrvM σ (List UInt8) := do
  let kind ← deref map
  if len = 0 then throw (-einval)
  bus.rawReadChunks kind reg (rawChunks kind.maxRaw len)

def rawWriteChunks (reg : UInt16) (data : List UInt8) : List (ℕ × ℕ) → DrvM σ Unit
  | [] => pure ()
  | (offset, len) :: chunks => do
    bus.env.spiWrite (reg + UInt16.ofNat offset) ((data.drop offset).take len)
    rawWriteChunks reg data chunks

/-- `regmap_raw_write` on `map_reg`, of the regmap core. -/
def regmapRawWrite (reg : UInt16) (data : List UInt8) : DrvM σ Unit := do
  let kind ← deref Regmaps.mapReg
  bus.rawWriteChunks reg data (rawChunks kind.maxRaw data.length)

/-- The loop of `regmap_read_poll_timeout`, a macro of the regmap core, with at most `reads` reads
left. As documented: the error code of the read or of the time-out, and the last value. -/
def regmapPoll (reg : UInt16) (cond : UInt32 → Bool) : ℕ → UInt32 → DrvM σ (ℤ × UInt32)
  | 0, val => return (-etimedout, val)
  | reads + 1, val => do
    match ← DrvM.attempt (bus.regmapRead reg) with
    | .error err => return (err, val)
    | .ok val =>
      if cond val then return (0, val)
      regmapPoll reg cond reads val

/-- `regmap_read_poll_timeout`, as the regmap core documents it: one read before the time-out is
looked at, one after it, and in between as many as the outside has time for. -/
def regmapReadPollTimeout (reg : UInt16) (cond : UInt32 → Bool) (val : UInt32) :
    DrvM σ (ℤ × UInt32) := do
  let reads ← DrvM.access (bus.env.polls reg)
  bus.regmapPoll reg cond (reads + 2) val

end Bus

namespace Regmaps

def get (r : Regmaps) : MapKind → MapState
  | .nocrc => r.nocrc
  | .crc => r.crc

def set (r : Regmaps) (kind : MapKind) (m : MapState) : Regmaps :=
  match kind with
  | .nocrc => { r with nocrc := m }
  | .crc => { r with crc := m }

end Regmaps

namespace Env
variable (env : Env σ)

def modifyMap (kind : MapKind) (f : MapState → MapState) : DrvM σ Unit :=
  DrvM.modifyPriv fun p => { p with regmaps := p.regmaps.set kind (f (p.regmaps.get kind)) }

/-- `mcp251xfd_regmap_init_nocrc` and `mcp251xfd_regmap_init_crc`: the map becomes that of the
registers or of the RAM where `usesReg` or `usesRx` says so. -/
def regmapInitMap (kind : MapKind) (usesReg usesRx : UInt32 → Bool) : DrvM σ Unit := do
  if !((← DrvM.priv).regmaps.get kind).map then
    env.invoke (.regmapInit kind)
    modifyMap kind fun m => { m with map := true }
  if !((← DrvM.priv).regmaps.get kind).bufRx then
    DrvM.check (if (← DrvM.access (env.call .kzalloc)) = 0 then 0 else -enomem)
    modifyMap kind fun m => { m with bufRx := true }
  if !((← DrvM.priv).regmaps.get kind).bufTx then
    DrvM.check (if (← DrvM.access (env.call .kzalloc)) = 0 then 0 else -enomem)
    modifyMap kind fun m => { m with bufTx := true }
  DrvM.modifyPriv fun p =>
    let r := p.regmaps
    let r := if usesReg p.devtypeData.quirks then { r with mapReg := some kind } else r
    let r := if usesRx p.devtypeData.quirks then { r with mapRx := some kind } else r
    { p with regmaps := r }

def regmapInitNocrc : DrvM σ Unit :=
  env.regmapInitMap .nocrc (fun q => q &&& quirkCrcReg = 0) (fun q => q &&& quirkCrcRx = 0)

def regmapInitCrc : DrvM σ Unit :=
  env.regmapInitMap .crc (fun q => q &&& quirkCrcReg ≠ 0) (fun q => q &&& quirkCrcRx ≠ 0)

/-- `mcp251xfd_regmap_destroy_nocrc` and `mcp251xfd_regmap_destroy_crc`. -/
def regmapDestroyMap (kind : MapKind) : DrvM σ Unit := do
  let m := (← DrvM.priv).regmaps.get kind
  DrvM.callIf m.bufRx (env.note .kfree)
  DrvM.callIf m.bufTx (env.note .kfree)
  modifyMap kind fun m => { m with bufRx := false, bufTx := false }

def regmapDestroyNocrc : DrvM σ Unit := env.regmapDestroyMap .nocrc

def regmapDestroyCrc : DrvM σ Unit := env.regmapDestroyMap .crc

/-- `mcp251xfd_regmap_init`. -/
def regmapInit : DrvM σ Unit := do
  let quirks := (← DrvM.priv).devtypeData.quirks
  if quirks &&& quirkCrcReg = 0 ∨ quirks &&& quirkCrcRx = 0 then env.regmapInitNocrc
  else env.regmapDestroyNocrc
  if quirks &&& quirkCrcReg ≠ 0 ∨ quirks &&& quirkCrcRx ≠ 0 then env.regmapInitCrc
  else env.regmapDestroyCrc

end Env

end YoctoLayers.Mcp251xfd
