import YoctoLayers.Lib.Buffer
import YoctoLayers.Mcp251xfd.ChipStart

/-! The SPI messages of the driver, byte by byte: the commands of `mcp251xfd.h` and the functions
that put one into a transmit buffer. Buffers hold anything before. The host is little-endian. -/
namespace YoctoLayers.Mcp251xfd
open YoctoLayers.Lib

def spiInstructionRead : UInt16 := 0x3000

/-- `struct spi_transfer`: what is sent. -/
structure SpiTransfer where
  txBuf : List UInt8
  len : ℕ
deriving DecidableEq, Repr

/-- The bytes on the wire. -/
def SpiTransfer.sent (t : SpiTransfer) : List UInt8 := t.txBuf.take t.len

/-- Why no message comes about: `-EINVAL`, or a copy past the end of a buffer. -/
inductive SpiFault
  | einval
  | overrun
deriving DecidableEq, Repr

def sizeofBufCmd : ℕ := 2
def sizeofBufCmdCrc : ℕ := 3
def sizeofCrc : ℕ := 2

/-- `union mcp251xfd_write_reg_buf`: its larger member. -/
abbrev WriteRegBuf := Buffer UInt8 (sizeofBufCmdCrc + 4 + sizeofCrc)

/-- The size of the member of the union that the quirks select. -/
def sizeofWriteReg (quirks : UInt32) : ℕ :=
  if quirks &&& quirkCrcReg ≠ 0 then sizeofBufCmdCrc + 4 + sizeofCrc else sizeofBufCmd + 4

/-- `struct mcp251xfd_map_buf_nocrc`. -/
abbrev MapBufNocrc := Buffer UInt8 (sizeofBufCmd + 256)

/-- `struct mcp251xfd_map_buf_crc`. -/
abbrev MapBufCrc := Buffer UInt8 (sizeofBufCmdCrc + (256 - 4) + sizeofCrc)

def spiCmdReadNocrc (addr : UInt16) : List UInt8 := be16 (spiInstructionRead ||| addr)

def spiCmdWriteNocrc (addr : UInt16) : List UInt8 := be16 (spiInstructionWrite ||| addr)

/-- `__mcp251xfd_spi_cmd_crc_set_len`: words in the RAM, bytes elsewhere. -/
def spiCmdCrcSetLen (len : UInt16) (inRam : Bool) : UInt8 :=
  if inRam then (len >>> 2).toUInt8 else len.toUInt8

/-- `mcp251xfd_spi_cmd_write_crc_set_addr`. -/
def spiCmdWriteCrcSetAddr (addr : UInt16) : List UInt8 := be16 (spiInstructionWriteCrc ||| addr)

def spiCmdWriteCrc (addr len : UInt16) : List UInt8 :=
  spiCmdWriteCrcSetAddr addr ++ [spiCmdCrcSetLen len (regInRam addr)]

namespace Spi

def memcpy {n : ℕ} (buf : Buffer UInt8 n) (off : ℕ) (src : List UInt8) :
    Except SpiFault (Buffer UInt8 n) :=
  match buf.store off src with
  | some buf => .ok buf
  | none => .error .overrun

/-- `mcp251xfd_spi_cmd_write`: the buffer with its command, and where its data begin. -/
def cmdWrite (quirks : UInt32) (buf : WriteRegBuf) (addr : UInt16) :
    Except SpiFault (WriteRegBuf × ℕ) := do
  if quirks &&& quirkCrcReg ≠ 0 then
    return (← memcpy buf 0 (spiCmdWriteCrcSetAddr addr), sizeofBufCmdCrc)
  else
    return (← memcpy buf 0 (spiCmdWriteNocrc addr), sizeofBufCmd)

/-- `mcp251xfd_cmd_prepare_write_reg`. -/
def cmdPrepareWriteReg (quirks : UInt32) (buf : WriteRegBuf) (reg : UInt16) (mask val : UInt32) :
    Except SpiFault SpiTransfer := do
  let firstByte := firstByteSet mask
  let len := lastByteSet mask - firstByte + 1
  let (buf, data) ← cmdWrite quirks buf (reg + UInt16.ofNat firstByte)
  let buf ← memcpy buf data ((le32 (val >>> UInt32.ofNat (8 * firstByte))).take len)
  if quirks &&& quirkCrcReg ≠ 0 then
    let buf ← memcpy buf sizeofBufCmd [spiCmdCrcSetLen (UInt16.ofNat len) false]
    let len := len + sizeofBufCmdCrc
    let crc := crc16Compute (buf.cells.take len)
    let buf ← memcpy buf len (be16 crc)
    return { txBuf := buf.cells, len := len + sizeofCrc }
  else
    return { txBuf := buf.cells, len := len + sizeofBufCmd }

/-- `mcp251xfd_regmap_nocrc_gather_write`. -/
def regmapNocrcGatherWrite (sanity : Bool) (bufTx : MapBufNocrc) (reg val : List UInt8) :
    Except SpiFault SpiTransfer := do
  if sanity ∧ reg.length ≠ sizeofBufCmd then throw .einval
  let bufTx ← memcpy bufTx 0 (reg.take sizeofBufCmd)
  let bufTx ← memcpy bufTx sizeofBufCmd val
  return { txBuf := bufTx.cells, len := sizeofBufCmd + val.length }

/-- `mcp251xfd_regmap_nocrc_write`. -/
def regmapNocrcWrite (data : List UInt8) : Except SpiFault SpiTransfer :=
  return { txBuf := data, len := data.length }

/-- How `mcp251xfd_regmap_nocrc_update_bits` writes, after the read if there is one: `orig` are
the bytes from the first that the mask touches. -/
def regmapNocrcUpdateBits (bufTx : MapBufNocrc) (reg : UInt16) (mask val orig : UInt32) :
    Except SpiFault SpiTransfer := do
  let firstByte := firstByteSet mask
  let len := lastByteSet mask - firstByte + 1
  let mask := mask >>> UInt32.ofNat (8 * firstByte)
  let val := val >>> UInt32.ofNat (8 * firstByte)
  let tmp := (orig &&& ~~~mask) ||| (val &&& mask)
  let bufTx ← memcpy bufTx 0 (spiCmdWriteNocrc (reg + UInt16.ofNat firstByte))
  let bufTx ← memcpy bufTx sizeofBufCmd ((le32 tmp).take len)
  return { txBuf := bufTx.cells, len := sizeofBufCmd + len }

/-- The register that regmap passes to the bus with CRC, in the byte order of the host. -/
def getLe16 (regP : List UInt8) : UInt16 :=
  (regP.getD 0 0).toUInt16 ||| (regP.getD 1 0).toUInt16 <<< 8

/-- `pad_bits / BITS_PER_BYTE` of the map with CRC. -/
def padBytes : ℕ := 2

/-- `mcp251xfd_regmap_crc_gather_write`. -/
def regmapCrcGatherWrite (sanity : Bool) (bufTx : MapBufCrc) (regP val : List UInt8) :
    Except SpiFault SpiTransfer := do
  if sanity ∧ regP.length ≠ sizeofBufCmd + padBytes then throw .einval
  let reg := getLe16 regP
  let bufTx ← memcpy bufTx 0 (spiCmdWriteCrc reg (UInt16.ofNat val.length))
  let bufTx ← memcpy bufTx sizeofBufCmdCrc val
  let crc := crc16Compute (bufTx.cells.take (sizeofBufCmdCrc + val.length))
  let bufTx ← memcpy bufTx (sizeofBufCmdCrc + val.length) (be16 crc)
  return { txBuf := bufTx.cells, len := sizeofBufCmdCrc + val.length + sizeofCrc }

/-- `mcp251xfd_regmap_crc_write`. -/
def regmapCrcWrite (sanity : Bool) (bufTx : MapBufCrc) (data : List UInt8) :
    Except SpiFault SpiTransfer :=
  let dataOffset := sizeofBufCmd + padBytes
  regmapCrcGatherWrite sanity bufTx (data.take dataOffset) (data.drop dataOffset)

end Spi

/-- `cpu_to_be16`. -/
def cpuToBe16 (x : UInt16) : UInt16 := x <<< 8 ||| x >>> 8

/-- `regmap_set_work_buf_flag_mask` of the regmap core, which is not in the repository: the bytes
of the mask from its lowest on. -/
def setWorkBufFlagMask (buf : List UInt8) (mask : UInt16) : List UInt8 :=
  buf.mapIdx fun i b => b ||| (mask >>> UInt16.ofNat (8 * i)).toUInt8

/-- The register as the regmap core has it in its work buffer when it writes. It follows what is
documented for `reg_format_endian_default`, `write_flag_mask` and `pad_bits`: big-endian with the
flags, or in the byte order of the host with padding. -/
def workBufReg : MapKind → UInt16 → List UInt8
  | .nocrc, reg => setWorkBufFlagMask (be16 reg) (cpuToBe16 spiInstructionWrite)
  | .crc, reg => [reg.toUInt8, (reg >>> 8).toUInt8] ++ List.replicate Spi.padBytes 0

/-- `mcp251xfd_reg_table_yes_range`. -/
def regTableYesRange : List (ℕ × ℕ) := [(0x000, 0x2ec), (0x400, 0xbfc), (0xe00, 0xe14)]

def regWriteable (reg : ℕ) : Prop := ∃ range ∈ regTableYesRange, range.1 ≤ reg ∧ reg ≤ range.2

instance (reg : ℕ) : Decidable (regWriteable reg) :=
  inferInstanceAs (Decidable (∃ range ∈ regTableYesRange, range.1 ≤ reg ∧ reg ≤ range.2))

/-- A block that regmap agrees to write: whole words at writeable registers. -/
structure RegmapBlock (addr : UInt16) (data : List UInt8) : Prop where
  stride : addr.toNat % 4 = 0
  words : data.length % 4 = 0
  pos : 0 < data.length
  writeable : ∀ i < data.length / 4, regWriteable (addr.toNat + 4 * i)

end YoctoLayers.Mcp251xfd
