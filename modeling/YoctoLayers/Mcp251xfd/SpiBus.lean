import YoctoLayers.Mcp251xfd.Frames

/-! The driver's register access on a controller with a memory, message by message. -/
namespace YoctoLayers.Mcp251xfd
open YoctoLayers.Lib

/-- The memory, and what the controller sends while it takes in a command. -/
structure SpiChip where
  mem : ℕ → UInt8
  idle : ℕ → UInt8

namespace SpiChip

def bytes (c : SpiChip) (addr len : ℕ) : List UInt8 :=
  (List.range len).map fun i => c.mem (addr + i)

def put (c : SpiChip) (addr : ℕ) (data : List UInt8) : SpiChip :=
  { c with
    mem := fun a =>
      if addr ≤ a ∧ a < addr + data.length then data.getD (a - addr) 0 else c.mem a }

/-- What a register holds. -/
def word (c : SpiChip) (reg : UInt16) : UInt32 := getLe32 (c.bytes reg.toNat 4)

def idles (c : SpiChip) (len : ℕ) : List UInt8 := (List.range len).map c.idle

/-- One message: what the controller becomes, and what it sends back meanwhile. -/
def exchange (c : SpiChip) (mosi : List UInt8) : SpiChip × List UInt8 :=
  match chipDecode mosi with
  | some (.read addr) =>
    (c, c.idles sizeofBufCmd ++ c.bytes addr (mosi.length - sizeofBufCmd))
  | some (.readCrc addr count) =>
    let data := c.bytes addr count
    (c, c.idles sizeofBufCmdCrc ++ data ++ be16 (chipCrc (mosi.take sizeofBufCmdCrc ++ data)))
  | some (.write addr data) => (c.put addr data, c.idles mosi.length)
  | some (.writeCrc addr data) => (c.put addr data, c.idles mosi.length)
  | none => (c, c.idles mosi.length)

end SpiChip

/-- `struct spi_transfer` with both buffers: `txBuf` is `none` where the bus is turned around. -/
structure SpiXfer where
  txBuf : Option (List UInt8)
  rxBuf : Bool
  len : ℕ

def SpiXfer.mosi (x : SpiXfer) : List UInt8 :=
  match x.txBuf with
  | some buf => buf.take x.len
  | none => List.replicate x.len 0

/-- What each transfer of a message receives. -/
def received : List UInt8 → List SpiXfer → List (List UInt8)
  | _, [] => []
  | miso, x :: xs => (if x.rxBuf then miso.take x.len else []) :: received (miso.drop x.len) xs

/-- `spi_sync`. -/
def SpiChip.sync (c : SpiChip) (msg : List SpiXfer) : SpiChip × List (List UInt8) :=
  let (c, miso) := c.exchange (msg.flatMap SpiXfer.mosi)
  (c, received miso msg)

namespace Spi

/-- A read: one transfer both ways that clears what it sends behind the command, or on a
half-duplex bus one out and one in. -/
def readXfers (halfDuplex : Bool) (cmd : List UInt8) (len : ℕ) : List SpiXfer :=
  if halfDuplex then [⟨some cmd, false, cmd.length⟩, ⟨none, true, len⟩]
  else [⟨some (cmd ++ List.replicate len 0), true, cmd.length + len⟩]

/-- What arrives behind the command of a read. -/
def readMessage (halfDuplex : Bool) (cmd : List UInt8) (len : ℕ) (c : SpiChip) :
    SpiChip × List UInt8 :=
  let (c, bufs) := c.sync (readXfers halfDuplex cmd len)
  (c, if halfDuplex then bufs.getD 1 [] else (bufs.getD 0 []).drop cmd.length)

/-- `get_unaligned_be16`. -/
def getBe16 (data : List UInt8) : UInt16 :=
  (data.getD 0 0).toUInt16 <<< 8 ||| (data.getD 1 0).toUInt16

/-- The message of a write: without CRC that of `mcp251xfd_regmap_nocrc_update_bits`, with CRC that
of `mcp251xfd_regmap_crc_gather_write`. -/
def writeMessage (sanity : Bool) (bufNocrc : MapBufNocrc) (bufCrc : MapBufCrc) (kind : MapKind)
    (reg : UInt16) (data : List UInt8) : Except SpiFault SpiTransfer :=
  match kind with
  | .nocrc => do
    let bufTx ← memcpy bufNocrc 0 (spiCmdWriteNocrc reg)
    let bufTx ← memcpy bufTx sizeofBufCmd data
    return { txBuf := bufTx.cells, len := sizeofBufCmd + data.length }
  | .crc => regmapCrcGatherWrite sanity bufCrc (workBufReg .crc reg) data

end Spi

/-- A bus on which nothing fails, with the controller `σ` at its end. -/
def Env.onChip (board : Board) (bufNocrc : MapBufNocrc) (bufCrc : MapBufCrc) (kind : MapKind) :
    Env SpiChip where
  board := board
  read reg len c :=
    let (c, data) := Spi.readMessage board.halfDuplex (spiCmdReadNocrc reg) len c
    ((0, data), c)
  readCrc reg len c :=
    let (c, data) :=
      Spi.readMessage board.halfDuplex (spiCmdReadCrc reg len) (len + sizeofCrc) c
    ((0, data.take len, Spi.getBe16 (data.drop len)), c)
  write reg data c :=
    match Spi.writeMessage board.sanity bufNocrc bufCrc kind reg data with
    | .ok t => (0, (c.exchange t.sent).1)
    | .error _ => (-einval, c)
  reset c := (0, c)
  polls _ c := (0, c)
  rxPending c := (false, c)
  call _ c := (0, c)

theorem SpiChip.length_bytes (c : SpiChip) (addr len : ℕ) : (c.bytes addr len).length = len := by
  rw [SpiChip.bytes, List.length_map, List.length_range]

theorem SpiChip.length_idles (c : SpiChip) (len : ℕ) : (c.idles len).length = len := by
  rw [SpiChip.idles, List.length_map, List.length_range]

theorem mosi_readXfers (halfDuplex : Bool) (cmd : List UInt8) (len : ℕ) :
    (Spi.readXfers halfDuplex cmd len).flatMap SpiXfer.mosi = cmd ++ List.replicate len 0 := by
  have hlen : (cmd ++ List.replicate len 0).length = cmd.length + len := by
    rw [List.length_append, List.length_replicate]
  cases halfDuplex
  · simp only [Spi.readXfers, Bool.false_eq_true, if_false, List.flatMap_singleton, SpiXfer.mosi]
    exact List.take_of_length_le hlen.le
  · simp only [Spi.readXfers, if_true, List.flatMap_cons, List.flatMap_nil, SpiXfer.mosi,
      List.take_length, List.append_nil]

/-- Both forms of a read bring what the controller sends behind the command. -/
theorem readMessage_eq (halfDuplex : Bool) {cmd : List UInt8} {len : ℕ} {c c' : SpiChip}
    {head tail : List UInt8} (hhead : head.length = cmd.length) (htail : tail.length = len)
    (h : c.exchange (cmd ++ List.replicate len 0) = (c', head ++ tail)) :
    Spi.readMessage halfDuplex cmd len c = (c', tail) := by
  have hall : (head ++ tail).length = cmd.length + len := by
    rw [List.length_append, hhead, htail]
  unfold Spi.readMessage SpiChip.sync
  rw [mosi_readXfers, h]
  cases halfDuplex
  · simp only [Spi.readXfers, Bool.false_eq_true, if_false, received, if_true, List.getD_cons_zero]
    rw [List.take_of_length_le hall.le, List.drop_left' hhead]
  · simp only [Spi.readXfers, if_true, received, List.getD_cons_succ, List.getD_cons_zero]
    rw [List.drop_left' hhead, List.take_of_length_le htail.le]

theorem getBe16_be16 (x : UInt16) : Spi.getBe16 (be16 x) = x := high_or_low x

section
variable {board : Board} {bufNocrc : MapBufNocrc} {bufCrc : MapBufCrc} {kind : MapKind}

theorem onChip_read {addr : UInt16} (haddr : addr.toNat < 4096) (len : ℕ) (c : SpiChip) :
    (Env.onChip board bufNocrc bufCrc kind).read addr len c = ((0, c.bytes addr.toNat len), c) := by
  have hlen : (spiCmdReadNocrc addr ++ List.replicate len 0).length - sizeofBufCmd = len := by
    rw [List.length_append, List.length_replicate]
    exact Nat.add_sub_cancel_left _ _
  have hexchange : c.exchange (spiCmdReadNocrc addr ++ List.replicate len 0) =
      (c, c.idles sizeofBufCmd ++ c.bytes addr.toNat len) := by
    simp only [SpiChip.exchange, chipDecode_readNocrc haddr, hlen]
  have hmsg := readMessage_eq board.halfDuplex (c.length_idles _) (c.length_bytes _ _) hexchange
  simp only [Env.onChip, hmsg]

/-- A register read with CRC brings a CRC that verifies. -/
theorem onChip_readCrc {reg : UInt16} (hreg : IsRegister reg) (c : SpiChip) :
    (Env.onChip board bufNocrc bufCrc kind).readCrc reg 4 c =
      ((0, c.bytes reg.toNat 4,
        crc16Compute2 (spiCmdReadCrc reg 4) (c.bytes reg.toNat 4)), c) := by
  have hcount : chipCount reg.toNat
      (if regInRam reg then UInt8.ofNat (4 / 4) else UInt8.ofNat 4) = 4 := by
    rw [regInRam_eq hreg.aligned, chipCount, hreg.sfr]
    rfl
  have hdata := c.length_bytes reg.toNat 4
  have hcrc : chipCrc (spiCmdReadCrc reg 4 ++ c.bytes reg.toNat 4) =
      crc16Compute2 (spiCmdReadCrc reg 4) (c.bytes reg.toNat 4) := by
    rw [chipCrc_eq]
    exact List.foldl_append
  have hexchange : c.exchange (spiCmdReadCrc reg 4 ++ List.replicate (4 + sizeofCrc) 0) =
      (c, c.idles sizeofBufCmdCrc ++ (c.bytes reg.toNat 4 ++
        be16 (crc16Compute2 (spiCmdReadCrc reg 4) (c.bytes reg.toNat 4)))) := by
    have htake : (spiCmdReadCrc reg 4 ++ List.replicate (4 + sizeofCrc) 0).take sizeofBufCmdCrc =
        spiCmdReadCrc reg 4 := List.take_left' rfl
    simp only [SpiChip.exchange, chipDecode_readCrc hreg.lt, hcount, htake, hcrc,
      List.append_assoc]
  have hmsg := readMessage_eq board.halfDuplex (c.length_idles sizeofBufCmdCrc) (by
    rw [List.length_append, hdata]
    rfl) hexchange
  simp only [Env.onChip, hmsg, List.take_left' hdata, List.drop_left' hdata, getBe16_be16]

/-- A message that the controller takes for a write changes its memory there. -/
theorem SpiChip.exchange_of_writes {size addr : ℕ} {msg : Except SpiFault SpiTransfer}
    {data : List UInt8} (h : Writes kind size msg addr data) (c : SpiChip) :
    ∃ t, msg = .ok t ∧ (c.exchange t.sent).1 = c.put addr data := by
  obtain ⟨t, hmsg, -, -, -, hdecode⟩ := h
  refine ⟨t, hmsg, ?_⟩
  cases kind <;> simp only [SpiChip.exchange, hdecode, MapKind.command]

theorem onChip_write {addr : UInt16} {data : List UInt8} {size : ℕ}
    (h : Writes kind size (Spi.writeMessage board.sanity bufNocrc bufCrc kind addr data)
      addr.toNat data) (c : SpiChip) :
    (Env.onChip board bufNocrc bufCrc kind).write addr data c = (0, c.put addr.toNat data) := by
  obtain ⟨t, hmsg, hput⟩ := c.exchange_of_writes h
  simp only [Env.onChip, hmsg, hput]

end
end YoctoLayers.Mcp251xfd
