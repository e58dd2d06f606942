import YoctoLayers.Mcp251xfd.Spi

/-! The controller's end of the SPI bus: how it takes a message apart. A message begins with four
bits of instruction and twelve of address; with CRC, the length byte counts words in the RAM and
bytes elsewhere, and the CRC is over everything in front of it. -/
namespace YoctoLayers.Mcp251xfd
open YoctoLayers.Lib

/-- The remainder of the division, bit by bit. -/
def chipCrc (bytes : List UInt8) : UInt16 :=
  ⟨Crc.remainder crc16Poly 0xffff (bytes.map UInt8.toBitVec)⟩

def chipInRam (addr : ℕ) : Bool := 0x400 ≤ addr ∧ addr < 0xc00

/-- The number of bytes that a length byte stands for. -/
def chipCount (addr : ℕ) (len : UInt8) : ℕ := if chipInRam addr then 4 * len.toNat else len.toNat

inductive ChipCommand
  | read (addr : ℕ)
  | readCrc (addr count : ℕ)
  | write (addr : ℕ) (data : List UInt8)
  | writeCrc (addr : ℕ) (data : List UInt8)
deriving DecidableEq, Repr

/-- A message whose first two bytes are `head`. -/
def chipCommand (instr addr : ℕ) (head rest : List UInt8) : Option ChipCommand :=
  match instr, rest with
  | 0x2, data => some (.write addr data)
  | 0x3, _ => some (.read addr)
  | 0xa, len :: rest =>
    let data := rest.take (chipCount addr len)
    let crc := rest.drop (chipCount addr len)
    if data.length = chipCount addr len ∧ crc = be16 (chipCrc (head ++ [len] ++ data)) then
      some (.writeCrc addr data)
    else none
  | 0xb, len :: _ => some (.readCrc addr (chipCount addr len))
  | _, _ => none

/-- What the controller does with a message; nothing when it is not one of its format. -/
def chipDecode : List UInt8 → Option ChipCommand
  | b₀ :: b₁ :: rest =>
    chipCommand (b₀.toNat / 16) (b₀.toNat % 16 * 256 + b₁.toNat) [b₀, b₁] rest
  | _ => none

theorem chipCrc_eq (bytes : List UInt8) : chipCrc bytes = crc16Compute bytes := by
  apply UInt16.toBitVec_inj.mp
  rw [crc16Compute, crc16_eq_remainder]
  rfl

theorem toNat_shiftRight_eight (x : UInt16) : (x >>> 8).toNat = x.toNat / 256 := by
  rw [UInt16.toNat_shiftRight]
  exact Nat.shiftRight_eq_div_pow x.toNat 8

/-- The two bytes of an instruction and an address. -/
theorem chipDecode_command {addr : UInt16} (haddr : addr.toNat < 4096) (instr : Fin 16)
    (rest : List UInt8) :
    chipDecode (be16 (UInt16.ofNat (4096 * instr) ||| addr) ++ rest) =
      chipCommand instr addr.toNat (be16 (UInt16.ofNat (4096 * instr) ||| addr)) rest := by
  have hinstr := instr.isLt
  have hword : (UInt16.ofNat (4096 * instr) ||| addr).toNat = 4096 * instr + addr.toNat := by
    rw [UInt16.toNat_or, UInt16.toNat_ofNat', Nat.mod_eq_of_lt (by omega)]
    exact (Nat.two_pow_add_eq_or_of_lt (i := 12) haddr instr).symm
  generalize UInt16.ofNat (4096 * instr) ||| addr = word at hword ⊢
  have hhigh : (word >>> 8).toUInt8.toNat = word.toNat / 256 := by
    rw [UInt16.toNat_toUInt8, toNat_shiftRight_eight]
    omega
  have hlow : word.toUInt8.toNat = word.toNat % 256 := UInt16.toNat_toUInt8 word
  change chipCommand ((word >>> 8).toUInt8.toNat / 16)
    ((word >>> 8).toUInt8.toNat % 16 * 256 + word.toUInt8.toNat) (be16 word) rest = _
  rw [hhigh, hlow, hword]
  congr 1 <;> omega

theorem chipDecode_writeNocrc {addr : UInt16} (haddr : addr.toNat < 4096) (data : List UInt8) :
    chipDecode (spiCmdWriteNocrc addr ++ data) = some (.write addr.toNat data) :=
  chipDecode_command haddr 2 data

theorem chipDecode_readNocrc {addr : UInt16} (haddr : addr.toNat < 4096) (data : List UInt8) :
    chipDecode (spiCmdReadNocrc addr ++ data) = some (.read addr.toNat) :=
  chipDecode_command haddr 3 data

theorem chipCommand_writeCrc {addr : ℕ} {len : UInt8} {data : List UInt8} (head : List UInt8)
    (hcount : chipCount addr len = data.length) :
    chipCommand 0xa addr head (len :: (data ++ be16 (crc16Compute (head ++ [len] ++ data)))) =
      some (.writeCrc addr data) := by
  have hdata (crc : List UInt8) : (data ++ crc).take data.length = data := List.take_left' rfl
  have hcrc (crc : List UInt8) : (data ++ crc).drop data.length = crc := List.drop_left' rfl
  unfold chipCommand
  simp [hcount, hdata, hcrc, chipCrc_eq]

/-- A write whose length byte stands for its data and that ends with their CRC. -/
theorem chipDecode_writeCrc {addr : UInt16} (haddr : addr.toNat < 4096) {len : UInt8}
    {data : List UInt8} (hcount : chipCount addr.toNat len = data.length) :
    chipDecode (spiCmdWriteCrcSetAddr addr ++ [len] ++ data ++
      be16 (crc16Compute (spiCmdWriteCrcSetAddr addr ++ [len] ++ data))) =
      some (.writeCrc addr.toNat data) := by
  have hdecode := chipDecode_command haddr 10
    (len :: (data ++ be16 (crc16Compute (spiCmdWriteCrcSetAddr addr ++ [len] ++ data))))
  have hcommand := chipCommand_writeCrc (spiCmdWriteCrcSetAddr addr) hcount
  simp only [List.append_assoc, List.singleton_append] at hdecode hcommand ⊢
  exact hdecode.trans hcommand

theorem chipDecode_readCrc {addr : UInt16} (haddr : addr.toNat < 4096) (len : ℕ)
    (rest : List UInt8) :
    chipDecode (spiCmdReadCrc addr len ++ rest) = some (.readCrc addr.toNat
      (chipCount addr.toNat
        (if regInRam addr then UInt8.ofNat (len / 4) else UInt8.ofNat len))) := by
  have hdecode := chipDecode_command haddr 11
    ((if regInRam addr then UInt8.ofNat (len / 4) else UInt8.ofNat len) :: rest)
  rw [spiCmdReadCrc, List.append_assoc]
  exact hdecode

end YoctoLayers.Mcp251xfd
