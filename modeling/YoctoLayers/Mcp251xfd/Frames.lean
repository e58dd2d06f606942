import YoctoLayers.Mcp251xfd.MaskBytes
import YoctoLayers.Mcp251xfd.SpiChip

/-! What the driver's write messages mean to the controller. -/
namespace YoctoLayers.Mcp251xfd
open YoctoLayers.Lib

/-- The bytes of a message that are not data. -/
def MapKind.overhead : MapKind → ℕ
  | .nocrc => sizeofBufCmd
  | .crc => sizeofBufCmdCrc + sizeofCrc

def MapKind.command : MapKind → ℕ → List UInt8 → ChipCommand
  | .nocrc => .write
  | .crc => .writeCrc

/-- A message comes about that lies in the first `size` bytes of its buffer, is as long as its
transfer and makes the controller write `data` at `addr`. -/
def Writes (kind : MapKind) (size : ℕ) (msg : Except SpiFault SpiTransfer) (addr : ℕ)
    (data : List UInt8) : Prop :=
  ∃ t, msg = .ok t ∧ t.len ≤ size ∧ size ≤ t.txBuf.length ∧
    t.len = kind.overhead + data.length ∧ chipDecode t.sent = some (kind.command addr data)

/-- The address of a register: whole words outside the RAM. -/
structure IsRegister (reg : UInt16) : Prop where
  aligned : reg.toNat % 4 = 0
  lt : reg.toNat < 4096
  sfr : chipInRam reg.toNat = false

namespace Spi
variable {n : ℕ}

theorem memcpy_ok (buf : Buffer UInt8 n) {off : ℕ} {src : List UInt8}
    (h : off + src.length ≤ n) : ∃ buf', memcpy buf off src = .ok buf' ∧
      buf.store off src = some buf' := by
  obtain ⟨buf', hstore⟩ := buf.store_eq_some h
  refine ⟨buf', ?_, hstore⟩
  unfold memcpy
  rw [hstore]

/-- Two copies, the second right behind the first. -/
theorem memcpy_two (buf : Buffer UInt8 n) {k : ℕ} (head data : List UInt8) (hk : head.length = k)
    (hfit : k + data.length ≤ n) :
    ∃ b₁ b₂, memcpy buf 0 head = .ok b₁ ∧ memcpy b₁ k data = .ok b₂ ∧
      b₂.cells.take (k + data.length) = head ++ data := by
  obtain ⟨b₁, h₁, hstore₁⟩ := memcpy_ok buf (show 0 + head.length ≤ n by omega)
  obtain ⟨b₂, h₂, hstore₂⟩ := memcpy_ok b₁ hfit
  refine ⟨b₁, b₂, h₁, h₂, ?_⟩
  have hhead := Buffer.take_of_store hstore₁
  rw [Nat.zero_add, List.take_zero, List.nil_append, hk] at hhead
  rw [Buffer.take_of_store hstore₂, hhead]

/-- The CRC of the first `k` bytes, right behind them. -/
theorem memcpy_crc (buf : Buffer UInt8 n) {k : ℕ} (hfit : k + sizeofCrc ≤ n) :
    ∃ b, memcpy buf k (be16 (crc16Compute (buf.cells.take k))) = .ok b ∧
      b.cells.take (k + sizeofCrc) =
        buf.cells.take k ++ be16 (crc16Compute (buf.cells.take k)) := by
  obtain ⟨b, h, hstore⟩ :=
    memcpy_ok buf (show k + (be16 (crc16Compute (buf.cells.take k))).length ≤ n from hfit)
  exact ⟨b, h, Buffer.take_of_store hstore⟩

/-- The length byte that `mcp251xfd_cmd_prepare_write_reg` puts between command and data. -/
theorem memcpy_between (buf : Buffer UInt8 n) (cmd data : List UInt8) (len : UInt8)
    (hcmd : cmd.length = sizeofBufCmd) (hfit : data.length + sizeofBufCmdCrc ≤ n) :
    ∃ b₁ b₂ b₃, memcpy buf 0 cmd = .ok b₁ ∧ memcpy b₁ sizeofBufCmdCrc data = .ok b₂ ∧
      memcpy b₂ sizeofBufCmd [len] = .ok b₃ ∧
      b₃.cells.take (data.length + sizeofBufCmdCrc) = cmd ++ [len] ++ data := by
  have hsize : sizeofBufCmdCrc = sizeofBufCmd + [len].length := rfl
  obtain ⟨b₁, h₁, hstore₁⟩ := memcpy_ok buf (show 0 + cmd.length ≤ n by omega)
  obtain ⟨b₂, h₂, hstore₂⟩ := memcpy_ok b₁ (show sizeofBufCmdCrc + data.length ≤ n by omega)
  obtain ⟨b₃, h₃, hstore₃⟩ := memcpy_ok b₂ (show sizeofBufCmd + [len].length ≤ n by omega)
  refine ⟨b₁, b₂, b₃, h₁, h₂, h₃, ?_⟩
  have hhead := Buffer.take_of_store hstore₁
  rw [Nat.zero_add, List.take_zero, List.nil_append, hcmd] at hhead
  have hlen : (b₁.cells.take sizeofBufCmdCrc).length = sizeofBufCmdCrc := by
    rw [List.length_take, b₁.length_cells]
    omega
  rw [Nat.add_comm, Buffer.take_of_store_of_ge hstore₃ (by omega),
    Buffer.take_of_store_of_le hstore₂ (by omega), hhead, Buffer.take_of_store hstore₂, ← hsize,
    List.drop_left' hlen]

end Spi

/-- A transfer of the first `len` bytes of a buffer. -/
theorem writes_of_take {kind : MapKind} {n size len addr : ℕ} {buf : Buffer UInt8 n}
    {sent data : List UInt8} (hsent : buf.cells.take len = sent) (hsize : len ≤ size)
    (hn : size ≤ n) (htotal : len = kind.overhead + data.length)
    (hdecode : chipDecode sent = some (kind.command addr data)) :
    Writes kind size (.ok { txBuf := buf.cells, len := len }) addr data :=
  ⟨_, rfl, hsize, hn.trans_eq buf.length_cells.symm, htotal, by
    rw [SpiTransfer.sent, hsent, hdecode]⟩

/-- A command without CRC and its data, copied into a buffer. -/
theorem writes_nocrc {n size : ℕ} (buf : Buffer UInt8 n) {addr : UInt16}
    (haddr : addr.toNat < 4096) {data : List UInt8} (hsize : sizeofBufCmd + data.length ≤ size)
    (hn : size ≤ n) :
    Writes .nocrc size (do
      let buf ← Spi.memcpy buf 0 (spiCmdWriteNocrc addr)
      let buf ← Spi.memcpy buf sizeofBufCmd data
      return { txBuf := buf.cells, len := sizeofBufCmd + data.length }) addr.toNat data := by
  obtain ⟨b₁, b₂, h₁, h₂, htake⟩ :=
    Spi.memcpy_two buf (k := sizeofBufCmd) (spiCmdWriteNocrc addr) data rfl (hsize.trans hn)
  simp only [h₁, h₂, bind, Except.bind, pure, Except.pure]
  exact writes_of_take htake hsize hn rfl (chipDecode_writeNocrc haddr data)

section
variable {reg : UInt16} {mask : UInt32}

/-- The address of the first byte that a mask touches. -/
theorem IsRegister.toNat_add (h : IsRegister reg) (mask : UInt32) :
    (reg + UInt16.ofNat (firstByteSet mask)).toNat = reg.toNat + firstByteSet mask := by
  have := h.lt
  have := firstByteSet_le mask
  rw [UInt16.toNat_add, UInt16.toNat_ofNat']
  omega

theorem IsRegister.add_lt (h : IsRegister reg) (mask : UInt32) :
    reg.toNat + firstByteSet mask < 4096 := by
  have := h.lt
  have := h.aligned
  have := firstByteSet_le mask
  omega

theorem IsRegister.not_inRam (h : IsRegister reg) (mask : UInt32) :
    chipInRam (reg.toNat + firstByteSet mask) = false := by
  have hsfr := h.sfr
  have := h.aligned
  have := firstByteSet_le mask
  simp only [chipInRam, decide_eq_false_iff_not] at hsfr ⊢
  omega

theorem take_masked (hmask : mask ≠ 0) (val : UInt32) :
    (le32 (val >>> UInt32.ofNat (8 * firstByteSet mask))).take
      (lastByteSet mask - firstByteSet mask + 1) = maskedBytes mask val := by
  have := firstByteSet_le_lastByteSet hmask
  have := lastByteSet_le mask
  exact take_le32_shiftRight val (by omega) (by omega)

theorem length_maskedBytes_le (hmask : mask ≠ 0) (val : UInt32) :
    (maskedBytes mask val).length ≤ 4 := by
  have := lastByteSet_le mask
  rw [length_maskedBytes hmask]
  omega

theorem toNat_spiCmdCrcSetLen (len : ℕ) :
    (spiCmdCrcSetLen (UInt16.ofNat len) false).toNat = len % 256 := by
  change (UInt16.ofNat len).toUInt8.toNat = _
  rw [UInt16.toNat_toUInt8, UInt16.toNat_ofNat']
  omega

theorem writes_cmdPrepareWriteReg_crc {quirks : UInt32} (hq : quirks &&& quirkCrcReg ≠ 0)
    (buf : WriteRegBuf) (hreg : IsRegister reg) (hmask : mask ≠ 0) (val : UInt32) :
    Writes .crc (sizeofWriteReg quirks) (Spi.cmdPrepareWriteReg quirks buf reg mask val)
      (reg.toNat + firstByteSet mask) (maskedBytes mask val) := by
  have hlen := length_maskedBytes hmask val
  have hlen4 := length_maskedBytes_le hmask val
  have haddr := hreg.toNat_add mask
  have hlt := hreg.add_lt mask
  rw [← haddr] at hlt ⊢
  obtain ⟨b₁, b₂, b₃, h₁, h₂, h₃, htake⟩ := Spi.memcpy_between buf
    (spiCmdWriteCrcSetAddr (reg + UInt16.ofNat (firstByteSet mask))) (maskedBytes mask val)
    (spiCmdCrcSetLen (UInt16.ofNat (maskedBytes mask val).length) false) rfl
    (by change _ + 3 ≤ 9; omega)
  obtain ⟨b₄, h₄, htake₄⟩ := Spi.memcpy_crc b₃
    (show (maskedBytes mask val).length + sizeofBufCmdCrc + sizeofCrc ≤ _ by
      change _ + 3 + 2 ≤ 9
      omega)
  have hmsg : Spi.cmdPrepareWriteReg quirks buf reg mask val =
      .ok { txBuf := b₄.cells
            len := (maskedBytes mask val).length + sizeofBufCmdCrc + sizeofCrc } := by
    simp only [Spi.cmdPrepareWriteReg, Spi.cmdWrite, if_pos hq, take_masked hmask]
    simp only [← hlen, h₁, h₂, h₃, h₄, bind, Except.bind, pure, Except.pure]
  rw [htake] at htake₄
  rw [hmsg, sizeofWriteReg, if_pos hq]
  apply writes_of_take htake₄
  · change _ + 3 + 2 ≤ 3 + 4 + 2
    omega
  · rfl
  · change _ + 3 + 2 = 3 + 2 + _
    omega
  · apply chipDecode_writeCrc hlt
    rw [chipCount, haddr, hreg.not_inRam, toNat_spiCmdCrcSetLen]
    simp only [Bool.false_eq_true, if_false]
    omega

theorem writes_cmdPrepareWriteReg_nocrc {quirks : UInt32} (hq : ¬ quirks &&& quirkCrcReg ≠ 0)
    (buf : WriteRegBuf) (hreg : IsRegister reg) (hmask : mask ≠ 0) (val : UInt32) :
    Writes .nocrc (sizeofWriteReg quirks) (Spi.cmdPrepareWriteReg quirks buf reg mask val)
      (reg.toNat + firstByteSet mask) (maskedBytes mask val) := by
  have hlen := length_maskedBytes hmask val
  have hlen4 := length_maskedBytes_le hmask val
  have haddr := hreg.toNat_add mask
  have hlt := hreg.add_lt mask
  rw [← haddr] at hlt ⊢
  have hmsg : Spi.cmdPrepareWriteReg quirks buf reg mask val = (do
      let buf ← Spi.memcpy buf 0 (spiCmdWriteNocrc (reg + UInt16.ofNat (firstByteSet mask)))
      let buf ← Spi.memcpy buf sizeofBufCmd (maskedBytes mask val)
      return { txBuf := buf.cells, len := sizeofBufCmd + (maskedBytes mask val).length }) := by
    simp only [Spi.cmdPrepareWriteReg, Spi.cmdWrite, if_neg hq, take_masked hmask]
    rw [← hlen, Nat.add_comm (maskedBytes mask val).length]
    cases Spi.memcpy buf 0 (spiCmdWriteNocrc (reg + UInt16.ofNat (firstByteSet mask))) <;> rfl
  rw [hmsg, sizeofWriteReg, if_neg hq]
  apply writes_nocrc buf hlt
  · change 2 + _ ≤ 2 + 4
    omega
  · decide

/-- The prepared message of a register write. -/
theorem writes_cmdPrepareWriteReg (quirks : UInt32) (buf : WriteRegBuf) (hreg : IsRegister reg)
    (hmask : mask ≠ 0) (val : UInt32) :
    Writes (if quirks &&& quirkCrcReg ≠ 0 then .crc else .nocrc) (sizeofWriteReg quirks)
      (Spi.cmdPrepareWriteReg quirks buf reg mask val) (reg.toNat + firstByteSet mask)
      (maskedBytes mask val) := by
  by_cases hq : quirks &&& quirkCrcReg ≠ 0
  · rw [if_pos hq]
    exact writes_cmdPrepareWriteReg_crc hq buf hreg hmask val
  · rw [if_neg hq]
    exact writes_cmdPrepareWriteReg_nocrc hq buf hreg hmask val

/-- The message with which `mcp251xfd_regmap_nocrc_update_bits` writes: the bytes of the word that
has the bits under the mask from `val` and the other ones from `orig`, put back in place. -/
theorem writes_regmapNocrcUpdateBits (bufTx : MapBufNocrc) (hreg : IsRegister reg)
    (hmask : mask ≠ 0) (val orig : UInt32) :
    Writes .nocrc (sizeofBufCmd + 256) (Spi.regmapNocrcUpdateBits bufTx reg mask val orig)
      (reg.toNat + firstByteSet mask)
      (maskedBytes mask
        ((orig <<< UInt32.ofNat (8 * firstByteSet mask)) &&& ~~~mask ||| val &&& mask)) := by
  have hfirst := firstByteSet_le mask
  have hle := firstByteSet_le_lastByteSet hmask
  have hlast := lastByteSet_le mask
  have hlt := hreg.add_lt mask
  set word := (orig <<< UInt32.ofNat (8 * firstByteSet mask)) &&& ~~~mask ||| val &&& mask
    with hword
  have hlen := length_maskedBytes hmask word
  have hbytes : (le32 ((orig &&& ~~~(mask >>> UInt32.ofNat (8 * firstByteSet mask))) |||
        (val >>> UInt32.ofNat (8 * firstByteSet mask) &&&
          mask >>> UInt32.ofNat (8 * firstByteSet mask)))).take
      (lastByteSet mask - firstByteSet mask + 1) = maskedBytes mask word :=
    take_le32_update mask val orig (by omega) (by omega)
  have hmsg : Spi.regmapNocrcUpdateBits bufTx reg mask val orig = (do
      let buf ← Spi.memcpy bufTx 0 (spiCmdWriteNocrc (reg + UInt16.ofNat (firstByteSet mask)))
      let buf ← Spi.memcpy buf sizeofBufCmd (maskedBytes mask word)
      return { txBuf := buf.cells, len := sizeofBufCmd + (maskedBytes mask word).length }) := by
    simp only [Spi.regmapNocrcUpdateBits, hbytes, hlen]
  rw [← hreg.toNat_add mask] at hlt ⊢
  rw [hmsg]
  apply writes_nocrc bufTx hlt
  · change 2 + _ ≤ 2 + 256
    omega
  · exact le_rfl

end

/-- The register in the work buffer without CRC already has its instruction. -/
theorem workBufReg_nocrc (addr : UInt16) : workBufReg .nocrc addr = spiCmdWriteNocrc addr := by
  have hhigh : (spiInstructionWrite >>> 8).toUInt8 = 0x20 := rfl
  have hlow : spiInstructionWrite.toUInt8 = 0 := rfl
  have hmask₀ : (cpuToBe16 spiInstructionWrite >>> UInt16.ofNat (8 * 0)).toUInt8 = 0x20 := rfl
  have hmask₁ : (cpuToBe16 spiInstructionWrite >>> UInt16.ofNat (8 * 1)).toUInt8 = 0 := rfl
  simp only [workBufReg, setWorkBufFlagMask, be16, List.mapIdx_cons, List.mapIdx_nil,
    spiCmdWriteNocrc, UInt16.shiftRight_or, UInt16.toUInt8_or, hhigh, hlow, Nat.zero_add, hmask₀,
    hmask₁]
  rw [UInt8.or_comm, UInt8.or_comm addr.toUInt8]

/-- A word of two bytes, put together again. -/
theorem high_or_low (x : UInt16) :
    (x >>> 8).toUInt8.toUInt16 <<< 8 ||| x.toUInt8.toUInt16 = x := by
  apply UInt16.toNat_inj.mp
  have := x.toNat_lt
  have hlow : x.toUInt8.toNat = x.toNat % 256 := UInt16.toNat_toUInt8 x
  have hhigh : (x >>> 8).toUInt8.toNat = x.toNat / 256 := by
    rw [UInt16.toNat_toUInt8, toNat_shiftRight_eight]
    omega
  have hshift : (x.toNat / 256) <<< (UInt16.toNat 8 % 16) % 2 ^ 16 = 2 ^ 8 * (x.toNat / 256) := by
    change (x.toNat / 256) <<< 8 % 2 ^ 16 = _
    rw [Nat.shiftLeft_eq]
    omega
  rw [UInt16.toNat_or, UInt16.toNat_shiftLeft, UInt8.toNat_toUInt16, UInt8.toNat_toUInt16, hlow,
    hhigh, hshift, ← Nat.two_pow_add_eq_or_of_lt (i := 8) (by omega)]
  omega

theorem getLe16_workBufReg (addr : UInt16) (rest : List UInt8) :
    Spi.getLe16 (workBufReg .crc addr ++ rest) = addr := by
  change addr.toUInt8.toUInt16 ||| (addr >>> 8).toUInt8.toUInt16 <<< 8 = _
  rw [UInt16.or_comm, high_or_low]

/-- For whole words, driver and controller agree on what the RAM is. -/
theorem regInRam_eq {addr : UInt16} (hstride : addr.toNat % 4 = 0) :
    regInRam addr = chipInRam addr.toNat := by
  have hiff : (ramStart ≤ addr ∧ addr ≤ ramStart + 2048 - 4) ↔
      0x400 ≤ addr.toNat ∧ addr.toNat < 0xc00 := by
    rw [UInt16.le_iff_toNat_le, UInt16.le_iff_toNat_le]
    change 0x400 ≤ addr.toNat ∧ addr.toNat ≤ 0xbfc ↔ _
    omega
  exact decide_eq_decide.mpr hiff

/-- The length byte of a block stands for the length of the block. -/
theorem RegmapBlock.chipCount {addr : UInt16} {data : List UInt8} (h : RegmapBlock addr data)
    (hmax : data.length ≤ MapKind.crc.maxRaw) :
    chipCount addr.toNat (spiCmdCrcSetLen (UInt16.ofNat data.length) (regInRam addr)) =
      data.length := by
  have hstride := h.stride
  have hwords := h.words
  have hram := regInRam_eq hstride
  have hlen : (UInt16.ofNat data.length).toNat = data.length := by
    rw [UInt16.toNat_ofNat']
    change _ ≤ 252 at hmax
    omega
  change _ ≤ 252 at hmax
  unfold Mcp251xfd.chipCount spiCmdCrcSetLen
  rw [hram]
  cases chipInRam addr.toNat
  · simp only [Bool.false_eq_true, if_false]
    rw [UInt16.toNat_toUInt8, hlen]
    omega
  · simp only [if_true]
    have hshift : (UInt16.ofNat data.length >>> 2).toNat = data.length / 4 := by
      rw [UInt16.toNat_shiftRight, hlen]
      exact Nat.shiftRight_eq_div_pow _ 2
    rw [UInt16.toNat_toUInt8, hshift]
    omega

theorem RegmapBlock.lt {addr : UInt16} {data : List UInt8} (h : RegmapBlock addr data) :
    addr.toNat < 4096 := by
  have hwords := h.words
  obtain ⟨range, hmem, -, hle⟩ := h.writeable 0 (by have := h.pos; omega)
  have hbound : ∀ r ∈ regTableYesRange, r.2 ≤ 0xe14 := by decide
  have := hbound range hmem
  omega

section
variable {addr : UInt16} {data : List UInt8} (sanity : Bool)

/-- `mcp251xfd_regmap_nocrc_gather_write` of a block that fits the buffer. -/
theorem writes_regmapNocrcGatherWrite (bufTx : MapBufNocrc) (h : RegmapBlock addr data)
    (hmax : data.length ≤ MapKind.nocrc.maxRaw) :
    Writes .nocrc (sizeofBufCmd + 256)
      (Spi.regmapNocrcGatherWrite sanity bufTx (workBufReg .nocrc addr) data) addr.toNat data := by
  have hlen : (spiCmdWriteNocrc addr).length = sizeofBufCmd := rfl
  have hmsg : Spi.regmapNocrcGatherWrite sanity bufTx (workBufReg .nocrc addr) data = (do
      let buf ← Spi.memcpy bufTx 0 (spiCmdWriteNocrc addr)
      let buf ← Spi.memcpy buf sizeofBufCmd data
      return { txBuf := buf.cells, len := sizeofBufCmd + data.length }) := by
    unfold Spi.regmapNocrcGatherWrite
    rw [workBufReg_nocrc, if_neg (fun hbad => hbad.2 hlen), List.take_of_length_le hlen.le]
  rw [hmsg]
  exact writes_nocrc bufTx h.lt (Nat.add_le_add_left hmax _) le_rfl

/-- `mcp251xfd_regmap_nocrc_write`, out of the work buffer of regmap. -/
theorem writes_regmapNocrcWrite (h : RegmapBlock addr data) :
    Writes .nocrc (sizeofBufCmd + data.length)
      (Spi.regmapNocrcWrite (workBufReg .nocrc addr ++ data)) addr.toNat data := by
  have hlen : (spiCmdWriteNocrc addr ++ data).length = sizeofBufCmd + data.length :=
    List.length_append
  rw [workBufReg_nocrc]
  refine ⟨_, rfl, hlen.le, hlen.ge, hlen, ?_⟩
  rw [SpiTransfer.sent, List.take_length]
  exact chipDecode_writeNocrc h.lt data

/-- `mcp251xfd_regmap_crc_gather_write` of a block that fits the buffer. -/
theorem writes_regmapCrcGatherWrite (bufTx : MapBufCrc) (h : RegmapBlock addr data)
    (hmax : data.length ≤ MapKind.crc.maxRaw) :
    Writes .crc (sizeofBufCmdCrc + (256 - 4) + sizeofCrc)
      (Spi.regmapCrcGatherWrite sanity bufTx (workBufReg .crc addr) data) addr.toNat data := by
  have hreg : Spi.getLe16 (workBufReg .crc addr) = addr := by
    simpa using getLe16_workBufReg addr []
  have hmax' : data.length ≤ 252 := hmax
  obtain ⟨b₁, b₂, h₁, h₂, htake⟩ := Spi.memcpy_two bufTx (k := sizeofBufCmdCrc)
    (spiCmdWriteCrc addr (UInt16.ofNat data.length)) data rfl
    (by change 3 + _ ≤ 3 + 252 + 2; omega)
  obtain ⟨b₃, h₃, htake₃⟩ := Spi.memcpy_crc b₂
    (show sizeofBufCmdCrc + data.length + sizeofCrc ≤ _ by
      change 3 + _ + 2 ≤ 3 + 252 + 2
      omega)
  have hmsg : Spi.regmapCrcGatherWrite sanity bufTx (workBufReg .crc addr) data =
      .ok { txBuf := b₃.cells, len := sizeofBufCmdCrc + data.length + sizeofCrc } := by
    have hlen : (workBufReg .crc addr).length = sizeofBufCmd + Spi.padBytes := rfl
    unfold Spi.regmapCrcGatherWrite
    rw [if_neg (fun hbad => hbad.2 hlen), hreg]
    simp only [h₁, h₂, h₃, bind, Except.bind, pure, Except.pure]
  rw [htake] at htake₃
  rw [hmsg]
  apply writes_of_take htake₃
  · change 3 + _ + 2 ≤ 3 + 252 + 2
    omega
  · exact le_rfl
  · change 3 + _ + 2 = 3 + 2 + _
    omega
  · exact chipDecode_writeCrc h.lt (h.chipCount hmax)

/-- `mcp251xfd_regmap_crc_write`. -/
theorem writes_regmapCrcWrite (bufTx : MapBufCrc) (h : RegmapBlock addr data)
    (hmax : data.length ≤ MapKind.crc.maxRaw) :
    Writes .crc (sizeofBufCmdCrc + (256 - 4) + sizeofCrc)
      (Spi.regmapCrcWrite sanity bufTx (workBufReg .crc addr ++ data)) addr.toNat data := by
  have hlen : (workBufReg .crc addr).length = sizeofBufCmd + Spi.padBytes := rfl
  unfold Spi.regmapCrcWrite
  simp only [List.take_left' hlen, List.drop_left' hlen]
  exact writes_regmapCrcGatherWrite sanity bufTx h hmax

end

/-- The pieces of a block: not empty, at most `maxRaw` bytes each, and of whole words. -/
theorem of_mem_rawChunks {maxRaw len off n : ℕ} (hpos : 0 < maxRaw) (hraw : maxRaw % 4 = 0)
    (hlen : len % 4 = 0) (h : (off, n) ∈ rawChunks maxRaw len) :
    off % 4 = 0 ∧ n % 4 = 0 ∧ 0 < n ∧ n ≤ maxRaw ∧ off + n ≤ len := by
  rw [rawChunks, List.mem_append] at h
  rcases h with h | h
  · obtain ⟨i, hi, heq⟩ := List.mem_map.mp h
    cases heq
    have hle : (i + 1) * maxRaw ≤ len :=
      (Nat.mul_le_mul_right _ (List.mem_range.mp hi)).trans (Nat.div_mul_le_self len maxRaw)
    have hoff : i * maxRaw % 4 = 0 := by rw [Nat.mul_mod, hraw, Nat.mul_zero, Nat.zero_mod]
    rw [Nat.add_mul, Nat.one_mul] at hle
    exact ⟨hoff, hraw, hpos, le_rfl, hle⟩
  · split_ifs at h with hrest
    · cases h
    · cases List.mem_singleton.mp h
      have hoff : len / maxRaw * maxRaw % 4 = 0 := by
        rw [Nat.mul_mod, hraw, Nat.mul_zero, Nat.zero_mod]
      have hsplit := Nat.div_add_mod' len maxRaw
      have := Nat.mod_lt len hpos
      omega

theorem RegmapBlock.chunk {addr : UInt16} {data : List UInt8} (h : RegmapBlock addr data)
    {maxRaw off n : ℕ} (hpos : 0 < maxRaw) (hraw : maxRaw % 4 = 0)
    (hmem : (off, n) ∈ rawChunks maxRaw data.length) :
    (addr + UInt16.ofNat off).toNat = addr.toNat + off ∧
      ((data.drop off).take n).length = n ∧
      RegmapBlock (addr + UInt16.ofNat off) ((data.drop off).take n) := by
  have hwords := h.words
  have hstride := h.stride
  obtain ⟨hoff, hn, hn0, -, hfit⟩ := of_mem_rawChunks hpos hraw hwords hmem
  obtain ⟨range, hrange, -, hle⟩ := h.writeable (off / 4) (by omega)
  have hbound : ∀ r ∈ regTableYesRange, r.2 ≤ 0xe14 := by decide
  have := hbound range hrange
  have haddr : (addr + UInt16.ofNat off).toNat = addr.toNat + off := by
    rw [UInt16.toNat_add, UInt16.toNat_ofNat']
    omega
  have hlen : ((data.drop off).take n).length = n := by
    rw [List.length_take, List.length_drop]
    omega
  refine ⟨haddr, hlen, ?_, ?_, ?_, ?_⟩
  · omega
  · omega
  · omega
  · intro i hi
    have hword := h.writeable (off / 4 + i) (by omega)
    have hsame : addr.toNat + 4 * (off / 4 + i) = addr.toNat + off + 4 * i := by omega
    rw [haddr, ← hsame]
    exact hword

/-- The pieces of a block make up the block. -/
theorem flatMap_rawChunks {maxRaw : ℕ} (data : List UInt8) :
    (rawChunks maxRaw data.length).flatMap (fun chunk => (data.drop chunk.1).take chunk.2) =
      data := by
  have hfull (k : ℕ) : (((List.range k).map fun i => (i * maxRaw, maxRaw)).flatMap
      fun chunk => (data.drop chunk.1).take chunk.2) = data.take (k * maxRaw) := by
    induction k with
    | zero => simp
    | succ k ih =>
      rw [List.range_succ, List.map_append, List.flatMap_append, ih, Nat.add_mul, Nat.one_mul,
        List.take_add]
      simp
  rw [rawChunks, List.flatMap_append, hfull]
  have hsplit := Nat.div_add_mod' data.length maxRaw
  split_ifs with hrest
  · rw [List.flatMap_nil, List.append_nil, List.take_of_length_le (by omega)]
  · rw [List.flatMap_singleton, List.take_of_length_le (l := data.drop _) (by
      rw [List.length_drop]
      omega), List.take_append_drop]

section
variable (sanity : Bool) (addr : UInt16) (data : List UInt8) (chunk : ℕ × ℕ)

/-- Both ways in which regmap may hand a piece of a block to the bus without CRC, split between
register and data or in one. -/
def NocrcWritesChunk (bufTx : MapBufNocrc) : Prop :=
  let reg := addr + UInt16.ofNat chunk.1
  let piece := (data.drop chunk.1).take chunk.2
  Writes .nocrc (sizeofBufCmd + 256)
      (Spi.regmapNocrcGatherWrite sanity bufTx (workBufReg .nocrc reg) piece)
      (addr.toNat + chunk.1) piece ∧
    Writes .nocrc (sizeofBufCmd + piece.length)
      (Spi.regmapNocrcWrite (workBufReg .nocrc reg ++ piece)) (addr.toNat + chunk.1) piece

def CrcWritesChunk (bufTx : MapBufCrc) : Prop :=
  let reg := addr + UInt16.ofNat chunk.1
  let piece := (data.drop chunk.1).take chunk.2
  Writes .crc (sizeofBufCmdCrc + (256 - 4) + sizeofCrc)
      (Spi.regmapCrcGatherWrite sanity bufTx (workBufReg .crc reg) piece)
      (addr.toNat + chunk.1) piece ∧
    Writes .crc (sizeofBufCmdCrc + (256 - 4) + sizeofCrc)
      (Spi.regmapCrcWrite sanity bufTx (workBufReg .crc reg ++ piece)) (addr.toNat + chunk.1) piece

variable {addr data chunk}

theorem nocrcWritesChunk (h : RegmapBlock addr data)
    (hmem : chunk ∈ rawChunks MapKind.nocrc.maxRaw data.length) (bufTx : MapBufNocrc) :
    NocrcWritesChunk sanity addr data chunk bufTx := by
  obtain ⟨haddr, hlen, hblock⟩ := h.chunk (by decide) (by decide) hmem
  obtain ⟨-, -, -, hmax, -⟩ := of_mem_rawChunks (by decide) (by decide) h.words hmem
  have hmax' := hlen.le.trans hmax
  unfold NocrcWritesChunk
  rw [← haddr]
  exact ⟨writes_regmapNocrcGatherWrite sanity bufTx hblock hmax',
    writes_regmapNocrcWrite hblock⟩

theorem crcWritesChunk (h : RegmapBlock addr data)
    (hmem : chunk ∈ rawChunks MapKind.crc.maxRaw data.length) (bufTx : MapBufCrc) :
    CrcWritesChunk sanity addr data chunk bufTx := by
  obtain ⟨haddr, hlen, hblock⟩ := h.chunk (by decide) (by decide) hmem
  obtain ⟨-, -, -, hmax, -⟩ := of_mem_rawChunks (by decide) (by decide) h.words hmem
  have hmax' := hlen.le.trans hmax
  unfold CrcWritesChunk
  rw [← haddr]
  exact ⟨writes_regmapCrcGatherWrite sanity bufTx hblock hmax',
    writes_regmapCrcWrite sanity bufTx hblock hmax'⟩

end

/-- What every write message of the driver does to the controller: the prepared ones and those of
`mcp251xfd_regmap_nocrc_update_bits` write the bytes that the mask touches, those of regmap write
a block piece by piece, and the pieces make up the block. -/
theorem write_messages_decode :
    (∀ (quirks : UInt32) (buf : WriteRegBuf) (reg : UInt16) (mask val : UInt32), IsRegister reg →
      mask ≠ 0 →
      Writes (if quirks &&& quirkCrcReg ≠ 0 then .crc else .nocrc) (sizeofWriteReg quirks)
        (Spi.cmdPrepareWriteReg quirks buf reg mask val) (reg.toNat + firstByteSet mask)
        (maskedBytes mask val)) ∧
    (∀ (bufTx : MapBufNocrc) (reg : UInt16) (mask val orig : UInt32), IsRegister reg →
      mask ≠ 0 →
      Writes .nocrc (sizeofBufCmd + 256) (Spi.regmapNocrcUpdateBits bufTx reg mask val orig)
        (reg.toNat + firstByteSet mask)
        (maskedBytes mask
          ((orig <<< UInt32.ofNat (8 * firstByteSet mask)) &&& ~~~mask ||| val &&& mask))) ∧
    ∀ (sanity : Bool) (addr : UInt16) (data : List UInt8), RegmapBlock addr data →
      (∀ bufTx, ∀ chunk ∈ rawChunks MapKind.nocrc.maxRaw data.length,
        NocrcWritesChunk sanity addr data chunk bufTx) ∧
      (∀ bufTx, ∀ chunk ∈ rawChunks MapKind.crc.maxRaw data.length,
        CrcWritesChunk sanity addr data chunk bufTx) ∧
      ∀ kind : MapKind, (rawChunks kind.maxRaw data.length).flatMap
        (fun chunk => (data.drop chunk.1).take chunk.2) = data := by
  refine ⟨?_, ?_, ?_⟩
  · intro quirks buf reg mask val hreg hmask
    exact writes_cmdPrepareWriteReg quirks buf hreg hmask val
  · intro bufTx reg mask val orig hreg hmask
    exact writes_regmapNocrcUpdateBits bufTx hreg hmask val orig
  · intro sanity addr data h
    refine ⟨fun bufTx chunk hmem => ?_, fun bufTx chunk hmem => ?_, fun kind => ?_⟩
    · exact nocrcWritesChunk sanity h hmem bufTx
    · exact crcWritesChunk sanity h hmem bufTx
    · exact flatMap_rawChunks data

/-- The TEF tail pointer, the requested mode and an object of the RAM. -/
theorem write_messages_decode_three :
    (∀ buf val, Writes .crc 9 (Spi.cmdPrepareWriteReg quirkCrcReg buf regTefcon tefconUinc val)
      0x41 (maskedBytes tefconUinc val)) ∧
    (∀ bufTx val orig, Writes .nocrc 258
      (Spi.regmapNocrcUpdateBits bufTx regCon conReqop.mask val orig) 3
      (maskedBytes conReqop.mask
        ((orig <<< UInt32.ofNat (8 * firstByteSet conReqop.mask)) &&& ~~~conReqop.mask |||
          val &&& conReqop.mask))) ∧
    (∀ bufTx, CrcWritesChunk true 0x400 (List.replicate 8 0) (0, 8) bufTx) := by
  have hmsgs := write_messages_decode
  have hobj : RegmapBlock 0x400 (List.replicate 8 0) := by
    refine ⟨by decide, by decide, by decide, ?_⟩
    decide
  refine ⟨fun buf val => ?_, fun bufTx val orig => ?_, fun bufTx => ?_⟩
  · exact hmsgs.1 quirkCrcReg buf regTefcon tefconUinc val ⟨by decide, by decide, by decide⟩
      (by decide)
  · exact hmsgs.2.1 bufTx regCon conReqop.mask val orig ⟨by decide, by decide, by decide⟩
      (by decide)
  · exact (hmsgs.2.2 true 0x400 _ hobj).2.1 bufTx (0, 8) (by decide)

end YoctoLayers.Mcp251xfd
