import YoctoLayers.Mcp251xfd.Layout

/-! The message that transmits a frame, byte by byte: the load buffer that
`mcp251xfd_tx_ring_init_tx_obj` prepares and `mcp251xfd_tx_obj_from_skb` fills again for every
frame, the request to send behind it, and what both do to the controller. -/
namespace YoctoLayers.Mcp251xfd
open YoctoLayers.Lib

/-- `sizeof(struct mcp251xfd_hw_tx_obj_raw)` -/
def sizeofHwTxObjRaw : ℕ := 72

/-- `union mcp251xfd_tx_obj_load_buf`: its larger member. -/
abbrev LoadBuf := Buffer UInt8 (sizeofBufCmdCrc + sizeofHwTxObjRaw + sizeofCrc)

def fifoconTxreq : UInt32 := bit 9

namespace Spi

/-- `mcp251xfd_tx_ring_init_tx_obj`: the command of the load buffer. -/
def txRingInitTxObj (quirks : UInt32) (ring : TxRing) (loadBuf : LoadBuf) (n : UInt8) :
    Except SpiFault LoadBuf :=
  let addr := getTxObjAddr ring n
  if quirks &&& quirkCrcTx ≠ 0 then memcpy loadBuf 0 (spiCmdWriteCrcSetAddr addr)
  else memcpy loadBuf 0 (spiCmdWriteNocrc addr)

/-- `hw_tx_obj` in the member of the union that the quirks select. -/
def hwTxObjOffset (quirks : UInt32) : ℕ :=
  if quirks &&& quirkCrcTx ≠ 0 then sizeofBufCmdCrc else sizeofBufCmd

/-- `mcp251xfd_tx_obj_from_skb`: the load buffer, and the length of its transfer. -/
def txObjFromSkb (K : DlcHelpers) (quirks : UInt32) (loadBuf : LoadBuf) (skb : Skb)
    (seq : UInt32) : Except SpiFault (LoadBuf × ℕ) := do
  let cfd := skb.cfd
  let dlc := K.canFdLen2dlc cfd.len
  let hwTxObj := hwTxObjOffset quirks
  let loadBuf ← memcpy loadBuf hwTxObj (le32 (txObjId cfd.canId).1)
  let loadBuf ← memcpy loadBuf (hwTxObj + 4) (le32 (txObjFlags skb dlc seq))
  -- clear data at end of CAN frame
  let offset := roundDown4 cfd.len.toNat
  let len := roundUp4 (K.canFdDlc2len dlc).toNat - offset
  let loadBuf ← memcpy loadBuf (hwTxObj + 8 + offset) (List.replicate len 0)
  let loadBuf ← memcpy loadBuf (hwTxObj + 8) (cfd.data.toList.take cfd.len.toNat)
  let len := 8 + roundUp4 (K.canFdDlc2len dlc).toNat
  if quirks &&& quirkCrcTx ≠ 0 then
    let loadBuf ← memcpy loadBuf sizeofBufCmd [spiCmdCrcSetLen (UInt16.ofNat len) true]
    let len := len + sizeofBufCmdCrc
    -- the CRC lies behind the data, not in the last member of the union
    let loadBuf ← memcpy loadBuf len (be16 (crc16Compute (loadBuf.cells.take len)))
    return (loadBuf, len + sizeofCrc)
  else return (loadBuf, len + sizeofBufCmd)

/-- The request to send that `mcp251xfd_ring_init` prepares. -/
def rts (quirks : UInt32) (rtsBuf : WriteRegBuf) : Except SpiFault SpiTransfer :=
  cmdPrepareWriteReg quirks rtsBuf (regFifocon txFifo) (fifoconTxreq ||| fifoconUinc)
    (fifoconTxreq ||| fifoconUinc)

/-- The TX objects of `mcp251xfd_ring_init`. -/
def txRingInit (quirks : UInt32) (ring : TxRing) (loadBufs : ℕ → LoadBuf) :
    Except SpiFault (ℕ → LoadBuf) :=
  (List.range ring.slots).foldlM (fun loadBufs i => do
    let loadBuf ← txRingInitTxObj quirks ring (loadBufs i) (UInt8.ofNat i)
    return Function.update loadBufs i loadBuf) loadBufs

end Spi

/-- A frame for the TX object `n` of the ring, with its sequence number. -/
structure TxLoad where
  n : ℕ
  skb : Skb
  seq : UInt32

/-- `mcp251xfd_tx_obj_from_skb` and `mcp251xfd_tx_obj_write`, frame by frame: with `cs_change` the
two transfers of a frame are two messages for the controller. -/
def Spi.xmitAll (K : DlcHelpers) (quirks : UInt32) (rts : SpiTransfer) :
    (ℕ → LoadBuf) → List TxLoad → Except SpiFault ((ℕ → LoadBuf) × List (List UInt8))
  | loadBufs, [] => return (loadBufs, [])
  | loadBufs, load :: loads => do
    let (loadBuf, len) ← txObjFromSkb K quirks (loadBufs load.n) load.skb load.seq
    let xfer : SpiTransfer := { txBuf := loadBuf.cells, len := len }
    let (loadBufs, sent) ← xmitAll K quirks rts (Function.update loadBufs load.n loadBuf) loads
    return (loadBufs, xfer.sent :: rts.sent :: sent)

/-- The words of a TX object and the first `n` bytes of its data. -/
def hwTxObjBytes (obj : HwTxObjRaw) (n : ℕ) : List UInt8 :=
  le32 obj.id ++ le32 obj.flags ++ obj.data.toList.take n

variable {K : DlcHelpers} {quirks : UInt32} {skb : Skb} {seq : UInt32} {loadBuf : LoadBuf}

theorem length_hwTxObjBytes (obj : HwTxObjRaw) {n : ℕ} (hn : n ≤ 64) :
    (hwTxObjBytes obj n).length = 8 + n := by
  rw [hwTxObjBytes, List.length_append, List.length_append, length_le32, length_le32,
    List.length_take, Vector.length_toList, Nat.min_eq_left hn]

theorem DlcHelpers.txDataLen_le (K : DlcHelpers) (len : UInt8) : K.txDataLen len ≤ 64 := by
  have hall : ∀ d : Fin 16, (dlcLens.getD d 0).toNat ≤ 64 := by decide
  have hdlc := K.len2dlc_lt len
  have hle := hall ⟨_, UInt8.lt_iff_toNat_lt.mp hdlc⟩
  rw [← K.dlc2len_of_lt hdlc] at hle
  unfold txDataLen roundUp4
  change ((K.canDlc2len (K.canLen2dlc len)).toNat + 3) / 4 * 4 ≤ 64
  omega

theorem DlcHelpers.le_txDataLen {len : UInt8} (h : len ≤ canfdMaxDlen) :
    len.toNat ≤ K.txDataLen len := by
  have hge := UInt8.le_iff_toNat_le.mp (K.len2dlc_ge len h)
  unfold txDataLen roundUp4
  change len.toNat ≤ ((K.canDlc2len (K.canLen2dlc len)).toNat + 3) / 4 * 4
  omega

/-- The object that a valid frame becomes, whatever the buffer held. -/
def DlcHelpers.freshTxObj (K : DlcHelpers) (skb : Skb) (seq : UInt32) : HwTxObjRaw where
  id := (txObjId skb.cfd.canId).1
  flags := txObjFlags skb (K.canFdLen2dlc skb.cfd.len) seq
  data := padded skb.cfd

theorem getElem?_padded (cfd : CanfdFrame) {j : ℕ} (hj : j < 64) :
    (padded cfd).toList[j]? = some (if j < cfd.len.toNat then cfd.data.get ⟨j, hj⟩ else 0) := by
  have hget := get_memcpy (Vector.replicate 64 0) cfd.data cfd.len.toNat ⟨j, hj⟩
  have hzero : (Vector.replicate 64 (0 : UInt8)).get ⟨j, hj⟩ = 0 := Vector.getElem_replicate ..
  rw [hzero] at hget
  rw [← hget]
  simp [padded, Vector.get, hj]

/-- The object in the buffer, in front of it what was there before. -/
theorem txObj_cells (hv : skb.Valid) (loadBuf : LoadBuf) (seq : UInt32) {off : ℕ} (hoff : off ≤ 3) :
    ∃ b₁ b₂ b₃ b₄, Spi.memcpy loadBuf off (le32 (txObjId skb.cfd.canId).1) = .ok b₁ ∧
      Spi.memcpy b₁ (off + 4) (le32 (txObjFlags skb (K.canFdLen2dlc skb.cfd.len) seq)) = .ok b₂ ∧
      Spi.memcpy b₂ (off + 8 + roundDown4 skb.cfd.len.toNat)
        (List.replicate (K.txDataLen skb.cfd.len - roundDown4 skb.cfd.len.toNat) 0) = .ok b₃ ∧
      Spi.memcpy b₃ (off + 8) (skb.cfd.data.toList.take skb.cfd.len.toNat) = .ok b₄ ∧
      b₄.cells.take (off + 8 + K.txDataLen skb.cfd.len) =
        loadBuf.cells.take off ++
          hwTxObjBytes (K.freshTxObj skb seq) (K.txDataLen skb.cfd.len) := by
  have hn := K.txDataLen_le skb.cfd.len
  have hlen := K.le_txDataLen hv.len_le_canfd
  have hround : roundDown4 skb.cfd.len.toNat ≤ skb.cfd.len.toNat := Nat.div_mul_le_self _ 4
  have hsize : sizeofBufCmdCrc + sizeofHwTxObjRaw + sizeofCrc = 77 := rfl
  have hdata : (skb.cfd.data.toList.take skb.cfd.len.toNat).length = skb.cfd.len.toNat := by
    rw [List.length_take, Vector.length_toList]
    omega
  obtain ⟨b₁, h₁, hs₁⟩ := Spi.memcpy_ok loadBuf
    (show off + (le32 (txObjId skb.cfd.canId).1).length ≤ _ by rw [length_le32]; omega)
  obtain ⟨b₂, h₂, hs₂⟩ := Spi.memcpy_ok b₁
    (show off + 4 + (le32 (txObjFlags skb (K.canFdLen2dlc skb.cfd.len) seq)).length ≤ _ by
      rw [length_le32]
      omega)
  obtain ⟨b₃, h₃, hs₃⟩ := Spi.memcpy_ok b₂
    (show off + 8 + roundDown4 skb.cfd.len.toNat + (List.replicate
      (K.txDataLen skb.cfd.len - roundDown4 skb.cfd.len.toNat) (0 : UInt8)).length ≤ _ by
        rw [List.length_replicate]
        omega)
  obtain ⟨b₄, h₄, hs₄⟩ := Spi.memcpy_ok b₃
    (show off + 8 + (skb.cfd.data.toList.take skb.cfd.len.toNat).length ≤ _ by
      rw [hdata]
      omega)
  refine ⟨b₁, b₂, b₃, b₄, h₁, h₂, h₃, h₄, ?_⟩
  have hlow : (loadBuf.cells.take off).length = off := by
    rw [List.length_take, loadBuf.length_cells]
    omega
  apply List.ext_getElem?
  intro i
  rw [List.getElem?_take, Buffer.getElem?_of_store hs₄, Buffer.getElem?_of_store hs₃,
    Buffer.getElem?_of_store hs₂, Buffer.getElem?_of_store hs₁, hdata, List.length_replicate,
    length_le32, length_le32]
  rcases Nat.lt_or_ge i off with hi | hi
  · rw [if_pos (by omega), if_neg (by omega), if_neg (by omega), if_neg (by omega),
      if_neg (by omega), List.getElem?_append_left (by omega), List.getElem?_take, if_pos hi]
  · obtain ⟨j, rfl⟩ := Nat.exists_eq_add_of_le hi
    rw [List.getElem?_append_right (by omega), hlow, Nat.add_sub_cancel_left]
    unfold hwTxObjBytes
    rcases Nat.lt_or_ge j 4 with hj | hj
    · rw [if_pos (by omega), if_neg (by omega), if_neg (by omega), if_neg (by omega),
        if_pos (by omega), List.append_assoc,
        List.getElem?_append_left (by rw [length_le32]; exact hj)]
      rfl
    rcases Nat.lt_or_ge j 8 with hj' | hj'
    · rw [if_pos (by omega), if_neg (by omega), if_neg (by omega), if_pos (by omega),
        List.append_assoc, List.getElem?_append_right (by rw [length_le32]; exact hj),
        List.getElem?_append_left (by rw [length_le32, length_le32]; omega), length_le32,
        show off + j - (off + 4) = j - 4 by omega]
      rfl
    · obtain ⟨k, rfl⟩ := Nat.exists_eq_add_of_le hj'
      have hheader : (le32 (K.freshTxObj skb seq).id ++ le32 (K.freshTxObj skb seq).flags).length =
          8 := rfl
      have hpos : off + (8 + k) - (off + 8) = k := by omega
      rw [List.getElem?_append_right (by omega), hheader, Nat.add_sub_cancel_left, hpos]
      by_cases hk : k < K.txDataLen skb.cfd.len
      · have hright : (List.take (K.txDataLen skb.cfd.len)
            (Vector.toList (K.freshTxObj skb seq).data))[k]? =
            some (if k < skb.cfd.len.toNat then skb.cfd.data.get ⟨k, by omega⟩ else 0) := by
          rw [List.getElem?_take, if_pos hk]
          exact getElem?_padded skb.cfd (by omega)
        rw [if_pos (by omega), hright]
        by_cases hpay : k < skb.cfd.len.toNat
        · rw [if_pos (by omega), if_pos hpay, List.getElem?_take, if_pos hpay]
          simp [Vector.get, show k < 64 by omega]
        · rw [if_neg (by omega), if_pos (by omega), if_neg hpay, List.getElem?_replicate,
            if_pos (by omega)]
      · rw [if_neg (by omega), List.getElem?_take, if_neg hk]

/-- The first bytes of the load buffer of an object at `addr`. -/
def txCommand (quirks : UInt32) (addr : UInt16) : List UInt8 :=
  if quirks &&& quirkCrcTx ≠ 0 then spiCmdWriteCrcSetAddr addr else spiCmdWriteNocrc addr

/-- The commands that load buffers and register writes have. -/
def txKind (quirks : UInt32) : MapKind := if quirks &&& quirkCrcTx ≠ 0 then .crc else .nocrc

def regKind (quirks : UInt32) : MapKind := if quirks &&& quirkCrcReg ≠ 0 then .crc else .nocrc

def HasCommand (quirks : UInt32) (addr : UInt16) (loadBuf : LoadBuf) : Prop :=
  loadBuf.cells.take sizeofBufCmd = txCommand quirks addr

theorem txRingInitTxObj_ok (quirks : UInt32) (ring : TxRing) (loadBuf : LoadBuf) (n : UInt8) :
    ∃ b, Spi.txRingInitTxObj quirks ring loadBuf n = .ok b ∧
      HasCommand quirks (getTxObjAddr ring n) b := by
  have hcopy (cmd : List UInt8) (hcmd : cmd.length = sizeofBufCmd) :
      ∃ b, Spi.memcpy loadBuf 0 cmd = .ok b ∧ b.cells.take sizeofBufCmd = cmd := by
    obtain ⟨b, h, hs⟩ := Spi.memcpy_ok loadBuf (show 0 + cmd.length ≤ _ by rw [hcmd]; decide)
    have htake := Buffer.take_of_store hs
    rw [Nat.zero_add, hcmd, List.take_zero, List.nil_append] at htake
    exact ⟨b, h, htake⟩
  unfold Spi.txRingInitTxObj HasCommand txCommand
  split_ifs
  · exact hcopy _ rfl
  · exact hcopy _ rfl

theorem take_of_take {α : Type} {l head tail : List α} {j k : ℕ} (h : l.take k = head ++ tail)
    (hj : head.length = j) (hle : j ≤ k) : l.take j = head := by
  have htake := congrArg (List.take j) h
  rwa [List.take_take, Nat.min_eq_left hle, List.take_left' hj] at htake

/-- An address where the controller keeps an object. -/
structure InRam (addr : UInt16) : Prop where
  lt : addr.toNat < 4096
  ram : chipInRam addr.toNat = true

theorem roundUp4_mod (x : ℕ) : roundUp4 x % 4 = 0 := Nat.mul_mod_left _ 4

/-- `mcp251xfd_tx_obj_from_skb` without CRC. -/
theorem txObjFromSkb_nocrc (hq : ¬ quirks &&& quirkCrcTx ≠ 0) (hv : skb.Valid) (seq : UInt32)
    {addr : UInt16} (haddr : InRam addr) (hcmd : HasCommand quirks addr loadBuf) :
    ∃ b, Spi.txObjFromSkb K quirks loadBuf skb seq = .ok (b, 8 + K.txDataLen skb.cfd.len + 2) ∧
      HasCommand quirks addr b ∧
      chipDecode (b.cells.take (8 + K.txDataLen skb.cfd.len + 2)) =
        some (.write addr.toNat
          (hwTxObjBytes (K.freshTxObj skb seq) (K.txDataLen skb.cfd.len))) := by
  obtain ⟨b₁, b₂, b₃, b₄, h₁, h₂, h₃, h₄, htake⟩ :=
    txObj_cells (K := K) hv loadBuf seq (show sizeofBufCmd ≤ 3 by decide)
  have hcmd' : loadBuf.cells.take sizeofBufCmd = spiCmdWriteNocrc addr := by
    rw [hcmd, txCommand, if_neg hq]
  have hrun : Spi.txObjFromSkb K quirks loadBuf skb seq =
      .ok (b₄, 8 + K.txDataLen skb.cfd.len + 2) := by
    unfold Spi.txObjFromSkb Spi.hwTxObjOffset
    simp only [if_neg hq]
    unfold DlcHelpers.txDataLen at h₃
    simp only [h₁, h₂, h₃, h₄, bind, Except.bind, pure, Except.pure]
    rfl
  rw [hcmd'] at htake
  refine ⟨b₄, hrun, ?_, ?_⟩
  · unfold HasCommand
    have hhead : b₄.cells.take sizeofBufCmd = spiCmdWriteNocrc addr :=
      take_of_take htake rfl (by omega)
    rw [hhead, txCommand, if_neg hq]
  · rw [show 8 + K.txDataLen skb.cfd.len + 2 = sizeofBufCmd + 8 + K.txDataLen skb.cfd.len by
      change _ = 2 + 8 + _
      omega, htake]
    exact chipDecode_writeNocrc haddr.lt _

/-- `mcp251xfd_tx_obj_from_skb` with CRC. -/
theorem txObjFromSkb_crc (hq : quirks &&& quirkCrcTx ≠ 0) (hv : skb.Valid) (seq : UInt32)
    {addr : UInt16} (haddr : InRam addr) (hcmd : HasCommand quirks addr loadBuf) :
    ∃ b, Spi.txObjFromSkb K quirks loadBuf skb seq = .ok (b, 8 + K.txDataLen skb.cfd.len + 3 + 2) ∧
      HasCommand quirks addr b ∧
      chipDecode (b.cells.take (8 + K.txDataLen skb.cfd.len + 3 + 2)) =
        some (.writeCrc addr.toNat
          (hwTxObjBytes (K.freshTxObj skb seq) (K.txDataLen skb.cfd.len))) := by
  obtain ⟨b₁, b₂, b₃, b₄, h₁, h₂, h₃, h₄, htake⟩ :=
    txObj_cells (K := K) hv loadBuf seq (show sizeofBufCmdCrc ≤ 3 by decide)
  have hn := K.txDataLen_le skb.cfd.len
  have hcmd' : loadBuf.cells.take sizeofBufCmd = spiCmdWriteCrcSetAddr addr := by
    rw [hcmd, txCommand, if_pos hq]
  let obj := hwTxObjBytes (K.freshTxObj skb seq) (K.txDataLen skb.cfd.len)
  let cmdLen := spiCmdCrcSetLen (UInt16.ofNat (8 + K.txDataLen skb.cfd.len)) true
  have hobj : obj.length = 8 + K.txDataLen skb.cfd.len := length_hwTxObjBytes _ hn
  have hlow : (loadBuf.cells.take sizeofBufCmdCrc).length = sizeofBufCmdCrc := by
    rw [List.length_take, loadBuf.length_cells]
    rfl
  have hcmd₄ : b₄.cells.take sizeofBufCmd = spiCmdWriteCrcSetAddr addr := by
    have hhead : b₄.cells.take sizeofBufCmdCrc = loadBuf.cells.take sizeofBufCmdCrc :=
      take_of_take htake hlow (by omega)
    have htwo := congrArg (List.take sizeofBufCmd) hhead
    rw [List.take_take, List.take_take, Nat.min_eq_left (by decide)] at htwo
    exact htwo.trans hcmd'
  obtain ⟨b₅, h₅, hs₅⟩ := Spi.memcpy_ok b₄
    (show sizeofBufCmd + [cmdLen].length ≤ sizeofBufCmdCrc + sizeofHwTxObjRaw + sizeofCrc by
      change 2 + 1 ≤ 3 + 72 + 2
      decide)
  have htake₅ : b₅.cells.take (8 + K.txDataLen skb.cfd.len + sizeofBufCmdCrc) =
      spiCmdWriteCrcSetAddr addr ++ [cmdLen] ++ obj := by
    rw [Buffer.take_of_store_of_ge hs₅ (by change 2 + 1 ≤ _ + 3; omega), hcmd₄,
      show 8 + K.txDataLen skb.cfd.len + sizeofBufCmdCrc =
        sizeofBufCmdCrc + 8 + K.txDataLen skb.cfd.len by omega, htake,
      show sizeofBufCmd + [cmdLen].length = sizeofBufCmdCrc from rfl, List.drop_left' hlow]
  obtain ⟨b₆, h₆, htake₆⟩ := Spi.memcpy_crc b₅
    (show 8 + K.txDataLen skb.cfd.len + sizeofBufCmdCrc + sizeofCrc ≤ _ by
      change _ + 3 + 2 ≤ 3 + 72 + 2
      omega)
  have hrun : Spi.txObjFromSkb K quirks loadBuf skb seq =
      .ok (b₆, 8 + K.txDataLen skb.cfd.len + 3 + 2) := by
    unfold Spi.txObjFromSkb Spi.hwTxObjOffset
    simp only [if_pos hq]
    unfold DlcHelpers.txDataLen at h₃
    have h₅' : Spi.memcpy b₄ sizeofBufCmd [spiCmdCrcSetLen (UInt16.ofNat
        (8 + roundUp4 (K.canFdDlc2len (K.canFdLen2dlc skb.cfd.len)).toNat)) true] = .ok b₅ := h₅
    have h₆' : Spi.memcpy b₅
        (8 + roundUp4 (K.canFdDlc2len (K.canFdLen2dlc skb.cfd.len)).toNat + sizeofBufCmdCrc)
        (be16 (crc16Compute (b₅.cells.take
          (8 + roundUp4 (K.canFdDlc2len (K.canFdLen2dlc skb.cfd.len)).toNat +
            sizeofBufCmdCrc)))) = .ok b₆ := h₆
    simp only [h₁, h₂, h₃, h₄, h₅', h₆', bind, Except.bind, pure, Except.pure]
    rfl
  rw [htake₅] at htake₆
  have hcount : chipCount addr.toNat cmdLen = obj.length := by
    have hmod : K.txDataLen skb.cfd.len % 4 = 0 := roundUp4_mod _
    have hshift : (UInt16.ofNat (8 + K.txDataLen skb.cfd.len) >>> 2).toNat =
        (8 + K.txDataLen skb.cfd.len) / 4 := by
      rw [UInt16.toNat_shiftRight, UInt16.toNat_ofNat', Nat.mod_eq_of_lt (by omega)]
      exact Nat.shiftRight_eq_div_pow _ 2
    have hbyte : cmdLen.toNat = (8 + K.txDataLen skb.cfd.len) / 4 := by
      change (UInt16.ofNat (8 + K.txDataLen skb.cfd.len) >>> 2).toUInt8.toNat = _
      rw [UInt16.toNat_toUInt8, hshift]
      omega
    rw [chipCount, haddr.ram, if_pos rfl, hbyte, hobj]
    omega
  refine ⟨b₆, hrun, ?_, ?_⟩
  · unfold HasCommand
    have hhead : b₆.cells.take sizeofBufCmd = spiCmdWriteCrcSetAddr addr := by
      rw [List.append_assoc, List.append_assoc] at htake₆
      exact take_of_take htake₆ rfl (by change 2 ≤ _ + 2; omega)
    rw [hhead, txCommand, if_pos hq]
  · have hdecode := chipDecode_writeCrc haddr.lt hcount
    rw [← htake₆] at hdecode
    exact hdecode

variable (K quirks) in
/-- `mcp251xfd_tx_obj_from_skb` writes the object's own message, as long as the record model of the
load buffer has it. -/
theorem txObjFromSkb_ok (hv : skb.Valid) (seq : UInt32) {addr : UInt16} (haddr : InRam addr)
    (hcmd : HasCommand quirks addr loadBuf) (old : TxObj) :
    ∃ b len, Spi.txObjFromSkb K quirks loadBuf skb seq = .ok (b, len) ∧
      (b.cells.take len).length =
        (K.txObjFromSkb (quirks &&& quirkCrcTx ≠ 0) old skb seq).xferLen ∧
      HasCommand quirks addr b ∧
      chipDecode (b.cells.take len) = some ((txKind quirks).command addr.toNat
        (hwTxObjBytes (K.freshTxObj skb seq) (K.txDataLen skb.cfd.len))) := by
  have hn := K.txDataLen_le skb.cfd.len
  have htake (b : LoadBuf) {len : ℕ} (hlen : len ≤ 77) : (b.cells.take len).length = len := by
    rw [List.length_take, b.length_cells]
    exact Nat.min_eq_left hlen
  by_cases hq : quirks &&& quirkCrcTx ≠ 0
  · obtain ⟨b, hrun, hb, hdecode⟩ := txObjFromSkb_crc (K := K) hq hv seq haddr hcmd
    refine ⟨b, _, hrun, ?_, hb, ?_⟩
    · rw [htake b (by omega)]
      simp only [DlcHelpers.txObjFromSkb, decide_eq_true hq, if_true]
    · rw [hdecode, txKind, if_pos hq]
      rfl
  · obtain ⟨b, hrun, hb, hdecode⟩ := txObjFromSkb_nocrc (K := K) hq hv seq haddr hcmd
    refine ⟨b, _, hrun, ?_, hb, ?_⟩
    · rw [htake b (by omega)]
      simp only [DlcHelpers.txObjFromSkb, decide_eq_false hq, Bool.false_eq_true, if_false]
    · rw [hdecode, txKind, if_neg hq]
      rfl

theorem txRingInit_ok (quirks : UInt32) (ring : TxRing) (loadBufs : ℕ → LoadBuf) :
    ∃ bufs, Spi.txRingInit quirks ring loadBufs = .ok bufs ∧
      ∀ n < ring.slots, HasCommand quirks (getTxObjAddr ring (UInt8.ofNat n)) (bufs n) := by
  unfold Spi.txRingInit
  generalize ring.slots = k
  induction k with
  | zero => exact ⟨loadBufs, rfl, fun n hn => absurd hn n.not_lt_zero⟩
  | succ k ih =>
    obtain ⟨bufs, hrun, hbufs⟩ := ih
    obtain ⟨b, hinit, hb⟩ := txRingInitTxObj_ok quirks ring (bufs k) (UInt8.ofNat k)
    refine ⟨Function.update bufs k b, ?_, fun n hn => ?_⟩
    · rw [List.range_succ, List.foldlM_append, hrun]
      simp only [List.foldlM_cons, List.foldlM_nil, hinit, bind, Except.bind, pure, Except.pure]
    · rcases Nat.lt_succ_iff_lt_or_eq.mp hn with hlt | rfl
      · rw [Function.update_of_ne hlt.ne]
        exact hbufs n hlt
      · rw [Function.update_self]
        exact hb

theorem rts_ok (quirks : UInt32) (rtsBuf : WriteRegBuf) :
    ∃ rts, Spi.rts quirks rtsBuf = .ok rts ∧ chipDecode rts.sent =
      some ((regKind quirks).command ((regFifocon txFifo).toNat + 1) [0x03]) := by
  have hreg : IsRegister (regFifocon txFifo) := ⟨by decide, by decide, by decide⟩
  obtain ⟨rts, hrts, -, -, -, hdecode⟩ := writes_cmdPrepareWriteReg quirks rtsBuf hreg
    (show fifoconTxreq ||| fifoconUinc ≠ 0 by decide) (fifoconTxreq ||| fifoconUinc)
  exact ⟨rts, hrts, hdecode⟩

/-! ### The objects in the controller -/

/-- The message that writes the object, then the request to send. -/
def TxLoad.commands (K : DlcHelpers) (quirks : UInt32) (tx : TxRing) (load : TxLoad) :
    List ChipCommand :=
  [(txKind quirks).command (getTxObjAddr tx (UInt8.ofNat load.n)).toNat
      (hwTxObjBytes (K.freshTxObj load.skb load.seq) (K.txDataLen load.skb.cfd.len)),
    (regKind quirks).command ((regFifocon txFifo).toNat + 1) [0x03]]

/-- What becomes of the memory under one command. -/
def SpiChip.obey (c : SpiChip) : ChipCommand → SpiChip
  | .write addr data => c.put addr data
  | .writeCrc addr data => c.put addr data
  | .read _ => c
  | .readCrc _ _ => c

/-- The controller behind a sequence of messages. -/
def SpiChip.takeAll (c : SpiChip) (msgs : List (List UInt8)) : SpiChip :=
  msgs.foldl (fun c msg => (c.exchange msg).1) c

/-- The TX objects for the caller: the last frame that went into each. -/
abbrev TxStore := ℕ → Option (Skb × UInt32)

def TxStore.load (st : TxStore) (load : TxLoad) : TxStore :=
  Function.update st load.n (some (load.skb, load.seq))

/-- A frame that the ring has an object for. -/
structure TxLoad.Fits (fd : Bool) (tx : TxRing) (load : TxLoad) : Prop where
  lt : load.n < tx.slots
  valid : load.skb.Valid
  kind : load.skb.isCanfd = true → fd = true

/-- Each object holds the frame that the store has for it; apart from these objects and the byte
of the request to send, the memory is as it was. -/
structure TxStore.Held (K : DlcHelpers) (fd : Bool) (tx : TxRing) (st : TxStore)
    (c₀ c : SpiChip) : Prop where
  fits : ∀ n skb seq, st n = some (skb, seq) → TxLoad.Fits fd tx ⟨n, skb, seq⟩
  object : ∀ n < tx.slots, ∀ skb seq, st n = some (skb, seq) →
    c.bytes (getTxObjAddr tx (UInt8.ofNat n)).toNat (8 + K.txDataLen skb.cfd.len) =
      hwTxObjBytes (K.freshTxObj skb seq) (K.txDataLen skb.cfd.len)
  rest : ∀ a ≠ (regFifocon txFifo).toNat + 1,
    (∀ n < tx.slots, st n ≠ none → a < (getTxObjAddr tx (UInt8.ofNat n)).toNat ∨
      (getTxObjAddr tx (UInt8.ofNat n)).toNat + tx.objSize.toNat ≤ a) → c.mem a = c₀.mem a

namespace SpiChip
variable (c : SpiChip)

theorem obey_command (kind : MapKind) (addr : ℕ) (data : List UInt8) :
    c.obey (kind.command addr data) = c.put addr data := by
  cases kind <;> rfl

theorem exchange_of_decode {msg : List UInt8} {cmd : ChipCommand}
    (h : chipDecode msg = some cmd) : (c.exchange msg).1 = c.obey cmd := by
  unfold exchange
  rw [h]
  cases cmd <;> rfl

theorem takeAll_of_decode {msgs : List (List UInt8)} {cmds : List ChipCommand}
    (h : msgs.map chipDecode = cmds.map some) : c.takeAll msgs = cmds.foldl obey c := by
  induction msgs generalizing c cmds with
  | nil =>
    rw [List.map_nil, eq_comm, List.map_eq_nil_iff] at h
    rw [h]
    rfl
  | cons msg msgs ih =>
    cases cmds with
    | nil => exact absurd h (by simp)
    | cons cmd cmds =>
      obtain ⟨hcmd, hcmds⟩ := List.cons.inj h
      change takeAll (c.exchange msg).1 msgs = cmds.foldl obey (c.obey cmd)
      rw [c.exchange_of_decode hcmd, ih _ hcmds]

theorem mem_put_of_apart {addr a : ℕ} {data : List UInt8}
    (h : a < addr ∨ addr + data.length ≤ a) : (c.put addr data).mem a = c.mem a := by
  unfold put
  exact if_neg (by omega)

theorem bytes_put_of_apart {addr a n : ℕ} {data : List UInt8}
    (h : a + n ≤ addr ∨ addr + data.length ≤ a) : (c.put addr data).bytes a n = c.bytes a n := by
  unfold bytes
  refine List.map_congr_left fun i hi => c.mem_put_of_apart ?_
  have := List.mem_range.mp hi
  omega

theorem bytes_put (addr : ℕ) (data : List UInt8) :
    (c.put addr data).bytes addr data.length = data := by
  refine List.ext_getElem (length_bytes _ _ _) fun i _ hi => ?_
  simp [bytes, put, hi]

end SpiChip

theorem TxLoad.Fits.data_le {fd : Bool} {tx : TxRing} {rx : RxRing} {load : TxLoad}
    (h : load.Fits fd tx) (hready : RingsReady fd tx rx) :
    8 + K.txDataLen load.skb.cfd.len ≤ tx.objSize.toNat := by
  rw [hready.txSize]
  cases fd with
  | true =>
    have := K.txDataLen_le load.skb.cfd.len
    change _ ≤ 72
    omega
  | false =>
    have hcc : load.skb.cfd.len ≤ canMaxDlen := by
      have hlen := h.valid.len_le
      rwa [if_neg (fun hfd => Bool.false_ne_true (h.kind hfd))] at hlen
    have hdlc : K.canLen2dlc load.skb.cfd.len ≤ 8 :=
      UInt8.le_trans (K.len2dlc_of_le hcc) hcc
    have hlens : ∀ d : Fin 9, (dlcLens.getD d 0).toNat ≤ 8 := by decide
    have hle := hlens ⟨_, Nat.lt_succ_of_le (UInt8.le_iff_toNat_le.mp hdlc)⟩
    rw [← K.dlc2len_of_lt (K.len2dlc_lt _)] at hle
    change 8 + ((K.canDlc2len (K.canLen2dlc load.skb.cfd.len)).toNat + 3) / 4 * 4 ≤ 16
    omega

namespace RingsReady
variable {fd : Bool} {tx : TxRing} {rx : RxRing} (h : RingsReady fd tx rx)
include h

theorem toNat_slot {n : ℕ} (hn : n < tx.slots) :
    (getTxObjAddr tx (UInt8.ofNat n)).toNat = tx.base.toNat + tx.objSize.toNat * n := by
  have hval : (UInt8.ofNat n).toNat = n := by
    apply UInt8.toNat_ofNat_of_lt'
    have := tx.slots_cases
    change n < 256
    omega
  have haddr := h.toNat_getTxObjAddr (n := UInt8.ofNat n) (by omega)
  rwa [hval] at haddr

theorem slot_bounds {n : ℕ} (hn : n < tx.slots) :
    0x400 ≤ (getTxObjAddr tx (UInt8.ofNat n)).toNat ∧
      (getTxObjAddr tx (UInt8.ofNat n)).toNat + tx.objSize.toNat ≤ 0xc00 := by
  have hbase := h.txBase
  have hnext := Nat.mul_le_mul_left tx.objSize.toNat (Nat.succ_le_of_lt hn)
  have htotal : tx.objSize.toNat * tx.slots ≤ 288 := by
    rw [h.txSize, h.txNum]
    split_ifs <;> decide
  have := tx.slots_cases
  rw [h.toNat_slot hn]
  rw [Nat.mul_succ] at hnext
  omega

theorem inRam {n : ℕ} (hn : n < tx.slots) : InRam (getTxObjAddr tx (UInt8.ofNat n)) := by
  obtain ⟨hlo, hhi⟩ := h.slot_bounds hn
  have hsize : 0 < tx.objSize.toNat := by
    rw [h.txSize]
    split_ifs <;> decide
  exact ⟨by omega, decide_eq_true ⟨hlo, by omega⟩⟩

theorem slots_apart {m n : ℕ} (hm : m < tx.slots) (hn : n < tx.slots) (hne : m ≠ n) :
    (getTxObjAddr tx (UInt8.ofNat m)).toNat + tx.objSize.toNat ≤
        (getTxObjAddr tx (UInt8.ofNat n)).toNat ∨
      (getTxObjAddr tx (UInt8.ofNat n)).toNat + tx.objSize.toNat ≤
        (getTxObjAddr tx (UInt8.ofNat m)).toNat := by
  rw [h.toNat_slot hm, h.toNat_slot hn]
  rcases Nat.lt_or_gt_of_ne hne with hlt | hlt
  · have hnext := Nat.mul_le_mul_left tx.objSize.toNat (Nat.succ_le_of_lt hlt)
    rw [Nat.mul_succ] at hnext
    exact Or.inl (by omega)
  · have hnext := Nat.mul_le_mul_left tx.objSize.toNat (Nat.succ_le_of_lt hlt)
    rw [Nat.mul_succ] at hnext
    exact Or.inr (by omega)

/-- One frame into one object. -/
theorem held_load {st : TxStore} {c₀ c : SpiChip} {load : TxLoad} (hfits : load.Fits fd tx)
    (hst : st.Held K fd tx c₀ c) :
    (st.load load).Held K fd tx c₀ ((load.commands K quirks tx).foldl SpiChip.obey c) := by
  obtain ⟨hlo, hhi⟩ := h.slot_bounds hfits.lt
  have hdata : 8 + K.txDataLen load.skb.cfd.len ≤ tx.objSize.toNat := hfits.data_le h
  have hrts : (regFifocon txFifo).toNat + 1 < 0x400 := by decide
  let obj := hwTxObjBytes (K.freshTxObj load.skb load.seq) (K.txDataLen load.skb.cfd.len)
  let addr := (getTxObjAddr tx (UInt8.ofNat load.n)).toNat
  let rtsAddr := (regFifocon txFifo).toNat + 1
  have hlen : obj.length = 8 + K.txDataLen load.skb.cfd.len :=
    length_hwTxObjBytes _ (K.txDataLen_le load.skb.cfd.len)
  have hobey : (load.commands K quirks tx).foldl SpiChip.obey c =
      (c.put addr obj).put rtsAddr [0x03] := by
    change SpiChip.obey (SpiChip.obey c _) _ = _
    rw [SpiChip.obey_command, SpiChip.obey_command]
  have hself : st.load load load.n = some (load.skb, load.seq) := Function.update_self ..
  have hother {n : ℕ} (hne : n ≠ load.n) : st.load load n = st n := Function.update_of_ne hne ..
  rw [hobey]
  constructor
  · intro n skb seq hn'
    by_cases hsame : n = load.n
    · subst hsame
      rw [hself] at hn'
      cases hn'
      exact hfits
    · rw [hother hsame] at hn'
      exact hst.fits n skb seq hn'
  · intro n hn skb seq hn'
    obtain ⟨hlo', -⟩ := h.slot_bounds hn
    rw [SpiChip.bytes_put_of_apart _ (Or.inr (show rtsAddr + 1 ≤ _ by omega))]
    by_cases hsame : n = load.n
    · subst hsame
      rw [hself] at hn'
      cases hn'
      rw [← hlen]
      exact c.bytes_put addr obj
    · rw [hother hsame] at hn'
      have hfit : 8 + K.txDataLen skb.cfd.len ≤ tx.objSize.toNat :=
        (hst.fits n skb seq hn').data_le h
      have hapart := h.slots_apart hn hfits.lt hsame
      rw [SpiChip.bytes_put_of_apart _ (by omega)]
      exact hst.object n hn skb seq hn'
  · intro a ha hout
    have hout_self := hout load.n hfits.lt (by rw [hself]; exact Option.some_ne_none _)
    rw [SpiChip.mem_put_of_apart _ (show a < rtsAddr ∨ rtsAddr + 1 ≤ a by omega),
      SpiChip.mem_put_of_apart _ (by omega)]
    refine hst.rest a ha fun n hn hsome => hout n hn ?_
    by_cases hsame : n = load.n
    · rw [hsame, hself]
      exact Option.some_ne_none _
    · rwa [hother hsame]

variable (K quirks) in
/-- Frames into objects, in any order. -/
theorem held_loads {loads : List TxLoad} (hfits : ∀ load ∈ loads, load.Fits fd tx) {st : TxStore}
    {c₀ c : SpiChip} (hst : st.Held K fd tx c₀ c) :
    (loads.foldl TxStore.load st).Held K fd tx c₀
      ((loads.flatMap (TxLoad.commands K quirks tx)).foldl SpiChip.obey c) := by
  induction loads generalizing st c with
  | nil => exact hst
  | cons load loads ih =>
    rw [List.flatMap_cons, List.foldl_append]
    exact ih (fun l hl => hfits l (List.mem_cons_of_mem _ hl))
      (h.held_load (hfits load List.mem_cons_self) hst)

variable (K quirks) in
/-- What the driver sends for these frames. -/
theorem xmitAll_ok {rts : SpiTransfer} (hrts : chipDecode rts.sent =
      some ((regKind quirks).command ((regFifocon txFifo).toNat + 1) [0x03]))
    {loads : List TxLoad} (hfits : ∀ load ∈ loads, load.Fits fd tx) {bufs : ℕ → LoadBuf}
    (hbufs : ∀ n < tx.slots, HasCommand quirks (getTxObjAddr tx (UInt8.ofNat n)) (bufs n)) :
    ∃ bufs' sent, Spi.xmitAll K quirks rts bufs loads = .ok (bufs', sent) ∧
      sent.map chipDecode = (loads.flatMap (TxLoad.commands K quirks tx)).map some ∧
      sent.map List.length = loads.flatMap fun load =>
        [(K.txObjFromSkb (quirks &&& quirkCrcTx ≠ 0) emptyTxObj load.skb load.seq).xferLen,
          rts.sent.length] := by
  induction loads generalizing bufs with
  | nil => exact ⟨bufs, [], rfl, rfl, rfl⟩
  | cons load loads ih =>
    have hload := hfits load List.mem_cons_self
    obtain ⟨b, len, hrun, hlen, hb, hdecode⟩ := txObjFromSkb_ok K quirks hload.valid load.seq
      (h.inRam hload.lt) (hbufs load.n hload.lt) emptyTxObj
    have hupdate : ∀ n < tx.slots, HasCommand quirks (getTxObjAddr tx (UInt8.ofNat n))
        (Function.update bufs load.n b n) := by
      intro n hn
      by_cases hsame : n = load.n
      · rw [hsame, Function.update_self]
        exact hb
      · rw [Function.update_of_ne hsame]
        exact hbufs n hn
    obtain ⟨bufs', sent, hall, hsent, hlens⟩ :=
      ih (fun l hl => hfits l (List.mem_cons_of_mem _ hl)) hupdate
    refine ⟨bufs', b.cells.take len :: rts.sent :: sent, ?_, ?_, ?_⟩
    · unfold Spi.xmitAll
      simp only [hrun, hall, bind, Except.bind, pure, Except.pure]
      rfl
    · rw [List.flatMap_cons, List.map_append, ← hsent, List.map_cons, List.map_cons, hdecode, hrts]
      rfl
    · rw [List.flatMap_cons, ← hlens, List.map_cons, List.map_cons, hlen]
      rfl

end RingsReady

/-- A TX object as its bytes have it. -/
def getHwTxObj (bytes : List UInt8) : HwTxObjRaw where
  id := getLe32 (bytes.take 4)
  flags := getLe32 ((bytes.drop 4).take 4)
  data := Vector.ofFn fun i => bytes.getD (8 + i) 0

/-- The bytes stand for the object of the record model, whatever that one overwrites. -/
theorem getHwTxObj_same (skb : Skb) (seq : UInt32) (old : HwTxObjRaw) :
    (getHwTxObj (hwTxObjBytes (K.freshTxObj skb seq) (K.txDataLen skb.cfd.len))).Same
      (K.hwTxObj old skb seq) (K.txDataLen skb.cfd.len) where
  id_eq := getLe32_le32 _
  flags_eq := getLe32_le32 _
  data_eq i hi := by
    let bytes := hwTxObjBytes (K.freshTxObj skb seq) (K.txDataLen skb.cfd.len)
    have hget : (getHwTxObj bytes).data.get i = bytes.getD (8 + i) 0 := get_ofFn _ i
    have hheader : (le32 (K.freshTxObj skb seq).id ++ le32 (K.freshTxObj skb seq).flags).length =
        8 := rfl
    have hdata : (K.freshTxObj skb seq).data = padded skb.cfd := rfl
    have hcell : (padded skb.cfd).toList[i.val]? = some ((padded skb.cfd).get i) := by
      generalize padded skb.cfd = data
      simp [Vector.get]
    rw [hget, K.hwTxObj_data skb old seq hi]
    unfold bytes hwTxObjBytes
    rw [List.getD_eq_getElem?_getD, List.getElem?_append_right (by omega), hheader,
      Nat.add_sub_cancel_left, List.getElem?_take, if_pos hi, hdata, hcell, Option.getD_some]

theorem HwRxObj.Carries.of_same {rx : HwRxObj} {tx tx' : HwTxObjRaw} {n : ℕ}
    (h : rx.Carries tx n) (hsame : tx.Same tx' n) : rx.Carries tx' n where
  id_eq := h.id_eq.trans hsame.id_eq
  flags_eq := h.flags_eq.trans hsame.flags_eq
  data_eq i hi := (h.data_eq i hi).trans (hsame.data_eq i hi)

/-- Whatever the load buffers held, and in whatever order frames go into the objects of the ring:
every message is well formed, frame by frame the write of the object, as long as the record model
says, and the request to send. Then each object of the controller holds the last frame that went
into it, nothing else has changed, and who receives the object gets that frame. -/
theorem xmitAll_refines (K : DlcHelpers) (quirks : UInt32) {fd : Bool} {tx : TxRing} {rx : RxRing}
    (hready : RingsReady fd tx rx) (stale : ℕ → LoadBuf) (rtsBuf : WriteRegBuf)
    {loads : List TxLoad} (hfits : ∀ load ∈ loads, load.Fits fd tx) (c : SpiChip) :
    ∃ rts bufs bufs' sent, Spi.rts quirks rtsBuf = .ok rts ∧
      Spi.txRingInit quirks tx stale = .ok bufs ∧
      Spi.xmitAll K quirks rts bufs loads = .ok (bufs', sent) ∧
      sent.map chipDecode = (loads.flatMap (TxLoad.commands K quirks tx)).map some ∧
      (sent.map List.length = loads.flatMap fun load =>
        [(K.txObjFromSkb (quirks &&& quirkCrcTx ≠ 0) emptyTxObj load.skb load.seq).xferLen,
          rts.sent.length]) ∧
      (loads.foldl TxStore.load (fun _ => none)).Held K fd tx c (c.takeAll sent) ∧
      ∀ n < tx.slots, ∀ skb seq, loads.foldl TxStore.load (fun _ => none) n = some (skb, seq) →
        ∀ got : HwRxObj, got.Carries (getHwTxObj ((c.takeAll sent).bytes
            (getTxObjAddr tx (UInt8.ofNat n)).toNat (8 + K.txDataLen skb.cfd.len)))
          (K.txDataLen skb.cfd.len) → K.rxSkb got = K.received skb := by
  obtain ⟨rts, hrts, hrtsDecode⟩ := rts_ok quirks rtsBuf
  obtain ⟨bufs, hinit, hbufs⟩ := txRingInit_ok quirks tx stale
  obtain ⟨bufs', sent, hall, hsent, hlens⟩ := hready.xmitAll_ok K quirks hrtsDecode hfits hbufs
  have hempty : TxStore.Held K fd tx (fun _ => none) c c :=
    ⟨fun _ _ _ h => (nomatch h), fun _ _ _ _ h => (nomatch h), fun _ _ _ => rfl⟩
  have hheld := hready.held_loads K quirks hfits hempty
  rw [← c.takeAll_of_decode hsent] at hheld
  refine ⟨rts, bufs, bufs', sent, hrts, hinit, hall, hsent, hlens, hheld, ?_⟩
  intro n hn skb seq hstored got hgot
  have hv : skb.Valid := (hheld.fits n skb seq hstored).valid
  rw [hheld.object n hn skb seq hstored] at hgot
  exact K.rxSkb_of_carries hv (hgot.of_same (getHwTxObj_same skb seq emptyTxObj.hwTxObj))


namespace Bench

/-- Three frames, two of them for the same object. -/
def loads : List TxLoad := [⟨0, zeroFrame 9, 0⟩, ⟨1, zeroFrame 64, 1⟩, ⟨0, zeroFrame 0, 4⟩]

end Bench

theorem xmitAll_refines_three :
    let tx := Bench.allocated.ringInit.txd.tx
    let c : SpiChip := ⟨fun _ => 0, fun _ => 0⟩
    ∃ rts bufs bufs' sent, Spi.xmitAll kernelDlc quirkCrcTx rts bufs Bench.loads =
        .ok (bufs', sent) ∧
      ∀ got : HwRxObj, got.Carries
          (getHwTxObj ((c.takeAll sent).bytes (getTxObjAddr tx 1).toNat 72)) 64 →
        kernelDlc.rxSkb got = kernelDlc.received (zeroFrame 64) := by
  intro tx c
  obtain ⟨rx, -, hready⟩ := Priv.Allocated.ready (p := Bench.allocated) ⟨rfl, rfl, _, rfl, rfl, rfl⟩
  have hvalid {len : UInt8} (h : len ≤ 64) : (zeroFrame len).Valid :=
    ⟨(by decide : (0x123 : UInt32) &&& canErrFlag = 0),
      fun _ => (by decide : (0x123 : UInt32) &&& canEffMask ≤ canSffMask), h,
      fun _ => (by decide : (0x123 : UInt32) &&& canRtrFlag = 0)⟩
  have hfits : ∀ load ∈ Bench.loads, load.Fits true tx := by
    intro load hload
    rcases List.mem_cons.mp hload with rfl | hload
    · exact ⟨by decide, hvalid (by decide), fun _ => rfl⟩
    rcases List.mem_cons.mp hload with rfl | hload
    · exact ⟨by decide, hvalid (by decide), fun _ => rfl⟩
    rw [List.mem_singleton.mp hload]
    exact ⟨by decide, hvalid (by decide), fun _ => rfl⟩
  obtain ⟨rts, bufs, bufs', sent, -, -, hall, -, -, -, hgot⟩ :=
    xmitAll_refines kernelDlc quirkCrcTx hready (fun _ => ⟨List.replicate 77 0xff, rfl⟩)
      ⟨List.replicate 9 0, rfl⟩ hfits c
  exact ⟨rts, bufs, bufs', sent, hall, hgot 1 (by decide) (zeroFrame 64) 1 rfl⟩

end YoctoLayers.Mcp251xfd
