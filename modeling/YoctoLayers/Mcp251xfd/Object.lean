import YoctoLayers.Mcp251xfd.Crc16
import YoctoLayers.Mcp251xfd.Regs
import Mathlib.Data.List.GetD

/-! Message objects: `mcp251xfd_tx_obj_from_skb` writes a CAN frame into a TX object,
`mcp251xfd_hw_rx_obj_to_skb` reads one out of an RX object. -/
namespace YoctoLayers.Mcp251xfd
open YoctoLayers.Lib

def canEffFlag : UInt32 := bit 31
def canRtrFlag : UInt32 := bit 30
def canErrFlag : UInt32 := bit 29
def canEffMask : UInt32 := 0x1fffffff
def canSffMask : UInt32 := 0x7ff
def canMaxDlen : UInt8 := 8
def canfdMaxDlen : UInt8 := 64
def canfdBrs : UInt8 := 0x01
def canfdEsi : UInt8 := 0x02

/-- The data lengths a DLC can stand for. -/
def dlcLens : List UInt8 := [0, 1, 2, 3, 4, 5, 6, 7, 8, 12, 16, 20, 24, 32, 48, 64]

/-- The kernel's DLC helpers before 5.11: `can_dlc2len` is a table look-up and
`can_len2dlc` gives the smallest code whose length holds the data. -/
structure DlcHelpers where
  canDlc2len : UInt8 → UInt8
  canLen2dlc : UInt8 → UInt8
  dlc2len_eq : ∀ dlc, canDlc2len dlc = dlcLens.getD (dlc &&& 0x0f).toNat 0
  len2dlc_lt : ∀ len, canLen2dlc len < 16
  len2dlc_ge : ∀ len, len ≤ canfdMaxDlen → len ≤ canDlc2len (canLen2dlc len)
  len2dlc_least : ∀ len d, d < canLen2dlc len → canDlc2len d < len

/-- The macros the driver adds for kernels before 5.11. -/
def canCcDlc2len (dlc : UInt8) : UInt8 := min dlc canMaxDlen

def DlcHelpers.canFdLen2dlc (K : DlcHelpers) (len : UInt8) : UInt8 := K.canLen2dlc len

def DlcHelpers.canFdDlc2len (K : DlcHelpers) (dlc : UInt8) : UInt8 := K.canDlc2len dlc

abbrev Data := Vector UInt8 64

structure CanfdFrame where
  canId : UInt32
  len : UInt8
  flags : UInt8
  data : Data
deriving DecidableEq, Repr

/-- A frame with its kind: `skb->len` is `CANFD_MTU` or `CAN_MTU`. -/
structure Skb where
  isCanfd : Bool
  cfd : CanfdFrame
deriving DecidableEq, Repr

structure HwTxObjRaw where
  id : UInt32
  flags : UInt32
  data : Data
deriving DecidableEq, Repr

structure HwRxObj where
  id : UInt32
  flags : UInt32
  ts : UInt32
  data : Data
deriving DecidableEq, Repr

/-- `struct mcp251xfd_tx_obj`: the load buffer and the length of its transfer. -/
structure TxObj where
  cmd : UInt16
  cmdLen : UInt8
  hwTxObj : HwTxObjRaw
  crc : UInt16
  xferLen : ℕ
deriving DecidableEq, Repr

def memset (dst : Data) (offset : ℕ) (v : UInt8) (n : ℕ) : Data :=
  Vector.ofFn fun i => if offset ≤ i.val ∧ i.val < offset + n then v else dst.get i

def memcpy (dst src : Data) (n : ℕ) : Data :=
  Vector.ofFn fun i => if i.val < n then src.get i else dst.get i

/-- `round_down(x, sizeof(u32))` and `round_up(x, sizeof(u32))`. -/
def roundDown4 (x : ℕ) : ℕ := x / 4 * 4

def roundUp4 (x : ℕ) : ℕ := (x + 3) / 4 * 4

def le32 (x : UInt32) : List UInt8 :=
  [x.toUInt8, (x >>> 8).toUInt8, (x >>> 16).toUInt8, (x >>> 24).toUInt8]

/-- `flags |= v` under a condition. -/
def orIf (c : Prop) [Decidable c] (flags v : UInt32) : UInt32 := if c then flags ||| v else flags

@[simp] theorem testBit_orIf (c : Prop) [Decidable c] (x v : UInt32) (i : ℕ) :
    (orIf c x v).toNat.testBit i = (x.toNat.testBit i || (decide c && v.toNat.testBit i)) := by
  unfold orIf
  split_ifs with h <;> simp [h]

/-- The id and the IDE flag of `mcp251xfd_tx_obj_from_skb`. -/
def txObjId (canId : UInt32) : UInt32 × UInt32 :=
  if canId &&& canEffFlag ≠ 0 then
    let sid := frameEffSid.get canId
    let eid := frameEffEid.get canId
    (objIdEid.prep eid ||| objIdSid.prep sid, objFlagsIde)
  else (objIdSid.prep canId, 0)

def txObjFlags (skb : Skb) (dlc : UInt8) (seq : UInt32) : UInt32 :=
  let flags := (txObjId skb.cfd.canId).2
  let flags := flags ||| (objFlagsSeqMcp2518fd.prep seq ||| objFlagsDlc.prep dlc.toUInt32)
  let flags := orIf (skb.cfd.canId &&& canRtrFlag ≠ 0) flags objFlagsRtr
  let flags := orIf (skb.isCanfd ∧ skb.cfd.flags &&& canfdEsi ≠ 0) flags objFlagsEsi
  let flags := orIf skb.isCanfd flags objFlagsFdf
  orIf (skb.isCanfd ∧ skb.cfd.flags &&& canfdBrs ≠ 0) flags objFlagsBrs

/-- The number of data bytes that are written into the controller's RAM. -/
def DlcHelpers.txDataLen (K : DlcHelpers) (len : UInt8) : ℕ :=
  roundUp4 (K.canFdDlc2len (K.canFdLen2dlc len)).toNat

def DlcHelpers.hwTxObj (K : DlcHelpers) (old : HwTxObjRaw) (skb : Skb) (seq : UInt32) :
    HwTxObjRaw :=
  let len := skb.cfd.len
  let offset := roundDown4 len.toNat
  { id := (txObjId skb.cfd.canId).1
    flags := txObjFlags skb (K.canFdLen2dlc len) seq
    data := memcpy (memset old.data offset 0 (K.txDataLen len - offset)) skb.cfd.data len.toNat }

def DlcHelpers.txObjFromSkb (K : DlcHelpers) (quirkCrcTx : Bool) (txObj : TxObj) (skb : Skb)
    (seq : UInt32) : TxObj :=
  let hw := K.hwTxObj txObj.hwTxObj skb seq
  let len := 8 + K.txDataLen skb.cfd.len
  if quirkCrcTx then
    let cmdLen := UInt8.ofNat (len / 4)
    let buf := be16 txObj.cmd ++ [cmdLen] ++ le32 hw.id ++ le32 hw.flags ++
      hw.data.toList.take (K.txDataLen skb.cfd.len)
    { txObj with cmdLen := cmdLen, hwTxObj := hw, crc := crc16Compute buf, xferLen := len + 3 + 2 }
  else { txObj with hwTxObj := hw, xferLen := len + 2 }

/-- `alloc_canfd_skb` or `alloc_can_skb`: a zeroed frame. -/
def allocSkb (isCanfd : Bool) : Skb := ⟨isCanfd, ⟨0, 0, 0, Vector.replicate 64 0⟩⟩

/-- The `can_id` of `mcp251xfd_hw_rx_obj_to_skb`, before RTR. -/
def rxObjCanId (hwRxObj : HwRxObj) : UInt32 :=
  if hwRxObj.flags &&& objFlagsIde ≠ 0 then
    let eid := objIdEid.get hwRxObj.id
    let sid := objIdSid.get hwRxObj.id
    canEffFlag ||| frameEffEid.prep eid ||| frameEffSid.prep sid
  else objIdSid.get hwRxObj.id

def DlcHelpers.hwRxObjToSkb (K : DlcHelpers) (hwRxObj : HwRxObj) (cfd : CanfdFrame) :
    CanfdFrame :=
  let canId := rxObjCanId hwRxObj
  let dlc := (objFlagsDlc.get hwRxObj.flags).toUInt8
  let cfd :=
    if hwRxObj.flags &&& objFlagsFdf ≠ 0 then
      let flags := cfd.flags
      let flags := if hwRxObj.flags &&& objFlagsEsi ≠ 0 then flags ||| canfdEsi else flags
      let flags := if hwRxObj.flags &&& objFlagsBrs ≠ 0 then flags ||| canfdBrs else flags
      { cfd with canId := canId, flags := flags, len := K.canFdDlc2len dlc }
    else
      { cfd with canId := orIf (hwRxObj.flags &&& objFlagsRtr ≠ 0) canId canRtrFlag,
                 len := canCcDlc2len dlc }
  { cfd with data := memcpy cfd.data hwRxObj.data cfd.len.toNat }

/-- The part of `mcp251xfd_handle_rxif_one` that makes the frame. -/
def DlcHelpers.rxSkb (K : DlcHelpers) (hwRxObj : HwRxObj) : Skb :=
  let skb := allocSkb (hwRxObj.flags &&& objFlagsFdf ≠ 0)
  { skb with cfd := K.hwRxObjToSkb hwRxObj skb.cfd }

/-- A valid frame: a canonical id, a length that fits the kind, no RTR on a CAN FD frame. -/
structure Skb.Valid (skb : Skb) : Prop where
  noErr : skb.cfd.canId &&& canErrFlag = 0
  canonical : skb.cfd.canId &&& canEffFlag = 0 → skb.cfd.canId &&& canEffMask ≤ canSffMask
  len_le : skb.cfd.len ≤ if skb.isCanfd then canfdMaxDlen else canMaxDlen
  noRtr : skb.isCanfd → skb.cfd.canId &&& canRtrFlag = 0

/-- The flags word, bit by bit. -/
theorem testBit_txObjFlags (skb : Skb) (dlc : UInt8) (seq : UInt32) (i : ℕ) :
    (txObjFlags skb dlc seq).toNat.testBit i =
      (decide (skb.cfd.canId &&& canEffFlag ≠ 0 ∧ i = 4) ||
        (decide (9 ≤ i ∧ i ≤ 31) && seq.toNat.testBit (i - 9)) ||
        (decide (i ≤ 3) && dlc.toNat.testBit i) ||
        decide (skb.cfd.canId &&& canRtrFlag ≠ 0 ∧ i = 5) ||
        decide ((skb.isCanfd = true ∧ skb.cfd.flags &&& canfdEsi ≠ 0) ∧ i = 8) ||
        decide (skb.isCanfd = true ∧ i = 7) ||
        decide ((skb.isCanfd = true ∧ skb.cfd.flags &&& canfdBrs ≠ 0) ∧ i = 6)) := by
  unfold txObjFlags txObjId
  split_ifs with h <;>
    simp [h, objFlagsSeqMcp2518fd, objFlagsDlc, objFlagsRtr, objFlagsEsi, objFlagsFdf,
      objFlagsBrs, objFlagsIde, Bool.or_assoc]

theorem txObjFlags_ide (skb : Skb) (dlc : UInt8) (seq : UInt32) :
    txObjFlags skb dlc seq &&& objFlagsIde ≠ 0 ↔ skb.cfd.canId &&& canEffFlag ≠ 0 := by
  rw [objFlagsIde, and_bit_ne_zero (by decide), testBit_txObjFlags]
  simp

theorem txObjFlags_rtr (skb : Skb) (dlc : UInt8) (seq : UInt32) :
    txObjFlags skb dlc seq &&& objFlagsRtr ≠ 0 ↔ skb.cfd.canId &&& canRtrFlag ≠ 0 := by
  rw [objFlagsRtr, and_bit_ne_zero (by decide), testBit_txObjFlags]
  simp

theorem txObjFlags_fdf (skb : Skb) (dlc : UInt8) (seq : UInt32) :
    txObjFlags skb dlc seq &&& objFlagsFdf ≠ 0 ↔ skb.isCanfd = true := by
  rw [objFlagsFdf, and_bit_ne_zero (by decide), testBit_txObjFlags]
  simp

theorem txObjFlags_esi (skb : Skb) (dlc : UInt8) (seq : UInt32) :
    txObjFlags skb dlc seq &&& objFlagsEsi ≠ 0 ↔
      skb.isCanfd = true ∧ skb.cfd.flags &&& canfdEsi ≠ 0 := by
  rw [objFlagsEsi, and_bit_ne_zero (by decide), testBit_txObjFlags]
  simp

theorem txObjFlags_brs (skb : Skb) (dlc : UInt8) (seq : UInt32) :
    txObjFlags skb dlc seq &&& objFlagsBrs ≠ 0 ↔
      skb.isCanfd = true ∧ skb.cfd.flags &&& canfdBrs ≠ 0 := by
  rw [objFlagsBrs, and_bit_ne_zero (by decide), testBit_txObjFlags]
  simp

theorem txObjFlags_dlc (skb : Skb) {dlc : UInt8} (hd : dlc < 16) (seq : UInt32) :
    (objFlagsDlc.get (txObjFlags skb dlc seq)).toUInt8 = dlc := by
  have hlt : dlc.toNat < 2 ^ 4 := UInt8.lt_iff_toNat_lt.mp hd
  have hget : objFlagsDlc.get (txObjFlags skb dlc seq) = dlc.toUInt32 := by
    refine eq_of_testBit fun i => ?_
    rw [Field.testBit_get, testBit_txObjFlags, UInt8.toNat_toUInt32]
    by_cases hi : i ≤ 3
    · simp only [objFlagsDlc, Nat.zero_add]
      simp [hi, show ¬ i = 4 by omega, show ¬ i = 5 by omega, show ¬ i = 6 by omega,
        show ¬ i = 7 by omega, show ¬ i = 8 by omega, show ¬ 9 ≤ i by omega]
    · have hz : dlc.toNat.testBit i = false :=
        Nat.testBit_lt_two_pow (hlt.trans_le (Nat.pow_le_pow_right (by decide) (by omega)))
      simp [objFlagsDlc, hi, hz]
  rw [hget]
  exact UInt8.toUInt8_toUInt32 dlc

/-- The sequence number the controller copies into its TEF object. -/
theorem txObjFlags_seq (skb : Skb) (dlc : UInt8) (seq : UInt32) :
    objFlagsSeqMcp2518fd.get (txObjFlags skb dlc seq) = seq &&& objFlagsSeqMcp2518fd.low := by
  refine eq_of_testBit fun i => ?_
  rw [Field.testBit_get, testBit_txObjFlags, testBit_and, Field.testBit_low]
  simp only [objFlagsSeqMcp2518fd, Field.width]
  by_cases hi : 9 + i ≤ 31
  · simp [hi, show i < 23 by omega, show ¬ 9 + i ≤ 3 by omega, show ¬ 9 + i = 4 by omega,
      show ¬ 9 + i = 5 by omega, show ¬ 9 + i = 6 by omega, show ¬ 9 + i = 7 by omega,
      show ¬ 9 + i = 8 by omega]
  · simp [hi, show ¬ i < 23 by omega]

/-- A standard id has eleven bits. -/
theorem Skb.Valid.testBit_sff {skb : Skb} (hv : skb.Valid)
    (h : ¬ skb.cfd.canId &&& canEffFlag ≠ 0) {i : ℕ} (hlo : 11 ≤ i) (hhi : i ≤ 28) :
    skb.cfd.canId.toNat.testBit i = false := by
  have hle : (skb.cfd.canId &&& canEffMask).toNat ≤ 0x7ff :=
    UInt32.le_iff_toNat_le.mp (hv.canonical (not_not.mp h))
  have hlt : (skb.cfd.canId &&& canEffMask).toNat < 2 ^ i :=
    hle.trans_lt (lt_of_lt_of_le (by decide) (Nat.pow_le_pow_right (by decide) hlo))
  have hbit := Nat.testBit_lt_two_pow hlt
  have hmask : canEffMask.toNat.testBit i = true := by
    change (0x1fffffff : ℕ).testBit i = true
    rw [show (0x1fffffff : ℕ) = 2 ^ 29 - 1 from rfl, Nat.testBit_two_pow_sub_one]
    simp only [decide_eq_true_eq]
    omega
  rwa [testBit_and, hmask, Bool.and_true] at hbit

/-- Bit by bit, the id survives the two layouts of `can_id` and object; RTR is put back
later. -/
theorem testBit_rxObjCanId {skb : Skb} (hv : skb.Valid) {rx : HwRxObj}
    (hid : rx.id = (txObjId skb.cfd.canId).1)
    (hide : rx.flags &&& objFlagsIde ≠ 0 ↔ skb.cfd.canId &&& canEffFlag ≠ 0) (i : ℕ) :
    (rxObjCanId rx).toNat.testBit i = (skb.cfd.canId.toNat.testBit i && decide (i ≠ 30)) := by
  have herr : skb.cfd.canId.toNat.testBit 29 = false :=
    (and_bit_eq_zero (by decide) _).mp hv.noErr
  by_cases heff : skb.cfd.canId &&& canEffFlag ≠ 0
  · have h31 : skb.cfd.canId.toNat.testBit 31 = true := (and_bit_ne_zero (by decide) _).mp heff
    rw [rxObjCanId, if_pos (hide.mpr heff), hid, txObjId, if_pos heff]
    simp only [canEffFlag, testBit_or, testBit_bit (by decide : 31 < 32), Field.testBit_prep,
      Field.testBit_get, frameEffEid, frameEffSid, objIdEid, objIdSid]
    rcases Nat.lt_or_ge i 18 with h | h
    · simp [show i ≤ 17 by omega, show 11 + i ≤ 28 by omega, show i ≠ 31 by omega,
        show i ≠ 30 by omega, show ¬ 18 ≤ i by omega, show ¬ 11 + i ≤ 10 by omega]
    · rcases Nat.lt_or_ge 28 i with h' | h'
      · obtain rfl | rfl | rfl | h32 : i = 29 ∨ i = 30 ∨ i = 31 ∨ 32 ≤ i := by omega
        · simp [herr]
        · simp
        · simp [h31]
        · simp [testBit_of_ge _ h32, show i ≠ 31 by omega, show ¬ i ≤ 28 by omega,
            show ¬ i ≤ 17 by omega]
      · simp [h, h', show ¬ i ≤ 17 by omega, show i ≠ 31 by omega, show i ≠ 30 by omega,
          show i - 18 ≤ 10 by omega, show ¬ 11 ≤ i - 18 by omega,
          show 18 + (i - 18) = i by omega]
  · have h31 : skb.cfd.canId.toNat.testBit 31 = false :=
      (and_bit_eq_zero (by decide) _).mp (not_not.mp heff)
    rw [rxObjCanId, if_neg (fun h => heff (hide.mp h)), hid, txObjId, if_neg heff]
    simp only [Field.testBit_get, Field.testBit_prep, objIdSid]
    rcases Nat.lt_or_ge i 11 with h | h
    · simp [show i ≤ 10 by omega, show i ≠ 30 by omega]
    · rw [show decide (0 + i ≤ 10) = false by simp; omega, Bool.false_and]
      obtain h28 | rfl | rfl | rfl | h32 : i ≤ 28 ∨ i = 29 ∨ i = 30 ∨ i = 31 ∨ 32 ≤ i := by omega
      · simp [hv.testBit_sff heff h h28]
      · simp [herr]
      · simp
      · simp [h31]
      · simp [testBit_of_ge _ h32]

/-- With RTR put back, the `can_id` is the one that was sent. -/
theorem canId_of_rxObjCanId {canId got : UInt32}
    (h : ∀ i, got.toNat.testBit i = (canId.toNat.testBit i && decide (i ≠ 30))) :
    orIf (canId &&& canRtrFlag ≠ 0) got canRtrFlag = canId := by
  refine eq_of_testBit fun i => ?_
  rw [testBit_orIf, h, canRtrFlag, testBit_bit (by decide)]
  simp only [and_bit_ne_zero (by decide : 30 < 32)]
  by_cases hi : i = 30
  · subst hi
    simp
  · simp [hi]

/-- The RX object holds the id, the flags and the `n` data bytes of a TX object. -/
structure HwRxObj.Carries (rx : HwRxObj) (tx : HwTxObjRaw) (n : ℕ) : Prop where
  id_eq : rx.id = tx.id
  flags_eq : rx.flags = tx.flags
  data_eq : ∀ i : Fin 64, i.val < n → rx.data.get i = tx.data.get i

/-- The payload as the receiver sees it: the frame's bytes, then zeros. -/
def padded (cfd : CanfdFrame) : Data := memcpy (Vector.replicate 64 0) cfd.data cfd.len.toNat

/-- The frame that comes out of the controller when `skb` went in. -/
def DlcHelpers.received (K : DlcHelpers) (skb : Skb) : Skb :=
  { skb with
    cfd := { canId := skb.cfd.canId
             len := K.canFdDlc2len (K.canFdLen2dlc skb.cfd.len)
             flags := if skb.isCanfd then skb.cfd.flags &&& (canfdEsi ||| canfdBrs) else 0
             data := padded skb.cfd } }

theorem get_ofFn (f : Fin 64 → UInt8) (i : Fin 64) : (Vector.ofFn f).get i = f i := by
  change (Vector.ofFn f)[i.val] = f i
  simp

@[simp] theorem get_memcpy (dst src : Data) (n : ℕ) (i : Fin 64) :
    (memcpy dst src n).get i = if i.val < n then src.get i else dst.get i := get_ofFn _ i

@[simp] theorem get_memset (dst : Data) (offset : ℕ) (v : UInt8) (n : ℕ) (i : Fin 64) :
    (memset dst offset v n).get i =
      if offset ≤ i.val ∧ i.val < offset + n then v else dst.get i := get_ofFn _ i

theorem data_ext {x y : Data} (h : ∀ i : Fin 64, x.get i = y.get i) : x = y :=
  Vector.ext fun i hi => h ⟨i, hi⟩

namespace DlcHelpers
variable (K : DlcHelpers)

theorem dlc2len_of_lt {dlc : UInt8} (h : dlc < 16) :
    K.canDlc2len dlc = dlcLens.getD dlc.toNat 0 := by
  have hlt : dlc.toNat < 16 := UInt8.lt_iff_toNat_lt.mp h
  have hand : (dlc &&& 0x0f).toNat = dlc.toNat := by
    rw [UInt8.toNat_and]
    exact (Nat.and_two_pow_sub_one_eq_mod dlc.toNat 4).trans (Nat.mod_eq_of_lt hlt)
  rw [K.dlc2len_eq, hand]

private theorem dlcLens_mono : ∀ i j : Fin 16, i ≤ j → dlcLens.getD i 0 ≤ dlcLens.getD j 0 := by
  decide

private theorem dlcLens_small : ∀ i : Fin 9, dlcLens.getD i 0 = UInt8.ofNat i := by decide

/-- The length a frame comes back with is the least DLC length that holds it. -/
theorem received_len_least (len : UInt8) {l : UInt8} (hl : l ∈ dlcLens) (hle : len ≤ l) :
    K.canFdDlc2len (K.canFdLen2dlc len) ≤ l := by
  obtain ⟨d, hd, rfl⟩ := List.mem_iff_getElem.mp hl
  have hd16 : d < 16 := hd
  have hdlt : UInt8.ofNat d < 16 := by
    rw [UInt8.lt_iff_toNat_lt, UInt8.toNat_ofNat']
    exact (Nat.mod_le _ _).trans_lt hd16
  have hval : (UInt8.ofNat d).toNat = d := UInt8.toNat_ofNat_of_lt' (hd16.trans (by decide))
  have hcode : K.canLen2dlc len ≤ UInt8.ofNat d := by
    by_contra hlt
    have hless := K.len2dlc_least len (UInt8.ofNat d) (UInt8.not_le.mp hlt)
    rw [K.dlc2len_of_lt hdlt, hval, List.getD_eq_getElem _ _ hd] at hless
    exact absurd hle (UInt8.not_le.mpr hless)
  have hdlc := K.len2dlc_lt len
  rw [canFdDlc2len, canFdLen2dlc, K.dlc2len_of_lt hdlc, ← List.getD_eq_getElem _ 0 hd]
  rw [UInt8.le_iff_toNat_le, hval] at hcode
  exact dlcLens_mono ⟨_, UInt8.lt_iff_toNat_lt.mp hdlc⟩ ⟨d, hd16⟩ hcode

/-- Up to eight bytes the DLC is the length. -/
theorem len2dlc_of_le {len : UInt8} (h : len ≤ canMaxDlen) : K.canLen2dlc len ≤ len := by
  by_contra hlt
  have hless := K.len2dlc_least len len (UInt8.not_le.mp hlt)
  have hn : len.toNat < 9 := Nat.lt_succ_of_le (UInt8.le_iff_toNat_le.mp h)
  have h16 : len < 16 := UInt8.lt_iff_toNat_lt.mpr (hn.trans (by decide))
  have hsmall := dlcLens_small ⟨len.toNat, hn⟩
  rw [K.dlc2len_of_lt h16, hsmall, UInt8.ofNat_toNat] at hless
  exact absurd hless (UInt8.lt_irrefl len)

/-- For classic frames the two ways to read a DLC agree. -/
theorem cc_dlc2len {len : UInt8} (h : len ≤ canMaxDlen) :
    canCcDlc2len (K.canLen2dlc len) = K.canDlc2len (K.canLen2dlc len) := by
  have hle : (K.canLen2dlc len).toNat ≤ 8 :=
    UInt8.le_iff_toNat_le.mp (UInt8.le_trans (K.len2dlc_of_le h) h)
  have hsmall := dlcLens_small ⟨(K.canLen2dlc len).toNat, Nat.lt_succ_of_le hle⟩
  rw [K.dlc2len_of_lt (K.len2dlc_lt len), hsmall, UInt8.ofNat_toNat, canCcDlc2len]
  exact if_pos (UInt8.le_iff_toNat_le.mpr hle)

end DlcHelpers

theorem Skb.Valid.len_le_canfd {skb : Skb} (hv : skb.Valid) : skb.cfd.len ≤ canfdMaxDlen := by
  have h := hv.len_le
  split_ifs at h with hfd
  · exact h
  · exact UInt8.le_trans h (by decide)

namespace DlcHelpers
variable (K : DlcHelpers)

/-- What is loaded into the controller is the payload and then zeros. -/
theorem hwTxObj_data (skb : Skb) (old : HwTxObjRaw) (seq : UInt32) {i : Fin 64}
    (hi : i.val < K.txDataLen skb.cfd.len) :
    (K.hwTxObj old skb seq).data.get i = (padded skb.cfd).get i := by
  simp only [hwTxObj, padded, get_memcpy, get_memset]
  split_ifs with hlen hpad
  · rfl
  · exact (Vector.getElem_replicate ..).symm
  · have := Nat.div_mul_le_self skb.cfd.len.toNat 4
    unfold roundDown4 at hpad
    omega

variable {K}

/-- The data bytes of the frame that comes back. -/
theorem memcpy_of_carries {skb : Skb} (hv : skb.Valid) {old : HwTxObjRaw} {seq : UInt32}
    {rx : HwRxObj} (h : rx.Carries (K.hwTxObj old skb seq) (K.txDataLen skb.cfd.len)) :
    memcpy (Vector.replicate 64 0) rx.data (K.canFdDlc2len (K.canFdLen2dlc skb.cfd.len)).toNat =
      padded skb.cfd := by
  have hge : skb.cfd.len.toNat ≤ (K.canFdDlc2len (K.canFdLen2dlc skb.cfd.len)).toNat :=
    UInt8.le_iff_toNat_le.mp (K.len2dlc_ge _ hv.len_le_canfd)
  refine data_ext fun i => ?_
  rw [get_memcpy]
  split_ifs with hi
  · have hi' : i.val < K.txDataLen skb.cfd.len := by
      unfold txDataLen roundUp4
      omega
    rw [h.data_eq i hi', K.hwTxObj_data skb old seq hi']
  · rw [padded, get_memcpy, if_neg (by omega)]

/-- The flags byte of a CAN FD frame, put together flag by flag. -/
private theorem canfdFlags_eq (f : UInt8) :
    (if f &&& canfdBrs ≠ 0 then (if f &&& canfdEsi ≠ 0 then 0 ||| canfdEsi else 0) ||| canfdBrs
      else if f &&& canfdEsi ≠ 0 then 0 ||| canfdEsi else 0) = f &&& (canfdEsi ||| canfdBrs) := by
  have h : ∀ n : Fin 256, (if UInt8.ofNat n &&& canfdBrs ≠ 0 then
      (if UInt8.ofNat n &&& canfdEsi ≠ 0 then 0 ||| canfdEsi else 0) ||| canfdBrs
      else if UInt8.ofNat n &&& canfdEsi ≠ 0 then 0 ||| canfdEsi else 0) =
        UInt8.ofNat n &&& (canfdEsi ||| canfdBrs) := by decide +kernel
  have hf := h ⟨f.toNat, f.toNat_lt⟩
  rwa [UInt8.ofNat_toNat] at hf

/-- The frame that comes back from the controller. -/
theorem rxSkb_of_carries {skb : Skb} (hv : skb.Valid) {old : HwTxObjRaw} {seq : UInt32}
    {rx : HwRxObj} (h : rx.Carries (K.hwTxObj old skb seq) (K.txDataLen skb.cfd.len)) :
    K.rxSkb rx = K.received skb := by
  have hfl : rx.flags = txObjFlags skb (K.canLen2dlc skb.cfd.len) seq := h.flags_eq
  have hid := canId_of_rxObjCanId (testBit_rxObjCanId hv h.id_eq (by rw [hfl, txObjFlags_ide]))
  have hdata := memcpy_of_carries hv h
  have hdlc : (objFlagsDlc.get rx.flags).toUInt8 = K.canLen2dlc skb.cfd.len := by
    rw [hfl, txObjFlags_dlc skb (K.len2dlc_lt _)]
  have hfdf : rx.flags &&& objFlagsFdf ≠ 0 ↔ skb.isCanfd = true := by rw [hfl, txObjFlags_fdf]
  unfold rxSkb hwRxObjToSkb allocSkb
  cases hkind : skb.isCanfd with
  | true =>
    have hesi : rx.flags &&& objFlagsEsi ≠ 0 ↔ skb.cfd.flags &&& canfdEsi ≠ 0 := by
      rw [hfl, txObjFlags_esi]
      exact and_iff_right hkind
    have hbrs : rx.flags &&& objFlagsBrs ≠ 0 ↔ skb.cfd.flags &&& canfdBrs ≠ 0 := by
      rw [hfl, txObjFlags_brs]
      exact and_iff_right hkind
    rw [orIf, if_neg (not_not.mpr (hv.noRtr hkind))] at hid
    have hfd := hfdf.mpr hkind
    simp only [if_pos hfd, hesi, hbrs, hdlc, hid, canfdFlags_eq]
    simp only [received, hkind, canFdLen2dlc, ite_true] at hdata ⊢
    rw [hdata, decide_eq_true hfd]
  | false =>
    have hrtr : rx.flags &&& objFlagsRtr ≠ 0 ↔ skb.cfd.canId &&& canRtrFlag ≠ 0 := by
      rw [hfl, txObjFlags_rtr]
    have hlen : skb.cfd.len ≤ canMaxDlen := by simpa [hkind] using hv.len_le
    have hcc := K.cc_dlc2len hlen
    have hfd : ¬ rx.flags &&& objFlagsFdf ≠ 0 := by rw [hfdf, hkind]; decide
    simp only [orIf, hrtr] at hid ⊢
    simp only [if_neg hfd, hdlc, hcc, hid]
    simp only [received, hkind, canFdDlc2len, canFdLen2dlc] at hdata ⊢
    rw [hdata, decide_eq_false hfd]
    rfl

end DlcHelpers

/-- The same CAN frame: `flags` counts for CAN FD only, the data bytes up to `len`. -/
structure Skb.Same (skb skb' : Skb) : Prop where
  isCanfd_eq : skb.isCanfd = skb'.isCanfd
  canId_eq : skb.cfd.canId = skb'.cfd.canId
  len_eq : skb.cfd.len = skb'.cfd.len
  flags_eq : skb.isCanfd = true →
    skb.cfd.flags &&& (canfdEsi ||| canfdBrs) = skb'.cfd.flags &&& (canfdEsi ||| canfdBrs)
  data_eq : ∀ i : Fin 64, i.val < skb.cfd.len.toNat → skb.cfd.data.get i = skb'.cfd.data.get i

/-- Equal in what is loaded into the controller, `n` data bytes. -/
structure HwTxObjRaw.Same (tx tx' : HwTxObjRaw) (n : ℕ) : Prop where
  id_eq : tx.id = tx'.id
  flags_eq : tx.flags = tx'.flags
  data_eq : ∀ i : Fin 64, i.val < n → tx.data.get i = tx'.data.get i

namespace DlcHelpers
variable {K : DlcHelpers}

@[simp] theorem hwTxObj_txObjFromSkb (quirkCrcTx : Bool) (txObj : TxObj) (skb : Skb)
    (seq : UInt32) :
    (K.txObjFromSkb quirkCrcTx txObj skb seq).hwTxObj = K.hwTxObj txObj.hwTxObj skb seq := by
  cases quirkCrcTx <;> rfl

/-- One object, one frame as the receiver sees it. -/
theorem received_eq_of_same {skb skb' : Skb} (hv : skb.Valid) (hv' : skb'.Valid)
    {old old' : HwTxObjRaw} {seq seq' : UInt32}
    (h : (K.hwTxObj old skb seq).Same (K.hwTxObj old' skb' seq') (K.txDataLen skb.cfd.len)) :
    K.received skb = K.received skb' := by
  have hdlc : K.canLen2dlc skb.cfd.len = K.canLen2dlc skb'.cfd.len := by
    have hget := congrArg (fun w => (objFlagsDlc.get w).toUInt8) h.flags_eq
    have h1 := txObjFlags_dlc skb (K.len2dlc_lt skb.cfd.len) seq
    have h2 := txObjFlags_dlc skb' (K.len2dlc_lt skb'.cfd.len) seq'
    exact h1.symm.trans (hget.trans h2)
  have hn : K.txDataLen skb.cfd.len = K.txDataLen skb'.cfd.len := by
    rw [txDataLen, txDataLen, canFdLen2dlc, canFdLen2dlc, hdlc]
  let tx := K.hwTxObj old skb seq
  let rx : HwRxObj := { id := tx.id, flags := tx.flags, ts := 0, data := tx.data }
  have h1 : rx.Carries tx (K.txDataLen skb.cfd.len) := ⟨rfl, rfl, fun _ _ => rfl⟩
  have h2 : rx.Carries (K.hwTxObj old' skb' seq') (K.txDataLen skb'.cfd.len) :=
    ⟨h.id_eq, h.flags_eq, fun i hi => h.data_eq i (hn ▸ hi)⟩
  rw [← rxSkb_of_carries hv h1, rxSkb_of_carries hv' h2]

/-- Frames that come back the same and have one length are the same frame. -/
theorem same_of_received {skb skb' : Skb} (h : K.received skb = K.received skb')
    (hlen : skb.cfd.len = skb'.cfd.len) : skb.Same skb' := by
  have hkind : (K.received skb).isCanfd = (K.received skb').isCanfd := by rw [h]
  have hid : (K.received skb).cfd.canId = (K.received skb').cfd.canId := by rw [h]
  change skb.isCanfd = skb'.isCanfd at hkind
  refine ⟨hkind, hid, hlen, fun hfd => ?_, fun i hi => ?_⟩
  · have hf : (K.received skb).cfd.flags = (K.received skb').cfd.flags := by rw [h]
    simpa only [received, hfd, ← hkind, ite_true] using hf
  · have hd : (K.received skb).cfd.data.get i = (K.received skb').cfd.data.get i := by rw [h]
    simpa only [received, padded, get_memcpy, ← hlen, if_pos hi] using hd

end DlcHelpers

/-- What is sent comes back, with its length rounded up to a DLC length and zeros after the
payload; and the frame is fixed by its object up to the rounding of its length. -/
theorem rxSkb_txObjFromSkb (K : DlcHelpers) (quirkCrcTx : Bool) (txObj : TxObj) (skb : Skb)
    (hv : skb.Valid) (seq : UInt32) :
    (∀ rx : HwRxObj,
      rx.Carries (K.txObjFromSkb quirkCrcTx txObj skb seq).hwTxObj (K.txDataLen skb.cfd.len) →
        K.rxSkb rx = K.received skb) ∧
      skb.cfd.len ≤ (K.received skb).cfd.len ∧
      (∀ l ∈ dlcLens, skb.cfd.len ≤ l → (K.received skb).cfd.len ≤ l) ∧
      ∀ (txObj' : TxObj) (skb' : Skb) (seq' : UInt32), skb'.Valid →
        (K.txObjFromSkb quirkCrcTx txObj skb seq).hwTxObj.Same
          (K.txObjFromSkb quirkCrcTx txObj' skb' seq').hwTxObj (K.txDataLen skb.cfd.len) →
        K.received skb = K.received skb' ∧ (skb.cfd.len = skb'.cfd.len → skb.Same skb') := by
  simp only [DlcHelpers.hwTxObj_txObjFromSkb]
  refine ⟨fun rx h => DlcHelpers.rxSkb_of_carries hv h, K.len2dlc_ge _ hv.len_le_canfd,
    fun l hl hle => K.received_len_least _ hl hle, fun txObj' skb' seq' hv' h => ?_⟩
  have hrec := DlcHelpers.received_eq_of_same hv hv' h
  exact ⟨hrec, DlcHelpers.same_of_received hrec⟩

/-- `len2dlc` of the kernel. -/
def len2dlc : List UInt8 :=
  [0, 1, 2, 3, 4, 5, 6, 7, 8, 9, 9, 9, 9, 10, 10, 10, 10, 11, 11, 11, 11, 12, 12, 12, 12,
    13, 13, 13, 13, 13, 13, 13, 13, 14, 14, 14, 14, 14, 14, 14, 14, 14, 14, 14, 14, 14, 14, 14, 14,
    15, 15, 15, 15, 15, 15, 15, 15, 15, 15, 15, 15, 15, 15, 15, 15]

private theorem forall_uint8 {P : UInt8 → Prop} (h : ∀ n : Fin 256, P (UInt8.ofNat n))
    (x : UInt8) : P x := by
  have hx := h ⟨x.toNat, x.toNat_lt⟩
  rwa [UInt8.ofNat_toNat] at hx

def canDlc2len (dlc : UInt8) : UInt8 := dlcLens.getD (dlc &&& 0x0f).toNat 0

def canLen2dlc (len : UInt8) : UInt8 := if len > 64 then 0xf else len2dlc.getD len.toNat 0

private theorem canLen2dlc_lt (len : UInt8) : canLen2dlc len < 16 :=
  forall_uint8 (P := fun len => canLen2dlc len < 16) (by decide +kernel) len

private theorem canLen2dlc_least (len d : UInt8) (h : d < canLen2dlc len) :
    canDlc2len d < len := by
  have hall : ∀ (d : Fin 16) (n : Fin 256), UInt8.ofNat d < canLen2dlc (UInt8.ofNat n) →
      canDlc2len (UInt8.ofNat d) < UInt8.ofNat n := by decide +kernel
  have hd : d.toNat < 16 := UInt8.lt_iff_toNat_lt.mp (UInt8.lt_trans h (canLen2dlc_lt len))
  have hfin := hall ⟨d.toNat, hd⟩ ⟨len.toNat, len.toNat_lt⟩
  rw [UInt8.ofNat_toNat, UInt8.ofNat_toNat] at hfin
  exact hfin h

/-- The kernel's helpers. -/
def kernelDlc : DlcHelpers where
  canDlc2len := canDlc2len
  canLen2dlc := canLen2dlc
  dlc2len_eq _ := rfl
  len2dlc_lt := canLen2dlc_lt
  len2dlc_ge := forall_uint8 (by decide +kernel)
  len2dlc_least := canLen2dlc_least

/-- A CAN FD frame of `len` zero bytes. -/
def zeroFrame (len : UInt8) : Skb := ⟨true, ⟨0x123, len, 0, Vector.replicate 64 0⟩⟩

private theorem zeroFrame_valid {len : UInt8} (h : len ≤ 64) : (zeroFrame len).Valid where
  noErr := (by decide : (0x123 : UInt32) &&& canErrFlag = 0)
  canonical _ := (by decide : (0x123 : UInt32) &&& canEffMask ≤ canSffMask)
  len_le := h
  noRtr _ := (by decide : (0x123 : UInt32) &&& canRtrFlag = 0)

def emptyTxObj : TxObj := ⟨0, 0, ⟨0, 0, Vector.replicate 64 0⟩, 0, 0⟩

theorem rxSkb_txObjFromSkb_zeroFrame :
    (zeroFrame 9).Valid ∧ ∀ rx : HwRxObj,
      rx.Carries (kernelDlc.txObjFromSkb true emptyTxObj (zeroFrame 9) 5).hwTxObj 12 →
        kernelDlc.rxSkb rx = kernelDlc.received (zeroFrame 9) :=
  ⟨zeroFrame_valid (by decide),
    (rxSkb_txObjFromSkb kernelDlc true emptyTxObj (zeroFrame 9) (zeroFrame_valid (by decide)) 5).1⟩

/-- Nine and ten zero bytes have one DLC length and one object. -/
theorem txObjFromSkb_not_injective :
    (zeroFrame 9).Valid ∧ (zeroFrame 10).Valid ∧ ¬ (zeroFrame 9).Same (zeroFrame 10) ∧
      (kernelDlc.received (zeroFrame 9)).cfd.len = (kernelDlc.received (zeroFrame 10)).cfd.len ∧
      (kernelDlc.txObjFromSkb true emptyTxObj (zeroFrame 9) 5).hwTxObj =
        (kernelDlc.txObjFromSkb true emptyTxObj (zeroFrame 10) 5).hwTxObj :=
  ⟨zeroFrame_valid (by decide), zeroFrame_valid (by decide),
    fun h => absurd h.len_eq (by decide), by decide, by decide⟩

end YoctoLayers.Mcp251xfd
