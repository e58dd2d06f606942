import YoctoLayers.Lib.Blocks
import YoctoLayers.Mcp251xfd.IrqEvents
import YoctoLayers.Mcp251xfd.Probe
import YoctoLayers.Mcp251xfd.UpdateBits

/-! Where TEF, TX and RX objects lie in the RAM: as the driver counts on it after
`mcp251xfd_ring_alloc` and `mcp251xfd_ring_init`, and as the controller places them for the FIFO
registers that `mcp251xfd_chip_fifo_init` writes. -/
namespace YoctoLayers.Mcp251xfd
open YoctoLayers.Lib DrvM

/-- The sizes that `mcp251xfd_ring_alloc` sets up are those of the present mode. -/
structure Priv.Allocated (p : Priv) : Prop where
  txNum : p.txd.tx.objNum = if p.fdObjects then txObjNumCanfd else txObjNumCan
  txSize : p.txd.tx.objSize = txObjSize p.fdObjects
  rx : ∃ ring, p.rx = some ring ∧ ring.objNum = (RxRing.alloc p.fdObjects).objNum ∧
    ring.objSize = rxObjSize p.fdObjects

/-- The arrays of objects as the driver counts on them: TEF, TX and RX. -/
def ramBlocks (tx : TxRing) (rx : RxRing) : List Block :=
  [⟨tx.slots, tefObjSize⟩, ⟨tx.slots, tx.objSize.toNat⟩, ⟨rx.slots, rx.objSize.toNat⟩]

/-- The address that the driver uses for an object. -/
def objAddr (tx : TxRing) (rx : RxRing) (s : Slot) : UInt16 :=
  match s.block with
  | 0 => getTefObjAddr (UInt8.ofNat s.index)
  | 1 => getTxObjAddr tx (UInt8.ofNat s.index)
  | _ => getRxObjAddr rx (UInt8.ofNat s.index)

/-- The rings as `mcp251xfd_ring_init` leaves them, for objects of CAN FD frames or not. -/
structure RingsReady (fd : Bool) (tx : TxRing) (rx : RxRing) : Prop where
  txNum : tx.slots = if fd then 4 else 8
  txSize : tx.objSize.toNat = if fd then 72 else 16
  rxNum : rx.slots = if fd then 16 else 32
  rxSize : rx.objSize.toNat = if fd then 76 else 20
  txBase : tx.base.toNat = 0x400 + 12 * tx.slots
  rxBase : rx.base.toNat = tx.base.toNat + tx.objSize.toNat * tx.slots
  rxNr : rx.nr = 0
  rxFifo : rx.fifoNr = rxFifo 0

variable {σ : Type} {p : Priv}

theorem run_allocMem (d : Driver σ) (c : KernelCall) (w : World σ) :
    d.allocMem c w =
      if (d.env.call c w.env).1 = 0 then .ok () { w with env := (d.env.call c w.env).2 }
      else .error (-enomem) { w with env := (d.env.call c w.env).2 } := by
  have hcall : access (d.env.call c) w = .ok _ _ := run_access rfl
  refine (run_bind_ok hcall).trans ?_
  split_ifs with h
  · rfl
  · rw [check, if_neg (by decide)]
    rfl

/-- What fails, fails with its `goto` label. -/
theorem onError_ne_ok {α : Type} {undo : DrvM σ Unit} {x : DrvM σ α} {w w₁ w' : World σ} {err : ℤ}
    {a : α} (h : x w = .error err w₁) : onError undo x w ≠ .ok a w' := by
  have hcatch : onError undo x w = (undo >>= fun _ => throw err) w₁ := run_tryCatch_error h
  rw [hcatch]
  cases hu : undo w₁ with
  | ok u w₂ =>
    rw [run_bind_ok hu]
    exact fun hok => nomatch hok
  | error e w₂ =>
    rw [run_bind_error hu]
    exact fun hok => nomatch hok

/-- `mcp251xfd_ring_alloc` -/
theorem allocated_of_ringAlloc (d : Driver σ) {w w' : World σ} (h : d.ringAlloc w = .ok () w') :
    w'.priv.Allocated := by
  let fd := w.priv.fdObjects
  let w₁ : World σ :=
    { w with priv := { w.priv with txd := { w.priv.txd with tx := w.priv.txd.tx.alloc fd } } }
  have hrun : d.ringAlloc w = (onError d.ringFree (d.allocMem .kzalloc) >>= fun _ =>
      modifyPriv fun p => { p with rx := some (RxRing.alloc fd) }) w₁ := rfl
  have halloc := run_allocMem d .kzalloc w₁
  rw [hrun] at h
  split_ifs at halloc with hmem
  · rw [run_bind_ok (run_onError_ok halloc)] at h
    obtain ⟨-, rfl⟩ := EStateM.Result.ok.inj h
    exact ⟨rfl, rfl, RxRing.alloc fd, rfl, rfl, rfl⟩
  · cases hon : onError d.ringFree (d.allocMem .kzalloc) w₁ with
    | ok u w₂ => exact absurd hon (onError_ne_ok halloc)
    | error e w₂ =>
      rw [run_bind_error hon] at h
      exact nomatch h

/-- `mcp251xfd_ring_init` -/
theorem Priv.Allocated.ready (h : p.Allocated) :
    ∃ rx, p.ringInit.rx = some rx ∧ RingsReady p.fdObjects p.ringInit.txd.tx rx := by
  obtain ⟨htx, hsize, ring, hring, hnum, hrxsize⟩ := h
  have hslots : p.txd.tx.slots = if p.fdObjects then 4 else 8 := by
    unfold TxRing.slots
    rw [htx]
    cases p.fdObjects <;> rfl
  have hbase := toNat_getTxObjAddr_init p.txd.tx (n := 0) (Nat.zero_le _)
  have hend := toNat_getTxObjAddr_init p.txd.tx (n := p.txd.tx.objNum) le_rfl
  have hzero : (getTxObjAddr (txRingInit p.txd.tx) 0).toNat = (txRingInit p.txd.tx).base.toNat := by
    change ((txRingInit p.txd.tx).base + p.txd.tx.objSize.toUInt16 * 0).toNat = _
    rw [UInt16.mul_zero, UInt16.add_zero]
  refine ⟨{ ring with
    head := 0, tail := 0, nr := 0, fifoNr := rxFifo 0
    base := getTxObjAddr (txRingInit p.txd.tx) p.txd.tx.objNum }, ?_, ?_⟩
  · unfold Priv.ringInit
    rw [hring]
    rfl
  · refine ⟨hslots, ?_, ?_, ?_, ?_, ?_, rfl, rfl⟩
    · change p.txd.tx.objSize.toNat = _
      rw [hsize]
      cases p.fdObjects <;> rfl
    · change ring.objNum.toNat = _
      rw [hnum]
      cases p.fdObjects <;> decide
    · change ring.objSize.toNat = _
      rw [hrxsize]
      cases p.fdObjects <;> rfl
    · change (txRingInit p.txd.tx).base.toNat = 0x400 + 12 * p.txd.tx.slots
      rw [← hzero, hbase]
      simp
    · change (getTxObjAddr (txRingInit p.txd.tx) p.txd.tx.objNum).toNat =
        (txRingInit p.txd.tx).base.toNat + p.txd.tx.objSize.toNat * p.txd.tx.slots
      rw [hend, ← hzero, hbase, TxRing.toNat_objNum]
      simp

/-- An address in an array does not wrap around. -/
theorem toNat_index (base : UInt16) (size : UInt8) {n : ℕ} (hn : n < 256)
    (hfit : base.toNat + size.toNat * n < 2 ^ 16) :
    (base + size.toUInt16 * (UInt8.ofNat n).toUInt16).toNat = base.toNat + size.toNat * n := by
  have hval : (UInt8.ofNat n).toNat = n := UInt8.toNat_ofNat_of_lt' hn
  rw [UInt16.toNat_add, UInt16.toNat_mul, UInt8.toNat_toUInt16, UInt8.toNat_toUInt16, hval,
    Nat.mod_eq_of_lt (show size.toNat * n < 2 ^ 16 by omega), Nat.mod_eq_of_lt hfit]

/-- The bytes of TX object `n`. -/
theorem covers_tx_iff {tx : TxRing} {rx : RxRing} {a n : ℕ} :
    Blocks.Covers (ramBlocks tx rx) ⟨1, n⟩ a ↔
      n < tx.slots ∧ 12 * tx.slots + tx.objSize.toNat * n ≤ a ∧
        a < 12 * tx.slots + tx.objSize.toNat * n + tx.objSize.toNat := by
  have haddr : Blocks.addr (ramBlocks tx rx) ⟨1, n⟩ tx.objSize.toNat =
      12 * tx.slots + tx.objSize.toNat * n := by
    change tx.slots * 12 + 0 + n * tx.objSize.toNat = _
    rw [Nat.mul_comm n]
    omega
  constructor
  · rintro ⟨size, ⟨b, hb, hi, rfl⟩, hle, hlt⟩
    cases hb
    rw [haddr] at hle hlt
    exact ⟨hi, hle, hlt⟩
  · rintro ⟨hi, hle, hlt⟩
    rw [← haddr] at hle hlt
    exact ⟨_, ⟨_, rfl, hi, rfl⟩, hle, hlt⟩

namespace RingsReady
variable {fd : Bool} {tx : TxRing} {rx : RxRing} (h : RingsReady fd tx rx)
include h

theorem blocks :
    ramBlocks tx rx =
      if fd then [⟨4, 12⟩, ⟨4, 72⟩, ⟨16, 76⟩] else [⟨8, 12⟩, ⟨8, 16⟩, ⟨32, 20⟩] := by
  unfold ramBlocks
  rw [h.txNum, h.txSize, h.rxNum, h.rxSize]
  cases fd <;> rfl

theorem total_le : Blocks.total (ramBlocks tx rx) ≤ ramSize := by
  rw [h.blocks]
  cases fd <;> decide

theorem words : ∀ b ∈ ramBlocks tx rx, 4 ∣ b.size := by
  rw [h.blocks]
  cases fd <;> decide

/-- The driver's addresses are those of arrays that lie one behind the other. -/
theorem toNat_objAddr {s : Slot} {size : ℕ} (hs : Blocks.Has (ramBlocks tx rx) s size) :
    (objAddr tx rx s).toNat = ramStart.toNat + Blocks.addr (ramBlocks tx rx) s size := by
  have hstart : ramStart.toNat = 0x400 := rfl
  have htx := h.txBase
  have hrx := h.rxBase
  have hcases : (tx.slots = 4 ∧ tx.objSize.toNat = 72 ∧ rx.slots = 16 ∧ rx.objSize.toNat = 76) ∨
      (tx.slots = 8 ∧ tx.objSize.toNat = 16 ∧ rx.slots = 32 ∧ rx.objSize.toNat = 20) := by
    rw [h.txNum, h.txSize, h.rxNum, h.rxSize]
    cases fd
    · exact Or.inr ⟨rfl, rfl, rfl, rfl⟩
    · exact Or.inl ⟨rfl, rfl, rfl, rfl⟩
  obtain ⟨b, hb, hi, rfl⟩ := hs
  obtain ⟨k, i⟩ := s
  have hk : k < 3 := (List.getElem?_eq_some_iff.mp hb).1
  obtain rfl | rfl | rfl : k = 0 ∨ k = 1 ∨ k = 2 := by omega
  · cases hb
    change i < tx.slots at hi
    have haddr : (getTefObjAddr (UInt8.ofNat i)).toNat = 0x400 + 12 * i :=
      toNat_index ramStart 12 (by omega) (by
        change 0x400 + 12 * i < 2 ^ 16
        omega)
    change (getTefObjAddr (UInt8.ofNat i)).toNat = 0x400 + (0 + i * 12)
    omega
  · cases hb
    change i < tx.slots at hi
    have haddr : (getTxObjAddr tx (UInt8.ofNat i)).toNat =
        tx.base.toNat + tx.objSize.toNat * i := by
      apply toNat_index _ _ (by omega)
      rcases hcases with ⟨hn, hsize, -⟩ | ⟨hn, hsize, -⟩
      · rw [hsize]
        omega
      · rw [hsize]
        omega
    change (getTxObjAddr tx (UInt8.ofNat i)).toNat =
      0x400 + (tx.slots * 12 + 0 + i * tx.objSize.toNat)
    rw [haddr, htx, Nat.mul_comm i]
    omega
  · cases hb
    change i < rx.slots at hi
    have haddr : (getRxObjAddr rx (UInt8.ofNat i)).toNat =
        rx.base.toNat + rx.objSize.toNat * i := by
      apply toNat_index _ _ (by omega)
      rcases hcases with ⟨hn, hsize, hm, hrsize⟩ | ⟨hn, hsize, hm, hrsize⟩
      · rw [hrx, hsize, hrsize]
        omega
      · rw [hrx, hsize, hrsize]
        omega
    change (getRxObjAddr rx (UInt8.ofNat i)).toNat =
      0x400 + (tx.slots * 12 + (tx.slots * tx.objSize.toNat + 0) + i * rx.objSize.toNat)
    rw [haddr, hrx, htx, Nat.mul_comm i, Nat.mul_comm tx.slots tx.objSize.toNat]
    omega

theorem toNat_getTxObjAddr {n : UInt8} (hn : n.toNat ≤ tx.slots) :
    (getTxObjAddr tx n).toNat = tx.base.toNat + tx.objSize.toNat * n.toNat := by
  have hbase := h.txBase
  have hslots := tx.slots_cases
  have hprod : tx.objSize.toNat * tx.slots ≤ 288 := by
    rw [h.txSize, h.txNum]
    split_ifs <;> decide
  have hmul := Nat.mul_le_mul_left tx.objSize.toNat hn
  have hfit := toNat_index tx.base tx.objSize n.toNat_lt (by omega)
  rwa [UInt8.ofNat_toNat] at hfit

/-- `mcp251xfd_get_tx_nr_by_addr` finds the object that an address lies in. -/
theorem getTxNrByAddr_iff (addr : UInt16) (n : UInt8) :
    getTxNrByAddr tx addr = some n ↔ ramStart ≤ addr ∧
      Blocks.Covers (ramBlocks tx rx) ⟨1, n.toNat⟩ (addr.toNat - ramStart.toNat) := by
  have hstart : ramStart.toNat = 0x400 := rfl
  have hbase := h.txBase
  have hsize : 0 < tx.objSize.toNat := by
    rw [h.txSize]
    split_ifs <;> decide
  have hslots := tx.slots_cases
  have hlo : (getTxObjAddr tx 0).toNat = tx.base.toNat := h.toNat_getTxObjAddr (Nat.zero_le _)
  have hhi : (getTxObjAddr tx tx.objNum).toNat = tx.base.toNat + tx.objSize.toNat * tx.slots :=
    h.toNat_getTxObjAddr le_rfl
  rw [covers_tx_iff, UInt16.le_iff_toNat_le, hstart]
  unfold getTxNrByAddr
  by_cases hout : addr < getTxObjAddr tx 0 ∨ getTxObjAddr tx tx.objNum ≤ addr
  · rw [if_pos hout]
    rw [UInt16.lt_iff_toNat_lt, UInt16.le_iff_toNat_le, hlo, hhi] at hout
    apply iff_of_false (Option.some_ne_none n).symm
    rintro ⟨hram, hn, hle, hlt⟩
    have hnext := Nat.mul_le_mul_left tx.objSize.toNat (Nat.succ_le_of_lt hn)
    rw [Nat.mul_succ] at hnext
    rcases hout with hbelow | habove
    · omega
    · omega
  · rw [if_neg hout]
    rw [UInt16.lt_iff_toNat_lt, UInt16.le_iff_toNat_le, hlo, hhi] at hout
    have hsub : (addr - getTxObjAddr tx 0).toNat = addr.toNat - tx.base.toNat := by
      rw [UInt16.toNat_sub_of_le _ _ (by rw [UInt16.le_iff_toNat_le, hlo]; omega), hlo]
    have hquot : (addr.toNat - tx.base.toNat) / tx.objSize.toNat < tx.slots := by
      apply Nat.div_lt_of_lt_mul
      omega
    have hval : (UInt8.ofNat ((addr.toNat - tx.base.toNat) / tx.objSize.toNat)).toNat =
        (addr.toNat - tx.base.toNat) / tx.objSize.toNat :=
      UInt8.toNat_ofNat_of_lt' (hquot.trans (by
        change tx.slots < 256
        omega))
    have hdiv : (addr.toNat - tx.base.toNat) / tx.objSize.toNat = n.toNat ↔
        tx.objSize.toNat * n.toNat ≤ addr.toNat - tx.base.toNat ∧
          addr.toNat - tx.base.toNat < tx.objSize.toNat * n.toNat + tx.objSize.toNat := by
      rw [Nat.div_eq_iff hsize, Nat.mul_comm]
      omega
    rw [hsub, Option.some.injEq, ← UInt8.toNat_inj, hval, hdiv]
    constructor
    · intro hn
      refine ⟨by omega, ?_, by omega, by omega⟩
      rw [← hdiv] at hn
      omega
    · rintro ⟨hram, hn, hle, hlt⟩
      omega

end RingsReady

/-- Whatever the mode is when `mcp251xfd_ring_alloc` succeeds: after `mcp251xfd_ring_init` every
object is whole words of the RAM, no byte belongs to two objects, and
`mcp251xfd_get_tx_nr_by_addr` finds the TX object that a byte belongs to. -/
theorem ring_layout (d : Driver σ) {w w' : World σ} (halloc : d.ringAlloc w = .ok () w') :
    ∃ rx, w'.priv.ringInit.rx = some rx ∧
      (∀ s size, Blocks.Has (ramBlocks w'.priv.ringInit.txd.tx rx) s size →
        let addr := (objAddr w'.priv.ringInit.txd.tx rx s).toNat
        ramStart.toNat ≤ addr ∧ addr + size ≤ ramStart.toNat + ramSize ∧ 4 ∣ addr ∧ 4 ∣ size) ∧
      (∀ s s' size size' a, Blocks.Has (ramBlocks w'.priv.ringInit.txd.tx rx) s size →
        Blocks.Has (ramBlocks w'.priv.ringInit.txd.tx rx) s' size' →
        (objAddr w'.priv.ringInit.txd.tx rx s).toNat ≤ a →
        a < (objAddr w'.priv.ringInit.txd.tx rx s).toNat + size →
        (objAddr w'.priv.ringInit.txd.tx rx s').toNat ≤ a →
        a < (objAddr w'.priv.ringInit.txd.tx rx s').toNat + size' → s = s') ∧
      ∀ addr n, getTxNrByAddr w'.priv.ringInit.txd.tx addr = some n ↔
        n < w'.priv.ringInit.txd.tx.objNum ∧
          getTxObjAddr w'.priv.ringInit.txd.tx n ≤ addr ∧
          addr.toNat < (getTxObjAddr w'.priv.ringInit.txd.tx n).toNat +
            w'.priv.ringInit.txd.tx.objSize.toNat := by
  obtain ⟨rx, hrx, hready⟩ := (allocated_of_ringAlloc d halloc).ready
  refine ⟨rx, hrx, ?_⟩
  generalize w'.priv.ringInit.txd.tx = tx at hready ⊢
  refine ⟨fun s size hs => ?_, fun s s' size size' a hs hs' hle hlt hle' hlt' => ?_,
    fun addr n => ?_⟩
  · have haddr := hready.toNat_objAddr hs
    have hend := hs.le_total
    have htotal := hready.total_le
    have hfour := Blocks.dvd_addr hready.words hs
    have hstart : ramStart.toNat = 0x400 := rfl
    obtain ⟨b, hb, -, rfl⟩ := hs
    refine ⟨?_, ?_, ?_, hready.words b (List.mem_of_getElem? hb)⟩
    · omega
    · omega
    · rw [haddr]
      exact Nat.dvd_add (by decide) hfour
  · rw [hready.toNat_objAddr hs] at hle hlt
    rw [hready.toNat_objAddr hs'] at hle' hlt'
    have hc : Blocks.Covers (ramBlocks tx rx) s (a - ramStart.toNat) :=
      ⟨size, hs, by omega, by omega⟩
    exact hc.unique ⟨size', hs', by omega, by omega⟩
  · have hbase := hready.txBase
    have hstart : ramStart.toNat = 0x400 := rfl
    rw [hready.getTxNrByAddr_iff, covers_tx_iff, UInt16.le_iff_toNat_le, UInt16.le_iff_toNat_le,
      UInt8.lt_iff_toNat_lt, TxRing.toNat_objNum]
    constructor
    · rintro ⟨hram, hn, hle, hlt⟩
      rw [hready.toNat_getTxObjAddr hn.le]
      exact ⟨hn, by omega, by omega⟩
    · rintro ⟨hn, hle, hlt⟩
      rw [hready.toNat_getTxObjAddr hn.le] at hle hlt
      exact ⟨by omega, hn, by omega, by omega⟩

namespace Bench

/-- The private data of a CAN FD device behind `mcp251xfd_ring_alloc`. -/
def allocated : Priv :=
  { Priv.alloc with
    ctrlmode := canCtrlmodeFd
    regmaps := { Priv.alloc.regmaps with mapReg := some .crc }
    txd := { Priv.alloc.txd with tx := Priv.alloc.txd.tx.alloc true }
    rx := some (RxRing.alloc true) }

end Bench

/-- A CAN device: the TX object that an address lies in. -/
theorem ring_layout_can :
    let E : Env SpiChip := Env.onChip Bench.board Bench.bufNocrc Bench.bufCrc .crc
    let d := Fork.driver E ⟨0, 0, false, false⟩
    ∃ w', d.ringAlloc Bench.onCrcError = .ok () w' ∧
      (∀ addr n, getTxNrByAddr w'.priv.ringInit.txd.tx addr = some n ↔
        n < w'.priv.ringInit.txd.tx.objNum ∧
          getTxObjAddr w'.priv.ringInit.txd.tx n ≤ addr ∧
          addr.toNat < (getTxObjAddr w'.priv.ringInit.txd.tx n).toNat +
            w'.priv.ringInit.txd.tx.objSize.toNat) := by
  intro E d
  have hrun : d.ringAlloc Bench.onCrcError = .ok () _ := rfl
  obtain ⟨rx, -, -, -, hnr⟩ := ring_layout d hrun
  exact ⟨_, hrun, hnr⟩

/-! ### The registers -/

/-- The payload that `MCP251XFD_REG_FIFOCON_PLSIZE_*` stands for. -/
def plsizeBytes (code : UInt32) : ℕ := [8, 12, 16, 20, 24, 32, 48, 64].getD code.toNat 0

/-- The TEF as TEFCON describes it: id, flags and, with TEFTSEN, a time stamp. -/
def tefBlock (con : UInt32) : Block where
  count := (tefconFsize.get con).toNat + 1
  size := 8 + if con &&& tefconTeftsen ≠ 0 then 4 else 0

/-- A FIFO as its FIFOCON describes it: id, flags, in an RX FIFO with RXTSEN a time stamp, and the
payload. -/
def fifoBlock (con : UInt32) : Block where
  count := (fifoconFsize.get con).toNat + 1
  size := 8 + (if con &&& fifoconTxen = 0 ∧ con &&& fifoconRxtsen ≠ 0 then 4 else 0) +
    plsizeBytes (fifoconPlsize.get con)

/-- The controller's own layout: the TEF and then the FIFOs by number, without a TX queue. -/
def SpiChip.ramBlocks (c : SpiChip) : List Block :=
  [tefBlock (c.word regTefcon), fifoBlock (c.word (regFifocon txFifo)),
    fifoBlock (c.word (regFifocon (rxFifo 0)))]

section
variable {board : Board} {bufNocrc : MapBufNocrc} {bufCrc : MapBufCrc} {kind : MapKind}
  {w : World SpiChip}

end

end YoctoLayers.Mcp251xfd
