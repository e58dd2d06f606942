import YoctoLayers.Mcp251xfd.Layout

/-! The controller with its RX FIFO at the end of the bus. Frames come in from the CAN bus between
any two accesses of the driver; accesses may fail, and with CRC they may be disturbed. -/
namespace YoctoLayers.Mcp251xfd
open YoctoLayers.Lib DrvM

/-- The object that the bytes of one slot stand for. -/
def rxObjOf (size : ℕ) (bytes : ℕ → UInt8) : HwRxObj where
  id := getLe32 ((List.range 4).map bytes)
  flags := getLe32 ((List.range 4).map fun i => bytes (4 + i))
  ts := getLe32 ((List.range 4).map fun i => bytes (8 + i))
  data := Vector.ofFn fun j => if 12 + j.val < size then bytes (12 + j.val) else 0

/-- What the controller stores for a frame; a FIFO for classical frames holds no others. -/
structure RxFrame (fd : Bool) (size : ℕ) where
  bytes : ℕ → UInt8
  kind : fd = false → (rxObjOf size bytes).flags &&& objFlagsFdf = 0

/-- What happens outside of the driver, by the number of the access to the bus. -/
structure Traffic (fd : Bool) (size : ℕ) where
  /-- The frames that come in before the access. -/
  frames : ℕ → List (RxFrame fd size)
  /-- The error code of `spi_sync`. -/
  err : ℕ → ℤ
  /-- A failed write has reached the controller all the same. -/
  reached : ℕ → Bool
  /-- Data and CRC that arrive instead of those that the controller sends. -/
  noise : ℕ → Option (List UInt8 × UInt16)
  /-- What the controller sends for registers that are not those of the RX FIFO. -/
  other : ℕ → ℕ → UInt8
  /-- The allocation of this number fails. -/
  noSkb : ℕ → Bool

/-- The RX FIFO, and what the driver has queued. The counters count since the ring was set up. -/
structure RxBus where
  mem : ℕ → UInt8
  written : ℕ
  freed : ℕ
  stored : List HwRxObj
  queued : List (Frame × UInt32)
  /-- How often an skb was to be allocated. -/
  allocs : ℕ
  tick : ℕ

/-- Where the slots of the ring begin. -/
def RxRing.slotAddr (g : RxRing) (n : ℕ) : ℕ := g.base.toNat + g.objSize.toNat * n

namespace RxBus
variable (g : RxRing)

/-- A full FIFO drops the frame. -/
def receive (b : RxBus) {fd : Bool} (frame : RxFrame fd g.objSize.toNat) : RxBus :=
  if b.written < b.freed + g.slots then
    let addr := g.slotAddr (b.written % g.slots)
    { b with
      mem := fun a =>
        if addr ≤ a ∧ a < addr + g.objSize.toNat then frame.bytes (a - addr) else b.mem a
      written := b.written + 1
      stored := b.stored ++ [rxObjOf g.objSize.toNat frame.bytes] }
  else b

def receiveAll {fd : Bool} (frames : List (RxFrame fd g.objSize.toNat)) (b : RxBus) : RxBus :=
  frames.foldl (fun b frame => b.receive g frame) b

/-- FIFOSTA; the other flags are those of `sta`. -/
def fifosta (sta : UInt32) (b : RxBus) : UInt32 :=
  sta &&& ~~~fifostaFifoci.mask |||
    fifostaFifoci.prep (UInt32.ofNat (b.written % g.slots)) &&& fifostaFifoci.mask

/-- FIFOUA: the next object, counted from the start of the RAM. -/
def fifoua (b : RxBus) : UInt32 :=
  UInt32.ofNat (g.slotAddr (b.freed % g.slots) - ramStart.toNat)

/-- What the controller sends for one address. -/
def byte (other : ℕ → UInt8) (b : RxBus) (a : ℕ) : UInt8 :=
  let sta := (regFifosta g.fifoNr).toNat
  let ua := (regFifoua g.fifoNr).toNat
  if chipInRam a then b.mem a
  else if sta ≤ a ∧ a < sta + 4 then
    (le32 (b.fifosta g (getLe32 ((List.range 4).map fun i => other (sta + i))))).getD (a - sta) 0
  else if ua ≤ a ∧ a < ua + 4 then (le32 (b.fifoua g)).getD (a - ua) 0
  else other a

def bytes (other : ℕ → UInt8) (b : RxBus) (addr len : ℕ) : List UInt8 :=
  (List.range len).map fun i => b.byte g other (addr + i)

/-- A write: UINC of the FIFO gives the oldest slot back. -/
def write (reg : UInt16) (data : List UInt8) (b : RxBus) : RxBus :=
  if reg = regFifocon g.fifoNr + 1 ∧ data.getD 0 0 &&& 1 ≠ 0 ∧ b.freed < b.written then
    { b with freed := b.freed + 1 }
  else b

variable {g} {fd : Bool} (t : Traffic fd g.objSize.toNat)

/-- The frames that are there when the access takes place. -/
def arrive (b : RxBus) : RxBus :=
  { b.receiveAll g (t.frames b.tick) with tick := b.tick + 1 }

end RxBus

/-- The bus. Noise is what the CRC finds. -/
def Env.rxBus (board : Board) {g : RxRing} {fd : Bool} (t : Traffic fd g.objSize.toNat) :
    Env RxBus where
  board := board
  read reg len b :=
    let data := (b.arrive t).bytes g (t.other b.tick) reg.toNat len
    (if t.err b.tick ≠ 0 then (t.err b.tick, []) else (0, data), b.arrive t)
  readCrc reg len b :=
    let data := (b.arrive t).bytes g (t.other b.tick) reg.toNat len
    let crc := crc16Compute2 (spiCmdReadCrc reg len) data
    let sent :=
      match t.noise b.tick with
      | some (data', crc') =>
        if crc' ≠ crc16Compute2 (spiCmdReadCrc reg len) data' then (data', crc') else (data, crc)
      | none => (data, crc)
    (if t.err b.tick ≠ 0 then (t.err b.tick, [], 0) else (0, sent), b.arrive t)
  write reg data b :=
    if t.err b.tick ≠ 0 then
      (t.err b.tick, if t.reached b.tick then (b.arrive t).write g reg data else b.arrive t)
    else (0, (b.arrive t).write g reg data)
  reset b := (0, b)
  polls _ b := (0, b)
  rxPending b := (decide ((b.arrive t).freed < (b.arrive t).written), b.arrive t)
  call c b :=
    match c with
    | .allocSkb _ => (if t.noSkb b.allocs then -enomem else 0, { b with allocs := b.allocs + 1 })
    | .queueSorted frame ts => (0, { b with queued := b.queued ++ [(frame, ts)] })
    | _ => (0, b)

theorem RxRing.slots_apart (g : RxRing) {m n : ℕ} (hne : m ≠ n) :
    g.slotAddr m + g.objSize.toNat ≤ g.slotAddr n ∨
      g.slotAddr n + g.objSize.toNat ≤ g.slotAddr m := by
  unfold RxRing.slotAddr
  rcases Nat.lt_or_gt_of_ne hne with hlt | hlt
  · have hnext := Nat.mul_le_mul_left g.objSize.toNat (Nat.succ_le_of_lt hlt)
    rw [Nat.mul_succ] at hnext
    exact Or.inl (by omega)
  · have hnext := Nat.mul_le_mul_left g.objSize.toNat (Nat.succ_le_of_lt hlt)
    rw [Nat.mul_succ] at hnext
    exact Or.inr (by omega)

namespace RingsReady
variable {fd : Bool} {tx : TxRing} {g : RxRing} (h : RingsReady fd tx g)
include h

theorem rxSize_cases : g.objSize.toNat = 76 ∧ fd = true ∨ g.objSize.toNat = 20 ∧ fd = false := by
  rw [h.rxSize]
  cases fd
  · exact Or.inr ⟨rfl, rfl⟩
  · exact Or.inl ⟨rfl, rfl⟩

theorem rxSize_ge : 12 ≤ g.objSize.toNat := by
  have := h.rxSize_cases
  omega

theorem rxSlot_bounds {n : ℕ} (hn : n < g.slots) :
    0x400 ≤ g.slotAddr n ∧ g.slotAddr n + g.objSize.toNat ≤ 0xc00 := by
  have hnext := Nat.mul_le_mul_left g.objSize.toNat (Nat.succ_le_of_lt hn)
  have htotal : g.base.toNat + g.objSize.toNat * g.slots ≤ 0xc00 := by
    rw [h.rxBase, h.txBase, h.rxSize, h.rxNum, h.txSize, h.txNum]
    cases fd <;> decide
  have hbase : 0x400 ≤ g.base.toNat := by
    rw [h.rxBase, h.txBase]
    omega
  unfold RxRing.slotAddr
  rw [Nat.mul_succ] at hnext
  omega

end RingsReady

namespace RxBus
variable {g : RxRing} {fd : Bool} {tx : TxRing}

theorem length_bytes (other : ℕ → UInt8) (b : RxBus) (addr len : ℕ) :
    (b.bytes g other addr len).length = len := by
  rw [bytes, List.length_map, List.length_range]

/-- A block of the RAM. -/
theorem bytes_ram (other : ℕ → UInt8) (b : RxBus) {addr len : ℕ} (hlo : 0x400 ≤ addr)
    (hhi : addr + len ≤ 0xc00) :
    b.bytes g other addr len = (List.range len).map fun i => b.mem (addr + i) := by
  refine List.map_congr_left fun i hi => ?_
  have := List.mem_range.mp hi
  have hram : chipInRam (addr + i) = true := decide_eq_true ⟨by omega, by omega⟩
  unfold byte
  rw [hram]
  rfl

theorem getLe32_range (x : UInt32) {f : ℕ → UInt8} (h : ∀ i < 4, f i = (le32 x).getD i 0) :
    getLe32 ((List.range 4).map f) = x := by
  have hmap : (List.range 4).map f = le32 x := by
    change [f 0, f 1, f 2, f 3] = _
    rw [h 0 (by decide), h 1 (by decide), h 2 (by decide), h 3 (by decide)]
    rfl
  rw [hmap, getLe32_le32]

theorem getLe32_fifosta (h : RingsReady fd tx g) (other : ℕ → UInt8) (b : RxBus) :
    getLe32 (b.bytes g other (regFifosta g.fifoNr).toNat 4) = b.fifosta g
      (getLe32 ((List.range 4).map fun i => other ((regFifosta g.fifoNr).toNat + i))) := by
  have hsta : (regFifosta g.fifoNr).toNat + 4 ≤ 0x400 := by
    rw [h.rxFifo]
    decide
  refine getLe32_range _ fun i hi => ?_
  have hram : chipInRam ((regFifosta g.fifoNr).toNat + i) = false :=
    decide_eq_false (by omega)
  unfold byte
  simp only [hram, Bool.false_eq_true, if_false]
  rw [if_pos (by omega), Nat.add_sub_cancel_left]

theorem getLe32_fifoua (h : RingsReady fd tx g) (other : ℕ → UInt8) (b : RxBus) :
    getLe32 (b.bytes g other (regFifoua g.fifoNr).toNat 4) = b.fifoua g := by
  have hua : (regFifoua g.fifoNr).toNat + 4 ≤ 0x400 := by
    rw [h.rxFifo]
    decide
  have hapart : (regFifosta g.fifoNr).toNat + 4 ≤ (regFifoua g.fifoNr).toNat := by
    rw [h.rxFifo]
    decide
  refine getLe32_range _ fun i hi => ?_
  have hram : chipInRam ((regFifoua g.fifoNr).toNat + i) = false :=
    decide_eq_false (by omega)
  unfold byte
  simp only [hram, Bool.false_eq_true, if_false]
  rw [if_neg (by omega), if_pos (by omega), Nat.add_sub_cancel_left]

/-- FIFOCI as the driver gets it. -/
theorem fifoci_fifosta (sta : UInt32) (b : RxBus) :
    (fifostaFifoci.get (b.fifosta g sta)).toUInt8 = UInt8.ofNat (b.written % g.slots) := by
  have hbounds := g.slots_bounds
  have hmod := Nat.mod_lt b.written hbounds.1
  have hmax : rxObjNumMax = 32 := rfl
  have hlow : fifostaFifoci.low = 31 := by decide
  have hand : UInt32.ofNat (b.written % g.slots) &&& 31 = UInt32.ofNat (b.written % g.slots) := by
    rw [← UInt32.toNat_inj, UInt32.toNat_and, UInt32.toNat_ofNat', Nat.mod_eq_of_lt (by omega)]
    exact Nat.and_two_pow_sub_one_of_lt_two_pow (n := 5) (by omega)
  unfold fifosta
  rw [fifostaFifoci.get_update, hlow, hand, ← UInt8.toNat_inj, UInt32.toNat_toUInt8,
    UInt32.toNat_ofNat', UInt8.toNat_ofNat']
  omega

/-- FIFOUA as `mcp251xfd_check_rx_tail` takes it. -/
theorem fifoua_index (h : RingsReady fd tx g) (b : RxBus) :
    UInt8.ofNat ((b.fifoua g - (g.base.toUInt32 - ramStart.toUInt32)).toNat / g.objSize.toNat) =
      UInt8.ofNat (b.freed % g.slots) := by
  have hmod := Nat.mod_lt b.freed g.slots_bounds.1
  have hsize := h.rxSize_ge
  obtain ⟨hlo, hhi⟩ := h.rxSlot_bounds hmod
  obtain ⟨hbase, -⟩ := h.rxSlot_bounds (n := 0) g.slots_bounds.1
  have hstart : ramStart.toNat = 0x400 := rfl
  have hstart32 : ramStart.toUInt32.toNat = 0x400 := rfl
  unfold RxRing.slotAddr at hlo hhi hbase
  rw [Nat.mul_zero, Nat.add_zero] at hbase
  have hoff : (g.base.toUInt32 - ramStart.toUInt32).toNat = g.base.toNat - 0x400 := by
    rw [UInt32.toNat_sub_of_le _ _ (by
      rw [UInt32.le_iff_toNat_le, hstart32, UInt16.toNat_toUInt32]
      exact hbase), hstart32, UInt16.toNat_toUInt32]
  have hua : (b.fifoua g).toNat = g.base.toNat + g.objSize.toNat * (b.freed % g.slots) - 0x400 := by
    unfold fifoua RxRing.slotAddr
    rw [UInt32.toNat_ofNat', hstart, Nat.mod_eq_of_lt (by omega)]
  have hsub : (b.fifoua g - (g.base.toUInt32 - ramStart.toUInt32)).toNat =
      g.objSize.toNat * (b.freed % g.slots) := by
    rw [UInt32.toNat_sub_of_le _ _ (by rw [UInt32.le_iff_toNat_le]; omega), hoff, hua]
    omega
  rw [hsub, Nat.mul_div_cancel_left _ (by omega)]

end RxBus
end YoctoLayers.Mcp251xfd
