import YoctoLayers.Mcp251xfd.Fork
import YoctoLayers.Mcp251xfd.SpiBus

/-! `regmap_update_bits` on the two maps: what `mcp251xfd_regmap_nocrc_update_bits` and the
read-modify-write of regmap leave in the controller. -/
namespace YoctoLayers.Mcp251xfd
open YoctoLayers.Lib

/-- The places that call `regmap_update_bits`. The controller has FIFOs for rings `0` to `29`. -/
inductive UpdateSite
  /-- `__mcp251xfd_chip_set_mode` -/
  | chipSetMode
  /-- `mcp251xfd_chip_rx_filter_init_one` -/
  | chipRxFilterInitOne (ring : Fin 30)
  /-- `mcp251xfd_chip_ecc_init` -/
  | chipEccInit
  /-- `mcp251xfd_chip_interrupts_enable` and `mcp251xfd_chip_interrupts_disable` -/
  | chipInterrupts
  /-- `mcp251xfd_handle_rxovif` -/
  | handleRxovif (ring : Fin 30)
  /-- `mcp251xfd_handle_eccif` -/
  | handleEccif
  /-- `mcp251xfd_handle_spicrcif` -/
  | handleSpicrcif
  /-- `mcp251xfd_irq` -/
  | irq
  /-- `mcp251xfd_register_chip_detect` -/
  | registerChipDetect

namespace UpdateSite

def reg : UpdateSite → UInt16
  | chipSetMode => regCon
  | chipRxFilterInitOne ring => regFltcon (UInt8.ofNat ring >>> 2)
  | chipEccInit => regEcccon
  | chipInterrupts => regEcccon
  | handleRxovif ring => regFifosta (rxFifo (UInt8.ofNat ring))
  | handleEccif => regEccstat
  | handleSpicrcif => regCrc
  | irq => regInt
  | registerChipDetect => regOsc

def mask : UpdateSite → UInt32
  | chipSetMode => conReqop.mask
  | chipRxFilterInitOne ring => fltconFltMask (UInt8.ofNat ring)
  | chipEccInit => eccconEccen
  | chipInterrupts => eccconDedie ||| eccconSecie
  | handleRxovif _ => fifostaRxovif
  | handleEccif => eccstatIf.mask
  | handleSpicrcif => crcIf.mask
  | irq => intIf.mask
  | registerChipDetect => oscLpmen

/-- The bits of the register that `mcp251xfd.h` names. -/
def bits : UpdateSite → UInt32
  | chipSetMode => conBits
  | chipRxFilterInitOne _ => fltconBits
  | chipEccInit => eccconBits
  | chipInterrupts => eccconBits
  | handleRxovif _ => fifostaBits
  | handleEccif => eccstatBits
  | handleSpicrcif => crcBits
  | irq => intBits
  | registerChipDetect => oscBits

theorem isRegister (s : UpdateSite) : IsRegister s.reg := by
  cases s with
  | chipRxFilterInitOne ring =>
    exact ⟨by revert ring; decide, by revert ring; decide, by revert ring; decide⟩
  | handleRxovif ring =>
    exact ⟨by revert ring; decide, by revert ring; decide, by revert ring; decide⟩
  | _ => exact ⟨by decide, by decide, by decide⟩

theorem mask_ne_zero (s : UpdateSite) : s.mask ≠ 0 := by
  cases s with
  | chipRxFilterInitOne ring => revert ring; decide
  | handleRxovif _ => change fifostaRxovif ≠ 0; decide
  | _ => decide

theorem writeable (s : UpdateSite) : regWriteable s.reg.toNat := by
  cases s with
  | chipRxFilterInitOne ring => revert ring; decide
  | handleRxovif ring => revert ring; decide
  | _ => decide

/-- Where the driver writes without reading, the mask covers every bit that its bytes have. -/
theorem covers (s : UpdateSite) (hread : updateBitsReadReg s.reg = false) :
    ∀ i < 32, firstByteSet s.mask ≤ i / 8 → i / 8 ≤ lastByteSet s.mask →
      s.bits.toNat.testBit i = true → s.mask.toNat.testBit i = true := by
  cases s with
  | chipRxFilterInitOne ring =>
    revert ring
    decide +kernel
  | handleRxovif ring =>
    have hreads : ∀ ring, updateBitsReadReg (handleRxovif ring).reg = true := by decide
    rw [hreads] at hread
    cases hread
  | handleEccif => decide
  | handleSpicrcif => decide
  | irq => decide
  | _ => cases hread

end UpdateSite

theorem maskedBytes_congr {mask x y : UInt32} (hmask : mask ≠ 0)
    (h : ∀ i < 32, firstByteSet mask ≤ i / 8 → i / 8 ≤ lastByteSet mask →
      x.toNat.testBit i = y.toNat.testBit i) : maskedBytes mask x = maskedBytes mask y := by
  have hfirst := firstByteSet_le mask
  have hle := firstByteSet_le_lastByteSet hmask
  have hlast := lastByteSet_le mask
  rw [← take_masked hmask x]
  apply take_le32_eq (by omega)
  intro i hi
  rw [testBit_shiftRight_byte x (by omega)]
  exact h _ (by omega) (by omega) (by omega)

theorem getD_maskedBytes {mask : UInt32} (x : UInt32) {k : ℕ} (hfirst : firstByteSet mask ≤ k)
    (hlast : k ≤ lastByteSet mask) :
    (maskedBytes mask x).getD (k - firstByteSet mask) 0 = (le32 x).getD k 0 := by
  simp only [maskedBytes, List.getD_eq_getElem?_getD, List.getElem?_take, List.getElem?_drop]
  rw [if_pos (by omega), Nat.add_sub_cancel' hfirst]

namespace SpiChip
variable (c : SpiChip)

theorem getD_bytes {addr len k : ℕ} (hk : k < len) :
    (c.bytes addr len).getD k 0 = c.mem (addr + k) := by
  simp [bytes, List.getD_eq_getElem?_getD, hk]

theorem testBit_word (reg : UInt16) {i : ℕ} (hi : i < 32) :
    (c.word reg).toNat.testBit i = (c.mem (reg.toNat + i / 8)).toNat.testBit (i % 8) := by
  rw [word, testBit_getLe32 _ hi, c.getD_bytes (by omega)]

/-- The bytes of a register are those of its word. -/
theorem getD_le32_word (reg : UInt16) {k : ℕ} (hk : k < 4) :
    (le32 (c.word reg)).getD k 0 = c.mem (reg.toNat + k) := by
  apply eq_of_testBit_byte
  intro j hj
  rw [testBit_le32 _ hk hj, c.testBit_word reg (by omega)]
  congr 3 <;> omega

theorem put_word (reg : UInt16) : c.put reg.toNat (le32 (c.word reg)) = c := by
  unfold put
  congr 1
  funext a
  split_ifs with ha
  · rw [length_le32] at ha
    rw [c.getD_le32_word reg (by omega), Nat.add_sub_cancel' ha.1]
  · rfl

theorem word_put (reg : UInt16) (x : UInt32) : (c.put reg.toNat (le32 x)).word reg = x := by
  apply eq_of_testBit
  intro i
  by_cases hi : i < 32
  · have hmem : (c.put reg.toNat (le32 x)).mem (reg.toNat + i / 8) = (le32 x).getD (i / 8) 0 := by
      unfold put
      dsimp only
      rw [length_le32, if_pos (by omega), Nat.add_sub_cancel_left]
    rw [testBit_word _ reg hi, hmem, testBit_le32 x (by omega) (by omega)]
    congr 1
    omega
  · rw [testBit_of_ge _ (Nat.le_of_not_lt hi), testBit_of_ge _ (Nat.le_of_not_lt hi)]

/-- Writing the bytes that a mask touches writes the word, if the word only changes there. -/
theorem put_maskedBytes {reg : UInt16} {mask x : UInt32} (hmask : mask ≠ 0)
    (h : ∀ i < 32, mask.toNat.testBit i = false →
      x.toNat.testBit i = (c.word reg).toNat.testBit i) :
    c.put (reg.toNat + firstByteSet mask) (maskedBytes mask x) = c.put reg.toNat (le32 x) := by
  have hle := firstByteSet_le_lastByteSet hmask
  have hlast := lastByteSet_le mask
  unfold put
  congr 1
  funext a
  rw [length_maskedBytes hmask, length_le32]
  by_cases hin : reg.toNat ≤ a ∧ a < reg.toNat + 4
  · obtain ⟨k, rfl⟩ := Nat.exists_eq_add_of_le hin.1
    rw [if_pos hin, Nat.add_sub_cancel_left]
    by_cases hk : firstByteSet mask ≤ k ∧ k ≤ lastByteSet mask
    · rw [if_pos (by omega), ← getD_maskedBytes x hk.1 hk.2]
      congr 1
      omega
    · rw [if_neg (by omega), ← c.getD_le32_word reg (by omega)]
      apply eq_of_testBit_byte
      intro j hj
      have hdiv : (8 * k + j) / 8 = k := by omega
      have hclear : mask.toNat.testBit (8 * k + j) = false := by
        rw [← Bool.not_eq_true]
        intro hset
        have := firstByteSet_le_div hset
        have := div_le_lastByteSet hset
        omega
      rw [testBit_le32 _ (by omega) hj, testBit_le32 _ (by omega) hj,
        h _ (by omega) hclear]
  · rw [if_neg hin, if_neg (by omega)]

end SpiChip

section
variable {board : Board} {bufNocrc : MapBufNocrc} {bufCrc : MapBufCrc} {kind : MapKind}
  {w : World SpiChip}

theorem onChip_spiRead {addr : UInt16} (haddr : addr.toNat < 4096) (len : ℕ) :
    (Env.onChip board bufNocrc bufCrc kind).spiRead addr len w =
      .ok (w.env.bytes addr.toNat len) w := by
  have hread : (Env.onChip board bufNocrc bufCrc kind).read addr len w.env = _ :=
    onChip_read haddr len w.env
  exact run_bind_ok (DrvM.run_access hread)

theorem onChip_spiWrite {addr : UInt16} {data : List UInt8} {size : ℕ}
    (h : Writes kind size (Spi.writeMessage board.sanity bufNocrc bufCrc kind addr data)
      addr.toNat data) :
    (Env.onChip board bufNocrc bufCrc kind).spiWrite addr data w =
      .ok () { w with env := w.env.put addr.toNat data, writes := w.writes ++ [(addr, data)] } := by
  have hmodify : (modify fun w => { w with writes := w.writes ++ [(addr, data)] } :
      DrvM SpiChip Unit) w = .ok () { w with writes := w.writes ++ [(addr, data)] } := rfl
  exact (run_bind_ok hmodify).trans (run_bind_ok
    (DrvM.run_access (w := { w with writes := w.writes ++ [(addr, data)] }) (onChip_write h w.env)))

theorem onChip_crcRead {reg : UInt16} (hreg : IsRegister reg) :
    (Fork.bus (Env.onChip board bufNocrc bufCrc kind)).crcRead reg 4 w =
      .ok (w.env.bytes reg.toNat 4) w := by
  have hread : (Env.onChip board bufNocrc bufCrc kind).readCrc reg 4 w.env = _ :=
    onChip_readCrc hreg w.env
  have hone : (Env.onChip board bufNocrc bufCrc kind).regmapCrcReadOne reg 4 w =
      .ok (0, w.env.bytes reg.toNat 4) w := by
    refine (run_bind_ok (DrvM.run_access hread)).trans ?_
    simp only [ne_eq, not_true_eq_false, if_false]
    rfl
  have htries : (Env.onChip board bufNocrc bufCrc kind).regmapCrcReadTries reg 4
      readCrcRetriesMax w = .ok (some (w.env.bytes reg.toNat 4)) w := run_bind_ok hone
  exact run_bind_ok htries

/-- A register after bits of it are updated. -/
def updated (old mask val : UInt32) : UInt32 := (old &&& ~~~mask) ||| (val &&& mask)

theorem testBit_updated_of_clear {old mask val : UInt32} {i : ℕ} (hi : i < 32)
    (h : mask.toNat.testBit i = false) :
    (updated old mask val).toNat.testBit i = old.toNat.testBit i := by
  simp only [updated, testBit_or, testBit_and, testBit_not, h, hi]
  simp

/-- The bytes that `mcp251xfd_regmap_nocrc_update_bits` has read are those of the register. -/
theorem testBit_bytes_shiftLeft (c : SpiChip) {reg : UInt16} {mask : UInt32} {i : ℕ} (hi : i < 32)
    (hfirst : firstByteSet mask ≤ i / 8) (hlast : i / 8 ≤ lastByteSet mask) :
    (getLe32 (c.bytes (reg.toNat + firstByteSet mask)
        (lastByteSet mask - firstByteSet mask + 1)) <<<
      UInt32.ofNat (8 * firstByteSet mask)).toNat.testBit i = (c.word reg).toNat.testBit i := by
  have := firstByteSet_le mask
  rw [testBit_shiftLeft_byte _ (by omega), testBit_getLe32 _ (by omega),
    c.getD_bytes (by omega), c.testBit_word reg hi]
  have hdiv : firstByteSet mask + (i - 8 * firstByteSet mask) / 8 = i / 8 := by omega
  have hmod : (i - 8 * firstByteSet mask) % 8 = i % 8 := by omega
  simp only [hi, show 8 * firstByteSet mask ≤ i by omega, decide_true, Bool.true_and,
    Nat.add_assoc, hdiv, hmod]

/-- `orig_le32` of `mcp251xfd_regmap_nocrc_update_bits` -/
def SpiChip.origLe32 (c : SpiChip) (reg : UInt16) (mask : UInt32) : UInt32 :=
  if updateBitsReadReg reg then
    getLe32 (c.bytes (reg.toNat + firstByteSet mask) (lastByteSet mask - firstByteSet mask + 1))
  else 0

/-- Where the register is not read, the mask leaves nothing of it that could be set. -/
theorem testBit_origLe32 {c : SpiChip} {reg : UInt16} {mask bits : UInt32}
    (hbits : c.word reg &&& ~~~bits = 0)
    (hcovers : updateBitsReadReg reg = false → ∀ i < 32, firstByteSet mask ≤ i / 8 →
      i / 8 ≤ lastByteSet mask → bits.toNat.testBit i = true → mask.toNat.testBit i = true)
    {i : ℕ} (hi : i < 32) (hfirst : firstByteSet mask ≤ i / 8) (hlast : i / 8 ≤ lastByteSet mask)
    (hclear : mask.toNat.testBit i = false) :
    (c.origLe32 reg mask <<< UInt32.ofNat (8 * firstByteSet mask)).toNat.testBit i =
      (c.word reg).toNat.testBit i := by
  unfold SpiChip.origLe32
  by_cases hread : updateBitsReadReg reg
  · rw [if_pos hread, testBit_bytes_shiftLeft c hi hfirst hlast]
  · have hfour := firstByteSet_le mask
    have hunset : bits.toNat.testBit i = false := by
      rw [← Bool.not_eq_true]
      intro hset
      rw [hcovers (Bool.not_eq_true _ ▸ hread) i hi hfirst hlast hset] at hclear
      cases hclear
    have hbit : (c.word reg &&& ~~~bits).toNat.testBit i = false := by
      rw [hbits]
      exact testBit_zero i
    rw [testBit_and, testBit_not, hunset] at hbit
    rw [if_neg hread, testBit_shiftLeft_byte _ (by omega), testBit_zero, Bool.and_false]
    simpa [hi] using hbit.symm

/-- The bytes that are written are those of the updated register. -/
theorem take_le32_origLe32 {c : SpiChip} {reg : UInt16} {mask bits : UInt32} (hmask : mask ≠ 0)
    (val : UInt32) (hbits : c.word reg &&& ~~~bits = 0)
    (hcovers : updateBitsReadReg reg = false → ∀ i < 32, firstByteSet mask ≤ i / 8 →
      i / 8 ≤ lastByteSet mask → bits.toNat.testBit i = true → mask.toNat.testBit i = true) :
    (le32 ((c.origLe32 reg mask &&& ~~~(mask >>> UInt32.ofNat (8 * firstByteSet mask))) |||
        (val >>> UInt32.ofNat (8 * firstByteSet mask) &&&
          mask >>> UInt32.ofNat (8 * firstByteSet mask)))).take
      (lastByteSet mask - firstByteSet mask + 1) =
      maskedBytes mask (updated (c.word reg) mask val) := by
  have hfour := firstByteSet_le mask
  have hlast := lastByteSet_le mask
  refine (take_le32_update mask val _ (by omega) (by omega)).trans ?_
  apply maskedBytes_congr hmask
  intro i hi hi₁ hi₂
  simp only [updated, testBit_or, testBit_and, testBit_not, hi, decide_true, Bool.true_and]
  congr 1
  cases hclear : mask.toNat.testBit i with
  | false => rw [testBit_origLe32 hbits hcovers hi hi₁ hi₂ hclear]
  | true => rw [Bool.not_true, Bool.and_false, Bool.and_false]

/-- Without CRC, the bytes written under the mask make the register the updated one. -/
theorem nocrc_update_bits_onChip {reg : UInt16} {mask bits : UInt32} (hreg : IsRegister reg)
    (hmask : mask ≠ 0) (val : UInt32) (hbits : w.env.word reg &&& ~~~bits = 0)
    (hcovers : updateBitsReadReg reg = false → ∀ i < 32, firstByteSet mask ≤ i / 8 →
      i / 8 ≤ lastByteSet mask → bits.toNat.testBit i = true → mask.toNat.testBit i = true) :
    ∃ w', (Fork.bus (Env.onChip board bufNocrc bufCrc .nocrc)).regmapNocrcUpdateBits reg mask val w
        = .ok () w' ∧
      w'.env = w.env.put reg.toNat (le32 (updated (w.env.word reg) mask val)) := by
  have hlt := hreg.add_lt mask
  have haddr := hreg.toNat_add mask
  rw [← haddr] at hlt
  have hwrite : (Env.onChip board bufNocrc bufCrc .nocrc).spiWrite
      (reg + UInt16.ofNat (firstByteSet mask))
      (maskedBytes mask (updated (w.env.word reg) mask val)) w = _ :=
    onChip_spiWrite (writes_nocrc bufNocrc hlt (by
      have := length_maskedBytes_le hmask (updated (w.env.word reg) mask val)
      omega) le_rfl)
  have hread : (if updateBitsReadReg reg then
      getLe32 <$> (Env.onChip board bufNocrc bufCrc .nocrc).spiRead
        (reg + UInt16.ofNat (firstByteSet mask)) (lastByteSet mask - firstByteSet mask + 1)
      else pure 0) w = .ok (w.env.origLe32 reg mask) w := by
    unfold SpiChip.origLe32
    rw [← haddr]
    split_ifs
    · change EStateM.map getLe32 _ w = _
      unfold EStateM.map
      rw [onChip_spiRead hlt]
    · rfl
  have hput : w.env.put (reg + UInt16.ofNat (firstByteSet mask)).toNat
      (maskedBytes mask (updated (w.env.word reg) mask val)) =
      w.env.put reg.toNat (le32 (updated (w.env.word reg) mask val)) := by
    rw [haddr]
    exact w.env.put_maskedBytes hmask fun i hi hclear => testBit_updated_of_clear hi hclear
  refine ⟨{ w with
    env := w.env.put (reg + UInt16.ofNat (firstByteSet mask)).toNat
      (maskedBytes mask (updated (w.env.word reg) mask val))
    writes := w.writes ++ [(reg + UInt16.ofNat (firstByteSet mask),
      maskedBytes mask (updated (w.env.word reg) mask val))] }, ?_, hput⟩
  unfold Bus.regmapNocrcUpdateBits
  rw [if_neg (fun hbad => hmask hbad.2)]
  have hjoin (k : UInt32 → DrvM SpiChip Unit) :
      (if updateBitsReadReg reg then
        getLe32 <$> (Env.onChip board bufNocrc bufCrc .nocrc).spiRead
          (reg + UInt16.ofNat (firstByteSet mask)) (lastByteSet mask - firstByteSet mask + 1) >>= k
        else pure 0 >>= k) w = k (w.env.origLe32 reg mask) w := by
    refine Eq.trans ?_ (run_bind_ok hread)
    split_ifs <;> rfl
  refine (hjoin _).trans ?_
  simp only [take_le32_origLe32 hmask val hbits hcovers]
  exact hwrite

/-- With CRC, regmap reads, modifies, and writes a changed word. -/
theorem generic_update_bits_onChip {reg : UInt16} (hreg : IsRegister reg)
    (hwriteable : regWriteable reg.toNat) (mask val : UInt32) :
    ∃ w', (Fork.bus (Env.onChip board bufNocrc bufCrc .crc)).regmapGenericUpdateBits reg mask val w
        = .ok () w' ∧
      w'.env = w.env.put reg.toNat (le32 (updated (w.env.word reg) mask val)) := by
  have hblock : RegmapBlock reg (le32 (updated (w.env.word reg) mask val)) := by
    refine ⟨hreg.aligned, by rw [length_le32], by rw [length_le32]; decide, fun i hi => ?_⟩
    rw [length_le32] at hi
    have hi0 : i = 0 := by omega
    rw [hi0]
    exact hwriteable
  have hwrite : (Env.onChip board bufNocrc bufCrc .crc).spiWrite reg
      (le32 (updated (w.env.word reg) mask val)) w = _ :=
    onChip_spiWrite (writes_regmapCrcGatherWrite board.sanity bufCrc hblock
      (by rw [length_le32]; decide))
  have hread : (Fork.bus (Env.onChip board bufNocrc bufCrc .crc)).regmapGenericUpdateBits reg mask
      val w = _ := run_bind_ok (onChip_crcRead hreg)
  rw [hread]
  by_cases hsame : updated (w.env.word reg) mask val = w.env.word reg
  · have hkeep : decide (updated (w.env.word reg) mask val ≠ w.env.word reg) = false := by
      rw [decide_eq_false_iff_not, not_not]
      exact hsame
    refine ⟨w, ?_, ?_⟩
    · change DrvM.callIf (decide (updated (w.env.word reg) mask val ≠ w.env.word reg)) _ w = _
      rw [hkeep]
      rfl
    · rw [hsame, SpiChip.put_word]
  · have hchange : decide (updated (w.env.word reg) mask val ≠ w.env.word reg) = true :=
      decide_eq_true hsame
    refine ⟨{ w with
      env := w.env.put reg.toNat (le32 (updated (w.env.word reg) mask val))
      writes := w.writes ++ [(reg, le32 (updated (w.env.word reg) mask val))] }, ?_, rfl⟩
    change DrvM.callIf (decide (updated (w.env.word reg) mask val ≠ w.env.word reg)) _ w = _
    rw [hchange]
    exact hwrite

end

/-- Wherever the driver calls `regmap_update_bits`, on a register with no other bits than those of
`mcp251xfd.h`, both maps leave the controller the same and the register updated. -/
theorem update_bits_maps_agree (s : UpdateSite) (val : UInt32) (board : Board)
    (bufNocrc : MapBufNocrc) (bufCrc : MapBufCrc) (w : World SpiChip)
    (hbits : w.env.word s.reg &&& ~~~s.bits = 0) :
    ∃ w₁ w₂,
      (Fork.bus (Env.onChip board bufNocrc bufCrc .nocrc)).regmapNocrcUpdateBits s.reg s.mask val w
        = .ok () w₁ ∧
      (Fork.bus (Env.onChip board bufNocrc bufCrc .crc)).regmapGenericUpdateBits s.reg s.mask val w
        = .ok () w₂ ∧
      w₁.env = w₂.env ∧
      w₁.env.word s.reg = (w.env.word s.reg &&& ~~~s.mask) ||| (val &&& s.mask) := by
  obtain ⟨w₁, hrun₁, henv₁⟩ :=
    nocrc_update_bits_onChip s.isRegister s.mask_ne_zero val hbits s.covers
  obtain ⟨w₂, hrun₂, henv₂⟩ :=
    generic_update_bits_onChip s.isRegister s.writeable s.mask val
  refine ⟨w₁, w₂, hrun₁, hrun₂, henv₁.trans henv₂.symm, ?_⟩
  rw [henv₁, SpiChip.word_put]
  rfl

namespace Bench

/-- A controller that has seen a write with a wrong CRC. -/
def crcError : SpiChip where
  mem a := if a = regCrc.toNat + 2 then 1 else if a = regCrc.toNat + 3 then 3 else 0
  idle _ := 0xff

def onCrcError : World SpiChip := ⟨crcError, Priv.alloc, 0, []⟩

def bufNocrc : MapBufNocrc := ⟨List.replicate _ 0, List.length_replicate⟩

def bufCrc : MapBufCrc := ⟨List.replicate _ 0, List.length_replicate⟩

end Bench

/-- `mcp251xfd_handle_spicrcif` writes `0` to the flag that is set and keeps the enables. -/
theorem update_bits_maps_agree_spicrcif :
    ∃ w₁ w₂,
      (Fork.bus (Env.onChip Bench.board Bench.bufNocrc Bench.bufCrc .nocrc)).regmapNocrcUpdateBits
        regCrc crcIf.mask (~~~0x03010000) Bench.onCrcError = .ok () w₁ ∧
      (Fork.bus (Env.onChip Bench.board Bench.bufNocrc Bench.bufCrc .crc)).regmapGenericUpdateBits
        regCrc crcIf.mask (~~~0x03010000) Bench.onCrcError = .ok () w₂ ∧
      w₁.env = w₂.env ∧ w₁.env.word regCrc = 0x03020000 := by
  obtain ⟨w₁, w₂, h₁, h₂, henv, hword⟩ := update_bits_maps_agree .handleSpicrcif (~~~0x03010000)
    Bench.board Bench.bufNocrc Bench.bufCrc Bench.onCrcError (by decide)
  exact ⟨w₁, w₂, h₁, h₂, henv, hword.trans (by decide)⟩

end YoctoLayers.Mcp251xfd
