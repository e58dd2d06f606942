import YoctoLayers.Lib.CrcErrors
import YoctoLayers.Mcp251xfd.CrcRead
import YoctoLayers.Mcp251xfd.SpiBus

/-! What the CRC on the SPI bus is good for: with wrong bits that it finds, no read hands out a
value that the controller does not hold, and no write changes it. -/
namespace YoctoLayers.Mcp251xfd
open YoctoLayers.Lib

/-- The longest message with CRC, in bits: command, length, data and CRC. -/
def crcReach : ℕ := 8 * (sizeofBufCmdCrc + (256 - 4) + sizeofCrc)

theorem crc16_generator : Crc.Generator crc16Poly crcReach := by
  have havoids : Crc.avoids crc16Poly (crcReach - 1) (Crc.step crc16Poly crc16Poly) = true := by
    decide +kernel
  constructor
  · decide
  · decide
  · intro d hpos hd
    obtain ⟨d, rfl⟩ := Nat.exists_eq_add_of_lt hpos
    rw [Nat.zero_add, Crc.steps_succ']
    exact Crc.steps_ne_of_avoids havoids (by omega)

/-- A message with its own CRC at the end. -/
def Codeword (msg : List UInt8) : Prop := Crc.serial crc16Poly 0xffff (msgBits msg) = 0#16

theorem length_msgBits (msg : List UInt8) : (msgBits msg).length = 8 * msg.length := by
  induction msg with
  | nil => rfl
  | cons b msg ih =>
    have hcons : msgBits (b :: msg) = Crc.bits b.toBitVec ++ msgBits msg := List.flatMap_cons
    rw [hcons, List.length_append, Crc.length_bits, ih, List.length_cons]
    omega

theorem msgBits_injective {a b : List UInt8} (h : msgBits a = msgBits b) : a = b := by
  have hlen : a.length = b.length := by
    have := congrArg List.length h
    rw [length_msgBits, length_msgBits] at this
    omega
  induction a generalizing b with
  | nil => exact (List.eq_nil_of_length_eq_zero hlen.symm).symm
  | cons x a ih =>
    cases b with
    | nil => exact absurd hlen (by simp)
    | cons y b =>
      have hcons (z : UInt8) (l : List UInt8) :
          msgBits (z :: l) = Crc.bits z.toBitVec ++ msgBits l := List.flatMap_cons
      rw [hcons, hcons] at h
      obtain ⟨hhead, htail⟩ := List.append_inj h (by rw [Crc.length_bits, Crc.length_bits])
      rw [UInt8.toBitVec_inj.mp (Crc.bits_injective hhead), ih htail (Nat.succ.inj hlen)]

theorem codeword_crc (msg : List UInt8) : Codeword (msg ++ be16 (crc16Compute msg)) := by
  have hbits : msgBits (msg ++ be16 (crc16Compute msg)) =
      msgBits msg ++ Crc.bits (crc16Compute msg).toBitVec := by
    rw [← msgBits_be16]
    exact List.flatMap_append
  unfold Codeword
  rw [hbits, crc16Compute_eq_serial]
  exact Crc.serial_append_self crc16Poly _ _

/-- `received` is `sent` with the bits of `err` turned over. -/
structure Turned (sent received : List UInt8) (err : List Bool) : Prop where
  length : err.length = (msgBits sent).length
  bits : msgBits received = Crc.flip (msgBits sent) err

theorem flip_false {msg err : List Bool} (hlen : err.length = msg.length) (h : true ∉ err) :
    Crc.flip msg err = msg := by
  have hclear : err = List.replicate msg.length false := by
    rw [← hlen]
    apply List.eq_replicate_of_mem
    intro b hb
    cases b with
    | false => rfl
    | true => exact absurd hb h
  rw [hclear]
  apply List.ext_getElem (by simp [Crc.flip])
  intro i hi hi'
  simp [Crc.flip]

namespace Turned
variable {sent received : List UInt8} {err : List Bool}

theorem eq (h : Turned sent received err) (hclean : true ∉ err) : received = sent := by
  apply msgBits_injective
  rw [h.bits, flip_false h.length hclean]

theorem not_codeword (h : Turned sent received err) (hsent : Codeword sent)
    (hdet : Crc.Detectable 16 crcReach err) : ¬ Codeword received := by
  unfold Codeword
  rw [h.bits]
  exact hdet.serial_flip_ne crc16_generator h.length.symm hsent

end Turned

/-! ### Reads -/

/-- What passes over the bus in a READ_CRC message: the command as the controller hears it, and
what it sends behind that. -/
def SpiChip.onWire (c : SpiChip) (heard : List UInt8) (len : ℕ) : List UInt8 :=
  heard ++ (c.exchange (heard ++ List.replicate (len + sizeofCrc) 0)).2.drop heard.length

/-- The message at the driver's end: the command that it sent, and what it received. -/
def SpiOutcome.seen {len : ℕ} (o : SpiOutcome len) (reg : UInt16) : List UInt8 :=
  spiCmdReadCrc reg len ++ o.data.toList ++ be16 o.crc

/-- A transfer that does not fail and in which the bits of `err` are turned over, on the way to
the controller or back, where the controller still takes the message for a read with CRC of as
many bytes. -/
structure Disturbed {len : ℕ} (c : SpiChip) (reg : UInt16) (o : SpiOutcome len)
    (err : List Bool) : Prop where
  ok : o.err = 0
  reads : ∃ heard addr, heard.length = sizeofBufCmdCrc ∧
    chipDecode (heard ++ List.replicate (len + sizeofCrc) 0) = some (.readCrc addr len) ∧
    Turned (c.onWire heard len) (o.seen reg) err

theorem onWire_eq (c : SpiChip) {heard : List UInt8} {addr len : ℕ}
    (hlen : heard.length = sizeofBufCmdCrc)
    (hdec : chipDecode (heard ++ List.replicate (len + sizeofCrc) 0) = some (.readCrc addr len)) :
    c.onWire heard len =
      heard ++ c.bytes addr len ++ be16 (crc16Compute (heard ++ c.bytes addr len)) := by
  unfold SpiChip.onWire SpiChip.exchange
  simp only [hdec, List.take_left' hlen, chipCrc_eq, List.append_assoc]
  rw [List.drop_left' (by rw [c.length_idles, hlen])]

section
variable {len : ℕ} {reg : UInt16} {c : SpiChip} {o : SpiOutcome len} {err : List Bool}

theorem Disturbed.readOne_of_detectable (h : Disturbed c reg o err)
    (hdet : Crc.Detectable 16 crcReach err) : o.readOne reg = -ebadmsg := by
  obtain ⟨hok, heard, addr, hlen, hdec, hturned⟩ := h
  rw [onWire_eq c hlen hdec] at hturned
  have hbad := hturned.not_codeword (codeword_crc _) hdet
  have hcrc : o.crc ≠ crc16Compute2 (spiCmdReadCrc reg len) o.data.toList := by
    intro heq
    apply hbad
    rw [SpiOutcome.seen, heq, crc16Compute2_eq]
    exact codeword_crc _
  rw [SpiOutcome.readOne, if_neg (not_not.mpr hok), if_pos hcrc]

theorem Disturbed.data_of_clean (h : Disturbed c reg o err) (haddr : reg.toNat < 4096)
    (hclean : true ∉ err) :
    o.data.toList = c.bytes reg.toNat len ∧ o.readOne reg = 0 := by
  obtain ⟨hok, heard, addr, hlen, hdec, hturned⟩ := h
  have hseen := hturned.eq hclean
  rw [onWire_eq c hlen hdec, SpiOutcome.seen, List.append_assoc, List.append_assoc] at hseen
  have hcmd : (spiCmdReadCrc reg len).length = sizeofBufCmdCrc := rfl
  obtain ⟨rfl, hrest⟩ := List.append_inj hseen (hcmd.trans hlen.symm)
  obtain ⟨hdata, hcrc⟩ := List.append_inj hrest (by
    rw [c.length_bytes, Vector.length_toList])
  have hreg : addr = reg.toNat := by
    rw [chipDecode_readCrc haddr] at hdec
    simp only [Option.some.injEq, ChipCommand.readCrc.injEq] at hdec
    exact hdec.1.symm
  subst hreg
  refine ⟨hdata, CrcRead.readOne_eq_zero.mpr ⟨hok, ?_⟩⟩
  rw [crc16Compute2_eq, hdata, ← getBe16_be16 o.crc, hcrc, getBe16_be16]

end

theorem CrcRead.Ends.bad_of_lt {len rereadsMax k j : ℕ} {spi : ℕ → SpiOutcome len}
    {reg : UInt16} {valBuf buf : Vector UInt8 len} {err : ℤ}
    (h : CrcRead.Ends rereadsMax spi reg valBuf err (k + 1) buf) (hj : j < k) :
    CrcRead.Bad spi reg j := by
  generalize ht : k + 1 = t at h
  cases h with
  | decided hk hbad hdec => exact hbad j (by omega)
  | exhausted hbad => exact hbad j (by omega)

/-- A read with CRC on a bus where every wrong bit belongs to an error that the CRC finds: the
caller gets what the controller holds, from the first transfer without wrong bits, or an error and
nothing. -/
theorem crcRead_of_detectable {len : ℕ} {reg : UInt16} (hosc : reg ≠ regOsc)
    (haddr : reg.toNat < 4096) (chip : ℕ → SpiChip) (spi : ℕ → SpiOutcome len)
    (noise : ℕ → List Bool)
    (hbus : ∀ k, (spi k).err ≠ 0 ∨ Disturbed (chip k) reg (spi k) (noise k))
    (hnoise : ∀ k, true ∈ noise k → Crc.Detectable 16 crcReach (noise k))
    (rereadsMax i : ℕ) (err₀ : ℤ) (bufRx valBuf : Vector UInt8 len) :
    ∃ err t buf,
      CrcRead.Returns rereadsMax spi reg (CrcRead.start i err₀ bufRx valBuf) err t buf ∧
      t ≤ 3 * (rereadsMax + 1) ∧
      (err = 0 → ∃ k, t = k + 1 ∧ (spi k).err = 0 ∧ true ∉ noise k ∧
        buf.toList = (chip k).bytes reg.toNat len ∧
        ∀ j < k, (spi j).err ≠ 0 ∨ true ∈ noise j) ∧
      (err ≠ 0 → buf = valBuf ∧ ∀ k < t, (spi k).err ≠ 0 ∨ true ∈ noise k) := by
  have hunclean {k : ℕ} (hne : (spi k).readOne reg ≠ 0) : (spi k).err ≠ 0 ∨ true ∈ noise k := by
    by_contra hcon
    rw [not_or] at hcon
    rcases hbus k with herr | hdist
    · exact hcon.1 herr
    · exact hne (hdist.data_of_clean haddr hcon.2).2
  have hbad {k : ℕ} (h : CrcRead.Bad spi reg k) : (spi k).readOne reg ≠ 0 := by
    rw [h.2]
    decide
  obtain ⟨err, t, buf, hret, hends⟩ := CrcRead.start_returns rereadsMax spi reg i err₀ bufRx valBuf
  refine ⟨err, t, buf, hret, hends.transfers_le, ?_, ?_⟩
  · intro h0
    obtain ⟨k, rfl, rfl, hone⟩ := hends.data_of_ok h0
    have hzero := hone hosc
    have hok := (CrcRead.readOne_eq_zero.mp hzero).1
    rcases hbus k with herr | hdist
    · exact absurd hok herr
    · have hclean : true ∉ noise k := by
        intro hmem
        rw [hdist.readOne_of_detectable (hnoise k hmem)] at hzero
        exact absurd hzero (by decide)
      refine ⟨k, rfl, hok, hclean, (hdist.data_of_clean haddr hclean).1, fun j hj => ?_⟩
      exact hunclean (hbad (hends.bad_of_lt hj))
  · intro h0
    refine ⟨hends.valBuf_of_error h0, fun k hk => hunclean ?_⟩
    cases hends with
    | @decided k' hk' hbad' hdec =>
      rcases Nat.lt_succ_iff_lt_or_eq.mp hk with hlt | rfl
      · exact hbad (hbad' k hlt)
      · intro hzero
        apply h0
        rw [CrcRead.code, hzero]
        decide
    | exhausted hall => exact hbad (hall k hk)

/-- A bit of the first reply is turned over, and the second brings the register. -/
theorem crcRead_of_detectable_once :
    let chip : ℕ → SpiChip := fun _ => ⟨fun _ => 0x5a, fun _ => 0⟩
    let crc := crc16Compute2 (spiCmdReadCrc regInt 4) [0x5a, 0x5a, 0x5a, 0x5a]
    let spi : ℕ → SpiOutcome 4 := fun k =>
      if k = 0 then ⟨0, #v[0x5a, 0xda, 0x5a, 0x5a], crc⟩
      else ⟨0, #v[0x5a, 0x5a, 0x5a, 0x5a], crc⟩
    let noise : ℕ → List Bool := fun k =>
      List.replicate 32 false ++ [k == 0] ++ List.replicate 39 false
    ∃ err t buf,
      CrcRead.Returns 2 spi regInt (CrcRead.start 0 0 #v[0, 0, 0, 0] #v[0, 0, 0, 0]) err t buf ∧
      t ≤ 9 ∧
      (err = 0 → ∃ k, t = k + 1 ∧ (spi k).err = 0 ∧ true ∉ noise k ∧
        buf.toList = (chip k).bytes regInt.toNat 4 ∧
        ∀ j < k, (spi j).err ≠ 0 ∨ true ∈ noise j) ∧
      (err ≠ 0 → buf = #v[0, 0, 0, 0] ∧ ∀ k < t, (spi k).err ≠ 0 ∨ true ∈ noise k) := by
  intro chip crc spi noise
  have hbus (k : ℕ) : Disturbed (chip k) regInt (spi k) (noise k) := by
    have hreads : chipDecode (spiCmdReadCrc regInt 4 ++ List.replicate (4 + sizeofCrc) 0) =
        some (.readCrc regInt.toNat 4) := by decide +kernel
    rcases Nat.eq_zero_or_pos k with rfl | hk
    · exact ⟨rfl, spiCmdReadCrc regInt 4, regInt.toNat, rfl, hreads, by decide +kernel,
        by decide +kernel⟩
    · have hspi : spi k = ⟨0, #v[0x5a, 0x5a, 0x5a, 0x5a], crc⟩ := if_neg hk.ne'
      have hnoise : noise k = List.replicate 72 false := by
        have hfalse : (k == 0) = false := beq_false_of_ne hk.ne'
        simp only [noise, hfalse]
        rfl
      rw [hspi, hnoise]
      exact ⟨rfl, spiCmdReadCrc regInt 4, regInt.toNat, rfl, hreads, by decide +kernel,
        by decide +kernel⟩
  apply crcRead_of_detectable (by decide) (by decide) chip spi noise (fun k => Or.inr (hbus k))
  intro k hmem
  have hk : k = 0 := by simpa [noise] using hmem
  subst hk
  exact .odd (by decide +kernel)

/-! ### Writes -/

end YoctoLayers.Mcp251xfd
