import YoctoLayers.Mcp251xfd.TxPath

/-! The counters of the transmit path at every step of its two threads. -/
namespace YoctoLayers.Mcp251xfd
open YoctoLayers.Lib

/-- The free count from counters that have not been reduced modulo `2 ^ 32`. -/
theorem getTxFree_ofNat {tx : TxRing} {x y : ℕ} (ht : tx.tail = UInt32.ofNat x)
    (hh : tx.head = UInt32.ofNat y) (hle : x ≤ y) (hlt : y ≤ x + tx.slots) :
    (getTxFree tx).toNat = x + tx.slots - y := by
  have hs := tx.slots_cases
  have hd : lead tx.tail tx.head = y - x := by
    rw [ht, hh]
    exact lead_ofNat hle (by omega)
  rw [toNat_getTxFree tx (by omega), hd]
  omega

theorem toNat_getTefLinearLen (tef : TefRing) (tx : TxRing) : (getTefLinearLen tef tx).toNat =
    min (getTefLen tef).toNat (tx.slots - (getTefTail tef tx).toNat) := by
  have hs := tx.slots_cases
  have hlt := Nat.mod_lt tef.tail.toNat (by omega : 0 < tx.slots)
  have hsub : (tx.objNum - getTefTail tef tx).toNat = tx.slots - (getTefTail tef tx).toNat := by
    refine UInt8.toNat_sub_of_le _ _ ?_
    rw [UInt8.le_iff_toNat_le, toNat_getTefTail]
    exact hlt.le
  rw [getTefLinearLen, toNat_min_uint8, hsub]

namespace XmitPc

/-- The head is one past the accepted frames. -/
def ahead : XmitPc → ℕ
  | .fullHead _ _ | .fullTail _ _ _ | .stopFull _ _ | .echo _ _ | .submit _ _ => 1
  | _ => 0

/-- Room has been found for the frame. -/
def room : XmitPc → ℕ
  | .start _ | .load _ | .advance _ _ => 1
  | pc => pc.ahead

theorem ahead_le_room (pc : XmitPc) : pc.ahead ≤ pc.room := by
  cases pc <;> simp [ahead, room]

/-- The values read earlier are those of `head`. -/
def Ok (pc : XmitPc) (tx : TxRing) (accepted : ℕ) : Prop :=
  match pc with
  | .freeTail _ head | .recheckTail _ head => head = tx.head
  | .fullTail _ txHead head => txHead = accepted % tx.slots ∧ head = tx.head
  | .advance _ txHead | .fullHead _ txHead | .stopFull _ txHead | .echo _ txHead
  | .submit _ txHead => txHead = accepted % tx.slots
  | _ => True

end XmitPc

namespace TefifPc

/-- Completions that `tx_ring->tail` does not count yet. -/
def untailed : TefifPc → ℕ
  | .one _ i => i
  | .uinc len | .tail len => len
  | _ => 0

/-- Completions that the controller does not know of yet. -/
def unincd : TefifPc → ℕ
  | .one _ i => i
  | .uinc len => len
  | _ => 0

/-- Called with TEFIF pending, and nothing is handled so far. -/
def Fresh : TefifPc → Prop
  | .update | .head _ | .checkTail | .read _ _ _ => True
  | .one _ i => i = 0
  | _ => False

/-- A head that was read is not from the future. -/
def Ok (pc : TefifPc) (slots head completed : ℕ) : Prop :=
  match pc with
  | .freeTail x => ∃ m, x = UInt32.ofNat m ∧ completed ≤ m ∧ m ≤ completed + slots ∧ m ≤ head
  | _ => True

theorem Ok.mono {pc : TefifPc} {slots head head' completed : ℕ}
    (h : pc.Ok slots head completed) (hle : head ≤ head') : pc.Ok slots head' completed := by
  cases pc with
  | freeTail x =>
    obtain ⟨m, hm, hlo, hhi, hx⟩ := h
    exact ⟨m, hm, hlo, hhi, hx.trans hle⟩
  | _ => trivial

end TefifPc

namespace TxPath

/-- The counters of driver and controller, before their reduction modulo `2 ^ 32`. -/
structure Counts (s : TxPath) : Prop where
  head : s.drv.tx.head = UInt32.ofNat (s.frames.length + s.xmit.ahead)
  tail : s.drv.tx.tail = UInt32.ofNat (s.echoes.length - s.tefif.untailed)
  tefTail : s.tef.tail = UInt32.ofNat s.echoes.length
  chipTail : s.chip.tefTail + s.tefif.unincd = s.echoes.length
  finished : s.finished + s.tefif.untailed ≤ s.echoes.length
  room : s.frames.length + s.xmit.room + s.tefif.untailed ≤ s.echoes.length + s.drv.tx.slots
  events : s.echoes.length ≤ s.chip.events
  sent : s.chip.events + s.chip.pending.length = s.chip.sent
  written : s.chip.sent ≤ s.chip.written
  spi : s.chip.written + s.spi.length = s.frames.length
  ovif : s.chip.tefovif = false
  xmit : s.xmit.Ok s.drv.tx s.frames.length
  fresh : s.tefif.Fresh → s.echoes.length < s.chip.events
  tefif : s.tefif.Ok s.drv.tx.slots (s.frames.length + s.xmit.ahead) s.echoes.length

variable {K : DlcHelpers} {quirkCrcTx sanity : Bool}

theorem Counts.completed_le {s : TxPath} (h : Counts s) : s.echoes.length ≤ s.frames.length := by
  have := h.events
  have := h.sent
  have := h.written
  have := h.spi
  omega

/-- The free count that is read when head and tail are current. -/
theorem Counts.getTxFree_eq {s : TxPath} (h : Counts s) : (getTxFree s.drv.tx).toNat =
    s.echoes.length - s.tefif.untailed + s.drv.tx.slots - (s.frames.length + s.xmit.ahead) := by
  have := h.completed_le
  have := h.finished
  have := h.room
  have := s.xmit.ahead_le_room
  exact getTxFree_ofNat h.tail h.head (by omega) (by omega)

/-- Free space that was seen is still there. -/
theorem Counts.room_of_free {s : TxPath} (h : Counts s) (hfree : getTxFree s.drv.tx ≠ 0) :
    s.frames.length + s.xmit.ahead + 1 + s.tefif.untailed ≤
      s.echoes.length + s.drv.tx.slots := by
  have hpos : (getTxFree s.drv.tx).toNat ≠ 0 := fun h0 => hfree (UInt8.toNat_inj.mp h0)
  have := h.finished
  rw [h.getTxFree_eq] at hpos
  omega

theorem Counts.toNat_getTxHead {s : TxPath} (h : Counts s) :
    (getTxHead s.drv.tx).toNat = (s.frames.length + s.xmit.ahead) % s.drv.tx.slots := by
  have hdvd := s.drv.tx.pow2.dvd_wrap
  rw [TxRing.toNat_objNum32] at hdvd
  rw [Mcp251xfd.toNat_getTxHead, h.head, UInt32.toNat_ofNat', Nat.mod_mod_of_dvd _ hdvd]

theorem Counts.xmitNext {s t : TxPath} (h : Counts s) (hst : s.xmitNext K quirkCrcTx = some t) :
    Counts t := by
  rcases s with ⟨drv, tef, txPackets, txBytes, xmit, tefif, spi, chip, frames, echoes, finished⟩
  cases xmit with
  | idle => cases hst
  | freeHead skb =>
    cases hst
    exact { h with xmit := rfl }
  | freeTail skb head =>
    obtain rfl : head = drv.tx.head := h.xmit
    simp only [TxPath.xmitNext] at hst
    split_ifs at hst with hpos <;> cases hst
    · exact { h with xmit := trivial, room := h.room_of_free (UInt8.ne_of_lt hpos).symm }
    · exact { h with xmit := trivial }
  | stop skb =>
    cases hst
    exact { h with }
  | recheckHead skb =>
    cases hst
    exact { h with xmit := rfl }
  | recheckTail skb head =>
    obtain rfl : head = drv.tx.head := h.xmit
    simp only [TxPath.xmitNext] at hst
    split_ifs at hst with hfree <;> cases hst
    · exact { h with xmit := trivial }
    · exact { h with xmit := trivial, room := h.room_of_free hfree }
  | start skb =>
    cases hst
    exact { h with }
  | load skb =>
    cases hst
    exact { h with xmit := h.toNat_getTxHead }
  | advance skb txHead =>
    cases hst
    refine { h with head := ?_, tefif := ?_ }
    · rw [XmitPc.ahead, ofNat_succ]
      exact congrArg (· + 1) h.head
    · exact h.tefif.mono (Nat.le_succ _)
  | fullHead skb txHead =>
    cases hst
    exact { h with xmit := ⟨h.xmit, rfl⟩ }
  | fullTail skb txHead head =>
    simp only [TxPath.xmitNext] at hst
    split_ifs at hst <;> cases hst
    · exact { h with xmit := h.xmit.1 }
    · exact { h with xmit := h.xmit.1 }
  | stopFull skb txHead =>
    cases hst
    exact { h with }
  | echo skb txHead =>
    cases hst
    exact { h with }
  | submit skb txHead =>
    cases hst
    have hlen : (frames ++ [skb]).length = frames.length + 1 := by simp
    refine { h with head := ?_, room := ?_, spi := ?_, xmit := trivial, tefif := ?_ }
    · exact hlen ▸ h.head
    · exact hlen ▸ h.room
    · have := h.spi
      simp only [List.length_append, List.length_singleton] at this ⊢
      omega
    · exact hlen ▸ h.tefif

/-- The object has the sequence number that is expected next. -/
def Matches (s : TxPath) (obj : HwTefObj) : Prop :=
  seqMasked (objFlagsSeqMcp2518fd.get obj.flags) = seqMasked s.tef.tail

theorem Counts.tefTailDiffers_eq {s : TxPath} (h : Counts s) (hu : s.tefif.unincd = 0) :
    s.tefTailDiffers sanity = false := by
  have hchip := h.chipTail
  have hdvd := s.drv.tx.pow2.dvd_wrap
  rw [TxRing.toNat_objNum32] at hdvd
  rw [hu, Nat.add_zero] at hchip
  rw [tefTailDiffers, tefTailChip, toNat_getTefTail, h.tefTail, UInt32.toNat_ofNat',
    Nat.mod_mod_of_dvd _ hdvd, hchip]
  simp

/-- Reads inside the TEF pass the check. -/
theorem tefObjRange_eq {tx : TxRing} {offset len : ℕ} (h : offset + len ≤ tx.slots) :
    tefObjRange sanity tx offset len = false := by
  have h1 : ¬ tx.slots < offset := by omega
  have h2 : ¬ tx.slots < len := by omega
  have h3 : ¬ tx.slots < offset + len := by omega
  simp [tefObjRange, h1, h2, h3]

theorem Counts.ret {s : TxPath} (h : Counts s) (ht : s.tefif.untailed = 0)
    (hu : s.tefif.unincd = 0) (err : ℤ) : Counts (s.ret err) := by
  have htail := h.tail
  have hchip := h.chipTail
  have hroom := h.room
  rw [ht] at htail hroom
  rw [hu] at hchip
  exact { h with
    tail := htail
    chipTail := hchip
    room := hroom
    finished := le_rfl
    fresh := False.elim
    tefif := trivial }

theorem Counts.getEchoSkb {s : TxPath} (h : Counts s) {hw : List HwTefObj} {i : ℕ}
    (hpc : s.tefif = .one hw i) (hlt : s.echoes.length < s.chip.events) (obj : HwTefObj) :
    Counts { s.getEchoSkb obj with tefif := .one hw (i + 1) } := by
  have hlen : (s.getEchoSkb obj).echoes.length = s.echoes.length + 1 := by simp [TxPath.getEchoSkb]
  have htail := h.tail
  have hchip := h.chipTail
  have hroom := h.room
  have hfin := h.finished
  rw [hpc] at htail hchip hroom hfin
  simp only [TefifPc.untailed, TefifPc.unincd] at htail hchip hroom hfin
  refine { h with
    tail := ?_, tefTail := ?_, chipTail := ?_, finished := ?_, room := ?_, events := ?_
    fresh := fun h0 => absurd h0 (Nat.succ_ne_zero i), tefif := trivial }
  all_goals simp only [hlen, TefifPc.untailed, TefifPc.unincd]
  · exact htail.trans (congrArg UInt32.ofNat (by omega))
  · rw [ofNat_succ]
    exact congrArg (· + 1) h.tefTail
  · change s.chip.tefTail + (i + 1) = _
    omega
  · change s.finished + (i + 1) ≤ _
    omega
  · change s.frames.length + s.xmit.room + (i + 1) ≤ _ + s.drv.tx.slots
    omega
  · exact hlt

theorem Counts.toNat_getTefTail {s : TxPath} (h : Counts s) :
    (getTefTail s.tef s.drv.tx).toNat = s.echoes.length % s.drv.tx.slots := by
  have hdvd := s.drv.tx.pow2.dvd_wrap
  rw [TxRing.toNat_objNum32] at hdvd
  rw [Mcp251xfd.toNat_getTefTail, h.tefTail, UInt32.toNat_ofNat', Nat.mod_mod_of_dvd _ hdvd]

theorem Counts.tefifNext {s t : TxPath} (h : Counts s) (hst : s.tefifNext sanity = some t)
    (hone : ∀ hw i obj, s.tefif = .one hw i → hw[i]? = some obj → s.Matches obj →
      s.echoes.length < s.chip.events) : Counts t := by
  rcases s with ⟨drv, tef, txPackets, txBytes, xmit, tefif, spi, chip, frames, echoes, finished⟩
  cases tefif with
  | idle _ => cases hst
  | update =>
    cases hst
    exact { h with }
  | head chipTxTail =>
    cases hst
    exact { h with }
  | checkTail =>
    simp only [TxPath.tefifNext, h.tefTailDiffers_eq rfl, Bool.false_eq_true, if_false] at hst
    split_ifs at hst <;> cases hst
    · exact h.ret rfl rfl _
    · exact { h with }
  | read len l hw =>
    simp only [TxPath.tefifNext] at hst
    split_ifs at hst <;> cases hst
    · exact { h with }
    · exact h.ret rfl rfl _
    · exact { h with }
    · exact { h with fresh := fun _ => h.fresh trivial }
  | one hw i =>
    simp only [TxPath.tefifNext] at hst
    split at hst
    · cases hst
      exact { h with fresh := False.elim }
    · rename_i obj hobj
      split_ifs at hst with hmatch hov
      · cases hst
        exact h.getEchoSkb rfl (hone hw i obj rfl hobj hmatch) obj
      · exact absurd h.ovif (by rw [hov]; decide)
      · cases hst
        exact { h with fresh := False.elim }
  | uinc len =>
    simp only [TxPath.tefifNext] at hst
    split_ifs at hst with h0 <;> cases hst
    · subst h0
      exact { h with fresh := False.elim }
    · exact { h with chipTail := h.chipTail }
  | tail len =>
    cases hst
    have hfin := h.finished
    have hroom := h.room
    simp only [TefifPc.untailed] at hfin hroom
    refine { h with tail := ?_, finished := ?_, room := ?_, fresh := False.elim, tefif := trivial }
    · change drv.tx.tail + UInt32.ofNat len = UInt32.ofNat echoes.length
      have htail : drv.tx.tail = UInt32.ofNat (echoes.length - len) := h.tail
      rw [htail, ← UInt32.ofNat_add]
      exact congrArg UInt32.ofNat (by omega)
    · change finished ≤ echoes.length
      omega
    · change frames.length + xmit.room ≤ echoes.length + drv.tx.slots
      omega
  | checkUinc =>
    simp only [TxPath.tefifNext, h.tefTailDiffers_eq rfl, Bool.false_eq_true, if_false] at hst
    cases hst
    exact { h with }
  | freeHead =>
    cases hst
    have hle : echoes.length ≤ frames.length := h.completed_le
    have hroom : frames.length + xmit.room ≤ echoes.length + drv.tx.slots := h.room
    have hahead := xmit.ahead_le_room
    have hlo : echoes.length ≤ frames.length + xmit.ahead := by omega
    have hhi : frames.length + xmit.ahead ≤ echoes.length + drv.tx.slots := by omega
    exact { h with tefif := ⟨_, h.head, hlo, hhi, le_rfl⟩ }
  | freeTail head =>
    simp only [TxPath.tefifNext] at hst
    split_ifs at hst <;> cases hst
    · exact h.ret rfl rfl _
    · exact { h with tefif := trivial }
  | wake =>
    cases hst
    exact Counts.ret (s := ⟨{ drv with stopped := false }, tef, txPackets, txBytes, xmit, .wake,
      spi, chip, frames, echoes, finished⟩) { h with } rfl rfl _

theorem Counts.transfer {s t : TxPath} (h : Counts s) (hst : s.transfer = some t) : Counts t := by
  simp only [TxPath.transfer] at hst
  split at hst
  · cases hst
  · rename_i slot rest hspi
    cases hst
    have hlen := h.spi
    have hsent := h.written
    rw [hspi, List.length_cons] at hlen
    exact { h with
      written := hsent.trans (Nat.le_succ _)
      spi := by dsimp only; omega }

theorem Counts.send {s t : TxPath} (h : Counts s) (hst : s.send = some t) : Counts t := by
  simp only [TxPath.send] at hst
  split_ifs at hst with hlt
  cases hst
  have hsent := h.sent
  exact { h with
    sent := by simp only [List.length_append, List.length_singleton]; omega
    written := hlt }

/-- There is always room for a TEF object. -/
theorem Counts.tef_room {s : TxPath} (h : Counts s) {hw : HwTxObjRaw} {rest : List HwTxObjRaw}
    (hp : s.chip.pending = hw :: rest) : s.chip.events - s.chip.tefTail < s.drv.tx.slots := by
  have hsent := h.sent
  have := s.drv.tx.slots_cases
  have := h.written
  have := h.spi
  have := h.room
  have := h.chipTail
  have hle : s.tefif.unincd ≤ s.tefif.untailed := by
    cases s.tefif <;> simp [TefifPc.unincd, TefifPc.untailed]
  rw [hp, List.length_cons] at hsent
  omega

theorem Counts.event {s t : TxPath} (h : Counts s) {obj : HwTefObj} (hst : s.event obj = some t) :
    Counts t := by
  simp only [TxPath.event] at hst
  split at hst
  · cases hst
  · rename_i hw rest hp
    rw [if_pos (h.tef_room hp)] at hst
    split_ifs at hst
    cases hst
    have hsent := h.sent
    rw [hp, List.length_cons] at hsent
    exact { h with
      events := h.events.trans (Nat.le_succ _)
      sent := by dsimp only; omega
      fresh := fun hf => (h.fresh hf).trans (Nat.lt_succ_self _) }

end TxPath
end YoctoLayers.Mcp251xfd
