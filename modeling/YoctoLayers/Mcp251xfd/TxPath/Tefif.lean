import YoctoLayers.Mcp251xfd.TxPath.Rounds

/-! `mcp251xfd_handle_tefif` completes the frames one after the other, as long as no update
carries the TEF head past the TX head. -/
namespace YoctoLayers.Mcp251xfd
open YoctoLayers.Lib

/-- What is left to read and to handle in a call of `mcp251xfd_handle_tefif`; `len` is how far
the TEF head is ahead of the TEF tail. -/
def TefifPc.Len (pc : TefifPc) (slots len finished completed : ℕ) : Prop :=
  match pc with
  | .idle err => err = 0 ∧ finished = completed
  | .update => finished = completed
  | .head chipTxTail => finished = completed ∧ chipTxTail.toNat < slots
  | .checkTail => finished = completed ∧ 0 < len
  | .read n l hw => finished = completed ∧ 0 < len ∧ n = len ∧ l ≤ n ∧ hw.length ≤ n
  | .one hw i => finished + i = completed ∧ hw.length = i + len ∧ 0 < hw.length
  | .uinc n | .tail n => finished + n = completed ∧ 0 < n
  | .checkUinc | .freeHead | .freeTail _ | .wake => finished < completed

namespace TxPath
variable {K : DlcHelpers} {quirkCrcTx sanity : Bool}

/-- The step is an update that wraps past the TX head. -/
def UpdateWraps (s : TxPath) (e : TxPathEvent) : Prop :=
  e = .tefif ∧ ∃ c, s.tefif = .head c ∧ WrapsPast s.tef s.drv.tx c

structure Progress (s : TxPath) : Prop where
  ordered : Ordered s.tef s.drv.tx
  len : s.tefif.Len s.drv.tx.slots (lead s.tef.tail s.tef.head) s.finished s.echoes.length

theorem Counts.lead_tail_head {s : TxPath} (h : Counts s) : lead s.drv.tx.tail s.drv.tx.head =
    s.frames.length + s.xmit.ahead + s.tefif.untailed - s.echoes.length := by
  have := h.completed_le
  have := h.finished
  have := h.room
  have := s.drv.tx.slots_cases
  have := s.xmit.ahead_le_room
  rw [h.tail, h.head, lead_ofNat (by omega) (by omega)]
  omega

theorem Counts.lead_tail_tefTail {s : TxPath} (h : Counts s) :
    lead s.drv.tx.tail s.tef.tail = s.tefif.untailed := by
  have := h.completed_le
  have := h.finished
  have := h.room
  have := s.drv.tx.slots_cases
  rw [h.tail, h.tefTail, lead_ofNat (by omega) (by omega)]
  omega

/-- TEFIF is pending for a frame in flight. -/
theorem Counts.in_flight {s : TxPath} (h : Counts s) (hf : s.tefif.Fresh)
    (hu : s.tefif.untailed = 0) :
    lead s.drv.tx.tail s.tef.tail < lead s.drv.tx.tail s.drv.tx.head := by
  have := h.fresh hf
  have := h.sent
  have := h.written
  have := h.spi
  rw [h.lead_tail_tefTail, h.lead_tail_head]
  omega

theorem Progress.xmitNext {s t : TxPath} (hc : Counts s) (h : Progress s)
    (hst : s.xmitNext K quirkCrcTx = some t) : Progress t := by
  have hf := xmitNext_frame hst
  refine ⟨?_, by rw [hf.tefif, hf.echoes, hf.finished, hf.tef, hf.slots]; exact h.len⟩
  rw [hf.tef]
  rcases hf.tx with htx | ⟨hroom, hahead, htx⟩ <;> rw [htx]
  · exact h.ordered
  · refine h.ordered.startXmit fun h0 => ?_
    have hfree := hc.getTxFree_eq
    have hle := hc.room
    have := hc.finished
    rw [h0, hahead] at hfree
    rw [hroom] at hle
    change 0 = _ at hfree
    omega

theorem Progress.tefifNext {s t : TxPath} (hi : Inv K quirkCrcTx s) (h : Progress s)
    (hst : s.tefifNext sanity = some t) (hok : ¬ s.UpdateWraps .tefif) : Progress t := by
  rcases s with ⟨drv, tef, txPackets, txBytes, xmit, tefif, spi, chip, frames, echoes, finished⟩
  obtain ⟨ho, hlen⟩ := h
  have hc := hi.counts
  have hs := drv.tx.slots_cases
  cases tefif with
  | idle _ => cases hst
  | update =>
    cases hst
    refine ⟨ho, hlen, ?_⟩
    have := Nat.mod_lt chip.sent (by omega : 0 < drv.tx.slots)
    rw [UInt8.toNat_ofNat']
    exact (Nat.mod_le _ _).trans_lt this
  | head c =>
    cases hst
    obtain ⟨hfin, hlt⟩ := hlen
    have hcn : c < drv.tx.objNum := UInt8.lt_iff_toNat_lt.mpr hlt
    have hnw : ¬ WrapsPast tef drv.tx c := fun hwp => hok ⟨rfl, c, rfl, hwp⟩
    have hpos := ho.tefRingUpdate_pos hcn (hc.in_flight trivial rfl)
    exact ⟨(tefRingUpdate_ordered_iff ho hcn).mpr hnw, hfin, hpos⟩
  | checkTail =>
    obtain ⟨hfin, hpos⟩ := hlen
    have hl := toNat_getTefLinearLen tef drv.tx
    have hlt := Nat.mod_lt tef.tail.toNat (by omega : 0 < drv.tx.slots)
    have htail := toNat_getTefTail tef drv.tx
    simp only [TxPath.tefifNext, hc.tefTailDiffers_eq rfl, Bool.false_eq_true, if_false] at hst
    rw [tefObjRange_eq (by omega), if_neg Bool.false_ne_true] at hst
    cases hst
    refine ⟨ho, hfin, hpos, ho.getTefLen_eq, ?_, Nat.zero_le _⟩
    rw [hl]
    exact min_le_left _ _
  | read n l hw =>
    obtain ⟨hfin, hpos, hn, hl, hle⟩ := hlen
    change n = lead tef.tail tef.head at hn
    have hmax : lead tef.tail tef.head ≤ drv.tx.slots := ho.lead_tail_head.2
    simp only [TxPath.tefifNext] at hst
    rw [tefObjRange_eq (by omega)] at hst
    split_ifs at hst with h1 h2 h3 <;> cases hst
    · refine ⟨ho, hfin, hpos, hn, hl, ?_⟩
      rw [List.length_append]
      exact h1.trans_le hl
    · exact h3.2.elim
    · refine ⟨ho, hfin, hpos, hn, hl, ?_⟩
      rw [List.length_append]
      exact h2
    · have hall : hw.length = n := by omega
      refine ⟨ho, hfin, ?_, ?_⟩
      · rw [hall, hn]
        exact (Nat.zero_add _).symm
      · rw [hall, hn]
        exact hpos
  | one hw i =>
    obtain ⟨hfin, hlen, hpos⟩ := hlen
    simp only [TxPath.tefifNext] at hst
    split at hst
    · rename_i hnone
      cases hst
      have hge := List.getElem?_eq_none_iff.mp hnone
      exact ⟨ho, hfin, by omega⟩
    · rename_i obj hobj
      have hlt := (List.getElem?_eq_some_iff.mp hobj).1
      split_ifs at hst with hmatch hov
      · cases hst
        obtain ⟨hnext, -, hdist⟩ := ho.handleTefifOne (by omega)
        refine ⟨hnext, ?_, ?_, hpos⟩
        · change finished + (i + 1) = (echoes ++ [_]).length
          rw [List.length_append]
          exact congrArg (· + 1) hfin
        · change hw.length = i + lead tef.tail tef.head at hlen
          change lead (tef.tail + 1) tef.head + 1 = lead tef.tail tef.head at hdist
          change hw.length = i + 1 + lead (tef.tail + 1) tef.head
          omega
      · exact absurd hc.ovif (by rw [hov]; decide)
      · cases hst
        refine ⟨ho, hfin, Nat.pos_of_ne_zero ?_⟩
        rintro rfl
        -- the object of the frame that TEFIF is pending for
        have hread : Reads drv.tx.slots chip.events (echoes.length - 0) hw := hi.tef.reading
        have htail : tef.tail = UInt32.ofNat echoes.length := hc.tefTail
        apply hmatch
        rw [htail]
        exact seqMasked_ofNat_eq_iff.mpr (hread.first obj hobj)
  | uinc n =>
    simp only [TxPath.tefifNext, if_neg hlen.2.ne'] at hst
    cases hst
    exact ⟨ho, hlen⟩
  | tail n =>
    cases hst
    have hd : lead drv.tx.tail tef.tail = n := hc.lead_tail_tefTail
    have hle : (UInt32.ofNat n).toNat ≤ lead drv.tx.tail tef.tail := by
      rw [hd, UInt32.toNat_ofNat']
      exact Nat.mod_le _ _
    refine ⟨ho.outNetifWakeQueue hle, ?_⟩
    obtain ⟨hfin, hpos⟩ := hlen
    change finished < echoes.length
    change finished + n = echoes.length at hfin
    omega
  | checkUinc =>
    simp only [TxPath.tefifNext, hc.tefTailDiffers_eq rfl, Bool.false_eq_true, if_false] at hst
    cases hst
    exact ⟨ho, hlen⟩
  | freeHead =>
    cases hst
    exact ⟨ho, hlen⟩
  | freeTail head =>
    simp only [TxPath.tefifNext] at hst
    split_ifs at hst <;> cases hst
    · exact ⟨ho, rfl, rfl⟩
    · exact ⟨ho, hlen⟩
  | wake =>
    cases hst
    exact ⟨ho, rfl, rfl⟩

theorem progress_init (tx : TxRing) (obj : ℕ → TxObj) : Progress (TxPath.init tx obj) :=
  ⟨(txCounterInv_init tx).ordered, rfl, rfl⟩

theorem progress_step {s t : TxPath} {e : TxPathEvent} (hi : Inv K quirkCrcTx s) (h : Progress s)
    (hst : TxPath.step K quirkCrcTx sanity s e = some t) (hok : ¬ s.UpdateWraps e) :
    Progress t := by
  cases e with
  | startXmit skb =>
    simp only [TxPath.step] at hst
    split at hst <;> cases hst
    exact { h with }
  | xmit => exact h.xmitNext hi.counts hst
  | handleTefif =>
    simp only [TxPath.step] at hst
    split at hst
    · rename_i err hpc
      split_ifs at hst
      cases hst
      have hlen := h.len
      rw [hpc] at hlen
      exact ⟨h.ordered, hlen.2⟩
    · cases hst
  | tefif => exact h.tefifNext hi hst hok
  | transfer =>
    simp only [TxPath.step, TxPath.transfer] at hst
    split at hst <;> cases hst
    exact { h with }
  | send =>
    simp only [TxPath.step, TxPath.send] at hst
    split_ifs at hst
    cases hst
    exact { h with }
  | event obj =>
    simp only [TxPath.step, TxPath.event] at hst
    split at hst
    · cases hst
    · split_ifs at hst <;> cases hst <;> exact { h with }

/-- The steps that `mcp251xfd_handle_tefif` has left, at most. -/
def tefifRank : TefifPc → ℕ
  | .idle _ => 0
  | .wake => 1
  | .freeTail _ => 2
  | .freeHead => 3
  | .checkUinc => 4
  | .tail _ => 5
  | .uinc _ => 6
  | .one hw i => 7 + (hw.length - i)
  | .read n l hw => 8 + hw.length + 2 * (max n l - hw.length)
  | .checkTail => 600
  | .head _ => 601
  | .update => 602

/-- Nothing blocks `mcp251xfd_handle_tefif`, and each of its steps brings it nearer to its end. -/
theorem tefifNext_rank (sanity : Bool) {s : TxPath} (h : ∀ err, s.tefif ≠ .idle err) :
    ∃ t, s.tefifNext sanity = some t ∧ tefifRank t.tefif < tefifRank s.tefif := by
  rcases s with ⟨drv, tef, txPackets, txBytes, xmit, tefif, spi, chip, frames, echoes, finished⟩
  cases tefif with
  | idle err => exact absurd rfl (h err)
  | update | head _ | tail _ | freeHead | wake => exact ⟨_, rfl, by simp [tefifRank, TxPath.ret]⟩
  | uinc _ | checkUinc | freeTail _ =>
    simp only [TxPath.tefifNext]
    split_ifs <;> exact ⟨_, rfl, by simp [tefifRank, TxPath.ret]⟩
  | checkTail =>
    have hn := (getTefLen tef).toNat_lt
    have hl := (getTefLinearLen tef drv.tx).toNat_lt
    simp only [TxPath.tefifNext]
    split_ifs <;> refine ⟨_, rfl, ?_⟩ <;> simp only [tefifRank, TxPath.ret, List.length_nil]
    all_goals omega
  | read n l hw =>
    simp only [TxPath.tefifNext]
    split_ifs <;> refine ⟨_, rfl, ?_⟩ <;>
      simp only [tefifRank, TxPath.ret, List.length_append, List.length_singleton]
    all_goals omega
  | one hw i =>
    simp only [TxPath.tefifNext]
    split
    · exact ⟨_, rfl, by simp only [tefifRank]; omega⟩
    · rename_i obj hobj
      have hlt := (List.getElem?_eq_some_iff.mp hobj).1
      split_ifs <;> refine ⟨_, rfl, ?_⟩ <;> simp only [tefifRank, TxPath.ret]
      all_goals omega

/-- What `mcp251xfd_handle_tefif` owes: the completions are the accepted frames in their order,
each with its own echo index and after its TEF object was written; a call that has returned has
succeeded, with the tails of driver and controller in agreement. -/
structure CompletesOk (s : TxPath) : Prop where
  order : ∀ k x, s.echoes[k]? = some x → x.idx = k % s.drv.tx.slots ∧ x.skb = s.frames[k]?
  accepted : s.echoes.length ≤ s.frames.length
  written : s.echoes.length ≤ s.chip.events
  packets : s.txPackets = s.echoes.length
  returned : ∀ err, s.tefif = .idle err → err = 0 ∧ s.tef.tail = s.drv.tx.tail ∧
    (getTefTail s.tef s.drv.tx).toNat = s.tefTailChip

/-- `mcp251xfd_handle_tefif` has been called before the step and not after it. -/
def Returns (s t : TxPath) : Prop :=
  (∀ err, s.tefif ≠ .idle err) ∧ ∃ err, t.tefif = .idle err

theorem completesOk_of_inv {s : TxPath} (hi : Inv K quirkCrcTx s) (h : Progress s) :
    CompletesOk s where
  order := hi.echoSkbs.log
  accepted := hi.counts.completed_le
  written := hi.counts.events
  packets := hi.echoSkbs.packets
  returned err hpc := by
    have hlen := h.len
    have htail := hi.counts.tail
    have hchip := hi.counts.chipTail
    rw [hpc] at hlen htail hchip
    refine ⟨hlen.1, ?_, ?_⟩
    · rw [hi.counts.tefTail, htail]
      rfl
    · rw [hi.counts.toNat_getTefTail, tefTailChip, ← hchip]
      rfl

/-- Other steps at most start `mcp251xfd_handle_tefif`. -/
theorem tefif_of_step {s t : TxPath} {e : TxPathEvent} (hne : e ≠ .tefif)
    (hst : TxPath.step K quirkCrcTx sanity s e = some t) :
    t.tefif = s.tefif ∨ t.tefif = .update := by
  cases e with
  | tefif => exact absurd rfl hne
  | xmit => exact Or.inl (xmitNext_frame hst).tefif
  | startXmit skb =>
    simp only [TxPath.step] at hst
    split at hst <;> cases hst
    exact Or.inl rfl
  | handleTefif =>
    simp only [TxPath.step] at hst
    split at hst
    · split_ifs at hst
      cases hst
      exact Or.inr rfl
    · cases hst
  | transfer =>
    simp only [TxPath.step, TxPath.transfer] at hst
    split at hst <;> cases hst
    exact Or.inl rfl
  | send =>
    simp only [TxPath.step, TxPath.send] at hst
    split_ifs at hst
    cases hst
    exact Or.inl rfl
  | event obj =>
    simp only [TxPath.step, TxPath.event] at hst
    split at hst
    · cases hst
    · split_ifs at hst <;> cases hst <;> exact Or.inl rfl

/-- A call does not return before it has completed a frame. -/
theorem completed_of_returns {s t : TxPath} {e : TxPathEvent} (h : Progress s)
    (hst : TxPath.step K quirkCrcTx sanity s e = some t) (hr : Returns s t) (ht : Progress t) :
    s.finished < t.echoes.length := by
  obtain ⟨hrun, err, hidle⟩ := hr
  have hzero := ht.len
  rw [hidle] at hzero
  obtain rfl : err = 0 := hzero.1
  by_cases he : e = .tefif
  · subst he
    rcases s with ⟨drv, tef, txPackets, txBytes, xmit, tefif, spi, chip, frames, echoes, finished⟩
    have hlen := h.len
    cases tefif with
    | idle err => exact absurd rfl (hrun err)
    | update | head _ | tail _ | freeHead => cases hst; cases hidle
    | uinc _ | checkTail | read _ _ _ | checkUinc =>
      simp only [TxPath.step, TxPath.tefifNext] at hst
      split_ifs at hst <;> cases hst <;> cases hidle
    | one hw i =>
      simp only [TxPath.step, TxPath.tefifNext] at hst
      split at hst
      · cases hst
        cases hidle
      · split_ifs at hst <;> cases hst <;> cases hidle
    | freeTail _ =>
      simp only [TxPath.step, TxPath.tefifNext] at hst
      split_ifs at hst <;> cases hst
      · exact hlen
      · cases hidle
    | wake =>
      cases hst
      exact hlen
  · rcases tefif_of_step he hst with hsame | hup
    · exact absurd (hsame ▸ hidle) (hrun 0)
    · rw [hup] at hidle
      cases hidle

/-- The TX head is too small for an update to wrap past it. -/
theorem not_updateWraps_of_few {s : TxPath} (hc : Counts s) {e : TxPathEvent}
    (hfew : s.frames.length + 1 + s.drv.tx.slots < 2 ^ 32) : ¬ s.UpdateWraps e := by
  rintro ⟨-, c, -, hlast, -, hle⟩
  have hahead : s.xmit.ahead ≤ 1 := by cases s.xmit <;> simp [XmitPc.ahead]
  have hhead : s.drv.tx.head.toNat = s.frames.length + s.xmit.ahead := by
    rw [hc.head, UInt32.toNat_ofNat']
    omega
  have := UInt32.le_iff_toNat_le.mp hle
  omega

theorem step_frames {s t : TxPath} {e : TxPathEvent} (hc : Counts s)
    (hst : TxPath.step K quirkCrcTx sanity s e = some t) :
    t.frames.length ≤ s.frames.length + 1 ∧ t.drv.tx.slots = s.drv.tx.slots := by
  cases e with
  | startXmit skb =>
    simp only [TxPath.step] at hst
    split at hst <;> cases hst
    exact ⟨Nat.le_succ _, rfl⟩
  | xmit =>
    refine ⟨?_, (xmitNext_frame hst).slots⟩
    rcases s with ⟨drv, tef, txPackets, txBytes, xmit, tefif, spi, chip, frames, echoes, finished⟩
    cases xmit with
    | idle => cases hst
    | freeTail _ _ | recheckTail _ _ | fullTail _ _ _ =>
      simp only [TxPath.step, TxPath.xmitNext] at hst
      split_ifs at hst <;> cases hst <;> exact Nat.le_succ _
    | submit skb _ =>
      cases hst
      exact List.length_append.le
    | freeHead _ | stop _ | recheckHead _ | start _ | load _ | advance _ _ | fullHead _ _
    | stopFull _ _ | echo _ _ =>
      cases hst
      exact Nat.le_succ _
  | handleTefif =>
    simp only [TxPath.step] at hst
    split at hst
    · split_ifs at hst
      cases hst
      exact ⟨Nat.le_succ _, rfl⟩
    · cases hst
  | tefif =>
    have hf := tefifNext_frame hc.ovif hst
    exact ⟨by rw [hf.frames]; exact Nat.le_succ _, hf.slots⟩
  | transfer =>
    simp only [TxPath.step, TxPath.transfer] at hst
    split at hst <;> cases hst
    exact ⟨Nat.le_succ _, rfl⟩
  | send =>
    simp only [TxPath.step, TxPath.send] at hst
    split_ifs at hst
    cases hst
    exact ⟨Nat.le_succ _, rfl⟩
  | event obj =>
    simp only [TxPath.step, TxPath.event] at hst
    split at hst
    · cases hst
    · split_ifs at hst <;> cases hst <;> exact ⟨Nat.le_succ _, rfl⟩

/-- A run that is short of `2 ^ 32` frames by a lap has no update that wraps past. -/
theorem along_not_updateWraps (tx : TxRing) (obj : ℕ → TxObj) {s : TxPath}
    (hi : Inv K quirkCrcTx s) (es : List TxPathEvent)
    (hfew : s.frames.length + es.length + s.drv.tx.slots < 2 ^ 32) :
    (txPath K quirkCrcTx sanity tx obj).Along (fun s e _ => ¬ s.UpdateWraps e) s es := by
  induction es generalizing s with
  | nil => trivial
  | cons e es ih =>
    rw [List.length_cons] at hfew
    intro t hst
    obtain ⟨hframes, hslots⟩ := step_frames hi.counts hst
    exact ⟨not_updateWraps_of_few hi.counts (by omega), ih (inv_step hi hst) (by omega)⟩

end TxPath

/-- Along every run none of whose updates wraps past the TX head, `mcp251xfd_handle_tefif`
completes the frames in order, never too early and at least one for each call; and a call that
has begun comes to its end. -/
theorem handleTefif_run_ok (K : DlcHelpers) (quirkCrcTx sanity : Bool) (tx : TxRing)
    (obj : ℕ → TxObj) (es : List TxPathEvent)
    (hok : (txPath K quirkCrcTx sanity tx obj).Along (fun s e _ => ¬ s.UpdateWraps e)
      (TxPath.init tx obj) es) :
    (txPath K quirkCrcTx sanity tx obj).Along
      (fun s _ t => t.CompletesOk ∧ (s.Returns t → s.finished < t.echoes.length) ∧
        ((∀ err, t.tefif ≠ .idle err) → ∃ u, t.tefifNext sanity = some u ∧
          TxPath.tefifRank u.tefif < TxPath.tefifRank t.tefif))
      (TxPath.init tx obj) es := by
  refine Sys.Along.imp (I := fun s => TxPath.Inv K quirkCrcTx s ∧ s.Progress) ?_
    ⟨TxPath.inv_init tx obj, TxPath.progress_init tx obj⟩ hok
  intro s e t hs hst hnw
  have hi := TxPath.inv_step hs.1 hst
  have hp := TxPath.progress_step hs.1 hs.2 hst hnw
  exact ⟨⟨hi, hp⟩, TxPath.completesOk_of_inv hi hp,
    fun hr => TxPath.completed_of_returns hs.2 hst hr hp, TxPath.tefifNext_rank sanity⟩

/-- One frame from `mcp251xfd_start_xmit` to the end of `mcp251xfd_handle_tefif`. -/
def roundTrip (skb : Skb) (obj : HwTefObj) : List TxPathEvent :=
  xmitOne skb ++ [.transfer, .send, .event obj, .handleTefif] ++ List.replicate 13 .tefif

theorem handleTefif_run_ok_roundTrip :
    ∃ t, (txPath kernelDlc true true txRingCan fun _ => emptyTxObj).runFrom
        (TxPath.init txRingCan fun _ => emptyTxObj) (roundTrip (zeroFrame 1) ⟨0x123, 0, 7⟩) =
          some t ∧ t.echoes = [⟨0, some (zeroFrame 1), 7⟩] ∧
      (txPath kernelDlc true true txRingCan fun _ => emptyTxObj).Along
        (fun s _ t => t.CompletesOk ∧ (s.Returns t → s.finished < t.echoes.length) ∧
          ((∀ err, t.tefif ≠ .idle err) → ∃ u, t.tefifNext true = some u ∧
            TxPath.tefifRank u.tefif < TxPath.tefifRank t.tefif))
        (TxPath.init txRingCan fun _ => emptyTxObj) (roundTrip (zeroFrame 1) ⟨0x123, 0, 7⟩) :=
  ⟨_, rfl, rfl, handleTefif_run_ok kernelDlc true true txRingCan (fun _ => emptyTxObj) _
    (TxPath.along_not_updateWraps _ _ (TxPath.inv_init _ _) _ (by decide))⟩

/-- Three frames are sent, and their TEF objects come late, one by one. The second call is given
an update that wraps past the TX head; it fails, although TEFIF is pending. -/
theorem handleTefif_fails_at_wrap :
    ∃ s t, (txPath kernelDlc false true txRingCan fun _ => emptyTxObj).Reachable s ∧
      s.frames.length < 2 ^ 32 ∧ s.chip.tefTail < s.chip.events ∧
      (txPath kernelDlc false true txRingCan fun _ => emptyTxObj).step s .tefif = some t ∧
      s.Returns t ∧ t.tefif = .idle (-erange) ∧ t.echoes.length = s.finished := by
  obtain ⟨s, hs⟩ := TxPath.calm_reachable kernelDlc false true txRingCan (fun _ => emptyTxObj)
    (zeroFrame 1) (k := 4294967286) (by decide)
  have hslots : txRingCan.slots = 8 := rfl
  obtain ⟨s, hs⟩ := hs.push (zeroFrame 1) (by omega)
  obtain ⟨s, hs⟩ := hs.push (zeroFrame 1) (by omega)
  obtain ⟨s, hs⟩ := hs.push (zeroFrame 1) (by omega)
  obtain ⟨s, hs⟩ := hs.event (by omega)
  have hnext : TxPath.nextHead 8 (UInt32.ofNat 4294967286) 4294967289 = 4294967289 := by decide
  obtain ⟨s, hs⟩ := hs.call (n := 3) (by rw [hslots, hnext]; decide) (by omega) (by omega)
  rw [hslots, hnext] at hs
  obtain ⟨s, hs⟩ := hs.event (by omega)
  have hwrap : TxPath.nextHead 8 4294967289 4294967289 = 1 := by decide
  have hupd := hs.update (by omega)
  rw [hslots, hwrap] at hupd
  have hread := TxPath.reach_checkTail (s := { s with tef := { s.tef with head := 1 } }) hupd
  have hi := hs.inv
  have htail : s.tef.tail = 4294967287 := by
    rw [hi.counts.tefTail, hs.echoes]
    rfl
  have hlen : (getTefLen { s.tef with head := 1 }).toNat = 10 := by
    rw [toNat_getTefLen, htail]
    exact (by decide : lead 4294967287 1 % 256 = 10)
  have hlinear : (getTefLinearLen { s.tef with head := 1 } s.drv.tx).toNat = 1 := by
    rw [toNat_getTefLinearLen, toNat_getTefTail, hlen, htail, hs.slots, hslots]
    decide
  rw [hlen, hlinear] at hread
  obtain ⟨o, hfirst⟩ : ∃ o, (txPath kernelDlc false true txRingCan fun _ => emptyTxObj).Reachable
      { s with tef := { s.tef with head := 1 }, tefif := .read 10 1 [o] } :=
    ⟨_, hread.next (e := .tefif) rfl⟩
  have hrange : TxPath.tefObjRange true s.drv.tx 0 9 = true := by
    simp [TxPath.tefObjRange, hs.slots, hslots]
  have hfin := ((TxPath.wakeDue_invariant txRingCan fun _ => emptyTxObj).reachable
    hs.reach).2.returned 0 hs.tefif
  have hchip := hi.counts.chipTail
  rw [hs.tefif, hs.echoes] at hchip
  change s.chip.tefTail + 0 = _ at hchip
  have hlast : (txPath kernelDlc false true txRingCan fun _ => emptyTxObj).step
      { s with tef := { s.tef with head := 1 }, tefif := .read 10 1 [o] } .tefif =
        some (TxPath.ret { s with tef := { s.tef with head := 1 } } (-erange)) := by
    simp [txPath, TxPath.step, TxPath.tefifNext, TxPath.ret, hrange]
  refine ⟨_, _, hfirst, ?_, ?_, hlast, ⟨by rintro _ ⟨⟩, _, rfl⟩, rfl, hfin.symm⟩
  · change s.frames.length < 2 ^ 32
    rw [hs.frames]
    decide
  · change s.chip.tefTail < s.chip.events
    rw [hs.events]
    omega

end YoctoLayers.Mcp251xfd
