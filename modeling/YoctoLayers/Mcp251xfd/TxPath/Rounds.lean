import YoctoLayers.Mcp251xfd.TxPath.Queue

/-! Frames that go through one after the other: any number of frames is reached. -/
namespace YoctoLayers.Mcp251xfd
open YoctoLayers.Lib
namespace TxPath
variable {K : DlcHelpers} {quirkCrcTx sanity : Bool} {tx : TxRing} {obj : ℕ → TxObj}

variable (K quirkCrcTx sanity tx obj) in
/-- Between calls, with every accepted frame sent: `accepted` frames, of which `events` have
their TEF object and `completed` are completed. -/
structure Calm (accepted events completed : ℕ) (head : UInt32) (s : TxPath) : Prop where
  reach : (txPath K quirkCrcTx sanity tx obj).Reachable s
  xmit : s.xmit = .idle
  tefif : s.tefif = .idle 0
  frames : s.frames.length = accepted
  sent : s.chip.sent = accepted
  events : s.chip.events = events
  echoes : s.echoes.length = completed
  head : s.tef.head = head
  slots : s.drv.tx.slots = tx.slots

variable {a e c : ℕ} {h : UInt32} {s : TxPath}

theorem Calm.inv (hs : Calm K quirkCrcTx sanity tx obj a e c h s) : Inv K quirkCrcTx s :=
  (inv_invariant tx obj).reachable hs.reach

theorem calm_init : Calm K quirkCrcTx sanity tx obj 0 0 0 0 (TxPath.init tx obj) :=
  ⟨.init, rfl, rfl, rfl, rfl, rfl, rfl, rfl, rfl⟩

/-- A frame is accepted, transferred and sent. -/
theorem Calm.push (hs : Calm K quirkCrcTx sanity tx obj a e c h s) (skb : Skb)
    (hlt : a < c + tx.slots) : ∃ t, Calm K quirkCrcTx sanity tx obj (a + 1) e c h t := by
  have hi := hs.inv
  have hfree : getTxFree s.drv.tx ≠ 0 := by
    intro h0
    have hfree := hi.counts.getTxFree_eq
    rw [h0, hs.echoes, hs.frames, hs.slots, hs.xmit, hs.tefif] at hfree
    change 0 = c - 0 + tx.slots - (a + 0) at hfree
    omega
  have hpos : 0 < getTxFree s.drv.tx := by
    rw [UInt8.lt_iff_toNat_lt]
    exact Nat.pos_of_ne_zero fun h0 => hfree (UInt8.toNat_inj.mp h0)
  have hspi : s.spi = [] := by
    have hw := hi.counts.written
    have hlen := hi.counts.spi
    rw [hs.sent] at hw
    rw [hs.frames] at hlen
    exact List.eq_nil_of_length_eq_zero (by omega)
  obtain ⟨d, i, hecho, hslots⟩ : ∃ (d : TxDriver) (i : ℕ),
      (txPath K quirkCrcTx sanity tx obj).Reachable { s with drv := d, xmit := .echo skb i } ∧
        d.tx.slots = s.drv.tx.slots := by
    have h1 := hs.reach.next (e := .startXmit skb) (t := { s with xmit := .freeHead skb })
      (by simp only [txPath, TxPath.step, hs.xmit])
    have h2 := h1.next (e := .xmit) rfl
    have h3 := h2.next (e := .xmit) (if_pos hpos)
    have h4 := h3.next (e := .xmit) rfl
    have h5 := h4.next (e := .xmit) rfl
    have h6 := h5.next (e := .xmit) rfl
    by_cases hfull : s.drv.tx.objNum.toUInt32 ≤ s.drv.tx.head + 1 - s.drv.tx.tail
    · have h7 := h6.next (e := .xmit) (if_pos hfull)
      exact ⟨_, _, h7.next (e := .xmit) rfl, rfl⟩
    · exact ⟨_, _, h6.next (e := .xmit) (if_neg hfull), rfl⟩
  have h1 := hecho.next (e := .xmit) rfl
  have h2 := h1.next (e := .xmit) rfl
  have h3 := h2.next (e := .transfer) (t := _) (by
    simp only [txPath, TxPath.step, TxPath.transfer, hspi, List.nil_append]
    rfl)
  have hsent : s.chip.sent < s.chip.written + 1 := Nat.lt_succ_of_le hi.counts.written
  have h4 := h3.next (e := .send) (if_pos hsent)
  refine ⟨_, h4, rfl, hs.tefif, ?_, ?_, hs.events, hs.echoes, hs.head, hslots.trans hs.slots⟩
  · rw [← hs.frames]
    exact List.length_append
  · rw [← hs.sent]

/-- The TEF object of the next sent frame is written. -/
theorem Calm.event (hs : Calm K quirkCrcTx sanity tx obj a e c h s) (hlt : e < a) :
    ∃ t, Calm K quirkCrcTx sanity tx obj a (e + 1) c h t := by
  have hi := hs.inv
  have hsent := hi.counts.sent
  rw [hs.sent, hs.events] at hsent
  obtain ⟨hw, rest, hp⟩ := List.exists_cons_of_length_pos (by omega : 0 < s.chip.pending.length)
  have h1 := hs.reach.next (e := .event ⟨hw.id, hw.flags, 0⟩) (t := _) (by
    simp only [txPath, TxPath.step, TxPath.event, hp, and_self, if_true, hi.counts.tef_room hp]
    rfl)
  exact ⟨_, h1, hs.xmit, hs.tefif, hs.frames, hs.sent, congrArg (· + 1) hs.events, hs.echoes,
    hs.head, hs.slots⟩

/-- The reads of the TEF come to their end. -/
theorem reach_read {n l : ℕ} {hw : List HwTefObj} (hl : l ≤ n) (hle : hw.length ≤ n)
    (hn : n ≤ s.drv.tx.slots) (hr : (txPath K quirkCrcTx sanity tx obj).Reachable
      { s with tefif := .read n l hw }) : ∃ hw' : List HwTefObj, hw'.length = n ∧
    (txPath K quirkCrcTx sanity tx obj).Reachable { s with tefif := .one hw' 0 } := by
  obtain ⟨k, hk⟩ : ∃ k, n = hw.length + k := ⟨n - hw.length, by omega⟩
  induction k generalizing hw with
  | zero =>
    have h1 := hr.next (e := .tefif) (t := _) ((if_neg (by omega)).trans (if_neg (by omega)))
    exact ⟨hw, hk.symm, h1⟩
  | succ k ih =>
    have hgrow : ∀ x : HwTefObj, (hw ++ [x]).length = hw.length + 1 := fun x => by simp
    by_cases hlt : hw.length < l
    · exact ih (by rw [hgrow]; omega) (hr.next (e := .tefif) (if_pos hlt)) (by rw [hgrow]; omega)
    · have hrange : tefObjRange sanity s.drv.tx 0 (n - l) = false := tefObjRange_eq (by omega)
      have h1 := hr.next (e := .tefif) (t := _) ((if_neg hlt).trans ((if_pos (by omega)).trans
        (if_neg fun hbad => Bool.false_ne_true (hrange.symm.trans hbad.2))))
      exact ih (by rw [hgrow]; omega) h1 (by rw [hgrow]; omega)

/-- The TEF head after an update with `accepted` frames sent. -/
def nextHead (slots : ℕ) (head : UInt32) (accepted : ℕ) : UInt32 :=
  UInt32.ofNat (min ((head.toNat + gap head.toNat (accepted % slots) slots) % 2 ^ 32)
    (accepted % 2 ^ 32))

/-- A call up to the check of the TEF tail. -/
theorem Calm.update (hs : Calm K quirkCrcTx sanity tx obj a e c h s) (hlt : c < e) :
    (txPath K quirkCrcTx sanity tx obj).Reachable
      { s with tef := { s.tef with head := nextHead tx.slots h a }, tefif := .checkTail } := by
  have hi := hs.inv
  have hslots := s.drv.tx.slots_cases
  have hmod := Nat.mod_lt s.chip.sent (by omega : 0 < s.drv.tx.slots)
  have hc : (UInt8.ofNat (s.chip.sent % s.drv.tx.slots)).toNat = s.chip.sent % s.drv.tx.slots :=
    UInt8.toNat_ofNat_of_lt' (by change _ < 256; omega)
  have hcn : UInt8.ofNat (s.chip.sent % s.drv.tx.slots) < s.drv.tx.objNum := by
    rw [UInt8.lt_iff_toNat_lt, hc]
    exact hmod
  have hhead : s.drv.tx.head.toNat = a % 2 ^ 32 := by
    rw [hi.counts.head, hs.frames, hs.xmit, UInt32.toNat_ofNat']
    rfl
  have hnew : (tefRingUpdate s.tef s.drv.tx (UInt8.ofNat (s.chip.sent % s.drv.tx.slots))).head =
      nextHead tx.slots h a := by
    rw [← UInt32.toNat_inj, toNat_tefRingUpdate_head _ _ hcn, hc, hhead, hs.sent, hs.slots, hs.head,
      nextHead, UInt32.toNat_ofNat']
    refine (Nat.mod_eq_of_lt ?_).symm
    exact (Nat.min_le_right _ _).trans_lt (Nat.mod_lt _ (by positivity))
  have htail : s.chip.tefTail < s.chip.events := by
    have hchip := hi.counts.chipTail
    rw [hs.tefif, hs.echoes] at hchip
    change s.chip.tefTail + 0 = c at hchip
    rw [hs.events]
    omega
  have h1 := hs.reach.next (e := .handleTefif) (t := { s with tefif := .update }) (by
    simp only [txPath, TxPath.step, hs.tefif, true_and, if_pos htail])
  have h2 := h1.next (e := .tefif) rfl
  have h3 := h2.next (e := .tefif) rfl
  rw [← hnew]
  exact h3

/-- The first read is always inside the TEF. -/
theorem reach_checkTail (hr : (txPath K quirkCrcTx sanity tx obj).Reachable
    { s with tefif := .checkTail }) : (txPath K quirkCrcTx sanity tx obj).Reachable
      { s with tefif :=
          .read (getTefLen s.tef).toNat (getTefLinearLen s.tef s.drv.tx).toNat [] } := by
  have hi : Inv K quirkCrcTx { s with tefif := .checkTail } := (inv_invariant tx obj).reachable hr
  have hslots := s.drv.tx.slots_cases
  have hlt := Nat.mod_lt s.tef.tail.toNat (by omega : 0 < s.drv.tx.slots)
  have htail := toNat_getTefTail s.tef s.drv.tx
  have hl := toNat_getTefLinearLen s.tef s.drv.tx
  have hrange : tefObjRange sanity s.drv.tx (getTefTail s.tef s.drv.tx).toNat
      (getTefLinearLen s.tef s.drv.tx).toNat = false := tefObjRange_eq (by omega)
  refine hr.next (e := .tefif) ?_
  simp only [txPath, TxPath.step, TxPath.tefifNext, hi.counts.tefTailDiffers_eq rfl, hrange,
    Bool.false_eq_true, if_false]

/-- The one frame that has its TEF object is completed, then the loop is left. -/
theorem reach_one {hw : List HwTefObj} (hpos : 0 < hw.length)
    (hev : s.chip.events = s.echoes.length + 1)
    (hr : (txPath K quirkCrcTx sanity tx obj).Reachable { s with tefif := .one hw 0 }) :
    ∃ o, (txPath K quirkCrcTx sanity tx obj).Reachable
      { s.getEchoSkb o with tefif := .uinc 1 } := by
  have hi : Inv K quirkCrcTx { s with tefif := .one hw 0 } := (inv_invariant tx obj).reachable hr
  have h0 : hw[0]? = some hw[0] := List.getElem?_eq_getElem hpos
  have hread : Reads s.drv.tx.slots s.chip.events (s.echoes.length - 0) hw := hi.tef.reading
  have htail : s.tef.tail = UInt32.ofNat s.echoes.length := hi.counts.tefTail
  have hmatch : seqMasked (objFlagsSeqMcp2518fd.get hw[0].flags) = seqMasked s.tef.tail := by
    rw [htail]
    exact seqMasked_ofNat_eq_iff.mpr (hread.first _ h0)
  have h1 := hr.next (e := .tefif) (t := { s.getEchoSkb hw[0] with tefif := .one hw 1 }) (by
    simp only [txPath, TxPath.step, TxPath.tefifNext, h0, hmatch, if_true]
    rfl)
  have hi1 : Inv K quirkCrcTx { s.getEchoSkb hw[0] with tefif := .one hw 1 } :=
    (inv_invariant tx obj).reachable h1
  refine ⟨hw[0], h1.next (e := .tefif) ?_⟩
  cases hnext : hw[1]? with
  | none => simp only [txPath, TxPath.step, TxPath.tefifNext, hnext]
  | some o =>
    have hno : ¬ Matches { s.getEchoSkb hw[0] with tefif := .one hw 1 } o := by
      intro hm
      have hlt := hi1.written rfl hnext hm
      have hgrow : (s.getEchoSkb hw[0]).echoes.length = s.echoes.length + 1 := List.length_append
      change (s.getEchoSkb hw[0]).echoes.length < s.chip.events at hlt
      omega
    have hov : (s.getEchoSkb hw[0]).chip.tefovif = false := hi1.counts.ovif
    simp only [txPath, TxPath.step, TxPath.tefifNext, hnext]
    exact (if_neg hno).trans (if_neg (by rw [hov]; decide))

/-- From the UINC on the call comes to its end. -/
theorem reach_ret (hr : (txPath K quirkCrcTx sanity tx obj).Reachable { s with tefif := .uinc 1 }) :
    ∃ t, (txPath K quirkCrcTx sanity tx obj).Reachable t ∧ t.tefif = .idle 0 ∧ t.xmit = s.xmit ∧
      t.frames = s.frames ∧ t.echoes = s.echoes ∧ t.tef = s.tef ∧
      t.chip = { s.chip with tefTail := t.chip.tefTail } ∧ t.drv.tx.slots = s.drv.tx.slots := by
  have h1 := hr.next (e := .tefif) rfl
  have h2 := h1.next (e := .tefif) rfl
  have hi := (inv_invariant tx obj).reachable h2
  have hdiff := @Counts.tefTailDiffers_eq sanity _ hi.counts rfl
  have h3 := h2.next (e := .tefif) (if_neg (by rw [hdiff]; decide))
  have h4 := h3.next (e := .tefif) rfl
  by_cases hfree : getTxFree { s.drv.tx with tail := s.drv.tx.tail + UInt32.ofNat 1 } = 0
  · exact ⟨_, h4.next (e := .tefif) (if_pos hfree), rfl, rfl, rfl, rfl, rfl, rfl, rfl⟩
  · have h5 := h4.next (e := .tefif) (if_neg hfree)
    exact ⟨_, h5.next (e := .tefif) rfl, rfl, rfl, rfl, rfl, rfl, rfl, rfl⟩

/-- A call with the TEF object of one frame to be found completes that frame. -/
theorem Calm.call (hs : Calm K quirkCrcTx sanity tx obj a (c + 1) c h s) {n : ℕ}
    (hd : lead (UInt32.ofNat c) (nextHead tx.slots h a) = n) (hpos : 0 < n) (hle : n ≤ tx.slots) :
    ∃ t, Calm K quirkCrcTx sanity tx obj a (c + 1) (c + 1) (nextHead tx.slots h a) t := by
  have hi := hs.inv
  have hslots := tx.slots_cases
  set tef : TefRing := { s.tef with head := nextHead tx.slots h a }
  have hn : (getTefLen tef).toNat = n := by
    rw [toNat_getTefLen]
    change lead s.tef.tail (nextHead tx.slots h a) % 256 = n
    rw [hi.counts.tefTail, hs.echoes, hd]
    omega
  have hl : (getTefLinearLen tef s.drv.tx).toNat ≤ n := by
    rw [toNat_getTefLinearLen, hn]
    exact min_le_left _ _
  have hread := reach_checkTail (s := { s with tef := tef }) (hs.update (Nat.lt_succ_self c))
  rw [hn] at hread
  obtain ⟨hw, hlen, hone⟩ := reach_read (s := { s with tef := tef }) hl (Nat.zero_le _)
    (hle.trans_eq hs.slots.symm) hread
  have hev : s.chip.events = s.echoes.length + 1 := by rw [hs.events, hs.echoes]
  obtain ⟨o, huinc⟩ := reach_one (s := { s with tef := tef }) (by omega) hev hone
  obtain ⟨t, ht, htefif, hxmit, hframes, hechoes, htef, hchip, htx⟩ := reach_ret huinc
  refine ⟨t, ht, hxmit.trans hs.xmit, htefif, ?_, ?_, ?_, ?_, ?_, htx.trans hs.slots⟩
  · rw [hframes]
    exact hs.frames
  · rw [hchip]
    exact hs.sent
  · rw [hchip]
    exact hs.events
  · rw [hechoes, ← hs.echoes]
    exact List.length_append
  · rw [htef]
    rfl

theorem nextHead_of_sent {n k j : ℕ} (hlo : k < j) (hhi : j ≤ k + n) (hj : j < 2 ^ 32) :
    nextHead n (UInt32.ofNat k) j = UInt32.ofNat j := by
  have hk : (UInt32.ofNat k).toNat = k := UInt32.toNat_ofNat_of_lt' (hlo.trans hj)
  rw [nextHead, hk, gap_unique hlo hhi, show k + (j - k) = j by omega, min_self,
    Nat.mod_eq_of_lt hj]

variable (K quirkCrcTx sanity tx obj) in
/-- Any number of frames is reached. -/
theorem calm_reachable (skb : Skb) {k : ℕ} (hk : k < 2 ^ 32) :
    ∃ s, Calm K quirkCrcTx sanity tx obj k k k (UInt32.ofNat k) s := by
  have hslots := tx.slots_cases
  induction k with
  | zero => exact ⟨_, calm_init⟩
  | succ k ih =>
    obtain ⟨s, hs⟩ := ih (Nat.lt_of_succ_lt hk)
    obtain ⟨s, hs⟩ := hs.push skb (by omega)
    obtain ⟨s, hs⟩ := hs.event (Nat.lt_succ_self k)
    have hnext := nextHead_of_sent (n := tx.slots) (Nat.lt_succ_self k) (by omega) hk
    have hd : lead (UInt32.ofNat k) (UInt32.ofNat (k + 1)) = 1 :=
      (lead_ofNat (Nat.le_succ k) (by omega)).trans (by omega)
    obtain ⟨s, hs⟩ := hs.call (n := 1) (by rw [hnext]; exact hd) Nat.one_pos (by omega)
    rw [hnext] at hs
    exact ⟨s, hs⟩

end TxPath
end YoctoLayers.Mcp251xfd
