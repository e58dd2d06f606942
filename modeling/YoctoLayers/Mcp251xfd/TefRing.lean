import YoctoLayers.Lib.System
import YoctoLayers.Mcp251xfd.Ring

/-! The counters of the transmit path: `mcp251xfd_start_xmit` moves the TX head while
`mcp251xfd_handle_tefif` moves the TEF head, the TEF tail and the TX tail. The chip may
report any FIFOCI index. -/
namespace YoctoLayers.Mcp251xfd
open YoctoLayers.Lib

/-- The counter part of `mcp251xfd_ring_init`. -/
def tefRingInit : TefRing := ⟨0, 0⟩

def txRingInit (tx : TxRing) : TxRing :=
  { tx with head := 0, tail := 0, base := getTefObjAddr tx.objNum }

/-- `mcp251xfd_tef_ring_update`, FIFOCI having been read as `chipTxTail`. -/
def tefRingUpdate (tef : TefRing) (tx : TxRing) (chipTxTail : UInt8) : TefRing :=
  let newHead := roundDown tef.head tx.objNum.toUInt32 + chipTxTail.toUInt32
  let newHead := if newHead ≤ tef.head then newHead + tx.objNum.toUInt32 else newHead
  { tef with head := min newHead tx.head }

/-- The reads into `hw_tef_obj`: first array index, first RAM object, number of objects. -/
def tefObjReads (tef : TefRing) (tx : TxRing) : List (UInt8 × UInt8 × UInt8) :=
  let len := getTefLen tef
  let l := getTefLinearLen tef tx
  (0, getTefTail tef tx, l) :: if l < len then [(l, 0, len - l)] else []

/-- The number of entries of `hw_tef_obj` the reads fill, counted from its start. -/
def tefObjFill (tef : TefRing) (tx : TxRing) : ℕ :=
  ((tefObjReads tef tx).map fun r => r.1.toNat + r.2.2.toNat).foldl max 0

/-- Where `mcp251xfd_handle_tefif` is. -/
inductive TefPc
  | idle
  /-- `len` objects have been read, `i` of them are handled. -/
  | handling (len i : UInt8)
deriving DecidableEq, Repr

structure TxCounters where
  tef : TefRing
  tx : TxRing
  pc : TefPc
deriving DecidableEq, Repr

inductive TxCounterEvent
  /-- `mcp251xfd_start_xmit`, the SPI submission succeeding. -/
  | startXmit
  /-- `mcp251xfd_handle_tefif` starts and `mcp251xfd_tef_ring_update` returns. -/
  | tefRingUpdate (chipTxTail : UInt8)
  /-- `mcp251xfd_handle_tefif_one` finds its sequence number. -/
  | handleTefifOne
  /-- The loop is left, UINC is sent and the TX tail moves. -/
  | outNetifWakeQueue
  /-- `mcp251xfd_handle_tefif` returns an error. -/
  | handleTefifErr
deriving DecidableEq, Repr

def txCounterStep (s : TxCounters) : TxCounterEvent → Option TxCounters
  | .startXmit =>
    if getTxFree s.tx = 0 then some s
    else some { s with tx := { s.tx with head := s.tx.head + 1 } }
  | .tefRingUpdate chipTxTail =>
    match s.pc with
    | .idle =>
      if chipTxTail < s.tx.objNum then
        let tef := tefRingUpdate s.tef s.tx chipTxTail
        some { s with tef := tef, pc := .handling (getTefLen tef) 0 }
      else none
    | .handling _ _ => none
  | .handleTefifOne =>
    match s.pc with
    | .handling len i =>
      if i < len then
        some { s with tef := { s.tef with tail := s.tef.tail + 1 }, pc := .handling len (i + 1) }
      else none
    | .idle => none
  | .outNetifWakeQueue =>
    match s.pc with
    | .handling _ i =>
      some { s with tx := { s.tx with tail := s.tx.tail + i.toUInt32 }, pc := .idle }
    | .idle => none
  | .handleTefifErr =>
    match s.pc with
    | .handling _ _ => some { s with pc := .idle }
    | .idle => none

/-- The transmit path from `mcp251xfd_ring_init` on. -/
def txCounters (tx : TxRing) : Sys TxCounters TxCounterEvent where
  init := ⟨tefRingInit, txRingInit tx, .idle⟩
  step := txCounterStep

/-- `tx.tail ≤ tef.tail ≤ tef.head ≤ tx.head ≤ tx.tail + obj_num`, modulo `2 ^ 32`. -/
structure Ordered (tef : TefRing) (tx : TxRing) : Prop where
  tefTail : lead tx.tail tef.tail ≤ lead tx.tail tef.head
  tefHead : lead tx.tail tef.head ≤ lead tx.tail tx.head
  txHead : lead tx.tail tx.head ≤ tx.slots

/-- The update carries the TEF head over `2 ^ 32` while the TX head is still below it:
the TEF head is in its last lap, FIFOCI is not past it, and `min` compares across the
wrap-around. -/
def WrapsPast (tef : TefRing) (tx : TxRing) (chipTxTail : UInt8) : Prop :=
  2 ^ 32 - tx.slots ≤ tef.head.toNat ∧ chipTxTail.toNat ≤ tef.head.toNat % tx.slots ∧
    tef.head ≤ tx.head

instance (tef : TefRing) (tx : TxRing) : Decidable (Ordered tef tx) :=
  decidable_of_iff (_ ∧ _ ∧ _) ⟨fun h => ⟨h.1, h.2.1, h.2.2⟩, fun h => ⟨h.1, h.2, h.3⟩⟩

instance (tef : TefRing) (tx : TxRing) (c : UInt8) : Decidable (WrapsPast tef tx c) :=
  inferInstanceAs (Decidable (_ ∧ _ ∧ _))

theorem tefRingUpdate_head (tef : TefRing) (tx : TxRing) (c : UInt8) :
    (tefRingUpdate tef tx c).head =
      min (catchUp tef.head c.toUInt32 tx.objNum.toUInt32) tx.head := rfl

@[simp] theorem tefRingUpdate_tail (tef : TefRing) (tx : TxRing) (c : UInt8) :
    (tefRingUpdate tef tx c).tail = tef.tail := rfl

theorem toNat_tefRingUpdate_head (tef : TefRing) (tx : TxRing) {c : UInt8} (hc : c < tx.objNum) :
    (tefRingUpdate tef tx c).head.toNat =
      min ((tef.head.toNat + gap tef.head.toNat c.toNat tx.slots) % 2 ^ 32) tx.head.toNat := by
  have hc' : c.toUInt32.toNat < tx.objNum.toUInt32.toNat := by
    simpa using UInt8.lt_iff_toNat_lt.mp hc
  rw [tefRingUpdate_head, toNat_min, tx.pow2.toNat_catchUp hc', TxRing.toNat_objNum32]
  simp

/-- An update goes on by at least one object and at most once round. -/
theorem gap_bounds {tx : TxRing} (h : ℕ) {c : UInt8} (hc : c < tx.objNum) :
    0 < gap h c.toNat tx.slots ∧ gap h c.toNat tx.slots ≤ tx.slots := by
  have hslots : c.toNat < tx.slots := hc
  exact ⟨gap_pos (Nat.zero_lt_of_lt hslots), gap_le hslots⟩

/-- `WrapsPast` says that the new head, not yet bounded by the TX head, exceeds 32 bits. -/
theorem wrapsPast_iff (tef : TefRing) (tx : TxRing) {c : UInt8} (hc : c < tx.objNum) :
    WrapsPast tef tx c ↔ 2 ^ 32 ≤ tef.head.toNat + gap tef.head.toNat c.toNat tx.slots ∧
      tef.head.toNat ≤ tx.head.toNat := by
  have hc' : c.toNat < tx.slots := hc
  have hlt := tef.head.toNat_lt
  rw [WrapsPast, UInt32.le_iff_toNat_le, gap]
  rcases tx.slots_cases with hs | hs <;> rw [hs] at hc' ⊢ <;> split_ifs <;> omega

/-- One update keeps the counters ordered unless it wraps past the TX head. -/
theorem tefRingUpdate_ordered_iff {tef : TefRing} {tx : TxRing} (h : Ordered tef tx) {c : UInt8}
    (hc : c < tx.objNum) : Ordered (tefRingUpdate tef tx c) tx ↔ ¬ WrapsPast tef tx c := by
  obtain ⟨h1, h2, h3⟩ := h
  obtain ⟨hg, hg'⟩ := gap_bounds tef.head.toNat hc
  have hnew := toNat_tefRingUpdate_head tef tx hc
  have hs := tx.slots_cases
  have := tef.head.toNat_lt
  have := tef.tail.toNat_lt
  have := tx.head.toNat_lt
  have := tx.tail.toNat_lt
  rw [wrapsPast_iff tef tx hc]
  simp only [lead_def] at h1 h2 h3
  constructor
  · rintro ⟨k1, k2, k3⟩ ⟨hw, hx⟩
    simp only [lead_def, hnew] at k2
    omega
  · intro hnot
    refine ⟨?_, ?_, ?_⟩
    · simp only [lead_def, hnew, tefRingUpdate_tail]
      omega
    · simp only [lead_def, hnew]
      omega
    · simpa only [lead_def] using h3

theorem Ordered.lead_tail_head {tef : TefRing} {tx : TxRing} (h : Ordered tef tx) :
    lead tef.tail tef.head = lead tx.tail tef.head - lead tx.tail tef.tail ∧
      lead tef.tail tef.head ≤ tx.slots := by
  obtain ⟨h1, h2, h3⟩ := h
  have hs := tx.slots_cases
  have := tef.head.toNat_lt
  have := tef.tail.toNat_lt
  have := tx.tail.toNat_lt
  simp only [lead_def] at h1 h2 h3 ⊢
  omega

theorem Ordered.getTefLen_eq {tef : TefRing} {tx : TxRing} (h : Ordered tef tx) :
    (getTefLen tef).toNat = lead tef.tail tef.head := by
  have hd := h.lead_tail_head.2
  have hs := tx.slots_cases
  rw [toNat_getTefLen]
  omega

theorem Ordered.startXmit {tef : TefRing} {tx : TxRing} (h : Ordered tef tx)
    (hf : getTxFree tx ≠ 0) : Ordered tef { tx with head := tx.head + 1 } := by
  obtain ⟨h1, h2, h3⟩ := h
  have hfree := toNat_getTxFree tx h3
  have hpos : (getTxFree tx).toNat ≠ 0 := fun h0 => hf (UInt8.toNat_inj.mp h0)
  have hs := tx.slots_cases
  have hnext : lead tx.tail (tx.head + 1) = lead tx.tail tx.head + 1 := by
    simp only [lead_def, UInt32.toNat_add, UInt32.toNat_one] at hfree hpos h3 ⊢
    omega
  refine ⟨h1, ?_, ?_⟩
  · rw [hnext]
    exact h2.trans (Nat.le_succ _)
  · rw [hnext]
    change _ ≤ tx.slots
    omega

/-- One object is handled: the TEF tail moves towards the TEF head. -/
theorem Ordered.handleTefifOne {tef : TefRing} {tx : TxRing} (h : Ordered tef tx)
    (hlt : 0 < lead tef.tail tef.head) : Ordered { tef with tail := tef.tail + 1 } tx ∧
      lead tx.tail (tef.tail + 1) = lead tx.tail tef.tail + 1 ∧
      lead (tef.tail + 1) tef.head + 1 = lead tef.tail tef.head := by
  have hd := h.lead_tail_head
  obtain ⟨h1, h2, h3⟩ := h
  have hs := tx.slots_cases
  have hnext : lead tx.tail (tef.tail + 1) = lead tx.tail tef.tail + 1 := by
    simp only [lead_def, UInt32.toNat_add, UInt32.toNat_one] at h1 h2 h3 hlt hd ⊢
    omega
  refine ⟨⟨?_, h2, h3⟩, hnext, ?_⟩
  · dsimp only
    rw [hnext]
    omega
  · have := tef.tail.toNat_lt
    have := tef.head.toNat_lt
    simp only [lead_def, UInt32.toNat_add, UInt32.toNat_one] at hlt ⊢
    omega

/-- The TX tail moves by at most what the TEF tail is ahead. -/
theorem Ordered.outNetifWakeQueue {tef : TefRing} {tx : TxRing} (h : Ordered tef tx) {n : UInt32}
    (hn : n.toNat ≤ lead tx.tail tef.tail) : Ordered tef { tx with tail := tx.tail + n } := by
  obtain ⟨h1, h2, h3⟩ := h
  have hmove : ∀ x : UInt32, n.toNat ≤ lead tx.tail x →
      lead (tx.tail + n) x = lead tx.tail x - n.toNat := by
    intro x hx
    have := x.toNat_lt
    have := tx.tail.toNat_lt
    simp only [lead_def, UInt32.toNat_add] at hx ⊢
    omega
  refine ⟨?_, ?_, ?_⟩ <;> dsimp only
  · rw [hmove _ hn, hmove _ (hn.trans h1)]
    omega
  · rw [hmove _ (hn.trans h1), hmove _ ((hn.trans h1).trans h2)]
    omega
  · rw [hmove _ ((hn.trans h1).trans h2)]
    change _ ≤ tx.slots
    omega

/-- After an update there is something to read, if anything is in flight at all. -/
theorem Ordered.tefRingUpdate_pos {tef : TefRing} {tx : TxRing} (h : Ordered tef tx) {c : UInt8}
    (hc : c < tx.objNum) (hlt : lead tx.tail tef.tail < lead tx.tail tx.head) :
    0 < lead tef.tail (tefRingUpdate tef tx c).head := by
  obtain ⟨h1, h2, h3⟩ := h
  obtain ⟨hg, hg'⟩ := gap_bounds tef.head.toNat hc
  have hnew := toNat_tefRingUpdate_head tef tx hc
  have hs := tx.slots_cases
  have := tef.head.toNat_lt
  have := tef.tail.toNat_lt
  have := tx.head.toNat_lt
  have := tx.tail.toNat_lt
  simp only [lead_def] at h1 h2 h3 hlt ⊢
  rw [hnew]
  omega

/-- The two reads are adjacent in `hw_tef_obj`. -/
theorem tefObjFill_eq (tef : TefRing) (tx : TxRing) :
    tefObjFill tef tx = (getTefLen tef).toNat := by
  have hl : getTefLinearLen tef tx ≤ getTefLen tef := by
    rw [getTefLinearLen, UInt8.le_iff_toNat_le]
    change (if _ then _ else _ : UInt8).toNat ≤ _
    split_ifs with hle
    · exact le_rfl
    · exact (UInt8.le_iff_toNat_le.not.mp hle |> Nat.lt_of_not_le).le
  simp only [tefObjFill, tefObjReads]
  split_ifs with hlt
  · have hsub := UInt8.toNat_sub_of_le _ _ hl
    simp only [List.map_cons, List.map_nil, List.foldl_cons, List.foldl_nil, hsub]
    have := UInt8.le_iff_toNat_le.mp hl
    simp only [UInt8.toNat_zero]
    omega
  · have := UInt8.le_iff_toNat_le.mp hl
    have := UInt8.lt_iff_toNat_lt.not.mp hlt
    simp only [List.map_cons, List.map_nil, List.foldl_cons, List.foldl_nil, UInt8.toNat_zero]
    omega

/-- What every state between the steps satisfies as long as no update wraps past. -/
structure TxCounterInv (s : TxCounters) : Prop where
  ordered : Ordered s.tef s.tx
  handling : ∀ {len i}, s.pc = .handling len i → i.toNat ≤ len.toNat ∧
    len.toNat - i.toNat = lead s.tef.tail s.tef.head ∧ i.toNat ≤ lead s.tx.tail s.tef.tail

theorem txCounterInv_init (tx : TxRing) : TxCounterInv (txCounters tx).init where
  ordered := by
    have h0 : lead 0 0 = 0 := by rfl
    exact ⟨le_rfl, le_rfl, h0.le.trans (Nat.zero_le _)⟩
  handling h := by cases h

private theorem startXmit_inv {s : TxCounters} (h : TxCounterInv s) (hf : getTxFree s.tx ≠ 0) :
    TxCounterInv { s with tx := { s.tx with head := s.tx.head + 1 } } :=
  ⟨h.ordered.startXmit hf, h.handling⟩

private theorem update_inv {s : TxCounters} {c : UInt8}
    (ho : Ordered (tefRingUpdate s.tef s.tx c) s.tx) :
    TxCounterInv { s with tef := tefRingUpdate s.tef s.tx c,
                          pc := .handling (getTefLen (tefRingUpdate s.tef s.tx c)) 0 } where
  ordered := ho
  handling := by
    rintro len i hpc
    cases hpc
    exact ⟨Nat.zero_le _, ho.getTefLen_eq, Nat.zero_le _⟩

private theorem handleOne_inv {s : TxCounters} (h : TxCounterInv s) {len i : UInt8}
    (hpc : s.pc = .handling len i) (hlt : i < len) :
    TxCounterInv { s with tef := { s.tef with tail := s.tef.tail + 1 },
                          pc := .handling len (i + 1) } := by
  obtain ⟨ho, hh⟩ := h
  obtain ⟨h4, h5, h6⟩ := hh hpc
  have hlt' := UInt8.lt_iff_toNat_lt.mp hlt
  have hi : (i + 1).toNat = i.toNat + 1 := by
    have := len.toNat_lt
    rw [UInt8.toNat_add, UInt8.toNat_one]
    omega
  obtain ⟨hnext, htail, hlen⟩ := ho.handleTefifOne (by omega)
  refine ⟨hnext, ?_⟩
  rintro len' i' hpc'
  cases hpc'
  dsimp only
  omega

private theorem wake_inv {s : TxCounters} (h : TxCounterInv s) {len i : UInt8}
    (hpc : s.pc = .handling len i) :
    TxCounterInv { s with tx := { s.tx with tail := s.tx.tail + i.toUInt32 }, pc := .idle } :=
  ⟨h.ordered.outNetifWakeQueue (by rw [UInt8.toNat_toUInt32]; exact (h.handling hpc).2.2),
    fun hpc' => by cases hpc'⟩

/-- One step keeps the invariant unless it is an update that wraps past. -/
theorem txCounterStep_inv {s t : TxCounters} {e : TxCounterEvent} (h : TxCounterInv s)
    (hst : txCounterStep s e = some t)
    (hw : ∀ c, e = .tefRingUpdate c → ¬ WrapsPast s.tef s.tx c) : TxCounterInv t := by
  cases e with
  | startXmit =>
    simp only [txCounterStep] at hst
    split_ifs at hst with hf <;> cases hst
    · exact h
    · exact startXmit_inv h hf
  | tefRingUpdate c =>
    simp only [txCounterStep] at hst
    split at hst
    · split_ifs at hst with hc
      cases hst
      exact update_inv ((tefRingUpdate_ordered_iff h.ordered hc).mpr (hw c rfl))
    · cases hst
  | handleTefifOne =>
    simp only [txCounterStep] at hst
    split at hst
    · rename_i hpc
      split_ifs at hst with hlt
      cases hst
      exact handleOne_inv h hpc hlt
    · cases hst
  | outNetifWakeQueue =>
    simp only [txCounterStep] at hst
    split at hst
    · rename_i hpc
      cases hst
      exact wake_inv h hpc
    · cases hst
  | handleTefifErr =>
    simp only [txCounterStep] at hst
    split at hst
    · cases hst
      exact ⟨h.ordered, fun hpc => by cases hpc⟩
    · cases hst

/-- What is wanted after every `mcp251xfd_tef_ring_update`. -/
structure UpdateOk (s : TxCounters) : Prop where
  ordered : Ordered s.tef s.tx
  tefLen : getTefLen s.tef ≤ s.tx.objNum
  fill : tefObjFill s.tef s.tx ≤ txObjNumMax.toNat

theorem updateOk_iff {s t : TxCounters} {c : UInt8} (h : TxCounterInv s)
    (hst : txCounterStep s (.tefRingUpdate c) = some t) :
    UpdateOk t ↔ ¬ WrapsPast s.tef s.tx c := by
  simp only [txCounterStep] at hst
  split at hst
  · split_ifs at hst with hc
    cases hst
    rw [← tefRingUpdate_ordered_iff h.ordered hc]
    refine ⟨fun hu => hu.ordered, fun ho => ⟨ho, ?_, ?_⟩⟩
    · rw [UInt8.le_iff_toNat_le]
      exact ho.getTefLen_eq.le.trans ho.lead_tail_head.2
    · have hs := s.tx.slots_cases
      have hmax : txObjNumMax.toNat = 8 := by decide
      have hd := ho.lead_tail_head.2
      dsimp only
      rw [tefObjFill_eq, ho.getTefLen_eq, hmax]
      omega
  · cases hst

/-- Along any run from `mcp251xfd_ring_init`, the counters are ordered and the reads stay
inside `hw_tef_obj` after every update if and only if no update wraps past the TX head. -/
theorem tefRingUpdate_run_ok_iff (tx : TxRing) (es : List TxCounterEvent) :
    (txCounters tx).Along (fun _ e t => ∀ c, e = .tefRingUpdate c → UpdateOk t)
        (txCounters tx).init es ↔
      (txCounters tx).Along (fun s e _ => ∀ c, e = .tefRingUpdate c → ¬ WrapsPast s.tef s.tx c)
        (txCounters tx).init es := by
  refine Sys.along_iff (I := TxCounterInv) ?_ txCounterStep_inv (txCounterInv_init tx) es
  intro s e t h hst
  constructor
  · rintro hu c rfl
    exact (updateOk_iff h hst).mp (hu c rfl)
  · rintro hw c rfl
    exact (updateOk_iff h hst).mpr (hw c rfl)

/-- Everything sent and completed, all four counters at `x`. -/
def quiet (tx : TxRing) (x : UInt32) : TxCounters :=
  ⟨⟨x, x⟩, { txRingInit tx with head := x, tail := x }, .idle⟩

/-- One frame: queued, sent, its event read and acknowledged. -/
def oneFrame (tx : TxRing) (x : UInt32) : List TxCounterEvent :=
  [.startXmit, .tefRingUpdate ((x + 1) &&& (tx.objNum.toUInt32 - 1)).toUInt8, .handleTefifOne,
    .outNetifWakeQueue]

private theorem toNat_nextIndex (tx : TxRing) (x : UInt32) :
    (((x + 1) &&& (tx.objNum.toUInt32 - 1)).toUInt8).toNat = (x.toNat + 1) % tx.slots := by
  have hs := tx.slots_cases
  have h := tx.pow2.toNat_and_pred (x + 1)
  have hdvd := tx.pow2.dvd_wrap
  rw [TxRing.toNat_objNum32] at h hdvd
  rw [UInt32.toNat_toUInt8, h, UInt32.toNat_add, UInt32.toNat_one, Nat.mod_mod_of_dvd _ hdvd]
  have := Nat.mod_lt (x.toNat + 1) (by omega : 0 < tx.slots)
  omega

private theorem quiet_update (tx : TxRing) (x : UInt32) :
    tefRingUpdate ⟨x, x⟩ { txRingInit tx with head := x + 1, tail := x }
      ((x + 1) &&& (tx.objNum.toUInt32 - 1)).toUInt8 = ⟨x + 1, x⟩ := by
  set r : TxRing := { txRingInit tx with head := x + 1, tail := x }
  have hs := tx.slots_cases
  have hc := toNat_nextIndex tx x
  have hlt : ((x + 1) &&& (tx.objNum.toUInt32 - 1)).toUInt8 < r.objNum := by
    rw [UInt8.lt_iff_toNat_lt, hc]
    exact Nat.mod_lt _ (by omega : 0 < tx.slots)
  have hgap : gap x.toNat ((x.toNat + 1) % tx.slots) tx.slots = 1 :=
    (gap_unique (by omega) (by omega)).trans (by omega)
  have hhead := toNat_tefRingUpdate_head ⟨x, x⟩ r hlt
  rw [hc] at hhead
  change _ = min ((x.toNat + gap x.toNat _ tx.slots) % 2 ^ 32) (x + 1).toNat at hhead
  rw [hgap, UInt32.toNat_add, UInt32.toNat_one, min_self] at hhead
  have : (tefRingUpdate ⟨x, x⟩ r ((x + 1) &&& (tx.objNum.toUInt32 - 1)).toUInt8).head = x + 1 := by
    rw [← UInt32.toNat_inj, hhead, UInt32.toNat_add, UInt32.toNat_one]
  exact congrArg (TefRing.mk · x) this

private theorem quiet_run (tx : TxRing) (x : UInt32) :
    (txCounters tx).runFrom (quiet tx x) (oneFrame tx x) = some (quiet tx (x + 1)) := by
  have hs := tx.slots_cases
  have hfree : getTxFree { txRingInit tx with head := x, tail := x } ≠ 0 := by
    intro h0
    have := toNat_getTxFree { txRingInit tx with head := x, tail := x }
      (by simp [lead])
    rw [h0] at this
    change 0 = tx.slots - (x - x).toNat at this
    rw [UInt32.sub_self] at this
    change 0 = tx.slots - 0 at this
    omega
  have hlt : ((x + 1) &&& (tx.objNum.toUInt32 - 1)).toUInt8 < tx.objNum := by
    rw [UInt8.lt_iff_toNat_lt, toNat_nextIndex]
    exact Nat.mod_lt _ (by omega : 0 < tx.slots)
  have hlen : getTefLen ⟨x + 1, x⟩ = 1 := by
    have : x + 1 - x = 1 := by rw [UInt32.add_comm, UInt32.add_sub_cancel]
    simp only [getTefLen, this]
    rfl
  have h1 : (txCounters tx).step (quiet tx x) .startXmit =
      some ⟨⟨x, x⟩, { txRingInit tx with head := x + 1, tail := x }, .idle⟩ := if_neg hfree
  have h2 : (txCounters tx).step ⟨⟨x, x⟩, { txRingInit tx with head := x + 1, tail := x }, .idle⟩
        (.tefRingUpdate ((x + 1) &&& (tx.objNum.toUInt32 - 1)).toUInt8) =
      some ⟨⟨x + 1, x⟩, { txRingInit tx with head := x + 1, tail := x }, .handling 1 0⟩ := by
    change (if _ < tx.objNum then _ else none) = _
    rw [if_pos hlt, quiet_update, hlen]
  simp only [oneFrame, Sys.runFrom, h1, h2, Option.bind_some]
  rfl

/-- Every counter value is reached, `2 ^ 32` frames and more. -/
theorem quiet_reachable (tx : TxRing) (x : UInt32) : (txCounters tx).Reachable (quiet tx x) := by
  obtain ⟨n, hn⟩ : ∃ n, x.toNat = n := ⟨_, rfl⟩
  induction n generalizing x with
  | zero =>
    have : x = 0 := UInt32.toNat_inj.mp hn
    exact this ▸ Sys.Reachable.init
  | succ n ih =>
    have hx : x = x - 1 + 1 := by rw [UInt32.sub_add_cancel]
    have hpred : (x - 1).toNat = n := by
      rw [UInt32.toNat_sub_of_le _ _ (by rw [UInt32.le_iff_toNat_le, hn]; exact Nat.succ_pos n), hn]
      rfl
    rw [hx]
    exact (ih (x - 1) hpred).run _ (quiet_run tx (x - 1))

/-- The TX ring of classic CAN mode. -/
def txRingCan : TxRing := ⟨0, 0, 0, txObjNumCan, 16, txObjNumCan_valid⟩

/-- Five frames are in flight just below the wrap-around and FIFOCI says that four are
sent, but none of their TEF entries was there yet. -/
def beforeWrap : TxCounters :=
  ⟨⟨0xfffffffe, 0xfffffffa⟩,
    { txRingInit txRingCan with head := 0xffffffff, tail := 0xfffffffa }, .idle⟩

/-- The same state after an update in which FIFOCI has not moved. -/
def afterWrap : TxCounters :=
  ⟨⟨6, 0xfffffffa⟩,
    { txRingInit txRingCan with head := 0xffffffff, tail := 0xfffffffa }, .handling 12 0⟩

theorem tefRingUpdate_overruns :
    (txCounters txRingCan).Reachable beforeWrap ∧
      (txCounters txRingCan).step beforeWrap (.tefRingUpdate 6) = some afterWrap ∧
      ¬ Ordered afterWrap.tef afterWrap.tx ∧ txRingCan.objNum < getTefLen afterWrap.tef ∧
      txObjNumMax.toNat < tefObjFill afterWrap.tef afterWrap.tx := by
  refine ⟨?_, by rfl, by decide, by decide, by decide⟩
  exact (quiet_reachable txRingCan 0xfffffffa).run
    [.startXmit, .startXmit, .startXmit, .startXmit, .startXmit, .tefRingUpdate 6,
      .outNetifWakeQueue] (by rfl)

end YoctoLayers.Mcp251xfd
