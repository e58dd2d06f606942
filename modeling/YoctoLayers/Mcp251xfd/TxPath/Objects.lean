import YoctoLayers.Lib.Log
import YoctoLayers.Mcp251xfd.TxPath.Counts

/-! The TX objects on their way from the load buffers through the controller to the TEF, and
what `mcp251xfd_handle_tefif` reads there. -/
namespace YoctoLayers.Mcp251xfd
open YoctoLayers.Lib

/-- The flags word carries the low seven bits of sequence number `k`. -/
def SeqIs (flags : UInt32) (k : ℕ) : Prop :=
  (objFlagsSeqMcp2518fd.get flags).toNat % 128 = k % 128

theorem toNat_seqMasked (seq : UInt32) : (seqMasked seq).toNat = seq.toNat % 128 := by
  have hlow : objFlagsSeqMcp2517fd.low = 127 := by decide
  rw [seqMasked, hlow, UInt32.toNat_and]
  exact Nat.and_two_pow_sub_one_eq_mod seq.toNat 7

theorem seqMasked_ofNat_eq_iff {flags : UInt32} {k : ℕ} :
    seqMasked (objFlagsSeqMcp2518fd.get flags) = seqMasked (UInt32.ofNat k) ↔ SeqIs flags k := by
  rw [← UInt32.toNat_inj, toNat_seqMasked, toNat_seqMasked, UInt32.toNat_ofNat',
    Nat.mod_mod_of_dvd _ (by decide), SeqIs]

/-- The object `mcp251xfd_tx_obj_from_skb` makes of the frame with number `k`. -/
def IsTxObj (K : DlcHelpers) (quirkCrcTx : Bool) (obj : TxObj) (skb : Skb) (k : ℕ) : Prop :=
  ∃ old, obj = K.txObjFromSkb quirkCrcTx old skb (UInt32.ofNat k)

theorem IsTxObj.seqIs {K : DlcHelpers} {quirkCrcTx : Bool} {obj : TxObj} {skb : Skb} {k : ℕ}
    (h : IsTxObj K quirkCrcTx obj skb k) : SeqIs obj.hwTxObj.flags k := by
  obtain ⟨old, rfl⟩ := h
  have hlow : objFlagsSeqMcp2518fd.low = 8388607 := by decide
  rw [DlcHelpers.hwTxObj_txObjFromSkb, SeqIs, DlcHelpers.hwTxObj, txObjFlags_seq, hlow,
    UInt32.toNat_and, UInt32.toNat_ofNat']
  change ((k % 2 ^ 32) &&& (2 ^ 23 - 1)) % 128 = _
  rw [Nat.and_two_pow_sub_one_eq_mod, Nat.mod_mod_of_dvd _ (by decide),
    Nat.mod_mod_of_dvd _ (by decide)]

/-- The objects read from the TEF, from that of frame `base` on: the first one was there, and
one that has the right sequence number was there. -/
structure Reads (slots events base : ℕ) (hw : List HwTefObj) : Prop where
  first : ∀ obj, hw[0]? = some obj → SeqIs obj.flags base
  later : ∀ j obj, hw[j]? = some obj → j ≤ slots → SeqIs obj.flags (base + j) → base + j < events

def TefifPc.Reading (pc : TefifPc) (slots events completed : ℕ) : Prop :=
  match pc with
  | .read len l hw => l = min len (slots - completed % slots) ∧ Reads slots events completed hw
  | .one hw i => Reads slots events (completed - i) hw
  | _ => True

theorem Reads.mono {slots events base : ℕ} {hw : List HwTefObj} (h : Reads slots events base hw) :
    Reads slots (events + 1) base hw :=
  ⟨h.first, fun j obj hj hle hs => (h.later j obj hj hle hs).trans (Nat.lt_succ_self _)⟩

theorem TefifPc.Reading.mono {pc : TefifPc} {slots events completed : ℕ}
    (h : pc.Reading slots events completed) : pc.Reading slots (events + 1) completed := by
  cases pc with
  | read len l hw => exact ⟨h.1, h.2.mono⟩
  | one hw i => exact Reads.mono h
  | _ => trivial

namespace XmitPc

/-- The frame that is in the load buffer but not yet accepted. -/
def loaded : XmitPc → Option Skb
  | .advance skb _ | .fullHead skb _ | .fullTail skb _ _ | .stopFull skb _ | .echo skb _
  | .submit skb _ => some skb
  | _ => none

/-- The echo skb of the frame is stored. -/
def put : XmitPc → ℕ
  | .submit _ _ => 1
  | _ => 0

end XmitPc

namespace TxPath

variable {K : DlcHelpers} {quirkCrcTx sanity : Bool}

/-- Which object is where, from the load buffers to the TEF. -/
structure Objects (K : DlcHelpers) (quirkCrcTx : Bool) (s : TxPath) : Prop where
  obj : ∀ k skb, s.frames[k]? = some skb → s.echoes.length ≤ k + s.tefif.untailed →
    IsTxObj K quirkCrcTx (s.drv.obj (k % s.drv.tx.slots)) skb k
  loaded : ∀ skb, s.xmit.loaded = some skb →
    IsTxObj K quirkCrcTx (s.drv.obj (s.frames.length % s.drv.tx.slots)) skb s.frames.length
  spi : ∀ j slot, s.spi[j]? = some slot → slot = (s.chip.written + j) % s.drv.tx.slots
  txRam : ∀ k, s.chip.sent ≤ k → k < s.chip.written →
    SeqIs (s.chip.txRam (k % s.drv.tx.slots)).flags k
  pending : ∀ j obj, s.chip.pending[j]? = some obj → SeqIs obj.flags (s.chip.events + j)

theorem Objects.xmitNext {s t : TxPath} (hc : Counts s) (h : Objects K quirkCrcTx s)
    (hst : s.xmitNext K quirkCrcTx = some t) : Objects K quirkCrcTx t := by
  rcases s with ⟨drv, tef, txPackets, txBytes, xmit, tefif, spi, chip, frames, echoes, finished⟩
  cases xmit with
  | idle => cases hst
  | freeTail skb head | recheckTail skb head =>
    simp only [TxPath.xmitNext] at hst
    split_ifs at hst <;> cases hst <;> exact { h with loaded := by rintro _ ⟨⟩ }
  | freeHead skb | stop skb | recheckHead skb | start skb =>
    cases hst
    exact { h with loaded := by rintro _ ⟨⟩ }
  | load skb =>
    cases hst
    have hidx : (getTxHead drv.tx).toNat = frames.length % drv.tx.slots := hc.toNat_getTxHead
    have hhead : drv.tx.head = UInt32.ofNat frames.length := hc.head
    have hroom : frames.length + 1 + tefif.untailed ≤ echoes.length + drv.tx.slots := hc.room
    refine { h with obj := ?_, loaded := ?_ }
    · intro k skb' hk hle
      have hlt : k < frames.length := (List.getElem?_eq_some_iff.mp hk).1
      have hne : k % drv.tx.slots ≠ (getTxHead drv.tx).toNat := by
        rw [hidx]
        exact slot_ne hlt (by change echoes.length ≤ k + tefif.untailed at hle; omega)
      dsimp only
      rw [Function.update_of_ne hne]
      exact h.obj k skb' hk hle
    · intro skb' h0
      cases h0
      dsimp only
      rw [← hidx, Function.update_self, hhead]
      exact ⟨_, rfl⟩
  | fullTail skb txHead head =>
    simp only [TxPath.xmitNext] at hst
    split_ifs at hst <;> cases hst <;> exact { h with loaded := h.loaded }
  | advance skb txHead | fullHead skb txHead | stopFull skb txHead | echo skb txHead =>
    cases hst
    exact { h with loaded := h.loaded }
  | submit skb txHead =>
    cases hst
    have hidx : txHead = frames.length % drv.tx.slots := hc.xmit
    have hlen : chip.written + spi.length = frames.length := hc.spi
    refine { h with obj := ?_, loaded := by rintro _ ⟨⟩, spi := ?_ }
    · intro k skb' hk hle
      rcases getElem?_concat hk with hk | ⟨rfl, rfl⟩
      · exact h.obj k skb' hk hle
      · exact h.loaded skb rfl
    · intro j slot hj
      rcases getElem?_concat hj with hj | ⟨rfl, rfl⟩
      · exact h.spi j slot hj
      · exact hidx.trans (congrArg (· % drv.tx.slots) hlen.symm)

/-- What `mcp251xfd_handle_tefif` leaves alone; `tx.tail` only grows. -/
structure TefifFrame (s t : TxPath) : Prop where
  obj : t.drv.obj = s.drv.obj
  slots : t.drv.tx.slots = s.drv.tx.slots
  head : t.drv.tx.head = s.drv.tx.head
  xmit : t.xmit = s.xmit
  spi : t.spi = s.spi
  frames : t.frames = s.frames
  chip : t.chip = { s.chip with tefTail := t.chip.tefTail }
  tail : ∀ k, t.echoes.length ≤ k + t.tefif.untailed → s.echoes.length ≤ k + s.tefif.untailed

theorem tefifNext_frame {s t : TxPath} (hov : s.chip.tefovif = false)
    (hst : s.tefifNext sanity = some t) : TefifFrame s t := by
  rcases s with ⟨drv, tef, txPackets, txBytes, xmit, tefif, spi, chip, frames, echoes, finished⟩
  cases tefif with
  | idle _ => cases hst
  | update | head _ | freeHead =>
    cases hst
    exact ⟨rfl, rfl, rfl, rfl, rfl, rfl, rfl, fun _ hk => hk⟩
  | checkTail | read _ _ _ | checkUinc | freeTail _ =>
    simp only [TxPath.tefifNext] at hst
    split_ifs at hst <;> cases hst
    all_goals exact ⟨rfl, rfl, rfl, rfl, rfl, rfl, rfl, fun _ hk => hk⟩
  | one hw i =>
    simp only [TxPath.tefifNext] at hst
    split at hst
    · cases hst
      exact ⟨rfl, rfl, rfl, rfl, rfl, rfl, rfl, fun _ hk => hk⟩
    · split_ifs at hst with hmatch hover
      · cases hst
        refine ⟨rfl, rfl, rfl, rfl, rfl, rfl, rfl, fun k hk => ?_⟩
        simp only [getEchoSkb, List.length_append, List.length_singleton, TefifPc.untailed] at hk
        change echoes.length ≤ k + i
        omega
      · exact absurd hov (by rw [hover]; decide)
      · cases hst
        exact ⟨rfl, rfl, rfl, rfl, rfl, rfl, rfl, fun _ hk => hk⟩
  | uinc len =>
    simp only [TxPath.tefifNext] at hst
    split_ifs at hst with h0 <;> cases hst
    · subst h0
      exact ⟨rfl, rfl, rfl, rfl, rfl, rfl, rfl, fun _ hk => hk⟩
    · exact ⟨rfl, rfl, rfl, rfl, rfl, rfl, rfl, fun _ hk => hk⟩
  | tail len =>
    cases hst
    exact ⟨rfl, rfl, rfl, rfl, rfl, rfl, rfl, fun _ hk => hk.trans (Nat.le_add_right _ _)⟩
  | wake =>
    cases hst
    exact ⟨rfl, rfl, rfl, rfl, rfl, rfl, rfl, fun _ hk => hk⟩

theorem Objects.tefifNext {s t : TxPath} (hc : Counts s) (h : Objects K quirkCrcTx s)
    (hst : s.tefifNext sanity = some t) : Objects K quirkCrcTx t := by
  obtain ⟨hobj, hslots, -, hxmit, hspi, hframes, hchip, htail⟩ := tefifNext_frame hc.ovif hst
  obtain ⟨h1, h2, h3, h4, h5⟩ := h
  constructor
  · rw [hobj, hslots, hframes]
    exact fun k skb hk hle => h1 k skb hk (htail k hle)
  · rwa [hobj, hslots, hframes, hxmit]
  · rwa [hchip, hspi, hslots]
  · rwa [hchip, hslots]
  · rwa [hchip]

theorem Objects.transfer {s t : TxPath} (hc : Counts s) (h : Objects K quirkCrcTx s)
    (hst : s.transfer = some t) : Objects K quirkCrcTx t := by
  simp only [TxPath.transfer] at hst
  split at hst
  · cases hst
  · rename_i slot rest hspi
    cases hst
    have hslot : slot = s.chip.written % s.drv.tx.slots := h.spi 0 slot (by rw [hspi]; rfl)
    refine { h with spi := ?_, txRam := ?_ }
    · intro j x hj
      have := h.spi (j + 1) x (by rw [hspi]; exact hj)
      rw [this]
      exact congrArg (· % s.drv.tx.slots) (by dsimp only; omega)
    · intro k hlo hhi
      have hlen := hc.spi
      have := hc.events
      have := hc.sent
      have := hc.room
      rw [hspi, List.length_cons] at hlen
      dsimp only at hlo hhi ⊢
      rcases Nat.lt_or_ge k s.chip.written with hlt | hge
      · have hne : k % s.drv.tx.slots ≠ slot := by
          rw [hslot]
          exact slot_ne hlt (by omega)
        rw [Function.update_of_ne hne]
        exact h.txRam k hlo hlt
      · obtain rfl : k = s.chip.written := by omega
        have hlt : s.chip.written < s.frames.length := by omega
        rw [hslot, Function.update_self]
        exact (h.obj _ _ (List.getElem?_eq_getElem hlt) (by omega)).seqIs

theorem Objects.send {s t : TxPath} (hc : Counts s) (h : Objects K quirkCrcTx s)
    (hst : s.send = some t) : Objects K quirkCrcTx t := by
  simp only [TxPath.send] at hst
  split_ifs at hst with hlt
  cases hst
  refine { h with txRam := fun k hlo => h.txRam k (Nat.le_of_succ_le hlo), pending := ?_ }
  intro j obj hj
  rcases getElem?_concat hj with hj | ⟨rfl, rfl⟩
  · exact h.pending j obj hj
  · dsimp only
    rw [hc.sent]
    exact h.txRam s.chip.sent le_rfl hlt

theorem Objects.event {s t : TxPath} (hc : Counts s) (h : Objects K quirkCrcTx s) {obj : HwTefObj}
    (hst : s.event obj = some t) : Objects K quirkCrcTx t := by
  simp only [TxPath.event] at hst
  split at hst
  · cases hst
  · rename_i hw rest hp
    rw [if_pos (hc.tef_room hp)] at hst
    split_ifs at hst
    cases hst
    refine { h with pending := fun j x hj => ?_ }
    have hseq := h.pending (j + 1) x (by rw [hp]; exact hj)
    rwa [show s.chip.events + (j + 1) = s.chip.events + 1 + j by omega] at hseq

/-- What the TEF holds: the last lap of objects, and zeros where none was written. -/
structure Tef (s : TxPath) : Prop where
  written : ∀ k, k < s.chip.events → s.chip.events ≤ k + s.drv.tx.slots →
    SeqIs (s.chip.tefRam (k % s.drv.tx.slots)).flags k
  zero : ∀ j, s.chip.events ≤ j → j < s.drv.tx.slots → s.chip.tefRam j = ⟨0, 0, 0⟩
  reading : s.tefif.Reading s.drv.tx.slots s.chip.events s.echoes.length

theorem Tef.congr {s t : TxPath} (h : Tef s) (hram : t.chip.tefRam = s.chip.tefRam)
    (hevents : t.chip.events = s.chip.events) (hslots : t.drv.tx.slots = s.drv.tx.slots)
    (hread : t.tefif.Reading s.drv.tx.slots s.chip.events t.echoes.length) : Tef t := by
  obtain ⟨h1, h2, -⟩ := h
  constructor
  · rwa [hram, hevents, hslots]
  · rwa [hram, hevents, hslots]
  · rwa [hevents, hslots]

/-- A slot that is read too early holds an older object or zeros, and does not match. -/
theorem Tef.lt_of_seqIs {s : TxPath} (hc : Counts s) (h : Tef s) (hf : s.tefif.Fresh) {j : ℕ}
    (hj : j ≤ s.drv.tx.slots)
    (hseq : SeqIs (s.chip.tefRam ((s.echoes.length + j) % s.drv.tx.slots)).flags
      (s.echoes.length + j)) : s.echoes.length + j < s.chip.events := by
  have hs := s.drv.tx.slots_cases
  have hlt := hc.fresh hf
  by_contra hge
  rcases Nat.lt_or_ge (s.echoes.length + j) s.drv.tx.slots with hlow | hhigh
  · rw [Nat.mod_eq_of_lt hlow, h.zero _ (Nat.not_lt.mp hge) hlow] at hseq
    have h0 : (objFlagsSeqMcp2518fd.get 0).toNat = 0 := by decide
    rw [SeqIs, h0] at hseq
    omega
  · have hold := h.written (s.echoes.length + j - s.drv.tx.slots) (by omega) (by omega)
    have hmod : (s.echoes.length + j - s.drv.tx.slots) % s.drv.tx.slots =
        (s.echoes.length + j) % s.drv.tx.slots := (Nat.mod_eq_sub_mod hhigh).symm
    rw [hmod] at hold
    have := hold.symm.trans hseq
    omega

theorem Tef.reads_append {s : TxPath} (hc : Counts s) (h : Tef s) (hf : s.tefif.Fresh)
    (hu : s.tefif.untailed = 0) {hw : List HwTefObj}
    (hr : Reads s.drv.tx.slots s.chip.events s.echoes.length hw) {obj : HwTefObj}
    (hobj : hw.length ≤ s.drv.tx.slots →
      obj = s.chip.tefRam ((s.echoes.length + hw.length) % s.drv.tx.slots)) :
    Reads s.drv.tx.slots s.chip.events s.echoes.length (hw ++ [obj]) := by
  constructor
  · intro x hx
    rcases getElem?_concat hx with hx | ⟨h0, rfl⟩
    · exact hr.first x hx
    · have hlt := hc.fresh hf
      have hroom := hc.room
      have := hc.sent
      have := hc.written
      have := hc.spi
      rw [hu] at hroom
      rw [hobj (by omega), ← h0]
      exact h.written _ hlt (by omega)
  · intro j x hx hj hseq
    rcases getElem?_concat hx with hx | ⟨rfl, rfl⟩
    · exact hr.later j x hx hj hseq
    · rw [hobj hj] at hseq
      exact h.lt_of_seqIs hc hf hj hseq

theorem Tef.event {s t : TxPath} (hc : Counts s) (ho : Objects K quirkCrcTx s) (h : Tef s)
    {obj : HwTefObj} (hst : s.event obj = some t) : Tef t := by
  simp only [TxPath.event] at hst
  split at hst
  · cases hst
  · rename_i hw rest hp
    rw [if_pos (hc.tef_room hp)] at hst
    split_ifs at hst with hmatch
    cases hst
    have hs := s.drv.tx.slots_cases
    have hseq : SeqIs obj.flags s.chip.events := by
      have hhw : SeqIs hw.flags (s.chip.events + 0) := ho.pending 0 hw (by rw [hp]; rfl)
      have hmask := congrArg UInt32.toNat hmatch.2
      rw [toNat_seqMasked, toNat_seqMasked] at hmask
      exact hmask.trans hhw
    refine ⟨fun k hlt hge => ?_, fun j hle hlt => ?_, h.reading.mono⟩
    · dsimp only at hlt hge ⊢
      rcases Nat.lt_or_ge k s.chip.events with hk | hk
      · rw [Function.update_of_ne (slot_ne hk (by omega))]
        exact h.written k hk (by omega)
      · obtain rfl : k = s.chip.events := by omega
        rw [Function.update_self]
        exact hseq
    · dsimp only at hle hlt ⊢
      have hne : j ≠ s.chip.events % s.drv.tx.slots := by
        rw [Nat.mod_eq_of_lt (by omega)]
        omega
      rw [Function.update_of_ne hne]
      exact h.zero j (by omega) hlt

theorem Tef.tefifNext {s t : TxPath} (hc : Counts s) (h : Tef s)
    (hst : s.tefifNext sanity = some t) : Tef t := by
  have hframe := tefifNext_frame hc.ovif hst
  refine h.congr (by rw [hframe.chip]) (by rw [hframe.chip]) hframe.slots ?_
  rcases s with ⟨drv, tef, txPackets, txBytes, xmit, tefif, spi, chip, frames, echoes, finished⟩
  have htail : (getTefTail tef drv.tx).toNat = echoes.length % drv.tx.slots := hc.toNat_getTefTail
  cases tefif with
  | idle _ => cases hst
  | update | head _ | tail _ | freeHead | wake =>
    cases hst
    trivial
  | uinc _ | checkUinc | freeTail _ =>
    simp only [TxPath.tefifNext] at hst
    split_ifs at hst <;> cases hst <;> trivial
  | checkTail =>
    simp only [TxPath.tefifNext] at hst
    split_ifs at hst <;> cases hst <;> try trivial
    refine ⟨?_, by rintro _ ⟨⟩, by rintro _ _ ⟨⟩⟩
    rw [toNat_getTefLinearLen, htail]
  | read len l hw =>
    obtain ⟨hl, hr⟩ := h.reading
    simp only [TxPath.tefifNext] at hst
    change l = min len (drv.tx.slots - echoes.length % drv.tx.slots) at hl
    have hs := drv.tx.slots_cases
    have hmod := Nat.mod_lt echoes.length (by omega : 0 < drv.tx.slots)
    split_ifs at hst with h1 h2 h3 <;> cases hst
    · refine ⟨hl, h.reads_append hc trivial rfl hr fun _ => ?_⟩
      dsimp only
      rw [htail, slot_add_near (by omega)]
    · trivial
    · refine ⟨hl, h.reads_append hc trivial rfl hr fun hle => ?_⟩
      dsimp only at hle ⊢
      rw [slot_add_far (by omega) (by omega)]
      exact congrArg chip.tefRam (by omega)
    · exact hr
  | one hw i =>
    have hr : Reads drv.tx.slots chip.events (echoes.length - i) hw := h.reading
    simp only [TxPath.tefifNext] at hst
    split at hst
    · cases hst
      trivial
    · split_ifs at hst <;> cases hst <;> try trivial
      change Reads drv.tx.slots chip.events ((echoes ++ [_]).length - (i + 1)) hw
      rwa [List.length_append, List.length_singleton, Nat.add_sub_add_right]

end TxPath
end YoctoLayers.Mcp251xfd
