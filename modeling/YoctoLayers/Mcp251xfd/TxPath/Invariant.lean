import YoctoLayers.Mcp251xfd.TxPath.Objects

/-! The invariant of the transmit path. -/
namespace YoctoLayers.Mcp251xfd
open YoctoLayers.Lib

namespace TxPath
variable {K : DlcHelpers} {quirkCrcTx sanity : Bool}

/-- The echo slots hold the frames in flight, and completed frames are the accepted ones in
their order. -/
structure EchoSkbs (s : TxPath) : Prop where
  stored : ∀ k skb, s.frames[k]? = some skb → s.echoes.length ≤ k →
    s.drv.echoSkb (k % s.drv.tx.slots) = some skb
  put : ∀ skb txHead, s.xmit = .submit skb txHead →
    s.drv.echoSkb (s.frames.length % s.drv.tx.slots) = some skb
  empty : ∀ k, s.frames.length + s.xmit.put ≤ k → k < s.echoes.length + s.drv.tx.slots →
    s.drv.echoSkb (k % s.drv.tx.slots) = none
  log : ∀ k x, s.echoes[k]? = some x → x.idx = k % s.drv.tx.slots ∧ x.skb = s.frames[k]?
  packets : s.txPackets = s.echoes.length

theorem EchoSkbs.xmitNext {s t : TxPath} (hc : Counts s) (h : EchoSkbs s)
    (hst : s.xmitNext K quirkCrcTx = some t) : EchoSkbs t := by
  rcases s with ⟨drv, tef, txPackets, txBytes, xmit, tefif, spi, chip, frames, echoes, finished⟩
  have hle : echoes.length ≤ frames.length := hc.completed_le
  have hroom : frames.length + xmit.room + tefif.untailed ≤ echoes.length + drv.tx.slots := hc.room
  cases xmit with
  | idle => cases hst
  | freeTail skb head | recheckTail skb head | fullTail skb txHead head =>
    simp only [TxPath.xmitNext] at hst
    split_ifs at hst <;> cases hst <;> exact { h with put := by rintro _ _ ⟨⟩ }
  | freeHead skb | stop skb | recheckHead skb | start skb | load skb | advance skb txHead
  | fullHead skb txHead | stopFull skb txHead =>
    cases hst
    exact { h with put := by rintro _ _ ⟨⟩ }
  | echo skb txHead =>
    cases hst
    obtain rfl : txHead = frames.length % drv.tx.slots := hc.xmit
    have hlt : frames.length < echoes.length + drv.tx.slots := by
      change frames.length + 1 + tefif.untailed ≤ _ at hroom
      omega
    have hfree : drv.echoSkb (frames.length % drv.tx.slots) = none :=
      h.empty frames.length le_rfl hlt
    have hput : (drv.canPutEchoSkb skb (frames.length % drv.tx.slots)).echoSkb =
        Function.update drv.echoSkb (frames.length % drv.tx.slots) (some skb) := if_pos hfree
    refine { h with stored := ?_, put := ?_, empty := ?_ } <;> dsimp only
    · intro k x hk hlo
      have hklt : k < frames.length := (List.getElem?_eq_some_iff.mp hk).1
      have hne : k % drv.tx.slots ≠ frames.length % drv.tx.slots := slot_ne hklt (by omega)
      rw [hput]
      exact (Function.update_of_ne hne _ _).trans (h.stored k x hk hlo)
    · rintro x _ hx
      cases hx
      rw [hput]
      exact Function.update_self ..
    · intro k hlo hhi
      change frames.length + 1 ≤ k at hlo
      change k < echoes.length + drv.tx.slots at hhi
      have hne : k % drv.tx.slots ≠ frames.length % drv.tx.slots :=
        (slot_ne hlo (by omega)).symm
      rw [hput]
      exact (Function.update_of_ne hne _ _).trans (h.empty k (Nat.le_of_succ_le hlo) hhi)
  | submit skb txHead =>
    cases hst
    have hlen : (frames ++ [skb]).length = frames.length + 1 := by simp
    refine { h with stored := ?_, put := by rintro _ _ ⟨⟩, empty := ?_, log := ?_ } <;> dsimp only
    · intro k x hk hlo
      rcases getElem?_concat hk with hk | ⟨rfl, rfl⟩
      · exact h.stored k x hk hlo
      · exact h.put skb txHead rfl
    · rw [hlen]
      exact h.empty
    · intro k x hx
      have hk : k < echoes.length := (List.getElem?_eq_some_iff.mp hx).1
      rw [List.getElem?_append_left (by omega)]
      exact h.log k x hx

theorem EchoSkbs.getEchoSkb {s : TxPath} (hc : Counts s) (h : EchoSkbs s) {hw : List HwTefObj}
    {i : ℕ} (hlt : s.echoes.length < s.chip.events) (obj : HwTefObj) :
    EchoSkbs { s.getEchoSkb obj with tefif := .one hw (i + 1) } := by
  have hroom := hc.room
  have := hc.sent
  have := hc.written
  have := hc.spi
  have hacc : s.echoes.length < s.frames.length := by omega
  have hidx := hc.toNat_getTefTail
  have hlen : (s.getEchoSkb obj).echoes.length = s.echoes.length + 1 := by simp [TxPath.getEchoSkb]
  have hskb := h.stored _ _ (List.getElem?_eq_getElem hacc) le_rfl
  constructor <;> dsimp only
  · intro k x hk hlo
    rw [hlen] at hlo
    have hklt : k < s.frames.length := (List.getElem?_eq_some_iff.mp hk).1
    have hne : k % s.drv.tx.slots ≠ s.echoes.length % s.drv.tx.slots :=
      (slot_ne hlo (by omega)).symm
    simp only [TxPath.getEchoSkb, hidx]
    exact (Function.update_of_ne hne _ _).trans (h.stored k x hk (Nat.le_of_succ_le hlo))
  · intro x txHead hx
    have hpc : s.xmit = .submit x txHead := hx
    rw [hpc] at hroom
    simp only [XmitPc.room, XmitPc.ahead] at hroom
    have hne : s.frames.length % s.drv.tx.slots ≠ s.echoes.length % s.drv.tx.slots :=
      (slot_ne hacc (by omega)).symm
    simp only [TxPath.getEchoSkb, hidx]
    exact (Function.update_of_ne hne _ _).trans (h.put x txHead hpc)
  · intro k hlo hhi
    rw [hlen] at hhi
    simp only [TxPath.getEchoSkb, hidx]
    change k < s.echoes.length + 1 + s.drv.tx.slots at hhi
    by_cases hk : k % s.drv.tx.slots = s.echoes.length % s.drv.tx.slots
    · rw [hk]
      exact Function.update_self ..
    · have hne : k ≠ s.echoes.length + s.drv.tx.slots := by
        rintro rfl
        exact hk (Nat.add_mod_right ..)
      exact (Function.update_of_ne hk _ _).trans (h.empty k hlo (by omega))
  · intro k x hx
    rcases getElem?_concat hx with hx | ⟨rfl, rfl⟩
    · exact h.log k x hx
    · exact ⟨hidx, by
        dsimp only
        rw [hidx, hskb]
        exact (List.getElem?_eq_getElem hacc).symm⟩
  · rw [hlen]
    exact congrArg (· + 1) h.packets

theorem EchoSkbs.tefifNext {s t : TxPath} (hc : Counts s) (h : EchoSkbs s)
    (hst : s.tefifNext sanity = some t)
    (hone : ∀ hw i obj, s.tefif = .one hw i → hw[i]? = some obj → s.Matches obj →
      s.echoes.length < s.chip.events) : EchoSkbs t := by
  rcases s with ⟨drv, tef, txPackets, txBytes, xmit, tefif, spi, chip, frames, echoes, finished⟩
  cases tefif with
  | idle _ => cases hst
  | update | head _ | tail _ | freeHead | wake =>
    cases hst
    exact { h with }
  | uinc _ | checkTail | read _ _ _ | checkUinc | freeTail _ =>
    simp only [TxPath.tefifNext] at hst
    split_ifs at hst <;> cases hst <;> exact { h with }
  | one hw i =>
    simp only [TxPath.tefifNext] at hst
    split at hst
    · cases hst
      exact { h with }
    · rename_i obj hobj
      split_ifs at hst with hmatch <;> cases hst
      · exact h.getEchoSkb hc (hone hw i obj rfl hobj hmatch) obj
      · exact { h with }
      · exact { h with }

variable (K quirkCrcTx) in
/-- The invariant of the transmit path. -/
structure Inv (s : TxPath) : Prop where
  counts : Counts s
  objects : Objects K quirkCrcTx s
  tef : Tef s
  echoSkbs : EchoSkbs s

/-- A frame is only completed after its TEF object was written. -/
theorem Inv.written {s : TxPath} (h : Inv K quirkCrcTx s) {hw : List HwTefObj} {i : ℕ}
    {obj : HwTefObj} (hpc : s.tefif = .one hw i) (hobj : hw[i]? = some obj)
    (hmatch : s.Matches obj) : s.echoes.length < s.chip.events := by
  have hfin := h.counts.finished
  have hroom := h.counts.room
  have := h.counts.completed_le
  have hread := h.tef.reading
  rw [hpc] at hfin hroom hread
  simp only [TefifPc.untailed] at hfin hroom
  rw [Matches, h.counts.tefTail, seqMasked_ofNat_eq_iff] at hmatch
  have hi : s.echoes.length - i + i = s.echoes.length := by omega
  have hlt := hread.later i obj hobj (by omega) (by rwa [hi])
  rwa [hi] at hlt

/-- What `mcp251xfd_start_xmit` leaves alone; the head moves when room was found. -/
structure XmitFrame (s t : TxPath) : Prop where
  chip : t.chip = s.chip
  tefif : t.tefif = s.tefif
  echoes : t.echoes = s.echoes
  finished : t.finished = s.finished
  tef : t.tef = s.tef
  tx : t.drv.tx = s.drv.tx ∨ s.xmit.room = 1 ∧ s.xmit.ahead = 0 ∧
    t.drv.tx = { s.drv.tx with head := s.drv.tx.head + 1 }

theorem XmitFrame.slots {s t : TxPath} (h : XmitFrame s t) : t.drv.tx.slots = s.drv.tx.slots := by
  rcases h.tx with htx | ⟨-, -, htx⟩ <;> rw [htx]
  rfl

theorem xmitNext_frame {s t : TxPath} (hst : s.xmitNext K quirkCrcTx = some t) :
    XmitFrame s t := by
  rcases s with ⟨drv, tef, txPackets, txBytes, xmit, tefif, spi, chip, frames, echoes, finished⟩
  cases xmit with
  | idle => cases hst
  | freeTail _ _ | recheckTail _ _ | fullTail _ _ _ =>
    simp only [TxPath.xmitNext] at hst
    split_ifs at hst <;> cases hst <;> exact ⟨rfl, rfl, rfl, rfl, rfl, .inl rfl⟩
  | advance skb txHead =>
    cases hst
    exact ⟨rfl, rfl, rfl, rfl, rfl, .inr ⟨rfl, rfl, rfl⟩⟩
  | freeHead _ | stop _ | recheckHead _ | start _ | load _ | fullHead _ _ | stopFull _ _ | echo _ _
  | submit _ _ =>
    cases hst
    exact ⟨rfl, rfl, rfl, rfl, rfl, .inl rfl⟩

theorem Inv.xmitNext {s t : TxPath} (h : Inv K quirkCrcTx s)
    (hst : s.xmitNext K quirkCrcTx = some t) : Inv K quirkCrcTx t where
  counts := h.counts.xmitNext hst
  objects := h.objects.xmitNext h.counts hst
  tef := by
    have hf := xmitNext_frame hst
    refine h.tef.congr (by rw [hf.chip]) (by rw [hf.chip]) hf.slots ?_
    rw [hf.tefif, hf.echoes]
    exact h.tef.reading
  echoSkbs := h.echoSkbs.xmitNext h.counts hst

theorem Inv.tefifNext {s t : TxPath} (h : Inv K quirkCrcTx s)
    (hst : s.tefifNext sanity = some t) : Inv K quirkCrcTx t where
  counts := h.counts.tefifNext hst fun _ _ _ hpc hobj hm => h.written hpc hobj hm
  objects := h.objects.tefifNext h.counts hst
  tef := h.tef.tefifNext h.counts hst
  echoSkbs := h.echoSkbs.tefifNext h.counts hst fun _ _ _ hpc hobj hm => h.written hpc hobj hm

theorem Inv.transfer {s t : TxPath} (h : Inv K quirkCrcTx s) (hst : s.transfer = some t) :
    Inv K quirkCrcTx t := by
  refine ⟨h.counts.transfer hst, h.objects.transfer h.counts hst, ?_, ?_⟩
  all_goals
    simp only [TxPath.transfer] at hst
    split at hst <;> cases hst
  · exact { h.tef with }
  · exact { h.echoSkbs with }

theorem Inv.send {s t : TxPath} (h : Inv K quirkCrcTx s) (hst : s.send = some t) :
    Inv K quirkCrcTx t := by
  refine ⟨h.counts.send hst, h.objects.send h.counts hst, ?_, ?_⟩
  all_goals
    simp only [TxPath.send] at hst
    split_ifs at hst
    cases hst
  · exact { h.tef with }
  · exact { h.echoSkbs with }

theorem Inv.event {s t : TxPath} (h : Inv K quirkCrcTx s) {obj : HwTefObj}
    (hst : s.event obj = some t) : Inv K quirkCrcTx t := by
  refine ⟨h.counts.event hst, h.objects.event h.counts hst, h.tef.event h.counts h.objects hst, ?_⟩
  simp only [TxPath.event] at hst
  split at hst
  · cases hst
  · split_ifs at hst <;> cases hst <;> exact { h.echoSkbs with }

theorem inv_init (tx : TxRing) (obj : ℕ → TxObj) : Inv K quirkCrcTx (TxPath.init tx obj) where
  counts :=
    { head := rfl, tail := rfl, tefTail := rfl, chipTail := rfl, finished := le_rfl
      room := Nat.zero_le _, events := le_rfl, sent := rfl, written := le_rfl, spi := rfl
      ovif := rfl, xmit := trivial, fresh := False.elim, tefif := trivial }
  objects :=
    { obj := nofun, loaded := nofun, spi := nofun
      txRam := fun _ _ h => absurd h (Nat.not_lt_zero _), pending := nofun }
  tef := { written := fun _ h => absurd h (Nat.not_lt_zero _), zero := fun _ _ _ => rfl
           reading := trivial }
  echoSkbs :=
    { stored := nofun, put := nofun, empty := fun _ _ _ => rfl, log := nofun, packets := rfl }

theorem Inv.startXmit {s t : TxPath} (h : Inv K quirkCrcTx s) {skb : Skb}
    (hst : TxPath.step K quirkCrcTx sanity s (.startXmit skb) = some t) : Inv K quirkCrcTx t := by
  rcases s with ⟨drv, tef, txPackets, txBytes, xmit, tefif, spi, chip, frames, echoes, finished⟩
  obtain ⟨hc, ho, ht, he⟩ := h
  cases xmit with
  | idle =>
    cases hst
    exact ⟨{ hc with xmit := trivial }, { ho with loaded := nofun }, { ht with },
      { he with put := nofun }⟩
  | _ => cases hst

/-- TEFIF is pending while the TEF holds an object, which the driver has not counted. -/
theorem Inv.handleTefif {s t : TxPath} (h : Inv K quirkCrcTx s)
    (hst : TxPath.step K quirkCrcTx sanity s .handleTefif = some t) : Inv K quirkCrcTx t := by
  rcases s with ⟨drv, tef, txPackets, txBytes, xmit, tefif, spi, chip, frames, echoes, finished⟩
  obtain ⟨hc, ho, ht, he⟩ := h
  cases tefif with
  | idle err =>
    simp only [TxPath.step] at hst
    split_ifs at hst with hif
    cases hst
    have hchip : chip.tefTail = echoes.length := hc.chipTail
    exact ⟨{ hc with fresh := fun _ => hchip ▸ hif.2, tefif := trivial }, { ho with },
      { ht with reading := trivial }, { he with }⟩
  | _ => cases hst

theorem inv_step {s t : TxPath} {e : TxPathEvent} (h : Inv K quirkCrcTx s)
    (hst : TxPath.step K quirkCrcTx sanity s e = some t) : Inv K quirkCrcTx t := by
  cases e with
  | startXmit skb => exact h.startXmit hst
  | xmit => exact h.xmitNext hst
  | handleTefif => exact h.handleTefif hst
  | tefif => exact h.tefifNext hst
  | transfer => exact h.transfer hst
  | send => exact h.send hst
  | event obj => exact h.event hst

theorem inv_invariant (tx : TxRing) (obj : ℕ → TxObj) :
    (txPath K quirkCrcTx sanity tx obj).Invariant (Inv K quirkCrcTx) :=
  ⟨inv_init tx obj, inv_step⟩

end TxPath
end YoctoLayers.Mcp251xfd
