import YoctoLayers.Mcp251xfd.TxPath.Invariant

/-! The transmit queue is never stopped for good: while it is stopped, a call of
`mcp251xfd_handle_tefif` is still to come back or to come. -/
namespace YoctoLayers.Mcp251xfd
open YoctoLayers.Lib
namespace TxPath
variable {K : DlcHelpers} {quirkCrcTx sanity : Bool}

/-- No call of `mcp251xfd_handle_tefif` has returned an error. -/
def Healthy (s : TxPath) : Prop := ∀ err, s.tefif = .idle err → err = 0

/-- While the queue is stopped and `mcp251xfd_start_xmit` is not running, some accepted frame
has not been finished by a call of `mcp251xfd_handle_tefif`. -/
structure WakeDue (s : TxPath) : Prop where
  returned : ∀ err, s.tefif = .idle err → s.finished = s.echoes.length
  due : s.Healthy → s.drv.stopped = true → s.xmit = .idle → s.finished < s.frames.length

theorem WakeDue.xmitNext {s t : TxPath} (hc : Counts s) (h : WakeDue s)
    (hst : s.xmitNext K quirkCrcTx = some t) : WakeDue t := by
  rcases s with ⟨drv, tef, txPackets, txBytes, xmit, tefif, spi, chip, frames, echoes, finished⟩
  have hfin : finished + tefif.untailed ≤ echoes.length := hc.finished
  have hle : echoes.length ≤ frames.length := hc.completed_le
  cases xmit with
  | idle => cases hst
  | recheckTail skb head =>
    obtain rfl : head = drv.tx.head := hc.xmit
    have hs := drv.tx.slots_cases
    have hfree := hc.getTxFree_eq
    simp only [XmitPc.ahead] at hfree
    simp only [TxPath.xmitNext] at hst
    split_ifs at hst with h0 <;> cases hst
    · refine ⟨h.returned, fun _ _ _ => ?_⟩
      have hzero : (getTxFree drv.tx).toNat = 0 := congrArg UInt8.toNat h0
      dsimp only at hfree ⊢
      omega
    · exact ⟨h.returned, by rintro _ _ ⟨⟩⟩
  | submit skb txHead =>
    cases hst
    refine ⟨h.returned, fun _ _ _ => ?_⟩
    simp only [List.length_append, List.length_singleton]
    omega
  | freeTail skb head | fullTail skb txHead head =>
    simp only [TxPath.xmitNext] at hst
    split_ifs at hst <;> cases hst <;> exact ⟨h.returned, by rintro _ _ ⟨⟩⟩
  | freeHead skb | stop skb | recheckHead skb | start skb | load skb | advance skb txHead
  | fullHead skb txHead | stopFull skb txHead | echo skb txHead =>
    cases hst
    exact ⟨h.returned, by rintro _ _ ⟨⟩⟩

theorem WakeDue.tefifNext {s t : TxPath} (hc : Counts s) (h : WakeDue s)
    (hst : s.tefifNext sanity = some t) : WakeDue t := by
  rcases s with ⟨drv, tef, txPackets, txBytes, xmit, tefif, spi, chip, frames, echoes, finished⟩
  have hret : ∀ {s : TxPath} {err}, err ≠ 0 → WakeDue (s.ret err) := fun hne =>
    ⟨fun _ _ => rfl, fun hok => absurd (hok _ rfl) hne⟩
  cases tefif with
  | idle _ => cases hst
  | update | head _ | tail _ | freeHead =>
    cases hst
    exact ⟨by rintro err ⟨⟩, fun _ => h.due (by rintro err ⟨⟩)⟩
  | uinc len =>
    simp only [TxPath.tefifNext] at hst
    split_ifs at hst <;> cases hst <;> exact ⟨by rintro err ⟨⟩, fun _ => h.due (by rintro err ⟨⟩)⟩
  | checkTail | read _ _ _ | checkUinc =>
    simp only [TxPath.tefifNext] at hst
    split_ifs at hst <;> cases hst <;>
      first | exact hret (by decide) | exact ⟨by rintro err ⟨⟩, fun _ => h.due (by rintro err ⟨⟩)⟩
  | one hw i =>
    simp only [TxPath.tefifNext] at hst
    split at hst
    · cases hst
      exact ⟨by rintro err ⟨⟩, fun _ => h.due (by rintro err ⟨⟩)⟩
    · split_ifs at hst <;> cases hst <;>
        first | exact hret (by decide) | exact ⟨by rintro err ⟨⟩, fun _ => h.due (by rintro err ⟨⟩)⟩
  | freeTail head =>
    simp only [TxPath.tefifNext] at hst
    split_ifs at hst with h0 <;> cases hst
    · -- no space was seen: all slots are taken by frames that are not completed
      refine ⟨fun _ _ => rfl, fun _ _ hidle => ?_⟩
      obtain ⟨m, rfl, hlo, hhi, hm⟩ : ∃ m, head = UInt32.ofNat m ∧ echoes.length ≤ m ∧
        m ≤ echoes.length + drv.tx.slots ∧ m ≤ frames.length + xmit.ahead := hc.tefif
      have hs := drv.tx.slots_cases
      have htail : drv.tx.tail = UInt32.ofNat echoes.length := hc.tail
      have hfree := @getTxFree_ofNat { drv.tx with head := UInt32.ofNat m } _ _ htail rfl hlo hhi
      rw [h0] at hfree
      obtain rfl : xmit = .idle := hidle
      change 0 = echoes.length + drv.tx.slots - m at hfree
      change m ≤ frames.length + 0 at hm
      change echoes.length < frames.length
      omega
    · exact ⟨by rintro err ⟨⟩, fun _ => h.due (by rintro err ⟨⟩)⟩
  | wake =>
    cases hst
    exact ⟨fun _ _ => rfl, fun _ hstop => absurd hstop Bool.false_ne_true⟩

theorem wakeDue_init (tx : TxRing) (obj : ℕ → TxObj) : WakeDue (TxPath.init tx obj) :=
  ⟨fun _ _ => rfl, fun _ hstop => absurd hstop Bool.false_ne_true⟩

theorem wakeDue_step {s t : TxPath} {e : TxPathEvent} (hi : Inv K quirkCrcTx s) (h : WakeDue s)
    (hst : TxPath.step K quirkCrcTx sanity s e = some t) : WakeDue t := by
  cases e with
  | startXmit skb =>
    simp only [TxPath.step] at hst
    split at hst <;> cases hst
    exact ⟨h.returned, by rintro _ _ ⟨⟩⟩
  | xmit => exact h.xmitNext hi.counts hst
  | handleTefif =>
    simp only [TxPath.step] at hst
    split at hst
    · rename_i err hpc
      split_ifs at hst with hif
      cases hst
      refine ⟨by rintro err ⟨⟩, fun _ => h.due fun err' h' => ?_⟩
      rw [hpc] at h'
      cases h'
      exact hif.1
    · cases hst
  | tefif => exact h.tefifNext hi.counts hst
  | transfer =>
    simp only [TxPath.step, TxPath.transfer] at hst
    split at hst <;> cases hst
    exact { h with }
  | send =>
    simp only [TxPath.step, TxPath.send] at hst
    split_ifs at hst
    cases hst
    exact { h with }
  | event obj =>
    simp only [TxPath.step, TxPath.event] at hst
    split at hst
    · cases hst
    · split_ifs at hst <;> cases hst <;> exact { h with }

theorem wakeDue_invariant (tx : TxRing) (obj : ℕ → TxObj) :
    (txPath K quirkCrcTx sanity tx obj).Invariant fun s => Inv K quirkCrcTx s ∧ WakeDue s :=
  ⟨⟨inv_init tx obj, wakeDue_init tx obj⟩,
    fun h hst => ⟨inv_step h.1 hst, wakeDue_step h.1 h.2 hst⟩⟩

end TxPath

/-- While the queue is stopped and `mcp251xfd_start_xmit` is not running, the completion of an
accepted frame is outstanding; and every frame in flight owns its TX object and its echo slot. -/
theorem txPath_queue (K : DlcHelpers) (quirkCrcTx sanity : Bool) (tx : TxRing) (obj : ℕ → TxObj)
    {s : TxPath} (hs : (txPath K quirkCrcTx sanity tx obj).Reachable s) (hok : s.Healthy) :
    (s.drv.stopped = true → s.xmit = .idle → s.finished < s.frames.length ∧
      ((∃ err, s.tefif = .idle err) → s.echoes.length < s.frames.length)) ∧
    ∀ k skb, s.frames[k]? = some skb → s.echoes.length ≤ k →
      IsTxObj K quirkCrcTx (s.drv.obj (k % s.drv.tx.slots)) skb k ∧
        s.drv.echoSkb (k % s.drv.tx.slots) = some skb := by
  obtain ⟨hi, hw⟩ := (TxPath.wakeDue_invariant tx obj).reachable hs
  constructor
  · intro hstop hidle
    have hdue := hw.due hok hstop hidle
    refine ⟨hdue, ?_⟩
    rintro ⟨err, hpc⟩
    rwa [hw.returned err hpc] at hdue
  · intro k skb hk hle
    exact ⟨hi.objects.obj k skb hk (by omega), hi.echoSkbs.stored k skb hk hle⟩

/-- `mcp251xfd_start_xmit` from beginning to end. -/
def xmitOne (skb : Skb) : List TxPathEvent := .startXmit skb :: List.replicate 8 .xmit

/-- Eight frames, the last of which stops the queue. -/
def fillRing : List TxPathEvent :=
  ((List.range 7).flatMap fun n => xmitOne (zeroFrame (UInt8.ofNat n))) ++
    .startXmit (zeroFrame 7) :: List.replicate 9 .xmit

/-- The controller sends three frames, and `mcp251xfd_handle_tefif` is about to wake the queue for
them. -/
def completeThree : List TxPathEvent :=
  List.replicate 3 .transfer ++ List.replicate 3 .send ++
    [.event ⟨0x123, 0, 7⟩, .event ⟨0x123, objFlagsSeqMcp2518fd.prep 1, 8⟩,
      .event ⟨0x123, objFlagsSeqMcp2518fd.prep 2, 9⟩, .handleTefif] ++ List.replicate 16 .tefif

/-- The full ring stops the queue until three frames are completed; the ninth frame takes the TX
object of the first, and those of the five in flight stay theirs. -/
theorem txPath_queue_full :
    let run := (txPath kernelDlc true true txRingCan fun _ => emptyTxObj).runFrom
      (TxPath.init txRingCan fun _ => emptyTxObj)
    (∃ s, run fillRing = some s ∧ s.drv.stopped = true ∧ s.echoes.length < s.frames.length) ∧
    (∃ s, run (fillRing ++ completeThree) = some s ∧ s.echoes.length = 3 ∧
      s.drv.stopped = true ∧ s.finished < s.frames.length) ∧
    ∃ s, run (fillRing ++ completeThree ++ .tefif :: xmitOne (zeroFrame 8)) = some s ∧
      s.drv.stopped = false ∧ s.frames[8]? = some (zeroFrame 8) ∧
      ∀ k skb, s.frames[k]? = some skb → 3 ≤ k →
        IsTxObj kernelDlc true (s.drv.obj (k % 8)) skb k ∧ s.drv.echoSkb (k % 8) = some skb := by
  intro run
  refine ⟨?_, ?_, ?_⟩
  · have hview : (run fillRing).map (fun s => (s.drv.stopped, s.xmit, s.tefif)) =
        some (true, .idle, .idle 0) := rfl
    obtain ⟨s, hs, hview⟩ := Option.map_eq_some_iff.mp hview
    obtain ⟨hstop, hxmit, htefif⟩ : _ ∧ _ ∧ _ := by simpa only [Prod.mk.injEq] using hview
    have hok : s.Healthy := fun err h => by rw [htefif] at h; cases h; rfl
    have hdue := (txPath_queue kernelDlc true true txRingCan _ ⟨_, hs⟩ hok).1
    exact ⟨s, hs, hstop, (hdue hstop hxmit).2 ⟨0, htefif⟩⟩
  · have hview : (run (fillRing ++ completeThree)).map
        (fun s => (s.drv.stopped, s.xmit, s.tefif, s.echoes.length)) =
          some (true, .idle, .wake, 3) := rfl
    obtain ⟨s, hs, hview⟩ := Option.map_eq_some_iff.mp hview
    obtain ⟨hstop, hxmit, htefif, hthree⟩ : _ ∧ _ ∧ _ ∧ _ := by
      simpa only [Prod.mk.injEq] using hview
    have hok : s.Healthy := fun err h => by rw [htefif] at h; cases h
    have hdue := (txPath_queue kernelDlc true true txRingCan _ ⟨_, hs⟩ hok).1
    exact ⟨s, hs, hthree, hstop, (hdue hstop hxmit).1⟩
  · have hview : (run (fillRing ++ completeThree ++ .tefif :: xmitOne (zeroFrame 8))).map
        (fun s => (s.drv.stopped, s.tefif, s.drv.tx.slots, s.echoes.length, s.frames[8]?)) =
          some (false, .idle 0, 8, 3, some (zeroFrame 8)) := rfl
    obtain ⟨s, hs, hview⟩ := Option.map_eq_some_iff.mp hview
    obtain ⟨hstop, htefif, hslots, hthree, hninth⟩ : _ ∧ _ ∧ _ ∧ _ ∧ _ := by
      simpa only [Prod.mk.injEq] using hview
    have hok : s.Healthy := fun err h => by rw [htefif] at h; cases h; rfl
    have hown := (txPath_queue kernelDlc true true txRingCan _ ⟨_, hs⟩ hok).2
    rw [hslots, hthree] at hown
    exact ⟨s, hs, hstop, hninth, hown⟩

end YoctoLayers.Mcp251xfd
