import YoctoLayers.Sp7021.Master.Transfer

/-! Transfers whose waits end by the handler's completion, and what a signal does. -/
namespace YoctoLayers.Sp7021
open YoctoLayers.Lib
namespace SpiMaster

/-- The handler is not running and has nothing to do; it has completed `rounds` rounds. -/
structure Quiet (s : SpiMaster) (rounds : ℕ) : Prop where
  irq : s.irq = .idle
  lens : s.ctrl.Lens 0
  completions : s.completions = rounds

/-- The handler may be running in round `i`. -/
structure Waiting (s : SpiMaster) (i : ℕ) : Prop where
  isrDone : s.drv.isrDone = 0
  completions : s.completions = i
  lens : s.irq = .complete → s.ctrl.Lens 0

/-- A round is only left once the handler has completed it. -/
def Signalled (s : SpiMaster) : Prop :=
  match s.pc with
  | .loop i => i ≤ s.xfer.len / spiDataSize + 1 ∧ Quiet s i
  | .setupClk i | .reinit i => i ≤ s.xfer.len / spiDataSize ∧ Quiet s i
  | .bufs i | .preload i _ | .config i | .start i =>
    i ≤ s.xfer.len / spiDataSize ∧ Quiet s i ∧ s.drv.isrDone = 0
  | .wait i => i ≤ s.xfer.len / spiDataSize ∧
      (Waiting s i ∨ Quiet s (i + 1) ∧ s.drv.isrDone = 1)
  | .readBack i | .cpol i => i ≤ s.xfer.len / spiDataSize ∧ Quiet s (i + 1)
  | .returned _ => Quiet s (s.xfer.len / spiDataSize + 1)

variable {spurious : Bool} {s t : SpiMaster}

/-- What a step of the handler does to the completion. -/
theorem isrNext_cases (hst : s.isrNext = some t) :
    t.pc = s.pc ∧ t.xfer = s.xfer ∧ s.irq ≠ .idle ∧
      ((s.irq = .complete ∧ t.irq = .idle ∧ t.ctrl = s.ctrl ∧
          t.completions = s.completions + 1 ∧ t.drv.isrDone = s.drv.isrDone + 1) ∨
        (t.completions = s.completions ∧ t.drv.isrDone = s.drv.isrDone ∧
          (t.irq = .complete → t.ctrl.Lens 0))) := by
  cases hirq : s.irq with
  | idle =>
    simp only [SpiMaster.isrNext, hirq] at hst
    cases hst
  | complete =>
    simp only [SpiMaster.isrNext, hirq] at hst
    cases hst
    exact ⟨rfl, rfl, by rintro ⟨⟩, Or.inl ⟨rfl, rfl, rfl, rfl, rfl⟩⟩
  | clear =>
    simp only [SpiMaster.isrNext, hirq] at hst
    cases hst
    exact ⟨rfl, rfl, by rintro ⟨⟩, Or.inr ⟨rfl, rfl, fun _ => ⟨rfl, rfl⟩⟩⟩
  | rb n _ | wb n | spinRb n _ =>
    cases n <;> simp only [SpiMaster.isrNext, hirq] at hst <;> cases hst <;>
      exact ⟨rfl, rfl, by rintro ⟨⟩, Or.inr ⟨rfl, rfl, by rintro ⟨⟩⟩⟩
  | status | spin _ =>
    simp only [SpiMaster.isrNext, hirq] at hst
    split_ifs at hst <;> cases hst <;>
      exact ⟨rfl, rfl, by rintro ⟨⟩, Or.inr ⟨rfl, rfl, by rintro ⟨⟩⟩⟩

theorem shift_frame {b : UInt8} (hst : s.shift b = some t) :
    ∃ ctrl mosi miso, t = { s with ctrl := ctrl, mosi := mosi, miso := miso } ∧
      ctrl.txLen = s.ctrl.txLen ∧ ctrl.totalLen = s.ctrl.totalLen := by
  unfold SpiMaster.shift at hst
  split at hst
  · cases hst
  · split_ifs at hst
    cases hst
    exact ⟨_, _, _, rfl, rfl, rfl⟩

/-- Outside the wait of a started round the handler is at rest. -/
theorem Signalled.cases (h : Signalled s) :
    (∃ rounds, Quiet s rounds) ∨
      ∃ i, s.pc = .wait i ∧ i ≤ s.xfer.len / spiDataSize ∧ Waiting s i := by
  unfold Signalled at h
  cases hpc : s.pc with
  | wait i =>
    rw [hpc] at h
    obtain ⟨hi, hw | hq⟩ := h
    · exact Or.inr ⟨i, rfl, hi, hw⟩
    · exact Or.inl ⟨_, hq.1⟩
  | loop i | setupClk i | reinit i | readBack i | cpol i =>
    rw [hpc] at h
    exact Or.inl ⟨_, h.2⟩
  | bufs i | preload i n | config i | start i =>
    rw [hpc] at h
    exact Or.inl ⟨_, h.2.1⟩
  | returned ret =>
    rw [hpc] at h
    exact Or.inl ⟨_, h⟩

theorem Signalled.isrNext (h : Signalled s) (hst : s.isrNext = some t) : Signalled t := by
  obtain ⟨hpc, hx, hirq, hcases⟩ := isrNext_cases hst
  rcases h.cases with ⟨rounds, hq⟩ | ⟨i, hwait, hi, hw⟩
  · exact absurd hq.irq hirq
  · have hzero := hw.isrDone
    have hcount := hw.completions
    simp only [Signalled, hpc, hwait, hx]
    rcases hcases with ⟨hcomp, hidle, hctrl, hcompl, hdone⟩ | ⟨hcompl, hdone, hlens⟩
    · refine ⟨hi, Or.inr ⟨⟨hidle, ?_, by omega⟩, by omega⟩⟩
      rw [hctrl]
      exact hw.lens hcomp
    · exact ⟨hi, Or.inl ⟨by omega, by omega, hlens⟩⟩

theorem Signalled.shift {b : UInt8} (h : Signalled s) (hst : s.shift b = some t) :
    Signalled t := by
  obtain ⟨ctrl, mosi, miso, rfl, htx, htotal⟩ := shift_frame hst
  have hlens (hl : s.ctrl.Lens 0) : ctrl.Lens 0 := ⟨htx.trans hl.1, htotal.trans hl.2⟩
  unfold Signalled at h ⊢
  cases hpc : s.pc with
  | wait i =>
    rw [hpc] at h
    obtain ⟨hi, hw | ⟨hq, hdone⟩⟩ := h
    · exact ⟨hi, Or.inl { hw with lens := fun hc => hlens (hw.lens hc) }⟩
    · exact ⟨hi, Or.inr ⟨{ hq with lens := hlens hq.lens }, hdone⟩⟩
  | loop i | setupClk i | reinit i | readBack i | cpol i =>
    rw [hpc] at h
    exact ⟨h.1, { h.2 with lens := hlens h.2.lens }⟩
  | bufs i | preload i n | config i | start i =>
    rw [hpc] at h
    exact ⟨h.1, { h.2.1 with lens := hlens h.2.1.lens }, h.2.2⟩
  | returned ret =>
    rw [hpc] at h
    exact { h with lens := hlens h.lens }

theorem irqEntry_cases (s : SpiMaster) :
    s.irqEntry = s ∨ ∃ rxCnt txCnt, s.irqEntry = { s with irq := .rb rxCnt txCnt } := by
  simp only [SpiMaster.irqEntry]
  split_ifs
  · exact Or.inl rfl
  · exact Or.inl rfl
  · exact Or.inr ⟨_, _, rfl⟩

theorem Signalled.irqEntry (h : Signalled s) : Signalled s.irqEntry := by
  rcases h.cases with ⟨rounds, hq⟩ | ⟨i, hpc, hi, hw⟩
  · rw [irqEntry_eq_of_lens hq.lens]
    exact h
  · rcases irqEntry_cases s with heq | ⟨rxCnt, txCnt, heq⟩ <;> rw [heq]
    · exact h
    · simp only [Signalled, hpc]
      exact ⟨hi, Or.inl { hw with lens := nofun }⟩

theorem Signalled.xferNext (h : Signalled s) (hst : s.xferNext = some t) : Signalled t := by
  rcases s with ⟨xfer, clkRate, drv, ctrl, pc, irq, mosi, miso, reads, stores, completions⟩
  cases pc with
  | loop i =>
    obtain ⟨hi, hq⟩ := h
    simp only at hi
    simp only [SpiMaster.xferNext] at hst
    split_ifs at hst with hle <;> cases hst
    · exact ⟨hle, { hq with }⟩
    · obtain rfl : i = xfer.len / spiDataSize + 1 := by omega
      exact { hq with }
  | setupClk i =>
    cases hst
    exact ⟨h.1, { h.2 with }⟩
  | reinit i =>
    cases hst
    exact ⟨h.1, { h.2 with }, rfl⟩
  | bufs i =>
    cases hst
    exact ⟨h.1, { h.2.1 with }, h.2.2⟩
  | preload i n =>
    cases n with
    | zero =>
      cases hst
      exact ⟨h.1, { h.2.1 with }, h.2.2⟩
    | succ n =>
      cases hst
      refine ⟨h.1, { h.2.1 with lens := ?_ }, h.2.2⟩
      have hlens := h.2.1.lens
      simp only [SpiMaster.wb, SpiCtrl.writeFifo]
      split_ifs <;> exact hlens
  | config i =>
    cases hst
    exact ⟨h.1, { h.2.1 with }, h.2.2⟩
  | start i =>
    cases hst
    obtain ⟨hi, hq, hdone⟩ := h
    have hidle : irq = .idle := hq.irq
    subst hidle
    exact ⟨hi, Or.inl ⟨hdone, hq.completions, by rintro ⟨⟩⟩⟩
  | wait i =>
    obtain ⟨hi, hw | ⟨hq, hone⟩⟩ := h
    · have hzero : drv.isrDone = 0 := hw.isrDone
      simp only [SpiMaster.xferNext, hzero] at hst
      cases hst
    · simp only at hone
      simp only [SpiMaster.xferNext, hone] at hst
      cases hst
      exact ⟨hi, { hq with }⟩
  | readBack i =>
    simp only [SpiMaster.xferNext] at hst
    split_ifs at hst <;> cases hst
    · exact ⟨h.1, { h.2 with lens := ⟨rfl, rfl⟩ }⟩
    · exact ⟨h.1, { h.2 with }⟩
  | cpol i =>
    simp only [SpiMaster.xferNext] at hst
    split_ifs at hst <;> cases hst <;> exact ⟨Nat.succ_le_succ h.1, { h.2 with }⟩
  | returned ret => cases hst

theorem signalled_step {e : SpiEvent} (h : Signalled s)
    (hst : SpiMaster.step spurious s e = some t) (he : e ≠ .timeout ∧ e ≠ .signal) :
    Signalled t := by
  cases e with
  | shift b => exact h.shift hst
  | irq =>
    simp only [SpiMaster.step] at hst
    split at hst
    · split_ifs at hst
      cases hst
      exact h.irqEntry
    · cases hst
  | isr => exact h.isrNext hst
  | xfer => exact h.xferNext hst
  | timeout => exact absurd rfl he.1
  | signal => exact absurd rfl he.2

/-- After the return no step touches the buffers. -/
theorem Signalled.buffers {e : SpiEvent} {ret : ℤ} (h : Signalled s) (hpc : s.pc = .returned ret)
    (hst : SpiMaster.step spurious s e = some t) : t.reads = s.reads ∧ t.stores = s.stores := by
  simp only [Signalled, hpc] at h
  cases e with
  | shift b =>
    obtain ⟨ctrl, mosi, miso, rfl, -, -⟩ := shift_frame hst
    exact ⟨rfl, rfl⟩
  | irq =>
    simp only [SpiMaster.step, h.irq, irqEntry_eq_of_lens h.lens] at hst
    split_ifs at hst
    cases hst
    exact ⟨rfl, rfl⟩
  | isr =>
    simp only [SpiMaster.step, SpiMaster.isrNext, h.irq] at hst
    cases hst
  | xfer =>
    simp only [SpiMaster.step, SpiMaster.xferNext, hpc] at hst
    cases hst
  | timeout | signal =>
    simp only [SpiMaster.step, SpiMaster.giveUp, hpc] at hst
    cases hst

end SpiMaster

/-- Where no wait ends by a timeout or a signal, the call returns 0 only after the handler has
completed every round, and from its return on no step reads `tx_buf` or writes `rx_buf`. -/
theorem transferOne_run_signalled (spurious : Bool) (xfer : SpiTransfer) (clkRate : UInt32)
    (drv : SpiDriver) (config : UInt32) {es : List SpiEvent}
    (h : (master spurious xfer clkRate drv config).Along
      (fun _ e _ => e ≠ .timeout ∧ e ≠ .signal) (SpiMaster.init xfer clkRate drv config) es) :
    (master spurious xfer clkRate drv config).Along
      (fun s _ t =>
        (∀ ret, t.pc = .returned ret → t.completions = t.xfer.len / spiDataSize + 1) ∧
        ((∃ ret, s.pc = .returned ret) → t.reads = s.reads ∧ t.stores = s.stores))
      (SpiMaster.init xfer clkRate drv config) es := by
  refine Sys.Along.imp (I := SpiMaster.Signalled) (fun hi hst he => ?_) ?_ h
  · have ht := SpiMaster.signalled_step hi hst he
    refine ⟨ht, fun ret hpc => ?_, ?_⟩
    · simp only [SpiMaster.Signalled, hpc] at ht
      exact ht.completions
    · rintro ⟨ret, hpc⟩
      exact hi.buffers hpc hst
  · exact ⟨Nat.zero_le _, rfl, ⟨rfl, rfl⟩, rfl⟩

/-- A transfer of one byte. -/
def transfer1 : SpiTransfer where
  txBuf _ := 0x55
  len := 1
  speedHz := 1000000

/-- The steps of a round of one byte up to the wait. -/
def startOne : List SpiEvent := List.replicate 8 .xfer

/-- The byte is shifted, and the handler stores it and completes the round. -/
def completeOne : List SpiEvent := .shift 7 :: .irq :: List.replicate 7 .isr

/-- A transfer of 17 bytes: one is left when the FIFO is full. -/
def transfer17 : SpiTransfer where
  txBuf := UInt8.ofNat
  len := 17
  speedHz := 1000000

/-- The handler is called behind the first byte, writes the 17th into the FIFO, waits for the
others, and completes the round. -/
def complete17 : List SpiEvent :=
  .shift 0 :: .irq :: List.replicate 7 .isr ++
    (List.range 16).map (fun n => .shift (UInt8.ofNat (n + 1))) ++ List.replicate 21 .isr

/-- The call returns, and the handler is called once more. -/
def return17 : List SpiEvent := List.replicate 4 .xfer ++ [.irq]

theorem transferOne_run_signalled_late :
    ∃ s, (master true transfer17 202500000 ⟨0, 0, 0, 0, 0, 0, 0⟩ 0).runFrom
        (SpiMaster.init transfer17 202500000 ⟨0, 0, 0, 0, 0, 0, 0⟩ 0)
        (List.replicate 23 .xfer ++ complete17 ++ return17) = some s ∧
      s.pc = .returned 0 ∧ s.completions = 1 ∧
      s.stores = (List.range 17).map (fun n => (n, UInt8.ofNat n)) ∧
      (master true transfer17 202500000 ⟨0, 0, 0, 0, 0, 0, 0⟩ 0).Along
        (fun s _ t =>
          (∀ ret, t.pc = .returned ret → t.completions = t.xfer.len / spiDataSize + 1) ∧
          ((∃ ret, s.pc = .returned ret) → t.reads = s.reads ∧ t.stores = s.stores))
        (SpiMaster.init transfer17 202500000 ⟨0, 0, 0, 0, 0, 0, 0⟩ 0)
        (List.replicate 23 .xfer ++ complete17 ++ return17) := by
  refine ⟨_, rfl, rfl, rfl, rfl, ?_⟩
  exact transferOne_run_signalled true transfer17 202500000 _ 0
    (Sys.Along.of_forall (P := fun e => e ≠ SpiEvent.timeout ∧ e ≠ .signal) _ (by decide))

/-- A signal in the wait: the call returns 0 without a completion, and the handler, called
later, writes through `rx_buf`. -/
theorem transferOne_signal_returns_zero : ∃ s t,
    (master false transfer1 202500000 ⟨0, 0, 0, 0, 0, 0, 0⟩ 0).runFrom
        (SpiMaster.init transfer1 202500000 ⟨0, 0, 0, 0, 0, 0, 0⟩ 0)
        (startOne ++ .signal :: List.replicate 3 .xfer) = some s ∧
      s.pc = .returned 0 ∧ s.completions = 0 ∧ s.stores = [] ∧
      (master false transfer1 202500000 ⟨0, 0, 0, 0, 0, 0, 0⟩ 0).runFrom s
        [.shift 7, .irq, .isr] = some t ∧
      t.pc = .returned 0 ∧ t.stores = [(0, 7)] :=
  ⟨_, _, rfl, rfl, rfl, rfl, rfl, rfl, rfl⟩

end YoctoLayers.Sp7021
