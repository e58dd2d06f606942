import YoctoLayers.Sp7021.Master.Fifo

/-! The invariant of a transfer whose rounds all complete. -/
namespace YoctoLayers.Sp7021
open YoctoLayers.Lib

/-- The lengths that the status register shows. -/
def SpiCtrl.Lens (c : SpiCtrl) (len : ℕ) : Prop := c.txLen = len ∧ c.totalLen = len

/-- The handler in a round of `len` bytes, `tx` of them written to the FIFO and `rx` of them
stored. No more than one FIFO's bytes are on their way. -/
def IrqPc.Ok (pc : IrqPc) (c : SpiCtrl) (len tx rx : ℕ) : Prop :=
  match pc with
  | .idle | .status => c.Lens len ∧ tx ≤ len ∧ tx ≤ rx + fifoDataLen
  | .rb rxCnt txCnt => c.Lens len ∧ rxCnt ≤ c.rxFifo.length ∧
      tx + txCnt ≤ len ∧ tx + txCnt ≤ rx + rxCnt + fifoDataLen
  | .wb txCnt => c.Lens len ∧ tx + txCnt ≤ len ∧ tx + txCnt ≤ rx + fifoDataLen
  | .spin totalLen => c.Lens len ∧ totalLen = len ∧ tx = len
  | .spinRb rxCnt totalLen => c.Lens len ∧ totalLen = len ∧ tx = len ∧ rxCnt ≤ c.rxFifo.length
  | .clear => c.Lens len ∧ tx = len ∧ rx = len
  | .complete => c.Lens 0 ∧ c.finish = false ∧ tx = len ∧ rx = len

namespace SpiMaster

/-- No round is active: `stored` bytes have gone through, `written` of the buffer are written
to the FIFO. -/
structure Between (s : SpiMaster) (stored written : ℕ) : Prop where
  irq : s.irq = .idle
  lens : s.ctrl.Lens 0
  finish : s.ctrl.finish = false
  left : s.ctrl.left = 0
  stores : s.stores.length = stored
  miso : s.miso.length = stored
  reads : s.reads.length = written

/-- `pspim->tx_buf`, `pspim->rx_buf` and `pspim->data_unit` in round `i`. -/
structure Bufs (s : SpiMaster) (i : ℕ) : Prop where
  dataUnit : s.drv.dataUnit = fifoDataLen
  txBuf : s.drv.txBuf = i * spiDataSize
  rxBuf : s.drv.rxBuf = i * spiDataSize

/-- Round `i` is started and not completed. -/
structure Running (s : SpiMaster) (i : ℕ) : Prop where
  stores : s.stores.length = s.xfer.before i + s.drv.rxCurLen
  reads : s.reads.length = s.xfer.before i + s.drv.txCurLen
  left : s.miso.length + s.ctrl.left = s.xfer.before i + s.xfer.chunkLen i
  finish : s.ctrl.finish = true → s.ctrl.left = 0 ∧ 0 < s.xfer.chunkLen i
  isrDone : s.drv.isrDone = 0
  empty : s.xfer.chunkLen i = 0 → s.irq = .idle
  irq : s.irq.Ok s.ctrl (s.xfer.chunkLen i) s.drv.txCurLen s.drv.rxCurLen

/-- Round `i` is completed. -/
structure Completed (s : SpiMaster) (i : ℕ) : Prop where
  between : Between s (s.xfer.before (i + 1)) (s.xfer.before (i + 1))
  pos : 0 < s.xfer.chunkLen i
  isrDone : s.drv.isrDone = 1

/-- What holds at each place of `sp7021_spi_master_transfer_one`. -/
def Ok (s : SpiMaster) : Prop :=
  match s.pc with
  | .loop i => i ≤ s.xfer.len / spiDataSize + 1 ∧
      (i = s.xfer.len / spiDataSize + 1 → s.xfer.len % spiDataSize ≠ 0) ∧
      Between s (s.xfer.before i) (s.xfer.before i)
  | .setupClk i | .reinit i => i ≤ s.xfer.len / spiDataSize ∧
      Between s (s.xfer.before i) (s.xfer.before i) ∧
      s.drv.txCurLen = 0 ∧ s.drv.rxCurLen = 0 ∧ s.drv.dataUnit = fifoDataLen
  | .bufs i => i ≤ s.xfer.len / spiDataSize ∧
      Between s (s.xfer.before i) (s.xfer.before i) ∧
      s.drv.txCurLen = 0 ∧ s.drv.rxCurLen = 0 ∧ s.drv.dataUnit = fifoDataLen ∧ s.drv.isrDone = 0
  | .preload i n => i ≤ s.xfer.len / spiDataSize ∧
      Between s (s.xfer.before i) (s.xfer.before i + s.drv.txCurLen) ∧
      Bufs s i ∧ s.drv.rxCurLen = 0 ∧ s.drv.isrDone = 0 ∧
      s.drv.txCurLen + n = min fifoDataLen (s.xfer.chunkLen i)
  | .config i => i ≤ s.xfer.len / spiDataSize ∧
      Between s (s.xfer.before i) (s.xfer.before i + s.drv.txCurLen) ∧
      Bufs s i ∧ s.drv.rxCurLen = 0 ∧ s.drv.isrDone = 0 ∧
      s.drv.txCurLen = min fifoDataLen (s.xfer.chunkLen i)
  | .start i => i ≤ s.xfer.len / spiDataSize ∧
      Between s (s.xfer.before i) (s.xfer.before i + s.drv.txCurLen) ∧
      Bufs s i ∧ s.drv.rxCurLen = 0 ∧ s.drv.isrDone = 0 ∧
      s.drv.txCurLen = min fifoDataLen (s.xfer.chunkLen i) ∧
      s.ctrl.config &&& txEmpFlagMask ≠ 0
  | .wait i => i ≤ s.xfer.len / spiDataSize ∧ Bufs s i ∧ s.ctrl.config &&& txEmpFlagMask ≠ 0 ∧
      (Running s i ∨ Completed s i)
  | .readBack i | .cpol i => i ≤ s.xfer.len / spiDataSize ∧ 0 < s.xfer.chunkLen i ∧
      Between s (s.xfer.before (i + 1)) (s.xfer.before (i + 1))
  | .returned ret => ret = (if s.xfer.len % spiDataSize = 0 then -etimedout else 0) ∧
      Between s s.xfer.len s.xfer.len

structure Inv (s : SpiMaster) : Prop where
  data : Data s
  ok : Ok s

/-- No signal comes, and the waits for the rounds of at least one byte do not time out. -/
def Promised (s : SpiMaster) : SpiEvent → Prop
  | .signal => False
  | .timeout => ∀ i, s.pc = .wait i → s.xfer.chunkLen i = 0
  | _ => True

theorem inv_init (xfer : SpiTransfer) (clkRate : UInt32) (drv : SpiDriver) (config : UInt32) :
    Inv (SpiMaster.init xfer clkRate drv config) where
  data := data_init xfer clkRate drv config
  ok := by
    have h0 : xfer.before 0 = 0 := by
      rw [SpiTransfer.before, Nat.zero_mul, Nat.zero_min]
    exact ⟨Nat.zero_le _, by rintro ⟨⟩, rfl, ⟨rfl, rfl⟩, rfl, rfl, h0.symm, h0.symm, h0.symm⟩

/-- Between the rounds the handler has nothing to do. -/
theorem irqEntry_eq_of_lens {s : SpiMaster} (h : s.ctrl.Lens 0) : s.irqEntry = s := by
  obtain ⟨htx, htotal⟩ := h
  simp only [irqEntry, SpiCtrl.status, htx, htotal, and_true, and_self, if_true, ite_self]

/-- In a round the interrupt line is only asserted with the TX FIFO empty. -/
theorem Running.txFifo_of_asserted {s : SpiMaster} {i : ℕ} (h : Running s i) (hd : Data s)
    (hirq : s.irq = .idle) (ha : s.ctrl.asserted = true) : s.ctrl.txFifo = [] := by
  have hok := h.irq
  rw [hirq] at hok
  obtain ⟨-, hle, hroom⟩ := hok
  have hreads := hd.reads_length
  have hmiso := hd.miso_length
  have hr := h.reads
  have hs := h.stores
  have hl := h.left
  simp only [SpiCtrl.asserted, SpiCtrl.status, Bool.or_eq_true, Bool.and_eq_true] at ha
  apply List.length_eq_zero_iff.mp
  rcases ha with (⟨hemp, -⟩ | ⟨hfull, -⟩) | ⟨hfin, -⟩
  · exact List.length_eq_zero_iff.mpr (List.isEmpty_iff.mp hemp)
  · have hlen := of_decide_eq_true hfull
    omega
  · have hleft := (h.finish hfin).1
    omega

theorem subU32_of_le {a b : ℕ} (hle : b ≤ a) (hlt : a < 2 ^ 32) : subU32 a b = a - b := by
  unfold subU32
  omega

/-- RX_CNT, or the flag, gives the fill level. -/
theorem rxCnt_eq {s : SpiMaster} (hd : Data s) (hu : s.drv.dataUnit = fifoDataLen) :
    s.rxCnt = s.ctrl.rxFifo.length := by
  have hroom := hd.room
  have hfifo : fifoDataLen = 16 := rfl
  simp only [rxCnt, SpiCtrl.status, decide_eq_true_eq]
  split_ifs with hfull <;> omega

/-- The handler is called with room in the TX FIFO, or with nothing left to write. -/
def Roomy (s : SpiMaster) : Prop :=
  s.ctrl.txFifo.length < fifoDataLen ∨ s.drv.txCurLen = s.ctrl.txLen

theorem irqEntry_eq {s : SpiMaster} {i : ℕ} (h : Running s i) (hd : Data s) (hb : Bufs s i)
    (hirq : s.irq = .idle) (hroomy : s.Roomy) (hpos : 0 < s.xfer.chunkLen i) :
    s.irqEntry = { s with
      irq := .rb s.ctrl.rxFifo.length
        (min (s.xfer.chunkLen i - s.drv.txCurLen) (fifoDataLen - s.ctrl.txFifo.length)) } := by
  have hok := h.irq
  rw [hirq] at hok
  obtain ⟨⟨htx, htotal⟩, hle, -⟩ := hok
  have hchunk := @SpiTransfer.chunkLen_le s.xfer i
  have hsize : spiDataSize = 255 := rfl
  have hfifo : fifoDataLen = 16 := rfl
  have hsub : subU32 (s.xfer.chunkLen i) s.drv.txCurLen = s.xfer.chunkLen i - s.drv.txCurLen :=
    subU32_of_le hle (by omega)
  have h0 : s.xfer.chunkLen i ≠ 0 := Nat.ne_of_gt hpos
  have hcnt : min (s.xfer.chunkLen i - s.drv.txCurLen)
      (subU32 fifoDataLen (s.ctrl.txFifo.length % 16)) =
        min (s.xfer.chunkLen i - s.drv.txCurLen) (fifoDataLen - s.ctrl.txFifo.length) := by
    rw [subU32_of_le (by omega) (by decide)]
    unfold Roomy at hroomy
    omega
  rw [SpiMaster.irqEntry, rxCnt_eq hd hb.dataUnit]
  simp only [SpiCtrl.status, htx, htotal, hsub, hb.dataUnit, h0, and_false, if_false, hcnt]

theorem Running.irqEntry {s : SpiMaster} {i : ℕ} (h : Running s i) (hd : Data s) (hb : Bufs s i)
    (hirq : s.irq = .idle) (hroomy : s.Roomy) : Running s.irqEntry i := by
  have hok := h.irq
  rw [hirq] at hok
  obtain ⟨⟨htx, htotal⟩, hle, hroom⟩ := hok
  by_cases h0 : s.xfer.chunkLen i = 0
  · rw [irqEntry_eq_of_lens ⟨htx.trans h0, htotal.trans h0⟩]
    exact h
  · rw [irqEntry_eq h hd hb hirq hroomy (Nat.pos_of_ne_zero h0)]
    have hreads := hd.reads_length
    have hmiso := hd.miso_length
    have hr := h.reads
    have hs := h.stores
    refine { h with empty := fun h' => absurd h' h0, irq := ?_ }
    exact ⟨⟨htx, htotal⟩, Nat.le_refl _, by simp only; omega, by simp only; omega⟩

/-- The handler only runs, and bytes are only shifted, in a round. -/
theorem Ok.running {s : SpiMaster} (h : Ok s) (hact : s.irq = .idle → s.ctrl.left ≠ 0) :
    ∃ i, s.pc = .wait i ∧ i ≤ s.xfer.len / spiDataSize ∧ Bufs s i ∧
      s.ctrl.config &&& txEmpFlagMask ≠ 0 ∧ Running s i := by
  unfold Ok at h
  cases hpc : s.pc with
  | wait i =>
    rw [hpc] at h
    obtain ⟨hi, hb, hcfg, hrun | hdone⟩ := h
    · exact ⟨i, rfl, hi, hb, hcfg, hrun⟩
    · exact absurd hdone.between.left (hact hdone.between.irq)
  | loop i | readBack i | cpol i =>
    rw [hpc] at h
    exact absurd h.2.2.left (hact h.2.2.irq)
  | setupClk i | reinit i | bufs i | preload i n | config i | start i =>
    rw [hpc] at h
    exact absurd h.2.1.left (hact h.2.1.irq)
  | returned ret =>
    rw [hpc] at h
    exact absurd h.2.left (hact h.2.irq)

theorem Running.rb {s : SpiMaster} {i n : ℕ} (h : Running s i) (hd : Data s) (hb : Bufs s i)
    (hi : i ≤ s.xfer.len / spiDataSize) (hn : n + 1 ≤ s.ctrl.rxFifo.length) :
    ∃ rest, s.rb = { s with
        ctrl := { s.ctrl with rxFifo := rest }
        drv := { s.drv with rxCurLen := s.drv.rxCurLen + 1 }
        stores := s.rb.stores } ∧
      s.ctrl.rxFifo.length = rest.length + 1 ∧ s.rb.stores.length = s.stores.length + 1 ∧
      Data s.rb := by
  have hk : s.drv.rxBuf + s.drv.rxCurLen = s.stores.length := by
    rw [h.stores, hb.rxBuf, SpiTransfer.before_of_le hi]
  obtain ⟨b, rest, hfifo⟩ : ∃ b rest, s.ctrl.rxFifo = b :: rest :=
    List.exists_cons_of_length_pos (Nat.lt_of_lt_of_le (Nat.succ_pos n) hn)
  have heq := rb_eq hk hfifo
  refine ⟨rest, ?_, ?_, ?_, hd.rb hk hfifo⟩
  · rw [heq]
  · rw [hfifo, List.length_cons]
  · rw [heq, List.length_append]
    rfl

/-- Round `i` is going on. -/
structure Round (s : SpiMaster) (i : ℕ) : Prop where
  pc : s.pc = .wait i
  le : i ≤ s.xfer.len / spiDataSize
  bufs : Bufs s i
  config : s.ctrl.config &&& txEmpFlagMask ≠ 0
  running : Running s i
  data : Data s

theorem Inv.round {s : SpiMaster} (h : Inv s) (hact : s.irq = .idle → s.ctrl.left ≠ 0) :
    ∃ i, Round s i := by
  obtain ⟨i, hpc, hi, hb, hcfg, hrun⟩ := h.ok.running hact
  exact ⟨i, hpc, hi, hb, hcfg, hrun, h.data⟩

theorem Round.inv {s : SpiMaster} {i : ℕ} (h : Round s i) : Inv s := by
  refine ⟨h.data, ?_⟩
  unfold Ok
  rw [h.pc]
  exact ⟨h.le, h.bufs, h.config, Or.inl h.running⟩

/-- The handler goes on without a FIFO access. -/
theorem Round.goesOn {s : SpiMaster} {i : ℕ} {q : IrqPc} (h : Round s i) (hirq : s.irq ≠ .idle)
    (hq : q.Ok s.ctrl (s.xfer.chunkLen i) s.drv.txCurLen s.drv.rxCurLen) :
    Inv { s with irq := q } := by
  have hrun : Running { s with irq := q } i :=
    { h.running with empty := fun h0 => absurd (h.running.empty h0) hirq, irq := hq }
  exact Round.inv ⟨h.pc, h.le, { h.bufs with }, h.config, hrun, { h.data with }⟩

/-- The handler has read a byte from the RX FIFO. -/
theorem Round.rb {s : SpiMaster} {i n : ℕ} {q : IrqPc} (h : Round s i) (hirq : s.irq ≠ .idle)
    (hn : n + 1 ≤ s.ctrl.rxFifo.length)
    (hq : ∀ rest : List UInt8, s.ctrl.rxFifo.length = rest.length + 1 →
      q.Ok { s.ctrl with rxFifo := rest } (s.xfer.chunkLen i) s.drv.txCurLen
        (s.drv.rxCurLen + 1)) :
    Inv { s.rb with irq := q } := by
  obtain ⟨rest, heq, hlen, hstores, hd⟩ := h.running.rb h.data h.bufs h.le hn
  have hs := h.running.stores
  rw [heq] at hd ⊢
  refine Round.inv ⟨h.pc, h.le, { h.bufs with }, h.config, { h.running with
    stores := ?_
    empty := fun h0 => absurd (h.running.empty h0) hirq
    irq := hq rest hlen }, { hd with }⟩
  simp only
  omega

/-- The handler has written a byte to the TX FIFO. -/
theorem Round.wb {s : SpiMaster} {i n : ℕ} (h : Round s i) (hirq : s.irq = .wb (n + 1)) :
    Inv { s.wb with irq := .wb n } := by
  have hok := h.running.irq
  rw [hirq] at hok
  obtain ⟨hlens, htx, hroom⟩ := hok
  have hreads := h.data.reads_length
  have hmiso := h.data.miso_length
  have hrs := h.running.reads
  have hss := h.running.stores
  have hk : s.drv.txBuf + s.drv.txCurLen = s.reads.length := by
    rw [hrs, h.bufs.txBuf, SpiTransfer.before_of_le h.le]
  have hfree : s.ctrl.txFifo.length < fifoDataLen := by omega
  have hd := h.data.wb hk hfree
  rw [wb_eq hk hfree] at hd ⊢
  refine Round.inv ⟨h.pc, h.le, { h.bufs with }, h.config, { h.running with
    reads := ?_
    empty := fun h0 => nomatch hirq.symm.trans (h.running.empty h0)
    irq := ⟨hlens, ?_, ?_⟩ }, { hd with }⟩
  · simp only [List.length_append, List.length_singleton]
    omega
  · simp only
    omega
  · simp only
    omega

theorem Inv.isrNext {s t : SpiMaster} (h : Inv s) (hst : s.isrNext = some t) : Inv t := by
  have hirq : s.irq ≠ .idle := by
    intro hidle
    simp only [SpiMaster.isrNext, hidle] at hst
    cases hst
  obtain ⟨i, hr⟩ := h.round fun hidle => absurd hidle hirq
  have hok := hr.running.irq
  have hreads := h.data.reads_length
  have hmiso := h.data.miso_length
  have hrs := hr.running.reads
  have hss := hr.running.stores
  have hl := hr.running.left
  cases hpc : s.irq with
  | idle => exact absurd hpc hirq
  | rb rxCnt txCnt =>
    rw [hpc] at hok
    obtain ⟨hlens, hrx, htx, hroom⟩ := hok
    cases rxCnt with
    | zero =>
      simp only [SpiMaster.isrNext, hpc] at hst
      cases hst
      exact hr.goesOn hirq ⟨hlens, htx, hroom⟩
    | succ n =>
      simp only [SpiMaster.isrNext, hpc] at hst
      cases hst
      refine hr.rb hirq hrx fun rest hlen => ⟨hlens, ?_, htx, ?_⟩
      · simp only
        omega
      · omega
  | wb txCnt =>
    rw [hpc] at hok
    obtain ⟨hlens, htx, hroom⟩ := hok
    cases txCnt with
    | zero =>
      simp only [SpiMaster.isrNext, hpc] at hst
      cases hst
      exact hr.goesOn hirq ⟨hlens, htx, hroom⟩
    | succ n =>
      simp only [SpiMaster.isrNext, hpc] at hst
      cases hst
      exact hr.wb hpc
  | status =>
    rw [hpc] at hok
    obtain ⟨hlens, htx, hroom⟩ := hok
    simp only [SpiMaster.isrNext, hpc] at hst
    split_ifs at hst with hlast <;> cases hst
    · have hall : s.drv.txCurLen = s.xfer.chunkLen i := by
        rcases hlast with hfin | hlen
        · have hleft : s.ctrl.left = 0 := (hr.running.finish hfin).1
          omega
        · exact hlen.symm.trans hlens.1
      exact hr.goesOn hirq ⟨hlens, hlens.2, hall⟩
    · exact hr.goesOn hirq ⟨hlens, htx, hroom⟩
  | spin totalLen =>
    rw [hpc] at hok
    obtain ⟨hlens, htotal, hall⟩ := hok
    simp only [SpiMaster.isrNext, hpc] at hst
    split_ifs at hst with hmore <;> cases hst
    · have hcnt := rxCnt_eq h.data hr.bufs.dataUnit
      exact hr.goesOn hirq ⟨hlens, hlens.2, hall, Nat.le_of_eq hcnt⟩
    · exact hr.goesOn hirq ⟨hlens, hall, by omega⟩
  | spinRb rxCnt totalLen =>
    rw [hpc] at hok
    obtain ⟨hlens, htotal, hall, hrx⟩ := hok
    cases rxCnt with
    | zero =>
      simp only [SpiMaster.isrNext, hpc] at hst
      cases hst
      exact hr.goesOn hirq ⟨hlens, htotal, hall⟩
    | succ n =>
      simp only [SpiMaster.isrNext, hpc] at hst
      cases hst
      refine hr.rb hirq hrx fun rest hlen => ⟨hlens, htotal, hall, ?_⟩
      simp only
      omega
  | clear =>
    rw [hpc] at hok
    obtain ⟨hlens, hall, hrx⟩ := hok
    simp only [SpiMaster.isrNext, hpc] at hst
    cases hst
    refine Round.inv ⟨hr.pc, hr.le, { hr.bufs with }, hr.config, { hr.running with
      finish := ?_
      empty := fun h0 => absurd (hr.running.empty h0) hirq
      irq := ⟨⟨rfl, rfl⟩, rfl, hall, hrx⟩ }, { h.data with }⟩
    rintro ⟨⟩
  | complete =>
    rw [hpc] at hok
    obtain ⟨hlens, hfin, hall, hrx⟩ := hok
    simp only [SpiMaster.isrNext, hpc] at hst
    cases hst
    have hsucc := SpiTransfer.before_succ hr.le
    have hdone := hr.running.isrDone
    refine ⟨{ h.data with }, ?_⟩
    unfold Ok
    simp only [hr.pc]
    refine ⟨hr.le, { hr.bufs with }, hr.config, Or.inr ⟨⟨rfl, hlens, hfin, ?_, ?_, ?_, ?_⟩, ?_, ?_⟩⟩
    · simp only
      omega
    · simp only
      omega
    · simp only
      omega
    · simp only
      omega
    · exact Nat.pos_of_ne_zero fun h0 => absurd (hr.running.empty h0) hirq
    · simp only
      omega

theorem Inv.shift {s t : SpiMaster} {b : UInt8} (h : Inv s) (hst : s.shift b = some t) :
    Inv t := by
  have hd' := h.data.shift hst
  unfold SpiMaster.shift at hst
  split at hst
  · cases hst
  · rename_i out rest hfifo
    split_ifs at hst with hgo
    cases hst
    obtain ⟨i, hpc, hi, hb, hcfg, hrun⟩ := h.ok.running fun _ => by omega
    have hl := hrun.left
    refine ⟨hd', ?_⟩
    simp only [Ok, hpc]
    refine ⟨hi, { hb with }, hcfg, Or.inl { hrun with left := ?_, finish := ?_, irq := ?_ }⟩
    · simp only [List.length_append, List.length_singleton]
      omega
    · intro hfin
      rcases (Bool.or_eq_true _ _).mp hfin with hold | hlast
      · exact absurd (hrun.finish hold).1 (by omega)
      · have hone := of_decide_eq_true hlast
        have hs := hrun.stores
        have hm := h.data.miso_length
        exact ⟨by simp only; omega, by simp only; omega⟩
    · have hok := hrun.irq
      unfold IrqPc.Ok at hok ⊢
      cases hirq : s.irq with
      | rb rxCnt txCnt =>
        rw [hirq] at hok
        obtain ⟨hlens, hrx, htx, hroom⟩ := hok
        refine ⟨hlens, ?_, htx, hroom⟩
        simp only [List.length_append]
        omega
      | spinRb rxCnt totalLen =>
        rw [hirq] at hok
        obtain ⟨hlens, htotal, hall, hrx⟩ := hok
        refine ⟨hlens, htotal, hall, ?_⟩
        simp only [List.length_append]
        omega
      | complete =>
        rw [hirq] at hok
        obtain ⟨-, -, -, hrx⟩ := hok
        have hs := hrun.stores
        have hm := h.data.miso_length
        exact absurd hgo.1 (by omega)
      | idle | status | wb txCnt | spin totalLen | clear =>
        rw [hirq] at hok
        exact hok

theorem Inv.irqEntry {s : SpiMaster} (h : Inv s) (hirq : s.irq = .idle)
    (hcall : ∀ i, s.pc = .wait i → s.ctrl.asserted = true ∨ s.Roomy) : Inv s.irqEntry := by
  have hok := h.ok
  unfold Ok at hok
  cases hpc : s.pc with
  | wait i =>
    rw [hpc] at hok
    obtain ⟨hi, hb, hcfg, hrun | hdone⟩ := hok
    · have hroomy : s.Roomy := by
        refine (hcall i hpc).elim (fun ha => Or.inl ?_) id
        rw [hrun.txFifo_of_asserted h.data hirq ha]
        decide
      have hnext := hrun.irqEntry h.data hb hirq hroomy
      have hsame : s.irqEntry = { s with irq := s.irqEntry.irq } := by
        unfold SpiMaster.irqEntry
        simp only
        split_ifs <;> rfl
      rw [hsame] at hnext ⊢
      refine ⟨{ h.data with }, ?_⟩
      simp only [Ok, hpc]
      exact ⟨hi, { hb with }, hcfg, Or.inl { hnext with }⟩
    · rw [irqEntry_eq_of_lens hdone.between.lens]
      exact h
  | loop i | readBack i | cpol i =>
    rw [hpc] at hok
    rw [irqEntry_eq_of_lens hok.2.2.lens]
    exact h
  | setupClk i | reinit i | bufs i | preload i n | config i | start i =>
    rw [hpc] at hok
    rw [irqEntry_eq_of_lens hok.2.1.lens]
    exact h
  | returned ret =>
    rw [hpc] at hok
    rw [irqEntry_eq_of_lens hok.2.lens]
    exact h

theorem startConfig_txEmp (config : UInt32) : startConfig config &&& txEmpFlagMask ≠ 0 := by
  intro h
  have hbit : (startConfig config &&& txEmpFlagMask).toBitVec.getLsbD 11 = true := by
    simp [startConfig, fdSel, finishFlagMask, txEmpFlagMask, rxFullFlagMask]
  rw [h] at hbit
  exact absurd hbit (by decide)

theorem Inv.xferNext {s t : SpiMaster} (h : Inv s) (hst : s.xferNext = some t) : Inv t := by
  have hd := h.data
  have hok := h.ok
  rcases s with ⟨xfer, clkRate, drv, ctrl, pc, irq, mosi, miso, reads, stores, completions⟩
  cases pc with
  | loop i =>
    obtain ⟨hi, hlast, hbt⟩ := hok
    simp only at hi hlast
    simp only [SpiMaster.xferNext] at hst
    split_ifs at hst with hle <;> cases hst
    · exact ⟨{ hd with }, hle, { hbt with }, rfl, rfl, rfl⟩
    · obtain rfl : i = xfer.len / spiDataSize + 1 := by omega
      simp only [SpiTransfer.before_last] at hbt
      exact ⟨{ hd with }, (if_neg (hlast rfl)).symm, { hbt with }⟩
  | setupClk i =>
    cases hst
    obtain ⟨hi, hbt, htx, hrx, hu⟩ := hok
    exact ⟨{ hd with }, hi, { hbt with }, htx, hrx, hu⟩
  | reinit i =>
    cases hst
    obtain ⟨hi, hbt, htx, hrx, hu⟩ := hok
    exact ⟨{ hd with }, hi, { hbt with }, htx, hrx, hu, rfl⟩
  | bufs i =>
    cases hst
    obtain ⟨hi, hbt, htx, hrx, hu, hdone⟩ := hok
    simp only at htx hu
    refine ⟨{ hd with }, hi, { hbt with reads := ?_ }, ⟨hu, rfl, rfl⟩, hrx, hdone, ?_⟩
    · rw [htx]
      exact hbt.reads
    · simp only [htx, hu]
      split_ifs <;> omega
  | preload i n =>
    obtain ⟨hi, hbt, hb, hrx, hdone, hlen⟩ := hok
    simp only at hlen
    cases n with
    | zero =>
      cases hst
      exact ⟨{ hd with }, hi, { hbt with }, { hb with }, hrx, hdone, hlen⟩
    | succ n =>
      cases hst
      have hk : drv.txBuf + drv.txCurLen = reads.length := by
        have hbuf : drv.txBuf = i * spiDataSize := hb.txBuf
        have hreads : reads.length = xfer.before i + drv.txCurLen := hbt.reads
        rw [hreads, hbuf, SpiTransfer.before_of_le hi]
      have hfree : ctrl.txFifo.length < fifoDataLen := by
        have hreads : reads.length = xfer.before i + drv.txCurLen := hbt.reads
        have hmiso : miso.length = xfer.before i := hbt.miso
        have hfifo : reads.length = miso.length + ctrl.txFifo.length := hd.reads_length
        omega
      have hd' := hd.wb hk hfree
      rw [wb_eq hk hfree] at hd' ⊢
      refine ⟨{ hd' with }, hi, { hbt with reads := ?_ }, { hb with }, hrx, hdone, ?_⟩
      · rw [List.length_append, hbt.reads, Nat.add_assoc]
        rfl
      · simp only
        omega
  | config i =>
    cases hst
    obtain ⟨hi, hbt, hb, hrx, hdone, hlen⟩ := hok
    exact ⟨{ hd with }, hi, { hbt with }, { hb with }, hrx, hdone, hlen, startConfig_txEmp _⟩
  | start i =>
    cases hst
    obtain ⟨hi, hbt, hb, hrx, hdone, hlen, hcfg⟩ := hok
    have hidle : irq = .idle := hbt.irq
    simp only at hrx hlen
    subst hidle
    refine ⟨{ hd with }, hi, { hb with }, hcfg, Or.inl ⟨?_, hbt.reads, ?_, ?_, hdone, fun _ => rfl,
      ⟨rfl, rfl⟩, ?_, ?_⟩⟩
    · rw [hrx]
      exact hbt.stores
    · exact congrArg (· + xfer.chunkLen i) hbt.miso
    · exact fun hfin => absurd (hbt.finish.symm.trans hfin) Bool.false_ne_true
    · simp only [hlen]
      exact Nat.min_le_right _ _
    · simp only [hlen, hrx]
      omega
  | wait i =>
    obtain ⟨hi, hb, hcfg, hrun | hdone⟩ := hok
    · have hzero : drv.isrDone = 0 := hrun.isrDone
      simp only [SpiMaster.xferNext, hzero] at hst
      cases hst
    · have hone : drv.isrDone = 1 := hdone.isrDone
      simp only [SpiMaster.xferNext, hone] at hst
      cases hst
      exact ⟨{ hd with }, hi, hdone.pos, { hdone.between with }⟩
  | readBack i =>
    obtain ⟨hi, hpos, hbt⟩ := hok
    have hfin : ctrl.status.finish = false := hbt.finish
    simp only [SpiMaster.xferNext, hfin] at hst
    cases hst
    exact ⟨{ hd with }, hi, hpos, { hbt with }⟩
  | cpol i =>
    obtain ⟨hi, hpos, hbt⟩ := hok
    simp only at hi hpos
    have hlast : i + 1 = xfer.len / spiDataSize + 1 → xfer.len % spiDataSize ≠ 0 := by
      intro heq
      have hlen : xfer.chunkLen i = xfer.len % spiDataSize := if_pos (by omega)
      omega
    simp only [SpiMaster.xferNext] at hst
    split_ifs at hst <;> cases hst
    · exact ⟨{ hd with }, Nat.succ_le_succ hi, hlast, { hbt with }⟩
    · exact ⟨{ hd with }, Nat.succ_le_succ hi, hlast, { hbt with }⟩
  | returned ret => cases hst

/-- A promised timeout ends a round of no bytes. -/
theorem Inv.timeout {s t : SpiMaster} (h : Inv s) (hp : Promised s .timeout)
    (hst : s.giveUp (fun _ => .returned (-etimedout)) = some t) : Inv t := by
  have hd := h.data
  have hok := h.ok
  rcases s with ⟨xfer, clkRate, drv, ctrl, pc, irq, mosi, miso, reads, stores, completions⟩
  cases pc with
  | wait i =>
    simp only [SpiMaster.giveUp] at hst
    split_ifs at hst with hzero
    cases hst
    have h0 : xfer.chunkLen i = 0 := hp i rfl
    obtain ⟨hi, hlen⟩ := SpiTransfer.chunkLen_eq_zero h0
    obtain ⟨hle, hb, hcfg, hrun | hdone⟩ := hok
    · have hidle : irq = .idle := hrun.empty h0
      have hirq := hrun.irq
      have hbefore : xfer.before i = xfer.len := by
        have hsucc := SpiTransfer.before_succ hle
        have hlast := @SpiTransfer.before_last xfer
        simp only [h0, Nat.add_zero] at hsucc
        rw [← hsucc, hi, hlast]
      subst hidle
      obtain ⟨⟨htx, htotal⟩, htxLen, -⟩ := hirq
      have hl := hrun.left
      have hs := hrun.stores
      have hr := hrun.reads
      have hmiso := hd.miso_length
      simp only [h0, hbefore] at hl hs hr htx htotal htxLen hmiso
      refine ⟨{ hd with }, (if_pos hlen).symm, rfl, ⟨htx, htotal⟩, ?_, ?_, ?_, ?_, ?_⟩
      · by_contra hfin
        have hpos := (hrun.finish ((Bool.not_eq_false _).mp hfin)).2
        exact absurd h0 (Nat.ne_of_gt hpos)
      · simp only
        omega
      · simp only
        omega
      · simp only
        omega
      · simp only
        omega
    · exact absurd h0 (Nat.ne_of_gt hdone.pos)
  | _ => cases hst

theorem Inv.step {spurious : Bool} {s t : SpiMaster} {e : SpiEvent} (h : Inv s)
    (hst : SpiMaster.step spurious s e = some t) (hp : Promised s e)
    (hcall : e = .irq → ∀ i, s.pc = .wait i → s.ctrl.asserted = true ∨ s.Roomy) : Inv t := by
  cases e with
  | shift b => exact h.shift hst
  | irq =>
    simp only [SpiMaster.step] at hst
    split at hst
    · rename_i hirq
      split_ifs at hst
      cases hst
      exact h.irqEntry hirq (hcall rfl)
    · cases hst
  | isr => exact h.isrNext hst
  | xfer => exact h.xferNext hst
  | timeout => exact h.timeout hp hst
  | signal => exact hp.elim

theorem inv_step {s t : SpiMaster} {e : SpiEvent} (h : Inv s)
    (hst : SpiMaster.step false s e = some t) (hp : Promised s e) : Inv t := by
  refine h.step hst hp fun he i _ => Or.inl ?_
  subst he
  simp only [SpiMaster.step, Bool.false_or] at hst
  split at hst
  · split_ifs at hst with ha
    exact ha
  · cases hst

end SpiMaster
end YoctoLayers.Sp7021
