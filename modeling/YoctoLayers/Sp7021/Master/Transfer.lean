import YoctoLayers.Sp7021.Master.Invariant

/-! A transfer comes to its end, and how. -/
namespace YoctoLayers.Sp7021
open YoctoLayers.Lib

/-- The handler's calls until `unwritten` bytes are in the FIFO, after one that is running. -/
def IrqPc.calls (unwritten : ℕ) : ℕ := if unwritten = 0 then 0 else 1000 * (unwritten + 1)

/-- A bound on the handler's work until a round completes. -/
def IrqPc.rank (unwritten unread : ℕ) : IrqPc → ℕ
  | .idle => 1000 * (unwritten + 1)
  | .rb rxCnt txCnt => calls (unwritten - txCnt) + 830 + rxCnt + 2 * txCnt
  | .wb txCnt => calls (unwritten - txCnt) + 820 + txCnt
  | .status => calls unwritten + 810
  | .spin _ => 3 * unread + 3
  | .spinRb 0 _ => 3 * unread + 4
  | .spinRb (_ + 1) _ => 3 * unread + 2
  | .clear => 2
  | .complete => 1

namespace SpiMaster

/-- The rank of the rounds after round `i`. -/
def rest (s : SpiMaster) (i : ℕ) : ℕ := 1000000 * (s.xfer.len / spiDataSize + 1 - i)

/-- A bound on the work until the transfer returns. -/
def rank (s : SpiMaster) : ℕ :=
  match s.pc with
  | .loop i => 1000000 * (s.xfer.len / spiDataSize + 2 - i)
  | .setupClk i => s.rest i + 900003
  | .reinit i => s.rest i + 900002
  | .bufs i => s.rest i + 900001
  | .preload i n => s.rest i + 800002 + n
  | .config i => s.rest i + 800001
  | .start i => s.rest i + 800000
  | .wait i =>
    if s.drv.isrDone = 0 then
      s.rest i + 10 + s.ctrl.left + s.irq.rank (s.xfer.chunkLen i - s.drv.txCurLen)
        (s.xfer.chunkLen i - s.drv.rxCurLen)
    else s.rest i + 10
  | .readBack i => s.rest i + 9
  | .cpol i => s.rest i + 8
  | .returned _ => 0

/-- The transfer has returned. -/
def Returned (s : SpiMaster) : Prop := ∃ ret, s.pc = .returned ret

theorem rank_wait {s : SpiMaster} {i : ℕ} (hpc : s.pc = .wait i) (hdone : s.drv.isrDone = 0) :
    s.rank = s.rest i + 10 + s.ctrl.left + s.irq.rank (s.xfer.chunkLen i - s.drv.txCurLen)
      (s.xfer.chunkLen i - s.drv.rxCurLen) := by
  simp only [rank, hpc, hdone, if_true]

theorem rank_lt {s t : SpiMaster} {i : ℕ} (hs : s.pc = .wait i) (ht : t.pc = .wait i)
    (hx : t.xfer = s.xfer) (hsd : s.drv.isrDone = 0) (htd : t.drv.isrDone = 0)
    (h : t.ctrl.left + t.irq.rank (s.xfer.chunkLen i - t.drv.txCurLen)
        (s.xfer.chunkLen i - t.drv.rxCurLen) <
      s.ctrl.left + s.irq.rank (s.xfer.chunkLen i - s.drv.txCurLen)
        (s.xfer.chunkLen i - s.drv.rxCurLen)) : t.rank < s.rank := by
  rw [rank_wait hs hsd, rank_wait ht htd]
  simp only [SpiMaster.rest, hx]
  omega

theorem calls_le (u : ℕ) : IrqPc.calls u ≤ 1000 * (u + 1) := by
  unfold IrqPc.calls
  split_ifs <;> omega

theorem rb_left (s : SpiMaster) : s.rb.ctrl.left = s.ctrl.left := by
  simp only [SpiMaster.rb, SpiCtrl.readFifo]
  cases s.ctrl.rxFifo <;> rfl

theorem wb_left (s : SpiMaster) : s.wb.ctrl.left = s.ctrl.left := by
  simp only [SpiMaster.wb, SpiCtrl.writeFifo]
  split_ifs <;> rfl

theorem Running.shift {s : SpiMaster} {i : ℕ} (h : Running s i) (hd : Data s)
    (hpc : s.pc = .wait i) (hne : s.ctrl.txFifo ≠ []) (htx : s.drv.txCurLen ≤ s.xfer.chunkLen i)
    (hroom : s.ctrl.rxFifo.length < fifoDataLen) :
    ∃ t, s.shift 0 = some t ∧ t.rank < s.rank := by
  have hreads := hd.reads_length
  have hr := h.reads
  have hl := h.left
  have hlen := List.length_pos_iff.mpr hne
  obtain ⟨out, rest, hfifo⟩ := List.exists_cons_of_ne_nil hne
  have hgo : 0 < s.ctrl.left ∧ s.ctrl.rxFifo.length < fifoDataLen := ⟨by omega, hroom⟩
  simp only [SpiMaster.shift, hfifo, if_pos hgo]
  refine ⟨_, rfl, rank_lt hpc hpc rfl h.isrDone h.isrDone (Nat.add_lt_add_right ?_ _)⟩
  exact Nat.sub_lt hgo.1 Nat.one_pos

/-- A call of the handler leaves less to do, if its own steps are counted in advance. -/
theorem rank_irqEntry {u unread rxCnt : ℕ} (hrx : rxCnt ≤ fifoDataLen) :
    (IrqPc.rb rxCnt (min u fifoDataLen)).rank u unread < IrqPc.idle.rank u unread := by
  have hfifo : fifoDataLen = 16 := rfl
  simp only [IrqPc.rank]
  rcases Nat.eq_zero_or_pos u with rfl | hu
  · rw [Nat.zero_min, Nat.sub_zero]
    simp only [IrqPc.calls, if_true]
    omega
  · have hle := calls_le (u - min u fifoDataLen)
    omega

theorem exists_isrNext {s : SpiMaster} (hirq : s.irq ≠ .idle) : ∃ t, s.isrNext = some t := by
  unfold SpiMaster.isrNext
  cases hpc : s.irq with
  | idle => exact absurd hpc hirq
  | rb n _ | wb n | spinRb n _ => cases n <;> exact ⟨_, rfl⟩
  | status | spin _ =>
    simp only
    split_ifs <;> exact ⟨_, rfl⟩
  | clear | complete => exact ⟨_, rfl⟩

/-- A step of the handler leaves less to do, unless it waits for bytes that are on their way. -/
theorem Round.rank_isrNext {s t : SpiMaster} {i : ℕ} (h : Round s i) (hst : s.isrNext = some t)
    (hspin : ∀ totalLen, s.irq = .spin totalLen → totalLen ≠ s.drv.rxCurLen →
      s.ctrl.rxFifo ≠ []) : t.rank < s.rank := by
  have hok := h.running.irq
  have hreads := h.data.reads_length
  have hmiso := h.data.miso_length
  have hr := h.running.reads
  have hs := h.running.stores
  have hl := h.running.left
  have hpc := h.pc
  have hdone := h.running.isrDone
  have hchunk := @SpiTransfer.chunkLen_le s.xfer i
  have hsize : spiDataSize = 255 := rfl
  cases hirq : s.irq with
  | idle =>
    simp only [SpiMaster.isrNext, hirq] at hst
    cases hst
  | rb rxCnt txCnt =>
    cases rxCnt with
    | zero =>
      simp only [SpiMaster.isrNext, hirq] at hst
      cases hst
      refine rank_lt hpc hpc rfl hdone hdone ?_
      simp only [hirq, IrqPc.rank]
      omega
    | succ n =>
      simp only [SpiMaster.isrNext, hirq] at hst
      cases hst
      refine rank_lt hpc hpc rfl hdone hdone ?_
      simp only [hirq, rb_left, IrqPc.rank]
      change _ + (IrqPc.calls (s.xfer.chunkLen i - s.drv.txCurLen - txCnt) + _ + _ + _) < _
      omega
  | wb txCnt =>
    rw [hirq] at hok
    obtain ⟨hlens, htx, hroom⟩ := hok
    cases txCnt with
    | zero =>
      simp only [SpiMaster.isrNext, hirq] at hst
      cases hst
      refine rank_lt hpc hpc rfl hdone hdone ?_
      simp only [hirq, IrqPc.rank, Nat.sub_zero]
      omega
    | succ n =>
      simp only [SpiMaster.isrNext, hirq] at hst
      cases hst
      refine rank_lt hpc hpc rfl hdone hdone ?_
      have hsub : s.xfer.chunkLen i - (s.drv.txCurLen + 1) - n =
          s.xfer.chunkLen i - s.drv.txCurLen - (n + 1) := by omega
      simp only [hirq, wb_left, IrqPc.rank]
      change _ + (IrqPc.calls (s.xfer.chunkLen i - (s.drv.txCurLen + 1) - n) + _ + _) < _
      rw [hsub]
      omega
  | status =>
    rw [hirq] at hok
    obtain ⟨⟨htxLen, htotal⟩, htx, hroom⟩ := hok
    simp only [SpiMaster.isrNext, hirq] at hst
    split_ifs at hst with hlast <;> cases hst
    · refine rank_lt hpc hpc rfl hdone hdone ?_
      simp only [hirq, IrqPc.rank]
      omega
    · refine rank_lt hpc hpc rfl hdone hdone ?_
      have hmore : s.xfer.chunkLen i - s.drv.txCurLen ≠ 0 := by
        intro h0
        refine hlast (Or.inr ?_)
        change s.ctrl.txLen = _
        omega
      simp only [hirq, IrqPc.rank, IrqPc.calls, if_neg hmore]
      omega
  | spin totalLen =>
    rw [hirq] at hok
    obtain ⟨hlens, htotal, hall⟩ := hok
    simp only [SpiMaster.isrNext, hirq] at hst
    split_ifs at hst with hmore <;> cases hst
    · obtain ⟨b, rest, hrx⟩ := List.exists_cons_of_ne_nil (hspin totalLen hirq hmore)
      have hcnt := rxCnt_eq h.data h.bufs.dataUnit
      rw [hrx, List.length_cons] at hcnt
      refine rank_lt hpc hpc rfl hdone hdone ?_
      simp only [hirq, hcnt, IrqPc.rank]
      omega
    · refine rank_lt hpc hpc rfl hdone hdone ?_
      simp only [hirq, IrqPc.rank]
      omega
  | spinRb rxCnt totalLen =>
    rw [hirq] at hok
    obtain ⟨hlens, htotal, hall, hrx⟩ := hok
    cases rxCnt with
    | zero =>
      simp only [SpiMaster.isrNext, hirq] at hst
      cases hst
      refine rank_lt hpc hpc rfl hdone hdone ?_
      simp only [hirq, IrqPc.rank]
      omega
    | succ n =>
      simp only [SpiMaster.isrNext, hirq] at hst
      cases hst
      refine rank_lt hpc hpc rfl hdone hdone ?_
      have hunread : s.drv.rxCurLen + 1 ≤ s.xfer.chunkLen i := by omega
      simp only [hirq, rb_left]
      change _ + (IrqPc.spinRb n totalLen).rank _ (s.xfer.chunkLen i - (s.drv.rxCurLen + 1)) < _
      cases n <;> simp only [IrqPc.rank] <;> omega
  | clear =>
    simp only [SpiMaster.isrNext, hirq] at hst
    cases hst
    refine rank_lt hpc hpc rfl hdone hdone ?_
    simp only [hirq, IrqPc.rank, SpiCtrl.clearFinish]
    omega
  | complete =>
    simp only [SpiMaster.isrNext, hirq] at hst
    cases hst
    rw [rank_wait hpc hdone]
    simp only [rank, hpc, hirq, IrqPc.rank, if_neg (Nat.succ_ne_zero _), SpiMaster.rest]
    omega

/-- Between the handler's calls either the FIFO has bytes to shift or the line is asserted. -/
theorem Round.progress_idle {s : SpiMaster} {i : ℕ} (h : Round s i) (hirq : s.irq = .idle)
    (hpos : 0 < s.xfer.chunkLen i) :
    ∃ e t, SpiMaster.step false s e = some t ∧ Promised s e ∧ t.rank < s.rank := by
  have hok := h.running.irq
  rw [hirq] at hok
  obtain ⟨-, hle, hroom⟩ := hok
  have hreads := h.data.reads_length
  have hmiso := h.data.miso_length
  have hr := h.running.reads
  have hs := h.running.stores
  have hdone := h.running.isrDone
  by_cases hemp : s.ctrl.txFifo = []
  · have ha : s.ctrl.asserted = true := by
      simp [SpiCtrl.asserted, SpiCtrl.status, hemp, h.config]
    have hstep : SpiMaster.step false s .irq = some s.irqEntry := by
      simp only [SpiMaster.step, hirq, Bool.false_or, ha, if_true]
    refine ⟨.irq, _, hstep, trivial, ?_⟩
    have hroomy : s.Roomy := Or.inl (by rw [hemp]; decide)
    rw [irqEntry_eq h.running h.data h.bufs hirq hroomy hpos, hemp]
    refine rank_lt h.pc h.pc rfl hdone hdone (Nat.add_lt_add_left ?_ _)
    rw [hirq]
    exact rank_irqEntry h.data.room
  · have hlen := List.length_pos_iff.mpr hemp
    obtain ⟨t, ht, hlt⟩ := h.running.shift h.data h.pc hemp hle (by omega)
    exact ⟨.shift 0, t, ht, trivial, hlt⟩

/-- A round of at least one byte goes on. -/
theorem Round.progress {s : SpiMaster} {i : ℕ} (h : Round s i) (hpos : 0 < s.xfer.chunkLen i) :
    ∃ e t, SpiMaster.step false s e = some t ∧ Promised s e ∧ t.rank < s.rank := by
  by_cases hirq : s.irq = .idle
  · exact h.progress_idle hirq hpos
  by_cases hstuck : ∃ totalLen, s.irq = .spin totalLen ∧ totalLen ≠ s.drv.rxCurLen ∧
      s.ctrl.rxFifo = []
  · obtain ⟨totalLen, hspin, hmore, hrx⟩ := hstuck
    have hok := h.running.irq
    rw [hspin] at hok
    obtain ⟨-, htotal, hall⟩ := hok
    have hreads := h.data.reads_length
    have hmiso := h.data.miso_length
    have hr := h.running.reads
    have hs := h.running.stores
    have hl := h.running.left
    rw [hrx, List.length_nil] at hmiso
    have hne : s.ctrl.txFifo ≠ [] := by
      apply List.length_pos_iff.mp
      omega
    obtain ⟨t, ht, hlt⟩ :=
      h.running.shift h.data h.pc hne (Nat.le_of_eq hall) (by rw [hrx]; decide)
    exact ⟨.shift 0, t, ht, trivial, hlt⟩
  · obtain ⟨t, hst⟩ := exists_isrNext hirq
    refine ⟨.isr, t, hst, trivial, h.rank_isrNext hst fun totalLen hspin hmore hrx => ?_⟩
    exact hstuck ⟨totalLen, hspin, hmore, hrx⟩

/-- A transfer that has not returned goes on. -/
theorem Inv.progress {s : SpiMaster} (h : Inv s) (hret : ¬ Returned s) :
    ∃ e t, SpiMaster.step false s e = some t ∧ Promised s e ∧ t.rank < s.rank := by
  have hok := h.ok
  unfold Ok at hok
  cases hpc : s.pc with
  | wait i =>
    rw [hpc] at hok
    obtain ⟨hi, hb, hcfg, hrun | hdone⟩ := hok
    · rcases Nat.eq_zero_or_pos (s.xfer.chunkLen i) with h0 | hpos
      · refine ⟨.timeout, { s with pc := .returned (-etimedout) }, ?_, ?_, ?_⟩
        · simp only [SpiMaster.step, SpiMaster.giveUp, hpc, hrun.isrDone, if_true]
        · intro j hj
          obtain rfl : i = j := XferPc.wait.inj (hpc.symm.trans hj)
          exact h0
        · rw [rank_wait hpc hrun.isrDone]
          exact Nat.lt_of_lt_of_le (Nat.add_pos_right _ (by decide : 0 < 10))
            (Nat.le_trans (Nat.le_add_right _ _) (Nat.le_add_right _ _))
      · exact Round.progress ⟨hpc, hi, hb, hcfg, hrun, h.data⟩ hpos
    · refine ⟨.xfer, { s with drv := { s.drv with isrDone := 0 }, pc := .readBack i }, ?_, trivial,
        ?_⟩
      · simp only [SpiMaster.step, SpiMaster.xferNext, hpc, hdone.isrDone]
        rfl
      · have hone : s.drv.isrDone ≠ 0 := by
          rw [hdone.isrDone]
          decide
        simp only [rank, hpc, if_neg hone, SpiMaster.rest]
        omega
  | loop i =>
    rw [hpc] at hok
    obtain ⟨hi, hlast, hbt⟩ := hok
    by_cases hle : i ≤ s.xfer.len / spiDataSize
    · refine ⟨.xfer, _, by simp only [SpiMaster.step, SpiMaster.xferNext, hpc, if_pos hle]; rfl,
        trivial, ?_⟩
      simp only [rank, hpc, SpiMaster.rest]
      omega
    · refine ⟨.xfer, _, by simp only [SpiMaster.step, SpiMaster.xferNext, hpc, if_neg hle]; rfl,
        trivial, ?_⟩
      simp only [rank, hpc]
      omega
  | setupClk i | reinit i | config i =>
    refine ⟨.xfer, _, by simp only [SpiMaster.step, SpiMaster.xferNext, hpc]; rfl, trivial, ?_⟩
    simp only [rank, hpc, SpiMaster.rest]
    omega
  | bufs i =>
    rw [hpc] at hok
    obtain ⟨hi, hbt, htx, hrx, hu, hdone⟩ := hok
    refine ⟨.xfer, _, by simp only [SpiMaster.step, SpiMaster.xferNext, hpc]; rfl, trivial, ?_⟩
    have hfifo : fifoDataLen = 16 := rfl
    simp only [rank, hpc, SpiMaster.rest, hu]
    split_ifs <;> omega
  | preload i n =>
    cases n with
    | zero =>
      refine ⟨.xfer, _, by simp only [SpiMaster.step, SpiMaster.xferNext, hpc]; rfl, trivial, ?_⟩
      simp only [rank, hpc, SpiMaster.rest]
      omega
    | succ n =>
      refine ⟨.xfer, { s.wb with pc := .preload i n }, ?_, trivial, ?_⟩
      · simp only [SpiMaster.step, SpiMaster.xferNext, hpc]
      · simp only [rank, hpc]
        exact Nat.lt_succ_self _
  | start i =>
    rw [hpc] at hok
    obtain ⟨hi, hbt, hb, hrx, hdone, hlen, hcfg⟩ := hok
    refine ⟨.xfer, { s with ctrl := s.ctrl.start (s.xfer.chunkLen i), pc := .wait i }, ?_, trivial,
      ?_⟩
    · simp only [SpiMaster.step, SpiMaster.xferNext, hpc]
    · have hchunk := @SpiTransfer.chunkLen_le s.xfer i
      have hsize : spiDataSize = 255 := rfl
      simp only [rank, hpc, hdone, if_true, SpiMaster.rest, SpiCtrl.start, hbt.irq, IrqPc.rank]
      omega
  | readBack i =>
    rw [hpc] at hok
    obtain ⟨hi, hpos, hbt⟩ := hok
    refine ⟨.xfer, { s with pc := .cpol i }, ?_, trivial, ?_⟩
    · simp only [SpiMaster.step, SpiMaster.xferNext, hpc, SpiCtrl.status, hbt.finish]
      rfl
    · simp only [rank, hpc, SpiMaster.rest]
      omega
  | cpol i =>
    rw [hpc] at hok
    obtain ⟨hi, hpos, hbt⟩ := hok
    by_cases hcpol : s.drv.xferConf &&& cpolFd ≠ 0
    · refine ⟨.xfer, _, by simp only [SpiMaster.step, SpiMaster.xferNext, hpc, if_pos hcpol]; rfl,
        trivial, ?_⟩
      simp only [rank, hpc, SpiMaster.rest]
      omega
    · refine ⟨.xfer, _, by simp only [SpiMaster.step, SpiMaster.xferNext, hpc, if_neg hcpol]; rfl,
        trivial, ?_⟩
      simp only [rank, hpc, SpiMaster.rest]
      omega
  | returned ret => exact absurd ⟨ret, hpc⟩ hret

/-- The whole buffer went out, in order, and what came in is stored, in order. -/
structure Transferred (s : SpiMaster) (xfer : SpiTransfer) : Prop where
  mosi : s.mosi = (List.range xfer.len).map xfer.txBuf
  miso : s.miso.length = xfer.len
  stores : s.stores = (List.range xfer.len).zip s.miso
  reads : s.reads = List.range xfer.len

/-- The first `n` bytes of the buffer went out, in order, and what came in for them is stored, in
order. -/
structure Moved (s : SpiMaster) (n : ℕ) : Prop where
  mosi : s.mosi = (List.range n).map s.xfer.txBuf
  miso : s.miso.length = n
  stores : s.stores = (List.range n).zip s.miso

theorem Between.moved {s : SpiMaster} {n : ℕ} (h : Between s n n) (hd : Data s) : Moved s n := by
  have hreads := hd.reads_length
  have hmiso := hd.miso_length
  rw [h.reads, h.miso] at hreads
  rw [h.miso, h.stores] at hmiso
  have htx : s.ctrl.txFifo = [] := List.length_eq_zero_iff.mp (by omega)
  have hrx : s.ctrl.rxFifo = [] := List.length_eq_zero_iff.mp (by omega)
  have hout := hd.out
  have hinn := hd.inn
  rw [htx, List.append_nil, hd.reads, h.reads] at hout
  rw [hrx, List.append_nil] at hinn
  refine ⟨hout, h.miso, ?_⟩
  rw [← hinn, ← h.stores, ← hd.stores]
  exact List.zip_of_prod rfl rfl

theorem Inv.transferred {s : SpiMaster} (h : Inv s) {ret : ℤ} (hpc : s.pc = .returned ret) :
    Transferred s s.xfer := by
  have hd := h.data
  have hok := h.ok
  simp only [Ok, hpc] at hok
  obtain ⟨-, hbt⟩ := hok
  obtain ⟨hmosi, hmiso, hstores⟩ := hbt.moved hd
  refine ⟨hmosi, hmiso, hstores, ?_⟩
  rw [hd.reads, hbt.reads]

theorem step_xfer {spurious : Bool} {s t : SpiMaster} {e : SpiEvent}
    (hst : SpiMaster.step spurious s e = some t) : t.xfer = s.xfer := by
  cases e with
  | shift b =>
    simp only [SpiMaster.step, SpiMaster.shift] at hst
    split at hst
    · cases hst
    · split_ifs at hst
      cases hst
      rfl
  | irq =>
    simp only [SpiMaster.step, SpiMaster.irqEntry] at hst
    split at hst
    · split_ifs at hst <;> cases hst <;> rfl
    · cases hst
  | isr =>
    simp only [SpiMaster.step, SpiMaster.isrNext] at hst
    split at hst <;> try split_ifs at hst
    all_goals cases hst
    all_goals rfl
  | xfer =>
    simp only [SpiMaster.step, SpiMaster.xferNext] at hst
    split at hst <;> try split_ifs at hst
    all_goals cases hst
    all_goals rfl
  | timeout | signal =>
    simp only [SpiMaster.step, SpiMaster.giveUp] at hst
    split at hst
    · split_ifs at hst
      cases hst
      rfl
    · cases hst

variable (xfer : SpiTransfer) (clkRate : UInt32) (drv : SpiDriver) (config : UInt32)

/-- A promised run. -/
def PromisedRun (es : List SpiEvent) (s : SpiMaster) : Prop :=
  (master false xfer clkRate drv config).Along (fun s e _ => Promised s e)
      (SpiMaster.init xfer clkRate drv config) es ∧
    (master false xfer clkRate drv config).runFrom (SpiMaster.init xfer clkRate drv config) es =
      some s

variable {xfer clkRate drv config}

theorem PromisedRun.inv {es : List SpiEvent} {s : SpiMaster}
    (h : PromisedRun xfer clkRate drv config es s) : Inv s ∧ s.xfer = xfer :=
  Sys.Along.invariant (I := fun s => Inv s ∧ s.xfer = xfer)
    (fun hi hst hp => ⟨inv_step hi.1 hst hp, (step_xfer hst).trans hi.2⟩)
    ⟨inv_init xfer clkRate drv config, rfl⟩ h.1 h.2

theorem PromisedRun.returns {es : List SpiEvent} {s : SpiMaster}
    (h : PromisedRun xfer clkRate drv config es s) :
    ∃ fs t, PromisedRun xfer clkRate drv config (es ++ fs) t ∧ Returned t := by
  obtain ⟨fs, t, ha, ht, hret⟩ := Sys.exists_run_of_rank (S := master false xfer clkRate drv config)
    (Q := fun s e _ => Promised s e) (G := Returned) rank (fun hi hst hp => inv_step hi hst hp)
    (fun hi hret => hi.progress hret) h.inv.1
  refine ⟨fs, t, ⟨h.1.append h.2 ha, ?_⟩, hret⟩
  rw [Sys.runFrom_append, h.2]
  exact ht

/-- What the call returns. -/
theorem PromisedRun.ret {es : List SpiEvent} {s : SpiMaster} {ret : ℤ}
    (h : PromisedRun xfer clkRate drv config es s) (hpc : s.pc = .returned ret) :
    ret = if xfer.len % spiDataSize = 0 then -etimedout else 0 := by
  obtain ⟨hi, hx⟩ := h.inv
  have hok := hi.ok
  simp only [Ok, hpc, hx] at hok
  exact hok.1

end SpiMaster

/-- With no signal, and the rounds of at least one byte never timing out, the call can always be
brought to its end, and returns 0 with the whole buffer sent and as many bytes stored, if and
only if the length is no multiple of 255. -/
theorem transferOne_ok_iff (xfer : SpiTransfer) (clkRate : UInt32) (drv : SpiDriver)
    (config : UInt32) :
    (∀ es s, SpiMaster.PromisedRun xfer clkRate drv config es s →
      (∃ fs t, SpiMaster.PromisedRun xfer clkRate drv config (es ++ fs) t ∧ t.Returned) ∧
      ∀ ret, s.pc = .returned ret → ret = 0 ∧ s.Transferred xfer) ↔
    xfer.len % spiDataSize ≠ 0 := by
  constructor
  · intro h hlen
    have hnil : SpiMaster.PromisedRun xfer clkRate drv config []
      (SpiMaster.init xfer clkRate drv config) := ⟨trivial, rfl⟩
    obtain ⟨fs, t, hrun, ret, hpc⟩ := hnil.returns
    have hzero := ((h _ t hrun).2 ret hpc).1
    have hret := hrun.ret hpc
    rw [hzero, if_pos hlen] at hret
    exact absurd hret (by decide)
  · intro hlen es s hrun
    refine ⟨hrun.returns, fun ret hpc => ?_⟩
    have hret := hrun.ret hpc
    rw [if_neg hlen] at hret
    obtain ⟨hi, hx⟩ := hrun.inv
    exact ⟨hret, hx ▸ hi.transferred hpc⟩

/-- A transfer of 255 bytes: a second round is started for the zero bytes left. -/
def transfer255 : SpiTransfer where
  txBuf := UInt8.ofNat
  len := 255
  speedHz := 1000000

/-- All its bytes are sent and stored, and it returns `-ETIMEDOUT`. -/
theorem transferOne_times_out_255 : ∃ es s,
    SpiMaster.PromisedRun transfer255 202500000 ⟨0, 0, 0, 0, 0, 0, 0⟩ 0 es s ∧
      s.pc = .returned (-etimedout) ∧ s.mosi = (List.range 255).map UInt8.ofNat := by
  have hnil : SpiMaster.PromisedRun transfer255 202500000 ⟨0, 0, 0, 0, 0, 0, 0⟩ 0 [] _ :=
    ⟨trivial, rfl⟩
  obtain ⟨fs, t, hrun, ret, hpc⟩ := hnil.returns
  have hret : ret = -etimedout := hrun.ret hpc
  obtain ⟨hi, hx⟩ := hrun.inv
  have hdata := (hi.transferred hpc).mosi
  rw [hx] at hdata
  exact ⟨_, t, hrun, hret ▸ hpc, hdata⟩

end YoctoLayers.Sp7021
