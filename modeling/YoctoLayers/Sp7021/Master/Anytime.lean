import YoctoLayers.Lib.Fair
import YoctoLayers.Sp7021.Master.Signals

/-! The handler called at any time of a round, whether the controller asks for it or not. -/
namespace YoctoLayers.Sp7021
open YoctoLayers.Lib
namespace SpiMaster

/-- The step is promised, and the handler is not called in a round with the TX FIFO full and
bytes of the round still to be written. -/
def Timely (s : SpiMaster) (e : SpiEvent) : Prop :=
  Promised s e ∧ (e = .irq → ∀ i, s.pc = .wait i → s.Roomy)

/-- The handler's next access of a FIFO and of a buffer. -/
def AccessOk (s : SpiMaster) : Prop :=
  match s.irq with
  | .wb (_ + 1) => ∃ i, s.pc = .wait i ∧
      s.ctrl.txFifo.length < fifoDataLen ∧ s.drv.txCurLen < s.xfer.chunkLen i
  | .rb (_ + 1) _ | .spinRb (_ + 1) _ => ∃ i, s.pc = .wait i ∧
      s.ctrl.rxFifo ≠ [] ∧ s.drv.rxCurLen < s.xfer.chunkLen i
  | _ => True

/-- `isr_done` is completed exactly when the handler is back with all bytes up to the end of the
round sent, and stored. -/
def CompletedOk (s : SpiMaster) : Prop :=
  ∀ i, s.pc = .wait i → 0 < s.xfer.chunkLen i →
    (0 < s.drv.isrDone ↔ s.irq = .idle ∧ Moved s (s.xfer.before (i + 1)))

/-- The handler is in its `while` loop. -/
def InLoop (s : SpiMaster) : Prop :=
  match s.irq with
  | .spin _ | .spinRb _ _ => True
  | _ => False

/-- Between two calls of the handler in a round, bytes of it are still to be stored. -/
def Unfinished (s : SpiMaster) : Prop :=
  ∀ i, s.pc = .wait i → s.irq = .idle → s.drv.isrDone = 0 → 0 < s.xfer.chunkLen i →
    s.drv.rxCurLen < s.xfer.chunkLen i

variable {spurious : Bool} {s t : SpiMaster} {e : SpiEvent}

/-- The bytes of a round that are not stored yet are in the FIFO or still to be shifted. -/
theorem Running.unread {i : ℕ} (h : Running s i) (hd : Data s) :
    s.drv.rxCurLen + s.ctrl.rxFifo.length + s.ctrl.left = s.xfer.chunkLen i := by
  have hmiso := hd.miso_length
  have hs := h.stores
  have hl := h.left
  omega

/-- The bytes of a round that are not written yet are behind those in the FIFO. -/
theorem Running.unwritten {i : ℕ} (h : Running s i) (hd : Data s) :
    s.drv.txCurLen + s.ctrl.left = s.xfer.chunkLen i + s.ctrl.txFifo.length := by
  have hreads := hd.reads_length
  have hr := h.reads
  have hl := h.left
  omega

theorem Inv.accessOk (h : Inv s) : AccessOk s := by
  unfold AccessOk
  split
  · rename_i n hirq
    obtain ⟨i, hpc, hi, hb, hcfg, hrun⟩ := h.ok.running fun hidle => nomatch hidle.symm.trans hirq
    have hok := hrun.irq
    have hun := hrun.unread h.data
    have hw := hrun.unwritten h.data
    rw [hirq] at hok
    obtain ⟨hlens, htx, hroom⟩ := hok
    exact ⟨i, hpc, by omega, by omega⟩
  · rename_i n txCnt hirq
    obtain ⟨i, hpc, hi, hb, hcfg, hrun⟩ := h.ok.running fun hidle => nomatch hidle.symm.trans hirq
    have hok := hrun.irq
    have hun := hrun.unread h.data
    rw [hirq] at hok
    obtain ⟨hlens, hrx, -⟩ := hok
    exact ⟨i, hpc, List.length_pos_iff.mp (by omega), by omega⟩
  · rename_i n totalLen hirq
    obtain ⟨i, hpc, hi, hb, hcfg, hrun⟩ := h.ok.running fun hidle => nomatch hidle.symm.trans hirq
    have hok := hrun.irq
    have hun := hrun.unread h.data
    rw [hirq] at hok
    obtain ⟨hlens, -, -, hrx⟩ := hok
    exact ⟨i, hpc, List.length_pos_iff.mp (by omega), by omega⟩
  · trivial

theorem Inv.completedOk (h : Inv s) (hu : Unfinished s) : CompletedOk s := by
  intro i hpc hpos
  have hok := h.ok
  simp only [Ok, hpc] at hok
  obtain ⟨hi, hb, hcfg, hrun | hdone⟩ := hok
  · have hzero := hrun.isrDone
    constructor
    · intro hone
      omega
    · rintro ⟨hirq, hmoved⟩
      have hlt := hu i hpc hirq hzero hpos
      have hs := hrun.stores
      have hlen := congrArg List.length hmoved.stores
      rw [List.length_zip, List.length_range, hmoved.miso, Nat.min_self,
        SpiTransfer.before_succ hi] at hlen
      omega
  · constructor
    · exact fun _ => ⟨hdone.between.irq, hdone.between.moved h.data⟩
    · intro _
      rw [hdone.isrDone]
      exact Nat.one_pos

/-- The handler comes back by a completion, or with bytes of the round still to be written. -/
theorem isrNext_idle (hst : s.isrNext = some t) (hidle : t.irq = .idle) :
    t.drv.isrDone = s.drv.isrDone + 1 ∨
      s.irq = .status ∧ s.ctrl.txLen ≠ s.drv.txCurLen ∧ t = { s with irq := .idle } := by
  cases hirq : s.irq with
  | idle =>
    simp only [SpiMaster.isrNext, hirq] at hst
    cases hst
  | complete =>
    simp only [SpiMaster.isrNext, hirq] at hst
    cases hst
    exact Or.inl rfl
  | status =>
    simp only [SpiMaster.isrNext, hirq] at hst
    split_ifs at hst with hlast <;> cases hst
    · cases hidle
    · exact Or.inr ⟨rfl, fun heq => hlast (Or.inr heq), rfl⟩
  | clear =>
    simp only [SpiMaster.isrNext, hirq] at hst
    cases hst
    cases hidle
  | rb n _ | wb n | spinRb n _ =>
    cases n <;> simp only [SpiMaster.isrNext, hirq] at hst <;> cases hst <;> cases hidle
  | spin _ =>
    simp only [SpiMaster.isrNext, hirq] at hst
    split_ifs at hst <;> cases hst <;> cases hidle

theorem Unfinished.isrNext (h : Inv s) (hst : s.isrNext = some t) : Unfinished t := by
  intro i hpc hidle hzero hpos
  rcases isrNext_idle hst hidle with hone | ⟨hirq, hmore, rfl⟩
  · omega
  · obtain ⟨j, hj, hi, hb, hcfg, hrun⟩ := h.ok.running fun hnot => nomatch hnot.symm.trans hirq
    obtain rfl : j = i := XferPc.wait.inj (hj.symm.trans hpc)
    have hok := hrun.irq
    have hun := hrun.unread h.data
    have hw := hrun.unwritten h.data
    rw [hirq] at hok
    obtain ⟨⟨htx, htotal⟩, hle, hroom⟩ := hok
    simp only
    omega

theorem Unfinished.xferNext (h : Inv s) (hst : s.xferNext = some t) : Unfinished t := by
  have hok := h.ok
  intro i hpc hidle hzero hpos
  unfold SpiMaster.xferNext at hst
  split at hst <;> try split_ifs at hst
  all_goals cases hst
  all_goals cases hpc
  rename_i hstart
  simp only [Ok, hstart] at hok
  obtain ⟨hi, hbt, hb, hrx, -⟩ := hok
  simp only [hrx]
  exact hpos

theorem Unfinished.step (hu : Unfinished s) (h : Inv s)
    (hst : SpiMaster.step spurious s e = some t) : Unfinished t := by
  cases e with
  | shift b =>
    obtain ⟨ctrl, mosi, miso, rfl, -, -⟩ := shift_frame hst
    exact hu
  | irq =>
    simp only [SpiMaster.step] at hst
    split at hst
    · split_ifs at hst
      cases hst
      rcases irqEntry_cases s with heq | ⟨rxCnt, txCnt, heq⟩ <;> rw [heq]
      · exact hu
      · rintro i _ ⟨⟩
    · cases hst
  | isr => exact Unfinished.isrNext h hst
  | xfer => exact Unfinished.xferNext h hst
  | timeout | signal =>
    simp only [SpiMaster.step, SpiMaster.giveUp] at hst
    split at hst
    · split_ifs at hst
      cases hst
      rintro i ⟨⟩
    · cases hst

/-- The steps of the loop up to the next poll that finds bytes, or all bytes stored. -/
def polls (s : SpiMaster) : ℕ :=
  match s.irq with
  | .spin _ => if s.ctrl.rxFifo = [] then 0 else 1
  | .spinRb 0 _ => if s.ctrl.rxFifo = [] ∧ s.drv.rxCurLen ≠ s.ctrl.totalLen then 0 else 2
  | _ => 0

/-- A bound on the loop's work, but for the polls of an empty FIFO. -/
def loopRank (s : SpiMaster) : ℕ :=
  3 * s.ctrl.left + 3 * (s.ctrl.totalLen - s.drv.rxCurLen) + s.polls

theorem polls_le (s : SpiMaster) : s.polls ≤ 2 := by
  unfold polls
  split <;> try split_ifs
  all_goals omega

/-- In the loop the handler polls until the last byte of the round is stored. -/
theorem InLoop.running (h : Inv s) (hin : InLoop s) : ∃ i, s.pc = .wait i ∧ Bufs s i ∧
    i ≤ s.xfer.len / spiDataSize ∧ Running s i ∧ s.ctrl.totalLen = s.xfer.chunkLen i ∧
    s.drv.txCurLen = s.xfer.chunkLen i ∧ 0 < s.xfer.chunkLen i := by
  have hirq : s.irq ≠ .idle := by
    intro hidle
    simp only [InLoop, hidle] at hin
  obtain ⟨i, hpc, hi, hb, hcfg, hrun⟩ := h.ok.running fun hidle => absurd hidle hirq
  have hok := hrun.irq
  refine ⟨i, hpc, hb, hi, hrun, ?_, ?_, Nat.pos_of_ne_zero fun h0 => hirq (hrun.empty h0)⟩
  · unfold InLoop at hin
    split at hin
    · rename_i heq
      rw [heq] at hok
      exact hok.1.2
    · rename_i heq
      rw [heq] at hok
      exact hok.1.2
    · exact hin.elim
  · unfold InLoop at hin
    split at hin
    · rename_i heq
      rw [heq] at hok
      exact hok.2.2
    · rename_i heq
      rw [heq] at hok
      exact hok.2.2.1
    · exact hin.elim

/-- A step of the handler in the loop does some of its work, or polls an empty FIFO while the
controller has a byte to shift. -/
theorem InLoop.isrNext (h : Inv s) (hin : InLoop s) (hst : s.isrNext = some t) (hout : InLoop t) :
    t.loopRank < s.loopRank ∨ t.loopRank = s.loopRank ∧ ∃ u, s.shift 0 = some u := by
  obtain ⟨i, hpc, hb, hi, hrun, htotal, hall, hpos⟩ := hin.running h
  have hun := hrun.unread h.data
  have hw := hrun.unwritten h.data
  have hshift (hemp : s.ctrl.rxFifo = []) (hmore : s.drv.rxCurLen ≠ s.xfer.chunkLen i) :
      ∃ u, s.shift 0 = some u := by
    rw [hemp, List.length_nil] at hun
    have hne : s.ctrl.txFifo ≠ [] := List.length_pos_iff.mp (by omega)
    obtain ⟨u, hu, -⟩ := hrun.shift h.data hpc hne (Nat.le_of_eq hall) (by rw [hemp]; decide)
    exact ⟨u, hu⟩
  have hok := hrun.irq
  unfold InLoop at hin
  split at hin
  · rename_i totalLen hirq
    rw [hirq] at hok
    obtain ⟨hlens, heq, -⟩ := hok
    simp only [SpiMaster.isrNext, hirq] at hst
    split_ifs at hst with hmore <;> cases hst
    · cases hrx : s.ctrl.rxFifo with
      | nil =>
        have hcnt := rxCnt_eq h.data hb.dataUnit
        rw [hrx, List.length_nil] at hcnt
        have hleft : s.drv.rxCurLen ≠ s.xfer.chunkLen i := fun hsame => hmore (heq.trans hsame.symm)
        have hpoll : s.ctrl.rxFifo = [] ∧ s.drv.rxCurLen ≠ s.ctrl.totalLen := ⟨hrx, htotal ▸ hleft⟩
        refine Or.inr ⟨?_, hshift hrx hleft⟩
        simp only [loopRank, polls, hirq, hcnt, if_pos hpoll, if_pos hrx]
      | cons b rest =>
        have hcnt := rxCnt_eq h.data hb.dataUnit
        rw [hrx, List.length_cons] at hcnt
        apply Or.inl
        simp only [loopRank, polls, hirq, hrx, hcnt, List.cons_ne_nil, if_false]
        omega
    · exact hout.elim
  · rename_i rxCnt totalLen hirq
    rw [hirq] at hok
    obtain ⟨hlens, heq, -, hrx⟩ := hok
    cases rxCnt with
    | zero =>
      simp only [SpiMaster.isrNext, hirq] at hst
      cases hst
      by_cases hpoll : s.ctrl.rxFifo = [] ∧ s.drv.rxCurLen ≠ s.ctrl.totalLen
      · refine Or.inr ⟨?_, hshift hpoll.1 (htotal ▸ hpoll.2)⟩
        simp only [loopRank, polls, hirq, if_pos hpoll, if_pos hpoll.1]
      · apply Or.inl
        simp only [loopRank, polls, hirq, if_neg hpoll]
        split_ifs <;> omega
    | succ n =>
      simp only [SpiMaster.isrNext, hirq] at hst
      cases hst
      obtain ⟨rest, hrb, hlen, -, -⟩ := hrun.rb h.data hb hi hrx
      apply Or.inl
      have hle := polls_le { s.rb with irq := .spinRb n totalLen }
      rw [hrb] at hle ⊢
      simp only [loopRank] at hle ⊢
      omega
  · exact hin.elim

theorem InLoop.step (h : Inv s) (hin : InLoop s) (hst : SpiMaster.step spurious s e = some t)
    (hp : Promised s e) (hout : InLoop t) :
    t.loopRank < s.loopRank ∨
      t.loopRank = s.loopRank ∧ (¬ ∃ b, e = .shift b) ∧ ∃ u, s.shift 0 = some u := by
  obtain ⟨i, hpc, hb, hi, hrun, htotal, hall, hpos⟩ := hin.running h
  have hzero := hrun.isrDone
  cases e with
  | shift b =>
    have hle := polls_le t
    simp only [SpiMaster.step, SpiMaster.shift] at hst
    split at hst
    · cases hst
    · split_ifs at hst with hgo
      cases hst
      apply Or.inl
      simp only [loopRank] at hle ⊢
      omega
  | irq =>
    simp only [SpiMaster.step] at hst
    split at hst
    · rename_i hirq
      simp only [InLoop, hirq] at hin
    · cases hst
  | isr =>
    rcases hin.isrNext h hst hout with hlt | ⟨heq, hshift⟩
    · exact Or.inl hlt
    · exact Or.inr ⟨heq, by rintro ⟨b, ⟨⟩⟩, hshift⟩
  | xfer =>
    simp only [SpiMaster.step, SpiMaster.xferNext, hpc, hzero] at hst
    cases hst
  | timeout => exact absurd (hp i hpc) (Nat.ne_of_gt hpos)
  | signal => exact hp.elim

variable (xfer : SpiTransfer) (clkRate : UInt32) (drv : SpiDriver) (config : UInt32)

theorem timely_keeps {s t : SpiMaster} {e : SpiEvent} (hi : Inv s ∧ Unfinished s)
    (hst : SpiMaster.step spurious s e = some t) (he : Timely s e) : Inv t ∧ Unfinished t :=
  ⟨hi.1.step hst he.1 fun hirq i hpc => Or.inr (he.2 hirq i hpc), hi.2.step hi.1 hst⟩

theorem unfinished_init : Unfinished (SpiMaster.init xfer clkRate drv config) := nofun

end SpiMaster

/-- The handler may be called at any time but with the TX FIFO full and bytes of the round still
to be written: it never writes to a full FIFO, reads an empty one or leaves the buffers of the
round, `isr_done` is completed exactly when all bytes are sent and stored, and as long as the
controller goes on shifting the handler's loop ends. -/
theorem master_irq_timely (spurious : Bool) (xfer : SpiTransfer) (clkRate : UInt32)
    (drv : SpiDriver) (config : UInt32) :
    (∀ es s,
      (master spurious xfer clkRate drv config).Along (fun s e _ => s.Timely e)
        (SpiMaster.init xfer clkRate drv config) es →
      (master spurious xfer clkRate drv config).runFrom
        (SpiMaster.init xfer clkRate drv config) es = some s →
      s.AccessOk ∧ s.CompletedOk) ∧
    ∀ ss es, (master spurious xfer clkRate drv config).Trace ss es →
      (∀ n, (ss n).Timely (es n)) →
      (master spurious xfer clkRate drv config).WeakFair (fun e => ∃ b, e = .shift b) ss es →
      ∀ n, ∃ m, n ≤ m ∧ ¬ (ss m).InLoop := by
  have hinit : SpiMaster.Inv (SpiMaster.init xfer clkRate drv config) ∧
      SpiMaster.Unfinished (SpiMaster.init xfer clkRate drv config) :=
    ⟨SpiMaster.inv_init xfer clkRate drv config,
      SpiMaster.unfinished_init xfer clkRate drv config⟩
  constructor
  · intro es s hrun hs
    obtain ⟨hi, hu⟩ := Sys.Along.invariant (I := fun s => s.Inv ∧ s.Unfinished)
      SpiMaster.timely_keeps hinit hrun hs
    exact ⟨hi.accessOk, hi.completedOk hu⟩
  · intro ss es htr hes hfair n
    have hinv (n : ℕ) : (ss n).Inv :=
      (htr.invariant (I := fun s => s.Inv ∧ s.Unfinished) SpiMaster.timely_keeps hinit hes n).1
    refine hfair.leaves SpiMaster.loopRank (fun n hin hout => ?_) n
    rcases hin.step (hinv n) (htr.step n) (hes n).1 hout with hlt | ⟨heq, hother, u, hu⟩
    · exact Or.inl hlt
    · exact Or.inr ⟨heq, hother, .shift 0, u, ⟨0, rfl⟩, hu⟩

/-- A round of 17 bytes, with the handler called behind the first. -/
def round17 : List SpiEvent := List.replicate 23 .xfer ++ complete17

/-- No event of a run is a timeout or a signal, and none finds the TX FIFO full. -/
def timelyCheck (s : SpiMaster) : SpiEvent → Bool
  | .irq => decide (s.ctrl.txFifo.length < fifoDataLen)
  | .timeout | .signal => false
  | _ => true

theorem timely_of_check {s : SpiMaster} {e : SpiEvent} (h : timelyCheck s e = true) :
    s.Timely e := by
  cases e with
  | irq => exact ⟨trivial, fun _ _ _ => Or.inl (of_decide_eq_true h)⟩
  | shift | isr | xfer => exact ⟨trivial, nofun⟩
  | timeout | signal => cases h

/-- The handler writes the 17th byte into a FIFO with room and waits for the others in its loop,
which it leaves; called for ever after, it finds nothing to do. -/
theorem master_irq_timely_refill :
    (∃ s, (master true transfer17 202500000 ⟨0, 0, 0, 0, 0, 0, 0⟩ 0).runFrom
        (SpiMaster.init transfer17 202500000 ⟨0, 0, 0, 0, 0, 0, 0⟩ 0) round17 = some s ∧
      s.pc = .wait 0 ∧ s.drv.isrDone = 1 ∧ s.AccessOk ∧ s.CompletedOk) ∧
    ∃ ss es, (master true transfer17 202500000 ⟨0, 0, 0, 0, 0, 0, 0⟩ 0).Trace ss es ∧
      (ss 31).InLoop ∧ ∃ m, 31 ≤ m ∧ ¬ (ss m).InLoop := by
  have htimely : (master true transfer17 202500000 ⟨0, 0, 0, 0, 0, 0, 0⟩ 0).Along
      (fun s e _ => s.Timely e) (SpiMaster.init transfer17 202500000 ⟨0, 0, 0, 0, 0, 0, 0⟩ 0)
      round17 :=
    Sys.Along.imp (I := fun _ => True) (fun _ _ hq => ⟨trivial, timely_of_check hq⟩) trivial
      (Sys.Along.of_check (q := timelyCheck) (by decide +kernel))
  obtain ⟨hruns, hends⟩ :=
    master_irq_timely true transfer17 202500000 ⟨0, 0, 0, 0, 0, 0, 0⟩ 0
  refine ⟨⟨_, rfl, rfl, rfl, hruns _ _ htimely rfl⟩, ?_⟩
  have hrun : ((master true transfer17 202500000 ⟨0, 0, 0, 0, 0, 0, 0⟩ 0).runFrom
      (SpiMaster.init transfer17 202500000 ⟨0, 0, 0, 0, 0, 0, 0⟩ 0) round17).map
        (fun s => (s.irq, s.ctrl.txLen, s.ctrl.totalLen, s.ctrl.txFifo)) =
          some (.idle, 0, 0, []) := by decide +kernel
  have hloop : ((master true transfer17 202500000 ⟨0, 0, 0, 0, 0, 0, 0⟩ 0).runFrom
      (SpiMaster.init transfer17 202500000 ⟨0, 0, 0, 0, 0, 0, 0⟩ 0) (round17.take 31)).map
        SpiMaster.irq = some (.spinRb 0 17) := by decide +kernel
  obtain ⟨s, hs, hview⟩ := Option.map_eq_some_iff.mp hrun
  obtain ⟨hirq, hlen, htotal, hfifo⟩ : _ ∧ _ ∧ _ ∧ _ := by simpa only [Prod.mk.injEq] using hview
  have hentry : s.irqEntry = s := SpiMaster.irqEntry_eq_of_lens ⟨hlen, htotal⟩
  have hidle : (master true transfer17 202500000 ⟨0, 0, 0, 0, 0, 0, 0⟩ 0).step s .irq = some s := by
    change SpiMaster.step true s .irq = some s
    unfold SpiMaster.step
    rw [hirq, hentry]
    rfl
  obtain ⟨ss, es, hzero, hstep, hall, hlast, hfirst⟩ := Sys.exists_trace hs hidle htimely
    ⟨trivial, fun _ _ _ => Or.inl (by rw [hfifo]; decide)⟩
  obtain ⟨u, hu, huirq⟩ := Option.map_eq_some_iff.mp hloop
  have htrace : (master true transfer17 202500000 ⟨0, 0, 0, 0, 0, 0, 0⟩ 0).Trace ss es :=
    ⟨hzero, hstep⟩
  refine ⟨ss, es, htrace, ?_, hends ss es htrace hall (fun n => ?_) 31⟩
  · rw [hfirst 31 u hu]
    unfold SpiMaster.InLoop
    rw [huirq]
    trivial
  · refine ⟨max n round17.length, Nat.le_max_left _ _, Or.inr ?_⟩
    rintro _ t ⟨b, rfl⟩ ht
    rw [hlast _ (Nat.le_max_right _ _)] at ht
    change s.shift b = some t at ht
    unfold SpiMaster.shift at ht
    rw [hfifo] at ht
    cases ht

/-- Called right after the start, the handler takes the full FIFO for an empty one: the 17th byte
is lost, and the loop waits for an answer to it that never comes. -/
theorem master_irq_overruns :
    ∃ s ∈ (master true transfer17 202500000 ⟨0, 0, 0, 0, 0, 0, 0⟩ 0).runFrom
        (SpiMaster.init transfer17 202500000 ⟨0, 0, 0, 0, 0, 0, 0⟩ 0)
        (List.replicate 23 .xfer ++ [.irq, .isr]),
      s.irq = .wb 1 ∧ s.ctrl.txFifo.length = fifoDataLen ∧
      ∃ t ∈ (master true transfer17 202500000 ⟨0, 0, 0, 0, 0, 0, 0⟩ 0).runFrom s
        ([.isr, .isr, .isr] ++ List.replicate 16 (.shift 0) ++ List.replicate 18 .isr),
      t.irq = .spin 17 ∧ t.drv.rxCurLen = 16 ∧ t.ctrl.txFifo = [] ∧ t.ctrl.rxFifo = [] := by
  decide +kernel

end YoctoLayers.Sp7021
