import YoctoLayers.Sp7021.Slave
import Mathlib.Tactic.SplitIfs

/-! What ends the wait of the slave's transfers, and what they return. -/
namespace YoctoLayers.Sp7021
open YoctoLayers.Lib
namespace SpiSlave

/-- By its own steps alone the call comes to return `ret`, with nothing mapped. -/
inductive Returns : SpiSlave → ℤ → Prop
  | here {s : SpiSlave} {ret : ℤ} (hpc : s.pc = .returned ret) (hmap : s.mapping = none) :
    Returns s ret
  | next {s t : SpiSlave} {ret : ℤ} (hst : s.xferNext = some t) (ht : Returns t ret) :
    Returns s ret

/-- The registers of the transfer that is started. -/
def Programmed (s : SpiSlave) : Prop :=
  s.regs slaveDmaLengthReg = s.xfer.len ∧ s.regs slaveDmaAddrReg = s.dma.toUInt32

/-- What the driver promises of a transfer. -/
structure Promise (s : SpiSlave) : Prop where
  started : s.pc = .wait → Programmed s
  arrived : s.arrived = true → Returns s 0
  returned : s.pc = .returned 0 → s.arrived = true
  ended : s.aborted = true ∨ s.signalled = true → ∃ ret, ret ≠ 0 ∧ Returns s ret
  released : ∀ ret, s.pc = .returned ret → s.mapping = none

/-- The buffer is mapped at the address that is its length, the call is not aborted, and the slave
interrupt comes between a completion of `isr_done` and the end of the wait. -/
def Fortunate (s : SpiSlave) : SlaveEvent → Prop
  | .xfer => (s.pc = .addr → s.dma.toUInt32 = s.xfer.len) ∧ (s.pc = .wait → s.arrived = true)
  | .slaveIrq => s.pc = .wait → 0 < s.isrDone
  | .abort => ∃ ret, s.pc = .returned ret
  | _ => True

/-- The buffer is mapped from the call of `dma_map_single` to that of `dma_unmap_single`. -/
def Held (s : SpiSlave) : Prop :=
  match s.pc with
  | .entry | .finalize _ | .returned _ => s.mapping = none
  | _ => s.mapping = some (s.dma, s.xfer.len)

/-- Where the transfer is, and what has come so far. -/
def Ok (s : SpiSlave) : Prop :=
  match s.pc with
  | .entry | .reinit | .ctrl | .length | .addr => s.arrived = false ∧ s.signalled = false
  | .readRdy | .writeRdy _ => Programmed s ∧ s.arrived = false ∧ s.signalled = false
  | .wait => Programmed s ∧ (s.arrived = true → 0 < s.isrDone) ∧ s.signalled = false
  | .swRst => s.arrived = true ∧ s.signalled = false
  | .unmap ret | .finalize ret | .returned ret =>
    ret = 0 ∧ s.arrived = true ∧ s.signalled = false ∨ ret ≠ 0 ∧ s.arrived = false

structure Inv (s : SpiSlave) : Prop where
  held : Held s
  aborted : s.aborted = false
  ok : Ok s

variable {s t : SpiSlave} {e : SlaveEvent} {ret : ℤ}

/-- A step of something else than the call. -/
theorem Held.frame (h : Held s) (hpc : t.pc = s.pc) (hmap : t.mapping = s.mapping)
    (hdma : t.dma = s.dma) (hx : t.xfer = s.xfer) : Held t := by
  simp only [Held, hpc, hmap, hdma, hx] at h ⊢
  exact h

theorem Held.map {dma : Option UInt64} (h : Held s) (hst : s.map dma = some t) : Held t := by
  unfold SpiSlave.map at hst
  split_ifs at hst with hentry
  simp only [Held, hentry.1] at h
  split at hst <;> cases hst
  · exact h
  · exact rfl

theorem Held.xferNext (h : Held s) (hst : s.xferNext = some t) : Held t := by
  rcases s with ⟨xfer, regs, slaveIsr, isrDone, dma, mapping, pc, finalized, arrived, aborted, sig⟩
  cases pc with
  | entry =>
    simp only [SpiSlave.xferNext] at hst
    split_ifs at hst
    cases hst
    exact h
  | reinit =>
    simp only [SpiSlave.xferNext] at hst
    split_ifs at hst <;> cases hst <;> exact h
  | addr =>
    simp only [SpiSlave.xferNext] at hst
    split_ifs at hst <;> cases hst <;> exact h
  | wait =>
    simp only [SpiSlave.xferNext] at hst
    split_ifs at hst <;> cases hst <;> exact h
  | unmap ret =>
    cases hst
    have hmap : mapping = some (dma, xfer.len) := h
    simp only [Held, dmaUnmap, if_pos hmap]
  | ctrl | length | readRdy | writeRdy value | swRst | finalize ret =>
    cases hst
    exact h
  | returned ret => cases hst

theorem held_step (h : Held s) (hst : s.step e = some t) : Held t := by
  cases e with
  | map dma => exact h.map hst
  | xfer => exact h.xferNext hst
  | slaveIrq | abort =>
    cases hst
    exact h.frame rfl rfl rfl rfl
  | masterIrq isrdone =>
    cases hst
    cases isrdone <;> exact h.frame rfl rfl rfl rfl
  | signal =>
    simp only [SpiSlave.step, SpiSlave.signal] at hst
    split_ifs at hst with hwait
    cases hst
    simp only [Held, hwait.1] at h
    exact h

/-- A write of `SP7021_DATA_RDY_REG` leaves the registers of the transfer. -/
theorem update_dataRdy {regs : ℕ → UInt32} {len addr : UInt32}
    (h : regs slaveDmaLengthReg = len ∧ regs slaveDmaAddrReg = addr) (value : UInt32) :
    Function.update regs dataRdyReg value slaveDmaLengthReg = len ∧
      Function.update regs dataRdyReg value slaveDmaAddrReg = addr := by
  constructor
  · rw [← h.1]
    exact Function.update_of_ne (by decide) ..
  · rw [← h.2]
    exact Function.update_of_ne (by decide) ..

theorem Ok.map {dma : Option UInt64} (h : Ok s) (hst : s.map dma = some t) : Ok t := by
  unfold SpiSlave.map at hst
  split_ifs at hst with hentry
  simp only [Ok, hentry.1] at h
  split at hst <;> cases hst
  · exact Or.inr ⟨by decide, h.1⟩
  · exact h

theorem Ok.xferNext (h : Ok s) (hst : s.xferNext = some t) (hf : Fortunate s .xfer) : Ok t := by
  rcases s with ⟨xfer, regs, slaveIsr, isrDone, dma, mapping, pc, finalized, arrived, aborted, sig⟩
  cases pc with
  | entry =>
    simp only [SpiSlave.xferNext] at hst
    split_ifs at hst
    cases hst
    exact Or.inr ⟨by decide, h.1⟩
  | reinit =>
    simp only [SpiSlave.xferNext] at hst
    split_ifs at hst <;> cases hst <;> exact h
  | addr =>
    have hdma : dma.toUInt32 = xfer.len := hf.1 rfl
    have hreg : Function.update regs slaveDmaAddrReg dma.toUInt32 slaveDmaLengthReg = xfer.len := by
      rw [← hdma]
      exact Function.update_self ..
    have haddr : Function.update regs slaveDmaAddrReg dma.toUInt32 slaveDmaAddrReg =
      dma.toUInt32 := Function.update_self ..
    obtain ⟨harr, hsig⟩ := h
    simp only at harr hsig
    simp only [SpiSlave.xferNext] at hst
    split_ifs at hst <;> cases hst
    · exact ⟨⟨hreg, haddr⟩, harr, hsig⟩
    · exact ⟨⟨hreg, haddr⟩, fun hyes => absurd (harr.symm.trans hyes) Bool.false_ne_true, hsig⟩
  | writeRdy value =>
    cases hst
    obtain ⟨hprog, harr, hsig⟩ := h
    exact ⟨update_dataRdy hprog value,
      fun hyes => absurd (harr.symm.trans hyes) Bool.false_ne_true, hsig⟩
  | wait =>
    have harr : arrived = true := hf.2 rfl
    obtain ⟨-, -, hsig⟩ := h
    simp only [SpiSlave.xferNext] at hst
    split_ifs at hst <;> cases hst
    · exact Or.inl ⟨rfl, harr, hsig⟩
    · exact ⟨harr, hsig⟩
  | swRst =>
    cases hst
    exact Or.inl ⟨rfl, h⟩
  | unmap ret =>
    cases hst
    simp only [Ok, dmaUnmap] at h ⊢
    split_ifs <;> exact h
  | ctrl | length | readRdy | finalize ret =>
    cases hst
    exact h
  | returned ret => cases hst

theorem Ok.slaveIrq (h : Ok s) (hf : Fortunate s .slaveIrq) : Ok s.slaveIrq := by
  rcases s with ⟨xfer, regs, slaveIsr, isrDone, dma, mapping, pc, finalized, arrived, aborted, sig⟩
  cases pc with
  | wait => exact ⟨update_dataRdy h.1 (regs dataRdyReg ||| slaveClrInt), fun _ => hf rfl, h.2.2⟩
  | readRdy | writeRdy value =>
    exact ⟨update_dataRdy h.1 (regs dataRdyReg ||| slaveClrInt),
      (Bool.or_false _).trans h.2.1, h.2.2⟩
  | entry | reinit | ctrl | length | addr => exact ⟨(Bool.or_false _).trans h.1, h.2⟩
  | swRst => exact ⟨(Bool.or_false _).trans h.1, h.2⟩
  | unmap ret | finalize ret | returned ret =>
    rcases h with ⟨hret, harr, hsig⟩ | ⟨hret, harr⟩
    · exact Or.inl ⟨hret, (Bool.or_false _).trans harr, hsig⟩
    · exact Or.inr ⟨hret, (Bool.or_false _).trans harr⟩

theorem Ok.masterIrq (h : Ok s) (isrdone : Bool) : Ok (s.masterIrq isrdone) := by
  cases isrdone with
  | false => exact h
  | true =>
    rcases s with
      ⟨xfer, regs, slaveIsr, isrDone, dma, mapping, pc, finalized, arrived, aborted, sig⟩
    cases pc with
    | wait => exact ⟨h.1, fun _ => Nat.succ_pos _, h.2.2⟩
    | _ => exact h

theorem Ok.signal (h : Ok s) (hst : s.signal = some t) : Ok t := by
  unfold SpiSlave.signal at hst
  split_ifs at hst with hwait
  cases hst
  obtain ⟨hpc, hzero⟩ := hwait
  simp only [Ok, hpc] at h
  refine Or.inr ⟨by decide, (Bool.not_eq_true _).mp fun hyes => ?_⟩
  exact absurd hzero (Nat.ne_of_gt (h.2.1 hyes))

theorem inv_step (h : Inv s) (hst : s.step e = some t) (hf : Fortunate s e) : Inv t := by
  have hheld := held_step h.held hst
  obtain ⟨-, hab, hok⟩ := h
  cases e with
  | map dma =>
    refine ⟨hheld, ?_, hok.map hst⟩
    simp only [SpiSlave.step, SpiSlave.map] at hst
    split_ifs at hst
    split at hst <;> cases hst <;> exact hab
  | xfer =>
    refine ⟨hheld, ?_, hok.xferNext hst hf⟩
    simp only [SpiSlave.step, SpiSlave.xferNext, dmaUnmap] at hst
    split at hst <;> try split_ifs at hst
    all_goals cases hst
    all_goals exact hab
  | slaveIrq =>
    cases hst
    exact ⟨hheld, hab, hok.slaveIrq hf⟩
  | masterIrq isrdone =>
    cases hst
    refine ⟨hheld, ?_, hok.masterIrq isrdone⟩
    cases isrdone <;> exact hab
  | abort =>
    cases hst
    obtain ⟨ret, hpc⟩ := hf
    refine ⟨hheld, ?_, ?_⟩
    · simp only [SpiSlave.abort, hpc, hab]
      rfl
    · simp only [Ok, SpiSlave.abort, hpc] at hok ⊢
      exact hok
  | signal =>
    refine ⟨hheld, ?_, hok.signal hst⟩
    simp only [SpiSlave.step, SpiSlave.signal] at hst
    split_ifs at hst
    cases hst
    exact hab

theorem inv_init (xfer : SlaveTransfer) (regs : ℕ → UInt32) (slaveIsr isrDone : ℕ) :
    Inv (SpiSlave.init xfer regs slaveIsr isrDone) :=
  ⟨rfl, rfl, rfl, rfl⟩

theorem returns_finalize (hpc : s.pc = .finalize ret) (hmap : s.mapping = none) :
    Returns s ret := by
  refine .next (t := { s with finalized := s.finalized + 1, pc := .returned ret }) ?_ ?_
  · simp only [SpiSlave.xferNext, hpc]
  · exact .here rfl hmap

theorem returns_unmap (hpc : s.pc = .unmap ret) (hmap : s.mapping = some (s.dma, s.xfer.len)) :
    Returns s ret := by
  refine .next (t := { s with mapping := none, pc := .finalize ret }) ?_ ?_
  · simp only [SpiSlave.xferNext, hpc, dmaUnmap, if_pos hmap]
  · exact returns_finalize rfl rfl

theorem returns_swRst (hpc : s.pc = .swRst) (hmap : s.mapping = some (s.dma, s.xfer.len)) :
    Returns s 0 := by
  refine .next (t := { s.writel slaveSwRst slaveDmaCtrlReg with pc := .unmap 0 }) ?_ ?_
  · simp only [SpiSlave.xferNext, hpc]
  · exact returns_unmap rfl hmap

/-- Once `isr_done` is completed the wait is over. -/
theorem returns_wait (hpc : s.pc = .wait) (hmap : s.mapping = some (s.dma, s.xfer.len))
    (hdone : 0 < s.isrDone) : Returns s 0 := by
  refine .next (t := { s with
    isrDone := s.isrDone - 1, pc := if s.xfer.txBuf then .unmap 0 else .swRst }) ?_ ?_
  · simp only [SpiSlave.xferNext, hpc, if_pos hdone]
  · cases htx : s.xfer.txBuf with
    | true => exact returns_unmap rfl hmap
    | false => exact returns_swRst rfl hmap

/-- Whatever value is decided on is returned. -/
theorem Held.returns (h : Held s)
    (hpc : s.pc = .unmap ret ∨ s.pc = .finalize ret ∨ s.pc = .returned ret) : Returns s ret := by
  unfold Held at h
  rcases hpc with hpc | hpc | hpc <;> rw [hpc] at h
  · exact returns_unmap hpc h
  · exact returns_finalize hpc h
  · exact .here hpc h

theorem Inv.arrived (h : Inv s) (harr : s.arrived = true) : Returns s 0 := by
  obtain ⟨hheld, -, hok⟩ := h
  have hno (hfalse : s.arrived = false) : Returns s 0 :=
    absurd (hfalse.symm.trans harr) Bool.false_ne_true
  unfold Ok at hok
  cases hpc : s.pc with
  | entry | reinit | ctrl | length | addr =>
    rw [hpc] at hok
    exact hno hok.1
  | readRdy | writeRdy value =>
    rw [hpc] at hok
    exact hno hok.2.1
  | wait =>
    rw [hpc] at hok
    simp only [Held, hpc] at hheld
    exact returns_wait hpc hheld (hok.2.1 harr)
  | swRst =>
    simp only [Held, hpc] at hheld
    exact returns_swRst hpc hheld
  | unmap ret | finalize ret | returned ret =>
    rw [hpc] at hok
    rcases hok with ⟨rfl, -, -⟩ | ⟨-, hfalse⟩
    · exact hheld.returns (by simp only [hpc, true_or, or_true])
    · exact hno hfalse

/-- Only the wait is ended by a signal, and the call then returns an error. -/
theorem Inv.signalled (h : Inv s) (hsig : s.signalled = true) : ∃ ret, ret ≠ 0 ∧ Returns s ret := by
  obtain ⟨hheld, -, hok⟩ := h
  have hno (hfalse : s.signalled = false) : ∃ ret, ret ≠ 0 ∧ Returns s ret :=
    absurd (hfalse.symm.trans hsig) Bool.false_ne_true
  unfold Ok at hok
  cases hpc : s.pc with
  | entry | reinit | ctrl | length | addr | swRst =>
    rw [hpc] at hok
    exact hno hok.2
  | readRdy | writeRdy value | wait =>
    rw [hpc] at hok
    exact hno hok.2.2
  | unmap ret | finalize ret | returned ret =>
    rw [hpc] at hok
    rcases hok with ⟨-, -, hfalse⟩ | ⟨hret, -⟩
    · exact hno hfalse
    · exact ⟨ret, hret, hheld.returns (by simp only [hpc, true_or, or_true])⟩

theorem Inv.promise (h : Inv s) : Promise s where
  started hpc := by
    have hok := h.ok
    simp only [Ok, hpc] at hok
    exact hok.1
  arrived := h.arrived
  returned hpc := by
    have hok := h.ok
    simp only [Ok, hpc] at hok
    rcases hok with ⟨-, harr, -⟩ | ⟨hne, -⟩
    · exact harr
    · exact absurd rfl hne
  ended hend := by
    rcases hend with hab | hsig
    · exact absurd (h.aborted.symm.trans hab) Bool.false_ne_true
    · exact h.signalled hsig
  released ret hpc := by
    have hheld := h.held
    simp only [Held, hpc] at hheld
    exact hheld

end SpiSlave

/-- Of every transfer whose buffer is mapped at the address that is its length, that is not
aborted, and whose slave interrupt comes between a completion of `isr_done` and the end of the
wait, the driver keeps what it promises. -/
theorem slave_transfer_one_fortunate (xfer : SlaveTransfer) (regs : ℕ → UInt32)
    (slaveIsr isrDone : ℕ) {es : List SlaveEvent} {s : SpiSlave}
    (ha : (slave xfer regs slaveIsr isrDone).Along (fun s e _ => s.Fortunate e)
      (SpiSlave.init xfer regs slaveIsr isrDone) es)
    (hrun : (slave xfer regs slaveIsr isrDone).runFrom
      (SpiSlave.init xfer regs slaveIsr isrDone) es = some s) : s.Promise :=
  (Sys.Along.invariant (I := SpiSlave.Inv) SpiSlave.inv_step
    (SpiSlave.inv_init xfer regs slaveIsr isrDone) ha hrun).promise

/-- 64 bytes to be sent, from the address 64: the interrupt comes after the master's. -/
def send64 : List SlaveEvent :=
  .map (some 64) :: List.replicate 6 .xfer ++ [.masterIrq true, .slaveIrq] ++ List.replicate 3 .xfer

/-- The check of a run without a call of `sp7021_spi_slave_abort`. -/
def fortunateCheck (s : SpiSlave) : SlaveEvent → Bool
  | .xfer => (decide (s.pc ≠ .addr) || s.dma.toUInt32 == s.xfer.len) &&
      (decide (s.pc ≠ .wait) || s.arrived)
  | .slaveIrq => decide (0 < s.isrDone)
  | .abort => false
  | _ => true

theorem fortunate_of_check {s : SpiSlave} {e : SlaveEvent} (h : fortunateCheck s e = true) :
    s.Fortunate e := by
  cases e with
  | xfer =>
    simp only [fortunateCheck, Bool.and_eq_true, Bool.or_eq_true, decide_eq_true_eq,
      beq_iff_eq] at h
    exact ⟨h.1.resolve_left ∘ not_not_intro, h.2.resolve_left ∘ not_not_intro⟩
  | slaveIrq => exact fun _ => of_decide_eq_true h
  | abort => cases h
  | map | masterIrq | signal => trivial

theorem slave_transfer_one_fortunate_send : ∃ s,
    (slave ⟨true, false, 64⟩ (fun _ => 0) 0 0).runFrom
      (SpiSlave.init ⟨true, false, 64⟩ (fun _ => 0) 0 0) send64 = some s ∧
    s.pc = .returned 0 ∧ s.Promise := by
  have hrun : ∃ s ∈ (slave ⟨true, false, 64⟩ (fun _ => 0) 0 0).runFrom
      (SpiSlave.init ⟨true, false, 64⟩ (fun _ => 0) 0 0) send64, s.pc = .returned 0 := by
    decide +kernel
  obtain ⟨s, hs, hpc⟩ := hrun
  refine ⟨s, hs, hpc, ?_⟩
  refine slave_transfer_one_fortunate ⟨true, false, 64⟩ (fun _ => 0) 0 0 ?_ hs
  exact Sys.Along.imp (I := fun _ => True) (fun _ _ hq => ⟨trivial, fortunate_of_check hq⟩) trivial
    (Sys.Along.of_check (q := fortunateCheck) (by decide +kernel))

/-- Four bytes to be received at the address 0x1000: the register of the length holds the address,
the slave interrupt does not end the wait, and an abort makes the call return 0. -/
theorem slave_transfer_one_unfortunate :
    ∃ s ∈ (slave ⟨false, true, 4⟩ (fun _ => 0) 0 0).runFrom
        (SpiSlave.init ⟨false, true, 4⟩ (fun _ => 0) 0 0)
        (.map (some 0x1000) :: List.replicate 4 .xfer ++ [.slaveIrq]),
      s.pc = .wait ∧ s.regs slaveDmaLengthReg = 0x1000 ∧ s.xfer.len = 4 ∧
      s.arrived = true ∧ s.xferNext.isNone ∧
      ∃ t ∈ (slave ⟨false, true, 4⟩ (fun _ => 0) 0 0).runFrom s (.abort :: List.replicate 4 .xfer),
        t.pc = .returned 0 ∧ t.aborted = true := by
  decide +kernel

end YoctoLayers.Sp7021
