import YoctoLayers.Sp7021.Master
import Mathlib.Tactic.SplitIfs

/-! What the FIFOs of the controller hold, and the bytes of a round. -/
namespace YoctoLayers.Sp7021

namespace SpiTransfer
variable (xfer : SpiTransfer)

/-- The bytes of the rounds before the `i`-th. -/
def before (i : ℕ) : ℕ := min (i * spiDataSize) xfer.len

variable {xfer} {i : ℕ}

theorem before_of_le (hi : i ≤ xfer.len / spiDataSize) : xfer.before i = i * spiDataSize :=
  Nat.min_eq_left (Nat.le_trans (Nat.mul_le_mul_right _ hi) (Nat.div_mul_le_self _ _))

theorem before_succ (hi : i ≤ xfer.len / spiDataSize) :
    xfer.before (i + 1) = xfer.before i + xfer.chunkLen i := by
  have hdiv := Nat.div_add_mod xfer.len spiDataSize
  have hmod := Nat.mod_lt xfer.len (by decide : 0 < spiDataSize)
  rw [before_of_le hi, chunkLen, before, Nat.add_mul, Nat.one_mul]
  split_ifs with hlast
  · rw [← hlast, Nat.mul_comm] at hdiv
    omega
  · have hle : (i + 1) * spiDataSize ≤ xfer.len / spiDataSize * spiDataSize :=
      Nat.mul_le_mul_right _ (by omega)
    rw [Nat.add_mul, Nat.one_mul, Nat.mul_comm (xfer.len / spiDataSize)] at hle
    omega

theorem before_last : xfer.before (xfer.len / spiDataSize + 1) = xfer.len := by
  have hdiv := Nat.div_add_mod xfer.len spiDataSize
  have hmod := Nat.mod_lt xfer.len (by decide : 0 < spiDataSize)
  rw [before, Nat.add_mul, Nat.one_mul, Nat.mul_comm]
  omega

theorem chunkLen_le : xfer.chunkLen i ≤ spiDataSize := by
  have hmod := Nat.mod_lt xfer.len (by decide : 0 < spiDataSize)
  unfold chunkLen
  split_ifs <;> omega

/-- Only the last round can be one of no bytes. -/
theorem chunkLen_eq_zero (h : xfer.chunkLen i = 0) :
    i = xfer.len / spiDataSize ∧ xfer.len % spiDataSize = 0 := by
  unfold chunkLen at h
  split_ifs at h with hlast
  · exact ⟨hlast, h⟩
  · exact absurd h (by decide)

end SpiTransfer

namespace SpiMaster

/-- The bytes go through the FIFOs in order, from and to successive places of the buffers. -/
structure Data (s : SpiMaster) : Prop where
  out : s.mosi ++ s.ctrl.txFifo = s.reads.map s.xfer.txBuf
  reads : s.reads = List.range s.reads.length
  inn : s.stores.map Prod.snd ++ s.ctrl.rxFifo = s.miso
  stores : s.stores.map Prod.fst = List.range s.stores.length
  len : s.mosi.length = s.miso.length
  room : s.ctrl.rxFifo.length ≤ fifoDataLen

theorem Data.reads_length {s : SpiMaster} (h : Data s) :
    s.reads.length = s.miso.length + s.ctrl.txFifo.length := by
  have hout := congrArg List.length h.out
  rw [List.length_append, List.length_map] at hout
  rw [← hout, h.len]

theorem Data.miso_length {s : SpiMaster} (h : Data s) :
    s.miso.length = s.stores.length + s.ctrl.rxFifo.length := by
  rw [← h.inn, List.length_append, List.length_map]

theorem data_init (xfer : SpiTransfer) (clkRate : UInt32) (drv : SpiDriver) (config : UInt32) :
    Data (SpiMaster.init xfer clkRate drv config) :=
  ⟨rfl, rfl, rfl, rfl, rfl, Nat.zero_le _⟩

theorem wb_eq {s : SpiMaster} (hk : s.drv.txBuf + s.drv.txCurLen = s.reads.length)
    (hroom : s.ctrl.txFifo.length < fifoDataLen) :
    s.wb = { s with
      ctrl := { s.ctrl with txFifo := s.ctrl.txFifo ++ [s.xfer.txBuf s.reads.length] }
      drv := { s.drv with txCurLen := s.drv.txCurLen + 1 }
      reads := s.reads ++ [s.reads.length] } := by
  simp only [SpiMaster.wb, SpiCtrl.writeFifo, if_pos hroom, hk]

theorem rb_eq {s : SpiMaster} (hk : s.drv.rxBuf + s.drv.rxCurLen = s.stores.length)
    {b : UInt8} {rest : List UInt8} (hfifo : s.ctrl.rxFifo = b :: rest) :
    s.rb = { s with
      ctrl := { s.ctrl with rxFifo := rest }
      drv := { s.drv with rxCurLen := s.drv.rxCurLen + 1 }
      stores := s.stores ++ [(s.stores.length, b)] } := by
  simp only [SpiMaster.rb, SpiCtrl.readFifo, hfifo, hk]

theorem Data.wb {s : SpiMaster} (h : Data s) (hk : s.drv.txBuf + s.drv.txCurLen = s.reads.length)
    (hroom : s.ctrl.txFifo.length < fifoDataLen) : Data s.wb := by
  rw [wb_eq hk hroom]
  refine { h with out := ?_, reads := ?_ }
  · simp only [List.map_append, ← h.out, List.append_assoc]
    rfl
  · simp only [List.length_append, List.length_singleton, List.range_succ, ← h.reads]

theorem Data.rb {s : SpiMaster} (h : Data s)
    (hk : s.drv.rxBuf + s.drv.rxCurLen = s.stores.length) {b : UInt8} {rest : List UInt8}
    (hfifo : s.ctrl.rxFifo = b :: rest) : Data s.rb := by
  have hinn := h.inn
  have hroom := h.room
  rw [hfifo] at hinn hroom
  rw [rb_eq hk hfifo]
  refine { h with inn := ?_, stores := ?_, room := Nat.le_of_succ_le hroom }
  · simp only [List.map_append, List.append_assoc]
    exact hinn
  · simp only [List.map_append, h.stores, List.length_append, List.length_singleton,
      List.range_succ]
    rfl

theorem Data.shift {s t : SpiMaster} {b : UInt8} (h : Data s) (hst : s.shift b = some t) :
    Data t := by
  have hout := h.out
  unfold SpiMaster.shift at hst
  split at hst
  · cases hst
  · rename_i out rest hfifo
    split_ifs at hst with hgo
    cases hst
    rw [hfifo] at hout
    refine { h with out := ?_, inn := ?_, len := ?_, room := ?_ }
    · rw [List.append_assoc]
      exact hout
    · rw [← List.append_assoc, h.inn]
    · rw [List.length_append, List.length_append, h.len]
      rfl
    · rw [List.length_append]
      exact hgo.2

end SpiMaster
end YoctoLayers.Sp7021
