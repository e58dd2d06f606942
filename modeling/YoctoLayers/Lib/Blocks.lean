import Mathlib.Algebra.BigOperators.Ring.List
import Mathlib.Algebra.Ring.Nat

/-! Arrays of equal objects that lie one behind the other in a memory: which bytes an object has,
and that no two objects share one. -/
namespace YoctoLayers.Lib

/-- An array of `count` objects of `size` bytes each. -/
structure Block where
  count : ℕ
  size : ℕ
deriving DecidableEq, Repr

def Block.bytes (b : Block) : ℕ := b.count * b.size

/-- An object: the array it is in, and its index there. -/
structure Slot where
  block : ℕ
  index : ℕ
deriving DecidableEq, Repr

namespace Blocks

/-- Where array `k` begins. -/
def start (bs : List Block) (k : ℕ) : ℕ := ((bs.take k).map Block.bytes).sum

def total (bs : List Block) : ℕ := start bs bs.length

/-- `s` is an object of the arrays, of `b` bytes. -/
def Has (bs : List Block) (s : Slot) (size : ℕ) : Prop :=
  ∃ b, bs[s.block]? = some b ∧ s.index < b.count ∧ b.size = size

/-- The first byte of an object. -/
def addr (bs : List Block) (s : Slot) (size : ℕ) : ℕ := start bs s.block + s.index * size

/-- Byte `a` belongs to object `s`. -/
def Covers (bs : List Block) (s : Slot) (a : ℕ) : Prop :=
  ∃ size, Has bs s size ∧ addr bs s size ≤ a ∧ a < addr bs s size + size

variable {bs : List Block} {s s' : Slot} {a size : ℕ}

theorem start_mono (bs : List Block) {j k : ℕ} (h : j ≤ k) : start bs j ≤ start bs k := by
  unfold start
  have hsplit : bs.take k = bs.take j ++ (bs.take k).drop j := by
    have hcut := List.take_append_drop j (bs.take k)
    rw [List.take_take, Nat.min_eq_left h] at hcut
    exact hcut.symm
  rw [hsplit, List.map_append, List.sum_append]
  exact Nat.le_add_right _ _

theorem start_succ {k : ℕ} {b : Block} (h : bs[k]? = some b) :
    start bs (k + 1) = start bs k + b.bytes := by
  unfold start
  rw [List.take_add_one, h, List.map_append, List.sum_append]
  simp

/-- An object ends where its array ends, or before. -/
theorem Has.end_le {b : Block} (hb : bs[s.block]? = some b) (hi : s.index < b.count) :
    addr bs s b.size + b.size ≤ start bs (s.block + 1) := by
  have hle : s.index * b.size + b.size ≤ b.count * b.size := by
    rw [← Nat.succ_mul]
    exact Nat.mul_le_mul_right _ hi
  rw [start_succ hb, addr, Block.bytes]
  omega

theorem Has.le_total (h : Has bs s size) : addr bs s size + size ≤ total bs := by
  obtain ⟨b, hb, hi, rfl⟩ := h
  have hlt : s.block < bs.length := (List.getElem?_eq_some_iff.mp hb).1
  exact (Has.end_le hb hi).trans (start_mono bs hlt)

/-- Objects of different arrays are apart. -/
theorem Covers.not_lt (h : Covers bs s a) (h' : Covers bs s' a) : ¬ s.block < s'.block := by
  obtain ⟨size, ⟨b, hb, hi, rfl⟩, hle, hlt⟩ := h
  obtain ⟨size', -, hle', -⟩ := h'
  intro hblock
  have hend := Has.end_le hb hi
  have hmono := start_mono bs (show s.block + 1 ≤ s'.block from hblock)
  have hstart : start bs s'.block ≤ addr bs s' size' := Nat.le_add_right _ _
  omega

/-- A byte belongs to one object at most. -/
theorem Covers.unique (h : Covers bs s a) (h' : Covers bs s' a) : s = s' := by
  have hblock : s.block = s'.block :=
    Nat.le_antisymm (Nat.not_lt.mp (h'.not_lt h)) (Nat.not_lt.mp (h.not_lt h'))
  obtain ⟨size, ⟨b, hb, hi, rfl⟩, hle, hlt⟩ := h
  obtain ⟨size', ⟨b', hb', hi', rfl⟩, hle', hlt'⟩ := h'
  obtain ⟨k, i⟩ := s
  obtain ⟨k', i'⟩ := s'
  cases hblock
  obtain rfl : b = b' := Option.some.inj (hb.symm.trans hb')
  simp only [addr] at hle hlt hle' hlt'
  have hindex : i = i' := by
    rcases Nat.lt_trichotomy i i' with hless | heq | hless
    · have := Nat.mul_le_mul_right b.size (Nat.succ_le_of_lt hless)
      rw [Nat.succ_mul] at this
      omega
    · exact heq
    · have := Nat.mul_le_mul_right b.size (Nat.succ_le_of_lt hless)
      rw [Nat.succ_mul] at this
      omega
  rw [hindex]

/-- Where all sizes are multiples of `d`, so are the addresses. -/
theorem dvd_addr {d : ℕ} (hd : ∀ b ∈ bs, d ∣ b.size) (h : Has bs s size) : d ∣ addr bs s size := by
  obtain ⟨b, hb, -, rfl⟩ := h
  have hsum : d ∣ start bs s.block := by
    unfold start
    apply List.dvd_sum
    intro n hn
    obtain ⟨b', hb', rfl⟩ := List.mem_map.mp hn
    exact Dvd.dvd.mul_left (hd b' (List.mem_of_mem_take hb')) _
  exact Nat.dvd_add hsum (Dvd.dvd.mul_left (hd b (List.mem_of_getElem? hb)) _)

end Blocks
end YoctoLayers.Lib
