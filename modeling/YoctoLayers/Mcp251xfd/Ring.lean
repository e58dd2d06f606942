import YoctoLayers.Lib.Counter

/-! The TEF, TX and RX rings of `mcp251xfd.h`: free-running `head` and `tail` counters
over the objects in the controller's RAM. -/
namespace YoctoLayers.Mcp251xfd
open YoctoLayers.Lib

def ramStart : UInt16 := 0x400
def ramSize : ℕ := 2048

def txObjNumCan : UInt8 := 8
def txObjNumCanfd : UInt8 := 4
def txObjNumMax : UInt8 :=
  if txObjNumCanfd < txObjNumCan then txObjNumCan else txObjNumCanfd
def rxObjNumMax : ℕ := 32

/-- `sizeof(struct mcp251xfd_hw_tef_obj)`: id, flags, timestamp. -/
def tefObjSize : ℕ := 12

structure TefRing where
  head : UInt32
  tail : UInt32
deriving DecidableEq, Repr

theorem txObjNumCan_valid : txObjNumCan = txObjNumCan ∨ txObjNumCan = txObjNumCanfd := Or.inl rfl

/-- `obj_num` is one of the two values `mcp251xfd_ring_alloc` stores. -/
structure TxRing where
  head : UInt32
  tail : UInt32
  base : UInt16
  objNum : UInt8
  objSize : UInt8
  objNum_valid : objNum = txObjNumCan ∨ objNum = txObjNumCanfd
deriving DecidableEq, Repr

/-- `obj_num` is a power of two, at most `MCP251XFD_RX_OBJ_NUM_MAX`. -/
structure RxRing where
  head : UInt32
  tail : UInt32
  base : UInt16
  nr : UInt8
  fifoNr : UInt8
  objNum : UInt8
  objSize : UInt8
  objNum_valid : objNum ∈ [1, 2, 4, 8, 16, 32]
deriving DecidableEq, Repr

def getTefObjAddr (n : UInt8) : UInt16 := ramStart + UInt16.ofNat tefObjSize * n.toUInt16

def getTxObjAddr (ring : TxRing) (n : UInt8) : UInt16 :=
  ring.base + ring.objSize.toUInt16 * n.toUInt16

def getRxObjAddr (ring : RxRing) (n : UInt8) : UInt16 :=
  ring.base + ring.objSize.toUInt16 * n.toUInt16

def getTefTail (tef : TefRing) (tx : TxRing) : UInt8 :=
  (tef.tail &&& (tx.objNum.toUInt32 - 1)).toUInt8

def getTefLen (tef : TefRing) : UInt8 := (tef.head - tef.tail).toUInt8

def getTefLinearLen (tef : TefRing) (tx : TxRing) : UInt8 :=
  min (getTefLen tef) (tx.objNum - getTefTail tef tx)

def getTxHead (ring : TxRing) : UInt8 := (ring.head &&& (ring.objNum.toUInt32 - 1)).toUInt8

def getTxTail (ring : TxRing) : UInt8 := (ring.tail &&& (ring.objNum.toUInt32 - 1)).toUInt8

def getTxFree (ring : TxRing) : UInt8 :=
  (ring.objNum.toUInt32 - (ring.head - ring.tail)).toUInt8

def getRxTail (ring : RxRing) : UInt8 := (ring.tail &&& (ring.objNum.toUInt32 - 1)).toUInt8

def getRxLen (ring : RxRing) : UInt8 := (ring.head - ring.tail).toUInt8

def getRxLinearLen (ring : RxRing) : UInt8 :=
  min (getRxLen ring) (ring.objNum - getRxTail ring)

namespace TxRing

theorem pow2 (r : TxRing) : Pow2 r.objNum.toUInt32 := by
  rcases r.objNum_valid with h | h <;> rw [h]
  · exact ⟨3, by decide, by decide⟩
  · exact ⟨2, by decide, by decide⟩

theorem objNum_cases (r : TxRing) : r.objNum.toNat = 8 ∨ r.objNum.toNat = 4 := by
  rcases r.objNum_valid with h | h <;> rw [h]
  · exact Or.inl rfl
  · exact Or.inr rfl

/-- `obj_num` as a number of slots. -/
def slots (r : TxRing) : ℕ := r.objNum.toNat

theorem slots_cases (r : TxRing) : r.slots = 8 ∨ r.slots = 4 := r.objNum_cases

@[simp] theorem toNat_objNum32 (r : TxRing) : r.objNum.toUInt32.toNat = r.slots := by
  simp [slots]

@[simp] theorem toNat_objNum (r : TxRing) : r.objNum.toNat = r.slots := rfl

end TxRing

namespace RxRing

/-- `obj_num` as a number of slots. -/
def slots (r : RxRing) : ℕ := r.objNum.toNat

theorem slots_bounds (r : RxRing) : 1 ≤ r.slots ∧ r.slots ≤ rxObjNumMax := by
  have h := r.objNum_valid
  simp only [List.mem_cons, List.not_mem_nil, or_false] at h
  unfold slots
  rcases h with h | h | h | h | h | h <;> rw [h] <;> decide

@[simp] theorem toNat_objNum32 (r : RxRing) : r.objNum.toUInt32.toNat = r.slots := by
  simp [slots]

theorem pow2 (r : RxRing) : Pow2 r.objNum.toUInt32 := by
  have h := r.objNum_valid
  simp only [List.mem_cons, List.not_mem_nil, or_false] at h
  rcases h with h | h | h | h | h | h <;> rw [h]
  · exact ⟨0, by decide, by decide⟩
  · exact ⟨1, by decide, by decide⟩
  · exact ⟨2, by decide, by decide⟩
  · exact ⟨3, by decide, by decide⟩
  · exact ⟨4, by decide, by decide⟩
  · exact ⟨5, by decide, by decide⟩

end RxRing

theorem toNat_getRxTail (ring : RxRing) :
    (getRxTail ring).toNat = ring.tail.toNat % ring.slots := by
  have h := ring.pow2.toNat_and_pred ring.tail
  have hs := ring.slots_bounds
  have hlt := Nat.mod_lt ring.tail.toNat hs.1
  rw [RxRing.toNat_objNum32] at h
  rw [getRxTail, UInt32.toNat_toUInt8, h]
  exact Nat.mod_eq_of_lt (hlt.trans_le (hs.2.trans (by decide)))

theorem toNat_getRxLinearLen (ring : RxRing) (h : lead ring.tail ring.head ≤ ring.slots) :
    (getRxLinearLen ring).toNat =
      min (lead ring.tail ring.head) (ring.slots - ring.tail.toNat % ring.slots) := by
  have hs := ring.slots_bounds
  have hmax : rxObjNumMax = 32 := rfl
  have hlt := Nat.mod_lt ring.tail.toNat hs.1
  have htail := toNat_getRxTail ring
  have hsub : (ring.objNum - getRxTail ring).toNat =
      ring.slots - ring.tail.toNat % ring.slots := by
    rw [← htail]
    refine UInt8.toNat_sub_of_le _ _ ?_
    rw [UInt8.le_iff_toNat_le, htail]
    exact hlt.le
  have hlen : (getRxLen ring).toNat = lead ring.tail ring.head := by
    rw [getRxLen, UInt32.toNat_toUInt8]
    exact Nat.mod_eq_of_lt (h.trans_lt (by omega))
  rw [getRxLinearLen, toNat_min_uint8, hsub, hlen]

theorem toNat_getTefTail (tef : TefRing) (tx : TxRing) :
    (getTefTail tef tx).toNat = tef.tail.toNat % tx.slots := by
  have h := tx.pow2.toNat_and_pred tef.tail
  have hs := tx.slots_cases
  have hlt := Nat.mod_lt tef.tail.toNat (by omega : 0 < tx.slots)
  rw [TxRing.toNat_objNum32] at h
  rw [getTefTail, UInt32.toNat_toUInt8, h]
  omega

theorem toNat_getTxHead (tx : TxRing) : (getTxHead tx).toNat = tx.head.toNat % tx.slots := by
  have h := tx.pow2.toNat_and_pred tx.head
  have hs := tx.slots_cases
  have hlt := Nat.mod_lt tx.head.toNat (by omega : 0 < tx.slots)
  rw [TxRing.toNat_objNum32] at h
  rw [getTxHead, UInt32.toNat_toUInt8, h]
  omega

theorem toNat_getTefLen (tef : TefRing) : (getTefLen tef).toNat = lead tef.tail tef.head % 256 :=
  UInt32.toNat_toUInt8 _

/-- While at most `obj_num` objects are in flight, the free count is what is left. -/
theorem toNat_getTxFree (tx : TxRing) (h : lead tx.tail tx.head ≤ tx.slots) :
    (getTxFree tx).toNat = tx.slots - lead tx.tail tx.head := by
  have hs := tx.slots_cases
  have hle : tx.head - tx.tail ≤ tx.objNum.toUInt32 := by
    rw [UInt32.le_iff_toNat_le, TxRing.toNat_objNum32]
    exact h
  rw [getTxFree, UInt32.toNat_toUInt8, UInt32.toNat_sub_of_le _ _ hle, TxRing.toNat_objNum32]
  change (tx.slots - lead tx.tail tx.head) % 256 = _
  omega

end YoctoLayers.Mcp251xfd
