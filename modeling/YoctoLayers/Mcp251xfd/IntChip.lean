import YoctoLayers.Mcp251xfd.Keeps

/-! The register INT of the controller. The controller sets flags at any time; the driver clears
the clearable ones by writing `0`, and writing `1` has no effect. -/
namespace YoctoLayers.Mcp251xfd
open YoctoLayers.Lib

/-- The flag in INT that a handler is called for. -/
def Handler.flag : Handler → UInt32
  | .rxif => intRxif
  | .modif => intModif
  | .tefif => intTefif
  | .rxovif => intRxovif
  | .txatif => intTxatif
  | .ivmif => intIvmif
  | .serrif => intSerrif
  | .eccif => intEccif
  | .spicrcif => intSpicrcif
  | .cerrif => intCerrif

/-- The flag whose handler starts with a call. -/
def KernelCall.starts : KernelCall → UInt32
  | .handle h => h.flag
  | _ => 0

structure IntChip (τ : Type) where
  /-- Everything else. -/
  rest : τ
  int : UInt32
  /-- The flags with an event that no start of their handler has followed yet. -/
  unserved : UInt32
  /-- The flags that writes of the driver have cleared. -/
  cleared : UInt32

namespace IntChip
variable {τ : Type} (c : IntChip τ)

/-- Events set the flags in `set`; of the flags that a write cannot clear, those in `drop` go. -/
def happen (set drop : UInt32) : IntChip τ :=
  { c with
    int := (c.int &&& ~~~(drop &&& intIf.mask &&& ~~~intIfClearable)) ||| (set &&& intIf.mask)
    unserved := c.unserved ||| (set &&& intIf.mask) }

/-- The bytes of a read: those of INT, and `data` elsewhere. -/
def view (reg : UInt16) (len : ℕ) (data : List UInt8) : List UInt8 :=
  (List.range len).map fun i =>
    let k := (reg + UInt16.ofNat i - regInt).toNat
    if k < 4 then (le32 c.int).getD k 0 else data.getD i 0

/-- A write of the bits `mask` of INT. -/
def storeWord (mask val : UInt32) : IntChip τ :=
  let int := (c.int &&& ~~~mask) ||| (mask &&& ((val &&& intIe.mask) |||
    (c.int &&& (val ||| ~~~intIfClearable) &&& intIf.mask)))
  { c with int := int, cleared := c.cleared ||| (c.int &&& ~~~int &&& intIf.mask) }

/-- The byte that a write has for byte `k` of INT. -/
def byteAt (reg : UInt16) (data : List UInt8) (k : ℕ) : Option UInt8 :=
  data[(regInt + UInt16.ofNat k - reg).toNat]?

def store (reg : UInt16) (data : List UInt8) : IntChip τ :=
  let bytes := (List.range 4).map (byteAt reg data)
  c.storeWord (getLe32 (bytes.map fun b => if b.isSome then 0xff else 0))
    (getLe32 (bytes.map fun b => b.getD 0))

end IntChip

/-- What surrounds INT: the rest of the outside, the events before each access, and which writes
reach the controller. -/
structure IntBoard (τ : Type) where
  other : Env τ
  set : τ → UInt32
  drop : τ → UInt32
  lands : UInt16 → List UInt8 → τ → Bool

namespace IntBoard
variable {τ α : Type} (b : IntBoard τ)

/-- The events before an access. -/
def happen (c : IntChip τ) : IntChip τ := c.happen (b.set c.rest) (b.drop c.rest)

def step (f : τ → α × τ) (c : IntChip τ) : α × IntChip τ :=
  let c := b.happen c
  ((f c.rest).1, { c with rest := (f c.rest).2 })

/-- The outside with INT in it. A read that is in order, and with CRC one whose CRC matches,
brings what is in INT. -/
def env : Env (IntChip τ) where
  board := b.other.board
  read reg len c :=
    let c := b.happen c
    let ((err, data), s) := b.other.read reg len c.rest
    ((err, if err = 0 then c.view reg len data else data), { c with rest := s })
  readCrc reg len c :=
    let c := b.happen c
    let ((err, data, crc), s) := b.other.readCrc reg len c.rest
    let c' := { c with rest := s }
    if err = 0 ∧ crc = crc16Compute2 (spiCmdReadCrc reg len) data then
      let data := c.view reg len data
      ((0, data, crc16Compute2 (spiCmdReadCrc reg len) data), c')
    else ((err, data, crc), c')
  write reg data c :=
    let c := b.happen c
    let (err, s) := b.other.write reg data c.rest
    (err, { (if b.lands reg data c.rest then c.store reg data else c) with rest := s })
  reset c :=
    let (err, s) := b.other.reset c.rest
    (err, { c with rest := s, int := 0 })
  polls reg := b.step (b.other.polls reg)
  rxPending := b.step b.other.rxPending
  call k c :=
    let (err, c) := b.step (b.other.call k) c
    (err, { c with unserved := c.unserved &&& ~~~k.starts })

end IntBoard

/-- A write that leaves INT alone. -/
def AwayFromInt (reg : UInt16) (data : List UInt8) : Prop :=
  ∀ k < 4, data.length ≤ (regInt + UInt16.ofNat k - reg).toNat

theorem AwayFromInt.of_bounds {reg : UInt16} {data : List UInt8}
    (h : reg.toNat + data.length ≤ 0x1c ∨ 0x20 ≤ reg.toNat ∧ reg.toNat + data.length ≤ 0x10000) :
    AwayFromInt reg data := by
  intro k hk
  have hint : (regInt + UInt16.ofNat k).toNat = 0x1c + k := by
    rw [UInt16.toNat_add, UInt16.toNat_ofNat']
    simp only [regInt, UInt16.reduceToNat]
    omega
  rw [UInt16.toNat_sub, hint]
  have := reg.toNat_lt
  omega

theorem inReg_awayFromInt {reg : UInt16}
    (h : reg.toNat + 4 ≤ 0x1c ∨ 0x20 ≤ reg.toNat ∧ reg.toNat + 4 ≤ 0x10000) :
    InReg AwayFromInt reg := by
  intro k data hlen
  apply AwayFromInt.of_bounds
  rw [UInt16.toNat_add, UInt16.toNat_ofNat']
  omega

namespace IntChip
variable {τ : Type} (c : IntChip τ)

theorem store_of_away {reg : UInt16} {data : List UInt8} (h : AwayFromInt reg data) :
    c.store reg data = c := by
  have hbytes : (List.range 4).map (byteAt reg data) = List.replicate 4 none := by
    rw [List.eq_replicate_iff]
    refine ⟨rfl, fun b hb => ?_⟩
    obtain ⟨k, hk, rfl⟩ := List.mem_map.mp hb
    exact List.getElem?_eq_none_iff.mpr (h k (List.mem_range.mp hk))
  have hzero : getLe32 (List.replicate 4 0) = 0 := by decide
  have hint : (c.int &&& ~~~0) ||| (0 &&& ((0 &&& intIe.mask) |||
      (c.int &&& (0 ||| ~~~intIfClearable) &&& intIf.mask))) = c.int := by
    simp
  have hcleared : c.cleared ||| (c.int &&& ~~~c.int &&& intIf.mask) = c.cleared :=
    eq_of_testBit fun i => by simp
  unfold store storeWord
  simp only [hbytes, List.map_replicate, Option.isSome_none, Bool.false_eq_true, if_false,
    Option.getD_none, hzero, hint, hcleared]

theorem testBit_intIf (i : ℕ) : intIf.mask.toNat.testBit i = decide (i < 16) := by
  rw [Field.testBit_mask, decide_eq_decide]
  simp only [intIf]
  omega

theorem testBit_intIe {i : ℕ} (hi : i < 32) :
    intIe.mask.toNat.testBit i = !decide (i < 16) := by
  rw [Field.testBit_mask, ← decide_not, decide_eq_decide]
  simp only [intIe]
  omega

/-- A write from byte 0 of INT on: the enables are taken over, and a clearable flag goes where
the write has `0`. -/
theorem testBit_store_int (data : List UInt8) {i : ℕ} (hi : i < 32) :
    (c.store regInt data).int.toNat.testBit i =
      if i / 8 < data.length then
        if i < 16 then c.int.toNat.testBit i &&
          ((getLe32 data).toNat.testBit i || !intIfClearable.toNat.testBit i)
        else (getLe32 data).toNat.testBit i
      else c.int.toNat.testBit i := by
  have hbyte {k : ℕ} (hk : k < 4) : byteAt regInt data k = data[k]? := by
    unfold byteAt
    congr 1
    interval_cases k <;> rfl
  have hk : i / 8 < 4 := by omega
  have hj : i % 8 < 8 := by omega
  have hmem (f : Option UInt8 → UInt8) :
      (getLe32 (((List.range 4).map (byteAt regInt data)).map f)).toNat.testBit i =
        (f data[i / 8]?).toNat.testBit (i % 8) := by
    rw [testBit_getLe32 _ hi, ← hbyte hk]
    simp [hk]
  have hval : (getLe32 data).toNat.testBit i = (data[i / 8]?.getD 0).toNat.testBit (i % 8) := by
    rw [testBit_getLe32 _ hi, List.getD_eq_getElem?_getD]
  have hff : (0xff : UInt8).toNat.testBit (i % 8) = true := by
    generalize i % 8 = j at hj
    interval_cases j <;> rfl
  unfold store storeWord
  simp only [testBit_or, testBit_and, testBit_not, hmem, ← hval, hi, decide_true, Bool.true_and]
  by_cases hlen : i / 8 < data.length
  · have hsome : data[i / 8]?.isSome := by simp [hlen]
    rw [hsome, if_pos rfl, hff, testBit_intIe hi, testBit_intIf]
    by_cases hlow : i < 16 <;> simp [hlen, hlow]
  · simp [hlen]

end IntChip

end YoctoLayers.Mcp251xfd
