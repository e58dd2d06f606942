import YoctoLayers.Lib.Errno
import YoctoLayers.Lib.Log
import YoctoLayers.Lib.System
import YoctoLayers.Mcp251xfd.Object
import YoctoLayers.Mcp251xfd.Ring
import Mathlib.Logic.Function.Basic

/-! The receive path: the controller fills the RX FIFO while `mcp251xfd_handle_rxif_ring` reads
it, object by object. -/
namespace YoctoLayers.Mcp251xfd
open YoctoLayers.Lib

/-- `mcp251xfd_rx_ring_update`, FIFOCI having been read as `chipRxHead`. -/
def rxRingUpdate (ring : RxRing) (chipRxHead : UInt8) : RxRing :=
  let newHead := roundDown ring.head ring.objNum.toUInt32 + chipRxHead.toUInt32
  let newHead := if newHead ≤ ring.head then newHead + ring.objNum.toUInt32 else newHead
  { ring with head := newHead }

/-- Where `mcp251xfd_handle_rxif_ring` is, or what it last returned. -/
inductive RxPc
  | idle (ret : ℤ)
  | update
  | head (chipRxHead : UInt8)
  | checkTail
  | loop
  /-- The objects read so far, out of `len`. -/
  | read (len : ℕ) (objs : List HwRxObj)
  | one (objs : List HwRxObj) (i : ℕ)
  /-- `done` of `len` UINCs are sent. -/
  | uinc (len done : ℕ)
  | tail (len : ℕ)
deriving DecidableEq

/-- The RX FIFO. The counters count since the ring was set up. -/
structure RxChip where
  ram : ℕ → HwRxObj
  written : ℕ
  freed : ℕ

structure RxPath where
  ring : RxRing
  pc : RxPc
  chip : RxChip
  /-- The frames that the controller has stored. -/
  stored : List HwRxObj
  /-- The objects that `mcp251xfd_handle_rxif_one` was called with. -/
  handed : List HwRxObj
  /-- The stored frames when FIFOCI was last read. -/
  seen : ℕ

inductive RxPathEvent
  /-- A frame comes in from the bus. -/
  | receive (obj : HwRxObj)
  /-- `mcp251xfd_handle_rxif_ring` is called. -/
  | handleRxif
  /-- Its next step. -/
  | rxif
deriving DecidableEq

namespace RxPath

/-- `mcp251xfd_check_rx_tail` finds a difference. -/
def rxTailDiffers (sanity : Bool) (s : RxPath) : Bool :=
  sanity && s.chip.freed % s.ring.slots != (getRxTail s.ring).toNat

/-- One step of `mcp251xfd_handle_rxif_ring`, SPI transfers succeeding. -/
def rxifNext (sanity : Bool) (s : RxPath) : Option RxPath :=
  match s.pc with
  | .idle _ => none
  | .update =>
    some { s with
      pc := .head (UInt8.ofNat (s.chip.written % s.ring.slots))
      seen := s.stored.length }
  | .head chipRxHead => some { s with ring := rxRingUpdate s.ring chipRxHead, pc := .checkTail }
  | .checkTail =>
    if s.rxTailDiffers sanity then some { s with pc := .idle (-eilseq) }
    else some { s with pc := .loop }
  | .loop =>
    let len := (getRxLinearLen s.ring).toNat
    if len = 0 then some { s with pc := .idle 0 } else some { s with pc := .read len [] }
  | .read len objs =>
    if objs.length < len then
      let obj := s.chip.ram ((getRxTail s.ring).toNat + objs.length)
      some { s with pc := .read len (objs ++ [obj]) }
    else some { s with pc := .one objs 0 }
  | .one objs i =>
    match objs[i]? with
    | none => some { s with pc := .uinc i 0 }
    | some obj => some { s with handed := s.handed ++ [obj], pc := .one objs (i + 1) }
  | .uinc len done =>
    if done < len then
      some { s with chip := { s.chip with freed := s.chip.freed + 1 }, pc := .uinc len (done + 1) }
    else some { s with pc := .tail len }
  | .tail len =>
    some { s with ring := { s.ring with tail := s.ring.tail + UInt32.ofNat len }, pc := .loop }

/-- A full FIFO drops the frame. -/
def receive (s : RxPath) (obj : HwRxObj) : RxPath :=
  if s.chip.written < s.chip.freed + s.ring.slots then
    { s with
      chip := { s.chip with
        ram := Function.update s.chip.ram (s.chip.written % s.ring.slots) obj
        written := s.chip.written + 1 }
      stored := s.stored ++ [obj] }
  else s

def step (sanity : Bool) (s : RxPath) : RxPathEvent → Option RxPath
  | .receive obj => some (s.receive obj)
  | .handleRxif =>
    match s.pc with
    | .idle ret =>
      if ret = 0 ∧ s.chip.freed < s.chip.written then some { s with pc := .update } else none
    | _ => none
  | .rxif => s.rxifNext sanity

def init (ring : RxRing) (ram : ℕ → HwRxObj) : RxPath where
  ring := { ring with head := 0, tail := 0 }
  pc := .idle 0
  chip := { ram := ram, written := 0, freed := 0 }
  stored := []
  handed := []
  seen := 0

end RxPath

/-- The receive path from `mcp251xfd_ring_init` on, the RAM holding anything. -/
def rxPath (sanity : Bool) (ring : RxRing) (ram : ℕ → HwRxObj) : Sys RxPath RxPathEvent where
  init := RxPath.init ring ram
  step := RxPath.step sanity

namespace RxPc

/-- Objects handed up that `ring->tail` does not count yet. -/
def untailed : RxPc → ℕ
  | .one _ i => i
  | .uinc len _ | .tail len => len
  | _ => 0

/-- Objects handed up whose slots are not given back yet. -/
def unfreed : RxPc → ℕ
  | .one _ i => i
  | .uinc len done => len - done
  | _ => 0

/-- What the position says about `ring->head`, of `handed` objects handed up and `seen` frames
there when FIFOCI was read; and what was read is what was stored. -/
def Ok (pc : RxPc) (slots : ℕ) (head : UInt32) (stored : List HwRxObj) (seen handed : ℕ) : Prop :=
  match pc with
  | .idle err => err = 0 ∧ head = UInt32.ofNat handed ∧ seen = handed
  | .update => head = UInt32.ofNat handed ∧ handed < stored.length
  | .head c => head = UInt32.ofNat handed ∧ handed < seen ∧ seen ≤ handed + slots ∧
      c.toNat = seen % slots
  | .read len objs => head = UInt32.ofNat seen ∧ 0 < len ∧ handed + len ≤ seen ∧
      handed % slots + len ≤ slots ∧ objs.length ≤ len ∧
      ∀ (j : ℕ) obj, objs[j]? = some obj → stored[handed + j]? = some obj
  | .one objs i => head = UInt32.ofNat seen ∧ i ≤ objs.length ∧ handed + objs.length ≤ seen + i ∧
      ∀ (j : ℕ) obj, objs[j]? = some obj → stored[handed - i + j]? = some obj
  | .uinc len done => head = UInt32.ofNat seen ∧ done ≤ len
  | .checkTail | .loop | .tail _ => head = UInt32.ofNat seen

theorem Ok.concat {pc : RxPc} {slots seen handed : ℕ} {head : UInt32} {stored : List HwRxObj}
    (h : pc.Ok slots head stored seen handed) (obj : HwRxObj) :
    pc.Ok slots head (stored ++ [obj]) seen handed := by
  cases pc with
  | idle _ | head _ | checkTail | loop | uinc _ _ | tail _ => exact h
  | update =>
    refine ⟨h.1, h.2.trans ?_⟩
    simp
  | read len objs =>
    obtain ⟨h1, h2, h3, h4, h5, hobjs⟩ := h
    exact ⟨h1, h2, h3, h4, h5, fun j o ho => getElem?_concat_of_some (hobjs j o ho)⟩
  | one objs i =>
    obtain ⟨h1, h2, h3, hobjs⟩ := h
    exact ⟨h1, h2, h3, fun j o ho => getElem?_concat_of_some (hobjs j o ho)⟩

end RxPc

namespace RxPath

/-- Frame `k` stays in slot `k % slots` until its slot is given back, and the frames handed up
are the first ones stored. -/
structure Inv (s : RxPath) : Prop where
  tail : s.ring.tail = UInt32.ofNat (s.handed.length - s.pc.untailed)
  untailed : s.pc.untailed ≤ s.handed.length
  freed : s.chip.freed + s.pc.unfreed = s.handed.length
  written : s.chip.written = s.stored.length
  room : s.chip.written ≤ s.chip.freed + s.ring.slots
  ram : ∀ (k : ℕ) obj, s.stored[k]? = some obj → s.chip.freed ≤ k →
    s.chip.ram (k % s.ring.slots) = obj
  handed : s.handed <+: s.stored
  handedSeen : s.handed.length ≤ s.seen
  seen : s.seen ≤ s.stored.length
  pc : s.pc.Ok s.ring.slots s.ring.head s.stored s.seen s.handed.length

variable {sanity : Bool}

theorem inv_init (ring : RxRing) (ram : ℕ → HwRxObj) : Inv (RxPath.init ring ram) where
  tail := rfl
  untailed := le_rfl
  freed := rfl
  written := rfl
  room := Nat.zero_le _
  ram := nofun
  handed := List.nil_prefix
  handedSeen := le_rfl
  seen := le_rfl
  pc := ⟨rfl, rfl, rfl⟩

theorem Inv.receive {s : RxPath} (h : Inv s) (obj : HwRxObj) : Inv (s.receive obj) := by
  unfold RxPath.receive
  split_ifs with hroom
  · refine { h with
      written := ?_
      room := hroom
      ram := ?_
      handed := h.handed.trans (List.prefix_append _ _)
      seen := h.seen.trans ?_
      pc := h.pc.concat obj }
    · simp [h.written]
    · intro k o hk hfreed
      rcases getElem?_concat hk with hold | ⟨rfl, rfl⟩
      · have hlt : k < s.chip.written := by
          rw [h.written]
          exact (List.getElem?_eq_some_iff.mp hold).1
        have hne : k % s.ring.slots ≠ s.chip.written % s.ring.slots :=
          slot_ne hlt (hroom.trans_le (Nat.add_le_add_right hfreed _))
        exact (Function.update_of_ne hne _ _).trans (h.ram k o hold hfreed)
      · simp only [← h.written, Function.update_self]
    · simp
  · exact h

/-- FIFOCI gives the head back: `seen` frames, `handed` of which are handed up. -/
theorem rxRingUpdate_head {ring : RxRing} {c : UInt8} {seen handed : ℕ}
    (hhead : ring.head = UInt32.ofNat handed) (hlo : handed < seen)
    (hhi : seen ≤ handed + ring.slots) (hc : c.toNat = seen % ring.slots) :
    (rxRingUpdate ring c).head = UInt32.ofNat seen := by
  have hn := ring.pow2
  have hmod := hn.toNat_ofNat_mod handed
  have hpos := ring.slots_bounds.1
  rw [RxRing.toNat_objNum32] at hmod
  have hgap : gap ring.head.toNat c.toUInt32.toNat ring.slots = seen - handed := by
    rw [← gap_unique hlo hhi, UInt8.toNat_toUInt32, hc, hhead, gap, gap, hmod]
  have hcatch : (rxRingUpdate ring c).head = catchUp ring.head c.toUInt32 ring.objNum.toUInt32 :=
    rfl
  have hlap : c.toUInt32.toNat < ring.objNum.toUInt32.toNat := by
    rw [RxRing.toNat_objNum32, UInt8.toNat_toUInt32, hc]
    exact Nat.mod_lt _ hpos
  have hval := @Pow2.toNat_catchUp _ hn ring.head _ hlap
  rw [← UInt32.toNat_inj, hcatch, hval, RxRing.toNat_objNum32, hgap, hhead, UInt32.toNat_ofNat',
    UInt32.toNat_ofNat']
  omega

theorem Inv.getRxTail {s : RxPath} (h : Inv s) (hu : s.pc.untailed = 0) :
    (getRxTail s.ring).toNat = s.handed.length % s.ring.slots := by
  have hmod := s.ring.pow2.toNat_ofNat_mod s.handed.length
  rw [RxRing.toNat_objNum32] at hmod
  rw [toNat_getRxTail, h.tail, hu, Nat.sub_zero, hmod]

/-- The check of the tails never fails. -/
theorem Inv.not_rxTailDiffers {s : RxPath} (h : Inv s) (hu : s.pc.untailed = 0)
    (hf : s.pc.unfreed = 0) : s.rxTailDiffers sanity = false := by
  have hfreed := h.freed
  rw [hf, Nat.add_zero] at hfreed
  simp [rxTailDiffers, hfreed, h.getRxTail hu]

/-- At the head of the loop: what is left, up to the end of the ring. -/
theorem Inv.linearLen {s : RxPath} (h : Inv s) (hpc : s.pc = .loop) :
    (getRxLinearLen s.ring).toNat =
      min (s.seen - s.handed.length) (s.ring.slots - s.handed.length % s.ring.slots) := by
  have htail := h.tail
  have hfreed := h.freed
  have hok := h.pc
  have hroom := h.room
  have hseen := h.handedSeen
  have hle := h.seen
  have hsl := s.ring.slots_bounds.2
  have hmax : rxObjNumMax = 32 := rfl
  rw [h.written] at hroom
  rw [hpc] at htail hfreed hok
  change s.ring.head = UInt32.ofNat s.seen at hok
  change s.ring.tail = UInt32.ofNat s.handed.length at htail
  change s.chip.freed + 0 = s.handed.length at hfreed
  have hmod := s.ring.pow2.toNat_ofNat_mod s.handed.length
  rw [RxRing.toNat_objNum32] at hmod
  have hdist : lead s.ring.tail s.ring.head = s.seen - s.handed.length := by
    rw [htail, hok]
    exact lead_ofNat hseen (by omega)
  rw [toNat_getRxLinearLen _ (by omega), hdist, htail, hmod]

theorem Inv.rxifNext {s t : RxPath} (h : Inv s) (hst : s.rxifNext sanity = some t) : Inv t := by
  rcases s with ⟨ring, pc, chip, stored, handed, seen⟩
  have hpos := ring.slots_bounds.1
  cases pc with
  | idle _ => cases hst
  | update =>
    cases hst
    obtain ⟨hhead, hlt⟩ := h.pc
    have hroom : chip.written ≤ chip.freed + ring.slots := h.room
    have hwritten : chip.written = stored.length := h.written
    have hfreed : chip.freed + 0 = handed.length := h.freed
    refine { h with handedSeen := hlt.le, seen := le_rfl, pc := ⟨hhead, hlt, ?_, ?_⟩ }
    · change stored.length ≤ handed.length + ring.slots
      omega
    · change (UInt8.ofNat (chip.written % ring.slots)).toNat = stored.length % ring.slots
      have hmod := Nat.mod_lt chip.written hpos
      have hsl := ring.slots_bounds.2
      have hmax : rxObjNumMax = 32 := rfl
      rw [UInt8.toNat_ofNat', ← hwritten]
      omega
  | head c =>
    cases hst
    obtain ⟨hhead, hlo, hhi, hc⟩ := h.pc
    exact { h with pc := rxRingUpdate_head hhead hlo hhi hc }
  | checkTail =>
    have hchk : rxTailDiffers sanity ⟨ring, .checkTail, chip, stored, handed, seen⟩ = false :=
      h.not_rxTailDiffers rfl rfl
    simp only [RxPath.rxifNext, hchk, Bool.false_eq_true, if_false] at hst
    cases hst
    exact { h with }
  | loop =>
    have hlen := h.linearLen rfl
    have hmod := Nat.mod_lt handed.length hpos
    have hle : handed.length ≤ seen := h.handedSeen
    simp only at hlen
    simp only [RxPath.rxifNext, hlen] at hst
    split_ifs at hst with h0 <;> cases hst
    · have heq : seen = handed.length := by omega
      exact { h with pc := ⟨rfl, heq ▸ h.pc, heq⟩ }
    · have hlo : 0 < min (seen - handed.length) (ring.slots - handed.length % ring.slots) :=
        Nat.pos_of_ne_zero h0
      have hseen : handed.length +
          min (seen - handed.length) (ring.slots - handed.length % ring.slots) ≤ seen := by omega
      have hlin : handed.length % ring.slots +
          min (seen - handed.length) (ring.slots - handed.length % ring.slots) ≤ ring.slots := by
        omega
      exact { h with pc := ⟨h.pc, hlo, hseen, hlin, Nat.zero_le _, nofun⟩ }
  | read len objs =>
    have hok : (RxPc.read len objs).Ok ring.slots ring.head stored seen handed.length := h.pc
    obtain ⟨hhead, hlen, hseen, hlin, hobjs, hread⟩ := hok
    have htail : (Mcp251xfd.getRxTail ring).toNat = handed.length % ring.slots := h.getRxTail rfl
    simp only [RxPath.rxifNext] at hst
    split_ifs at hst with hlt <;> cases hst
    · refine { h with pc := ⟨hhead, hlen, hseen, hlin, ?_, ?_⟩ }
      · rw [List.length_append]
        exact hlt
      · intro j obj hj
        rcases getElem?_concat hj with hold | ⟨rfl, rfl⟩
        · exact hread j obj hold
        · have hk : handed.length + objs.length < stored.length := by
            have : seen ≤ stored.length := h.seen
            omega
          have hfreed : chip.freed + 0 = handed.length := h.freed
          have hram := h.ram _ _ (List.getElem?_eq_getElem hk) (by
            change chip.freed ≤ _
            omega)
          simp only at hram
          rw [slot_add_near (by omega : handed.length % ring.slots + objs.length < ring.slots),
            ← htail] at hram
          simp only [hram]
          exact List.getElem?_eq_getElem hk
    · have heq : objs.length = len := by omega
      exact { h with pc := ⟨hhead, Nat.zero_le _, by rw [heq]; exact hseen, hread⟩ }
  | one objs i =>
    have hok : (RxPc.one objs i).Ok ring.slots ring.head stored seen handed.length := h.pc
    obtain ⟨hhead, hi, hseen, hread⟩ := hok
    have hun : i ≤ handed.length := h.untailed
    have htail : ring.tail = UInt32.ofNat (handed.length - i) := h.tail
    have hfreed : chip.freed + i = handed.length := h.freed
    simp only [RxPath.rxifNext] at hst
    split at hst <;> cases hst
    · exact { h with pc := ⟨hhead, Nat.zero_le _⟩ }
    · rename_i obj hobj
      have hlt : i < objs.length := (List.getElem?_eq_some_iff.mp hobj).1
      have hnext := hread i obj hobj
      rw [Nat.sub_add_cancel hun] at hnext
      have hlen : (handed ++ [obj]).length = handed.length + 1 := List.length_append
      have hsub : handed.length + 1 - (i + 1) = handed.length - i := by omega
      refine { h with
        tail := ?_
        untailed := ?_
        freed := ?_
        handed := prefix_concat h.handed hnext
        handedSeen := ?_
        pc := ⟨hhead, hlt, ?_, ?_⟩ }
      · change ring.tail = UInt32.ofNat ((handed ++ [obj]).length - (i + 1))
        rw [hlen, hsub, htail]
      · change i + 1 ≤ (handed ++ [obj]).length
        omega
      · change chip.freed + (i + 1) = (handed ++ [obj]).length
        omega
      · change (handed ++ [obj]).length ≤ seen
        omega
      · change (handed ++ [obj]).length + objs.length ≤ seen + (i + 1)
        omega
      · simp only [hlen, hsub]
        exact hread
  | uinc len done =>
    obtain ⟨hhead, hdone⟩ := h.pc
    have hfreed : chip.freed + (len - done) = handed.length := h.freed
    have hroom : chip.written ≤ chip.freed + ring.slots := h.room
    simp only [RxPath.rxifNext] at hst
    split_ifs at hst with hlt <;> cases hst
    · refine { h with freed := ?_, room := ?_, ram := ?_, pc := ⟨hhead, hlt⟩ }
      · change chip.freed + 1 + (len - (done + 1)) = handed.length
        omega
      · change chip.written ≤ chip.freed + 1 + ring.slots
        omega
      · exact fun k obj hk hle => h.ram k obj hk (Nat.le_of_succ_le hle)
    · refine { h with freed := ?_, pc := hhead }
      change chip.freed + 0 = handed.length
      omega
  | tail len =>
    cases hst
    have htail : ring.tail = UInt32.ofNat (handed.length - len) := h.tail
    have hun : len ≤ handed.length := h.untailed
    refine { h with tail := ?_, untailed := Nat.zero_le _ }
    change ring.tail + UInt32.ofNat len = UInt32.ofNat (handed.length - 0)
    rw [htail, ← UInt32.ofNat_add]
    congr 1
    omega

theorem inv_invariant (sanity : Bool) (ring : RxRing) (ram : ℕ → HwRxObj) :
    (rxPath sanity ring ram).Invariant Inv where
  init := inv_init ring ram
  step := by
    intro s e t hi hst
    cases e with
    | receive obj =>
      cases hst
      exact hi.receive obj
    | rxif => exact hi.rxifNext hst
    | handleRxif =>
      rcases s with ⟨ring, pc, chip, stored, handed, seen⟩
      cases pc with
      | idle err =>
        simp only [rxPath, RxPath.step] at hst
        split_ifs at hst with hrun
        cases hst
        obtain ⟨-, hhead, -⟩ := hi.pc
        have hfreed : chip.freed + 0 = handed.length := hi.freed
        have hwritten : chip.written = stored.length := hi.written
        refine { hi with pc := ⟨hhead, ?_⟩ }
        change handed.length < stored.length
        omega
      | _ => cases hst

/-- Steps that the call has left, at most. -/
def rxRank (s : RxPath) : ℕ :=
  match s.pc with
  | .idle _ => 0
  | .update => 4 + 8 * s.ring.slots
  | .head _ => 3 + 8 * (s.seen - s.handed.length)
  | .checkTail => 2 + 8 * (s.seen - s.handed.length)
  | .loop => 1 + 8 * (s.seen - s.handed.length)
  | .read len objs => 3 * len + 5 - objs.length + 8 * (s.seen - (s.handed.length + len))
  | .one objs i =>
    2 * objs.length - i + 4 + 8 * (s.seen - (s.handed.length - i + objs.length))
  | .uinc len done => len - done + 3 + 8 * (s.seen - s.handed.length)
  | .tail _ => 2 + 8 * (s.seen - s.handed.length)

theorem Inv.seen_le {s : RxPath} (h : Inv s) :
    s.seen + s.pc.unfreed ≤ s.handed.length + s.ring.slots := by
  have hfreed := h.freed
  have hroom := h.room
  have hseen := h.seen
  have hwritten := h.written
  omega

theorem Inv.rxRank_lt {s t : RxPath} (h : Inv s) (hst : s.rxifNext sanity = some t) :
    t.rxRank < s.rxRank := by
  have hbound := h.seen_le
  rcases s with ⟨ring, pc, chip, stored, handed, seen⟩
  cases pc with
  | idle _ => cases hst
  | update =>
    cases hst
    have hfreed : chip.freed + 0 = handed.length := h.freed
    have hroom : chip.written ≤ chip.freed + ring.slots := h.room
    have hwritten : chip.written = stored.length := h.written
    change 3 + 8 * (stored.length - handed.length) < 4 + 8 * ring.slots
    omega
  | head c =>
    cases hst
    exact Nat.add_lt_add_right (by decide) _
  | checkTail =>
    simp only [RxPath.rxifNext] at hst
    split_ifs at hst <;> cases hst
    · exact Nat.add_pos_left (by decide) _
    · exact Nat.add_lt_add_right (by decide) _
  | loop =>
    have ht := (h.rxifNext hst).pc
    simp only [RxPath.rxifNext] at hst
    split_ifs at hst <;> cases hst
    · exact Nat.add_pos_left (by decide) _
    · obtain ⟨-, hlen, hseen, -⟩ := ht
      generalize (getRxLinearLen ring).toNat = len at hlen hseen
      change 3 * len + 5 - 0 + 8 * (seen - (handed.length + len)) <
        1 + 8 * (seen - handed.length)
      change handed.length + len ≤ seen at hseen
      omega
  | read len objs =>
    have hok : (RxPc.read len objs).Ok ring.slots ring.head stored seen handed.length := h.pc
    obtain ⟨-, -, -, -, hobjs, -⟩ := hok
    simp only [RxPath.rxifNext] at hst
    split_ifs at hst with hlt <;> cases hst
    · simp only [rxRank, List.length_append, List.length_singleton]
      omega
    · simp only [rxRank]
      omega
  | one objs i =>
    have hok : (RxPc.one objs i).Ok ring.slots ring.head stored seen handed.length := h.pc
    obtain ⟨-, hi, -, -⟩ := hok
    have hun : i ≤ handed.length := h.untailed
    simp only [RxPath.rxifNext] at hst
    split at hst <;> cases hst
    · rename_i hnone
      have hlen := List.getElem?_eq_none_iff.mp hnone
      simp only [rxRank]
      omega
    · rename_i obj hobj
      have hlt : i < objs.length := (List.getElem?_eq_some_iff.mp hobj).1
      simp only [rxRank, List.length_append, List.length_singleton]
      omega
  | uinc len done =>
    simp only [RxPath.rxifNext] at hst
    split_ifs at hst with hlt <;> cases hst
    · simp only [rxRank]
      omega
    · simp only [rxRank]
      omega
  | tail len =>
    cases hst
    exact Nat.add_lt_add_right (by decide) _

theorem Inv.rxRank_le {s : RxPath} (h : Inv s) : s.rxRank ≤ 4 + 8 * s.ring.slots := by
  have hbound := h.seen_le
  rcases s with ⟨ring, pc, chip, stored, handed, seen⟩
  cases pc with
  | idle _ => exact Nat.zero_le _
  | update => exact le_rfl
  | head _ | checkTail | loop | tail _ =>
    change seen + 0 ≤ handed.length + ring.slots at hbound
    simp only [rxRank]
    omega
  | read len objs =>
    have hok : (RxPc.read len objs).Ok ring.slots ring.head stored seen handed.length := h.pc
    obtain ⟨-, hlen, hseen, -, -, -⟩ := hok
    change seen + 0 ≤ handed.length + ring.slots at hbound
    simp only [rxRank]
    omega
  | one objs i =>
    have hok : (RxPc.one objs i).Ok ring.slots ring.head stored seen handed.length := h.pc
    obtain ⟨-, hi, hseen, -⟩ := hok
    have hun : i ≤ handed.length := h.untailed
    change seen + i ≤ handed.length + ring.slots at hbound
    simp only [rxRank]
    omega
  | uinc len done =>
    change seen + (len - done) ≤ handed.length + ring.slots at hbound
    have hseen : handed.length ≤ seen := h.handedSeen
    simp only [rxRank]
    omega

theorem rxRank_receive (s : RxPath) (obj : HwRxObj) : (s.receive obj).rxRank = s.rxRank := by
  unfold RxPath.receive
  split_ifs <;> rfl

/-- Within one call, only its own steps count. -/
theorem Inv.rxRank_step {s t : RxPath} {e : RxPathEvent} (h : Inv s) (he : e ≠ .handleRxif)
    (hst : RxPath.step sanity s e = some t) :
    t.rxRank + (if e = .rxif then 1 else 0) ≤ s.rxRank := by
  cases e with
  | receive obj =>
    cases hst
    exact (rxRank_receive s obj).le
  | handleRxif => exact absurd rfl he
  | rxif => exact h.rxRank_lt hst

/-- A running call can always go on. -/
theorem exists_rxifNext {s : RxPath} (h : ∀ ret, s.pc ≠ .idle ret) :
    ∃ t, s.rxifNext sanity = some t := by
  rcases s with ⟨ring, pc, chip, stored, handed, seen⟩
  cases pc with
  | idle ret => exact absurd rfl (h ret)
  | one objs i =>
    cases hobj : objs[i]? with
    | none =>
      simp only [RxPath.rxifNext, hobj]
      exact ⟨_, rfl⟩
    | some obj =>
      simp only [RxPath.rxifNext, hobj]
      exact ⟨_, rfl⟩
  | checkTail | loop | read _ _ | uinc _ _ =>
    simp only [RxPath.rxifNext]
    split_ifs <;> exact ⟨_, rfl⟩
  | update | head _ | tail _ => exact ⟨_, rfl⟩

end RxPath

/-- The frames stored are handed up once and in order, and no others; a call returns after at
most `4 + 8 * obj_num` steps, without an error, with the frames there when it read FIFOCI handed
up and the tails equal; and while frames are left in the FIFO a call can be made. -/
theorem handleRxifRing_run (sanity : Bool) (ring : RxRing) (ram : ℕ → HwRxObj) {s : RxPath}
    (hs : (rxPath sanity ring ram).Reachable s) :
    s.handed <+: s.stored ∧
    (∀ err, s.pc = .idle err → err = 0 ∧ s.handed = s.stored.take s.seen ∧
      s.ring.tail = s.ring.head ∧ (getRxTail s.ring).toNat = s.chip.freed % s.ring.slots ∧
      (s.handed.length < s.stored.length → RxPath.step sanity s .handleRxif ≠ none)) ∧
    ((∀ err, s.pc ≠ .idle err) → RxPath.step sanity s .rxif ≠ none) ∧
    ∀ es t, .handleRxif ∉ es → (rxPath sanity ring ram).runFrom s es = some t →
      es.count .rxif ≤ 4 + 8 * s.ring.slots := by
  have hi := (RxPath.inv_invariant sanity ring ram).reachable hs
  refine ⟨hi.handed, fun err hpc => ?_, fun hrun => ?_, fun es t hes ht => ?_⟩
  · have hok := hi.pc
    have htail := hi.tail
    have hfreed := hi.freed
    have hwritten := hi.written
    have hindex := hi.getRxTail (by rw [hpc]; rfl)
    rw [hpc] at hok htail hfreed
    obtain ⟨herr, hhead, hseen⟩ := hok
    change s.chip.freed + 0 = s.handed.length at hfreed
    refine ⟨herr, ?_, htail.trans hhead.symm, ?_, fun hlt => ?_⟩
    · rw [hseen]
      exact List.prefix_iff_eq_take.mp hi.handed
    · rw [hindex, ← hfreed, Nat.add_zero]
    · have hrun : err = 0 ∧ s.chip.freed < s.chip.written := ⟨herr, by omega⟩
      simp only [RxPath.step, hpc, if_pos hrun]
      exact Option.some_ne_none _
  · obtain ⟨t, ht⟩ := @RxPath.exists_rxifNext sanity _ hrun
    simp only [RxPath.step, ht]
    exact Option.some_ne_none t
  · have hcount := Sys.runFrom_countP_le (q := (· ≠ .handleRxif)) (p := (· == .rxif))
      (RxPath.inv_invariant sanity ring ram).step
      (fun h he hst => by simpa using h.rxRank_step he hst) hi
      (fun e he heq => hes (heq ▸ he)) ht
    exact (Nat.le_of_add_left_le hcount).trans hi.rxRank_le

/-- The RX ring of a CAN device. -/
def rxRingCan : RxRing := ⟨0, 0, 0x4e0, 0, 2, 32, 20, by decide⟩

def zeroData : Data := Vector.replicate 64 0

def zeroRxObj : HwRxObj := ⟨0, 0, 0, zeroData⟩

def rxObjNr (n : ℕ) : HwRxObj := ⟨0x123, UInt32.ofNat n, 7, zeroData⟩

/-- 20 frames come in and are handled. -/
def receiveSome : List RxPathEvent :=
  (List.range 20).map (fun n => .receive (rxObjNr n)) ++ .handleRxif :: List.replicate 69 .rxif

/-- Then 33 come in, one more than the FIFO has room for, and are handled in two pieces. -/
def receiveFull : List RxPathEvent :=
  (List.range 33).map (fun n => .receive (rxObjNr (20 + n))) ++
    .handleRxif :: List.replicate 110 .rxif

theorem handleRxifRing_run_receiveFull : ∃ s,
    (rxPath true rxRingCan fun _ => zeroRxObj).runFrom
        (RxPath.init rxRingCan fun _ => zeroRxObj) (receiveSome ++ receiveFull) = some s ∧
      s.handed = (List.range 52).map rxObjNr ∧ s.ring.tail = 52 ∧
      (getRxTail s.ring).toNat = s.chip.freed % s.ring.slots := by
  have hview : ((rxPath true rxRingCan fun _ => zeroRxObj).runFrom
      (RxPath.init rxRingCan fun _ => zeroRxObj) (receiveSome ++ receiveFull)).map
        (fun s => (s.pc, s.seen, s.ring.head, s.stored)) =
          some (.idle 0, 52, 52, (List.range 52).map rxObjNr) := by decide +kernel
  obtain ⟨s, hs, hview⟩ := Option.map_eq_some_iff.mp hview
  obtain ⟨hpc, hseen, hhead, hstored⟩ : _ ∧ _ ∧ _ ∧ _ := by
    simpa only [Prod.mk.injEq] using hview
  obtain ⟨-, hidle, -, -⟩ := handleRxifRing_run true rxRingCan _ ⟨_, hs⟩
  obtain ⟨-, hhanded, htail, hchip, -⟩ := hidle 0 hpc
  refine ⟨s, hs, ?_, htail.trans hhead, hchip⟩
  rw [hhanded, hseen, hstored]
  rfl

end YoctoLayers.Mcp251xfd
