import YoctoLayers.Mcp251xfd.RxBus.Follows

/-! One round of `mcp251xfd_handle_rxif_ring`: each access is a step of the receive path, whatever
comes in before it. -/
namespace YoctoLayers.Mcp251xfd
open YoctoLayers.Lib DrvM

variable {board : Board} {fd : Bool} {tx : TxRing} {g : RxRing} {t : Traffic fd g.objSize.toNat}
variable {maps : Regmaps} {tick₀ : ℕ} {w : World RxBus}

/-! ### The ring -/

/-- At `pc`, the driver working with `ring` and the call seeing `lo` frames at least. -/
def RxAt (board : Board) (t : Traffic fd g.objSize.toNat) (maps : Regmaps) (tick₀ lo : ℕ)
    (pc : RxPc) (ring : RxRing) : World RxBus → Prop :=
  RxOn board t maps tick₀ fun s => s.pc = pc ∧ s.ring = ring ∧ lo ≤ s.sees

theorem stable_at (lo : ℕ) (pc : RxPc) (ring : RxRing) :
    RxStable fun s => s.pc = pc ∧ s.ring = ring ∧ lo ≤ s.sees := by
  rintro s s' h ⟨hpc, hring, hlo⟩
  exact ⟨h.pc.trans hpc, h.ring.trans hring, hlo.trans h.sees⟩

variable {lo : ℕ} {pc pc' : RxPc} {ring ring' : RxRing}

theorem RxAt.ring_eq (h : RxAt board t maps tick₀ lo pc ring w) :
    ring = { g with head := ring.head, tail := ring.tail } := by
  obtain ⟨s, hs, -, -, -, rfl, -⟩ := h
  exact hs.ring

/-- A step that touches neither the bus nor what is handed up. -/
theorem RxAt.silent (h : RxAt board t maps tick₀ lo pc ring w)
    (hnext : ∀ s, RxFollows board t w.env s → s.pc = pc → s.ring = ring →
      ∃ seen, s.rxifNext board.sanity =
        some { s with ring := ring', pc := pc', seen := seen }) :
    RxAt board t maps tick₀ lo pc' ring' { w with priv := { w.priv with rx := some ring' } } := by
  obtain ⟨s, hs, hrx, hsince, hpc, hring, hlo⟩ := h
  obtain ⟨seen, hstep⟩ := hnext s hs hpc hring
  exact ⟨_, hs.silent hstep rfl rfl rfl, rfl, hsince, rfl, rfl,
    hlo.trans (RxPath.sees_rxifNext hstep)⟩

theorem RxAt.silent' (h : RxAt board t maps tick₀ lo pc ring w)
    (hnext : ∀ s, RxFollows board t w.env s → s.pc = pc → s.ring = ring →
      ∃ seen, s.rxifNext board.sanity = some { s with pc := pc', seen := seen }) :
    RxAt board t maps tick₀ lo pc' ring w := by
  obtain ⟨s, hs, hrx, hsince, hpc, hring, hlo⟩ := h
  obtain ⟨seen, hstep⟩ := hnext s hs hpc hring
  exact ⟨_, hs.silent hstep rfl rfl rfl, hrx, hsince, rfl, hring,
    hlo.trans (RxPath.sees_rxifNext hstep)⟩

section
variable (hready : RingsReady fd tx g) (dv : Fork.Dv)
include hready

/-- FIFOCI is read: the call knows how far the controller has come. -/
theorem ensures_rxHeadGetFromChip :
    Ensures (RxAt board t maps tick₀ lo .update ring)
      ((Fork.driver (Env.rxBus board t) dv).rxHeadGetFromChip ring)
      (fun c => RxAt board t maps tick₀ lo (.head c) ring)
      fun _ => RxFailed board t maps tick₀ := by
  refine Ensures.given (fun w hw => hw.ring_eq) fun hring => ?_
  have hfifo : ring.fifoNr = g.fifoNr := by rw [hring]
  have hosc : regFifosta g.fifoNr ≠ regOsc := by
    rw [hready.rxFifo]
    decide
  unfold Driver.rxHeadGetFromChip Driver.fifociGet
  rw [hfifo]
  refine ((waits_on hready (stable_at lo .update ring)).regmapRead hosc).bind
    fun val => Ensures.pure fun w hw => ?_
  obtain ⟨hat, other, hval⟩ := hw
  rw [hval, RxBus.getLe32_fifosta hready, RxBus.fifoci_fifosta]
  refine RxAt.silent' hat fun s hs hpc _ => ⟨s.stored.length, ?_⟩
  unfold RxPath.rxifNext
  rw [hpc, hs.slots, ← hs.written]

/-- The check of the tails passes. -/
theorem ensures_checkRxTail :
    Ensures (RxAt board t maps tick₀ lo .checkTail ring)
      ((Fork.driver (Env.rxBus board t) dv).checkRxTail ring)
      (fun _ => RxAt board t maps tick₀ lo .loop ring) fun _ => RxFailed board t maps tick₀ := by
  have hgo (w : World RxBus) (hw : RxAt board t maps tick₀ lo .checkTail ring w) :
      RxAt board t maps tick₀ lo .loop ring w := by
    refine hw.silent' fun s hs hpc _ => ⟨s.seen, ?_⟩
    have hsame : s.rxTailDiffers board.sanity = false :=
      hs.inv.not_rxTailDiffers (by rw [hpc]; rfl) (by rw [hpc]; rfl)
    unfold RxPath.rxifNext
    rw [hpc]
    simp only [hsame, Bool.false_eq_true, if_false]
  refine Ensures.given (fun w hw => hw.ring_eq) fun hring => ?_
  have hfifo : ring.fifoNr = g.fifoNr := by rw [hring]
  have hbase : ring.base = g.base := by rw [hring]
  have hsize : ring.objSize = g.objSize := by rw [hring]
  have hosc : regFifoua g.fifoNr ≠ regOsc := by
    rw [hready.rxFifo]
    decide
  unfold Driver.checkRxTail
  rw [hfifo, hbase, hsize]
  refine Ensures.ite (fun _ => Ensures.pure hgo) fun _ => ?_
  refine ((waits_on hready (stable_at lo .checkTail ring)).regmapRead hosc).bind fun val => ?_
  refine Ensures.given (c := UInt8.ofNat ((val - (g.base.toUInt32 - ramStart.toUInt32)).toNat /
    g.objSize.toNat) = getRxTail ring) (fun w hw => ?_) fun hsame => ?_
  · obtain ⟨⟨s, hs, -, -, hpc, rfl, -⟩, other, rfl⟩ := hw
    have htail := hs.inv.getRxTail (by rw [hpc]; rfl)
    have hfreed := hs.inv.freed
    have hmod := Nat.mod_lt w.env.freed g.slots_bounds.1
    have hmax : rxObjNumMax = 32 := rfl
    have hle := g.slots_bounds.2
    rw [hpc] at hfreed
    change s.chip.freed + 0 = s.handed.length at hfreed
    rw [RxBus.getLe32_fifoua hready, RxBus.fifoua_index hready, ← UInt8.toNat_inj, htail,
      ← hfreed, hs.freed, hs.slots, UInt8.toNat_ofNat', Nat.add_zero]
    exact Nat.mod_eq_of_lt (by omega)
  · refine Ensures.ite (fun h => absurd hsame h) fun _ => ?_
    exact Ensures.pure fun w hw => hgo w hw.1

theorem ensures_rxRingUpdate :
    Ensures (RxAt board t maps tick₀ lo .update ring)
      ((Fork.driver (Env.rxBus board t) dv).rxRingUpdate ring)
      (fun ring' => RxAt board t maps tick₀ lo .loop ring')
      fun _ => RxFailed board t maps tick₀ := by
  refine (ensures_rxHeadGetFromChip hready dv).bind fun c => ?_
  refine Ensures.bind (Q := fun _ => RxAt board t maps tick₀ lo .checkTail (rxRingUpdate ring c)) ?_
    fun _ => (ensures_checkRxTail hready dv).bind fun _ => Ensures.pure fun _ hw => hw
  refine ensures_iff.mpr fun w hw => hw.silent fun s hs hpc hring => ⟨s.seen, ?_⟩
  unfold RxPath.rxifNext
  rw [hpc, hring]

end

/-! ### The objects of a round -/

theorem RxFollows.mem_receive (hready : RingsReady fd tx g) {b : RxBus} {s : RxPath}
    (h : RxFollows board t b s) {len : ℕ} (hpc : s.pc = .read len []) {i : ℕ}
    (hi : i < len * g.objSize.toNat) (frame : RxFrame fd g.objSize.toNat) :
    (b.receive g frame).mem (g.slotAddr (s.handed.length % g.slots) + i) =
      b.mem (g.slotAddr (s.handed.length % g.slots) + i) := by
  have hsize := hready.rxSize_ge
  have hinv := h.inv
  have hok := hinv.pc
  have hfreed := hinv.freed
  have hseen := hinv.seen
  have hwritten := hinv.written
  rw [hpc] at hok hfreed
  obtain ⟨-, -, hle, hlin, -, -⟩ := hok
  change s.chip.freed + 0 = s.handed.length at hfreed
  rw [h.slots] at hlin
  unfold RxBus.receive
  split_ifs with hroom
  · have hwr := h.written
    have hfr := h.freed
    have hk : i / g.objSize.toNat < len := Nat.div_lt_of_lt_mul (by rwa [Nat.mul_comm])
    have hdiv := Nat.div_add_mod i g.objSize.toNat
    generalize i / g.objSize.toNat = k at hk hdiv
    have hmod := Nat.mod_lt i (show 0 < g.objSize.toNat by omega)
    have hne : (s.handed.length + k) % g.slots ≠ b.written % g.slots :=
      slot_ne (by omega) (by omega)
    rw [slot_add_near (by omega)] at hne
    have hapart := g.slots_apart hne
    have hslot : g.slotAddr (s.handed.length % g.slots + k) =
        g.slotAddr (s.handed.length % g.slots) + g.objSize.toNat * k := by
      unfold RxRing.slotAddr
      rw [Nat.mul_add, Nat.add_assoc]
    exact if_neg (by omega)
  · rfl

/-- A slot that is being read stays as it is. -/
theorem RxFollows.mem_receiveAll (hready : RingsReady fd tx g) {b : RxBus} {s : RxPath}
    (h : RxFollows board t b s) {len : ℕ} (hpc : s.pc = .read len []) {i : ℕ}
    (hi : i < len * g.objSize.toNat) (frames : List (RxFrame fd g.objSize.toNat)) :
    (b.receiveAll g frames).mem (g.slotAddr (s.handed.length % g.slots) + i) =
      b.mem (g.slotAddr (s.handed.length % g.slots) + i) := by
  induction frames generalizing b s with
  | nil => rfl
  | cons frame frames ih =>
    have hone := sameCall_receive s (rxObjOf g.objSize.toNat frame.bytes)
    have hrest := ih (h.receive hready frame) (hone.pc.trans hpc)
    rw [hone.handed] at hrest
    exact hrest.trans (h.mem_receive hready hpc hi frame)

/-- The bytes of the slots that are to be read. -/
def RxReading (board : Board) (t : Traffic fd g.objSize.toNat) (maps : Regmaps)
    (tick₀ lo len : ℕ) (ring : RxRing) (m : ℕ → UInt8) (w : World RxBus) : Prop :=
  RxAt board t maps tick₀ lo (.read len []) ring w ∧
    ∀ i < len * g.objSize.toNat, w.env.mem (g.slotAddr (getRxTail ring).toNat + i) = m i

theorem RxFollows.getRxTail {b : RxBus} {s : RxPath} (h : RxFollows board t b s)
    (hpc : s.pc.untailed = 0) : (getRxTail s.ring).toNat = s.handed.length % g.slots := by
  rw [h.inv.getRxTail hpc, h.slots]

theorem waits_reading (hready : RingsReady fd tx g) (lo len : ℕ) (ring : RxRing) (m : ℕ → UInt8) :
    RxWaits board t maps tick₀ (RxReading board t maps tick₀ lo len ring m) where
  arrive := by
    rintro w ⟨hat, hmem⟩
    refine ⟨(waits_on hready (stable_at lo _ ring)).arrive w hat, fun i hi => ?_⟩
    rw [← hmem i hi]
    obtain ⟨s, hs, -, -, hpc, rfl, -⟩ := hat
    rw [hs.getRxTail (by rw [hpc]; rfl)]
    exact hs.mem_receiveAll hready hpc hi _
  since w hw := (waits_on hready (stable_at lo _ ring)).since w hw.1
  failed w hw hfails := RxOn.failed hw.1 hfails

/-- The slots, read one after the other. -/
theorem RxFollows.readAll {b : RxBus} {s : RxPath} (h : RxFollows board t b s) {len k : ℕ}
    (hk : k ≤ len) (hpc : s.pc = .read len ((List.range k).map fun i =>
      s.chip.ram ((Mcp251xfd.getRxTail s.ring).toNat + i))) :
    ∃ s', RxFollows board t b s' ∧ s'.ring = s.ring ∧ s.sees ≤ s'.sees ∧
      s'.pc = .one ((List.range len).map fun i =>
        s.chip.ram ((Mcp251xfd.getRxTail s.ring).toNat + i)) 0 := by
  obtain ⟨n, rfl⟩ := Nat.exists_eq_add_of_le hk
  induction n generalizing k s with
  | zero =>
    let s₁ : RxPath := { s with
      pc := .one ((List.range k).map fun i =>
        s.chip.ram ((Mcp251xfd.getRxTail s.ring).toNat + i)) 0 }
    have hnext : s.rxifNext board.sanity = some s₁ := by
      unfold RxPath.rxifNext
      rw [hpc]
      simp only [List.length_map, List.length_range, Nat.add_zero, Nat.lt_irrefl, if_false]
      rfl
    exact ⟨s₁, h.silent hnext rfl rfl rfl, rfl, RxPath.sees_rxifNext hnext, rfl⟩
  | succ n ih =>
    let s₁ : RxPath := { s with
      pc := .read (k + (n + 1)) ((List.range (k + 1)).map fun i =>
        s.chip.ram ((Mcp251xfd.getRxTail s.ring).toNat + i)) }
    have hnext : s.rxifNext board.sanity = some s₁ := by
      unfold RxPath.rxifNext s₁
      rw [hpc]
      simp only [List.length_map, List.length_range]
      rw [if_pos (by omega), List.range_succ, List.map_append]
      rfl
    have hs₁ : RxFollows board t b s₁ := h.silent hnext rfl rfl rfl
    have hlen : k + (n + 1) = k + 1 + n := by omega
    obtain ⟨s', hs', hring, hsees, hpc'⟩ := ih hs₁ (k := k + 1) (by omega) (by rw [← hlen])
    exact ⟨s', hs', hring, (RxPath.sees_rxifNext hnext).trans hsees, by rw [hpc', hlen]⟩

theorem toNat_getRxObjAddr (hready : RingsReady fd tx g)
    (hring : ring = { g with head := ring.head, tail := ring.tail }) {n : UInt8}
    (hn : n.toNat < g.slots) : (getRxObjAddr ring n).toNat = g.slotAddr n.toNat := by
  have hbounds := hready.rxSlot_bounds hn
  have haddr := toNat_index g.base g.objSize n.toNat_lt (by
    unfold RxRing.slotAddr at hbounds
    omega)
  rw [UInt8.ofNat_toNat] at haddr
  have hbase : ring.base = g.base := by rw [hring]
  have hsize : ring.objSize = g.objSize := by rw [hring]
  unfold getRxObjAddr
  rw [hbase, hsize, haddr]
  rfl

theorem drop_take_range (m : ℕ → UInt8) {len off n : ℕ} (h : off + n ≤ len) :
    (((List.range len).map m).drop off).take n = (List.range n).map fun i => m (off + i) := by
  apply List.ext_getElem
  · simp only [List.length_take, List.length_drop, List.length_map, List.length_range]
    omega
  · intro i h₁ h₂
    simp

/-- The objects as the driver reads them, next to those of the receive path. -/
theorem ensures_readObjs (hready : RingsReady fd tx g) (dv : Fork.Dv) {len : ℕ} (hlen : 0 < len) :
    Ensures (RxAt board t maps tick₀ lo (.read len []) ring)
      ((Fork.driver (Env.rxBus board t) dv).regmapBulkRead Regmaps.mapRx
        (getRxObjAddr ring (getRxTail ring)) (len * ring.objSize.toNat))
      (fun data w => ∃ objs, RxAt board t maps tick₀ lo (.one objs 0) ring w ∧
        List.Forall₂ (fun x y => x.Agrees y (g.objSize.toNat - 12))
          ((List.range len).map (parseRxObj data ring.objSize.toNat)) objs)
      fun _ => RxFailed board t maps tick₀ := by
  refine Ensures.given (fun w hw => hw.ring_eq) fun hring => ?_
  refine Ensures.given (c := (getRxTail ring).toNat + len ≤ g.slots) ?_ fun hlin => ?_
  · rintro w ⟨s, hs, -, -, hpc, rfl, -⟩
    have hok := hs.inv.pc
    rw [hpc] at hok
    obtain ⟨-, -, -, hlin, -, -⟩ := hok
    rwa [hs.slots, ← hs.getRxTail (by rw [hpc]; rfl)] at hlin
  have hsize : ring.objSize = g.objSize := by rw [hring]
  have hge := hready.rxSize_ge
  have haddr := toNat_getRxObjAddr hready hring (n := getRxTail ring) (by omega)
  obtain ⟨hram, -⟩ := hready.rxSlot_bounds (n := (getRxTail ring).toNat) (by omega)
  have hend : g.slotAddr (getRxTail ring).toNat + len * g.objSize.toNat ≤ 0xc00 := by
    obtain ⟨l, rfl⟩ := Nat.exists_eq_add_of_le' hlen
    obtain ⟨-, hhi⟩ := hready.rxSlot_bounds (n := (getRxTail ring).toNat + l) (by omega)
    unfold RxRing.slotAddr at hhi ⊢
    rw [Nat.mul_add] at hhi
    rw [Nat.succ_mul, Nat.mul_comm l]
    omega
  have hpos : 0 < len * g.objSize.toNat := Nat.mul_pos hlen (by omega)
  have hwords : len * g.objSize.toNat % 4 = 0 := by
    rcases hready.rxSize_cases with ⟨h, -⟩ | ⟨h, -⟩
    · rw [h]
      omega
    · rw [h]
      omega
  rw [hsize]
  refine ensures_iff.mpr fun w₀ hw₀ => ?_
  let m (i : ℕ) : UInt8 := w₀.env.mem (g.slotAddr (getRxTail ring).toNat + i)
  let block := (List.range (len * g.objSize.toNat)).map m
  have hblen : block.length = len * g.objSize.toNat := by
    rw [List.length_map, List.length_range]
  have hreg (off : ℕ) (hoff : off ≤ len * g.objSize.toNat) :
      (getRxObjAddr ring (getRxTail ring) + UInt16.ofNat off).toNat =
        g.slotAddr (getRxTail ring).toNat + off := by
    rw [UInt16.toNat_add, haddr, UInt16.toNat_ofNat']
    omega
  have hwaits : RxWaits board t maps tick₀ (RxReading board t maps tick₀ lo len ring m) :=
    waits_reading hready lo len ring m
  have hread := hwaits.regmapBulkRead (getRxObjAddr ring (getRxTail ring)) block ?_ ?_ ?_ ?_
  · rw [hblen] at hread
    refine ensures_iff.mp (hread.imp (fun _ hw => hw) ?_ fun _ _ h => h) w₀ ⟨hw₀, fun _ _ => rfl⟩
    rintro data w ⟨⟨⟨s, hs, hrx, hsince, hpc, rfl, hlo⟩, hmem⟩, rfl⟩
    obtain ⟨s', hs', hring', hsees, hpc'⟩ := hs.readAll (Nat.zero_le len) hpc
    refine ⟨_, ⟨s', hs', by rw [hring', hrx], hsince, hpc', hring', hlo.trans hsees⟩, ?_⟩
    rw [List.forall₂_map_left_iff, List.forall₂_map_right_iff, List.forall₂_same]
    intro i hi
    have hi' := List.mem_range.mp hi
    rw [hs.ram _ (by omega)]
    have hobj := parseRxObj_agrees hge hi' m
    have hsame : (rxObjOf g.objSize.toNat fun j => m (i * g.objSize.toNat + j)) =
        rxObjOf g.objSize.toNat fun j =>
          w.env.mem (g.slotAddr ((getRxTail s.ring).toNat + i) + j) := by
      refine rxObjOf_congr hge fun j hj => ?_
      have hnext := Nat.mul_le_mul_right g.objSize.toNat (Nat.succ_le_of_lt hi')
      rw [Nat.succ_mul] at hnext
      rw [← hmem _ (by omega)]
      unfold RxRing.slotAddr
      rw [Nat.mul_add, Nat.mul_comm i]
      congr 1
      omega
    rwa [hsame] at hobj
  · rw [ne_eq, ← List.length_eq_zero_iff, hblen]
    omega
  · intro off hoff heq
    have hosc := congrArg UInt16.toNat heq
    rw [hblen] at hoff
    rw [hreg off hoff.le] at hosc
    change _ = 0xe00 at hosc
    omega
  · rintro w ⟨-, hmem⟩ off n hfit other
    rw [hblen] at hfit
    rw [hreg off (by omega), RxBus.bytes_ram other _ (by omega) (by omega),
      drop_take_range m hfit]
    refine List.map_congr_left fun i hi => ?_
    have := List.mem_range.mp hi
    rw [← hmem _ (by omega), Nat.add_assoc]
  · rwa [hblen]

/-! ### Handing up and giving back -/

/-- `mcp251xfd_handle_rxif_one` on the bus. -/
theorem run_handleRxifOne (dv : Fork.Dv) (obj : HwRxObj) (w : World RxBus) :
    (Fork.driver (Env.rxBus board t) dv).handleRxifOne obj w =
      .ok () { w with env := { w.env with
        allocs := w.env.allocs + 1
        queued := w.env.queued ++
          if t.noSkb w.env.allocs then [] else [(.can (board.dlc.rxSkb obj), obj.ts)] } } := by
  have halloc : (Env.rxBus board t).call (.allocSkb (obj.flags &&& objFlagsFdf ≠ 0)) w.env =
      (if t.noSkb w.env.allocs then -enomem else 0, { w.env with allocs := w.env.allocs + 1 }) :=
    rfl
  unfold Driver.handleRxifOne
  refine (run_bind_ok (run_access halloc)).trans ?_
  cases hskb : t.noSkb w.env.allocs with
  | true =>
    simp only [if_true, List.append_nil]
    rfl
  | false =>
    simp only [Bool.false_eq_true, if_false]
    rfl

theorem ensures_handleRxifOne (hready : RingsReady fd tx g) (dv : Fork.Dv)
    {objs : List HwRxObj} {i : ℕ} {x y : HwRxObj} (hy : objs[i]? = some y)
    (hxy : x.Agrees y (g.objSize.toNat - 12)) :
    Ensures (RxAt board t maps tick₀ lo (.one objs i) ring)
      ((Fork.driver (Env.rxBus board t) dv).handleRxifOne x)
      (fun _ => RxAt board t maps tick₀ lo (.one objs (i + 1)) ring)
      fun _ => RxFailed board t maps tick₀ := by
  refine ensures_iff.mpr fun w hw => ?_
  obtain ⟨s, hs, hrx, hsince, hpc, rfl, hlo⟩ := hw
  have hok := hs.inv.pc
  have hun := hs.inv.untailed
  rw [hpc] at hok hun
  change i ≤ s.handed.length at hun
  obtain ⟨-, -, -, hstored⟩ := hok
  have hmem : y ∈ s.stored := List.mem_of_getElem? (hstored i y hy)
  have hskb : board.dlc.rxSkb x = board.dlc.rxSkb y := by
    refine board.dlc.rxSkb_congr hxy ?_
    rw [hxy.flags_eq]
    rcases hready.rxSize_cases with ⟨hsize, -⟩ | ⟨hsize, hfd⟩
    · rw [hsize]
      exact board.dlc.rxLen_le _
    · rw [hsize]
      exact board.dlc.rxLen_le_cc (hs.kinds y hmem hfd)
  have hnext : s.rxifNext board.sanity =
      some { s with handed := s.handed ++ [y], pc := .one objs (i + 1) } := by
    unfold RxPath.rxifNext
    rw [hpc]
    simp only [hy]
  obtain ⟨ram, hreach⟩ := hs.reachable
  have hstep : (rxPath board.sanity g ram).step s .rxif = some _ := hnext
  rw [run_handleRxifOne]
  refine ⟨_, ⟨⟨ram, hreach.next hstep⟩, hs.written, hs.freed, hs.ram, hs.stored, hs.kinds, ?_, ?_⟩,
    hrx, hsince, rfl, rfl, hlo.trans (RxPath.sees_rxifNext hnext)⟩
  · change w.env.queued ++ _ = rxQueue board.dlc t.noSkb (s.handed ++ [y])
    rw [rxQueue_concat, hs.queued, hs.allocs, hskb, hxy.ts_eq]
  · change w.env.allocs + 1 = (s.handed ++ [y]).length
    rw [List.length_append, hs.allocs]
    rfl

theorem ensures_handleRxObjs (hready : RingsReady fd tx g) (dv : Fork.Dv) (pre : List HwRxObj)
    {xs ys : List HwRxObj}
    (hxy : List.Forall₂ (fun x y => HwRxObj.Agrees x y (g.objSize.toNat - 12)) xs ys) :
    Ensures (RxAt board t maps tick₀ lo (.one (pre ++ ys) pre.length) ring)
      ((Fork.driver (Env.rxBus board t) dv).handleRxObjs xs)
      (fun _ => RxAt board t maps tick₀ lo (.uinc (pre ++ ys).length 0) ring)
      fun _ => RxFailed board t maps tick₀ := by
  induction hxy generalizing pre with
  | nil =>
    refine Ensures.pure fun w hw => hw.silent' fun s _ hpc _ => ⟨s.seen, ?_⟩
    unfold RxPath.rxifNext
    rw [hpc]
    simp
  | @cons x y xs ys hone hrest ih =>
    have hy : (pre ++ y :: ys)[pre.length]? = some y := by simp
    refine (ensures_handleRxifOne hready dv hy hone).bind fun _ => ?_
    have hnext := ih (pre ++ [y])
    rw [List.append_assoc, List.singleton_append, List.length_append] at hnext
    exact hnext

/-- One UINC gives back the slot of the next object handed up. -/
theorem RxFollows.uinc {b : RxBus} {s : RxPath} (h : RxFollows board t b s) {len k : ℕ}
    (hpc : s.pc = .uinc len k) (hk : k < len) :
    ∃ s', s.rxifNext board.sanity = some s' ∧ s'.pc = .uinc len (k + 1) ∧ s'.ring = s.ring ∧
      RxFollows board t (b.write g (regFifocon g.fifoNr + 1) [0x01]) s' := by
  have hfreed := h.inv.freed
  have hseen := h.inv.seen
  have hhanded := h.inv.handedSeen
  have hwritten := h.inv.written
  rw [hpc] at hfreed
  change s.chip.freed + (len - k) = s.handed.length at hfreed
  have hwr := h.written
  have hfr := h.freed
  have hwrite : b.write g (regFifocon g.fifoNr + 1) [0x01] = { b with freed := b.freed + 1 } := by
    unfold RxBus.write
    exact if_pos ⟨rfl, by decide, by omega⟩
  have hnext : s.rxifNext board.sanity = some { s with
      chip := { s.chip with freed := s.chip.freed + 1 }, pc := .uinc len (k + 1) } := by
    unfold RxPath.rxifNext
    rw [hpc]
    simp only [hk, if_true]
  obtain ⟨ram, hreach⟩ := h.reachable
  have hstep : (rxPath board.sanity g ram).step s .rxif = some _ := hnext
  rw [hwrite]
  refine ⟨_, hnext, rfl, rfl,
    ⟨ram, hreach.next hstep⟩, h.written, ?_, h.ram, h.stored, h.kinds, h.queued, h.allocs⟩
  change s.chip.freed + 1 = b.freed + 1
  rw [h.freed]

theorem RxBus.tick_write (b : RxBus) (reg : UInt16) (data : List UInt8) :
    (b.write g reg data).tick = b.tick := by
  unfold RxBus.write
  split_ifs <;> rfl

/-- A write, whatever it does, leaves alone what is stored and queued. -/
theorem RxFailed.write {b : RxBus} {reg : UInt16} {data : List UInt8}
    (h : RxFailed board t maps tick₀ { w with env := b }) :
    RxFailed board t maps tick₀ { w with env := b.write g reg data } := by
  obtain ⟨hfails, ram, s, hreach, hstored, hqueued⟩ := h
  refine ⟨fun hreg hrx => ?_, ram, s, hreach, ?_, ?_⟩
  · change t.Fails tick₀ (b.write g reg data).tick
    rw [b.tick_write]
    exact hfails hreg hrx
  · unfold RxBus.write
    split_ifs <;> exact hstored
  · unfold RxBus.write
    split_ifs <;> exact hqueued

theorem ensures_uincOne (hready : RingsReady fd tx g) {len k : ℕ} (hk : k < len) :
    Ensures (RxAt board t maps tick₀ lo (.uinc len k) ring)
      ((Env.rxBus board t).spiWrite (regFifocon g.fifoNr + 1) [0x01])
      (fun _ => RxAt board t maps tick₀ lo (.uinc len (k + 1)) ring)
      fun _ => RxFailed board t maps tick₀ := by
  refine Ensures.bind (Q := fun _ => RxAt board t maps tick₀ lo (.uinc len k) ring)
    (ensures_iff.mpr fun _ hw => hw) fun _ => ?_
  refine Ensures.bind (Q := fun err w => if err = 0 then
    RxAt board t maps tick₀ lo (.uinc len (k + 1)) ring w
    else RxFailed board t maps tick₀ w) ?_ fun err => ?_
  · refine ensures_access _ fun w hw => ?_
    have harrive := (waits_on hready (stable_at lo _ ring)).arrive w hw
    by_cases herr : t.err w.env.tick = 0
    · simp only [Env.rxBus, herr, ne_eq, not_true_eq_false, if_false, if_true]
      obtain ⟨s, hs, hrx, hsince, hpc, hring, hlo⟩ := harrive
      obtain ⟨s', hnext, hpc', hring', hs'⟩ := hs.uinc hpc hk
      refine ⟨s', hs', by rw [hring', hrx], ⟨hsince.1, ?_⟩, hpc', hring'.trans hring,
        hlo.trans (RxPath.sees_rxifNext hnext)⟩
      exact hsince.2.trans (RxBus.tick_write _ _ _).ge
    · have hfailed : RxFailed board t maps tick₀ { w with env := w.env.arrive t } :=
        (waits_on hready (stable_at lo _ ring)).failed_access hw herr
      simp only [Env.rxBus, if_pos herr, if_neg herr]
      split_ifs
      · exact hfailed.write
      · exact hfailed
  · refine Ensures.ite (fun herr => Ensures.pure fun w hw => ?_) fun herr =>
      Ensures.throw fun w hw => ?_
    · rwa [if_pos herr] at hw
    · rwa [if_neg herr] at hw

/-- The UINCs of a round. -/
theorem ensures_uinc (hready : RingsReady fd tx g) (dv : Fork.Dv) {len k : ℕ} (n : ℕ)
    (hn : k + n ≤ len) :
    Ensures (RxAt board t maps tick₀ lo (.uinc len k) ring)
      ((Fork.driver (Env.rxBus board t) dv).spiWriteTimes
        (cmdPrepareWriteReg (regFifocon g.fifoNr) fifoconUinc fifoconUinc) n)
      (fun _ => RxAt board t maps tick₀ lo (.uinc len (k + n)) ring)
      fun _ => RxFailed board t maps tick₀ := by
  induction n generalizing k with
  | zero => exact Ensures.pure fun w hw => hw
  | succ n ih =>
    have hnext := ih (k := k + 1) (by omega)
    rw [show k + 1 + n = k + (n + 1) by omega] at hnext
    have hmsg : cmdPrepareWriteReg (regFifocon g.fifoNr) fifoconUinc fifoconUinc =
        (regFifocon g.fifoNr + 1, [0x01]) := rfl
    unfold Driver.spiWriteTimes
    rw [hmsg] at hnext ⊢
    exact (ensures_uincOne hready (by omega)).bind fun _ => hnext

end YoctoLayers.Mcp251xfd
