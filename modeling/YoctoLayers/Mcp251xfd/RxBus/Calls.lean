import YoctoLayers.Mcp251xfd.RxBus.Round

/-! Calls of `mcp251xfd_handle_rxif`: all rounds of a call, and any number of calls. -/
namespace YoctoLayers.Mcp251xfd
open YoctoLayers.Lib DrvM

variable {board : Board} {fd : Bool} {tx : TxRing} {g : RxRing} {t : Traffic fd g.objSize.toNat}
variable {maps : Regmaps} {w : World RxBus} {tick₀ lo : ℕ} {ring : RxRing}

/-- What is left, up to the end of the ring. -/
theorem RxAt.linearLen (h : RxAt board t maps tick₀ lo .loop ring w) :
    (getRxLinearLen ring).toNat ≤ lead ring.tail ring.head ∧
      lead ring.tail ring.head ≤ g.slots ∧
      ((getRxLinearLen ring).toNat = 0 → lead ring.tail ring.head = 0) := by
  obtain ⟨s, hs, -, -, hpc, rfl, -⟩ := h
  have hlen := hs.inv.linearLen hpc
  have hbound := hs.inv.seen_le
  have hok := hs.inv.pc
  have htail := hs.inv.tail
  have hpos := g.slots_bounds
  have hmax : rxObjNumMax = 32 := rfl
  have hmod := Nat.mod_lt s.handed.length hpos.1
  rw [hpc] at hbound hok htail
  change s.seen + 0 ≤ s.handed.length + s.ring.slots at hbound
  change s.ring.head = UInt32.ofNat s.seen at hok
  change s.ring.tail = UInt32.ofNat s.handed.length at htail
  rw [hs.slots] at hbound hlen
  have hlead : lead s.ring.tail s.ring.head = s.seen - s.handed.length := by
    rw [htail, hok]
    exact lead_ofNat hs.inv.handedSeen (by omega)
  rw [hlead, hlen]
  omega

/-- The tail moves on by what was read. -/
theorem lead_add_tail {tail head : UInt32} {len : UInt8} (h : len.toNat ≤ lead tail head) :
    lead (tail + len.toUInt32) head = lead tail head - len.toNat := by
  have hlen := len.toNat_lt
  have htail := tail.toNat_lt
  have hhead := head.toNat_lt
  rw [lead_def] at h ⊢
  rw [lead_def, UInt32.toNat_add, UInt8.toNat_toUInt32]
  omega

theorem ensures_rxifRounds (hready : RingsReady fd tx g) (dv : Fork.Dv) {rounds : ℕ}
    (hrounds : lead ring.tail ring.head < rounds) :
    Ensures (RxAt board t maps tick₀ lo .loop ring)
      ((Fork.driver (Env.rxBus board t) dv).rxifRounds ring rounds)
      (fun _ w => ∃ ring', RxAt board t maps tick₀ lo (.idle 0) ring' w)
      fun _ => RxFailed board t maps tick₀ := by
  induction rounds generalizing ring with
  | zero => exact absurd hrounds (Nat.not_lt_zero _)
  | succ rounds ih =>
    refine Ensures.given (fun w hw => hw.linearLen) fun hlinear => ?_
    refine Ensures.given (fun w hw => hw.ring_eq) fun hring => ?_
    obtain ⟨hle, hslots, hzero⟩ := hlinear
    have hfifo : ring.fifoNr = g.fifoNr := by rw [hring]
    unfold Driver.rxifRounds
    refine Ensures.ite (fun hlen => Ensures.pure fun w hw => ⟨ring, ?_⟩) fun hlen => ?_
    · refine hw.silent' fun s hs hpc hr => ⟨s.seen, ?_⟩
      unfold RxPath.rxifNext
      rw [hpc, hr, hlen]
      rfl
    · have hpos : 0 < (getRxLinearLen ring).toNat := by
        rw [← UInt8.toNat_inj] at hlen
        exact Nat.pos_of_ne_zero hlen
      have hstart (w : World RxBus) (hw : RxAt board t maps tick₀ lo .loop ring w) :
          RxAt board t maps tick₀ lo (.read (getRxLinearLen ring).toNat []) ring w := by
        refine hw.silent' fun s hs hpc hr => ⟨s.seen, ?_⟩
        unfold RxPath.rxifNext
        rw [hpc, hr]
        simp only [hpos.ne', if_false]
      refine ((ensures_readObjs hready dv hpos).pre hstart).bind fun data => ?_
      refine Ensures.ofExists fun objs => Ensures.given (fun w hw => hw.2) fun hobjs => ?_
      have hcount : objs.length = (getRxLinearLen ring).toNat := by
        rw [← hobjs.length_eq, List.length_map, List.length_range]
      refine Ensures.bind ((ensures_handleRxObjs hready dv [] hobjs).pre
        fun w hw => hw.1) fun _ => ?_
      rw [List.nil_append, hcount, hfifo]
      refine (ensures_uinc hready dv (getRxLinearLen ring).toNat (Nat.zero_add _).le).bind
        fun _ => ?_
      rw [Nat.zero_add]
      refine Ensures.bind (ensures_iff.mpr fun w hw => ?_) fun _ => ih ?_
      · have htail : RxAt board t maps tick₀ lo (.tail (getRxLinearLen ring).toNat) ring w := by
          refine RxAt.silent' hw fun s hs hpc hr => ⟨s.seen, ?_⟩
          unfold RxPath.rxifNext
          rw [hpc]
          simp only [Nat.lt_irrefl, if_false]
        have hlen32 : UInt32.ofNat (getRxLinearLen ring).toNat =
            (getRxLinearLen ring).toUInt32 := by
          rw [← UInt32.toNat_inj, UInt32.toNat_ofNat', UInt8.toNat_toUInt32]
          exact Nat.mod_eq_of_lt ((getRxLinearLen ring).toNat_lt.trans (by decide))
        refine htail.silent fun s hs hpc hr => ⟨s.seen, ?_⟩
        unfold RxPath.rxifNext
        rw [hpc, hr]
        simp only [hlen32, hfifo]
      · rw [lead_add_tail hle]
        omega

/-- Between two calls. -/
def RxIdle (board : Board) (t : Traffic fd g.objSize.toNat) (maps : Regmaps) (lo : ℕ)
    (w : World RxBus) : Prop :=
  ∃ ring, RxAt board t maps 0 lo (.idle 0) ring w

theorem RxAt.idle (h : RxAt board t maps tick₀ lo (.idle 0) ring w) : RxIdle board t maps lo w := by
  obtain ⟨s, hs, hrx, hsince, hpc⟩ := h
  exact ⟨ring, s, hs, hrx, ⟨hsince.1, Nat.zero_le _⟩, hpc⟩

/-- The call begins: a frame is in the FIFO. -/
theorem RxIdle.call {lo' : ℕ} (h : RxIdle board t maps lo' w)
    (hpending : w.env.freed < w.env.written) (hlo : lo ≤ w.env.stored.length)
    (htick : tick₀ ≤ w.env.tick) :
    ∃ ring, w.priv.rx = some ring ∧ RxAt board t maps tick₀ lo .update ring w := by
  obtain ⟨_, s, hs, hrx, hsince, hpc, rfl, -⟩ := h
  have hwr := hs.written
  have hfr := hs.freed
  obtain ⟨ram, hreach⟩ := hs.reachable
  have hstep : (rxPath board.sanity g ram).step s .handleRxif = some { s with pc := .update } := by
    change RxPath.step board.sanity s .handleRxif = _
    unfold RxPath.step
    rw [hpc]
    exact if_pos ⟨rfl, by omega⟩
  refine ⟨s.ring, hrx, { s with pc := .update }, ⟨⟨ram, hreach.next hstep⟩, hs.written, hs.freed,
    hs.ram, hs.stored, hs.kinds, hs.queued, hs.allocs⟩, hrx, ⟨hsince.1, htick⟩, rfl, rfl, ?_⟩
  change lo ≤ s.stored.length
  rwa [hs.stored]

/-- Before the call: a frame is in the FIFO, and `lo` are known of. -/
structure RxPending (board : Board) (t : Traffic fd g.objSize.toNat) (maps : Regmaps)
    (tick₀ lo : ℕ) (w : World RxBus) : Prop where
  idle : ∃ lo', RxIdle board t maps lo' w
  pending : w.env.freed < w.env.written
  stored : lo ≤ w.env.stored.length
  since : tick₀ ≤ w.env.tick

theorem RxPending.call (h : RxPending board t maps tick₀ lo w) :
    ∃ ring, w.priv.rx = some ring ∧ RxAt board t maps tick₀ lo .update ring w := by
  obtain ⟨_, hidle⟩ := h.idle
  exact hidle.call h.pending h.stored h.since

/-- `mcp251xfd_handle_rxif` with a frame in the FIFO. -/
theorem ensures_handleRxif (hready : RingsReady fd tx g) (dv : Fork.Dv) (tick₀ lo : ℕ) :
    Ensures (RxPending board t maps tick₀ lo)
      ((Fork.driver (Env.rxBus board t) dv).handle .rxif
        (Fork.driver (Env.rxBus board t) dv).handleRxif)
      (fun _ => RxIdle board t maps lo) fun _ => RxFailed board t maps tick₀ := by
  refine Ensures.bind (Q := fun _ => RxPending board t maps tick₀ lo)
    (ensures_iff.mpr fun _ hw => hw) fun _ => ?_
  unfold Driver.handleRxif Driver.forEachRxRing
  refine ensures_priv_bind fun p => ?_
  refine Ensures.given (c := ∃ ring, p.rx = some ring) ?_ fun ⟨ring, hring⟩ => ?_
  · rintro w ⟨hpending, rfl⟩
    obtain ⟨ring, hrx, -⟩ := hpending.call
    exact ⟨ring, hrx⟩
  · rw [hring]
    have hcall : Ensures (RxAt board t maps tick₀ lo .update ring)
        ((Fork.driver (Env.rxBus board t) dv).handleRxifRing ring)
        (fun _ => RxIdle board t maps lo) fun _ => RxFailed board t maps tick₀ := by
      refine (ensures_rxRingUpdate hready dv).bind fun ring' => ?_
      refine Ensures.given (fun w hw => hw.linearLen) fun hlinear => ?_
      have hmax : g.slots ≤ rxObjNumMax := g.slots_bounds.2
      have hval : rxObjNumMax = 32 := rfl
      refine (ensures_rxifRounds hready dv (by omega)).imp (fun _ hw => hw) ?_ fun _ _ h => h
      rintro _ w ⟨ring'', hat⟩
      exact hat.idle
    refine hcall.pre ?_
    rintro w ⟨hpending, rfl⟩
    obtain ⟨ring', hrx, hat⟩ := hpending.call
    rw [hring, Option.some.injEq] at hrx
    rwa [hrx]

/-- The first `n` frames stored are queued, and nothing else. -/
structure RxQueued (board : Board) (t : Traffic fd g.objSize.toNat) (b : RxBus) (n : ℕ) : Prop where
  le : n ≤ b.stored.length
  queued : b.queued = rxQueue board.dlc t.noSkb (b.stored.take n)

theorem queued_of_prefix {handed : List HwRxObj} {b : RxBus} (h : handed <+: b.stored)
    (hq : b.queued = rxQueue board.dlc t.noSkb handed) : RxQueued board t b handed.length where
  le := h.length_le
  queued := by rwa [← List.prefix_iff_eq_take.mp h]

theorem RxIdle.queued (h : RxIdle board t maps lo w) :
    ∃ n, lo ≤ n ∧ RxQueued board t w.env n ∧ w.env.freed = n := by
  obtain ⟨_, s, hs, -, -, hpc, -, hlo⟩ := h
  have hok := hs.inv.pc
  have hfreed := hs.inv.freed
  have hprefix := hs.inv.handed
  unfold RxPath.sees at hlo
  rw [hpc] at hok hfreed hlo
  rw [hs.stored] at hprefix
  obtain ⟨-, -, hseen⟩ := hok
  exact ⟨s.handed.length, by rwa [← hseen], queued_of_prefix hprefix hs.queued,
    by rw [← hs.freed, ← hfreed]; rfl⟩

theorem RxFailed.queued (h : RxFailed board t maps tick₀ w) : ∃ n, RxQueued board t w.env n := by
  obtain ⟨-, ram, s, hreach, hstored, hqueued⟩ := h
  have hprefix := ((RxPath.inv_invariant _ _ ram).reachable hreach).handed
  rw [hstored] at hprefix
  exact ⟨s.handed.length, queued_of_prefix hprefix hqueued⟩

/-- The driver's view and the bus behind `mcp251xfd_ring_init`. -/
structure RxFresh (g : RxRing) (maps : Regmaps) (w : World RxBus) : Prop where
  rx : w.priv.rx = some { g with head := 0, tail := 0 }
  regmaps : w.priv.regmaps = maps
  written : w.env.written = 0
  freed : w.env.freed = 0
  stored : w.env.stored = []
  queued : w.env.queued = []
  allocs : w.env.allocs = 0

theorem RxFresh.idle (h : RxFresh g maps w) : RxIdle board t maps 0 w := by
  let ram (n : ℕ) : HwRxObj := rxObjOf g.objSize.toNat fun i => w.env.mem (g.slotAddr n + i)
  refine ⟨_, RxPath.init g ram, ⟨⟨ram, Sys.Reachable.init⟩, h.written.symm, h.freed.symm,
    fun _ _ => rfl, h.stored.symm, fun obj hobj => ?_, h.queued, h.allocs⟩, h.rx,
    ⟨h.regmaps, Nat.zero_le _⟩, rfl, rfl, Nat.zero_le _⟩
  exact absurd hobj List.not_mem_nil

/-- Calls of `mcp251xfd_handle_rxif` that succeed, each after a look at the line for pending
frames. -/
inductive RxCalls (d : Driver RxBus) : World RxBus → World RxBus → Prop
  | refl (w : World RxBus) : RxCalls d w w
  | low {w w₁ w' : World RxBus} (h : access d.env.rxPending w = .ok false w₁)
      (hrest : RxCalls d w₁ w') : RxCalls d w w'
  | call {w w₁ w₂ w' : World RxBus} (h : access d.env.rxPending w = .ok true w₁)
      (hrun : d.handle .rxif d.handleRxif w₁ = .ok () w₂) (hrest : RxCalls d w₂ w') :
      RxCalls d w w'

theorem RxIdle.rxPending (hready : RingsReady fd tx g) (h : RxIdle board t maps lo w)
    {pending : Bool} {w₁ : World RxBus}
    (hrun : access (Env.rxBus board t).rxPending w = .ok pending w₁) :
    RxIdle board t maps lo w₁ ∧ (pending = true → w₁.env.freed < w₁.env.written) := by
  have heq : access (Env.rxBus board t).rxPending w =
      .ok (decide ((w.env.arrive t).freed < (w.env.arrive t).written))
        { w with env := w.env.arrive t } := rfl
  rw [heq] at hrun
  obtain ⟨rfl, rfl⟩ := EStateM.Result.ok.inj hrun
  obtain ⟨ring, hat⟩ := h
  exact ⟨⟨ring, (waits_on hready (stable_at lo _ ring)).arrive w hat⟩, of_decide_eq_true⟩

theorem RxCalls.idle (hready : RingsReady fd tx g) {dv : Fork.Dv} {w' : World RxBus}
    (h : RxCalls (Fork.driver (Env.rxBus board t) dv) w w') (hw : ∃ lo, RxIdle board t maps lo w) :
    ∃ lo, RxIdle board t maps lo w' := by
  induction h with
  | refl w => exact hw
  | low h _ ih =>
    obtain ⟨lo, hw⟩ := hw
    exact ih ⟨lo, (hw.rxPending hready h).1⟩
  | call h hrun _ ih =>
    obtain ⟨lo, hw⟩ := hw
    obtain ⟨hidle, hpending⟩ := hw.rxPending hready h
    exact ih ⟨0, (ensures_handleRxif hready dv 0 0).ok
      ⟨⟨lo, hidle⟩, hpending rfl, Nat.zero_le _, Nat.zero_le _⟩ hrun⟩

namespace Bench

end Bench

end YoctoLayers.Mcp251xfd
