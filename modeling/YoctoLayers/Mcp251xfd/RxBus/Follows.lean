import YoctoLayers.Mcp251xfd.RxBus

/-! When the bus is where a receive path says, and what an access of the driver brings then. -/
namespace YoctoLayers.Mcp251xfd
open YoctoLayers.Lib DrvM

/-! ### Objects as the driver reads them -/

/-- The words and the first `n` bytes of data agree. -/
structure HwRxObj.Agrees (x y : HwRxObj) (n : ℕ) : Prop where
  id_eq : x.id = y.id
  flags_eq : x.flags = y.flags
  ts_eq : x.ts = y.ts
  data_eq : ∀ j : Fin 64, j.val < n → x.data.get j = y.data.get j

theorem memcpy_congr {dst src src' : Data} {n : ℕ}
    (h : ∀ j : Fin 64, j.val < n → src.get j = src'.get j) :
    memcpy dst src n = memcpy dst src' n := by
  apply data_ext
  intro j
  rw [get_memcpy, get_memcpy]
  split_ifs with hj
  · exact h j hj
  · rfl

/-- Which data bytes a frame takes over. -/
def DlcHelpers.rxLen (K : DlcHelpers) (flags : UInt32) : UInt8 :=
  let dlc := (objFlagsDlc.get flags).toUInt8
  if flags &&& objFlagsFdf ≠ 0 then K.canFdDlc2len dlc else canCcDlc2len dlc

theorem DlcHelpers.rxSkb_congr (K : DlcHelpers) {x y : HwRxObj} {n : ℕ} (h : x.Agrees y n)
    (hn : (K.rxLen x.flags).toNat ≤ n) : K.rxSkb x = K.rxSkb y := by
  have hdata (dst : Data) : memcpy dst x.data (K.rxLen x.flags).toNat =
      memcpy dst y.data (K.rxLen x.flags).toNat :=
    memcpy_congr fun j hj => h.data_eq j (hj.trans_le hn)
  have hid : rxObjCanId x = rxObjCanId y := by
    unfold rxObjCanId
    rw [h.flags_eq, h.id_eq]
  unfold rxLen at hdata
  unfold rxSkb hwRxObjToSkb
  rw [hid]
  rw [h.flags_eq] at hdata ⊢
  by_cases hfdf : y.flags &&& objFlagsFdf ≠ 0
  · simp only [if_pos hfdf] at hdata ⊢
    rw [hdata]
  · simp only [if_neg hfdf] at hdata ⊢
    rw [hdata]

theorem canCcDlc2len_le (dlc : UInt8) : (canCcDlc2len dlc).toNat ≤ 8 := by
  rw [canCcDlc2len, toNat_min_uint8]
  exact Nat.min_le_right _ _

theorem DlcHelpers.rxLen_le (K : DlcHelpers) (flags : UInt32) : (K.rxLen flags).toNat ≤ 64 := by
  have hall : ∀ d : Fin 16, (dlcLens.getD d 0).toNat ≤ 64 := by decide
  unfold rxLen
  split_ifs
  · have hlt : ((objFlagsDlc.get flags).toUInt8 &&& 0x0f).toNat < 16 := by
      rw [UInt8.toNat_and]
      exact Nat.lt_succ_of_le Nat.and_le_right
    change (K.canDlc2len _).toNat ≤ 64
    rw [K.dlc2len_eq]
    exact hall ⟨_, hlt⟩
  · exact (canCcDlc2len_le _).trans (by decide)

theorem DlcHelpers.rxLen_le_cc (K : DlcHelpers) {flags : UInt32}
    (h : flags &&& objFlagsFdf = 0) : (K.rxLen flags).toNat ≤ 8 := by
  unfold rxLen
  rw [if_neg (not_not.mpr h)]
  exact canCcDlc2len_le _

theorem rxObjOf_congr {size : ℕ} (hsize : 12 ≤ size) {f f' : ℕ → UInt8}
    (h : ∀ i < size, f i = f' i) : rxObjOf size f = rxObjOf size f' := by
  have hword (k : ℕ) (hk : k + 4 ≤ size) :
      (List.range 4).map (fun i => f (k + i)) = (List.range 4).map (fun i => f' (k + i)) :=
    List.map_congr_left fun i hi => h _ (by have := List.mem_range.mp hi; omega)
  have h0 : (List.range 4).map f = (List.range 4).map f' :=
    List.map_congr_left fun i hi => h _ (by have := List.mem_range.mp hi; omega)
  have hdata : (fun j : Fin 64 => if 12 + j.val < size then f (12 + j.val) else 0) =
      fun j : Fin 64 => if 12 + j.val < size then f' (12 + j.val) else 0 := by
    funext j
    split_ifs with hj
    · exact h _ hj
    · rfl
  unfold rxObjOf
  rw [h0, hword 4 (by omega), hword 8 (by omega), hdata]

/-- What the driver takes for object `i` of a block that it has read. -/
theorem parseRxObj_agrees {size len i : ℕ} (hsize : 12 ≤ size) (hi : i < len) (f : ℕ → UInt8) :
    (parseRxObj ((List.range (len * size)).map f) size i).Agrees
      (rxObjOf size fun j => f (i * size + j)) (size - 12) := by
  have hmul : (i + 1) * size ≤ len * size := Nat.mul_le_mul_right size hi
  rw [Nat.succ_mul] at hmul
  have hcell (k : ℕ) (hk : k < size) :
      (((List.range (len * size)).map f).drop (i * size)).getD k 0 = f (i * size + k) := by
    rw [List.getD_eq_getElem?_getD, List.getElem?_drop, List.getElem?_map,
      List.getElem?_range (by omega)]
    rfl
  have hword (k : ℕ) (hk : k + 4 ≤ size) :
      getLe32 ((((List.range (len * size)).map f).drop (i * size)).drop k) =
        getLe32 ((List.range 4).map fun j => f (i * size + (k + j))) := by
    have hdrop (j : ℕ) (hj : j < 4) :
        ((((List.range (len * size)).map f).drop (i * size)).drop k).getD j 0 =
          f (i * size + (k + j)) := by
      rw [← hcell (k + j) (by omega), List.getD_eq_getElem?_getD, List.getD_eq_getElem?_getD,
        List.getElem?_drop]
    unfold getLe32
    rw [hdrop 0 (by decide), hdrop 1 (by decide), hdrop 2 (by decide), hdrop 3 (by decide)]
    rfl
  refine ⟨?_, hword 4 (by omega), hword 8 (by omega), fun j hj => ?_⟩
  · have h0 := hword 0 (by omega)
    rw [List.drop_zero] at h0
    simp only [Nat.zero_add] at h0
    exact h0
  · change (Vector.ofFn fun j : Fin 64 => _).get j = (Vector.ofFn fun j : Fin 64 => _).get j
    rw [get_ofFn, get_ofFn, hcell (12 + j.val) (by omega), if_pos (by omega)]

/-! ### The relation -/

/-- What is queued for the objects handed up: a frame for each that an skb was allocated for. -/
def rxQueue (K : DlcHelpers) (noSkb : ℕ → Bool) (handed : List HwRxObj) :
    List (Frame × UInt32) :=
  handed.zipIdx.filterMap fun (obj, i) =>
    if noSkb i then none else some (.can (K.rxSkb obj), obj.ts)

theorem rxQueue_concat (K : DlcHelpers) (noSkb : ℕ → Bool) (handed : List HwRxObj)
    (obj : HwRxObj) :
    rxQueue K noSkb (handed ++ [obj]) = rxQueue K noSkb handed ++
      if noSkb handed.length then [] else [(.can (K.rxSkb obj), obj.ts)] := by
  unfold rxQueue
  rw [List.zipIdx_append, List.filterMap_append, Nat.zero_add]
  congr 1
  cases h : noSkb handed.length <;> simp [h]

/-- Setting up the ring is left to `mcp251xfd_ring_init`. -/
theorem rxPath_ring (sanity : Bool) (g : RxRing) (ram : ℕ → HwRxObj) :
    (rxPath sanity g ram).Invariant fun s =>
      s.ring = { g with head := s.ring.head, tail := s.ring.tail } where
  init := rfl
  step := by
    intro s e s' hs hstep
    cases e with
    | receive obj =>
      cases hstep
      unfold RxPath.receive
      split_ifs <;> exact hs
    | handleRxif =>
      simp only [rxPath, RxPath.step] at hstep
      split at hstep
      · split_ifs at hstep
        cases hstep
        exact hs
      · cases hstep
    | rxif =>
      rcases s with ⟨ring, pc, chip, stored, handed, seen⟩
      simp only at hs
      cases pc with
      | idle _ => cases hstep
      | head _ =>
        cases hstep
        simp only
        rw [hs]
        rfl
      | tail _ =>
        cases hstep
        simp only
        rw [hs]
      | update =>
        cases hstep
        exact hs
      | checkTail | loop | read _ _ | uinc _ _ =>
        simp only [rxPath, RxPath.step, RxPath.rxifNext] at hstep
        split_ifs at hstep <;> cases hstep <;> exact hs
      | one _ _ =>
        simp only [rxPath, RxPath.step, RxPath.rxifNext] at hstep
        split at hstep <;> cases hstep <;> exact hs

variable {board : Board} {fd : Bool} {tx : TxRing} {g : RxRing} {t : Traffic fd g.objSize.toNat}

/-- The bus is where the receive path `s` says. -/
structure RxFollows (board : Board) (t : Traffic fd g.objSize.toNat) (b : RxBus) (s : RxPath) :
    Prop where
  reachable : ∃ ram, (rxPath board.sanity g ram).Reachable s
  written : s.chip.written = b.written
  freed : s.chip.freed = b.freed
  ram : ∀ n < g.slots,
    s.chip.ram n = rxObjOf g.objSize.toNat fun i => b.mem (g.slotAddr n + i)
  stored : s.stored = b.stored
  kinds : ∀ obj ∈ s.stored, fd = false → obj.flags &&& objFlagsFdf = 0
  queued : b.queued = rxQueue board.dlc t.noSkb s.handed
  allocs : b.allocs = s.handed.length

/-- Apart from the frames that have come in. -/
structure SameCall (s s' : RxPath) : Prop where
  pc : s'.pc = s.pc
  ring : s'.ring = s.ring
  handed : s'.handed = s.handed
  seen : s'.seen = s.seen
  stored : s.stored.length ≤ s'.stored.length

theorem SameCall.trans {s s' s'' : RxPath} (h : SameCall s s') (h' : SameCall s' s'') :
    SameCall s s'' where
  pc := h'.pc.trans h.pc
  ring := h'.ring.trans h.ring
  handed := h'.handed.trans h.handed
  seen := h'.seen.trans h.seen
  stored := h.stored.trans h'.stored

theorem sameCall_receive (s : RxPath) (obj : HwRxObj) : SameCall s (s.receive obj) := by
  unfold RxPath.receive
  split_ifs
  · exact ⟨rfl, rfl, rfl, rfl, by simp⟩
  · exact ⟨rfl, rfl, rfl, rfl, le_rfl⟩

/-- The frames that the call knows of, or will know of when it reads FIFOCI. -/
def RxPath.sees (s : RxPath) : ℕ :=
  match s.pc with
  | .update => s.stored.length
  | _ => s.seen

theorem SameCall.sees {s s' : RxPath} (h : SameCall s s') : s.sees ≤ s'.sees := by
  unfold RxPath.sees
  rw [h.pc]
  cases s.pc with
  | update => exact h.stored
  | _ => exact h.seen.ge

theorem RxPath.sees_rxifNext {sanity : Bool} {s s' : RxPath} (h : s.rxifNext sanity = some s') :
    s.sees ≤ s'.sees := by
  rcases s with ⟨ring, pc, chip, stored, handed, seen⟩
  cases pc with
  | idle _ => cases h
  | update | head _ | tail _ =>
    cases h
    exact le_rfl
  | checkTail | loop | read _ _ | uinc _ _ =>
    simp only [RxPath.rxifNext] at h
    split_ifs at h <;> cases h <;> exact le_rfl
  | one _ _ =>
    simp only [RxPath.rxifNext] at h
    split at h <;> cases h <;> exact le_rfl

namespace RxFollows
variable {b : RxBus} {s s' : RxPath}

theorem inv (h : RxFollows board t b s) : RxPath.Inv s := by
  obtain ⟨ram, hs⟩ := h.reachable
  exact (RxPath.inv_invariant _ _ ram).reachable hs

theorem ring (h : RxFollows board t b s) :
    s.ring = { g with head := s.ring.head, tail := s.ring.tail } := by
  obtain ⟨ram, hs⟩ := h.reachable
  exact (rxPath_ring _ _ ram).reachable hs

theorem slots (h : RxFollows board t b s) : s.ring.slots = g.slots := by
  rw [h.ring]
  rfl

/-- A step of the call that touches neither the bus nor what is handed up. -/
theorem silent (h : RxFollows board t b s) (hnext : s.rxifNext board.sanity = some s')
    (hchip : s'.chip = s.chip) (hstored : s'.stored = s.stored) (hhanded : s'.handed = s.handed) :
    RxFollows board t b s' := by
  obtain ⟨ram, hs⟩ := h.reachable
  have hstep : (rxPath board.sanity g ram).step s .rxif = some s' := hnext
  refine ⟨⟨ram, hs.next hstep⟩, ?_, ?_, ?_, ?_, ?_, ?_, ?_⟩
  · rw [hchip, h.written]
  · rw [hchip, h.freed]
  · rw [hchip]
    exact h.ram
  · rw [hstored, h.stored]
  · rw [hstored]
    exact h.kinds
  · rw [hhanded, h.queued]
  · rw [hhanded, h.allocs]

theorem receive (hready : RingsReady fd tx g) (h : RxFollows board t b s)
    (frame : RxFrame fd g.objSize.toNat) :
    RxFollows board t (b.receive g frame)
      (s.receive (rxObjOf g.objSize.toNat frame.bytes)) := by
  obtain ⟨ram, hs⟩ := h.reachable
  have hstep : (rxPath board.sanity g ram).step s
      (.receive (rxObjOf g.objSize.toNat frame.bytes)) = some _ := rfl
  have hslots := h.slots
  have hsize := hready.rxSize_ge
  have hreach := hs.next hstep
  unfold RxPath.receive at hreach ⊢
  unfold RxBus.receive
  rw [hslots, h.written, h.freed] at hreach ⊢
  split_ifs at hreach ⊢ with hroom
  · refine ⟨⟨ram, hreach⟩, rfl, h.freed, fun n hn => ?_, ?_, ?_, h.queued, h.allocs⟩
    · change Function.update s.chip.ram (b.written % g.slots) _ n =
        rxObjOf g.objSize.toNat fun i =>
          if g.slotAddr (b.written % g.slots) ≤ g.slotAddr n + i ∧
              g.slotAddr n + i < g.slotAddr (b.written % g.slots) + g.objSize.toNat then
            frame.bytes (g.slotAddr n + i - g.slotAddr (b.written % g.slots))
          else b.mem (g.slotAddr n + i)
      by_cases hsame : n = b.written % g.slots
      · subst hsame
        rw [Function.update_self]
        refine rxObjOf_congr hsize fun i hi => ?_
        rw [if_pos (by omega), Nat.add_sub_cancel_left]
      · rw [Function.update_of_ne hsame, h.ram n hn]
        refine rxObjOf_congr hsize fun i hi => ?_
        have hapart := g.slots_apart hsame
        rw [if_neg (by omega)]
    · rw [h.stored]
    · intro obj hobj
      rcases List.mem_append.mp hobj with hold | hnew
      · exact h.kinds obj hold
      · rw [List.mem_singleton.mp hnew]
        exact frame.kind
  · exact h

theorem receiveAll (hready : RingsReady fd tx g) (h : RxFollows board t b s)
    (frames : List (RxFrame fd g.objSize.toNat)) :
    ∃ s', RxFollows board t (b.receiveAll g frames) s' ∧ SameCall s s' := by
  induction frames generalizing b s with
  | nil => exact ⟨s, h, rfl, rfl, rfl, rfl, le_rfl⟩
  | cons frame frames ih =>
    obtain ⟨s', hs', hsame⟩ := ih (h.receive hready frame)
    exact ⟨s', hs', (sameCall_receive s _).trans hsame⟩

/-- What comes in before an access. -/
theorem arrive (hready : RingsReady fd tx g) (h : RxFollows board t b s) :
    ∃ s', RxFollows board t (b.arrive t) s' ∧ SameCall s s' := by
  obtain ⟨s', hs', hsame⟩ := h.receiveAll hready (t.frames b.tick)
  exact ⟨s', ⟨hs'.reachable, hs'.written, hs'.freed, hs'.ram, hs'.stored, hs'.kinds, hs'.queued,
    hs'.allocs⟩, hsame⟩

end RxFollows

/-! ### Accesses -/

/-- The reply to access `i`, which reads `len` bytes from `reg`, is disturbed. -/
def Traffic.Disturbs {size : ℕ} (t : Traffic fd size) (reg : UInt16) (len i : ℕ) : Prop :=
  ∃ data crc, t.noise i = some (data, crc) ∧ crc ≠ crc16Compute2 (spiCmdReadCrc reg len) data

/-- From access `k` to `k'` a transfer fails, or all nine of a read with CRC are disturbed. -/
def Traffic.Fails {size : ℕ} (t : Traffic fd size) (k k' : ℕ) : Prop :=
  (∃ i, k ≤ i ∧ i < k' ∧ t.err i ≠ 0) ∨
    ∃ reg len i, k ≤ i ∧ i + 9 ≤ k' ∧ ∀ j < 9, t.Disturbs reg len (i + j)

/-- `n` transfers of a read with CRC from access `k` on have brought nothing. -/
def Traffic.Tried {size : ℕ} (t : Traffic fd size) (reg : UInt16) (len k n : ℕ) : Prop :=
  (∃ i, k ≤ i ∧ i < k + n ∧ t.err i ≠ 0) ∨ ∀ j < n, t.Disturbs reg len (k + j)

namespace Traffic
variable {size : ℕ} {t : Traffic fd size} {reg : UInt16} {len k n : ℕ}

theorem tried_zero : t.Tried reg len k 0 := Or.inr fun _ hj => absurd hj (Nat.not_lt_zero _)

theorem Tried.succ (h : t.Tried reg len k n)
    (hlast : t.err (k + n) ≠ 0 ∨ t.Disturbs reg len (k + n)) : t.Tried reg len k (n + 1) := by
  rcases h with ⟨i, hi, hlt, herr⟩ | hall
  · exact Or.inl ⟨i, hi, Nat.lt_succ_of_lt hlt, herr⟩
  · rcases hlast with herr | hdist
    · exact Or.inl ⟨k + n, Nat.le_add_right _ _, Nat.lt_succ_self _, herr⟩
    · refine Or.inr fun j hj => ?_
      rcases Nat.lt_succ_iff_lt_or_eq.mp hj with hlt | rfl
      · exact hall j hlt
      · exact hdist

theorem Tried.fails {k₀ k' : ℕ} (h : t.Tried reg len k 9) (hk : k₀ ≤ k) (hk' : k + 9 ≤ k') :
    t.Fails k₀ k' := by
  rcases h with ⟨i, hi, hlt, herr⟩ | hall
  · exact Or.inl ⟨i, hk.trans hi, hlt.trans_le hk', herr⟩
  · exact Or.inr ⟨reg, len, k, hk, hk', hall⟩

end Traffic

/-- The call has begun with access `tick₀` at the earliest, and on these maps. -/
def RxSince (maps : Regmaps) (tick₀ : ℕ) (w : World RxBus) : Prop :=
  w.priv.regmaps = maps ∧ tick₀ ≤ w.env.tick

/-- The call is where a receive path is that meets `P`. -/
def RxOn (board : Board) (t : Traffic fd g.objSize.toNat) (maps : Regmaps) (tick₀ : ℕ)
    (P : RxPath → Prop) (w : World RxBus) : Prop :=
  ∃ s, RxFollows board t w.env s ∧ w.priv.rx = some s.ring ∧ RxSince maps tick₀ w ∧ P s

/-- The call has failed, which, with both maps there, it does for one of its own transfers only;
what it queued before is right. -/
structure RxFailed (board : Board) (t : Traffic fd g.objSize.toNat) (maps : Regmaps) (tick₀ : ℕ)
    (w : World RxBus) : Prop where
  fails : maps.mapReg ≠ none → maps.mapRx ≠ none → t.Fails tick₀ w.env.tick
  sound : ∃ ram s, (rxPath board.sanity g ram).Reachable s ∧ s.stored = w.env.stored ∧
    w.env.queued = rxQueue board.dlc t.noSkb s.handed

/-- Frames that come in do not matter to `P`. -/
def RxStable (P : RxPath → Prop) : Prop := ∀ s s', SameCall s s' → P s → P s'

variable {maps : Regmaps} {tick₀ : ℕ} {P : RxPath → Prop} {w : World RxBus}

theorem RxOn.failed (h : RxOn board t maps tick₀ P w)
    (hfails : maps.mapReg ≠ none → maps.mapRx ≠ none → t.Fails tick₀ w.env.tick) :
    RxFailed board t maps tick₀ w := by
  obtain ⟨s, hs, -⟩ := h
  obtain ⟨ram, hreach⟩ := hs.reachable
  exact ⟨hfails, ram, s, hreach, hs.stored, hs.queued⟩

theorem RxSince.arrive (h : RxSince maps tick₀ w) :
    RxSince maps tick₀ { w with env := w.env.arrive t } :=
  ⟨h.1, Nat.le_succ_of_le h.2⟩

theorem RxOn.arrive (hready : RingsReady fd tx g) (hP : RxStable P)
    (h : RxOn board t maps tick₀ P w) :
    RxOn board t maps tick₀ P { w with env := w.env.arrive t } := by
  obtain ⟨s, hs, hrx, hsince, hPs⟩ := h
  obtain ⟨s', hs', hsame⟩ := hs.arrive hready
  exact ⟨s', hs', by rw [hsame.ring]; exact hrx, hsince.arrive, hP s s' hsame hPs⟩

/-- What comes with a good CRC is what the controller sent. -/
theorem readCrc_good {reg : UInt16} {len : ℕ} {b : RxBus}
    (herr : ((Env.rxBus board t).readCrc reg len b).1.1 = 0)
    (hcrc : ((Env.rxBus board t).readCrc reg len b).1.2.2 =
      crc16Compute2 (spiCmdReadCrc reg len) ((Env.rxBus board t).readCrc reg len b).1.2.1) :
    ((Env.rxBus board t).readCrc reg len b).1.2.1 =
      (b.arrive t).bytes g (t.other b.tick) reg.toNat len := by
  by_cases h0 : t.err b.tick = 0
  · simp only [Env.rxBus, h0, ne_eq, not_true_eq_false, if_false] at hcrc ⊢
    cases hnoise : t.noise b.tick with
    | none => rfl
    | some noise =>
      simp only [hnoise] at hcrc ⊢
      split_ifs at hcrc ⊢ with hbad
      · rfl
      · exact absurd hcrc hbad
  · simp only [Env.rxBus, ne_eq, h0, not_false_eq_true, if_true] at herr

/-- A bad reply is that of a transfer that fails or is disturbed. -/
theorem readCrc_bad {reg : UInt16} {len : ℕ} {b : RxBus}
    (hbad : ((Env.rxBus board t).readCrc reg len b).1.1 = -ebadmsg ∨
      ((Env.rxBus board t).readCrc reg len b).1.2.2 ≠
        crc16Compute2 (spiCmdReadCrc reg len) ((Env.rxBus board t).readCrc reg len b).1.2.1) :
    t.err b.tick ≠ 0 ∨ t.Disturbs reg len b.tick := by
  by_cases herr : t.err b.tick = 0
  · refine Or.inr ?_
    have hzero : (0 : ℤ) ≠ -ebadmsg := by decide
    simp only [Env.rxBus, herr, ne_eq, not_true_eq_false, if_false, hzero, false_or] at hbad
    cases hnoise : t.noise b.tick with
    | none =>
      simp only [hnoise, not_true_eq_false] at hbad
    | some noise =>
      simp only [hnoise] at hbad
      split_ifs at hbad with hcrc
      · exact absurd rfl hbad
      · exact ⟨noise.1, noise.2, hnoise, hcrc⟩
  · exact Or.inl herr

theorem readCrc_err {reg : UInt16} {len : ℕ} {b : RxBus}
    (herr : ((Env.rxBus board t).readCrc reg len b).1.1 ≠ 0) : t.err b.tick ≠ 0 := by
  intro h0
  simp only [Env.rxBus, h0, ne_eq, not_true_eq_false, if_false] at herr

/-- `J` may hold while the call waits for an access. -/
structure RxWaits (board : Board) (t : Traffic fd g.objSize.toNat) (maps : Regmaps) (tick₀ : ℕ)
    (J : World RxBus → Prop) : Prop where
  arrive : ∀ w, J w → J { w with env := w.env.arrive t }
  since : ∀ w, J w → RxSince maps tick₀ w
  failed : ∀ w, J w → (maps.mapReg ≠ none → maps.mapRx ≠ none → t.Fails tick₀ w.env.tick) →
    RxFailed board t maps tick₀ w

theorem waits_on (hready : RingsReady fd tx g) (hP : RxStable P) :
    RxWaits board t maps tick₀ (RxOn board t maps tick₀ P) where
  arrive _ hw := hw.arrive hready hP
  since := by
    rintro w ⟨s, -, -, hsince, -⟩
    exact hsince
  failed _ hw hfails := hw.failed hfails

namespace RxWaits
variable {J : World RxBus → Prop} (hJ : RxWaits board t maps tick₀ J)
include hJ

theorem deref {map : Regmaps → Option MapKind}
    (hmap : maps.mapReg ≠ none → maps.mapRx ≠ none → map maps ≠ none) :
    Ensures J (Bus.deref map : DrvM RxBus MapKind) (fun _ => J)
      fun _ => RxFailed board t maps tick₀ := by
  unfold Bus.deref
  refine ensures_priv_bind fun p => ?_
  cases hkind : map p.regmaps with
  | some kind => exact Ensures.pure fun w hw => hw.1
  | none =>
    refine Ensures.throw fun w hw => hJ.failed w hw.1 fun hreg hrx => absurd ?_ (hmap hreg hrx)
    rw [← (hJ.since w hw.1).1, hw.2, hkind]

/-- The access that has just failed is one of the call. -/
theorem failed_access (hw : J w) (herr : t.err w.env.tick ≠ 0) :
    RxFailed board t maps tick₀ { w with env := w.env.arrive t } :=
  hJ.failed _ (hJ.arrive w hw) fun _ _ =>
    Or.inl ⟨w.env.tick, (hJ.since w hw).2, Nat.lt_succ_self _, herr⟩

/-- A read with CRC goes on through disturbed replies, nine of them at most. -/
theorem crcRead {reg : UInt16} (hosc : reg ≠ regOsc) (len : ℕ) :
    Ensures J ((Fork.bus (Env.rxBus board t)).crcRead reg len)
      (fun data w => J w ∧ ∃ other, data = w.env.bytes g other reg.toNat len)
      fun _ => RxFailed board t maps tick₀ := by
  refine ensures_iff.mpr fun w₀ hw₀ => ?_
  let k := w₀.env.tick
  have hk : tick₀ ≤ k := (hJ.since w₀ hw₀).2
  let B (n : ℕ) (w : World RxBus) : Prop := J w ∧ w.env.tick = k + n ∧ t.Tried reg len k n
  have hread : Ensures (B 0) ((Fork.bus (Env.rxBus board t)).crcRead reg len)
      (fun data w => J w ∧ ∃ other, data = w.env.bytes g other reg.toNat len)
      fun _ w => RxFailed board t maps tick₀ w ∨ B 9 w := by
    refine Env.ensures_crcReadFrom hosc ?_ ?_ ?_
    · exact fun n w hw herr hcrc => ⟨hJ.arrive w hw.1, _, readCrc_good herr hcrc⟩
    · intro n w hw hbad
      obtain ⟨hw, htick, htried⟩ := hw
      have hlast := readCrc_bad hbad
      rw [htick] at hlast
      exact ⟨hJ.arrive w hw, congrArg (· + 1) htick, htried.succ hlast⟩
    · exact fun n w hw herr => hJ.failed_access hw.1 (readCrc_err herr)
  refine ensures_iff.mp (hread.failed fun _ w hw => hw.elim id fun hnine => ?_) w₀
    ⟨hw₀, rfl, Traffic.tried_zero⟩
  obtain ⟨hw, htick, htried⟩ := hnine
  exact hJ.failed w hw fun _ _ => htried.fails hk htick.ge

/-- A read of either kind brings what the controller sends at its time. -/
theorem busRead (kind : MapKind) {reg : UInt16} (hosc : reg ≠ regOsc) (len : ℕ) :
    Ensures J ((Fork.bus (Env.rxBus board t)).busRead kind reg len)
      (fun data w => J w ∧ ∃ other, data = w.env.bytes g other reg.toNat len)
      fun _ => RxFailed board t maps tick₀ := by
  cases kind with
  | nocrc =>
    refine Ensures.bind (Q := fun r w =>
      (r.1 = 0 → J w ∧ ∃ other, r.2 = w.env.bytes g other reg.toNat len) ∧
      (r.1 ≠ 0 → RxFailed board t maps tick₀ w)) ?_ fun r => ?_
    · refine ensures_access _ fun w hw => ?_
      by_cases herr : t.err w.env.tick = 0
      · simp only [Fork.bus, Env.rxBus, herr, ne_eq, not_true_eq_false, if_false]
        exact ⟨fun _ => ⟨hJ.arrive w hw, _, rfl⟩, fun h => h.elim⟩
      · simp only [Fork.bus, Env.rxBus, if_pos herr]
        exact ⟨fun h => absurd h herr, fun _ => hJ.failed_access hw herr⟩
    · refine Ensures.bind (Q := fun _ w => J w ∧
        ∃ other, r.2 = w.env.bytes g other reg.toNat len) ?_ fun _ => Ensures.pure fun _ h => h
      exact Ensures.ite (fun herr => Ensures.pure fun w hw => hw.1 herr) fun herr =>
        Ensures.throw fun w hw => hw.2 herr
  | crc => exact hJ.crcRead hosc len

theorem regmapRead {reg : UInt16} (hosc : reg ≠ regOsc) :
    Ensures J ((Fork.bus (Env.rxBus board t)).regmapRead reg)
      (fun val w => J w ∧ ∃ other, val = getLe32 (w.env.bytes g other reg.toNat 4))
      fun _ => RxFailed board t maps tick₀ := by
  refine Ensures.bind (hJ.deref fun hreg _ => hreg) fun kind => ?_
  refine (hJ.busRead kind hosc 4).bind fun data => ?_
  refine Ensures.pure fun w hw => ⟨hw.1, ?_⟩
  obtain ⟨other, rfl⟩ := hw.2
  exact ⟨other, rfl⟩

/-- A block that does not change while it is read comes as it is, whatever the pieces. -/
theorem regmapBulkRead (reg : UInt16) (block : List UInt8) (hblock : block ≠ [])
    (hosc : ∀ off < block.length, reg + UInt16.ofNat off ≠ regOsc)
    (hview : ∀ w, J w → ∀ off n, off + n ≤ block.length → ∀ other,
      w.env.bytes g other (reg + UInt16.ofNat off).toNat n = (block.drop off).take n)
    (hwords : block.length % 4 = 0) :
    Ensures J ((Fork.bus (Env.rxBus board t)).regmapBulkRead Regmaps.mapRx reg block.length)
      (fun data w => J w ∧ data = block) fun _ => RxFailed board t maps tick₀ := by
  have hchunks (kind : MapKind) (chunks : List (ℕ × ℕ))
      (hfit : ∀ c ∈ chunks, 0 < c.2 ∧ c.1 + c.2 ≤ block.length) :
      Ensures J ((Fork.bus (Env.rxBus board t)).rawReadChunks kind reg chunks)
        (fun data w => J w ∧ data = chunks.flatMap fun c => (block.drop c.1).take c.2)
        fun _ => RxFailed board t maps tick₀ := by
    induction chunks with
    | nil => exact Ensures.pure fun w hw => ⟨hw, rfl⟩
    | cons c chunks ih =>
      obtain ⟨hpos, hlen⟩ := hfit c List.mem_cons_self
      refine (hJ.busRead kind (hosc c.1 (by omega)) c.2).bind fun data => ?_
      refine Ensures.given (c := data = (block.drop c.1).take c.2) ?_ fun hdata => ?_
      · rintro w ⟨hw, other, rfl⟩
        exact hview w hw c.1 c.2 hlen other
      · refine Ensures.bind ((ih fun c hc => hfit c (List.mem_cons_of_mem _ hc)).pre
          fun w hw => hw.1) fun rest => Ensures.pure fun w hw => ⟨hw.1, ?_⟩
        rw [hdata, hw.2, List.flatMap_cons]
  have hpos : block.length ≠ 0 := by
    rw [ne_eq, List.length_eq_zero_iff]
    exact hblock
  refine Ensures.bind (hJ.deref fun _ hrx => hrx) fun kind => ?_
  refine Ensures.ite (fun h => absurd h hpos) fun _ => ?_
  refine (hchunks kind _ fun c hc => ?_).imp (fun _ hw => hw) (fun data w hw => ?_) fun _ _ h => h
  · obtain ⟨-, -, h0, -, hle⟩ := of_mem_rawChunks (by cases kind <;> decide)
      (by cases kind <;> decide) hwords hc
    exact ⟨h0, hle⟩
  · rw [flatMap_rawChunks] at hw
    exact hw

end RxWaits

end YoctoLayers.Mcp251xfd
