import YoctoLayers.Mcp251xfd.IntAck
import YoctoLayers.Mcp251xfd.Probe

/-! `mcp251xfd_irq` loses no event: the flags that the acknowledge clears are those whose handlers
are called after it. -/
namespace YoctoLayers.Mcp251xfd
open YoctoLayers.Lib IntChip

variable {τ : Type}

/-- The message of every TX object goes to the RAM, as `mcp251xfd_ring_init` prepares it. -/
def Priv.TxPrepared (p : Priv) : Prop :=
  ∀ addr nr, getTxNrByAddr p.txd.tx addr = some nr →
    ramStart ≤ (p.txd.obj nr.toNat).cmd &&& spiAddress

theorem Priv.TxPrepared.objsAllowed {p : Priv} (h : p.TxPrepared) : ObjsAllowed AwayFromInt p := by
  intro addr nr hnr data hlen
  have hram := UInt16.le_iff_toNat_le.mp (h addr nr hnr)
  have haddr : ((p.txd.obj nr.toNat).cmd &&& spiAddress).toNat ≤ 0xfff := by
    rw [UInt16.toNat_and]
    exact Nat.and_le_right
  have hstart : ramStart.toNat = 0x400 := rfl
  exact AwayFromInt.of_bounds (Or.inr ⟨by omega, by omega⟩)

/-- After `mcp251xfd_ring_init` the TX objects follow the TEF in the RAM. -/
theorem toNat_getTxObjAddr_init (tx : TxRing) {n : UInt8} (hn : n.toNat ≤ tx.slots) :
    (getTxObjAddr (txRingInit tx) n).toNat =
      0x400 + 12 * tx.slots + tx.objSize.toNat * n.toNat := by
  have hslots := tx.slots_cases
  have hsize := tx.objSize.toNat_lt
  have hbase : (txRingInit tx).base.toNat = 0x400 + 12 * tx.slots := by
    change (ramStart + UInt16.ofNat tefObjSize * tx.objNum.toUInt16).toNat = _
    rw [UInt16.toNat_add, UInt16.toNat_mul, UInt8.toNat_toUInt16, TxRing.toNat_objNum]
    simp only [ramStart, tefObjSize, UInt16.reduceOfNat, UInt16.reduceToNat]
    omega
  have hmul : tx.objSize.toNat * n.toNat ≤ 255 * 8 := Nat.mul_le_mul (by omega) (by omega)
  unfold getTxObjAddr
  rw [UInt16.toNat_add, UInt16.toNat_mul, UInt8.toNat_toUInt16, UInt8.toNat_toUInt16, hbase]
  change (_ + tx.objSize.toNat * n.toNat % _) % _ = _
  omega

/-- A TX object that `mcp251xfd_ring_init` sets up lies in the RAM. -/
theorem ramStart_le_txObj (quirks : UInt32) (tx : TxRing) (txObj : TxObj) {n : UInt8}
    (hn : n.toNat < tx.slots) :
    ramStart ≤ (txRingInitTxObj quirks (txRingInit tx) txObj n).cmd &&& spiAddress := by
  have hslots := tx.slots_cases
  have hsize := tx.objSize.toNat_lt
  have haddr := toNat_getTxObjAddr_init tx hn.le
  have hmul : tx.objSize.toNat * n.toNat ≤ 255 * 7 := Nat.mul_le_mul (by omega) (by omega)
  have hcmd (instruction : UInt16) (hi : instruction.toNat &&& 0xfff = 0) :
      ramStart ≤ (instruction ||| getTxObjAddr (txRingInit tx) n) &&& spiAddress := by
    rw [UInt16.le_iff_toNat_le, UInt16.toNat_and, UInt16.toNat_or]
    change 0x400 ≤ (_ ||| _) &&& 0xfff
    rw [Nat.and_or_distrib_right, hi, Nat.zero_or, Nat.and_two_pow_sub_one_eq_mod _ 12, haddr]
    omega
  unfold txRingInitTxObj
  split_ifs
  · exact hcmd _ (by decide)
  · exact hcmd _ (by decide)

theorem getTxNrByAddr_lt (tx : TxRing) {addr : UInt16} {nr : UInt8}
    (h : getTxNrByAddr (txRingInit tx) addr = some nr) : nr.toNat < tx.slots := by
  have hslots := tx.slots_cases
  unfold getTxNrByAddr at h
  split_ifs at h with hout
  obtain ⟨hlo, hhi⟩ := not_or.mp hout
  have hfirst := toNat_getTxObjAddr_init tx (n := 0) (Nat.zero_le _)
  have hlast := toNat_getTxObjAddr_init tx (n := tx.objNum) le_rfl
  have hbase := UInt16.not_lt.mp hlo
  have hlo := UInt16.le_iff_toNat_le.mp hbase
  have hhi := UInt16.lt_iff_toNat_lt.mp (UInt16.not_le.mp hhi)
  change _ < (getTxObjAddr (txRingInit tx) tx.objNum).toNat at hhi
  rw [hfirst] at hlo
  rw [hlast] at hhi
  have hsub : (addr - getTxObjAddr (txRingInit tx) 0).toNat =
      addr.toNat - (0x400 + 12 * tx.slots) := by
    rw [UInt16.toNat_sub_of_le _ _ hbase, hfirst]
    rfl
  have hdiv : (addr.toNat - (0x400 + 12 * tx.slots)) / tx.objSize.toNat < tx.slots := by
    apply Nat.div_lt_of_lt_mul
    rw [TxRing.toNat_objNum] at hhi
    omega
  rw [hsub] at h
  have hnr := Option.some.inj h
  rw [← hnr, UInt8.toNat_ofNat']
  exact (Nat.mod_le _ _).trans_lt hdiv

theorem Priv.txPrepared_ringInit (p : Priv) : p.ringInit.TxPrepared := by
  intro addr nr hnr
  have hlt := getTxNrByAddr_lt p.txd.tx hnr
  have hobj : p.ringInit.txd.obj nr.toNat =
      txRingInitTxObj p.devtypeData.quirks (txRingInit p.txd.tx) (p.txd.obj nr.toNat) nr := by
    change (if nr.toNat < p.txd.tx.slots then _ else _) = _
    rw [if_pos hlt, UInt8.ofNat_toNat]
  rw [hobj]
  exact ramStart_le_txObj _ _ _ hlt

/-- What holds between the rounds of the interrupt handler for `todo = 0`, and inside a round with
the flags of the handlers that are still to be called. -/
def IrqState (ie todo : UInt32) (w : World (IntChip τ)) : Prop :=
  w.env.Todo ie todo ∧ ObjsAllowed AwayFromInt w.priv

namespace IrqState
variable {ie todo : UInt32} {w : World (IntChip τ)}

theorem mono {todo' : UInt32} (h : IrqState ie todo w)
    (ht : ∀ i, ie.toNat.testBit i → intIfClearable.toNat.testBit i → todo.toNat.testBit i →
      todo'.toNat.testBit i) : IrqState ie todo' w :=
  ⟨⟨h.1.enables, fun i hun hie hcl => (h.1.kept i hun hie hcl).imp_right (ht i hie hcl)⟩, h.2⟩

theorem safe (b : IntBoard τ) (ie todo : UInt32) : b.env.Safe (IrqState ie todo) AwayFromInt :=
  (IntBoard.safe (Todo.stable ie todo)).and (Env.Safe.ofPriv _)

theorem onTx : OnTx fun w : World (IntChip τ) => IrqState ie todo w := by
  intro w p hp hw
  refine ⟨hw.1, fun addr nr hnr data hlen => ?_⟩
  have haddr : getTxNrByAddr w.priv.txd.tx addr = some nr := by
    rw [← hnr]
    unfold getTxNrByAddr getTxObjAddr
    rw [hp.base, hp.objSize, hp.objNum]
  rw [hp.obj]
  exact hw.2 addr nr haddr data hlen

theorem safeFork (b : IntBoard τ) (ie todo : UInt32) (dv : Fork.Dv) :
    (Fork.driver b.env dv).Safe (IrqState ie todo) AwayFromInt :=
  (safe b ie todo).fork (inReg_awayFromInt (Or.inl (by decide))) dv

/-- A handler that starts takes its flag out of `todo`. -/
theorem ensures_note_handle (b : IntBoard τ) (irq : Handler) :
    Ensures (IrqState ie todo) (b.env.note (.handle irq))
      (fun _ => IrqState ie (todo &&& ~~~irq.flag)) fun _ => IrqState ie todo := by
  refine Ensures.bind ?_ fun _ => Ensures.pure fun _ hw => hw
  refine DrvM.ensures_access _ fun w hw => ⟨?_, hw.2⟩
  have hc := (Todo.stable ie todo).happen w.env (b.set w.env.rest) (b.drop w.env.rest) hw.1
  refine ⟨hc.enables, fun i hun hie hcl => ?_⟩
  simp only [IntBoard.env, IntBoard.step, KernelCall.starts, testBit_and, testBit_not,
    Bool.and_eq_true, decide_eq_true_eq] at hun
  refine (hc.kept i hun.1 hie hcl).imp_right fun htodo => ?_
  rw [testBit_and, testBit_not, Bool.and_eq_true, Bool.and_eq_true, decide_eq_true_eq]
  exact ⟨htodo, hun.2⟩

theorem ensures_handle (b : IntBoard τ) (dv : Fork.Dv) (irq : Handler) {α : Type}
    {handler : DrvM (IntChip τ) α} (hh : Keeps (IrqState ie (todo &&& ~~~irq.flag)) handler) :
    Ensures (IrqState ie todo) ((Fork.driver b.env dv).handle irq handler)
      (fun _ => IrqState ie (todo &&& ~~~irq.flag)) fun _ _ => True :=
  Ensures.bind (ensures_note_handle b irq).unlessFails fun _ => hh.unlessFails

/-- The flags of `intf` whose handlers are not among `hs`. -/
def remaining (intf : UInt32) (hs : List Handler) : UInt32 :=
  hs.foldr (fun h todo => todo &&& ~~~h.flag) intf

theorem testBit_remaining (intf : UInt32) (hs : List Handler) {i : ℕ} (hi : i < 32) :
    (remaining intf hs).toNat.testBit i =
      (intf.toNat.testBit i && hs.all fun h => !h.flag.toNat.testBit i) := by
  induction hs with
  | nil => simp [remaining]
  | cons h hs ih =>
    have hcons : remaining intf (h :: hs) = remaining intf hs &&& ~~~h.flag := rfl
    rw [hcons, testBit_and, testBit_not, ih, List.all_cons]
    simp only [hi, decide_true, Bool.true_and]
    rw [Bool.and_assoc, Bool.and_comm (List.all _ _)]

/-- Without its flag pending a handler need not be called. -/
theorem skip {intf : UInt32} {irq : Handler} {hs : List Handler} (hflag : intf &&& irq.flag = 0)
    (h : IrqState ie (remaining intf hs) w) : IrqState ie (remaining intf (irq :: hs)) w := by
  refine h.mono fun i _ hcl htodo => ?_
  have hi : i < 32 := (lt_of_clearable hcl).trans (by decide)
  have hbit := congrArg (fun x : UInt32 => x.toNat.testBit i) hflag
  rw [testBit_remaining _ _ hi, Bool.and_eq_true] at htodo
  simp only [testBit_and, testBit_zero, htodo.1, Bool.true_and] at hbit
  rw [testBit_remaining _ _ hi, List.all_cons, htodo.1, htodo.2, hbit]
  rfl

theorem ensures_handleIf (b : IntBoard τ) (dv : Fork.Dv) (intf : UInt32) (irq : Handler)
    {hs : List Handler} {handler : DrvM (IntChip τ) Unit}
    (hh : ∀ todo, Keeps (IrqState ie todo) handler) :
    Ensures (IrqState ie (remaining intf hs))
      ((Fork.driver b.env dv).handleIf intf irq.flag irq handler)
      (fun _ => IrqState ie (remaining intf (irq :: hs))) fun _ _ => True := by
  unfold Driver.handleIf DrvM.callIf
  refine Ensures.ite (fun _ => ensures_handle b dv irq (hh _)) fun hflag => ?_
  refine Ensures.pure fun w hw => skip ?_ hw
  simpa using hflag

theorem away {reg : UInt16} (h : 0x20 ≤ reg.toNat ∧ reg.toNat + 4 ≤ 0x10000) :
    InReg AwayFromInt reg :=
  inReg_awayFromInt (Or.inr h)

theorem away_fifo (x : UInt8) :
    InReg AwayFromInt (regFifocon x) ∧ InReg AwayFromInt (regFifosta x) := by
  have hx := x.toNat_lt
  have hcon : (regFifocon x).toNat = 0x50 + 0xc * x.toNat := by
    unfold regFifocon
    rw [UInt16.toNat_add, UInt16.toNat_mul, UInt8.toNat_toUInt16]
    simp only [UInt16.reduceToNat]
    omega
  have hsta : (regFifosta x).toNat = 0x54 + 0xc * x.toNat := by
    unfold regFifosta
    rw [UInt16.toNat_add, UInt16.toNat_mul, UInt8.toNat_toUInt16]
    simp only [UInt16.reduceToNat]
    omega
  exact ⟨away (by omega), away (by omega)⟩

theorem keeps_handleRxif (b : IntBoard τ) (dv : Fork.Dv) :
    Keeps (IrqState ie todo) (Fork.driver b.env dv).handleRxif :=
  Driver.Safe.forEachRxRing fun ring =>
    (safeFork b ie todo dv).handleRxifRing onTx (fun x => (away_fifo x).1) ring

/-- The handlers that `mcp251xfd_irq` calls before the look at the CAN state. -/
theorem ensures_irqHandlers (b : IntBoard τ) (dv : Fork.Dv) (intf : UInt32) :
    Ensures (IrqState ie intf) ((Fork.driver b.env dv).irqHandlers intf)
      (fun _ => IrqState ie (remaining intf [.spicrcif, .eccif, .serrif, .ivmif, .txatif, .rxovif,
        .tefif, .rxif, .modif])) fun _ _ => True := by
  have hsafe (todo : UInt32) := safeFork b ie todo dv
  unfold Driver.irqHandlers
  extract_lets others
  have hothers (setNormalMode : Bool) : Ensures (IrqState ie (remaining intf [.modif]))
      (others setNormalMode) (fun _ => IrqState ie (remaining intf [.spicrcif, .eccif, .serrif,
        .ivmif, .txatif, .rxovif, .tefif, .rxif, .modif])) fun _ _ => True := by
    refine Ensures.bind (ensures_handleIf b dv intf .rxif fun _ => keeps_handleRxif b dv)
      fun _ => ?_
    refine Ensures.bind (ensures_handleIf b dv intf .tefif fun todo =>
      (hsafe todo).handleTefif onTx (away (by decide))) fun _ => ?_
    refine Ensures.bind (ensures_handleIf b dv intf .rxovif fun todo =>
      (hsafe todo).handleRxovif fun x => (away_fifo x).2) fun _ => ?_
    refine Ensures.bind (ensures_handleIf b dv intf .txatif fun _ => Keeps.pure _) fun _ => ?_
    refine Ensures.bind (ensures_handleIf b dv intf .ivmif fun todo =>
      (hsafe todo).handleIvmif (away (by decide))) fun _ => ?_
    refine Ensures.bind (ensures_handleIf b dv intf .serrif fun _ => Keeps.pure _) fun _ => ?_
    refine Ensures.bind (ensures_handleIf b dv intf .eccif fun todo => ?_) fun _ => ?_
    · refine (hsafe todo).handleEccif (fun nr => ?_) onTx (away (by decide))
        (fun w hw => hw.2) setNormalMode
      exact ((safe b ie todo).and (Env.Safe.ofPriv fun p => ObjAllowed AwayFromInt p nr)).fork
        (inReg_awayFromInt (Or.inl (by decide))) dv
    · exact ensures_handleIf b dv intf .spicrcif fun todo =>
        (hsafe todo).handleSpicrcif (away (by decide))
  refine Ensures.ite (fun _ => ?_) fun hflag => ?_
  · exact Ensures.bind (ensures_handle b dv .modif (hsafe _).handleModif) hothers
  · refine (hothers false).pre (fun w hw => skip ?_ hw)
    exact not_not.mp hflag

/-- The handlers of all clearable flags but WAKIF have been called. -/
theorem done {intf : UInt32} (hwak : ie.toNat.testBit 14 = false)
    (h : IrqState ie (remaining intf [.cerrif, .spicrcif, .eccif, .serrif, .ivmif, .txatif, .rxovif,
      .tefif, .rxif, .modif]) w) : IrqState ie 0 w := by
  refine h.mono fun i hie hcl htodo => ?_
  have hi : i < 32 := (lt_of_clearable hcl).trans (by decide)
  rw [testBit_remaining _ _ hi, Bool.and_eq_true, List.all_eq_true] at htodo
  have hno (irq : Handler) (n : ℕ) (hn : n < 32) (hflag : irq.flag = bit n)
      (hmem : irq ∈ [Handler.cerrif, .spicrcif, .eccif, .serrif, .ivmif, .txatif, .rxovif, .tefif,
        .rxif, .modif]) : i ≠ n := by
    intro hin
    have := htodo.2 irq hmem
    rw [hflag, testBit_bit hn] at this
    simp [hin] at this
  have h15 := hno .ivmif 15 (by decide) rfl (by decide)
  have h13 := hno .cerrif 13 (by decide) rfl (by decide)
  have h12 := hno .serrif 12 (by decide) rfl (by decide)
  have h3 := hno .modif 3 (by decide) rfl (by decide)
  have h14 : i ≠ 14 := by
    intro hin
    rw [hin, hwak] at hie
    exact Bool.false_ne_true hie
  rw [testBit_clearable, decide_eq_true_eq] at hcl
  omega

theorem ensures_irqHandle (b : IntBoard τ) (dv : Fork.Dv) (bec : CanBerrCounter) (intf : UInt32)
    (hwak : ie.toNat.testBit 14 = false) :
    Ensures (IrqState ie 0) ((Fork.driver b.env dv).irqHandle bec intf)
      (fun r w => r ≠ .nothingPending ∧ (r = .handled → IrqState ie 0 w)) fun _ _ => True := by
  have hack : Ensures (IrqState ie 0) ((Fork.driver b.env dv).irqAck intf)
      (fun _ => IrqState ie intf) fun _ => IrqState ie intf := by
    refine IntBoard.ensures_irqAck (safe b ie 0) dv intf (fun w hw => hw.1.enables)
      (fun w hw => hw.mono fun i _ _ h0 => absurd h0 (by simp)) fun data hdata => ?_
    refine Env.ensures_spiWrite fun w hw => ⟨?_, hw.2⟩
    have hc := (Todo.stable ie 0).happen w.env (b.set w.env.rest) (b.drop w.env.rest) hw.1
    simp only [IntBoard.env]
    refine (Todo.stable ie intf).rest _ _ ?_
    split_ifs
    · exact hdata.todo_store hc
    · exact ⟨hc.enables, fun i hun hie hcl =>
        Or.inl ((hc.kept i hun hie hcl).resolve_right (by simp))⟩
  refine Ensures.bind hack.unlessFails fun _ => ?_
  refine Ensures.bind (ensures_irqHandlers b dv intf) fun _ => ?_
  refine DrvM.ensures_priv_bind fun p => ?_
  refine Ensures.ite (fun _ => ?_) fun hcerrif => ?_
  · refine Ensures.bind (Q := fun _ w => w.priv.canState = .busOff ∨ IrqState ie 0 w) ?_ fun _ => ?_
    · refine Ensures.bind (Q := fun _ => IrqState ie 0) ?_ fun _ => ?_
      · exact (ensures_note_handle b .cerrif).imp (fun w hw => hw.1) (fun _ w hw => done hwak hw)
          fun _ _ _ => trivial
      · have hoff : b.env.Safe (fun w => w.priv.canState = .busOff) fun _ _ => True :=
          Env.Safe.ofPriv fun p => p.canState = .busOff
        have hoff := hoff.fork (inReg_true _) dv
        refine (safeFork b ie 0 dv).handleCerrif onTx hoff ?_ bec
        exact (hoff.chipStop inReg_true).pre (fun _ _ => trivial)
    · refine DrvM.ensures_priv_bind fun p => Ensures.pure fun w hw => ?_
      by_cases hoff : p.canState = .busOff
      · rw [if_pos hoff]
        exact ⟨by rintro ⟨⟩, by rintro ⟨⟩⟩
      · rw [if_neg hoff]
        exact ⟨by rintro ⟨⟩, fun _ => hw.1.resolve_left (hw.2 ▸ hoff)⟩
  · refine Ensures.pure fun w hw => ⟨by rintro ⟨⟩, fun _ => done hwak (skip ?_ hw.1)⟩
    exact not_not.mp fun h => hcerrif (Or.inl h)

/-- No event of an enabled clearable flag is without a later start of its handler. -/
def Served (w : World (IntChip τ)) : Prop :=
  w.env.unserved &&& intIe.get w.env.int &&& intIfClearable = 0

theorem served (h : IrqState ie 0 w) (hint : intfPending w.env.int = 0) : Served w := by
  apply eq_of_testBit
  intro i
  rw [h.1.enables, testBit_and, testBit_and, testBit_zero]
  by_contra hne
  simp only [Bool.not_eq_false, Bool.and_eq_true] at hne
  obtain ⟨⟨hun, hie⟩, hcl⟩ := hne
  have hflag := (h.1.kept i hun hie hcl).resolve_right (by simp)
  have hlow : intIf.lo + i = i := by simp only [intIf]; omega
  have hle : i ≤ intIf.hi := by have := lt_of_clearable hcl; simp only [intIf]; omega
  have hbit := congrArg (fun x : UInt32 => x.toNat.testBit i) hint
  simp only [intfPending, h.1.enables, testBit_and, Field.testBit_get, hlow, hle, hflag, hie,
    decide_true, Bool.and_true, testBit_zero, Bool.true_eq_false] at hbit

theorem ensures_irqPending (b : IntBoard τ) (dv : Fork.Dv) :
    Ensures (IrqState ie 0) (Fork.driver b.env dv).irqPending
      (fun intf w => IrqState ie 0 w ∧ intf = intfPending w.env.int) fun _ _ => True := by
  have hchunk (kind : MapKind) : rawChunks kind.maxRaw 4 = [(0, 4)] := by cases kind <;> rfl
  have hread (kind : MapKind) : Ensures (IrqState ie 0)
      ((Fork.bus b.env).busRead kind regInt 4)
      (fun data w => IrqState ie 0 w ∧ data = le32 w.env.int) fun _ => IrqState ie 0 := by
    cases kind with
    | nocrc => exact IntBoard.ensures_spiRead_int (safe b ie 0)
    | crc => exact IntBoard.ensures_crcRead_int (safe b ie 0)
  refine Ensures.bind (Q := fun data w => IrqState ie 0 w ∧ data = le32 w.env.int) ?_ fun data => ?_
  · refine (Bus.keeps_deref _).bindUnlessFails fun kind => ?_
    refine Ensures.ite (fun h0 => absurd h0 (by decide)) fun _ => ?_
    rw [hchunk]
    refine Ensures.bind (hread kind).unlessFails fun data => ?_
    refine Ensures.bind (Q := fun rest w => (IrqState ie 0 w ∧ data = le32 w.env.int) ∧ rest = [])
      (Ensures.pure fun w hw => ⟨hw, rfl⟩) fun rest => ?_
    exact Ensures.pure fun w hw => ⟨hw.1.1, by rw [hw.2, List.append_nil]; exact hw.1.2⟩
  · refine Ensures.bind (Q := fun _ w => IrqState ie 0 w ∧ data = le32 w.env.int) ?_ fun _ => ?_
    · exact ensures_iff.mpr fun w hw => ⟨onTx w _ ⟨rfl, rfl, rfl, rfl, rfl⟩ hw.1, hw.2⟩
    · refine Ensures.pure fun w hw => ⟨hw.1, ?_⟩
      rw [hw.2, getLe32_le32]

theorem ensures_irqRound (b : IntBoard τ) (dv : Fork.Dv) (bec : CanBerrCounter)
    (hwak : ie.toNat.testBit 14 = false) :
    Ensures (IrqState ie 0) ((Fork.driver b.env dv).irqRound bec)
      (fun r w => (r = .handled → IrqState ie 0 w) ∧
        (r = .nothingPending → IrqState ie 0 w ∧ Served w)) fun _ _ => True := by
  refine Ensures.bind (ensures_irqPending b dv) fun intf => ?_
  refine Ensures.ite (fun hintf => ?_) fun _ => ?_
  · refine Ensures.pure fun w hw => ⟨nofun, fun _ => ⟨hw.1, served hw.1 ?_⟩⟩
    rw [← hw.2, hintf]
  · exact (ensures_irqHandle b dv bec intf hwak).imp (fun w hw => hw.1)
      (fun r w hw => ⟨hw.2, fun hr => absurd hr hw.1⟩) fun _ _ hw => hw

/-- What holds when the loops come to an exit. -/
def AtExit (ie : UInt32) (exit : Option IrqExit) (w : World (IntChip τ)) : Prop :=
  ∀ handled, exit = some (.done handled) → IrqState ie 0 w ∧ Served w

theorem ensures_irqLoop (b : IntBoard τ) (dv : Fork.Dv) (bec : CanBerrCounter)
    (hwak : ie.toNat.testBit 14 = false) (rounds : ℕ) (handled : Bool) :
    Ensures (IrqState ie 0) ((Fork.driver b.env dv).irqLoop bec rounds handled) (AtExit ie)
      fun _ _ => True := by
  induction rounds generalizing handled with
  | zero => exact Ensures.pure fun _ _ => nofun
  | succ rounds ih =>
    have hround := DrvM.ensures_attempt (ensures_irqRound b dv bec hwak)
    refine Ensures.bind hround.neverFails fun r => ?_
    rcases r with err | round
    · exact Ensures.pure fun _ _ => nofun
    · cases round with
      | nothingPending => exact Ensures.pure fun w hw _ _ => hw.2 rfl
      | busOff => exact Ensures.pure fun _ _ => nofun
      | handled => exact (ih true).pre (fun w hw => hw.1 rfl)

theorem ensures_irqRxInt (b : IntBoard τ) (dv : Fork.Dv) (bec : CanBerrCounter)
    (hwak : ie.toNat.testBit 14 = false) (rounds rxRounds : ℕ) (handled : Bool) :
    Ensures (IrqState ie 0) ((Fork.driver b.env dv).irqRxInt bec rounds rxRounds handled)
      (AtExit ie) fun _ _ => True := by
  induction rxRounds generalizing handled with
  | zero => exact Ensures.pure fun _ _ => nofun
  | succ rxRounds ih =>
    refine Ensures.bind (Q := fun _ => IrqState ie 0) ?_ fun pending => ?_
    · exact DrvM.ensures_access _ fun w hw =>
        ⟨(Todo.stable ie 0).rest _ _ (IntBoard.happen_of_stable (Todo.stable ie 0) hw.1), hw.2⟩
    · refine Ensures.ite (fun _ => ensures_irqLoop b dv bec hwak rounds handled) fun _ => ?_
      refine Ensures.bind (DrvM.ensures_attempt
        (ensures_handle b dv .rxif (keeps_handleRxif b dv))).neverFails fun r => ?_
      rcases r with err | _
      · exact Ensures.pure fun _ _ => nofun
      · exact (ih true).pre (fun w hw => hw.mono fun i _ _ h0 => by simp at h0)

theorem ensures_irq (b : IntBoard τ) (dv : Fork.Dv) (bec : CanBerrCounter)
    (hwak : ie.toNat.testBit 14 = false) (rounds : ℕ) :
    Ensures (IrqState ie 0) ((Fork.driver b.env dv).irq bec rounds) (AtExit ie)
      fun _ _ => True := by
  refine Ensures.bind (Q := fun _ => IrqState ie 0) ?_ fun rxInt => ?_
  · exact (safeFork b ie 0 dv).rxInt.unlessFails
  · extract_lets leave
    have hleave (exit : Option IrqExit) :
        Ensures (AtExit ie exit) (leave exit) (AtExit ie) fun _ _ => True := by
      rcases exit with _ | ⟨handled | _ | ⟨err, handled⟩⟩
      · exact Ensures.pure fun _ _ => nofun
      · exact Ensures.pure fun w hw => hw
      · exact Ensures.pure fun _ _ => nofun
      · refine Ensures.bind (Q := fun _ _ => True) (ensures_iff.mpr fun w _ => ?_) fun _ =>
          Ensures.pure fun _ _ => nofun
        split <;> trivial
    refine Ensures.ite (fun _ => ?_) fun _ => ?_
    · exact Ensures.bind (ensures_irqRxInt b dv bec hwak rounds rounds false) hleave
    · exact Ensures.bind (ensures_irqLoop b dv bec hwak rounds false) hleave

end IrqState

/-- `mcp251xfd_chip_interrupts_enable` does not enable the wake-up interrupt, for which there is no
handler. -/
theorem intEnables_wakie (p : Priv) : intIe.get (Driver.Priv.intEnables p) &&& intWakif = 0 := by
  unfold Driver.Priv.intEnables
  split_ifs <;> decide

open IrqState

/-- The acknowledge clears flags of `intf` only and keeps the enables. -/
theorem ensures_irqAck_within (b : IntBoard τ) (dv : Fork.Dv) (ie flags intf : UInt32) :
    Ensures (fun w => w.env.Within ie flags) ((Fork.driver b.env dv).irqAck intf)
      (fun _ w => w.env.Within ie (flags ||| intf))
      fun _ w => w.env.Within ie (flags ||| intf) := by
  have hstable := Within.stable (τ := τ) ie flags
  have hweak (c : IntChip τ) (hc : c.Within ie flags) : c.Within ie (flags ||| intf) :=
    ⟨hc.enables, fun i hi => by rw [testBit_or, hc.cleared i hi, Bool.true_or]⟩
  refine IntBoard.ensures_irqAck (IntBoard.safe hstable) dv intf (fun w hw => hw.enables)
    (fun w hw => hweak _ hw) fun data hdata => ?_
  refine Env.ensures_spiWrite fun w hw => ?_
  have hc := hstable.happen w.env (b.set w.env.rest) (b.drop w.env.rest) hw
  simp only [IntBoard.env]
  refine (Within.stable ie (flags ||| intf)).rest _ _ ?_
  split_ifs
  · exact hdata.within_store hc
  · exact hweak _ hc

/-- The acknowledge clears flags of `intf` only and keeps the enables. When `mcp251xfd_irq` returns
with nothing pending, every event of an enabled clearable flag has been followed by a start of its
handler. -/
theorem irq_serves_events (b : IntBoard τ) (dv : Fork.Dv) (w : World (IntChip τ)) :
    (∀ intf, match (Fork.driver b.env dv).irqAck intf
        { w with env := { w.env with cleared := 0 } } with
      | .ok _ w' | .error _ w' =>
        w'.env.cleared &&& ~~~intf = 0 ∧ intIe.get w'.env.int = intIe.get w.env.int) ∧
    (∀ ie bec rounds handled w', ie &&& intWakif = 0 → IrqState ie 0 w →
      (Fork.driver b.env dv).irq bec rounds w = .ok (some (.done handled)) w' →
      Served w' ∧ IrqState ie 0 w') := by
  constructor
  · intro intf
    have hrun := ensures_iff.mp (ensures_irqAck_within b dv (intIe.get w.env.int) 0 intf)
      { w with env := { w.env with cleared := 0 } } ⟨rfl, fun i hi => by simp at hi⟩
    have hback {c : IntChip τ} (hc : c.Within (intIe.get w.env.int) (0 ||| intf)) :
        c.cleared &&& ~~~intf = 0 ∧ intIe.get c.int = intIe.get w.env.int := by
      refine ⟨eq_of_testBit fun i => ?_, hc.enables⟩
      have := hc.cleared i
      rw [UInt32.zero_or] at this
      rw [testBit_and, testBit_not, testBit_zero]
      cases hcl : c.cleared.toNat.testBit i
      · rfl
      · simp [this hcl]
    split
    · next heq =>
      rw [heq] at hrun
      exact hback hrun
    · next heq =>
      rw [heq] at hrun
      exact hback hrun
  · intro ie bec rounds handled w' hwak hw heq
    have hbit : ie.toNat.testBit 14 = false := (and_bit_eq_zero (by decide) ie).mp hwak
    have hrun := ensures_iff.mp (ensures_irq b dv bec hbit rounds) w hw
    rw [heq] at hrun
    exact (hrun handled rfl).symm

namespace IntBench

/-- A controller where every access succeeds and reads zeros; SERRIF comes up before the third
access. -/
def board : IntBoard ℕ where
  other := {
    board := ⟨true, false, 20000000, devtypeDataMcp251xfd, false, false, kernelDlc⟩
    read := fun _ len n => ((0, List.replicate len 0), n + 1)
    readCrc := fun _ len n => ((0, List.replicate len 0, 0), n + 1)
    write := fun _ _ n => (0, n + 1)
    reset := fun n => (0, n + 1)
    polls := fun _ n => (0, n + 1)
    rxPending := fun n => (false, n + 1)
    call := fun _ n => (0, n + 1) }
  set n := if n = 2 then intSerrif else 0
  drop _ := 0
  lands _ _ _ := true

def priv : Priv :=
  { Priv.alloc with
    canState := .errorActive
    ctrlmode := canCtrlmodeFd
    regmaps := ⟨⟨true, true, true⟩, ⟨false, false, false⟩, some .nocrc, some .nocrc⟩ }

/-- MODIF and CERRIF are pending. -/
def world : World (IntChip ℕ) where
  env := ⟨0, Driver.Priv.intEnables priv ||| intModif ||| intCerrif, intModif ||| intCerrif, 0⟩
  priv := priv.ringInit
  maxSpeedHz := 10000000
  writes := []

end IntBench

theorem irq_serves_events_bench : ∃ handled w',
    (Fork.driver IntBench.board.env ⟨0, 0, false, false⟩).irq ⟨0, 0⟩ 3 IntBench.world =
      .ok (some (.done handled)) w' ∧
    Served w' ∧ IrqState (intIe.get (Driver.Priv.intEnables IntBench.priv)) 0 w' := by
  have hstate : IrqState (intIe.get (Driver.Priv.intEnables IntBench.priv)) 0 IntBench.world := by
    refine ⟨⟨by decide, fun i hun _ _ => Or.inl ?_⟩, (Priv.txPrepared_ringInit _).objsAllowed⟩
    simp only [IntBench.world, testBit_or, Bool.or_eq_true] at hun ⊢
    tauto
  have hdone : EStateM.run' ((Fork.driver IntBench.board.env ⟨0, 0, false, false⟩).irq ⟨0, 0⟩ 3)
      IntBench.world = some (some (.done true)) := by
    decide +kernel
  obtain ⟨w', hexit⟩ := ok_of_run' hdone
  exact ⟨true, w', hexit, (irq_serves_events IntBench.board ⟨0, 0, false, false⟩ IntBench.world).2
    (intIe.get (Driver.Priv.intEnables IntBench.priv)) ⟨0, 0⟩ 3 true w'
    (intEnables_wakie IntBench.priv) hstate hexit⟩

end YoctoLayers.Mcp251xfd
