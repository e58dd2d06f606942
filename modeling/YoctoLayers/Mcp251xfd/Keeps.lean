import YoctoLayers.Mcp251xfd.MaskBytes
import YoctoLayers.Lib.Runs
import YoctoLayers.Mcp251xfd.Irq

/-! What the functions below `mcp251xfd_irq` and those that start and stop the controller leave
alone: a property of the state survives them if it survives each access to the outside and each
change of the private data they make. -/
namespace YoctoLayers.Mcp251xfd
open YoctoLayers.Lib

variable {σ α : Type} {I : World σ → Prop}

namespace DrvM

theorem ensures_access {P : World σ → Prop} {Q : α → World σ → Prop} {E : ℤ → World σ → Prop}
    (f : σ → α × σ) (h : ∀ w, P w → Q (f w.env).1 { w with env := (f w.env).2 }) :
    Ensures P (access f) Q E :=
  ensures_iff.mpr h

theorem keeps_access (f : σ → α × σ) (h : ∀ w, I w → I { w with env := (f w.env).2 }) :
    Keeps I (access f) :=
  ensures_access f h

theorem keeps_check (err : ℤ) : Keeps I (check err : DrvM σ Unit) :=
  Keeps.ite (Keeps.pure ()) (Keeps.throw err)

theorem keeps_priv : Keeps I (priv : DrvM σ Priv) := Keeps.get.bind fun _ => Keeps.pure _

theorem ensures_priv_bind {β : Type} {P : World σ → Prop} {f : Priv → DrvM σ β}
    {Q : β → World σ → Prop} {E : ℤ → World σ → Prop}
    (h : ∀ p, Ensures (fun w => P w ∧ w.priv = p) (f p) Q E) : Ensures P (priv >>= f) Q E := by
  rw [ensures_iff]
  intro w hw
  exact ensures_iff.mp (h w.priv) w ⟨hw, rfl⟩

theorem keeps_modifyPriv (f : Priv → Priv) (h : ∀ w, I w → I { w with priv := f w.priv }) :
    Keeps I (modifyPriv f) :=
  Keeps.modify h

variable {x : DrvM σ α} {y : DrvM σ Unit}

theorem ensures_attempt {P : World σ → Prop} {Q : α → World σ → Prop} {E : ℤ → World σ → Prop}
    (h : Ensures P x Q E) :
    Ensures P (attempt x)
      (fun r w =>
        match r with
        | .ok a => Q a w
        | .error err => E err w)
      fun _ _ => False :=
  Ensures.tryCatch (h.bind fun _ => Ensures.pure fun _ hq => hq)
    fun _ => Ensures.pure fun _ he => he

theorem keeps_attempt (h : Keeps I x) : Keeps I (attempt x) :=
  (ensures_attempt h).imp (fun _ hw => hw) (fun r _ hw => by cases r <;> exact hw)
    fun _ _ hf => hf.elim

theorem ensures_ignoreErr {P Q : World σ → Prop} (h : Ensures P x (fun _ => Q) fun _ => Q) :
    Ensures P (ignoreErr x) (fun _ => Q) fun _ _ => False :=
  (h.bind fun _ => Ensures.pure fun _ hq => hq).tryCatch fun _ => Ensures.pure fun _ hq => hq

theorem keeps_ignoreErr (h : Keeps I x) : Keeps I (ignoreErr x) :=
  (ensures_ignoreErr h).neverFails

theorem keeps_onError (hundo : Keeps I y) (h : Keeps I x) : Keeps I (onError y x) :=
  h.tryCatch fun err => hundo.bind fun _ => Keeps.throw err

theorem keeps_callIf (c : Bool) (h : Keeps I y) : Keeps I (callIf c y) := by
  unfold callIf
  exact Keeps.ite h (Keeps.pure ())

variable {undo : DrvM σ Unit} {w w' : World σ}

theorem run_attempt_ok {a : α} (h : x w = .ok a w') : attempt x w = .ok (.ok a) w' :=
  run_tryCatch_ok (run_bind_ok h)

theorem run_attempt_error {err : ℤ} (h : x w = .error err w') :
    attempt x w = .ok (.error err) w' :=
  run_tryCatch_error (run_bind_error h)

theorem run_access {f : σ → α × σ} {a : α} {s : σ} (h : f w.env = (a, s)) :
    access f w = .ok a { w with env := s } := by
  change EStateM.Result.ok (f w.env).1 { w with env := (f w.env).2 } = _
  rw [h]

theorem run_ignoreErr (x : DrvM σ α) (w : World σ) : ignoreErr x w = .ok () (after x w) := by
  cases h : x w with
  | ok a w' =>
    rw [after_ok h]
    exact run_tryCatch_ok (run_bind_ok h)
  | error err w' =>
    rw [after_error h]
    exact run_tryCatch_error (run_bind_error h)

theorem run_onError_ok {a : α} (h : x w = .ok a w') : onError undo x w = .ok a w' :=
  run_tryCatch_ok h

theorem run_onError_error {err : ℤ} {y : DrvM σ α} (h : x w = .error err w') :
    onError (ignoreErr y) x w = .error err (after y w') := by
  have hcatch : onError (ignoreErr y) x w = (ignoreErr y >>= fun _ => throw err) w' :=
    run_tryCatch_error h
  rw [hcatch, run_bind_ok (run_ignoreErr y w')]
  rfl

end DrvM

open DrvM

namespace Env
variable {env : Env σ}

theorem keeps_note (c : KernelCall) (h : ∀ w, I w → I { w with env := (env.call c w.env).2 }) :
    Keeps I (env.note c) :=
  (keeps_access _ h).bind fun _ => Keeps.pure ()

theorem keeps_spiRead {reg : UInt16} {len : ℕ}
    (h : ∀ w, I w → I { w with env := (env.read reg len w.env).2 }) :
    Keeps I (env.spiRead reg len) :=
  (keeps_access _ h).bind fun _ => (keeps_check _).bind fun _ => Keeps.pure _

theorem ensures_spiWrite {P Q : World σ → Prop} {reg : UInt16} {data : List UInt8}
    (h : ∀ w, P w →
      Q { w with env := (env.write reg data w.env).2, writes := w.writes ++ [(reg, data)] }) :
    Ensures P (env.spiWrite reg data) (fun _ => Q) fun _ => Q := by
  rw [ensures_iff]
  intro w hw
  have hcheck : Keeps Q (check (env.write reg data w.env).1) := keeps_check _
  exact ensures_iff.mp hcheck _ (h w hw)

theorem keeps_crcReadTries {reg : UInt16} {len : ℕ}
    (h : ∀ w, I w → I { w with env := (env.readCrc reg len w.env).2 }) (tries : ℕ) :
    Keeps I (env.regmapCrcReadTries reg len tries) := by
  induction tries with
  | zero => exact Keeps.pure none
  | succ tries ih =>
    have hone : Keeps I (env.regmapCrcReadOne reg len) := by
      refine (keeps_access _ h).bind fun r => ?_
      exact Keeps.ite (Keeps.pure _) (Keeps.ite (Keeps.pure _) (Keeps.pure _))
    refine hone.bind fun r => ?_
    exact Keeps.ite (Keeps.pure _)
      (Keeps.ite (Keeps.throw _) (Keeps.ite (Keeps.pure _) ih))

/-- Tries of a read with CRC, where `B n` holds behind `n` bad transfers: `R` holds of what a good
one brings, and `E` where one fails for good. -/
theorem ensures_crcReadTries {B : ℕ → World σ → Prop} {R : List UInt8 → World σ → Prop}
    {E : World σ → Prop} {reg : UInt16} {len : ℕ} (hosc : reg ≠ regOsc)
    (hgood : ∀ n w, B n w → (env.readCrc reg len w.env).1.1 = 0 →
      (env.readCrc reg len w.env).1.2.2 =
        crc16Compute2 (spiCmdReadCrc reg len) (env.readCrc reg len w.env).1.2.1 →
      R (env.readCrc reg len w.env).1.2.1 { w with env := (env.readCrc reg len w.env).2 })
    (hbad : ∀ n w, B n w → (env.readCrc reg len w.env).1.1 = -ebadmsg ∨
        (env.readCrc reg len w.env).1.2.2 ≠
          crc16Compute2 (spiCmdReadCrc reg len) (env.readCrc reg len w.env).1.2.1 →
      B (n + 1) { w with env := (env.readCrc reg len w.env).2 })
    (hfail : ∀ n w, B n w → (env.readCrc reg len w.env).1.1 ≠ 0 →
      E { w with env := (env.readCrc reg len w.env).2 }) (tries n : ℕ) :
    Ensures (B n) (env.regmapCrcReadTries reg len tries)
      (fun r w =>
        match r with
        | none => B (n + tries) w
        | some data => R data w)
      fun _ => E := by
  induction tries generalizing n with
  | zero => exact Ensures.pure fun w hw => hw
  | succ tries ih =>
    refine Ensures.bind (Q := fun r w => (r.1 = 0 → R r.2 w) ∧ (r.1 = -ebadmsg → B (n + 1) w) ∧
      (r.1 ≠ 0 → r.1 ≠ -ebadmsg → E w)) ?_ fun r => ?_
    · refine Ensures.bind (Q := fun r w =>
        (r.1 = 0 → r.2.2 = crc16Compute2 (spiCmdReadCrc reg len) r.2.1 → R r.2.1 w) ∧
        (r.1 = -ebadmsg ∨ r.2.2 ≠ crc16Compute2 (spiCmdReadCrc reg len) r.2.1 → B (n + 1) w) ∧
        (r.1 ≠ 0 → E w)) ?_ fun r => ?_
      · exact ensures_access _ fun w hw => ⟨hgood n w hw, hbad n w hw, hfail n w hw⟩
      · refine Ensures.ite (fun herr => Ensures.pure fun w hw => ?_) fun herr => ?_
        · exact ⟨fun h0 => absurd h0 herr, fun hmsg => hw.2.1 (Or.inl hmsg), fun h0 _ => hw.2.2 h0⟩
        · refine Ensures.ite (fun hcrc => Ensures.pure fun w hw => ?_) fun hcrc =>
            Ensures.pure fun w hw => ?_
          · exact ⟨fun h0 => absurd (show -ebadmsg = 0 from h0) (by decide),
              fun _ => hw.2.1 (Or.inr hcrc), fun _ hmsg => absurd rfl hmsg⟩
          · exact ⟨fun _ => hw.1 (not_not.mp herr) (not_not.mp hcrc),
              fun hmsg => absurd (show 0 = -ebadmsg from hmsg) (by decide), fun h0 => absurd rfl h0⟩
    · refine Ensures.ite (fun h0 => Ensures.pure fun w hw => hw.1 h0) fun h0 => ?_
      refine Ensures.ite (fun hmsg => Ensures.throw fun w hw => hw.2.2 h0 hmsg) fun hmsg => ?_
      refine Ensures.ite (fun h => absurd h hosc) fun _ => ?_
      rw [Nat.add_comm tries, ← Nat.add_assoc]
      exact (ih (n + 1)).pre fun w hw => hw.2.1 (not_not.mp hmsg)

/-- A read with CRC: it fails where a transfer fails for good, or where all nine are bad. -/
theorem ensures_crcReadFrom {B : ℕ → World σ → Prop} {R : List UInt8 → World σ → Prop}
    {E : World σ → Prop} {reg : UInt16} {len : ℕ} (hosc : reg ≠ regOsc)
    (hgood : ∀ n w, B n w → (env.readCrc reg len w.env).1.1 = 0 →
      (env.readCrc reg len w.env).1.2.2 =
        crc16Compute2 (spiCmdReadCrc reg len) (env.readCrc reg len w.env).1.2.1 →
      R (env.readCrc reg len w.env).1.2.1 { w with env := (env.readCrc reg len w.env).2 })
    (hbad : ∀ n w, B n w → (env.readCrc reg len w.env).1.1 = -ebadmsg ∨
        (env.readCrc reg len w.env).1.2.2 ≠
          crc16Compute2 (spiCmdReadCrc reg len) (env.readCrc reg len w.env).1.2.1 →
      B (n + 1) { w with env := (env.readCrc reg len w.env).2 })
    (hfail : ∀ n w, B n w → (env.readCrc reg len w.env).1.1 ≠ 0 →
      E { w with env := (env.readCrc reg len w.env).2 }) :
    Ensures (B 0) ((Fork.bus env).crcRead reg len) R fun _ w => E w ∨ B 9 w := by
  have hends : ∀ (e : ℤ) (w : World σ), E w → E w ∨ B 9 w := fun _ _ he => Or.inl he
  have htries (n : ℕ) :=
    (ensures_crcReadTries hosc hgood hbad hfail readCrcRetriesMax n).failed hends
  have hreread (rereads n : ℕ) (hn : n + 3 * (rereads + 1) = 9) :
      Ensures (B n) (env.regmapCrcReread reg len rereads) R fun _ w => E w ∨ B 9 w := by
    induction rereads generalizing n with
    | zero =>
      refine (htries n).bind fun r => ?_
      cases r with
      | none =>
        have hnine : n + readCrcRetriesMax = 9 := hn
        exact Ensures.throw fun w hw => Or.inr (hnine ▸ hw)
      | some data => exact Ensures.pure fun w hw => hw
    | succ rereads ih =>
      refine (htries n).bind fun r => ?_
      cases r with
      | none =>
        have hmax : readCrcRetriesMax = 3 := rfl
        exact ih _ (by omega)
      | some data => exact Ensures.pure fun w hw => hw
  exact hreread 2 0 rfl

/-- What a read with CRC brings, from what one transfer with a good CRC brings. -/
theorem ensures_crcRead {P : World σ → Prop} {R : List UInt8 → World σ → Prop} {reg : UInt16}
    {len : ℕ} (hosc : reg ≠ regOsc)
    (hkeep : ∀ w, P w → P { w with env := (env.readCrc reg len w.env).2 })
    (hread : ∀ w, P w → (env.readCrc reg len w.env).1.1 = 0 →
      (env.readCrc reg len w.env).1.2.2 =
        crc16Compute2 (spiCmdReadCrc reg len) (env.readCrc reg len w.env).1.2.1 →
      R (env.readCrc reg len w.env).1.2.1 { w with env := (env.readCrc reg len w.env).2 }) :
    Ensures P ((Fork.bus env).crcRead reg len) (fun data w => P w ∧ R data w) fun _ => P :=
  (ensures_crcReadFrom (B := fun _ => P) (E := P) hosc
    (fun _ w hw herr hcrc => ⟨hkeep w hw, hread w hw herr hcrc⟩) (fun _ w hw _ => hkeep w hw)
    fun _ w hw _ => hkeep w hw).failed fun _ _ he => he.elim id id

end Env

namespace Bus
variable {bus : Bus σ}

theorem keeps_deref (map : Regmaps → Option MapKind) : Keeps I (deref map : DrvM σ MapKind) := by
  refine keeps_priv.bind fun p => ?_
  cases map p.regmaps with
  | none => exact Keeps.throw _
  | some kind => exact Keeps.pure kind

theorem keeps_busRead {reg : UInt16} {len : ℕ}
    (hread : ∀ w, I w → I { w with env := (bus.env.read reg len w.env).2 })
    (hcrc : Keeps I (bus.crcRead reg len)) (kind : MapKind) :
    Keeps I (bus.busRead kind reg len) := by
  cases kind with
  | nocrc => exact Env.keeps_spiRead hread
  | crc => exact hcrc

theorem keeps_regmapRead {reg : UInt16}
    (hread : ∀ w, I w → I { w with env := (bus.env.read reg 4 w.env).2 })
    (hcrc : Keeps I (bus.crcRead reg 4)) : Keeps I (bus.regmapRead reg) :=
  (keeps_deref _).bind fun kind => (keeps_busRead hread hcrc kind).bind fun _ => Keeps.pure _

end Bus

/-- The register accesses keep `I`; only the writes in `A` are to be made. -/
structure Bus.RegSafe (bus : Bus σ) (I : World σ → Prop) (A : UInt16 → List UInt8 → Prop) :
    Prop where
  read : ∀ reg len w, I w → I { w with env := (bus.env.read reg len w.env).2 }
  crcRead : ∀ reg len, Keeps I (bus.crcRead reg len)
  write : ∀ reg data w, A reg data → I w →
    I { w with env := (bus.env.write reg data w.env).2, writes := w.writes ++ [(reg, data)] }
  polls : ∀ reg w, I w → I { w with env := (bus.env.polls reg w.env).2 }

/-- All accesses to the outside keep `I`. -/
structure Bus.Safe (bus : Bus σ) (I : World σ → Prop) (A : UInt16 → List UInt8 → Prop) : Prop
    extends toBusRegSafe : Bus.RegSafe bus I A where
  call : ∀ c w, I w → I { w with env := (bus.env.call c w.env).2 }

/-- `A` allows every write within the register `reg`. -/
def InReg (A : UInt16 → List UInt8 → Prop) (reg : UInt16) : Prop :=
  ∀ k data, k + data.length ≤ 4 → A (reg + UInt16.ofNat k) data

theorem InReg.zero {A : UInt16 → List UInt8 → Prop} {reg : UInt16} (h : InReg A reg)
    {data : List UInt8} (hlen : data.length ≤ 4) : A reg data := by
  have := h 0 data (by omega)
  rwa [show reg + UInt16.ofNat 0 = reg from UInt16.add_zero reg] at this

/-- A write of the bytes of one register that a mask selects. -/
theorem InReg.bytes {A : UInt16 → List UInt8 → Prop} {reg : UInt16} (h : InReg A reg)
    (mask val : UInt32) :
    A (reg + UInt16.ofNat (firstByteSet mask))
      ((le32 val).take (lastByteSet mask - firstByteSet mask + 1)) := by
  have hfirst := firstByteSet_le mask
  have hlast := lastByteSet_le mask
  apply h
  rw [List.length_take, length_le32]
  omega

/-- `q` has the TX ring, the prepared messages and the control mode of `p`. -/
structure Priv.SameTx (p q : Priv) : Prop where
  base : q.txd.tx.base = p.txd.tx.base
  objSize : q.txd.tx.objSize = p.txd.tx.objSize
  objNum : q.txd.tx.objNum = p.txd.tx.objNum
  obj : q.txd.obj = p.txd.obj
  ctrlmode : q.ctrlmode = p.ctrlmode

/-- `I` looks at nothing else of the private data. -/
def OnTx (I : World σ → Prop) : Prop :=
  ∀ w p, Priv.SameTx w.priv p → I w → I { w with priv := p }

theorem OnTx.modifyPriv (ht : OnTx I) {f : Priv → Priv} (hf : ∀ p, Priv.SameTx p (f p)) :
    Keeps I (DrvM.modifyPriv f) :=
  keeps_modifyPriv f fun w hw => ht w _ (hf w.priv) hw

namespace Bus.RegSafe
variable {bus : Bus σ} {A : UInt16 → List UInt8 → Prop}

theorem spiWrite (h : bus.RegSafe I A) {reg : UInt16} {data : List UInt8} (hA : A reg data) :
    Keeps I (bus.env.spiWrite reg data) :=
  Env.ensures_spiWrite fun w hw => h.write reg data w hA hw

theorem busRead (h : bus.RegSafe I A) (kind : MapKind) (reg : UInt16) (len : ℕ) :
    Keeps I (bus.busRead kind reg len) :=
  Bus.keeps_busRead (h.read reg len) (h.crcRead reg len) kind

theorem regmapRead (h : bus.RegSafe I A) (reg : UInt16) : Keeps I (bus.regmapRead reg) :=
  Bus.keeps_regmapRead (h.read reg 4) (h.crcRead reg 4)

theorem regmapWrite (h : bus.RegSafe I A) {reg : UInt16} (val : UInt32) (hA : InReg A reg) :
    Keeps I (bus.regmapWrite reg val) :=
  (Bus.keeps_deref _).bind fun _ => h.spiWrite (hA.zero (length_le32 val).le)

theorem regmapUpdateBits (h : bus.RegSafe I A) {reg : UInt16} (mask val : UInt32)
    (hA : InReg A reg) :
    Keeps I (bus.regmapUpdateBits reg mask val) := by
  refine (Bus.keeps_deref _).bind fun kind => ?_
  cases kind with
  | nocrc =>
    refine Keeps.ite (Keeps.throw _) ?_
    have hwrite (orig : UInt32) : Keeps I _ := h.spiWrite (hA.bytes mask orig)
    refine Keeps.ite ?_ (hwrite _)
    exact ((Env.keeps_spiRead (h.read _ _)).map getLe32).bind fun _ => hwrite _
  | crc =>
    refine (h.crcRead reg 4).bind fun _ => ?_
    exact keeps_callIf _ (h.spiWrite (hA.zero (length_le32 _).le))

theorem regmapBulkRead (h : bus.RegSafe I A) (map : Regmaps → Option MapKind) (reg : UInt16)
    (len : ℕ) :
    Keeps I (bus.regmapBulkRead map reg len) := by
  have hchunks (kind : MapKind) (chunks : List (ℕ × ℕ)) :
      Keeps I (bus.rawReadChunks kind reg chunks) := by
    induction chunks with
    | nil => exact Keeps.pure _
    | cons chunk chunks ih =>
      exact (h.busRead kind _ _).bind fun _ => ih.bind fun _ => Keeps.pure _
  refine (Bus.keeps_deref map).bind fun kind => ?_
  exact Keeps.ite (Keeps.throw _) (hchunks kind _)

theorem regmapReadPollTimeout (h : bus.RegSafe I A) (reg : UInt16) (cond : UInt32 → Bool)
    (val : UInt32) : Keeps I (bus.regmapReadPollTimeout reg cond val) := by
  have hpoll (reads : ℕ) (val : UInt32) : Keeps I (bus.regmapPoll reg cond reads val) := by
    induction reads generalizing val with
    | zero => exact Keeps.pure _
    | succ reads ih =>
      refine (keeps_attempt (h.regmapRead reg)).bind fun res => ?_
      cases res with
      | error err => exact Keeps.pure _
      | ok val => exact Keeps.ite (Keeps.pure _) (ih val)
  exact (keeps_access _ (h.polls reg)).bind fun _ => hpoll _ _

theorem rxInt (_ : bus.RegSafe I A) : Keeps I bus.rxInt := keeps_priv.bind fun _ => Keeps.pure _

theorem chipGetMode (h : bus.RegSafe I A) : Keeps I bus.chipGetMode :=
  (h.regmapRead regCon).bind fun _ => Keeps.pure _

end Bus.RegSafe

theorem Bus.Safe.note {bus : Bus σ} {A : UInt16 → List UInt8 → Prop} (h : bus.Safe I A)
    (c : KernelCall) : Keeps I (bus.env.note c) :=
  Env.keeps_note c (h.call c)

/-- TX object `nr` may be reloaded to where its prepared message writes it. -/
def ObjAllowed (A : UInt16 → List UInt8 → Prop) (p : Priv) (nr : UInt8) : Prop :=
  ∀ data : List UInt8, data.length ≤ 72 → A ((p.txd.obj nr.toNat).cmd &&& spiAddress) data

/-- Every object that the address of an ECC error can lead to may be reloaded. -/
def ObjsAllowed (A : UInt16 → List UInt8 → Prop) (p : Priv) : Prop :=
  ∀ addr nr, getTxNrByAddr p.txd.tx addr = some nr → ObjAllowed A p nr

/-- The register accesses of a driver keep `I`, and so do the functions in which the drivers
differ and that `mcp251xfd_irq` calls. -/
structure Driver.RegSafe (d : Driver σ) (I : World σ → Prop) (A : UInt16 → List UInt8 → Prop) : Prop
    extends toBusRegSafe : Bus.RegSafe d.toBus I A where
  chipSetMode : ∀ modeReq nowait, Keeps I (d.chipSetMode' modeReq nowait)
  getBerrCounter' : ∀ bec, Keeps I (d.getBerrCounter' bec)

/-- All accesses of a driver to the outside keep `I`. -/
structure Driver.Safe (d : Driver σ) (I : World σ → Prop) (A : UInt16 → List UInt8 → Prop) : Prop
    extends toBusSafe : Bus.Safe d.toBus I A, toDriverRegSafe : Driver.RegSafe d I A

namespace Driver.RegSafe
variable {d : Driver σ} {A : UInt16 → List UInt8 → Prop}

theorem chipRxIntDisable (h : d.RegSafe I A) (hA : InReg A regIocon) :
    Keeps I d.chipRxIntDisable := by
  refine h.rxInt.bind fun _ => ?_
  exact Keeps.ite (Keeps.pure _) (h.regmapWrite _ hA)

theorem chipInterruptsDisable (h : d.RegSafe I A) (hint : InReg A regInt) (hecc : InReg A regEcccon)
    (hcrc : InReg A regCrc) : Keeps I d.chipInterruptsDisable :=
  (h.regmapWrite _ hint).bind fun _ =>
    (h.regmapUpdateBits _ _ hecc).bind fun _ => h.regmapWrite _ hcrc

theorem chipSetNormalMode' (h : d.RegSafe I A) (nowait : Bool) :
    Keeps I (d.chipSetNormalMode' nowait) :=
  keeps_priv.bind fun _ => h.chipSetMode _ _

theorem getBerrCounter (h : d.RegSafe I A) (bec : CanBerrCounter) :
    Keeps I (d.getBerrCounter bec) := by
  refine keeps_priv.bind fun p => Keeps.ite (Keeps.pure _) (Keeps.ite (Keeps.pure _) ?_)
  exact h.getBerrCounter' bec

theorem chipStop {state : CanState} (h : d.RegSafe (fun w => w.priv.canState = state) A)
    (hA : ∀ reg, InReg A reg) :
    Ensures (fun _ => True) (d.chipStop state) (fun _ w => w.priv.canState = state)
      fun _ w => w.priv.canState = state := by
  refine Ensures.bind (Q := fun _ w => w.priv.canState = state) ?_ fun _ => ?_
  · exact ensures_iff.mpr fun w _ => rfl
  · refine Keeps.bind (keeps_ignoreErr ?_) fun _ => Keeps.bind (keeps_ignoreErr ?_) fun _ => ?_
    · exact h.chipInterruptsDisable (hA _) (hA _) (hA _)
    · exact h.chipRxIntDisable (hA _)
    · exact h.chipSetMode _ _
end Driver.RegSafe

namespace Driver.Safe
variable {d : Driver σ} {A : UInt16 → List UInt8 → Prop}

theorem spiWriteTimes (h : d.Safe I A) {msg : UInt16 × List UInt8} (hA : A msg.1 msg.2) (len : ℕ) :
    Keeps I (d.spiWriteTimes msg len) := by
  induction len with
  | zero => exact Keeps.pure _
  | succ len ih => exact (h.spiWrite hA).bind fun _ => ih

theorem checkTefTail (h : d.Safe I A) : Keeps I d.checkTefTail := by
  refine Keeps.ite (Keeps.pure _) ?_
  refine (h.regmapRead regTefua).bind fun _ => keeps_priv.bind fun _ => ?_
  exact Keeps.ite (Keeps.throw _) (Keeps.pure _)

theorem checkRxTail (h : d.Safe I A) (ring : RxRing) : Keeps I (d.checkRxTail ring) := by
  refine Keeps.ite (Keeps.pure _) ?_
  refine (h.regmapRead _).bind fun _ => ?_
  exact Keeps.ite (Keeps.throw _) (Keeps.pure _)

theorem fifociGet (h : d.Safe I A) (fifo : UInt8) : Keeps I (d.fifociGet fifo) :=
  (h.regmapRead _).bind fun _ => Keeps.pure _

theorem handleTefifRecover (h : d.Safe I A) : Keeps I d.handleTefifRecover := by
  refine (h.regmapRead regTefsta).bind fun _ => ?_
  exact Keeps.ite (Keeps.throw _) (Keeps.throw _)

theorem handleTefifOne (h : d.Safe I A) (ht : OnTx I) (obj : HwTefObj) :
    Keeps I (d.handleTefifOne obj) := by
  refine keeps_priv.bind fun p => Keeps.ite h.handleTefifRecover ?_
  exact (h.note _).bind fun _ => ht.modifyPriv fun _ => ⟨rfl, rfl, rfl, rfl, rfl⟩

theorem handleTefObjs (h : d.Safe I A) (ht : OnTx I) (objs : List HwTefObj) :
    Keeps I (d.handleTefObjs objs) := by
  induction objs with
  | nil => exact Keeps.pure _
  | cons obj objs ih =>
    refine (keeps_attempt (h.handleTefifOne ht obj)).bind fun res => ?_
    cases res with
    | error err => exact Keeps.ite (Keeps.pure _) (Keeps.throw _)
    | ok _ => exact ih.bind fun _ => Keeps.pure _

theorem tefObjRead (h : d.Safe I A) (offset len : UInt8) : Keeps I (d.tefObjRead offset len) := by
  refine keeps_priv.bind fun p => Keeps.ite (Keeps.throw _) ?_
  exact (h.regmapBulkRead _ _ _).bind fun _ => Keeps.pure _

theorem tefRingUpdate (h : d.Safe I A) (ht : OnTx I) : Keeps I d.tefRingUpdate := by
  refine (h.fifociGet txFifo).bind fun _ => Keeps.bind ?_ fun _ => h.checkTefTail
  exact ht.modifyPriv fun _ => ⟨rfl, rfl, rfl, rfl, rfl⟩

theorem handleTefif (h : d.Safe I A) (ht : OnTx I) (hA : InReg A regTefcon) :
    Keeps I d.handleTefif := by
  refine (h.tefRingUpdate ht).bind fun _ => keeps_priv.bind fun p => ?_
  refine (h.tefObjRead _ _).bind fun hwTefObj => ?_
  extract_lets wake handled
  have hwake (u : Unit) : Keeps I (wake u) := by
    refine Keeps.bind (ht.modifyPriv fun _ => ⟨rfl, rfl, rfl, rfl, rfl⟩) fun _ => ?_
    refine keeps_priv.bind fun _ => Keeps.ite ?_ (Keeps.pure _)
    exact (h.note _).bind fun _ => ht.modifyPriv fun _ => ⟨rfl, rfl, rfl, rfl, rfl⟩
  have hhandled (rest : List HwTefObj) : Keeps I (handled rest) := by
    refine (h.handleTefObjs ht _).bind fun len => Keeps.ite ?_ (hwake ())
    refine (h.spiWriteTimes (hA.bytes tefconUinc _) len).bind fun _ => ?_
    refine Keeps.bind (ht.modifyPriv fun _ => ⟨rfl, rfl, rfl, rfl, rfl⟩) fun _ => ?_
    exact h.checkTefTail.bind hwake
  exact Keeps.ite ((h.tefObjRead _ _).bind hhandled) (hhandled _)

theorem handleRxObjs (h : d.Safe I A) (objs : List HwRxObj) : Keeps I (d.handleRxObjs objs) := by
  induction objs with
  | nil => exact Keeps.pure _
  | cons obj objs ih =>
    refine Keeps.bind ?_ fun _ => ih
    refine (keeps_access _ (h.call _)).bind fun _ => ?_
    exact Keeps.ite (Keeps.pure _) (h.note _)

theorem handleRxifRing (h : d.Safe I A) (ht : OnTx I) (hA : ∀ x, InReg A (regFifocon x))
    (ring : RxRing) : Keeps I (d.handleRxifRing ring) := by
  have hrounds (rounds : ℕ) (ring : RxRing) : Keeps I (d.rxifRounds ring rounds) := by
    induction rounds generalizing ring with
    | zero => exact Keeps.pure _
    | succ rounds ih =>
      refine Keeps.ite (Keeps.pure _) ?_
      refine (h.regmapBulkRead _ _ _).bind fun data => (h.handleRxObjs _).bind fun _ => ?_
      refine (h.spiWriteTimes ((hA ring.fifoNr).bytes fifoconUinc _) _).bind fun _ => ?_
      exact Keeps.bind (ht.modifyPriv fun _ => ⟨rfl, rfl, rfl, rfl, rfl⟩) fun _ => ih _
  have hupdate : Keeps I (d.rxRingUpdate ring) := by
    refine (h.fifociGet ring.fifoNr).bind fun _ => ?_
    refine Keeps.bind (ht.modifyPriv fun _ => ⟨rfl, rfl, rfl, rfl, rfl⟩) fun _ => ?_
    exact (h.checkRxTail _).bind fun _ => Keeps.pure _
  exact hupdate.bind fun _ => hrounds 256 _

theorem forEachRxRing {f : RxRing → DrvM σ Unit} (hf : ∀ ring, Keeps I (f ring)) :
    Keeps I (Driver.forEachRxRing f) := by
  refine keeps_priv.bind fun p => ?_
  cases p.rx with
  | none => exact Keeps.pure _
  | some ring => exact hf ring

theorem allocCanErrSkb (h : d.Safe I A) : Keeps I d.allocCanErrSkb := by
  refine (keeps_attempt (h.regmapRead regTbc)).bind fun res => ?_
  cases res with
  | error err => exact Keeps.pure _
  | ok timestamp => exact (keeps_access _ (h.call _)).bind fun _ => Keeps.pure _

theorem handleRxovif (h : d.Safe I A) (hA : ∀ x, InReg A (regFifosta x)) :
    Keeps I d.handleRxovif := by
  refine (h.regmapRead regRxovif).bind fun rxovif => ?_
  refine Keeps.bind (forEachRxRing fun ring => ?_) fun _ => ?_
  · exact keeps_callIf _ (h.regmapUpdateBits _ _ (hA ring.fifoNr))
  · refine h.allocCanErrSkb.bind fun skb => ?_
    cases skb with
    | none => exact Keeps.pure _
    | some timestamp => exact h.note _

theorem handleIvmif (h : d.Safe I A) (hA : InReg A regBdiag1) : Keeps I d.handleIvmif := by
  refine (h.regmapRead regTbc).bind fun _ => (h.regmapRead regBdiag1).bind fun _ => ?_
  refine (h.regmapWrite _ hA).bind fun _ => (keeps_access _ (h.call _)).bind fun _ => ?_
  exact Keeps.ite (Keeps.pure _) (h.note _)

theorem handleModif (h : d.Safe I A) : Keeps I d.handleModif := by
  refine keeps_priv.bind fun p => h.chipGetMode.bind fun mode => ?_
  refine Keeps.ite (Keeps.pure _) (Keeps.ite (Keeps.pure _) ?_)
  exact (h.chipSetNormalMode' true).bind fun _ => Keeps.pure _

theorem handleSpicrcif (h : d.Safe I A) (hA : InReg A regCrc) : Keeps I d.handleSpicrcif :=
  (h.regmapRead regCrc).bind fun _ => h.regmapUpdateBits _ _ hA

theorem handleEccifRecover (h : d.Safe I A) {nr : UInt8}
    (hobj : ∀ w, I w → ObjAllowed A w.priv nr) :
    Keeps I (d.handleEccifRecover nr) := by
  refine (h.fifociGet txFifo).bind fun chipTxTail => ensures_priv_bind fun p => ?_
  by_cases hp : ObjAllowed A p nr
  · refine Ensures.imp (P := I) (Keeps.ite (Keeps.throw _) ?_) (fun w hw => hw.1)
      (fun _ _ hw => hw) fun _ _ hw => hw
    refine Keeps.bind (h.spiWrite (hp _ ?_)) fun _ => h.chipSetNormalMode' false
    rw [List.length_take]
    refine (min_le_right _ _).trans ?_
    simp [length_le32]
  · refine Ensures.of_false fun w hw => hp ?_
    rw [← hw.2]
    exact hobj w hw.1

theorem handleEccif (h : d.Safe I A)
    (hnr : ∀ nr, d.Safe (fun w => I w ∧ ObjAllowed A w.priv nr) A) (ht : OnTx I)
    (hA : InReg A regEccstat) (hobj : ∀ w, I w → ObjsAllowed A w.priv)
    (setNormalMode : Bool) : Keeps I (d.handleEccif setNormalMode) := by
  refine (h.regmapRead regEccstat).bind fun eccStat => ?_
  refine (h.regmapUpdateBits _ _ hA).bind fun _ => ensures_priv_bind fun p => ?_
  refine Ensures.ite (fun _ => Ensures.throw fun w hw => hw.1) fun _ => ?_
  have hcall := keeps_callIf setNormalMode (h.chipSetNormalMode' true)
  cases haddr : getTxNrByAddr p.txd.tx (eccstatErraddr.get eccStat).toUInt16 with
  | none =>
    refine Ensures.imp (P := I) (Keeps.bind ?_ fun _ => hcall) (fun w hw => hw.1)
      (fun _ _ hw => hw) fun _ _ hw => hw
    exact ht.modifyPriv fun _ => ⟨rfl, rfl, rfl, rfl, rfl⟩
  | some nr =>
    refine Ensures.imp (P := fun w => I w ∧ ObjAllowed A w.priv nr)
      (Q := fun _ w => I w ∧ ObjAllowed A w.priv nr)
      (E := fun _ w => I w ∧ ObjAllowed A w.priv nr) ?_ (fun w hw => ⟨hw.1, ?_⟩)
      (fun _ _ hw => hw.1) fun _ _ hw => hw.1
    · refine Keeps.bind (keeps_modifyPriv _ fun w hw => ⟨?_, hw.2⟩) fun _ => ?_
      · exact ht w _ ⟨rfl, rfl, rfl, rfl, rfl⟩ hw.1
      refine keeps_priv.bind fun _ =>
        Keeps.ite ?_ (keeps_callIf _ ((hnr nr).chipSetNormalMode' true))
      exact (hnr nr).handleEccifRecover fun w hw => hw.2
    · exact hobj w hw.1 _ nr (hw.2 ▸ haddr)

/-- After Bus Off `J` holds, which stopping the controller leads to; otherwise what held before
still holds. -/
theorem handleCerrif {J : World σ → Prop} {B : UInt16 → List UInt8 → Prop} (h : d.Safe I A)
    (ht : OnTx I) (hoff : d.Safe J B)
    (hstop : Ensures I (d.chipStop .busOff) (fun _ => J) fun _ => J) (bec : CanBerrCounter) :
    Ensures I (d.handleCerrif bec) (fun _ w => J w ∨ I w) fun _ _ => True := by
  have hweak {α : Type} {x : DrvM σ α} (hx : Keeps I x) :
      Ensures I x (fun _ w => J w ∨ I w) fun _ _ => True :=
    hx.imp (fun _ hw => hw) (fun _ _ hw => Or.inr hw) fun _ _ _ => trivial
  refine (h.regmapRead regTrec).bindUnlessFails fun trec => ?_
  refine keeps_priv.bindUnlessFails fun p => Ensures.ite (fun _ => hweak (Keeps.pure _)) fun _ => ?_
  refine h.allocCanErrSkb.bindUnlessFails fun skb => ?_
  refine Keeps.bindUnlessFails (ht.modifyPriv fun _ => ⟨rfl, rfl, rfl, rfl, rfl⟩) fun _ => ?_
  extract_lets cf queue
  have hqueue {K : World σ → Prop} {C : UInt16 → List UInt8 → Prop} (hK : d.Safe K C) :
      Keeps K (queue ()) := by
    unfold queue
    cases skb with
    | none => exact Keeps.pure _
    | some timestamp =>
      exact Keeps.ite ((hK.getBerrCounter bec).bind fun _ => hK.note _) (hK.note _)
  refine Ensures.ite (fun hstate => ?_) fun hstate => hweak (hqueue h)
  refine keeps_priv.bindUnlessFails fun _ => (h.getBerrCounter' _).bindUnlessFails fun _ => ?_
  refine Keeps.bindUnlessFails (ht.modifyPriv fun _ => ⟨rfl, rfl, rfl, rfl, rfl⟩) fun _ => ?_
  refine Ensures.bind (Q := fun _ => J) ?_ fun _ => ?_
  · exact (ensures_ignoreErr hstop).unlessFails
  · exact ((hoff.note _).bind fun _ => hqueue hoff).imp (fun _ hw => hw) (fun _ _ hw => Or.inl hw)
      fun _ _ _ => trivial

end Driver.Safe

/-- The register accesses of the start path keep `I`. -/
structure Driver.StartSafe (d : Driver σ) (I : World σ → Prop) : Prop
    extends toDriverRegSafe : Driver.RegSafe d I (fun _ _ => True) where
  reset : ∀ w, I w → I { w with env := (d.env.reset w.env).2 }
  chipClockInit : Keeps I d.chipClockInit
  chipRxIntEnable : Keeps I d.chipRxIntEnable

theorem inReg_true (reg : UInt16) : InReg (fun _ _ => True) reg := fun _ _ _ => trivial

namespace Driver.StartSafe
variable {d : Driver σ} {I : World σ → Prop}

theorem chipClockEnable (h : d.StartSafe I) : Keeps I d.chipClockEnable := by
  refine (h.regmapWrite _ (inReg_true _)).bind fun _ => ?_
  refine (h.regmapReadPollTimeout _ _ _).bind fun r => ?_
  exact Keeps.ite (Keeps.throw _) (keeps_check _)

theorem chipSoftreset (h : d.StartSafe I) : Keeps I d.chipSoftreset := by
  have hdo : Keeps I d.chipSoftresetDo := by
    refine h.chipClockEnable.bind fun _ => (h.chipSetMode _ _).bind fun _ => ?_
    exact (keeps_access _ h.reset).bind fun _ => keeps_check _
  have hcheck : Keeps I d.chipSoftresetCheck := by
    refine h.chipGetMode.bind fun _ => Keeps.ite (Keeps.throw _) ?_
    exact (h.regmapRead _).bind fun _ => Keeps.ite (Keeps.throw _) (Keeps.pure _)
  have htries (tries : ℕ) : Keeps I (d.chipSoftresetTries tries) := by
    induction tries with
    | zero => exact Keeps.throw _
    | succ tries ih =>
      refine (keeps_attempt (hdo.bind fun _ => hcheck)).bind fun r => ?_
      cases r with
      | ok a => exact Keeps.pure _
      | error err => exact Keeps.ite ih (Keeps.throw _)
  exact htries _

theorem setBittiming (h : d.StartSafe I) : Keeps I d.setBittiming := by
  refine keeps_priv.bind fun p => ?_
  refine (h.regmapWrite _ (inReg_true _)).bind fun _ => ?_
  refine (h.regmapWrite _ (inReg_true _)).bind fun _ => Keeps.ite (Keeps.pure _) ?_
  exact (h.regmapWrite _ (inReg_true _)).bind fun _ => h.regmapWrite _ (inReg_true _)

theorem chipFifoInit (h : d.StartSafe I) : Keeps I d.chipFifoInit := by
  refine keeps_priv.bind fun p => ?_
  refine (h.regmapWrite _ (inReg_true _)).bind fun _ => ?_
  refine (h.regmapWrite _ (inReg_true _)).bind fun _ => ?_
  refine Driver.Safe.forEachRxRing fun ring => Keeps.bind ?_ fun _ => ?_
  · exact keeps_priv.bind fun _ => h.regmapWrite _ (inReg_true _)
  · exact h.regmapUpdateBits _ _ (inReg_true _)

theorem regmapRawWrite (h : d.StartSafe I) (reg : UInt16) (data : List UInt8) :
    Keeps I (d.regmapRawWrite reg data) := by
  have hchunks (chunks : List (ℕ × ℕ)) : Keeps I (d.rawWriteChunks reg data chunks) := by
    induction chunks with
    | nil => exact Keeps.pure _
    | cons chunk chunks ih => exact (h.spiWrite trivial).bind fun _ => ih
  exact (Bus.keeps_deref _).bind fun kind => hchunks _

/-- `mcp251xfd_chip_ecc_init`: `P` becomes `I` when the saved ECC status is cleared, and `I'` holds
while its buffer is allocated. -/
theorem chipEccInit {P I' : World σ → Prop} (h : d.StartSafe I) (h' : d.StartSafe I')
    (hP : ∀ w, P w → I { w with priv := { w.priv with ecc := { w.priv.ecc with eccStat := 0 } } })
    (halloc : ∀ w, I w → (d.env.call .kzalloc w.env).1 = 0 →
      I' { w with env := (d.env.call .kzalloc w.env).2 })
    (hfail : ∀ w, I w → (d.env.call .kzalloc w.env).1 ≠ 0 →
      I { w with env := (d.env.call .kzalloc w.env).2 })
    (hfree : ∀ w, I' w → I { w with env := (d.env.call .kfree w.env).2 }) :
    Ensures P d.chipEccInit (fun _ => I) fun _ => I := by
  refine Ensures.bind (Q := fun _ => I) (ensures_iff.mpr hP) fun _ => ?_
  refine Keeps.bind keeps_priv fun p => ?_
  refine (h.regmapUpdateBits _ _ (inReg_true _)).bind fun _ => ?_
  refine Ensures.bind (Q := fun err w => if err = 0 then I' w else I w) ?_ fun err => ?_
  · refine ensures_access _ fun w hw => ?_
    split_ifs with hr
    · exact halloc w hw hr
    · exact hfail w hw hr
  · by_cases hr : err = 0
    · subst hr
      refine Ensures.bind (Q := fun _ => I') (Ensures.pure fun _ hw => hw) fun _ => ?_
      refine Ensures.bind (Q := fun _ => I') ?_ fun r => ?_
      · exact (ensures_attempt (h'.regmapRawWrite _ _)).imp (fun _ hw => hw)
          (fun r _ hw => by cases r <;> exact hw) fun _ _ hf => hf.elim
      · refine Ensures.bind (Q := fun _ => I) ?_ fun _ => ?_
        · exact Ensures.bind (ensures_access (Q := fun _ => I) _ hfree) fun _ =>
            Ensures.pure fun _ hw => hw
        · cases r with
          | ok a => exact Keeps.pure _
          | error err => exact Keeps.throw _
    · have hne : (if err = 0 then 0 else -enomem) ≠ 0 := by
        rw [if_neg hr]
        decide
      simp only [hr, if_false] at hne ⊢
      exact Ensures.bind (Q := fun _ _ => False) (Ensures.throw fun _ hw => hw)
        fun _ => Ensures.of_false fun _ hw => hw

theorem chipInterruptsEnable (h : d.StartSafe I) : Keeps I d.chipInterruptsEnable := by
  refine (h.regmapWrite _ (inReg_true _)).bind fun _ => ?_
  refine (h.regmapUpdateBits _ _ (inReg_true _)).bind fun _ => ?_
  exact keeps_priv.bind fun _ => h.regmapWrite _ (inReg_true _)

/-- Stopping the controller leaves alone what does not depend on the CAN state. -/
theorem chipStop (h : d.StartSafe I) (state : CanState)
    (hstate : ∀ w, I w → I { w with priv := { w.priv with canState := state } }) :
    Keeps I (d.chipStop state) := by
  refine (keeps_modifyPriv _ hstate).bind fun _ => ?_
  refine (keeps_ignoreErr ?_).bind fun _ => (keeps_ignoreErr ?_).bind fun _ => ?_
  · exact h.chipInterruptsDisable (inReg_true _) (inReg_true _) (inReg_true _)
  · exact h.chipRxIntDisable (inReg_true _)
  · exact h.chipSetMode _ _

end Driver.StartSafe

/-- The register accesses of the modified driver. -/
structure Env.RegSafe (env : Env σ) (I : World σ → Prop) (A : UInt16 → List UInt8 → Prop) :
    Prop where
  read : ∀ reg len w, I w → I { w with env := (env.read reg len w.env).2 }
  readCrc : ∀ reg len w, I w → I { w with env := (env.readCrc reg len w.env).2 }
  write : ∀ reg data w, A reg data → I w →
    I { w with env := (env.write reg data w.env).2, writes := w.writes ++ [(reg, data)] }
  polls : ∀ reg w, I w → I { w with env := (env.polls reg w.env).2 }

/-- The accesses of the modified driver. -/
structure Env.Safe (env : Env σ) (I : World σ → Prop) (A : UInt16 → List UInt8 → Prop) : Prop
    extends Env.RegSafe env I A where
  call : ∀ c w, I w → I { w with env := (env.call c w.env).2 }

namespace Env.RegSafe
variable {env : Env σ} {A : UInt16 → List UInt8 → Prop}

theorem forkBus (h : env.RegSafe I A) : (Fork.bus env).RegSafe I A where
  read := h.read
  crcRead reg len := by
    have htries := Env.keeps_crcReadTries (h.readCrc reg len) readCrcRetriesMax
    have hreread (rereads : ℕ) : Keeps I (env.regmapCrcReread reg len rereads) := by
      induction rereads with
      | zero =>
        refine htries.bind fun r => ?_
        cases r with
        | none => exact Keeps.throw _
        | some data => exact Keeps.pure _
      | succ rereads ih =>
        refine htries.bind fun r => ?_
        cases r with
        | none => exact ih
        | some data => exact Keeps.pure _
    exact hreread 2
  write := h.write
  polls := h.polls

theorem fork (h : env.RegSafe I A) (hA : InReg A regCon) (dv : Fork.Dv) :
    (Fork.driver env dv).RegSafe I A where
  toBusRegSafe := h.forkBus
  chipSetMode modeReq nowait := by
    refine Keeps.ite (Keeps.pure _) ((h.forkBus.regmapUpdateBits _ _ hA).bind fun _ => ?_)
    refine Keeps.ite (Keeps.pure _) ((h.forkBus.regmapReadPollTimeout _ _ _).bind fun _ => ?_)
    exact keeps_check _
  getBerrCounter' bec :=
    Keeps.ite (Keeps.pure _) ((h.forkBus.regmapRead regTrec).bind fun _ => Keeps.pure _)

theorem forkStart (h : env.RegSafe I fun _ _ => True)
    (hreset : ∀ w, I w → I { w with env := (env.reset w.env).2 }) (dv : Fork.Dv) :
    (Fork.driver env dv).StartSafe I where
  toDriverRegSafe := h.fork (inReg_true _) dv
  reset := hreset
  chipClockInit :=
    (h.forkBus.regmapWrite _ (inReg_true _)).bind fun _ => h.forkBus.regmapWrite _ (inReg_true _)
  chipRxIntEnable := by
    refine h.forkBus.rxInt.bind fun rxInt => Keeps.ite (Keeps.pure _) ?_
    refine (keeps_ignoreErr (h.forkBus.regmapRead _)).bind fun _ => ?_
    exact h.forkBus.regmapWrite _ (inReg_true _)

end Env.RegSafe

namespace Env.Safe
variable {env : Env σ} {A : UInt16 → List UInt8 → Prop}

theorem forkBus (h : env.Safe I A) : (Fork.bus env).Safe I A where
  toBusRegSafe := h.toRegSafe.forkBus
  call := h.call

theorem fork (h : env.Safe I A) (hA : InReg A regCon) (dv : Fork.Dv) :
    (Fork.driver env dv).Safe I A where
  toBusSafe := h.forkBus
  chipSetMode := (h.toRegSafe.fork hA dv).chipSetMode
  getBerrCounter' := (h.toRegSafe.fork hA dv).getBerrCounter'

theorem and {J : World σ → Prop} (hI : env.Safe I A) (hJ : env.Safe J A) :
    env.Safe (fun w => I w ∧ J w) A where
  read reg len w hw := ⟨hI.read reg len w hw.1, hJ.read reg len w hw.2⟩
  readCrc reg len w hw := ⟨hI.readCrc reg len w hw.1, hJ.readCrc reg len w hw.2⟩
  write reg data w hA hw := ⟨hI.write reg data w hA hw.1, hJ.write reg data w hA hw.2⟩
  polls reg w hw := ⟨hI.polls reg w hw.1, hJ.polls reg w hw.2⟩
  call c w hw := ⟨hI.call c w hw.1, hJ.call c w hw.2⟩

/-- No access changes the private data. -/
theorem ofPriv (K : Priv → Prop) : env.Safe (fun w => K w.priv) A where
  read _ _ _ hw := hw
  readCrc _ _ _ hw := hw
  write _ _ _ _ hw := hw
  polls _ _ hw := hw
  call _ _ hw := hw

end Env.Safe

end YoctoLayers.Mcp251xfd
