import YoctoLayers.Mcp251xfd.Fork
import YoctoLayers.Mcp251xfd.IrqRounds

/-! The request for the normal mode that `mcp251xfd_handle_modif` makes or leaves to
`mcp251xfd_handle_eccif`. -/
namespace YoctoLayers.Mcp251xfd
open YoctoLayers.Lib

variable {σ : Type}

namespace Env

/-- The outside, with a log of the words of CON that reads with CRC bring. -/
def watched (env : Env σ) : Env (σ × List UInt32) where
  board := env.board
  read reg len s :=
    let (r, t) := env.read reg len s.1
    (r, t, s.2)
  readCrc reg len s :=
    let (r, t) := env.readCrc reg len s.1
    let good :=
      reg = regCon ∧ len = 4 ∧ r.1 = 0 ∧ r.2.2 = crc16Compute2 (spiCmdReadCrc reg len) r.2.1
    (r, t, if good then s.2 ++ [getLe32 r.2.1] else s.2)
  write reg data s :=
    let (r, t) := env.write reg data s.1
    (r, t, s.2)
  reset s :=
    let (r, t) := env.reset s.1
    (r, t, s.2)
  polls reg s :=
    let (r, t) := env.polls reg s.1
    (r, t, s.2)
  rxPending s :=
    let (r, t) := env.rxPending s.1
    (r, t, s.2)
  call c s :=
    let (r, t) := env.call c s.1
    (r, t, s.2)

end Env

/-- The mode that a write to CON requests: REQOP is in the last byte of the register. -/
def writtenReqop (msg : UInt16 × List UInt8) : Option UInt8 :=
  if msg.1.toNat ≤ 3 ∧ 3 < msg.1.toNat + msg.2.length then
    some (msg.2.getD (3 - msg.1.toNat) 0 &&& 7)
  else none

/-- Between `w` and `w'` the driver has requested `mode`: it has written it to REQOP, or has read
CON with the request already there, where regmap leaves out the write. -/
def Requested (mode : UInt8) (w w' : World (σ × List UInt32)) : Prop :=
  (∃ msg ∈ w'.writes.drop w.writes.length, writtenReqop msg = some mode) ∨
    ∃ con ∈ w'.env.2.drop w.env.2.length, (conReqop.get con).toUInt8 = mode

/-- `w` is not before `v`, and `mode` is the normal mode. -/
structure Since (mode : UInt8) (v w : World (σ × List UInt32)) : Prop where
  writes : v.writes.length ≤ w.writes.length
  log : v.env.2.length ≤ w.env.2.length
  normalMode : w.priv.normalMode = mode

theorem Since.refl (w : World (σ × List UInt32)) : Since w.priv.normalMode w w :=
  ⟨le_rfl, le_rfl, rfl⟩

/-- A new entry of a log, and those that were new before. -/
theorem mem_drop_concat {α : Type} {l : List α} {a x : α} {n : ℕ} (hn : n ≤ l.length) :
    x ∈ (l ++ [a]).drop n ↔ x ∈ l.drop n ∨ x = a := by
  rw [List.drop_append_of_le_length hn, List.mem_append, List.mem_singleton]

theorem mem_drop_append {α : Type} {l l' : List α} {x : α} {n : ℕ} (h : x ∈ l.drop n) :
    x ∈ (l ++ l').drop n := by
  rw [List.drop_append]
  exact List.mem_append_left _ h

/-- The message with which `mcp251xfd_handle_eccif_recover` loads TX object `nr` again. -/
def Priv.reload (p : Priv) (nr : UInt8) : UInt16 × List UInt8 :=
  let txObj := p.txd.obj nr.toNat
  (txObj.cmd &&& spiAddress,
    (le32 txObj.hwTxObj.id ++ le32 txObj.hwTxObj.flags ++ txObj.hwTxObj.data.toList).take
      (txObj.xferLen - if p.devtypeData.quirks &&& quirkCrcTx ≠ 0 then 5 else 2))

section Log
variable (env : Env σ) (mode : UInt8) (v : World (σ × List UInt32))

/-- What has been requested stays requested. -/
theorem safe_requested : env.watched.Safe (Requested mode v) fun _ _ => True where
  read _ _ _ hw := hw
  readCrc reg len w hw := by
    refine hw.imp_right fun ⟨con, hmem, hcon⟩ => ⟨con, ?_, hcon⟩
    simp only [Env.watched]
    split_ifs
    · exact mem_drop_append hmem
    · exact hmem
  write _ _ _ _ hw := hw.imp_left fun ⟨msg, hmem, hmsg⟩ => ⟨msg, mem_drop_append hmem, hmsg⟩
  polls _ _ hw := hw
  call _ _ hw := hw

theorem safe_since : env.watched.Safe (Since mode v) fun _ _ => True where
  read _ _ _ hw := ⟨hw.writes, hw.log, hw.normalMode⟩
  readCrc reg len w hw := by
    refine ⟨hw.writes, hw.log.trans ?_, hw.normalMode⟩
    simp only [Env.watched]
    split_ifs
    · rw [List.length_append]
      omega
    · rfl
  write _ _ _ _ hw := by
    refine ⟨hw.writes.trans ?_, hw.log, hw.normalMode⟩
    rw [List.length_append]
    omega
  polls _ _ hw := ⟨hw.writes, hw.log, hw.normalMode⟩
  call _ _ hw := ⟨hw.writes, hw.log, hw.normalMode⟩

end Log

theorem onTx_requested {mode : UInt8} {v : World (σ × List UInt32)} : OnTx (Requested mode v) :=
  fun _ _ _ hw => hw

theorem onTx_since {mode : UInt8} {v : World (σ × List UInt32)} : OnTx (Since mode v) := by
  intro w p hp hw
  refine ⟨hw.writes, hw.log, ?_⟩
  rw [← hw.normalMode]
  unfold Priv.normalMode
  rw [hp.ctrlmode]

/-- REQOP of a word and of its last byte. -/
theorem reqop_byte (con : UInt32) : (le32 con).getD 3 0 &&& 7 = (conReqop.get con).toUInt8 := by
  apply eq_of_testBit_byte
  intro j hj
  rw [UInt8.toNat_and, Nat.testBit_and, testBit_le32 con (by decide) hj, UInt32.toNat_toUInt8,
    Nat.testBit_mod_two_pow, Field.testBit_get]
  have hseven : (7 : UInt8).toNat.testBit j = decide (j < 3) :=
    Nat.testBit_two_pow_sub_one 3 j
  rw [hseven]
  simp only [conReqop, hj, decide_true, Bool.true_and]
  by_cases hlow : j < 3
  · simp [hlow, show 24 + j ≤ 26 by omega]
  · simp [hlow, show ¬ 24 + j ≤ 26 by omega]

theorem writtenReqop_word (con : UInt32) :
    writtenReqop (regCon, le32 con) = some (conReqop.get con).toUInt8 := by
  rw [← reqop_byte]
  rfl

theorem writtenReqop_byte (con : UInt32) :
    writtenReqop (regCon + 3, ((le32 con).drop 3).take 1) = some (conReqop.get con).toUInt8 := by
  rw [← reqop_byte]
  rfl

theorem Priv.normalMode_cases (p : Priv) :
    p.normalMode = modeIntLoopback ∨ p.normalMode = modeListenonly ∨ p.normalMode = modeMixed ∨
      p.normalMode = modeCan20 := by
  unfold Priv.normalMode
  split_ifs <;> simp

theorem Priv.normalMode_ne_sleep (p : Priv) : p.normalMode ≠ modeSleep := by
  rcases p.normalMode_cases with h | h | h | h <;> rw [h] <;> decide

/-- CON with REQOP replaced by the normal mode. -/
theorem get_reqop_update (p : Priv) (orig : UInt32) :
    (conReqop.get (orig &&& ~~~conReqop.mask |||
      conReqop.prep p.normalMode.toUInt32 &&& conReqop.mask)).toUInt8 = p.normalMode := by
  rw [Field.get_update]
  rcases p.normalMode_cases with h | h | h | h <;> rw [h] <;> decide

/-- The byte that the map without CRC writes. -/
theorem get_reqop_byte (p : Priv) (orig : UInt32) :
    writtenReqop (regCon + UInt16.ofNat 3,
      (le32 ((orig &&& ~~~(conReqop.mask >>> UInt32.ofNat (8 * 3))) |||
        (conReqop.prep p.normalMode.toUInt32 >>> UInt32.ofNat (8 * 3) &&&
          conReqop.mask >>> UInt32.ofNat (8 * 3)))).take 1) = some p.normalMode := by
  rw [take_le32_update _ _ _ (by decide) (by decide)]
  refine (writtenReqop_byte _).trans ?_
  rw [get_reqop_update]

section Driver
variable {mode : UInt8} {v : World (σ × List UInt32)}

theorem requested_safeFork (env : Env σ) (dv : Fork.Dv) (mode : UInt8)
    (v : World (σ × List UInt32)) :
    (Fork.driver env.watched dv).Safe (Requested mode v) fun _ _ => True :=
  (safe_requested env mode v).fork (inReg_true _) dv

theorem since_safeFork (env : Env σ) (dv : Fork.Dv) (mode : UInt8)
    (v : World (σ × List UInt32)) :
    (Fork.driver env.watched dv).Safe (Since mode v) fun _ _ => True :=
  (safe_since env mode v).fork (inReg_true _) dv

theorem ensures_spiWrite_reqop (env : Env σ) {reg : UInt16} {data : List UInt8}
    (hmsg : writtenReqop (reg, data) = some mode) :
    Ensures (Since mode v) ((Fork.bus env.watched).env.spiWrite reg data)
      (fun _ => Requested mode v) fun _ _ => True := by
  refine (Env.ensures_spiWrite fun w hw => ?_).unlessFails
  exact Or.inl ⟨(reg, data), (mem_drop_concat hw.writes).mpr (Or.inr rfl), hmsg⟩

theorem ensures_crcRead_con (env : Env σ) :
    Ensures (Since mode v) ((Fork.bus env.watched).crcRead regCon 4)
      (fun data w => Since mode v w ∧ getLe32 data ∈ w.env.2.drop v.env.2.length)
      fun _ => Since mode v := by
  refine Env.ensures_crcRead (by decide) ((safe_since env _ _).readCrc regCon 4) ?_
  intro w hw herr hcrc
  simp only [Env.watched] at herr hcrc ⊢
  rw [if_pos ⟨trivial, trivial, herr, hcrc⟩]
  exact (mem_drop_concat hw.log).mpr (Or.inr rfl)

/-- Changing REQOP to the normal mode requests it, on either map. -/
theorem ensures_regmapUpdateBits_reqop (env : Env σ) (p : Priv) :
    Ensures (Since p.normalMode v)
      ((Fork.bus env.watched).regmapUpdateBits regCon conReqop.mask
        (conReqop.prep p.normalMode.toUInt32))
      (fun _ => Requested p.normalMode v) fun _ _ => True := by
  refine Keeps.bindUnlessFails (Bus.keeps_deref _) fun kind => ?_
  cases kind with
  | nocrc =>
    refine Ensures.ite (fun _ => Ensures.throw fun _ _ => trivial) fun _ => ?_
    have hfirst : firstByteSet conReqop.mask = 3 := by decide
    have hlast : lastByteSet conReqop.mask = 3 := by decide
    have hwrite (orig : UInt32) := ensures_spiWrite_reqop (v := v) env (get_reqop_byte p orig)
    simp only [hfirst, hlast]
    refine Ensures.ite (fun _ => ?_) fun _ => ?_
    · refine Keeps.bindUnlessFails ?_ hwrite
      exact (Env.keeps_spiRead ((safe_since env _ _).read _ _)).map getLe32
    · exact hwrite 0
  | crc =>
    refine Ensures.bind (ensures_crcRead_con env).unlessFails fun data => ?_
    have hset := get_reqop_update p (getLe32 data)
    refine Ensures.ite (fun _ => ?_) fun hsame => ?_
    · refine (ensures_spiWrite_reqop env ?_).pre (fun _ hw => hw.1)
      rw [writtenReqop_word, hset]
    · refine Ensures.pure fun w hw => Or.inr ⟨getLe32 data, hw.2, ?_⟩
      simp only [ne_eq, decide_not, Bool.not_eq_true', decide_eq_false_iff_not, not_not] at hsame
      rwa [hsame] at hset

theorem ensures_chipSetNormalMode' (env : Env σ) (dv : Fork.Dv) (mode : UInt8)
    (v : World (σ × List UInt32)) (nowait : Bool) :
    Ensures (Since mode v) ((Fork.driver env.watched dv).chipSetNormalMode' nowait)
      (fun _ => Requested mode v) fun _ _ => True := by
  refine DrvM.ensures_priv_bind fun p => ?_
  by_cases hp : p.normalMode = mode
  · subst hp
    refine Ensures.imp (P := Since p.normalMode v) ?_ (fun w hw => hw.1) (fun _ _ hw => hw)
      fun _ _ hw => hw
    refine Ensures.ite (fun h => absurd h.2 p.normalMode_ne_sleep) fun _ => ?_
    refine Ensures.bind (ensures_regmapUpdateBits_reqop env p) fun _ => Keeps.unlessFails ?_
    refine Keeps.ite (Keeps.pure _) ?_
    refine ((requested_safeFork env dv _ _).regmapReadPollTimeout _ _ _).bind fun _ => ?_
    exact DrvM.keeps_check _
  · refine Ensures.of_false fun w hw => hp ?_
    rw [← hw.2]
    exact hw.1.normalMode

theorem ensures_handleEccifRecover (env : Env σ) (dv : Fork.Dv) (nr : UInt8) :
    Ensures (Since mode v) ((Fork.driver env.watched dv).handleEccifRecover nr)
      (fun _ => Requested mode v) fun _ _ => True := by
  have hsafe := since_safeFork env dv mode v
  refine Keeps.bindUnlessFails (hsafe.fifociGet txFifo) fun chipTxTail => ?_
  refine Keeps.bindUnlessFails DrvM.keeps_priv fun p => ?_
  refine Ensures.ite (fun _ => Ensures.throw fun _ _ => trivial) fun _ => ?_
  refine Keeps.bindUnlessFails (hsafe.spiWrite trivial) fun _ => ?_
  exact ensures_chipSetNormalMode' env dv _ _ false

/-- Every exit of `mcp251xfd_handle_eccif` with the deferred request makes it or fails. -/
theorem ensures_handleEccif (env : Env σ) (dv : Fork.Dv) :
    Ensures (Since mode v) ((Fork.driver env.watched dv).handleEccif true)
      (fun _ => Requested mode v) fun _ _ => True := by
  have hsafe := since_safeFork env dv mode v
  have hnowait := ensures_chipSetNormalMode' env dv mode v true
  refine Keeps.bindUnlessFails (hsafe.regmapRead regEccstat) fun eccStat => ?_
  refine Keeps.bindUnlessFails (hsafe.regmapUpdateBits _ _ (inReg_true _)) fun _ => ?_
  refine Keeps.bindUnlessFails DrvM.keeps_priv fun p => ?_
  refine Ensures.ite (fun _ => Ensures.throw fun _ _ => trivial) fun _ => ?_
  cases getTxNrByAddr p.txd.tx (eccstatErraddr.get eccStat).toUInt16 with
  | none =>
    exact Keeps.bindUnlessFails (onTx_since.modifyPriv fun _ => ⟨rfl, rfl, rfl, rfl, rfl⟩) fun _ =>
      hnowait
  | some nr =>
    refine Keeps.bindUnlessFails (onTx_since.modifyPriv fun _ => ⟨rfl, rfl, rfl, rfl, rfl⟩)
      fun _ => ?_
    refine Keeps.bindUnlessFails DrvM.keeps_priv fun _ => ?_
    exact Ensures.ite (fun _ => ensures_handleEccifRecover env dv nr) fun _ => hnowait

end Driver

namespace Driver
section Round
variable (d : Driver σ)

/-- The handlers between those of MODIF and ECCIF. -/
def handlersBeforeEccif (intf : UInt32) : DrvM σ Unit := do
  d.handleIf intf intRxif .rxif d.handleRxif
  d.handleIf intf intTefif .tefif d.handleTefif
  d.handleIf intf intRxovif .rxovif d.handleRxovif
  d.handleIf intf intTxatif .txatif handleTxatif
  d.handleIf intf intIvmif .ivmif d.handleIvmif
  d.handleIf intf intSerrif .serrif handleSerrif

def handlersFromEccif (intf : UInt32) (setNormalMode : Bool) : DrvM σ Unit := do
  d.handleIf intf intEccif .eccif (d.handleEccif setNormalMode)
  d.handleIf intf intSpicrcif .spicrcif d.handleSpicrcif

/-- A round from the end of the handlers on. -/
def irqCerrif (bec : CanBerrCounter) (intf : UInt32) : DrvM σ IrqRound := do
  let state := (← DrvM.priv).canState
  if intf &&& intCerrif ≠ 0 ∨ CanState.errorActive.toNat < state.toNat then
    d.handle .cerrif (d.handleCerrif bec)
    return if (← DrvM.priv).canState = .busOff then .busOff else .handled
  else return .handled

/-- What `mcp251xfd_handle_modif` does outside the normal mode. -/
def modifRequest (p : Priv) : DrvM σ Bool := do
  if p.intf &&& intEccif ≠ 0 then return true
  d.chipSetNormalModeNowait
  return false

/-- A round from the look at the mode on. -/
def roundAfterModif (bec : CanBerrCounter) (intf : UInt32) (p : Priv) : DrvM σ IrqRound := do
  let setNormalMode ← d.modifRequest p
  d.handlersBeforeEccif intf
  d.handlersFromEccif intf setNormalMode
  d.irqCerrif bec intf

theorem irqHandlers_of_modif {intf : UInt32} (h : intf &&& intModif ≠ 0) :
    d.irqHandlers intf = d.handle .modif d.handleModif >>= fun setNormalMode =>
      d.handlersBeforeEccif intf >>= fun _ => d.handlersFromEccif intf setNormalMode := by
  unfold irqHandlers handlersBeforeEccif handlersFromEccif
  rw [if_pos h]
  simp only [bind_assoc]

theorem irqHandle_eq (bec : CanBerrCounter) (intf : UInt32) :
    d.irqHandle bec intf =
      d.irqAck intf >>= fun _ => d.irqHandlers intf >>= fun _ => d.irqCerrif bec intf :=
  rfl

/-- In a round that starts in `w`, `mcp251xfd_handle_modif` reads the operating mode `mode`, which
ends in `v`. -/
def ModifReads (w : World σ) (mode : UInt8) (v : World σ) : Prop :=
  ∃ intf w₁ w₂, d.irqPending w = .ok intf w₁ ∧ intf &&& intModif ≠ 0 ∧
    d.irqAck intf w₁ = .ok () w₂ ∧ d.handle .modif d.chipGetMode w₂ = .ok mode v

end Round
end Driver

namespace Fork
variable {env : Env σ} {dv : Dv} {w w' v : World σ}

theorem safe_priv (env : Env σ) (dv : Dv) (p : Priv) :
    (driver env dv).Safe (fun w => w.priv = p) fun _ _ => True :=
  (Env.Safe.ofPriv fun q => q = p).fork (inReg_true _) dv

theorem irqPending_ok {intf : UInt32} (h : (driver env dv).irqPending w = .ok intf w') :
    intf = intfPending w'.priv.intf := by
  obtain ⟨data, w₁, -, h⟩ := ok_of_bind h
  cases h
  rfl

/-- A round in which `mcp251xfd_handle_modif` finds another mode goes on with the request. -/
theorem irqRound_of_modifReads {mode : UInt8} (h : (driver env dv).ModifReads w mode v)
    (hne : mode ≠ v.priv.normalMode) (bec : CanBerrCounter) :
    (driver env dv).irqRound bec w =
      (driver env dv).roundAfterModif bec (intfPending v.priv.intf) v.priv v := by
  obtain ⟨intf, w₁, w₂, hpending, hmodif, hack, hmode⟩ := h
  obtain ⟨⟨⟩, w₃, hnote, hmode⟩ := ok_of_bind hmode
  have h₂ : w₂.priv = w₁.priv :=
    (DrvM.keeps_callIf _ ((safe_priv env dv w₁.priv).regmapUpdateBits _ _ (inReg_true _))).ok
      rfl hack
  have h₃ : w₃.priv = w₂.priv := ((safe_priv env dv w₂.priv).note _).ok rfl hnote
  have hv : v.priv = w₃.priv := ((safe_priv env dv w₃.priv).chipGetMode).ok rfl hmode
  have hintf : intf = intfPending v.priv.intf := by
    rw [hv, h₃, h₂]
    exact irqPending_ok hpending
  have hset : (driver env dv).handle .modif (driver env dv).handleModif w₂ =
      (driver env dv).modifRequest v.priv v := by
    unfold Driver.handle Driver.handleModif
    rw [run_bind_ok hnote, run_bind_ok (show DrvM.priv w₃ = .ok w₃.priv w₃ from rfl),
      run_bind_ok hmode, ← hv]
    exact congrFun (if_neg hne) v
  have hzero : intf ≠ 0 := by
    rintro rfl
    exact hmodif (UInt32.zero_and)
  unfold Driver.irqRound
  rw [run_bind_ok hpending]
  refine (congrFun (if_neg hzero) w₁).trans ?_
  rw [Driver.irqHandle_eq, run_bind_ok hack, Driver.irqHandlers_of_modif _ hmodif, bind_assoc]
  refine (run_bind_congr hset).trans ?_
  rw [hintf]
  simp only [Driver.roundAfterModif, bind_assoc]

end Fork

section Round
variable {mode : UInt8} {v : World (σ × List UInt32)}

theorem Driver.Safe.handleIf {d : Driver σ} {I : World σ → Prop} {A : UInt16 → List UInt8 → Prop}
    (h : d.Safe I A) {intf flag : UInt32} {irq : Handler} {handler : DrvM σ Unit}
    (hh : Keeps I handler) : Keeps I (d.handleIf intf flag irq handler) :=
  DrvM.keeps_callIf _ ((h.note _).bind fun _ => hh)

theorem Driver.Safe.handlersBeforeEccif {d : Driver σ} {I : World σ → Prop}
    (h : d.Safe I fun _ _ => True) (ht : OnTx I) (intf : UInt32) :
    Keeps I (d.handlersBeforeEccif intf) := by
  have hrxif : Keeps I d.handleRxif :=
    Driver.Safe.forEachRxRing fun ring => h.handleRxifRing ht (fun _ => inReg_true _) ring
  refine (h.handleIf hrxif).bind fun _ => ?_
  refine (h.handleIf (h.handleTefif ht (inReg_true _))).bind fun _ => ?_
  refine (h.handleIf (h.handleRxovif fun _ => inReg_true _)).bind fun _ => ?_
  refine (h.handleIf (Keeps.pure ())).bind fun _ => ?_
  refine (h.handleIf (h.handleIvmif (inReg_true _))).bind fun _ => ?_
  exact h.handleIf (Keeps.pure ())

/-- The handlers from ECCIF on, after a request. -/
theorem keeps_handlersFromEccif (env : Env σ) (dv : Fork.Dv) (intf : UInt32) :
    Keeps (Requested mode v) ((Fork.driver env.watched dv).handlersFromEccif intf false) := by
  have hsafe := requested_safeFork env dv mode v
  have hnr (nr : UInt8) :=
    ((safe_requested env mode v).and
      (Env.Safe.ofPriv fun p => ObjAllowed (fun _ _ => True) p nr)).fork (inReg_true _) dv
  refine (hsafe.handleIf ?_).bind fun _ => hsafe.handleIf (hsafe.handleSpicrcif (inReg_true _))
  exact hsafe.handleEccif hnr onTx_requested (inReg_true _) (fun _ _ _ _ _ _ _ => trivial) false

/-- The handlers from ECCIF on, with a deferred request. -/
theorem ensures_handlersFromEccif (env : Env σ) (dv : Fork.Dv) {intf : UInt32}
    (hecc : intf &&& intEccif ≠ 0) :
    Ensures (Since mode v) ((Fork.driver env.watched dv).handlersFromEccif intf true)
      (fun _ => Requested mode v) fun _ _ => True := by
  refine Ensures.bind (Q := fun _ => Requested mode v) ?_ fun _ => Keeps.unlessFails ?_
  · unfold Driver.handleIf DrvM.callIf
    refine Ensures.ite (fun _ => ?_) fun h => absurd hecc (by simpa using h)
    exact ((since_safeFork env dv _ _).note _).bindUnlessFails fun _ =>
      ensures_handleEccif env dv
  · have hsafe := requested_safeFork env dv mode v
    exact hsafe.handleIf (hsafe.handleSpicrcif (inReg_true _))

theorem ensures_irqCerrif (env : Env σ) (dv : Fork.Dv) (mode : UInt8)
    (v : World (σ × List UInt32)) (bec : CanBerrCounter) (intf : UInt32) :
    Ensures (Requested mode v) ((Fork.driver env.watched dv).irqCerrif bec intf)
      (fun _ => Requested mode v) fun _ _ => True := by
  have hsafe := requested_safeFork env dv mode v
  have hstop := ((safe_requested env mode v).toRegSafe.forkStart
    (fun _ hw => hw) dv).chipStop .busOff fun _ hw => hw
  refine DrvM.keeps_priv.bindUnlessFails fun p => ?_
  refine Ensures.ite (fun _ => ?_) fun _ => Keeps.unlessFails (Keeps.pure _)
  refine Ensures.bind (Q := fun _ => Requested mode v) ?_ fun _ => ?_
  · refine Ensures.bind (Keeps.unlessFails (hsafe.note _)) fun _ => ?_
    exact (hsafe.handleCerrif onTx_requested hsafe hstop bec).imp (fun _ hw => hw)
      (fun _ _ hw => hw.elim id id) fun _ _ hw => hw
  · exact Keeps.unlessFails (DrvM.keeps_priv.bind fun _ => Keeps.pure _)

/-- A set flag that is enabled is pending. -/
theorem eccif_pending {int : UInt32} (hflag : int &&& intEccif ≠ 0)
    (henable : int &&& intEccie ≠ 0) : intfPending int &&& intEccif ≠ 0 := by
  rw [intEccif, and_bit_ne_zero (by decide)] at hflag ⊢
  rw [intEccie, and_bit_ne_zero (by decide)] at henable
  simp [intfPending, intIf, intIe, hflag, henable]

/-- From the look at the mode on a round requests the normal mode or fails. -/
theorem ensures_roundAfterModif (env : Env σ) (dv : Fork.Dv) (mode : UInt8)
    (v : World (σ × List UInt32)) (bec : CanBerrCounter) (p : Priv)
    (hecc : p.intf &&& intEccif ≠ 0 → p.intf &&& intEccie ≠ 0) :
    Ensures (Since mode v)
      ((Fork.driver env.watched dv).roundAfterModif bec (intfPending p.intf) p)
      (fun _ => Requested mode v) fun _ _ => True := by
  have hcerrif := ensures_irqCerrif env dv mode v bec (intfPending p.intf)
  refine Ensures.bind (Q := fun deferred w =>
    if deferred then p.intf &&& intEccif ≠ 0 ∧ Since mode v w else Requested mode v w) ?_
    fun deferred => ?_
  · refine Ensures.ite (fun hflag => Ensures.pure fun w hw => ⟨hflag, hw⟩) fun _ => ?_
    refine Ensures.bind (ensures_chipSetNormalMode' env dv mode v true) fun _ => ?_
    exact Ensures.pure fun _ hw => hw
  · cases deferred with
    | true =>
      by_cases hflag : p.intf &&& intEccif ≠ 0
      · refine Ensures.imp (P := Since mode v) ?_ (fun w hw => hw.2) (fun _ _ hw => hw)
          fun _ _ hw => hw
        refine Keeps.bindUnlessFails ((since_safeFork env dv _ _).handlersBeforeEccif onTx_since _)
          fun _ => ?_
        have hpending := eccif_pending hflag (hecc hflag)
        exact Ensures.bind (ensures_handlersFromEccif env dv hpending) fun _ => hcerrif
      · exact Ensures.of_false fun w hw => hflag hw.1
    | false =>
      have hbefore := (requested_safeFork env dv mode v).handlersBeforeEccif
        onTx_requested (intfPending p.intf)
      refine Ensures.bind (Keeps.unlessFails hbefore) fun _ => ?_
      refine Ensures.bind (Keeps.unlessFails ?_) fun _ => hcerrif
      exact keeps_handlersFromEccif env dv _

theorem Env.spiWrite_ok {env : Env σ} {reg : UInt16} {data : List UInt8} {w w' : World σ}
    (h : env.spiWrite reg data w = .ok () w') :
    w'.writes = w.writes ++ [(reg, data)] ∧ w'.priv = w.priv := by
  have hwrite : Ensures (fun u => u = w) (env.spiWrite reg data)
      (fun _ u => u.writes = w.writes ++ [(reg, data)] ∧ u.priv = w.priv)
      fun _ u => u.writes = w.writes ++ [(reg, data)] ∧ u.priv = w.priv := by
    apply Env.ensures_spiWrite
    rintro _ rfl
    exact ⟨rfl, rfl⟩
  exact hwrite.ok rfl h

/-- No read changes the private data or the writes. -/
theorem safe_reads (env : Env σ) (w : World σ) :
    env.Safe (fun u => u.writes = w.writes ∧ u.priv = w.priv) fun _ _ => False where
  read _ _ _ hw := hw
  readCrc _ _ _ hw := hw
  write _ _ _ hA _ := hA.elim
  polls _ _ hw := hw
  call _ _ hw := hw

/-- A successful recovery has loaded the TX object into the RAM again before it requests the
normal mode. -/
theorem handleEccifRecover_ok {env : Env σ} {dv : Fork.Dv} {nr : UInt8}
    {w w' : World (σ × List UInt32)}
    (h : (Fork.driver env.watched dv).handleEccifRecover nr w = .ok () w') :
    ∃ u, u.writes = w.writes ++ [w.priv.reload nr] ∧ Requested w.priv.normalMode u w' := by
  obtain ⟨chipTxTail, w₁, hread, h⟩ := ok_of_bind h
  have hkeeps : Keeps (fun u => u.writes = w.writes ∧ u.priv = w.priv)
      ((Fork.driver env.watched dv).fifociGet txFifo) :=
    ((safe_reads env.watched w).forkBus.regmapRead _).bind fun _ => Keeps.pure _
  obtain ⟨hwrites, hpriv⟩ := hkeeps.ok ⟨rfl, rfl⟩ hread
  obtain ⟨p, w₂, hp, h⟩ := ok_of_bind h
  cases hp
  by_cases hbad : chipTxTail ≠ getTxTail w₁.priv.txd.tx ∨
      ¬ ((nr - chipTxTail) &&& (w₁.priv.txd.tx.objNum - 1) = 0 ∨
        ((nr - chipTxTail) &&& (w₁.priv.txd.tx.objNum - 1) = 1 ∧
          w₁.priv.devtypeData.model = .mcp2518fd))
  · cases (congrFun (if_pos hbad) w₁).symm.trans h
  · obtain ⟨⟨⟩, u, hwrite, h⟩ := ok_of_bind ((congrFun (if_neg hbad) w₁).symm.trans h)
    have hu := Env.spiWrite_ok hwrite
    rw [hwrites, hpriv] at hu
    refine ⟨u, hu.1, ?_⟩
    rw [← hu.2]
    exact (ensures_chipSetNormalMode' env dv _ _ false).ok (Since.refl u) h

end Round

/-- When `mcp251xfd_handle_modif` finds the controller outside its normal mode, with ECCIF enabled
if it is set, the round requests the normal mode or fails, and a recovery from ECC errors reloads
the TX object first. -/
theorem handle_modif_request_kept (env : Env σ) (dv : Fork.Dv) (bec : CanBerrCounter)
    {w₀ w v : World (σ × List UInt32)} {handled : Bool} {mode : UInt8}
    (hround : (Fork.driver env.watched dv).StartsRound bec w₀ w handled)
    (hmodif : (Fork.driver env.watched dv).ModifReads w mode v)
    (hne : mode ≠ v.priv.normalMode)
    (hecc : v.priv.intf &&& intEccif ≠ 0 → v.priv.intf &&& intEccie ≠ 0) :
    ((∃ r w', (Fork.driver env.watched dv).irqRound bec w = .ok r w' ∧
        Requested v.priv.normalMode v w') ∨
      ∃ err w' n, (Fork.driver env.watched dv).irqRound bec w = .error err w' ∧
        ∀ rounds ≥ n, (Fork.driver env.watched dv).irq bec rounds w₀ =
          .ok (some (.fail err handled))
            (after (Fork.driver env.watched dv).chipInterruptsDisable w')) ∧
    ∀ nr u u', (Fork.driver env.watched dv).handleEccifRecover nr u = .ok () u' →
      ∃ t, t.writes = u.writes ++ [u.priv.reload nr] ∧ Requested u.priv.normalMode t u' := by
  refine ⟨?_, fun nr u u' h => handleEccifRecover_ok h⟩
  have hrun := Fork.irqRound_of_modifReads hmodif hne bec
  have hrest := ensures_roundAfterModif env dv v.priv.normalMode v bec v.priv hecc
  cases hr : (Fork.driver env.watched dv).irqRound bec w with
  | ok r w' => exact Or.inl ⟨r, w', rfl, hrest.ok (Since.refl v) (hrun.symm.trans hr)⟩
  | error err w' =>
    obtain ⟨n, hfail⟩ := hround.irq_fail hr
    exact Or.inr ⟨err, w', n, rfl, hfail⟩

namespace ModeBench

/-- The answers of a controller in restricted operation mode, with a single ECC error outside the
TX RAM. -/
def regWord (int : UInt32) (acked : Bool) (reg : UInt16) : UInt32 :=
  if reg = regCon then conOpmod.prep modeRestricted.toUInt32
  else if reg = regEccstat then eccstatSecif
  else if reg = regInt then (if acked then int &&& ~~~intModif else int)
  else 0

/-- A bus where INT holds `int` until it is written. -/
def env (int : UInt32) : Env Bool where
  board := Bench.board
  read reg len acked := ((0, (le32 (regWord int acked reg)).take len), acked)
  readCrc reg len acked :=
    let data := (le32 (regWord int acked reg)).take len
    ((0, data, crc16Compute2 (spiCmdReadCrc reg len) data), acked)
  write reg _ acked := (0, acked || reg = regInt)
  reset acked := (0, acked)
  polls _ acked := (0, acked)
  rxPending acked := (false, acked)
  call _ acked := (0, acked)

def driver (int : UInt32) : Driver (Bool × List UInt32) :=
  Fork.driver (env int).watched ⟨Fork.dvUnset, Fork.dvUnset, false, false⟩

def priv : Priv :=
  { Priv.alloc with
    canState := .errorActive
    ctrlmode := canCtrlmodeFd
    regmaps := ⟨⟨true, true, true⟩, ⟨false, false, false⟩, some .nocrc, some .nocrc⟩ }

def world : World (Bool × List UInt32) where
  env := (false, [])
  priv := priv.ringInit
  maxSpeedHz := 10000000
  writes := []

/-- The world when the mode has been read. -/
def looked (int : UInt32) : World (Bool × List UInt32) :=
  { world with
    env := (true, [])
    priv := { priv.ringInit with intf := int }
    writes := [(regInt, [0xf7, 0xff])] }

end ModeBench

theorem handle_modif_request_kept_bench :
    ∃ r w', (ModeBench.driver 0x01080108).irqRound ⟨0, 0⟩ ModeBench.world = .ok r w' ∧
      Requested modeMixed (ModeBench.looked 0x01080108) w' := by
  have hmodif : (ModeBench.driver 0x01080108).ModifReads ModeBench.world modeRestricted
      (ModeBench.looked 0x01080108) :=
    ⟨0x108, { ModeBench.world with priv := (ModeBench.looked 0x01080108).priv },
      ModeBench.looked 0x01080108, rfl, by decide, rfl, rfl⟩
  have hkept := handle_modif_request_kept (ModeBench.env 0x01080108)
    ⟨Fork.dvUnset, Fork.dvUnset, false, false⟩ ⟨0, 0⟩
    (.main rfl (.first ModeBench.world false)) hmodif (by decide) (by decide)
  refine hkept.1.resolve_right ?_
  rintro ⟨err, w', n, herr, -⟩
  cases herr

/-- With ECCIF set and ECCIE clear the request is left to a handler that is not called. -/
theorem handle_modif_request_dropped :
    ∃ w', (ModeBench.driver 0x00080108).ModifReads ModeBench.world modeRestricted
        (ModeBench.looked 0x00080108) ∧
      (ModeBench.looked 0x00080108).priv.normalMode = modeMixed ∧
      (ModeBench.driver 0x00080108).irq ⟨0, 0⟩ 2 ModeBench.world =
        .ok (some (.done true)) w' ∧
      ¬ Requested modeMixed (ModeBench.looked 0x00080108) w' :=
  ⟨ModeBench.looked 0x00080100,
    ⟨0x8, { ModeBench.world with priv := (ModeBench.looked 0x00080108).priv },
      ModeBench.looked 0x00080108, rfl, by decide, rfl, rfl⟩,
    rfl, rfl, by simp [Requested, ModeBench.looked, ModeBench.world]⟩

/-- The driver enables ECCIF whenever it enables MODIF, so it meets no such word. -/
theorem intEnables_eccie (p : Priv) {int : UInt32}
    (hie : intIe.get int = intIe.get (Driver.Priv.intEnables p)) : int &&& intEccie ≠ 0 := by
  have hbit := congrArg (fun x : UInt32 => x.toNat.testBit 8) hie
  rw [intEccie, and_bit_ne_zero (by decide)]
  simp only [Field.testBit_get, intIe, Nat.reduceAdd, Nat.reduceLeDiff, decide_true,
    Bool.true_and] at hbit
  rw [hbit]
  unfold Driver.Priv.intEnables
  split_ifs <;> decide

end YoctoLayers.Mcp251xfd
