import YoctoLayers.Mcp251xfd.CallLog
import YoctoLayers.Mcp251xfd.Keeps

/-! `mcp251xfd_handle_cerrif` run by run: what the error frames tell about its uninitialised
local, and what a failing read of the error counters leaves undone. -/
namespace YoctoLayers.Mcp251xfd
open YoctoLayers.Lib

variable {σ : Type}

/-- `new_state` of `mcp251xfd_handle_cerrif`. -/
def trecState (trec : UInt32) : CanState := (trecTxState trec).max (trecRxState trec)

def cerrifFrame (trec : UInt32) : ErrFrame :=
  canChangeState ErrFrame.alloc (trecTxState trec) (trecRxState trec)

theorem ErrFrame.data_withBec (cf : ErrFrame) (bec : CanBerrCounter) :
    (cf.withBec bec).data.get 6 = bec.txerr.toUInt8 := by
  change ((cf.data.set 6 bec.txerr.toUInt8).set 7 bec.rxerr.toUInt8)[6] = bec.txerr.toUInt8
  simp

def Priv.enter (p : Priv) (state : CanState) : Priv := { p with canState := state }

def World.enter (w : World σ) (state : CanState) : World σ :=
  { w with priv := w.priv.enter state }

namespace Driver
variable {d : Driver σ} {w w₁ w₂ : World σ} {trec : UInt32} {skb : Option UInt32}

/-- The end of `mcp251xfd_handle_cerrif`, from the test of `skb` on. -/
def cerrifQueue (d : Driver σ) (bec : CanBerrCounter) (trec : UInt32) :
    Option UInt32 → DrvM σ Unit
  | none => return
  | some timestamp =>
    if trecState trec ≠ .busOff then do
      let bec ← d.getBerrCounter bec
      d.env.note (.queueSorted (.err ((cerrifFrame trec).withBec bec)) timestamp)
    else d.env.note (.queueSorted (.err (cerrifFrame trec)) timestamp)

/-- The part of `mcp251xfd_handle_cerrif` for Bus Off. -/
def cerrifBusOff (d : Driver σ) : DrvM σ Unit := do
  let bec ← d.getBerrCounter' (← DrvM.priv).bec
  DrvM.modifyPriv fun p => { p with bec := bec }
  DrvM.ignoreErr (d.chipStop .busOff)
  d.env.note .canBusOff

theorem handleCerrif_error (bec : CanBerrCounter) {err : ℤ}
    (h : d.regmapRead regTrec w = .error err w₁) :
    d.handleCerrif bec w = .error err w₁ := by
  unfold handleCerrif
  exact run_bind_error h

theorem handleCerrif_same (bec : CanBerrCounter) (h : d.regmapRead regTrec w = .ok trec w₁)
    (hsame : trecState trec = w₁.priv.canState) : d.handleCerrif bec w = .ok () w₁ := by
  unfold handleCerrif
  rw [run_bind_ok h, run_bind_ok (show DrvM.priv w₁ = .ok w₁.priv w₁ from rfl)]
  exact congrFun (if_pos hsame) w₁

theorem handleCerrif_on (bec : CanBerrCounter) (h : d.regmapRead regTrec w = .ok trec w₁)
    (hne : trecState trec ≠ w₁.priv.canState) (hskb : d.allocCanErrSkb w₁ = .ok skb w₂)
    (hon : trecState trec ≠ .busOff) :
    d.handleCerrif bec w = d.cerrifQueue bec trec skb (w₂.enter (trecState trec)) := by
  unfold handleCerrif
  rw [run_bind_ok h, run_bind_ok (show DrvM.priv w₁ = .ok w₁.priv w₁ from rfl)]
  refine (congrFun (if_neg hne) w₁).trans ?_
  rw [run_bind_ok hskb]
  exact congrFun (if_neg hon) (w₂.enter (trecState trec))

theorem handleCerrif_off (bec : CanBerrCounter) (h : d.regmapRead regTrec w = .ok trec w₁)
    (hne : trecState trec ≠ w₁.priv.canState) (hskb : d.allocCanErrSkb w₁ = .ok skb w₂)
    (hoff : trecState trec = .busOff) :
    d.handleCerrif bec w =
      (d.cerrifBusOff >>= fun _ => d.cerrifQueue bec trec skb) (w₂.enter .busOff) := by
  unfold handleCerrif
  rw [run_bind_ok h, run_bind_ok (show DrvM.priv w₁ = .ok w₁.priv w₁ from rfl)]
  refine (congrFun (if_neg hne) w₁).trans ?_
  have henter : w₂.enter .busOff = w₂.enter (trecState trec) := by rw [hoff]
  rw [run_bind_ok hskb, henter]
  refine (congrFun (if_pos hoff) (w₂.enter (trecState trec))).trans ?_
  unfold cerrifBusOff
  simp only [bind_assoc]
  rfl

theorem cerrifQueue_on (bec : CanBerrCounter) (timestamp : UInt32)
    (hon : trecState trec ≠ .busOff) :
    d.cerrifQueue bec trec (some timestamp) = (do
      let bec ← d.getBerrCounter bec
      d.env.note (.queueSorted (.err ((cerrifFrame trec).withBec bec)) timestamp)) :=
  if_pos hon

theorem cerrifQueue_off (bec : CanBerrCounter) (timestamp : UInt32)
    (hoff : trecState trec = .busOff) :
    d.cerrifQueue bec trec (some timestamp) =
      d.env.note (.queueSorted (.err (cerrifFrame trec)) timestamp) :=
  if_neg (not_not.mpr hoff)

/-- The allocation comes back, with a frame or without. -/
theorem allocCanErrSkb_ok (d : Driver σ) (w : World σ) :
    ∃ skb w', d.allocCanErrSkb w = .ok skb w' := by
  unfold allocCanErrSkb
  cases h : d.regmapRead regTbc w with
  | error err w₁ =>
    rw [run_bind_ok (DrvM.run_attempt_error h)]
    exact ⟨none, w₁, rfl⟩
  | ok timestamp w₁ =>
    rw [run_bind_ok (DrvM.run_attempt_ok h)]
    exact ⟨_, _, rfl⟩

/-- The handler comes to the point where it queues a frame with counters. -/
def CerrifQueues (d : Driver σ) (w : World σ) : Prop :=
  ∃ trec w₁ timestamp w₂, d.regmapRead regTrec w = .ok trec w₁ ∧
    trecState trec ≠ w.priv.canState ∧ trecState trec ≠ .busOff ∧
    d.allocCanErrSkb w₁ = .ok (some timestamp) w₂

end Driver

namespace Fork
variable {env : Env σ} {dv : Dv} {bec bec' : CanBerrCounter} {w w' : World σ} {trec : UInt32}
  {skb : Option UInt32}

/-- A property of the private data outlasts what comes before the queueing. -/
theorem keeps_regmapRead_priv (K : Priv → Prop) (reg : UInt16) :
    Keeps (fun w : World σ => K w.priv) ((driver env dv).regmapRead reg) :=
  (Env.Safe.forkBus (Env.Safe.ofPriv (A := fun _ _ => True) K)).regmapRead reg

theorem keeps_allocCanErrSkb_priv (K : Priv → Prop) :
    Keeps (fun w : World σ => K w.priv) (driver env dv).allocCanErrSkb :=
  ((Env.Safe.ofPriv K).fork (inReg_true _) dv).allocCanErrSkb

/-- `mcp251xfd_chip_stop` leaves its state behind, also where it fails. -/
theorem canState_chipStop (env : Env σ) (dv : Dv) (state : CanState) (w : World σ) :
    (after ((driver env dv).chipStop state) w).priv.canState = state := by
  have hsafe : (driver env dv).Safe (fun w => w.priv.canState = state) fun _ _ => True :=
    (Env.Safe.ofPriv (·.canState = state)).fork (inReg_true _) dv
  exact (hsafe.chipStop inReg_true).after trivial

/-- With the interface down or `dv_nober` set the counters stay what they were. -/
theorem getBerrCounter_garbage (hdown : w.priv.iffUp = false ∨ dv.nober = true)
    (hstate : w.priv.canState ≠ .busOff) : (driver env dv).getBerrCounter bec w = .ok bec w := by
  unfold Driver.getBerrCounter
  rw [run_bind_ok (show DrvM.priv w = .ok w.priv w from rfl)]
  by_cases hup : w.priv.iffUp = true
  · have hnober : dv.nober = true := hdown.resolve_left (by simp [hup])
    simp only [hup, Bool.not_true, Bool.false_eq_true, if_false, hstate]
    change Fork.getBerrCounter' (Fork.bus env) dv bec w = .ok bec w
    unfold Fork.getBerrCounter'
    rw [hnober]
    rfl
  · simp only [hup, Bool.not_false, if_true]
    rfl

/-- Otherwise what they were does not matter. -/
theorem getBerrCounter_eq (hup : w.priv.iffUp = true) (hnober : dv.nober = false) :
    (driver env dv).getBerrCounter bec w = (driver env dv).getBerrCounter bec' w := by
  have hcounter : (driver env dv).getBerrCounter' bec = (driver env dv).getBerrCounter' bec' := by
    change Fork.getBerrCounter' (Fork.bus env) dv bec = Fork.getBerrCounter' (Fork.bus env) dv bec'
    unfold Fork.getBerrCounter'
    rw [hnober]
    rfl
  unfold Driver.getBerrCounter
  rw [run_bind_ok (show DrvM.priv w = .ok w.priv w from rfl),
    run_bind_ok (show DrvM.priv w = .ok w.priv w from rfl), hcounter]
  simp only [hup, Bool.not_true, Bool.false_eq_true, if_false]

theorem cerrifQueue_eq_of_off (hoff : trecState trec = .busOff) :
    (driver env dv).cerrifQueue bec trec skb = (driver env dv).cerrifQueue bec' trec skb := by
  cases skb with
  | none => rfl
  | some timestamp =>
    rw [Driver.cerrifQueue_off bec timestamp hoff, Driver.cerrifQueue_off bec' timestamp hoff]

theorem cerrifQueue_eq_of_up (hup : w.priv.iffUp = true) (hnober : dv.nober = false)
    (hon : trecState trec ≠ .busOff) :
    (driver env dv).cerrifQueue bec trec skb w = (driver env dv).cerrifQueue bec' trec skb w := by
  cases skb with
  | none => rfl
  | some timestamp =>
    rw [Driver.cerrifQueue_on bec timestamp hon, Driver.cerrifQueue_on bec' timestamp hon]
    have hcounter : (driver env dv).getBerrCounter bec w = (driver env dv).getBerrCounter bec' w :=
      getBerrCounter_eq hup hnober
    cases h : (driver env dv).getBerrCounter bec' w with
    | error err w' => rw [run_bind_error h, run_bind_error (hcounter.trans h)]
    | ok bec w' => rw [run_bind_ok h, run_bind_ok (hcounter.trans h)]

/-- The initial content of `bec` cannot be seen, unless the handler queues a frame while the
counters are not read. -/
theorem handleCerrif_eq
    (h : (w.priv.iffUp = true ∧ dv.nober = false) ∨ ¬ (driver env dv).CerrifQueues w) :
    (driver env dv).handleCerrif bec w = (driver env dv).handleCerrif bec' w := by
  cases hread : (driver env dv).regmapRead regTrec w with
  | error err w₁ => rw [Driver.handleCerrif_error bec hread, Driver.handleCerrif_error bec' hread]
  | ok trec w₁ =>
    have hpriv : w₁.priv = w.priv :=
      (keeps_regmapRead_priv (· = w.priv) regTrec).ok rfl hread
    by_cases hsame : trecState trec = w₁.priv.canState
    · rw [Driver.handleCerrif_same bec hread hsame, Driver.handleCerrif_same bec' hread hsame]
    · obtain ⟨skb, w₂, hskb⟩ := (driver env dv).allocCanErrSkb_ok w₁
      by_cases hoff : trecState trec = .busOff
      · rw [Driver.handleCerrif_off bec hread hsame hskb hoff,
          Driver.handleCerrif_off bec' hread hsame hskb hoff, cerrifQueue_eq_of_off hoff]
      · rw [Driver.handleCerrif_on bec hread hsame hskb hoff,
          Driver.handleCerrif_on bec' hread hsame hskb hoff]
        rcases h with ⟨hup, hnober⟩ | hnot
        · have hup₂ : w₂.priv.iffUp = true :=
            (keeps_allocCanErrSkb_priv (·.iffUp = true)).ok (by rw [hpriv, hup]) hskb
          exact cerrifQueue_eq_of_up hup₂ hnober hoff
        · cases skb with
          | none => rfl
          | some timestamp =>
            exact absurd ⟨trec, w₁, timestamp, w₂, hread, hpriv ▸ hsame, hoff, hskb⟩ hnot

/-- The frame that a run queues when nothing reads the counters: it holds `bec`. -/
theorem queued_handleCerrif {w : World (σ × CallLog)}
    (hdown : w.priv.iffUp = false ∨ dv.nober = true)
    (hqueues : (driver env.logged dv).CerrifQueues w) :
    ∃ frames cf timestamp, ∀ bec,
      (after ((driver env.logged dv).handleCerrif bec) w).env.2.queued =
        frames ++ [(.err (ErrFrame.withBec cf bec), timestamp)] := by
  obtain ⟨trec, w₁, timestamp, w₂, hread, hne, hon, hskb⟩ := hqueues
  have hpriv : w₁.priv = w.priv := (keeps_regmapRead_priv (· = w.priv) regTrec).ok rfl hread
  have hup : w₂.priv.iffUp = w.priv.iffUp :=
    (keeps_allocCanErrSkb_priv (·.iffUp = w.priv.iffUp)).ok (by rw [hpriv]) hskb
  refine ⟨w₂.env.2.queued, cerrifFrame trec, timestamp, fun bec => ?_⟩
  have hbec : (driver env.logged dv).getBerrCounter bec (w₂.enter (trecState trec)) =
      .ok bec (w₂.enter (trecState trec)) :=
    getBerrCounter_garbage (hup ▸ hdown) hon
  have hrun := Driver.handleCerrif_on bec hread (hpriv ▸ hne) hskb hon
  rw [Driver.cerrifQueue_on bec timestamp hon, run_bind_ok hbec] at hrun
  have hnote := Env.note_logged env (.queueSorted (.err ((cerrifFrame trec).withBec bec)) timestamp)
    (w₂.enter (trecState trec))
  rw [after_ok (hrun.trans hnote)]
  simp only [CallLog.queued_append, CallLog.queued_queueSorted]
  rfl

end Fork

/-- The error frames of `mcp251xfd_handle_cerrif` do not depend on the initial content of its
local `bec` exactly if the interface is up and `dv_nober` unset, or no frame with counters is
queued at all. -/
theorem handle_cerrif_queued_eq_iff (env : Env σ) (dv : Fork.Dv) (w : World (σ × CallLog)) :
    (∀ bec bec' : CanBerrCounter,
        (after ((Fork.driver env.logged dv).handleCerrif bec) w).env.2.queued =
          (after ((Fork.driver env.logged dv).handleCerrif bec') w).env.2.queued) ↔
      (w.priv.iffUp = true ∧ dv.nober = false) ∨ ¬ (Fork.driver env.logged dv).CerrifQueues w := by
  constructor
  · intro h
    by_contra hbad
    push Not at hbad
    obtain ⟨hup, hqueues⟩ := hbad
    have hdown : w.priv.iffUp = false ∨ dv.nober = true := by
      by_cases hiff : w.priv.iffUp = true
      · exact Or.inr (by simpa using hup hiff)
      · exact Or.inl (by simpa using hiff)
    obtain ⟨frames, cf, timestamp, hrun⟩ := Fork.queued_handleCerrif hdown hqueues
    have heq := h ⟨0, 0⟩ ⟨1, 0⟩
    rw [hrun, hrun, List.append_cancel_left_eq] at heq
    have hbyte : (cf.withBec ⟨0, 0⟩).data.get 6 = (cf.withBec ⟨1, 0⟩).data.get 6 := by
      simp only [List.cons.injEq, Prod.mk.injEq, Frame.err.injEq, and_true] at heq
      rw [heq]
    rw [ErrFrame.data_withBec, ErrFrame.data_withBec] at hbyte
    exact absurd hbyte (by decide)
  · intro h bec bec'
    unfold after
    rw [Fork.handleCerrif_eq h]

namespace Bench

/-- A controller whose transmitter is error passive. -/
def passive : Env Unit :=
  { Env.quiet board with
    read := fun reg _ _ => ((0, if reg = regTrec then le32 trecTxbp else [0, 0, 0, 0]), ())
    readCrc := fun reg len _ =>
      let data := if reg = regTrec then le32 trecTxbp else [0, 0, 0, 0]
      ((0, data, crc16Compute2 (spiCmdReadCrc reg len) data), ()) }

/-- After probe, while `mcp251xfd_open` runs: the interface is not up yet. -/
def opening : Priv :=
  { Priv.alloc with
    canState := .errorActive
    regmaps := ⟨⟨false, false, false⟩, ⟨true, true, true⟩, some .crc, some .crc⟩ }

def dvUnset : Fork.Dv := ⟨Fork.dvUnset, Fork.dvUnset, false, false⟩

end Bench

/-- An interrupt between the end of `mcp251xfd_chip_start` and the end of the open call. -/
theorem handle_cerrif_queues_garbage :
    let d := Fork.driver Bench.passive.logged Bench.dvUnset
    let w : World (Unit × CallLog) := ⟨((), []), Bench.opening, 0, []⟩
    (after (d.handleCerrif ⟨0, 0⟩) w).env.2.queued ≠
      (after (d.handleCerrif ⟨0xab, 0xcd⟩) w).env.2.queued := by
  decide +kernel

end YoctoLayers.Mcp251xfd
