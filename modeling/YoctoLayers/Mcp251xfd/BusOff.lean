import YoctoLayers.Mcp251xfd.Cerrif

/-! What `mcp251xfd_handle_cerrif` has done when it comes back: `mcp251xfd_chip_stop`,
`can_bus_off`, and the fate of the error frame. -/
namespace YoctoLayers.Mcp251xfd
open YoctoLayers.Lib

variable {σ : Type}

/-- The error frames that have been allocated. -/
def CallLog.errSkbs (log : CallLog) : ℕ := log.count (.allocCanErrSkb, 0)

/-- From `w` to `w'` the driver makes just these calls, and writes no register. -/
structure World.Extends (w w' : World (σ × CallLog)) (calls : CallLog) : Prop where
  writes : w'.writes = w.writes
  log : w'.env.2 = w.env.2 ++ calls

/-- Neither `mcp251xfd_chip_stop` nor `can_bus_off` between `w` and `w'`. -/
def World.Untouched (w w' : World (σ × CallLog)) : Prop :=
  ∃ calls, w.Extends w' calls ∧ ∀ call ∈ calls, call.1 ≠ .canBusOff

/-- First `mcp251xfd_chip_stop`, then `can_bus_off`, between `w` and `w'`. -/
def Driver.WentOff (d : Driver (σ × CallLog)) (w w' : World (σ × CallLog)) : Prop :=
  ∃ w₁ w₂, w.Untouched w₁ ∧ d.env.note .canBusOff (after (d.chipStop .busOff) w₁) = .ok () w₂ ∧
    w₂.Untouched w'

/-- What is to hold when the handler returns. -/
structure Driver.CerrifDone (d : Driver (σ × CallLog)) (w w' : World (σ × CallLog)) : Prop where
  wentOff : w.priv.canState ≠ .busOff → w'.priv.canState = .busOff → d.WentOff w w'
  untouched : ¬ (w.priv.canState ≠ .busOff ∧ w'.priv.canState = .busOff) → w.Untouched w'
  queued : ∃ calls, w'.env.2 = w.env.2 ++ calls ∧ calls.queued.length = calls.errSkbs

/-- The read of the error counters fails, where the handler comes to it. -/
def Driver.CountersFail (d : Driver σ) (bec : CanBerrCounter) (w : World σ) : Prop :=
  ∃ trec w₁ skb w₂ err w₃, d.regmapRead regTrec w = .ok trec w₁ ∧
    trecState trec ≠ w.priv.canState ∧ d.allocCanErrSkb w₁ = .ok skb w₂ ∧
    if trecState trec = .busOff then
      d.getBerrCounter' w₂.priv.bec (w₂.enter .busOff) = .error err w₃
    else skb.isSome ∧ d.getBerrCounter bec (w₂.enter (trecState trec)) = .error err w₃

namespace World
variable {w w₁ w₂ : World (σ × CallLog)} {calls calls' : CallLog}

theorem Extends.refl (w : World (σ × CallLog)) : w.Extends w [] := ⟨rfl, by simp⟩

theorem Extends.trans (h : w.Extends w₁ calls) (h' : w₁.Extends w₂ calls') :
    w.Extends w₂ (calls ++ calls') where
  writes := h'.writes.trans h.writes
  log := by rw [h'.log, h.log, List.append_assoc]

theorem extends_enter (w : World (σ × CallLog)) (state : CanState) : w.Extends (w.enter state) [] :=
  ⟨rfl, by simp [World.enter]⟩

theorem Extends.calls_eq (h : w.Extends w₁ calls) (h' : w₁.env.2 = w.env.2 ++ calls') :
    calls' = calls := by
  rw [h.log] at h'
  exact (List.append_cancel_left h').symm

theorem Extends.untouched (h : w.Extends w₁ calls)
    (hcalls : ∀ call ∈ calls, call.1 ≠ .canBusOff) : w.Untouched w₁ :=
  ⟨calls, h, hcalls⟩

end World

namespace Fork
variable {env : Env σ} {dv : Dv} {bec : CanBerrCounter} {w w' : World (σ × CallLog)}

/-- All that a register read may change is the outside. -/
structure SameDriver (w w' : World (σ × CallLog)) : Prop where
  writes : w'.writes = w.writes
  log : w'.env.2 = w.env.2
  priv : w'.priv = w.priv

theorem SameDriver.extends (h : SameDriver w w') : w.Extends w' [] :=
  ⟨h.writes, by rw [h.log, List.append_nil]⟩

theorem safe_sameDriver (w : World (σ × CallLog)) :
    env.logged.RegSafe (SameDriver w) fun _ _ => False where
  read _ _ _ h := ⟨h.writes, h.log, h.priv⟩
  readCrc _ _ _ h := ⟨h.writes, h.log, h.priv⟩
  write _ _ _ hA _ := hA.elim
  polls _ _ h := ⟨h.writes, h.log, h.priv⟩

theorem keeps_regmapRead (w : World (σ × CallLog)) (reg : UInt16) :
    Keeps (SameDriver w) ((driver env.logged dv).regmapRead reg) :=
  (safe_sameDriver w).forkBus.regmapRead reg

theorem keeps_getBerrCounter' (w : World (σ × CallLog)) :
    Keeps (SameDriver w) ((driver env.logged dv).getBerrCounter' bec) :=
  Keeps.ite (Keeps.pure _)
    (((safe_sameDriver w).forkBus.regmapRead regTrec).bind fun _ => Keeps.pure _)

theorem keeps_getBerrCounter (w : World (σ × CallLog)) :
    Keeps (SameDriver w) ((driver env.logged dv).getBerrCounter bec) := by
  refine DrvM.keeps_priv.bind fun p => Keeps.ite (Keeps.pure _) (Keeps.ite (Keeps.pure _) ?_)
  exact keeps_getBerrCounter' w

/-- The calls of `mcp251xfd_alloc_can_err_skb`: one frame is allocated if it returns one. -/
theorem extends_allocCanErrSkb {skb : Option UInt32}
    (h : (driver env.logged dv).allocCanErrSkb w = .ok skb w') :
    w'.priv = w.priv ∧ ∃ calls, w.Extends w' calls ∧ (∀ call ∈ calls, call.1 ≠ .canBusOff) ∧
      calls.queued = [] ∧ calls.errSkbs = if skb.isSome then 1 else 0 := by
  unfold Driver.allocCanErrSkb at h
  cases hread : (driver env.logged dv).regmapRead regTbc w with
  | error err w₁ =>
    have hw₁ := (keeps_regmapRead w regTbc).error ⟨rfl, rfl, rfl⟩ hread
    rw [run_bind_ok (DrvM.run_attempt_error hread)] at h
    cases h
    exact ⟨hw₁.priv, [], hw₁.extends, by simp, rfl, rfl⟩
  | ok timestamp w₁ =>
    have hw₁ := (keeps_regmapRead w regTbc).ok ⟨rfl, rfl, rfl⟩ hread
    rw [run_bind_ok (DrvM.run_attempt_ok hread)] at h
    set r := (env.call .allocCanErrSkb w₁.env.1).1 with hr
    have hrun : w'.priv = w₁.priv ∧ w₁.Extends w' [(.allocCanErrSkb, r)] ∧
        skb = if r = 0 then some timestamp else none := by
      cases h
      exact ⟨rfl, ⟨rfl, rfl⟩, rfl⟩
    obtain ⟨hpriv, hext, rfl⟩ := hrun
    refine ⟨hpriv.trans hw₁.priv, _, hw₁.extends.trans hext, by simp, rfl, ?_⟩
    split_ifs <;> simp_all [CallLog.errSkbs]

/-- `mcp251xfd_chip_stop` makes no calls. -/
theorem keeps_chipStop (log : CallLog) (state : CanState) :
    Keeps (fun w => w.env.2 = log) ((driver env.logged dv).chipStop state) := by
  have hsafe : env.logged.RegSafe (fun w => w.env.2 = log) fun _ _ => True :=
    ⟨fun _ _ _ h => h, fun _ _ _ h => h, fun _ _ _ _ h => h, fun _ _ h => h⟩
  exact (hsafe.forkStart (fun _ h => h) dv).chipStop state fun _ h => h

theorem note_run (env : Env σ) (dv : Dv) (c : KernelCall) (w : World (σ × CallLog)) :
    ∃ r w', (driver env.logged dv).env.note c w = .ok () w' ∧ w.Extends w' [(c, r)] ∧
      w'.priv = w.priv :=
  ⟨_, _, Env.note_logged env c w, ⟨rfl, rfl⟩, rfl⟩

/-- Where the counters can be read, an allocated frame is queued. -/
theorem cerrifQueue_run (env : Env σ) (dv : Dv) (bec : CanBerrCounter) (w : World (σ × CallLog))
    (trec : UInt32) (skb : Option UInt32)
    (hcounters : ∀ err w', trecState trec ≠ .busOff → skb.isSome →
      (driver env.logged dv).getBerrCounter bec w ≠ .error err w') :
    ∃ calls w', (driver env.logged dv).cerrifQueue bec trec skb w = .ok () w' ∧
      w.Extends w' calls ∧ (∀ call ∈ calls, call.1 ≠ .canBusOff) ∧
      calls.queued.length = (if skb.isSome then 1 else 0) ∧ calls.errSkbs = 0 ∧
      w'.priv = w.priv := by
  cases skb with
  | none => exact ⟨[], w, rfl, World.Extends.refl w, by simp, rfl, rfl, rfl⟩
  | some timestamp =>
    by_cases hoff : trecState trec = .busOff
    · obtain ⟨r, w', hrun, hext, hpriv⟩ :=
        note_run env dv (.queueSorted (.err (cerrifFrame trec)) timestamp) w
      refine ⟨_, w', ?_, hext, by simp, rfl, ?_, hpriv⟩
      · rw [Driver.cerrifQueue_off bec timestamp hoff, hrun]
      · simp [CallLog.errSkbs]
    · rw [Driver.cerrifQueue_on bec timestamp hoff]
      cases hread : (driver env.logged dv).getBerrCounter bec w with
      | error err w' => exact absurd hread (hcounters err w' hoff rfl)
      | ok bec w₁ =>
        have hw₁ := (keeps_getBerrCounter w).ok ⟨rfl, rfl, rfl⟩ hread
        obtain ⟨r, w', hrun, hext, hpriv⟩ := note_run env dv
          (.queueSorted (.err ((cerrifFrame trec).withBec bec)) timestamp) w₁
        refine ⟨_, w', ?_, hw₁.extends.trans hext, by simp, rfl, ?_, hpriv.trans hw₁.priv⟩
        · rw [run_bind_ok hread, hrun]
        · simp [CallLog.errSkbs]

/-- Once the counters are saved the controller is stopped and `can_bus_off` called. -/
theorem cerrifBusOff_run {b : CanBerrCounter} {w₁ : World (σ × CallLog)}
    (hread : (driver env.logged dv).getBerrCounter' w.priv.bec w = .ok b w₁) :
    ∃ r w₂, (driver env.logged dv).cerrifBusOff w = .ok () w₂ ∧
      (driver env.logged dv).env.note .canBusOff
        (after ((driver env.logged dv).chipStop .busOff)
          { w₁ with priv := { w₁.priv with bec := b } }) = .ok () w₂ ∧
      w₂.env.2 = w.env.2 ++ [(.canBusOff, r)] ∧ w₂.priv.canState = .busOff := by
  have hw₁ := (keeps_getBerrCounter' w).ok ⟨rfl, rfl, rfl⟩ hread
  set saved : World (σ × CallLog) := { w₁ with priv := { w₁.priv with bec := b } } with hsaved
  set stopped := after ((driver env.logged dv).chipStop .busOff) saved with hstopped
  have hlog : stopped.env.2 = w.env.2 := (keeps_chipStop w.env.2 .busOff).after hw₁.log
  have hstate : stopped.priv.canState = .busOff := canState_chipStop env.logged dv .busOff saved
  obtain ⟨r, w₂, hrun, hext, hpriv⟩ := note_run env dv .canBusOff stopped
  refine ⟨r, w₂, ?_, hrun, by rw [hext.log, hlog], by rw [hpriv, hstate]⟩
  have hignore : DrvM.ignoreErr ((driver env.logged dv).chipStop .busOff) saved = .ok () stopped :=
    DrvM.run_ignoreErr _ _
  unfold Driver.cerrifBusOff
  rw [run_bind_ok (show DrvM.priv w = .ok w.priv w from rfl), run_bind_ok hread,
    run_bind_ok (show DrvM.modifyPriv _ w₁ = .ok () saved from rfl), run_bind_ok hignore, hrun]

/-- A run that only reads leaves nothing to be done. -/
theorem done_of_sameDriver (h : SameDriver w w') : (driver env.logged dv).CerrifDone w w' where
  wentOff hne hoff := absurd (h.priv ▸ hoff) hne
  untouched _ := h.extends.untouched (by simp)
  queued := ⟨[], h.extends.log, rfl⟩

/-- The calls up to the new state: one frame is allocated if there is one to fill. -/
theorem extends_enter {trec : UInt32} {skb : Option UInt32} {w₁ w₂ : World (σ × CallLog)}
    (hread : (driver env.logged dv).regmapRead regTrec w = .ok trec w₁)
    (hskb : (driver env.logged dv).allocCanErrSkb w₁ = .ok skb w₂) (state : CanState) :
    ∃ calls, w.Extends (w₂.enter state) calls ∧ (∀ call ∈ calls, call.1 ≠ .canBusOff) ∧
      calls.queued = [] ∧ calls.errSkbs = if skb.isSome then 1 else 0 := by
  have hw₁ := (keeps_regmapRead w regTrec).ok ⟨rfl, rfl, rfl⟩ hread
  obtain ⟨-, calls, hext, hcalls, hqueued, hskbs⟩ := extends_allocCanErrSkb hskb
  refine ⟨calls, ?_, hcalls, hqueued, hskbs⟩
  have henter := (hw₁.extends.trans hext).trans (w₂.extends_enter state)
  rwa [List.nil_append, List.append_nil] at henter

/-- On entry to Bus Off, once the counters are saved. -/
theorem done_of_off {trec : UInt32} {skb : Option UInt32} {w₁ w₂ : World (σ × CallLog)}
    (hread : (driver env.logged dv).regmapRead regTrec w = .ok trec w₁)
    (hne : trecState trec ≠ w.priv.canState)
    (hskb : (driver env.logged dv).allocCanErrSkb w₁ = .ok skb w₂)
    (hoff : trecState trec = .busOff) {b : CanBerrCounter} {w₃ : World (σ × CallLog)}
    (hsave : (driver env.logged dv).getBerrCounter' w₂.priv.bec (w₂.enter .busOff) = .ok b w₃) :
    (driver env.logged dv).CerrifDone w (after ((driver env.logged dv).handleCerrif bec) w) := by
  have hw₁ := (keeps_regmapRead w regTrec).ok ⟨rfl, rfl, rfl⟩ hread
  have hw₃ := (keeps_getBerrCounter' (w₂.enter .busOff)).ok ⟨rfl, rfl, rfl⟩ hsave
  obtain ⟨calls, henter, hcalls, hqueued, hskbs⟩ := extends_enter hread hskb .busOff
  obtain ⟨r, w₄, hrun, hnote, hlog, hstate⟩ := cerrifBusOff_run (w := w₂.enter .busOff) hsave
  obtain ⟨rest, w₅, htail, hext₅, hrest, hlen, hnone, hpriv₅⟩ :=
    cerrifQueue_run env dv bec w₄ trec skb fun _ _ hon _ => absurd hoff hon
  have hend := Driver.handleCerrif_off bec hread (hw₁.priv ▸ hne) hskb hoff
  rw [run_bind_ok hrun, htail] at hend
  rw [after_ok hend]
  have hlog₅ : w₅.env.2 = w.env.2 ++ (calls ++ [(KernelCall.canBusOff, r)] ++ rest) := by
    rw [hext₅.log, hlog, henter.log, List.append_assoc, List.append_assoc, List.append_assoc]
  refine ⟨fun _ _ => ?_, fun hnot => ?_, _, hlog₅, ?_⟩
  · refine ⟨_, w₄, ⟨calls, ?_, hcalls⟩, hnote, hext₅.untouched hrest⟩
    exact ⟨hw₃.writes.trans henter.writes, hw₃.log.trans henter.log⟩
  · exact absurd ⟨hoff ▸ hne.symm, by rw [hpriv₅, hstate]⟩ hnot
  · have hboth : CallLog.errSkbs (calls ++ [(.canBusOff, r)] ++ rest) = calls.errSkbs := by
      simpa [CallLog.errSkbs] using hnone
    have hbus : CallLog.queued [(KernelCall.canBusOff, r)] = [] := rfl
    rw [hboth, CallLog.queued_append, CallLog.queued_append, hqueued, hbus, hskbs]
    simpa using hlen

/-- In another state, where the counters can be read for the frame. -/
theorem done_of_on {trec : UInt32} {skb : Option UInt32} {w₁ w₂ : World (σ × CallLog)}
    (hread : (driver env.logged dv).regmapRead regTrec w = .ok trec w₁)
    (hne : trecState trec ≠ w.priv.canState)
    (hskb : (driver env.logged dv).allocCanErrSkb w₁ = .ok skb w₂)
    (hoff : trecState trec ≠ .busOff)
    (hcounters : ∀ err w₃, skb.isSome →
      (driver env.logged dv).getBerrCounter bec (w₂.enter (trecState trec)) ≠ .error err w₃) :
    (driver env.logged dv).CerrifDone w (after ((driver env.logged dv).handleCerrif bec) w) := by
  have hw₁ := (keeps_regmapRead w regTrec).ok ⟨rfl, rfl, rfl⟩ hread
  obtain ⟨calls, henter, hcalls, hqueued, hskbs⟩ := extends_enter hread hskb (trecState trec)
  obtain ⟨rest, w₃, htail, hext₃, hrest, hlen, hnone, hpriv₃⟩ :=
    cerrifQueue_run env dv bec (w₂.enter (trecState trec)) trec skb
      fun err w₃ _ hsome => hcounters err w₃ hsome
  have hend := Driver.handleCerrif_on bec hread (hw₁.priv ▸ hne) hskb hoff
  rw [after_ok (hend.trans htail)]
  have hext := henter.trans hext₃
  refine ⟨fun _ hbus => ?_, fun _ => hext.untouched ?_, _, hext.log, ?_⟩
  · rw [hpriv₃] at hbus
    exact absurd hbus hoff
  · intro call hcall
    rcases List.mem_append.mp hcall with hmem | hmem
    · exact hcalls call hmem
    · exact hrest call hmem
  · have hboth : (calls ++ rest).errSkbs = calls.errSkbs := by
      simpa [CallLog.errSkbs] using hnone
    rw [hboth, CallLog.queued_append, hqueued, hskbs]
    simpa using hlen

theorem done_of_countersRead (h : ¬ (driver env.logged dv).CountersFail bec w) :
    (driver env.logged dv).CerrifDone w
      (after ((driver env.logged dv).handleCerrif bec) w) := by
  cases hread : (driver env.logged dv).regmapRead regTrec w with
  | error err w₁ =>
    rw [after_error (Driver.handleCerrif_error bec hread)]
    exact done_of_sameDriver ((keeps_regmapRead w regTrec).error ⟨rfl, rfl, rfl⟩ hread)
  | ok trec w₁ =>
    have hw₁ := (keeps_regmapRead w regTrec).ok ⟨rfl, rfl, rfl⟩ hread
    by_cases hsame : trecState trec = w₁.priv.canState
    · rw [after_ok (Driver.handleCerrif_same bec hread hsame)]
      exact done_of_sameDriver hw₁
    · obtain ⟨skb, w₂, hskb⟩ := (driver env.logged dv).allocCanErrSkb_ok w₁
      have hne : trecState trec ≠ w.priv.canState := hw₁.priv ▸ hsame
      have hcounters (err : ℤ) (w₃ : World (σ × CallLog)) := fun hfail =>
        h ⟨trec, w₁, skb, w₂, err, w₃, hread, hne, hskb, hfail⟩
      by_cases hoff : trecState trec = .busOff
      · simp only [hoff, if_true] at hcounters
        cases hsave : (driver env.logged dv).getBerrCounter' w₂.priv.bec (w₂.enter .busOff) with
        | error err w₃ => exact absurd hsave (hcounters err w₃)
        | ok b w₃ => exact done_of_off hread hne hskb hoff hsave
      · simp only [hoff, if_false] at hcounters
        exact done_of_on hread hne hskb hoff fun err w₃ hsome hfail =>
          hcounters err w₃ ⟨hsome, hfail⟩

/-- A failing read of the counters leaves Bus Off without a stop, or a frame without an owner. -/
theorem not_done_of_countersFail (h : (driver env.logged dv).CountersFail bec w) :
    ¬ (driver env.logged dv).CerrifDone w
      (after ((driver env.logged dv).handleCerrif bec) w) := by
  obtain ⟨trec, w₁, skb, w₂, err, w₃, hread, hne, hskb, hfail⟩ := h
  have hw₁ := (keeps_regmapRead w regTrec).ok ⟨rfl, rfl, rfl⟩ hread
  obtain ⟨calls, henter, hcalls, hqueued, hskbs⟩ := extends_enter hread hskb (trecState trec)
  have hsame : trecState trec ≠ w₁.priv.canState := by rwa [hw₁.priv]
  intro hdone
  by_cases hoff : trecState trec = .busOff
  · rw [if_pos hoff] at hfail
    rw [hoff] at henter
    have hw₃ := (keeps_getBerrCounter' (w₂.enter .busOff)).error ⟨rfl, rfl, rfl⟩ hfail
    have hend := Driver.handleCerrif_off bec hread hsame hskb hoff
    have hbus : (driver env.logged dv).cerrifBusOff (w₂.enter .busOff) = .error err w₃ := by
      unfold Driver.cerrifBusOff
      rw [run_bind_ok (show DrvM.priv (w₂.enter .busOff) = .ok _ _ from rfl)]
      exact run_bind_error hfail
    rw [run_bind_error hbus] at hend
    rw [after_error hend] at hdone
    -- `can_bus_off` would have to be in the log
    obtain ⟨v₁, v₂, ⟨before, hbefore, -⟩, hnote, afterwards, hafter, -⟩ :=
      hdone.wentOff (hoff ▸ hne.symm) (by rw [hw₃.priv]; rfl)
    obtain ⟨r, v, hrun, hext, -⟩ := note_run env dv .canBusOff
      (after ((driver env.logged dv).chipStop .busOff) v₁)
    obtain rfl : v = v₂ := by
      rw [hrun] at hnote
      cases hnote
      rfl
    have hstop : (after ((driver env.logged dv).chipStop .busOff) v₁).env.2 = v₁.env.2 :=
      (keeps_chipStop v₁.env.2 .busOff).after rfl
    have hlog : w₃.env.2 = w.env.2 ++ (before ++ [(.canBusOff, r)] ++ afterwards) := by
      rw [hafter.log, hext.log, hstop, hbefore.log, List.append_assoc, List.append_assoc,
        List.append_assoc]
    have hcall := (henter.trans hw₃.extends).calls_eq hlog
    rw [List.append_nil] at hcall
    refine hcalls (.canBusOff, r) ?_ rfl
    rw [← hcall]
    simp
  · rw [if_neg hoff] at hfail
    obtain ⟨hsome, hfail⟩ := hfail
    have hw₃ := (keeps_getBerrCounter (w₂.enter (trecState trec))).error ⟨rfl, rfl, rfl⟩ hfail
    obtain ⟨timestamp, rfl⟩ := Option.isSome_iff_exists.mp hsome
    have hend := Driver.handleCerrif_on bec hread hsame hskb hoff
    rw [Driver.cerrifQueue_on bec timestamp hoff, run_bind_error hfail] at hend
    rw [after_error hend] at hdone
    obtain ⟨calls', hlog, hlen⟩ := hdone.queued
    obtain rfl := (henter.trans hw₃.extends).calls_eq hlog
    rw [List.append_nil, hqueued, hskbs] at hlen
    exact absurd hlen (by simp)

end Fork

/-- When `mcp251xfd_handle_cerrif` returns, Bus Off has been entered with `mcp251xfd_chip_stop` and
`can_bus_off` or not at all, and the error frame is queued, exactly if no read of the error
counters has failed. -/
theorem handle_cerrif_done_iff (env : Env σ) (dv : Fork.Dv) (bec : CanBerrCounter)
    (w : World (σ × CallLog)) :
    (Fork.driver env.logged dv).CerrifDone w
        (after ((Fork.driver env.logged dv).handleCerrif bec) w) ↔
      ¬ (Fork.driver env.logged dv).CountersFail bec w := by
  constructor
  · intro hdone hfail
    exact Fork.not_done_of_countersFail hfail hdone
  · exact Fork.done_of_countersRead

namespace Bench

/-- A controller in Bus Off whose second read of TREC fails. -/
def failing : Env ℕ where
  board := board
  read _ _ n := ((0, [0, 0, 0, 0]), n)
  readCrc reg len n :=
    let data := if reg = regTrec then le32 trecTxbo else [0, 0, 0, 0]
    let crc := crc16Compute2 (spiCmdReadCrc reg len) data
    if reg = regTrec then ((if n = 0 then 0 else -etimedout, data, crc), n + 1)
    else ((0, data, crc), n)
  write _ _ n := (0, n)
  reset n := (0, n)
  polls _ n := (0, n)
  rxPending n := (false, n)
  call _ n := (0, n)

end Bench

/-- Bus Off with the controller running, and an error frame that nobody frees. -/
theorem handle_cerrif_not_stopped :
    let d := Fork.driver Bench.failing.logged Bench.dvUnset
    let w : World (ℕ × CallLog) := ⟨(0, []), Bench.opening, 0, []⟩
    let w' := after (d.handleCerrif ⟨0, 0⟩) w
    w.priv.canState = .errorActive ∧ w'.priv.canState = .busOff ∧
      w'.env.2 = [(.allocCanErrSkb, 0)] ∧ ¬ d.CerrifDone w w' := by
  intro d w w'
  have hlog : w'.env.2 = [(.allocCanErrSkb, 0)] := by decide +kernel
  refine ⟨rfl, by decide +kernel, hlog, fun hdone => ?_⟩
  obtain ⟨calls, hcalls, hlen⟩ := hdone.queued
  obtain rfl : calls = [(.allocCanErrSkb, 0)] := hcalls.symm.trans hlog
  exact absurd hlen (by decide)

end YoctoLayers.Mcp251xfd
