import YoctoLayers.Mcp251xfd.Keeps

/-! The rounds of the main loop that a call of `mcp251xfd_irq` comes to, and how the call ends
when one of them fails. -/
namespace YoctoLayers.Mcp251xfd
open YoctoLayers.Lib

variable {σ : Type}

namespace Driver
variable (d : Driver σ) (bec : CanBerrCounter)

/-- From the first world, with `handled`, the loop on the `rx_int` line ends in the second. -/
inductive RxIntEnds : World σ → Bool → World σ → Bool → Prop
  | low {w w' : World σ} {handled : Bool} (h : DrvM.access d.env.rxPending w = .ok false w') :
      RxIntEnds w handled w' handled
  | high {w w₁ w₂ w' : World σ} {handled handled' : Bool}
      (h : DrvM.access d.env.rxPending w = .ok true w₁)
      (hrun : d.handle .rxif d.handleRxif w₁ = .ok () w₂) (hrest : RxIntEnds w₂ true w' handled') :
      RxIntEnds w handled w' handled'

/-- From the first world, with `handled`, the main loop comes to the start of a round in the
second. -/
inductive LoopStarts : World σ → Bool → World σ → Bool → Prop
  | first (w : World σ) (handled : Bool) : LoopStarts w handled w handled
  | next {w w₁ w' : World σ} {handled handled' : Bool} (h : d.irqRound bec w = .ok .handled w₁)
      (hrest : LoopStarts w₁ true w' handled') : LoopStarts w handled w' handled'

/-- The call of `mcp251xfd_irq` in `w₀` comes to the start of a round. -/
inductive StartsRound (w₀ : World σ) : World σ → Bool → Prop
  | main {w₁ w : World σ} {handled : Bool} (hrx : d.rxInt w₀ = .ok false w₁)
      (hloop : d.LoopStarts bec w₁ false w handled) : StartsRound w₀ w handled
  | rxInt {w₁ w₂ w : World σ} {handled₂ handled : Bool} (hrx : d.rxInt w₀ = .ok true w₁)
      (hends : d.RxIntEnds w₁ false w₂ handled₂) (hloop : d.LoopStarts bec w₂ handled₂ w handled) :
      StartsRound w₀ w handled

variable {d bec}

theorem LoopStarts.run {w w' w'' : World σ} {handled handled' : Bool} {err : ℤ}
    (h : d.LoopStarts bec w handled w' handled') (herr : d.irqRound bec w' = .error err w'') :
    ∃ n, ∀ rounds ≥ n,
      d.irqLoop bec rounds handled w = .ok (some (.fail err handled')) w'' := by
  induction h with
  | first w handled =>
    refine ⟨1, fun rounds hn => ?_⟩
    obtain ⟨rounds, rfl⟩ := Nat.exists_eq_add_of_le' hn
    unfold irqLoop
    rw [run_bind_ok (DrvM.run_attempt_error herr)]
    rfl
  | next hround _ ih =>
    obtain ⟨n, ih⟩ := ih herr
    refine ⟨n + 1, fun rounds hn => ?_⟩
    obtain ⟨rounds, rfl⟩ := Nat.exists_eq_add_of_le' (Nat.le_of_add_left_le hn)
    unfold irqLoop
    rw [run_bind_ok (DrvM.run_attempt_ok hround)]
    exact ih rounds (Nat.le_of_succ_le_succ hn)

theorem RxIntEnds.run {w w' : World σ} {handled handled' : Bool}
    (h : d.RxIntEnds w handled w' handled') (bec : CanBerrCounter) :
    ∃ n, ∀ rounds, ∀ rxRounds ≥ n,
      d.irqRxInt bec rounds rxRounds handled w = d.irqLoop bec rounds handled' w' := by
  induction h with
  | low hpending =>
    refine ⟨1, fun rounds rxRounds hn => ?_⟩
    obtain ⟨rxRounds, rfl⟩ := Nat.exists_eq_add_of_le' hn
    unfold irqRxInt
    rw [run_bind_ok hpending]
    rfl
  | high hpending hrun _ ih =>
    obtain ⟨n, ih⟩ := ih
    refine ⟨n + 1, fun rounds rxRounds hn => ?_⟩
    obtain ⟨rxRounds, rfl⟩ := Nat.exists_eq_add_of_le' (Nat.le_of_add_left_le hn)
    unfold irqRxInt
    rw [run_bind_ok hpending]
    refine (run_bind_ok (DrvM.run_attempt_ok hrun)).trans ?_
    exact ih rounds rxRounds (Nat.le_of_succ_le_succ hn)

/-- A round that fails ends the call, which disables the interrupts on its way out. -/
theorem StartsRound.irq_fail {w₀ w w' : World σ} {handled : Bool} {err : ℤ}
    (h : d.StartsRound bec w₀ w handled) (herr : d.irqRound bec w = .error err w') :
    ∃ n, ∀ rounds ≥ n, d.irq bec rounds w₀ =
      .ok (some (.fail err handled)) (after d.chipInterruptsDisable w') := by
  have hleave : (DrvM.ignoreErr d.chipInterruptsDisable >>= fun _ =>
      pure (some (IrqExit.fail err handled))) w' =
        .ok (some (.fail err handled)) (after d.chipInterruptsDisable w') :=
    run_bind_ok (DrvM.run_ignoreErr _ w')
  cases h with
  | main hrx hloop =>
    obtain ⟨n, hrun⟩ := hloop.run herr
    refine ⟨n, fun rounds hn => ?_⟩
    unfold irq
    rw [run_bind_ok hrx]
    exact (run_bind_ok (hrun rounds hn)).trans hleave
  | rxInt hrx hends hloop =>
    obtain ⟨n, hrun⟩ := hloop.run herr
    obtain ⟨m, hrx'⟩ := hends.run bec
    refine ⟨max n m, fun rounds hn => ?_⟩
    have hloop := (hrx' rounds rounds (le_of_max_le_right hn)).trans
      (hrun rounds (le_of_max_le_left hn))
    unfold irq
    rw [run_bind_ok hrx]
    exact (run_bind_ok hloop).trans hleave

end Driver
end YoctoLayers.Mcp251xfd
