import YoctoLayers.Mcp251xfd.Lifecycle

/-! The speed that `mcp251xfd_probe` sets for the SPI bus, and that it restores. -/
namespace YoctoLayers.Mcp251xfd
open YoctoLayers.Lib DrvM

variable {σ : Type}

namespace Driver

/-- The product does not overflow. -/
theorem toNat_maxSpeedHz (orig freq : UInt32) :
    (maxSpeedHz orig freq).toNat = min orig.toNat (freq.toNat / 2 / 1000 * 850) := by
  have hfreq : freq.toNat < 2 ^ 32 := freq.toNat_lt
  have hlimit : (freq / 2 / 1000 * 850).toNat = freq.toNat / 2 / 1000 * 850 := by
    rw [UInt32.toNat_mul, UInt32.toNat_div, UInt32.toNat_div]
    exact Nat.mod_eq_of_lt (by change freq.toNat / 2 / 1000 * 850 < 2 ^ 32; omega)
  rw [← hlimit]
  change (if orig ≤ freq / 2 / 1000 * 850 then orig else freq / 2 / 1000 * 850).toNat = _
  split_ifs with hle
  · exact (min_eq_left (UInt32.le_iff_toNat_le.mp hle)).symm
  · exact (min_eq_right (Nat.le_of_not_le (mt UInt32.le_iff_toNat_le.mpr hle))).symm

/-- The truncated quotients stay below 0.85 times half the frequency. -/
theorem maxSpeedHz_le (orig freq : UInt32) :
    ((maxSpeedHz orig freq).toNat : ℚ) ≤ 85 / 100 * (freq.toNat / 2) := by
  have hnat : 200 * (maxSpeedHz orig freq).toNat ≤ 85 * freq.toNat := by
    rw [toNat_maxSpeedHz]
    have hmin := min_le_right orig.toNat (freq.toNat / 2 / 1000 * 850)
    omega
  have hrat : (200 : ℚ) * (maxSpeedHz orig freq).toNat ≤ 85 * freq.toNat := by exact_mod_cast hnat
  linarith

theorem maxSpeedHz_ne_zero_iff {orig : UInt32} (freq : UInt32) (horig : 0 < orig.toNat) :
    maxSpeedHz orig freq ≠ 0 ↔ 2000 ≤ freq.toNat := by
  have hzero : maxSpeedHz orig freq = 0 ↔ (maxSpeedHz orig freq).toNat = 0 :=
    UInt32.toNat_inj.symm
  rw [Ne, hzero, toNat_maxSpeedHz]
  omega

end Driver

/-- The original speed is kept at hand. -/
def SpeedSaved (hz : UInt32) (w : World σ) : Prop := w.priv.spiMaxSpeedHzOrig = hz

section
variable (env : Env σ) (dv : Fork.Dv) {hz : UInt32}

theorem speedSaved_startSafe : (Fork.driver env dv).StartSafe (SpeedSaved hz) :=
  (Env.Safe.ofPriv (·.spiMaxSpeedHzOrig = hz)).toRegSafe.forkStart (fun _ h => h) dv

theorem keeps_invoke {I : World σ → Prop} (c : KernelCall)
    (h : ∀ w, I w → I { w with env := (env.call c w.env).2 }) : Keeps I (env.invoke c) :=
  (keeps_access _ h).bind fun _ => keeps_check _

theorem keeps_allocMem {I : World σ → Prop} (c : KernelCall)
    (h : ∀ w, I w → I { w with env := (env.call c w.env).2 }) :
    Keeps I ((Fork.driver env dv).allocMem c) :=
  (keeps_access _ h).bind fun _ => keeps_check _

theorem speedSaved_invoke (c : KernelCall) : Keeps (SpeedSaved hz) (env.invoke c) :=
  keeps_invoke env c fun _ h => h

theorem speedSaved_note (c : KernelCall) : Keeps (SpeedSaved hz) (env.note c) :=
  Env.keeps_note c fun _ h => h

theorem speedSaved_modifyMap (kind : MapKind) (f : MapState → MapState) :
    Keeps (SpeedSaved hz : World σ → Prop) (Env.modifyMap kind f) :=
  keeps_modifyPriv _ fun _ h => h

theorem speedSaved_regmapInitMap (kind : MapKind) (usesReg usesRx : UInt32 → Bool) :
    Keeps (SpeedSaved hz) (env.regmapInitMap kind usesReg usesRx) := by
  unfold Env.regmapInitMap
  extract_lets last afterRx afterMap
  have hlast (u : Unit) : Keeps (SpeedSaved hz) (last u) := keeps_modifyPriv _ fun _ h => h
  have halloc {f : Unit → DrvM σ Unit} (hf : ∀ u, Keeps (SpeedSaved hz) (f u))
      (g : MapState → MapState) (err : ℤ) : Keeps (SpeedSaved hz)
        (DrvM.check err >>= fun _ => Env.modifyMap kind g >>= f) :=
    (keeps_check _).bind fun _ => (speedSaved_modifyMap kind g).bind hf
  have hafterRx (u : Unit) : Keeps (SpeedSaved hz) (afterRx u) := by
    refine keeps_priv.bind fun p => Keeps.ite ?_ (hlast ())
    exact (keeps_access _ fun _ h => h).bind fun _ => halloc hlast _ _
  have hafterMap (u : Unit) : Keeps (SpeedSaved hz) (afterMap u) := by
    refine keeps_priv.bind fun p => Keeps.ite ?_ (hafterRx ())
    exact (keeps_access _ fun _ h => h).bind fun _ => halloc hafterRx _ _
  refine keeps_priv.bind fun p => Keeps.ite ?_ (hafterMap ())
  exact (speedSaved_invoke env _).bind fun _ => (speedSaved_modifyMap kind _).bind hafterMap

theorem speedSaved_regmapInit : Keeps (SpeedSaved hz) env.regmapInit := by
  have hdestroy (kind : MapKind) : Keeps (SpeedSaved hz) (env.regmapDestroyMap kind) :=
    keeps_priv.bind fun _ => (keeps_callIf _ (speedSaved_note env _)).bind fun _ =>
      (keeps_callIf _ (speedSaved_note env _)).bind fun _ => speedSaved_modifyMap _ _
  unfold Env.regmapInit
  refine keeps_priv.bind fun p => ?_
  extract_lets quirks crc
  have hcrc (u : Unit) : Keeps (SpeedSaved hz) (crc u) :=
    Keeps.ite (speedSaved_regmapInitMap env _ _ _) (hdestroy _)
  exact Keeps.ite ((speedSaved_regmapInitMap env _ _ _).bind hcrc) ((hdestroy _).bind hcrc)

theorem speedSaved_register : Keeps (SpeedSaved hz) (Fork.driver env dv).register := by
  have hsafe : (Fork.driver env dv).StartSafe (SpeedSaved hz) := speedSaved_startSafe env dv
  have hsupply (c : KernelCall) (b : Bool) : Keeps (SpeedSaved hz) (DrvM.callIf b (env.invoke c)) :=
    keeps_callIf _ (speedSaved_invoke env c)
  have henable : Keeps (SpeedSaved hz) (Fork.driver env dv).clksAndVddEnable :=
    (speedSaved_invoke env _).bind fun _ =>
      keeps_onError (speedSaved_note env _) (keeps_priv.bind fun _ => hsupply _ _)
  have hdisable : Keeps (SpeedSaved hz) (Fork.driver env dv).clksAndVddDisable :=
    (keeps_priv.bind fun _ => hsupply _ _).bind fun _ => speedSaved_note env _
  have hquirks : Keeps (SpeedSaved hz) (Fork.driver env dv).registerQuirks :=
    keeps_modifyPriv _ fun w h => by
      unfold SpeedSaved at h ⊢
      dsimp only
      split_ifs <;> exact h
  have hsleep : Keeps (SpeedSaved hz) ((Fork.driver env dv).chipSetMode modeSleep) :=
    hsafe.chipSetMode _ _
  have hdetect : Keeps (SpeedSaved hz) (Fork.driver env dv).registerChipDetect := by
    refine (hsafe.regmapUpdateBits _ _ (inReg_true _)).bind fun _ => ?_
    refine (hsafe.regmapRead _).bind fun _ => (keeps_modifyPriv _ fun _ h => h).bind fun _ => ?_
    exact hquirks.bind fun _ => speedSaved_regmapInit env
  have hrxInt : Keeps (SpeedSaved hz) (Fork.driver env dv).registerCheckRxInt := by
    refine hsafe.rxInt.bind fun _ => Keeps.ite (Keeps.pure _) ?_
    refine hsafe.chipRxIntEnable.bind fun _ => (keeps_access _ fun _ h => h).bind fun _ => ?_
    refine (hsafe.chipRxIntDisable (inReg_true _)).bind fun _ => Keeps.ite (Keeps.pure _) ?_
    exact (speedSaved_note env _).bind fun _ => keeps_modifyPriv _ fun _ h => h
  have hdevId : Keeps (SpeedSaved hz) (Fork.driver env dv).registerGetDevId := by
    refine (keeps_allocMem env dv _ fun _ h => h).bind fun _ =>
      Keeps.bind (keeps_ignoreErr ?_) fun _ =>
      speedSaved_note env _
    refine (keeps_allocMem env dv _ fun _ h => h).bind fun _ => ?_
    exact (keeps_attempt (Env.keeps_spiRead fun _ h => h)).bind fun _ => speedSaved_note env _
  refine henable.bind fun _ => (speedSaved_note env _).bind fun _ => ?_
  refine keeps_onError ((speedSaved_note env _).bind fun _ => keeps_ignoreErr hdisable) ?_
  refine (speedSaved_invoke env _).bind fun _ => (speedSaved_note env _).bind fun _ => ?_
  refine keeps_onError (speedSaved_note env _) (hquirks.bind fun _ => ?_)
  refine (keeps_attempt hsafe.chipSoftreset).bind fun r => ?_
  cases r with
  | error err => exact (keeps_callIf _ (keeps_ignoreErr hsleep)).bind fun _ => Keeps.throw _
  | ok _ =>
    refine Keeps.bind (keeps_onError (keeps_ignoreErr hsleep) ?_) fun _ => speedSaved_note env _
    refine hdetect.bind fun _ => hrxInt.bind fun _ => (speedSaved_invoke env _).bind fun _ => ?_
    exact keeps_onError (speedSaved_note env _) (hdevId.bind fun _ => hsleep)

theorem speedSaved_probeSetup : Keeps (SpeedSaved hz) (Fork.driver env dv).probeSetup :=
  (speedSaved_invoke env _).bind fun _ => (speedSaved_regmapInit env).bind fun _ =>
    speedSaved_invoke env _

/-- The part of `mcp251xfd_probe` before `spi_setup` sets the speed, or fails and leaves it
alone. -/
theorem ensures_probeAlloc (hz : UInt32) :
    Ensures (fun w : World σ => w.maxSpeedHz = hz) (Fork.driver env dv).probeAlloc
      (fun _ w => SpeedSaved hz w ∧ w.maxSpeedHz = Driver.maxSpeedHz hz env.board.freq)
      fun _ w => w.maxSpeedHz = hz := by
  have hinvoke (c : KernelCall) : Keeps (fun w : World σ => w.maxSpeedHz = hz) (env.invoke c) :=
    keeps_invoke env c fun _ h => h
  have hregulator (supply : Supply) : Keeps (fun w : World σ => w.maxSpeedHz = hz)
      ((Fork.driver env dv).regulatorGetOptional supply) := by
    refine (keeps_access _ fun _ h => h).bind fun err => Keeps.ite (Keeps.pure _) ?_
    exact (keeps_check _).bind fun _ => Keeps.pure _
  refine Ensures.ite (fun _ => Ensures.throw fun _ h => h) fun _ => ?_
  refine Ensures.bind (hinvoke _) fun _ => Ensures.bind (hregulator _) fun vdd => ?_
  refine Ensures.bind (hregulator _) fun xceiver => Ensures.bind (hinvoke _) fun _ => ?_
  refine Ensures.ite (fun _ => Ensures.throw fun _ h => h) fun _ => ?_
  refine Ensures.bind (keeps_allocMem env dv _ fun _ h => h) fun _ => ?_
  exact ensures_iff.mpr fun w hw => ⟨hw, congrArg (Driver.maxSpeedHz · env.board.freq) hw⟩

/-- Every error exit restores the speed. -/
theorem maxSpeedHz_of_probe_error {w w' : World σ} {err : ℤ}
    (h : (Fork.driver env dv).probe w = .error err w') : w'.maxSpeedHz = w.maxSpeedHz := by
  have hundo (hz : UInt32) : Ensures (SpeedSaved hz) (Fork.driver env dv).outFreeCandev
      (fun _ w => w.maxSpeedHz = hz) fun _ w => w.maxSpeedHz = hz := by
    have hfree : Keeps (fun w : World σ => w.maxSpeedHz = hz) (env.note .freeCandev) :=
      Env.keeps_note _ fun _ h => h
    refine Ensures.bind (Q := fun _ (w : World σ) => w.maxSpeedHz = hz) ?_ fun _ => hfree
    exact ensures_iff.mpr fun w (hw : w.priv.spiMaxSpeedHzOrig = hz) => hw
  have hprobe (hz : UInt32) : Ensures (fun w : World σ => w.maxSpeedHz = hz)
      (Fork.driver env dv).probe (fun _ _ => True) fun _ w => w.maxSpeedHz = hz := by
    rw [Driver.probe_eq]
    refine Ensures.bind (ensures_probeAlloc env dv hz) fun _ => ?_
    have hrest : Keeps (SpeedSaved hz)
        ((Fork.driver env dv).probeSetup >>= fun _ => (Fork.driver env dv).register) :=
      (speedSaved_probeSetup env dv).bind fun _ => speedSaved_register env dv
    refine Ensures.tryCatch (X := fun _ => SpeedSaved hz) ?_ fun err => ?_
    · exact hrest.imp (fun _ hw => hw.1) (fun _ _ _ => trivial) fun _ _ hw => hw
    · exact Ensures.bind (hundo hz) fun _ => Ensures.throw fun _ hw => hw
  exact Ensures.error (hprobe w.maxSpeedHz) rfl h

end

/-- The speed set before `spi_setup` is a limit, within the bound of the erratum, if and only if
the clock has at least 2 kHz; every error exit restores the speed that was there before. -/
theorem probe_max_speed_iff (env : Env σ) (dv : Fork.Dv) {w w₁ : World σ}
    (horig : 0 < w.maxSpeedHz.toNat)
    (hstore : (Fork.driver env dv).probeAlloc w = .ok () w₁) :
    (w₁.maxSpeedHz ≠ 0 ∧
      w₁.maxSpeedHz.toNat = min w.maxSpeedHz.toNat (env.board.freq.toNat / 2 / 1000 * 850) ∧
      (w₁.maxSpeedHz.toNat : ℚ) ≤ 85 / 100 * (env.board.freq.toNat / 2) ∧
      ∀ err w', (Fork.driver env dv).probe w = .error err w' → w'.maxSpeedHz = w.maxSpeedHz) ↔
    2000 ≤ env.board.freq.toNat := by
  have hset : w₁.maxSpeedHz = Driver.maxSpeedHz w.maxSpeedHz env.board.freq :=
    (Ensures.ok (ensures_probeAlloc env dv w.maxSpeedHz) rfl hstore).2
  rw [hset, Driver.maxSpeedHz_ne_zero_iff env.board.freq horig]
  constructor
  · exact fun h => h.1
  · intro hfreq
    exact ⟨hfreq, Driver.toNat_maxSpeedHz _ _, Driver.maxSpeedHz_le _ _,
      fun err w' h => maxSpeedHz_of_probe_error env dv h⟩

/-- A clock of 20 MHz. -/
theorem probe_max_speed_iff_20 :
    ∃ w₁, (Fork.driver Bench.env ⟨Fork.dvUnset, Fork.dvUnset, false, false⟩).probeAlloc
        Bench.world = .ok () w₁ ∧ w₁.maxSpeedHz ≠ 0 :=
  ⟨_, rfl, ((probe_max_speed_iff Bench.env _ (by decide) rfl).mpr (by decide)).1⟩

/-- A clock of 1999 Hz: the bus is left without a limit. -/
theorem probe_max_speed_zero :
    ∃ w₁, (Fork.driver { Bench.env with board := { Bench.board with freq := 1999 } }
        ⟨Fork.dvUnset, Fork.dvUnset, false, false⟩).probeAlloc Bench.world = .ok () w₁ ∧
      w₁.maxSpeedHz = 0 :=
  ⟨_, rfl, by decide⟩

end YoctoLayers.Mcp251xfd
