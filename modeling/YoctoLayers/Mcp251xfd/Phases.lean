import YoctoLayers.Mcp251xfd.Holdings

/-! What the driver is to hold while it is unbound, down and up, and how the balance of each entry
point leads from one phase to the next. -/
namespace YoctoLayers.Mcp251xfd
open YoctoLayers.Lib

inductive Phase
  | unbound
  | down
  | up
deriving DecidableEq, Repr

/-- What the driver is to hold in a phase. -/
def Phase.held (phase : Phase) (active vdd xceiver : Bool) : Ledger Resource
  | .candev | .offload | .registered | .pmEnabled => if phase = .unbound then 0 else 1
  | .clk => if phase ≠ .unbound ∧ active then 1 else 0
  | .supply .vdd => if phase ≠ .unbound ∧ active ∧ vdd then 1 else 0
  | .supply .xceiver => if phase = .up ∧ xceiver then 1 else 0
  | .pmRef | .opened | .irq | .offloadEnabled => if phase = .up then 1 else 0

/-- The holdings of a phase; `hz` is `spi->max_speed_hz` as the driver found it. -/
structure Holdings.Fits (h : Holdings) (hz : UInt32) (phase : Phase) : Prop where
  held : h.kernel.held = phase.held h.kernel.active h.regVdd h.regXceiver
  hz_eq : (if phase = .unbound then h.maxSpeedHz else h.orig) = hz
  inactive : phase = .unbound → h.kernel.active = false
  vdd : phase ≠ .unbound → h.kernel.hasVdd = h.regVdd
  ring : phase ≠ .unbound → h.ring = decide (phase = .up)
  active : phase = .up → h.kernel.active = true

namespace Holdings

/-- After `pm_runtime_get_sync`. -/
def resumed (h : Holdings) : Holdings :=
  if h.kernel.active then h.acquire .pmRef else (h.acquire .pmRef).powered.setActive true

def setVdd (h : Holdings) (vdd : Bool) : Holdings :=
  { h with kernel := { h.kernel with hasVdd := vdd } }

/-- After `alloc_candev`, with the speed that `mcp251xfd_probe` sets. -/
def allocated (h : Holdings) (vdd xceiver : Bool) (maxSpeedHz : UInt32) : Holdings where
  kernel := { h.kernel with hasVdd := vdd }.acquire .candev
  ring := false
  regVdd := vdd
  regXceiver := xceiver
  orig := h.maxSpeedHz
  maxSpeedHz := maxSpeedHz

/-- After `free_candev` and the restored speed. -/
def freed (h : Holdings) : Holdings := { h with maxSpeedHz := h.orig }.release .candev

/-- After `mcp251xfd_runtime_suspend`. -/
def suspended (h : Holdings) : Holdings :=
  ((h.releaseIf h.regVdd (.supply .vdd)).release .clk).setActive false

/-- What `mcp251xfd_unregister` leaves after `pm_runtime_get_sync`. -/
def unregistered (h : Holdings) : Holdings :=
  let h := h.release .pmRef
  (((h.releaseIf h.regVdd (.supply .vdd)).release .clk).release .pmEnabled).setActive false

variable {h : Holdings} {hz : UInt32}

/-- A resource of a phase, one by one. -/
theorem Fits.held_eq {phase : Phase} (hf : h.Fits hz phase) (r : Resource) :
    h.kernel.held r = phase.held h.kernel.active h.regVdd h.regXceiver r :=
  congrFun hf.held r

theorem Fits.open_ok (hf : h.Fits hz .down) : h.resumed.opened.Fits hz .up := by
  have hx := hf.held_eq
  obtain ⟨-, horig, -, hvdd, hring, -⟩ := hf
  cases hact : h.kernel.active <;> cases hv : h.regVdd <;> cases hc : h.regXceiver <;>
    refine ⟨funext fun r => ?_, ?_, nofun, ?_, ?_, ?_⟩ <;>
    simp_all [resumed, opened, online, powered, setRing, setActive, acquireIf, acquire,
      Kernel.acquire]
  all_goals rcases r with _ | _ | _ | _ | (_ | _) | _ | _ | _ | _ | _ <;>
    simp [Phase.held, Ledger.acquire_apply, hx]

/-- A failure of `mcp251xfd_open` leaves the device active. -/
theorem Fits.open_error (hf : h.Fits hz .down) : (h.resumed.release .pmRef).Fits hz .down := by
  have hx := hf.held_eq
  obtain ⟨-, horig, -, hvdd, hring, -⟩ := hf
  cases hact : h.kernel.active <;> cases hv : h.regVdd <;>
    refine ⟨funext fun r => ?_, ?_, nofun, ?_, ?_, nofun⟩ <;>
    simp_all [resumed, powered, setActive, acquireIf, acquire, release, Kernel.acquire,
      Kernel.release]
  all_goals rcases r with _ | _ | _ | _ | (_ | _) | _ | _ | _ | _ | _ <;>
    simp [Phase.held, Ledger.acquire_apply, Ledger.release_apply, hx]

theorem Fits.stop (hf : h.Fits hz .up) : h.closed.Fits hz .down := by
  have hx := hf.held_eq
  obtain ⟨-, horig, -, hvdd, hring, hact⟩ := hf
  cases hc : h.regXceiver <;> refine ⟨funext fun r => ?_, ?_, nofun, ?_, ?_, nofun⟩ <;>
    simp_all [closed, offline, setRing, releaseIf, release, Kernel.release]
  all_goals rcases r with _ | _ | _ | _ | (_ | _) | _ | _ | _ | _ | _ <;>
    simp [Phase.held, Ledger.release_apply, hx]

theorem Fits.suspend (hf : h.Fits hz .down) (hact : h.kernel.active = true) :
    h.suspended.Fits hz .down := by
  have hx := hf.held_eq
  obtain ⟨-, horig, -, hvdd, hring, -⟩ := hf
  cases hv : h.regVdd <;> refine ⟨funext fun r => ?_, ?_, nofun, ?_, ?_, nofun⟩ <;>
    simp_all [suspended, setActive, releaseIf, release, Kernel.release]
  all_goals rcases r with _ | _ | _ | _ | (_ | _) | _ | _ | _ | _ | _ <;>
    simp [Phase.held, Ledger.release_apply, hx]

theorem Fits.setVdd (hf : h.Fits hz .unbound) (vdd : Bool) : (h.setVdd vdd).Fits hz .unbound :=
  ⟨hf.held, hf.hz_eq, hf.inactive, nofun, nofun, nofun⟩

theorem Fits.probe_ok (hf : h.Fits hz .unbound) (vdd xceiver : Bool) (speed : UInt32) :
    ((h.allocated vdd xceiver speed).acquire .offload).registered.Fits hz .down := by
  have hx := hf.held_eq
  obtain ⟨-, horig, hact, -, -, -⟩ := hf
  cases vdd <;> cases xceiver <;> refine ⟨funext fun r => ?_, ?_, nofun, ?_, ?_, nofun⟩ <;>
    simp_all [registered, powered, allocated, setActive, acquireIf, acquire, release,
      Kernel.acquire, Kernel.release]
  all_goals rcases r with _ | _ | _ | _ | (_ | _) | _ | _ | _ | _ | _ <;>
    simp [Phase.held, Ledger.acquire_apply, Ledger.release_apply, hx]

theorem Fits.probe_error (hf : h.Fits hz .unbound) (vdd xceiver : Bool) (speed : UInt32) :
    (h.allocated vdd xceiver speed).freed.Fits hz .unbound := by
  have hx := hf.held_eq
  obtain ⟨-, horig, hact, -, -, -⟩ := hf
  refine ⟨funext fun r => ?_, ?_, ?_, nofun, nofun, nofun⟩ <;>
    simp_all [freed, allocated, release, Kernel.acquire, Kernel.release]
  rcases r with _ | _ | _ | _ | (_ | _) | _ | _ | _ | _ | _ <;> simp [Phase.held]

theorem Fits.remove (hf : h.Fits hz .down) :
    ((h.release .offload).release .registered).resumed.unregistered.freed.Fits hz .unbound := by
  have hx := hf.held_eq
  obtain ⟨-, horig, -, hvdd, hring, -⟩ := hf
  cases hact : h.kernel.active <;> cases hv : h.regVdd <;> cases hc : h.regXceiver <;>
    refine ⟨funext fun r => ?_, ?_, ?_, nofun, nofun, nofun⟩ <;>
    simp_all [freed, unregistered, resumed, powered, setActive, acquireIf, releaseIf, acquire,
      release, Kernel.acquire, Kernel.release]
  all_goals rcases r with _ | _ | _ | _ | (_ | _) | _ | _ | _ | _ | _ <;>
    simp [Phase.held, Ledger.acquire_apply, Ledger.release_apply, hx]

end Holdings
end YoctoLayers.Mcp251xfd
