import YoctoLayers.Lib.Ledger
import YoctoLayers.Mcp251xfd.StartStop

/-! The kernel's side of the driver's calls: which resources the driver holds, and the runtime
power management with the driver's own callbacks. -/
namespace YoctoLayers.Mcp251xfd
open YoctoLayers.Lib DrvM

variable {σ : Type}

inductive Resource
  /-- The network device of `alloc_candev`. -/
  | candev
  /-- The NAPI context of the receive offload. -/
  | offload
  | registered
  | clk
  | supply (supply : Supply)
  /-- A reference of the runtime power management. -/
  | pmRef
  | pmEnabled
  | opened
  | irq
  | offloadEnabled
deriving DecidableEq, Repr

structure Kernel where
  held : Ledger Resource
  /-- The runtime status is `RPM_ACTIVE`, for as long as the power management is enabled. -/
  active : Bool
  /-- The node has a `vdd` supply. -/
  hasVdd : Bool
  /-- How often `regulator_disable` has failed. -/
  failedDisables : ℕ

namespace Kernel

def init : Kernel := ⟨0, false, false, 0⟩

def acquire (k : Kernel) (r : Resource) : Kernel := { k with held := k.held.acquire r }

def release (k : Kernel) (r : Resource) : Kernel := { k with held := k.held.release r }

@[simp] theorem release_acquire (k : Kernel) (r : Resource) : (k.acquire r).release r = k := by
  simp [acquire, release]

/-- What call `c` with result `r` changes. -/
def step (k : Kernel) (c : KernelCall) (r : ℤ) : Kernel :=
  match c with
  | .regulatorGetOptional .vdd => { k with hasVdd := r = 0 }
  | .allocCandev => if r = 0 then k.acquire .candev else k
  | .freeCandev => k.release .candev
  | .rxOffloadAdd => if r = 0 then k.acquire .offload else k
  | .rxOffloadDel => k.release .offload
  | .rxOffloadEnable => k.acquire .offloadEnabled
  | .rxOffloadDisable => k.release .offloadEnabled
  | .clkPrepareEnable => if r = 0 then k.acquire .clk else k
  | .clkDisableUnprepare => k.release .clk
  | .regulatorEnable supply => if r = 0 then k.acquire (.supply supply) else k
  | .regulatorDisable supply =>
    if r = 0 then k.release (.supply supply)
    else { k with failedDisables := k.failedDisables + 1 }
  | .pmRuntimeGetNoresume => k.acquire .pmRef
  | .pmRuntimeSetActive => if r = 0 then { k with active := true } else k
  | .pmRuntimeEnable => k.acquire .pmEnabled
  | .pmRuntimeDisable => { k.release .pmEnabled with active := false }
  | .pmRuntimeGetSync => k.acquire .pmRef
  | .pmRuntimePut => k.release .pmRef
  | .pmRuntimePutNoidle => k.release .pmRef
  | .registerCandev => if r = 0 then k.acquire .registered else k
  | .unregisterCandev => k.release .registered
  | .openCandev => if r = 0 then k.acquire .opened else k
  | .closeCandev => k.release .opened
  | .requestIrq => if r = 0 then k.acquire .irq else k
  | .freeIrq => k.release .irq
  | _ => k

theorem failedDisables_le_step (k : Kernel) (c : KernelCall) (r : ℤ) :
    k.failedDisables ≤ (k.step c r).failedDisables := by
  unfold step
  split
  all_goals try split_ifs
  all_goals simp [acquire, release]

end Kernel

/-- The outside with the kernel's books: the resources, and the allocated blocks of memory. -/
structure Tracked (σ : Type) where
  base : σ
  kernel : Kernel
  mem : ℤ

/-- The blocks of memory after a call. -/
def memStep (m : ℤ) (c : KernelCall) (r : ℤ) : ℤ :=
  match c with
  | .kzalloc => if r = 0 then m + 1 else m
  | .kfree => m - 1
  | _ => m

namespace Env

/-- Every call is entered in the books. -/
def booked (env : Env σ) : Env (Tracked σ) where
  board := env.board
  read reg len s :=
    let (r, t) := env.read reg len s.base
    (r, { s with base := t })
  readCrc reg len s :=
    let (r, t) := env.readCrc reg len s.base
    (r, { s with base := t })
  write reg data s :=
    let (r, t) := env.write reg data s.base
    (r, { s with base := t })
  reset s :=
    let (r, t) := env.reset s.base
    (r, { s with base := t })
  polls reg s :=
    let (r, t) := env.polls reg s.base
    (r, { s with base := t })
  rxPending s :=
    let (r, t) := env.rxPending s.base
    (r, { s with base := t })
  call c s :=
    let (r, t) := env.call c s.base
    (r, { base := t, kernel := s.kernel.step c r, mem := memStep s.mem c r })

/-- `mcp251xfd_runtime_resume`, called by the power management: `mcp251xfd_clks_and_vdd_enable`.
A failure has a negative code. -/
def runtimeResume (env : Env σ) (s : Tracked σ) : ℤ × Tracked σ :=
  let w : World (Tracked σ) :=
    { env := s, priv := { Priv.alloc with regVdd := s.kernel.hasVdd },
      maxSpeedHz := 0, writes := [] }
  match (Orig.driver env.booked).clksAndVddEnable w with
  | .ok _ w => (0, { w.env with kernel := { w.env.kernel with active := true } })
  | .error err w => (min err (-1), w.env)

/-- `pm_runtime_get_sync`: the reference is taken even when it fails, and a suspended device is
resumed. -/
def getSync (env : Env σ) (s : Tracked σ) : ℤ × Tracked σ :=
  let (r, s) := env.booked.call .pmRuntimeGetSync s
  if r < 0 then (r, s)
  else if 0 < s.kernel.held .pmEnabled ∧ !s.kernel.active then env.runtimeResume s
  else (r, s)

/-- The outside of the driver in the kernel. -/
def tracked (env : Env σ) : Env (Tracked σ) :=
  { env.booked with
    call := fun c s => if c = .pmRuntimeGetSync then env.getSync s else env.booked.call c s }

/-- The books change with the calls only; `pm_runtime_get_sync` may do more than one entry. -/
structure Books (env : Env (Tracked σ)) : Prop where
  read : ∀ reg len s, (env.read reg len s).2.kernel = s.kernel ∧ (env.read reg len s).2.mem = s.mem
  readCrc : ∀ reg len s,
    (env.readCrc reg len s).2.kernel = s.kernel ∧ (env.readCrc reg len s).2.mem = s.mem
  write : ∀ reg data s,
    (env.write reg data s).2.kernel = s.kernel ∧ (env.write reg data s).2.mem = s.mem
  reset : ∀ s, (env.reset s).2.kernel = s.kernel ∧ (env.reset s).2.mem = s.mem
  polls : ∀ reg s, (env.polls reg s).2.kernel = s.kernel ∧ (env.polls reg s).2.mem = s.mem
  rxPending : ∀ s, (env.rxPending s).2.kernel = s.kernel ∧ (env.rxPending s).2.mem = s.mem
  call : ∀ c, c ≠ .pmRuntimeGetSync → ∀ s,
    (env.call c s).2.kernel = s.kernel.step c (env.call c s).1 ∧
      (env.call c s).2.mem = memStep s.mem c (env.call c s).1

theorem booked_books (env : Env σ) : env.booked.Books :=
  ⟨fun _ _ _ => ⟨rfl, rfl⟩, fun _ _ _ => ⟨rfl, rfl⟩, fun _ _ _ => ⟨rfl, rfl⟩, fun _ => ⟨rfl, rfl⟩,
    fun _ _ => ⟨rfl, rfl⟩, fun _ => ⟨rfl, rfl⟩, fun _ _ _ => ⟨rfl, rfl⟩⟩

theorem tracked_books (env : Env σ) : env.tracked.Books where
  read := env.booked_books.read
  readCrc := env.booked_books.readCrc
  write := env.booked_books.write
  reset := env.booked_books.reset
  polls := env.booked_books.polls
  rxPending := env.booked_books.rxPending
  call c hc s := by
    simp only [tracked, hc, if_false]
    exact env.booked_books.call c hc s

end Env
end YoctoLayers.Mcp251xfd
