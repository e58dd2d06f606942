import YoctoLayers.Lib.Owners
import YoctoLayers.Sp7021.Controller
import Mathlib.Tactic.Abel

/-! What the driver of the SPI controller holds of the kernel, over all runs. -/
namespace YoctoLayers.Sp7021
open YoctoLayers.Lib

variable {node : SpiNode} {s t : SpiDevice} {n m n' m' : ℕ}

def Devres.resource : Devres → Multiset SpiResource
  | .giveBack r => {r}
  | .assertReset => 0

/-- What the driver has at a call of `sp7021_spi_controller_probe`, next to what devres has. -/
def ProbePc.owns : ProbePc → Multiset SpiResource
  | .alloc => 0
  | .addDisable => {.clkEnabled, .ctlr}
  | .register | .pmDisable _ => {.pmEnabled, .ctlr}
  | _ => {.ctlr}

def LifePc.owns : LifePc → Multiset SpiResource
  | .probe pc => pc.owns
  | .bound | .unregister => {.registered, .pmEnabled, .ctlr}
  | .pmDisable => {.pmEnabled}
  | _ => 0

/-- What is still to be given back. -/
def SpiDevice.owned (s : SpiDevice) : Multiset SpiResource :=
  Owners.total Devres.resource s.devres + s.pc.owns

/-- `sp7021_spi_controller_probe` returns an error with the controller allocated. -/
def SpiDevice.failsTo (s t : SpiDevice) : Bool :=
  match s.pc, t.pc with
  | .probe .alloc, _ => false
  | .probe _, .release _ => true
  | _, _ => false

/-- A resume that enables the clock once more. -/
def SpiLifeEvent.enables : SpiLifeEvent → Bool
  | .resume _ enable => enable = 0
  | _ => false

/-- A resume does not go on with the device in reset. -/
def SpiLifeEvent.wakes : SpiLifeEvent → Bool
  | .resume deassert _ => deassert = 0
  | _ => true

/-! ### The books -/

/-- All that is held is still to be given back, but for `n` controllers and `m` enables. -/
def SpiDevice.Books (s : SpiDevice) (n m : ℕ) : Prop :=
  s.held = s.owned + Multiset.replicate n .ctlr + Multiset.replicate m .clkEnabled

namespace SpiDevice.Books

theorem congr (h : s.Books n m) (hheld : t.held = s.held) (howned : t.owned = s.owned) :
    t.Books n m := by
  unfold Books at h ⊢
  rw [hheld, howned, h]

theorem take {r : SpiResource} (h : s.Books n m) (hheld : t.held = r ::ₘ s.held)
    (howned : t.owned = {r} + s.owned) : t.Books n m := by
  unfold Books at h ⊢
  rw [hheld, howned, h, ← Multiset.singleton_add]
  abel

theorem giveBack {r : SpiResource} (h : s.Books n m) (hheld : t.held = s.held.erase r)
    (howned : s.owned = {r} + t.owned) : t.Books n m := by
  unfold Books at h ⊢
  rw [hheld, h, howned, add_assoc, add_assoc, Multiset.singleton_add, Multiset.erase_cons_head,
    add_assoc]

theorem lose (h : s.Books n m) (hheld : t.held = s.held) (howned : s.owned = {.ctlr} + t.owned) :
    t.Books (n + 1) m := by
  unfold Books at h ⊢
  rw [hheld, h, howned, Multiset.replicate_succ, ← Multiset.singleton_add]
  abel

theorem enable (h : s.Books n m) (hheld : t.held = .clkEnabled ::ₘ s.held)
    (howned : t.owned = s.owned) : t.Books n (m + 1) := by
  unfold Books at h ⊢
  rw [hheld, howned, h, Multiset.replicate_succ, ← Multiset.singleton_add,
    ← Multiset.singleton_add]
  abel

end SpiDevice.Books

/-! ### What devres has -/

def SpiNode.mapped (node : SpiNode) : List Devres :=
  (if node.spiSlave then [.giveBack .sBase] else []) ++
    if node.spiMaster then [.giveBack .mBase] else []

/-- Before a call of `sp7021_spi_controller_probe`. -/
def ProbePc.devres (node : SpiNode) : ProbePc → List Devres
  | .alloc | .ioremapMaster => []
  | .ioremapSlave => if node.spiMaster then [.giveBack .mBase] else []
  | .getMasterIrq | .getSlaveIrq | .clkGet => node.mapped
  | .resetGet => .giveBack .spiClk :: node.mapped
  | .clkEnable | .addDisable => .giveBack .rstc :: .giveBack .spiClk :: node.mapped
  | .deassert | .addAssert =>
    spiDisableUnprepare :: .giveBack .rstc :: .giveBack .spiClk :: node.mapped
  | .requestMasterIrq =>
    spiResetControlAssert :: spiDisableUnprepare :: .giveBack .rstc :: .giveBack .spiClk ::
      node.mapped
  | .requestSlaveIrq =>
    .giveBack .mIrq :: spiResetControlAssert :: spiDisableUnprepare :: .giveBack .rstc ::
      .giveBack .spiClk :: node.mapped
  | .pmEnable | .register | .pmDisable _ =>
    .giveBack .sIrq :: .giveBack .mIrq :: spiResetControlAssert :: spiDisableUnprepare ::
      .giveBack .rstc :: .giveBack .spiClk :: node.mapped

def SpiNode.devres (node : SpiNode) : List Devres := ProbePc.devres node .pmEnable

theorem ProbePc.devres_suffix (pc : ProbePc) : pc.devres node <:+ node.devres := by
  have hmapped : node.mapped <:+ node.devres := ⟨_ :: _ :: _ :: _ :: _ :: [_], rfl⟩
  cases pc with
  | alloc | ioremapMaster => exact List.nil_suffix
  | ioremapSlave => exact (List.suffix_append _ _).trans hmapped
  | getMasterIrq | getSlaveIrq | clkGet => exact hmapped
  | resetGet => exact ⟨_ :: _ :: _ :: _ :: [_], rfl⟩
  | clkEnable | addDisable => exact ⟨_ :: _ :: _ :: [_], rfl⟩
  | deassert | addAssert => exact ⟨_ :: _ :: [_], rfl⟩
  | requestMasterIrq => exact ⟨_ :: [_], rfl⟩
  | requestSlaveIrq => exact ⟨[_], rfl⟩
  | pmEnable | register | pmDisable _ => exact List.suffix_rfl

/-- Between the calls of the driver core: what was taken last is released first. -/
def LifePc.Devres (node : SpiNode) (l : List Devres) : LifePc → Prop
  | .unbound _ => l = []
  | .probe pc => l = pc.devres node
  | .release _ => l <:+ node.devres
  | _ => l = node.devres

/-- `pm_runtime_enable` has been called. -/
def LifePc.managed : LifePc → Bool
  | .unbound _ => false
  | .probe .register | .probe (.pmDisable _) => true
  | .probe _ => false
  | _ => true

namespace SpiDevice

structure Inv (node : SpiNode) (s : SpiDevice) (n m : ℕ) : Prop where
  books : s.Books n m
  devres : s.pc.Devres node s.devres
  busy : s.busy = true → s.visible = true ∧ s.active = true
  asleep : s.asleep = true → s.pc = .bound
  active : s.active = true → s.pc.managed = true

theorem inv_init (node : SpiNode) (reset : Bool) : (init reset).Inv node 0 0 where
  books := rfl
  devres := rfl
  busy := nofun
  asleep := nofun
  active := nofun

theorem add_cons_eq (x : Multiset SpiResource) (r : SpiResource) (y : Multiset SpiResource) :
    x + r ::ₘ y = {r} + (x + y) := by
  rw [Multiset.add_cons, Multiset.singleton_add]

theorem owned_probe {p : ProbePc} (hpc : s.pc = .probe p) :
    s.owned = Owners.total Devres.resource s.devres + p.owns := by
  unfold owned
  rw [hpc]
  rfl

theorem owned_release {e : ℤ} (hpc : s.pc = .release e) :
    s.owned = Owners.total Devres.resource s.devres := by
  unfold owned
  rw [hpc]
  exact add_zero _

variable {pc : ProbePc}

theorem visible_cases (hvisible : s.visible = true) :
    s.pc = .probe .register ∨ s.pc = .bound ∨ s.pc = .unregister := by
  unfold visible at hvisible
  split at hvisible
  · next hpc => exact Or.inl hpc
  · next hpc => exact Or.inr (Or.inl hpc)
  · next hpc => exact Or.inr (Or.inr hpc)
  · cases hvisible

/-- Messages are transferred only where the SPI core knows of the controller. -/
theorem Inv.idle (h : s.Inv node n m)
    (hne : s.pc ≠ .probe .register ∧ s.pc ≠ .bound ∧ s.pc ≠ .unregister) : s.busy = false := by
  by_contra hbusy
  obtain ⟨hvisible, -⟩ := h.busy (Bool.eq_true_of_not_eq_false hbusy)
  rcases visible_cases hvisible with hpc | hpc | hpc
  · exact hne.1 hpc
  · exact hne.2.1 hpc
  · exact hne.2.2 hpc

theorem Inv.awake (h : s.Inv node n m) (hne : s.pc ≠ .bound) : s.asleep = false := by
  by_contra hasleep
  exact hne (h.asleep (Bool.eq_true_of_not_eq_false hasleep))

/-- No message is under way and the system is awake, and it stays so. -/
theorem Inv.quiet (h : s.Inv node n m)
    (hne : s.pc ≠ .probe .register ∧ s.pc ≠ .bound ∧ s.pc ≠ .unregister) (hbooks : t.Books n m)
    (hdevres : t.pc.Devres node t.devres) (hbusy : t.busy = s.busy) (hasleep : t.asleep = s.asleep)
    (hactive : t.active = true → t.pc.managed = true) : t.Inv node n m where
  books := hbooks
  devres := hdevres
  busy hb := by
    rw [hbusy, h.idle hne] at hb
    exact absurd hb Bool.false_ne_true
  asleep ha := by
    rw [hasleep, h.awake hne.2.1] at ha
    exact absurd ha Bool.false_ne_true
  active := hactive

theorem Inv.not_busy (h : s.Inv node n m) (hpc : s.pc = .probe pc) (hne : pc ≠ .register) :
    s.busy = false := by
  refine h.idle ?_
  rw [hpc]
  exact ⟨fun heq => hne (LifePc.probe.inj heq), nofun, nofun⟩

/-- The probe goes on, or ends. -/
theorem Inv.moved (h : s.Inv node n m) (hpc : s.pc = .probe pc) (hbooks : t.Books n' m)
    (hdevres : t.pc.Devres node t.devres) (hbusy : t.busy = s.busy) (hactive : t.active = s.active)
    (hasleep : t.asleep = s.asleep) (hvisible : s.busy = true → t.visible = true)
    (hmanaged : s.pc.managed = true → t.pc.managed = true) : t.Inv node n' m where
  books := hbooks
  devres := hdevres
  busy hb := by
    rw [hbusy] at hb
    rw [hactive]
    exact ⟨hvisible hb, (h.busy hb).2⟩
  asleep ha := by
    rw [hasleep] at ha
    exact absurd (hpc.symm.trans (h.asleep ha)) nofun
  active ha := by
    rw [hactive] at ha
    exact hmanaged (h.active ha)

theorem Inv.next (h : s.Inv node n m) (hpc : s.pc = .probe pc) (hne : pc ≠ .register)
    {q : ProbePc} (ht : t.pc = .probe q) (hbooks : t.Books n m)
    (hdevres : t.devres = q.devres node) (hbusy : t.busy = s.busy)
    (hactive : t.active = s.active) (hasleep : t.asleep = s.asleep)
    (hmanaged : s.pc.managed = true → t.pc.managed = true) : t.Inv node n m := by
  refine h.moved hpc hbooks ?_ hbusy hactive hasleep (fun hb => ?_) hmanaged
  · rw [ht]
    exact hdevres
  · rw [h.not_busy hpc hne] at hb
    exact absurd hb Bool.false_ne_true

theorem failsTo_release (hpc : s.pc = .probe pc) (hne : pc ≠ .alloc) {e : ℤ}
    (ht : t.pc = .release e) : s.failsTo t = true := by
  unfold failsTo
  rw [hpc, ht]
  cases pc with
  | alloc => exact absurd rfl hne
  | _ => rfl

theorem failsTo_probe {p : ProbePc} (ht : t.pc = .probe p) : s.failsTo t = false := by
  unfold failsTo
  rw [ht]
  split
  · rfl
  · next heq => cases heq
  · rfl

theorem failsTo_same (ht : t.pc = s.pc) : s.failsTo t = false := by
  unfold failsTo
  rw [ht]
  cases s.pc with
  | probe pc =>
    cases pc with
    | _ => rfl
  | _ => rfl

/-- The controller is lost, what devres has is not. -/
theorem Inv.fail (h : s.Inv node n m) (hpc : s.pc = .probe pc) (hne : pc ≠ .alloc) {e : ℤ}
    (ht : t.pc = .release e) (hheld : t.held = s.held)
    (howned : s.owned = {.ctlr} + t.owned) (hdevres : t.devres <:+ node.devres)
    (hbusy : s.busy = false) (hbusy' : t.busy = s.busy) (hactive : t.active = s.active)
    (hasleep : t.asleep = s.asleep) :
    t.Inv node (n + if s.failsTo t then 1 else 0) m := by
  rw [failsTo_release hpc hne ht]
  refine h.moved hpc (h.books.lose hheld howned) ?_ hbusy' hactive hasleep (fun hb => ?_)
    fun _ => ?_
  · rw [ht]
    exact hdevres
  · rw [hbusy] at hb
    exact absurd hb Bool.false_ne_true
  · rw [ht]
    rfl

theorem Inv.devm (h : s.Inv node n m) (hpc : s.pc = .probe pc) {q : ProbePc} (ret : ℤ)
    {r : SpiResource} (hne : pc ≠ .alloc ∧ pc ≠ .register) (howns : pc.owns = {.ctlr})
    (howns' : q.owns = {.ctlr}) (hmanaged : (LifePc.probe pc).managed = false)
    (hdevres : q.devres node = .giveBack r :: pc.devres node) :
    (s.devm ret r q).Inv node (n + if s.failsTo (s.devm ret r q) then 1 else 0) m := by
  have hnot := h.not_busy hpc hne.2
  have hlist := h.devres
  have howned := owned_probe hpc
  rw [hpc] at hlist
  rw [howns] at howned
  unfold SpiDevice.devm
  split_ifs with hret hfails hfails
  · have hfail := h.fail hpc hne.1 (t := s.fail ret) (e := ret) rfl rfl ?_ ?_ hnot rfl rfl rfl
    · rwa [if_pos hfails] at hfail
    · rw [howned, owned_release (e := ret) rfl]
      exact add_comm _ _
    · exact hlist ▸ pc.devres_suffix
  · exact absurd (failsTo_release hpc hne.1 (e := ret) rfl) hfails
  · rw [failsTo_probe (p := q) rfl] at hfails
    exact absurd hfails Bool.false_ne_true
  · refine h.next hpc hne.2 (q := q) rfl (h.books.take rfl ?_) ?_ rfl rfl rfl fun hm => ?_
    · rw [howned, owned_probe rfl, howns']
      exact add_assoc _ _ _
    · rw [hdevres]
      exact congrArg _ hlist
    · rw [hpc, hmanaged] at hm
      exact absurd hm Bool.false_ne_true

/-- There is nothing to map. -/
theorem Inv.skip (h : s.Inv node n m) (hpc : s.pc = .probe pc) {q : ProbePc}
    (hne : pc ≠ .alloc ∧ pc ≠ .register) (howns : pc.owns = {.ctlr}) (howns' : q.owns = {.ctlr})
    (hmanaged : (LifePc.probe pc).managed = false) (hdevres : q.devres node = pc.devres node) :
    (s.next q).Inv node (n + if s.failsTo (s.next q) then 1 else 0) m := by
  have hlist := h.devres
  rw [hpc] at hlist
  rw [failsTo_probe (p := q) rfl]
  refine h.next hpc hne.2 (q := q) rfl (h.books.congr rfl ?_) (hlist.trans hdevres.symm) rfl rfl
    rfl fun hm => ?_
  · rw [owned_probe hpc, owned_probe (p := q) rfl, howns, howns']
    rfl
  · rw [hpc, hmanaged] at hm
    exact absurd hm Bool.false_ne_true

theorem Inv.orFail (h : s.Inv node n m) (hpc : s.pc = .probe pc) {q : ProbePc} {c : Prop}
    [Decidable c] (ret : ℤ) (hne : pc ≠ .alloc ∧ pc ≠ .register) (howns : pc.owns = {.ctlr})
    (ht : t.pc = .probe q) (hbooks : t.Books n m) (hdevres : t.devres = q.devres node)
    (hbusy : t.busy = s.busy) (hactive : t.active = s.active) (hasleep : t.asleep = s.asleep)
    (hmanaged : (LifePc.probe pc).managed = false) :
    (if c then s.fail ret else t).Inv node
      (n + if s.failsTo (if c then s.fail ret else t) then 1 else 0) m := by
  have hnot := h.not_busy hpc hne.2
  have hlist := h.devres
  have howned := owned_probe hpc
  rw [hpc] at hlist
  rw [howns] at howned
  by_cases hc : c
  · simp only [if_pos hc]
    refine h.fail hpc hne.1 (e := ret) rfl rfl ?_ ?_ hnot rfl rfl rfl
    · rw [howned, owned_release (e := ret) rfl]
      exact add_comm _ _
    · exact hlist ▸ pc.devres_suffix
  · simp only [if_neg hc]
    rw [failsTo_probe ht]
    refine h.next hpc hne.2 ht hbooks hdevres hbusy hactive hasleep fun hm => ?_
    rw [hpc, hmanaged] at hm
    exact absurd hm Bool.false_ne_true

theorem Inv.addAction (h : s.Inv node n m) (hpc : s.pc = .probe pc) {q : ProbePc} (ret : ℤ)
    {action : Devres} (hne : pc ≠ .alloc ∧ pc ≠ .register)
    (howns : pc.owns = action.resource + {.ctlr}) (howns' : q.owns = {.ctlr})
    (hmanaged : (LifePc.probe pc).managed = false)
    (hdevres : q.devres node = action :: pc.devres node) :
    (s.devmAddActionOrReset ret action q).Inv node
      (n + if s.failsTo (s.devmAddActionOrReset ret action q) then 1 else 0) m := by
  have hnot := h.not_busy hpc hne.2
  have hlist := h.devres
  have howned := owned_probe hpc
  rw [hpc] at hlist
  rw [howns] at howned
  unfold devmAddActionOrReset
  by_cases hret : ret ≠ 0
  · simp only [if_pos hret]
    refine h.fail hpc hne.1 (e := ret) rfl rfl ?_ ?_ hnot rfl rfl rfl
    · rw [howned, owned_release (e := ret) rfl]
      change _ = {.ctlr} + (action.resource + Owners.total Devres.resource s.devres)
      abel
    · change action :: s.devres <:+ _
      rw [hlist, ← hdevres]
      exact q.devres_suffix
  · simp only [if_neg hret]
    rw [failsTo_probe (p := q) rfl]
    refine h.next hpc hne.2 (q := q) rfl (h.books.congr rfl ?_) ?_ rfl rfl rfl fun hm => ?_
    · rw [howned, owned_probe rfl, howns']
      change action.resource + Owners.total Devres.resource s.devres + _ = _
      abel
    · rw [hdevres]
      exact congrArg _ hlist
    · rw [hpc, hmanaged] at hm
      exact absurd hm Bool.false_ne_true

/-- One call of `sp7021_spi_controller_probe`. -/
theorem Inv.probe (h : s.Inv node n m) (hpc : s.pc = .probe pc) {ret : ℤ}
    (hbusy : ret = 0 ∨ s.busy = false) :
    (s.probeNext node ret pc).Inv node
      (n + if s.failsTo (s.probeNext node ret pc) then 1 else 0) m := by
  have hlist := h.devres
  have howned := owned_probe hpc
  rw [hpc] at hlist
  cases pc with
  | alloc =>
    have hnot := h.not_busy hpc nofun
    have hno (t : SpiDevice) : s.failsTo t = false := by
      unfold failsTo
      rw [hpc]
    rw [hno, if_neg Bool.false_ne_true, Nat.add_zero]
    have hmanaged : s.pc.managed ≠ true := by
      rw [hpc]
      exact Bool.false_ne_true
    by_cases hret : ret ≠ 0
    · have heq : s.probeNext node ret .alloc = s.fail (-enomem) := if_pos hret
      rw [heq]
      refine h.moved hpc (h.books.congr rfl ?_) ?_ rfl rfl rfl (fun hb => ?_)
        fun hm => absurd hm hmanaged
      · rw [howned, owned_release (e := -enomem) rfl]
        exact (add_zero _).symm
      · change s.devres <:+ _
        rw [hlist]
        exact List.nil_suffix
      · rw [hnot] at hb
        exact absurd hb Bool.false_ne_true
    · have heq : s.probeNext node ret .alloc = (s.take .ctlr).next .ioremapMaster := if_neg hret
      rw [heq]
      refine h.next hpc nofun (q := .ioremapMaster) rfl (h.books.take rfl ?_) hlist rfl rfl rfl
        fun hm => absurd hm hmanaged
      rw [howned, owned_probe (p := .ioremapMaster) rfl]
      exact (add_comm _ _).trans (congrArg _ (add_zero _).symm)
  | ioremapMaster =>
    by_cases hres : node.spiMaster = true
    · have heq : s.probeNext node ret .ioremapMaster = s.devm ret .mBase .ioremapSlave :=
        if_pos hres
      rw [heq]
      exact h.devm hpc ret ⟨nofun, nofun⟩ rfl rfl rfl (if_pos hres)
    · have heq : s.probeNext node ret .ioremapMaster = s.next .ioremapSlave := if_neg hres
      rw [heq]
      exact h.skip hpc ⟨nofun, nofun⟩ rfl rfl rfl (if_neg hres)
  | ioremapSlave =>
    by_cases hres : node.spiSlave = true
    · have heq : s.probeNext node ret .ioremapSlave = s.devm ret .sBase .getMasterIrq :=
        if_pos hres
      rw [heq]
      refine h.devm hpc ret ⟨nofun, nofun⟩ rfl rfl rfl ?_
      unfold ProbePc.devres SpiNode.mapped
      rw [if_pos hres]
      rfl
    · have heq : s.probeNext node ret .ioremapSlave = s.next .getMasterIrq := if_neg hres
      rw [heq]
      refine h.skip hpc ⟨nofun, nofun⟩ rfl rfl rfl ?_
      unfold ProbePc.devres SpiNode.mapped
      rw [if_neg hres]
      rfl
  | getMasterIrq =>
    exact h.orFail hpc ret (q := .getSlaveIrq) ⟨nofun, nofun⟩ rfl rfl
      (h.books.congr rfl (howned.trans rfl).symm) hlist rfl rfl rfl rfl
  | getSlaveIrq =>
    exact h.orFail hpc ret (q := .clkGet) ⟨nofun, nofun⟩ rfl rfl
      (h.books.congr rfl (howned.trans rfl).symm) hlist rfl rfl rfl rfl
  | clkGet => exact h.devm hpc ret (q := .resetGet) ⟨nofun, nofun⟩ rfl rfl rfl rfl
  | resetGet => exact h.devm hpc ret (q := .clkEnable) ⟨nofun, nofun⟩ rfl rfl rfl rfl
  | clkEnable =>
    refine h.orFail hpc ret (q := .addDisable) ⟨nofun, nofun⟩ rfl rfl (h.books.take rfl ?_) hlist
      rfl rfl rfl rfl
    rw [howned, owned_probe (p := .addDisable) rfl]
    exact add_cons_eq _ .clkEnabled {.ctlr}
  | addDisable =>
    exact h.addAction hpc ret (q := .deassert) ⟨nofun, nofun⟩ rfl rfl rfl rfl
  | deassert =>
    exact h.orFail hpc ret (q := .addAssert) ⟨nofun, nofun⟩ rfl rfl
      (h.books.congr rfl (howned.trans rfl).symm) hlist rfl rfl rfl rfl
  | addAssert =>
    exact h.addAction hpc ret (q := .requestMasterIrq) ⟨nofun, nofun⟩ (zero_add _).symm rfl rfl
      rfl
  | requestMasterIrq =>
    exact h.devm hpc ret (q := .requestSlaveIrq) ⟨nofun, nofun⟩ rfl rfl rfl rfl
  | requestSlaveIrq => exact h.devm hpc ret (q := .pmEnable) ⟨nofun, nofun⟩ rfl rfl rfl rfl
  | pmEnable =>
    have hno : s.failsTo ((s.take .pmEnabled).next .register) = false :=
      failsTo_probe (p := .register) rfl
    change (SpiDevice.next _ _).Inv node (n + if s.failsTo (SpiDevice.next _ _) then 1 else 0) m
    rw [hno, if_neg Bool.false_ne_true, Nat.add_zero]
    refine h.next hpc nofun (q := .register) rfl (h.books.take rfl ?_) hlist rfl rfl rfl
      fun _ => rfl
    rw [howned, owned_probe (p := .register) rfl]
    exact add_cons_eq _ .pmEnabled {.ctlr}
  | register =>
    by_cases hret : ret ≠ 0
    · have heq : s.probeNext node ret .register = s.next (.pmDisable ret) := if_pos hret
      rw [heq, failsTo_probe (p := .pmDisable ret) rfl, if_neg Bool.false_ne_true, Nat.add_zero]
      refine h.moved hpc (h.books.congr rfl ?_) hlist rfl rfl rfl (fun hb => ?_) fun _ => rfl
      · rw [howned, owned_probe (p := .pmDisable ret) rfl]
        rfl
      · rw [hbusy.resolve_left hret] at hb
        exact absurd hb Bool.false_ne_true
    · have heq : s.probeNext node ret .register = { s.take .registered with pc := .bound } :=
        if_neg hret
      have hno : s.failsTo { s.take .registered with pc := .bound } = false := by
        unfold failsTo
        rw [hpc]
      rw [heq, hno, if_neg Bool.false_ne_true, Nat.add_zero]
      refine h.moved hpc (h.books.take rfl ?_) hlist rfl rfl rfl (fun _ => rfl) fun _ => rfl
      rw [howned]
      exact add_cons_eq _ .registered {.pmEnabled, .ctlr}
  | pmDisable err =>
    have hnot := h.not_busy hpc nofun
    change (SpiDevice.fail _ _).Inv node (n + if s.failsTo (SpiDevice.fail _ _) then 1 else 0) m
    rw [failsTo_release hpc nofun (e := err) rfl]
    have hbooks : ((s.giveBack .pmEnabled).next .pmEnable).Books n m := by
      refine h.books.giveBack rfl ?_
      rw [howned, owned_probe (p := .pmEnable) rfl]
      exact add_cons_eq _ .pmEnabled {.ctlr}
    refine h.moved hpc (hbooks.lose rfl ?_) ?_ rfl rfl rfl (fun hb => ?_) fun _ => rfl
    · rw [owned_probe (p := .pmEnable) rfl, owned_release (e := err) rfl]
      exact add_comm _ _
    · change s.devres <:+ _
      rw [hlist]
      exact List.suffix_rfl
    · rw [hnot] at hb
      exact absurd hb Bool.false_ne_true

theorem Inv.devres_suffix (h : s.Inv node n m) : s.devres <:+ node.devres := by
  have hlist := h.devres
  cases hpc : s.pc with
  | unbound ret =>
    rw [hpc] at hlist
    exact hlist ▸ List.nil_suffix
  | probe pc =>
    rw [hpc] at hlist
    exact hlist ▸ pc.devres_suffix
  | release ret =>
    rw [hpc] at hlist
    exact hlist
  | bound | unregister | pmDisable | setSuspended =>
    rw [hpc] at hlist
    exact hlist ▸ List.suffix_rfl

theorem not_pmEnabled : ∀ d ∈ node.devres, SpiResource.pmEnabled ∉ d.resource := by
  obtain ⟨master, slave⟩ := node
  cases master <;> cases slave <;> decide

theorem Inv.managed_of_held (h : s.Inv node n m) (hpm : .pmEnabled ∈ s.held) :
    s.pc.managed = true := by
  have hheld : s.held = s.owned + Multiset.replicate n .ctlr +
      Multiset.replicate m .clkEnabled := h.books
  rw [hheld] at hpm
  rcases Multiset.mem_add.mp hpm with hpm | hclk
  · rcases Multiset.mem_add.mp hpm with howned | hctlr
    · rcases Multiset.mem_add.mp howned with htotal | howns
      · obtain ⟨d, hd, hr⟩ := Owners.exists_of_mem_total htotal
        exact absurd hr (not_pmEnabled d (h.devres_suffix.subset hd))
      · cases hpc : s.pc with
        | unbound ret =>
          rw [hpc] at howns
          exact absurd howns (Multiset.notMem_zero _)
        | probe pc =>
          rw [hpc] at howns
          cases pc with
          | register | pmDisable _ => rfl
          | _ => exact absurd howns (by decide)
        | _ => rfl
    · cases Multiset.eq_of_mem_replicate hctlr
  · cases Multiset.eq_of_mem_replicate hclk

/-- What the SPI core, the power management and system sleep change. -/
theorem Inv.flags (h : s.Inv node n m) (hbooks : t.Books n' m') (hpc : t.pc = s.pc)
    (hdevres : t.devres = s.devres) (hbusy : t.busy = true → s.visible = true ∧ t.active = true)
    (hasleep : t.asleep = true → s.pc = .bound)
    (hactive : t.active = true → s.pc.managed = true) : t.Inv node n' m' where
  books := hbooks
  devres := by
    rw [hpc, hdevres]
    exact h.devres
  busy hb := by
    unfold visible at hbusy ⊢
    rw [hpc]
    exact hbusy hb
  asleep ha := hpc.trans (hasleep ha)
  active ha := by
    rw [hpc]
    exact hactive ha

/-- The driver core releases one entry. -/
theorem Inv.undo (h : s.Inv node n m) {err : ℤ} (hpc : s.pc = .release err) {d : Devres}
    {rest : List Devres} (hlist : s.devres = d :: rest) (ret : ℤ) :
    ({ s with devres := rest }.undo ret d).Inv node n m := by
  have hsuffix : rest <:+ node.devres := by
    have hall := h.devres_suffix
    rw [hlist] at hall
    exact (List.suffix_cons d rest).trans hall
  have howned := owned_release hpc
  rw [hlist] at howned
  have hrest (u : SpiDevice) (hu : u.pc = s.pc) (hd : u.devres = rest) (hb : u.busy = s.busy)
      (ha : u.asleep = s.asleep) (hbooks : u.Books n m) : u.Inv node n m := by
    refine h.quiet (by rw [hpc]; exact ⟨nofun, nofun, nofun⟩) hbooks ?_ hb ha fun _ => ?_
    · rw [hu, hpc, hd]
      exact hsuffix
    · rw [hu, hpc]
      rfl
  have hleft (u : SpiDevice) (hu : u.pc = s.pc) (hd : u.devres = rest) :
      s.owned = d.resource + u.owned := by
    rw [howned, owned_release (hu.trans hpc), hd]
    rfl
  cases d with
  | giveBack r => exact hrest _ rfl rfl rfl rfl (h.books.giveBack rfl (hleft _ rfl rfl))
  | assertReset =>
    have hsame (u : SpiDevice) (hu : u.pc = s.pc) (hd : u.devres = rest) : u.owned = s.owned :=
      ((hleft u hu hd).trans (zero_add _)).symm
    unfold SpiDevice.undo
    split_ifs
    · exact hrest _ rfl rfl rfl rfl (h.books.congr rfl (hsame _ rfl rfl))
    · exact hrest _ rfl rfl rfl rfl (h.books.congr rfl (hsame _ rfl rfl))

/-- The driver core has released everything. -/
theorem Inv.released (h : s.Inv node n m) {err : ℤ} (hpc : s.pc = .release err)
    (hnil : s.devres = []) :
    ({ s with active := false, pc := .unbound err } : SpiDevice).Inv node n m := by
  refine h.quiet (by rw [hpc]; exact ⟨nofun, nofun, nofun⟩) (h.books.congr rfl ?_) hnil rfl rfl
    nofun
  unfold owned
  rw [hpc]
  rfl

/-- The driver core begins with a probe. -/
theorem Inv.bind (h : s.Inv node n m) {ret : ℤ} (hpc : s.pc = .unbound ret) :
    (s.next .alloc).Inv node n m := by
  have hlist := h.devres
  have hactive := h.active
  rw [hpc] at hlist hactive
  refine h.quiet (by rw [hpc]; exact ⟨nofun, nofun, nofun⟩) (h.books.congr rfl ?_) hlist rfl rfl
    fun ha => absurd (hactive ha) Bool.false_ne_true
  unfold owned
  rw [hpc]
  rfl

theorem Inv.unbind (h : s.Inv node n m) (hpc : s.pc = .bound) (hawake : ¬ s.asleep = true) :
    ({ s with pc := .unregister } : SpiDevice).Inv node n m := by
  have hlist := h.devres
  rw [hpc] at hlist
  refine ⟨h.books.congr rfl ?_, hlist, fun hb => ⟨rfl, (h.busy hb).2⟩,
    fun ha => absurd ha hawake, fun _ => rfl⟩
  unfold owned
  rw [hpc]
  rfl

/-- `spi_unregister_controller`, once the last message is done. -/
theorem Inv.unregister (h : s.Inv node n m) (hpc : s.pc = .unregister) (hbusy : ¬ s.busy = true) :
    ({ (s.giveBack .registered).giveBack .ctlr with pc := .pmDisable } : SpiDevice).Inv
      node n m := by
  have hlist := h.devres
  have howned : s.owned = Owners.total Devres.resource s.devres + s.pc.owns := rfl
  have hawake : s.asleep = false := h.awake (by rw [hpc]; nofun)
  rw [hpc] at hlist howned
  have hbooks : { s.giveBack .registered with pc := .probe .register }.Books n m :=
    h.books.giveBack rfl (howned.trans (add_cons_eq _ .registered {.pmEnabled, .ctlr}))
  refine ⟨hbooks.giveBack rfl ?_, hlist, fun hb => absurd hb hbusy, fun ha => ?_, fun _ => rfl⟩
  · change Owners.total Devres.resource s.devres + {.pmEnabled, .ctlr} = _
    rw [Multiset.pair_comm]
    exact add_cons_eq _ .ctlr {.pmEnabled}
  · exact absurd (hawake.symm.trans ha) Bool.false_ne_true

/-- `pm_runtime_disable`. -/
theorem Inv.pmDisable (h : s.Inv node n m) (hpc : s.pc = .pmDisable) :
    ({ s.giveBack .pmEnabled with pc := .setSuspended } : SpiDevice).Inv node n m := by
  have hlist := h.devres
  have howned : s.owned = Owners.total Devres.resource s.devres + s.pc.owns := rfl
  rw [hpc] at hlist howned
  have hbooks := howned.trans (add_cons_eq _ .pmEnabled 0)
  exact h.quiet (by rw [hpc]; exact ⟨nofun, nofun, nofun⟩) (h.books.giveBack rfl hbooks) hlist rfl
    rfl fun _ => rfl

/-- `pm_runtime_set_suspended`; the rest is for devres. -/
theorem Inv.setSuspended (h : s.Inv node n m) (hpc : s.pc = .setSuspended) :
    ({ s with active := false, pc := .release 0 } : SpiDevice).Inv node n m := by
  have hlist := h.devres
  have howned : s.owned = Owners.total Devres.resource s.devres + s.pc.owns := rfl
  rw [hpc] at hlist howned
  exact h.quiet (by rw [hpc]; exact ⟨nofun, nofun, nofun⟩) (h.books.congr rfl howned.symm)
    (hlist ▸ List.suffix_rfl) rfl rfl nofun

/-- One call of `sp7021_spi_controller_remove`. -/
theorem Inv.remove (h : s.Inv node n m) (ht : s.step node .remove = some t) : t.Inv node n m := by
  simp only [SpiDevice.step] at ht
  split at ht
  · next hpc =>
    split_ifs at ht with hbusy
    obtain rfl := Option.some.inj ht
    exact h.unregister hpc hbusy
  · next hpc =>
    obtain rfl := Option.some.inj ht
    exact h.pmDisable hpc
  · next hpc =>
    obtain rfl := Option.some.inj ht
    exact h.setSuspended hpc
  · cases ht

/-- One release by the driver core. -/
theorem Inv.release (h : s.Inv node n m) {ret : ℤ} (ht : s.step node (.release ret) = some t) :
    t.Inv node n m := by
  simp only [SpiDevice.step] at ht
  split at ht
  · next err hpc =>
    split at ht
    · next hnil =>
      obtain rfl := Option.some.inj ht
      exact h.released hpc hnil
    · next d rest hlist =>
      obtain rfl := Option.some.inj ht
      exact h.undo hpc hlist ret
  · cases ht

/-- Runtime power management. -/
theorem Inv.runtime (h : s.Inv node n m) {e : SpiLifeEvent} {ret : ℤ}
    (he : e = .runtimeSuspend ret ∨ e = .runtimeResume ret) (ht : s.step node e = some t) :
    t.pc = s.pc ∧ t.Inv node n m := by
  rcases he with rfl | rfl
  · simp only [SpiDevice.step] at ht
    split_ifs at ht with hok hret
    · obtain rfl := Option.some.inj ht
      exact ⟨rfl, h.flags (h.books.congr rfl rfl) rfl rfl (fun hb => absurd hb hok.2.2) h.asleep
        nofun⟩
    · obtain rfl := Option.some.inj ht
      exact ⟨rfl, h⟩
  · simp only [SpiDevice.step] at ht
    split_ifs at ht with hok hret
    · obtain rfl := Option.some.inj ht
      exact ⟨rfl, h.flags (h.books.congr rfl rfl) rfl rfl
        (fun hb => absurd (h.busy hb).2 hok.2) h.asleep fun _ => h.managed_of_held hok.1⟩
    · obtain rfl := Option.some.inj ht
      exact ⟨rfl, h⟩

theorem Inv.suspend (h : s.Inv node n m) {ret : ℤ} (ht : s.step node (.suspend ret) = some t) :
    t.pc = s.pc ∧ t.Inv node n m := by
  simp only [SpiDevice.step] at ht
  split_ifs at ht with hok hret
  · obtain rfl := Option.some.inj ht
    exact ⟨rfl, h.flags (h.books.congr rfl rfl) rfl rfl h.busy (fun _ => hok.1) h.active⟩
  · obtain rfl := Option.some.inj ht
    exact ⟨rfl, h⟩

/-- `sp7021_spi_controller_resume` may enable the clock once more. -/
theorem Inv.resume (h : s.Inv node n m) {deassert enable : ℤ}
    (ht : s.step node (.resume deassert enable) = some t) :
    t.pc = s.pc ∧
      t.Inv node n (m + if (SpiLifeEvent.resume deassert enable).enables then 1 else 0) := by
  by_cases hen : enable = 0
  · have hone : (SpiLifeEvent.resume deassert enable).enables = true := decide_eq_true hen
    rw [hone]
    simp only [SpiDevice.step, if_pos hen] at ht
    split_ifs at ht with hasleep hde
    · obtain rfl := Option.some.inj ht
      exact ⟨rfl, h.flags (h.books.enable rfl rfl) rfl rfl h.busy nofun h.active⟩
    · obtain rfl := Option.some.inj ht
      exact ⟨rfl, h.flags (h.books.enable rfl rfl) rfl rfl h.busy nofun h.active⟩
  · have hnone : (SpiLifeEvent.resume deassert enable).enables = false := decide_eq_false hen
    rw [hnone]
    simp only [SpiDevice.step, if_neg hen] at ht
    split_ifs at ht with hasleep hde
    · obtain rfl := Option.some.inj ht
      exact ⟨rfl, h.flags (h.books.congr rfl rfl) rfl rfl h.busy nofun h.active⟩
    · obtain rfl := Option.some.inj ht
      exact ⟨rfl, h.flags (h.books.congr rfl rfl) rfl rfl h.busy nofun h.active⟩

/-- Messages come and go. -/
theorem Inv.messages (h : s.Inv node n m) {e : SpiLifeEvent} (he : e = .message ∨ e = .messageDone)
    (ht : s.step node e = some t) : t.pc = s.pc ∧ t.Inv node n m := by
  rcases he with rfl | rfl
  · simp only [SpiDevice.step] at ht
    split_ifs at ht with hok
    obtain rfl := Option.some.inj ht
    simp only [Bool.and_eq_true] at hok
    exact ⟨rfl, h.flags (h.books.congr rfl rfl) rfl rfl (fun _ => hok.1) h.asleep h.active⟩
  · simp only [SpiDevice.step] at ht
    split_ifs at ht with hok
    obtain rfl := Option.some.inj ht
    exact ⟨rfl, h.flags (h.books.congr rfl rfl) rfl rfl nofun h.asleep h.active⟩

theorem failsTo_of_not_probe (hne : ∀ pc, s.pc ≠ .probe pc) : s.failsTo t = false := by
  unfold failsTo
  split
  · rfl
  · next heq _ => exact absurd heq (hne _)
  · rfl

theorem Inv.step {e : SpiLifeEvent} (h : s.Inv node n m) (ht : s.step node e = some t) :
    t.Inv node (n + if s.failsTo t then 1 else 0) (m + if e.enables then 1 else 0) := by
  have hkeeps {m' : ℕ} (hsame : t.pc = s.pc ∧ t.Inv node n m') :
      t.Inv node (n + if s.failsTo t then 1 else 0) m' := by
    rw [failsTo_same hsame.1]
    exact hsame.2
  have hstays (hne : ∀ pc, s.pc ≠ .probe pc) (hinv : t.Inv node n m) :
      t.Inv node (n + if s.failsTo t then 1 else 0) m := by
    rw [failsTo_of_not_probe hne]
    exact hinv
  cases e with
  | bind =>
    simp only [SpiDevice.step] at ht
    split at ht
    · next ret hpc =>
      obtain rfl := Option.some.inj ht
      exact hstays (by rw [hpc]; nofun) (h.bind hpc)
    · cases ht
  | probe ret =>
    simp only [SpiDevice.step] at ht
    split at ht
    · next pc hpc =>
      split_ifs at ht with hok
      obtain rfl := Option.some.inj ht
      exact h.probe hpc hok.2
    · cases ht
  | unbind =>
    simp only [SpiDevice.step] at ht
    split at ht
    · next hpc =>
      split_ifs at ht with hasleep
      obtain rfl := Option.some.inj ht
      exact hstays (by rw [hpc]; nofun) (h.unbind hpc hasleep)
    · cases ht
  | remove =>
    refine hstays (fun pc hpc => ?_) (h.remove ht)
    simp only [SpiDevice.step, hpc] at ht
    cases ht
  | release ret =>
    refine hstays (fun pc hpc => ?_) (h.release ht)
    simp only [SpiDevice.step, hpc] at ht
    cases ht
  | message => exact hkeeps (h.messages (Or.inl rfl) ht)
  | messageDone => exact hkeeps (h.messages (Or.inr rfl) ht)
  | runtimeSuspend ret => exact hkeeps (h.runtime (Or.inl rfl) ht)
  | runtimeResume ret => exact hkeeps (h.runtime (Or.inr rfl) ht)
  | suspend ret => exact hkeeps (h.suspend ht)
  | resume deassert enable => exact hkeeps (h.resume ht)

/-- It is out of reset where a message may be transferred. -/
def Awake (s : SpiDevice) : Prop :=
  s.visible = true → s.active = true → s.asleep = false → s.reset = false

theorem probeNext_visible {ret : ℤ} (hvisible : (s.probeNext node ret pc).visible = true) :
    pc = .pmEnable ∨ pc = .register := by
  cases pc with
  | pmEnable => exact Or.inl rfl
  | register => exact Or.inr rfl
  | pmDisable err => cases hvisible
  | _ =>
    exfalso
    simp only [probeNext, devm, devmAddActionOrReset] at hvisible
    split_ifs at hvisible <;> cases hvisible

theorem probeNext_register (node : SpiNode) (s : SpiDevice) (ret : ℤ) :
    ∃ pc held, s.probeNext node ret .register = { s with pc := pc, held := held } := by
  by_cases hret : ret ≠ 0
  · exact ⟨_, _, if_pos hret⟩
  · exact ⟨_, _, if_neg hret⟩

theorem Awake.congr (ha : s.Awake) (hvisible : t.visible = true → s.visible = true)
    (hactive : t.active = true → s.active = true) (hasleep : t.asleep = false → s.asleep = false)
    (hreset : t.reset = s.reset) : t.Awake :=
  fun hv hac has => hreset.trans (ha (hvisible hv) (hactive hac) (hasleep has))

theorem Awake.step {e : SpiLifeEvent} (h : s.Inv node n m) (ha : s.Awake)
    (hwakes : e.wakes = true) (ht : s.step node e = some t) : t.Awake := by
  cases e with
  | bind =>
    simp only [SpiDevice.step] at ht
    split at ht
    · obtain rfl := Option.some.inj ht
      exact nofun
    · cases ht
  | probe ret =>
    simp only [SpiDevice.step] at ht
    split at ht
    · next pc hpc =>
      split_ifs at ht
      obtain rfl := Option.some.inj ht
      intro hvisible hactive hasleep
      rcases probeNext_visible hvisible with rfl | rfl
      · have hmanaged := h.active hactive
        rw [hpc] at hmanaged
        exact absurd hmanaged Bool.false_ne_true
      · have hv : s.visible = true := by
          unfold visible
          rw [hpc]
        obtain ⟨q, held, heq⟩ := s.probeNext_register node ret
        rw [heq] at hactive hasleep ⊢
        exact ha hv hactive hasleep
    · cases ht
  | unbind =>
    simp only [SpiDevice.step] at ht
    split at ht
    · next hpc =>
      split_ifs at ht
      obtain rfl := Option.some.inj ht
      refine ha.congr (fun _ => ?_) id id rfl
      unfold visible
      rw [hpc]
    · cases ht
  | remove =>
    simp only [SpiDevice.step] at ht
    split at ht
    · split_ifs at ht
      obtain rfl := Option.some.inj ht
      exact nofun
    · obtain rfl := Option.some.inj ht
      exact nofun
    · obtain rfl := Option.some.inj ht
      exact nofun
    · cases ht
  | release ret =>
    simp only [SpiDevice.step] at ht
    split at ht
    · next err hpc =>
      have hgone (u : SpiDevice) (hu : u.pc = s.pc) : u.Awake := fun hv => by
        unfold visible at hv
        rw [hu, hpc] at hv
        cases hv
      split at ht
      · obtain rfl := Option.some.inj ht
        exact nofun
      · next d rest hlist =>
        obtain rfl := Option.some.inj ht
        cases d with
        | giveBack r => exact hgone _ rfl
        | assertReset =>
          unfold SpiDevice.undo
          split_ifs
          · exact hgone _ rfl
          · exact hgone _ rfl
    · cases ht
  | message | messageDone =>
    simp only [SpiDevice.step] at ht
    split_ifs at ht
    obtain rfl := Option.some.inj ht
    exact ha
  | runtimeSuspend ret =>
    simp only [SpiDevice.step] at ht
    split_ifs at ht
    · obtain rfl := Option.some.inj ht
      exact fun _ => nofun
    · obtain rfl := Option.some.inj ht
      exact ha
  | runtimeResume ret =>
    simp only [SpiDevice.step] at ht
    split_ifs at ht
    · obtain rfl := Option.some.inj ht
      exact fun _ _ _ => rfl
    · obtain rfl := Option.some.inj ht
      exact ha
  | suspend ret =>
    simp only [SpiDevice.step] at ht
    split_ifs at ht
    · obtain rfl := Option.some.inj ht
      exact fun _ _ => nofun
    · obtain rfl := Option.some.inj ht
      exact ha
  | resume deassert enable =>
    obtain rfl : deassert = 0 := of_decide_eq_true hwakes
    simp only [SpiDevice.step, if_true] at ht
    split_ifs at ht
    · obtain rfl := Option.some.inj ht
      exact fun _ _ _ => rfl
    · obtain rfl := Option.some.inj ht
      exact fun _ _ _ => rfl

theorem mem_devres {r : SpiResource} (howned : r ∈ s.owned) (howns : ∀ pc : LifePc, r ∉ pc.owns) :
    .giveBack r ∈ s.devres := by
  rcases Multiset.mem_add.mp howned with htotal | hpc
  · obtain ⟨d, hd, hr⟩ := Owners.exists_of_mem_total htotal
    cases d with
    | giveBack r' => rwa [Multiset.mem_singleton.mp hr]
    | assertReset => exact absurd hr (Multiset.notMem_zero r)
  · exact absurd hpc (howns _)

theorem irq_not_owns (pc : LifePc) : .mIrq ∉ pc.owns ∧ .sIrq ∉ pc.owns := by
  cases pc with
  | probe pc => cases pc <;> simp [LifePc.owns, ProbePc.owns]
  | _ => simp [LifePc.owns]

/-- What the device needs to be used. -/
theorem Inv.powered (h : s.Inv node n m) (hirq : .mIrq ∈ s.owned ∨ .sIrq ∈ s.owned) :
    ProbePc.devres node .requestMasterIrq <:+ s.devres := by
  have hbase : ProbePc.devres node .requestMasterIrq <:+ node.devres :=
    ProbePc.devres_suffix .requestMasterIrq
  have hno : .giveBack .mIrq ∉ ProbePc.devres node .requestMasterIrq ∧
      .giveBack .sIrq ∉ ProbePc.devres node .requestMasterIrq := by
    obtain ⟨master, slave⟩ := node
    cases master <;> cases slave <;> decide
  rcases List.suffix_or_suffix_of_suffix h.devres_suffix hbase with hshort | hlong
  · rcases hirq with hm | hs
    · have hmem := mem_devres hm fun pc => (irq_not_owns pc).1
      exact absurd (hshort.subset hmem) hno.1
    · have hmem := mem_devres hs fun pc => (irq_not_owns pc).2
      exact absurd (hshort.subset hmem) hno.2
  · exact hlong

end SpiDevice

namespace Bench

end Bench

end YoctoLayers.Sp7021
