import YoctoLayers.Lib.Wrap

/-! `rootfs_run` of the initramfs: the loop that waits for the root file system, and the repair in
it. -/
namespace YoctoLayers.Initramfs
open YoctoLayers.Lib

/-- The parameters of the loop: `bootparam_rootdelay` and `bootparam_roottimeout`, where they are
given. -/
structure BootParams where
  rootdelay : Option ℤ
  roottimeout : Option ℤ
deriving DecidableEq, Repr

def BootParams.delay (p : BootParams) : ℤ := p.rootdelay.getD 1

def BootParams.timeout (p : BootParams) : ℤ := p.roottimeout.getD 5

/-- What one iteration meets. -/
structure Boot where
  /-- What is mounted has a `/dev` when the condition of the loop is tested. -/
  devBefore : Bool
  /-- `[ -e "$bootparam_root" ]` -/
  present : Bool
  /-- The exit status of `mount`. -/
  mount : ℕ
  /-- What is mounted then has a `/dev`. -/
  dev : Bool
  /-- `umount` works. -/
  umount : Bool
deriving DecidableEq, Repr

/-- The variables `C`, `x` and `bootparam_root`, and the number of file systems mounted on
`ROOTFS_DIR`. -/
structure RootfsState where
  c : ℤ
  x : Option ℕ
  root : List Char
  mounts : ℕ
deriving DecidableEq, Repr

/-- The programs run, `e2fsck` with what is mounted meanwhile. -/
inductive RootfsCmd
  | mount (device : List Char) (status : ℕ)
  | umount
  | e2fsck (device : List Char) (mounts : ℕ)
deriving DecidableEq, Repr

inductive RootfsExit
  /-- The loop is left with `/dev` below `ROOTFS_DIR`. -/
  | root (s : RootfsState)
  | fatal
deriving DecidableEq, Repr

/-- `cut -c1-n` and `cut -c(n+1)-` around a comparison. -/
def cutPrefix (word dir root : List Char) : List Char :=
  if root.take word.length = word then dir ++ root.drop word.length else root

/-- `bootparam_root` when it is tested for. -/
def rootDevice (root : List Char) : List Char :=
  let root := cutPrefix "UUID=".toList "/dev/disk/by-uuid/".toList root
  let root := cutPrefix "PARTUUID=".toList "/dev/disk/by-partuuid/".toList root
  let root := cutPrefix "PARTLABEL=".toList "/dev/disk/by-partlabel/".toList root
  let root := cutPrefix "PARTLABEL=".toList "/dev/disk/by-partlabel/".toList root
  cutPrefix "LABEL=".toList "/dev/disk/by-label/".toList root

/-- `[ 0 -ne $x ]`, which is an error, and so false, while `x` is not set. -/
def testNe : Option ℕ → Bool
  | none => false
  | some x => x ≠ 0

/-- The repair at the end of an iteration. -/
def repair (s : RootfsState) : List RootfsCmd :=
  if testNe s.x then [.e2fsck s.root s.mounts] else []

/-- `C=$(( $C + 1 ))` -/
def RootfsState.next (w : ℕ) (s : RootfsState) : RootfsState := { s with c := wrap w (s.c + 1) }

/-- The state in which `bootparam_root` is a device. -/
def RootfsState.named (s : RootfsState) : RootfsState := { s with root := rootDevice s.root }

/-- The state after `mount`. -/
def RootfsState.mounted (b : Boot) (s : RootfsState) : RootfsState :=
  { s with x := some b.mount, mounts := if b.mount = 0 then s.mounts + 1 else s.mounts }

/-- The state after `umount`. -/
def RootfsState.umounted (b : Boot) (s : RootfsState) : RootfsState :=
  { s with mounts := if b.umount then s.mounts - 1 else s.mounts }

/-- The attempt to mount a device that is present. -/
def mountRoot (b : Boot) (s : RootfsState) : List RootfsCmd × Except RootfsExit RootfsState :=
  let s := s.mounted b
  if 0 < s.mounts ∧ b.dev then ([.mount s.root b.mount], .error (.root s))
  else ([.mount s.root b.mount, .umount], .ok (s.umounted b))

/-- One iteration, in an arithmetic of `w + 1` bits. -/
def rootfsIter (w : ℕ) (p : BootParams) (b : Boot) (s : RootfsState) :
    List RootfsCmd × Except RootfsExit RootfsState :=
  if 0 < s.mounts ∧ b.devBefore then ([], .error (.root s))
  else if p.timeout < wrap w (s.c * p.delay) then ([], .error .fatal)
  else if s.root = [] then ([], .ok (s.next w))
  else
    match if b.present then mountRoot b s.named else ([], .ok s.named) with
    | (cmds, .error e) => (cmds, .error e)
    | (cmds, .ok s) => (cmds ++ repair s, .ok (s.next w))

/-- What the loop has come to before iteration `n`. -/
def rootfsAt (w : ℕ) (p : BootParams) (boots : ℕ → Boot) (s : RootfsState) :
    ℕ → Except RootfsExit RootfsState
  | 0 => .ok s
  | n + 1 =>
    match rootfsAt w p boots s n with
    | .error e => .error e
    | .ok v => (rootfsIter w p (boots n) v).2

/-- The loop is entered, with what is left in `x` and on `ROOTFS_DIR`. -/
def RootfsState.start (x : Option ℕ) (root : List Char) (mounts : ℕ) : RootfsState :=
  ⟨0, x, root, mounts⟩

/-- Each `e2fsck` follows a failed mount of the same device, with nothing mounted. -/
def Checked (cmds : List RootfsCmd) : Prop :=
  ∀ (i : ℕ) device mounts, cmds[i]? = some (.e2fsck device mounts) →
    mounts = 0 ∧ ∃ status, status ≠ 0 ∧ .mount device status ∈ cmds.take i

/-- What is to hold of a run. -/
structure RootfsOk (w : ℕ) (p : BootParams) (boots : ℕ → Boot) (s : RootfsState) : Prop where
  checked : ∀ n v, rootfsAt w p boots s n = .ok v → Checked (rootfsIter w p (boots n) v).1
  ends : ∃ n, rootfsAt w p boots s n = .error .fatal ∨
    ∃ v, rootfsAt w p boots s n = .error (.root v) ∧ 0 < v.mounts

/-- The iteration comes to the mount. -/
def Tries (w : ℕ) (p : BootParams) (b : Boot) (s : RootfsState) : Prop :=
  ¬ (0 < s.mounts ∧ b.devBefore = true) ∧ ¬ p.timeout < wrap w (s.c * p.delay) ∧ s.root ≠ []

/-- The device is there or no failed mount is remembered, and where the mount fails nothing is left
on `ROOTFS_DIR`. -/
structure Repairs (b : Boot) (s : RootfsState) : Prop where
  absent : b.present = false → testNe s.x = false
  failed : b.present = true → b.mount ≠ 0 → ¬ (0 < s.mounts ∧ b.dev = true) →
    (if b.umount then s.mounts - 1 else s.mounts) = 0

/-- There is a root file system with a `/dev`. -/
def Appears (b : Boot) (s : RootfsState) : Prop :=
  0 < s.mounts ∧ b.devBefore = true ∨
    s.root ≠ [] ∧ b.present = true ∧ (b.mount = 0 ∨ 0 < s.mounts) ∧ b.dev = true

section
variable {w : ℕ} {p : BootParams} {b : Boot} {boots : ℕ → Boot} {s v : RootfsState}

theorem checked_of_notMem {cmds : List RootfsCmd}
    (h : ∀ device mounts, .e2fsck device mounts ∉ cmds) : Checked cmds :=
  fun _ device mounts hi => (h device mounts (List.mem_of_getElem? hi)).elim

/-- A repair after programs without one. -/
theorem checked_repair_iff {before : List RootfsCmd}
    (hbefore : ∀ device mounts, .e2fsck device mounts ∉ before) :
    Checked (before ++ repair s) ↔ (testNe s.x = true → s.mounts = 0 ∧
      ∃ status, status ≠ 0 ∧ .mount s.root status ∈ before) := by
  unfold repair
  cases hx : testNe s.x with
  | false =>
    rw [if_neg Bool.false_ne_true, List.append_nil]
    exact iff_of_true (checked_of_notMem hbefore) nofun
  | true =>
    rw [if_pos rfl]
    constructor
    · intro h _
      have hlast := h before.length s.root s.mounts (by simp)
      rwa [List.take_left] at hlast
    · intro h i device mounts hi
      rcases Nat.lt_trichotomy i before.length with hlt | heq | hgt
      · rw [List.getElem?_append_left hlt] at hi
        exact (hbefore device mounts (List.mem_of_getElem? hi)).elim
      · subst heq
        simp only [List.getElem?_concat_length, Option.some.injEq, RootfsCmd.e2fsck.injEq] at hi
        obtain ⟨rfl, rfl⟩ := hi
        rw [List.take_left]
        exact h rfl
      · rw [List.getElem?_eq_none (by simpa using hgt)] at hi
        cases hi

theorem rootfsIter_absent (h : Tries w p b s) (hpresent : b.present = false) :
    rootfsIter w p b s = (repair s.named, .ok (s.named.next w)) := by
  rw [rootfsIter, if_neg h.1, if_neg h.2.1, if_neg h.2.2, hpresent]
  rfl

theorem rootfsIter_root (h : Tries w p b s) (hpresent : b.present = true)
    (hroot : 0 < (s.named.mounted b).mounts ∧ b.dev = true) :
    rootfsIter w p b s =
      ([.mount s.named.root b.mount], .error (.root (s.named.mounted b))) := by
  rw [rootfsIter, if_neg h.1, if_neg h.2.1, if_neg h.2.2, hpresent, if_pos rfl, mountRoot,
    if_pos hroot]
  rfl

theorem rootfsIter_retry (h : Tries w p b s) (hpresent : b.present = true)
    (hroot : ¬ (0 < (s.named.mounted b).mounts ∧ b.dev = true)) :
    rootfsIter w p b s =
      ([.mount s.named.root b.mount, .umount] ++ repair ((s.named.mounted b).umounted b),
        .ok (((s.named.mounted b).umounted b).next w)) := by
  rw [rootfsIter, if_neg h.1, if_neg h.2.1, if_neg h.2.2, hpresent, if_pos rfl, mountRoot,
    if_neg hroot]
  rfl

/-- An iteration that does not come to the mount runs nothing. -/
theorem rootfsIter_idle (h : ¬ Tries w p b s) : (rootfsIter w p b s).1 = [] := by
  rw [rootfsIter]
  by_cases hdev : 0 < s.mounts ∧ b.devBefore = true
  · rw [if_pos hdev]
  · by_cases htime : p.timeout < wrap w (s.c * p.delay)
    · rw [if_neg hdev, if_pos htime]
    · have hroot : s.root = [] := by_contra fun hroot => h ⟨hdev, htime, hroot⟩
      rw [if_neg hdev, if_neg htime, if_pos hroot]

theorem mounts_mounted (hfail : b.mount ≠ 0) : (s.named.mounted b).mounts = s.mounts := if_neg hfail

theorem checked_absent_iff (hpresent : b.present = false) :
    Checked (repair s.named) ↔ Repairs b s := by
  rw [← List.nil_append (repair s.named), checked_repair_iff fun _ _ => List.not_mem_nil]
  constructor
  · intro h
    constructor
    · intro _
      apply Bool.eq_false_iff.mpr
      intro hx
      obtain ⟨-, _, -, hmem⟩ := h hx
      cases hmem
    · intro hp
      cases hpresent.symm.trans hp
  · intro h hx
    cases hx.symm.trans (h.absent hpresent)

theorem repairs_of_root (hpresent : b.present = true)
    (hroot : 0 < (s.named.mounted b).mounts ∧ b.dev = true) : Repairs b s := by
  constructor
  · intro hp
    cases hpresent.symm.trans hp
  · intro _ hfail hno
    rw [mounts_mounted hfail] at hroot
    exact absurd hroot hno

theorem checked_retry_iff (hpresent : b.present = true)
    (hroot : ¬ (0 < (s.named.mounted b).mounts ∧ b.dev = true)) :
    Checked ([.mount s.named.root b.mount, .umount] ++ repair ((s.named.mounted b).umounted b)) ↔
      Repairs b s := by
  rw [checked_repair_iff fun _ _ => by simp]
  have hx : testNe ((s.named.mounted b).umounted b).x = true ↔ b.mount ≠ 0 := decide_eq_true_iff
  rw [hx]
  constructor
  · intro h
    constructor
    · intro hp
      cases hpresent.symm.trans hp
    · intro _ hfail _
      have hmounts := (h hfail).1
      rwa [RootfsState.umounted, mounts_mounted hfail] at hmounts
  · intro h hfail
    rw [mounts_mounted hfail] at hroot
    refine ⟨?_, b.mount, hfail, List.mem_cons_self⟩
    rw [RootfsState.umounted, mounts_mounted hfail]
    exact h.failed hpresent hfail hroot

/-- The programs of one iteration. -/
theorem checked_iter_iff : Checked (rootfsIter w p b s).1 ↔ (Tries w p b s → Repairs b s) := by
  by_cases htries : Tries w p b s
  · rw [forall_prop_of_true htries]
    cases hpresent : b.present with
    | false =>
      rw [rootfsIter_absent htries hpresent]
      exact checked_absent_iff hpresent
    | true =>
      by_cases hroot : 0 < (s.named.mounted b).mounts ∧ b.dev = true
      · rw [rootfsIter_root htries hpresent hroot]
        exact iff_of_true (checked_of_notMem fun _ _ => by simp) (repairs_of_root hpresent hroot)
      · rw [rootfsIter_retry htries hpresent hroot]
        exact checked_retry_iff hpresent hroot
  · rw [rootfsIter_idle htries]
    exact iff_of_true (checked_of_notMem fun _ _ => List.not_mem_nil) fun h => absurd h htries

/-- An iteration leaves the loop for a root file system or for the time, or goes on. -/
theorem iter_cases (w : ℕ) (p : BootParams) (b : Boot) (s : RootfsState) :
    (∃ v, (rootfsIter w p b s).2 = .ok v ∧ v.c = wrap w (s.c + 1) ∧ ¬ Appears b s ∧
      ¬ p.timeout < wrap w (s.c * p.delay)) ∨
    ((rootfsIter w p b s).2 = .error .fatal ∧ p.timeout < wrap w (s.c * p.delay)) ∨
    ∃ v, (rootfsIter w p b s).2 = .error (.root v) ∧ 0 < v.mounts ∧ Appears b s := by
  by_cases hdev : 0 < s.mounts ∧ b.devBefore = true
  · rw [rootfsIter, if_pos hdev]
    exact Or.inr (Or.inr ⟨s, rfl, hdev.1, Or.inl hdev⟩)
  by_cases htime : p.timeout < wrap w (s.c * p.delay)
  · rw [rootfsIter, if_neg hdev, if_pos htime]
    exact Or.inr (Or.inl ⟨rfl, htime⟩)
  by_cases hroot : s.root = []
  · rw [rootfsIter, if_neg hdev, if_neg htime, if_pos hroot]
    exact Or.inl ⟨_, rfl, rfl, fun h => h.elim hdev fun h => h.1 hroot, htime⟩
  have htries : Tries w p b s := ⟨hdev, htime, hroot⟩
  cases hpresent : b.present with
  | false =>
    rw [rootfsIter_absent htries hpresent]
    refine Or.inl ⟨_, rfl, rfl, fun h => h.elim hdev fun h => ?_, htime⟩
    cases hpresent.symm.trans h.2.1
  | true =>
    have hmounts : 0 < (s.named.mounted b).mounts ↔ b.mount = 0 ∨ 0 < s.mounts := by
      change 0 < (if b.mount = 0 then s.mounts + 1 else s.mounts) ↔ _
      split_ifs with hok
      · exact iff_of_true (Nat.succ_pos _) (Or.inl hok)
      · exact (or_iff_right hok).symm
    by_cases hnew : 0 < (s.named.mounted b).mounts ∧ b.dev = true
    · rw [rootfsIter_root htries hpresent hnew]
      exact Or.inr (Or.inr ⟨_, rfl, hnew.1, Or.inr ⟨hroot, hpresent, hmounts.mp hnew.1, hnew.2⟩⟩)
    · rw [rootfsIter_retry htries hpresent hnew]
      refine Or.inl ⟨_, rfl, rfl, fun h => h.elim hdev fun h => hnew ?_, htime⟩
      exact ⟨hmounts.mpr h.2.2.1, h.2.2.2⟩

theorem rootfsAt_succ_ok {n : ℕ} (h : rootfsAt w p boots s n = .ok v) :
    rootfsAt w p boots s (n + 1) = (rootfsIter w p (boots n) v).2 := by
  rw [rootfsAt, h]

/-- The counter of a running loop. -/
theorem c_rootfsAt (hc : s.c = 0) {n : ℕ} (h : rootfsAt w p boots s n = .ok v) :
    v.c = wrap w n := by
  induction n generalizing v with
  | zero =>
    cases h
    rw [hc]
    exact Int.zero_bmod.symm
  | succ n ih =>
    cases hn : rootfsAt w p boots s n with
    | error e =>
      rw [rootfsAt, hn] at h
      cases h
    | ok u =>
      rw [rootfsAt_succ_ok hn] at h
      rcases iter_cases w p (boots n) u with ⟨v', hv, hc', -⟩ | ⟨hv, -⟩ | ⟨v', hv, -⟩
      · cases hv.symm.trans h
        rw [hc', ih hn, wrap_add_wrap, Nat.cast_succ]
      · cases hv.symm.trans h
      · cases hv.symm.trans h

/-- An exit has an iteration in which it is taken. -/
theorem exit_of_rootfsAt {n : ℕ} {e : RootfsExit} (h : rootfsAt w p boots s n = .error e) :
    ∃ m v, rootfsAt w p boots s m = .ok v ∧ (rootfsIter w p (boots m) v).2 = .error e := by
  induction n with
  | zero => cases h
  | succ n ih =>
    cases hn : rootfsAt w p boots s n with
    | error e' =>
      rw [rootfsAt, hn] at h
      cases h
      exact ih hn
    | ok u => exact ⟨n, u, hn, (rootfsAt_succ_ok hn).symm.trans h⟩

/-- The loop ends when the timeout is within reach, or a root file system appears. -/
theorem ends_iff (hc : s.c = 0) :
    (∃ n, rootfsAt w p boots s n = .error .fatal ∨
      ∃ v, rootfsAt w p boots s n = .error (.root v) ∧ 0 < v.mounts) ↔
    p.timeout < topMultiple w p.delay ∨
      ∃ n v, rootfsAt w p boots s n = .ok v ∧ Appears (boots n) v := by
  rw [← exists_lt_wrap_mul_iff]
  have htime {n : ℕ} {v : RootfsState} (hn : rootfsAt w p boots s n = .ok v) :
      wrap w (v.c * p.delay) = wrap w (n * p.delay) := by
    rw [c_rootfsAt hc hn, wrap_wrap_mul]
  have hexit {n : ℕ} {v : RootfsState} (hn : rootfsAt w p boots s n = .ok v)
      (h : Appears (boots n) v ∨ p.timeout < wrap w (v.c * p.delay)) :
      ∃ n, rootfsAt w p boots s n = .error .fatal ∨
        ∃ v, rootfsAt w p boots s n = .error (.root v) ∧ 0 < v.mounts := by
    refine ⟨n + 1, ?_⟩
    rw [rootfsAt_succ_ok hn]
    rcases iter_cases w p (boots n) v with ⟨_, -, -, hno, hno'⟩ | ⟨hv, -⟩ | ⟨u, hv, hu, -⟩
    · exact (h.elim hno hno').elim
    · exact Or.inl hv
    · exact Or.inr ⟨u, hv, hu⟩
  constructor
  · rintro ⟨n, hn⟩
    obtain ⟨e, he⟩ : ∃ e, rootfsAt w p boots s n = .error e :=
      hn.elim (fun h => ⟨_, h⟩) fun ⟨u, h, _⟩ => ⟨_, h⟩
    obtain ⟨m, v, hm, hv⟩ := exit_of_rootfsAt he
    rcases iter_cases w p (boots m) v with ⟨_, hv', -⟩ | ⟨-, ht⟩ | ⟨u, -, -, happ⟩
    · cases hv'.symm.trans hv
    · rw [htime hm] at ht
      exact Or.inl ⟨m, ht⟩
    · exact Or.inr ⟨m, v, hm, happ⟩
  · rintro (⟨n, ht⟩ | ⟨n, v, hn, happ⟩)
    · cases hn : rootfsAt w p boots s n with
      | error e =>
        obtain ⟨m, v, hm, hv⟩ := exit_of_rootfsAt hn
        rcases iter_cases w p (boots m) v with ⟨_, hv', -⟩ | ⟨-, ht'⟩ | ⟨u, -, -, happ⟩
        · cases hv'.symm.trans hv
        · exact hexit hm (Or.inr ht')
        · exact hexit hm (Or.inl happ)
      | ok v =>
        rw [← htime hn] at ht
        exact hexit hn (Or.inr ht)
    · exact hexit hn (Or.inl happ)

end

/-- In every run, `e2fsck` is used as it should be and the loop ends, if and only if in each
iteration the device is there or no failed mount is remembered, and nothing is left mounted where a
mount fails; and the timeout is within reach of the multiples of the delay, or a root file system
appears. -/
theorem rootfs_run_ok_iff (w : ℕ) (p : BootParams) (boots : ℕ → Boot) (x : Option ℕ)
    (root : List Char) (mounts : ℕ) :
    RootfsOk w p boots (.start x root mounts) ↔
      (∀ n v, rootfsAt w p boots (.start x root mounts) n = .ok v → Tries w p (boots n) v →
        Repairs (boots n) v) ∧
      (p.timeout < topMultiple w p.delay ∨
        ∃ n v, rootfsAt w p boots (.start x root mounts) n = .ok v ∧ Appears (boots n) v) := by
  rw [← ends_iff rfl]
  constructor
  · intro h
    exact ⟨fun n v hv => checked_iter_iff.mp (h.checked n v hv), h.ends⟩
  · intro h
    exact ⟨fun n v hv => checked_iter_iff.mpr (h.1 n v hv), h.2⟩

/-- A device whose mount has failed with status 32. -/
def failedOnce : RootfsState := ⟨1, some 32, ['/', 'd', 'e', 'v', '/', 's', 'd', 'a'], 0⟩

/-- The mount fails in the first iteration, and then the device is gone: `e2fsck` runs on it
again. -/
theorem rootfs_run_checks_absent :
    let boots : ℕ → Boot := fun n => ⟨false, n = 0, 32, false, false⟩
    rootfsAt 63 ⟨none, none⟩ boots (.start none failedOnce.root 0) 1 = .ok failedOnce ∧
      (rootfsIter 63 ⟨none, none⟩ (boots 1) failedOnce).1 = [.e2fsck failedOnce.root 0] ∧
      ¬ RootfsOk 63 ⟨none, none⟩ boots (.start none failedOnce.root 0) := by
  intro boots
  have hat : rootfsAt 63 ⟨none, none⟩ boots (.start none failedOnce.root 0) 1 = .ok failedOnce := by
    rfl
  have hcmds : (rootfsIter 63 ⟨none, none⟩ (boots 1) failedOnce).1 =
      [.e2fsck failedOnce.root 0] := by
    rfl
  refine ⟨hat, hcmds, fun h => ?_⟩
  have hchecked := h.checked 1 failedOnce hat
  rw [hcmds] at hchecked
  obtain ⟨-, status, -, hmem⟩ := hchecked 0 _ _ rfl
  cases hmem

end YoctoLayers.Initramfs
