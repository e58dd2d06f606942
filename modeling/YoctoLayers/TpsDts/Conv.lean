import YoctoLayers.TpsDts.Shell

/-! `conv.sh` with `part_save`: conversion of a device tree and its write to the partition. -/
namespace YoctoLayers.TpsDts
open YoctoLayers.Lib Sh

/-- A conversion: its exit status and what it leaves of its output file. -/
structure Outcome where
  status : ℕ
  out : Option Bytes

/-- The external programs, with what each of them does in any state. -/
structure Tools where
  ini2dts : Files → Name → Outcome
  mcpp : Files → Name → Outcome
  dtc : Files → Name → Outcome
  dtcCheck : Option Bytes → ℕ
  flashErase : Bytes → ℕ × Bytes
  nandwrite : Files → Name → Bytes → ℕ × Bytes
  ddZero : Bytes → ℕ × Bytes
  /-- By the words that `if=${1}.dtb` becomes. -/
  dd : Files → List Name → Bytes → ℕ × Bytes
  /-- What `cp` leaves in the target. -/
  cp : Files → Name → Option Bytes

/-- `f_type` -/
inductive FType
  | ini
  | dts
  | dtb
deriving DecidableEq, Repr

def extIni : Name := ['i', 'n', 'i']
def extDts : Name := ['d', 't', 's']
def extDtb : Name := ['d', 't', 'b']
def extTmp : Name := ['d', 't', 's', '.', 't', 'm', 'p']

def FType.ext : FType → Name
  | .ini => extIni
  | .dts => extDts
  | .dtb => extDtb

/-- `"${name}.ext"` -/
def dot (name ext : Name) : Name := name ++ '.' :: ext

/-- `f_ext` -/
def fExt (arg : Name) : Name := sed afterLastDot arg

/-- `f_name`, once `f_ext` is known. -/
def fName (arg : Name) : Name := sed (eraseFirst ('.' :: fExt arg)) arg

/-- The `case` on `f_ext`. -/
def fType (ext : Name) : Option FType :=
  if ext = extIni then some .ini
  else if ext = extDts then some .dts
  else if ext = extDtb then some .dtb
  else none

/-- The operand `if=${1}.dtb`. -/
def ddIf (name : Name) : Name := 'i' :: 'f' :: '=' :: dot name extDtb

def hwini (name : Name) : Name := "/opt/tps-shared/hwini/".toList ++ basename name

namespace Tools
variable (t : Tools)

/-- A conversion from one file to another. -/
def convertTo (tool : Tool) (f : Files → Name → Outcome) (input output : Name) : Sh ℕ :=
  call tool fun sh =>
    let r := f sh.files input
    (r.status, { sh with files := Function.update sh.files output r.out })

/-- A program that writes the partition. -/
def write (tool : Tool) (f : Files → Bytes → ℕ × Bytes) : Sh ℕ :=
  call tool fun sh =>
    let r := f sh.files sh.part
    (r.1, { sh with part := r.2 })

def needFile (name : Name) : Sh Unit := do
  if !(← isFile name) then fail ("No file " ++ String.ofList name)

def iniToDts (name : Name) : Sh Unit := do
  orFail (← convertTo .ini2dts t.ini2dts (dot name extIni) (dot name extDts)) "INI->DTS convertion "

def dtsToDtb (name : Name) : Sh Unit := do
  orFail (← convertTo .mcpp t.mcpp (dot name extDts) (dot name extTmp)) "DTC preprocessor error"
  orFail (← convertTo .dtc t.dtc (dot name extTmp) (dot name extDtb)) "DTC compiler error"

def checkDtb (name : Name) : Sh Unit := do
  let status ← call .dtcCheck fun sh =>
    let dtb := sh.files (dot name extDtb)
    (t.dtcCheck dtb, { sh with checked := dtb })
  if status = 0 then return else exit 1

/-- `conv.sh` from the conversions to the last check. -/
def convert (ty : FType) (name : Name) : Sh Unit := do
  when (ty = .ini) (t.iniToDts name)
  let ty := if ty = .ini then .dts else ty
  needFile (dot name ty.ext)
  when (ty = .dts) (t.dtsToDtb name)
  needFile (dot name extDtb)
  t.checkDtb name

def partSaveNand (name : Name) : Sh ℕ := do
  let status ← write .flashErase fun _ => t.flashErase
  if status ≠ 0 then return 1
  else
    let status ← write .nandwrite fun files => t.nandwrite files (dot name extDtb)
    if status ≠ 0 then return 1 else return 0

def partSaveEmmc (name : Name) : Sh ℕ := do
  let _ ← write .ddZero fun _ => t.ddZero
  let _ ← write .dd fun files => t.dd files (fields (ddIf name))
  return 0

/-- `part_save`; `nand` says that there is `/dev/mtd0`. -/
def partSave (nand : Bool) (name : Name) : Sh ℕ :=
  if nand then t.partSaveNand name else t.partSaveEmmc name

/-- The copy of an INI file; nothing looks at its status, and `sync` does not fail. -/
def keepIni (name : Name) : Sh Unit :=
  modify fun sh =>
    { sh with
      files := Function.update sh.files (hwini (dot name extIni))
        (t.cp sh.files (dot name extIni)) }

/-- `conv.sh`, called as `self`. -/
def convSh (nand : Bool) (self : Name) : List Name → Sh Unit
  | [] => fail ("Usage " ++ String.ofList self ++ " <file>")
  | arg :: _ => do
    needFile arg
    match fType (fExt arg) with
    | none => fail "Unknown input type ''"
    | some ty =>
      let name := fName arg
      t.convert ty name
      orFail (← t.partSave nand name) "Write error"
      echo "DONE"
      if substitute (basename arg) = ['p', 'i', 'n', 's', '.', 'i', 'n', 'i'] then exit 0
      else when (fExt arg = extIni) (t.keepIni name)

end Tools
/-- An erased flash reads as ones. -/
def Erased (part : Bytes) : Prop := ∀ b ∈ part, b = 0xff

/-- A program that reports success has done what it is for. -/
structure Tools.Honest (t : Tools) : Prop where
  flashErase : ∀ part, (t.flashErase part).1 = 0 → Erased (t.flashErase part).2
  nandwrite : ∀ files name data part, files name = some data → Erased part →
    (t.nandwrite files name part).1 = 0 → data <+: (t.nandwrite files name part).2
  dd : ∀ files name data part, files (dot name extDtb) = some data →
    (t.dd files [ddIf name] part).1 = 0 → data <+: (t.dd files [ddIf name] part).2

/-- Before the script has come to `part_save`. -/
structure Shell.Unsaved (part : Bytes) (sh : Shell) : Prop where
  part : sh.part = part
  ran : ∀ status, (Tool.dd, status) ∉ sh.ran

/-- The DTB has passed its check. -/
structure Shell.Ready (part : Bytes) (name : Name) (dtb : Bytes) (sh : Shell) : Prop
    extends Shell.Unsaved part sh where
  file : sh.files (dot name extDtb) = some dtb
  checked : sh.checked = some dtb

/-- `dd` has succeeded, on a name that is one word. -/
def Shell.DdCopied (sh : Shell) (name : Name) : Prop :=
  (Tool.dd, 0) ∈ sh.ran ∧ fields (ddIf name) = [ddIf name]

/-- `flash_erase` or `nandwrite` has failed. -/
def Shell.FlashFailed (sh : Shell) : Prop :=
  ∃ status, status ≠ 0 ∧ ((Tool.flashErase, status) ∈ sh.ran ∨ (Tool.nandwrite, status) ∈ sh.ran)

/-- After `part_save` with exit status `status`. -/
structure Shell.Saved (nand : Bool) (name : Name) (dtb : Bytes) (status : ℕ) (sh : Shell) :
    Prop where
  checked : sh.checked = some dtb
  written : status = 0 → (nand = false → sh.DdCopied name) → dtb <+: sh.part
  failed : status ≠ 0 → nand = true ∧ sh.FlashFailed

/-- A failure that leaves the partition alone. -/
abbrev Refused (part : Bytes) (status : ℕ) (sh : Shell) : Prop := status ≠ 0 ∧ sh.Unsaved part

section
variable {part : Bytes} {name : Name} {dtb : Bytes}

theorem Shell.Unsaved.call {sh : Shell} (h : sh.Unsaved part) {tool : Tool} (htool : tool ≠ .dd)
    (files : Files) (checked : Option Bytes) (status : ℕ) :
    Shell.Unsaved part
      { sh with files := files, checked := checked, ran := sh.ran ++ [(tool, status)] } where
  part := h.part
  ran status' hmem := by
    rcases List.mem_append.mp hmem with hmem | hmem
    · exact h.ran status' hmem
    · exact htool (congrArg Prod.fst (List.mem_singleton.mp hmem)).symm

theorem fail_spec {α : Type} {Q : α → Shell → Prop} (line : String) :
    Ensures (Shell.Unsaved part) (fail line) Q (Refused part) := by
  refine Ensures.bind (Q := fun _ => Shell.Unsaved part) ?_ fun _ => ?_
  · exact ensures_iff.mpr fun sh hsh => ⟨hsh.part, hsh.ran⟩
  · exact Ensures.throw fun sh hsh => ⟨by decide, hsh⟩

theorem orFail_spec (status : ℕ) (line : String) :
    Ensures (Shell.Unsaved part) (orFail status line) (fun _ => Shell.Unsaved part)
      (Refused part) :=
  Ensures.ite (fun _ => Ensures.pure fun _ hsh => hsh) fun _ => fail_spec line

theorem when_spec {c : Bool} {x : Sh Unit} (hx : Ensures (Shell.Unsaved part) x
    (fun _ => Shell.Unsaved part) (Refused part)) :
    Ensures (Shell.Unsaved part) (when c x) (fun _ => Shell.Unsaved part) (Refused part) :=
  Ensures.ite (fun _ => hx) fun _ => Ensures.pure fun _ hsh => hsh

theorem needFile_spec (file : Name) :
    Ensures (Shell.Unsaved part) (Tools.needFile file)
      (fun _ sh => sh.Unsaved part ∧ (sh.files file).isSome) (Refused part) := by
  refine Ensures.bind (Q := fun b sh => sh.Unsaved part ∧ (sh.files file).isSome = b) ?_ fun b => ?_
  · exact ensures_iff.mpr fun sh hsh => ⟨hsh, rfl⟩
  · cases b with
    | false => exact (fail_spec _).pre fun _ hsh => hsh.1
    | true => exact Ensures.pure fun _ hsh => hsh

theorem convertTo_spec {tool : Tool} (htool : tool ≠ .dd) (f : Files → Name → Outcome)
    (input output : Name) :
    Ensures (Shell.Unsaved part) (Tools.convertTo tool f input output)
      (fun _ => Shell.Unsaved part) (Refused part) :=
  ensures_iff.mpr fun _ hsh => hsh.call htool _ _ _

variable (t : Tools)

theorem iniToDts_spec (name : Name) :
    Ensures (Shell.Unsaved part) (t.iniToDts name) (fun _ => Shell.Unsaved part) (Refused part) :=
  (convertTo_spec (by decide) _ _ _).bind fun status => orFail_spec status _

theorem dtsToDtb_spec (name : Name) :
    Ensures (Shell.Unsaved part) (t.dtsToDtb name)
      (fun _ => Shell.Unsaved part) (Refused part) := by
  refine (convertTo_spec (by decide) _ _ _).bind fun status => ?_
  refine (orFail_spec status _).bind fun _ => ?_
  exact (convertTo_spec (by decide) _ _ _).bind fun status => orFail_spec status _

theorem checkDtb_spec (name : Name) :
    Ensures (fun sh => sh.Unsaved part ∧ (sh.files (dot name extDtb)).isSome) (t.checkDtb name)
      (fun _ sh => ∃ dtb, sh.Ready part name dtb) (Refused part) := by
  refine Ensures.bind (Q := fun _ sh => ∃ dtb, sh.Ready part name dtb) ?_ fun status => ?_
  · refine ensures_iff.mpr fun sh hsh => ?_
    obtain ⟨dtb, hdtb⟩ := Option.isSome_iff_exists.mp hsh.2
    exact ⟨dtb, hsh.1.call (by decide) _ _ _, hdtb, hdtb⟩
  · refine Ensures.ite (fun _ => Ensures.pure fun _ hsh => hsh) fun _ => ?_
    exact Ensures.throw fun _ ⟨_, hsh⟩ => ⟨by decide, hsh.toUnsaved⟩

theorem convert_spec (ty : FType) (name : Name) :
    Ensures (Shell.Unsaved part) (t.convert ty name) (fun _ sh => ∃ dtb, sh.Ready part name dtb)
      (Refused part) := by
  have hneed (file : Name) : Ensures (Shell.Unsaved part) (Tools.needFile file)
      (fun _ => Shell.Unsaved part) (Refused part) :=
    (needFile_spec file).imp (fun _ hsh => hsh) (fun _ _ hsh => hsh.1) fun _ _ hsh => hsh
  refine (when_spec (iniToDts_spec t name)).bind fun _ => (hneed _).bind fun _ => ?_
  refine (when_spec (dtsToDtb_spec t name)).bind fun _ => ?_
  exact (needFile_spec _).bind fun _ => checkDtb_spec t name

variable {t}

theorem partSaveNand_spec (ht : t.Honest) :
    Ensures (Shell.Ready part name dtb) (t.partSaveNand name) (Shell.Saved true name dtb)
      fun _ _ => False := by
  refine Ensures.bind (Q := fun status sh => sh.checked = some dtb ∧
    sh.files (dot name extDtb) = some dtb ∧ (status = 0 → Erased sh.part) ∧
      (Tool.flashErase, status) ∈ sh.ran) ?_ fun status =>
        Ensures.ite (fun hfail => ?_) fun hok => ?_
  · exact ensures_iff.mpr fun sh hsh => ⟨hsh.checked, hsh.file, ht.flashErase sh.part, by simp⟩
  · refine Ensures.pure fun sh ⟨hchecked, _, _, hran⟩ => ⟨hchecked, fun h => ?_, fun _ => ?_⟩
    · exact absurd h (by decide)
    · exact ⟨rfl, status, hfail, Or.inl hran⟩
  · refine Ensures.bind (Q := fun status sh => sh.checked = some dtb ∧
      (status = 0 → dtb <+: sh.part) ∧ (Tool.nandwrite, status) ∈ sh.ran) ?_ fun status => ?_
    · refine ensures_iff.mpr fun sh ⟨hchecked, hfile, herased, _⟩ =>
        ⟨hchecked, fun hw => ?_, by simp⟩
      exact ht.nandwrite _ _ _ _ hfile (herased (not_not.mp hok)) hw
    · refine Ensures.ite (fun hfail => ?_) fun hok => ?_
      · refine Ensures.pure fun sh ⟨hchecked, _, hran⟩ => ⟨hchecked, fun h => ?_, fun _ => ?_⟩
        · exact absurd h (by decide)
        · exact ⟨rfl, status, hfail, Or.inr hran⟩
      · refine Ensures.pure fun sh ⟨hchecked, hwritten, _⟩ => ⟨hchecked, fun _ _ => ?_, fun h => ?_⟩
        · exact hwritten (not_not.mp hok)
        · exact absurd rfl h

theorem partSaveEmmc_spec (ht : t.Honest) :
    Ensures (Shell.Ready part name dtb) (t.partSaveEmmc name) (Shell.Saved false name dtb)
      fun _ _ => False := by
  refine Ensures.bind (Q := fun _ sh => ∃ zeroed, sh.Ready zeroed name dtb) ?_ fun _ => ?_
  · refine ensures_iff.mpr fun sh hsh => ⟨_, ⟨rfl, fun status hmem => ?_⟩, hsh.file, hsh.checked⟩
    rcases List.mem_append.mp hmem with hmem | hmem
    · exact hsh.ran status hmem
    · have htool : Tool.dd = Tool.ddZero := congrArg Prod.fst (List.mem_singleton.mp hmem)
      exact absurd htool (by decide)
  · refine Ensures.bind (Q := fun _ => Shell.Saved false name dtb 0) ?_ fun _ =>
      Ensures.pure fun _ hsh => hsh
    refine ensures_iff.mpr fun sh ⟨zeroed, hsh⟩ => ⟨hsh.checked, fun _ hcopied => ?_, fun h => ?_⟩
    · obtain ⟨hmem, hword⟩ := hcopied rfl
      have hstatus : (t.dd sh.files (fields (ddIf name)) sh.part).1 = 0 := by
        rcases List.mem_append.mp hmem with hmem | hmem
        · exact absurd hmem (hsh.ran 0)
        · exact (congrArg Prod.snd (List.mem_singleton.mp hmem)).symm
      change dtb <+: (t.dd sh.files (fields (ddIf name)) sh.part).2
      rw [hword] at hstatus ⊢
      exact ht.dd _ _ _ _ hsh.file hstatus
    · exact absurd rfl h

theorem partSave_spec (ht : t.Honest) (nand : Bool) :
    Ensures (Shell.Ready part name dtb) (t.partSave nand name) (Shell.Saved nand name dtb)
      fun _ _ => False := by
  cases nand with
  | false => exact partSaveEmmc_spec ht
  | true => exact partSaveNand_spec ht

/-- What is left of a run of `conv.sh` on a file. -/
structure Shell.Done (nand : Bool) (name : Name) (part : Bytes) (status : ℕ) (sh : Shell) :
    Prop where
  written : status = 0 → (nand = false → sh.DdCopied name) →
    ∃ dtb, sh.checked = some dtb ∧ dtb <+: sh.part
  kept : status ≠ 0 → sh.part = part ∨ nand = true ∧ sh.FlashFailed

theorem Shell.Saved.done {nand : Bool} {status : ℕ} {sh : Shell}
    (h : sh.Saved nand name dtb status) : sh.Done nand name part status :=
  ⟨fun hok hcopied => ⟨dtb, h.checked, h.written hok hcopied⟩, fun hne => Or.inr (h.failed hne)⟩

theorem convSh_spec (ht : t.Honest) (nand : Bool) (self arg : Name) (args : List Name) :
    Ensures (Shell.Unsaved part) (t.convSh nand self (arg :: args))
      (fun _ => Shell.Done nand (fName arg) part 0) (Shell.Done nand (fName arg) part) := by
  have hrefused : ∀ status sh,
      Refused part status sh → Shell.Done nand (fName arg) part status sh :=
    fun _ _ h => ⟨fun hok => absurd hok h.1, fun _ => Or.inl h.2.part⟩
  refine Ensures.bind (Q := fun _ => Shell.Unsaved part) ?_ fun _ => ?_
  · exact (needFile_spec arg).imp (fun _ hsh => hsh) (fun _ _ hsh => hsh.1) hrefused
  cases fType (fExt arg) with
  | none => exact (fail_spec _).failed hrefused
  | some ty =>
    refine ((convert_spec t ty _).failed hrefused).bind fun _ => ?_
    refine Ensures.bind (Q := fun status => Shell.Done nand (fName arg) part status) ?_
      fun status => ?_
    · refine ensures_iff.mpr fun sh ⟨dtb, hsh⟩ => ?_
      have hsave := ensures_iff.mp (partSave_spec ht nand) sh hsh
      revert hsave
      cases t.partSave nand (fName arg) sh with
      | ok status sh' => exact Shell.Saved.done
      | error status sh' => exact False.elim
    · refine Ensures.bind (Q := fun _ => Shell.Done nand (fName arg) part 0) ?_ fun _ => ?_
      · refine Ensures.ite (fun hok => ?_) fun hfail => ?_
        · exact Ensures.pure fun _ hsh => hok ▸ hsh
        · exact ensures_iff.mpr fun sh hsh =>
            ⟨fun h => absurd h (by decide), fun _ => hsh.kept hfail⟩
      · refine Ensures.bind (Q := fun _ => Shell.Done nand (fName arg) part 0) ?_ fun _ => ?_
        · exact ensures_iff.mpr fun _ hsh => ⟨hsh.written, hsh.kept⟩
        · refine Ensures.ite (fun _ => Ensures.throw fun _ hsh => hsh) fun _ => ?_
          refine Ensures.ite (fun _ => ?_) fun _ => Ensures.pure fun _ hsh => hsh
          exact ensures_iff.mpr fun _ hsh => ⟨hsh.written, hsh.kept⟩

end

/-- The shell when `conv.sh` starts. -/
def Shell.start (files : Files) (part : Bytes) : Shell := ⟨files, part, none, [], []⟩

/-- `conv.sh` exits with `0` only if the partition begins with the DTB that was checked; on eMMC
`dd` has to copy it. If it exits with another status, the partition is as it was, unless
`flash_erase` or `nandwrite` has failed on NAND, where the old contents are erased first. -/
theorem conv_sh_partition (t : Tools) (ht : t.Honest) (nand : Bool) (self arg : Name)
    (args : List Name) (files : Files) (part : Bytes) :
    let r := Sh.run (t.convSh nand self (arg :: args)) (Shell.start files part)
    (r.1 = 0 → (nand = false → r.2.DdCopied (fName arg)) →
        ∃ dtb, r.2.checked = some dtb ∧ dtb <+: r.2.part) ∧
      (r.1 ≠ 0 → r.2.part = part ∨ nand = true ∧ r.2.FlashFailed) := by
  have hstart : Shell.Unsaved part (Shell.start files part) := ⟨rfl, fun _ => List.not_mem_nil⟩
  have hdone := Sh.run_spec (convSh_spec ht nand self arg args) hstart
  exact ⟨hdone.written, hdone.kept⟩

namespace Bench

/-- The contents of a file at the start of the partition. -/
def copy (files : Files) (name : Name) (part : Bytes) : Bytes :=
  let data := (files name).getD []
  data ++ part.drop data.length

/-- External programs that all work; every conversion gives the same file. -/
def tools : Tools where
  ini2dts _ _ := ⟨0, some [1]⟩
  mcpp _ _ := ⟨0, some [1]⟩
  dtc _ _ := ⟨0, some [0xd0, 0x0d]⟩
  dtcCheck _ := 0
  flashErase part := (0, part.map fun _ => 0xff)
  nandwrite files name part := (0, copy files name part)
  ddZero part := (1, part.map fun _ => 0)
  dd files words part :=
    match words with
    | [word] => (0, copy files (word.drop 3) part)
    | _ => (1, part)
  cp files name := files name

theorem prefix_copy {files : Files} {name : Name} {data : Bytes} (h : files name = some data)
    (part : Bytes) : data <+: copy files name part := by
  unfold copy
  rw [h]
  exact List.prefix_append _ _

theorem tools_honest : tools.Honest where
  flashErase part _ b hb := by
    obtain ⟨_, _, rfl⟩ := List.mem_map.mp hb
    rfl
  nandwrite _ _ _ part h _ _ := prefix_copy h part
  dd _ _ _ part h _ := prefix_copy h part

def name : Name := ['a', '.', 'd', 't', 'b']

def files : Files := fun file => if file = name then some [0xd0, 0x0d] else none

/-- The storage fails when the new contents are to be written. -/
def broken : Tools :=
  { tools with nandwrite := fun _ _ part => (1, part), dd := fun _ _ part => (1, part) }

theorem broken_honest : broken.Honest where
  flashErase := tools_honest.flashErase
  nandwrite _ _ _ _ _ _ h := absurd h (by decide : (1 : ℕ) ≠ 0)
  dd _ _ _ _ _ h := absurd h (by decide : (1 : ℕ) ≠ 0)

end Bench

theorem conv_sh_partition_bench :
    let r := Sh.run (Bench.tools.convSh false [] [Bench.name]) (Shell.start Bench.files [1, 2, 3])
    r.1 = 0 ∧ ∃ dtb, r.2.checked = some dtb ∧ dtb <+: r.2.part := by
  have hdone := conv_sh_partition Bench.tools Bench.tools_honest false [] Bench.name [] Bench.files
    [1, 2, 3]
  have hzero : (Sh.run (Bench.tools.convSh false [] [Bench.name])
      (Shell.start Bench.files [1, 2, 3])).1 = 0 := by
    decide +kernel
  refine ⟨hzero, hdone.1 hzero fun _ => ⟨?_, ?_⟩⟩
  · decide +kernel
  · decide +kernel

/-- A failing `nandwrite` leaves an erased partition, and a failing `dd` is not noticed. -/
theorem conv_sh_loses_partition :
    let nand := Sh.run (Bench.broken.convSh true [] [Bench.name])
      (Shell.start Bench.files [1, 2, 3])
    let emmc := Sh.run (Bench.broken.convSh false [] [Bench.name])
      (Shell.start Bench.files [1, 2, 3])
    Bench.broken.Honest ∧ (nand.1 = 1 ∧ nand.2.part = [0xff, 0xff, 0xff]) ∧
      emmc.1 = 0 ∧ emmc.2.checked = some [0xd0, 0x0d] ∧ emmc.2.part = [0, 0, 0] := by
  refine ⟨Bench.broken_honest, ⟨?_, ?_⟩, ?_, ?_, ?_⟩
  all_goals decide +kernel

end YoctoLayers.TpsDts
