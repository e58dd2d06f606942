import YoctoLayers.Lib.Words
import YoctoLayers.TpsDts.Conv

/-! The base name that `conv.sh` derives from a path. -/
namespace YoctoLayers.TpsDts
open YoctoLayers.Lib YoctoLayers.Lib.Words Sh

theorem eraseFirst_append {c : Char} {t u v : Name} (hc : c ∉ t) (hu : ¬ c :: t <:+: u) :
    eraseFirst (c :: t) (u ++ (c :: t ++ v)) = u ++ v := by
  induction u with
  | nil =>
    have hpre : (c :: t).isPrefixOf (c :: t ++ v) := by simp
    unfold eraseFirst
    exact (if_pos hpre).trans (List.drop_left' rfl)
  | cons a u ih =>
    have hnot : ¬ (c :: t).isPrefixOf (a :: (u ++ (c :: t ++ v))) := by
      rw [List.isPrefixOf_iff_prefix]
      exact fun hpre => hu (prefix_of_prefix_append hc (List.cons_ne_nil a u) hpre).isInfix
    have hrest : eraseFirst (c :: t) (u ++ (c :: t ++ v)) = u ++ v :=
      ih fun hinfix => hu (List.infix_cons hinfix)
    calc eraseFirst (c :: t) (a :: (u ++ (c :: t ++ v)))
        = a :: eraseFirst (c :: t) (u ++ (c :: t ++ v)) := if_neg hnot
      _ = a :: (u ++ v) := congrArg (List.cons a) hrest

/-- Only newlines at the end are lost. -/
theorem substitute_append (s : Name) {t : Name} (ht : t ≠ []) (hnl : '\n' ∉ t) :
    substitute (s ++ t) = s ++ t := by
  obtain ⟨t, c, rfl⟩ := (List.eq_nil_or_concat t).resolve_left ht
  have hc : c ≠ '\n' := fun h => hnl (by simp [h])
  unfold substitute
  simp [hc]

theorem substitute_of_notMem {s : Name} (hnl : '\n' ∉ s) : substitute s = s := by
  by_cases hs : s = []
  · rw [hs]
    rfl
  · exact substitute_append [] hs hnl

/-- On a single line the command is all there is to `sed`. -/
theorem sed_line {f : Name → Name} {s : Name} (hs : '\n' ∉ s) (hfs : '\n' ∉ f s) :
    sed f s = f s := by
  unfold sed
  rw [List.splitOn_eq_singleton hs, List.map_singleton, List.intercalate_singleton]
  exact substitute_of_notMem hfs

/-- The last line of several ends the output. -/
theorem exists_sed_lines (f : Name → Name) (lines : Name) {line : Name} (hline : '\n' ∉ line) :
    ∃ out, sed f (lines ++ '\n' :: line) = substitute (out ++ ['\n'] ++ f line) := by
  refine ⟨['\n'].intercalate ((lines.splitOn '\n').map f), ?_⟩
  have hne : (lines.splitOn '\n').map f ≠ [] := by
    simp [List.splitOn_ne_nil]
  unfold sed
  rw [List.splitOn_append_cons_self, List.splitOn_eq_singleton hline, List.map_append,
    List.map_singleton, intercalate_concat hne]

theorem afterLastDot_dot (base : Name) {ext : Name} (hext : '.' ∉ ext) :
    afterLastDot (dot base ext) = ext := by
  have hall : ∀ c ∈ ext.reverse, decide (c ≠ '.') = true := fun c hc =>
    decide_eq_true fun h => hext (h ▸ List.mem_reverse.mp hc)
  unfold afterLastDot dot
  rw [List.reverse_append, List.reverse_cons, List.append_assoc,
    List.takeWhile_append_of_pos hall]
  simp

namespace FType
variable (ty : FType)

theorem dot_notMem_ext : '.' ∉ ty.ext := by
  cases ty <;> decide

theorem newline_notMem_ext : '\n' ∉ ty.ext := by
  cases ty <;> decide

theorem ext_ne_nil : ty.ext ≠ [] := by
  cases ty <;> decide

theorem length_ext : ty.ext.length = 3 := by
  cases ty <;> rfl

end FType

/-- No other text is the extension of a type. -/
theorem eq_ext_of_fType {ext : Name} {ty : FType} (h : fType ext = some ty) : ext = ty.ext := by
  unfold fType at h
  split_ifs at h with hini hdts hdtb
  · exact hini.trans (congrArg FType.ext (Option.some.inj h))
  · exact hdts.trans (congrArg FType.ext (Option.some.inj h))
  · exact hdtb.trans (congrArg FType.ext (Option.some.inj h))

theorem fType_ext (ty : FType) : fType ty.ext = some ty := by
  cases ty <;> decide

theorem newline_notMem_dot (ty : FType) {base : Name} (hnl : '\n' ∉ base) :
    '\n' ∉ dot base ty.ext := by
  have hext : '\n' ∉ ty.ext := ty.newline_notMem_ext
  simp [dot, hnl, hext]

section
variable {ty : FType} {base : Name}

theorem fExt_dot (hnl : '\n' ∉ base) : fExt (dot base ty.ext) = ty.ext := by
  have hlast := afterLastDot_dot base ty.dot_notMem_ext
  have hline : sed afterLastDot (dot base ty.ext) = afterLastDot (dot base ty.ext) :=
    sed_line (newline_notMem_dot ty hnl) (hlast.symm ▸ ty.newline_notMem_ext)
  exact hline.trans hlast

/-- The lines before the last one remain in `f_ext`. -/
theorem newline_mem_fExt (hnl : '\n' ∈ base) : '\n' ∈ fExt (dot base ty.ext) := by
  obtain ⟨lines, line, rfl, hline⟩ := exists_last hnl
  have hdot : dot (lines ++ '\n' :: line) ty.ext = lines ++ '\n' :: dot line ty.ext := by
    simp [dot]
  obtain ⟨out, hout⟩ := exists_sed_lines afterLastDot lines (newline_notMem_dot ty hline)
  rw [afterLastDot_dot line ty.dot_notMem_ext] at hout
  have hext : fExt (dot (lines ++ '\n' :: line) ty.ext) = out ++ ['\n'] ++ ty.ext := by
    unfold fExt
    rw [hdot, hout, substitute_append _ ty.ext_ne_nil ty.newline_notMem_ext]
  rw [hext]
  simp

theorem fType_fExt_of_newline (hnl : '\n' ∈ base) : fType (fExt (dot base ty.ext)) = none := by
  rw [Option.eq_none_iff_forall_ne_some]
  intro ty' hty'
  have hmem : '\n' ∈ fExt (dot base ty.ext) := newline_mem_fExt hnl
  rw [eq_ext_of_fType hty'] at hmem
  exact ty'.newline_notMem_ext hmem

theorem fName_dot (hnl : '\n' ∉ base) {dir rest : Name}
    (hfirst : dot base ty.ext = dir ++ ('.' :: ty.ext ++ rest)) (hdir : ¬ '.' :: ty.ext <:+: dir) :
    fName (dot base ty.ext) = dir ++ rest := by
  have herase : eraseFirst ('.' :: ty.ext) (dot base ty.ext) = dir ++ rest := by
    rw [hfirst]
    exact eraseFirst_append ty.dot_notMem_ext hdir
  have hout : '\n' ∉ dir ++ rest := by
    have hall := newline_notMem_dot ty hnl
    rw [hfirst] at hall
    simp only [List.mem_append, not_or] at hall ⊢
    exact ⟨hall.1, hall.2.2⟩
  unfold fName
  rw [fExt_dot hnl, sed_line (newline_notMem_dot ty hnl) (herase.symm ▸ hout), herase]

/-- Behind the first occurrence of the extension nothing but further ones may come. -/
theorem dot_fName_iff (hnl : '\n' ∉ base) :
    dot (fName (dot base ty.ext)) ty.ext = dot base ty.ext ↔
      ∃ dir k, ¬ '.' :: ty.ext <:+: dir ∧ base = dir ++ power ('.' :: ty.ext) k := by
  constructor
  · intro h
    have hoccurs : '.' :: ty.ext <:+: dot base ty.ext := (List.suffix_append base _).isInfix
    obtain ⟨dir, rest, hfirst, hdir⟩ := exists_first (List.cons_ne_nil _ _) hoccurs
    rw [fName_dot hnl hfirst hdir, hfirst, dot, List.append_assoc] at h
    obtain ⟨k, rfl⟩ := (append_comm_iff ty.dot_notMem_ext).mp (List.append_cancel_left h)
    have hbase : base ++ '.' :: ty.ext = dir ++ power ('.' :: ty.ext) k ++ '.' :: ty.ext := by
      rw [List.append_assoc, power_append_self]
      exact hfirst
    exact ⟨dir, k, hdir, List.append_cancel_right hbase⟩
  · rintro ⟨dir, k, hdir, rfl⟩
    have hfirst : dot (dir ++ power ('.' :: ty.ext) k) ty.ext =
        dir ++ ('.' :: ty.ext ++ power ('.' :: ty.ext) k) := by
      rw [dot, List.append_assoc, power_append_self]
    rw [fName_dot hnl hfirst hdir]

end

/-- The base name that `conv.sh` derives, where it comes to derive one, is that of the path. -/
def NamesPath (path : Name) : Prop :=
  ∀ ty, fType (fExt path) = some ty → dot (fName path) ty.ext = path

theorem namesPath_iff (ty : FType) (base : Name) :
    NamesPath (dot base ty.ext) ↔
      '\n' ∈ base ∨ dot (fName (dot base ty.ext)) ty.ext = dot base ty.ext := by
  by_cases hnl : '\n' ∈ base
  · refine ⟨fun _ => Or.inl hnl, fun _ ty' hty' => ?_⟩
    rw [fType_fExt_of_newline hnl] at hty'
    cases hty'
  · have htype : fType (fExt (dot base ty.ext)) = some ty := by
      rw [fExt_dot hnl, fType_ext]
    unfold NamesPath
    constructor
    · intro h
      exact Or.inr (h ty htype)
    · intro h ty' hty'
      obtain rfl : ty = ty' := Option.some.inj (htype.symm.trans hty')
      exact h.resolve_left hnl

theorem NamesPath.fName_eq {ty ty' : FType} {base : Name} (h : NamesPath (dot base ty.ext))
    (hty' : fType (fExt (dot base ty.ext)) = some ty') : fName (dot base ty.ext) = base := by
  have hlen : ('.' :: ty'.ext).length = ('.' :: ty.ext).length := by
    rw [List.length_cons, List.length_cons, ty'.length_ext, ty.length_ext]
  exact (List.append_inj' (h ty' hty') hlen).1

theorem FType.not_namesPath_ext (ty : FType) : ¬ NamesPath ty.ext := by
  intro h
  have htype : fType (fExt ty.ext) = some ty := by
    cases ty <;> decide +kernel
  have hlen := congrArg List.length (h ty htype)
  rw [dot, List.length_append, List.length_cons] at hlen
  omega

/-- What `conv.sh` writes for a file `base.ini`, `base.dts` or `base.dtb`. -/
def outputs (base : Name) : List Name :=
  [dot base extDts, dot base extTmp, dot base extDtb, hwini (dot base extIni)]

section
variable {file : Name} {data : Option Bytes}

/-- The contents of a file. -/
def Shell.Has (file : Name) (data : Option Bytes) (sh : Shell) : Prop := sh.files file = data

theorem keeps_echo (line : String) : Keeps (Shell.Has file data) (echo line) :=
  Keeps.modify fun _ hsh => hsh

theorem keeps_fail {α : Type} (line : String) :
    Keeps (Shell.Has file data) (fail line : Sh α) := by
  refine Keeps.bind (keeps_echo line) fun _ => ?_
  exact Keeps.throw 1

theorem keeps_orFail (status : ℕ) (line : String) :
    Keeps (Shell.Has file data) (orFail status line) :=
  Keeps.ite (Keeps.pure ()) (keeps_fail line)

theorem keeps_when {c : Bool} {x : Sh Unit} (hx : Keeps (Shell.Has file data) x) :
    Keeps (Shell.Has file data) (when c x) :=
  Keeps.ite hx (Keeps.pure ())

theorem keeps_needFile (name : Name) : Keeps (Shell.Has file data) (Tools.needFile name) := by
  refine Keeps.bind (Keeps.get.bind fun _ => Keeps.pure _) fun found => ?_
  exact Keeps.ite (keeps_fail _) (Keeps.pure ())

theorem keeps_convertTo {tool : Tool} {f : Files → Name → Outcome} {input output : Name}
    (hout : file ≠ output) :
    Keeps (Shell.Has file data) (Tools.convertTo tool f input output) :=
  ensures_iff.mpr fun _ hsh => (Function.update_of_ne hout _ _).trans hsh

theorem keeps_write (tool : Tool) (f : Files → Bytes → ℕ × Bytes) :
    Keeps (Shell.Has file data) (Tools.write tool f) :=
  ensures_iff.mpr fun _ hsh => hsh

variable {t : Tools} {base : Name}

theorem keeps_convert (ty : FType) (hfile : file ∉ outputs base) :
    Keeps (Shell.Has file data) (t.convert ty base) := by
  simp only [outputs, List.mem_cons, List.not_mem_nil, or_false, not_or] at hfile
  obtain ⟨hdts, htmp, hdtb, -⟩ := hfile
  have hini : Keeps (Shell.Has file data) (t.iniToDts base) :=
    (keeps_convertTo hdts).bind fun _ => keeps_orFail _ _
  have hcompile : Keeps (Shell.Has file data) (t.dtsToDtb base) := by
    refine (keeps_convertTo htmp).bind fun _ => (keeps_orFail _ _).bind fun _ => ?_
    exact (keeps_convertTo hdtb).bind fun _ => keeps_orFail _ _
  have hcheck : Keeps (Shell.Has file data) (t.checkDtb base) := by
    refine Keeps.bind (ensures_iff.mpr fun _ hsh => hsh) fun _ => ?_
    exact Keeps.ite (Keeps.pure ()) (Keeps.throw 1)
  refine (keeps_when hini).bind fun _ => (keeps_needFile _).bind fun _ => ?_
  exact (keeps_when hcompile).bind fun _ => (keeps_needFile _).bind fun _ => hcheck

theorem keeps_partSave (nand : Bool) : Keeps (Shell.Has file data) (t.partSave nand base) := by
  cases nand with
  | false => exact (keeps_write _ _).bind fun _ => (keeps_write _ _).bind fun _ => Keeps.pure 0
  | true =>
    refine (keeps_write _ _).bind fun _ => Keeps.ite (Keeps.pure 1) ?_
    exact (keeps_write _ _).bind fun _ => Keeps.ite (Keeps.pure 1) (Keeps.pure 0)

theorem keeps_keepIni (hfile : file ∉ outputs base) :
    Keeps (Shell.Has file data) (t.keepIni base) := by
  have hcopy : file ≠ hwini (dot base extIni) := fun h => hfile (by simp [outputs, h])
  exact Keeps.modify fun _ hsh => (Function.update_of_ne hcopy _ _).trans hsh

theorem keeps_convSh {ty : FType} (h : NamesPath (dot base ty.ext)) (hfile : file ∉ outputs base)
    (nand : Bool) (self : Name) (args : List Name) :
    Keeps (Shell.Has file data) (t.convSh nand self (dot base ty.ext :: args)) := by
  refine (keeps_needFile _).bind fun _ => ?_
  cases hty' : fType (fExt (dot base ty.ext)) with
  | none => exact keeps_fail _
  | some ty' =>
    dsimp only
    rw [h.fName_eq hty']
    refine (keeps_convert ty' hfile).bind fun _ => (keeps_partSave nand).bind fun _ => ?_
    refine (keeps_orFail _ _).bind fun _ => (keeps_echo _).bind fun _ => ?_
    exact Keeps.ite (Keeps.throw 0) (keeps_when (keeps_keepIni hfile))

end

/-- Programs that do the same where `conv.sh` is to call them for `base`. -/
structure Tools.SameOn (base : Name) (t t' : Tools) : Prop where
  ini2dts : ∀ files, t.ini2dts files (dot base extIni) = t'.ini2dts files (dot base extIni)
  mcpp : ∀ files, t.mcpp files (dot base extDts) = t'.mcpp files (dot base extDts)
  dtc : ∀ files, t.dtc files (dot base extTmp) = t'.dtc files (dot base extTmp)
  dtcCheck : t.dtcCheck = t'.dtcCheck
  flashErase : t.flashErase = t'.flashErase
  nandwrite : ∀ files, t.nandwrite files (dot base extDtb) = t'.nandwrite files (dot base extDtb)
  ddZero : t.ddZero = t'.ddZero
  dd : ∀ files, t.dd files (fields (ddIf base)) = t'.dd files (fields (ddIf base))
  cp : ∀ files, t.cp files (dot base extIni) = t'.cp files (dot base extIni)

namespace Tools.SameOn
variable {base : Name} {t t' : Tools}

theorem convert_eq (h : t.SameOn base t') (ty : FType) :
    t.convert ty base = t'.convert ty base := by
  unfold convert iniToDts dtsToDtb checkDtb convertTo
  simp only [h.ini2dts, h.mcpp, h.dtc, h.dtcCheck]

theorem partSave_eq (h : t.SameOn base t') (nand : Bool) :
    t.partSave nand base = t'.partSave nand base := by
  unfold partSave partSaveNand partSaveEmmc
  simp only [h.flashErase, h.nandwrite, h.ddZero, h.dd]

theorem keepIni_eq (h : t.SameOn base t') : t.keepIni base = t'.keepIni base := by
  unfold keepIni
  simp only [h.cp]

theorem convSh_eq (h : t.SameOn base t') {ty : FType} (hname : NamesPath (dot base ty.ext))
    (nand : Bool) (self : Name) (args : List Name) :
    t.convSh nand self (dot base ty.ext :: args) =
      t'.convSh nand self (dot base ty.ext :: args) := by
  unfold convSh
  dsimp only
  cases hty' : fType (fExt (dot base ty.ext)) with
  | none => rfl
  | some ty' =>
    simp only [hname.fName_eq hty', h.convert_eq, h.partSave_eq, h.keepIni_eq]

end Tools.SameOn

/-- A run of `conv.sh` on `path` reads and writes the files of `base`: other files stay as they are,
and what the programs do with other files does not matter. -/
structure StaysBeside (base path : Name) : Prop where
  reads : ∀ t t' : Tools, t.SameOn base t' → ∀ nand self args,
    t.convSh nand self (path :: args) = t'.convSh nand self (path :: args)
  writes : ∀ (t : Tools) nand self args sh file, file ∉ outputs base →
    (Sh.run (t.convSh nand self (path :: args)) sh).2.files file = sh.files file

/-- `conv.sh` finds the base name of `base.ini`, `base.dts` and `base.dtb` if and only if the first
occurrence of the extension in the path is followed by further ones only; on a path with a newline
it gives up before it needs one. With that name it works on the files beside the given one. A path
that is the extension alone has no base name, and what is derived from it names another file. -/
theorem conv_sh_base_name (ty : FType) (base : Name) :
    (NamesPath (dot base ty.ext) ↔
        '\n' ∈ base ∨ ∃ dir k, ¬ '.' :: ty.ext <:+: dir ∧ base = dir ++ power ('.' :: ty.ext) k) ∧
      (NamesPath (dot base ty.ext) → StaysBeside base (dot base ty.ext)) ∧ ¬ NamesPath ty.ext := by
  refine ⟨?_, fun h => ?_, ty.not_namesPath_ext⟩
  · rw [namesPath_iff]
    by_cases hnl : '\n' ∈ base
    · exact ⟨fun _ => Or.inl hnl, fun _ => Or.inl hnl⟩
    · rw [dot_fName_iff hnl]
  · constructor
    · exact fun t t' hsame nand self args => hsame.convSh_eq h nand self args
    · intro t nand self args sh file hfile
      have hkeeps : Keeps (Shell.Has file (sh.files file))
          (t.convSh nand self (dot base ty.ext :: args)) := keeps_convSh h hfile nand self args
      exact Sh.run_spec (Q := fun _ => Shell.Has file (sh.files file)) hkeeps rfl

namespace Bench

/-- `/boot/x.ini.d/board` -/
def board : Name := "/boot/x.ini.d/board".toList

end Bench

/-- The directory loses the extension instead of the file. -/
theorem conv_sh_loses_name :
    fType (fExt (dot Bench.board extIni)) = some .ini ∧
      fName (dot Bench.board extIni) = "/boot/x.d/board.ini".toList ∧
      dot (fName (dot Bench.board extIni)) extIni ≠ dot Bench.board extIni ∧
      ¬ NamesPath (dot Bench.board extIni) := by
  have htype : fType (fExt (dot Bench.board extIni)) = some .ini := by decide +kernel
  have hname : dot (fName (dot Bench.board extIni)) extIni ≠ dot Bench.board extIni := by
    decide +kernel
  refine ⟨htype, by decide +kernel, hname, ?_⟩
  intro h
  exact hname (h .ini htype)

end YoctoLayers.TpsDts
