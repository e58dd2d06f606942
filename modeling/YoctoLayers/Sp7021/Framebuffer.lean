import Mathlib.Algebra.Group.Nat.Defs
import Mathlib.Data.Int.Notation
import Mathlib.Data.List.Basic
import Mathlib.Order.Basic

/-! The patched `fb_sp7021_main.c`: the loop over a colour map, and requests to set a mode. -/
namespace YoctoLayers.Sp7021

/-- `struct fb_cmap`: the range, and whether there is a `transp` array. -/
structure FbCmap where
  start : UInt32
  len : UInt32
  transp : Bool
deriving DecidableEq, Repr

/-- The formats that the visible part of the loop names, and the others. -/
inductive ColorFmt
  | argb8888
  | bpp8
  | rgb565
  | argb4444
  | yuy2
  | other (fmt : ℕ)
deriving DecidableEq, Repr

/-- What a branch of the loop body does in one pass: the arrays it takes an entry of, and whether
it writes `palette[i]`. -/
structure CmapBranch where
  red : Bool
  green : Bool
  blue : Bool
  palette : Bool
deriving DecidableEq, Repr

/-- The branch for a format. What the patch does not show of a branch is that of `hidden`. -/
def cmapBranch (hidden : ColorFmt → CmapBranch) : ColorFmt → CmapBranch
  | .bpp8 => ⟨true, true, true, true⟩
  | .rgb565 => ⟨true, true, true, true⟩
  | .argb8888 => { hidden .argb8888 with red := true, palette := true }
  | .argb4444 => { hidden .argb4444 with palette := true }
  | fmt => hidden fmt

/-- The loop index, the number of entries taken of each array, and the indices written. -/
structure CmapLoop where
  i : UInt32
  red : ℕ
  green : ℕ
  blue : ℕ
  transp : ℕ
  written : List UInt32
deriving DecidableEq, Repr

/-- The loop is entered. -/
def CmapLoop.init (cmap : FbCmap) : CmapLoop := ⟨cmap.start, 0, 0, 0, 0, []⟩

/-- The loop body and `++i`. -/
def CmapLoop.pass (branch : CmapBranch) (cmap : FbCmap) (s : CmapLoop) : CmapLoop where
  i := s.i + 1
  red := s.red + branch.red.toNat
  green := s.green + branch.green.toNat
  blue := s.blue + branch.blue.toNat
  transp := s.transp + cmap.transp.toNat
  written := if branch.palette then s.written ++ [s.i] else s.written

/-- The loop of `setcmap`, which is left within the given number of tests of its condition. -/
def setcmapLoop (branch : CmapBranch) (cmap : FbCmap) : ℕ → CmapLoop → Option CmapLoop
  | 0, _ => none
  | tests + 1, s =>
    if s.i < cmap.start + cmap.len then setcmapLoop branch cmap tests (s.pass branch cmap)
    else some s

/-- `FB_PALETTE_LEN / sizeof(unsigned int)`. -/
def paletteEntries (paletteLen : ℕ) : ℕ := paletteLen / 4

/-- What the loop is to have done for a colour map. -/
structure CmapLoop.Done (s : CmapLoop) (cmap : FbCmap) (paletteLen : ℕ) : Prop where
  red : s.red ≤ cmap.len.toNat
  green : s.green ≤ cmap.len.toNat
  blue : s.blue ≤ cmap.len.toNat
  transp : s.transp ≤ cmap.len.toNat
  written : ∀ i ∈ s.written, i.toNat < paletteEntries paletteLen

section
variable {branch : CmapBranch} {cmap : FbCmap}

/-- From an index that is `n` passes before the end. -/
theorem setcmapLoop_run (branch : CmapBranch) {n : ℕ} {s : CmapLoop}
    (hn : s.i.toNat + n = (cmap.start + cmap.len).toNat) {tests : ℕ} (htests : n < tests) :
    ∃ s', setcmapLoop branch cmap tests s = some s' ∧
      s'.red ≤ s.red + n ∧ s'.green ≤ s.green + n ∧ s'.blue ≤ s.blue + n ∧
      s'.transp ≤ s.transp + n ∧
      ∀ j, j ∈ s'.written ↔ j ∈ s.written ∨
        branch.palette = true ∧ s.i.toNat ≤ j.toNat ∧ j.toNat < (cmap.start + cmap.len).toNat := by
  induction n generalizing s tests with
  | zero =>
    obtain ⟨tests, rfl⟩ := Nat.exists_eq_succ_of_ne_zero (Nat.ne_of_gt htests)
    have hend : ¬ s.i < cmap.start + cmap.len := by
      rw [UInt32.lt_iff_toNat_lt]
      omega
    refine ⟨s, if_neg hend, by omega, by omega, by omega, by omega, fun j => ?_⟩
    constructor
    · exact Or.inl
    · rintro (hj | ⟨-, hlo, hhi⟩)
      · exact hj
      · omega
  | succ n ih =>
    obtain ⟨tests, rfl⟩ := Nat.exists_eq_succ_of_ne_zero (Nat.ne_zero_of_lt htests)
    have hlt : s.i < cmap.start + cmap.len := by
      rw [UInt32.lt_iff_toNat_lt]
      omega
    have hbound : (cmap.start + cmap.len).toNat < 2 ^ 32 := (cmap.start + cmap.len).toNat_lt
    have hnext : (s.pass branch cmap).i.toNat = s.i.toNat + 1 := by
      change (s.i + 1).toNat = _
      rw [UInt32.toNat_add, UInt32.toNat_one]
      exact Nat.mod_eq_of_lt (by omega)
    obtain ⟨s', hrun, hred, hgreen, hblue, htransp, hwritten⟩ :=
      ih (s := s.pass branch cmap) (by omega) (Nat.lt_of_succ_lt_succ htests)
    have hone (b : Bool) : b.toNat ≤ 1 := Bool.toNat_le b
    have hr := hone branch.red
    have hg := hone branch.green
    have hb := hone branch.blue
    have ht := hone cmap.transp
    simp only [CmapLoop.pass] at hred hgreen hblue htransp
    refine ⟨s', (if_pos hlt).trans hrun, by omega, by omega, by omega, by omega, fun j => ?_⟩
    rw [hwritten, hnext]
    have hmem : j ∈ (s.pass branch cmap).written ↔
        j ∈ s.written ∨ branch.palette = true ∧ j.toNat = s.i.toNat := by
      cases hp : branch.palette <;> simp [CmapLoop.pass, hp, UInt32.toNat_inj]
    rw [hmem, or_assoc, ← and_or_left]
    refine or_congr_right (and_congr_right fun _ => ?_)
    omega

/-- A sum that wraps is below the first index. -/
theorem setcmapLoop_wraps (h : 2 ^ 32 ≤ cmap.start.toNat + cmap.len.toNat) (tests : ℕ) :
    setcmapLoop branch cmap (tests + 1) (.init cmap) = some (.init cmap) := by
  apply if_neg
  have hstart := cmap.start.toNat_lt
  have hlen := cmap.len.toNat_lt
  rw [UInt32.lt_iff_toNat_lt, UInt32.toNat_add]
  change ¬ cmap.start.toNat < _
  omega

/-- A whole run, where the sum does not wrap. -/
theorem setcmapLoop_init (branch : CmapBranch)
    (hwrap : ¬ 2 ^ 32 ≤ cmap.start.toNat + cmap.len.toNat) :
    ∃ s, setcmapLoop branch cmap (cmap.len.toNat + 1) (.init cmap) = some s ∧
      s.red ≤ cmap.len.toNat ∧ s.green ≤ cmap.len.toNat ∧ s.blue ≤ cmap.len.toNat ∧
      s.transp ≤ cmap.len.toNat ∧
      ∀ j, j ∈ s.written ↔ branch.palette = true ∧ cmap.start.toNat ≤ j.toNat ∧
        j.toNat < cmap.start.toNat + cmap.len.toNat := by
  have hsum : (cmap.start + cmap.len).toNat = cmap.start.toNat + cmap.len.toNat := by
    rw [UInt32.toNat_add]
    exact Nat.mod_eq_of_lt (Nat.lt_of_not_le hwrap)
  obtain ⟨s, hrun, hred, hgreen, hblue, htransp, hwritten⟩ :=
    setcmapLoop_run branch (s := .init cmap) hsum.symm (Nat.lt_succ_self _)
  change _ ≤ 0 + _ at hred hgreen hblue htransp
  rw [Nat.zero_add] at hred hgreen hblue htransp
  refine ⟨s, hrun, hred, hgreen, hblue, htransp, fun j => ?_⟩
  rw [hwritten, hsum]
  exact or_iff_right List.not_mem_nil

/-- The indices of a colour map are within a palette when its last one is. -/
theorem range_within_iff (hwrap : ¬ 2 ^ 32 ≤ cmap.start.toNat + cmap.len.toNat) (entries : ℕ) :
    (∀ j : UInt32, cmap.start.toNat ≤ j.toNat → j.toNat < cmap.start.toNat + cmap.len.toNat →
      j.toNat < entries) ↔ cmap.len = 0 ∨ cmap.start.toNat + cmap.len.toNat ≤ entries := by
  constructor
  · intro h
    by_cases hzero : cmap.len.toNat = 0
    · exact Or.inl (UInt32.toNat_inj.mp hzero)
    · have hlast : (UInt32.ofNat (cmap.start.toNat + cmap.len.toNat - 1)).toNat =
          cmap.start.toNat + cmap.len.toNat - 1 :=
        UInt32.toNat_ofNat_of_lt' (by change _ < 2 ^ 32; omega)
      have hlt := h (UInt32.ofNat (cmap.start.toNat + cmap.len.toNat - 1)) (by omega) (by omega)
      exact Or.inr (by omega)
  · rintro (hzero | hfit) j hlo hhi
    · rw [hzero] at hhi
      change _ < cmap.start.toNat + 0 at hhi
      omega
    · omega

end

/-- The loop ends, takes at most `len` entries of each array and writes within the palette, if and
only if the format has no palette, or the sum of `start` and `len` wraps or is within the
palette. -/
theorem setcmap_ok_iff (hidden : ColorFmt → CmapBranch) (fmt : ColorFmt) (cmap : FbCmap)
    (paletteLen : ℕ) :
    (∃ s, setcmapLoop (cmapBranch hidden fmt) cmap (cmap.len.toNat + 1) (.init cmap) = some s ∧
      s.Done cmap paletteLen) ↔
    (cmapBranch hidden fmt).palette = false ∨ cmap.len = 0 ∨
      2 ^ 32 ≤ cmap.start.toNat + cmap.len.toNat ∨
      cmap.start.toNat + cmap.len.toNat ≤ paletteEntries paletteLen := by
  by_cases hwrap : 2 ^ 32 ≤ cmap.start.toNat + cmap.len.toNat
  · refine iff_of_true ⟨_, setcmapLoop_wraps hwrap _, ?_⟩ (Or.inr (Or.inr (Or.inl hwrap)))
    exact ⟨Nat.zero_le _, Nat.zero_le _, Nat.zero_le _, Nat.zero_le _, nofun⟩
  · obtain ⟨s, hrun, hred, hgreen, hblue, htransp, hwritten⟩ :=
      setcmapLoop_init (cmapBranch hidden fmt) hwrap
    rw [or_iff_right hwrap, ← range_within_iff hwrap]
    constructor
    · rintro ⟨s', hrun', hdone⟩
      cases hrun.symm.trans hrun'
      rw [or_iff_not_imp_left, Bool.not_eq_false]
      intro hpalette j hlo hhi
      exact hdone.written j ((hwritten j).mpr ⟨hpalette, hlo, hhi⟩)
    · intro hcond
      refine ⟨s, hrun, hred, hgreen, hblue, htransp, fun j hj => ?_⟩
      obtain ⟨hpalette, hlo, hhi⟩ := (hwritten j).mp hj
      rcases hcond with hno | hwithin
      · cases hno.symm.trans hpalette
      · exact hwithin j hlo hhi

/-- A palette of 256 entries, and a colour map that begins behind it. -/
theorem setcmap_writes_behind :
    ∃ s, setcmapLoop (cmapBranch (fun _ => ⟨false, false, false, false⟩) .rgb565) ⟨256, 1, false⟩ 2
        (.init ⟨256, 1, false⟩) = some s ∧ s.written = [256] ∧ ¬ s.Done ⟨256, 1, false⟩ 1024 :=
  ⟨_, rfl, rfl, fun h => absurd (h.written 256 (by decide)) (by decide)⟩

/-- `struct fb_bitfield`. -/
structure FbBitfield where
  offset : UInt32
  length : UInt32
  msbRight : UInt32
deriving DecidableEq, Repr

/-- What `struct fb_var_screeninfo` says about the memory of the picture. -/
structure FbRegion where
  xres : UInt32
  yres : UInt32
  xresVirtual : UInt32
  yresVirtual : UInt32
  bitsPerPixel : UInt32
  red : FbBitfield
  green : FbBitfield
  blue : FbBitfield
  transp : FbBitfield
deriving DecidableEq, Repr

/-- `struct fb_var_screeninfo`. -/
structure FbVarScreeninfo extends FbRegion where
  xoffset : UInt32
  yoffset : UInt32
  grayscale : UInt32
  nonstd : UInt32
  activate : UInt32
  height : UInt32
  width : UInt32
  accelFlags : UInt32
  pixclock : UInt32
  leftMargin : UInt32
  rightMargin : UInt32
  upperMargin : UInt32
  lowerMargin : UInt32
  hsyncLen : UInt32
  vsyncLen : UInt32
  sync : UInt32
  vmode : UInt32
  rotate : UInt32
  colorspace : UInt32
deriving DecidableEq, Repr

/-- `FB_VMODE_NONINTERLACED`. -/
def fbVmodeNoninterlaced : UInt32 := 0

/-- `_sp7021_fb_check_var`: the error code, and the request as it leaves it. -/
def fbCheckVar (v : FbVarScreeninfo) : ℤ × FbVarScreeninfo :=
  let v := { v with vmode := fbVmodeNoninterlaced }
  let v := if v.sync ≠ 0 then { v with sync := 0 } else v
  -- the timing of 59.94 frames per second
  let v := { v with leftMargin := 60, rightMargin := 16, upperMargin := 30, lowerMargin := 10 }
  let v := if v.vsyncLen ≠ 0 then { v with vsyncLen := 0 } else v
  (0, v)

/-- `_sp7021_fb_set_par`. -/
def fbSetPar (_ : FbVarScreeninfo) : ℤ := 0

/-- A request of the framebuffer core: the error code, and `info->var` after it. -/
def fbSetVar (req var : FbVarScreeninfo) : ℤ × FbVarScreeninfo :=
  let (err, v) := fbCheckVar req
  if err ≠ 0 then (err, var) else (fbSetPar v, v)

/-- `info->var` after each request of a sequence. -/
def fbVars (var : FbVarScreeninfo) : List FbVarScreeninfo → List FbVarScreeninfo
  | [] => []
  | req :: reqs =>
    let var := (fbSetVar req var).2
    var :: fbVars var reqs

/-- No request is refused, and its region is stored as it is. -/
theorem toFbRegion_fbSetVar (req var : FbVarScreeninfo) :
    (fbSetVar req var).2.toFbRegion = req.toFbRegion := by
  change (fbCheckVar req).2.toFbRegion = _
  unfold fbCheckVar
  dsimp only
  split_ifs <;> rfl

/-- Along any sequence of requests `info->var` keeps the region set up at probe, if and only if no
request asks for another one. -/
theorem fb_region_iff (var : FbVarScreeninfo) (reqs : List FbVarScreeninfo) :
    (∀ v ∈ fbVars var reqs, v.toFbRegion = var.toFbRegion) ↔
      ∀ req ∈ reqs, req.toFbRegion = var.toFbRegion := by
  have hrun (v : FbVarScreeninfo) : (∀ v' ∈ fbVars v reqs, v'.toFbRegion = var.toFbRegion) ↔
      ∀ req ∈ reqs, req.toFbRegion = var.toFbRegion := by
    induction reqs generalizing v with
    | nil => exact iff_of_true nofun nofun
    | cons req reqs ih =>
      rw [fbVars, List.forall_mem_cons, List.forall_mem_cons, toFbRegion_fbSetVar, ih]
  exact hrun var

/-- A region of 1280 by 720 pixels in RGB565, and a request for 1920 by 1080. -/
theorem fb_region_changed :
    let bits (offset length : UInt32) : FbBitfield := ⟨offset, length, 0⟩
    let region : FbRegion :=
      ⟨1280, 720, 1280, 720, 16, bits 11 5, bits 5 6, bits 0 5, bits 0 0⟩
    let var : FbVarScreeninfo := ⟨region, 0, 0, 0, 0, 0, 0, 0, 0, 0, 0, 0, 0, 0, 0, 0, 0, 0, 0, 0⟩
    ∃ v ∈ fbVars var [{ var with xres := 1920, yres := 1080 }],
      v.xres = 1920 ∧ v.yres = 1080 ∧ v.toFbRegion ≠ region := by
  decide

end YoctoLayers.Sp7021
