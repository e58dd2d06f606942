import YoctoLayers.RpiOvls.Configfs
import Mathlib.Tactic.Abel

/-! What the items of configfs hold of the kernel, over all runs. -/
namespace YoctoLayers.RpiOvls
open YoctoLayers.Lib

variable {s t : Cfs} {k : Kernel} {o : CfsOverlayItem} {i : ℕ} {lost : Multiset ℤ}

/-- What an item looks like between two calls. -/
inductive CfsOverlayItem.Shape (blob : ℤ → Bytes) (o : CfsOverlayItem) : Prop
  | unset (path : o.path = []) (fw : o.fw = none) (dtbo : o.dtbo = none) (size : o.dtboSize = 0)
  | byPath (fw : Firmware) (path : o.path ≠ []) (image : o.fw = some fw) (dtbo : o.dtbo = none)
      (size : o.dtboSize = 0) (id : 0 < o.ovId) (made : blob o.ovId = fdtOf fw)
  | byDtbo (b : Block) (path : o.path = []) (fw : o.fw = none) (copy : o.dtbo = some b)
      (size : o.dtboSize = b.data.length) (data : b.data ≠ []) (id : 0 < o.ovId)
      (made : blob o.ovId = b.data)

namespace CfsOverlayItem.Shape

theorem isSet_iff {blob : ℤ → Bytes} (h : o.Shape blob) :
    o.isSet = true ↔ o.path ≠ [] ∨ o.dtbo ≠ none := by
  unfold isSet
  rw [Bool.or_eq_true, decide_eq_true_iff, decide_eq_true_iff]
  cases h with
  | unset path fw dtbo size => simp [path, dtbo, size]
  | byPath fw path image dtbo size => simp [path]
  | byDtbo b path fw copy size data =>
    have hlen := List.length_pos_of_ne_nil data
    simp [copy, size, hlen]

theorem of_not_isSet {blob : ℤ → Bytes} (h : o.Shape blob) (hset : ¬ o.isSet = true) :
    o.path = [] ∧ o.fw = none ∧ o.dtbo = none ∧ o.dtboSize = 0 := by
  rw [h.isSet_iff, not_or, not_not, not_not] at hset
  cases h with
  | unset path fw dtbo size => exact ⟨path, fw, dtbo, size⟩
  | byPath fw path => exact absurd hset.1 path
  | byDtbo b path fw copy => exact absurd (copy.symm.trans hset.2) (Option.some_ne_none b)

theorem congr {blob blob' : ℤ → Bytes} (h : o.Shape blob)
    (hsame : 0 < o.ovId → blob' o.ovId = blob o.ovId) : o.Shape blob' := by
  cases h with
  | unset path fw dtbo size => exact .unset path fw dtbo size
  | byPath fw path image dtbo size id made =>
    exact .byPath fw path image dtbo size id ((hsame id).trans made)
  | byDtbo b path fw copy size data id made =>
    exact .byDtbo b path fw copy size data id ((hsame id).trans made)

end CfsOverlayItem.Shape

/-! ### One call -/

/-- The changeset that `of_overlay_fdt_apply` leaves. -/
def Applied.changeset (ap : Applied) : Multiset ℤ := if 0 < ap.ovcsId then {ap.ovcsId} else 0

/-- What of it a failure leaves. -/
def Applied.half (ap : Applied) : Multiset ℤ := if ap.err ≠ 0 then ap.changeset else 0

theorem Applied.of_legit {fdt : Bytes} {ap : Applied} (h : ap.legit k fdt = true) :
    k.fresh (.overlay ap.ovcsId) = true ∧ ap.err ≤ 0 ∧
      (ap.err = 0 → 0 < ap.ovcsId ∧ fdt ≠ []) := by
  unfold Applied.legit at h
  simp only [Bool.and_eq_true, Bool.or_eq_true, decide_eq_true_iff] at h
  obtain ⟨⟨⟨⟨herr, -⟩, hid⟩, hok⟩, hfdt⟩ := h
  refine ⟨hid, herr, fun h0 => ⟨hok.resolve_left (not_not_intro h0), ?_⟩⟩
  exact hfdt.resolve_right fun hbad => hbad.1 h0

namespace Kernel

theorem held_giveBack {r : Resource} {rest : Multiset Resource} (h : k.held = {r} + rest) :
    (k.giveBack r).held = rest := by
  unfold giveBack
  rw [h, Multiset.singleton_add, Multiset.erase_cons_head]

variable {r : Resource} {fdt : Bytes} {ap : Applied}

/-- A tree is put into `r` and applied. -/
theorem held_apply (k : Kernel) (r : Resource) (fdt : Bytes) (ap : Applied) :
    ((k.take r).ofOverlayFdtApply fdt ap).held = {r} + (ap.changeset.map .overlay + k.held) := by
  unfold ofOverlayFdtApply Applied.changeset take
  split_ifs with hid
  · simp only [← Multiset.singleton_add, Multiset.map_singleton, add_left_comm]
  · simp only [← Multiset.singleton_add, Multiset.map_zero, zero_add]

theorem nodup_apply (hk : k.held.Nodup) (hr : k.fresh r = true)
    (hid : k.fresh (.overlay ap.ovcsId) = true) (hne : .overlay ap.ovcsId ≠ r) :
    ((k.take r).ofOverlayFdtApply fdt ap).held.Nodup := by
  have htake : (k.take r).held.Nodup := Multiset.nodup_cons.mpr ⟨of_decide_eq_true hr, hk⟩
  unfold ofOverlayFdtApply
  split_ifs with hpos
  · refine Multiset.nodup_cons.mpr ⟨fun hmem => ?_, htake⟩
    rcases Multiset.mem_cons.mp hmem with heq | hold
    · exact hne heq
    · exact of_decide_eq_true hid hold
  · exact htake

theorem blob_apply (hid : k.fresh (.overlay ap.ovcsId) = true) {id : ℤ}
    (hmem : .overlay id ∈ k.held) :
    ((k.take r).ofOverlayFdtApply fdt ap).blob id = k.blob id := by
  unfold ofOverlayFdtApply
  split_ifs with hpos
  · refine Function.update_of_ne (fun heq => of_decide_eq_true hid ?_) _ _
    rwa [← heq]
  · rfl

theorem blob_apply_self (hpos : 0 < ap.ovcsId) :
    ((k.take r).ofOverlayFdtApply fdt ap).blob ap.ovcsId = fdt := by
  unfold ofOverlayFdtApply
  rw [if_pos hpos]
  exact Function.update_self _ _ _

end Kernel

/-- What a call on an item may change: the books stay right but for the changesets `orphans`. -/
structure Effect (k : Kernel) (o : CfsOverlayItem) (orphans : Multiset ℤ)
    (r : ℤ × CfsOverlayItem × Kernel) : Prop where
  held : r.2.2.held + o.resources = k.held + r.2.1.resources + orphans.map .overlay
  nodup : r.2.2.held.Nodup
  blob : ∀ id, .overlay id ∈ k.held → r.2.2.blob id = k.blob id
  shape : r.2.1.Shape r.2.2.blob

theorem Effect.refused (hk : k.held.Nodup) (ho : o.Shape k.blob) (err : ℤ) :
    Effect k o 0 (err, o, k) where
  held := (add_zero _).symm
  nodup := hk
  blob _ _ := rfl
  shape := ho

namespace CfsOverlayItem

/-- What `cfs_overlay_item_path_store` loses of an item that is not set. -/
def pathOrphans (fw : Except ℤ Firmware) (o : CfsOverlayItem) : Multiset ℤ :=
  match fw with
  | .error _ => 0
  | .ok _ => o.changeset

/-- What `cfs_overlay_item_dtbo_write` loses of an item that is not set. -/
def dtboOrphans (block : Option ℕ) (ap : Applied) (o : CfsOverlayItem) : Multiset ℤ :=
  match block with
  | none => 0
  | some _ => o.changeset + ap.half

theorem pathStore_effect {page : Bytes} {fw : Except ℤ Firmware} {ap : Applied}
    (hk : k.held.Nodup) (ho : o.Shape k.blob)
    (hlegit : (Event.pathStore i page fw ap).legit k = true) :
    Effect k o (if o.isSet then 0 else o.pathOrphans fw) (o.pathStore page fw ap k) := by
  unfold pathStore
  by_cases hset : o.isSet = true
  · rw [if_pos hset, if_pos hset]
    exact Effect.refused hk ho _
  · rw [if_neg hset, if_neg hset]
    obtain ⟨hpath, hfw, hdtbo, hsize⟩ := ho.of_not_isSet hset
    obtain ⟨block, path, image, ovId, dtbo, size⟩ := o
    obtain rfl : path = [] := hpath
    obtain rfl : image = none := hfw
    obtain rfl : dtbo = none := hdtbo
    obtain rfl : size = 0 := hsize
    cases fw with
    | error err => exact Effect.refused hk ho err
    | ok fw =>
      unfold Event.legit at hlegit
      simp only [Bool.and_eq_true, decide_eq_true_iff] at hlegit
      obtain ⟨⟨hname, himage⟩, hap⟩ := hlegit
      obtain ⟨hid, -, hok⟩ := Applied.of_legit hap
      have hheld := k.held_apply (.firmware fw.id) (fdtOf fw) ap
      have hnodup : ((k.take (.firmware fw.id)).ofOverlayFdtApply (fdtOf fw) ap).held.Nodup :=
        Kernel.nodup_apply hk himage hid (by simp)
      by_cases herr : ap.err = 0
      · obtain ⟨hpos, -⟩ := hok herr
        simp only [if_neg (not_not_intro herr)]
        refine ⟨?_, hnodup, fun _ => Kernel.blob_apply hid,
          .byPath fw hname rfl rfl rfl hpos (Kernel.blob_apply_self hpos)⟩
        change (Kernel.ofOverlayFdtApply _ _ _).held + _ = _
        rw [hheld]
        unfold resources pathOrphans changeset Applied.changeset
        simp only [Option.elim_none, Option.elim_some, add_zero]
        abel
      · simp only [if_pos herr]
        refine ⟨?_, hnodup.erase _, fun _ => Kernel.blob_apply hid, .unset rfl rfl rfl rfl⟩
        change (Kernel.giveBack _ _).held + _ = _
        rw [Kernel.held_giveBack hheld]
        unfold resources pathOrphans pathOutErr changeset Applied.changeset
        simp only [Option.elim_none, add_zero]
        abel

theorem dtboWrite_effect {buf : Bytes} {block : Option ℕ} {ap : Applied} (hk : k.held.Nodup)
    (ho : o.Shape k.blob) (hlegit : (Event.dtboWrite i buf block ap).legit k = true) :
    Effect k o (if o.isSet then 0 else o.dtboOrphans block ap) (o.dtboWrite buf block ap k) := by
  unfold dtboWrite
  by_cases hset : o.isSet = true
  · rw [if_pos hset, if_pos hset]
    exact Effect.refused hk ho _
  · rw [if_neg hset, if_neg hset]
    obtain ⟨hpath, hfw, hdtbo, hsize⟩ := ho.of_not_isSet hset
    obtain ⟨mem, path, image, ovId, dtbo, size⟩ := o
    obtain rfl : path = [] := hpath
    obtain rfl : image = none := hfw
    obtain rfl : dtbo = none := hdtbo
    obtain rfl : size = 0 := hsize
    cases block with
    | none => exact Effect.refused hk ho _
    | some id =>
      unfold Event.legit at hlegit
      simp only [Option.all_some, Bool.and_eq_true] at hlegit
      obtain ⟨hblock, hap⟩ := hlegit
      obtain ⟨hid, -, hok⟩ := Applied.of_legit hap
      have hheld := k.held_apply (.block id) buf ap
      have hnodup : ((k.take (.block id)).ofOverlayFdtApply buf ap).held.Nodup :=
        Kernel.nodup_apply hk hblock hid (by simp)
      by_cases herr : ap.err = 0
      · obtain ⟨hpos, hdata⟩ := hok herr
        simp only [if_neg (not_not_intro herr)]
        refine ⟨?_, hnodup, fun _ => Kernel.blob_apply hid,
          .byDtbo ⟨id, buf⟩ rfl rfl rfl rfl hdata hpos (Kernel.blob_apply_self hpos)⟩
        change (Kernel.ofOverlayFdtApply _ _ _).held + _ = _
        rw [hheld]
        unfold resources dtboOrphans changeset Applied.half Applied.changeset
        simp only [Option.elim_none, Option.elim_some, add_zero, herr, ne_eq, not_true_eq_false,
          if_false]
        abel
      · simp only [if_pos herr]
        refine ⟨?_, hnodup.erase _, fun _ => Kernel.blob_apply hid, .unset rfl rfl rfl rfl⟩
        change (Kernel.giveBack _ _).held + _ = _
        rw [Kernel.held_giveBack hheld]
        unfold resources dtboOrphans changeset Applied.half
        simp only [Option.elim_none, add_zero, if_pos herr, Multiset.map_add, Int.lt_irrefl,
          if_false, Multiset.map_zero]
        abel

theorem resources_zalloc (id : ℕ) : (zalloc id).resources = {.block id} := by
  simp [resources, zalloc, changeset]

/-- What `cfs_overlay_release` loses. -/
def releaseOrphans (removed : Bool) (o : CfsOverlayItem) : Multiset ℤ :=
  if removed then 0 else o.changeset

theorem release_held {removed : Bool} {rest : Multiset Resource}
    (hk : k.held = o.resources + rest) :
    (o.release removed k).held = rest + (o.releaseOrphans removed).map .overlay := by
  have hovl : (if 0 < o.ovId ∧ removed then k.giveBack (.overlay o.ovId) else k).held =
      {.block o.block} + (o.fw.elim 0 fun fw => {.firmware fw.id}) +
        (o.dtbo.elim 0 fun b => {.block b.id}) +
        (rest + (o.releaseOrphans removed).map .overlay) := by
    unfold resources changeset at hk
    unfold releaseOrphans changeset
    by_cases hid : 0 < o.ovId
    · rw [if_pos hid] at hk
      cases removed with
      | true =>
        rw [if_pos ⟨hid, rfl⟩]
        refine Kernel.held_giveBack (hk.trans ?_)
        rw [if_pos rfl, Multiset.map_zero, Multiset.map_singleton]
        abel
      | false =>
        rw [if_neg (fun h => Bool.false_ne_true h.2), hk, if_pos hid]
        rw [if_neg Bool.false_ne_true]
        abel
    · rw [if_neg hid] at hk
      rw [if_neg (fun h => hid h.1), hk, if_neg hid, ite_self]
      abel
  unfold release
  generalize (if 0 < o.ovId ∧ removed then k.giveBack (.overlay o.ovId) else k) = k₁ at hovl
  refine Kernel.held_giveBack ?_
  cases hfw : o.fw <;> cases hdtbo : o.dtbo <;>
    simp only [hfw, hdtbo, Option.elim_none, Option.elim_some, add_zero] at hovl
  · exact hovl
  · exact Kernel.held_giveBack (hovl.trans (by abel))
  · exact Kernel.held_giveBack (hovl.trans (by abel))
  · exact Kernel.held_giveBack (Kernel.held_giveBack (hovl.trans (by abel)))

theorem release_nodup {removed : Bool} (hk : k.held.Nodup) : (o.release removed k).held.Nodup := by
  have herase (k : Kernel) (r : Resource) (hk : k.held.Nodup) : (k.giveBack r).held.Nodup :=
    hk.erase r
  have hovl : (if 0 < o.ovId ∧ removed then k.giveBack (.overlay o.ovId) else k).held.Nodup := by
    split_ifs
    · exact herase _ _ hk
    · exact hk
  refine herase _ _ ?_
  cases o.fw <;> cases o.dtbo
  · exact hovl
  · exact herase _ _ hovl
  · exact herase _ _ hovl
  · exact herase _ _ (herase _ _ hovl)

theorem release_blob (o : CfsOverlayItem) (k : Kernel) (removed : Bool) :
    (o.release removed k).blob = k.blob := by
  unfold release
  cases o.fw <;> cases o.dtbo <;> split_ifs <;> rfl

end CfsOverlayItem

/-! ### Runs -/

/-- The changesets that an event leaves to no item. -/
def Event.orphans (s : Cfs) : Event → Multiset ℤ
  | .makeItem _ => 0
  | .pathStore i _ fw _ =>
    (s.item i).elim 0 fun o => if o.isSet then 0 else o.pathOrphans fw
  | .dtboWrite i _ block ap =>
    (s.item i).elim 0 fun o => if o.isSet then 0 else o.dtboOrphans block ap
  | .dropItem i removed => (s.item i).elim 0 fun o => o.releaseOrphans removed

/-- The changesets that a run leaves to no item. -/
def orphans (s : Cfs) : List Event → Multiset ℤ
  | [] => 0
  | e :: es => e.orphans s + (s.step e).elim 0 fun t => orphans t es

/-- The books of the kernel are those of the items, and of the changesets `lost`. -/
structure Inv (lost : Multiset ℤ) (s : Cfs) : Prop where
  held : s.kernel.held = s.owned + lost.map .overlay
  nodup : s.kernel.held.Nodup
  shape : ∀ i o, s.item i = some o → o.Shape s.kernel.blob

theorem inv_init : Inv 0 cfs.init where
  held := rfl
  nodup := Multiset.nodup_zero
  shape i o ho := by simp [cfs, Cfs.init, Cfs.item] at ho

theorem Cfs.dirs_of_item (ho : s.item i = some o) : s.dirs[i]? = some (some o) := by
  unfold Cfs.item at ho
  rwa [Option.join_eq_some_iff] at ho

theorem Inv.overlay_held (h : Inv lost s) (ho : s.item i = some o) (hid : 0 < o.ovId) :
    .overlay o.ovId ∈ s.kernel.held := by
  rw [h.held]
  refine Multiset.mem_add.mpr (Or.inl ?_)
  refine Owners.mem_total (List.mem_of_getElem? (Cfs.dirs_of_item ho)) ?_
  change _ ∈ o.resources
  unfold CfsOverlayItem.resources CfsOverlayItem.changeset
  rw [if_pos hid]
  simp

theorem Cfs.item_set {j : ℕ} {dir : Option CfsOverlayItem} {k : Kernel}
    (hj : (⟨s.dirs.set i dir, k⟩ : Cfs).item j = some o) :
    j = i ∧ dir = some o ∨ j ≠ i ∧ s.item j = some o := by
  have hget := Cfs.dirs_of_item hj
  by_cases hji : i = j
  · subst hji
    rw [List.getElem?_set_self'] at hget
    obtain ⟨d, hd, hdir⟩ := Option.map_eq_some_iff.mp hget
    exact Or.inl ⟨rfl, hdir⟩
  · rw [List.getElem?_set_ne hji] at hget
    refine Or.inr ⟨Ne.symm hji, ?_⟩
    unfold Cfs.item
    rw [hget]
    rfl

theorem Cfs.item_concat {j : ℕ} {x : CfsOverlayItem} {k : Kernel}
    (hj : (⟨s.dirs ++ [some x], k⟩ : Cfs).item j = some o) : o = x ∨ s.item j = some o := by
  have hget : (s.dirs ++ [some x])[j]? = some (some o) := Cfs.dirs_of_item hj
  rcases Nat.lt_or_ge j s.dirs.length with hlt | hge
  · rw [List.getElem?_append_left hlt] at hget
    refine Or.inr ?_
    unfold Cfs.item
    rw [hget]
    rfl
  · rw [List.getElem?_append_right hge, List.getElem?_singleton] at hget
    obtain ⟨-, hx⟩ := Option.ite_none_right_eq_some.mp hget
    exact Or.inl (Option.some.inj (Option.some.inj hx)).symm

theorem Inv.call (h : Inv lost s) (ho : s.item i = some o) {gone : Multiset ℤ}
    {r : ℤ × CfsOverlayItem × Kernel} (hr : Effect s.kernel o gone r) :
    Inv (lost + gone) (s.put i r) where
  held := by
    have hsplit := h.held
    unfold Cfs.owned at hsplit
    rw [Owners.total_eraseIdx (Cfs.dirs_of_item ho)] at hsplit
    unfold Cfs.owned Cfs.put
    rw [Owners.total_set (Cfs.dirs_of_item ho)]
    have hheld := hr.held
    rw [hsplit] at hheld
    refine add_right_cancel (b := o.resources) (hheld.trans ?_)
    rw [Multiset.map_add]
    change o.resources + _ + _ + _ + _ = r.2.1.resources + _ + _ + o.resources
    abel
  nodup := hr.nodup
  shape j x hj := by
    rcases Cfs.item_set hj with ⟨-, hx⟩ | ⟨-, hx⟩
    · rw [← Option.some.inj hx]
      exact hr.shape
    · exact (h.shape j x hx).congr fun hid => hr.blob _ (h.overlay_held hx hid)

theorem Inv.drop (h : Inv lost s) (ho : s.item i = some o) (removed : Bool) :
    Inv (lost + o.releaseOrphans removed) ⟨s.dirs.set i none, o.release removed s.kernel⟩ where
  held := by
    have hsplit := h.held
    unfold Cfs.owned at hsplit
    rw [Owners.total_eraseIdx (Cfs.dirs_of_item ho), add_assoc] at hsplit
    unfold Cfs.owned
    rw [Owners.total_set (Cfs.dirs_of_item ho), CfsOverlayItem.release_held hsplit,
      Multiset.map_add]
    change _ = 0 + _ + _
    abel
  nodup := CfsOverlayItem.release_nodup h.nodup
  shape j x hj := by
    change x.Shape (o.release removed s.kernel).blob
    rw [CfsOverlayItem.release_blob]
    rcases Cfs.item_set hj with ⟨-, hx⟩ | ⟨-, hx⟩
    · exact absurd hx.symm (Option.some_ne_none x)
    · exact h.shape j x hx

theorem inv_step {e : Event} (h : Inv lost s) (ht : cfs.step s e = some t) :
    Inv (lost + e.orphans s) t := by
  change s.step e = some t at ht
  unfold Cfs.step at ht
  obtain ⟨hlegit, ht⟩ := Option.ite_none_right_eq_some.mp ht
  obtain ⟨⟨ret, t'⟩, hcall, rfl⟩ := Option.map_eq_some_iff.mp ht
  cases e with
  | makeItem block =>
    have horphans : (Event.makeItem block).orphans s = 0 := rfl
    rw [horphans, add_zero]
    cases block with
    | none =>
      obtain ⟨-, rfl⟩ := Prod.mk.inj (Option.some.inj hcall)
      exact h
    | some id =>
      obtain ⟨-, rfl⟩ := Prod.mk.inj (Option.some.inj hcall)
      refine ⟨?_, Multiset.nodup_cons.mpr ⟨of_decide_eq_true hlegit, h.nodup⟩, fun j x hj => ?_⟩
      · unfold Cfs.owned
        rw [Owners.total_concat]
        change _ ::ₘ s.kernel.held = _
        rw [h.held, ← Multiset.singleton_add]
        change _ + (s.owned + _) = s.owned + CfsOverlayItem.resources _ + _
        rw [CfsOverlayItem.resources_zalloc]
        abel
      · rcases Cfs.item_concat hj with rfl | hj
        · exact .unset rfl rfl rfl rfl
        · exact h.shape j x hj
  | pathStore i page fw ap =>
    obtain ⟨o, ho, hr⟩ := Option.map_eq_some_iff.mp hcall
    obtain ⟨-, rfl⟩ := Prod.mk.inj hr
    simp only [Event.orphans, ho, Option.elim_some]
    exact h.call ho (CfsOverlayItem.pathStore_effect h.nodup (h.shape i o ho) hlegit)
  | dtboWrite i buf block ap =>
    obtain ⟨o, ho, hr⟩ := Option.map_eq_some_iff.mp hcall
    obtain ⟨-, rfl⟩ := Prod.mk.inj hr
    simp only [Event.orphans, ho, Option.elim_some]
    exact h.call ho (CfsOverlayItem.dtboWrite_effect h.nodup (h.shape i o ho) hlegit)
  | dropItem i removed =>
    obtain ⟨o, ho, hr⟩ := Option.map_eq_some_iff.mp hcall
    obtain ⟨-, rfl⟩ := Prod.mk.inj hr
    simp only [Event.orphans, ho, Option.elim_some]
    exact h.drop ho removed

namespace Bench

end Bench

end YoctoLayers.RpiOvls
