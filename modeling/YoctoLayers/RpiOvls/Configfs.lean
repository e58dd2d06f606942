import YoctoLayers.Lib.Errno
import YoctoLayers.Lib.Owners
import YoctoLayers.Lib.System
import Mathlib.Data.List.DropRight

/-! Device-tree overlays in configfs, `drivers/of/configfs.c`: a directory is an item, the file
`path` names a firmware image with the overlay, and the file `dtbo` takes the overlay itself. -/
namespace YoctoLayers.RpiOvls
open YoctoLayers.Lib

abbrev Bytes := List UInt8

/-- What is taken from the kernel and has to be given back. -/
inductive Resource
  | firmware (id : ℕ)
  | block (id : ℕ)
  /-- An overlay changeset in the tree. -/
  | overlay (id : ℤ)
deriving DecidableEq, Repr

structure Kernel where
  held : Multiset Resource
  /-- What each overlay was made from. -/
  blob : ℤ → Bytes

structure Firmware where
  id : ℕ
  data : Bytes
deriving DecidableEq

/-- A block of memory that is not `NULL`. -/
structure Block where
  id : ℕ
  data : Bytes
deriving DecidableEq

structure CfsOverlayItem where
  /-- The memory of the item itself. -/
  block : ℕ
  path : Bytes
  fw : Option Firmware
  ovId : ℤ
  dtbo : Option Block
  dtboSize : ℤ
deriving DecidableEq

/-- How a call of `of_overlay_fdt_apply` ends. It may fail and still leave a changeset. -/
structure Applied where
  err : ℤ
  ovcsId : ℤ

namespace Kernel

def take (k : Kernel) (r : Resource) : Kernel := { k with held := r ::ₘ k.held }

def giveBack (k : Kernel) (r : Resource) : Kernel := { k with held := k.held.erase r }

def releaseFirmware (k : Kernel) : Option Firmware → Kernel
  | none => k
  | some fw => k.giveBack (.firmware fw.id)

def kfree (k : Kernel) : Option Block → Kernel
  | none => k
  | some b => k.giveBack (.block b.id)

def ofOverlayFdtApply (k : Kernel) (fdt : Bytes) (ap : Applied) : Kernel :=
  if 0 < ap.ovcsId then
    { k.take (.overlay ap.ovcsId) with blob := Function.update k.blob ap.ovcsId fdt }
  else k

end Kernel

def pathMax : ℕ := 4096

def newline : UInt8 := 10

namespace CfsOverlayItem

/-- `overlay->path[0] != '\0' || overlay->dtbo_size > 0` -/
def isSet (overlay : CfsOverlayItem) : Bool := overlay.path ≠ [] || 0 < overlay.dtboSize

def applied (overlay : CfsOverlayItem) : Bool := 0 < overlay.ovId

def statusShow (overlay : CfsOverlayItem) : String :=
  if overlay.applied then "applied\n" else "unapplied\n"

/-- The string in the page, as `snprintf` leaves it in the path, without the newlines at its end. -/
def pathOf (page : Bytes) : Bytes :=
  ((page.takeWhile (· ≠ 0)).take (pathMax - 2)).rdropWhile (· = newline)

/-- What `of_overlay_fdt_apply` gets of an image, whose size it takes as a `u32`. -/
def fdtOf (fw : Firmware) : Bytes := fw.data.take (fw.data.length % 2 ^ 32)

def pathOutErr (err : ℤ) (overlay : CfsOverlayItem) (k : Kernel) : ℤ × CfsOverlayItem × Kernel :=
  (err, { overlay with fw := none, path := [] }, k.releaseFirmware overlay.fw)

/-- `cfs_overlay_item_path_store`. `fw` is what `request_firmware` ends with. -/
def pathStore (page : Bytes) (fw : Except ℤ Firmware) (ap : Applied) (overlay : CfsOverlayItem)
    (k : Kernel) : ℤ × CfsOverlayItem × Kernel :=
  if overlay.isSet then (-eperm, overlay, k)
  else
    let count : ℤ := (page.takeWhile (· ≠ 0)).length
    let overlay := { overlay with path := pathOf page }
    match fw with
    | .error err => pathOutErr err { overlay with fw := none } k
    | .ok fw =>
      let k := (k.take (.firmware fw.id)).ofOverlayFdtApply (fdtOf fw) ap
      let overlay := { overlay with fw := some fw, ovId := ap.ovcsId }
      if ap.err ≠ 0 then pathOutErr ap.err overlay k else (count, overlay, k)

/-- `cfs_overlay_item_dtbo_write`. `block` is what `kmemdup` gets from the kernel. -/
def dtboWrite (buf : Bytes) (block : Option ℕ) (ap : Applied) (overlay : CfsOverlayItem)
    (k : Kernel) : ℤ × CfsOverlayItem × Kernel :=
  if overlay.isSet then (-eperm, overlay, k)
  else
    match block with
    | none => (-enomem, { overlay with dtbo := none }, k)
    | some id =>
      let k := (k.take (.block id)).ofOverlayFdtApply buf ap
      let overlay :=
        { overlay with dtbo := some ⟨id, buf⟩, dtboSize := buf.length, ovId := ap.ovcsId }
      if ap.err ≠ 0 then
        (ap.err, { overlay with dtbo := none, dtboSize := 0, ovId := 0 }, k.kfree overlay.dtbo)
      else (buf.length, overlay, k)

/-- `cfs_overlay_release`. `removed` says that `of_overlay_remove` succeeds if it is called. -/
def release (removed : Bool) (overlay : CfsOverlayItem) (k : Kernel) : Kernel :=
  let k := if 0 < overlay.ovId ∧ removed then k.giveBack (.overlay overlay.ovId) else k
  ((k.releaseFirmware overlay.fw).kfree overlay.dtbo).giveBack (.block overlay.block)

/-- What `kzalloc` leaves. -/
def zalloc (block : ℕ) : CfsOverlayItem := ⟨block, [], none, 0, none, 0⟩

/-- The changeset that the item knows of. -/
def changeset (overlay : CfsOverlayItem) : Multiset ℤ :=
  if 0 < overlay.ovId then {overlay.ovId} else 0

/-- What the item has to give back. -/
def resources (overlay : CfsOverlayItem) : Multiset Resource :=
  {.block overlay.block} + (overlay.fw.elim 0 fun fw => {.firmware fw.id}) +
    (overlay.dtbo.elim 0 fun b => {.block b.id}) + overlay.changeset.map .overlay

end CfsOverlayItem

/-- The directories, in the order in which they were made; one that has gone leaves `none`. -/
structure Cfs where
  dirs : List (Option CfsOverlayItem)
  kernel : Kernel

namespace Cfs

def owned (s : Cfs) : Multiset Resource :=
  Owners.total (fun dir => dir.elim 0 CfsOverlayItem.resources) s.dirs

def init : Cfs := ⟨[], ⟨0, fun _ => []⟩⟩

/-- The item of directory `i`, if it is there. -/
def item (s : Cfs) (i : ℕ) : Option CfsOverlayItem := (s.dirs[i]?).join

def put (s : Cfs) (i : ℕ) (r : ℤ × CfsOverlayItem × Kernel) : Cfs :=
  ⟨s.dirs.set i (some r.2.1), r.2.2⟩

end Cfs

/-- What user space does, with what the kernel answers. -/
inductive Event
  /-- `cfs_overlay_group_make_item`, with what `kzalloc` gets. -/
  | makeItem (block : Option ℕ)
  | pathStore (i : ℕ) (page : Bytes) (fw : Except ℤ Firmware) (ap : Applied)
  | dtboWrite (i : ℕ) (buf : Bytes) (block : Option ℕ) (ap : Applied)
  /-- `cfs_overlay_group_drop_item`, which gives back the only reference. -/
  | dropItem (i : ℕ) (removed : Bool)

/-- What is given out is not held by anyone. -/
def Kernel.fresh (k : Kernel) (r : Resource) : Bool := r ∉ k.held

/-- `of_overlay_fdt_apply` returns no positive value, takes a new identifier, has one when it
succeeds, and makes nothing of an empty tree. -/
def Applied.legit (k : Kernel) (fdt : Bytes) (ap : Applied) : Bool :=
  ap.err ≤ 0 && 0 ≤ ap.ovcsId && k.fresh (.overlay ap.ovcsId) &&
    (ap.err ≠ 0 || 0 < ap.ovcsId) && (fdt ≠ [] || (ap.err ≠ 0 && ap.ovcsId = 0))

/-- The rules that the answers of the kernel keep. `request_firmware` fails without a name. -/
def Event.legit (k : Kernel) : Event → Bool
  | .makeItem block => block.all fun id => k.fresh (.block id)
  | .pathStore _ page fw ap =>
    match fw with
    | .error err => err < 0
    | .ok fw => CfsOverlayItem.pathOf page ≠ [] && k.fresh (.firmware fw.id) &&
        ap.legit k (CfsOverlayItem.fdtOf fw)
  | .dtboWrite _ buf block ap => block.all fun id => k.fresh (.block id) && ap.legit k buf
  | .dropItem _ _ => true

namespace Cfs

/-- The return value of a call, and what it leaves. -/
def call (s : Cfs) : Event → Option (ℤ × Cfs)
  | .makeItem none => some (-enomem, s)
  | .makeItem (some id) =>
    some (0, ⟨s.dirs ++ [some (.zalloc id)], s.kernel.take (.block id)⟩)
  | .pathStore i page fw ap => (s.item i).map fun overlay =>
    let r := overlay.pathStore page fw ap s.kernel
    (r.1, s.put i r)
  | .dtboWrite i buf block ap => (s.item i).map fun overlay =>
    let r := overlay.dtboWrite buf block ap s.kernel
    (r.1, s.put i r)
  | .dropItem i removed => (s.item i).map fun overlay =>
    (0, ⟨s.dirs.set i none, overlay.release removed s.kernel⟩)

def step (s : Cfs) (e : Event) : Option Cfs :=
  if e.legit s.kernel then (s.call e).map Prod.snd else none

end Cfs

def cfs : Sys Cfs Event := ⟨Cfs.init, Cfs.step⟩

end YoctoLayers.RpiOvls
