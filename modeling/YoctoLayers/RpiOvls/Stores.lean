import YoctoLayers.RpiOvls.Accounts

/-! What a store does to its item for good. -/
namespace YoctoLayers.RpiOvls
open YoctoLayers.Lib

variable {s t : Cfs} {k : Kernel} {o : CfsOverlayItem} {i : ℕ} {lost : Multiset ℤ}

/-- The overlay of item `i` is in the tree, made from `fdt`, and the item takes nothing else. -/
structure Settled (s : Cfs) (i : ℕ) (fdt : Bytes) (o : CfsOverlayItem) : Prop where
  item : s.item i = some o
  status : o.statusShow = "applied\n"
  tree : .overlay o.ovId ∈ s.kernel.held
  made : s.kernel.blob o.ovId = fdt
  pathStore : ∀ page fw ap, s.call (.pathStore i page fw ap) = some (-eperm, s)
  dtboWrite : ∀ buf block ap, s.call (.dtboWrite i buf block ap) = some (-eperm, s)

end YoctoLayers.RpiOvls
