import KernelControl.Layout
import KernelControl.CpuSet

/-!
# Masks in memory

A mask lies in memory as its sixteen words, low word first, 128 bytes in all. Each of the words fills its place, so
masks and blocks of 128 bytes correspond one to one.
-/

namespace KernelControl

namespace CpuSet

/-- Sixteen unsigned 64-bit words, one after the other. -/
def layout : Layout 128 (Fin 16) where
  fields := List.finRange 16
  offset i := 8 * i.val
  scalar _ := .u64
  mem_fields := List.mem_finRange
  inside := by decide
  apart := by decide

instance : HasLayout CpuSet 128 (Fin 16) where
  layout := layout
  values m i := m.words[i].toNat
  ofValues v := ⟨Vector.ofFn fun i => UInt64.ofNat (v i).toNat⟩
  values_ofValues v h := by
    funext i
    simp only [Fin.getElem_fin, Vector.getElem_ofFn, Fin.eta]
    exact Scalar.toNat_uint64_ofNat (h i)
  ofValues_values m := by
    obtain ⟨words⟩ := m
    congr 1
    apply Vector.ext
    intro i hi
    simp

/-- Every mask fits its image. -/
theorem fits (m : CpuSet) : Image.Fits m := by
  rw [Image.fits_iff]
  exact fun i => Scalar.holds_uint64 m.words[i]

end CpuSet

end KernelControl
