import KernelControl.Layout
import KernelControl.Time.Spec

/-!
# Times in memory

The kernel reads and writes a time as two 64-bit words. Both fields always fit, so a time is read back from its image
unchanged and an image from the time that was read from it.
-/

namespace KernelControl

/-- A time: seconds and microseconds, as the clock adjustment record carries it. -/
structure TimeVal where
  sec : Int64 := 0
  usec : Int64 := 0
deriving DecidableEq, Repr

/-- The two words of a time in memory. -/
inductive TimeField where
  | whole
  | fraction
deriving DecidableEq, Repr

namespace TimeField

/-- Two 64-bit words, the whole seconds first. -/
def layout : Layout 16 TimeField where
  fields := [.whole, .fraction]
  offset
    | .whole => 0
    | .fraction => 8
  scalar _ := .i64
  mem_fields i := by cases i <;> decide
  inside := by decide
  apart := by decide

end TimeField

instance : HasLayout TimeSpec 16 TimeField where
  layout := TimeField.layout
  values ts
    | .whole => ts.sec.toInt
    | .fraction => ts.nsec.toInt
  ofValues v := ⟨Int64.ofInt (v .whole), Int64.ofInt (v .fraction)⟩
  values_ofValues v h := by
    funext i
    cases i <;> exact Scalar.toInt_int64_ofInt (h _)
  ofValues_values ts := by simp

instance : HasLayout TimeVal 16 TimeField where
  layout := TimeField.layout
  values tv
    | .whole => tv.sec.toInt
    | .fraction => tv.usec.toInt
  ofValues v := ⟨Int64.ofInt (v .whole), Int64.ofInt (v .fraction)⟩
  values_ofValues v h := by
    funext i
    cases i <;> exact Scalar.toInt_int64_ofInt (h _)
  ofValues_values tv := by simp

/-- Every time fits its image. -/
theorem TimeSpec.fits (ts : TimeSpec) : Image.Fits ts := by
  rw [Image.fits_iff]
  intro i
  cases i <;> exact Scalar.holds_int64 _

end KernelControl
