import KernelControl.ClockAdjustment
import KernelControl.ErrorCode

/-!
# The clock adjustment record in memory

The kernel's structure has 208 bytes: 21 fields, a pad of four bytes after each 32-bit field that a 64-bit one follows,
and eleven reserved words at the end. Every record whose `shift` fits 32 bits has an image (`image?`), from which it is
read back unchanged; every image has a record, from which all but the padding is restored.
-/

namespace KernelControl

namespace ClockAdjustment

/-- The scalars of the structure. -/
inductive Field where
  | modes | offset | freq | maxError | estError | status | constant | precision | tolerance | timeSec | timeUsec | tick
  | ppsFreq | jitter | shift | stability | jitterCount | calibrationCount | errorCount | stabilityCount | tai
deriving DecidableEq, Repr

/-- Where the scalars lie. -/
def layout : Layout 208 Field where
  fields := [.modes, .offset, .freq, .maxError, .estError, .status, .constant, .precision, .tolerance, .timeSec, .timeUsec,
    .tick, .ppsFreq, .jitter, .shift, .stability, .jitterCount, .calibrationCount, .errorCount, .stabilityCount, .tai]
  offset
    | .modes => 0
    | .offset => 8
    | .freq => 16
    | .maxError => 24
    | .estError => 32
    | .status => 40
    | .constant => 48
    | .precision => 56
    | .tolerance => 64
    | .timeSec => 72
    | .timeUsec => 80
    | .tick => 88
    | .ppsFreq => 96
    | .jitter => 104
    | .shift => 112
    | .stability => 120
    | .jitterCount => 128
    | .calibrationCount => 136
    | .errorCount => 144
    | .stabilityCount => 152
    | .tai => 160
  scalar
    | .modes => .u32
    | .status => .i32
    | .shift => .i32
    | .tai => .i32
    | _ => .i64
  mem_fields i := by cases i <;> decide
  inside := by decide
  apart := by decide

/-- The integer in a field of the record. -/
def value (adj : ClockAdjustment) : Field → Int
  | .modes => adj.modes.raw.toNat
  | .offset => adj.offset.toInt
  | .freq => adj.freq.toInt
  | .maxError => adj.maxError.toInt
  | .estError => adj.estError.toInt
  | .status => adj.status.raw.toInt
  | .constant => adj.constant.toInt
  | .precision => adj.precision.toInt
  | .tolerance => adj.tolerance.toInt
  | .timeSec => adj.time.sec.toInt
  | .timeUsec => adj.time.usec.toInt
  | .tick => adj.tick.toInt
  | .ppsFreq => adj.ppsFreq.toInt
  | .jitter => adj.jitter.toInt
  | .shift => adj.shift.toInt
  | .stability => adj.stability.toInt
  | .jitterCount => adj.jitterCount.toInt
  | .calibrationCount => adj.calibrationCount.toInt
  | .errorCount => adj.errorCount.toInt
  | .stabilityCount => adj.stabilityCount.toInt
  | .tai => adj.tai.toInt

/-- The record with the given integers in its fields. -/
def ofValues (v : Field → Int) : ClockAdjustment where
  modes := ⟨UInt32.ofNat (v .modes).toNat⟩
  offset := Int64.ofInt (v .offset)
  freq := Int64.ofInt (v .freq)
  maxError := Int64.ofInt (v .maxError)
  estError := Int64.ofInt (v .estError)
  status := ⟨Int32.ofInt (v .status)⟩
  constant := Int64.ofInt (v .constant)
  precision := Int64.ofInt (v .precision)
  tolerance := Int64.ofInt (v .tolerance)
  time := ⟨Int64.ofInt (v .timeSec), Int64.ofInt (v .timeUsec)⟩
  tick := Int64.ofInt (v .tick)
  ppsFreq := Int64.ofInt (v .ppsFreq)
  jitter := Int64.ofInt (v .jitter)
  shift := Int64.ofInt (v .shift)
  stability := Int64.ofInt (v .stability)
  jitterCount := Int64.ofInt (v .jitterCount)
  calibrationCount := Int64.ofInt (v .calibrationCount)
  errorCount := Int64.ofInt (v .errorCount)
  stabilityCount := Int64.ofInt (v .stabilityCount)
  tai := Int32.ofInt (v .tai)

/-- Integers that fit their scalars are the values of the record made from them. -/
theorem value_ofValues (v : Field → Int) (h : ∀ i, (layout.scalar i).Holds (v i)) : (ofValues v).value = v := by
  funext i
  have hi := h i
  cases i
  case modes => exact Scalar.toNat_uint32_ofNat hi
  case shift =>
    have hs := Scalar.holds_i32_iff.1 hi
    exact Scalar.toInt_int64_ofInt (Scalar.holds_i64_iff.2 ⟨by omega, by omega⟩)
  case status => exact Scalar.toInt_int32_ofInt hi
  case tai => exact Scalar.toInt_int32_ofInt hi
  all_goals exact Scalar.toInt_int64_ofInt hi

/-- A record is made of its own values. -/
theorem ofValues_value (adj : ClockAdjustment) : ofValues adj.value = adj := by
  simp [ofValues, value]

instance : HasLayout ClockAdjustment 208 Field where
  layout := layout
  values := value
  ofValues := ofValues
  values_ofValues := value_ofValues
  ofValues_values := ofValues_value

/-- A record fits its image exactly when `shift` fits 32 bits. -/
theorem fits_iff {adj : ClockAdjustment} : Image.Fits adj ↔ Scalar.i32.Holds adj.shift.toInt := by
  rw [Image.fits_iff]
  constructor
  · intro h
    exact h .shift
  · intro h i
    cases i
    case modes => exact Scalar.holds_uint32 _
    case shift => exact h
    case status => exact Scalar.holds_int32 _
    case tai => exact Scalar.holds_int32 _
    all_goals exact Scalar.holds_int64 _

/-- The image of a record, or the failure that a value is too large for it. Only `shift` is narrower in memory than in
the record, so it alone is looked at; nothing is ever cut off. -/
def image? (adj : ClockAdjustment) : Except ErrorCode (Image 208) :=
  if Scalar.i32.Holds adj.shift.toInt then .ok (Image.of adj) else .error .valueTooLarge

/-- A record that fits has its image. -/
theorem image?_of_fits {adj : ClockAdjustment} (h : Image.Fits adj) : adj.image? = .ok (Image.of adj) := by
  rw [image?, if_pos (fits_iff.1 h)]

/-- A record that does not fit has none. -/
theorem image?_of_not_fits {adj : ClockAdjustment} (h : ¬Image.Fits adj) : adj.image? = .error .valueTooLarge := by
  rw [image?, if_neg fun hs => h (fits_iff.2 hs)]

end ClockAdjustment

end KernelControl
