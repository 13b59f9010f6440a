import KernelControl.Layout

/-!
# Scheduling policies and attributes

A policy is a number, of which the kernel knows seven. The attributes of a thread are a record of 56 bytes that begins
with its own size. Every field has the width it has in the kernel's structure, so every record fits its image.
-/

namespace KernelControl

/-- A scheduling policy, by its number. -/
structure SchedPolicy where
  raw : UInt32
deriving DecidableEq, Repr

namespace SchedPolicy

/-- The time-sharing policy of ordinary threads. -/
def normal : SchedPolicy := ⟨0⟩
/-- Real time, without time slices. -/
def fifo : SchedPolicy := ⟨1⟩
/-- Real time, with time slices. -/
def roundRobin : SchedPolicy := ⟨2⟩
/-- Time sharing for threads that compute without a break. -/
def batch : SchedPolicy := ⟨3⟩
/-- For threads that run when no other does. -/
def idle : SchedPolicy := ⟨5⟩
/-- Real time, by deadlines. -/
def deadline : SchedPolicy := ⟨6⟩
/-- Scheduling by a loaded extension. -/
def ext : SchedPolicy := ⟨7⟩

/-- The known policies and their names. -/
def named : List (String × SchedPolicy) := [
  ("normal", normal),
  ("fifo", fifo),
  ("round_robin", roundRobin),
  ("batch", batch),
  ("idle", idle),
  ("deadline", deadline),
  ("ext", ext)]

/-- The known policy with the given number. -/
def ofRaw? (raw : UInt32) : Option SchedPolicy := (named.map Prod.snd).find? fun policy => policy.raw == raw

/-- The name of a known policy. -/
def name? (policy : SchedPolicy) : Option String :=
  (named.find? fun entry => entry.2 == policy).map Prod.fst

/-- The known policy with the given name. -/
def ofName? (name : String) : Option SchedPolicy := named.lookup name

end SchedPolicy

/-- Scheduling attributes of a thread. -/
structure SchedAttr where
  /-- The size of the structure, in bytes. -/
  size : UInt32 := 56
  policy : UInt32 := 0
  flags : UInt64 := 0
  /-- For the time-sharing policies. -/
  nice : Int32 := 0
  /-- For the real-time policies. -/
  priority : UInt32 := 0
  /-- For the deadline policy, in nanoseconds, as are `deadline` and `period`. -/
  runtime : UInt64 := 0
  deadline : UInt64 := 0
  period : UInt64 := 0
  /-- Utilization hints. -/
  utilMin : UInt32 := 0
  utilMax : UInt32 := 0
deriving DecidableEq, Repr

namespace SchedAttr

/-- The fields of the structure. -/
inductive Field where
  | size | policy | flags | nice | priority | runtime | deadline | period | utilMin | utilMax
deriving DecidableEq, Repr

/-- Where the fields lie. -/
def layout : Layout 56 Field where
  fields := [.size, .policy, .flags, .nice, .priority, .runtime, .deadline, .period, .utilMin, .utilMax]
  offset
    | .size => 0
    | .policy => 4
    | .flags => 8
    | .nice => 16
    | .priority => 20
    | .runtime => 24
    | .deadline => 32
    | .period => 40
    | .utilMin => 48
    | .utilMax => 52
  scalar
    | .nice => .i32
    | .size | .policy | .priority | .utilMin | .utilMax => .u32
    | .flags | .runtime | .deadline | .period => .u64
  mem_fields i := by cases i <;> decide
  inside := by decide
  apart := by decide

/-- The integer in a field of the record. -/
def value (attr : SchedAttr) : Field → Int
  | .size => attr.size.toNat
  | .policy => attr.policy.toNat
  | .flags => attr.flags.toNat
  | .nice => attr.nice.toInt
  | .priority => attr.priority.toNat
  | .runtime => attr.runtime.toNat
  | .deadline => attr.deadline.toNat
  | .period => attr.period.toNat
  | .utilMin => attr.utilMin.toNat
  | .utilMax => attr.utilMax.toNat

/-- The record with the given integers in its fields. -/
def ofValues (v : Field → Int) : SchedAttr where
  size := UInt32.ofNat (v .size).toNat
  policy := UInt32.ofNat (v .policy).toNat
  flags := UInt64.ofNat (v .flags).toNat
  nice := Int32.ofInt (v .nice)
  priority := UInt32.ofNat (v .priority).toNat
  runtime := UInt64.ofNat (v .runtime).toNat
  deadline := UInt64.ofNat (v .deadline).toNat
  period := UInt64.ofNat (v .period).toNat
  utilMin := UInt32.ofNat (v .utilMin).toNat
  utilMax := UInt32.ofNat (v .utilMax).toNat

/-- Integers that fit their scalars are the values of the record made from them. -/
theorem value_ofValues (v : Field → Int) (h : ∀ i, (layout.scalar i).Holds (v i)) : (ofValues v).value = v := by
  funext i
  have hi := h i
  cases i
  case nice => exact Scalar.toInt_int32_ofInt hi
  case size | policy | priority | utilMin | utilMax => exact Scalar.toNat_uint32_ofNat hi
  case flags | runtime | deadline | period => exact Scalar.toNat_uint64_ofNat hi

/-- A record is made of its own values. -/
theorem ofValues_value (attr : SchedAttr) : ofValues attr.value = attr := by
  simp [ofValues, value]

instance : HasLayout SchedAttr 56 Field where
  layout := layout
  values := value
  ofValues := ofValues
  values_ofValues := value_ofValues
  ofValues_values := ofValues_value

/-- Every record fits its image. -/
theorem fits (attr : SchedAttr) : Image.Fits attr := by
  rw [Image.fits_iff]
  intro i
  cases i
  case nice => exact Scalar.holds_int32 _
  case size | policy | priority | utilMin | utilMax => exact Scalar.holds_uint32 _
  case flags | runtime | deadline | period => exact Scalar.holds_uint64 _

end SchedAttr

end KernelControl
