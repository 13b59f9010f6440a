import KernelControl.Call
import KernelControl.Scalar

/-!
# What a reply comes to

An operation fails with the error number reported when the result is negative (`completion_of_neg`, `number32_of_neg`). Otherwise
it succeeds; one that gives a size gives the result (`toNat_toUInt64_result`), and one that gives a 32-bit number what is left of
the result in the range of 32 bits (`number32_of_not_neg`, `Scalar.toInt_toInt32`).
-/

namespace KernelControl

/-- Cutting a word to 32 bits reduces its value into their range. -/
theorem Scalar.toInt_toInt32 (a : Int64) : a.toInt32.toInt = i32.wrap a.toInt := by
  have hm : i32.modulus = 2 ^ 32 := by decide
  have hc : a.toInt32.toInt % i32.modulus = a.toInt % i32.modulus := by
    rw [Int64.toInt_toInt32, hm]
    exact Int.bmod_emod
  rw [← wrap_congr hc, wrap_of_holds (holds_int32 a.toInt32)]

/-- The failure of the library's own is not one that the kernel reports. -/
theorem ErrorCode.system_ne_valueTooLarge (number : Int32) : ErrorCode.system number ≠ .valueTooLarge :=
  fun h => nomatch congrArg ErrorCode.category h

/-- Codes of the kernel's are equal when their numbers are. -/
theorem ErrorCode.system_inj {a b : Int32} : system a = system b ↔ a = b :=
  ⟨fun h => congrArg ErrorCode.value h, fun h => congrArg system h⟩

namespace Reply

variable {reply : Reply}

/-- The size that a successful call gives is its result. -/
theorem toNat_toUInt64_result (h : ¬reply.result < 0) : (reply.result.toUInt64.toNat : Int) = reply.result.toInt := by
  have hle : 0 ≤ reply.result := Int64.not_lt.1 h
  rw [Int64.toNat_toUInt64_of_le hle]
  exact Int.toNat_of_nonneg (Int64.le_iff_toInt_le.1 hle)

/-- A call that fails is not completed. -/
theorem completion_of_neg (h : reply.result < 0) : reply.completion = .error (.system reply.errno) := by
  rw [completion, outcome_of_neg h]
  rfl

/-- A call that succeeds is completed. -/
theorem completion_of_not_neg (h : ¬reply.result < 0) : reply.completion = .ok () := by
  rw [completion, outcome_of_not_neg h]
  rfl

/-- A number asked for is not given when the call failed. -/
theorem number32_of_neg (h : reply.result < 0) : reply.number32 = .error (.system reply.errno) := by
  rw [number32, outcome_of_neg h]
  rfl

/-- The number that a successful call gives is its result cut to 32 bits. -/
theorem number32_of_not_neg (h : ¬reply.result < 0) : reply.number32 = .ok reply.result.toInt32 := by
  have hc : reply.result.toUInt64.toUInt32.toInt32 = reply.result.toInt32 := by
    rw [← Int32.toBitVec_inj]
    simp [BitVec.signExtend_eq_setWidth_of_le]
  rw [number32, outcome_of_not_neg h, ← hc]
  rfl

end Reply

end KernelControl
