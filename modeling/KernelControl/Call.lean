import KernelControl.ErrorCode

/-!
# System calls and replies

A system call is a number and a list of operands, each one machine word. A word that is an address of a structure is
represented by the bytes found there when the call is made. The kernel replies with a result, an error number and the
bytes that it wrote over the start of the structure it was given to fill. A negative result is a failure, whatever else
the reply says, and any other result is a success.
-/

namespace KernelControl

/-- One word passed to the kernel. -/
inductive Operand where
  /-- A number, or an address that the caller chose. -/
  | word (w : Int64)
  /-- The address of a structure with these bytes. -/
  | memory (bytes : List UInt8)
  /-- A position inside a buffer of the caller. -/
  | buffer (offset : UInt64)
  /-- No address. -/
  | null
deriving DecidableEq, Repr

/-- What the kernel is asked for. -/
structure Call where
  number : Int64
  operands : List Operand
deriving DecidableEq, Repr

/-- What the kernel answers. -/
structure Reply where
  result : Int64 := 0
  errno : Int32 := 0
  written : List UInt8 := []
deriving DecidableEq, Repr

namespace Reply

/-- The result of the call as a size, or the code of its failure. -/
def outcome (reply : Reply) : Except ErrorCode UInt64 :=
  if reply.result < 0 then .error (.system reply.errno) else .ok reply.result.toUInt64

/-- Success without a value, or the code of the failure. -/
def completion (reply : Reply) : Except ErrorCode Unit := reply.outcome.map fun _ => ()

/-- The result as a 32-bit number, or the code of the failure. -/
def number32 (reply : Reply) : Except ErrorCode Int32 := reply.outcome.map fun n => n.toUInt32.toInt32

/-- A negative result is a failure with the reported number. -/
theorem outcome_of_neg {reply : Reply} (h : reply.result < 0) : reply.outcome = .error (.system reply.errno) := by
  simp [outcome, h]

/-- Any other result is a success. -/
theorem outcome_of_not_neg {reply : Reply} (h : ¬reply.result < 0) : reply.outcome = .ok reply.result.toUInt64 := by
  simp [outcome, h]

end Reply

end KernelControl
