/-!
# Error codes

A failure is reported as a number and the category it is read in. Numbers that the kernel reported are in the system
category; the library itself reports one failure of its own, a value that does not fit the kernel's structure, in the
generic category.
-/

namespace KernelControl

/-- How the number of an error code is to be read. -/
inductive ErrorCategory where
  /-- The number was reported by the kernel. -/
  | system
  /-- The number names a portable condition. -/
  | generic
deriving DecidableEq, Repr

/-- A number and its category. -/
structure ErrorCode where
  category : ErrorCategory
  value : Int32
deriving DecidableEq, Repr

namespace ErrorCode

/-- The code of a number that the kernel reported, zero included. -/
def system (number : Int32) : ErrorCode := ⟨.system, number⟩

/-- The value does not fit the structure it is to be stored in. -/
def valueTooLarge : ErrorCode := ⟨.generic, 75⟩

/-- The code stands for an error: its number is not zero. -/
def isSet (code : ErrorCode) : Bool := code.value != 0

/-- The code says that a signal interrupted the call. -/
def isInterrupted (code : ErrorCode) : Bool := code.value == 4

end ErrorCode

end KernelControl
