import KernelControl.Call
import KernelControl.Image
import KernelControl.Scalar

/-!
# Arguments of a system call

A caller passes integers of several widths, truth values, constants of an enumeration and addresses; the kernel takes
words of 64 bits. `toWord` widens each argument: a signed integer keeps its sign, an unsigned one is filled up with
zeros, and an unsigned integer of full width is taken bit for bit. A truth value is an integer that is zero or one, and a
constant of an enumeration is the integer that represents it, which may be a truth value as well.
-/

namespace KernelControl

/-- An integer of a fixed width, or a truth value. -/
inductive IntArgument where
  | int8 (v : Int8)
  | uint8 (v : UInt8)
  | int16 (v : Int16)
  | uint16 (v : UInt16)
  | int32 (v : Int32)
  | uint32 (v : UInt32)
  | int64 (v : Int64)
  | uint64 (v : UInt64)
  | boolean (b : Bool)
deriving DecidableEq, Repr

namespace IntArgument

/-- The type of the integer; a truth value is one byte. -/
def scalar : IntArgument → Scalar
  | .int8 _ => .i8
  | .uint8 _ => .u8
  | .int16 _ => .i16
  | .uint16 _ => .u16
  | .int32 _ => .i32
  | .uint32 _ => .u32
  | .int64 _ => .i64
  | .uint64 _ => .u64
  | .boolean _ => .u8

/-- The integer itself. -/
def value : IntArgument → Int
  | .int8 v => v.toInt
  | .uint8 v => v.toNat
  | .int16 v => v.toInt
  | .uint16 v => v.toNat
  | .int32 v => v.toInt
  | .uint32 v => v.toNat
  | .int64 v => v.toInt
  | .uint64 v => v.toNat
  | .boolean b => if b then 1 else 0

/-- The integer widened to a word. -/
def toWord : IntArgument → Int64
  | .int8 v => v.toInt64
  | .uint8 v => v.toUInt64.toInt64
  | .int16 v => v.toInt64
  | .uint16 v => v.toUInt64.toInt64
  | .int32 v => v.toInt64
  | .uint32 v => v.toUInt64.toInt64
  | .int64 v => v
  | .uint64 v => v.toInt64
  | .boolean b => if b then 1 else 0

end IntArgument

/-- An argument as the caller has it. -/
inductive Argument where
  | integer (v : IntArgument)
  /-- A constant of an enumeration, given by the integer or truth value that represents it. -/
  | enumeration (v : IntArgument)
  | address (a : UInt64)
  | null
deriving DecidableEq, Repr

namespace Argument

/-- A truth value, as an argument of its own. -/
def boolean (b : Bool) : Argument := .integer (.boolean b)

/-- The type of the integer that the argument is represented by. -/
def scalar : Argument → Scalar
  | .integer v => v.scalar
  | .enumeration v => v.scalar
  | .address _ => .u64
  | .null => .u64

/-- The integer that the argument is represented by. -/
def value : Argument → Int
  | .integer v => v.value
  | .enumeration v => v.value
  | .address a => a.toNat
  | .null => 0

/-- The argument as a word. -/
def toWord : Argument → Int64
  | .integer v => v.toWord
  | .enumeration v => v.toWord
  | .address a => a.toInt64
  | .null => 0

end Argument

namespace Operand

/-- The word an argument is passed as. -/
def argument (a : Argument) : Operand := .word a.toWord

/-- A signed 32-bit number. -/
def int32 (v : Int32) : Operand := argument (.integer (.int32 v))

/-- An unsigned 32-bit number. -/
def uint32 (v : UInt32) : Operand := argument (.integer (.uint32 v))

/-- The address of a structure with this image. -/
def image {n : Nat} (m : Image n) : Operand := .memory m.toList

/-- A size in bytes. -/
def size (n : UInt64) : Operand := argument (.integer (.uint64 n))

end Operand

end KernelControl
