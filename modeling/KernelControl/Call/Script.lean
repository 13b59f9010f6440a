import KernelControl.Call
import KernelControl.Decimal
import KernelControl.Image.Hex

/-!
# Scripts of replies

Replies can be written down, one on a line: the result, the error number and the bytes written in hexadecimal, with
blanks between them. What is left out at the end of a line is zero. `line` writes a reply, and `ofLine?` reads one.
-/

namespace KernelControl

namespace Reply

/-- The words of a reply; when no bytes were written there is no word for them. -/
def words (reply : Reply) : List String :=
  [String.ofList (Decimal.render reply.result.toInt), String.ofList (Decimal.render reply.errno.toInt)] ++
    if reply.written = [] then [] else [Hex.encode reply.written]

/-- The line that a reply is written on. -/
def line (reply : Reply) : String := " ".intercalate reply.words

/-- The words of a text: its longest runs of characters of which none is blank. -/
def wordsOf (text : List Char) : List String :=
  (text.splitBy fun a b => a.isWhitespace == b.isWhitespace).filterMap fun run =>
    if run.any Char.isWhitespace then none else some (String.ofList run)

/-- The integer a word stands for, if a scalar of the machine between the given bounds holds it. -/
def integer? (least bound : Int) (word : String) : Option Int :=
  (Decimal.parse? word.toList).filter fun n => decide (least ≤ n ∧ n < bound)

/-- The reply on a line. -/
def ofLine? (line : String) : Option Reply :=
  match wordsOf line.toList with
  | [] => some {}
  | [result] => do
    return { result := Int64.ofInt (← integer? (-0x8000000000000000) 0x8000000000000000 result) }
  | [result, errno] => do
    let result ← integer? (-0x8000000000000000) 0x8000000000000000 result
    let errno ← integer? (-0x80000000) 0x80000000 errno
    return { result := Int64.ofInt result, errno := Int32.ofInt errno }
  | [result, errno, bytes] => do
    let result ← integer? (-0x8000000000000000) 0x8000000000000000 result
    let errno ← integer? (-0x80000000) 0x80000000 errno
    return ⟨Int64.ofInt result, Int32.ofInt errno, ← Hex.decode bytes⟩
  | _ => none

end Reply

end KernelControl
