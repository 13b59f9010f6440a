/-!
# Decimal numbers

The text of an integer is a minus sign for a negative one and the digits of its size, at least one. `renderPadded` puts
zeros between the sign and the digits until the text has the width asked for, the sign included. `parse?` takes a text of
digits, with a minus sign or without, and reads the text of an integer back.
-/

namespace KernelControl

namespace Decimal

/-- The digits of a natural number, the highest first. -/
def digits (n : Nat) : List Char := Nat.toDigits 10 n

/-- The sign of an integer: nothing for one that is not negative. -/
def sign (n : Int) : List Char := if n < 0 then ['-'] else []

/-- The text of an integer. -/
def render (n : Int) : List Char := sign n ++ digits n.natAbs

/-- The text of an integer, filled up with zeros after the sign. -/
def renderPadded (width : Nat) (n : Int) : List Char :=
  sign n ++ List.replicate (width - ((sign n).length + (digits n.natAbs).length)) '0' ++ digits n.natAbs

/-- The natural number that a text of digits stands for. -/
def natural? (text : List Char) : Option Nat :=
  if text ≠ [] ∧ text.all Char.isDigit then some (Nat.ofDigitChars 10 text 0) else none

/-- The integer that a text stands for. -/
def parse? : List Char → Option Int
  | '-' :: text => (natural? text).map fun n : Nat => -(n : Int)
  | text => (natural? text).map fun n : Nat => (n : Int)

/-- The digits of a number are digit characters. -/
theorem isDigit_of_mem_digits {n : Nat} {c : Char} (h : c ∈ digits n) : c.isDigit = true :=
  Nat.isDigit_of_mem_toDigits (by decide) (by decide) h

/-- Zeros and the digits of a number are all digits. -/
theorem all_isDigit_zeros_append_digits (k n : Nat) :
    (List.replicate k '0' ++ digits n).all Char.isDigit = true := by
  rw [List.all_eq_true]
  intro c hc
  rcases List.mem_append.1 hc with hc | hc
  · rw [(List.mem_replicate.1 hc).2]
    rfl
  · exact isDigit_of_mem_digits hc

/-- Digits are read back, with any number of zeros before them. -/
theorem natural?_zeros_append_digits (k n : Nat) : natural? (List.replicate k '0' ++ digits n) = some n := by
  have hne : List.replicate k '0' ++ digits n ≠ [] := by
    simp [digits, Nat.toDigits_ne_nil]
  rw [natural?, if_pos ⟨hne, all_isDigit_zeros_append_digits k n⟩, Nat.ofDigitChars_append,
    Nat.ofDigitChars_replicate_zero, Nat.mul_zero, digits, Nat.ofDigitChars_ten_toDigits]

/-- The digits of a number are read back. -/
theorem natural?_digits (n : Nat) : natural? (digits n) = some n := natural?_zeros_append_digits 0 n

/-- A text of digits is read without a sign. -/
theorem parse?_of_digits {text : List Char} (h : text.all Char.isDigit = true) :
    parse? text = (natural? text).map fun n : Nat => (n : Int) := by
  unfold parse?
  split
  · simp at h
  · rfl

/-- Reading the text of an integer gives it back. -/
theorem parse?_render (n : Int) : parse? (render n) = some n := by
  unfold render sign
  split
  · rename_i hn
    rw [List.singleton_append, parse?, natural?_digits, Option.map_some]
    exact congrArg some (by omega)
  · rename_i hn
    rw [List.nil_append, parse?_of_digits, natural?_digits, Option.map_some]
    · exact congrArg some (by omega)
    · exact List.all_eq_true.2 fun c hc => isDigit_of_mem_digits hc

end Decimal

end KernelControl
