/-!
# Hexadecimal text of bytes

Bytes are written as two lower-case digits each, high digit first, in memory order (`Hex.encode`). `Hex.decode` reads
that form back and also takes upper-case digits; text with an odd digit or a foreign character is refused.
-/

namespace KernelControl

namespace Hex

/-- The digit of a number below 16. -/
def digit (n : Nat) : Char :=
  if n < 10 then Char.ofNat (48 + n) else Char.ofNat (87 + n)

/-- The number a hexadecimal digit stands for. -/
def value (c : Char) : Option Nat :=
  if '0' ≤ c ∧ c ≤ '9' then some (c.toNat - 48)
  else if 'a' ≤ c ∧ c ≤ 'f' then some (c.toNat - 87)
  else if 'A' ≤ c ∧ c ≤ 'F' then some (c.toNat - 55)
  else none

/-- The two digits of each byte. -/
def encodeChars : List UInt8 → List Char
  | [] => []
  | b :: bytes => digit (b.toNat / 16) :: digit (b.toNat % 16) :: encodeChars bytes

/-- The bytes of a text of digit pairs. -/
def decodeChars : List Char → Option (List UInt8)
  | [] => some []
  | [_] => none
  | high :: low :: rest => do
    let h ← value high
    let l ← value low
    let bytes ← decodeChars rest
    return UInt8.ofNat (16 * h + l) :: bytes

/-- The hexadecimal text of a run of bytes. -/
def encode (bytes : List UInt8) : String := String.ofList (encodeChars bytes)

/-- The bytes a hexadecimal text stands for. -/
def decode (text : String) : Option (List UInt8) := decodeChars text.toList

/-- A digit stands for the number it was made from. -/
theorem value_digit : ∀ n : Fin 16, value (digit n.val) = some n.val := by
  decide

/-- Reading the written form gives the bytes back. -/
theorem decodeChars_encodeChars (bytes : List UInt8) : decodeChars (encodeChars bytes) = some bytes := by
  induction bytes with
  | nil => rfl
  | cons b bytes ih =>
    have hb : b.toNat < 256 := b.toNat_lt
    have hh := value_digit ⟨b.toNat / 16, by omega⟩
    have hl := value_digit ⟨b.toNat % 16, by omega⟩
    have hv : 16 * (b.toNat / 16) + b.toNat % 16 = b.toNat := by omega
    simp only at hh hl
    simp only [encodeChars, decodeChars, hh, hl, ih, Option.bind_eq_bind, Option.bind_some, hv, UInt8.ofNat_toNat]
    rfl

/-- Reading the hexadecimal text of bytes gives the bytes back. -/
theorem decode_encode (bytes : List UInt8) : decode (encode bytes) = some bytes := by
  simp [decode, encode, decodeChars_encodeChars]

end Hex

end KernelControl
