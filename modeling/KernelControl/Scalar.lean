/-!
# Scalars: integers as they lie in memory

A scalar is an integer type of the machine: a number of bytes and whether its values carry a sign. It has a range of
values (`Holds`), reduces any integer into that range modulo a power of two (`wrap`), and lies in memory low byte first
(`encode`). `decode` reads those bytes back: exactly, for a value in the range (`decode_encode`).
-/

namespace KernelControl

/-- An integer type of the machine. -/
structure Scalar where
  /-- How many bytes it occupies. -/
  size : Nat
  /-- Whether negative values are represented. -/
  signed : Bool
deriving DecidableEq, Repr

namespace Scalar

/-- A signed integer of 8 bits. -/
def i8 : Scalar := ⟨1, true⟩
/-- An unsigned integer of 8 bits. -/
def u8 : Scalar := ⟨1, false⟩
/-- A signed integer of 16 bits. -/
def i16 : Scalar := ⟨2, true⟩
/-- An unsigned integer of 16 bits. -/
def u16 : Scalar := ⟨2, false⟩
/-- A signed integer of 32 bits. -/
def i32 : Scalar := ⟨4, true⟩
/-- An unsigned integer of 32 bits. -/
def u32 : Scalar := ⟨4, false⟩
/-- A signed integer of 64 bits. -/
def i64 : Scalar := ⟨8, true⟩
/-- An unsigned integer of 64 bits. -/
def u64 : Scalar := ⟨8, false⟩

/-- The weight of byte `k` of an integer, counted from the low end; also how many values `k` bytes have. -/
def weight : Nat → Nat
  | 0 => 1
  | k + 1 => 256 * weight k

/-- How many values the scalar has: two to the number of its bits. -/
def modulus (s : Scalar) : Nat := weight s.size

/-- The least value of the scalar. -/
def least (s : Scalar) : Int := if s.signed then -(s.modulus / 2 : Nat) else 0

/-- The integer is a value of the scalar. -/
def Holds (s : Scalar) (v : Int) : Prop := s.least ≤ v ∧ v < s.least + s.modulus

instance (s : Scalar) (v : Int) : Decidable (s.Holds v) := by
  unfold Holds
  infer_instance

/-- The value of the scalar that is congruent to the integer: what is left of it when only the low bytes are kept. -/
def wrap (s : Scalar) (v : Int) : Int := s.least + (v - s.least) % s.modulus

/-- Byte `k` of an integer, counted from the low end, in two's complement. -/
def byteOf (v : Int) (k : Nat) : UInt8 := UInt8.ofNat (v / weight k % 256).toNat

/-- The bytes of a value, low byte first. -/
def encode (s : Scalar) (v : Int) : List UInt8 := (List.range s.size).map (byteOf v)

/-- The number a run of bytes stands for, low byte first, without a sign. -/
def magnitude : List UInt8 → Nat
  | [] => 0
  | b :: bytes => b.toNat + 256 * magnitude bytes

/-- The value a run of bytes stands for. -/
def decode (s : Scalar) (bytes : List UInt8) : Int := s.wrap (magnitude bytes)

/-! ## The range -/

/-- Every weight is positive. -/
theorem weight_pos (k : Nat) : 0 < weight k := by
  induction k with
  | zero => decide
  | succ k ih =>
    rw [weight]
    omega

/-- The weights of positions that are added are multiplied. -/
theorem weight_add (j k : Nat) : weight (j + k) = weight j * weight k := by
  induction k with
  | zero => simp [weight]
  | succ k ih => rw [Nat.add_succ, weight, weight, ih, Nat.mul_left_comm]

/-- A scalar has at least one value. -/
theorem modulus_pos (s : Scalar) : 0 < s.modulus := weight_pos s.size

/-- Reduction always lands in the range. -/
theorem holds_wrap (s : Scalar) (v : Int) : s.Holds (s.wrap v) := by
  have h := s.modulus_pos
  have h₁ := Int.emod_nonneg (v - s.least) (b := s.modulus) (by omega)
  have h₂ := Int.emod_lt_of_pos (v - s.least) (b := s.modulus) (by omega)
  unfold Holds wrap
  omega

/-- A value of the scalar is its own reduction. -/
theorem wrap_of_holds {s : Scalar} {v : Int} (h : s.Holds v) : s.wrap v = v := by
  unfold Holds at h
  rw [wrap, Int.emod_eq_of_lt (by omega) (by omega)]
  omega

/-- Congruent integers have the same reduction. -/
theorem wrap_congr {s : Scalar} {v w : Int} (h : v % s.modulus = w % s.modulus) : s.wrap v = s.wrap w := by
  rw [wrap, wrap, Int.sub_emod v, Int.sub_emod w, h]

/-- The range of a signed integer of 32 bits. -/
theorem holds_i32_iff {n : Int} : i32.Holds n ↔ -0x80000000 ≤ n ∧ n < 0x80000000 := by
  simp [Holds, least, modulus, weight, i32]

/-- The range of an unsigned integer of 32 bits. -/
theorem holds_u32_iff {n : Int} : u32.Holds n ↔ 0 ≤ n ∧ n < 0x100000000 := by
  simp [Holds, least, modulus, weight, u32]

/-- The range of a signed integer of 64 bits. -/
theorem holds_i64_iff {n : Int} : i64.Holds n ↔ -0x8000000000000000 ≤ n ∧ n < 0x8000000000000000 := by
  simp [Holds, least, modulus, weight, i64]

/-- The range of an unsigned integer of 64 bits. -/
theorem holds_u64_iff {n : Int} : u64.Holds n ↔ 0 ≤ n ∧ n < 0x10000000000000000 := by
  simp [Holds, least, modulus, weight, u64]

/-! ## Words of the machine -/

/-- A signed word of 32 bits is in its range. -/
theorem holds_int32 (a : Int32) : i32.Holds a.toInt := holds_i32_iff.2 ⟨a.le_toInt, a.toInt_lt⟩

/-- An unsigned word of 32 bits is in its range. -/
theorem holds_uint32 (a : UInt32) : u32.Holds a.toNat := by
  have := a.toNat_lt
  exact holds_u32_iff.2 ⟨Int.natCast_nonneg _, by omega⟩

/-- A signed word of 64 bits is in its range. -/
theorem holds_int64 (a : Int64) : i64.Holds a.toInt := holds_i64_iff.2 ⟨a.le_toInt, a.toInt_lt⟩

/-- An unsigned word of 64 bits is in its range. -/
theorem holds_uint64 (a : UInt64) : u64.Holds a.toNat := by
  have := a.toNat_lt
  exact holds_u64_iff.2 ⟨Int.natCast_nonneg _, by omega⟩

/-- The signed word of 32 bits made from a value in the range has that value. -/
theorem toInt_int32_ofInt {n : Int} (h : i32.Holds n) : (Int32.ofInt n).toInt = n := by
  obtain ⟨h₁, h₂⟩ := holds_i32_iff.1 h
  exact Int32.toInt_ofInt_of_le h₁ h₂

/-- The unsigned word of 32 bits made from a value in the range has that value. -/
theorem toNat_uint32_ofNat {n : Int} (h : u32.Holds n) : ((UInt32.ofNat n.toNat).toNat : Int) = n := by
  obtain ⟨h₁, h₂⟩ := holds_u32_iff.1 h
  rw [UInt32.toNat_ofNat', Nat.mod_eq_of_lt (by omega)]
  omega

/-- The signed word of 64 bits made from a value in the range has that value. -/
theorem toInt_int64_ofInt {n : Int} (h : i64.Holds n) : (Int64.ofInt n).toInt = n := by
  obtain ⟨h₁, h₂⟩ := holds_i64_iff.1 h
  exact Int64.toInt_ofInt_of_le h₁ h₂

/-- The unsigned word of 64 bits made from a value in the range has that value. -/
theorem toNat_uint64_ofNat {n : Int} (h : u64.Holds n) : ((UInt64.ofNat n.toNat).toNat : Int) = n := by
  obtain ⟨h₁, h₂⟩ := holds_u64_iff.1 h
  rw [UInt64.toNat_ofNat', Nat.mod_eq_of_lt (by omega)]
  omega

/-! ## Bytes -/

/-- A value has as many bytes as its scalar. -/
@[simp] theorem length_encode (s : Scalar) (v : Int) : (s.encode v).length = s.size := by
  simp [encode]

/-- A run of bytes stands for a number below how many values such runs have. -/
theorem magnitude_lt (bytes : List UInt8) : magnitude bytes < weight bytes.length := by
  induction bytes with
  | nil => simp [magnitude, weight]
  | cons b bytes ih =>
    have hb : b.toNat < 256 := b.toNat_lt
    rw [List.length_cons, weight, magnitude]
    omega

/-- Byte `k` is the digit of its weight. -/
theorem toNat_byteOf (v : Int) (k : Nat) : ((byteOf v k).toNat : Int) = v / weight k % 256 := by
  have h₁ := Int.emod_nonneg (v / weight k) (b := 256) (by decide)
  have h₂ := Int.emod_lt_of_pos (v / weight k) (b := 256) (by decide)
  rw [byteOf, UInt8.toNat_ofNat', Nat.mod_eq_of_lt (by omega)]
  omega

/-- The bytes of an integer at positions `k`, `k + 1`, ..., `k + n - 1` stand for the integer divided by the weight of
`k`, up to multiples of the weight of `n`. -/
theorem magnitude_bytes (v : Int) (n k : Nat) :
    (magnitude ((List.range' k n).map (byteOf v)) : Int) = v / weight k % weight n := by
  induction n generalizing k with
  | zero => exact (Int.emod_one _).symm
  | succ n ih =>
    rw [List.range'_succ, List.map_cons, magnitude]
    have hq : v / weight (k + 1) = v / weight k / 256 := by
      rw [weight, Nat.mul_comm, Int.natCast_mul, Int.ediv_ediv_of_nonneg (Int.natCast_nonneg _)]
      rfl
    rw [Int.natCast_add, Int.natCast_mul, ih (k + 1), toNat_byteOf, hq]
    generalize v / weight k = w
    have hm : (weight (n + 1) : Int) = 256 * weight n := by
      rw [weight, Int.natCast_mul]
      rfl
    rw [hm, Int.emod_def w (256 * _), ← Int.ediv_ediv_of_nonneg (by decide), Int.emod_def (w / 256), Int.mul_assoc]
    omega

/-- Reading the bytes of any integer gives what is left of it in the scalar's range. -/
theorem decode_encode_wrap (s : Scalar) (v : Int) : s.decode (s.encode v) = s.wrap v := by
  rw [decode, encode, List.range_eq_range']
  apply wrap_congr
  rw [magnitude_bytes]
  simp [modulus, weight]

/-- Reading the bytes of a value of the scalar gives the value back. -/
theorem decode_encode {s : Scalar} {v : Int} (h : s.Holds v) : s.decode (s.encode v) = v := by
  rw [decode_encode_wrap, wrap_of_holds h]

/-- A byte below the scalar's size does not see a change by a multiple of the modulus. -/
theorem byteOf_add_modulus_mul {s : Scalar} {k : Nat} (v q : Int) (hk : k < s.size) :
    byteOf (v + s.modulus * q) k = byteOf v k := by
  obtain ⟨r, hr⟩ : ∃ r, s.size = k + 1 + r := ⟨s.size - (k + 1), by omega⟩
  have hm : (s.modulus : Int) * q = weight k * (256 * (weight r * q)) := by
    rw [modulus, hr, weight_add, weight, Int.natCast_mul, Int.natCast_mul, Int.mul_comm _ (weight k : Int), Int.mul_assoc,
      Int.mul_assoc]
    rfl
  have hp : (weight k : Int) ≠ 0 := by
    have := weight_pos k
    omega
  rw [byteOf, byteOf, hm, Int.add_mul_ediv_left _ _ hp, Int.add_mul_emod_self_left]

/-- The bytes that are kept do not change by reduction. -/
theorem byteOf_wrap {s : Scalar} {k : Nat} (v : Int) (hk : k < s.size) : byteOf (s.wrap v) k = byteOf v k := by
  have h : s.wrap v = v + s.modulus * -((v - s.least) / s.modulus) := by
    rw [wrap, Int.emod_def, Int.mul_neg]
    omega
  rw [h, byteOf_add_modulus_mul v _ hk]

/-- The bytes of the number a run of bytes stands for are those bytes. -/
theorem byteOf_magnitude (bytes : List UInt8) (k : Nat) (hk : k < bytes.length) :
    byteOf (magnitude bytes) k = bytes[k] := by
  induction bytes generalizing k with
  | nil => simp at hk
  | cons b bytes ih =>
    have hb : b.toNat < 256 := b.toNat_lt
    cases k with
    | zero =>
      apply UInt8.toNat_inj.1
      have h := toNat_byteOf (magnitude (b :: bytes)) 0
      simp only [weight, magnitude] at h
      simp only [magnitude, List.getElem_cons_zero]
      omega
    | succ k =>
      have hk' : k < bytes.length := by simpa using hk
      rw [List.getElem_cons_succ, ← ih k hk', byteOf, byteOf]
      congr 3
      rw [weight, Int.natCast_mul, ← Int.ediv_ediv_of_nonneg (by decide)]
      congr 1
      rw [magnitude]
      omega

/-- The bytes of the value that was read from as many bytes as the scalar has are those bytes. -/
theorem byteOf_decode {s : Scalar} {bytes : List UInt8} (h : bytes.length = s.size) (k : Nat) (hk : k < bytes.length) :
    byteOf (s.decode bytes) k = bytes[k] := by
  rw [decode, byteOf_wrap _ (h ▸ hk), byteOf_magnitude bytes k hk]

/-- What is read from memory is always a value of the scalar. -/
theorem holds_decode (s : Scalar) (bytes : List UInt8) : s.Holds (s.decode bytes) := s.holds_wrap _

end Scalar

end KernelControl
