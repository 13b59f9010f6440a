import Mathlib.Data.Int.ModEq
import KernelControl.Proofs.Reply
import KernelControl.Program

/-!
# Arguments as words

Whatever the type of an argument, the word that it is widened to is its value reduced into the range of signed words of 64 bits
(`Argument.toInt_toWord`). A type that is narrower has all of its values in that range, and then the word is the value itself. No
type is wider, so reducing the word to the type gives the value back (`Argument.wrap_toWord`), and arguments of one type are told
apart by their words. So are lists of arguments that agree in their types, since each argument is a word of the call.
-/

namespace KernelControl

/-! ## Scalars of several sizes -/

namespace Scalar

variable {s t : Scalar} {v w : Int}

/-- Reduction keeps the remainder. -/
theorem wrap_emod_modulus (s : Scalar) (v : Int) : s.wrap v % s.modulus = v % s.modulus := by
  rw [wrap, Int.add_emod_emod]
  congr 1
  omega

/-- The reduction of an integer is the value of the scalar that has the same remainder. -/
theorem eq_wrap_iff : w = s.wrap v ↔ s.Holds w ∧ w % s.modulus = v % s.modulus := by
  constructor
  · rintro rfl
    exact ⟨s.holds_wrap v, s.wrap_emod_modulus v⟩
  · rintro ⟨hw, h⟩
    rw [← wrap_congr h, wrap_of_holds hw]

theorem modulus_eq_mul (h : s.size ≤ t.size) : t.modulus = s.modulus * weight (t.size - s.size) := by
  rw [modulus, modulus, ← weight_add]
  congr 1
  omega

/-- Reducing to a wider scalar before does not change what is left in a narrower one. -/
theorem wrap_wrap_of_le (h : s.size ≤ t.size) (v : Int) : s.wrap (t.wrap v) = s.wrap v := by
  have hdvd : (s.modulus : Int) ∣ t.modulus := by
    rw [modulus_eq_mul h, Int.natCast_mul]
    exact Int.dvd_mul_right _ _
  apply wrap_congr
  rw [← Int.emod_emod_of_dvd _ hdvd, wrap_emod_modulus, Int.emod_emod_of_dvd _ hdvd]

/-- A wider scalar with a sign has all values of a narrower one. -/
theorem Holds.widen (hsize : s.size < t.size) (hsigned : t.signed = true) (h : s.Holds v) : t.Holds v := by
  have hpos := s.modulus_pos
  have hfactor : 2 ≤ weight (t.size - s.size) := by
    obtain ⟨k, hk⟩ : ∃ k, t.size - s.size = k + 1 := ⟨t.size - s.size - 1, by omega⟩
    have := weight_pos k
    rw [hk, weight]
    omega
  have hmodulus : 2 * s.modulus ≤ t.modulus := by
    rw [modulus_eq_mul (Nat.le_of_lt hsize), Nat.mul_comm]
    exact Nat.mul_le_mul_left _ hfactor
  have hleast : -(s.modulus : Int) ≤ s.least ∧ s.least ≤ 0 := by
    unfold least
    split <;> omega
  unfold Holds at h ⊢
  rw [least, if_pos hsigned]
  omega

/-- A scalar with a sign has as many values below zero as not. -/
theorem holds_of_signed {n : Nat} (hsigned : s.signed = true) (hm : s.modulus = 2 * n) (hlo : -(n : Int) ≤ v) (hhi : v < n) :
    s.Holds v := by
  rw [Holds, least, if_pos hsigned, hm]
  omega

/-- A scalar without a sign has the numbers below its modulus. -/
theorem holds_of_unsigned {n : Nat} (hsigned : s.signed = false) (hn : n < s.modulus) : s.Holds n := by
  rw [Holds, least, hsigned, if_neg Bool.false_ne_true]
  omega

/-- An unsigned word of 64 bits is read with a sign as its reduction. -/
theorem toInt_toInt64 (a : UInt64) : a.toInt64.toInt = i64.wrap a.toNat := by
  rw [eq_wrap_iff]
  refine ⟨holds_int64 _, ?_⟩
  have hm : (i64.modulus : Int) = (2 ^ 64 : Nat) := by decide
  rw [← Int64.toInt_toBitVec, UInt64.toBitVec_toInt64, BitVec.toInt_eq_toNat_bmod, hm]
  exact Int.bmod_emod

/-- A value of a narrower scalar is its own reduction into 64 bits. -/
theorem Holds.wrap_i64 (hsize : s.size < 8) (h : s.Holds v) : i64.wrap v = v := wrap_of_holds (h.widen hsize rfl)

end Scalar

/-! ## Integers -/

namespace IntArgument

/-- An integer is a value of its type. -/
theorem holds_value (v : IntArgument) : v.scalar.Holds v.value := by
  cases v with
  | int8 v => exact Scalar.holds_of_signed (n := 0x80) rfl rfl v.le_toInt v.toInt_lt
  | uint8 v => exact Scalar.holds_of_unsigned rfl v.toNat_lt
  | int16 v => exact Scalar.holds_of_signed (n := 0x8000) rfl rfl v.le_toInt v.toInt_lt
  | uint16 v => exact Scalar.holds_of_unsigned rfl v.toNat_lt
  | int32 v => exact Scalar.holds_int32 v
  | uint32 v => exact Scalar.holds_uint32 v
  | int64 v => exact Scalar.holds_int64 v
  | uint64 v => exact Scalar.holds_uint64 v
  | boolean b => cases b <;> decide

/-- An integer is widened to the word that it reduces to. -/
theorem toInt_toWord (v : IntArgument) : v.toWord.toInt = Scalar.i64.wrap v.value := by
  cases v with
  | int8 v => exact v.toInt_toInt64.trans ((int8 v).holds_value.wrap_i64 (by decide : Scalar.i8.size < 8)).symm
  | uint8 v => rw [toWord, value, Scalar.toInt_toInt64, UInt8.toNat_toUInt64]
  | int16 v => exact v.toInt_toInt64.trans ((int16 v).holds_value.wrap_i64 (by decide : Scalar.i16.size < 8)).symm
  | uint16 v => rw [toWord, value, Scalar.toInt_toInt64, UInt16.toNat_toUInt64]
  | int32 v => exact v.toInt_toInt64.trans ((int32 v).holds_value.wrap_i64 (by decide : Scalar.i32.size < 8)).symm
  | uint32 v => rw [toWord, value, Scalar.toInt_toInt64, UInt32.toNat_toUInt64]
  | int64 v => rw [toWord, value, Scalar.wrap_of_holds (Scalar.holds_int64 v)]
  | uint64 v => rw [toWord, value, Scalar.toInt_toInt64]
  | boolean b => cases b <;> decide

/-- An integer is narrower than a word, or it is a word with or without a sign. -/
theorem size_scalar (v : IntArgument) : v.scalar.size < 8 ∨ v.scalar = .i64 ∨ v.scalar = .u64 := by
  cases v <;> simp [scalar, Scalar.i8, Scalar.u8, Scalar.i16, Scalar.u16, Scalar.i32, Scalar.u32]

end IntArgument

/-- The type that an integer or a truth value is declared with. -/
inductive IntType where
  | integer (s : Scalar)
  | boolean
deriving DecidableEq, Repr

/-- The type of the integers that values of the type are represented by. -/
def IntType.scalar : IntType → Scalar
  | .integer s => s
  | .boolean => .u8

namespace IntArgument

/-- The type of the integer or truth value. -/
def type : IntArgument → IntType
  | .boolean _ => .boolean
  | v => .integer v.scalar

theorem scalar_type (v : IntArgument) : v.type.scalar = v.scalar := by
  cases v <;> rfl

/-- The integer or truth value of the given type and value, for the types that there are. -/
def ofValue (n : Int) : IntType → Option IntArgument
  | .integer ⟨1, true⟩ => some (.int8 (Int8.ofInt n))
  | .integer ⟨1, false⟩ => some (.uint8 (UInt8.ofNat n.toNat))
  | .integer ⟨2, true⟩ => some (.int16 (Int16.ofInt n))
  | .integer ⟨2, false⟩ => some (.uint16 (UInt16.ofNat n.toNat))
  | .integer ⟨4, true⟩ => some (.int32 (Int32.ofInt n))
  | .integer ⟨4, false⟩ => some (.uint32 (UInt32.ofNat n.toNat))
  | .integer ⟨8, true⟩ => some (.int64 (Int64.ofInt n))
  | .integer ⟨8, false⟩ => some (.uint64 (UInt64.ofNat n.toNat))
  | .integer _ => none
  | .boolean => some (.boolean (n != 0))

/-- An integer is determined by its type and its value, and so is a truth value. -/
theorem ofValue_value (v : IntArgument) : ofValue v.value v.type = some v := by
  cases v with
  | boolean b => cases b <;> rfl
  | _ => simp [ofValue, value, type, scalar, Scalar.i8, Scalar.u8, Scalar.i16, Scalar.u16, Scalar.i32, Scalar.u32, Scalar.i64,
      Scalar.u64]

end IntArgument

/-! ## Arguments -/

/-- The type that an argument is declared with. -/
inductive ArgumentType where
  | integer (t : IntType)
  /-- An enumeration, given by the type of the integers or truth values that represent its constants. -/
  | enumeration (t : IntType)
  | address
  | null
deriving DecidableEq, Repr

/-- The type of the integer that arguments of the type are represented by. -/
def ArgumentType.scalar : ArgumentType → Scalar
  | .integer t => t.scalar
  | .enumeration t => t.scalar
  | .address => .u64
  | .null => .u64

namespace Argument

/-- The type of the argument. -/
def type : Argument → ArgumentType
  | .integer v => .integer v.type
  | .enumeration v => .enumeration v.type
  | .address _ => .address
  | .null => .null

/-- The argument of the given type that is represented by the given integer, for the types that there are. -/
def ofValue (n : Int) : ArgumentType → Option Argument
  | .integer t => (IntArgument.ofValue n t).map .integer
  | .enumeration t => (IntArgument.ofValue n t).map .enumeration
  | .address => some (.address (UInt64.ofNat n.toNat))
  | .null => some .null

theorem scalar_type (a : Argument) : a.type.scalar = a.scalar := by
  cases a with
  | integer v => exact v.scalar_type
  | enumeration v => exact v.scalar_type
  | address a => rfl
  | null => rfl

/-- An argument is determined by its type and its value. -/
theorem ofValue_value (a : Argument) : ofValue a.value a.type = some a := by
  cases a with
  | integer v => rw [type, value, ofValue, v.ofValue_value, Option.map_some]
  | enumeration v => rw [type, value, ofValue, v.ofValue_value, Option.map_some]
  | address a => simp [type, value, ofValue]
  | null => rfl

/-- The value of an argument is one of the type that represents it. -/
theorem holds_value (a : Argument) : a.scalar.Holds a.value := by
  cases a with
  | integer v => exact v.holds_value
  | enumeration v => exact v.holds_value
  | address a => exact Scalar.holds_uint64 a
  | null => decide

/-- An argument is narrower than a word, or it is a word with or without a sign. -/
theorem size_scalar (a : Argument) : a.scalar.size < 8 ∨ a.scalar = .i64 ∨ a.scalar = .u64 := by
  cases a with
  | integer v => exact v.size_scalar
  | enumeration v => exact v.size_scalar
  | address a => exact Or.inr (Or.inr rfl)
  | null => exact Or.inr (Or.inr rfl)

/-- An argument is widened to the word that its value reduces to. -/
theorem toInt_toWord (a : Argument) : a.toWord.toInt = Scalar.i64.wrap a.value := by
  cases a with
  | integer v => exact v.toInt_toWord
  | enumeration v => exact v.toInt_toWord
  | address a => exact Scalar.toInt_toInt64 a
  | null => decide

/-- Reducing the word to the type of the argument gives the value back. -/
theorem wrap_toWord (a : Argument) : a.scalar.wrap a.toWord.toInt = a.value := by
  have hsize : a.scalar.size ≤ Scalar.i64.size := by
    rcases a.size_scalar with h | h | h
    · exact Nat.le_of_lt h
    · rw [h]
    · rw [h]
      decide
  rw [a.toInt_toWord, Scalar.wrap_wrap_of_le hsize, Scalar.wrap_of_holds a.holds_value]

/-- Unless it is a word without a sign, an argument is passed as its value. -/
theorem toInt_toWord_of_ne (a : Argument) (h : a.scalar ≠ .u64) : a.toWord.toInt = a.value := by
  have hv := a.holds_value
  rw [a.toInt_toWord]
  rcases a.size_scalar with hsize | heq | heq
  · exact hv.wrap_i64 hsize
  · rw [heq] at hv
    exact Scalar.wrap_of_holds hv
  · exact absurd heq h

/-- Arguments of one type that are passed as one word are equal. -/
theorem eq_of_toWord_eq {a b : Argument} (htype : a.type = b.type) (hword : a.toWord = b.toWord) : a = b := by
  have hvalue : a.value = b.value := by
    rw [← a.wrap_toWord, ← b.wrap_toWord, ← a.scalar_type, ← b.scalar_type, htype, hword]
  apply Option.some.inj
  rw [← a.ofValue_value, ← b.ofValue_value, hvalue, htype]

/-- Lists of arguments of the same types that are passed as the same words are equal. -/
theorem eq_of_map_toWord_eq {arguments others : List Argument} (htype : arguments.map type = others.map type)
    (hword : arguments.map toWord = others.map toWord) : arguments = others := by
  have hboth : (arguments.map fun a => (a.type, a.toWord)) = others.map fun a => (a.type, a.toWord) := by
    rw [← List.zip_map', ← List.zip_map', htype, hword]
  refine (List.map_inj_right ?_).1 hboth
  intro a b h
  exact eq_of_toWord_eq (congrArg Prod.fst h) (congrArg Prod.snd h)

/-- A call with plain arguments has their words, one for each and in order. -/
theorem run_invoke (number : Int64) (arguments : List Argument) (replies : List Reply) :
    (invoke number arguments).run replies =
      ((replies.headD {}).outcome, [⟨number, arguments.map fun a => .word a.toWord⟩]) := rfl

/-- The word that an argument is passed as is the only integer in the range of signed words of 64 bits that is congruent to its
value; it is the value itself, except for addresses and words without a sign, and reducing it to the type of the argument gives the
value back. A call has one word for each argument, in their order, so arguments of the same types make different calls as soon as
one of them differs. -/
theorem toWord_laws :
    (∀ a : Argument,
      (∀ w : Int, w = a.toWord.toInt ↔ (-2 ^ 63 ≤ w ∧ w < 2 ^ 63) ∧ w ≡ a.value [ZMOD 2 ^ 64]) ∧
        (a.scalar ≠ .u64 → a.toWord.toInt = a.value) ∧
        a.scalar.wrap a.toWord.toInt = a.value) ∧
      (∀ (number : Int64) (arguments : List Argument) (replies : List Reply),
        (invoke number arguments).run replies =
          ((replies.headD {}).outcome, [⟨number, arguments.map fun a => .word a.toWord⟩])) ∧
      ∀ (number : Int64) (arguments others : List Argument), arguments.map type = others.map type → arguments ≠ others →
        ∀ replies replies', ((invoke number arguments).run replies).2 ≠ ((invoke number others).run replies').2 := by
  refine ⟨?_, run_invoke, ?_⟩
  · intro a
    refine ⟨?_, a.toInt_toWord_of_ne, a.wrap_toWord⟩
    intro w
    rw [a.toInt_toWord, Scalar.eq_wrap_iff, Scalar.holds_i64_iff]
    exact Iff.rfl
  · intro number arguments others htype hne replies replies' h
    rw [run_invoke, run_invoke] at h
    have hwords : (arguments.map toWord).map Operand.word = (others.map toWord).map Operand.word := by
      rw [List.map_map, List.map_map]
      exact congrArg Call.operands (List.cons.inj h).1
    exact hne (eq_of_map_toWord_eq htype ((List.map_inj_right fun _ _ => Operand.word.inj).1 hwords))

/-- Words with all bits set: with a sign they are minus one, without one they are the greatest number, and in an address they are read
back without a sign. A truth value is one or zero. Constants of an enumeration that differ in the sign make different calls, and so do
the two constants of an enumeration over the truth values. -/
theorem toWord_laws_all_bits :
    (integer (.int32 (-1))).toWord.toInt = -1 ∧
      (integer (.uint32 0xFFFFFFFF)).toWord.toInt = 0xFFFFFFFF ∧
      Scalar.u64.wrap (address 0xFFFFFFFFFFFFFFFF).toWord.toInt = 0xFFFFFFFFFFFFFFFF ∧
      (boolean true).toWord.toInt = 1 ∧
      ((invoke 230 [enumeration (.int8 (-1)), null]).run []).2 ≠ ((invoke 230 [enumeration (.int8 1), null]).run []).2 ∧
      ((invoke 230 [enumeration (.boolean true)]).run []).2 ≠ ((invoke 230 [enumeration (.boolean false)]).run []).2 := by
  obtain ⟨hword, -, hcalls⟩ := toWord_laws
  refine ⟨(hword (integer (.int32 (-1)))).2.1 (by decide), (hword (integer (.uint32 0xFFFFFFFF))).2.1 (by decide),
    (hword (address 0xFFFFFFFFFFFFFFFF)).2.2, (hword (boolean true)).2.1 (by decide), ?_, ?_⟩
  · exact hcalls 230 [enumeration (.int8 (-1)), null] [enumeration (.int8 1), null] rfl (by decide) [] []
  · exact hcalls 230 [enumeration (.boolean true)] [enumeration (.boolean false)] rfl (by decide) [] []

end Argument

end KernelControl
