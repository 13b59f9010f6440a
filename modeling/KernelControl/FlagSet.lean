/-!
# Flag sets

A flag set is a 32-bit word whose bits are independent switches. The kernel declares some of these words as signed and
some as unsigned; `FlagWord` says what the two have in common, namely that they are 32 bits and that the word operations
act on each bit by itself. The view of a flag set is its bits, and each operation has a lemma in terms of it.
-/

namespace KernelControl

/-- A 32-bit machine word, signed or unsigned, seen as a string of bits. -/
class FlagWord (ρ : Type) extends AndOp ρ, OrOp ρ, Complement ρ where
  /-- The bits of a word. -/
  bits : ρ → BitVec 32
  /-- The word with the given bits. -/
  ofBits : BitVec 32 → ρ
  bits_ofBits : ∀ b, bits (ofBits b) = b
  ofBits_bits : ∀ a, ofBits (bits a) = a
  bits_and : ∀ a b, bits (a &&& b) = bits a &&& bits b
  bits_or : ∀ a b, bits (a ||| b) = bits a ||| bits b
  bits_not : ∀ a, bits (~~~a) = ~~~bits a

instance : FlagWord UInt32 where
  bits a := a.toBitVec
  ofBits b := ⟨b⟩
  bits_ofBits _ := rfl
  ofBits_bits _ := rfl
  bits_and := UInt32.toBitVec_and
  bits_or := UInt32.toBitVec_or
  bits_not := fun _ => UInt32.toBitVec_not

instance : FlagWord Int32 where
  bits a := a.toBitVec
  ofBits b := ⟨⟨b⟩⟩
  bits_ofBits _ := rfl
  ofBits_bits _ := rfl
  bits_and := Int32.toBitVec_and
  bits_or := Int32.toBitVec_or
  bits_not := fun _ => Int32.toBitVec_not

/-- A set of flags held in a word. -/
structure FlagSet (ρ : Type) where
  raw : ρ
deriving DecidableEq, Repr

namespace FlagSet

variable {ρ : Type} [FlagWord ρ]

/-- No flag is set. -/
def empty : FlagSet ρ := ⟨FlagWord.ofBits 0⟩

/-- Every bit of `flags` is set. -/
def isSet [DecidableEq ρ] (v : FlagSet ρ) (flags : ρ) : Bool := v.raw &&& flags == flags

/-- Some flag is set. -/
def any [DecidableEq ρ] (v : FlagSet ρ) : Bool := v.raw != FlagWord.ofBits 0

/-- The set with the given bits added. -/
def set (v : FlagSet ρ) (flags : ρ) : FlagSet ρ := ⟨v.raw ||| flags⟩

/-- The set with the given bits removed. -/
def clear (v : FlagSet ρ) (flags : ρ) : FlagSet ρ := ⟨v.raw &&& ~~~flags⟩

/-- The flags of this set together with the given bits, written `v ||| flags`. -/
def union (v : FlagSet ρ) (flags : ρ) : FlagSet ρ := ⟨v.raw ||| flags⟩

instance : HOr (FlagSet ρ) ρ (FlagSet ρ) := ⟨union⟩

/-! ## Chains of updates -/

/-- One update of a flag set. -/
inductive Update (ρ : Type) where
  | set (flags : ρ)
  | clear (flags : ρ)
  /-- The set is replaced by its union with the flags. -/
  | assignUnion (flags : ρ)
  /-- The set is replaced by exactly the flags. -/
  | assign (flags : ρ)
  /-- The set is replaced by the one without flags. -/
  | reset

/-- The set after an update. -/
def Update.apply (v : FlagSet ρ) : Update ρ → FlagSet ρ
  | .set flags => v.set flags
  | .clear flags => v.clear flags
  | .assignUnion flags => v.union flags
  | .assign flags => ⟨flags⟩
  | .reset => empty

/-- The set after a chain of updates. -/
def chain (v : FlagSet ρ) (updates : List (Update ρ)) : FlagSet ρ := updates.foldl Update.apply v

/-! ## The view -/

/-- The bits of the word. -/
def bits (v : FlagSet ρ) : BitVec 32 := FlagWord.bits v.raw

/-- Sets with the same bits are equal. -/
theorem ext_bits {v w : FlagSet ρ} (h : v.bits = w.bits) : v = w := by
  obtain ⟨a⟩ := v
  obtain ⟨b⟩ := w
  have hab : FlagWord.bits a = FlagWord.bits b := h
  rw [← FlagWord.ofBits_bits a, ← FlagWord.ofBits_bits b, hab]

/-- Equality of sets is equality of their bits. -/
theorem eq_iff_bits {v w : FlagSet ρ} : v = w ↔ v.bits = w.bits := ⟨congrArg bits, ext_bits⟩

/-- The set without flags has no bit. -/
@[simp] theorem bits_empty : (empty : FlagSet ρ).bits = 0 := FlagWord.bits_ofBits 0

/-- Setting flags adds their bits. -/
@[simp] theorem bits_set (v : FlagSet ρ) (flags : ρ) : (v.set flags).bits = v.bits ||| FlagWord.bits flags :=
  FlagWord.bits_or _ _

/-- A union has the bits of both. -/
@[simp] theorem bits_union (v : FlagSet ρ) (flags : ρ) : (v.union flags).bits = v.bits ||| FlagWord.bits flags :=
  FlagWord.bits_or _ _

/-- Clearing flags removes their bits. -/
@[simp] theorem bits_clear (v : FlagSet ρ) (flags : ρ) : (v.clear flags).bits = v.bits &&& ~~~FlagWord.bits flags := by
  simp only [bits, clear, FlagWord.bits_and, FlagWord.bits_not]

/-- A mask is set when every one of its bits is. -/
theorem isSet_iff [DecidableEq ρ] {v : FlagSet ρ} {flags : ρ} :
    v.isSet flags = true ↔ ∀ i, (FlagWord.bits flags).getLsbD i = true → v.bits.getLsbD i = true := by
  rw [isSet, beq_iff_eq]
  constructor
  · intro h i hi
    rw [← h, FlagWord.bits_and, BitVec.getLsbD_and, Bool.and_eq_true] at hi
    exact hi.1
  · intro h
    have hb : FlagWord.bits (v.raw &&& flags) = FlagWord.bits flags := by
      rw [FlagWord.bits_and]
      apply BitVec.eq_of_getLsbD_eq
      intro i _
      rw [BitVec.getLsbD_and]
      cases hf : (FlagWord.bits flags).getLsbD i with
      | false => simp
      | true =>
        have hv := h i hf
        rw [bits] at hv
        simp [hv]
    rw [← FlagWord.ofBits_bits (v.raw &&& flags), hb, FlagWord.ofBits_bits]

/-- Some flag is set when some bit is. -/
theorem any_iff [DecidableEq ρ] {v : FlagSet ρ} : v.any = true ↔ v.bits ≠ 0 := by
  have h : v.raw = FlagWord.ofBits 0 ↔ v.bits = 0 := by
    constructor
    · intro h
      rw [bits, h, FlagWord.bits_ofBits]
    · intro h
      rw [← h, bits, FlagWord.ofBits_bits]
  rw [any, bne_iff_ne, Ne, Ne, h]

end FlagSet

end KernelControl
