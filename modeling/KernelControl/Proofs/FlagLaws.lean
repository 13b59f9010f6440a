import KernelControl.ClockAdjustment

/-!
# Masks of several flags

A flag set has a mask when it has every bit of it, so what is asked of a mask is asked of its bits one by one. Masks may share bits,
and then setting the one and clearing the other interferes: what was set last is there as a whole, and of the other mask only what
is left of it (`isSet_clear_set`, `isSet_set_clear`). A set has its own word as a mask, so the answers for all masks tell whether it
is empty and which set it is (`any_eq_false_iff`, `eq_iff_isSet`). All of it holds of signed and unsigned words alike.
-/

namespace KernelControl

variable {ρ : Type} [FlagWord ρ]

/-! ## Words -/

namespace FlagWord

variable {a b : ρ}

/-- Words are equal when their bits are. -/
theorem eq_iff_bits : a = b ↔ bits a = bits b := by
  constructor
  · rintro rfl
    rfl
  · intro h
    rw [← ofBits_bits a, h, ofBits_bits]

/-- A word is zero when no bit of it is one. -/
theorem eq_zero_iff : a = ofBits 0 ↔ ∀ i, (bits a).getLsbD i = false := by
  rw [eq_iff_bits, bits_ofBits]
  constructor
  · intro h i
    rw [h]
    exact BitVec.getLsbD_zero
  · intro h
    apply BitVec.eq_of_getLsbD_eq
    intro i _
    rw [h i]
    exact BitVec.getLsbD_zero.symm

/-- Words share no bit when their conjunction is zero. -/
theorem and_eq_zero_iff : a &&& b = ofBits 0 ↔ ∀ i, (bits a).getLsbD i = true → ¬(bits b).getLsbD i = true := by
  simp only [eq_zero_iff, bits_and, BitVec.getLsbD_and, Bool.and_eq_false_imp, Bool.not_eq_true]

end FlagWord

namespace FlagSet

/-! ## Masks that are set -/

/-- A bit is left by clearing a mask if it was there and is not of the mask. -/
theorem getLsbD_clear (v : FlagSet ρ) (mask : ρ) (i : Nat) :
    (v.clear mask).bits.getLsbD i = true ↔ v.bits.getLsbD i = true ∧ ¬(FlagWord.bits mask).getLsbD i = true := by
  rw [bits_clear, BitVec.getLsbD_and, BitVec.getLsbD_not, Bool.and_eq_true, Bool.and_eq_true, Bool.not_eq_true',
    Bool.not_eq_true, decide_eq_true_iff]
  exact ⟨fun h => ⟨h.1, h.2.2⟩, fun h => ⟨h.1, BitVec.lt_of_getLsbD h.1, h.2⟩⟩

/-- A bit is there after setting a mask if it was before or is of the mask. -/
theorem getLsbD_set (v : FlagSet ρ) (mask : ρ) (i : Nat) :
    (v.set mask).bits.getLsbD i = true ↔ v.bits.getLsbD i = true ∨ (FlagWord.bits mask).getLsbD i = true := by
  rw [bits_set, BitVec.getLsbD_or, Bool.or_eq_true]

section Masks

variable [DecidableEq ρ]

/-- The bits of two masks together are set when those of each are. -/
theorem isSet_or (v : FlagSet ρ) (a b : ρ) : v.isSet (a ||| b) = true ↔ v.isSet a = true ∧ v.isSet b = true := by
  simp only [isSet_iff, FlagWord.bits_or, BitVec.getLsbD_or, Bool.or_eq_true]
  exact ⟨fun h => ⟨fun i hi => h i (Or.inl hi), fun i hi => h i (Or.inr hi)⟩, fun h i hi => hi.elim (h.1 i) (h.2 i)⟩

/-- A set has the bits of its own word. -/
theorem isSet_raw (v : FlagSet ρ) : v.isSet v.raw = true := isSet_iff.2 fun _ hi => hi

/-- A mask that was set outlives the clearing of another one only if they share no bit. -/
theorem isSet_clear_set (v : FlagSet ρ) (a b : ρ) :
    ((v.set a).clear b).isSet a = true ↔ a &&& b = FlagWord.ofBits 0 := by
  simp only [isSet_iff, getLsbD_clear, getLsbD_set, FlagWord.and_eq_zero_iff]
  exact ⟨fun h i hi => (h i hi).2, fun h i hi => ⟨Or.inr hi, h i hi⟩⟩

/-- After a mask was cleared it is there again only if all of its bits were set afterwards. -/
theorem isSet_set_clear (v : FlagSet ρ) (a b : ρ) :
    ((v.clear b).set a).isSet b = true ↔
      ∀ i, (FlagWord.bits b).getLsbD i = true → (FlagWord.bits a).getLsbD i = true := by
  simp only [isSet_iff, getLsbD_clear, getLsbD_set]
  exact ⟨fun h i hi => (h i hi).resolve_left fun hv => hv.2 hi, fun h i hi => Or.inr (h i hi)⟩

/-- What was set last is there. -/
theorem isSet_set (v : FlagSet ρ) (a : ρ) : (v.set a).isSet a = true := by
  simp only [isSet_iff, getLsbD_set]
  exact fun i hi => Or.inr hi

/-! ## Sets by their answers -/

/-- A set is empty when it has no mask but the empty one. -/
theorem any_eq_false_iff (v : FlagSet ρ) :
    v.any = false ↔ ∀ mask, mask ≠ FlagWord.ofBits 0 → v.isSet mask = false := by
  have hany : v.any = false ↔ v.raw = FlagWord.ofBits 0 := bne_eq_false_iff_eq
  rw [hany]
  constructor
  · intro hv mask hmask
    rw [← Bool.not_eq_true, isSet_iff]
    intro h
    apply hmask
    rw [FlagWord.eq_zero_iff] at hv ⊢
    intro i
    cases hi : (FlagWord.bits mask).getLsbD i with
    | false => rfl
    | true => exact (h i hi).symm.trans (hv i)
  · intro h
    apply Classical.byContradiction
    intro hv
    exact Bool.false_ne_true ((h v.raw hv).symm.trans (isSet_raw v))

/-- Sets are equal when every mask has the same answer in both. -/
theorem eq_iff_isSet {v w : FlagSet ρ} : v = w ↔ ∀ mask, v.isSet mask = w.isSet mask := by
  constructor
  · rintro rfl mask
    rfl
  · intro h
    have hv := isSet_iff.1 ((h v.raw).symm.trans (isSet_raw v))
    have hw := isSet_iff.1 ((h w.raw).trans (isSet_raw w))
    apply ext_bits
    apply BitVec.eq_of_getLsbD_eq
    intro i _
    rw [Bool.eq_iff_iff]
    exact ⟨hv i, hw i⟩

/-- Two masks together are set exactly when each is. A mask that was set and then another cleared is still set exactly when they
share no bit. If it was set after the other was cleared, it is set, and the other is exactly when all of its bits are in the mask.
There is no flag exactly when no mask but zero is set, and two sets are equal exactly when every mask has the same answer in both. -/
theorem isSet_laws (v : FlagSet ρ) :
    (∀ a b : ρ, v.isSet (a ||| b) = true ↔ v.isSet a = true ∧ v.isSet b = true) ∧
      (∀ a b : ρ, ((v.set a).clear b).isSet a = true ↔ a &&& b = FlagWord.ofBits 0) ∧
      (∀ a b : ρ, ((v.clear b).set a).isSet a = true ∧
        (((v.clear b).set a).isSet b = true ↔
          ∀ i, (FlagWord.bits b).getLsbD i = true → (FlagWord.bits a).getLsbD i = true)) ∧
      (v.any = false ↔ ∀ mask : ρ, mask ≠ FlagWord.ofBits 0 → v.isSet mask = false) ∧
      ∀ w : FlagSet ρ, (v == w) = true ↔ ∀ mask : ρ, v.isSet mask = w.isSet mask := by
  refine ⟨isSet_or v, isSet_clear_set v, fun a b => ⟨isSet_set (v.clear b) a, isSet_set_clear v a b⟩, any_eq_false_iff v, ?_⟩
  intro w
  rw [beq_iff_eq, eq_iff_isSet]

/-- The masks of an offset and of a gradual offset share a bit, so clearing the one breaks the other; the sign bit is a flag. -/
theorem isSet_laws_shared_bit :
    ¬(((empty : AdjustMode).set AdjustMode.offsetSingleshot).clear AdjustMode.offset).isSet AdjustMode.offsetSingleshot = true ∧
      ¬(⟨-0x80000000⟩ : ClockStatus).any = false := by
  obtain ⟨-, hshared, -⟩ := isSet_laws (empty : AdjustMode)
  obtain ⟨-, -, -, hany, -⟩ := isSet_laws (⟨-0x80000000⟩ : ClockStatus)
  constructor
  · rw [hshared]
    decide
  · intro h
    exact absurd (hany.1 h (-0x80000000) (by decide)) (by decide)

end Masks

end FlagSet

end KernelControl
