import KernelControl.FlagSet.Chain

/-!
# What a chain of steps leaves of a flag set

A flag set is updated and asked in any order. One update writes some positions of the word and leaves the others
(`Update.getLsbD_apply`), and a question writes none, so in the word that is left each bit is as the last step that wrote it made it,
and as it was at the start if none did (`lastWrites_run_or`, by induction on the chain). Every step is a matter of bits alone, so it
makes no difference whether the word is signed (`Step.run_map`, `run_map`). Both together are `lastWrites_run`.
-/

namespace KernelControl

namespace FlagSet

variable {ρ σ : Type} [FlagWord ρ] [FlagWord σ]

/-! ## The last step that writes -/

/-- What the update writes at a position, if it writes there. -/
def Update.written (i : Nat) : Update ρ → Option Bool
  | .set flags => if (FlagWord.bits flags).getLsbD i then some true else none
  | .clear flags => if (FlagWord.bits flags).getLsbD i then some false else none
  | .assignUnion flags => if (FlagWord.bits flags).getLsbD i then some true else none
  | .assign flags => some ((FlagWord.bits flags).getLsbD i)
  | .reset => some false

/-- The update of a step that is one. -/
def Step.update? : Step ρ → Option (Update ρ)
  | .update u => some u
  | .union _ | .isSet _ | .any | .equal _ => none

/-- What the step writes at a position, if it writes there. -/
def Step.written (i : Nat) (s : Step ρ) : Option Bool := s.update?.bind (Update.written i)

/-- Some step writes this bit at the position, and none after it writes there. -/
def LastWrites (i : Nat) (b : Bool) (steps : List (Step ρ)) : Prop :=
  ∃ before s after, steps = before ++ s :: after ∧ s.written i = some b ∧ ∀ t ∈ after, t.written i = none

/-- After an update a bit is what the update writes there, or what it was. -/
theorem Update.getLsbD_apply (v : FlagSet ρ) (u : Update ρ) (i : Nat) :
    (u.apply v).bits.getLsbD i = (u.written i).getD (v.bits.getLsbD i) := by
  cases u with
  | set flags =>
    rw [apply, bits_set, BitVec.getLsbD_or, written]
    cases (FlagWord.bits flags).getLsbD i <;> simp
  | clear flags =>
    rw [apply, bits_clear, BitVec.getLsbD_and, BitVec.getLsbD_not, written]
    by_cases hi : i < 32
    · cases (FlagWord.bits flags).getLsbD i <;> simp [hi]
    · simp [hi, BitVec.getLsbD_of_ge _ i (Nat.le_of_not_lt hi)]
  | assignUnion flags =>
    rw [apply, bits_union, BitVec.getLsbD_or, written]
    cases (FlagWord.bits flags).getLsbD i <;> simp
  | assign flags => rfl
  | reset =>
    rw [apply, bits_empty]
    simp [written]

section

variable [DecidableEq ρ]

/-- The set after a step is the one that its update made, or the set before. -/
theorem Step.fst_run (v : FlagSet ρ) (s : Step ρ) : (s.run v).1 = s.update?.elim v (Update.apply v) := by
  cases s <;> rfl

/-- After a step a bit is what the step writes there, or what it was. -/
theorem Step.getLsbD_run (v : FlagSet ρ) (s : Step ρ) (i : Nat) :
    (s.run v).1.bits.getLsbD i = (s.written i).getD (v.bits.getLsbD i) := by
  rw [fst_run, written]
  cases s.update? with
  | none => rfl
  | some u => exact u.getLsbD_apply v i

/-- A chain of steps leaves the set that its updates make; the other steps leave it as it is. -/
theorem fst_run (v : FlagSet ρ) (steps : List (Step ρ)) : (run v steps).1 = v.chain (steps.filterMap Step.update?) := by
  induction steps generalizing v with
  | nil => rfl
  | cons s steps ih =>
    rw [run, ih, Step.fst_run, List.filterMap_cons]
    cases s.update? <;> rfl

/-- A bit is as the last step that writes it made it, and as it was if none does. -/
theorem lastWrites_run_or (v : FlagSet ρ) (steps : List (Step ρ)) (i : Nat) :
    LastWrites i ((run v steps).1.bits.getLsbD i) steps ∨
      (∀ s ∈ steps, s.written i = none) ∧ (run v steps).1.bits.getLsbD i = v.bits.getLsbD i := by
  induction steps generalizing v with
  | nil => exact Or.inr ⟨fun _ hs => (nomatch hs), rfl⟩
  | cons s steps ih =>
    obtain ⟨before, t, after, rfl, ht, hafter⟩ | ⟨hnone, hbit⟩ := ih (s.run v).1
    · exact Or.inl ⟨s :: before, t, after, rfl, ht, hafter⟩
    · -- nothing writes the bit after `s`, so `s` decides about it if it writes it
      rw [s.getLsbD_run v i] at hbit
      cases hs : s.written i with
      | none =>
        rw [hs] at hbit
        exact Or.inr ⟨List.forall_mem_cons.2 ⟨hs, hnone⟩, hbit⟩
      | some b =>
        rw [hs] at hbit
        exact Or.inl ⟨[], s, steps, rfl, hs.trans (congrArg some hbit.symm), hnone⟩

end

/-! ## Words of another kind -/

/-- The update with its flags in words of another kind. -/
def Update.map (g : ρ → σ) : Update ρ → Update σ
  | .set flags => .set (g flags)
  | .clear flags => .clear (g flags)
  | .assignUnion flags => .assignUnion (g flags)
  | .assign flags => .assign (g flags)
  | .reset => .reset

/-- The step with its flags in words of another kind. -/
def Step.map (g : ρ → σ) : Step ρ → Step σ
  | .update u => .update (u.map g)
  | .union flags => .union (g flags)
  | .isSet flags => .isSet (g flags)
  | .any => .any
  | .equal flags => .equal (g flags)

section

variable {g : ρ → σ} (hg : ∀ f, FlagWord.bits (g f) = FlagWord.bits f) {v : FlagSet ρ} {w : FlagSet σ} (h : w.bits = v.bits)
include hg h

theorem Update.bits_apply_map (u : Update ρ) : ((u.map g).apply w).bits = (u.apply v).bits := by
  cases u with
  | set flags => rw [map, apply, apply, bits_set, bits_set, h, hg]
  | clear flags => rw [map, apply, apply, bits_clear, bits_clear, h, hg]
  | assignUnion flags => rw [map, apply, apply, bits_union, bits_union, h, hg]
  | assign flags => exact hg flags
  | reset => rw [map, apply, apply, bits_empty, bits_empty]

variable [DecidableEq ρ] [DecidableEq σ]

/-- A step in words of another kind makes the same bits and returns the same. -/
theorem Step.run_map (s : Step ρ) : ((s.map g).run w).1.bits = (s.run v).1.bits ∧ ((s.map g).run w).2 = (s.run v).2 := by
  cases s with
  | update u =>
    have hu := u.bits_apply_map hg h
    exact ⟨hu, congrArg Answer.flags hu⟩
  | union flags =>
    have hu := (Update.assignUnion flags).bits_apply_map hg h
    exact ⟨h, congrArg Answer.flags hu⟩
  | isSet flags =>
    have hs : w.isSet (g flags) = v.isSet flags := by rw [Bool.eq_iff_iff, isSet_iff, isSet_iff, hg, h]
    exact ⟨h, congrArg Answer.truth hs⟩
  | any =>
    have ha : w.any = v.any := by rw [Bool.eq_iff_iff, any_iff, any_iff, h]
    exact ⟨h, congrArg Answer.truth ha⟩
  | equal flags =>
    have hf : (⟨g flags⟩ : FlagSet σ).bits = (⟨flags⟩ : FlagSet ρ).bits := hg flags
    have he : w = ⟨g flags⟩ ↔ v = ⟨flags⟩ := by rw [eq_iff_bits, eq_iff_bits, h, hf]
    exact ⟨h, congrArg Answer.truth (decide_eq_decide.2 he)⟩

/-- A chain in words of another kind leaves the same bits, and its steps return the same. -/
theorem run_map (steps : List (Step ρ)) :
    (run w (steps.map (Step.map g))).1.bits = (run v steps).1.bits ∧
      (run w (steps.map (Step.map g))).2 = (run v steps).2 := by
  induction steps generalizing v w with
  | nil => exact ⟨h, rfl⟩
  | cons s steps ih =>
    obtain ⟨hbits, hanswer⟩ := s.run_map hg h
    obtain ⟨hlast, hanswers⟩ := ih hbits
    exact ⟨hlast, congr (congrArg List.cons hanswer) hanswers⟩

end

/-- Whatever is done with a flag set of either kind, the set that is left is the one that the updates make, whose bits are as the last
step that writes each made it, and as they were at the start where none does. Signed words with the bits of unsigned ones are left
with the bits of these, and every step returns the same. -/
theorem lastWrites_run :
    (∀ (ρ : Type) [FlagWord ρ] [DecidableEq ρ] (v : FlagSet ρ) (steps : List (Step ρ)),
        (run v steps).1 = v.chain (steps.filterMap Step.update?) ∧
          ∀ i, LastWrites i ((run v steps).1.bits.getLsbD i) steps ∨
            (∀ s ∈ steps, s.written i = none) ∧ (run v steps).1.bits.getLsbD i = v.bits.getLsbD i) ∧
      ∀ (v : FlagSet UInt32) (steps : List (Step UInt32)),
        (run ⟨v.raw.toInt32⟩ (steps.map (Step.map UInt32.toInt32))).1 = ⟨(run v steps).1.raw.toInt32⟩ ∧
          (run ⟨v.raw.toInt32⟩ (steps.map (Step.map UInt32.toInt32))).2 = (run v steps).2 := by
  constructor
  · intro ρ _ _ v steps
    exact ⟨fst_run v steps, lastWrites_run_or v steps⟩
  · intro v steps
    have hbits : ∀ f : UInt32, FlagWord.bits f.toInt32 = FlagWord.bits f := fun _ => rfl
    obtain ⟨hlast, hanswers⟩ := run_map hbits (hbits v.raw) steps
    exact ⟨ext_bits hlast, hanswers⟩

/-- The sign bit is a flag like the others. -/
example :
    (run (empty : FlagSet Int32) [.update (.set (-0x7fffffff)), .isSet (-0x80000000), .update (.clear 1), .isSet 0x8001, .any]) =
      (⟨-0x80000000⟩, [.flags 0x80000001, .truth true, .flags 0x80000000, .truth false, .truth true]) := by rfl

end FlagSet

end KernelControl
