import KernelControl.Proofs.CpuSetCount

/-!
# Masks of the first sixty-four processors

A mask made of one word has a processor exactly when the word has the bit of that number, and it has none from 64 on
(`contains_ofBitmask`). So up to there an update of the mask is the same update of the word (`insert_ofBitmask`, `erase_ofBitmask`).
From there on removing a processor does nothing, and a mask to which one was added is made of no word.
-/

namespace KernelControl

namespace CpuSet

/-- A word has no bits from 64 on. -/
theorem lt_of_testBit {b : UInt64} {k : Nat} (h : b.toNat.testBit k = true) : k < 64 := by
  apply Nat.lt_of_not_le
  intro hk
  rw [Nat.testBit_lt_two_pow (Nat.lt_of_lt_of_le b.toNat_lt (Nat.pow_le_pow_right (by decide) hk))] at h
  nomatch h

/-- The processors of the mask are the bits of the word. -/
theorem contains_ofBitmask (b : UInt64) (c : Cpu) : (ofBitmask b).contains c = b.toNat.testBit c.val := by
  rw [contains_eq_getLsbD, ofBitmask, Fin.getElem_fin, Vector.getElem_set]
  split
  · rename_i h
    have hmod : c.val % 64 = c.val := Nat.mod_eq_of_lt (by simp only [wordIndex] at h; omega)
    rw [hmod, ← BitVec.testBit_toNat]
    rfl
  · rename_i h
    have hfalse : ¬b.toNat.testBit c.val = true := by
      intro hb
      have := lt_of_testBit hb
      simp only [wordIndex] at h
      omega
    simp [empty, hfalse]

/-- Removing a processor that is not in a mask does nothing. -/
theorem erase_of_not_contains {m : CpuSet} {a : Cpu} (h : m.contains a = false) : m.erase a = m := by
  apply ext_contains
  intro c
  rw [contains_erase]
  by_cases hc : c = a
  · rw [hc, h, Bool.and_false]
  · rw [decide_eq_false hc, Bool.not_false, Bool.true_and]

section FirstWord

variable (b : UInt64) {c : Cpu} (hc : c.val < 64)
include hc

theorem wordIndex_of_lt : wordIndex c = 0 := Fin.ext (Nat.div_eq_of_lt hc)

theorem bitOf_of_lt : bitOf c = 1 <<< UInt64.ofNat c.val := by rw [bitOf, Nat.mod_eq_of_lt hc]

/-- Adding a processor of the first word sets its bit in the word. -/
theorem insert_ofBitmask : (ofBitmask b).insert c = ofBitmask (b ||| 1 <<< UInt64.ofNat c.val) := by
  simp only [insert, wordIndex_of_lt hc, bitOf_of_lt hc, ofBitmask]
  simp

/-- Removing a processor of the first word clears its bit in the word. -/
theorem erase_ofBitmask : (ofBitmask b).erase c = ofBitmask (b &&& ~~~(1 <<< UInt64.ofNat c.val)) := by
  simp only [erase, wordIndex_of_lt hc, bitOf_of_lt hc, ofBitmask]
  simp

end FirstWord

/-- The first word of a mask made of a word is that word. -/
theorem ofBitmask_injective : Function.Injective ofBitmask := by
  intro a b h
  have hword := congrArg (fun m => m.words.get 0) h
  exact hword

/-- From 64 on no processor is in a mask made of a word. -/
theorem not_contains_ofBitmask (b : UInt64) {c : Cpu} (hc : 64 ≤ c.val) : (ofBitmask b).contains c = false := by
  rw [contains_ofBitmask, Bool.eq_false_iff]
  exact fun h => absurd (lt_of_testBit h) (Nat.not_lt.2 hc)

/-- In the mask of a word an index below 1024 is set exactly when it is below 64 and the word has its bit. Below 64, setting or
clearing an index gives the mask of the word in which that bit is set or cleared. From 64 on, clearing leaves the mask as it is,
and setting gives one that is the mask of no word. Different words have different masks, and the mask has as many processors as
the word has one bits. -/
theorem ofBitmask_laws (b : UInt64) :
    (∀ c < 1024, ∃ held, (ofBitmask b).isSet c = .ok held ∧ (held = true ↔ c < 64 ∧ b.toNat.testBit c = true)) ∧
      (∀ c < 64, (ofBitmask b).set c = .ok (ofBitmask (b ||| 1 <<< UInt64.ofNat c)) ∧
        (ofBitmask b).clear c = .ok (ofBitmask (b &&& ~~~(1 <<< UInt64.ofNat c)))) ∧
      (∀ c, 64 ≤ c → c < 1024 → (ofBitmask b).clear c = .ok (ofBitmask b) ∧
        ∃ next, (ofBitmask b).set c = .ok next ∧ ∀ other, ofBitmask other ≠ next) ∧
      (∀ other, ofBitmask other = ofBitmask b → other = b) ∧
      ((ofBitmask b).count : ℕ∞) = {k | b.toNat.testBit k = true}.encard := by
  refine ⟨?_, ?_, ?_, fun other => @ofBitmask_injective other b, ?_⟩
  · intro c hc
    refine ⟨_, isSet_of_lt _ hc, ?_⟩
    rw [contains_ofBitmask]
    exact ⟨fun h => ⟨lt_of_testBit h, h⟩, And.right⟩
  · intro c hc
    have hlt : c < 1024 := Nat.lt_trans hc (by decide)
    rw [set_of_lt _ hlt, clear_of_lt _ hlt, insert_ofBitmask b hc, erase_ofBitmask b hc]
    exact ⟨rfl, rfl⟩
  · intro c hle hlt
    refine ⟨?_, _, set_of_lt _ hlt, ?_⟩
    · rw [clear_of_lt _ hlt, erase_of_not_contains (not_contains_ofBitmask b hle)]
    · intro other h
      have hc := not_contains_ofBitmask other (c := ⟨c, hlt⟩) hle
      rw [h, contains_insert] at hc
      simp at hc
  · apply count_eq_encard
    intro k
    rw [Set.mem_ofPred_eq, isSet_eq_ok_iff]
    simp only [contains_ofBitmask]
    exact ⟨fun h => ⟨Nat.lt_trans (lt_of_testBit h) (by decide), h⟩, fun ⟨_, h⟩ => h⟩

/-- The last bit of a word is set, and cleared again; the processor after it is in no mask of a word. -/
theorem ofBitmask_laws_last_bit :
    (ofBitmask 1).set 63 = .ok (ofBitmask 0x8000000000000001) ∧
      (ofBitmask 0x8000000000000001).clear 63 = .ok (ofBitmask 1) ∧
      (ofBitmask 1).clear 64 = .ok (ofBitmask 1) ∧
      ∃ next, (ofBitmask 1).set 64 = .ok next ∧ ∀ other, ofBitmask other ≠ next := by
  obtain ⟨-, hlow, hhigh, -⟩ := ofBitmask_laws 1
  obtain ⟨-, hlow', -⟩ := ofBitmask_laws 0x8000000000000001
  obtain ⟨hclear, hset⟩ := hhigh 64 (Nat.le_refl 64) (by decide)
  exact ⟨(hlow 63 (by decide)).1, (hlow' 63 (by decide)).2, hclear, hset⟩

end CpuSet

end KernelControl
