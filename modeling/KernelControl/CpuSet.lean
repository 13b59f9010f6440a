/-!
# Sets of processors

An affinity mask holds the processors 0 to 1023, one bit each, in sixteen 64-bit words: processor `c` is bit `c % 64` of
word `c / 64`. The view of a mask is `contains`; two masks with the same view are equal (`ext_contains`), and `insert`
and `erase` change the view at one processor only. `set`, `clear` and `isSet` take any index and refuse one that names
no processor.
-/

namespace KernelControl

/-- A processor number that a mask has a bit for. -/
abbrev Cpu : Type := Fin 1024

/-- Why an operation on a mask has no result. -/
inductive CpuError where
  /-- The index is not below 1024. -/
  | outOfRange
deriving DecidableEq, Repr

namespace CpuError

/-- The wording of the error. -/
def message : CpuError → String
  | .outOfRange => "sysxx::cpu_set: cpu index out of range"

end CpuError

/-- A set of processors. -/
structure CpuSet where
  words : Vector UInt64 16
deriving DecidableEq, Repr

namespace CpuSet

/-- The mask with no processor. -/
def empty : CpuSet := ⟨Vector.replicate 16 0⟩

/-- The mask with every processor. -/
def full : CpuSet := ⟨Vector.replicate 16 (-1)⟩

/-- The mask whose first word is given: processor `c` is in it when bit `c` of the word is one. -/
def ofBitmask (bitmask : UInt64) : CpuSet := ⟨empty.words.set 0 bitmask⟩

/-! ## Processors -/

/-- The word a processor's bit is in. -/
def wordIndex (c : Cpu) : Fin 16 := ⟨c.val / 64, by omega⟩

/-- The word in which only the processor's bit is one. -/
def bitOf (c : Cpu) : UInt64 := 1 <<< UInt64.ofNat (c.val % 64)

/-- The processor is in the mask. -/
def contains (m : CpuSet) (c : Cpu) : Bool := m.words[wordIndex c] &&& bitOf c != 0

/-- The mask with the processor added. -/
def insert (m : CpuSet) (c : Cpu) : CpuSet :=
  ⟨m.words.set (wordIndex c) (m.words[wordIndex c] ||| bitOf c)⟩

/-- The mask with the processor removed. -/
def erase (m : CpuSet) (c : Cpu) : CpuSet :=
  ⟨m.words.set (wordIndex c) (m.words[wordIndex c] &&& ~~~bitOf c)⟩

/-- The number of one bits of a word. -/
def oneBits (w : UInt64) : Nat := (List.range 64).countP w.toBitVec.getLsbD

/-- How many processors the mask has, word by word. -/
def count (m : CpuSet) : Nat := m.words.toList.foldl (fun total w => total + oneBits w) 0

/-- The processors of the mask, in ascending order. -/
def toList (m : CpuSet) : List Cpu := (List.finRange 1024).filter m.contains

/-! ## Indices -/

/-- The processor an index names. -/
def cpuAt (index : Nat) : Except CpuError Cpu :=
  if h : index < 1024 then .ok ⟨index, h⟩ else .error .outOfRange

/-- Adds the processor at an index. -/
def set (m : CpuSet) (index : Nat) : Except CpuError CpuSet := do
  return m.insert (← cpuAt index)

/-- Removes the processor at an index. -/
def clear (m : CpuSet) (index : Nat) : Except CpuError CpuSet := do
  return m.erase (← cpuAt index)

/-- Whether the processor at an index is in the mask. -/
def isSet (m : CpuSet) (index : Nat) : Except CpuError Bool := do
  return m.contains (← cpuAt index)

/-! ## The view -/

/-- Only one bit of the word of a processor is one. -/
theorem getLsbD_bitOf (c : Cpu) (k : Nat) : (bitOf c).toBitVec.getLsbD k = decide (k = c.val % 64) := by
  have hm : c.val % 64 < 64 := Nat.mod_lt _ (by decide)
  have hs : (UInt64.ofNat (c.val % 64)).toBitVec.toNat = c.val % 64 := by
    simp
    omega
  have hb : (bitOf c).toBitVec = 1#64 <<< (c.val % 64) := by
    rw [bitOf, UInt64.toBitVec_shiftLeft]
    show 1#64 <<< ((UInt64.ofNat (c.val % 64)).toBitVec % 64#64).toNat = _
    rw [BitVec.toNat_umod, hs]
    simp
  rw [hb, BitVec.getLsbD_shiftLeft]
  by_cases h₁ : k = c.val % 64
  · simp [h₁, hm]
  · by_cases h₂ : k < c.val % 64
    · simp [h₁, h₂]
    · have : k - c.val % 64 ≠ 0 := by omega
      simp [h₁, this]

/-- A word meets a processor's bit when the word has that bit. -/
theorem and_bitOf_ne_zero (w : UInt64) (c : Cpu) : (w &&& bitOf c != 0) = w.toBitVec.getLsbD (c.val % 64) := by
  have hm : c.val % 64 < 64 := Nat.mod_lt _ (by decide)
  cases hw : w.toBitVec.getLsbD (c.val % 64) with
  | true =>
    rw [bne_iff_ne]
    intro h
    have hz : (w &&& bitOf c).toBitVec.getLsbD (c.val % 64) = false := by rw [h]; simp
    rw [UInt64.toBitVec_and, BitVec.getLsbD_and, getLsbD_bitOf, hw] at hz
    simp at hz
  | false =>
    rw [bne_eq_false_iff_eq]
    apply UInt64.toBitVec_inj.1
    apply BitVec.eq_of_getLsbD_eq
    intro k _
    rw [UInt64.toBitVec_and, BitVec.getLsbD_and, getLsbD_bitOf]
    by_cases hk : k = c.val % 64
    · simp [hk, hw]
    · simp [hk]

/-- A processor is in the mask when its word has its bit. -/
theorem contains_eq_getLsbD (m : CpuSet) (c : Cpu) :
    m.contains c = m.words[wordIndex c].toBitVec.getLsbD (c.val % 64) :=
  and_bitOf_ne_zero _ _

/-- Masks that hold the same processors are equal. -/
theorem ext_contains {a b : CpuSet} (h : ∀ c, a.contains c = b.contains c) : a = b := by
  obtain ⟨u⟩ := a
  obtain ⟨v⟩ := b
  congr 1
  apply Vector.ext
  intro i hi
  apply UInt64.toBitVec_inj.1
  apply BitVec.eq_of_getLsbD_eq
  intro k hk
  have hc := h ⟨64 * i + k, by omega⟩
  have hi' : (64 * i + k) / 64 = i := by omega
  have hk' : (64 * i + k) % 64 = k := by omega
  simp only [contains_eq_getLsbD, wordIndex, Fin.getElem_fin, hk', hi'] at hc
  exact hc

/-- Adding a processor changes the mask at that processor only. -/
theorem contains_insert (m : CpuSet) (a c : Cpu) : (m.insert a).contains c = (decide (c = a) || m.contains c) := by
  simp only [contains_eq_getLsbD, insert, Fin.getElem_fin]
  rw [Vector.getElem_set]
  split
  · rename_i h
    simp only [UInt64.toBitVec_or, BitVec.getLsbD_or, getLsbD_bitOf, h]
    have : decide (c.val % 64 = a.val % 64) = decide (c = a) := by
      simp only [wordIndex] at h
      simp only [decide_eq_decide, Fin.ext_iff]
      omega
    rw [this, Bool.or_comm]
  · rename_i h
    have : c ≠ a := by
      rintro rfl
      exact h rfl
    simp [this]

/-- Removing a processor changes the mask at that processor only. -/
theorem contains_erase (m : CpuSet) (a c : Cpu) : (m.erase a).contains c = (!decide (c = a) && m.contains c) := by
  have hm : c.val % 64 < 64 := Nat.mod_lt _ (by decide)
  simp only [contains_eq_getLsbD, erase, Fin.getElem_fin]
  rw [Vector.getElem_set]
  split
  · rename_i h
    simp only [UInt64.toBitVec_and, UInt64.toBitVec_not, BitVec.getLsbD_and, BitVec.getLsbD_not, getLsbD_bitOf, h, hm,
      decide_true, Bool.true_and]
    have : decide (c.val % 64 = a.val % 64) = decide (c = a) := by
      simp only [wordIndex] at h
      simp only [decide_eq_decide, Fin.ext_iff]
      omega
    rw [this, Bool.and_comm]
  · rename_i h
    have : c ≠ a := by
      rintro rfl
      exact h rfl
    simp [this]

/-- The empty mask holds no processor. -/
@[simp] theorem contains_empty (c : Cpu) : empty.contains c = false := by
  simp [contains_eq_getLsbD, empty]

/-- The list has the processors of the mask. -/
theorem mem_toList {m : CpuSet} {c : Cpu} : c ∈ m.toList ↔ m.contains c = true := by
  simp [toList, List.mem_finRange]

/-- An index below 1024 names a processor. -/
theorem cpuAt_of_lt {index : Nat} (h : index < 1024) : cpuAt index = .ok ⟨index, h⟩ := by
  simp [cpuAt, h]

/-- An index from 1024 on names none. -/
theorem cpuAt_of_le {index : Nat} (h : 1024 ≤ index) : cpuAt index = .error .outOfRange := by
  simp [cpuAt, Nat.not_lt.2 h]

end CpuSet

end KernelControl
