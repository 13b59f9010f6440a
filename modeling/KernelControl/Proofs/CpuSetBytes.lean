import Mathlib.Logic.ExistsUnique
import KernelControl.Proofs.CpuSetImage

/-!
# Masks as strings of bytes

The sixteen words of a mask fill its image, so masks and strings of 128 bytes correspond one to one (`of_read`). Byte by byte the
image is the processors in ascending order, eight to a byte (`testBit_get_of`). So an update of a mask is an update of one byte of
its image, by the same bit operation that it is on the word (`of_insert`, `of_erase`).
-/

namespace KernelControl

/-! ## Bits of a byte -/

namespace Image

/-- Bytes are equal when their eight bits are. -/
theorem byte_eq_of_testBit_eq {a b : UInt8} (h : ∀ k : Fin 8, a.toNat.testBit k.val = b.toNat.testBit k.val) : a = b := by
  apply UInt8.toBitVec_inj.1
  apply BitVec.eq_of_getLsbD_eq
  intro k hk
  rw [← BitVec.testBit_toNat, ← BitVec.testBit_toNat]
  exact h ⟨k, hk⟩

theorem testBit_not_byte (b : UInt8) (k : Fin 8) : (~~~b).toNat.testBit k.val = !b.toNat.testBit k.val := by
  rw [← UInt8.toNat_toBitVec, ← UInt8.toNat_toBitVec, BitVec.testBit_toNat, BitVec.testBit_toNat, UInt8.toBitVec_not,
    BitVec.getLsbD_not, decide_eq_true k.isLt, Bool.true_and]

end Image

namespace CpuSet

/-! ## Strings of bytes and masks -/

/-- The words cover every byte. -/
theorem of_read (bytes : Image 128) : Image.of (Image.read CpuSet bytes) = bytes := by
  refine Image.of_read_of_covers ?_ bytes
  intro p hp
  have hstart : 8 * (p / 8) ≤ p := by omega
  have hstop : p < 8 * (p / 8) + 8 := by omega
  exact ⟨⟨p / 8, by omega⟩, hstart, hstop⟩

/-- Just one mask has these bytes. -/
theorem existsUnique_of_eq (bytes : Image 128) : ∃! m : CpuSet, Image.of m = bytes := by
  refine ⟨Image.read CpuSet bytes, of_read bytes, ?_⟩
  rintro m rfl
  exact (Image.read_of m.fits).symm

/-! ## Processors, eight to a byte -/

theorem div_eight_lt (c : Cpu) : c.val / 8 < 128 := by omega

/-- The byte that a processor's bit is in. -/
def byteIndex (c : Cpu) : Fin 128 := ⟨c.val / 8, div_eight_lt c⟩

/-- The byte in which only the processor's bit is one. -/
def byteBit (c : Cpu) : UInt8 := 1 <<< UInt8.ofNat (c.val % 8)

/-- The processor of bit `k` of byte `p`. -/
def cpuOfByte (p : Fin 128) (k : Fin 8) : Cpu := ⟨8 * p.val + k.val, by omega⟩

theorem cpuOfByte_eq_iff {p : Fin 128} {k : Fin 8} {c : Cpu} :
    cpuOfByte p k = c ↔ p = byteIndex c ∧ k.val = c.val % 8 := by
  simp only [cpuOfByte, byteIndex, Fin.ext_iff]
  omega

theorem testBit_byteBit (c : Cpu) (k : Fin 8) :
    (byteBit c).toNat.testBit k.val = decide (cpuOfByte (byteIndex c) k = c) := by
  have h : ∀ i k : Fin 8, ((1 : UInt8) <<< UInt8.ofNat i.val).toNat.testBit k.val = decide (k.val = i.val) := by decide
  rw [byteBit, h ⟨c.val % 8, by omega⟩ k]
  simp only [cpuOfByte_eq_iff, true_and]

/-- A bit of the image is one when its processor is in the mask. -/
theorem testBit_get_of (m : CpuSet) (p : Fin 128) (k : Fin 8) :
    ((Image.of m : Image 128).get p).toNat.testBit k.val = m.contains (cpuOfByte p k) := by
  have h := testBit_of m (cpuOfByte p k)
  have hp : (8 * p.val + k.val) / 8 = p.val := by omega
  have hk : (8 * p.val + k.val) % 8 = k.val := by omega
  simp only [cpuOfByte, hp, hk] at h
  exact h

/-- Masks that have the same processors outside of a byte have the same bytes but for that one. -/
theorem of_eq_set {m next : CpuSet} {p : Fin 128} {byte : UInt8}
    (hin : ∀ k, byte.toNat.testBit k.val = next.contains (cpuOfByte p k))
    (hout : ∀ a, byteIndex a ≠ p → next.contains a = m.contains a) :
    (Image.of next : Image 128) = (Image.of m).set p byte := by
  apply Image.ext_bytes
  intro q hq
  rw [Vector.getElem_set]
  apply Image.byte_eq_of_testBit_eq
  intro k
  have hq' : byteIndex (cpuOfByte ⟨q, hq⟩ k) = ⟨q, hq⟩ := (cpuOfByte_eq_iff.1 rfl).1.symm
  have hnext := testBit_get_of next ⟨q, hq⟩ k
  split
  · rename_i h
    obtain rfl : p = ⟨q, hq⟩ := Fin.ext h
    exact hnext.trans (hin k).symm
  · rename_i h
    have hne : byteIndex (cpuOfByte ⟨q, hq⟩ k) ≠ p := by
      rintro rfl
      exact h (congrArg Fin.val hq')
    exact (hnext.trans (hout _ hne)).trans (testBit_get_of m ⟨q, hq⟩ k).symm

/-- Adding a processor makes its bit one in its byte. -/
theorem of_insert (m : CpuSet) (c : Cpu) :
    (Image.of (m.insert c) : Image 128) =
      (Image.of m).set (byteIndex c) ((Image.of m : Image 128).get (byteIndex c) ||| byteBit c) := by
  apply of_eq_set
  · intro k
    rw [UInt8.toNat_or, Nat.testBit_or, testBit_get_of, testBit_byteBit, contains_insert, Bool.or_comm]
  · intro a ha
    have hne : a ≠ c := ne_of_apply_ne byteIndex ha
    simp [contains_insert, hne]

/-- Removing a processor makes its bit zero in its byte. -/
theorem of_erase (m : CpuSet) (c : Cpu) :
    (Image.of (m.erase c) : Image 128) =
      (Image.of m).set (byteIndex c) ((Image.of m : Image 128).get (byteIndex c) &&& ~~~byteBit c) := by
  apply of_eq_set
  · intro k
    rw [UInt8.toNat_and, Nat.testBit_and, testBit_get_of, Image.testBit_not_byte, testBit_byteBit, contains_erase,
      Bool.and_comm]
  · intro a ha
    have hne : a ≠ c := ne_of_apply_ne byteIndex ha
    simp [contains_erase, hne]

/-- The image of a mask is its sixteen words, eight bytes each and low byte first. In it processor `c` is set exactly when bit
`c % 8` of byte `c / 8` is one, and setting or clearing the processor makes that bit one or zero and leaves every other byte as
it was. Every string of 128 bytes is the image of exactly one mask. -/
theorem image_bits :
    (∀ m : CpuSet,
      (∀ i : Fin 16, Scalar.u64.Spells ((Image.of m : Image 128).slice (8 * i.val) 8) (m.words.get i).toNat) ∧
      ∀ c : Cpu,
        m.isSet c.val = .ok (((Image.of m : Image 128).get (byteIndex c)).toNat.testBit (c.val % 8)) ∧
        (∃ next, m.set c.val = .ok next ∧
          (Image.of next : Image 128) =
            (Image.of m).set (byteIndex c) ((Image.of m : Image 128).get (byteIndex c) ||| byteBit c)) ∧
        ∃ next, m.clear c.val = .ok next ∧
          (Image.of next : Image 128) =
            (Image.of m).set (byteIndex c) ((Image.of m : Image 128).get (byteIndex c) &&& ~~~byteBit c)) ∧
      ∀ bytes : Image 128, ∃! m : CpuSet, Image.of m = bytes := by
  refine ⟨?_, existsUnique_of_eq⟩
  intro m
  refine ⟨Image.spells_slice_of m.fits, ?_⟩
  intro c
  refine ⟨?_, ⟨_, m.set_of_lt c.isLt, of_insert m c⟩, ⟨_, m.clear_of_lt c.isLt, of_erase m c⟩⟩
  rw [isSet_of_lt m c.isLt]
  exact congrArg Except.ok (testBit_of m c).symm

end CpuSet

end KernelControl
