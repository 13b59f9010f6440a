import KernelControl.Proofs.Layout
import KernelControl.Time.Memory

/-!
# Times as bytes

A time lies in memory as sixteen bytes, and they have no padding: every block of sixteen bytes is the image of the time that is
read from it (`of_read`). `Spelled` says what it means for bytes to be those of a time without the functions that store and read;
each time is spelled by one run of bytes (`Spelled.bytes_eq`), and sixteen bytes spell one time (`exists_spelled`, `Spelled.eq`).
-/

namespace KernelControl

namespace TimeSpec

/-- The bytes are those of the time: first the seconds and then the nanoseconds, each in two's complement, low byte first. -/
def Spelled (ts : TimeSpec) (bytes : List UInt8) : Prop :=
  Scalar.i64.Spells (bytes.take 8) ts.sec.toInt ∧ Scalar.i64.Spells (bytes.drop 8) ts.nsec.toInt

/-- Every byte belongs to one of the two words. -/
theorem exists_covers (p : Nat) (hp : p < 16) : ∃ i, (HasLayout.layout TimeSpec).Covers i p := by
  by_cases h : p < 8
  · exact ⟨.whole, Nat.zero_le p, h⟩
  · exact ⟨.fraction, Nat.le_of_not_lt h, hp⟩

/-- Storing the time that a block holds gives the block back. -/
theorem of_read (m : Image 16) : Image.of (Image.read TimeSpec m) = m := Image.of_read_of_covers exists_covers m

/-- The image of a time spells it. -/
theorem spelled_of (ts : TimeSpec) : ts.Spelled (Image.of ts : Image 16).toList := by
  have hw := Image.spells_slice_of ts.fits .whole
  have hf := Image.spells_slice_of ts.fits .fraction
  have ht : ((Image.of ts : Image 16).toList.drop 8).take 8 = (Image.of ts : Image 16).toList.drop 8 :=
    List.take_of_length_le (by simp)
  exact ⟨hw, ht ▸ hf⟩

/-- A block spells the time that is read from it. -/
theorem spelled_read (m : Image 16) : (Image.read TimeSpec m).Spelled m.toList := by
  have h := spelled_of (Image.read TimeSpec m)
  rwa [of_read] at h

variable {ts ts' : TimeSpec} {bytes bytes' : List UInt8}

/-- Sixteen bytes spell a time. -/
theorem Spelled.length_eq (h : ts.Spelled bytes) : bytes.length = 16 := by
  have hl : (bytes.drop 8).length = 8 := h.2.2.1
  rw [List.length_drop] at hl
  omega

/-- Bytes that spell the same time are the same. -/
theorem Spelled.bytes_eq (h : ts.Spelled bytes) (h' : ts.Spelled bytes') : bytes = bytes' := by
  rw [← List.take_append_drop 8 bytes, h.1.eq_encode, h.2.eq_encode, ← h'.1.eq_encode, ← h'.2.eq_encode,
    List.take_append_drop]

/-- Times that the same bytes spell are the same. -/
theorem Spelled.eq (h : ts.Spelled bytes) (h' : ts'.Spelled bytes) : ts = ts' := by
  apply ext_toInt
  · rw [(Scalar.spells_iff.1 h.1).2, (Scalar.spells_iff.1 h'.1).2]
  · rw [(Scalar.spells_iff.1 h.2).2, (Scalar.spells_iff.1 h'.2).2]

/-- Any sixteen bytes spell a time. -/
theorem exists_spelled (h : bytes.length = 16) : ∃ ts : TimeSpec, ts.Spelled bytes := by
  have hs := spelled_read ⟨bytes.toArray, h⟩
  exact ⟨_, hs⟩

end TimeSpec

end KernelControl
