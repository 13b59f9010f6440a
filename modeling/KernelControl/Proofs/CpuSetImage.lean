import KernelControl.CpuSet.Memory
import KernelControl.Proofs.CpuSetChain
import KernelControl.Proofs.Layout

/-!
# Masks, bit by bit in memory

A mask is used by the words that its processors are in, and the kernel reads and writes it by bytes. Both ways of counting
name the same bit: processor `c` is bit `c % 8` of byte `c / 8` (`contains_read`). So what the kernel wrote over the start of a
mask decides about the processors of the bytes that it reached (`Overwritten`), and clearing the bytes from some position on
removes the processors from eight times that position on (`contains_read_keepFirst`).
-/

namespace KernelControl

namespace Scalar

/-- Bit `k` of the number that a run of bytes stands for is bit `k % 8` of byte `k / 8`. -/
theorem testBit_magnitude (bytes : List UInt8) {k : Nat} (hk : k / 8 < bytes.length) :
    (magnitude bytes).testBit k = bytes[k / 8].toNat.testBit (k % 8) := by
  induction bytes generalizing k with
  | nil => simp at hk
  | cons b bytes ih =>
    have hb : b.toNat < 2 ^ 8 := b.toNat_lt
    have hm : magnitude (b :: bytes) = 2 ^ 8 * magnitude bytes + b.toNat := by
      rw [magnitude]
      omega
    rw [hm, Nat.testBit_two_pow_mul_add _ hb]
    by_cases h : k < 8
    · simp [h, Nat.div_eq_of_lt h, Nat.mod_eq_of_lt h]
    · have hd : k / 8 = (k - 8) / 8 + 1 := by omega
      have hr : k % 8 = (k - 8) % 8 := by omega
      have hk' : (k - 8) / 8 < bytes.length := by
        rw [List.length_cons] at hk
        omega
      simp [h, hd, hr, ih hk']

/-- Eight bytes that are read without a sign are the number that they stand for. -/
theorem decode_u64 {bytes : List UInt8} (h : bytes.length = 8) : u64.decode bytes = magnitude bytes := by
  have hlt := magnitude_lt bytes
  have hw : weight bytes.length = 0x10000000000000000 := by rw [h]; decide
  rw [decode, wrap_of_holds]
  exact holds_u64_iff.2 ⟨Int.natCast_nonneg _, by omega⟩

end Scalar

/-- The first bytes of a block, byte by byte. -/
theorem Image.getElem?_take_toList {n p k : Nat} (m : Image n) (hp : p < n) (hk : p < k) :
    (m.toList.take k)[p]? = some m[p] := by
  rw [List.getElem?_take_of_lt hk, Vector.getElem?_toList, Vector.getElem?_eq_getElem hp]

namespace CpuSet

/-! ## Bits of an image -/

/-- The words of the mask that an image holds stand in it eight bytes each. -/
theorem toNat_get_words_read (m : Image 128) (i : Fin 16) :
    ((Image.read CpuSet m).words.get i).toNat = Scalar.magnitude (m.slice (8 * i.val) 8) := by
  have hs : (m.slice (8 * i.val) 8).length = 8 := Image.length_slice m (by omega)
  have hv : HasLayout.values (Image.read CpuSet m) i = Scalar.u64.decode (m.slice (8 * i.val) 8) :=
    congrFun (Image.values_read m) i
  rw [Scalar.decode_u64 hs] at hv
  exact Int.natCast_inj.1 hv

/-- A processor is in the mask that an image holds exactly when its bit is one: bit `c % 8` of byte `c / 8`. -/
theorem contains_read (m : Image 128) (c : Cpu) :
    (Image.read CpuSet m).contains c = m[c.val / 8].toNat.testBit (c.val % 8) := by
  have hs : (m.slice (8 * (c.val / 64)) 8).length = 8 := Image.length_slice m (by omega)
  have hk : c.val % 64 / 8 < (m.slice (8 * (c.val / 64)) 8).length := by omega
  have hbyte : (m.slice (8 * (c.val / 64)) 8)[c.val % 64 / 8] = m[c.val / 8] := by
    have hg : (m.slice (8 * (c.val / 64)) 8)[c.val % 64 / 8]? = m[8 * (c.val / 64) + c.val % 64 / 8]? :=
      Image.getElem?_slice m (by omega)
    have hp : 8 * (c.val / 64) + c.val % 64 / 8 = c.val / 8 := by omega
    rw [hp, List.getElem?_eq_getElem hk, Vector.getElem?_eq_getElem (by omega)] at hg
    exact Option.some.inj hg
  have hbit : c.val % 64 % 8 = c.val % 8 := by omega
  have hword : (Image.read CpuSet m).words[wordIndex c] = (Image.read CpuSet m).words.get (wordIndex c) := rfl
  rw [contains_eq_getLsbD, ← BitVec.testBit_toNat, UInt64.toNat_toBitVec, hword, toNat_get_words_read]
  simp only [wordIndex]
  rw [Scalar.testBit_magnitude _ hk, hbyte, hbit]

/-- In the image of a mask a processor's bit is one exactly when the processor is in the mask. -/
theorem testBit_of (m : CpuSet) (c : Cpu) :
    ((Image.of m : Image 128)[c.val / 8]).toNat.testBit (c.val % 8) = m.contains c := by
  rw [← contains_read, Image.read_of m.fits]

/-- Where bytes are kept, so are their processors, and the others are removed. -/
theorem contains_read_keepFirst (m : Image 128) (count : Nat) (c : Cpu) :
    (Image.read CpuSet (m.keepFirst count)).contains c =
      (decide (c.val < 8 * count) && (Image.read CpuSet m).contains c) := by
  rw [contains_read, contains_read, Image.getElem_keepFirst]
  by_cases h : c.val < 8 * count
  · have hb : c.val / 8 < count := by omega
    simp [h, hb]
  · have hb : ¬c.val / 8 < count := by omega
    simp [h, hb]

/-! ## Bytes over the start of a mask -/

/-- The processor is set after bytes went over the start of a mask: its bit is one in the byte that went over its own, or the
bytes did not reach so far and it was set before. -/
def Overwritten (mask : CpuSet) (written : List UInt8) (c : Nat) : Prop :=
  (∃ byte, written[c / 8]? = some byte ∧ byte.toNat.testBit (c % 8) = true) ∨
    (written.length ≤ c / 8 ∧ mask.isSet c = .ok true)

/-- Where the bytes reach, the bit written decides. -/
theorem overwritten_of_getElem? {mask : CpuSet} {written : List UInt8} {c : Nat} {byte : UInt8}
    (h : written[c / 8]? = some byte) : Overwritten mask written c ↔ byte.toNat.testBit (c % 8) = true := by
  have hw : ¬written.length ≤ c / 8 := Nat.not_le.2 (List.getElem?_eq_some_iff.1 h).1
  simp [Overwritten, h, hw]

/-- Where they do not reach, the mask before decides. -/
theorem overwritten_of_le {mask : CpuSet} {written : List UInt8} {c : Nat} (h : written.length ≤ c / 8) :
    Overwritten mask written c ↔ mask.isSet c = .ok true := by
  simp [Overwritten, h]

/-- The processors of the mask that is read from a mask's image after a write over its start. -/
theorem contains_read_fill (mask : CpuSet) (written : List UInt8) (c : Cpu) :
    (Image.read CpuSet ((Image.of mask).fill written)).contains c = true ↔ Overwritten mask written c := by
  have hp : c.val / 8 < 128 := by omega
  rw [contains_read]
  by_cases hw : c.val / 8 < written.length
  · rw [Image.getElem_fill_of_lt _ written hp hw, overwritten_of_getElem? (List.getElem?_eq_getElem hw)]
  · have hle := Nat.le_of_not_lt hw
    rw [Image.getElem_fill_of_le _ written hp hle, testBit_of, overwritten_of_le hle, isSet_of_lt mask c.isLt,
      Except.ok.injEq]

/-- What a write has past the end of the mask decides about no processor. -/
theorem overwritten_take (mask : CpuSet) (written : List UInt8) {c : Nat} (hc : c < 1024) :
    Overwritten mask (written.take 128) c ↔ Overwritten mask written c := by
  have hp : c / 8 < 128 := by omega
  have hl : min 128 written.length ≤ c / 8 ↔ written.length ≤ c / 8 := by omega
  rw [Overwritten, Overwritten, List.getElem?_take_of_lt hp, List.length_take, hl]

/-- About a processor whose byte was written the mask before does not matter. -/
theorem overwritten_congr {mask mask' : CpuSet} {written : List UInt8} {c : Nat} (h : c / 8 < written.length) :
    Overwritten mask written c ↔ Overwritten mask' written c := by
  rw [overwritten_of_getElem? (List.getElem?_eq_getElem h), overwritten_of_getElem? (List.getElem?_eq_getElem h)]

/-- The first bytes of the image of a mask bring its processors back, over whatever mask they are written. -/
theorem overwritten_take_of (m mask : CpuSet) {n : Nat} {c : Cpu} (h : c.val < 8 * n) :
    Overwritten mask ((Image.of m : Image 128).toList.take n) c ↔ m.contains c = true := by
  have hn : c.val / 8 < n := by omega
  rw [overwritten_of_getElem? (Image.getElem?_take_toList (Image.of m) (by omega) hn), testBit_of m c]

end CpuSet

end KernelControl
