import KernelControl.Layout

/-!
# Reading a structure that was written over

Statements about any scalar and any layout. `Scalar.Spells` says what it means for a run of bytes to be a value, digit by
digit, without the functions that store and read; `Scalar.spells_iff` says that reading is exactly that. The kernel answers
a call by writing over the start of a structure. What is read afterwards is decided field by field by where the write ends
(`Overlay`): a field before the end is what was written, a field after it is what was there, and a field across it is made of
the low bytes written and the high bytes that were there (`overlay_read_fill`).
-/

namespace KernelControl

/-! ## Bytes that spell a value -/

namespace Scalar

/-- The bytes are those of a value of the scalar, low byte first: there are as many as the scalar has, and byte `k` is the
digit of its weight in two's complement. -/
def Spells (s : Scalar) (bytes : List UInt8) (v : Int) : Prop :=
  s.Holds v ∧ bytes.length = s.size ∧ ∀ k (hk : k < bytes.length), (bytes[k].toNat : Int) = v / weight k % 256

/-- The bytes a value is stored as spell it. -/
theorem spells_encode {s : Scalar} {v : Int} (h : s.Holds v) : s.Spells (s.encode v) v := by
  refine ⟨h, s.length_encode v, ?_⟩
  intro k hk
  rw [← toNat_byteOf]
  simp [encode]

/-- The bytes that spell a value are the ones it is stored as. -/
theorem Spells.eq_encode {s : Scalar} {bytes : List UInt8} {v : Int} (h : s.Spells bytes v) : bytes = s.encode v := by
  obtain ⟨-, hl, hd⟩ := h
  apply List.ext_getElem
  · rw [hl, s.length_encode]
  · intro k hk _
    have hb : ((bytes[k].toNat : Nat) : Int) = (byteOf v k).toNat := by rw [hd k hk, toNat_byteOf]
    simp only [encode, List.getElem_map, List.getElem_range]
    exact UInt8.toNat_inj.1 (Int.natCast_inj.1 hb)

/-- Reading finds the one value that the bytes spell. -/
theorem spells_iff {s : Scalar} {bytes : List UInt8} {v : Int} :
    s.Spells bytes v ↔ bytes.length = s.size ∧ v = s.decode bytes := by
  constructor
  · intro h
    refine ⟨h.2.1, ?_⟩
    rw [h.eq_encode, decode_encode h.1]
  · rintro ⟨hl, rfl⟩
    refine ⟨s.holds_decode bytes, hl, ?_⟩
    intro k hk
    rw [← toNat_byteOf, byteOf_decode hl k hk]

end Scalar

/-! ## Bytes after a write -/

namespace Image

variable {n : Nat}

/-- Different blocks differ in a byte. -/
theorem exists_getElem_ne {a b : Image n} (h : a ≠ b) : ∃ p, ∃ hp : p < n, a[p] ≠ b[p] := by
  apply Classical.byContradiction
  intro hall
  apply h
  apply ext_bytes
  intro p hp
  exact Classical.byContradiction fun hne => hall ⟨p, hp, hne⟩

/-- What a write has past the end of the block is dropped. -/
theorem fill_take (m : Image n) (written : List UInt8) : m.fill (written.take n) = m.fill written := by
  apply ext_bytes
  intro p hp
  rw [getElem_fill, getElem_fill, List.getElem?_take_of_lt hp]

/-- A slice after a write: as many bytes as the write has there, and then the ones that were there. -/
theorem slice_fill {offset length : Nat} (m : Image n) (written : List UInt8) (h : offset + length ≤ n) :
    (m.fill written).slice offset length =
      (written.drop offset).take length ++ (m.slice offset length).drop (written.length - offset) := by
  apply List.ext_getElem?
  intro k
  by_cases hk : k < length
  · have hp : offset + k < n := by omega
    rw [getElem?_slice _ hk, Vector.getElem?_eq_getElem hp, getElem_fill, List.getElem?_append]
    by_cases hw : offset + k < written.length
    · have hl : k < ((written.drop offset).take length).length := by
        rw [List.length_take, List.length_drop]
        omega
      rw [if_pos hl, List.getElem?_take_of_lt hk, List.getElem?_drop, List.getElem?_eq_getElem hw, Option.getD_some]
    · have hl : ((written.drop offset).take length).length = written.length - offset := by
        rw [List.length_take, List.length_drop]
        omega
      have hs : written.length - offset + (k - (written.length - offset)) = k := by omega
      rw [hl, if_neg (by omega), List.getElem?_drop, hs, getElem?_slice m hk, Vector.getElem?_eq_getElem hp,
        List.getElem?_eq_none (by omega), Option.getD_none]
  · rw [List.getElem?_eq_none, List.getElem?_eq_none]
    · rw [List.length_append, List.length_take, List.length_drop, List.length_drop, length_slice m h]
      omega
    · rw [length_slice _ h]
      omega

/-- A block after a write: the bytes written, as many as it has room for, and then the ones that were there. -/
theorem toList_fill (m : Image n) (written : List UInt8) :
    (m.fill written).toList = written.take n ++ m.toList.drop written.length := by
  have hwhole : ∀ b : Image n, b.slice 0 n = b.toList := fun b => List.take_of_length_le (by simp)
  have h := slice_fill m written (Nat.le_of_eq (Nat.zero_add n))
  rwa [hwhole, hwhole, List.drop_zero, Nat.sub_zero] at h

/-- As many bytes as a block has: those of a write from the start, and zeros where it ends before. -/
def padded (n : Nat) (written : List UInt8) : List UInt8 := written.take n ++ List.replicate (n - written.length) 0

/-- A write over the start of the zero block leaves its bytes and zeros. -/
theorem toList_fill_zero (written : List UInt8) : ((zero n).fill written).toList = padded n written := by
  have hzero : (zero n).toList = List.replicate n 0 := List.eq_replicate_iff.2 ⟨by simp, by simp [zero]⟩
  rw [toList_fill, hzero, List.drop_replicate, padded]

end Image

/-! ## Fields of a stored record, and after a write -/

namespace Image

variable {α ι : Type} {n : Nat} [HasLayout α n ι]

/-- The bytes in the place of a field spell the value of the stored record. -/
theorem spells_slice_of {a : α} (h : Fits a) (i : ι) :
    ((HasLayout.layout α).scalar i).Spells
      ((of a).slice ((HasLayout.layout α).offset i) ((HasLayout.layout α).scalar i).size) (HasLayout.values a i) := by
  rw [of, Layout.slice_encode]
  exact Scalar.spells_encode (fits_iff.1 h i)

/-- The bytes in the place of a field spell the value of the record that is read. -/
theorem spells_slice_read (m : Image n) (i : ι) :
    ((HasLayout.layout α).scalar i).Spells
      (m.slice ((HasLayout.layout α).offset i) ((HasLayout.layout α).scalar i).size) (HasLayout.values (read α m) i) :=
  Scalar.spells_iff.2 ⟨length_slice m ((HasLayout.layout α).stop_le i), congrFun (values_read m) i⟩

/-- Records with the same values in their fields are equal. -/
theorem eq_of_values_eq {a b : α} (h : HasLayout.values a = HasLayout.values b) : a = b := by
  rw [← HasLayout.ofValues_values a, h, HasLayout.ofValues_values]

/-- The value in a field after a write over the start of an image. -/
theorem values_read_fill (m : Image n) (written : List UInt8) (i : ι) :
    HasLayout.values (read α (m.fill written)) i =
      ((HasLayout.layout α).scalar i).decode
        ((written.drop ((HasLayout.layout α).offset i)).take ((HasLayout.layout α).scalar i).size ++
          (m.slice ((HasLayout.layout α).offset i) ((HasLayout.layout α).scalar i).size).drop
            (written.length - (HasLayout.layout α).offset i)) := by
  rw [values_read, Layout.decode, slice_fill m written ((HasLayout.layout α).stop_le i)]

/-- A field that ends before the write does holds the value that was written there. -/
theorem spells_read_fill (m : Image n) {written : List UInt8} {i : ι}
    (h : (HasLayout.layout α).stop i ≤ written.length) :
    ((HasLayout.layout α).scalar i).Spells
      ((written.drop ((HasLayout.layout α).offset i)).take ((HasLayout.layout α).scalar i).size)
      (HasLayout.values (read α (m.fill written)) i) := by
  unfold Layout.stop at h
  rw [Scalar.spells_iff]
  constructor
  · rw [List.length_take, List.length_drop]
    omega
  · have hl := length_slice m ((HasLayout.layout α).stop_le i)
    have ht : (m.slice ((HasLayout.layout α).offset i) ((HasLayout.layout α).scalar i).size).drop
        (written.length - (HasLayout.layout α).offset i) = [] := List.drop_eq_nil_of_le (by omega)
    rw [values_read_fill, ht, List.append_nil]

/-- A field that begins where the write has ended holds the value it had. -/
theorem values_read_fill_of_le (m : Image n) {written : List UInt8} {i : ι}
    (h : written.length ≤ (HasLayout.layout α).offset i) :
    HasLayout.values (read α (m.fill written)) i = HasLayout.values (read α m) i := by
  rw [values_read_fill, values_read, Layout.decode, List.drop_eq_nil_of_le h, Nat.sub_eq_zero_of_le h, List.take_nil,
    List.nil_append, List.drop_zero]

/-- A field that the write ends in holds the value made of the bytes written and, above them, the bytes that the value of
the stored record has there. -/
theorem spells_read_fill_across (a : α) {written : List UInt8} {i : ι}
    (h₁ : (HasLayout.layout α).offset i < written.length) (h₂ : written.length < (HasLayout.layout α).stop i) :
    ((HasLayout.layout α).scalar i).Spells
      (written.drop ((HasLayout.layout α).offset i) ++
        (((HasLayout.layout α).scalar i).encode (HasLayout.values a i)).drop
          (written.length - (HasLayout.layout α).offset i))
      (HasLayout.values (read α ((of a).fill written)) i) := by
  unfold Layout.stop at h₂
  rw [Scalar.spells_iff]
  constructor
  · rw [List.length_append, List.length_drop, List.length_drop, Scalar.length_encode]
    omega
  · rw [values_read_fill, of, Layout.slice_encode, List.take_of_length_le]
    rw [List.length_drop]
    omega

/-- The record `b` is what becomes of the record `a` when `written` goes over the start of its image. -/
structure Overlay (a : α) (written : List UInt8) (b : α) : Prop where
  /-- A field that ends before the write does has the value that was written. -/
  inside : ∀ i, (HasLayout.layout α).stop i ≤ written.length →
    ((HasLayout.layout α).scalar i).Spells
      ((written.drop ((HasLayout.layout α).offset i)).take ((HasLayout.layout α).scalar i).size) (HasLayout.values b i)
  /-- A field that begins where the write has ended has the value it had. -/
  outside : ∀ i, written.length ≤ (HasLayout.layout α).offset i → HasLayout.values b i = HasLayout.values a i
  /-- A field that the write ends in has the value of the low bytes written and the high bytes it had. -/
  across : ∀ i, (HasLayout.layout α).offset i < written.length → written.length < (HasLayout.layout α).stop i →
    ((HasLayout.layout α).scalar i).Spells
      (written.drop ((HasLayout.layout α).offset i) ++
        (((HasLayout.layout α).scalar i).encode (HasLayout.values a i)).drop
          (written.length - (HasLayout.layout α).offset i)) (HasLayout.values b i)

/-- A record that was stored, written over and read again is an overlay of the write on it. -/
theorem overlay_read_fill {a : α} (h : Fits a) (written : List UInt8) :
    Overlay a written (read α ((of a).fill written)) where
  inside i hi := spells_read_fill (of a) hi
  outside i hi := by rw [values_read_fill_of_le (of a) hi, read_of h]
  across i h₁ h₂ := spells_read_fill_across a h₁ h₂

/-- When the fields cover every byte, nothing of a block is lost by reading it. -/
theorem of_read_of_covers (h : ∀ p < n, ∃ i, (HasLayout.layout α).Covers i p) (m : Image n) : of (read α m) = m := by
  apply ext_bytes
  intro p hp
  obtain ⟨i, hi⟩ := h p hp
  exact getElem_of_read hp hi

/-- Two writes that agree on every byte of a field leave the same record. -/
theorem read_fill_congr (m : Image n) {w w' : List UInt8}
    (h : ∀ i p, p < n → (HasLayout.layout α).Covers i p → w[p]? = w'[p]?) : read α (m.fill w) = read α (m.fill w') := by
  rw [read_eq_read_iff]
  intro i p hp hc
  rw [getElem_fill, getElem_fill, h i p hp hc]

end Image

end KernelControl
