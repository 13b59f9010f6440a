import KernelControl.Image
import KernelControl.Scalar

/-!
# Layouts: where the fields of a structure lie

A layout gives every field of a structure a place in its image and the scalar it is stored as. The fields do not
overlap; the bytes that no field covers are padding, written as zero and ignored by a reader.

`HasLayout` attaches a layout to a record type. `Image.of` stores a record and `Image.read` reads one. The two facts
that everything about structures comes down to are `Image.read_of` (a record whose values fit their scalars is read
back unchanged) and `Image.getElem_of_read` (an image that is read and stored again keeps every covered byte and loses
the padding).
-/

namespace KernelControl

/-- The fields `ι` of a structure of `n` bytes, by ascending place. -/
structure Layout (n : Nat) (ι : Type) where
  /-- The fields, in the order in which they lie in memory. -/
  fields : List ι
  /-- The position of a field's lowest byte. -/
  offset : ι → Nat
  /-- The scalar a field is stored as. -/
  scalar : ι → Scalar
  /-- Every field is listed. -/
  mem_fields : ∀ i, i ∈ fields
  /-- Every field ends inside the structure. -/
  inside : ∀ i ∈ fields, offset i + (scalar i).size ≤ n
  /-- A field ends before the next begins. -/
  apart : fields.Pairwise fun i j => offset i + (scalar i).size ≤ offset j

namespace Layout

variable {n : Nat} {ι : Type} (L : Layout n ι)

/-- The position just after a field's last byte. -/
def stop (i : ι) : Nat := L.offset i + (L.scalar i).size

/-- The byte at position `p` belongs to the field. -/
def Covers (i : ι) (p : Nat) : Prop := L.offset i ≤ p ∧ p < L.stop i

instance (i : ι) (p : Nat) : Decidable (L.Covers i p) := by
  unfold Covers
  infer_instance

/-- The field the byte at position `p` belongs to, if it is not padding. -/
def fieldAt? (p : Nat) : Option ι := L.fields.find? fun i => decide (L.Covers i p)

/-- The image of a structure with the given field values; padding is zero. -/
def encode (values : ι → Int) : Image n :=
  Vector.ofFn fun p =>
    match L.fieldAt? p with
    | some i => Scalar.byteOf (values i) (p - L.offset i)
    | none => 0

/-- The field values an image holds. -/
def decode (m : Image n) (i : ι) : Int := (L.scalar i).decode (m.slice (L.offset i) (L.scalar i).size)

/-- Every field ends inside the block. -/
theorem stop_le (i : ι) : L.stop i ≤ n := L.inside i (L.mem_fields i)

/-- A byte of a field belongs to no field that begins after it. -/
theorem not_covers_of_stop_le {i j : ι} {p : Nat} (h : L.stop i ≤ L.offset j) (hi : L.Covers i p) : ¬L.Covers j p := by
  intro hj
  have hp : p < p := Nat.lt_of_lt_of_le hi.2 (Nat.le_trans h hj.1)
  exact Nat.lt_irrefl p hp

/-- Of fields each of which ends before the next begins, one at most covers a byte. -/
theorem eq_of_covers_of_pairwise {i j : ι} {p : Nat} (hi : L.Covers i p) (hj : L.Covers j p) {l : List ι}
    (hl : l.Pairwise fun i j => L.stop i ≤ L.offset j) (him : i ∈ l) (hjm : j ∈ l) : i = j := by
  induction l with
  | nil => simp at him
  | cons a l ih =>
    rw [List.pairwise_cons] at hl
    rcases List.mem_cons.1 him with rfl | him' <;> rcases List.mem_cons.1 hjm with rfl | hjm'
    · rfl
    · exact absurd hj (L.not_covers_of_stop_le (hl.1 j hjm') hi)
    · exact absurd hi (L.not_covers_of_stop_le (hl.1 i him') hj)
    · exact ih hl.2 him' hjm'

/-- A byte belongs to one field at most. -/
theorem eq_of_covers {i j : ι} {p : Nat} (hi : L.Covers i p) (hj : L.Covers j p) : i = j :=
  L.eq_of_covers_of_pairwise hi hj L.apart (L.mem_fields i) (L.mem_fields j)

/-- The field found at a position is the one that covers it. -/
theorem fieldAt?_eq_some_iff {i : ι} {p : Nat} : L.fieldAt? p = some i ↔ L.Covers i p := by
  constructor
  · intro h
    simpa using List.find?_some h
  · intro h
    cases hf : L.fieldAt? p with
    | none =>
      have := List.find?_eq_none.1 hf i (L.mem_fields i)
      simp [h] at this
    | some j =>
      have hj : L.Covers j p := by simpa using List.find?_some hf
      rw [L.eq_of_covers hj h]

/-- No field is found exactly in the padding. -/
theorem fieldAt?_eq_none_iff {p : Nat} : L.fieldAt? p = none ↔ ∀ i, ¬L.Covers i p := by
  constructor
  · intro h i hi
    rw [(L.fieldAt?_eq_some_iff).2 hi] at h
    cases h
  · intro h
    cases hf : L.fieldAt? p with
    | none => rfl
    | some i => exact absurd ((L.fieldAt?_eq_some_iff).1 hf) (h i)

/-- A covered byte of the image is a byte of its field's value. -/
theorem getElem_encode {values : ι → Int} {i : ι} {p : Nat} (hp : p < n) (h : L.Covers i p) :
    (L.encode values)[p] = Scalar.byteOf (values i) (p - L.offset i) := by
  have hf := (L.fieldAt?_eq_some_iff).2 h
  simp [encode, hf]

/-- Padding is zero. -/
theorem getElem_encode_padding {values : ι → Int} {p : Nat} (hp : p < n) (h : ∀ i, ¬L.Covers i p) :
    (L.encode values)[p] = 0 := by
  have hf := (L.fieldAt?_eq_none_iff).2 h
  simp [encode, hf]

/-- The bytes of a field in the image are the bytes of its value. -/
theorem slice_encode (values : ι → Int) (i : ι) :
    (L.encode values).slice (L.offset i) (L.scalar i).size = (L.scalar i).encode (values i) := by
  have hs := L.inside i (L.mem_fields i)
  apply List.ext_getElem?
  intro k
  by_cases hk : k < (L.scalar i).size
  · have hp : L.offset i + k < n := by omega
    have hc : L.Covers i (L.offset i + k) := ⟨by omega, by unfold stop; omega⟩
    rw [Image.getElem?_slice _ hk, Vector.getElem?_eq_getElem hp, L.getElem_encode hp hc]
    simp [Scalar.encode, hk]
  · rw [List.getElem?_eq_none, List.getElem?_eq_none]
    · simp
      omega
    · rw [Image.length_slice _ hs]
      omega

/-- A value that fits its scalar is read back. -/
theorem decode_encode {values : ι → Int} {i : ι} (h : (L.scalar i).Holds (values i)) :
    L.decode (L.encode values) i = values i := by
  rw [decode, slice_encode, Scalar.decode_encode h]

/-- What is read fits its scalar. -/
theorem holds_decode (m : Image n) (i : ι) : (L.scalar i).Holds (L.decode m i) := (L.scalar i).holds_decode _

/-- What is read from a field depends on the field's bytes alone. -/
theorem decode_congr {a b : Image n} {i : ι} (h : ∀ p (hp : p < n), L.Covers i p → a[p] = b[p]) :
    L.decode a i = L.decode b i := by
  rw [decode, decode, Image.slice_congr]
  intro p hp h₁ h₂
  exact h p hp ⟨h₁, h₂⟩

/-- Storing what was read gives every covered byte back. -/
theorem getElem_encode_decode {m : Image n} {i : ι} {p : Nat} (hp : p < n) (h : L.Covers i p) :
    (L.encode (L.decode m))[p] = m[p] := by
  obtain ⟨h₁, h₂⟩ := h
  unfold stop at h₂
  have hs := L.inside i (L.mem_fields i)
  have hl := Image.length_slice m hs
  have hk : p - L.offset i < (L.scalar i).size := by omega
  have hg : (m.slice (L.offset i) (L.scalar i).size)[p - L.offset i]? = m[L.offset i + (p - L.offset i)]? :=
    Image.getElem?_slice m hk
  have he : L.offset i + (p - L.offset i) = p := by omega
  rw [he, List.getElem?_eq_getElem (by omega), Vector.getElem?_eq_getElem hp] at hg
  rw [L.getElem_encode hp ⟨h₁, h₂⟩, decode, Scalar.byteOf_decode hl _ (by omega)]
  exact Option.some.inj hg

/-- Two images are read alike exactly when they agree on every covered byte. -/
theorem decode_eq_decode_iff {a b : Image n} :
    L.decode a = L.decode b ↔ ∀ i p (hp : p < n), L.Covers i p → a[p] = b[p] := by
  constructor
  · intro h i p hp hc
    have ha := L.getElem_encode_decode (m := a) hp hc
    rw [← ha, h, L.getElem_encode_decode hp hc]
  · intro h
    funext i
    exact L.decode_congr fun p hp hc => h i p hp hc

end Layout

/-! ## Records with a layout -/

/-- A record type whose fields have a place in an image of `n` bytes. Every record is determined by the integers in its
fields, and every choice of integers that fit their scalars is a record. -/
class HasLayout (α : Type) (n : outParam Nat) (ι : outParam Type) where
  /-- Where the fields lie. -/
  layout : Layout n ι
  /-- The integers in a record's fields. -/
  values : α → ι → Int
  /-- The record with the given integers in its fields. -/
  ofValues : (ι → Int) → α
  /-- Integers that fit are the values of the record made from them. -/
  values_ofValues : ∀ v, (∀ i, (layout.scalar i).Holds (v i)) → values (ofValues v) = v
  /-- A record is made of its own values. -/
  ofValues_values : ∀ a, ofValues (values a) = a

namespace Image

variable {α ι : Type} {n : Nat} [HasLayout α n ι]

/-- The image of a record. A value that does not fit its scalar keeps its low bytes only. -/
def of (a : α) : Image n := (HasLayout.layout α).encode (HasLayout.values a)

variable (α) in
/-- The record an image holds. -/
def read (m : Image n) : α := HasLayout.ofValues ((HasLayout.layout α).decode m)

/-- Every value of the record fits the scalar it is stored as. -/
def Fits (a : α) : Prop :=
  ∀ i ∈ (HasLayout.layout α).fields, ((HasLayout.layout α).scalar i).Holds (HasLayout.values a i)

/-- A record fits when the value of each field does. -/
theorem fits_iff {a : α} : Fits a ↔ ∀ i, ((HasLayout.layout α).scalar i).Holds (HasLayout.values a i) :=
  ⟨fun h i => h i ((HasLayout.layout α).mem_fields i), fun h i _ => h i⟩

/-- The integers in the record that was read are those in the image. -/
theorem values_read (m : Image n) : HasLayout.values (read α m) = (HasLayout.layout α).decode m :=
  HasLayout.values_ofValues _ fun i => (HasLayout.layout α).holds_decode m i

/-- A record that was read fits. -/
theorem fits_read (m : Image n) : Fits (read α m) := by
  rw [fits_iff, values_read]
  exact fun i => (HasLayout.layout α).holds_decode m i

/-- A record that fits is read back unchanged. -/
theorem read_of {a : α} (h : Fits a) : read α (of a) = a := by
  have hd : (HasLayout.layout α).decode (of a) = HasLayout.values a := by
    funext i
    exact (HasLayout.layout α).decode_encode (fits_iff.1 h i)
  rw [read, hd, HasLayout.ofValues_values]

/-- Storing what was read keeps the covered bytes. -/
theorem getElem_of_read {m : Image n} {i : ι} {p : Nat} (hp : p < n) (h : (HasLayout.layout α).Covers i p) :
    (of (read α m))[p] = m[p] := by
  simp only [of, values_read]
  exact (HasLayout.layout α).getElem_encode_decode hp h

/-- Padding is stored as zero. -/
theorem getElem_of_padding {a : α} {p : Nat} (hp : p < n) (h : ∀ i, ¬(HasLayout.layout α).Covers i p) :
    (of a)[p] = 0 :=
  (HasLayout.layout α).getElem_encode_padding hp h

/-- Two images hold the same record exactly when they agree on every covered byte. -/
theorem read_eq_read_iff {a b : Image n} :
    read α a = read α b ↔ ∀ i p (hp : p < n), (HasLayout.layout α).Covers i p → a[p] = b[p] := by
  rw [← Layout.decode_eq_decode_iff]
  constructor
  · intro h
    rw [← values_read (α := α), ← values_read (α := α), h]
  · intro h
    rw [read, read, h]

end Image

end KernelControl
