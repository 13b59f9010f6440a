import KernelControl.ClockAdjustment.Memory
import KernelControl.Proofs.Layout

/-!
# The image of the clock adjustment record

Records and blocks of 208 bytes correspond, up to the padding of a block and the width of `shift` in a record. `Spelled` says
what it means for bytes to be those of a record, place by place, without the functions that store and read. A block that is
read as a record and stored again loses its padding and nothing else (`image?_read`), so a record says as much as the 152
bytes that are not padding. A record has an image exactly when its `shift` fits 32 bits, and it is read back from it whole
(`image?_ok_iff`).
-/

namespace KernelControl

namespace ClockAdjustment

/-! ## Padding -/

/-- The byte belongs to no field: it lies in the pad after `modes`, after `status` or after `shift`, or in the reserved
words at the end. -/
def Padding (p : Nat) : Prop := (4 ≤ p ∧ p < 8) ∨ (44 ≤ p ∧ p < 48) ∨ (116 ≤ p ∧ p < 120) ∨ (164 ≤ p ∧ p < 208)

instance (p : Nat) : Decidable (Padding p) := by
  unfold Padding
  infer_instance

/-- The block with its padding cleared. -/
def clearPadding (m : Image 208) : Image 208 := Vector.ofFn fun p => if Padding p then 0 else m[p]

/-- A byte of the block with its padding cleared. -/
theorem getElem_clearPadding (m : Image 208) {p : Nat} (hp : p < 208) :
    (clearPadding m)[p] = if Padding p then 0 else m[p] := by
  simp [clearPadding]

/-- The padding is what the fields leave. -/
theorem padding_iff {p : Nat} (hp : p < 208) : Padding p ↔ ∀ i, ¬layout.Covers i p := by
  unfold Padding Layout.Covers Layout.stop
  constructor
  · intro h i
    cases i <;> simp only [layout, Scalar.u32, Scalar.i32, Scalar.i64] <;> omega
  · intro h
    have hf : ∀ i ∈ layout.fields, ¬(layout.offset i ≤ p ∧ p < layout.offset i + (layout.scalar i).size) := fun i _ => h i
    simp only [layout, Scalar.u32, Scalar.i32, Scalar.i64, List.forall_mem_cons] at hf
    omega

/-- A byte that is not padding belongs to a field. -/
theorem exists_covers {p : Nat} (hp : p < 208) (h : ¬Padding p) : ∃ i, layout.Covers i p := by
  rw [padding_iff hp] at h
  simpa using h

/-- A byte of a field is not padding. -/
theorem not_padding_of_covers {i : Field} {p : Nat} (hp : p < 208) (h : layout.Covers i p) : ¬Padding p :=
  fun hpad => (padding_iff hp).1 hpad i h

/-! ## Bytes of a record -/

/-- The bytes are those of the record: 208 of them, and each field in its place, low byte first. The bytes between the fields and
after the last one are padding and may be any. -/
structure Spelled (adj : ClockAdjustment) (bytes : List UInt8) : Prop where
  length_eq : bytes.length = 208
  modes : Scalar.u32.Spells (bytes.take 4) adj.modes.raw.toNat
  offset : Scalar.i64.Spells ((bytes.drop 8).take 8) adj.offset.toInt
  freq : Scalar.i64.Spells ((bytes.drop 16).take 8) adj.freq.toInt
  maxError : Scalar.i64.Spells ((bytes.drop 24).take 8) adj.maxError.toInt
  estError : Scalar.i64.Spells ((bytes.drop 32).take 8) adj.estError.toInt
  status : Scalar.i32.Spells ((bytes.drop 40).take 4) adj.status.raw.toInt
  constant : Scalar.i64.Spells ((bytes.drop 48).take 8) adj.constant.toInt
  precision : Scalar.i64.Spells ((bytes.drop 56).take 8) adj.precision.toInt
  tolerance : Scalar.i64.Spells ((bytes.drop 64).take 8) adj.tolerance.toInt
  timeSec : Scalar.i64.Spells ((bytes.drop 72).take 8) adj.time.sec.toInt
  timeUsec : Scalar.i64.Spells ((bytes.drop 80).take 8) adj.time.usec.toInt
  tick : Scalar.i64.Spells ((bytes.drop 88).take 8) adj.tick.toInt
  ppsFreq : Scalar.i64.Spells ((bytes.drop 96).take 8) adj.ppsFreq.toInt
  jitter : Scalar.i64.Spells ((bytes.drop 104).take 8) adj.jitter.toInt
  shift : Scalar.i32.Spells ((bytes.drop 112).take 4) adj.shift.toInt
  stability : Scalar.i64.Spells ((bytes.drop 120).take 8) adj.stability.toInt
  jitterCount : Scalar.i64.Spells ((bytes.drop 128).take 8) adj.jitterCount.toInt
  calibrationCount : Scalar.i64.Spells ((bytes.drop 136).take 8) adj.calibrationCount.toInt
  errorCount : Scalar.i64.Spells ((bytes.drop 144).take 8) adj.errorCount.toInt
  stabilityCount : Scalar.i64.Spells ((bytes.drop 152).take 8) adj.stabilityCount.toInt
  tai : Scalar.i32.Spells ((bytes.drop 160).take 4) adj.tai.toInt

/-- A block spells a record exactly when every field is spelled where the layout has it. -/
theorem spelled_iff {adj : ClockAdjustment} {m : Image 208} :
    adj.Spelled m.toList ↔
      ∀ i, (layout.scalar i).Spells (m.slice (layout.offset i) (layout.scalar i).size) (adj.value i) := by
  constructor
  · intro h i
    cases i with
    | modes => exact h.modes
    | offset => exact h.offset
    | freq => exact h.freq
    | maxError => exact h.maxError
    | estError => exact h.estError
    | status => exact h.status
    | constant => exact h.constant
    | precision => exact h.precision
    | tolerance => exact h.tolerance
    | timeSec => exact h.timeSec
    | timeUsec => exact h.timeUsec
    | tick => exact h.tick
    | ppsFreq => exact h.ppsFreq
    | jitter => exact h.jitter
    | shift => exact h.shift
    | stability => exact h.stability
    | jitterCount => exact h.jitterCount
    | calibrationCount => exact h.calibrationCount
    | errorCount => exact h.errorCount
    | stabilityCount => exact h.stabilityCount
    | tai => exact h.tai
  · intro h
    exact ⟨Vector.length_toList, h .modes, h .offset, h .freq, h .maxError, h .estError, h .status, h .constant, h .precision,
      h .tolerance, h .timeSec, h .timeUsec, h .tick, h .ppsFreq, h .jitter, h .shift, h .stability, h .jitterCount,
      h .calibrationCount, h .errorCount, h .stabilityCount, h .tai⟩

/-- A block spells the record that is read from it. -/
theorem spelled_read (m : Image 208) : (Image.read ClockAdjustment m).Spelled m.toList :=
  spelled_iff.2 (Image.spells_slice_read (α := ClockAdjustment) m)

/-- The image of a record that fits spells it. -/
theorem spelled_of {adj : ClockAdjustment} (h : Image.Fits adj) : adj.Spelled (Image.of adj : Image 208).toList :=
  spelled_iff.2 (Image.spells_slice_of h)

/-! ## Blocks read and stored again -/

/-- Storing the record that a block holds clears the padding. -/
theorem of_read (m : Image 208) : Image.of (Image.read ClockAdjustment m) = clearPadding m := by
  apply Image.ext_bytes
  intro p hp
  rw [getElem_clearPadding m hp]
  by_cases hpad : Padding p
  · rw [if_pos hpad]
    exact Image.getElem_of_padding hp ((padding_iff hp).1 hpad)
  · obtain ⟨i, hi⟩ := exists_covers hp hpad
    rw [if_neg hpad]
    exact Image.getElem_of_read hp hi

/-- Blocks hold the same record exactly when they agree outside the padding. -/
theorem read_eq_read_iff {m m' : Image 208} :
    Image.read ClockAdjustment m = Image.read ClockAdjustment m' ↔ ∀ p (hp : p < 208), ¬Padding p → m[p] = m'[p] := by
  rw [Image.read_eq_read_iff]
  constructor
  · intro h p hp hpad
    obtain ⟨i, hi⟩ := exists_covers hp hpad
    exact h i p hp hi
  · intro h i p hp hi
    exact h p hp (not_padding_of_covers hp hi)

/-- The record that a block holds has an image, the block with its padding cleared. -/
theorem image?_read_eq (m : Image 208) : (Image.read ClockAdjustment m).image? = .ok (clearPadding m) := by
  rw [image?_of_fits (Image.fits_read m), of_read]

/-- Every block of 208 bytes can be read as a record, which is the one that its bytes spell, and stored again, and this clears
the bytes 4 to 7, 44 to 47, 116 to 119 and 164 to 207 and keeps the other 152. So the record is as good as those bytes: two
blocks hold the same record exactly when they agree on them. -/
theorem image?_read (m : Image 208) :
    (Image.read ClockAdjustment m).Spelled m.toList ∧
      (∃ m', (Image.read ClockAdjustment m).image? = .ok m' ∧
          ∀ p (hp : p < 208), m'[p] = if Padding p then 0 else m[p]) ∧
      (List.range 208).countP (fun p => ¬Padding p) = 152 ∧
      ∀ m', Image.read ClockAdjustment m = Image.read ClockAdjustment m' ↔
        ∀ p (hp : p < 208), ¬Padding p → m[p] = m'[p] := by
  refine ⟨spelled_read m, ⟨clearPadding m, image?_read_eq m, fun p hp => getElem_clearPadding m hp⟩, by decide +kernel, ?_⟩
  intro m'
  exact read_eq_read_iff

/-! ## Records stored and read again -/

/-- An image was made of a record that fits. -/
theorem of_image?_eq_ok {adj : ClockAdjustment} {m : Image 208} (h : adj.image? = .ok m) :
    Image.Fits adj ∧ m = Image.of adj := by
  by_cases hf : Image.Fits adj
  · rw [image?_of_fits hf] at h
    exact ⟨hf, (Except.ok.inj h).symm⟩
  · rw [image?_of_not_fits hf] at h
    nomatch h

/-- Records with the same image are equal. -/
theorem eq_of_image?_eq {adj adj' : ClockAdjustment} {m : Image 208} (h : adj.image? = .ok m) (h' : adj'.image? = .ok m) :
    adj = adj' := by
  obtain ⟨hf, rfl⟩ := of_image?_eq_ok h
  obtain ⟨hf', he⟩ := of_image?_eq_ok h'
  rw [← Image.read_of hf, he, Image.read_of hf']

/-- A record has an image exactly when its `shift` fits 32 bits, and without an image the failure is that a value is too
large. The image spells the record and is zero in the padding; the record is read back from it whole, also after the image was
copied over any block; and records that differ in a field have images that differ in a byte. -/
theorem image?_ok_iff (adj : ClockAdjustment) :
    ((∃ m, adj.image? = .ok m) ↔ Scalar.i32.Holds adj.shift.toInt) ∧
      (¬Scalar.i32.Holds adj.shift.toInt → adj.image? = .error .valueTooLarge) ∧
      ∀ m, adj.image? = .ok m →
        adj.Spelled m.toList ∧
          (∀ p (hp : p < 208), Padding p → m[p] = 0) ∧
          Image.read ClockAdjustment m = adj ∧
          (∀ block : Image 208, Image.read ClockAdjustment (block.fill m.toList) = adj) ∧
          ∀ (adj' : ClockAdjustment) (m' : Image 208), adj'.image? = .ok m' → (∃ i, adj.value i ≠ adj'.value i) →
            ∃ p, ∃ hp : p < 208, m[p] ≠ m'[p] := by
  refine ⟨⟨?_, ?_⟩, ?_, ?_⟩
  · rintro ⟨m, h⟩
    exact fits_iff.1 (of_image?_eq_ok h).1
  · intro h
    exact ⟨Image.of adj, image?_of_fits (fits_iff.2 h)⟩
  · intro h
    exact image?_of_not_fits fun hf => h (fits_iff.1 hf)
  · intro m h
    obtain ⟨hf, rfl⟩ := of_image?_eq_ok h
    have hr := Image.read_of hf
    refine ⟨spelled_of hf, ?_, hr, ?_, ?_⟩
    · intro p hp hpad
      exact Image.getElem_of_padding hp ((padding_iff hp).1 hpad)
    · intro block
      rw [Image.fill_toList, hr]
    · rintro adj' m' h' ⟨i, hi⟩
      apply Image.exists_getElem_ne
      rintro rfl
      have heq : adj = adj' := eq_of_image?_eq h h'
      exact hi (by rw [heq])

/-- A record of negative values and full masks, at the lower end of the range of `shift`, has an image and is read back. The four
bytes of `shift` stand at 112. -/
theorem image?_ok_iff_extreme :
    Scalar.i32.Holds (-0x80000000) ∧
      ∃ m, ({ modes := ⟨0xffffffff⟩, offset := -1, status := ⟨-1⟩, shift := -0x80000000, tai := -1 } :
          ClockAdjustment).image? = .ok m ∧
        (m.toList.drop 112).take 4 = [0, 0, 0, 0x80] ∧
        Image.read ClockAdjustment m =
          { modes := ⟨0xffffffff⟩, offset := -1, status := ⟨-1⟩, shift := -0x80000000, tai := -1 } := by
  have h : Scalar.i32.Holds (-0x80000000) := by decide
  obtain ⟨m, hm⟩ := (image?_ok_iff
    { modes := ⟨0xffffffff⟩, offset := -1, status := ⟨-1⟩, shift := -0x80000000, tai := -1 }).1.2 h
  obtain ⟨hspelled, -, hread, -⟩ := (image?_ok_iff _).2.2 m hm
  exact ⟨h, m, hm, hspelled.shift.eq_encode.trans (by decide), hread⟩

end ClockAdjustment

end KernelControl
