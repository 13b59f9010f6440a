/-!
# Images: the bytes of a structure in memory

A structure that is handed to the kernel is seen by it as a fixed number of bytes. `Image n` is such a block, byte 0
at the lowest address. The kernel answers by writing bytes over the start of the block (`fill`), as many as it likes
and never past the end; a reader may keep only the bytes that were reported (`keepFirst`).
-/

namespace KernelControl

/-- A block of `n` bytes, in memory order. -/
abbrev Image (n : Nat) : Type := Vector UInt8 n

namespace Image

/-- The block in which every byte is zero. -/
def zero (n : Nat) : Image n := Vector.ofFn fun _ => 0

/-- The block after `written` was copied over its start. Bytes past the end of the block are dropped, and bytes that
`written` does not reach stay as they were. -/
def fill {n : Nat} (m : Image n) (written : List UInt8) : Image n :=
  Vector.ofFn fun p => (written[p.val]?).getD m[p]

/-- The block with every byte from position `count` on cleared. -/
def keepFirst {n : Nat} (m : Image n) (count : Nat) : Image n :=
  Vector.ofFn fun p => if p.val < count then m[p] else 0

/-- The `length` bytes that start at `offset`, fewer if the block ends before. -/
def slice {n : Nat} (m : Image n) (offset length : Nat) : List UInt8 :=
  (m.toList.drop offset).take length

/-- Two images are equal when their bytes are. -/
theorem ext_bytes {n : Nat} {a b : Image n} (h : ∀ p (hp : p < n), a[p] = b[p]) : a = b :=
  Vector.ext h

/-- A byte after a write is the one written there, or else the one before. -/
theorem getElem_fill {n p : Nat} (m : Image n) (written : List UInt8) (hp : p < n) :
    (m.fill written)[p] = (written[p]?).getD m[p] := by
  simp [fill]

/-- Where the kernel wrote, its byte is read. -/
theorem getElem_fill_of_lt {n p : Nat} (m : Image n) (written : List UInt8) (hp : p < n)
    (hw : p < written.length) : (m.fill written)[p] = written[p] := by
  simp [getElem_fill, hw]

/-- Where the kernel did not write, the byte before is read. -/
theorem getElem_fill_of_le {n p : Nat} (m : Image n) (written : List UInt8) (hp : p < n)
    (hw : written.length ≤ p) : (m.fill written)[p] = m[p] := by
  simp [getElem_fill, hw]

/-- Writing nothing changes nothing. -/
@[simp] theorem fill_nil {n : Nat} (m : Image n) : m.fill [] = m :=
  ext_bytes fun p hp => by simp [getElem_fill]

/-- Writing a whole image gives that image, whatever was there. -/
@[simp] theorem fill_toList {n : Nat} (m written : Image n) : m.fill written.toList = written :=
  ext_bytes fun p hp => by simp [getElem_fill, hp]

/-- The bytes kept are those below the count. -/
theorem getElem_keepFirst {n p : Nat} (m : Image n) (count : Nat) (hp : p < n) :
    (m.keepFirst count)[p] = if p < count then m[p] else 0 := by
  simp [keepFirst]

/-- A slice that lies inside the block has the length asked for. -/
theorem length_slice {n offset length : Nat} (m : Image n) (h : offset + length ≤ n) :
    (m.slice offset length).length = length := by
  simp [slice]
  omega

/-- Byte `k` of a slice is byte `offset + k` of the block. -/
theorem getElem?_slice {n offset length k : Nat} (m : Image n) (hk : k < length) :
    (m.slice offset length)[k]? = m[offset + k]? := by
  simp [slice, hk]

/-- Slices are equal when the bytes they cover are. -/
theorem slice_congr {n offset length : Nat} {a b : Image n}
    (h : ∀ p (hp : p < n), offset ≤ p → p < offset + length → a[p] = b[p]) :
    a.slice offset length = b.slice offset length := by
  apply List.ext_getElem?
  intro k
  by_cases hk : k < length
  · rw [getElem?_slice a hk, getElem?_slice b hk]
    by_cases hp : offset + k < n
    · simp [hp, h (offset + k) hp (by omega) (by omega)]
    · simp [hp]
  · rw [slice, slice, List.getElem?_take, List.getElem?_take, if_neg hk, if_neg hk]

end Image

end KernelControl
