import KernelControl.Proofs.Layout
import KernelControl.Proofs.SingleCall
import KernelControl.Thread

/-!
# Attributes set and read

The attributes of a thread lie in memory without a gap: a record and its 56 bytes say the same (`SchedAttr.spelled_read`,
`SchedAttr.of_read`). Setting attributes hands the kernel the bytes of the record with its true size in the first field
(`SchedAttr.of_sized`); reading them gives the record of what the kernel wrote over a default one. So what was set is what is
read, but for the size, and what was read can be set again (`ThreadId.getAttr_setAttr`).
-/

namespace KernelControl

namespace SchedAttr

/-! ## Bytes of a record -/

/-- The bytes are those of the record: its fields one after the other, each low byte first. -/
structure Spelled (attr : SchedAttr) (bytes : List UInt8) : Prop where
  size : Scalar.u32.Spells (bytes.take 4) attr.size.toNat
  policy : Scalar.u32.Spells ((bytes.drop 4).take 4) attr.policy.toNat
  flags : Scalar.u64.Spells ((bytes.drop 8).take 8) attr.flags.toNat
  nice : Scalar.i32.Spells ((bytes.drop 16).take 4) attr.nice.toInt
  priority : Scalar.u32.Spells ((bytes.drop 20).take 4) attr.priority.toNat
  runtime : Scalar.u64.Spells ((bytes.drop 24).take 8) attr.runtime.toNat
  deadline : Scalar.u64.Spells ((bytes.drop 32).take 8) attr.deadline.toNat
  period : Scalar.u64.Spells ((bytes.drop 40).take 8) attr.period.toNat
  utilMin : Scalar.u32.Spells ((bytes.drop 48).take 4) attr.utilMin.toNat
  utilMax : Scalar.u32.Spells (bytes.drop 52) attr.utilMax.toNat

/-- There are 56 of them. -/
theorem Spelled.length_eq {attr : SchedAttr} {bytes : List UInt8} (h : attr.Spelled bytes) : bytes.length = 56 := by
  have hl := h.utilMax.2.1
  rw [List.length_drop] at hl
  have hs : Scalar.u32.size = 4 := rfl
  omega

/-- A block spells the record that is read from it. -/
theorem spelled_read (m : Image 56) : (Image.read SchedAttr m).Spelled m.toList := by
  have h : ∀ i, (layout.scalar i).Spells (m.slice (layout.offset i) (layout.scalar i).size) ((Image.read SchedAttr m).value i) :=
    Image.spells_slice_read (α := SchedAttr) m
  have hlast : (m.toList.drop 52).take 4 = m.toList.drop 52 := List.take_of_length_le (by simp)
  exact ⟨h .size, h .policy, h .flags, h .nice, h .priority, h .runtime, h .deadline, h .period, h .utilMin,
    hlast ▸ h .utilMax⟩

/-- The image of a record spells it. -/
theorem spelled_of (attr : SchedAttr) : attr.Spelled (Image.of attr : Image 56).toList := by
  have h := spelled_read (Image.of attr)
  rwa [Image.read_of attr.fits] at h

/-- Every byte belongs to a field. -/
theorem exists_covers : ∀ p < 56, ∃ i, layout.Covers i p := by
  have h : ∀ p < 56, ∃ i ∈ layout.fields, layout.Covers i p := by decide
  exact fun p hp => (h p hp).imp fun _ => And.right

/-- Storing the record that a block holds gives the block back. -/
theorem of_read (m : Image 56) : Image.of (Image.read SchedAttr m) = m := Image.of_read_of_covers exists_covers m

/-! ## The true size -/

/-- With its true size in it, a record differs from what it was in the first four bytes at most. -/
theorem of_sized (attr : SchedAttr) :
    (Image.of { attr with size := 56 } : Image 56) = (Image.of attr : Image 56).fill [56, 0, 0, 0] := by
  have hover := Image.overlay_read_fill attr.fits [56, 0, 0, 0]
  have hread : { attr with size := 56 } = Image.read SchedAttr ((Image.of attr : Image 56).fill [56, 0, 0, 0]) := by
    apply Image.eq_of_values_eq
    funext i
    by_cases hi : i = .size
    · subst hi
      have hsize : Scalar.u32.decode [56, 0, 0, 0] = 56 := by decide
      exact ((Scalar.spells_iff.1 (hover.inside .size (by decide))).2.trans hsize).symm
    · -- every other field begins where the size ends or after it
      have hp : 4 ≤ layout.offset i := by
        cases i
        case size => exact absurd rfl hi
        all_goals decide
      have hv : value { attr with size := 56 } i = attr.value i := by
        cases i
        case size => exact absurd rfl hi
        all_goals rfl
      exact hv.trans (hover.outside i hp).symm
  rw [hread, of_read]

/-- The bytes of a default record: its size, and zeros. -/
def defaultBytes : List UInt8 := 56 :: List.replicate 55 0

theorem toList_of_default : (Image.of ({} : SchedAttr) : Image 56).toList = defaultBytes := by decide +kernel

/-- The bytes of a default record after a write over their start. -/
def overDefault (written : List UInt8) : List UInt8 := written.take 56 ++ defaultBytes.drop written.length

/-- What is read after a write over a default record is the record of these bytes. -/
theorem toList_fill_default (written : List UInt8) :
    ((Image.of ({} : SchedAttr) : Image 56).fill written).toList = overDefault written := by
  rw [Image.toList_fill, toList_of_default, overDefault]

end SchedAttr

namespace ThreadId

open SchedAttr

variable (thread : ThreadId)

/-! ## Setting and reading -/

/-- The call that sets attributes: the thread, the bytes of the record and the flags. -/
def setAttrCall (bytes : List UInt8) (flags : UInt32) : Call := ⟨314, [thread.operand, .memory bytes, .uint32 flags]⟩

theorem callsOnce_setAttr (attr : SchedAttr) (flags : UInt32) :
    (thread.setAttr attr flags).CallsOnce
      (thread.setAttrCall (Image.of { attr with size := 56 } : Image 56).toList flags) :=
  (Program.callsOnce_perform _ _).bind fun _ => ⟨_, rfl⟩

/-- Setting hands the kernel the bytes of the record with its true size. -/
theorem calls_setAttr (attr : SchedAttr) (flags : UInt32) (replies : List Reply) :
    ((thread.setAttr attr flags).run replies).2 =
      [thread.setAttrCall (Image.of { attr with size := 56 } : Image 56).toList flags] :=
  congrArg Prod.snd ((thread.callsOnce_setAttr attr flags).run_eq replies)

/-- Setting the same attributes time after time, of whichever threads, hands the kernel the same bytes each time. -/
theorem calls_mapM_setAttr (attr : SchedAttr) (requests : List (ThreadId × UInt32)) (replies : List Reply) :
    ((requests.mapM fun r : ThreadId × UInt32 => r.1.setAttr attr r.2).run replies).2 =
      requests.map fun r => r.1.setAttrCall (Image.of { attr with size := 56 } : Image 56).toList r.2 := by
  have honce : ∀ e ∈ (requests.map fun r => r.1.setAttr attr r.2).zip
      (requests.map fun r => r.1.setAttrCall (Image.of { attr with size := 56 } : Image 56).toList r.2),
      e.1.CallsOnce e.2 := by
    rw [List.zip_map', List.forall_mem_map]
    exact fun r _ => r.1.callsOnce_setAttr attr r.2
  have hrun := Program.run_mapM_id _ _ (by simp) honce replies
  rw [List.mapM_map] at hrun
  exact congrArg Prod.snd hrun

/-- A read that succeeds gives the record of what the kernel wrote over a default one. -/
theorem getAttr_of_not_neg (flags : UInt32) {reply : Reply} (rest : List Reply) (h : 0 ≤ reply.result) :
    ((thread.getAttr flags).run (reply :: rest)).1 =
      .ok (Image.read SchedAttr ((Image.of ({} : SchedAttr)).fill reply.written)) := by
  rw [run_getAttr, List.headD_cons, Reply.outcome_of_not_neg (Int64.not_lt.2 h)]
  rfl

/-- Whatever the kernel replies, setting attributes hands it the 56 bytes of the record with its true size in place of the size it
has, and however often the record is set, for whichever threads, the bytes are the same. A read that succeeds gives the record of
the bytes that the kernel wrote, completed with those of a default record. So if the kernel writes what it was handed, what is read
is what was set, with its true size; and if what was read is set again, the kernel is handed the bytes that were read, but for the
first four, which are those of the true size. -/
theorem getAttr_setAttr :
    (∀ attr : SchedAttr, ∃ bytes : List UInt8, { attr with size := 56 }.Spelled bytes ∧
        (∀ (thread : ThreadId) (flags : UInt32) (replies : List Reply),
          ((thread.setAttr attr flags).run replies).2 = [thread.setAttrCall bytes flags]) ∧
        (∀ (requests : List (ThreadId × UInt32)) (replies : List Reply),
          ((requests.mapM fun r : ThreadId × UInt32 => r.1.setAttr attr r.2).run replies).2 =
            requests.map fun r => r.1.setAttrCall bytes r.2) ∧
        ∀ (reader : ThreadId) (flags : UInt32) (reply : Reply) (rest : List Reply),
          0 ≤ reply.result → reply.written.take 56 = bytes →
            ((reader.getAttr flags).run (reply :: rest)).1 = .ok { attr with size := 56 }) ∧
      ∀ (reader : ThreadId) (readFlags : UInt32) (reply : Reply) (rest : List Reply), 0 ≤ reply.result →
        ∃ attr : SchedAttr, ((reader.getAttr readFlags).run (reply :: rest)).1 = .ok attr ∧
          attr.Spelled (overDefault reply.written) ∧
          ∀ (thread : ThreadId) (flags : UInt32) (replies : List Reply),
            ((thread.setAttr attr flags).run replies).2 =
              [thread.setAttrCall ([0x38, 0, 0, 0] ++ (overDefault reply.written).drop 4) flags] := by
  constructor
  · intro attr
    refine ⟨_, spelled_of _, fun thread => thread.calls_setAttr attr, calls_mapM_setAttr attr, ?_⟩
    intro reader flags reply rest hr hw
    rw [reader.getAttr_of_not_neg flags rest hr, ← Image.fill_take, hw, Image.fill_toList, Image.read_of (fits _)]
  · intro reader readFlags reply rest hr
    refine ⟨_, reader.getAttr_of_not_neg readFlags rest hr, ?_, ?_⟩
    · rw [← toList_fill_default]
      exact spelled_read _
    · intro thread flags replies
      rw [calls_setAttr, of_sized, of_read, Image.toList_fill, toList_fill_default]
      rfl

/-- A record with a wrong size is set and read back from a write that goes on past the end; of another record the kernel writes
five bytes, and the record that is read is set again. -/
theorem getAttr_setAttr_wrong_size :
    ∃ bytes attr,
      ((self.setAttr { size := 7, policy := 6, nice := -20, deadline := -1 } 1).run []).2 = [self.setAttrCall bytes 1] ∧
      ((self.getAttr 0).run [{ written := bytes ++ [1, 2, 3] }]).1 = .ok { policy := 6, nice := -20, deadline := -1 } ∧
      ((self.getAttr 0).run [{ result := 5, errno := 1, written := [1, 0, 0, 0, 2] }]).1 = .ok attr ∧
      ((self.setAttr attr 0).run []).2 = [self.setAttrCall (56 :: 0 :: 0 :: 0 :: 2 :: List.replicate 51 0) 0] := by
  obtain ⟨bytes, hspelled, hset, -, hread⟩ :=
    getAttr_setAttr.1 { size := 7, policy := 6, nice := -20, deadline := -1 }
  obtain ⟨attr, hget, -, hagain⟩ :=
    getAttr_setAttr.2 self 0 { result := 5, errno := 1, written := [1, 0, 0, 0, 2] } [] (by decide)
  refine ⟨bytes, attr, hset self 1 [], ?_, hget, hagain self 0 []⟩
  exact hread self 0 { written := bytes ++ [1, 2, 3] } [] (Int64.le_refl 0) (List.take_left' hspelled.length_eq)

end ThreadId

end KernelControl
