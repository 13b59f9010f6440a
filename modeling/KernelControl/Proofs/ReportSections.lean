import KernelControl.Proofs.SingleCall
import KernelControl.Report

/-!
# The report, section by section

Each section of the report makes one call (`callsOnce_sections`), so the sections do not see each other: a section is the text that
its program gives when it is run alone on its own reply, whatever the kernel answers to the calls before and after it
(`run_sections`). The calls themselves are always the same eight (`report_sections`).
-/

namespace KernelControl

/-! ## Operations that make one call -/

section Operations

variable (clock : ClockId) (thread : ThreadId)

theorem ClockId.callsOnce_getTime :
    clock.getTime.CallsOnce ⟨CallNumber.clockGettime, [clock.operand, .image (Image.zero 16)]⟩ :=
  (Program.callsOnce_perform _ _).bind fun _ => ⟨_, rfl⟩

theorem ThreadId.callsOnce_getAffinity (mask : CpuSet) :
    (thread.getAffinity mask).CallsOnce
      ⟨CallNumber.schedGetaffinity, [thread.operand, .size 128, .image (Image.of mask)]⟩ :=
  (Program.callsOnce_perform _ _).bind fun _ => ⟨_, rfl⟩

theorem ThreadId.callsOnce_getAttr (flags : UInt32) :
    (thread.getAttr flags).CallsOnce
      ⟨CallNumber.schedGetattr, [thread.operand, .image (Image.of ({} : SchedAttr)), .uint32 56, .uint32 flags]⟩ :=
  (Program.callsOnce_perform _ _).bind fun _ => ⟨_, rfl⟩

/-- An adjustment makes its call if the record fits. -/
theorem ClockId.callsOnce_adjustTime {adj : ClockAdjustment} (h : Image.Fits adj) :
    (clock.adjustTime adj).CallsOnce ⟨CallNumber.clockAdjtime, [clock.operand, .image (Image.of adj)]⟩ := by
  rw [adjustTime, ClockAdjustment.image?_of_fits h]
  exact (Program.callsOnce_perform _ _).bind fun _ => ⟨_, rfl⟩

end Operations

namespace Report

/-! ## Sections -/

/-- The calls of the report: the five clocks are read into zeroed structures, then come the affinity over an empty mask and the
attributes over a default record, both of the calling thread, and an adjustment of the first clock that applies nothing. -/
def calls : List Call :=
  [0, 1, 4, 7, 11].map (fun clock => ⟨228, [.word clock, .memory (List.replicate 16 0)]⟩) ++
    [⟨204, [.word 0, .word 128, .memory (List.replicate 128 0)]⟩,
      ⟨315, [.word 0, .memory (56 :: List.replicate 55 0), .word 56, .word 0]⟩,
      ⟨305, [.word 0, .memory (List.replicate 208 0)]⟩]

/-- The texts of the sections, when the kernel gives these replies. -/
def texts (replies : List Reply) : List String := ((sections.mapM id).run replies).1

theorem callsOnce_clockSection (name : String) (clock : ClockId) :
    (clockSection name clock).CallsOnce ⟨CallNumber.clockGettime, [clock.operand, .image (Image.zero 16)]⟩ :=
  clock.callsOnce_getTime.bind fun
    | .ok _ => ⟨_, rfl⟩
    | .error _ => ⟨_, rfl⟩

theorem callsOnce_affinitySection :
    affinitySection.CallsOnce
      ⟨CallNumber.schedGetaffinity, [ThreadId.self.operand, .size 128, .image (Image.of CpuSet.empty)]⟩ :=
  (ThreadId.self.callsOnce_getAffinity .empty).bind fun
    | (.ok _, _) => ⟨_, rfl⟩
    | (.error _, _) => ⟨_, rfl⟩

theorem callsOnce_policySection :
    policySection.CallsOnce
      ⟨CallNumber.schedGetattr,
        [ThreadId.self.operand, .image (Image.of ({} : SchedAttr)), .uint32 56, .uint32 0]⟩ :=
  (ThreadId.self.callsOnce_getAttr 0).bind fun
    | .ok _ => ⟨_, rfl⟩
    | .error _ => ⟨_, rfl⟩

theorem callsOnce_disciplineSection :
    disciplineSection.CallsOnce
      ⟨CallNumber.clockAdjtime, [ClockId.realtime.operand, .image (Image.of ({} : ClockAdjustment))]⟩ :=
  (ClockId.realtime.callsOnce_adjustTime (ClockAdjustment.fits_iff.2 (by decide))).bind fun
    | (.ok _, _) => ⟨_, rfl⟩
    | (.error _, _) => ⟨_, rfl⟩

/-- The calls of the sections. -/
theorem calls_eq :
    calls = clocks.map (fun entry => ⟨CallNumber.clockGettime, [entry.2.operand, .image (Image.zero 16)]⟩) ++
      [⟨CallNumber.schedGetaffinity, [ThreadId.self.operand, .size 128, .image (Image.of CpuSet.empty)]⟩,
        ⟨CallNumber.schedGetattr,
          [ThreadId.self.operand, .image (Image.of ({} : SchedAttr)), .uint32 56, .uint32 0]⟩,
        ⟨CallNumber.clockAdjtime, [ClockId.realtime.operand, .image (Image.of ({} : ClockAdjustment))]⟩] := by
  decide +kernel

/-- Each section makes its own of the calls, and no other. -/
theorem callsOnce_sections : ∀ e ∈ sections.zip calls, e.1.CallsOnce e.2 := by
  rw [calls_eq, sections, List.zip_append (by simp), List.zip_map', List.forall_mem_append, List.forall_mem_map]
  constructor
  · intro entry _
    exact callsOnce_clockSection entry.1 entry.2
  · simp only [List.zip_cons_cons, List.zip_nil_left, List.forall_mem_cons]
    exact ⟨callsOnce_affinitySection, callsOnce_policySection, callsOnce_disciplineSection, fun _ h => nomatch h⟩

/-! ## The whole report -/

/-- A section of the report is what its program gives for its own reply. -/
theorem run_sections (replies : List Reply) :
    (sections.mapM id).run replies = (sections.mapIdx fun k s => (s.run [replies.getD k {}]).1, calls) :=
  Program.run_mapM_id sections calls rfl callsOnce_sections replies

theorem getElem?_texts (replies : List Reply) (k : Nat) :
    (texts replies)[k]? = sections[k]?.map fun s => (s.run [replies.getD k {}]).1 := by
  rw [texts, run_sections, List.getElem?_mapIdx]

theorem length_texts (replies : List Reply) : (texts replies).length = 8 := by
  rw [texts, run_sections, List.length_mapIdx]
  rfl

/-- The report is its texts, one after the other. -/
theorem run_report (replies : List Reply) : report.run replies = (String.join (texts replies), calls) := by
  have hcalls : ((sections.mapM id).run replies).2 = calls := by rw [run_sections]
  rw [report, Program.run_bind]
  simp only [Program.run_pure, List.append_nil, texts, hcalls]

/-- A text depends on its own reply only. -/
theorem getElem?_texts_congr {replies replies' : List Reply} {j : Nat} (h : j < 8 → replies'.getD j {} = replies.getD j {}) :
    (texts replies')[j]? = (texts replies)[j]? := by
  by_cases hj : j < 8
  · rw [getElem?_texts, getElem?_texts, h hj]
  · have hle : 8 ≤ j := Nat.le_of_not_lt hj
    rw [List.getElem?_eq_none (length_texts replies' ▸ hle), List.getElem?_eq_none (length_texts replies ▸ hle)]

/-- The report makes the same eight calls whatever the kernel replies, and it is eight texts one after the other. Text `k` is what
section `k` gives when it is run alone on reply `k`, where a reply that is missing is all zero; so if two runs differ in one reply,
as when a call fails in one and not in the other, they differ in the text of that section at most. -/
theorem report_sections (replies : List Reply) :
    report.run replies = (String.join (texts replies), calls) ∧
      (texts replies).length = 8 ∧
      (∀ k : Nat, (texts replies)[k]? = sections[k]?.map fun s => (s.run [replies.getD k {}]).1) ∧
      ∀ (k : Nat) (replies' : List Reply), (∀ j < 8, j ≠ k → replies'.getD j {} = replies.getD j {}) →
        ∀ j, j ≠ k → (texts replies')[j]? = (texts replies)[j]? := by
  refine ⟨run_report replies, length_texts replies, getElem?_texts replies, ?_⟩
  intro k replies' h j hj
  exact getElem?_texts_congr fun hlt => h j hlt hj

/-- The kernel refuses to read the second clock in one of two runs: the text of the third clock is the same in both. -/
theorem report_sections_second_refused :
    (∀ j < 8, j ≠ 1 →
        [{}, { result := -1, errno := 22 }, { written := [9] }].getD j ({} : Reply) =
          [{}, { written := [7] }, { written := [9] }].getD j {}) ∧
      (texts [{}, { result := -1, errno := 22 }, { written := [9] }])[1]? =
        some "monotonic      error: Invalid argument\n" ∧
      (texts [{}, { result := -1, errno := 22 }, { written := [9] }])[2]? =
        (texts [{}, { written := [7] }, { written := [9] }])[2]? := by
  have h : ∀ j < 8, j ≠ 1 →
      [{}, { result := -1, errno := 22 }, { written := [9] }].getD j ({} : Reply) =
        [{}, { written := [7] }, { written := [9] }].getD j {} := by decide
  exact ⟨h, by decide +kernel, (report_sections [{}, { written := [7] }, { written := [9] }]).2.2.2 1 _ h 2 (by decide)⟩

end Report

end KernelControl
