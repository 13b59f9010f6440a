import KernelControl.CpuSet.Chain

/-!
# What a chain of updates leaves

A chain executes the updates before the first one whose index names no processor (`executable`), stops there, and keeps the mask
that the executed updates made (`Outcome`, by induction on the chain). One update decides about the processor that it names and
about no other (`contains_apply`), so in the mask that is left the last update to name a processor decides about it, and the
mask at the start about the processors that none named (`contains_foldlM`). Both together are `isSet_mask_chain`.
-/

namespace KernelControl

namespace CpuSet

/-! ## Indices -/

theorem set_of_lt (m : CpuSet) {i : Nat} (h : i < 1024) : m.set i = .ok (m.insert ⟨i, h⟩) := by
  rw [set, cpuAt_of_lt h]
  rfl

theorem set_of_le (m : CpuSet) {i : Nat} (h : 1024 ≤ i) : m.set i = .error .outOfRange := by
  rw [set, cpuAt_of_le h]
  rfl

theorem clear_of_lt (m : CpuSet) {i : Nat} (h : i < 1024) : m.clear i = .ok (m.erase ⟨i, h⟩) := by
  rw [clear, cpuAt_of_lt h]
  rfl

theorem clear_of_le (m : CpuSet) {i : Nat} (h : 1024 ≤ i) : m.clear i = .error .outOfRange := by
  rw [clear, cpuAt_of_le h]
  rfl

/-- A processor below 1024 can be asked for. -/
theorem isSet_of_lt (m : CpuSet) {c : Nat} (h : c < 1024) : m.isSet c = .ok (m.contains ⟨c, h⟩) := by
  rw [isSet, cpuAt_of_lt h]
  rfl

/-- An index from 1024 on is refused, and no processor answers for it. -/
theorem isSet_of_le (m : CpuSet) {c : Nat} (h : 1024 ≤ c) : m.isSet c = .error .outOfRange := by
  rw [isSet, cpuAt_of_le h]
  rfl

/-- An index is set when it names a processor of the mask. -/
theorem isSet_eq_ok_iff {m : CpuSet} {i : Nat} : m.isSet i = .ok true ↔ ∃ h : i < 1024, m.contains ⟨i, h⟩ = true := by
  by_cases h : i < 1024
  · simp [isSet_of_lt m h, h]
  · simp [isSet_of_le m (Nat.le_of_not_lt h), h]

/-- Exactly the indices from 1024 on are refused. -/
theorem isSet_eq_error_iff (m : CpuSet) {c : Nat} : m.isSet c = .error .outOfRange ↔ 1024 ≤ c := by
  constructor
  · intro h
    apply Nat.le_of_not_lt
    intro hc
    rw [isSet_of_lt m hc] at h
    nomatch h
  · exact isSet_of_le m

/-! ## One update -/

namespace Update

/-- The index that the update names. -/
def index : Update → Nat
  | .set index => index
  | .clear index => index

/-- An update that names no processor is refused. -/
theorem apply_of_le (m : CpuSet) {u : Update} (h : 1024 ≤ u.index) : u.apply m = .error .outOfRange := by
  cases u with
  | set index => exact m.set_of_le h
  | clear index => exact m.clear_of_le h

/-- An update that names a processor is executed. -/
theorem exists_apply_eq_ok (m : CpuSet) {u : Update} (h : u.index < 1024) : ∃ next, u.apply m = .ok next := by
  cases u with
  | set index => exact ⟨_, m.set_of_lt h⟩
  | clear index => exact ⟨_, m.clear_of_lt h⟩

/-- An update that was executed named a processor. -/
theorem index_lt_of_apply {m next : CpuSet} {u : Update} (h : u.apply m = .ok next) : u.index < 1024 := by
  apply Nat.lt_of_not_le
  intro hu
  rw [apply_of_le m hu] at h
  nomatch h

/-- After an update a processor is in the mask if the update set it, or named another one and it was there before. -/
theorem contains_apply {m next : CpuSet} {u : Update} (h : u.apply m = .ok next) (c : Cpu) :
    next.contains c = true ↔ u = .set c.val ∨ u.index ≠ c.val ∧ m.contains c = true := by
  have hu := index_lt_of_apply h
  cases u with
  | set index =>
    obtain rfl : m.insert ⟨index, hu⟩ = next := Except.ok.inj ((m.set_of_lt hu).symm.trans h)
    rw [contains_insert, Bool.or_eq_true, decide_eq_true_iff, Fin.ext_iff]
    by_cases hc : c.val = index
    · simp [hc]
    · simp [hc, Update.index, Ne.symm hc]
  | clear index =>
    obtain rfl : m.erase ⟨index, hu⟩ = next := Except.ok.inj ((m.clear_of_lt hu).symm.trans h)
    rw [contains_erase, Bool.and_eq_true, Bool.not_eq_true', decide_eq_false_iff_not, Fin.ext_iff]
    by_cases hc : c.val = index
    · simp [hc, Update.index]
    · simp [hc, Update.index, Ne.symm hc]

end Update

/-! ## Updates that are all executed -/

/-- Some update sets the processor, and none after it names the processor. -/
def LastSets (c : Nat) (updates : List Update) : Prop :=
  ∃ before after, updates = before ++ .set c :: after ∧ ∀ u ∈ after, u.index ≠ c

theorem lastSets_cons {c : Nat} {u : Update} {updates : List Update} :
    LastSets c (u :: updates) ↔ LastSets c updates ∨ u = .set c ∧ ∀ v ∈ updates, v.index ≠ c := by
  constructor
  · rintro ⟨before, after, h, hafter⟩
    cases before with
    | nil =>
      obtain ⟨rfl, rfl⟩ := List.cons.inj h
      exact Or.inr ⟨rfl, hafter⟩
    | cons v before =>
      obtain ⟨-, rfl⟩ := List.cons.inj h
      exact Or.inl ⟨before, after, rfl, hafter⟩
  · rintro (⟨before, after, rfl, hafter⟩ | ⟨rfl, hafter⟩)
    · exact ⟨u :: before, after, rfl, hafter⟩
    · exact ⟨[], updates, rfl, hafter⟩

/-- Updates are executed one after the other. -/
theorem foldlM_apply_cons {m m' : CpuSet} {u : Update} {updates : List Update}
    (h : (u :: updates).foldlM Update.apply m = .ok m') :
    ∃ next, u.apply m = .ok next ∧ updates.foldlM Update.apply next = .ok m' := by
  rw [List.foldlM_cons] at h
  cases hu : u.apply m with
  | error e =>
    rw [hu] at h
    nomatch h
  | ok next =>
    rw [hu] at h
    exact ⟨next, rfl, h⟩

/-- After updates that were all executed a processor is in the mask if the last update to name it set it, or none named it and
it was there at the start. -/
theorem contains_foldlM {m m' : CpuSet} {updates : List Update} (h : updates.foldlM Update.apply m = .ok m') (c : Cpu) :
    m'.contains c = true ↔
      LastSets c.val updates ∨ (∀ u ∈ updates, u.index ≠ c.val) ∧ m.contains c = true := by
  induction updates generalizing m with
  | nil =>
    obtain rfl : m = m' := Except.ok.inj h
    constructor
    · intro hc
      exact Or.inr ⟨fun _ hu => (nomatch hu), hc⟩
    · rintro (⟨before, after, hn, -⟩ | hc)
      · exact absurd hn.symm (List.append_ne_nil_of_right_ne_nil _ (List.cons_ne_nil _ _))
      · exact hc.2
  | cons u updates ih =>
    obtain ⟨next, hu, hrest⟩ := foldlM_apply_cons h
    rw [ih hrest, Update.contains_apply hu, lastSets_cons, List.forall_mem_cons]
    -- what is left is which of `u` and the updates after it names the processor
    constructor
    · rintro (hl | ⟨hn, hs | ⟨hi, hc⟩⟩)
      · exact Or.inl (Or.inl hl)
      · exact Or.inl (Or.inr ⟨hs, hn⟩)
      · exact Or.inr ⟨⟨hi, hn⟩, hc⟩
    · rintro ((hl | ⟨hs, hn⟩) | ⟨⟨hi, hn⟩, hc⟩)
      · exact Or.inl hl
      · exact Or.inr ⟨hn, Or.inl hs⟩
      · exact Or.inr ⟨hn, Or.inr ⟨hi, hc⟩⟩

/-! ## Chains -/

/-- The updates before the first one that names no processor. -/
def executable (updates : List Update) : List Update := updates.takeWhile fun u => u.index < 1024

theorem executable_cons_of_lt {u : Update} (h : u.index < 1024) (updates : List Update) :
    executable (u :: updates) = u :: executable updates :=
  List.takeWhile_cons_of_pos (decide_eq_true h)

theorem executable_cons_of_le {u : Update} (h : 1024 ≤ u.index) (updates : List Update) :
    executable (u :: updates) = [] :=
  List.takeWhile_cons_of_neg (by simpa using h)

theorem index_lt_of_mem_executable {u : Update} {updates : List Update} (h : u ∈ executable updates) : u.index < 1024 :=
  of_decide_eq_true (List.all_eq_true.1 (List.all_takeWhile (l := updates)) u h)

/-- A processor that one of them sets is below 1024. -/
theorem LastSets.lt_of_executable {c : Nat} {updates : List Update} (h : LastSets c (executable updates)) : c < 1024 := by
  obtain ⟨before, after, he, -⟩ := h
  have hmem : .set c ∈ executable updates := by
    rw [he]
    exact List.mem_append_right _ List.mem_cons_self
  exact index_lt_of_mem_executable hmem

/-- The outcome is that of executing the updates up to the first that names no processor. -/
structure Outcome (m : CpuSet) (updates : List Update) (outcome : ChainOutcome) : Prop where
  /-- These updates are counted. -/
  executed : outcome.executed = (executable updates).length
  /-- The mask is as they made it. -/
  mask : (executable updates).foldlM Update.apply m = .ok outcome.mask
  /-- If they are all there are, there is no error. -/
  complete : updates = executable updates → outcome.error = none
  /-- Otherwise the next update is refused, and its error ends the chain. -/
  stopped : ∀ u later, updates = executable updates ++ u :: later →
    1024 ≤ u.index ∧ u.apply outcome.mask = .error .outOfRange ∧ outcome.error = some .outOfRange

/-- Every chain comes to such an outcome. -/
theorem outcome_chain (m : CpuSet) (updates : List Update) : Outcome m updates (m.chain updates) := by
  induction updates generalizing m with
  | nil => exact ⟨rfl, rfl, fun _ => rfl, fun _ _ h => nomatch h⟩
  | cons u updates ih =>
    by_cases hu : u.index < 1024
    · -- the update is executed and the chain goes on from the mask that it made
      obtain ⟨next, hnext⟩ := Update.exists_apply_eq_ok m hu
      have hchain : m.chain (u :: updates) =
          { next.chain updates with executed := (next.chain updates).executed + 1 } := by
        rw [chain, hnext]
      have h := ih next
      rw [hchain]
      refine ⟨?_, ?_, ?_, ?_⟩
      · rw [executable_cons_of_lt hu, List.length_cons, h.executed]
      · rw [executable_cons_of_lt hu, List.foldlM_cons, hnext]
        exact h.mask
      · intro he
        rw [executable_cons_of_lt hu] at he
        exact h.complete (List.cons.inj he).2
      · intro v later he
        rw [executable_cons_of_lt hu, List.cons_append] at he
        exact h.stopped v later (List.cons.inj he).2
    · -- the update is refused and the mask stays
      have hle := Nat.le_of_not_lt hu
      have hchain : m.chain (u :: updates) = ⟨0, m, some .outOfRange⟩ := by
        rw [chain, Update.apply_of_le m hle]
      rw [hchain]
      refine ⟨?_, ?_, ?_, ?_⟩
      · rw [executable_cons_of_le hle, List.length_nil]
      · rw [executable_cons_of_le hle]
        rfl
      · intro he
        rw [executable_cons_of_le hle] at he
        nomatch he
      · intro v later he
        rw [executable_cons_of_le hle, List.nil_append] at he
        obtain ⟨rfl, rfl⟩ := List.cons.inj he
        exact ⟨hle, Update.apply_of_le m hle, rfl⟩

/-- A chain executes the updates before the first index that names no processor, all of them if there is none; the next update
is refused and leaves the mask as the executed ones made it. In that mask a processor is set exactly when the last executed update
to name it was a `set`, or none named it and it was set at the start. Asking for a processor is refused exactly from 1024 on. -/
theorem isSet_mask_chain (m : CpuSet) (updates : List Update) :
    Outcome m updates (m.chain updates) ∧
      (∀ c < 1024, ∃ b, (m.chain updates).mask.isSet c = .ok b ∧
        (b = true ↔ LastSets c (executable updates) ∨
          (∀ u ∈ executable updates, u.index ≠ c) ∧ m.isSet c = .ok true)) ∧
      ∀ c, m.isSet c = .error .outOfRange ↔ 1024 ≤ c := by
  have h := outcome_chain m updates
  refine ⟨h, ?_, fun c => isSet_eq_error_iff m⟩
  intro c hc
  refine ⟨_, isSet_of_lt _ hc, ?_⟩
  rw [contains_foldlM h.mask, isSet_of_lt m hc, Except.ok.injEq]

end CpuSet

end KernelControl
