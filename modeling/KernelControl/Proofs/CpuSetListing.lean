import Mathlib.Data.List.Dedup
import Mathlib.Data.List.TakeWhile
import KernelControl.Proofs.CpuSetCount

/-!
# Masks and lists of indices

Setting the indices of a list on the empty mask succeeds when all of them are below 1024 (`exists_ofIndices`), and it gives the
mask in which just the indices of the list are set (`ofIndices_eq_ok_iff`): their order and their repetitions are lost. What a
mask lists is in ascending order and has no repetitions, so it is the list that the mask was made of, brought into that form, and
it makes the mask again (`ofIndices_laws`).
-/

namespace KernelControl

namespace CpuSet

/-! ## Equal masks -/

/-- Masks in which the same indices are set are equal. -/
theorem eq_of_isSet_iff {a b : CpuSet} (h : ∀ i, a.isSet i = .ok true ↔ b.isSet i = .ok true) : a = b := by
  apply ext_contains
  intro c
  have hc := h c.val
  rwa [isSet_of_lt a c.isLt, isSet_of_lt b c.isLt, Except.ok.injEq, Except.ok.injEq, ← Bool.eq_iff_iff] at hc

/-- Masks are equal when every processor that can be asked for has the same answer in both. -/
theorem eq_iff_isSet {a b : CpuSet} : a = b ↔ ∀ c < 1024, a.isSet c = b.isSet c := by
  constructor
  · rintro rfl c -
    rfl
  · intro h
    apply eq_of_isSet_iff
    intro i
    by_cases hi : i < 1024
    · rw [h i hi]
    · rw [isSet_of_le a (Nat.le_of_not_lt hi), isSet_of_le b (Nat.le_of_not_lt hi)]

/-! ## Masks from lists -/

/-- Setting an index adds it to those that are set, and it is the only one. -/
theorem isSet_of_set {m next : CpuSet} {i : Nat} (h : m.set i = .ok next) (j : Nat) :
    next.isSet j = .ok true ↔ j = i ∨ m.isSet j = .ok true := by
  have hi : i < 1024 := Update.index_lt_of_apply (u := .set i) h
  obtain rfl : m.insert ⟨i, hi⟩ = next := Except.ok.inj ((m.set_of_lt hi).symm.trans h)
  by_cases hj : j < 1024
  · simp only [isSet_of_lt _ hj, Except.ok.injEq, contains_insert, Bool.or_eq_true, decide_eq_true_iff, Fin.mk.injEq]
  · have hne : j ≠ i := by omega
    simp [isSet_of_le _ (Nat.le_of_not_lt hj), hne]

section Indices

variable {list : List Nat} {m m' : CpuSet}

/-- After indices were set one after the other, those that are set are these indices and the ones that were set before. -/
theorem isSet_of_foldlM_set (h : list.foldlM set m = .ok m') (j : Nat) :
    m'.isSet j = .ok true ↔ j ∈ list ∨ m.isSet j = .ok true := by
  induction list generalizing m with
  | nil =>
    obtain rfl : m = m' := Except.ok.inj h
    simp
  | cons i list ih =>
    rw [List.foldlM_cons] at h
    cases hi : m.set i with
    | error e =>
      rw [hi] at h
      cases h
    | ok next =>
      rw [hi] at h
      rw [ih h, isSet_of_set hi, List.mem_cons, or_left_comm, or_assoc]

/-- A list of indices below 1024 has a mask. -/
theorem exists_ofIndices (h : ∀ i ∈ list, i < 1024) : ∃ m, ofIndices list = .ok m := by
  have hall : executable (list.map .set) = list.map .set := by
    rw [executable, List.takeWhile_eq_self_iff, List.forall_mem_map]
    exact fun i hi => decide_eq_true (h i hi)
  have hm := (outcome_chain empty (list.map .set)).mask
  rw [hall, List.foldlM_map] at hm
  exact ⟨_, hm⟩

/-- In the mask of a list just the indices of the list are set. -/
theorem isSet_of_ofIndices (h : ofIndices list = .ok m) (i : Nat) : m.isSet i = .ok true ↔ i ∈ list := by
  rw [isSet_of_foldlM_set h, or_iff_left (not_isSet_empty i)]

/-- A list has a mask as soon as there is one in which just its indices are set, and it is that one. -/
theorem ofIndices_eq_ok_iff : ofIndices list = .ok m ↔ ∀ i, i ∈ list ↔ m.isSet i = .ok true := by
  constructor
  · intro h i
    exact (isSet_of_ofIndices h i).symm
  · intro h
    -- the indices are set in a mask, so they are below 1024, and the list has a mask of its own
    obtain ⟨m', hm'⟩ := exists_ofIndices fun i hi => lt_of_isSet ((h i).1 hi)
    rw [hm', Except.ok.injEq]
    exact eq_of_isSet_iff fun i => (isSet_of_ofIndices hm' i).trans (h i)

end Indices

/-- What a mask lists makes the mask again. -/
theorem ofIndices_indices (m : CpuSet) : ofIndices m.indices = .ok m := ofIndices_eq_ok_iff.2 fun _ => mem_indices

/-- A mask lists the indices that it was made of, in ascending order and each of them once. -/
theorem indices_of_ofIndices {list : List Nat} {m : CpuSet} (h : ofIndices list = .ok m) :
    m.indices = list.dedup.mergeSort := by
  have hsorted : list.dedup.mergeSort.Pairwise (· < ·) :=
    (List.sortedLE_mergeSort.sortedLT_of_nodup (List.nodup_mergeSort.2 list.nodup_dedup)).pairwise
  apply (pairwise_indices m).eq_of_mem_iff hsorted
  intro i
  rw [mem_indices, List.mem_mergeSort, List.mem_dedup, isSet_of_ofIndices h]

/-- Masks compare as equal exactly when every processor below 1024 has the same answer in both. A list of indices below 1024, in
whatever order and with whatever repetitions, gives a mask that lists them in ascending order and each of them once, and the lists
that give this mask are those with the same indices. What a mask lists gives the mask back. -/
theorem ofIndices_laws :
    (∀ a b : CpuSet, (a == b) = true ↔ ∀ c < 1024, a.isSet c = b.isSet c) ∧
      (∀ list : List Nat, (∀ i ∈ list, i < 1024) → ∃ m, ofIndices list = .ok m ∧ m.indices = list.dedup.mergeSort ∧
        ∀ other : List Nat, ofIndices other = .ok m ↔ ∀ i, i ∈ other ↔ i ∈ list) ∧
      ∀ m : CpuSet, ofIndices m.indices = .ok m := by
  refine ⟨?_, ?_, ofIndices_indices⟩
  · intro a b
    rw [beq_iff_eq, eq_iff_isSet]
  · intro list h
    obtain ⟨m, hm⟩ := exists_ofIndices h
    refine ⟨m, hm, indices_of_ofIndices hm, ?_⟩
    intro other
    simp only [ofIndices_eq_ok_iff, isSet_of_ofIndices hm]

/-- Two processors of different words are given in descending order, one of them twice. -/
theorem ofIndices_laws_two_words :
    ∃ m, ofIndices [64, 3, 64] = .ok m ∧ m.indices = [3, 64] ∧ ofIndices [3, 64] = .ok m := by
  obtain ⟨m, hm, hindices, hother⟩ := ofIndices_laws.2.1 [64, 3, 64] (by decide)
  have hdedup : [64, 3, 64].dedup = [3, 64] := by decide
  rw [hdedup, List.mergeSort_of_pairwise (by decide)] at hindices
  refine ⟨m, hm, hindices, (hother [3, 64]).2 ?_⟩
  intro i
  simp only [List.mem_cons, List.not_mem_nil, or_false]
  omega

end CpuSet

end KernelControl
