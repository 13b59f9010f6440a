import Mathlib.Data.List.FinRange
import Mathlib.Data.List.Sort
import Mathlib.Data.Set.Card
import KernelControl.Proofs.CpuSetChain

/-!
# How many processors a mask has

A mask is counted word by word, and the list of its processors is made index by index. The indices of a word's bits are a
stretch of 64 indices (`finRange_cpus`), so both come to the same number (`count_eq_length_toList`). The list has no processor
twice, so the number is that of the processors as a set (`toFinset`), and adding or removing one processor changes it by one if
it changes the mask. `count_laws` says this of the indices that are set, and of those that are set after a chain of updates.
-/

namespace KernelControl

namespace CpuSet

/-- The processor of bit `k` of word `i`. -/
def cpuOf (i : Fin 16) (k : Fin 64) : Cpu := ⟨i.val * 64 + k.val, by omega⟩

/-- Processors in ascending order are the words in ascending order, and in each its bits in ascending order. -/
theorem finRange_cpus :
    List.finRange 1024 = (List.ofFn fun i : Fin 16 => List.ofFn fun k : Fin 64 => cpuOf i k).flatten := by
  have h := List.ofFn_mul (m := 16) (n := 64) (id : Fin (16 * 64) → Cpu)
  rw [List.ofFn_id] at h
  exact h

/-- The one bits of a word are the processors of the mask that the word has bits for. -/
theorem oneBits_get_words (m : CpuSet) (i : Fin 16) :
    oneBits (m.words.get i) = (List.ofFn fun k : Fin 64 => cpuOf i k).countP m.contains := by
  have hbit : ∀ k : Fin 64, (m.words.get i).toBitVec.getLsbD k.val = m.contains (cpuOf i k) := by
    intro k
    have hi : (i.val * 64 + k.val) / 64 = i.val := by omega
    have hk : (i.val * 64 + k.val) % 64 = k.val := by omega
    simp only [contains_eq_getLsbD, wordIndex, cpuOf, Fin.getElem_fin, hi, hk]
    rfl
  rw [oneBits, ← List.map_coe_finRange_eq_range, List.countP_map, List.ofFn_eq_map, List.countP_map]
  exact List.countP_congr fun k _ => by rw [Function.comp, Function.comp, hbit k]

/-- The count is the length of the list. -/
theorem count_eq_length_toList (m : CpuSet) : m.count = m.toList.length := by
  have hwords : m.words.toList.map oneBits = List.ofFn fun i : Fin 16 => oneBits (m.words.get i) := by
    apply List.ext_getElem
    · rw [List.length_map, Vector.length_toList, List.length_ofFn]
    · intro k _ _
      rw [List.getElem_map, Vector.getElem_toList, List.getElem_ofFn]
      rfl
  have hcount : m.count = (List.ofFn fun i : Fin 16 => oneBits (m.words.get i)).sum := by
    rw [count, ← hwords, List.sum_eq_foldl, List.foldl_map]
  rw [toList, ← List.countP_eq_length_filter, finRange_cpus, List.countP_flatten, List.map_ofFn, hcount]
  congr 2
  funext i
  exact oneBits_get_words m i

/-! ## The processors as a set -/

/-- The processors of the mask. -/
def toFinset (m : CpuSet) : Finset Cpu := m.toList.toFinset

@[simp] theorem mem_toFinset {m : CpuSet} {c : Cpu} : c ∈ m.toFinset ↔ m.contains c = true := by
  rw [toFinset, List.mem_toFinset, mem_toList]

/-- Ascending processors stay ascending when those that the mask does not have are left out. -/
theorem pairwise_toList (m : CpuSet) : m.toList.Pairwise (· < ·) := (List.sortedLT_finRange 1024).pairwise.filter _

theorem card_toFinset (m : CpuSet) : m.toFinset.card = m.count := by
  rw [toFinset, List.toFinset_card_of_nodup (pairwise_toList m).nodup, count_eq_length_toList]

theorem toFinset_insert (m : CpuSet) (a : Cpu) : (m.insert a).toFinset = Insert.insert a m.toFinset := by
  ext c
  rw [mem_toFinset, contains_insert, Bool.or_eq_true, decide_eq_true_iff, Finset.mem_insert, mem_toFinset]

theorem toFinset_erase (m : CpuSet) (a : Cpu) : (m.erase a).toFinset = m.toFinset.erase a := by
  ext c
  rw [mem_toFinset, contains_erase, Bool.and_eq_true, Bool.not_eq_true', decide_eq_false_iff_not, Finset.mem_erase,
    mem_toFinset]

section OneProcessor

variable {m : CpuSet} {a : Cpu}

theorem count_insert_of_contains (h : m.contains a = true) : (m.insert a).count = m.count := by
  rw [← card_toFinset, toFinset_insert, Finset.insert_eq_of_mem (mem_toFinset.2 h), card_toFinset]

theorem count_insert_of_not_contains (h : m.contains a = false) : (m.insert a).count = m.count + 1 := by
  have ha : a ∉ m.toFinset := by simp [h]
  rw [← card_toFinset, toFinset_insert, Finset.card_insert_of_notMem ha, card_toFinset]

theorem count_erase_of_contains (h : m.contains a = true) : (m.erase a).count + 1 = m.count := by
  rw [← card_toFinset, toFinset_erase, Finset.card_erase_add_one (mem_toFinset.2 h), card_toFinset]

theorem count_erase_of_not_contains (h : m.contains a = false) : (m.erase a).count = m.count := by
  have ha : a ∉ m.toFinset := by simp [h]
  rw [← card_toFinset, toFinset_erase, Finset.erase_eq_of_notMem ha, card_toFinset]

end OneProcessor

/-! ## The indices that are set -/

/-- An index that is set names a processor. -/
theorem lt_of_isSet {m : CpuSet} {i : Nat} (h : m.isSet i = .ok true) : i < 1024 := (isSet_eq_ok_iff.1 h).1

theorem not_isSet_empty (i : Nat) : ¬empty.isSet i = .ok true := by
  simp [isSet_eq_ok_iff]

/-- The indices that are set in the mask, in ascending order. -/
def indices (m : CpuSet) : List Nat := m.toList.map Fin.val

theorem mem_indices {m : CpuSet} {i : Nat} : i ∈ m.indices ↔ m.isSet i = .ok true := by
  rw [indices, List.mem_map, isSet_eq_ok_iff]
  constructor
  · rintro ⟨c, hc, rfl⟩
    exact ⟨c.isLt, mem_toList.1 hc⟩
  · rintro ⟨hi, h⟩
    exact ⟨⟨i, hi⟩, mem_toList.2 h, rfl⟩

theorem pairwise_indices (m : CpuSet) : m.indices.Pairwise (· < ·) := List.pairwise_map.2 (pairwise_toList m)

theorem length_indices (m : CpuSet) : m.indices.length = m.count := by
  rw [indices, List.length_map, count_eq_length_toList]

/-- A scan asks about processors one after the other, and every question has an answer. `found` is what it has found so far, the
last one first. -/
theorem filterAuxM_isSet (m : CpuSet) (cpus : List Cpu) (found : List Nat) :
    List.filterAuxM m.isSet (cpus.map Fin.val) found =
      .ok (((cpus.filter m.contains).map Fin.val).reverse ++ found) := by
  induction cpus generalizing found with
  | nil => rfl
  | cons c cpus ih =>
    rw [List.map_cons, List.filterAuxM, isSet_of_lt m c.isLt]
    cases hc : m.contains c with
    | false =>
      rw [List.filter_cons_of_neg (Bool.eq_false_iff.1 hc)]
      exact ih found
    | true =>
      rw [List.filter_cons_of_pos hc, List.map_cons, List.reverse_cons, List.append_assoc]
      exact ih (c.val :: found)

/-- The indices that are set are those that a scan of all indices below 1024 finds. -/
theorem filterM_isSet (m : CpuSet) : (List.range 1024).filterM m.isSet = .ok m.indices := by
  rw [List.filterM, ← List.map_coe_finRange_eq_range, filterAuxM_isSet, List.append_nil]
  exact congrArg Except.ok (List.reverse_reverse _)

/-- The count is the number of elements of any set that holds just the indices that are set. -/
theorem count_eq_encard {m : CpuSet} {s : Set Nat} (h : ∀ i, i ∈ s ↔ m.isSet i = .ok true) : (m.count : ℕ∞) = s.encard := by
  have hs : s = Fin.val '' (m.toFinset : Set Cpu) := by
    ext i
    rw [h, ← mem_indices, indices, List.mem_map, Set.mem_image]
    simp only [mem_toList, Finset.mem_coe, mem_toFinset]
  rw [hs, Fin.val_injective.encard_image, Set.encard_coe_eq_coe_finsetCard, card_toFinset]

/-- After a chain of updates of the empty mask the indices that are set are those that the last update to name them set. -/
theorem isSet_chain_empty (updates : List Update) (i : Nat) :
    (empty.chain updates).mask.isSet i = .ok true ↔ LastSets i (executable updates) := by
  have h := (outcome_chain empty updates).mask
  rw [isSet_eq_ok_iff]
  constructor
  · rintro ⟨hi, hc⟩
    rcases (contains_foldlM h _).1 hc with hl | ⟨-, he⟩
    · exact hl
    · simp at he
  · intro hl
    exact ⟨hl.lt_of_executable, (contains_foldlM h _).2 (Or.inl hl)⟩

/-- The count is the number of indices below 1024 that are set, and the ascending list of them, which is what a scan finds that asks
about one index after the other, is as long. Setting an index adds one to it if the index was clear, clearing it takes one away if it
was set, and otherwise they leave it. So after any chain of updates of the empty mask it is the number of indices that the last
update to name them set. -/
theorem count_laws (m : CpuSet) :
    (m.count : ℕ∞) = {c | c < 1024 ∧ m.isSet c = .ok true}.encard ∧
      ((List.range 1024).filterM m.isSet = .ok m.indices ∧ m.indices.Pairwise (· < ·) ∧
        (∀ c, c ∈ m.indices ↔ m.isSet c = .ok true) ∧ m.indices.length = m.count) ∧
      (∀ c < 1024, ∃ next, m.set c = .ok next ∧
        (m.isSet c = .ok false → next.count = m.count + 1) ∧ (m.isSet c = .ok true → next.count = m.count)) ∧
      (∀ c < 1024, ∃ next, m.clear c = .ok next ∧
        (m.isSet c = .ok true → next.count + 1 = m.count) ∧ (m.isSet c = .ok false → next.count = m.count)) ∧
      ∀ updates, ((empty.chain updates).mask.count : ℕ∞) = {c | LastSets c (executable updates)}.encard := by
  refine ⟨?_, ⟨filterM_isSet m, pairwise_indices m, fun c => mem_indices, length_indices m⟩, ?_, ?_, ?_⟩
  · exact count_eq_encard fun c => ⟨And.right, fun h => ⟨lt_of_isSet h, h⟩⟩
  · intro c hc
    rw [isSet_of_lt m hc, Except.ok.injEq, Except.ok.injEq]
    exact ⟨_, m.set_of_lt hc, count_insert_of_not_contains, count_insert_of_contains⟩
  · intro c hc
    rw [isSet_of_lt m hc, Except.ok.injEq, Except.ok.injEq]
    exact ⟨_, m.clear_of_lt hc, count_erase_of_contains, count_erase_of_not_contains⟩
  · intro updates
    exact count_eq_encard fun c => (isSet_chain_empty updates c).symm

/-- A mask of two processors of the first word gets one of the second: they are three. -/
theorem count_laws_second_word :
    (ofBitmask 6).isSet 64 = .ok false ∧ ∃ next, (ofBitmask 6).set 64 = .ok next ∧ next.count = 3 := by
  obtain ⟨-, -, hset, -⟩ := count_laws (ofBitmask 6)
  obtain ⟨next, hnext, hclear, -⟩ := hset 64 (by decide)
  exact ⟨rfl, next, hnext, (hclear rfl).trans (by decide +kernel)⟩

end CpuSet

end KernelControl
