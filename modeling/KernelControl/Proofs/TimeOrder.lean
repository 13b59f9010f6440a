import KernelControl.Proofs.TimeCanonical

/-!
# The order of times

Normalized times are ordered by their seconds, and within a second by their nanoseconds (`fieldOrder`). This is the order of their
totals, and so of their counts in nanoseconds; counts in a coarser unit are rounded down and keep the order. A difference takes the sign
of the total into both of its fields, so it is normalized when it is not negative, and otherwise only if it is a whole number of seconds
(`IsExact.isNormalized_iff`). `fieldOrder_laws` says all of it.
-/

namespace KernelControl

/-- Words are compared as their values. -/
theorem compare_toInt (v w : Int64) : compare v w = compare v.toInt w.toInt := by
  symm
  cases h : compare v w with
  | lt => exact Int.compare_eq_lt.2 (Int64.lt_iff_toInt_lt.1 (Std.compare_eq_lt.1 h))
  | eq => rw [Std.LawfulEqOrd.eq_of_compare h, Int.compare_eq_eq]
  | gt => exact Int.compare_eq_gt.2 (Int64.lt_iff_toInt_lt.1 (Std.compare_eq_gt.1 h))

namespace TimeSpec

variable {a b ts : TimeSpec} {ready : Prop} {n : Int}

/-! ## The order of the fields -/

/-- The order of the seconds, and of the nanoseconds within a second. -/
def fieldOrder (a b : TimeSpec) : Ordering := (compare a.sec b.sec).then (compare a.nsec b.nsec)

theorem fieldOrder_eq_lt_iff : a.fieldOrder b = .lt ↔ a.sec < b.sec ∨ a.sec = b.sec ∧ a.nsec < b.nsec := by
  rw [fieldOrder, Ordering.then_eq_lt, Std.compare_eq_lt, Std.compare_eq_lt, Std.LawfulEqOrd.compare_eq_iff_eq]

theorem fieldOrder_eq_gt_iff : a.fieldOrder b = .gt ↔ b.sec < a.sec ∨ b.sec = a.sec ∧ b.nsec < a.nsec := by
  rw [fieldOrder, Ordering.then_eq_gt, Std.compare_eq_gt, Std.compare_eq_gt, Std.LawfulEqOrd.compare_eq_iff_eq, eq_comm]

theorem fieldOrder_eq_eq_iff : a.fieldOrder b = .eq ↔ a = b := by
  rw [fieldOrder, Ordering.then_eq_eq, Std.LawfulEqOrd.compare_eq_iff_eq, Std.LawfulEqOrd.compare_eq_iff_eq]
  cases a
  cases b
  simp

/-- Normalized times are ordered as their totals. -/
theorem fieldOrder_eq_compare_total (ha : a.isNormalized) (hb : b.isNormalized) :
    a.fieldOrder b = compare a.total b.total := by
  symm
  cases h : a.fieldOrder b with
  | lt => exact Int.compare_eq_lt.2 ((total_lt_total_iff ha hb).2 (fieldOrder_eq_lt_iff.1 h))
  | eq => rw [fieldOrder_eq_eq_iff.1 h, Int.compare_eq_eq]
  | gt => exact Int.compare_eq_gt.2 ((total_lt_total_iff hb ha).2 (fieldOrder_eq_gt_iff.1 h))

/-! ## Counts in a coarser unit -/

/-- A time that can be counted in nanoseconds can be counted in every unit. -/
theorem Convertible.exists_inUnits (h : ts.Convertible) (u : TimeUnit) : ∃ w, ts.inUnits u = .ok w ∧ w.toInt = ts.fieldUnits u := by
  apply (isCount_inUnits u ts).returns
  obtain ⟨hsec, htotal⟩ := h
  have hrest := ts.rest_bounds u
  have hsum := ts.rest_add_fieldUnits u
  unfold FitsWord at *
  -- the bounds are linear once the length of the unit is a numeral
  cases u <;> simp only [TimeUnit.length] at * <;> omega

/-- Counts of normalized times are in the order of the totals. -/
theorem fieldUnits_le_fieldUnits (ha : a.isNormalized) (h : a.total ≤ b.total) (u : TimeUnit) :
    a.fieldUnits u ≤ b.fieldUnits u := by
  have hrest : 0 ≤ a.rest u := Int.tmod_nonneg _ (isNormalized_iff.1 ha).1
  have hsuma := a.rest_add_fieldUnits u
  have hsumb := b.rest_add_fieldUnits u
  have hrestb := b.rest_bounds u
  -- one unit more in the first count would be more nanoseconds than the second time has
  by_contra hlt
  have hmul := Int.mul_le_mul_of_nonneg_left (Int.add_one_le_of_lt (Int.not_le.1 hlt)) (Int.le_of_lt u.length_pos)
  rw [Int.mul_add, Int.mul_one] at hmul
  omega

/-! ## Normalized results -/

/-- The result of an exact operation is normalized exactly when it is not negative or is a whole number of seconds. -/
theorem IsExact.isNormalized_iff {outcome : Except TimeError TimeSpec} (h : IsExact ready n outcome) (ht : outcome = .ok ts) :
    ts.isNormalized ↔ 0 ≤ n ∨ 1000000000 ∣ n := by
  rw [TimeSpec.isNormalized_iff, (h.value ts ht).2, Int.dvd_iff_tmod_eq_zero]
  have hhi : n.tmod 1000000000 < 1000000000 := Int.tmod_lt_of_pos n (by decide)
  by_cases hn : 0 ≤ n
  · have := Int.tmod_nonneg 1000000000 hn
    omega
  · have := tdiv_tmod_nonpos (n := n) (u := 1000000000) (by omega) (by decide)
    omega

theorem isNormalized_sub_iff (ha : a.isNormalized) (hb : b.isNormalized) (h : a.sub b = .ok ts) :
    ts.isNormalized ↔ b.total ≤ a.total ∨ a.nsec = b.nsec := by
  have hna := isNormalized_iff.1 ha
  have hnb := isNormalized_iff.1 hb
  rw [(isExact_sub a b).isNormalized_iff h, ← Int64.toInt_inj, total, total]
  omega

theorem isNormalized_add (ha : a.isNormalized) (hb : b.isNormalized) (hsa : 0 ≤ a.sec) (hsb : 0 ≤ b.sec) (h : a.add b = .ok ts) :
    ts.isNormalized := by
  have hna := isNormalized_iff.1 ha
  have hnb := isNormalized_iff.1 hb
  rw [Int64.le_iff_toInt_le, Int64.toInt_zero] at hsa hsb
  apply ((isExact_add a b).isNormalized_iff h).2
  rw [total, total]
  omega

/-- Normalized times that can be counted in nanoseconds are in the order of their counts. In every unit they have counts, and these
keep the order. Their difference is normalized exactly when the first does not come before the second or both have the same
nanoseconds, and their sum is normalized when neither is before the epoch. -/
theorem fieldOrder_laws {m n : Int64} (ha : a.isNormalized) (hb : b.isNormalized) (hm : a.nanoseconds = .ok m)
    (hn : b.nanoseconds = .ok n) :
    a.fieldOrder b = compare m n ∧
      (∀ u, ∃ v w, a.inUnits u = .ok v ∧ b.inUnits u = .ok w ∧ ((a.fieldOrder b).isLE → v ≤ w)) ∧
      (∀ d, a.sub b = .ok d → (d.isNormalized ↔ (a.fieldOrder b).isGE ∨ a.nsec = b.nsec)) ∧
      (∀ s, a.add b = .ok s → 0 ≤ a.sec → 0 ≤ b.sec → s.isNormalized) := by
  obtain ⟨hca, hma⟩ := nanoseconds_eq_ok_iff.1 hm
  obtain ⟨hcb, hnb⟩ := nanoseconds_eq_ok_iff.1 hn
  have horder := fieldOrder_eq_compare_total ha hb
  refine ⟨?_, ?_, ?_, fun s hs hsa hsb => isNormalized_add ha hb hsa hsb hs⟩
  · rw [horder, compare_toInt, hma, hnb]
  · intro u
    obtain ⟨v, hv, hvu⟩ := hca.exists_inUnits u
    obtain ⟨w, hw, hwu⟩ := hcb.exists_inUnits u
    refine ⟨v, w, hv, hw, ?_⟩
    rw [horder, Std.isLE_compare, Int64.le_iff_toInt_le, hvu, hwu]
    exact fun h => fieldUnits_le_fieldUnits ha h u
  · intro d hd
    rw [horder, Std.isGE_compare]
    exact isNormalized_sub_iff ha hb hd

/-- A difference of minus two seconds, whose nanoseconds are zero, and a sum that carries into the seconds. -/
theorem fieldOrder_laws_before_epoch :
    fieldOrder ⟨-2, 999999999⟩ ⟨0, 999999999⟩ = compare (-1000000001 : Int64) 999999999 ∧
      (∃ v w, inUnits .milliseconds ⟨-2, 999999999⟩ = .ok v ∧ inUnits .milliseconds ⟨0, 999999999⟩ = .ok w ∧ v ≤ w) ∧
      sub ⟨-2, 999999999⟩ ⟨0, 999999999⟩ = .ok ⟨-2, 0⟩ ∧ isNormalized ⟨-2, 0⟩ ∧
      add ⟨0, 999999999⟩ ⟨0, 1⟩ = .ok ⟨1, 0⟩ ∧ isNormalized ⟨1, 0⟩ := by
  obtain ⟨horder, hcounts, hsub, -⟩ := fieldOrder_laws (a := ⟨-2, 999999999⟩) (b := ⟨0, 999999999⟩) (by decide) (by decide) rfl rfl
  obtain ⟨v, w, hv, hw, hvw⟩ := hcounts .milliseconds
  obtain ⟨-, -, -, hadd⟩ := fieldOrder_laws (a := ⟨0, 999999999⟩) (b := ⟨0, 1⟩) (by decide) (by decide) rfl rfl
  exact ⟨horder, ⟨v, w, hv, hw, hvw (by decide)⟩, rfl, (hsub _ rfl).2 (Or.inr rfl), rfl, hadd _ rfl (by decide) (by decide)⟩

end TimeSpec

end KernelControl
