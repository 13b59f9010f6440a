import KernelControl.Proofs.TimeExpression
import KernelControl.Proofs.TimeScale
import Mathlib.Data.Set.Operations

/-!
# Canonical times

Many times stand for the same number of nanoseconds, and exactly one of them is canonical. The fields of a canonical time are its total
divided by a second with truncation (`IsCanonical.split`), so canonical times with the same total are equal. Every time made from a
count is canonical, and so is every time that an operator returns; counting undoes the making (`isCanonical_normal_form`).
-/

namespace KernelControl

namespace TimeSpec

variable {ts a b : TimeSpec} {ready : Prop} {n : Int}

/-! ## Counts of words -/

/-- A time is counted as a word exactly when it can be counted and the word is its total. -/
theorem nanoseconds_eq_ok_iff {w : Int64} : ts.nanoseconds = .ok w ↔ ts.Convertible ∧ w.toInt = ts.total := by
  by_cases h : ts.Convertible
  · rw [nanoseconds_of_convertible h, Except.ok.injEq, ← Int64.toInt_inj, toInt_ofInt_of_fits h.2]
    exact ⟨fun hw => ⟨h, hw.symm⟩, fun hw => hw.2.symm⟩
  · rw [nanoseconds_of_not_convertible h]
    exact iff_of_false (fun hw => nomatch hw) (fun hw => h hw.1)

/-- A time made from a count of nanoseconds can be counted again, and its total is the count. -/
theorem convertible_ofUnits_nanoseconds (w : Int64) :
    (ofUnits .nanoseconds w).Convertible ∧ (ofUnits .nanoseconds w).total = w.toInt :=
  convertible_of_split (fitsWord_toInt w) (toInt_sec_ofUnits_nanoseconds w) (toInt_nsec_ofUnits_nanoseconds w)

/-! ## One canonical time for each total -/

/-- The fields of a canonical time are its total divided by a second, with the remainder. -/
theorem IsCanonical.split (h : ts.IsCanonical) :
    ts.sec.toInt = ts.total.tdiv 1000000000 ∧ ts.nsec.toInt = ts.total.tmod 1000000000 := by
  obtain ⟨⟨hlo, hhi⟩, hsigns⟩ := h
  have hrest : ts.nsec.toInt + 1000000000 * ts.sec.toInt = ts.total := by
    rw [total]
    omega
  have hq : ts.total.tdiv 1000000000 = ts.sec.toInt := tdiv_eq_of_rest hrest hlo hhi hsigns.symm
  have hr := Int.tmod_add_mul_tdiv ts.total 1000000000
  rw [hq] at hr
  omega

/-- Canonical times with the same total are the same time. -/
theorem IsCanonical.eq_iff (ha : a.IsCanonical) (hb : b.IsCanonical) : a = b ↔ a.total = b.total := by
  constructor
  · rintro rfl
    rfl
  · intro h
    obtain ⟨hsa, hna⟩ := ha.split
    obtain ⟨hsb, hnb⟩ := hb.split
    rw [h] at hsa hna
    exact ext_toInt (hsa.trans hsb.symm) (hna.trans hnb.symm)

/-- A canonical time is the one made from its count. -/
theorem IsCanonical.nanoseconds_eq_ok_iff (h : ts.IsCanonical) {w : Int64} :
    ts.nanoseconds = .ok w ↔ ofUnits .nanoseconds w = ts := by
  have hw := convertible_ofUnits_nanoseconds w
  rw [TimeSpec.nanoseconds_eq_ok_iff]
  constructor
  · rintro ⟨-, htotal⟩
    exact ((isCanonical_ofUnits .nanoseconds w).eq_iff h).2 (hw.2.trans htotal)
  · rintro rfl
    exact ⟨hw.1, hw.2.symm⟩

/-- Every word is the count of one canonical time, and every canonical time whose total is a word is made from one count. -/
theorem bijOn_ofUnits_nanoseconds :
    Set.BijOn (ofUnits .nanoseconds) Set.univ {ts | ts.IsCanonical ∧ FitsWord ts.total} := by
  refine ⟨?_, ?_, ?_⟩
  · intro w _
    refine ⟨isCanonical_ofUnits .nanoseconds w, ?_⟩
    rw [(convertible_ofUnits_nanoseconds w).2]
    exact fitsWord_toInt w
  · intro v _ w _ hvw
    have htotal := congrArg total hvw
    rw [(convertible_ofUnits_nanoseconds v).2, (convertible_ofUnits_nanoseconds w).2] at htotal
    exact Int64.toInt_inj.1 htotal
  · rintro ts ⟨hts, hfits⟩
    refine ⟨Int64.ofInt ts.total, trivial, ((isCanonical_ofUnits _ _).eq_iff hts).2 ?_⟩
    rw [(convertible_ofUnits_nanoseconds _).2, toInt_ofInt_of_fits hfits]

/-! ## Results of operators -/

/-- An exact operation returns canonical times only. -/
theorem IsExact.isCanonical {outcome : Except TimeError TimeSpec} (h : IsExact ready n outcome) (ht : outcome = .ok ts) :
    ts.IsCanonical :=
  isCanonical_of_split (h.value ts ht).1 (h.value ts ht).2

theorem isCanonical_of_unary {op : UnaryTimeOp} (h : op.apply a = .ok ts) : ts.IsCanonical := by
  by_cases hop : op = .div 0
  · rw [hop, UnaryTimeOp.apply, div_zero] at h
    cases h
  · exact (UnaryTimeOp.isExact_apply hop a).isCanonical h

theorem isCanonical_of_binary {op : BinaryTimeOp} (h : op.apply a b = .ok ts) : ts.IsCanonical :=
  (op.isExact_apply a b).isCanonical h

/-- Canonical times are the normal form of the arithmetic. A time made from a count of nanoseconds is canonical, and so is every time
that an operator returns. A canonical time is counted as a word exactly when it is the time made from the word. So the words and the
canonical times whose totals fit a word correspond one to one, and canonical times are equal exactly when their totals are. -/
theorem isCanonical_normal_form :
    (∀ w, (ofUnits .nanoseconds w).IsCanonical) ∧
      (∀ (op : UnaryTimeOp) (a ts : TimeSpec), op.apply a = .ok ts → ts.IsCanonical) ∧
      (∀ (op : BinaryTimeOp) (a b ts : TimeSpec), op.apply a b = .ok ts → ts.IsCanonical) ∧
      (∀ ts : TimeSpec, ts.IsCanonical → ∀ w, ts.nanoseconds = .ok w ↔ ofUnits .nanoseconds w = ts) ∧
      Set.BijOn (ofUnits .nanoseconds) Set.univ {ts | ts.IsCanonical ∧ FitsWord ts.total} ∧
      ∀ a b : TimeSpec, a.IsCanonical → b.IsCanonical → (a = b ↔ a.total = b.total) :=
  ⟨isCanonical_ofUnits .nanoseconds, fun _ _ _ h => isCanonical_of_unary h, fun _ _ _ _ h => isCanonical_of_binary h,
    fun _ h _ => h.nanoseconds_eq_ok_iff, bijOn_ofUnits_nanoseconds, fun _ _ ha hb => ha.eq_iff hb⟩

/-- The least count gives a time with both fields negative, and so do a half of it and a difference across the epoch. The other time
that is a whole second below it in one field and above it in the other has the same total, but is not canonical. -/
theorem isCanonical_normal_form_least :
    IsCanonical ⟨-4611686018, -427387904⟩ ∧ IsCanonical ⟨-1, -999999999⟩ ∧
      ofUnits .nanoseconds (-0x8000000000000000) = ⟨-9223372036, -854775808⟩ ∧
      ofUnits .nanoseconds (-1999999999) = ⟨-1, -999999999⟩ ∧
      total ⟨-9223372037, 145224192⟩ = total ⟨-9223372036, -854775808⟩ ∧ ¬IsCanonical ⟨-9223372037, 145224192⟩ := by
  obtain ⟨hmade, hunary, hbinary, hcount, -, heq⟩ := isCanonical_normal_form
  have hhalf := hunary (.div 2) ⟨-9223372036, -854775808⟩ ⟨-4611686018, -427387904⟩ rfl
  have hdifference := hbinary .sub ⟨1, 0⟩ ⟨2, 999999999⟩ ⟨-1, -999999999⟩ rfl
  exact ⟨hhalf, hdifference, (hcount ⟨-9223372036, -854775808⟩ (by decide) _).1 rfl,
    (heq _ _ (hmade _) hdifference).2 (by decide), by decide, by decide⟩

end TimeSpec

end KernelControl
