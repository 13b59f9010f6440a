import KernelControl.Proofs.TimeCanonical

/-!
# Laws of the arithmetic of times

An exact operation is determined by its operands and its exact result (`IsExact.unique`), so a law of the integers holds of times
wherever the operations in it return. What an operation and its inverse give back is not the time itself but the canonical time with the
same count (`canonical`). `add_sub_neg_laws` is about sums, differences and opposites: of all differences, only those by a time whose
total is the least word cannot be taken as sums with the opposite. `mul_div_laws` is about multiples, quotients and what a quotient
leaves over.
-/

namespace KernelControl

/-! ## Truncated division -/

/-- What a truncated division takes away and what it leaves over lie on the same side of zero as the number. -/
theorem tdiv_mul_tmod_same_side (n k : Int) :
    (0 ≤ n ∧ 0 ≤ n.tdiv k * k ∧ 0 ≤ n.tmod k) ∨ (n ≤ 0 ∧ n.tdiv k * k ≤ 0 ∧ n.tmod k ≤ 0) := by
  have hsum := Int.tdiv_mul_add_tmod n k
  have hrest : (n.tmod k).natAbs ≤ n.natAbs := by
    rw [Int.natAbs_tmod]
    exact Nat.mod_le _ _
  rcases Int.le_total 0 n with hn | hn
  · have := Int.tmod_nonneg k hn
    omega
  · have hneg := Int.tmod_nonneg k (Int.neg_nonneg_of_nonpos hn)
    rw [Int.neg_tmod] at hneg
    omega

/-- So neither is further from zero than the number, and both fit a word if it does. -/
theorem FitsWord.tdiv_mul_tmod {n : Int} (h : FitsWord n) (k : Int) : FitsWord (n.tdiv k * k) ∧ FitsWord (n.tmod k) := by
  have hsum := Int.tdiv_mul_add_tmod n k
  have hside := tdiv_mul_tmod_same_side n k
  unfold FitsWord at *
  omega

theorem toInt_ne_zero {k : Int64} (hk : k ≠ 0) : k.toInt ≠ 0 :=
  fun h => hk (Int64.toInt_inj.1 h)

namespace TimeSpec

variable {a b ts : TimeSpec} {k : Int64} {ready ready' : Prop} {n n' : Int} {outcome outcome' : Except TimeError TimeSpec}

/-! ## Exact operations -/

/-- What is known when an exact operation returns. -/
theorem IsExact.of_ok (h : IsExact ready n outcome) (ht : outcome = .ok ts) : ready ∧ ts.Convertible ∧ ts.total = n :=
  ⟨(h.returns.1 ⟨ts, ht⟩).1, h.convertible ht⟩

/-- Exact operations with the same result have the same outcome, if the operands of both can be counted in the same cases. -/
theorem IsExact.unique (h : IsExact ready n outcome) (h' : IsExact ready' n' outcome') (hn : n = n')
    (hready : ready ↔ ready') : outcome = outcome' := by
  subst hn
  by_cases hc : ready ∧ FitsWord n
  · obtain ⟨r, hr⟩ := h.returns.2 hc
    obtain ⟨r', hr'⟩ := h'.returns.2 ⟨hready.1 hc.1, hc.2⟩
    obtain ⟨hs, hns⟩ := h.value r hr
    obtain ⟨hs', hns'⟩ := h'.value r' hr'
    rw [hr, hr', ext_toInt (hs.trans hs'.symm) (hns.trans hns'.symm)]
  · rw [h.overflows hc, h'.overflows fun hc' => hc ⟨hready.2 hc'.1, hc'.2⟩]

/-- The canonical time with the same count; an overflow for a time that cannot be counted in nanoseconds. -/
def canonical (ts : TimeSpec) : Except TimeError TimeSpec := do
  return ofUnits .nanoseconds (← ts.nanoseconds)

theorem isExact_canonical (a : TimeSpec) : IsExact a.Convertible a.total a.canonical := by
  rw [← and_true a.Convertible]
  apply isExact_bind_nanoseconds
  intro w hw
  have h := isExact_split w.toInt
  rw [checked_toInt, hw] at h
  exact h

/-- Only a canonical time is its own canonical form. -/
theorem eq_self_iff_of_canonical (h : a.canonical = .ok ts) : ts = a ↔ a.IsCanonical := by
  have hts := (isExact_canonical a).isCanonical h
  constructor
  · rintro rfl
    exact hts
  · intro ha
    exact (hts.eq_iff ha).2 ((isExact_canonical a).convertible h).2

/-- An operation whose exact result is the total of a time gives this time back in its canonical form. -/
theorem IsExact.gives_back (h : IsExact ready n outcome) (hn : n = a.total) (hready : ready) (ha : a.Convertible) :
    ∃ r, outcome = .ok r ∧ a.canonical = .ok r := by
  obtain ⟨r, hr⟩ := (isExact_canonical a).returns.2 ⟨ha, ha.2⟩
  refine ⟨r, ?_, hr⟩
  rw [← hr]
  exact h.unique (isExact_canonical a) hn (iff_of_true hready ha)

/-! ## Sums, differences and opposites -/

theorem add_swap (a b : TimeSpec) : a.add b = b.add a :=
  (isExact_add a b).unique (isExact_add b a) (Int.add_comm _ _) and_comm

/-- Taking away what was added gives the time back. -/
theorem sub_of_add (h : a.add b = .ok ts) : ∃ r, ts.sub b = .ok r ∧ a.canonical = .ok r := by
  obtain ⟨⟨ha, hb⟩, hts, htotal⟩ := (isExact_add a b).of_ok h
  apply (isExact_sub ts b).gives_back _ ⟨hts, hb⟩ ha
  rw [htotal, Int.add_sub_cancel]

/-- The opposite of the opposite is the time. -/
theorem neg_of_neg (h : a.neg = .ok ts) : ∃ r, ts.neg = .ok r ∧ a.canonical = .ok r := by
  obtain ⟨ha, hts, htotal⟩ := (isExact_neg a).of_ok h
  apply (isExact_neg ts).gives_back _ hts ha
  rw [htotal, Int.neg_neg]

/-- Adding an opposite that is a time is subtracting. -/
theorem add_of_neg (a : TimeSpec) (h : b.neg = .ok ts) : a.add ts = a.sub b := by
  obtain ⟨hb, hts, htotal⟩ := (isExact_neg b).of_ok h
  apply (isExact_add a ts).unique (isExact_sub a b) _ (and_congr_right fun _ => iff_of_true hts hb)
  rw [htotal, ← Int.sub_eq_add_neg]

/-- The sum with the opposite is the difference, unless the opposite overflows. -/
theorem neg_bind_add (a b : TimeSpec) :
    (b.neg >>= a.add) = if b.Convertible ∧ FitsWord (-b.total) then a.sub b else .error .overflow := by
  by_cases h : b.Convertible ∧ FitsWord (-b.total)
  · obtain ⟨m, hm⟩ := (isExact_neg b).returns.2 h
    rw [if_pos h, hm]
    exact add_of_neg a hm
  · rw [if_neg h, (isExact_neg b).overflows h]
    rfl

/-- The difference alone returns where the opposite overflows and the difference does not: by the least word, from below zero. -/
theorem sub_without_neg_iff (a b : TimeSpec) :
    (∃ d, a.sub b = .ok d) ∧ (b.neg >>= a.add) = .error .overflow ↔
      a.Convertible ∧ b.Convertible ∧ b.total = -0x8000000000000000 ∧ a.total < 0 := by
  rw [neg_bind_add]
  by_cases h : b.Convertible ∧ FitsWord (-b.total)
  · rw [if_pos h]
    refine iff_of_false ?_ ?_
    · rintro ⟨⟨d, hd⟩, hoverflow⟩
      nomatch hd.symm.trans hoverflow
    · rintro ⟨-, -, hleast, -⟩
      have hfits := h.2
      unfold FitsWord at hfits
      omega
  · have hreturns : (∃ d, a.sub b = .ok d) ↔ _ := (isExact_sub a b).returns
    rw [if_neg h, and_iff_left rfl, hreturns, and_assoc]
    refine and_congr_right fun ha => and_congr_right fun hb => ?_
    have hfitsa := ha.2
    have hfitsb := hb.2
    have hneg := not_and.1 h hb
    unfold FitsWord at *
    omega

/-- Addition does not depend on the order of its operands, not even in its overflows. A sum that returns can be undone by subtracting,
and an opposite by taking it again; what comes back is the canonical form of the time, which is the time itself exactly when it is
canonical. The sum with an opposite is the difference wherever it returns; the difference alone returns exactly when both operands can
be counted, the second is the least word and the first is below zero. -/
theorem add_sub_neg_laws (a b : TimeSpec) :
    a.add b = b.add a ∧
      (∀ s, a.add b = .ok s → ∃ r, s.sub b = .ok r ∧ a.canonical = .ok r ∧ (r = a ↔ a.IsCanonical)) ∧
      (∀ m, a.neg = .ok m → ∃ r, m.neg = .ok r ∧ a.canonical = .ok r) ∧
      (∀ d, (b.neg >>= a.add) = .ok d → a.sub b = .ok d) ∧
      ((∃ d, a.sub b = .ok d) ∧ (b.neg >>= a.add) = .error .overflow ↔
        a.Convertible ∧ b.Convertible ∧ b.total = -0x8000000000000000 ∧ a.total < 0) := by
  refine ⟨add_swap a b, ?_, fun m => neg_of_neg, ?_, sub_without_neg_iff a b⟩
  · intro s hs
    obtain ⟨r, hr, hcanonical⟩ := sub_of_add hs
    exact ⟨r, hr, hcanonical, eq_self_iff_of_canonical hcanonical⟩
  · intro d hd
    rw [neg_bind_add] at hd
    split at hd
    · exact hd
    · nomatch hd

/-- A time as the kernel gives it, half a second after two seconds before the epoch, comes back in its canonical form from a sum and from
its opposite. The least time can be taken away from one second before the epoch, but its opposite cannot be added to anything. -/
theorem add_sub_neg_laws_least :
    (∃ r, sub ⟨0, 499999999⟩ ⟨1, 999999999⟩ = .ok r ∧ canonical ⟨-2, 500000000⟩ = .ok r ∧ r ≠ ⟨-2, 500000000⟩) ∧
      (∃ r, neg ⟨1, 500000000⟩ = .ok r ∧ canonical ⟨-2, 500000000⟩ = .ok r) ∧
      sub ⟨-2, 500000000⟩ ⟨1, 999999999⟩ = .ok ⟨-3, -499999999⟩ ∧
      (∃ d, sub ⟨-1, 0⟩ ⟨-9223372036, -854775808⟩ = .ok d) ∧
      (neg ⟨-9223372036, -854775808⟩ >>= add ⟨-1, 0⟩) = .error .overflow := by
  obtain ⟨-, hadd, hneg, hsub, -⟩ := add_sub_neg_laws ⟨-2, 500000000⟩ ⟨1, 999999999⟩
  obtain ⟨r, hr, hcanonical, hself⟩ := hadd ⟨0, 499999999⟩ rfl
  obtain ⟨-, -, -, -, halone⟩ := add_sub_neg_laws ⟨-1, 0⟩ ⟨-9223372036, -854775808⟩
  exact ⟨⟨r, hr, hcanonical, fun h => absurd (hself.1 h) (by decide)⟩, hneg ⟨1, 500000000⟩ rfl, hsub _ rfl,
    halone.2 (by decide)⟩

/-! ## Multiples and quotients -/

/-- Dividing a multiple by its factor gives the time back. -/
theorem div_of_mul (hk : k ≠ 0) (h : a.mul k = .ok ts) : ∃ r, ts.div k = .ok r ∧ a.canonical = .ok r := by
  obtain ⟨ha, hts, htotal⟩ := (isExact_mul a k).of_ok h
  apply (isExact_div ts hk).gives_back _ hts ha
  rw [htotal, Int.mul_tdiv_cancel _ (toInt_ne_zero hk)]

/-- A quotient can be multiplied again and taken away from the time, which leaves the remainder. -/
theorem sub_mul_of_div (hk : k ≠ 0) (h : a.div k = .ok ts) :
    ∃ p r, ts.mul k = .ok p ∧ a.sub p = .ok r ∧ p.total = a.total.tdiv k.toInt * k.toInt ∧ r.total = a.total.tmod k.toInt := by
  obtain ⟨ha, hts, htotal⟩ := (isExact_div a hk).of_ok h
  obtain ⟨hproduct, hrest⟩ := ha.2.tdiv_mul_tmod k.toInt
  have hmul := isExact_mul ts k
  rw [htotal] at hmul
  obtain ⟨p, hp⟩ := hmul.returns.2 ⟨hts, hproduct⟩
  obtain ⟨-, hpc, hpt⟩ := hmul.of_ok hp
  have hsub := isExact_sub a p
  rw [hpt, Int.mul_comm, ← Int.tmod_def] at hsub
  obtain ⟨r, hr⟩ := hsub.returns.2 ⟨⟨ha, hpc⟩, hrest⟩
  exact ⟨p, r, hp, hr, hpt, (hsub.convertible hr).2⟩

/-- A multiple that returns can be divided by its factor, which gives the canonical form of the time. A quotient that returns can be
multiplied by its divisor and the product taken away from the time; what is left over is smaller than the divisor and on the same side
of zero as the time, and together with the product it makes up the time. -/
theorem mul_div_laws (a : TimeSpec) {k : Int64} (hk : k ≠ 0) :
    (∀ p, a.mul k = .ok p → ∃ r, p.div k = .ok r ∧ a.canonical = .ok r) ∧
      (∀ q, a.div k = .ok q → ∃ p r, q.mul k = .ok p ∧ a.sub p = .ok r ∧
        r.total.natAbs < k.toInt.natAbs ∧ (r.total = 0 ∨ r.total.sign = a.total.sign) ∧ a.total = p.total + r.total) := by
  refine ⟨fun p => div_of_mul hk, ?_⟩
  intro q hq
  obtain ⟨p, r, hp, hr, hpt, hrt⟩ := sub_mul_of_div hk hq
  refine ⟨p, r, hp, hr, ?_, ?_, ?_⟩
  · rw [hrt, Int.natAbs_tmod]
    exact Nat.mod_lt _ (Int.natAbs_pos.2 (toInt_ne_zero hk))
  · have hsign := Int.sign_tmod a.total k.toInt
    rw [← hrt] at hsign
    split at hsign
    · exact Or.inl (Int.sign_eq_zero_iff_zero.1 hsign)
    · exact Or.inr hsign
  · rw [hpt, hrt]
    exact (Int.tdiv_mul_add_tmod _ _).symm

/-- A multiple by a negative factor is divided again, and the least time divided by the greatest word leaves one nanosecond over. -/
theorem mul_div_laws_least :
    (∃ r, div ⟨10, 500000000⟩ (-7) = .ok r ∧ canonical ⟨-2, 500000000⟩ = .ok r) ∧
      ∃ p r, mul ⟨0, -1⟩ 0x7fffffffffffffff = .ok p ∧ sub ⟨-9223372036, -854775808⟩ p = .ok r ∧
        r.total.natAbs < 0x7fffffffffffffff ∧ (r.total = 0 ∨ r.total.sign = -1) ∧ -0x8000000000000000 = p.total + r.total :=
  ⟨(mul_div_laws ⟨-2, 500000000⟩ (k := -7) (by decide)).1 ⟨10, 500000000⟩ rfl,
    (mul_div_laws ⟨-9223372036, -854775808⟩ (k := 0x7fffffffffffffff) (by decide)).2 ⟨0, -1⟩ rfl⟩

end TimeSpec

end KernelControl
