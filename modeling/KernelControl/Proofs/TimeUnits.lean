import KernelControl.Proofs.TimeArithmetic

/-!
# Times counted in a unit

A time is counted field by field: its seconds are taken in the unit and its nanoseconds are divided by the unit with truncation.
The seconds are fitted into a word before the rest is added, so whether there is a count depends on them as well as on the count
(`isCount_inUnits`). In nanoseconds the count is the total (`nanoseconds_outcome`). In a coarser unit it is the total rounded, and the
two fields together decide which way: toward zero while their signs agree, down for a normalized time (`inUnits_rounding`).
-/

namespace KernelControl

/-! ## Outcomes that are counts -/

/-- The outcome of counting `n`, where the steps before the last fit words when `ready` holds. -/
structure IsCount (ready : Prop) (n : Int) (outcome : Except TimeError Int64) : Prop where
  /-- The count is returned if every step fits a word. -/
  returns : ready ∧ FitsWord n → ∃ w, outcome = .ok w ∧ w.toInt = n
  /-- Whatever else happens is an overflow. -/
  overflows : ¬(ready ∧ FitsWord n) → outcome = .error .overflow

namespace IsCount

variable {ready : Prop} {n : Int} {outcome : Except TimeError Int64}

theorem exists_ok_iff (h : IsCount ready n outcome) : (∃ w, outcome = .ok w) ↔ ready ∧ FitsWord n := by
  constructor
  · rintro ⟨w, rfl⟩
    by_cases hn : ready ∧ FitsWord n
    · exact hn
    · exact nomatch h.overflows hn
  · intro hn
    obtain ⟨w, hw, -⟩ := h.returns hn
    exact ⟨w, hw⟩

theorem eq_overflow_iff (h : IsCount ready n outcome) : outcome = .error .overflow ↔ ¬(ready ∧ FitsWord n) := by
  refine ⟨?_, h.overflows⟩
  rintro rfl hn
  obtain ⟨w, hw, -⟩ := h.returns hn
  exact nomatch hw

/-- Earlier steps that fit whenever the count does need no mention. -/
theorem of_imp (h : IsCount ready n outcome) (hr : FitsWord n → ready) : IsCount True n outcome where
  returns hn := h.returns ⟨hr hn.2, hn.2⟩
  overflows hn := h.overflows fun hc => hn ⟨trivial, hc.2⟩

/-- A count that is known to be that of a word is this word. -/
theorem eq_ok {w : Int64} (h : IsCount True w.toInt outcome) : outcome = .ok w := by
  obtain ⟨v, hv, hvw⟩ := h.returns ⟨trivial, fitsWord_toInt w⟩
  rw [hv, Int64.toInt_inj.1 hvw]

end IsCount

theorem isCount_checked (n : Int) : IsCount True n (checked n) where
  returns hn := ⟨_, checked_of_fits hn.2, toInt_ofInt_of_fits hn.2⟩
  overflows hn := checked_of_not_fits fun h => hn ⟨trivial, h⟩

/-! ## Quotients and rests -/

/-- A number given as `q` times `u` and a rest is divided with truncation to `q`, unless the rest has the sign opposite to `q`. -/
theorem tdiv_eq_of_rest {u q r n : Int} (hn : r + u * q = n) (hlo : -u < r) (hhi : r < u)
    (hs : ¬(0 < q ∧ r < 0) ∧ ¬(q < 0 ∧ 0 < r)) : n.tdiv u = q := by
  have hu : u ≠ 0 := by omega
  by_cases hq : 0 ≤ q ∧ 0 ≤ r
  · have hpos : 0 ≤ u * q := Int.mul_nonneg (by omega) hq.1
    exact ((Int.tdiv_tmod_unique (by omega) hu).2 ⟨hn, hq.2, by omega⟩).1
  · have hneg : u * q ≤ 0 := Int.mul_nonpos_of_nonneg_of_nonpos (by omega) (by omega)
    exact ((Int.tdiv_tmod_unique' (by omega) hu).2 ⟨hn, by omega, by omega⟩).1

/-- A number that is not positive has no positive quotient and no positive rest. -/
theorem tdiv_tmod_nonpos {n u : Int} (hn : n ≤ 0) (hu : 0 ≤ u) : n.tdiv u ≤ 0 ∧ n.tmod u ≤ 0 := by
  have hneg : 0 ≤ -n := by omega
  have hq := Int.tdiv_nonneg hneg hu
  have hr := Int.tmod_nonneg u hneg
  rw [Int.neg_tdiv] at hq
  rw [Int.neg_tmod] at hr
  omega

/-! ## Units -/

namespace TimeUnit

/-- How many nanoseconds long the unit is. -/
def length : TimeUnit → Int
  | .seconds => 1000000000
  | .milliseconds => 1000000
  | .microseconds => 1000
  | .nanoseconds => 1

variable (u : TimeUnit)

theorem length_pos : 0 < u.length := by
  cases u <;> decide

theorem toInt_nanos : u.nanos.toInt = u.length := by
  cases u <;> decide

theorem toInt_perSecond : u.perSecond.toInt = 1000000000 / u.length := by
  cases u <;> decide

/-- A second is a whole number of units. -/
theorem length_mul_perSecond : u.length * (1000000000 / u.length) = 1000000000 := by
  cases u <;> decide

end TimeUnit

namespace TimeSpec

/-! ## The signs of the fields -/

/-- The fields do not have opposite signs. -/
def SignsAgree (ts : TimeSpec) : Prop :=
  ¬(ts.sec.toInt < 0 ∧ 0 < ts.nsec.toInt) ∧ ¬(0 < ts.sec.toInt ∧ ts.nsec.toInt < 0)

instance (ts : TimeSpec) : Decidable ts.SignsAgree := by
  unfold SignsAgree
  infer_instance

variable {ts ts' : TimeSpec}

theorem signsAgree_iff :
    ts.SignsAgree ↔ (0 ≤ ts.sec.toInt ∧ 0 ≤ ts.nsec.toInt) ∨ (ts.sec.toInt ≤ 0 ∧ ts.nsec.toInt ≤ 0) := by
  unfold SignsAgree
  omega

theorem isNormalized_iff : ts.isNormalized ↔ 0 ≤ ts.nsec.toInt ∧ ts.nsec.toInt < 1000000000 := by
  have h0 : (0 : Int64).toInt = 0 := rfl
  have h1 : (1000000000 : Int64).toInt = 1000000000 := rfl
  rw [isNormalized, Bool.and_eq_true, decide_eq_true_iff, decide_eq_true_iff, Int64.le_iff_toInt_le,
    Int64.lt_iff_toInt_lt, h0, h1]

/-- The totals of normalized times are in the order of the seconds, and of the nanoseconds within a second. -/
theorem total_lt_total_iff (h : ts.isNormalized) (h' : ts'.isNormalized) :
    ts.total < ts'.total ↔ ts.sec < ts'.sec ∨ ts.sec = ts'.sec ∧ ts.nsec < ts'.nsec := by
  have hn := isNormalized_iff.1 h
  have hn' := isNormalized_iff.1 h'
  rw [Int64.lt_iff_toInt_lt, Int64.lt_iff_toInt_lt, ← Int64.toInt_inj, total, total]
  omega

/-! ## Counts -/

/-- How many of the unit the fields hold, each on its own: the seconds, and the nanoseconds divided with truncation. -/
def fieldUnits (u : TimeUnit) (ts : TimeSpec) : Int :=
  ts.sec.toInt * (1000000000 / u.length) + ts.nsec.toInt.tdiv u.length

/-- Counting gives what the fields hold, if the seconds fit a word and so does the whole. -/
theorem isCount_inUnits (u : TimeUnit) (ts : TimeSpec) :
    IsCount (FitsWord (ts.sec.toInt * (1000000000 / u.length))) (ts.fieldUnits u) (ts.inUnits u) := by
  have hd : (ts.nsec / u.nanos).toInt = ts.nsec.toInt.tdiv u.length := by
    rw [Int64.toInt_div_of_ne_right _ _ u.nanos_ne_neg_one, u.toInt_nanos]
  rw [inUnits, checkedMul, u.toInt_perSecond]
  by_cases hs : FitsWord (ts.sec.toInt * (1000000000 / u.length))
  · rw [checked_of_fits hs]
    show IsCount _ _ (checkedAdd _ _)
    rw [checkedAdd, toInt_ofInt_of_fits hs, hd, eq_true hs]
    exact isCount_checked _
  · rw [checked_of_not_fits hs]
    exact ⟨fun h => absurd h.1 hs, fun _ => rfl⟩

/-- The nanoseconds that are left over when the fields are counted. -/
def rest (u : TimeUnit) (ts : TimeSpec) : Int := ts.nsec.toInt.tmod u.length

theorem rest_bounds (u : TimeUnit) (ts : TimeSpec) : -u.length < ts.rest u ∧ ts.rest u < u.length :=
  ⟨Int.lt_tmod_of_pos _ u.length_pos, Int.tmod_lt_of_pos _ u.length_pos⟩

/-- What is counted and what is left over make up the total. -/
theorem rest_add_fieldUnits (u : TimeUnit) (ts : TimeSpec) : ts.rest u + u.length * ts.fieldUnits u = ts.total := by
  have hn : ts.rest u + u.length * ts.nsec.toInt.tdiv u.length = ts.nsec.toInt := Int.tmod_add_mul_tdiv _ _
  have hs : u.length * (ts.sec.toInt * (1000000000 / u.length)) = ts.sec.toInt * 1000000000 := by
    rw [Int.mul_left_comm, u.length_mul_perSecond]
  rw [fieldUnits, Int.mul_add, hs, total]
  omega

/-- While the signs of the fields agree, so do those of the seconds, of the count and of what is left over. -/
theorem SignsAgree.count (h : ts.SignsAgree) (u : TimeUnit) :
    (0 ≤ ts.sec.toInt * (1000000000 / u.length) ∧ ts.sec.toInt * (1000000000 / u.length) ≤ ts.fieldUnits u ∧ 0 ≤ ts.rest u) ∨
      (ts.sec.toInt * (1000000000 / u.length) ≤ 0 ∧ ts.fieldUnits u ≤ ts.sec.toInt * (1000000000 / u.length) ∧ ts.rest u ≤ 0) := by
  have hu := Int.le_of_lt u.length_pos
  have hp := Int.ediv_nonneg (show (0 : Int) ≤ 1000000000 by decide) hu
  unfold fieldUnits rest
  rcases signsAgree_iff.1 h with ⟨hs, hn⟩ | ⟨hs, hn⟩
  · have := Int.mul_nonneg hs hp
    have := Int.tdiv_nonneg hn hu
    have := Int.tmod_nonneg u.length hn
    omega
  · have := Int.mul_nonpos_of_nonpos_of_nonneg hs hp
    have := tdiv_tmod_nonpos hn hu
    omega

/-- Then the seconds fit a word whenever the count does. -/
theorem SignsAgree.isCount (h : ts.SignsAgree) (u : TimeUnit) : IsCount True (ts.fieldUnits u) (ts.inUnits u) := by
  apply (isCount_inUnits u ts).of_imp
  have := h.count u
  unfold FitsWord
  omega

/-! ## In nanoseconds -/

theorem fieldUnits_nanoseconds (ts : TimeSpec) : ts.fieldUnits .nanoseconds = ts.total := by
  rw [fieldUnits, TimeUnit.length, Int.ediv_one, Int.tdiv_one]
  rfl

/-- Counting in nanoseconds gives the total. -/
theorem isCount_nanoseconds (ts : TimeSpec) : IsCount (FitsWord (ts.sec.toInt * 1000000000)) ts.total ts.nanoseconds where
  returns h := ⟨_, nanoseconds_of_convertible h, toInt_ofInt_of_fits h.2⟩
  overflows := nanoseconds_of_not_convertible

/-- Counting in nanoseconds gives the total, if the seconds fit a word on their own and so does the total, and overflows otherwise.
While the signs of the fields agree, the total alone decides. A normalized time whose total fits is rejected in one case only: in
the last second that begins below the least word, from the nanosecond on at which the total reaches it. -/
theorem nanoseconds_outcome (ts : TimeSpec) :
    IsCount (FitsWord (ts.sec.toInt * 1000000000)) ts.total ts.nanoseconds ∧
      (ts.SignsAgree → (ts.nanoseconds = .error .overflow ↔ ¬FitsWord ts.total)) ∧
      (ts.isNormalized → (ts.nanoseconds = .error .overflow ∧ FitsWord ts.total ↔
        ts.sec.toInt = -9223372037 ∧ 145224192 ≤ ts.nsec.toInt)) := by
  refine ⟨isCount_nanoseconds ts, ?_, ?_⟩
  · intro h
    have hagree := (h.isCount .nanoseconds).eq_overflow_iff
    rwa [fieldUnits_nanoseconds, true_and] at hagree
  · intro h
    obtain ⟨hlo, hhi⟩ := isNormalized_iff.1 h
    rw [(isCount_nanoseconds ts).eq_overflow_iff]
    unfold total FitsWord
    omega

/-- A total that is the least word is rejected for the normalized time and returned for the one whose fields are both negative; one
nanosecond less is an overflow for the latter too. -/
theorem nanoseconds_outcome_least :
    (nanoseconds ⟨-9223372037, 145224192⟩ = .error .overflow ∧ FitsWord (total ⟨-9223372037, 145224192⟩)) ∧
      (∃ w, nanoseconds ⟨-9223372036, -854775808⟩ = .ok w ∧ w.toInt = -0x8000000000000000) ∧
      nanoseconds ⟨-9223372036, -854775809⟩ = .error .overflow := by
  refine ⟨?_, ?_, ?_⟩
  · exact ((nanoseconds_outcome _).2.2 (by decide)).2 (by decide)
  · exact (nanoseconds_outcome _).1.returns (by decide)
  · exact ((nanoseconds_outcome _).2.1 (by decide)).2 (by decide)

/-! ## In a coarser unit -/

/-- What is left over has the sign opposite to that of the count. -/
def RoundsAway (u : TimeUnit) (ts : TimeSpec) : Prop :=
  (0 < ts.fieldUnits u ∧ ts.rest u < 0) ∨ (ts.fieldUnits u < 0 ∧ 0 < ts.rest u)

instance (u : TimeUnit) (ts : TimeSpec) : Decidable (ts.RoundsAway u) := by
  unfold RoundsAway
  infer_instance

theorem tdiv_total_of_not_roundsAway {u : TimeUnit} (h : ¬ts.RoundsAway u) :
    ts.total.tdiv u.length = ts.fieldUnits u := by
  obtain ⟨hlo, hhi⟩ := ts.rest_bounds u
  exact tdiv_eq_of_rest (ts.rest_add_fieldUnits u) hlo hhi (not_or.1 h)

/-- A count that rounds away from zero is one unit further from zero than the truncated total. -/
theorem RoundsAway.fieldUnits_eq {u : TimeUnit} (h : ts.RoundsAway u) :
    ts.fieldUnits u = ts.total.tdiv u.length + (ts.fieldUnits u).sign := by
  obtain ⟨hlo, hhi⟩ := ts.rest_bounds u
  have htotal := ts.rest_add_fieldUnits u
  -- one unit of the count is taken back into the rest, which turns its sign
  rcases h with ⟨hc, hr⟩ | ⟨hc, hr⟩
  · have hq : ts.total.tdiv u.length = ts.fieldUnits u - 1 := by
      apply tdiv_eq_of_rest (r := ts.rest u + u.length)
      · rw [Int.mul_sub, Int.mul_one]
        omega
      all_goals omega
    rw [hq, Int.sign_eq_one_of_pos hc]
    omega
  · have hq : ts.total.tdiv u.length = ts.fieldUnits u + 1 := by
      apply tdiv_eq_of_rest (r := ts.rest u - u.length)
      · rw [Int.mul_add, Int.mul_one]
        omega
      all_goals omega
    rw [hq, Int.sign_eq_neg_one_of_neg hc]
    omega

theorem SignsAgree.not_roundsAway (h : ts.SignsAgree) (u : TimeUnit) : ¬ts.RoundsAway u := by
  have := h.count u
  unfold RoundsAway
  omega

/-- Counting in a unit gives what the fields hold of it, if the seconds fit a word on their own and so does the whole, and overflows
otherwise. What the fields hold is the total divided by the unit with truncation, except where the rest of the nanoseconds has the
sign opposite to the count; there it is one unit further from zero. So it is the truncated quotient while the signs of the fields
agree, and the quotient rounded down for a normalized time. -/
theorem inUnits_rounding (u : TimeUnit) (ts : TimeSpec) :
    IsCount (FitsWord (ts.sec.toInt * (1000000000 / u.length))) (ts.fieldUnits u) (ts.inUnits u) ∧
      (ts.fieldUnits u ≠ ts.total.tdiv u.length ↔ ts.RoundsAway u) ∧
      (ts.RoundsAway u → ts.fieldUnits u = ts.total.tdiv u.length + (ts.fieldUnits u).sign) ∧
      (ts.SignsAgree → ts.fieldUnits u = ts.total.tdiv u.length) ∧
      (ts.isNormalized → ts.fieldUnits u = ts.total.fdiv u.length) := by
  refine ⟨isCount_inUnits u ts, ⟨?_, ?_⟩, fun h => h.fieldUnits_eq, ?_, ?_⟩
  · intro hne
    by_cases h : ts.RoundsAway u
    · exact h
    · exact absurd (tdiv_total_of_not_roundsAway h).symm hne
  · intro h heq
    have hsign : (ts.fieldUnits u).sign = 0 := by
      have := h.fieldUnits_eq
      omega
    have := Int.sign_eq_zero_iff_zero.1 hsign
    unfold RoundsAway at h
    omega
  · intro h
    exact (tdiv_total_of_not_roundsAway (h.not_roundsAway u)).symm
  · intro h
    have hrest : 0 ≤ ts.rest u := Int.tmod_nonneg _ (isNormalized_iff.1 h).1
    rw [Int.fdiv_eq_ediv_of_nonneg _ (Int.le_of_lt u.length_pos)]
    exact ((Int.ediv_emod_unique u.length_pos).2 ⟨ts.rest_add_fieldUnits u, hrest, (ts.rest_bounds u).2⟩).1.symm

/-- One nanosecond before the epoch, as the kernel gives it, is counted as one microsecond before it. With both fields negative a
time is truncated. -/
theorem inUnits_rounding_before_epoch :
    (∃ w, inUnits .microseconds ⟨-1, 999999999⟩ = .ok w ∧ w.toInt = fieldUnits .microseconds ⟨-1, 999999999⟩) ∧
      fieldUnits .microseconds ⟨-1, 999999999⟩ = (-1 : Int).tdiv 1000 + -1 ∧
      fieldUnits .microseconds ⟨-1, 999999999⟩ = (-1 : Int).fdiv 1000 ∧
      fieldUnits .milliseconds ⟨-1, -999999999⟩ = (-1999999999 : Int).tdiv 1000000 := by
  obtain ⟨hcount, -, haway, -, hdown⟩ := inUnits_rounding .microseconds ⟨-1, 999999999⟩
  exact ⟨hcount.returns (by decide), haway (by decide), hdown (by decide),
    (inUnits_rounding .milliseconds ⟨-1, -999999999⟩).2.2.2.1 (by decide)⟩

end TimeSpec

end KernelControl
