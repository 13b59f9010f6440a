import KernelControl.Time.Checked

/-!
# Times in seconds and nanoseconds

A `TimeSpec` is a pair of words. Its `total` is the exact number of nanoseconds it stands for, which need not fit a
word. Times read from the kernel are normalized (`0 ≤ nsec < 10⁹`). Times made from a count of some unit (`ofUnits`) are
divided with truncation toward zero, so both fields of a negative time are negative or zero (`IsCanonical`).
-/

namespace KernelControl

/-- A time: seconds and nanoseconds, with any values in either field. -/
structure TimeSpec where
  sec : Int64 := 0
  nsec : Int64 := 0
deriving DecidableEq, Repr

/-- The units a time can be counted in. -/
inductive TimeUnit where
  | seconds
  | milliseconds
  | microseconds
  | nanoseconds
deriving DecidableEq, Repr

namespace TimeUnit

/-- How many of the unit make a second. -/
def perSecond : TimeUnit → Int64
  | .seconds => 1
  | .milliseconds => 1000
  | .microseconds => 1000000
  | .nanoseconds => 1000000000

/-- How many nanoseconds make the unit. -/
def nanos : TimeUnit → Int64
  | .seconds => 1000000000
  | .milliseconds => 1000000
  | .microseconds => 1000
  | .nanoseconds => 1

/-- A second has as many nanoseconds in every unit. -/
theorem perSecond_mul_nanos (u : TimeUnit) : u.perSecond.toInt * u.nanos.toInt = 1000000000 := by
  cases u <;> decide

theorem nanos_pos (u : TimeUnit) : 0 < u.nanos.toInt := by
  cases u <;> decide

/-- No unit is zero or minus one, the divisors by which a quotient of words may be no word. -/
theorem perSecond_ne_zero (u : TimeUnit) : u.perSecond ≠ 0 := by
  cases u <;> decide

theorem perSecond_ne_neg_one (u : TimeUnit) : u.perSecond ≠ -1 := by
  cases u <;> decide

theorem nanos_ne_zero (u : TimeUnit) : u.nanos ≠ 0 := by
  cases u <;> decide

theorem nanos_ne_neg_one (u : TimeUnit) : u.nanos ≠ -1 := by
  cases u <;> decide

end TimeUnit

/-- A signed span of time, counted in nanoseconds. -/
structure Duration where
  count : Int64
deriving DecidableEq, Repr

namespace TimeSpec

/-- The time with both fields zero. -/
def zero : TimeSpec := {}

/-- The exact number of nanoseconds. -/
def total (ts : TimeSpec) : Int := ts.sec.toInt * 1000000000 + ts.nsec.toInt

/-- The nanoseconds are a fraction of a second, as in every time read from the kernel. -/
def isNormalized (ts : TimeSpec) : Bool := decide (0 ≤ ts.nsec) && decide (ts.nsec < 1000000000)

/-- The nanoseconds are a fraction of a second and the fields do not have opposite signs. -/
def IsCanonical (ts : TimeSpec) : Prop :=
  (-1000000000 < ts.nsec.toInt ∧ ts.nsec.toInt < 1000000000) ∧
    ¬(ts.sec.toInt < 0 ∧ 0 < ts.nsec.toInt) ∧ ¬(0 < ts.sec.toInt ∧ ts.nsec.toInt < 0)

instance (ts : TimeSpec) : Decidable ts.IsCanonical := by
  unfold IsCanonical
  infer_instance

/-! ## From and to a count -/

/-- The time of `v` units. The words are divided with truncation, so the remainder has the sign of `v`. -/
def ofUnits (u : TimeUnit) (v : Int64) : TimeSpec := ⟨v / u.perSecond, v % u.perSecond * u.nanos⟩

/-- The time counted in units: the whole seconds first, then the nanoseconds divided with truncation. It overflows when
either step does. -/
def inUnits (u : TimeUnit) (ts : TimeSpec) : Except TimeError Int64 := do
  let whole ← checkedMul ts.sec u.perSecond
  checkedAdd whole (ts.nsec / u.nanos)

/-- The time of a span. -/
def ofDuration (d : Duration) : TimeSpec := ofUnits .nanoseconds d.count

/-- The time as a span. -/
def toDuration (ts : TimeSpec) : Except TimeError Duration := do
  return ⟨← ts.inUnits .nanoseconds⟩

/-- The time counted in nanoseconds in a word of 128 bits. -/
def wideNanoseconds (ts : TimeSpec) : BitVec 128 :=
  ts.sec.toBitVec.signExtend 128 * 1000000000#128 + ts.nsec.toBitVec.signExtend 128

/-! ## Small facts -/

/-- Times with the same values in their fields are equal. -/
theorem ext_toInt {a b : TimeSpec} (hs : a.sec.toInt = b.sec.toInt) (hn : a.nsec.toInt = b.nsec.toInt) : a = b := by
  cases a
  cases b
  simp_all [Int64.toInt_inj]

/-- In nanoseconds the count is the total, if both steps fit. -/
theorem inUnits_nanoseconds (ts : TimeSpec) :
    ts.inUnits .nanoseconds = (checked (ts.sec.toInt * 1000000000)).bind fun _ => checked ts.total := by
  have hd : (ts.nsec / TimeUnit.nanoseconds.nanos).toInt = ts.nsec.toInt := by
    rw [TimeUnit.nanos, Int64.toInt_div_of_ne_right _ _ (by decide)]
    exact Int.tdiv_one _
  have hp : TimeUnit.nanoseconds.perSecond.toInt = 1000000000 := by decide
  simp only [inUnits, checkedMul, hp, checkedAdd, hd, bind]
  cases hc : checked (ts.sec.toInt * 1000000000) with
  | error e => rfl
  | ok a =>
    simp only [Except.bind]
    rw [checked_eq_ok_iff.1 hc, total]

/-- The seconds of a time made from a count are the exact number of nanoseconds divided by a second with truncation. -/
theorem toInt_sec_ofUnits (u : TimeUnit) (v : Int64) :
    (ofUnits u v).sec.toInt = (v.toInt * u.nanos.toInt).tdiv 1000000000 := by
  rw [ofUnits, Int64.toInt_div_of_ne_right _ _ u.perSecond_ne_neg_one, ← u.perSecond_mul_nanos, Int.mul_comm v.toInt,
    Int.mul_comm u.perSecond.toInt, Int.mul_tdiv_mul_of_pos _ _ u.nanos_pos]

/-- What is left over by the whole seconds, in nanoseconds. -/
theorem toInt_mod_mul_nanos (u : TimeUnit) (v : Int64) :
    (v % u.perSecond).toInt * u.nanos.toInt = (v.toInt * u.nanos.toInt).tmod 1000000000 := by
  rw [Int64.toInt_mod, ← u.perSecond_mul_nanos, Int.mul_comm v.toInt, Int.mul_comm u.perSecond.toInt,
    Int.mul_tmod_mul_of_pos _ _ u.nanos_pos, Int.mul_comm]

/-- The nanoseconds are the remainder that goes with the truncated quotient. -/
theorem toInt_nsec_ofUnits (u : TimeUnit) (v : Int64) :
    (ofUnits u v).nsec.toInt = (v.toInt * u.nanos.toInt).tmod 1000000000 := by
  have hlo : -1000000000 < (v.toInt * u.nanos.toInt).tmod 1000000000 := Int.lt_tmod_of_pos _ (by decide)
  have hhi : (v.toInt * u.nanos.toInt).tmod 1000000000 < 1000000000 := Int.tmod_lt_of_pos _ (by decide)
  rw [ofUnits, Int64.toInt_mul, toInt_mod_mul_nanos]
  exact Int.bmod_eq_of_le (by omega) (by omega)

/-- A time made from a count stands for exactly the nanoseconds of the count. -/
theorem total_ofUnits (u : TimeUnit) (v : Int64) : (ofUnits u v).total = v.toInt * u.nanos.toInt := by
  rw [total, toInt_sec_ofUnits, toInt_nsec_ofUnits]
  exact Int.tdiv_mul_add_tmod _ _

theorem toInt_sec_ofUnits_nanoseconds (v : Int64) :
    (ofUnits .nanoseconds v).sec.toInt = v.toInt.tdiv 1000000000 := by
  have h1 : TimeUnit.nanoseconds.nanos.toInt = 1 := by decide
  rw [toInt_sec_ofUnits, h1, Int.mul_one]

theorem toInt_nsec_ofUnits_nanoseconds (v : Int64) :
    (ofUnits .nanoseconds v).nsec.toInt = v.toInt.tmod 1000000000 := by
  have h1 : TimeUnit.nanoseconds.nanos.toInt = 1 := by decide
  rw [toInt_nsec_ofUnits, h1, Int.mul_one]

end TimeSpec

end KernelControl
