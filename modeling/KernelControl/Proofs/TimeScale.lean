import KernelControl.Proofs.TimeUnits

/-!
# Times made from counts

A time is made from a count of some unit, or from a span, and can be counted in any other. The exact number of nanoseconds that a count
stands for usually fits no word; the time holds it all the same, in fields whose signs agree (`isCanonical_ofUnits`). So counting it
again truncates the exact number, and on the scale it was made on gives the count back (`read_make`).
-/

namespace KernelControl

namespace TimeSpec

variable {ts : TimeSpec}

theorem IsCanonical.signsAgree (h : ts.IsCanonical) : ts.SignsAgree := h.2

/-- Fields that are a number divided by a second with truncation are a fraction of a second and have the sign of the number. -/
theorem isCanonical_of_split {n : Int} (hs : ts.sec.toInt = n.tdiv 1000000000) (hr : ts.nsec.toInt = n.tmod 1000000000) :
    ts.IsCanonical := by
  have hlo : -1000000000 < n.tmod 1000000000 := Int.lt_tmod_of_pos n (by decide)
  have hhi : n.tmod 1000000000 < 1000000000 := Int.tmod_lt_of_pos n (by decide)
  rw [IsCanonical, hs, hr]
  by_cases hn : 0 ≤ n
  · have := Int.tdiv_nonneg hn (show (0 : Int) ≤ 1000000000 by decide)
    have := Int.tmod_nonneg 1000000000 hn
    omega
  · have := tdiv_tmod_nonpos (n := n) (u := 1000000000) (by omega) (by decide)
    omega

/-- A time made from a count is canonical. -/
theorem isCanonical_ofUnits (u : TimeUnit) (v : Int64) : (ofUnits u v).IsCanonical :=
  isCanonical_of_split (toInt_sec_ofUnits u v) (toInt_nsec_ofUnits u v)

/-- Counting it again truncates the exact number of nanoseconds. -/
theorem isCount_inUnits_ofUnits (u u' : TimeUnit) (v : Int64) :
    IsCount True ((v.toInt * u.length).tdiv u'.length) ((ofUnits u v).inUnits u') := by
  have h := (isCanonical_ofUnits u v).signsAgree
  rw [← u.toInt_nanos, ← total_ofUnits, tdiv_total_of_not_roundsAway (h.not_roundsAway u')]
  exact h.isCount u'

/-- The count of the span of a time is its count in nanoseconds. -/
theorem map_count_toDuration (ts : TimeSpec) : ts.toDuration.map Duration.count = ts.inUnits .nanoseconds := by
  rw [toDuration]
  cases ts.inUnits .nanoseconds <;> rfl

end TimeSpec

/-! ## Scales -/

/-- A scale on which times are given as words: the counts of a unit, or spans. -/
inductive TimeScale where
  | unit (u : TimeUnit)
  | span
deriving DecidableEq, Repr

namespace TimeScale

/-- How many nanoseconds one on the scale stands for. -/
def length : TimeScale → Int
  | .unit u => u.length
  | .span => 1

/-- The time that a word gives. -/
def make : TimeScale → Int64 → TimeSpec
  | .unit u, v => .ofUnits u v
  | .span, v => .ofDuration ⟨v⟩

/-- The word that gives the time. -/
def read : TimeScale → TimeSpec → Except TimeError Int64
  | .unit u, ts => ts.inUnits u
  | .span, ts => ts.toDuration.map Duration.count

/-- Every scale counts some unit; a span counts nanoseconds. -/
theorem exists_unit (scale : TimeScale) :
    ∃ u : TimeUnit, scale.length = u.length ∧ (∀ v, scale.make v = .ofUnits u v) ∧ ∀ ts, scale.read ts = ts.inUnits u := by
  cases scale with
  | unit u => exact ⟨u, rfl, fun _ => rfl, fun _ => rfl⟩
  | span => exact ⟨.nanoseconds, rfl, fun _ => rfl, TimeSpec.map_count_toDuration⟩

/-- A word on any scale gives the time whose fields are the exact number of nanoseconds divided by a second with truncation. Read on
any scale, this time gives that number divided by the scale's unit with truncation, if the quotient fits a word, and overflows
otherwise. On the scale it was made on, it gives the word back. -/
theorem read_make (source target : TimeScale) (v : Int64) :
    (source.make v).sec.toInt = (v.toInt * source.length).tdiv 1000000000 ∧
      (source.make v).nsec.toInt = (v.toInt * source.length).tmod 1000000000 ∧
      IsCount True ((v.toInt * source.length).tdiv target.length) (target.read (source.make v)) ∧
      source.read (source.make v) = .ok v := by
  obtain ⟨u, hlength, hmake, hread⟩ := source.exists_unit
  obtain ⟨u', hlength', -, hread'⟩ := target.exists_unit
  rw [hlength, hlength', hmake, hread, hread']
  refine ⟨?_, ?_, TimeSpec.isCount_inUnits_ofUnits u u' v, ?_⟩
  · rw [TimeSpec.toInt_sec_ofUnits, u.toInt_nanos]
  · rw [TimeSpec.toInt_nsec_ofUnits, u.toInt_nanos]
  · have hback := TimeSpec.isCount_inUnits_ofUnits u u v
    rw [Int.mul_tdiv_cancel _ (Int.ne_of_gt u.length_pos)] at hback
    exact hback.eq_ok

/-- The least count of milliseconds is more nanoseconds than fit a word; in seconds it is truncated. -/
example : (unit .nanoseconds).read ((unit .milliseconds).make (-0x8000000000000000)) = .error .overflow ∧
    (unit .seconds).read ((unit .milliseconds).make (-0x8000000000000000)) = .ok (-9223372036854775) :=
  ⟨rfl, rfl⟩

end TimeScale

end KernelControl
