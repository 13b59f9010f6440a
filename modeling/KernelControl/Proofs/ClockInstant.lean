import KernelControl.Proofs.TimeUnits
import KernelControl.Proofs.TimeUse

/-!
# The current instant of a clock

The current instant counts a reading of the clock in nanoseconds without checking the two steps. What it computes is the total reduced
into a word (`uncheckedNanoseconds_eq`), so it is right wherever the steps stay inside a word, and that is exactly where the checked
count returns (`stepsFit_iff`). Normalized readings whose instants are right come in the order of their fields. A clock that cannot be
read is a fault or counts as its epoch. `now_reading` says all of it.
-/

namespace KernelControl

namespace TimeSpec

variable {ts : TimeSpec}

/-- The exact result of either step of the unchecked count is a word: of the product, and of the sum with the word that the product
was computed as. -/
structure StepsFit (ts : TimeSpec) : Prop where
  product : FitsWord (ts.sec.toInt * 1000000000)
  sum : FitsWord ((ts.sec * 1000000000).toInt + ts.nsec.toInt)

/-- The unchecked count is the total reduced into a word. -/
theorem uncheckedNanoseconds_eq (ts : TimeSpec) : ts.uncheckedNanoseconds = Int64.ofInt ts.total := by
  rw [total, Int64.ofInt_add, Int64.ofInt_mul, Int64.ofInt_toInt, Int64.ofInt_toInt]
  rfl

/-- The steps of the unchecked count stay inside a word exactly where the time can be counted. -/
theorem stepsFit_iff : ts.StepsFit ↔ ts.Convertible := by
  have hproduct : FitsWord (ts.sec.toInt * 1000000000) → (ts.sec * 1000000000).toInt = ts.sec.toInt * 1000000000 := by
    intro h
    rw [← toInt_ofInt_of_fits h, Int64.ofInt_mul, Int64.ofInt_toInt]
    rfl
  constructor
  · rintro ⟨hp, hs⟩
    rw [hproduct hp] at hs
    exact ⟨hp, hs⟩
  · rintro ⟨hp, hs⟩
    refine ⟨hp, ?_⟩
    rw [hproduct hp]
    exact hs

/-- There the unchecked count is that of the span. -/
theorem StepsFit.toDuration_eq (h : ts.StepsFit) : ts.toDuration = .ok ⟨ts.uncheckedNanoseconds⟩ := by
  have hcount : ts.inUnits .nanoseconds = .ok ts.uncheckedNanoseconds := by
    rw [uncheckedNanoseconds_eq]
    exact nanoseconds_of_convertible (stepsFit_iff.1 h)
  rw [toDuration, hcount]
  rfl

theorem StepsFit.toInt_uncheckedNanoseconds (h : ts.StepsFit) : ts.uncheckedNanoseconds.toInt = ts.total := by
  rw [uncheckedNanoseconds_eq, toInt_ofInt_of_fits (stepsFit_iff.1 h).2]

end TimeSpec

namespace ClockId

variable {clock : ClockId} {ts : TimeSpec} {replies : List Reply}

/-- A read that fails gives the code. -/
theorem getTime_of_neg (clock : ClockId) {reply : Reply} (rest : List Reply) (h : reply.result < 0) :
    (clock.getTime.run (reply :: rest)).1 = .error (.system reply.errno) := by
  rw [run_getTime, List.headD_cons, Reply.outcome_of_neg h]
  rfl

/-- The instant of a clock that is read is the unchecked count of the reading. -/
theorem now_of_getTime_ok (h : (clock.getTime.run replies).1 = .ok ts) (assertions : Bool) :
    ((clock.now assertions).run replies).1 = .ok ⟨ts.uncheckedNanoseconds⟩ := by
  rw [run_now, h]

theorem now_of_getTime_error {code : ErrorCode} (h : (clock.getTime.run replies).1 = .error code) (assertions : Bool) :
    ((clock.now assertions).run replies).1 = if assertions then .error .unreadable else .ok ⟨0⟩ := by
  rw [run_now, h]

/-- Whatever the kernel writes on a successful read of a clock, the unchecked count of the current instant stays inside a word at both
steps exactly where the checked count of the reading returns, and there the instant is the span of the reading. The instants of
normalized readings for which the count stays inside a word are in the order of the seconds, and of the nanoseconds within a second.
On a failed read there is a fault with assertions, and the epoch without. -/
theorem now_reading (clock : ClockId) (reply : Reply) (rest : List Reply) :
    (0 ≤ reply.result → ∃ ts, (clock.getTime.run (reply :: rest)).1 = .ok ts ∧
        (ts.StepsFit ↔ ∃ n, ts.nanoseconds = .ok n) ∧
        (ts.StepsFit → ∀ assertions, ∃ d, ((clock.now assertions).run (reply :: rest)).1 = .ok d ∧ ts.toDuration = .ok d) ∧
        (ts.isNormalized → ts.StepsFit →
          ∀ (other : ClockId) (replies : List Reply) (ts' : TimeSpec), (other.getTime.run replies).1 = .ok ts' →
            ts'.isNormalized → ts'.StepsFit →
            ∀ assertions assertions', ∃ d d', ((clock.now assertions).run (reply :: rest)).1 = .ok d ∧
              ((other.now assertions').run replies).1 = .ok d' ∧
              (d.count < d'.count ↔ ts.sec < ts'.sec ∨ ts.sec = ts'.sec ∧ ts.nsec < ts'.nsec))) ∧
      (reply.result < 0 →
        ((clock.now true).run (reply :: rest)).1 = .error .unreadable ∧
          ((clock.now false).run (reply :: rest)).1 = .ok ⟨0⟩) := by
  constructor
  · intro h
    have hget := clock.getTime_of_not_neg rest h
    refine ⟨_, hget, ?_, ?_, ?_⟩
    · rw [TimeSpec.stepsFit_iff, (TimeSpec.isCount_nanoseconds _).exists_ok_iff]
      rfl
    · intro hfit assertions
      exact ⟨_, now_of_getTime_ok hget assertions, hfit.toDuration_eq⟩
    · intro hnorm hfit other replies ts' hget' hnorm' hfit' assertions assertions'
      refine ⟨_, _, now_of_getTime_ok hget assertions, now_of_getTime_ok hget' assertions', ?_⟩
      rw [Int64.lt_iff_toInt_lt, hfit.toInt_uncheckedNanoseconds, hfit'.toInt_uncheckedNanoseconds]
      exact TimeSpec.total_lt_total_iff hnorm hnorm'
  · intro h
    have hget := clock.getTime_of_neg rest h
    exact ⟨now_of_getTime_error hget true, now_of_getTime_error hget false⟩

/-- A clock that reads one nanosecond before the epoch, and one for which the kernel writes nothing; then one that cannot be read. -/
theorem now_reading_before_epoch :
    (∃ d d', ((realtime.now true).run
          [{ written := [255, 255, 255, 255, 255, 255, 255, 255, 255, 0xc9, 0x9a, 0x3b, 0, 0, 0, 0] }]).1 = .ok d ∧
        ((tai.now false).run []).1 = .ok d' ∧ d.count < d'.count) ∧
      ((boottime.now true).run [{ result := -1, errno := 22 }]).1 = .error .unreadable := by
  obtain ⟨ts, hget, -, -, horder⟩ := (now_reading .realtime
    { written := [255, 255, 255, 255, 255, 255, 255, 255, 255, 0xc9, 0x9a, 0x3b, 0, 0, 0, 0] } []).1 (Int64.le_refl 0)
  obtain rfl : ⟨-1, 999999999⟩ = ts := Except.ok.inj hget
  obtain ⟨d, d', hd, hd', hlt⟩ :=
    horder (by decide) ⟨by decide, by decide⟩ .tai [] ⟨0, 0⟩ rfl (by decide) ⟨by decide, by decide⟩ true false
  exact ⟨⟨d, d', hd, hd', hlt.2 (by decide)⟩, ((now_reading .boottime { result := -1, errno := 22 } []).2 (by decide)).1⟩

end ClockId

end KernelControl
