import KernelControl.Time.Arithmetic

/-!
# Arithmetic with times is exact

A time that can be counted in nanoseconds is `Convertible`. An operation counts its operands, does one checked step on the counts
and splits the result, so each of them is the same statement (`IsExact`) with its own operands and its own exact result: a time is
returned exactly when the operands can be counted and the result fits a word, it is the result split with truncation, and
everything else is an overflow. `isExact_bind_nanoseconds` is the step for an operand and `isExact_split` the end; the operators
are put together from them (`operators_isExact`).
-/

namespace KernelControl

namespace TimeSpec

/-! ## Times that can be counted -/

/-- The time can be counted in nanoseconds: its seconds alone fit a word, and so does the total. -/
def Convertible (ts : TimeSpec) : Prop := FitsWord (ts.sec.toInt * 1000000000) ∧ FitsWord ts.total

instance (ts : TimeSpec) : Decidable ts.Convertible := by
  unfold Convertible
  infer_instance

variable {ts : TimeSpec}

/-- A convertible time is counted without loss. -/
theorem nanoseconds_of_convertible (h : ts.Convertible) : ts.nanoseconds = .ok (Int64.ofInt ts.total) := by
  rw [nanoseconds, inUnits_nanoseconds, checked_of_fits h.1, checked_of_fits h.2]
  rfl

/-- Counting any other time is an overflow. -/
theorem nanoseconds_of_not_convertible (h : ¬ts.Convertible) : ts.nanoseconds = .error .overflow := by
  rw [nanoseconds, inUnits_nanoseconds]
  by_cases hs : FitsWord (ts.sec.toInt * 1000000000)
  · rw [checked_of_fits hs, checked_of_not_fits fun ht => h ⟨hs, ht⟩]
    rfl
  · rw [checked_of_not_fits hs]
    rfl

/-- A total that fits is not enough: here the seconds alone are below the least word. -/
example : FitsWord (total ⟨-9223372037, 145224192⟩) ∧ ¬Convertible ⟨-9223372037, 145224192⟩ := by decide

/-- A number split with truncation can be counted again: the whole seconds are no further from zero than the number. -/
theorem convertible_of_split {n : Int} (hn : FitsWord n) (hs : ts.sec.toInt = n.tdiv 1000000000)
    (hr : ts.nsec.toInt = n.tmod 1000000000) : ts.Convertible ∧ ts.total = n := by
  have ht : ts.total = n := by
    rw [total, hs, hr]
    exact Int.tdiv_mul_add_tmod n 1000000000
  refine ⟨⟨?_, ht ▸ hn⟩, ht⟩
  have hq : (n.tdiv 1000000000).natAbs = n.natAbs / 1000000000 := Int.natAbs_tdiv n 1000000000
  unfold FitsWord at hn ⊢
  omega

/-- A word keeps its value in 128 bits. -/
theorem toInt_signExtend (a : Int64) : (a.toBitVec.signExtend 128).toInt = a.toInt := BitVec.toInt_signExtend_of_le (by decide)

/-- The seconds are counted in 128 bits without wrapping. -/
theorem toInt_wideProduct (ts : TimeSpec) :
    (ts.sec.toBitVec.signExtend 128 * 1000000000#128).toInt = ts.sec.toInt * 1000000000 := by
  have hlo := ts.sec.le_toInt
  have hhi := ts.sec.toInt_lt
  have hnanos : (1000000000#128).toInt = 1000000000 := by decide
  rw [BitVec.toInt_mul, toInt_signExtend, hnanos]
  exact Int.bmod_eq_of_le (by omega) (by omega)

/-- The count of a time in 128 bits never wraps. -/
theorem toInt_wideNanoseconds (ts : TimeSpec) : ts.wideNanoseconds.toInt = ts.total := by
  have hslo := ts.sec.le_toInt
  have hshi := ts.sec.toInt_lt
  have hnlo := ts.nsec.le_toInt
  have hnhi := ts.nsec.toInt_lt
  rw [wideNanoseconds, BitVec.toInt_add, toInt_wideProduct, toInt_signExtend, total]
  exact Int.bmod_eq_of_le (by omega) (by omega)

/-! ## Outcomes that are exact -/

/-- The outcome of an operation whose exact result is `n` nanoseconds, and whose operands can be counted when `ready` holds. -/
structure IsExact (ready : Prop) (n : Int) (outcome : Except TimeError TimeSpec) : Prop where
  /-- A time is returned exactly when the operands can be counted and the result fits a word. -/
  returns : (∃ ts, outcome = .ok ts) ↔ ready ∧ FitsWord n
  /-- The time returned is the exact result, divided by a second with truncation. -/
  value : ∀ ts, outcome = .ok ts → ts.sec.toInt = n.tdiv 1000000000 ∧ ts.nsec.toInt = n.tmod 1000000000
  /-- Whatever else happens is an overflow. -/
  overflows : ¬(ready ∧ FitsWord n) → outcome = .error .overflow

variable {ready : Prop} {n : Int}

/-- The result of an exact operation can be counted again, and stands for the exact result. -/
theorem IsExact.convertible {outcome : Except TimeError TimeSpec} (h : IsExact ready n outcome) (ht : outcome = .ok ts) :
    ts.Convertible ∧ ts.total = n :=
  convertible_of_split (h.returns.1 ⟨ts, ht⟩).2 (h.value ts ht).1 (h.value ts ht).2

/-- An overflow is right where the operands cannot be counted or the result does not fit. -/
theorem isExact_overflow (h : ¬(ready ∧ FitsWord n)) : IsExact ready n (.error .overflow) where
  returns := iff_of_false (fun ⟨_, ht⟩ => nomatch ht) h
  value _ ht := nomatch ht
  overflows _ := rfl

/-- The last step of every operation: the result is fitted into a word and split. -/
theorem isExact_split (n : Int) : IsExact True n (checked n >>= fun q => pure (ofUnits .nanoseconds q)) := by
  by_cases hn : FitsWord n
  · rw [checked_of_fits hn]
    refine ⟨iff_of_true ⟨_, rfl⟩ ⟨trivial, hn⟩, ?_, fun h => absurd ⟨trivial, hn⟩ h⟩
    intro ts ht
    obtain rfl : ofUnits .nanoseconds (Int64.ofInt n) = ts := Except.ok.inj ht
    rw [toInt_sec_ofUnits_nanoseconds, toInt_nsec_ofUnits_nanoseconds, toInt_ofInt_of_fits hn]
    exact ⟨rfl, rfl⟩
  · rw [checked_of_not_fits hn]
    exact isExact_overflow fun h => hn h.2

/-- The first steps of every operation: an operand is counted, and what follows works with a word that is its total. -/
theorem isExact_bind_nanoseconds {next : Int64 → Except TimeError TimeSpec}
    (h : ∀ w : Int64, w.toInt = ts.total → IsExact ready n (next w)) :
    IsExact (ts.Convertible ∧ ready) n (ts.nanoseconds >>= next) := by
  by_cases hc : ts.Convertible
  · rw [nanoseconds_of_convertible hc, eq_true hc, true_and]
    exact h _ (toInt_ofInt_of_fits hc.2)
  · rw [nanoseconds_of_not_convertible hc]
    exact isExact_overflow fun hr => hc hr.1.1

/-! ## The operators -/

theorem isExact_neg (a : TimeSpec) : IsExact a.Convertible (-a.total) a.neg := by
  rw [← and_true a.Convertible]
  apply isExact_bind_nanoseconds
  intro w hw
  have h : checkedSub 0 w = checked (-a.total) := by
    rw [checkedSub, hw, Int64.toInt_zero, Int.zero_sub]
  rw [h]
  exact isExact_split _

theorem isExact_add (a b : TimeSpec) : IsExact (a.Convertible ∧ b.Convertible) (a.total + b.total) (a + b) := by
  rw [← and_true b.Convertible]
  apply isExact_bind_nanoseconds
  intro v hv
  apply isExact_bind_nanoseconds
  intro w hw
  rw [checkedAdd, hv, hw]
  exact isExact_split _

theorem isExact_sub (a b : TimeSpec) : IsExact (a.Convertible ∧ b.Convertible) (a.total - b.total) (a - b) := by
  rw [← and_true b.Convertible]
  apply isExact_bind_nanoseconds
  intro v hv
  apply isExact_bind_nanoseconds
  intro w hw
  rw [checkedSub, hv, hw]
  exact isExact_split _

theorem isExact_mul (a : TimeSpec) (k : Int64) : IsExact a.Convertible (a.total * k.toInt) (a * k) := by
  rw [← and_true a.Convertible]
  apply isExact_bind_nanoseconds
  intro w hw
  rw [checkedMul, hw]
  exact isExact_split _

/-- The quotient of words is the quotient of their values, apart from the one that is no word; that one is taken as a
difference, which overflows. -/
theorem quotient_eq_checked (w : Int64) {k : Int64} (hk : k ≠ 0) :
    (if k = -1 then checkedSub 0 w else .ok (w / k)) = checked (w.toInt.tdiv k.toInt) := by
  by_cases h : k = -1
  · subst h
    have hm : (-1 : Int64).toInt = -1 := by decide
    rw [if_pos rfl, checkedSub, hm, Int64.toInt_zero, Int.zero_sub, Int.tdiv_neg, Int.tdiv_one]
  · rw [if_neg h, ← Int64.toInt_div_of_ne_right _ _ h, checked_toInt]

/-- Dividing by anything but zero counts the time and splits the quotient. -/
theorem div_of_ne_zero (a : TimeSpec) {k : Int64} (hk : k ≠ 0) :
    a / k = a.nanoseconds >>= fun w =>
      (if k = -1 then checkedSub 0 w else .ok (w / k)) >>= fun q => pure (ofUnits .nanoseconds q) := by
  show divWith (· / ·) a k = _
  rw [divWith, if_neg hk]
  congr 1
  funext w
  split
  · rfl
  · rfl

/-- A divisor of zero is reported for every time, whether it can be counted or not. -/
theorem div_zero (a : TimeSpec) : a / (0 : Int64) = .error .divisionByZero := by
  show divWith (· / ·) a 0 = _
  rw [divWith, if_pos rfl]

theorem isExact_div (a : TimeSpec) {k : Int64} (hk : k ≠ 0) :
    IsExact a.Convertible (a.total.tdiv k.toInt) (a / k) := by
  rw [div_of_ne_zero a hk, ← and_true a.Convertible]
  apply isExact_bind_nanoseconds
  intro w hw
  rw [quotient_eq_checked w hk, hw]
  exact isExact_split _

/-- Every operator on times is exact: it returns a time exactly when its operands can be counted in nanoseconds and the exact
result, over the integers and truncated for a quotient, fits a word; the time is that result split with truncation; and what does
not fit is an overflow, never another time. Division by zero is an error of its own, for every time. -/
theorem operators_isExact (a b : TimeSpec) (k : Int64) :
    IsExact a.Convertible (-a.total) a.neg ∧
      IsExact (a.Convertible ∧ b.Convertible) (a.total + b.total) (a + b) ∧
      IsExact (a.Convertible ∧ b.Convertible) (a.total - b.total) (a - b) ∧
      IsExact a.Convertible (a.total * k.toInt) (a * k) ∧
      IsExact a.Convertible (a.total * k.toInt) (k * a) ∧
      (k ≠ 0 → IsExact a.Convertible (a.total.tdiv k.toInt) (a / k)) ∧
      a / (0 : Int64) = .error .divisionByZero :=
  ⟨isExact_neg a, isExact_add a b, isExact_sub a b, isExact_mul a k, isExact_mul a k, isExact_div a, div_zero a⟩

/-- The least count has no quotient by minus one, although it can be counted. -/
example : ofUnits .nanoseconds (-0x8000000000000000) / (-1 : Int64) = .error .overflow := rfl

end TimeSpec

end KernelControl
