/-!
# Checked 64-bit arithmetic

Times are counted in 64-bit words, and no result may wrap. Each operation is done on the exact integers and its result
is then fitted into a word (`checked`); a result that does not fit is an overflow.
-/

namespace KernelControl

/-- Why a computation with times has no result. -/
inductive TimeError where
  /-- A count does not fit a 64-bit word. -/
  | overflow
  /-- A time was divided by zero. -/
  | divisionByZero
deriving DecidableEq, Repr

namespace TimeError

/-- The wording of the error. -/
def message : TimeError → String
  | .overflow => "sysxx::time_spec: nanosecond count out of range"
  | .divisionByZero => "sysxx::time_spec: division by zero"

end TimeError

/-- The integer is the value of a 64-bit word. -/
def FitsWord (n : Int) : Prop := -0x8000000000000000 ≤ n ∧ n < 0x8000000000000000

instance (n : Int) : Decidable (FitsWord n) := by
  unfold FitsWord
  infer_instance

/-- The word with the given value, or an overflow. -/
def checked (n : Int) : Except TimeError Int64 :=
  if FitsWord n then .ok (Int64.ofInt n) else .error .overflow

/-- The sum of two words. -/
def checkedAdd (a b : Int64) : Except TimeError Int64 := checked (a.toInt + b.toInt)

/-- The difference of two words. -/
def checkedSub (a b : Int64) : Except TimeError Int64 := checked (a.toInt - b.toInt)

/-- The product of two words. -/
def checkedMul (a b : Int64) : Except TimeError Int64 := checked (a.toInt * b.toInt)

/-- The value of a word fits a word. -/
theorem fitsWord_toInt (a : Int64) : FitsWord a.toInt := ⟨a.le_toInt, a.toInt_lt⟩

/-- The word made from a value that fits has that value. -/
theorem toInt_ofInt_of_fits {n : Int} (h : FitsWord n) : (Int64.ofInt n).toInt = n := by
  obtain ⟨h₁, h₂⟩ := h
  exact Int64.toInt_ofInt_of_le h₁ h₂

/-- A value that fits is given as a word. -/
theorem checked_of_fits {n : Int} (h : FitsWord n) : checked n = .ok (Int64.ofInt n) := by
  simp [checked, h]

/-- A value that does not fit is an overflow. -/
theorem checked_of_not_fits {n : Int} (h : ¬FitsWord n) : checked n = .error .overflow := by
  simp [checked, h]

/-- A word's own value always fits. -/
theorem checked_toInt (a : Int64) : checked a.toInt = .ok a := by
  rw [checked_of_fits (fitsWord_toInt a), Int64.ofInt_toInt]

/-- The result is the word with exactly the value asked for. -/
theorem checked_eq_ok_iff {n : Int} {a : Int64} : checked n = .ok a ↔ a.toInt = n := by
  constructor
  · intro h
    by_cases hf : FitsWord n
    · rw [checked_of_fits hf] at h
      cases h
      exact toInt_ofInt_of_fits hf
    · rw [checked_of_not_fits hf] at h
      cases h
  · rintro rfl
    exact checked_toInt a

end KernelControl
