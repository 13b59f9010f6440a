import KernelControl.Time.Spec

/-!
# Arithmetic of times

Every operation counts its operands in nanoseconds, combines the counts with checked arithmetic, and splits the result
into seconds and nanoseconds again. A result is therefore exact or an error, never wrapped. Division truncates toward
zero; a zero divisor is reported before an operand is looked at.
-/

namespace KernelControl

namespace TimeSpec

/-- The time counted in nanoseconds. -/
def nanoseconds (ts : TimeSpec) : Except TimeError Int64 := ts.inUnits .nanoseconds

/-- The time counted in nanoseconds without a check. It is the count only where both steps fit a word. -/
def uncheckedNanoseconds (ts : TimeSpec) : Int64 := ts.sec * 1000000000 + ts.nsec

/-- The opposite of a time. -/
def neg (a : TimeSpec) : Except TimeError TimeSpec := do
  let n ← a.nanoseconds
  return ofUnits .nanoseconds (← checkedSub 0 n)

/-- The sum of two times. -/
def add (a b : TimeSpec) : Except TimeError TimeSpec := do
  let m ← a.nanoseconds
  let n ← b.nanoseconds
  return ofUnits .nanoseconds (← checkedAdd m n)

/-- The difference of two times. -/
def sub (a b : TimeSpec) : Except TimeError TimeSpec := do
  let m ← a.nanoseconds
  let n ← b.nanoseconds
  return ofUnits .nanoseconds (← checkedSub m n)

/-- A time taken `k` times. -/
def mul (a : TimeSpec) (k : Int64) : Except TimeError TimeSpec := do
  let n ← a.nanoseconds
  return ofUnits .nanoseconds (← checkedMul n k)

/-- A time divided by `k`, where `quotient` divides words. Dividing by minus one is a subtraction, since the quotient of
the least word by minus one is no word; so `quotient` is never asked for it, nor for a quotient by zero. -/
def divWith (quotient : Int64 → Int64 → Int64) (a : TimeSpec) (k : Int64) : Except TimeError TimeSpec :=
  if k = 0 then .error .divisionByZero
  else do
    let n ← a.nanoseconds
    let q ← if k = -1 then checkedSub 0 n else .ok (quotient n k)
    return ofUnits .nanoseconds q

/-- A time divided by `k`, toward zero. -/
def div (a : TimeSpec) (k : Int64) : Except TimeError TimeSpec := divWith (· / ·) a k

instance : HAdd TimeSpec TimeSpec (Except TimeError TimeSpec) := ⟨add⟩
instance : HSub TimeSpec TimeSpec (Except TimeError TimeSpec) := ⟨sub⟩
instance : HMul TimeSpec Int64 (Except TimeError TimeSpec) := ⟨mul⟩
instance : HMul Int64 TimeSpec (Except TimeError TimeSpec) := ⟨fun k a => a.mul k⟩
instance : HDiv TimeSpec Int64 (Except TimeError TimeSpec) := ⟨div⟩

end TimeSpec

end KernelControl
