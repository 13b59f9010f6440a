import KernelControl.Proofs.TimeExpression

/-!
# Unchecked arithmetic stays inside its type

Times are computed by checked steps and, where the result is known to fit, by plain operations on words. A plain operation is
undefined when its exact result is no value of its type: a quotient by zero, the quotient of the least word by minus one, a product
or a sum that is out of range. No computation on times ever evaluates an undefined operation, whether it ends in a time or in an
error (`unchecked_isDefined`).

A result does not show which operations were evaluated: one whose result is not used leaves no trace in it. So every computation is
read here in an arithmetic that it is given (`WordArithmetic`), whose operations may have an effect. With the operations of the words
it is the computation of the library, and with operations that stop everything where they are undefined it gives the same outcome
(`IsDefined`). Both are cases of one fact, that the outcome is the same whatever the undefined operations do (`Agrees`).
-/

namespace KernelControl

/-! ## Where a plain operation is defined -/

/-- The integer is the value of a signed word of 128 bits. -/
def FitsWide (n : Int) : Prop := -0x80000000000000000000000000000000 ≤ n ∧ n < 0x80000000000000000000000000000000

instance (n : Int) : Decidable (FitsWide n) := by
  unfold FitsWide
  infer_instance

/-- The quotient of two words, truncated toward zero, is a word. -/
def QuotientFits (a b : Int64) : Prop := b ≠ 0 ∧ FitsWord (a.toInt.tdiv b.toInt)

instance (a b : Int64) : Decidable (QuotientFits a b) := by
  unfold QuotientFits
  infer_instance

/-- The only quotients that are no words are those by zero, and that of the least word by minus one. -/
theorem quotientFits_iff {a b : Int64} : QuotientFits a b ↔ b ≠ 0 ∧ ¬(a = Int64.minValue ∧ b = -1) := by
  constructor
  · rintro ⟨hb, hf⟩
    refine ⟨hb, ?_⟩
    rintro ⟨rfl, rfl⟩
    exact absurd hf (by decide)
  · rintro ⟨hb, hne⟩
    have hq : (a / b).toInt = a.toInt.tdiv b.toInt := by
      by_cases ha : a = Int64.minValue
      · exact Int64.toInt_div_of_ne_right a b fun h => hne ⟨ha, h⟩
      · exact Int64.toInt_div_of_ne_left a b ha
    exact ⟨hb, hq ▸ fitsWord_toInt (a / b)⟩

theorem quotientFits_of_ne (a : Int64) {b : Int64} (hzero : b ≠ 0) (hone : b ≠ -1) : QuotientFits a b :=
  quotientFits_iff.2 ⟨hzero, fun h => hone h.2⟩

namespace TimeUnit

/-- What the whole seconds leave over of a count is less than a second, also when it is taken in nanoseconds. -/
theorem natAbs_remainder_mul_lt (u : TimeUnit) (v : Int64) :
    ((v % u.perSecond).toInt * u.nanos.toInt).natAbs < 1000000000 := by
  have hlo : -1000000000 < (v.toInt * u.nanos.toInt).tmod 1000000000 := Int.lt_tmod_of_pos _ (by decide)
  have hhi : (v.toInt * u.nanos.toInt).tmod 1000000000 < 1000000000 := Int.tmod_lt_of_pos _ (by decide)
  rw [TimeSpec.toInt_mod_mul_nanos]
  omega

theorem fitsWord_remainder_mul (u : TimeUnit) (v : Int64) : FitsWord ((v % u.perSecond).toInt * u.nanos.toInt) := by
  have := u.natAbs_remainder_mul_lt v
  unfold FitsWord
  omega

end TimeUnit

namespace TimeSpec

theorem fitsWide_product (ts : TimeSpec) : FitsWide (ts.sec.toInt * 1000000000) := by
  have hlo := ts.sec.le_toInt
  have hhi := ts.sec.toInt_lt
  unfold FitsWide
  omega

theorem fitsWide_total (ts : TimeSpec) : FitsWide ts.total := by
  have hslo := ts.sec.le_toInt
  have hshi := ts.sec.toInt_lt
  have hnlo := ts.nsec.le_toInt
  have hnhi := ts.nsec.toInt_lt
  unfold FitsWide total
  omega

/-- A division does not depend on what is taken for the quotients that are no words. -/
theorem divWith_eq_div {quotient : Int64 → Int64 → Int64} (hq : ∀ a b, QuotientFits a b → quotient a b = a / b)
    (ts : TimeSpec) (k : Int64) : divWith quotient ts k = ts / k := by
  by_cases hzero : k = 0
  · rw [hzero, div_zero, divWith, if_pos rfl]
  · rw [div_of_ne_zero ts hzero, divWith, if_neg hzero]
    congr 1
    funext n
    by_cases hone : k = -1
    · rw [if_pos hone, if_pos hone]
    · rw [if_neg hone, if_neg hone, hq n k (quotientFits_of_ne n hzero hone)]

end TimeSpec

/-! ## Arithmetics -/

/-- What the plain operations do. They give a word, and may do so with an effect. -/
structure WordArithmetic (m : Type → Type) where
  quotient : Int64 → Int64 → m Int64
  remainder : Int64 → Int64 → m Int64
  product : Int64 → Int64 → m Int64
  wideProduct : BitVec 128 → BitVec 128 → m (BitVec 128)
  wideSum : BitVec 128 → BitVec 128 → m (BitVec 128)

namespace WordArithmetic

/-- The operations of the words, which give some word in every case. -/
def wrapping : WordArithmetic Id where
  quotient a b := a / b
  remainder a b := a % b
  product a b := a * b
  wideProduct a b := a * b
  wideSum a b := a + b

/-- The operations that stop everything where they are undefined. A remainder is undefined where the quotient is. -/
def trapping : WordArithmetic Option where
  quotient a b := if QuotientFits a b then some (a / b) else none
  remainder a b := if QuotientFits a b then some (a % b) else none
  product a b := if FitsWord (a.toInt * b.toInt) then some (a * b) else none
  wideProduct a b := if FitsWide (a.toInt * b.toInt) then some (a * b) else none
  wideSum a b := if FitsWide (a.toInt + b.toInt) then some (a + b) else none

/-- A quotient traps in exactly two cases. -/
theorem trapping_quotient_eq_none_iff (a b : Int64) :
    trapping.quotient a b = none ↔ b = 0 ∨ (a = Int64.minValue ∧ b = -1) := by
  have htrap : trapping.quotient a b = none ↔ ¬QuotientFits a b := by simp [trapping]
  rw [htrap, quotientFits_iff, Classical.not_and_iff_not_or_not, Classical.not_not, Classical.not_not]

variable {m : Type → Type} [Monad m]

/-- Wherever an operation is defined it gives the result and does nothing else. Where it is not, it may give any word and have any
effect. -/
structure Agrees (ops : WordArithmetic m) : Prop where
  quotient : ∀ {a b}, QuotientFits a b → ops.quotient a b = pure (a / b)
  remainder : ∀ {a b}, QuotientFits a b → ops.remainder a b = pure (a % b)
  product : ∀ {a b}, FitsWord (a.toInt * b.toInt) → ops.product a b = pure (a * b)
  wideProduct : ∀ {a b}, FitsWide (a.toInt * b.toInt) → ops.wideProduct a b = pure (a * b)
  wideSum : ∀ {a b}, FitsWide (a.toInt + b.toInt) → ops.wideSum a b = pure (a + b)

theorem agrees_wrapping : wrapping.Agrees :=
  ⟨fun _ => rfl, fun _ => rfl, fun _ => rfl, fun _ => rfl, fun _ => rfl⟩

theorem agrees_trapping : trapping.Agrees :=
  ⟨fun h => if_pos h, fun h => if_pos h, fun h => if_pos h, fun h => if_pos h, fun h => if_pos h⟩

/-! ## Computations in an arithmetic -/

section

variable (ops : WordArithmetic m)

/-- The time of `v` units. -/
def ofUnits (u : TimeUnit) (v : Int64) : m TimeSpec := do
  let sec ← ops.quotient v u.perSecond
  let part ← ops.remainder v u.perSecond
  let nsec ← ops.product part u.nanos
  return ⟨sec, nsec⟩

/-- The time counted in units. The quotient is taken first, so that it is evaluated also when the seconds overflow. -/
def inUnits (u : TimeUnit) (ts : TimeSpec) : ExceptT TimeError m Int64 := do
  let part ← ops.quotient ts.nsec u.nanos
  let whole ← checkedMul ts.sec u.perSecond
  checkedAdd whole part

/-- The time counted in nanoseconds in a word of 128 bits. -/
def wideNanoseconds (ts : TimeSpec) : m (BitVec 128) := do
  let whole ← ops.wideProduct (ts.sec.toBitVec.signExtend 128) 1000000000#128
  ops.wideSum whole (ts.nsec.toBitVec.signExtend 128)

/-- An operator on one time. -/
def unary : UnaryTimeOp → TimeSpec → ExceptT TimeError m TimeSpec
  | .neg, a => do
    let n ← ops.inUnits .nanoseconds a
    let r ← checkedSub 0 n
    ops.ofUnits .nanoseconds r
  | .mul k, a | .mulLeft k, a => do
    let n ← ops.inUnits .nanoseconds a
    let r ← checkedMul n k
    ops.ofUnits .nanoseconds r
  | .div k, a =>
    if k = 0 then throw .divisionByZero
    else do
      let n ← ops.inUnits .nanoseconds a
      let r ← (if k = -1 then liftM (checkedSub 0 n) else liftM (ops.quotient n k))
      ops.ofUnits .nanoseconds r

/-- An operator on two times. -/
def binary (op : BinaryTimeOp) (a b : TimeSpec) : ExceptT TimeError m TimeSpec := do
  let v ← ops.inUnits .nanoseconds a
  let w ← ops.inUnits .nanoseconds b
  let r ← match op with
    | .add => checkedAdd v w
    | .sub => checkedSub v w
  ops.ofUnits .nanoseconds r

/-- An expression, evaluated node by node. -/
def eval : TimeExpr → ExceptT TimeError m TimeSpec
  | .time ts => return ts
  | .unary op e => do ops.unary op (← eval e)
  | .binary op e f => do ops.binary op (← eval e) (← eval f)

end

/-! ## What the undefined operations do makes no difference -/

variable {ops : WordArithmetic m} [LawfulMonad m] {α β : Type}

/-- What does no more than give an outcome is followed by what follows the outcome. -/
theorem run_bind_of_run {x : ExceptT TimeError m α} {next : α → ExceptT TimeError m β} {outcome : Except TimeError α}
    {step : α → Except TimeError β} (hx : x.run = pure outcome) (hn : ∀ a, (next a).run = pure (step a)) :
    (x >>= next).run = pure (outcome >>= step) := by
  rw [ExceptT.run_bind, hx, pure_bind]
  cases outcome with
  | error e => rfl
  | ok a => exact hn a

theorem run_liftM_of_eq_pure {x : m α} {a : α} (hx : x = pure a) :
    (liftM x : ExceptT TimeError m α).run = pure (.ok a) := by
  rw [hx]
  exact map_pure _ _

namespace Agrees

/-- Making a time divides by the size of a unit and multiplies what is less than a second. -/
theorem ofUnits_eq (h : ops.Agrees) (u : TimeUnit) (v : Int64) : ops.ofUnits u v = pure (.ofUnits u v) := by
  have hq : QuotientFits v u.perSecond := quotientFits_of_ne v u.perSecond_ne_zero u.perSecond_ne_neg_one
  rw [ofUnits, h.quotient hq, pure_bind, h.remainder hq, pure_bind, h.product (u.fitsWord_remainder_mul v), pure_bind]
  rfl

/-- Counting a time divides by the size of a unit. -/
theorem run_inUnits (h : ops.Agrees) (u : TimeUnit) (ts : TimeSpec) : (ops.inUnits u ts).run = pure (ts.inUnits u) := by
  have hq : QuotientFits ts.nsec u.nanos := quotientFits_of_ne ts.nsec u.nanos_ne_zero u.nanos_ne_neg_one
  have hcount : ts.inUnits u =
      (Except.ok (ts.nsec / u.nanos) >>= fun part => checkedMul ts.sec u.perSecond >>= fun whole => checkedAdd whole part) := rfl
  -- the library takes the product first; in words the order makes no difference
  rw [hcount]
  apply run_bind_of_run (run_liftM_of_eq_pure (h.quotient hq))
  intro part
  exact run_bind_of_run rfl fun _ => rfl

/-- Counting a time in 128 bits multiplies and adds what fits them. -/
theorem wideNanoseconds_eq (h : ops.Agrees) (ts : TimeSpec) : ops.wideNanoseconds ts = pure ts.wideNanoseconds := by
  have hnanos : (1000000000#128).toInt = 1000000000 := by decide
  have hp : FitsWide ((ts.sec.toBitVec.signExtend 128).toInt * (1000000000#128).toInt) := by
    rw [TimeSpec.toInt_signExtend, hnanos]
    exact ts.fitsWide_product
  have hs : FitsWide ((ts.sec.toBitVec.signExtend 128 * 1000000000#128).toInt + (ts.nsec.toBitVec.signExtend 128).toInt) := by
    rw [TimeSpec.toInt_wideProduct, TimeSpec.toInt_signExtend]
    exact ts.fitsWide_total
  rw [wideNanoseconds, h.wideProduct hp, pure_bind, h.wideSum hs]
  rfl

/-- The last step of every operator. -/
theorem run_split (h : ops.Agrees) (n : Int64) :
    (liftM (ops.ofUnits .nanoseconds n) : ExceptT TimeError m TimeSpec).run = pure (pure (.ofUnits .nanoseconds n)) :=
  run_liftM_of_eq_pure (h.ofUnits_eq .nanoseconds n)

/-- A division is the only operator with a plain operation of its own, and evaluates it with a divisor that is neither zero nor minus
one. -/
theorem run_unary (h : ops.Agrees) (op : UnaryTimeOp) (a : TimeSpec) : (ops.unary op a).run = pure (op.apply a) := by
  have hcount := h.run_inUnits .nanoseconds a
  cases op with
  | neg => exact run_bind_of_run hcount fun n => run_bind_of_run rfl h.run_split
  | mul k => exact run_bind_of_run hcount fun n => run_bind_of_run rfl h.run_split
  | mulLeft k => exact run_bind_of_run hcount fun n => run_bind_of_run rfl h.run_split
  | div k =>
    by_cases hzero : k = 0
    · rw [UnaryTimeOp.apply, hzero, TimeSpec.div_zero]
      rfl
    · rw [UnaryTimeOp.apply, TimeSpec.div_of_ne_zero a hzero, unary, if_neg hzero]
      apply run_bind_of_run hcount
      intro n
      apply run_bind_of_run _ h.run_split
      by_cases hone : k = -1
      · rw [if_pos hone, if_pos hone]
        rfl
      · rw [if_neg hone, if_neg hone]
        exact run_liftM_of_eq_pure (h.quotient (quotientFits_of_ne n hzero hone))

theorem run_binary (h : ops.Agrees) (op : BinaryTimeOp) (a b : TimeSpec) : (ops.binary op a b).run = pure (op.apply a b) := by
  have ha := h.run_inUnits .nanoseconds a
  have hb := h.run_inUnits .nanoseconds b
  cases op with
  | add => exact run_bind_of_run ha fun v => run_bind_of_run hb fun w => run_bind_of_run rfl h.run_split
  | sub => exact run_bind_of_run ha fun v => run_bind_of_run hb fun w => run_bind_of_run rfl h.run_split

/-- An expression gives its outcome. The induction is on the tree; an operand that ends in an error ends the whole tree. -/
theorem run_eval (h : ops.Agrees) (e : TimeExpr) : (ops.eval e).run = pure e.eval := by
  induction e with
  | time ts => rfl
  | unary op e ih => exact run_bind_of_run ih (h.run_unary op)
  | binary op e f ihe ihf => exact run_bind_of_run ihe fun a => run_bind_of_run ihf (h.run_binary op a)

end Agrees

end WordArithmetic

/-! ## Computations that are defined -/

/-- The computation gives the outcome and evaluates no undefined operation. -/
structure IsDefined {α : Type} (computation : ∀ {m : Type → Type} [Monad m], WordArithmetic m → m α) (outcome : α) : Prop where
  /-- With the operations of the words it gives the outcome. -/
  value : Id.run (computation WordArithmetic.wrapping) = outcome
  /-- With operations that trap it gives the same outcome, so none of those it evaluates is undefined. -/
  noTrap : computation WordArithmetic.trapping = some outcome

theorem isDefined_of_agrees {α : Type} {computation : ∀ {m : Type → Type} [Monad m], WordArithmetic m → m α} {outcome : α}
    (h : ∀ {m : Type → Type} [Monad m] [LawfulMonad m] {ops : WordArithmetic m},
      ops.Agrees → computation ops = pure outcome) :
    IsDefined computation outcome :=
  ⟨h WordArithmetic.agrees_wrapping, h WordArithmetic.agrees_trapping⟩

/-- Nothing unchecked leaves its type. The product that makes a time from a count is less than a second, so it is a word, and the
product and the sum that count a time in 128 bits are in their range. A quotient is undefined by zero, and for the least word by minus
one; yet with operations that trap where they are undefined a time is made, counted and divided as it is without, and every expression
evaluated, be the outcome a time or an error. Nor does a division depend on what is taken for the quotients that are no words. -/
theorem unchecked_isDefined (u : TimeUnit) (v : Int64) (ts : TimeSpec) (k : Int64) (e : TimeExpr) :
    (FitsWord ((v % u.perSecond).toInt * u.nanos.toInt) ∧ ((v % u.perSecond).toInt * u.nanos.toInt).natAbs < 1000000000) ∧
      (FitsWide (ts.sec.toInt * 1000000000) ∧ FitsWide (ts.sec.toInt * 1000000000 + ts.nsec.toInt)) ∧
      (∀ a b, WordArithmetic.trapping.quotient a b = none ↔ b = 0 ∨ (a = Int64.minValue ∧ b = -1)) ∧
      IsDefined (fun ops => ops.ofUnits u v) (TimeSpec.ofUnits u v) ∧
      IsDefined (fun ops => (ops.inUnits u ts).run) (ts.inUnits u) ∧
      IsDefined (fun ops => ops.wideNanoseconds ts) ts.wideNanoseconds ∧
      IsDefined (fun ops => (ops.unary (.div k) ts).run) (ts / k) ∧
      IsDefined (fun ops => (ops.eval e).run) e.eval ∧
      ∀ quotient : Int64 → Int64 → Int64, (∀ a b, QuotientFits a b → quotient a b = a / b) →
        TimeSpec.divWith quotient ts k = ts / k := by
  refine ⟨⟨u.fitsWord_remainder_mul v, u.natAbs_remainder_mul_lt v⟩, ⟨ts.fitsWide_product, ts.fitsWide_total⟩,
    WordArithmetic.trapping_quotient_eq_none_iff, ?_, ?_, ?_, ?_, ?_, ?_⟩
  · exact isDefined_of_agrees fun h => h.ofUnits_eq u v
  · exact isDefined_of_agrees fun h => h.run_inUnits u ts
  · exact isDefined_of_agrees fun h => h.wideNanoseconds_eq ts
  · exact isDefined_of_agrees fun h => h.run_unary (.div k) ts
  · exact isDefined_of_agrees fun h => h.run_eval e
  · intro quotient hq
    exact TimeSpec.divWith_eq_div hq ts k

/-- The time with the least count, divided by minus one: the quotient would trap, and the division is an overflow without it, also
when zero is taken for the quotients that are no words. -/
theorem unchecked_isDefined_least :
    WordArithmetic.trapping.quotient (-0x8000000000000000) (-1) = none ∧
      TimeSpec.nanoseconds ⟨-9223372036, -854775808⟩ = .ok (-0x8000000000000000) ∧
      (WordArithmetic.trapping.unary (.div (-1)) ⟨-9223372036, -854775808⟩).run = some (.error .overflow) ∧
      (∀ a b : Int64, QuotientFits a b → (if QuotientFits a b then a / b else 0) = a / b) ∧
      TimeSpec.divWith (fun a b => if QuotientFits a b then a / b else 0) ⟨-9223372036, -854775808⟩ (-1) = .error .overflow := by
  obtain ⟨-, -, htrap, -, -, -, hdiv, -, hany⟩ :=
    unchecked_isDefined .milliseconds 0 ⟨-9223372036, -854775808⟩ (-1) (.time .zero)
  have hq : ∀ a b : Int64, QuotientFits a b → (if QuotientFits a b then a / b else 0) = a / b := fun a b h => if_pos h
  exact ⟨(htrap _ _).2 (by decide), rfl, hdiv.noTrap, hq, hany _ hq⟩

end KernelControl
