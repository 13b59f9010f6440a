import KernelControl.Proofs.TimeArithmetic

/-!
# Expressions over times

An expression is a tree of operators over times. It is evaluated by the operators, node by node, and each of its nodes has an
exact value over the integers. The evaluation returns a time exactly when nothing goes wrong at any node: the times that an
operator works on can be counted, no divisor is zero and the exact value fits a word. What it returns then is the exact value
(`eval_ok_iff`).

The induction is over the tree. Its invariant (`Faithful`) says in addition that the result of an operator can be counted again,
which is what lets the node above go on with it; a time that stands alone need not be countable.
-/

namespace KernelControl

/-! ## Operators -/

/-- An operator on one time: the opposite, a multiple by a word on either side, a quotient by a word. -/
inductive UnaryTimeOp where
  | neg
  | mul (k : Int64)
  | mulLeft (k : Int64)
  | div (k : Int64)
deriving DecidableEq, Repr

namespace UnaryTimeOp

/-- The operator on times. -/
def apply : UnaryTimeOp → TimeSpec → Except TimeError TimeSpec
  | .neg, a => a.neg
  | .mul k, a => a * k
  | .mulLeft k, a => k * a
  | .div k, a => a / k

/-- The operator on integers. -/
def exact : UnaryTimeOp → Int → Int
  | .neg, n => -n
  | .mul k, n => n * k.toInt
  | .mulLeft k, n => k.toInt * n
  | .div k, n => n.tdiv k.toInt

/-- Unless it divides by zero, the operator is exact. -/
theorem isExact_apply {op : UnaryTimeOp} (h : op ≠ .div 0) (a : TimeSpec) :
    TimeSpec.IsExact a.Convertible (op.exact a.total) (op.apply a) := by
  cases op with
  | neg => exact TimeSpec.isExact_neg a
  | mul k => exact TimeSpec.isExact_mul a k
  | mulLeft k =>
    rw [exact, Int.mul_comm]
    exact TimeSpec.isExact_mul a k
  | div k =>
    apply TimeSpec.isExact_div a
    rintro rfl
    exact h rfl

end UnaryTimeOp

/-- An operator on two times. -/
inductive BinaryTimeOp where
  | add
  | sub
deriving DecidableEq, Repr

namespace BinaryTimeOp

/-- The operator on times. -/
def apply : BinaryTimeOp → TimeSpec → TimeSpec → Except TimeError TimeSpec
  | .add, a, b => a + b
  | .sub, a, b => a - b

/-- The operator on integers. -/
def exact : BinaryTimeOp → Int → Int → Int
  | .add, m, n => m + n
  | .sub, m, n => m - n

/-- The operator is exact. -/
theorem isExact_apply (op : BinaryTimeOp) (a b : TimeSpec) :
    TimeSpec.IsExact (a.Convertible ∧ b.Convertible) (op.exact a.total b.total) (op.apply a b) := by
  cases op with
  | add => exact TimeSpec.isExact_add a b
  | sub => exact TimeSpec.isExact_sub a b

end BinaryTimeOp

/-! ## Expressions -/

/-- A tree of operators with times at its leaves. -/
inductive TimeExpr where
  | time (ts : TimeSpec)
  | unary (op : UnaryTimeOp) (e : TimeExpr)
  | binary (op : BinaryTimeOp) (e f : TimeExpr)
deriving DecidableEq, Repr

namespace TimeExpr

/-- The tree evaluated by the operators on times. -/
def eval : TimeExpr → Except TimeError TimeSpec
  | .time ts => return ts
  | .unary op e => do op.apply (← e.eval)
  | .binary op e f => do op.apply (← e.eval) (← f.eval)

/-- The exact value of the tree. -/
def value : TimeExpr → Int
  | .time ts => ts.total
  | .unary op e => op.exact e.value
  | .binary op e f => op.exact e.value f.value

/-- The trees that the operator at the root works on; none if there is no operator. -/
def operands : TimeExpr → List TimeExpr
  | .time _ => []
  | .unary _ e => [e]
  | .binary _ e f => [e, f]

/-- The tree and all the trees in it. -/
def subtrees : TimeExpr → List TimeExpr
  | .time ts => [.time ts]
  | .unary op e => .unary op e :: e.subtrees
  | .binary op e f => .binary op e f :: (e.subtrees ++ f.subtrees)

/-- Nothing goes wrong at the root of the tree, apart from what goes wrong in its operands. -/
structure Sound (e : TimeExpr) : Prop where
  /-- A time that the operator works on can be counted. -/
  countable : ∀ ts, .time ts ∈ e.operands → ts.Convertible
  /-- The operator does not divide by zero. -/
  divisor : ∀ f, e ≠ .unary (.div 0) f
  /-- The result of the operator fits a word. -/
  fits : e.operands ≠ [] → FitsWord e.value

theorem sound_time (ts : TimeSpec) : Sound (.time ts) where
  countable _ h := nomatch h
  divisor _ h := nomatch h
  fits h := absurd rfl h

theorem sound_unary_iff {op : UnaryTimeOp} {e : TimeExpr} :
    Sound (.unary op e) ↔ (∀ ts, e = .time ts → ts.Convertible) ∧ op ≠ .div 0 ∧ FitsWord (op.exact e.value) := by
  constructor
  · intro h
    refine ⟨?_, ?_, h.fits (List.cons_ne_nil _ _)⟩
    · rintro ts rfl
      exact h.countable ts List.mem_cons_self
    · rintro rfl
      exact h.divisor e rfl
  · rintro ⟨hc, hd, hf⟩
    refine ⟨?_, ?_, fun _ => hf⟩
    · intro ts ht
      exact hc ts (List.mem_singleton.1 ht).symm
    · intro f hf
      exact hd (TimeExpr.unary.inj hf).1

theorem sound_binary_iff {op : BinaryTimeOp} {e f : TimeExpr} :
    Sound (.binary op e f) ↔ (∀ ts, e = .time ts → ts.Convertible) ∧ (∀ ts, f = .time ts → ts.Convertible) ∧
      FitsWord (op.exact e.value f.value) := by
  constructor
  · intro h
    refine ⟨?_, ?_, h.fits (List.cons_ne_nil _ _)⟩
    · rintro ts rfl
      exact h.countable ts List.mem_cons_self
    · rintro ts rfl
      exact h.countable ts (List.mem_cons_of_mem _ List.mem_cons_self)
  · rintro ⟨he, hf, hv⟩
    refine ⟨?_, fun _ h => (nomatch h), fun _ => hv⟩
    intro ts ht
    rcases List.mem_cons.1 ht with ht | ht
    · exact he ts ht.symm
    · exact hf ts (List.mem_singleton.1 ht).symm

/-! ## Evaluation -/

/-- A step after another returns exactly when both do. -/
theorem bind_eq_ok_iff {α β : Type} {x : Except TimeError α} {next : α → Except TimeError β} {b : β} :
    (x >>= next) = .ok b ↔ ∃ a, x = .ok a ∧ next a = .ok b := by
  cases x with
  | error e => exact iff_of_false (fun h => nomatch h) (fun ⟨_, h, _⟩ => nomatch h)
  | ok a =>
    constructor
    · intro h
      exact ⟨a, rfl, h⟩
    · rintro ⟨_, ⟨⟩, h⟩
      exact h

theorem eval_unary_eq_ok_iff {op : UnaryTimeOp} {e : TimeExpr} {r : TimeSpec} :
    (unary op e).eval = .ok r ↔ ∃ a, e.eval = .ok a ∧ op.apply a = .ok r := bind_eq_ok_iff

theorem eval_binary_eq_ok_iff {op : BinaryTimeOp} {e f : TimeExpr} {r : TimeSpec} :
    (binary op e f).eval = .ok r ↔ ∃ a, e.eval = .ok a ∧ ∃ b, f.eval = .ok b ∧ op.apply a b = .ok r := by
  rw [eval, bind_eq_ok_iff]
  simp only [bind_eq_ok_iff]

/-- The evaluation of the tree is as good as its exact value. -/
structure Faithful (e : TimeExpr) : Prop where
  /-- It returns a time exactly when nothing goes wrong in any of the trees. -/
  returns : (∃ a, e.eval = .ok a) ↔ ∀ s ∈ e.subtrees, s.Sound
  /-- The time returned stands for the exact value. -/
  total : ∀ a, e.eval = .ok a → a.total = e.value
  /-- The time returned can be counted, unless it is the tree. -/
  convertible : ∀ a, e.eval = .ok a → a.Convertible ∨ e = .time a

/-- An operator can go on with a result exactly when the result is not a leaf that cannot be counted. -/
theorem Faithful.convertible_iff {e : TimeExpr} (h : e.Faithful) {a : TimeSpec} (ha : e.eval = .ok a) :
    a.Convertible ↔ ∀ ts, e = .time ts → ts.Convertible := by
  constructor
  · rintro hc ts rfl
    obtain rfl : ts = a := Except.ok.inj ha
    exact hc
  · intro hl
    rcases h.convertible a ha with hc | rfl
    · exact hc
    · exact hl a rfl

theorem faithful_time (ts : TimeSpec) : Faithful (.time ts) where
  returns := iff_of_true ⟨ts, rfl⟩ (List.forall_mem_singleton.2 (sound_time ts))
  total a ha := by
    obtain rfl : ts = a := Except.ok.inj ha
    rfl
  convertible a ha := by
    obtain rfl : ts = a := Except.ok.inj ha
    exact Or.inr rfl

theorem faithful_unary (op : UnaryTimeOp) {e : TimeExpr} (he : e.Faithful) : Faithful (.unary op e) := by
  by_cases hop : op = .div 0
  · -- nothing is ever returned
    subst hop
    have hnone : ∀ r, (unary (.div 0) e).eval ≠ .ok r := by
      intro r hr
      obtain ⟨a, -, hd⟩ := eval_unary_eq_ok_iff.1 hr
      rw [UnaryTimeOp.apply, TimeSpec.div_zero] at hd
      nomatch hd
    refine ⟨iff_of_false (fun ⟨r, hr⟩ => hnone r hr) ?_, fun r hr => absurd hr (hnone r), fun r hr => absurd hr (hnone r)⟩
    intro hs
    exact (hs _ List.mem_cons_self).divisor e rfl
  · have hexact := UnaryTimeOp.isExact_apply hop
    refine ⟨?_, ?_, ?_⟩
    · rw [subtrees, List.forall_mem_cons, sound_unary_iff, ← he.returns]
      constructor
      · rintro ⟨r, hr⟩
        obtain ⟨a, ha, har⟩ := eval_unary_eq_ok_iff.1 hr
        obtain ⟨hc, hf⟩ := (hexact a).returns.1 ⟨r, har⟩
        rw [he.total a ha] at hf
        exact ⟨⟨(he.convertible_iff ha).1 hc, hop, hf⟩, a, ha⟩
      · rintro ⟨⟨hl, -, hf⟩, a, ha⟩
        rw [← he.total a ha] at hf
        obtain ⟨r, hr⟩ := (hexact a).returns.2 ⟨(he.convertible_iff ha).2 hl, hf⟩
        exact ⟨r, eval_unary_eq_ok_iff.2 ⟨a, ha, hr⟩⟩
    · intro r hr
      obtain ⟨a, ha, har⟩ := eval_unary_eq_ok_iff.1 hr
      rw [((hexact a).convertible har).2, he.total a ha, value]
    · intro r hr
      obtain ⟨a, -, har⟩ := eval_unary_eq_ok_iff.1 hr
      exact Or.inl ((hexact a).convertible har).1

theorem faithful_binary (op : BinaryTimeOp) {e f : TimeExpr} (he : e.Faithful) (hf : f.Faithful) :
    Faithful (.binary op e f) := by
  refine ⟨?_, ?_, ?_⟩
  · rw [subtrees, List.forall_mem_cons, List.forall_mem_append, sound_binary_iff, ← he.returns, ← hf.returns]
    constructor
    · rintro ⟨r, hr⟩
      obtain ⟨a, ha, b, hb, hab⟩ := eval_binary_eq_ok_iff.1 hr
      obtain ⟨⟨hca, hcb⟩, hv⟩ := (op.isExact_apply a b).returns.1 ⟨r, hab⟩
      rw [he.total a ha, hf.total b hb] at hv
      exact ⟨⟨(he.convertible_iff ha).1 hca, (hf.convertible_iff hb).1 hcb, hv⟩, ⟨a, ha⟩, b, hb⟩
    · rintro ⟨⟨hle, hlf, hv⟩, ⟨a, ha⟩, b, hb⟩
      rw [← he.total a ha, ← hf.total b hb] at hv
      obtain ⟨r, hr⟩ :=
        (op.isExact_apply a b).returns.2 ⟨⟨(he.convertible_iff ha).2 hle, (hf.convertible_iff hb).2 hlf⟩, hv⟩
      exact ⟨r, eval_binary_eq_ok_iff.2 ⟨a, ha, b, hb, hr⟩⟩
  · intro r hr
    obtain ⟨a, ha, b, hb, hab⟩ := eval_binary_eq_ok_iff.1 hr
    rw [((op.isExact_apply a b).convertible hab).2, he.total a ha, hf.total b hb, value]
  · intro r hr
    obtain ⟨a, -, b, -, hab⟩ := eval_binary_eq_ok_iff.1 hr
    exact Or.inl ((op.isExact_apply a b).convertible hab).1

/-- Every tree is evaluated faithfully. -/
theorem faithful (e : TimeExpr) : e.Faithful := by
  induction e with
  | time ts => exact faithful_time ts
  | unary op e ih => exact faithful_unary op ih
  | binary op e f ihe ihf => exact faithful_binary op ihe ihf

/-- An expression evaluates to a time exactly when every time that an operator works on can be counted in nanoseconds, no divisor
is zero, and the exact value of every tree with an operator fits a word. Counted in 128 bits, the time is then the exact value of
the expression. -/
theorem eval_ok_iff (e : TimeExpr) :
    ((∃ ts, e.eval = .ok ts) ↔
      (∀ s ∈ e.subtrees, ∀ ts, .time ts ∈ s.operands → ts.Convertible) ∧
        (∀ f, .unary (.div 0) f ∉ e.subtrees) ∧
        ∀ s ∈ e.subtrees, s.operands ≠ [] → FitsWord s.value) ∧
      ∀ ts, e.eval = .ok ts → ts.wideNanoseconds.toInt = e.value := by
  constructor
  · rw [e.faithful.returns]
    constructor
    · intro h
      refine ⟨fun s hs => (h s hs).countable, ?_, fun s hs => (h s hs).fits⟩
      intro f hf
      exact (h _ hf).divisor f rfl
    · rintro ⟨hc, hd, hv⟩ s hs
      refine ⟨hc s hs, ?_, hv s hs⟩
      rintro f rfl
      exact hd f hs
  · intro ts hts
    rw [TimeSpec.toInt_wideNanoseconds, e.faithful.total ts hts]

end TimeExpr

end KernelControl
