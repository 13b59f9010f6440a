import KernelControl.FlagSet

/-!
# Chains of steps on a flag set

A flag set is updated and asked in any order, each step working on the set that the one before left. A question keeps the set.
-/

namespace KernelControl

namespace FlagSet

/-- One thing done with a flag set. -/
inductive Step (ρ : Type) where
  | update (u : Update ρ)
  /-- The union with the flags is made, and the set is kept. -/
  | union (flags : ρ)
  | isSet (flags : ρ)
  | any
  /-- The set is compared with the one made of the flags. -/
  | equal (flags : ρ)

/-- What a step returns: the bits of a flag set, or a truth value. -/
inductive Answer where
  | flags (bits : BitVec 32)
  | truth (b : Bool)
deriving DecidableEq, Repr

variable {ρ : Type} [FlagWord ρ] [DecidableEq ρ]

/-- The set after a step, and what the step returns. An update returns the set that it made. -/
def Step.run (v : FlagSet ρ) : Step ρ → FlagSet ρ × Answer
  | .update u => (u.apply v, .flags (u.apply v).bits)
  | .union flags => (v, .flags (v ||| flags).bits)
  | .isSet flags => (v, .truth (v.isSet flags))
  | .any => (v, .truth v.any)
  | .equal flags => (v, .truth (decide (v = ⟨flags⟩)))

/-- The set after a chain of steps, and what they returned. -/
def run (v : FlagSet ρ) : List (Step ρ) → FlagSet ρ × List Answer
  | [] => (v, [])
  | s :: steps =>
    let (next, answer) := s.run v
    let (last, answers) := next.run steps
    (last, answer :: answers)

end FlagSet

end KernelControl
