import KernelControl.Call
import KernelControl.Call.Argument

/-!
# Programs that make system calls

A program is a finite tree: it is done with a value, or it makes a call and continues in a way that depends on the
reply. Nothing else can pass between it and the kernel, so what it does is decided by the replies alone. `run` answers
the calls from a list of replies, one per call, and collects the calls in order; where the list is too short, the reply
is all zero.
-/

namespace KernelControl

/-- A computation of a value by system calls. -/
inductive Program (α : Type) where
  | done (a : α)
  | call (c : Call) (next : Reply → Program α)

namespace Program

variable {α β : Type}

/-- The first program, continued by a program that depends on its value. -/
def bind : Program α → (α → Program β) → Program β
  | .done a, f => f a
  | .call c next, f => .call c fun reply => (next reply).bind f

instance : Monad Program where
  pure := .done
  bind := bind

/-- A program that goes on to be done with its value is unchanged. -/
theorem bind_done (p : Program α) : p.bind .done = p := by
  induction p with
  | done a => rfl
  | call c next ih => exact congrArg (call c) (funext ih)

/-- A program may be continued step by step or by all of the rest at once. -/
theorem bind_bind {γ : Type} (p : Program α) (f : α → Program β) (g : β → Program γ) :
    (p.bind f).bind g = p.bind fun a => (f a).bind g := by
  induction p with
  | done a => rfl
  | call c next ih => exact congrArg (call c) (funext ih)

instance : LawfulMonad Program := LawfulMonad.mk' Program bind_done (fun _ _ => rfl) bind_bind

/-- One system call. -/
def perform (number : Int64) (operands : List Operand) : Program Reply := .call ⟨number, operands⟩ .done

/-- The value of a program and the calls it makes, when the kernel gives these replies. -/
def run : Program α → List Reply → α × List Call
  | .done a, _ => (a, [])
  | .call c next, replies =>
    let rest := (next (replies.headD {})).run replies.tail
    (rest.1, c :: rest.2)

/-- A program that is done makes no call. -/
@[simp] theorem run_done (a : α) (replies : List Reply) : (done a).run replies = (a, []) := rfl

/-- A pure program makes no call. -/
@[simp] theorem run_pure (a : α) (replies : List Reply) : (pure a : Program α).run replies = (a, []) := rfl

/-- A program that makes one call and then computes its value. -/
theorem run_perform_map (number : Int64) (operands : List Operand) (f : Reply → α) (replies : List Reply) :
    (f <$> perform number operands).run replies = (f (replies.headD {}), [⟨number, operands⟩]) := rfl

/-- A continued program runs on the replies that the first part left. -/
theorem run_bind (p : Program α) (f : α → Program β) (replies : List Reply) :
    (p >>= f).run replies =
      let first := p.run replies
      let second := (f first.1).run (replies.drop first.2.length)
      (second.1, first.2 ++ second.2) := by
  induction p generalizing replies with
  | done a => rfl
  | call c next ih =>
    have h := ih (replies.headD {}) replies.tail
    simp only [Bind.bind, bind, run] at h ⊢
    rw [h]
    simp [List.drop_tail]

/-- A value that is computed from that of a program comes with the same calls. -/
theorem run_map (f : α → β) (p : Program α) (replies : List Reply) :
    (f <$> p).run replies = (f (p.run replies).1, (p.run replies).2) := by
  have h := run_bind p (fun a => .done (f a)) replies
  simp only [run_done, List.append_nil] at h
  exact h

end Program

/-- A system call with plain arguments: one word for each, in order. -/
def invoke (number : Int64) (arguments : List Argument) : Program (Except ErrorCode UInt64) := do
  let reply ← Program.perform number (arguments.map Operand.argument)
  return reply.outcome

end KernelControl
