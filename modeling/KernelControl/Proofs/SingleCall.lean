import KernelControl.Program

/-!
# Programs that make one call

Such a program asks the kernel for the same thing whatever the reply, and its value is made of that one reply (`CallsOnce`). It
stays one when it goes on without another call (`CallsOnce.bind`). Several of them done one after the other do not disturb each
other: each makes its own call, and its value is what it would have been had the program been run alone on its own reply
(`run_mapM_id`).
-/

namespace KernelControl

namespace Program

variable {α β : Type}

/-- The program makes this call and no other, whatever the kernel replies. -/
def CallsOnce (p : Program α) (c : Call) : Prop := ∃ answer : Reply → α, p = .call c fun reply => .done (answer reply)

theorem callsOnce_perform (number : Int64) (operands : List Operand) :
    (perform number operands).CallsOnce ⟨number, operands⟩ := ⟨id, rfl⟩

/-- Whatever is computed from the value without a further call, the program still makes its one call. -/
theorem CallsOnce.bind {p : Program α} {c : Call} {f : α → Program β} (h : p.CallsOnce c)
    (hf : ∀ a, ∃ b, f a = .done b) : (p >>= f).CallsOnce c := by
  obtain ⟨answer, rfl⟩ := h
  obtain ⟨g, hg⟩ := Classical.skolem.1 hf
  exact ⟨fun reply => g (answer reply), congrArg (Program.call c) (funext fun reply => hg (answer reply))⟩

/-- Of the replies only the first is looked at. -/
theorem CallsOnce.run_eq {p : Program α} {c : Call} (h : p.CallsOnce c) (replies : List Reply) :
    p.run replies = ((p.run [replies.getD 0 {}]).1, [c]) := by
  obtain ⟨answer, rfl⟩ := h
  cases replies <;> rfl

/-- Programs of one call each, done one after the other: they make their calls in order, and program `k` has the value that it
has when it is run alone on reply `k`, or on the reply that is all zero if there are not so many. -/
theorem run_mapM_id (programs : List (Program α)) (calls : List Call) (hl : programs.length = calls.length)
    (h : ∀ e ∈ programs.zip calls, e.1.CallsOnce e.2) (replies : List Reply) :
    (programs.mapM id).run replies = (programs.mapIdx fun k p => (p.run [replies.getD k {}]).1, calls) := by
  induction programs generalizing calls replies with
  | nil => rw [List.eq_nil_of_length_eq_zero hl.symm]; rfl
  | cons p programs ih =>
    cases calls with
    | nil => nomatch hl
    | cons c calls =>
      obtain ⟨hp, hprograms⟩ := List.forall_mem_cons.1 h
      have hdrop : ∀ k, (replies.drop 1).getD k {} = replies.getD (k + 1) {} := by
        intro k
        rw [List.getD_eq_getElem?_getD, List.getD_eq_getElem?_getD, List.getElem?_drop, Nat.add_comm]
      rw [List.mapM_cons, id_eq, run_bind, hp.run_eq replies]
      simp only [run_bind, run_pure, List.length_singleton, List.append_nil, ih calls (Nat.succ.inj hl) hprograms, hdrop,
        List.mapIdx_cons, List.singleton_append]

end Program

end KernelControl
