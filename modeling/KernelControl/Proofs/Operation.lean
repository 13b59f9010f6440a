import KernelControl.Clock
import KernelControl.MemoryLock
import KernelControl.Proofs.AdjustmentImage
import KernelControl.Proofs.Reply
import KernelControl.Thread

/-!
# What every operation makes of a reply

The operations of the library are of one kind: they make one call, and the reply decides between failure and success by the sign
of its result alone (`Asks`). Each of them is shown to be of this kind (`asks_outcome`), and so they all treat every reply alike
(`outcome_of_reply`). One operation may end before its call: an adjustment whose record has no image.
-/

namespace KernelControl

/-- An operation of the library, with what it is given. A range of memory is one that the caller names or a buffer of the
caller's. -/
inductive Operation where
  | getTime (clock : ClockId)
  | setTime (clock : ClockId) (ts : TimeSpec)
  | adjustTime (clock : ClockId) (adj : ClockAdjustment)
  | sleepFor (clock : ClockId) (ts : TimeSpec)
  | sleepUntil (clock : ClockId) (ts : TimeSpec)
  | sleepForWithRemaining (clock : ClockId) (ts : TimeSpec)
  | getAffinity (thread : ThreadId) (mask : CpuSet)
  | setAffinity (thread : ThreadId) (mask : CpuSet)
  | getAttr (thread : ThreadId) (flags : UInt32)
  | setAttr (thread : ThreadId) (attr : SchedAttr) (flags : UInt32)
  | yield
  | priorityMin (policy : SchedPolicy)
  | priorityMax (policy : SchedPolicy)
  | lock (range : MemoryRange)
  | lockWith (range : MemoryRange) (flags : RangeLockFlags)
  | unlock (range : MemoryRange)
  | lockAll (flags : ProcessLockFlags)
  | unlockAll
  | invoke (number : Int64) (arguments : List Argument)

namespace Operation

/-- What an operation tells its caller: the code of its failure, or that it succeeded, and the number that it gives if it is one
that gives a number. -/
def outcome : Operation → Program (Except ErrorCode (Option Int))
  | .getTime clock => (·.map fun _ => none) <$> clock.getTime
  | .setTime clock ts => (·.map fun _ => none) <$> clock.setTime ts
  | .adjustTime clock adj => (·.1.map fun state => some state.raw.toInt) <$> clock.adjustTime adj
  | .sleepFor clock ts => (·.map fun _ => none) <$> clock.sleepFor ts
  | .sleepUntil clock ts => (·.map fun _ => none) <$> clock.sleepUntil ts
  | .sleepForWithRemaining clock ts =>
    (fun r => (r.mapError SleepError.code).map fun _ => none) <$> clock.sleepForWithRemaining ts
  | .getAffinity thread mask => (·.1.map fun count => some count.toNat) <$> thread.getAffinity mask
  | .setAffinity thread mask => (·.map fun _ => none) <$> thread.setAffinity mask
  | .getAttr thread flags => (·.map fun _ => none) <$> thread.getAttr flags
  | .setAttr thread attr flags => (·.map fun _ => none) <$> thread.setAttr attr flags
  | .yield => (·.map fun _ => none) <$> ThreadId.yield
  | .priorityMin policy => (·.map fun n => some n.toInt) <$> policy.priorityMin
  | .priorityMax policy => (·.map fun n => some n.toInt) <$> policy.priorityMax
  | .lock range => (·.map fun _ => none) <$> range.lock
  | .lockWith range flags => (·.map fun _ => none) <$> range.lockWith flags
  | .unlock range => (·.map fun _ => none) <$> range.unlock
  | .lockAll flags => (·.map fun _ => none) <$> ProcessMemory.lockAll flags
  | .unlockAll => (·.map fun _ => none) <$> ProcessMemory.unlockAll
  | .invoke number arguments => (·.map fun n => some n.toNat) <$> KernelControl.invoke number arguments

/-- The number that a successful operation is to give for the result of its call: the result itself, or what is left of it in
32 bits, or none. -/
def number : Operation → Int64 → Option Int
  | .getAffinity .., result => some result.toInt
  | .invoke .., result => some result.toInt
  | .adjustTime .., result => some (Scalar.i32.wrap result.toInt)
  | .priorityMin _, result => some (Scalar.i32.wrap result.toInt)
  | .priorityMax _, result => some (Scalar.i32.wrap result.toInt)
  | _, _ => none

/-- The operation ends before its call: it is an adjustment with a record that has no image. -/
def Refused : Operation → Prop
  | .adjustTime _ adj => ∃ code, adj.image? = .error code
  | _ => False

/-! ## One call, one reply -/

/-- The program makes one call, the same whatever the kernel replies, and its outcome is that of the reply, with the number that
belongs to the result. -/
def Asks (p : Program (Except ErrorCode (Option Int))) (number : Int64 → Option Int) : Prop :=
  ∃ call, ∀ reply rest,
    p.run (reply :: rest) =
      (if reply.result < 0 then .error (.system reply.errno) else .ok (number reply.result), [call])

section Asks

variable {α β : Type} {call : Call} {number : Int64 → Option Int}

/-- A program that makes one call asks the kernel if what is made of its value follows the sign of the result. -/
theorem asks_map {p : Program α} {f : α → Except ErrorCode (Option Int)}
    (h : ∀ reply rest, ∃ a, p.run (reply :: rest) = (a, [call]) ∧
      (reply.result < 0 → f a = .error (.system reply.errno)) ∧
      (¬reply.result < 0 → f a = .ok (number reply.result))) : Asks (f <$> p) number := by
  refine ⟨call, fun reply rest => ?_⟩
  obtain ⟨a, hrun, hneg, hnot⟩ := h reply rest
  rw [Program.run_map, hrun]
  by_cases hr : reply.result < 0
  · rw [if_pos hr, hneg hr]
  · rw [if_neg hr, hnot hr]

/-- An operation without a value. -/
theorem asks_completion {p : Program (Except ErrorCode Unit)}
    (hp : ∀ replies, p.run replies = ((replies.headD {}).completion, [call])) :
    Asks ((·.map fun _ => none) <$> p) fun _ => none := by
  refine asks_map fun reply rest => ⟨reply.completion, hp _, fun hr => ?_, fun hr => ?_⟩
  · rw [Reply.completion_of_neg hr]
    rfl
  · rw [Reply.completion_of_not_neg hr]
    rfl

/-- An operation that gives a structure. -/
theorem asks_read {p : Program (Except ErrorCode α)}
    (hp : ∀ reply rest, ∃ a, p.run (reply :: rest) = (reply.outcome.map fun _ => a, [call])) :
    Asks ((·.map fun _ => none) <$> p) fun _ => none := by
  apply asks_map
  intro reply rest
  obtain ⟨a, ha⟩ := hp reply rest
  refine ⟨_, ha, fun hr => ?_, fun hr => ?_⟩
  · rw [Reply.outcome_of_neg hr]
    rfl
  · rw [Reply.outcome_of_not_neg hr]
    rfl

/-- An operation that gives a number of 32 bits. -/
theorem asks_number32 {p : Program (Except ErrorCode Int32)}
    (hp : ∀ replies, p.run replies = ((replies.headD {}).number32, [call])) :
    Asks ((·.map fun n => some n.toInt) <$> p) fun result => some (Scalar.i32.wrap result.toInt) := by
  refine asks_map fun reply rest => ⟨reply.number32, hp _, fun hr => ?_, fun hr => ?_⟩
  · rw [Reply.number32_of_neg hr]
    rfl
  · rw [Reply.number32_of_not_neg hr, ← Scalar.toInt_toInt32]
    rfl

end Asks

/-! ## Every operation -/

/-- The only operation that is refused is an adjustment with a record that does not fit. -/
theorem refused_adjustTime_iff {clock : ClockId} {adj : ClockAdjustment} :
    (adjustTime clock adj).Refused ↔ ¬Image.Fits adj := by
  constructor
  · rintro ⟨code, hcode⟩ hf
    rw [ClockAdjustment.image?_of_fits hf] at hcode
    nomatch hcode
  · intro hf
    exact ⟨_, ClockAdjustment.image?_of_not_fits hf⟩

/-- An operation that is not refused asks the kernel. -/
theorem asks_outcome (op : Operation) (h : ¬op.Refused) : Asks op.outcome op.number := by
  cases op with
  | getTime clock => exact asks_read fun _ _ => ⟨_, clock.run_getTime _⟩
  | setTime clock ts => exact asks_completion (clock.run_setTime ts)
  | adjustTime clock adj =>
    have hf : Image.Fits adj := Classical.byContradiction fun hf => h (refused_adjustTime_iff.2 hf)
    refine asks_map fun reply rest => ⟨_, clock.run_adjustTime_of_fits hf _, fun hr => ?_, fun hr => ?_⟩
    · rw [List.headD_cons, ClockId.adjusted, Reply.number32_of_neg hr]
      rfl
    · rw [List.headD_cons, ClockId.adjusted, Reply.number32_of_not_neg hr, number, ← Scalar.toInt_toInt32]
      rfl
  | sleepFor clock ts => exact asks_completion (clock.run_sleep ClockId.relativeFlags ts)
  | sleepUntil clock ts => exact asks_completion (clock.run_sleep ClockId.absoluteFlags ts)
  | sleepForWithRemaining clock ts =>
    refine asks_map fun reply rest => ⟨_, clock.run_sleepForWithRemaining ts _, fun hr => ?_, fun hr => ?_⟩
    · rw [List.headD_cons, Reply.completion_of_neg hr]
      rfl
    · rw [List.headD_cons, Reply.completion_of_not_neg hr]
      rfl
  | getAffinity thread mask =>
    refine asks_map fun reply rest => ⟨_, thread.run_getAffinity mask _, fun hr => ?_, fun hr => ?_⟩
    · rw [List.headD_cons, Reply.outcome_of_neg hr]
      rfl
    · rw [List.headD_cons, Reply.outcome_of_not_neg hr, number, ← Reply.toNat_toUInt64_result hr]
      rfl
  | setAffinity thread mask => exact asks_completion (thread.run_setAffinity mask)
  | getAttr thread flags => exact asks_read fun _ _ => ⟨_, thread.run_getAttr flags _⟩
  | setAttr thread attr flags => exact asks_completion (thread.run_setAttr attr flags)
  | yield => exact asks_completion ThreadId.run_yield
  | priorityMin policy => exact asks_number32 policy.run_priorityMin
  | priorityMax policy => exact asks_number32 policy.run_priorityMax
  | lock range => exact asks_completion range.run_lock
  | lockWith range flags => exact asks_completion (range.run_lockWith flags)
  | unlock range => exact asks_completion range.run_unlock
  | lockAll flags => exact asks_completion (ProcessMemory.run_lockAll flags)
  | unlockAll => exact asks_completion ProcessMemory.run_unlockAll
  | invoke n arguments =>
    refine asks_map fun reply rest => ⟨_, Program.run_perform_map n _ Reply.outcome _, fun hr => ?_, fun hr => ?_⟩
    · rw [List.headD_cons, Reply.outcome_of_neg hr]
      rfl
    · rw [List.headD_cons, Reply.outcome_of_not_neg hr, number, ← Reply.toNat_toUInt64_result hr]
      rfl

/-- An operation that is refused makes no call. -/
theorem run_outcome_of_refused {op : Operation} (h : op.Refused) (replies : List Reply) :
    op.outcome.run replies = (.error .valueTooLarge, []) := by
  cases op with
  | adjustTime clock adj =>
    rw [outcome, Program.run_map, clock.run_adjustTime_of_not_fits (refused_adjustTime_iff.1 h)]
    rfl
  | _ => exact h.elim

/-- Every operation makes exactly one call, except an adjustment with a record that has no image, which makes none; the call
does not depend on the reply. When there is a call, the operation fails exactly when the result is negative, with the number that
the kernel reported, zero too; otherwise it succeeds, whatever number was reported, and gives the number that belongs to the
result, if it is one that gives a number. -/
theorem outcome_of_reply (op : Operation) :
    ∃ calls : List Call, (op.Refused ∧ calls = [] ∨ ¬op.Refused ∧ calls.length = 1) ∧
      ∀ reply rest, ∃ outcome, op.outcome.run (reply :: rest) = (outcome, calls) ∧
        (op.Refused → outcome = .error .valueTooLarge) ∧
        (¬op.Refused →
          ((∃ code, outcome = .error code) ↔ reply.result < 0) ∧
          (∀ code, outcome = .error code → code = .system reply.errno) ∧
          (∀ given, outcome = .ok given → given = op.number reply.result)) := by
  by_cases h : op.Refused
  · refine ⟨[], Or.inl ⟨h, rfl⟩, fun reply rest => ⟨_, run_outcome_of_refused h _, fun _ => rfl, ?_⟩⟩
    exact fun hn => absurd h hn
  · obtain ⟨call, hrun⟩ := asks_outcome op h
    refine ⟨[call], Or.inr ⟨h, rfl⟩, fun reply rest => ⟨_, hrun reply rest, fun hr => absurd hr h, fun _ => ?_⟩⟩
    by_cases hr : reply.result < 0
    · rw [if_pos hr]
      refine ⟨iff_of_true ⟨_, rfl⟩ hr, ?_, fun _ hn => (nomatch hn)⟩
      intro code hcode
      exact (Except.error.inj hcode).symm
    · rw [if_neg hr]
      refine ⟨iff_of_false (fun ⟨_, hn⟩ => nomatch hn) hr, fun _ hn => (nomatch hn), ?_⟩
      intro given hgiven
      exact (Except.ok.inj hgiven).symm

end Operation

end KernelControl
