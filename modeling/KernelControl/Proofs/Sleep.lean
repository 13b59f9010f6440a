import KernelControl.Clock
import KernelControl.Proofs.Reply
import KernelControl.Proofs.TimeImage

/-!
# Sleeping for an interval

A sleep that reports what is left of its interval asks the kernel for the same thing as one that does not, and fails for the
same replies with the same codes. What it reports is what the kernel wrote if a signal interrupted it
(`remaining_of_interrupted`), and zero if it failed for another reason (`remaining_of_not_interrupted`). A caller who goes on
sleeping for what is left (`sleepResuming`) hands the kernel in each call the bytes that it wrote in the one before: they are
read as a time and stored again without a loss (`calls_sleepResuming`).
-/

namespace KernelControl

/-- The kernel says that a signal interrupted the call. -/
def Reply.Interrupts (reply : Reply) : Prop := reply.result < 0 ∧ reply.errno = 4

namespace ClockId

variable (clock : ClockId)

/-- The call of a sleep for an interval: the clock, no flags, the bytes of the interval, and where to put what is left of it. -/
def sleepCall (request : List UInt8) (remaining : Operand) : Call :=
  ⟨CallNumber.clockNanosleep, [clock.operand, .int32 0, .memory request, remaining]⟩

/-! ## One sleep -/

/-- What a sleep reports that the kernel answered with a failure. -/
def reported (reply : Reply) : SleepError :=
  ⟨.system reply.errno,
    if (ErrorCode.system reply.errno).isInterrupted then Image.read TimeSpec ((Image.zero 16).fill reply.written)
    else TimeSpec.zero⟩

/-- The place for what is left of the interval is a block of zeros when the call is made. -/
theorem image_zero : Operand.image (Image.zero 16) = .memory (List.replicate 16 0) := by
  have h := Image.toList_fill_zero (n := 16) []
  rw [Image.fill_nil] at h
  rw [Operand.image, h]
  rfl

/-- A sleep that does not report what is left. -/
theorem run_sleepFor_cons (ts : TimeSpec) (reply : Reply) (rest : List Reply) :
    (clock.sleepFor ts).run (reply :: rest) =
      (if reply.result < 0 then .error (.system reply.errno) else .ok (),
        [clock.sleepCall (Image.of ts : Image 16).toList .null]) := by
  rw [sleepFor, run_sleep, List.headD_cons]
  by_cases hr : reply.result < 0
  · rw [if_pos hr, Reply.completion_of_neg hr]
    rfl
  · rw [if_neg hr, Reply.completion_of_not_neg hr]
    rfl

/-- A sleep that reports it. -/
theorem run_sleepForWithRemaining_cons (ts : TimeSpec) (reply : Reply) (rest : List Reply) :
    (clock.sleepForWithRemaining ts).run (reply :: rest) =
      (if reply.result < 0 then .error (reported reply) else .ok (),
        [clock.sleepCall (Image.of ts : Image 16).toList (.memory (List.replicate 16 0))]) := by
  rw [run_sleepForWithRemaining, List.headD_cons, image_zero]
  by_cases hr : reply.result < 0
  · rw [if_pos hr, Reply.completion_of_neg hr]
    rfl
  · rw [if_neg hr, Reply.completion_of_not_neg hr]
    rfl

/-- What an interrupted sleep reports is the sixteen bytes that the kernel wrote, completed with zeros. -/
theorem remaining_of_interrupted {reply : Reply} (h : reply.errno = 4) :
    (reported reply).remaining = Image.read TimeSpec ((Image.zero 16).fill reply.written) := by
  rw [reported, h]
  rfl

/-- What a sleep reports that failed for another reason is zero, whatever the kernel wrote. -/
theorem remaining_of_not_interrupted {reply : Reply} (h : reply.errno ≠ 4) : (reported reply).remaining = TimeSpec.zero := by
  simp [reported, ErrorCode.isInterrupted, ErrorCode.system, h]

/-! ## Sleeping on -/

/-- Sleeps for an interval and, as long as a signal interrupts the sleep, for what is left of it, so many times more at most. -/
def sleepResuming : Nat → TimeSpec → Program (Except SleepError Unit)
  | 0, ts => clock.sleepForWithRemaining ts
  | times + 1, ts => do
    match ← clock.sleepForWithRemaining ts with
    | .ok () => return .ok ()
    | .error e => if e.code.isInterrupted then sleepResuming times e.remaining else return .error e

/-- After an interruption the sleep goes on for what was reported. -/
theorem run_sleepResuming_of_interrupts (times : Nat) (ts : TimeSpec) {reply : Reply} (rest : List Reply)
    (h : reply.Interrupts) :
    (clock.sleepResuming (times + 1) ts).run (reply :: rest) =
      let further := (clock.sleepResuming times (reported reply).remaining).run rest
      (further.1, clock.sleepCall (Image.of ts : Image 16).toList (.memory (List.replicate 16 0)) :: further.2) := by
  obtain ⟨hr, hfour⟩ := h
  have hcode : (reported reply).code.isInterrupted = true := by
    rw [reported, hfour]
    rfl
  rw [sleepResuming, Program.run_bind, run_sleepForWithRemaining_cons, if_pos hr]
  simp [hcode]

/-- Each call of a sleep that is resumed after every interruption hands over the bytes that the kernel wrote in the call
before. -/
theorem calls_sleepResuming (ts : TimeSpec) (replies : List Reply) (last : Reply) (rest : List Reply)
    (h : ∀ r ∈ replies, r.Interrupts) :
    ((clock.sleepResuming replies.length ts).run (replies ++ last :: rest)).2 =
      ((Image.of ts : Image 16).toList :: replies.map fun r => Image.padded 16 r.written).map fun bytes =>
        clock.sleepCall bytes (.memory (List.replicate 16 0)) := by
  induction replies generalizing ts with
  | nil => exact congrArg Prod.snd (clock.run_sleepForWithRemaining_cons ts last rest)
  | cons r replies ih =>
    obtain ⟨hr, hreplies⟩ := List.forall_mem_cons.1 h
    have hnext : (Image.of (reported r).remaining : Image 16).toList = Image.padded 16 r.written := by
      rw [remaining_of_interrupted hr.2, TimeSpec.of_read, Image.toList_fill_zero]
    rw [List.length_cons, List.cons_append, run_sleepResuming_of_interrupts clock _ ts _ hr]
    simp only [ih (reported r).remaining hreplies, hnext, List.map_cons]

/-! ## Both ways of sleeping -/

/-- A sleep that reports what is left makes the call of one that does not, with the sixteen bytes of the interval and a place
for what is left; it succeeds for the same replies and fails with the same codes. What it reports is the sixteen bytes that the
kernel wrote, completed with zeros, if a signal interrupted it, and zero otherwise. So if a sleep is interrupted and resumed with
what was reported, time after time, each call but the first hands over the bytes that the kernel wrote in the call before. -/
theorem sleepForWithRemaining_agrees (ts : TimeSpec) :
    ∃ request : List UInt8, ts.Spelled request ∧
      (∀ reply rest, ∃ plain reported,
        (clock.sleepFor ts).run (reply :: rest) = (plain, [clock.sleepCall request .null]) ∧
        (clock.sleepForWithRemaining ts).run (reply :: rest) =
          (reported, [clock.sleepCall request (.memory (List.replicate 16 0))]) ∧
        (plain = .ok () ↔ reported = .ok ()) ∧
        (∀ code, plain = .error code ↔ ∃ remaining, reported = .error ⟨code, remaining⟩) ∧
        ∀ code remaining, reported = .error ⟨code, remaining⟩ →
          (code = .system 4 → remaining.Spelled (Image.padded 16 reply.written)) ∧
          (code ≠ .system 4 → remaining = TimeSpec.zero)) ∧
      ∀ replies last rest, (∀ r ∈ replies, r.Interrupts) →
        ((clock.sleepResuming replies.length ts).run (replies ++ last :: rest)).2 =
          (request :: replies.map fun r => Image.padded 16 r.written).map fun bytes =>
            clock.sleepCall bytes (.memory (List.replicate 16 0)) := by
  refine ⟨_, ts.spelled_of, ?_, fun replies last rest => clock.calls_sleepResuming ts replies last rest⟩
  intro reply rest
  refine ⟨_, _, clock.run_sleepFor_cons ts reply rest, clock.run_sleepForWithRemaining_cons ts reply rest, ?_⟩
  by_cases hr : reply.result < 0
  · rw [if_pos hr, if_pos hr]
    refine ⟨iff_of_false (fun h => nomatch h) (fun h => nomatch h), ?_, ?_⟩
    · intro code
      constructor
      · intro h
        obtain rfl := Except.error.inj h
        exact ⟨_, rfl⟩
      · rintro ⟨remaining, h⟩
        obtain ⟨rfl, rfl⟩ := SleepError.mk.inj (Except.error.inj h)
        rfl
    · intro code remaining h
      obtain ⟨rfl, hremaining⟩ := SleepError.mk.inj (Except.error.inj h)
      change (reported reply).remaining = remaining at hremaining
      rw [Ne, ErrorCode.system_inj, ← hremaining]
      constructor
      · intro hfour
        rw [remaining_of_interrupted hfour, ← Image.toList_fill_zero]
        exact TimeSpec.spelled_read _
      · exact remaining_of_not_interrupted
  · rw [if_neg hr, if_neg hr]
    refine ⟨iff_of_true rfl rfl, ?_, fun _ _ h => nomatch h⟩
    exact fun code => iff_of_false (fun h => nomatch h) (fun ⟨_, h⟩ => nomatch h)

/-- A signal interrupts a sleep, and the kernel writes nine bytes of what is left: the next call hands over these nine and seven
zeros. -/
theorem sleepForWithRemaining_agrees_nine_bytes :
    ∃ request, TimeSpec.Spelled ⟨1, -1⟩ request ∧
      ((monotonic.sleepResuming 1 ⟨1, -1⟩).run
          [{ result := -4, errno := 4, written := [1, 2, 3, 4, 5, 6, 7, 8, 0xff] }, {}]).2 =
        [monotonic.sleepCall request (.memory (List.replicate 16 0)),
          monotonic.sleepCall [1, 2, 3, 4, 5, 6, 7, 8, 0xff, 0, 0, 0, 0, 0, 0, 0] (.memory (List.replicate 16 0))] := by
  obtain ⟨request, hspelled, -, hrun⟩ := monotonic.sleepForWithRemaining_agrees ⟨1, -1⟩
  refine ⟨request, hspelled, ?_⟩
  exact hrun [_] {} [] (List.forall_mem_singleton.2 ⟨by decide, rfl⟩)

end ClockId

end KernelControl
