import KernelControl.Proofs.Sleep
import KernelControl.Proofs.TimeImage

/-!
# Times on their way to the kernel and back

A time is handed to the kernel to set a clock and to sleep, in one of three ways, and it comes from the kernel when a clock is read.
All of them use the same sixteen bytes for it (`TimeUse.calls_eq`, `ClockId.getTime_of_not_neg`), so a time comes back from the
kernel as it was handed over, and what the kernel wrote for a clock is what it is handed when the time of that clock is used
(`TimeUse.calls_getTime`).
-/

namespace KernelControl

/-- What a time can be handed to the kernel for. -/
inductive TimeUse where
  | setTime
  | sleepFor
  | sleepUntil
  | sleepForWithRemaining

/-- A read that succeeds gives the time of what the kernel wrote over zeros. -/
theorem ClockId.getTime_of_not_neg (clock : ClockId) {reply : Reply} (rest : List Reply) (h : 0 ≤ reply.result) :
    (clock.getTime.run (reply :: rest)).1 = .ok (Image.read TimeSpec ((Image.zero 16).fill reply.written)) := by
  rw [run_getTime, List.headD_cons, Reply.outcome_of_not_neg (Int64.not_lt.2 h)]
  rfl

namespace TimeUse

/-- The calls that are made when a time is used on a clock and the kernel gives these replies. -/
def calls (use : TimeUse) (clock : ClockId) (ts : TimeSpec) (replies : List Reply) : List Call :=
  match use with
  | .setTime => ((clock.setTime ts).run replies).2
  | .sleepFor => ((clock.sleepFor ts).run replies).2
  | .sleepUntil => ((clock.sleepUntil ts).run replies).2
  | .sleepForWithRemaining => ((clock.sleepForWithRemaining ts).run replies).2

/-- The call of a use, with the bytes of the time in it. -/
def call (use : TimeUse) (clock : ClockId) (request : List UInt8) : Call :=
  match use with
  | .setTime => ⟨227, [clock.operand, .memory request]⟩
  | .sleepFor => ⟨230, [clock.operand, .int32 0, .memory request, .null]⟩
  | .sleepUntil => ⟨230, [clock.operand, .int32 1, .memory request, .null]⟩
  | .sleepForWithRemaining => ⟨230, [clock.operand, .int32 0, .memory request, .memory (List.replicate 16 0)]⟩

/-- Every use makes one call, with the bytes of the time. -/
theorem calls_eq (use : TimeUse) (clock : ClockId) (ts : TimeSpec) (replies : List Reply) :
    use.calls clock ts replies = [use.call clock (Image.of ts : Image 16).toList] := by
  cases use with
  | setTime => rfl
  | sleepFor => rfl
  | sleepUntil => rfl
  | sleepForWithRemaining =>
    rw [calls, clock.run_sleepForWithRemaining, ClockId.image_zero]
    rfl

/-- A time is spelled by one run of bytes, and these are handed to the kernel whatever the time is used for, on whichever clock; when
they are read from a clock, the same time is returned. Any sixteen bytes spell one time. And whatever the kernel wrote for a clock
that was read, it is handed these bytes, cut to sixteen or completed with zeros, when the time that was returned is used. -/
theorem calls_getTime :
    (∀ ts : TimeSpec, ∃ bytes : List UInt8, (∀ b, ts.Spelled b ↔ b = bytes) ∧
        (∀ (use : TimeUse) (clock : ClockId) (replies : List Reply),
          use.calls clock ts replies = [use.call clock bytes]) ∧
        ∀ (clock : ClockId) (reply : Reply) (rest : List Reply), 0 ≤ reply.result → reply.written.take 16 = bytes →
          (clock.getTime.run (reply :: rest)).1 = .ok ts) ∧
      (∀ bytes : List UInt8, bytes.length = 16 → ∃ ts : TimeSpec, ∀ ts', ts'.Spelled bytes ↔ ts' = ts) ∧
      ∀ (clock : ClockId) (reply : Reply) (rest : List Reply), 0 ≤ reply.result →
        ∃ ts, (clock.getTime.run (reply :: rest)).1 = .ok ts ∧
          ∀ (use : TimeUse) (other : ClockId) (replies : List Reply),
            use.calls other ts replies = [use.call other (Image.padded 16 reply.written)] := by
  refine ⟨?_, ?_, ?_⟩
  · intro ts
    have hspelled := ts.spelled_of
    refine ⟨_, fun b => ⟨fun hb => hb.bytes_eq hspelled, fun hb => hb ▸ hspelled⟩, fun use clock => use.calls_eq clock ts, ?_⟩
    intro clock reply rest hr hw
    rw [clock.getTime_of_not_neg rest hr, ← Image.fill_take, hw, Image.fill_toList, Image.read_of ts.fits]
  · intro bytes hlength
    obtain ⟨ts, hts⟩ := TimeSpec.exists_spelled hlength
    exact ⟨ts, fun ts' => ⟨fun h => h.eq hts, fun h => h ▸ hts⟩⟩
  · intro clock reply rest hr
    refine ⟨_, clock.getTime_of_not_neg rest hr, fun use other replies => ?_⟩
    rw [use.calls_eq, TimeSpec.of_read, Image.toList_fill_zero]

/-- A time that is not normalized comes back from a write that goes on past its end; of another time the kernel writes nine bytes, and
it is slept until. -/
theorem calls_getTime_nine_bytes :
    ∃ bytes ts,
      setTime.calls .realtime ⟨-1, 5000000000⟩ [] = [setTime.call .realtime bytes] ∧
      (ClockId.tai.getTime.run [{ written := bytes ++ [7] }]).1 = .ok ⟨-1, 5000000000⟩ ∧
      (ClockId.tai.getTime.run [{ result := 3, errno := 4, written := [1, 2, 3, 4, 5, 6, 7, 0x80, 9] }]).1 = .ok ts ∧
      sleepUntil.calls .monotonic ts [] =
        [sleepUntil.call .monotonic [1, 2, 3, 4, 5, 6, 7, 0x80, 9, 0, 0, 0, 0, 0, 0, 0]] := by
  obtain ⟨hthere, -, hback⟩ := calls_getTime
  obtain ⟨bytes, hspelled, huse, hread⟩ := hthere ⟨-1, 5000000000⟩
  obtain ⟨ts, hget, hagain⟩ :=
    hback .tai { result := 3, errno := 4, written := [1, 2, 3, 4, 5, 6, 7, 0x80, 9] } [] (by decide)
  have hlength : bytes.length = 16 := ((hspelled bytes).2 rfl).length_eq
  refine ⟨bytes, ts, huse setTime .realtime [], ?_, hget, hagain sleepUntil .monotonic []⟩
  exact hread .tai { written := bytes ++ [7] } [] (Int64.le_refl 0) (List.take_left' hlength)

end TimeUse

end KernelControl
