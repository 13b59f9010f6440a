import KernelControl.Clock
import KernelControl.Proofs.AdjustmentImage
import KernelControl.Proofs.Reply

/-!
# Adjusting a clock

An adjustment ends in one of three ways: the record does not fit and the kernel is not asked (`run_adjustTime_of_not_holds`),
the kernel refuses (`run_adjustTime_of_neg`), or it agrees and its bytes go over the image of the record
(`run_adjustTime_of_not_neg`). The two failures leave the record as it was and are told apart by their codes and by the calls
made (`adjustTime_error`). A success reads the record from what the kernel wrote and, past the end of that, from the bytes it was
handed (`adjustTime_ok`).
-/

namespace KernelControl

namespace ClockId

open ClockAdjustment

/-- The call of an adjustment: the kernel is handed the number of the clock and an image. -/
def adjustCall (clock : ClockId) (m : Image 208) : Call := ⟨305, [clock.operand, .memory m.toList]⟩

/-! ## The three ways it ends -/

section Runs

variable (clock : ClockId) {adj : ClockAdjustment} (reply : Reply) (rest : List Reply)

/-- A record whose `shift` does not fit 32 bits is refused before the call. -/
theorem run_adjustTime_of_not_holds (h : ¬Scalar.i32.Holds adj.shift.toInt) (replies : List Reply) :
    (clock.adjustTime adj).run replies = ((.error .valueTooLarge, adj), []) :=
  run_adjustTime_of_not_fits clock (fun hf => h (fits_iff.1 hf)) replies

/-- The kernel refuses, and whatever it wrote is forgotten. -/
theorem run_adjustTime_of_neg (h : Scalar.i32.Holds adj.shift.toInt) (hr : reply.result < 0) :
    (clock.adjustTime adj).run (reply :: rest) =
      ((.error (.system reply.errno), adj), [clock.adjustCall (Image.of adj)]) := by
  rw [run_adjustTime_of_fits clock (fits_iff.2 h), List.headD_cons, adjusted, Reply.number32_of_neg hr]
  rfl

/-- The kernel agrees, and the record is read from the image it wrote over. -/
theorem run_adjustTime_of_not_neg (h : Scalar.i32.Holds adj.shift.toInt) (hr : ¬reply.result < 0) :
    (clock.adjustTime adj).run (reply :: rest) =
      ((.ok ⟨reply.result.toInt32⟩, Image.read ClockAdjustment ((Image.of adj).fill reply.written)),
        [clock.adjustCall (Image.of adj)]) := by
  rw [run_adjustTime_of_fits clock (fits_iff.2 h), List.headD_cons, adjusted, Reply.number32_of_not_neg hr]
  rfl

end Runs

/-! ## Failure -/

/-- An adjustment that fails leaves the record as it was, whatever the kernel wrote. It fails because a value is too large
exactly when `shift` does not fit 32 bits, and exactly then there is no call. It fails with the number that the kernel reported
exactly when `shift` fits and the result is negative. Whenever `shift` fits there is one call, with the image of the record. -/
theorem adjustTime_error (clock : ClockId) (adj : ClockAdjustment) (reply : Reply) (rest : List Reply) :
    ∃ outcome after calls, (clock.adjustTime adj).run (reply :: rest) = ((outcome, after), calls) ∧
      (∀ code, outcome = .error code → after = adj ∧ (code = .valueTooLarge ∨ code = .system reply.errno)) ∧
      (outcome = .error .valueTooLarge ↔ ¬Scalar.i32.Holds adj.shift.toInt) ∧
      (calls = [] ↔ ¬Scalar.i32.Holds adj.shift.toInt) ∧
      (outcome = .error (.system reply.errno) ↔ Scalar.i32.Holds adj.shift.toInt ∧ reply.result < 0) ∧
      (calls = [clock.adjustCall (Image.of adj)] ↔ Scalar.i32.Holds adj.shift.toInt) := by
  by_cases h : Scalar.i32.Holds adj.shift.toInt
  · by_cases hr : reply.result < 0
    · -- refused by the kernel
      refine ⟨_, _, _, clock.run_adjustTime_of_neg reply rest h hr, ?_, ?_, ?_, ?_, ?_⟩
      · intro code hc
        exact ⟨rfl, Or.inr (Except.error.inj hc).symm⟩
      · exact iff_of_false (fun hc => ErrorCode.system_ne_valueTooLarge _ (Except.error.inj hc)) (not_not_intro h)
      · exact iff_of_false (List.cons_ne_nil _ _) (not_not_intro h)
      · exact iff_of_true rfl ⟨h, hr⟩
      · exact iff_of_true rfl h
    · -- no failure at all
      refine ⟨_, _, _, clock.run_adjustTime_of_not_neg reply rest h hr, ?_, ?_, ?_, ?_, ?_⟩
      · intro code hc
        nomatch hc
      · exact iff_of_false (fun hc => nomatch hc) (not_not_intro h)
      · exact iff_of_false (List.cons_ne_nil _ _) (not_not_intro h)
      · exact iff_of_false (fun hc => nomatch hc) (fun hn => hr hn.2)
      · exact iff_of_true rfl h
  · -- refused before the call
    refine ⟨_, _, _, clock.run_adjustTime_of_not_holds h (reply :: rest), ?_, ?_, ?_, ?_, ?_⟩
    · intro code hc
      exact ⟨rfl, Or.inl (Except.error.inj hc).symm⟩
    · exact iff_of_true rfl h
    · exact iff_of_true rfl h
    · exact iff_of_false (fun hc => ErrorCode.system_ne_valueTooLarge _ (Except.error.inj hc).symm) (fun hf => h hf.1)
    · exact iff_of_false (List.cons_ne_nil _ _).symm h

/-! ## Success -/

/-- An adjustment that succeeds hands the kernel the bytes of the record and gives the result of the call in 32 bits. The bytes
written, completed with the ones handed over, are those of the record afterwards. So a field that the kernel wrote whole has the
value it wrote, one that it did not reach has the value it had, and one that it wrote in part has the low bytes written and the
high bytes it had. What the kernel wrote into the padding, or past the end of the structure, is not seen. -/
theorem adjustTime_ok (clock : ClockId) (adj : ClockAdjustment) (reply : Reply) (rest : List Reply)
    (h : Scalar.i32.Holds adj.shift.toInt) (hr : 0 ≤ reply.result) :
    ∃ state after, ∃ m : Image 208,
      (clock.adjustTime adj).run (reply :: rest) = ((.ok state, after), [clock.adjustCall m]) ∧
      adj.Spelled m.toList ∧
      after.Spelled (reply.written.take 208 ++ m.toList.drop reply.written.length) ∧
      state.raw.toInt = Scalar.i32.wrap reply.result.toInt ∧
      Image.Overlay adj (reply.written.take 208) after ∧
      ∀ w : List UInt8, (∀ p < 208, ¬Padding p → w[p]? = reply.written[p]?) →
        ((clock.adjustTime adj).run ({ reply with written := w } :: rest)).1 = (.ok state, after) := by
  have hn : ¬reply.result < 0 := Int64.not_lt.2 hr
  have hf := fits_iff.2 h
  refine ⟨⟨reply.result.toInt32⟩, Image.read ClockAdjustment ((Image.of adj).fill reply.written), Image.of adj,
    clock.run_adjustTime_of_not_neg reply rest h hn, spelled_of hf, ?_, Scalar.toInt_toInt32 reply.result, ?_, ?_⟩
  · rw [← Image.toList_fill]
    exact spelled_read _
  · rw [← Image.fill_take]
    exact Image.overlay_read_fill hf _
  · intro w hw
    have hs : Image.read ClockAdjustment ((Image.of adj).fill w) =
        Image.read ClockAdjustment ((Image.of adj).fill reply.written) := by
      apply Image.read_fill_congr
      intro i p hp hc
      exact hw p hp (not_padding_of_covers hp hc)
    rw [clock.run_adjustTime_of_not_neg { reply with written := w } rest h hn, hs]

/-- Ten bytes written over a record: `modes` is what the kernel wrote, `offset` takes its two low bytes from the kernel and
keeps the six others, which are those of a negative number, and `freq` is kept. The pad between the first two is not seen. The
kernel was handed `shift` at 112. -/
theorem adjustTime_ok_ten_bytes :
    Scalar.i32.Holds (-3) ∧ (0 : Int64) ≤ 0x100000005 ∧
      ∃ after, ∃ m : Image 208, (realtime.adjustTime { offset := -1, freq := 5, shift := -3 }).run
          [{ result := 0x100000005, errno := 4, written := [1, 0, 0, 0, 9, 9, 9, 9, 0x10, 0x20] }] =
            ((.ok ⟨5⟩, after), [realtime.adjustCall m]) ∧
        (m.toList.drop 112).take 4 = [0xFD, 0xFF, 0xFF, 0xFF] ∧
        after.value .modes = 1 ∧ after.value .offset = -0x10000 + 0x2010 ∧ after.value .freq = 5 := by
  have h : Scalar.i32.Holds (-3) := by decide
  have hr : (0 : Int64) ≤ 0x100000005 := by decide
  obtain ⟨⟨state⟩, after, m, hrun, hspelled, -, hstate, hover, -⟩ := adjustTime_ok realtime { offset := -1, freq := 5, shift := -3 }
    { result := 0x100000005, errno := 4, written := [1, 0, 0, 0, 9, 9, 9, 9, 0x10, 0x20] } [] h hr
  have hfive : state = 5 := Int32.toInt_inj.1 (hstate.trans (by decide))
  subst hfive
  have hmodes := (Scalar.spells_iff.1 (hover.inside .modes (by decide))).2
  have hoffset := (Scalar.spells_iff.1 (hover.across .offset (by decide) (by decide))).2
  have hfreq := hover.outside .freq (by decide)
  exact ⟨h, hr, after, m, hrun, hspelled.shift.eq_encode.trans (by decide), hmodes.trans (by decide), hoffset.trans (by decide), hfreq.trans (by decide)⟩

end ClockId

end KernelControl
