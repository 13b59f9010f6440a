import KernelControl.Proofs.AdjustmentCall

/-!
# Adjusting clocks with one record, time after time

A caller keeps one record and makes adjustments with it: each starts from the record that the one before left (`attempts`). One
attempt goes in one of three ways (`attempt_cases`). A record that fits keeps fitting, since a success leaves a record that was
read from an image, and a failure leaves the record as it was. So until the first success every attempt starts from the first
record, and after a success every attempt starts from a record that fits (`attempts_eq_append`). What the kernel is handed follows
from that (`calls_attempts`).
-/

namespace KernelControl

/-- One adjustment of a run: the clock, what the kernel answers if it is asked, what the adjustment came to, and its calls. -/
structure Attempt where
  clock : ClockId
  reply : Reply
  outcome : Except ErrorCode ClockState
  calls : List Call

namespace Attempt

/-- The adjustment gave a state of the clock. -/
def Succeeds (a : Attempt) : Prop := ∃ state, a.outcome = .ok state

/-- The adjustment made one call and handed the kernel this image. -/
def Hands (a : Attempt) (m : Image 208) : Prop := a.calls = [a.clock.adjustCall m]

/-- An attempt hands over one image at most. -/
theorem Hands.unique {a : Attempt} {m m' : Image 208} (h : a.Hands m) (h' : a.Hands m') : m = m' := by
  have hc : a.clock.adjustCall m = a.clock.adjustCall m' := List.singleton_inj.1 (h.symm.trans h')
  simpa [ClockId.adjustCall, Operand.image, Vector.toList_inj] using hc

end Attempt

namespace ClockAdjustment

/-- What an adjustment with the record comes to. -/
def attempt (adj : ClockAdjustment) (clock : ClockId) (reply : Reply) : Attempt :=
  ⟨clock, reply, ((clock.adjustTime adj).run [reply]).1.1, ((clock.adjustTime adj).run [reply]).2⟩

/-- The record that an adjustment with it leaves. -/
def after (adj : ClockAdjustment) (clock : ClockId) (reply : Reply) : ClockAdjustment :=
  ((clock.adjustTime adj).run [reply]).1.2

/-- Adjustments one after the other, each with the record that the one before left. -/
def attempts (adj : ClockAdjustment) : List (ClockId × Reply) → List Attempt
  | [] => []
  | (clock, reply) :: rest => adj.attempt clock reply :: (adj.after clock reply).attempts rest

/-! ## One attempt -/

section OneAttempt

variable (adj : ClockAdjustment) (clock : ClockId) (reply : Reply)

/-- An attempt is refused before the call, refused by the kernel, or agreed to by it. The two failures leave the record alone. -/
theorem attempt_cases :
    (¬Image.Fits adj ∧ adj.attempt clock reply = ⟨clock, reply, .error .valueTooLarge, []⟩ ∧ adj.after clock reply = adj) ∨
      (Image.Fits adj ∧ reply.result < 0 ∧
        adj.attempt clock reply =
          ⟨clock, reply, .error (.system reply.errno), [clock.adjustCall (Image.of adj)]⟩ ∧
        adj.after clock reply = adj) ∨
      (Image.Fits adj ∧ ¬reply.result < 0 ∧
        adj.attempt clock reply = ⟨clock, reply, .ok ⟨reply.result.toInt32⟩, [clock.adjustCall (Image.of adj)]⟩ ∧
        adj.after clock reply = Image.read ClockAdjustment ((Image.of adj).fill reply.written)) := by
  unfold attempt after
  by_cases hf : Image.Fits adj
  · right
    by_cases hr : reply.result < 0
    · left
      rw [clock.run_adjustTime_of_neg reply [] (fits_iff.1 hf) hr]
      exact ⟨hf, hr, rfl, rfl⟩
    · right
      rw [clock.run_adjustTime_of_not_neg reply [] (fits_iff.1 hf) hr]
      exact ⟨hf, hr, rfl, rfl⟩
  · left
    rw [clock.run_adjustTime_of_not_fits hf]
    exact ⟨hf, rfl, rfl⟩

variable {adj clock reply}

/-- A record that does not fit is refused without a call. -/
theorem attempt_of_not_fits (h : ¬Image.Fits adj) :
    (adj.attempt clock reply).outcome = .error .valueTooLarge ∧ (adj.attempt clock reply).calls = [] := by
  rcases adj.attempt_cases clock reply with ⟨-, ha, -⟩ | ⟨hf, -⟩ | ⟨hf, -⟩
  · rw [ha]
    exact ⟨rfl, rfl⟩
  · exact absurd hf h
  · exact absurd hf h

/-- A record that fits is handed to the kernel as its image. -/
theorem hands_attempt (h : Image.Fits adj) : (adj.attempt clock reply).Hands (Image.of adj) := by
  rcases adj.attempt_cases clock reply with ⟨hf, -⟩ | ⟨-, -, ha, -⟩ | ⟨-, -, ha, -⟩
  · exact absurd h hf
  · rw [ha]
    rfl
  · rw [ha]
    rfl

/-- A record that fits is never refused for a value that is too large. -/
theorem outcome_attempt_ne (h : Image.Fits adj) : (adj.attempt clock reply).outcome ≠ .error .valueTooLarge := by
  rcases adj.attempt_cases clock reply with ⟨hf, -⟩ | ⟨-, -, ha, -⟩ | ⟨-, -, ha, -⟩
  · exact absurd h hf
  · rw [ha]
    exact fun hc => ErrorCode.system_ne_valueTooLarge _ (Except.error.inj hc)
  · rw [ha]
    exact fun hc => nomatch hc

/-- An attempt succeeds exactly when the record fits and the kernel does not refuse. -/
theorem succeeds_iff : (adj.attempt clock reply).Succeeds ↔ Image.Fits adj ∧ ¬reply.result < 0 := by
  rcases adj.attempt_cases clock reply with ⟨hf, ha, -⟩ | ⟨-, hr, ha, -⟩ | ⟨hf, hr, ha, -⟩
  · rw [ha]
    exact iff_of_false (fun ⟨_, hs⟩ => nomatch hs) (fun h => hf h.1)
  · rw [ha]
    exact iff_of_false (fun ⟨_, hs⟩ => nomatch hs) (fun h => h.2 hr)
  · rw [ha]
    exact iff_of_true ⟨_, rfl⟩ ⟨hf, hr⟩

/-- A failure leaves the record as it was. -/
theorem after_of_not_succeeds (h : ¬(adj.attempt clock reply).Succeeds) : adj.after clock reply = adj := by
  rcases adj.attempt_cases clock reply with ⟨-, -, hb⟩ | ⟨-, -, -, hb⟩ | ⟨-, -, ha, -⟩
  · exact hb
  · exact hb
  · rw [ha] at h
    exact absurd ⟨_, rfl⟩ h

/-- A success leaves the record that the kernel wrote over the image. -/
theorem after_of_succeeds (h : (adj.attempt clock reply).Succeeds) :
    adj.after clock reply = Image.read ClockAdjustment ((Image.of adj).fill reply.written) := by
  obtain ⟨hf, hr⟩ := succeeds_iff.1 h
  rcases adj.attempt_cases clock reply with ⟨hn, -⟩ | ⟨-, hn, -⟩ | ⟨-, -, -, hb⟩
  · exact absurd hf hn
  · exact absurd hn hr
  · exact hb

/-- A record that fits still fits after the attempt. -/
theorem fits_after (h : Image.Fits adj) : Image.Fits (adj.after clock reply) := by
  by_cases hs : (adj.attempt clock reply).Succeeds
  · rw [after_of_succeeds hs]
    exact Image.fits_read _
  · rw [after_of_not_succeeds hs]
    exact h

end OneAttempt

/-! ## Runs -/

/-- There is one attempt for each clock and reply, in their order. -/
theorem map_attempts (adj : ClockAdjustment) (script : List (ClockId × Reply)) :
    (adj.attempts script).map (fun a => (a.clock, a.reply)) = script := by
  induction script generalizing adj with
  | nil => rfl
  | cons step rest ih =>
    rw [attempts, List.map_cons, ih]
    rfl

/-- The first attempt of a run starts from its record, and the others are a run from the record that it leaves. -/
theorem attempts_eq_cons {adj : ClockAdjustment} {script : List (ClockId × Reply)} {a : Attempt} {later : List Attempt}
    (h : adj.attempts script = a :: later) :
    a = adj.attempt a.clock a.reply ∧ ∃ rest, later = (adj.after a.clock a.reply).attempts rest := by
  cases script with
  | nil => nomatch h
  | cons step rest =>
    obtain ⟨rfl, rfl⟩ := List.cons.inj h
    exact ⟨rfl, rest, rfl⟩

/-- What follows some attempts of a run is a run from a record that fits if the first one did, and that is the first one if none
of the attempts succeeded. -/
theorem attempts_eq_append {adj : ClockAdjustment} {script : List (ClockId × Reply)} {before later : List Attempt}
    (h : adj.attempts script = before ++ later) :
    ∃ (r : ClockAdjustment) (rest : List (ClockId × Reply)), later = r.attempts rest ∧
      (Image.Fits adj → Image.Fits r) ∧ ((∀ c ∈ before, ¬c.Succeeds) → r = adj) := by
  induction before generalizing adj script with
  | nil => exact ⟨adj, script, h.symm, id, fun _ => rfl⟩
  | cons c before ih =>
    obtain ⟨hc, rest, hrest⟩ := attempts_eq_cons h
    obtain ⟨r, others, hlater, hfits, hfirst⟩ := ih hrest.symm
    refine ⟨r, others, hlater, fun hf => hfits (fits_after hf), ?_⟩
    intro hfail
    obtain ⟨hcfail, hbefore⟩ := List.forall_mem_cons.1 hfail
    rw [hc] at hcfail
    rw [hfirst hbefore, after_of_not_succeeds hcfail]

/-- With a record that does not fit every attempt is refused without a call. -/
theorem attempts_of_not_fits {adj : ClockAdjustment} (h : ¬Image.Fits adj) (script : List (ClockId × Reply)) :
    ∀ a ∈ adj.attempts script, a.outcome = .error .valueTooLarge ∧ a.calls = [] := by
  induction script with
  | nil => exact fun a ha => nomatch ha
  | cons step rest ih =>
    have hsame : adj.after step.1 step.2 = adj := after_of_not_succeeds fun hs => h (succeeds_iff.1 hs).1
    rw [attempts, hsame, List.forall_mem_cons]
    exact ⟨attempt_of_not_fits h, ih⟩

/-- What the kernel is handed in a run. If the first record has no image, every attempt fails because a value is too large, and
makes no call. If it has one, every attempt hands over that image, which spells the record, until the first has succeeded. After a
success every attempt hands over an image and does not fail for that reason; the image is the one that the kernel left in the most
recent success, with the padding cleared, whatever was attempted in between. -/
theorem calls_attempts (adj : ClockAdjustment) (script : List (ClockId × Reply)) :
    (adj.attempts script).map (fun a => (a.clock, a.reply)) = script ∧
      (¬Scalar.i32.Holds adj.shift.toInt →
        ∀ a ∈ adj.attempts script, a.outcome = .error .valueTooLarge ∧ a.calls = []) ∧
      (Scalar.i32.Holds adj.shift.toInt →
        ∃ m, adj.image? = .ok m ∧ adj.Spelled m.toList ∧ ∀ before a later, adj.attempts script = before ++ a :: later →
          (∀ c ∈ before, ¬c.Succeeds) → a.Hands m) ∧
      ∀ before b between a later, adj.attempts script = before ++ b :: (between ++ a :: later) → b.Succeeds →
        a.outcome ≠ .error .valueTooLarge ∧ (∃ m, a.Hands m) ∧
          ((∀ c ∈ between, ¬c.Succeeds) → ∃ m, b.Hands m ∧ a.Hands (clearPadding (m.fill b.reply.written))) := by
  refine ⟨adj.map_attempts script, fun h => attempts_of_not_fits (fun hf => h (fits_iff.1 hf)) script, ?_, ?_⟩
  · intro hs
    have hf : Image.Fits adj := fits_iff.2 hs
    refine ⟨Image.of adj, image?_of_fits hf, spelled_of hf, ?_⟩
    intro before a later h hfail
    obtain ⟨r, rest, hr, -, hfirst⟩ := attempts_eq_append h
    obtain rfl : r = adj := hfirst hfail
    rw [(attempts_eq_cons hr.symm).1]
    exact hands_attempt hf
  · -- what follows a success is a run from a record that was read from an image
    intro before b between a later h hs
    obtain ⟨r, rest, hr, -, -⟩ := attempts_eq_append h
    obtain ⟨hb, others, hothers⟩ := attempts_eq_cons hr.symm
    rw [hb] at hs
    have hafter := after_of_succeeds hs
    obtain ⟨r', rest', hr', hfits, hfirst⟩ := attempts_eq_append hothers.symm
    have ha := (attempts_eq_cons hr'.symm).1
    have hf' : Image.Fits r' := hfits (by rw [hafter]; exact Image.fits_read _)
    have hm : a.Hands (Image.of r') := by
      rw [ha]
      exact hands_attempt hf'
    refine ⟨by rw [ha]; exact outcome_attempt_ne hf', ⟨_, hm⟩, ?_⟩
    intro hbetween
    refine ⟨Image.of r, by rw [hb]; exact hands_attempt (succeeds_iff.1 hs).1, ?_⟩
    rw [hfirst hbetween, hafter, of_read] at hm
    exact hm

/-- A refusal, a success that writes nine bytes, a refusal: the fourth attempt hands over what the success left. The kernel had
written `modes`, the pad after it, and the low byte of `offset`; the pad is cleared, and the two refusals leave no trace. -/
theorem calls_attempts_resumed :
    ∃ a m, (({ offset := 0x300, shift := -3 } : ClockAdjustment).attempts
          [(.realtime, { result := -1, errno := 1, written := [7] }),
            (.realtime, { result := 5, written := [1, 0, 0, 0, 9, 9, 9, 9, 2] }),
            (.tai, { result := -1, errno := 4, written := [8, 8] }), (.monotonic, {})])[3]? = some a ∧
      a.Hands m ∧ m.slice 0 10 = [1, 0, 0, 0, 0, 0, 0, 0, 2, 3] := by
  obtain ⟨-, -, hfirst, hthen⟩ := calls_attempts { offset := 0x300, shift := -3 }
    [(.realtime, { result := -1, errno := 1, written := [7] }),
      (.realtime, { result := 5, written := [1, 0, 0, 0, 9, 9, 9, 9, 2] }),
      (.tai, { result := -1, errno := 4, written := [8, 8] }), (.monotonic, {})]
  obtain ⟨m, hm, -, hhands⟩ := hfirst (by decide)
  have hb := hhands [_] _ [_, _] rfl (List.forall_mem_singleton.2 fun h => (succeeds_iff.1 h).2 (by decide))
  obtain ⟨-, -, hlast⟩ := hthen [_] _ [_] _ [] rfl ⟨⟨5⟩, rfl⟩
  obtain ⟨m', hb', ha⟩ := hlast (List.forall_mem_singleton.2 fun h => (succeeds_iff.1 h).2 (by decide))
  obtain rfl := hb.unique hb'
  obtain ⟨-, rfl⟩ := of_image?_eq_ok hm
  exact ⟨_, _, rfl, ha, by decide +kernel⟩

end ClockAdjustment

end KernelControl
