import Mathlib.Algebra.Field.Rat
import Mathlib.Tactic.Ring
import KernelControl.Proofs.ReportSections
import KernelControl.Proofs.TimeUnits

/-!
# The clocks in the report

The line of a clock has the name of the clock in a column of fifteen characters, and after it the time: the seconds, a point and
the nanoseconds. A text with a point is read in two ways, as the two numbers on its sides (`readTime?`) and as one number with
decimal places (`Decimal.rational?`). The nanoseconds of a normalized time have no sign and are filled up with zeros to nine digits
(`Decimal.length_renderPadded`), so the first way gives the time back, whatever its seconds. In the second way a minus sign counts
for the nanoseconds too, so it gives the total only when there is none.
-/

namespace KernelControl

namespace Decimal

/-! ## Numbers with a point -/

/-- The text before the first point and the text after it, if there is a point. -/
def atPoint? (text : List Char) : Option (List Char × List Char) :=
  match text.dropWhile (· != '.') with
  | [] => none
  | _ :: fraction => some (text.takeWhile (· != '.'), fraction)

/-- The number that digits, a point and digits stand for. -/
def unsignedRational? (text : List Char) : Option ℚ := do
  let (whole, fraction) ← atPoint? text
  let wholeNumber ← natural? whole
  let decimalPlaces ← natural? fraction
  return (wholeNumber : ℚ) + decimalPlaces / 10 ^ fraction.length

/-- The number that a text with a point stands for. A minus sign is the sign of all of it. -/
def rational? : List Char → Option ℚ
  | '-' :: text => (unsignedRational? text).map fun q : ℚ => -q
  | text => unsignedRational? text

/-- A text without a point is what stands before the first point after it. -/
theorem atPoint?_append {whole : List Char} (h : '.' ∉ whole) (fraction : List Char) :
    atPoint? (whole ++ '.' :: fraction) = some (whole, fraction) := by
  have hwhole : ∀ c ∈ whole, (c != '.') = true := by
    intro c hc
    rw [bne_iff_ne]
    rintro rfl
    exact h hc
  rw [atPoint?, List.takeWhile_append_of_pos hwhole, List.dropWhile_append_of_pos hwhole]
  simp

/-- No digit is a point. -/
theorem point_not_mem_digits (n : Nat) : '.' ∉ digits n :=
  fun h => nomatch isDigit_of_mem_digits h

theorem point_not_mem_render (n : Int) : '.' ∉ render n := by
  have hsign : '.' ∉ sign n := by
    unfold sign
    split <;> decide
  rw [render, List.mem_append]
  exact fun h => h.elim hsign (point_not_mem_digits n.natAbs)

/-! ## Numbers without a sign -/

section Unsigned

variable {n : Int} (hn : 0 ≤ n)
include hn

theorem sign_of_nonneg : sign n = [] := if_neg (Int.not_lt.2 hn)

theorem render_of_nonneg : render n = digits n.natAbs := by
  rw [render, sign_of_nonneg hn, List.nil_append]

theorem natural?_renderPadded (width : Nat) : natural? (renderPadded width n) = some n.natAbs := by
  rw [renderPadded, sign_of_nonneg hn, List.nil_append, natural?_zeros_append_digits]

/-- A number that has no more digits than the width is filled up to just that width. -/
theorem length_renderPadded {width : Nat} (hw : 0 < width) (h : n.natAbs < 10 ^ width) : (renderPadded width n).length = width := by
  have hle : (digits n.natAbs).length ≤ width := (Nat.length_toDigits_le_iff (by decide) hw).2 h
  rw [renderPadded, sign_of_nonneg hn, List.nil_append, List.length_append, List.length_replicate, List.length_nil]
  omega

end Unsigned

theorem render_of_neg {n : Int} (hn : n < 0) : render n = '-' :: digits n.natAbs := by
  rw [render, sign, if_pos hn, List.singleton_append]

/-! ## Integers with decimal places -/

/-- A text that begins with a digit has no sign. -/
theorem rational?_digits_append (n : Nat) (text : List Char) :
    rational? (digits n ++ text) = unsignedRational? (digits n ++ text) := by
  unfold rational?
  split
  · rename_i rest h
    have hmem : '-' ∈ digits n := by
      cases hd : digits n with
      | nil => exact absurd hd Nat.toDigits_ne_nil
      | cons c cs =>
        rw [hd, List.cons_append, List.cons.injEq] at h
        exact h.1 ▸ List.mem_cons_self
    nomatch isDigit_of_mem_digits hmem
  · rfl

section Places

variable {m : Int} (hm : 0 ≤ m) (width : Nat)
include hm

/-- The number after the point is divided by ten for each of its digits. -/
theorem unsignedRational?_append (n : Nat) :
    unsignedRational? (digits n ++ '.' :: renderPadded width m) =
      some ((n : ℚ) + (m : ℚ) / 10 ^ (renderPadded width m).length) := by
  have hcast : (m : ℚ) = (m.natAbs : Nat) := by rw [← Int.cast_natCast, Int.natAbs_of_nonneg hm]
  rw [unsignedRational?, atPoint?_append (point_not_mem_digits n), Option.bind_eq_bind, Option.bind_some, hcast]
  simp only [natural?_digits, natural?_renderPadded hm, Option.bind_some, Option.bind_eq_bind]
  rfl

/-- Decimal places are added to an integer without a sign. -/
theorem rational?_append_of_nonneg {n : Int} (hn : 0 ≤ n) :
    rational? (render n ++ '.' :: renderPadded width m) =
      some ((n : ℚ) + (m : ℚ) / 10 ^ (renderPadded width m).length) := by
  rw [render_of_nonneg hn, rational?_digits_append, unsignedRational?_append hm, ← Int.cast_natCast n.natAbs,
    Int.natAbs_of_nonneg hn]

/-- From an integer with a minus sign they are taken away. -/
theorem rational?_append_of_neg {n : Int} (hn : n < 0) :
    rational? (render n ++ '.' :: renderPadded width m) =
      some ((n : ℚ) - (m : ℚ) / 10 ^ (renderPadded width m).length) := by
  have hsize : ((n.natAbs : Nat) : ℚ) = -n := by
    rw [← Int.cast_natCast, Int.ofNat_natAbs_of_nonpos (Int.le_of_lt hn), Int.cast_neg]
  rw [render_of_neg hn, List.cons_append, rational?, unsignedRational?_append hm, Option.map_some, hsize, neg_add, neg_neg,
    sub_eq_add_neg]

end Places

end Decimal

namespace Report

/-- The seconds and the nanoseconds that a text stands for: a number that may have a sign, a point, and exactly nine digits. -/
def readTime? (text : List Char) : Option (Int × Int) := do
  let (whole, fraction) ← Decimal.atPoint? text
  let sec ← Decimal.parse? whole
  let nsec ← Decimal.natural? fraction
  if fraction.length = 9 then some (sec, nsec) else none

/-! ## The text of a time -/

/-- The characters of the text of a time. -/
theorem toList_timeText (ts : TimeSpec) :
    (timeText ts).toList = Decimal.render ts.sec.toInt ++ '.' :: Decimal.renderPadded 9 ts.nsec.toInt := by
  simp [timeText, decimal]

section Normalized

variable {ts : TimeSpec} (h : ts.isNormalized)
include h

/-- The nanoseconds take nine digits. -/
theorem length_nanoseconds : (Decimal.renderPadded 9 ts.nsec.toInt).length = 9 := by
  obtain ⟨hlo, hhi⟩ := TimeSpec.isNormalized_iff.1 h
  apply Decimal.length_renderPadded hlo (by decide)
  omega

/-- The two numbers in the text of a time are its fields. -/
theorem readTime?_timeText : readTime? (timeText ts).toList = some (ts.sec.toInt, ts.nsec.toInt) := by
  obtain ⟨hlo, -⟩ := TimeSpec.isNormalized_iff.1 h
  have hnsec : (ts.nsec.toInt.natAbs : Int) = ts.nsec.toInt := Int.natAbs_of_nonneg hlo
  rw [toList_timeText, readTime?, Decimal.atPoint?_append (Decimal.point_not_mem_render _), Option.bind_eq_bind,
    Option.bind_some]
  simp only [Decimal.parse?_render, Decimal.natural?_renderPadded hlo, Option.bind_some, Option.bind_eq_bind,
    length_nanoseconds h, if_true, hnsec]

/-- The text of a time is a number of seconds: that of its total if there is no minus sign, and otherwise one that counts the
nanoseconds the wrong way. -/
theorem rational?_timeText :
    ∃ q, Decimal.rational? (timeText ts).toList = some q ∧
      (0 ≤ ts.sec → q * 1000000000 = ts.total) ∧ (ts.sec < 0 → q * 1000000000 = ts.total - 2 * ts.nsec.toInt) := by
  obtain ⟨hlo, -⟩ := TimeSpec.isNormalized_iff.1 h
  have htotal : (ts.total : ℚ) = ts.sec.toInt * 1000000000 + ts.nsec.toInt := by
    rw [TimeSpec.total, Int.cast_add, Int.cast_mul, Int.cast_ofNat]
  rw [toList_timeText, htotal]
  rcases Int.lt_or_le ts.sec.toInt 0 with hs | hs
  · refine ⟨_, Decimal.rational?_append_of_neg hlo 9 hs, ?_, ?_⟩
    · intro hpos
      exact absurd (Int64.le_iff_toInt_le.1 hpos) (Int.not_le.2 hs)
    · intro _
      rw [length_nanoseconds h]
      ring
  · refine ⟨_, Decimal.rational?_append_of_nonneg hlo 9 hs, ?_, ?_⟩
    · intro _
      rw [length_nanoseconds h]
      ring
    · intro hneg
      exact absurd (Int64.lt_iff_toInt_lt.1 hneg) (Int.not_lt.2 hs)

end Normalized

/-! ## The line of a clock -/

/-- The section of a clock that was read is its line. -/
theorem getElem?_texts_clock {k : Nat} {name : String} {clock : ClockId} {replies : List Reply} {ts : TimeSpec}
    (hk : clocks[k]? = some (name, clock)) (hread : (clock.getTime.run [replies.getD k {}]).1 = .ok ts) :
    (texts replies)[k]? = some (clockLine name ts) := by
  have hsection : sections[k]? = some (clockSection name clock) := by
    have hlt : k < (clocks.map fun entry => clockSection entry.1 entry.2).length := by
      rw [List.length_map]
      exact (List.getElem?_eq_some_iff.1 hk).1
    rw [sections, List.getElem?_append_left hlt, List.getElem?_map, hk]
    rfl
  have hrun : ((clockSection name clock).run [replies.getD k {}]).1 = clockLine name ts := by
    simp only [clockSection, Program.run_bind, hread, Program.run_pure]
  rw [getElem?_texts, hsection, Option.map_some, hrun]

/-- A name of no more than fourteen characters fills the column. -/
theorem length_label {name : String} (h : name.length ≤ 14) : (label name).length = 15 := by
  have hblank : " ".length = 1 := rfl
  rw [label, String.length_append, String.length_append, String.length_ofList, List.length_replicate, hblank]
  omega

/-- The names of the clocks fit the column. -/
theorem length_name_of_mem {name : String} {clock : ClockId} (h : (name, clock) ∈ clocks) : name.length ≤ 14 := by
  have hall : ∀ entry ∈ clocks, entry.1.length ≤ 14 := by decide
  exact hall _ h

/-- The lines of two normalized times under one name are equal only if the times are. -/
theorem clockLine_inj {name : String} {a b : TimeSpec} (ha : a.isNormalized) (hb : b.isNormalized) :
    clockLine name a = clockLine name b ↔ a = b := by
  constructor
  · intro h
    have htext : (timeText a).toList = (timeText b).toList := by
      have hl := congrArg String.toList h
      simp only [clockLine, String.toList_append, List.append_cancel_left_eq, List.append_cancel_right_eq] at hl
      exact hl
    have hfields := (readTime?_timeText ha).symm.trans ((congrArg readTime? htext).trans (readTime?_timeText hb))
    obtain ⟨hsec, hnsec⟩ := Prod.mk.inj (Option.some.inj hfields)
    exact TimeSpec.ext_toInt hsec hnsec
  · rintro rfl
    rfl

/-- When a clock of the report reads a normalized time, its text in the report is the line of that time. After a column of fifteen
characters the line has a text in which the two numbers are the seconds and the nanoseconds, the latter in exactly nine digits, so
another normalized time has another line. If the time is not before the epoch, the text is also the number of seconds with decimal
places that is the exact total of nanoseconds. -/
theorem clockLine_reading (name : String) (clock : ClockId) (hclock : (name, clock) ∈ clocks) (ts : TimeSpec)
    (hts : ts.isNormalized) :
    (∀ (k : Nat) (replies : List Reply), clocks[k]? = some (name, clock) →
        (clock.getTime.run [replies.getD k {}]).1 = .ok ts → (texts replies)[k]? = some (clockLine name ts)) ∧
      (∃ text : List Char, clockLine name ts = label name ++ String.ofList text ++ "\n" ∧ (label name).length = 15 ∧
        readTime? text = some (ts.sec.toInt, ts.nsec.toInt) ∧
        ∃ q, Decimal.rational? text = some q ∧
          (0 ≤ ts.sec → q * 1000000000 = ts.total) ∧ (ts.sec < 0 → q * 1000000000 = ts.total - 2 * ts.nsec.toInt)) ∧
      ∀ other : TimeSpec, other.isNormalized → (clockLine name other = clockLine name ts ↔ other = ts) := by
  refine ⟨fun k replies => getElem?_texts_clock, ⟨(timeText ts).toList, ?_, length_label (length_name_of_mem hclock),
    readTime?_timeText hts, rational?_timeText hts⟩, fun other hother => clockLine_inj hother hts⟩
  rw [String.ofList_toList, clockLine]

/-- Seven nanoseconds are filled up to nine digits, and seventy have another line. -/
theorem clockLine_reading_padded :
    (texts [{}, {}, { written := [5, 0, 0, 0, 0, 0, 0, 0, 7] }])[2]? = some "monotonic_raw  5.000000007\n" ∧
      (∃ text : List Char, "monotonic_raw  5.000000007\n" = label "monotonic_raw" ++ String.ofList text ++ "\n" ∧
        readTime? text = some (5, 7) ∧ ∃ q, Decimal.rational? text = some q ∧ q * 1000000000 = 5000000007) ∧
      clockLine "monotonic_raw" ⟨5, 70⟩ ≠ "monotonic_raw  5.000000007\n" := by
  have hline : clockLine "monotonic_raw" ⟨5, 7⟩ = "monotonic_raw  5.000000007\n" := by decide +kernel
  obtain ⟨hreport, ⟨text, htext, -, hread, q, hq, htotal, -⟩, hother⟩ :=
    clockLine_reading "monotonic_raw" .monotonicRaw (by decide) ⟨5, 7⟩ (by decide)
  rw [← hline]
  refine ⟨hreport 2 _ rfl rfl, ⟨text, htext, hread, q, hq, htotal (by decide)⟩, ?_⟩
  rw [Ne, hother ⟨5, 70⟩ (by decide)]
  decide

end Report

end KernelControl
