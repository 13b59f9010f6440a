import KernelControl.Proofs.CpuSetCount
import KernelControl.Proofs.CpuSetImage
import KernelControl.Proofs.Reply
import KernelControl.Thread

/-!
# Affinities read and set

An affinity is read over a mask of the caller's. The kernel writes bytes over its start and says how many of its bytes count;
when the call succeeds, the processors beyond those are removed (`contains_maskAfter_of_not_neg`), and when it fails, they stay
(`contains_maskAfter_of_neg`). So a success says which processors are set, and it says nothing about the mask that was read
over if the kernel wrote all the bytes that count (`isSet_getAffinity`). A mask that was handed to the kernel is read back from
the bytes that the kernel was handed, as far as they are given back (`getAffinity_setAffinity`).
-/

namespace KernelControl

namespace ThreadId

open CpuSet

/-! ## The mask after a read -/

section Mask

variable {mask : CpuSet} {reply : Reply}

/-- A failure leaves what the kernel wrote over the mask. -/
theorem maskAfter_of_neg (h : reply.result < 0) :
    maskAfter mask reply = Image.read CpuSet ((Image.of mask).fill reply.written) := by
  rw [maskAfter, Reply.outcome_of_neg h]

/-- A success leaves what the kernel wrote over the mask, and of that the bytes that it reports. -/
theorem maskAfter_of_not_neg (h : ¬reply.result < 0) :
    maskAfter mask reply =
      Image.read CpuSet (((Image.of mask).fill reply.written).keepFirst reply.result.toUInt64.toNat) := by
  rw [maskAfter, Reply.outcome_of_not_neg h]

/-- After a failure the processors are those of the mask with the bytes over its start. -/
theorem contains_maskAfter_of_neg (h : reply.result < 0) (c : Cpu) :
    (maskAfter mask reply).contains c = true ↔ Overwritten mask reply.written c := by
  rw [maskAfter_of_neg h, contains_read_fill]

/-- After a success they are those of them that lie in the bytes that the kernel reports. -/
theorem contains_maskAfter_of_not_neg (h : ¬reply.result < 0) (c : Cpu) :
    (maskAfter mask reply).contains c = true ↔
      (c.val : Int) < 8 * reply.result.toInt ∧ Overwritten mask reply.written c := by
  have hn := Reply.toNat_toUInt64_result h
  rw [maskAfter_of_not_neg h, contains_read_keepFirst, Bool.and_eq_true, decide_eq_true_iff, contains_read_fill]
  have hc : c.val < 8 * reply.result.toUInt64.toNat ↔ (c.val : Int) < 8 * reply.result.toInt := by omega
  rw [hc]

/-- When the kernel wrote all the bytes that it reports, a success does not depend on the mask that was read over. -/
theorem maskAfter_congr (h : ¬reply.result < 0) (hw : min reply.result.toInt 128 ≤ reply.written.length) (other : CpuSet) :
    maskAfter other reply = maskAfter mask reply := by
  apply ext_contains
  intro c
  rw [Bool.eq_iff_iff, contains_maskAfter_of_not_neg h, contains_maskAfter_of_not_neg h]
  apply and_congr_right
  intro hc
  exact overwritten_congr (by omega)

end Mask

/-! ## Reading -/

/-- The call that reads an affinity: the thread, the size of a mask and the bytes of the one that is read over. -/
def getAffinityCall (thread : ThreadId) (bytes : List UInt8) : Call := ⟨204, [thread.operand, .size 128, .memory bytes]⟩

/-- Reading an affinity over a mask makes one call, with the bytes of the mask. When the result is not negative, it is the count
that is given, and a processor is set exactly when it lies below eight times the count and either its bit is one in the byte that
the kernel wrote, or the kernel did not write its byte and the mask had it; if the kernel wrote all the bytes that it reports, any
other mask would have become the same. When the result is negative, the failure is the number reported, and no processor is removed
for lying too high. -/
theorem isSet_getAffinity (thread : ThreadId) (mask : CpuSet) (reply : Reply) (rest : List Reply) :
    ∃ outcome after, (thread.getAffinity mask).run (reply :: rest) =
        ((outcome, after), [thread.getAffinityCall (Image.of mask : Image 128).toList]) ∧
      (0 ≤ reply.result →
        (∃ count, outcome = .ok count ∧ (count.toNat : Int) = reply.result.toInt) ∧
        (∀ c < 1024, ∃ b, after.isSet c = .ok b ∧
          (b = true ↔ (c : Int) < 8 * reply.result.toInt ∧ Overwritten mask (reply.written.take 128) c)) ∧
        (min reply.result.toInt 128 ≤ (reply.written.take 128).length →
          ∀ other, ((thread.getAffinity other).run (reply :: rest)).1 = (outcome, after))) ∧
      (reply.result < 0 →
        outcome = .error (.system reply.errno) ∧
        ∀ c < 1024, ∃ b, after.isSet c = .ok b ∧ (b = true ↔ Overwritten mask (reply.written.take 128) c)) := by
  refine ⟨reply.outcome, maskAfter mask reply, ?_, ?_, ?_⟩
  · exact run_getAffinity thread mask (reply :: rest)
  · intro hr
    have hn : ¬reply.result < 0 := Int64.not_lt.2 hr
    refine ⟨⟨_, Reply.outcome_of_not_neg hn, Reply.toNat_toUInt64_result hn⟩, ?_, ?_⟩
    · intro c hc
      refine ⟨_, isSet_of_lt _ hc, ?_⟩
      rw [contains_maskAfter_of_not_neg hn, overwritten_take mask reply.written hc]
    · intro hw other
      rw [List.length_take] at hw
      rw [run_getAffinity, List.headD_cons, maskAfter_congr hn (by omega)]
  · intro hr
    refine ⟨Reply.outcome_of_neg hr, ?_⟩
    intro c hc
    refine ⟨_, isSet_of_lt _ hc, ?_⟩
    rw [contains_maskAfter_of_neg hr, overwritten_take mask reply.written hc]

/-- Nine bytes are reported and one is written, over a full mask, which the kernel is handed as 128 full bytes: of the first eight
processors those of the byte written are set, the next sixty-four are set because they were, and the rest are removed, though they
lie in the word that the ninth byte begins. -/
theorem isSet_getAffinity_nine_bytes :
    ∃ after, (self.getAffinity full).run [{ result := 9, errno := 4, written := [0x05] }] =
        ((.ok 9, after), [self.getAffinityCall (List.replicate 128 0xFF)]) ∧
      after.isSet 2 = .ok true ∧ after.isSet 1 = .ok false ∧ after.isSet 71 = .ok true ∧ after.isSet 72 = .ok false := by
  obtain ⟨outcome, after, hrun, hok, -⟩ :=
    isSet_getAffinity self full { result := 9, errno := 4, written := [0x05] } []
  obtain ⟨⟨count, rfl, hcount⟩, hset, -⟩ := hok (by decide)
  have hnine : count = 9 := by
    apply UInt64.toNat_inj.1
    exact Int.natCast_inj.1 (hcount.trans (by decide))
  subst hnine
  have hfull : (Image.of full : Image 128).toList = List.replicate 128 0xFF := by decide +kernel
  rw [hfull] at hrun
  have hin : ∀ c : Nat, c < 1024 → (c : Int) < 72 ∧ Overwritten full [0x05] c → after.isSet c = .ok true := by
    intro c hc h
    obtain ⟨b, hb, hiff⟩ := hset c hc
    rw [hb, hiff.2 h]
  have hout : ∀ c : Nat, c < 1024 → ¬((c : Int) < 72 ∧ Overwritten full [0x05] c) → after.isSet c = .ok false := by
    intro c hc h
    obtain ⟨b, hb, hiff⟩ := hset c hc
    rw [hb, Bool.eq_false_iff.2 fun ht => h (hiff.1 ht)]
  refine ⟨after, hrun, hin 2 (by decide) ⟨by decide, ?_⟩, hout 1 (by decide) ?_, hin 71 (by decide) ⟨by decide, ?_⟩,
    hout 72 (by decide) fun h => absurd h.1 (by decide)⟩
  · exact (overwritten_of_getElem? rfl).2 (by decide)
  · rintro ⟨-, h⟩
    exact absurd ((overwritten_of_getElem? rfl).1 h) (by decide)
  · exact (overwritten_of_le (by decide)).2 rfl

/-! ## Setting, and reading back -/

section Readback

variable (m mask : CpuSet) {n : Nat} (errno : Int32)

/-- The answer of a kernel that gives back the first `n` bytes of the mask. -/
def givenBack (n : Nat) (errno : Int32) : Reply := ⟨.ofNat n, errno, (Image.of m : Image 128).toList.take n⟩

/-- A count of at most 128 bytes is not negative, and it is itself in the result. -/
theorem toInt_result_givenBack (h : n ≤ 128) : (givenBack m n errno).result.toInt = n :=
  Int64.toInt_ofNat_of_lt (by omega)

theorem not_neg_givenBack (h : n ≤ 128) : ¬(givenBack m n errno).result < 0 := by
  rw [Int64.lt_iff_toInt_lt, toInt_result_givenBack m errno h]
  exact Int.not_lt.2 (Int.natCast_nonneg n)

/-- The mask that is read has the processors of the mask that was set, as far as the bytes go. -/
theorem contains_maskAfter_givenBack (h : n ≤ 128) (c : Cpu) :
    (maskAfter mask (givenBack m n errno)).contains c = (decide (c.val < 8 * n) && m.contains c) := by
  rw [Bool.eq_iff_iff, contains_maskAfter_of_not_neg (not_neg_givenBack m errno h), toInt_result_givenBack m errno h,
    Bool.and_eq_true, decide_eq_true_iff]
  constructor
  · rintro ⟨hc, ho⟩
    have hlt : c.val < 8 * n := by omega
    exact ⟨hlt, (overwritten_take_of m mask hlt).1 ho⟩
  · rintro ⟨hlt, hm⟩
    exact ⟨by omega, (overwritten_take_of m mask hlt).2 hm⟩

end Readback

/-- The kernel is handed the 128 bytes of the mask. If it keeps them, and answers whoever reads an affinity later, over whatever
mask, with the first `n` of them, then exactly the processors below `8 * n` of the mask that was set are read, they are counted,
and all 128 bytes give the mask back. -/
theorem getAffinity_setAffinity (thread : ThreadId) (m : CpuSet) (replies : List Reply) :
    ∃ bytes : List UInt8, bytes.length = 128 ∧
      ((thread.setAffinity m).run replies).2 =
        [⟨CallNumber.schedSetaffinity, [thread.operand, .size 128, .memory bytes]⟩] ∧
      ∀ (reader : ThreadId) (mask : CpuSet) (n : Nat) (errno : Int32) (rest : List Reply), n ≤ 128 →
        ∃ after, ((reader.getAffinity mask).run (⟨.ofNat n, errno, bytes.take n⟩ :: rest)).1 = (.ok (.ofNat n), after) ∧
          (∀ c < 1024, ∃ b, after.isSet c = .ok b ∧ (b = true ↔ c < 8 * n ∧ m.isSet c = .ok true)) ∧
          after.count = (List.finRange 1024).countP (fun c => c.val < 8 * n && m.contains c) ∧
          (n = 128 → after = m) := by
  refine ⟨(Image.of m : Image 128).toList, Vector.length_toList, rfl, ?_⟩
  intro reader mask n errno rest hn
  have hout : (givenBack m n errno).outcome = .ok (.ofNat n) :=
    Reply.outcome_of_not_neg (not_neg_givenBack m errno hn)
  have hcontains := contains_maskAfter_givenBack m mask errno hn
  refine ⟨maskAfter mask (givenBack m n errno), ?_, ?_, ?_, ?_⟩
  · rw [run_getAffinity, List.headD_cons, ← hout]
    rfl
  · intro c hc
    refine ⟨_, isSet_of_lt _ hc, ?_⟩
    rw [hcontains, Bool.and_eq_true, decide_eq_true_iff, isSet_of_lt m hc, Except.ok.injEq]
  · rw [count_eq_length_toList, toList, List.countP_eq_length_filter]
    exact congrArg List.length (List.filter_congr fun c _ => hcontains c)
  · rintro rfl
    apply ext_contains
    intro c
    rw [hcontains, decide_eq_true (by omega), Bool.true_and]

/-- Nine of the bytes of a mask of two processors are given back to a reader whose mask was full: two processors are left. -/
theorem getAffinity_setAffinity_nine_bytes :
    ∃ bytes after, ((self.setAffinity (ofBitmask 6)).run []).2 =
        [⟨CallNumber.schedSetaffinity, [self.operand, .size 128, .memory bytes]⟩] ∧
      ((self.getAffinity full).run [⟨9, 0, bytes.take 9⟩]).1 = (.ok 9, after) ∧
      after.isSet 2 = .ok true ∧ after.count = 2 := by
  obtain ⟨bytes, -, hcall, hread⟩ := getAffinity_setAffinity self (ofBitmask 6) []
  obtain ⟨after, hrun, hset, hcount, -⟩ := hread self full 9 0 [] (by decide)
  obtain ⟨b, hb, hiff⟩ := hset 2 (by decide)
  refine ⟨bytes, after, hcall, hrun, ?_, hcount.trans (by decide +kernel)⟩
  rw [hb, hiff.2 ⟨by decide, rfl⟩]

end ThreadId

end KernelControl
