import Mathlib.Data.List.SplitBy
import KernelControl.Main

/-!
# Scripts read back

A script says everything about the replies that were written on its lines: each is read back from its line, whatever blanks follow on
it (`Reply.ofLine?_line`). So any replies can be put to the program as a script, and the report that it prints is the one that these
replies give (`reportOfScript?_lines`). Reading a line begins with its words, which are told from each other by the blanks between
them (`Reply.wordsOf_intercalate`).
-/

namespace KernelControl

/-! ## Characters of numbers -/

theorem Decimal.isWhitespace_of_mem_render {n : Int} {c : Char} (h : c ∈ render n) : c.isWhitespace = false := by
  rw [Bool.eq_false_iff]
  intro hblank
  simp only [Char.isWhitespace, Bool.or_eq_true, decide_eq_true_iff] at hblank
  rcases List.mem_append.1 h with hsign | hdigit
  · unfold sign at hsign
    split at hsign
    · rw [List.mem_singleton.1 hsign] at hblank
      exact absurd hblank (by decide)
    · nomatch hsign
  · have hc := isDigit_of_mem_digits hdigit
    rcases hblank with ((rfl | rfl) | rfl) | rfl <;> nomatch hc

theorem Hex.isWhitespace_digit : ∀ n : Fin 16, (digit n.val).isWhitespace = false := by
  decide

theorem Hex.isWhitespace_of_mem_encodeChars (bytes : List UInt8) : ∀ c ∈ encodeChars bytes, c.isWhitespace = false := by
  induction bytes with
  | nil => exact fun c hc => nomatch hc
  | cons b bytes ih =>
    have hb : b.toNat < 256 := b.toNat_lt
    rw [encodeChars, List.forall_mem_cons, List.forall_mem_cons]
    exact ⟨isWhitespace_digit ⟨b.toNat / 16, by omega⟩, isWhitespace_digit ⟨b.toNat % 16, by omega⟩, ih⟩

namespace Reply

/-- The text is a word: it has characters, and none of them is blank. -/
structure IsWord (text : List Char) : Prop where
  ne_nil : text ≠ []
  not_blank : ∀ c ∈ text, c.isWhitespace = false

/-- The decimal text of an integer is a word. -/
theorem isWord_render (n : Int) : IsWord (Decimal.render n) where
  ne_nil := by simp [Decimal.render, Decimal.digits, Nat.toDigits_ne_nil]
  not_blank _ := Decimal.isWhitespace_of_mem_render

/-- The hexadecimal text of some bytes is a word. -/
theorem isWord_encodeChars {bytes : List UInt8} (h : bytes ≠ []) : IsWord (Hex.encodeChars bytes) where
  ne_nil := by
    cases bytes with
    | nil => exact absurd rfl h
    | cons b bytes => exact List.cons_ne_nil _ _
  not_blank := Hex.isWhitespace_of_mem_encodeChars bytes

/-! ## Words of a text -/

/-- Characters that are all blank, or none of them, are one run. -/
theorem wordsOf_of_alike {text : List Char} {blank : Bool} (hne : text ≠ []) (h : ∀ c ∈ text, c.isWhitespace = blank) :
    wordsOf text = if blank then [] else [String.ofList text] := by
  have hchain : text.IsChain fun a b => (a.isWhitespace == b.isWhitespace) = true := by
    refine (List.pairwise_of_forall_mem_list ?_).isChain
    intro a ha b hb
    rw [h a ha, h b hb, beq_self_eq_true]
  have hany : text.any Char.isWhitespace = blank := by
    cases blank with
    | false => exact List.any_eq_false.2 fun c hc => by simp [h c hc]
    | true =>
      obtain ⟨c, hc⟩ := List.exists_mem_of_ne_nil text hne
      exact List.any_eq_true.2 ⟨c, hc, h c hc⟩
  rw [wordsOf, List.splitBy_of_isChain hne hchain, List.filterMap_cons, hany, List.filterMap_nil]
  cases blank <;> rfl

/-- Blanks have no word. -/
theorem wordsOf_of_blank {blanks : List Char} (h : ∀ c ∈ blanks, c.isWhitespace = true) : wordsOf blanks = [] := by
  by_cases hne : blanks = []
  · rw [hne]
    rfl
  · exact wordsOf_of_alike hne h

/-- Where a blank meets a character that is none, the words before it and after it are those of the text. -/
theorem wordsOf_append {first second : List Char}
    (h : ∀ a ∈ first.getLast?, ∀ b ∈ second.head?, a.isWhitespace ≠ b.isWhitespace) :
    wordsOf (first ++ second) = wordsOf first ++ wordsOf second := by
  rw [wordsOf, List.splitBy_append fun a ha b hb => beq_eq_false_iff_ne.2 (h a ha b hb), List.filterMap_append, wordsOf, wordsOf]

/-- A word that ends with the text or at a blank is the first of its words. -/
theorem wordsOf_isWord_append {word rest : List Char} (hword : IsWord word) (hrest : ∀ c ∈ rest.head?, c.isWhitespace = true) :
    wordsOf (word ++ rest) = String.ofList word :: wordsOf rest := by
  rw [wordsOf_append, wordsOf_of_alike hword.ne_nil hword.not_blank]
  · rfl
  · intro a ha b hb
    rw [hword.not_blank a (List.mem_of_mem_getLast? ha), hrest b hb]
    exact Bool.false_ne_true

/-- Blanks before a word are no part of it. -/
theorem wordsOf_blank_append {blanks rest : List Char} (hblank : ∀ c ∈ blanks, c.isWhitespace = true)
    (hrest : ∀ c ∈ rest.head?, c.isWhitespace = false) : wordsOf (blanks ++ rest) = wordsOf rest := by
  rw [wordsOf_append, wordsOf_of_blank hblank, List.nil_append]
  intro a ha b hb
  rw [hblank a (List.mem_of_mem_getLast? ha), hrest b hb]
  exact Bool.false_ne_true.symm

/-- Words with blanks between them begin with the first word. -/
theorem head?_intercalate_append {word : List Char} (hword : word ≠ []) (others : List (List Char)) (rest : List Char) :
    ([' '].intercalate (word :: others) ++ rest).head? = word.head? := by
  cases others with
  | nil => rw [List.intercalate_singleton, List.head?_append_of_ne_nil _ hword]
  | cons other others =>
    rw [List.intercalate_cons_cons, List.append_assoc, List.append_assoc, List.head?_append_of_ne_nil _ hword]

/-- The words of a text in which words stand with blanks between them, and more blanks after the last one. -/
theorem wordsOf_intercalate {texts : List (List Char)} (hwords : ∀ text ∈ texts, IsWord text) {blanks : List Char}
    (hblank : ∀ c ∈ blanks, c.isWhitespace = true) :
    wordsOf ([' '].intercalate texts ++ blanks) = texts.map String.ofList := by
  have hspace : ∀ c ∈ [' '], c.isWhitespace = true := List.forall_mem_singleton.2 rfl
  induction texts with
  | nil => exact wordsOf_of_blank hblank
  | cons word others ih =>
    obtain ⟨hword, hothers⟩ := List.forall_mem_cons.1 hwords
    cases others with
    | nil =>
      rw [List.intercalate_singleton, wordsOf_isWord_append hword fun c hc => hblank c (List.mem_of_mem_head? hc),
        wordsOf_of_blank hblank]
      rfl
    | cons next others =>
      -- the blank between the first two words is a run of its own: a word ends before it, and one begins after it
      have hnext : IsWord next := hothers next List.mem_cons_self
      have hhead : ∀ c ∈ ([' '].intercalate (next :: others) ++ blanks).head?, c.isWhitespace = false := by
        rw [head?_intercalate_append hnext.ne_nil]
        exact fun c hc => hnext.not_blank c (List.mem_of_mem_head? hc)
      have hgap : ∀ c ∈ ([' '] ++ ([' '].intercalate (next :: others) ++ blanks)).head?, c.isWhitespace = true :=
        fun c hc => hspace c (List.mem_of_mem_head? hc)
      rw [List.intercalate_cons_cons, List.append_assoc, List.append_assoc, wordsOf_isWord_append hword hgap,
        wordsOf_blank_append hspace hhead, ih hothers]
      rfl

/-! ## Replies -/

/-- The words of a reply are words. -/
theorem isWord_of_mem_words {reply : Reply} : ∀ text ∈ reply.words.map String.toList, IsWord text := by
  rw [List.forall_mem_map, words, List.forall_mem_append, List.forall_mem_cons, List.forall_mem_singleton]
  refine ⟨⟨?_, ?_⟩, ?_⟩
  · rw [String.toList_ofList]
    exact isWord_render _
  · rw [String.toList_ofList]
    exact isWord_render _
  · intro word hword
    split at hword
    · nomatch hword
    · rename_i hbytes
      rw [List.mem_singleton.1 hword, Hex.encode, String.toList_ofList]
      exact isWord_encodeChars hbytes

/-- The words of the line of a reply are those of the reply. -/
theorem wordsOf_line (reply : Reply) {ending : String} (h : ∀ c ∈ ending.toList, c.isWhitespace = true) :
    wordsOf (reply.line ++ ending).toList = reply.words := by
  rw [String.toList_append, line, String.toList_intercalate]
  refine (wordsOf_intercalate isWord_of_mem_words h).trans ?_
  simp [List.map_map]

/-- A number between the bounds is read from its text. -/
theorem integer?_render {least bound n : Int} (h : least ≤ n ∧ n < bound) :
    integer? least bound (String.ofList (Decimal.render n)) = some n := by
  rw [integer?, String.toList_ofList, Decimal.parse?_render, Option.filter_some, if_pos (decide_eq_true h)]

/-- A reply is read back from its line, whatever blanks follow. -/
theorem ofLine?_line (reply : Reply) {ending : String} (h : ∀ c ∈ ending.toList, c.isWhitespace = true) :
    ofLine? (reply.line ++ ending) = some reply := by
  obtain ⟨result, errno, written⟩ := reply
  have hresult := integer?_render (Scalar.holds_i64_iff.1 (Scalar.holds_int64 result))
  have herrno := integer?_render (Scalar.holds_i32_iff.1 (Scalar.holds_int32 errno))
  rw [ofLine?, wordsOf_line _ h, words]
  by_cases hw : written = []
  · rw [if_pos hw]
    simp only [List.append_nil, hresult, herrno, Option.bind_eq_bind, Option.bind_some, Int64.ofInt_toInt, Int32.ofInt_toInt, hw]
    rfl
  · rw [if_neg hw]
    simp only [List.cons_append, List.nil_append, hresult, herrno, Hex.decode_encode, Option.bind_eq_bind, Option.bind_some,
      Int64.ofInt_toInt, Int32.ofInt_toInt]
    rfl

end Reply

/-- The report of a script on whose lines replies are written is the report that these replies give. -/
theorem reportOfScript?_lines (replies : List Reply) {ending : String} (h : ∀ c ∈ ending.toList, c.isWhitespace = true) :
    reportOfScript? (replies.map fun reply => reply.line ++ ending) = some (report.run replies).1 := by
  have hread : (replies.map fun reply => reply.line ++ ending).mapM Reply.ofLine? = some replies := by
    have hline : (Reply.ofLine? ∘ fun reply => reply.line ++ ending) = fun reply => pure (id reply) :=
      funext fun reply => reply.ofLine?_line h
    rw [List.mapM_map, hline, List.mapM_pure, List.map_id]
    rfl
  rw [reportOfScript?, hread]
  rfl

end KernelControl
