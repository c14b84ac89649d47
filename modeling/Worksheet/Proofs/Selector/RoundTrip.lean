import Worksheet.Content.Selector
import Worksheet.Proofs.Chars.Words

namespace Worksheet

/-- A character that words do not show. -/
def Selector.isBracket (c : Char) : Bool :=
  c == '[' || c == ']'

/-- The words are numbered from zero, and the text is what they come to with single spaces. -/
structure SelectorSentence.Normal (s : SelectorSentence) : Prop where
  index : s.words.map (·.index) = List.range s.words.length
  isWord : ∀ w ∈ s.words, Chars.IsWord w.text.toList
  not_bracket : ∀ w ∈ s.words, ∀ c ∈ w.text.toList, Selector.isBracket c = false
  text : s.text = Text.join " " (s.words.map (·.text))

namespace Selector

section Reading

/-- Only brackets are left out of a word. -/
theorem readWord_fst (inBrackets target : Bool) (cs : List Char) :
    (readWord inBrackets target cs).1 = cs.filter (!isBracket ·) := by
  induction cs generalizing inBrackets target with
  | nil => rfl
  | cons c cs ih =>
    rw [readWord]
    by_cases hopen : c = '['
    · simp [hopen, isBracket, ih]
    · by_cases hclose : c = ']'
      · simp [hclose, isBracket, ih]
      · simp [hopen, hclose, isBracket, ih]

theorem readWords_cons_of_empty {index : Nat} {inBrackets : Bool} {token : List Char}
    (h : token.filter (!isBracket ·) = []) (rest : List (List Char)) :
    readWords index inBrackets (token :: rest) =
      readWords index (readWord inBrackets inBrackets token).2.2 rest := by
  have hword := (readWord_fst inBrackets inBrackets token).trans h
  simp [readWords, hword]

theorem readWords_cons_of_ne {index : Nat} {inBrackets : Bool} {token : List Char}
    (h : token.filter (!isBracket ·) ≠ []) (rest : List (List Char)) :
    readWords index inBrackets (token :: rest) =
      ⟨index, String.ofList (token.filter (!isBracket ·)),
          (readWord inBrackets inBrackets token).2.1⟩ ::
        readWords (index + 1) (readWord inBrackets inBrackets token).2.2 rest := by
  have hword := readWord_fst inBrackets inBrackets token
  have hempty : (readWord inBrackets inBrackets token).1.isEmpty = false := by
    rw [hword]
    simpa using h
  rw [← hword]
  simp [readWords, hempty]

theorem index_readWords (index : Nat) (inBrackets : Bool) (tokens : List (List Char)) :
    (readWords index inBrackets tokens).map (·.index) =
      List.range' index (readWords index inBrackets tokens).length := by
  induction tokens generalizing index inBrackets with
  | nil => rfl
  | cons token rest ih =>
    by_cases h : token.filter (!isBracket ·) = []
    · rw [readWords_cons_of_empty h, ih]
    · rw [readWords_cons_of_ne h, List.map_cons, ih, List.length_cons, List.range'_succ]

theorem of_mem_readWords {index : Nat} {inBrackets : Bool} {tokens : List (List Char)}
    {w : SelectorWord} (h : w ∈ readWords index inBrackets tokens) :
    ∃ token ∈ tokens, w.text.toList = token.filter (!isBracket ·) ∧ w.text.toList ≠ [] := by
  induction tokens generalizing index inBrackets with
  | nil => cases h
  | cons token rest ih =>
    by_cases hempty : token.filter (!isBracket ·) = []
    · rw [readWords_cons_of_empty hempty] at h
      obtain ⟨other, hother, hword⟩ := ih h
      exact ⟨other, List.mem_cons_of_mem _ hother, hword⟩
    · rw [readWords_cons_of_ne hempty] at h
      rcases List.mem_cons.1 h with rfl | h
      · exact ⟨token, List.mem_cons_self, String.toList_ofList, by simpa using hempty⟩
      · obtain ⟨other, hother, hword⟩ := ih h
        exact ⟨other, List.mem_cons_of_mem _ hother, hword⟩

/-- The words together hold all characters but brackets. -/
theorem flatMap_readWords (index : Nat) (inBrackets : Bool) (tokens : List (List Char)) :
    (readWords index inBrackets tokens).flatMap (·.text.toList) =
      tokens.flatten.filter (!isBracket ·) := by
  induction tokens generalizing index inBrackets with
  | nil => rfl
  | cons token rest ih =>
    rw [List.flatten_cons, List.filter_append]
    by_cases h : token.filter (!isBracket ·) = []
    · rw [readWords_cons_of_empty h, ih, h, List.nil_append]
    · rw [readWords_cons_of_ne h, List.flatMap_cons, ih, String.toList_ofList]

theorem normal_parseSentence (line : String) : (parseSentence line).Normal := by
  have hword : ∀ w ∈ (parseSentence line).words, ∃ token ∈ Chars.words line.toList,
      w.text.toList = token.filter (!isBracket ·) ∧ w.text.toList ≠ [] :=
    fun _ hw => of_mem_readWords hw
  constructor
  · rw [List.range_eq_range']
    exact index_readWords 0 false _
  · intro w hw
    obtain ⟨token, htoken, htext, hne⟩ := hword w hw
    refine ⟨hne, ?_⟩
    intro c hc
    rw [htext] at hc
    exact (Chars.isWord_of_mem_words htoken).not_blank c (List.mem_filter.1 hc).1
  · intro w hw c hc
    obtain ⟨token, -, htext, -⟩ := hword w hw
    rw [htext] at hc
    simpa using (List.mem_filter.1 hc).2
  · rfl

end Reading

section Writing

/-- A word as it is written, in brackets of its own if it is a target. -/
def written (w : SelectorWord) : String :=
  if w.isTarget then "[" ++ w.text ++ "]" else w.text

/-- Characters that are no brackets are read as they are. -/
theorem readWord_append {cs : List Char} (h : ∀ c ∈ cs, isBracket c = false)
    (inBrackets target : Bool) (rest : List Char) :
    readWord inBrackets target (cs ++ rest) =
      (cs ++ (readWord inBrackets target rest).1, (readWord inBrackets target rest).2) := by
  induction cs with
  | nil => rfl
  | cons c cs ih =>
    have hc : (c == '[') = false ∧ (c == ']') = false := by
      simpa [isBracket] using h c (by simp)
    have hrest := ih fun d hd => h d (by simp [hd])
    rw [List.cons_append, readWord, hc.1, hc.2, hrest]
    rfl

/-- A written word is read as it was, and leaves no bracket open. -/
theorem readWord_written {w : SelectorWord} (h : ∀ c ∈ w.text.toList, isBracket c = false) :
    readWord false false (written w).toList = (w.text.toList, w.isTarget, false) := by
  rw [written]
  cases w.isTarget with
  | false =>
    have hplain := readWord_append h false false []
    simpa [readWord] using hplain
  | true =>
    have hinner := readWord_append h true true [']']
    simpa [readWord] using hinner

theorem isWord_written {w : SelectorWord} (h : Chars.IsWord w.text.toList) :
    Chars.IsWord (written w).toList := by
  have hopen : Chars.isBlank '[' = false := by decide
  have hclose : Chars.isBlank ']' = false := by decide
  rw [written]
  cases w.isTarget with
  | false => exact h
  | true =>
    refine ⟨by simp, ?_⟩
    intro c hc
    have hcases : c = '[' ∨ c ∈ w.text.toList ∨ c = ']' := by simpa using hc
    rcases hcases with rfl | hc | rfl
    · exact hopen
    · exact h.not_blank c hc
    · exact hclose

theorem readWords_written {words : List SelectorWord} {index : Nat}
    (hindex : words.map (·.index) = List.range' index words.length)
    (hword : ∀ w ∈ words, Chars.IsWord w.text.toList)
    (hplain : ∀ w ∈ words, ∀ c ∈ w.text.toList, isBracket c = false) :
    readWords index false (words.map fun w => (written w).toList) = words := by
  induction words generalizing index with
  | nil => rfl
  | cons w rest ih =>
    rw [List.map_cons, List.length_cons, List.range'_succ] at hindex
    obtain ⟨hfirst, hothers⟩ := List.cons.inj hindex
    have hrest := ih hothers (fun v hv => hword v (List.mem_cons_of_mem _ hv))
      fun v hv => hplain v (List.mem_cons_of_mem _ hv)
    have hread := readWord_written (hplain w List.mem_cons_self)
    have hempty : w.text.toList.isEmpty = false := by
      simpa using (hword w List.mem_cons_self).ne_nil
    subst hfirst
    rw [List.map_cons, readWords, hread]
    simp [hempty, hrest]

/-- A sentence in normal form is read from the line it is written as. -/
theorem render_reads_back {s : SelectorSentence} (h : s.Normal) :
    parseSentence (renderSentence s) = s := by
  have hline : (renderSentence s).toList =
      Chars.join [' '] (s.words.map fun w => (written w).toList) := by
    rw [renderSentence, Text.join, String.toList_ofList, List.map_map]
    rfl
  have hwords : Chars.words (renderSentence s).toList =
      s.words.map fun w => (written w).toList := by
    rw [hline, Chars.words_join]
    intro text htext
    obtain ⟨w, hw, rfl⟩ := List.mem_map.1 htext
    exact isWord_written (h.isWord w hw)
  have hindex : s.words.map (·.index) = List.range' 0 s.words.length := by
    rw [h.index, List.range_eq_range']
  rw [parseSentence, hwords, readWords_written hindex h.isWord h.not_bracket]
  rw [← h.text]

end Writing

/-- The sentence that is read from a line is in normal form, its words are the line without white
space and brackets, and writing it and reading it again restores it with all its targets. Moreover,
all sentences in normal form are restored, whichever of their words are targets. -/
theorem parseSentence_renders_back (line : String) :
    (parseSentence line).Normal ∧
      (parseSentence line).words.flatMap (·.text.toList) =
        line.toList.filter (fun c => !Chars.isBlank c && c != '[' && c != ']') ∧
      parseSentence (renderSentence (parseSentence line)) = parseSentence line ∧
      ∀ s : SelectorSentence, s.Normal → parseSentence (renderSentence s) = s := by
  have hnormal : (parseSentence line).Normal := normal_parseSentence line
  refine ⟨hnormal, ?_, render_reads_back hnormal, fun _ hs => render_reads_back hs⟩
  have hletters : (parseSentence line).words.flatMap (·.text.toList) =
      (line.toList.filter (!Chars.isBlank ·)).filter (!isBracket ·) := by
    rw [← Chars.flatten_words]
    exact flatMap_readWords 0 false _
  rw [hletters, List.filter_filter]
  apply List.filter_congr
  intro c _
  cases Chars.isBlank c <;> simp [isBracket, bne]

end Selector

end Worksheet
