import Worksheet.Proofs.FillBlank.Tokens

namespace Worksheet.FillBlank

/-- Tokens that are read back from the line they stand for. -/
def Stable : List Token → Prop
  | [] => True
  | .plain c :: ts => blank? (c :: source ts) = none ∧ Stable ts
  | .blank inner :: ts => (marksBlank inner = true ∧ '*' ∉ inner) ∧ Stable ts

theorem blank?_source {inner : List Char} (hm : marksBlank inner = true) (hs : '*' ∉ inner)
    (after : List Char) : blank? ('*' :: (inner ++ '*' :: after)) = some (inner, after) := by
  simp [blank?, Chars.splitOnce_append_cons hs, hm]

theorem marksBlank_of_blank? {cs inner after : List Char} (h : blank? cs = some (inner, after)) :
    marksBlank inner = true ∧ '*' ∉ inner := by
  rw [blank?.eq_def] at h
  split at h
  · split at h
    · rename_i hs
      split at h
      · rename_i hm
        obtain ⟨rfl, rfl⟩ := Prod.mk.inj (Option.some.inj h)
        exact ⟨hm, Chars.not_mem_of_splitOnce hs⟩
      · simp at h
    · simp at h
  · simp at h

theorem tokens_source {ts : List Token} (h : Stable ts) : tokens (source ts) = ts := by
  induction ts with
  | nil => exact tokens_nil
  | cons t ts ih =>
    cases t with
    | plain c =>
      show tokens (c :: source ts) = _
      rw [tokens_of_plain h.1, ih h.2]
    | blank inner =>
      have hb := blank?_source h.1.1 h.1.2 (source ts)
      have hs : source (.blank inner :: ts) = '*' :: (inner ++ '*' :: source ts) := by
        simp [Token.source]
      rw [hs, tokens_of_blank hb, ih h.2]

theorem stable_tokens (cs : List Char) : Stable (tokens cs) := by
  fun_induction tokens cs with
  | case1 => trivial
  | case2 c rest h ih => exact ⟨by rwa [source_tokens], ih⟩
  | case3 c rest inner after h this ih => exact ⟨marksBlank_of_blank? h, ih⟩

/-- Whether a blank begins is settled by the text up to the next asterisk. -/
theorem blank?_eq_none_of_splitOnce {c : Char} {xs ys : List Char}
    (h : (Chars.splitOnce '*' xs).map Prod.fst = (Chars.splitOnce '*' ys).map Prod.fst)
    (hx : blank? (c :: xs) = none) : blank? (c :: ys) = none := by
  by_cases hc : c = '*'
  · subst hc
    cases hy : Chars.splitOnce '*' ys with
    | none => simp [blank?, hy]
    | some q =>
      rw [hy, Option.map_some] at h
      obtain ⟨⟨inner, after⟩, hp, hq⟩ := Option.map_eq_some_iff.1 h
      have hm : marksBlank inner = false := by simpa [blank?, hp] using hx
      have hi : inner = q.1 := hq
      simp [blank?, hy, ← hi, hm]
  · rw [blank?]
    rintro rest hrest
    exact hc (List.cons.inj hrest).1

/-- Tidy answers leave the text up to the next asterisk as it is. -/
theorem splitOnce_source_tidy (ts : List Token) :
    (Chars.splitOnce '*' (source (ts.map Token.tidy))).map Prod.fst =
      (Chars.splitOnce '*' (source ts)).map Prod.fst := by
  induction ts with
  | nil => rfl
  | cons t ts ih =>
    cases t with
    | plain c =>
      by_cases hc : c = '*'
      · simp [Token.tidy, Token.source, Chars.splitOnce, hc]
      · simp only [List.map_cons, source_cons, Token.tidy, Token.source, List.singleton_append,
          Chars.splitOnce, beq_eq_false_iff_ne.2 hc, Bool.false_eq_true, if_false, Option.map_map]
        have := congrArg (Option.map (c :: ·)) ih
        simpa [Option.map_map, Function.comp_def] using this
    | blank inner => simp [Token.tidy, Token.source, Chars.splitOnce]

theorem toList_answers (inner : List Char) :
    (answers inner).map String.toList = (Chars.splitOn '|' inner).map Chars.trim := by
  simp [answers, Function.comp_def]

/-- Bars without white space between trimmed texts leave no white space at the ends. -/
theorem tight_join_trim (pieces : List (List Char)) :
    Chars.Tight (Chars.join ['|'] (pieces.map Chars.trim)) := by
  have hbar : Chars.isBlank '|' = false := by decide
  induction pieces with
  | nil => exact Chars.tight_nil
  | cons piece rest ih =>
    cases rest with
    | nil => exact Chars.tight_trim piece
    | cons next rest =>
      rw [List.map_cons, List.map_cons, Chars.join_cons_cons, ← List.map_cons]
      constructor
      · cases hp : Chars.trim piece with
        | nil => simp [hbar]
        | cons c cs =>
          have := Chars.head?_trim piece
          rw [hp] at this
          simpa using this
      · cases hj : Chars.join ['|'] ((next :: rest).map Chars.trim) with
        | nil => simp [hbar]
        | cons c cs =>
          have hl := ih.last
          rw [hj] at hl
          rwa [List.getLast?_append, List.getLast?_cons, Option.some_or, ← List.getLast?_cons]

theorem answers_join_trim (inner : List Char) :
    answers (Chars.join ['|'] ((Chars.splitOn '|' inner).map Chars.trim)) = answers inner := by
  have hne : (Chars.splitOn '|' inner).map Chars.trim ≠ [] := by
    simpa [Chars.splitOn] using Chars.splitWhere_ne_nil _ inner
  have hbar : ∀ piece ∈ (Chars.splitOn '|' inner).map Chars.trim, '|' ∉ piece := by
    intro piece hp
    obtain ⟨raw, hraw, rfl⟩ := List.mem_map.1 hp
    exact fun h => Chars.not_mem_of_mem_splitOn hraw (Chars.mem_of_mem_trim h)
  rw [answers, Chars.splitOn_join hne hbar, answers]
  simp [Function.comp_def]

/-- Trimming the answers of a blank leaves it a blank. -/
theorem marksBlank_join_trim {inner : List Char} (h : marksBlank inner = true) :
    marksBlank (Chars.join ['|'] ((Chars.splitOn '|' inner).map Chars.trim)) = true := by
  have ht := tight_join_trim (Chars.splitOn '|' inner)
  simp only [marksBlank, Bool.and_eq_true, Bool.not_eq_true'] at h ⊢
  refine ⟨⟨?_, ht.head⟩, ht.last⟩
  cases hs : Chars.splitOn '|' inner with
  | nil => exact absurd hs (Chars.splitWhere_ne_nil _ inner)
  | cons piece rest =>
    cases rest with
    | nil =>
      have hj := Chars.join_splitOn '|' inner
      rw [hs] at hj
      have hi : piece = inner := hj
      have htrim : Chars.trim inner = inner := Chars.Tight.trim_eq ⟨h.1.2, h.2⟩
      simpa [Chars.join, hi, htrim] using h.1.1
    | cons next rest =>
      rw [List.map_cons, List.map_cons, Chars.join_cons_cons]
      simp

theorem not_mem_join_trim {inner : List Char} (h : '*' ∉ inner) :
    '*' ∉ Chars.join ['|'] ((Chars.splitOn '|' inner).map Chars.trim) := by
  intro hmem
  rcases Chars.mem_join hmem with hbar | ⟨piece, hp, hc⟩
  · simp at hbar
  · obtain ⟨raw, hraw, rfl⟩ := List.mem_map.1 hp
    exact h (Chars.mem_of_mem_splitOn hraw (Chars.mem_of_mem_trim hc))

/-- Tidy answers neither make nor unmake a blank. -/
theorem Stable.tidy {ts : List Token} (h : Stable ts) : Stable (ts.map Token.tidy) := by
  induction ts with
  | nil => trivial
  | cons t ts ih =>
    cases t with
    | plain c =>
      exact ⟨blank?_eq_none_of_splitOnce (splitOnce_source_tidy ts).symm h.1, ih h.2⟩
    | blank inner =>
      refine ⟨?_, ih h.2⟩
      rw [toList_answers]
      exact ⟨marksBlank_join_trim h.1.1, not_mem_join_trim h.1.2⟩

theorem shown_tidy (ts : List Token) : shown (ts.map Token.tidy) = shown ts := by
  induction ts with
  | nil => rfl
  | cons t ts ih => cases t <;> simp [Token.tidy, Token.shown, ih]

theorem blanks_tidy (start : Nat) (ts : List Token) :
    Token.blanks start (ts.map Token.tidy) = Token.blanks start ts := by
  induction ts generalizing start with
  | nil => rfl
  | cons t ts ih =>
    cases t with
    | plain c => exact ih _
    | blank inner =>
      simp [Token.tidy, Token.blanks, ih, toList_answers, answers_join_trim]

/-- A sentence read from a line holds the displayed text and the blanks of the line's tokens. -/
theorem tokens_of_parseSentence {line : String} {s : FillSentence}
    (h : parseSentence line = some s) :
    s = ⟨String.ofList (shown (tokens line.toList)), Token.blanks 0 (tokens line.toList)⟩ ∧
      (Token.blanks 0 (tokens line.toList)).isEmpty = false := by
  simp only [parseSentence, display_eq] at h
  split at h
  · simp at h
  · rename_i hb
    exact ⟨(Option.some.inj h).symm, by simpa using hb⟩

/-- The blanks of a sentence that is read from a line are those of the line, in order, at distinct
placeholders of the displayed text, and the sentence is written as a line that reads as itself. -/
theorem parseSentence_renderSentence (line : String) (s : FillSentence)
    (h : parseSentence line = some s) :
    (∃ ts, Stable ts ∧ source ts = line.toList ∧ shown ts = s.text.toList ∧
      Token.blanks 0 ts = s.blanks) ∧
    (∀ b ∈ s.blanks, (s.text.toList.drop b.position).take 3 = ['_', '_', '_']) ∧
    s.blanks.Pairwise (fun b d => b.position + 3 ≤ d.position) ∧
    ∃ r, renderSentence s = .ok r ∧ parseSentence r = some s := by
  obtain ⟨rfl, hne⟩ := tokens_of_parseSentence h
  have hst := stable_tokens line.toList
  refine ⟨⟨_, hst, source_tokens _, by simp, rfl⟩, ?_, pairwise_blanks 0 _, ?_⟩
  · intro b hb
    simpa [placeholder] using placeholder_at hb
  · refine ⟨String.ofList (source ((tokens line.toList).map Token.tidy)), ?_, ?_⟩
    · simp [renderSentence, fill_shown]
    · simp [parseSentence, display_eq, tokens_source hst.tidy, shown_tidy, blanks_tidy, hne]

/-- Two literal asterisks, trimmed answers, and a placeholder in the text itself. -/
theorem parseSentence_renderSentence_spaced :
    parseSentence "2 * 3 ___ *a | b* *" = some ⟨"2 * 3 ___ ___ *", [⟨10, ["a", "b"]⟩]⟩ ∧
    ∃ r, renderSentence ⟨"2 * 3 ___ ___ *", [⟨10, ["a", "b"]⟩]⟩ = .ok r ∧
      parseSentence r = some ⟨"2 * 3 ___ ___ *", [⟨10, ["a", "b"]⟩]⟩ := by
  have h : parseSentence "2 * 3 ___ *a | b* *" =
      some ⟨"2 * 3 ___ ___ *", [⟨10, ["a", "b"]⟩]⟩ := by cbv
  exact ⟨h, (parseSentence_renderSentence _ _ h).2.2.2⟩

end Worksheet.FillBlank
