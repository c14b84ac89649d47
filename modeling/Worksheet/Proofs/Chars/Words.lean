import Worksheet.Proofs.Chars.Split

namespace Worksheet.Chars

/-- A stretch that can be a word of a text. -/
structure IsWord (cs : List Char) : Prop where
  ne_nil : cs ≠ []
  not_blank : ∀ c ∈ cs, isBlank c = false

theorem isWord_of_mem_words {cs word : List Char} (h : word ∈ words cs) : IsWord word := by
  obtain ⟨hmem, hne⟩ := List.mem_filter.1 h
  refine ⟨by simpa using hne, ?_⟩
  intro c hc
  exact (of_mem_splitWhere hmem c hc).2

/-- No word goes over white space. -/
theorem words_append_cons {c : Char} (xs ys : List Char) (h : isBlank c = true) :
    words (xs ++ c :: ys) = words xs ++ words ys := by
  rw [words, splitWhere_append_cons xs ys h, List.filter_append]
  rfl

theorem flatten_splitWhere (p : Char → Bool) (cs : List Char) :
    (splitWhere p cs).flatten = cs.filter (!p ·) := by
  induction cs with
  | nil => rfl
  | cons c cs ih =>
    by_cases hc : p c = true
    · have hcut : splitWhere p (c :: cs) = [] :: splitWhere p cs := by simp [splitWhere, hc]
      rw [hcut, List.flatten_cons, List.nil_append, ih, List.filter_cons_of_neg (by simp [hc])]
    · have hkept : p c = false := by simpa using hc
      obtain ⟨piece, pieces, hrest, hcut⟩ := splitWhere_cons_of_not cs hkept
      rw [hrest, List.flatten_cons] at ih
      rw [hcut, List.flatten_cons, List.cons_append, ih, List.filter_cons_of_pos (by simp [hkept])]

/-- The words of a text hold all of it but its white space. -/
theorem flatten_words (cs : List Char) : (words cs).flatten = cs.filter (!isBlank ·) := by
  rw [words, List.flatten_filter_not_isEmpty, flatten_splitWhere]

theorem IsWord.words_eq {word : List Char} (h : IsWord word) : words word = [word] := by
  have hne := h.ne_nil
  simp [words, splitWhere_eq_singleton h.not_blank, hne]

theorem words_join {texts : List (List Char)} (h : ∀ text ∈ texts, IsWord text) :
    words (join [' '] texts) = texts := by
  have hblank : isBlank ' ' = true := by decide
  induction texts with
  | nil => rfl
  | cons text rest ih =>
    have htext := (h text (by simp)).words_eq
    cases rest with
    | nil => exact htext
    | cons next rest =>
      have hrest := ih fun other hother => h other (by simp [hother])
      rw [join_cons_cons, List.append_assoc, List.singleton_append, words_append_cons _ _ hblank,
        htext, hrest, List.singleton_append]

end Worksheet.Chars
