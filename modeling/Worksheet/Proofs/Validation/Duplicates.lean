import Worksheet.Content.Validation
import Worksheet.Proofs.Chars.Lowercase
import Worksheet.Proofs.Chars.Words

namespace Worksheet

namespace Chars

theorem IsWord.lower {word : List Char} (h : IsWord word) : IsWord (lower word) := by
  constructor
  · obtain ⟨c, cs, rfl⟩ := List.exists_cons_of_ne_nil h.ne_nil
    obtain ⟨small, hne, heq, -⟩ := exists_lowerAfter_cons [] c cs
    rw [Chars.lower, heq]
    exact List.append_ne_nil_of_left_ne_nil hne _
  · intro d hd
    rw [Bool.eq_false_iff]
    intro hblank
    have hword := h.not_blank d (mem_of_mem_lowerAfter hd hblank)
    rw [hblank] at hword
    cases hword

theorem lower_join (texts : List (List Char)) :
    lower (join [' '] texts) = join [' '] (texts.map lower) := by
  induction texts with
  | nil => rfl
  | cons text rest ih =>
    cases rest with
    | nil => rfl
    | cons next rest =>
      simp only [List.map_cons, join_cons_cons, List.append_assoc, List.singleton_append] at ih ⊢
      rw [lower_append_space, ih]

end Chars

/-- The texts have the same words up to case. The extent of the white space around the words does
not matter. -/
def Text.SameWords (s t : String) : Prop :=
  (words s).map lower = (words t).map lower

namespace Text

/-- The words of the key are the words of the text in lower case. -/
theorem words_normalized (s : String) : words (normalized s) = (words s).map lower := by
  have hwords : ∀ word ∈ (Chars.words s.toList).map Chars.lower, Chars.IsWord word := by
    intro word hword
    obtain ⟨own, hown, rfl⟩ := List.mem_map.1 hword
    exact (Chars.isWord_of_mem_words hown).lower
  have hchars : Chars.words (Chars.lower (Chars.collapse s.toList)) =
      (Chars.words s.toList).map Chars.lower := by
    rw [Chars.collapse, Chars.lower_join, Chars.words_join hwords]
  simp [words, normalized, lower, hchars]

/-- The key is made of the words in lower case. -/
theorem normalized_eq_join (s : String) : normalized s = join " " ((words s).map lower) := by
  simp [normalized, Chars.collapse, Chars.lower_join, join, words, lower, Function.comp_def]

theorem normalized_eq_iff {s t : String} : normalized s = normalized t ↔ SameWords s t := by
  constructor
  · intro h
    rw [SameWords, ← words_normalized, h, words_normalized]
  · intro h
    rw [normalized_eq_join, h, normalized_eq_join]

end Text

/-- No two texts have the same words up to case. -/
def Distinct (items : List String) : Prop :=
  items.Pairwise fun s t => ¬ Text.SameWords s t

/-- Nothing repeats exactly if the keys are new and differ from each other. -/
theorem repeatsAfter_eq_nil_iff {seen items : List String} : repeatsAfter seen items = [] ↔
    (∀ item ∈ items, Text.normalized item ∉ seen) ∧ Distinct items := by
  induction items generalizing seen with
  | nil => simp [repeatsAfter, Distinct]
  | cons item rest ih =>
    rw [repeatsAfter]
    split
    · rename_i hseen
      have hold : Text.normalized item ∈ seen := by simpa using hseen
      refine iff_of_false (by simp) ?_
      rintro ⟨hnew, -⟩
      exact hnew item List.mem_cons_self hold
    · rename_i hseen
      have hnew : Text.normalized item ∉ seen := by simpa using hseen
      rw [ih, Distinct, Distinct, List.pairwise_cons, List.forall_mem_cons]
      simp only [List.mem_cons, not_or, ← Text.normalized_eq_iff]
      constructor
      · rintro ⟨hrest, hpairs⟩
        exact ⟨⟨hnew, fun other ho => (hrest other ho).2⟩,
          fun other ho => Ne.symm (hrest other ho).1, hpairs⟩
      · rintro ⟨⟨-, hrest⟩, hfirst, hpairs⟩
        exact ⟨fun other ho => ⟨Ne.symm (hfirst other ho), hrest other ho⟩, hpairs⟩

theorem duplicates_eq_nil_iff {items : List String} : duplicates items = [] ↔ Distinct items := by
  have hspellings : duplicates items = [] ↔ repeatsAfter [] items = [] := by
    rw [duplicates]
    cases repeatsAfter [] items with
    | nil => rfl
    | cons item rest => simp [List.eraseDups_cons]
  rw [hspellings, repeatsAfter_eq_nil_iff]
  simp

end Worksheet
