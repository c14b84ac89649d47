import Worksheet.Content.Basic
import Worksheet.Proofs.Validation.Combinators
import Worksheet.Proofs.Validation.Duplicates

namespace Worksheet

open Validation

/-- The rules for a blank of a text of the given length. -/
structure Blank.Allowed (length : Nat) (b : Blank) : Prop where
  position : b.position ≤ length
  answers : 1 ≤ b.answers.length ∧ b.answers.length ≤ 10
  fits : ∀ answer ∈ b.answers, Text.Fits answer 100

structure FillSentence.Allowed (s : FillSentence) : Prop where
  text : Text.Fits s.text 500
  blanks : 1 ≤ s.blanks.length ∧ s.blanks.length ≤ 10
  each : ∀ b ∈ s.blanks, b.Allowed s.text.length

structure FillBlank.Allowed (sentences : List FillSentence) : Prop where
  number : 1 ≤ sentences.length ∧ sentences.length ≤ 50
  each : ∀ s ∈ sentences, s.Allowed

namespace FillBlank

theorem isValid_validateBlank_iff {label : String} {length : Nat} {b : Blank} :
    (validateBlank label length b).isValid = true ↔ b.Allowed length := by
  simp only [validateBlank, isValid_append, Bool.and_eq_true, isValid_require, decide_eq_true_eq,
    isValid_count_iff, isValid_all_map_iff, isValid_text_iff]
  constructor
  · rintro ⟨⟨position, answers⟩, fits⟩
    exact ⟨position, answers, fits⟩
  · rintro ⟨position, answers, fits⟩
    exact ⟨⟨position, answers⟩, fits⟩

theorem isValid_validateSentence_iff (number : Nat) (s : FillSentence) :
    (validateSentence number s).isValid = true ↔ s.Allowed := by
  simp only [validateSentence, isValid_append, Bool.and_eq_true, isValid_text_iff,
    isValid_count_iff]
  rw [isValid_each_iff (P := Blank.Allowed s.text.length) fun _ _ => isValid_validateBlank_iff]
  constructor
  · rintro ⟨⟨text, blanks⟩, each⟩
    exact ⟨text, blanks, each⟩
  · rintro ⟨text, blanks, each⟩
    exact ⟨⟨text, blanks⟩, each⟩

theorem isValid_validate_iff {sentences : List FillSentence} :
    (validate sentences).isValid = true ↔ Allowed sentences := by
  simp only [validate, isValid_append, Bool.and_eq_true, isValid_count_iff,
    isValid_each_iff isValid_validateSentence_iff]
  exact ⟨fun ⟨number, each⟩ => ⟨number, each⟩, fun h => ⟨h.number, h.each⟩⟩

end FillBlank

structure MatchPair.Allowed (p : MatchPair) : Prop where
  left : Text.Fits p.left 200
  right : Text.Fits p.right 200

structure Matching.Allowed (pairs : List MatchPair) : Prop where
  number : 2 ≤ pairs.length ∧ pairs.length ≤ 20
  each : ∀ p ∈ pairs, p.Allowed
  left : Distinct (pairs.map (·.left))
  right : Distinct (pairs.map (·.right))

namespace Matching

theorem isValid_validatePair_iff (number : Nat) (p : MatchPair) :
    (validatePair number p).isValid = true ↔ p.Allowed := by
  simp only [validatePair, isValid_append, Bool.and_eq_true, isValid_text_iff]
  exact ⟨fun ⟨left, right⟩ => ⟨left, right⟩, fun h => ⟨h.left, h.right⟩⟩

theorem isValid_validate_iff {pairs : List MatchPair} :
    (validate pairs).isValid = true ↔ Allowed pairs := by
  simp only [validate, isValid_append, Bool.and_eq_true, isValid_count_iff,
    isValid_each_iff isValid_validatePair_iff, isValid_all_error_iff, duplicates_eq_nil_iff]
  constructor
  · rintro ⟨⟨⟨number, each⟩, left⟩, right⟩
    exact ⟨number, each, left, right⟩
  · rintro ⟨number, each, left, right⟩
    exact ⟨⟨⟨number, each⟩, left⟩, right⟩

end Matching

structure ChoiceQuestion.Allowed (q : ChoiceQuestion) : Prop where
  question : Text.isBlank q.question = false
  options : 2 ≤ q.options.length ∧ q.options.length ≤ 10
  each : ∀ option ∈ q.options, Text.isBlank option = false
  correct : q.correct ≠ []
  inside : ∀ i ∈ q.correct, i < q.options.length

structure MultipleChoice.Allowed (questions : List ChoiceQuestion) : Prop where
  number : 1 ≤ questions.length ∧ questions.length ≤ 50
  each : ∀ q ∈ questions, q.Allowed

namespace MultipleChoice

theorem isValid_validatePlaces_iff {label : String} {q : ChoiceQuestion} :
    (validatePlaces label q).isValid = true ↔ ∀ i ∈ q.correct, i < q.options.length := by
  rw [validatePlaces]
  split
  · rename_i hnone
    simpa [passed] using hnone
  · rename_i bad hbad
    have hout : q.options.length ≤ bad := by simpa using List.find?_some hbad
    refine iff_of_false Bool.false_ne_true fun h => ?_
    exact absurd (h bad (List.mem_of_find?_eq_some hbad)) (Nat.not_lt.2 hout)

theorem isValid_validateQuestion_iff (number : Nat) (q : ChoiceQuestion) :
    (validateQuestion number q).isValid = true ↔ q.Allowed := by
  have hblank : (!q.options.any Text.isBlank) = true ↔
      ∀ option ∈ q.options, Text.isBlank option = false := by simp
  have hcorrect : (!q.correct.isEmpty) = true ↔ q.correct ≠ [] := by simp
  simp only [validateQuestion, isValid_append, Bool.and_eq_true, isValid_require,
    isValid_count_iff, isValid_all_warning, isValid_validatePlaces_iff, hblank, hcorrect, and_true,
    Bool.not_eq_true']
  constructor
  · rintro ⟨⟨⟨⟨question, options⟩, each⟩, correct⟩, inside⟩
    exact ⟨question, options, each, correct, inside⟩
  · rintro ⟨question, options, each, correct, inside⟩
    exact ⟨⟨⟨⟨question, options⟩, each⟩, correct⟩, inside⟩

theorem isValid_validate_iff {questions : List ChoiceQuestion} :
    (validate questions).isValid = true ↔ Allowed questions := by
  simp only [validate, isValid_append, Bool.and_eq_true, isValid_count_iff,
    isValid_each_iff isValid_validateQuestion_iff]
  exact ⟨fun ⟨number, each⟩ => ⟨number, each⟩, fun h => ⟨h.number, h.each⟩⟩

end MultipleChoice

structure OrderingSentence.Allowed (s : OrderingSentence) : Prop where
  segments : 2 ≤ s.segments.length ∧ s.segments.length ≤ 20
  distinct : Distinct s.segments

/-- The rules for a word in single letters, which may occur more than once. -/
structure OrderingSentence.Lettered (s : OrderingSentence) : Prop where
  segments : 2 ≤ s.segments.length ∧ s.segments.length ≤ 20
  letters : ∀ segment ∈ s.segments, ∃ c, segment.toList = [c] ∧ Chars.isAlphabetic c = true

structure Ordering.Allowed (sentences : List OrderingSentence) : Prop where
  number : 1 ≤ sentences.length ∧ sentences.length ≤ 30
  each : ∀ s ∈ sentences, s.Allowed

structure Ordering.Single.Allowed (words : List OrderingSentence) : Prop where
  number : 1 ≤ words.length ∧ words.length ≤ 30
  each : ∀ s ∈ words, s.Lettered

namespace Ordering

theorem isValid_validateSentence_iff (number : Nat) (s : OrderingSentence) :
    (validateSentence number s).isValid = true ↔ s.Allowed := by
  simp only [validateSentence, validateSize, isValid_append, Bool.and_eq_true, isValid_count_iff,
    isValid_all_error_iff, duplicates_eq_nil_iff]
  exact ⟨fun ⟨segments, distinct⟩ => ⟨segments, distinct⟩, fun h => ⟨h.segments, h.distinct⟩⟩

theorem isValid_validate_iff {sentences : List OrderingSentence} :
    (validate sentences).isValid = true ↔ Allowed sentences := by
  simp only [validate, isValid_append, Bool.and_eq_true, isValid_count_iff,
    isValid_each_iff isValid_validateSentence_iff]
  exact ⟨fun ⟨number, each⟩ => ⟨number, each⟩, fun h => ⟨h.number, h.each⟩⟩

namespace Single

theorem isLetter_iff {segment : String} : isLetter segment = true ↔
    ∃ c, segment.toList = [c] ∧ Chars.isAlphabetic c = true := by
  rw [isLetter, ← String.length_toList, Bool.and_eq_true, beq_iff_eq, List.length_eq_one_iff]
  constructor
  · rintro ⟨⟨c, hc⟩, halpha⟩
    exact ⟨c, hc, by simpa [hc] using halpha⟩
  · rintro ⟨c, hc, halpha⟩
    exact ⟨⟨c, hc⟩, by simpa [hc] using halpha⟩

theorem isValid_validateWord_iff (number : Nat) (s : OrderingSentence) :
    (validateWord number s).isValid = true ↔ s.Lettered := by
  simp only [validateWord, validateSize, isValid_append, Bool.and_eq_true, isValid_count_iff,
    isValid_require, List.all_eq_true, isLetter_iff]
  exact ⟨fun ⟨segments, letters⟩ => ⟨segments, letters⟩, fun h => ⟨h.segments, h.letters⟩⟩

theorem isValid_validate_iff {words : List OrderingSentence} :
    (validate words).isValid = true ↔ Allowed words := by
  simp only [validate, isValid_append, Bool.and_eq_true, isValid_count_iff,
    isValid_each_iff isValid_validateWord_iff]
  exact ⟨fun ⟨number, each⟩ => ⟨number, each⟩, fun h => ⟨h.number, h.each⟩⟩

end Single

end Ordering

/-- The rules for categories, given how many of them and of their items are needed. -/
structure Categorize.Allowed (minCategories minItems : Nat) (c : Categories) : Prop where
  number : minCategories ≤ c.categories.length ∧ c.categories.length ≤ 10
  names : ∀ category ∈ c.categories, Text.Fits category.name 100
  items : ∀ category ∈ c.categories,
    minItems ≤ category.items.length ∧ category.items.length ≤ 30
  distinct : Distinct (c.categories.map (·.name))

structure Categorize.InLake.Allowed (c : Categories) : Prop where
  correct : 1 ≤ c.correct.length ∧ c.correct.length ≤ 30
  distractors : c.distractors.length ≤ 30
  instruction : ∃ text, c.instruction = some text ∧ Text.isBlank text = false
  apart : ∀ d ∈ c.distractors, ∀ item ∈ c.correct, ¬ Text.SameWords item d

namespace Categorize

theorem isValid_validateAtLeast_iff {minCategories minItems : Nat} {c : Categories} :
    (validateAtLeast minCategories minItems c).isValid = true ↔
      Allowed minCategories minItems c := by
  have heach : ∀ number category, (validateCategory minItems number category).isValid = true ↔
      Text.Fits category.name 100 ∧
        minItems ≤ category.items.length ∧ category.items.length ≤ 30 := by
    intro number category
    rw [validateCategory, isValid_append, Bool.and_eq_true, isValid_text_iff,
      isValid_count_iff]
    rfl
  simp only [validateAtLeast, isValid_append, Bool.and_eq_true, isValid_count_iff,
    isValid_each_iff heach, isValid_all_error_iff, duplicates_eq_nil_iff]
  constructor
  · rintro ⟨⟨number, each⟩, distinct⟩
    exact ⟨number, fun category hc => (each category hc).1, fun category hc => (each category hc).2,
      distinct⟩
  · rintro ⟨number, names, items, distinct⟩
    exact ⟨⟨number, fun category hc => ⟨names category hc, items category hc⟩⟩, distinct⟩

theorem InLake.isValid_validate_iff {c : Categories} :
    (validate c).isValid = true ↔ Allowed c := by
  have hinstruction : (c.instruction.any fun text => !Text.isBlank text) = true ↔
      ∃ text, c.instruction = some text ∧ Text.isBlank text = false := by
    simp [Option.any_eq_true]
  have hapart : contradictions c = [] ↔
      ∀ d ∈ c.distractors, ∀ item ∈ c.correct, ¬ Text.SameWords item d := by
    simp [contradictions, List.filter_eq_nil_iff, Text.normalized_eq_iff]
  simp only [validate, isValid_append, Bool.and_eq_true, isValid_count_iff, isValid_require,
    isValid_all_error_iff, isValid_all_warning, and_true, hinstruction, hapart]
  constructor
  · rintro ⟨⟨⟨correct, -, distractors⟩, instruction⟩, apart⟩
    exact ⟨correct, distractors, instruction, apart⟩
  · rintro ⟨correct, distractors, instruction, apart⟩
    exact ⟨⟨⟨correct, Nat.zero_le _, distractors⟩, instruction⟩, apart⟩

end Categorize

end Worksheet
