import Worksheet.Kind.Builtin
import Worksheet.Proofs.Validation.Combinators

namespace Worksheet

open Validation

/-- Errors alone, one for each item, are valid only if there are none. -/
theorem Validation.consistent_all_error {α : Type} (items : List α) (message : α → String) :
    (Validation.all (items.map fun item => Validation.error (message item))).Consistent := by
  apply consistent_all
  intro w hw
  obtain ⟨item, -, rfl⟩ := List.mem_map.1 hw
  exact consistent_error _

/-- Warnings alone are valid. -/
theorem Validation.consistent_all_warning {α : Type} (items : List α) (message : α → String) :
    (Validation.all (items.map fun item => Validation.warning (message item))).Consistent := by
  apply consistent_all
  intro w hw
  obtain ⟨item, -, rfl⟩ := List.mem_map.1 hw
  exact consistent_warning _

namespace Matching

theorem validate_consistent (pairs : List MatchPair) : (validate pairs).Consistent := by
  refine (((consistent_count _ _ _ _).append ?_).append (consistent_all_error _ _)).append
    (consistent_all_error _ _)
  exact consistent_each fun _ _ => (consistent_text _ _ _).append (consistent_text _ _ _)

end Matching

namespace MultipleChoice

theorem validatePlaces_consistent (label : String) (q : ChoiceQuestion) :
    (validatePlaces label q).Consistent := by
  rw [validatePlaces]
  split
  · exact consistent_passed
  · exact consistent_error _

theorem validate_consistent (questions : List ChoiceQuestion) :
    (validate questions).Consistent := by
  refine (consistent_count _ _ _ _).append (consistent_each fun number q => ?_)
  exact (((((consistent_require _ _).append (consistent_count _ _ _ _)).append
    (consistent_require _ _)).append (consistent_all_warning _ _)).append
      (consistent_require _ _)).append (validatePlaces_consistent _ q)

end MultipleChoice

namespace FillBlank

theorem validateBlank_consistent (label : String) (length : Nat) (b : Blank) :
    (validateBlank label length b).Consistent := by
  refine ((consistent_require _ _).append (consistent_count _ _ _ _)).append (consistent_all ?_)
  intro w hw
  obtain ⟨answer, -, rfl⟩ := List.mem_map.1 hw
  exact consistent_text _ _ _

theorem validate_consistent (sentences : List FillSentence) :
    (validate sentences).Consistent := by
  refine (consistent_count _ _ _ _).append (consistent_each fun _ s => ?_)
  refine ((consistent_text _ _ _).append (consistent_count _ _ _ _)).append ?_
  exact consistent_each fun _ b => validateBlank_consistent _ _ b

end FillBlank

namespace Categorize

theorem validateAtLeast_consistent (minCategories minItems : Nat) (c : Categories) :
    (validateAtLeast minCategories minItems c).Consistent := by
  refine ((consistent_count _ _ _ _).append ?_).append (consistent_all_error _ _)
  exact consistent_each fun _ _ => (consistent_text _ _ _).append (consistent_count _ _ _ _)

theorem InLake.validate_consistent (c : Categories) : (InLake.validate c).Consistent :=
  ((((consistent_count _ _ _ _).append (consistent_count _ _ _ _)).append
    (consistent_require _ _)).append (consistent_all_error _ _)).append (consistent_all_warning _ _)

end Categorize

namespace Ordering

theorem validateSentence_consistent (number : Nat) (s : OrderingSentence) :
    (validateSentence number s).Consistent :=
  (consistent_count _ _ _ _).append (consistent_all_error _ _)

theorem validate_consistent (sentences : List OrderingSentence) :
    (validate sentences).Consistent :=
  (consistent_count _ _ _ _).append (consistent_each validateSentence_consistent)

theorem Single.validate_consistent (sentences : List OrderingSentence) :
    (Single.validate sentences).Consistent := by
  refine (consistent_count _ _ _ _).append (consistent_each fun _ _ => ?_)
  exact (consistent_count _ _ _ _).append (consistent_require _ _)

end Ordering

namespace Selector

theorem validate_consistent (s : Selection) : (validate s).Consistent :=
  ((consistent_count _ _ _ _).append (consistent_require _ _)).append
    (consistent_each fun _ _ => consistent_require _ _)

theorem Image.validate_consistent (s : Selection) : (Image.validate s).Consistent := by
  rw [Image.validate]
  split
  · exact consistent_error _
  · refine (((consistent_require _ _).append (consistent_count _ _ _ _)).append
      (consistent_require _ _)).append (consistent_each fun _ _ => ?_)
    exact (consistent_require _ _).append (consistent_require _ _)

end Selector

end Worksheet
