import Worksheet.Proofs.Kind.Handling
import Worksheet.Proofs.Validation.Kinds

namespace Worksheet

namespace Kind

theorem checkOf_consistent {α : Type} {tag : String} {get? : Body → Option α}
    {validate : α → Validation} (h : ∀ a, (validate a).Consistent) (body : Body) :
    (checkOf tag get? validate body).Consistent := by
  rw [checkOf]
  split
  · exact h _
  · exact Validation.consistent_error _

theorem Handles.checksConsistently {tag : String} {name : Option String} {h : Handling}
    (hh : Handles tag name h) : ∀ body, (h.check body).Consistent := by
  cases hh with
  | onText => exact checkOf_consistent Selector.validate_consistent
  | onImage => exact checkOf_consistent Selector.Image.validate_consistent
  | fillBlank => exact checkOf_consistent FillBlank.validate_consistent
  | multipleChoice => exact checkOf_consistent MultipleChoice.validate_consistent
  | categories => exact checkOf_consistent (Categorize.validateAtLeast_consistent 1 1)
  | orderedCategories => exact checkOf_consistent (Categorize.validateAtLeast_consistent 2 3)
  | lake => exact checkOf_consistent Categorize.InLake.validate_consistent
  | matching => exact checkOf_consistent Matching.validate_consistent
  | ordering => exact checkOf_consistent Ordering.validate_consistent
  | single => exact checkOf_consistent Ordering.Single.validate_consistent
  -- The aligner has no check of its own.
  | aligner => exact checkOf_consistent Ordering.validate_consistent

end Kind

theorem KindRegistry.validate_builtin_consistent (tag : String) (c : Content) :
    (builtin.validate tag c).Consistent := by
  cases hk : builtin.get? tag with
  | none =>
    rw [validate, hk]
    exact Validation.consistent_error _
  | some k =>
    by_cases hc : c.tag = k.tag
    · have hmem : ∀ w, c.variation.bind k.variation? = some w → w ∈ k.variations := by
        intro w hw
        obtain ⟨name, -, hname⟩ := Option.bind_eq_some_iff.1 hw
        exact Kind.mem_of_variation? hname
      rw [validate_eq hk hc rfl]
      exact (handles_builtin (mem_of_get? hk) hmem).checksConsistently c.body
    · rw [validate, hk]
      simp only [bne_iff_ne, ne_eq, hc, not_false_eq_true, if_true]
      exact Validation.consistent_error _

end Worksheet
