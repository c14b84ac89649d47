import Worksheet.Content.Validation

namespace Worksheet

/-- The rules for a text: something besides white space, and no more characters than allowed. -/
structure Text.Fits (s : String) (high : Nat) : Prop where
  filled : isBlank s = false
  short : s.length ≤ high

namespace Validation

@[simp] theorem isValid_append (v w : Validation) : (v ++ w).isValid = (v.isValid && w.isValid) :=
  rfl

@[simp] theorem errors_append (v w : Validation) : (v ++ w).errors = v.errors ++ w.errors := rfl

@[simp] theorem isValid_require (condition : Bool) (message : String) :
    (require condition message).isValid = condition := by
  cases condition <;> rfl

theorem isValid_count_iff {what : String} {n low high : Nat} :
    (count what n low high).isValid = true ↔ low ≤ n ∧ n ≤ high := by
  rw [count]
  split
  · simp only [error, Bool.false_eq_true, false_iff]
    omega
  · split
    · simp only [error, Bool.false_eq_true, false_iff]
      omega
    · simp only [passed, true_iff]
      omega

theorem isValid_text_iff {what s : String} {high : Nat} :
    (text what s high).isValid = true ↔ Text.Fits s high := by
  rw [text]
  split
  · rename_i hblank
    refine iff_of_false Bool.false_ne_true fun h => ?_
    rw [h.filled] at hblank
    cases hblank
  · rename_i hfilled
    split
    · rename_i hlong
      exact iff_of_false Bool.false_ne_true fun h => Nat.not_lt.2 h.short hlong
    · rename_i hshort
      exact iff_of_true rfl ⟨by simpa using hfilled, Nat.not_lt.1 hshort⟩

private theorem isValid_foldl_merge (v : Validation) (results : List Validation) :
    (results.foldl merge v).isValid = (v.isValid && results.all (·.isValid)) := by
  induction results generalizing v with
  | nil => simp
  | cons w rest ih =>
    rw [List.foldl_cons, ih, List.all_cons, ← Bool.and_assoc]
    rfl

theorem isValid_all (results : List Validation) :
    (all results).isValid = results.all (·.isValid) := by
  rw [all, isValid_foldl_merge]
  rfl

theorem isValid_all_map_iff {α : Type} {items : List α} {check : α → Validation} :
    (all (items.map check)).isValid = true ↔ ∀ item ∈ items, (check item).isValid = true := by
  rw [isValid_all, List.all_map, List.all_eq_true]
  rfl

/-- Errors alone, one for each item, let only the empty list pass. -/
theorem isValid_all_error_iff {α : Type} {items : List α} {message : α → String} :
    (all (items.map fun item => error (message item))).isValid = true ↔ items = [] := by
  rw [isValid_all_map_iff, List.eq_nil_iff_forall_not_mem]
  exact forall₂_congr fun item _ => Bool.false_eq_true.to_iff

/-- Warnings alone let everything pass. -/
theorem isValid_all_warning {α : Type} (items : List α) (message : α → String) :
    (all (items.map fun item => warning (message item))).isValid = true :=
  isValid_all_map_iff.2 fun _ _ => rfl

/-- If passing does not depend on the number of an item, all items pass exactly if each does. -/
theorem isValid_each_iff {α : Type} {items : List α} {check : Nat → α → Validation} {P : α → Prop}
    (h : ∀ number item, (check number item).isValid = true ↔ P item) :
    (each items check).isValid = true ↔ ∀ item ∈ items, P item := by
  rw [each, isValid_all, List.all_eq_true]
  constructor
  · intro hall item hi
    obtain ⟨i, hlt, rfl⟩ := List.getElem_of_mem hi
    exact (h _ _).1 (hall _ (List.mem_mapIdx.2 ⟨i, hlt, rfl⟩))
  · intro hall w hw
    obtain ⟨i, hlt, rfl⟩ := List.mem_mapIdx.1 hw
    exact (h _ _).2 (hall _ (List.getElem_mem hlt))

/-- A result is valid exactly without errors. -/
def Consistent (v : Validation) : Prop :=
  v.isValid = v.errors.isEmpty

theorem consistent_passed : Consistent passed := rfl

theorem consistent_error (message : String) : Consistent (error message) := rfl

theorem consistent_warning (message : String) : Consistent (warning message) := rfl

theorem Consistent.append {v w : Validation} (hv : Consistent v) (hw : Consistent w) :
    Consistent (v ++ w) := by
  rw [Consistent, isValid_append, hv, hw, errors_append]
  cases v.errors <;> simp

theorem consistent_require (condition : Bool) (message : String) :
    Consistent (require condition message) := by
  cases condition <;> rfl

theorem consistent_count (what : String) (n low high : Nat) :
    Consistent (count what n low high) := by
  rw [count]
  split
  · rfl
  · split <;> rfl

theorem consistent_text (what s : String) (high : Nat) : Consistent (text what s high) := by
  rw [text]
  split
  · rfl
  · split <;> rfl

theorem consistent_foldl_merge {v : Validation} (hv : Consistent v) {results : List Validation}
    (h : ∀ w ∈ results, Consistent w) : Consistent (results.foldl merge v) := by
  induction results generalizing v with
  | nil => exact hv
  | cons w rest ih =>
    exact ih (hv.append (h w (by simp))) fun u hu => h u (by simp [hu])

theorem consistent_all {results : List Validation} (h : ∀ w ∈ results, Consistent w) :
    Consistent (all results) :=
  consistent_foldl_merge consistent_passed h

theorem consistent_each {α : Type} {items : List α} {check : Nat → α → Validation}
    (h : ∀ number item, Consistent (check number item)) : Consistent (each items check) := by
  apply consistent_all
  intro w hw
  obtain ⟨i, hi, rfl⟩ := List.mem_mapIdx.1 hw
  exact h _ _

end Validation

end Worksheet
