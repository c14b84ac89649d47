import Worksheet.Outcome

namespace Worksheet

namespace Diagnostic

def isError (d : Diagnostic) : Bool :=
  !d.isWarning

/-- Whether the diagnostic is an error in the block of the given index. -/
def isErrorOf (index : Nat) (d : Diagnostic) : Bool :=
  d.isError && d.block == some index

end Diagnostic

namespace Outcome

@[simp] theorem exercises_append (o p : Outcome) :
    (o ++ p).exercises = o.exercises ++ p.exercises := rfl

@[simp] theorem errors_append (o p : Outcome) : (o ++ p).errors = o.errors ++ p.errors := rfl

@[simp] theorem warnings_append (o p : Outcome) :
    (o ++ p).warnings = o.warnings ++ p.warnings := rfl

@[simp] theorem diagnostics_append (o p : Outcome) :
    (o ++ p).diagnostics = o.diagnostics ++ p.diagnostics := rfl

/-- The error diagnostics of the block of the given index. -/
def errorsOf (o : Outcome) (index : Nat) : List Diagnostic :=
  o.diagnostics.filter (Diagnostic.isErrorOf index)

/-- The lists of messages are the diagnostics of their severity, rendered in order. -/
structure Rendered (o : Outcome) : Prop where
  errors : o.errors = (o.diagnostics.filter (·.isError)).map Diagnostic.render
  warnings : o.warnings = (o.diagnostics.filter (·.isWarning)).map Diagnostic.render

theorem rendered_empty : Rendered {} := ⟨rfl, rfl⟩

theorem Rendered.append {o p : Outcome} (ho : Rendered o) (hp : Rendered p) :
    Rendered (o ++ p) := by
  constructor
  · rw [errors_append, ho.errors, hp.errors, diagnostics_append, List.filter_append,
      List.map_append]
  · rw [warnings_append, ho.warnings, hp.warnings, diagnostics_append, List.filter_append,
      List.map_append]

theorem Rendered.push {o : Outcome} (h : Rendered o) (d : Diagnostic) : Rendered (o.push d) := by
  rw [Outcome.push]
  cases hd : d.isWarning
  · constructor <;> simp [h.errors, h.warnings, Diagnostic.isError, hd]
  · constructor <;> simp [h.errors, h.warnings, Diagnostic.isError, hd]

@[simp] theorem exercises_push (o : Outcome) (d : Diagnostic) :
    (o.push d).exercises = o.exercises := by
  rw [push]
  split <;> rfl

@[simp] theorem diagnostics_push (o : Outcome) (d : Diagnostic) :
    (o.push d).diagnostics = o.diagnostics ++ [d] := by
  rw [push]
  split <;> rfl

theorem rendered_report (diagnostics : List Diagnostic) : Rendered (report diagnostics) := by
  have h : ∀ o : Outcome, Rendered o → Rendered (diagnostics.foldl Outcome.push o) := by
    induction diagnostics with
    | nil => exact fun _ h => h
    | cons d rest ih => exact fun o h => ih (o.push d) (h.push d)
  exact h {} rendered_empty

@[simp] theorem exercises_report (diagnostics : List Diagnostic) :
    (report diagnostics).exercises = [] := by
  have h : ∀ o : Outcome, (diagnostics.foldl push o).exercises = o.exercises := by
    induction diagnostics with
    | nil => exact fun _ => rfl
    | cons d rest ih => exact fun o => (ih (o.push d)).trans (exercises_push o d)
  exact h {}

@[simp] theorem diagnostics_report (diagnostics : List Diagnostic) :
    (report diagnostics).diagnostics = diagnostics := by
  have h : ∀ o : Outcome,
      (diagnostics.foldl push o).diagnostics = o.diagnostics ++ diagnostics := by
    induction diagnostics with
    | nil => exact fun o => (List.append_nil _).symm
    | cons d rest ih =>
      intro o
      rw [List.foldl_cons, ih, diagnostics_push, List.append_assoc]
      rfl
  exact h {}

/-- There are errors exactly if there are error diagnostics. -/
theorem Rendered.hasErrors_iff {o : Outcome} (h : Rendered o) :
    o.hasErrors = true ↔ ∃ d ∈ o.diagnostics, d.isError = true := by
  rw [hasErrors, h.errors]
  simp

end Outcome

end Worksheet
