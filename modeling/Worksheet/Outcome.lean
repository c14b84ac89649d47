import Worksheet.Diagnostic
import Worksheet.Exercise

namespace Worksheet

/-- What compiling a script comes to. -/
structure Outcome where
  exercises : List Exercise := []
  /-- The messages of the errors, with their places. -/
  errors : List String := []
  /-- The messages of the warnings, with their places. -/
  warnings : List String := []
  diagnostics : List Diagnostic := []

namespace Outcome

/-- Takes a diagnostic in. -/
def push (o : Outcome) (d : Diagnostic) : Outcome :=
  if d.isWarning then
    { o with warnings := o.warnings ++ [d.render], diagnostics := o.diagnostics ++ [d] }
  else { o with errors := o.errors ++ [d.render], diagnostics := o.diagnostics ++ [d] }

/-- The outcome without exercises that has the given diagnostics. -/
def report (diagnostics : List Diagnostic) : Outcome :=
  diagnostics.foldl push {}

def hasErrors (o : Outcome) : Bool :=
  !o.errors.isEmpty

/-- Whether there are no errors and all exercises keep the rules of their kinds. -/
def isClean (o : Outcome) : Bool :=
  !o.hasErrors && o.exercises.all (·.validation.isValid)

/-- Both outcomes, the first one first. -/
def merge (o p : Outcome) : Outcome :=
  ⟨o.exercises ++ p.exercises, o.errors ++ p.errors, o.warnings ++ p.warnings,
    o.diagnostics ++ p.diagnostics⟩

instance : Append Outcome := ⟨merge⟩

end Outcome

end Worksheet
