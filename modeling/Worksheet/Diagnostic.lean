import Worksheet.Block.Outline

namespace Worksheet

inductive Severity where
  | error
  | warning
  deriving DecidableEq, Repr

/-- A message ready to be shown with stretches of source files. -/
structure Report where
  severity : Severity
  message : String
  /-- Numbers of files and stretches in them. -/
  labels : List (Nat × Span)
  notes : List String
  deriving DecidableEq, Repr

def StructureWarning.report (file : Nat) (w : StructureWarning) : Report :=
  ⟨.warning, w.fault.message, [(file, w.span)], w.fault.notes⟩

/-- An error or a warning about a script, or about one of its blocks. -/
structure Diagnostic where
  severity : Severity
  message : String
  /-- Position of the block among the blocks of the script. -/
  block : Option Nat := none
  line : Option Nat := none
  span : Option Span := none
  deriving DecidableEq, Repr

namespace Diagnostic

def isWarning (d : Diagnostic) : Bool :=
  d.severity == .warning

/-- The message after the block and the line, as far as they are known. -/
def render (d : Diagnostic) : String :=
  match d.block, d.line with
  | some b, some l => s!"block {b + 1} (line {l}): " ++ d.message
  | some b, none => s!"block {b + 1}: " ++ d.message
  | none, some l => s!"line {l}: " ++ d.message
  | none, none => d.message

def report (file : Nat) (d : Diagnostic) : Report :=
  ⟨d.severity, d.message, d.span.toList.map (file, ·),
    d.block.toList.map fun b => s!"in exercise block {b + 1}"⟩

end Diagnostic

end Worksheet
