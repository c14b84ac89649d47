import Worksheet.Call.Parser

namespace Worksheet

/-- The right side of a definition. -/
inductive DefinedAs where
  /-- A single call, evaluated when the variable is first read. -/
  | call (c : Call)
  /-- Any other text, evaluated at once. -/
  | literal (text : String)

/-- A variable and what it stands for. -/
structure Definition where
  name : String
  value : DefinedAs

def isIdentifier (cs : List Char) : Bool :=
  cs.head?.any Text.isIdentStart && cs.all Text.isIdentChar

/-- Reads a line that begins with the word `@var`. Other lines are no definitions. -/
def Definition.parse? (line : String) : Option (Except CallError Definition) :=
  match Chars.stripStart? "@var".toList (Chars.trim line.toList) with
  | none => none
  | some rest =>
    if !rest.head?.any Chars.isBlank then none
    else
      let whole : Span := ⟨0, Text.size line⟩
      some <| match Chars.splitOnce '=' rest with
      | none => .error ⟨.definitionWithoutValue, whole⟩
      | some (before, after) =>
        let name := Chars.trim before
        let text := Chars.trim after
        if !isIdentifier name then .error ⟨.badVariableName (String.ofList name), whole⟩
        else (Param.read text).map fun
          | .call c => ⟨String.ofList name, .call c⟩
          | _ => ⟨String.ofList name, .literal (String.ofList text)⟩

end Worksheet
