import Worksheet.Decimal.Layout
import Worksheet.Text

namespace Worksheet

/-- An argument of a call, with the name before its equals sign if there is one. -/
structure Argument (α : Type) where
  name : Option String
  value : α
  deriving Repr

/-- A call found in a text: where it stands and how it is written there. -/
structure Located (α : Type) where
  name : String
  arguments : List (Argument α)
  span : Span
  source : String
  deriving Repr

/-- The value of an argument. -/
inductive Param where
  /-- Quoted or bare text. Bare text may still hold calls. -/
  | text (s : String)
  | number (n : Float)
  | bool (b : Bool)
  | list (items : List Param)
  /-- Entries in increasing order of their keys. -/
  | object (entries : List (String × Param))
  | call (c : Located Param)

/-- A call such as `@fill(animals, amount=3)`. -/
abbrev Call := Located Param

namespace Param

def typeName : Param → String
  | .text _ => "string"
  | .number _ => "number"
  | .bool _ => "bool"
  | .list _ => "list"
  | .object _ => "object"
  | .call _ => "call"

def text? : Param → Option String
  | .text s => some s
  | _ => none

mutual

/-- The text of a value: lists with bars between their items, calls as they are written. -/
def render : Param → String
  | .text s => s
  | .number n => Decimal.numberText n
  | .bool b => if b then "true" else "false"
  | .list items => Text.join " | " (renderAll items)
  | .object entries => "\x7b" ++ Text.join ", " (renderEntries entries) ++ "\x7d"
  | .call c => c.source

def renderAll : List Param → List String
  | [] => []
  | p :: ps => p.render :: renderAll ps

def renderEntries : List (String × Param) → List String
  | [] => []
  | (key, p) :: rest => (key ++ ": " ++ p.render) :: renderEntries rest

end

end Param

namespace Located

/-- The value of the argument that has the given number among those without a name. -/
def positional? (c : Located α) (index : Nat) : Option α :=
  (c.arguments.filter (·.name.isNone))[index]?.map (·.value)

/-- The value of the first argument of the given name. -/
def named? (c : Located α) (name : String) : Option α :=
  (c.arguments.find? (·.name == some name)).map (·.value)

/-- The argument of the given name, or else the one at the given position. -/
def argument? (c : Located α) (index : Nat) (name : String) : Option α :=
  (c.named? name).or (c.positional? index)

end Located

/-- What can be wrong with the calls of a text. -/
inductive CallFault where
  | unclosed (name : String)
  | tooDeep (levels : Nat)
  | entryWithoutKey (entry : String)
  | definitionWithoutValue
  | badVariableName (name : String)
  | unresolved (inner outer : String)
  deriving DecidableEq, Repr

def CallFault.message : CallFault → String
  | .unclosed name => s!"unclosed call to '{name}'"
  | .tooDeep levels => s!"nesting too deep (more than {levels} levels)"
  | .entryWithoutKey entry => s!"expected 'key: value' in object, found '{entry}'"
  | .definitionWithoutValue => "expected '@var name = value'"
  | .badVariableName name => s!"invalid variable name '{name}'"
  | .unresolved inner outer => s!"unresolved call '{inner}' inside @{outer}"

/-- A fault and where it is, in the text that was read. -/
structure CallError where
  fault : CallFault
  span : Span
  deriving DecidableEq, Repr

namespace CallError

def message (e : CallError) : String :=
  e.fault.message

def shift (e : CallError) (n : Nat) : CallError :=
  ⟨e.fault, e.span.shift n⟩

end CallError

/-- Moves the place of a fault by the place of the fragment in which it was found. -/
def shiftError (n : Nat) (result : Except CallError α) : Except CallError α :=
  result.mapError (·.shift n)

end Worksheet
