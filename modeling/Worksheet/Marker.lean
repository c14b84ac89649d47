import Worksheet.Call.Parser

namespace Worksheet

inductive MarkerKind where
  | image
  | idea
  | instruction
  | note
  deriving DecidableEq, Repr

namespace MarkerKind

def all : List MarkerKind :=
  [.image, .idea, .instruction, .note]

/-- The name of the decorator. -/
def functionName : MarkerKind → String
  | .image => "img"
  | .idea => "idea"
  | .instruction => "ins"
  | .note => "notes"

/-- The kind whose decorator has the given name in any case. -/
def ofFunction? (name : String) : Option MarkerKind :=
  all.find? (·.functionName == Text.asciiLower name)

/-- The name of the kind in output. -/
def label : MarkerKind → String
  | .image => "image"
  | .idea => "idea"
  | .instruction => "instruction"
  | .note => "note"

theorem ofFunction?_functionName (k : MarkerKind) : ofFunction? k.functionName = some k := by
  cases k <;> decide

end MarkerKind

/-- A decorator such as `@img(url)`, which belongs to a content line but is no part of its text. -/
structure Marker where
  kind : MarkerKind
  text : String
  deriving DecidableEq, Repr

namespace Marker

/-- The decorator that stands for the marker in a script. -/
def toDecorator (a : Marker) : String :=
  "@" ++ a.kind.functionName ++ "(" ++ Quoted.ofText a.text ++ ")"

/-- The marker that a call stands for, if its name is that of a decorator. Its text is the first
argument, which must not be a call any more. -/
def ofCall? (c : Call) : Except CallError (Option Marker) :=
  match MarkerKind.ofFunction? c.name with
  | none => .ok none
  | some kind =>
    match c.positional? 0 with
    | some (.call inner) => .error ⟨.unresolved inner.name c.name, c.span⟩
    | some p => .ok (some ⟨kind, p.render⟩)
    | none => .ok (some ⟨kind, ""⟩)

/-- Takes the decorators out of a line. If there are any, the words of the rest are put together
with single spaces. Other calls stay. -/
def extract (line : String) : Except CallError (String × List Marker) := do
  let cut ← Call.segment line
  let calls ← cut.calls.mapM fun (call, after) =>
    (ofCall? call).map fun found => ((call, found), after)
  let markers := calls.filterMap (·.1.2)
  let rest := (⟨cut.before, calls⟩ : Segmented (Call × Option Marker)).render
    fun (call, marker) => if marker.isSome then [] else call.source.toList
  return (String.ofList (if markers.isEmpty then rest else Chars.collapse rest), markers)

end Marker

end Worksheet
