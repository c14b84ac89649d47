import Worksheet.Call.Basic
import Worksheet.Decimal.Reader
import Worksheet.Marker

namespace Worksheet

/-- A value that a call evaluates to. -/
inductive Value where
  | text (s : String)
  | number (n : Float)
  | bool (b : Bool)
  | list (items : List Value)
  /-- A marker, which stays in its line as a decorator. -/
  | marker (m : Marker)
  /-- What is left by a call that only has an effect. -/
  | empty

namespace Value

def typeName : Value → String
  | .text _ => "text"
  | .number _ => "number"
  | .bool _ => "bool"
  | .list _ => "list"
  | .marker _ => "annotation"
  | .empty => "empty"

mutual

/-- The text that stands for a value in a line. -/
def render : Value → String
  | .text s => s
  | .number n => Decimal.numberText n
  | .bool b => if b then "true" else "false"
  | .list items => Text.join " | " (renderAll items)
  | .marker m => m.toDecorator
  | .empty => ""

def renderAll : List Value → List String
  | [] => []
  | v :: vs => v.render :: renderAll vs

end

theorem renderAll_eq_map (vs : List Value) : renderAll vs = vs.map render := by
  induction vs with
  | nil => simp [renderAll]
  | cons v vs ih => simp [renderAll, ih]

mutual

/-- The value of an argument as it is written. Calls and objects stand for their text. -/
def ofParam : Param → Value
  | .text s => .text s
  | .number n => .number n
  | .bool b => .bool b
  | .list items => .list (ofParams items)
  | .object entries => .text (Param.render (.object entries))
  | .call c => .text c.source

def ofParams : List Param → List Value
  | [] => []
  | p :: ps => ofParam p :: ofParams ps

end

/-- The texts of the items of a list. Another value counts as its only item. -/
def items : Value → List String
  | .list items => renderAll items
  | .empty => []
  | other => [other.render]

def number? : Value → Option Float
  | .number n => some n
  | .text s => Decimal.read? (Chars.trim s.toList)
  | _ => none

end Value

end Worksheet
