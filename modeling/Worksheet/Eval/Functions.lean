import Worksheet.Eval.Context
import Worksheet.RegistryError

namespace Worksheet

/-- A function. It evaluates its own arguments, so that it may leave a call unevaluated. -/
structure ScriptFunction (σ : Type) where
  name : String
  /-- The name with its parameters, for people to read. -/
  signature : String
  call : Context σ → Call → Eval σ Value

/-- Functions by their names, which are compared without regard to case. -/
structure FunctionRegistry (σ : Type) where
  functions : Keyed (ScriptFunction σ) := []

namespace FunctionRegistry

variable {σ : Type}

def find? (r : FunctionRegistry σ) (name : String) : Option (ScriptFunction σ) :=
  r.functions.get? (Text.asciiLower name)

def contains (r : FunctionRegistry σ) (name : String) : Bool :=
  (r.find? name).isSome

def size (r : FunctionRegistry σ) : Nat :=
  r.functions.length

/-- The functions in increasing order of their names. -/
def toList (r : FunctionRegistry σ) : List (ScriptFunction σ) :=
  r.functions.map (·.2)

/-- Adds a function, unless its name is taken. -/
def register (r : FunctionRegistry σ) (f : ScriptFunction σ) :
    Except RegistryError (FunctionRegistry σ) :=
  let name := Text.asciiLower f.name
  if r.functions.contains name then .error (.duplicateFunction name)
  else .ok ⟨r.functions.insert name f⟩

/-- Adds functions up to the first whose name is taken. -/
def registerAll (r : FunctionRegistry σ) :
    List (ScriptFunction σ) → FunctionRegistry σ × Except RegistryError Unit
  | [] => (r, .ok ())
  | f :: rest =>
    match r.register f with
    | .error e => (r, .error e)
    | .ok next => next.registerAll rest

/-- Deepest nesting of calls, the reading of variables included. -/
def maxDepth : Nat := 32

/-- Evaluates a call whose evaluation may be nested as deep as the given number. -/
def evaluateWithin (r : FunctionRegistry σ) (words : WordLibrary) : Nat → Call → Eval σ Value
  | 0, _ => throw (.tooDeep maxDepth)
  | levels + 1, call =>
    match r.find? call.name with
    | none => throw (.unknownFunction call.name)
    | some f => f.call ⟨words, r.evaluateWithin words levels⟩ call

/-- The outermost context of an evaluation. -/
def context (r : FunctionRegistry σ) (words : WordLibrary) : Context σ :=
  ⟨words, r.evaluateWithin words maxDepth⟩

end FunctionRegistry

end Worksheet
