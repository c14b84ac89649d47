import Worksheet.Call.Basic
import Worksheet.Words.Library

namespace Worksheet

/-- What is wrong with the arguments of a function. -/
inductive ParameterFault where
  | missing (name : String)
  | blank (name : String)
  | notCount (name found : String)
  | filtersNotObject (typeName : String)
  | unknownFilter (name : String)
  | unknownMode (name : String)
  deriving DecidableEq, Repr

def ParameterFault.message : ParameterFault → String
  | .missing name => s!"missing argument '{name}'"
  | .blank name => s!"'{name}' must not be empty"
  | .notCount name found => s!"'{name}' must be a positive whole number, got '{found}'"
  | .filtersNotObject typeName =>
    "filters must be an object like \x7blevel: A1\x7d, got " ++ typeName
  | .unknownFilter name => s!"unknown filter '{name}'"
  | .unknownMode name =>
    s!"unknown kind '{name}' (expected words, letters, mask or mask-letters)"

/-- What can go wrong when a call is evaluated. -/
inductive EvalError where
  | unknownFunction (name : String)
  | invalidParameter (function : String) (fault : ParameterFault)
  | undefinedVariable (name : String)
  | circularVariable (name : String)
  | tooDeep (levels : Nat)
  | words (e : WordError)
  | call (e : CallError)
  deriving DecidableEq, Repr

def EvalError.message : EvalError → String
  | .unknownFunction name => s!"unknown function '@{name}'"
  | .invalidParameter function fault => s!"@{function}: " ++ fault.message
  | .undefinedVariable name => s!"undefined variable '{name}'"
  | .circularVariable name => s!"variable '{name}' depends on itself"
  | .tooDeep levels => s!"calls nested deeper than {levels} levels"
  | .words e => e.message
  | .call e => e.message

end Worksheet
