import Worksheet.Eval.Error
import Worksheet.Value

namespace Worksheet

/-- What a variable stands for: a value, or a call that is evaluated when the variable is first
read. -/
inductive Binding where
  | literal (value : Value)
  /-- A call, and its value once it has been evaluated. -/
  | deferred (call : Call) (memo : Option Value)

/-- The value as far as it is known. -/
def Binding.value? : Binding → Option Value
  | .literal v => some v
  | .deferred _ memo => memo

/-- What reading a variable needs. -/
inductive Lookup where
  | ready (value : Value)
  /-- The call has to be evaluated first. -/
  | pending (call : Call)

structure VariableTable where
  bindings : List (String × Binding) := []
  /-- Variables whose calls are being evaluated. -/
  resolving : List String := []

namespace VariableTable

/-- Replaces the binding of a name, or adds one. -/
def bind (name : String) (b : Binding) : List (String × Binding) → List (String × Binding)
  | [] => [(name, b)]
  | (other, old) :: rest =>
    if other == name then (name, b) :: rest else (other, old) :: bind name b rest

def get? (t : VariableTable) (name : String) : Option Binding :=
  t.bindings.lookup name

def size (t : VariableTable) : Nat :=
  t.bindings.length

def define (t : VariableTable) (name : String) (value : Value) : VariableTable :=
  { t with bindings := bind name (.literal value) t.bindings }

def defer (t : VariableTable) (name : String) (call : Call) : VariableTable :=
  { t with bindings := bind name (.deferred call none) t.bindings }

/-- Begins to read a variable. A pending one is marked until it is resolved or abandoned, and is
circular if it is read in the meantime. -/
def lookup (t : VariableTable) (name : String) : Except EvalError Lookup × VariableTable :=
  match t.get? name with
  | none => (.error (.undefinedVariable name), t)
  | some (.literal v) => (.ok (.ready v), t)
  | some (.deferred _ (some v)) => (.ok (.ready v), t)
  | some (.deferred call none) =>
    if t.resolving.contains name then (.error (.circularVariable name), t)
    else (.ok (.pending call), { t with resolving := t.resolving ++ [name] })

/-- Ends the reading of a variable without a value. -/
def abandon (t : VariableTable) (name : String) : VariableTable :=
  { t with resolving := t.resolving.filter (· != name) }

/-- Ends the reading of a variable with the value of its call. -/
def resolve (t : VariableTable) (name : String) (value : Value) : VariableTable :=
  match t.get? name with
  | some (.deferred call _) =>
    { t.abandon name with bindings := bind name (.deferred call (some value)) t.bindings }
  | _ => t.abandon name

end VariableTable

end Worksheet
