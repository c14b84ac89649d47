import Worksheet.Eval.Variables

namespace Worksheet

/-- What evaluation changes. -/
structure World (σ : Type) where
  table : VariableTable
  random : σ

/-- An evaluation. Its changes last even if it fails. -/
abbrev Eval (σ : Type) := ExceptT EvalError (StateM (World σ))

/-- What a function may use. -/
structure Context (σ : Type) where
  words : WordLibrary
  evaluate : Call → Eval σ Value

namespace Eval

def ofCall (result : Except CallError α) : Eval σ α :=
  match result with
  | .ok a => pure a
  | .error e => throw (.call e)

def invalid (function : String) (fault : ParameterFault) : Eval σ α :=
  throw (.invalidParameter function fault)

def modifyTable (f : VariableTable → VariableTable) : Eval σ Unit :=
  modify fun w => { w with table := f w.table }

/-- Makes random choices. -/
def choose (f : σ → α × σ) : Eval σ α :=
  modifyGet fun w =>
    let (a, random) := f w.random
    (a, { w with random })

end Eval

namespace Context

variable {σ : Type} (ctx : Context σ)

/-- Replaces the calls of a text by the texts of their values, which are not read again. Calls are
evaluated from left to right. -/
def resolve (text : String) : Eval σ String := do
  let cut ← Eval.ofCall (Call.segment text)
  let calls ← cut.calls.mapM fun (call, after) => do
    return ((← ctx.evaluate call).render.toList, after)
  return String.ofList ((⟨cut.before, calls⟩ : Segmented (List Char)).render id)

mutual

/-- The value of an argument. A text is resolved, and a single call keeps its value. -/
def evaluateParam : Param → Eval σ Value
  | .call c => ctx.evaluate c
  | .text s =>
    if Call.occursIn s then do return .text (← ctx.resolve s)
    else return .text s
  | .list items => do return .list (← evaluateParams items)
  | other => return Value.ofParam other

def evaluateParams : List Param → Eval σ (List Value)
  | [] => return []
  | p :: ps => do
    let v ← evaluateParam p
    return v :: (← evaluateParams ps)

end

/-- The value of the argument of a name, or else of the one at a position. -/
def argument? (call : Call) (index : Nat) (name : String) : Eval σ (Option Value) :=
  match call.argument? index name with
  | some p => do return some (← ctx.evaluateParam p)
  | none => return none

def argument (call : Call) (index : Nat) (name : String) : Eval σ Value := do
  match ← ctx.argument? call index name with
  | some v => return v
  | none => Eval.invalid call.name (.missing name)

/-- The trimmed text of an argument, which must not be empty. -/
def textArgument (call : Call) (index : Nat) (name : String) : Eval σ String := do
  let text := Text.trim (← ctx.argument call index name).render
  if text.isEmpty then Eval.invalid call.name (.blank name) else return text

/-- A positive whole number as a count. -/
def count? (v : Value) : Option Nat :=
  match v.number? with
  | some n => if n.isFinite && 1.0 ≤ n && n.floor == n then some n.toUInt64.toNat else none
  | none => none

/-- The count that an argument stands for, or one if there is none. -/
def countArgument (call : Call) (index : Nat) (name : String) : Eval σ Nat := do
  match ← ctx.argument? call index name with
  | none => return 1
  | some v =>
    match count? v with
    | some n => return n
    | none => Eval.invalid call.name (.notCount name v.render)

/-- The value of a variable. A call that it stands for is evaluated and its value is kept. -/
def read (name : String) : Eval σ Value := do
  let found ← modifyGet fun w =>
    let (found, table) := w.table.lookup name
    (found, { w with table })
  match found with
  | .error e => throw e
  | .ok (.ready v) => return v
  | .ok (.pending call) =>
    tryCatch (do
      let v ← ctx.evaluate call
      Eval.modifyTable (·.resolve name v)
      return v)
      fun e => do
        Eval.modifyTable (·.abandon name)
        throw e

end Context

end Worksheet
