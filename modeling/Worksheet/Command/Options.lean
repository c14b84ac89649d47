import Worksheet.Text

namespace Worksheet

/-- How often an option may be given, and whether a value belongs to it. -/
inductive Arity where
  | flag
  | counted
  | value
  | values
  deriving DecidableEq

namespace Arity

def takesValue : Arity → Bool
  | .flag | .counted => false
  | .value | .values => true

def repeats : Arity → Bool
  | .flag | .value => false
  | .counted | .values => true

end Arity

/-- Why a command line is not carried out. -/
inductive Refusal where
  | usage
  | help
  | version
  deriving DecidableEq, Repr

structure OptionSpec where
  long : String
  short : Option Char := none
  arity : Arity := .flag
  /-- Whether the value is a path, which must not be empty. -/
  isPath : Bool := false
  /-- What is asked for instead of carrying out the command line. Nothing after such an option is
  read. -/
  asks : Option Refusal := none

/-- The options and operands of a command line, in order. -/
structure Parsed where
  /-- Long names of options with their values, which are empty for options without one. -/
  options : List (String × String) := []
  operands : List String := []
  deriving DecidableEq, Repr

namespace Parsed

def contains (p : Parsed) (long : String) : Bool :=
  p.options.any (·.1 == long)

def values (p : Parsed) (long : String) : List String :=
  (p.options.filter (·.1 == long)).map (·.2)

def value? (p : Parsed) (long : String) : Option String :=
  (p.values long).head?

/-- Takes an option in. -/
def addOption (p : Parsed) (spec : OptionSpec) (value : String) : Except Refusal Parsed :=
  match spec.asks with
  | some refusal => .error refusal
  | none =>
    if spec.isPath && value.isEmpty then .error .usage
    else if !spec.arity.repeats && p.contains spec.long then .error .usage
    else .ok { p with options := p.options ++ [(spec.long, value)] }

/-- Takes an operand in, if there is room for it. Operands are paths. -/
def addOperand (p : Parsed) (room : Nat) (operand : String) : Except Refusal Parsed :=
  if operand.isEmpty || room ≤ p.operands.length then .error .usage
  else .ok { p with operands := p.operands ++ [operand] }

/-- Whether a word of a command line is an option. -/
def isOption (word : String) : Bool :=
  Text.startsWith word "-" && word != "-"

/-- Takes an option in whose value, if it has one, is the next word. -/
def withNext (p : Parsed) (spec : OptionSpec) (rest : List String) :
    Except Refusal (Parsed × List String) :=
  if !spec.arity.takesValue then (p.addOption spec "").map (·, rest)
  else
    match rest with
    | [] => .error .usage
    | word :: rest =>
      if isOption word then .error .usage else (p.addOption spec word).map (·, rest)

/-- Reads an option in its long form. -/
def readLong (specs : List OptionSpec) (p : Parsed) (body : String) (rest : List String) :
    Except Refusal (Parsed × List String) :=
  match Text.splitOnce '=' body with
  | none =>
    match specs.find? (·.long == body) with
    | none => .error .usage
    | some spec => withNext p spec rest
  | some (name, value) =>
    match specs.find? (·.long == name) with
    | none => .error .usage
    | some spec =>
      if spec.arity.takesValue then (p.addOption spec value).map (·, rest) else .error .usage

/-- Reads options in their short forms, which may stand together in one word. -/
def readShort (specs : List OptionSpec) (p : Parsed) (rest : List String) :
    List Char → Except Refusal (Parsed × List String)
  | [] => .ok (p, rest)
  | c :: cs =>
    match specs.find? (·.short == some c) with
    | none => .error .usage
    | some spec =>
      if !spec.arity.takesValue then do
        let p ← p.addOption spec ""
        readShort specs p rest cs
      else
        match cs with
        | [] => withNext p spec rest
        | '=' :: value => (p.addOption spec (String.ofList value)).map (·, rest)
        | value => (p.addOption spec (String.ofList value)).map (·, rest)

/-- Takes words in as operands. -/
def readOperands (room : Nat) (p : Parsed) (words : List String) : Except Refusal Parsed :=
  words.foldlM (fun p word => p.addOperand room word) p

/-- Reads words of which no more than the given number are left. After two dashes there are operands
only. -/
def readWords (specs : List OptionSpec) (room : Nat) (p : Parsed) :
    Nat → List String → Except Refusal Parsed
  | 0, _ => .ok p
  | _, [] => .ok p
  | count + 1, word :: rest =>
    if word == "--" then readOperands room p rest
    else
      match Text.stripStart? "--" word, Text.stripStart? "-" word with
      | some body, _ => do
        let (p, rest) ← readLong specs p body rest
        readWords specs room p count rest
      | none, some body =>
        if body.isEmpty then do readWords specs room (← p.addOperand room word) count rest
        else do
          let (p, rest) ← readShort specs p rest body.toList
          readWords specs room p count rest
      | none, none => do readWords specs room (← p.addOperand room word) count rest

/-- Reads the words of a command line with at most the given number of operands. -/
def ofWords (specs : List OptionSpec) (room : Nat) (words : List String) :
    Except Refusal Parsed :=
  readWords specs room {} words.length words

end Parsed

end Worksheet
