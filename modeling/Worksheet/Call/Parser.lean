import Worksheet.Call.Basic
import Worksheet.Call.Quoted
import Worksheet.Call.Scanner
import Worksheet.Keyed

namespace Worksheet

/-- How a call is marked: by an at sign, or by being one of some names as a word of its own. -/
inductive CallStyle where
  | marked
  | bare (names : List String)

/-- A call as the scan finds it, before its arguments are read. -/
structure RawCall where
  name : List Char
  /-- Byte offset of the first character. -/
  start : Nat
  /-- All that stands before the arguments. -/
  head : List Char
  /-- The text between the parentheses. -/
  inner : List Char

namespace RawCall

def source (c : RawCall) : List Char :=
  c.head ++ c.inner ++ [')']

def span (c : RawCall) : Span :=
  ⟨c.start, c.start + Chars.size c.source⟩

/-- Byte offset of the text between the parentheses. -/
def innerStart (c : RawCall) : Nat :=
  c.start + Chars.size c.head

end RawCall

/-- A text cut at its calls: the text before the first call, and each call with the text that
follows it up to the next one. -/
structure Segmented (α : Type) where
  before : List Char
  calls : List (α × List Char)

namespace Segmented

def push (c : Char) (s : Segmented α) : Segmented α :=
  { s with before := c :: s.before }

def pushCall (call : α) (s : Segmented α) : Segmented α :=
  ⟨[], (call, s.before) :: s.calls⟩

/-- The text in which each call is replaced by another text. -/
def render (s : Segmented α) (replace : α → List Char) : List Char :=
  s.before ++ s.calls.flatMap fun (call, after) => replace call ++ after

end Segmented

namespace CallStyle

/-- An identifier directly followed by an opening parenthesis, and the text after that. -/
def named? (cs : List Char) : Option (List Char × List Char) :=
  match cs.takeWhile Text.isIdentChar, cs.dropWhile Text.isIdentChar with
  | first :: name, '(' :: rest =>
    if Text.isIdentStart first then some (first :: name, rest) else none
  | _, _ => none

/-- The name of the call that begins at the start of a text and the text after its opening
parenthesis, given the character before the text. -/
def opening? (style : CallStyle) (prev : Option Char) (cs : List Char) :
    Option (List Char × List Char) :=
  match style with
  | .marked =>
    match cs with
    | '@' :: rest => if prev.any Text.isIdentChar then none else named? rest
    | _ => none
  | .bare names =>
    if prev.any fun c => Text.isIdentChar c || c == '@' then none
    else match named? cs with
      | some (name, rest) =>
        if names.any (Text.eqIgnoringCase · (String.ofList name)) then some (name, rest) else none
      | none => none

/-- What stands before the arguments of a call of the given name. -/
def head (style : CallStyle) (name : List Char) : List Char :=
  match style with
  | .marked => '@' :: name ++ ['(']
  | .bare _ => name ++ ['(']

theorem named?_append {cs name rest : List Char} (h : named? cs = some (name, rest)) :
    name ++ '(' :: rest = cs := by
  rw [named?] at h
  split at h
  · rename_i first tail after hname hafter
    split at h
    · simp only [Option.some.injEq, Prod.mk.injEq] at h
      have := List.takeWhile_append_dropWhile (p := Text.isIdentChar) (l := cs)
      rw [hname, hafter] at this
      rw [← h.1, ← h.2, this]
    · simp at h
  · simp at h

theorem head_append {style : CallStyle} {prev : Option Char} {cs name rest : List Char}
    (h : style.opening? prev cs = some (name, rest)) : style.head name ++ rest = cs := by
  cases style with
  | marked =>
    simp only [opening?] at h
    split at h
    · split at h
      · simp at h
      · simp [head, named?_append h]
    · simp at h
  | bare names =>
    simp only [opening?] at h
    split at h
    · simp at h
    · split at h
      · rename_i n r hn
        split at h
        · simp only [Option.some.injEq, Prod.mk.injEq] at h
          obtain ⟨rfl, rfl⟩ := h
          simp [head, named?_append hn]
        · simp at h
      · simp at h

/-- Cuts a text at its calls, given the character before it and its byte offset. -/
def scan (style : CallStyle) (prev : Option Char) (start : Nat) (cs : List Char) :
    Except CallError (Segmented RawCall) :=
  match cs with
  | [] => .ok ⟨[], []⟩
  | c :: rest =>
    match hopen : style.opening? prev (c :: rest) with
    | none => (scan style (some c) (start + c.utf8Size) rest).map (·.push c)
    | some (name, tail) =>
      match hclose : Scanner.close? { depth := 1 } tail with
      | none =>
        .error ⟨.unclosed (String.ofList name), ⟨start, start + Chars.size (c :: rest)⟩⟩
      | some (inner, after) =>
        have : after.length ≤ rest.length := by
          have h1 := congrArg List.length (head_append hopen)
          have h2 := congrArg List.length (Scanner.close?_append hclose)
          simp only [List.length_append, List.length_cons] at h1 h2
          omega
        let call : RawCall := ⟨name, start, style.head name, inner⟩
        (scan style (some ')') call.span.stop after).map (·.pushCall call)
termination_by cs.length

end CallStyle

/-- Whether a marked call begins somewhere in the text, given the character before it. -/
def opensCall (prev : Option Char) : List Char → Bool
  | [] => false
  | c :: cs => (CallStyle.marked.opening? prev (c :: cs)).isSome || opensCall (some c) cs

/-- Reads an argument, already trimmed: a value, or a name, one equals sign and a value. -/
def Argument.read (param : List Char → Except CallError Param) (cs : List Char) :
    Except CallError (Argument Param) :=
  let name := cs.takeWhile Text.isIdentChar
  let value? : Option (List Char) :=
    if name.head?.any Text.isIdentStart then
      match Chars.trimStart (cs.dropWhile Text.isIdentChar) with
      | '=' :: '=' :: _ => none
      | '=' :: value => some value
      | _ => none
    else none
  match value? with
  | some value =>
    (param value).map fun v => ⟨some (Text.asciiLower (String.ofList name)), v⟩
  | none => (param cs).map fun v => ⟨none, v⟩

/-- Reads the text between the parentheses of a call. -/
def Argument.readAll (param : List Char → Except CallError Param) (cs : List Char) :
    Except CallError (List (Argument Param)) :=
  if cs.all Chars.isBlank then .ok []
  else (splitTopLevel ',' cs).mapM fun piece =>
    shiftError piece.span.start (Argument.read param piece.text)

/-- Reads the arguments of a call that the scan found. -/
def RawCall.read (param : List Char → Except CallError Param) (c : RawCall) :
    Except CallError Call :=
  (shiftError c.innerStart (Argument.readAll param c.inner)).map fun arguments =>
    ⟨String.ofList c.name, arguments, c.span, String.ofList c.source⟩

/-- Cuts a text at its calls and reads their arguments. -/
def segmentWith (param : List Char → Except CallError Param) (style : CallStyle) (cs : List Char) :
    Except CallError (Segmented Call) := do
  let raw ← style.scan none 0 cs
  let calls ← raw.calls.mapM fun (call, after) => (call.read param).map (·, after)
  return ⟨raw.before, calls⟩

namespace Param

/-- Deepest nesting of calls, lists and objects within an argument. -/
def maxNesting : Nat := 32

/-- The text between two brackets that stand at both ends. -/
def enclosed? (left right : Char) : List Char → Option (List Char)
  | [] => none
  | c :: cs => if c == left then Chars.stripLast? right cs else none

/-- Reads `key: value` or `key = value`. Only a fault of the value is placed by the entry. -/
def readEntry (param : List Char → Except CallError Param) (piece : Piece) :
    Except CallError (String × Param) :=
  match findTopLevel? [':', '='] piece.text with
  | none =>
    .error ⟨.entryWithoutKey (String.ofList piece.text), piece.span.shift 1⟩
  | some (before, rest) =>
    let key := (Quoted.decode? before).getD (Chars.trim before)
    (shiftError (piece.span.start + 1) (param rest.tail)).map
      (Text.asciiLower (String.ofList key), ·)

/-- Reads the items of a list. -/
def readItems (param : List Char → Except CallError Param) (inner : List Char) :
    Except CallError (List Param) :=
  if inner.all Chars.isBlank then .ok []
  else (splitTopLevel ',' inner).mapM fun piece =>
    shiftError (piece.span.start + 1) (param piece.text)

/-- Reads the entries of an object. -/
def readEntries (param : List Char → Except CallError Param) (inner : List Char) :
    Except CallError (Keyed Param) :=
  (((splitTopLevel ',' inner).filter (!·.text.isEmpty)).mapM (readEntry param)).map Keyed.ofList

/-- Reads text that is neither quoted nor a call, a list or an object. -/
def ofBare (cs : List Char) : Param :=
  let lower := Text.asciiLower (String.ofList cs)
  if lower == "true" then .bool true
  else if lower == "false" then .bool false
  else match if Decimal.isLiteral cs then Decimal.read? cs else none with
    | some n => .number n
    | none => .text (String.ofList cs)

/-- Reads a value that may still be nested one level less deep than the given number. -/
def readWithin : Nat → List Char → Except CallError Param
  | 0, cs => .error ⟨.tooDeep maxNesting, ⟨0, Chars.size (Chars.trim cs)⟩⟩
  | n + 1, cs =>
    let raw := Chars.trim cs
    match Quoted.decode? raw with
    | some s => .ok (.text (String.ofList s))
    | none =>
      if raw.head? == some '@' then
        (segmentWith (readWithin n) .marked raw).map fun
          | ⟨[], [(c, [])]⟩ => .call c
          | _ => .text (String.ofList raw)
      else match enclosed? '[' ']' raw with
        | some inner => (readItems (readWithin n) inner).map .list
        | none =>
          match enclosed? '\x7b' '\x7d' raw with
          | some inner => (readEntries (readWithin n) inner).map .object
          | none => .ok (ofBare raw)

/-- Reads a value by itself or as an argument of an outermost call. -/
def read (cs : List Char) : Except CallError Param :=
  readWithin (maxNesting + 1) cs

/-- Reads a value. -/
def parse (s : String) : Except CallError Param :=
  read s.toList

end Param

/-- The arguments in the text between the parentheses of a call. -/
def Argument.parseAll (inner : String) : Except CallError (List (Argument Param)) :=
  Argument.readAll Param.read inner.toList

namespace Call

/-- Cuts a text at the calls marked by an at sign. -/
def segment (text : String) : Except CallError (Segmented Call) :=
  segmentWith Param.read .marked text.toList

/-- The calls of a text, in order. -/
def findAll (text : String) : Except CallError (List Call) :=
  (segment text).map (·.calls.map (·.1))

/-- The calls without an at sign that have one of the given names in any case. -/
def findBare (names : List String) (text : String) : Except CallError (List Call) :=
  (segmentWith Param.read (.bare names) text.toList).map (·.calls.map (·.1))

/-- Whether the text holds at least the beginning of a call. -/
def occursIn (text : String) : Bool :=
  opensCall none text.toList

end Call

end Worksheet
