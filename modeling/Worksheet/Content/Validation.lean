import Worksheet.Text

namespace Worksheet

/-- The result of checking the content of an exercise against the rules of its kind. -/
structure Validation where
  isValid : Bool := true
  errors : List String := []
  warnings : List String := []
  deriving DecidableEq, Repr

namespace Validation

/-- Both results, the first one first. -/
def merge (v w : Validation) : Validation :=
  ⟨v.isValid && w.isValid, v.errors ++ w.errors, v.warnings ++ w.warnings⟩

instance : Append Validation := ⟨merge⟩

def passed : Validation := {}

def error (message : String) : Validation :=
  { isValid := false, errors := [message] }

def warning (message : String) : Validation :=
  { warnings := [message] }

/-- An error if the condition fails. -/
def require (condition : Bool) (message : String) : Validation :=
  if condition then passed else error message

/-- All results in order. -/
def all (results : List Validation) : Validation :=
  results.foldl merge passed

/-- One result for each item, given its number from one on. -/
def each (items : List α) (check : Nat → α → Validation) : Validation :=
  all (items.mapIdx fun i item => check (i + 1) item)

def noun (n : Nat) : String :=
  if n == 1 then "entry" else "entries"

/-- An error unless the number lies between the two bounds. -/
def count (what : String) (n low high : Nat) : Validation :=
  if n < low then error s!"{what} needs at least {low} {noun low}, found {n}"
  else if high < n then error s!"{what} allows at most {high} {noun high}, found {n}"
  else passed

/-- An error if the text is blank or has more characters than allowed. -/
def text (what s : String) (high : Nat) : Validation :=
  if Text.isBlank s then error s!"{what} must not be empty"
  else if high < s.length then error s!"{what} is longer than {high} characters"
  else passed

end Validation

/-- The texts whose key occurred before, given the keys that have occurred. -/
def repeatsAfter (seen : List String) : List String → List String
  | [] => []
  | item :: rest =>
    let key := Text.normalized item
    if seen.contains key then item :: repeatsAfter seen rest
    else repeatsAfter (key :: seen) rest

/-- The texts that repeat an earlier one up to case and white space, each spelling once. -/
def duplicates (items : List String) : List String :=
  (repeatsAfter [] items).eraseDups

end Worksheet
