namespace Worksheet

/-- What is wrong with a content line or the line to be written. -/
inductive ContentFault where
  | noBlank (text : String)
  | misplacedBlank (position : Nat) (text : String)
  | notPair (text : String)
  | notQuestion (text : String)
  | badIndex (index : Nat)
  | notSegments (text : String)
  | notCategory (text : String)
  | areaNumber (position : Nat) (name found : String)
  | areaTarget (found : String)
  /-- The message of a fault in the calls of the line. -/
  | call (message : String)
  deriving DecidableEq, Repr

def ContentFault.message : ContentFault → String
  | .noBlank text => s!"no blank found in '{text}' (mark answers as *answer*)"
  | .misplacedBlank position text =>
    s!"blank at position {position} does not point at a placeholder in '{text}'"
  | .notPair text => s!"expected 'left = right' or 'left :: right', found '{text}'"
  | .notQuestion text => s!"expected 'question = a | b | c [answer]', found '{text}'"
  | .badIndex index => s!"correct index {index} is out of bounds"
  | .notSegments text => s!"expected segments separated by '|', found '{text}'"
  | .notCategory text => s!"expected 'Category = item | item', found '{text}'"
  | .areaNumber position name found =>
    s!"area(): argument {position} ({name}) must be a number, got {found}"
  | .areaTarget found => s!"area(): argument 5 (isTarget) must be true or false, got {found}"
  | .call message => message

inductive ContentError where
  | undetectedKind
  | unknownKind (name : String)
  | unknownVariation (tag variation : String)
  | noContent (what : String)
  /-- A fault on a line of the script, or on no line if the number is zero. -/
  | line (number : Nat) (fault : ContentFault)
  | mismatch (tag : String)
  deriving DecidableEq, Repr

def ContentError.message : ContentError → String
  | .undetectedKind => "could not detect the exercise type; set `type` in the metadata"
  | .unknownKind name => s!"unknown exercise type '{name}'"
  | .unknownVariation tag variation => s!"exercise type '{tag}' has no variation '{variation}'"
  | .noContent what => s!"no {what} content found"
  | .line number fault => s!"line {number}: " ++ fault.message
  | .mismatch tag => s!"content is not {tag} content"

end Worksheet
