import Worksheet.Content.Basic
import Worksheet.RegistryError

namespace Worksheet

/-- What a kind does with content. -/
structure Grammar where
  /-- Whether lines look like content of the kind. -/
  detect : List ContentLine → Bool
  parse : List ContentLine → Except ContentError Body
  /-- There is no result if the check itself breaks down. -/
  validate : Body → Option Validation
  /-- Writes content as lines that are read as the same content. -/
  serialize : Body → Except ContentError (List String)

/-- What a variation does in its own way. -/
structure VariationGrammar where
  parse : Option (List ContentLine → Except ContentError Body) := none
  validate : Option (Body → Validation) := none
  serialize : Option (Body → Except ContentError (List String)) := none

/-- A variation of a kind, which may do some of what the kind does in its own way. -/
structure Variation where
  /-- Name without capitals. -/
  name : String
  displayName : String
  grammar : Option VariationGrammar := none

/-- A kind of exercise. -/
structure Kind where
  tag : String
  displayName : String
  /-- Kinds with a lower number are tried first. -/
  priority : Nat
  /-- Instructions of exercises that have none of their own. -/
  instructions : String
  aliases : List String
  grammar : Grammar
  variations : List Variation
  defaultVariation : Option String
  /-- Picks a variation by its name. -/
  variationOf : List ContentLine → Option String

namespace Kind

/-- The variation of a name, up to case and white space at its ends. -/
def variation? (k : Kind) (name : String) : Option Variation :=
  k.variations.find? fun v => Text.eqIgnoringCase v.name (Text.trim name)

/-- The variation picked for some lines, or else the default one. -/
def detectVariation? (k : Kind) (lines : List ContentLine) : Option Variation :=
  ((k.variationOf lines).bind k.variation?).or (k.defaultVariation.bind k.variation?)

/-- All names of the kind. -/
def names (k : Kind) : List String :=
  k.tag :: k.aliases

/-- Whether the kind is complete. -/
def check (k : Kind) : Except RegistryError Unit :=
  if k.tag.isEmpty then .error .missingTag
  else if Text.isBlank k.displayName then .error (.missingDisplayName k.tag)
  else
    match k.defaultVariation with
    | none => .ok ()
    | some name =>
      if (k.variation? name).isSome then .ok ()
      else .error (.unknownDefaultVariation k.tag name)

end Kind

/-- The description of a kind, which may be incomplete. -/
structure KindSpec where
  tag : String
  displayName : Option String := none
  priority : Nat := 100
  instructions : Option String := none
  aliases : List String := []
  grammar : Option Grammar := none
  variations : List Variation := []
  defaultVariation : Option String := none
  variationOf : List ContentLine → Option String := fun _ => none

namespace KindSpec

/-- The form in which tags and aliases are compared. -/
def key (name : String) : String :=
  Text.asciiLower (Text.trim name)

/-- The kind, if the description is complete. -/
def build (s : KindSpec) : Except RegistryError Kind := do
  let tag := key s.tag
  if tag.isEmpty then .error .missingTag else
  match s.grammar, s.displayName with
  | none, _ => .error (.missingGrammar tag)
  | some _, none => .error (.missingDisplayName tag)
  | some grammar, some displayName =>
    if Text.isBlank displayName then .error (.missingDisplayName tag) else
    let kind : Kind := {
      tag, displayName, grammar
      priority := s.priority
      instructions := s.instructions.getD
        ("Complete the " ++ Text.lower displayName ++ " exercise.")
      aliases := s.aliases.map key
      variations := s.variations.map fun v => { v with name := Text.asciiLower v.name }
      defaultVariation := s.defaultVariation.map Text.asciiLower
      variationOf := s.variationOf }
    kind.check.map fun _ => kind

end KindSpec

end Worksheet
