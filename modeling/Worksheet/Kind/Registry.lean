import Worksheet.Keyed
import Worksheet.Kind.Basic

namespace Worksheet

/-- The kinds of exercises that are known, by tag and alias. -/
structure KindRegistry where
  /-- The kinds in the order of their registration. -/
  kinds : List Kind := []
  /-- The places of the kinds by their tags and aliases. -/
  index : Keyed Nat := []

namespace KindRegistry

/-- The kind that has a key as its tag or alias. -/
def owner? (r : KindRegistry) (key : String) : Option Kind :=
  (r.index.get? key).bind (r.kinds[·]?)

/-- The kind of a name, up to case and white space at its ends. -/
def get? (r : KindRegistry) (name : String) : Option Kind :=
  r.owner? (KindSpec.key name)

/-- The tag of the kind that a name stands for. -/
def resolveTag? (r : KindRegistry) (name : String) : Option String :=
  (r.get? name).map (·.tag)

/-- Puts a kind at the end and its names into the index. -/
def enter (r : KindRegistry) (k : Kind) : KindRegistry :=
  let place := r.kinds.length
  ⟨r.kinds ++ [k], k.names.foldl (fun index name => index.insert name place) r.index⟩

/-- Adds a complete kind, unless one of its names is taken. -/
def register (r : KindRegistry) (k : Kind) : KindRegistry × Except RegistryError Unit :=
  match k.check with
  | .error e => (r, .error e)
  | .ok () =>
    if r.index.contains k.tag then (r, .error (.duplicateKind k.tag))
    else
      match k.aliases.findSome? fun name => (r.owner? name).map (name, ·) with
      | some (name, owner) => (r, .error (.duplicateAlias name owner.tag))
      | none => (r.enter k, .ok ())

/-- Builds and adds a kind. -/
def registerSpec (r : KindRegistry) (s : KindSpec) : Except RegistryError KindRegistry := do
  let (r, result) := r.register (← s.build)
  return (← result.map fun () => r)

/-- Adds kinds up to the first that is refused. -/
def registerAll (r : KindRegistry) : List KindSpec → KindRegistry × Except RegistryError Unit
  | [] => (r, .ok ())
  | s :: rest =>
    match r.registerSpec s with
    | .error e => (r, .error e)
    | .ok next => next.registerAll rest

/-- The kinds in increasing order of priority, and those of one priority in the order of their
registration. -/
def byPriority (r : KindRegistry) : List Kind :=
  r.kinds.mergeSort fun j k => j.priority ≤ k.priority

/-- The first kind by priority that recognizes the lines. -/
def detect? (r : KindRegistry) (lines : List ContentLine) : Option Kind :=
  r.byPriority.find? (·.grammar.detect lines)

/-- The variation that is asked for, or else the one picked for the lines. -/
def chooseVariation (k : Kind) (hint : Option String) (lines : List ContentLine) :
    Except ContentError (Option Variation) :=
  match hint with
  | none => .ok (k.detectVariation? lines)
  | some name =>
    match k.variation? name with
    | some v => .ok (some v)
    | none => .error (.unknownVariation k.tag name)

/-- Reads content of a kind. The chosen variation is kept with the content. -/
def parse (r : KindRegistry) (tag : String) (lines : List ContentLine) (hint : Option String) :
    Except ContentError Content :=
  match r.get? tag with
  | none => .error (.unknownKind tag)
  | some k => do
    let variation ← chooseVariation k hint lines
    let read := ((variation.bind (·.grammar)).bind (·.parse)).getD k.grammar.parse
    return ⟨← read lines, variation.map (·.name)⟩

/-- The grammar of the variation that content was read by. -/
def variationGrammar? (k : Kind) (c : Content) : Option VariationGrammar :=
  (c.variation.bind k.variation?).bind (·.grammar)

/-- Checks content by its variation, or else by its kind. -/
def validate (r : KindRegistry) (tag : String) (c : Content) : Validation :=
  match r.get? tag with
  | none => .error s!"unknown exercise type '{tag}'"
  | some k =>
    if c.tag != k.tag then
      .error s!"content of type '{c.tag}' does not match exercise type '{k.tag}'"
    else
      match (variationGrammar? k c).bind (·.validate) with
      | some check => check c.body
      | none =>
        (k.grammar.validate c.body).getD (.error "internal error while validating content")

/-- Writes content as lines, by its variation or else by its kind. -/
def serialize (r : KindRegistry) (tag : String) (c : Content) :
    Except ContentError (List String) :=
  match r.get? tag with
  | none => .error (.unknownKind tag)
  | some k =>
    if c.tag != k.tag then .error (.mismatch k.tag)
    else (((variationGrammar? k c).bind (·.serialize)).getD k.grammar.serialize) c.body

end KindRegistry

end Worksheet
