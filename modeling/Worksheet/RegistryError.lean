namespace Worksheet

/-- Why a kind of exercise or a function may not be registered. -/
inductive RegistryError where
  | missingTag
  | missingDisplayName (tag : String)
  | missingGrammar (tag : String)
  | unknownDefaultVariation (tag variation : String)
  | duplicateKind (tag : String)
  | duplicateAlias (name owner : String)
  | duplicateFunction (name : String)
  deriving DecidableEq, Repr

def RegistryError.message : RegistryError → String
  | .missingTag => "type descriptor is missing its tag"
  | .missingDisplayName tag => s!"type descriptor '{tag}' is missing a display name"
  | .missingGrammar tag => s!"type descriptor '{tag}' is missing its grammar"
  | .unknownDefaultVariation tag variation =>
    s!"type descriptor '{tag}' names undefined default variation '{variation}'"
  | .duplicateKind tag => s!"exercise type '{tag}' is already registered"
  | .duplicateAlias name owner => s!"alias '{name}' is already taken by '{owner}'"
  | .duplicateFunction name => s!"function '{name}' is already registered"

end Worksheet
