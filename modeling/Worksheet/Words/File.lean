import Worksheet.Json.Decode
import Worksheet.Toml.Reader
import Worksheet.Words.Library

namespace Worksheet

namespace WordSet

/-- The sets of a TOML document, which has a table `[[library]]` for each of them. Sets and words
may also be given as arrays of their members. Other entries of the document, and further items of
such arrays, are ignored. -/
def ofToml? (text : String) : Option (List WordSet) := do
  let record ← (← Toml.parse? text).openRecord?
  let word (j : Json) : Option WordEntry := j.openRecord?.bind WordEntry.ofRecord?
  let set (j : Json) : Option WordSet := j.openRecord?.bind (ofRecord? word)
  record.withDefault? 0 "library" [] (Json.list? set)

def ofToml (text : String) : Except String (List WordSet) :=
  match ofToml? text with
  | none => .error "not a table of word sets"
  | some sets => .ok sets

end WordSet

namespace WordLibrary

/-- Adds the sets of a TOML document, and returns how many there are. -/
def load (library : WordLibrary) (text : String) : WordLibrary × Except WordError Nat :=
  library.loadWith WordSet.ofToml text

/-- Adds the sets of documents up to the first that cannot be read. -/
def loadAll (library : WordLibrary) : List String → WordLibrary × Except WordError Unit
  | [] => (library, .ok ())
  | text :: rest =>
    match library.load text with
    | (library, .error e) => (library, .error e)
    | (library, .ok _) => loadAll library rest

end WordLibrary

end Worksheet
