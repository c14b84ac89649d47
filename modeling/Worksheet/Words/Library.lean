import Worksheet.Keyed
import Worksheet.Random
import Worksheet.Text

namespace Worksheet

structure WordEntry where
  word : String
  category : String
  level : String
  tags : List String
  deriving DecidableEq, Repr

/-- A named collection of words. -/
structure WordSet where
  name : String
  aliases : List String
  words : List WordEntry
  deriving DecidableEq, Repr

/-- Restrictions on words. Without levels, words of every level pass. -/
structure WordFilter where
  levels : List String := []
  /-- A word passes if it has all of these. -/
  tags : List String := []
  deriving DecidableEq, Repr

/-- What can be wrong with a word library or a question to it. -/
inductive WordError where
  | notFound (query restrictions : String)
  | nameless
  /-- The text of the library could not be read. -/
  | malformed (reason : String)
  deriving DecidableEq, Repr

def WordError.message : WordError → String
  | .notFound query restrictions => s!"no words found for '{query}'" ++ restrictions
  | .nameless => "invalid word library: library without a name"
  | .malformed reason => "invalid word library: " ++ reason

namespace WordFilter

def isEmpty (f : WordFilter) : Bool :=
  f.levels.isEmpty && f.tags.isEmpty

def accepts (f : WordFilter) (w : WordEntry) : Bool :=
  (f.levels.isEmpty || f.levels.any (Text.eqIgnoringCase · w.level)) &&
    f.tags.all fun tag => w.tags.any (Text.eqIgnoringCase · tag)

/-- The restrictions in words, empty if there are none. -/
def describe (f : WordFilter) : String :=
  let levels := if f.levels.isEmpty then [] else ["level " ++ Text.join "/" f.levels]
  let tags := if f.tags.isEmpty then [] else ["tags [" ++ Text.join ", " f.tags ++ "]"]
  match levels ++ tags with
  | [] => ""
  | parts => " with " ++ Text.join " and " parts

end WordFilter

/-- Sets of words by their names, and a table of synonyms. -/
structure WordLibrary where
  sets : Keyed WordSet := []
  /-- Names of sets or categories by their synonyms. -/
  synonyms : Keyed String := []
  deriving DecidableEq, Repr

namespace WordLibrary

/-- The form in which names are compared. -/
def key (name : String) : String :=
  Text.lower (Text.trim name)

/-- Adds a set, or its words to the set that has its name already. -/
def add (library : WordLibrary) (set : WordSet) : WordLibrary :=
  let name := key set.name
  let synonyms := set.aliases.foldl (fun table a => table.insert (key a) name) library.synonyms
  let merged := match library.sets.get? name with
    | some old => { old with words := old.words ++ set.words }
    | none => { set with name }
  ⟨library.sets.insert name merged, synonyms⟩

/-- Adds sets up to the first that has no name. The number of sets is returned if all have one. -/
def addAll (library : WordLibrary) (sets : List WordSet) : WordLibrary × Except WordError Nat :=
  let named := sets.takeWhile fun set => !Text.isBlank set.name
  (named.foldl add library,
    if named.length = sets.length then .ok sets.length else .error .nameless)

/-- Adds the sets that a text is decoded to, and returns how many there are. A text that cannot be
decoded changes nothing. -/
def loadWith (decode : String → Except String (List WordSet)) (library : WordLibrary)
    (text : String) : WordLibrary × Except WordError Nat :=
  match decode text with
  | .error reason => (library, .error (.malformed reason))
  | .ok sets => library.addAll sets

/-- The name of a set or category that a query stands for. -/
def canonical (library : WordLibrary) (query : String) : String :=
  (library.synonyms.get? (key query)).getD (key query)

def set? (library : WordLibrary) (name : String) : Option WordSet :=
  library.sets.get? (library.canonical name)

/-- The words of all sets. -/
def words (library : WordLibrary) : List WordEntry :=
  (library.sets.map Prod.snd).flatMap WordSet.words

/-- The words of the set of a name, or else those of the category of that name in all sets, as far
as they pass the filter. -/
def pool (library : WordLibrary) (query : String) (filter : WordFilter) : List WordEntry :=
  let name := library.canonical query
  let candidates := match library.sets.get? name with
    | some set => set.words
    | none => library.words.filter fun w => Text.eqIgnoringCase w.category name
  candidates.filter filter.accepts

/-- Words from distinct places of the pool, as many as asked for but no more than there are. -/
def sample [RandomSource σ] (library : WordLibrary) (query : String) (filter : WordFilter)
    (amount : Nat) (s : σ) : Except WordError (List String) × σ :=
  let pool := library.pool query filter
  if pool.isEmpty then (.error (.notFound (Text.trim query) filter.describe), s)
  else
    let (places, s) := sampleIndices pool.length amount s
    (.ok (places.filterMap fun i => pool[i]?.map (·.word)), s)

end WordLibrary

end Worksheet
