import Worksheet.Words.Library

namespace Worksheet.WordLibrary

def entry (word category level : String) (tags : List String := []) : WordEntry :=
  ⟨word, category, level, tags⟩

def animalsWords : List WordEntry :=
  [entry "cat" "mammals" "A1" ["pets", "home"],
   entry "dog" "mammals" "A1" ["pets", "home"],
   entry "cow" "mammals" "A1" ["farm"],
   entry "horse" "mammals" "A1" ["farm"],
   entry "pig" "mammals" "A1" ["farm"],
   entry "sheep" "mammals" "A2" ["farm"],
   entry "rabbit" "mammals" "A2" ["pets"],
   entry "elephant" "mammals" "A2" ["wild"],
   entry "giraffe" "mammals" "B1" ["wild"],
   entry "squirrel" "mammals" "B1" ["wild"],
   entry "hedgehog" "mammals" "B2" ["wild"],
   entry "duck" "birds" "A1" ["farm"],
   entry "chicken" "birds" "A1" ["farm"],
   entry "parrot" "birds" "A2" ["pets"],
   entry "owl" "birds" "B1" ["wild"],
   entry "eagle" "birds" "B1" ["wild"],
   entry "fish" "fish" "A1" ["pets", "water"],
   entry "shark" "fish" "A2" ["wild", "water"],
   entry "salmon" "fish" "B1" ["water"],
   entry "bee" "insects" "A2" ["garden"],
   entry "butterfly" "insects" "A2" ["garden"],
   entry "ant" "insects" "A2" ["garden"],
   entry "ladybird" "insects" "B2" ["garden"],
   entry "dragonfly" "insects" "C1" ["water"]]

def colorsWords : List WordEntry :=
  [entry "red" "colors" "A1" ["basic", "warm"],
   entry "blue" "colors" "A1" ["basic", "cool"],
   entry "green" "colors" "A1" ["basic", "cool"],
   entry "yellow" "colors" "A1" ["basic", "warm"],
   entry "black" "colors" "A1" ["basic"],
   entry "white" "colors" "A1" ["basic"],
   entry "orange" "colors" "A1" ["warm"],
   entry "pink" "colors" "A1" ["warm"],
   entry "purple" "colors" "A2" ["cool"],
   entry "brown" "colors" "A2" ["warm"],
   entry "grey" "colors" "A2" ["neutral"],
   entry "turquoise" "colors" "B2" ["cool"],
   entry "beige" "colors" "B2" ["neutral"],
   entry "crimson" "colors" "C1" ["warm"]]

def fruitsWords : List WordEntry :=
  [entry "apple" "fruit" "A1" ["food"],
   entry "banana" "fruit" "A1" ["food", "tropical"],
   entry "pear" "fruit" "A1" ["food"],
   entry "grape" "fruit" "A2" ["food"],
   entry "peach" "fruit" "A2" ["food"],
   entry "mango" "fruit" "A2" ["food", "tropical"],
   entry "pineapple" "fruit" "A2" ["food", "tropical"],
   entry "orange" "citrus" "A1" ["food"],
   entry "lemon" "citrus" "A1" ["food"],
   entry "lime" "citrus" "B1" ["food"],
   entry "grapefruit" "citrus" "B1" ["food"],
   entry "strawberry" "berries" "A1" ["food", "summer"],
   entry "raspberry" "berries" "B1" ["food", "summer"],
   entry "blueberry" "berries" "B1" ["food", "summer"],
   entry "gooseberry" "berries" "C1" ["food"]]

def verbsWords : List WordEntry :=
  [entry "run" "movement" "A1" ["sport"],
   entry "walk" "movement" "A1",
   entry "swim" "movement" "A1" ["sport"],
   entry "jump" "movement" "A1" ["sport"],
   entry "climb" "movement" "A2" ["sport"],
   entry "wander" "movement" "B2",
   entry "say" "communication" "A1" ["irregular"],
   entry "speak" "communication" "A1" ["irregular"],
   entry "ask" "communication" "A1",
   entry "explain" "communication" "A2",
   entry "whisper" "communication" "B1",
   entry "persuade" "communication" "B2",
   entry "eat" "daily-routine" "A1" ["irregular"],
   entry "sleep" "daily-routine" "A1" ["irregular"],
   entry "cook" "daily-routine" "A1" ["kitchen"],
   entry "wash" "daily-routine" "A1",
   entry "commute" "daily-routine" "B2" ["work"]]

def jobsWords : List WordEntry :=
  [entry "doctor" "health" "A1" ["hospital"],
   entry "nurse" "health" "A1" ["hospital"],
   entry "dentist" "health" "A2",
   entry "surgeon" "health" "B2" ["hospital"],
   entry "teacher" "education" "A1" ["school"],
   entry "student" "education" "A1" ["school"],
   entry "librarian" "education" "B1" ["school"],
   entry "lecturer" "education" "C1" ["university"],
   entry "cook" "services" "A1" ["kitchen"],
   entry "waiter" "services" "A1" ["restaurant"],
   entry "driver" "services" "A1",
   entry "police officer" "services" "A2",
   entry "firefighter" "services" "A2",
   entry "plumber" "services" "B1" ["trade"],
   entry "electrician" "services" "B1" ["trade"],
   entry "accountant" "services" "B2" ["office"]]

/-- Synonyms of the names of built-in sets and categories. -/
def builtinSynonyms : List (String × String) :=
  [("animal", "animals"), ("pets", "animals"), ("creatures", "animals"),
   ("color", "colors"), ("colour", "colors"), ("colours", "colors"),
   ("fruit", "fruits"), ("verb", "verbs"), ("actions", "verbs"),
   ("job", "jobs"), ("professions", "jobs"), ("occupations", "jobs"),
   ("mammal", "mammals"), ("bird", "birds"), ("insect", "insects"),
   ("berry", "berries")]

/-- The library of the built-in sets. -/
def builtin : WordLibrary :=
  let sets : List WordSet :=
    [⟨"animals", [], animalsWords⟩,
     ⟨"colors", [], colorsWords⟩,
     ⟨"fruits", [], fruitsWords⟩,
     ⟨"verbs", [], verbsWords⟩,
     ⟨"jobs", [], jobsWords⟩]
  let library := sets.foldl add {}
  { library with synonyms := Keyed.ofList builtinSynonyms }

end Worksheet.WordLibrary
