import Worksheet.Proofs.Chars.Lowercase
import Worksheet.Proofs.Keyed
import Worksheet.Words.Builtin

namespace Worksheet

/-- The synonyms that a set brings along. -/
def WordSet.synonyms (set : WordSet) : List (String × String) :=
  set.aliases.map fun a => (WordLibrary.key a, WordLibrary.key set.name)

namespace WordLibrary

theorem key_key (name : String) : key (key name) = key name := by
  have htight : Chars.Tight (Chars.lower (Chars.trim name.toList)) :=
    (Chars.tight_trim name.toList).lower
  simp only [key, Text.lower, Text.trim, String.toList_ofList]
  rw [htight.trim_eq, Chars.lower_lower]

/-- A change to a library: a set is added, or the sets that a text is decoded to are. -/
inductive Change where
  | add (set : WordSet)
  | load (text : String)

namespace Change

variable (decode : String → Except String (List WordSet))

/-- The sets that a change adds. Of a text these are the sets up to the first without a name. -/
def sets : Change → List WordSet
  | .add set => [set]
  | .load text =>
    match decode text with
    | .error _ => []
    | .ok sets => sets.takeWhile fun set => !Text.isBlank set.name

def apply (library : WordLibrary) : Change → WordLibrary
  | .add set => library.add set
  | .load text => (library.loadWith decode text).1

theorem apply_eq_foldl (library : WordLibrary) (change : Change) :
    change.apply decode library = (change.sets decode).foldl WordLibrary.add library := by
  cases change with
  | add set => rfl
  | load text =>
    rw [apply, sets, loadWith]
    cases decode text with
    | error reason => rfl
    | ok sets => rfl

end Change

/-- Where the changes to a library begin. -/
inductive Origin where
  | empty
  | builtin

def Origin.library : Origin → WordLibrary
  | .empty => {}
  | .builtin => .builtin

def Origin.synonyms : Origin → List (String × String)
  | .empty => []
  | .builtin => builtinSynonyms

section Runs

variable (decode : String → Except String (List WordSet))

/-- The library after changes. -/
def after (origin : Origin) (changes : List Change) : WordLibrary :=
  changes.foldl (Change.apply decode) origin.library

/-- All synonyms that have been declared, with what they stand for, in order. -/
def declared (origin : Origin) (changes : List Change) : List (String × String) :=
  origin.synonyms ++ (changes.flatMap (Change.sets decode)).flatMap WordSet.synonyms

theorem after_eq_foldl (origin : Origin) (changes : List Change) : after decode origin changes =
    (changes.flatMap (Change.sets decode)).foldl add origin.library := by
  rw [after, List.foldl_flatMap]
  congr 1
  funext library change
  exact change.apply_eq_foldl decode library

end Runs

/-- A library in which each set is entered under its name and each synonym stands for what was
declared last. -/
structure Sound (library : WordLibrary) (declared : List (String × String)) : Prop where
  sorted : Keyed.Sorted library.sets
  named : ∀ e ∈ library.sets, e.2.name = e.1
  keyed : ∀ e ∈ library.sets, key e.1 = e.1
  synonyms : ∀ name, library.synonyms.get? name = declared.reverse.lookup name

theorem synonyms_add (library : WordLibrary) (set : WordSet) : (library.add set).synonyms =
    set.synonyms.foldl (fun acc e => acc.insert e.1 e.2) library.synonyms := by
  rw [WordSet.synonyms, List.foldl_map]
  rfl

namespace Sound

variable {library : WordLibrary} {declared : List (String × String)}

theorem exists_merged (h : Sound library declared) (set : WordSet) : ∃ merged : WordSet,
    (library.add set).sets = library.sets.insert (key set.name) merged ∧
      merged.name = key set.name := by
  cases hold : library.sets.get? (key set.name) with
  | none => exact ⟨{ set with name := key set.name }, by simp [WordLibrary.add, hold], rfl⟩
  | some old =>
    exact ⟨{ old with words := old.words ++ set.words }, by simp [WordLibrary.add, hold],
      h.named _ (Keyed.mem_of_get? hold)⟩

theorem add (h : Sound library declared) (set : WordSet) :
    Sound (library.add set) (declared ++ set.synonyms) := by
  obtain ⟨merged, hsets, hmerged⟩ := h.exists_merged set
  refine ⟨?_, ?_, ?_, ?_⟩
  · rw [hsets]
    exact h.sorted.insert _ _
  · intro e he
    rw [hsets] at he
    rcases Keyed.mem_of_mem_insert he with rfl | he
    · exact hmerged
    · exact h.named e he
  · intro e he
    rw [hsets] at he
    rcases Keyed.mem_of_mem_insert he with rfl | he
    · exact key_key set.name
    · exact h.keyed e he
  · intro name
    rw [synonyms_add, Keyed.get?_foldl_insert, h.synonyms, List.reverse_append, List.lookup_append]

theorem foldl (h : Sound library declared) (sets : List WordSet) :
    Sound (sets.foldl WordLibrary.add library) (declared ++ sets.flatMap WordSet.synonyms) := by
  induction sets generalizing library declared with
  | nil => simpa using h
  | cons set rest ih =>
    have hrest := ih (h.add set)
    rwa [List.append_assoc] at hrest

end Sound

theorem sound_empty : Sound {} [] :=
  ⟨.nil, by simp, by simp, fun _ => rfl⟩

theorem sound_builtin : Sound builtin builtinSynonyms := by
  rw [builtin]
  generalize [_, _, _, _, _] = sets
  have hfold := sound_empty.foldl sets
  refine ⟨hfold.sorted, hfold.named, hfold.keyed, fun name => ?_⟩
  have hget := Keyed.get?_foldl_insert builtinSynonyms [] name
  rwa [Keyed.get?, Option.or_none] at hget

theorem Origin.sound (origin : Origin) : Sound origin.library origin.synonyms := by
  cases origin with
  | empty => exact sound_empty
  | builtin => exact sound_builtin

theorem after_sound (decode : String → Except String (List WordSet)) (origin : Origin)
    (changes : List Change) :
    Sound (after decode origin changes) (declared decode origin changes) := by
  rw [after_eq_foldl]
  exact origin.sound.foldl _

/-- The synonyms are asked first, so that only they can lead away from the set that stands under its
name. -/
theorem Sound.found_iff {library : WordLibrary} {declared : List (String × String)}
    (h : Sound library declared) {set : WordSet} (hset : set ∈ library.sets.map (·.2)) :
    (library.set? set.name = some set ∧ library.pool set.name {} = set.words) ↔
      ∀ target, declared.reverse.lookup set.name = some target → target = set.name := by
  obtain ⟨e, hmem, rfl⟩ := List.mem_map.1 hset
  have hname : e.2.name = e.1 := h.named e hmem
  have hget : library.sets.get? e.1 = some e.2 := h.sorted.get?_of_mem hmem
  have hcanonical : library.canonical e.1 = (declared.reverse.lookup e.1).getD e.1 := by
    rw [canonical, h.keyed e hmem, h.synonyms]
  rw [hname]
  constructor
  · rintro ⟨hfound, -⟩ target htarget
    rw [set?, hcanonical, htarget, Option.getD_some] at hfound
    exact (h.named _ (Keyed.mem_of_get? hfound)).symm.trans hname
  · intro hdeclared
    have hown : library.canonical e.1 = e.1 := by
      rw [hcanonical]
      cases htarget : declared.reverse.lookup e.1 with
      | none => rfl
      | some target => exact hdeclared target htarget
    have hwords : e.2.words.filter (WordFilter.accepts {}) = e.2.words :=
      List.filter_eq_self.2 fun _ _ => rfl
    refine ⟨by rw [set?, hown, hget], ?_⟩
    rw [pool, hown, hget]
    exact hwords

/-- After any changes, whatever texts are decoded to, each set that a library lists is found under
its own name, with exactly its words, if and only if the synonym that was declared last for this
name, if there is one, stands for this name. -/
theorem found_by_name_iff (decode : String → Except String (List WordSet)) (origin : Origin)
    (changes : List Change) {set : WordSet}
    (h : set ∈ (after decode origin changes).sets.map (·.2)) :
    ((after decode origin changes).set? set.name = some set ∧
        (after decode origin changes).pool set.name {} = set.words) ↔
      ∀ target, (declared decode origin changes).reverse.lookup set.name = some target →
        target = set.name :=
  (after_sound decode origin changes).found_iff h

/-- A text with one set, and what it is decoded to. -/
def toolsText : String :=
  "[[library]]\nname = \" Tools \"\naliases = [\"Pets\"]\n"

def decodeTools (text : String) : Except String (List WordSet) :=
  if text = toolsText then .ok [⟨" Tools ", ["Pets"], []⟩] else .error "another text"

/-- The text takes a built-in synonym for its set, and a set of the name of the synonym takes it
back. -/
def petSets : List Change :=
  [.load toolsText, .add ⟨"Pets", ["pets"], [entry "hamster" "mammals" "A1"]⟩]

theorem found_by_name_taken_back :
    let set : WordSet := ⟨"pets", ["pets"], [entry "hamster" "mammals" "A1"]⟩
    let library := after decodeTools .builtin petSets
    (declared decodeTools .builtin petSets).filter (·.1 == "pets") =
        [("pets", "animals"), ("pets", "tools"), ("pets", "pets")] ∧
      set ∈ library.sets.map (·.2) ∧ library.set? set.name = some set ∧
      library.pool set.name {} = set.words := by
  intro set library
  have hmem : set ∈ library.sets.map (·.2) := by decide +kernel
  have hlast : (declared decodeTools .builtin petSets).reverse.lookup set.name = some "pets" := by
    decide +kernel
  refine ⟨by decide +kernel, hmem, (found_by_name_iff decodeTools .builtin petSets hmem).2 ?_⟩
  intro target htarget
  exact (Option.some.inj (hlast.symm.trans htarget)).symm

/-- The built-in synonym hides the set of its name. -/
theorem synonym_hides_set :
    let set : WordSet := ⟨"pets", [], [entry "hamster" "mammals" "A1"]⟩
    let library := after decodeTools .builtin [.add set]
    set ∈ library.sets.map (·.2) ∧ library.set? set.name = some ⟨"animals", [], animalsWords⟩ ∧
      ¬ (library.set? set.name = some set ∧ library.pool set.name {} = set.words) := by
  intro set library
  have hmem : set ∈ library.sets.map (·.2) := by decide +kernel
  have hfound : library.set? set.name = some ⟨"animals", [], animalsWords⟩ := by decide +kernel
  refine ⟨hmem, hfound, ?_⟩
  rintro ⟨hset, -⟩
  have hname := congrArg WordSet.name (Option.some.inj (hfound.symm.trans hset))
  exact absurd hname (by decide)

end WordLibrary

end Worksheet
