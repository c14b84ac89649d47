import Worksheet.Proofs.Words.Names

namespace Worksheet.WordLibrary

/-- The sets that go under a name. -/
def ofName (name : String) (sets : List WordSet) : List WordSet :=
  sets.filter fun set => key set.name == name

/-- What stands under a name when sets are merged in order: the words are added to the set that has
the name already, or else to the first one of them. -/
def mergedSet (name : String) (old : Option WordSet) (sets : List WordSet) : Option WordSet :=
  match old, ofName name sets with
  | some old, own => some { old with words := old.words ++ own.flatMap (·.words) }
  | none, [] => none
  | none, first :: own => some ⟨name, first.aliases, first.words ++ own.flatMap (·.words)⟩

theorem mergedSet_nil (name : String) (old : Option WordSet) : mergedSet name old [] = old := by
  cases old with
  | none => rfl
  | some old => simp [mergedSet, ofName]

/-- One set is merged before the others. -/
theorem mergedSet_cons (name : String) (old : Option WordSet) (set : WordSet)
    (rest : List WordSet) :
    mergedSet name old (set :: rest) = mergedSet name (mergedSet name old [set]) rest := by
  by_cases hname : key set.name = name
  · cases old <;> simp [mergedSet, ofName, hname]
  · have hskip : ofName name (set :: rest) = ofName name rest := by simp [ofName, hname]
    have hone : mergedSet name old [set] = old := by
      cases old <;> simp [mergedSet, ofName, hname]
    rw [hone, mergedSet.eq_def, hskip, mergedSet.eq_def]

theorem get?_add (library : WordLibrary) (set : WordSet) (name : String) :
    (library.add set).sets.get? name = mergedSet name (library.sets.get? name) [set] := by
  by_cases hname : key set.name = name
  · subst hname
    rw [add, Keyed.get?_insert_self]
    cases library.sets.get? (key set.name) <;> simp [mergedSet, ofName]
  · rw [add, Keyed.get?_insert_of_ne _ _ (Ne.symm hname)]
    cases library.sets.get? name <;> simp [mergedSet, ofName, hname]

/-- Under each name stands what was merged there. -/
theorem get?_foldl_add (library : WordLibrary) (sets : List WordSet) (name : String) :
    (sets.foldl add library).sets.get? name = mergedSet name (library.sets.get? name) sets := by
  induction sets generalizing library with
  | nil => exact (mergedSet_nil name _).symm
  | cons set rest ih => rw [List.foldl_cons, ih, get?_add, ← mergedSet_cons]

theorem synonyms_foldl_add (library : WordLibrary) (sets : List WordSet) :
    (sets.foldl add library).synonyms =
      (sets.flatMap WordSet.synonyms).foldl (fun acc e => acc.insert e.1 e.2) library.synonyms := by
  induction sets generalizing library with
  | nil => rfl
  | cons set rest ih =>
    rw [List.foldl_cons, ih, synonyms_add, List.flatMap_cons, List.foldl_append]

/-- A library that holds what another one holds and some sets that were merged in order. A synonym
stands for what it was declared for last. -/
structure Merged (library : WordLibrary) (added : List WordSet) (result : WordLibrary) : Prop where
  sets : ∀ name, result.sets.get? name = mergedSet name (library.sets.get? name) added
  synonyms : ∀ name, result.synonyms.get? name =
    ((added.flatMap WordSet.synonyms).reverse.lookup name).or (library.synonyms.get? name)

theorem merged_foldl_add (library : WordLibrary) (sets : List WordSet) :
    Merged library sets (sets.foldl add library) := by
  refine ⟨get?_foldl_add library sets, fun name => ?_⟩
  rw [synonyms_foldl_add, Keyed.get?_foldl_insert]

/-- The table of sets and that of synonyms are in order. -/
structure Ordered (library : WordLibrary) : Prop where
  sets : Keyed.Sorted library.sets
  synonyms : Keyed.Sorted library.synonyms

theorem Ordered.add {library : WordLibrary} (h : Ordered library) (set : WordSet) :
    Ordered (library.add set) := by
  constructor
  · exact h.sets.insert _ _
  · rw [synonyms_add]
    exact h.synonyms.foldl_insert _

theorem Ordered.foldl_add {library : WordLibrary} (h : Ordered library) (sets : List WordSet) :
    Ordered (sets.foldl WordLibrary.add library) := by
  induction sets generalizing library with
  | nil => exact h
  | cons set rest ih => exact ih (h.add set)

theorem ordered_after (decode : String → Except String (List WordSet)) (origin : Origin)
    (changes : List Change) : Ordered (after decode origin changes) := by
  have horigin : Ordered origin.library := by
    refine ⟨origin.sound.sorted, ?_⟩
    cases origin with
    | empty => exact .nil
    | builtin => exact Keyed.Sorted.foldl_insert .nil _
  rw [after_eq_foldl]
  exact horigin.foldl_add _

/-- Sets without words, whose names the library has already and whose synonyms stand for what they
stand for in the library. Of several synonyms of one name the last one counts. -/
structure BringsNothing (library : WordLibrary) (sets : List WordSet) : Prop where
  words : ∀ set ∈ sets, set.words = []
  known : ∀ set ∈ sets, (library.sets.get? (key set.name)).isSome = true
  synonyms : ∀ name target, (sets.flatMap WordSet.synonyms).reverse.lookup name = some target →
    library.synonyms.get? name = some target

theorem mergedSet_eq_self {library : WordLibrary} {sets : List WordSet}
    (h : BringsNothing library sets) (name : String) :
    mergedSet name (library.sets.get? name) sets = library.sets.get? name := by
  have hwords : (ofName name sets).flatMap (·.words) = [] :=
    List.flatMap_eq_nil_iff.2 fun set hs => h.words set (List.mem_of_mem_filter hs)
  cases hold : library.sets.get? name with
  | some old => rw [mergedSet, hwords, List.append_nil]
  | none =>
    have hnone : ofName name sets = [] := by
      rw [ofName, List.filter_eq_nil_iff]
      intro set hs hname
      have hknown := h.known set hs
      rw [eq_of_beq hname, hold] at hknown
      cases hknown
    rw [mergedSet.eq_def, hnone]

/-- A set that goes under a name is there afterwards, and its words are new. -/
theorem of_mergedSet_eq_self {sets : List WordSet} {set : WordSet} (hs : set ∈ sets)
    {old : Option WordSet} (h : mergedSet (key set.name) old sets = old) :
    old.isSome = true ∧ set.words = [] := by
  have hown : set ∈ ofName (key set.name) sets := List.mem_filter.2 ⟨hs, beq_self_eq_true _⟩
  cases old with
  | none =>
    obtain ⟨first, own, hfirst⟩ := List.exists_cons_of_ne_nil (List.ne_nil_of_mem hown)
    rw [mergedSet.eq_def, hfirst] at h
    cases h
  | some old =>
    refine ⟨rfl, ?_⟩
    have hsame := congrArg WordSet.words (Option.some.inj h)
    exact List.flatMap_eq_nil_iff.1 (List.append_right_eq_self.1 hsame) set hown

/-- Merging changes nothing exactly if the sets bring nothing new. -/
theorem Ordered.foldl_add_eq_self_iff {library : WordLibrary} (h : Ordered library)
    {sets : List WordSet} :
    sets.foldl WordLibrary.add library = library ↔ BringsNothing library sets := by
  constructor
  · intro heq
    have hmerged (name : String) :
        mergedSet name (library.sets.get? name) sets = library.sets.get? name := by
      rw [← (merged_foldl_add library sets).sets, heq]
    refine ⟨fun set hs => (of_mergedSet_eq_self hs (hmerged _)).2,
      fun set hs => (of_mergedSet_eq_self hs (hmerged _)).1, fun name target hlast => ?_⟩
    have hget := (merged_foldl_add library sets).synonyms name
    rwa [heq, hlast, Option.some_or] at hget
  · intro hnothing
    have hsets : (sets.foldl WordLibrary.add library).sets = library.sets :=
      (h.foldl_add sets).sets.ext h.sets fun name => by
        rw [get?_foldl_add, mergedSet_eq_self hnothing]
    have hsynonyms : (sets.foldl WordLibrary.add library).synonyms = library.synonyms := by
      refine (h.foldl_add sets).synonyms.ext h.synonyms fun name => ?_
      rw [(merged_foldl_add library sets).synonyms]
      cases hlast : (sets.flatMap WordSet.synonyms).reverse.lookup name with
      | none => rfl
      | some target => exact (hnothing.synonyms name target hlast).symm
    calc sets.foldl WordLibrary.add library
      _ = ⟨(sets.foldl WordLibrary.add library).sets,
            (sets.foldl WordLibrary.add library).synonyms⟩ := rfl
      _ = ⟨library.sets, library.synonyms⟩ := by rw [hsets, hsynonyms]
      _ = library := rfl

/-- What becomes of a library when sets are loaded: all of them have names and are merged, or those
before the first one without a name are, and an error is returned. -/
inductive Loads (library : WordLibrary) (sets : List WordSet) :
    WordLibrary × Except WordError Nat → Prop where
  | whole {result : WordLibrary} (named : ∀ set ∈ sets, Text.isBlank set.name = false)
      (merged : Merged library sets result) : Loads library sets (result, .ok sets.length)
  | cut {result : WordLibrary} {before rest : List WordSet} {nameless : WordSet}
      (fault : sets = before ++ nameless :: rest ∧ Text.isBlank nameless.name = true)
      (named : ∀ set ∈ before, Text.isBlank set.name = false)
      (merged : Merged library before result)
      (unchanged : result = library ↔ BringsNothing library before) :
      Loads library sets (result, .error .nameless)

theorem takeWhile_named {before : List WordSet}
    (h : ∀ set ∈ before, Text.isBlank set.name = false) (rest : List WordSet) :
    (before ++ rest).takeWhile (fun set => !Text.isBlank set.name) =
      before ++ rest.takeWhile fun set => !Text.isBlank set.name := by
  apply List.takeWhile_append_of_pos
  intro set hs
  rw [h set hs, Bool.not_false]

theorem addAll_of_named (library : WordLibrary) {sets : List WordSet}
    (h : ∀ set ∈ sets, Text.isBlank set.name = false) :
    library.addAll sets = (sets.foldl add library, .ok sets.length) := by
  have hall : sets.takeWhile (fun set => !Text.isBlank set.name) = sets := by
    simpa using takeWhile_named h []
  rw [addAll, hall, if_pos rfl]

theorem addAll_of_nameless (library : WordLibrary) {before : List WordSet} {nameless : WordSet}
    (rest : List WordSet) (h : ∀ set ∈ before, Text.isBlank set.name = false)
    (hblank : Text.isBlank nameless.name = true) :
    library.addAll (before ++ nameless :: rest) = (before.foldl add library, .error .nameless) := by
  have hbefore : (before ++ nameless :: rest).takeWhile (fun set => !Text.isBlank set.name) =
      before := by
    rw [takeWhile_named h, List.takeWhile_cons_of_neg (by simp [hblank]), List.append_nil]
  have hshort : before.length ≠ (before ++ nameless :: rest).length := by simp
  rw [addAll, hbefore, if_neg hshort]

/-- All sets have names, or there is a first one without a name. -/
theorem named_or_nameless (sets : List WordSet) :
    (∀ set ∈ sets, Text.isBlank set.name = false) ∨
      ∃ before nameless rest, sets = before ++ nameless :: rest ∧
        (∀ set ∈ before, Text.isBlank set.name = false) ∧ Text.isBlank nameless.name = true := by
  induction sets with
  | nil => exact Or.inl (by simp)
  | cons set rest ih =>
    cases hblank : Text.isBlank set.name with
    | true => exact Or.inr ⟨[], set, rest, rfl, by simp, hblank⟩
    | false =>
      rcases ih with hnamed | ⟨before, nameless, after, rfl, hnamed, hnameless⟩
      · exact Or.inl (List.forall_mem_cons.2 ⟨hblank, hnamed⟩)
      · exact Or.inr ⟨set :: before, nameless, after, rfl,
          List.forall_mem_cons.2 ⟨hblank, hnamed⟩, hnameless⟩

theorem Ordered.loads_addAll {library : WordLibrary} (h : Ordered library) (sets : List WordSet) :
    Loads library sets (library.addAll sets) := by
  rcases named_or_nameless sets with hnamed | ⟨before, nameless, rest, rfl, hnamed, hnameless⟩
  · rw [addAll_of_named library hnamed]
    exact .whole hnamed (merged_foldl_add library sets)
  · rw [addAll_of_nameless library rest hnamed hnameless]
    exact .cut ⟨rfl, hnameless⟩ hnamed (merged_foldl_add library before) h.foldl_add_eq_self_iff

/-- A text that cannot be decoded leaves a library as it is. Of one that can be decoded, all sets
are merged, or those before the first one without a name, and then the library is the one from
before only if these bring nothing new. -/
theorem load_merges_up_to_fault (decode : String → Except String (List WordSet)) (origin : Origin)
    (changes : List Change) (text : String) :
    (∃ reason, decode text = .error reason ∧
        (after decode origin changes).loadWith decode text =
          (after decode origin changes, .error (.malformed reason))) ∨
      ∃ sets, decode text = .ok sets ∧
        Loads (after decode origin changes) sets
          ((after decode origin changes).loadWith decode text) := by
  rw [loadWith]
  cases decode text with
  | error reason => exact Or.inl ⟨reason, rfl, rfl⟩
  | ok sets => exact Or.inr ⟨sets, rfl, (ordered_after decode origin changes).loads_addAll sets⟩

/-- The set before the one without a name stays. -/
theorem failed_load_changes_library :
    let text := "[[library]]\nname = \"a\"\n[[library]]\nname = \" \"\n"
    let decode : String → Except String (List WordSet) := fun other =>
      if other = text then .ok [⟨"a", [], []⟩, ⟨" ", [], []⟩] else .error "another text"
    let library := after decode .empty []
    (library.loadWith decode text).2 = .error .nameless ∧
      (library.loadWith decode text).1 ≠ library := by
  decide +kernel

end Worksheet.WordLibrary
