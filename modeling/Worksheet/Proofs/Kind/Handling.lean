import Worksheet.Proofs.Kind.Variation

namespace Worksheet

/-- How content is read, checked and written. -/
structure Handling where
  read : List ContentLine → Except ContentError Body
  check : Body → Validation
  write : Body → Except ContentError (List String)

/-- The handling of content of type `α`, where `get?` takes the content out of a body. -/
def Handling.ofContent {α : Type} (tag : String) (wrap : α → Body) (get? : Body → Option α)
    (parse : List ContentLine → Except ContentError α) (validate : α → Validation)
    (serialize : α → Except ContentError (List String)) : Handling where
  read lines := (parse lines).map wrap
  check := Kind.checkOf tag get? validate
  write := Kind.writeOf tag get? serialize

/-- The handling of a variation that does some of this in its own way. -/
def Handling.varied (own : Handling) (g : Option VariationGrammar) : Handling where
  read := (g.bind (·.parse)).getD own.read
  check := (g.bind (·.validate)).getD own.check
  write := (g.bind (·.serialize)).getD own.write

namespace Kind

/-- How a kind handles content in a variation, or without one. -/
def handling (k : Kind) (v : Option Variation) : Handling :=
  ⟨k.readAs v, k.checkAs v, k.writeAs v⟩

/-- The handlings of the built-in kinds, with the tag of the kind and the name of the variation. -/
inductive Handles : String → Option String → Handling → Prop where
  | onText (name : Option String) : Handles Selector.tag name
      (.ofContent Selector.tag .selector Body.selector? Selector.parse Selector.validate
        (.ok ∘ Selector.serialize))
  | onImage : Handles Selector.tag (some Selector.onImage)
      (.ofContent Selector.tag .selector Body.selector? Selector.Image.parse
        Selector.Image.validate Selector.Image.serialize)
  | fillBlank (name : Option String) : Handles FillBlank.tag name
      (.ofContent FillBlank.tag .fillBlank Body.fillBlank? FillBlank.parse FillBlank.validate
        FillBlank.serialize)
  | multipleChoice (name : Option String) : Handles MultipleChoice.tag name
      (.ofContent MultipleChoice.tag .multipleChoice Body.multipleChoice? MultipleChoice.parse
        MultipleChoice.validate MultipleChoice.serialize)
  | categories (name : Option String) : Handles Categorize.tag name
      (.ofContent Categorize.tag .categorize Body.categorize? Categorize.parse Categorize.validate
        (.ok ∘ Categorize.serialize))
  | orderedCategories : Handles Categorize.tag (some Categorize.ordering)
      (.ofContent Categorize.tag .categorize Body.categorize? Categorize.parse
        Categorize.validateOrdered (.ok ∘ Categorize.serialize))
  | lake : Handles Categorize.tag (some Categorize.lake)
      (.ofContent Categorize.tag .categorize Body.categorize? (.ok ∘ Categorize.InLake.parse)
        Categorize.InLake.validate (.ok ∘ Categorize.InLake.serialize))
  | matching (name : Option String) : Handles Matching.tag name
      (.ofContent Matching.tag .matching Body.matching? Matching.parse Matching.validate
        (.ok ∘ Matching.serialize))
  | ordering (name : Option String) : Handles Ordering.tag name
      (.ofContent Ordering.tag .ordering Body.ordering? Ordering.parse Ordering.validate
        (.ok ∘ Ordering.serialize))
  | single : Handles Ordering.tag (some Ordering.single)
      (.ofContent Ordering.tag .ordering Body.ordering? Ordering.Single.parse
        Ordering.Single.validate (.ok ∘ Ordering.Single.serialize))
  | aligner : Handles Ordering.tag (some Ordering.aligner)
      (.ofContent Ordering.tag .ordering Body.ordering? Ordering.Aligner.parse Ordering.validate
        (.ok ∘ Ordering.Aligner.serialize))

variable {α : Type} {tag : String} {wrap : α → Body} {get? : Body → Option α}
  {detect : List ContentLine → Bool} {parse : List ContentLine → Except ContentError α}
  {validate : α → Validation} {serialize : α → Except ContentError (List String)}
  {k : Kind} {v : Option Variation}

theorem eq_none_of_nil {variations : List Variation} (hnil : variations = [])
    (hv : ∀ w, v = some w → w ∈ variations) : v = none := by
  cases v with
  | none => rfl
  | some w =>
    have hw := hv w rfl
    rw [hnil] at hw
    cases hw

/-- A variation handles content in its own way as far as it has one, and elsewhere as its kind. -/
theorem handling_eq (hk : k.grammar = grammarOf tag wrap get? detect parse validate serialize)
    (v : Option Variation) : k.handling v =
      (Handling.ofContent tag wrap get? parse validate serialize).varied (v.bind (·.grammar)) := by
  have hread : k.readAs v = ((v.bind (·.grammar)).bind (·.parse)).getD
      (Handling.ofContent tag wrap get? parse validate serialize).read := by
    rw [readAs, hk]
    rfl
  have hwrite : k.writeAs v = ((v.bind (·.grammar)).bind (·.serialize)).getD
      (Handling.ofContent tag wrap get? parse validate serialize).write := by
    rw [writeAs, hk]
    rfl
  have hcheck : k.checkAs v = ((v.bind (·.grammar)).bind (·.validate)).getD
      (Handling.ofContent tag wrap get? parse validate serialize).check := by
    funext body
    rw [checkAs.eq_def, hk]
    cases (v.bind (·.grammar)).bind (·.validate) with
    | some check => rfl
    | none =>
      simp only [grammarOf, Option.getD_none, Handling.ofContent, checkOf]
      cases get? body <;> rfl
  rw [handling, hread, hcheck, hwrite]
  rfl

end Kind

open Kind in
/-- Each built-in kind handles content in each of its variations as it is listed. -/
theorem KindSpec.handles_of_build {s : KindSpec} (hs : s ∈ builtin) {k : Kind}
    (h : s.build = .ok k) {v : Option Variation} (hv : ∀ w, v = some w → w ∈ k.variations) :
    Handles k.tag (v.map (·.name)) (k.handling v) := by
  obtain ⟨-, hg, -⟩ := of_build h
  rw [tag_of_build hs h]
  rw [(namesVariations_of_build hs h).1] at hv
  clear h
  simp only [builtin, List.mem_cons, List.not_mem_nil, or_false] at hs
  rcases hs with rfl | rfl | rfl | rfl | rfl | rfl
  · rw [handling_eq (Option.some.inj hg).symm]
    cases v with
    | none => exact .onText none
    | some w =>
      have hw := hv w rfl
      simp only [selector, List.mem_cons, List.not_mem_nil, or_false] at hw
      rcases hw with rfl | rfl
      · exact .onText _
      · exact .onImage
  · rw [handling_eq (Option.some.inj hg).symm, eq_none_of_nil rfl hv]
    exact .fillBlank none
  · rw [handling_eq (Option.some.inj hg).symm, eq_none_of_nil rfl hv]
    exact .multipleChoice none
  · rw [handling_eq (Option.some.inj hg).symm]
    cases v with
    | none => exact .categories none
    | some w =>
      have hw := hv w rfl
      simp only [categorize, List.mem_cons, List.not_mem_nil, or_false] at hw
      rcases hw with rfl | rfl | rfl
      · exact .categories _
      · exact .orderedCategories
      · exact .lake
  · rw [handling_eq (Option.some.inj hg).symm, eq_none_of_nil rfl hv]
    exact .matching none
  · rw [handling_eq (Option.some.inj hg).symm]
    cases v with
    | none => exact .ordering none
    | some w =>
      have hw := hv w rfl
      simp only [ordering, List.mem_cons, List.not_mem_nil, or_false] at hw
      rcases hw with rfl | rfl
      · exact .single
      · exact .aligner

namespace KindRegistry

variable {tag : String} {k : Kind} {lines : List ContentLine} {hint : Option String}

theorem handles_builtin (hk : k ∈ builtin.kinds) {v : Option Variation}
    (hv : ∀ w, v = some w → w ∈ k.variations) :
    Kind.Handles k.tag (v.map (·.name)) (k.handling v) := by
  obtain ⟨s, hs, hb⟩ := build_of_mem_builtin hk
  exact KindSpec.handles_of_build hs hb hv

/-- What a kind reads, it reads in the chosen variation. -/
theorem parse_eq {r : KindRegistry} (hk : r.get? tag = some k) :
    r.parse tag lines hint = (chooseVariation k hint lines).bind fun v =>
      ((k.handling v).read lines).map fun body => ⟨body, v.map (·.name)⟩ := by
  simp only [parse, hk]
  cases chooseVariation k hint lines with
  | error e => rfl
  | ok v =>
    have hread : ((v.bind (·.grammar)).bind (·.parse)).getD k.grammar.parse =
        (k.handling v).read := rfl
    simp only [hread, bind, Except.bind]
    cases (k.handling v).read lines <;> rfl

end KindRegistry

end Worksheet
