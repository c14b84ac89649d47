import Worksheet.Proofs.Kind.Handling
import Worksheet.Proofs.Validation.Rules

namespace Worksheet

namespace KindSpec

/-- The variation of a name, up to case and white space at its ends. -/
def variation? (s : KindSpec) (name : String) : Option Variation :=
  s.variations.find? fun v => Text.eqIgnoringCase v.name (Text.trim name)

/-- The check of a built-in kind in the variation that a content names. -/
theorem validate_builtin {s : KindSpec} (hs : s ∈ Kind.builtin) {α : Type} {wrap : α → Body}
    {get? : Body → Option α} {detect : List ContentLine → Bool}
    {parse : List ContentLine → Except ContentError α} {validate : α → Validation}
    {serialize : α → Except ContentError (List String)}
    (hg : s.grammar = some (Kind.grammarOf s.tag wrap get? detect parse validate serialize))
    {c : Content} (hc : c.tag = s.tag) : KindRegistry.builtin.validate s.tag c =
      (((c.variation.bind s.variation?).bind (·.grammar)).bind (·.validate)).getD
        (Kind.checkOf s.tag get? validate) c.body := by
  obtain ⟨k, hb, hk, htag, hvariations, -⟩ := KindRegistry.exists_builtin s hs
  have hgrammar : k.grammar = Kind.grammarOf s.tag wrap get? detect parse validate serialize :=
    Option.some.inj ((of_build hb).2.1.symm.trans hg)
  have hnamed : k.variation? = s.variation? := by
    funext name
    rw [Kind.variation?, variation?, hvariations]
  rw [KindRegistry.validate_eq hk (hc.trans htag.symm) rfl, hnamed]
  exact congrFun (congrArg Handling.check (Kind.handling_eq hgrammar _)) c.body

end KindSpec

/-- Whether a content names a variation, up to case and white space at its ends. -/
def Content.names (c : Content) (name : String) : Bool :=
  c.variation.any fun own => Text.eqIgnoringCase name (Text.trim own)

/-- A name is equal to no two different names. -/
theorem Text.eqIgnoringCase_eq_false {name other own : String}
    (h : eqIgnoringCase name own = true) (hne : eqIgnoringCase other name = false) :
    eqIgnoringCase other own = false := by
  have hlower : asciiLower name = asciiLower own := eq_of_beq h
  rw [eqIgnoringCase, ← hlower]
  exact hne

variable {variation : Option String}

theorem FillBlank.validate_builtin (sentences : List FillSentence) :
    KindRegistry.builtin.validate tag ⟨.fillBlank sentences, variation⟩ = validate sentences := by
  refine (KindSpec.validate_builtin (s := Kind.fillBlank) (by simp [Kind.builtin]) rfl rfl).trans ?_
  cases variation <;> rfl

theorem Matching.validate_builtin (pairs : List MatchPair) :
    KindRegistry.builtin.validate tag ⟨.matching pairs, variation⟩ = validate pairs := by
  refine (KindSpec.validate_builtin (s := Kind.matching) (by simp [Kind.builtin]) rfl rfl).trans ?_
  cases variation <;> rfl

theorem MultipleChoice.validate_builtin (questions : List ChoiceQuestion) :
    KindRegistry.builtin.validate tag ⟨.multipleChoice questions, variation⟩ =
      validate questions := by
  refine (KindSpec.validate_builtin (s := Kind.multipleChoice) (by simp [Kind.builtin]) rfl
    rfl).trans ?_
  cases variation <;> rfl

/-- Of the variations of orderings, only the one for single letters has a check of its own. -/
theorem Ordering.validate_builtin (sentences : List OrderingSentence) :
    KindRegistry.builtin.validate tag ⟨.ordering sentences, variation⟩ =
      if Content.names ⟨.ordering sentences, variation⟩ single then Single.validate sentences
      else validate sentences := by
  refine (KindSpec.validate_builtin (s := Kind.ordering) (by simp [Kind.builtin]) rfl rfl).trans ?_
  cases variation with
  | none => rfl
  | some own =>
    rw [Content.names, Option.any_some, Option.bind_some, KindSpec.variation?, Kind.ordering,
      List.find?_cons, List.find?_cons, List.find?_nil]
    generalize Text.eqIgnoringCase single (Text.trim own) = isSingle
    generalize Text.eqIgnoringCase aligner (Text.trim own) = isAligner
    cases isSingle with
    | true => rfl
    | false => cases isAligner <;> rfl

/-- The base check is for sentences without a variation and for those of the aligner. -/
example (sentences : List OrderingSentence) :
    Content.names ⟨.ordering sentences, none⟩ Ordering.single = false ∧
      Content.names ⟨.ordering sentences, some Ordering.aligner⟩ Ordering.single = false ∧
      Content.names ⟨.ordering sentences, some " Single"⟩ Ordering.single = true :=
  ⟨rfl, rfl, rfl⟩

/-- Of the variations of categories, the ordered one and the lake have checks of their own. -/
theorem Categorize.validate_builtin (categories : Categories) :
    KindRegistry.builtin.validate tag ⟨.categorize categories, variation⟩ =
      if Content.names ⟨.categorize categories, variation⟩ lake then InLake.validate categories
      else if Content.names ⟨.categorize categories, variation⟩ ordering then
        validateOrdered categories
      else validate categories := by
  refine (KindSpec.validate_builtin (s := Kind.categorize) (by simp [Kind.builtin]) rfl
    rfl).trans ?_
  cases variation with
  | none => rfl
  | some own =>
    -- The names exclude each other, so that their order in the list does not matter.
    have hordered (h : Text.eqIgnoringCase ordering (Text.trim own) = true) :
        Text.eqIgnoringCase original (Text.trim own) = false :=
      Text.eqIgnoringCase_eq_false h (by decide)
    have hlake (h : Text.eqIgnoringCase lake (Text.trim own) = true) :
        Text.eqIgnoringCase original (Text.trim own) = false ∧
          Text.eqIgnoringCase ordering (Text.trim own) = false :=
      ⟨Text.eqIgnoringCase_eq_false h (by decide), Text.eqIgnoringCase_eq_false h (by decide)⟩
    rw [Content.names, Content.names, Option.any_some, Option.any_some, Option.bind_some,
      KindSpec.variation?, Kind.categorize, List.find?_cons, List.find?_cons, List.find?_cons,
      List.find?_nil]
    generalize Text.eqIgnoringCase original (Text.trim own) = isOriginal at *
    generalize Text.eqIgnoringCase ordering (Text.trim own) = isOrdering at *
    generalize Text.eqIgnoringCase lake (Text.trim own) = isLake at *
    cases isLake with
    | true =>
      obtain ⟨rfl, rfl⟩ := hlake rfl
      rfl
    | false =>
      cases isOrdering with
      | true =>
        obtain rfl := hordered rfl
        rfl
      | false => cases isOriginal <;> rfl

/-- Content passes exactly if it keeps to the rules of its kind, whatever variation it names. The
variation for single letters has rules of its own. -/
theorem KindRegistry.validate_accepts_allowed (variation : Option String) :
    (∀ sentences : List FillSentence,
      (builtin.validate FillBlank.tag ⟨.fillBlank sentences, variation⟩).isValid = true ↔
        FillBlank.Allowed sentences) ∧
    (∀ pairs : List MatchPair,
      (builtin.validate Matching.tag ⟨.matching pairs, variation⟩).isValid = true ↔
        Matching.Allowed pairs) ∧
    (∀ questions : List ChoiceQuestion,
      (builtin.validate MultipleChoice.tag ⟨.multipleChoice questions, variation⟩).isValid = true ↔
        MultipleChoice.Allowed questions) ∧
    ∀ sentences : List OrderingSentence,
      (builtin.validate Ordering.tag ⟨.ordering sentences, variation⟩).isValid = true ↔
        if Content.names ⟨.ordering sentences, variation⟩ Ordering.single then
          Ordering.Single.Allowed sentences
        else Ordering.Allowed sentences := by
  refine ⟨fun sentences => ?_, fun pairs => ?_, fun questions => ?_, fun sentences => ?_⟩
  · rw [FillBlank.validate_builtin, FillBlank.isValid_validate_iff]
  · rw [Matching.validate_builtin, Matching.isValid_validate_iff]
  · rw [MultipleChoice.validate_builtin, MultipleChoice.isValid_validate_iff]
  · rw [Ordering.validate_builtin]
    split
    · exact Ordering.Single.isValid_validate_iff
    · exact Ordering.isValid_validate_iff

end Worksheet
