import Mathlib.Data.List.Find
import Worksheet.Proofs.Kind.Handling
import Worksheet.Proofs.Move.Content

namespace Worksheet

theorem ReadsAnywhere.map {α β : Type} {read : List ContentLine → Except ContentError α}
    (h : ReadsAnywhere read) (wrap : α → β) : ReadsAnywhere fun ls => (read ls).map wrap := by
  intro r ls
  dsimp only
  rw [h r ls]
  cases read ls <;> rfl

/-- What is found in lines is the same wherever the lines stand. -/
def SeesNoPlaces {α : Type} (f : List ContentLine → α) : Prop :=
  ∀ (r : Relocation) (ls : List ContentLine), f (ls.map (ContentLine.relocate r)) = f ls

structure Kind.IgnoresPlaces (k : Kind) : Prop where
  detect : SeesNoPlaces k.grammar.detect
  variationOf : SeesNoPlaces k.variationOf
  read : ∀ v, (∀ w, v = some w → w ∈ k.variations) → ReadsAnywhere (k.handling v).read

namespace Kind

theorem Handles.readsAnywhere {tag : String} {name : Option String} {h : Handling}
    (hh : Handles tag name h) : ReadsAnywhere h.read := by
  cases hh with
  | onText => exact Selector.parse_readsAnywhere.map _
  | onImage => exact Selector.Image.parse_readsAnywhere.map _
  | fillBlank => exact FillBlank.parse_readsAnywhere.map _
  | multipleChoice => exact MultipleChoice.parse_readsAnywhere.map _
  | categories => exact Categorize.parse_readsAnywhere.map _
  | orderedCategories => exact Categorize.parse_readsAnywhere.map _
  | lake =>
    intro r ls
    simp [Handling.ofContent, Categorize.InLake.parse_relocate, Except.map, Except.mapError]
  | matching => exact Matching.parse_readsAnywhere.map _
  | ordering => exact Ordering.parse_readsAnywhere.map _
  | single => exact Ordering.Single.parse_readsAnywhere.map _
  | aligner => exact Ordering.Aligner.parse_readsAnywhere.map _

theorem grammarOf_detect_seesNoPlaces {α : Type} {tag : String} {wrap : α → Body}
    {get? : Body → Option α} {detect : List ContentLine → Bool}
    {parse : List ContentLine → Except ContentError α} {validate : α → Validation}
    {serialize : α → Except ContentError (List String)} (h : SeesNoPlaces detect) {g : Grammar}
    (hg : some (grammarOf tag wrap get? detect parse validate serialize) = some g) :
    SeesNoPlaces g.detect := by
  obtain rfl := Option.some.inj hg
  exact h

/-- The built-in kinds are recognized by no places. -/
theorem builtin_seeNoPlaces : ∀ s ∈ builtin,
    (∀ g, s.grammar = some g → SeesNoPlaces g.detect) ∧ SeesNoPlaces s.variationOf := by
  intro s hs
  simp only [builtin, List.mem_cons, List.not_mem_nil, or_false] at hs
  rcases hs with rfl | rfl | rfl | rfl | rfl | rfl
  · exact ⟨fun _ => grammarOf_detect_seesNoPlaces Selector.detect_relocate,
      fun r ls => congrArg some (Selector.variationOf_relocate r ls)⟩
  · exact ⟨fun _ => grammarOf_detect_seesNoPlaces FillBlank.detect_relocate, fun _ _ => rfl⟩
  · exact ⟨fun _ => grammarOf_detect_seesNoPlaces MultipleChoice.detect_relocate, fun _ _ => rfl⟩
  · exact ⟨fun _ => grammarOf_detect_seesNoPlaces Categorize.detect_relocate,
      fun r ls => congrArg some (Categorize.variationOf_relocate r ls)⟩
  · exact ⟨fun _ => grammarOf_detect_seesNoPlaces Matching.detect_relocate, fun _ _ => rfl⟩
  · exact ⟨fun _ => grammarOf_detect_seesNoPlaces Ordering.detect_relocate,
      Ordering.variationOf_relocate⟩

end Kind

namespace KindRegistry

/-- No kind of the registry looks at places. -/
def IgnoresPlaces (r : KindRegistry) : Prop :=
  ∀ k ∈ r.kinds, k.IgnoresPlaces

theorem builtin_ignoresPlaces : builtin.IgnoresPlaces := by
  intro k hk
  obtain ⟨s, hs, hb⟩ := build_of_mem_builtin hk
  obtain ⟨-, hgrammar, -, hvariationOf, -⟩ := KindSpec.of_build hb
  obtain ⟨hdetect, hown⟩ := Kind.builtin_seeNoPlaces s hs
  rw [← hvariationOf] at hown
  exact ⟨hdetect k.grammar hgrammar, hown, fun _ hv => (handles_builtin hk hv).readsAnywhere⟩

variable {kinds : KindRegistry}

theorem IgnoresPlaces.detect? (h : kinds.IgnoresPlaces) : SeesNoPlaces kinds.detect? := by
  intro r ls
  refine List.find?_congr fun k hk => ?_
  exact (h k (List.mem_mergeSort.1 hk)).detect r ls

theorem chooseVariation_readsAnywhere {k : Kind} (h : k.IgnoresPlaces) (hint : Option String) :
    ReadsAnywhere (chooseVariation k hint) := by
  intro r ls
  rw [chooseVariation.eq_def, chooseVariation.eq_def]
  cases hint with
  | none =>
    dsimp only
    rw [Kind.detectVariation?, Kind.detectVariation?, h.variationOf r ls]
    rfl
  | some name =>
    dsimp only
    split <;> rfl

theorem IgnoresPlaces.parse_readsAnywhere (h : kinds.IgnoresPlaces) (tag : String)
    (hint : Option String) : ReadsAnywhere fun ls => kinds.parse tag ls hint := by
  intro r ls
  dsimp only
  cases hk : kinds.get? tag with
  | none =>
    rw [parse, parse, hk]
    rfl
  | some k =>
    have hkind := h k (mem_of_get? hk)
    rw [parse_eq hk, parse_eq hk, chooseVariation_readsAnywhere hkind hint r ls]
    cases hc : chooseVariation k hint ls with
    | error e => rfl
    | ok v =>
      have hmem : ∀ w, v = some w → w ∈ k.variations := fun w hw =>
        mem_of_chooseVariation (hw ▸ hc)
      have hread := (hkind.read v hmem).map fun body =>
        ({ body, variation := v.map (·.name) } : Content)
      exact hread r ls

end KindRegistry

end Worksheet
