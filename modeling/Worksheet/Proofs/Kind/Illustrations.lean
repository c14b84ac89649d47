import Worksheet.Proofs.Call.Arguments
import Worksheet.Proofs.Kind.Handling

namespace Worksheet

namespace ContentLine

/-- Lines and illustrations put anywhere between them. -/
inductive Illustrated : List ContentLine → List ContentLine → List ContentLine → Prop where
  | nil : Illustrated [] [] []
  | line (l : ContentLine) {ls added whole : List ContentLine} :
      Illustrated ls added whole → Illustrated (l :: ls) added (l :: whole)
  | illustration {l : ContentLine} {ls added whole : List ContentLine} : l.text = "" →
      Illustrated ls added whole → Illustrated ls (l :: added) (l :: whole)

variable {ls added whole : List ContentLine}

theorem withText_cons_of_empty {l : ContentLine} (h : l.text = "") (ls : List ContentLine) :
    withText (l :: ls) = withText ls := by
  simp [withText, h]

@[simp] theorem withText_withText (ls : List ContentLine) :
    withText (withText ls) = withText ls := by
  simp [withText]

theorem Illustrated.withText_eq (h : Illustrated ls added whole) :
    withText whole = withText ls := by
  induction h with
  | nil => rfl
  | line l _ ih => simp only [withText, List.filter_cons] at ih ⊢; rw [ih]
  | illustration hl _ ih => rw [withText_cons_of_empty hl, ih]

/-- Illustrations without a marker of the kind do not hide the first one. -/
theorem Illustrated.findSome?_marker? (h : Illustrated ls added whole) {kind : MarkerKind}
    (hnone : ∀ l ∈ added, l.marker? kind = none) :
    whole.findSome? (·.marker? kind) = ls.findSome? (·.marker? kind) := by
  induction h with
  | nil => rfl
  | line l _ ih => rw [List.findSome?_cons, List.findSome?_cons, ih hnone]
  | @illustration l _ _ _ _ _ ih =>
    rw [List.findSome?_cons, hnone l (by simp)]
    exact ih fun k hk => hnone k (by simp [hk])

end ContentLine

open ContentLine (Illustrated withText)

/-- A function of lines that looks at those with a text only. -/
def IgnoresIllustrations {α : Type} (f : List ContentLine → α) : Prop :=
  ∀ ls, f (withText ls) = f ls

namespace IgnoresIllustrations

variable {α β : Type} {f : List ContentLine → α}

theorem eq (hf : IgnoresIllustrations f) {ls added whole : List ContentLine}
    (h : Illustrated ls added whole) : f whole = f ls := by
  rw [← hf whole, h.withText_eq, hf ls]

theorem comp (hf : IgnoresIllustrations f) (g : α → β) :
    IgnoresIllustrations fun ls => g (f ls) := by
  intro ls
  dsimp only
  rw [hf ls]

theorem ofContent {parse : List ContentLine → Except ContentError α}
    (h : IgnoresIllustrations parse) {tag : String} {wrap : α → Body} {get? : Body → Option α}
    {validate : α → Validation} {serialize : α → Except ContentError (List String)} :
    IgnoresIllustrations (Handling.ofContent tag wrap get? parse validate serialize).read :=
  h.comp (Except.map wrap)

/-- No line without a text passes a test that the empty text does not pass. -/
theorem any {p : String → Bool} (hp : p "" = false) :
    IgnoresIllustrations fun ls => ls.any fun l => p l.text := by
  intro ls
  dsimp only
  rw [withText, List.any_filter]
  refine List.any_congr rfl fun l => ?_
  by_cases hl : l.text = ""
  · simp [hl, hp]
  · simp [hl]

end IgnoresIllustrations

namespace Selector

theorem detect_ignoresIllustrations : IgnoresIllustrations detect :=
  .any (p := fun text => hasArea text || isTextLine text) (by decide +kernel)

theorem variationOf_ignoresIllustrations : IgnoresIllustrations variationOf :=
  (IgnoresIllustrations.any (p := hasArea) (by decide +kernel)).comp
    fun found => if found then onImage else onText

namespace Image

/-- The address of the first image. -/
def url? (ls : List ContentLine) : Option String :=
  (ls.findSome? (·.marker? .image)).map (·.text)

/-- The areas of all lines. -/
def areas (ls : List ContentLine) : Except ContentError (List ImageArea) :=
  (ls.mapM lineAreas).map List.flatten

/-- What the areas on an image come to, if there is one. -/
def selectionOf (url : Option String) (areas : Except ContentError (List ImageArea)) :
    Except ContentError Selection :=
  match url with
  | none => .error (.noContent "image selector @img(url)")
  | some url => areas.map fun areas => { image := some ⟨url, areas⟩ }

theorem parse_eq (ls : List ContentLine) : parse ls = selectionOf (url? ls) (areas ls) := by
  rw [parse, selectionOf.eq_def, url?, areas]
  cases ls.findSome? (·.marker? .image) with
  | none => rfl
  | some marker => cases ls.mapM lineAreas <;> rfl

theorem areas_cons (l : ContentLine) (ls : List ContentLine) :
    areas (l :: ls) = (lineAreas l).bind fun here => (areas ls).map (here ++ ·) := by
  rw [areas, areas, List.mapM_cons]
  cases lineAreas l with
  | error e => rfl
  | ok here => cases ls.mapM lineAreas <;> rfl

theorem lineAreas_of_empty {l : ContentLine} (h : l.text = "") : lineAreas l = .ok [] := by
  have hcalls : areaCalls "" = .ok [] := by
    rw [areaCalls, Call.findBare, segmentWith, String.toList_empty, CallStyle.scan_nil]
    rfl
  rw [lineAreas, h, hcalls]
  rfl

/-- Lines without a text have no areas. -/
theorem areas_ignoresIllustrations : IgnoresIllustrations areas := by
  intro ls
  induction ls with
  | nil => rfl
  | cons l ls ih =>
    by_cases hl : l.text = ""
    · rw [ContentLine.withText_cons_of_empty hl, areas_cons, lineAreas_of_empty hl, ih]
      cases areas ls <;> rfl
    · have htext : withText (l :: ls) = l :: withText ls := by simp [withText, hl]
      rw [htext, areas_cons, areas_cons, ih]

end Image

end Selector

namespace FillBlank

theorem detect_ignoresIllustrations : IgnoresIllustrations detect := by
  intro ls
  simp only [detect, ContentLine.withText_withText]

theorem parse_ignoresIllustrations : IgnoresIllustrations parse := by
  intro ls
  simp only [parse, ContentLine.withText_withText]

end FillBlank

namespace MultipleChoice

theorem detect_ignoresIllustrations : IgnoresIllustrations detect := by
  intro ls
  simp only [detect, ContentLine.withText_withText]

theorem parse_ignoresIllustrations : IgnoresIllustrations parse := by
  intro ls
  simp only [parse, ContentLine.withText_withText]

end MultipleChoice

namespace Matching

theorem detect_ignoresIllustrations : IgnoresIllustrations detect := by
  intro ls
  simp only [detect, ContentLine.withText_withText]

theorem parse_ignoresIllustrations : IgnoresIllustrations parse := by
  intro ls
  simp only [parse, ContentLine.withText_withText]

end Matching

namespace Categorize

theorem detect_ignoresIllustrations : IgnoresIllustrations detect := by
  intro ls
  simp only [detect, ContentLine.withText_withText]

theorem variationOf_ignoresIllustrations : IgnoresIllustrations variationOf := by
  intro ls
  simp only [variationOf, ContentLine.withText_withText]

theorem parse_ignoresIllustrations : IgnoresIllustrations parse := by
  intro ls
  simp only [parse, ContentLine.withText_withText]

theorem InLake.parse_ignoresIllustrations : IgnoresIllustrations InLake.parse := by
  intro ls
  simp only [InLake.parse, ContentLine.withText_withText]

end Categorize

namespace Ordering

theorem detect_ignoresIllustrations : IgnoresIllustrations detect := by
  intro ls
  simp only [detect, ContentLine.withText_withText]

theorem variationOf_ignoresIllustrations : IgnoresIllustrations variationOf := by
  intro ls
  simp only [variationOf, ContentLine.withText_withText]

theorem parse_ignoresIllustrations : IgnoresIllustrations parse := by
  intro ls
  simp only [parse, ContentLine.withText_withText]

theorem Single.parse_ignoresIllustrations : IgnoresIllustrations Single.parse := by
  intro ls
  simp only [Single.parse, ContentLine.withText_withText]

theorem Aligner.parse_ignoresIllustrations : IgnoresIllustrations Aligner.parse := by
  intro ls
  simp only [Aligner.parse, ContentLine.withText_withText]

end Ordering

theorem Selector.parse_ignoresIllustrations : IgnoresIllustrations Selector.parse := by
  intro ls
  simp only [Selector.parse, ContentLine.withText_withText]

namespace Kind

variable {tag : String} {name : Option String} {h : Handling}

/-- Nothing but the image variation looks at illustrations, and that for its image only. -/
theorem Handles.ignoresIllustrations (hh : Handles tag name h) : IgnoresIllustrations h.read ∨
    (tag = Selector.tag ∧ name = some Selector.onImage ∧ ∀ ls, h.read ls =
      (Selector.Image.selectionOf (Selector.Image.url? ls) (Selector.Image.areas ls)).map
        .selector) := by
  cases hh with
  | onText => exact .inl (.ofContent Selector.parse_ignoresIllustrations)
  | onImage =>
    refine .inr ⟨rfl, rfl, fun ls => ?_⟩
    rw [← Selector.Image.parse_eq]
    rfl
  | fillBlank => exact .inl (.ofContent FillBlank.parse_ignoresIllustrations)
  | multipleChoice => exact .inl (.ofContent MultipleChoice.parse_ignoresIllustrations)
  | categories => exact .inl (.ofContent Categorize.parse_ignoresIllustrations)
  | orderedCategories => exact .inl (.ofContent Categorize.parse_ignoresIllustrations)
  | lake => exact .inl (.ofContent (Categorize.InLake.parse_ignoresIllustrations.comp .ok))
  | matching => exact .inl (.ofContent Matching.parse_ignoresIllustrations)
  | ordering => exact .inl (.ofContent Ordering.parse_ignoresIllustrations)
  | single => exact .inl (.ofContent Ordering.Single.parse_ignoresIllustrations)
  | aligner => exact .inl (.ofContent Ordering.Aligner.parse_ignoresIllustrations)

theorem grammarOf_detect_ignoresIllustrations {α : Type} {wrap : α → Body}
    {get? : Body → Option α} {detect : List ContentLine → Bool}
    {parse : List ContentLine → Except ContentError α} {validate : α → Validation}
    {serialize : α → Except ContentError (List String)} (h : IgnoresIllustrations detect)
    {g : Grammar} (hg : some (grammarOf tag wrap get? detect parse validate serialize) = some g) :
    IgnoresIllustrations g.detect := by
  obtain rfl := Option.some.inj hg
  exact h

/-- No built-in kind looks at illustrations to recognize its content or to pick a variation. -/
theorem builtin_ignoreIllustrations : ∀ s ∈ builtin,
    (∀ g, s.grammar = some g → IgnoresIllustrations g.detect) ∧
      IgnoresIllustrations s.variationOf := by
  intro s hs
  simp only [builtin, List.mem_cons, List.not_mem_nil, or_false] at hs
  rcases hs with rfl | rfl | rfl | rfl | rfl | rfl
  · exact ⟨fun _ => grammarOf_detect_ignoresIllustrations Selector.detect_ignoresIllustrations,
      Selector.variationOf_ignoresIllustrations.comp some⟩
  · exact ⟨fun _ => grammarOf_detect_ignoresIllustrations FillBlank.detect_ignoresIllustrations,
      fun _ => rfl⟩
  · exact ⟨fun _ => grammarOf_detect_ignoresIllustrations
      MultipleChoice.detect_ignoresIllustrations, fun _ => rfl⟩
  · exact ⟨fun _ => grammarOf_detect_ignoresIllustrations Categorize.detect_ignoresIllustrations,
      Categorize.variationOf_ignoresIllustrations.comp some⟩
  · exact ⟨fun _ => grammarOf_detect_ignoresIllustrations Matching.detect_ignoresIllustrations,
      fun _ => rfl⟩
  · exact ⟨fun _ => grammarOf_detect_ignoresIllustrations Ordering.detect_ignoresIllustrations,
      Ordering.variationOf_ignoresIllustrations⟩

end Kind

namespace KindRegistry

variable {tag : String} {k : Kind} {hint : Option String}

theorem ignoreIllustrations_of_mem (hk : k ∈ builtin.kinds) :
    IgnoresIllustrations k.grammar.detect ∧ IgnoresIllustrations k.variationOf := by
  obtain ⟨s, hs, hb⟩ := build_of_mem_builtin hk
  obtain ⟨-, hgrammar, -, hvariationOf, -⟩ := KindSpec.of_build hb
  obtain ⟨hdetect, hown⟩ := Kind.builtin_ignoreIllustrations s hs
  rw [hvariationOf]
  exact ⟨hdetect k.grammar hgrammar, hown⟩

theorem detect?_ignoresIllustrations : IgnoresIllustrations builtin.detect? := by
  intro ls
  refine List.find?_congr fun k hk => ?_
  exact (ignoreIllustrations_of_mem (List.mem_mergeSort.1 hk)).1 ls

theorem chooseVariation_ignoresIllustrations (hk : k ∈ builtin.kinds) :
    IgnoresIllustrations (chooseVariation k hint) := by
  intro ls
  cases hint with
  | none =>
    have hown := (ignoreIllustrations_of_mem hk).2 ls
    rw [chooseVariation, chooseVariation, Kind.detectVariation?, Kind.detectVariation?, hown]
  | some name => rfl

/-- Lines with illustrations between them are of the same kind, and for every kind and variation
they are read as the same content or fail in the same way. Only where areas are picked on an image
does an added image matter, and there it does so for the address alone: the first one in the lines,
of which there must be one. -/
theorem parse_illustrated {ls added whole : List ContentLine} (h : Illustrated ls added whole) :
    builtin.detect? whole = builtin.detect? ls ∧
      ∀ tag hint, builtin.parse tag whole hint = builtin.parse tag ls hint ∨
        (∃ l ∈ added, (l.marker? .image).isSome = true) ∧
        (∃ k v, builtin.get? tag = some k ∧ k.tag = Selector.tag ∧
          chooseVariation k hint ls = .ok (some v) ∧ v.name = Selector.onImage) ∧
        ∀ lines ∈ [ls, whole], builtin.parse tag lines hint =
          (Selector.Image.selectionOf (Selector.Image.url? lines) (Selector.Image.areas ls)).map
            fun selection => ⟨.selector selection, some Selector.onImage⟩ := by
  refine ⟨detect?_ignoresIllustrations.eq h, fun tag hint => ?_⟩
  cases hk : builtin.get? tag with
  | none => exact .inl (by rw [parse, parse, hk])
  | some k =>
    have hmem : k ∈ builtin.kinds := mem_of_get? hk
    have hchosen : chooseVariation k hint whole = chooseVariation k hint ls :=
      (chooseVariation_ignoresIllustrations hmem).eq h
    have hareas : Selector.Image.areas whole = Selector.Image.areas ls :=
      Selector.Image.areas_ignoresIllustrations.eq h
    rw [parse_eq hk, parse_eq hk, hchosen]
    cases hv : chooseVariation k hint ls with
    | error e => exact .inl rfl
    | ok v =>
      have hown : ∀ w, v = some w → w ∈ k.variations := fun w hw =>
        mem_of_chooseVariation (hw ▸ hv)
      rcases (handles_builtin hmem hown).ignoresIllustrations with hread | ⟨htag, hname, hread⟩
      · left
        rw [Except.bind, Except.bind, hread.eq h]
      · by_cases himage : ∃ l ∈ added, (l.marker? .image).isSome = true
        · right
          obtain ⟨w, rfl, hw⟩ := Option.map_eq_some_iff.1 hname
          refine ⟨himage, ⟨k, w, rfl, htag, hv, hw⟩, fun lines hlines => ?_⟩
          have hsame : chooseVariation k hint lines = .ok (some w) ∧
              Selector.Image.areas lines = Selector.Image.areas ls := by
            simp only [List.mem_cons, List.not_mem_nil, or_false] at hlines
            rcases hlines with rfl | rfl
            · exact ⟨hv, rfl⟩
            · exact ⟨hchosen.trans hv, hareas⟩
          rw [parse_eq hk, hsame.1, Except.bind, hread, hsame.2, hname]
          cases Selector.Image.selectionOf (Selector.Image.url? lines) (Selector.Image.areas ls) <;>
            rfl
        · left
          have hnone : ∀ l ∈ added, l.marker? .image = none := by
            intro l hl
            rw [← Option.not_isSome_iff_eq_none]
            exact fun hsome => himage ⟨l, hl, hsome⟩
          have hurl : Selector.Image.url? whole = Selector.Image.url? ls := by
            rw [Selector.Image.url?, Selector.Image.url?, h.findSome?_marker? hnone]
          rw [Except.bind, Except.bind, hread, hread, hurl, hareas]

/-- An illustration between two pairs. -/
theorem parse_illustrated_pairs :
    let first : ContentLine := ⟨"Sun = Sol", [], 2⟩
    let idea : ContentLine := ⟨"", [⟨.idea, "It shines."⟩], 3⟩
    let second : ContentLine := ⟨"Moon = Luna", [], 4⟩
    builtin.detect? [first, idea, second] = builtin.detect? [first, second] ∧
      ∀ tag hint,
        builtin.parse tag [first, idea, second] hint = builtin.parse tag [first, second] hint := by
  intro first idea second
  have h : Illustrated [first, second] [idea] [first, idea, second] :=
    .line first (.illustration rfl (.line second .nil))
  obtain ⟨hdetect, hparse⟩ := parse_illustrated h
  have hnone : ¬ ∃ l ∈ [idea], (l.marker? .image).isSome = true := by decide
  refine ⟨hdetect, fun tag hint => ?_⟩
  exact (hparse tag hint).resolve_right fun himage => hnone himage.1

end KindRegistry

end Worksheet
