import Worksheet.Proofs.Kind.Handling
import Worksheet.Proofs.Matching.RoundTrip

namespace Worksheet

variable {l : ContentLine}

namespace ContentLine

theorem withText_singleton (h : l.text ≠ "") : withText [l] = [l] := by
  simp [withText, h]

/-- A single line passes a test of lines with a text if it has a text and passes it. -/
theorem any_withText_singleton {p : String → Bool} :
    ((withText [l]).any fun l => p l.text) = true ↔ l.text ≠ "" ∧ p l.text = true := by
  by_cases h : l.text = ""
  · simp [withText, h]
  · simp [withText, h]

/-- A line with a text that is read by itself is read as content of one item. -/
theorem exists_read_singleton {α β : Type} {read : ContentLine → Except ContentError α}
    (hl : l.text ≠ "") (h : ∃ a, read l = .ok a) (e : ContentError) (wrap : List α → β) :
    ∃ b, ((withText [l]).mapM read >>= fun found =>
      if found.isEmpty then .error e else .ok (wrap found)) = .ok b := by
  obtain ⟨a, ha⟩ := h
  have hread : [l].mapM read = .ok [a] := mapM_eq_ok_iff.2 (.cons ha .nil)
  rw [withText_singleton hl]
  exact ⟨wrap [a], bind_nonempty_eq_ok_iff.2 ⟨[a], hread, by simp, rfl⟩⟩

end ContentLine

open ContentLine (withText any_withText_singleton exists_read_singleton)

namespace Selector

theorem ne_empty_of_isTextLine {text : String} (h : isTextLine text = true) : text ≠ "" := by
  rintro rfl
  exact absurd h (by decide)

theorem exists_parse_of_detect (harea : hasArea l.text = false) (h : detect [l] = true) :
    ∃ s, parse [l] = .ok s := by
  have htext : isTextLine l.text = true := by simpa [detect, harea] using h
  rw [parse, ContentLine.withText_singleton (ne_empty_of_isTextLine htext)]
  exact ⟨_, rfl⟩

end Selector

namespace FillBlank

theorem exists_parse_of_detect (h : detect [l] = true) : ∃ s, parse [l] = .ok s := by
  obtain ⟨hl, hsome⟩ :=
    (any_withText_singleton (p := fun text => (parseSentence text).isSome)).1 h
  obtain ⟨s, hs⟩ := Option.isSome_iff_exists.1 hsome
  have hline : sentenceLine l = .ok s := by rw [sentenceLine, hs]
  exact exists_read_singleton hl ⟨s, hline⟩ (.noContent tag) id

end FillBlank

namespace MultipleChoice

theorem exists_parse_of_detect (h : detect [l] = true) : ∃ q, parse [l] = .ok q := by
  obtain ⟨hl, hq⟩ := any_withText_singleton.1 h
  simp only [qualifies, Bool.and_eq_true] at hq
  obtain ⟨⟨hbar, -⟩, hequals⟩ := hq
  have hsplit : (Chars.splitOnce '=' l.text.toList).isSome = true :=
    Chars.isSome_splitOnce_iff.2 (by simpa [Text.contains] using hequals)
  obtain ⟨q, hq⟩ : ∃ q, parseQuestion l.text = some q := by
    rw [← Option.isSome_iff_exists, parseQuestion, Option.isSome_map]
    exact hsplit
  have hline : questionLine l = .ok q := by rw [questionLine, if_pos hbar, hq]
  exact exists_read_singleton hl ⟨q, hline⟩ (.noContent tag) id

end MultipleChoice

namespace Matching

theorem isSome_splitPair_of_qualifies {text : String} (h : qualifies text = true) :
    (splitPair text.toList).isSome = true := by
  rw [Option.isSome_iff_ne_none, ne_eq, splitPair_eq_none_iff]
  rintro ⟨hequals, hcolons⟩
  simp only [qualifies, Bool.or_eq_true, Bool.and_eq_true] at h
  rcases h with hinside | ⟨hinside, -⟩
  · exact hcolons (Chars.occursIn_iff.1 hinside)
  · exact hequals (by simpa [Text.contains] using hinside)

theorem exists_parse_of_detect (h : detect [l] = true) : ∃ p, parse [l] = .ok p := by
  obtain ⟨hl, hpair⟩ := any_withText_singleton.1 h
  obtain ⟨p, hp⟩ : ∃ p, parsePair l.text = some p := by
    rw [← Option.isSome_iff_exists, parsePair, Option.isSome_map]
    exact isSome_splitPair_of_qualifies hpair
  have hline : pairLine l = .ok p := by rw [pairLine, if_pos hpair, hp]
  exact exists_read_singleton hl ⟨p, hline⟩ (.noContent tag) id

end Matching

namespace Categorize

theorem exists_parseCategory_of_isPiped {text : String} (h : isPiped text = true) :
    ∃ c, parseCategory text = some c := by
  simp only [isPiped, Bool.and_eq_true] at h
  obtain ⟨-, hpiped⟩ := h
  split at hpiped
  · rename_i name items hsplit
    simp only [Bool.and_eq_true, Bool.not_eq_true'] at hpiped
    rw [parseCategory, hsplit]
    exact ⟨_, if_neg (by simp [hpiped.1])⟩
  · cases hpiped

theorem exists_parse_of_isPiped (hl : l.text ≠ "") (h : isPiped l.text = true) :
    ∃ c, parse [l] = .ok c := by
  obtain ⟨c, hc⟩ := exists_parseCategory_of_isPiped h
  have hline : categoryLine l = .ok c := by rw [categoryLine, hc]
  exact exists_read_singleton hl ⟨c, hline⟩ (.noContent tag) fun categories =>
    ({ categories } : Categories)

/-- A single line is a lake, which is made of any lines, or a category, and none of an order. -/
theorem cases_of_detect (h : detect [l] = true) : variationOf [l] = lake ∨
    variationOf [l] = original ∧ ∃ c, parse [l] = .ok c := by
  obtain ⟨hl, hline⟩ :=
    (any_withText_singleton (p := fun text => startsLake text || isPiped text)).1 h
  have hfew : ¬ 2 ≤ ([l].filter fun l => isOrdered l.text).length := by
    have hle : ([l].filter fun l => isOrdered l.text).length ≤ 1 := List.length_filter_le _ [l]
    omega
  rw [variationOf, ContentLine.withText_singleton hl]
  cases hlake : startsLake l.text with
  | true => exact .inl (by simp [hlake])
  | false =>
    have hpiped : isPiped l.text = true := by simpa [hlake] using hline
    exact .inr ⟨by simp [hlake, hfew], exists_parse_of_isPiped hl hpiped⟩

end Categorize

namespace Ordering

theorem exists_parse_of_qualifies (hl : l.text ≠ "") (h : qualifies l.text = true) :
    ∃ s, parse [l] = .ok s := by
  have hline : segmentLine l = .ok ⟨Text.pieces '|' l.text⟩ := by rw [segmentLine, if_pos h]
  exact exists_read_singleton hl ⟨_, hline⟩ (.noContent tag) id

theorem exists_parse_of_isSingleWord (hl : l.text ≠ "") (h : isSingleWord l.text = true) :
    ∃ s, Single.parse [l] = .ok s := by
  have hline : Single.wordLine l = .ok ⟨l.text.toList.map fun c => String.ofList [c]⟩ := by
    rw [Single.wordLine, if_pos h]
  exact exists_read_singleton hl ⟨_, hline⟩ (.noContent tag) id

theorem exists_parse_of_hasAlign (hl : l.text ≠ "") (h : hasAlign l.text = true) :
    ∃ s, Aligner.parse [l] = .ok s := by
  rw [hasAlign] at h
  cases hcalls : alignCalls l.text with
  | error e =>
    rw [hcalls] at h
    cases h
  | ok calls =>
    rw [hcalls] at h
    have hsome : calls.isEmpty = false := by simpa using h
    obtain ⟨first, rest, rfl⟩ := List.exists_cons_of_ne_nil (by simpa using hsome : calls ≠ [])
    have hsentences : Aligner.sentences [] [l] =
        .ok ((first :: rest).map fun c => ⟨c.arguments.map (·.value.render)⟩) := by
      rw [Aligner.sentences, hcalls]
      simp [Aligner.sentences, Aligner.flush, Except.map]
    rw [Aligner.parse, ContentLine.withText_singleton hl, hsentences]
    exact ⟨_, rfl⟩

/-- A single line lists its segments in a call, is a word, or has segments between bars. -/
theorem cases_of_detect (h : detect [l] = true) :
    variationOf [l] = some aligner ∧ (∃ s, Aligner.parse [l] = .ok s) ∨
      variationOf [l] = some single ∧ (∃ s, Single.parse [l] = .ok s) ∨
        variationOf [l] = none ∧ ∃ s, parse [l] = .ok s := by
  have hl : l.text ≠ "" := by
    intro hempty
    simp [detect, withText, hempty] at h
  rw [detect, ContentLine.withText_singleton hl] at h
  rw [variationOf, ContentLine.withText_singleton hl]
  cases halign : hasAlign l.text with
  | true => exact .inl ⟨by simp [halign], exists_parse_of_hasAlign hl halign⟩
  | false =>
    cases hword : isSingleWord l.text with
    | true => exact .inr (.inl ⟨by simp [halign, hword], exists_parse_of_isSingleWord hl hword⟩)
    | false =>
      have hbars : qualifies l.text = true := by simpa [halign, hword] using h
      exact .inr (.inr ⟨by simp [halign, hword], exists_parse_of_qualifies hl hbars⟩)

end Ordering

namespace Kind

variable {k : Kind} {lines : List ContentLine}

/-- The variation whose name is picked for lines. -/
theorem detectVariation?_of_name (hk : k.NamesVariations) {v : Variation} (hv : v ∈ k.variations)
    (h : k.variationOf lines = some v.name) : k.detectVariation? lines = some v := by
  have hname : k.variation? v.name = some v := hk v hv
  rw [detectVariation?, h, Option.bind_some, hname, Option.some_or]

theorem detectVariation?_of_none (h : k.variationOf lines = none)
    (hdefault : k.defaultVariation = none) : k.detectVariation? lines = none := by
  rw [detectVariation?, h, hdefault]
  rfl

variable {α : Type} {tag : String} {wrap : α → Body} {get? : Body → Option α}
  {detect : List ContentLine → Bool} {parse : List ContentLine → Except ContentError α}
  {validate : α → Validation} {serialize : α → Except ContentError (List String)}

theorem exists_map (h : ∃ a, parse lines = .ok a) (wrap : α → Body) :
    ∃ body, (parse lines).map wrap = .ok body := by
  obtain ⟨a, ha⟩ := h
  exact ⟨wrap a, map_eq_ok_iff.2 ⟨a, ha, rfl⟩⟩

/-- What a kind reads by itself, it reads in all variations that do not read in their own way. -/
theorem exists_readAs (hk : k.grammar = grammarOf tag wrap get? detect parse validate serialize)
    {v : Option Variation} (hv : (v.bind (·.grammar)).bind (·.parse) = none)
    (h : ∃ a, parse lines = .ok a) : ∃ body, k.readAs v lines = .ok body := by
  rw [readAs, hv, hk]
  exact exists_map h wrap

end Kind

open Kind in
/-- A built-in kind reads a line that it recognizes and that has no areas. -/
theorem KindSpec.exists_readAs_of_detect {s : KindSpec} (hs : s ∈ builtin) {k : Kind}
    (h : s.build = .ok k) (harea : Selector.hasArea l.text = false)
    (hdetect : k.grammar.detect [l] = true) :
    ∃ body, k.readAs (k.detectVariation? [l]) [l] = .ok body := by
  obtain ⟨-, hg, -, hof, hdefault, -⟩ := of_build h
  obtain ⟨hvariations, hnames⟩ := namesVariations_of_build hs h
  have hchosen : ∀ v ∈ s.variations, s.variationOf [l] = some v.name →
      k.detectVariation? [l] = some v := by
    intro v hv hname
    rw [← hvariations] at hv
    rw [← hof] at hname
    exact detectVariation?_of_name hnames hv hname
  have hnone : s.variationOf [l] = none → s.defaultVariation = none →
      k.detectVariation? [l] = none := by
    intro hpicked hd
    rw [hd] at hdefault
    exact detectVariation?_of_none (by rw [hof, hpicked]) hdefault
  clear h
  -- One case for each kind, in the order in which they are tried.
  simp only [builtin, List.mem_cons, List.not_mem_nil, or_false] at hs
  rcases hs with rfl | rfl | rfl | rfl | rfl | rfl
  all_goals
    have hown := (Option.some.inj hg).symm
    rw [hown] at hdetect
  · have hname : Selector.variationOf [l] = Selector.onText := by
      simp [Selector.variationOf, harea]
    rw [hchosen _ List.mem_cons_self (congrArg some hname)]
    exact exists_readAs hown rfl (Selector.exists_parse_of_detect harea hdetect)
  · rw [hnone rfl rfl]
    exact exists_readAs hown rfl (FillBlank.exists_parse_of_detect hdetect)
  · rw [hnone rfl rfl]
    exact exists_readAs hown rfl (MultipleChoice.exists_parse_of_detect hdetect)
  · rcases Categorize.cases_of_detect hdetect with hlake | ⟨hname, hread⟩
    · -- A lake is made of the lines whatever they are.
      rw [hchosen _ (List.mem_cons_of_mem _ (List.mem_cons_of_mem _ List.mem_cons_self))
        (congrArg some hlake)]
      exact ⟨_, rfl⟩
    · rw [hchosen _ List.mem_cons_self (congrArg some hname)]
      exact exists_readAs hown rfl hread
  · rw [hnone rfl rfl]
    exact exists_readAs hown rfl (Matching.exists_parse_of_detect hdetect)
  · rcases Ordering.cases_of_detect hdetect with ⟨hname, hread⟩ | ⟨hname, hread⟩ | ⟨hname, hread⟩
    · -- The two variations of an order read in their own way.
      rw [hchosen _ (List.mem_cons_of_mem _ List.mem_cons_self) hname]
      exact exists_map hread .ordering
    · rw [hchosen _ List.mem_cons_self hname]
      exact exists_map hread .ordering
    · rw [hnone hname rfl]
      exact exists_readAs hown rfl hread

namespace KindRegistry

/-- The built-in kinds are registered in the order in which they are tried. -/
theorem byPriority_builtin : builtin.byPriority = builtin.kinds := by
  have hsorted : (builtin.kinds.map (·.priority)).Pairwise (· ≤ ·) := by decide +kernel
  rw [List.pairwise_map] at hsorted
  exact List.mergeSort_of_pairwise (hsorted.imp fun {j k} hle => by simpa using hle)

theorem detect?_builtin (lines : List ContentLine) :
    builtin.detect? lines = builtin.kinds.find? (·.grammar.detect lines) := by
  rw [detect?, byPriority_builtin]

/-- A line that is recognized and has no areas is read as the kind that recognizes it, in the
variation that the kind picks. -/
theorem parse_detected {k : Kind} (h : builtin.detect? [l] = some k)
    (harea : Selector.hasArea l.text = false) : ∃ c, builtin.parse k.tag [l] none = .ok c := by
  have hmem : k ∈ builtin.kinds := mem_of_detect? h
  have hfound : builtin.get? k.tag = some k := foundByTag_builtin k hmem
  have hdetect : k.grammar.detect [l] = true :=
    List.find?_some (p := fun j : Kind => j.grammar.detect [l]) h
  obtain ⟨s, hs, hb⟩ := build_of_mem_builtin hmem
  obtain ⟨body, hbody⟩ := KindSpec.exists_readAs_of_detect hs hb harea hdetect
  refine ⟨⟨body, (k.detectVariation? [l]).map (·.name)⟩, ?_⟩
  exact (parse_eq_ok_iff hfound).2 ⟨k.detectVariation? [l], rfl, hbody, rfl⟩

/-- A line for the variation `aligner`, which the grammar of the kind itself does not read. -/
theorem parse_detected_align :
    let l : ContentLine := ⟨"align(I, \"like, tea\")", [], 3⟩
    Selector.hasArea l.text = false ∧ ∃ k, builtin.detect? [l] = some k ∧
      k.tag = Ordering.tag ∧ ∃ c, builtin.parse k.tag [l] none = .ok c := by
  intro l
  have harea : Selector.hasArea l.text = false := by decide +kernel
  have hfound : (builtin.detect? [l]).map (·.tag) = some Ordering.tag := by
    rw [detect?_builtin]
    decide +kernel
  obtain ⟨k, hk, htag⟩ := Option.map_eq_some_iff.1 hfound
  exact ⟨harea, k, hk, htag, parse_detected hk harea⟩

/-- A line with areas is recognized, and it is not read if it shows no image. -/
theorem parse_of_hasArea (harea : Selector.hasArea l.text = true)
    (himage : l.marker? .image = none) : ∃ k, builtin.detect? [l] = some k ∧
      builtin.parse k.tag [l] none = .error (.noContent "image selector @img(url)") := by
  obtain ⟨k, hb, hfound, htag, hvariations, hnames⟩ :=
    exists_builtin Kind.selector (by simp [Kind.builtin])
  obtain ⟨-, hg, -, hof, -⟩ := KindSpec.of_build hb
  have hfirst : builtin.kinds.head? = some k := by
    have hbuilt : builtin.kinds.head? = Kind.selector.build.toOption := rfl
    rw [hbuilt, hb]
    rfl
  obtain ⟨rest, hkinds⟩ := List.head?_eq_some_iff.1 hfirst
  have hdetect : k.grammar.detect [l] = true := by
    rw [← Option.some.inj hg]
    simp [Kind.grammarOf, Selector.detect, harea]
  have hpicked : k.variationOf [l] = some Selector.onImage := by
    rw [hof]
    simp [Kind.selector, Selector.variationOf, harea]
  obtain ⟨v, hv, hname, hown⟩ : ∃ v ∈ k.variations, v.name = Selector.onImage ∧
      k.readAs (some v) = fun lines => (Selector.Image.parse lines).map .selector := by
    rw [hvariations]
    exact ⟨_, List.mem_cons_of_mem _ List.mem_cons_self, rfl, rfl⟩
  have hchosen : chooseVariation k none [l] = .ok (some v) :=
    congrArg Except.ok (Kind.detectVariation?_of_name hnames hv (hname ▸ hpicked))
  have hread : (k.handling (some v)).read [l] =
      .error (.noContent "image selector @img(url)") := by
    show k.readAs (some v) [l] = _
    rw [hown]
    simp [Selector.Image.parse, himage, Except.map]
  refine ⟨k, ?_, ?_⟩
  · rw [detect?_builtin, hkinds]
    exact List.find?_cons_of_pos hdetect
  · rw [htag, parse_eq hfound, hchosen, Except.bind, hread]
    rfl

end KindRegistry

end Worksheet
