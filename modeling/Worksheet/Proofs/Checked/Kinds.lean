import Worksheet.Proofs.Checked.Content
import Worksheet.Proofs.Kind.Variation

namespace Worksheet.Checked

variable {α : Type}

/-- Some line satisfies a test. Lines after the first that does are not tested. -/
def anyLine (p : ContentLine → Option Bool) : List ContentLine → Option Bool
  | [] => some false
  | l :: rest => do if ← p l then return true else anyLine p rest

theorem anyLine_eq {p : ContentLine → Option Bool} {q : ContentLine → Bool}
    (h : ∀ l, p l = some (q l)) (lines : List ContentLine) :
    anyLine p lines = some (lines.any q) := by
  induction lines with
  | nil => rfl
  | cons l rest ih =>
    rw [anyLine, h, ih, List.any_cons]
    cases q l <;> rfl

/-- What a kind does with lines. -/
structure Grammar where
  detect : List ContentLine → Option Bool
  parse : List ContentLine → OptionT (Except ContentError) Body
  variationOf : List ContentLine → Option (Option String) := fun _ => some none
  /-- What the variation of a name reads in its own way. -/
  override? : String → Option (List ContentLine → OptionT (Except ContentError) Body) :=
    fun _ => none

namespace Grammar

def selector : Grammar where
  detect := anyLine fun l => do
    if ← hasCalls ["area"] l.text then return true else return Selector.isTextLine l.text
  parse lines := Body.selector <$> OptionT.lift (Selector.parse lines)
  variationOf lines := do
    if ← anyLine (fun l => hasCalls ["area"] l.text) lines then return some Selector.onImage
    else return some Selector.onText
  override? name :=
    if name = Selector.onImage then some fun lines => Body.selector <$> imageSelection lines
    else none

def fillBlank : Grammar where
  detect lines :=
    anyLine (fun l => (·.isSome) <$> parseSentence l.text) (ContentLine.withText lines)
  parse lines := Body.fillBlank <$> readAll FillBlank.tag sentenceLine lines

def multipleChoice : Grammar where
  detect lines := some (MultipleChoice.detect lines)
  parse lines := Body.multipleChoice <$> readAll MultipleChoice.tag questionLine lines

def categorize : Grammar where
  detect lines := some (Categorize.detect lines)
  parse lines := Body.categorize <$> OptionT.lift (Categorize.parse lines)
  variationOf lines := some (some (Categorize.variationOf lines))
  override? name :=
    if name = Categorize.lake then
      some fun lines => pure (Body.categorize (Categorize.InLake.parse lines))
    else none

def matching : Grammar where
  detect lines := some (Matching.detect lines)
  parse lines := Body.matching <$> readAll Matching.tag pairLine lines

/-- The sentences of calls and of lines, of which there must be one. -/
def alignment (lines : List ContentLine) :
    OptionT (Except ContentError) (List OrderingSentence) := do
  let found ← alignedSentences [] (ContentLine.withText lines)
  OptionT.lift (Ordering.nonempty found)

def ordering : Grammar where
  detect lines :=
    let lines := ContentLine.withText lines
    if lines.isEmpty then some false
    else do
      if ← anyLine (fun l =>
        if Ordering.qualifies l.text then some true else hasCalls ["align"] l.text) lines
      then return true
      else return lines.all fun l => Ordering.isSingleWord l.text
  parse lines := Body.ordering <$> OptionT.lift (Ordering.parse lines)
  variationOf lines :=
    let lines := ContentLine.withText lines
    if lines.isEmpty then some none
    else do
      if ← anyLine (fun l => hasCalls ["align"] l.text) lines then return some Ordering.aligner
      else if lines.all fun l => Ordering.isSingleWord l.text then return some Ordering.single
      else return none
  override? name :=
    if name = Ordering.single then
      some fun lines => Body.ordering <$> OptionT.lift (Ordering.Single.parse lines)
    else if name = Ordering.aligner then some fun lines => Body.ordering <$> alignment lines
    else none

/-- A grammar makes no failing access. It does what the kind of a description does. -/
structure Safe (g : Grammar) (s : KindSpec) : Prop where
  detect : ∀ own, s.grammar = some own → ∀ lines, g.detect lines = some (own.detect lines)
  parse : ∀ own, s.grammar = some own → ∀ lines, Checked.Safe (g.parse lines) (own.parse lines)
  variationOf : ∀ lines, g.variationOf lines = some (s.variationOf lines)
  override : ∀ v ∈ s.variations, Option.Rel (fun c x => ∀ lines, Checked.Safe (c lines) (x lines))
    (g.override? v.name) (v.grammar.bind (·.parse))

/-- What was read is wrapped as the body of a kind. -/
theorem safe_wrap {c : OptionT (Except ContentError) α} {x : Except ContentError α}
    (h : Checked.Safe c x) (wrap : α → Body) : Checked.Safe (wrap <$> c) (x.map wrap) :=
  h.map wrap

/-- A kind without variations. -/
theorem Safe.plain {g : Grammar} {s : KindSpec} {own : Worksheet.Grammar}
    (hown : s.grammar = some own)
    (hdetect : ∀ lines, g.detect lines = some (own.detect lines))
    (hparse : ∀ lines, Checked.Safe (g.parse lines) (own.parse lines))
    (hpick : ∀ lines, g.variationOf lines = some (s.variationOf lines))
    (hnone : s.variations = []) :
    g.Safe s where
  detect own' h := by
    obtain rfl := Option.some.inj (hown.symm.trans h)
    exact hdetect
  parse own' h := by
    obtain rfl := Option.some.inj (hown.symm.trans h)
    exact hparse
  variationOf := hpick
  override v hv := by
    rw [hnone] at hv
    cases hv

theorem hasArea_eq (text : String) : hasCalls ["area"] text = some (Selector.hasArea text) :=
  hasCalls_eq ["area"] text

theorem hasAlign_eq (text : String) : hasCalls ["align"] text = some (Ordering.hasAlign text) :=
  hasCalls_eq ["align"] text

theorem selector_safe : selector.Safe Kind.selector where
  detect own h lines := by
    obtain rfl := Option.some.inj h
    refine anyLine_eq (fun l => ?_) lines
    rw [hasArea_eq]
    cases Selector.hasArea l.text <;> rfl
  parse own h lines := by
    obtain rfl := Option.some.inj h
    exact safe_wrap (safe_lift _) _
  variationOf lines := by
    have hany := anyLine_eq (fun l : ContentLine => hasArea_eq l.text) lines
    show (anyLine _ lines).bind _ = some (some (Selector.variationOf lines))
    rw [hany, Selector.variationOf]
    cases lines.any fun l => Selector.hasArea l.text <;> rfl
  override v hv := by
    simp only [Kind.selector, List.mem_cons, List.not_mem_nil, or_false] at hv
    rcases hv with rfl | rfl
    · exact Option.Rel.none
    · exact Option.Rel.some fun lines => safe_wrap (imageSelection_safe lines) _

theorem fillBlank_safe : fillBlank.Safe Kind.fillBlank := by
  refine Safe.plain rfl (fun lines => ?_) (fun lines => ?_) (fun _ => rfl) rfl
  · refine anyLine_eq (fun l => ?_) (ContentLine.withText lines)
    rw [parseSentence_eq]
    rfl
  · exact safe_wrap (readAll_safe sentenceLine_safe lines) _

theorem multipleChoice_safe : multipleChoice.Safe Kind.multipleChoice :=
  Safe.plain rfl (fun _ => rfl) (fun lines => safe_wrap (readAll_safe questionLine_safe lines) _)
    (fun _ => rfl) rfl

theorem matching_safe : matching.Safe Kind.matching :=
  Safe.plain rfl (fun _ => rfl) (fun lines => safe_wrap (readAll_safe pairLine_safe lines) _)
    (fun _ => rfl) rfl

theorem categorize_safe : categorize.Safe Kind.categorize where
  detect own h lines := by
    obtain rfl := Option.some.inj h
    rfl
  parse own h lines := by
    obtain rfl := Option.some.inj h
    exact safe_wrap (safe_lift _) _
  variationOf lines := rfl
  override v hv := by
    simp only [Kind.categorize, List.mem_cons, List.not_mem_nil, or_false] at hv
    rcases hv with rfl | rfl | rfl
    · exact Option.Rel.none
    · exact Option.Rel.none
    · exact Option.Rel.some fun lines => safe_pure (m := Except ContentError) _

theorem ordering_safe : ordering.Safe Kind.ordering where
  detect own h lines := by
    obtain rfl := Option.some.inj h
    show ordering.detect lines = some (Ordering.detect lines)
    have hany := anyLine_eq (p := fun l =>
        if Ordering.qualifies l.text then some true else hasCalls ["align"] l.text)
      (q := fun l => Ordering.qualifies l.text || Ordering.hasAlign l.text)
      (fun l => by rw [hasAlign_eq]; cases Ordering.qualifies l.text <;> rfl)
      (ContentLine.withText lines)
    rw [ordering, Ordering.detect]
    dsimp only
    rw [hany]
    cases (ContentLine.withText lines).isEmpty with
    | true => rfl
    | false =>
      cases (ContentLine.withText lines).any fun l =>
        Ordering.qualifies l.text || Ordering.hasAlign l.text <;> rfl
  parse own h lines := by
    obtain rfl := Option.some.inj h
    exact safe_wrap (safe_lift _) _
  variationOf lines := by
    show ordering.variationOf lines = some (Ordering.variationOf lines)
    rw [ordering, Ordering.variationOf]
    dsimp only
    rw [anyLine_eq (fun l : ContentLine => hasAlign_eq l.text)]
    cases (ContentLine.withText lines).isEmpty with
    | true => rfl
    | false =>
      cases (ContentLine.withText lines).any fun l => Ordering.hasAlign l.text with
      | true => rfl
      | false =>
        cases (ContentLine.withText lines).all fun l => Ordering.isSingleWord l.text <;> rfl
  override v hv := by
    simp only [Kind.ordering, List.mem_cons, List.not_mem_nil, or_false] at hv
    rcases hv with rfl | rfl
    · exact Option.Rel.some fun lines => safe_wrap (safe_lift _) _
    · refine Option.Rel.some fun lines => safe_wrap ?_ _
      exact (alignedSentences_safe [] _).bind fun found => safe_lift _

/-- The grammar of the kind of a tag. -/
def ofTag? (tag : String) : Option Grammar :=
  [(Selector.tag, selector), (FillBlank.tag, fillBlank), (MultipleChoice.tag, multipleChoice),
    (Categorize.tag, categorize), (Matching.tag, matching), (Ordering.tag, ordering)].lookup tag

theorem exists_safe : ∀ s ∈ Kind.builtin, ∃ g, ofTag? s.tag = some g ∧ g.Safe s := by
  intro s hs
  simp only [Kind.builtin, List.mem_cons, List.not_mem_nil, or_false] at hs
  rcases hs with rfl | rfl | rfl | rfl | rfl | rfl
  · exact ⟨selector, rfl, selector_safe⟩
  · exact ⟨fillBlank, rfl, fillBlank_safe⟩
  · exact ⟨multipleChoice, rfl, multipleChoice_safe⟩
  · exact ⟨categorize, rfl, categorize_safe⟩
  · exact ⟨matching, rfl, matching_safe⟩
  · exact ⟨ordering, rfl, ordering_safe⟩

/-- A grammar makes no failing access. It does what a kind does. -/
structure SafeFor (g : Grammar) (k : Kind) : Prop where
  detect : ∀ lines, g.detect lines = some (k.grammar.detect lines)
  parse : ∀ lines, Checked.Safe (g.parse lines) (k.grammar.parse lines)
  variationOf : ∀ lines, g.variationOf lines = some (k.variationOf lines)
  override : ∀ v ∈ k.variations, Option.Rel (fun c x => ∀ lines, Checked.Safe (c lines) (x lines))
    (g.override? v.name) (v.grammar.bind (·.parse))

end Grammar

section Registry

/-- The result of a computation, be it a fault or not. -/
def tried (c : OptionT (Except ContentError) α) :
    OptionT (Except ContentError) (Except ContentError α) :=
  OptionT.mk (match c.run with
    | .ok found => .ok (found.map .ok)
    | .error e => .ok (some (.error e)))

variable (r : KindRegistry)

/-- The kind of a name. The place that the index tells must be one of the kinds. -/
def kind? (name : String) : Option (Option Kind) :=
  match r.index.get? (KindSpec.key name) with
  | none => some none
  | some place => some <$> r.kinds[place]?

/-- The first of some kinds that recognizes the lines. -/
def firstKind (lines : List ContentLine) : List Kind → Option (Option Kind)
  | [] => some none
  | k :: rest => do
    if ← (← Grammar.ofTag? k.tag).detect lines then return some k else firstKind lines rest

def detectKind (lines : List ContentLine) : Option (Option Kind) :=
  firstKind lines r.byPriority

/-- The variation that is asked for, or else the one picked for the lines. -/
def chooseVariation (k : Kind) (g : Grammar) (hint : Option String) (lines : List ContentLine) :
    OptionT (Except ContentError) (Option Variation) :=
  match hint with
  | some name => OptionT.lift (KindRegistry.chooseVariation k (some name) lines)
  | none => do
    let picked ← access (g.variationOf lines)
    return (picked.bind k.variation?).or (k.defaultVariation.bind k.variation?)

/-- Reads lines as the kind does before the variation is asked. -/
def readAs (g : Grammar) (variation : Option Variation) (lines : List ContentLine) :
    OptionT (Except ContentError) Body := do
  let base ← tried (g.parse lines)
  match variation.bind (g.override? ·.name) with
  | some read => read lines
  | none => OptionT.lift base

/-- Reads content of a kind. -/
def parseContent (tag : String) (lines : List ContentLine) (hint : Option String) :
    OptionT (Except ContentError) Content := do
  match ← access (kind? r tag) with
  | none => OptionT.lift (.error (.unknownKind tag))
  | some k =>
    let g ← access (Grammar.ofTag? k.tag)
    let variation ← chooseVariation k g hint lines
    return ⟨← readAs g variation lines, variation.map (·.name)⟩

/-- Checks content by its variation, or else by its kind. -/
def validateContent (tag : String) (c : Content) : Option Validation := do
  match ← kind? r tag with
  | none => return .error s!"unknown exercise type '{tag}'"
  | some k =>
    if c.tag != k.tag then
      return .error s!"content of type '{c.tag}' does not match exercise type '{k.tag}'"
    else return k.checkAs (c.variation.bind k.variation?) c.body

end Registry

theorem safe_tried {c : OptionT (Except ContentError) α} {x : Except ContentError α}
    (h : Safe c x) :
    Safe (tried c) (.ok x) := by
  have hrun : c.run = some <$> x := h
  rw [Safe, tried, OptionT.run_mk, hrun]
  cases x <;> rfl

theorem kind?_eq {r : KindRegistry} (h : r.Indexed) (name : String) :
    kind? r name = some (r.get? name) := by
  rw [kind?, KindRegistry.get?, KindRegistry.owner?]
  cases hget : r.index.get? (KindSpec.key name) with
  | none => rfl
  | some place =>
    obtain ⟨k, hk, -⟩ := (h.get?_iff _ place).1 hget
    show some <$> r.kinds[place]? = some r.kinds[place]?
    rw [hk]
    rfl

theorem chooseVariation_safe {k : Kind} {g : Grammar} (h : g.SafeFor k) (hint : Option String)
    (lines : List ContentLine) :
    Safe (chooseVariation k g hint lines) (KindRegistry.chooseVariation k hint lines) := by
  cases hint with
  | some name => exact safe_lift _
  | none =>
    refine Safe.after ?_ (h.variationOf lines)
    exact safe_pure (m := Except ContentError) _

theorem readAs_safe {k : Kind} {g : Grammar} (h : g.SafeFor k) {variation : Option Variation}
    (hv : ∀ v, variation = some v → v ∈ k.variations) (lines : List ContentLine) :
    Safe (readAs g variation lines) (k.readAs variation lines) := by
  have hbase := safe_tried (h.parse lines)
  cases variation with
  | none => exact hbase.bind fun base => safe_lift base
  | some v =>
    have hread := h.override v (hv v rfl)
    rw [readAs, Kind.readAs, Option.bind_some, Option.bind_some]
    generalize g.override? v.name = own at hread ⊢
    generalize v.grammar.bind (·.parse) = plain at hread ⊢
    cases hread with
    | none => exact hbase.bind fun base => safe_lift base
    | some hread => exact hbase.bind fun _ => hread lines

/-- The index of a registry leads to its kinds, and each of them has a grammar that makes no failing
access. -/
structure Covered (r : KindRegistry) : Prop where
  indexed : r.Indexed
  grammars : ∀ k ∈ r.kinds, ∃ g, Grammar.ofTag? k.tag = some g ∧ g.SafeFor k

theorem covered_builtin : Covered .builtin where
  indexed := KindRegistry.indexed_empty.registerAll Kind.builtin
  grammars k hk := by
    obtain ⟨s, hs, hb⟩ := KindRegistry.build_of_mem_builtin hk
    obtain ⟨-, hown, -, hpick, -⟩ := KindSpec.of_build hb
    obtain ⟨hvariations, -⟩ := KindSpec.namesVariations_of_build hs hb
    obtain ⟨g, hg, hsafe⟩ := Grammar.exists_safe s hs
    refine ⟨g, by rw [KindSpec.tag_of_build hs hb, hg], ?_⟩
    refine ⟨hsafe.detect _ hown, hsafe.parse _ hown, ?_, ?_⟩
    · rw [hpick]
      exact hsafe.variationOf
    · rw [hvariations]
      exact hsafe.override

namespace Covered

variable {r : KindRegistry} (h : Covered r)

include h

theorem firstKind (lines : List ContentLine) {kinds : List Kind}
    (hkinds : ∀ k ∈ kinds, k ∈ r.kinds) :
    Checked.firstKind lines kinds = some (kinds.find? (·.grammar.detect lines)) := by
  induction kinds with
  | nil => rfl
  | cons k rest ih =>
    obtain ⟨hown, hrest⟩ := List.forall_mem_cons.1 hkinds
    obtain ⟨g, hg, hsafe⟩ := h.grammars k hown
    rw [Checked.firstKind, hg, List.find?_cons, ih hrest]
    simp only [Option.bind_eq_bind, Option.bind_some, hsafe.detect]
    cases k.grammar.detect lines <;> rfl

theorem detectKind (lines : List ContentLine) :
    Checked.detectKind r lines = some (r.detect? lines) :=
  h.firstKind lines fun _ hk => List.mem_mergeSort.1 hk

theorem parseContent (tag : String) (lines : List ContentLine) (hint : Option String) :
    Safe (Checked.parseContent r tag lines hint) (r.parse tag lines hint) := by
  rw [Checked.parseContent, KindRegistry.parse]
  refine Safe.after ?_ (kind?_eq h.indexed tag)
  cases hk : r.get? tag with
  | none => exact safe_lift _
  | some k =>
    obtain ⟨g, hg, hsafe⟩ := h.grammars k (KindRegistry.mem_of_get? hk)
    refine Safe.after ?_ hg
    have hchosen : Safe (chooseVariation k g hint lines)
        ((KindRegistry.chooseVariation k hint lines).map id) := by
      rw [Except.map_id]
      exact chooseVariation_safe hsafe hint lines
    refine Safe.bind_map hchosen fun variation hvariation => ?_
    refine (readAs_safe hsafe (fun v hv => ?_) lines).bind fun body => ?_
    · obtain rfl : variation = some v := hv
      exact KindRegistry.mem_of_chooseVariation hvariation
    · exact safe_pure (m := Except ContentError) _

theorem validateContent (tag : String) (c : Content) :
    Checked.validateContent r tag c = some (r.validate tag c) := by
  rw [Checked.validateContent, KindRegistry.validate, kind?_eq h.indexed]
  cases r.get? tag with
  | none => rfl
  | some k =>
    simp only [Option.bind_eq_bind, Option.bind_some]
    split <;> rfl

end Covered

end Worksheet.Checked
