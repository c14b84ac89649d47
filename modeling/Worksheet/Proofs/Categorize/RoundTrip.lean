import Worksheet.Proofs.Content.Barred
import Worksheet.Proofs.Content.Reread
import Worksheet.Proofs.Kind.Variation
import Worksheet.Proofs.Validation.Rules

namespace Worksheet.Categorize

open Chars (IsPiece Tight)

/-- No item is cut at its commas when the items are read again. -/
def Whole (items : List String) : Prop :=
  ∀ item, items = [item] → ',' ∉ item.toList

theorem whole_of_length {items : List String} (h : items.length ≠ 1) : Whole items := by
  rintro item rfl
  exact absurd rfl h

theorem whole_singleton {item : String} : Whole [item] ↔ ',' ∉ item.toList := by
  constructor
  · intro h
    exact h item rfl
  · intro h other ho
    obtain rfl : item = other := by simpa using ho
    exact h

theorem splitItems_of_bar {cs : List Char} (h : '|' ∈ cs) :
    splitItems (String.ofList cs) = (Chars.pieces '|' cs).map String.ofList := by
  simp [splitItems, Text.contains, Text.pieces, h]

theorem splitItems_of_not_bar {cs : List Char} (h : '|' ∉ cs) :
    splitItems (String.ofList cs) = (Chars.pieces ',' cs).map String.ofList := by
  simp [splitItems, Text.contains, Text.pieces, h]

theorem splitItems_trim (cs : List Char) :
    splitItems (String.ofList (Chars.trim cs)) = splitItems (String.ofList cs) := by
  have hmem : '|' ∈ Chars.trim cs ↔ '|' ∈ cs := Chars.mem_trim_iff (by decide)
  by_cases hbar : '|' ∈ cs
  · rw [splitItems_of_bar hbar, splitItems_of_bar (hmem.2 hbar), Chars.pieces_trim (by decide)]
  · have htrim : '|' ∉ Chars.trim cs := fun h => hbar (hmem.1 h)
    rw [splitItems_of_not_bar hbar, splitItems_of_not_bar htrim, Chars.pieces_trim (by decide)]

theorem splitItems_space (cs : List Char) :
    splitItems (String.ofList (' ' :: cs)) = splitItems (String.ofList cs) := by
  rw [← splitItems_trim, Chars.trim_cons_of_isBlank _ (by decide), splitItems_trim]

/-- No item has a bar, whether the items were cut at bars or at commas. -/
theorem isPiece_of_mem_splitItems {text item : String} (h : item ∈ splitItems text) :
    IsPiece '|' item.toList := by
  rw [← String.ofList_toList (s := text)] at h
  by_cases hbar : '|' ∈ text.toList
  · rw [splitItems_of_bar hbar] at h
    obtain ⟨piece, hp, rfl⟩ := List.mem_map.1 h
    rw [String.toList_ofList]
    exact Chars.isPiece_of_mem_pieces hp
  · rw [splitItems_of_not_bar hbar] at h
    obtain ⟨piece, hp, rfl⟩ := List.mem_map.1 h
    obtain ⟨-, htight, hne, hsub⟩ := Chars.of_mem_pieces hp
    rw [String.toList_ofList]
    exact ⟨fun hm => hbar (hsub '|' hm), htight, hne⟩

/-- Written items are read as they were exactly if none of them is cut. -/
theorem splitItems_barred_iff {items : List String} (h : ∀ item ∈ items, IsPiece '|' item.toList) :
    splitItems (String.ofList (barred items)) = items ↔ Whole items := by
  match items with
  | [] =>
    have hnil : splitItems (String.ofList (barred [])) = [] := by decide +kernel
    exact iff_of_true hnil (whole_of_length (by simp))
  | [item] =>
    have hitem : IsPiece '|' item.toList := h item (by simp)
    have hbarred : barred [item] = item.toList := rfl
    rw [hbarred, splitItems_of_not_bar hitem.not_mem, whole_singleton]
    constructor
    · intro hback hcomma
      have hpiece : item ∈ (Chars.pieces ',' item.toList).map String.ofList := by simp [hback]
      obtain ⟨piece, hp, rfl⟩ := List.mem_map.1 hpiece
      rw [String.toList_ofList] at hcomma
      exact (Chars.of_mem_pieces hp).1 hcomma
    · intro hcomma
      rw [Chars.pieces_eq_singleton hcomma hitem.tight hitem.ne_nil]
      simp
  | first :: second :: rest =>
    have hbar : '|' ∈ barred (first :: second :: rest) := bar_mem_barred (by simp)
    refine iff_of_true ?_ (whole_of_length (by simp))
    rw [splitItems_of_bar hbar, pieces_barred h]

/-- The form of a category that was read from a line. -/
structure WellRead (c : Category) : Prop where
  tight : Tight c.name.toList
  named : c.name.toList ≠ []
  no_equals : '=' ∉ c.name.toList
  items : ∀ item ∈ c.items, IsPiece '|' item.toList

theorem wellRead_of_parseCategory {text : String} {c : Category}
    (h : parseCategory text = some c) : WellRead c := by
  obtain ⟨⟨name, items⟩, hsplit, h⟩ := Option.bind_eq_some_iff.1 h
  obtain ⟨⟨before, after⟩, hchars, he⟩ := Option.map_eq_some_iff.1 hsplit
  obtain ⟨rfl, rfl⟩ := Prod.mk.inj he
  dsimp only at h
  split at h
  · cases h
  · rename_i hblank
    obtain rfl := Option.some.inj h
    rw [Text.isBlank, String.toList_ofList, ← Chars.trim_eq_nil_iff] at hblank
    refine ⟨?_, ?_, ?_, fun item hi => isPiece_of_mem_splitItems hi⟩
    · simpa [Text.trim] using Chars.tight_trim before
    · simpa [Text.trim] using hblank
    · have hbefore : '=' ∉ before := Chars.not_mem_of_splitOnce hchars
      simpa [Text.trim] using fun hm => hbefore (Chars.mem_of_mem_trim hm)

theorem toList_renderCategory (c : Category) :
    (renderCategory c).toList = c.name.toList ++ [' ', '=', ' '] ++ barred c.items := by
  simp [renderCategory, Text.join, barred]

/-- A written category is read with its name, and with the items that are made of the written
items. -/
theorem parseCategory_renderCategory {c : Category} (h : WellRead c) (hitems : c.items ≠ []) :
    parseCategory (Text.trim (renderCategory c)) =
      some ⟨c.name, splitItems (String.ofList (barred c.items))⟩ := by
  have hb : Chars.isBlank ' ' = true := by decide
  have htight : Tight (barred c.items) := tight_barred h.items
  have hne : barred c.items ≠ [] := barred_ne_nil h.items hitems
  have htrim : Chars.trim (renderCategory c).toList =
      (c.name.toList ++ [' ']) ++ '=' :: (' ' :: barred c.items) := by
    rw [toList_renderCategory, (h.tight.append htight h.named hne _).trim_eq]
    simp
  have hbefore : '=' ∉ c.name.toList ++ [' '] := by
    simpa using h.no_equals
  have hname : Chars.trim (c.name.toList ++ [' ']) = c.name.toList := by
    rw [Chars.trim_append_of_isBlank _ hb, h.tight.trim_eq]
  have hblank : Text.isBlank (String.ofList (c.name.toList ++ [' '])) = false := by
    rw [Bool.eq_false_iff, Text.isBlank, String.toList_ofList, ne_eq, ← Chars.trim_eq_nil_iff,
      hname]
    exact h.named
  have hsplit : Text.splitOnce '=' (Text.trim (renderCategory c)) =
      some (String.ofList (c.name.toList ++ [' ']), String.ofList (' ' :: barred c.items)) := by
    rw [Text.splitOnce, Text.trim, String.toList_ofList, htrim,
      Chars.splitOnce_append_cons hbefore, Option.map_some]
  rw [parseCategory, hsplit]
  simp only [Option.bind_eq_bind, Option.bind_some, hblank, Bool.false_eq_true, if_false, Text.trim,
    String.toList_ofList, hname, String.ofList_toList, splitItems_space, Option.pure_def]

theorem categoryLine_eq_ok_iff {l : ContentLine} {c : Category} :
    categoryLine l = .ok c ↔ parseCategory l.text = some c := by
  rw [categoryLine]
  cases parseCategory l.text <;> simp

theorem categoryLine_reread_iff {c : Category} (h : WellRead c) (hitems : c.items ≠ []) :
    categoryLine (.reread (renderCategory c)) = .ok c ↔ Whole c.items := by
  rw [categoryLine_eq_ok_iff, ContentLine.text_reread, parseCategory_renderCategory h hitems,
    ← splitItems_barred_iff h.items, Option.some_inj]
  constructor
  · intro hback
    exact congrArg Category.items hback
  · intro hback
    rw [hback]

theorem parse_eq_ok_iff {lines : List ContentLine} {c : Categories} :
    parse lines = .ok c ↔ ∃ categories,
      (ContentLine.withText lines).mapM categoryLine = .ok categories ∧ categories ≠ [] ∧
        { categories } = c := by
  rw [parse]
  exact bind_nonempty_eq_ok_iff

/-- Categories that all have items come back exactly if no item is cut. -/
theorem parse_serialize_iff_whole {lines : List ContentLine} {c : Categories}
    (h : parse lines = .ok c) (hitems : ∀ category ∈ c.categories, category.items ≠ []) :
    parse ((serialize c).map .reread) = .ok c ↔
      ∀ category ∈ c.categories, Whole category.items := by
  obtain ⟨categories, hlines, hne, rfl⟩ := parse_eq_ok_iff.1 h
  have hread : ∀ category ∈ categories, WellRead category := by
    intro category hc
    obtain ⟨l, -, hl⟩ := forall₂_exists_left (mapM_eq_ok_iff.1 hlines) hc
    exact wellRead_of_parseCategory (categoryLine_eq_ok_iff.1 hl)
  have htext : ∀ category ∈ categories, Text.trim (renderCategory category) ≠ "" := by
    intro category hc hempty
    have hback := parseCategory_renderCategory (hread category hc) (hitems category hc)
    rw [hempty] at hback
    cases hback
  have hmap : (ContentLine.withText ((serialize { categories }).map .reread)).mapM categoryLine =
      .ok categories ↔ ∀ category ∈ categories, Whole category.items := by
    rw [serialize, ContentLine.mapM_reread_iff htext]
    exact forall₂_congr fun category hc =>
      categoryLine_reread_iff (hread category hc) (hitems category hc)
  rw [← hmap, parse_eq_ok_iff]
  constructor
  · rintro ⟨found, hfound, -, he⟩
    obtain rfl : found = categories := congrArg Categories.categories he
    exact hfound
  · intro hfound
    exact ⟨categories, hfound, hne, rfl⟩

namespace InLake

/-- Whether a text begins with one of the signs that make a line something else than a list of
distractors. -/
def Signed (cs : List Char) : Prop :=
  cs.head? = some '=' ∨ cs.head? = some '?'

/-- The items of a lake come back when they are read again. -/
structure Legible (c : Categories) : Prop where
  correct : Whole c.correct
  distractors : Whole c.distractors
  first : ∀ d, c.distractors.head? = some d → ¬ Signed d.toList

/-- The form of a lake that was read from lines. -/
structure WellRead (c : Categories) : Prop where
  categories : c.categories = []
  correct : ∀ item ∈ c.correct, IsPiece '|' item.toList
  distractors : ∀ item ∈ c.distractors, IsPiece '|' item.toList
  instruction : ∀ text, c.instruction = some text → Tight text.toList

theorem WellRead.add {c : Categories} (h : WellRead c) (text : String) : WellRead (add c text) := by
  rw [InLake.add]
  split
  · refine ⟨h.categories, fun item hi => ?_, h.distractors, h.instruction⟩
    rcases List.mem_append.1 hi with hi | hi
    · exact h.correct item hi
    · exact isPiece_of_mem_splitItems hi
  · refine ⟨h.categories, h.correct, h.distractors, fun own ho => ?_⟩
    obtain rfl := Option.some.inj ho
    rw [String.toList_ofList]
    exact Chars.tight_trim _
  · refine ⟨h.categories, h.correct, fun item hi => ?_, h.instruction⟩
    rcases List.mem_append.1 hi with hi | hi
    · exact h.distractors item hi
    · exact isPiece_of_mem_splitItems hi

theorem wellRead_foldl_add {c : Categories} (h : WellRead c) (lines : List ContentLine) :
    WellRead (lines.foldl (fun c l => add c l.text) c) := by
  induction lines generalizing c with
  | nil => exact h
  | cons l rest ih => exact ih (h.add l.text)

theorem wellRead_parse (lines : List ContentLine) : WellRead (parse lines) := by
  have hempty : WellRead {} := ⟨rfl, by simp, by simp, by simp⟩
  exact wellRead_foldl_add hempty _

/-- What an accepted lake has: an instruction and something that belongs in it. -/
theorem of_isValid {c : Categories} (h : (validate c).isValid = true) :
    c.correct ≠ [] ∧ ∃ text, c.instruction = some text ∧ Chars.trim text.toList ≠ [] := by
  have hallowed := isValid_validate_iff.1 h
  obtain ⟨text, ht, hblank⟩ := hallowed.instruction
  refine ⟨List.ne_nil_of_length_pos hallowed.correct.1, text, ht, ?_⟩
  rw [ne_eq, Chars.trim_eq_nil_iff]
  simpa [Text.isBlank] using hblank

theorem add_correct (c : Categories) (items : List Char) :
    add c (String.ofList ('=' :: items)) =
      { c with correct := c.correct ++ splitItems (String.ofList items) } := by
  simp [add]

theorem add_instruction (c : Categories) (rest : List Char) :
    add c (String.ofList ('?' :: rest)) =
      { c with instruction := some (String.ofList (Chars.trim rest)) } := by
  simp [add]

theorem add_of_not_signed (c : Categories) {cs : List Char} (h : ¬ Signed cs) :
    add c (String.ofList cs) =
      { c with distractors := c.distractors ++ splitItems (String.ofList cs) } := by
  rw [add, String.toList_ofList]
  split
  · exact absurd (Or.inl rfl) h
  · exact absurd (Or.inr rfl) h
  · rfl

/-- A line that begins with a sign adds no distractors. -/
theorem distractors_add_of_signed (c : Categories) {cs : List Char} (h : Signed cs) :
    (add c (String.ofList cs)).distractors = c.distractors := by
  cases cs with
  | nil =>
    rcases h with h | h
    · cases h
    · cases h
  | cons x rest =>
    rcases h with h | h
    · obtain rfl : x = '=' := by simpa using h
      rw [add_correct]
    · obtain rfl : x = '?' := by simpa using h
      rw [add_instruction]

/-- The lines of the instruction and of the correct items. -/
def signedLines (text : String) (correct : List String) : List (List Char) :=
  ['?' :: ' ' :: text.toList, '=' :: ' ' :: barred correct]

/-- All lines of a lake with an instruction. -/
def written (text : String) (correct distractors : List String) : List (List Char) :=
  signedLines text correct ++ if distractors.isEmpty then [] else [barred distractors]

theorem serialize_of_instruction {c : Categories} {text : String}
    (h : c.instruction = some text) :
    serialize c = (written text c.correct c.distractors).map String.ofList := by
  have hquestion : "? " ++ text = String.ofList ('?' :: ' ' :: text.toList) := by
    simp [← String.toList_inj]
  have hequals : "= " ++ Text.join " | " c.correct =
      String.ofList ('=' :: ' ' :: barred c.correct) := by
    simp [← String.toList_inj, Text.join, barred]
  simp only [serialize, h, Option.toList_some, List.map_cons, List.map_nil, hquestion, hequals,
    written, signedLines, List.map_append]
  cases c.distractors.isEmpty <;> rfl

theorem tight_sign {sign : Char} (hs : Chars.isBlank sign = false) {cs : List Char} (h : Tight cs)
    (hne : cs ≠ []) : Tight (sign :: ' ' :: cs) := by
  have hsign : Tight [sign] := ⟨by simp [hs], by simp [hs]⟩
  exact hsign.append h (by simp) hne [' ']

/-- Tight lines that are not empty are all taken in as they are. -/
theorem parse_reread {texts : List (List Char)} (h : ∀ t ∈ texts, Tight t ∧ t ≠ []) :
    parse ((texts.map String.ofList).map .reread) =
      texts.foldl (fun c t => add c (String.ofList t)) {} := by
  have hne : ∀ t ∈ texts.map String.ofList, Text.trim t ≠ "" := by
    intro t ht
    obtain ⟨cs, hcs, rfl⟩ := List.mem_map.1 ht
    rw [Text.trim, String.toList_ofList, (h cs hcs).1.trim_eq]
    simpa using (h cs hcs).2
  rw [parse, ContentLine.withText_reread hne, List.foldl_map, List.foldl_map]
  apply List.foldl_ext
  intro c t ht
  rw [ContentLine.text_reread_of_tight (h t ht).1]

/-- What the first two lines of a written lake are read as. -/
theorem foldl_add_signedLines {text : String} (htext : Tight text.toList) (correct : List String) :
    (signedLines text correct).foldl (fun c t => add c (String.ofList t)) {} =
      ⟨[], splitItems (String.ofList (barred correct)), [], some text⟩ := by
  have hinstruction : String.ofList (Chars.trim (' ' :: text.toList)) = text := by
    rw [Chars.trim_cons_of_isBlank _ (by decide), htext.trim_eq, String.ofList_toList]
  simp only [signedLines, List.foldl_cons, List.foldl_nil, add_instruction, add_correct,
    hinstruction, splitItems_space, List.nil_append]

/-- Whether a line of distractors has a sign depends on the first of them. -/
theorem signed_barred_iff {d : String} (hd : d.toList ≠ []) (ds : List String) :
    Signed (barred (d :: ds)) ↔ Signed d.toList := by
  have hfirst : (barred (d :: ds)).head? = d.toList.head? := Chars.head?_join_cons _ hd _
  rw [Signed, Signed, hfirst]

/-- A lake with an instruction and correct items comes back exactly if it is legible. -/
theorem parse_serialize_iff_legible {c : Categories} (h : WellRead c) (hcorrect : c.correct ≠ [])
    {text : String} (htext : c.instruction = some text) (hne : Chars.trim text.toList ≠ []) :
    parse ((serialize c).map .reread) = c ↔ Legible c := by
  obtain ⟨categories, correct, distractors, instruction⟩ := c
  obtain rfl : categories = [] := h.categories
  obtain rfl : instruction = some text := htext
  have htight : Tight text.toList := h.instruction text rfl
  rw [htight.trim_eq] at hne
  have hbarTight : Tight (barred correct) := tight_barred h.correct
  have hbarNe : barred correct ≠ [] := barred_ne_nil h.correct hcorrect
  have hsigned : ∀ t ∈ signedLines text correct, Tight t ∧ t ≠ [] := by
    have hquestion : Tight ('?' :: ' ' :: text.toList) := tight_sign (by decide) htight hne
    have hequals : Tight ('=' :: ' ' :: barred correct) := tight_sign (by decide) hbarTight hbarNe
    simp [signedLines, hquestion, hequals]
  have hback := splitItems_barred_iff h.correct
  rw [serialize_of_instruction rfl, written]
  cases distractors with
  | nil =>
    rw [List.isEmpty_nil, if_pos rfl, List.append_nil, parse_reread hsigned,
      foldl_add_signedLines htight]
    constructor
    · intro he
      exact ⟨hback.1 (congrArg Categories.correct he), whole_of_length (by simp), by simp⟩
    · intro hl
      rw [hback.2 hl.correct]
  | cons d ds =>
    have hlastTight : Tight (barred (d :: ds)) := tight_barred h.distractors
    have hlastNe : barred (d :: ds) ≠ [] := barred_ne_nil h.distractors (by simp)
    have hall : ∀ t ∈ signedLines text correct ++ [barred (d :: ds)], Tight t ∧ t ≠ [] := by
      intro t ht
      rcases List.mem_append.1 ht with ht | ht
      · exact hsigned t ht
      · obtain rfl : t = barred (d :: ds) := List.mem_singleton.1 ht
        exact ⟨hlastTight, hlastNe⟩
    rw [List.isEmpty_cons, if_neg (by simp), parse_reread hall, List.foldl_append,
      foldl_add_signedLines htight, List.foldl_cons, List.foldl_nil]
    have hd : d.toList ≠ [] := (h.distractors d (by simp)).ne_nil
    by_cases hs : Signed d.toList
    · refine iff_of_false (fun he => ?_) fun hl => hl.first d rfl hs
      have hlost := distractors_add_of_signed
        ⟨[], splitItems (String.ofList (barred correct)), [], some text⟩
        ((signed_barred_iff hd ds).2 hs)
      rw [he] at hlost
      cases hlost
    · have hplain : ¬ Signed (barred (d :: ds)) := fun hb => hs ((signed_barred_iff hd ds).1 hb)
      have hlast := splitItems_barred_iff h.distractors
      rw [add_of_not_signed _ hplain, List.nil_append]
      constructor
      · intro he
        refine ⟨hback.1 (congrArg Categories.correct he),
          hlast.1 (congrArg Categories.distractors he), fun other ho => ?_⟩
        obtain rfl : d = other := Option.some.inj ho
        exact hs
      · intro hl
        rw [hback.2 hl.correct, hlast.2 hl.distractors]

end InLake

/-- Content that comes back from its lines: a lake if its items do, and other content if no items of
a category are cut. -/
def Legible (c : Content) : Prop :=
  ∃ categories, c.body = .categorize categories ∧
    if c.variation = some lake then InLake.Legible categories
    else ∀ category ∈ categories.categories, Whole category.items

theorem legible_of_lake {categories : Categories} :
    Legible ⟨.categorize categories, some lake⟩ ↔ InLake.Legible categories := by
  constructor
  · rintro ⟨other, ho, hl⟩
    obtain rfl : categories = other := Body.categorize.inj ho
    exact hl
  · intro hl
    exact ⟨categories, rfl, hl⟩

theorem legible_of_ne_lake {categories : Categories} {name : String} (h : name ≠ lake) :
    Legible ⟨.categorize categories, some name⟩ ↔
      ∀ category ∈ categories.categories, Whole category.items := by
  have hname : some name ≠ some lake := fun he => h (Option.some.inj he)
  constructor
  · rintro ⟨other, ho, hl⟩
    obtain rfl : categories = other := Body.categorize.inj ho
    rwa [if_neg hname] at hl
  · intro hl
    exact ⟨categories, rfl, by rwa [if_neg hname]⟩

/-- The built-in kind of categories is in the registry, and its default variation is one of the
three that it has. -/
theorem exists_kind : ∃ k, KindRegistry.builtin.get? tag = some k ∧ k.tag = tag ∧
    Kind.categorize.grammar = some k.grammar ∧ k.variations = Kind.categorize.variations ∧
      k.NamesVariations ∧ (k.defaultVariation.bind k.variation?).isSome = true := by
  have hs : Kind.categorize ∈ Kind.builtin := by simp [Kind.builtin]
  obtain ⟨k, hb, hk, htag, hvariations, hnames⟩ := KindRegistry.exists_builtin _ hs
  obtain ⟨-, hgrammar, -, -, hdefault, -⟩ := KindSpec.of_build hb
  have hlower : Text.asciiLower original = original := by decide +kernel
  have hfound : k.variation? original = some ⟨original, "Categories", none⟩ :=
    hnames ⟨original, "Categories", none⟩ (by simp [hvariations, Kind.categorize])
  refine ⟨k, hk, htag, hgrammar, hvariations, hnames, ?_⟩
  rw [hdefault, Kind.categorize, Option.map_some, hlower, Option.bind_some, hfound]
  rfl

/-- A variation that reads and writes as the kind does, and accepts no category without items. -/
structure PlainIn (k : Kind) (v : Option Variation) : Prop where
  read : ∀ lines, k.readAs v lines = (parse lines).map Body.categorize
  write : ∀ c, k.writeAs v (.categorize c) = .ok (serialize c)
  items : ∀ c, (k.checkAs v (.categorize c)).isValid = true →
    ∀ category ∈ c.categories, category.items ≠ []

structure LakeIn (k : Kind) (v : Option Variation) : Prop where
  read : ∀ lines, k.readAs v lines = .ok (.categorize (InLake.parse lines))
  write : ∀ c, k.writeAs v (.categorize c) = .ok (InLake.serialize c)
  check : ∀ c, k.checkAs v (.categorize c) = InLake.validate c

theorem plainIn_or_lakeIn {k : Kind} {v : Variation}
    (hgrammar : Kind.categorize.grammar = some k.grammar) (hv : v ∈ Kind.categorize.variations) :
    v.name ≠ lake ∧ PlainIn k (some v) ∨ v.name = lake ∧ LakeIn k (some v) := by
  have hg := (Option.some.inj hgrammar).symm
  have hitems : ∀ {least minItems : Nat} {c : Categories}, 0 < minItems →
      (validateAtLeast least minItems c).isValid = true →
        ∀ category ∈ c.categories, category.items ≠ [] := by
    intro least minItems c hpos hc category hmem
    have hlength := ((isValid_validateAtLeast_iff.1 hc).items category hmem).1
    exact List.ne_nil_of_length_pos (Nat.lt_of_lt_of_le hpos hlength)
  simp only [Kind.categorize, List.mem_cons, List.not_mem_nil, or_false] at hv
  rcases hv with rfl | rfl | rfl
  · refine Or.inl ⟨by decide, fun lines => ?_, fun c => ?_, fun c hc => ?_⟩
    · simp only [Kind.readAs, Option.bind_some, Option.bind_none, Option.getD_none, hg]
      rfl
    · simp only [Kind.writeAs, Option.bind_some, Option.bind_none, Option.getD_none, hg]
      rfl
    · simp only [Kind.checkAs, Option.bind_some, Option.bind_none, hg] at hc
      exact hitems (by decide) hc
  · refine Or.inl ⟨by decide, fun lines => ?_, fun c => ?_, fun c hc => ?_⟩
    · simp only [Kind.readAs, Option.bind_some, Option.getD_none, hg]
      rfl
    · simp only [Kind.writeAs, Option.bind_some, Option.getD_none, hg]
      rfl
    · exact hitems (by decide) hc
  · exact Or.inr ⟨rfl, fun _ => rfl, fun _ => rfl, fun _ => rfl⟩

variable {k : Kind} {v : Option Variation} {lines : List ContentLine} {body : Body}

theorem PlainIn.reread_iff (hk : PlainIn k v) (h : k.readAs v lines = .ok body) :
    ∃ c, body = .categorize c ∧ ((k.checkAs v body).isValid = true →
      ∃ texts, k.writeAs v body = .ok texts ∧
        (k.readAs v (texts.map .reread) = .ok body ↔
          ∀ category ∈ c.categories, Whole category.items)) := by
  rw [hk.read, map_eq_ok_iff] at h
  obtain ⟨c, hc, rfl⟩ := h
  refine ⟨c, rfl, fun hv => ⟨serialize c, hk.write c, ?_⟩⟩
  rw [hk.read, map_eq_ok_iff, ← parse_serialize_iff_whole hc (hk.items c hv)]
  constructor
  · rintro ⟨other, hother, he⟩
    obtain rfl := Body.categorize.inj he
    exact hother
  · intro hback
    exact ⟨c, hback, rfl⟩

theorem LakeIn.reread_iff (hk : LakeIn k v) (h : k.readAs v lines = .ok body) :
    ∃ c, body = .categorize c ∧ ((k.checkAs v body).isValid = true →
      ∃ texts, k.writeAs v body = .ok texts ∧
        (k.readAs v (texts.map .reread) = .ok body ↔ InLake.Legible c)) := by
  rw [hk.read] at h
  obtain rfl := Except.ok.inj h
  refine ⟨InLake.parse lines, rfl, fun hv =>
    ⟨InLake.serialize (InLake.parse lines), hk.write _, ?_⟩⟩
  rw [hk.check] at hv
  obtain ⟨hcorrect, text, htext, hne⟩ := InLake.of_isValid hv
  rw [hk.read, ← InLake.parse_serialize_iff_legible (InLake.wellRead_parse lines) hcorrect htext
    hne]
  constructor
  · intro hback
    exact Body.categorize.inj (Except.ok.inj hback)
  · intro hback
    rw [hback]

/-- Accepted content of categories can be written, and it comes back in its own variation exactly if
it is legible. -/
theorem parse_written_iff_legible (lines : List ContentLine) (hint : Option String) (c : Content)
    (h : KindRegistry.builtin.parse tag lines hint = .ok c)
    (hv : (KindRegistry.builtin.validate tag c).isValid = true) :
    ∃ texts, KindRegistry.builtin.serialize tag c = .ok texts ∧
      (KindRegistry.builtin.parse tag (texts.map .reread) c.variation = .ok c ↔ Legible c) := by
  obtain ⟨k, hk, htag, hgrammar, hvariations, hnames, hdefault⟩ := exists_kind
  obtain ⟨chosen, hchosen, hread, hname⟩ := (KindRegistry.parse_eq_ok_iff hk).1 h
  obtain ⟨v, rfl⟩ := KindRegistry.exists_of_chooseVariation hdefault hchosen
  have hmem : v ∈ k.variations := KindRegistry.mem_of_chooseVariation hchosen
  have hback : c.variation.bind k.variation? = some v :=
    KindRegistry.variation?_of_chooseVariation hnames hchosen hname
  have hagain : ∀ again, KindRegistry.builtin.parse tag again c.variation = .ok c ↔
      k.readAs (some v) again = .ok c.body := fun again =>
    KindRegistry.parse_own_variation_iff hk hnames hmem hname
  obtain ⟨body, variation⟩ := c
  obtain rfl : variation = some v.name := hname
  rcases plainIn_or_lakeIn hgrammar (hvariations ▸ hmem) with ⟨hne, hplain⟩ | ⟨hlake, hlakeIn⟩
  · obtain ⟨found, rfl, hiff⟩ := hplain.reread_iff hread
    have hctag : (Content.mk (.categorize found) (some v.name)).tag = k.tag := htag.symm
    rw [KindRegistry.validate_eq hk hctag hback] at hv
    obtain ⟨texts, hwrite, hiff⟩ := hiff hv
    refine ⟨texts, (KindRegistry.serialize_eq hk hctag hback).trans hwrite, ?_⟩
    rw [hagain, legible_of_ne_lake hne]
    exact hiff
  · obtain ⟨found, rfl, hiff⟩ := hlakeIn.reread_iff hread
    have hctag : (Content.mk (.categorize found) (some v.name)).tag = k.tag := htag.symm
    rw [KindRegistry.validate_eq hk hctag hback] at hv
    obtain ⟨texts, hwrite, hiff⟩ := hiff hv
    refine ⟨texts, (KindRegistry.serialize_eq hk hctag hback).trans hwrite, ?_⟩
    rw [hagain, hlake, legible_of_lake]
    exact hiff

/-- A lake with commas among several items, and with a sign that is not at the front. -/
theorem parse_written_iff_legible_lake :
    ∃ c, KindRegistry.builtin.parse tag
        [⟨"?Which are fruits?", [], 1⟩, ⟨"= apple | figs, dates", [], 2⟩, ⟨"bean | =oak", [], 3⟩] none =
        .ok ⟨.categorize c, some lake⟩ ∧
      (KindRegistry.builtin.validate tag ⟨.categorize c, some lake⟩).isValid = true ∧
      ∃ texts, KindRegistry.builtin.serialize tag ⟨.categorize c, some lake⟩ = .ok texts ∧
        (KindRegistry.builtin.parse tag (texts.map .reread) (some lake) =
          .ok ⟨.categorize c, some lake⟩ ↔ Legible ⟨.categorize c, some lake⟩) := by
  have hread : KindRegistry.builtin.parse tag
      [⟨"?Which are fruits?", [], 1⟩, ⟨"= apple | figs, dates", [], 2⟩, ⟨"bean | =oak", [], 3⟩] none =
      .ok ⟨.categorize ⟨[], ["apple", "figs, dates"], ["bean", "=oak"], some "Which are fruits?"⟩,
        some lake⟩ := rfl
  have hvalid : (KindRegistry.builtin.validate tag
      ⟨.categorize ⟨[], ["apple", "figs, dates"], ["bean", "=oak"], some "Which are fruits?"⟩,
        some lake⟩).isValid = true := by decide +kernel
  exact ⟨_, hread, hvalid, parse_written_iff_legible _ _ _ hread hvalid⟩

/-- Not all accepted content comes back. A bar at the end of a line keeps a comma in its only item,
and is not written. -/
theorem serialize_loses_closing_bar :
    ¬ ∀ (lines : List ContentLine) (hint : Option String) (c : Content),
      KindRegistry.builtin.parse tag lines hint = .ok c →
        (KindRegistry.builtin.validate tag c).isValid = true →
          ∃ texts, KindRegistry.builtin.serialize tag c = .ok texts ∧
            KindRegistry.builtin.parse tag (texts.map .reread) c.variation = .ok c := by
  intro h
  obtain ⟨texts, hs, hr⟩ := h [⟨"X = b, c |", [], 1⟩] none
    ⟨.categorize { categories := [⟨"X", ["b, c"]⟩] }, some original⟩ rfl (by decide +kernel)
  have hwritten : KindRegistry.builtin.serialize tag
      ⟨.categorize { categories := [⟨"X", ["b, c"]⟩] }, some original⟩ = .ok ["X = b, c"] := rfl
  have hread : KindRegistry.builtin.parse tag (["X = b, c"].map .reread) (some original) =
      .ok ⟨.categorize { categories := [⟨"X", ["b", "c"]⟩] }, some original⟩ := rfl
  obtain rfl := Except.ok.inj (hwritten.symm.trans hs)
  rw [hread] at hr
  obtain ⟨hbody, -⟩ := Content.mk.inj (Except.ok.inj hr)
  exact absurd (Body.categorize.inj hbody) (by decide)

end Worksheet.Categorize
