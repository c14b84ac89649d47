import Worksheet.Proofs.Categorize.RoundTrip
import Worksheet.Proofs.Kind.Dispatch

namespace Worksheet.Categorize

open Chars (IsPiece)

/-- The rules of the variation that a content names. -/
def AllowedIn (variation : Option String) (c : Categories) : Prop :=
  if Content.names ⟨.categorize c, variation⟩ lake then InLake.Allowed c
  else if Content.names ⟨.categorize c, variation⟩ ordering then Allowed 2 3 c
  else Allowed 1 1 c

theorem isValid_iff_allowedIn {variation : Option String} {c : Categories} :
    (KindRegistry.builtin.validate tag ⟨.categorize c, variation⟩).isValid = true ↔
      AllowedIn variation c := by
  rw [validate_builtin, AllowedIn]
  split
  · exact InLake.isValid_validate_iff
  · split
    · exact isValid_validateAtLeast_iff
    · exact isValid_validateAtLeast_iff

/-- No item is blank. -/
structure Clean (c : Categories) : Prop where
  items : ∀ category ∈ c.categories, ∀ item ∈ category.items, Text.isBlank item = false
  correct : ∀ item ∈ c.correct, Text.isBlank item = false

/-- There is something to be sorted: in the lake, or else in each of the categories, some item is
not blank. -/
def Filled (variation : Option String) (c : Categories) : Prop :=
  if Content.names ⟨.categorize c, variation⟩ lake then
    ∃ item ∈ c.correct, Text.isBlank item = false
  else ∀ category ∈ c.categories, ∃ item ∈ category.items, Text.isBlank item = false

theorem exists_not_blank {items : List String} (hpos : 1 ≤ items.length)
    (h : ∀ item ∈ items, Text.isBlank item = false) :
    ∃ item ∈ items, Text.isBlank item = false := by
  obtain ⟨item, hi⟩ := List.exists_mem_of_length_pos hpos
  exact ⟨item, hi, h item hi⟩

theorem AllowedIn.filled {variation : Option String} {c : Categories} (h : AllowedIn variation c)
    (hc : Clean c) : Filled variation c := by
  rw [AllowedIn] at h
  rw [Filled]
  split at h
  · rename_i hlake
    rw [if_pos hlake]
    exact exists_not_blank h.correct.1 hc.correct
  · rename_i hlake
    rw [if_neg hlake]
    intro category hmem
    refine exists_not_blank ?_ (hc.items category hmem)
    split at h
    · exact Nat.le_trans (by decide) (h.items category hmem).1
    · exact (h.items category hmem).1

theorem isBlank_of_isPiece {sep : Char} {s : String} (h : IsPiece sep s.toList) :
    Text.isBlank s = false := by
  rw [Bool.eq_false_iff, ne_eq, Text.isBlank, ← Chars.trim_eq_nil_iff, h.tight.trim_eq]
  exact h.ne_nil

theorem clean_of_parse {lines : List ContentLine} {c : Categories} (h : parse lines = .ok c) :
    Clean c := by
  obtain ⟨categories, hread, -, rfl⟩ := parse_eq_ok_iff.1 h
  refine ⟨fun category hc item hi => ?_, by simp⟩
  obtain ⟨l, -, hl⟩ := forall₂_exists_left (mapM_eq_ok_iff.1 hread) hc
  exact isBlank_of_isPiece ((wellRead_of_parseCategory (categoryLine_eq_ok_iff.1 hl)).items item hi)

theorem InLake.clean_parse (lines : List ContentLine) : Clean (parse lines) := by
  have hread := wellRead_parse lines
  refine ⟨?_, fun item hi => isBlank_of_isPiece (hread.correct item hi)⟩
  simp [hread.categories]

/-- Content that was read from lines has no blank items, in whatever variation. -/
theorem clean_of_parse_builtin {lines : List ContentLine} {hint : Option String} {c : Content}
    (h : KindRegistry.builtin.parse tag lines hint = .ok c) :
    ∃ categories, c.body = .categorize categories ∧ Clean categories := by
  obtain ⟨k, hk, htag, hgrammar, hvariations, hnames, hdefault⟩ := exists_kind
  obtain ⟨chosen, hchosen, hread, -⟩ := (KindRegistry.parse_eq_ok_iff hk).1 h
  obtain ⟨v, rfl⟩ := KindRegistry.exists_of_chooseVariation hdefault hchosen
  have hmem : v ∈ k.variations := KindRegistry.mem_of_chooseVariation hchosen
  rcases plainIn_or_lakeIn hgrammar (hvariations ▸ hmem) with ⟨-, hplain⟩ | ⟨-, hlake⟩
  · rw [hplain.read, map_eq_ok_iff] at hread
    obtain ⟨categories, hparse, hbody⟩ := hread
    exact ⟨categories, hbody.symm, clean_of_parse hparse⟩
  · rw [hlake.read] at hread
    exact ⟨_, (Except.ok.inj hread).symm, InLake.clean_parse lines⟩

/-- Categories and lakes pass by the number of their items, whatever these are. What passes is
filled if no item is blank, and no item that was read from lines is. -/
theorem accepted_by_number_of_items (variation : Option String) (c : Categories) :
    ((KindRegistry.builtin.validate tag ⟨.categorize c, variation⟩).isValid = true ↔
      AllowedIn variation c) ∧
    ((KindRegistry.builtin.validate tag ⟨.categorize c, variation⟩).isValid = true →
      Clean c → Filled variation c) ∧
    ∀ (lines : List ContentLine) (hint : Option String),
      KindRegistry.builtin.parse tag lines hint = .ok ⟨.categorize c, variation⟩ → Clean c := by
  refine ⟨isValid_iff_allowedIn, fun h hc => (isValid_iff_allowedIn.1 h).filled hc, ?_⟩
  intro lines hint h
  obtain ⟨found, hbody, hclean⟩ := clean_of_parse_builtin h
  obtain rfl : c = found := Body.categorize.inj hbody
  exact hclean

theorem accepted_by_number_of_items_fruits :
    let c : Categories := { categories := [⟨"Fruits", ["apple", "pear"]⟩] }
    KindRegistry.builtin.parse tag [⟨"Fruits = apple | pear", [], 1⟩] none =
        .ok ⟨.categorize c, some original⟩ ∧
      (KindRegistry.builtin.validate tag ⟨.categorize c, some original⟩).isValid = true ∧
      Clean c ∧ Filled (some original) c := by
  intro c
  have hread : KindRegistry.builtin.parse tag [⟨"Fruits = apple | pear", [], 1⟩] none =
      .ok ⟨.categorize c, some original⟩ := rfl
  have hvalid : (KindRegistry.builtin.validate tag
      ⟨.categorize c, some original⟩).isValid = true := by decide +kernel
  obtain ⟨-, hfilled, hparse⟩ := accepted_by_number_of_items (some original) c
  have hclean : Clean c := hparse _ _ hread
  exact ⟨hread, hvalid, hclean, hfilled hvalid hclean⟩

/-- A category passes with a blank as its only item, and so does a lake. -/
theorem blank_items_pass :
    let sorted : Categories := { categories := [⟨"A", [" "]⟩] }
    let swum : Categories := { correct := [" "], instruction := some "Which?" }
    ((KindRegistry.builtin.validate tag ⟨.categorize sorted, some original⟩).isValid = true ∧
        ¬ Filled (some original) sorted) ∧
      (KindRegistry.builtin.validate tag ⟨.categorize swum, some lake⟩).isValid = true ∧
        ¬ Filled (some lake) swum := by
  intro sorted swum
  have horiginal : Content.names ⟨.categorize sorted, some original⟩ lake = false := by decide
  have hlake : Content.names ⟨.categorize swum, some lake⟩ lake = true := by decide
  refine ⟨⟨by decide +kernel, ?_⟩, by decide +kernel, ?_⟩
  · rw [Filled, horiginal, if_neg Bool.false_ne_true]
    decide
  · rw [Filled, hlake, if_pos rfl]
    decide

end Worksheet.Categorize
