import Worksheet.Content.Matching
import Worksheet.Proofs.Chars.Split
import Worksheet.Proofs.Content.Reread

namespace Worksheet.Matching

open Chars (isBlank trim)

/-- A text without a place to split it has neither of the separators. -/
theorem splitPair_eq_none_iff {cs : List Char} :
    splitPair cs = none ↔ '=' ∉ cs ∧ ¬ [':', ':'] <:+: cs := by
  fun_induction splitPair cs with
  | case1 => simp
  | case2 rest =>
    have hcolons : [':', ':'] <:+: ':' :: ':' :: rest := ⟨[], rest, rfl⟩
    simp [hcolons]
  | case3 c rest hdouble hc =>
    have hc : c = '=' := eq_of_beq hc
    simp [hc]
  | case4 c rest hdouble hc ih =>
    have hne : ¬ '=' = c := fun h => hc (by simp [← h])
    have hstart : ¬ [':', ':'] <+: c :: rest := by
      rintro ⟨after, hafter⟩
      obtain ⟨rfl, hrest⟩ := List.cons.inj hafter
      exact hdouble after rfl hrest.symm
    rw [Option.map_eq_none_iff, ih, List.infix_cons_iff]
    simp [hne, hstart]

theorem left_isPrefix {cs left right : List Char} (h : splitPair cs = some (left, right)) :
    left <+: cs := by
  fun_induction splitPair cs generalizing left with
  | case1 => cases h
  | case2 rest =>
    obtain ⟨rfl, -⟩ := Prod.mk.inj (Option.some.inj h)
    exact List.nil_prefix
  | case3 c rest hdouble hc =>
    obtain ⟨rfl, -⟩ := Prod.mk.inj (Option.some.inj h)
    exact List.nil_prefix
  | case4 c rest hdouble hc ih =>
    obtain ⟨⟨before, after⟩, hsplit, he⟩ := Option.map_eq_some_iff.1 h
    obtain ⟨rfl, rfl⟩ := Prod.mk.inj he
    exact List.cons_prefix_cons.2 ⟨rfl, ih hsplit⟩

/-- What stands before the first separator has none. -/
theorem splitPair_left {cs left right : List Char} (h : splitPair cs = some (left, right)) :
    splitPair left = none := by
  fun_induction splitPair cs generalizing left with
  | case1 => cases h
  | case2 rest =>
    obtain ⟨rfl, -⟩ := Prod.mk.inj (Option.some.inj h)
    rfl
  | case3 c rest hdouble hc =>
    obtain ⟨rfl, -⟩ := Prod.mk.inj (Option.some.inj h)
    rfl
  | case4 c rest hdouble hc ih =>
    obtain ⟨⟨before, after⟩, hsplit, he⟩ := Option.map_eq_some_iff.1 h
    obtain ⟨rfl, rfl⟩ := Prod.mk.inj he
    have hbefore : splitPair before = none := ih hsplit
    rw [splitPair_eq_none_iff] at hbefore ⊢
    have hne : ¬ '=' = c := fun h => hc (by simp [← h])
    refine ⟨by simp [hne, hbefore.1], ?_⟩
    rw [List.infix_cons_iff]
    rintro (hstart | hinner)
    · -- A second colon right after this one would have been the separator.
      obtain ⟨rfl, hcolon⟩ := List.cons_prefix_cons.1 hstart
      obtain ⟨tail, htail⟩ := hcolon.trans (left_isPrefix hsplit)
      exact hdouble tail rfl htail.symm
    · exact hbefore.2 hinner

theorem splitPair_trim_eq_none {cs : List Char} (h : splitPair cs = none) :
    splitPair (trim cs) = none := by
  rw [splitPair_eq_none_iff] at h ⊢
  refine ⟨fun hm => h.1 (Chars.mem_of_mem_trim hm), fun hcolons => h.2 ?_⟩
  exact hcolons.trans (Chars.trim_isInfix cs)

/-- A text without a separator and a space go to the left item. -/
theorem splitPair_append {left : List Char} (h : splitPair left = none) (rest : List Char) :
    splitPair (left ++ ' ' :: rest) =
      (splitPair rest).map fun (before, after) => (left ++ ' ' :: before, after) := by
  induction left with
  | nil =>
    rw [List.nil_append, splitPair, if_neg (by decide)]
    · rfl
    · intro after hafter
      cases hafter
  | cons c cs ih =>
    have hcs : splitPair cs = none := by
      rw [splitPair_eq_none_iff] at h ⊢
      refine ⟨fun hm => h.1 (by simp [hm]), fun hcolons => h.2 ?_⟩
      exact hcolons.trans (List.suffix_cons c cs).isInfix
    rw [splitPair_eq_none_iff] at h
    have hc : ¬ (c == '=') = true := fun he => h.1 (by simp [eq_of_beq he])
    rw [List.cons_append, splitPair, if_neg hc, ih hcs, Option.map_map]
    · rfl
    · -- The colons would stand in the left item already.
      rintro after rfl hafter
      cases cs with
      | nil => cases hafter
      | cons d ds =>
        obtain ⟨rfl, -⟩ := List.cons.inj hafter
        exact h.2 ⟨[], ds, rfl⟩

theorem splitPair_append_of_some {cs left right : List Char} (h : splitPair cs = some (left, right))
    (tail : List Char) : splitPair (cs ++ tail) = some (left, right ++ tail) := by
  fun_induction splitPair cs generalizing left with
  | case1 => cases h
  | case2 rest =>
    obtain ⟨rfl, rfl⟩ := Prod.mk.inj (Option.some.inj h)
    rfl
  | case3 d rest hdouble hd =>
    obtain ⟨rfl, rfl⟩ := Prod.mk.inj (Option.some.inj h)
    obtain rfl : d = '=' := eq_of_beq hd
    rfl
  | case4 d rest hdouble hd ih =>
    obtain ⟨⟨before, after⟩, hsplit, he⟩ := Option.map_eq_some_iff.1 h
    obtain ⟨rfl, rfl⟩ := Prod.mk.inj he
    rw [List.cons_append, splitPair, if_neg hd, ih hsplit]
    · rfl
    · rintro after rfl hafter
      cases rest with
      | nil => cases hsplit
      | cons e es =>
        obtain ⟨rfl, -⟩ := List.cons.inj hafter
        exact hdouble es rfl rfl

theorem colons_append_iff {c : Char} (hc : c ≠ ':') {cs : List Char} :
    [':', ':'] <:+: cs ++ [c] ↔ [':', ':'] <:+: cs := by
  rw [List.infix_concat_iff]
  constructor
  · rintro (hend | hinner)
    · obtain ⟨before, hbefore⟩ := hend
      have hlast := congrArg List.getLast? hbefore
      simp [Ne.symm hc] at hlast
    · exact hinner
  · exact Or.inr

theorem colons_cons_iff {c : Char} (hc : c ≠ ':') {cs : List Char} :
    [':', ':'] <:+: c :: cs ↔ [':', ':'] <:+: cs := by
  rw [List.infix_cons_iff, List.cons_prefix_cons]
  simp [Ne.symm hc]

theorem ne_separator_of_isBlank {c : Char} (hc : isBlank c = true) : c ≠ ':' ∧ c ≠ '=' := by
  constructor
  all_goals
    rintro rfl
    exact absurd hc (by decide)

/-- Both items as they are read, or none if the text is no pair. -/
def trimmedPair (cs : List Char) : Option (List Char × List Char) :=
  (splitPair cs).map fun (left, right) => (trim left, trim right)

theorem trimmedPair_trim (cs : List Char) : trimmedPair (trim cs) = trimmedPair cs := by
  apply Chars.apply_trim
  · intro c xs hc
    obtain ⟨hcolon, hequals⟩ := ne_separator_of_isBlank hc
    have hcons : splitPair (c :: xs) =
        (splitPair xs).map fun (left, right) => (c :: left, right) := by
      rw [splitPair, if_neg (by simpa using hequals)]
      rintro after rfl -
      exact hcolon rfl
    rw [trimmedPair, trimmedPair, hcons, Option.map_map]
    refine congrArg (Option.map · (splitPair xs)) (funext fun p => ?_)
    simp [Chars.trim_cons_of_isBlank p.1 hc]
  · intro c xs hc
    rw [trimmedPair, trimmedPair]
    cases hs : splitPair xs with
    | some p =>
      rw [splitPair_append_of_some hs]
      simp [Chars.trim_append_of_isBlank p.2 hc]
    | none =>
      have hnone : splitPair (xs ++ [c]) = none := by
        obtain ⟨hcolon, hequals⟩ := ne_separator_of_isBlank hc
        rw [splitPair_eq_none_iff] at hs ⊢
        rw [colons_append_iff hcolon]
        exact ⟨by simp [hs.1, Ne.symm hequals], hs.2⟩
      rw [hnone]

theorem parsePair_eq (text : String) :
    parsePair text = (trimmedPair text.toList).map fun (left, right) =>
      ⟨String.ofList left, String.ofList right⟩ := by
  rw [parsePair, trimmedPair, Option.map_map]
  rfl

theorem parsePair_trim (text : String) : parsePair (Text.trim text) = parsePair text := by
  rw [parsePair_eq, parsePair_eq, Text.trim, String.toList_ofList, trimmedPair_trim]

/-- The form of a pair that was read from a line. -/
structure WellRead (p : MatchPair) : Prop where
  left : Chars.Tight p.left.toList
  right : Chars.Tight p.right.toList
  whole : splitPair p.left.toList = none

theorem wellRead_of_parsePair {text : String} {p : MatchPair} (h : parsePair text = some p) :
    WellRead p := by
  obtain ⟨⟨left, right⟩, hsplit, rfl⟩ := Option.map_eq_some_iff.1 h
  refine ⟨?_, ?_, ?_⟩
  · simpa using Chars.tight_trim left
  · simpa using Chars.tight_trim right
  · simpa using splitPair_trim_eq_none (splitPair_left hsplit)

/-- Whether an item keeps the pair from being written with an equals sign. -/
def isSpecial (item : String) : Bool :=
  Text.contains item '=' || Text.contains item '['

theorem renderPair_of_special {p : MatchPair} (h : (isSpecial p.left || isSpecial p.right) = true) :
    renderPair p = p.left ++ " :: " ++ p.right := by
  rw [isSpecial, isSpecial] at h
  simp only [renderPair, h, if_true]

theorem renderPair_of_not_special {p : MatchPair}
    (h : (isSpecial p.left || isSpecial p.right) = false) :
    renderPair p = p.left ++ " = " ++ p.right := by
  rw [isSpecial, isSpecial] at h
  simp only [renderPair, h, Bool.false_eq_true, if_false]

theorem parsePair_renderPair {p : MatchPair} (h : WellRead p) :
    parsePair (renderPair p) = some p := by
  have hb : isBlank ' ' = true := by decide
  have hitems : ∀ after : List Char, splitPair after = some ([], ' ' :: p.right.toList) →
      parsePair (String.ofList (p.left.toList ++ ' ' :: after)) = some p := by
    intro after hafter
    rw [parsePair, String.toList_ofList, splitPair_append h.whole, hafter, Option.map_some,
      Option.map_some]
    dsimp only
    rw [Chars.trim_append_of_isBlank _ hb, h.left.trim_eq, Chars.trim_cons_of_isBlank _ hb,
      h.right.trim_eq, String.ofList_toList, String.ofList_toList]
  cases hs : isSpecial p.left || isSpecial p.right with
  | true =>
    have hchars : renderPair p =
        String.ofList (p.left.toList ++ ' ' :: ':' :: ':' :: ' ' :: p.right.toList) := by
      rw [renderPair_of_special hs, ← String.toList_inj]
      simp
    rw [hchars]
    exact hitems _ rfl
  | false =>
    have hchars : renderPair p =
        String.ofList (p.left.toList ++ ' ' :: '=' :: ' ' :: p.right.toList) := by
      rw [renderPair_of_not_special hs, ← String.toList_inj]
      simp
    rw [hchars]
    exact hitems _ rfl

theorem qualifies_iff {text : String} : qualifies text = true ↔
    [':', ':'] <:+: text.toList ∨ '=' ∈ text.toList ∧ '[' ∉ text.toList := by
  have hcolons : Text.includes text "::" = true ↔ [':', ':'] <:+: text.toList :=
    Chars.occursIn_iff
  simp only [qualifies, Bool.or_eq_true, hcolons, Bool.and_eq_true, Text.contains,
    List.contains_iff_mem, Bool.not_eq_true', ← Bool.not_eq_true]

theorem qualifies_trim (text : String) : qualifies (Text.trim text) = qualifies text := by
  have hcolons : ([':', ':'] <:+: trim text.toList) = ([':', ':'] <:+: text.toList) := by
    apply Chars.apply_trim (f := fun cs => [':', ':'] <:+: cs)
    · intro c cs hc
      exact propext (colons_cons_iff (ne_separator_of_isBlank hc).1)
    · intro c cs hc
      exact propext (colons_append_iff (ne_separator_of_isBlank hc).1)
  have hequals : '=' ∈ trim text.toList ↔ '=' ∈ text.toList := Chars.mem_trim_iff (by decide)
  have hbracket : '[' ∈ trim text.toList ↔ '[' ∈ text.toList := Chars.mem_trim_iff (by decide)
  rw [Bool.eq_iff_iff, qualifies_iff, qualifies_iff, Text.trim, String.toList_ofList, hcolons,
    hequals, hbracket]

/-- Every written pair has a separator that makes it a pair. -/
theorem qualifies_renderPair (p : MatchPair) : qualifies (renderPair p) = true := by
  rw [qualifies_iff]
  cases hs : isSpecial p.left || isSpecial p.right with
  | true =>
    left
    rw [renderPair_of_special hs]
    exact ⟨p.left.toList ++ [' '], ' ' :: p.right.toList, by simp⟩
  | false =>
    right
    rw [renderPair_of_not_special hs]
    simp only [isSpecial, Text.contains, Bool.or_eq_false_iff, List.contains_eq_mem,
      decide_eq_false_iff_not] at hs
    simp [hs.1.2, hs.2.2]

theorem pairLine_eq_ok_iff {l : ContentLine} {p : MatchPair} :
    pairLine l = .ok p ↔ qualifies l.text = true ∧ parsePair l.text = some p := by
  rw [pairLine]
  cases hq : qualifies l.text with
  | false => simp
  | true => cases parsePair l.text <;> simp

theorem parse_eq_ok_iff {lines : List ContentLine} {pairs : List MatchPair} :
    parse lines = .ok pairs ↔
      (ContentLine.withText lines).mapM pairLine = .ok pairs ∧ pairs ≠ [] := by
  rw [parse]
  exact bind_nonempty_eq_ok_iff.trans
    ⟨fun ⟨_, hf, hne, he⟩ => he ▸ ⟨hf, hne⟩, fun ⟨hf, hne⟩ => ⟨_, hf, hne, rfl⟩⟩

/-- What is read depends on the texts of the lines alone. -/
theorem parse_of_texts {ks ls : List ContentLine} (h : ks.map (·.text) = ls.map (·.text))
    {pairs : List MatchPair} (hk : parse ks = .ok pairs) : parse ls = .ok pairs := by
  have htexts : ∀ ms : List ContentLine, (ContentLine.withText ms).map (·.text) =
      (ms.map (·.text)).filter (!·.isEmpty) := by
    intro ms
    rw [ContentLine.withText, List.filter_map]
    rfl
  have hread : ∀ ms : List ContentLine, (ContentLine.withText ms).mapM pairLine = .ok pairs ↔
      List.Forall₂ (fun t p => qualifies t = true ∧ parsePair t = some p)
        ((ms.map (·.text)).filter (!·.isEmpty)) pairs := by
    intro ms
    rw [mapM_eq_ok_iff, ← htexts, List.forall₂_map_left_iff]
    simp only [pairLine_eq_ok_iff]
  rw [parse_eq_ok_iff, hread] at hk ⊢
  rwa [← h]

/-- A pair comes back from every line that has its written form between white space. -/
theorem pairLine_of_trim {p : MatchPair} (h : WellRead p) {l : ContentLine}
    (hl : l.text = Text.trim (renderPair p)) : pairLine l = .ok p := by
  rw [pairLine_eq_ok_iff, hl, qualifies_trim, parsePair_trim]
  exact ⟨qualifies_renderPair p, parsePair_renderPair h⟩

theorem trim_renderPair_ne_empty (p : MatchPair) : Text.trim (renderPair p) ≠ "" := by
  intro he
  have hq : qualifies (Text.trim (renderPair p)) = true := by
    rw [qualifies_trim, qualifies_renderPair]
  rw [he] at hq
  exact absurd hq (by decide)

/-- Pairs that were read have the form of pairs. -/
theorem wellRead_of_parse {lines : List ContentLine} {pairs : List MatchPair}
    (h : parse lines = .ok pairs) : ∀ p ∈ pairs, WellRead p := by
  intro p hp
  obtain ⟨hlines, -⟩ := parse_eq_ok_iff.1 h
  obtain ⟨l, -, hl⟩ := forall₂_exists_left (mapM_eq_ok_iff.1 hlines) hp
  exact wellRead_of_parsePair (pairLine_eq_ok_iff.1 hl).2

/-- Pairs of this form come back from the lines that they are written as. -/
theorem parse_reread {pairs : List MatchPair} (hne : pairs ≠ []) (hform : ∀ p ∈ pairs, WellRead p) :
    parse ((serialize pairs).map .reread) = .ok pairs := by
  have hback : ∀ p ∈ pairs, pairLine (.reread (renderPair p)) = .ok p := fun p hp =>
    pairLine_of_trim (hform p hp) rfl
  rw [parse_eq_ok_iff]
  refine ⟨?_, hne⟩
  exact (ContentLine.mapM_reread_iff fun p _ => trim_renderPair_ne_empty p).2 hback

/-- Pairs that were read from lines are read back from the lines that they are written as, whether
they pass their check or not. -/
theorem parse_serialize (lines : List ContentLine) (pairs : List MatchPair)
    (h : parse lines = .ok pairs) : parse ((serialize pairs).map .reread) = .ok pairs := by
  have hform : ∀ p ∈ pairs, WellRead p := wellRead_of_parse h
  have hne : pairs ≠ [] := (parse_eq_ok_iff.1 h).2
  exact parse_reread hne hform

/-- Brackets, both separators in one line and empty items. -/
theorem parse_serialize_separators :
    parse [⟨"a[1] :: x = y", [], 1⟩, ⟨"=", [], 2⟩, ⟨"b: = c::d", [], 3⟩] =
      .ok [⟨"a[1]", "x = y"⟩, ⟨"", ""⟩, ⟨"b:", "c::d"⟩] ∧
    parse ((serialize [⟨"a[1]", "x = y"⟩, ⟨"", ""⟩, ⟨"b:", "c::d"⟩]).map .reread) =
      .ok [⟨"a[1]", "x = y"⟩, ⟨"", ""⟩, ⟨"b:", "c::d"⟩] := by
  have hp : parse [⟨"a[1] :: x = y", [], 1⟩, ⟨"=", [], 2⟩, ⟨"b: = c::d", [], 3⟩] =
      .ok [⟨"a[1]", "x = y"⟩, ⟨"", ""⟩, ⟨"b:", "c::d"⟩] := by decide +kernel
  exact ⟨hp, parse_serialize _ _ hp⟩

end Worksheet.Matching
