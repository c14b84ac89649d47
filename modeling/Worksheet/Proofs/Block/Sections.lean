import Worksheet.Block.Sections
import Worksheet.Proofs.Chars.AsciiCase
import Worksheet.Proofs.Eval.Plain

namespace Worksheet.Sections

/-- A marked name of letters begins a call, in any case. -/
theorem opensCall_of_isPrefix {word cs : List Char} (hne : word ≠ [])
    (hword : ∀ c ∈ word, c.isAlpha = true)
    (h : '@' :: (word ++ ['(']) <+: cs.map Char.toLower) : opensCall none cs = true := by
  obtain ⟨after, hafter⟩ := h
  obtain ⟨front, rest, rfl, hfront, -⟩ := List.map_eq_append_iff.1 hafter.symm
  obtain ⟨at', body, rfl, hat, hbody⟩ := List.map_eq_cons_iff.1 hfront
  obtain ⟨name, last, rfl, hname, hlast⟩ := List.map_eq_append_iff.1 hbody
  obtain ⟨paren, none', rfl, hparen, hnone⟩ := List.map_eq_cons_iff.1 hlast
  obtain rfl : none' = [] := List.map_eq_nil_iff.1 hnone
  obtain rfl : at' = '@' := Chars.eq_of_toLower_eq (by decide) hat
  obtain rfl : paren = '(' := Chars.eq_of_toLower_eq (by decide) hparen
  have halpha : ∀ c ∈ name, c.isAlpha = true := by
    intro c hc
    rw [← Char.isAlpha_toLower_eq_isAlpha]
    apply hword
    rw [← hname]
    exact List.mem_map_of_mem hc
  have hidentifier : isIdentifier name = true := by
    have hchars : ∀ c ∈ name, Text.isIdentChar c = true := by
      intro c hc
      simp [Text.isIdentChar, Char.isAlphanum, halpha c hc]
    obtain ⟨first, tail, rfl⟩ : ∃ first tail, name = first :: tail := by
      apply List.exists_cons_of_ne_nil
      rintro rfl
      exact hne hname.symm
    have hfirst : Text.isIdentStart first = true := by
      simp [Text.isIdentStart, halpha first (by simp)]
    simp only [isIdentifier, Bool.and_eq_true, List.all_eq_true]
    exact ⟨by simpa using hfirst, hchars⟩
  have hopen : CallStyle.named? (name ++ '(' :: rest) = some (name, rest) :=
    CallStyle.named?_of_isIdentifier hidentifier rest
  have hcs : '@' :: (name ++ ['(']) ++ rest = '@' :: (name ++ '(' :: rest) := by simp
  rw [hcs, opensCall, CallStyle.opening?]
  simp [hopen]

theorem decorator?_of_not_opensCall {cs : List Char} (h : opensCall none cs = false) :
    decorator? cs = none := by
  have hnot : ∀ word : List Char, word ≠ [] → (∀ c ∈ word, c.isAlpha = true) →
      ('@' :: (word ++ ['('])).isPrefixOf (cs.map Char.toLower) = false := by
    intro word hne hword
    rw [Bool.eq_false_iff]
    intro hp
    have hopen := opensCall_of_isPrefix hne hword (List.isPrefixOf_iff_prefix.1 hp)
    rw [h] at hopen
    cases hopen
  have hmetadata := hnot "metadata".toList (by simp) (List.all_eq_true.1 rfl)
  have hconfig := hnot "config".toList (by simp) (List.all_eq_true.1 rfl)
  rw [decorator?]
  dsimp only
  rw [if_neg, if_neg]
  · rw [Bool.not_eq_true]
    exact hconfig
  · rw [Bool.not_eq_true]
    exact hmetadata

/-- The text of a line without the white space around it. -/
def trimmed (l : SourceLine) : List Char :=
  Chars.trim l.text.toList

/-- A text without the parenthesis that may end it. -/
def withoutClosing (cs : List Char) : List Char :=
  if cs.getLast? = some ')' then cs.dropLast else cs

/-- The section of the decorator that is open after a line. -/
def openNext (isOpen : Option SectionName) (l : SourceLine) : Option SectionName :=
  match isOpen with
  | some name => if (trimmed l).getLast? = some ')' then none else some name
  | none =>
    match decorator? (trimmed l) with
    | some (name, rest) => if rest.getLast? = some ')' then none else some name
    | none => none

/-- The section of the field that a line gives if it stands at the head of a block. -/
def headerField? (l : SourceLine) : Option SectionName :=
  if Text.isComment (Text.trim l.text) then none else header? (trimmed l)

section Lines

variable {l : SourceLine}

theorem headerField?_of_blank (h : trimmed l = []) : headerField? l = none := by
  have hnone : header? [] = none := rfl
  rw [headerField?, h, hnone, ite_self]

theorem isEmpty_trim (h : trimmed l ≠ []) : (Chars.trim l.text.toList).isEmpty = false :=
  List.isEmpty_eq_false_iff.2 h

theorem route_inside (name : SectionName) (inHeader : Bool) (l : SourceLine) :
    route ⟨some name, inHeader⟩ l =
      (⟨openNext (some name) l, inHeader⟩, [.fields name (withoutClosing (trimmed l))]) := by
  rw [route]
  dsimp only
  rw [Chars.stripLast?_eq, openNext, withoutClosing, trimmed]
  split_ifs <;> rfl

theorem route_blank (hblank : trimmed l = []) (inHeader : Bool) :
    route ⟨none, inHeader⟩ l = (⟨none, inHeader⟩, []) := by
  rw [trimmed] at hblank
  simp [route, hblank]

theorem route_opening {name : SectionName} {rest : List Char}
    (hopens : decorator? (trimmed l) = some (name, rest)) (inHeader : Bool) :
    route ⟨none, inHeader⟩ l =
      (⟨openNext none l, inHeader⟩, [.fields name (withoutClosing rest)]) := by
  have hne : trimmed l ≠ [] := by
    intro hnil
    rw [hnil] at hopens
    cases hopens
  rw [openNext, withoutClosing, hopens]
  rw [trimmed] at hopens
  simp only [route, isEmpty_trim hne, Bool.false_eq_true, if_false, hopens, Chars.stripLast?_eq]
  split_ifs <;> rfl

theorem route_head {name : SectionName} (hplain : decorator? (trimmed l) = none)
    (hfield : headerField? l = some name) :
    route ⟨none, true⟩ l = (⟨none, true⟩, [.fields name (trimmed l)]) := by
  have hne : trimmed l ≠ [] := by
    intro hnil
    rw [headerField?_of_blank hnil] at hfield
    cases hfield
  have hempty := isEmpty_trim hne
  rw [headerField?, Text.trim] at hfield
  split at hfield
  · cases hfield
  · rename_i hcomment
    rw [trimmed] at hplain hfield
    simp only [route, hempty, Bool.false_eq_true, if_false, hplain, hcomment, Bool.not_false,
      Bool.and_self, if_true, hfield, trimmed]

theorem route_content {inHeader : Bool} (hne : trimmed l ≠ [])
    (hplain : decorator? (trimmed l) = none)
    (hfield : inHeader = true → headerField? l = none) :
    route ⟨none, inHeader⟩ l =
      (⟨none, inHeader && Text.isComment (Text.trim l.text)⟩, [.content l]) := by
  have hempty := isEmpty_trim hne
  rw [headerField?, Text.trim] at hfield
  rw [trimmed] at hplain hfield
  simp only [route, hempty, Bool.false_eq_true, if_false, hplain, Text.trim]
  cases inHeader with
  | false => rfl
  | true =>
    cases hcomment : Text.isComment (String.ofList (Chars.trim l.text.toList)) with
    | true => rfl
    | false =>
      have hnone := hfield rfl
      rw [hcomment, if_neg Bool.false_ne_true] at hnone
      simp [hnone]

end Lines

/-- The line that a contribution leaves to the content. -/
def line? : Contribution → Option SourceLine
  | .content line => some line
  | .fields .. => none

theorem content_ofLines (lines : List SourceLine) :
    (ofLines lines).content = (contributions {} lines).filterMap line? := by
  rw [ofLines]
  apply List.filterMap_congr
  intro c _
  cases c <;> rfl

/-- What a line does to the head of a block does not depend on decorators: either it is no content
and leaves the head as it is, or it is content and would be so without the lines before it. -/
theorem route_cases (state : SectionState) (l : SourceLine) :
    ((route state l).2.filterMap line? = [] ∧ (route state l).1.inHeader = state.inHeader) ∨
      (route state l).2 = [.content l] ∧
        route { inHeader := state.inHeader } l =
          ({ inHeader := (route state l).1.inHeader }, [.content l]) := by
  obtain ⟨decorator, inHeader⟩ := state
  cases decorator with
  | some name =>
    rw [route_inside]
    exact Or.inl ⟨rfl, rfl⟩
  | none =>
    cases hd : decorator? (trimmed l) with
    | some found =>
      obtain ⟨name, rest⟩ := found
      rw [route_opening hd]
      exact Or.inl ⟨rfl, rfl⟩
    | none =>
      by_cases hblank : trimmed l = []
      · rw [route_blank hblank]
        exact Or.inl ⟨rfl, rfl⟩
      · by_cases hcontent : inHeader = true → headerField? l = none
        · rw [route_content hblank hd hcontent]
          exact Or.inr ⟨rfl, rfl⟩
        · obtain ⟨rfl, hfield⟩ := Classical.not_imp.1 hcontent
          obtain ⟨name, hname⟩ := Option.ne_none_iff_exists'.1 hfield
          rw [route_head hd hname]
          exact Or.inl ⟨rfl, rfl⟩

/-- A line is content or not, and nothing else is. -/
theorem line?_route (state : SectionState) (l : SourceLine) :
    (route state l).2.filterMap line? = [] ∨ (route state l).2.filterMap line? = [l] := by
  rcases route_cases state l with ⟨hnone, -⟩ | ⟨hfound, -⟩
  · exact Or.inl hnone
  · rw [hfound]
    exact Or.inr rfl

theorem contributions_cons (state : SectionState) (l : SourceLine) (rest : List SourceLine) :
    contributions state (l :: rest) =
      (route state l).2 ++ contributions (route state l).1 rest := by
  rw [contributions]

theorem content_sublist (state : SectionState) (lines : List SourceLine) :
    ((contributions state lines).filterMap line?).Sublist lines := by
  induction lines generalizing state with
  | nil => exact List.Sublist.refl []
  | cons l rest ih =>
    have hrest := ih (route state l).1
    rw [contributions, List.filterMap_append]
    rcases line?_route state l with hl | hl
    · rw [hl, List.nil_append]
      exact hrest.cons l
    · rw [hl, List.singleton_append]
      exact hrest.cons_cons l

theorem content_subset_lines (block : Block) : (ofBlock block).content ⊆ block.lines := by
  rw [ofBlock, content_ofLines]
  exact (content_sublist {} block.lines).subset

variable {l : SourceLine}

/-- A field at the head of the block is no content. -/
theorem line?_route_of_header (hcomment : Text.isComment (Text.trim l.text) = false)
    {name : SectionName} (hh : header? (Chars.trim l.text.toList) = some name) :
    (route {} l).2.filterMap line? = [] := by
  have hfield : headerField? l = some name := by
    rw [headerField?, hcomment, if_neg Bool.false_ne_true]
    exact hh
  cases hd : decorator? (trimmed l) with
  | none =>
    rw [route_head hd hfield]
    rfl
  | some found =>
    rw [route_opening hd]
    rfl

/-- If all lines are content, the first of them is no field. -/
theorem header?_of_content_eq {rest : List SourceLine}
    (hcomment : Text.isComment (Text.trim l.text) = false)
    (h : (contributions {} (l :: rest)).filterMap line? = l :: rest) :
    header? (Chars.trim l.text.toList) = none := by
  cases hh : header? (Chars.trim l.text.toList) with
  | none => rfl
  | some name =>
    have hrest := content_sublist (route {} l).1 rest
    rw [contributions, List.filterMap_append, line?_route_of_header hcomment hh,
      List.nil_append] at h
    rw [h] at hrest
    have hlength := hrest.length_le
    simp at hlength

/-- The first line of the content. -/
theorem route_first (hne : Chars.trim l.text.toList ≠ [])
    (hd : decorator? (Chars.trim l.text.toList) = none)
    (hcomment : Text.isComment (Text.trim l.text) = false)
    (hh : header? (Chars.trim l.text.toList) = none) :
    route {} l = ({ inHeader := false }, [.content l]) := by
  have hfield : headerField? l = none := by
    rw [headerField?, hcomment, if_neg Bool.false_ne_true]
    exact hh
  rw [route_content hne hd fun _ => hfield, hcomment]
  rfl

/-- After the head of the block, lines that begin no decorator are content. -/
theorem contributions_of_plain {lines : List SourceLine}
    (h : ∀ l ∈ lines, Chars.trim l.text.toList ≠ [] ∧
      decorator? (Chars.trim l.text.toList) = none) :
    contributions { inHeader := false } lines = lines.map .content := by
  induction lines with
  | nil => rfl
  | cons l rest ih =>
    obtain ⟨hne, hd⟩ := h l (by simp)
    have hrest := ih fun k hk => h k (by simp [hk])
    have hroute : route { inHeader := false } l = ({ inHeader := false }, [.content l]) :=
      route_content hne hd nofun
    rw [contributions_cons, hroute, hrest]
    rfl

/-- Lines that are content in themselves, and of which the first is no field, are the content. -/
theorem contributions_of_isContent {lines : List SourceLine}
    (hplain : ∀ l ∈ lines, Call.occursIn l.text = false)
    (hcontent : ∀ l ∈ lines, isContent l.text = true)
    (hfirst : ∀ l ∈ lines.head?, header? (Chars.trim l.text.toList) = none) :
    contributions {} lines = lines.map .content := by
  have hlines : ∀ l ∈ lines, Chars.trim l.text.toList ≠ [] ∧
      decorator? (Chars.trim l.text.toList) = none := by
    intro l hl
    obtain ⟨hempty, -⟩ := of_isContent (hcontent l hl)
    refine ⟨?_, decorator?_of_not_opensCall ((opensCall_trim _).trans (hplain l hl))⟩
    intro hnil
    rw [Text.trim, hnil] at hempty
    cases hempty
  cases lines with
  | nil => rfl
  | cons l rest =>
    obtain ⟨hne, hd⟩ := hlines l (by simp)
    obtain ⟨-, hcomment, -⟩ := of_isContent (hcontent l (by simp))
    have hrest : contributions { inHeader := false } rest = rest.map .content :=
      contributions_of_plain fun k hk => hlines k (by simp [hk])
    rw [contributions, route_first hne hd hcomment (hfirst l rfl)]
    dsimp only
    rw [hrest]
    rfl

/-- The text that a contribution leaves to the fields of a section. -/
def field? (name : SectionName) : Contribution → Option (List Char)
  | .fields other text => if other = name then some (Chars.trim text) else none
  | .content _ => none

/-- The texts that make up the fields of a section. -/
def fieldTexts (name : SectionName) (found : List Contribution) : List (List Char) :=
  (found.filterMap (field? name)).filter (!·.isEmpty)

theorem fieldText_eq (name : SectionName) (found : List Contribution) :
    fieldText name found = String.ofList (Chars.join ['\n'] (fieldTexts name found)) := by
  rw [fieldText, fieldTexts]
  rfl

@[simp] theorem fieldTexts_append (name : SectionName) (xs ys : List Contribution) :
    fieldTexts name (xs ++ ys) = fieldTexts name xs ++ fieldTexts name ys := by
  simp [fieldTexts]

theorem fieldTexts_content (name : SectionName) (lines : List SourceLine) :
    fieldTexts name (lines.map .content) = [] := by
  have hnone : (lines.map Contribution.content).filterMap (field? name) = [] := by
    simp [List.filterMap_map, field?]
  rw [fieldTexts, hnone]
  rfl

theorem fieldText_append_content (name : SectionName) (found : List Contribution)
    (lines : List SourceLine) :
    fieldText name (found ++ lines.map .content) = fieldText name found := by
  rw [fieldText_eq, fieldText_eq, fieldTexts_append, fieldTexts_content, List.append_nil]

/-- The sections of a block of one field and content. -/
theorem ofLines_of_field {head : SourceLine} {mid : List SourceLine} {text : List Char}
    (hhead : route {} head = ({}, [.fields .metadata text]))
    (hmid : contributions {} mid = mid.map .content) : ofLines (head :: mid) =
      ⟨fieldText .metadata [.fields .metadata text], fieldText .config [.fields .metadata text],
        mid⟩ := by
  rw [ofLines, contributions, hhead]
  dsimp only
  rw [hmid, fieldText_append_content, fieldText_append_content]
  congr 1
  simp [List.filterMap_map]

end Worksheet.Sections
