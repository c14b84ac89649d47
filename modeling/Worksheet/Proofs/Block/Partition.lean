import Worksheet.Proofs.Block.Sections

namespace Worksheet.Sections

/-- The section of the decorator that is open after some lines. -/
def openAfter (lines : List SourceLine) : Option SectionName :=
  lines.foldl openNext none

/-- A line that does not end the head of a block: a blank line, a comment, a decorator or a
field. -/
def KeepsHead (l : SourceLine) : Prop :=
  trimmed l = [] ∨ Text.isComment (Text.trim l.text) = true ∨
    (decorator? (trimmed l)).isSome = true ∨ (headerField? l).isSome = true

/-- Whether the head of a block goes on after some lines. Lines within decorators do not matter. -/
def AtHead (before : List SourceLine) : Prop :=
  ∀ front l back, before = front ++ l :: back → openAfter front = none → KeepsHead l

/-- How a line comes to give fields: it opens a decorator, it stands in an open one, or it is a
field at the head of the block. -/
inductive FieldPlace where
  | opening
  | inside
  | head
  deriving DecidableEq

/-- What a line of a block is, with the section that it contributes to and the text. -/
inductive LineRole where
  | blank
  | content
  | fields (place : FieldPlace) (name : SectionName) (text : List Char)
  deriving DecidableEq

/-- The text that a line contributes to a section. -/
def LineRole.text? (name : SectionName) : LineRole → Option (List Char)
  | .fields _ other text => if other = name then some text else none
  | _ => none

/-- The texts that lines contribute to a section, each on a line of its own. -/
def gathered (name : SectionName) (roles : List LineRole) : String :=
  String.ofList (Chars.join ['\n']
    ((roles.filterMap (LineRole.text? name)).filter (!·.isEmpty)))

/-- What a line is after the lines before it. -/
inductive HasRole (before : List SourceLine) (l : SourceLine) : LineRole → Prop
  | blank (hclosed : openAfter before = none) (hblank : trimmed l = []) : HasRole before l .blank
  | content (hclosed : openAfter before = none) (hne : trimmed l ≠ [])
    (hplain : decorator? (trimmed l) = none)
    (hfield : AtHead before → headerField? l = none) : HasRole before l .content
  | opening {name : SectionName} {rest : List Char} (hclosed : openAfter before = none)
    (hopens : decorator? (trimmed l) = some (name, rest)) :
    HasRole before l (.fields .opening name (Chars.trim (withoutClosing rest)))
  | inside {name : SectionName} (hopen : openAfter before = some name) :
    HasRole before l (.fields .inside name (Chars.trim (withoutClosing (trimmed l))))
  | head {name : SectionName} (hclosed : openAfter before = none)
    (hplain : decorator? (trimmed l) = none) (hhead : AtHead before)
    (hfield : headerField? l = some name) : HasRole before l (.fields .head name (trimmed l))

/-- What the lines of a block are after the lines before them. -/
inductive Sorted : (before lines : List SourceLine) → List LineRole → Prop
  | nil {before : List SourceLine} : Sorted before [] []
  | cons {before rest : List SourceLine} {l : SourceLine} {role : LineRole} {roles : List LineRole}
    (hrole : HasRole before l role) (hrest : Sorted (before ++ [l]) rest roles) :
    Sorted before (l :: rest) (role :: roles)

section Roles

variable {before rest : List SourceLine} {l : SourceLine} {role other : LineRole}
  {roles others : List LineRole}

theorem exists_hasRole (before : List SourceLine) (l : SourceLine) :
    ∃ role, HasRole before l role := by
  cases hopen : openAfter before with
  | some name => exact ⟨_, .inside hopen⟩
  | none =>
    cases hd : decorator? (trimmed l) with
    | some found => exact ⟨_, .opening hopen hd⟩
    | none =>
      by_cases hblank : trimmed l = []
      · exact ⟨_, .blank hopen hblank⟩
      · by_cases hhead : AtHead before
        · cases hfield : headerField? l with
          | some name => exact ⟨_, .head hopen hd hhead hfield⟩
          | none => exact ⟨_, .content hopen hblank hd fun _ => hfield⟩
        · exact ⟨_, .content hopen hblank hd fun h => absurd h hhead⟩

theorem HasRole.unique (h : HasRole before l role) (hother : HasRole before l other) :
    role = other := by
  have hnone : decorator? [] = none := rfl
  cases h <;> cases hother <;> simp_all [headerField?_of_blank]

theorem Sorted.unique (h : Sorted before rest roles) (hother : Sorted before rest others) :
    roles = others := by
  induction h generalizing others with
  | nil => cases hother; rfl
  | cons hrole _ ih =>
    cases hother with
    | cons hrole' hrest' => rw [hrole.unique hrole', ih hrest']

theorem Sorted.exists_hasRole (h : Sorted before rest roles) (hmem : (l, role) ∈ rest.zip roles) :
    ∃ front, HasRole front l role := by
  induction h with
  | nil => cases hmem
  | cons hrole _ ih =>
    rcases List.mem_cons.1 hmem with heq | hmem
    · obtain ⟨rfl, rfl⟩ := Prod.mk.inj heq
      exact ⟨_, hrole⟩
    · exact ih hmem

@[simp] theorem isSome_text?_fields {place : FieldPlace} {name own : SectionName}
    {text : List Char} : ((LineRole.fields place own text).text? name).isSome = true ↔
      name = own := by
  by_cases h : own = name
  · simp [LineRole.text?, h]
  · simp [LineRole.text?, h, Ne.symm h]

/-- A line that is neither blank nor content contributes to exactly one section. -/
theorem HasRole.existsUnique_text (h : HasRole before l role) (hne : trimmed l ≠ [])
    (hcontent : role ≠ .content) : ∃! name, (role.text? name).isSome = true := by
  have hfields : ∀ place own text, role = .fields place own text →
      ∃! name, (role.text? name).isSome = true := by
    rintro place own text rfl
    exact ⟨own, by simp, fun name hname => by simpa using hname⟩
  cases h with
  | blank _ hblank => exact absurd hblank hne
  | content => exact absurd rfl hcontent
  | opening => exact hfields _ _ _ rfl
  | inside => exact hfields _ _ _ rfl
  | head => exact hfields _ _ _ rfl

end Roles

section Steps

variable {before : List SourceLine} {l : SourceLine} {state : SectionState} {role : LineRole}

theorem openAfter_append (before : List SourceLine) (l : SourceLine) :
    openAfter (before ++ [l]) = openNext (openAfter before) l := by
  rw [openAfter, List.foldl_append]
  rfl

/-- The head of a block goes on after a line if it did before and the line does not end it. -/
theorem atHead_append (before : List SourceLine) (l : SourceLine) :
    AtHead (before ++ [l]) ↔ AtHead before ∧ (openAfter before = none → KeepsHead l) := by
  constructor
  · intro h
    refine ⟨?_, h before l [] rfl⟩
    intro front m back hsplit
    apply h front m (back ++ [l])
    rw [hsplit, List.append_assoc, List.cons_append]
  · rintro ⟨hbefore, hlast⟩ front m back hsplit hclosed
    rcases List.eq_nil_or_concat back with rfl | ⟨inner, last, rfl⟩
    · obtain ⟨rfl, hm⟩ := List.append_inj' hsplit rfl
      obtain rfl : l = m := by simpa using hm
      exact hlast hclosed
    · rw [List.concat_eq_append, ← List.cons_append, ← List.append_assoc] at hsplit
      exact hbefore front m inner (List.append_inj' hsplit rfl).1 hclosed

theorem atHead_append_of (h : openAfter before = none → KeepsHead l) :
    AtHead (before ++ [l]) ↔ AtHead before := by
  rw [atHead_append]
  exact and_iff_left h

/-- The text that a contribution leaves to a section is the trimmed one. -/
theorem filterMap_field? (place : FieldPlace) (own name : SectionName) (text : List Char) :
    [Contribution.fields own text].filterMap (field? name) =
      ((LineRole.fields place own (Chars.trim text)).text? name).toList := by
  by_cases hname : own = name <;> simp [field?, LineRole.text?, hname]

/-- What the state says of the lines before. -/
structure Follows (before : List SourceLine) (state : SectionState) : Prop where
  decorator : state.decorator = openAfter before
  inHeader : state.inHeader = true ↔ AtHead before

theorem follows_start : Follows [] {} := by
  refine ⟨rfl, fun _ => ?_, fun _ => rfl⟩
  intro front l back hsplit
  simp at hsplit

/-- One line: it goes where its role says, and the state follows. -/
theorem route_of_role (hf : Follows before state) (hr : HasRole before l role) :
    (∀ name, (route state l).2.filterMap (field? name) = (role.text? name).toList) ∧
      (route state l).2.filterMap line? = (if role = .content then [l] else []) ∧
      Follows (before ++ [l]) (route state l).1 := by
  obtain ⟨decorator, inHeader⟩ := state
  have hdecorator : decorator = openAfter before := hf.decorator
  have hheader : inHeader = true ↔ AtHead before := hf.inHeader
  cases hr with
  | blank hclosed hblank =>
    obtain rfl : decorator = none := hdecorator.trans hclosed
    rw [route_blank hblank]
    refine ⟨fun name => rfl, rfl, ?_, ?_⟩
    · rw [openAfter_append, hclosed, openNext, hblank]
      rfl
    · rw [atHead_append_of fun _ => Or.inl hblank]
      exact hheader
  | content hclosed hne hplain hfield =>
    obtain rfl : decorator = none := hdecorator.trans hclosed
    have hnone : inHeader = true → headerField? l = none := fun h => hfield (hheader.1 h)
    rw [route_content hne hplain hnone]
    refine ⟨fun name => rfl, rfl, ?_, ?_⟩
    · rw [openAfter_append, hclosed, openNext, hplain]
    · rw [atHead_append, Bool.and_eq_true, hheader]
      -- Only a comment among the content does not end the head.
      refine and_congr_right fun hhead => ⟨fun h _ => Or.inr (Or.inl h), fun h => ?_⟩
      rcases h hclosed with hblank | hcomment | hopens | hgiven
      · exact absurd hblank hne
      · exact hcomment
      · rw [hplain] at hopens
        cases hopens
      · rw [hfield hhead] at hgiven
        cases hgiven
  | @opening name rest hclosed hopens =>
    obtain rfl : decorator = none := hdecorator.trans hclosed
    rw [route_opening hopens]
    refine ⟨fun other => filterMap_field? .opening name other _, rfl, ?_, ?_⟩
    · rw [openAfter_append, hclosed]
    · have hkeeps : KeepsHead l := Or.inr (Or.inr (Or.inl (by rw [hopens]; rfl)))
      rw [atHead_append_of fun _ => hkeeps]
      exact hheader
  | @inside name hopen =>
    obtain rfl : decorator = some name := hdecorator.trans hopen
    rw [route_inside]
    refine ⟨fun other => filterMap_field? .inside name other _, rfl, ?_, ?_⟩
    · rw [openAfter_append, hopen]
    · have hnever : openAfter before ≠ none := by
        rw [hopen]
        exact Option.some_ne_none name
      rw [atHead_append_of fun hclosed => absurd hclosed hnever]
      exact hheader
  | @head name hclosed hplain hhead hfield =>
    obtain rfl : decorator = none := hdecorator.trans hclosed
    obtain rfl : inHeader = true := hheader.2 hhead
    rw [route_head hplain hfield]
    refine ⟨fun other => ?_, rfl, ?_, ?_⟩
    · rw [filterMap_field? .head, trimmed, Chars.trim_trim]
    · rw [openAfter_append, hclosed, openNext, hplain]
    · have hkeeps : KeepsHead l := Or.inr (Or.inr (Or.inr (by rw [hfield]; rfl)))
      rw [atHead_append_of fun _ => hkeeps]
      exact hheader

end Steps

section Runs

variable {before lines : List SourceLine} {roles : List LineRole} {state : SectionState}

theorem exists_sorted (before lines : List SourceLine) : ∃ roles, Sorted before lines roles := by
  induction lines generalizing before with
  | nil => exact ⟨[], .nil⟩
  | cons l rest ih =>
    obtain ⟨role, hrole⟩ := exists_hasRole before l
    obtain ⟨roles, hroles⟩ := ih (before ++ [l])
    exact ⟨role :: roles, .cons hrole hroles⟩

/-- All lines go where their roles say. -/
theorem contributions_of_sorted (hf : Follows before state) (h : Sorted before lines roles) :
    (∀ name, (contributions state lines).filterMap (field? name) =
        roles.filterMap (LineRole.text? name)) ∧
      (contributions state lines).filterMap line? =
        ((lines.zip roles).filter (·.2 = .content)).map Prod.fst := by
  induction h generalizing state with
  | nil => exact ⟨fun _ => rfl, rfl⟩
  | @cons before rest l role roles hrole _ ih =>
    obtain ⟨htexts, hline, hnext⟩ := route_of_role hf hrole
    obtain ⟨hrestTexts, hrestLines⟩ := ih hnext
    rw [contributions_cons]
    constructor
    · intro name
      rw [List.filterMap_append, htexts, hrestTexts, List.filterMap_cons]
      cases role.text? name <;> rfl
    · rw [List.filterMap_append, hline, hrestLines, List.zip_cons_cons]
      by_cases hcontent : role = .content <;> simp [hcontent]

end Runs

section Stability

/-- The content alone is content again. -/
theorem contributions_content (state : SectionState) (lines : List SourceLine) :
    contributions { inHeader := state.inHeader }
        ((contributions state lines).filterMap line?) =
      ((contributions state lines).filterMap line?).map .content := by
  induction lines generalizing state with
  | nil => rfl
  | cons l rest ih =>
    have hrest := ih (route state l).1
    rw [contributions_cons, List.filterMap_append]
    rcases route_cases state l with ⟨hnone, hheader⟩ | ⟨hfound, hroute⟩
    · rw [hnone, List.nil_append, ← hheader]
      exact hrest
    · have hline : (route state l).2.filterMap line? = [l] := by
        rw [hfound]
        rfl
      rw [hline, List.singleton_append, contributions_cons, hroute, hrest]
      rfl

theorem ofLines_content (lines : List SourceLine) :
    ofLines (ofLines lines).content = ⟨"", "", (ofLines lines).content⟩ := by
  rw [content_ofLines, ofLines, contributions_content {} lines, fieldText_eq, fieldText_eq,
    fieldTexts_content, fieldTexts_content]
  congr 1
  simp [List.filterMap_map]

end Stability

/-- Each line of a block has exactly one role after the lines before it. The content are the lines
whose role it is, in their order and as they are, and none of them is blank. Every other line that
is not blank contributes to exactly one section, and each section is made up of what is contributed
to it, without the blank texts. Sorting the content alone gives no fields and the same content. -/
theorem ofBlock_partition (b : Block) :
    ∃ roles, Sorted [] b.lines roles ∧ (∀ others, Sorted [] b.lines others → others = roles) ∧
      (ofBlock b).content = ((b.lines.zip roles).filter (·.2 = .content)).map Prod.fst ∧
      (ofBlock b).content.Sublist b.lines ∧
      (∀ l ∈ (ofBlock b).content, Text.isBlank l.text = false) ∧
      (∀ l role, (l, role) ∈ b.lines.zip roles → Text.isBlank l.text = false → role ≠ .content →
        ∃! name, (role.text? name).isSome = true) ∧
      (ofBlock b).metadata = gathered .metadata roles ∧
      (ofBlock b).config = gathered .config roles ∧
      ofBlock { b with lines := (ofBlock b).content } = ⟨"", "", (ofBlock b).content⟩ := by
  obtain ⟨roles, hsorted⟩ := exists_sorted [] b.lines
  obtain ⟨htexts, hlines⟩ := contributions_of_sorted follows_start hsorted
  have hblank : ∀ l : SourceLine, Text.isBlank l.text = true ↔ trimmed l = [] :=
    fun l => Chars.trim_eq_nil_iff.symm
  have hcontent : (ofBlock b).content =
      ((b.lines.zip roles).filter (·.2 = .content)).map Prod.fst := by
    rw [ofBlock, content_ofLines, hlines]
  have hfields : ∀ name, fieldText name (contributions {} b.lines) = gathered name roles := by
    intro name
    rw [fieldText_eq, fieldTexts, htexts, gathered]
  refine ⟨roles, hsorted, fun others hothers => hothers.unique hsorted, hcontent, ?_, ?_, ?_,
    hfields .metadata, hfields .config, ofLines_content b.lines⟩
  · rw [ofBlock, content_ofLines]
    exact content_sublist {} b.lines
  · intro l hl
    rw [hcontent] at hl
    obtain ⟨⟨m, role⟩, hmem, rfl⟩ := List.mem_map.1 hl
    obtain ⟨hzip, hrole⟩ := List.mem_filter.1 hmem
    obtain rfl : role = .content := by simpa using hrole
    obtain ⟨front, hm⟩ := hsorted.exists_hasRole hzip
    cases hm with
    | content _ hne => exact Bool.eq_false_iff.2 fun h => hne ((hblank m).1 h)
  · intro l role hmem hne hrole
    obtain ⟨front, hl⟩ := hsorted.exists_hasRole hmem
    refine hl.existsUnique_text ?_ hrole
    intro hnil
    rw [(hblank l).2 hnil] at hne
    cases hne

end Worksheet.Sections
