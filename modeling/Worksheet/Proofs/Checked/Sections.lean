import Worksheet.Block.Sections
import Worksheet.Proofs.Checked.Scanner
import Worksheet.Proofs.Chars.AsciiCase

namespace Worksheet.Checked

open Chars (size)

section Decorators

/-- The text after an opening that stands at the beginning in any case. -/
def afterOpening (opening : String) (cs : List Char) : Option (Option (List Char)) :=
  let width := Text.size opening
  if width ≤ size cs && (Chars.offsets 0 cs).contains width then do
    if (← upTo cs width).map Char.toLower == opening.toList then return some (← onward cs width)
    else return none
  else some none

/-- The section of the decorator that a line opens, and the text after its parenthesis. -/
def decorator? (trimmed : List Char) : Option (Option (SectionName × List Char)) := do
  match ← afterOpening "@metadata(" trimmed with
  | some rest => return some (.metadata, rest)
  | none =>
    match ← afterOpening "@config(" trimmed with
    | some rest => return some (.config, rest)
    | none => return none

/-- The offsets of a text are those of its beginnings. -/
theorem exists_append_of_mem_offsets {start place : Nat} {cs : List Char}
    (h : place ∈ Chars.offsets start cs) :
    ∃ before after, cs = before ++ after ∧ place = start + size before := by
  induction cs generalizing start with
  | nil => exact ⟨[], [], rfl, List.mem_singleton.1 h⟩
  | cons c cs ih =>
    rcases List.mem_cons.1 h with rfl | h
    · exact ⟨[], c :: cs, rfl, rfl⟩
    · obtain ⟨before, after, rfl, rfl⟩ := ih h
      exact ⟨c :: before, after, rfl, by rw [Chars.size_cons, Nat.add_assoc]⟩

/-- Letters take as many bytes in capitals as in small, so that an opening in any case ends at the
boundary that it ends at in small letters. -/
theorem afterOpening_eq (opening : String) (cs : List Char) : afterOpening opening cs =
    some (if opening.toList.isPrefixOf (cs.map Char.toLower) then some (cs.drop opening.length)
      else none) := by
  rw [afterOpening]
  cases hbegins : opening.toList.isPrefixOf (cs.map Char.toLower) with
  | true =>
    obtain ⟨lower, hlower⟩ := List.isPrefixOf_iff_prefix.1 hbegins
    obtain ⟨before, after, rfl, hbefore, -⟩ := List.map_eq_append_iff.1 hlower.symm
    have hsize : Text.size opening = size before := by
      rw [Text.size, ← hbefore, Chars.size_map_toLower]
    have hlength : opening.length = before.length := by
      rw [← String.length_toList, ← hbefore, List.length_map]
    have hboundary : (Chars.offsets 0 (before ++ after)).contains (size before) = true := by
      have hplace := Chars.getElem?_offsets 0 before after
      rw [Nat.zero_add] at hplace
      exact List.contains_iff_mem.2 (List.mem_of_getElem? hplace)
    rw [hsize, hboundary, upTo_append rfl rfl, onward_append rfl rfl]
    simp [hbefore, hlength]
  | false =>
    split
    · rename_i hboundary
      obtain ⟨-, hmem⟩ := Bool.and_eq_true_iff.1 hboundary
      obtain ⟨before, after, rfl, hsize⟩ :=
        exists_append_of_mem_offsets (List.contains_iff_mem.1 hmem)
      rw [Nat.zero_add] at hsize
      have hother : (before.map Char.toLower == opening.toList) = false := by
        rw [beq_eq_false_iff_ne]
        intro heq
        have hp : opening.toList.isPrefixOf ((before ++ after).map Char.toLower) = true := by
          rw [List.isPrefixOf_iff_prefix, List.map_append, heq]
          exact List.prefix_append _ _
        rw [hbegins] at hp
        cases hp
      rw [upTo_append rfl hsize, Option.bind_eq_bind, Option.bind_some, hother]
      rfl
    · rfl

theorem decorator?_eq (trimmed : List Char) :
    decorator? trimmed = some (Sections.decorator? trimmed) := by
  rw [decorator?, Sections.decorator?, afterOpening_eq, afterOpening_eq]
  by_cases hmetadata : "@metadata(".toList.isPrefixOf (trimmed.map Char.toLower) = true
  · rw [if_pos hmetadata, if_pos hmetadata]
    rfl
  · rw [if_neg hmetadata, if_neg hmetadata]
    by_cases hconfig : "@config(".toList.isPrefixOf (trimmed.map Char.toLower) = true
    · rw [if_pos hconfig, if_pos hconfig]
      rfl
    · rw [if_neg hconfig, if_neg hconfig]
      rfl

end Decorators

section Lines

/-- The section of a field at the head of a block. -/
def header? (trimmed : List Char) : Option (Option SectionName) :=
  match findWhere Sections.isSeparator 0 trimmed with
  | none => some none
  | some place => do
    let key ← upTo trimmed place
    let rest ← onward trimmed (place + 1)
    if rest.head?.any Sections.isSeparator then return none
    else
      let key := Chars.trim key
      if (← onward trimmed place).head? == some '=' && key.any Char.isUpper then return none
      else
        let name := Text.asciiLower (String.ofList key)
        if Metadata.keys.contains name then return some .metadata
        else if Config.keys.contains name then return some .config
        else return none

/-- Reads one line. -/
def route (state : SectionState) (line : SourceLine) : Option (SectionState × List Contribution) :=
  let trimmed := Chars.trim line.text.toList
  if state.decorator.isSome || trimmed.isEmpty then some (Sections.route state line)
  else do
    match ← decorator? trimmed with
    | some (name, rest) =>
      match Chars.stripLast? ')' rest with
      | some inner => return (state, [.fields name inner])
      | none => return ({ state with decorator := some name }, [.fields name rest])
    | none =>
      if state.inHeader && !Text.isComment (String.ofList trimmed) then
        match ← header? trimmed with
        | some name => return (state, [.fields name trimmed])
        | none => return ({ state with inHeader := false }, [.content line])
      else return (state, [.content line])

/-- Reads lines one after the other. -/
def contributions (state : SectionState) : List SourceLine → Option (List Contribution)
  | [] => some []
  | line :: rest => do
    let (next, found) ← route state line
    return found ++ (← contributions next rest)

/-- Sorts the lines of a block into its sections. -/
def sections (b : Block) : Option Sections := do
  let found ← contributions {} b.lines
  return ⟨Sections.fieldText .metadata found, Sections.fieldText .config found,
    found.filterMap fun
      | .content line => some line
      | .fields .. => none⟩

theorem header?_eq (trimmed : List Char) : header? trimmed = some (Sections.header? trimmed) := by
  rw [header?, Sections.header?]
  dsimp only
  cases hrest : trimmed.dropWhile (!Sections.isSeparator ·) with
  | nil =>
    rw [findWhere_of_none hrest]
  | cons separator rest =>
    have hseparator : Sections.isSeparator separator = true := by
      have hfirst := List.head?_dropWhile_not (!Sections.isSeparator ·) trimmed
      rw [hrest] at hfirst
      simpa using hfirst
    have hwidth : separator.utf8Size = 1 :=
      utf8Size_separator (by simpa [Sections.isSeparator] using hseparator)
    have hsplit : trimmed =
        trimmed.takeWhile (!Sections.isSeparator ·) ++ separator :: rest := by
      rw [← hrest, List.takeWhile_append_dropWhile]
    have hplace := findWhere_of_some hrest 0
    generalize trimmed.takeWhile (!Sections.isSeparator ·) = key at hsplit hplace ⊢
    have hafter : trimmed = (key ++ [separator]) ++ rest := by simp [hsplit]
    have hnext : size key + 1 = size (key ++ [separator]) := by simp [hwidth]
    rw [hplace, Nat.zero_add]
    simp only [upTo_append hsplit rfl, onward_append hsplit rfl, onward_append hafter hnext,
      Option.bind_eq_bind, Option.bind_some, List.head?_cons]
    have hfirst : (some separator == some '=') = (separator == '=') := rfl
    simp only [hfirst]
    split_ifs <;> rfl

theorem route_eq (state : SectionState) (line : SourceLine) :
    route state line = some (Sections.route state line) := by
  rw [route, decorator?_eq]
  simp only [header?_eq]
  cases hdecorator : state.decorator with
  | some name => rfl
  | none =>
    rw [Option.isSome_none, Bool.false_or, Sections.route, hdecorator]
    generalize Chars.trim line.text.toList = trimmed
    cases trimmed.isEmpty with
    | true => rfl
    | false =>
      cases Sections.decorator? trimmed with
      | some found => cases hstrip : Chars.stripLast? ')' found.2 <;> simp [hstrip]
      | none =>
        cases state.inHeader && !Text.isComment (String.ofList trimmed) with
        | true => cases Sections.header? trimmed <;> simp
        | false => rfl

theorem contributions_eq (state : SectionState) (lines : List SourceLine) :
    contributions state lines = some (Sections.contributions state lines) := by
  induction lines generalizing state with
  | nil => rfl
  | cons line rest ih =>
    rw [contributions, route_eq]
    simp only [Option.bind_eq_bind, Option.bind_some, ih]
    rfl

theorem sections_eq (b : Block) : sections b = some (Sections.ofBlock b) := by
  rw [sections, contributions_eq]
  rfl

end Lines

end Worksheet.Checked
