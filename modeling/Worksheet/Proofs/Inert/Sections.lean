import Worksheet.Proofs.Block.Sections
import Worksheet.Proofs.Block.Segments
import Worksheet.Proofs.Move.Blocks

namespace Worksheet

namespace Sections

/-- What is known after further lines. -/
def stateAfter (state : SectionState) (lines : List SourceLine) : SectionState :=
  lines.foldl (fun state l => (route state l).1) state

theorem contributions_append (state : SectionState) (xs ys : List SourceLine) :
    contributions state (xs ++ ys) =
      contributions state xs ++ contributions (stateAfter state xs) ys := by
  induction xs generalizing state with
  | nil => rfl
  | cons x xs ih =>
    rw [List.cons_append, contributions_cons, contributions_cons, ih, List.append_assoc]
    rfl

/-- A text that means nothing as the next line after some lines of a block: it is blank, or it is a
comment and no decorator is open. -/
def Inert (before : List SourceLine) (text : String) : Prop :=
  Text.trim text = "" ∨
    Text.isComment (Text.trim text) = true ∧ (stateAfter {} before).decorator = none

/-- A comment begins no decorator. -/
theorem decorator?_of_isComment {cs : List Char} (h : Text.isComment (String.ofList cs) = true) :
    decorator? cs = none := by
  have hfirst : ∀ word : List Char, ('@' :: word).isPrefixOf (cs.map Char.toLower) = false := by
    intro word
    rw [Text.isComment, String.toList_ofList] at h
    split at h
    · rfl
    · rfl
    · cases h
  rw [decorator?]
  dsimp only
  rw [if_neg, if_neg]
  · rw [Bool.not_eq_true]
    exact hfirst _
  · rw [Bool.not_eq_true]
    exact hfirst _

variable {before : List SourceLine} {x : SourceLine}

/-- Such a line leaves the state as it is, and contributes no field. -/
theorem route_of_inert (h : Inert before x.text) :
    (route (stateAfter {} before) x).1 = stateAfter {} before ∧
      ∀ name, fieldTexts name (route (stateAfter {} before) x).2 = [] := by
  rw [Inert] at h
  generalize stateAfter {} before = state at h ⊢
  obtain ⟨decorator, inHeader⟩ := state
  rcases h with hblank | ⟨hcomment, hclosed⟩
  · have htrim : trimmed x = [] := String.ofList_eq_empty_iff.1 hblank
    cases decorator with
    | none =>
      rw [route_blank htrim]
      exact ⟨rfl, fun _ => rfl⟩
    | some own =>
      -- In a decorator the line is a field without a text.
      have hnil : Chars.trim [] = [] := rfl
      rw [route_inside, openNext, htrim]
      refine ⟨rfl, fun name => ?_⟩
      by_cases hname : own = name <;> simp [fieldTexts, field?, withoutClosing, hname, hnil]
  · obtain rfl : decorator = none := hclosed
    have hne : trimmed x ≠ [] := by
      intro hnil
      rw [trimmed] at hnil
      rw [Text.trim, hnil] at hcomment
      cases hcomment
    have hfield : headerField? x = none := by rw [headerField?, hcomment, if_pos rfl]
    rw [route_content hne (decorator?_of_isComment hcomment) fun _ => hfield, hcomment,
      Bool.and_true]
    exact ⟨rfl, fun _ => rfl⟩

/-- A line that means nothing leaves the fields as they are, and is content by itself at most. -/
theorem ofLines_of_inert (h : Inert before x.text) (after : List SourceLine) :
    (ofLines (before ++ x :: after)).metadata = (ofLines (before ++ after)).metadata ∧
      (ofLines (before ++ x :: after)).config = (ofLines (before ++ after)).config ∧
        ∃ kept rest, (ofLines (before ++ after)).content = kept ++ rest ∧
          ((ofLines (before ++ x :: after)).content = kept ++ rest ∨
            (ofLines (before ++ x :: after)).content = kept ++ x :: rest) := by
  obtain ⟨hstate, hfields⟩ := route_of_inert h
  have hold := contributions_append {} before after
  have hnew := contributions_append {} before (x :: after)
  rw [contributions_cons, hstate] at hnew
  have htexts : ∀ name, fieldText name (contributions {} (before ++ x :: after)) =
      fieldText name (contributions {} (before ++ after)) := by
    intro name
    rw [fieldText_eq, fieldText_eq, hold, hnew, fieldTexts_append, fieldTexts_append,
      fieldTexts_append, hfields name, List.nil_append]
  refine ⟨htexts .metadata, htexts .config, ?_⟩
  rw [content_ofLines, content_ofLines, hold, hnew, List.filterMap_append, List.filterMap_append,
    List.filterMap_append]
  refine ⟨_, _, rfl, ?_⟩
  rcases line?_route (stateAfter {} before) x with hline | hline
  · rw [hline]
    exact Or.inl rfl
  · rw [hline]
    exact Or.inr rfl

end Sections

theorem Sections.Inert.isGap {before : List SourceLine} {x : SourceLine}
    (h : Sections.Inert before x.text) : x.IsGap := by
  rcases h with hblank | ⟨hcomment, -⟩
  · exact Or.inl hblank
  · exact Or.inr hcomment

/-- White space around a line does not matter. -/
theorem Sections.Inert.congr {before : List SourceLine} {text other : String}
    (h : Sections.Inert before text) (htrim : Text.trim other = Text.trim text) :
    Sections.Inert before other := by
  rw [Sections.Inert, htrim]
  exact h

namespace Context

variable {σ : Type} (ctx : Context σ) {x : SourceLine}

theorem readLine_of_isGap (h : x.IsGap) : ctx.readLine x = pure .nothing := by
  rw [readLine, if_pos (SourceLine.isGap_iff.1 h)]

/-- A blank line or a comment among the content is passed over. -/
theorem readLines_of_isGap (h : x.IsGap) (before after : List SourceLine) (found : Material)
    (w : World σ) :
    ctx.readLines found (before ++ x :: after) w = ctx.readLines found (before ++ after) w := by
  induction before generalizing found w with
  | nil =>
    rw [List.nil_append, readLines, readLine_of_isGap ctx h]
    rfl
  | cons l before ih =>
    rw [List.cons_append, List.cons_append, readLines, readLines]
    cases (ctx.readLine l).run.run w with
    | mk result next =>
      cases result with
      | error e => rfl
      | ok effect => exact ih (found.add effect) next

theorem material_of_isGap (h : x.IsGap) (before after : List SourceLine) (random : σ) :
    ctx.material (before ++ x :: after) random = ctx.material (before ++ after) random := by
  rw [material, material, readLines_of_isGap ctx h]

end Context

section Counterpart

variable {r : Relocation} {front back : List SourceLine} {x : SourceLine}

theorem Sections.stateAfter_relocate (state : SectionState) (lines : List SourceLine) :
    stateAfter state (lines.map (SourceLine.relocate r)) = stateAfter state lines := by
  induction lines generalizing state with
  | nil => rfl
  | cons l rest ih =>
    have hstep : (route state (l.relocate r)).1 = (route state l).1 := by
      rw [route_relocate]
    simp only [stateAfter, List.map_cons, List.foldl_cons, hstep]
    exact ih _

theorem Sections.Inert.relocate {text : String} (h : Sections.Inert front text) :
    Sections.Inert (front.map (SourceLine.relocate r)) text := by
  rw [Sections.Inert, Sections.stateAfter_relocate]
  exact h

/-- A line that was put in is not found in the place of another one. -/
theorem SourceLine.find?_insert {ls : List SourceLine} (hls : ls = front ++ back)
    (hnumber : ∀ number, r.line number ≠ x.number) (number : Nat) :
    (front.map (SourceLine.relocate r) ++ x :: back.map (SourceLine.relocate r)).find?
        (·.number == r.line number) =
      (ls.map (SourceLine.relocate r)).find? (·.number == r.line number) := by
  have hx : (x.number == r.line number) = false := beq_eq_false_iff_ne.2 (hnumber number).symm
  rw [hls, List.map_append, List.find?_append, List.find?_append, List.find?_cons, hx]

/-- A relocated block into which a line that means nothing is put says the same. -/
theorem Block.counterpart_of_inert {b c : Block} (hindex : c.index = r.block b.index)
    (hstart : c.startLine = r.line b.startLine) (hspan : c.span = b.span.relocate r)
    (hlines : b.lines = front ++ back)
    (hother : c.lines = front.map (SourceLine.relocate r) ++ x :: back.map (SourceLine.relocate r))
    (hinert : Sections.Inert front x.text) (hnumber : ∀ number, r.line number ≠ x.number) :
    Counterpart r b c := by
  obtain ⟨hmetadata, hconfig, kept, rest, hold, hnew⟩ :=
    Sections.ofLines_of_inert (hinert.relocate (r := r)) (back.map (SourceLine.relocate r))
  rw [← List.map_append, ← hlines] at hmetadata hconfig hold
  rw [← hother] at hmetadata hconfig hnew
  have hsections : Sections.ofLines (b.lines.map (SourceLine.relocate r)) =
      (Sections.ofBlock b).relocate r := Sections.ofLines_relocate r b.lines
  rw [hsections] at hmetadata hconfig hold
  have hrelocate := counterpart_relocate r b
  refine ⟨hindex, hstart, hspan, fun number => ?_, hmetadata, hconfig, fun ctx random => ?_⟩
  · rw [← hrelocate.lineSpan number, lineSpan, lineSpan, hother, hspan,
      SourceLine.find?_insert hlines hnumber]
    rfl
  · have hcontent : ctx.material (Sections.ofBlock c).content random =
        ctx.material (kept ++ rest) random := by
      rcases hnew with h | h
      · rw [Sections.ofBlock, h]
      · rw [Sections.ofBlock, h, ctx.material_of_isGap hinert.isGap]
    rw [hcontent, ← hold]
    exact ctx.material_relocate r _ random

end Counterpart

end Worksheet
