import Worksheet.Proofs.Block.Outline
import Worksheet.Proofs.Checked.Access

namespace Worksheet.Checked

/-- Takes in what stands before the last brace of the closing line. -/
def addLast (b : OpenBlock) (line : SourceLine) : Option OpenBlock :=
  if Text.trim line.text == "\x7d" then some b
  else match findLast '\x7d' line.text.toList with
    | none => some b
    | some place => do
      let before ← upTo line.text.toList place
      if before.all Chars.isBlank then return b
      else return b.add ⟨line.number, String.ofList before,
        ⟨line.span.start, line.span.start + place⟩⟩

/-- Reads one line. -/
def readScriptLine (place : Place) (line : SourceLine) : Option (Place × List Finding) :=
  match place with
  | .outside _ => some (place.step line)
  | .inside block =>
    let closes := !Text.isComment (Text.trim line.text) &&
      block.depth + braceBalance false false line.text.toList ≤ 0
    if closes then do return (.outside none, [.block (← addLast block line) line])
    else some (place.step line)

/-- Reads lines one after the other. -/
def readScriptLines (place : Place) : List SourceLine → Option (Place × List Finding)
  | [] => some (place, [])
  | line :: rest => do
    let (next, found) ← readScriptLine place line
    let (last, more) ← readScriptLines next rest
    return (last, found ++ more)

/-- The block of some lines and the line of its closing brace. -/
def closeBlock (script : String) (index : Nat) (b : OpenBlock) (last : SourceLine) :
    Option Block := do
  let span : Span := ⟨b.start, last.span.stop⟩
  let text ← slice script.toList span.start span.stop
  return ⟨index, b.startLine, last.number, span, String.ofList text, b.lines⟩

def outline (script : String) : Option Outline := do
  let (place, found) ← readScriptLines (.outside none) (SourceLine.ofScript script)
  let found := found ++ place.finish (Text.size script)
  let blocks ← (found.filterMap Outline.closed?).zipIdx.mapM fun ((b, last), index) =>
    closeBlock script index b last
  return ⟨blocks, found.filterMap Outline.warning?⟩

theorem addLast_eq (b : OpenBlock) (line : SourceLine) :
    addLast b line = some (b.addLast line) := by
  rw [addLast, OpenBlock.addLast, findLast_eq]
  cases Text.trim line.text == "\x7d" with
  | true => rfl
  | false =>
    cases hsplit : Chars.splitLast '\x7d' line.text.toList with
    | none => rfl
    | some parts =>
      obtain ⟨before, after⟩ := parts
      have htext : line.text.toList = before ++ '\x7d' :: after :=
        (Chars.append_of_splitLast hsplit).symm
      simp only [Option.map_some, upTo_append htext rfl, Option.bind_eq_bind, Option.bind_some]
      cases before.all Chars.isBlank <;> rfl

theorem readScriptLine_eq (place : Place) (line : SourceLine) :
    readScriptLine place line = some (place.step line) := by
  cases place with
  | outside stray => rfl
  | inside block =>
    rw [readScriptLine, addLast_eq, Place.step]
    dsimp only
    cases Text.isComment (Text.trim line.text) with
    | true => rfl
    | false =>
      by_cases hopen : 0 < block.depth + braceBalance false false line.text.toList
      · have hpos : ¬ block.depth + braceBalance false false line.text.toList ≤ 0 := by omega
        simp [hopen, hpos]
      · have hclosed : block.depth + braceBalance false false line.text.toList ≤ 0 := by omega
        simp [hopen, hclosed]

theorem readScriptLines_eq (place : Place) (lines : List SourceLine) :
    readScriptLines place lines = some (place.run lines) := by
  induction lines generalizing place with
  | nil => rfl
  | cons line rest ih =>
    rw [readScriptLines, readScriptLine_eq]
    simp only [Option.bind_eq_bind, Option.bind_some, ih]
    rfl

/-- The opening line of a block comes before its closing line, and both stand in the script. -/
theorem bounds_of_closed {script : String} {b : OpenBlock} {last : SourceLine}
    (h : (b, last) ∈ (Outline.findings script).filterMap Outline.closed?) :
    Text.Bounds script ⟨b.start, last.span.stop⟩ := by
  obtain ⟨segments, hsegments⟩ := Segmentation.exists_segments (SourceLine.ofScript script)
  obtain ⟨finding, hfinding, hclosed⟩ := List.mem_filterMap.1 h
  rw [Outline.findings_of_segmentation hsegments] at hfinding
  obtain ⟨s, hs, hmem⟩ := List.mem_flatMap.1 hfinding
  cases s with
  | gap => cases hmem
  | stray | tail =>
    obtain rfl := List.mem_singleton.1 hmem
    cases hclosed
  | block opening body closing =>
    obtain rfl := List.mem_singleton.1 hmem
    obtain ⟨rfl, rfl⟩ := Prod.mk.inj (Option.some.inj hclosed)
    rw [OpenBlock.start_addLast]
    exact hsegments.bounds_block hs

theorem closeBlock_eq {script : String} {b : OpenBlock} {last : SourceLine}
    (h : Text.Bounds script ⟨b.start, last.span.stop⟩) (index : Nat) :
    closeBlock script index b last = some (b.close script index last) := by
  obtain ⟨text, htext⟩ := h.slice?
  obtain ⟨cs, hcs, -⟩ := Option.map_eq_some_iff.1 htext
  have hslice : slice script.toList b.start last.span.stop = some cs := hcs
  rw [closeBlock, OpenBlock.close, Text.slice?, hcs, hslice]
  rfl

/-- A script is cut into its blocks without a failing access. -/
theorem outline_eq (script : String) : outline script = some (Outline.ofScript script) := by
  have hfindings : (Place.run (.outside none) (SourceLine.ofScript script)).2 ++
      (Place.run (.outside none) (SourceLine.ofScript script)).1.finish (Text.size script) =
        Outline.findings script := rfl
  rw [outline, readScriptLines_eq, Outline.ofScript_eq]
  simp only [Option.bind_eq_bind, Option.bind_some, hfindings]
  have hclosed : ∀ found ∈ ((Outline.findings script).filterMap Outline.closed?).zipIdx,
      closeBlock script found.2 found.1.1 found.1.2 =
        some (found.1.1.close script found.2 found.1.2) := by
    intro found hfound
    obtain ⟨hplace, hmem⟩ := List.mem_zipIdx' hfound
    refine closeBlock_eq (bounds_of_closed ?_) found.2
    rw [hmem]
    exact List.getElem_mem hplace
  rw [mapM_eq_some hclosed]
  rfl

end Worksheet.Checked
