import Worksheet.Proofs.Engine.Isolation
import Worksheet.Proofs.Inert.Outline

namespace Worksheet

open Relocation (insertion)

namespace Outcome

/-- What a script comes to, and what it comes to with a line that means nothing in one of its
blocks, which then has another text. Each block of the script is given with what it comes to. -/
structure Inserted (r : Relocation) (block : Block) (text : String) (each : List (Block × Outcome))
    (own other : Outcome) : Prop where
  /-- The exercises are those of the blocks. -/
  blocks : own.exercises = each.flatMap (·.2.exercises)
  /-- Nothing but the script of the block is another one. -/
  exercises : other.exercises = each.flatMap fun p => p.2.exercises.map fun x =>
    if p.1 = block then x.withScript text else x
  /-- Nothing but the places in the diagnostics is changed. -/
  diagnostics : other.diagnostics = own.diagnostics.map (Diagnostic.relocate r)
  errors : other.errors = (other.diagnostics.filter (·.isError)).map Diagnostic.render
  warnings : other.warnings = (other.diagnostics.filter (·.isWarning)).map Diagnostic.render

end Outcome

namespace Engine

theorem map_aboutStructure_insert {before line after : String} (hline : '\n' ∉ line.toList)
    (hwarnings : (Outline.ofScript (before ++ "\n" ++ line ++ "\n" ++ after)).warnings =
      (Outline.ofScript (before ++ "\n" ++ after)).warnings.map
        (StructureWarning.relocate (insertion before line))) :
    (Outline.ofScript (before ++ "\n" ++ line ++ "\n" ++ after)).warnings.map
        (aboutStructure (before ++ "\n" ++ line ++ "\n" ++ after)) =
      ((Outline.ofScript (before ++ "\n" ++ after)).warnings.map
        (aboutStructure (before ++ "\n" ++ after))).map
          (Diagnostic.relocate (insertion before line)) := by
  rw [hwarnings, List.map_map, List.map_map]
  refine List.map_congr_left fun w hw => ?_
  exact aboutStructure_relocate (Outline.liesIn_of_mem_warnings hw)
    (Chars.countBefore_insertion hline after w.span.start)

variable {σ : Type}

theorem IgnoresPlaces.compile_inserted {e : Engine σ} (he : e.IgnoresPlaces)
    {before line after : String} {b : Block} (hline : '\n' ∉ line.toList)
    (hb : b ∈ (Outline.ofScript (before ++ "\n" ++ after)).blocks)
    (hopening : b.startLine ≤ (SourceLine.ofScript before).length)
    (hclosing : (SourceLine.ofScript before).length < b.endLine)
    (hinert : Sections.Inert
      (b.lines.filter fun l => l.number ≤ (SourceLine.ofScript before).length) line)
    (author : String) (random : σ) :
    ∃ text, Text.slice? (before ++ "\n" ++ line ++ "\n" ++ after)
        (b.span.relocate (insertion before line)) = some text ∧
      (e.compile (before ++ "\n" ++ line ++ "\n" ++ after) author random).2 =
        (e.compile (before ++ "\n" ++ after) author random).2 ∧
      Outcome.Inserted (insertion before line) b text
        (e.compileEach author (Outline.ofScript (before ++ "\n" ++ after)).blocks random)
        (e.compile (before ++ "\n" ++ after) author random).1
        (e.compile (before ++ "\n" ++ line ++ "\n" ++ after) author random).1 := by
  obtain ⟨hwarnings, c, hc, htext, hblocks⟩ :=
    Outline.exists_insert hline after hb hopening hclosing hinert
  have hother : ∀ d ∈ (Outline.ofScript (before ++ "\n" ++ after)).blocks,
      d.Counterpart (insertion before line)
        (if d = b then c else d.relocate (insertion before line)) := by
    intro d _
    split
    · rename_i heq
      rwa [heq]
    · exact Block.counterpart_relocate _ d
  have hlines : ∀ d ∈ (Outline.ofScript (before ++ "\n" ++ after)).blocks,
      ∀ l ∈ d.lines, 0 < l.number := fun d hd => Outline.number_pos hd
  obtain ⟨hexercises, hdiagnostics, hstate⟩ :=
    he.compileEach_counterpart author hother hlines random
  rw [← hblocks] at hexercises hdiagnostics hstate
  have hrendered := e.compile_rendered author (before ++ "\n" ++ line ++ "\n" ++ after) random
  refine ⟨c.text, hc.span ▸ htext, ?_, e.exercises_compile author _ random, ?_, ?_,
    hrendered.errors, hrendered.warnings⟩
  · rw [compile_snd, compile_snd, hstate]
  · rw [exercises_compile, hexercises]
    refine List.flatMap_congr fun p hp => List.map_congr_left fun x hx => ?_
    -- The index of the block stays, and with it a title that is made from it.
    have hself := he.retitle_of_mem_compileEach author hlines hp hx
    have htitle : e.retitle (insertion before line) p.1 x = e.retitle .none p.1 x := rfl
    rw [htitle]
    split
    · have hscript := congrArg (Exercise.withScript c.text) hself
      rwa [Exercise.withScript_withScript] at hscript
    · exact hself
  · rw [diagnostics_compile, diagnostics_compile, hdiagnostics, List.map_append,
      map_aboutStructure_insert hline hwarnings]

variable [RandomSource σ]

/-- A blank line, or a comment where no decorator is open, may be put between the opening and the
closing line of a block: the exercises stay but for the script of that block, and the diagnostics
stay but for the places after the line. -/
theorem compile_insert (words : WordLibrary) {before line after : String} {b : Block}
    (hline : '\n' ∉ line.toList) (hb : b ∈ (Outline.ofScript (before ++ "\n" ++ after)).blocks)
    (hopening : b.startLine ≤ (SourceLine.ofScript before).length)
    (hclosing : (SourceLine.ofScript before).length < b.endLine)
    (hinert : Sections.Inert
      (b.lines.filter fun l => l.number ≤ (SourceLine.ofScript before).length) line)
    (author : String) (random : σ) :
    let e : Engine σ := withWords words
    let own := e.compile (before ++ "\n" ++ after) author random
    let other := e.compile (before ++ "\n" ++ line ++ "\n" ++ after) author random
    ∃ text, Text.slice? (before ++ "\n" ++ line ++ "\n" ++ after)
        (b.span.relocate (insertion before line)) = some text ∧
      other.2 = own.2 ∧
        Outcome.Inserted (insertion before line) b text
          (e.compileEach author (Outline.ofScript (before ++ "\n" ++ after)).blocks random)
          own.1 other.1 := by
  intro e own other
  have hplaces : e.IgnoresPlaces := withWords_ignoresPlaces words
  exact hplaces.compile_inserted hline hb hopening hclosing hinert author random

/-- A comment that holds a brace, a quotation mark and the beginning of a call. -/
theorem compile_insert_comment :
    let before := "\x7b\nA *cat* sat."
    let line := "  // \x7b \"@pick("
    let after := "A *dog* ran.\n\x7d"
    let b : Block := ⟨0, 1, 4, ⟨0, 29⟩, "\x7b\nA *cat* sat.\nA *dog* ran.\n\x7d",
      [⟨2, "A *cat* sat.", ⟨2, 14⟩⟩, ⟨3, "A *dog* ran.", ⟨15, 27⟩⟩]⟩
    let e : Engine Draws := withWords .builtin
    let own := e.compile (before ++ "\n" ++ after) "me" ⟨[2, 3], 0⟩
    let other := e.compile (before ++ "\n" ++ line ++ "\n" ++ after) "me" ⟨[2, 3], 0⟩
    '\n' ∉ line.toList ∧ b ∈ (Outline.ofScript (before ++ "\n" ++ after)).blocks ∧
      b.startLine ≤ (SourceLine.ofScript before).length ∧
      (SourceLine.ofScript before).length < b.endLine ∧
      Sections.Inert (b.lines.filter fun l => l.number ≤ (SourceLine.ofScript before).length) line ∧
      ∃ text, Text.slice? (before ++ "\n" ++ line ++ "\n" ++ after)
          (b.span.relocate (insertion before line)) = some text ∧
        other.2 = own.2 ∧
          Outcome.Inserted (insertion before line) b text
            (e.compileEach "me" (Outline.ofScript (before ++ "\n" ++ after)).blocks ⟨[2, 3], 0⟩)
            own.1 other.1 := by
  intro before line after b e own other
  have hline : '\n' ∉ line.toList := by decide
  have hblocks : (Outline.ofScript (before ++ "\n" ++ after)).blocks = [b] := by decide
  have hb : b ∈ (Outline.ofScript (before ++ "\n" ++ after)).blocks := by
    rw [hblocks]
    exact List.mem_singleton.2 rfl
  have hopening : b.startLine ≤ (SourceLine.ofScript before).length := by decide
  have hclosing : (SourceLine.ofScript before).length < b.endLine := by decide
  have hinert : Sections.Inert
      (b.lines.filter fun l => l.number ≤ (SourceLine.ofScript before).length) line :=
    Or.inr ⟨by decide +kernel, by decide +kernel⟩
  have hinserted := compile_insert (σ := Draws) .builtin hline hb hopening hclosing hinert "me"
    ⟨[2, 3], 0⟩
  exact ⟨hline, hb, hopening, hclosing, hinert, hinserted⟩

end Engine

end Worksheet
