import Worksheet.Proofs.Block.Places
import Worksheet.Proofs.Block.Sections
import Worksheet.Proofs.Engine.Blocks
import Worksheet.Proofs.Engine.Builtin
import Worksheet.Proofs.Eval.Settled
import Worksheet.Proofs.Kind.Faults

namespace Worksheet

namespace Context

variable {σ : Type} (ctx : Context σ)

/-- A line of content keeps the number of the line that it was read from. -/
theorem line_of_readLine {l : SourceLine} {w w' : World σ} {effect : LineEffect}
    (h : (ctx.readLine l).run.run w = (.ok effect, w')) :
    ∀ c ∈ effect.content?, c.line = l.number := by
  intro c hc
  cases hcontent : isContent l.text with
  | false =>
    rw [content?_of_not_isContent ctx hcontent h] at hc
    cases hc
  | true =>
    rw [readLine_eq_readContent ctx hcontent] at h
    obtain ⟨text, rest, markers, -, -, hadded⟩ := content?_of_readContent ctx h
    rw [hadded] at hc
    split at hc
    · cases hc
    · obtain rfl := Option.some.inj hc
      rfl

theorem line_of_readLines {lines : List SourceLine} {found m : Material} {w w' : World σ}
    (h : ctx.readLines found lines w = (.ok m, w')) :
    ∀ c ∈ m.lines, c ∈ found.lines ∨ ∃ l ∈ lines, c.line = l.number := by
  induction lines generalizing found w with
  | nil =>
    obtain ⟨hm, -⟩ := Prod.mk.inj h
    obtain rfl := Except.ok.inj hm
    exact fun c hc => Or.inl hc
  | cons l rest ih =>
    rw [readLines] at h
    cases hl : (ctx.readLine l).run.run w with
    | mk result between =>
      rw [hl] at h
      cases result with
      | error e => cases (Prod.mk.inj h).1
      | ok effect =>
        intro c hc
        rcases ih h c hc with hfound | ⟨k, hk, hnumber⟩
        · rw [Material.lines_add] at hfound
          rcases List.mem_append.1 hfound with hfound | hadded
          · exact Or.inl hfound
          · right
            exact ⟨l, by simp, line_of_readLine ctx hl c (Option.mem_toList.1 hadded)⟩
        · exact Or.inr ⟨k, by simp [hk], hnumber⟩

/-- An error is on one of the lines that are read. -/
theorem mem_of_readLines_error {lines : List SourceLine} {found : Material} {w w' : World σ}
    {err : LineError} (h : ctx.readLines found lines w = (.error err, w')) :
    ∃ l ∈ lines, err.line = l.number ∧ err.span = l.span := by
  induction lines generalizing found w with
  | nil => cases (Prod.mk.inj h).1
  | cons l rest ih =>
    rw [readLines] at h
    cases hl : (ctx.readLine l).run.run w with
    | mk result between =>
      rw [hl] at h
      cases result with
      | error e =>
        obtain ⟨he, -⟩ := Prod.mk.inj h
        obtain rfl := Except.error.inj he
        exact ⟨l, by simp, rfl, rfl⟩
      | ok effect =>
        obtain ⟨k, hk, hplace⟩ := ih h
        exact ⟨k, by simp [hk], hplace⟩

end Context

/-- A diagnostic names a stretch of the script and the line on which the stretch begins. If it is
about a block, the stretch lies within the block. -/
def Diagnostic.Points (script : String) (blocks : List Block) (d : Diagnostic) : Prop :=
  ∃ line span, d.line = some line ∧ d.span = some span ∧ Text.StandsOn script line span ∧
    ∀ k, d.block = some k → ∃ b ∈ blocks, b.index = k ∧ span.Within b.span

/-- All diagnostics of an outcome have their places. -/
def Outcome.Points (script : String) (blocks : List Block) (o : Outcome) : Prop :=
  ∀ d ∈ o.diagnostics, d.Points script blocks

namespace Outcome

variable {script : String} {blocks : List Block}

theorem Points.append {own other : Outcome} (h : own.Points script blocks)
    (h' : other.Points script blocks) : (own ++ other).Points script blocks := by
  intro d hd
  rw [diagnostics_append] at hd
  rcases List.mem_append.1 hd with hd | hd
  · exact h d hd
  · exact h' d hd

theorem points_report {diagnostics : List Diagnostic}
    (h : ∀ d ∈ diagnostics, d.Points script blocks) :
    (report diagnostics).Points script blocks := by
  rw [Points, diagnostics_report]
  exact h

theorem points_report_singleton {d : Diagnostic} (h : d.Points script blocks) :
    (report [d]).Points script blocks := by
  refine points_report fun d' hd' => ?_
  rwa [List.mem_singleton.1 hd']

end Outcome

namespace Engine

variable {σ : Type} {script : String} {blocks : List Block} {block : Block}

section Block

variable (hb : block.StandsIn script) (hmem : block ∈ blocks)

include hb hmem

theorem points_aboutBlock (severity : Severity) (message : String) :
    (aboutBlock block severity message).Points script blocks := by
  refine ⟨block.startLine, block.span, rfl, rfl, hb.standsOn, ?_⟩
  intro k hk
  exact ⟨block, hmem, Option.some.inj hk, .refl _⟩

theorem points_map_aboutBlock (severity : Severity) (messages : List String) :
    ∀ d ∈ messages.map (aboutBlock block severity), d.Points script blocks := by
  intro d hd
  obtain ⟨message, -, rfl⟩ := List.mem_map.1 hd
  exact points_aboutBlock hb hmem severity message

theorem points_aboutLine {l : SourceLine} (hl : l ∈ block.lines) (message : String) :
    (aboutLine block l.number l.span message).Points script blocks := by
  obtain ⟨hstands, hwithin⟩ := hb.lines l hl
  refine ⟨l.number, l.span, rfl, rfl, hstands, ?_⟩
  intro k hk
  exact ⟨block, hmem, Option.some.inj hk, hwithin⟩

/-- A fault on a line of the block is shown on the line. -/
theorem points_contentError {err : ContentError}
    (herr : ∀ number fault, err = .line number fault → ∃ l ∈ block.lines, l.number = number) :
    (contentError block err).Points script blocks := by
  rw [contentError.eq_def]
  split
  · rename_i number fault
    split
    · obtain ⟨l, hl, hnumber⟩ := herr number fault rfl
      -- The line that is looked up has the same number, but need not be this one.
      obtain ⟨k, hfound⟩ := Option.isSome_iff_exists.1
        (List.find?_isSome.2 ⟨l, hl, beq_iff_eq.2 hnumber⟩ :
          (block.lines.find? (·.number == number)).isSome = true)
      have hk : k ∈ block.lines := List.mem_of_find?_eq_some hfound
      have hspan : block.lineSpan number = k.span := by
        rw [Block.lineSpan, hfound]
        rfl
      have hfirst := List.find?_some hfound
      obtain rfl : k.number = number := beq_iff_eq.1 hfirst
      rw [hspan]
      exact points_aboutLine hb hmem hk fault.message
    · exact points_aboutBlock hb hmem .error _
  · exact points_aboutBlock hb hmem .error _

variable {e : Engine σ} (he : e.kinds = KindRegistry.builtin)

include he

theorem points_finish (author : String) (header : Header) (declared : Option Kind)
    {material : Material}
    (hlines : ∀ c ∈ material.lines, ∃ l ∈ block.lines, l.number = c.line) :
    (e.finish author block header declared material).Points script blocks := by
  rw [finish]
  split
  · exact Outcome.points_report_singleton (points_aboutBlock hb hmem .error _)
  · split
    · exact Outcome.points_report_singleton (points_aboutBlock hb hmem .error _)
    · rename_i kind _
      split
      · rename_i err hparse
        apply Outcome.points_report_singleton
        apply points_contentError hb hmem
        rintro number fault rfl
        rw [he] at hparse
        have hown := KindRegistry.parse_builtin_blamesOwn kind.tag header.config.variation
          material.lines number fault hparse
        obtain ⟨c, hc, rfl⟩ := List.mem_map.1 hown
        exact hlines c hc
      · intro d hd
        dsimp only at hd
        rw [Outcome.diagnostics_report] at hd
        rcases List.mem_append.1 hd with hd | hd
        · exact points_map_aboutBlock hb hmem .error _ d hd
        · exact points_map_aboutBlock hb hmem .warning _ d hd

theorem points_compileBlock (author : String) (random : σ) :
    (e.compileBlock author block random).1.Points script blocks := by
  have hfields : (Outcome.report (e.fieldWarnings block)).Points script blocks :=
    Outcome.points_report (points_map_aboutBlock hb hmem .warning _)
  cases hm : e.materialOf block random with
  | mk result next =>
    obtain ⟨hresult, -⟩ := Prod.mk.inj hm
    have hsubset : (Sections.ofBlock block).content ⊆ block.lines :=
      Sections.content_subset_lines block
    cases result with
    | error err =>
      have hread : (e.functions.context e.words).readLines {} (Sections.ofBlock block).content
          ⟨{}, random⟩ = (.error err, _) := Prod.ext hresult rfl
      obtain ⟨l, hl, hline, hspan⟩ := Context.mem_of_readLines_error _ hread
      rw [compileBlock_of_error hm, hline, hspan]
      exact hfields.append
        (Outcome.points_report_singleton (points_aboutLine hb hmem (hsubset hl) _))
    | ok material =>
      have hread : (e.functions.context e.words).readLines {} (Sections.ofBlock block).content
          ⟨{}, random⟩ = (.ok material, _) := Prod.ext hresult rfl
      have hlines : ∀ c ∈ material.lines, ∃ l ∈ block.lines, l.number = c.line := by
        intro c hc
        rcases Context.line_of_readLines _ hread c hc with hnone | ⟨l, hl, hnumber⟩
        · cases hnone
        · exact ⟨l, hsubset hl, hnumber.symm⟩
      rw [compileBlock_of_ok hm]
      exact hfields.append (points_finish hb hmem he author _ _ hlines)

end Block

theorem points_aboutStructure {w : StructureWarning}
    (hw : w ∈ (Outline.ofScript script).warnings) :
    (aboutStructure script w).Points script blocks := by
  obtain ⟨line, hstands⟩ := Outline.standsOn_of_mem_warnings hw
  refine ⟨line, w.span, ?_, rfl, hstands, ?_⟩
  · rw [aboutStructure, hstands.countBefore]
  · intro k hk
    cases hk

theorem mem_of_mem_compileEach (e : Engine σ) (author : String) {random : σ}
    {p : Block × Outcome} (hp : p ∈ e.compileEach author blocks random) :
    p.1 ∈ blocks ∧ ∃ random, p.2 = (e.compileBlock author p.1 random).1 := by
  constructor
  · have hfst : p.1 ∈ (e.compileEach author blocks random).map (·.1) := List.mem_map_of_mem hp
    rwa [map_fst_compileEach] at hfst
  · exact e.of_mem_compileEach author
      (P := fun block own => ∃ random, own = (e.compileBlock author block random).1)
      (fun block random => ⟨random, rfl⟩) hp

/-- Every diagnostic has a stretch between two character boundaries of the script, and its line is
the one on which the stretch begins. A diagnostic about a block lies within a block of the script
that has the index. -/
theorem places_compile [RandomSource σ] (words : WordLibrary) (script author : String) (random : σ) :
    ∀ d ∈ ((withWords words : Engine σ).compile script author random).1.diagnostics,
      ∃ line span, d.line = some line ∧ d.span = some span ∧
        span.start ≤ span.stop ∧ span.stop ≤ Text.size script ∧
        (∃ before after, script.toList = before ++ after ∧ Chars.size before = span.start ∧
          line = before.count '\n' + 1) ∧
        (∃ before after, script.toList = before ++ after ∧ Chars.size before = span.stop) ∧
        ∀ k, d.block = some k → ∃ b ∈ (Outline.ofScript script).blocks, b.index = k ∧
          b.span.start ≤ span.start ∧ span.stop ≤ b.span.stop := by
  intro d hd
  have hpoints : d.Points script (Outline.ofScript script).blocks := by
    rw [diagnostics_compile] at hd
    rcases List.mem_append.1 hd with hd | hd
    · obtain ⟨w, hw, rfl⟩ := List.mem_map.1 hd
      exact points_aboutStructure hw
    · obtain ⟨p, hp, hown⟩ := List.mem_flatMap.1 hd
      obtain ⟨hmem, random, hcompiled⟩ := mem_of_mem_compileEach _ author hp
      rw [hcompiled] at hown
      exact points_compileBlock (Outline.standsIn_of_mem hmem) hmem (kinds_withWords words) author
        random d hown
  obtain ⟨line, span, hline, hspan, hstands, hblock⟩ := hpoints
  exact ⟨line, span, hline, hspan, hstands.bounds.start_le_stop, hstands.bounds.stop_le,
    hstands.line_eq, hstands.bounds.stop_boundary, hblock⟩

theorem places_compile_stray :
    let script := "// pets\nstray"
    let d : Diagnostic := ⟨.warning, StructureFault.stray.message, none, some 2, some ⟨8, 13⟩⟩
    d ∈ ((withWords .builtin : Engine Draws).compile script "me" ⟨[], 0⟩).1.diagnostics ∧
      ∃ line span, d.line = some line ∧ d.span = some span ∧
        span.start ≤ span.stop ∧ span.stop ≤ Text.size script ∧
        (∃ before after, script.toList = before ++ after ∧ Chars.size before = span.start ∧
          line = before.count '\n' + 1) ∧
        (∃ before after, script.toList = before ++ after ∧ Chars.size before = span.stop) ∧
        ∀ k, d.block = some k → ∃ b ∈ (Outline.ofScript script).blocks, b.index = k ∧
          b.span.start ≤ span.start ∧ span.stop ≤ b.span.stop := by
  intro script d
  have hwarnings : (Outline.ofScript script).warnings = [⟨.stray, ⟨8, 13⟩⟩] := by decide +kernel
  have hline : Chars.countBefore '\n' 8 script.toList = 1 := by decide +kernel
  have habout : aboutStructure script ⟨.stray, ⟨8, 13⟩⟩ = d := by
    rw [aboutStructure, hline]
  have hd : d ∈ ((withWords .builtin : Engine Draws).compile script "me" ⟨[], 0⟩).1.diagnostics := by
    rw [diagnostics_compile, hwarnings, List.map_singleton, habout]
    exact List.mem_cons_self
  have hplaces := places_compile (σ := Draws) .builtin script "me" ⟨[], 0⟩ d hd
  exact ⟨hd, hplaces⟩

end Engine

end Worksheet
