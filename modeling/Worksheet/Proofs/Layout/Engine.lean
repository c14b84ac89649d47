import Worksheet.Proofs.Engine.Blocks
import Worksheet.Proofs.Engine.Builtin
import Worksheet.Proofs.Block.Sections
import Worksheet.Proofs.Layout.Outline

namespace Worksheet

open SourceLine (Alike)

namespace Contribution

/-- Contributions that differ by white space around lines of content. -/
inductive Alike : Contribution → Contribution → Prop where
  | fields (name : SectionName) (text : List Char) : Alike (.fields name text) (.fields name text)
  | content {k l : SourceLine} (h : SourceLine.Alike k l) : Alike (.content k) (.content l)

end Contribution

namespace Sections

theorem route_alike {k l : SourceLine} (h : Alike k l) (state : SectionState) :
    (route state k).1 = (route state l).1 ∧
      List.Forall₂ Contribution.Alike (route state k).2 (route state l).2 := by
  have hfields : ∀ name text, List.Forall₂ Contribution.Alike [.fields name text]
      [.fields name text] := fun name text => .cons (.fields name text) .nil
  rw [route, route, h.trim_toList]
  split
  · split
    · exact ⟨rfl, hfields _ _⟩
    · exact ⟨rfl, hfields _ _⟩
  · split
    · exact ⟨rfl, .nil⟩
    · split
      · split
        · exact ⟨rfl, hfields _ _⟩
        · exact ⟨rfl, hfields _ _⟩
      · split
        · split
          · exact ⟨rfl, hfields _ _⟩
          · exact ⟨rfl, .cons (.content h) .nil⟩
        · exact ⟨rfl, .cons (.content h) .nil⟩

theorem contributions_alike {ks ls : List SourceLine} (h : List.Forall₂ Alike ks ls)
    (state : SectionState) :
    List.Forall₂ Contribution.Alike (contributions state ks) (contributions state ls) := by
  induction h generalizing state with
  | nil => exact .nil
  | @cons k l ks ls hl _ ih =>
    obtain ⟨hstate, hfound⟩ := route_alike hl state
    have hrest := ih (route state k).1
    rw [contributions_cons, contributions_cons]
    rw [hstate] at hrest ⊢
    exact List.rel_append hfound hrest

theorem fieldText_alike {xs ys : List Contribution} (h : List.Forall₂ Contribution.Alike xs ys)
    (name : SectionName) : fieldText name xs = fieldText name ys := by
  have htexts : xs.filterMap (field? name) = ys.filterMap (field? name) := by
    induction h with
    | nil => rfl
    | cons hc _ ih =>
      rw [List.filterMap_cons, List.filterMap_cons, ih]
      cases hc <;> rfl
  rw [fieldText_eq, fieldText_eq, fieldTexts, fieldTexts, htexts]

theorem content_alike {xs ys : List Contribution} (h : List.Forall₂ Contribution.Alike xs ys) :
    List.Forall₂ Alike (xs.filterMap line?) (ys.filterMap line?) := by
  induction h with
  | nil => exact .nil
  | cons hc _ ih =>
    cases hc with
    | fields => exact ih
    | content hl => exact .cons hl ih

/-- The sections of lines that differ by white space at their ends. -/
theorem ofLines_alike {ks ls : List SourceLine} (h : List.Forall₂ Alike ks ls) :
    (ofLines ks).metadata = (ofLines ls).metadata ∧ (ofLines ks).config = (ofLines ls).config ∧
      List.Forall₂ Alike (ofLines ks).content (ofLines ls).content := by
  have hfound := contributions_alike h {}
  refine ⟨fieldText_alike hfound .metadata, fieldText_alike hfound .config, ?_⟩
  rw [content_ofLines, content_ofLines]
  exact content_alike hfound

end Sections

namespace Context

variable {σ : Type} (ctx : Context σ)

/-- A line is evaluated as what it is without the white space at its ends. -/
theorem readLine_alike {k l : SourceLine} (h : SourceLine.Alike k l) :
    ctx.readLine k = ctx.readLine l := by
  rw [readLine, readLine, h.text, h.number]

end Context

/-- An error without its place in bytes. -/
def LineError.forgetSpan (e : LineError) : LineError :=
  { e with span := ⟨0, 0⟩ }

namespace Context

variable {σ : Type} (ctx : Context σ)

theorem readLines_alike {ks ls : List SourceLine} (h : List.Forall₂ SourceLine.Alike ks ls)
    (found : Material) (w : World σ) :
    (ctx.readLines found ks w).1.mapError LineError.forgetSpan =
        (ctx.readLines found ls w).1.mapError LineError.forgetSpan ∧
      (ctx.readLines found ks w).2 = (ctx.readLines found ls w).2 := by
  induction h generalizing found w with
  | nil => exact ⟨rfl, rfl⟩
  | @cons k l ks ls hl _ ih =>
    rw [readLines, readLines, readLine_alike ctx hl]
    cases (ctx.readLine l).run.run w with
    | mk result between =>
      cases result with
      | error e =>
        refine ⟨?_, rfl⟩
        simp [Except.mapError, LineError.forgetSpan, hl.number]
      | ok effect => exact ih (found.add effect) between

theorem material_alike {ks ls : List SourceLine} (h : List.Forall₂ SourceLine.Alike ks ls)
    (random : σ) :
    (ctx.material ks random).1.mapError LineError.forgetSpan =
        (ctx.material ls random).1.mapError LineError.forgetSpan ∧
      (ctx.material ks random).2 = (ctx.material ls random).2 := by
  obtain ⟨hresult, hworld⟩ := readLines_alike ctx h {} ⟨{}, random⟩
  exact ⟨hresult, congrArg World.random hworld⟩

end Context

/-- A diagnostic without its place in bytes. -/
def Diagnostic.forgetSpan (d : Diagnostic) : Diagnostic :=
  { d with span := none }

/-- An exercise without the text of its block. -/
def Exercise.forgetScript (x : Exercise) : Exercise :=
  { x with script := "" }

namespace Outcome

/-- Outcomes that differ in the texts of blocks and in places in bytes at most. -/
structure Alike (o p : Outcome) : Prop where
  exercises : o.exercises.map Exercise.forgetScript = p.exercises.map Exercise.forgetScript
  diagnostics : o.diagnostics.map Diagnostic.forgetSpan = p.diagnostics.map Diagnostic.forgetSpan

theorem Alike.refl (o : Outcome) : Alike o o :=
  ⟨rfl, rfl⟩

theorem Alike.append {o o' p p' : Outcome} (h : Alike o o') (h' : Alike p p') :
    Alike (o ++ p) (o' ++ p') := by
  constructor
  · simp [h.exercises, h'.exercises]
  · simp [h.diagnostics, h'.diagnostics]

theorem alike_report {xs ys : List Diagnostic}
    (h : xs.map Diagnostic.forgetSpan = ys.map Diagnostic.forgetSpan) :
    Alike (report xs) (report ys) := by
  constructor
  · simp
  · simpa using h

/-- Messages show lines and blocks, and no places in bytes. -/
theorem map_render_filter {p : Diagnostic → Bool} (hp : ∀ d : Diagnostic, p d.forgetSpan = p d)
    (ds : List Diagnostic) : (ds.filter p).map Diagnostic.render =
      ((ds.map Diagnostic.forgetSpan).filter p).map Diagnostic.render := by
  have hrender : ∀ d : Diagnostic, d.forgetSpan.render = d.render := fun _ => rfl
  rw [List.filter_map, List.map_map]
  have hsame : p ∘ Diagnostic.forgetSpan = p := funext hp
  rw [hsame]
  exact List.map_congr_left fun d _ => (hrender d).symm

theorem Alike.errors {o p : Outcome} (h : Alike o p) (ho : o.Rendered) (hp : p.Rendered) :
    o.errors = p.errors := by
  have hkeep : ∀ d : Diagnostic, d.forgetSpan.isError = d.isError := fun _ => rfl
  rw [ho.errors, hp.errors, map_render_filter hkeep, h.diagnostics, ← map_render_filter hkeep]

theorem Alike.warnings {o p : Outcome} (h : Alike o p) (ho : o.Rendered) (hp : p.Rendered) :
    o.warnings = p.warnings := by
  have hkeep : ∀ d : Diagnostic, d.forgetSpan.isWarning = d.isWarning := fun _ => rfl
  rw [ho.warnings, hp.warnings, map_render_filter hkeep, h.diagnostics, ← map_render_filter hkeep]

end Outcome

namespace Engine

variable {σ : Type} (e : Engine σ) {x y : Block}

theorem forgetSpan_aboutBlock (h : x.Alike y) (severity : Severity) (message : String) :
    (aboutBlock x severity message).forgetSpan = (aboutBlock y severity message).forgetSpan := by
  simp [aboutBlock, Diagnostic.forgetSpan, h.index, h.startLine]

theorem forgetSpan_aboutLine (h : x.Alike y) (line : Nat) (s t : Span) (message : String) :
    (aboutLine x line s message).forgetSpan = (aboutLine y line t message).forgetSpan := by
  simp [aboutLine, Diagnostic.forgetSpan, h.index]

theorem map_forgetSpan_aboutBlock (h : x.Alike y) (severity : Severity) (messages : List String) :
    (messages.map (aboutBlock x severity)).map Diagnostic.forgetSpan =
      (messages.map (aboutBlock y severity)).map Diagnostic.forgetSpan := by
  rw [List.map_map, List.map_map]
  exact List.map_congr_left fun message _ => forgetSpan_aboutBlock h severity message

theorem alike_aboutBlock (h : x.Alike y) (severity : Severity) (message : String) :
    Outcome.Alike (.report [aboutBlock x severity message])
      (.report [aboutBlock y severity message]) :=
  Outcome.alike_report (map_forgetSpan_aboutBlock h severity [message])

theorem forgetSpan_contentError (h : x.Alike y) (err : ContentError) :
    (contentError x err).forgetSpan = (contentError y err).forgetSpan := by
  rw [contentError.eq_def, contentError.eq_def]
  split
  · split
    · exact forgetSpan_aboutLine h _ _ _ _
    · exact forgetSpan_aboutBlock h _ _
  · exact forgetSpan_aboutBlock h _ _

theorem headerOf_alike (h : x.Alike y) : headerOf x = headerOf y := by
  obtain ⟨hmetadata, hconfig, -⟩ := Sections.ofLines_alike h.lines
  rw [headerOf, headerOf, Sections.ofBlock, Sections.ofBlock, readHeader, readHeader, hmetadata,
    hconfig]

theorem fieldWarnings_alike (h : x.Alike y) :
    Outcome.Alike (.report (e.fieldWarnings x)) (.report (e.fieldWarnings y)) := by
  rw [fieldWarnings, fieldWarnings, headerOf_alike h]
  exact Outcome.alike_report (map_forgetSpan_aboutBlock h .warning _)

theorem forgetScript_assemble (h : x.Alike y) (kind : Kind) (author : String)
    (metadata : Metadata) (config : Config) (material : Material) (content : Content)
    (validation : Validation) :
    (Exercise.assemble kind x author metadata config material content validation).forgetScript =
      (Exercise.assemble kind y author metadata config material content
        validation).forgetScript := by
  simp [Exercise.assemble, Exercise.forgetScript, h.index]

theorem finish_alike (h : x.Alike y) (author : String) (header : Header) (declared : Option Kind)
    (material : Material) : Outcome.Alike (e.finish author x header declared material)
      (e.finish author y header declared material) := by
  rw [finish, finish]
  split
  · exact alike_aboutBlock h _ _
  · split
    · exact alike_aboutBlock h _ _
    · split
      · exact Outcome.alike_report (congrArg (· :: []) (forgetSpan_contentError h _))
      · constructor
        · exact congrArg (· :: []) (forgetScript_assemble h _ author _ _ _ _ _)
        · dsimp only
          rw [Outcome.diagnostics_report, Outcome.diagnostics_report, List.map_append,
            List.map_append, map_forgetSpan_aboutBlock h, map_forgetSpan_aboutBlock h]

/-- Blocks that differ by white space come to the same and leave the random source in one state. -/
theorem compileBlock_alike (h : x.Alike y) (author : String) (random : σ) :
    Outcome.Alike (e.compileBlock author x random).1 (e.compileBlock author y random).1 ∧
      (e.compileBlock author x random).2 = (e.compileBlock author y random).2 := by
  obtain ⟨-, -, hcontent⟩ := Sections.ofLines_alike h.lines
  obtain ⟨hresult, hrandom⟩ := (e.functions.context e.words).material_alike hcontent random
  cases hx : e.materialOf x random with
  | mk result next =>
    cases hy : e.materialOf y random with
    | mk result' next' =>
      have hone : (e.materialOf x random).1.mapError LineError.forgetSpan =
          (e.materialOf y random).1.mapError LineError.forgetSpan := hresult
      have htwo : (e.materialOf x random).2 = (e.materialOf y random).2 := hrandom
      rw [hx, hy] at hone htwo
      obtain rfl : next = next' := htwo
      cases result with
      | error err =>
        cases result' with
        | ok material => cases hone
        | error err' =>
          have herr : err.forgetSpan = err'.forgetSpan := Except.error.inj hone
          have hline : err.forgetSpan.line = err'.forgetSpan.line := congrArg LineError.line herr
          have hmessage : err.forgetSpan.error = err'.forgetSpan.error :=
            congrArg LineError.error herr
          rw [LineError.forgetSpan, LineError.forgetSpan] at hline hmessage
          rw [compileBlock_of_error hx, compileBlock_of_error hy, hline, hmessage]
          refine ⟨(e.fieldWarnings_alike h).append ?_, rfl⟩
          exact Outcome.alike_report (congrArg (· :: []) (forgetSpan_aboutLine h _ _ _ _))
      | ok material =>
        cases result' with
        | error err' => cases hone
        | ok material' =>
          obtain rfl : material = material' := Except.ok.inj hone
          have hkind : e.kindOf x = e.kindOf y := by
            rw [kindOf, kindOf, headerOf_alike h]
          rw [compileBlock_of_ok hx, compileBlock_of_ok hy, hkind, headerOf_alike h]
          exact ⟨(e.fieldWarnings_alike h).append (e.finish_alike h author _ _ material), rfl⟩

theorem compileBlocks_alike {xs ys : List Block} (h : List.Forall₂ Block.Alike xs ys)
    (author : String) (random : σ) :
    Outcome.Alike (e.compileBlocks author xs random).1 (e.compileBlocks author ys random).1 ∧
      (e.compileBlocks author xs random).2 = (e.compileBlocks author ys random).2 := by
  induction h generalizing random with
  | nil => exact ⟨.refl _, rfl⟩
  | cons hblock _ ih =>
    obtain ⟨hown, hnext⟩ := e.compileBlock_alike hblock author random
    rw [compileBlocks_cons, compileBlocks_cons, hnext]
    obtain ⟨hothers, hlast⟩ := ih (e.compileBlock author _ random).2
    exact ⟨hown.append hothers, hlast⟩

variable {a b : String}

theorem forgetSpan_aboutStructure {v w : StructureWarning} (h : v.Alike a b w) :
    (aboutStructure a v).forgetSpan = (aboutStructure b w).forgetSpan := by
  have hrow : Chars.countBefore '\n' v.span.start a.toList =
      Chars.countBefore '\n' w.span.start b.toList := h.start
  simp [aboutStructure, Diagnostic.forgetSpan, h.fault, hrow]

theorem map_forgetSpan_aboutStructure {vs ws : List StructureWarning}
    (h : List.Forall₂ (StructureWarning.Alike a b) vs ws) :
    (vs.map (aboutStructure a)).map Diagnostic.forgetSpan =
      (ws.map (aboutStructure b)).map Diagnostic.forgetSpan := by
  induction h with
  | nil => rfl
  | cons hw _ ih =>
    rw [List.map_cons, List.map_cons, List.map_cons, List.map_cons, ih,
      forgetSpan_aboutStructure hw]

/-- Scripts with equally many lines that are the same but for white space at their ends come to the
same exercises but for the texts of the blocks, and to the same diagnostics but for their places in
bytes, and leave the random source in the same state. -/
theorem compile_of_sameLayout (h : SameLayout a b) (author : String) (random : σ) :
    (e.compile a author random).1.exercises.map Exercise.forgetScript =
        (e.compile b author random).1.exercises.map Exercise.forgetScript ∧
      (e.compile a author random).1.diagnostics.map Diagnostic.forgetSpan =
        (e.compile b author random).1.diagnostics.map Diagnostic.forgetSpan ∧
      (e.compile a author random).1.errors = (e.compile b author random).1.errors ∧
      (e.compile a author random).1.warnings = (e.compile b author random).1.warnings ∧
      (e.compile a author random).2 = (e.compile b author random).2 := by
  have hwarnings := map_forgetSpan_aboutStructure (Outline.warnings_alike h)
  obtain ⟨hblocks, hrandom⟩ := e.compileBlocks_alike (Outline.blocks_alike h) author random
  have halike : Outcome.Alike (e.compile a author random).1 (e.compile b author random).1 := by
    rw [compile, compile]
    exact (Outcome.alike_report hwarnings).append hblocks
  have hnext : (e.compile a author random).2 = (e.compile b author random).2 := by
    rw [compile, compile]
    exact hrandom
  have ha := e.compile_rendered author a random
  have hb := e.compile_rendered author b random
  exact ⟨halike.exercises, halike.diagnostics, halike.errors ha hb, halike.warnings ha hb, hnext⟩

/-- The line breaks of another system, and lines that are indented. -/
theorem compile_of_sameLayout_indented :
    let a := "\x7b\nA *cat* sat.\n\x7d"
    let b := "\x7b\r\n\tA *cat* sat.  \r\n \x7d"
    let e : Engine Draws := withWords .builtin
    SameLayout a b ∧
      (e.compile a "me" ⟨[2, 3], 0⟩).1.exercises.map Exercise.forgetScript =
          (e.compile b "me" ⟨[2, 3], 0⟩).1.exercises.map Exercise.forgetScript ∧
      (e.compile a "me" ⟨[2, 3], 0⟩).1.diagnostics.map Diagnostic.forgetSpan =
          (e.compile b "me" ⟨[2, 3], 0⟩).1.diagnostics.map Diagnostic.forgetSpan ∧
      (e.compile a "me" ⟨[2, 3], 0⟩).1.errors = (e.compile b "me" ⟨[2, 3], 0⟩).1.errors ∧
      (e.compile a "me" ⟨[2, 3], 0⟩).1.warnings = (e.compile b "me" ⟨[2, 3], 0⟩).1.warnings ∧
      (e.compile a "me" ⟨[2, 3], 0⟩).2 = (e.compile b "me" ⟨[2, 3], 0⟩).2 := by
  intro a b e
  have h : SameLayout a b := by decide
  exact ⟨h, compile_of_sameLayout e h "me" ⟨[2, 3], 0⟩⟩

end Engine

end Worksheet
