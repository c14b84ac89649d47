import Worksheet.Proofs.Block.Places
import Worksheet.Proofs.Checked.Fields
import Worksheet.Proofs.Checked.Kinds
import Worksheet.Proofs.Checked.Material
import Worksheet.Proofs.Checked.Outline
import Worksheet.Proofs.Engine.Blocks
import Worksheet.Proofs.Engine.Builtin

namespace Worksheet.Checked

open Engine (aboutBlock aboutLine contentError)

section Lines

/-- The number of line breaks among the first bytes of a text, which must be that many at least. -/
def breaksWithin (text : String) (stop : Nat) : Option Nat :=
  if stop ≤ Text.size text then some (Chars.countBefore '\n' stop text.toList) else none

/-- The line of a byte offset, or the last line if the offset is behind the end. -/
def lineOf (script : String) (offset : Nat) : Option Nat := do
  return (← breaksWithin script (min offset (Text.size script))) + 1

/-- A warning about text outside of all blocks. -/
def aboutStructure (script : String) (w : StructureWarning) : Option Diagnostic := do
  return ⟨.warning, w.fault.message, none, some (← lineOf script w.span.start), some w.span⟩

theorem aboutStructure_eq {script : String} {w : StructureWarning}
    (h : w ∈ (Outline.ofScript script).warnings) :
    aboutStructure script w = some (Engine.aboutStructure script w) := by
  obtain ⟨line, hline⟩ := Outline.standsOn_of_mem_warnings h
  have hstart : w.span.start ≤ Text.size script :=
    Nat.le_trans hline.bounds.start_le_stop hline.bounds.stop_le
  rw [aboutStructure, lineOf, breaksWithin, Nat.min_eq_left hstart, if_pos hstart]
  rfl

end Lines

section Blocks

variable (r : KindRegistry)

/-- The kind that the metadata names, and a warning if there is none of that name. -/
def declaredKind (metadata : Metadata) : Option (Option Kind × List String) :=
  match metadata.kind with
  | none => some (none, [])
  | some name => do
    match ← kind? r name with
    | some k => return (some k, [])
    | none =>
      return (none, [s!"unknown exercise type '{name}', detecting the type from the content"])

/-- The kind that is declared, or else the one that the lines are detected as. -/
def kindOf (declared : Option Kind) (lines : List ContentLine) : Option (Option Kind) :=
  match declared with
  | some k => some (some k)
  | none => detectKind r lines

/-- Makes an exercise from the evaluated content of a block. -/
def finish (author : String) (block : Block) (header : Engine.Header) (declared : Option Kind)
    (material : Material) : Option Outcome :=
  if material.lines.isEmpty then
    some (.report [aboutBlock block .error "exercise block has no content"])
  else do
    match ← kindOf r declared material.lines with
    | none => return .report [aboutBlock block .error ContentError.undetectedKind.message]
    | some kind =>
      match (parseContent r kind.tag material.lines header.config.variation).run with
      | .error err => return .report [contentError block err]
      | .ok parsed => do
        let content := (← parsed).inheritInstructions header.metadata.instructions
        let validation ← validateContent r kind.tag content
        let report := Outcome.report (validation.errors.map (aboutBlock block .error) ++
          validation.warnings.map (aboutBlock block .warning))
        match ← kind? r kind.tag with
        | none => return report
        | some k => return { report with
            exercises := [Exercise.assemble k block author header.metadata header.config material
              content validation] }

end Blocks

variable {σ : Type} [RandomSource σ]

section Scripts

variable (r : KindRegistry) (words : WordLibrary)

/-- Compiles one block. -/
def compileBlock (author : String) (block : Block) : OptionT (StateM σ) Outcome := do
  let sections ← access (sections block)
  let header ← access (readHeader sections)
  let (declared, unknown) ← access (declaredKind r header.metadata)
  let before := Outcome.report ((header.warnings ++ unknown).map (aboutBlock block .warning))
  match ← (context words).material sections.content with
  | .error err => return before ++ .report [aboutLine block err.line err.span err.error.message]
  | .ok material => return before ++ (← access (finish r author block header declared material))

/-- Compiles blocks one after the other. -/
def compileBlocks (author : String) : List Block → OptionT (StateM σ) Outcome
  | [] => pure {}
  | block :: rest => do
    let first ← compileBlock r words author block
    let others ← compileBlocks author rest
    return first ++ others

/-- Compiles a script with the built-in functions. -/
def compile (script author : String) : OptionT (StateM σ) Outcome := do
  let outline ← access (outline script)
  let warnings ← access (outline.warnings.mapM (aboutStructure script))
  let blocks ← compileBlocks r words author outline.blocks
  return .report warnings ++ blocks

end Scripts

/-- An engine with the built-in functions, and with kinds that make no failing access. -/
structure Standard (e : Engine σ) : Prop where
  functions : e.functions = FunctionRegistry.builtin
  kinds : Covered e.kinds

namespace Standard

theorem withWords (words : WordLibrary) : Standard (Engine.withWords words : Engine σ) where
  functions := by
    have h : ∀ e : Engine σ, ({ e with words } : Engine σ).functions = e.functions := fun _ => rfl
    rw [← Engine.functions_builtin (σ := σ)]
    exact h Engine.builtin
  kinds := by
    rw [Engine.kinds_withWords]
    exact covered_builtin

variable {e : Engine σ} (h : Standard e) (author : String) (block : Block)

include h

theorem declaredKind (metadata : Metadata) :
    Checked.declaredKind e.kinds metadata = some (e.declaredKind metadata) := by
  rw [Checked.declaredKind, Engine.declaredKind]
  cases metadata.kind with
  | none => rfl
  | some name =>
    dsimp only
    rw [kind?_eq h.kinds.indexed]
    cases e.kinds.get? name <;> rfl

theorem kindOf (declared : Option Kind) (lines : List ContentLine) :
    Checked.kindOf e.kinds declared lines = some (declared.or (e.kinds.detect? lines)) := by
  cases declared with
  | some k => rfl
  | none =>
    rw [Option.none_or]
    exact h.kinds.detectKind lines

theorem finish (header : Engine.Header) {declared : Option Kind}
    (hdeclared : ∀ k, declared = some k → k ∈ e.kinds.kinds) (material : Material) :
    Checked.finish e.kinds author block header declared material =
      some (e.finish author block header declared material) := by
  rw [Checked.finish, Engine.finish, h.kindOf]
  cases material.lines.isEmpty with
  | true => rfl
  | false =>
    cases hkind : declared.or (e.kinds.detect? material.lines) with
    | none => rfl
    | some kind =>
      have hmem : kind ∈ e.kinds.kinds := by
        rcases Option.or_eq_some_iff.1 hkind with hown | ⟨-, hdetected⟩
        · exact hdeclared kind hown
        · exact List.mem_mergeSort.1 (List.mem_of_find?_eq_some hdetected)
      have hfound : kind? e.kinds kind.tag = some (some kind) := by
        rw [kind?_eq h.kinds.indexed, h.kinds.indexed.foundByTag kind hmem]
      have hparse : (parseContent e.kinds kind.tag material.lines header.config.variation).run =
          some <$> e.kinds.parse kind.tag material.lines header.config.variation :=
        h.kinds.parseContent kind.tag material.lines header.config.variation
      simp only [hfound, hparse, h.kinds.validateContent, Option.bind_eq_bind, Option.bind_some]
      cases e.kinds.parse kind.tag material.lines header.config.variation <;> rfl

omit h in
/-- What a block comes to whose content is evaluated, or has a fault. -/
def conclude (e : Engine σ) (author : String) (block : Block) (result : Except LineError Material) :
    Outcome :=
  let header := Engine.readHeader (Sections.ofBlock block)
  let (declared, unknown) := e.declaredKind header.metadata
  let before := Outcome.report ((header.warnings ++ unknown).map (aboutBlock block .warning))
  match result with
  | .error err => before ++ .report [aboutLine block err.line err.span err.error.message]
  | .ok material => before ++ e.finish author block header declared material

theorem compileBlock_apply (random : σ) : e.compileBlock author block random =
    let (result, random) := (FunctionRegistry.builtin.context e.words).material
      (Sections.ofBlock block).content random
    (conclude e author block result, random) := by
  rw [Engine.compileBlock, h.functions]
  simp only [conclude]
  generalize (FunctionRegistry.builtin.context e.words).material (Sections.ofBlock block).content
    random = evaluated
  obtain ⟨err | material, after⟩ := evaluated
  · rfl
  · rfl

variable [LawfulRandomSource σ]

theorem compileBlock : Safe (Checked.compileBlock e.kinds e.words author block)
    (e.compileBlock author block : StateM σ Outcome) := by
  let header := Engine.readHeader (Sections.ofBlock block)
  have hkind := h.declaredKind header.metadata
  have hmem : ∀ k, (e.declaredKind header.metadata).1 = some k → k ∈ e.kinds.kinds :=
    fun _ => Engine.mem_of_declaredKind
  refine Safe.of_eq (x := do
    let result ← (FunctionRegistry.builtin.context e.words).material
      (Sections.ofBlock block).content
    return conclude e author block result) ?_
    (funext fun random => (h.compileBlock_apply author block random).symm)
  simp only [conclude]
  rw [Checked.compileBlock]
  refine Safe.after ?_ (sections_eq block)
  refine Safe.after ?_ (readHeader_eq _)
  refine Safe.after ?_ hkind
  generalize e.declaredKind header.metadata = declared at hmem ⊢
  obtain ⟨declared, unknown⟩ := declared
  refine Safe.bind ((context_safe e.words).material _) fun result => ?_
  cases result with
  | error err => exact safe_pure (m := StateM σ) _
  | ok found =>
    refine Safe.after ?_ (h.finish author block header hmem found)
    exact safe_pure (m := StateM σ) _

theorem compileBlocks (blocks : List Block) :
    Safe (Checked.compileBlocks e.kinds e.words author blocks)
      (e.compileBlocks author blocks : StateM σ Outcome) := by
  induction blocks with
  | nil => exact safe_pure (m := StateM σ) _
  | cons block rest ih =>
    refine Safe.of_eq (x := do
      let first ← e.compileBlock author block
      let others ← e.compileBlocks author rest
      return first ++ others) ?_ rfl
    refine Safe.bind (h.compileBlock author block) fun first => ?_
    refine Safe.bind ih fun others => ?_
    exact safe_pure (m := StateM σ) _

theorem compile (script : String) : Safe (Checked.compile e.kinds e.words script author)
    (e.compile script author : StateM σ Outcome) := by
  refine Safe.of_eq (x := do
    let blocks ← e.compileBlocks author (Outline.ofScript script).blocks
    return .report ((Outline.ofScript script).warnings.map (Engine.aboutStructure script)) ++
      blocks) ?_ (funext fun random => by rw [Engine.compile]; rfl)
  refine Safe.after ?_ (outline_eq script)
  have hwarnings : ∀ w ∈ (Outline.ofScript script).warnings,
      aboutStructure script w = some (Engine.aboutStructure script w) := fun _ => aboutStructure_eq
  refine Safe.after ?_ (mapM_eq_some hwarnings)
  refine Safe.bind (h.compileBlocks author _) fun blocks => ?_
  exact safe_pure (m := StateM σ) _

end Standard

/-- No access fails, and there is an outcome for every script. -/
theorem no_failing_access [LawfulRandomSource σ] (words : WordLibrary) (script author : String)
    (random : σ) : (compile .builtin words script author).run random =
      (some ((Engine.withWords words).compile script author random).1,
        ((Engine.withWords words).compile script author random).2) := by
  have hsafe := (Standard.withWords words (σ := σ)).compile author script
  rw [Engine.kinds_withWords] at hsafe
  exact safe_iff.1 hsafe random

theorem no_failing_access_draws :
    let script := "\x7b\nThe @fill(animals, 2) *sleeps*.\n\x7d"
    let random : Draws := ⟨[3, 1], 0⟩
    LawfulRandomSource Draws ∧ (compile .builtin .builtin script "Ada").run random =
      (some ((Engine.withWords .builtin).compile script "Ada" random).1,
        ((Engine.withWords .builtin).compile script "Ada" random).2) := by
  intro script random
  exact ⟨inferInstance, no_failing_access .builtin script "Ada" random⟩

end Worksheet.Checked
