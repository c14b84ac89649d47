import Worksheet.Engine
import Worksheet.Proofs.Kind.Registry
import Worksheet.Proofs.Outcome

namespace Worksheet

namespace Outcome

/-- All diagnostics are about the block. -/
def About (own : Outcome) (block : Block) : Prop :=
  ∀ d ∈ own.diagnostics, d.block = some block.index

theorem About.append {own other : Outcome} {block : Block} (h : own.About block)
    (h' : other.About block) : (own ++ other).About block := by
  intro d hd
  rw [diagnostics_append] at hd
  rcases List.mem_append.1 hd with hd | hd
  · exact h d hd
  · exact h' d hd

theorem about_report {diagnostics : List Diagnostic} {block : Block}
    (h : ∀ d ∈ diagnostics, d.block = some block.index) : (report diagnostics).About block := by
  rw [About, diagnostics_report]
  exact h

end Outcome

namespace Engine

variable {σ : Type}

/-- The fields of a block. -/
def headerOf (block : Block) : Header :=
  readHeader (Sections.ofBlock block)

/-- The warnings about the fields of a block. -/
def fieldWarnings (e : Engine σ) (block : Block) : List Diagnostic :=
  ((headerOf block).warnings ++ (e.declaredKind (headerOf block).metadata).2).map
    (aboutBlock block .warning)

/-- The kind that a block names. -/
def kindOf (e : Engine σ) (block : Block) : Option Kind :=
  (e.declaredKind (headerOf block).metadata).1

theorem mem_of_declaredKind {e : Engine σ} {metadata : Metadata} {k : Kind}
    (h : (e.declaredKind metadata).1 = some k) : k ∈ e.kinds.kinds := by
  rw [declaredKind] at h
  split at h
  · cases h
  · split at h
    · rename_i hget
      obtain rfl := Option.some.inj h
      exact KindRegistry.mem_of_get? hget
    · cases h

/-- The content of a block with its calls evaluated. -/
def materialOf (e : Engine σ) (block : Block) (random : σ) : Except LineError Material × σ :=
  (e.functions.context e.words).material (Sections.ofBlock block).content random

theorem compileBlock_of_error {e : Engine σ} {block : Block} {random next : σ} {err : LineError}
    (h : e.materialOf block random = (.error err, next)) (author : String) :
    e.compileBlock author block random =
      (.report (e.fieldWarnings block) ++
        .report [aboutLine block err.line err.span err.error.message], next) := by
  rw [materialOf] at h
  rw [compileBlock, h]
  dsimp only [fieldWarnings, headerOf]

theorem compileBlock_of_ok {e : Engine σ} {block : Block} {random next : σ} {material : Material}
    (h : e.materialOf block random = (.ok material, next)) (author : String) :
    e.compileBlock author block random =
      (.report (e.fieldWarnings block) ++
        e.finish author block (headerOf block) (e.kindOf block) material, next) := by
  rw [materialOf] at h
  rw [compileBlock, h]
  dsimp only [fieldWarnings, kindOf, headerOf]

/-- The blocks with what each of them comes to, compiled one after the other. -/
def compileEach (e : Engine σ) (author : String) : List Block → σ → List (Block × Outcome)
  | [], _ => []
  | block :: rest, random =>
    let (own, random) := e.compileBlock author block random
    (block, own) :: compileEach e author rest random

variable (e : Engine σ) (author : String)

theorem compileBlocks_cons (block : Block) (rest : List Block) (random : σ) :
    e.compileBlocks author (block :: rest) random =
      ((e.compileBlock author block random).1 ++
          (e.compileBlocks author rest (e.compileBlock author block random).2).1,
        (e.compileBlocks author rest (e.compileBlock author block random).2).2) := by
  rw [compileBlocks]

theorem compileEach_cons (block : Block) (rest : List Block) (random : σ) :
    e.compileEach author (block :: rest) random =
      (block, (e.compileBlock author block random).1) ::
        e.compileEach author rest (e.compileBlock author block random).2 := by
  rw [compileEach]

theorem map_fst_compileEach (blocks : List Block) (random : σ) :
    (e.compileEach author blocks random).map (·.1) = blocks := by
  induction blocks generalizing random with
  | nil => rfl
  | cons block rest ih => rw [compileEach_cons, List.map_cons, ih]

theorem exercises_compileBlocks (blocks : List Block) (random : σ) :
    (e.compileBlocks author blocks random).1.exercises =
      (e.compileEach author blocks random).flatMap (·.2.exercises) := by
  induction blocks generalizing random with
  | nil => rfl
  | cons block rest ih =>
    rw [compileBlocks_cons, compileEach_cons, List.flatMap_cons, ← ih, Outcome.exercises_append]

theorem diagnostics_compileBlocks (blocks : List Block) (random : σ) :
    (e.compileBlocks author blocks random).1.diagnostics =
      (e.compileEach author blocks random).flatMap (·.2.diagnostics) := by
  induction blocks generalizing random with
  | nil => rfl
  | cons block rest ih =>
    rw [compileBlocks_cons, compileEach_cons, List.flatMap_cons, ← ih, Outcome.diagnostics_append]

/-- What a block comes to holds of each of the blocks, whatever the random source has become. -/
theorem of_mem_compileEach {P : Block → Outcome → Prop}
    (h : ∀ block random, P block (e.compileBlock author block random).1) {blocks : List Block}
    {random : σ} {p : Block × Outcome} (hp : p ∈ e.compileEach author blocks random) :
    P p.1 p.2 := by
  induction blocks generalizing random with
  | nil => cases hp
  | cons block rest ih =>
    rw [compileEach_cons] at hp
    rw [List.mem_cons] at hp
    rcases hp with rfl | hp
    · dsimp only
      exact h block random
    · exact ih hp

/-- What every outcome of a block has and merging keeps, the outcome of all blocks has. -/
theorem compileBlocks_induction {P : Outcome → Prop} (hempty : P {})
    (happend : ∀ o p, P o → P p → P (o ++ p))
    (h : ∀ block random, P (e.compileBlock author block random).1) (blocks : List Block)
    (random : σ) : P (e.compileBlocks author blocks random).1 := by
  induction blocks generalizing random with
  | nil => exact hempty
  | cons block rest ih =>
    rw [compileBlocks_cons]
    exact happend _ _ (h block random) (ih _)

theorem block_aboutBlock (block : Block) (severity : Severity) (messages : List String) :
    ∀ d ∈ messages.map (aboutBlock block severity), d.block = some block.index := by
  intro d hd
  obtain ⟨message, -, rfl⟩ := List.mem_map.1 hd
  rfl

theorem block_contentError (block : Block) (error : ContentError) :
    (contentError block error).block = some block.index := by
  rw [contentError.eq_def]
  split
  · split <;> rfl
  · rfl

theorem finish_about (block : Block) (header : Header) (declared : Option Kind)
    (material : Material) : (e.finish author block header declared material).About block := by
  have hone : ∀ d : Diagnostic, d.block = some block.index → (Outcome.report [d]).About block := by
    intro d hd
    refine Outcome.about_report fun d' hd' => ?_
    rwa [List.mem_singleton.1 hd']
  rw [finish]
  split
  · exact hone _ rfl
  · split
    · exact hone _ rfl
    · split
      · exact hone _ (block_contentError block _)
      · intro d hd
        dsimp only at hd
        rw [Outcome.diagnostics_report] at hd
        rcases List.mem_append.1 hd with hd | hd
        · exact block_aboutBlock block .error _ d hd
        · exact block_aboutBlock block .warning _ d hd

/-- Compiling a block has nothing to say about other blocks. -/
theorem compileBlock_about (block : Block) (random : σ) :
    (e.compileBlock author block random).1.About block := by
  have hfields : (Outcome.report (e.fieldWarnings block)).About block :=
    Outcome.about_report (block_aboutBlock block .warning _)
  cases hm : e.materialOf block random with
  | mk result next =>
    cases result with
    | error err =>
      rw [compileBlock_of_error hm]
      refine hfields.append (Outcome.about_report fun d hd => ?_)
      rw [List.mem_singleton.1 hd]
      rfl
    | ok material =>
      rw [compileBlock_of_ok hm]
      exact hfields.append (e.finish_about author block _ _ material)

theorem compileBlock_rendered (block : Block) (random : σ) :
    (e.compileBlock author block random).1.Rendered := by
  have hfinish : ∀ header declared material,
      (e.finish author block header declared material).Rendered := by
    intro header declared material
    rw [finish]
    split
    · exact Outcome.rendered_report _
    · split
      · exact Outcome.rendered_report _
      · split
        · exact Outcome.rendered_report _
        · exact ⟨(Outcome.rendered_report _).errors, (Outcome.rendered_report _).warnings⟩
  cases hm : e.materialOf block random with
  | mk result next =>
    cases result with
    | error err =>
      rw [compileBlock_of_error hm]
      exact (Outcome.rendered_report _).append (Outcome.rendered_report _)
    | ok material =>
      rw [compileBlock_of_ok hm]
      exact (Outcome.rendered_report _).append (hfinish _ _ _)

theorem compile_rendered (script : String) (random : σ) :
    (e.compile script author random).1.Rendered := by
  rw [compile]
  exact (Outcome.rendered_report _).append
    (e.compileBlocks_induction author Outcome.rendered_empty (fun _ _ => Outcome.Rendered.append)
      (e.compileBlock_rendered author) _ _)

theorem exercises_compile (script : String) (random : σ) :
    (e.compile script author random).1.exercises =
      (e.compileEach author (Outline.ofScript script).blocks random).flatMap (·.2.exercises) := by
  rw [← exercises_compileBlocks, compile, Outcome.exercises_append, Outcome.exercises_report,
    List.nil_append]

theorem diagnostics_compile (script : String) (random : σ) :
    (e.compile script author random).1.diagnostics =
      (Outline.ofScript script).warnings.map (aboutStructure script) ++
        (e.compileEach author (Outline.ofScript script).blocks random).flatMap
          (·.2.diagnostics) := by
  rw [← diagnostics_compileBlocks, compile, Outcome.diagnostics_append, Outcome.diagnostics_report]

end Engine

end Worksheet
