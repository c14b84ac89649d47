import Worksheet.Proofs.Block.Braces
import Worksheet.Proofs.Block.Sections
import Worksheet.Proofs.Engine.Blocks

namespace Worksheet.Engine

variable {σ : Type} {e : Engine σ} {author : String} {block : Block} {random : σ} {x : Exercise}

/-- The kind and the content that evaluated lines of a block come to. -/
structure Reads (e : Engine σ) (block : Block) (lines : List ContentLine) (kind : Kind)
    (content : Content) : Prop where
  found : (e.kindOf block).or (e.kinds.detect? lines) = some kind
  read : e.kinds.parse kind.tag lines (headerOf block).config.variation = .ok content

theorem Reads.mem {lines : List ContentLine} {kind : Kind} {content : Content}
    (h : e.Reads block lines kind content) : kind ∈ e.kinds.kinds := by
  rcases Option.or_eq_some_iff.1 h.found with hown | ⟨-, hdetected⟩
  · exact mem_of_declaredKind hown
  · exact KindRegistry.mem_of_detect? hdetected

theorem exercises_finish {material : Material} {kind : Kind} {content : Content}
    (hne : material.lines ≠ []) (h : e.Reads block material.lines kind content) :
    ∃ y, (e.finish author block (headerOf block) (e.kindOf block) material).exercises = [y] ∧
      y.kind = kind.tag ∧
      y.content = content.inheritInstructions (headerOf block).metadata.instructions := by
  have hlines : material.lines.isEmpty = false := by simpa using hne
  rw [finish]
  simp only [hlines, Bool.false_eq_true, if_false, h.found, h.read]
  exact ⟨_, rfl, rfl, rfl⟩

/-- The exercise that content of a kind makes of a block. -/
def assembled (e : Engine σ) (author : String) (block : Block) (material : Material) (kind : Kind)
    (content : Content) : Exercise :=
  let final := content.inheritInstructions (headerOf block).metadata.instructions
  Exercise.assemble kind block author (headerOf block).metadata (headerOf block).config material
    final (e.kinds.validate kind.tag final)

/-- An exercise of a block is put together from the content that is read. -/
theorem assembled_of_mem_finish {material : Material}
    (hx : x ∈ (e.finish author block (headerOf block) (e.kindOf block) material).exercises) :
    ∃ kind content, e.Reads block material.lines kind content ∧
      x = e.assembled author block material kind content := by
  rw [finish] at hx
  split at hx
  · simp at hx
  · split at hx
    · simp at hx
    · rename_i kind hkind
      split at hx
      · simp at hx
      · rename_i content hcontent
        exact ⟨kind, content, ⟨hkind, hcontent⟩, List.mem_singleton.1 hx⟩

/-- A block that is evaluated and read comes to one exercise. -/
theorem exercises_compileBlock {next : σ} {material : Material} {kind : Kind} {content : Content}
    (hm : e.materialOf block random = (.ok material, next)) (hne : material.lines ≠ [])
    (h : e.Reads block material.lines kind content) (author : String) :
    ∃ y, (e.compileBlock author block random).1.exercises = [y] ∧ y.kind = kind.tag ∧
      y.content = content.inheritInstructions (headerOf block).metadata.instructions := by
  rw [compileBlock_of_ok hm]
  simp only [Outcome.exercises_append, Outcome.exercises_report, List.nil_append]
  exact exercises_finish hne h

theorem assembled_of_mem_compileBlock
    (hx : x ∈ (e.compileBlock author block random).1.exercises) :
    ∃ material next kind content, e.materialOf block random = (.ok material, next) ∧
      e.Reads block material.lines kind content ∧
        x = e.assembled author block material kind content := by
  cases hm : e.materialOf block random with
  | mk result next =>
    cases result with
    | error err =>
      rw [compileBlock_of_error hm] at hx
      simp at hx
    | ok material =>
      rw [compileBlock_of_ok hm] at hx
      simp only [Outcome.exercises_append, Outcome.exercises_report, List.nil_append] at hx
      obtain ⟨kind, content, h⟩ := assembled_of_mem_finish hx
      exact ⟨material, next, kind, content, rfl, h⟩

theorem reads_of_mem_compileBlock (hx : x ∈ (e.compileBlock author block random).1.exercises) :
    ∃ material next kind content, e.materialOf block random = (.ok material, next) ∧
      e.Reads block material.lines kind content ∧ x.kind = kind.tag ∧
      x.content = content.inheritInstructions (headerOf block).metadata.instructions := by
  obtain ⟨material, next, kind, content, hm, hreads, rfl⟩ := assembled_of_mem_compileBlock hx
  exact ⟨material, next, kind, content, hm, hreads, rfl, rfl⟩

/-- Every exercise of a script is one of its blocks. -/
theorem exists_block_of_mem_compile {script : String}
    (hx : x ∈ (e.compile script author random).1.exercises) :
    ∃ block ∈ (Outline.ofScript script).blocks, ∃ before,
      x ∈ (e.compileBlock author block before).1.exercises := by
  rw [exercises_compile] at hx
  obtain ⟨p, hp, hx⟩ := List.mem_flatMap.1 hx
  have hblock : p.1 ∈ (Outline.ofScript script).blocks := by
    rw [← map_fst_compileEach e author (Outline.ofScript script).blocks random]
    exact List.mem_map_of_mem hp
  have hown : ∃ before, p.2 = (e.compileBlock author p.1 before).1 :=
    e.of_mem_compileEach author
      (P := fun block own => ∃ before, own = (e.compileBlock author block before).1)
      (fun block before => ⟨before, rfl⟩) hp
  obtain ⟨before, hbefore⟩ := hown
  rw [hbefore] at hx
  exact ⟨p.1, hblock, before, hx⟩

theorem lines_of_materialOf {next : σ} {material : Material}
    (hcalls : ∀ l ∈ (Sections.ofBlock block).content, Call.occursIn l.text = false)
    (h : e.materialOf block random = (.ok material, next)) :
    material.lines = SourceLine.contents (Sections.ofBlock block).content := by
  rw [materialOf, Context.material] at h
  cases hread : (e.functions.context e.words).readLines {} (Sections.ofBlock block).content
      ⟨{}, random⟩ with
  | mk result w =>
    rw [hread] at h
    obtain ⟨rfl, -⟩ := Prod.mk.inj h
    rw [Context.lines_of_readLines _ hcalls hread]
    rfl

/-- If there are no calls in a script, its exercises are read from the lines of its blocks as they
stand. -/
theorem exists_reads_of_mem_compile {script : String}
    (hplain : ∀ l ∈ SourceLine.ofScript script, Call.occursIn l.text = false)
    (hx : x ∈ (e.compile script author random).1.exercises) :
    ∃ block ∈ (Outline.ofScript script).blocks, ∃ kind content,
      e.Reads block (SourceLine.contents (Sections.ofBlock block).content) kind content ∧
        x.content = content.inheritInstructions (headerOf block).metadata.instructions := by
  obtain ⟨block, hblock, before, hown⟩ := exists_block_of_mem_compile hx
  obtain ⟨material, next, kind, content, hmaterial, hreads, -, hcontent⟩ :=
    reads_of_mem_compileBlock hown
  have hcut : ∀ l part : SourceLine, part.number = l.number → part.text.toList <+: l.text.toList →
      Call.occursIn l.text = false → Call.occursIn part.text = false := fun l part _ =>
    Call.occursIn_of_isPrefix
  have hcalls : ∀ l ∈ (Sections.ofBlock block).content, Call.occursIn l.text = false := fun l hl =>
    Outline.forall_lines hcut hplain hblock l (Sections.content_subset_lines block hl)
  rw [lines_of_materialOf hcalls hmaterial] at hreads
  exact ⟨block, hblock, kind, content, hreads, hcontent⟩

/-- A script of one block has the exercises of that block. -/
theorem exercises_compile_of_singleton {script : String}
    (h : (Outline.ofScript script).blocks = [block]) :
    (e.compile script author random).1.exercises =
      (e.compileBlock author block random).1.exercises := by
  rw [exercises_compile, h, compileEach_cons]
  simp [compileEach]

end Worksheet.Engine
