import Worksheet.Proofs.Block.Outline
import Worksheet.Proofs.Engine.Builtin
import Worksheet.Proofs.Engine.Exercise
import Worksheet.Proofs.Kind.Tags

namespace Worksheet

namespace Content

variable (c : Content) (instructions : Option String)

/-- Inherited instructions leave content in its kind. -/
theorem tag_inheritInstructions : (c.inheritInstructions instructions).tag = c.tag := by
  rw [inheritInstructions.eq_def]
  split
  · rename_i categories text hbody
    split
    · rfl
    · rw [tag, tag, hbody]
      rfl
  · rfl

theorem variation_inheritInstructions :
    (c.inheritInstructions instructions).variation = c.variation := by
  rw [inheritInstructions.eq_def]
  split
  · split <;> rfl
  · rfl

end Content

/-- What is stored with an exercise is true of its content and of its block. -/
structure Exercise.Integral (kinds : KindRegistry) (script : String) (block : Block)
    (x : Exercise) : Prop where
  kind : x.kind = x.content.tag
  variation : x.variation = x.content.variation
  /-- If there is a variation, the kind has one of that name. -/
  registered : ∀ name, x.variation = some name →
    ∃ k, kinds.get? x.kind = some k ∧ k.tag = x.kind ∧ ∃ v ∈ k.variations, v.name = name
  validation : kinds.validate x.kind x.content = x.validation
  /-- The script of the exercise is where the block stands. -/
  script : Text.slice? script block.span = some x.script

namespace Outline

/-- The text of a block is what stands between its ends. -/
theorem slice?_of_mem {script : String} {b : Block} (hb : b ∈ (ofScript script).blocks) :
    Text.slice? script b.span = some b.text := by
  obtain ⟨segments, h⟩ := Segmentation.exists_segments (SourceLine.ofScript script)
  obtain ⟨s, -, opening, body, closing, -, hread⟩ :=
    forall₂_exists_left (readOff_of_segmentation h).blocks hb
  exact hread.text

end Outline

namespace Engine

variable {σ : Type} {e : Engine σ} {author : String} {block : Block}

/-- With the built-in kinds, what is read of a block makes an exercise that agrees with itself. -/
theorem integral_assembled (he : e.kinds = KindRegistry.builtin) {script : String}
    (hblock : block ∈ (Outline.ofScript script).blocks) {material : Material} {kind : Kind}
    {content : Content} (hreads : e.Reads block material.lines kind content) :
    (e.assembled author block material kind content).Integral e.kinds script block := by
  have hparse := hreads.read
  have hmem := hreads.mem
  rw [he] at hparse hmem
  have hkind : KindRegistry.builtin.get? kind.tag = some kind :=
    KindRegistry.foundByTag_builtin kind hmem
  obtain ⟨k, hk, htag⟩ := KindRegistry.tag_of_parse hparse
  obtain rfl : k = kind := Option.some.inj (hk.symm.trans hkind)
  obtain ⟨v, hv, -, hvariation⟩ := (KindRegistry.parse_eq_ok_iff hk).1 hparse
  constructor
  · exact ((content.tag_inheritInstructions _).trans htag).symm
  · rfl
  · intro name hname
    have hown : content.variation = some name :=
      (content.variation_inheritInstructions _).symm.trans hname
    rw [hvariation] at hown
    obtain ⟨w, rfl, rfl⟩ := Option.map_eq_some_iff.1 hown
    refine ⟨k, ?_, rfl, w, KindRegistry.mem_of_chooseVariation hv, rfl⟩
    rw [he]
    exact hk
  · rfl
  · exact Outline.slice?_of_mem hblock

/-- Every exercise of a script is made of one of its blocks, in their order, and agrees with itself:
its kind and variation are those of its content, the variation is one of the kind, its check is that
of the content that is stored, and its script is what the block is in the script. -/
theorem compile_integral [RandomSource σ] (words : WordLibrary) (script author : String)
    (random : σ) :
    let e : Engine σ := withWords words
    let each := e.compileEach author (Outline.ofScript script).blocks random
    each.map (·.1) = (Outline.ofScript script).blocks ∧
      (e.compile script author random).1.exercises = each.flatMap (·.2.exercises) ∧
      ∀ p ∈ each, ∀ x ∈ p.2.exercises, x.Integral e.kinds script p.1 := by
  intro e each
  have hfst : each.map (·.1) = (Outline.ofScript script).blocks :=
    e.map_fst_compileEach author _ random
  refine ⟨hfst, e.exercises_compile author script random, fun p hp x hx => ?_⟩
  have hblock : p.1 ∈ (Outline.ofScript script).blocks := by
    rw [← hfst]
    exact List.mem_map_of_mem hp
  have hown : ∃ random, p.2 = (e.compileBlock author p.1 random).1 :=
    e.of_mem_compileEach author
      (P := fun block own => ∃ random, own = (e.compileBlock author block random).1)
      (fun block random => ⟨random, rfl⟩) hp
  obtain ⟨before, hbefore⟩ := hown
  rw [hbefore] at hx
  obtain ⟨material, next, kind, content, -, hreads, rfl⟩ := assembled_of_mem_compileBlock hx
  exact integral_assembled (kinds_withWords words) hblock hreads

/-- A variation of the block's own choice, and instructions that the content inherits. -/
theorem compile_integral_lake :
    let script := "\x7b\ntype: categorize\nvariation: lake\ninstructions: Pets\n= cat | dog\noak\n\x7d"
    let e : Engine Draws := withWords .builtin
    ∃ p ∈ e.compileEach "me" (Outline.ofScript script).blocks ⟨[], 0⟩, ∃ x ∈ p.2.exercises,
      x.content = ⟨.categorize ⟨[], ["cat", "dog"], ["oak"], some "Pets"⟩, some "lake"⟩ ∧
        x.Integral e.kinds script p.1 := by
  intro script e
  let lines : List SourceLine := [⟨5, "= cat | dog", ⟨54, 65⟩⟩, ⟨6, "oak", ⟨66, 69⟩⟩]
  let block : Block := ⟨0, 1, 7, ⟨0, 71⟩, script, ⟨2, "type: categorize", ⟨2, 18⟩⟩ ::
    ⟨3, "variation: lake", ⟨19, 34⟩⟩ :: ⟨4, "instructions: Pets", ⟨35, 53⟩⟩ :: lines⟩
  have hblocks : (Outline.ofScript script).blocks = [block] := by decide +kernel
  have hsections : (Sections.ofBlock block).content = lines := by decide +kernel
  have hkind : (headerOf block).metadata.kind = some "categorize" := by decide +kernel
  have hinstructions : (headerOf block).metadata.instructions = some "Pets" := by decide +kernel
  have hvariation : (headerOf block).config.variation = some "lake" := by decide +kernel
  -- The lines of the content hold no calls, and the variation reads them as they stand.
  have hmaterial : e.materialOf block ⟨[], 0⟩ =
      (.ok { lines := lines.map SourceLine.asContent }, ⟨[], 0⟩) := by
    rw [materialOf, hsections, Context.material,
      Context.readLines_of_isContent _ (by decide +kernel) (by decide +kernel)]
    rfl
  have hread : Categorize.InLake.parse (lines.map SourceLine.asContent) =
      ⟨[], ["cat", "dog"], ["oak"], none⟩ := by decide +kernel
  obtain ⟨k, -, hk, htag, hvariations, hnames⟩ :=
    KindRegistry.exists_builtin Kind.categorize (by simp [Kind.builtin])
  obtain ⟨v, hv, hname, hparse⟩ : ∃ v ∈ k.variations, v.name = "lake" ∧ ∀ lines,
      k.readAs (some v) lines = .ok (.categorize (Categorize.InLake.parse lines)) := by
    rw [hvariations]
    exact ⟨_, List.mem_cons_of_mem _ (List.mem_cons_of_mem _ List.mem_cons_self), rfl,
      fun _ => rfl⟩
  have hreads : e.Reads block (lines.map SourceLine.asContent) k
      ⟨.categorize ⟨[], ["cat", "dog"], ["oak"], none⟩, some "lake"⟩ := by
    constructor
    · have hown : e.kindOf block = some k := by
        rw [kindOf, declaredKind, hkind]
        dsimp only
        rw [kinds_withWords, show KindRegistry.builtin.get? "categorize" = some k from hk]
      rw [hown, Option.some_or]
    · rw [kinds_withWords, htag, hvariation, ← hname, KindRegistry.parse_eq_ok_iff hk]
      refine ⟨some v, KindRegistry.chooseVariation_name hnames hv, ?_, rfl⟩
      rw [hparse, hread]
  obtain ⟨x, hx, -, hcontent⟩ := exercises_compileBlock hmaterial (by simp [lines]) hreads "me"
  generalize hcompiled : (e.compileBlock "me" block ⟨[], 0⟩).1 = own at hx
  have hp : (block, own) ∈ e.compileEach "me" (Outline.ofScript script).blocks ⟨[], 0⟩ := by
    rw [hblocks, compileEach_cons, hcompiled]
    exact List.mem_cons_self
  have hmem : x ∈ own.exercises := by
    rw [hx]
    exact List.mem_singleton_self x
  have hinherited : x.content =
      ⟨.categorize ⟨[], ["cat", "dog"], ["oak"], some "Pets"⟩, some "lake"⟩ := by
    rw [hcontent, hinstructions]
    rfl
  obtain ⟨-, -, hintegral⟩ := compile_integral (σ := Draws) .builtin script "me" ⟨[], 0⟩
  exact ⟨(block, own), hp, x, hmem, hinherited, hintegral (block, own) hp x hmem⟩

end Engine

end Worksheet
