import Worksheet.Proofs.Engine.Builtin
import Worksheet.Proofs.Move.Blocks

namespace Worksheet

namespace Outcome

/-- The diagnostics about no block. -/
def ofStructure (o : Outcome) : List Diagnostic :=
  o.diagnostics.filter (·.block.isNone)

/-- The diagnostics about blocks. -/
def ofBlocks (o : Outcome) : List Diagnostic :=
  o.diagnostics.filter (·.block.isSome)

/-- The outcome of a script that goes on is made of the outcomes of its two parts. What comes from
the second is moved, given what each of its blocks comes to by itself. -/
structure Joins (o : Origin) (renumber : Block → Exercise → Exercise)
    (each : List (Block × Outcome)) (first second whole : Outcome) : Prop where
  /-- The exercises of the second part are those of its blocks. -/
  own : second.exercises = each.flatMap (·.2.exercises)
  /-- The exercises of the first part stay, and those of the second are renumbered. -/
  exercises : whole.exercises =
    first.exercises ++ each.flatMap fun p => p.2.exercises.map (renumber p.1)
  /-- The warnings about both structures come before the diagnostics of all blocks. -/
  diagnostics : whole.diagnostics =
    first.ofStructure ++ second.ofStructure.map (Diagnostic.move o) ++ first.ofBlocks ++
      second.ofBlocks.map (Diagnostic.move o)
  errors : whole.errors = (whole.diagnostics.filter (·.isError)).map Diagnostic.render
  warnings : whole.warnings = (whole.diagnostics.filter (·.isWarning)).map Diagnostic.render

end Outcome

namespace Engine

section Each

variable {σ : Type} (e : Engine σ) (author : String)

theorem compileEach_append (xs ys : List Block) (random : σ) :
    e.compileEach author (xs ++ ys) random = e.compileEach author xs random ++
      e.compileEach author ys (e.compileBlocks author xs random).2 := by
  induction xs generalizing random with
  | nil => rfl
  | cons x xs ih =>
    rw [List.cons_append, compileEach_cons, ih, compileEach_cons, compileBlocks_cons,
      List.cons_append]

theorem compileBlocks_append_snd (xs ys : List Block) (random : σ) :
    (e.compileBlocks author (xs ++ ys) random).2 =
      (e.compileBlocks author ys (e.compileBlocks author xs random).2).2 := by
  induction xs generalizing random with
  | nil => rfl
  | cons x xs ih => rw [List.cons_append, compileBlocks_cons, ih, compileBlocks_cons]

theorem compile_snd (script : String) (random : σ) :
    (e.compile script author random).2 =
      (e.compileBlocks author (Outline.ofScript script).blocks random).2 := by
  rw [compile]

variable {e}

/-- Blocks that say the same in other places come to the same, moved. -/
theorem IgnoresPlaces.compileEach_counterpart (he : e.IgnoresPlaces) {r : Relocation}
    {other : Block → Block} {blocks : List Block}
    (hother : ∀ block ∈ blocks, block.Counterpart r (other block))
    (hlines : ∀ block ∈ blocks, ∀ l ∈ block.lines, 0 < l.number) (random : σ) :
    (e.compileEach author (blocks.map other) random).flatMap (·.2.exercises) =
        (e.compileEach author blocks random).flatMap (fun p => p.2.exercises.map fun x =>
          (e.retitle r p.1 x).withScript (other p.1).text) ∧
      (e.compileEach author (blocks.map other) random).flatMap (·.2.diagnostics) =
        ((e.compileEach author blocks random).flatMap (·.2.diagnostics)).map
          (Diagnostic.relocate r) ∧
      (e.compileBlocks author (blocks.map other) random).2 =
        (e.compileBlocks author blocks random).2 := by
  induction blocks generalizing random with
  | nil => exact ⟨rfl, rfl, rfl⟩
  | cons block rest ih =>
    obtain ⟨hown, hnext⟩ := he.compileBlock_counterpart author (hother block (by simp))
      (hlines block (by simp)) random
    obtain ⟨hexercises, hdiagnostics, hstate⟩ := ih (fun b hb => hother b (by simp [hb]))
      (fun b hb => hlines b (by simp [hb])) (e.compileBlock author block random).2
    rw [List.map_cons, compileEach_cons, compileEach_cons, compileBlocks_cons, compileBlocks_cons,
      hnext]
    refine ⟨?_, ?_, hstate⟩
    · rw [List.flatMap_cons, List.flatMap_cons, hexercises, hown.exercises]
    · rw [List.flatMap_cons, List.flatMap_cons, List.map_append, hdiagnostics, hown.diagnostics]

/-- The exercises of each block have its title and its script. -/
theorem IgnoresPlaces.retitle_of_mem_compileEach (he : e.IgnoresPlaces) {blocks : List Block}
    (hlines : ∀ block ∈ blocks, ∀ l ∈ block.lines, 0 < l.number) {random : σ}
    {p : Block × Outcome} (hp : p ∈ e.compileEach author blocks random) {x : Exercise}
    (hx : x ∈ p.2.exercises) : (e.retitle .none p.1 x).withScript p.1.text = x := by
  have hblock : p.1 ∈ blocks := by
    rw [← map_fst_compileEach e author blocks random]
    exact List.mem_map_of_mem hp
  obtain ⟨before, hown⟩ := e.of_mem_compileEach author
    (P := fun block own => ∃ before, own = (e.compileBlock author block before).1)
    (fun block before => ⟨before, rfl⟩) hp
  rw [hown] at hx
  exact he.retitle_of_mem author (hlines p.1 hblock) hx

/-- Blocks of a script that goes on with them come to the same, moved. -/
theorem IgnoresPlaces.compileEach_move (he : e.IgnoresPlaces) (o : Origin) (blocks : List Block)
    (hlines : ∀ block ∈ blocks, ∀ l ∈ block.lines, 0 < l.number) (random : σ) :
    (e.compileEach author (blocks.map (Block.move o)) random).flatMap (·.2.exercises) =
        (e.compileEach author blocks random).flatMap
          (fun p => p.2.exercises.map (e.renumber o p.1)) ∧
      (e.compileEach author (blocks.map (Block.move o)) random).flatMap (·.2.diagnostics) =
        ((e.compileEach author blocks random).flatMap (·.2.diagnostics)).map (Diagnostic.move o) ∧
      (e.compileBlocks author (blocks.map (Block.move o)) random).2 =
        (e.compileBlocks author blocks random).2 := by
  obtain ⟨hexercises, hdiagnostics, hstate⟩ := he.compileEach_counterpart author
    (fun block _ => Block.counterpart_relocate (.ofOrigin o) block) hlines random
  refine ⟨hexercises.trans ?_, hdiagnostics, hstate⟩
  refine List.flatMap_congr fun p hp => List.map_congr_left fun x hx => ?_
  have hscript : p.1.text = x.script :=
    congrArg Exercise.script (he.retitle_of_mem_compileEach author hlines hp hx)
  refine Exercise.withScript_self ?_
  rw [retitle, Exercise.script_renumber, ← hscript]
  rfl

variable (e)

theorem isSome_block_of_mem {blocks : List Block} {random : σ} {d : Diagnostic}
    (hd : d ∈ (e.compileEach author blocks random).flatMap (·.2.diagnostics)) :
    d.block.isSome = true := by
  obtain ⟨p, hp, hdp⟩ := List.mem_flatMap.1 hd
  have habout : p.2.About p.1 :=
    e.of_mem_compileEach author (P := fun block own => own.About block)
      (e.compileBlock_about author) hp
  rw [habout d hdp]
  rfl

theorem ofStructure_compile (script : String) (random : σ) :
    (e.compile script author random).1.ofStructure =
      (Outline.ofScript script).warnings.map (aboutStructure script) := by
  rw [Outcome.ofStructure, diagnostics_compile, List.filter_append, List.filter_eq_self.2,
    List.filter_eq_nil_iff.2, List.append_nil]
  · intro d hd
    rw [← Option.not_isSome, isSome_block_of_mem e author hd]
    simp
  · intro d hd
    obtain ⟨w, -, rfl⟩ := List.mem_map.1 hd
    rfl

theorem ofBlocks_compile (script : String) (random : σ) :
    (e.compile script author random).1.ofBlocks =
      (e.compileEach author (Outline.ofScript script).blocks random).flatMap
        (·.2.diagnostics) := by
  rw [Outcome.ofBlocks, diagnostics_compile, List.filter_append, List.filter_eq_nil_iff.2,
    List.filter_eq_self.2, List.nil_append]
  · intro d hd
    exact isSome_block_of_mem e author hd
  · intro d hd
    obtain ⟨w, -, rfl⟩ := List.mem_map.1 hd
    simp [aboutStructure]

theorem map_aboutStructure_append {a : String} (h : Outline.EndsClean a) (b : String) :
    (Outline.ofScript (a ++ "\n" ++ b)).warnings.map (aboutStructure (a ++ "\n" ++ b)) =
      (Outline.ofScript a).warnings.map (aboutStructure a) ++
        ((Outline.ofScript b).warnings.map (aboutStructure b)).map
          (Diagnostic.move (.after a)) := by
  rw [Outline.warnings_append h, List.map_append, List.map_map, List.map_map]
  congr 1
  · exact List.map_congr_left fun w hw =>
      aboutStructure_append (Outline.liesIn_of_mem_warnings hw) b
  · exact List.map_congr_left fun w hw =>
      aboutStructure_move a (Outline.liesIn_of_mem_warnings hw)

variable {e}

theorem IgnoresPlaces.compile_append_snd (he : e.IgnoresPlaces) {a : String}
    (h : Outline.EndsClean a) (b : String) (random : σ) :
    (e.compile (a ++ "\n" ++ b) author random).2 =
      (e.compile b author (e.compile a author random).2).2 := by
  obtain ⟨-, -, hnext⟩ := he.compileEach_move author (.after a)
    (Outline.ofScript b).blocks (fun _ hblock => Outline.number_pos hblock)
      (e.compile a author random).2
  rw [compile_snd, Outline.blocks_append h, compileBlocks_append_snd, ← compile_snd, hnext,
    ← compile_snd]

theorem IgnoresPlaces.compile_joins (he : e.IgnoresPlaces) {a : String}
    (h : Outline.EndsClean a) (b : String) (random : σ) :
    Outcome.Joins (.after a) (e.renumber (.after a))
      (e.compileEach author (Outline.ofScript b).blocks (e.compile a author random).2)
      (e.compile a author random).1 (e.compile b author (e.compile a author random).2).1
      (e.compile (a ++ "\n" ++ b) author random).1 := by
  obtain ⟨hexercises, hdiagnostics, -⟩ := he.compileEach_move author (.after a)
    (Outline.ofScript b).blocks (fun _ hblock => Outline.number_pos hblock)
      (e.compile a author random).2
  have heach : e.compileEach author (Outline.ofScript (a ++ "\n" ++ b)).blocks random =
      e.compileEach author (Outline.ofScript a).blocks random ++
        e.compileEach author ((Outline.ofScript b).blocks.map (Block.move (.after a)))
          (e.compile a author random).2 := by
    rw [Outline.blocks_append h, compileEach_append, compile_snd]
  have hrendered := e.compile_rendered author (a ++ "\n" ++ b) random
  refine ⟨e.exercises_compile author b _, ?_, ?_, hrendered.errors, hrendered.warnings⟩
  · rw [exercises_compile, heach, List.flatMap_append, hexercises, ← exercises_compile]
  · rw [diagnostics_compile, heach, List.flatMap_append, hdiagnostics,
      map_aboutStructure_append h, ofStructure_compile, ofStructure_compile, ofBlocks_compile,
      ofBlocks_compile, List.append_assoc _ _ (List.map _ _)]

end Each

variable {σ : Type} [RandomSource σ]

theorem withWords_ignoresPlaces (words : WordLibrary) :
    (withWords words : Engine σ).IgnoresPlaces := by
  constructor
  · rw [kinds_withWords]
    exact KindRegistry.foundByTag_builtin
  · rw [kinds_withWords]
    exact KindRegistry.builtin_ignoresPlaces

/-- A script that goes on after a clean end comes to what its two parts come to, the second compiled
with the random source as the first has left it. -/
theorem compile_append (words : WordLibrary) {a : String} (h : Outline.EndsClean a)
    (b author : String) (random : σ) :
    let e : Engine σ := withWords words
    let first := e.compile a author random
    let second := e.compile b author first.2
    let whole := e.compile (a ++ "\n" ++ b) author random
    whole.2 = second.2 ∧
      Outcome.Joins (.after a) (e.renumber (.after a))
        (e.compileEach author (Outline.ofScript b).blocks first.2) first.1 second.1 whole.1 := by
  intro e first second whole
  have hplaces : e.IgnoresPlaces := withWords_ignoresPlaces words
  exact ⟨hplaces.compile_append_snd author h b random, hplaces.compile_joins author h b random⟩

/-- The script of one block ends clean, and another block may come after it. -/
theorem compile_append_block :
    Outline.EndsClean "\x7b\nA *cat* sat.\n\x7d" ∧
      let e : Engine Draws := withWords .builtin
      let first := e.compile "\x7b\nA *cat* sat.\n\x7d" "me" ⟨[2, 3], 0⟩
      let second := e.compile "\x7b\nA *dog* ran.\n\x7d" "me" first.2
      let whole := e.compile ("\x7b\nA *cat* sat.\n\x7d" ++ "\n" ++ "\x7b\nA *dog* ran.\n\x7d") "me"
        ⟨[2, 3], 0⟩
      whole.2 = second.2 ∧
        Outcome.Joins (.after "\x7b\nA *cat* sat.\n\x7d")
          (e.renumber (.after "\x7b\nA *cat* sat.\n\x7d"))
          (e.compileEach "me" (Outline.ofScript "\x7b\nA *dog* ran.\n\x7d").blocks first.2)
          first.1 second.1 whole.1 := by
  have h : Outline.EndsClean "\x7b\nA *cat* sat.\n\x7d" := rfl
  have hjoins := compile_append (σ := Draws) .builtin h "\x7b\nA *dog* ran.\n\x7d" "me" ⟨[2, 3], 0⟩
  exact ⟨h, hjoins⟩

end Engine

end Worksheet
