import Worksheet.Proofs.Block.Index
import Worksheet.Proofs.Engine.Blocks
import Worksheet.Proofs.Engine.Builtin
import Worksheet.Proofs.Kind.Checks

namespace Worksheet

/-- What a block comes to if it is accounted for: no exercise and one error, or one exercise and its
errors. -/
def Outcome.AccountsFor (own : Outcome) : Prop :=
  (own.exercises = [] ∧ ∃ d, own.diagnostics.filter (·.isError) = [d]) ∨
    ∃ x, own.exercises = [x] ∧ x.validation.Consistent ∧
      (own.diagnostics.filter (·.isError)).map (·.message) = x.validation.errors

namespace Engine

theorem filter_isError_warnings (block : Block) (messages : List String) :
    (messages.map (aboutBlock block .warning)).filter (·.isError) = [] := by
  rw [List.filter_eq_nil_iff]
  intro d hd
  obtain ⟨message, -, rfl⟩ := List.mem_map.1 hd
  simp [Diagnostic.isError, Diagnostic.isWarning, aboutBlock]

theorem filter_isError_errors (block : Block) (messages : List String) :
    (messages.map (aboutBlock block .error)).filter (·.isError) =
      messages.map (aboutBlock block .error) := by
  rw [List.filter_eq_self]
  intro d hd
  obtain ⟨message, -, rfl⟩ := List.mem_map.1 hd
  rfl

end Engine

namespace Outcome

/-- Warnings about the block do not change what it yields. -/
theorem AccountsFor.warn {own : Outcome} (h : own.AccountsFor) (block : Block)
    (messages : List String) :
    (report (messages.map (Engine.aboutBlock block .warning)) ++ own).AccountsFor := by
  rw [AccountsFor, diagnostics_append, diagnostics_report, List.filter_append,
    Engine.filter_isError_warnings, List.nil_append, exercises_append, exercises_report,
    List.nil_append]
  exact h

/-- A block may be dropped with one error. -/
theorem accountsFor_error {d : Diagnostic} (hd : d.isError = true) :
    (report [d]).AccountsFor :=
  Or.inl ⟨exercises_report _, d, by rw [diagnostics_report]; simp [hd]⟩

/-- A block may yield an exercise with all errors and warnings of its check. -/
theorem accountsFor_exercise (block : Block) {x : Exercise} (h : x.validation.Consistent) :
    AccountsFor { report (x.validation.errors.map (Engine.aboutBlock block .error) ++
      x.validation.warnings.map (Engine.aboutBlock block .warning)) with exercises := [x] } := by
  refine Or.inr ⟨x, rfl, h, ?_⟩
  dsimp only
  rw [diagnostics_report, List.filter_append, Engine.filter_isError_errors,
    Engine.filter_isError_warnings, List.append_nil, List.map_map]
  exact List.map_id' _

end Outcome

namespace Engine

variable {σ : Type}

theorem isError_contentError (block : Block) (error : ContentError) :
    (contentError block error).isError = true := by
  rw [contentError.eq_def]
  split
  · split <;> rfl
  · rfl

/-- If the kinds check consistently, every way to finish a block accounts for it. -/
theorem finish_accountsFor {e : Engine σ}
    (h : ∀ tag c, (e.kinds.validate tag c).Consistent) (author : String) (block : Block)
    (header : Header) (declared : Option Kind) (material : Material) :
    (e.finish author block header declared material).AccountsFor := by
  rw [finish]
  split
  · exact Outcome.accountsFor_error rfl
  · split
    · exact Outcome.accountsFor_error rfl
    · split
      · exact Outcome.accountsFor_error (isError_contentError block _)
      · rename_i kind _ _ parsed _
        exact Outcome.accountsFor_exercise block (x := Exercise.assemble kind block author
          header.metadata header.config material
            (parsed.inheritInstructions header.metadata.instructions) _) (h _ _)

theorem compileBlock_accountsFor {e : Engine σ}
    (h : ∀ tag c, (e.kinds.validate tag c).Consistent) (author : String) (block : Block)
    (random : σ) : (e.compileBlock author block random).1.AccountsFor := by
  cases hm : e.materialOf block random with
  | mk result next =>
    cases result with
    | error err =>
      rw [compileBlock_of_error hm]
      exact (Outcome.accountsFor_error rfl).warn block _
    | ok material =>
      rw [compileBlock_of_ok hm]
      exact (finish_accountsFor h author block _ _ material).warn block _

/-- Among the diagnostics of blocks with different indices, those of one block are its own. -/
theorem filter_isErrorOf_flatMap {each : List (Block × Outcome)}
    (hindex : (each.map (·.1.index)).Nodup) (h : ∀ p ∈ each, p.2.About p.1)
    {p : Block × Outcome} (hp : p ∈ each) :
    (each.flatMap (·.2.diagnostics)).filter (Diagnostic.isErrorOf p.1.index) =
      p.2.diagnostics.filter (·.isError) := by
  have hsame : ∀ q : Block × Outcome, q.2.About q.1 →
      q.2.diagnostics.filter (Diagnostic.isErrorOf q.1.index) =
        q.2.diagnostics.filter (·.isError) := by
    intro q hq
    refine List.filter_congr fun d hd => ?_
    simp [Diagnostic.isErrorOf, hq d hd]
  have hother : ∀ q : Block × Outcome, q.2.About q.1 → ∀ index ≠ q.1.index,
      q.2.diagnostics.filter (Diagnostic.isErrorOf index) = [] := by
    intro q hq index hne
    refine List.filter_eq_nil_iff.2 fun d hd => ?_
    simp [Diagnostic.isErrorOf, hq d hd, Ne.symm hne]
  induction each with
  | nil => cases hp
  | cons q rest ih =>
    rw [List.map_cons, List.nodup_cons] at hindex
    have hq := h q (by simp)
    have hrest : ∀ r ∈ rest, r.2.About r.1 := fun r hr => h r (by simp [hr])
    rw [List.flatMap_cons, List.filter_append]
    rw [List.mem_cons] at hp
    rcases hp with rfl | hp
    · have hnil :
          (rest.flatMap (·.2.diagnostics)).filter (Diagnostic.isErrorOf p.1.index) = [] := by
        rw [List.filter_flatMap, List.flatMap_eq_nil_iff]
        intro r hr
        refine hother r (hrest r hr) _ fun he => hindex.1 ?_
        rw [he]
        exact List.mem_map_of_mem (f := fun r : Block × Outcome => r.1.index) hr
      rw [hsame p hq, hnil, List.append_nil]
    · have hne : p.1.index ≠ q.1.index := by
        intro he
        apply hindex.1
        rw [← he]
        exact List.mem_map_of_mem (f := fun r : Block × Outcome => r.1.index) hp
      rw [hother q hq _ hne, List.nil_append, ih hindex.2 hrest hp]

end Engine

/-- If every exercise has its errors among the diagnostics, no errors means that all of them are
valid. -/
theorem Outcome.isClean_iff {o : Outcome} {each : List (Block × Outcome)} (hr : o.Rendered)
    (hx : o.exercises = each.flatMap (·.2.exercises)) (hown : ∀ p ∈ each, p.2.AccountsFor)
    (herrors : ∀ p ∈ each, o.errorsOf p.1.index = p.2.diagnostics.filter (·.isError)) :
    o.isClean = true ↔ ¬ o.hasErrors = true := by
  rw [isClean, Bool.and_eq_true, Bool.not_eq_true', Bool.not_eq_true]
  refine ⟨And.left, fun hnone => ⟨hnone, ?_⟩⟩
  have hfree : ∀ index, o.errorsOf index = [] := by
    intro index
    refine List.filter_eq_nil_iff.2 fun d hd he => ?_
    have hhas := hr.hasErrors_iff.2 ⟨d, hd, (Bool.and_eq_true _ _ ▸ he).1⟩
    rw [hnone] at hhas
    cases hhas
  rw [List.all_eq_true]
  intro x hmem
  rw [hx] at hmem
  obtain ⟨p, hp, hxp⟩ := List.mem_flatMap.1 hmem
  rcases hown p hp with ⟨hdropped, -⟩ | ⟨y, hy, hconsistent, hmessages⟩
  · rw [hdropped] at hxp
    cases hxp
  · rw [hy, List.mem_singleton] at hxp
    subst hxp
    rw [← herrors p hp, hfree] at hmessages
    rw [hconsistent, ← hmessages]
    rfl

/-- The books of an outcome that is made of what each of some blocks comes to by itself. -/
structure Outcome.Accounts (o : Outcome) (each : List (Block × Outcome)) : Prop where
  /-- The errors are the error diagnostics as they are shown, in their order. -/
  errors : o.errors = (o.diagnostics.filter (·.isError)).map Diagnostic.render
  /-- The warnings are the warning diagnostics as they are shown, in their order. -/
  warnings : o.warnings = (o.diagnostics.filter (·.isWarning)).map Diagnostic.render
  /-- The exercises are those of the blocks, in the order of the blocks. -/
  exercises : o.exercises = each.flatMap (·.2.exercises)
  /-- A block is dropped with one error, or it gives one exercise and the errors of its check. -/
  blocks : ∀ p ∈ each,
    (p.2.exercises = [] ∧ ∃ d, o.errorsOf p.1.index = [d]) ∨
      ∃ x, p.2.exercises = [x] ∧ (o.errorsOf p.1.index).map (·.message) = x.validation.errors
  /-- An outcome without errors is clean. -/
  clean : o.isClean = true ↔ ¬ o.hasErrors = true

namespace Engine

variable {σ : Type} [RandomSource σ]

/-- Compiling with the built-in functions and kinds keeps the books. -/
theorem compile_accounts (words : WordLibrary) (script author : String) (random : σ) :
    let e : Engine σ := withWords words
    let blocks := (Outline.ofScript script).blocks
    (e.compileEach author blocks random).map (·.1) = blocks ∧
      blocks.map (·.index) = List.range blocks.length ∧
      (e.compile script author random).1.Accounts (e.compileEach author blocks random) := by
  intro e blocks
  have hconsistent : ∀ tag c, (e.kinds.validate tag c).Consistent := by
    intro tag c
    rw [kinds_withWords]
    exact KindRegistry.validate_builtin_consistent tag c
  have hfst : (e.compileEach author blocks random).map (·.1) = blocks :=
    e.map_fst_compileEach author blocks random
  have hown : ∀ p ∈ e.compileEach author blocks random, p.2.AccountsFor := fun p hp =>
    e.of_mem_compileEach author (P := fun _ own => own.AccountsFor)
      (compileBlock_accountsFor hconsistent author) hp
  have habout : ∀ p ∈ e.compileEach author blocks random, p.2.About p.1 := fun p hp =>
    e.of_mem_compileEach author (P := fun block own => own.About block)
      (e.compileBlock_about author) hp
  have hindex : ((e.compileEach author blocks random).map (·.1.index)).Nodup := by
    have hmap := congrArg (List.map (·.index)) hfst
    rw [List.map_map] at hmap
    have hnodup := Outline.nodup_index_blocks script
    rw [← hmap] at hnodup
    exact hnodup
  have hrendered := e.compile_rendered author script random
  have hexercises := e.exercises_compile author script random
  have herrors : ∀ p ∈ e.compileEach author blocks random,
      (e.compile script author random).1.errorsOf p.1.index =
        p.2.diagnostics.filter (·.isError) := by
    intro p hp
    have hstructure : ((Outline.ofScript script).warnings.map (aboutStructure script)).filter
        (Diagnostic.isErrorOf p.1.index) = [] := by
      refine List.filter_eq_nil_iff.2 fun d hd => ?_
      obtain ⟨w, -, rfl⟩ := List.mem_map.1 hd
      simp [Diagnostic.isErrorOf, aboutStructure]
    rw [Outcome.errorsOf, diagnostics_compile, List.filter_append, hstructure, List.nil_append,
      filter_isErrorOf_flatMap hindex habout hp]
  refine ⟨hfst, Outline.map_index_blocks script, hrendered.errors, hrendered.warnings, hexercises,
    fun p hp => ?_, ?_⟩
  · rw [herrors p hp]
    rcases hown p hp with ⟨hx, hd⟩ | ⟨x, hx, -, hd⟩
    · exact Or.inl ⟨hx, hd⟩
    · exact Or.inr ⟨x, hx, hd⟩
  · exact Outcome.isClean_iff hrendered hexercises hown herrors

end Engine

end Worksheet
