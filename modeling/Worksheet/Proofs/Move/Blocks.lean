import Worksheet.Proofs.Engine.Blocks
import Worksheet.Proofs.Move.Diagnostics
import Worksheet.Proofs.Move.Kinds
import Worksheet.Proofs.Move.Material

namespace Worksheet

/-- A block of another script that says the same in other places. -/
structure Block.Counterpart (r : Relocation) (b c : Block) : Prop where
  index : c.index = r.block b.index
  startLine : c.startLine = r.line b.startLine
  span : c.span = b.span.relocate r
  lineSpan : ∀ number, c.lineSpan (r.line number) = (b.lineSpan number).relocate r
  metadata : (Sections.ofBlock c).metadata = (Sections.ofBlock b).metadata
  config : (Sections.ofBlock c).config = (Sections.ofBlock b).config
  material : ∀ {σ : Type} (ctx : Context σ) (random : σ),
    ctx.material (Sections.ofBlock c).content random =
      (((ctx.material (Sections.ofBlock b).content random).1.map (Material.relocate r)).mapError
          (LineError.relocate r),
        (ctx.material (Sections.ofBlock b).content random).2)

theorem Block.counterpart_relocate (r : Relocation) (b : Block) :
    Counterpart r b (b.relocate r) := by
  have hsections := Sections.ofBlock_relocate r b
  constructor
  · rfl
  · rfl
  · rfl
  · exact lineSpan_relocate r b
  · rw [hsections]
    rfl
  · rw [hsections]
    rfl
  · intro σ ctx random
    rw [hsections]
    exact ctx.material_relocate r _ random

/-- The exercise as it is called in a block of another index. A title in the metadata stays. -/
def Exercise.renumber (metadata : Metadata) (displayName : String) (index : Nat) (x : Exercise) :
    Exercise :=
  if (Exercise.unlessBlank metadata.title).isSome then x
  else { x with title := Exercise.defaultTitle displayName index }

@[simp] theorem Exercise.script_renumber (metadata : Metadata) (displayName : String) (index : Nat)
    (x : Exercise) : (x.renumber metadata displayName index).script = x.script := by
  rw [renumber]
  split <;> rfl

/-- The exercise with the text of another block. -/
def Exercise.withScript (text : String) (x : Exercise) : Exercise :=
  { x with script := text }

theorem Exercise.withScript_self {x : Exercise} {text : String} (h : x.script = text) :
    x.withScript text = x := by
  subst h
  rfl

@[simp] theorem Exercise.withScript_withScript (x : Exercise) (text other : String) :
    (x.withScript text).withScript other = x.withScript other := rfl

theorem Exercise.assemble_counterpart {r : Relocation} {b c : Block} (h : b.Counterpart r c)
    (kind : Kind) (author : String) (metadata : Metadata) (config : Config) (material : Material)
    (content : Content) (validation : Validation) :
    assemble kind c author metadata config (material.relocate r) content validation =
      ((assemble kind b author metadata config material content validation).renumber metadata
        kind.displayName (r.block b.index)).withScript c.text := by
  have hmarkers : (material.relocate r).markers = material.markers := by
    rw [Material.markers, Material.markers, Material.relocate, List.flatMap_map]
    rfl
  rw [renumber, assemble, assemble, hmarkers, h.index]
  cases unlessBlank metadata.title <;> rfl

namespace Engine

variable {σ : Type}

/-- The name of a kind for people to read. -/
def displayName (e : Engine σ) (kind : String) : String :=
  ((e.kinds.get? kind).map (·.displayName)).getD ""

/-- The exercise of a block as it is called where the block comes to stand. -/
def retitle (e : Engine σ) (r : Relocation) (block : Block) (x : Exercise) : Exercise :=
  x.renumber (headerOf block).metadata (e.displayName x.kind) (r.block block.index)

/-- The exercise of a block as it is called in a script that goes on with the block. -/
def renumber (e : Engine σ) (o : Origin) (block : Block) (x : Exercise) : Exercise :=
  e.retitle (.ofOrigin o) block x

/-- What an outcome becomes for a block in another place that has the given text. -/
structure Moved (e : Engine σ) (r : Relocation) (block : Block) (text : String)
    (own moved : Outcome) : Prop where
  exercises : moved.exercises =
    own.exercises.map fun x => (e.retitle r block x).withScript text
  diagnostics : moved.diagnostics = own.diagnostics.map (Diagnostic.relocate r)

variable {e : Engine σ} {r : Relocation} {b c : Block} {text : String}

theorem moved_report {own moved : List Diagnostic} (h : moved = own.map (Diagnostic.relocate r)) :
    Moved e r b text (.report own) (.report moved) := by
  constructor
  · rw [Outcome.exercises_report, Outcome.exercises_report]
    rfl
  · rw [Outcome.diagnostics_report, Outcome.diagnostics_report, h]

theorem Moved.append {own moved own' moved' : Outcome} (h : Moved e r b text own moved)
    (h' : Moved e r b text own' moved') : Moved e r b text (own ++ own') (moved ++ moved') := by
  constructor
  · rw [Outcome.exercises_append, Outcome.exercises_append, h.exercises, h'.exercises,
      List.map_append]
  · rw [Outcome.diagnostics_append, Outcome.diagnostics_append, h.diagnostics, h'.diagnostics,
      List.map_append]

section Counterpart

variable (h : b.Counterpart r c)

include h

theorem aboutLine_counterpart (line : Nat) (span : Span) (message : String) :
    aboutLine c (r.line line) (span.relocate r) message =
      (aboutLine b line span message).relocate r := by
  rw [aboutLine, h.index]
  rfl

theorem aboutBlock_counterpart (severity : Severity) (message : String) :
    aboutBlock c severity message = (aboutBlock b severity message).relocate r := by
  rw [aboutBlock, h.index, h.startLine, h.span]
  rfl

theorem map_aboutBlock_counterpart (severity : Severity) (messages : List String) :
    messages.map (aboutBlock c severity) =
      (messages.map (aboutBlock b severity)).map (Diagnostic.relocate r) := by
  rw [List.map_map]
  exact List.map_congr_left fun message _ => aboutBlock_counterpart h severity message

theorem contentError_counterpart {error : ContentError}
    (hpos : ∀ number fault, error = .line number fault → 0 < number) :
    contentError c (error.relocate r) = (contentError b error).relocate r := by
  cases error with
  | line number fault =>
    have hnumber := hpos number fault rfl
    rw [ContentError.relocate, contentError, contentError, if_pos hnumber,
      if_pos (r.line_pos hnumber), h.lineSpan, aboutLine_counterpart h]
  | _ => exact aboutBlock_counterpart h .error _

theorem headerOf_counterpart : headerOf c = headerOf b := by
  rw [headerOf, readHeader, h.metadata, h.config]
  rfl

theorem kindOf_counterpart (e : Engine σ) : e.kindOf c = e.kindOf b := by
  rw [kindOf, headerOf_counterpart h, kindOf]

theorem fieldWarnings_counterpart (e : Engine σ) :
    e.fieldWarnings c = (e.fieldWarnings b).map (Diagnostic.relocate r) := by
  rw [fieldWarnings, headerOf_counterpart h, map_aboutBlock_counterpart h, fieldWarnings]

theorem materialOf_counterpart (e : Engine σ) (random : σ) : e.materialOf c random =
    (((e.materialOf b random).1.map (Material.relocate r)).mapError (LineError.relocate r),
      (e.materialOf b random).2) :=
  h.material (e.functions.context e.words) random

end Counterpart

/-- An engine whose kinds are found by their tags and ignore places. -/
structure IgnoresPlaces (e : Engine σ) : Prop where
  found : e.kinds.FoundByTag
  kinds : e.kinds.IgnoresPlaces

namespace IgnoresPlaces

variable (he : e.IgnoresPlaces) (author : String)

include he

theorem finish_counterpart (h : b.Counterpart r c) {declared : Option Kind}
    (hdeclared : ∀ k, declared = some k → k ∈ e.kinds.kinds) {material : Material}
    (hlines : ∀ l ∈ material.lines, 0 < l.line) :
    Moved e r b c.text (e.finish author b (headerOf b) declared material)
      (e.finish author c (headerOf b) declared (material.relocate r)) := by
  have hmaterial : (material.relocate r).lines = material.lines.map (ContentLine.relocate r) := rfl
  have hempty : (material.relocate r).lines.isEmpty = material.lines.isEmpty := List.isEmpty_map
  have hdetect : e.kinds.detect? (material.relocate r).lines = e.kinds.detect? material.lines :=
    he.kinds.detect? r material.lines
  rw [finish, finish, hempty, hdetect]
  split
  · exact moved_report (map_aboutBlock_counterpart h .error [_])
  · cases hkind : declared.or (e.kinds.detect? material.lines) with
    | none => exact moved_report (map_aboutBlock_counterpart h .error [_])
    | some kind =>
      have hmem : kind ∈ e.kinds.kinds := by
        rcases Option.or_eq_some_iff.1 hkind with h | ⟨-, h⟩
        · exact hdeclared kind h
        · exact KindRegistry.mem_of_detect? h
      have hread := he.kinds.parse_readsAnywhere kind.tag (headerOf b).config.variation
      have hparse := hread r material.lines
      dsimp only at hparse ⊢
      rw [hmaterial, hparse]
      cases hp : e.kinds.parse kind.tag material.lines (headerOf b).config.variation with
      | error err =>
        refine moved_report ?_
        rw [contentError_counterpart h]
        · rfl
        · intro number fault herr
          rw [herr] at hp
          exact hread.line_pos hlines hp
      | ok parsed =>
        dsimp only [Except.mapError]
        have hname : e.displayName kind.tag = kind.displayName := by
          rw [displayName, he.found kind hmem]
          rfl
        constructor
        · dsimp only
          rw [Exercise.assemble_counterpart h, ← hname]
          rfl
        · dsimp only
          rw [Outcome.diagnostics_report, Outcome.diagnostics_report, List.map_append,
            map_aboutBlock_counterpart h, map_aboutBlock_counterpart h]

/-- A block in another place comes to the same, moved, and leaves the random source in the same
state. -/
theorem compileBlock_counterpart (h : b.Counterpart r c) (hlines : ∀ l ∈ b.lines, 0 < l.number)
    (random : σ) : Moved e r b c.text (e.compileBlock author b random).1
        (e.compileBlock author c random).1 ∧
      (e.compileBlock author c random).2 = (e.compileBlock author b random).2 := by
  have hmoved := materialOf_counterpart h e random
  cases hm : e.materialOf b random with
  | mk result next =>
    rw [hm] at hmoved
    cases result with
    | error err =>
      rw [compileBlock_of_error hm, compileBlock_of_error hmoved, fieldWarnings_counterpart h]
      have habout := aboutLine_counterpart h err.line err.span err.error.message
      exact ⟨(moved_report rfl).append (moved_report (congrArg (fun d => [d]) habout)), rfl⟩
    | ok material =>
      have hpos : ∀ l ∈ material.lines, 0 < l.line :=
        Context.line_pos_of_material (e.functions.context e.words)
          (Sections.number_pos_of_content hlines) (congrArg Prod.fst hm)
      rw [compileBlock_of_ok hm, compileBlock_of_ok hmoved, fieldWarnings_counterpart h,
        kindOf_counterpart h, headerOf_counterpart h]
      exact ⟨(moved_report rfl).append
        (he.finish_counterpart author h (fun _ => mem_of_declaredKind) hpos), rfl⟩

/-- An exercise has the title and the script of its block. -/
theorem retitle_of_mem (hlines : ∀ l ∈ b.lines, 0 < l.number) {random : σ} {x : Exercise}
    (hx : x ∈ (e.compileBlock author b random).1.exercises) :
    (e.retitle .none b x).withScript b.text = x := by
  have hrelocate : b.relocate .none = b := by
    have hown : SourceLine.relocate .none = id := rfl
    rw [Block.relocate, hown, List.map_id]
    rfl
  have hself : b.Counterpart .none b := by
    have h := Block.counterpart_relocate .none b
    rwa [hrelocate] at h
  have hexercises := (he.compileBlock_counterpart author hself hlines random).1.exercises
  rw [← List.map_id (e.compileBlock author b random).1.exercises] at hexercises
  simp only [List.map_map] at hexercises
  exact (List.map_inj_left.1 hexercises x hx).symm

end IgnoresPlaces

end Engine

end Worksheet
