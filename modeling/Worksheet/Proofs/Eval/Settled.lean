import Worksheet.Proofs.Eval.Builtin
import Worksheet.Proofs.Eval.Plain
import Worksheet.Proofs.Marker.Settled

namespace Worksheet

open Marker (Settled)

namespace Context

variable {σ : Type} (ctx : Context σ)

/-- What a line of content comes to when its calls are evaluated. -/
def resolved? (l : SourceLine) (w : World σ) : Option String :=
  if isContent l.text then ((ctx.resolve (Text.trim l.text)).run.run w).1.toOption else none

/-- What the lines of content come to, one after the other. -/
def resolved : List SourceLine → World σ → List String
  | [], _ => []
  | l :: rest, w => (ctx.resolved? l w).toList ++ resolved rest ((ctx.readLine l).run.run w).2

variable {w w' : World σ}

/-- What a line of content adds is what its evaluated text is without decorators. -/
theorem content?_of_readContent {number : Nat} {trimmed : String} {effect : LineEffect}
    (h : (ctx.readContent number trimmed).run.run w = (.ok effect, w')) :
    ∃ text rest markers, (ctx.resolve trimmed).run.run w = (.ok text, w') ∧
      Marker.extract text = .ok (rest, markers) ∧
      effect.content? = if (Text.trim rest).isEmpty && markers.isEmpty then none
        else some ⟨Text.trim rest, markers, number⟩ := by
  obtain ⟨text, between, hresolve, h⟩ := Eval.run_bind_eq_ok.1 h
  obtain ⟨⟨rest, markers⟩, after, hextract, h⟩ := Eval.run_bind_eq_ok.1 h
  cases he : Marker.extract text with
  | error e =>
    rw [he] at hextract
    cases hextract
  | ok found =>
    rw [he] at hextract
    obtain ⟨rfl, rfl⟩ := Eval.run_pure_eq_ok.1 hextract
    refine ⟨text, rest, markers, ?_⟩
    dsimp only at h
    by_cases hnothing : ((Text.trim rest).isEmpty && markers.isEmpty) = true
    · rw [if_pos hnothing] at h
      obtain ⟨rfl, rfl⟩ := Eval.run_pure_eq_ok.1 h
      exact ⟨hresolve, he, (if_pos hnothing).symm⟩
    · rw [if_neg hnothing] at h
      obtain ⟨rfl, rfl⟩ := Eval.run_pure_eq_ok.1 h
      exact ⟨hresolve, he, (if_neg hnothing).symm⟩

/-- One line: no call begins in what it adds exactly if its evaluated text is settled. -/
theorem occursIn_of_readLine {l : SourceLine} {effect : LineEffect}
    (h : (ctx.readLine l).run.run w = (.ok effect, w')) :
    (∀ c ∈ effect.content?, Call.occursIn c.text = false) ↔ ∀ t ∈ ctx.resolved? l w, Settled t := by
  cases hcontent : isContent l.text with
  | false =>
    rw [content?_of_not_isContent ctx hcontent h, resolved?, hcontent]
    simp
  | true =>
    rw [readLine_eq_readContent ctx hcontent] at h
    obtain ⟨text, rest, markers, hresolve, hextract, hadded⟩ := content?_of_readContent ctx h
    have hsettled : Call.occursIn (Text.trim rest) = false ↔ Settled text := by
      rw [Call.occursIn_trim]
      exact Marker.occursIn_of_extract hextract
    rw [resolved?, hcontent, if_pos rfl, hresolve, hadded]
    split
    · -- Nothing is added: what is left of the line is empty.
      rename_i hnothing
      have hempty : Text.trim rest = "" := by
        simpa using (Bool.and_eq_true_iff.1 hnothing).1
      rw [hempty] at hsettled
      simpa [Except.toOption] using hsettled.1 rfl
    · simpa [Except.toOption] using hsettled

/-- All lines: no call begins in the content exactly if the evaluated texts are settled. -/
theorem occursIn_of_readLines {lines : List SourceLine} {found m : Material}
    (h : ctx.readLines found lines w = (.ok m, w')) :
    (∀ c ∈ m.lines, Call.occursIn c.text = false) ↔
      (∀ c ∈ found.lines, Call.occursIn c.text = false) ∧
        ∀ t ∈ ctx.resolved lines w, Settled t := by
  induction lines generalizing found w with
  | nil =>
    obtain ⟨hm, -⟩ := Prod.mk.inj h
    obtain rfl := Except.ok.inj hm
    simp [resolved]
  | cons l rest ih =>
    rw [readLines] at h
    cases hl : (ctx.readLine l).run.run w with
    | mk result between =>
      rw [hl] at h
      cases result with
      | error e => cases (Prod.mk.inj h).1
      | ok effect =>
        have hline := occursIn_of_readLine ctx hl
        simp only [Option.mem_def] at hline
        have hresolved : ctx.resolved (l :: rest) w =
            (ctx.resolved? l w).toList ++ ctx.resolved rest between := by
          rw [resolved, hl]
        rw [ih h, Material.lines_add, hresolved]
        simp only [List.mem_append, Option.mem_toList, or_imp, forall_and, hline, and_assoc]

/-- No call begins in the content of a block exactly if, whenever the calls of a line of content
have been evaluated, all calls of the text are decorators and no call begins in the texts around
them when these are put together. -/
theorem occursIn_of_material {lines : List SourceLine} {random after : σ} {m : Material}
    (h : ctx.material lines random = (.ok m, after)) :
    (∀ l ∈ m.lines, Call.occursIn l.text = false) ↔
      ∀ t ∈ ctx.resolved lines ⟨{}, random⟩, Settled t := by
  obtain ⟨hresult, -⟩ := Prod.mk.inj h
  have hread : ctx.readLines {} lines ⟨{}, random⟩ =
      (.ok m, (ctx.readLines {} lines ⟨{}, random⟩).2) := Prod.ext hresult rfl
  simpa using occursIn_of_readLines ctx hread

theorem exists_material {lines : List SourceLine} {random : σ} {content : List ContentLine}
    (h : (ctx.material lines random).1.toOption.map (·.lines) = some content) :
    ∃ m after, ctx.material lines random = (.ok m, after) ∧ m.lines = content := by
  cases hresult : ctx.material lines random with
  | mk result after =>
    rw [hresult] at h
    cases result with
    | error e => cases h
    | ok m => exact ⟨m, after, rfl, Option.some.inj h⟩

/-- A word from a variable as the text and as the text of a decorator, next to another decorator. -/
theorem occursIn_of_material_decorated :
    let ctx := (FunctionRegistry.builtin : FunctionRegistry Draws).context {}
    let lines : List SourceLine := [⟨1, "@var pet = cat", ⟨0, 14⟩⟩,
      ⟨2, "@img(a.png)The @var(pet) sat. @idea(\"A @var(pet), here\")", ⟨15, 70⟩⟩]
    ∃ m after, ctx.material lines ⟨[], 0⟩ = (.ok m, after) ∧
      m.lines = [⟨"The cat sat.", [⟨.image, "a.png"⟩, ⟨.idea, "A cat, here"⟩], 2⟩] ∧
      ∀ l ∈ m.lines, Call.occursIn l.text = false := by
  intro ctx lines
  have hcontent : (ctx.material lines ⟨[], 0⟩).1.toOption.map (·.lines) =
      some [⟨"The cat sat.", [⟨.image, "a.png"⟩, ⟨.idea, "A cat, here"⟩], 2⟩] := by decide +kernel
  obtain ⟨m, after, hmaterial, hlines⟩ := ctx.exists_material hcontent
  have hresolved : ctx.resolved lines ⟨{}, ⟨[], 0⟩⟩ =
      ["@img(a.png)The cat sat. @idea(\"A cat, here\")"] := by decide +kernel
  let s : Segmented Marker := ⟨[], [(⟨.image, "a.png"⟩, "The cat sat. ".toList),
    (⟨.idea, "A cat, here"⟩, [])]⟩
  have hapart : Marker.Apart s := ⟨by decide +kernel, by decide +kernel⟩
  have hline : String.ofList (s.render (·.toDecorator.toList)) =
      "@img(a.png)The cat sat. @idea(\"A cat, here\")" := by decide +kernel
  refine ⟨m, after, hmaterial, hlines, (occursIn_of_material ctx hmaterial).2 ?_⟩
  rw [hresolved, ← hline]
  simpa using hapart.settled

/-- Without the decorator the two texts around it come to a call, which nothing evaluates. -/
theorem exists_call_in_material :
    let ctx := (FunctionRegistry.builtin : FunctionRegistry Draws).context {}
    ∃ m after, ctx.material [⟨2, "@@idea(a)fill(animals)", ⟨2, 24⟩⟩] ⟨[], 0⟩ = (.ok m, after) ∧
      m.lines = [⟨"@fill(animals)", [⟨.idea, "a"⟩], 2⟩] ∧
      ¬ ∀ l ∈ m.lines, Call.occursIn l.text = false := by
  intro ctx
  have hcontent : (ctx.material [⟨2, "@@idea(a)fill(animals)", ⟨2, 24⟩⟩] ⟨[], 0⟩).1.toOption.map
      (·.lines) = some [⟨"@fill(animals)", [⟨.idea, "a"⟩], 2⟩] := by decide +kernel
  obtain ⟨m, after, hmaterial, hlines⟩ := ctx.exists_material hcontent
  refine ⟨m, after, hmaterial, hlines, ?_⟩
  rw [hlines]
  decide +kernel

end Context

end Worksheet
