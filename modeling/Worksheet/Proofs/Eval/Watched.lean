import Worksheet.Eval.Material
import Worksheet.Proofs.Eval.Builtin
import Worksheet.Proofs.Eval.Events

namespace Worksheet

variable {σ : Type}

namespace Watched

def note (event : Event σ) : Eval (Watched σ) Unit :=
  modify fun w => { w with random := { w.random with record := event :: w.random.record } }

def define (name : String) (value : Value) : Eval (Watched σ) Unit := do
  Eval.modifyTable (·.define name value)
  note (.defined name)

def defer (name : String) (call : Call) : Eval (Watched σ) Unit := do
  Eval.modifyTable (·.defer name call)
  note (.deferred name call)

/-- Reads a variable. A read that fails is no event. -/
def read (ctx : Context (Watched σ)) (name : String) : Eval (Watched σ) Value := do
  let before ← get
  let v ← ctx.read name
  let after ← get
  note (.returned ⟨name, before.plain, v, after.plain⟩)
  return v

/-- The function that reads a variable. -/
def varFunction [RandomSource σ] : ScriptFunction (Watched σ) :=
  { (Builtin.var : ScriptFunction (Watched σ)) with
    call := fun ctx call => do
      let name ← ctx.textArgument call 0 "name"
      read ctx name }

/-- The function that defines a variable. -/
def defineFunction [RandomSource σ] : ScriptFunction (Watched σ) :=
  { (Builtin.define : ScriptFunction (Watched σ)) with
    call := fun ctx call => do
      let name ← ctx.textArgument call 0 "name"
      match call.argument? 1 "value" with
      | some (.call inner) => defer name inner
      | some p =>
        let v ← ctx.evaluateParam p
        define name v
      | none => Eval.invalid "define" (.missing "value")
      return .empty }

/-- The built-in functions. Those that bind and read variables are watched. -/
def functions [RandomSource σ] : FunctionRegistry (Watched σ) :=
  (({} : FunctionRegistry (Watched σ)).registerAll
    ([Builtin.fill, varFunction, defineFunction, Builtin.randomize, Builtin.length] ++
      MarkerKind.all.map Builtin.decorator)).1

/-- Takes a definition into the table. -/
def defineLine (ctx : Context (Watched σ)) (d : Definition) : Eval (Watched σ) Unit :=
  match d.value with
  | .call c => defer d.name c
  | .literal raw => do
    let text ← ctx.resolve raw
    let value := match Param.parse text with
      | .ok p => Value.ofParam p
      | .error _ => .text text
    define d.name value

/-- Evaluates a line. Only definitions bind a variable by themselves. -/
def readLine (ctx : Context (Watched σ)) (line : SourceLine) : Eval (Watched σ) LineEffect := do
  let trimmed := Text.trim line.text
  if trimmed.isEmpty || Text.isComment trimmed then return .nothing
  else match Definition.parse? trimmed with
    | some definition => do
      defineLine ctx (← Eval.ofCall definition)
      return .nothing
    | none => ctx.readLine line

/-- Evaluates the lines of a block up to the first that fails. -/
def readLines (ctx : Context (Watched σ)) (found : Material) :
    List SourceLine → World (Watched σ) → Except LineError Material × World (Watched σ)
  | [], w => (.ok found, w)
  | line :: rest, w =>
    match (readLine ctx line).run.run w with
    | (.error e, w) => (.error ⟨line.number, line.span, e⟩, w)
    | (.ok effect, w) => readLines ctx (found.add effect) rest w

/-- Evaluates the content of a block with no variables defined before. -/
def material [RandomSource σ] (words : WordLibrary) (lines : List SourceLine) (random : σ) :
    Except LineError Material × World (Watched σ) :=
  readLines (functions.context words) {} lines ⟨{}, ⟨random, []⟩⟩

/-- The events of a run in the order in which they happen. -/
def events (w : World (Watched σ)) : List (Event σ) :=
  w.random.record.reverse

/-- The world under watch is the other one, with some variables being resolved, and its record is
sound. -/
structure Follows (resolving : List String) (w : World (Watched σ)) (v : World σ) : Prop where
  plain : w.plain = v
  resolving : w.table.resolving = resolving
  sound : Sound w.table w.random.record

/-- Calls come to the same values in two contexts, whatever variables are being resolved. -/
structure ContextAlike (c : Context (Watched σ)) (d : Context σ) : Prop where
  words : c.words = d.words
  evaluate : ∀ names call, Eval.Alike (Follows names) (c.evaluate call) (d.evaluate call)

/-- In contexts that are alike two functions come to the same. -/
structure FunctionAlike (f : ScriptFunction (Watched σ)) (g : ScriptFunction σ) : Prop where
  name : f.name = g.name
  call : ∀ {c : Context (Watched σ)} {d : Context σ}, ContextAlike c d → ∀ names call,
    Eval.Alike (Follows names) (f.call c call) (g.call d call)

theorem run_read (ctx : Context (Watched σ)) (name : String) (w : World (Watched σ)) :
    (read ctx name).run.run w = match (ctx.read name).run.run w with
      | (.error e, after) => (.error e, after)
      | (.ok v, after) => (.ok v, { after with random := { after.random with
          record := .returned ⟨name, w.plain, v, after.plain⟩ :: after.random.record } }) := by
  rw [read, Eval.run_bind]
  show StateT.run (ExceptT.run (ctx.read name >>= _)) w = _
  rw [Eval.run_bind]
  cases (ctx.read name).run.run w with
  | mk result after => cases result <;> rfl

section Steps

variable {names : List String}

theorem define_alike (name : String) (value : Value) :
    Eval.Alike (Follows (σ := σ) names) (define name value)
      (Eval.modifyTable (·.define name value)) := by
  rintro w _ ⟨rfl, hresolving, hsound⟩
  exact ⟨rfl, rfl, hresolving, hsound.define name value⟩

theorem defer_alike (name : String) (call : Call) :
    Eval.Alike (Follows (σ := σ) names) (defer name call)
      (Eval.modifyTable (·.defer name call)) := by
  rintro w _ ⟨rfl, hresolving, hsound⟩
  exact ⟨rfl, rfl, hresolving, hsound.defer name call⟩

/-- The variable is marked while its call is evaluated, so that no other read of it returns. -/
theorem read_alike {c : Context (Watched σ)} {d : Context σ} (h : ContextAlike c d)
    (name : String) : Eval.Alike (Follows names) (read c name) (d.read name) := by
  rintro ⟨t, s⟩ v ⟨hplain, hresolving, hsound⟩
  obtain rfl : v = ⟨t, s.source⟩ := hplain.symm
  have hnames : t.resolving = names := hresolving
  rcases Context.read_cases t name with ⟨result, hknown, hrun⟩ | ⟨call, hget, hfree, hrun⟩
  · rw [run_read, hrun, hrun]
    cases result with
    | error e => exact ⟨rfl, rfl, hresolving, hsound⟩
    | ok v =>
      obtain ⟨b, hb, hvalue⟩ := hknown v rfl
      exact ⟨rfl, rfl, hresolving, hsound.ready hb hvalue _⟩
  · have hmarked : Follows (names ++ [name]) ⟨t.mark name, s⟩ ⟨t.mark name, s.source⟩ :=
      ⟨rfl, by rw [VariableTable.resolving_mark, hnames], hsound.mark hget⟩
    obtain ⟨hresult, hended⟩ := h.evaluate _ call _ _ hmarked
    have hback : (names ++ [name]).filter (· != name) = names :=
      VariableTable.filter_resolving (hnames ▸ hfree)
    rw [run_read, hrun, hrun]
    revert hresult hended
    generalize (c.evaluate call).run.run _ = ended
    generalize (d.evaluate call).run.run _ = other
    obtain ⟨result, after⟩ := ended
    obtain ⟨same, plain⟩ := other
    rintro rfl ⟨rfl, hended, hsound⟩
    have hleft : ∀ result, (after.table.finish name result).resolving = names := by
      intro result
      rw [VariableTable.resolving_finish, hended, hback]
    cases result with
    | error e => exact ⟨rfl, rfl, hleft (.error e), hsound.abandon name⟩
    | ok v =>
      have hstill : name ∈ after.table.resolving := by
        rw [show after.table.resolving = names ++ [name] from hended]
        exact List.mem_append_right names (List.mem_singleton_self name)
      exact ⟨rfl, rfl, hleft (.ok v), hsound.resolve hstill _ v _⟩

end Steps

section Functions

variable [RandomSource σ]

theorem drawLink (names : List String) : DrawLink (Follows (σ := σ) names) := by
  intro table table' bound s t h
  obtain ⟨rfl, rfl⟩ := World.mk.inj h.plain
  exact ⟨rfl, rfl, h.resolving, h.sound⟩

theorem functions_alike : List.Forall₂ FunctionAlike
    ([Builtin.fill, varFunction, defineFunction, Builtin.randomize, Builtin.length] ++
      MarkerKind.all.map Builtin.decorator) (Builtin.functions : List (ScriptFunction σ)) := by
  have hfill : FunctionAlike (Builtin.fill : ScriptFunction (Watched σ)) Builtin.fill :=
    ⟨rfl, fun h names => Builtin.fill_call_alike (drawLink names) (h.evaluate names) h.words⟩
  have hvar : FunctionAlike (varFunction : ScriptFunction (Watched σ)) Builtin.var := by
    refine ⟨rfl, ?_⟩
    intro c d h names call
    exact (Context.textArgument_alike (h.evaluate names) call 0 "name").next fun name =>
      read_alike h name
  have hdefine : FunctionAlike (defineFunction : ScriptFunction (Watched σ)) Builtin.define := by
    refine ⟨rfl, ?_⟩
    intro c d h names call
    refine (Context.textArgument_alike (h.evaluate names) call 0 "name").next fun name => ?_
    have hvalue : ∀ p, Eval.Alike (Follows names)
        (do
          let v ← c.evaluateParam p
          define name v
          return Value.empty)
        (do
          let v ← d.evaluateParam p
          Eval.modifyTable (·.define name v)
          return Value.empty) := fun p =>
      (Context.evaluateParam_alike (h.evaluate names) p).next fun v =>
        (define_alike name v).next fun _ => .ok _
    generalize call.argument? 1 "value" = found
    cases found with
    | none => exact (Eval.Alike.fail (α := Unit) _).next fun _ => .ok _
    | some p =>
      cases p with
      | call inner => exact (defer_alike name inner).next fun _ => .ok _
      | _ => exact hvalue _
  have hrandomize : FunctionAlike (Builtin.randomize : ScriptFunction (Watched σ))
      Builtin.randomize :=
    ⟨rfl, fun h names => Builtin.randomize_call_alike (drawLink names) (h.evaluate names)⟩
  have hlength : FunctionAlike (Builtin.length : ScriptFunction (Watched σ)) Builtin.length :=
    ⟨rfl, fun h names => Builtin.length_call_alike (h.evaluate names)⟩
  have hkinds : List.Forall₂ FunctionAlike
      (MarkerKind.all.map (Builtin.decorator : MarkerKind → ScriptFunction (Watched σ)))
      (MarkerKind.all.map Builtin.decorator) := by
    rw [List.forall₂_map_left_iff, List.forall₂_map_right_iff, List.forall₂_same]
    intro kind _
    exact ⟨rfl, fun h names => Builtin.decorator_call_alike (h.evaluate names) kind⟩
  exact .cons hfill <| .cons hvar <| .cons hdefine <| .cons hrandomize <| .cons hlength hkinds

theorem find?_alike (name : String) : Option.Rel FunctionAlike
    ((functions : FunctionRegistry (Watched σ)).find? name) (FunctionRegistry.builtin.find? name) :=
  Keyed.Alike.get? (FunctionRegistry.registerAll_alike (fun _ _ h => h.name) functions_alike .nil)
    (Text.asciiLower name)

/-- The induction is on the levels of nesting that are left. -/
theorem evaluate_alike (words : WordLibrary) (levels : Nat) (names : List String) (call : Call) :
    Eval.Alike (Follows names)
      ((functions : FunctionRegistry (Watched σ)).evaluateWithin words levels call)
      (FunctionRegistry.builtin.evaluateWithin words levels call) := by
  induction levels generalizing names call with
  | zero => exact .fail _
  | succ levels ih =>
    have hcontext : ContextAlike (σ := σ) ⟨words, functions.evaluateWithin words levels⟩
        ⟨words, FunctionRegistry.builtin.evaluateWithin words levels⟩ := ⟨rfl, ih⟩
    have hfind := find?_alike (σ := σ) call.name
    rw [FunctionRegistry.evaluateWithin, FunctionRegistry.evaluateWithin]
    generalize (functions : FunctionRegistry (Watched σ)).find? call.name = f at hfind ⊢
    generalize (FunctionRegistry.builtin : FunctionRegistry σ).find? call.name = g at hfind ⊢
    cases hfind with
    | none => exact .fail _
    | some hf => exact hf.call hcontext names call

theorem context_alike (words : WordLibrary) : ContextAlike (functions.context words)
    (FunctionRegistry.builtin.context words : Context σ) := by
  rw [FunctionRegistry.context, FunctionRegistry.context]
  generalize FunctionRegistry.maxDepth = levels
  exact ⟨rfl, evaluate_alike words levels⟩

end Functions

section Lines

variable {names : List String} {c : Context (Watched σ)} {d : Context σ}
variable (h : ∀ call, Eval.Alike (Follows names) (c.evaluate call) (d.evaluate call))

include h

theorem defineLine_alike (definition : Definition) :
    Eval.Alike (Follows names) (defineLine c definition) (d.define definition) := by
  obtain ⟨name, value⟩ := definition
  cases value with
  | call call => exact defer_alike name call
  | literal raw => exact (Context.resolve_alike h raw).next fun text => define_alike name _

theorem readContent_alike (number : Nat) (trimmed : String) :
    Eval.Alike (Follows names) (c.readContent number trimmed) (d.readContent number trimmed) := by
  refine (Context.resolve_alike h trimmed).next fun text => ?_
  refine (Eval.Alike.ofCall (Marker.extract text)).next fun found => ?_
  obtain ⟨rest, markers⟩ := found
  dsimp only
  split
  · exact .ok _
  · exact .ok _

theorem readLine_alike (line : SourceLine) :
    Eval.Alike (Follows names) (readLine c line) (d.readLine line) := by
  cases hnothing : (Text.trim line.text).isEmpty || Text.isComment (Text.trim line.text) with
  | true =>
    simp only [readLine, Context.readLine, hnothing, if_true]
    exact .ok _
  | false =>
    cases hdefinition : Definition.parse? (Text.trim line.text) with
    | some definition =>
      simp only [readLine, Context.readLine, hnothing, hdefinition, Bool.false_eq_true, if_false]
      exact (Eval.Alike.ofCall definition).next fun own =>
        (defineLine_alike h own).next fun _ => .ok _
    | none =>
      simp only [readLine, Context.readLine, hnothing, hdefinition, Bool.false_eq_true, if_false]
      refine (Eval.Alike.ofCall (remark? _)).next fun found => ?_
      cases found with
      | none => exact readContent_alike h line.number _
      | some remark => exact (Context.resolve_alike h remark.2).next fun _ => .ok _

/-- A run under watch comes to the same, and the record agrees with the table at its end. -/
theorem readLines_alike (lines : List SourceLine) (found : Material) {w : World (Watched σ)}
    {v : World σ} (hwv : Follows names w v) :
    (readLines c found lines w).1 = (d.readLines found lines v).1 ∧
      Follows names (readLines c found lines w).2 (d.readLines found lines v).2 := by
  induction lines generalizing found w v with
  | nil => exact ⟨rfl, hwv⟩
  | cons line rest ih =>
    obtain ⟨hresult, hended⟩ := readLine_alike h line w v hwv
    rw [readLines, Context.readLines]
    revert hresult hended
    generalize (readLine c line).run.run w = ended
    generalize (d.readLine line).run.run v = other
    obtain ⟨result, after⟩ := ended
    obtain ⟨same, plain⟩ := other
    rintro rfl hended
    cases result with
    | error e => exact ⟨rfl, hended⟩
    | ok effect => exact ih (found.add effect) hended

end Lines

variable [RandomSource σ]

theorem sound_material (words : WordLibrary) (lines : List SourceLine) (random : σ) :
    let seen := material words lines random
    (seen.1, seen.2.random.source) =
        (FunctionRegistry.builtin.context words).material lines random ∧
      Sound seen.2.table seen.2.random.record := by
  intro seen
  have hstart : Follows [] ⟨{}, ⟨random, []⟩⟩ ⟨({} : VariableTable), random⟩ :=
    ⟨rfl, rfl, .start⟩
  obtain ⟨hresult, hended⟩ :=
    readLines_alike ((context_alike (σ := σ) words).evaluate []) lines {} hstart
  refine ⟨?_, hended.sound⟩
  rw [Context.material]
  exact Prod.ext hresult (congrArg World.random hended.plain)

/-- A variable stands for a call and is not bound anew in the rest of a run. All its reads that end
with a value after that return the same one, and after the first of them they change neither the
table nor the source of choices. This holds also of a read that has begun before the binding. -/
theorem reads_of_deferred (words : WordLibrary) (lines : List SourceLine) (random : σ) :
    let seen := material words lines random
    (seen.1, seen.2.random.source) =
        (FunctionRegistry.builtin.context words).material lines random ∧
      ∀ before name call after, events seen.2 = before ++ .deferred name call :: after →
        (∀ e ∈ after, ¬ e.Binds name) →
          (∀ r ∈ Event.readsOf name after, ∀ s ∈ Event.readsOf name after, r.value = s.value) ∧
            ∀ r ∈ (Event.readsOf name after).tail, r.after = r.before := by
  intro seen
  obtain ⟨hplain, hsound⟩ := sound_material words lines random
  refine ⟨hplain, ?_⟩
  intro before name call after hevents hkept
  have hrecord : seen.2.random.record = after.reverse ++ .deferred name call :: before.reverse := by
    rw [← List.reverse_reverse seen.2.random.record]
    show (events seen.2).reverse = _
    rw [hevents]
    simp
  have hreads : Event.readsOf name after = (Event.readsOf name after.reverse).reverse := by
    simp [Event.readsOf, List.filterMap_reverse]
  have hstanding := hsound.standing name call _ _ hrecord (by simpa using hkept)
  rw [hreads]
  exact hstanding.reverse

/-- What an event is in one line: the name, and of a read the value as a text and the numbers of
draws before and after it. -/
def summary : Event Draws → String ⊕ String ⊕ String × String × Nat × Nat
  | .defined name => .inl name
  | .deferred name _ => .inr (.inl name)
  | .returned r =>
    .inr (.inr (r.name, r.value.render, r.before.random.used, r.after.random.used))

/-- A variable that stands for a random order of two words, read twice. -/
theorem reads_of_deferred_twice :
    let lines : List SourceLine := [⟨1, "@var x = @randomize(one two)", ⟨0, 28⟩⟩,
      ⟨2, "@var(x), @var(x)", ⟨29, 45⟩⟩]
    let seen := material (σ := Draws) {} lines ⟨[0], 0⟩
    ∃ call first second,
      events seen.2 = [] ++ .deferred "x" call :: [.returned first, .returned second] ∧
        (∀ e ∈ [.returned first, .returned second], ¬ Event.Binds "x" e) ∧
        first.value.render = "two one" ∧ first.before.random.used < first.after.random.used ∧
        second.value = first.value ∧ second.after = second.before := by
  intro lines seen
  have hseen : (events seen.2).map summary = [.inr (.inl "x"), .inr (.inr ("x", "two one", 0, 1)),
      .inr (.inr ("x", "two one", 1, 1))] := by
    decide +kernel
  have hdeferred : ∀ e name, summary e = .inr (.inl name) → ∃ call, e = .deferred name call := by
    intro e name he
    cases e <;> cases he
    exact ⟨_, rfl⟩
  have hreturned : ∀ e shown, summary e = .inr (.inr shown) → ∃ r, e = .returned r ∧
      (r.name, r.value.render, r.before.random.used, r.after.random.used) = shown := by
    intro e shown he
    cases e <;> cases he
    exact ⟨_, rfl, rfl⟩
  obtain ⟨e, rest, hevents, he, hrest⟩ := List.map_eq_cons_iff.1 hseen
  obtain ⟨e', rest, rfl, he', hrest⟩ := List.map_eq_cons_iff.1 hrest
  obtain ⟨e'', rest, rfl, he'', hrest⟩ := List.map_eq_cons_iff.1 hrest
  obtain rfl := List.map_eq_nil_iff.1 hrest
  obtain ⟨call, rfl⟩ := hdeferred e "x" he
  obtain ⟨first, rfl, hfirst⟩ := hreturned e' _ he'
  obtain ⟨second, rfl, hsecond⟩ := hreturned e'' _ he''
  simp only [Prod.mk.injEq] at hfirst hsecond
  obtain ⟨hname, hshown, hbefore, hafter⟩ := hfirst
  have hkept : ∀ e ∈ [.returned first, .returned second], ¬ Event.Binds "x" e := by
    intro e he
    simp only [List.mem_cons, List.not_mem_nil, or_false] at he
    rcases he with rfl | rfl <;> exact id
  obtain ⟨-, hreads⟩ := reads_of_deferred {} lines (⟨[0], 0⟩ : Draws)
  obtain ⟨hsame, hunchanged⟩ := hreads [] "x" call _ hevents hkept
  have hfound : Event.readsOf "x" [.returned first, .returned second] = [first, second] := by
    simp [Event.readsOf, Event.readOf?, hname, hsecond.1]
  rw [hfound] at hsame hunchanged
  exact ⟨call, first, second, hevents, hkept, hshown, by omega, hsame _ (by simp) _ (by simp),
    hunchanged second (by simp)⟩

end Watched

end Worksheet
