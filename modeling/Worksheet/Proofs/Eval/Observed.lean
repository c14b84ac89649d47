import Worksheet.Proofs.Eval.Builtin
import Worksheet.Proofs.Eval.Variables

namespace Worksheet

variable {σ τ α β : Type}

/-- An evaluation that returned a value, with the variables at its beginning and at its end. -/
structure Evaluation where
  call : Call
  before : VariableTable
  value : Value
  after : VariableTable

/-- A source of choices and a record of the evaluations that draw from it. -/
structure Observed (σ : Type) where
  source : σ
  /-- Evaluations that have begun and not ended. -/
  depth : Nat
  /-- The most evaluations that were open at once. -/
  deepest : Nat
  /-- Whether an evaluation was given up at the bound of the recursion. -/
  cutOff : Bool := false
  /-- The evaluations that returned a value, the last one first. -/
  returned : List Evaluation := []

namespace Observed

instance [RandomSource σ] : RandomSource (Observed σ) where
  below bound o :=
    let (choice, source) := RandomSource.below bound o.source
    (choice, { o with source })

/-- The record with a number of evaluations open and none that has returned. -/
def start (source : σ) (depth : Nat) : Observed σ :=
  { source, depth, deepest := depth }

def enter (o : Observed σ) : Observed σ :=
  { o with depth := o.depth + 1, deepest := max o.deepest (o.depth + 1) }

/-- The evaluation of a call ends, be it with a value or with an error. -/
def leave (o : Observed σ) (call : Call) (before after : VariableTable) :
    Except EvalError Value → Observed σ
  | .ok value =>
    { o with depth := o.depth - 1, returned := ⟨call, before, value, after⟩ :: o.returned }
  | .error _ => { o with depth := o.depth - 1 }

end Observed

namespace FunctionRegistry

/-- Evaluates a call and keeps the record. No more than a number of evaluations are nested. -/
def evaluateObserved (r : FunctionRegistry (Observed σ)) (words : WordLibrary) :
    Nat → Call → Eval (Observed σ) Value
  | 0, _ => ExceptT.mk fun w =>
    (.error (.tooDeep maxDepth), { w with random := { w.random with cutOff := true } })
  | bound + 1, call => ExceptT.mk fun w =>
    if maxDepth ≤ w.random.depth then (.error (.tooDeep maxDepth), w)
    else match r.find? call.name with
      | none => (.error (.unknownFunction call.name), w)
      | some f =>
        let (result, w') := (f.call ⟨words, r.evaluateObserved words bound⟩ call).run.run
          { w with random := w.random.enter }
        (result, { w' with random := w'.random.leave call w.table w'.table result })

theorem run_evaluateObserved (r : FunctionRegistry (Observed σ)) (words : WordLibrary)
    (bound : Nat) (call : Call) (w : World (Observed σ)) :
    (r.evaluateObserved words (bound + 1) call).run.run w =
      if maxDepth ≤ w.random.depth then (.error (.tooDeep maxDepth), w)
      else match r.find? call.name with
        | none => (.error (.unknownFunction call.name), w)
        | some f =>
          let ended := (f.call ⟨words, r.evaluateObserved words bound⟩ call).run.run
            { w with random := w.random.enter }
          (ended.1, { ended.2 with
            random := ended.2.random.leave call w.table ended.2.table ended.1 }) := rfl

end FunctionRegistry

/-- The observed world is the other one, with a number of evaluations open and with some variables
being resolved. -/
structure Observed.At (depth : Nat) (resolving : List String) (w : World (Observed σ))
    (v : World σ) : Prop where
  table : w.table = v.table
  source : w.random.source = v.random
  resolving : w.table.resolving = resolving
  depth : w.random.depth = depth
  deepest : w.random.deepest ≤ FunctionRegistry.maxDepth
  cutOff : w.random.cutOff = false

namespace Observed

open FunctionRegistry

variable {depth : Nat} {resolving : List String}

theorem At.withTable {w : World (Observed σ)} {v : World σ} (h : At depth resolving w v)
    {table : VariableTable} {names : List String} (hnames : table.resolving = names) :
    At depth names { w with table } { v with table } :=
  ⟨rfl, h.source, hnames, h.depth, h.deepest, h.cutOff⟩

theorem At.link [RandomSource σ] : Link (At (σ := σ) depth resolving) where
  define name value w v h := by
    rw [h.table]
    exact h.withTable (by rw [VariableTable.resolving_define, ← h.table, h.resolving])
  defer name call w v h := by
    rw [h.table]
    exact h.withTable (by rw [VariableTable.resolving_defer, ← h.table, h.resolving])
  draw table table' bound := by
    intro o s h
    have hsource : o.source = s := h.source
    subst hsource
    exact ⟨rfl, h.table, rfl, h.resolving, h.depth, h.deepest, h.cutOff⟩

/-- A variable is unmarked whether or not its call can be evaluated. -/
theorem read_alike {c : Context (Observed σ)} {d : Context σ}
    (h : ∀ names call, Eval.Alike (At depth names) (c.evaluate call) (d.evaluate call))
    (name : String) : Eval.Alike (At depth resolving) (c.read name) (d.read name) := by
  rintro ⟨t, seen⟩ ⟨t', source⟩ hwv
  obtain rfl : t = t' := hwv.table
  have hnames : t.resolving = resolving := hwv.resolving
  rcases Context.read_cases t name with ⟨result, -, hrun⟩ | ⟨call, -, hfree, hrun⟩
  · rw [hrun, hrun]
    exact ⟨rfl, hwv⟩
  · have hmarked : At depth (resolving ++ [name]) ⟨t.mark name, seen⟩ ⟨t.mark name, source⟩ :=
      hwv.withTable (by rw [VariableTable.resolving_mark, hnames])
    -- The variable was not marked before, so that its name is taken out once.
    have hback : (resolving ++ [name]).filter (· != name) = resolving :=
      VariableTable.filter_resolving (by rwa [← hnames])
    obtain ⟨hresult, hended⟩ := h _ call _ _ hmarked
    rw [hrun, hrun]
    dsimp only
    rw [hresult, hended.table]
    refine ⟨rfl, hended.withTable ?_⟩
    rw [VariableTable.resolving_finish, ← hended.table, hended.resolving, hback]

theorem At.enter {w : World (Observed σ)} {v : World σ} (h : At depth resolving w v)
    (hdepth : depth < maxDepth) :
    At (depth + 1) resolving { w with random := w.random.enter } v := by
  refine ⟨h.table, h.source, h.resolving, ?_, ?_, h.cutOff⟩
  · show w.random.depth + 1 = depth + 1
    rw [h.depth]
  · have hbefore := h.deepest
    have hopen := h.depth
    show max w.random.deepest (w.random.depth + 1) ≤ maxDepth
    omega

theorem At.leave {w : World (Observed σ)} {v : World σ} (h : At (depth + 1) resolving w v)
    (call : Call) (before after : VariableTable) (result : Except EvalError Value) :
    At depth resolving { w with random := w.random.leave call before after result } v := by
  have hdepth : w.random.depth - 1 = depth := by
    rw [h.depth]
    rfl
  cases result with
  | error e => exact ⟨h.table, h.source, h.resolving, hdepth, h.deepest, h.cutOff⟩
  | ok value => exact ⟨h.table, h.source, h.resolving, hdepth, h.deepest, h.cutOff⟩

variable [RandomSource σ]

/-- The induction is on the levels that the counter leaves. The bound of the recursion exceeds them
at every depth, so that the counter stops the evaluation first. -/
theorem evaluate_alike (words : WordLibrary) {levels bound : Nat}
    (hdepth : depth + levels = maxDepth) (hbound : levels < bound) (call : Call) :
    Eval.Alike (At depth resolving) (builtin.evaluateObserved words bound call)
      ((builtin : FunctionRegistry σ).evaluateWithin words levels call) := by
  induction levels generalizing depth bound resolving call with
  | zero =>
    intro w v hwv
    obtain ⟨bound, rfl⟩ : ∃ rest, bound = rest + 1 := ⟨bound - 1, by omega⟩
    have hlimit : maxDepth ≤ w.random.depth := by
      rw [hwv.depth]
      omega
    -- The counter is at its limit before the bound of the recursion is met.
    rw [run_evaluateObserved, if_pos hlimit]
    exact ⟨rfl, hwv⟩
  | succ levels ih =>
    intro w v hwv
    obtain ⟨bound, rfl⟩ : ∃ rest, bound = rest + 1 := ⟨bound - 1, by omega⟩
    have hlimit : ¬ maxDepth ≤ w.random.depth := by
      rw [hwv.depth]
      omega
    have hinner : ∀ names call, Eval.Alike (At (depth + 1) names)
        (builtin.evaluateObserved words bound call)
        ((builtin : FunctionRegistry σ).evaluateWithin words levels call) :=
      fun names call => ih (by omega) (by omega) call
    have hcontext : Context.Alike (At (depth + 1) resolving)
        ⟨words, builtin.evaluateObserved words bound⟩
        ⟨words, (builtin : FunctionRegistry σ).evaluateWithin words levels⟩ :=
      ⟨rfl, hinner resolving, read_alike hinner⟩
    have hfind := find?_builtin_alike (σ := Observed σ) (τ := σ) call.name
    rw [run_evaluateObserved, if_neg hlimit, evaluateWithin]
    generalize (builtin : FunctionRegistry (Observed σ)).find? call.name = found at hfind ⊢
    generalize (builtin : FunctionRegistry σ).find? call.name = found' at hfind ⊢
    cases hfind with
    | none => exact ⟨rfl, hwv⟩
    | some hf =>
      have hentered := hwv.enter (by omega)
      obtain ⟨hresult, hended⟩ := hf.call At.link hcontext call _ _ hentered
      exact ⟨hresult, hended.leave call _ _ _⟩

end Observed

/-- What can be asked of a context. -/
inductive Request where
  | resolve (text : String)
  | param (p : Param)
  | call (c : Call)
  | read (name : String)

namespace Context

/-- The value that a request comes to. A resolved text counts as one. -/
def answer (ctx : Context σ) : Request → Eval σ Value
  | .resolve text => do return .text (← ctx.resolve text)
  | .param p => ctx.evaluateParam p
  | .call c => ctx.evaluate c
  | .read name => ctx.read name

theorem answer_alike {R : World σ → World τ → Prop} {c : Context σ} {d : Context τ}
    (h : c.Alike R d) (request : Request) :
    Eval.Alike R (c.answer request) (d.answer request) := by
  cases request with
  | resolve text =>
    exact (resolve_alike h.evaluate text).next fun resolved => .ok (Value.text resolved)
  | param p => exact evaluateParam_alike h.evaluate p
  | call c => exact h.evaluate c
  | read name => exact h.read name

/-- The answers to requests one after the other, on one table. -/
def answerAll (ctx : Context σ) :
    List Request → World σ → List (Except EvalError Value) × World σ
  | [], w => ([], w)
  | request :: rest, w =>
    let first := (ctx.answer request).run.run w
    let others := answerAll ctx rest first.2
    (first.1 :: others.1, others.2)

theorem answerAll_alike {R : World σ → World τ → Prop} {c : Context σ} {d : Context τ}
    (h : c.Alike R d) (requests : List Request) {w : World σ} {v : World τ} (hwv : R w v) :
    (c.answerAll requests w).1 = (d.answerAll requests v).1 ∧
      R (c.answerAll requests w).2 (d.answerAll requests v).2 := by
  induction requests generalizing w v with
  | nil => exact ⟨rfl, hwv⟩
  | cons request rest ih =>
    obtain ⟨hfirst, hbetween⟩ := answer_alike h request w v hwv
    obtain ⟨hothers, hended⟩ := ih hbetween
    refine ⟨?_, hended⟩
    rw [answerAll, answerAll, hfirst, hothers]

variable [RandomSource σ]

/-- The context of the built-in functions with a number of evaluations open. -/
def builtin (words : WordLibrary) (depth : Nat) : Context σ :=
  ⟨words, FunctionRegistry.builtin.evaluateWithin words (FunctionRegistry.maxDepth - depth)⟩

/-- The context of the built-in functions under observation. -/
def observed (words : WordLibrary) (bound : Nat) : Context (Observed σ) :=
  ⟨words, FunctionRegistry.builtin.evaluateObserved words bound⟩

end Context

namespace Observed

open FunctionRegistry

variable [RandomSource σ]

theorem context_alike (words : WordLibrary) {depth bound : Nat} (hdepth : depth ≤ maxDepth)
    (hbound : maxDepth - depth < bound) (resolving : List String) :
    (Context.observed words bound).Alike (At (σ := σ) depth resolving)
      (Context.builtin words depth) := by
  have hevaluate : ∀ names call, Eval.Alike (At depth names)
      (FunctionRegistry.builtin.evaluateObserved words bound call)
      ((FunctionRegistry.builtin : FunctionRegistry σ).evaluateWithin words (maxDepth - depth)
        call) :=
    fun names call => evaluate_alike words (by omega) hbound call
  exact ⟨rfl, hevaluate resolving, read_alike hevaluate⟩

/-- An evaluation with the built-in functions ends without meeting the bound of the recursion, has
at most `maxDepth` evaluations open at once, and leaves the counter and the variables being resolved
as they were, whether it comes to a value or to an error. -/
theorem answer_restores (words : WordLibrary) {depth bound : Nat} (hdepth : depth ≤ maxDepth)
    (hbound : maxDepth - depth < bound) (request : Request) (table : VariableTable) (source : σ) :
    let plain := ((Context.builtin words depth).answer request).run.run ⟨table, source⟩
    let seen := ((Context.observed words bound).answer request).run.run
      ⟨table, .start source depth⟩
    (seen.1 = plain.1 ∧ seen.2.table = plain.2.table ∧ seen.2.random.source = plain.2.random) ∧
      seen.2.random.cutOff = false ∧ seen.2.random.deepest ≤ maxDepth ∧
        seen.2.random.depth = depth ∧ seen.2.table.resolving = table.resolving := by
  intro plain seen
  have hstart : At depth table.resolving ⟨table, .start source depth⟩ ⟨table, source⟩ :=
    ⟨rfl, rfl, rfl, rfl, hdepth, rfl⟩
  have hcontexts := context_alike (σ := σ) words hdepth hbound table.resolving
  obtain ⟨hresult, hended⟩ := Context.answer_alike hcontexts request _ _ hstart
  exact ⟨⟨hresult, hended.table, hended.source⟩, hended.cutOff, hended.deepest, hended.depth,
    hended.resolving⟩

/-- Two variables that stand for each other, while a third one is being resolved. -/
def circular : VariableTable where
  bindings := [
    ("x", .deferred ⟨"var", [⟨none, .text "y"⟩], ⟨0, 7⟩, "@var(y)"⟩ none),
    ("y", .deferred ⟨"var", [⟨none, .text "x"⟩], ⟨0, 7⟩, "@var(x)"⟩ none)]
  resolving := ["z"]

theorem answer_restores_circular :
    30 ≤ maxDepth ∧ maxDepth - 30 < 3 ∧
      let seen := ((Context.observed (σ := Draws) {} 3).answer (.read "x")).run.run
        ⟨circular, .start ⟨[], 0⟩ 30⟩
      seen.1 = .error (.circularVariable "x") ∧ seen.2.random.cutOff = false ∧
        seen.2.random.deepest ≤ maxDepth ∧ seen.2.random.depth = 30 ∧
          seen.2.table.resolving = ["z"] := by
  have hdepth : 30 ≤ maxDepth := by decide
  have hbound : maxDepth - 30 < 3 := by decide
  obtain ⟨⟨hresult, -, -⟩, hcutOff, hdeepest, hopen, hresolving⟩ :=
    answer_restores {} hdepth hbound (.read "x") circular (⟨[], 0⟩ : Draws)
  exact ⟨hdepth, hbound, hresult.trans rfl, hcutOff, hdeepest, hopen, hresolving⟩

end Observed

end Worksheet
