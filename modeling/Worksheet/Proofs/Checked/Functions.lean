import Worksheet.Proofs.Checked.Eval
import Worksheet.Proofs.Checked.Random
import Worksheet.Proofs.Eval.Builtin

namespace Worksheet.Checked

variable {σ α β : Type}

/-- A function, with what it does. -/
structure Function (σ : Type) where
  name : String
  call : Context σ → Call → OptionT (Eval σ) Value

/-- At every depth a function makes no failing access in a context that makes none. -/
structure Function.Safe (f : Function σ) (plain : ScriptFunction σ) : Prop where
  name : f.name = plain.name
  call : ∀ {depth : Nat} {ctx : Context σ} {outer : Worksheet.Context σ}, ctx.SafeAt depth outer →
    ∀ call, SafeAt depth (f.call ctx call) (plain.call outer call)

namespace Builtin

def var : Function σ where
  name := "var"
  call ctx call := do
    let name ← ctx.textArgument call 0 "name"
    ctx.read name

def define : Function σ where
  name := "define"
  call ctx call := do
    let name ← ctx.textArgument call 0 "name"
    match call.argument? 1 "value" with
    | some (.call inner) => steady (Eval.modifyTable (·.defer name inner))
    | some p =>
      let v ← ctx.evaluateParam p
      steady (Eval.modifyTable (·.define name v))
    | none => steady (Eval.invalid "define" (.missing "value"))
    return .empty

def length : Function σ where
  name := "length"
  call ctx call := do
    let content ← ctx.argument call 0 "content"
    return .number (Float.ofNat (Builtin.sizeOf content))

def decorator (kind : MarkerKind) : Function σ where
  name := kind.functionName
  call ctx call := do
    let text ← ctx.textArgument call 0 (Builtin.markerParameter kind)
    return .marker ⟨kind, text⟩

variable [RandomSource σ]

def fill : Function σ where
  name := "fill"
  call ctx call := do
    let query ← ctx.textArgument call 0 "library"
    let amount ← ctx.countArgument call 1 "amount"
    match Builtin.filterOf call with
    | .error fault => steady (Eval.invalid "fill" fault)
    | .ok filter =>
      match ← choose (sample ctx.words query filter amount) with
      | .error e => steady (throw (.words e))
      | .ok words => return .list (words.map .text)

/-- What is made of a list or a text in the way of the given name. -/
def randomized (content : Value) (name : String) (amount : Nat) : OptionT (Eval σ) Value :=
  match content, Builtin.Mode.ofName? name with
  | _, none => steady (Eval.invalid "randomize" (.unknownMode name))
  | .list items, some .words => do return .list (← choose (shuffle items))
  | content, some mode => do
    let words ← choose (applyMode mode amount (Chars.words content.render.toList))
    return .text (String.ofList (Chars.join [' '] words))

def randomize : Function σ where
  name := "randomize"
  call ctx call := do
    let content ← ctx.argument call 0 "content"
    let name := match ← ctx.argument? call 1 "kind" with
      | some v => Text.asciiLower (Text.trim v.render)
      | none => "words"
    let amount ← ctx.countArgument call 2 "amount"
    randomized content name amount

def functions : List (Function σ) :=
  [fill, var, define, randomize, length] ++ MarkerKind.all.map decorator

end Builtin

/-- Registers functions under their names up to the first whose name is taken. -/
def registerAll (r : Keyed (Function σ)) : List (Function σ) → Keyed (Function σ)
  | [] => r
  | f :: rest =>
    let name := Text.asciiLower f.name
    if r.contains name then r else registerAll (r.insert name f) rest

/-- The built-in function of a name. -/
def find? [RandomSource σ] (name : String) : Option (Function σ) :=
  (registerAll [] Builtin.functions).get? (Text.asciiLower name)

/-- Evaluates a call that may be nested in as many calls as the given number. -/
def evaluate [RandomSource σ] (words : WordLibrary) : Nat → Call → OptionT (Eval σ) Value
  | 0, _ => access none
  | levels + 1, call => do
    if FunctionRegistry.maxDepth ≤ (← entered) then
      steady (throw (.tooDeep FunctionRegistry.maxDepth))
    else match find? call.name with
      | none => steady (throw (.unknownFunction call.name))
      | some f =>
        setEntered ((← entered) + 1)
        let result ← attempt (f.call ⟨words, evaluate words levels⟩ call)
        setEntered (← access (sub (← entered) 1))
        match result with
        | .ok v => return v
        | .error e => steady (throw e)

/-- The context of a block, in which no call is being evaluated. -/
def context [RandomSource σ] (words : WordLibrary) : Context σ :=
  ⟨words, evaluate words (FunctionRegistry.maxDepth + 1)⟩

namespace Builtin

theorem var_safe : (var : Function σ).Safe Worksheet.Builtin.var where
  name := rfl
  call h call := (h.textArgument call 0 "name").next fun name => h.read name

theorem define_safe : (define : Function σ).Safe Worksheet.Builtin.define where
  name := rfl
  call h call := by
    refine (h.textArgument call 0 "name").next fun name => ?_
    dsimp only
    cases call.argument? 1 "value" with
    | none => exact (SafeAt.steady _).next fun _ => .ok Value.empty
    | some p =>
      cases p with
      | call inner => exact (SafeAt.steady _).next fun _ => .ok Value.empty
      | _ =>
        refine (h.evaluateParam _).next fun v => ?_
        exact (SafeAt.steady _).next fun _ => .ok Value.empty

theorem length_safe : (length : Function σ).Safe Worksheet.Builtin.length where
  name := rfl
  call h call := (h.argument call 0 "content").next fun _ => .ok _

theorem decorator_safe (kind : MarkerKind) :
    (decorator kind : Function σ).Safe (Worksheet.Builtin.decorator kind) where
  name := rfl
  call h call := (h.textArgument call 0 (Builtin.markerParameter kind)).next fun _ => .ok _

variable [RandomSource σ] [LawfulRandomSource σ]

theorem fill_safe : (fill : Function σ).Safe Worksheet.Builtin.fill where
  name := rfl
  call {_ _ outer} h call := by
    refine (h.textArgument call 0 "library").next fun query => ?_
    refine (h.countArgument call 1 "amount").next fun amount => ?_
    rw [h.words]
    cases Builtin.filterOf call with
    | error fault => exact .steady _
    | ok filter =>
      refine (SafeAt.choose (sample_safe outer.words query filter amount)).next fun found => ?_
      cases found with
      | error e => exact .steady _
      | ok words => exact .ok _

theorem randomized_safe (depth : Nat) (content : Value) (name : String) (amount : Nat) :
    SafeAt depth (randomized content name amount : OptionT (Eval σ) Value)
      (match content, Builtin.Mode.ofName? name with
        | _, none => Eval.invalid "randomize" (.unknownMode name)
        | .list items, some .words => do return .list (← Eval.choose (Worksheet.shuffle items))
        | content, some mode => do
          let words ← Eval.choose (mode.apply amount (Chars.words content.render.toList))
          return .text (String.ofList (Chars.join [' '] words))) := by
  have happly : ∀ mode : Builtin.Mode, SafeAt depth (do
        let words ← (choose (applyMode mode amount (Chars.words content.render.toList)) :
          OptionT (Eval σ) (List (List Char)))
        return Value.text (String.ofList (Chars.join [' '] words))) (do
        let words ← Eval.choose (mode.apply amount (Chars.words content.render.toList))
        return Value.text (String.ofList (Chars.join [' '] words))) :=
    fun mode => (SafeAt.choose (applyMode_safe mode amount _)).next fun _ => .ok _
  rw [randomized.eq_def]
  cases Builtin.Mode.ofName? name with
  | none => cases content <;> exact .steady _
  | some mode =>
    cases mode with
    | words =>
      cases content with
      | list items =>
        have hshuffle : SafeAt depth (choose (shuffle items)) (Eval.choose (Worksheet.shuffle items)
            : Worksheet.Eval σ (List Value)) := SafeAt.choose (shuffle_safe items)
        exact hshuffle.next fun _ => .ok _
      | _ => exact happly .words
    | _ => cases content <;> exact happly _

theorem randomize_safe : (randomize : Function σ).Safe Worksheet.Builtin.randomize where
  name := rfl
  call {depth _ _} h call := by
    refine (h.argument call 0 "content").next fun content => ?_
    refine (h.argument? call 1 "kind").next fun kind => ?_
    refine (h.countArgument call 2 "amount").next fun amount => ?_
    cases kind with
    | none =>
      dsimp only
      generalize "words" = name
      exact randomized_safe depth content name amount
    | some v =>
      dsimp only
      generalize Text.asciiLower (Text.trim v.render) = name
      exact randomized_safe depth content name amount

theorem functions_safe : List.Forall₂ Function.Safe (functions : List (Function σ))
    (Worksheet.Builtin.functions : List (ScriptFunction σ)) := by
  have hkinds : List.Forall₂ Function.Safe
      (MarkerKind.all.map (decorator : MarkerKind → Function σ))
      (MarkerKind.all.map (Worksheet.Builtin.decorator : MarkerKind → ScriptFunction σ)) := by
    rw [List.forall₂_map_left_iff, List.forall₂_map_right_iff, List.forall₂_same]
    exact fun kind _ => decorator_safe kind
  exact .cons fill_safe <| .cons var_safe <| .cons define_safe <| .cons randomize_safe <|
    .cons length_safe hkinds

end Builtin

theorem registerAll_safe {fs : List (Function σ)} {gs : List (ScriptFunction σ)}
    (hfs : List.Forall₂ Function.Safe fs gs) {r : Keyed (Function σ)} {s : FunctionRegistry σ}
    (h : Keyed.Alike Function.Safe r s.functions) :
    Keyed.Alike Function.Safe (registerAll r fs) (s.registerAll gs).1.functions := by
  induction hfs generalizing r s with
  | nil => exact h
  | @cons f g fs gs hfg _ ih =>
    have hcontains := h.contains (Text.asciiLower g.name)
    rw [registerAll, FunctionRegistry.registerAll, FunctionRegistry.register, hfg.name, hcontains]
    by_cases htaken : s.functions.contains (Text.asciiLower g.name) = true
    · rw [if_pos htaken, if_pos htaken]
      exact h
    · rw [if_neg htaken, if_neg htaken]
      exact ih (h.insert _ hfg)

variable [RandomSource σ] [LawfulRandomSource σ]

theorem find?_safe (name : String) : Option.Rel Function.Safe (find? name : Option (Function σ))
    (FunctionRegistry.builtin.find? name) := by
  have h : Keyed.Alike Function.Safe (registerAll [] Builtin.functions : Keyed (Function σ))
      (FunctionRegistry.builtin : FunctionRegistry σ).functions :=
    registerAll_safe Builtin.functions_safe List.Forall₂.nil
  exact h.get? (Text.asciiLower name)

/-- At each depth as many levels are left as the depth lacks, so that the levels are never used up
without a fault. -/
theorem evaluate_safe (words : WordLibrary) {levels depth : Nat}
    (h : depth + levels = FunctionRegistry.maxDepth) (call : Call) :
    SafeAt depth (evaluate words (levels + 1) call : OptionT (Eval σ) Value)
      (FunctionRegistry.builtin.evaluateWithin words levels call) := by
  intro w
  induction levels generalizing depth call w with
  | zero =>
    have hdeep : FunctionRegistry.maxDepth ≤ depth := by omega
    rw [evaluate, run_bind]
    show ((if FunctionRegistry.maxDepth ≤ depth then _ else _ :
      OptionT (Eval σ) Value).run.run.run (w, depth)) = _
    rw [if_pos hdeep]
    rfl
  | succ levels ih =>
    have hfree : ¬ FunctionRegistry.maxDepth ≤ depth := by omega
    have hinner : (⟨words, evaluate words (levels + 1)⟩ : Context σ).SafeAt (depth + 1)
        ⟨words, FunctionRegistry.builtin.evaluateWithin words levels⟩ :=
      ⟨rfl, fun call => ih (by omega) call⟩
    have hfind := find?_safe (σ := σ) call.name
    rw [evaluate, run_bind, FunctionRegistry.evaluateWithin]
    show ((if FunctionRegistry.maxDepth ≤ depth then _ else _ :
      OptionT (Eval σ) Value).run.run.run (w, depth)) = _
    rw [if_neg hfree]
    generalize (find? call.name : Option (Function σ)) = found at hfind ⊢
    generalize (FunctionRegistry.builtin : FunctionRegistry σ).find? call.name = plain at hfind ⊢
    cases hfind with
    | none => rfl
    | @some f g hfg =>
      dsimp only
      rw [run_bind]
      show (setEntered (depth + 1) >>= _ : OptionT (Eval σ) Value).run.run.run (w, depth) = _
      rw [run_bind]
      show (attempt (f.call ⟨words, evaluate words (levels + 1)⟩ call) >>= _ :
        OptionT (Eval σ) Value).run.run.run (w, depth + 1) = _
      rw [SafeAt.run_attempt_bind (hfg.call hinner call)]
      cases (g.call ⟨words, FunctionRegistry.builtin.evaluateWithin words levels⟩
        call).run.run w with
      | mk result after => cases result <;> rfl

/-- From the beginning of a block calls are evaluated without a failing access. -/
theorem context_safe (words : WordLibrary) : (context words : Context σ).SafeAt 0
    (FunctionRegistry.builtin.context words) := by
  rw [context, FunctionRegistry.context]
  generalize hlevels : FunctionRegistry.maxDepth = levels
  have hall : 0 + levels = FunctionRegistry.maxDepth := (Nat.zero_add levels).trans hlevels.symm
  exact ⟨rfl, evaluate_safe words hall⟩

end Worksheet.Checked
