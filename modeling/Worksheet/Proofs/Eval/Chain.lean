import Worksheet.Proofs.Call.Identifier
import Worksheet.Proofs.Engine.Builtin
import Worksheet.Proofs.Eval.Builtin
import Worksheet.Proofs.Eval.Plain
import Worksheet.Proofs.Eval.Variables

namespace Worksheet

/-- The variable that a call reads, if it names it as it stands. -/
def Call.reads? (c : Call) : Option String :=
  if Text.asciiLower c.name == "var" then (c.argument? 0 "name").bind Param.text? else none

theorem Call.reads?_ofName (name : String) : (ofName "var" name).reads? = some name := by
  have hvar : (Text.asciiLower (ofName "var" name).name == "var") = true := by
    show (Text.asciiLower "var" == "var") = true
    decide
  rw [reads?, hvar]
  rfl

namespace VariableTable

/-- The variable that the call of a variable reads. -/
def next? (t : VariableTable) (name : String) : Option String :=
  match t.get? name with
  | some (.deferred c _) => c.reads?
  | _ => none

/-- The variables that are read one after the other, from a first one on. -/
def chain (t : VariableTable) (name : String) : Nat → String
  | 0 => name
  | i + 1 => (t.next? (chain t name i)).getD (chain t name i)

/-- A table of literals and of calls that read variables and have not been evaluated, in which
nothing is being resolved. -/
structure Chained (t : VariableTable) : Prop where
  idle : t.resolving = []
  reads : ∀ name c memo, t.get? name = some (.deferred c memo) →
    memo = none ∧ ∃ other, c.reads? = some other ∧ IsVariableName other

/-- The chain can end at a place: its variable is not bound, is a literal, or came before. -/
def Stops (t : VariableTable) (name : String) (n : Nat) : Prop :=
  t.get? (t.chain name n) = none ∨ (∃ v, t.get? (t.chain name n) = some (.literal v)) ∨
    ∃ i < n, t.chain name i = t.chain name n

/-- The first place at which the chain can end. -/
def EndsAt (t : VariableTable) (name : String) (n : Nat) : Prop :=
  t.Stops name n ∧ ∀ m < n, ¬ t.Stops name m

/-- There are only so many variables. -/
theorem exists_endsAt (t : VariableTable) (name : String) : ∃ n, t.EndsAt name n := by
  classical
  have hex : ∃ n, t.Stops name n := by
    -- Else all variables of the chain would be bound and differ from each other.
    by_contra hno
    push Not at hno
    have hinj : Function.Injective (t.chain name) := by
      intro i j hij
      by_contra hne
      rcases Nat.lt_or_gt_of_ne hne with hlt | hlt
      · exact hno j (Or.inr (Or.inr ⟨i, hlt, hij⟩))
      · exact hno i (Or.inr (Or.inr ⟨j, hlt, hij.symm⟩))
    have hbound : ∀ i, t.chain name i ∈ t.bindings.map (·.1) := by
      intro i
      by_contra hmissing
      refine hno i (Or.inl ?_)
      rw [get?, List.lookup_eq_none_iff]
      intro entry hentry
      rw [bne_iff_ne]
      intro heq
      exact hmissing (List.mem_map.2 ⟨entry, hentry, heq.symm⟩)
    have hfinite : (Set.range (t.chain name)).Finite := by
      refine (List.finite_toSet (t.bindings.map (·.1))).subset ?_
      rintro _ ⟨i, rfl⟩
      exact hbound i
    exact Set.infinite_range_of_injective hinj hfinite
  exact ⟨Nat.find hex, Nat.find_spec hex, fun m hm => Nat.find_min hex hm⟩

variable {t : VariableTable} {name : String} {n : Nat}

/-- Before its end the chain goes on, to a variable that it has not come to before. -/
theorem Chained.pending (h : t.Chained) (hend : t.EndsAt name n) {i : Nat} (hi : i < n) :
    (∃ c, t.get? (t.chain name i) = some (.deferred c none) ∧
        c.reads? = some (t.chain name (i + 1))) ∧
      IsVariableName (t.chain name (i + 1)) ∧
      t.chain name i ∉ (List.range i).map (t.chain name) := by
  have hgoes := hend.2 i hi
  simp only [Stops, not_or, not_exists, not_and] at hgoes
  obtain ⟨hbound, hcall, hnew⟩ := hgoes
  cases hget : t.get? (t.chain name i) with
  | none => exact absurd hget hbound
  | some b =>
    cases b with
    | literal v => exact absurd hget (hcall v)
    | deferred c memo =>
      obtain ⟨rfl, other, hreads, hother⟩ := h.reads _ _ _ hget
      have hnext : t.chain name (i + 1) = other := by
        rw [chain, next?, hget]
        simp [hreads]
      rw [hnext]
      refine ⟨⟨c, rfl, hreads⟩, hother, ?_⟩
      intro hmem
      obtain ⟨j, hj, heq⟩ := List.mem_map.1 hmem
      exact hnew j (List.mem_range.1 hj) heq

/-- What is found where the chain ends. -/
def ending (t : VariableTable) (last : String) : Except EvalError Value :=
  match t.get? last with
  | none => .error (.undefinedVariable last)
  | some (.literal v) => .ok v
  | some (.deferred _ _) => .error (.circularVariable last)

/-- The table after a reading. A value is kept for the variables that were read, and an error leaves
no trace. -/
def After (t : VariableTable) (names : List String) :
    Except EvalError Value → VariableTable → Prop
  | .error _, s => s = t
  | .ok v, s => s.resolving = t.resolving ∧ ∀ name, s.get? name = match t.get? name with
    | some (.deferred c memo) => some (.deferred c (if name ∈ names then some v else memo))
    | found => found

theorem After.same (t : VariableTable) (result : Except EvalError Value) :
    t.After [] result t := by
  cases result with
  | error e => exact rfl
  | ok v =>
    refine ⟨rfl, ?_⟩
    intro other
    cases t.get? other with
    | none => rfl
    | some b => cases b <;> rfl

/-- The reading of a pending variable ends after that of the others that it has led to. -/
theorem After.finish {s : VariableTable} {names : List String} {result : Except EvalError Value}
    (h : (t.mark name).After names result s) (hfree : name ∉ t.resolving) :
    t.After (name :: names) result (s.finish name result) := by
  have hback : (t.resolving ++ [name]).filter (· != name) = t.resolving := filter_resolving hfree
  cases result with
  | error e =>
    obtain rfl : s = t.mark name := h
    show { t with resolving := (t.resolving ++ [name]).filter (· != name) } = t
    rw [hback]
  | ok v =>
    obtain ⟨hresolving, hget⟩ := h
    refine ⟨?_, ?_⟩
    · rw [resolving_finish, hresolving, resolving_mark, hback]
    · intro other
      have hsame : (t.mark name).get? other = t.get? other := rfl
      rw [VariableTable.finish, get?_resolve, hget, hsame]
      cases t.get? other with
      | none => rfl
      | some b =>
        cases b with
        | literal v => rfl
        | deferred c memo => by_cases hother : other = name <;> simp [hother]

end VariableTable

section Reading

variable {σ : Type} {t : VariableTable} {name : String} {c : Call}

namespace Context

variable (ctx : Context σ)

theorem run_read_of_pending (hget : t.get? name = some (.deferred c none))
    (hfree : name ∉ t.resolving) (random : σ) :
    (ctx.read name).run.run ⟨t, random⟩ =
      let ended := (ctx.evaluate c).run.run ⟨t.mark name, random⟩
      (ended.1, { ended.2 with table := ended.2.table.finish name ended.1 }) := by
  have hlookup : t.lookup name = (.ok (.pending c), t.mark name) := by
    simp [VariableTable.lookup, hget, hfree, VariableTable.mark]
  rw [run_read, hlookup]
  dsimp only
  generalize (ctx.evaluate c).run.run _ = ended
  obtain ⟨result, after⟩ := ended
  cases result <;> rfl

/-- A variable that is not pending, or is being resolved, is read from the table as it is. -/
theorem run_read_of_ending
    (h : ∀ c memo, t.get? name = some (.deferred c memo) → memo = none ∧ name ∈ t.resolving)
    (random : σ) : (ctx.read name).run.run ⟨t, random⟩ = (t.ending name, ⟨t, random⟩) := by
  rw [run_read, VariableTable.lookup, VariableTable.ending]
  cases hget : t.get? name with
  | none => rfl
  | some b =>
    cases b with
    | literal v => rfl
    | deferred c memo =>
      obtain ⟨rfl, hmarked⟩ := h c memo hget
      simp [hmarked]

/-- An argument that is the name of a variable is this name. -/
theorem textArgument_of_name (hname : IsVariableName name) {index : Nat} {parameter : String}
    (h : c.argument? index parameter = some (.text name)) :
    ctx.textArgument c index parameter = pure name := by
  have hvalue : ctx.evaluateParam (.text name) = pure (.text name) := by
    rw [evaluateParam, hname.not_occursIn, if_neg Bool.false_ne_true]
  have hsome : ctx.argument? c index parameter = pure (some (.text name)) := by
    rw [argument?, h]
    simp [hvalue]
  rw [textArgument, argument, hsome]
  simp only [pure_bind, Value.render, hname.trim_eq, hname.isEmpty_eq_false, Bool.false_eq_true,
    if_false]

/-- A text that is a single call comes to the text of its value. -/
theorem run_resolve_of_call {text : String} (h : Call.segment text = .ok ⟨[], [(c, [])]⟩)
    (w : World σ) : (ctx.resolve text).run.run w =
      (((ctx.evaluate c).run.run w).1.map Value.render, ((ctx.evaluate c).run.run w).2) := by
  have hresolve : ctx.resolve text = (do return (← ctx.evaluate c).render) := by
    rw [resolve, h]
    simp [Eval.ofCall, Segmented.render]
  rw [hresolve, Eval.run_bind]
  cases (ctx.evaluate c).run.run w with
  | mk result after => cases result <;> rfl

end Context

open FunctionRegistry (maxDepth)

variable [RandomSource σ] (words : WordLibrary)

theorem FunctionRegistry.find?_var {called : String} (h : Text.asciiLower called = "var") :
    (builtin : FunctionRegistry σ).find? called = some Builtin.var := by
  have hfound := get?_registerAll (r := ({} : FunctionRegistry σ)) (fun _ _ => rfl)
    Builtin.nodup_functions Builtin.var (by simp [Builtin.functions])
  have hkey : Text.asciiLower (Builtin.var : ScriptFunction σ).name = "var" := by
    show Text.asciiLower "var" = "var"
    decide +kernel
  rw [find?, h, ← hkey]
  exact hfound

/-- Evaluating a call that reads a variable is reading it with one level less. -/
theorem FunctionRegistry.evaluateWithin_of_reads (h : c.reads? = some name)
    (hname : IsVariableName name) (levels : Nat) :
    (builtin : FunctionRegistry σ).evaluateWithin words (levels + 1) c =
      (⟨words, builtin.evaluateWithin words levels⟩ : Context σ).read name := by
  rw [Call.reads?] at h
  split at h
  · rename_i hvar
    obtain ⟨p, hargument, hp⟩ := Option.bind_eq_some_iff.1 h
    have htext : p = .text name := by
      cases p with
      | text s => exact congrArg Param.text (Option.some.inj hp)
      | _ => cases hp
    rw [htext] at hargument
    rw [evaluateWithin, find?_var (eq_of_beq hvar)]
    show (do
      let name ← Context.textArgument _ c 0 "name"
      Context.read _ name) = _
    rw [Context.textArgument_of_name _ hname hargument, pure_bind]
  · cases h

variable {n : Nat}

/-- Reading a variable of the chain follows it to its end, unless the levels of nesting run out. The
induction is on the variables that are left of the chain. -/
theorem VariableTable.Chained.run_read (h : t.Chained) (hend : t.EndsAt name n) (random : σ)
    {left i : Nat} (levels : Nat) (hleft : i + left = n) :
    let marked := { t with resolving := (List.range i).map (t.chain name) }
    let result := if left ≤ levels then t.ending (t.chain name n) else .error (.tooDeep maxDepth)
    let ctx : Context σ := ⟨words, FunctionRegistry.builtin.evaluateWithin words levels⟩
    ∃ after, (ctx.read (t.chain name i)).run.run ⟨marked, random⟩ = (result, ⟨after, random⟩) ∧
      marked.After ((List.range' i left).map (t.chain name)) result after := by
  induction left generalizing i levels with
  | zero =>
    intro marked result ctx
    obtain rfl : i = n := hleft
    have hstop : ∀ c memo, marked.get? (t.chain name i) = some (.deferred c memo) →
        memo = none ∧ t.chain name i ∈ marked.resolving := by
      intro c memo hget
      refine ⟨(h.reads _ c memo hget).1, ?_⟩
      rcases hend.1 with hnone | ⟨v, hliteral⟩ | ⟨j, hj, heq⟩
      · cases hnone.symm.trans hget
      · cases hliteral.symm.trans hget
      · exact List.mem_map.2 ⟨j, List.mem_range.2 hj, heq⟩
    have hresult : result = t.ending (t.chain name i) := if_pos (Nat.zero_le _)
    refine ⟨marked, ?_, .same marked result⟩
    rw [hresult]
    exact Context.run_read_of_ending _ hstop random
  | succ left ih =>
    intro marked result ctx
    obtain ⟨⟨c, hget, hreads⟩, hnext, hnew⟩ := h.pending hend (by omega : i < n)
    have hmark : marked.mark (t.chain name i) =
        { t with resolving := (List.range (i + 1)).map (t.chain name) } := by
      simp [marked, mark, List.range_succ]
    have hpending : marked.get? (t.chain name i) = some (.deferred c none) := hget
    rw [List.range'_succ, List.map_cons, ctx.run_read_of_pending hpending hnew random, hmark]
    cases levels with
    | zero =>
      -- The call is not evaluated, and the variable is unmarked again.
      have hresult : result = .error (.tooDeep maxDepth) := if_neg (Nat.not_succ_le_zero _)
      have hafter : (marked.mark (t.chain name i)).After ((List.range' (i + 1) left).map
          (t.chain name)) (.error (.tooDeep maxDepth)) (marked.mark (t.chain name i)) := rfl
      rw [hresult, ← hmark]
      exact ⟨_, rfl, hafter.finish hnew⟩
    | succ levels =>
      -- The variable stays marked while the rest of the chain is followed.
      obtain ⟨after, hrun, hafter⟩ := ih levels (by omega : i + 1 + left = n)
      have hresult : result = if left ≤ levels then t.ending (t.chain name n)
          else .error (.tooDeep maxDepth) := by
        simp only [result, Nat.succ_le_succ_iff]
      have hevaluate := FunctionRegistry.evaluateWithin_of_reads (σ := σ) words hreads hnext levels
      dsimp only [ctx]
      rw [hevaluate, hrun, hresult]
      rw [← hmark] at hafter
      exact ⟨_, rfl, hafter.finish hnew⟩

/-- Resolving a text that reads the first variable of the chain. -/
theorem VariableTable.Chained.run_resolve (h : t.Chained) (hend : t.EndsAt name n)
    (hname : IsVariableName name) (random : σ) :
    let result := if n + 1 ≤ maxDepth then t.ending (t.chain name n) else .error (.tooDeep maxDepth)
    ∃ after, ((FunctionRegistry.builtin.context words).resolve ("@var(" ++ name ++ ")")).run.run
        ⟨t, random⟩ = (result.map Value.render, ⟨after, random⟩) ∧
      t.After ((List.range n).map (t.chain name)) result after := by
  intro result
  have hfirst : ({ t with resolving := (List.range 0).map (t.chain name) } : VariableTable) =
      t := by
    show ({ t with resolving := [] } : VariableTable) = t
    rw [← h.idle]
  -- The call of the text itself takes one of the levels.
  obtain ⟨levels, hlevels⟩ := Nat.exists_eq_succ_of_ne_zero (by decide : maxDepth ≠ 0)
  obtain ⟨after, hrun, hafter⟩ := h.run_read words hend random levels (Nat.zero_add n)
  rw [hfirst, ← List.range_eq_range'] at hafter
  rw [hfirst, VariableTable.chain] at hrun
  have hsource : "@var(" ++ name ++ ")" = (Call.ofName "var" name).source := by
    simp [Call.ofName]
  have hsegment := Call.segment_ofName (by decide : isIdentifier "var".toList = true) hname
  have hevaluate := FunctionRegistry.evaluateWithin_of_reads (σ := σ) words
    (Call.reads?_ofName name) hname levels
  rw [hsource, Context.run_resolve_of_call _ hsegment, FunctionRegistry.context, hlevels]
  dsimp only
  rw [hevaluate, hrun]
  have hresult : result = if n ≤ levels then t.ending (t.chain name n)
      else .error (.tooDeep maxDepth) := by
    simp only [result, Nat.succ_le_iff, Nat.lt_succ_iff, hlevels]
  rw [hresult]
  exact ⟨after, rfl, hafter⟩

/-- Reading a variable in a table of literals and of calls that read variables. The chain from the
variable ends. If it ends in reach of the levels of nesting, a literal is the value and is kept for
all variables on the way, and the error tells a variable without a binding, or the one to which the
chain comes back. Else the error is that calls are nested too deep. An error changes nothing. -/
theorem FunctionRegistry.resolve_var_chain (h : t.Chained) (hname : IsVariableName name)
    (random : σ) :
    let resolved := ((builtin.context words).resolve ("@var(" ++ name ++ ")")).run.run ⟨t, random⟩
    (∃ n, t.EndsAt name n) ∧ ∀ n, t.EndsAt name n →
      let last := t.chain name n
      (n + 1 ≤ maxDepth →
        (t.get? last = none → resolved = (.error (.undefinedVariable last), ⟨t, random⟩)) ∧
        (∀ v, t.get? last = some (.literal v) → ∃ after,
          resolved = (.ok v.render, ⟨after, random⟩) ∧ after.resolving = [] ∧
            ∀ other, after.get? other = match t.get? other with
              | some (.deferred c memo) => some (.deferred c
                  (if other ∈ (List.range n).map (t.chain name) then some v else memo))
              | found => found) ∧
        ((∃ i < n, t.chain name i = last) →
          resolved = (.error (.circularVariable last), ⟨t, random⟩))) ∧
      (maxDepth < n + 1 → resolved = (.error (.tooDeep maxDepth), ⟨t, random⟩)) := by
  intro resolved
  refine ⟨t.exists_endsAt name, ?_⟩
  intro n hend last
  obtain ⟨after, hrun, hafter⟩ := h.run_resolve words hend hname random
  have hresolved : resolved = _ := hrun
  by_cases hlevels : n + 1 ≤ maxDepth
  · rw [if_pos hlevels] at hresolved hafter
    have herror : ∀ e, t.ending last = .error e → resolved = (.error e, ⟨t, random⟩) := by
      intro e he
      rw [he] at hresolved hafter
      obtain rfl : after = t := hafter
      exact hresolved
    refine ⟨fun _ => ⟨?_, ?_, ?_⟩, fun hdeep => absurd hlevels (Nat.not_le.2 hdeep)⟩
    · intro hnone
      apply herror
      rw [VariableTable.ending, hnone]
    · intro v hliteral
      have hending : t.ending last = .ok v := by
        rw [VariableTable.ending, hliteral]
      rw [hending] at hresolved hafter
      obtain ⟨hresolving, hget⟩ := hafter
      exact ⟨after, hresolved, hresolving.trans h.idle, hget⟩
    · rintro ⟨i, hi, hcircle⟩
      obtain ⟨⟨c, hget, -⟩, -, -⟩ := h.pending hend hi
      apply herror
      rw [VariableTable.ending, ← hcircle, hget]
  · rw [if_neg hlevels] at hresolved hafter
    refine ⟨fun hfew => absurd hfew hlevels, ?_⟩
    intro _
    obtain rfl : after = t := hafter
    exact hresolved

end Reading

/-- A variable that leads to two others, which stand for each other. -/
def VariableTable.looped : VariableTable where
  bindings := [("x", .deferred (.ofName "var" "y") none), ("y", .deferred (.ofName "var" "z") none),
    ("z", .deferred (.ofName "var" "y") none)]

theorem FunctionRegistry.resolve_var_looped :
    VariableTable.looped.Chained ∧ IsVariableName "x" ∧ VariableTable.looped.EndsAt "x" 3 ∧
      ((builtin.context {}).resolve "@var(x)").run.run ⟨.looped, (⟨[], 0⟩ : Draws)⟩ =
        (.error (.circularVariable "y"), ⟨.looped, ⟨[], 0⟩⟩) := by
  have hchained : VariableTable.looped.Chained := by
    refine ⟨rfl, ?_⟩
    intro name c memo hget
    have hmem : (name, Binding.deferred c memo) ∈ VariableTable.looped.bindings := by
      obtain ⟨before, after, hbindings, -⟩ := List.lookup_eq_some_iff.1 hget
      simp [hbindings]
    simp only [VariableTable.looped, List.mem_cons, Prod.mk.injEq, Binding.deferred.injEq,
      List.not_mem_nil, or_false] at hmem
    obtain ⟨-, rfl, rfl⟩ | ⟨-, rfl, rfl⟩ | ⟨-, rfl, rfl⟩ := hmem
    · exact ⟨rfl, "y", Call.reads?_ofName _, by decide, by decide, by decide⟩
    · exact ⟨rfl, "z", Call.reads?_ofName _, by decide, by decide, by decide⟩
    · exact ⟨rfl, "y", Call.reads?_ofName _, by decide, by decide, by decide⟩
  have hname : IsVariableName "x" := ⟨by decide, by decide, by decide⟩
  have hpending : ∀ m < 3, ∃ c,
      VariableTable.looped.get? (VariableTable.looped.chain "x" m) = some (.deferred c none) := by
    intro m hm
    interval_cases m
    · exact ⟨_, rfl⟩
    · exact ⟨_, rfl⟩
    · exact ⟨_, rfl⟩
  have hnew : ∀ m < 3, ∀ i < m,
      VariableTable.looped.chain "x" i ≠ VariableTable.looped.chain "x" m := by decide +kernel
  have hback : VariableTable.looped.chain "x" 1 = VariableTable.looped.chain "x" 3 := by
    decide +kernel
  have hend : VariableTable.looped.EndsAt "x" 3 := by
    refine ⟨Or.inr (Or.inr ⟨1, by decide, hback⟩), ?_⟩
    intro m hm hstop
    obtain ⟨c, hget⟩ := hpending m hm
    rcases hstop with hnone | ⟨v, hliteral⟩ | ⟨i, hi, heq⟩
    · cases hnone.symm.trans hget
    · cases hliteral.symm.trans hget
    · exact hnew m hm i hi heq
  obtain ⟨-, hends⟩ := resolve_var_chain {} hchained hname (⟨[], 0⟩ : Draws)
  obtain ⟨-, -, hcircle⟩ := (hends 3 hend).1 (by decide)
  exact ⟨hchained, hname, hend, hcircle ⟨1, by decide, hback⟩⟩

end Worksheet
