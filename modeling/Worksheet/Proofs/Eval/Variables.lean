import Worksheet.Proofs.Eval.Run

namespace Worksheet

namespace VariableTable

/-- A variable is marked as being resolved. -/
def mark (t : VariableTable) (name : String) : VariableTable :=
  { t with resolving := t.resolving ++ [name] }

/-- The reading of a variable ends with a value or with an error. -/
def finish (t : VariableTable) (name : String) : Except EvalError Value → VariableTable
  | .ok value => t.resolve name value
  | .error _ => t.abandon name

/-- Either the table stays as it is, and a value that is found is known to it, or the variable is
pending and is marked. -/
theorem lookup_cases (t : VariableTable) (name : String) :
    (∃ result : Except EvalError Value, t.lookup name = (result.map .ready, t) ∧
      ∀ v, result = .ok v → ∃ b, t.get? name = some b ∧ b.value? = some v) ∨
      ∃ call, t.get? name = some (.deferred call none) ∧ name ∉ t.resolving ∧
        t.lookup name = (.ok (.pending call), t.mark name) := by
  have hknown : ∀ b v, t.get? name = some b → b.value? = some v →
      ∀ v', (.ok v : Except EvalError Value) = .ok v' →
        ∃ b, t.get? name = some b ∧ b.value? = some v' := by
    intro b v hget hvalue v' he
    cases he
    exact ⟨b, hget, hvalue⟩
  rw [lookup]
  split
  · exact Or.inl ⟨.error (.undefinedVariable name), rfl, by simp⟩
  · rename_i v hget
    exact Or.inl ⟨.ok v, rfl, hknown _ v hget rfl⟩
  · rename_i call v hget
    exact Or.inl ⟨.ok v, rfl, hknown _ v hget rfl⟩
  · rename_i call hget
    split
    · exact Or.inl ⟨.error (.circularVariable name), rfl, by simp⟩
    · rename_i hfree
      exact Or.inr ⟨call, hget, by simpa using hfree, rfl⟩

@[simp] theorem resolving_define (t : VariableTable) (name : String) (value : Value) :
    (t.define name value).resolving = t.resolving := rfl

@[simp] theorem resolving_defer (t : VariableTable) (name : String) (call : Call) :
    (t.defer name call).resolving = t.resolving := rfl

@[simp] theorem resolving_mark (t : VariableTable) (name : String) :
    (t.mark name).resolving = t.resolving ++ [name] := rfl

@[simp] theorem resolving_finish (t : VariableTable) (name : String)
    (result : Except EvalError Value) :
    (t.finish name result).resolving = t.resolving.filter (· != name) := by
  cases result with
  | error e => rfl
  | ok value =>
    rw [finish, resolve]
    split <;> rfl

/-- What is marked last is all that is unmarked. -/
theorem filter_resolving {names : List String} {name : String} (h : name ∉ names) :
    (names ++ [name]).filter (· != name) = names := by
  have hkept : names.filter (· != name) = names := by
    rw [List.filter_eq_self]
    intro other hother
    have hne : other ≠ name := by
      rintro rfl
      exact h hother
    simpa using hne
  rw [List.filter_append, hkept]
  simp

theorem lookup_bind (name other : String) (b : Binding) (bindings : List (String × Binding)) :
    (bind name b bindings).lookup other =
      if other = name then some b else bindings.lookup other := by
  induction bindings with
  | nil =>
    rw [bind, List.lookup_cons]
    cases hname : other == name <;> simp_all
  | cons first rest ih =>
    obtain ⟨key, old⟩ := first
    by_cases hkey : key = name
    · subst hkey
      have hbind : bind key b ((key, old) :: rest) = (key, b) :: rest := by simp [bind]
      rw [hbind, List.lookup_cons, List.lookup_cons]
      cases hname : other == key <;> simp_all
    · have hbind : bind name b ((key, old) :: rest) = (key, old) :: bind name b rest := by
        simp [bind, hkey]
      rw [hbind, List.lookup_cons, List.lookup_cons, ih]
      cases hother : other == key <;> simp_all

theorem get?_define (t : VariableTable) (name : String) (value : Value) (other : String) :
    (t.define name value).get? other =
      if other = name then some (.literal value) else t.get? other :=
  lookup_bind name other (.literal value) t.bindings

theorem get?_defer (t : VariableTable) (name : String) (call : Call) (other : String) :
    (t.defer name call).get? other =
      if other = name then some (.deferred call none) else t.get? other :=
  lookup_bind name other (.deferred call none) t.bindings

theorem get?_resolve (t : VariableTable) (name : String) (value : Value) (other : String) :
    (t.resolve name value).get? other =
      match t.get? other with
      | some (.deferred call memo) =>
        some (.deferred call (if other = name then some value else memo))
      | found => found := by
  rw [resolve]
  split
  · rename_i call memo hname
    have hbind : VariableTable.get? { t.abandon name with
        bindings := bind name (.deferred call (some value)) t.bindings } other =
          if other = name then some (.deferred call (some value)) else t.get? other :=
      lookup_bind name other _ t.bindings
    rw [hbind]
    by_cases hother : other = name
    · subst hother
      rw [if_pos rfl, hname]
      simp
    · simp only [hother, if_false]
      cases t.get? other with
      | none => rfl
      | some b => cases b <;> rfl
  · rename_i hname
    show t.get? other = _
    cases hget : t.get? other with
    | none => rfl
    | some b =>
      cases b with
      | literal v => rfl
      | deferred call memo =>
        have hother : other ≠ name := by
          rintro rfl
          exact hname call memo hget
        simp [hother]

end VariableTable

namespace Context

/-- Either a variable is read from the table, which stays as it is, or the variable is marked, its
call is evaluated, and the reading ends. -/
theorem read_cases (t : VariableTable) (name : String) :
    (∃ result : Except EvalError Value,
      (∀ v, result = .ok v → ∃ b, t.get? name = some b ∧ b.value? = some v) ∧
        ∀ {σ : Type} (c : Context σ) (random : σ),
          (c.read name).run.run ⟨t, random⟩ = (result, ⟨t, random⟩)) ∨
      ∃ call, t.get? name = some (.deferred call none) ∧ name ∉ t.resolving ∧
        ∀ {σ : Type} (c : Context σ) (random : σ),
          let ended := (c.evaluate call).run.run ⟨t.mark name, random⟩
          (c.read name).run.run ⟨t, random⟩ =
            (ended.1, { ended.2 with table := ended.2.table.finish name ended.1 }) := by
  rcases t.lookup_cases name with ⟨result, hfound, hknown⟩ | ⟨call, hpending, hfree, hfound⟩
  · refine Or.inl ⟨result, hknown, ?_⟩
    intro σ c random
    rw [run_read, hfound]
    cases result <;> rfl
  · refine Or.inr ⟨call, hpending, hfree, ?_⟩
    intro σ c random
    rw [run_read, hfound]
    dsimp only
    generalize (c.evaluate call).run.run _ = ended
    obtain ⟨result, after⟩ := ended
    cases result <;> rfl

/-- What a read returns is what is kept for the variable if it is a deferred one. -/
theorem memo_of_read {σ : Type} {c : Context σ} {name : String} {w after : World σ} {v : Value}
    (h : (c.read name).run.run w = (.ok v, after)) {call : Call} {memo : Option Value}
    (hget : after.table.get? name = some (.deferred call memo)) : memo = some v := by
  rcases read_cases w.table name with ⟨result, hknown, hrun⟩ | ⟨pending, -, -, hrun⟩
  · obtain ⟨hresult, rfl⟩ := Prod.mk.inj ((hrun c w.random).symm.trans h)
    obtain ⟨b, hb, hvalue⟩ := hknown v hresult
    obtain rfl := Option.some.inj (hb.symm.trans hget)
    exact hvalue
  · obtain ⟨hresult, rfl⟩ := Prod.mk.inj ((hrun c w.random).symm.trans h)
    rw [hresult] at hget
    dsimp only [VariableTable.finish] at hget
    rw [VariableTable.get?_resolve] at hget
    split at hget
    · cases hget
      rw [if_pos rfl]
    · rename_i hother
      exact absurd hget (hother call memo)

end Context

end Worksheet
