import Worksheet.Eval.Context

namespace Worksheet

namespace Eval

variable {σ α β : Type}

/-- After a failure nothing else is evaluated. -/
theorem run_bind (x : Eval σ α) (f : α → Eval σ β) (w : World σ) :
    (x >>= f).run.run w = match x.run.run w with
      | (.ok a, between) => (f a).run.run between
      | (.error e, between) => (.error e, between) := by
  show (ExceptT.bindCont f (x.run.run w).1).run (x.run.run w).2 = _
  cases x.run.run w with
  | mk result between => cases result <;> rfl

/-- What an evaluation in two steps comes to if it does not fail. -/
theorem run_bind_eq_ok {x : Eval σ α} {f : α → Eval σ β} {b : β} {w w' : World σ} :
    (x >>= f).run.run w = (.ok b, w') ↔
      ∃ a between, x.run.run w = (.ok a, between) ∧ (f a).run.run between = (.ok b, w') := by
  rw [run_bind]
  cases x.run.run w with
  | mk result between =>
    cases result with
    | error e =>
      constructor
      · intro h
        cases (Prod.mk.inj h).1
      · rintro ⟨_, _, h, -⟩
        cases (Prod.mk.inj h).1
    | ok a =>
      constructor
      · intro h
        exact ⟨a, between, rfl, h⟩
      · rintro ⟨_, _, h, hrest⟩
        obtain ⟨ha, rfl⟩ := Prod.mk.inj h
        obtain rfl := Except.ok.inj ha
        exact hrest

theorem run_pure_eq_ok {a b : α} {w w' : World σ} :
    (pure a : Eval σ α).run.run w = (.ok b, w') ↔ a = b ∧ w = w' := by
  constructor
  · intro h
    obtain ⟨hvalue, hworld⟩ := Prod.mk.inj h
    exact ⟨Except.ok.inj hvalue, hworld⟩
  · rintro ⟨rfl, rfl⟩
    rfl

theorem run_modifyGet (f : World σ → α × World σ) (w : World σ) :
    (modifyGet f : Eval σ α).run.run w = (.ok (f w).1, (f w).2) := rfl

/-- The changes of what failed last. -/
theorem run_tryCatch (x : Eval σ α) (f : EvalError → Eval σ α) (w : World σ) :
    (tryCatch x f).run.run w = match x.run.run w with
      | (.ok a, after) => (.ok a, after)
      | (.error e, after) => (f e).run.run after := by
  simp only [tryCatch, tryCatchThe, MonadExceptOf.tryCatch, ExceptT.tryCatch, ExceptT.run_mk,
    StateT.run_bind]
  cases h : x.run.run w with
  | mk result after =>
    have hx : StateT.run x w = (result, after) := h
    rw [hx]
    cases result <;> rfl

end Eval

/-- Reading a variable looks it up and, if it is pending, evaluates its call. -/
theorem Context.run_read {σ : Type} (ctx : Context σ) (name : String) (w : World σ) :
    (ctx.read name).run.run w = match w.table.lookup name with
      | (.error e, table) => (.error e, { w with table })
      | (.ok (.ready v), table) => (.ok v, { w with table })
      | (.ok (.pending call), table) =>
        match (ctx.evaluate call).run.run { w with table } with
        | (.ok v, after) => (.ok v, { after with table := after.table.resolve name v })
        | (.error e, after) => (.error e, { after with table := after.table.abandon name }) := by
  rw [read, Eval.run_bind, Eval.run_modifyGet]
  dsimp only
  cases w.table.lookup name with
  | mk found table =>
    cases found with
    | error e => rfl
    | ok found =>
      cases found with
      | ready v => rfl
      | pending call =>
        dsimp only
        rw [Eval.run_tryCatch, Eval.run_bind]
        cases (ctx.evaluate call).run.run { w with table } with
        | mk result after => cases result <;> rfl

end Worksheet
