import Worksheet.Proofs.Checked.Marker
import Worksheet.Proofs.Eval.Run

namespace Worksheet.Checked

open Chars (size)

variable {σ α β γ : Type}

/-- An evaluation that counts the calls which are being evaluated. -/
abbrev Eval (σ : Type) := ExceptT EvalError (StateM (World σ × Nat))

/-- An evaluation by itself does not change the count. -/
def steady (x : Worksheet.Eval σ α) : OptionT (Eval σ) α :=
  OptionT.mk fun s => ((x.run.run s.1).1.map some, (x.run.run s.1).2, s.2)

def ofCall (c : OptionT (Except CallError) α) : OptionT (Eval σ) α :=
  OptionT.mk fun s => match c.run with
    | .ok found => (.ok found, s)
    | .error e => (.error (.call e), s)

def choose (c : OptionT (StateM σ) α) : OptionT (Eval σ) α :=
  OptionT.mk fun s => (.ok (c.run s.1.random).1, { s.1 with random := (c.run s.1.random).2 }, s.2)

/-- The count of the calls which are being evaluated. -/
def entered : OptionT (Eval σ) Nat :=
  OptionT.mk fun s => (.ok (some s.2), s)

def setEntered (depth : Nat) : OptionT (Eval σ) Unit :=
  OptionT.mk fun s => (.ok (some ()), s.1, depth)

/-- The result of an evaluation, be it a fault or not. -/
def attempt (c : OptionT (Eval σ) α) : OptionT (Eval σ) (Except EvalError α) :=
  OptionT.mk fun s => match c.run.run.run s with
    | (.ok found, s) => (.ok (found.map .ok), s)
    | (.error e, s) => (.ok (some (.error e)), s)

/-- From every world at a depth the evaluation makes no failing access. It does what the second one
does, and ends at the same depth. -/
def SafeAt (depth : Nat) (c : OptionT (Eval σ) α) (x : Worksheet.Eval σ α) : Prop :=
  ∀ w, c.run.run.run (w, depth) = ((x.run.run w).1.map some, (x.run.run w).2, depth)

theorem run_bind (c : OptionT (Eval σ) α) (f : α → OptionT (Eval σ) β) (s : World σ × Nat) :
    (c >>= f).run.run.run s = match c.run.run.run s with
      | (.ok (some a), between) => (f a).run.run.run between
      | (.ok none, between) => (.ok none, between)
      | (.error e, between) => (.error e, between) := by
  rw [OptionT.run_bind]
  show StateT.run (ExceptT.bindCont _ (c.run.run.run s).1) (c.run.run.run s).2 = _
  cases c.run.run.run s with
  | mk result between =>
    cases result with
    | error e => rfl
    | ok found => cases found <;> rfl

theorem run_attempt (c : OptionT (Eval σ) α) (s : World σ × Nat) :
    (attempt c).run.run.run s = match c.run.run.run s with
      | (.ok found, s) => (.ok (found.map .ok), s)
      | (.error e, s) => (.ok (some (.error e)), s) := rfl

namespace SafeAt

variable {depth : Nat}

theorem ok (a : α) : SafeAt depth (pure a : OptionT (Eval σ) α) (pure a) := fun _ => rfl

theorem steady (x : Worksheet.Eval σ α) : SafeAt depth (steady x) x := fun _ => rfl

theorem ofCall {c : OptionT (Except CallError) α} {x : Except CallError α} (h : Safe c x) :
    SafeAt depth (ofCall c : OptionT (Eval σ) α) (Eval.ofCall x) := by
  intro w
  have hrun : c.run = some <$> x := h
  rw [Checked.ofCall, OptionT.run_mk, hrun]
  cases x <;> rfl

theorem choose {c : OptionT (StateM σ) α} {f : σ → α × σ} (h : Safe c (f : StateM σ α)) :
    SafeAt depth (choose c) (Eval.choose f) := by
  intro w
  have hrun : c.run w.random = (some (f w.random).1, (f w.random).2) := congrFun h w.random
  show ((Except.ok (c.run w.random).1 : Except EvalError (Option α)),
    { w with random := (c.run w.random).2 }, depth) = _
  rw [hrun]
  rfl

/-- An evaluation goes on with what it came to. -/
theorem bind {c : OptionT (Eval σ) α} {x : Worksheet.Eval σ α} {f : α → OptionT (Eval σ) β}
    {g : α → Worksheet.Eval σ β} (hc : SafeAt depth c x)
    (hf : ∀ a w w', x.run.run w = (.ok a, w') → SafeAt depth (f a) (g a)) :
    SafeAt depth (c >>= f) (x >>= g) := by
  intro w
  rw [Checked.run_bind, hc, Eval.run_bind]
  cases hx : x.run.run w with
  | mk result between =>
    cases result with
    | error e => rfl
    | ok a => exact hf a w between hx between

theorem next {c : OptionT (Eval σ) α} {x : Worksheet.Eval σ α} {f : α → OptionT (Eval σ) β}
    {g : α → Worksheet.Eval σ β} (hc : SafeAt depth c x) (hf : ∀ a, SafeAt depth (f a) (g a)) :
    SafeAt depth (c >>= f) (x >>= g) :=
  hc.bind fun a _ _ _ => hf a

theorem after {result : Option α} {a : α} {f : α → OptionT (Eval σ) β} {x : Worksheet.Eval σ β}
    (h : SafeAt depth (f a) x) (hresult : result = some a) :
    SafeAt depth (access result >>= f) x := by
  subst hresult
  exact h

/-- What is made of the calls of a text, given how they stand in it. -/
theorem ofCall_bind {c : OptionT (Except CallError) β} {x : Except CallError α} {h : α → β}
    {f : β → OptionT (Eval σ) γ} {g : α → Worksheet.Eval σ γ} (hc : Safe c (x.map h))
    (hf : ∀ a, x = .ok a → SafeAt depth (f (h a)) (g a)) :
    SafeAt depth (Checked.ofCall c >>= f) (Eval.ofCall x >>= g) := by
  intro w
  have hrun : c.run = some <$> x.map h := hc
  rw [Checked.run_bind, Checked.ofCall, OptionT.run_mk, hrun]
  cases x with
  | error e => rfl
  | ok a => exact hf a rfl w

theorem mapM {f : α → OptionT (Eval σ) β} {g : α → Worksheet.Eval σ β}
    (h : ∀ a, SafeAt depth (f a) (g a)) (xs : List α) : SafeAt depth (xs.mapM f) (xs.mapM g) := by
  induction xs with
  | nil => exact ok []
  | cons x xs ih =>
    rw [List.mapM_cons, List.mapM_cons]
    exact (h x).next fun b => ih.next fun bs => ok (b :: bs)

/-- What is done with the result of an evaluation, be it a fault or not. -/
theorem run_attempt_bind {c : OptionT (Eval σ) α} {x : Worksheet.Eval σ α} (hc : SafeAt depth c x)
    (f : Except EvalError α → OptionT (Eval σ) β) (w : World σ) :
    (attempt c >>= f).run.run.run (w, depth) =
      (f (x.run.run w).1).run.run.run ((x.run.run w).2, depth) := by
  rw [Checked.run_bind, run_attempt, hc]
  cases x.run.run w with
  | mk result between => cases result <;> rfl

end SafeAt

/-- What a function may use. -/
structure Context (σ : Type) where
  words : WordLibrary
  evaluate : Call → OptionT (Eval σ) Value

/-- Puts texts in the place of calls, from the last call to the first. -/
def spliceAll (text : List Char) : List (Call × List Char) → Option (List Char)
  | [] => some text
  | (call, value) :: rest => do splice (← spliceAll text rest) call.span value

namespace Context

variable (ctx : Context σ)

def resolve (text : String) : OptionT (Eval σ) String := do
  let calls ← ofCall (findMarked text)
  if calls.isEmpty then return text
  else
    let values ← calls.mapM fun call => do return (← ctx.evaluate call).render.toList
    return String.ofList (← access (spliceAll text.toList (calls.zip values)))

mutual

def evaluateParam : Param → OptionT (Eval σ) Value
  | .call c => ctx.evaluate c
  | .text s => do
    if ← access (opensCall s.toList) then return .text (← ctx.resolve s)
    else return .text s
  | .list items => do return .list (← evaluateParams items)
  | other => return Value.ofParam other

def evaluateParams : List Param → OptionT (Eval σ) (List Value)
  | [] => return []
  | p :: ps => do
    let v ← evaluateParam p
    return v :: (← evaluateParams ps)

end

def argument? (call : Call) (index : Nat) (name : String) : OptionT (Eval σ) (Option Value) :=
  match call.argument? index name with
  | some p => do return some (← ctx.evaluateParam p)
  | none => return none

def argument (call : Call) (index : Nat) (name : String) : OptionT (Eval σ) Value := do
  match ← ctx.argument? call index name with
  | some v => return v
  | none => steady (Eval.invalid call.name (.missing name))

def textArgument (call : Call) (index : Nat) (name : String) : OptionT (Eval σ) String := do
  let text := Text.trim (← ctx.argument call index name).render
  if text.isEmpty then steady (Eval.invalid call.name (.blank name)) else return text

def countArgument (call : Call) (index : Nat) (name : String) : OptionT (Eval σ) Nat := do
  match ← ctx.argument? call index name with
  | none => return 1
  | some v =>
    match Context.count? v with
    | some n => return n
    | none => steady (Eval.invalid call.name (.notCount name v.render))

/-- The value of a variable. A call that it stands for is evaluated and its value is kept. -/
def read (name : String) : OptionT (Eval σ) Value := do
  let found ← steady (modifyGet fun w =>
    ((w.table.lookup name).1, { w with table := (w.table.lookup name).2 }))
  match found with
  | .error e => steady (throw e)
  | .ok (.ready v) => return v
  | .ok (.pending call) =>
    match ← attempt (ctx.evaluate call) with
    | .ok v =>
      steady (Eval.modifyTable (·.resolve name v))
      return v
    | .error e =>
      steady (Eval.modifyTable (·.abandon name))
      steady (throw e)

/-- From a depth the evaluation of calls makes no failing access. -/
structure SafeAt (depth : Nat) (plain : Worksheet.Context σ) : Prop where
  words : ctx.words = plain.words
  evaluate : ∀ call, Checked.SafeAt depth (ctx.evaluate call) (plain.evaluate call)

end Context

section Splicing

/-- The values of calls with the texts after them. -/
theorem mapM_zip (f : Call → Worksheet.Eval σ β) (calls : List (Call × List Char)) :
    (calls.mapM fun piece => do return (← f piece.1, piece.2)) =
      (do return ((← (calls.map (·.1)).mapM f).zip (calls.map (·.2)))) := by
  induction calls with
  | nil => rfl
  | cons piece rest ih =>
    rw [List.map_cons, List.map_cons, List.mapM_cons, List.mapM_cons, ih]
    simp only [bind_assoc, pure_bind]
    rfl

theorem length_of_mapM {f : α → Worksheet.Eval σ β} {xs : List α} {ys : List β} {w w' : World σ}
    (h : (xs.mapM f).run.run w = (.ok ys, w')) : ys.length = xs.length := by
  induction xs generalizing ys w w' with
  | nil =>
    obtain ⟨rfl, -⟩ := Eval.run_pure_eq_ok.1 h
    rfl
  | cons x xs ih =>
    rw [List.mapM_cons] at h
    obtain ⟨y, between, -, h⟩ := Eval.run_bind_eq_ok.1 h
    obtain ⟨rest, between', hrest, h⟩ := Eval.run_bind_eq_ok.1 h
    obtain ⟨rfl, -⟩ := Eval.run_pure_eq_ok.1 h
    rw [List.length_cons, List.length_cons, ih hrest]

/-- The places before a call are the same after later calls have been replaced. -/
theorem spliceAll_eq {text before : List Char} {calls : List (Call × List Char)}
    {values : List (List Char)} (hlength : values.length = calls.length)
    (htext : text = before ++ Placed.written (calls.map Call.placed))
    (hlaid : Placed.Laid (size before) (calls.map Call.placed)) :
    spliceAll text ((calls.map (·.1)).zip values) = some (before ++
      (values.zip (calls.map (·.2))).flatMap fun piece => piece.1 ++ piece.2) := by
  induction calls generalizing before values with
  | nil =>
    obtain rfl := List.eq_nil_of_length_eq_zero hlength
    rw [htext]
    rfl
  | cons c calls ih =>
    obtain ⟨call, after⟩ := c
    cases values with
    | nil => cases hlength
    | cons value values =>
      obtain ⟨hspan, hlaid⟩ := hlaid
      have hplace : call.span = ⟨size before, size before + size call.source.toList⟩ := hspan
      have hstop : call.span.stop + size after = size (before ++ call.source.toList ++ after) := by
        rw [hplace, Chars.size_append, Chars.size_append]
      have hwhole : text = (before ++ call.source.toList ++ after) ++
          Placed.written (calls.map Call.placed) := by
        simp [htext, Placed.written_cons, Call.placed]
      have hrest := ih (Nat.succ.inj hlength) hwhole (by rw [← hstop]; exact hlaid)
      rw [List.append_assoc before] at hrest
      have hsplice : ∀ rest,
          splice (before ++ (call.source.toList ++ after) ++ rest) call.span value =
          some (before ++ (value ++ after) ++ rest) := by
        intro rest
        have hparts : before ++ (call.source.toList ++ after) ++ rest =
            before ++ call.source.toList ++ (after ++ rest) := by simp
        rw [splice_append hparts (congrArg Span.start hplace) (congrArg Span.stop hplace)]
        simp
      show (spliceAll text ((calls.map (·.1)).zip values)).bind
        (fun rest => splice rest call.span value) = _
      rw [hrest, Option.bind_some, hsplice]
      simp

end Splicing

namespace Context.SafeAt

variable {depth : Nat} {ctx : Context σ} {plain : Worksheet.Context σ}

theorem resolve (h : ctx.SafeAt depth plain) (text : String) :
    Checked.SafeAt depth (ctx.resolve text) (plain.resolve text) := by
  refine SafeAt.ofCall_bind (findMarked_safe text) fun cut hcut => ?_
  obtain ⟨htext, hlaid⟩ := laid_of_segmentWith hcut
  by_cases hnone : cut.calls = []
  · have hwhole : String.ofList cut.before = text := by
      rw [hnone] at htext
      rw [← String.ofList_toList (s := text), htext]
      simp [Placed.written]
    rw [hnone]
    simp only [List.map_nil, List.isEmpty_nil, if_true, List.mapM_nil, pure_bind,
      Segmented.render, List.flatMap_nil, List.append_nil, hwhole]
    exact SafeAt.ok text
  · have hsome : (cut.calls.map (·.1)).isEmpty = false := by simpa using hnone
    have hvalue : ∀ call, Checked.SafeAt depth (do return (← ctx.evaluate call).render.toList)
        (do return (← plain.evaluate call).render.toList) :=
      fun call => (h.evaluate call).next fun v => SafeAt.ok v.render.toList
    have hmodel := mapM_zip (fun call => do return (← plain.evaluate call).render.toList) cut.calls
    simp only [bind_assoc, pure_bind] at hmodel
    rw [hsome, if_neg Bool.false_ne_true, hmodel]
    simp only [bind_assoc, pure_bind]
    refine (SafeAt.mapM hvalue _).bind fun values w w' hvalues => ?_
    have hlength := (length_of_mapM hvalues).trans (List.length_map _)
    refine SafeAt.after ?_ (spliceAll_eq hlength htext hlaid)
    exact SafeAt.ok _

mutual

theorem evaluateParam (h : ctx.SafeAt depth plain) (p : Param) :
    Checked.SafeAt depth (ctx.evaluateParam p) (plain.evaluateParam p) := by
  cases p with
  | call inner =>
    rw [Context.evaluateParam, Worksheet.Context.evaluateParam]
    exact h.evaluate inner
  | text s =>
    rw [Context.evaluateParam, Worksheet.Context.evaluateParam]
    refine SafeAt.after ?_ (opensCall_eq s.toList)
    rw [Call.occursIn]
    split
    · exact (h.resolve s).next fun text => .ok (Value.text text)
    · exact .ok (Value.text s)
  | list items =>
    rw [Context.evaluateParam, Worksheet.Context.evaluateParam]
    exact (evaluateParams h items).next fun vs => .ok (Value.list vs)
  | number n =>
    simp only [Context.evaluateParam, Worksheet.Context.evaluateParam]
    exact .ok (Value.number n)
  | bool b =>
    simp only [Context.evaluateParam, Worksheet.Context.evaluateParam]
    exact .ok (Value.bool b)
  | object entries =>
    simp only [Context.evaluateParam, Worksheet.Context.evaluateParam]
    exact .ok (Value.ofParam (.object entries))

theorem evaluateParams (h : ctx.SafeAt depth plain) (ps : List Param) :
    Checked.SafeAt depth (ctx.evaluateParams ps) (plain.evaluateParams ps) := by
  cases ps with
  | nil =>
    rw [Context.evaluateParams, Worksheet.Context.evaluateParams]
    exact .ok []
  | cons p ps =>
    rw [Context.evaluateParams, Worksheet.Context.evaluateParams]
    exact (evaluateParam h p).next fun v => (evaluateParams h ps).next fun vs => .ok (v :: vs)

end

theorem argument? (h : ctx.SafeAt depth plain) (call : Call) (index : Nat) (name : String) :
    Checked.SafeAt depth (ctx.argument? call index name) (plain.argument? call index name) := by
  rw [Context.argument?, Worksheet.Context.argument?]
  cases call.argument? index name with
  | some p => exact (h.evaluateParam p).next fun v => .ok (some v)
  | none => exact .ok none

theorem argument (h : ctx.SafeAt depth plain) (call : Call) (index : Nat) (name : String) :
    Checked.SafeAt depth (ctx.argument call index name) (plain.argument call index name) := by
  refine (h.argument? call index name).next fun found => ?_
  cases found with
  | none => exact .steady _
  | some v => exact .ok v

theorem textArgument (h : ctx.SafeAt depth plain) (call : Call) (index : Nat) (name : String) :
    Checked.SafeAt depth (ctx.textArgument call index name)
      (plain.textArgument call index name) := by
  refine (h.argument call index name).next fun v => ?_
  dsimp only
  split
  · exact .steady _
  · exact .ok _

theorem countArgument (h : ctx.SafeAt depth plain) (call : Call) (index : Nat) (name : String) :
    Checked.SafeAt depth (ctx.countArgument call index name)
      (plain.countArgument call index name) := by
  refine (h.argument? call index name).next fun found => ?_
  cases found with
  | none => exact .ok 1
  | some v =>
    dsimp only
    cases Context.count? v with
    | some n => exact .ok n
    | none => exact .steady _

theorem read (h : ctx.SafeAt depth plain) (name : String) :
    Checked.SafeAt depth (ctx.read name) (plain.read name) := by
  refine (SafeAt.steady _).next fun found => ?_
  rcases found with e | v | call
  · exact .steady _
  · exact .ok v
  · intro w
    dsimp only
    rw [SafeAt.run_attempt_bind (h.evaluate call), Eval.run_tryCatch, Eval.run_bind]
    cases (plain.evaluate call).run.run w with
    | mk result after => cases result <;> rfl

end Context.SafeAt

end Worksheet.Checked
