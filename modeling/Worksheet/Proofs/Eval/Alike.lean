import Worksheet.Eval.Builtin
import Worksheet.Proofs.Eval.Run

namespace Worksheet

variable {σ τ α β : Type}

/-- From related sources two ways to choose make the same choice and leave related sources. -/
def DrawAlike (S : σ → τ → Prop) (f : σ → α × σ) (g : τ → α × τ) : Prop :=
  ∀ s t, S s t → (f s).1 = (g t).1 ∧ S (f s).2 (g t).2

namespace DrawAlike

variable {S : σ → τ → Prop}

theorem none (a : α) : DrawAlike S (fun s => (a, s)) (fun t => (a, t)) :=
  fun _ _ h => ⟨rfl, h⟩

/-- One choice after another that depends on it. -/
theorem next {f : σ → α × σ} {g : τ → α × τ} {f' : α → σ → β × σ} {g' : α → τ → β × τ}
    (h : DrawAlike S f g) (h' : ∀ a, DrawAlike S (f' a) (g' a)) :
    DrawAlike S (fun s => f' (f s).1 (f s).2) (fun t => g' (g t).1 (g t).2) := by
  intro s t hst
  obtain ⟨hchoice, hrest⟩ := h s t hst
  have hnext := h' (g t).1 (f s).2 (g t).2 hrest
  dsimp only
  rw [hchoice]
  exact hnext

theorem map {f : σ → α × σ} {g : τ → α × τ} (h : DrawAlike S f g) (k : α → β) :
    DrawAlike S (fun s => (k (f s).1, (f s).2)) (fun t => (k (g t).1, (g t).2)) :=
  h.next fun a => none (k a)

end DrawAlike

section Choices

variable [RandomSource σ] [RandomSource τ] {S : σ → τ → Prop}

/-- Related sources give the same draws. -/
def SourcesAlike (S : σ → τ → Prop) : Prop :=
  ∀ bound, DrawAlike S (RandomSource.below bound) (RandomSource.below bound)

variable (h : SourcesAlike S)

include h

theorem shuffleFrom_alike (count : Nat) (items : Array α) :
    DrawAlike S (shuffleFrom count items) (shuffleFrom count items) := by
  induction count generalizing items with
  | zero => exact .none items
  | succ count ih =>
    exact (h (count + 2)).next fun j => ih (items.swapIfInBounds (count + 1) j)

theorem shuffle_alike (items : List α) : DrawAlike S (shuffle items) (shuffle items) :=
  (shuffleFrom_alike h (items.length - 1) items.toArray).map Array.toList

theorem chooseFrom_alike (count place : Nat) (pool : Array α) :
    DrawAlike S (chooseFrom count place pool) (chooseFrom count place pool) := by
  induction count generalizing place pool with
  | zero => exact .none pool
  | succ count ih =>
    exact (h (pool.size - place)).next fun step =>
      ih (place + 1) (pool.swapIfInBounds place (place + step))

theorem sampleIndices_alike (length amount : Nat) :
    DrawAlike S (sampleIndices length amount) (sampleIndices length amount) :=
  (chooseFrom_alike h (min amount length) 0 (Array.range length)).map fun pool =>
    pool.toList.take (min amount length)

theorem WordLibrary.sample_alike (words : WordLibrary) (query : String) (filter : WordFilter)
    (amount : Nat) :
    DrawAlike S (words.sample query filter amount) (words.sample query filter amount) := by
  by_cases hempty : (words.pool query filter).isEmpty = true
  · intro s t hst
    simp only [WordLibrary.sample, hempty, if_true]
    exact ⟨trivial, hst⟩
  · have hsome := (sampleIndices_alike h (words.pool query filter).length amount).map fun places =>
      (Except.ok (places.filterMap fun i => (words.pool query filter)[i]?.map (·.word)) :
        Except WordError (List String))
    intro s t hst
    simp only [WordLibrary.sample, hempty, Bool.false_eq_true, if_false]
    exact hsome s t hst

namespace Builtin

theorem maskWords_alike (amount : Nat) (words : List (List Char)) :
    DrawAlike S (maskWords amount words) (maskWords amount words) :=
  (sampleIndices_alike h words.length amount).map fun places =>
    replaceAt places ['_', '_', '_'] words

theorem maskWord_alike (amount : Nat) (word : List Char) :
    DrawAlike S (maskWord amount word) (maskWord amount word) :=
  let letters := (List.range word.length).filter fun i => word[i]?.any Chars.isAlphabetic
  (sampleIndices_alike h letters.length amount).map fun picks =>
    replaceAt (picks.filterMap (letters[·]?)) '_' word

omit h [RandomSource σ] [RandomSource τ] in
theorem eachWord_alike {f : List Char → σ → List Char × σ} {g : List Char → τ → List Char × τ}
    (hfg : ∀ word, DrawAlike S (f word) (g word)) (words : List (List Char)) :
    DrawAlike S (eachWord f words) (eachWord g words) := by
  induction words with
  | nil => exact .none []
  | cons word rest ih =>
    exact (hfg word).next fun changed => ih.map fun others => changed :: others

theorem Mode.apply_alike (mode : Mode) (amount : Nat) (words : List (List Char)) :
    DrawAlike S (mode.apply amount words) (mode.apply amount words) := by
  cases mode with
  | words => exact shuffle_alike h words
  | letters => exact eachWord_alike (fun word => shuffle_alike h word) words
  | mask => exact maskWords_alike h amount words
  | maskLetters => exact eachWord_alike (fun word => maskWord_alike h amount word) words

end Builtin

end Choices

/-- From related worlds two evaluations come to the same result and to related worlds. -/
def Eval.Alike (R : World σ → World τ → Prop) (x : Eval σ α) (y : Eval τ α) : Prop :=
  ∀ w v, R w v → (x.run.run w).1 = (y.run.run v).1 ∧ R (x.run.run w).2 (y.run.run v).2

namespace Eval.Alike

variable {R : World σ → World τ → Prop}

theorem ok (a : α) : Alike R (pure a) (pure a) := fun _ _ h => ⟨rfl, h⟩

theorem fail (e : EvalError) : Alike R (throw e : Eval σ α) (throw e) := fun _ _ h => ⟨rfl, h⟩

theorem ofCall (result : Except CallError α) :
    Alike R (Eval.ofCall result : Eval σ α) (Eval.ofCall result) := by
  cases result with
  | error e => exact fail (.call e)
  | ok a => exact ok a

theorem next {x : Eval σ α} {y : Eval τ α} {f : α → Eval σ β} {g : α → Eval τ β}
    (h : Alike R x y) (hnext : ∀ a, Alike R (f a) (g a)) : Alike R (x >>= f) (y >>= g) := by
  intro w v hwv
  obtain ⟨hresult, hworld⟩ := h w v hwv
  rw [run_bind, run_bind]
  cases hx : x.run.run w with
  | mk result between =>
    cases hy : y.run.run v with
    | mk other between' =>
      rw [hx, hy] at hresult hworld
      dsimp only at hresult hworld
      subst hresult
      cases result with
      | error e => exact ⟨rfl, hworld⟩
      | ok a => exact hnext a between between' hworld

theorem mapM {f : α → Eval σ β} {g : α → Eval τ β} (h : ∀ a, Alike R (f a) (g a)) (xs : List α) :
    Alike R (xs.mapM f) (xs.mapM g) := by
  induction xs with
  | nil => exact ok []
  | cons x xs ih =>
    rw [List.mapM_cons, List.mapM_cons]
    exact (h x).next fun first => ih.next fun rest => ok (first :: rest)

theorem modifyTable {f : VariableTable → VariableTable}
    (h : ∀ w v, R w v → R { w with table := f w.table } { v with table := f v.table }) :
    Alike R (Eval.modifyTable f) (Eval.modifyTable f) :=
  fun w v hwv => ⟨rfl, h w v hwv⟩

end Eval.Alike

/-- Drawing a choice keeps the relation, whatever the tables are. -/
def DrawLink [RandomSource σ] [RandomSource τ] (R : World σ → World τ → Prop) : Prop :=
  ∀ table table', SourcesAlike fun s t => R ⟨table, s⟩ ⟨table', t⟩

theorem DrawLink.choose [RandomSource σ] [RandomSource τ] {R : World σ → World τ → Prop}
    (h : DrawLink R) {f : σ → α × σ} {g : τ → α × τ}
    (hfg : ∀ S : σ → τ → Prop, SourcesAlike S → DrawAlike S f g) :
    Eval.Alike R (Eval.choose f) (Eval.choose g) := by
  intro w v hwv
  obtain ⟨hchoice, hrest⟩ := hfg _ (h w.table v.table) w.random v.random hwv
  exact ⟨congrArg Except.ok hchoice, hrest⟩

/-- What built-in functions do to a world by themselves keeps the relation. -/
structure Link [RandomSource σ] [RandomSource τ] (R : World σ → World τ → Prop) : Prop where
  define : ∀ name value w v, R w v →
    R { w with table := w.table.define name value } { v with table := v.table.define name value }
  defer : ∀ name call w v, R w v →
    R { w with table := w.table.defer name call } { v with table := v.table.defer name call }
  draw : ∀ table table', SourcesAlike fun s t => R ⟨table, s⟩ ⟨table', t⟩

namespace Context

/-- Calls and variables come to the same values in two contexts. -/
structure Alike (R : World σ → World τ → Prop) (c : Context σ) (d : Context τ) : Prop where
  words : c.words = d.words
  evaluate : ∀ call, Eval.Alike R (c.evaluate call) (d.evaluate call)
  read : ∀ name, Eval.Alike R (c.read name) (d.read name)

variable {R : World σ → World τ → Prop} {c : Context σ} {d : Context τ}

section Evaluate

variable (h : ∀ call, Eval.Alike R (c.evaluate call) (d.evaluate call))

include h

theorem resolve_alike (text : String) : Eval.Alike R (c.resolve text) (d.resolve text) := by
  have hcall : ∀ piece : Call × List Char, Eval.Alike R
      (do return ((← c.evaluate piece.1).render.toList, piece.2))
      (do return ((← d.evaluate piece.1).render.toList, piece.2)) :=
    fun piece => (h piece.1).next fun v => .ok (v.render.toList, piece.2)
  exact (Eval.Alike.ofCall (Call.segment text)).next fun cut =>
    (Eval.Alike.mapM hcall cut.calls).next fun _ => .ok _

omit h

mutual

theorem evaluateParam_alike (h : ∀ call, Eval.Alike R (c.evaluate call) (d.evaluate call))
    (p : Param) :
    Eval.Alike R (c.evaluateParam p) (d.evaluateParam p) := by
  cases p with
  | call inner =>
    rw [evaluateParam, evaluateParam]
    exact h inner
  | text s =>
    rw [evaluateParam, evaluateParam]
    split
    · exact (resolve_alike h s).next fun text => .ok (Value.text text)
    · exact .ok (Value.text s)
  | list items =>
    rw [evaluateParam, evaluateParam]
    exact (evaluateParams_alike h items).next fun vs => .ok (Value.list vs)
  | number n =>
    simp only [evaluateParam]
    exact .ok (Value.number n)
  | bool b =>
    simp only [evaluateParam]
    exact .ok (Value.bool b)
  | object entries =>
    simp only [evaluateParam]
    exact .ok (Value.ofParam (.object entries))

theorem evaluateParams_alike (h : ∀ call, Eval.Alike R (c.evaluate call) (d.evaluate call))
    (ps : List Param) :
    Eval.Alike R (c.evaluateParams ps) (d.evaluateParams ps) := by
  cases ps with
  | nil =>
    rw [evaluateParams, evaluateParams]
    exact .ok []
  | cons p ps =>
    rw [evaluateParams, evaluateParams]
    exact (evaluateParam_alike h p).next fun v =>
      (evaluateParams_alike h ps).next fun vs => .ok (v :: vs)

end

include h

theorem argument?_alike (call : Call) (index : Nat) (name : String) :
    Eval.Alike R (c.argument? call index name) (d.argument? call index name) := by
  rw [argument?, argument?]
  split
  · rename_i p _
    exact (evaluateParam_alike h p).next fun v => .ok (some v)
  · exact .ok none

theorem argument_alike (call : Call) (index : Nat) (name : String) :
    Eval.Alike R (c.argument call index name) (d.argument call index name) := by
  refine (argument?_alike h call index name).next fun found => ?_
  cases found with
  | none => exact .fail _
  | some v => exact .ok v

theorem textArgument_alike (call : Call) (index : Nat) (name : String) :
    Eval.Alike R (c.textArgument call index name) (d.textArgument call index name) := by
  refine (argument_alike h call index name).next fun v => ?_
  dsimp only
  split
  · exact .fail _
  · exact .ok _

theorem countArgument_alike (call : Call) (index : Nat) (name : String) :
    Eval.Alike R (c.countArgument call index name) (d.countArgument call index name) := by
  refine (argument?_alike h call index name).next fun found => ?_
  cases found with
  | none => exact .ok 1
  | some v =>
    dsimp only
    split
    · exact .ok _
    · exact .fail _

end Evaluate

end Context

end Worksheet
