import Worksheet.Proofs.Eval.Observed

namespace Worksheet

variable {σ : Type}

/-- The call that a variable stands for. -/
def Binding.call? : Binding → Option Call
  | .literal _ => none
  | .deferred call _ => some call

theorem Binding.eq_deferred_of_call? {found : Option Binding} {call : Call} {v : Value}
    (hcall : found.bind (·.call?) = some call) (hvalue : found.bind (·.value?) = some v) :
    found = some (.deferred call (some v)) := by
  cases found with
  | none => cases hcall
  | some b =>
    cases b with
    | literal value => cases hcall
    | deferred other memo =>
      obtain rfl := Option.some.inj hcall
      obtain rfl : memo = some v := hvalue
      rfl

namespace Evaluation

/-- The evaluation was begun for a variable that is pending, and in its end it returned the value
while the variable stood for the call. -/
structure Settles (e : Evaluation) (name : String) (c : Call) (v : Value) : Prop where
  value : e.value = v
  marked : name ∈ e.before.resolving
  pending : e.before.get? name = some (.deferred e.call none)
  inForce : ∃ memo, e.after.get? name = some (.deferred c memo)

/-- Evaluating the call that a variable stands for gives the variable another call. -/
def Replaces (e : Evaluation) (name : String) : Prop :=
  name ∈ e.before.resolving ∧ e.before.get? name = some (.deferred e.call none) ∧
    ∃ c memo, e.after.get? name = some (.deferred c memo) ∧ c ≠ e.call

theorem Settles.call_eq {e : Evaluation} {name : String} {c : Call} {v : Value}
    (h : e.Settles name c v) (hkept : ¬ e.Replaces name) : e.call = c := by
  by_contra hne
  obtain ⟨memo, hafter⟩ := h.inForce
  exact hkept ⟨h.marked, h.pending, c, memo, hafter, fun he => hne he.symm⟩

theorem not_replaces_of_get?_eq {e : Evaluation} {name : String}
    (h : e.after.get? name = e.before.get? name) : ¬ e.Replaces name := by
  rintro ⟨-, hpending, call, memo, hafter, hne⟩
  have hsame := (hafter.symm.trans h).trans hpending
  cases hsame
  exact hne rfl

end Evaluation

/-- Every value that is kept for a deferred variable comes from a recorded evaluation. -/
def Recorded (table : VariableTable) (log : List Evaluation) : Prop :=
  ∀ name c v, table.get? name = some (.deferred c (some v)) → ∃ e ∈ log, e.Settles name c v

namespace Recorded

variable {table : VariableTable} {log : List Evaluation}

theorem cons (h : Recorded table log) (e : Evaluation) : Recorded table (e :: log) := by
  intro name c v hget
  obtain ⟨own, hmem, hown⟩ := h name c v hget
  exact ⟨own, List.mem_cons_of_mem e hmem, hown⟩

theorem define (h : Recorded table log) (name : String) (value : Value) :
    Recorded (table.define name value) log := by
  intro other c v hget
  rw [VariableTable.get?_define] at hget
  split at hget
  · cases hget
  · exact h other c v hget

theorem defer (h : Recorded table log) (name : String) (call : Call) :
    Recorded (table.defer name call) log := by
  intro other c v hget
  rw [VariableTable.get?_defer] at hget
  split at hget
  · cases hget
  · exact h other c v hget

/-- Only the bindings matter. -/
theorem congr (h : Recorded table log) {other : VariableTable}
    (hbindings : other.bindings = table.bindings) : Recorded other log := by
  intro name c v hget
  apply h name c v
  rw [VariableTable.get?, ← hbindings]
  exact hget

/-- The value of an evaluation that was begun for a variable is kept. -/
theorem resolve (h : Recorded table log) {e : Evaluation} (he : e ∈ log) {name : String}
    (hmarked : name ∈ e.before.resolving)
    (hpending : e.before.get? name = some (.deferred e.call none)) (hafter : e.after = table) :
    Recorded (table.resolve name e.value) log := by
  intro other c v hget
  rw [VariableTable.get?_resolve] at hget
  cases hbefore : table.get? other with
  | none =>
    rw [hbefore] at hget
    cases hget
  | some b =>
    rw [hbefore] at hget
    cases b with
    | literal value => cases hget
    | deferred call memo =>
      by_cases hname : other = name
      · -- The value is kept for the call of now, be it the one that was evaluated or not.
        subst hname
        simp only [if_true, Option.some.injEq, Binding.deferred.injEq] at hget
        obtain ⟨rfl, rfl⟩ := hget
        exact ⟨e, he, rfl, hmarked, hpending, memo, by rw [hafter, hbefore]⟩
      · simp only [hname, if_false, Option.some.injEq, Binding.deferred.injEq] at hget
        obtain ⟨rfl, rfl⟩ := hget
        exact h other call v hbefore

end Recorded

/-- The variables of now, and those at the end of every evaluation, have recorded values. -/
structure Observed.Sound (w : World (Observed σ)) : Prop where
  now : Recorded w.table w.random.returned
  past : ∀ e earlier, e :: earlier <:+ w.random.returned → Recorded e.after earlier

/-- The relation of each world that has a property to itself. -/
def Kept (P : World σ → Prop) (w v : World σ) : Prop :=
  w = v ∧ P w

theorem Eval.alike_kept_iff {α : Type} {P : World σ → Prop} {x : Eval σ α} :
    Eval.Alike (Kept P) x x ↔ ∀ w, P w → P (x.run.run w).2 := by
  constructor
  · intro h w hw
    exact (h w w ⟨rfl, hw⟩).2.2
  · rintro h w _ ⟨rfl, hw⟩
    exact ⟨rfl, rfl, h w hw⟩

namespace Observed

open FunctionRegistry

theorem Sound.withTable {w : World (Observed σ)} (h : Sound w) {table : VariableTable}
    (htable : Recorded table w.random.returned) : Sound { w with table } :=
  ⟨htable, h.past⟩

/-- The record of evaluations is what matters of the source. -/
theorem Sound.withRandom {w : World (Observed σ)} (h : Sound w) {random : Observed σ}
    (hreturned : random.returned = w.random.returned) : Sound { w with random } := by
  refine ⟨?_, ?_⟩
  · show Recorded w.table random.returned
    rw [hreturned]
    exact h.now
  · show ∀ e earlier, e :: earlier <:+ random.returned → Recorded e.after earlier
    rw [hreturned]
    exact h.past

theorem Sound.leave {w : World (Observed σ)} (h : Sound w) (call : Call) (before : VariableTable)
    (result : Except EvalError Value) :
    Sound { w with random := w.random.leave call before w.table result } := by
  cases result with
  | error e => exact h.withRandom rfl
  | ok value =>
    refine ⟨h.now.cons _, ?_⟩
    intro e earlier hsuffix
    rcases List.suffix_cons_iff.1 hsuffix with hwhole | hrest
    · obtain ⟨rfl, rfl⟩ := List.cons.inj hwhole
      exact h.now
    · exact h.past e earlier hrest

/-- The tables at the end of the evaluations that returned, and the present one, each with the
evaluations that had returned before. -/
def Passes (w : World (Observed σ)) (table : VariableTable) (log : List Evaluation) : Prop :=
  (table = w.table ∧ log = w.random.returned) ∨
    ∃ e, e :: log <:+ w.random.returned ∧ table = e.after

theorem Sound.recorded {w : World (Observed σ)} (h : Sound w) {table : VariableTable}
    {log : List Evaluation} (hpasses : Passes w table log) : Recorded table log := by
  obtain ⟨rfl, rfl⟩ | ⟨e, hsuffix, rfl⟩ := hpasses
  · exact h.now
  · exact h.past e log hsuffix

/-- The evaluation of a call ends soundly and is recorded if it has a value. -/
def Entered (call : Call) (before : VariableTable)
    (ended : Except EvalError Value × World (Observed σ)) : Prop :=
  Sound ended.2 ∧
    ∀ v, ended.1 = .ok v → ⟨call, before, v, ended.2.table⟩ ∈ ended.2.random.returned

theorem Entered.error {w : World (Observed σ)} (h : Sound w) (call : Call)
    (before : VariableTable) (e : EvalError) : Entered call before (.error e, w) := by
  refine ⟨h, ?_⟩
  intro v hv
  cases hv

theorem Entered.leave {w : World (Observed σ)} (h : Sound w) (call : Call)
    (before : VariableTable) (result : Except EvalError Value) :
    Entered call before
      (result, { w with random := w.random.leave call before w.table result }) := by
  refine ⟨h.leave call before result, ?_⟩
  rintro v rfl
  exact List.mem_cons_self

/-- Every evaluation is entered into the record. -/
def Records (c : Context (Observed σ)) : Prop :=
  ∀ call w, Sound w → Entered call w.table ((c.evaluate call).run.run w)

theorem Records.read {c : Context (Observed σ)} (h : Records c) (name : String)
    (w : World (Observed σ)) (hw : Sound w) : Sound ((c.read name).run.run w).2 := by
  rcases Context.read_cases w.table name with ⟨result, -, hrun⟩ | ⟨call, hpending, -, hrun⟩
  · rw [hrun c w.random]
    exact hw
  · have hmarked : Sound { w with table := w.table.mark name } := hw.withTable (hw.now.congr rfl)
    obtain ⟨hended, hrecorded⟩ := h call _ hmarked
    rw [hrun c w.random]
    revert hended hrecorded
    generalize (c.evaluate call).run.run _ = ended
    intro hended hrecorded
    apply hended.withTable
    obtain ⟨result, after⟩ := ended
    cases result with
    | error e => exact hended.now.congr rfl
    | ok value => exact hended.now.resolve (hrecorded value rfl) (by simp) hpending rfl

theorem Records.alike {c : Context (Observed σ)} (h : Records c) :
    Context.Alike (Kept Sound) c c :=
  ⟨rfl, fun call => Eval.alike_kept_iff.2 fun w hw => (h call w hw).1,
    fun name => Eval.alike_kept_iff.2 (h.read name)⟩

variable [RandomSource σ]

theorem Sound.link : Link (Kept (Sound (σ := σ))) where
  define name value w v := by
    rintro ⟨rfl, hw⟩
    exact ⟨rfl, hw.withTable (hw.now.define name value)⟩
  defer name call w v := by
    rintro ⟨rfl, hw⟩
    exact ⟨rfl, hw.withTable (hw.now.defer name call)⟩
  draw table table' bound := by
    rintro s t ⟨hsame, hw⟩
    obtain ⟨rfl, rfl⟩ := World.mk.inj hsame
    exact ⟨rfl, rfl, hw.withRandom rfl⟩

/-- The induction is on the bound of the recursion, which is the only thing that gets smaller. -/
theorem records_observed (words : WordLibrary) (bound : Nat) :
    Records (Context.observed (σ := σ) words bound) := by
  induction bound with
  | zero =>
    intro call w hw
    have hcut : Sound { w with random := { w.random with cutOff := true } } := hw.withRandom rfl
    exact .error hcut call w.table _
  | succ bound ih =>
    intro call w hw
    have hfind := find?_builtin_alike (σ := Observed σ) (τ := Observed σ) call.name
    rw [Context.observed, run_evaluateObserved]
    generalize (builtin : FunctionRegistry (Observed σ)).find? call.name = found at hfind ⊢
    split
    · exact .error hw call w.table _
    · cases hfind with
      | none => exact .error hw call w.table _
      | some hf =>
        have hentered : Sound { w with random := w.random.enter } := hw.withRandom rfl
        -- That the function is alike itself says that it keeps the record sound.
        have hended := Eval.alike_kept_iff.1 (hf.call Sound.link ih.alike call) _ hentered
        exact .leave hended call w.table _

/-- Requests on one table under observation. -/
def session (words : WordLibrary) (table : VariableTable) (source : σ) (requests : List Request) :
    List (Except EvalError Value) × World (Observed σ) :=
  (Context.observed words (maxDepth + 1)).answerAll requests
    ⟨table, .start source 0⟩

theorem sound_session (words : WordLibrary) {table : VariableTable}
    (hfresh : ∀ name call v, table.get? name ≠ some (.deferred call (some v))) (source : σ)
    (requests : List Request) : Sound (session words table source requests).2 := by
  have hrecords := records_observed (σ := σ) words (maxDepth + 1)
  have hstart : Sound ⟨table, .start source 0⟩ := by
    refine ⟨?_, ?_⟩
    · intro name call v hget
      exact absurd hget (hfresh name call v)
    · intro e earlier hsuffix
      exact absurd (List.eq_nil_of_suffix_nil hsuffix) (List.cons_ne_nil e earlier)
  exact (Context.answerAll_alike hrecords.alike requests ⟨rfl, hstart⟩).2.2

/-- A session comes to what the requests come to in the built-in engine. -/
theorem session_alike (words : WordLibrary) (table : VariableTable) (source : σ)
    (requests : List Request) :
    let seen := session words table source requests
    let plain := ((Engine.builtin : Engine σ).functions.context words).answerAll requests
      ⟨table, source⟩
    seen.1 = plain.1 ∧ seen.2.table = plain.2.table ∧ seen.2.random.source = plain.2.random := by
  intro seen plain
  have hstart : At 0 table.resolving ⟨table, .start source 0⟩ ⟨table, source⟩ :=
    ⟨rfl, rfl, rfl, rfl, Nat.zero_le _, rfl⟩
  have hcontext : (Engine.builtin : Engine σ).functions.context words = .builtin words 0 := by
    rw [Engine.functions_builtin]
    rfl
  have hcontexts := context_alike (σ := σ) words (Nat.zero_le _) (Nat.lt_succ_self _)
    table.resolving
  rw [← hcontext] at hcontexts
  obtain ⟨hresults, hended⟩ := Context.answerAll_alike hcontexts requests hstart
  exact ⟨hresults, hended.table, hended.source⟩

/-- What is kept for a variable was returned by an evaluation that was begun to read the variable.
It was returned by the call for which it is kept, unless such an evaluation gives the variable
another call. -/
theorem memo_origin (words : WordLibrary) {table : VariableTable}
    (hfresh : ∀ name call v, table.get? name ≠ some (.deferred call (some v))) (source : σ)
    (requests : List Request) :
    let context := (Engine.builtin : Engine σ).functions.context words
    let plain := context.answerAll requests ⟨table, source⟩
    let seen := session words table source requests
    (seen.1 = plain.1 ∧ seen.2.table = plain.2.table ∧ seen.2.random.source = plain.2.random) ∧
      (∀ now log, Passes seen.2 now log → ∀ name call v,
        now.get? name = some (.deferred call (some v)) →
          (∃ e ∈ log, e.Settles name call v) ∧
            ((∀ e ∈ log, ¬ e.Replaces name) → ∃ e ∈ log, e.call = call ∧ e.value = v)) ∧
      ∀ name v after, (context.read name).run.run plain.2 = (.ok v, after) →
        ∀ call memo, after.table.get? name = some (.deferred call memo) → memo = some v := by
  intro context plain seen
  refine ⟨session_alike words table source requests, ?_, ?_⟩
  · intro now log hpasses name call v hget
    have hrecorded := (sound_session words hfresh source requests).recorded hpasses
    obtain ⟨e, hmem, hsettles⟩ := hrecorded name call v hget
    refine ⟨⟨e, hmem, hsettles⟩, ?_⟩
    intro hkept
    exact ⟨e, hmem, hsettles.call_eq (hkept e hmem), hsettles.value⟩
  · intro name v after hread call memo hget
    exact Context.memo_of_read hread hget

/-- A variable that stood for another call before. Its new call defines a second variable. -/
def redefined : List Request :=
  let plain : Call := ⟨"randomize", [⟨none, .text "b"⟩], ⟨0, 13⟩, "@randomize(b)"⟩
  let nested : Call := ⟨"define", [⟨none, .text "y"⟩, ⟨none, .call plain⟩], ⟨0, 25⟩,
    "@define(y, @randomize(b))"⟩
  let listed : Call := ⟨"randomize", [⟨none, .list [.text "a", .call nested]⟩], ⟨0, 42⟩,
    "@randomize([a, @define(y, @randomize(b))])"⟩
  let define (c : Call) : Request :=
    .call ⟨"define", [⟨none, .text "x"⟩, ⟨none, .call c⟩], ⟨0, 0⟩, "@define(x, " ++ c.source ++ ")"⟩
  [define plain, .read "x", define listed, .read "x", .read "y", .read "x"]

theorem memo_origin_redefined :
    (∀ name call v, ({} : VariableTable).get? name ≠ some (.deferred call (some v))) ∧
      let seen := session (σ := Draws) {} {} ⟨[], 0⟩ redefined
      ∃ call v, seen.2.table.get? "x" = some (.deferred call (some v)) ∧
        call.source = "@randomize([a, @define(y, @randomize(b))])" ∧
        ∃ e ∈ seen.2.random.returned, e.call = call ∧ e.value = v := by
  have hfresh : ∀ name call v,
      ({} : VariableTable).get? name ≠ some (.deferred call (some v)) := by
    intro name call v hget
    cases hget
  refine ⟨hfresh, ?_⟩
  intro seen
  obtain ⟨-, horigin, -⟩ := memo_origin {} hfresh (⟨[], 0⟩ : Draws) redefined
  have hkept : ∀ e ∈ seen.2.random.returned, ¬ e.Replaces "x" := by
    intro e he
    by_cases hmarked : "x" ∈ e.before.resolving
    · have hsame : (seen.2.random.returned.filter (·.before.resolving.contains "x")).map
          (·.after.get? "x") = (seen.2.random.returned.filter
            (·.before.resolving.contains "x")).map (·.before.get? "x") := rfl
      apply Evaluation.not_replaces_of_get?_eq
      exact List.map_inj_left.1 hsame e (List.mem_filter.2 ⟨he, by simpa using hmarked⟩)
    · exact fun h => hmarked h.1
  exact ⟨_, _, rfl, rfl, (horigin _ _ (Or.inl ⟨rfl, rfl⟩) "x" _ _ rfl).2 hkept⟩

/-- A variable whose call gives the variable another call. The first read is in a definition, where
its value is not shown. -/
def replaced : List Request :=
  [.resolve "@define(x, @randomize(a @define(x, @randomize(b))))",
    .resolve "@define(y, \"@var(x)\")", .resolve "@var(x)"]

/-- What the first call of the variable returned is kept for its second call, which has never been
evaluated. -/
theorem memo_of_replaced_call :
    let seen := session (σ := Draws) {} {} ⟨[], 0⟩ replaced
    seen.1.map (fun result => result.toOption.map Value.render) = [some "", some "", some "a"] ∧
      ∃ call v, seen.2.table.get? "x" = some (.deferred call (some v)) ∧
        call.source = "@randomize(b)" ∧ v.render = "a" ∧
          ¬ ∃ e ∈ seen.2.random.returned, e.call = call ∧ e.value = v := by
  intro seen
  have hrun : seen.1.map (fun result => result.toOption.map Value.render) =
        [some "", some "", some "a"] ∧
      ((seen.2.table.get? "x").bind (·.call?)).map (·.source) = some "@randomize(b)" ∧
      ((seen.2.table.get? "x").bind (·.value?)).map (·.render) = some "a" ∧
      ∀ e ∈ seen.2.random.returned, e.call.source ≠ "@randomize(b)" := by
    decide +kernel
  obtain ⟨hresults, hcall, hvalue, hnever⟩ := hrun
  obtain ⟨call, hcall, hsource⟩ := Option.map_eq_some_iff.1 hcall
  obtain ⟨v, hvalue, hrender⟩ := Option.map_eq_some_iff.1 hvalue
  refine ⟨hresults, call, v, Binding.eq_deferred_of_call? hcall hvalue, hsource, hrender, ?_⟩
  rintro ⟨e, hmem, rfl, -⟩
  exact hnever e hmem hsource

end Observed

end Worksheet
