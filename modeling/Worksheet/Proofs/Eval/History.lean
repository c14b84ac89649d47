import Mathlib.Data.Finset.Card
import Worksheet.Proofs.Eval.Variables

namespace Worksheet

namespace VariableTable

/-- What is done with a table. -/
inductive Operation where
  | define (name : String) (value : Value)
  | defer (name : String) (call : Call)
  | lookup (name : String)
  | resolve (name : String) (value : Value)
  | abandon (name : String)

namespace Operation

def apply (t : VariableTable) : Operation → VariableTable
  | define name value => t.define name value
  | defer name call => t.defer name call
  | lookup name => (t.lookup name).2
  | resolve name value => t.resolve name value
  | abandon name => t.abandon name

/-- The name that is bound, or bound anew. -/
def defines? : Operation → Option String
  | define name _ => some name
  | defer name _ => some name
  | _ => none

/-- The value that a variable is resolved to. -/
def value? (name : String) : Operation → Option Value
  | resolve other value => if other = name then some value else none
  | _ => none

/-- Whether a reading of a variable ends. -/
def Ends (name : String) : Operation → Prop
  | resolve other _ => other = name
  | abandon other => other = name
  | _ => False

theorem eq_of_defines? {o : Operation} {name : String} (h : o.defines? = some name) :
    (∃ value, o = define name value) ∨ ∃ call, o = defer name call := by
  cases o with
  | define other value =>
    obtain rfl := Option.some.inj h
    exact Or.inl ⟨value, rfl⟩
  | defer other call =>
    obtain rfl := Option.some.inj h
    exact Or.inr ⟨call, rfl⟩
  | lookup other => cases h
  | resolve other value => cases h
  | abandon other => cases h

end Operation

/-- The table after operations, one after the other. -/
def run (t : VariableTable) (ops : List Operation) : VariableTable :=
  ops.foldl Operation.apply t

/-- The table after operations on an empty one. -/
def after (ops : List Operation) : VariableTable :=
  run {} ops

theorem after_append (earlier since : List Operation) :
    after (earlier ++ since) = (after earlier).run since :=
  List.foldl_append

/-- The values that a variable was resolved to, in their order. -/
def resolutions (name : String) (ops : List Operation) : List Value :=
  ops.filterMap (Operation.value? name)

/-- The last definition of a name, and what was done since. -/
structure LastDefinition (ops : List Operation) (name : String) (d : Operation)
    (since : List Operation) : Prop where
  defines : d.defines? = some name
  last : ∀ o ∈ since, o.defines? ≠ some name
  split : ∃ earlier, ops = earlier ++ d :: since

/-- A reading of a variable was told that the variable is pending, and none has ended since. -/
def Open (ops : List Operation) (name : String) : Prop :=
  ∃ earlier since call, ops = earlier ++ .lookup name :: since ∧
    ((after earlier).lookup name).1 = .ok (.pending call) ∧ ∀ o ∈ since, ¬ o.Ends name

/-- What a reading of a variable is told after operations. -/
inductive Answer (ops : List Operation) (name : String) : Except EvalError Lookup → Prop
  | undefined (never : ∀ o ∈ ops, o.defines? ≠ some name) :
      Answer ops name (.error (.undefinedVariable name))
  | literal {value : Value} {since : List Operation}
      (last : LastDefinition ops name (.define name value) since) :
      Answer ops name (.ok (.ready value))
  | resolved {call : Call} {value : Value} {since : List Operation}
      (last : LastDefinition ops name (.defer name call) since)
      (known : (resolutions name since).getLast? = some value) :
      Answer ops name (.ok (.ready value))
  | circular {call : Call} {since : List Operation}
      (last : LastDefinition ops name (.defer name call) since)
      (unknown : resolutions name since = []) (opened : Open ops name) :
      Answer ops name (.error (.circularVariable name))
  | pending {call : Call} {since : List Operation}
      (last : LastDefinition ops name (.defer name call) since)
      (unknown : resolutions name since = []) (closed : ¬ Open ops name) :
      Answer ops name (.ok (.pending call))

/-- A binding after its variable was resolved, if it was. Only a deferred one keeps the value. -/
def learn (value : Option Value) : Binding → Binding
  | .literal v => .literal v
  | .deferred call memo => .deferred call (value.or memo)

theorem get?_lookup (t : VariableTable) (other name : String) :
    (t.lookup other).2.get? name = t.get? name := by
  rcases t.lookup_cases other with ⟨result, hfound, -⟩ | ⟨call, -, -, hfound⟩
  · rw [hfound]
  · rw [hfound]
    rfl

/-- Without a definition of the name, its binding only learns its value. -/
theorem get?_apply (t : VariableTable) {o : Operation} {name : String}
    (h : o.defines? ≠ some name) :
    (o.apply t).get? name = (t.get? name).map (learn (o.value? name)) := by
  have hkept : (t.get? name).map (learn none) = t.get? name := by
    rcases t.get? name with - | (v | ⟨call, memo⟩) <;> rfl
  cases o with
  | define other value =>
    have hne : name ≠ other := fun hname => h (congrArg some hname.symm)
    exact ((t.get?_define other value name).trans (if_neg hne)).trans hkept.symm
  | defer other call =>
    have hne : name ≠ other := fun hname => h (congrArg some hname.symm)
    exact ((t.get?_defer other call name).trans (if_neg hne)).trans hkept.symm
  | lookup other => exact (t.get?_lookup other name).trans hkept.symm
  | resolve other value =>
    refine (t.get?_resolve other value name).trans ?_
    rw [Operation.value?]
    rcases t.get? name with - | (v | ⟨call, memo⟩)
    · rfl
    · rfl
    · by_cases hname : name = other
      · subst hname
        simp [learn]
      · simp [learn, hname, Ne.symm hname]
  | abandon other => exact hkept.symm

theorem getLast?_resolutions_cons (name : String) (o : Operation) (ops : List Operation) :
    (resolutions name (o :: ops)).getLast? =
      (resolutions name ops).getLast?.or (o.value? name) := by
  rw [resolutions, List.filterMap_cons]
  cases o.value? name with
  | none => exact Option.or_none.symm
  | some value =>
    dsimp only
    rw [List.getLast?_cons, ← resolutions]
    cases (resolutions name ops).getLast? <;> rfl

theorem get?_run (t : VariableTable) {ops : List Operation} {name : String}
    (h : ∀ o ∈ ops, o.defines? ≠ some name) :
    (t.run ops).get? name =
      (t.get? name).map (learn (resolutions name ops).getLast?) := by
  induction ops generalizing t with
  | nil => rcases hget : t.get? name with - | (v | ⟨call, memo⟩) <;> exact hget
  | cons o ops ih =>
    obtain ⟨hfirst, hrest⟩ := List.forall_mem_cons.1 h
    show ((o.apply t).run ops).get? name = _
    -- A later value takes the place of the one that the first operation may have brought.
    rw [ih (o.apply t) hrest, t.get?_apply hfirst, getLast?_resolutions_cons, Option.map_map]
    congr 1
    funext b
    cases b with
    | literal v => rfl
    | deferred call memo => simp [learn, Option.or_assoc]

namespace LastDefinition

variable {ops since : List Operation} {name : String}

theorem get?_literal {value : Value} (h : LastDefinition ops name (.define name value) since) :
    (after ops).get? name = some (.literal value) := by
  obtain ⟨earlier, rfl⟩ := h.split
  rw [after_append]
  show (((after earlier).define name value).run since).get? name = _
  rw [get?_run _ h.last, get?_define, if_pos rfl]
  rfl

theorem get?_deferred {call : Call} (h : LastDefinition ops name (.defer name call) since) :
    (after ops).get? name = some (.deferred call (resolutions name since).getLast?) := by
  obtain ⟨earlier, rfl⟩ := h.split
  rw [after_append]
  show (((after earlier).defer name call).run since).get? name = _
  rw [get?_run _ h.last, get?_defer, if_pos rfl, Option.map_some, learn, Option.or_none]

end LastDefinition

theorem exists_lastDefinition (ops : List Operation) (name : String) :
    (∀ o ∈ ops, o.defines? ≠ some name) ∨ ∃ d since, LastDefinition ops name d since := by
  induction ops with
  | nil => exact Or.inl nofun
  | cons o ops ih =>
    rcases ih with hnever | ⟨d, since, hlast⟩
    · by_cases hdefines : o.defines? = some name
      · exact Or.inr ⟨o, ops, hdefines, hnever, [], rfl⟩
      · exact Or.inl (List.forall_mem_cons.2 ⟨hdefines, hnever⟩)
    · obtain ⟨earlier, rfl⟩ := hlast.split
      exact Or.inr ⟨d, since, hlast.defines, hlast.last, o :: earlier, rfl⟩

/-- A name is entered when a reading is told that it is pending, and taken out when one ends. -/
theorem mem_resolving_apply (t : VariableTable) (o : Operation) (name : String) :
    name ∈ (o.apply t).resolving ↔
      (o = .lookup name ∧ ∃ call, (t.lookup name).1 = .ok (.pending call)) ∨
        name ∈ t.resolving ∧ ¬ o.Ends name := by
  have hended : ∀ other, name ∈ t.resolving.filter (· != other) ↔
      name ∈ t.resolving ∧ ¬ other = name := by
    intro other
    rw [List.mem_filter, bne_iff_ne, ne_comm]
  cases o with
  | define other value => simp [Operation.apply, Operation.Ends]
  | defer other call => simp [Operation.apply, Operation.Ends]
  | resolve other value =>
    have hresolving := t.resolving_finish other (.ok value)
    rw [finish] at hresolving
    simp [Operation.apply, Operation.Ends, hresolving, hended]
  | abandon other =>
    simp [Operation.apply, Operation.Ends, abandon, hended]
  | lookup other =>
    -- Only the answer that the variable is pending enters its name.
    rcases t.lookup_cases other with ⟨result, hfound, -⟩ | ⟨call, -, -, hfound⟩
    · have hanswer : ∀ call, (t.lookup other).1 ≠ .ok (.pending call) := by
        rw [hfound]
        cases result <;> simp [Except.map]
      have htable : (t.lookup other).2 = t := by rw [hfound]
      simp only [Operation.apply, Operation.Ends, htable, Operation.lookup.injEq]
      constructor
      · exact fun h => Or.inr ⟨h, not_false⟩
      · rintro (⟨rfl, call, hcall⟩ | ⟨h, -⟩)
        · exact absurd hcall (hanswer call)
        · exact h
    · have hmem : name ∈ (t.lookup other).2.resolving ↔ name ∈ t.resolving ∨ name = other := by
        simp [hfound]
      simp only [Operation.apply, Operation.Ends, hmem, Operation.lookup.injEq, not_false_eq_true,
        and_true]
      constructor
      · rintro (h | rfl)
        · exact Or.inr h
        · exact Or.inl ⟨rfl, call, by rw [hfound]⟩
      · rintro (⟨rfl, -⟩ | h)
        · exact Or.inr rfl
        · exact Or.inl h

theorem open_append (ops : List Operation) (o : Operation) (name : String) :
    Open (ops ++ [o]) name ↔
      (o = .lookup name ∧ ∃ call, ((after ops).lookup name).1 = .ok (.pending call)) ∨
        Open ops name ∧ ¬ o.Ends name := by
  constructor
  · rintro ⟨earlier, since, call, hsplit, hcall, hnone⟩
    rcases List.eq_nil_or_concat since with rfl | ⟨rest, last, rfl⟩
    · obtain ⟨rfl, ho⟩ := List.append_inj' hsplit rfl
      exact Or.inl ⟨List.head_eq_of_cons_eq ho, call, hcall⟩
    · rw [List.concat_eq_append, ← List.cons_append, ← List.append_assoc] at hsplit
      obtain ⟨rfl, ho⟩ := List.append_inj' hsplit rfl
      obtain rfl := List.head_eq_of_cons_eq ho
      have hkept : ∀ p ∈ rest, ¬ p.Ends name := fun p hp => hnone p (by simp [hp])
      exact Or.inr ⟨⟨earlier, rest, call, rfl, hcall, hkept⟩, hnone o (by simp)⟩
  · rintro (⟨rfl, call, hcall⟩ | ⟨⟨earlier, since, call, rfl, hcall, hnone⟩, hlast⟩)
    · exact ⟨ops, [], call, rfl, hcall, nofun⟩
    · refine ⟨earlier, since ++ [o], call, by simp, hcall, ?_⟩
      intro p hp
      rcases List.mem_append.1 hp with hmem | hmem
      · exact hnone p hmem
      · rwa [List.mem_singleton.1 hmem]

theorem mem_resolving_after (ops : List Operation) (name : String) :
    name ∈ (after ops).resolving ↔ Open ops name := by
  induction ops using List.reverseRecOn with
  | nil =>
    constructor
    · exact nofun
    · rintro ⟨earlier, since, call, hsplit, -⟩
      simp at hsplit
  | append_singleton ops o ih =>
    rw [after_append, open_append, ← ih]
    exact mem_resolving_apply (after ops) o name

/-- The names that are bound. -/
def names (t : VariableTable) : List String :=
  t.bindings.map Prod.fst

theorem map_fst_bind (name : String) (b : Binding) (bindings : List (String × Binding)) :
    (bind name b bindings).map Prod.fst =
      if name ∈ bindings.map Prod.fst then bindings.map Prod.fst
      else bindings.map Prod.fst ++ [name] := by
  induction bindings with
  | nil => rfl
  | cons first rest ih =>
    obtain ⟨key, old⟩ := first
    by_cases hkey : key = name
    · subst hkey
      simp [bind]
    · have hbind : bind name b ((key, old) :: rest) = (key, old) :: bind name b rest := by
        simp [bind, hkey]
      rw [hbind, List.map_cons, ih, List.map_cons]
      by_cases hmem : name ∈ rest.map Prod.fst
      · rw [if_pos hmem, if_pos (List.mem_cons_of_mem _ hmem)]
      · rw [if_neg hmem, if_neg (List.not_mem_cons_of_ne_of_not_mem (Ne.symm hkey) hmem)]
        rfl

theorem mem_names_of_get? {t : VariableTable} {name : String} {b : Binding}
    (h : t.get? name = some b) : name ∈ t.names := by
  obtain ⟨before, rest, hbindings, -⟩ := List.lookup_eq_some_iff.1 h
  rw [names, hbindings]
  simp

/-- Only a definition of a name that is not bound adds a name. -/
theorem names_apply (t : VariableTable) (o : Operation) :
    (o.apply t).names =
      match o.defines? with
      | some name => if name ∈ t.names then t.names else t.names ++ [name]
      | none => t.names := by
  cases o with
  | define name value => exact map_fst_bind name _ t.bindings
  | defer name call => exact map_fst_bind name _ t.bindings
  | lookup name =>
    show (t.lookup name).2.names = t.names
    rcases t.lookup_cases name with ⟨result, hfound, -⟩ | ⟨call, -, -, hfound⟩
    · rw [hfound]
    · rw [hfound]
      rfl
  | resolve name value =>
    show (t.resolve name value).names = t.names
    rw [resolve]
    split
    · rename_i call memo hget
      exact (map_fst_bind name _ t.bindings).trans (if_pos (mem_names_of_get? hget))
    · rfl
  | abandon name => rfl

theorem names_after (ops : List Operation) :
    (after ops).names.Nodup ∧ ∀ name, name ∈ (after ops).names ↔
      name ∈ ops.filterMap Operation.defines? := by
  induction ops using List.reverseRecOn with
  | nil => exact ⟨List.nodup_nil, fun name => Iff.rfl⟩
  | append_singleton ops o ih =>
    obtain ⟨hnodup, hmem⟩ := ih
    have hnames : (after (ops ++ [o])).names = (o.apply (after ops)).names := by
      rw [after_append]
      rfl
    rw [hnames, names_apply, List.filterMap_append]
    cases hdefines : o.defines? with
    | none =>
      rw [List.filterMap_cons_none hdefines, List.filterMap_nil, List.append_nil]
      exact ⟨hnodup, hmem⟩
    | some name =>
      rw [List.filterMap_cons_some hdefines, List.filterMap_nil]
      dsimp only
      split
      · rename_i hbound
        refine ⟨hnodup, fun other => ?_⟩
        rw [hmem, List.mem_append, List.mem_singleton]
        constructor
        · exact Or.inl
        · rintro (h | rfl)
          · exact h
          · exact (hmem other).1 hbound
      · rename_i hfresh
        refine ⟨List.nodup_append.2 ⟨hnodup, List.nodup_singleton name, ?_⟩, fun other => ?_⟩
        · rintro other hother last hlast rfl
          exact hfresh (List.mem_singleton.1 hlast ▸ hother)
        · rw [List.mem_append, List.mem_append, hmem]

theorem size_after (ops : List Operation) :
    (after ops).size = (ops.filterMap Operation.defines?).toFinset.card := by
  obtain ⟨hnodup, hmem⟩ := names_after ops
  have hfinset : (ops.filterMap Operation.defines?).toFinset = (after ops).names.toFinset := by
    ext name
    rw [List.mem_toFinset, List.mem_toFinset, hmem]
  rw [hfinset, List.toFinset_card_of_nodup hnodup, names, List.length_map, size]

theorem lookup_of_answer {ops : List Operation} {name : String} {result : Except EvalError Lookup}
    (h : Answer ops name result) : ((after ops).lookup name).1 = result := by
  cases h with
  | undefined never =>
    have hget : (after ops).get? name = none := get?_run {} never
    rw [lookup, hget]
  | literal last => rw [lookup, last.get?_literal]
  | resolved last known => rw [lookup, last.get?_deferred, known]
  | circular last unknown opened =>
    have hmark : (after ops).resolving.contains name = true :=
      List.contains_iff_mem.2 ((mem_resolving_after ops name).2 opened)
    rw [lookup, last.get?_deferred, unknown]
    simp only [List.getLast?_nil, hmark, if_true]
  | pending last unknown closed =>
    have hfree : (after ops).resolving.contains name = false := by
      rw [← Bool.not_eq_true, List.contains_iff_mem, mem_resolving_after]
      exact closed
    rw [lookup, last.get?_deferred, unknown]
    simp only [List.getLast?_nil, hfree, Bool.false_eq_true, if_false]

theorem exists_answer (ops : List Operation) (name : String) :
    ∃ result, Answer ops name result := by
  rcases exists_lastDefinition ops name with hnever | ⟨d, since, hlast⟩
  · exact ⟨_, .undefined hnever⟩
  · rcases Operation.eq_of_defines? hlast.defines with ⟨value, rfl⟩ | ⟨call, rfl⟩
    · exact ⟨_, .literal hlast⟩
    · rcases List.eq_nil_or_concat (resolutions name since) with hunknown | ⟨rest, value, hknown⟩
      · by_cases hopen : Open ops name
        · exact ⟨_, .circular hlast hunknown hopen⟩
        · exact ⟨_, .pending hlast hunknown hopen⟩
      · exact ⟨_, .resolved hlast (by rw [hknown, List.concat_eq_append, List.getLast?_concat])⟩

/-- What a reading of a variable is told after any operations, and how many variables there are,
follows from the operations as `Answer` says. -/
theorem after_refines_history (ops : List Operation) :
    (∀ name result, ((after ops).lookup name).1 = result ↔ Answer ops name result) ∧
      (after ops).size = (ops.filterMap Operation.defines?).toFinset.card := by
  refine ⟨?_, size_after ops⟩
  intro name result
  constructor
  · rintro rfl
    obtain ⟨result, hanswer⟩ := exists_answer ops name
    rwa [lookup_of_answer hanswer]
  · exact lookup_of_answer

end VariableTable

end Worksheet
