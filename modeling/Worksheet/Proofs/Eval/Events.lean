import Worksheet.Proofs.Eval.Variables

namespace Worksheet

variable {σ : Type}

theorem VariableTable.get?_resolve_of_ne (t : VariableTable) {name other : String} (value : Value)
    (h : other ≠ name) : (t.resolve name value).get? other = t.get? other := by
  rw [get?_resolve]
  simp only [h, if_false]
  cases t.get? other with
  | none => rfl
  | some b => cases b <;> rfl

/-- The read of a variable that returned a value. -/
structure VariableRead (σ : Type) where
  name : String
  before : World σ
  value : Value
  after : World σ

/-- What happens to a variable. -/
inductive Event (σ : Type) where
  /-- A value is bound to the name. -/
  | defined (name : String)
  /-- A call is bound to the name. -/
  | deferred (name : String) (call : Call)
  /-- A read ends with a value. -/
  | returned (read : VariableRead σ)

namespace Event

/-- The name of the event is bound anew. -/
def Binds (name : String) : Event σ → Prop
  | .defined other => other = name
  | .deferred other _ => other = name
  | .returned _ => False

def readOf? (name : String) : Event σ → Option (VariableRead σ)
  | .returned read => if read.name = name then some read else none
  | _ => none

/-- The reads of a variable. -/
def readsOf (name : String) (events : List (Event σ)) : List (VariableRead σ) :=
  events.filterMap (readOf? name)

theorem readsOf_cons (name : String) (e : Event σ) (events : List (Event σ)) :
    readsOf name (e :: events) = (e.readOf? name).toList ++ readsOf name events := by
  rw [readsOf, List.filterMap_cons]
  cases e.readOf? name <;> rfl

end Event

/-- A source of choices and the events so far, the last one first. -/
structure Watched (σ : Type) where
  source : σ
  record : List (Event σ) := []

/-- The world without the record. -/
def World.plain (w : World (Watched σ)) : World σ :=
  ⟨w.table, w.random.source⟩

namespace Watched

instance [RandomSource σ] : RandomSource (Watched σ) where
  below bound s :=
    let (choice, source) := RandomSource.below bound s.source
    (choice, { s with source })

/-- Reads, the last one first, that return the same value. After the first of them nothing
changes. -/
structure Repeats (v : Value) (reads : List (VariableRead σ)) : Prop where
  ne_nil : reads ≠ []
  value : ∀ r ∈ reads, r.value = v
  unchanged : ∀ r ∈ reads.dropLast, r.after = r.before

theorem Repeats.first {r : VariableRead σ} {v : Value} (h : r.value = v) : Repeats v [r] :=
  ⟨List.cons_ne_nil r [], by simpa using h, by simp⟩

theorem Repeats.again {v : Value} {reads : List (VariableRead σ)} (h : Repeats v reads)
    {r : VariableRead σ} (hvalue : r.value = v) (hsame : r.after = r.before) :
    Repeats v (r :: reads) := by
  refine ⟨List.cons_ne_nil r reads, ?_, ?_⟩
  · intro s hs
    rcases List.mem_cons.1 hs with rfl | hs
    · exact hvalue
    · exact h.value s hs
  · intro s hs
    rw [List.dropLast_cons_of_ne_nil h.ne_nil] at hs
    rcases List.mem_cons.1 hs with rfl | hs
    · exact hsame
    · exact h.unchanged s hs

/-- A variable stands for a call and has been read since. -/
inductive Standing (t : VariableTable) (name : String) (call : Call) :
    List (VariableRead σ) → Prop
  | unread (get : t.get? name = some (.deferred call none)) : Standing t name call []
  | settled {v : Value} {reads : List (VariableRead σ)}
    (get : t.get? name = some (.deferred call (some v))) (repeats : Repeats v reads) :
    Standing t name call reads

theorem Standing.congr {t t' : VariableTable} {name : String} {call : Call}
    {reads : List (VariableRead σ)} (h : Standing t name call reads)
    (hget : t'.get? name = t.get? name) : Standing t' name call reads := by
  cases h with
  | unread get => exact .unread (hget.trans get)
  | settled get repeats => exact .settled (hget.trans get) repeats

/-- In the order in which they end, the reads return one value, and nothing changes after the first
of them. -/
theorem Standing.reverse {t : VariableTable} {name : String} {call : Call}
    {reads : List (VariableRead σ)} (h : Standing t name call reads) :
    (∀ r ∈ reads.reverse, ∀ s ∈ reads.reverse, r.value = s.value) ∧
      ∀ r ∈ reads.reverse.tail, r.after = r.before := by
  cases h with
  | unread => simp
  | settled _ repeats =>
    refine ⟨?_, ?_⟩
    · intro r hr s hs
      rw [repeats.value r (List.mem_reverse.1 hr), repeats.value s (List.mem_reverse.1 hs)]
    · intro r hr
      rw [List.tail_reverse, List.mem_reverse] at hr
      exact repeats.unchanged r hr

/-- A table and the events that have led to it, the last one first. -/
structure Sound (t : VariableTable) (record : List (Event σ)) : Prop where
  /-- No value is kept for a variable while it is being resolved. -/
  unsettled : ∀ name ∈ t.resolving, ∀ call memo, t.get? name = some (.deferred call memo) →
    memo = none
  standing : ∀ name call later earlier, record = later ++ .deferred name call :: earlier →
    (∀ e ∈ later, ¬ e.Binds name) → Standing t name call (Event.readsOf name later)

namespace Sound

variable {t t' : VariableTable} {record : List (Event σ)} {name : String}

theorem start : Sound ({} : VariableTable) ([] : List (Event σ)) := by
  refine ⟨?_, ?_⟩
  · intro name hname
    cases hname
  · intro name call later earlier hrecord
    simp at hrecord

/-- The same bindings, and no other variables are being resolved. -/
theorem congr (h : Sound t record) (hget : ∀ name, t'.get? name = t.get? name)
    (hresolving : ∀ name ∈ t'.resolving, name ∈ t.resolving ∨ ∃ call,
      t.get? name = some (.deferred call none)) : Sound t' record := by
  refine ⟨?_, ?_⟩
  · intro name hname call memo hmemo
    rw [hget] at hmemo
    rcases hresolving name hname with hmarked | ⟨pending, hpending⟩
    · exact h.unsettled name hmarked call memo hmemo
    · cases hpending.symm.trans hmemo
      rfl
  · intro name call later earlier hrecord hkept
    exact (h.standing name call later earlier hrecord hkept).congr (hget name)

theorem mark (h : Sound t record) {call : Call} (hget : t.get? name = some (.deferred call none)) :
    Sound (t.mark name) record := by
  refine h.congr (fun _ => rfl) ?_
  intro other hother
  rw [VariableTable.resolving_mark, List.mem_append, List.mem_singleton] at hother
  refine hother.imp_right ?_
  rintro rfl
  exact ⟨call, hget⟩

theorem abandon (h : Sound t record) (name : String) : Sound (t.abandon name) record := by
  refine h.congr (fun _ => rfl) ?_
  intro other hother
  exact Or.inl (List.mem_filter.1 hother).1

/-- One more event. It keeps what is known of the variables that it does not bind. -/
theorem push (h : Sound t record) (e : Event σ)
    (hunsettled : ∀ name ∈ t'.resolving, ∀ call memo, t'.get? name = some (.deferred call memo) →
      memo = none)
    (hbound : ∀ name call, e = .deferred name call → t'.get? name = some (.deferred call none))
    (hkept : ∀ name call reads, ¬ e.Binds name → Standing t name call reads →
      Standing t' name call ((e.readOf? name).toList ++ reads)) : Sound t' (e :: record) := by
  refine ⟨hunsettled, ?_⟩
  intro name call later earlier hrecord hnone
  rcases List.cons_eq_append_iff.1 hrecord with ⟨rfl, hfirst⟩ | ⟨rest, rfl, hrest⟩
  · obtain ⟨rfl, -⟩ := List.cons.inj hfirst
    exact .unread (hbound name call rfl)
  · have hstanding := h.standing name call rest earlier hrest fun d hd => hnone d (by simp [hd])
    rw [Event.readsOf_cons]
    exact hkept name call _ (hnone e (by simp)) hstanding

theorem define (h : Sound t record) (name : String) (value : Value) :
    Sound (t.define name value) (.defined name :: record) := by
  refine h.push _ ?_ ?_ ?_
  · intro other hother call memo hget
    rw [VariableTable.get?_define] at hget
    split at hget
    · cases hget
    · exact h.unsettled other hother call memo hget
  · intro other call he
    cases he
  · intro other call reads hother hstanding
    refine hstanding.congr ?_
    rw [VariableTable.get?_define, if_neg fun heq => hother heq.symm]

theorem defer (h : Sound t record) (name : String) (call : Call) :
    Sound (t.defer name call) (.deferred name call :: record) := by
  refine h.push _ ?_ ?_ ?_
  · intro other hother c memo hget
    rw [VariableTable.get?_defer] at hget
    split at hget
    · cases hget
      rfl
    · exact h.unsettled other hother c memo hget
  · intro other c he
    cases he
    rw [VariableTable.get?_defer, if_pos rfl]
  · intro other c reads hother hstanding
    refine hstanding.congr ?_
    rw [VariableTable.get?_defer, if_neg fun heq => hother heq.symm]

/-- A value that is known is read. -/
theorem ready (h : Sound t record) {b : Binding} {v : Value} (hget : t.get? name = some b)
    (hvalue : b.value? = some v) (w : World σ) :
    Sound t (.returned ⟨name, w, v, w⟩ :: record) := by
  refine h.push _ h.unsettled ?_ ?_
  · intro other call he
    cases he
  · intro other call reads _ hstanding
    by_cases hother : name = other
    · subst hother
      rw [Event.readOf?, if_pos rfl]
      cases hstanding with
      | unread hpending =>
        cases hpending.symm.trans hget
        cases hvalue
      | settled hsettled repeats =>
        cases hsettled.symm.trans hget
        obtain rfl := Option.some.inj hvalue
        exact .settled hsettled (repeats.again rfl rfl)
    · rw [Event.readOf?, if_neg hother]
      exact hstanding

/-- The call of a variable has been evaluated, and its value is kept. -/
theorem resolve (h : Sound t record) (hmarked : name ∈ t.resolving) (before : World σ) (v : Value)
    (after : World σ) :
    Sound (t.resolve name v) (.returned ⟨name, before, v, after⟩ :: record) := by
  have hresolving : (t.resolve name v).resolving = t.resolving.filter (· != name) :=
    VariableTable.resolving_finish t name (.ok v)
  refine h.push _ ?_ ?_ ?_
  · intro other hother call memo hget
    rw [hresolving, List.mem_filter, bne_iff_ne] at hother
    rw [VariableTable.get?_resolve_of_ne t v hother.2] at hget
    exact h.unsettled other hother.1 call memo hget
  · intro other call he
    cases he
  · intro other call reads _ hstanding
    by_cases hother : name = other
    · subst hother
      rw [Event.readOf?, if_pos rfl]
      cases hstanding with
      | unread hpending =>
        refine .settled ?_ (.first rfl)
        rw [VariableTable.get?_resolve, hpending]
        simp
      | settled hsettled repeats => cases h.unsettled name hmarked _ _ hsettled
    · rw [Event.readOf?, if_neg hother]
      exact hstanding.congr (VariableTable.get?_resolve_of_ne t v fun heq => hother heq.symm)

end Sound

end Watched

end Worksheet
