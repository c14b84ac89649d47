import Worksheet.Proofs.Engine.Builtin

namespace Worksheet

namespace FunctionRegistry

variable {σ : Type} {r : FunctionRegistry σ} {f : ScriptFunction σ} {fs : List (ScriptFunction σ)}

/-- A function is refused exactly if its name is taken. Otherwise its name is the only new one. -/
theorem register_cases (r : FunctionRegistry σ) (f : ScriptFunction σ) :
    (r.contains f.name = true ∧
        r.register f = .error (.duplicateFunction (Text.asciiLower f.name))) ∨
      (r.contains f.name = false ∧ ∃ next, r.register f = .ok next ∧
        ∀ name, next.contains name = true ↔
          Text.asciiLower name = Text.asciiLower f.name ∨ r.contains name = true) := by
  have hkey : r.functions.contains (Text.asciiLower f.name) = r.contains f.name := rfl
  rw [register, hkey]
  cases htaken : r.contains f.name with
  | true => exact Or.inl ⟨rfl, rfl⟩
  | false =>
    refine Or.inr ⟨rfl, _, rfl, fun name => ?_⟩
    rw [contains, contains, find?, find?]
    by_cases hname : Text.asciiLower name = Text.asciiLower f.name
    · rw [hname, Keyed.get?_insert_self]
      simp
    · rw [Keyed.get?_insert_of_ne _ _ hname]
      simp [hname]

/-- What is registered stays registered. -/
theorem contains_registerAll {name : String} (h : r.contains name = true) :
    (r.registerAll fs).1.contains name = true := by
  induction fs generalizing r with
  | nil => exact h
  | cons f rest ih =>
    rw [registerAll]
    rcases r.register_cases f with ⟨-, hrefused⟩ | ⟨-, next, hnext, hnames⟩
    · rw [hrefused]
      exact h
    · rw [hnext]
      exact ih ((hnames name).2 (Or.inr h))

theorem contains_registerAll_cons (r : FunctionRegistry σ) (f : ScriptFunction σ)
    (rest : List (ScriptFunction σ)) : (r.registerAll (f :: rest)).1.contains f.name = true := by
  rw [registerAll]
  rcases r.register_cases f with ⟨htaken, hrefused⟩ | ⟨-, next, hnext, hnames⟩
  · rw [hrefused]
    exact htaken
  · rw [hnext]
    exact contains_registerAll ((hnames f.name).2 (Or.inl rfl))

theorem registerAll_of_contains (h : r.contains f.name = true) (rest : List (ScriptFunction σ)) :
    r.registerAll (f :: rest) = (r, .error (.duplicateFunction (Text.asciiLower f.name))) := by
  rw [registerAll]
  rcases r.register_cases f with ⟨-, hrefused⟩ | ⟨hfree, -⟩
  · rw [hrefused]
  · rw [h] at hfree
    cases hfree

/-- Functions with different names are all registered exactly if their names are free. -/
theorem registerAll_eq_ok_iff (hnodup : (fs.map fun f => Text.asciiLower f.name).Nodup) :
    (r.registerAll fs).2 = .ok () ↔ ∀ f ∈ fs, r.contains f.name = false := by
  constructor
  · intro hok
    induction fs generalizing r with
    | nil => simp
    | cons f rest ih =>
      rw [registerAll] at hok
      rcases r.register_cases f with ⟨-, hrefused⟩ | ⟨hfree, next, hnext, hnames⟩
      · rw [hrefused] at hok
        cases hok
      · rw [hnext] at hok
        have hrest := ih (List.nodup_cons.1 hnodup).2 hok
        refine List.forall_mem_cons.2 ⟨hfree, fun g hg => ?_⟩
        have hg := hrest g hg
        rw [← Bool.not_eq_true] at hg ⊢
        exact fun htaken => hg ((hnames g.name).2 (Or.inr htaken))
  · intro hfree
    refine registerAll_of_nodup (fun f hf => ?_) hnodup
    have hnone := hfree f hf
    rwa [contains, find?, Option.isSome_eq_false_iff, Option.isNone_iff_eq_none] at hnone

theorem exists_of_registerAll {e : RegistryError} (h : (r.registerAll fs).2 = .error e) :
    ∃ f ∈ fs, e = .duplicateFunction (Text.asciiLower f.name) := by
  induction fs generalizing r with
  | nil => cases h
  | cons f rest ih =>
    rw [registerAll] at h
    rcases r.register_cases f with ⟨-, hrefused⟩ | ⟨-, next, hnext, -⟩
    · rw [hrefused] at h
      cases h
      exact ⟨f, List.mem_cons_self, rfl⟩
    · rw [hnext] at h
      obtain ⟨g, hg, he⟩ := ih h
      exact ⟨g, List.mem_cons_of_mem _ hg, he⟩

/-- The first of some functions with different names is refused only if its name is taken. -/
theorem contains_of_registerAll_cons
    (hnodup : ((f :: fs).map fun f => Text.asciiLower f.name).Nodup)
    (h : (r.registerAll (f :: fs)).2 = .error (.duplicateFunction (Text.asciiLower f.name))) :
    r.contains f.name = true := by
  rw [registerAll] at h
  rcases r.register_cases f with ⟨htaken, -⟩ | ⟨-, next, hnext, -⟩
  · exact htaken
  · rw [hnext] at h
    obtain ⟨g, hg, he⟩ := exists_of_registerAll h
    have hname : Text.asciiLower f.name = Text.asciiLower g.name := by injection he
    exact absurd (List.mem_map.2 ⟨g, hg, hname.symm⟩) (List.nodup_cons.1 hnodup).1

end FunctionRegistry

namespace KindSpec

/-- The tag and the aliases as they are written. -/
def names (s : KindSpec) : List String :=
  s.tag :: s.aliases

/-- None of the names of a description stands for a kind. -/
def FreeIn (s : KindSpec) (r : KindRegistry) : Prop :=
  ∀ name ∈ s.names, r.get? name = none

theorem names_of_build {s : KindSpec} {k : Kind} (h : s.build = .ok k) :
    k.names = s.names.map key := by
  obtain ⟨htag, -, -, -, -, haliases, -⟩ := of_build h
  rw [Kind.names, htag, haliases, names, List.map_cons]

end KindSpec

namespace KindRegistry

variable {r : KindRegistry} {s : KindSpec} {k : Kind}

theorem Indexed.freeIn_iff (h : r.Indexed) (hb : s.build = .ok k) :
    s.FreeIn r ↔ ∀ name ∈ k.names, r.index.get? name = none := by
  rw [KindSpec.names_of_build hb, List.forall_mem_map]
  exact forall₂_congr fun name _ => h.owner?_eq_none_iff

theorem registerSpec_of_build (hb : s.build = .ok k) :
    r.registerSpec s = (r.register k).2.map fun () => (r.register k).1 := by
  rw [registerSpec, hb]
  rfl

/-- A complete description is entered exactly if its names are free. -/
theorem Indexed.registerSpec_cases (h : r.Indexed) (hb : s.build = .ok k) :
    (¬ s.FreeIn r ∧ ∃ e, r.registerSpec s = .error e) ∨
      (s.FreeIn r ∧ r.registerSpec s = .ok (r.enter k) ∧ (r.enter k).Indexed) := by
  obtain ⟨-, -, -, -, -, -, hcheck⟩ := KindSpec.of_build hb
  rw [h.freeIn_iff hb, registerSpec_of_build hb]
  by_cases hfree : ∀ name ∈ k.names, r.index.get? name = none
  · have hnext := h.enter hfree (KindSpec.key_of_mem_names hb)
    rw [register_of_free hcheck hfree]
    exact Or.inr ⟨hfree, rfl, hnext⟩
  · refine Or.inl ⟨hfree, ?_⟩
    cases hresult : (r.register k).2 with
    | error e => exact ⟨e, rfl⟩
    | ok => exact absurd ((h.register_eq_ok_iff hb).1 hresult) hfree

/-- A name stands for nothing after a kind is entered if it is none of the kind's names and stood
for nothing before. -/
theorem Indexed.get?_enter_eq_none_iff (h : r.Indexed) (hnext : (r.enter k).Indexed)
    {name : String} :
    (r.enter k).get? name = none ↔ KindSpec.key name ∉ k.names ∧ r.get? name = none := by
  have hindex : (r.enter k).index.get? (KindSpec.key name) =
      if KindSpec.key name ∈ k.names then some r.kinds.length
      else r.index.get? (KindSpec.key name) :=
    Keyed.get?_foldl_insert_const k.names r.kinds.length r.index _
  rw [get?, get?, hnext.owner?_eq_none_iff, h.owner?_eq_none_iff, hindex]
  by_cases hown : KindSpec.key name ∈ k.names <;> simp [hown]

/-- Complete descriptions without a common name are all entered exactly if their names are free. -/
theorem Indexed.registerAll_eq_ok_iff {specs : List KindSpec} (h : r.Indexed)
    (hbuild : ∀ s ∈ specs, ∃ k, s.build = .ok k)
    (hdistinct : specs.Pairwise fun s t => ∀ name ∈ s.names, ∀ other ∈ t.names,
      KindSpec.key name ≠ KindSpec.key other) :
    (r.registerAll specs).2 = .ok () ↔ ∀ s ∈ specs, s.FreeIn r := by
  induction specs generalizing r with
  | nil => simp [KindRegistry.registerAll]
  | cons s rest ih =>
    obtain ⟨⟨k, hb⟩, hbuildRest⟩ := List.forall_mem_cons.1 hbuild
    obtain ⟨hother, hdistinctRest⟩ := List.pairwise_cons.1 hdistinct
    rw [KindRegistry.registerAll, List.forall_mem_cons]
    rcases h.registerSpec_cases hb with ⟨htaken, e, he⟩ | ⟨hfree, hok, hnext⟩
    · simp [he, htaken]
    · have hsame : ∀ t ∈ rest, t.FreeIn (r.enter k) ↔ t.FreeIn r := by
        intro t ht
        refine forall₂_congr fun name hname => ?_
        rw [h.get?_enter_eq_none_iff hnext, and_iff_right]
        rw [KindSpec.names_of_build hb, List.mem_map]
        rintro ⟨own, hown, hkey⟩
        exact hother t ht own hown name hname hkey
      rw [hok]
      dsimp only
      rw [ih hnext hbuildRest hdistinctRest, and_iff_right hfree]
      exact forall₂_congr hsame

/-- A kind is not refused because of the name of a function. -/
theorem registerAll_ne_duplicateFunction {specs : List KindSpec}
    (hbuild : ∀ s ∈ specs, ∃ k, s.build = .ok k) (r : KindRegistry) (name : String) :
    (r.registerAll specs).2 ≠ .error (.duplicateFunction name) := by
  induction specs generalizing r with
  | nil => simp [registerAll]
  | cons s rest ih =>
    obtain ⟨⟨k, hb⟩, hrest⟩ := List.forall_mem_cons.1 hbuild
    obtain ⟨-, -, -, -, -, -, hcheck⟩ := KindSpec.of_build hb
    rw [registerAll, registerSpec_of_build hb]
    have hown : (r.register k).2 ≠ .error (.duplicateFunction name) := by
      simp only [register, hcheck]
      split_ifs
      · simp
      · split <;> simp
    cases hresult : (r.register k).2 with
    | ok => exact ih hrest _
    | error e =>
      rintro ⟨⟩
      exact hown hresult

end KindRegistry

namespace Engine

variable {σ : Type} [RandomSource σ]

/-- What is done to the registries of an engine. -/
inductive Registration (σ : Type) where
  | function (f : ScriptFunction σ)
  | kind (s : KindSpec)
  | builtin

/-- The engine after a registration. A function or a kind that is refused leaves it as it is. -/
def Registration.apply (e : Engine σ) : Registration σ → Engine σ
  | .function f => (e.registerFunction f).toOption.getD e
  | .kind s => (s.build.bind e.registerKind).toOption.getD e
  | .builtin => e.install.1

/-- The engine after registrations, from one without functions and kinds. -/
def after (done : List (Registration σ)) : Engine σ :=
  done.foldl Registration.apply {}

/-- None of the names of the built-in functions and kinds is taken. -/
structure Vacant (e : Engine σ) : Prop where
  functions : ∀ f ∈ (Builtin.functions : List (ScriptFunction σ)),
    e.functions.contains f.name = false
  kinds : ∀ s ∈ Kind.builtin, s.FreeIn e.kinds

/-- What an installation comes to: it was completed before, a function is refused, a kind is
refused, or all of them are entered. -/
inductive Installs (e : Engine σ) : Engine σ × Except RegistryError Unit → Prop
  | again (installed : e.installed = true) : Installs e (e, .ok ())
  | function {err : RegistryError} (fresh : e.installed = false)
      (refused : (e.functions.registerAll Builtin.functions).2 = .error err) :
      Installs e ({ e with functions := (e.functions.registerAll Builtin.functions).1 }, .error err)
  | kind {err : RegistryError} (fresh : e.installed = false)
      (functions : (e.functions.registerAll Builtin.functions).2 = .ok ())
      (refused : (e.kinds.registerAll Kind.builtin).2 = .error err) :
      Installs e ({ e with
        functions := (e.functions.registerAll Builtin.functions).1
        kinds := (e.kinds.registerAll Kind.builtin).1 }, .error err)
  | whole (fresh : e.installed = false)
      (functions : (e.functions.registerAll Builtin.functions).2 = .ok ())
      (kinds : (e.kinds.registerAll Kind.builtin).2 = .ok ()) :
      Installs e ({ e with
        functions := (e.functions.registerAll Builtin.functions).1
        kinds := (e.kinds.registerAll Kind.builtin).1
        installed := true }, .ok ())

theorem installs (e : Engine σ) : Installs e e.install := by
  rw [install]
  split
  · exact .again ‹_›
  · rename_i hopen
    have hfresh : e.installed = false := by simpa using hopen
    have hfunction {err : RegistryError} := @Installs.function σ _ e err hfresh
    have hkind {err : RegistryError} := @Installs.kind σ _ e err hfresh
    have hwhole := Installs.whole hfresh
    generalize e.functions.registerAll Builtin.functions = entered at *
    obtain ⟨functions, _ | _⟩ := entered
    · exact hfunction rfl
    · generalize e.kinds.registerAll Kind.builtin = entered at *
      obtain ⟨kinds, _ | _⟩ := entered
      · exact hkind rfl rfl
      · exact hwhole rfl rfl

variable {e : Engine σ}

theorem functions_eq_cons :
    ∃ rest : List (ScriptFunction σ), Builtin.functions = Builtin.fill :: rest :=
  ⟨_, rfl⟩

theorem asciiLower_fill : Text.asciiLower (Builtin.fill : ScriptFunction σ).name = "fill" := by
  show Text.asciiLower "fill" = "fill"
  decide +kernel

theorem contains_fill_registerAll (r : FunctionRegistry σ) :
    (r.registerAll Builtin.functions).1.contains "fill" = true := by
  obtain ⟨rest, hfunctions⟩ := functions_eq_cons (σ := σ)
  rw [hfunctions]
  exact r.contains_registerAll_cons Builtin.fill rest

theorem install_of_contains_fill (h : e.installed = false)
    (hfill : e.functions.contains "fill" = true) :
    e.install = (e, .error (.duplicateFunction "fill")) := by
  obtain ⟨rest, hfunctions⟩ := functions_eq_cons (σ := σ)
  have hrefused := FunctionRegistry.registerAll_of_contains (f := Builtin.fill) hfill rest
  rw [asciiLower_fill] at hrefused
  rw [install, if_neg (by simp [h]), hfunctions, hrefused]

/-- What an installation has entered stands in the way of the next one, unless all is entered. -/
theorem install_install (e : Engine σ) :
    (e.install.2 = .ok () ∧ e.install.1.install = (e.install.1, .ok ())) ∨
      ∃ err, e.install.2 = .error err ∧
        e.install.1.install = (e.install.1, .error (.duplicateFunction "fill")) := by
  have hfill := contains_fill_registerAll e.functions
  have hinstalls := e.installs
  generalize e.install = outcome at hinstalls ⊢
  cases hinstalls with
  | again installed => exact Or.inl ⟨rfl, by rw [install, if_pos installed]⟩
  | function fresh => exact Or.inr ⟨_, rfl, install_of_contains_fill fresh hfill⟩
  | kind fresh => exact Or.inr ⟨_, rfl, install_of_contains_fill fresh hfill⟩
  | whole => exact Or.inl ⟨rfl, rfl⟩

theorem build_of_mem_builtin : ∀ s ∈ Kind.builtin, ∃ k, s.build = .ok k := fun s hs => by
  obtain ⟨k, hb, -⟩ := KindRegistry.exists_builtin s hs
  exact ⟨k, hb⟩

theorem pairwise_names_builtin : Kind.builtin.Pairwise fun s t => ∀ name ∈ s.names,
    ∀ other ∈ t.names, KindSpec.key name ≠ KindSpec.key other := by
  have hnames : (Kind.builtin.map KindSpec.names).Pairwise fun xs ys => ∀ name ∈ xs,
      ∀ other ∈ ys, KindSpec.key name ≠ KindSpec.key other := by decide +kernel
  exact List.pairwise_map.1 hnames

/-- All is entered exactly if it was before or if all names are free. -/
theorem install_eq_ok_iff (h : e.kinds.Indexed) :
    e.install.2 = .ok () ↔ e.installed = true ∨ Vacant e := by
  have hfunctions : (e.functions.registerAll Builtin.functions).2 = .ok () ↔
      ∀ f ∈ Builtin.functions, e.functions.contains f.name = false :=
    FunctionRegistry.registerAll_eq_ok_iff Builtin.nodup_functions
  have hkinds : (e.kinds.registerAll Kind.builtin).2 = .ok () ↔
      ∀ s ∈ Kind.builtin, s.FreeIn e.kinds :=
    h.registerAll_eq_ok_iff build_of_mem_builtin pairwise_names_builtin
  have hinstalls := e.installs
  generalize e.install = outcome at hinstalls ⊢
  cases hinstalls with
  | again installed => simp [installed]
  | function fresh refused =>
    have htaken : ¬ Vacant e := fun hv => by
      rw [hfunctions.2 hv.functions] at refused
      cases refused
    simp [fresh, htaken]
  | kind fresh functions refused =>
    have htaken : ¬ Vacant e := fun hv => by
      rw [hkinds.2 hv.kinds] at refused
      cases refused
    simp [fresh, htaken]
  | whole fresh functions kinds =>
    have hvacant : Vacant e := ⟨hfunctions.1 functions, hkinds.1 kinds⟩
    simp [hvacant]

/-- The first built-in function is refused exactly if its name is taken. -/
theorem install_eq_refused_iff : e.install.2 = .error (.duplicateFunction "fill") ↔
    e.installed = false ∧ e.functions.contains "fill" = true := by
  constructor
  · intro hrefused
    have hinstalls := e.installs
    generalize e.install = outcome at hinstalls hrefused
    cases hinstalls with
    | again => cases hrefused
    | function fresh refused =>
      obtain ⟨rest, hfunctions⟩ := functions_eq_cons (σ := σ)
      have hnodup := Builtin.nodup_functions (σ := σ)
      rw [hfunctions] at refused hnodup
      have htaken := refused.trans hrefused
      rw [← asciiLower_fill (σ := σ)] at htaken
      have hcontains := FunctionRegistry.contains_of_registerAll_cons hnodup htaken
      exact ⟨fresh, hcontains⟩
    | kind fresh functions refused =>
      exact absurd (refused.trans hrefused)
        (KindRegistry.registerAll_ne_duplicateFunction build_of_mem_builtin _ _)
    | whole => cases hrefused
  · rintro ⟨hfresh, hfill⟩
    rw [install_of_contains_fill hfresh hfill]

omit [RandomSource σ] in
theorem indexed_registerKind (h : e.kinds.Indexed) {s : KindSpec} {k : Kind}
    (hb : s.build = .ok k) : ((e.registerKind k).toOption.getD e).kinds.Indexed := by
  have hnext := h.register hb
  rw [registerKind]
  generalize e.kinds.register k = entered at hnext ⊢
  obtain ⟨kinds, _ | _⟩ := entered
  · exact h
  · exact hnext

theorem Registration.indexed_apply (h : e.kinds.Indexed) (registration : Registration σ) :
    (registration.apply e).kinds.Indexed := by
  cases registration with
  | function f =>
    rw [apply, registerFunction]
    cases e.functions.register f <;> exact h
  | kind s =>
    rw [apply]
    cases hb : s.build with
    | error err => exact h
    | ok k => exact indexed_registerKind h hb
  | builtin =>
    have hinstalls := e.installs
    rw [apply]
    generalize e.install = outcome at hinstalls ⊢
    cases hinstalls with
    | again => exact h
    | function => exact h
    | kind => exact h.registerAll Kind.builtin
    | whole => exact h.registerAll Kind.builtin

theorem indexed_after (done : List (Registration σ)) : (after done).kinds.Indexed := by
  have hrun : ∀ e : Engine σ, e.kinds.Indexed →
      (done.foldl Registration.apply e).kinds.Indexed := by
    induction done with
    | nil => exact fun e he => he
    | cons registration rest ih => exact fun e he => ih _ (registration.indexed_apply he)
  exact hrun {} KindRegistry.indexed_empty

/-- After any registrations, the second of two installations in a row changes nothing. It tells the
same as the first one exactly if the built-in functions and kinds were installed before, if none of
their names is taken, or if the first of these names is. -/
theorem install_twice (done : List (Registration σ)) :
    let e : Engine σ := after done
    e.install.1.install.1 = e.install.1 ∧
      (e.install.2 = .ok () ↔ e.installed = true ∨ Vacant e) ∧
      (e.install.1.install.2 = e.install.2 ↔
        e.installed = true ∨ Vacant e ∨ e.functions.contains "fill" = true) := by
  intro e
  have hok : e.install.2 = .ok () ↔ e.installed = true ∨ Vacant e :=
    install_eq_ok_iff (indexed_after done)
  refine ⟨?_, hok, ?_⟩
  · rcases e.install_install with ⟨-, hsecond⟩ | ⟨err, -, hsecond⟩ <;> rw [hsecond]
  · have hrefused := install_eq_refused_iff (e := e)
    rw [← or_assoc, ← hok]
    rcases e.install_install with ⟨hfirst, hsecond⟩ | ⟨err, hfirst, hsecond⟩
    · simp [hfirst, hsecond]
    · rw [hfirst] at hok hrefused
      have hfresh : e.installed = false := by
        rw [← Bool.not_eq_true]
        exact fun installed => nomatch hok.2 (Or.inl installed)
      rw [hfirst, hsecond, eq_comm, hrefused]
      simp [hfresh]

/-- A function that takes the name of a built-in one, but not of the first. -/
def shuffler : ScriptFunction σ where
  name := "Randomize"
  signature := "Randomize()"
  call _ _ := return .empty

/-- The first installation is refused for the name that is taken, and the second one for a name that
the first has entered. -/
theorem refused_install_differs :
    let e : Engine Draws := after [.function shuffler]
    e.install.2 = .error (.duplicateFunction "randomize") ∧
      e.install.1.install.2 = .error (.duplicateFunction "fill") ∧
      e.install.1.install.2 ≠ e.install.2 := by
  decide +kernel

end Engine

end Worksheet
