import Worksheet.Engine
import Worksheet.Proofs.Kind.Variation

namespace Worksheet

/-- Functions whose names are free and differ from each other are all registered. -/
theorem FunctionRegistry.registerAll_of_nodup {σ : Type} {fs : List (ScriptFunction σ)}
    {r : FunctionRegistry σ}
    (hfree : ∀ f ∈ fs, r.functions.get? (Text.asciiLower f.name) = none)
    (hnodup : (fs.map fun f => Text.asciiLower f.name).Nodup) :
    (r.registerAll fs).2 = .ok () := by
  induction fs generalizing r with
  | nil => rfl
  | cons f rest ih =>
    have hf : r.functions.get? (Text.asciiLower f.name) = none := hfree f (by simp)
    obtain ⟨hnew, hrest⟩ := List.nodup_cons.1 hnodup
    have hregister : r.register f = .ok ⟨r.functions.insert (Text.asciiLower f.name) f⟩ := by
      simp [register, Keyed.contains, hf]
    rw [registerAll, hregister]
    apply ih _ hrest
    intro g hg
    have hne : Text.asciiLower g.name ≠ Text.asciiLower f.name := by
      intro he
      exact hnew (List.mem_map.2 ⟨g, hg, he⟩)
    rw [Keyed.get?_insert_of_ne _ _ hne]
    exact hfree g (by simp [hg])

/-- A name that none of the functions has stands for what it stood for. -/
theorem FunctionRegistry.get?_registerAll_of_forall_ne {σ : Type} {fs : List (ScriptFunction σ)}
    {r : FunctionRegistry σ} {key : String} (h : ∀ f ∈ fs, key ≠ Text.asciiLower f.name) :
    (r.registerAll fs).1.functions.get? key = r.functions.get? key := by
  induction fs generalizing r with
  | nil => rfl
  | cons f rest ih =>
    rw [registerAll, register]
    split
    · rfl
    · rename_i next hnext
      split at hnext
      · cases hnext
      · obtain rfl := Except.ok.inj hnext
        rw [ih fun g hg => h g (by simp [hg])]
        exact Keyed.get?_insert_of_ne _ _ (h f (by simp))

/-- Functions whose names are free and differ from each other are found under their names. -/
theorem FunctionRegistry.get?_registerAll {σ : Type} {fs : List (ScriptFunction σ)}
    {r : FunctionRegistry σ}
    (hfree : ∀ f ∈ fs, r.functions.get? (Text.asciiLower f.name) = none)
    (hnodup : (fs.map fun f => Text.asciiLower f.name).Nodup) :
    ∀ f ∈ fs, (r.registerAll fs).1.functions.get? (Text.asciiLower f.name) = some f := by
  induction fs generalizing r with
  | nil => simp
  | cons f rest ih =>
    have hf : r.functions.get? (Text.asciiLower f.name) = none := hfree f (by simp)
    obtain ⟨hnew, hrest⟩ := List.nodup_cons.1 hnodup
    have hne : ∀ g ∈ rest, Text.asciiLower f.name ≠ Text.asciiLower g.name := by
      intro g hg he
      exact hnew (List.mem_map.2 ⟨g, hg, he.symm⟩)
    have hregister : r.register f = .ok ⟨r.functions.insert (Text.asciiLower f.name) f⟩ := by
      simp [register, Keyed.contains, hf]
    intro g hg
    rw [registerAll, hregister]
    dsimp only
    rcases List.mem_cons.1 hg with rfl | hg
    · rw [get?_registerAll_of_forall_ne hne]
      exact Keyed.get?_insert_self _ _ _
    · refine ih ?_ hrest g hg
      intro g hg
      rw [Keyed.get?_insert_of_ne _ _ (hne g hg).symm]
      exact hfree g (by simp [hg])

/-- The names of the built-in functions differ from each other. -/
theorem Builtin.nodup_functions {σ : Type} [RandomSource σ] :
    (functions.map fun f : ScriptFunction σ => Text.asciiLower f.name).Nodup := by
  have hnames : (functions.map fun f : ScriptFunction σ => Text.asciiLower f.name) =
      ["fill", "var", "define", "randomize", "length", "img", "idea", "ins", "notes"].map
        Text.asciiLower := rfl
  rw [hnames]
  decide +kernel

namespace Engine

variable {σ : Type} [RandomSource σ]

/-- The built-in engine with words of its own. -/
def withWords (words : WordLibrary) : Engine σ :=
  { builtin with words }

theorem registerAll_functions :
    (({} : FunctionRegistry σ).registerAll Builtin.functions).2 = .ok () := by
  apply FunctionRegistry.registerAll_of_nodup
  · intro f _
    rfl
  · exact Builtin.nodup_functions

theorem kinds_builtin : (builtin : Engine σ).kinds = KindRegistry.builtin := by
  have hf : (({} : FunctionRegistry σ).registerAll Builtin.functions).2 = .ok () :=
    registerAll_functions
  rw [builtin, install, if_neg Bool.false_ne_true]
  dsimp only
  cases h : ({} : FunctionRegistry σ).registerAll Builtin.functions with
  | mk functions result =>
    rw [h] at hf
    dsimp only at hf
    subst hf
    dsimp only
    split <;> rename_i hk <;> exact (congrArg Prod.fst hk).symm

theorem kinds_withWords (words : WordLibrary) :
    (withWords words : Engine σ).kinds = KindRegistry.builtin := by
  have h : ∀ e : Engine σ, ({ e with words } : Engine σ).kinds = e.kinds := fun _ => rfl
  rw [← kinds_builtin (σ := σ)]
  exact h builtin

end Engine

end Worksheet
