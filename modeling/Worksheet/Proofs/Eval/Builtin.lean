import Mathlib.Data.List.Forall2
import Worksheet.Engine
import Worksheet.Proofs.Eval.Alike

namespace Worksheet

variable {σ τ α β : Type}

/-- In contexts that are alike two functions come to the same. -/
structure ScriptFunction.Alike [RandomSource σ] [RandomSource τ] (f : ScriptFunction σ)
    (g : ScriptFunction τ) : Prop where
  name : f.name = g.name
  call : ∀ {R : World σ → World τ → Prop}, Link R → ∀ {c : Context σ} {d : Context τ},
    c.Alike R d → ∀ call, Eval.Alike R (f.call c call) (g.call d call)

namespace Builtin

variable [RandomSource σ] [RandomSource τ]

open Context

section Drawing

variable {R : World σ → World τ → Prop} (link : DrawLink R) {c : Context σ} {d : Context τ}
variable (h : ∀ call, Eval.Alike R (c.evaluate call) (d.evaluate call))

include link h

theorem fill_call_alike (hwords : c.words = d.words) (call : Call) :
    Eval.Alike R (fill.call c call) (fill.call d call) := by
  refine (textArgument_alike h call 0 "library").next fun query => ?_
  refine (countArgument_alike h call 1 "amount").next fun amount => ?_
  cases filterOf call with
  | error fault => exact .fail _
  | ok filter =>
    have hsample : Eval.Alike R (Eval.choose (c.words.sample query filter amount))
        (Eval.choose (d.words.sample query filter amount)) := by
      apply link.choose
      intro S hS
      rw [hwords]
      exact WordLibrary.sample_alike hS d.words query filter amount
    refine hsample.next fun found => ?_
    cases found with
    | error e => exact .fail _
    | ok words => exact .ok _

theorem randomize_call_alike (call : Call) :
    Eval.Alike R (randomize.call c call) (randomize.call d call) := by
  refine (argument_alike h call 0 "content").next fun content => ?_
  refine (argument?_alike h call 1 "kind").next fun kind => ?_
  refine (countArgument_alike h call 2 "amount").next fun amount => ?_
  split
  · exact .fail _
  · rename_i items _
    have hshuffle : Eval.Alike R (Eval.choose (shuffle items)) (Eval.choose (shuffle items)) :=
      link.choose fun S hS => shuffle_alike hS items
    exact hshuffle.next fun _ => .ok _
  · rename_i mode _ _
    have hmode : ∀ words, Eval.Alike R (Eval.choose (mode.apply amount words))
        (Eval.choose (mode.apply amount words)) :=
      fun words => link.choose fun S hS => Mode.apply_alike hS mode amount words
    exact (hmode _).next fun _ => .ok _

omit link [RandomSource σ] [RandomSource τ]

theorem length_call_alike (call : Call) :
    Eval.Alike R ((length : ScriptFunction σ).call c call)
      ((length : ScriptFunction τ).call d call) :=
  (argument_alike h call 0 "content").next fun _ => .ok _

theorem decorator_call_alike (kind : MarkerKind) (call : Call) :
    Eval.Alike R ((decorator kind : ScriptFunction σ).call c call)
      ((decorator kind : ScriptFunction τ).call d call) :=
  (textArgument_alike h call 0 (markerParameter kind)).next fun _ => .ok _

end Drawing

theorem fill_alike : (fill : ScriptFunction σ).Alike (fill : ScriptFunction τ) where
  name := rfl
  call := fun link _ _ h call => fill_call_alike link.draw h.evaluate h.words call

theorem var_alike : (var : ScriptFunction σ).Alike (var : ScriptFunction τ) where
  name := rfl
  call := by
    intro R link c d h call
    exact (textArgument_alike h.evaluate call 0 "name").next fun name => h.read name

theorem define_alike : (define : ScriptFunction σ).Alike (define : ScriptFunction τ) where
  name := rfl
  call := by
    intro R link c d h call
    refine (textArgument_alike h.evaluate call 0 "name").next fun name => ?_
    dsimp only
    split
    · rename_i inner _
      exact (Eval.Alike.modifyTable (link.defer name inner)).next fun _ => .ok _
    · rename_i p _ _
      refine (evaluateParam_alike h.evaluate p).next fun v => ?_
      exact (Eval.Alike.modifyTable (link.define name v)).next fun _ => .ok _
    · exact (Eval.Alike.fail (α := Unit) _).next fun _ => .ok _

theorem randomize_alike :
    (randomize : ScriptFunction σ).Alike (randomize : ScriptFunction τ) where
  name := rfl
  call := fun link _ _ h call => randomize_call_alike link.draw h.evaluate call

theorem length_alike : (length : ScriptFunction σ).Alike (length : ScriptFunction τ) where
  name := rfl
  call := fun _ _ _ h call => length_call_alike h.evaluate call

theorem decorator_alike (kind : MarkerKind) :
    (decorator kind : ScriptFunction σ).Alike (decorator kind : ScriptFunction τ) where
  name := rfl
  call := fun _ _ _ h call => decorator_call_alike h.evaluate kind call

theorem functions_alike : List.Forall₂ ScriptFunction.Alike (functions : List (ScriptFunction σ))
    (functions : List (ScriptFunction τ)) := by
  have hkinds : List.Forall₂ ScriptFunction.Alike
      (MarkerKind.all.map (decorator : MarkerKind → ScriptFunction σ))
      (MarkerKind.all.map (decorator : MarkerKind → ScriptFunction τ)) := by
    rw [List.forall₂_map_left_iff, List.forall₂_map_right_iff, List.forall₂_same]
    exact fun kind _ => decorator_alike kind
  exact .cons fill_alike <| .cons var_alike <| .cons define_alike <| .cons randomize_alike <|
    .cons length_alike hkinds

end Builtin

/-- The same keys in the same order, with values that are related. -/
def Keyed.Alike (r : α → β → Prop) (xs : Keyed α) (ys : Keyed β) : Prop :=
  List.Forall₂ (fun x y => x.1 = y.1 ∧ r x.2 y.2) xs ys

namespace Keyed.Alike

variable {r : α → β → Prop} {xs : Keyed α} {ys : Keyed β}

theorem insert (h : Alike r xs ys) (key : String) {a : α} {b : β} (hab : r a b) :
    Alike r (xs.insert key a) (ys.insert key b) := by
  induction h with
  | nil => exact .cons ⟨rfl, hab⟩ .nil
  | @cons x y xs ys hxy hrest ih =>
    obtain ⟨k, v⟩ := x
    obtain ⟨k', v'⟩ := y
    obtain ⟨rfl, hv⟩ := hxy
    rw [Keyed.insert, Keyed.insert]
    split
    · exact .cons ⟨rfl, hab⟩ (.cons ⟨rfl, hv⟩ hrest)
    · split
      · exact .cons ⟨rfl, hab⟩ hrest
      · exact .cons ⟨rfl, hv⟩ ih

theorem get? (h : Alike r xs ys) (key : String) :
    Option.Rel r (xs.get? key) (ys.get? key) := by
  induction h with
  | nil => exact .none
  | @cons x y xs ys hxy _ ih =>
    obtain ⟨k, v⟩ := x
    obtain ⟨k', v'⟩ := y
    obtain ⟨rfl, hv⟩ := hxy
    rw [Keyed.get?, Keyed.get?]
    split
    · exact .some hv
    · exact ih

theorem contains (h : Alike r xs ys) (key : String) : xs.contains key = ys.contains key := by
  have hrel := h.get? key
  rw [Keyed.contains, Keyed.contains]
  generalize xs.get? key = x at hrel ⊢
  generalize ys.get? key = y at hrel ⊢
  cases hrel <;> rfl

end Keyed.Alike

namespace FunctionRegistry

/-- Functions that are related and have the same names are registered alike. -/
theorem registerAll_alike {r : ScriptFunction σ → ScriptFunction τ → Prop}
    (hname : ∀ f g, r f g → f.name = g.name) {fs : List (ScriptFunction σ)}
    {gs : List (ScriptFunction τ)} (hfs : List.Forall₂ r fs gs) {known : FunctionRegistry σ}
    {known' : FunctionRegistry τ} (h : Keyed.Alike r known.functions known'.functions) :
    Keyed.Alike r (known.registerAll fs).1.functions (known'.registerAll gs).1.functions := by
  induction hfs generalizing known known' with
  | nil => exact h
  | @cons f g fs gs hfg _ ih =>
    have hcontains := h.contains (Text.asciiLower g.name)
    rw [FunctionRegistry.registerAll, FunctionRegistry.registerAll, register, register,
      hname f g hfg, hcontains]
    by_cases htaken : known'.functions.contains (Text.asciiLower g.name) = true
    · rw [if_pos htaken, if_pos htaken]
      exact h
    · rw [if_neg htaken, if_neg htaken]
      exact ih (h.insert _ hfg)

variable [RandomSource σ] [RandomSource τ]

/-- Related functions under the same names. -/
def Alike (r : FunctionRegistry σ) (s : FunctionRegistry τ) : Prop :=
  Keyed.Alike ScriptFunction.Alike r.functions s.functions

theorem Alike.registerAll {fs : List (ScriptFunction σ)} {gs : List (ScriptFunction τ)}
    (hfs : List.Forall₂ ScriptFunction.Alike fs gs) {r : FunctionRegistry σ}
    {s : FunctionRegistry τ} (h : r.Alike s) : (r.registerAll fs).1.Alike (s.registerAll gs).1 :=
  registerAll_alike (fun _ _ hfg => hfg.name) hfs h

/-- The built-in functions under their names. -/
def builtin : FunctionRegistry σ :=
  (({} : FunctionRegistry σ).registerAll Builtin.functions).1

theorem builtin_alike : (builtin : FunctionRegistry σ).Alike (builtin : FunctionRegistry τ) :=
  Alike.registerAll Builtin.functions_alike List.Forall₂.nil

theorem find?_builtin_alike (name : String) : Option.Rel ScriptFunction.Alike
    ((builtin : FunctionRegistry σ).find? name) ((builtin : FunctionRegistry τ).find? name) :=
  builtin_alike.get? (Text.asciiLower name)

end FunctionRegistry

theorem Engine.functions_builtin [RandomSource σ] :
    (Engine.builtin : Engine σ).functions = FunctionRegistry.builtin := by
  rw [builtin, install, if_neg Bool.false_ne_true, FunctionRegistry.builtin]
  split <;> rename_i h
  · rw [h]
  · split <;> rw [h]

end Worksheet
