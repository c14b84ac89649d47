import Worksheet.Kind.Builtin
import Worksheet.Proofs.Kind.Registry

namespace Worksheet

namespace Kind

/-- How content is read in a variation, or without one. -/
def readAs (k : Kind) (v : Option Variation) : List ContentLine → Except ContentError Body :=
  ((v.bind (·.grammar)).bind (·.parse)).getD k.grammar.parse

def checkAs (k : Kind) (v : Option Variation) (body : Body) : Validation :=
  match (v.bind (·.grammar)).bind (·.validate) with
  | some check => check body
  | none => (k.grammar.validate body).getD (.error "internal error while validating content")

def writeAs (k : Kind) (v : Option Variation) : Body → Except ContentError (List String) :=
  ((v.bind (·.grammar)).bind (·.serialize)).getD k.grammar.serialize

/-- The name of every variation leads to it. -/
def NamesVariations (k : Kind) : Prop :=
  ∀ v ∈ k.variations, k.variation? v.name = some v

theorem mem_of_variation? {k : Kind} {name : String} {v : Variation}
    (h : k.variation? name = some v) : v ∈ k.variations :=
  List.mem_of_find?_eq_some h

end Kind

namespace KindRegistry

variable {r : KindRegistry} {tag : String} {k : Kind} {lines : List ContentLine}
  {hint : Option String} {c : Content} {v : Option Variation}

theorem mem_of_chooseVariation {v : Variation}
    (h : chooseVariation k hint lines = .ok (some v)) : v ∈ k.variations := by
  cases hint with
  | none =>
    have hd : k.detectVariation? lines = some v := Except.ok.inj h
    rw [Kind.detectVariation?, Option.or_eq_some_iff] at hd
    rcases hd with hd | ⟨-, hd⟩
    · obtain ⟨name, -, hname⟩ := Option.bind_eq_some_iff.1 hd
      exact Kind.mem_of_variation? hname
    · obtain ⟨name, -, hname⟩ := Option.bind_eq_some_iff.1 hd
      exact Kind.mem_of_variation? hname
  | some name =>
    rw [chooseVariation] at h
    cases hname : k.variation? name with
    | none =>
      rw [hname] at h
      cases h
    | some w =>
      rw [hname] at h
      obtain rfl : w = v := Option.some.inj (Except.ok.inj h)
      exact Kind.mem_of_variation? hname

/-- A variation that is asked for by its name is chosen. -/
theorem chooseVariation_name (hk : k.NamesVariations) {v : Variation} (hv : v ∈ k.variations) :
    chooseVariation k (some v.name) lines = .ok (some v) := by
  have hname : k.variation? v.name = some v := hk v hv
  rw [chooseVariation, hname]

theorem parse_eq_ok_iff (hk : r.get? tag = some k) : r.parse tag lines hint = .ok c ↔
    ∃ v, chooseVariation k hint lines = .ok v ∧ k.readAs v lines = .ok c.body ∧
      c.variation = v.map (·.name) := by
  simp only [parse, hk]
  cases hv : chooseVariation k hint lines with
  | error e => simp [bind, Except.bind]
  | ok v =>
    have hread : ((v.bind (·.grammar)).bind (·.parse)).getD k.grammar.parse = k.readAs v := rfl
    obtain ⟨body, variation⟩ := c
    cases hb : k.readAs v lines <;> simp [bind, Except.bind, pure, Except.pure, hread, hb, eq_comm]

/-- A kind without variations has none to choose. -/
theorem chooseVariation_eq_ok_iff_of_nil (hk : k.variations = []) :
    chooseVariation k hint lines = .ok v ↔ hint = none ∧ v = none := by
  have hnone : ∀ name, k.variation? name = none := by
    intro name
    rw [Kind.variation?, hk]
    rfl
  cases hint with
  | none =>
    have hdetect : k.detectVariation? lines = none := by
      simp [Kind.detectVariation?, hnone]
    simp [chooseVariation, hdetect, eq_comm]
  | some name => simp [chooseVariation, hnone]

theorem parse_eq_ok_iff_of_nil (hk : r.get? tag = some k) (hv : k.variations = []) :
    r.parse tag lines hint = .ok c ↔
      hint = none ∧ k.grammar.parse lines = .ok c.body ∧ c.variation = none := by
  rw [parse_eq_ok_iff hk]
  constructor
  · rintro ⟨v, hchoice, hread, hc⟩
    obtain ⟨hhint, rfl⟩ := (chooseVariation_eq_ok_iff_of_nil hv).1 hchoice
    exact ⟨hhint, hread, hc⟩
  · rintro ⟨hhint, hread, hc⟩
    exact ⟨none, (chooseVariation_eq_ok_iff_of_nil hv).2 ⟨hhint, rfl⟩, hread, hc⟩

/-- If the default variation exists, one is always chosen for lines without a hint. -/
theorem exists_of_chooseVariation {chosen : Option Variation}
    (hd : (k.defaultVariation.bind k.variation?).isSome = true)
    (h : chooseVariation k hint lines = .ok chosen) : ∃ v, chosen = some v := by
  cases hint with
  | none =>
    obtain ⟨v, hv⟩ := Option.isSome_iff_exists.1 hd
    have hchosen : k.detectVariation? lines = chosen := Except.ok.inj h
    rw [Kind.detectVariation?, hv] at hchosen
    cases hp : (k.variationOf lines).bind k.variation? with
    | none => exact ⟨v, by rw [← hchosen, hp, Option.none_or]⟩
    | some w => exact ⟨w, by rw [← hchosen, hp, Option.some_or]⟩
  | some name =>
    rw [chooseVariation] at h
    cases hname : k.variation? name with
    | none =>
      rw [hname] at h
      cases h
    | some w =>
      rw [hname] at h
      exact ⟨w, (Except.ok.inj h).symm⟩

/-- Content is read again in its own variation. -/
theorem parse_own_variation_iff (hk : r.get? tag = some k) (hnames : k.NamesVariations)
    {v : Variation} (hv : v ∈ k.variations) (hc : c.variation = some v.name) :
    r.parse tag lines c.variation = .ok c ↔ k.readAs (some v) lines = .ok c.body := by
  rw [parse_eq_ok_iff hk, hc, chooseVariation_name hnames hv]
  constructor
  · rintro ⟨w, hw, hread, -⟩
    obtain rfl : some v = w := Except.ok.inj hw
    exact hread
  · intro hread
    exact ⟨some v, rfl, hread, rfl⟩

/-- The variation of read content is the one it was read in. -/
theorem variation?_of_chooseVariation (hk : k.NamesVariations)
    (hv : chooseVariation k hint lines = .ok v) (hc : c.variation = v.map (·.name)) :
    c.variation.bind k.variation? = v := by
  rw [hc]
  cases v with
  | none => rfl
  | some w => exact hk w (mem_of_chooseVariation hv)

theorem validate_eq (hk : r.get? tag = some k) (hc : c.tag = k.tag)
    (hv : c.variation.bind k.variation? = v) : r.validate tag c = k.checkAs v c.body := by
  simp only [validate, hk, hc, bne_self_eq_false, Bool.false_eq_true, if_false, variationGrammar?,
    hv]
  rfl

theorem serialize_eq (hk : r.get? tag = some k) (hc : c.tag = k.tag)
    (hv : c.variation.bind k.variation? = v) : r.serialize tag c = k.writeAs v c.body := by
  simp only [serialize, hk, hc, bne_self_eq_false, Bool.false_eq_true, if_false, variationGrammar?,
    hv]
  rfl

theorem build_of_mem_builtin (h : k ∈ builtin.kinds) : ∃ s ∈ Kind.builtin, s.build = .ok k := by
  rcases mem_registerAll h with h | h
  · cases h
  · exact h

theorem foundByTag_builtin : builtin.FoundByTag :=
  (indexed_empty.registerAll Kind.builtin).foundByTag

end KindRegistry

/-- The names of built-in variations have no capitals and differ from each other. -/
theorem KindSpec.namesVariations_of_build {s : KindSpec} (hs : s ∈ Kind.builtin) {k : Kind}
    (h : s.build = .ok k) : k.variations = s.variations ∧ k.NamesVariations := by
  obtain ⟨-, -, hlower, -⟩ := of_build h
  have hvariations : k.variations = s.variations := by
    rw [hlower]
    simp only [Kind.builtin, List.mem_cons, List.not_mem_nil, or_false] at hs
    rcases hs with rfl | rfl | rfl | rfl | rfl | rfl <;> rfl
  refine ⟨hvariations, fun v hmem => ?_⟩
  rw [Kind.variation?, hvariations]
  rw [hvariations] at hmem
  clear hvariations hlower h
  simp only [Kind.builtin, List.mem_cons, List.not_mem_nil, or_false] at hs
  rcases hs with rfl | rfl | rfl | rfl | rfl | rfl
  · simp only [Kind.selector, List.mem_cons, List.not_mem_nil, or_false] at hmem
    rcases hmem with rfl | rfl <;> rfl
  · cases hmem
  · cases hmem
  · simp only [Kind.categorize, List.mem_cons, List.not_mem_nil, or_false] at hmem
    rcases hmem with rfl | rfl | rfl <;> rfl
  · cases hmem
  · simp only [Kind.ordering, List.mem_cons, List.not_mem_nil, or_false] at hmem
    rcases hmem with rfl | rfl <;> rfl

/-- The tags of the built-in kinds are written as they are compared. -/
theorem KindSpec.tag_of_build {s : KindSpec} (hs : s ∈ Kind.builtin) {k : Kind}
    (h : s.build = .ok k) : k.tag = s.tag := by
  rw [(of_build h).1]
  clear h
  simp only [Kind.builtin, List.mem_cons, List.not_mem_nil, or_false] at hs
  rcases hs with rfl | rfl | rfl | rfl | rfl | rfl <;> decide +kernel

/-- The built-in kinds are complete, and their tags lead to them. -/
theorem KindRegistry.exists_builtin : ∀ s ∈ Kind.builtin,
    ∃ k, s.build = .ok k ∧ builtin.get? s.tag = some k ∧ k.tag = s.tag ∧
      k.variations = s.variations ∧ k.NamesVariations := by
  intro s hs
  have hfound : ∃ k, s.build = .ok k ∧ builtin.get? s.tag = some k := by
    simp only [Kind.builtin, List.mem_cons, List.not_mem_nil, or_false] at hs
    rcases hs with rfl | rfl | rfl | rfl | rfl | rfl <;> exact ⟨_, rfl, rfl⟩
  obtain ⟨k, hb, hk⟩ := hfound
  exact ⟨k, hb, hk, KindSpec.tag_of_build hs hb, KindSpec.namesVariations_of_build hs hb⟩

end Worksheet
