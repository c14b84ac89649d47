import Worksheet.Kind.Registry
import Worksheet.Proofs.Chars.AsciiCase
import Worksheet.Proofs.Keyed
import Worksheet.Proofs.Results

namespace Worksheet

namespace KindSpec

theorem key_key (name : String) : key (key name) = key name := by
  have hlower : Char.toLower ∘ Char.toLower = Char.toLower :=
    funext Char.toLower_toLower_eq_toLower
  simp [key, Text.asciiLower, Text.trim, Chars.trim_map_toLower, hlower]

theorem key_congr {name other : String} (h : Text.eqIgnoringCase name other = true) :
    key name = key other := by
  have hlower : name.toList.map Char.toLower = other.toList.map Char.toLower :=
    String.ofList_injective (eq_of_beq h)
  rw [key, key, Text.asciiLower, Text.asciiLower, Text.trim, Text.trim, String.toList_ofList,
    String.toList_ofList, ← Chars.trim_map_toLower, ← Chars.trim_map_toLower, hlower]

/-- White space around a name does not matter. -/
theorem key_padded {before after : String} (hbefore : Text.isBlank before = true)
    (hafter : Text.isBlank after = true) (name : String) :
    key (before ++ name ++ after) = key name := by
  rw [key, key, Text.trim, Text.trim, String.toList_append, String.toList_append,
    Chars.trim_padded hbefore hafter]

/-- The kind that a complete description stands for. -/
theorem of_build {s : KindSpec} {k : Kind} (h : s.build = .ok k) :
    k.tag = key s.tag ∧ s.grammar = some k.grammar ∧
      k.variations = s.variations.map (fun v => { v with name := Text.asciiLower v.name }) ∧
      k.variationOf = s.variationOf ∧
      k.defaultVariation = s.defaultVariation.map Text.asciiLower ∧
      k.aliases = s.aliases.map key ∧ k.check = .ok () := by
  rw [build] at h
  split at h
  · cases h
  · split at h
    · cases h
    · cases h
    · rename_i grammar displayName hgrammar hname
      split at h
      · cases h
      · obtain ⟨⟨⟩, hcheck, rfl⟩ := map_eq_ok_iff.1 h
        exact ⟨rfl, hgrammar, rfl, rfl, rfl, rfl, hcheck⟩

/-- The names of a kind are in the form in which names are compared. -/
theorem key_of_mem_names {s : KindSpec} {k : Kind} (h : s.build = .ok k) :
    ∀ name ∈ k.names, key name = name := by
  obtain ⟨htag, -, -, -, -, haliases, -⟩ := of_build h
  intro name hname
  rw [Kind.names, htag, haliases, List.mem_cons, List.mem_map] at hname
  rcases hname with rfl | ⟨written, -, rfl⟩
  · exact key_key s.tag
  · exact key_key written

end KindSpec

namespace KindRegistry

theorem mem_of_owner? {r : KindRegistry} {name : String} {k : Kind} (h : r.owner? name = some k) :
    k ∈ r.kinds := by
  obtain ⟨place, -, hplace⟩ := Option.bind_eq_some_iff.1 h
  exact List.mem_of_getElem? hplace

theorem mem_of_get? {r : KindRegistry} {name : String} {k : Kind} (h : r.get? name = some k) :
    k ∈ r.kinds :=
  mem_of_owner? h

theorem mem_of_detect? {r : KindRegistry} {lines : List ContentLine} {k : Kind}
    (h : r.detect? lines = some k) : k ∈ r.kinds :=
  List.mem_mergeSort.1 (List.mem_of_find?_eq_some h)

/-- A kind is refused and nothing changes, or it is entered and its names were free before. -/
theorem register_cases (r : KindRegistry) (k : Kind) :
    (∃ e, r.register k = (r, .error e)) ∨
      (r.index.get? k.tag = none ∧ (∀ name ∈ k.aliases, r.owner? name = none) ∧
        r.register k = (r.enter k, .ok ())) := by
  rw [register]
  split
  · rename_i e _
    exact Or.inl ⟨e, rfl⟩
  · split
    · exact Or.inl ⟨_, rfl⟩
    · rename_i htag
      split
      · exact Or.inl ⟨_, rfl⟩
      · rename_i haliases
        refine Or.inr ⟨?_, ?_, rfl⟩
        · simpa [Keyed.contains] using htag
        · intro name hname
          simpa using List.findSome?_eq_none_iff.1 haliases name hname

theorem register_of_error {r : KindRegistry} {k : Kind} {e : RegistryError}
    (h : (r.register k).2 = .error e) : (r.register k).1 = r := by
  rcases r.register_cases k with ⟨e', he⟩ | ⟨-, -, hok⟩
  · rw [he]
  · rw [hok] at h
    cases h

theorem register_of_free {r : KindRegistry} {k : Kind} (hcheck : k.check = .ok ())
    (hfree : ∀ name ∈ k.names, r.index.get? name = none) : r.register k = (r.enter k, .ok ()) := by
  have htag : r.index.contains k.tag = false := by
    rw [Keyed.contains, hfree k.tag List.mem_cons_self]
    rfl
  have haliases : (k.aliases.findSome? fun name => (r.owner? name).map (name, ·)) = none := by
    rw [List.findSome?_eq_none_iff]
    intro name hname
    rw [owner?, hfree name (List.mem_cons_of_mem _ hname)]
    rfl
  simp only [register, hcheck, htag, haliases, Bool.false_eq_true, if_false]

theorem of_registerSpec {r r' : KindRegistry} {s : KindSpec} (h : r.registerSpec s = .ok r') :
    ∃ k, s.build = .ok k ∧ r.register k = (r', .ok ()) := by
  rw [registerSpec] at h
  cases hb : s.build with
  | error e =>
    rw [hb] at h
    cases h
  | ok k =>
    rw [hb] at h
    refine ⟨k, rfl, ?_⟩
    rcases register_cases r k with ⟨e, he⟩ | ⟨-, -, hok⟩
    · simp only [bind, Except.bind, he] at h
      cases h
    · simp only [bind, Except.bind, hok] at h
      obtain rfl := Except.ok.inj h
      exact hok

theorem kinds_of_register {r r' : KindRegistry} {k : Kind} (h : r.register k = (r', .ok ())) :
    r'.kinds = r.kinds ++ [k] := by
  rcases register_cases r k with ⟨e, he⟩ | ⟨-, -, hok⟩
  · cases (Prod.mk.inj (he.symm.trans h)).2
  · rw [← (Prod.mk.inj (hok.symm.trans h)).1]
    rfl

/-- What holds of a registry and is kept by every registration holds in the end. -/
theorem registerAll_induction {P : KindRegistry → Prop} {specs : List KindSpec}
    (hstep : ∀ s ∈ specs, ∀ r r', P r → r.registerSpec s = .ok r' → P r') {r : KindRegistry}
    (h : P r) : P (r.registerAll specs).1 := by
  induction specs generalizing r with
  | nil => exact h
  | cons s rest ih =>
    rw [registerAll]
    split
    · exact h
    · rename_i next hn
      exact ih (fun t ht => hstep t (by simp [ht])) (hstep s (by simp) r next h hn)

/-- A registered kind was there before or was built from one of the descriptions. -/
theorem mem_registerAll {r : KindRegistry} {specs : List KindSpec} {k : Kind}
    (h : k ∈ (r.registerAll specs).1.kinds) : k ∈ r.kinds ∨ ∃ s ∈ specs, s.build = .ok k := by
  refine registerAll_induction
    (P := fun q => ∀ j ∈ q.kinds, j ∈ r.kinds ∨ ∃ s ∈ specs, s.build = .ok j)
    ?_ (fun j hj => Or.inl hj) k h
  intro s hs q q' hq hr j hj
  obtain ⟨built, hb, hregister⟩ := of_registerSpec hr
  rw [kinds_of_register hregister, List.mem_append, List.mem_singleton] at hj
  rcases hj with hj | rfl
  · exact hq j hj
  · exact Or.inr ⟨s, hs, hb⟩

/-- The index holds exactly the names of the kinds, in the form in which names are compared. -/
structure Indexed (r : KindRegistry) : Prop where
  get?_iff : ∀ name place,
    r.index.get? name = some place ↔ ∃ k, r.kinds[place]? = some k ∧ name ∈ k.names
  key_eq : ∀ k ∈ r.kinds, ∀ name ∈ k.names, KindSpec.key name = name

theorem indexed_empty : ({} : KindRegistry).Indexed :=
  ⟨fun _ _ => by simp [Keyed.get?], fun k hk => by cases hk⟩

namespace Indexed

variable {r : KindRegistry}

theorem owner?_of_getElem? (h : r.Indexed) {place : Nat} {k : Kind}
    (hk : r.kinds[place]? = some k) {name : String} (hname : name ∈ k.names) :
    r.owner? name = some k := by
  rw [owner?, (h.get?_iff name place).2 ⟨k, hk, hname⟩]
  exact hk

/-- A kind is found under whatever its names are the compared form of. -/
theorem get?_of_mem (h : r.Indexed) {k : Kind} (hk : k ∈ r.kinds) {name : String}
    (hname : KindSpec.key name ∈ k.names) : r.get? name = some k := by
  obtain ⟨place, hplace⟩ := List.getElem?_of_mem hk
  exact h.owner?_of_getElem? hplace hname

/-- A name that no kind is found under is not in the index. -/
theorem get?_eq_none (h : r.Indexed) {name : String} (hname : r.owner? name = none) :
    r.index.get? name = none := by
  cases hget : r.index.get? name with
  | none => rfl
  | some place =>
    obtain ⟨k, hk, hmem⟩ := (h.get?_iff name place).1 hget
    rw [h.owner?_of_getElem? hk hmem] at hname
    cases hname

theorem owner?_eq_none_iff (h : r.Indexed) {name : String} :
    r.owner? name = none ↔ r.index.get? name = none := by
  refine ⟨h.get?_eq_none, fun hnone => ?_⟩
  rw [owner?, hnone]
  rfl

/-- The index leaves exactly the names free that no kind has. -/
theorem get?_eq_none_iff (h : r.Indexed) {name : String} :
    r.index.get? name = none ↔ ∀ k ∈ r.kinds, name ∉ k.names := by
  constructor
  · intro hnone k hk hname
    obtain ⟨place, hplace⟩ := List.getElem?_of_mem hk
    have hused := (h.get?_iff name place).2 ⟨k, hplace, hname⟩
    rw [hnone] at hused
    cases hused
  · intro hfree
    cases hget : r.index.get? name with
    | none => rfl
    | some place =>
      obtain ⟨k, hplace, hname⟩ := (h.get?_iff name place).1 hget
      exact absurd hname (hfree k (List.mem_of_getElem? hplace))

/-- A kind that was built from a description is accepted exactly if its names are free. -/
theorem register_eq_ok_iff (h : r.Indexed) {s : KindSpec} {k : Kind} (hb : s.build = .ok k) :
    (r.register k).2 = .ok () ↔ ∀ name ∈ k.names, r.index.get? name = none := by
  constructor
  · intro hok name hname
    rcases register_cases r k with ⟨e, he⟩ | ⟨htag, haliases, -⟩
    · rw [he] at hok
      cases hok
    · rcases List.mem_cons.1 hname with rfl | hname
      · exact htag
      · exact h.get?_eq_none (haliases name hname)
  · intro hfree
    obtain ⟨-, -, -, -, -, -, hcheck⟩ := KindSpec.of_build hb
    rw [register_of_free hcheck hfree]

theorem enter (h : r.Indexed) {k : Kind} (hfree : ∀ name ∈ k.names, r.index.get? name = none)
    (hkeys : ∀ name ∈ k.names, KindSpec.key name = name) : (r.enter k).Indexed := by
  have hkinds : (r.enter k).kinds = r.kinds ++ [k] := rfl
  have hindex : ∀ name, (r.enter k).index.get? name =
      if name ∈ k.names then some r.kinds.length else r.index.get? name :=
    Keyed.get?_foldl_insert_const k.names r.kinds.length r.index
  -- The new place is the one after all others.
  have hplaces : ∀ place j, (r.enter k).kinds[place]? = some j ↔
      r.kinds[place]? = some j ∨ (place = r.kinds.length ∧ k = j) := by
    intro place j
    rw [hkinds]
    rcases Nat.lt_trichotomy place r.kinds.length with hlt | rfl | hgt
    · rw [List.getElem?_append_left hlt]
      simp [Nat.ne_of_lt hlt]
    · simp
    · have hafter : (r.kinds ++ [k]).length ≤ place := by simpa using hgt
      rw [List.getElem?_eq_none hafter, List.getElem?_eq_none (Nat.le_of_lt hgt)]
      simp [Nat.ne_of_gt hgt]
  refine ⟨fun name place => ?_, fun j hj => ?_⟩
  · rw [hindex]
    split
    · rename_i hown
      constructor
      · intro hplace
        exact ⟨k, (hplaces place k).2 (Or.inr ⟨(Option.some.inj hplace).symm, rfl⟩), hown⟩
      · rintro ⟨j, hj, hmem⟩
        rcases (hplaces place j).1 hj with hold | ⟨hlast, -⟩
        · have hused := (h.get?_iff name place).2 ⟨j, hold, hmem⟩
          rw [hfree name hown] at hused
          cases hused
        · rw [hlast]
    · rename_i hother
      rw [h.get?_iff]
      constructor
      · rintro ⟨j, hj, hmem⟩
        exact ⟨j, (hplaces place j).2 (Or.inl hj), hmem⟩
      · rintro ⟨j, hj, hmem⟩
        rcases (hplaces place j).1 hj with hold | ⟨-, rfl⟩
        · exact ⟨j, hold, hmem⟩
        · exact absurd hmem hother
  · rw [hkinds, List.mem_append, List.mem_singleton] at hj
    rcases hj with hj | rfl
    · exact h.key_eq j hj
    · exact hkeys

/-- Registering a kind that was built from a description, successfully or not. -/
theorem register (h : r.Indexed) {s : KindSpec} {k : Kind} (hb : s.build = .ok k) :
    (r.register k).1.Indexed := by
  obtain ⟨-, -, -, -, -, -, hcheck⟩ := KindSpec.of_build hb
  cases hanswer : (r.register k).2 with
  | error e =>
    rw [register_of_error hanswer]
    exact h
  | ok =>
    have hfree := (h.register_eq_ok_iff hb).1 hanswer
    rw [register_of_free hcheck hfree]
    exact h.enter hfree (KindSpec.key_of_mem_names hb)

theorem registerAll (h : r.Indexed) (specs : List KindSpec) :
    (r.registerAll specs).1.Indexed := by
  refine registerAll_induction (fun s _ q q' hq hr => ?_) h
  obtain ⟨k, hb, hregister⟩ := of_registerSpec hr
  have hnext := hq.register hb
  rwa [hregister] at hnext

end Indexed

/-- Every kind is found by its tag. -/
def FoundByTag (r : KindRegistry) : Prop :=
  ∀ k ∈ r.kinds, r.get? k.tag = some k

theorem Indexed.foundByTag {r : KindRegistry} (h : r.Indexed) : r.FoundByTag := by
  intro k hk
  have htag : k.tag ∈ k.names := List.mem_cons_self
  exact h.get?_of_mem hk (by rwa [h.key_eq k hk k.tag htag])

end KindRegistry

end Worksheet
