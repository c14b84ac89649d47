import Worksheet.Proofs.Kind.Registry

namespace Worksheet

/-- Kinds with their places in a registry: the first has the lower priority number, or the same and
no later place. -/
def Kind.Precedes (a b : Kind × Nat) : Prop :=
  a.1.priority < b.1.priority ∨ a.1.priority = b.1.priority ∧ a.2 ≤ b.2

theorem Kind.Precedes.place_eq {a b : Kind × Nat} (h : Precedes a b) (h' : Precedes b a) :
    a.2 = b.2 := by
  unfold Precedes at h h'
  omega

namespace KindRegistry

/-- The kinds by priority are all kinds, in increasing order of priority and place. -/
theorem exists_placed (r : KindRegistry) : ∃ placed : List (Kind × Nat),
    placed.map (·.1) = r.byPriority ∧ placed.Perm r.kinds.zipIdx ∧
      placed.Pairwise Kind.Precedes := by
  let le (j k : Kind) : Bool := j.priority ≤ k.priority
  have htrans : ∀ a b c : Kind, le a b = true → le b c = true → le a c = true := by
    intro a b c hab hbc
    simp only [le, decide_eq_true_eq] at hab hbc ⊢
    omega
  have htotal : ∀ a b : Kind, (le a b || le b a) = true := by
    intro a b
    simp only [le, Bool.or_eq_true, decide_eq_true_eq]
    omega
  refine ⟨r.kinds.zipIdx.mergeSort (List.zipIdxLE le), List.mergeSort_zipIdx,
    List.mergeSort_perm _ _, ?_⟩
  refine (List.pairwise_mergeSort (List.zipIdxLE_trans htrans) (List.zipIdxLE_total htotal)
    r.kinds.zipIdx).imp ?_
  intro a b hab
  simp only [List.zipIdxLE, le, decide_eq_true_eq] at hab
  unfold Kind.Precedes
  split at hab
  · split at hab
    · have hplace : a.2 ≤ b.2 := by simpa using hab
      omega
    · omega
  · cases hab

theorem detect?_eq_none_iff (r : KindRegistry) (lines : List ContentLine) :
    r.detect? lines = none ↔ ∀ k ∈ r.kinds, k.grammar.detect lines = false := by
  rw [detect?, List.find?_eq_none]
  simp [byPriority]

/-- The kind that recognizes the lines and precedes all others that do. -/
def FirstMatch (r : KindRegistry) (lines : List ContentLine) (k : Kind) : Prop :=
  ∃ place, r.kinds[place]? = some k ∧ k.grammar.detect lines = true ∧
    ∀ other j, r.kinds[other]? = some j → j.grammar.detect lines = true →
      Kind.Precedes (k, place) (j, other)

theorem firstMatch_of_detect? {r : KindRegistry} {lines : List ContentLine} {k : Kind}
    (h : r.detect? lines = some k) : r.FirstMatch lines k := by
  obtain ⟨placed, hplaced, hperm, hordered⟩ := r.exists_placed
  rw [detect?, ← hplaced, List.find?_map] at h
  obtain ⟨⟨own, place⟩, hfound, rfl⟩ := Option.map_eq_some_iff.1 h
  obtain ⟨hdetect, before, after, hsplit, hbefore⟩ := List.find?_eq_some_iff_append.1 hfound
  have hmem : (own, place) ∈ placed := by simp [hsplit]
  refine ⟨place, List.mk_mem_zipIdx_iff_getElem?.1 (hperm.mem_iff.1 hmem), hdetect, ?_⟩
  intro other j hj hmatch
  have hother : (j, other) ∈ before ++ (own, place) :: after := by
    rw [← hsplit]
    exact hperm.mem_iff.2 (List.mk_mem_zipIdx_iff_getElem?.2 hj)
  rw [hsplit] at hordered
  rcases List.mem_append.1 hother with hearlier | hlater
  · have hnot := hbefore _ hearlier
    simp [hmatch] at hnot
  · rcases List.mem_cons.1 hlater with hsame | hlater
    · rw [hsame]
      exact Or.inr ⟨rfl, Nat.le_refl _⟩
    · obtain ⟨-, hfrom, -⟩ := List.pairwise_append.1 hordered
      exact (List.pairwise_cons.1 hfrom).1 _ hlater

theorem FirstMatch.unique {r : KindRegistry} {lines : List ContentLine} {j k : Kind}
    (hj : r.FirstMatch lines j) (hk : r.FirstMatch lines k) : j = k := by
  obtain ⟨jplace, hj, hjdetect, hjfirst⟩ := hj
  obtain ⟨kplace, hk, hkdetect, hkfirst⟩ := hk
  have hplace : jplace = kplace :=
    (hjfirst kplace k hk hkdetect).place_eq (hkfirst jplace j hj hjdetect)
  rw [hplace, hk] at hj
  exact (Option.some.inj hj).symm

theorem detect?_eq_some_iff {r : KindRegistry} {lines : List ContentLine} {k : Kind} :
    r.detect? lines = some k ↔ r.FirstMatch lines k := by
  refine ⟨firstMatch_of_detect?, fun h => ?_⟩
  cases hdetect : r.detect? lines with
  | none =>
    obtain ⟨place, hplace, hmatch, -⟩ := h
    have hnot := (r.detect?_eq_none_iff lines).1 hdetect k (List.mem_of_getElem? hplace)
    rw [hmatch] at hnot
    cases hnot
  | some j => rw [(firstMatch_of_detect? hdetect).unique h]

/-- What a registry keeps to whatever is registered in it, and what it does with the next kind. -/
structure Coherent (r : KindRegistry) : Prop where
  /-- The index holds the names of the kinds and nothing else. -/
  indexed : ∀ name place,
    r.index.get? name = some place ↔ ∃ k, r.kinds[place]? = some k ∧ name ∈ k.names
  tags : (r.kinds.map (·.tag)).Nodup
  /-- No tag or alias of a kind is a tag or alias of another. -/
  names : r.kinds.Pairwise fun j k => ∀ name ∈ j.names, name ∉ k.names
  /-- A kind is found by its tag and its aliases, in any case and with white space around them. -/
  found : ∀ k ∈ r.kinds, ∀ name ∈ k.names, ∀ before written after,
    Text.isBlank before = true → Text.isBlank after = true →
      Text.eqIgnoringCase written name = true → r.get? (before ++ written ++ after) = some k
  resolved : ∀ name tag, r.resolveTag? name = some tag → r.resolveTag? tag = some tag
  /-- A complete kind is accepted exactly if it has no name that another has. -/
  admitted : ∀ (s : KindSpec) k, s.build = .ok k →
    ((r.register k).2 = .ok () ↔ ∀ j ∈ r.kinds, ∀ name ∈ j.names, name ∉ k.names)
  /-- A kind that is accepted comes after all others. -/
  entered : ∀ k, (r.register k).2 = .ok () → (r.register k).1.kinds = r.kinds ++ [k]
  /-- A kind that is refused changes neither the kinds nor the index. -/
  refused : ∀ k e, (r.register k).2 = .error e → (r.register k).1 = r
  /-- By priority, all kinds stand in order, and those of one priority as they were registered. -/
  ordered : ∃ placed : List (Kind × Nat), placed.map (·.1) = r.byPriority ∧
    placed.Perm r.kinds.zipIdx ∧ placed.Pairwise Kind.Precedes
  detected : ∀ lines k, r.detect? lines = some k ↔ r.FirstMatch lines k
  undetected : ∀ lines, r.detect? lines = none ↔ ∀ k ∈ r.kinds, k.grammar.detect lines = false

namespace Indexed

variable {r : KindRegistry} (h : r.Indexed)

include h

theorem names_disjoint : r.kinds.Pairwise fun j k => ∀ name ∈ j.names, name ∉ k.names := by
  rw [List.pairwise_iff_getElem]
  intro i j hi hj hlt name hname hother
  have hfirst := (h.get?_iff name i).2 ⟨_, List.getElem?_eq_getElem hi, hname⟩
  have hsecond := (h.get?_iff name j).2 ⟨_, List.getElem?_eq_getElem hj, hother⟩
  rw [hfirst] at hsecond
  exact absurd (Option.some.inj hsecond) (Nat.ne_of_lt hlt)

theorem tags_nodup : (r.kinds.map (·.tag)).Nodup := by
  rw [List.Nodup, List.pairwise_map]
  refine h.names_disjoint.imp fun {j k} hdisjoint htag => ?_
  have hown : j.tag ∈ j.names := List.mem_cons_self
  have hother : j.tag ∈ k.names := by
    rw [htag]
    exact List.mem_cons_self
  exact hdisjoint j.tag hown hother

theorem get?_written {k : Kind} (hk : k ∈ r.kinds) {name : String} (hname : name ∈ k.names)
    {before written after : String} (hbefore : Text.isBlank before = true)
    (hafter : Text.isBlank after = true) (hwritten : Text.eqIgnoringCase written name = true) :
    r.get? (before ++ written ++ after) = some k := by
  apply h.get?_of_mem hk
  rwa [KindSpec.key_padded hbefore hafter, KindSpec.key_congr hwritten, h.key_eq k hk name hname]

theorem resolveTag?_tag {name tag : String} (hname : r.resolveTag? name = some tag) :
    r.resolveTag? tag = some tag := by
  obtain ⟨k, hk, rfl⟩ := Option.map_eq_some_iff.1 hname
  rw [resolveTag?, h.foundByTag k (mem_of_get? hk)]
  rfl

theorem admits_iff {s : KindSpec} {k : Kind} (hb : s.build = .ok k) :
    (r.register k).2 = .ok () ↔ ∀ j ∈ r.kinds, ∀ name ∈ j.names, name ∉ k.names := by
  rw [h.register_eq_ok_iff hb]
  constructor
  · intro hfree j hj name hname hown
    exact h.get?_eq_none_iff.1 (hfree name hown) j hj hname
  · intro hfree name hown
    exact h.get?_eq_none_iff.2 fun j hj hname => hfree j hj name hname hown

theorem coherent : r.Coherent where
  indexed := h.get?_iff
  tags := h.tags_nodup
  names := h.names_disjoint
  found _ hk _ hname _ _ _ hbefore hafter hwritten :=
    h.get?_written hk hname hbefore hafter hwritten
  resolved _ _ := h.resolveTag?_tag
  admitted _ _ := h.admits_iff
  entered _ hok := kinds_of_register (Prod.ext rfl hok)
  refused _ _ := register_of_error
  ordered := r.exists_placed
  detected _ _ := detect?_eq_some_iff
  undetected := r.detect?_eq_none_iff

end Indexed

/-- The kinds that descriptions stand for. A description that is not complete stands for none. -/
def built (specs : List KindSpec) : List Kind :=
  specs.filterMap fun s => s.build.toOption

/-- Registers kinds one after another, and returns the answers. -/
def registerEach (r : KindRegistry) : List Kind → KindRegistry × List (Except RegistryError Unit)
  | [] => (r, [])
  | k :: rest =>
    let (next, answer) := r.register k
    let (last, answers) := next.registerEach rest
    (last, answer :: answers)

/-- The kinds that were answered with success. -/
def accepted (kinds : List Kind) (answers : List (Except RegistryError Unit)) : List Kind :=
  ((kinds.zip answers).filter (·.2.isOk)).map (·.1)

theorem exists_of_mem_built {specs : List KindSpec} {k : Kind} (h : k ∈ built specs) :
    ∃ s : KindSpec, s.build = .ok k := by
  obtain ⟨s, -, hs⟩ := List.mem_filterMap.1 h
  refine ⟨s, ?_⟩
  cases hb : s.build with
  | error e =>
    rw [hb] at hs
    cases hs
  | ok built =>
    rw [hb] at hs
    rw [Option.some.inj hs]

theorem length_registerEach (r : KindRegistry) (kinds : List Kind) :
    (r.registerEach kinds).2.length = kinds.length := by
  induction kinds generalizing r with
  | nil => rfl
  | cons k rest ih =>
    rw [registerEach, List.length_cons, List.length_cons, ih]

/-- The kinds that were there stay, and those that are accepted come after them in their order. -/
theorem kinds_registerEach (r : KindRegistry) (kinds : List Kind) :
    (r.registerEach kinds).1.kinds = r.kinds ++ accepted kinds (r.registerEach kinds).2 := by
  induction kinds generalizing r with
  | nil => exact (List.append_nil _).symm
  | cons k rest ih =>
    have hrest := ih (r.register k).1
    rw [registerEach]
    dsimp only
    rw [hrest]
    cases hanswer : (r.register k).2 with
    | error e =>
      rw [register_of_error hanswer]
      rfl
    | ok =>
      rw [kinds_of_register (Prod.ext rfl hanswer), List.append_assoc]
      rfl

theorem Indexed.registerEach {r : KindRegistry} (h : r.Indexed) {kinds : List Kind}
    (hbuilt : ∀ k ∈ kinds, ∃ s : KindSpec, s.build = .ok k) :
    (r.registerEach kinds).1.Indexed := by
  induction kinds generalizing r with
  | nil => exact h
  | cons k rest ih =>
    obtain ⟨⟨s, hs⟩, hrest⟩ := List.forall_mem_cons.1 hbuilt
    exact ih (h.register hs) hrest

/-- Whatever kinds are built and registered one after another, and whichever of them are refused,
each of them is answered, the registry holds those that were accepted, in their order, and it is
coherent. -/
theorem registerEach_coherent (specs : List KindSpec) :
    let (r, answers) := registerEach {} (built specs)
    answers.length = (built specs).length ∧ r.kinds = accepted (built specs) answers ∧
      r.Coherent := by
  refine ⟨length_registerEach {} _, kinds_registerEach {} _, ?_⟩
  exact (indexed_empty.registerEach fun k hk => exists_of_mem_built hk).coherent

end KindRegistry

end Worksheet
