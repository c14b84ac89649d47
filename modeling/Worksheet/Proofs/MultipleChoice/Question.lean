import Worksheet.Content.MultipleChoice
import Worksheet.Proofs.Chars.Lowercase
import Worksheet.Proofs.Chars.Pieces

namespace Worksheet.MultipleChoice

/-- The place that a label names is that of an option. -/
theorem lt_of_place? {options : List String} {label : String} {i : Nat}
    (h : place? options label = some i) : i < options.length := by
  obtain ⟨hi, -⟩ := List.findIdx?_eq_some_iff_getElem.1 h
  exact hi

/-- A label that names an option agrees with it up to case. -/
theorem lower_of_place? {options : List String} {label : String} {i : Nat}
    (h : place? options label = some i) :
    ∃ hi : i < options.length, Text.lower options[i] = Text.lower label := by
  obtain ⟨hi, hp, -⟩ := List.findIdx?_eq_some_iff_getElem.1 h
  exact ⟨hi, by simpa using hp⟩

/-- Labels that agree up to case name the same place. -/
theorem place?_congr (options : List String) {label other : String}
    (h : Text.lower label = Text.lower other) : place? options label = place? options other := by
  simp [place?, h]

/-- Whether one of the labels names a place. -/
def Names (options labels : List String) (i : Nat) : Prop :=
  ∃ label ∈ labels, place? options label = some i

theorem correctPlaces_of_names {options labels : List String} {i : Nat}
    (h : Names options labels i) :
    correctPlaces options labels = (List.range options.length).filter fun j =>
      labels.any fun label => place? options label == some j := by
  rw [correctPlaces, if_neg]
  obtain ⟨label, hl, hp⟩ := h
  have hmem : i ∈ (List.range options.length).filter fun j =>
      labels.any fun label => place? options label == some j := by
    simp only [List.mem_filter, List.mem_range, List.any_eq_true, beq_iff_eq]
    exact ⟨lt_of_place? hp, label, hl, hp⟩
  simpa using List.ne_nil_of_mem hmem

theorem correctPlaces_of_not_names {options labels : List String}
    (h : ∀ i, ¬ Names options labels i) : correctPlaces options labels = [0] := by
  have hnil : ((List.range options.length).filter fun j =>
      labels.any fun label => place? options label == some j) = [] := by
    rw [List.filter_eq_nil_iff]
    intro j _ hj
    obtain ⟨label, hl, hp⟩ := List.any_eq_true.1 hj
    exact h j ⟨label, hl, by simpa using hp⟩
  simp [correctPlaces, hnil]

/-- If labels name any option, exactly those are correct. -/
theorem mem_correctPlaces_iff {options labels : List String} {i : Nat}
    (h : ∃ j, Names options labels j) :
    i ∈ correctPlaces options labels ↔ Names options labels i := by
  obtain ⟨j, hj⟩ := h
  rw [correctPlaces_of_names hj]
  simp only [List.mem_filter, List.mem_range, List.any_eq_true, beq_iff_eq, Names]
  constructor
  · exact fun h => h.2
  · rintro ⟨label, hl, hp⟩
    exact ⟨lt_of_place? hp, label, hl, hp⟩

/-- Correct places depend on the named places alone. -/
theorem correctPlaces_congr {options labels others : List String}
    (h : ∀ i, Names options labels i ↔ Names options others i) :
    correctPlaces options labels = correctPlaces options others := by
  by_cases hn : ∃ i, Names options labels i
  · obtain ⟨i, hi⟩ := hn
    rw [correctPlaces_of_names hi, correctPlaces_of_names ((h i).1 hi)]
    apply List.filter_congr
    intro j _
    have hj := h j
    simp only [Names] at hj
    rw [Bool.eq_iff_iff, List.any_eq_true, List.any_eq_true]
    simpa using hj
  · rw [correctPlaces_of_not_names fun i hi => hn ⟨i, hi⟩,
      correctPlaces_of_not_names fun i hi => hn ⟨i, (h i).2 hi⟩]

/-- The form of a question that was read from a line. -/
structure WellRead (q : ChoiceQuestion) : Prop where
  tight : Chars.Tight q.question.toList
  no_equals : '=' ∉ q.question.toList
  options : ∀ o ∈ q.options, '|' ∉ o.toList ∧ Chars.Tight o.toList ∧ o.toList ≠ []
  /-- The correct options are named by labels without commas and opening brackets. -/
  correct : ∃ labels, (∀ label ∈ labels, ',' ∉ label.toList ∧ '[' ∉ label.toList) ∧
    q.correct = correctPlaces q.options labels

theorem of_mem_pieces {sep : Char} {s piece : String} (h : piece ∈ Text.pieces sep s) :
    sep ∉ piece.toList ∧ Chars.Tight piece.toList ∧ piece.toList ≠ [] ∧
      ∀ c ∈ piece.toList, c ∈ s.toList := by
  obtain ⟨cs, hcs, rfl⟩ := List.mem_map.1 h
  simpa using Chars.of_mem_pieces hcs

theorem not_mem_of_splitLast {sep : Char} {cs before after : List Char}
    (h : Chars.splitLast sep cs = some (before, after)) : sep ∉ after := by
  by_cases hm : sep ∈ cs
  · obtain ⟨b, a, rfl, ha⟩ := Chars.exists_last_of_mem hm
    rw [Chars.splitLast_append_cons b ha] at h
    obtain ⟨rfl, rfl⟩ := Prod.mk.inj (Option.some.inj h)
    exact ha
  · rw [Chars.splitLast_eq_none hm] at h
    cases h

theorem mem_of_stripLast? {last c : Char} {cs inner : List Char}
    (h : Chars.stripLast? last cs = some inner) (hc : c ∈ inner) : c ∈ cs := by
  rw [← Chars.append_of_stripLast? h]
  exact List.mem_append_left _ hc

theorem of_labels? {rest before : List Char} {labels : List String}
    (h : labels? rest = some (before, labels)) :
    ∀ label ∈ labels, ',' ∉ label.toList ∧ '[' ∉ label.toList := by
  obtain ⟨⟨b, after⟩, hsplit, h⟩ := Option.bind_eq_some_iff.1 h
  obtain ⟨inner, hstrip, h⟩ := Option.bind_eq_some_iff.1 h
  obtain ⟨rfl, rfl⟩ := Prod.mk.inj (Option.some.inj h)
  intro label hl
  obtain ⟨hcomma, -, -, hsub⟩ := of_mem_pieces hl
  refine ⟨hcomma, fun hb => not_mem_of_splitLast hsplit (mem_of_stripLast? hstrip ?_)⟩
  simpa using hsub _ hb

theorem wellRead_of_parseQuestion {text : String} {q : ChoiceQuestion}
    (h : parseQuestion text = some q) : WellRead q := by
  obtain ⟨⟨question, rest⟩, hsplit, hq⟩ := Option.map_eq_some_iff.1 h
  dsimp only at hq
  generalize hp : (labels? (Chars.trim rest)).getD (Chars.trim rest, []) = p at hq
  obtain ⟨listed, labels⟩ := p
  subst hq
  refine ⟨?_, ?_, ?_, labels, ?_, ?_⟩
  · simpa using Chars.tight_trim question
  · simpa using fun hm => Chars.not_mem_of_splitOnce hsplit (Chars.mem_of_mem_trim hm)
  · intro o ho
    obtain ⟨hbar, ht, hne, -⟩ := of_mem_pieces ho
    exact ⟨hbar, ht, hne⟩
  · cases hl : labels? (Chars.trim rest) with
    | none =>
      rw [hl, Option.getD_none] at hp
      obtain ⟨-, rfl⟩ := Prod.mk.inj hp
      simp
    | some found =>
      rw [hl, Option.getD_some] at hp
      exact of_labels? (hl.trans (congrArg some hp))
  · dsimp only

end Worksheet.MultipleChoice
