import Worksheet.Proofs.Content.Reread
import Worksheet.Proofs.MultipleChoice.Question
import Worksheet.Proofs.Results
import Worksheet.Proofs.Validation.Rules

namespace Worksheet.MultipleChoice

/-- Every correct option is read back from its label. -/
def Legible (q : ChoiceQuestion) : Prop :=
  ∀ i ∈ q.correct, ∀ o, q.options[i]? = some o → '[' ∉ o.toList ∧
    ∀ label ∈ Text.pieces ',' o, ∀ j, place? q.options label = some j → j ∈ q.correct

/-- The texts of the correct options. -/
def correctOptions (q : ChoiceQuestion) : List String :=
  q.correct.filterMap (q.options[·]?)

theorem mem_correctOptions {q : ChoiceQuestion} {o : String} :
    o ∈ correctOptions q ↔ ∃ i ∈ q.correct, q.options[i]? = some o := by
  simp [correctOptions]

/-- The options with bars between them. -/
def listed (q : ChoiceQuestion) : List Char :=
  Chars.join [' ', '|', ' '] (q.options.map String.toList)

/-- The labels with commas between them. -/
def labelled (q : ChoiceQuestion) : List Char :=
  Chars.join [',', ' '] ((correctOptions q).map String.toList)

/-- What stands after the equals sign of a written question. -/
def answered (q : ChoiceQuestion) : List Char :=
  listed q ++ ' ' :: '[' :: (labelled q ++ [']'])

/-- A written question. -/
def written (q : ChoiceQuestion) : List Char :=
  q.question.toList ++ ' ' :: '=' :: ' ' :: answered q

theorem mapM_options {options : List String} {places : List Nat}
    (h : ∀ i ∈ places, i < options.length) :
    places.mapM (optionAt options) = .ok (places.filterMap (options[·]?)) := by
  induction places with
  | nil => rfl
  | cons i rest ih =>
    have hi := h i (by simp)
    have ho : optionAt options i = .ok options[i] := by simp [optionAt, hi]
    rw [mapM_cons_of_ok ho, ih fun j hj => h j (by simp [hj])]
    simp [Except.map, hi]

theorem renderQuestion_eq {q : ChoiceQuestion} (h : ∀ i ∈ q.correct, i < q.options.length) :
    renderQuestion q = .ok (String.ofList (written q)) := by
  rw [renderQuestion, mapM_options h]
  refine congrArg Except.ok (String.toList_inj.1 ?_)
  simp [Text.join, written, answered, listed, labelled, correctOptions]

/-- A question that was read from a line and has a text and two options. -/
structure Writable (q : ChoiceQuestion) : Prop extends WellRead q where
  asked : q.question.toList ≠ []
  several : 2 ≤ q.options.length

namespace Writable

variable {q : ChoiceQuestion}

theorem correct_lt (h : Writable q) : ∀ i ∈ q.correct, i < q.options.length := by
  obtain ⟨labels, -, hc⟩ := h.correct
  intro i hi
  have hn := h.several
  by_cases hnames : ∃ j, Names q.options labels j
  · rw [hc, mem_correctPlaces_iff hnames] at hi
    obtain ⟨label, -, hp⟩ := hi
    exact lt_of_place? hp
  · rw [hc, correctPlaces_of_not_names fun j hj => hnames ⟨j, hj⟩, List.mem_singleton] at hi
    omega

theorem flatMap_pieces (h : Writable q) :
    (q.options.map String.toList).flatMap (Chars.pieces '|') = q.options.map String.toList := by
  have hall := h.options
  generalize q.options = options at hall
  induction options with
  | nil => rfl
  | cons o rest ih =>
    obtain ⟨hbar, ht, hne⟩ := hall o (by simp)
    rw [List.map_cons, List.flatMap_cons, Chars.pieces_eq_singleton hbar ht hne,
      ih fun p hp => hall p (by simp [hp])]
    rfl

theorem pieces_listed (h : Writable q) :
    Chars.pieces '|' (listed q) = q.options.map String.toList := by
  rw [listed, Chars.pieces_join_spaced (by decide), h.flatMap_pieces]

/-- The first option begins the list of options. -/
theorem head?_listed (h : Writable q) :
    ∃ c, (listed q).head? = some c ∧ Chars.isBlank c = false := by
  cases ho : q.options with
  | nil =>
    have hn := h.several
    simp [ho] at hn
  | cons o rest =>
    obtain ⟨-, ht, hne⟩ := h.options o (by simp [ho])
    have hhead := ht.head
    cases hc : o.toList with
    | nil => exact absurd hc hne
    | cons c cs =>
      refine ⟨c, ?_, by simpa [hc] using hhead⟩
      cases rest <;> simp [listed, ho, Chars.join, hc]

theorem bar_mem_listed (h : Writable q) : '|' ∈ listed q := by
  have hn := h.several
  cases ho : q.options with
  | nil => simp [ho] at hn
  | cons o rest =>
    cases rest with
    | nil => simp [ho] at hn
    | cons p rest => simp [listed, ho, Chars.join_cons_cons]

theorem trim_answered (h : Writable q) : Chars.trim (answered q) = answered q := by
  apply Chars.Tight.trim_eq
  obtain ⟨c, hc, hb⟩ := h.head?_listed
  constructor
  · simp [answered, hc, hb]
  · simp only [answered, List.getLast?_append, List.getLast?_cons]
    simp
    decide

theorem trim_written (h : Writable q) : Chars.trim (written q) = written q := by
  apply Chars.Tight.trim_eq
  constructor
  · have hh := h.tight.head
    cases hc : q.question.toList with
    | nil => exact absurd hc h.asked
    | cons c cs => simpa [written, hc] using hh
  · simp only [written, answered, List.getLast?_append, List.getLast?_cons]
    simp
    decide

/-- The equals sign of a written question is its first. -/
theorem parseQuestion_written (h : Writable q) :
    parseQuestion (String.ofList (written q)) =
      let (listed, labels) := (labels? (answered q)).getD (answered q, [])
      let options := Text.pieces '|' (String.ofList listed)
      some ⟨q.question, options, correctPlaces options labels⟩ := by
  have hb : Chars.isBlank ' ' = true := by decide
  have hw : written q = (q.question.toList ++ [' ']) ++ '=' :: (' ' :: answered q) := by
    simp [written]
  have hs : Chars.splitOnce '=' (written q) =
      some (q.question.toList ++ [' '], ' ' :: answered q) := by
    rw [hw]
    exact Chars.splitOnce_append_cons (by simp [h.no_equals]) _
  rw [parseQuestion, String.toList_ofList, hs, Option.map_some]
  dsimp only
  rw [Chars.trim_append_of_isBlank _ hb, h.tight.trim_eq, String.ofList_toList,
    Chars.trim_cons_of_isBlank _ hb, h.trim_answered]

/-- Without an opening bracket in a label, options and labels come apart as they were put
together. -/
theorem labels?_answered (h : '[' ∉ labelled q) :
    labels? (answered q) =
      some (listed q ++ [' '], Text.pieces ',' (String.ofList (labelled q))) := by
  have ha : answered q = (listed q ++ [' ']) ++ '[' :: (labelled q ++ [']']) := by
    simp [answered]
  have hs : Chars.splitLast '[' (answered q) = some (listed q ++ [' '], labelled q ++ [']']) := by
    rw [ha]
    exact Chars.splitLast_append_cons _ (by simp [h])
  simp [labels?, hs, Chars.stripLast?_append]

theorem parseQuestion_of_not_mem (h : Writable q) (hb : '[' ∉ labelled q) :
    parseQuestion (String.ofList (written q)) =
      some { q with
        correct := correctPlaces q.options (Text.pieces ',' (String.ofList (labelled q))) } := by
  have ho : Text.pieces '|' (String.ofList (listed q ++ [' '])) = q.options := by
    rw [Text.pieces, String.toList_ofList,
      Chars.pieces_append_of_isBlank _ (by decide) (by decide), h.pieces_listed]
    simp
  rw [h.parseQuestion_written, labels?_answered hb, Option.getD_some]
  dsimp only
  rw [ho]

theorem count_of_labels? {rest before : List Char} {labels : List String}
    (h : labels? rest = some (before, labels)) : rest.count '[' = before.count '[' + 1 := by
  obtain ⟨⟨b, after⟩, hsplit, h⟩ := Option.bind_eq_some_iff.1 h
  obtain ⟨inner, -, h⟩ := Option.bind_eq_some_iff.1 h
  obtain ⟨rfl, -⟩ := Prod.mk.inj (Option.some.inj h)
  by_cases hm : '[' ∈ rest
  · obtain ⟨b', a', rfl, ha⟩ := Chars.exists_last_of_mem hm
    rw [Chars.splitLast_append_cons b' ha] at hsplit
    obtain ⟨rfl, -⟩ := Prod.mk.inj (Option.some.inj hsplit)
    rw [List.count_append, List.count_cons_self, List.count_eq_zero.2 ha]
  · rw [Chars.splitLast_eq_none hm] at hsplit
    cases hsplit

/-- An opening bracket in a label moves the beginning of the labels, and the last option grows. -/
theorem parseQuestion_ne_of_mem (h : Writable q) (hb : '[' ∈ labelled q) :
    parseQuestion (String.ofList (written q)) ≠ some q := by
  rw [h.parseQuestion_written]
  have hlabels : 0 < (labelled q).count '[' := List.count_pos_iff.2 hb
  have hanswered : (answered q).count '[' =
      (listed q).count '[' + (labelled q).count '[' + 1 := by
    simp [answered, List.count_append]
    omega
  generalize hp : (labels? (answered q)).getD (answered q, []) = p
  obtain ⟨before, labels⟩ := p
  dsimp only
  have hmore : (listed q).count '[' < before.count '[' := by
    cases hl : labels? (answered q) with
    | none =>
      rw [hl, Option.getD_none] at hp
      obtain ⟨rfl, -⟩ := Prod.mk.inj hp
      omega
    | some found =>
      rw [hl, Option.getD_some] at hp
      have := count_of_labels? (hl.trans (congrArg some hp))
      omega
  intro he
  have ho : Text.pieces '|' (String.ofList before) = q.options :=
    congrArg ChoiceQuestion.options (Option.some.inj he)
  have hpieces : Chars.pieces '|' before = Chars.pieces '|' (listed q) := by
    rw [h.pieces_listed, ← ho, Text.pieces, String.toList_ofList]
    simp [Function.comp_def]
  have hcount := congrArg (fun texts => texts.flatten.count '[') hpieces
  have hpipe : ∀ cs : List Char, (Chars.pieces '|' cs).flatten.count '[' = cs.count '[' :=
    Chars.count_flatten_pieces (by decide) (by decide)
  simp only [hpipe] at hcount
  omega

theorem bracket_mem_labelled_iff :
    '[' ∈ labelled q ↔ ∃ o ∈ correctOptions q, '[' ∈ o.toList := by
  constructor
  · intro h
    rcases Chars.mem_join h with hsep | ⟨piece, hp, hb⟩
    · simp at hsep
    · obtain ⟨o, ho, rfl⟩ := List.mem_map.1 hp
      exact ⟨o, ho, hb⟩
  · rintro ⟨o, ho, hb⟩
    exact Chars.mem_join_of_mem _ (List.mem_map_of_mem ho) hb

/-- The written labels name what the parts of the correct options between commas name. -/
theorem names_labelled_iff {j : Nat} :
    Names q.options (Text.pieces ',' (String.ofList (labelled q))) j ↔
      ∃ o ∈ correctOptions q, Names q.options (Text.pieces ',' o) j := by
  have hp : Text.pieces ',' (String.ofList (labelled q)) =
      (correctOptions q).flatMap (Text.pieces ',') := by
    rw [Text.pieces, String.toList_ofList, labelled, Chars.pieces_join_followed (by decide)]
    rw [List.flatMap_map, List.map_flatMap]
    rfl
  rw [hp]
  simp only [Names, List.mem_flatMap]
  constructor
  · rintro ⟨label, ⟨o, ho, hl⟩, hj⟩
    exact ⟨o, ho, label, hl, hj⟩
  · rintro ⟨o, ho, label, hl, hj⟩
    exact ⟨label, ⟨o, ho, hl⟩, hj⟩

theorem correctPlaces_of_only_first {options labels : List String} (hn : 0 < options.length)
    (h : ∀ j, Names options labels j → j = 0) : correctPlaces options labels = [0] := by
  by_cases hnames : ∃ j, Names options labels j
  · obtain ⟨j, hj⟩ := hnames
    obtain rfl := h j hj
    have hfirst : Names options [options[0]] 0 := by
      refine ⟨options[0], by simp, ?_⟩
      rw [place?, List.findIdx?_eq_some_iff_getElem]
      exact ⟨hn, by simp, by simp⟩
    rw [correctPlaces_of_names hj]
    obtain ⟨n, hlen⟩ : ∃ n, options.length = n + 1 := ⟨options.length - 1, by omega⟩
    obtain ⟨label, hl, hp⟩ := hj
    have hzero : (labels.any fun label => place? options label == some 0) = true :=
      List.any_eq_true.2 ⟨label, hl, by simpa using hp⟩
    have hrest : ∀ i ∈ (List.range n).map Nat.succ,
        ¬ (labels.any fun label => place? options label == some i) = true := by
      intro i hi hany
      obtain ⟨k, -, rfl⟩ := List.mem_map.1 hi
      obtain ⟨other, ho, hk⟩ := List.any_eq_true.1 hany
      exact absurd (h (k + 1) ⟨other, ho, by simpa using hk⟩) (by omega)
    rw [hlen, List.range_succ_eq_map, List.filter_cons, if_pos hzero,
      List.filter_eq_nil_iff.2 hrest]
  · exact correctPlaces_of_not_names fun j hj => hnames ⟨j, hj⟩

/-- An option named by a label without commas is its own only label. -/
theorem names_self {options : List String} {label : String} {j : Nat}
    (hform : ∀ o ∈ options, Chars.Tight o.toList ∧ o.toList ≠ [])
    (hl : ',' ∉ label.toList) (hj : place? options label = some j) :
    ∃ o, options[j]? = some o ∧ Names options (Text.pieces ',' o) j := by
  obtain ⟨hlt, hlower⟩ := lower_of_place? hj
  have hchars : Chars.lower options[j].toList = Chars.lower label.toList := by
    simpa [Text.lower] using congrArg String.toList hlower
  have hcomma : ',' ∉ options[j].toList := by
    rw [← Chars.mem_lower_iff Chars.isSign_comma, hchars, Chars.mem_lower_iff Chars.isSign_comma]
    exact hl
  obtain ⟨ht, hne⟩ := hform _ (List.getElem_mem hlt)
  have hpieces : Text.pieces ',' options[j] = [options[j]] := by
    simp [Text.pieces, Chars.pieces_eq_singleton hcomma ht hne]
  refine ⟨options[j], List.getElem?_eq_getElem hlt, options[j], by simp [hpieces], ?_⟩
  rw [place?_congr options hlower]
  exact hj

/-- The written labels name the correct options exactly if no part of one is another option. -/
theorem correctPlaces_labelled_iff (h : Writable q) :
    correctPlaces q.options (Text.pieces ',' (String.ofList (labelled q))) = q.correct ↔
      ∀ j, (∃ o ∈ correctOptions q, Names q.options (Text.pieces ',' o) j) → j ∈ q.correct := by
  constructor
  · intro he j hj
    rw [← names_labelled_iff] at hj
    rw [← he, mem_correctPlaces_iff ⟨j, hj⟩]
    exact hj
  · intro hall
    obtain ⟨labels, hlabels, hc⟩ := h.correct
    by_cases hnames : ∃ j, Names q.options labels j
    · rw [hc]
      apply correctPlaces_congr
      intro j
      rw [names_labelled_iff]
      constructor
      · intro hj
        rw [← mem_correctPlaces_iff hnames, ← hc]
        exact hall j hj
      · intro hj
        obtain ⟨label, hl, hp⟩ := id hj
        have hform : ∀ o ∈ q.options, Chars.Tight o.toList ∧ o.toList ≠ [] :=
          fun o ho => (h.options o ho).2
        obtain ⟨o, ho, hn⟩ := names_self hform (hlabels label hl).1 hp
        refine ⟨o, mem_correctOptions.2 ⟨j, ?_, ho⟩, hn⟩
        rw [hc, mem_correctPlaces_iff hnames]
        exact hj
    · have hzero : q.correct = [0] := by
        rw [hc]
        exact correctPlaces_of_not_names fun j hj => hnames ⟨j, hj⟩
      have hn := h.several
      rw [hzero]
      apply correctPlaces_of_only_first (by omega)
      intro j hj
      rw [names_labelled_iff] at hj
      simpa [hzero] using hall j hj

/-- A written question reads as itself exactly if its correct options are legible. -/
theorem parseQuestion_written_iff (h : Writable q) :
    parseQuestion (String.ofList (written q)) = some q ↔ Legible q := by
  by_cases hb : '[' ∈ labelled q
  · obtain ⟨o, ho, hmem⟩ := bracket_mem_labelled_iff.1 hb
    obtain ⟨i, hi, hio⟩ := mem_correctOptions.1 ho
    exact iff_of_false (h.parseQuestion_ne_of_mem hb) fun hl => (hl i hi o hio).1 hmem
  · rw [h.parseQuestion_of_not_mem hb]
    have heq : (some { q with
        correct := correctPlaces q.options (Text.pieces ',' (String.ofList (labelled q))) } =
          some q) ↔
        correctPlaces q.options (Text.pieces ',' (String.ofList (labelled q))) = q.correct :=
      ⟨fun he => congrArg ChoiceQuestion.correct (Option.some.inj he), fun he => by rw [he]⟩
    rw [heq, h.correctPlaces_labelled_iff]
    constructor
    · intro hall i hi o ho
      have hmem := mem_correctOptions.2 ⟨i, hi, ho⟩
      refine ⟨fun hbo => hb (bracket_mem_labelled_iff.2 ⟨o, hmem, hbo⟩), fun label hl j hj => ?_⟩
      exact hall j ⟨o, hmem, label, hl, hj⟩
    · rintro hl j ⟨o, ho, label, hlabel, hj⟩
      obtain ⟨i, hi, hio⟩ := mem_correctOptions.1 ho
      exact (hl i hi o hio).2 label hlabel j hj

end Writable

theorem parse_eq_ok_iff {lines : List ContentLine} {qs : List ChoiceQuestion} :
    parse lines = .ok qs ↔
      (ContentLine.withText lines).mapM questionLine = .ok qs ∧ qs ≠ [] := by
  rw [parse]
  cases (ContentLine.withText lines).mapM questionLine with
  | error e => exact iff_of_false nofun (fun h => nomatch h.1)
  | ok found =>
    cases found with
    | nil => exact iff_of_false nofun (fun h => h.2 (Except.ok.inj h.1).symm)
    | cons q rest =>
      constructor
      · intro h
        exact ⟨h, by simp [← Except.ok.inj h]⟩
      · exact fun h => h.1

theorem questionLine_eq_ok_iff {l : ContentLine} {q : ChoiceQuestion} :
    questionLine l = .ok q ↔ '|' ∈ l.text.toList ∧ parseQuestion l.text = some q := by
  rw [questionLine]
  by_cases hb : '|' ∈ l.text.toList
  · rw [if_pos (by simpa [Text.contains] using hb)]
    cases parseQuestion l.text <;> simp [hb]
  · rw [if_neg (by simpa [Text.contains] using hb)]
    simp [hb]

/-- What a check of questions that passes says about each of them. -/
theorem writable_of_validate {qs : List ChoiceQuestion} (hv : (validate qs).isValid = true)
    {q : ChoiceQuestion} (hq : q ∈ qs) (hr : WellRead q) : Writable q := by
  have hallowed := (isValid_validate_iff.1 hv).each q hq
  refine ⟨hr, ?_, hallowed.options.1⟩
  intro he
  have hblank := hallowed.question
  simp [Text.isBlank, he] at hblank

theorem questionLine_reread_iff {q : ChoiceQuestion} (h : Writable q) :
    questionLine (.reread (String.ofList (written q))) = .ok q ↔ Legible q := by
  have ht : (ContentLine.reread (String.ofList (written q))).text =
      String.ofList (written q) := by
    simp [ContentLine.reread, Text.trim, h.trim_written]
  have hbar : '|' ∈ written q := by simp [written, answered, h.bar_mem_listed]
  rw [questionLine_eq_ok_iff, ht, h.parseQuestion_written_iff]
  simp [hbar]

/-- Questions that were read and pass their check can be written, and are read back from the written
lines exactly if their correct options are legible. -/
theorem parse_serialize_iff (lines : List ContentLine) (qs : List ChoiceQuestion)
    (hp : parse lines = .ok qs) (hv : (validate qs).isValid = true) :
    ∃ texts, serialize qs = .ok texts ∧
      (parse (texts.map .reread) = .ok qs ↔ ∀ q ∈ qs, Legible q) := by
  obtain ⟨hlines, hne⟩ := parse_eq_ok_iff.1 hp
  have hw : ∀ q ∈ qs, Writable q := by
    intro q hq
    obtain ⟨l, hl, hlq⟩ := forall₂_exists_left (mapM_eq_ok_iff.1 hlines) hq
    exact writable_of_validate hv hq
      (wellRead_of_parseQuestion (questionLine_eq_ok_iff.1 hlq).2)
  refine ⟨qs.map fun q => String.ofList (written q), ?_, ?_⟩
  · rw [serialize, mapM_eq_ok_iff, List.forall₂_map_right_iff, List.forall₂_same]
    exact fun q hq => renderQuestion_eq (hw q hq).correct_lt
  · have htext : ContentLine.withText
        ((qs.map fun q => String.ofList (written q)).map .reread) =
          (qs.map fun q => String.ofList (written q)).map .reread := by
      rw [ContentLine.withText, List.filter_eq_self]
      intro l hl
      obtain ⟨text, ht, rfl⟩ := List.mem_map.1 hl
      obtain ⟨q, hq, rfl⟩ := List.mem_map.1 ht
      have hchars : written q ≠ [] := by simp [written]
      simp [ContentLine.reread, Text.trim, (hw q hq).trim_written, hchars]
    rw [parse_eq_ok_iff, htext, mapM_eq_ok_iff, List.forall₂_map_left_iff,
      List.forall₂_map_left_iff, List.forall₂_same]
    constructor
    · exact fun h q hq => (questionLine_reread_iff (hw q hq)).1 (h.1 q hq)
    · exact fun h => ⟨fun q hq => (questionLine_reread_iff (hw q hq)).2 (h q hq), hne⟩

/-- Two correct options with a comma and a bracket among the others. -/
theorem parse_serialize_iff_colors :
    parse [⟨"Colors? = Red | a, b | [x | blue [BLUE, red]", [], 1⟩] =
      .ok [⟨"Colors?", ["Red", "a, b", "[x", "blue"], [0, 3]⟩] ∧
    ∃ texts, serialize [⟨"Colors?", ["Red", "a, b", "[x", "blue"], [0, 3]⟩] = .ok texts ∧
      (parse (texts.map .reread) = .ok [⟨"Colors?", ["Red", "a, b", "[x", "blue"], [0, 3]⟩] ↔
        ∀ q ∈ [(⟨"Colors?", ["Red", "a, b", "[x", "blue"], [0, 3]⟩ : ChoiceQuestion)],
          Legible q) := by
  have hp : parse [⟨"Colors? = Red | a, b | [x | blue [BLUE, red]", [], 1⟩] =
      .ok [⟨"Colors?", ["Red", "a, b", "[x", "blue"], [0, 3]⟩] := by decide +kernel
  exact ⟨hp, parse_serialize_iff _ _ hp (by decide +kernel)⟩

/-- Not every question is read back. Here a part of the first option, which is correct without a
label, names the second option. -/
theorem serialize_loses_unmarked_option :
    ¬ ∀ (lines : List ContentLine) (qs : List ChoiceQuestion), parse lines = .ok qs →
      (validate qs).isValid = true →
        ∃ texts, serialize qs = .ok texts ∧ parse (texts.map .reread) = .ok qs := by
  intro h
  obtain ⟨texts, hs, hr⟩ := h [⟨"Q = a, b | b", [], 1⟩] [⟨"Q", ["a, b", "b"], [0]⟩]
    (by decide +kernel) (by decide +kernel)
  have hwritten : serialize [⟨"Q", ["a, b", "b"], [0]⟩] = .ok ["Q = a, b | b [a, b]"] := by
    decide +kernel
  have hread : parse (["Q = a, b | b [a, b]"].map .reread) =
      .ok [⟨"Q", ["a, b", "b"], [1]⟩] := by decide +kernel
  obtain rfl := Except.ok.inj (hwritten.symm.trans hs)
  rw [hread] at hr
  exact absurd hr (by decide)

end Worksheet.MultipleChoice
