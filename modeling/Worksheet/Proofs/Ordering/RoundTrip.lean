import Worksheet.Content.Ordering
import Worksheet.Proofs.Call.Arguments
import Worksheet.Proofs.Content.Barred
import Worksheet.Proofs.Content.Reread
import Worksheet.Proofs.Validation.Rules

namespace Worksheet.Ordering

open Chars (IsPiece Tight)

theorem bind_nonempty_eq_ok_iff {found : Except ContentError (List OrderingSentence)}
    {ss : List OrderingSentence} : (found >>= nonempty) = .ok ss ↔ found = .ok ss ∧ ss ≠ [] := by
  refine (Worksheet.bind_nonempty_eq_ok_iff).trans ?_
  constructor
  · rintro ⟨read, hread, hne, rfl⟩
    exact ⟨hread, hne⟩
  · rintro ⟨hread, hne⟩
    exact ⟨ss, hread, hne, rfl⟩

/-- Items that are written one a line come back if each of them comes back from its own line. -/
theorem reread_of_lines {read : ContentLine → Except ContentError OrderingSentence}
    {write : OrderingSentence → String} {ss : List OrderingSentence} (hne : ss ≠ [])
    (htext : ∀ s ∈ ss, Text.trim (write s) ≠ "")
    (hread : ∀ s ∈ ss, read (.reread (write s)) = .ok s) :
    ((ContentLine.withText ((ss.map write).map .reread)).mapM read >>= nonempty) = .ok ss := by
  rw [bind_nonempty_eq_ok_iff]
  exact ⟨(ContentLine.mapM_reread_iff htext).2 hread, hne⟩

theorem qualifies_iff {text : String} :
    qualifies text = true ↔ '|' ∈ text.toList ∧ '=' ∉ text.toList ∧ '[' ∉ text.toList := by
  simp [qualifies, Text.contains, and_assoc]

theorem segmentLine_eq_ok_iff {l : ContentLine} {s : OrderingSentence} :
    segmentLine l = .ok s ↔
      qualifies l.text = true ∧ (⟨Text.pieces '|' l.text⟩ : OrderingSentence) = s := by
  rw [segmentLine]
  cases hq : qualifies l.text <;> simp

/-- The form of a sentence that was read from a line with bars. -/
structure WellRead (s : OrderingSentence) : Prop where
  segments : ∀ segment ∈ s.segments, IsPiece '|' segment.toList
  unsigned : ∀ segment ∈ s.segments, '=' ∉ segment.toList ∧ '[' ∉ segment.toList

theorem wellRead_of_segmentLine {l : ContentLine} {s : OrderingSentence}
    (h : segmentLine l = .ok s) : WellRead s := by
  obtain ⟨hq, rfl⟩ := segmentLine_eq_ok_iff.1 h
  obtain ⟨-, hequals, hbracket⟩ := qualifies_iff.1 hq
  have hpieces : ∀ segment ∈ Text.pieces '|' l.text,
      segment.toList ∈ Chars.pieces '|' l.text.toList := by
    intro segment hs
    obtain ⟨piece, hp, rfl⟩ := List.mem_map.1 hs
    simpa using hp
  constructor
  · intro segment hs
    exact Chars.isPiece_of_mem_pieces (hpieces segment hs)
  · intro segment hs
    obtain ⟨-, -, -, hsub⟩ := Chars.of_mem_pieces (hpieces segment hs)
    exact ⟨fun hm => hequals (hsub _ hm), fun hm => hbracket (hsub _ hm)⟩

/-- A sentence of two segments or more comes back from its line. -/
theorem segmentLine_reread {s : OrderingSentence} (h : WellRead s)
    (hlength : 2 ≤ s.segments.length) :
    segmentLine (.reread (Text.join " | " s.segments)) = .ok s := by
  have htext : (ContentLine.reread (Text.join " | " s.segments)).text =
      String.ofList (barred s.segments) := by
    rw [join_bars, ContentLine.text_reread_of_tight (tight_barred h.segments)]
  have hbar : '|' ∈ barred s.segments := bar_mem_barred hlength
  have hsigns : ∀ c, c ≠ ' ' → c ≠ '|' → (∀ segment ∈ s.segments, c ∉ segment.toList) →
      c ∉ barred s.segments := by
    intro c hspace hne hsegments hm
    rcases Chars.mem_join hm with hsep | ⟨piece, hp, hc⟩
    · simp [hspace, hne] at hsep
    · obtain ⟨segment, hs, rfl⟩ := List.mem_map.1 hp
      exact hsegments segment hs hc
  have hequals : '=' ∉ barred s.segments :=
    hsigns '=' (by decide) (by decide) fun segment hs => (h.unsigned segment hs).1
  have hbracket : '[' ∉ barred s.segments :=
    hsigns '[' (by decide) (by decide) fun segment hs => (h.unsigned segment hs).2
  rw [segmentLine_eq_ok_iff, htext, qualifies_iff, String.toList_ofList]
  refine ⟨⟨hbar, hequals, hbracket⟩, ?_⟩
  rw [Text.pieces, String.toList_ofList, pieces_barred h.segments]

theorem parse_serialize_segments {lines : List ContentLine} {ss : List OrderingSentence}
    (h : parse lines = .ok ss) (hlength : ∀ s ∈ ss, 2 ≤ s.segments.length) :
    parse ((serialize ss).map .reread) = .ok ss := by
  obtain ⟨hlines, hne⟩ := bind_nonempty_eq_ok_iff.1 h
  have hform : ∀ s ∈ ss, WellRead s := by
    intro s hs
    obtain ⟨l, -, hl⟩ := forall₂_exists_left (mapM_eq_ok_iff.1 hlines) hs
    exact wellRead_of_segmentLine hl
  apply reread_of_lines hne
  · intro s hs hempty
    have hback := (segmentLine_eq_ok_iff.1 (segmentLine_reread (hform s hs) (hlength s hs))).1
    rw [ContentLine.text_reread, hempty] at hback
    cases hback
  · intro s hs
    exact segmentLine_reread (hform s hs) (hlength s hs)

namespace Single

/-- No letter is white space: none of its code points lies in a range of letters. -/
theorem isBlank_of_isAlphabetic {c : Char} (h : Chars.isAlphabetic c = true) :
    Chars.isBlank c = false := by
  have hnone : ∀ r ∈ Chars.blankRanges, ∀ i ∈ List.range (r.2 - r.1 + 1),
      Chars.inRanges (r.1 + i) Chars.alphabeticRanges = false := by
    decide +kernel
  rw [Bool.eq_false_iff]
  intro hb
  have hn : Chars.inRanges c.toNat Chars.alphabeticRanges = false :=
    Chars.of_isBlank (q := fun n => Chars.inRanges n Chars.alphabeticRanges = false) hnone hb
  exact absurd h (by simp [Chars.isAlphabetic, hn])

/-- The segments that are the letters of a word. -/
def letters (cs : List Char) : List String :=
  cs.map fun c => String.ofList [c]

theorem exists_letters {segments : List String} (h : ∀ s ∈ segments, isLetter s = true) :
    ∃ cs, segments = letters cs ∧ ∀ c ∈ cs, Chars.isAlphabetic c = true := by
  induction segments with
  | nil => exact ⟨[], rfl, by simp⟩
  | cons s rest ih =>
    obtain ⟨cs, rfl, hcs⟩ := ih fun t ht => h t (by simp [ht])
    have hs := h s (by simp)
    simp only [isLetter, Bool.and_eq_true, beq_iff_eq, List.all_eq_true] at hs
    obtain ⟨hlength, halpha⟩ := hs
    obtain ⟨c, hc⟩ : ∃ c, s.toList = [c] := List.length_eq_one_iff.1 hlength
    refine ⟨c :: cs, ?_, ?_⟩
    · have hletter : s = String.ofList [c] := by rw [← hc, String.ofList_toList]
      rw [hletter]
      rfl
    · intro d hd
      rcases List.mem_cons.1 hd with rfl | hd
      · exact halpha d (by simp [hc])
      · exact hcs d hd

theorem join_letters (cs : List Char) : Text.join "" (letters cs) = String.ofList cs := by
  have hjoin : Chars.join [] (cs.map fun c => [c]) = cs := by
    induction cs with
    | nil => rfl
    | cons c cs ih =>
      cases cs with
      | nil => rfl
      | cons d ds =>
        simp only [List.map_cons] at ih ⊢
        rw [Chars.join_cons_cons, ih]
        rfl
  have hletters : (letters cs).map String.toList = cs.map fun c => [c] := by
    simp [letters]
  have hempty : "".toList = [] := rfl
  rw [Text.join, hletters, hempty, hjoin]

/-- A word of letters comes back from its line. -/
theorem wordLine_reread {s : OrderingSentence} (hsegments : s.segments ≠ [])
    (h : ∀ segment ∈ s.segments, isLetter segment = true) :
    Text.trim (renderWord s) ≠ "" ∧ wordLine (.reread (renderWord s)) = .ok s := by
  obtain ⟨segments⟩ := s
  obtain ⟨cs, rfl, halpha⟩ := exists_letters h
  have hne : cs ≠ [] := by
    rintro rfl
    exact hsegments rfl
  have hword : isSingleWord (String.ofList cs) = true := by
    simp only [isSingleWord, String.toList_ofList, Bool.and_eq_true, List.all_eq_true]
    exact ⟨by simpa using hne, halpha⟩
  have hlength : (letters cs).all (·.length == 1) = true := by
    simp [letters]
  have hrender : renderWord ⟨letters cs⟩ = String.ofList cs := by
    simp only [renderWord, join_letters, hword, hlength, Bool.and_self, if_true]
  have hblank : ∀ c ∈ cs, Chars.isBlank c = false := fun c hc =>
    isBlank_of_isAlphabetic (halpha c hc)
  have htight : Tight cs := Chars.tight_of_forall hblank
  have htext : (ContentLine.reread (String.ofList cs)).text = String.ofList cs :=
    ContentLine.text_reread_of_tight htight
  rw [hrender]
  refine ⟨?_, ?_⟩
  · rw [← ContentLine.text_reread, htext]
    simpa using hne
  · rw [wordLine, htext, hword, if_pos rfl, String.toList_ofList]
    rfl

theorem parse_serialize_words {ss : List OrderingSentence} (h : (validate ss).isValid = true) :
    parse ((serialize ss).map .reread) = .ok ss := by
  have hallowed := isValid_validate_iff.1 h
  have hne : ss ≠ [] := List.ne_nil_of_length_pos hallowed.number.1
  have hsentence : ∀ s ∈ ss,
      s.segments ≠ [] ∧ ∀ segment ∈ s.segments, isLetter segment = true := by
    intro s hs
    have hown := hallowed.each s hs
    have hpos : 0 < s.segments.length := Nat.lt_of_lt_of_le (by decide) hown.segments.1
    exact ⟨List.ne_nil_of_length_pos hpos, fun segment hsegment =>
      isLetter_iff.2 (hown.letters segment hsegment)⟩
  apply reread_of_lines hne
  · intro s hs
    exact (wordLine_reread (hsentence s hs).1 (hsentence s hs).2).1
  · intro s hs
    exact (wordLine_reread (hsentence s hs).1 (hsentence s hs).2).2

end Single

namespace Aligner

/-- A sentence as a call. -/
def written (s : OrderingSentence) : List Char :=
  CallStyle.call "align".toList (s.segments.map String.toList)

theorem renderSentence_eq (s : OrderingSentence) :
    renderSentence s = String.ofList (written s) := by
  rw [← String.toList_inj, renderSentence, written, CallStyle.call, Argument.written]
  simp [Text.join, Quoted.ofText, Function.comp_def]

theorem tight_written (s : OrderingSentence) : Tight (written s) ∧ written s ≠ [] := by
  constructor
  · have hname : Tight "align".toList := ⟨by decide, by decide⟩
    have hclose : Tight [')'] := ⟨by decide, by decide⟩
    have happend := hname.append hclose (by decide) (by simp)
      ('(' :: Argument.written (s.segments.map String.toList))
    simpa [written, CallStyle.call] using happend
  · simp [written, CallStyle.call]

/-- The call of a sentence has its segments as arguments, whatever they are. -/
theorem alignCalls_written (s : OrderingSentence) : ∃ c : Call,
    alignCalls (String.ofList (written s)) = .ok [c] ∧
      c.arguments.map (·.value.render) = s.segments := by
  have hcall := Call.findBare_call (by decide : isIdentifier "align".toList = true)
    (s.segments.map String.toList)
  refine ⟨_, hcall, ?_⟩
  simp [Argument.ofText, Param.render, Function.comp_def]

theorem sentences_reread (ss : List OrderingSentence) :
    sentences [] ((ss.map renderSentence).map .reread) = .ok ss := by
  induction ss with
  | nil => rfl
  | cons s rest ih =>
    obtain ⟨c, hc, hsegments⟩ := alignCalls_written s
    have htext : (ContentLine.reread (renderSentence s)).text = String.ofList (written s) := by
      rw [renderSentence_eq, ContentLine.text_reread_of_tight (tight_written s).1]
    rw [List.map_cons, List.map_cons, sentences, htext, hc]
    simp only [List.isEmpty_cons, Bool.false_and, Bool.false_eq_true, if_false, ih]
    simp [hsegments, flush, Except.map]

theorem parse_serialize_calls {ss : List OrderingSentence} (h : ss ≠ []) :
    parse ((serialize ss).map .reread) = .ok ss := by
  have htexts : ∀ t ∈ ss.map renderSentence, Text.trim t ≠ "" := by
    intro t ht
    obtain ⟨s, -, rfl⟩ := List.mem_map.1 ht
    obtain ⟨htight, hne⟩ := tight_written s
    rw [renderSentence_eq, Text.trim, String.toList_ofList, htight.trim_eq]
    simpa using hne
  have hparse : parse ((serialize ss).map .reread) =
      (sentences [] (ContentLine.withText ((ss.map renderSentence).map .reread)) >>= nonempty) :=
    rfl
  rw [hparse, bind_nonempty_eq_ok_iff, ContentLine.withText_reread htexts]
  exact ⟨sentences_reread ss, h⟩

end Aligner

/-- Sentences come back from what each of the three writers makes of them: from lines with bars if
they were read from such lines and no sentence is a single segment, from words if they pass the
check of words, and from calls if there are any. -/
theorem parse_serialize_all :
    (∀ (lines : List ContentLine) (ss : List OrderingSentence), parse lines = .ok ss →
      (∀ s ∈ ss, 2 ≤ s.segments.length) → parse ((serialize ss).map .reread) = .ok ss) ∧
    (∀ ss : List OrderingSentence, (Single.validate ss).isValid = true →
      Single.parse ((Single.serialize ss).map .reread) = .ok ss) ∧
    (∀ ss : List OrderingSentence, ss ≠ [] →
      Aligner.parse ((Aligner.serialize ss).map .reread) = .ok ss) := by
  refine ⟨?_, ?_, ?_⟩
  · intro lines ss h hlength
    exact parse_serialize_segments h hlength
  · intro ss h
    exact Single.parse_serialize_words h
  · intro ss h
    exact Aligner.parse_serialize_calls h

/-- Empty pieces between bars, the letters of a word, and segments that need quotes. -/
theorem parse_serialize_all_sentences :
    (parse [⟨"I | like || to read |", [], 1⟩] = .ok [⟨["I", "like", "to read"]⟩] ∧
      parse ((serialize [⟨["I", "like", "to read"]⟩]).map .reread) =
        .ok [⟨["I", "like", "to read"]⟩]) ∧
    ((Single.validate [⟨["s", "u", "n"]⟩]).isValid = true ∧
      Single.parse ((Single.serialize [⟨["s", "u", "n"]⟩]).map .reread) =
        .ok [⟨["s", "u", "n"]⟩]) ∧
    Aligner.parse ((Aligner.serialize [⟨["", "3", "a, \"b\" = [c", " @x(", "d\\"]⟩]).map .reread) =
      .ok [⟨["", "3", "a, \"b\" = [c", " @x(", "d\\"]⟩] := by
  have hread : parse [⟨"I | like || to read |", [], 1⟩] = .ok [⟨["I", "like", "to read"]⟩] := by
    decide +kernel
  have hlength : ∀ s ∈ [(⟨["I", "like", "to read"]⟩ : OrderingSentence)],
      2 ≤ s.segments.length := by
    decide
  have hvalid : (Single.validate [⟨["s", "u", "n"]⟩]).isValid = true := by decide +kernel
  exact ⟨⟨hread, parse_serialize_all.1 _ _ hread hlength⟩,
    ⟨hvalid, parse_serialize_all.2.1 _ hvalid⟩, parse_serialize_all.2.2 _ (by simp)⟩

end Worksheet.Ordering
