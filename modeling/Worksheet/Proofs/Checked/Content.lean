import Worksheet.Content.Basic
import Worksheet.Proofs.Checked.Marker
import Worksheet.Proofs.Matching.RoundTrip

namespace Worksheet.Checked

open Chars (size)

variable {α β : Type}

section FillBlank

/-- The text between the asterisk at a place and the next one, and the distance of that one, if they
mark a blank. -/
def blankAt (cs : List Char) (place : Nat) : Option (Option (List Char × Nat)) := do
  if (← cs[place]?) == '*' then
    match (← range cs (place + 1) cs.length).findIdx? (· == '*') with
    | none => return none
    | some distance =>
      let inner ← range cs (place + 1) (distance + place + 1)
      return if FillBlank.marksBlank inner then some (inner, distance) else none
  else return none

/-- The displayed text and the blanks from a place on, which is displayed at another one. -/
def display (cs : List Char) (start place : Nat) : Option (List Char × List Blank) :=
  if place < cs.length then do
    match ← blankAt cs place with
    | some (inner, distance) =>
      let (text, blanks) ← display cs (start + FillBlank.placeholder.length) (distance + place + 2)
      return (FillBlank.placeholder ++ text, ⟨start, FillBlank.answers inner⟩ :: blanks)
    | none =>
      let c ← cs[place]?
      let (text, blanks) ← display cs (start + 1) (place + 1)
      return (c :: text, blanks)
  else some ([], [])
termination_by cs.length - place

def parseSentence (line : String) : Option (Option FillSentence) := do
  let (text, blanks) ← display line.toList 0 0
  return if blanks.isEmpty then none else some ⟨String.ofList text, blanks⟩

theorem splitOnce_eq (sep : Char) (cs : List Char) : Chars.splitOnce sep cs =
    (cs.findIdx? (· == sep)).map fun place => (cs.take place, cs.drop (place + 1)) := by
  induction cs with
  | nil => rfl
  | cons c cs ih =>
    rw [Chars.splitOnce, List.findIdx?_cons, ih]
    cases c == sep with
    | true => rfl
    | false => cases cs.findIdx? (· == sep) <;> rfl

theorem blankAt_append {cs done rest : List Char} {c : Char} (hcs : cs = done ++ c :: rest) :
    blankAt cs done.length =
      some ((FillBlank.blank? (c :: rest)).map fun (inner, _) => (inner, inner.length)) := by
  have hopened : done.length + 1 = (done ++ [c]).length := by simp
  have hafter : range cs (done.length + 1) cs.length = some rest := by
    have hwhole : cs = (done ++ [c]) ++ rest ++ [] := by simp [hcs]
    refine range_append hwhole hopened ?_
    rw [hcs, List.length_append, List.length_cons]
    omega
  rw [blankAt, getElem?_append_length hcs]
  simp only [Option.bind_eq_bind, Option.bind_some]
  by_cases hc : c = '*'
  · subst hc
    rw [hafter, FillBlank.blank?, splitOnce_eq]
    cases hfind : rest.findIdx? (· == '*') with
    | none => simp [hfind]
    | some place =>
      have hplace : place ≤ rest.length :=
        Nat.le_of_lt (List.findIdx?_eq_some_iff_getElem.1 hfind).1
      have hlength : (rest.take place).length = place := by
        rw [List.length_take, Nat.min_eq_left hplace]
      have hinner : range cs (done.length + 1) (place + done.length + 1) =
          some (rest.take place) := by
        have hwhole : cs = (done ++ ['*']) ++ rest.take place ++ rest.drop place := by simp [hcs]
        exact range_append hwhole hopened (by omega)
      simp only [beq_self_eq_true, if_true, Option.bind_some, hfind, hinner, Option.map_some]
      split <;> simp [hlength]
  · have hblank : FillBlank.blank? (c :: rest) = none := by
      rw [FillBlank.blank?.eq_def]
      split
      · rename_i heq
        exact absurd (List.cons.inj heq).1 hc
      · rfl
    simp [hc, hblank]

theorem display_append {cs done rest : List Char} (hcs : cs = done ++ rest) (start : Nat) :
    display cs start done.length = some (FillBlank.display start rest) := by
  fun_induction FillBlank.display start rest generalizing done with
  | case1 start =>
    have hend : ¬ done.length < cs.length := by simp [hcs]
    rw [display, if_neg hend]
  | case2 start c rest hblank text blanks hrest ih =>
    have hplace : done.length < cs.length := by simp [hcs]
    have hwhole : cs = (done ++ [c]) ++ rest := by simp [hcs]
    have hnext := ih hwhole
    rw [List.length_append, List.length_singleton, hrest] at hnext
    rw [display, if_pos hplace, blankAt_append hcs, hblank, getElem?_append_length hcs]
    simp only [Option.bind_eq_bind, Option.bind_some, Option.map_none, hnext]
    rfl
  | case3 start c rest inner after hblank hlength text blanks hrest ih =>
    have hplace : done.length < cs.length := by simp [hcs]
    have hwhole : cs = (done ++ '*' :: (inner ++ ['*'])) ++ after := by
      rw [hcs, ← FillBlank.blank?_append hblank]
      simp
    have hnext := ih hwhole
    have hdone : (done ++ '*' :: (inner ++ ['*'])).length = inner.length + done.length + 2 := by
      simp only [List.length_append, List.length_cons, List.length_nil]
      omega
    rw [hdone, hrest] at hnext
    rw [display, if_pos hplace, blankAt_append hcs, hblank]
    simp only [Option.bind_eq_bind, Option.bind_some, Option.map_some, hnext]
    rfl

theorem parseSentence_eq (line : String) :
    parseSentence line = some (FillBlank.parseSentence line) := by
  have hdisplay : display line.toList 0 0 = some (FillBlank.display 0 line.toList) :=
    display_append (List.nil_append _).symm 0
  rw [parseSentence, FillBlank.parseSentence, hdisplay]
  rfl

end FillBlank

section Matching

/-- The byte offset of the first occurrence of a text in another that begins at an offset. -/
def findText (needle : List Char) (offset : Nat) : List Char → Option Nat
  | [] => none
  | c :: cs =>
    if needle.isPrefixOf (c :: cs) then some offset else findText needle (offset + c.utf8Size) cs

/-- The byte offset and the size of the first separator of a pair. -/
def separator? (offset : Nat) (cs : List Char) : Option (Nat × Nat) :=
  match findText [':', ':'] offset cs, findText ['='] offset cs with
  | some double, some single => if double ≤ single then some (double, 2) else some (single, 1)
  | some double, none => some (double, 2)
  | none, some single => some (single, 1)
  | none, none => none

def splitPair (cs : List Char) : Option (Option (List Char × List Char)) :=
  match separator? 0 cs with
  | none => some none
  | some (place, width) => do return some (← upTo cs place, ← onward cs (place + width))

theorem le_findText {needle : List Char} {offset place : Nat} {cs : List Char}
    (h : findText needle offset cs = some place) : offset ≤ place := by
  induction cs generalizing offset with
  | nil => cases h
  | cons c cs ih =>
    rw [findText] at h
    split at h
    · exact Nat.le_of_eq (Option.some.inj h)
    · exact Nat.le_trans (Nat.le_add_right _ _) (ih h)

theorem findText_of_prefix {needle : List Char} {c : Char} {cs : List Char}
    (h : needle.isPrefixOf (c :: cs) = true) (offset : Nat) :
    findText needle offset (c :: cs) = some offset :=
  if_pos h

theorem findText_of_not_prefix {needle : List Char} {c : Char} {cs : List Char}
    (h : needle.isPrefixOf (c :: cs) = false) (offset : Nat) :
    findText needle offset (c :: cs) = findText needle (offset + c.utf8Size) cs :=
  if_neg (Bool.eq_false_iff.1 h)

/-- The first separator stands where the pair is split. -/
theorem separator?_eq (offset : Nat) (cs : List Char) :
    (Matching.splitPair cs = none ∧ separator? offset cs = none) ∨
      ∃ left separator right, Matching.splitPair cs = some (left, right) ∧
        cs = left ++ separator ++ right ∧
        separator? offset cs = some (offset + size left, size separator) := by
  fun_induction Matching.splitPair cs generalizing offset with
  | case1 => exact Or.inl ⟨rfl, rfl⟩
  | case2 rest =>
    refine Or.inr ⟨[], [':', ':'], rest, rfl, rfl, ?_⟩
    rw [separator?, findText_of_prefix rfl]
    cases hsingle : findText ['='] offset (':' :: ':' :: rest) with
    | none => rfl
    | some single =>
      dsimp only
      rw [if_pos (le_findText hsingle)]
      rfl
  | case3 c rest hdouble hc =>
    obtain rfl := eq_of_beq hc
    refine Or.inr ⟨[], ['='], rest, rfl, rfl, ?_⟩
    have hsingle : findText ['='] offset ('=' :: rest) = some offset := findText_of_prefix rfl _
    rw [separator?, hsingle, findText_of_not_prefix rfl]
    cases hfound : findText [':', ':'] (offset + '='.utf8Size) rest with
    | none => rfl
    | some double =>
      have hlater := le_findText hfound
      have hpos := Char.utf8Size_pos '='
      dsimp only
      rw [if_neg (by omega)]
      rfl
  | case4 c rest hdouble hc ih =>
    have hnotdouble : [':', ':'].isPrefixOf (c :: rest) = false := by
      rw [Bool.eq_false_iff]
      intro hbegins
      obtain ⟨after, hafter⟩ := List.isPrefixOf_iff_prefix.1 hbegins
      obtain ⟨rfl, rfl⟩ := List.cons.inj hafter
      exact hdouble after rfl rfl
    have hnotsingle : ['='].isPrefixOf (c :: rest) = false := by
      rw [Bool.eq_false_iff]
      intro hbegins
      obtain ⟨after, hafter⟩ := List.isPrefixOf_iff_prefix.1 hbegins
      obtain ⟨rfl, -⟩ := List.cons.inj hafter
      exact hc rfl
    have hskip : separator? offset (c :: rest) = separator? (offset + c.utf8Size) rest := by
      rw [separator?, findText_of_not_prefix hnotdouble, findText_of_not_prefix hnotsingle]
      rfl
    rw [hskip]
    rcases ih (offset + c.utf8Size) with ⟨hnone, hseparator⟩ |
      ⟨left, separator, right, hsome, hrest, hfound⟩
    · exact Or.inl ⟨by rw [hnone]; rfl, hseparator⟩
    · refine Or.inr ⟨c :: left, separator, right, by rw [hsome]; rfl, by rw [hrest]; rfl, ?_⟩
      rw [hfound, Chars.size_cons, Nat.add_assoc]

theorem splitPair_eq (cs : List Char) : splitPair cs = some (Matching.splitPair cs) := by
  rw [splitPair]
  rcases separator?_eq 0 cs with ⟨hnone, hseparator⟩ | ⟨left, separator, right, hsome, hcs, hfound⟩
  · rw [hnone, hseparator]
  · have hbefore : cs = left ++ (separator ++ right) := by simp [hcs]
    rw [hsome, hfound]
    simp only [Nat.zero_add, upTo_append hbefore rfl,
      onward_append hcs (Chars.size_append left separator).symm]
    rfl

end Matching

section MultipleChoice

/-- The text before the last bracket and the labels in it, if the text ends in a bracket. -/
def labels? (rest : List Char) : Option (Option (List Char × List String)) :=
  match findLast '[' rest with
  | some place =>
    if rest.getLast? == some ']' then do
      let inner ← slice rest (place + 1) (← sub (size rest) 1)
      return some (← upTo rest place, Text.pieces ',' (String.ofList inner))
    else some none
  | none => some none

def parseQuestion (text : String) : Option (Option ChoiceQuestion) :=
  match Chars.splitOnce '=' text.toList with
  | none => some none
  | some (question, rest) => do
    let rest := Chars.trim rest
    let (listed, labels) := (← labels? rest).getD (rest, [])
    let options := Text.pieces '|' (String.ofList listed)
    return some ⟨String.ofList (Chars.trim question), options,
      MultipleChoice.correctPlaces options labels⟩

/-- The bracket that a text ends in closes behind the last one that opens. -/
theorem labels?_eq (rest : List Char) : labels? rest = some (MultipleChoice.labels? rest) := by
  rw [labels?, MultipleChoice.labels?, findLast_eq]
  cases hsplit : Chars.splitLast '[' rest with
  | none => rfl
  | some parts =>
    obtain ⟨before, after⟩ := parts
    have hrest : rest = before ++ '[' :: after := (Chars.append_of_splitLast hsplit).symm
    simp only [Option.map_some, Option.bind_eq_bind, Option.bind_some]
    rcases List.eq_nil_or_concat after with rfl | ⟨inner, last, rfl⟩
    · have hlast : rest.getLast? = some '[' := by simp [hrest]
      rw [hlast]
      rfl
    · rw [List.concat_eq_append] at hrest ⊢
      have hwhole : rest = (before ++ ['[']) ++ inner ++ [last] := by simp [hrest]
      have hlast : rest.getLast? = some last := by rw [hwhole, List.getLast?_concat]
      rw [hlast]
      by_cases hclosed : last = ']'
      · subst hclosed
        have hbracket : '['.utf8Size = 1 ∧ ']'.utf8Size = 1 := by decide
        have hsize : size rest = size before + 1 + size inner + 1 := by
          rw [hwhole, Chars.size_append, Chars.size_append, Chars.size_append, Chars.size_cons,
            Chars.size_cons, hbracket.1, hbracket.2]
          rfl
        have hstop : sub (size rest) 1 = some (size before + 1 + size inner) := by
          rw [hsize, sub_of_le (by omega)]
          rfl
        have hslice : slice rest (size before + 1) (size before + 1 + size inner) = some inner := by
          refine slice_append hwhole ?_ rfl
          rw [Chars.size_append, Chars.size_cons, hbracket.1]
          rfl
        rw [beq_self_eq_true, if_pos rfl, hstop, Option.bind_some, hslice, upTo_append hrest rfl,
          Chars.stripLast?_append]
        rfl
      · have hstrip : Chars.stripLast? ']' (inner ++ [last]) = none := by
          rw [Option.eq_none_iff_forall_ne_some]
          intro text htext
          have hend := Chars.append_of_stripLast? htext
          exact hclosed (List.singleton_inj.1 (List.append_inj' hend rfl).2).symm
        have hopen : (some last == some ']') = false := by simpa using hclosed
        rw [hopen, if_neg Bool.false_ne_true, hstrip]
        rfl

theorem parseQuestion_eq (text : String) :
    parseQuestion text = some (MultipleChoice.parseQuestion text) := by
  rw [parseQuestion, MultipleChoice.parseQuestion]
  cases Chars.splitOnce '=' text.toList with
  | none => rfl
  | some parts =>
    obtain ⟨question, rest⟩ := parts
    simp only [labels?_eq]
    rfl

end MultipleChoice

section Lines

/-- What a line is read as, or the fault that it is not read. -/
def readWhole (found : Option (Option α)) (e : ContentError) : OptionT (Except ContentError) α := do
  match ← access found with
  | some a => return a
  | none => OptionT.lift (.error e)

/-- Reads all lines with a text, of which there must be one. -/
def readAll (tag : String) (read : ContentLine → OptionT (Except ContentError) α)
    (lines : List ContentLine) : OptionT (Except ContentError) (List α) := do
  let found ← (ContentLine.withText lines).mapM read
  if found.isEmpty then OptionT.lift (.error (.noContent tag)) else return found

def sentenceLine (l : ContentLine) : OptionT (Except ContentError) FillSentence :=
  readWhole (parseSentence l.text) (.line l.line (.noBlank l.text))

def pairLine (l : ContentLine) : OptionT (Except ContentError) MatchPair :=
  let found := if Matching.qualifies l.text then
    (splitPair l.text.toList).map (·.map fun (left, right) =>
      ⟨String.ofList (Chars.trim left), String.ofList (Chars.trim right)⟩)
  else some none
  readWhole found (.line l.line (.notPair l.text))

def questionLine (l : ContentLine) : OptionT (Except ContentError) ChoiceQuestion :=
  let found := if Text.contains l.text '|' then parseQuestion l.text else some none
  readWhole found (.line l.line (.notQuestion l.text))

/-- The calls on a line that have one of the given names. -/
def lineCalls (names : List String) (l : ContentLine) : OptionT (Except ContentError) (List Call) :=
  OptionT.mk ((findBare names l.text).run.mapError fun e => .line l.line (.call e.message))

/-- Whether a text has calls of the given names that can be read. -/
def hasCalls (names : List String) (text : String) : Option Bool :=
  match (findBare names text).run with
  | .ok found => found.map (!·.isEmpty)
  | .error _ => some false

/-- The sentences of lines that follow a run of lines without a separator. -/
def alignedSentences (run : List String) :
    List ContentLine → OptionT (Except ContentError) (List OrderingSentence)
  | [] => pure (Ordering.Aligner.flush run)
  | l :: rest => do
    let calls ← lineCalls ["align"] l
    if calls.isEmpty && !Ordering.qualifies l.text then alignedSentences (run ++ [l.text]) rest
    else
      let here : List OrderingSentence :=
        if calls.isEmpty then [⟨Text.pieces '|' l.text⟩]
        else calls.map fun c => ⟨c.arguments.map (·.value.render)⟩
      (fun more => Ordering.Aligner.flush run ++ here ++ more) <$> alignedSentences [] rest

def lineAreas (l : ContentLine) : OptionT (Except ContentError) (List ImageArea) := do
  (← lineCalls ["area"] l).mapM fun call => OptionT.lift (Selector.Image.area l.line call)

def imageSelection (lines : List ContentLine) : OptionT (Except ContentError) Selection := do
  match lines.findSome? (·.marker? .image) with
  | none => OptionT.lift (.error (.noContent "image selector @img(url)"))
  | some marker =>
    let areas ← lines.mapM lineAreas
    return { image := some ⟨marker.text, areas.flatten⟩ }

theorem readWhole_some (a : α) (e : ContentError) : Safe (readWhole (some (some a)) e) (.ok a) := by
  refine Safe.after ?_ rfl
  exact safe_pure a

theorem readWhole_none (e : ContentError) :
    Safe (readWhole (some none : Option (Option α)) e) (.error e) := by
  refine Safe.after ?_ rfl
  exact safe_lift _

theorem readAll_safe {tag : String} {read : ContentLine → OptionT (Except ContentError) α}
    {plain : ContentLine → Except ContentError α} (h : ∀ l, Safe (read l) (plain l))
    (lines : List ContentLine) : Safe (readAll tag read lines) (do
      let found ← (ContentLine.withText lines).mapM plain
      if found.isEmpty then .error (.noContent tag) else return found) := by
  refine Safe.bind (Safe.mapM fun l _ => h l) fun found => ?_
  split
  · exact safe_lift _
  · exact safe_pure found

theorem sentenceLine_safe (l : ContentLine) : Safe (sentenceLine l) (FillBlank.sentenceLine l) := by
  rw [sentenceLine, FillBlank.sentenceLine, parseSentence_eq]
  cases FillBlank.parseSentence l.text with
  | none => exact readWhole_none _
  | some sentence => exact readWhole_some sentence _

theorem pairLine_safe (l : ContentLine) : Safe (pairLine l) (Matching.pairLine l) := by
  rw [pairLine, Matching.pairLine, Matching.parsePair, splitPair_eq]
  cases Matching.qualifies l.text with
  | false => exact readWhole_none _
  | true =>
    cases Matching.splitPair l.text.toList with
    | none => exact readWhole_none _
    | some parts => exact readWhole_some _ _

theorem questionLine_safe (l : ContentLine) :
    Safe (questionLine l) (MultipleChoice.questionLine l) := by
  rw [questionLine, MultipleChoice.questionLine, parseQuestion_eq]
  cases Text.contains l.text '|' with
  | false => exact readWhole_none _
  | true =>
    cases MultipleChoice.parseQuestion l.text with
    | none => exact readWhole_none _
    | some question => exact readWhole_some question _

theorem lineCalls_safe (names : List String) (l : ContentLine) : Safe (lineCalls names l)
    ((Call.findBare names l.text).mapError fun e => .line l.line (.call e.message)) := by
  have hrun : (findBare names l.text).run = some <$> Call.findBare names l.text :=
    findBare_safe names l.text
  rw [Safe, lineCalls, OptionT.run_mk, hrun]
  cases Call.findBare names l.text <;> rfl

theorem hasCalls_eq (names : List String) (text : String) :
    hasCalls names text = some (match Call.findBare names text with
      | .ok calls => !calls.isEmpty
      | .error _ => false) := by
  have hrun : (findBare names text).run = some <$> Call.findBare names text :=
    findBare_safe names text
  rw [hasCalls, hrun]
  cases Call.findBare names text <;> rfl

theorem alignedSentences_safe (run : List String) (lines : List ContentLine) :
    Safe (alignedSentences run lines) (Ordering.Aligner.sentences run lines) := by
  induction lines generalizing run with
  | nil => exact safe_pure _
  | cons l rest ih =>
    have hcalls := lineCalls_safe ["align"] l
    have hmodel : Ordering.Aligner.sentences run (l :: rest) = (do
        let calls ← (Call.findBare ["align"] l.text).mapError fun e =>
          ContentError.line l.line (.call e.message)
        if calls.isEmpty && !Ordering.qualifies l.text then
          Ordering.Aligner.sentences (run ++ [l.text]) rest
        else
          let here : List OrderingSentence :=
            if calls.isEmpty then [⟨Text.pieces '|' l.text⟩]
            else calls.map fun c => ⟨c.arguments.map (·.value.render)⟩
          (Ordering.Aligner.sentences [] rest).map fun more =>
            Ordering.Aligner.flush run ++ here ++ more) := by
      rw [Ordering.Aligner.sentences, Ordering.alignCalls]
      cases Call.findBare ["align"] l.text <;> rfl
    rw [hmodel, alignedSentences]
    refine hcalls.bind fun calls => ?_
    dsimp only
    split
    · exact ih _
    · exact (ih []).map _

theorem lineAreas_safe (l : ContentLine) : Safe (lineAreas l) (Selector.Image.lineAreas l) := by
  have hmodel : Selector.Image.lineAreas l = (do
      let calls ← (Call.findBare ["area"] l.text).mapError fun e =>
        ContentError.line l.line (.call e.message)
      calls.mapM (Selector.Image.area l.line)) := by
    rw [Selector.Image.lineAreas, Selector.areaCalls]
    cases Call.findBare ["area"] l.text <;> rfl
  rw [hmodel]
  exact (lineCalls_safe ["area"] l).bind fun calls => Safe.mapM fun call _ => safe_lift _

theorem imageSelection_safe (lines : List ContentLine) :
    Safe (imageSelection lines) (Selector.Image.parse lines) := by
  rw [imageSelection, Selector.Image.parse]
  cases lines.findSome? (·.marker? .image) with
  | none => exact safe_lift _
  | some marker =>
    refine (Safe.mapM fun l _ => lineAreas_safe l).bind fun areas => ?_
    exact safe_pure (m := Except ContentError) _

end Lines

end Worksheet.Checked
