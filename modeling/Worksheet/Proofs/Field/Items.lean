import Worksheet.Field.Metadata
import Worksheet.Proofs.Field.Pieces

namespace Worksheet

open Quoted (plainText)

/-- An item of a list as it is written: in double quotes, or as it stands. -/
inductive ListItem where
  | quoted (text : String)
  | plain (text : String)
  deriving DecidableEq

namespace ListItem

def text : ListItem → String
  | quoted text => text
  | plain text => text

def isQuoted : ListItem → Bool
  | quoted _ => true
  | plain _ => false

def written : ListItem → String
  | quoted text => "\"" ++ String.ofList (Quoted.escape text.toList) ++ "\""
  | plain text => text

/-- An item that can stand in a list: not empty, on one line, and without signs of the syntax where
it is not quoted. -/
structure Fits (item : ListItem) : Prop where
  ne_empty : item.text ≠ ""
  one_line : '\n' ∉ item.text.toList
  plain : item.isQuoted = false →
    Text.trim item.text = item.text ∧ ∀ c ∈ item.text.toList, Quoted.isSpecial c = false

/-- A list without brackets. -/
def listed (items : List ListItem) : String :=
  Text.join ", " (items.map written)

def bracketed (items : List ListItem) : String :=
  "[" ++ listed items ++ "]"

/-- Whether a list has a quoted item at both of its ends. -/
def quotedAtEnds (items : List ListItem) : Bool :=
  items.head?.any isQuoted && items.getLast?.any isQuoted

theorem toList_written_quoted (text : String) :
    (quoted text).written.toList = '"' :: Quoted.escape text.toList ++ ['"'] := by
  simp [written]

theorem toList_listed (items : List ListItem) :
    (listed items).toList = Chars.join [',', ' '] (items.map (·.written.toList)) := by
  simp [listed, Text.join, Function.comp_def]

theorem toList_bracketed (items : List ListItem) :
    (bracketed items).toList = '[' :: ((listed items).toList ++ [']']) := by
  simp [bracketed]

namespace Fits

variable {item : ListItem} (h : item.Fits)

include h

theorem exists_cons : ∃ c cs, item.text.toList = c :: cs := by
  apply List.exists_cons_of_ne_nil
  intro hnil
  exact h.ne_empty (String.toList_inj.1 hnil)

theorem tight : Chars.Tight item.written.toList := by
  cases item with
  | quoted text =>
    rw [toList_written_quoted]
    exact Quoted.tight_quoted text.toList
  | plain text =>
    have htrim : Text.trim text = text := (h.plain rfl).1
    show Chars.Tight text.toList
    rw [← htrim, Text.trim, String.toList_ofList]
    exact Chars.tight_trim text.toList

theorem ne_nil : item.written.toList ≠ [] := by
  cases item with
  | quoted text => simp [toList_written_quoted]
  | plain text =>
    obtain ⟨c, cs, hcs⟩ := h.exists_cons
    intro hnil
    exact List.cons_ne_nil c cs (hcs.symm.trans hnil)

theorem neutral {sep : Char} (hsep : Quoted.isSpecial sep = true) :
    Scanner.Neutral sep item.written.toList := by
  cases item with
  | quoted text =>
    rw [toList_written_quoted]
    exact Scanner.neutral_quoted text.toList
  | plain text => exact Scanner.neutral_of_not_special hsep (h.plain rfl).2

theorem isSpecial_of_plain (hplain : item.isQuoted = false) {c : Char}
    (hc : c ∈ item.written.toList) : Quoted.isSpecial c = false := by
  cases item with
  | quoted text => cases hplain
  | plain text => exact (h.plain rfl).2 c hc

theorem head?_ne_bracket : item.written.toList.head? ≠ some '[' := by
  intro hhead
  cases item with
  | quoted text =>
    rw [toList_written_quoted] at hhead
    simp at hhead
  | plain text =>
    have hspecial := h.isSpecial_of_plain rfl (List.mem_of_head? hhead)
    cases hspecial

theorem plainText_written : plainText item.written.toList = item.text.toList := by
  cases item with
  | quoted text =>
    rw [toList_written_quoted, plainText, Quoted.decode?_quoted]
    rfl
  | plain text =>
    have hnone : Quoted.decode? text.toList = none := by
      cases hdecode : Quoted.decode? text.toList with
      | none => rfl
      | some inner =>
        obtain ⟨quote, raw, htrim, -, hquote⟩ := Quoted.exists_of_decode? hdecode
        have hmem : quote ∈ text.toList := Chars.mem_of_mem_trim (by simp [htrim])
        have hspecial := (h.plain rfl).2 quote hmem
        rcases hquote with rfl | rfl <;> cases hspecial
    show plainText text.toList = text.toList
    rw [plainText, hnone, Option.getD_none]

theorem count_written : item.written.toList.count ',' = item.text.toList.count ',' := by
  rw [← h.plainText_written, ← h.tight.trim_eq, Quoted.count_plainText_trim, h.tight.trim_eq]

theorem not_mem_break : '\n' ∉ item.written.toList := by
  cases item with
  | quoted text =>
    have hline : '\n' ∉ text.toList := h.one_line
    have hcount := Quoted.count_escape (by decide : '\n' ≠ '\\') text.toList
    rw [List.count_eq_zero_of_not_mem hline, List.count_eq_zero] at hcount
    simpa [toList_written_quoted] using hcount
  | plain text => exact h.one_line

end Fits

variable {items : List ListItem}

section Listed

variable (h : ∀ item ∈ items, item.Fits)

include h

theorem neutral_listed {sep : Char} (hsep : Quoted.isSpecial sep = true) (hcomma : sep ≠ ',') :
    Scanner.Neutral sep (listed items).toList := by
  have hmid : Scanner.Neutral sep [','] :=
    Scanner.neutral_singleton hcomma.symm (by decide) (by decide) (by decide) (by decide)
  have hspace : Scanner.Neutral sep [' '] :=
    Scanner.neutral_singleton (by rintro rfl; cases hsep) (by decide) (by decide) (by decide)
      (by decide)
  rw [toList_listed]
  apply Scanner.neutral_join (hmid.append hspace)
  intro text htext
  obtain ⟨item, hitem, rfl⟩ := List.mem_map.1 htext
  exact (h item hitem).neutral hsep

theorem not_mem_break_listed : '\n' ∉ (listed items).toList := by
  rw [toList_listed]
  intro hmem
  rcases Chars.mem_join hmem with hsep | ⟨text, htext, hc⟩
  · simp at hsep
  · obtain ⟨item, hitem, rfl⟩ := List.mem_map.1 htext
    exact (h item hitem).not_mem_break hc

/-- A list is cut into its items, with a space before each but the first. -/
theorem cut_listed (hne : items ≠ []) : ∃ first rest, items = first :: rest ∧
    Scanner.cut ',' {} (listed items).toList =
      first.written.toList :: (rest.map (·.written.toList)).map (' ' :: ·) := by
  obtain ⟨first, rest, rfl⟩ := List.exists_cons_of_ne_nil hne
  refine ⟨first, rest, rfl, ?_⟩
  rw [toList_listed]
  apply Scanner.cut_join_of_neutral (Scanner.idle_start 0)
  · exact (h first (by simp)).neutral (by decide)
  · intro text htext
    obtain ⟨item, hitem, rfl⟩ := List.mem_map.1 htext
    exact (h item (by simp [hitem])).neutral (by decide)

theorem map_trim_cut_listed (hne : items ≠ []) :
    (Scanner.cut ',' {} (listed items).toList).map Chars.trim = items.map (·.written.toList) := by
  obtain ⟨first, rest, rfl, hcut⟩ := cut_listed h hne
  have hrest : (rest.map (·.written.toList)).map (fun text => Chars.trim (' ' :: text)) =
      rest.map (·.written.toList) := by
    rw [List.map_map]
    apply List.map_congr_left
    intro item hitem
    rw [Function.comp_apply, Chars.trim_cons_of_isBlank _ (by decide),
      (h item (by simp [hitem])).tight.trim_eq]
  rw [hcut, List.map_cons, List.map_map, List.map_cons, (h first (by simp)).tight.trim_eq]
  exact congrArg (_ :: ·) hrest

/-- The items of a list are read as what they say. -/
theorem listItems_listed : listItems (listed items).toList = items.map text := by
  by_cases hne : items = []
  · rw [hne]
    rfl
  · have hread :
        (Scanner.cut ',' {} (listed items).toList).map (fun raw => plainText (Chars.trim raw)) =
          items.map (·.text.toList) := by
      have htrim := congrArg (List.map plainText) (map_trim_cut_listed h hne)
      rw [List.map_map, List.map_map] at htrim
      refine htrim.trans ?_
      apply List.map_congr_left
      intro item hitem
      exact (h item hitem).plainText_written
    have hkept : (items.map (·.text.toList)).filter (!·.isEmpty) = items.map (·.text.toList) := by
      rw [List.filter_eq_self]
      intro text htext
      obtain ⟨item, hitem, rfl⟩ := List.mem_map.1 htext
      obtain ⟨c, cs, hcs⟩ := (h item hitem).exists_cons
      simp [hcs]
    rw [listItems_eq_plainText, hread, hkept, List.map_map]
    apply List.map_congr_left
    intro item _
    exact String.ofList_toList

theorem tight_listed : Chars.Tight (listed items).toList := by
  rw [toList_listed]
  apply Chars.tight_join
  intro text htext
  obtain ⟨item, hitem, rfl⟩ := List.mem_map.1 htext
  exact ⟨(h item hitem).tight, (h item hitem).ne_nil⟩

/-- A list is put together again as it was. -/
theorem rejoined_listed (hne : items ≠ []) :
    Field.rejoined (listed items).toList = (listed items).toList := by
  rw [Field.rejoined_eq_iff (tight_listed h)]
  obtain ⟨first, rest, rfl, hcut⟩ := cut_listed h hne
  refine ⟨_, _, hcut, (h first (by simp)).tight, ?_⟩
  intro text htext
  obtain ⟨item, hitem, rfl⟩ := List.mem_map.1 htext
  have hfits := h item (by simp [hitem])
  exact ⟨hfits.ne_nil, hfits.tight⟩

/-- No item looks like a key with its value. -/
theorem loose_listed : ∀ piece ∈ (splitTopLevel ',' (listed items).toList).tail,
    findTopLevel? ['=', ':'] piece.text = none := by
  intro piece hpiece
  by_cases hne : items = []
  · rw [hne] at hpiece
    cases hpiece
  · have hmem : piece.text ∈ items.map (·.written.toList) := by
      rw [← map_trim_cut_listed h hne, ← map_text_splitTopLevel]
      exact List.mem_map_of_mem (List.mem_of_mem_tail hpiece)
    obtain ⟨item, hitem, htext⟩ := List.mem_map.1 hmem
    rw [← htext]
    apply Scanner.find?_eq_none_of_quiet
    intro sign hsign
    have hspecial : Quoted.isSpecial sign = true := by
      rcases List.mem_pair.1 hsign with rfl | rfl <;> decide
    exact ((h item hitem).neutral hspecial 0 {} (Scanner.idle_start 0)).1

theorem count_listed (hne : items ≠ []) : (listed items).toList.count ',' + 1 =
    ((items.map text).map String.toList).flatten.count ',' + (items.map text).length := by
  have hwritten : (items.map (·.written.toList)).flatten.count ',' =
      ((items.map text).map String.toList).flatten.count ',' := by
    rw [List.count_flatten, List.count_flatten, List.map_map, List.map_map, List.map_map]
    exact congrArg List.sum (List.map_congr_left fun item hitem => (h item hitem).count_written)
  rw [toList_listed, Chars.count_join_self (by simp) (by simpa using hne), hwritten,
    List.length_map, List.length_map]

end Listed

section Ends

variable {first : ListItem} {rest : List ListItem}

theorem quotedAtEnds_cons (hrest : rest ≠ []) :
    quotedAtEnds (first :: rest) = (first.isQuoted && (rest.getLast hrest).isQuoted) := by
  rw [quotedAtEnds, List.getLast?_eq_some_getLast (List.cons_ne_nil first rest),
    List.getLast_cons hrest]
  rfl

theorem exists_listed_cons (first : ListItem) (hrest : rest ≠ []) : ∃ middle,
    (listed (first :: rest)).toList =
      first.written.toList ++ [',', ' '] ++ (middle ++ (rest.getLast hrest).written.toList) := by
  obtain ⟨next, others, rfl⟩ := List.exists_cons_of_ne_nil hrest
  obtain ⟨middle, hmiddle⟩ := Chars.getLast_isSuffix_join [',', ' ']
    ((next :: others).map (·.written.toList)) (by simp)
  refine ⟨middle, ?_⟩
  rw [List.getLast_map] at hmiddle
  rw [hmiddle, toList_listed]
  exact Chars.join_cons_cons ..

theorem head?_listed (rest : List ListItem) (h : first.Fits) :
    (listed (first :: rest)).toList.head? = first.written.toList.head? := by
  rw [toList_listed]
  exact Chars.head?_join_cons [',', ' '] h.ne_nil _

variable (hrest : rest ≠ []) (h : ∀ item ∈ first :: rest, item.Fits)

include hrest h

/-- A list with a quoted item at both ends is read as one text, which begins with the first item, a
quote and a comma. -/
theorem exists_decode?_listed (hquoted : quotedAtEnds (first :: rest) = true) : ∃ tail,
    Quoted.decode? (listed (first :: rest)).toList =
      some (first.text.toList ++ '"' :: ',' :: tail) := by
  rw [quotedAtEnds_cons hrest, Bool.and_eq_true] at hquoted
  obtain ⟨middle, hlisted⟩ := exists_listed_cons first hrest
  have htrim := (tight_listed h).trim_eq
  generalize hlast : rest.getLast hrest = last at hquoted hlisted
  cases first with
  | plain text => exact absurd hquoted.1 Bool.false_ne_true
  | quoted text =>
    cases last with
    | plain ending => exact absurd hquoted.2 Bool.false_ne_true
    | quoted ending =>
      have hends : (listed (quoted text :: rest)).toList = '"' ::
          (Quoted.escape text.toList ++
            '"' :: ',' :: (' ' :: middle ++ '"' :: Quoted.escape ending.toList) ++ ['"']) := by
        rw [hlisted, toList_written_quoted, toList_written_quoted]
        simp
      refine ⟨Quoted.unescape (' ' :: middle ++ '"' :: Quoted.escape ending.toList), ?_⟩
      rw [Quoted.decode?, htrim, hends]
      simp only [BEq.rfl, Bool.true_or, if_true, Chars.stripLast?_append, Option.map_some,
        Quoted.unescape_escape_append]
      rfl

theorem listItems_ne_of_decode? {tail : List Char}
    (hdecode : Quoted.decode? (listed (first :: rest)).toList =
      some (first.text.toList ++ '"' :: ',' :: tail)) :
    listItems (first.text.toList ++ '"' :: ',' :: tail) ≠ (first :: rest).map text := by
  intro heq
  have hcount : (first.text.toList ++ '"' :: ',' :: tail).count ',' =
      (listed (first :: rest)).toList.count ',' := by
    have hplain := Quoted.count_plainText_trim (listed (first :: rest)).toList
    rwa [(tight_listed h).trim_eq, plainText, hdecode] at hplain
  have hpieces := map_plainText_cut (first.text.toList ++ '"' :: ',' :: tail)
    (by rw [heq, hcount, count_listed h (by simp)])
  obtain ⟨next, others, rfl⟩ := List.exists_cons_of_ne_nil hrest
  have hjoin := Scanner.join_cut ',' {} (first.text.toList ++ '"' :: ',' :: tail)
  rw [heq] at hpieces
  generalize Scanner.cut ',' {} (first.text.toList ++ '"' :: ',' :: tail) = pieces at hpieces hjoin
  obtain _ | ⟨piece, _ | ⟨second, more⟩⟩ := pieces
  · simp at hpieces
  · simp at hpieces
  · rw [Chars.join_cons_cons, List.append_assoc] at hjoin
    exact Quoted.plainText_trim_ne_of_append hjoin.symm (List.cons.inj hpieces).1

/-- A list with a plain item at one of its ends is not read as a quoted text. -/
theorem decode?_listed_eq_none (hplain : quotedAtEnds (first :: rest) = false) :
    Quoted.decode? (listed (first :: rest)).toList = none := by
  rw [quotedAtEnds_cons hrest, Bool.and_eq_false_iff] at hplain
  obtain ⟨middle, hlisted⟩ := exists_listed_cons first hrest
  cases hdecode : Quoted.decode? (listed (first :: rest)).toList with
  | none => rfl
  | some text =>
    obtain ⟨quote, raw, htrim, -, hquote⟩ := Quoted.exists_of_decode? hdecode
    have hspecial : Quoted.isSpecial quote = true := by
      rcases hquote with rfl | rfl <;> decide
    rw [(tight_listed h).trim_eq] at htrim
    have hfirst := h first (by simp)
    have hlast := h (rest.getLast hrest) (by simp)
    have hhead := head?_listed rest hfirst
    have hend : (listed (first :: rest)).toList.getLast? =
        (rest.getLast hrest).written.toList.getLast? := by
      rw [hlisted, List.getLast?_append_of_ne_nil _ (by simp [hlast.ne_nil]),
        List.getLast?_append_of_ne_nil _ hlast.ne_nil]
    rw [htrim, List.head?_cons] at hhead
    rw [htrim, ← List.cons_append, List.getLast?_concat] at hend
    rcases hplain with hplain | hplain
    · rw [hfirst.isSpecial_of_plain hplain (List.mem_of_head? hhead.symm)] at hspecial
      cases hspecial
    · rw [hlast.isSpecial_of_plain hplain (List.mem_of_getLast? hend.symm)] at hspecial
      cases hspecial

/-- Read as a value of a field, a list without brackets has its items exactly if one of its ends is
not quoted. -/
theorem toItems_listed_iff : (FieldValue.ofChars (listed (first :: rest)).toList).toItems =
    (first :: rest).map text ↔ quotedAtEnds (first :: rest) = false := by
  have htight := tight_listed h
  constructor
  · intro hitems
    rw [← Bool.not_eq_true]
    intro hquoted
    obtain ⟨tail, hdecode⟩ := exists_decode?_listed hrest h hquoted
    rw [FieldValue.ofChars_of_decode? (by rwa [htight.trim_eq]), FieldValue.toItems,
      String.toList_ofList] at hitems
    exact listItems_ne_of_decode? hrest h hdecode hitems
  · intro hplain
    obtain ⟨middle, hlisted⟩ := exists_listed_cons first hrest
    have hcomma : ',' ∈ (listed (first :: rest)).toList := by simp [hlisted]
    have hbracket : (listed (first :: rest)).toList.head? ≠ some '[' := by
      rw [head?_listed rest (h first (by simp))]
      exact (h first (by simp)).head?_ne_bracket
    rw [FieldValue.ofChars_of_comma htight hcomma (decode?_listed_eq_none hrest h hplain) hbracket,
      FieldValue.toItems, String.toList_ofList, listItems_listed h]

end Ends

/-- In brackets a list is one piece, since no comma in it counts. -/
theorem cut_bracketed (h : ∀ item ∈ items, item.Fits) :
    Scanner.cut ',' {} (bracketed items).toList = [(bracketed items).toList] := by
  have hinside : Scanner.Idle 1 (Scanner.run {} ['[']) := ⟨rfl, rfl, rfl⟩
  have hopen : 0 < (Scanner.run {} ['[']).depth := by
    rw [hinside.depth]
    decide
  have hbefore : Scanner.find? [','] ({} : Scanner) ['['] = none := rfl
  obtain ⟨hquiet, -⟩ :=
    neutral_listed h (by decide : Quoted.isSpecial '[' = true) (by decide) 1 _ hinside
  have hitems : (Scanner.run {} ['[']).find? [','] (listed items).toList = none :=
    Scanner.find?_eq_none_of_open hquiet hopen
  have hafter : ((Scanner.run {} ['[']).run (listed items).toList).find? [','] [']'] = none :=
    Scanner.find?_eq_none_of_not_mem _ (by simp)
  have htext : (bracketed items).toList = ['['] ++ ((listed items).toList ++ [']']) :=
    toList_bracketed items
  apply Scanner.cut_of_find?_eq_none
  rw [htext, Scanner.find?_append_of_eq_none hbefore, Scanner.find?_append_of_eq_none hitems,
    hafter]
  rfl

theorem rejoined_bracketed (h : ∀ item ∈ items, item.Fits) :
    Field.rejoined (bracketed items).toList = (bracketed items).toList := by
  have htight : Chars.Tight (bracketed items).toList := by
    have hopen : Chars.Tight ['['] := ⟨by decide, by decide⟩
    have hclose : Chars.Tight [']'] := ⟨by decide, by decide⟩
    rw [toList_bracketed]
    exact hopen.append hclose (by simp) (by simp) _
  rw [Field.rejoined, cut_bracketed h, Field.rejoin, htight.trim_eq]
  exact List.append_nil _

theorem loose_bracketed (h : ∀ item ∈ items, item.Fits) :
    ∀ piece ∈ (splitTopLevel ',' (bracketed items).toList).tail,
      findTopLevel? ['=', ':'] piece.text = none := by
  rw [splitTopLevel, cut_bracketed h]
  simp [Piece.located]

end ListItem

namespace Field

theorem plainKey_tags : PlainKey "tags" := ⟨by decide, by decide⟩

theorem parseAll_tags {value : String} (hline : '\n' ∉ value.toList)
    (hloose : ∀ piece ∈ (splitTopLevel ',' value.toList).tail,
      findTopLevel? ['=', ':'] piece.text = none) :
    parseAll ("tags = " ++ value) = ([⟨"tags", .ofChars (rejoined value.toList)⟩], []) := by
  have htext : "tags = " ++ value =
      String.ofList ("tags".toList ++ [' '] ++ ['=', ' '] ++ value.toList) := by
    rw [← String.toList_inj]
    simp
  rw [htext]
  exact parseAll_marked plainKey_tags ⟨by decide, by decide⟩ (by decide) hline hloose

variable {items : List ListItem}

/-- In brackets every item is read as what it says. -/
theorem parseAll_bracketed (h : ∀ item ∈ items, item.Fits) :
    parseAll ("tags = " ++ ListItem.bracketed items) =
      ([⟨"tags", .list (items.map ListItem.text)⟩], []) := by
  have hbreak : '\n' ∉ (ListItem.bracketed items).toList := by
    simp [ListItem.toList_bracketed, ListItem.not_mem_break_listed h]
  rw [parseAll_tags hbreak (ListItem.loose_bracketed h), ListItem.rejoined_bracketed h,
    ListItem.toList_bracketed, FieldValue.ofChars_brackets, ListItem.listItems_listed h]

/-- Without brackets a list is the value of its field as it stands. -/
theorem parseAll_listed (h : ∀ item ∈ items, item.Fits) (hne : items ≠ []) :
    parseAll ("tags = " ++ ListItem.listed items) =
      ([⟨"tags", .ofChars (ListItem.listed items).toList⟩], []) := by
  rw [parseAll_tags (ListItem.not_mem_break_listed h) (ListItem.loose_listed h),
    ListItem.rejoined_listed h hne]

theorem tags_ofFields (value : FieldValue) :
    (Metadata.ofFields [⟨"tags", value⟩]).tags = value.toItems := rfl

/-- Quoted items in brackets are kept as they are, whatever stands in them. -/
theorem tags_bracketed (texts : List String) (h : ∀ text ∈ texts, text ≠ "" ∧ '\n' ∉ text.toList) :
    parseAll ("tags = " ++ ListItem.bracketed (texts.map .quoted)) = ([⟨"tags", .list texts⟩], []) ∧
      (Metadata.ofFields
        (parseAll ("tags = " ++ ListItem.bracketed (texts.map .quoted))).1).tags = texts := by
  have hfits : ∀ item ∈ texts.map ListItem.quoted, item.Fits := by
    intro item hitem
    obtain ⟨text, htext, rfl⟩ := List.mem_map.1 hitem
    exact ⟨(h text htext).1, (h text htext).2, fun hplain => absurd hplain Bool.noConfusion⟩
  have hsame : (texts.map ListItem.quoted).map ListItem.text = texts := by
    rw [List.map_map]
    exact List.map_id texts
  have hparse := parseAll_bracketed hfits
  rw [hsame] at hparse
  rw [hparse]
  exact ⟨rfl, rfl⟩

/-- Items with commas, brackets, signs, quotes, backslashes and outer spaces. -/
theorem tags_bracketed_commas_and_quotes :
    (Metadata.ofFields (parseAll "tags = [\" a, [b\", \"k = v\", \"say \\\"x\\\" \\\\\"]").1).tags =
      [" a, [b", "k = v", "say \"x\" \\"] :=
  (tags_bracketed [" a, [b", "k = v", "say \"x\" \\"] (by decide)).2

/-- With and without brackets a list gives the same tags exactly if one of its ends is not
quoted. -/
theorem tags_listed_eq_bracketed_iff (h : ∀ item ∈ items, item.Fits) (hlength : 2 ≤ items.length) :
    parseAll ("tags = " ++ ListItem.listed items) =
        ([⟨"tags", .ofChars (ListItem.listed items).toList⟩], []) ∧
      (Metadata.ofFields (parseAll ("tags = " ++ ListItem.bracketed items)).1).tags =
        items.map ListItem.text ∧
      ((Metadata.ofFields (parseAll ("tags = " ++ ListItem.listed items)).1).tags =
          (Metadata.ofFields (parseAll ("tags = " ++ ListItem.bracketed items)).1).tags ↔
        ListItem.quotedAtEnds items = false) := by
  obtain ⟨first, rest, rfl⟩ := List.exists_cons_of_length_pos (by omega : 0 < items.length)
  have hrest : rest ≠ [] := by
    rintro rfl
    simp at hlength
  have hlisted := parseAll_listed h (List.cons_ne_nil first rest)
  have hbracketed := parseAll_bracketed h
  refine ⟨hlisted, by rw [hbracketed]; rfl, ?_⟩
  rw [hlisted, hbracketed, tags_ofFields, tags_ofFields]
  exact ListItem.toItems_listed_iff hrest h

/-- A list that ends with a plain item is the same with and without brackets. -/
theorem tags_listed_eq_bracketed_iff_plain :
    (Metadata.ofFields (parseAll "tags = \"a, b\", big cat").1).tags =
      (Metadata.ofFields (parseAll "tags = [\"a, b\", big cat]").1).tags := by
  have hfits : ∀ item ∈ [ListItem.quoted "a, b", .plain "big cat"], item.Fits := by
    rintro item (_ | ⟨_, _ | ⟨_, _ | _⟩⟩)
    · exact ⟨by decide, by decide, fun hplain => absurd hplain Bool.noConfusion⟩
    · exact ⟨by decide, by decide, fun _ => ⟨by decide, by simp [ListItem.text, Quoted.isSpecial]⟩⟩
  exact (tags_listed_eq_bracketed_iff hfits (by decide)).2.2.2 rfl

/-- Two quoted items without brackets become one tag. -/
theorem tags_listed_of_two_quoted :
    (Metadata.ofFields (parseAll "tags = \"a\", \"b\"").1).tags = ["a\", \"b"] ∧
      (Metadata.ofFields (parseAll "tags = [\"a\", \"b\"]").1).tags = ["a", "b"] ∧
      (Metadata.ofFields (parseAll "tags = \"a\", \"b\"").1).tags ≠
        (Metadata.ofFields (parseAll "tags = [\"a\", \"b\"]").1).tags := by
  have hbare : (Metadata.ofFields (parseAll "tags = \"a\", \"b\"").1).tags = ["a\", \"b"] := rfl
  have hbracketed :
      (Metadata.ofFields (parseAll "tags = [\"a\", \"b\"]").1).tags = ["a", "b"] := rfl
  refine ⟨hbare, hbracketed, ?_⟩
  rw [hbare, hbracketed]
  decide

end Field

end Worksheet
