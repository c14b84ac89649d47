import Worksheet.Proofs.Call.Arguments
import Worksheet.Proofs.Field.Verbatim

namespace Worksheet

namespace Decimal

/-- A literal has no commas. -/
theorem isLiteral_of_comma {cs : List Char} (h : ',' ∈ cs) : isLiteral cs = false := by
  have hdrop : ∀ unsigned : List Char, ',' ∈ unsigned →
      ',' ∈ unsigned.dropWhile Char.isDigit := by
    intro unsigned hmem
    rw [← List.takeWhile_append_dropWhile (p := Char.isDigit) (l := unsigned)] at hmem
    refine (List.mem_append.1 hmem).resolve_left fun htake => ?_
    have hdigit := List.all_eq_true.1 List.all_takeWhile _ htake
    cases hdigit
  have hfraction : ∀ fraction : List Char, ',' ∈ '.' :: fraction →
      (!fraction.isEmpty && fraction.all Char.isDigit) = false := by
    intro fraction hmem
    rw [Bool.and_eq_false_iff, List.all_eq_false]
    exact Or.inr ⟨',', by simpa using hmem, by decide⟩
  unfold isLiteral
  extract_lets unsigned
  have hmem : ',' ∈ unsigned.dropWhile Char.isDigit := by
    apply hdrop
    simp only [unsigned]
    split
    · simpa using h
    · exact h
  rw [Bool.and_eq_false_iff]
  right
  split
  · rename_i hnil
    rw [hnil] at hmem
    cases hmem
  · rename_i fraction hpoint
    rw [hpoint] at hmem
    exact hfraction fraction hmem
  · rfl

end Decimal

namespace Quoted

variable {c : Char}

theorem count_escape (hc : c ≠ '\\') (cs : List Char) : (escape cs).count c = cs.count c := by
  induction cs with
  | nil => rfl
  | cons d cs ih =>
    rw [escape]
    split
    · rw [List.count_cons_of_ne (Ne.symm hc), List.count_cons, List.count_cons, ih]
    · rw [List.count_cons, List.count_cons, ih]

theorem count_unescape (hc : c ≠ '\\') (cs : List Char) : (unescape cs).count c = cs.count c := by
  fun_induction unescape cs with
  | case1 => rfl
  | case2 => rfl
  | case3 d cs ih => rw [List.count_cons_of_ne (Ne.symm hc), List.count_cons, List.count_cons, ih]
  | case4 d cs _ _ ih => rw [List.count_cons, List.count_cons, ih]

theorem unescape_escape_append (cs rest : List Char) :
    unescape (escape cs ++ rest) = cs ++ unescape rest := by
  induction cs with
  | nil => rfl
  | cons d cs ih =>
    rw [escape]
    split
    · rw [List.cons_append, List.cons_append, unescape, ih, List.cons_append]
    · rename_i hplain
      have hslash : d ≠ '\\' := by
        rintro rfl
        exact hplain (by decide)
      rw [List.cons_append, unescape, ih, List.cons_append]
      · intro h
        exact absurd h hslash
      · intro _ _ h
        exact absurd h hslash

/-- The text that a piece stands for. -/
def plainText (cs : List Char) : List Char :=
  (decode? cs).getD cs

/-- A quoted text has a quote at both of its ends, and is read without its escapes between them. -/
theorem exists_of_decode? {cs text : List Char} (h : decode? cs = some text) :
    ∃ quote raw, Chars.trim cs = quote :: (raw ++ [quote]) ∧ text = unescape raw ∧
      (quote = '"' ∨ quote = '\'') := by
  rw [decode?] at h
  split at h
  · cases h
  · rename_i quote rest htrim
    split at h
    · rename_i hquote
      obtain ⟨raw, hraw, rfl⟩ := Option.map_eq_some_iff.1 h
      refine ⟨quote, raw, by rw [htrim, Chars.append_of_stripLast? hraw], rfl, ?_⟩
      simpa using hquote
    · cases h

/-- No comma is lost where a piece is read. -/
theorem count_plainText_trim (raw : List Char) :
    (plainText (Chars.trim raw)).count ',' = raw.count ',' := by
  rw [← Chars.count_trim (by decide) raw, plainText]
  cases hdecode : decode? (Chars.trim raw) with
  | none => rfl
  | some text =>
    obtain ⟨quote, inner, htrim, rfl, hquote⟩ := exists_of_decode? hdecode
    have hcomma : quote ≠ ',' := by
      rcases hquote with rfl | rfl <;> decide
    rw [Chars.trim_trim] at htrim
    rw [Option.getD_some, htrim, count_unescape (by decide), List.count_cons_of_ne hcomma,
      List.count_append, List.count_singleton, if_neg (by simpa using hcomma), Nat.add_zero]

/-- No piece stands for itself without a quote at its end. -/
theorem plainText_trim_ne (cs : List Char) : plainText (Chars.trim (cs ++ ['"'])) ≠ cs := by
  intro heq
  rw [plainText] at heq
  cases hdecode : decode? (Chars.trim (cs ++ ['"'])) with
  | none =>
    rw [hdecode, Option.getD_none] at heq
    have hcount := Chars.count_trim (d := '"') (by decide) (cs ++ ['"'])
    rw [heq, List.count_append, List.count_singleton_self] at hcount
    omega
  | some text =>
    obtain ⟨quote, raw, htrim, rfl, -⟩ := exists_of_decode? hdecode
    rw [hdecode, Option.getD_some] at heq
    have htext : (unescape raw).length ≤ raw.length := (unescape_sublist raw).length_le
    have hpiece : (Chars.trim (cs ++ ['"'])).length ≤ (cs ++ ['"']).length :=
      (Chars.trim_isInfix _).sublist.length_le
    rw [Chars.trim_trim] at htrim
    rw [htrim, heq.symm] at hpiece
    simp only [List.length_cons, List.length_append, List.length_nil] at hpiece
    omega

/-- A piece that ends at the comma behind a quote does not stand for what is before the quote. -/
theorem plainText_trim_ne_of_append {text piece tail rest : List Char}
    (h : text ++ '"' :: ',' :: tail = piece ++ ',' :: rest) :
    plainText (Chars.trim piece) ≠ text := by
  intro heq
  have hcount : text.count ',' = piece.count ',' := by
    rw [← heq, count_plainText_trim]
  rcases List.append_eq_append_iff.1 h with ⟨more, rfl, hmore⟩ | ⟨more, rfl, hmore⟩
  · cases more with
    | nil => simp at hmore
    | cons c more =>
      obtain ⟨rfl, hbehind⟩ := List.cons.inj hmore
      cases more with
      | nil => exact plainText_trim_ne text heq
      | cons d more =>
        obtain ⟨rfl, -⟩ := List.cons.inj hbehind
        simp [List.count_append] at hcount
  · cases more with
    | nil => simp at hmore
    | cons c more =>
      obtain ⟨rfl, -⟩ := List.cons.inj hmore
      simp [List.count_append] at hcount

end Quoted

open Quoted (plainText)

theorem listItems_eq_plainText (cs : List Char) : listItems cs =
    ((((Scanner.cut ',' {} cs).map fun raw => plainText (Chars.trim raw)).filter
      (!·.isEmpty)).map String.ofList) := by
  have hpieces : (splitTopLevel ',' cs).map (fun piece => plainText piece.text) =
      (Scanner.cut ',' {} cs).map fun raw => plainText (Chars.trim raw) := by
    have htexts := congrArg (List.map plainText) (map_text_splitTopLevel ',' cs)
    rwa [List.map_map, List.map_map] at htexts
  rw [listItems, ← hpieces]
  rfl

/-- Where the commas leave room for no more pieces than items, no piece is dropped. -/
theorem map_plainText_cut (cs : List Char) (hcount : cs.count ',' + 1 =
      ((listItems cs).map String.toList).flatten.count ',' + (listItems cs).length) :
    (Scanner.cut ',' {} cs).map (fun raw => plainText (Chars.trim raw)) =
      (listItems cs).map String.toList := by
  have hread : (listItems cs).map String.toList =
      ((Scanner.cut ',' {} cs).map fun raw => plainText (Chars.trim raw)).filter (!·.isEmpty) := by
    rw [listItems_eq_plainText, List.map_map]
    exact (List.map_congr_left fun text _ => String.toList_ofList).trans (List.map_id _)
  have hjoin : cs.count ',' + 1 = (Scanner.cut ',' {} cs).flatten.count ',' +
      (Scanner.cut ',' {} cs).length := by
    have hself := Chars.count_join_self (by simp : ',' ∉ ([] : List Char))
      (Scanner.cut_ne_nil ',' {} cs)
    rwa [Scanner.join_cut] at hself
  have hkept :
      ((Scanner.cut ',' {} cs).map fun raw => plainText (Chars.trim raw)).flatten.count ',' =
        (Scanner.cut ',' {} cs).flatten.count ',' := by
    rw [List.count_flatten, List.count_flatten, List.map_map]
    exact congrArg List.sum (List.map_congr_left fun raw _ => Quoted.count_plainText_trim raw)
  have hlength : (listItems cs).length =
      ((Scanner.cut ',' {} cs).map fun raw => plainText (Chars.trim raw)).length := by
    rw [hread, List.flatten_filter_not_isEmpty, hkept] at hcount
    rw [List.length_map]
    omega
  rw [hread, eq_comm, List.filter_eq_self, ← List.length_filter_eq_length_iff, ← hread,
    List.length_map, hlength]

namespace FieldValue

theorem ofChars_of_decode? {cs text : List Char} (h : Quoted.decode? (Chars.trim cs) = some text) :
    ofChars cs = .text (String.ofList text) := by
  rw [ofChars]
  simp only [h]

/-- A text in square brackets is a list. -/
theorem ofChars_brackets (inner : List Char) :
    ofChars ('[' :: (inner ++ [']'])) = .list (listItems inner) := by
  have htight : Chars.Tight ('[' :: (inner ++ [']'])) := by
    have hopen : Chars.Tight ['['] := ⟨by decide, by decide⟩
    exact hopen.append ⟨by decide, by decide⟩ (by simp) (by simp) inner
  have hquoted : Quoted.decode? ('[' :: (inner ++ [']'])) = none := by
    rw [Quoted.decode?, htight.trim_eq]
    rfl
  have hliteral : Decimal.isLiteral ('[' :: (inner ++ [']'])) = false := rfl
  have hne : ∀ word : String, word.toList.head? ≠ some '[' →
      (Text.asciiLower (String.ofList ('[' :: (inner ++ [']']))) == word) = false := by
    intro word hword
    rw [beq_eq_false_iff_ne]
    rintro rfl
    exact hword (by simp [Text.asciiLower])
  have hlast : Chars.stripLast? ']' (inner ++ [']']) = some inner :=
    Chars.stripLast?_append ']' inner
  rw [ofChars, htight.trim_eq]
  simp only [hquoted, hliteral, hne "true" (by decide), hne "false" (by decide),
    Bool.false_eq_true, if_false, hlast]

/-- A text with commas that is neither in quotes nor in brackets is a text. -/
theorem ofChars_of_comma {cs : List Char} (htight : Chars.Tight cs) (hcomma : ',' ∈ cs)
    (hquoted : Quoted.decode? cs = none) (hbracket : cs.head? ≠ some '[') :
    ofChars cs = .text (String.ofList cs) := by
  have hne : ∀ word : String, ',' ∉ word.toList →
      (Text.asciiLower (String.ofList cs) == word) = false := by
    intro word hword
    rw [beq_eq_false_iff_ne]
    rintro rfl
    refine hword ?_
    rw [Text.asciiLower, String.toList_ofList, String.toList_ofList]
    exact List.mem_map.2 ⟨',', hcomma, by decide⟩
  rw [ofChars, htight.trim_eq]
  simp only [hquoted, Decimal.isLiteral_of_comma hcomma, hne "true" (by decide),
    hne "false" (by decide), Bool.false_eq_true, if_false]
  split
  · exact absurd rfl hbracket
  · rfl

end FieldValue

end Worksheet
