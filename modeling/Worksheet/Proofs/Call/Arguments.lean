import Worksheet.Call.Definition
import Worksheet.Proofs.Call.Scanner
import Worksheet.Proofs.Chars.Pieces
import Worksheet.Proofs.Results

namespace Worksheet

namespace Quoted

/-- A text that is an argument as it stands. -/
structure Bare (cs : List Char) : Prop where
  ne_nil : cs ≠ []
  trim_eq : Chars.trim cs = cs
  not_special : ∀ c ∈ cs, isSpecial c = false
  ne_true : cs.map Char.toLower ≠ "true".toList
  ne_false : cs.map Char.toLower ≠ "false".toList
  no_number : Decimal.read? cs = none

theorem bare_of_not_needsQuotes {cs : List Char} (h : needsQuotes cs = false) : Bare cs := by
  simp only [needsQuotes, Bool.or_eq_false_iff] at h
  obtain ⟨⟨⟨⟨⟨hne, htrim⟩, hspecial⟩, htrue⟩, hfalse⟩, hnumber⟩ := h
  refine ⟨by simpa using hne, by simpa using htrim, ?_, by simpa using htrue, by simpa using hfalse,
    by simpa using hnumber⟩
  intro c hc
  rw [List.any_eq_false] at hspecial
  simpa using hspecial c hc

theorem Bare.ne_of_mem {cs : List Char} (h : Bare cs) {c d : Char} (hc : c ∈ cs)
    (hd : isSpecial d = true) : c ≠ d := by
  rintro rfl
  exact absurd hd (by simp [h.not_special c hc])

/-- Every text is written in quotes or as it stands. -/
theorem encode_cases (cs : List Char) :
    encode cs = '"' :: escape cs ++ ['"'] ∨ Bare cs ∧ encode cs = cs := by
  rw [encode]
  cases hq : needsQuotes cs with
  | true => exact Or.inl rfl
  | false => exact Or.inr ⟨bare_of_not_needsQuotes hq, rfl⟩

theorem tight_quoted (cs : List Char) : Chars.Tight ('"' :: escape cs ++ ['"']) := by
  have hquote : Chars.Tight ['"'] := ⟨by decide, by decide⟩
  exact hquote.append hquote (by simp) (by simp) (escape cs)

theorem tight_encode (cs : List Char) : Chars.Tight (encode cs) := by
  rcases encode_cases cs with hq | ⟨hbare, he⟩
  · rw [hq]
    exact tight_quoted cs
  · rw [he, ← hbare.trim_eq]
    exact Chars.tight_trim cs

theorem encode_ne_nil (cs : List Char) : encode cs ≠ [] := by
  rcases encode_cases cs with hq | ⟨hbare, he⟩
  · simp [hq]
  · rw [he]
    exact hbare.ne_nil

theorem neutral_encode {sep : Char} (hsep : isSpecial sep = true) (cs : List Char) :
    Scanner.Neutral sep (encode cs) := by
  rcases encode_cases cs with hq | ⟨hbare, he⟩
  · rw [hq]
    exact Scanner.neutral_quoted cs
  · rw [he]
    exact Scanner.neutral_of_not_special hsep hbare.not_special

theorem decode?_quoted (cs : List Char) : decode? ('"' :: escape cs ++ ['"']) = some cs := by
  have hlast : Chars.stripLast? '"' (escape cs ++ ['"']) = some (escape cs) :=
    Chars.stripLast?_append '"' (escape cs)
  rw [decode?, (tight_quoted cs).trim_eq, List.cons_append]
  simp [hlast, unescape_escape]

theorem Bare.decode?_eq_none {cs : List Char} (h : Bare cs) : decode? cs = none := by
  rw [decode?, h.trim_eq]
  cases cs with
  | nil => rfl
  | cons c rest =>
    have hdouble : c ≠ '"' := h.ne_of_mem (by simp) (by decide)
    have hsingle : c ≠ '\'' := h.ne_of_mem (by simp) (by decide)
    simp [hdouble, hsingle]

end Quoted

namespace Param

open Quoted (encode escape Bare)

theorem ofBare_of_bare {cs : List Char} (h : Bare cs) : ofBare cs = .text (String.ofList cs) := by
  have htrue : (Text.asciiLower (String.ofList cs) == "true") = false := by
    have hne := h.ne_true
    rw [beq_eq_false_iff_ne, ne_eq, ← String.toList_inj]
    simpa [Text.asciiLower] using hne
  have hfalse : (Text.asciiLower (String.ofList cs) == "false") = false := by
    have hne := h.ne_false
    rw [beq_eq_false_iff_ne, ne_eq, ← String.toList_inj]
    simpa [Text.asciiLower] using hne
  simp only [ofBare, htrue, hfalse, Bool.false_eq_true, if_false, h.no_number, ite_self]

theorem enclosed?_of_bare {cs : List Char} (h : Bare cs) {left right : Char}
    (hleft : Quoted.isSpecial left = true) : enclosed? left right cs = none := by
  cases cs with
  | nil => rfl
  | cons c rest =>
    have hne : c ≠ left := h.ne_of_mem (by simp) hleft
    simp [enclosed?, hne]

/-- A written text is read as that text, however deep it is nested. -/
theorem readWithin_encode (n : Nat) (cs : List Char) :
    readWithin (n + 1) (encode cs) = .ok (.text (String.ofList cs)) := by
  rw [readWithin, (Quoted.tight_encode cs).trim_eq]
  rcases Quoted.encode_cases cs with hq | ⟨hbare, he⟩
  · rw [hq, Quoted.decode?_quoted]
  · have hat : (cs.head? == some '@') = false := by
      cases cs with
      | nil => rfl
      | cons c rest =>
        have hne : c ≠ '@' := hbare.ne_of_mem (by simp) (by decide)
        simp [hne]
    have hlist : enclosed? '[' ']' cs = none := enclosed?_of_bare hbare (by decide)
    have hobject : enclosed? '\x7b' '\x7d' cs = none := enclosed?_of_bare hbare (by decide)
    rw [he, hbare.decode?_eq_none]
    simp only [hat, Bool.false_eq_true, if_false, hlist, hobject, ofBare_of_bare hbare]

theorem read_encode (cs : List Char) : read (encode cs) = .ok (.text (String.ofList cs)) :=
  readWithin_encode maxNesting cs

end Param

namespace Argument

open Quoted (encode escape Bare)

/-- The argument that a text is read as. -/
def ofText (cs : List Char) : Argument Param :=
  ⟨none, .text (String.ofList cs)⟩

/-- An argument without an identifier in front, or without an equals sign, has no name. -/
theorem read_of_no_name {param : List Char → Except CallError Param} {cs : List Char}
    (h : cs.takeWhile Text.isIdentChar = [] ∨ '=' ∉ cs) :
    Argument.read param cs = (param cs).map fun v => ⟨none, v⟩ := by
  have hequals : '=' ∉ cs → '=' ∉ Chars.trimStart (cs.dropWhile Text.isIdentChar) := by
    intro hcs hm
    exact hcs ((List.dropWhile_suffix _).subset ((List.dropWhile_suffix _).subset hm))
  rw [Argument.read]
  split
  · rename_i value hvalue
    exfalso
    split at hvalue
    · rename_i hname
      rcases h with hnil | hcs
      · simp [hnil] at hname
      · split at hvalue
        · cases hvalue
        · rename_i tail htrim
          exact hequals hcs (by simp [htrim])
        · cases hvalue
    · cases hvalue
  · rfl

theorem read_encode (cs : List Char) : Argument.read Param.read (encode cs) = .ok (ofText cs) := by
  have hname : (encode cs).takeWhile Text.isIdentChar = [] ∨ '=' ∉ encode cs := by
    rcases Quoted.encode_cases cs with hq | ⟨hbare, he⟩
    · have hquote : Text.isIdentChar '"' = false := by decide
      left
      rw [hq, List.cons_append, List.takeWhile_cons, hquote]
      rfl
    · right
      rw [he]
      intro hm
      exact hbare.ne_of_mem hm (by decide : Quoted.isSpecial '=' = true) rfl
  rw [read_of_no_name hname, Param.read_encode]
  rfl

/-- Texts as the arguments of a call. -/
def written (texts : List (List Char)) : List Char :=
  Chars.join [',', ' '] (texts.map encode)

theorem tight_written (texts : List (List Char)) : Chars.Tight (written texts) := by
  apply Chars.tight_join
  intro t ht
  obtain ⟨cs, -, rfl⟩ := List.mem_map.1 ht
  exact ⟨Quoted.tight_encode cs, Quoted.encode_ne_nil cs⟩

theorem written_ne_nil {texts : List (List Char)} (h : texts ≠ []) : written texts ≠ [] := by
  apply Chars.join_ne_nil (by simpa using h)
  intro t ht
  obtain ⟨cs, -, rfl⟩ := List.mem_map.1 ht
  exact Quoted.encode_ne_nil cs

theorem mapM_located_of_ok {α : Type} {read : List Char → Except CallError α}
    {place : Piece → Nat} {sep : Char} {raws : List (List Char)} {values : List α}
    (h : List.Forall₂ (fun raw v => read (Chars.trim raw) = .ok v) raws values) (start : Nat) :
    (Piece.located sep start raws).mapM (fun piece => shiftError (place piece) (read piece.text)) =
      .ok values := by
  induction h generalizing start with
  | nil => rfl
  | @cons raw v raws values hv _ ih =>
    have hfirst : (fun piece : Piece => shiftError (place piece) (read piece.text))
        (Piece.trimmed start raw) = .ok v := by
      simp only [Piece.trimmed, hv]
      rfl
    have hrest := ih (start + Chars.size raw + sep.utf8Size)
    rw [Piece.located, mapM_cons_of_ok (f := fun piece : Piece => shiftError (place piece)
      (read piece.text)) hfirst, hrest]
    rfl

/-- Written texts are read as these texts. -/
theorem readAll_written (texts : List (List Char)) :
    readAll Param.read (written texts) = .ok (texts.map ofText) := by
  cases texts with
  | nil => rfl
  | cons text rest =>
    have hblank : (written (text :: rest)).all Chars.isBlank = false := by
      rw [Bool.eq_false_iff, ne_eq, ← Chars.trim_eq_nil_iff, (tight_written _).trim_eq]
      exact written_ne_nil (by simp)
    have hcut : Scanner.cut ',' {} (written (text :: rest)) =
        encode text :: (rest.map encode).map (' ' :: ·) := by
      apply Scanner.cut_join_of_neutral (Scanner.idle_start 0)
      · exact Quoted.neutral_encode (by decide) text
      · intro t ht
        obtain ⟨cs, -, rfl⟩ := List.mem_map.1 ht
        exact Quoted.neutral_encode (by decide) cs
    rw [readAll, hblank, if_neg (by simp), splitTopLevel, hcut]
    apply mapM_located_of_ok
    refine .cons ?_ ?_
    · rw [(Quoted.tight_encode text).trim_eq, read_encode]
    · rw [List.map_map, List.forall₂_map_left_iff, List.forall₂_map_right_iff, List.forall₂_same]
      intro cs _
      rw [Function.comp_apply, Chars.trim_cons_of_isBlank _ (by decide),
        (Quoted.tight_encode cs).trim_eq, read_encode]

end Argument

namespace CallStyle

open Argument (written)

/-- A call of written texts. -/
def call (name : List Char) (texts : List (List Char)) : List Char :=
  name ++ '(' :: (written texts ++ [')'])

theorem named?_of_isIdentifier {name : List Char} (h : isIdentifier name = true)
    (rest : List Char) : named? (name ++ '(' :: rest) = some (name, rest) := by
  simp only [isIdentifier, Bool.and_eq_true, List.all_eq_true] at h
  obtain ⟨hhead, hall⟩ := h
  have hparen : Text.isIdentChar '(' = false := by decide
  have htake : (name ++ '(' :: rest).takeWhile Text.isIdentChar = name := by
    rw [List.takeWhile_append_of_pos hall, List.takeWhile_cons, hparen]
    simp
  have hdrop : (name ++ '(' :: rest).dropWhile Text.isIdentChar = '(' :: rest := by
    rw [List.dropWhile_append_of_pos hall, List.dropWhile_cons, hparen]
    simp
  rw [named?, htake, hdrop]
  cases name with
  | nil => cases hhead
  | cons c cs =>
    have hc : Text.isIdentStart c = true := by simpa using hhead
    simp [hc]

theorem scan_nil (style : CallStyle) (prev : Option Char) (start : Nat) :
    scan style prev start [] = .ok ⟨[], []⟩ := by
  rw [scan.eq_def]

/-- A character at which no call begins is passed over. -/
theorem scan_cons_of_none {style : CallStyle} {prev : Option Char} {start : Nat} {c : Char}
    {rest : List Char} (h : style.opening? prev (c :: rest) = none) :
    style.scan prev start (c :: rest) =
      (style.scan (some c) (start + c.utf8Size) rest).map (·.push c) := by
  rw [scan]
  split
  · rfl
  · rename_i hopen
    rw [h] at hopen
    cases hopen

/-- A call that is closed is taken out, and the scan goes on after it. -/
theorem scan_of_opening {style : CallStyle} {prev : Option Char} {start : Nat}
    {cs name tail inner after : List Char} (hopen : style.opening? prev cs = some (name, tail))
    (hclose : Scanner.close? { depth := 1 } tail = some (inner, after)) :
    style.scan prev start cs =
      (style.scan (some ')') (RawCall.span ⟨name, start, style.head name, inner⟩).stop after).map
        (·.pushCall ⟨name, start, style.head name, inner⟩) := by
  have hne : cs ≠ [] := by
    rintro rfl
    cases style <;> simp [opening?, named?] at hopen
  obtain ⟨c, rest, rfl⟩ := List.exists_cons_of_ne_nil hne
  rw [scan]
  split
  · rename_i hnone
    rw [hopen] at hnone
    cases hnone
  · rename_i found more hfound
    rw [hopen] at hfound
    obtain ⟨rfl, rfl⟩ := Prod.mk.inj (Option.some.inj hfound)
    split
    · rename_i hnone
      rw [hclose] at hnone
      cases hnone
    · rename_i within next hsome
      rw [hclose] at hsome
      obtain ⟨rfl, rfl⟩ := Prod.mk.inj (Option.some.inj hsome)
      rfl

/-- The parenthesis after written texts closes their call. -/
theorem close?_written (texts : List (List Char)) (after : List Char) :
    Scanner.close? { depth := 1 } (written texts ++ ')' :: after) =
      some (written texts, after) := by
  have hneutral : Scanner.Neutral '|' (written texts) := by
    apply Scanner.neutral_join
    · apply Scanner.neutral_of_forall
      intro c hc
      simp only [List.mem_cons, List.not_mem_nil, or_false] at hc
      rcases hc with rfl | rfl
      · exact Scanner.neutral_singleton (by decide) (by decide) (by decide) (by decide) (by decide)
      · exact Scanner.neutral_singleton (by decide) (by decide) (by decide) (by decide) (by decide)
    · intro t ht
      obtain ⟨cs, -, rfl⟩ := List.mem_map.1 ht
      exact Quoted.neutral_encode (by decide) cs
  exact Scanner.close?_of_neutral (Scanner.idle_start 1) hneutral after

/-- A call of written texts is all that the scan for its name finds. -/
theorem scan_call {name : List Char} (h : isIdentifier name = true) (texts : List (List Char)) :
    scan (.bare [String.ofList name]) none 0 (call name texts) =
      .ok ⟨[], [(⟨name, 0, name ++ ['('], written texts⟩, [])]⟩ := by
  have hopen : opening? (.bare [String.ofList name]) none (call name texts) =
      some (name, written texts ++ [')']) := by
    have hname := named?_of_isIdentifier h (written texts ++ [')'])
    simp [opening?, call, hname, Text.eqIgnoringCase]
  rw [scan_of_opening hopen (close?_written texts []), scan_nil]
  rfl

end CallStyle

/-- A call of written texts is read as one call with these texts as its arguments. -/
theorem Call.findBare_call {name : List Char} (h : isIdentifier name = true)
    (texts : List (List Char)) :
    Call.findBare [String.ofList name] (String.ofList (CallStyle.call name texts)) =
      .ok [⟨String.ofList name, texts.map Argument.ofText,
        ⟨0, Chars.size (CallStyle.call name texts)⟩,
        String.ofList (CallStyle.call name texts)⟩] := by
  let raw : RawCall := ⟨name, 0, name ++ ['('], Argument.written texts⟩
  have hsource : raw.source = CallStyle.call name texts := by
    simp [raw, RawCall.source, CallStyle.call]
  have hread : raw.read Param.read = .ok ⟨String.ofList name, texts.map Argument.ofText,
      ⟨0, Chars.size (CallStyle.call name texts)⟩, String.ofList (CallStyle.call name texts)⟩ := by
    have harguments : Argument.readAll Param.read raw.inner = .ok (texts.map Argument.ofText) :=
      Argument.readAll_written texts
    have hspan : raw.span = ⟨0, Chars.size (CallStyle.call name texts)⟩ := by
      rw [RawCall.span, hsource, Nat.zero_add]
    rw [RawCall.read, harguments, hspan, hsource]
    rfl
  have hscan : CallStyle.scan (.bare [String.ofList name]) none 0 (CallStyle.call name texts) =
      .ok ⟨[], [(raw, [])]⟩ := CallStyle.scan_call h texts
  rw [findBare, segmentWith, String.toList_ofList, hscan]
  simp only [bind, Except.bind, List.mapM_cons, List.mapM_nil, hread, Except.map, pure, Except.pure,
    List.map_cons, List.map_nil]

/-- A name and texts, each written as an argument, in parentheses and with commas between them. -/
def Call.written (name : String) (texts : List String) : String :=
  name ++ "(" ++ Text.join ", " (texts.map Quoted.ofText) ++ ")"

theorem Call.toList_written (name : String) (texts : List String) :
    (written name texts).toList = CallStyle.call name.toList (texts.map String.toList) := by
  have harguments : (Text.join ", " (texts.map Quoted.ofText)).toList =
      Argument.written (texts.map String.toList) := by
    simp [Text.join, Argument.written, Quoted.ofText, Function.comp_def]
  rw [written, String.toList_append, String.toList_append, String.toList_append, harguments]
  simp [CallStyle.call]

theorem Call.findBare_written {name : String} (h : isIdentifier name.toList = true)
    (texts : List String) :
    findBare [name] (written name texts) =
      .ok [⟨name, texts.map fun a => ⟨none, .text a⟩, ⟨0, Text.size (written name texts)⟩,
        written name texts⟩] := by
  have hfound := findBare_call h (texts.map String.toList)
  have harguments : (texts.map String.toList).map Argument.ofText =
      texts.map fun a => ⟨none, .text a⟩ := by
    simp [Argument.ofText, Function.comp_def]
  rw [← toList_written, harguments, String.ofList_toList, String.ofList_toList] at hfound
  exact hfound

/-- Texts that would be read as something else without quotes, and one that would not. -/
theorem Call.findBare_written_quoted :
    isIdentifier "pick_2".toList = true ∧
      let texts := ["a, b", "don't", "", "True", "42", "x = y", "\\", "say \"hi\"", "@f(x", "plain"]
      let line := "pick_2(\"a, b\", \"don't\", \"\", \"True\", \"42\", \"x = y\", \\, " ++
        "\"say \\\"hi\\\"\", \"@f(x\", plain)"
      findBare ["pick_2"] line =
        .ok [⟨"pick_2", texts.map fun a => ⟨none, .text a⟩, ⟨0, Text.size line⟩, line⟩] := by
  have hname : isIdentifier "pick_2".toList = true := by decide
  refine ⟨hname, ?_⟩
  intro texts line
  have hline : line = written "pick_2" texts := by decide +kernel
  rw [hline]
  exact findBare_written hname texts

end Worksheet
