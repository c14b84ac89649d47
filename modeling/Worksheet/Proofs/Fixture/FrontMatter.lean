import Mathlib.Data.List.TakeWhile
import Worksheet.Fixture.Basic
import Worksheet.Proofs.Chars.Split

namespace Worksheet.FrontMatter

/-- The text of settings and a body, with dashes before and after the settings. -/
def framed (settings : List String) (body : String) : String :=
  "---\n" ++ String.join (settings.map (· ++ "\n")) ++ "---\n" ++ body

/-- A line that is not taken for the closing dashes. -/
structure IsSetting (line : String) : Prop where
  noBreak : '\n' ∉ line.toList
  noReturn : '\r' ∉ line.toList
  noDashes : Text.startsWith line "---" = false

section Dashes

variable {line rest after : List Char}

theorem splitAtDashes_append (h : '\n' ∉ line) (rest : List Char) :
    splitAtDashes (line ++ rest) =
      (splitAtDashes rest).map fun (before, after) => (line ++ before, after) := by
  induction line with
  | nil => simp
  | cons c line ih =>
    obtain ⟨hc, hline⟩ : '\n' ≠ c ∧ '\n' ∉ line := by simpa using h
    have hskip : splitAtDashes (c :: (line ++ rest)) = (splitAtDashes (line ++ rest)).map
        fun (before, after) => (c :: before, after) := by
      rw [splitAtDashes]
      rintro _ rfl
      exact absurd rfl hc
    rw [List.cons_append, hskip, ih hline, Option.map_map]
    rfl

theorem splitAtDashes_break (h : ¬ "---".toList <+: rest) :
    splitAtDashes ('\n' :: rest) =
      (splitAtDashes rest).map fun (before, after) => ('\n' :: before, after) := by
  rw [splitAtDashes]
  rintro after - rfl
  exact h ⟨after, rfl⟩

/-- The line break behind a line is none of the dashes. -/
theorem isPrefix_of_isPrefix_break (h : "---".toList <+: line ++ '\n' :: rest) :
    "---".toList <+: line := by
  rcases List.prefix_or_prefix_of_prefix h (List.prefix_append line _) with hline | ⟨more, hmore⟩
  · exact hline
  · cases more with
    | nil => exact ⟨[], by rw [← hmore, List.append_nil, List.append_nil]⟩
    | cons c more =>
      rw [← hmore, List.prefix_append_right_inj, List.cons_prefix_cons] at h
      have hc : c ∈ "---".toList := by simp [← hmore]
      rw [h.1] at hc
      exact absurd hc (by decide)

/-- The dashes that are found are those behind the last of some lines that do not begin with dashes
themselves. The first line may, for there is no line break before it. -/
theorem splitAtDashes_lines {first : List Char} {others : List (List Char)}
    (hfirst : '\n' ∉ first) (hothers : ∀ line ∈ others, '\n' ∉ line ∧ ¬ "---".toList <+: line)
    (after : List Char) :
    splitAtDashes ((first :: others).flatMap (· ++ ['\n']) ++ '-' :: '-' :: '-' :: after) =
      some (Chars.join ['\n'] (first :: others), after) := by
  induction others generalizing first with
  | nil =>
    have hdashes : splitAtDashes ('\n' :: '-' :: '-' :: '-' :: after) = some ([], after) := rfl
    rw [List.flatMap_singleton, List.append_assoc, splitAtDashes_append hfirst]
    show (splitAtDashes ('\n' :: '-' :: '-' :: '-' :: after)).map _ = _
    rw [hdashes]
    simp [Chars.join]
  | cons next others ih =>
    obtain ⟨⟨hnext, hdashes⟩, hrest⟩ := List.forall_mem_cons.1 hothers
    have htext : (first :: next :: others).flatMap (· ++ ['\n']) ++ '-' :: '-' :: '-' :: after =
        first ++ '\n' ::
          ((next :: others).flatMap (· ++ ['\n']) ++ '-' :: '-' :: '-' :: after) := by
      simp
    have hbreak : ¬ "---".toList <+:
        (next :: others).flatMap (· ++ ['\n']) ++ '-' :: '-' :: '-' :: after := by
      intro h
      rw [List.flatMap_cons, List.append_assoc, List.append_assoc] at h
      exact hdashes (isPrefix_of_isPrefix_break h)
    rw [htext, splitAtDashes_append hfirst, splitAtDashes_break hbreak, ih hnext hrest,
      Chars.join_cons_cons]
    simp

/-- A first line of dashes is not found, and it stands in front of whatever else is. -/
theorem splitAtDashes_dash (rest : List Char) : splitAtDashes ('-' :: rest) =
    (splitAtDashes rest).map fun (before, after) => ('-' :: before, after) := by
  rw [splitAtDashes]
  rintro _ ⟨⟩

end Dashes

theorem dropReturns_eq_self {cs : List Char} (h : '\r' ∉ cs) : dropReturns cs = cs := by
  have hkept : cs.reverse.dropWhile (· == '\r') = cs.reverse := by
    rw [List.dropWhile_eq_self_iff]
    intro hlen hreturn
    have hmem : cs.reverse[0] ∈ cs := List.mem_reverse.1 (List.getElem_mem hlen)
    rw [eq_of_beq hreturn] at hmem
    exact h hmem
  rw [dropReturns, hkept, List.reverse_reverse]

/-- Only carriage returns are dropped. -/
theorem dropReturns_dash_ne_nil (cs : List Char) : dropReturns ('-' :: cs) ≠ [] := by
  intro h
  rw [dropReturns, List.reverse_eq_nil_iff, List.dropWhile_eq_nil_iff] at h
  have hdash := h '-' (List.mem_reverse.2 List.mem_cons_self)
  cases hdash

/-- What is looked for behind the opening dashes and their line break. -/
theorem split_framed (settings : List String) (body : String) :
    split (framed settings body) =
      match splitAtDashes (settings.flatMap (fun line => line.toList ++ ['\n']) ++
        '-' :: '-' :: '-' :: '\n' :: body.toList) with
      | none => .error .missingClosing
      | some (before, after) =>
        .ok ⟨String.ofList (dropReturns before), String.ofList (dropBreak after)⟩ := by
  have hdashes : "---\n".toList = ['-', '-', '-', '\n'] := rfl
  have hbreak : "\n".toList = ['\n'] := rfl
  have htext : (framed settings body).toList = '-' :: '-' :: '-' :: '\n' ::
      (settings.flatMap (fun line => line.toList ++ ['\n']) ++
        '-' :: '-' :: '-' :: '\n' :: body.toList) := by
    simp only [framed, String.toList_append, String.toList_join, List.flatMap_map, hdashes, hbreak,
      List.append_assoc, List.cons_append, List.nil_append]
  rw [split, htext, List.dropWhile_cons_of_neg (by decide)]
  rfl

theorem split_framed_of_ne_nil {settings : List String} (hne : settings ≠ [])
    (h : ∀ line ∈ settings, IsSetting line) (body : String) :
    split (framed settings body) = .ok ⟨Text.join "\n" settings, body⟩ := by
  obtain ⟨first, others, rfl⟩ := List.exists_cons_of_ne_nil hne
  obtain ⟨hfirst, hothers⟩ := List.forall_mem_cons.1 h
  have hlines : ∀ line ∈ others.map String.toList, '\n' ∉ line ∧ ¬ "---".toList <+: line := by
    rw [List.forall_mem_map]
    intro line hline
    have hsetting := hothers line hline
    refine ⟨hsetting.noBreak, ?_⟩
    rw [← List.isPrefixOf_iff_prefix, Bool.not_eq_true]
    exact hsetting.noDashes
  have hflat : (first :: others).flatMap (fun line => line.toList ++ ['\n']) =
      (first.toList :: others.map String.toList).flatMap (· ++ ['\n']) := by
    rw [← List.map_cons, List.flatMap_map]
  have hreturn : '\r' ∉ Chars.join ['\n'] (first.toList :: others.map String.toList) := by
    intro hmem
    rcases Chars.mem_join hmem with hsep | ⟨line, hline, hmem⟩
    · exact absurd hsep (by decide)
    · rw [← List.map_cons, List.mem_map] at hline
      obtain ⟨line, hline, rfl⟩ := hline
      exact (h line hline).noReturn hmem
  rw [split_framed, hflat, splitAtDashes_lines hfirst.noBreak hlines]
  dsimp only
  rw [dropReturns_eq_self hreturn]
  show Except.ok (FrontMatter.mk _ (String.ofList body.toList)) = _
  rw [String.ofList_toList]
  rfl

/-- Without settings the closing dashes have no line break before them that is still to be read, so
that they are taken for the first line of the settings. -/
theorem split_framed_nil_ne (body : String) : split (framed [] body) ≠ .ok ⟨"", body⟩ := by
  rw [split_framed, List.flatMap_nil, List.nil_append, splitAtDashes_dash]
  cases splitAtDashes ('-' :: '-' :: '\n' :: body.toList) with
  | none => exact nofun
  | some found =>
    intro h
    have hsettings : String.ofList (dropReturns ('-' :: found.1)) = "" :=
      congrArg FrontMatter.settings (Except.ok.inj h)
    rw [String.ofList_eq_empty_iff] at hsettings
    exact dropReturns_dash_ne_nil found.1 hsettings

/-- Settings and body come back exactly if there is at least one line of settings, which gives the
second line break, and then the fixture is the one that these settings are decoded to. -/
theorem split_framed_iff {settings : List String} (h : ∀ line ∈ settings, IsSetting line)
    (body : String) :
    (split (framed settings body) = .ok ⟨Text.join "\n" settings, body⟩ ↔ settings ≠ []) ∧
      (settings ≠ [] → ∀ decode, Fixture.ofTextWith decode (framed settings body) =
        match decode (Text.join "\n" settings) with
        | some fixture => .ok (fixture, body)
        | none => .error .malformed) := by
  refine ⟨⟨?_, fun hne => split_framed_of_ne_nil hne h body⟩, fun hne decode => ?_⟩
  · rintro hsplit rfl
    exact split_framed_nil_ne body hsplit
  · rw [Fixture.ofTextWith, split_framed_of_ne_nil hne h body]
    rfl

/-- An empty line, dashes within a text of two lines, and a body that begins with dashes. -/
theorem split_framed_iff_dashes :
    let settings := ["", "author = \"\"\"", " ---\"\"\""]
    let decode : String → Option Fixture := fun text =>
      if text = "\nauthor = \"\"\"\n ---\"\"\"" then some { author := " ---" } else none
    (∀ line ∈ settings, IsSetting line) ∧
      framed settings "---\n\n" = "---\n\nauthor = \"\"\"\n ---\"\"\"\n---\n---\n\n" ∧
      split (framed settings "---\n\n") =
        .ok ⟨"\nauthor = \"\"\"\n ---\"\"\"", "---\n\n"⟩ ∧
      Fixture.ofTextWith decode (framed settings "---\n\n") =
        .ok ({ author := " ---" }, "---\n\n") := by
  intro settings decode
  have h : ∀ line ∈ settings, IsSetting line := by
    intro line hline
    simp only [settings, List.mem_cons, List.not_mem_nil, or_false] at hline
    rcases hline with rfl | rfl | rfl <;> exact ⟨by decide, by decide, by decide⟩
  have hne : settings ≠ [] := List.cons_ne_nil _ _
  obtain ⟨hsplit, hdecoded⟩ := split_framed_iff h "---\n\n"
  have hjoin : Text.join "\n" settings = "\nauthor = \"\"\"\n ---\"\"\"" := by decide
  refine ⟨h, by decide, ?_, ?_⟩
  · rw [hsplit.2 hne, hjoin]
  · rw [hdecoded hne decode, hjoin]
    rfl

/-- No settings between the dashes, which are well closed. -/
theorem split_loses_closing_dashes :
    let body := "\n\x60\x60\x60exercise\n\x7b\nA = B\nC = D\n\x7d\n\x60\x60\x60\n"
    (∀ line ∈ ([] : List String), IsSetting line) ∧
      split (framed [] body) = .error .missingClosing ∧
      split (framed [] body) ≠ .ok ⟨Text.join "\n" [], body⟩ ∧
      ∀ decode, Fixture.ofTextWith decode (framed [] body) = .error .missingClosing := by
  intro body
  have hsplit : split (framed [] body) = .error .missingClosing := by decide +kernel
  refine ⟨by simp, hsplit, by rw [hsplit]; exact nofun, fun decode => ?_⟩
  rw [Fixture.ofTextWith, hsplit]
  rfl

end Worksheet.FrontMatter
