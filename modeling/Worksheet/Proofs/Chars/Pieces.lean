import Worksheet.Proofs.Chars.Split

namespace Worksheet.Chars

theorem pieces_append_cons (sep : Char) (xs ys : List Char) :
    pieces sep (xs ++ sep :: ys) = pieces sep xs ++ pieces sep ys := by
  simp [pieces, splitOn_append_cons]

theorem pieces_of_not_mem {sep : Char} {cs : List Char} (h : sep ∉ cs) :
    pieces sep cs = if (trim cs).isEmpty then [] else [trim cs] := by
  rw [pieces, splitOn_eq_singleton h]
  by_cases he : (trim cs).isEmpty = true <;> simp [he]

/-- A tight piece without separators is its own only piece. -/
theorem pieces_eq_singleton {sep : Char} {cs : List Char} (h : sep ∉ cs) (ht : Tight cs)
    (hne : cs ≠ []) : pieces sep cs = [cs] := by
  rw [pieces_of_not_mem h, ht.trim_eq, if_neg (by simpa using hne)]

theorem of_mem_pieces {sep : Char} {cs piece : List Char} (h : piece ∈ pieces sep cs) :
    sep ∉ piece ∧ Tight piece ∧ piece ≠ [] ∧ ∀ c ∈ piece, c ∈ cs := by
  obtain ⟨hp, hne⟩ := List.mem_filter.1 h
  obtain ⟨raw, hraw, rfl⟩ := List.mem_map.1 hp
  refine ⟨fun hs => not_mem_of_mem_splitOn hraw (mem_of_mem_trim hs), tight_trim raw,
    by simpa using hne, fun c hc => mem_of_mem_splitOn hraw (mem_of_mem_trim hc)⟩

theorem pieces_cons_of_isBlank {sep c : Char} (cs : List Char) (hc : isBlank c = true)
    (hs : c ≠ sep) : pieces sep (c :: cs) = pieces sep cs := by
  obtain ⟨piece, rest, hr, he⟩ :=
    splitWhere_cons_of_not (p := (· == sep)) cs (by simpa using hs)
  simp [pieces, splitOn, hr, he, trim_cons_of_isBlank piece hc]

theorem pieces_append_of_isBlank {sep c : Char} (cs : List Char) (hc : isBlank c = true)
    (hs : c ≠ sep) : pieces sep (cs ++ [c]) = pieces sep cs := by
  by_cases hm : sep ∈ cs
  · obtain ⟨before, after, rfl, ha⟩ := exists_last_of_mem hm
    have hac : sep ∉ after ++ [c] := by simp [ha, Ne.symm hs]
    rw [List.append_assoc, List.cons_append, pieces_append_cons, pieces_append_cons,
      pieces_of_not_mem hac, pieces_of_not_mem ha, trim_append_of_isBlank _ hc]
  · have hac : sep ∉ cs ++ [c] := by simp [hm, Ne.symm hs]
    rw [pieces_of_not_mem hac, pieces_of_not_mem hm, trim_append_of_isBlank _ hc]

/-- The pieces of texts joined by spaced separators are those of the texts. -/
theorem pieces_join_spaced {sep : Char} (hs : sep ≠ ' ') (texts : List (List Char)) :
    pieces sep (join [' ', sep, ' '] texts) = texts.flatMap (pieces sep) := by
  have hb : isBlank ' ' = true := by decide
  induction texts with
  | nil => simp [join, pieces_of_not_mem, trim, trimStart, trimEnd]
  | cons text rest ih =>
    cases rest with
    | nil => simp [join]
    | cons next rest =>
      rw [join_cons_cons]
      have hj : text ++ [' ', sep, ' '] ++ join [' ', sep, ' '] (next :: rest) =
          (text ++ [' ']) ++ sep :: (' ' :: join [' ', sep, ' '] (next :: rest)) := by simp
      rw [hj, pieces_append_cons, pieces_append_of_isBlank _ hb (Ne.symm hs),
        pieces_cons_of_isBlank _ hb (Ne.symm hs), ih]
      rfl

/-- The pieces of texts joined by separators with a space after them are those of the texts. -/
theorem pieces_join_followed {sep : Char} (hs : sep ≠ ' ') (texts : List (List Char)) :
    pieces sep (join [sep, ' '] texts) = texts.flatMap (pieces sep) := by
  have hb : isBlank ' ' = true := by decide
  induction texts with
  | nil => simp [join, pieces_of_not_mem, trim, trimStart, trimEnd]
  | cons text rest ih =>
    cases rest with
    | nil => simp [join]
    | cons next rest =>
      rw [join_cons_cons]
      have hj : text ++ [sep, ' '] ++ join [sep, ' '] (next :: rest) =
          text ++ sep :: (' ' :: join [sep, ' '] (next :: rest)) := by simp
      rw [hj, pieces_append_cons, pieces_cons_of_isBlank _ hb (Ne.symm hs), ih]
      rfl

theorem count_trim {d : Char} (hd : isBlank d = false) (cs : List Char) :
    (trim cs).count d = cs.count d := by
  have hdrop : ∀ xs : List Char, (xs.dropWhile isBlank).count d = xs.count d := by
    intro xs
    induction xs with
    | nil => rfl
    | cons x xs ih =>
      by_cases hx : isBlank x = true
      · have hxd : x ≠ d := by
          rintro rfl
          exact absurd hx (by simp [hd])
        simp [hx, ih, hxd]
      · simp [hx]
  rw [trim, trimEnd, List.count_reverse, hdrop, List.count_reverse, trimStart, hdrop]

theorem count_join {d sep : Char} (hd : d ≠ sep) (texts : List (List Char)) :
    (join [sep] texts).count d = texts.flatten.count d := by
  induction texts with
  | nil => rfl
  | cons text rest ih =>
    cases rest with
    | nil => simp [join]
    | cons next rest =>
      rw [join_cons_cons, List.count_append, List.count_append, ih]
      simp [Ne.symm hd, List.count_append]

/-- Separators are counted between the pieces and in them. -/
theorem count_join_self {sep : Char} {gap : List Char} (hgap : sep ∉ gap) {texts : List (List Char)}
    (hne : texts ≠ []) :
    (join (sep :: gap) texts).count sep + 1 = texts.flatten.count sep + texts.length := by
  induction texts with
  | nil => exact absurd rfl hne
  | cons text rest ih =>
    cases rest with
    | nil => simp [join]
    | cons next rest =>
      have hrest := ih (by simp)
      have hsep : (sep :: gap).count sep = 1 := by
        rw [List.count_cons_self, List.count_eq_zero_of_not_mem hgap]
      rw [join_cons_cons, List.count_append, List.count_append, List.flatten_cons,
        List.count_append, List.length_cons, hsep]
      omega

/-- No character is lost but white space and separators. -/
theorem count_flatten_pieces {d sep : Char} (hb : isBlank d = false) (hd : d ≠ sep)
    (cs : List Char) : (pieces sep cs).flatten.count d = cs.count d := by
  have hfilter : ∀ texts : List (List Char),
      ((texts.map trim).filter (!·.isEmpty)).flatten.count d = texts.flatten.count d := by
    intro texts
    induction texts with
    | nil => rfl
    | cons text rest ih =>
      rw [List.map_cons, List.filter_cons]
      by_cases he : (trim text).isEmpty = true
      · have ht : text.count d = 0 := by
          rw [← count_trim hb, List.isEmpty_iff.1 he]
          rfl
        simp [he, ih, List.count_append, ht]
      · simp [he, ih, List.count_append, count_trim hb]
  rw [pieces, hfilter, ← count_join hd, join_splitOn]

/-- White space at the ends of a text does not matter to its pieces. -/
theorem pieces_trim {sep : Char} (hs : isBlank sep = false) (cs : List Char) :
    pieces sep (trim cs) = pieces sep cs := by
  have hne : ∀ c : Char, isBlank c = true → c ≠ sep := by
    rintro c hc rfl
    exact absurd hc (by simp [hs])
  apply apply_trim
  · intro c xs hc
    exact pieces_cons_of_isBlank xs hc (hne c hc)
  · intro c xs hc
    exact pieces_append_of_isBlank xs hc (hne c hc)

/-- What a piece of a text looks like. -/
structure IsPiece (sep : Char) (cs : List Char) : Prop where
  not_mem : sep ∉ cs
  tight : Tight cs
  ne_nil : cs ≠ []

theorem isPiece_of_mem_pieces {sep : Char} {cs piece : List Char} (h : piece ∈ pieces sep cs) :
    IsPiece sep piece := by
  obtain ⟨hs, ht, hne, -⟩ := of_mem_pieces h
  exact ⟨hs, ht, hne⟩

theorem flatMap_pieces_eq_self {sep : Char} {texts : List (List Char)}
    (h : ∀ text ∈ texts, IsPiece sep text) : texts.flatMap (pieces sep) = texts := by
  induction texts with
  | nil => rfl
  | cons text rest ih =>
    have ht := h text (by simp)
    have hrest := ih fun other ho => h other (by simp [ho])
    rw [List.flatMap_cons, pieces_eq_singleton ht.not_mem ht.tight ht.ne_nil, hrest]
    rfl

theorem join_ne_nil {sep : List Char} {texts : List (List Char)} (hne : texts ≠ [])
    (h : ∀ text ∈ texts, text ≠ []) : join sep texts ≠ [] := by
  cases texts with
  | nil => exact absurd rfl hne
  | cons text rest =>
    have ht : text ≠ [] := h text (by simp)
    cases rest with
    | nil => exact ht
    | cons next rest =>
      rw [join_cons_cons]
      simp [ht]

theorem tight_join {sep : List Char} {texts : List (List Char)}
    (h : ∀ text ∈ texts, Tight text ∧ text ≠ []) : Tight (join sep texts) := by
  induction texts with
  | nil => exact tight_nil
  | cons text rest ih =>
    obtain ⟨ht, hne⟩ := h text (by simp)
    cases rest with
    | nil => exact ht
    | cons next rest =>
      have hrest : ∀ other ∈ next :: rest, Tight other ∧ other ≠ [] := fun other ho =>
        h other (by simp [ho])
      have hj : join sep (next :: rest) ≠ [] :=
        join_ne_nil (by simp) fun other ho => (hrest other ho).2
      rw [join_cons_cons]
      exact ht.append (ih hrest) hne hj sep

theorem getLast_isSuffix_join (sep : List Char) (texts : List (List Char)) (hne : texts ≠ []) :
    texts.getLast hne <:+ join sep texts := by
  induction texts with
  | nil => exact absurd rfl hne
  | cons text rest ih =>
    cases rest with
    | nil => exact List.suffix_rfl
    | cons next rest =>
      rw [List.getLast_cons (by simp), join_cons_cons]
      exact (ih (by simp)).trans (List.suffix_append _ _)

/-- A text begins like the first of its joined parts. -/
theorem head?_join_cons (sep : List Char) {text : List Char} (h : text ≠ [])
    (rest : List (List Char)) : (join sep (text :: rest)).head? = text.head? := by
  obtain ⟨c, cs, rfl⟩ := List.exists_cons_of_ne_nil h
  cases rest <;> rfl

end Worksheet.Chars
