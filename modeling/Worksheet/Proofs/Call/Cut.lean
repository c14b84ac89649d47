import Mathlib.Data.List.Chain
import Worksheet.Proofs.Call.Scanner
import Worksheet.Proofs.Chars.Trim

namespace Worksheet

theorem Piece.map_text_located (sep : Char) (start : Nat) (raws : List (List Char)) :
    (located sep start raws).map (·.text) = raws.map Chars.trim := by
  induction raws generalizing start with
  | nil => rfl
  | cons raw rest ih => rw [located, List.map_cons, ih, trimmed, List.map_cons]

theorem map_text_splitTopLevel (sep : Char) (cs : List Char) :
    (splitTopLevel sep cs).map (·.text) = (Scanner.cut sep {} cs).map Chars.trim :=
  Piece.map_text_located sep 0 _

namespace Scanner

variable {sep : Char} {s : Scanner} {cs : List Char}

theorem join_cut (sep : Char) (s : Scanner) (cs : List Char) :
    Chars.join [sep] (s.cut sep cs) = cs := by
  induction cs generalizing s with
  | nil => rfl
  | cons c cs ih =>
    have hrest := ih (s.step c).2
    by_cases hsep : (c == sep && s.atTop c) = true
    · obtain rfl : c = sep := eq_of_beq (Bool.and_eq_true_iff.1 hsep).1
      rw [cut, if_pos hsep]
      cases hcut : cut c (s.step c).2 cs with
      | nil => exact absurd hcut (cut_ne_nil c _ cs)
      | cons piece pieces =>
        rw [hcut] at hrest
        rw [Chars.join_cons_cons, hrest]
        rfl
    · obtain ⟨piece, pieces, hcut, hcons⟩ := cut_cons_of_ne cs (Bool.eq_false_iff.2 hsep)
      rw [hcut] at hrest
      rw [hcons]
      cases pieces with
      | nil => exact congrArg (c :: ·) hrest
      | cons next others => exact congrArg (c :: ·) hrest

/-- Outside strings and brackets. -/
structure Top (s : Scanner) : Prop where
  quote : s.quote = none
  depth : s.depth ≤ 0

theorem Top.step_plain (h : Top s) {c : Char} (hdouble : c ≠ '"') (hsingle : c ≠ '\'')
    (hopen : isOpening c = false) (hclose : isClosing c = false) :
    s.atTop c = true ∧ Top (s.step c).2 := by
  have hdepth := h.depth
  rw [atTop, step_of_plain h.quote hdouble hsingle hopen hclose]
  exact ⟨by simpa using hdepth, h.quote, h.depth⟩

theorem top_of_atTop {c : Char} (h : s.atTop c = true) : Top s := by
  obtain ⟨hrole, hdepth⟩ := Bool.and_eq_true_iff.1 h
  refine ⟨?_, by simpa using hdepth⟩
  cases hquote : s.quote with
  | none => rfl
  | some quote =>
    rw [step, hquote] at hrole
    cases hrole

theorem top_step_of_atTop {c : Char} (h : s.atTop c = true) : Top (s.step c).2 := by
  have htop := top_of_atTop h
  obtain ⟨hrole, -⟩ := Bool.and_eq_true_iff.1 h
  simp only [step, htop.quote] at hrole ⊢
  split_ifs at hrole ⊢ <;> first | exact ⟨rfl, htop.depth⟩ | cases hrole

theorem Top.step_comma (h : Top s) : s.atTop ',' = true ∧ Top (s.step ',').2 :=
  h.step_plain (by decide) (by decide) (by decide) (by decide)

theorem Top.step_blank (h : Top s) {c : Char} (hc : Chars.isBlank c = true) :
    s.atTop c = true ∧ Top (s.step c).2 := by
  obtain ⟨hdouble, hsingle, hopen, hclose⟩ := plain_of_isBlank hc
  exact h.step_plain hdouble hsingle hopen hclose

/-- No piece but the first begins with a comma, and neither does the first of a text that begins
outside strings and brackets. -/
theorem head?_trim_cut (s : Scanner) (cs : List Char) :
    (∀ piece ∈ (s.cut ',' cs).tail, (Chars.trim piece).head? ≠ some ',') ∧
      (Top s → ∀ piece ∈ (s.cut ',' cs).head?, (Chars.trim piece).head? ≠ some ',') := by
  have hnil : (Chars.trim []).head? ≠ some ',' := nofun
  induction cs generalizing s with
  | nil =>
    refine ⟨nofun, ?_⟩
    rintro - piece hpiece
    obtain rfl : [] = piece := Option.some.inj hpiece
    exact hnil
  | cons c cs ih =>
    obtain ⟨htail, hhead⟩ := ih (s.step c).2
    by_cases hsep : (c == ',' && s.atTop c) = true
    · obtain ⟨hc, htop⟩ := Bool.and_eq_true_iff.1 hsep
      obtain rfl : c = ',' := eq_of_beq hc
      have hnext := top_step_of_atTop htop
      rw [cut, if_pos hsep]
      refine ⟨?_, ?_⟩
      · intro piece hpiece
        rw [List.tail_cons] at hpiece
        cases hcut : cut ',' (s.step ',').2 cs with
        | nil => exact absurd hcut (cut_ne_nil ',' _ cs)
        | cons first others =>
          rw [hcut] at hpiece htail hhead
          rcases List.mem_cons.1 hpiece with rfl | hpiece
          · exact hhead hnext piece rfl
          · exact htail piece hpiece
      · rintro - piece hpiece
        obtain rfl : [] = piece := Option.some.inj hpiece
        exact hnil
    · obtain ⟨first, others, hcut, hcons⟩ := cut_cons_of_ne cs (Bool.eq_false_iff.2 hsep)
      rw [hcut] at htail hhead
      rw [hcons]
      refine ⟨htail, ?_⟩
      intro htop piece hpiece
      obtain rfl : c :: first = piece := Option.some.inj hpiece
      by_cases hblank : Chars.isBlank c = true
      · rw [Chars.trim_cons_of_isBlank _ hblank]
        exact hhead (htop.step_blank hblank).2 first rfl
      · -- A comma that is no separator does not stand outside strings and brackets.
        have hne : c ≠ ',' := by
          rintro rfl
          rw [htop.step_comma.1] at hsep
          exact hsep rfl
        rw [Chars.trim_cons_of_not_isBlank (Bool.eq_false_iff.2 hblank)]
        simpa using hne

/-- Parts of a text that is read from a state on. A separator that counts stands behind each part
but the last, and none within a part. -/
inductive Cuts (sep : Char) : Scanner → List (List Char) → Prop
  | last {s : Scanner} {part : List Char} (whole : s.find? [sep] part = none) : Cuts sep s [part]
  | cons {s : Scanner} {part : List Char} {rest : List (List Char)}
      (whole : s.find? [sep] part = none) (ends : (s.run part).atTop sep = true)
      (others : Cuts sep ((s.run part).step sep).2 rest) : Cuts sep s (part :: rest)

theorem Cuts.ne_nil {raws : List (List Char)} (h : Cuts sep s raws) : raws ≠ [] := by
  cases h <;> simp

theorem cuts_cut (sep : Char) (s : Scanner) (cs : List Char) : Cuts sep s (s.cut sep cs) := by
  induction cs generalizing s with
  | nil => exact .last rfl
  | cons c cs ih =>
    have hrest := ih (s.step c).2
    by_cases hsep : (c == sep && s.atTop c) = true
    · obtain ⟨hc, htop⟩ := Bool.and_eq_true_iff.1 hsep
      obtain rfl : c = sep := eq_of_beq hc
      rw [cut, if_pos hsep]
      exact .cons rfl htop hrest
    · obtain ⟨part, rest, hcut, hcons⟩ := cut_cons_of_ne cs (Bool.eq_false_iff.2 hsep)
      have hfirst : ([sep].contains c && s.atTop c) = false := by simpa using hsep
      rw [hcut] at hrest
      rw [hcons]
      cases hrest with
      | last whole => exact .last (find?_cons_eq_none.2 ⟨hfirst, whole⟩)
      | cons whole ends others => exact .cons (find?_cons_eq_none.2 ⟨hfirst, whole⟩) ends others

/-- A string that is being read ends with a quote. -/
def Quoting (s : Scanner) : Prop :=
  ∀ quote, s.quote = some quote → quote = '"' ∨ quote = '\''

/-- Within a string only its quote ends it. -/
theorem quote_inside (s : Scanner) (quote c : Char) :
    (s.inside quote c).quote = s.quote ∨ c = quote ∧ (s.inside quote c).quote = none := by
  rw [inside]
  split_ifs with hescaped hslash hquote
  · exact Or.inl rfl
  · exact Or.inl rfl
  · exact Or.inr ⟨eq_of_beq hquote, rfl⟩
  · exact Or.inl rfl

theorem Quoting.step (h : Quoting s) (c : Char) : Quoting (s.step c).2 := by
  intro quote hquote
  cases hopen : s.quote with
  | some own =>
    have hstep : (s.step c).2 = s.inside own c := by rw [Scanner.step, hopen]
    rw [hstep] at hquote
    rcases s.quote_inside own c with hkept | ⟨-, hended⟩
    · exact h quote (hkept ▸ hquote)
    · rw [hended] at hquote
      cases hquote
  | none =>
    rw [Scanner.step, hopen] at hquote
    dsimp only at hquote
    split at hquote
    · rename_i hc
      obtain rfl : c = quote := Option.some.inj hquote
      simp only [Bool.or_eq_true, Bool.and_eq_true, beq_iff_eq] at hc
      exact hc.imp_right And.left
    · split_ifs at hquote

theorem Quoting.run (h : Quoting s) (cs : List Char) : Quoting (s.run cs) := by
  induction cs generalizing s with
  | nil => exact h
  | cons c cs ih => exact ih (h.step c)

/-- White space leads out of no string, and it opens and closes no bracket. -/
theorem Top.of_step_blank (hquoting : Quoting s) {c : Char} (hc : Chars.isBlank c = true)
    (h : Top (s.step c).2) : Top s := by
  obtain ⟨hdouble, hsingle, hopen, hclose⟩ := plain_of_isBlank hc
  cases hquote : s.quote with
  | some quote =>
    have hstep : (s.step c).2 = s.inside quote c := by rw [step, hquote]
    have houtside := h.quote
    rw [hstep] at houtside
    rcases s.quote_inside quote c with hkept | ⟨rfl, -⟩
    · rw [hkept, hquote] at houtside
      cases houtside
    · -- A character that ends a string is a quote and no white space.
      rcases hquoting c hquote with rfl | rfl <;> cases hc
  | none =>
    have hdepth := h.depth
    rw [step_of_plain hquote hdouble hsingle hopen hclose] at hdepth
    exact ⟨hquote, hdepth⟩

theorem Top.of_run_blank (hquoting : Quoting s) {blanks : List Char}
    (hblanks : blanks.all Chars.isBlank = true) (h : Top (s.run blanks)) : Top s := by
  induction blanks generalizing s with
  | nil => exact h
  | cons c rest ih =>
    obtain ⟨hc, hrest⟩ := Bool.and_eq_true_iff.1 hblanks
    exact (ih (hquoting.step c) hrest h).of_step_blank hquoting hc

/-- In white space outside strings and brackets every separator counts. -/
theorem Top.not_mem_blank (h : Top s) {blanks : List Char}
    (hblanks : blanks.all Chars.isBlank = true) (hwhole : s.find? [sep] blanks = none) :
    sep ∉ blanks := by
  induction blanks generalizing s with
  | nil => simp
  | cons c rest ih =>
    obtain ⟨hc, hrest⟩ := Bool.and_eq_true_iff.1 hblanks
    obtain ⟨hfirst, hothers⟩ := find?_cons_eq_none.1 hwhole
    obtain ⟨hcounts, hnext⟩ := h.step_blank hc
    have hne : c ≠ sep := by
      rintro rfl
      simp [hcounts] at hfirst
    exact List.not_mem_cons_of_ne_of_not_mem hne.symm (ih hnext hrest hothers)

end Scanner

open Chars (size slice? slice?_append isBlank)

theorem Chars.exists_trim (cs : List Char) : ∃ before after,
    before.all isBlank = true ∧ after.all isBlank = true ∧ cs = before ++ trim cs ++ after ∧
      size before + size (trimStart cs) = size cs := by
  obtain ⟨after, hblank, hafter⟩ := exists_trimEnd_append (trimStart cs)
  have hsplit : cs = cs.takeWhile isBlank ++ trimStart cs := List.takeWhile_append_dropWhile.symm
  refine ⟨cs.takeWhile isBlank, after, List.all_takeWhile, hblank, ?_, ?_⟩
  · rw [List.append_assoc, trim, ← hafter]
    exact hsplit
  · have hsize := congrArg size hsplit
    rwa [size_append, eq_comm] at hsize

namespace Piece

/-- A piece with white space on both sides, behind what the text begins with. -/
structure Padded (before front : List Char) (p : Piece) (back : List Char) : Prop where
  front_blank : front.all isBlank = true
  back_blank : back.all isBlank = true
  span : p.span = ⟨size (before ++ front), size (before ++ front) + size p.text⟩

theorem exists_padded (before raw : List Char) : ∃ front back,
    raw = front ++ (trimmed (size before) raw).text ++ back ∧
      Padded before front (trimmed (size before) raw) back := by
  obtain ⟨front, back, hfront, hback, hraw, hsize⟩ := Chars.exists_trim raw
  have hskipped : size raw - size (Chars.trimStart raw) = size front := by omega
  refine ⟨front, back, hraw, hfront, hback, ?_⟩
  rw [trimmed, hskipped, Chars.size_append]

theorem located_cons (sep : Char) (done raw : List Char) (rest : List (List Char)) :
    located sep (size done) (raw :: rest) =
      trimmed (size done) raw :: located sep (size (done ++ raw ++ [sep])) rest := by
  rw [located, Chars.size_append, Chars.size_append, Chars.size_cons, Chars.size_nil, Nat.add_zero]

/-- The pieces stand in a text behind what it begins with, with one separator between two
neighbours. -/
inductive Laid (sep : Char) (cs : List Char) : List Char → List Piece → Prop
  | last {before front back : List Char} {p : Piece} (padded : p.Padded before front back)
      (begins : sep ∉ front) (whole : cs = before ++ front ++ p.text ++ back) :
      Laid sep cs before [p]
  | cons {before front back : List Char} {p : Piece} {rest : List Piece}
      (padded : p.Padded before front back) (begins : sep ∉ front) (ends : sep ∉ back)
      (others : Laid sep cs (before ++ front ++ p.text ++ back ++ [sep]) rest) :
      Laid sep cs before (p :: rest)

open Scanner in
/-- The white space around a piece has no separator, because it would count there. -/
theorem laid_located {sep : Char} {s : Scanner} {raws : List (List Char)} (h : Cuts sep s raws)
    (hquoting : Quoting s) (htop : Top s) (before : List Char) :
    Laid sep (before ++ Chars.join [sep] raws) before (located sep (size before) raws) := by
  induction h generalizing before with
  | @last s raw whole =>
    obtain ⟨front, back, hraw, hpadded⟩ := exists_padded before raw
    rw [hraw, List.append_assoc, find?_append_eq_none] at whole
    refine .last hpadded (htop.not_mem_blank hpadded.front_blank whole.1) ?_
    show before ++ raw = _
    conv_lhs => rw [hraw]
    simp
  | @cons s raw rest whole ends others ih =>
    obtain ⟨front, back, hraw, hpadded⟩ := exists_padded before raw
    obtain ⟨next, more, rfl⟩ := List.exists_cons_of_ne_nil others.ne_nil
    have hrest := ih ((hquoting.run raw).step sep) (top_step_of_atTop ends) (before ++ raw ++ [sep])
    -- The separator behind the piece counts, so that the white space before it is outside as well.
    have htopEnd := top_of_atTop ends
    rw [hraw, run_append] at htopEnd
    have htopBack := htopEnd.of_run_blank (hquoting.run _) hpadded.back_blank
    rw [hraw, find?_append_eq_none, find?_append_eq_none] at whole
    obtain ⟨⟨hfront, -⟩, hback⟩ := whole
    have hwhole : before ++ raw ++ [sep] ++ Chars.join [sep] (next :: more) =
        before ++ Chars.join [sep] (raw :: next :: more) := by
      rw [Chars.join_cons_cons]
      simp
    have hbehind : before ++ raw ++ [sep] =
        before ++ front ++ (trimmed (size before) raw).text ++ back ++ [sep] := by
      conv_lhs => rw [hraw]
      simp
    rw [located_cons, hbehind]
    rw [hwhole, hbehind] at hrest
    exact .cons hpadded (htop.not_mem_blank hpadded.front_blank hfront)
      (htopBack.not_mem_blank hpadded.back_blank hback) hrest

namespace Laid

variable {sep : Char} {cs before : List Char} {pieces : List Piece}

/-- The first piece begins behind white space. -/
theorem exists_first (h : Laid sep cs before pieces) : ∃ front more first rest,
    pieces = first :: rest ∧ cs = before ++ front ++ more ∧ front.all isBlank = true ∧
      sep ∉ front ∧ first.span.start = size (before ++ front) := by
  induction h with
  | @last before front back p padded begins whole =>
    refine ⟨front, p.text ++ back, p, [], rfl, ?_, padded.front_blank, begins,
      by rw [padded.span]⟩
    rw [whole, List.append_assoc _ p.text]
  | @cons before front back p rest padded begins ends others ih =>
    obtain ⟨next, more, first, others, -, hwhole, -⟩ := ih
    refine ⟨front, p.text ++ back ++ [sep] ++ next ++ more, p, rest, rfl, ?_,
      padded.front_blank, begins, by rw [padded.span]⟩
    rw [hwhole]
    simp

theorem le_start (h : Laid sep cs before pieces) : ∀ p ∈ pieces, size before ≤ p.span.start := by
  induction h with
  | @last before front back p padded begins whole =>
    intro q hq
    rw [List.mem_singleton.1 hq, padded.span]
    simp
  | @cons before front back p rest padded begins ends others ih =>
    intro q hq
    rcases List.mem_cons.1 hq with rfl | hrest
    · rw [padded.span]
      simp
    · have hle := ih q hrest
      simp only [Chars.size_append] at hle
      omega

theorem pairwise_span (h : Laid sep cs before pieces) :
    pieces.Pairwise fun p q => p.span.stop < q.span.start := by
  induction h with
  | last => exact List.pairwise_singleton _ _
  | @cons before front back p rest padded begins ends others ih =>
    refine List.pairwise_cons.2 ⟨?_, ih⟩
    intro q hq
    have hle := others.le_start q hq
    have hpos := Char.utf8Size_pos sep
    have hspan := padded.span
    simp only [Chars.size_append, Chars.size_cons] at hle
    rw [hspan, Chars.size_append]
    dsimp only
    omega

/-- Two neighbours are apart by white space, a separator and white space. -/
theorem isChain_gap (h : Laid sep cs before pieces) :
    pieces.IsChain fun p q => ∃ back front, back.all isBlank = true ∧ front.all isBlank = true ∧
      sep ∉ back ∧ sep ∉ front ∧
      slice? cs ⟨p.span.stop, q.span.start⟩ = some (back ++ sep :: front) := by
  induction h with
  | last => exact .singleton _
  | @cons before front back p rest padded begins ends others ih =>
    refine List.isChain_cons.2 ⟨?_, ih⟩
    intro q hq
    obtain ⟨next, more, first, later, rfl, hwhole, hblank, hnone, hstart⟩ := others.exists_first
    obtain rfl : first = q := Option.some.inj hq
    refine ⟨back, next, padded.back_blank, hblank, ends, hnone, ?_⟩
    have hslice := slice?_append (before ++ front ++ p.text) (back ++ sep :: next) more
    have hstop : p.span.stop = size (before ++ front ++ p.text) := by
      rw [padded.span, Chars.size_append (before ++ front)]
    have hend : first.span.start =
        size (before ++ front ++ p.text) + size (back ++ sep :: next) := by
      rw [hstart]
      simp only [Chars.size_append, Chars.size_cons, Chars.size_nil]
      omega
    rw [hstop, hend, hwhole]
    simpa using hslice

/-- Behind the last piece stands white space. -/
theorem slice?_last (h : Laid sep cs before pieces) :
    ∀ p ∈ pieces.getLast?, ∃ back, back.all isBlank = true ∧
      slice? cs ⟨p.span.stop, size cs⟩ = some back := by
  induction h with
  | @last before front back p padded begins whole =>
    intro q hq
    obtain rfl : p = q := Option.some.inj hq
    have hslice := slice?_append (before ++ front ++ p.text) back []
    have hstop : p.span.stop = size (before ++ front ++ p.text) := by
      rw [padded.span, Chars.size_append (before ++ front)]
    refine ⟨back, padded.back_blank, ?_⟩
    rw [hstop, whole, Chars.size_append (before ++ front ++ p.text)]
    simpa using hslice
  | @cons before front back p rest padded begins ends others ih =>
    obtain ⟨-, -, first, later, rfl, -⟩ := others.exists_first
    rw [List.getLast?_cons_cons]
    exact ih

end Laid

theorem laid_splitTopLevel (sep : Char) (cs : List Char) :
    Laid sep cs [] (splitTopLevel sep cs) := by
  have hlaid := laid_located (Scanner.cuts_cut sep {} cs) nofun ⟨rfl, Int.le_refl 0⟩ []
  rwa [List.nil_append, Scanner.join_cut] at hlaid

/-- A piece is the stretch of the text that its span tells. -/
theorem exists_of_mem_located {sep : Char} (done : List Char) {raws : List (List Char)}
    {piece : Piece} (h : piece ∈ located sep (size done) raws) : ∃ before after,
      done ++ Chars.join [sep] raws = before ++ piece.text ++ after ∧
        piece.span = ⟨size before, size before + size piece.text⟩ := by
  induction raws generalizing done with
  | nil => cases h
  | cons raw rest ih =>
    obtain ⟨more, hmore⟩ : ∃ more, Chars.join [sep] (raw :: rest) = raw ++ more := by
      rw [Chars.join_eq_flatMap]
      exact ⟨_, rfl⟩
    rw [located_cons] at h
    rcases List.mem_cons.1 h with rfl | hrest
    · obtain ⟨before, after, -, -, hraw, hsize⟩ := Chars.exists_trim raw
      refine ⟨done ++ before, after ++ more, ?_, ?_⟩
      · rw [hmore]
        conv_lhs => rw [hraw]
        simp [trimmed]
      · have hbegin : size done + (size raw - size (Chars.trimStart raw)) =
            size (done ++ before) := by
          rw [Chars.size_append]
          omega
        rw [trimmed, hbegin]
    · cases rest with
      | nil => cases hrest
      | cons next rest =>
        obtain ⟨before, after, htext, hspan⟩ := ih _ hrest
        refine ⟨before, after, ?_, hspan⟩
        rw [← htext, Chars.join_cons_cons]
        simp

theorem exists_of_mem_splitTopLevel {sep : Char} {cs : List Char} {piece : Piece}
    (h : piece ∈ splitTopLevel sep cs) : ∃ before after,
      cs = before ++ piece.text ++ after ∧
        piece.span = ⟨size before, size before + size piece.text⟩ := by
  obtain ⟨before, after, htext, hspan⟩ := exists_of_mem_located [] h
  rw [List.nil_append, Scanner.join_cut] at htext
  exact ⟨before, after, htext, hspan⟩

theorem tight_of_mem_splitTopLevel {sep : Char} {cs : List Char} {piece : Piece}
    (h : piece ∈ splitTopLevel sep cs) : Chars.Tight piece.text := by
  have hmem := List.mem_map_of_mem (f := Piece.text) h
  rw [map_text_splitTopLevel] at hmem
  obtain ⟨raw, -, hraw⟩ := List.mem_map.1 hmem
  rw [← hraw]
  exact Chars.tight_trim raw

/-- The pieces and the separators between them are the text, white space around the pieces aside.
Each piece stands in the text where it is said to stand. -/
theorem splitTopLevel_covers (sep : Char) (cs : List Char) :
    splitTopLevel sep cs ≠ [] ∧
      (∀ p ∈ splitTopLevel sep cs, p.span.start ≤ p.span.stop ∧ p.span.stop ≤ size cs ∧
        slice? cs p.span = some p.text ∧ Chars.trim p.text = p.text) ∧
      ((splitTopLevel sep cs).Pairwise fun p q => p.span.stop < q.span.start) ∧
      (∀ p ∈ (splitTopLevel sep cs).head?, ∃ front, front.all isBlank = true ∧
        slice? cs ⟨0, p.span.start⟩ = some front) ∧
      (∀ p ∈ (splitTopLevel sep cs).getLast?, ∃ back, back.all isBlank = true ∧
        slice? cs ⟨p.span.stop, size cs⟩ = some back) ∧
      (splitTopLevel sep cs).IsChain fun p q =>
        ∃ back front, back.all isBlank = true ∧ front.all isBlank = true ∧ sep ∉ back ∧
          sep ∉ front ∧ slice? cs ⟨p.span.stop, q.span.start⟩ = some (back ++ sep :: front) := by
  have hlaid := laid_splitTopLevel sep cs
  obtain ⟨front, more, first, rest, hpieces, hwhole, hblank, -, hstart⟩ := hlaid.exists_first
  refine ⟨?_, ?_, hlaid.pairwise_span, ?_, hlaid.slice?_last, hlaid.isChain_gap⟩
  · rw [hpieces]
    exact List.cons_ne_nil _ _
  · intro p hp
    obtain ⟨before, after, htext, hspan⟩ := exists_of_mem_splitTopLevel hp
    have hslice := slice?_append before p.text after
    have hsize := congrArg size htext
    rw [Chars.size_append, Chars.size_append] at hsize
    rw [← htext, ← hspan] at hslice
    refine ⟨?_, ?_, hslice, (tight_of_mem_splitTopLevel hp).trim_eq⟩
    · rw [hspan]
      exact Nat.le_add_right _ _
    · rw [hspan]
      dsimp only
      omega
  · rw [hpieces]
    intro p hp
    obtain rfl : first = p := Option.some.inj hp
    refine ⟨front, hblank, ?_⟩
    have hslice := slice?_append [] front more
    rw [hstart, hwhole]
    simpa using hslice

end Piece

end Worksheet
