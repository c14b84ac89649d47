import Worksheet.Proofs.Chars.Trim
import Worksheet.Text

namespace Worksheet.Chars

theorem splitWhere_cons_of_not {p : Char → Bool} {c : Char} (cs : List Char) (h : p c = false) :
    ∃ piece pieces, splitWhere p cs = piece :: pieces ∧
      splitWhere p (c :: cs) = (c :: piece) :: pieces := by
  cases hs : splitWhere p cs with
  | nil => exact absurd hs (splitWhere_ne_nil p cs)
  | cons piece pieces => exact ⟨piece, pieces, rfl, by simp [splitWhere, h, hs]⟩

theorem splitWhere_append_cons {p : Char → Bool} {c : Char} (xs ys : List Char) (h : p c = true) :
    splitWhere p (xs ++ c :: ys) = splitWhere p xs ++ splitWhere p ys := by
  induction xs with
  | nil => simp [splitWhere, h]
  | cons x xs ih =>
    by_cases hx : p x = true
    · simp [splitWhere, hx, ih]
    · obtain ⟨piece, pieces, hs, hc⟩ :=
        splitWhere_cons_of_not xs (Bool.eq_false_iff.2 hx)
      rw [hc, List.cons_append, splitWhere, if_neg hx, ih, hs]
      rfl

theorem splitWhere_eq_singleton {p : Char → Bool} {cs : List Char} (h : ∀ c ∈ cs, p c = false) :
    splitWhere p cs = [cs] := by
  induction cs with
  | nil => rfl
  | cons c cs ih =>
    have hc := h c (by simp)
    simp [splitWhere, hc, ih fun d hd => h d (by simp [hd])]

theorem of_mem_splitWhere {p : Char → Bool} {cs piece : List Char} (h : piece ∈ splitWhere p cs) :
    ∀ c ∈ piece, c ∈ cs ∧ p c = false := by
  induction cs generalizing piece with
  | nil =>
    simp only [splitWhere, List.mem_singleton] at h
    simp [h]
  | cons d ds ih =>
    intro c hc
    by_cases hd : p d = true
    · simp only [splitWhere, hd, if_true, List.mem_cons] at h
      rcases h with rfl | h
      · simp at hc
      · exact ⟨by simp [(ih h c hc).1], (ih h c hc).2⟩
    · obtain ⟨first, rest, hs, he⟩ := splitWhere_cons_of_not ds (Bool.eq_false_iff.2 hd)
      rw [he, List.mem_cons] at h
      rcases h with rfl | h
      · rcases List.mem_cons.1 hc with rfl | hc
        · exact ⟨by simp, Bool.eq_false_iff.2 hd⟩
        · have := ih (by simp [hs] : first ∈ splitWhere p ds) c hc
          exact ⟨by simp [this.1], this.2⟩
      · have := ih (by simp [hs, h] : piece ∈ splitWhere p ds) c hc
        exact ⟨by simp [this.1], this.2⟩

theorem length_splitWhere (p : Char → Bool) (cs : List Char) :
    (splitWhere p cs).length = cs.countP p + 1 := by
  induction cs with
  | nil => rfl
  | cons c cs ih =>
    by_cases hc : p c = true
    · simp [splitWhere, hc, ih]
    · obtain ⟨piece, pieces, hs, he⟩ := splitWhere_cons_of_not cs (Bool.eq_false_iff.2 hc)
      rw [he, List.countP_cons_of_neg hc, ← ih, hs]
      rfl

theorem splitOn_append_cons (sep : Char) (xs ys : List Char) :
    splitOn sep (xs ++ sep :: ys) = splitOn sep xs ++ splitOn sep ys :=
  splitWhere_append_cons xs ys (by simp)

theorem splitOn_eq_singleton {sep : Char} {cs : List Char} (h : sep ∉ cs) :
    splitOn sep cs = [cs] :=
  splitWhere_eq_singleton fun c hc => by
    simp only [beq_eq_false_iff_ne, ne_eq]
    rintro rfl
    exact h hc

theorem lines_eq_singleton {cs : List Char} (hne : cs ≠ []) (h : '\n' ∉ cs) :
    lines cs = [cs] := by
  rw [lines, splitOn_eq_singleton h, lines.close, if_neg (by simpa using hne)]

/-- A text without the separator goes to the first piece. -/
theorem splitOn_append_of_not_mem {sep : Char} {cs : List Char} (h : sep ∉ cs) (rest : List Char) :
    splitOn sep (cs ++ rest) = (splitOn sep rest).modifyHead (cs ++ ·) := by
  induction cs with
  | nil =>
    cases hrest : splitOn sep rest <;> simp [hrest]
  | cons c cs ih =>
    obtain ⟨hc, hcs⟩ : sep ≠ c ∧ sep ∉ cs := by simpa using h
    have hne : (c == sep) = false := beq_eq_false_iff_ne.2 (Ne.symm hc)
    have hnext := ih hcs
    obtain ⟨piece, pieces, hpieces, hcons⟩ :=
      splitWhere_cons_of_not (p := (· == sep)) (cs ++ rest) hne
    rw [splitOn] at hnext
    rw [List.cons_append, splitOn, hcons]
    rw [hpieces] at hnext
    cases hrest : splitOn sep rest with
    | nil => exact absurd hrest (splitWhere_ne_nil _ rest)
    | cons first others =>
      rw [hrest] at hnext
      obtain ⟨rfl, rfl⟩ := List.cons.inj hnext
      rfl

theorem not_mem_of_mem_splitOn {sep : Char} {cs piece : List Char} (h : piece ∈ splitOn sep cs) :
    sep ∉ piece := by
  intro hsep
  have := (of_mem_splitWhere h sep hsep).2
  simp at this

theorem mem_of_mem_splitOn {sep c : Char} {cs piece : List Char} (h : piece ∈ splitOn sep cs)
    (hc : c ∈ piece) : c ∈ cs :=
  (of_mem_splitWhere h c hc).1

theorem splitOnce_append_cons {sep : Char} {before : List Char} (h : sep ∉ before)
    (after : List Char) : splitOnce sep (before ++ sep :: after) = some (before, after) := by
  induction before with
  | nil => simp [splitOnce]
  | cons c cs ih =>
    simp only [List.mem_cons, not_or] at h
    simp [splitOnce, Ne.symm h.1, ih h.2]

theorem not_mem_of_splitOnce {sep : Char} {cs before after : List Char}
    (h : splitOnce sep cs = some (before, after)) : sep ∉ before := by
  induction cs generalizing before with
  | nil => simp [splitOnce] at h
  | cons c cs ih =>
    rw [splitOnce] at h
    by_cases hc : c = sep
    · obtain ⟨rfl, -⟩ := Prod.mk.inj (Option.some.inj (by simpa [hc] using h))
      simp
    · rw [if_neg (by simpa using hc)] at h
      obtain ⟨⟨b, a⟩, hb, he⟩ := Option.map_eq_some_iff.1 h
      obtain ⟨rfl, rfl⟩ := Prod.mk.inj he
      simp [Ne.symm hc, ih hb]

theorem isSome_splitOnce_iff {sep : Char} {cs : List Char} :
    (splitOnce sep cs).isSome = true ↔ sep ∈ cs := by
  induction cs with
  | nil => simp [splitOnce]
  | cons c cs ih =>
    by_cases hc : c = sep
    · simp [splitOnce, hc]
    · simp [splitOnce, hc, ih, Ne.symm hc]

/-- A character that stands in a text once stands there in one place. -/
theorem eq_of_once {sep : Char} {back front before after : List Char} (hback : sep ∉ back)
    (hfront : sep ∉ front) (h : back ++ sep :: front = before ++ sep :: after) :
    before = back := by
  have hcount := congrArg (List.count sep) h
  rw [List.count_append, List.count_append, List.count_cons_self, List.count_cons_self,
    List.count_eq_zero_of_not_mem hback, List.count_eq_zero_of_not_mem hfront] at hcount
  have hbefore : sep ∉ before := List.count_eq_zero.1 (by omega)
  have hsplit := splitOnce_append_cons hbefore after
  rw [← h, splitOnce_append_cons hback front] at hsplit
  exact (Prod.mk.inj (Option.some.inj hsplit)).1.symm

theorem splitLast_eq_none {sep : Char} {cs : List Char} (h : sep ∉ cs) :
    splitLast sep cs = none := by
  induction cs with
  | nil => rfl
  | cons c cs ih =>
    simp only [List.mem_cons, not_or] at h
    simp [splitLast, ih h.2, Ne.symm h.1]

theorem splitLast_append_cons {sep : Char} (before : List Char) {after : List Char}
    (h : sep ∉ after) : splitLast sep (before ++ sep :: after) = some (before, after) := by
  induction before with
  | nil => simp [splitLast, splitLast_eq_none h]
  | cons c cs ih => simp [splitLast, ih]

/-- The last occurrence of a character. -/
theorem exists_last_of_mem {sep : Char} {cs : List Char} (h : sep ∈ cs) :
    ∃ before after, cs = before ++ sep :: after ∧ sep ∉ after := by
  induction cs with
  | nil => simp at h
  | cons c cs ih =>
    by_cases hc : sep ∈ cs
    · obtain ⟨before, after, rfl, ha⟩ := ih hc
      exact ⟨c :: before, after, rfl, ha⟩
    · rcases List.mem_cons.1 h with rfl | hs
      · exact ⟨[], cs, rfl, hc⟩
      · exact absurd hs hc

theorem append_of_splitLast {sep : Char} {cs before after : List Char}
    (h : splitLast sep cs = some (before, after)) : before ++ sep :: after = cs := by
  by_cases hm : sep ∈ cs
  · obtain ⟨b, a, rfl, ha⟩ := exists_last_of_mem hm
    rw [splitLast_append_cons b ha] at h
    obtain ⟨rfl, rfl⟩ := Prod.mk.inj (Option.some.inj h)
    rfl
  · rw [splitLast_eq_none hm] at h
    cases h

theorem stripLast?_append (last : Char) (cs : List Char) :
    stripLast? last (cs ++ [last]) = some cs := by
  induction cs with
  | nil => simp [stripLast?]
  | cons c cs ih =>
    cases cs with
    | nil => simp [stripLast?]
    | cons d ds => simpa [stripLast?] using ih

theorem append_of_stripLast? {last : Char} {cs text : List Char}
    (h : stripLast? last cs = some text) : text ++ [last] = cs := by
  induction cs generalizing text with
  | nil => cases h
  | cons c cs ih =>
    cases cs with
    | nil =>
      rw [stripLast?] at h
      split at h
      · rename_i hc
        obtain rfl := Option.some.inj h
        rw [eq_of_beq hc, List.nil_append]
      · cases h
    | cons d ds =>
      rw [stripLast?] at h
      obtain ⟨inner, hi, rfl⟩ := Option.map_eq_some_iff.1 h
      rw [List.cons_append, ih hi]

theorem stripLast?_eq (last : Char) (cs : List Char) :
    stripLast? last cs = if cs.getLast? = some last then some cs.dropLast else none := by
  by_cases h : cs.getLast? = some last
  · obtain ⟨front, rfl⟩ := List.getLast?_eq_some_iff.1 h
    rw [if_pos h, stripLast?_append, List.dropLast_concat]
  · rw [if_neg h]
    cases hs : stripLast? last cs with
    | none => rfl
    | some front =>
      rw [← append_of_stripLast? hs, List.getLast?_append] at h
      exact absurd rfl h

theorem join_cons_cons (sep piece next : List Char) (rest : List (List Char)) :
    join sep (piece :: next :: rest) = piece ++ sep ++ join sep (next :: rest) := rfl

theorem join_eq_flatMap (sep first : List Char) (rest : List (List Char)) :
    join sep (first :: rest) = first ++ rest.flatMap (sep ++ ·) := by
  induction rest generalizing first with
  | nil => simp [join]
  | cons next rest ih => simp [join_cons_cons, ih]

/-- A text is what its pieces come to. -/
theorem join_splitOn (sep : Char) (cs : List Char) : join [sep] (splitOn sep cs) = cs := by
  induction cs with
  | nil => rfl
  | cons c cs ih =>
    rw [splitOn] at ih ⊢
    by_cases hc : c = sep
    · subst hc
      have hs : splitWhere (· == c) (c :: cs) = [] :: splitWhere (· == c) cs := by
        simp [splitWhere]
      cases hp : splitWhere (· == c) cs with
      | nil => exact absurd hp (splitWhere_ne_nil _ cs)
      | cons piece pieces => rw [hs, hp, join_cons_cons, ← hp, ih]; rfl
    · obtain ⟨piece, pieces, hs, he⟩ :=
        splitWhere_cons_of_not (p := (· == sep)) cs (by simpa using hc)
      rw [he]
      rw [hs] at ih
      cases pieces with
      | nil => simpa [join] using ih
      | cons next rest =>
        rw [join_cons_cons] at ih ⊢
        simp [← ih]

/-- The pieces of a joined text are the pieces of its parts. -/
theorem splitOn_join_flatMap {sep : Char} {parts : List (List Char)} (hne : parts ≠ []) :
    splitOn sep (join [sep] parts) = parts.flatMap (splitOn sep) := by
  induction parts with
  | nil => exact absurd rfl hne
  | cons part rest ih =>
    cases rest with
    | nil => simp [join]
    | cons next rest =>
      have ht := ih (by simp)
      rw [join_cons_cons, List.append_assoc, List.singleton_append, splitOn_append_cons, ht]
      rfl

theorem flatMap_splitOn_eq_self {sep : Char} {pieces : List (List Char)}
    (h : ∀ piece ∈ pieces, sep ∉ piece) : pieces.flatMap (splitOn sep) = pieces := by
  induction pieces with
  | nil => rfl
  | cons piece rest ih =>
    have hp : sep ∉ piece := h piece (by simp)
    have hrest := ih fun other ho => h other (by simp [ho])
    rw [List.flatMap_cons, splitOn_eq_singleton hp, hrest]
    rfl

/-- Pieces without a separator are what their joined text is cut into. -/
theorem splitOn_join {sep : Char} {pieces : List (List Char)} (hne : pieces ≠ [])
    (h : ∀ piece ∈ pieces, sep ∉ piece) : splitOn sep (join [sep] pieces) = pieces := by
  rw [splitOn_join_flatMap hne, flatMap_splitOn_eq_self h]

/-- What stands in a joined text stands in a separator or in a piece. -/
theorem mem_join {c : Char} {sep : List Char} {pieces : List (List Char)}
    (h : c ∈ join sep pieces) : c ∈ sep ∨ ∃ piece ∈ pieces, c ∈ piece := by
  induction pieces with
  | nil => simp [join] at h
  | cons piece rest ih =>
    cases rest with
    | nil => exact Or.inr ⟨piece, by simp, by simpa [join] using h⟩
    | cons next rest =>
      rw [join_cons_cons, List.mem_append, List.mem_append] at h
      rcases h with (h | h) | h
      · exact Or.inr ⟨piece, by simp, h⟩
      · exact Or.inl h
      · rcases ih h with h | ⟨q, hq, hc⟩
        · exact Or.inl h
        · exact Or.inr ⟨q, by simp [hq], hc⟩

theorem mem_join_of_mem {c : Char} (sep : List Char) {piece : List Char}
    {pieces : List (List Char)} (hp : piece ∈ pieces) (hc : c ∈ piece) : c ∈ join sep pieces := by
  induction pieces with
  | nil => simp at hp
  | cons first rest ih =>
    cases rest with
    | nil =>
      rw [List.mem_singleton] at hp
      simpa [join, ← hp] using hc
    | cons next rest =>
      rw [join_cons_cons, List.mem_append, List.mem_append]
      rcases List.mem_cons.1 hp with rfl | hp
      · exact Or.inl (Or.inl hc)
      · exact Or.inr (ih hp)

theorem occursIn_iff {needle cs : List Char} : occursIn needle cs = true ↔ needle <:+: cs := by
  induction cs with
  | nil => simp [occursIn]
  | cons c cs ih =>
    rw [occursIn, Bool.or_eq_true, List.isPrefixOf_iff_prefix, ih, List.infix_cons_iff]

end Worksheet.Chars
