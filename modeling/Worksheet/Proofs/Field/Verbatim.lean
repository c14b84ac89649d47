import Worksheet.Field.Basic
import Worksheet.Proofs.Call.Cut
import Worksheet.Proofs.Call.Identifier

namespace Worksheet

open Chars (Tight)

theorem Quoted.unescape_sublist (cs : List Char) : (unescape cs).Sublist cs := by
  fun_induction unescape cs with
  | case1 => exact List.Sublist.refl _
  | case2 => exact List.Sublist.refl _
  | case3 c cs ih => exact (ih.cons_cons c).cons _
  | case4 c cs _ _ ih => exact ih.cons_cons c

theorem FieldValue.eq_of_ofChars {cs : List Char} {s : String} (h : ofChars cs = .text s) :
    Quoted.decode? (Chars.trim cs) = some s.toList ∨ s.toList = Chars.trim cs := by
  rw [ofChars] at h
  split at h
  · rename_i inner hinner
    obtain rfl := FieldValue.text.inj h
    exact Or.inl (by rw [hinner, String.toList_ofList])
  · split at h
    · cases h
    · split at h
      · cases h
      · split at h
        · cases h
        · split at h
          · split at h
            · cases h
            · obtain rfl := FieldValue.text.inj h
              exact Or.inr String.toList_ofList
          · obtain rfl := FieldValue.text.inj h
            exact Or.inr String.toList_ofList

namespace Field

/-- The trimmed pieces that are not empty. -/
def filled (pieces : List (List Char)) : List (List Char) :=
  (pieces.map Chars.trim).filter (!·.isEmpty)

/-- The first piece, and each other one that is not empty after a comma and a space. -/
def rejoin : List (List Char) → List Char
  | [] => []
  | first :: rest => Chars.trim first ++ (filled rest).flatMap ([',', ' '] ++ ·)

/-- What becomes of a value that is cut at its commas. -/
def rejoined (value : List Char) : List Char :=
  rejoin (Scanner.cut ',' {} value)

/-- No white space stands before a comma that separates and exactly one space after it, and there is
something between two of them and after the last one. -/
def EvenlySpaced (value : List Char) : Prop :=
  ∃ (first : List Char) (texts : List (List Char)),
    Scanner.cut ',' {} value = first :: texts.map (' ' :: ·) ∧ Tight first ∧
      ∀ text ∈ texts, text ≠ [] ∧ Tight text

section Filled

variable {raw text : List Char} {pieces rest : List (List Char)}

theorem filled_cons_of_eq_nil (h : Chars.trim raw = []) : filled (raw :: rest) = filled rest := by
  simp [filled, h]

theorem filled_cons_of_ne_nil (h : Chars.trim raw ≠ []) :
    filled (raw :: rest) = Chars.trim raw :: filled rest := by
  simp [filled, h]

theorem mem_filled_iff :
    text ∈ filled pieces ↔ (∃ piece ∈ pieces, Chars.trim piece = text) ∧ text ≠ [] := by
  simp [filled]

theorem tight_of_mem_filled (h : text ∈ filled pieces) : Tight text := by
  obtain ⟨⟨piece, -, rfl⟩, -⟩ := mem_filled_iff.1 h
  exact Chars.tight_trim piece

theorem filled_of_spaced {texts : List (List Char)}
    (htexts : ∀ text ∈ texts, text ≠ [] ∧ Tight text) :
    filled (texts.map (' ' :: ·)) = texts := by
  have hblank : Chars.isBlank ' ' = true := by decide
  induction texts with
  | nil => rfl
  | cons text texts ih =>
    obtain ⟨hne, htight⟩ := htexts text (by simp)
    have htrim : Chars.trim (' ' :: text) = text := by
      rw [Chars.trim_cons_of_isBlank _ hblank, htight.trim_eq]
    rw [List.map_cons, filled_cons_of_ne_nil (by rwa [htrim]), htrim,
      ih fun other hother => htexts other (by simp [hother])]

end Filled

section Solid

/-- Neither white space nor a comma. -/
def isSolid (c : Char) : Bool :=
  !Chars.isBlank c && c != ','

theorem filter_trim_isSolid (cs : List Char) :
    (Chars.trim cs).filter isSolid = cs.filter isSolid := by
  apply Chars.apply_trim (f := fun xs => xs.filter isSolid)
  · intro c xs hc
    rw [List.filter_cons_of_neg (by simp [isSolid, hc])]
  · intro c xs hc
    rw [List.filter_append, List.filter_cons_of_neg (by simp [isSolid, hc]), List.filter_nil,
      List.append_nil]

theorem filter_flatMap_filled (rest : List (List Char)) :
    ((filled rest).flatMap ([',', ' '] ++ ·)).filter isSolid =
      (rest.flatMap ([','] ++ ·)).filter isSolid := by
  have hsep : [',', ' '].filter isSolid = [] := by decide
  have hcomma : [','].filter isSolid = [] := by decide
  induction rest with
  | nil => rfl
  | cons raw rest ih =>
    rw [List.flatMap_cons, List.filter_append, List.filter_append, hcomma, List.nil_append,
      ← filter_trim_isSolid raw, ← ih]
    by_cases hraw : Chars.trim raw = []
    · rw [filled_cons_of_eq_nil hraw, hraw, List.filter_nil, List.nil_append]
    · rw [filled_cons_of_ne_nil hraw, List.flatMap_cons, List.filter_append, List.filter_append,
        hsep, List.nil_append]

/-- All but white space and commas is kept in its order. -/
theorem filter_rejoined (value : List Char) :
    (rejoined value).filter isSolid = value.filter isSolid := by
  have hjoin := Scanner.join_cut ',' {} value
  rw [rejoined]
  cases hcut : Scanner.cut ',' {} value with
  | nil => exact absurd hcut (Scanner.cut_ne_nil ',' _ value)
  | cons first rest =>
    rw [hcut, Chars.join_eq_flatMap] at hjoin
    rw [rejoin, List.filter_append, filter_trim_isSolid, filter_flatMap_filled,
      ← List.filter_append, hjoin]

/-- Two quotes are taken away from a text that is read as a quoted one. -/
theorem length_filter_of_decode? {cs inner : List Char} (h : Quoted.decode? cs = some inner) :
    (inner.filter isSolid).length + 2 ≤ (cs.filter isSolid).length := by
  rw [Quoted.decode?] at h
  rw [← filter_trim_isSolid cs]
  split at h
  · cases h
  · rename_i quote rest htrim
    split at h
    · rename_i hquote
      obtain ⟨raw, hraw, rfl⟩ := Option.map_eq_some_iff.1 h
      have hsolid : isSolid quote = true := by
        rcases Bool.or_eq_true_iff.1 hquote with hq | hq
        · rw [eq_of_beq hq]
          decide
        · rw [eq_of_beq hq]
          decide
      have hle : ((Quoted.unescape raw).filter isSolid).length ≤ (raw.filter isSolid).length :=
        ((Quoted.unescape_sublist raw).filter isSolid).length_le
      rw [htrim, ← Chars.append_of_stripLast? hraw, List.filter_cons_of_pos hsolid,
        List.filter_append, List.filter_cons_of_pos hsolid]
      simp only [List.length_cons, List.length_append, List.filter_nil, List.length_nil]
      omega
    · cases h

end Solid

section Spacing

variable {value first : List Char} {rest texts : List (List Char)}

theorem tight_rejoin (pieces : List (List Char)) : Tight (rejoin pieces) := by
  have hend : ∀ (texts : List (List Char)) (start : List Char), Tight start →
      (∀ text ∈ texts, text ≠ [] ∧ Tight text) →
        Tight (start ++ texts.flatMap ([',', ' '] ++ ·)) := by
    intro texts
    induction texts with
    | nil =>
      intro start hstart _
      simpa using hstart
    | cons text texts ih =>
      intro start hstart htexts
      obtain ⟨hne, htight⟩ := htexts text (by simp)
      have hcomma : Tight [','] := ⟨by decide, by decide⟩
      have hnext : Tight (start ++ (", ".toList ++ text)) := by
        by_cases hs : start = []
        · rw [hs]
          exact hcomma.append htight (by simp) hne [' ']
        · rw [← List.append_assoc]
          exact hstart.append htight hs hne _
      rw [List.flatMap_cons, ← List.append_assoc]
      exact ih _ hnext fun other hother => htexts other (by simp [hother])
  cases pieces with
  | nil => exact Chars.tight_nil
  | cons first rest =>
    exact hend (filled rest) _ (Chars.tight_trim first) fun text htext =>
      ⟨(mem_filled_iff.1 htext).2, tight_of_mem_filled htext⟩

theorem comma_of_cons_eq {c : Char} {cs : List Char} (h : c :: cs = rest.flatMap ([','] ++ ·)) :
    c = ',' := by
  cases rest with
  | nil => cases h
  | cons raw rest => exact (List.cons.inj h).1

/-- A piece before other pieces has all that comes before the first comma. -/
theorem exists_append_of_cons_eq {c : Char} {raw back : List Char} (hc : c ≠ ',')
    (h : c :: back = raw ++ rest.flatMap ([','] ++ ·)) :
    ∃ inner, raw = c :: inner ∧ back = inner ++ rest.flatMap ([','] ++ ·) := by
  cases raw with
  | nil => exact absurd (comma_of_cons_eq h) hc
  | cons d inner =>
    obtain ⟨rfl, hback⟩ := List.cons.inj h
    exact ⟨inner, rfl, hback⟩

/-- If what stands behind the first piece is put together as it was, together with the blanks at the
end of the first piece, there are no such blanks and the pieces are evenly spaced. In the induction
each piece hands the blanks at its end on to those behind it. -/
theorem spaced_of_flatMap_filled {blanks : List Char} (hblanks : blanks.all Chars.isBlank = true)
    (hcomma : ∀ raw ∈ rest, (Chars.trim raw).head? ≠ some ',')
    (h : (filled rest).flatMap ([',', ' '] ++ ·) = blanks ++ rest.flatMap ([','] ++ ·)) :
    blanks = [] ∧ ∃ texts : List (List Char), rest = texts.map (' ' :: ·) ∧
      ∀ text ∈ texts, text ≠ [] ∧ Tight text := by
  have hspace : Chars.isBlank ' ' = true := by decide
  induction rest generalizing blanks with
  | nil => exact ⟨by simpa [filled] using h.symm, [], rfl, by simp⟩
  | cons raw more ih =>
    cases hkept : filled (raw :: more) with
    | nil => simp [hkept] at h
    | cons text others =>
      obtain ⟨⟨piece, hpiece, htrim⟩, hne⟩ := mem_filled_iff.1 (hkept ▸ List.mem_cons_self)
      have htight : Tight text := htrim ▸ Chars.tight_trim piece
      have hstart : text.head? ≠ some ',' := htrim ▸ hcomma piece hpiece
      obtain ⟨t, ts, rfl⟩ := List.exists_cons_of_ne_nil hne
      have ht : Chars.isBlank t = false := by simpa using htight.head
      rw [hkept] at h
      -- A comma comes first, which is no blank.
      obtain rfl : blanks = [] := by
        cases blanks with
        | nil => rfl
        | cons b bs =>
          obtain ⟨rfl, -⟩ := List.cons.inj h
          have hfirst : Chars.isBlank ',' = true := (Bool.and_eq_true_iff.1 hblanks).1
          cases hfirst
      have hpieces : ' ' :: t :: (ts ++ others.flatMap ([',', ' '] ++ ·)) =
          raw ++ more.flatMap ([','] ++ ·) := by
        simpa using h
      -- The next piece begins with the space behind the comma and then as the text does.
      obtain ⟨spaced, rfl, hspaced⟩ := exists_append_of_cons_eq (by decide) hpieces
      obtain ⟨inner, rfl, hinner⟩ := exists_append_of_cons_eq (by simpa using hstart) hspaced
      have hraw : Chars.trim (' ' :: t :: inner) = t :: Chars.trimEnd inner := by
        rw [Chars.trim_cons_of_isBlank _ hspace, Chars.trim_cons_of_not_isBlank ht]
      rw [filled_cons_of_ne_nil (by simp [hraw]), hraw] at hkept
      obtain ⟨hsame, rfl⟩ := List.cons.inj hkept
      obtain ⟨-, rfl⟩ := List.cons.inj hsame
      obtain ⟨ending, hending, hend⟩ := Chars.exists_trimEnd_append inner
      have hnext : (filled more).flatMap ([',', ' '] ++ ·) =
          ending ++ more.flatMap ([','] ++ ·) := by
        conv_rhs at hinner => rw [hend, List.append_assoc]
        exact List.append_cancel_left hinner
      obtain ⟨rfl, texts, rfl, htexts⟩ :=
        ih hending (fun other hother => hcomma other (by simp [hother])) hnext
      rw [List.append_nil] at hend
      refine ⟨rfl, (t :: inner) :: texts, rfl, ?_⟩
      rintro text (_ | ⟨_, hm⟩)
      · rw [hend]
        exact ⟨by simp, htight⟩
      · exact htexts text hm

/-- A trimmed text is what becomes of it exactly if its commas are evenly spaced. -/
theorem rejoined_eq_iff (h : Tight value) : rejoined value = value ↔ EvenlySpaced value := by
  have hjoin := Scanner.join_cut ',' {} value
  have hcomma := (Scanner.head?_trim_cut {} value).1
  rw [rejoined, EvenlySpaced]
  cases hcut : Scanner.cut ',' {} value with
  | nil => exact absurd hcut (Scanner.cut_ne_nil ',' _ value)
  | cons first rest =>
    rw [hcut, Chars.join_eq_flatMap] at hjoin
    rw [hcut] at hcomma
    rw [rejoin]
    conv_lhs => rw [← hjoin]
    constructor
    · intro hsame
      have hhead : first.head?.any Chars.isBlank = false := by
        cases first with
        | nil => rfl
        | cons c first =>
          rw [← hjoin] at h
          simpa using h.head
      have htrim : Chars.trim first = Chars.trimEnd first := by
        rw [Chars.trim, Chars.trimStart_eq_self hhead]
      obtain ⟨blanks, hblanks, hfirst⟩ := Chars.exists_trimEnd_append first
      have hbehind : (filled rest).flatMap ([',', ' '] ++ ·) =
          blanks ++ rest.flatMap ([','] ++ ·) := by
        rw [htrim] at hsame
        conv_rhs at hsame => rw [hfirst, List.append_assoc]
        exact List.append_cancel_left hsame
      obtain ⟨rfl, texts, rfl, htexts⟩ := spaced_of_flatMap_filled hblanks hcomma hbehind
      rw [List.append_nil, ← htrim] at hfirst
      exact ⟨first, texts, rfl, hfirst ▸ Chars.tight_trim first, htexts⟩
    · rintro ⟨start, texts, hpieces, hstart, htexts⟩
      obtain ⟨rfl, rfl⟩ := List.cons.inj hpieces
      rw [hstart.trim_eq, filled_of_spaced htexts, List.flatMap_map]
      rfl

/-- A text that is read as itself is read as itself from what becomes of it exactly if its commas
are evenly spaced. -/
theorem ofChars_rejoined_iff {value : String} (htrim : Text.trim value = value)
    (h : FieldValue.coerce value = .text value) :
    FieldValue.ofChars (rejoined value.toList) = .text value ↔ EvenlySpaced value.toList := by
  have htight : Tight value.toList := by
    rw [← htrim, Text.trim, String.toList_ofList]
    exact Chars.tight_trim _
  rw [← rejoined_eq_iff htight]
  constructor
  · intro hread
    have hrejoined : Tight (rejoined value.toList) := tight_rejoin _
    rcases FieldValue.eq_of_ofChars hread with hquoted | hsame
    · have hlength := length_filter_of_decode? hquoted
      rw [hrejoined.trim_eq, filter_rejoined] at hlength
      omega
    · rw [hrejoined.trim_eq] at hsame
      exact hsame.symm
  · intro hsame
    rw [hsame]
    exact h

end Spacing

section Reading

variable {key value : String}

/-- A key without capital letters. -/
structure PlainKey (key : String) : Prop where
  isKey : isKey key.toList = true
  lower : Text.asciiLower key = key

example : ∀ key ∈ ["title", "instructions", "explanation", "difficulty", "category"],
    Field.isKey key.toList = true ∧ Text.asciiLower key = key := by decide

namespace PlainKey

variable (h : PlainKey key)

include h

theorem isIdentChar_or {c : Char} (hc : c ∈ key.toList) : Text.isIdentChar c = true ∨ c = '-' := by
  have hall := List.all_eq_true.1 (Bool.and_eq_true_iff.1 h.isKey).2 c hc
  rw [Bool.or_eq_true, beq_iff_eq] at hall
  exact hall

theorem isSpecial {c : Char} (hc : c ∈ key.toList) : Quoted.isSpecial c = false := by
  rcases h.isIdentChar_or hc with hident | rfl
  · exact isSpecial_of_isIdentChar hident
  · decide

theorem isBlank {c : Char} (hc : c ∈ key.toList) : Chars.isBlank c = false := by
  rcases h.isIdentChar_or hc with hident | rfl
  · exact isBlank_of_isIdentChar hident
  · decide

theorem exists_cons : ∃ c cs, key.toList = c :: cs := by
  have hne := (Bool.and_eq_true_iff.1 h.isKey).1
  exact List.exists_cons_of_ne_nil (by simpa using hne)

theorem tight : Tight key.toList :=
  Chars.tight_of_forall fun _ => h.isBlank

theorem neutral : Scanner.Neutral ',' key.toList :=
  Scanner.neutral_of_not_special (by decide) fun _ => h.isSpecial

end PlainKey

/-- What stands between a key and its value: white space and one of the signs. -/
structure Mark (gap : List Char) (sign : Char) : Prop where
  blank : gap.all Chars.isBlank = true
  sign : sign ∈ ['=', ':']

namespace PlainKey

variable {gap : List Char} {sign : Char} (h : PlainKey key) (hmark : Mark gap sign)

include h hmark

/-- Behind the key nothing is open. -/
theorem idle_gap : Scanner.Quiet ',' {} (key.toList ++ gap) ∧
    Scanner.Idle 0 (Scanner.run {} (key.toList ++ gap)) :=
  (h.neutral.append (Scanner.neutral_of_isBlank (by decide) hmark.blank)) 0 {}
    (Scanner.idle_start 0)

theorem step_sign : (Scanner.run {} (key.toList ++ gap)).step sign = (.plain, {}) := by
  obtain ⟨-, hidle⟩ := h.idle_gap hmark
  generalize Scanner.run {} (key.toList ++ gap) = s at hidle ⊢
  obtain ⟨quote, escaped, atValue, depth⟩ := s
  obtain ⟨rfl, rfl, rfl⟩ := hidle
  rcases List.mem_pair.1 hmark.sign with rfl | rfl
  · rw [Scanner.step_of_plain rfl (by decide) (by decide) (by decide) (by decide)]
    rfl
  · rw [Scanner.step_of_plain rfl (by decide) (by decide) (by decide) (by decide)]
    rfl

/-- Behind the key, its sign and a space a text is read from the start again. -/
theorem run_sign : Scanner.Quiet ',' {} (key.toList ++ gap ++ [sign, ' ']) ∧
    Scanner.run {} (key.toList ++ gap ++ [sign, ' ']) = {} := by
  obtain ⟨hquiet, -⟩ := h.idle_gap hmark
  have hsign := h.step_sign hmark
  have hspace : Scanner.step {} ' ' = (.plain, {}) := by decide
  have hcomma : sign ≠ ',' := by
    rcases List.mem_pair.1 hmark.sign with rfl | rfl <;> decide
  have hrest : Scanner.Quiet ',' (Scanner.run {} (key.toList ++ gap)) [sign, ' '] := by
    simp [Scanner.Quiet, hsign, hspace, hcomma]
  refine ⟨hquiet.append hrest, ?_⟩
  rw [Scanner.run_append]
  simp [hsign, hspace]

theorem ofChars_marked (rest : List Char) :
    Entry.ofChars (key.toList ++ gap ++ sign :: rest) = .keyed key (Chars.trim rest) := by
  have hneedles : ∀ c ∈ key.toList ++ gap, c ∉ ['=', ':'] := by
    intro c hc hneedle
    have hspecial : Quoted.isSpecial c = true ∧ Chars.isBlank c = false := by
      rcases List.mem_pair.1 hneedle with rfl | rfl
      · decide
      · decide
    rcases List.mem_append.1 hc with hkey | hgap
    · rw [h.isSpecial hkey] at hspecial
      cases hspecial.1
    · rw [List.all_eq_true.1 hmark.blank c hgap] at hspecial
      cases hspecial.2
  have hdepth := (h.idle_gap hmark).2.depth
  have htop : (Scanner.run {} (key.toList ++ gap)).atTop sign = true := by
    simp [Scanner.atTop, h.step_sign hmark, hdepth]
  have hfound : findTopLevel? ['=', ':'] (key.toList ++ gap ++ sign :: rest) =
      some (key.toList ++ gap, sign :: rest) := by
    rw [findTopLevel?, Scanner.find?_append_of_not_mem _ hneedles, Scanner.find?,
      if_pos (by rw [htop, List.contains_iff_mem.2 hmark.sign]; rfl)]
    simp
  have hlower : key.toList.map Char.toLower = key.toList := by
    rw [← String.toList_ofList (l := key.toList.map Char.toLower)]
    exact congrArg String.toList h.lower
  have htrim : Chars.trim (key.toList ++ gap) = key.toList := by
    have hpadded := @Chars.trim_padded [] gap rfl hmark.blank key.toList
    rwa [List.nil_append, h.tight.trim_eq] at hpadded
  rw [Entry.ofChars, hfound]
  simp only [htrim, hlower, h.isKey, if_true, List.tail_cons, String.ofList_toList]

end PlainKey

theorem entries_eq (line : List Char) :
    entries line = (filled (Scanner.cut ',' {} line)).map Entry.ofChars := by
  rw [entries, filled, ← map_text_splitTopLevel, List.filter_map, List.map_map]
  rfl

theorem gather_keyed (key : String) (value : List Char) (texts : List (List Char)) :
    Entry.gather (.keyed key value :: texts.map .loose) =
      ([], [(key, value ++ texts.flatMap ([',', ' '] ++ ·))]) := by
  have hloose : ∀ texts : List (List Char),
      Entry.gather (texts.map .loose) = (texts.flatMap ([',', ' '] ++ ·), []) := by
    intro texts
    induction texts with
    | nil => rfl
    | cons text texts ih =>
      rw [List.map_cons, Entry.gather, ih]
      simp
  rw [Entry.gather, hloose]

/-- A field whose value is cut at its commas. -/
theorem ofLine_marked {gap : List Char} {sign : Char} (hkey : PlainKey key) (hmark : Mark gap sign)
    (value : List Char)
    (hloose : ∀ piece ∈ (splitTopLevel ',' value).tail,
      findTopLevel? ['=', ':'] piece.text = none) :
    ofLine (key.toList ++ gap ++ [sign, ' '] ++ value) =
      ([⟨key, .ofChars (rejoined value)⟩], []) := by
  obtain ⟨hquiet, hrun⟩ := hkey.run_sign hmark
  obtain ⟨first, rest, hcut, hline⟩ := Scanner.cut_append_of_quiet hquiet value
  rw [hrun] at hcut
  have htexts : (filled rest).map Entry.ofChars = (filled rest).map .loose := by
    apply List.map_congr_left
    intro text htext
    obtain ⟨⟨raw, hraw, rfl⟩, -⟩ := mem_filled_iff.1 htext
    have hpieces : (splitTopLevel ',' value).tail.map (·.text) = rest.map Chars.trim := by
      rw [List.map_tail, map_text_splitTopLevel, hcut]
      rfl
    have hmem : Chars.trim raw ∈ (splitTopLevel ',' value).tail.map (·.text) := by
      rw [hpieces]
      exact List.mem_map_of_mem hraw
    obtain ⟨piece, hpiece, htrim⟩ := List.mem_map.1 hmem
    rw [← htrim, Entry.ofChars, hloose piece hpiece]
  have hsign : Chars.isBlank sign = false := by
    rcases List.mem_pair.1 hmark.sign with rfl | rfl <;> decide
  have hhead : (key.toList ++ gap).head?.any Chars.isBlank = false := by
    obtain ⟨c, cs, hc⟩ := hkey.exists_cons
    rw [hc, List.cons_append, List.head?_cons, Option.any_some]
    exact hkey.isBlank (by simp [hc])
  have hfirst : Chars.trim (key.toList ++ gap ++ [sign, ' '] ++ first) =
      key.toList ++ gap ++ sign :: Chars.trimEnd (' ' :: first) := by
    rw [List.append_assoc]
    exact Chars.trim_append_cons hhead hsign _
  have hne : Chars.trim (key.toList ++ gap ++ [sign, ' '] ++ first) ≠ [] := by
    rw [hfirst]
    simp
  have hvalue : Chars.trim (Chars.trimEnd (' ' :: first)) = Chars.trim first := by
    rw [Chars.trim_trimEnd, Chars.trim_cons_of_isBlank _ (by decide)]
  have hfound : entries (key.toList ++ gap ++ [sign, ' '] ++ value) =
      .keyed key (Chars.trim first) :: (filled rest).map .loose := by
    rw [entries_eq, hline, filled_cons_of_ne_nil hne, hfirst, List.map_cons,
      hkey.ofChars_marked hmark, hvalue, htexts]
  rw [ofLine, hfound, rejoined, hcut, rejoin]
  simp [Entry.isLoose, gather_keyed]

/-- A field with a colon behind its key. -/
theorem ofLine_keyed (hkey : PlainKey key) (value : List Char)
    (hloose : ∀ piece ∈ (splitTopLevel ',' value).tail,
      findTopLevel? ['=', ':'] piece.text = none) :
    ofLine (key.toList ++ [':', ' '] ++ value) = ([⟨key, .ofChars (rejoined value)⟩], []) := by
  have hmarked := ofLine_marked hkey (⟨rfl, by decide⟩ : Mark [] ':') value hloose
  rwa [List.append_nil] at hmarked

/-- A text of one line with a key, its sign and a value. -/
theorem parseAll_marked {gap : List Char} {sign : Char} (hkey : PlainKey key)
    (hmark : Mark gap sign) (hgap : '\n' ∉ gap) {value : List Char} (hline : '\n' ∉ value)
    (hloose : ∀ piece ∈ (splitTopLevel ',' value).tail,
      findTopLevel? ['=', ':'] piece.text = none) :
    parseAll (String.ofList (key.toList ++ gap ++ [sign, ' '] ++ value)) =
      ([⟨key, .ofChars (rejoined value)⟩], []) := by
  have hkeyed : '\n' ∉ key.toList := by
    intro hmem
    have hblank : Chars.isBlank '\n' = true := by decide
    rw [hkey.isBlank hmem] at hblank
    cases hblank
  have hsign : '\n' ≠ sign := by
    rcases List.mem_pair.1 hmark.sign with rfl | rfl <;> decide
  have hbreak : '\n' ∉ key.toList ++ gap ++ [sign, ' '] ++ value := by
    simp [hkeyed, hgap, hsign, hline]
  rw [parseAll, String.toList_ofList, Chars.lines_eq_singleton (by simp) hbreak, List.map_singleton,
    ofLine_marked hkey hmark value hloose]
  rfl

/-- A text that is read as itself is the value of its field as it stands exactly if its commas are
evenly spaced. -/
theorem parseAll_verbatim_iff (hkey : PlainKey key) (hline : '\n' ∉ value.toList)
    (htrim : Text.trim value = value) (hvalue : FieldValue.coerce value = .text value)
    (hloose : ∀ piece ∈ (splitTopLevel ',' value.toList).tail,
      findTopLevel? ['=', ':'] piece.text = none) :
    parseAll (key ++ ": " ++ value) = ([⟨key, .ofChars (rejoined value.toList)⟩], []) ∧
      (FieldValue.ofChars (rejoined value.toList) = .text value ↔ EvenlySpaced value.toList) := by
  refine ⟨?_, ofChars_rejoined_iff htrim hvalue⟩
  have htext : (key ++ ": " ++ value).toList = key.toList ++ [':', ' '] ++ value.toList := by
    simp
  have hbreak : '\n' ∉ key.toList ++ [':', ' '] ++ value.toList := by
    have hblank : Chars.isBlank '\n' = true := by decide
    have hkeyed : '\n' ∉ key.toList := by
      intro hmem
      rw [hkey.isBlank hmem] at hblank
      cases hblank
    simp [hkeyed, hline]
  rw [parseAll, htext, Chars.lines_eq_singleton (by simp) hbreak, List.map_singleton,
    ofLine_keyed hkey value.toList hloose]
  rfl

/-- A title with an apostrophe, commas in brackets and two commas that separate. -/
theorem parseAll_verbatim_iff_title :
    parseAll "title: Don't stop, (a,b) or [c,d], go" =
      ([⟨"title", .text "Don't stop, (a,b) or [c,d], go"⟩], []) := by
  have hspaced : EvenlySpaced "Don't stop, (a,b) or [c,d], go".toList :=
    ⟨"Don't stop".toList, ["(a,b) or [c,d]".toList, "go".toList], by decide,
      ⟨by decide, by decide⟩, by
        rintro text (_ | ⟨_, _ | ⟨_, _ | _⟩⟩)
        · exact ⟨by decide, by decide, by decide⟩
        · exact ⟨by decide, by decide, by decide⟩⟩
  have hkey : PlainKey "title" := ⟨by decide, by decide⟩
  have hvalue : FieldValue.coerce "Don't stop, (a,b) or [c,d], go" =
      .text "Don't stop, (a,b) or [c,d], go" := rfl
  obtain ⟨hparse, hiff⟩ :=
    parseAll_verbatim_iff hkey (by decide) (by decide) hvalue (by decide)
  rw [hiff.2 hspaced] at hparse
  exact hparse

/-- Commas without spaces get spaces. -/
theorem parseAll_adds_spaces :
    Text.trim "Ready,set,go" = "Ready,set,go" ∧
      FieldValue.coerce "Ready,set,go" = .text "Ready,set,go" ∧
      (∀ piece ∈ (splitTopLevel ',' "Ready,set,go".toList).tail,
        findTopLevel? ['=', ':'] piece.text = none) ∧
      parseAll "title: Ready,set,go" = ([⟨"title", .text "Ready, set, go"⟩], []) ∧
      parseAll "title: Ready,set,go" ≠ ([⟨"title", .text "Ready,set,go"⟩], []) := by
  have hparse : parseAll "title: Ready,set,go" = ([⟨"title", .text "Ready, set, go"⟩], []) := rfl
  refine ⟨by decide, rfl, by decide, hparse, ?_⟩
  rw [hparse]
  simp

end Reading

end Field

end Worksheet
