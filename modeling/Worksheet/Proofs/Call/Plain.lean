import Worksheet.Marker
import Worksheet.Proofs.Call.Arguments

namespace Worksheet

namespace CallStyle

theorem isIdentifier_of_named? {cs name rest : List Char} (h : named? cs = some (name, rest)) :
    isIdentifier name = true := by
  have hall : ∀ c ∈ cs.takeWhile Text.isIdentChar, Text.isIdentChar c = true :=
    List.all_eq_true.1 List.all_takeWhile
  rw [named?] at h
  split at h
  · rename_i first tail after hname hafter
    split at h
    · rename_i hfirst
      obtain ⟨rfl, -⟩ := Prod.mk.inj (Option.some.inj h)
      rw [hname] at hall
      simp only [isIdentifier, Bool.and_eq_true, List.all_eq_true]
      exact ⟨by simpa using hfirst, hall⟩
    · cases h
  · cases h

theorem isSome_opening?_iff {prev : Option Char} {cs : List Char} :
    (marked.opening? prev cs).isSome = true ↔
      ∃ name after, cs = '@' :: (name ++ '(' :: after) ∧ isIdentifier name = true ∧
        prev.any Text.isIdentChar = false := by
  constructor
  · intro h
    rw [opening?.eq_def] at h
    dsimp only at h
    split at h
    · rename_i rest
      split at h
      · cases h
      · rename_i hprev
        obtain ⟨⟨name, after⟩, hname⟩ := Option.isSome_iff_exists.1 h
        refine ⟨name, after, ?_, isIdentifier_of_named? hname, by simpa using hprev⟩
        rw [named?_append hname]
    · cases h
  · rintro ⟨name, after, rfl, hname, hprev⟩
    rw [opening?, hprev, named?_of_isIdentifier hname]
    rfl

theorem isSome_opening?_append {prev : Option Char} {cs : List Char} (more : List Char)
    (h : (marked.opening? prev cs).isSome = true) :
    (marked.opening? prev (cs ++ more)).isSome = true := by
  obtain ⟨name, after, rfl, hname, hprev⟩ := isSome_opening?_iff.1 h
  exact isSome_opening?_iff.2 ⟨name, after ++ more, by simp, hname, hprev⟩

end CallStyle

/-- An at sign, an identifier and an opening parenthesis stand in a text, given the character before
the text, and the at sign does not continue an identifier. -/
def HasOpening (prev : Option Char) (cs : List Char) : Prop :=
  ∃ before name after, cs = before ++ '@' :: (name ++ '(' :: after) ∧ isIdentifier name = true ∧
    (before.getLast?.or prev).any Text.isIdentChar = false

theorem opensCall_iff {prev : Option Char} {cs : List Char} :
    opensCall prev cs = true ↔ HasOpening prev cs := by
  induction cs generalizing prev with
  | nil =>
    constructor
    · intro h
      cases h
    · rintro ⟨before, name, after, h, -⟩
      exact absurd h.symm (by simp)
  | cons c cs ih =>
    rw [opensCall, Bool.or_eq_true, CallStyle.isSome_opening?_iff, ih]
    constructor
    · rintro (⟨name, after, h, hname, hprev⟩ | ⟨before, name, after, rfl, hname, hlast⟩)
      · exact ⟨[], name, after, h, hname, hprev⟩
      · refine ⟨c :: before, name, after, rfl, hname, ?_⟩
        rw [List.getLast?_cons]
        cases hb : before.getLast? <;> simpa [hb] using hlast
    · rintro ⟨before, name, after, h, hname, hlast⟩
      cases before with
      | nil => exact Or.inl ⟨name, after, h, hname, hlast⟩
      | cons first before =>
        obtain ⟨rfl, rfl⟩ := List.cons.inj h
        refine Or.inr ⟨before, name, after, rfl, hname, ?_⟩
        rw [List.getLast?_cons] at hlast
        cases hb : before.getLast? <;> simpa [hb] using hlast

theorem opensCall_of_append {prev : Option Char} {xs ys : List Char}
    (h : opensCall prev (xs ++ ys) = false) : opensCall prev xs = false := by
  rw [Bool.eq_false_iff] at h ⊢
  intro hopen
  obtain ⟨before, name, after, rfl, hname, hlast⟩ := opensCall_iff.1 hopen
  exact h (opensCall_iff.2 ⟨before, name, after ++ ys, by simp, hname, hlast⟩)

/-- The character before a text matters only if it belongs to an identifier. -/
theorem opensCall_congr {prev other : Option Char}
    (h : prev.any Text.isIdentChar = other.any Text.isIdentChar) (cs : List Char) :
    opensCall prev cs = opensCall other cs := by
  cases cs with
  | nil => rfl
  | cons c rest =>
    have hopen : CallStyle.marked.opening? prev (c :: rest) =
        CallStyle.marked.opening? other (c :: rest) := by
      simp only [CallStyle.opening?, h]
    rw [opensCall, opensCall, hopen]

/-- A character that stands neither in the beginning of a call nor in an identifier before it. -/
structure Breaks (c : Char) : Prop where
  ident : Text.isIdentChar c = false
  sign : c ≠ '@'
  paren : c ≠ '('

theorem Breaks.not_mem {c : Char} (hc : Breaks c) {name : List Char}
    (hname : isIdentifier name = true) : c ∉ '@' :: (name ++ ['(']) := by
  have hall : c ∉ name := by
    intro hm
    simp only [isIdentifier, Bool.and_eq_true, List.all_eq_true] at hname
    exact absurd (hname.2 c hm) (by simp [hc.ident])
  simp [hc.sign, hc.paren, hall]

theorem CallStyle.isSome_opening?_append_cons {prev : Option Char} {c : Char} (hc : Breaks c)
    (xs ys : List Char) :
    (marked.opening? prev (xs ++ c :: ys)).isSome = (marked.opening? prev xs).isSome := by
  rw [Bool.eq_iff_iff]
  refine ⟨fun h => ?_, isSome_opening?_append (c :: ys)⟩
  obtain ⟨name, after, heq, hname, hprev⟩ := isSome_opening?_iff.1 h
  have hwhole : xs ++ c :: ys = ('@' :: (name ++ ['('])) ++ after := by simp [heq]
  refine isSome_opening?_iff.2 ?_
  rcases List.append_eq_append_iff.1 hwhole with ⟨more, hhead, htail⟩ | ⟨more, rfl, -⟩
  · cases more with
    | nil => exact ⟨name, [], by simpa using hhead.symm, hname, hprev⟩
    | cons d more =>
      obtain ⟨rfl, -⟩ := List.cons.inj htail
      exact absurd (by simp [hhead]) (hc.not_mem hname)
  · exact ⟨name, more, by simp, hname, hprev⟩

/-- A call begins before such a character or after it. -/
theorem opensCall_append_cons {prev : Option Char} {c : Char} (hc : Breaks c)
    (xs ys : List Char) :
    opensCall prev (xs ++ c :: ys) = (opensCall prev xs || opensCall none ys) := by
  induction xs generalizing prev with
  | nil =>
    have hfirst : (CallStyle.marked.opening? prev (c :: ys)).isSome = false :=
      CallStyle.isSome_opening?_append_cons hc [] ys
    have hafter : opensCall (some c) ys = opensCall none ys :=
      opensCall_congr (by simp [hc.ident]) ys
    show ((CallStyle.marked.opening? prev (c :: ys)).isSome || opensCall (some c) ys) = _
    rw [hfirst, hafter]
    rfl
  | cons x xs ih =>
    have hfirst : (CallStyle.marked.opening? prev (x :: (xs ++ c :: ys))).isSome =
        (CallStyle.marked.opening? prev (x :: xs)).isSome :=
      CallStyle.isSome_opening?_append_cons hc (x :: xs) ys
    rw [List.cons_append, opensCall, opensCall, hfirst, ih, Bool.or_assoc]

/-- A call begins in a text exactly if one begins in a piece between such characters. -/
theorem opensCall_splitWhere {p : Char → Bool} (hp : ∀ c, p c = true → Breaks c)
    (cs : List Char) :
    opensCall none cs = (Chars.splitWhere p cs).any (opensCall none) := by
  induction hn : cs.length using Nat.strongRecOn generalizing cs with
  | ind n ih =>
    subst hn
    by_cases hsep : ∃ c ∈ cs, p c = true
    · obtain ⟨c, hmem, hc⟩ := hsep
      obtain ⟨xs, ys, rfl⟩ := List.append_of_mem hmem
      have hxs := ih xs.length (by simp) xs rfl
      have hys := ih ys.length (by simp; omega) ys rfl
      rw [opensCall_append_cons (hp c hc), Chars.splitWhere_append_cons xs ys hc, List.any_append,
        hxs, hys]
    · have hnone : ∀ c ∈ cs, p c = false := by simpa using hsep
      rw [Chars.splitWhere_eq_singleton hnone]
      simp

theorem breaks_of_isBlank {c : Char} (hc : Chars.isBlank c = true) : Breaks c := by
  have hnone : ∀ r ∈ Chars.blankRanges, ∀ i ∈ List.range (r.2 - r.1 + 1),
      Text.isIdentChar (Char.ofNat (r.1 + i)) = false := by
    decide +kernel
  have hn : Text.isIdentChar (Char.ofNat c.toNat) = false :=
    Chars.of_isBlank (q := fun n => Text.isIdentChar (Char.ofNat n) = false) hnone hc
  rw [Char.ofNat_toNat] at hn
  refine ⟨hn, ?_, ?_⟩ <;> rintro rfl <;> exact absurd hc (by decide)

theorem opensCall_trim (cs : List Char) :
    opensCall none (Chars.trim cs) = opensCall none cs := by
  apply Chars.apply_trim
  · intro c cs hc
    exact opensCall_append_cons (breaks_of_isBlank hc) [] cs
  · intro c cs hc
    rw [opensCall_append_cons (breaks_of_isBlank hc)]
    exact Bool.or_false _

/-- If no call begins in a text, none begins in one of its lines. -/
theorem opensCall_of_mem_splitOn {cs line : List Char} (h : opensCall none cs = false)
    (hl : line ∈ Chars.splitOn '\n' cs) : opensCall none line = false := by
  have hbreak : ∀ c, (c == '\n') = true → Breaks c := by
    intro c hc
    rw [eq_of_beq hc]
    exact breaks_of_isBlank (by decide)
  rw [opensCall_splitWhere hbreak, List.any_eq_false] at h
  simpa using h line hl

namespace CallStyle

/-- Nothing is cut where no call begins. -/
theorem scan_of_not_opensCall {prev : Option Char} {start : Nat} {cs : List Char}
    (h : opensCall prev cs = false) : marked.scan prev start cs = .ok ⟨cs, []⟩ := by
  induction cs generalizing prev start with
  | nil => exact scan_nil _ _ _
  | cons c rest ih =>
    rw [opensCall, Bool.or_eq_false_iff] at h
    obtain ⟨hfirst, hrest⟩ := h
    rw [scan]
    split
    · rw [ih hrest]
      rfl
    · rename_i name tail hopen
      rw [hopen] at hfirst
      cases hfirst

end CallStyle

namespace Call

theorem segment_of_not_occursIn {text : String} (h : occursIn text = false) :
    segment text = .ok ⟨text.toList, []⟩ := by
  rw [segment, segmentWith, CallStyle.scan_of_not_opensCall h]
  rfl

theorem occursIn_of_isPrefix {start text : String} (h : start.toList <+: text.toList)
    (ht : occursIn text = false) : occursIn start = false := by
  obtain ⟨rest, hrest⟩ := h
  rw [occursIn, ← hrest] at ht
  exact opensCall_of_append ht

theorem occursIn_trim (text : String) : occursIn (Text.trim text) = occursIn text := by
  rw [occursIn, Text.trim, String.toList_ofList]
  exact opensCall_trim text.toList

end Call

/-- A text without calls has no decorators to be taken out. -/
theorem Marker.extract_of_not_occursIn {text : String} (h : Call.occursIn text = false) :
    Marker.extract text = .ok (text, []) := by
  have hrest : ∀ f, (⟨text.toList, []⟩ : Segmented (Call × Option Marker)).render f =
      text.toList := by
    intro f
    simp [Segmented.render]
  rw [Marker.extract, Call.segment_of_not_occursIn h]
  simp [bind, Except.bind, pure, Except.pure, hrest]

end Worksheet
