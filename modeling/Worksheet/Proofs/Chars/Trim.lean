import Mathlib.Data.List.Induction
import Worksheet.Chars.Blank

namespace Worksheet.Chars

/-- No white space at either end. -/
structure Tight (cs : List Char) : Prop where
  head : cs.head?.any isBlank = false
  last : cs.getLast?.any isBlank = false

theorem tight_nil : Tight [] := ⟨rfl, rfl⟩

/-- What holds of all code points in the ranges of white space holds of all white space. -/
theorem of_isBlank {q : Nat → Prop}
    (h : ∀ r ∈ blankRanges, ∀ i ∈ List.range (r.2 - r.1 + 1), q (r.1 + i)) {c : Char}
    (hc : isBlank c = true) : q c.toNat := by
  obtain ⟨r, hr, hlow, hhigh⟩ := inRanges_spec hc
  have hq := h r hr (c.toNat - r.1) (List.mem_range.2 (by omega))
  rwa [Nat.add_sub_cancel' hlow] at hq

theorem trimStart_eq_self {cs : List Char} (h : cs.head?.any isBlank = false) :
    trimStart cs = cs := by
  cases cs with
  | nil => rfl
  | cons c cs =>
    have hc : isBlank c = false := by simpa using h
    simp [trimStart, hc]

theorem trimEnd_eq_self {cs : List Char} (h : cs.getLast?.any isBlank = false) :
    trimEnd cs = cs := by
  have hr : cs.reverse.head?.any isBlank = false := by rwa [List.head?_reverse]
  have hd : cs.reverse.dropWhile isBlank = cs.reverse := trimStart_eq_self hr
  rw [trimEnd, hd, List.reverse_reverse]

theorem Tight.trim_eq {cs : List Char} (h : Tight cs) : trim cs = cs := by
  rw [trim, trimStart_eq_self h.head, trimEnd_eq_self h.last]

theorem head?_trimStart (cs : List Char) : (trimStart cs).head?.any isBlank = false := by
  induction cs with
  | nil => rfl
  | cons c cs ih =>
    by_cases hc : isBlank c = true
    · simpa [trimStart, hc] using ih
    · simp [trimStart, hc]

theorem getLast?_trimEnd (cs : List Char) : (trimEnd cs).getLast?.any isBlank = false := by
  rw [trimEnd, List.getLast?_reverse]
  exact head?_trimStart cs.reverse

theorem trimEnd_isPrefix (cs : List Char) : trimEnd cs <+: cs := by
  rw [trimEnd, ← List.reverse_suffix, List.reverse_reverse]
  exact List.dropWhile_suffix _

theorem head?_trim (cs : List Char) : (trim cs).head?.any isBlank = false := by
  obtain ⟨rest, hrest⟩ := trimEnd_isPrefix (trimStart cs)
  have hs := head?_trimStart cs
  rw [← hrest] at hs
  cases ht : trimEnd (trimStart cs) with
  | nil => simp [trim, ht]
  | cons c ds =>
    rw [ht] at hs
    simpa [trim, ht] using hs

theorem tight_trim (cs : List Char) : Tight (trim cs) :=
  ⟨head?_trim cs, getLast?_trimEnd _⟩

@[simp] theorem trim_trim (cs : List Char) : trim (trim cs) = trim cs :=
  (tight_trim cs).trim_eq

theorem mem_of_mem_trim {c : Char} {cs : List Char} (h : c ∈ trim cs) : c ∈ cs := by
  have hs : c ∈ trimStart cs := (trimEnd_isPrefix _).subset h
  exact (List.dropWhile_suffix _).subset hs

theorem trim_cons_of_isBlank {c : Char} (cs : List Char) (h : isBlank c = true) :
    trim (c :: cs) = trim cs := by
  simp [trim, trimStart, h]

theorem trimEnd_append_of_isBlank {c : Char} (cs : List Char) (h : isBlank c = true) :
    trimEnd (cs ++ [c]) = trimEnd cs := by
  simp [trimEnd, h]

theorem trim_append_of_isBlank {c : Char} (cs : List Char) (h : isBlank c = true) :
    trim (cs ++ [c]) = trim cs := by
  induction cs with
  | nil => simp [trim, trimStart, trimEnd, h]
  | cons d ds ih =>
    by_cases hd : isBlank d = true
    · rw [List.cons_append, trim_cons_of_isBlank _ hd, ih, trim_cons_of_isBlank _ hd]
    · have hs : ∀ es : List Char, trimStart (d :: es) = d :: es := fun es => by
        simp [trimStart, hd]
      rw [trim, trim, List.cons_append, hs, hs, ← List.cons_append, trimEnd_append_of_isBlank _ h]

/-- What stands before a character that is not blank stays as it is. -/
theorem trimEnd_append_cons {c : Char} (hc : isBlank c = false) (xs ys : List Char) :
    trimEnd (xs ++ c :: ys) = xs ++ c :: trimEnd ys := by
  induction ys using List.reverseRecOn with
  | nil =>
    have hend : trimEnd [] = [] := rfl
    rw [hend, trimEnd_eq_self (by simp [hc])]
  | append_singleton ys d ih =>
    rw [← List.cons_append, ← List.append_assoc]
    by_cases hd : isBlank d = true
    · rw [trimEnd_append_of_isBlank _ hd, trimEnd_append_of_isBlank _ hd, ih]
    · have hlast : ∀ zs : List Char, trimEnd (zs ++ [d]) = zs ++ [d] := fun zs =>
        trimEnd_eq_self (by simp [hd])
      rw [hlast, hlast, List.append_assoc, List.cons_append]

theorem trim_append_cons {c : Char} {xs : List Char} (hx : xs.head?.any isBlank = false)
    (hc : isBlank c = false) (ys : List Char) : trim (xs ++ c :: ys) = xs ++ c :: trimEnd ys := by
  have hhead : (xs ++ c :: ys).head?.any isBlank = false := by
    cases xs with
    | nil => simpa using hc
    | cons x xs => simpa using hx
  rw [trim, trimStart_eq_self hhead, trimEnd_append_cons hc]

theorem trim_cons_of_not_isBlank {c : Char} (hc : isBlank c = false) (cs : List Char) :
    trim (c :: cs) = c :: trimEnd cs :=
  @trim_append_cons c [] rfl hc cs

/-- White space around a text does not matter. -/
theorem trim_padded {before after : List Char} (hbefore : before.all isBlank = true)
    (hafter : after.all isBlank = true) (cs : List Char) :
    trim (before ++ cs ++ after) = trim cs := by
  induction before with
  | nil =>
    induction after using List.reverseRecOn with
    | nil => rw [List.append_nil, List.nil_append]
    | append_singleton rest c ih =>
      obtain ⟨hrest, hc⟩ : rest.all isBlank = true ∧ isBlank c = true := by simpa using hafter
      rw [← List.append_assoc, trim_append_of_isBlank _ hc, ih hrest]
  | cons c rest ih =>
    obtain ⟨hc, hrest⟩ : isBlank c = true ∧ rest.all isBlank = true := by simpa using hbefore
    rw [List.cons_append, List.cons_append, trim_cons_of_isBlank _ hc, ih hrest]

theorem exists_trimEnd_append (cs : List Char) :
    ∃ blanks, blanks.all isBlank = true ∧ cs = trimEnd cs ++ blanks := by
  refine ⟨(cs.reverse.takeWhile isBlank).reverse, ?_, ?_⟩
  · rw [List.all_reverse]
    exact List.all_takeWhile
  · rw [trimEnd, ← List.reverse_append, List.takeWhile_append_dropWhile, List.reverse_reverse]

theorem trim_trimEnd (cs : List Char) : trim (trimEnd cs) = trim cs := by
  obtain ⟨blanks, hblanks, hcs⟩ := exists_trimEnd_append cs
  have hpadded := @trim_padded [] blanks rfl hblanks (trimEnd cs)
  rw [List.nil_append, ← hcs] at hpadded
  exact hpadded.symm

theorem trim_isInfix (cs : List Char) : trim cs <:+: cs := by
  have hend : trim cs <+: trimStart cs := trimEnd_isPrefix _
  have hstart : trimStart cs <:+ cs := List.dropWhile_suffix _
  exact hend.isInfix.trans hstart.isInfix

/-- What does not depend on a blank at either end does not depend on trimming. -/
theorem apply_trim {α : Type} {f : List Char → α}
    (hstart : ∀ c cs, isBlank c = true → f (c :: cs) = f cs)
    (hend : ∀ c cs, isBlank c = true → f (cs ++ [c]) = f cs) (cs : List Char) :
    f (trim cs) = f cs := by
  have hdrop : ∀ xs : List Char, f (trimStart xs) = f xs := by
    intro xs
    induction xs with
    | nil => rfl
    | cons x xs ih =>
      by_cases hx : isBlank x = true
      · have hs : trimStart (x :: xs) = trimStart xs := by simp [trimStart, hx]
        rw [hs, ih, hstart x xs hx]
      · have hs : trimStart (x :: xs) = x :: xs := by simp [trimStart, hx]
        rw [hs]
  have hcut : ∀ xs : List Char, f (trimEnd xs) = f xs := by
    intro xs
    induction xs using List.reverseRecOn with
    | nil => rfl
    | append_singleton xs x ih =>
      by_cases hx : isBlank x = true
      · rw [trimEnd_append_of_isBlank xs hx, ih, hend x xs hx]
      · have ht : trimEnd (xs ++ [x]) = xs ++ [x] := by simp [trimEnd, hx]
        rw [ht]
  rw [trim, hcut, hdrop]

theorem mem_trim_iff {c : Char} (hc : isBlank c = false) {cs : List Char} :
    c ∈ trim cs ↔ c ∈ cs := by
  have hne : ∀ d : Char, isBlank d = true → c ≠ d := by
    rintro d hd rfl
    exact absurd hd (by simp [hc])
  have h : (c ∈ trim cs) = (c ∈ cs) := by
    apply apply_trim (f := fun xs => c ∈ xs)
    · intro d xs hd
      simp [hne d hd]
    · intro d xs hd
      simp [hne d hd]
  rw [h]

/-- Nothing is left of a text exactly if it is blank. -/
theorem trim_eq_nil_iff {cs : List Char} : trim cs = [] ↔ cs.all isBlank = true := by
  rw [List.all_eq_true]
  constructor
  · intro h c hc
    by_contra hb
    have hm : c ∈ trim cs := (mem_trim_iff (Bool.eq_false_iff.2 hb)).2 hc
    simp [h] at hm
  · intro h
    have hhead := head?_trim cs
    cases ht : trim cs with
    | nil => rfl
    | cons c rest =>
      have hc : isBlank c = true := h c (mem_of_mem_trim (by simp [ht]))
      simp [ht, hc] at hhead

theorem tight_of_forall {cs : List Char} (h : ∀ c ∈ cs, isBlank c = false) : Tight cs := by
  constructor
  · cases hc : cs.head? with
    | none => rfl
    | some c => simpa using h c (List.mem_of_head? hc)
  · cases hc : cs.getLast? with
    | none => rfl
    | some c => simpa using h c (List.mem_of_getLast? hc)

/-- Two texts that are not blank at their outer ends, with anything between them. -/
theorem Tight.append {xs ys : List Char} (hx : Tight xs) (hy : Tight ys) (hxs : xs ≠ [])
    (hys : ys ≠ []) (mid : List Char) : Tight (xs ++ mid ++ ys) := by
  obtain ⟨x, rest, rfl⟩ := List.exists_cons_of_ne_nil hxs
  constructor
  · simpa using hx.head
  · have hlast : (x :: rest ++ mid ++ ys).getLast? = ys.getLast? := by
      rw [List.getLast?_append]
      cases hl : ys.getLast? with
      | none => exact absurd (List.getLast?_eq_none_iff.1 hl) hys
      | some y => rfl
    rw [hlast]
    exact hy.last

end Worksheet.Chars
