import Worksheet.Proofs.Block.Braces
import Worksheet.Proofs.Chars.Trim

namespace Worksheet

namespace Chars

theorem isBlank_return : isBlank '\r' = true := by decide

theorem trim_dropReturn (cs : List Char) : trim (dropReturn cs) = trim cs := by
  rw [dropReturn]
  cases h : stripLast? '\r' cs with
  | none => rfl
  | some before =>
    have hcs := append_of_stripLast? h
    rw [← hcs, Option.getD_some, trim_append_of_isBlank before isBlank_return]

theorem splitLast_append_of_ne {sep c : Char} (hc : c ≠ sep) (cs : List Char) :
    splitLast sep (cs ++ [c]) = (splitLast sep cs).map fun p => (p.1, p.2 ++ [c]) := by
  induction cs with
  | nil => simp [splitLast, hc]
  | cons d cs ih =>
    rw [List.cons_append, splitLast, splitLast, ih]
    cases splitLast sep cs with
    | some p => rfl
    | none =>
      by_cases hd : d = sep
      · simp [hd]
      · simp [hd]

/-- White space around a text is not part of what stands before the last occurrence of a visible
character, but for white space at its beginning. -/
theorem map_trim_splitLast_trim {sep : Char} (hsep : isBlank sep = false) (cs : List Char) :
    (splitLast sep (trim cs)).map (fun p => trim p.1) =
      (splitLast sep cs).map fun p => trim p.1 := by
  have hne : ∀ c, isBlank c = true → c ≠ sep := by
    rintro c hc rfl
    rw [hsep] at hc
    cases hc
  apply apply_trim (f := fun xs => (splitLast sep xs).map fun p => trim p.1)
  · intro c xs hc
    rw [splitLast]
    cases splitLast sep xs with
    | some p =>
      have htrim := trim_cons_of_isBlank p.1 hc
      simpa using htrim
    | none => simp [hne c hc]
  · intro c xs hc
    rw [splitLast_append_of_ne (hne c hc), Option.map_map]
    rfl

end Chars

theorem braceBalance_append_of_isBlank {c : Char} (hc : Chars.isBlank c = true) (cs : List Char)
    (inString escaped : Bool) :
    braceBalance inString escaped (cs ++ [c]) = braceBalance inString escaped cs := by
  have hne : ∀ d, Chars.isBlank d = false → c ≠ d := by
    rintro d hd rfl
    rw [hd] at hc
    cases hc
  have hopen : c ≠ '\x7b' := hne _ (by decide)
  have hclose : c ≠ '\x7d' := hne _ (by decide)
  induction cs generalizing inString escaped with
  | nil => cases inString <;> cases escaped <;> simp [braceBalance, hopen, hclose]
  | cons d cs ih =>
    rw [List.cons_append, braceBalance, braceBalance]
    simp only [ih]

/-- White space around a line opens and closes nothing. -/
theorem braceBalance_trim (cs : List Char) :
    braceBalance false false (Chars.trim cs) = braceBalance false false cs := by
  apply Chars.apply_trim (f := braceBalance false false)
  · intro c xs hc
    have hne : ∀ d, Chars.isBlank d = false → c ≠ d := by
      rintro d hd rfl
      rw [hd] at hc
      cases hc
    have hquote : c ≠ '"' := hne _ (by decide)
    have hopen : c ≠ '\x7b' := hne _ (by decide)
    have hclose : c ≠ '\x7d' := hne _ (by decide)
    simp [braceBalance, hquote, hopen, hclose]
  · intro c xs hc
    exact braceBalance_append_of_isBlank hc xs false false

/-- Two scripts with equally many lines that are the same but for white space at their ends. -/
def SameLayout (a b : String) : Prop :=
  (Chars.splitOn '\n' a.toList).map Chars.trim = (Chars.splitOn '\n' b.toList).map Chars.trim

instance (a b : String) : Decidable (SameLayout a b) :=
  inferInstanceAs (Decidable (_ = _))

namespace SourceLine

/-- Lines of one number that are the same but for white space at their ends. -/
structure Alike (k l : SourceLine) : Prop where
  number : k.number = l.number
  text : Text.trim k.text = Text.trim l.text

theorem alike_enumerate {raws others : List (List Char)}
    (h : raws.map Chars.trim = others.map Chars.trim) (number start start' : Nat) :
    List.Forall₂ Alike (enumerate number start raws) (enumerate number start' others) := by
  induction raws generalizing others number start start' with
  | nil =>
    obtain rfl : others = [] := by simpa using h.symm
    exact .nil
  | cons raw rest ih =>
    cases others with
    | nil => cases h
    | cons other others =>
      obtain ⟨hfirst, hrest⟩ := List.cons.inj h
      refine .cons ⟨rfl, ?_⟩ (ih hrest _ _ _)
      have htrim : Chars.trim (Chars.dropReturn raw) = Chars.trim (Chars.dropReturn other) := by
        rw [Chars.trim_dropReturn, Chars.trim_dropReturn, hfirst]
      simp [Text.trim, htrim]

theorem alike_ofScript {a b : String} (h : SameLayout a b) :
    List.Forall₂ Alike (ofScript a) (ofScript b) :=
  alike_enumerate h 1 0 0

namespace Alike

variable {k l : SourceLine} (h : Alike k l)

include h

theorem trim_toList : Chars.trim k.text.toList = Chars.trim l.text.toList := by
  have htext := congrArg String.toList h.text
  simpa [Text.trim] using htext

theorem braceBalance_eq :
    braceBalance false false k.text.toList = braceBalance false false l.text.toList := by
  rw [← braceBalance_trim, h.trim_toList, braceBalance_trim]

/-- What stands before the last closing brace. -/
theorem map_trim_splitLast : (Chars.splitLast '\x7d' k.text.toList).map (fun p => Chars.trim p.1) =
    (Chars.splitLast '\x7d' l.text.toList).map fun p => Chars.trim p.1 := by
  have hbrace : Chars.isBlank '\x7d' = false := by decide
  rw [← Chars.map_trim_splitLast_trim hbrace, h.trim_toList, Chars.map_trim_splitLast_trim hbrace]

end Alike

end SourceLine

end Worksheet
