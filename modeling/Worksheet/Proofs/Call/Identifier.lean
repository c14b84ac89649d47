import Worksheet.Proofs.Call.Plain
import Worksheet.Proofs.Chars.AsciiCase

namespace Worksheet

theorem isBlank_of_isIdentChar {c : Char} (h : Text.isIdentChar c = true) :
    Chars.isBlank c = false := by
  rw [Bool.eq_false_iff]
  intro hblank
  rw [(breaks_of_isBlank hblank).ident] at h
  cases h

theorem isSpecial_of_isIdentChar {c : Char} (h : Text.isIdentChar c = true) :
    Quoted.isSpecial c = false := by
  rw [Bool.eq_false_iff]
  intro hspecial
  have hnone : [',', '(', ')', '[', ']', '\x7b', '\x7d', '"', '\'', '=', ':', '@', '|'].all
      (!Text.isIdentChar ·) = true := by decide
  have hc := List.all_eq_true.1 hnone c (by simpa [Quoted.isSpecial] using hspecial)
  rw [h] at hc
  cases hc

theorem isDigit_of_isIdentStart {c : Char} (h : Text.isIdentStart c = true) :
    c.isDigit = false := by
  have hcases : ((65 ≤ c.toNat ∧ c.toNat ≤ 90) ∨ (97 ≤ c.toNat ∧ c.toNat ≤ 122)) ∨ c = '_' := by
    simpa [Text.isIdentStart, Char.isAlpha, Char.isUpper, Char.isLower,
      UInt32.le_iff_toNat_le] using h
  obtain hletter | rfl := hcases
  · simp only [Char.isDigit, Bool.and_eq_false_iff, decide_eq_false_iff_not, ge_iff_le,
      UInt32.le_iff_toNat_le]
    right
    show ¬ c.toNat ≤ 57
    omega
  · rfl

/-- An identifier that is a name where a value may stand, too: not a word for a truth value. -/
structure IsVariableName (name : String) : Prop where
  identifier : isIdentifier name.toList = true
  ne_true : Text.asciiLower name ≠ "true"
  ne_false : Text.asciiLower name ≠ "false"

namespace IsVariableName

variable {name : String} (h : IsVariableName name)

include h

theorem exists_cons : ∃ first rest, name.toList = first :: rest ∧
    Text.isIdentStart first = true := by
  have hhead := (Bool.and_eq_true_iff.1 h.identifier).1
  cases hname : name.toList with
  | nil =>
    rw [hname] at hhead
    cases hhead
  | cons first rest =>
    rw [hname] at hhead
    exact ⟨first, rest, rfl, hhead⟩

theorem isIdentChar_of_mem : ∀ c ∈ name.toList, Text.isIdentChar c = true := by
  have hall := (Bool.and_eq_true_iff.1 h.identifier).2
  simpa using hall

theorem ne_of_mem {c d : Char} (hc : c ∈ name.toList) (hd : Quoted.isSpecial d = true) :
    c ≠ d := by
  rintro rfl
  rw [isSpecial_of_isIdentChar (h.isIdentChar_of_mem c hc)] at hd
  cases hd

theorem tight : Chars.Tight name.toList :=
  Chars.tight_of_forall fun c hc => isBlank_of_isIdentChar (h.isIdentChar_of_mem c hc)

theorem trim_eq : Text.trim name = name := by
  rw [Text.trim, h.tight.trim_eq, String.ofList_toList]

theorem isEmpty_eq_false : name.isEmpty = false := by
  obtain ⟨first, rest, hname, -⟩ := h.exists_cons
  rw [Bool.eq_false_iff, ne_eq, String.isEmpty_iff]
  rintro rfl
  cases hname

theorem not_occursIn : Call.occursIn name = false := by
  rw [Call.occursIn, Bool.eq_false_iff]
  intro hopen
  obtain ⟨before, called, after, hname, -, -⟩ := opensCall_iff.1 hopen
  exact h.ne_of_mem (by simp [hname]) (by decide : Quoted.isSpecial '@' = true) rfl

theorem ofBare_eq : Param.ofBare name.toList = .text name := by
  obtain ⟨first, rest, hname, hfirst⟩ := h.exists_cons
  have hsign : first ≠ '-' := by
    rintro rfl
    exact absurd hfirst (by decide)
  have hliteral : Decimal.isLiteral name.toList = false := by
    simp [hname, Decimal.isLiteral, hsign, isDigit_of_isIdentStart hfirst]
  have htrue : (Text.asciiLower name == "true") = false := beq_false_of_ne h.ne_true
  have hfalse : (Text.asciiLower name == "false") = false := beq_false_of_ne h.ne_false
  rw [Param.ofBare]
  simp only [String.ofList_toList, htrue, hfalse, hliteral, Bool.false_eq_true, if_false]

/-- An identifier is read as a text, however deep it is nested. -/
theorem readWithin_eq (n : Nat) : Param.readWithin (n + 1) name.toList = .ok (.text name) := by
  obtain ⟨first, rest, hname, -⟩ := h.exists_cons
  have hfirst : first ∈ name.toList := by simp [hname]
  have hne : ∀ d, Quoted.isSpecial d = true → first ≠ d := fun d hd => h.ne_of_mem hfirst hd
  have hquoted : Quoted.decode? name.toList = none := by
    rw [Quoted.decode?, h.tight.trim_eq, hname]
    simp [hne '"' (by decide), hne '\'' (by decide)]
  have hat : (name.toList.head? == some '@') = false := by
    rw [hname]
    simp [hne '@' (by decide)]
  have hlist : Param.enclosed? '[' ']' name.toList = none := by
    rw [hname]
    simp [Param.enclosed?, hne '[' (by decide)]
  have hobject : Param.enclosed? '\x7b' '\x7d' name.toList = none := by
    rw [hname]
    simp [Param.enclosed?, hne '\x7b' (by decide)]
  rw [Param.readWithin, h.tight.trim_eq]
  simp only [hquoted, hat, Bool.false_eq_true, if_false, hlist, hobject, h.ofBare_eq]

theorem neutral {sep : Char} (hsep : Quoted.isSpecial sep = true) :
    Scanner.Neutral sep name.toList :=
  Scanner.neutral_of_not_special hsep fun c hc =>
    isSpecial_of_isIdentChar (h.isIdentChar_of_mem c hc)

theorem readAll_eq : Argument.readAll Param.read name.toList = .ok [⟨none, .text name⟩] := by
  obtain ⟨first, rest, hname, -⟩ := h.exists_cons
  have hblank : name.toList.all Chars.isBlank = false := by
    have hfirst := isBlank_of_isIdentChar (h.isIdentChar_of_mem first (by simp [hname]))
    simp [hname, hfirst]
  have hcut : Scanner.cut ',' {} name.toList = [name.toList] :=
    Scanner.cut_of_quiet (h.neutral (by decide) 0 {} (Scanner.idle_start 0)).1
  have hequals : '=' ∉ name.toList := fun hm => h.ne_of_mem hm (by decide) rfl
  rw [Argument.readAll, hblank, if_neg Bool.false_ne_true, splitTopLevel, hcut]
  apply Argument.mapM_located_of_ok
  refine .cons ?_ .nil
  rw [h.tight.trim_eq, Argument.read_of_no_name (Or.inr hequals), Param.read, h.readWithin_eq]
  rfl

end IsVariableName

/-- A call of an identifier. -/
def Call.ofName (function name : String) : Call :=
  let source := "@" ++ function ++ "(" ++ name ++ ")"
  ⟨function, [⟨none, .text name⟩], ⟨0, Text.size source⟩, source⟩

/-- A text that is a call of an identifier. -/
theorem Call.segment_ofName {function name : String}
    (hfunction : isIdentifier function.toList = true) (hname : IsVariableName name) :
    segment (ofName function name).source = .ok ⟨[], [(ofName function name, [])]⟩ := by
  let raw : RawCall := ⟨function.toList, 0, CallStyle.marked.head function.toList, name.toList⟩
  have hsource : (ofName function name).source.toList = raw.source := by
    simp [ofName, raw, RawCall.source, CallStyle.head]
  have hopen : CallStyle.marked.opening? none raw.source =
      some (function.toList, name.toList ++ [')']) := by
    have hnamed := CallStyle.named?_of_isIdentifier hfunction (name.toList ++ [')'])
    simp [raw, RawCall.source, CallStyle.head, CallStyle.opening?, hnamed]
  have hneutral : Scanner.Neutral ',' name.toList := hname.neutral (by decide)
  have hclose : Scanner.close? { depth := 1 } (name.toList ++ [')']) = some (name.toList, []) :=
    Scanner.close?_of_neutral (Scanner.idle_start 1) hneutral []
  have hscan : CallStyle.marked.scan none 0 raw.source = .ok ⟨[], [(raw, [])]⟩ := by
    rw [CallStyle.scan_of_opening hopen hclose, CallStyle.scan_nil]
    rfl
  have hread : raw.read Param.read = .ok (ofName function name) := by
    have hspan : raw.span = (ofName function name).span := by
      rw [RawCall.span, ← hsource]
      simp [raw, ofName, Text.size]
    rw [RawCall.read, hname.readAll_eq, hspan, ← hsource]
    simp [raw, shiftError, Except.mapError, Except.map, ofName, String.append_assoc]
  rw [segment, segmentWith, hsource, hscan]
  simp only [bind, Except.bind, List.mapM_cons, List.mapM_nil, hread, Except.map, pure, Except.pure]

end Worksheet
