import Worksheet.Block.Outline
import Worksheet.Proofs.Call.Plain

namespace Worksheet

namespace SourceLine

/-- The texts of some lines. -/
def texts (ls : List SourceLine) : List String :=
  ls.map (·.text)

@[simp] theorem texts_nil : texts [] = [] := rfl

@[simp] theorem texts_cons (l : SourceLine) (ls : List SourceLine) :
    texts (l :: ls) = l.text :: texts ls := rfl

@[simp] theorem texts_append (ks ls : List SourceLine) : texts (ks ++ ls) = texts ks ++ texts ls :=
  List.map_append

theorem texts_enumerate (number start : Nat) (raws : List (List Char)) :
    texts (enumerate number start raws) =
      raws.map fun raw => String.ofList (Chars.dropReturn raw) := by
  induction raws generalizing number start with
  | nil => rfl
  | cons raw rest ih => rw [enumerate, texts_cons, List.map_cons, ih]

/-- The lines that a text comes to as part of a script. -/
def linesOf (text : String) : List String :=
  (Chars.splitOn '\n' text.toList).map fun raw => String.ofList (Chars.dropReturn raw)

theorem texts_ofScript (script : String) : texts (ofScript script) = linesOf script :=
  texts_enumerate 1 0 _

theorem linesOf_join {parts : List String} (hne : parts ≠ []) :
    linesOf (Text.join "\n" parts) = parts.flatMap linesOf := by
  have hparts : parts.map String.toList ≠ [] := by simpa using hne
  have hsep : "\n".toList = ['\n'] := rfl
  rw [linesOf, Text.join, String.toList_ofList, hsep, Chars.splitOn_join_flatMap hparts,
    List.flatMap_map, List.map_flatMap]
  rfl

theorem dropReturn_isPrefix (cs : List Char) : Chars.dropReturn cs <+: cs := by
  rw [Chars.dropReturn]
  cases h : Chars.stripLast? '\r' cs with
  | none => exact List.prefix_refl cs
  | some text => exact ⟨['\r'], Chars.append_of_stripLast? h⟩

/-- A text without line breaks is a line of its own. -/
theorem linesOf_eq_singleton {text : String} (hbreak : '\n' ∉ text.toList)
    (hreturn : text.toList.getLast? ≠ some '\r') : linesOf text = [text] := by
  have hkept : Chars.dropReturn text.toList = text.toList := by
    rw [Chars.dropReturn]
    cases h : Chars.stripLast? '\r' text.toList with
    | none => rfl
    | some before =>
      have hlast := congrArg List.getLast? (Chars.append_of_stripLast? h)
      exact absurd (by simpa using hlast.symm) hreturn
  rw [linesOf, Chars.splitOn_eq_singleton hbreak, List.map_singleton, hkept, String.ofList_toList]

theorem flatMap_linesOf_eq_self {lines : List String} (hbreak : ∀ t ∈ lines, '\n' ∉ t.toList)
    (hreturn : ∀ t ∈ lines, t.toList.getLast? ≠ some '\r') : lines.flatMap linesOf = lines := by
  induction lines with
  | nil => rfl
  | cons t rest ih =>
    have ht : linesOf t = [t] := linesOf_eq_singleton (hbreak t (by simp)) (hreturn t (by simp))
    have hrest := ih (fun u hu => hbreak u (by simp [hu])) fun u hu => hreturn u (by simp [hu])
    rw [List.flatMap_cons, ht, hrest]
    rfl

theorem not_mem_of_mem_linesOf {line text : String} (h : line ∈ linesOf text) :
    '\n' ∉ line.toList := by
  obtain ⟨raw, hraw, rfl⟩ := List.mem_map.1 h
  rw [String.toList_ofList]
  intro hbreak
  exact Chars.not_mem_of_mem_splitOn hraw ((dropReturn_isPrefix raw).subset hbreak)

/-- If no call begins in a text, none begins in one of its lines. -/
theorem occursIn_of_mem_linesOf {line text : String} (h : Call.occursIn text = false)
    (hl : line ∈ linesOf text) : Call.occursIn line = false := by
  obtain ⟨raw, hraw, rfl⟩ := List.mem_map.1 hl
  have hwhole : Call.occursIn (String.ofList raw) = false := by
    rw [Call.occursIn, String.toList_ofList]
    exact opensCall_of_mem_splitOn h hraw
  apply Call.occursIn_of_isPrefix _ hwhole
  simpa using dropReturn_isPrefix raw

end SourceLine

namespace OpenBlock

/-- What the closing line leaves to the block: nothing, or the beginning of the line up to its last
closing brace. -/
theorem lines_addLast (b : OpenBlock) (l : SourceLine) : (b.addLast l).lines = b.lines ∨
    Text.trim l.text ≠ "\x7d" ∧ ∃ part : SourceLine, (b.addLast l).lines = b.lines ++ [part] ∧
      part.number = l.number ∧ part.text.toList ++ ['\x7d'] <+: l.text.toList := by
  rw [addLast]
  split
  · exact Or.inl rfl
  · rename_i hbrace
    split
    · exact Or.inl rfl
    · rename_i before after hlast
      split
      · exact Or.inl rfl
      · right
        refine ⟨by simpa using hbrace, _, rfl, rfl, after, ?_⟩
        rw [String.toList_ofList, List.append_assoc, List.singleton_append]
        exact Chars.append_of_splitLast hlast

variable {P : SourceLine → Prop} {b : OpenBlock} {l : SourceLine}

theorem forall_add (hb : ∀ m ∈ b.lines, P m) (hl : P l) : ∀ m ∈ (b.add l).lines, P m := by
  intro m hm
  rcases List.mem_append.1 hm with hm | hm
  · exact hb m hm
  · rwa [List.mem_singleton.1 hm]

theorem forall_addLast (hcut : ∀ part : SourceLine, part.number = l.number →
      part.text.toList <+: l.text.toList → P l → P part)
    (hb : ∀ m ∈ b.lines, P m) (hl : P l) : ∀ m ∈ (b.addLast l).lines, P m := by
  intro m hm
  rcases b.lines_addLast l with h | ⟨-, part, h, hnumber, hpart⟩
  · rw [h] at hm
    exact hb m hm
  · rw [h] at hm
    rcases List.mem_append.1 hm with hm | hm
    · exact hb m hm
    · rw [List.mem_singleton.1 hm]
      exact hcut part hnumber ((List.prefix_append _ _).trans hpart) hl

end OpenBlock

end Worksheet
