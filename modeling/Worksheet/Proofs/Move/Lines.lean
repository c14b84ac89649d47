import Worksheet.Proofs.Chars.Bytes
import Worksheet.Proofs.Chars.Split
import Worksheet.Proofs.Move.Basic

namespace Worksheet

namespace Chars

/-- Texts with a line break after each of them. -/
def unlines (texts : List (List Char)) : List Char :=
  texts.flatMap (· ++ ['\n'])

theorem join_append_cons (before : List (List Char)) (text : List Char)
    (after : List (List Char)) :
    join ['\n'] (before ++ text :: after) = unlines before ++ join ['\n'] (text :: after) := by
  induction before with
  | nil => rfl
  | cons first rest ih =>
    obtain ⟨next, others, hn⟩ : ∃ next others, rest ++ text :: after = next :: others := by
      cases rest with
      | nil => exact ⟨_, _, rfl⟩
      | cons next rest => exact ⟨_, _, rfl⟩
    rw [hn] at ih
    rw [List.cons_append, hn, join_cons_cons, ih, unlines, unlines, List.flatMap_cons,
      ← List.append_assoc]

theorem size_unlines_splitOn (cs : List Char) : size (unlines (splitOn '\n' cs)) = size cs + 1 := by
  have h : ∀ texts : List (List Char), texts ≠ [] →
      unlines texts = join ['\n'] texts ++ ['\n'] := by
    intro texts hne
    induction texts with
    | nil => exact absurd rfl hne
    | cons text rest ih =>
      cases rest with
      | nil => simp [unlines, join]
      | cons next rest =>
        rw [join_cons_cons, List.append_assoc, ← ih (by simp)]
        rfl
  rw [h (splitOn '\n' cs) (splitWhere_ne_nil _ cs), join_splitOn, size_append]
  rfl

theorem count_unlines {texts : List (List Char)} (h : ∀ text ∈ texts, '\n' ∉ text) :
    (unlines texts).count '\n' = texts.length := by
  induction texts with
  | nil => rfl
  | cons text rest ih =>
    have htext : text.count '\n' = 0 := List.count_eq_zero.2 (h text (by simp))
    have hrest := ih fun t ht => h t (by simp [ht])
    rw [unlines] at hrest
    rw [unlines, List.flatMap_cons, List.count_append, hrest, List.count_append, htext,
      List.length_cons]
    simp only [List.count_singleton_self]
    omega

theorem size_dropReturn_le (line : List Char) : size (dropReturn line) ≤ size line := by
  rw [dropReturn]
  cases h : stripLast? '\r' line with
  | none => exact Nat.le_refl _
  | some text =>
    rw [← append_of_stripLast? h, size_append]
    exact Nat.le_add_right _ _

end Chars

namespace SourceLine

open Chars

@[simp] theorem length_enumerate (number start : Nat) (raws : List (List Char)) :
    (enumerate number start raws).length = raws.length := by
  induction raws generalizing number start with
  | nil => rfl
  | cons raw rest ih => rw [enumerate, List.length_cons, ih, List.length_cons]

theorem length_ofScript (script : String) :
    (ofScript script).length = script.toList.count '\n' + 1 := by
  rw [ofScript, length_enumerate, splitOn, length_splitWhere]
  rfl

theorem enumerate_move (o : Origin) (number start : Nat) (raws : List (List Char)) :
    enumerate (number + o.lines) (start + o.bytes) raws =
      (enumerate number start raws).map (SourceLine.move o) := by
  induction raws generalizing number start with
  | nil => rfl
  | cons raw rest ih =>
    have hnumber : number + o.lines + 1 = (number + 1) + o.lines := by omega
    have hstart : start + o.bytes + size raw + 1 = (start + size raw + 1) + o.bytes := by omega
    have hstop : start + o.bytes + size (dropReturn raw) =
        (start + size (dropReturn raw)) + o.bytes := by omega
    rw [enumerate, enumerate, List.map_cons, hnumber, hstart, ih, hstop]
    rfl

theorem enumerate_append (number start : Nat) (xs ys : List (List Char)) :
    enumerate number start (xs ++ ys) = enumerate number start xs ++
      enumerate (number + xs.length) (start + size (unlines xs)) ys := by
  induction xs generalizing number start with
  | nil => rfl
  | cons x xs ih =>
    have hnumber : number + 1 + xs.length = number + (xs.length + 1) := by omega
    have hstart : start + size x + 1 + size (unlines xs) = start + size (unlines (x :: xs)) := by
      rw [unlines, unlines, List.flatMap_cons, size_append, size_append]
      show start + size x + 1 + _ = start + (size x + 1 + _)
      omega
    rw [List.cons_append, enumerate, enumerate, ih, List.cons_append, hnumber, hstart,
      List.length_cons]

/-- A script that goes on after a line break has the lines of the first part and those of the
second, moved. -/
theorem ofScript_append (a b : String) :
    ofScript (a ++ "\n" ++ b) = ofScript a ++ (ofScript b).map (SourceLine.move (.after a)) := by
  have hlist : (a ++ "\n" ++ b).toList = a.toList ++ '\n' :: b.toList := by simp
  have hlines : (Origin.after a).lines = (splitOn '\n' a.toList).length := length_enumerate _ _ _
  rw [ofScript, hlist, splitOn_append_cons, enumerate_append, size_unlines_splitOn, ofScript,
    ofScript, ← enumerate_move, hlines]
  rfl

/-- A line is a piece between line breaks less its carriage return, and its number and its place
come from the pieces before it. -/
theorem of_mem_enumerate {number start : Nat} {raws : List (List Char)} {l : SourceLine}
    (h : l ∈ enumerate number start raws) :
    ∃ before raw after, raws = before ++ raw :: after ∧ l.number = number + before.length ∧
      l.text = String.ofList (dropReturn raw) ∧ l.span.start = start + size (unlines before) ∧
      l.span.stop = start + size (unlines before) + size (dropReturn raw) := by
  induction raws generalizing number start with
  | nil => cases h
  | cons raw rest ih =>
    rw [enumerate, List.mem_cons] at h
    rcases h with rfl | h
    · exact ⟨[], raw, rest, rfl, rfl, rfl, rfl, rfl⟩
    · obtain ⟨before, other, after, rfl, hnumber, htext, hstart, hstop⟩ := ih h
      have hsize : size (unlines (raw :: before)) = size raw + 1 + size (unlines before) := by
        rw [unlines, unlines, List.flatMap_cons, size_append, size_append]
        rfl
      refine ⟨raw :: before, other, after, rfl, ?_, htext, ?_, ?_⟩
      · rw [hnumber, List.length_cons]
        omega
      · rw [hstart, hsize]
        omega
      · rw [hstop, hsize]
        omega

/-- A line lies within its script, and its number counts the line breaks before it. -/
structure LiesIn (script : String) (l : SourceLine) : Prop where
  start_le : l.span.start ≤ Text.size script
  stop_le : l.span.stop ≤ Text.size script
  number : countBefore '\n' l.span.start script.toList + 1 = l.number

theorem liesIn_of_mem {script : String} {l : SourceLine} (h : l ∈ ofScript script) :
    LiesIn script l := by
  obtain ⟨before, raw, after, hsplit, hnumber, -, hstart, hstop⟩ := of_mem_enumerate h
  have hscript : script.toList = unlines before ++ join ['\n'] (raw :: after) := by
    rw [← join_append_cons, ← hsplit, join_splitOn]
  have hraw : size raw ≤ size (join ['\n'] (raw :: after)) := by
    cases after with
    | nil => exact Nat.le_refl _
    | cons next rest =>
      rw [join_cons_cons, List.append_assoc, size_append]
      exact Nat.le_add_right _ _
  have hsize : Text.size script = size (unlines before) + size (join ['\n'] (raw :: after)) := by
    rw [Text.size, hscript, size_append]
  have hbreaks : ∀ text ∈ before, '\n' ∉ text := by
    intro text ht
    have hmem : text ∈ splitOn '\n' script.toList := by
      rw [hsplit]
      exact List.mem_append_left _ ht
    exact not_mem_of_mem_splitOn hmem
  have hdrop := size_dropReturn_le raw
  refine ⟨by omega, by omega, ?_⟩
  rw [hstart, hscript, countBefore_add_size, countBefore_zero, count_unlines hbreaks, hnumber]
  omega

end SourceLine

end Worksheet
