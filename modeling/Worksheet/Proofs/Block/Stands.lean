import Worksheet.Proofs.Block.Lines
import Worksheet.Proofs.Move.Lines

namespace Worksheet

namespace Text

/-- A stretch of a text whose ends are character boundaries of the text. -/
structure Bounds (text : String) (s : Span) : Prop where
  start_le_stop : s.start ≤ s.stop
  start_boundary : ∃ before after, text.toList = before ++ after ∧ Chars.size before = s.start
  stop_boundary : ∃ before after, text.toList = before ++ after ∧ Chars.size before = s.stop

theorem Bounds.stop_le {text : String} {s : Span} (h : Bounds text s) : s.stop ≤ size text := by
  obtain ⟨before, after, htext, hsize⟩ := h.stop_boundary
  rw [size, htext, Chars.size_append, ← hsize]
  exact Nat.le_add_right _ _

/-- Where both ends are boundaries there is a text between them. -/
theorem Bounds.slice? {text : String} {s : Span} (h : Bounds text s) :
    ∃ inside, slice? text s = some inside := by
  obtain ⟨before, after, htext, hstart⟩ := h.start_boundary
  obtain ⟨before', after', htext', hstop⟩ := h.stop_boundary
  -- The shorter of the two beginnings is the beginning of the other.
  have hprefix : before <+: before' := by
    have hle := h.start_le_stop
    rcases List.prefix_or_prefix_of_prefix (⟨after, htext.symm⟩ : before <+: text.toList)
      ⟨after', htext'.symm⟩ with hp | ⟨more, rfl⟩
    · exact hp
    · rw [Chars.size_append] at hstart
      cases more with
      | nil => simp
      | cons c cs =>
        have hc := Char.utf8Size_pos c
        rw [Chars.size_cons] at hstart
        omega
  obtain ⟨inside, rfl⟩ := hprefix
  refine ⟨String.ofList inside, ?_⟩
  have hs : s = ⟨Chars.size before, Chars.size before + Chars.size inside⟩ := by
    rw [← Chars.size_append, hstart, hstop]
  rw [Text.slice?, htext', hs, Chars.slice?_append]
  rfl

end Text

namespace SourceLine

open Chars

/-- A line stands in a script where its span says, and its number counts the line breaks before
it. -/
def StandsIn (script : String) (l : SourceLine) : Prop :=
  ∃ before after, script.toList = before ++ l.text.toList ++ after ∧
    l.span = ⟨size before, size before + size l.text.toList⟩ ∧ l.number = before.count '\n' + 1

namespace StandsIn

variable {script : String} {l : SourceLine} (h : StandsIn script l)

include h

theorem slice? : Text.slice? script l.span = some l.text := by
  obtain ⟨before, after, hscript, hspan, -⟩ := h
  rw [Text.slice?, hscript, hspan, slice?_append, Option.map_some, String.ofList_toList]

theorem start_le_stop : l.span.start ≤ l.span.stop := by
  obtain ⟨before, after, -, hspan, -⟩ := h
  rw [hspan]
  exact Nat.le_add_right _ _

theorem start_boundary : ∃ before after, script.toList = before ++ after ∧
    size before = l.span.start ∧ l.number = before.count '\n' + 1 := by
  obtain ⟨before, after, hscript, hspan, hnumber⟩ := h
  exact ⟨before, l.text.toList ++ after, by rw [hscript, List.append_assoc], by rw [hspan], hnumber⟩

theorem bounds : Text.Bounds script l.span := by
  obtain ⟨before, after, hscript, hspan, -⟩ := h
  constructor
  · rw [hspan]
    exact Nat.le_add_right _ _
  · exact ⟨before, l.text.toList ++ after, by rw [hscript, List.append_assoc], by rw [hspan]⟩
  · exact ⟨before ++ l.text.toList, after, hscript, by rw [hspan, size_append]⟩

/-- The beginning of a line stands where the line does. -/
theorem cut {before after : List Char} (hsplit : l.text.toList = before ++ after) :
    StandsIn script ⟨l.number, String.ofList before,
      ⟨l.span.start, l.span.start + size before⟩⟩ := by
  obtain ⟨front, rest, hscript, hspan, hnumber⟩ := h
  refine ⟨front, after ++ rest, ?_, ?_, hnumber⟩
  · rw [hscript, hsplit, String.toList_ofList]
    simp
  · rw [hspan, String.toList_ofList]

end StandsIn

theorem standsIn_of_mem {script : String} {l : SourceLine} (h : l ∈ ofScript script) :
    StandsIn script l := by
  obtain ⟨before, raw, after, hsplit, hnumber, htext, hstart, hstop⟩ := of_mem_enumerate h
  have hbreaks : ∀ text ∈ before, '\n' ∉ text := by
    intro text ht
    have hmem : text ∈ splitOn '\n' script.toList := by
      rw [hsplit]
      exact List.mem_append_left _ ht
    exact not_mem_of_mem_splitOn hmem
  have hscript : script.toList = unlines before ++ join ['\n'] (raw :: after) := by
    rw [← join_append_cons, ← hsplit, join_splitOn]
  obtain ⟨ending, hraw⟩ := dropReturn_isPrefix raw
  obtain ⟨rest, hrest⟩ : ∃ rest, join ['\n'] (raw :: after) = raw ++ rest := by
    cases after with
    | nil => exact ⟨[], (List.append_nil raw).symm⟩
    | cons next others =>
      rw [join_cons_cons, List.append_assoc]
      exact ⟨_, rfl⟩
  rw [Nat.zero_add] at hstart hstop
  have hline : raw ++ rest = dropReturn raw ++ (ending ++ rest) := by
    rw [← List.append_assoc, hraw]
  refine ⟨unlines before, ending ++ rest, ?_, ?_, ?_⟩
  · rw [hscript, hrest, hline, htext, String.toList_ofList, List.append_assoc]
  · rw [htext, String.toList_ofList, ← hstop, ← hstart]
  · rw [count_unlines hbreaks, hnumber, Nat.add_comm]

/-- One line comes before another in a script. -/
structure Before (k l : SourceLine) : Prop where
  number : k.number < l.number
  span : k.span.stop < l.span.start

theorem pairwise_enumerate (number start : Nat) (raws : List (List Char)) :
    (enumerate number start raws).Pairwise Before := by
  induction raws generalizing number start with
  | nil => exact List.Pairwise.nil
  | cons raw rest ih =>
    refine List.pairwise_cons.2 ⟨?_, ih _ _⟩
    intro l hl
    obtain ⟨before, _, _, -, hnumber, -, hstart, -⟩ := of_mem_enumerate hl
    have hdrop := size_dropReturn_le raw
    constructor
    · show number < l.number
      omega
    · show start + size (dropReturn raw) < l.span.start
      omega

theorem pairwise_ofScript (script : String) : (ofScript script).Pairwise Before :=
  pairwise_enumerate 1 0 _

theorem map_number_ofScript (script : String) :
    (ofScript script).map (·.number) = List.range' 1 (ofScript script).length := by
  have h : ∀ (number start : Nat) (raws : List (List Char)),
      (enumerate number start raws).map (·.number) = List.range' number raws.length := by
    intro number start raws
    induction raws generalizing number start with
    | nil => rfl
    | cons raw rest ih => rw [enumerate, List.map_cons, ih, List.length_cons, List.range'_succ]
  rw [ofScript, h, length_enumerate]

end SourceLine

end Worksheet
