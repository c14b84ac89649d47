import Worksheet.Proofs.Block.Stands
import Worksheet.Proofs.Layout.Lines
import Worksheet.Proofs.Move.Diagnostics

namespace Worksheet

theorem Text.size_append_break (a b : String) :
    Text.size (a ++ "\n" ++ b) = Text.size a + 1 + Text.size b := by
  simp only [Text.size, String.toList_append, Chars.size_append]
  rfl

namespace Relocation

/-- Where the lines and bytes of a script come to stand if a line is put in after its first
lines. -/
def insertion (before line : String) : Relocation where
  block := id
  line number := if number ≤ (SourceLine.ofScript before).length then number else number + 1
  byte offset :=
    if offset ≤ Text.size before then offset else offset + (Text.size line + 1)
  line_strictMono := by
    intro m n h
    dsimp only
    split <;> split <;> omega

variable {before line : String} {number offset : Nat}

theorem insertion_line_of_le (h : number ≤ (SourceLine.ofScript before).length) :
    (insertion before line).line number = number :=
  if_pos h

theorem insertion_line_of_lt (h : (SourceLine.ofScript before).length < number) :
    (insertion before line).line number = number + 1 :=
  if_neg (Nat.not_le.2 h)

theorem insertion_byte_of_le (h : offset ≤ Text.size before) :
    (insertion before line).byte offset = offset :=
  if_pos h

theorem insertion_byte_of_lt (h : Text.size before < offset) :
    (insertion before line).byte offset = offset + (Text.size line + 1) :=
  if_neg (Nat.not_le.2 h)

/-- What comes after the script comes after the script and the line. -/
theorem insertion_byte_after (before line : String) (offset : Nat) :
    (insertion before line).byte (offset + (Origin.after before).bytes) =
      offset + (Origin.after (before ++ "\n" ++ line)).bytes := by
  have hbefore : (Origin.after before).bytes = Text.size before + 1 := rfl
  have hboth : (Origin.after (before ++ "\n" ++ line)).bytes =
      Text.size (before ++ "\n" ++ line) + 1 := rfl
  rw [insertion_byte_of_lt (by omega), hboth, hbefore, Text.size_append_break]
  omega

/-- No line comes to stand where the line is put in. -/
theorem insertion_line_ne (before line : String) (number : Nat) :
    (insertion before line).line number ≠ (SourceLine.ofScript before).length + 1 := by
  rcases Nat.lt_or_ge (SourceLine.ofScript before).length number with h | h
  · rw [insertion_line_of_lt h]
    omega
  · rw [insertion_line_of_le h]
    omega

end Relocation

open Relocation (insertion insertion_line_of_le insertion_line_of_lt insertion_byte_of_le
  insertion_byte_of_lt insertion_byte_after)

variable {before line : String} (hline : '\n' ∉ line.toList) (after : String)

namespace SourceLine

/-- The line that a text without line breaks is after a script. -/
def next (before line : String) : SourceLine :=
  move (.after before)
    ⟨1, String.ofList (Chars.dropReturn line.toList),
      ⟨0, Chars.size (Chars.dropReturn line.toList)⟩⟩

@[simp] theorem trim_next (before line : String) :
    Text.trim (next before line).text = Text.trim line := by
  simp [next, Text.trim, Chars.trim_dropReturn]

theorem number_le_of_mem {script : String} {l : SourceLine} (h : l ∈ ofScript script) :
    0 < l.number ∧ l.number ≤ (ofScript script).length := by
  have hmem := List.mem_map_of_mem (f := (·.number)) h
  rw [map_number_ofScript, List.mem_range'_1] at hmem
  omega

include hline in
theorem ofScript_next :
    ofScript (before ++ "\n" ++ line) = ofScript before ++ [next before line] := by
  have hown : ofScript line =
      [⟨1, String.ofList (Chars.dropReturn line.toList),
        ⟨0, Chars.size (Chars.dropReturn line.toList)⟩⟩] := by
    rw [ofScript, Chars.splitOn_eq_singleton hline]
    simp [enumerate]
  rw [ofScript_append, hown]
  rfl

include hline in
theorem after_next_lines :
    (Origin.after (before ++ "\n" ++ line)).lines = (ofScript before).length + 1 := by
  show (ofScript (before ++ "\n" ++ line)).length = _
  rw [ofScript_next hline, List.length_append, List.length_singleton]

/-- The lines up to the one that is put in stay where they are. -/
theorem relocate_of_mem_before {l : SourceLine} (h : l ∈ ofScript before) :
    l.relocate (insertion before line) = l := by
  have hlies := liesIn_of_mem h
  rw [relocate, Span.relocate, insertion_line_of_le (number_le_of_mem h).2,
    insertion_byte_of_le hlies.start_le, insertion_byte_of_le hlies.stop_le]

include hline in
/-- The lines after it come after both. -/
theorem relocate_move {l : SourceLine} (h : 0 < l.number) :
    (l.move (.after before)).relocate (insertion before line) =
      l.move (.after (before ++ "\n" ++ line)) := by
  have hnumber : (insertion before line).line (l.number + (Origin.after before).lines) =
      l.number + (Origin.after (before ++ "\n" ++ line)).lines := by
    have hlines : (Origin.after before).lines = (ofScript before).length := rfl
    rw [after_next_lines hline, hlines, insertion_line_of_lt (by omega), Nat.add_assoc]
  simp only [move, relocate, Span.relocate, Relocation.ofOrigin, hnumber, insertion_byte_after]

include hline in
/-- The lines of a script into which a line is put. -/
theorem ofScript_insert :
    ofScript (before ++ "\n" ++ line ++ "\n" ++ after) =
      (ofScript before).map (relocate (insertion before line)) ++ next before line ::
        ((ofScript after).map (move (.after before))).map (relocate (insertion before line)) := by
  have hfirst : (ofScript before).map (relocate (insertion before line)) = ofScript before :=
    (List.map_congr_left fun l hl => relocate_of_mem_before hl).trans (List.map_id _)
  have hrest : ((ofScript after).map (move (.after before))).map
      (relocate (insertion before line)) =
        (ofScript after).map (move (.after (before ++ "\n" ++ line))) := by
    rw [List.map_map]
    exact List.map_congr_left fun l hl => relocate_move hline (number_le_of_mem hl).1
  rw [ofScript_append, ofScript_next hline, hfirst, hrest, List.append_assoc, List.singleton_append]

/-- The line is relocated as a whole. -/
def MovesWhole (r : Relocation) (l : SourceLine) : Prop :=
  ∀ n ≤ Text.size l.text, r.byte (l.span.start + n) = r.byte l.span.start + n

/-- The line is put in between two lines. -/
theorem movesWhole_of_mem {l : SourceLine} (h : l ∈ ofScript (before ++ "\n" ++ after)) :
    MovesWhole (insertion before line) l := by
  intro n hn
  rw [ofScript_append] at h
  rcases List.mem_append.1 h with h | h
  · have hstop := (liesIn_of_mem h).stop_le
    obtain ⟨_, _, -, hspan, -⟩ := standsIn_of_mem h
    rw [hspan] at hstop ⊢
    rw [Text.size] at hn
    dsimp only at hstop ⊢
    rw [insertion_byte_of_le (by omega), insertion_byte_of_le (by omega)]
  · obtain ⟨own, -, rfl⟩ := List.mem_map.1 h
    have hstart : Text.size before < (own.move (.after before)).span.start := by
      show Text.size before < own.span.start + (Text.size before + 1)
      omega
    rw [insertion_byte_of_lt hstart, insertion_byte_of_lt (by omega), Nat.add_right_comm]

end SourceLine

theorem Relocation.insertion_byte_size (before line after : String) :
    (insertion before line).byte (Text.size (before ++ "\n" ++ after)) =
      Text.size (before ++ "\n" ++ line ++ "\n" ++ after) := by
  have hold := Text.size_append_break before after
  have hnext := Text.size_append_break (before ++ "\n" ++ line) after
  have hline := Text.size_append_break before line
  rw [insertion_byte_of_lt (by omega)]
  omega

/-- What stands before the line stays. -/
theorem Text.slice?_insertion_before {s : Span} (hstart : s.start ≤ Text.size before)
    (hstop : s.stop ≤ Text.size before) :
    slice? (before ++ "\n" ++ line ++ "\n" ++ after) (s.relocate (insertion before line)) =
      slice? (before ++ "\n" ++ after) s := by
  have hs : s.relocate (insertion before line) = s := by
    rw [Span.relocate, insertion_byte_of_le hstart, insertion_byte_of_le hstop]
  rw [hs, slice?, slice?]
  simp only [String.toList_append, List.append_assoc]
  rw [Chars.slice?_append_of_le hstop, Chars.slice?_append_of_le hstop]

/-- What stands after the line stays. -/
theorem Text.slice?_insertion_after (s : Span) :
    slice? (before ++ "\n" ++ line ++ "\n" ++ after)
        ((s.shift (Origin.after before).bytes).relocate (insertion before line)) =
      slice? (before ++ "\n" ++ after) (s.shift (Origin.after before).bytes) := by
  have hsize : ∀ text : String, (Origin.after text).bytes = Chars.size (text ++ "\n").toList := by
    intro text
    rw [String.toList_append, Chars.size_append]
    rfl
  have hs : (s.shift (Origin.after before).bytes).relocate (insertion before line) =
      s.shift (Origin.after (before ++ "\n" ++ line)).bytes := by
    simp only [Span.relocate, Span.shift, insertion_byte_after]
  rw [hs, slice?, slice?, String.toList_append (s := before ++ "\n" ++ line ++ "\n"),
    String.toList_append (s := before ++ "\n"), hsize, hsize, Chars.slice?_shift,
    Chars.slice?_shift]

include hline in
/-- Line breaks before an offset are counted as lines are. -/
theorem Chars.countBefore_insertion (offset : Nat) :
    countBefore '\n' ((insertion before line).byte offset)
        (before ++ "\n" ++ line ++ "\n" ++ after).toList + 1 =
      (insertion before line).line
        (countBefore '\n' offset (before ++ "\n" ++ after).toList + 1) := by
  rcases Nat.lt_or_ge (Text.size before) offset with hlt | hle
  · obtain ⟨n, rfl⟩ : ∃ n, offset = n + (Origin.after before).bytes :=
      Nat.exists_eq_add_of_le' hlt
    have hlines : (Origin.after before).lines = (SourceLine.ofScript before).length := rfl
    rw [insertion_byte_after, Engine.countBefore_after (before ++ "\n" ++ line),
      Engine.countBefore_after before, SourceLine.after_next_lines hline,
      insertion_line_of_lt (by omega), hlines]
    rfl
  · have hcount := countBefore_le_count '\n' offset before.toList
    have hlength := SourceLine.length_ofScript before
    rw [insertion_byte_of_le hle]
    simp only [String.toList_append, List.append_assoc]
    rw [countBefore_append_of_le hle, countBefore_append_of_le hle,
      insertion_line_of_le (by omega)]

end Worksheet
