import Worksheet.Proofs.Move.Outline

namespace Worksheet

/-- The two faults are told in different words. -/
theorem StructureFault.message_ne (line : Nat) :
    StructureFault.stray.message ≠ (StructureFault.unclosed line).message := by
  intro h
  have htext : StructureFault.stray.message.toList = "block starting on line ".toList ++
      ((toString line).toList ++ " is never closed and was skipped".toList) := by
    rw [h, ← List.append_assoc, ← String.toList_append, ← String.toList_append]
    rfl
  have hhead := congrArg List.head? htext
  have hstray : StructureFault.stray.message.toList.head? = some 't' := by decide
  have hunclosed : "block starting on line ".toList.head? = some 'b' := by decide
  rw [List.head?_append, hstray, hunclosed] at hhead
  cases hhead

theorem Block.lineSpan_relocate (r : Relocation) (b : Block) (number : Nat) :
    (b.relocate r).lineSpan (r.line number) = (b.lineSpan number).relocate r := by
  have hfind : (b.relocate r).lines.find? (·.number == r.line number) =
      (b.lines.find? (·.number == number)).map (SourceLine.relocate r) := by
    rw [relocate, List.find?_map]
    congr 2
    funext l
    show (r.line l.number == r.line number) = (l.number == number)
    rw [Bool.eq_iff_iff, beq_iff_eq, beq_iff_eq, r.line_strictMono.injective.eq_iff]
  rw [lineSpan, lineSpan, hfind]
  cases b.lines.find? (·.number == number) <;> rfl

namespace Engine

theorem aboutStructure_append {a : String} {w : StructureWarning}
    (h : (Finding.warning w).LiesIn a) (b : String) :
    aboutStructure (a ++ "\n" ++ b) w = aboutStructure a w := by
  have hstart : w.span.start ≤ Text.size a := by
    cases h with
    | stray hs => exact hs
    | unclosed hs _ => exact hs
  rw [aboutStructure, aboutStructure, String.toList_append, String.toList_append,
    List.append_assoc, Chars.countBefore_append_of_le hstart]

theorem countBefore_after (a b : String) (n : Nat) :
    Chars.countBefore '\n' (n + (Origin.after a).bytes) (a ++ "\n" ++ b).toList =
      Chars.countBefore '\n' n b.toList + (Origin.after a).lines := by
  have hsize : (Origin.after a).bytes = Chars.size (a ++ "\n").toList := by
    rw [String.toList_append, Chars.size_append]
    rfl
  have hlines : (Origin.after a).lines = (a ++ "\n").toList.count '\n' := by
    show (SourceLine.ofScript a).length = _
    rw [SourceLine.length_ofScript, String.toList_append, List.count_append]
    rfl
  rw [hsize, hlines, String.toList_append (s := a ++ "\n"), Chars.countBefore_add_size,
    Nat.add_comm]

/-- A warning that begins on a relocated line of another script is the relocated warning. -/
theorem aboutStructure_relocate {a b : String} {w : StructureWarning} {r : Relocation}
    (h : (Finding.warning w).LiesIn a)
    (hline : Chars.countBefore '\n' (r.byte w.span.start) b.toList + 1 =
      r.line (Chars.countBefore '\n' w.span.start a.toList + 1)) :
    aboutStructure b (w.relocate r) = (aboutStructure a w).relocate r := by
  rw [aboutStructure, aboutStructure]
  cases h with
  | @stray s _ =>
    have hstay : Diagnostic.isUnclosed ⟨.warning, StructureFault.stray.message, none,
        some (Chars.countBefore '\n' s.start a.toList + 1), some s⟩ = false := by
      rw [Diagnostic.isUnclosed]
      simp [StructureFault.message_ne]
    rw [Diagnostic.relocate, hstay]
    dsimp only [StructureWarning.relocate, StructureFault.relocate, Span.relocate]
    rw [hline]
    rfl
  | @unclosed s line _ hn =>
    have hnamed : Diagnostic.isUnclosed ⟨.warning, (StructureFault.unclosed line).message, none,
        some (Chars.countBefore '\n' s.start a.toList + 1), some s⟩ = true := by
      rw [Diagnostic.isUnclosed, hn]
      simp
    rw [Diagnostic.relocate, hnamed]
    dsimp only [StructureWarning.relocate, StructureFault.relocate, Span.relocate]
    rw [hline, hn]
    rfl

theorem aboutStructure_move (a : String) {b : String} {w : StructureWarning}
    (h : (Finding.warning w).LiesIn b) :
    aboutStructure (a ++ "\n" ++ b) (w.move (.after a)) =
      (aboutStructure b w).move (.after a) := by
  refine aboutStructure_relocate h ?_
  dsimp only [Relocation.ofOrigin]
  rw [countBefore_after]
  omega

end Engine

end Worksheet
